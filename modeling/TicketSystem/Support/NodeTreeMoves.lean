import Mathlib
import TicketSystem.Support.NodeTree

/-!
# Contents and addresses of a tree of nodes

The content of a node is changed in its place.  Two nodes change their places
when all links to the one lead to the other.
-/

namespace TicketSystem.Support

variable {α : Type*} {k k' : TreeLinks α} {path : List (Frame α)}
  {t u : NodeTree α} {f : Option ℕ} {p q : ℕ} {g : α → α}

/-! ## Contents -/

namespace NodeTree

/-- The content of the node `p` is changed. -/
def modify (p : ℕ) (g : α → α) : NodeTree α → NodeTree α
  | nil => nil
  | node q a l r =>
      node q (if q = p then g a else a) (l.modify p g) (r.modify p g)

@[simp] theorem modify_join {s : Side} {a : α} :
    (join s q a t u).modify p g =
      join s q (if q = p then g a else a) (t.modify p g) (u.modify p g) := by
  cases s <;> rfl

theorem modify_eq_self (h : p ∉ t.nodes) : t.modify p g = t := by
  induction t with
  | nil => rfl
  | node q a l r ihl ihr =>
      have hq : q ≠ p := fun hq => h (hq ▸ List.mem_cons_self)
      rw [modify, if_neg hq,
        ihl fun hp => h (List.mem_cons_of_mem q (List.mem_append_left _ hp)),
        ihr fun hp => h (List.mem_cons_of_mem q (List.mem_append_right _ hp))]

@[simp] theorem root_modify : (t.modify p g).root = t.root := by
  cases t <;> rfl

@[simp] theorem nodes_modify : (t.modify p g).nodes = t.nodes := by
  induction t with
  | nil => rfl
  | node q a l r ihl ihr => simp [modify, nodes, ihl, ihr]

theorem Stands.modify (h : t.Stands k f) (hchild : k'.child = k.child)
    (hfa : k'.fa = k.fa) (hp : k'.content p = (k.content p).map g)
    (hcontent : ∀ q, q ≠ p → k'.content q = k.content q) :
    (t.modify p g).Stands k' f := by
  induction t generalizing f with
  | nil => trivial
  | node q a l r ihl ihr =>
      obtain ⟨ha, hf, hl, hr, hleft, hright⟩ := h
      refine ⟨?_, hfa ▸ hf, ?_, ?_, ihl hleft, ihr hright⟩
      · by_cases hq : q = p
        · subst hq
          rw [hp, ha, if_pos rfl]
          rfl
        · rw [hcontent q hq, ha, if_neg hq]
      · rw [hchild, root_modify, hl]
      · rw [hchild, root_modify, hr]

end NodeTree

/-- The content of the node `p` on the path is changed. -/
def Frame.modify (p : ℕ) (g : α → α) (f : Frame α) : Frame α where
  side := f.side
  p := f.p
  a := if f.p = p then g f.a else f.a
  sibling := f.sibling.modify p g

theorem modify_plug : (plug path t).modify p g =
    plug (path.map (Frame.modify p g)) (t.modify p g) := by
  induction path generalizing t with
  | nil => rfl
  | cons f path ih => rw [plug, ih, NodeTree.modify_join, List.map_cons, plug,
      Frame.modify]

theorem map_modify_eq_self (h : p ∉ pathNodes path) :
    path.map (Frame.modify p g) = path := by
  induction path with
  | nil => rfl
  | cons f path ih =>
      have hp : f.p ≠ p := fun hp => h (hp ▸ List.mem_cons_self)
      have hsibling : p ∉ f.sibling.nodes := fun hp => h
        (List.mem_cons_of_mem _ (List.mem_append_left _ hp))
      rw [List.map_cons, ih fun hp => h (List.mem_cons_of_mem _
        (List.mem_append_right _ hp)), Frame.modify, if_neg hp,
        NodeTree.modify_eq_self hsibling]

theorem modify_plug_eq (h : p ∉ pathNodes path) :
    (plug path t).modify p g = plug path (t.modify p g) := by
  rw [modify_plug, map_modify_eq_self h]

/-! ## Parents and children -/

/-- A tree with a node at the end of a path has a root. -/
theorem exists_root_plug_join (path : List (Frame α)) (s : Side) (p : ℕ)
    (a : α) (t u : NodeTree α) :
    ∃ r, (plug path (.join s p a t u)).root = some r := by
  cases path with
  | nil => exact ⟨p, NodeTree.root_join ..⟩
  | cons g path =>
      obtain ⟨r, hr⟩ := exists_root_plug g path
      exact ⟨r, hr _⟩

/-- The root of a tree stands on a path that is not empty. -/
theorem root_plug_mem {g : Frame α}
    (h : (plug (g :: path) t).root = some p) : p ∈ pathNodes (g :: path) := by
  induction path generalizing g t with
  | nil =>
      rw [plug, plug, NodeTree.root_join] at h
      obtain rfl := Option.some.inj h
      exact List.mem_cons_self
  | cons g' path ih =>
      exact List.mem_cons_of_mem _ (List.mem_append_right _ (ih h))

namespace NodeTree

/-- A child leads back to its parent. -/
theorem Stands.fa_of_child (h : t.Stands k f) {s : Side} (hp : p ∈ t.nodes)
    (hq : k.child s p = some q) : k.fa q = some p ∧ q ∈ t.nodes := by
  induction t generalizing f with
  | nil => cases hp
  | node r a l u ihl ihr =>
      obtain ⟨-, -, hl, hu, hleft, hright⟩ := h
      rcases List.mem_cons.mp hp with rfl | hp
      · have hroot : ∀ v : NodeTree α, v.Stands k (some p) →
            v.root = some q → k.fa q = some p := by
          rintro (_ | ⟨x, b, v₁, v₂⟩) hv hx
          · cases hx
          · obtain rfl := Option.some.inj hx
            exact hv.2.1
        cases s with
        | left =>
            rw [hl] at hq
            exact ⟨hroot l hleft hq, List.mem_cons_of_mem p
              (List.mem_append_left _ (root_mem hq))⟩
        | right =>
            rw [hu] at hq
            exact ⟨hroot u hright hq, List.mem_cons_of_mem p
              (List.mem_append_right _ (root_mem hq))⟩
      · rcases List.mem_append.mp hp with hp | hp
        · obtain ⟨hfa, hmem⟩ := ihl hleft hp
          exact ⟨hfa, List.mem_cons_of_mem r (List.mem_append_left _ hmem)⟩
        · obtain ⟨hfa, hmem⟩ := ihr hright hp
          exact ⟨hfa, List.mem_cons_of_mem r (List.mem_append_right _ hmem)⟩

/-- A node that is not the root is a child of its parent. -/
theorem Stands.child_of_fa (h : t.Stands k f) (hq : q ∈ t.nodes)
    (hroot : t.root ≠ some q) :
    ∃ p s, p ∈ t.nodes ∧ k.fa q = some p ∧ k.child s p = some q := by
  induction t generalizing f with
  | nil => cases hq
  | node r a l u ihl ihr =>
      obtain ⟨-, -, hl, hu, hleft, hright⟩ := h
      have hbelow : ∀ (v : NodeTree α) (s : Side), v.Stands k (some r) →
          k.child s r = v.root → q ∈ v.nodes →
            (v.root ≠ some q → ∃ p s, p ∈ v.nodes ∧ k.fa q = some p ∧
              k.child s p = some q) →
            (∀ x ∈ v.nodes, x ∈ (node r a l u).nodes) →
              ∃ p s, p ∈ (node r a l u).nodes ∧ k.fa q = some p ∧
                k.child s p = some q := by
        intro v s hv hchild hmem hih hsub
        by_cases hvq : v.root = some q
        · refine ⟨r, s, List.mem_cons_self, ?_, hchild.trans hvq⟩
          cases v with
          | nil => cases hvq
          | node x b v₁ v₂ =>
              obtain rfl := Option.some.inj hvq
              exact hv.2.1
        · obtain ⟨p, s', hp, hlinks⟩ := hih hvq
          exact ⟨p, s', hsub p hp, hlinks⟩
      rcases List.mem_cons.mp hq with rfl | hq
      · exact absurd rfl hroot
      · rcases List.mem_append.mp hq with hq | hq
        · exact hbelow l .left hleft hl hq (ihl hleft hq) fun x hx =>
            List.mem_cons_of_mem r (List.mem_append_left _ hx)
        · exact hbelow u .right hright hu hq (ihr hright hq) fun x hx =>
            List.mem_cons_of_mem r (List.mem_append_right _ hx)

/-- The two children of a node are different. -/
theorem Stands.side_unique (h : t.Stands k f) (hnodup : t.nodes.Nodup)
    (hp : p ∈ t.nodes) {s s' : Side} (hs : k.child s p = some q)
    (hs' : k.child s' p = some q) : s = s' := by
  induction t generalizing f with
  | nil => cases hp
  | node r a l u ihl ihr =>
      obtain ⟨-, -, hl, hu, hleft, hright⟩ := h
      obtain ⟨-, hlu⟩ := List.nodup_cons.mp hnodup
      obtain ⟨hlnd, hund, hdisjoint⟩ := List.nodup_append.mp hlu
      rcases List.mem_cons.mp hp with rfl | hp
      · have hboth : l.root = some q → u.root = some q → False :=
          fun hlq huq => hdisjoint q (root_mem hlq) q (root_mem huq) rfl
        cases s <;> cases s' <;> try rfl
        · exact (hboth (hl.symm.trans hs) (hu.symm.trans hs')).elim
        · exact (hboth (hl.symm.trans hs') (hu.symm.trans hs)).elim
      · rcases List.mem_append.mp hp with hp | hp
        · exact ihl hleft hlnd hp
        · exact ihr hright hund hp

/-! ## The ends of a tree -/

/-- The last node on one side of a tree. -/
def outer (s : Side) : NodeTree α → Option ℕ
  | nil => none
  | node p _ l r =>
      match s with
      | .left => if l.root = none then some p else l.outer s
      | .right => if r.root = none then some p else r.outer s

theorem outer_join (s : Side) {a : α} : (join s p a t u).outer s =
    if t.root = none then some p else t.outer s := by
  cases s <;> rfl

theorem outer_left : t.outer .left = t.cells.head?.map Prod.fst := by
  induction t with
  | nil => rfl
  | node p a l r ihl _ =>
      rw [outer, cells]
      cases l with
      | nil => rfl
      | node q b l₁ l₂ =>
          rw [if_neg (by simp [root]), ihl, cells]
          simp

theorem outer_right : t.outer .right = t.cells.getLast?.map Prod.fst := by
  induction t with
  | nil => rfl
  | node p a l r _ ihr =>
      rw [outer, cells]
      cases r with
      | nil => simp [root, cells]
      | node q b r₁ r₂ =>
          have hne : (node q b r₁ r₂).cells ≠ [] := by simp [cells]
          rw [if_neg (by simp [root]), ihr,
            show l.cells ++ (p, a) :: (node q b r₁ r₂).cells =
              (l.cells ++ [(p, a)]) ++ (node q b r₁ r₂).cells by simp,
            List.getLast?_append_of_ne_nil _ hne]

/-- A tree that is not empty has an end. -/
theorem exists_outer (h : t.root ≠ none) (s : Side) :
    ∃ q, t.outer s = some q := by
  induction t with
  | nil => exact absurd rfl h
  | node q b l r ihl ihr =>
      cases s with
      | left =>
          rw [outer]
          by_cases hl : l.root = none
          · exact ⟨q, if_pos hl⟩
          · obtain ⟨q', hq'⟩ := ihl hl
            exact ⟨q', (if_neg hl).trans hq'⟩
      | right =>
          rw [outer]
          by_cases hr : r.root = none
          · exact ⟨q, if_pos hr⟩
          · obtain ⟨q', hq'⟩ := ihr hr
            exact ⟨q', (if_neg hr).trans hq'⟩

/-! ## Addresses -/

/-- The nodes are moved to other addresses. -/
def rename (π : ℕ → ℕ) : NodeTree α → NodeTree α
  | nil => nil
  | node p a l r => node (π p) a (l.rename π) (r.rename π)

theorem rename_join (π : ℕ → ℕ) {s : Side} {a : α} :
    (join s p a t u).rename π =
      join s (π p) a (t.rename π) (u.rename π) := by
  cases s <;> rfl

theorem root_rename (π : ℕ → ℕ) (t : NodeTree α) :
    (t.rename π).root = t.root.map π := by
  cases t <;> rfl

theorem nodes_rename (π : ℕ → ℕ) (t : NodeTree α) :
    (t.rename π).nodes = t.nodes.map π := by
  induction t with
  | nil => rfl
  | node p a l r ihl ihr => simp [rename, nodes, ihl, ihr]

theorem rename_eq_self {π : ℕ → ℕ} (h : ∀ p ∈ t.nodes, π p = p) :
    t.rename π = t := by
  induction t with
  | nil => rfl
  | node p a l r ihl ihr =>
      rw [rename, h p List.mem_cons_self,
        ihl fun q hq => h q (List.mem_cons_of_mem p
          (List.mem_append_left _ hq)),
        ihr fun q hq => h q (List.mem_cons_of_mem p
          (List.mem_append_right _ hq))]

theorem Stands.rename {π : ℕ → ℕ} (h : t.Stands k f)
    (hcontent : ∀ p ∈ t.nodes, k'.content (π p) = k.content p)
    (hchild : ∀ p ∈ t.nodes, ∀ s, k'.child s (π p) = (k.child s p).map π)
    (hfa : ∀ p ∈ t.nodes, k'.fa (π p) = (k.fa p).map π) :
    (t.rename π).Stands k' (f.map π) := by
  induction t generalizing f with
  | nil => trivial
  | node p a l r ihl ihr =>
      obtain ⟨ha, hf, hl, hr, hleft, hright⟩ := h
      have hp : p ∈ (node p a l r).nodes := List.mem_cons_self
      have hlsub : ∀ q ∈ l.nodes, q ∈ (node p a l r).nodes := fun q hq =>
        List.mem_cons_of_mem p (List.mem_append_left _ hq)
      have hrsub : ∀ q ∈ r.nodes, q ∈ (node p a l r).nodes := fun q hq =>
        List.mem_cons_of_mem p (List.mem_append_right _ hq)
      refine ⟨(hcontent p hp).trans ha, ?_, ?_, ?_, ?_, ?_⟩
      · rw [hfa p hp, hf]
      · rw [hchild p hp, hl, root_rename]
      · rw [hchild p hp, hr, root_rename]
      · exact ihl hleft (fun q hq => hcontent q (hlsub q hq))
          (fun q hq => hchild q (hlsub q hq)) fun q hq => hfa q (hlsub q hq)
      · exact ihr hright (fun q hq => hcontent q (hrsub q hq))
          (fun q hq => hchild q (hrsub q hq)) fun q hq => hfa q (hrsub q hq)

end NodeTree

/-- The nodes of a path are moved to other addresses. -/
def Frame.rename (π : ℕ → ℕ) (f : Frame α) : Frame α where
  side := f.side
  p := π f.p
  a := f.a
  sibling := f.sibling.rename π

theorem rename_plug (π : ℕ → ℕ) : (plug path t).rename π =
    plug (path.map (Frame.rename π)) (t.rename π) := by
  induction path generalizing t with
  | nil => rfl
  | cons f path ih => rw [plug, ih, NodeTree.rename_join, List.map_cons, plug,
      Frame.rename]

theorem map_rename_eq_self {π : ℕ → ℕ}
    (h : ∀ p ∈ pathNodes path, π p = p) :
    path.map (Frame.rename π) = path := by
  induction path with
  | nil => rfl
  | cons f path ih =>
      have hsibling : f.sibling.rename π = f.sibling :=
        NodeTree.rename_eq_self fun q hq => h q (List.mem_cons_of_mem _
          (List.mem_append_left _ hq))
      rw [List.map_cons, ih fun q hq => h q (List.mem_cons_of_mem _
        (List.mem_append_right _ hq)), Frame.rename, hsibling,
        h f.p List.mem_cons_self]

theorem rename_plug_eq {π : ℕ → ℕ} (h : ∀ p ∈ pathNodes path, π p = p) :
    (plug path t).rename π = plug path (t.rename π) := by
  rw [rename_plug, map_rename_eq_self h]

/-! ## Two nodes that change their places -/

theorem plug_append (path path' : List (Frame α)) (t : NodeTree α) :
    plug (path ++ path') t = plug path' (plug path t) := by
  induction path generalizing t with
  | nil => rfl
  | cons f path ih => exact ih _

theorem pathNodes_append (path path' : List (Frame α)) :
    pathNodes (path ++ path') = pathNodes path ++ pathNodes path' := by
  induction path with
  | nil => rfl
  | cons f path ih => simp [pathNodes, ih]

/-- The last node on one side has no child there. -/
theorem exists_plug_outer {s : Side} (h : t.outer s = some p) :
    ∃ path a u, t = plug path (.join s p a .nil u) ∧
      ∀ f ∈ path, Frame.side f = s := by
  induction t with
  | nil => cases h
  | node q b l r ihl ihr =>
      cases s with
      | left =>
          rw [NodeTree.outer] at h
          by_cases hl : l.root = none
          · rw [if_pos hl] at h
            obtain rfl := Option.some.inj h
            obtain rfl := NodeTree.eq_nil_of_root hl
            exact ⟨[], b, r, rfl, nofun⟩
          · rw [if_neg hl] at h
            obtain ⟨path, a, u, rfl, hpath⟩ := ihl h
            refine ⟨path ++ [⟨.left, q, b, r⟩], a, u, ?_, ?_⟩
            · rw [plug_append]
              rfl
            · intro f hf
              rcases List.mem_append.mp hf with hf | hf
              · exact hpath f hf
              · rw [List.mem_singleton.mp hf]
      | right =>
          rw [NodeTree.outer] at h
          by_cases hr : r.root = none
          · rw [if_pos hr] at h
            obtain rfl := Option.some.inj h
            obtain rfl := NodeTree.eq_nil_of_root hr
            exact ⟨[], b, l, rfl, nofun⟩
          · rw [if_neg hr] at h
            obtain ⟨path, a, u, rfl, hpath⟩ := ihr h
            refine ⟨path ++ [⟨.right, q, b, l⟩], a, u, ?_, ?_⟩
            · rw [plug_append]
              rfl
            · intro f hf
              rcases List.mem_append.mp hf with hf | hf
              · exact hpath f hf
              · rw [List.mem_singleton.mp hf]

/-- All links to one of two nodes lead to the other one; the contents of the
two are changed. -/
theorem NodeTree.Stands.exchange {r : ℕ} {g' : α → α} (hne : q ≠ r)
    (h : t.Stands k none)
    (hcontent : ∀ p, p ≠ q → p ≠ r → k'.content p = k.content p)
    (hq : k'.content q = (k.content r).map g)
    (hr : k'.content r = (k.content q).map g')
    (hchild : ∀ p ∈ t.nodes, ∀ s, k'.child s (Equiv.swap q r p) =
      (k.child s p).map (Equiv.swap q r))
    (hfa : ∀ p ∈ t.nodes, k'.fa (Equiv.swap q r p) =
      (k.fa p).map (Equiv.swap q r)) :
    (((t.rename (Equiv.swap q r)).modify q g).modify r g').Stands k' none := by
  let k₁ : TreeLinks α :=
    { content := fun p => k.content (Equiv.swap q r p)
      child := k'.child
      fa := k'.fa }
  let k₂ : TreeLinks α :=
    { content := Function.update k₁.content q ((k.content r).map g)
      child := k'.child
      fa := k'.fa }
  have h₁ : (t.rename (Equiv.swap q r)).Stands k₁ none := by
    apply h.rename
    · intro p _
      change k.content (Equiv.swap q r (Equiv.swap q r p)) = _
      rw [Equiv.swap_apply_self]
    · exact hchild
    · exact hfa
  have h₂ : ((t.rename (Equiv.swap q r)).modify q g).Stands k₂ none := by
    refine h₁.modify ?_ ?_ ?_ ?_
    · rfl
    · rfl
    · change Function.update k₁.content q ((k.content r).map g) q =
        (k.content (Equiv.swap q r q)).map g
      rw [Function.update_self, Equiv.swap_apply_left]
    · exact fun p hp => Function.update_of_ne hp _ _
  refine h₂.modify ?_ ?_ ?_ ?_
  · rfl
  · rfl
  · change k'.content r = (Function.update k₁.content q _ r).map g'
    rw [hr, Function.update_of_ne hne.symm]
    change _ = (k.content (Equiv.swap q r r)).map g'
    rw [Equiv.swap_apply_right]
  · intro p hp
    change k'.content p = Function.update k₁.content q _ p
    by_cases hpq : p = q
    · rw [hpq, Function.update_self, hq]
    · rw [Function.update_of_ne hpq, hcontent p hpq hp]
      change _ = k.content (Equiv.swap q r p)
      rw [Equiv.swap_apply_of_ne_of_ne hpq hp]

/-- What leads to the one node leads to the other one. -/
theorem map_swap_eq {r : ℕ} {o : Option ℕ} (hq : o ≠ some q)
    (hr : o ≠ some r) : o.map (Equiv.swap q r) = o := by
  cases o with
  | none => rfl
  | some p =>
      have hp : Equiv.swap q r p = p := by
        apply Equiv.swap_apply_of_ne_of_ne
        · rintro rfl
          exact hq rfl
        · rintro rfl
          exact hr rfl
      rw [Option.map_some, hp]

/-- A node with a parent is a child of it. -/
theorem NodeTree.Stands.exists_child (h : t.Stands k none) (hp : p ∈ t.nodes)
    (hfa : k.fa p = some q) : ∃ s, k.child s q = some p := by
  have hroot : t.root ≠ some p := by
    intro hroot
    obtain ⟨a, l, r, rfl⟩ := exists_join .left hroot
    rw [h.2.1] at hfa
    cases hfa
  obtain ⟨q', s, -, hfa', hchild⟩ := h.child_of_fa hp hroot
  obtain rfl : q' = q := Option.some.inj (hfa'.symm.trans hfa)
  exact ⟨s, hchild⟩

/-- The redirected links are those that led to the node. -/
theorem NodeTree.Stands.redirect_eq (h : t.Stands k none)
    (hnodup : t.nodes.Nodup) (hq : q ∈ t.nodes) (hp : p ∈ t.nodes)
    (s : Side) (x : Option ℕ) :
    redirect k.child (k.fa q) q x s p =
      if k.child s p = some q then x else k.child s p := by
  by_cases hchild : k.child s p = some q
  · have hfa := (h.fa_of_child hp hchild).1
    rw [if_pos hchild, redirect, if_pos]
    refine ⟨hfa, ?_⟩
    cases s with
    | left => simp [hchild]
    | right =>
        have hother : k.child .left p ≠ some q := by
          intro hleft
          cases h.side_unique hnodup hp hchild hleft
        simp [hother]
  · rw [if_neg hchild, redirect]
    by_cases hwrite : k.fa q = some p ∧
        (s = .left ↔ k.child .left p = some q)
    · exfalso
      obtain ⟨hfa, hside⟩ := hwrite
      obtain ⟨s', hchild'⟩ := h.exists_child hq hfa
      cases s with
      | left => exact hchild (hside.mp rfl)
      | right =>
          cases s' with
          | left => cases hside.mpr hchild'
          | right => exact hchild hchild'
    · rw [if_neg hwrite]

section Exchange

variable {r : ℕ} {rest : List (Frame α)} {a b : α} {L R : NodeTree α}

/-- The two nodes lie apart from the rest of the tree. -/
theorem exchange_apart {s s' : Side} (hnodup : (plug path (.join s q a L
      (plug rest (.join s' r b .nil R)))).nodes.Nodup) :
    q ≠ r ∧ ∀ p ∈ [q, r], p ∉ pathNodes path ∧ p ∉ L.nodes ∧
      p ∉ pathNodes rest ∧ p ∉ R.nodes := by
  have hperm : (plug path (.join s q a L
      (plug rest (.join s' r b .nil R)))).nodes.Perm
        (q :: (L.nodes ++ (r :: (R.nodes ++ pathNodes rest))) ++
          pathNodes path) := by
    refine (nodes_plug _ _).trans (List.Perm.append_right _ ?_)
    refine (NodeTree.nodes_join ..).trans (List.Perm.cons q ?_)
    refine List.Perm.append_left _ ((nodes_plug _ _).trans ?_)
    refine ((NodeTree.nodes_join ..).append_right _).trans ?_
    rw [NodeTree.nodes_nil, List.nil_append, List.cons_append]
  have hnd := hperm.nodup_iff.mp hnodup
  simp only [List.nodup_cons, List.nodup_append, List.cons_append,
    List.mem_cons, List.mem_append] at hnd
  constructor
  · grind
  · intro p hp
    grind

/-- The nodes that have changed their places. -/
theorem exchange_plug (g g' : α → α) {s s' : Side}
    (hnodup : (plug path (.join s q a L
      (plug rest (.join s' r b .nil R)))).nodes.Nodup) :
    ((((plug path (.join s q a L (plug rest (.join s' r b .nil R)))).rename
      (Equiv.swap q r)).modify q g).modify r g') =
        plug path (.join s r (g' a) L (plug rest (.join s' q (g b) .nil R))) := by
  obtain ⟨hne, hapart⟩ := exchange_apart hnodup
  obtain ⟨hqpath, hqL, hqrest, hqR⟩ := hapart q (by simp)
  obtain ⟨hrpath, hrL, hrrest, hrR⟩ := hapart r (by simp)
  have hfix : ∀ ps : List ℕ, q ∉ ps → r ∉ ps →
      ∀ p ∈ ps, Equiv.swap q r p = p := by
    intro ps hq hr p hp
    apply Equiv.swap_apply_of_ne_of_ne
    · rintro rfl
      exact hq hp
    · rintro rfl
      exact hr hp
  rw [rename_plug_eq (hfix _ hqpath hrpath),
    NodeTree.rename_join, NodeTree.rename_eq_self (hfix _ hqL hrL),
    rename_plug_eq (hfix _ hqrest hrrest),
    NodeTree.rename_join, NodeTree.rename_eq_self (hfix _ hqR hrR),
    Equiv.swap_apply_left, Equiv.swap_apply_right]
  rw [modify_plug_eq hqpath, NodeTree.modify_join,
    NodeTree.modify_eq_self hqL, modify_plug_eq hqrest,
    NodeTree.modify_join, NodeTree.modify_eq_self hqR, if_neg hne.symm,
    if_pos rfl]
  rw [modify_plug_eq hrpath, NodeTree.modify_join,
    NodeTree.modify_eq_self hrL, modify_plug_eq hrrest,
    NodeTree.modify_join, NodeTree.modify_eq_self hrR, if_neg hne, if_pos rfl]
  rfl

/-- What the two nodes lead to, and what leads to them. -/
structure ExchangeLinks (k : TreeLinks α) (q r : ℕ) (ql qr rr : Option ℕ)
    (nodes : List ℕ) : Prop where
  ne : q ≠ r
  left : k.child .left q = ql
  right : k.child .right q = qr
  next_left : k.child .left r = none
  next_right : k.child .right r = rr
  fa_ne : k.fa q ≠ some q ∧ k.fa q ≠ some r
  ql_ne : ql ≠ some q ∧ ql ≠ some r
  rr_ne : rr ≠ some q ∧ rr ≠ some r
  next_fa_ne : k.fa r ≠ some r
  redirect_eq : ∀ p ∈ nodes, ∀ s x, redirect k.child (k.fa q) q x s p =
    if k.child s p = some q then x else k.child s p
  q_mem : q ∈ nodes
  r_mem : r ∈ nodes
  fa_of_child : ∀ p ∈ nodes, ∀ s x, k.child s p = some x → k.fa x = some p
  side_unique : ∀ p ∈ nodes, ∀ s s' x, k.child s p = some x →
    k.child s' p = some x → s = s'
  fa_eq : ∀ p ∈ nodes, k.fa p = some q → ql = some p ∨ qr = some p
  next_fa_eq : ∀ p ∈ nodes, k.fa p = some r → rr = some p

theorem exchangeLinks (h : (plug path (.join .left q a L
      (plug rest (.join .left r b .nil R)))).Stands k none)
    (hnodup : (plug path (.join .left q a L
      (plug rest (.join .left r b .nil R)))).nodes.Nodup) :
    ExchangeLinks k q r L.root (plug rest (.join .left r b .nil R)).root R.root
      (plug path (.join .left q a L
        (plug rest (.join .left r b .nil R)))).nodes := by
  obtain ⟨hne, hapart⟩ := exchange_apart hnodup
  obtain ⟨hqpath, hqL, hqrest, hqR⟩ := hapart q (by simp)
  obtain ⟨hrpath, hrL, hrrest, hrR⟩ := hapart r (by simp)
  obtain ⟨-, hfocus⟩ := stands_plug.mp h
  obtain ⟨-, hqfa, hql, hqr, -, -⟩ := NodeTree.stands_join.mp hfocus
  -- the path down to the second node
  have hwhole : (plug (rest ++ ⟨.right, q, a, L⟩ :: path)
      (.join .left r b .nil R)).Stands k none := by
    rw [plug_append]
    exact h
  obtain ⟨-, hnext⟩ := stands_plug.mp hwhole
  obtain ⟨-, hrfa, hrl, hrr, -, -⟩ := NodeTree.stands_join.mp hnext
  have hmem : ∀ p, p = q ∨ p = r → p ∈ (plug path (.join .left q a L
      (plug rest (.join .left r b .nil R)))).nodes := by
    rintro p (rfl | rfl)
    · exact (nodes_plug _ _).mem_iff.mpr (List.mem_append_left _ (by simp))
    · refine (nodes_plug _ _).mem_iff.mpr (List.mem_append_left _ ?_)
      rw [NodeTree.mem_nodes_join, (nodes_plug _ _).mem_iff]
      simp
  refine ⟨hne, hql, hqr, hrl, hrr, ⟨?_, ?_⟩, ⟨?_, ?_⟩, ⟨?_, ?_⟩, ?_, ?_,
    hmem q (.inl rfl), hmem r (.inr rfl), ?_, ?_, ?_, ?_⟩
  · rw [hqfa]
    exact fun heq => hqpath (above_mem heq)
  · rw [hqfa]
    exact fun heq => hrpath (above_mem heq)
  · exact fun heq => hqL (NodeTree.root_mem heq)
  · exact fun heq => hrL (NodeTree.root_mem heq)
  · exact fun heq => hqR (NodeTree.root_mem heq)
  · exact fun heq => hrR (NodeTree.root_mem heq)
  · rw [hrfa]
    intro heq
    have hr := above_mem heq
    rw [pathNodes_append] at hr
    simp only [pathNodes, List.mem_append, List.mem_cons] at hr
    grind
  · exact fun p hp s x => h.redirect_eq hnodup (hmem q (.inl rfl)) hp s x
  · exact fun p hp s x hchild => (h.fa_of_child hp hchild).1
  · exact fun p hp s s' x hs hs' => h.side_unique hnodup hp hs hs'
  · intro p hp hfa
    obtain ⟨s, hchild⟩ := h.exists_child hp hfa
    cases s with
    | left => exact .inl (hql.symm.trans hchild)
    | right => exact .inr (hqr.symm.trans hchild)
  · intro p hp hfa
    obtain ⟨s, hchild⟩ := h.exists_child hp hfa
    cases s with
    | left =>
        rw [hrl] at hchild
        cases hchild
    | right => exact hrr.symm.trans hchild

/-- The writes when the second node is the right child of the first one. -/
theorem ExchangeLinks.of_child {ql rr : Option ℕ} {nodes : List ℕ}
    (h : ExchangeLinks k q r ql (some r) rr nodes)
    (hchild : k'.child = storeChild (storeChild (storeChild (storeChild
      (redirect k.child (k.fa q) q (some r)) .left q none) .right q rr)
        .left r ql) .right r (some q))
    (hfa : k'.fa = Function.update (storeAt (storeAt
      (Function.update k.fa r (k.fa q)) rr (some q)) ql (some r)) q (some r))
    (hp : p ∈ nodes) :
    (∀ s, k'.child s (Equiv.swap q r p) =
      (k.child s p).map (Equiv.swap q r)) ∧
      k'.fa (Equiv.swap q r p) = (k.fa p).map (Equiv.swap q r) := by
  have hrfa : k.fa r = some q := h.fa_of_child q h.q_mem _ _ h.right
  rw [hchild, hfa]
  by_cases hpq : p = q
  · subst hpq
    rw [Equiv.swap_apply_left]
    refine ⟨fun s => ?_, ?_⟩
    · cases s with
      | left =>
          rw [h.left, map_swap_eq h.ql_ne.1 h.ql_ne.2,
            storeChild_of_side_ne (by simp), storeChild_self]
      | right =>
          rw [h.right, storeChild_self, Option.map_some,
            Equiv.swap_apply_right]
    · rw [map_swap_eq h.fa_ne.1 h.fa_ne.2, Function.update_of_ne h.ne.symm,
        storeAt_of_ne h.ql_ne.2, storeAt_of_ne h.rr_ne.2, Function.update_self]
  by_cases hpr : p = r
  · subst hpr
    rw [Equiv.swap_apply_right]
    refine ⟨fun s => ?_, ?_⟩
    · cases s with
      | left =>
          rw [h.next_left, storeChild_of_ne h.ne, storeChild_of_ne h.ne,
            storeChild_of_side_ne (by simp), storeChild_self]
          rfl
      | right =>
          rw [h.next_right, map_swap_eq h.rr_ne.1 h.rr_ne.2,
            storeChild_of_ne h.ne, storeChild_of_ne h.ne, storeChild_self]
    · rw [hrfa, Function.update_self, Option.map_some, Equiv.swap_apply_left]
  rw [Equiv.swap_apply_of_ne_of_ne hpq hpr]
  refine ⟨fun s => ?_, ?_⟩
  · rw [storeChild_of_ne hpr, storeChild_of_ne hpr, storeChild_of_ne hpq,
      storeChild_of_ne hpq, h.redirect_eq p hp]
    by_cases hs : k.child s p = some q
    · rw [if_pos hs, hs, Option.map_some, Equiv.swap_apply_left]
    · rw [if_neg hs, map_swap_eq hs]
      intro hs'
      have hfa' := h.fa_of_child p hp s r hs'
      rw [hrfa] at hfa'
      exact hpq (Option.some.inj hfa').symm
  · rw [Function.update_of_ne hpq]
    by_cases hql : ql = some p
    · have hpfa := h.fa_of_child q h.q_mem _ _ (h.left.trans hql)
      rw [hql, storeAt_self, hpfa, Option.map_some, Equiv.swap_apply_left]
    rw [storeAt_of_ne hql]
    by_cases hrr : rr = some p
    · have hpfa := h.fa_of_child r h.r_mem _ _ (h.next_right.trans hrr)
      rw [hrr, storeAt_self, hpfa, Option.map_some, Equiv.swap_apply_right]
    rw [storeAt_of_ne hrr, Function.update_of_ne hpr, map_swap_eq]
    · intro hpfa
      rcases h.fa_eq p hp hpfa with heq | heq
      · exact hql heq
      · exact hpr (Option.some.inj heq).symm
    · exact fun hpfa => hrr (h.next_fa_eq p hp hpfa)

/-- The writes when the second node stands further below, as a left child. -/
theorem ExchangeLinks.of_below {ql qr rr : Option ℕ} {nodes : List ℕ} {x : ℕ}
    (h : ExchangeLinks k q r ql qr rr nodes) (hx : x ∈ nodes)
    (hxr : k.child .left x = some r) (hxq : x ≠ q)
    (hchild : k'.child = storeChild (storeChild (storeChild (storeChild
      (storeChild (redirect k.child (k.fa q) q (some r)) .left x (some q))
        .left r ql) .right r qr) .left q none) .right q rr)
    (hfa : k'.fa = storeAt (storeAt (storeAt (Function.update
      (Function.update k.fa r (k.fa q)) q (some x)) ql (some r)) qr (some r))
        rr (some q))
    (hp : p ∈ nodes) :
    (∀ s, k'.child s (Equiv.swap q r p) =
      (k.child s p).map (Equiv.swap q r)) ∧
      k'.fa (Equiv.swap q r p) = (k.fa p).map (Equiv.swap q r) := by
  have hrfa : k.fa r = some x := h.fa_of_child x hx _ _ hxr
  have hxr' : x ≠ r := fun heq => h.next_fa_ne (heq ▸ hrfa)
  have hqr : qr ≠ some q ∧ qr ≠ some r := by
    constructor
    · intro heq
      exact h.fa_ne.1 (h.fa_of_child q h.q_mem _ _ (h.right.trans heq))
    · intro heq
      have hfa' := h.fa_of_child q h.q_mem _ _ (h.right.trans heq)
      rw [hrfa] at hfa'
      exact hxq (Option.some.inj hfa')
  rw [hchild, hfa]
  by_cases hpq : p = q
  · subst hpq
    rw [Equiv.swap_apply_left]
    refine ⟨fun s => ?_, ?_⟩
    · cases s with
      | left =>
          rw [h.left, map_swap_eq h.ql_ne.1 h.ql_ne.2,
            storeChild_of_ne h.ne.symm, storeChild_of_ne h.ne.symm,
            storeChild_of_side_ne (by simp), storeChild_self]
      | right =>
          rw [h.right, map_swap_eq hqr.1 hqr.2, storeChild_of_ne h.ne.symm,
            storeChild_of_ne h.ne.symm, storeChild_self]
    · rw [map_swap_eq h.fa_ne.1 h.fa_ne.2, storeAt_of_ne h.rr_ne.2,
        storeAt_of_ne hqr.2, storeAt_of_ne h.ql_ne.2,
        Function.update_of_ne h.ne.symm, Function.update_self]
  by_cases hpr : p = r
  · subst hpr
    rw [Equiv.swap_apply_right]
    refine ⟨fun s => ?_, ?_⟩
    · cases s with
      | left =>
          rw [h.next_left, storeChild_of_side_ne (by simp), storeChild_self]
          rfl
      | right =>
          rw [h.next_right, map_swap_eq h.rr_ne.1 h.rr_ne.2, storeChild_self]
    · rw [hrfa, storeAt_of_ne h.rr_ne.1, storeAt_of_ne hqr.1,
        storeAt_of_ne h.ql_ne.1, Function.update_self, map_swap_eq]
      · exact fun heq => hxq (Option.some.inj heq)
      · exact fun heq => hxr' (Option.some.inj heq)
  rw [Equiv.swap_apply_of_ne_of_ne hpq hpr]
  refine ⟨fun s => ?_, ?_⟩
  · rw [storeChild_of_ne hpq, storeChild_of_ne hpq, storeChild_of_ne hpr,
      storeChild_of_ne hpr]
    by_cases hxs : p = x ∧ s = .left
    · obtain ⟨rfl, rfl⟩ := hxs
      rw [storeChild_self, hxr, Option.map_some, Equiv.swap_apply_right]
    have hkeep : storeChild (redirect k.child (k.fa q) q (some r)) .left x
        (some q) s p = redirect k.child (k.fa q) q (some r) s p :=
      if_neg fun heq => hxs ⟨heq.2, heq.1⟩
    rw [hkeep, h.redirect_eq p hp]
    by_cases hs : k.child s p = some q
    · rw [if_pos hs, hs, Option.map_some, Equiv.swap_apply_left]
    · rw [if_neg hs, map_swap_eq hs]
      intro hs'
      have hfa' := h.fa_of_child p hp s r hs'
      rw [hrfa] at hfa'
      obtain rfl : x = p := Option.some.inj hfa'
      exact hxs ⟨rfl, h.side_unique x hx _ _ r hs' hxr⟩
  · by_cases hrr : rr = some p
    · have hpfa := h.fa_of_child r h.r_mem _ _ (h.next_right.trans hrr)
      rw [hrr, storeAt_self, hpfa, Option.map_some, Equiv.swap_apply_right]
    rw [storeAt_of_ne hrr]
    by_cases hqrp : qr = some p
    · have hpfa := h.fa_of_child q h.q_mem _ _ (h.right.trans hqrp)
      rw [hqrp, storeAt_self, hpfa, Option.map_some, Equiv.swap_apply_left]
    rw [storeAt_of_ne hqrp]
    by_cases hql : ql = some p
    · have hpfa := h.fa_of_child q h.q_mem _ _ (h.left.trans hql)
      rw [hql, storeAt_self, hpfa, Option.map_some, Equiv.swap_apply_left]
    rw [storeAt_of_ne hql, Function.update_of_ne hpq,
      Function.update_of_ne hpr, map_swap_eq]
    · intro hpfa
      rcases h.fa_eq p hp hpfa with heq | heq
      · exact hql heq
      · exact hqrp heq
    · exact fun hpfa => hrr (h.next_fa_eq p hp hpfa)

end Exchange

end TicketSystem.Support
