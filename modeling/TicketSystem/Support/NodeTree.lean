import Mathlib
import TicketSystem.Support.DoublyLinked

/-!
# Binary trees of nodes with a link to the parent

A tree stands in memory when every node holds its content, the roots of its
two subtrees and its parent.  A path leads from the root of a tree down to one
of its subtrees; it stands in memory but for that subtree.
-/

namespace TicketSystem.Support

variable {α : Type*}

inductive Side
  | left
  | right
deriving DecidableEq, Repr

def Side.other : Side → Side
  | .left => .right
  | .right => .left

@[simp] theorem Side.other_other (s : Side) : s.other.other = s := by
  cases s <;> rfl

@[simp] theorem Side.other_ne (s : Side) : s.other ≠ s := by
  cases s <;> exact fun h => by cases h

@[simp] theorem Side.ne_other (s : Side) : s ≠ s.other :=
  s.other_ne.symm

theorem Side.eq_or_eq_other (s s' : Side) : s' = s ∨ s' = s.other := by
  cases s <;> cases s' <;> simp [Side.other]

/-! ## Trees -/

/-- A tree of nodes; `p` is the address of a node. -/
inductive NodeTree (α : Type*)
  | nil
  | node (p : ℕ) (a : α) (l r : NodeTree α)

namespace NodeTree

/-- The node `p` with `t` on the side `s` and `u` on the other one. -/
def join : Side → ℕ → α → NodeTree α → NodeTree α → NodeTree α
  | .left, p, a, t, u => node p a t u
  | .right, p, a, t, u => node p a u t

theorem join_other (s : Side) (p : ℕ) (a : α) (t u : NodeTree α) :
    join s.other p a t u = join s p a u t := by
  cases s <;> rfl

def root : NodeTree α → Option ℕ
  | nil => none
  | node p _ _ _ => some p

@[simp] theorem root_nil : (nil : NodeTree α).root = none := rfl

@[simp] theorem root_join (s : Side) (p : ℕ) (a : α) (t u : NodeTree α) :
    (join s p a t u).root = some p := by
  cases s <;> rfl

/-- The nodes of a tree from left to right, with their contents. -/
def cells : NodeTree α → List (ℕ × α)
  | nil => []
  | node p a l r => l.cells ++ (p, a) :: r.cells

theorem cells_join (s : Side) (p : ℕ) (a : α) (t u : NodeTree α) :
    (join s p a t u).cells =
      match s with
      | .left => t.cells ++ (p, a) :: u.cells
      | .right => u.cells ++ (p, a) :: t.cells := by
  cases s <;> rfl

/-- The addresses of the nodes. -/
def nodes : NodeTree α → List ℕ
  | nil => []
  | node p _ l r => p :: (l.nodes ++ r.nodes)

@[simp] theorem nodes_nil : (nil : NodeTree α).nodes = [] := rfl

theorem nodes_join (s : Side) (p : ℕ) (a : α) (t u : NodeTree α) :
    (join s p a t u).nodes.Perm (p :: (t.nodes ++ u.nodes)) := by
  cases s with
  | left => exact List.Perm.refl _
  | right => exact List.perm_append_comm.cons p

@[simp] theorem mem_nodes_join {s : Side} {p q : ℕ} {a : α}
    {t u : NodeTree α} :
    q ∈ (join s p a t u).nodes ↔ q = p ∨ q ∈ t.nodes ∨ q ∈ u.nodes := by
  rw [(nodes_join s p a t u).mem_iff, List.mem_cons, List.mem_append]

theorem root_mem {t : NodeTree α} {p : ℕ} (h : t.root = some p) :
    p ∈ t.nodes := by
  cases t with
  | nil => cases h
  | node q a l r =>
      obtain rfl : q = p := Option.some.inj h
      exact List.mem_cons_self

/-- The number of nodes. -/
def size : NodeTree α → ℕ
  | nil => 0
  | node _ _ l r => l.size + r.size + 1

@[simp] theorem size_join (s : Side) (p : ℕ) (a : α) (t u : NodeTree α) :
    (join s p a t u).size = t.size + u.size + 1 := by
  cases s with
  | left => rfl
  | right => rw [join, size, Nat.add_comm u.size]

theorem length_nodes (t : NodeTree α) : t.nodes.length = t.size := by
  induction t with
  | nil => rfl
  | node p a l r ihl ihr => simp [nodes, size, ihl, ihr]

theorem length_cells (t : NodeTree α) : t.cells.length = t.size := by
  induction t with
  | nil => rfl
  | node p a l r ihl ihr =>
      simp only [cells, size, List.length_append, List.length_cons, ihl, ihr]
      ring

/-- A tree that is not empty has a node and two subtrees. -/
theorem exists_join {t : NodeTree α} (s : Side) {p : ℕ} (h : t.root = some p) :
    ∃ a u v, t = join s p a u v := by
  cases t with
  | nil => cases h
  | node q a l r =>
      obtain rfl : q = p := Option.some.inj h
      cases s with
      | left => exact ⟨a, l, r, rfl⟩
      | right => exact ⟨a, r, l, rfl⟩

theorem eq_nil_of_root {t : NodeTree α} (h : t.root = none) : t = nil := by
  cases t with
  | nil => rfl
  | node => cases h

end NodeTree

/-! ## Memory -/

/-- What memory holds at the addresses; a node without content was not
allocated or is gone. -/
structure TreeLinks (α : Type*) where
  content : ℕ → Option α
  child : Side → ℕ → Option ℕ
  fa : ℕ → Option ℕ

/-- Both memories hold the same at `p`. -/
structure TreeLinks.Agree (k k' : TreeLinks α) (p : ℕ) : Prop where
  content : k'.content p = k.content p
  child : ∀ s, k'.child s p = k.child s p
  fa : k'.fa p = k.fa p

namespace NodeTree

/-- The tree stands in memory below the node `f`. -/
def Stands (k : TreeLinks α) : Option ℕ → NodeTree α → Prop
  | _, nil => True
  | f, node p a l r =>
      k.content p = some a ∧ k.fa p = f ∧ k.child .left p = l.root ∧
        k.child .right p = r.root ∧ Stands k (some p) l ∧ Stands k (some p) r

variable {k k' : TreeLinks α} {f f' : Option ℕ} {t u : NodeTree α}

theorem stands_join {s : Side} {p : ℕ} {a : α} :
    (join s p a t u).Stands k f ↔
      k.content p = some a ∧ k.fa p = f ∧ k.child s p = t.root ∧
        k.child s.other p = u.root ∧ t.Stands k (some p) ∧
          u.Stands k (some p) := by
  cases s with
  | left => rfl
  | right =>
      simp only [join, Stands, Side.other]
      tauto

/-- A tree depends on its own nodes. -/
theorem Stands.congr (h : t.Stands k f) (hagree : ∀ p ∈ t.nodes, k.Agree k' p) :
    t.Stands k' f := by
  induction t generalizing f with
  | nil => trivial
  | node p a l r ihl ihr =>
      obtain ⟨ha, hf, hl, hr, hleft, hright⟩ := h
      have hp := hagree p List.mem_cons_self
      refine ⟨hp.content.trans ha, hp.fa.trans hf, (hp.child _).trans hl,
        (hp.child _).trans hr, ihl hleft fun q hq => ?_,
        ihr hright fun q hq => ?_⟩
      · exact hagree q (List.mem_cons_of_mem p (List.mem_append_left _ hq))
      · exact hagree q (List.mem_cons_of_mem p (List.mem_append_right _ hq))

/-- A tree that is moved below another node. -/
theorem Stands.reparent (h : t.Stands k f)
    (hnodup : t.nodes.Nodup)
    (hroot : ∀ p, t.root = some p → k'.content p = k.content p ∧
      (∀ s, k'.child s p = k.child s p) ∧ k'.fa p = f')
    (hagree : ∀ p ∈ t.nodes, t.root ≠ some p → k.Agree k' p) :
    t.Stands k' f' := by
  cases t with
  | nil => trivial
  | node p a l r =>
      obtain ⟨ha, -, hl, hr, hleft, hright⟩ := h
      obtain ⟨hcontent, hchild, hfa⟩ := hroot p rfl
      obtain ⟨hfresh, -⟩ := List.nodup_cons.mp hnodup
      have hne : ∀ q ∈ l.nodes ++ r.nodes,
          (node p a l r).root ≠ some q := by
        rintro q hq hpq
        obtain rfl : p = q := Option.some.inj hpq
        exact hfresh hq
      refine ⟨hcontent.trans ha, hfa, (hchild _).trans hl, (hchild _).trans hr,
        hleft.congr fun q hq => ?_, hright.congr fun q hq => ?_⟩
      · have hmem := List.mem_append_left r.nodes hq
        exact hagree q (List.mem_cons_of_mem p hmem) (hne q hmem)
      · have hmem := List.mem_append_right l.nodes hq
        exact hagree q (List.mem_cons_of_mem p hmem) (hne q hmem)

/-- The nodes of a tree that stands in memory are live. -/
theorem Stands.content_ne (h : t.Stands k f) {p : ℕ} (hp : p ∈ t.nodes) :
    k.content p ≠ none := by
  induction t generalizing f with
  | nil => cases hp
  | node q a l r ihl ihr =>
      obtain ⟨ha, -, -, -, hleft, hright⟩ := h
      rcases List.mem_cons.mp hp with rfl | hp
      · rw [ha]
        exact Option.some_ne_none a
      · rcases List.mem_append.mp hp with hp | hp
        · exact ihl hleft hp
        · exact ihr hright hp

end NodeTree

/-! ## Paths -/

/-- A node above the subtree in question, which lies on the side `side`. -/
structure Frame (α : Type*) where
  side : Side
  p : ℕ
  a : α
  sibling : NodeTree α

/-- The tree with `t` at the end of the path; the path begins at its end. -/
def plug : List (Frame α) → NodeTree α → NodeTree α
  | [], t => t
  | f :: path, t => plug path (.join f.side f.p f.a t f.sibling)

/-- The node at the end of the path. -/
def above (path : List (Frame α)) : Option ℕ :=
  path.head?.map Frame.p

@[simp] theorem above_nil : above ([] : List (Frame α)) = none := rfl

@[simp] theorem above_cons (f : Frame α) (path : List (Frame α)) :
    above (f :: path) = some f.p := rfl

/-- The nodes of the path and of the trees beside it. -/
def pathNodes : List (Frame α) → List ℕ
  | [] => []
  | f :: path => f.p :: (f.sibling.nodes ++ pathNodes path)

theorem above_mem {path : List (Frame α)} {p : ℕ} (h : above path = some p) :
    p ∈ pathNodes path := by
  cases path with
  | nil => cases h
  | cons f path =>
      obtain rfl : f.p = p := Option.some.inj h
      exact List.mem_cons_self

theorem nodes_plug (path : List (Frame α)) (t : NodeTree α) :
    (plug path t).nodes.Perm (t.nodes ++ pathNodes path) := by
  induction path generalizing t with
  | nil => rw [plug, pathNodes, List.append_nil]
  | cons f path ih =>
      refine (ih _).trans ?_
      refine ((NodeTree.nodes_join ..).append_right _).trans ?_
      simp only [pathNodes, List.cons_append, List.append_assoc]
      exact List.perm_middle.symm

/-- The root of a tree is the first node of a path that is not empty. -/
theorem exists_root_plug (f : Frame α) (path : List (Frame α)) :
    ∃ r, ∀ t, (plug (f :: path) t).root = some r := by
  induction path generalizing f with
  | nil => exact ⟨f.p, fun t => NodeTree.root_join ..⟩
  | cons g path ih =>
      obtain ⟨r, hr⟩ := ih g
      exact ⟨r, fun t => hr _⟩

/-- The path stands in memory and leads to the node `hole`. -/
def PathStands (k : TreeLinks α) : Option ℕ → List (Frame α) → Prop
  | _, [] => True
  | hole, f :: path =>
      k.content f.p = some f.a ∧ k.fa f.p = above path ∧
        k.child f.side f.p = hole ∧ k.child f.side.other f.p = f.sibling.root ∧
          f.sibling.Stands k (some f.p) ∧ PathStands k (some f.p) path

variable {k k' : TreeLinks α} {path : List (Frame α)} {t : NodeTree α}
  {hole hole' : Option ℕ}

theorem stands_plug : (plug path t).Stands k none ↔
    PathStands k t.root path ∧ t.Stands k (above path) := by
  induction path generalizing t with
  | nil => simp [plug, PathStands]
  | cons f path ih =>
      rw [plug, ih, NodeTree.stands_join, NodeTree.root_join]
      simp only [PathStands, above_cons]
      tauto

theorem PathStands.congr (h : PathStands k hole path)
    (hagree : ∀ p ∈ pathNodes path, k.Agree k' p) :
    PathStands k' hole path := by
  induction path generalizing hole with
  | nil => trivial
  | cons f path ih =>
      obtain ⟨ha, hf, hhole, hother, hsibling, hrest⟩ := h
      have hp := hagree f.p List.mem_cons_self
      refine ⟨hp.content.trans ha, hp.fa.trans hf, (hp.child _).trans hhole,
        (hp.child _).trans hother, hsibling.congr fun q hq => ?_,
        ih hrest fun q hq => ?_⟩
      · exact hagree q (List.mem_cons_of_mem _ (List.mem_append_left _ hq))
      · exact hagree q (List.mem_cons_of_mem _ (List.mem_append_right _ hq))

/-- Another node is put at the end of the path. -/
theorem PathStands.rehole (h : PathStands k hole path)
    (hnodup : (pathNodes path).Nodup)
    (hend : ∀ f rest, path = f :: rest →
      k'.content f.p = k.content f.p ∧ k'.fa f.p = k.fa f.p ∧
        k'.child f.side f.p = hole' ∧
          k'.child f.side.other f.p = k.child f.side.other f.p)
    (hagree : ∀ p ∈ pathNodes path, above path ≠ some p → k.Agree k' p) :
    PathStands k' hole' path := by
  cases path with
  | nil => trivial
  | cons f path =>
      obtain ⟨ha, hf, -, hother, hsibling, hrest⟩ := h
      obtain ⟨hcontent, hfa, hchild, hchild'⟩ := hend f path rfl
      obtain ⟨hfresh, -⟩ := List.nodup_cons.mp hnodup
      have hne : ∀ q ∈ f.sibling.nodes ++ pathNodes path,
          above (f :: path) ≠ some q := by
        rintro q hq hpq
        obtain rfl : f.p = q := Option.some.inj hpq
        exact hfresh hq
      refine ⟨hcontent.trans ha, hfa.trans hf, hchild, hchild'.trans hother,
        hsibling.congr fun q hq => ?_, hrest.congr fun q hq => ?_⟩
      · have hmem := List.mem_append_left (pathNodes path) hq
        exact hagree q (List.mem_cons_of_mem _ hmem) (hne q hmem)
      · have hmem := List.mem_append_right f.sibling.nodes hq
        exact hagree q (List.mem_cons_of_mem _ hmem) (hne q hmem)

/-! ## Order -/

/-- The cells left of the subtree at the end of the path. -/
def cellsBefore : List (Frame α) → List (ℕ × α)
  | [] => []
  | f :: path =>
      cellsBefore path ++
        match f.side with
        | .left => []
        | .right => f.sibling.cells ++ [(f.p, f.a)]

/-- The cells right of the subtree at the end of the path. -/
def cellsAfter : List (Frame α) → List (ℕ × α)
  | [] => []
  | f :: path =>
      (match f.side with
        | .left => (f.p, f.a) :: f.sibling.cells
        | .right => []) ++ cellsAfter path

theorem cells_plug (path : List (Frame α)) (t : NodeTree α) :
    (plug path t).cells = cellsBefore path ++ t.cells ++ cellsAfter path := by
  induction path generalizing t with
  | nil => simp [plug, cellsBefore, cellsAfter]
  | cons f path ih =>
      rw [plug, ih, NodeTree.cells_join]
      cases hside : f.side <;> simp [cellsBefore, cellsAfter, hside]

/-! ## Writes -/

/-- `p->child = q` -/
def storeChild (child : Side → ℕ → Option ℕ) (s : Side) (p : ℕ)
    (q : Option ℕ) : Side → ℕ → Option ℕ :=
  fun s' p' => if s' = s ∧ p' = p then q else child s' p'

/-- The node above `p` leads to `q` instead, if there is one. -/
def redirect (child : Side → ℕ → Option ℕ) (f : Option ℕ) (p : ℕ)
    (q : Option ℕ) : Side → ℕ → Option ℕ :=
  fun s r =>
    if f = some r ∧ (s = .left ↔ child .left r = some p) then q else child s r

@[simp] theorem storeChild_self {child : Side → ℕ → Option ℕ} {s : Side}
    {p : ℕ} {q : Option ℕ} : storeChild child s p q s p = q :=
  if_pos ⟨rfl, rfl⟩

theorem storeChild_of_ne {child : Side → ℕ → Option ℕ} {s s' : Side}
    {p p' : ℕ} {q : Option ℕ} (h : p' ≠ p) :
    storeChild child s p q s' p' = child s' p' :=
  if_neg fun hp => h hp.2

theorem storeChild_of_side_ne {child : Side → ℕ → Option ℕ} {s s' : Side}
    {p p' : ℕ} {q : Option ℕ} (h : s' ≠ s) :
    storeChild child s p q s' p' = child s' p' :=
  if_neg fun hp => h hp.1

theorem redirect_of_ne {child : Side → ℕ → Option ℕ} {f : Option ℕ}
    {p r : ℕ} {q : Option ℕ} {s : Side} (h : f ≠ some r) :
    redirect child f p q s r = child s r :=
  if_neg fun hf => h hf.1

/-- A redirected path leads to the other node. -/
theorem PathStands.redirect {p : ℕ} (h : PathStands k (some p) path)
    (hnodup : (pathNodes path).Nodup) (hfresh : p ∉ pathNodes path)
    (hcontent : ∀ r ∈ pathNodes path, k'.content r = k.content r)
    (hfa : ∀ r ∈ pathNodes path, k'.fa r = k.fa r)
    (hchild : ∀ r ∈ pathNodes path, ∀ s,
      k'.child s r = Support.redirect k.child (above path) p hole' s r) :
    PathStands k' hole' path := by
  apply h.rehole hnodup
  · rintro f rest rfl
    obtain ⟨-, -, hhole, hother, -⟩ := h
    have hmem : f.p ∈ pathNodes (f :: rest) := List.mem_cons_self
    have hsibling : f.sibling.root ≠ some p := by
      intro hp
      apply hfresh
      exact List.mem_cons_of_mem _ (List.mem_append_left _
        (NodeTree.root_mem hp))
    have hside : f.side = .left ↔ k.child .left f.p = some p := by
      cases hs : f.side with
      | left =>
          rw [hs] at hhole
          simp [hhole]
      | right =>
          rw [hs] at hother
          simp only [Side.other] at hother
          simp [hother, hsibling]
    refine ⟨hcontent f.p hmem, hfa f.p hmem, ?_, ?_⟩
    · rw [hchild f.p hmem, Support.redirect, if_pos ⟨rfl, hside⟩]
    · rw [hchild f.p hmem, Support.redirect, if_neg]
      rintro ⟨-, hiff⟩
      have hsame : (f.side.other = .left) ↔ (f.side = .left) :=
        hiff.trans hside.symm
      generalize f.side = s at hsame
      cases s <;> simp [Side.other] at hsame
  · intro r hr hne
    exact ⟨hcontent r hr, fun s => (hchild r hr s).trans (redirect_of_ne hne),
      hfa r hr⟩

/-! ## Rotations -/

section

variable {s : Side} {gp p x : ℕ} {a b c a' b' c' : α} {A B C D : NodeTree α}

/-- What is written in a rotation lies apart from the rest: `A` and `C` are not
touched, `b` is the root of `B`, and `f` is the last node of the path `P`. -/
theorem rotate_apart {A B C P : List ℕ} {b f : Option ℕ}
    (hnd : (gp :: p :: (A ++ (B ++ (C ++ P)))).Nodup)
    (hb : ∀ q, b = some q → q ∈ B) (hf : ∀ q, f = some q → q ∈ P) :
    gp ≠ p ∧
      (∀ q ∈ A ++ C, (q ≠ gp ∧ q ≠ p) ∧ b ≠ some q ∧ f ≠ some q) ∧
      (∀ q ∈ B, (q ≠ gp ∧ q ≠ p) ∧ f ≠ some q) ∧
      (∀ q ∈ P, (q ≠ gp ∧ q ≠ p) ∧ b ≠ some q) ∧
      (∀ q ∈ [gp, p], b ≠ some q ∧ f ≠ some q) ∧
      gp ∉ P ∧ B.Nodup ∧ P.Nodup := by
  simp only [List.nodup_cons, List.nodup_append, List.mem_cons,
    List.mem_append] at hnd
  refine ⟨?_, ?_, ?_, ?_, ?_, ?_, ?_, ?_⟩ <;> grind

/-- The child `p` of `gp` takes its place. -/
theorem NodeTree.Stands.rotate
    (h : (plug path (.join s gp a (.join s p b A B) C)).Stands k none)
    (hnodup : (plug path (.join s gp a (.join s p b A B) C)).nodes.Nodup)
    (hchild : k'.child = storeChild (storeChild
      (redirect k.child (k.fa gp) gp (some p)) s gp (k.child s.other p))
        s.other p (some gp))
    (hfa : k'.fa = Function.update (storeAt (Function.update k.fa p (k.fa gp))
      (k.child s.other p) (some gp)) gp (some p))
    (hcontent : ∀ q, q ≠ p → q ≠ gp → k'.content q = k.content q)
    (hp : k'.content p = some b') (hgp : k'.content gp = some a') :
    (plug path (.join s p b' A (.join s gp a' B C))).Stands k' none := by
  obtain ⟨hpath, hfocus⟩ := stands_plug.mp h
  obtain ⟨-, hgpfa, hgpp, hgpC, hsub, hC⟩ := NodeTree.stands_join.mp hfocus
  obtain ⟨-, -, hpA, hpB, hA, hB⟩ := NodeTree.stands_join.mp hsub
  rw [NodeTree.root_join] at hgpp hpath
  -- all nodes are different
  have hperm : (plug path (.join s gp a (.join s p b A B) C)).nodes.Perm
      (gp :: p :: (A.nodes ++ (B.nodes ++ (C.nodes ++ pathNodes path)))) := by
    refine (nodes_plug _ _).trans ?_
    refine ((NodeTree.nodes_join ..).append_right _).trans ?_
    refine List.Perm.cons gp ?_
    simp only [List.append_eq, List.append_assoc]
    refine ((NodeTree.nodes_join ..).append_right _).trans ?_
    rw [List.cons_append, List.append_assoc]
  have hnd := hperm.nodup_iff.mp hnodup
  obtain ⟨hne, hAC, hBout, hPout, htwo, hfresh, hBnd, hPnd⟩ :=
    rotate_apart hnd (fun _ => NodeTree.root_mem) (fun _ => above_mem)
  rw [hgpfa, hpB] at hfa hchild
  have hchild' : ∀ q s', q ≠ gp ∧ q ≠ p → k'.child s' q =
      redirect k.child (above path) gp (some p) s' q := by
    rintro q s' ⟨hqgp, hqp⟩
    rw [hchild, storeChild_of_ne hqp, storeChild_of_ne hqgp]
  have hfa' : ∀ q, q ≠ gp ∧ q ≠ p → B.root ≠ some q → k'.fa q = k.fa q := by
    rintro q ⟨hqgp, hqp⟩ hq
    rw [hfa, Function.update_of_ne hqgp, storeAt_of_ne hq,
      Function.update_of_ne hqp]
  have hcontent' : ∀ q, q ≠ gp ∧ q ≠ p → k'.content q = k.content q :=
    fun q hq => hcontent q hq.2 hq.1
  have hagree : ∀ q, q ≠ gp ∧ q ≠ p → B.root ≠ some q →
      above path ≠ some q → k.Agree k' q := by
    intro q hq hqB hqf
    exact ⟨hcontent' q hq, fun s' =>
      (hchild' q s' hq).trans (redirect_of_ne hqf), hfa' q hq hqB⟩
  have hpath' : PathStands k' (some p) path := by
    apply hpath.redirect hPnd hfresh
    · exact fun q hq => hcontent' q (hPout q hq).1
    · exact fun q hq => hfa' q (hPout q hq).1 (hPout q hq).2
    · exact fun q hq s' => hchild' q s' (hPout q hq).1
  have hA' : A.Stands k' (some p) := hA.congr fun q hq => by
    obtain ⟨hq', hqB, hqf⟩ := hAC q (List.mem_append_left _ hq)
    exact hagree q hq' hqB hqf
  have hC' : C.Stands k' (some gp) := hC.congr fun q hq => by
    obtain ⟨hq', hqB, hqf⟩ := hAC q (List.mem_append_right _ hq)
    exact hagree q hq' hqB hqf
  have hB' : B.Stands k' (some gp) := by
    apply hB.reparent hBnd
    · intro q hq
      obtain ⟨hq', hqf⟩ := hBout q (NodeTree.root_mem hq)
      refine ⟨hcontent' q hq', fun s' => ?_, ?_⟩
      · rw [hchild' q s' hq', redirect_of_ne hqf]
      · rw [hfa, Function.update_of_ne hq'.1, hq, storeAt_self]
    · intro q hq hroot
      obtain ⟨hq', hqf⟩ := hBout q hq
      exact hagree q hq' hroot hqf
  obtain ⟨-, hgpf⟩ := htwo gp (by simp)
  obtain ⟨hpB', hpf⟩ := htwo p (by simp)
  rw [stands_plug, NodeTree.stands_join, NodeTree.stands_join,
    NodeTree.root_join, NodeTree.root_join]
  refine ⟨hpath', hp, ?_, ?_, ?_, hA', hgp, ?_, ?_, ?_, hB', hC'⟩
  · rw [hfa, Function.update_of_ne hne.symm, storeAt_of_ne hpB',
      Function.update_self]
  · rw [hchild, storeChild_of_side_ne s.ne_other, storeChild_of_ne hne.symm,
      redirect_of_ne hpf, hpA]
  · rw [hchild, storeChild_self]
  · rw [hfa, Function.update_self]
  · rw [hchild, storeChild_of_ne hne, storeChild_self]
  · rw [hchild, storeChild_of_ne hne, storeChild_of_side_ne s.other_ne,
      redirect_of_ne hgpf, hgpC]

/-- A rotation keeps the nodes. -/
theorem NodeTree.nodes_rotate :
    (join s gp a (join s p b A B) C).nodes.Perm
      (join s p b' A (join s gp a' B C)).nodes := by
  rw [List.perm_iff_count]
  intro q
  simp only [(nodes_join ..).count_eq, List.count_cons, List.count_append]
  omega

/-- What is written in a double rotation lies apart from the rest: `A` and `D`
are not touched, `b` and `c` are the roots of `B` and `C`, and `f` is the last
node of the path `P`. -/
theorem rotateTwice_apart {A B C D P : List ℕ} {b c f : Option ℕ}
    (hnd : (gp :: p :: (A ++ x :: (B ++ (C ++ (D ++ P))))).Nodup)
    (hb : ∀ q, b = some q → q ∈ B) (hc : ∀ q, c = some q → q ∈ C)
    (hf : ∀ q, f = some q → q ∈ P) :
    (gp ≠ p ∧ x ≠ gp ∧ x ≠ p) ∧
      (∀ q ∈ A ++ D, (q ≠ gp ∧ q ≠ p ∧ q ≠ x) ∧
        b ≠ some q ∧ c ≠ some q ∧ f ≠ some q) ∧
      (∀ q ∈ B, (q ≠ gp ∧ q ≠ p ∧ q ≠ x) ∧ c ≠ some q ∧ f ≠ some q) ∧
      (∀ q ∈ C, (q ≠ gp ∧ q ≠ p ∧ q ≠ x) ∧ b ≠ some q ∧ f ≠ some q) ∧
      (∀ q ∈ P, (q ≠ gp ∧ q ≠ p ∧ q ≠ x) ∧ b ≠ some q ∧ c ≠ some q) ∧
      (∀ q ∈ [gp, p, x], b ≠ some q ∧ c ≠ some q ∧ f ≠ some q) ∧
      gp ∉ P ∧ B.Nodup ∧ C.Nodup ∧ P.Nodup := by
  simp only [List.nodup_cons, List.nodup_append, List.mem_cons,
    List.mem_append] at hnd
  refine ⟨?_, ?_, ?_, ?_, ?_, ?_, ?_, ?_, ?_, ?_⟩ <;> grind

/-- The grandchild `x` of `gp` takes its place. -/
theorem NodeTree.Stands.rotateTwice
    (h : (plug path (.join s gp a (.join s p b A (.join s x c B C)) D)).Stands
      k none)
    (hnodup : (plug path
      (.join s gp a (.join s p b A (.join s x c B C)) D)).nodes.Nodup)
    (hchild : k'.child = storeChild (storeChild (storeChild (storeChild
      (redirect k.child (k.fa gp) gp (some x)) s gp (k.child s.other x))
        s.other p (k.child s x)) s x (some p)) s.other x (some gp))
    (hfa : k'.fa = Function.update (Function.update (storeAt (storeAt
      (Function.update k.fa x (k.fa gp)) (k.child s.other x) (some gp))
        (k.child s x) (some p)) p (some x)) gp (some x))
    (hcontent : ∀ q, q ≠ p → q ≠ gp → q ≠ x → k'.content q = k.content q)
    (hx : k'.content x = some c') (hp : k'.content p = some b')
    (hgp : k'.content gp = some a') :
    (plug path (.join s x c' (.join s p b' A B) (.join s gp a' C D))).Stands
      k' none := by
  obtain ⟨hpath, hfocus⟩ := stands_plug.mp h
  obtain ⟨-, hgpfa, hgpp, hgpD, hsub, hD⟩ := NodeTree.stands_join.mp hfocus
  obtain ⟨-, -, hpA, hpx, hA, hsub'⟩ := NodeTree.stands_join.mp hsub
  obtain ⟨-, -, hxB, hxC, hB, hC⟩ := NodeTree.stands_join.mp hsub'
  rw [NodeTree.root_join] at hgpp hpx hpath
  -- all nodes are different
  have hperm : (plug path
      (.join s gp a (.join s p b A (.join s x c B C)) D)).nodes.Perm
        (gp :: p :: (A.nodes ++ x :: (B.nodes ++ (C.nodes ++
          (D.nodes ++ pathNodes path))))) := by
    refine (nodes_plug _ _).trans ?_
    refine ((NodeTree.nodes_join ..).append_right _).trans ?_
    refine List.Perm.cons gp ?_
    simp only [List.append_eq, List.append_assoc]
    refine ((NodeTree.nodes_join ..).append_right _).trans ?_
    refine List.Perm.cons p ?_
    simp only [List.append_eq, List.append_assoc]
    refine List.Perm.append_left A.nodes ?_
    refine ((NodeTree.nodes_join ..).append_right _).trans ?_
    rw [List.cons_append, List.append_assoc]
  have hnd := hperm.nodup_iff.mp hnodup
  obtain ⟨⟨hne, hne', hne''⟩, hAD, hBout, hCout, hPout, hthree, hfresh, hBnd,
    hCnd, hPnd⟩ := rotateTwice_apart hnd
      (fun _ => NodeTree.root_mem) (fun _ => NodeTree.root_mem)
      (fun _ => above_mem)
  rw [hgpfa, hxB, hxC] at hfa hchild
  have hchild' : ∀ q s', q ≠ gp ∧ q ≠ p ∧ q ≠ x → k'.child s' q =
      redirect k.child (above path) gp (some x) s' q := by
    rintro q s' ⟨hqgp, hqp, hqx⟩
    rw [hchild, storeChild_of_ne hqx, storeChild_of_ne hqx,
      storeChild_of_ne hqp, storeChild_of_ne hqgp]
  have hfa' : ∀ q, q ≠ gp ∧ q ≠ p ∧ q ≠ x → B.root ≠ some q →
      C.root ≠ some q → k'.fa q = k.fa q := by
    rintro q ⟨hqgp, hqp, hqx⟩ hqB hqC
    rw [hfa, Function.update_of_ne hqgp, Function.update_of_ne hqp,
      storeAt_of_ne hqB, storeAt_of_ne hqC, Function.update_of_ne hqx]
  have hcontent' : ∀ q, q ≠ gp ∧ q ≠ p ∧ q ≠ x →
      k'.content q = k.content q := fun q hq => hcontent q hq.2.1 hq.1 hq.2.2
  have hagree : ∀ q, q ≠ gp ∧ q ≠ p ∧ q ≠ x → B.root ≠ some q →
      C.root ≠ some q → above path ≠ some q → k.Agree k' q := by
    intro q hq hqB hqC hqf
    exact ⟨hcontent' q hq, fun s' =>
      (hchild' q s' hq).trans (redirect_of_ne hqf), hfa' q hq hqB hqC⟩
  have hpath' : PathStands k' (some x) path := by
    apply hpath.redirect hPnd hfresh
    · exact fun q hq => hcontent' q (hPout q hq).1
    · exact fun q hq => hfa' q (hPout q hq).1 (hPout q hq).2.1 (hPout q hq).2.2
    · exact fun q hq s' => hchild' q s' (hPout q hq).1
  have hA' : A.Stands k' (some p) := hA.congr fun q hq => by
    obtain ⟨hq', hqB, hqC, hqf⟩ := hAD q (List.mem_append_left _ hq)
    exact hagree q hq' hqB hqC hqf
  have hD' : D.Stands k' (some gp) := hD.congr fun q hq => by
    obtain ⟨hq', hqB, hqC, hqf⟩ := hAD q (List.mem_append_right _ hq)
    exact hagree q hq' hqB hqC hqf
  have hB' : B.Stands k' (some p) := by
    apply hB.reparent hBnd
    · intro q hq
      obtain ⟨hq', -, hqf⟩ := hBout q (NodeTree.root_mem hq)
      refine ⟨hcontent' q hq', fun s' => ?_, ?_⟩
      · rw [hchild' q s' hq', redirect_of_ne hqf]
      · rw [hfa, Function.update_of_ne hq'.1, Function.update_of_ne hq'.2.1,
          hq, storeAt_self]
    · intro q hq hroot
      obtain ⟨hq', hqC, hqf⟩ := hBout q hq
      exact hagree q hq' hroot hqC hqf
  have hC' : C.Stands k' (some gp) := by
    apply hC.reparent hCnd
    · intro q hq
      obtain ⟨hq', hqB, hqf⟩ := hCout q (NodeTree.root_mem hq)
      refine ⟨hcontent' q hq', fun s' => ?_, ?_⟩
      · rw [hchild' q s' hq', redirect_of_ne hqf]
      · rw [hfa, Function.update_of_ne hq'.1, Function.update_of_ne hq'.2.1,
          storeAt_of_ne hqB, hq, storeAt_self]
    · intro q hq hroot
      obtain ⟨hq', hqB, hqf⟩ := hCout q hq
      exact hagree q hq' hqB hroot hqf
  obtain ⟨-, -, hgpf⟩ := hthree gp (by simp)
  obtain ⟨-, -, hpf⟩ := hthree p (by simp)
  obtain ⟨hxB', hxC', -⟩ := hthree x (by simp)
  rw [stands_plug, NodeTree.stands_join, NodeTree.stands_join,
    NodeTree.stands_join, NodeTree.root_join, NodeTree.root_join,
    NodeTree.root_join]
  refine ⟨hpath', hx, ?_, ?_, ?_, ⟨hp, ?_, ?_, ?_, hA', hB'⟩, hgp, ?_, ?_, ?_,
    hC', hD'⟩
  · rw [hfa, Function.update_of_ne hne', Function.update_of_ne hne'',
      storeAt_of_ne hxB', storeAt_of_ne hxC', Function.update_self]
  · rw [hchild, storeChild_of_side_ne s.ne_other, storeChild_self]
  · rw [hchild, storeChild_self]
  · rw [hfa, Function.update_of_ne hne.symm, Function.update_self]
  · rw [hchild, storeChild_of_ne hne''.symm, storeChild_of_ne hne''.symm,
      storeChild_of_side_ne s.ne_other, storeChild_of_ne hne.symm,
      redirect_of_ne hpf, hpA]
  · rw [hchild, storeChild_of_ne hne''.symm, storeChild_of_ne hne''.symm,
      storeChild_self]
  · rw [hfa, Function.update_self]
  · rw [hchild, storeChild_of_ne hne'.symm, storeChild_of_ne hne'.symm,
      storeChild_of_ne hne, storeChild_self]
  · rw [hchild, storeChild_of_ne hne'.symm, storeChild_of_ne hne'.symm,
      storeChild_of_ne hne, storeChild_of_side_ne s.other_ne,
      redirect_of_ne hgpf, hgpD]

/-- A double rotation keeps the nodes. -/
theorem NodeTree.nodes_rotateTwice :
    (join s gp a (join s p b A (join s x c B C)) D).nodes.Perm
      (join s x c' (join s p b' A B) (join s gp a' C D)).nodes := by
  rw [List.perm_iff_count]
  intro q
  simp only [(nodes_join ..).count_eq, List.count_cons, List.count_append]
  omega

end

end TicketSystem.Support
