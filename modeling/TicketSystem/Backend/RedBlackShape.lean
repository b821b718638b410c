import Mathlib
import TicketSystem.Backend.RedBlackTree
import TicketSystem.Support.NodeTreeMoves

/-!
# Trees in the memory of a red-black tree

What the functions read and write is stated on the tree that stands in memory.
The rotations are those of `NodeTree` with the colours they set.
-/

namespace TicketSystem.Backend

open TicketSystem.Support

variable {K V : Type}

/-- A node holds its colour and its data. -/
abbrev RBTree (K V : Type) := NodeTree (Color × K × V)

/-- The node with another colour. -/
def paint (c : Color) (a : Color × K × V) : Color × K × V :=
  (c, a.2)

namespace RBMemory

variable {m : RBMemory K V} {p q : ℕ} {α : Type}

def links (m : RBMemory K V) : TreeLinks (Color × K × V) where
  content p := if m.live p then (m.data p).map fun e => (m.color p, e) else none
  child := m.child
  fa := m.fa

theorem content_eq_some {c : Color} {e : K × V} :
    m.links.content p = some (c, e) ↔
      m.live p = true ∧ m.color p = c ∧ m.data p = some e := by
  by_cases hp : m.live p = true
  · have hcontent : m.links.content p =
        (m.data p).map fun e => (m.color p, e) := if_pos hp
    rw [hcontent, Option.map_eq_some_iff]
    constructor
    · rintro ⟨e', he, heq⟩
      obtain ⟨rfl, rfl⟩ := Prod.mk.inj heq
      exact ⟨hp, rfl, he⟩
    · rintro ⟨-, rfl, he⟩
      exact ⟨e, he, rfl⟩
  · simp [links, hp]

theorem live_of_content (h : m.links.content p ≠ none) : m.live p = true := by
  by_contra hp
  exact h (if_neg hp)

/-! ## Reads and writes -/

theorem get_eq (h : m.live p = true) (field : ℕ → α) :
    m.get field p = some (field p) :=
  if_pos h

theorem put_eq (h : m.live p = true) (written : RBMemory K V) :
    m.put p written = some written :=
  if_pos h

theorem getData_eq {e : K × V} (h : m.live p = true)
    (he : m.data p = some e) : m.getData p = some e := by
  rw [getData, get_eq h, he]
  rfl

theorem replaceChild_eq {f : ℕ} (hf : m.live f = true) (q : Option ℕ) :
    m.replaceChild f p q =
      some { m with child := redirect m.child (some f) p q } := by
  rw [replaceChild, get_eq hf]
  by_cases hp : m.child .left f = some p
  · have hwrite : storeChild m.child .left f q =
        redirect m.child (some f) p q := by
      funext s r
      by_cases hr : r = f
      · subst hr
        cases s <;> simp [storeChild, redirect, hp]
      · rw [storeChild_of_ne hr, redirect_of_ne fun h =>
          hr (Option.some.inj h).symm]
    change (if m.child .left f = some p then m.setChild .left f q
      else m.setChild .right f q) = _
    rw [if_pos hp, setChild, put_eq hf, hwrite]
  · have hwrite : storeChild m.child .right f q =
        redirect m.child (some f) p q := by
      funext s r
      by_cases hr : r = f
      · subst hr
        cases s <;> simp [storeChild, redirect, hp]
      · rw [storeChild_of_ne hr, redirect_of_ne fun h =>
          hr (Option.some.inj h).symm]
    change (if m.child .left f = some p then m.setChild .left f q
      else m.setChild .right f q) = _
    rw [if_neg hp, setChild, put_eq hf, hwrite]

theorem unlessNull_replaceChild {f : Option ℕ}
    (hf : ∀ r, f = some r → m.live r = true) (q : Option ℕ) :
    (m.unlessNull f fun f => m.replaceChild f p q) =
      some { m with child := redirect m.child f p q } := by
  cases f with
  | none =>
      have hsame : redirect m.child none p q = m.child := by
        funext s r
        exact redirect_of_ne (by simp)
      rw [hsame]
      rfl
  | some f => exact replaceChild_eq (hf f rfl) q

theorem unlessNull_setFa {f : Option ℕ}
    (hf : ∀ r, f = some r → m.live r = true) (q : Option ℕ) :
    (m.unlessNull f fun f => m.setFa f q) =
      some { m with fa := storeAt m.fa f q } := by
  cases f with
  | none => rfl
  | some f => exact put_eq (hf f rfl) _

end RBMemory

namespace RedBlackTree

/-- The tree `t` stands in memory. -/
structure Holds (tree : RedBlackTree K V) (t : RBTree K V) : Prop where
  stands : t.Stands tree.memory.links none
  nodup : t.nodes.Nodup
  bounded : ∀ p, tree.memory.live p = true → p < tree.memory.top
  root : tree.root = t.root

variable {tree : RedBlackTree K V} {t : RBTree K V} {s : Side}
  {path : List (Frame (Color × K × V))} {A B C D : RBTree K V}
  {p gp x : ℕ} {a b : Color × K × V}

/-! ## Reading a node -/

/-- What stands at the node `p` of a tree. -/
structure Reads (m : RBMemory K V) (s : Side) (p : ℕ) (a : Color × K × V)
    (f : Option ℕ) (l r : Option ℕ) : Prop where
  live : m.live p = true
  color : m.color p = a.1
  data : m.data p = some a.2
  fa : m.fa p = f
  child : m.child s p = l
  other : m.child s.other p = r

theorem Holds.reads (h : Holds tree (plug path (.join s p a A B))) :
    Reads tree.memory s p a (above path) A.root B.root := by
  obtain ⟨-, hfocus⟩ := stands_plug.mp h.stands
  obtain ⟨ha, hf, hl, hr, -⟩ := NodeTree.stands_join.mp hfocus
  obtain ⟨hlive, hcolor, hdata⟩ := RBMemory.content_eq_some.mp ha
  exact ⟨hlive, hcolor, hdata, hf, hl, hr⟩

theorem Holds.live (h : Holds tree t) (hp : p ∈ t.nodes) :
    tree.memory.live p = true :=
  RBMemory.live_of_content (h.stands.content_ne hp)

theorem Holds.live_focus (h : Holds tree (plug path t)) (hp : p ∈ t.nodes) :
    tree.memory.live p = true :=
  h.live ((nodes_plug _ _).mem_iff.mpr (List.mem_append_left _ hp))

theorem Holds.live_above (h : Holds tree (plug path t))
    (hp : above path = some p) : tree.memory.live p = true :=
  h.live ((nodes_plug _ _).mem_iff.mpr
    (List.mem_append_right _ (above_mem hp)))

theorem Holds.above_ne (h : Holds tree (plug path t)) (hp : p ∈ t.nodes) :
    above path ≠ some p := by
  have hnodup := (nodes_plug _ _).nodup_iff.mp h.nodup
  intro habove
  exact (List.nodup_append.mp hnodup).2.2 p hp p (above_mem habove) rfl

theorem Holds.nodup_focus (h : Holds tree (plug path t)) : t.nodes.Nodup :=
  (List.nodup_append.mp ((nodes_plug _ _).nodup_iff.mp h.nodup)).1

theorem Holds.size_le (h : Holds tree t) : t.size ≤ tree.memory.top := by
  have hsub : t.nodes ⊆ List.range tree.memory.top := fun p hp =>
    List.mem_range.mpr (h.bounded p (h.live hp))
  have hle := (h.nodup.subperm hsub).length_le
  rwa [List.length_range, NodeTree.length_nodes] at hle

/-- A node of another path to the same tree. -/
theorem Holds.congr {t' : RBTree K V} (h : Holds tree t) (heq : t = t') :
    Holds tree t' :=
  heq ▸ h

/-! ## Colours -/

theorem Holds.setColor (h : Holds tree t) (hp : p ∈ t.nodes) (c : Color) :
    ∃ m, tree.memory.setColor p c = some m ∧ m.top = tree.memory.top ∧
      Holds { tree with memory := m } (t.modify p (paint c)) := by
  have hlive := h.live hp
  refine ⟨_, RBMemory.put_eq hlive _, rfl, ?_, ?_, h.bounded, ?_⟩
  · refine h.stands.modify rfl rfl ?_ fun q hq => ?_
    · simp only [RBMemory.links, if_pos hlive, Function.update_self]
      cases tree.memory.data p <;> rfl
    · simp only [RBMemory.links, Function.update_of_ne hq]
  · rw [NodeTree.nodes_modify]
    exact h.nodup
  · rw [NodeTree.root_modify]
    exact h.root

/-! ## The root -/

/-- From a node of the tree the links to the parents lead to the root. -/
theorem climb_eq {m : RBMemory K V} {fuel : ℕ}
    (h : (plug path (.join s p a A B)).Stands m.links none)
    (hfuel : path.length < fuel) :
    m.climb fuel p = (plug path (.join s p a A B)).root := by
  induction path generalizing s p a A B fuel with
  | nil =>
      obtain ⟨fuel, rfl⟩ := Nat.exists_eq_succ_of_ne_zero hfuel.ne'
      obtain ⟨ha, hf, -⟩ := NodeTree.stands_join.mp h
      have hlive := (RBMemory.content_eq_some.mp ha).1
      have hfa : m.fa p = none := hf
      rw [RBMemory.climb, RBMemory.get_eq hlive, hfa, plug, NodeTree.root_join]
      rfl
  | cons f path ih =>
      obtain ⟨fuel, rfl⟩ :=
        Nat.exists_eq_succ_of_ne_zero (Nat.ne_zero_of_lt hfuel)
      obtain ⟨-, hfocus⟩ := stands_plug.mp h
      obtain ⟨ha, hf, -⟩ := NodeTree.stands_join.mp hfocus
      have hlive := (RBMemory.content_eq_some.mp ha).1
      have hfa : m.fa p = some f.p := hf
      rw [RBMemory.climb, RBMemory.get_eq hlive, hfa]
      exact ih h (Nat.lt_of_succ_lt_succ hfuel)

/-- The root after the subtree at the end of the path was rotated: the old root
has at most one node above it. -/
theorem climbRoot_eq (tree : RedBlackTree K V) {y : ℕ} {a' : Color × K × V} {A' B' : RBTree K V}
    {s' : Side} (htop : 0 < tree.memory.top)
    (hroot : tree.root = (plug path (.join s p a A B)).root)
    (hstands : (plug path (.join s' y a' A' B')).Stands
      tree.memory.links none)
    (hbelow : path = [] → ∃ rest s b C D,
      NodeTree.join s' y a' A' B' = plug rest (.join s p b C D) ∧
        rest.length ≤ 1) :
    tree.climbRoot =
      some { tree with root := (plug path (.join s' y a' A' B')).root } := by
  obtain ⟨rest, r, s₁, b, C, D, heq, hr, hlen⟩ : ∃ rest r s₁ b C D,
      plug path (.join s' y a' A' B') = plug rest (.join s₁ r b C D) ∧
        tree.root = some r ∧ rest.length ≤ 1 := by
    cases path with
    | nil =>
        obtain ⟨rest, s₁, b, C, D, heq, hlen⟩ := hbelow rfl
        exact ⟨rest, p, s₁, b, C, D, heq, hroot.trans (NodeTree.root_join ..),
          hlen⟩
    | cons f path =>
        obtain ⟨r, hr⟩ := exists_root_plug f path
        obtain ⟨b, C, D, heq⟩ := NodeTree.exists_join .left
          (hr (.join s' y a' A' B'))
        exact ⟨[], r, .left, b, C, D, heq, hroot.trans (hr _), Nat.zero_le 1⟩
  have hclimb : tree.memory.climb (tree.memory.top + 1) r =
      (plug rest (.join s₁ r b C D)).root :=
    climb_eq (heq ▸ hstands) (by omega)
  obtain ⟨r', hr'⟩ : ∃ r', (plug rest (.join s₁ r b C D)).root = some r' := by
    cases rest with
    | nil => exact ⟨r, NodeTree.root_join ..⟩
    | cons f rest =>
        obtain ⟨r', hr'⟩ := exists_root_plug f rest
        exact ⟨r', hr' _⟩
  rw [RedBlackTree.climbRoot, hr, heq]
  change (tree.memory.climb (tree.memory.top + 1) r).bind _ = _
  rw [hclimb, hr']
  rfl

/-! ## Rotations -/

theorem Holds.rotate
    (h : Holds tree (plug path (.join s gp a (.join s p b A B) C))) :
    ∃ tree', tree.rotate s gp = some tree' ∧ tree'.len = tree.len ∧
      tree'.memory.top = tree.memory.top ∧
      Holds tree' (plug path (.join s p (paint .black b) A
        (.join s gp (paint .red a) B C))) := by
  have hgp := h.reads
  have hp : Reads tree.memory s p b (some gp) A.root B.root :=
    Holds.reads (show Holds tree (plug (⟨s, gp, a, C⟩ :: path)
      (.join s p b A B)) from h)
  have hinner : ∀ q, B.root = some q → tree.memory.live q = true :=
    fun q hq => h.live_focus (by simp [NodeTree.root_mem hq])
  have habove : ∀ q, above path = some q → tree.memory.live q = true :=
    fun q hq => h.live_above hq
  have hne : above path ≠ some p := h.above_ne (by simp)
  have hgpp : gp ≠ p := by
    rintro rfl
    have hfresh := (List.nodup_cons.mp
      ((NodeTree.nodes_join ..).nodup_iff.mp h.nodup_focus)).1
    exact hfresh (List.mem_append_left _ (by simp))
  -- the writes in the order of the source
  let m := tree.memory
  let m₁ : RBMemory K V :=
    { m with child := redirect m.child (above path) gp (some p) }
  let m₂ : RBMemory K V :=
    { m₁ with fa := Function.update m.fa p (above path) }
  let m₃ : RBMemory K V :=
    { m₂ with child := storeChild m₁.child s gp B.root }
  let m₄ : RBMemory K V :=
    { m₃ with fa := storeAt m₂.fa B.root (some gp) }
  let m₅ : RBMemory K V :=
    { m₄ with child := storeChild m₃.child s.other p (some gp) }
  let m₆ : RBMemory K V :=
    { m₅ with fa := Function.update m₄.fa gp (some p) }
  let m₇ : RBMemory K V :=
    { m₆ with color := Function.update m.color gp .red }
  let m₈ : RBMemory K V :=
    { m₇ with color := Function.update m₇.color p .black }
  have hread₂ : m₂.child s.other p = B.root :=
    (redirect_of_ne hne).trans hp.other
  have hread₃ : m₃.child s.other p = B.root :=
    (storeChild_of_ne hgpp.symm).trans hread₂
  have hrun : tree.rotate s gp = { tree with memory := m₈ }.climbRoot := by
    change (m.get (m.child s) gp).bind _ = _
    rw [RBMemory.get_eq hgp.live, hgp.child, NodeTree.root_join]
    change (m.get m.fa gp).bind _ = _
    rw [RBMemory.get_eq hgp.live, hgp.fa]
    change (m.unlessNull (above path) fun f =>
      m.replaceChild f gp (some p)).bind _ = _
    rw [RBMemory.unlessNull_replaceChild habove]
    change (m₁.put p m₂).bind _ = _
    rw [RBMemory.put_eq (m := m₁) hp.live]
    change (m₂.get (m₂.child s.other) p).bind _ = _
    rw [RBMemory.get_eq (m := m₂) hp.live, hread₂]
    change (m₂.put gp m₃).bind _ = _
    rw [RBMemory.put_eq (m := m₂) hgp.live]
    change (m₃.get (m₃.child s.other) p).bind _ = _
    rw [RBMemory.get_eq (m := m₃) hp.live, hread₃]
    change (m₃.unlessNull B.root fun q => m₃.setFa q (some gp)).bind _ = _
    rw [RBMemory.unlessNull_setFa (m := m₃) hinner]
    change (m₄.put p m₅).bind _ = _
    rw [RBMemory.put_eq (m := m₄) hp.live]
    change (m₅.put gp m₆).bind _ = _
    rw [RBMemory.put_eq (m := m₅) hgp.live]
    change (m₆.put gp m₇).bind _ = _
    rw [RBMemory.put_eq (m := m₆) hgp.live]
    change (m₇.put p m₈).bind _ = _
    rw [RBMemory.put_eq (m := m₇) hp.live]
    rfl
  have hstands : (plug path (.join s p (paint .black b) A
      (.join s gp (paint .red a) B C))).Stands m₈.links none := by
    apply h.stands.rotate h.nodup
    · change storeChild (storeChild (redirect m.child (above path) gp (some p))
        s gp B.root) s.other p (some gp) = _
      rw [← hgp.fa, ← hp.other]
      rfl
    · change Function.update (storeAt (Function.update m.fa p (above path))
        B.root (some gp)) gp (some p) = _
      rw [← hgp.fa, ← hp.other]
      rfl
    · intro q hqp hqgp
      have hcolor : m₈.color q = m.color q := by
        change Function.update (Function.update m.color gp .red) p .black q = _
        rw [Function.update_of_ne hqp, Function.update_of_ne hqgp]
      simp only [RBMemory.links, hcolor]
      rfl
    · exact RBMemory.content_eq_some.mpr
        ⟨hp.live, Function.update_self .., hp.data⟩
    · refine RBMemory.content_eq_some.mpr ⟨hgp.live, ?_, hgp.data⟩
      exact (Function.update_of_ne hgpp _ _).trans (Function.update_self ..)
  have htop : 0 < m₈.top :=
    (Nat.zero_le gp).trans_lt (h.bounded gp hgp.live)
  have hroot := climbRoot_eq { tree with memory := m₈ } htop h.root hstands fun _ => ⟨[⟨s.other, p, paint .black b, A⟩], s, paint .red a, B, C,
      (NodeTree.join_other ..).symm, le_rfl⟩
  refine ⟨_, hrun.trans hroot, rfl, rfl, hstands, ?_, h.bounded, rfl⟩
  refine List.Perm.nodup ?_ h.nodup
  refine (nodes_plug _ _).trans (List.Perm.trans ?_ (nodes_plug _ _).symm)
  refine List.Perm.append_right _ ?_
  exact NodeTree.nodes_rotate

theorem Holds.rotateTwice {c : Color × K × V} (h : Holds tree
    (plug path (.join s gp a (.join s p b A (.join s x c B C)) D))) :
    ∃ tree', tree.rotateTwice s gp = some tree' ∧ tree'.len = tree.len ∧
      tree'.memory.top = tree.memory.top ∧
      Holds tree' (plug path (.join s x (paint .black c)
        (.join s p b A B) (.join s gp (paint .red a) C D))) := by
  have hgp := h.reads
  have hp : Reads tree.memory s p b (some gp) A.root (some x) :=
    NodeTree.root_join s x c B C ▸ Holds.reads
      (show Holds tree (plug (⟨s, gp, a, D⟩ :: path)
        (.join s p b A (.join s x c B C))) from h)
  have hx : Reads tree.memory s x c (some p) B.root C.root :=
    Holds.reads (show Holds tree (plug (⟨s.other, p, b, A⟩ ::
      ⟨s, gp, a, D⟩ :: path) (.join s x c B C)) from
        h.congr (congrArg (fun u => plug path (.join s gp a u D))
          (NodeTree.join_other s p b (.join s x c B C) A).symm))
  have hB : ∀ q, B.root = some q → tree.memory.live q = true :=
    fun q hq => h.live_focus (by simp [NodeTree.root_mem hq])
  have hC : ∀ q, C.root = some q → tree.memory.live q = true :=
    fun q hq => h.live_focus (by simp [NodeTree.root_mem hq])
  have habove : ∀ q, above path = some q → tree.memory.live q = true :=
    fun q hq => h.live_above hq
  have hxabove : above path ≠ some x := h.above_ne (by simp)
  have hxgp : x ≠ gp := by
    rintro rfl
    have hfresh := (List.nodup_cons.mp
      ((NodeTree.nodes_join ..).nodup_iff.mp h.nodup_focus)).1
    exact hfresh (List.mem_append_left _ (by simp))
  have hxp : x ≠ p := by
    rintro rfl
    have hrest := (List.nodup_cons.mp
      ((NodeTree.nodes_join ..).nodup_iff.mp h.nodup_focus)).2
    have hfresh := (List.nodup_cons.mp ((NodeTree.nodes_join ..).nodup_iff.mp
      (List.nodup_append.mp hrest).1)).1
    exact hfresh (List.mem_append_right _ (by simp))
  -- the writes in the order of the source
  let m := tree.memory
  let m₁ : RBMemory K V :=
    { m with child := redirect m.child (above path) gp (some x) }
  let m₂ : RBMemory K V :=
    { m₁ with fa := Function.update m.fa x (above path) }
  let m₃ : RBMemory K V :=
    { m₂ with child := storeChild m₁.child s gp C.root }
  let m₄ : RBMemory K V :=
    { m₃ with fa := storeAt m₂.fa C.root (some gp) }
  let m₅ : RBMemory K V :=
    { m₄ with child := storeChild m₃.child s.other p B.root }
  let m₆ : RBMemory K V :=
    { m₅ with fa := storeAt m₄.fa B.root (some p) }
  let m₇ : RBMemory K V :=
    { m₆ with child := storeChild m₅.child s x (some p) }
  let m₈ : RBMemory K V :=
    { m₇ with fa := Function.update m₆.fa p (some x) }
  let m₉ : RBMemory K V :=
    { m₈ with child := storeChild m₇.child s.other x (some gp) }
  let m₁₀ : RBMemory K V :=
    { m₉ with fa := Function.update m₈.fa gp (some x) }
  let m₁₁ : RBMemory K V :=
    { m₁₀ with color := Function.update m.color gp .red }
  let m₁₂ : RBMemory K V :=
    { m₁₁ with color := Function.update m₁₁.color x .black }
  have houter₂ : m₂.child s.other x = C.root :=
    (redirect_of_ne hxabove).trans hx.other
  have houter₃ : m₃.child s.other x = C.root :=
    (storeChild_of_ne hxgp).trans houter₂
  have hinner₄ : m₄.child s x = B.root :=
    (storeChild_of_ne hxgp).trans ((redirect_of_ne hxabove).trans hx.child)
  have hinner₅ : m₅.child s x = B.root :=
    (storeChild_of_ne hxp).trans hinner₄
  have hrun : tree.rotateTwice s gp =
      { tree with memory := m₁₂ }.climbRoot := by
    change (m.get (m.child s) gp).bind _ = _
    rw [RBMemory.get_eq hgp.live, hgp.child, NodeTree.root_join]
    change (m.get (m.child s.other) p).bind _ = _
    rw [RBMemory.get_eq hp.live, hp.other]
    change (m.get m.fa gp).bind _ = _
    rw [RBMemory.get_eq hgp.live, hgp.fa]
    change (m.unlessNull (above path) fun f =>
      m.replaceChild f gp (some x)).bind _ = _
    rw [RBMemory.unlessNull_replaceChild habove]
    change (m₁.put x m₂).bind _ = _
    rw [RBMemory.put_eq (m := m₁) hx.live]
    change (m₂.get (m₂.child s.other) x).bind _ = _
    rw [RBMemory.get_eq (m := m₂) hx.live, houter₂]
    change (m₂.put gp m₃).bind _ = _
    rw [RBMemory.put_eq (m := m₂) hgp.live]
    change (m₃.get (m₃.child s.other) x).bind _ = _
    rw [RBMemory.get_eq (m := m₃) hx.live, houter₃]
    change (m₃.unlessNull C.root fun q => m₃.setFa q (some gp)).bind _ = _
    rw [RBMemory.unlessNull_setFa (m := m₃) hC]
    change (m₄.get (m₄.child s) x).bind _ = _
    rw [RBMemory.get_eq (m := m₄) hx.live, hinner₄]
    change (m₄.put p m₅).bind _ = _
    rw [RBMemory.put_eq (m := m₄) hp.live]
    change (m₅.get (m₅.child s) x).bind _ = _
    rw [RBMemory.get_eq (m := m₅) hx.live, hinner₅]
    change (m₅.unlessNull B.root fun q => m₅.setFa q (some p)).bind _ = _
    rw [RBMemory.unlessNull_setFa (m := m₅) hB]
    change (m₆.put x m₇).bind _ = _
    rw [RBMemory.put_eq (m := m₆) hx.live]
    change (m₇.put p m₈).bind _ = _
    rw [RBMemory.put_eq (m := m₇) hp.live]
    change (m₈.put x m₉).bind _ = _
    rw [RBMemory.put_eq (m := m₈) hx.live]
    change (m₉.put gp m₁₀).bind _ = _
    rw [RBMemory.put_eq (m := m₉) hgp.live]
    change (m₁₀.put gp m₁₁).bind _ = _
    rw [RBMemory.put_eq (m := m₁₀) hgp.live]
    change (m₁₁.put x m₁₂).bind _ = _
    rw [RBMemory.put_eq (m := m₁₁) hx.live]
    rfl
  have hcolor : ∀ q, q ≠ gp → q ≠ x → m₁₂.color q = m.color q := by
    intro q hqgp hqx
    change Function.update (Function.update m.color gp .red) x .black q = _
    rw [Function.update_of_ne hqx, Function.update_of_ne hqgp]
  have hpgp : p ≠ gp := by
    rintro rfl
    have hfresh := (List.nodup_cons.mp
      ((NodeTree.nodes_join ..).nodup_iff.mp h.nodup_focus)).1
    exact hfresh (List.mem_append_left _ (by simp))
  have hstands : (plug path (.join s x (paint .black c)
      (.join s p b A B) (.join s gp (paint .red a) C D))).Stands
        m₁₂.links none := by
    apply h.stands.rotateTwice h.nodup
    · change storeChild (storeChild (storeChild (storeChild
        (redirect m.child (above path) gp (some x)) s gp C.root)
          s.other p B.root) s x (some p)) s.other x (some gp) = _
      rw [← hgp.fa, ← hx.child, ← hx.other]
      rfl
    · change Function.update (Function.update (storeAt (storeAt
        (Function.update m.fa x (above path)) C.root (some gp))
          B.root (some p)) p (some x)) gp (some x) = _
      rw [← hgp.fa, ← hx.child, ← hx.other]
      rfl
    · intro q _ hqgp hqx
      simp only [RBMemory.links, hcolor q hqgp hqx]
      rfl
    · exact RBMemory.content_eq_some.mpr
        ⟨hx.live, Function.update_self .., hx.data⟩
    · exact RBMemory.content_eq_some.mpr
        ⟨hp.live, (hcolor p hpgp hxp.symm).trans hp.color, hp.data⟩
    · refine RBMemory.content_eq_some.mpr ⟨hgp.live, ?_, hgp.data⟩
      exact (Function.update_of_ne hxgp.symm _ _).trans
        (Function.update_self ..)
  have htop : 0 < m₁₂.top :=
    (Nat.zero_le gp).trans_lt (h.bounded gp hgp.live)
  have hroot := climbRoot_eq { tree with memory := m₁₂ } htop h.root hstands
    fun _ => ⟨[⟨s.other, x, paint .black c, .join s p b A B⟩], s,
      paint .red a, C, D, (NodeTree.join_other ..).symm, le_rfl⟩
  refine ⟨_, hrun.trans hroot, rfl, rfl, hstands, ?_, h.bounded, rfl⟩
  refine List.Perm.nodup ?_ h.nodup
  refine (nodes_plug _ _).trans (List.Perm.trans ?_ (nodes_plug _ _).symm)
  exact List.Perm.append_right _ NodeTree.nodes_rotateTwice

end RedBlackTree

end TicketSystem.Backend
