import TicketSystem.Backend.RedBlackBalance

/-!
# Steps on the tree in memory

What the functions of the red-black tree test and write at the node they stand
at, and the tree that stands in memory afterwards.
-/

namespace TicketSystem.Backend

open TicketSystem.Support

variable {K V : Type}

/-- The tree with another colour at its root. -/
def paintRoot (c : Color) : RBTree K V → RBTree K V
  | .nil => .nil
  | .node p a l r => .node p (paint c a) l r

@[simp] theorem paintRoot_join {c : Color} {s : Side} {p : ℕ}
    {a : Color × K × V} {A B : RBTree K V} :
    paintRoot c (.join s p a A B) = .join s p (paint c a) A B := by
  cases s <;> rfl

@[simp] theorem root_paintRoot (c : Color) (t : RBTree K V) :
    (paintRoot c t).root = t.root := by
  cases t <;> rfl

@[simp] theorem entries_paintRoot (c : Color) (t : RBTree K V) :
    entries (paintRoot c t) = entries t := by
  cases t with
  | nil => rfl
  | node p a l r =>
      exact entries_join_paint (s := .left)

@[simp] theorem size_paintRoot (c : Color) (t : RBTree K V) :
    (paintRoot c t).size = t.size := by
  cases t <;> rfl

/-- A red tree becomes higher when its root becomes black. -/
theorem Balanced.paint_black {t : RBTree K V} {n : ℕ}
    (h : Balanced t .red n) : Balanced (paintRoot .black t) .black (n + 1) := by
  obtain ⟨p, e, l, r, rfl, hl, hr⟩ := h.exists_red .left
  exact .join_black (s := .left) hl hr

theorem Balanced.paint_same {t : RBTree K V} {c : Color} {n : ℕ}
    (h : Balanced t c n) : Balanced (paintRoot c t) c n := by
  cases h with
  | nil => exact .nil
  | red hA hB => exact .red hA hB
  | black hA hB => exact .black hA hB

namespace RedBlackTree

variable {tree : RedBlackTree K V} {s : Side} {e : K × V}
  {a b d : Color × K × V} {A B C D T t : RBTree K V} {p gp x : ℕ}
  {path : List (Frame (Color × K × V))} {c : Color}

/-! ## Subtrees -/

theorem Holds.whole (h : Holds tree t) : Holds tree (plug [] t) := h

theorem Holds.child (h : Holds tree (plug path (.join s p a A B))) :
    Holds tree (plug (⟨s, p, a, B⟩ :: path) A) := h

theorem Holds.other_child (h : Holds tree (plug path (.join s p a A B))) :
    Holds tree (plug (⟨s.other, p, a, A⟩ :: path) B) :=
  h.congr (congrArg (plug path) (NodeTree.join_other ..).symm)

/-! ## Tests -/

theorem Holds.isRed (h : Holds tree (plug path t)) :
    tree.memory.isRed t.root = some (decide (rootColor t = .red)) := by
  cases t with
  | nil => rfl
  | node p a l r =>
      have hp := Holds.reads (s := .left) (A := l) (B := r) h
      change (tree.memory.get tree.memory.color p).bind _ = _
      rw [RBMemory.get_eq hp.live, hp.color]
      rfl

theorem Holds.isBlackOrNull (h : Holds tree (plug path t)) :
    tree.memory.isBlackOrNull t.root =
      some (decide (rootColor t = .black)) := by
  cases t with
  | nil => rfl
  | node p a l r =>
      have hp := Holds.reads (s := .left) (A := l) (B := r) h
      change (tree.memory.get tree.memory.color p).bind _ = _
      rw [RBMemory.get_eq hp.live, hp.color]
      rfl

/-- The other child of a node is another node. -/
theorem Holds.root_other_ne (h : Holds tree (plug path (.join s p a A B)))
    {q : ℕ} (hq : A.root = some q) : B.root ≠ some q := by
  have hnodup := (NodeTree.nodes_join ..).nodup_iff.mp h.nodup_focus
  obtain ⟨-, -, hdisjoint⟩ :=
    List.nodup_append.mp (List.nodup_cons.mp hnodup).2
  intro hB
  exact hdisjoint q (NodeTree.root_mem hq) q (NodeTree.root_mem hB) rfl

/-- `gp->left == p` asks for the side of the child `p`. -/
theorem Holds.get_child_left (h : Holds tree (plug path (.join s p a A B)))
    {q : ℕ} (hq : A.root = some q) :
    ∃ l, tree.memory.get (tree.memory.child .left) p = some l ∧
      (l = some q ↔ s = .left) := by
  have hp := h.reads
  refine ⟨tree.memory.child .left p, RBMemory.get_eq hp.live _, ?_⟩
  cases s with
  | left => simp [hp.child, hq]
  | right =>
      have hother : tree.memory.child .left p = B.root := hp.other
      simp [hother, h.root_other_ne hq]

theorem Holds.get_child_right (h : Holds tree (plug path (.join s p a A B)))
    {q : ℕ} (hq : A.root = some q) :
    ∃ r, tree.memory.get (tree.memory.child .right) p = some r ∧
      (r = some q ↔ s = .right) := by
  have hp := h.reads
  refine ⟨tree.memory.child .right p, RBMemory.get_eq hp.live _, ?_⟩
  cases s with
  | right => simp [hp.child, hq]
  | left =>
      have hother : tree.memory.child .right p = B.root := hp.other
      simp [hother, h.root_other_ne hq]

/-- The other child of the node at the end of the path. -/
theorem Holds.reads_cons {f : Frame (Color × K × V)}
    (h : Holds tree (plug (f :: path) t)) :
    Reads tree.memory f.side f.p f.a (above path) t.root f.sibling.root :=
  Holds.reads (show Holds tree (plug path (.join f.side f.p f.a t f.sibling))
    from h)

/-- The root is not below another node. -/
theorem Holds.root_ne (h : Holds tree (plug path (.join s gp a T D)))
    (hp : T.root = some p) : some p ≠ tree.root := by
  intro heq
  have hpath : p ∉ pathNodes path := by
    intro hmem
    have hnodup := (nodes_plug _ _).nodup_iff.mp h.nodup
    exact (List.nodup_append.mp hnodup).2.2 p
      (by simp [NodeTree.root_mem hp]) p hmem rfl
  rw [h.root] at heq
  cases path with
  | nil =>
      rw [plug, NodeTree.root_join] at heq
      obtain rfl := Option.some.inj heq
      have hnodup := (NodeTree.nodes_join ..).nodup_iff.mp h.nodup_focus
      exact (List.nodup_cons.mp hnodup).1
        (List.mem_append_left _ (NodeTree.root_mem hp))
  | cons f path =>
      exact hpath (root_plug_mem heq.symm)

/-! ## Colours -/

/-- The root of the subtree at the end of the path is painted. -/
theorem Holds.paint (h : Holds tree (plug path t)) (hp : t.root = some p)
    (c : Color) :
    ∃ m, tree.memory.setColor p c = some m ∧ m.top = tree.memory.top ∧
      Holds { tree with memory := m } (plug path (paintRoot c t)) := by
  obtain ⟨a, A, B, rfl⟩ := NodeTree.exists_join .left hp
  have hmem : p ∈ (plug path (.join .left p a A B)).nodes :=
    (nodes_plug _ _).mem_iff.mpr (List.mem_append_left _ (by simp))
  have hnodup := (nodes_plug _ _).nodup_iff.mp h.nodup
  have hpath : p ∉ pathNodes path := fun hpath =>
    (List.nodup_append.mp hnodup).2.2 p (by simp) p hpath rfl
  have hfocus := (List.nodup_cons.mp
    ((NodeTree.nodes_join ..).nodup_iff.mp h.nodup_focus)).1
  have hA : p ∉ A.nodes := fun hA => hfocus (List.mem_append_left _ hA)
  have hB : p ∉ B.nodes := fun hB => hfocus (List.mem_append_right _ hB)
  obtain ⟨m, hm, htop, hholds⟩ := h.setColor hmem c
  refine ⟨m, hm, htop, hholds.congr ?_⟩
  rw [modify_plug, map_modify_eq_self hpath, NodeTree.modify_join, if_pos rfl,
    NodeTree.modify_eq_self hA, NodeTree.modify_eq_self hB, paintRoot_join]

/-- A node is painted. -/
theorem Holds.paint_node (h : Holds tree (plug path (.join s p a A B)))
    (c : Color) :
    ∃ m, tree.memory.setColor p c = some m ∧ m.top = tree.memory.top ∧
      Holds { tree with memory := m }
        (plug path (.join s p (c, a.2) A B)) := by
  obtain ⟨m, hm, htop, hholds⟩ := h.paint (NodeTree.root_join ..) c
  exact ⟨m, hm, htop, hholds.congr (by rw [paintRoot_join]; rfl)⟩

/-- A child of a node is painted. -/
theorem Holds.paint_child (h : Holds tree (plug path (.join s p a A B)))
    {q : ℕ} (hq : A.root = some q) (c : Color) :
    ∃ m, tree.memory.setColor q c = some m ∧ m.top = tree.memory.top ∧
      Holds { tree with memory := m }
        (plug path (.join s p a (paintRoot c A) B)) :=
  h.child.paint hq c

theorem Holds.paint_other (h : Holds tree (plug path (.join s p a A B)))
    {q : ℕ} (hq : B.root = some q) (c : Color) :
    ∃ m, tree.memory.setColor q c = some m ∧ m.top = tree.memory.top ∧
      Holds { tree with memory := m }
        (plug path (.join s p a A (paintRoot c B))) := by
  obtain ⟨m, hm, htop, hholds⟩ := h.other_child.paint hq c
  exact ⟨m, hm, htop, hholds.congr (congrArg (plug path)
    (NodeTree.join_other ..))⟩

/-- Both children of a node are painted and then the node itself. -/
theorem Holds.paint_three {l r : ℕ}
    (h : Holds tree (plug path (.join .left p a A B)))
    (hA : A.root = some l) (hB : B.root = some r) (c c' : Color) :
    ∃ m₁ m₂ m₃, tree.memory.setColor r c' = some m₁ ∧
      m₁.setColor l c' = some m₂ ∧ m₂.setColor p c = some m₃ ∧
      m₃.top = tree.memory.top ∧
      Holds { tree with memory := m₃ }
        (plug path (.join .left p (Backend.paint c a) (paintRoot c' A)
          (paintRoot c' B))) := by
  obtain ⟨m₁, hm₁, htop₁, h₁⟩ := h.paint_other hB c'
  obtain ⟨m₂, hm₂, htop₂, h₂⟩ := h₁.paint_child hA c'
  obtain ⟨m₃, hm₃, htop₃, h₃⟩ := h₂.paint_node c
  exact ⟨m₁, m₂, m₃, hm₁, hm₂, hm₃, htop₃.trans (htop₂.trans htop₁), h₃⟩

/-- The data of a node are replaced. -/
theorem Holds.setData (h : Holds tree (plug path (.join s p a A B)))
    (e : K × V) :
    ∃ m, tree.memory.setData p e = some m ∧
      Holds { tree with memory := m }
        (plug path (.join s p (a.1, e) A B)) := by
  have hread := h.reads
  have hnodup := (nodes_plug _ _).nodup_iff.mp h.nodup
  have hpath : p ∉ pathNodes path := fun hpath =>
    (List.nodup_append.mp hnodup).2.2 p (by simp) p hpath rfl
  have hfocus := (List.nodup_cons.mp
    ((NodeTree.nodes_join ..).nodup_iff.mp h.nodup_focus)).1
  have hA : p ∉ A.nodes := fun hA => hfocus (List.mem_append_left _ hA)
  have hB : p ∉ B.nodes := fun hB => hfocus (List.mem_append_right _ hB)
  have hshape : (plug path (.join s p a A B)).modify p (fun a => (a.1, e)) =
      plug path (.join s p (a.1, e) A B) := by
    rw [modify_plug, map_modify_eq_self hpath, NodeTree.modify_join, if_pos rfl,
      NodeTree.modify_eq_self hA, NodeTree.modify_eq_self hB]
  refine ⟨_, RBMemory.put_eq hread.live _, ?_⟩
  rw [← hshape]
  refine ⟨?_, ?_, h.bounded, ?_⟩
  · refine h.stands.modify rfl rfl ?_ fun q hq => ?_
    · simp only [RBMemory.links, if_pos hread.live, Function.update_self,
        hread.data]
      rfl
    · simp only [RBMemory.links, Function.update_of_ne hq]
  · rw [NodeTree.nodes_modify]
    exact h.nodup
  · rw [NodeTree.root_modify]
    exact h.root

/-! ## The ends -/

/-- The last node on one side of a subtree. -/
theorem Holds.lastOn (h : Holds tree (plug path t)) (s : Side)
    (hp : t.root = some p) {fuel : ℕ} (hfuel : t.size ≤ fuel) :
    tree.memory.lastOn s fuel p = t.outer s := by
  induction fuel generalizing path t p with
  | zero =>
      obtain ⟨a, A, B, rfl⟩ := NodeTree.exists_join s hp
      rw [NodeTree.size_join] at hfuel
      omega
  | succ fuel ih =>
      obtain ⟨a, A, B, rfl⟩ := NodeTree.exists_join s hp
      have hreads := h.reads
      rw [NodeTree.size_join] at hfuel
      rw [RBMemory.lastOn, RBMemory.get_eq hreads.live, hreads.child,
        NodeTree.outer_join]
      cases hA : A.root with
      | none => rfl
      | some q =>
          rw [if_neg (Option.some_ne_none q)]
          exact ih h.child hA (by omega)

theorem Holds.outermost (h : Holds tree t) (s : Side) :
    tree.outermost s = some (t.outer s) := by
  rw [RedBlackTree.outermost, h.root]
  cases hroot : t.root with
  | none =>
      obtain rfl := NodeTree.eq_nil_of_root hroot
      rfl
  | some p =>
      change (tree.memory.lastOn s tree.memory.top p).map some = _
      rw [h.whole.lastOn s hroot h.size_le]
      obtain ⟨q, hq⟩ := NodeTree.exists_outer (by rw [hroot]; simp) s
      rw [hq]
      rfl

/-- `head` and `rear` are the ends of the tree. -/
structure EndsAt (tree : RedBlackTree K V) (t : RBTree K V) : Prop where
  head : tree.head = t.outer .left
  rear : tree.rear = t.outer .right

theorem Holds.setEnds (h : Holds tree t) :
    ∃ tree', tree.setEnds = some tree' ∧ tree'.len = tree.len ∧
      tree'.memory = tree.memory ∧ Holds tree' t ∧ EndsAt tree' t := by
  refine ⟨{ tree with head := t.outer .left, rear := t.outer .right }, ?_,
    rfl, rfl, ⟨h.stands, h.nodup, h.bounded, h.root⟩, rfl, rfl⟩
  change (tree.outermost .left).bind _ = _
  rw [h.outermost]
  change (tree.outermost .right).bind _ = _
  rw [h.outermost]
  rfl

/-- The root becomes black. -/
theorem Holds.blackenRoot (h : Holds tree t) (hp : t.root = some p) :
    ∃ tree', tree.blackenRoot = some tree' ∧ tree'.len = tree.len ∧
      tree'.memory.top = tree.memory.top ∧
      Holds tree' (paintRoot .black t) := by
  obtain ⟨m, hm, htop, hholds⟩ := h.whole.paint hp .black
  refine ⟨{ tree with memory := m }, ?_, rfl, htop, hholds⟩
  have hroot : tree.root = some p := h.root.trans hp
  rw [RedBlackTree.blackenRoot, hroot]
  change (tree.memory.setColor p .black).bind _ = _
  rw [hm]
  rfl

/-- The root becomes black and the ends are set anew. -/
theorem Holds.finish {n : ℕ} (h : Holds tree t) (hp : t.root = some p)
    (hbalanced : Balanced t c n) :
    ∃ tree', tree.blackenRoot.bind RedBlackTree.setEnds = some tree' ∧
      tree'.len = tree.len ∧ tree'.memory.top = tree.memory.top ∧
      Holds tree' (paintRoot .black t) ∧ EndsAt tree' (paintRoot .black t) ∧
      ∃ n', Balanced (paintRoot .black t) .black n' := by
  obtain ⟨tree₁, hblack, hlen₁, htop₁, h₁⟩ := h.blackenRoot hp
  obtain ⟨tree₂, hends, hlen₂, hmemory, h₂, hat⟩ := h₁.setEnds
  refine ⟨tree₂, ?_, hlen₂.trans hlen₁, ?_, h₂, hat, ?_⟩
  · rw [hblack]
    exact hends
  · rw [hmemory, htop₁]
  · obtain ⟨a, A, B, rfl⟩ := NodeTree.exists_join .left hp
    rw [paintRoot_join]
    exact hbalanced.blacken

/-! ## Search -/

variable {lt : K → K → Bool} {y : K}

/-- The first node with an equal key on the way down. -/
def search (lt : K → K → Bool) (y : K) : RBTree K V → Option (ℕ × K × V)
  | .nil => none
  | .node p a l r =>
      if equal lt a.2.1 y then some (p, a.2)
      else
        match sideOf lt y a.2.1 with
        | .left => search lt y l
        | .right => search lt y r

theorem search_join (p : ℕ) (a : Color × K × V) (A B : RBTree K V) :
    search lt y (.join (sideOf lt y a.2.1) p a A B) =
      if equal lt a.2.1 y then some (p, a.2) else search lt y A := by
  cases hs : sideOf lt y a.2.1 <;> simp [NodeTree.join, search, hs]

theorem Holds.findFrom (h : Holds tree (plug path t)) {fuel : ℕ}
    (hfuel : t.size ≤ fuel) :
    findFrom lt tree.memory y fuel t.root =
      some ((search lt y t).map Prod.fst) := by
  induction fuel generalizing path t with
  | zero =>
      cases t with
      | nil => rfl
      | node p a l r =>
          rw [NodeTree.size] at hfuel
          omega
  | succ fuel ih =>
      cases hroot : t.root with
      | none =>
          obtain rfl := NodeTree.eq_nil_of_root hroot
          rfl
      | some p =>
          obtain ⟨a, l, r, rfl⟩ := NodeTree.exists_join .left hroot
          obtain ⟨A, B, hjoin⟩ : ∃ A B, NodeTree.join .left p a l r =
              .join (sideOf lt y a.2.1) p a A B := by
            cases sideOf lt y a.2.1 with
            | left => exact ⟨l, r, rfl⟩
            | right => exact ⟨r, l, rfl⟩
          rw [hjoin] at h hfuel ⊢
          have hreads := h.reads
          rw [NodeTree.size_join] at hfuel
          rw [RedBlackTree.findFrom, RBMemory.getData_eq hreads.live hreads.data]
          change (if equal lt a.2.1 y then some (some p)
            else (tree.memory.get (tree.memory.child (sideOf lt y a.2.1))
              p).bind _) = _
          rw [RBMemory.get_eq hreads.live, hreads.child, search_join]
          by_cases hequal : equal lt a.2.1 y = true
          · rw [if_pos hequal, if_pos hequal]
            rfl
          · rw [if_neg hequal, if_neg hequal]
            exact ih h.child (by omega)

theorem Holds.find (h : Holds tree t) (y : K) :
    tree.find lt y = some ((search lt y t).map Prod.fst) := by
  rw [RedBlackTree.find, h.root]
  exact h.whole.findFrom h.size_le

end RedBlackTree

end TicketSystem.Backend
