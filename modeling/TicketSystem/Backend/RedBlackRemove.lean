import TicketSystem.Backend.RedBlackSwap

/-!
# Removal from a red-black tree

`remove` descends with a red node: before it steps down, `remove_adjust` gives
the node it stands at the colour red, borrowing from its sibling or from its
own red child.  So the node that is taken out in the end is a red leaf.
-/

namespace TicketSystem.Backend

open TicketSystem.Support

variable {K V : Type}

namespace RedBlackTree

variable {tree : RedBlackTree K V} {s : Side} {e : K × V}
  {a b d : Color × K × V} {A B C I L O R T t : RBTree K V} {p q x z : ℕ}
  {path : List (Frame (Color × K × V))} {c : Color}

/-! ## Borrowing from the sibling -/

/-- The sibling `x` has a red child on its far side. -/
theorem Holds.borrow_outer
    (h : Holds tree (plug path (.join s p a (.join s x b O I) T)))
    (hO : rootColor O = .red) (hq : T.root = some q) :
    ∃ tree', tree.borrow s p q x = some (tree', ⟨p, q, I.root⟩) ∧
      tree'.len = tree.len ∧ tree'.memory.top = tree.memory.top ∧
      Holds tree' (plug path (.join s x (.red, b.2) (paintRoot .black O)
        (.join s p (.black, a.2) I (paintRoot .red T)))) := by
  obtain ⟨o, ho⟩ : ∃ o, O.root = some o := by
    cases O with
    | nil => cases hO
    | node o => exact ⟨o, rfl⟩
  have hx := h.child.reads
  have hred : tree.memory.isRed O.root = some true := by
    rw [h.child.child.isRed, hO]
    rfl
  obtain ⟨tree₁, hrotate, hlen, htop, h₁⟩ := h.rotate
  obtain ⟨m₂, hm₂, htop₂, h₂⟩ := h₁.paint_node .red
  obtain ⟨m₃, hm₃, htop₃, h₃⟩ := h₂.other_child.paint_other hq .red
  obtain ⟨m₄, hm₄, htop₄, h₄⟩ := h₃.paint_node .black
  have h₄' : Holds { tree₁ with memory := m₄ } (plug path
      (.join s x (.red, b.2) O (.join s p (.black, a.2) I
        (paintRoot .red T)))) :=
    h₄.congr (congrArg (plug path) (NodeTree.join_other ..))
  have hx₄ := h₄'.reads
  obtain ⟨m₅, hm₅, htop₅, h₅⟩ := h₄'.paint_child ho .black
  have hp₅ := h₅.other_child.reads
  refine ⟨{ tree₁ with memory := m₅ }, ?_, hlen, ?_, h₅⟩
  · change (tree.memory.get (tree.memory.child s) x).bind _ = _
    rw [RBMemory.get_eq hx.live, hx.child]
    change (tree.memory.isRed O.root).bind _ = _
    rw [hred]
    change (tree.rotate s p).bind _ = _
    rw [hrotate]
    change (tree₁.memory.setColor x .red).bind _ = _
    rw [hm₂]
    change (m₂.setColor q .red).bind _ = _
    rw [hm₃]
    change (m₃.setColor p .black).bind _ = _
    rw [hm₄]
    change (m₄.get (m₄.child s) x).bind _ = _
    rw [RBMemory.get_eq hx₄.live, show m₄.child s x = some o from
      hx₄.child.trans ho]
    change (m₄.setColor o .black).bind _ = _
    rw [hm₅]
    change (m₅.get (m₅.child s) p).bind _ = _
    rw [RBMemory.get_eq hp₅.live, show m₅.child s p = I.root from hp₅.child]
    rfl
  · exact htop₅.trans (htop₄.trans (htop₃.trans (htop₂.trans htop)))

/-- Only the child `z` on the near side of the sibling is red. -/
theorem Holds.borrow_inner (h : Holds tree (plug path
      (.join s p a (.join s x b A (.join s z d B C)) T)))
    (hA : rootColor A = .black) (hq : T.root = some q) :
    ∃ tree', tree.borrow s p q x = some (tree', ⟨p, q, C.root⟩) ∧
      tree'.len = tree.len ∧ tree'.memory.top = tree.memory.top ∧
      Holds tree' (plug path (.join s z (.red, d.2)
        (.join s x (.black, b.2) A B)
        (.join s p (.black, a.2) C (paintRoot .red T)))) := by
  have hx := h.child.reads
  have hblack : tree.memory.isRed A.root = some false := by
    rw [h.child.child.isRed, hA]
    rfl
  obtain ⟨tree₁, hrotate, hlen, htop, h₁⟩ := h.rotateTwice
  obtain ⟨m₂, hm₂, htop₂, h₂⟩ := h₁.other_child.paint_other hq .red
  have hp₂ := h₂.reads
  have h₂' : Holds { tree₁ with memory := m₂ } (plug path
      (.join s z (.black, d.2) (.join s x b A B)
        (.join s p (.red, a.2) C (paintRoot .red T)))) :=
    h₂.congr (congrArg (plug path) (NodeTree.join_other ..))
  obtain ⟨m₃, hm₃, htop₃, h₃⟩ := h₂'.paint_node .red
  obtain ⟨m₄, hm₄, htop₄, h₄⟩ :=
    h₃.paint_child (NodeTree.root_join ..) .black
  rw [paintRoot_join] at h₄
  obtain ⟨m₅, hm₅, htop₅, h₅⟩ :=
    h₄.paint_other (NodeTree.root_join ..) .black
  rw [paintRoot_join] at h₅
  have hp₅ := h₅.other_child.reads
  refine ⟨{ tree₁ with memory := m₅ }, ?_, hlen, ?_, h₅⟩
  · change (tree.memory.get (tree.memory.child s) x).bind _ = _
    rw [RBMemory.get_eq hx.live, hx.child]
    change (tree.memory.isRed A.root).bind _ = _
    rw [hblack]
    change (tree.rotateTwice s p).bind _ = _
    rw [hrotate]
    change (tree₁.memory.setColor q .red).bind _ = _
    rw [hm₂]
    change (m₂.get m₂.fa p).bind _ = _
    rw [RBMemory.get_eq hp₂.live, show m₂.fa p = some z from hp₂.fa]
    change (m₂.setColor z .red).bind _ = _
    rw [hm₃]
    change (m₃.setColor x .black).bind _ = _
    rw [hm₄]
    change (m₄.setColor p .black).bind _ = _
    rw [hm₅]
    change (m₅.get (m₅.child s) p).bind _ = _
    rw [RBMemory.get_eq hp₅.live, show m₅.child s p = C.root from hp₅.child]
    rfl
  · exact htop₅.trans (htop₄.trans (htop₃.trans (htop₂.trans htop)))

/-- The node goes below its child `x`. -/
theorem Holds.lower (h : Holds tree (plug path
      (.join s q a (.join s x b A B) C))) :
    ∃ tree', tree.lower s q = some (tree', ⟨x, q, A.root⟩) ∧
      tree'.len = tree.len ∧ tree'.memory.top = tree.memory.top ∧
      Holds tree' (plug path (.join s x (.black, b.2) A
        (.join s q (.red, a.2) B C))) := by
  obtain ⟨tree₁, hrotate, hlen, htop, h₁⟩ := h.rotate
  obtain ⟨m₂, hm₂, htop₂, h₂⟩ := h₁.other_child.paint_node .red
  have hq₂ := h₂.reads
  have h₂' : Holds { tree₁ with memory := m₂ } (plug path
      (.join s x (.black, b.2) A (.join s q (.red, a.2) B C))) :=
    h₂.congr (congrArg (plug path) (NodeTree.join_other ..))
  obtain ⟨m₃, hm₃, htop₃, h₃⟩ := h₂'.paint_node .black
  have hx₃ := h₃.reads
  refine ⟨{ tree₁ with memory := m₃ }, ?_, hlen, ?_, h₃⟩
  · change (tree.rotate s q).bind _ = _
    rw [hrotate]
    change (tree₁.memory.setColor q .red).bind _ = _
    rw [hm₂]
    change (m₂.get m₂.fa q).bind _ = _
    rw [RBMemory.get_eq hq₂.live, show m₂.fa q = some x from hq₂.fa]
    change (m₂.setColor x .black).bind _ = _
    rw [hm₃]
    change (m₃.get (m₃.child s) x).bind _ = _
    rw [RBMemory.get_eq hx₃.live, show m₃.child s x = A.root from hx₃.child]
    rfl
  · exact htop₃.trans (htop₂.trans htop)

/-- A cursor at a node and one of its children. -/
theorem Holds.cursorAt (h : Holds tree (plug path (.join s p a A B)))
    (hq : A.root = some q) :
    RedBlackTree.cursorAt tree.memory p (some q) =
      some ⟨p, q, B.root⟩ := by
  have hp := h.reads
  obtain ⟨l, hl, hl'⟩ := h.get_child_left hq
  change (tree.memory.get (tree.memory.child .left) p).bind _ = _
  rw [hl]
  change (tree.memory.get (tree.memory.child
    (if some q = l then .right else .left)) p).bind _ = _
  rw [RBMemory.get_eq hp.live]
  have hother : tree.memory.child (if some q = l then .right else .left) p =
      B.root := by
    cases s with
    | left =>
        rw [if_pos (hl'.mpr rfl).symm]
        exact hp.other
    | right =>
        rw [if_neg]
        · exact hp.other
        · intro heq
          cases hl'.mp heq.symm
  rw [hother]
  rfl

/-! ## The entry to remove -/

variable {lt : K → K → Bool} {del : K} {es : List (K × V)}
  {path' rest : List (Frame (Color × K × V))} {t' : RBTree K V}

/-- The entry `e` with the key `del` stands in the subtree at the end of the
path, and the keys of the subtree lie around it; `es` are the other entries.
The keys of the path need not: a full node has changed its place with the next
one. -/
structure Locates (lt : K → K → Bool) (del : K) (e : K × V)
    (es : List (K × V)) (path : List (Frame (Color × K × V)))
    (t : RBTree K V) : Prop where
  equal : equal lt e.1 del = true
  split : ∃ before after, entries t = before ++ e :: after ∧
    es = entriesBefore path ++ (before ++ after) ++ entriesAfter path ∧
      (∀ b ∈ before, lt b.1 del = true) ∧ ∀ b ∈ after, lt del b.1 = true

/-- Only one element of a list satisfies a predicate. -/
theorem split_unique {α : Type} {P : α → Prop} {before after before' after' :
      List α} {x y : α} (heq : before ++ x :: after = before' ++ y :: after')
    (hy : P y) (hbefore : ∀ b ∈ before, ¬ P b)
    (hafter : ∀ b ∈ after, ¬ P b) :
    before = before' ∧ x = y ∧ after = after' := by
  induction before generalizing before' with
  | nil =>
      cases before' with
      | nil =>
          obtain ⟨rfl, rfl⟩ := List.cons.inj heq
          exact ⟨rfl, rfl, rfl⟩
      | cons b before' =>
          obtain ⟨rfl, rfl⟩ := List.cons.inj heq
          exact absurd hy (hafter y (by simp))
  | cons b before ih =>
      cases before' with
      | nil =>
          obtain ⟨rfl, -⟩ := List.cons.inj heq
          exact absurd hy (hbefore b List.mem_cons_self)
      | cons b' before' =>
          obtain ⟨rfl, htail⟩ := List.cons.inj heq
          obtain ⟨rfl, rfl, rfl⟩ := ih htail fun b hb =>
            hbefore b (List.mem_cons_of_mem _ hb)
          exact ⟨rfl, rfl, rfl⟩

/-- The other keys of the subtree differ from the key. -/
theorem not_equal_of_split {before after : List (K × V)}
    (hbefore : ∀ b ∈ before, lt b.1 del = true)
    (hafter : ∀ b ∈ after, lt del b.1 = true) :
    (∀ b ∈ before, ¬ RedBlackTree.equal lt b.1 del = true) ∧
      ∀ b ∈ after, ¬ RedBlackTree.equal lt b.1 del = true := by
  constructor
  · intro b hb
    rw [equal_eq_false_of_lt (hbefore b hb)]
    exact Bool.false_ne_true
  · intro b hb
    rw [equal_comm, equal_eq_false_of_lt (hafter b hb)]
    exact Bool.false_ne_true

theorem Locates.mem (h : Locates lt del e es path t) : e ∈ entries t := by
  obtain ⟨before, after, heq, -⟩ := h.split
  rw [heq]
  simp

theorem Locates.congr (h : Locates lt del e es path t)
    (hbefore : entriesBefore path' = entriesBefore path)
    (hafter : entriesAfter path' = entriesAfter path)
    (ht : entries t' = entries t) : Locates lt del e es path' t' := by
  obtain ⟨before, after, heq, hes, hlt⟩ := h.split
  exact ⟨h.equal, before, after, ht.trans heq, by rw [hes, hbefore, hafter],
    hlt⟩

theorem entriesBefore_append (path path' : List (Frame (Color × K × V))) :
    entriesBefore (path ++ path') =
      entriesBefore path' ++ entriesBefore path := by
  induction path with
  | nil => simp [entriesBefore, cellsBefore]
  | cons f path ih =>
      obtain ⟨s, p, a, A⟩ := f
      rw [List.cons_append, entriesBefore_cons, entriesBefore_cons, ih,
        List.append_assoc]

theorem entriesAfter_append (path path' : List (Frame (Color × K × V))) :
    entriesAfter (path ++ path') =
      entriesAfter path ++ entriesAfter path' := by
  induction path with
  | nil => simp [entriesAfter, cellsAfter]
  | cons f path ih =>
      obtain ⟨s, p, a, A⟩ := f
      rw [List.cons_append, entriesAfter_cons, entriesAfter_cons, ih,
        List.append_assoc]

/-- The subtree below in which the entry stands. -/
theorem Locates.below (rest : List (Frame (Color × K × V)))
    (h : Locates lt del e es path t)
    (heq : entries (plug rest t') = entries t) (hmem : e ∈ entries t') :
    Locates lt del e es (rest ++ path) t' := by
  obtain ⟨before, after, ht, rfl, hbefore, hafter⟩ := h.split
  obtain ⟨before', after', ht'⟩ := List.append_of_mem hmem
  obtain ⟨hnot, hnot'⟩ := not_equal_of_split hbefore hafter
  have hsplit : before ++ e :: after = (entriesBefore rest ++ before') ++
      e :: (after' ++ entriesAfter rest) := by
    rw [← ht, ← heq, entries_plug, ht']
    simp
  obtain ⟨rfl, -, rfl⟩ := split_unique
    (P := fun b => RedBlackTree.equal lt b.1 del = true) hsplit h.equal hnot hnot'
  refine ⟨h.equal, before', after', ht', ?_, ?_, ?_⟩
  · rw [entriesBefore_append, entriesAfter_append]
    simp
  · intro b hb
    exact hbefore b (List.mem_append_right _ hb)
  · intro b hb
    exact hafter b (List.mem_append_left _ hb)

/-- The entry at the root of the subtree. -/
theorem Locates.here (h : Locates lt del e es path (.join .left q a A B))
    (hequal : RedBlackTree.equal lt a.2.1 del = true) :
    a.2 = e ∧ es = entriesBefore path ++ (entries A ++ entries B) ++
        entriesAfter path ∧ (∀ b ∈ entries A, lt b.1 del = true) ∧
      ∀ b ∈ entries B, lt del b.1 = true := by
  obtain ⟨before, after, ht, rfl, hbefore, hafter⟩ := h.split
  obtain ⟨hnot, hnot'⟩ := not_equal_of_split hbefore hafter
  rw [entries_join] at ht
  obtain ⟨rfl, rfl, rfl⟩ := split_unique
    (P := fun b => RedBlackTree.equal lt b.1 del = true) ht.symm hequal hnot hnot'
  exact ⟨rfl, rfl, hbefore, hafter⟩

/-- The entry stands on the side of the root where its key belongs. -/
theorem Locates.mem_child (hlt : StrictWeakOrder lt)
    (h : Locates lt del e es path (.join (sideOf lt del a.2.1) q a A B))
    (hne : RedBlackTree.equal lt a.2.1 del = false) : e ∈ entries A := by
  obtain ⟨before, after, ht, rfl, hbefore, hafter⟩ := h.split
  have ha : a.2 ≠ e := by
    intro ha
    rw [ha, h.equal] at hne
    cases hne
  rw [entries_join] at ht
  by_cases hside : lt del a.2.1 = true
  · have hs : sideOf lt del a.2.1 = .left := if_pos hside
    rw [hs] at ht
    rcases List.append_eq_append_iff.mp ht with
      ⟨l, hl, hr⟩ | ⟨l, hl, hr⟩
    · cases l with
      | nil => exact absurd (List.cons.inj hr).1 ha
      | cons b l =>
          obtain ⟨rfl, -⟩ := List.cons.inj hr
          have hmem := hbefore a.2 (by rw [hl]; simp)
          rw [hlt.asymm _ _ hmem] at hside
          cases hside
    · cases l with
      | nil => exact absurd (List.cons.inj hr).1.symm ha
      | cons b l =>
          obtain ⟨rfl, -⟩ := List.cons.inj hr
          rw [hl]
          simp
  · have hs : sideOf lt del a.2.1 = .right := if_neg hside
    rw [hs] at ht
    rcases List.append_eq_append_iff.mp ht with
      ⟨l, hl, hr⟩ | ⟨l, hl, hr⟩
    · cases l with
      | nil => exact absurd (List.cons.inj hr).1 ha
      | cons b l =>
          rw [(List.cons.inj hr).2]
          simp
    · cases l with
      | nil => exact absurd (List.cons.inj hr).1.symm ha
      | cons b l =>
          have hmem : a.2 ∈ after := by
            rw [(List.cons.inj hr).2]
            simp
          exact absurd (hafter _ hmem) hside

/-! ## One adjustment -/

variable {fuel : ℕ} {t2 : Option ℕ} {l r : RBTree K V}

/-- A red node is left alone. -/
theorem removeAdjust_of_red (h : Holds tree (plug path (.join s q a A B)))
    (hred : a.1 = .red) (p : ℕ) (t2 : Option ℕ) :
    removeAdjust lt del (fuel + 1) tree ⟨p, q, t2⟩ =
      some (tree, ⟨p, q, t2⟩) := by
  have hq := h.reads
  rw [removeAdjust]
  change (tree.memory.get tree.memory.color q).bind _ = _
  rw [RBMemory.get_eq hq.live, hq.color, hred]
  rfl

/-- What is done with a black node depends on the colours of its children. -/
theorem removeAdjust_of_black
    (h : Holds tree (plug path (.join .left q a l r))) (hblack : a.1 = .black)
    (p : ℕ) (t2 : Option ℕ) :
    removeAdjust lt del (fuel + 1) tree ⟨p, q, t2⟩ =
      if some q = tree.root ∧ l.root.isSome ∧ r.root.isSome ∧
          decide (rootColor l = .red) = decide (rootColor r = .red) then do
        let m ← tree.memory.setColor q .red
        let m ← m.setColor (← r.root) .black
        let m ← m.setColor (← l.root) .black
        return ({ tree with memory := m }, ⟨p, q, t2⟩)
      else if rootColor l = .black ∧ rootColor r = .black then do
        let m := tree.memory
        let t2 ← t2
        if (← m.isBlackOrNull (← m.get (m.child .left) t2)) &&
            (← m.isBlackOrNull (← m.get (m.child .right) t2)) then
          let m ← m.setColor p .black
          let m ← m.setColor t2 .red
          let m ← m.setColor q .red
          return ({ tree with memory := m }, ⟨p, q, some t2⟩)
        else if (← m.get (m.child .left) p) = some t2 then
          tree.borrow .left p q t2
        else tree.borrow .right p q t2
      else if equal lt a.2.1 del then
        if l.root.isSome ∧ r.root.isSome then
          if rootColor r = .black then tree.lower .left q
          else return (tree, ⟨p, q, t2⟩)
        else if l.root.isSome then tree.lower .left q
        else tree.lower .right q
      else do
        let m := tree.memory
        let next ← RedBlackTree.cursorAt m q
          (m.child (sideOf lt del a.2.1) q)
        if (← m.get m.color next.t) = .black then
          let up ← next.t2
          let tree ← if (← m.get (m.child .right) next.p) = some up then
              tree.RR next.p
            else tree.LL next.p
          let m ← tree.memory.setColor next.p .red
          let m ← m.setColor up .black
          let last ← RedBlackTree.cursorAt m up (some next.p)
          removeAdjust lt del fuel { tree with memory := m } last
        else return (tree, next) := by
  have hq := h.reads
  have hl := h.child.isRed
  have hr := h.other_child.isRed
  have hl' := h.child.isBlackOrNull
  have hr' := h.other_child.isBlackOrNull
  rw [removeAdjust]
  change (tree.memory.get tree.memory.color q).bind _ = _
  rw [RBMemory.get_eq hq.live, hq.color, hblack]
  change (tree.memory.get (tree.memory.child .left) q).bind _ = _
  rw [RBMemory.get_eq hq.live, hq.child]
  change (tree.memory.get (tree.memory.child .right) q).bind _ = _
  rw [RBMemory.get_eq hq.live, show tree.memory.child .right q = r.root from
    hq.other]
  change (tree.memory.isRed l.root).bind _ = _
  rw [hl]
  change (tree.memory.isRed r.root).bind _ = _
  rw [hr]
  change (if some q = tree.root ∧ l.root.isSome ∧ r.root.isSome ∧
    decide (rootColor l = .red) = decide (rootColor r = .red) then _
      else (tree.memory.isBlackOrNull l.root).bind _) = _
  rw [hl']
  change (if some q = tree.root ∧ l.root.isSome ∧ r.root.isSome ∧
    decide (rootColor l = .red) = decide (rootColor r = .red) then _
      else (tree.memory.isBlackOrNull r.root).bind _) = _
  rw [hr']
  change (if some q = tree.root ∧ l.root.isSome ∧ r.root.isSome ∧
    decide (rootColor l = .red) = decide (rootColor r = .red) then _
      else if (decide (rootColor l = .black) && decide (rootColor r = .black)) =
        true then _ else (tree.memory.getData q).bind _) = _
  rw [RBMemory.getData_eq hq.live hq.data]
  by_cases hroot : some q = tree.root ∧ l.root.isSome ∧ r.root.isSome ∧
      decide (rootColor l = .red) = decide (rootColor r = .red)
  · rw [if_pos hroot, if_pos hroot]
  rw [if_neg hroot, if_neg hroot]
  by_cases hcolors : rootColor l = .black ∧ rootColor r = .black
  · rw [if_pos hcolors, if_pos]
    rw [hcolors.1, hcolors.2]
    rfl
  rw [if_neg hcolors, if_neg]
  · change (if equal lt a.2.1 del = true then _ else
      (tree.memory.get (tree.memory.child (sideOf lt del a.2.1)) q).bind _) = _
    rw [RBMemory.get_eq hq.live]
    by_cases hequal : equal lt a.2.1 del = true
    · rw [if_pos hequal, if_pos hequal]
      by_cases hfull : l.root.isSome ∧ r.root.isSome
      · rw [if_pos hfull, if_pos hfull]
        by_cases hblackr : rootColor r = .black
        · rw [if_pos hblackr, hblackr]
          rfl
        · rw [if_neg hblackr, decide_eq_false hblackr]
          rfl
      · rw [if_neg hfull, if_neg hfull]
    · rw [if_neg hequal, if_neg hequal]
      rfl
  · rw [Bool.and_eq_true, decide_eq_true_iff, decide_eq_true_iff]
    exact hcolors

/-- A black node without red children is given the colour red with the help of
its sibling `x`. -/
theorem removeAdjust_sibling
    (h : Holds tree (plug (⟨s, p, a, .join s.other x b O I⟩ :: path)
      (.join .left q d l r))) (hblack : d.1 = .black)
    (hl : rootColor l = .black) (hr : rootColor r = .black) :
    removeAdjust lt del (fuel + 1) tree ⟨p, q, some x⟩ =
      if rootColor O = .black ∧ rootColor I = .black then do
        let m ← tree.memory.setColor p .black
        let m ← m.setColor x .red
        let m ← m.setColor q .red
        return ({ tree with memory := m }, ⟨p, q, some x⟩)
      else tree.borrow s.other p q x := by
  have hparent : Holds tree (plug path (.join s p a (.join .left q d l r)
      (.join s.other x b O I))) := h
  have hroot : some q ≠ tree.root := hparent.root_ne (NodeTree.root_join ..)
  have hsibling := hparent.other_child
  obtain ⟨L, R, hjoin, hcolors⟩ : ∃ L R, NodeTree.join s.other x b O I =
      .join .left x b L R ∧ ((rootColor L = .black ∧ rootColor R = .black) ↔
        (rootColor O = .black ∧ rootColor I = .black)) := by
    cases s with
    | left => exact ⟨I, O, rfl, and_comm⟩
    | right => exact ⟨O, I, rfl, Iff.rfl⟩
  rw [hjoin] at hsibling
  have hx := hsibling.reads
  have hL := hsibling.child.isBlackOrNull
  have hR := hsibling.other_child.isBlackOrNull
  rw [removeAdjust_of_black h hblack, if_neg fun hall => hroot hall.1,
    if_pos ⟨hl, hr⟩]
  change (tree.memory.get (tree.memory.child .left) x).bind _ = _
  rw [RBMemory.get_eq hx.live, hx.child]
  change (tree.memory.isBlackOrNull L.root).bind _ = _
  rw [hL]
  change (tree.memory.get (tree.memory.child .right) x).bind _ = _
  rw [RBMemory.get_eq hx.live, show tree.memory.child .right x = R.root from
    hx.other]
  change (tree.memory.isBlackOrNull R.root).bind _ = _
  rw [hR]
  change (if (decide (rootColor L = .black) && decide (rootColor R = .black)) =
    true then _ else (tree.memory.get (tree.memory.child .left) p).bind _) = _
  by_cases hboth : rootColor O = .black ∧ rootColor I = .black
  · rw [if_pos hboth, if_pos]
    rw [(hcolors.mpr hboth).1, (hcolors.mpr hboth).2]
    rfl
  · rw [if_neg hboth, if_neg]
    · obtain ⟨lp, hlp, hlp'⟩ := Holds.get_child_left
        (show Holds tree (plug path (.join s.other p a (.join s.other x b O I)
          (.join .left q d l r))) from hparent.other_child)
        (NodeTree.root_join ..)
      rw [hlp]
      change (if lp = some x then _ else _) = _
      cases s with
      | left =>
          rw [if_neg]
          · rfl
          · intro heq
            cases hlp'.mp heq
      | right =>
          rw [if_pos (hlp'.mpr rfl)]
          rfl
    · rw [Bool.and_eq_true, decide_eq_true_iff, decide_eq_true_iff, hcolors]
      exact hboth

/-! ## The descent of `remove` -/

/-- What holds when `remove` stands at the subtree `t`.  The root may be red. -/
structure Removing (lt : K → K → Bool) (del : K) (e : K × V)
    (es : List (K × V)) (tree : RedBlackTree K V)
    (path : List (Frame (Color × K × V))) (t : RBTree K V)
    (cursor : Cursor) : Prop where
  holds : Holds tree (plug path t)
  balanced : ∃ c n, Balanced t c n ∧ Fits .red path c n
  locates : Locates lt del e es path t
  focus : t.root = some cursor.t
  above_eq : ∀ f rest, path = f :: rest →
    cursor.p = f.p ∧ cursor.t2 = f.sibling.root

/-- What an adjustment leaves behind: the node is red, or it is to be exchanged
with the next one, which stands below its red child. -/
structure Adjusted (lt : K → K → Bool) (del : K) (e : K × V)
    (es : List (K × V)) (tree : RedBlackTree K V) (size : ℕ)
    (tree' : RedBlackTree K V) (path : List (Frame (Color × K × V)))
    (t : RBTree K V) (cursor : Cursor) : Prop
    extends Removing lt del e es tree' path t cursor where
  len : tree'.len = tree.len
  top : tree'.memory.top = tree.memory.top
  size_le : t.size ≤ size
  root_full : path = [] → ∃ q a l r, t = .join .left q a l r ∧
    l.root ≠ none ∧ r.root ≠ none
  ready : rootColor t = .red ∨ ∃ q a l r, t = .join .left q a l r ∧
    equal lt a.2.1 del = true ∧ l.root ≠ none ∧ rootColor r = .red

variable {cursor : Cursor} {f : Frame (Color × K × V)}

/-- A black node below a red one has a sibling, which is black. -/
theorem Removing.exists_sibling
    (h : Removing lt del e es tree (f :: path) (.join .left q d l r) cursor)
    (hblack : d.1 = .black) (hl : rootColor l = .black)
    (hr : rootColor r = .black) (hf : f.a.1 = .red) :
    ∃ s p fe x be O I m c₁ c₂,
      f = ⟨s, p, (.red, fe), .join s.other x (.black, be) O I⟩ ∧
        cursor = ⟨p, q, some x⟩ ∧ Balanced l .black m ∧ Balanced r .black m ∧
          Balanced O c₁ m ∧ Balanced I c₂ m ∧ Fits .red path .red (m + 1) := by
  obtain ⟨s, p, ⟨_, fe⟩, X⟩ := f
  obtain ⟨_, de⟩ := d
  subst hf hblack
  obtain ⟨c, n, ht, hfits⟩ := h.balanced
  obtain ⟨rfl, m, c₁, c₂, rfl, hbl, hbr⟩ := balanced_join_black.mp ht
  obtain ⟨-, hX, hpath⟩ := fits_red.mp hfits
  obtain ⟨x, ⟨c', be⟩, O, I, rfl⟩ := hX.exists_join s.other
  have hc' := hX.rootColor_eq
  rw [rootColor_join] at hc'
  subst hc'
  obtain ⟨-, m', c₃, c₄, hm, hO, hI⟩ := balanced_join_black.mp hX
  obtain rfl := Nat.succ.inj hm
  obtain ⟨hp, ht2⟩ := h.above_eq _ _ rfl
  have hfocus := h.focus
  rw [NodeTree.root_join] at hfocus
  rw [NodeTree.root_join] at ht2
  refine ⟨s, p, fe, x, be, O, I, m, c₃, c₄, rfl, ?_, hl ▸ hbl.self,
    hr ▸ hbr.self, hO, hI, hpath⟩
  obtain ⟨cp, ct, ct2⟩ := cursor
  obtain rfl := Option.some.inj hfocus
  subst hp ht2
  rfl

/-- The sibling has no red child: the colours of the three nodes change. -/
theorem Removing.adjust_merge {fe be : K × V} {m : ℕ}
    (h : Removing lt del e es tree
      (⟨s, p, (.red, fe), .join s.other x (.black, be) O I⟩ :: path)
      (.join .left q d l r) ⟨p, q, some x⟩) (hblack : d.1 = .black)
    (hl : Balanced l .black m) (hr : Balanced r .black m)
    (hO : Balanced O .black m) (hI : Balanced I .black m)
    (hpath : Fits .red path .red (m + 1)) :
    ∃ tree' cursor' path' t',
      removeAdjust lt del (fuel + 1) tree ⟨p, q, some x⟩ =
        some (tree', cursor') ∧
      Adjusted lt del e es tree (NodeTree.join .left q d l r).size tree' path'
        t' cursor' := by
  have hparent : Holds tree (plug path (.join s p (.red, fe)
    (.join .left q d l r) (.join s.other x (.black, be) O I))) := h.holds
  obtain ⟨m₁, hm₁, htop₁, h₁⟩ := hparent.paint_node .black
  obtain ⟨m₂, hm₂, htop₂, h₂⟩ := h₁.paint_other (NodeTree.root_join ..) .red
  obtain ⟨m₃, hm₃, htop₃, h₃⟩ := h₂.paint_child (NodeTree.root_join ..) .red
  rw [paintRoot_join, paintRoot_join] at h₃
  refine ⟨{ tree with memory := m₃ }, ⟨p, q, some x⟩,
    ⟨s, p, (.black, fe), .join s.other x (.red, be) O I⟩ :: path,
    .join .left q (.red, d.2) l r, ?_, ?_⟩
  · rw [removeAdjust_sibling h.holds hblack hl.rootColor_eq hr.rootColor_eq,
      if_pos ⟨hO.rootColor_eq, hI.rootColor_eq⟩]
    change (tree.memory.setColor p .black).bind _ = _
    rw [hm₁]
    change (m₁.setColor x .red).bind _ = _
    rw [hm₂]
    change (m₂.setColor q .red).bind _ = _
    rw [hm₃]
    rfl
  · refine { holds := h₃, balanced := ?_, locates := ?_, focus := ?_,
             above_eq := ?_, len := rfl, top := ?_, size_le := ?_,
             root_full := nofun, ready := .inl ?_ }
    · exact ⟨.red, m, .join_red hl hr,
        .black (.join_red hO hI) (hpath.of_red .black)⟩
    · apply h.locates.congr
      · cases s <;> simp [entriesBefore_cons, entries_join]
      · cases s <;> simp [entriesAfter_cons, entries_join]
      · rw [entries_join, entries_join]
    · exact NodeTree.root_join ..
    · rintro g rest heq
      obtain ⟨rfl, -⟩ := List.cons.inj heq
      exact ⟨rfl, (NodeTree.root_join ..).symm⟩
    · exact htop₃.trans (htop₂.trans htop₁)
    · rw [NodeTree.size_join, NodeTree.size_join]
    · rw [rootColor_join]

/-- A node has moved from the side of the sibling `A` to the other. -/
theorem Removing.borrowed {fe ze : K × V} {m : ℕ} {c₁ : Color}
    {tree' : RedBlackTree K V}
    (h : Removing lt del e es tree (⟨s, p, (.red, fe), A⟩ :: path) T cursor)
    (hholds : Holds tree' (plug path (.join s.other z (.red, ze) O
      (.join s.other p (.black, fe) I (paintRoot .red T)))))
    (hlen : tree'.len = tree.len)
    (htop : tree'.memory.top = tree.memory.top)
    (hT : Balanced (paintRoot .red T) .red m) (hI : Balanced I c₁ m)
    (hO : Balanced O .black (m + 1)) (hpath : Fits .red path .red (m + 1))
    (hentries : entries (.join s z (.red, ze) I O) = entries A)
    (hq : T.root = some q) :
    Adjusted lt del e es tree T.size tree'
      (⟨s, p, (.black, fe), I⟩ :: ⟨s, z, (.red, ze), O⟩ :: path)
      (paintRoot .red T) ⟨p, q, I.root⟩ where
  holds := by
    rw [NodeTree.join_other, NodeTree.join_other] at hholds
    exact hholds
  balanced := ⟨.red, m, hT, .black hI (.red hO hpath)⟩
  locates := by
    apply h.locates.congr
    · rw [entriesBefore_cons, entriesBefore_cons, entriesBefore_cons,
        ← hentries, entries_join]
      cases s <;> simp
    · rw [entriesAfter_cons, entriesAfter_cons, entriesAfter_cons,
        ← hentries, entries_join]
      cases s <;> simp
    · exact entries_paintRoot ..
  focus := (root_paintRoot ..).trans hq
  above_eq := by
    rintro g rest heq
    obtain ⟨rfl, -⟩ := List.cons.inj heq
    exact ⟨rfl, rfl⟩
  len := hlen
  top := htop
  size_le := (size_paintRoot ..).le
  root_full := nofun
  ready := .inl hT.rootColor_eq

/-- The sibling has a red child: a node moves from its side to the other. -/
theorem Removing.adjust_borrow {fe be : K × V} {m : ℕ} {c₁ c₂ : Color}
    (h : Removing lt del e es tree
      (⟨s, p, (.red, fe), .join s.other x (.black, be) O I⟩ :: path)
      (.join .left q d l r) ⟨p, q, some x⟩) (hblack : d.1 = .black)
    (hl : Balanced l .black m) (hr : Balanced r .black m)
    (hO : Balanced O c₁ m) (hI : Balanced I c₂ m)
    (hred : ¬ (rootColor O = .black ∧ rootColor I = .black))
    (hpath : Fits .red path .red (m + 1)) :
    ∃ tree' cursor' path' t',
      removeAdjust lt del (fuel + 1) tree ⟨p, q, some x⟩ =
        some (tree', cursor') ∧
      Adjusted lt del e es tree (NodeTree.join .left q d l r).size tree' path'
        t' cursor' := by
  have hturned : Holds tree (plug path (.join s.other p (.red, fe)
      (.join s.other x (.black, be) O I) (.join .left q d l r))) :=
    Holds.other_child (show Holds tree (plug path (.join s p (.red, fe)
      (.join .left q d l r) (.join s.other x (.black, be) O I))) from h.holds)
  have hrun : removeAdjust lt del (fuel + 1) tree ⟨p, q, some x⟩ =
      tree.borrow s.other p q x := by
    rw [removeAdjust_sibling h.holds hblack hl.rootColor_eq hr.rootColor_eq,
      if_neg hred]
  have hT : Balanced (paintRoot .red (.join .left q d l r)) .red m := by
    rw [paintRoot_join]
    exact .join_red hl hr
  have hq : (NodeTree.join .left q d l r).root = some q :=
    NodeTree.root_join ..
  rw [hrun]
  cases c₁ with
  | red =>
      obtain ⟨tree', hborrow, hlen, htop, hholds⟩ :=
        hturned.borrow_outer hO.rootColor_eq hq
      refine ⟨tree', _, _, _, hborrow, h.borrowed hholds hlen htop hT hI
        hO.paint_black hpath ?_ hq⟩
      rw [NodeTree.join_other, entries_join, entries_join, entries_paintRoot]
  | black =>
      obtain rfl : c₂ = .red := by
        cases c₂ with
        | red => rfl
        | black => exact absurd ⟨hO.rootColor_eq, hI.rootColor_eq⟩ hred
      obtain ⟨z, ze, B, C, rfl, hB, hC⟩ := hI.exists_red s.other
      obtain ⟨tree', hborrow, hlen, htop, hholds⟩ :=
        hturned.borrow_inner hO.rootColor_eq hq
      refine ⟨tree', _, _, _, hborrow, h.borrowed hholds hlen htop hT hC
        (.join_black hO hB) hpath ?_ hq⟩
      rw [NodeTree.join_other, NodeTree.join_other, NodeTree.join_other]
      exact entries_rotate

/-- At a full root with children of one colour the colours change. -/
theorem Removing.adjust_root
    (h : Removing lt del e es tree [] (.join .left q d l r) cursor)
    (hblack : d.1 = .black) (hl : l.root ≠ none) (hr : r.root ≠ none)
    (hcolors : rootColor l = rootColor r) :
    ∃ tree' cursor' path' t',
      removeAdjust lt del (fuel + 1) tree cursor = some (tree', cursor') ∧
      Adjusted lt del e es tree (NodeTree.join .left q d l r).size tree' path'
        t' cursor' := by
  obtain ⟨p, ct, t2⟩ := cursor
  have hfocus := h.focus
  rw [NodeTree.root_join] at hfocus
  obtain rfl : q = ct := Option.some.inj hfocus
  obtain ⟨lp, hlp⟩ := Option.ne_none_iff_exists'.mp hl
  obtain ⟨rp, hrp⟩ := Option.ne_none_iff_exists'.mp hr
  have hroot : some q = tree.root := by
    rw [h.holds.root, plug, NodeTree.root_join]
  obtain ⟨m₁, hm₁, htop₁, h₁⟩ := h.holds.paint_node .red
  obtain ⟨m₂, hm₂, htop₂, h₂⟩ := h₁.paint_other hrp .black
  obtain ⟨m₃, hm₃, htop₃, h₃⟩ := h₂.paint_child hlp .black
  have habove : ∀ (f : Frame (Color × K × V)) rest, [] = f :: rest →
      p = f.p ∧ t2 = f.sibling.root :=
    fun f rest hcons => absurd hcons (List.cons_ne_nil f rest).symm
  refine ⟨{ tree with memory := m₃ }, ⟨p, q, t2⟩, [], _, ?_,
    { holds := h₃, balanced := ?_, locates := ?_, focus := ?_,
      above_eq := habove, len := rfl, top := ?_, size_le := ?_,
      root_full := fun _ => ⟨_, _, _, _, rfl, ?_, ?_⟩, ready := .inl ?_ }⟩
  · rw [removeAdjust_of_black h.holds hblack, if_pos, hlp, hrp]
    · change (tree.memory.setColor q .red).bind _ = _
      rw [hm₁]
      change (m₁.setColor rp .black).bind _ = _
      rw [hm₂]
      change (m₂.setColor lp .black).bind _ = _
      rw [hm₃]
      rfl
    · rw [hlp, hrp, hcolors]
      exact ⟨hroot, rfl, rfl, rfl⟩
  · obtain ⟨_, de⟩ := d
    subst hblack
    obtain ⟨c, n, ht, -⟩ := h.balanced
    obtain ⟨rfl, m, c₁, c₂, rfl, hbl, hbr⟩ := balanced_join_black.mp ht
    obtain rfl : c₁ = c₂ := by
      rw [← hbl.rootColor_eq, ← hbr.rootColor_eq, hcolors]
    cases c₁ with
    | red =>
        exact ⟨.red, m + 1, .join_red hbl.paint_black hbr.paint_black,
          .root fun _ => rfl⟩
    | black =>
        exact ⟨.red, m, .join_red hbl.paint_same hbr.paint_same,
          .root fun _ => rfl⟩
  · apply h.locates.congr rfl rfl
    rw [entries_join, entries_join, entries_paintRoot, entries_paintRoot]
  · exact NodeTree.root_join ..
  · exact htop₃.trans (htop₂.trans htop₁)
  · rw [NodeTree.size_join, NodeTree.size_join, size_paintRoot,
      size_paintRoot]
  · rw [root_paintRoot]
    exact hl
  · rw [root_paintRoot]
    exact hr
  · rw [rootColor_join]

/-- The entry at the root of the subtree. -/
theorem Locates.root_eq (h : Locates lt del e es path (.join s q a A B))
    (hequal : RedBlackTree.equal lt a.2.1 del = true) : a.2 = e := by
  cases s with
  | left => exact (h.here hequal).1
  | right =>
      exact (Locates.here (show Locates lt del e es path (.join .left q a B A)
        from h) hequal).1

/-- The node with the key goes below its red child. -/
theorem Removing.adjust_lower
    (h : Removing lt del e es tree path (.join s q d A C) cursor)
    (hblack : d.1 = .black) (hequal : equal lt d.2.1 del = true)
    (hA : rootColor A = .red) (hC : rootColor C = .black) :
    ∃ tree' cursor' path' t', tree.lower s q = some (tree', cursor') ∧
      Adjusted lt del e es tree (NodeTree.join s q d A C).size tree' path'
        t' cursor' := by
  obtain ⟨_, de⟩ := d
  subst hblack
  obtain ⟨c, n, ht, hpath⟩ := h.balanced
  obtain ⟨rfl, m, c₁, c₂, rfl, hbA, hbC⟩ := balanced_join_black.mp ht
  obtain ⟨x, be, B, B', rfl, hB, hB'⟩ := (hA ▸ hbA.self).exists_red s
  have hbC := hC ▸ hbC.self
  obtain ⟨tree', hlower, hlen, htop, hholds⟩ := h.holds.lower
  refine ⟨tree', ⟨x, q, B.root⟩, ⟨s.other, x, (.black, be), B⟩ :: path,
    .join s q (.red, de) B' C, hlower,
    { holds := hholds.other_child,
      balanced := ⟨.red, m, .join_red hB' hbC, .black hB hpath⟩,
      locates := ?_, focus := NodeTree.root_join .., above_eq := ?_,
      len := hlen, top := htop, size_le := ?_, root_full := nofun,
      ready := .inl (rootColor_join ..) }⟩
  · apply h.locates.below [⟨s.other, x, (.black, be), B⟩]
    · change entries (.join s.other x (.black, be) _ B) = _
      rw [NodeTree.join_other]
      exact entries_rotate
    · rw [← h.locates.root_eq hequal, entries_join]
      cases s <;> simp
  · rintro g rest heq
    obtain ⟨rfl, -⟩ := List.cons.inj heq
    exact ⟨rfl, rfl⟩
  · rw [NodeTree.size_join, NodeTree.size_join, NodeTree.size_join]
    omega

/-- Below a black node with a red child the child with the key is red or
becomes the child of a red node. -/
theorem Removing.adjust_down (hlt : StrictWeakOrder lt)
    (h : Removing lt del e es tree path (.join .left q d l r) cursor)
    (hblack : d.1 = .black) (hequal : equal lt d.2.1 del = false)
    (hno : ¬ (some q = tree.root ∧ l.root.isSome ∧ r.root.isSome ∧
      decide (rootColor l = .red) = decide (rootColor r = .red)))
    (hred : ¬ (rootColor l = .black ∧ rootColor r = .black)) :
    ∃ tree' cursor' path' t',
      removeAdjust lt del (fuel + 2) tree cursor = some (tree', cursor') ∧
      Adjusted lt del e es tree (NodeTree.join .left q d l r).size tree' path'
        t' cursor' := by
  obtain ⟨p, ct, t2⟩ := cursor
  have hfocus := h.focus
  rw [NodeTree.root_join] at hfocus
  obtain rfl : q = ct := Option.some.inj hfocus
  rw [removeAdjust_of_black h.holds hblack, if_neg hno, if_neg hred,
    if_neg (hequal ▸ Bool.false_ne_true)]
  obtain ⟨A, D, hjoin, hred'⟩ : ∃ A D, NodeTree.join .left q d l r =
      .join (sideOf lt del d.2.1) q d A D ∧
        ¬ (rootColor A = .black ∧ rootColor D = .black) := by
    cases sideOf lt del d.2.1 with
    | left => exact ⟨l, r, rfl, hred⟩
    | right => exact ⟨r, l, rfl, fun h => hred h.symm⟩
  rw [hjoin] at h ⊢
  clear hjoin
  have hmem := h.locates.mem_child hlt hequal
  generalize sideOf lt del d.2.1 = s at *
  obtain ⟨_, de⟩ := d
  subst hblack
  obtain ⟨c, n, ht, hpath⟩ := h.balanced
  obtain ⟨rfl, m, c₁, c₂, rfl, hA, hD⟩ := balanced_join_black.mp ht
  obtain ⟨y, hy⟩ : ∃ y, A.root = some y := by
    cases A with
    | nil => cases hmem
    | node y => exact ⟨y, rfl⟩
  have hq := h.holds.reads
  have hcursor := h.holds.cursorAt hy
  obtain ⟨ya, Y, Y', rfl⟩ := NodeTree.exists_join .left hy
  have hcolor : tree.memory.get tree.memory.color y = some ya.1 := by
    have hread := h.holds.child.reads
    rw [RBMemory.get_eq hread.live, hread.color]
  have hc₁ := hA.rootColor_eq
  rw [rootColor_join] at hc₁
  cases c₁ with
  | red =>
      refine ⟨tree, ⟨q, y, D.root⟩, ⟨s, q, (.black, de), D⟩ :: path, _, ?_,
        { holds := h.holds.child,
          balanced := ⟨.red, m, hA, .black hD hpath⟩,
          locates := h.locates.below [⟨s, q, (.black, de), D⟩] rfl hmem,
          focus := hy, above_eq := ?_, len := rfl, top := rfl, size_le := ?_,
          root_full := nofun, ready := .inl hA.rootColor_eq }⟩
      · change (RedBlackTree.cursorAt tree.memory q
          (tree.memory.child s q)).bind _ = _
        rw [hq.child, hy, hcursor]
        change (tree.memory.get tree.memory.color y).bind _ = _
        rw [hcolor, hc₁]
        rfl
      · rintro g rest heq
        obtain ⟨rfl, -⟩ := List.cons.inj heq
        exact ⟨rfl, rfl⟩
      · rw [NodeTree.size_join (s := s)]
        omega
  | black =>
      obtain rfl : c₂ = .red := by
        cases c₂ with
        | red => rfl
        | black => exact absurd ⟨hA.rootColor_eq, hD.rootColor_eq⟩ hred'
      obtain ⟨x, xe, O, I, rfl, hO, hI⟩ := hD.exists_red s.other
      have hturned : Holds tree (plug path (.join s.other q (.black, de)
          (.join s.other x (.red, xe) O I) (.join .left y ya Y Y'))) :=
        h.holds.other_child
      obtain ⟨right, hright, hside⟩ :=
        hturned.get_child_right (NodeTree.root_join ..)
      obtain ⟨tree₁, hrotate, hlen, htop, h₁⟩ := hturned.rotate
      obtain ⟨m₂, hm₂, htop₂, h₂⟩ :=
        h₁.paint_other (NodeTree.root_join ..) .red
      rw [paintRoot_join] at h₂
      obtain ⟨m₃, hm₃, htop₃, h₃⟩ := h₂.paint_node .black
      rw [NodeTree.join_other, NodeTree.join_other] at h₃
      have hlast := h₃.cursorAt (NodeTree.root_join ..)
      have htail : ((tree₁.memory.setColor q .red).bind fun m =>
          (m.setColor x .black).bind fun m =>
            (RedBlackTree.cursorAt m x (some q)).bind fun last =>
              removeAdjust lt del (fuel + 1) { tree₁ with memory := m } last) =
          some ({ tree₁ with memory := m₃ }, ⟨x, q, O.root⟩) := by
        rw [hm₂]
        change (m₂.setColor x .black).bind _ = _
        rw [hm₃]
        change (RedBlackTree.cursorAt m₃ x (some q)).bind _ = _
        rw [hlast]
        exact removeAdjust_of_red h₃.child rfl x O.root
      refine ⟨{ tree₁ with memory := m₃ }, ⟨x, q, O.root⟩,
        ⟨s, x, (.black, xe), O⟩ :: path, _, ?_,
        { holds := h₃.child,
          balanced := ⟨.red, m, .join_red hA hI, .black hO hpath⟩,
          locates := h.locates.below [⟨s, x, (.black, xe), O⟩] ?_ ?_,
          focus := NodeTree.root_join .., above_eq := ?_, len := hlen,
          top := htop₃.trans (htop₂.trans htop), size_le := ?_,
          root_full := nofun, ready := .inl (rootColor_join ..) }⟩
      · change (RedBlackTree.cursorAt tree.memory q
          (tree.memory.child s q)).bind _ = _
        rw [hq.child, hy, hcursor]
        change (tree.memory.get tree.memory.color y).bind _ = _
        rw [hcolor, hc₁, NodeTree.root_join]
        change (tree.memory.get (tree.memory.child .right) q).bind _ = _
        rw [hright]
        cases s with
        | left =>
            change (if right = some x then (tree.RR q).bind _ else _) = _
            rw [if_pos (hside.mpr rfl), show tree.RR q = some tree₁ from
              hrotate]
            exact htail
        | right =>
            change (if right = some x then _ else (tree.LL q).bind _) = _
            rw [if_neg, show tree.LL q = some tree₁ from hrotate]
            · exact htail
            · intro heq
              cases hside.mp heq
      · change entries (.join s x (.black, xe) _ O) = _
        rw [NodeTree.join_other]
        exact entries_rotate.symm
      · rw [entries_join]
        cases s <;> simp [hmem]
      · rintro g rest heq
        obtain ⟨rfl, -⟩ := List.cons.inj heq
        exact ⟨rfl, rfl⟩
      · simp only [NodeTree.size_join]
        omega

/-- A red node needs no adjustment. -/
theorem Removing.adjust_stay (h : Removing lt del e es tree path t cursor)
    (hred : rootColor t = .red) (hpath : path ≠ []) :
    ∃ tree' cursor' path' t',
      removeAdjust lt del (fuel + 1) tree cursor = some (tree', cursor') ∧
      Adjusted lt del e es tree t.size tree' path' t' cursor' := by
  obtain ⟨p, q, t2⟩ := cursor
  obtain ⟨a, l, r, rfl⟩ := NodeTree.exists_join .left h.focus
  rw [rootColor_join] at hred
  refine ⟨tree, ⟨p, q, t2⟩, path, _, removeAdjust_of_red h.holds hred p t2,
    { toRemoving := h, len := rfl, top := rfl, size_le := le_rfl,
      root_full := fun heq => absurd heq hpath,
      ready := .inl ((rootColor_join ..).trans hred) }⟩

theorem red_of_not_black (h : rootColor t ≠ .black) : rootColor t = .red := by
  cases hc : rootColor t with
  | red => rfl
  | black => exact absurd hc h

/-- A black root with black children that is not alone has both. -/
theorem Removing.root_full
    (h : Removing lt del e es tree [] (.join .left q d l r) cursor)
    (hblack : d.1 = .black) (hl : rootColor l = .black)
    (hr : rootColor r = .black)
    (hsize : 1 < (NodeTree.join .left q d l r).size) :
    l.root ≠ none ∧ r.root ≠ none := by
  obtain ⟨_, de⟩ := d
  subst hblack
  obtain ⟨c, n, ht, -⟩ := h.balanced
  obtain ⟨rfl, m, c₁, c₂, rfl, hbl, hbr⟩ := balanced_join_black.mp ht
  rw [NodeTree.size_join] at hsize
  cases m with
  | zero =>
      have hl' : Balanced l .black 0 := hl ▸ hbl.self
      have hr' : Balanced r .black 0 := hr ▸ hbr.self
      rw [hl'.eq_nil, hr'.eq_nil, NodeTree.size] at hsize
      omega
  | succ m =>
      obtain ⟨_, _, _, _, rfl⟩ := hbl.exists_join .left
      obtain ⟨_, _, _, _, rfl⟩ := hbr.exists_join .left
      simp

/-- The adjustment of a node whose parent is red, or which is red itself. -/
theorem Removing.adjust (fuel : ℕ) (hlt : StrictWeakOrder lt)
    (h : Removing lt del e es tree path t cursor)
    (hroot : path = [] → rootColor t = .black ∧ 1 < t.size)
    (hred : ∀ f rest, path = f :: rest → f.a.1 = .red ∨ rootColor t = .red) :
    ∃ tree' cursor' path' t',
      removeAdjust lt del (fuel + 2) tree cursor = some (tree', cursor') ∧
      Adjusted lt del e es tree t.size tree' path' t' cursor' := by
  obtain ⟨p, q, t2⟩ := cursor
  obtain ⟨d, l, r, rfl⟩ := NodeTree.exists_join .left h.focus
  rw [rootColor_join] at hroot hred
  by_cases hpath : path ≠ [] ∧ d.1 = .red
  · exact h.adjust_stay ((rootColor_join ..).trans hpath.2) hpath.1
  have hblack : d.1 = .black := by
    by_cases hnil : path = []
    · exact (hroot hnil).1
    · cases hd : d.1 with
      | red => exact absurd ⟨hnil, hd⟩ hpath
      | black => rfl
  by_cases hsame : path = [] ∧ l.root ≠ none ∧ r.root ≠ none ∧
      rootColor l = rootColor r
  · obtain ⟨rfl, hl, hr, hcolors⟩ := hsame
    exact h.adjust_root hblack hl hr hcolors
  by_cases hcolors : rootColor l = .black ∧ rootColor r = .black
  · cases path with
    | nil =>
        exact absurd (h.root_full hblack hcolors.1 hcolors.2 (hroot rfl).2)
          fun hfull => hsame ⟨rfl, hfull.1, hfull.2,
            hcolors.1.trans hcolors.2.symm⟩
    | cons f rest =>
        have hf : f.a.1 = .red := by
          rcases hred f rest rfl with hf | hd
          · exact hf
          · rw [hblack] at hd
            cases hd
        obtain ⟨s, p, fe, x, be, O, I, m, c₁, c₂, rfl, heq, hl, hr, hO, hI,
          hrest⟩ := h.exists_sibling hblack hcolors.1 hcolors.2 hf
        rw [heq] at h ⊢
        by_cases hboth : rootColor O = .black ∧ rootColor I = .black
        · exact h.adjust_merge hblack hl hr (hboth.1 ▸ hO.self)
            (hboth.2 ▸ hI.self) hrest
        · exact h.adjust_borrow hblack hl hr hO hI hboth hrest
  have hno : ¬ (some q = tree.root ∧ l.root.isSome ∧ r.root.isSome ∧
      decide (rootColor l = .red) = decide (rootColor r = .red)) := by
    rintro ⟨heq, hl, hr, hc⟩
    refine hsame ⟨?_, Option.isSome_iff_ne_none.mp hl,
      Option.isSome_iff_ne_none.mp hr, ?_⟩
    · by_contra hne
      obtain ⟨f, rest, rfl⟩ := List.exists_cons_of_ne_nil hne
      exact Holds.root_ne
        (show Holds tree (plug rest (.join f.side f.p f.a _ f.sibling))
          from h.holds) (NodeTree.root_join ..) heq
    · cases hl' : rootColor l <;> cases hr' : rootColor r <;>
        simp_all
  by_cases hequal : equal lt d.2.1 del = true
  · rw [removeAdjust_of_black h.holds hblack, if_neg hno, if_neg hcolors,
      if_pos hequal]
    by_cases hfull : l.root.isSome ∧ r.root.isSome
    · rw [if_pos hfull]
      by_cases hr : rootColor r = .black
      · rw [if_pos hr]
        exact h.adjust_lower hblack hequal (red_of_not_black fun hl =>
          hcolors ⟨hl, hr⟩) hr
      · rw [if_neg hr]
        refine ⟨tree, ⟨p, q, t2⟩, path, _, rfl,
          { toRemoving := h, len := rfl, top := rfl, size_le := le_rfl,
            root_full := fun _ => ⟨q, d, l, r, rfl,
              Option.isSome_iff_ne_none.mp hfull.1,
              Option.isSome_iff_ne_none.mp hfull.2⟩,
            ready := .inr ⟨q, d, l, r, rfl, hequal,
              Option.isSome_iff_ne_none.mp hfull.1, red_of_not_black hr⟩ }⟩
    · rw [if_neg hfull]
      by_cases hl : l.root.isSome
      · rw [if_pos hl]
        have hr : rootColor r = .black := by
          cases r with
          | nil => rfl
          | node => exact absurd ⟨hl, rfl⟩ hfull
        exact h.adjust_lower hblack hequal (red_of_not_black fun hl =>
          hcolors ⟨hl, hr⟩) hr
      · rw [if_neg hl]
        have hl' : rootColor l = .black := by
          cases l with
          | nil => rfl
          | node => exact absurd rfl hl
        exact Removing.adjust_lower
          (show Removing lt del e es tree path (.join .right q d r l)
            ⟨p, q, t2⟩ from h) hblack hequal (red_of_not_black fun hr =>
              hcolors ⟨hl', hr⟩) hl'
  · exact h.adjust_down hlt hblack (Bool.not_eq_true _ ▸ hequal) hno hcolors

/-! ## One turn of the loop -/

/-- A path to the left passes no entry. -/
theorem entriesBefore_of_left (h : ∀ f ∈ path, Frame.side f = .left) :
    entriesBefore path = [] := by
  induction path with
  | nil => rfl
  | cons f path ih =>
      obtain ⟨s, p, a, A⟩ := f
      obtain rfl : s = .left := h _ List.mem_cons_self
      rw [entriesBefore_cons, ih fun g hg => h g (List.mem_cons_of_mem _ hg)]
      rfl

/-- The full node with the key has changed its place with the next one. -/
theorem Adjusted.swap {size : ℕ} {tree₀ : RedBlackTree K V}
    (h : Adjusted lt del e es tree₀ size tree path (.join .left q a l r) cursor)
    (hequal : equal lt a.2.1 del = true) (hl : l.root ≠ none)
    (hr : r.root ≠ none) :
    ∃ tree' cursor' path' t', tree.swapWithNext q = some (tree', cursor') ∧
      tree'.len = tree.len ∧ Removing lt del e es tree' path' t' cursor' ∧
      t'.size < size ∧ path' ≠ [] ∧
      ∀ f rest, path' = f :: rest → f.a.1 = .red ∨ rootColor t' = .red := by
  obtain ⟨tree', rest, x, b, R', y, rfl, hy, hswap, hlen, -, hleft, hholds⟩ :=
    h.holds.swapWithNext hl hr
  obtain ⟨rfl, hes, hbefore, hafter⟩ := h.locates.here hequal
  have hentries : entries (plug rest (.join .left x b .nil R')) =
      b.2 :: (entries R' ++ entriesAfter rest) := by
    rw [entries_plug, entries_join, entriesBefore_of_left hleft]
    rfl
  have hentries' : entries (plug rest (.join .left q (b.1, a.2) .nil R')) =
      a.2 :: (entries R' ++ entriesAfter rest) := by
    rw [entries_plug, entries_join, entriesBefore_of_left hleft]
    rfl
  have hsame : ∀ c n, Balanced (plug rest (.join .left x b .nil R')) c n →
      Balanced (plug rest (.join .left q (b.1, a.2) .nil R')) c n :=
    fun c n hbalanced => hbalanced.plug_congr fun c n hjoin =>
      hjoin.join_congr (fun _ _ h => h) (fun _ _ h => h) q a.2
  refine ⟨tree', ⟨x, y, l.root⟩, ⟨.right, x, (a.1, b.2), l⟩ :: path, _, hswap,
    hlen, ⟨hholds.other_child, ?_, ⟨h.locates.equal, [], entries R' ++
      entriesAfter rest, hentries', ?_, nofun, ?_⟩, hy, ?_⟩, ?_, nofun, ?_⟩
  · obtain ⟨c, n, hbalanced, hpath⟩ := h.balanced
    have hplug := exists_balanced_plug.mpr ⟨c, n, hbalanced.join_congr
      (fun _ _ h => h) hsame x b.2, hpath⟩
    exact exists_balanced_plug.mp hplug
  · rw [hes, hentries, entriesBefore_cons, entriesAfter_cons]
    simp
  · intro c hc
    apply hafter
    rw [hentries]
    exact List.mem_cons_of_mem _ hc
  · rintro g rest' heq
    obtain ⟨rfl, -⟩ := List.cons.inj heq
    exact ⟨rfl, rfl⟩
  · have hsize := h.size_le
    rw [NodeTree.size_join, ← length_entries (t := plug rest _), hentries]
      at hsize
    rw [← length_entries, hentries']
    simp only [List.length_cons] at hsize ⊢
    omega
  · rintro g rest' heq
    obtain ⟨rfl, -⟩ := List.cons.inj heq
    rcases h.ready with hred | ⟨q', a', l', r', heq, -, -, hred⟩
    · rw [rootColor_join] at hred
      exact .inl hred
    · right
      obtain ⟨-, -, -, rfl⟩ := NodeTree.node.inj heq
      obtain ⟨c, n, hbalanced, -⟩ := h.balanced
      obtain ⟨c', n', hR⟩ : ∃ c' n', Balanced
          (plug rest (.join .left x b .nil R')) c' n' := by
        obtain ⟨_ | _, ae⟩ := a
        · exact ⟨_, _, (balanced_join_red.mp hbalanced).2.2⟩
        · obtain ⟨-, _, _, _, -, -, hR⟩ := balanced_join_black.mp hbalanced
          exact ⟨_, _, hR⟩
      rw [(hsame _ _ hR).rootColor_eq, ← hR.rootColor_eq, hred]

/-- What `remove` leaves behind. -/
structure Removed (es : List (K × V)) (tree : RedBlackTree K V)
    (t : RBTree K V) : Prop where
  holds : Holds tree t
  balanced : ∃ n, Balanced t .black n
  ends : EndsAt tree t
  entries_eq : entries t = es

/-- The node with the key, which is not full, is a leaf below another node. -/
theorem Adjusted.leaf {size : ℕ} {tree₀ : RedBlackTree K V}
    (h : Adjusted lt del e es tree₀ size tree path (.join .left q a l r) cursor)
    (hfull : ¬ (l.root.isSome ∧ r.root.isSome)) :
    l = .nil ∧ r = .nil ∧ Fits .red path .red 0 ∧
      ∃ f rest, path = f :: rest := by
  have hred : rootColor (.join .left q a l r) = .red := by
    rcases h.ready with hred | ⟨q', a', l', r', heq, -, hl, hr⟩
    · exact hred
    · obtain ⟨-, -, rfl, rfl⟩ := NodeTree.node.inj heq
      refine absurd ⟨Option.isSome_iff_ne_none.mpr hl, ?_⟩ hfull
      cases r with
      | nil => cases hr
      | node => rfl
  obtain ⟨c, n, hbalanced, hpath⟩ := h.balanced
  obtain ⟨_, ae⟩ := a
  rw [rootColor_join] at hred
  subst hred
  obtain ⟨rfl, hl, hr⟩ := balanced_join_red.mp hbalanced
  have hzero : n = 0 := by
    cases n with
    | zero => rfl
    | succ n =>
        obtain ⟨_, _, _, _, rfl⟩ := hl.exists_join .left
        obtain ⟨_, _, _, _, rfl⟩ := hr.exists_join .left
        exact absurd ⟨rfl, rfl⟩ hfull
  subst hzero
  refine ⟨hl.eq_nil, hr.eq_nil, hpath, ?_⟩
  cases path with
  | nil =>
      obtain ⟨q', a', l', r', heq, hl', -⟩ := h.root_full rfl
      obtain ⟨-, -, rfl, rfl⟩ := NodeTree.node.inj heq
      exact absurd (congrArg NodeTree.root hl.eq_nil) hl'
  | cons f rest => exact ⟨f, rest, rfl⟩

/-- The leaf with the key is taken out. -/
theorem Adjusted.unlink {size : ℕ} {tree₀ : RedBlackTree K V}
    (h : Adjusted lt del e es tree₀ size tree path (.join .left q a l r) cursor)
    (hequal : equal lt a.2.1 del = true)
    (hfull : ¬ (l.root.isSome ∧ r.root.isSome)) :
    ∃ tree' t', tree.unlinkNode cursor.p q = some tree' ∧
      tree'.len = tree.len - 1 ∧ Removed es tree' t' := by
  obtain ⟨rfl, rfl, hpath, f, rest, rfl⟩ := h.leaf hfull
  obtain ⟨-, hes, -⟩ := h.locates.here hequal
  obtain ⟨hparent, -⟩ := h.above_eq f rest rfl
  have hq := h.holds.reads
  obtain ⟨m₁, m₂, hm₁, hm₂, -, h₂⟩ := h.holds.unlink
  obtain ⟨c, n, hplug, -⟩ := exists_balanced_plug.mpr
    ⟨.black, 0, Balanced.nil, hpath.of_red .black⟩
  obtain ⟨root, hroot⟩ := exists_root_plug f rest
  obtain ⟨tree', hfinish, hlen, -, hholds, hends, hblack⟩ :=
    (h₂ (tree.len - 1)).finish (hroot .nil) hplug
  refine ⟨tree', _, ?_, hlen, hholds, hblack, hends, ?_⟩
  · change (tree.memory.get (tree.memory.child .right) q).bind _ = _
    rw [RBMemory.get_eq hq.live, show tree.memory.child .right q = none from
      hq.other, hparent]
    change (tree.memory.replaceChild f.p q none).bind _ = _
    rw [hm₁]
    change (m₁.deleteNode q).bind _ = _
    rw [hm₂]
    exact hfinish
  · rw [entries_paintRoot, entries_plug, hes]
    rfl

/-- The node below, where the key belongs. -/
theorem Adjusted.descend (hlt : StrictWeakOrder lt) {size : ℕ}
    {tree₀ : RedBlackTree K V}
    (h : Adjusted lt del e es tree₀ size tree path (.join .left q a l r) cursor)
    (hequal : equal lt a.2.1 del = false) :
    ∃ cursor' path' t', RedBlackTree.cursorAt tree.memory q
        (tree.memory.child (sideOf lt del a.2.1) q) = some cursor' ∧
      Removing lt del e es tree path' t' cursor' ∧ t'.size < size ∧
      path' ≠ [] ∧
      ∀ f rest, path' = f :: rest → f.a.1 = .red ∨ rootColor t' = .red := by
  have hred : a.1 = .red := by
    rcases h.ready with hred | ⟨q', a', l', r', heq, hkey, -⟩
    · rwa [rootColor_join] at hred
    · obtain ⟨-, rfl, -, -⟩ := NodeTree.node.inj heq
      rw [hequal] at hkey
      cases hkey
  have hsize := h.size_le
  replace h := h.toRemoving
  obtain ⟨A, B, hjoin⟩ : ∃ A B, NodeTree.join .left q a l r =
      .join (sideOf lt del a.2.1) q a A B := by
    cases sideOf lt del a.2.1 with
    | left => exact ⟨l, r, rfl⟩
    | right => exact ⟨r, l, rfl⟩
  rw [hjoin] at h hsize
  have hmem := h.locates.mem_child hlt hequal
  obtain ⟨y, hy⟩ : ∃ y, A.root = some y := by
    cases A with
    | nil => cases hmem
    | node y => exact ⟨y, rfl⟩
  refine ⟨⟨q, y, B.root⟩, ⟨sideOf lt del a.2.1, q, a, B⟩ :: path, A, ?_,
    ⟨h.holds.child, ?_, h.locates.below [⟨sideOf lt del a.2.1, q, a, B⟩] rfl
      hmem, hy, ?_⟩, ?_, nofun, ?_⟩
  · rw [h.holds.reads.child, hy]
    exact h.holds.cursorAt hy
  · have hplug := exists_balanced_plug.mpr h.balanced
    exact exists_balanced_plug.mp hplug
  · rintro g rest heq
    obtain ⟨rfl, -⟩ := List.cons.inj heq
    exact ⟨rfl, rfl⟩
  · rw [NodeTree.size_join] at hsize
    omega
  · rintro g rest heq
    obtain ⟨rfl, -⟩ := List.cons.inj heq
    exact .inl hred

/-! ## The run -/

/-- The loop of `remove` leaves the other entries behind. -/
theorem Removing.run (hlt : StrictWeakOrder lt)
    (h : Removing lt del e es tree path t cursor)
    (hroot : path = [] → rootColor t = .black ∧ 1 < t.size)
    (hred : ∀ f rest, path = f :: rest → f.a.1 = .red ∨ rootColor t = .red)
    (hfuel : t.size ≤ fuel) :
    ∃ tree' t', removeFrom lt del fuel tree cursor = some tree' ∧
      tree'.len = tree.len - 1 ∧ Removed es tree' t' := by
  induction fuel generalizing tree path t cursor with
  | zero =>
      obtain ⟨a, l, r, rfl⟩ := NodeTree.exists_join .left h.focus
      rw [NodeTree.size_join] at hfuel
      omega
  | succ fuel ih =>
      obtain ⟨tree₁, ⟨p, q, t2⟩, path₁, t₁, hadjust, h₁⟩ :=
        h.adjust fuel hlt hroot hred
      obtain ⟨a, l, r, rfl⟩ := NodeTree.exists_join .left h₁.focus
      have hq := h₁.holds.reads
      change ∃ tree' t', (removeAdjust lt del (fuel + 2) tree cursor).bind _ = _
        ∧ _
      rw [hadjust]
      change ∃ tree' t', (tree₁.memory.get (tree₁.memory.child .left) q).bind _
        = _ ∧ _
      rw [RBMemory.get_eq hq.live, hq.child]
      change ∃ tree' t', (tree₁.memory.get (tree₁.memory.child .right) q).bind _
        = _ ∧ _
      rw [RBMemory.get_eq hq.live, show tree₁.memory.child .right q = r.root
        from hq.other]
      change ∃ tree' t', (tree₁.memory.getData q).bind _ = _ ∧ _
      rw [RBMemory.getData_eq hq.live hq.data]
      by_cases hequal : equal lt a.2.1 del = true
      · by_cases hfull : l.root.isSome ∧ r.root.isSome
        · obtain ⟨tree₂, cursor₂, path₂, t₂, hswap, hlen, h₂, hsize, hne,
            hred₂⟩ := h₁.swap hequal (Option.isSome_iff_ne_none.mp hfull.1)
              (Option.isSome_iff_ne_none.mp hfull.2)
          obtain ⟨tree', t', hrun, hlen', hremoved⟩ :=
            ih h₂ (fun heq => absurd heq hne) hred₂ (by omega)
          refine ⟨tree', t', ?_, by rw [hlen', hlen, h₁.len], hremoved⟩
          change (if equal lt a.2.1 del = true ∧ l.root.isSome ∧ r.root.isSome
            then (tree₁.swapWithNext q).bind _ else _) = _
          rw [if_pos ⟨hequal, hfull⟩, hswap]
          exact hrun
        · obtain ⟨tree', t', hunlink, hlen, hremoved⟩ :=
            h₁.unlink hequal hfull
          refine ⟨tree', t', ?_, by rw [hlen, h₁.len], hremoved⟩
          change (if equal lt a.2.1 del = true ∧ l.root.isSome ∧ r.root.isSome
            then _ else if equal lt a.2.1 del = true then
              tree₁.unlinkNode p q else _) = _
          rw [if_neg fun hall => hfull hall.2, if_pos hequal]
          exact hunlink
      · obtain ⟨cursor₂, path₂, t₂, hcursor, h₂, hsize, hne, hred₂⟩ :=
          h₁.descend hlt (Bool.not_eq_true _ ▸ hequal)
        obtain ⟨tree', t', hrun, hlen', hremoved⟩ :=
          ih h₂ (fun heq => absurd heq hne) hred₂ (by omega)
        refine ⟨tree', t', ?_, by rw [hlen', h₁.len], hremoved⟩
        change (if equal lt a.2.1 del = true ∧ l.root.isSome ∧ r.root.isSome
          then _ else if equal lt a.2.1 del = true then _ else
            (tree₁.memory.get (tree₁.memory.child (sideOf lt del a.2.1))
              q).bind _) = _
        rw [if_neg fun hall => hequal hall.1, if_neg hequal,
          RBMemory.get_eq hq.live]
        change (RedBlackTree.cursorAt tree₁.memory q
          (tree₁.memory.child (sideOf lt del a.2.1) q)).bind _ = _
        rw [hcursor]
        exact hrun

/-- A tree of one node becomes empty. -/
theorem Holds.remove_single (h : Holds tree (.join .left q a .nil .nil))
    (hequal : equal lt a.2.1 del = true) :
    ∃ tree', tree.remove lt del = some tree' ∧ tree'.len = tree.len - 1 ∧
      Removed ([] : List (K × V)) tree' .nil := by
  have hq := h.whole.reads
  let m : RBMemory K V := { tree.memory with
    live := Function.update tree.memory.live q false }
  refine ⟨{ memory := m, root := none, head := none, rear := none
            len := tree.len - 1 }, ?_, rfl, ?_⟩
  · rw [remove, h.root]
    change (tree.memory.get (tree.memory.child .left) q).bind _ = _
    rw [RBMemory.get_eq hq.live, hq.child]
    change (tree.memory.get (tree.memory.child .right) q).bind _ = _
    rw [RBMemory.get_eq hq.live, show tree.memory.child .right q = none from
      hq.other]
    change (tree.memory.getData q).bind _ = _
    rw [RBMemory.getData_eq hq.live hq.data]
    change (if equal lt a.2.1 del = true ∧ none = none ∧ none = none then
      (tree.memory.deleteNode q).bind _ else _) = _
    rw [if_pos ⟨hequal, rfl, rfl⟩, show tree.memory.deleteNode q = some m from
      RBMemory.put_eq hq.live m]
    rfl
  · refine ⟨⟨trivial, List.nodup_nil, ?_, rfl⟩, ⟨0, .nil⟩, ⟨rfl, rfl⟩, rfl⟩
    intro r hr
    apply h.bounded r
    change Function.update tree.memory.live q false r = true at hr
    by_cases heq : r = q
    · rw [heq]
      exact hq.live
    · rwa [Function.update_of_ne heq] at hr

/-- An entry is removed by its key. -/
theorem Holds.remove (hlt : StrictWeakOrder lt) {n : ℕ} (h : Holds tree t)
    (hbalanced : Balanced t .black n) (hasc : Ascending lt (entries t))
    {before after : List (K × V)} (heq : entries t = before ++ e :: after)
    (hequal : equal lt e.1 del = true) :
    ∃ tree' t', tree.remove lt del = some tree' ∧ tree'.len = tree.len - 1 ∧
      Removed (before ++ after) tree' t' := by
  cases hroot : t.root with
  | none =>
      obtain rfl := NodeTree.eq_nil_of_root hroot
      exact absurd heq (by simp)
  | some q =>
      obtain ⟨a, l, r, rfl⟩ := NodeTree.exists_join .left hroot
      have hordered := heq ▸ hasc
      obtain ⟨-, hafter, hbefore⟩ := List.pairwise_append.mp hordered
      have hlocates : Locates lt del e (before ++ after) []
          (.join .left q a l r) := by
        refine ⟨hequal, before, after, heq, ?_, ?_, ?_⟩
        · simp [entriesBefore, entriesAfter, cellsBefore, cellsAfter]
        · intro b hb
          exact hlt.lt_of_lt_of_equal (hbefore b hb e List.mem_cons_self) hequal
        · intro b hb
          apply hlt.lt_of_equal_of_lt (equal_comm e.1 del ▸ hequal)
          exact (List.pairwise_cons.mp hafter).1 b hb
      have hq := h.whole.reads
      by_cases hsingle : equal lt a.2.1 del = true ∧ l.root = none ∧
          r.root = none
      · obtain ⟨hkey, hl, hr⟩ := hsingle
        obtain rfl := NodeTree.eq_nil_of_root hl
        obtain rfl := NodeTree.eq_nil_of_root hr
        obtain ⟨-, hes, -⟩ := hlocates.here hkey
        rw [hes]
        obtain ⟨tree', hremove⟩ := h.remove_single hkey
        exact ⟨tree', .nil, hremove⟩
      · have hsize : 1 < (NodeTree.join .left q a l r).size := by
          by_contra hle
          cases l with
          | node => simp [NodeTree.join, NodeTree.size] at hle
          | nil =>
              cases r with
              | node => simp [NodeTree.join, NodeTree.size] at hle
              | nil =>
                  obtain rfl : e = a.2 := List.mem_singleton.mp hlocates.mem
                  exact hsingle ⟨hequal, rfl, rfl⟩
        have hremoving : Removing lt del e (before ++ after) tree []
            (.join .left q a l r) ⟨q, q, some q⟩ :=
          ⟨h.whole, ⟨.black, n, hbalanced, .root fun _ => rfl⟩, hlocates,
            hroot, fun f rest hcons =>
              absurd hcons (List.cons_ne_nil f rest).symm⟩
        obtain ⟨tree', t', hrun, hremoved⟩ := hremoving.run hlt
          (fun _ => ⟨hbalanced.rootColor_eq, hsize⟩)
          (fun f rest hcons => absurd hcons (List.cons_ne_nil f rest).symm)
          h.size_le
        refine ⟨tree', t', ?_, hremoved⟩
        rw [RedBlackTree.remove, h.root, hroot]
        change (tree.memory.get (tree.memory.child .left) q).bind _ = _
        rw [RBMemory.get_eq hq.live, hq.child]
        change (tree.memory.get (tree.memory.child .right) q).bind _ = _
        rw [RBMemory.get_eq hq.live, show tree.memory.child .right q = r.root
          from hq.other]
        change (tree.memory.getData q).bind _ = _
        rw [RBMemory.getData_eq hq.live hq.data]
        change (if equal lt a.2.1 del = true ∧ l.root = none ∧ r.root = none
          then _ else removeFrom lt del tree.memory.top tree ⟨q, q, some q⟩) = _
        rw [if_neg hsingle]
        exact hrun

end RedBlackTree

end TicketSystem.Backend
