import TicketSystem.Backend.RedBlackSteps

/-!
# Insertion into a red-black tree

The descent of `insert` leaves balanced trees behind: two red children give
their colour to the node above them, and a red node below a red one is repaired
by a rotation at once.  After a rotation the grandparent that the loop holds
may be stale; it is not used before it is the grandparent again.
-/

namespace TicketSystem.Backend

open TicketSystem.Support

variable {K V : Type}

namespace RedBlackTree

variable {tree : RedBlackTree K V} {s : Side} {e : K × V}
  {a b d : Color × K × V} {A B C D T t : RBTree K V} {p gp q x : ℕ}
  {path : List (Frame (Color × K × V))} {c : Color}

/-! ## `insert_adjust` -/

/-- There is nothing to do below a black node. -/
theorem insertAdjust_black (hlive : tree.memory.live p = true)
    (hcolor : tree.memory.color p = .black) (gp q : ℕ) :
    tree.insertAdjust gp p q = some tree := by
  rw [insertAdjust, RBMemory.get_eq hlive, hcolor]
  rfl

/-- A red root becomes black. -/
theorem insertAdjust_root (h : Holds tree (.join s p (.red, e) A B))
    (gp q : ℕ) :
    ∃ m, tree.insertAdjust gp p q = some { tree with memory := m } ∧
      m.top = tree.memory.top ∧
      Holds { tree with memory := m } (.join s p (.black, e) A B) := by
  have hp := h.whole.reads
  have hroot : some p = tree.root := by
    rw [h.root, NodeTree.root_join]
  obtain ⟨m, hm, htop, hholds⟩ :=
    h.whole.paint (NodeTree.root_join ..) .black
  refine ⟨m, ?_, htop, hholds.congr paintRoot_join⟩
  rw [insertAdjust, RBMemory.get_eq hp.live, hp.color]
  change (if some p = tree.root then (tree.memory.setColor p .black).bind _
    else _) = _
  rw [if_pos hroot, hm]
  rfl

/-- Two red nodes on the same side are repaired by a single rotation. -/
theorem insertAdjust_same (h : Holds tree (plug path
      (.join s gp b (.join s p (.red, e) T A) D)))
    (hq : T.root = some q) :
    ∃ tree', tree.insertAdjust gp p q = some tree' ∧ tree'.len = tree.len ∧
      tree'.memory.top = tree.memory.top ∧
      Holds tree' (plug path
        (.join s p (.black, e) T (.join s gp (.red, b.2) A D))) := by
  have hp := h.child.reads
  have hroot : some p ≠ tree.root := h.root_ne (NodeTree.root_join ..)
  obtain ⟨gpl, hgpl, hgpl'⟩ := h.get_child_left (NodeTree.root_join ..)
  obtain ⟨pl, hpl, hpl'⟩ := h.child.get_child_left hq
  obtain ⟨pr, hpr, hpr'⟩ := h.child.get_child_right hq
  obtain ⟨tree', hrotate, hlen, htop, hholds⟩ := h.rotate
  refine ⟨tree', ?_, hlen, htop, hholds⟩
  rw [insertAdjust, RBMemory.get_eq hp.live, hp.color]
  change (if some p = tree.root then _
    else (tree.memory.get (tree.memory.child .left) gp).bind _) = _
  rw [if_neg hroot, hgpl]
  cases s with
  | left =>
      change (if gpl = some p then
        (tree.memory.get (tree.memory.child .left) p).bind _ else _) = _
      rw [if_pos (hgpl'.mpr rfl), hpl]
      change (if pl = some q then tree.LL gp else _) = _
      rw [if_pos (hpl'.mpr rfl)]
      exact hrotate
  | right =>
      have hne : gpl ≠ some p := fun heq => by cases hgpl'.mp heq
      change (if gpl = some p then _
        else (tree.memory.get (tree.memory.child .right) p).bind _) = _
      rw [if_neg hne, hpr]
      change (if pr = some q then tree.RR gp else _) = _
      rw [if_pos (hpr'.mpr rfl)]
      exact hrotate

/-- Two red nodes on different sides are repaired by a double rotation. -/
theorem insertAdjust_other (h : Holds tree (plug path
      (.join s gp b (.join s p (.red, e) A (.join s q d B C)) D))) :
    ∃ tree', tree.insertAdjust gp p q = some tree' ∧ tree'.len = tree.len ∧
      tree'.memory.top = tree.memory.top ∧
      Holds tree' (plug path (.join s q (.black, d.2)
        (.join s p (.red, e) A B) (.join s gp (.red, b.2) C D))) := by
  have hbelow : Holds tree (plug (⟨s, gp, b, D⟩ :: path)
    (.join s.other p (.red, e) (.join s q d B C) A)) := by
    rw [NodeTree.join_other]
    exact h
  have hp := hbelow.reads
  have hroot : some p ≠ tree.root := h.root_ne (NodeTree.root_join ..)
  obtain ⟨gpl, hgpl, hgpl'⟩ := h.get_child_left (NodeTree.root_join ..)
  obtain ⟨pl, hpl, hpl'⟩ := hbelow.get_child_left (NodeTree.root_join ..)
  obtain ⟨pr, hpr, hpr'⟩ := hbelow.get_child_right (NodeTree.root_join ..)
  obtain ⟨tree', hrotate, hlen, htop, hholds⟩ := h.rotateTwice
  refine ⟨tree', ?_, hlen, htop, hholds⟩
  rw [insertAdjust, RBMemory.get_eq hp.live, hp.color]
  change (if some p = tree.root then _
    else (tree.memory.get (tree.memory.child .left) gp).bind _) = _
  rw [if_neg hroot, hgpl]
  cases s with
  | left =>
      have hne : pl ≠ some q := fun heq => by cases hpl'.mp heq
      change (if gpl = some p then
        (tree.memory.get (tree.memory.child .left) p).bind _ else _) = _
      rw [if_pos (hgpl'.mpr rfl), hpl]
      change (if pl = some q then _ else tree.LR gp) = _
      rw [if_neg hne]
      exact hrotate
  | right =>
      have hne : gpl ≠ some p := fun heq => by cases hgpl'.mp heq
      have hne' : pr ≠ some q := fun heq => by cases hpr'.mp heq
      change (if gpl = some p then _
        else (tree.memory.get (tree.memory.child .right) p).bind _) = _
      rw [if_neg hne, hpr]
      change (if pr = some q then _ else tree.RL gp) = _
      rw [if_neg hne']
      exact hrotate

/-! ## Two red children -/

/-- A node without two red children is left alone. -/
theorem splitRed_stay (h : Holds tree (plug path (.join s q a A B)))
    (hno : ¬ (rootColor A = .red ∧ rootColor B = .red)) (gp p : ℕ) :
    tree.splitRed gp p q = some tree := by
  obtain ⟨l, r, hjoin, hcolors⟩ : ∃ l r, NodeTree.join s q a A B =
      .join .left q a l r ∧
        ¬ (rootColor l = .red ∧ rootColor r = .red) := by
    cases s with
    | left => exact ⟨A, B, rfl, hno⟩
    | right => exact ⟨B, A, rfl, fun h => hno h.symm⟩
  rw [hjoin] at h
  have hq := h.reads
  have hl : tree.memory.isRed l.root =
      some (decide (rootColor l = .red)) :=
    h.child.isRed
  have hr : tree.memory.isRed r.root =
      some (decide (rootColor r = .red)) :=
    h.other_child.isRed
  change (tree.memory.get (tree.memory.child .left) q).bind _ = _
  rw [RBMemory.get_eq hq.live, hq.child]
  change (tree.memory.get (tree.memory.child .right) q).bind _ = _
  rw [RBMemory.get_eq hq.live, show tree.memory.child .right q = r.root
    from hq.other]
  change (tree.memory.isRed l.root).bind _ = _
  rw [hl]
  change (tree.memory.isRed r.root).bind _ = _
  rw [hr]
  change (if (decide (rootColor l = .red) && decide (rootColor r = .red)) =
    true then _ else _) = _
  rw [if_neg]
  · rfl
  · rw [Bool.and_eq_true, decide_eq_true_iff, decide_eq_true_iff]
    exact hcolors

/-- Two red children become black and their node red. -/
theorem splitRed_split (h : Holds tree (plug path (.join s q a A B)))
    (hA : rootColor A = .red) (hB : rootColor B = .red) :
    ∃ m, m.top = tree.memory.top ∧
      Holds { tree with memory := m } (plug path
        (.join s q (.red, a.2) (paintRoot .black A) (paintRoot .black B))) ∧
      ∀ gp p, tree.splitRed gp p q =
        insertAdjust { tree with memory := m } gp p q := by
  obtain ⟨l, r, hjoin, hpainted, hl, hr⟩ : ∃ l r, NodeTree.join s q a A B =
      .join .left q a l r ∧
        NodeTree.join s q (.red, a.2) (paintRoot .black A)
          (paintRoot .black B) =
            .join .left q (.red, a.2) (paintRoot .black l)
              (paintRoot .black r) ∧
          rootColor l = .red ∧ rootColor r = .red := by
    cases s with
    | left => exact ⟨A, B, rfl, rfl, hA, hB⟩
    | right => exact ⟨B, A, rfl, rfl, hB, hA⟩
  rw [hjoin] at h
  have hq := h.reads
  have hl' : tree.memory.isRed l.root = some true := by
    have hred := h.child.isRed
    rwa [hl] at hred
  have hr' : tree.memory.isRed r.root = some true := by
    have hred := h.other_child.isRed
    rwa [hr] at hred
  obtain ⟨lp, hlp⟩ : ∃ lp, l.root = some lp := by
    cases l with
    | nil => cases hl
    | node lp => exact ⟨lp, rfl⟩
  obtain ⟨rp, hrp⟩ : ∃ rp, r.root = some rp := by
    cases r with
    | nil => cases hr
    | node rp => exact ⟨rp, rfl⟩
  obtain ⟨m₁, m₂, m₃, hm₁, hm₂, hm₃, htop, hholds⟩ :=
    h.paint_three hlp hrp .red .black
  refine ⟨m₃, htop, hpainted ▸ hholds, ?_⟩
  intro gp p
  change (tree.memory.get (tree.memory.child .left) q).bind _ = _
  rw [RBMemory.get_eq hq.live, hq.child]
  change (tree.memory.get (tree.memory.child .right) q).bind _ = _
  rw [RBMemory.get_eq hq.live, show tree.memory.child .right q = r.root
    from hq.other]
  change (tree.memory.isRed l.root).bind _ = _
  rw [hl']
  change (tree.memory.isRed r.root).bind _ = _
  rw [hr', hlp, hrp]
  change (tree.memory.setColor rp .black).bind _ = _
  rw [hm₁]
  change (m₁.setColor lp .black).bind _ = _
  rw [hm₂]
  change (m₂.setColor q .red).bind _ = _
  rw [hm₃]
  rfl

/-! ## The descent -/

/-- A black node without red children. -/
def Quiet (t : RBTree K V) : Prop :=
  ∃ p e A B, t = .node p (.black, e) A B ∧ rootColor A = .black ∧
    rootColor B = .black

/-- The child of the root where the key belongs. -/
def next (lt : K → K → Bool) (y : K) : RBTree K V → RBTree K V
  | .nil => .nil
  | .node _ a l r =>
      match sideOf lt y a.2.1 with
      | .left => l
      | .right => r

variable {lt : K → K → Bool} {y : K × V} {es : List (K × V)}
  {parent grandP fuel : ℕ}

theorem next_join {y : K} (hs : sideOf lt y a.2.1 = s) :
    next lt y (.join s p a A B) = A := by
  cases s <;> simp [NodeTree.join, next, hs]

/-- What holds when `insert` stands at the subtree `t`.  A red node below a red
one could not be repaired if its uncle were red too; below such a node the
descent meets no two red children. -/
structure Inserting (lt : K → K → Bool) (y : K × V) (es : List (K × V))
    (tree : RedBlackTree K V) (path : List (Frame (Color × K × V)))
    (t : RBTree K V) (parent grandP fuel : ℕ) : Prop where
  holds : Holds tree (plug path t)
  balanced : ∃ c n, Balanced t c n ∧ Fits .black path c n
  entries_eq : entries (plug path t) = es
  between : Between lt y.1 path
  root_eq : path = [] → t.root = some parent
  parent_eq : ∀ f rest, path = f :: rest → parent = f.p
  grandP_eq : ∀ f g rest, path = f :: g :: rest → f.a.1 = .red → grandP = g.p
  uncle : ∀ f g rest, path = f :: g :: rest → f.a.1 = .red →
    rootColor g.sibling = .red → Quiet t
  sibling : ∀ f rest, path = f :: rest → rootColor t = .red →
    rootColor f.sibling = .red → Quiet (next lt y.1 t)
  enough : t.size ≤ fuel ∨ rootColor t = .red ∧
    (next lt y.1 t).size + 1 ≤ fuel

/-- The loop goes on to the child where the key belongs. -/
theorem Inserting.descend (hlt : StrictWeakOrder lt) (hasc : Ascending lt es)
    (habsent : ∀ b ∈ es, equal lt b.1 y.1 = false)
    (hs : sideOf lt y.1 a.2.1 = s)
    (holds : Holds tree (plug path (.join s q a A B)))
    (hbalanced : ∃ c n, Balanced (.join s q a A B) c n ∧ Fits .black path c n)
    (hentries : entries (plug path (.join s q a A B)) = es)
    (hbetween : Between lt y.1 path)
    (hgrandP : ∀ g rest, path = g :: rest → a.1 = .red → grandP = g.p)
    (huncle : ∀ g rest, path = g :: rest → a.1 = .red →
      rootColor g.sibling = .red → Quiet A)
    (hsibling : rootColor A = .red → rootColor B = .red →
      Quiet (next lt y.1 A))
    (henough : A.size ≤ fuel ∨ rootColor A = .red ∧
      (next lt y.1 A).size + 1 ≤ fuel) :
    Inserting lt y es tree (⟨s, q, a, B⟩ :: path) A q grandP fuel where
  holds := holds
  balanced := by
    have hplug := exists_balanced_plug.mpr hbalanced
    exact exists_balanced_plug.mp hplug
  entries_eq := hentries
  between := by
    have hmem : a.2 ∈ es := by
      rw [← hentries, entries_plug, entries_join]
      cases s <;> simp
    subst hs
    exact hbetween.cons hlt (hentries.symm ▸ hasc) (habsent _ hmem)
  root_eq := nofun
  parent_eq := by
    rintro f rest heq
    obtain ⟨rfl, -⟩ := List.cons.inj heq
    rfl
  grandP_eq := by
    rintro f g rest heq hred
    obtain ⟨rfl, hpath⟩ := List.cons.inj heq
    exact hgrandP g rest hpath hred
  uncle := by
    rintro f g rest heq hred
    obtain ⟨rfl, hpath⟩ := List.cons.inj heq
    exact huncle g rest hpath hred
  sibling := by
    rintro f rest heq hA hB
    obtain ⟨rfl, -⟩ := List.cons.inj heq
    exact hsibling hA hB
  enough := henough

/-- A red tree becomes quiet when its root becomes black. -/
theorem quiet_blacken {n : ℕ} (h : Balanced A .red n) :
    Quiet (paintRoot .black A) ∧ Balanced (paintRoot .black A) .black (n + 1) := by
  obtain ⟨p, e, l, r, rfl, hl, hr⟩ := h.exists_red .left
  exact ⟨⟨p, e, l, r, rfl, hl.rootColor_eq, hr.rootColor_eq⟩,
    .join_black (s := .left) hl hr⟩

theorem Quiet.rootColor_eq (h : Quiet t) : rootColor t = .black := by
  obtain ⟨p, e, A, B, rfl, -⟩ := h
  rfl

/-- The colours of a node and its children do not matter to the entries. -/
theorem entries_painted (c c' c'' : Color) :
    entries (plug path (.join s q (c, a.2) (paintRoot c' A)
        (paintRoot c'' B))) =
      entries (plug path (.join s q a A B)) := by
  apply entries_plug_congr path
  rw [entries_join, entries_join, entries_paintRoot, entries_paintRoot]

/-- A quiet node has no red child. -/
theorem Quiet.rootColor_child (h : Quiet (.join s q a A B)) :
    rootColor A = .black := by
  obtain ⟨_, _, l, r, heq, hl, hr⟩ := h
  cases s with
  | left =>
      obtain ⟨-, -, rfl, -⟩ := NodeTree.node.inj heq
      exact hl
  | right =>
      obtain ⟨-, -, -, rfl⟩ := NodeTree.node.inj heq
      exact hr

/-- A single rotation keeps the entries on both sides of a path. -/
theorem between_rotate {y : K} (h : Between lt y
    (⟨s, p, a, A⟩ :: ⟨s, gp, b, D⟩ :: path)) (c c' : Color) :
    Between lt y
      (⟨s, p, (c, a.2), .join s gp (c', b.2) A D⟩ :: path) := by
  apply h.congr
  · cases s <;> simp [entriesBefore_cons, entries_join]
  · cases s <;> simp [entriesAfter_cons, entries_join]

/-- Below a node without two red siblings, the whole subtree is still to be
seen. -/
theorem Inserting.size_le (h : Inserting lt y es tree path (.join s q a A B)
    parent grandP (fuel + 1)) (hblack : a.1 = .black) :
    A.size + B.size ≤ fuel := by
  rcases h.enough with hsize | ⟨hred, -⟩
  · rw [NodeTree.size_join] at hsize
    omega
  · rw [rootColor_join, hblack] at hred
    cases hred

section Step

variable (hlt : StrictWeakOrder lt) (hasc : Ascending lt es)
  (habsent : ∀ b ∈ es, equal lt b.1 y.1 = false)
include hlt hasc habsent

/-- A node without two red children. -/
theorem Inserting.stay (hs : sideOf lt y.1 a.2.1 = s)
    (h : Inserting lt y es tree path (.join s q a A B) parent grandP
      (fuel + 1)) (hno : ¬ (rootColor A = .red ∧ rootColor B = .red)) :
    Inserting lt y es tree (⟨s, q, a, B⟩ :: path) A q parent fuel := by
  have hnext : next lt y.1 (.join s q a A B) = A := next_join hs
  apply Inserting.descend hlt hasc habsent hs h.holds h.balanced h.entries_eq
    h.between
  · intro g rest heq _
    exact h.parent_eq g rest heq
  · intro g rest heq hred hsibling
    rw [← hnext]
    exact h.sibling g rest heq (by rw [rootColor_join, hred]) hsibling
  · exact fun hA hB => absurd ⟨hA, hB⟩ hno
  · left
    rcases h.enough with hsize | ⟨-, hsize⟩
    · rw [NodeTree.size_join] at hsize
      omega
    · rw [hnext] at hsize
      omega

/-- A node with two red children at the root. -/
theorem Inserting.split_root (hs : sideOf lt y.1 a.2.1 = s)
    (h : Inserting lt y es tree [] (.join s q a A B) parent grandP (fuel + 1))
    (hA : rootColor A = .red) (hB : rootColor B = .red) :
    ∃ tree', tree.splitRed grandP parent q = some tree' ∧
      tree'.len = tree.len ∧ tree'.memory.top = tree.memory.top ∧
      Inserting lt y es tree' [⟨s, q, (.black, a.2), paintRoot .black B⟩]
        (paintRoot .black A) q parent fuel := by
  obtain ⟨m, htop, hholds, hsplit⟩ := splitRed_split h.holds hA hB
  obtain ⟨c, n, ht, -⟩ := h.balanced
  have hparent : parent = q := by
    have hroot := h.root_eq rfl
    rw [NodeTree.root_join] at hroot
    exact (Option.some.inj hroot).symm
  subst hparent
  obtain ⟨m', hm', htop', hholds'⟩ := insertAdjust_root hholds grandP parent
  refine ⟨{ tree with memory := m' }, (hsplit _ _).trans hm', rfl,
    htop'.trans htop, ?_⟩
  obtain ⟨n', hblack, -, -, hA', hB'⟩ := ht.of_red_children hA hB
  obtain ⟨hquiet, hA₁⟩ := quiet_blacken hA'
  obtain ⟨-, hB₁⟩ := quiet_blacken hB'
  apply Inserting.descend (a := (Color.black, a.2)) hlt hasc habsent hs hholds'
  · exact ⟨.black, n' + 1 + 1, .join_black hA₁ hB₁, .root nofun⟩
  · exact (entries_painted _ _ _).trans h.entries_eq
  · exact .nil
  · exact nofun
  · exact nofun
  · intro hred
    rw [hquiet.rootColor_eq] at hred
    cases hred
  · left
    rw [size_paintRoot]
    have hsize := h.size_le hblack
    omega

/-- A node with two red children below a black one. -/
theorem Inserting.split_black {f : Frame (Color × K × V)}
    (hs : sideOf lt y.1 a.2.1 = s)
    (h : Inserting lt y es tree (f :: path) (.join s q a A B) parent grandP
      (fuel + 1)) (hf : f.a.1 = .black)
    (hA : rootColor A = .red) (hB : rootColor B = .red) :
    ∃ tree', tree.splitRed grandP parent q = some tree' ∧
      tree'.len = tree.len ∧ tree'.memory.top = tree.memory.top ∧
      Inserting lt y es tree'
        (⟨s, q, (.red, a.2), paintRoot .black B⟩ :: f :: path)
        (paintRoot .black A) q parent fuel := by
  obtain ⟨m, htop, hholds, hsplit⟩ := splitRed_split h.holds hA hB
  obtain ⟨c, n, ht, hpath⟩ := h.balanced
  obtain rfl := h.parent_eq f path rfl
  have hparent := hholds.reads_cons
  refine ⟨{ tree with memory := m }, ?_, rfl, htop, ?_⟩
  · rw [hsplit]
    exact insertAdjust_black hparent.live (hparent.color.trans hf) _ _
  obtain ⟨n', hblack, rfl, rfl, hA', hB'⟩ := ht.of_red_children hA hB
  obtain ⟨hquiet, hA₁⟩ := quiet_blacken hA'
  obtain ⟨-, hB₁⟩ := quiet_blacken hB'
  apply Inserting.descend (a := (Color.red, a.2)) hlt hasc habsent hs hholds
  · refine ⟨.red, n' + 1, .join_red hA₁ hB₁, ?_⟩
    obtain ⟨side, p, ⟨_, e⟩, D⟩ := f
    subst hf
    obtain ⟨hD, hrest⟩ := fits_black.mp hpath
    exact fits_black.mpr ⟨hD, hrest⟩
  · exact (entries_painted _ _ _).trans h.entries_eq
  · exact h.between
  · rintro g rest heq -
    obtain ⟨rfl, -⟩ := List.cons.inj heq
    rfl
  · exact fun _ _ _ _ _ => hquiet
  · intro hred
    rw [hquiet.rootColor_eq] at hred
    cases hred
  · left
    rw [size_paintRoot]
    have hsize := h.size_le hblack
    omega

/-- A node with two red children below a red one, on the side of the red one. -/
theorem Inserting.split_same {s₁ : Side} {fe ge : K × V}
    (hs : sideOf lt y.1 a.2.1 = s)
    (h : Inserting lt y es tree
      (⟨s₁, p, (.red, fe), C⟩ :: ⟨s₁, gp, (.black, ge), D⟩ :: path)
      (.join s q a A B) parent grandP (fuel + 1))
    (hA : rootColor A = .red) (hB : rootColor B = .red) :
    ∃ tree', tree.splitRed grandP parent q = some tree' ∧
      tree'.len = tree.len ∧ tree'.memory.top = tree.memory.top ∧
      Inserting lt y es tree'
        (⟨s, q, (.red, a.2), paintRoot .black B⟩ ::
          ⟨s₁, p, (.black, fe), .join s₁ gp (.red, ge) C D⟩ :: path)
        (paintRoot .black A) q parent fuel := by
  obtain ⟨m, htop, hholds, hsplit⟩ := splitRed_split h.holds hA hB
  obtain ⟨c, n, ht, hpath⟩ := h.balanced
  obtain rfl : parent = p := h.parent_eq _ _ rfl
  obtain rfl : grandP = gp := h.grandP_eq _ _ _ rfl rfl
  obtain ⟨tree', hadjust, hlen, htop', hholds'⟩ :=
    insertAdjust_same hholds (NodeTree.root_join ..)
  refine ⟨tree', (hsplit _ _).trans hadjust, hlen, htop'.trans htop, ?_⟩
  obtain ⟨n', hblack, rfl, rfl, hA', hB'⟩ := ht.of_red_children hA hB
  obtain ⟨hquiet, hA₁⟩ := quiet_blacken hA'
  obtain ⟨-, hB₁⟩ := quiet_blacken hB'
  obtain ⟨-, hC, hrest⟩ := fits_red.mp hpath
  obtain ⟨⟨c', hD⟩, hrest⟩ := fits_black.mp hrest
  -- a red uncle would mean that this node is quiet
  have hD' : Balanced D .black (n' + 1) := by
    cases c' with
    | black => exact hD
    | red =>
        have hquiet := h.uncle _ _ _ rfl rfl hD.rootColor_eq
        rw [hquiet.rootColor_child] at hA
        cases hA
  apply Inserting.descend (a := (Color.red, a.2)) hlt hasc habsent hs
    (hholds'.child)
  · refine ⟨.red, n' + 1, .join_red hA₁ hB₁, ?_⟩
    exact fits_black.mpr ⟨⟨.red, .join_red hC hD'⟩, hrest⟩
  · rw [entries_painted (a := a)]
    have hmoved : entries (plug path (.join s₁ parent (.black, fe)
          (.join s q a A B) (.join s₁ grandP (.red, ge) C D))) =
        entries (plug path (.join s₁ grandP (.black, ge)
          (.join s₁ parent (.red, fe) (.join s q a A B) C) D)) :=
      entries_plug_congr path entries_rotate
    exact hmoved.trans h.entries_eq
  · exact between_rotate h.between _ _
  · rintro g rest heq -
    obtain ⟨rfl, -⟩ := List.cons.inj heq
    rfl
  · exact fun _ _ _ _ _ => hquiet
  · intro hred
    rw [hquiet.rootColor_eq] at hred
    cases hred
  · left
    rw [size_paintRoot]
    have hsize := h.size_le hblack
    omega

omit hlt hasc habsent in
/-- A double rotation brings a node with two red children above the red node
and the grandparent. -/
theorem Inserting.split_rotateTwice {fe ge : K × V}
    (h : Inserting lt y es tree
      (⟨s.other, p, (.red, fe), C⟩ :: ⟨s, gp, (.black, ge), D⟩ :: path)
      (.join s q a A B) parent grandP (fuel + 1))
    (hA : rootColor A = .red) (hB : rootColor B = .red) :
    (∃ tree', tree.splitRed grandP parent q = some tree' ∧
      tree'.len = tree.len ∧ tree'.memory.top = tree.memory.top ∧
      Holds tree' (plug path (.join s q (.black, a.2)
        (.join s p (.red, fe) C (paintRoot .black A))
          (.join s gp (.red, ge) (paintRoot .black B) D)))) ∧
    (∃ n, Balanced (paintRoot .black A) .black (n + 1) ∧
      Balanced (paintRoot .black B) .black (n + 1) ∧
      Balanced C .black (n + 1) ∧ Balanced D .black (n + 1) ∧
      Fits .black path .black (n + 1 + 1)) ∧
    entries (plug path (.join s q (.black, a.2)
        (.join s p (.red, fe) C (paintRoot .black A))
          (.join s gp (.red, ge) (paintRoot .black B) D))) = es ∧
    Quiet (paintRoot .black A) ∧ Quiet (paintRoot .black B) ∧
    0 < A.size ∧ 0 < B.size ∧ A.size + B.size ≤ fuel := by
  obtain ⟨m, htop, hholds, hsplit⟩ := splitRed_split h.holds hA hB
  obtain ⟨c, n, ht, hpath⟩ := h.balanced
  obtain rfl : parent = p := h.parent_eq _ _ rfl
  obtain rfl : grandP = gp := h.grandP_eq _ _ _ rfl rfl
  have hholds : Holds { tree with memory := m } (plug path
      (.join s grandP (.black, ge) (.join s parent (.red, fe) C
        (.join s q (.red, a.2) (paintRoot .black A) (paintRoot .black B)))
          D)) := by
    rw [← NodeTree.join_other s parent]
    exact hholds
  obtain ⟨tree', hadjust, hlen, htop', hholds'⟩ := insertAdjust_other hholds
  obtain ⟨n', hblack, rfl, rfl, hA', hB'⟩ := ht.of_red_children hA hB
  obtain ⟨hquietA, hA₁⟩ := quiet_blacken hA'
  obtain ⟨hquietB, hB₁⟩ := quiet_blacken hB'
  obtain ⟨-, hC, hrest⟩ := fits_red.mp hpath
  obtain ⟨⟨c', hD⟩, hrest⟩ := fits_black.mp hrest
  -- a red uncle would mean that this node is quiet
  have hD' : Balanced D .black (n' + 1) := by
    cases c' with
    | black => exact hD
    | red =>
        have hquiet := h.uncle _ _ _ rfl rfl hD.rootColor_eq
        rw [hquiet.rootColor_child] at hA
        cases hA
  have hentries : entries (plug path (.join s q (.black, a.2)
        (.join s parent (.red, fe) C (paintRoot .black A))
          (.join s grandP (.red, ge) (paintRoot .black B) D))) =
      entries (plug path (.join s grandP (.black, ge)
        (.join s parent (.red, fe) C (.join s q (.black, a.2)
          (paintRoot .black A) (paintRoot .black B))) D)) :=
    entries_plug_congr path entries_rotateTwice
  let above := ⟨s.other, parent, (.red, fe), C⟩ ::
    ⟨s, grandP, (.black, ge), D⟩ :: path
  have hpainted : entries (plug above (.join s q (.black, a.2)
      (paintRoot .black A) (paintRoot .black B))) =
        entries (plug above (.join s q a A B)) :=
    entries_painted .black .black .black
  refine ⟨⟨tree', (hsplit _ _).trans hadjust, hlen, htop'.trans htop,
    hholds'⟩, ⟨n', hA₁, hB₁, hC, hD', hrest⟩, ?_, hquietA, hquietB,
    size_pos_of_red hA, size_pos_of_red hB, h.size_le hblack⟩
  rw [hentries, ← NodeTree.join_other s parent]
  exact hpainted.trans h.entries_eq

/-- The descent turns to the red node. -/
theorem Inserting.split_inner {fe ge : K × V}
    (hs : sideOf lt y.1 a.2.1 = s)
    (h : Inserting lt y es tree
      (⟨s.other, p, (.red, fe), C⟩ :: ⟨s, gp, (.black, ge), D⟩ :: path)
      (.join s q a A B) parent grandP (fuel + 1))
    (hA : rootColor A = .red) (hB : rootColor B = .red) :
    ∃ tree', tree.splitRed grandP parent q = some tree' ∧
      tree'.len = tree.len ∧ tree'.memory.top = tree.memory.top ∧
      Inserting lt y es tree'
        (⟨s, q, (.black, a.2),
          .join s gp (.red, ge) (paintRoot .black B) D⟩ :: path)
        (.join s p (.red, fe) C (paintRoot .black A)) q parent fuel := by
  obtain ⟨⟨tree', hsplit, hlen, htop, hholds⟩, ⟨n, hA₁, hB₁, hC, hD, hpath⟩,
    hentries, hquiet, -, -, hpos, hsize⟩ := h.split_rotateTwice hA hB
  refine ⟨tree', hsplit, hlen, htop, ?_⟩
  have hside : sideOf lt y.1 fe.1 = s.other := h.between.sideOf_eq hlt
  have hnext : next lt y.1 (.join s p (.red, fe) C (paintRoot .black A)) =
      paintRoot .black A := by
    rw [← NodeTree.join_other]
    exact next_join hside
  apply Inserting.descend (a := (Color.black, a.2)) hlt hasc habsent hs hholds
  · exact ⟨.black, n + 1 + 1, .join_black (.join_red hC hA₁)
      (.join_red hB₁ hD), hpath⟩
  · exact hentries
  · exact h.between.tail.tail
  · exact nofun
  · exact nofun
  · intro _ _
    rw [hnext]
    exact hquiet
  · right
    rw [rootColor_join, hnext, size_paintRoot]
    exact ⟨rfl, by omega⟩

/-- The descent turns to the grandparent. -/
theorem Inserting.split_outer {fe ge : K × V}
    (hs : sideOf lt y.1 a.2.1 = s.other)
    (h : Inserting lt y es tree
      (⟨s.other, p, (.red, fe), C⟩ :: ⟨s, gp, (.black, ge), D⟩ :: path)
      (.join s.other q a A B) parent grandP (fuel + 1))
    (hA : rootColor A = .red) (hB : rootColor B = .red) :
    ∃ tree', tree.splitRed grandP parent q = some tree' ∧
      tree'.len = tree.len ∧ tree'.memory.top = tree.memory.top ∧
      Inserting lt y es tree'
        (⟨s.other, q, (.black, a.2),
          .join s p (.red, fe) C (paintRoot .black B)⟩ :: path)
        (.join s gp (.red, ge) (paintRoot .black A) D) q parent fuel := by
  have h' := h
  rw [NodeTree.join_other s q] at h'
  obtain ⟨⟨tree', hsplit, hlen, htop, hholds⟩, ⟨n, hB₁, hA₁, hC, hD, hpath⟩,
    hentries, -, hquiet, hpos, -, hsize⟩ := h'.split_rotateTwice hB hA
  refine ⟨tree', hsplit, hlen, htop, ?_⟩
  have hside : sideOf lt y.1 ge.1 = s := h.between.tail.sideOf_eq hlt
  have hnext : next lt y.1 (.join s gp (.red, ge) (paintRoot .black A) D) =
      paintRoot .black A := next_join hside
  rw [← NodeTree.join_other s q] at hholds hentries
  apply Inserting.descend (a := (Color.black, a.2)) hlt hasc habsent hs hholds
  · exact ⟨.black, n + 1 + 1, .join_black (.join_red hA₁ hD)
      (.join_red hC hB₁), hpath⟩
  · exact hentries
  · exact h.between.tail.tail
  · exact nofun
  · exact nofun
  · intro _ _
    rw [hnext]
    exact hquiet
  · right
    rw [rootColor_join, hnext, size_paintRoot]
    exact ⟨rfl, by omega⟩

/-- One iteration of the loop: two red children give their colour to their
node, and the loop goes on to the child where the key belongs. -/
theorem Inserting.step (hs : sideOf lt y.1 a.2.1 = s)
    (h : Inserting lt y es tree path (.join s q a A B) parent grandP
      (fuel + 1)) :
    ∃ tree' path' c A' B', tree.splitRed grandP parent q = some tree' ∧
      tree'.len = tree.len ∧ tree'.memory.top = tree.memory.top ∧
      Inserting lt y es tree' (⟨s, q, (c, a.2), B'⟩ :: path') A' q parent
        fuel := by
  by_cases hred : rootColor A = .red ∧ rootColor B = .red
  · obtain ⟨hA, hB⟩ := hred
    cases path with
    | nil =>
        obtain ⟨tree', hsplit, hlen, htop, h'⟩ :=
          h.split_root hlt hasc habsent hs hA hB
        exact ⟨tree', _, _, _, _, hsplit, hlen, htop, h'⟩
    | cons f path =>
        cases hf : f.a.1 with
        | black =>
            obtain ⟨tree', hsplit, hlen, htop, h'⟩ :=
              h.split_black hlt hasc habsent hs hf hA hB
            exact ⟨tree', _, _, _, _, hsplit, hlen, htop, h'⟩
        | red =>
            obtain ⟨s₁, p, ⟨_, fe⟩, C⟩ := f
            subst hf
            obtain ⟨c, n, -, hpath⟩ := h.balanced
            obtain ⟨-, -, hrest⟩ := fits_red.mp hpath
            obtain ⟨s₂, gp, ge, D, rest, -, rfl, -⟩ := hrest.exists_black
            rcases s₂.eq_or_eq_other s₁ with rfl | rfl
            · obtain ⟨tree', hsplit, hlen, htop, h'⟩ :=
                h.split_same hlt hasc habsent hs hA hB
              exact ⟨tree', _, _, _, _, hsplit, hlen, htop, h'⟩
            · rcases s₂.eq_or_eq_other s with rfl | rfl
              · obtain ⟨tree', hsplit, hlen, htop, h'⟩ :=
                  h.split_inner hlt hasc habsent hs hA hB
                exact ⟨tree', _, _, _, _, hsplit, hlen, htop, h'⟩
              · obtain ⟨tree', hsplit, hlen, htop, h'⟩ :=
                  h.split_outer hlt hasc habsent hs hA hB
                exact ⟨tree', _, _, _, _, hsplit, hlen, htop, h'⟩
  · exact ⟨tree, path, a.1, A, B, splitRed_stay h.holds hred _ _, rfl, rfl,
      h.stay hlt hasc habsent hs hred⟩

end Step

/-! ## The new node -/

theorem bounded_newNode {m : RBMemory K V}
    (h : ∀ p, m.live p = true → p < m.top) (y : K × V) (c : Color)
    (f : Option ℕ) (p : ℕ) (hp : (m.newNode y c f).2.live p = true) :
    p < m.top + 1 := by
  change Function.update m.live m.top true p = true at hp
  by_cases htop : p = m.top
  · rw [htop]
    exact Nat.lt_succ_self _
  · rw [Function.update_of_ne htop] at hp
    exact (h p hp).trans (Nat.lt_succ_self _)

/-- A new node takes the empty place at the end of the path. -/
theorem Holds.attach {f : Frame (Color × K × V)}
    (h : Holds tree (plug (f :: path) .nil)) (y : K × V) (len : ℤ) :
    let made := tree.memory.newNode y .red (some f.p)
    made.2.getData f.p = some f.a.2 ∧
    ∃ m, made.2.setChild f.side f.p (some made.1) = some m ∧
      m.top = tree.memory.top + 1 ∧
      Holds { tree with memory := m, len := len }
        (plug (f :: path) (.join .left made.1 (.red, y) .nil .nil)) := by
  let top := tree.memory.top
  let m' := (tree.memory.newNode y .red (some f.p)).2
  have hnodes : ∀ q ∈ pathNodes (f :: path), q < top := by
    intro q hq
    have hmem : q ∈ (plug (f :: path) (.nil : RBTree K V)).nodes :=
      (nodes_plug _ _).mem_iff.mpr (List.mem_append_right _ hq)
    exact h.bounded q (h.live hmem)
  have hf : f.p < top := hnodes f.p List.mem_cons_self
  have hread := h.reads_cons
  have hlive : m'.live f.p = true := by
    change Function.update tree.memory.live top true f.p = true
    rw [Function.update_of_ne hf.ne, hread.live]
  have hdata : m'.data f.p = some f.a.2 := by
    change Function.update tree.memory.data top (some y) f.p = _
    rw [Function.update_of_ne hf.ne, hread.data]
  refine ⟨RBMemory.getData_eq hlive hdata, _, RBMemory.put_eq hlive _, rfl, ?_⟩
  have hcontent : ∀ q, q < top →
      m'.links.content q = tree.memory.links.content q := by
    intro q hq
    change (if Function.update tree.memory.live top true q = true then
      (Function.update tree.memory.data top (some y) q).map fun e =>
        (Function.update tree.memory.color top .red q, e) else none) = _
    rw [Function.update_of_ne hq.ne, Function.update_of_ne hq.ne,
      Function.update_of_ne hq.ne]
    rfl
  have hchild : ∀ s q, q < top → m'.child s q = tree.memory.child s q :=
    fun s q hq => Function.update_of_ne hq.ne _ _
  have hfa : ∀ q, q < top → m'.fa q = tree.memory.fa q :=
    fun q hq => Function.update_of_ne hq.ne _ _
  have hnone : ∀ s, storeChild m'.child f.side f.p (some top) s top = none := by
    intro s
    rw [storeChild_of_ne hf.ne']
    exact Function.update_self ..
  have hnodup := (nodes_plug _ _).nodup_iff.mp h.nodup
  refine ⟨stands_plug.mpr ⟨?_, ?_⟩, ?_, ?_, ?_⟩
  · have hpath := (stands_plug.mp h.stands).1
    apply hpath.rehole hnodup
    · rintro g rest heq
      obtain ⟨rfl, rfl⟩ := List.cons.inj heq
      refine ⟨hcontent _ hf, hfa _ hf, ?_, ?_⟩
      · rw [NodeTree.root_join]
        exact storeChild_self
      · exact (storeChild_of_side_ne f.side.other_ne).trans (hchild _ _ hf)
    · intro q hq hne
      refine ⟨hcontent q (hnodes q hq), fun s => ?_, hfa q (hnodes q hq)⟩
      have hqf : q ≠ f.p := fun heq => hne (congrArg some heq.symm)
      exact (storeChild_of_ne hqf).trans (hchild s q (hnodes q hq))
  · refine ⟨?_, ?_, hnone .left, hnone .right, trivial, trivial⟩
    · exact RBMemory.content_eq_some.mpr ⟨Function.update_self ..,
        Function.update_self .., Function.update_self ..⟩
    · exact Function.update_self ..
  · refine (nodes_plug _ _).nodup_iff.mpr ?_
    refine List.nodup_cons.mpr ⟨?_, hnodup⟩
    intro hmem
    exact absurd (hnodes _ hmem) (lt_irrefl _)
  · exact fun q hq => bounded_newNode h.bounded y .red (some f.p) q hq
  · obtain ⟨r, hr⟩ := exists_root_plug f path
    exact h.root.trans ((hr _).trans (hr _).symm)

/-- What `insert` leaves behind. -/
structure Inserted (lt : K → K → Bool) (y : K × V) (es : List (K × V))
    (tree : RedBlackTree K V) (t : RBTree K V) : Prop where
  holds : Holds tree t
  balanced : ∃ n, Balanced t .black n
  ends : EndsAt tree t
  entries_eq : ∃ before after, es = before ++ after ∧
    entries t = before ++ y :: after ∧ (∀ b ∈ before, lt b.1 y.1 = true) ∧
      ∀ b ∈ after, lt y.1 b.1 = true

theorem join_nil (s : Side) (p : ℕ) (a : Color × K × V) :
    NodeTree.join .left p a .nil .nil = .join s p a .nil .nil := by
  cases s <;> rfl

/-- The new node and the red node above it are repaired. -/
theorem Inserting.adjust (h : Inserting lt y es tree path .nil parent grandP
      fuel) {f : Frame (Color × K × V)} {tree₁ : RedBlackTree K V} {q : ℕ}
    {rest : List (Frame (Color × K × V))} (hpath : path = f :: rest)
    (h₁ : Holds tree₁ (plug path (.join .left q (.red, y) .nil .nil))) :
    ∃ tree₂ t₂ r, tree₁.insertAdjust grandP parent q = some tree₂ ∧
      tree₂.len = tree₁.len ∧ tree₂.memory.top = tree₁.memory.top ∧
      Holds tree₂ t₂ ∧ t₂.root = some r ∧ (∃ c n, Balanced t₂ c n) ∧
      entries t₂ = entriesBefore path ++ y :: entriesAfter path := by
  subst hpath
  obtain rfl := h.parent_eq f rest rfl
  obtain ⟨c, n, hnil, hfits⟩ := h.balanced
  obtain ⟨rfl, rfl⟩ : c = .black ∧ n = 0 := by
    cases hnil
    exact ⟨rfl, rfl⟩
  have hnew : Balanced (.join .left q (.red, y) .nil .nil) .red 0 :=
    .join_red .nil .nil
  have hentries : entries (plug (f :: rest)
      (.join .left q (.red, y) .nil .nil)) =
        entriesBefore (f :: rest) ++ y :: entriesAfter (f :: rest) := by
    rw [entries_plug, entries_join]
    simp
  cases hf : f.a.1 with
  | black =>
      have hparent := h₁.reads_cons
      obtain ⟨r, hr⟩ := exists_root_plug f rest
      refine ⟨tree₁, _, r, insertAdjust_black hparent.live
        (hparent.color.trans hf) _ _, rfl, rfl, h₁, hr _, ?_, hentries⟩
      obtain ⟨s, p, ⟨_, e⟩, A⟩ := f
      subst hf
      obtain ⟨hA, hrest⟩ := fits_black.mp hfits
      obtain ⟨c, n, hbalanced, -⟩ := exists_balanced_plug.mpr
        ⟨.red, 0, hnew, fits_black.mpr ⟨hA, hrest⟩⟩
      exact ⟨c, n, hbalanced⟩
  | red =>
      obtain ⟨s₁, p, ⟨_, fe⟩, C⟩ := f
      subst hf
      obtain ⟨-, hC, hrest⟩ := fits_red.mp hfits
      obtain ⟨s, gp, ge, D, rest, c', rfl, hD, hrest'⟩ := hrest.exists_black
      obtain rfl : grandP = gp := h.grandP_eq _ _ _ rfl rfl
      have hD' : Balanced D .black 0 := by
        cases c' with
        | black => exact hD
        | red =>
            obtain ⟨_, _, _, _, heq, -⟩ :=
              h.uncle _ _ _ rfl rfl hD.rootColor_eq
            cases heq
      rcases s.eq_or_eq_other s₁ with rfl | rfl
      · obtain ⟨tree₂, hadjust, hlen, htop, h₂⟩ :=
          insertAdjust_same h₁ (NodeTree.root_join ..)
        obtain ⟨r, hr⟩ := exists_root_plug_join rest s₁ p (.black, fe)
          (.join .left q (.red, y) .nil .nil) (.join s₁ grandP (.red, ge) C D)
        refine ⟨tree₂, _, r, hadjust, hlen, htop, h₂, hr, ?_, ?_⟩
        · obtain ⟨c, n, hbalanced, -⟩ := exists_balanced_plug.mpr
            ⟨.black, 1, Balanced.join_black hnew (.join_red hC hD'), hrest'⟩
          exact ⟨c, n, hbalanced⟩
        · rw [← hentries]
          exact entries_plug_congr rest entries_rotate
      · have h₁ : Holds tree₁ (plug rest (.join s grandP (.black, ge)
            (.join s p (.red, fe) C (.join s q (.red, y) .nil .nil)) D)) := by
          rw [← NodeTree.join_other s p, ← join_nil s]
          exact h₁
        obtain ⟨tree₂, hadjust, hlen, htop, h₂⟩ := insertAdjust_other h₁
        obtain ⟨r, hr⟩ := exists_root_plug_join rest s q (.black, y)
          (.join s p (.red, fe) C .nil) (.join s grandP (.red, ge) .nil D)
        refine ⟨tree₂, _, r, hadjust, hlen, htop, h₂, hr, ?_, ?_⟩
        · obtain ⟨c, n, hbalanced, -⟩ := exists_balanced_plug.mpr
            ⟨.black, 1, Balanced.join_black (.join_red hC .nil)
              (.join_red .nil hD'), hrest'⟩
          exact ⟨c, n, hbalanced⟩
        · rw [← hentries, join_nil s]
          have hmoved : entries (plug rest (.join s q (.black, y)
                (.join s p (.red, fe) C .nil)
                  (.join s grandP (.red, ge) .nil D))) =
              entries (plug rest (.join s grandP (.black, ge)
                (.join s p (.red, fe) C (.join s q (.red, y) .nil .nil)) D)) :=
            entries_plug_congr rest entries_rotateTwice
          rw [hmoved, ← NodeTree.join_other s p]
          rfl

/-! ## The run -/

/-- The loop ends at an empty place. -/
theorem Inserting.finish (hlt : StrictWeakOrder lt)
    (h : Inserting lt y es tree path .nil parent grandP fuel) :
    ∃ tree' t', insertFrom lt y fuel tree none parent grandP = some tree' ∧
      tree'.len = tree.len + 1 ∧
      tree'.memory.top = tree.memory.top + 1 ∧ Inserted lt y es tree' t' := by
  cases hpath : path with
  | nil => cases h.root_eq hpath
  | cons f rest =>
      have hparent := h.parent_eq f rest hpath
      have hholds : Holds tree (plug (f :: rest) .nil) := hpath ▸ h.holds
      obtain ⟨hdata, m, hm, htop, h₁⟩ := hholds.attach y (tree.len + 1)
      rw [← hpath] at h₁
      obtain ⟨tree₂, t₂, r, hadjust, hlen₂, htop₂, h₂, hr, ⟨c, n, hbalanced⟩,
        hentries⟩ := h.adjust hpath h₁
      obtain ⟨tree₃, hfinish, hlen₃, htop₃, h₃, hends, hblack⟩ :=
        h₂.finish hr hbalanced
      refine ⟨tree₃, _, ?_, ?_, ?_, h₃, hblack, hends, ?_⟩
      · have hside : sideOf lt y.1 f.a.2.1 = f.side :=
          (hpath ▸ h.between :
            Between lt y.1 (⟨f.side, f.p, f.a, f.sibling⟩ :: rest)).sideOf_eq hlt
        have hnone : insertFrom lt y fuel tree none parent grandP =
            ((tree.memory.newNode y .red (some parent)).2.getData parent).bind
              fun e =>
                ((tree.memory.newNode y .red (some parent)).2.setChild
                  (sideOf lt y.1 e.1) parent (some tree.memory.top)).bind fun m =>
                  (insertAdjust { tree with memory := m, len := tree.len + 1 }
                    grandP parent tree.memory.top).bind fun tree =>
                      tree.blackenRoot.bind RedBlackTree.setEnds := by
          cases fuel <;> rfl
        rw [hnone, hparent, hdata]
        change ((tree.memory.newNode y .red (some f.p)).2.setChild
          (sideOf lt y.1 f.a.2.1) f.p (some tree.memory.top)).bind _ = _
        rw [hside]
        change ((tree.memory.newNode y .red (some f.p)).2.setChild f.side f.p
          (some (tree.memory.newNode y .red (some f.p)).1)).bind _ = _
        rw [hm]
        change (insertAdjust _ grandP f.p tree.memory.top).bind _ = _
        rw [← hparent]
        change (insertAdjust _ grandP parent
          (tree.memory.newNode y .red (some f.p)).1).bind _ = _
        rw [hadjust]
        exact hfinish
      · rw [hlen₃, hlen₂]
      · rw [htop₃, htop₂, htop]
      · refine ⟨entriesBefore path, entriesAfter path, ?_, ?_,
          h.between.before, h.between.after⟩
        · rw [← h.entries_eq, entries_plug, entries_nil, List.append_nil]
        · rw [entries_paintRoot, hentries]

/-- The loop of `insert` leaves a tree with the new entry behind. -/
theorem Inserting.run (hlt : StrictWeakOrder lt) (hasc : Ascending lt es)
    (habsent : ∀ b ∈ es, equal lt b.1 y.1 = false)
    (h : Inserting lt y es tree path t parent grandP fuel) :
    ∃ tree' t', insertFrom lt y fuel tree t.root parent grandP = some tree' ∧
      tree'.len = tree.len + 1 ∧
      tree'.memory.top = tree.memory.top + 1 ∧ Inserted lt y es tree' t' := by
  induction fuel generalizing tree path t parent grandP with
  | zero =>
      cases t with
      | nil => exact h.finish hlt
      | node q a l r =>
          rcases h.enough with hsize | ⟨-, hsize⟩
          · rw [NodeTree.size] at hsize
            omega
          · omega
  | succ fuel ih =>
      cases hroot : t.root with
      | none =>
          obtain rfl := NodeTree.eq_nil_of_root hroot
          exact h.finish hlt
      | some q =>
          obtain ⟨a, l, r, rfl⟩ := NodeTree.exists_join .left hroot
          obtain ⟨A, B, hjoin⟩ : ∃ A B, NodeTree.join .left q a l r =
              .join (sideOf lt y.1 a.2.1) q a A B := by
            cases sideOf lt y.1 a.2.1 with
            | left => exact ⟨l, r, rfl⟩
            | right => exact ⟨r, l, rfl⟩
          rw [hjoin] at h
          obtain ⟨tree₁, path₁, c, A₁, B₁, hsplit, hlen, htop, h₁⟩ :=
            h.step hlt hasc habsent rfl
          obtain ⟨tree', t', hrun, hlen', htop', hinserted⟩ := ih h₁
          refine ⟨tree', t', ?_, by rw [hlen', hlen], by rw [htop', htop],
            hinserted⟩
          have hreads := h₁.holds.reads_cons
          have hchild : tree₁.memory.child (sideOf lt y.1 a.2.1) q = A₁.root :=
            hreads.child
          change (tree.splitRed grandP parent q).bind _ = _
          rw [hsplit]
          change (tree₁.memory.getData q).bind _ = _
          rw [RBMemory.getData_eq hreads.live hreads.data]
          change (tree₁.memory.get (tree₁.memory.child
            (sideOf lt y.1 a.2.1)) q).bind _ = _
          rw [RBMemory.get_eq hreads.live, hchild]
          exact hrun

/-- A new entry is inserted into a tree with other keys. -/
theorem Holds.insert (hlt : StrictWeakOrder lt) {n : ℕ} (h : Holds tree t)
    (hbalanced : Balanced t .black n) (hasc : Ascending lt (entries t))
    (habsent : ∀ b ∈ entries t, equal lt b.1 y.1 = false) :
    ∃ tree' t', tree.insert lt y = some tree' ∧ tree'.len = tree.len + 1 ∧
      Inserted lt y (entries t) tree' t' := by
  cases hroot : t.root with
  | none =>
      obtain rfl := NodeTree.eq_nil_of_root hroot
      let top := tree.memory.top
      let m := (tree.memory.newNode y .black none).2
      let tree' : RedBlackTree K V :=
        { memory := m, root := some top, head := some top, rear := some top
          len := tree.len + 1 }
      refine ⟨tree', .node top (.black, y) .nil .nil, ?_, rfl, ?_⟩
      · rw [RedBlackTree.insert, h.root, hroot]
        rfl
      · refine ⟨⟨⟨?_, ?_, ?_, ?_, trivial, trivial⟩, ?_, ?_, rfl⟩,
          ⟨1, .black .nil .nil⟩, ⟨rfl, rfl⟩, [], [], rfl, rfl, nofun, nofun⟩
        · exact RBMemory.content_eq_some.mpr ⟨Function.update_self ..,
            Function.update_self .., Function.update_self ..⟩
        · exact Function.update_self ..
        · exact Function.update_self ..
        · exact Function.update_self ..
        · exact List.nodup_singleton top
        · exact fun q hq => bounded_newNode h.bounded y .black none q hq
  | some root =>
      have hinserting : Inserting lt y (entries t) tree [] t root root
          tree.memory.top := {
        holds := h
        balanced := ⟨.black, n, hbalanced, .root nofun⟩
        entries_eq := rfl
        between := .nil
        root_eq := fun _ => hroot
        parent_eq := nofun
        grandP_eq := nofun
        uncle := nofun
        sibling := nofun
        enough := .inl h.size_le }
      obtain ⟨tree', t', hrun, hlen, -, hinserted⟩ :=
        hinserting.run hlt hasc habsent
      refine ⟨tree', t', ?_, hlen, hinserted⟩
      rw [RedBlackTree.insert, h.root, hroot]
      rw [hroot] at hrun
      exact hrun

end RedBlackTree

end TicketSystem.Backend
