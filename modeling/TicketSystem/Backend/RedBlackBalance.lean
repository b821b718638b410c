import TicketSystem.Backend.RedBlackShape
import TicketSystem.Backend.Sort

/-!
# Balanced red-black trees

A balanced tree has a black height and no red node with a red child.  A path
accepts trees of one colour and one black height: with such a tree at its end
it is balanced itself.
-/

namespace TicketSystem.Backend

open TicketSystem.Support

variable {K V : Type} {s : Side} {p : ℕ} {e : K × V} {a : Color × K × V}
  {A B t : RBTree K V} {c c' : Color} {n : ℕ}
  {path : List (Frame (Color × K × V))}

/-! ## Trees -/

/-- The colour of the root; an empty tree is black. -/
def rootColor : RBTree K V → Color
  | .nil => .black
  | .node _ a _ _ => a.1

@[simp] theorem rootColor_nil : rootColor (.nil : RBTree K V) = .black := rfl

@[simp] theorem rootColor_join :
    rootColor (.join s p a A B) = a.1 := by
  cases s <;> rfl

/-- The tree has the colour and the black height. -/
inductive Balanced : RBTree K V → Color → ℕ → Prop
  | nil : Balanced .nil .black 0
  | red {p : ℕ} {e : K × V} {A B : RBTree K V} {n : ℕ} :
      Balanced A .black n → Balanced B .black n →
        Balanced (.node p (.red, e) A B) .red n
  | black {p : ℕ} {e : K × V} {A B : RBTree K V} {c c' : Color} {n : ℕ} :
      Balanced A c n → Balanced B c' n →
        Balanced (.node p (.black, e) A B) .black (n + 1)

/-- A red tree has a node. -/
theorem size_pos_of_red (h : rootColor t = .red) : 0 < t.size := by
  cases t with
  | nil => cases h
  | node p a l r => exact Nat.succ_pos _

theorem Balanced.rootColor_eq (h : Balanced t c n) : rootColor t = c := by
  cases h <;> rfl

/-- The colour of a tree is that of its root. -/
theorem Balanced.self (h : Balanced t c n) : Balanced t (rootColor t) n :=
  h.rootColor_eq.symm ▸ h

theorem balanced_join_red : Balanced (.join s p (.red, e) A B) c n ↔
    c = .red ∧ Balanced A .black n ∧ Balanced B .black n := by
  cases s with
  | left =>
      constructor
      · rintro (_ | ⟨hA, hB⟩)
        exact ⟨rfl, hA, hB⟩
      · rintro ⟨rfl, hA, hB⟩
        exact .red hA hB
  | right =>
      constructor
      · rintro (_ | ⟨hB, hA⟩)
        exact ⟨rfl, hA, hB⟩
      · rintro ⟨rfl, hA, hB⟩
        exact .red hB hA

theorem balanced_join_black : Balanced (.join s p (.black, e) A B) c n ↔
    c = .black ∧ ∃ m c₁ c₂, n = m + 1 ∧ Balanced A c₁ m ∧ Balanced B c₂ m := by
  cases s with
  | left =>
      constructor
      · rintro (_ | _ | ⟨hA, hB⟩)
        exact ⟨rfl, _, _, _, rfl, hA, hB⟩
      · rintro ⟨rfl, m, c₁, c₂, rfl, hA, hB⟩
        exact .black hA hB
  | right =>
      constructor
      · rintro (_ | _ | ⟨hB, hA⟩)
        exact ⟨rfl, _, _, _, rfl, hA, hB⟩
      · rintro ⟨rfl, m, c₁, c₂, rfl, hA, hB⟩
        exact .black hB hA

theorem Balanced.join_red (hA : Balanced A .black n) (hB : Balanced B .black n) :
    Balanced (.join s p (.red, e) A B) .red n :=
  balanced_join_red.mpr ⟨rfl, hA, hB⟩

theorem Balanced.join_black {c₁ c₂ : Color} (hA : Balanced A c₁ n)
    (hB : Balanced B c₂ n) :
    Balanced (.join s p (.black, e) A B) .black (n + 1) :=
  balanced_join_black.mpr ⟨rfl, n, c₁, c₂, rfl, hA, hB⟩

/-- A red tree is a red node with black children. -/
theorem Balanced.exists_red (h : Balanced t .red n) (s : Side) :
    ∃ p e A B, t = .join s p (.red, e) A B ∧ Balanced A .black n ∧
      Balanced B .black n := by
  cases h with
  | @red p e A B _ hA hB =>
      cases s with
      | left => exact ⟨p, e, A, B, rfl, hA, hB⟩
      | right => exact ⟨p, e, B, A, rfl, hB, hA⟩

/-- A tree with a positive black height has a node. -/
theorem Balanced.exists_join (h : Balanced t c (n + 1)) (s : Side) :
    ∃ p a A B, t = .join s p a A B := by
  cases t with
  | nil => cases h
  | node p a A B =>
      cases s with
      | left => exact ⟨p, a, A, B, rfl⟩
      | right => exact ⟨p, a, B, A, rfl⟩

theorem Balanced.eq_nil (h : Balanced t .black 0) : t = .nil := by
  cases h
  rfl

/-- The root of a balanced tree may be painted black. -/
theorem Balanced.blacken (h : Balanced (.join s p a A B) c n) :
    ∃ n', Balanced (.join s p (paint .black a) A B) .black n' := by
  obtain ⟨_ | _, e⟩ := a
  · obtain ⟨-, hA, hB⟩ := balanced_join_red.mp h
    exact ⟨n + 1, .join_black hA hB⟩
  · obtain ⟨rfl, -⟩ := balanced_join_black.mp h
    exact ⟨n, h⟩

/-- A node with two red children is black. -/
theorem Balanced.of_red_children (h : Balanced (.join s p a A B) c n)
    (hA : rootColor A = .red) (hB : rootColor B = .red) :
    ∃ m, a.1 = .black ∧ c = .black ∧ n = m + 1 ∧ Balanced A .red m ∧
      Balanced B .red m := by
  obtain ⟨_ | _, e⟩ := a
  · obtain ⟨-, hA', -⟩ := balanced_join_red.mp h
    rw [hA'.rootColor_eq] at hA
    cases hA
  · obtain ⟨rfl, m, c₁, c₂, rfl, hA', hB'⟩ := balanced_join_black.mp h
    have hc₁ := hA'.rootColor_eq.symm.trans hA
    have hc₂ := hB'.rootColor_eq.symm.trans hB
    subst hc₁ hc₂
    exact ⟨m, rfl, rfl, rfl, hA', hB'⟩

/-! ## Paths -/

/-- The path accepts the trees of this colour and this black height; its root
may be red if `c₀` is. -/
inductive Fits (c₀ : Color) :
    List (Frame (Color × K × V)) → Color → ℕ → Prop
  | root {c : Color} {n : ℕ} : (c = .red → c₀ = .red) → Fits c₀ [] c n
  | red {s : Side} {p : ℕ} {e : K × V} {A : RBTree K V}
      {path : List (Frame (Color × K × V))} {n : ℕ} :
      Balanced A .black n → Fits c₀ path .red n →
        Fits c₀ (⟨s, p, (.red, e), A⟩ :: path) .black n
  | black {s : Side} {p : ℕ} {e : K × V} {A : RBTree K V}
      {path : List (Frame (Color × K × V))} {c c' : Color} {n : ℕ} :
      Balanced A c' n → Fits c₀ path .black (n + 1) →
        Fits c₀ (⟨s, p, (.black, e), A⟩ :: path) c n

variable {c₀ : Color}

theorem fits_red : Fits c₀ (⟨s, p, (.red, e), A⟩ :: path) c n ↔
    c = .black ∧ Balanced A .black n ∧ Fits c₀ path .red n := by
  constructor
  · rintro (_ | ⟨hA, hpath⟩)
    exact ⟨rfl, hA, hpath⟩
  · rintro ⟨rfl, hA, hpath⟩
    exact .red hA hpath

theorem fits_black : Fits c₀ (⟨s, p, (.black, e), A⟩ :: path) c n ↔
    (∃ c', Balanced A c' n) ∧ Fits c₀ path .black (n + 1) := by
  constructor
  · rintro (_ | _ | ⟨hA, hpath⟩)
    exact ⟨⟨_, hA⟩, hpath⟩
  · rintro ⟨⟨c', hA⟩, hpath⟩
    exact .black hA hpath

/-- A path that accepts a red tree accepts a black one. -/
theorem Fits.of_red (h : Fits c₀ path .red n) (c : Color) :
    Fits c₀ path c n := by
  cases h with
  | root hc => exact .root fun _ => hc rfl
  | black hA hpath => exact .black hA hpath

theorem Fits.to_black (h : Fits c₀ path c n) : Fits c₀ path .black n := by
  cases c with
  | red => exact h.of_red .black
  | black => exact h

/-- Above a red node stands a black one. -/
theorem Fits.exists_black (h : Fits .black path .red n) :
    ∃ s p e A rest c, path = ⟨s, p, (.black, e), A⟩ :: rest ∧
      Balanced A c n ∧ Fits .black rest .black (n + 1) := by
  cases h with
  | root hc => cases hc rfl
  | black hA hpath => exact ⟨_, _, _, _, _, _, rfl, hA, hpath⟩

/-- A tree is balanced where the path accepts it. -/
theorem exists_balanced_plug :
    (∃ c n, Balanced (plug path t) c n ∧ (c = .red → c₀ = .red)) ↔
      ∃ c n, Balanced t c n ∧ Fits c₀ path c n := by
  induction path generalizing t with
  | nil =>
      constructor
      · rintro ⟨c, n, h, hc⟩
        exact ⟨c, n, h, .root hc⟩
      · rintro ⟨c, n, h, ⟨hc⟩⟩
        exact ⟨c, n, h, hc⟩
  | cons f path ih =>
      obtain ⟨s, p, ⟨_ | _, e⟩, A⟩ := f
      · rw [plug, ih]
        constructor
        · rintro ⟨c, n, h, hpath⟩
          obtain ⟨rfl, ht, hA⟩ := balanced_join_red.mp h
          exact ⟨.black, n, ht, .red hA hpath⟩
        · rintro ⟨c, n, ht, h⟩
          obtain ⟨rfl, hA, hpath⟩ := fits_red.mp h
          exact ⟨.red, n, .join_red ht hA, hpath⟩
      · rw [plug, ih]
        constructor
        · rintro ⟨c, n, h, hpath⟩
          obtain ⟨rfl, m, c₁, c₂, rfl, ht, hA⟩ := balanced_join_black.mp h
          exact ⟨c₁, m, ht, .black hA hpath⟩
        · rintro ⟨c, n, ht, h⟩
          obtain ⟨⟨c', hA⟩, hpath⟩ := fits_black.mp h
          exact ⟨.black, n + 1, .join_black ht hA, hpath⟩

/-- The colours and the shape decide whether a node is balanced. -/
theorem Balanced.join_congr {A' B' : RBTree K V}
    (hA : ∀ c n, Balanced A c n → Balanced A' c n)
    (hB : ∀ c n, Balanced B c n → Balanced B' c n) (p' : ℕ) (e' : K × V)
    (h : Balanced (.join s p a A B) c n) :
    Balanced (.join s p' (a.1, e') A' B') c n := by
  obtain ⟨_ | _, ae⟩ := a
  · obtain ⟨rfl, hA', hB'⟩ := balanced_join_red.mp h
    exact .join_red (hA _ _ hA') (hB _ _ hB')
  · obtain ⟨rfl, m, c₁, c₂, rfl, hA', hB'⟩ := balanced_join_black.mp h
    exact .join_black (hA _ _ hA') (hB _ _ hB')

theorem Balanced.plug_congr {t' : RBTree K V}
    (ht : ∀ c n, Balanced t c n → Balanced t' c n)
    (h : Balanced (plug path t) c n) : Balanced (plug path t') c n := by
  induction path generalizing t t' with
  | nil => exact ht c n h
  | cons f path ih =>
      exact ih (fun c n hjoin => hjoin.join_congr ht (fun _ _ hB => hB)
        f.p f.a.2) h

/-! ## Entries -/

/-- The entries of a tree from left to right. -/
def entries (t : RBTree K V) : List (K × V) :=
  t.cells.map fun cell => cell.2.2

@[simp] theorem entries_nil : entries (.nil : RBTree K V) = [] := rfl

theorem entries_join : entries (.join s p a A B) =
    match s with
    | .left => entries A ++ a.2 :: entries B
    | .right => entries B ++ a.2 :: entries A := by
  cases s <;> simp [entries, NodeTree.join, NodeTree.cells]

/-- The entries left of the subtree at the end of the path. -/
def entriesBefore (path : List (Frame (Color × K × V))) : List (K × V) :=
  (cellsBefore path).map fun cell => cell.2.2

/-- The entries right of the subtree at the end of the path. -/
def entriesAfter (path : List (Frame (Color × K × V))) : List (K × V) :=
  (cellsAfter path).map fun cell => cell.2.2

theorem entries_plug : entries (plug path t) =
    entriesBefore path ++ entries t ++ entriesAfter path := by
  simp [entries, entriesBefore, entriesAfter, cells_plug]

theorem entriesBefore_cons : entriesBefore (⟨s, p, a, A⟩ :: path) =
    entriesBefore path ++
      match s with
      | .left => []
      | .right => entries A ++ [a.2] := by
  cases s <;> simp [entriesBefore, cellsBefore, entries]

theorem entriesAfter_cons : entriesAfter (⟨s, p, a, A⟩ :: path) =
    (match s with
      | .left => a.2 :: entries A
      | .right => []) ++ entriesAfter path := by
  cases s <;> simp [entriesAfter, cellsAfter, entries]

theorem length_entries : (entries t).length = t.size := by
  rw [entries, List.length_map, NodeTree.length_cells]

/-- The colours do not matter to the entries. -/
@[simp] theorem entries_join_paint :
    entries (.join s p (paint c a) A B) = entries (.join s p a A B) := by
  rw [entries_join, entries_join]
  rfl

/-- Trees with the same entries at the end of a path. -/
theorem entries_plug_congr (path : List (Frame (Color × K × V)))
    {u : RBTree K V} (h : entries t = entries u) :
    entries (plug path t) = entries (plug path u) := by
  rw [entries_plug, entries_plug, h]

/-- A rotation keeps the entries. -/
theorem entries_rotate {gp : ℕ} {e' : K × V} {C : RBTree K V}
    {c₁ c₂ c₃ c₄ : Color} :
    entries (.join s p (c₁, e) A (.join s gp (c₂, e') B C)) =
      entries (.join s gp (c₃, e') (.join s p (c₄, e) A B) C) := by
  cases s <;> simp [entries_join]

/-- A double rotation keeps the entries. -/
theorem entries_rotateTwice {gp q : ℕ} {e' e'' : K × V} {C D : RBTree K V}
    {c₁ c₂ c₃ c₄ c₅ c₆ : Color} :
    entries (.join s q (c₁, e'') (.join s p (c₂, e) A B)
        (.join s gp (c₃, e') C D)) =
      entries (.join s gp (c₄, e') (.join s p (c₅, e) A
        (.join s q (c₆, e'') B C)) D) := by
  cases s <;> simp [entries_join]

/-! ## The order of the keys -/

section Order

variable {lt : K → K → Bool} {x y z : K} {es : List (K × V)}

theorem StrictWeakOrder.trans (hlt : StrictWeakOrder lt)
    (hxy : lt x y = true) (hyz : lt y z = true) : lt x z = true := by
  by_contra hxz
  rw [Bool.not_eq_true] at hxz
  have hzy := hlt.asymm y z hyz
  have hno := hlt.negTrans x z y hxz hzy
  rw [hxy] at hno
  cases hno

theorem equal_eq_true : RedBlackTree.equal lt x y = true ↔
    lt x y = false ∧ lt y x = false := by
  simp [RedBlackTree.equal]

theorem StrictWeakOrder.equal_self (hlt : StrictWeakOrder lt) (x : K) :
    RedBlackTree.equal lt x x = true := by
  have hirrefl : lt x x = false := by
    by_contra hxx
    rw [Bool.not_eq_false] at hxx
    rw [hlt.asymm x x hxx] at hxx
    cases hxx
  exact equal_eq_true.mpr ⟨hirrefl, hirrefl⟩

theorem equal_comm (x y : K) :
    RedBlackTree.equal lt x y = RedBlackTree.equal lt y x := by
  rw [RedBlackTree.equal, RedBlackTree.equal, Bool.or_comm]

theorem StrictWeakOrder.lt_of_lt_of_equal (hlt : StrictWeakOrder lt)
    (hxy : lt x y = true) (hyz : RedBlackTree.equal lt y z = true) :
    lt x z = true := by
  by_contra hxz
  rw [Bool.not_eq_true] at hxz
  have hno := hlt.negTrans x z y hxz (equal_eq_true.mp hyz).2
  rw [hxy] at hno
  cases hno

theorem StrictWeakOrder.lt_of_equal_of_lt (hlt : StrictWeakOrder lt)
    (hxy : RedBlackTree.equal lt x y = true) (hyz : lt y z = true) :
    lt x z = true := by
  by_contra hxz
  rw [Bool.not_eq_true] at hxz
  have hno := hlt.negTrans y x z (equal_eq_true.mp hxy).2 hxz
  rw [hyz] at hno
  cases hno

theorem equal_eq_false_of_lt (hxy : lt x y = true) : RedBlackTree.equal lt x y = false := by
  simp [RedBlackTree.equal, hxy]

/-- The keys ascend. -/
def Ascending (lt : K → K → Bool) (es : List (K × V)) : Prop :=
  es.Pairwise fun a b => lt a.1 b.1 = true

/-- The key belongs to the subtree at the end of the path. -/
structure Between (lt : K → K → Bool) (x : K)
    (path : List (Frame (Color × K × V))) : Prop where
  before : ∀ b ∈ entriesBefore path, lt b.1 x = true
  after : ∀ b ∈ entriesAfter path, lt x b.1 = true

theorem Between.nil : Between lt x ([] : List (Frame (Color × K × V))) :=
  ⟨nofun, nofun⟩

/-- The key belongs to what stands below the last node too. -/
theorem Between.tail {f : Frame (Color × K × V)}
    (h : Between lt x (f :: path)) : Between lt x path := by
  obtain ⟨s, p, a, A⟩ := f
  constructor
  · intro b hb
    apply h.before
    rw [entriesBefore_cons]
    exact List.mem_append_left _ hb
  · intro b hb
    apply h.after
    rw [entriesAfter_cons]
    exact List.mem_append_right _ hb

theorem Ascending.of_plug (h : Ascending lt (entries (plug path t))) :
    Ascending lt (entries t) := by
  rw [entries_plug] at h
  exact (List.pairwise_append.mp (List.pairwise_append.mp h).1).2.1

/-- A key that is not that of the node belongs to one of its children. -/
theorem Between.cons (hlt : StrictWeakOrder lt) (h : Between lt x path)
    (hasc : Ascending lt (entries (plug path
      (.join (RedBlackTree.sideOf lt x a.2.1) p a A B))))
    (hne : RedBlackTree.equal lt a.2.1 x = false) :
    Between lt x (⟨RedBlackTree.sideOf lt x a.2.1, p, a, B⟩ :: path) := by
  have hfocus := hasc.of_plug
  rw [entries_join] at hfocus
  by_cases hside : lt x a.2.1 = true
  · have hs : RedBlackTree.sideOf lt x a.2.1 = .left := if_pos hside
    rw [hs] at hfocus ⊢
    have hB := (List.pairwise_cons.mp (List.pairwise_append.mp hfocus).2.1).1
    constructor
    · intro b hb
      rw [entriesBefore_cons, List.append_nil] at hb
      exact h.before b hb
    · intro b hb
      rw [entriesAfter_cons] at hb
      rcases List.mem_append.mp hb with hb | hb
      · rcases List.mem_cons.mp hb with rfl | hb
        · exact hside
        · exact hlt.trans hside (hB b hb)
      · exact h.after b hb
  · have hs : RedBlackTree.sideOf lt x a.2.1 = .right := if_neg hside
    have hgt : lt a.2.1 x = true := by
      rw [Bool.not_eq_true] at hside
      simpa [RedBlackTree.equal, hside] using hne
    rw [hs] at hfocus ⊢
    have hB := (List.pairwise_append.mp hfocus).2.2
    constructor
    · intro b hb
      rw [entriesBefore_cons] at hb
      rcases List.mem_append.mp hb with hb | hb
      · exact h.before b hb
      · rcases List.mem_append.mp hb with hb | hb
        · exact hlt.trans (hB b hb a.2 List.mem_cons_self) hgt
        · obtain rfl := List.mem_singleton.mp hb
          exact hgt
    · intro b hb
      rw [entriesAfter_cons, List.nil_append] at hb
      exact h.after b hb

/-- The path turns at a node to the side where the key belongs. -/
theorem Between.sideOf_eq (hlt : StrictWeakOrder lt)
    (h : Between lt x (⟨s, p, a, A⟩ :: path)) :
    RedBlackTree.sideOf lt x a.2.1 = s := by
  cases s with
  | left =>
      have hmem : a.2 ∈ entriesAfter (⟨.left, p, a, A⟩ :: path) := by
        simp [entriesAfter_cons]
      exact if_pos (h.after _ hmem)
  | right =>
      have hmem : a.2 ∈ entriesBefore (⟨.right, p, a, A⟩ :: path) := by
        simp [entriesBefore_cons]
      have hno := hlt.asymm _ _ (h.before _ hmem)
      rw [RedBlackTree.sideOf, hno]
      rfl

/-- The paths turn at the same keys. -/
theorem Between.congr {path' : List (Frame (Color × K × V))}
    (h : Between lt x path) (hbefore : entriesBefore path' = entriesBefore path)
    (hafter : entriesAfter path' = entriesAfter path) :
    Between lt x path' :=
  ⟨hbefore ▸ h.before, hafter ▸ h.after⟩

end Order

end TicketSystem.Backend
