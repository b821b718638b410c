import TicketSystem.Database.TreeRemove

/-!
# The row of leaves

From left to right the leaves of a tree hold the entries of a map in the order
of their keys.  Each leaf has a bound that none of its keys is below and that
all keys of the leaves before it are below, and each leaf knows the page of the
next one.
-/

namespace TicketSystem.Database

open TicketSystem.Support

variable {K V : Type}

/-! ## Leaves -/

/-- The entries of the leaves. -/
def entriesOf (leaves : List (Leaf K V)) : List (K × V) :=
  leaves.flatMap Leaf.array

/-- The page of the first leaf, or `last` if there is none. -/
def firstPageId (last : PageId) : List (Leaf K V) → PageId
  | [] => last
  | leaf :: _ => leaf.pageId

/-- Each leaf knows the page of the next one, and the last one knows `last`. -/
def Chained (last : PageId) : List (Leaf K V) → Prop
  | [] => True
  | leaf :: leaves =>
      leaf.nextPageId = firstPageId last leaves ∧ Chained last leaves

/-- The sizes that a leaf below the rows `rows` may have. -/
structure Leaf.Fits (tree : BPlusTreeNTS K) (rows : List (List (Branch K)))
    (leaf : Leaf K V) : Prop where
  lt_maxSize : leaf.array.length < tree.leafMaxSize
  le_size : (if rows = [] then 1 else tree.leafMaxSize / 2) ≤
    leaf.array.length

section Order

variable [LinearOrder K]

/-- The keys of a leaf increase and are not below its bound. -/
structure Leaf.Ordered (leaf : Leaf K V) : Prop where
  low_le : ∀ e ∈ leaf.array, leaf.low ≤ e.1
  sorted : KeySorted leaf.array

/-- The bound and the keys of `l` are below the bound of `m`. -/
structure Leaf.Before (l m : Leaf K V) : Prop where
  low_lt : l.low < m.low
  lt_low : ∀ e ∈ l.array, e.1 < m.low

/-- Leaves that make the lowest row of a tree. -/
structure LeafRow (leaves : List (Leaf K V)) : Prop where
  ordered : ∀ leaf ∈ leaves, leaf.Ordered
  pairwise : leaves.Pairwise Leaf.Before
  head_low : ∀ leaf ∈ leaves.head?, leaf.low = ⊥
  chained : Chained INVALID_PAGE_ID leaves

end Order

/-! ## The chain -/

section Chain

variable {last : PageId} {xs ys : List (Leaf K V)}

theorem firstPageId_append :
    firstPageId last (xs ++ ys) = firstPageId (firstPageId last ys) xs := by
  cases xs <;> rfl

theorem chained_append :
    Chained last (xs ++ ys) ↔
      Chained (firstPageId last ys) xs ∧ Chained last ys := by
  induction xs with
  | nil => simp [Chained]
  | cons x xs ih =>
      rw [List.cons_append, Chained, Chained, ih, firstPageId_append,
        and_assoc]

theorem entriesOf_append :
    entriesOf (xs ++ ys) = entriesOf xs ++ entriesOf ys :=
  List.flatMap_append

theorem entriesOf_cons (x : Leaf K V) :
    entriesOf (x :: xs) = x.array ++ entriesOf xs :=
  List.flatMap_cons

theorem entriesOf_pieces (x : Leaf K V) :
    entriesOf (xs ++ x :: ys) = entriesOf xs ++ x.array ++ entriesOf ys := by
  rw [entriesOf_append, entriesOf_cons, List.append_assoc]

theorem mem_entriesOf {e : K × V} :
    e ∈ entriesOf xs ↔ ∃ leaf ∈ xs, e ∈ leaf.array :=
  List.mem_flatMap

end Chain

/-! ## Changes of a row -/

/-- Two nodes beside each other in a row of leaves. -/
theorem exists_leaves_pair {leaves : List (Leaf K V)}
    {before after : List (Node K V)} {x y : Node K V}
    (h : leaves.map Node.leaf = before ++ x :: y :: after) :
    ∃ before' l m after', leaves = before' ++ l :: m :: after' ∧
      before = before'.map Node.leaf ∧ x = .leaf l ∧ y = .leaf m ∧
      after = after'.map Node.leaf := by
  obtain ⟨before', rest, rfl, rfl, hrest⟩ := List.map_eq_append_iff.mp h
  obtain ⟨l, rest', rfl, rfl, hrest'⟩ := List.map_eq_cons_iff.mp hrest
  obtain ⟨m, after', rfl, rfl, rfl⟩ := List.map_eq_cons_iff.mp hrest'
  exact ⟨before', l, m, after', rfl, rfl, rfl, rfl, rfl⟩

section Row

variable [LinearOrder K] {before mid mid' after leaves : List (Leaf K V)}
  {x x' y leaf : Leaf K V} {key : K} {value : V}

theorem Leaf.Before.trans {z : Leaf K V} (hxy : x.Before y)
    (hyz : y.Before z) : x.Before z where
  low_lt := hxy.low_lt.trans hyz.low_lt
  lt_low := fun e he => (hxy.lt_low e he).trans hyz.low_lt

/-- Some leaves are replaced by others that lie within the same bounds. -/
theorem LeafRow.replace (h : LeafRow (before ++ (x :: mid ++ after)))
    (hlow : x'.low = x.low) (hid : x'.pageId = x.pageId)
    (hordered : ∀ leaf ∈ x' :: mid', leaf.Ordered)
    (hpairwise : (x' :: mid').Pairwise Leaf.Before)
    (hafter : ∀ leaf ∈ x' :: mid', ∀ next ∈ after, leaf.Before next)
    (hchained : ∀ last, Chained last (x :: mid) →
      Chained last (x' :: mid')) :
    LeafRow (before ++ (x' :: mid' ++ after)) := by
  obtain ⟨hbefore, hrest, hacross⟩ := List.pairwise_append.mp h.pairwise
  obtain ⟨-, hlast, -⟩ := List.pairwise_append.mp hrest
  have hleft : ∀ l ∈ before, l.Before x' := by
    intro l hl
    have hlx := hacross l hl x (by simp)
    exact ⟨hlow ▸ hlx.low_lt, hlow ▸ hlx.lt_low⟩
  have hmid : ∀ l ∈ before, ∀ m ∈ x' :: mid', l.Before m := by
    intro l hl m hm
    rcases List.mem_cons.mp hm with rfl | hm
    · exact hleft l hl
    · exact (hleft l hl).trans ((List.pairwise_cons.mp hpairwise).1 m hm)
  constructor
  · intro leaf hleaf
    rcases List.mem_append.mp hleaf with hleaf | hleaf
    · exact h.ordered leaf (List.mem_append_left _ hleaf)
    rcases List.mem_append.mp hleaf with hleaf | hleaf
    · exact hordered leaf hleaf
    · apply h.ordered leaf
      exact List.mem_append_right _ (List.mem_append_right _ hleaf)
  · refine List.pairwise_append.mpr ⟨hbefore,
      List.pairwise_append.mpr ⟨hpairwise, hlast, hafter⟩, ?_⟩
    intro l hl m hm
    rcases List.mem_append.mp hm with hm | hm
    · exact hmid l hl m hm
    · exact hacross l hl m (List.mem_append_right _ hm)
  · intro leaf hleaf
    cases before with
    | nil =>
        obtain rfl : x' = leaf := by simpa using hleaf
        rw [hlow]
        exact h.head_low x (by simp)
    | cons first before =>
        exact h.head_low leaf (by simpa using hleaf)
  · have hchain := h.chained
    rw [chained_append, chained_append] at hchain ⊢
    refine ⟨?_, hchained _ hchain.2.1, hchain.2.2⟩
    rw [firstPageId_append] at hchain ⊢
    have hfirst : firstPageId (firstPageId INVALID_PAGE_ID after)
        (x' :: mid') = firstPageId (firstPageId INVALID_PAGE_ID after)
          (x :: mid) := hid
    rw [hfirst]
    exact hchain.1

/-- The keys of all leaves increase. -/
theorem LeafRow.sorted (h : LeafRow leaves) : KeySorted (entriesOf leaves) := by
  refine List.pairwise_flatMap.mpr
    ⟨fun leaf hleaf => (h.ordered leaf hleaf).sorted, ?_⟩
  refine h.pairwise.imp_of_mem fun {l m} _ hm hlm e he e' he' => ?_
  have hlt : (e.1 : WithBot K) < e'.1 :=
    (hlm.lt_low e he).trans_le ((h.ordered m hm).low_le e' he')
  exact WithBot.coe_lt_coe.mp hlt

/-- Every key lies within the bounds of a leaf. -/
theorem LeafRow.exists_leaf (h : LeafRow leaves) (hne : leaves ≠ [])
    (key : K) :
    ∃ before leaf after, leaves = before ++ leaf :: after ∧
      (∀ l ∈ before, l.low ≤ (key : WithBot K)) ∧ leaf.low ≤ (key : WithBot K) ∧
      ∀ l ∈ after, (key : WithBot K) < l.low := by
  have hstep : ∀ (first : Leaf K V) (rest : List (Leaf K V)),
      first.low ≤ (key : WithBot K) → (first :: rest).Pairwise Leaf.Before →
        ∃ before leaf after, first :: rest = before ++ leaf :: after ∧
          (∀ l ∈ before, l.low ≤ (key : WithBot K)) ∧ leaf.low ≤ (key : WithBot K) ∧
          ∀ l ∈ after, (key : WithBot K) < l.low := by
    intro first rest hfirst hpairwise
    induction rest generalizing first with
    | nil => exact ⟨[], first, [], rfl, by simp, hfirst, by simp⟩
    | cons second rest ih =>
        obtain ⟨-, hrest⟩ := List.pairwise_cons.mp hpairwise
        by_cases hsecond : second.low ≤ (key : WithBot K)
        · obtain ⟨before, leaf, after, heq, hbefore, hleaf, hafter⟩ :=
            ih second hsecond hrest
          refine ⟨first :: before, leaf, after, by rw [heq]; rfl, ?_, hleaf,
            hafter⟩
          intro l hl
          rcases List.mem_cons.mp hl with rfl | hl
          · exact hfirst
          · exact hbefore l hl
        · refine ⟨[], first, second :: rest, rfl, by simp, hfirst, ?_⟩
          intro l hl
          have hlt : (key : WithBot K) < second.low := not_le.mp hsecond
          rcases List.mem_cons.mp hl with rfl | hl
          · exact hlt
          · exact hlt.trans ((List.pairwise_cons.mp hrest).1 l hl).low_lt
  obtain ⟨first, rest, rfl⟩ := List.exists_cons_of_ne_nil hne
  apply hstep first rest _ h.pairwise
  rw [h.head_low first rfl]
  exact bot_le

/-! ## The leaf of a key -/

/-- The keys before the leaf of a key are below the key, and those behind it
above. -/
theorem LeafRow.lt_of_mem (h : LeafRow (before ++ leaf :: after))
    (hlow : leaf.low ≤ (key : WithBot K)) (hafter : ∀ l ∈ after, (key : WithBot K) < l.low) :
    (∀ e ∈ entriesOf before, e.1 < key) ∧
      ∀ e ∈ entriesOf after, key < e.1 := by
  constructor
  · intro e he
    obtain ⟨l, hl, hel⟩ := mem_entriesOf.mp he
    have hbefore := (List.pairwise_append.mp h.pairwise).2.2 l hl leaf
      List.mem_cons_self
    exact WithBot.coe_lt_coe.mp ((hbefore.lt_low e hel).trans_le hlow)
  · intro e he
    obtain ⟨l, hl, hel⟩ := mem_entriesOf.mp he
    have hordered := h.ordered l
      (List.mem_append_right _ (List.mem_cons_of_mem _ hl))
    exact WithBot.coe_lt_coe.mp
      ((hafter l hl).trans_le (hordered.low_le e hel))

theorem LeafRow.lookupKey_eq (h : LeafRow (before ++ leaf :: after))
    (hlow : leaf.low ≤ (key : WithBot K)) (hafter : ∀ l ∈ after, (key : WithBot K) < l.low) :
    lookupKey key (entriesOf (before ++ leaf :: after)) =
      lookupKey key leaf.array := by
  obtain ⟨hlt, hgt⟩ := h.lt_of_mem hlow hafter
  rw [entriesOf_pieces]
  exact lookupKey_append (fun e he => (hlt e he).ne) fun e he => (hgt e he).ne'

theorem LeafRow.insertKey_eq (h : LeafRow (before ++ leaf :: after))
    (hlow : leaf.low ≤ (key : WithBot K)) (hafter : ∀ l ∈ after, (key : WithBot K) < l.low) :
    insertKey key value (entriesOf (before ++ leaf :: after)) =
      entriesOf (before ++
        { leaf with array := insertKey key value leaf.array } :: after) := by
  obtain ⟨hlt, hgt⟩ := h.lt_of_mem hlow hafter
  rw [entriesOf_pieces, entriesOf_pieces, insertKey_append value hlt hgt]

theorem LeafRow.eraseKey_eq (h : LeafRow (before ++ leaf :: after))
    (hlow : leaf.low ≤ (key : WithBot K)) (hafter : ∀ l ∈ after, (key : WithBot K) < l.low) :
    eraseKey key (entriesOf (before ++ leaf :: after)) =
      entriesOf (before ++
        { leaf with array := eraseKey key leaf.array } :: after) := by
  obtain ⟨hlt, hgt⟩ := h.lt_of_mem hlow hafter
  rw [entriesOf_pieces, entriesOf_pieces,
    eraseKey_append (fun e he => (hlt e he).ne) fun e he => (hgt e he).ne']

/-- A leaf gets other items within its bounds. -/
theorem LeafRow.withArray {array : List (K × V)}
    (h : LeafRow (before ++ leaf :: after)) (hsorted : KeySorted array)
    (hlow : ∀ e ∈ array, leaf.low ≤ e.1)
    (hlt : ∀ e ∈ array, ∀ l ∈ after, e.1 < l.low) :
    LeafRow (before ++ { leaf with array := array } :: after) := by
  refine @LeafRow.replace _ _ _ before [] [] after leaf
    { leaf with array := array } h rfl rfl ?_ ?_ ?_ ?_
  · intro l hl
    obtain rfl := List.mem_singleton.mp hl
    exact ⟨hlow, hsorted⟩
  · exact List.pairwise_singleton _ _
  · intro l hl next hnext
    obtain rfl := List.mem_singleton.mp hl
    obtain ⟨-, hrest, -⟩ := List.pairwise_append.mp h.pairwise
    have hbefore := (List.pairwise_cons.mp hrest).1 next hnext
    exact ⟨hbefore.low_lt, fun e he => hlt e he next hnext⟩
  · exact fun _ hchained => hchained

theorem LeafRow.insert (h : LeafRow (before ++ leaf :: after))
    (hlow : leaf.low ≤ (key : WithBot K)) (hafter : ∀ l ∈ after, (key : WithBot K) < l.low) :
    LeafRow (before ++
      { leaf with array := insertKey key value leaf.array } :: after) := by
  have hleaf := h.ordered leaf (by simp)
  obtain ⟨-, hrest, -⟩ := List.pairwise_append.mp h.pairwise
  apply h.withArray (hleaf.sorted.insertKey key value)
  · intro e he
    rcases mem_insertKey.mp he with rfl | ⟨-, he⟩
    · exact hlow
    · exact hleaf.low_le e he
  · intro e he l hl
    rcases mem_insertKey.mp he with rfl | ⟨-, he⟩
    · exact hafter l hl
    · exact ((List.pairwise_cons.mp hrest).1 l hl).lt_low e he

theorem LeafRow.erase (h : LeafRow (before ++ leaf :: after)) (key : K) :
    LeafRow (before ++
      { leaf with array := eraseKey key leaf.array } :: after) := by
  have hleaf := h.ordered leaf (by simp)
  obtain ⟨-, hrest, -⟩ := List.pairwise_append.mp h.pairwise
  apply h.withArray (hleaf.sorted.eraseKey key)
  · exact fun e he => hleaf.low_le e (mem_eraseKey.mp he).2
  · intro e he l hl
    exact ((List.pairwise_cons.mp hrest).1 l hl).lt_low e
      (mem_eraseKey.mp he).2

/-- The upper items of a leaf move to a new leaf behind it. -/
theorem LeafRow.split {pageId : PageId} {items₁ items₂ : List (K × V)}
    {item : K × V} (h : LeafRow (before ++ leaf :: after))
    (harray : leaf.array = items₁ ++ item :: items₂) (hne : items₁ ≠ []) :
    LeafRow (before ++
      { leaf with nextPageId := pageId, array := items₁ } ::
        ⟨item.1, pageId, leaf.nextPageId, item :: items₂⟩ :: after) := by
  have hleaf := h.ordered leaf (by simp)
  have hsorted := hleaf.sorted
  rw [harray, KeySorted, List.pairwise_append] at hsorted
  obtain ⟨hsorted₁, hsorted₂, hacross⟩ := hsorted
  obtain ⟨-, hrest, -⟩ := List.pairwise_append.mp h.pairwise
  have hnext := (List.pairwise_cons.mp hrest).1
  have hmem₁ : ∀ e ∈ items₁, e ∈ leaf.array := by
    intro e he
    rw [harray]
    exact List.mem_append_left _ he
  have hmem₂ : ∀ e ∈ item :: items₂, e ∈ leaf.array := by
    intro e he
    rw [harray]
    exact List.mem_append_right _ he
  refine @LeafRow.replace _ _ _ before []
    [⟨item.1, pageId, leaf.nextPageId, item :: items₂⟩] after leaf
    { leaf with nextPageId := pageId, array := items₁ } h rfl rfl ?_ ?_ ?_ ?_
  · intro l hl
    rcases List.mem_pair.mp hl with rfl | rfl
    · exact ⟨fun e he => hleaf.low_le e (hmem₁ e he), hsorted₁⟩
    · refine ⟨fun e he => ?_, hsorted₂⟩
      rcases List.mem_cons.mp he with rfl | he
      · exact le_refl _
      · exact (WithBot.coe_lt_coe.mpr
          ((List.pairwise_cons.mp hsorted₂).1 e he)).le
  · rw [List.pairwise_pair]
    have hlt : ∀ e ∈ items₁, (e.1 : WithBot K) < item.1 := fun e he =>
      WithBot.coe_lt_coe.mpr (hacross e he item List.mem_cons_self)
    obtain ⟨first, rest, rfl⟩ := List.exists_cons_of_ne_nil hne
    refine ⟨?_, hlt⟩
    exact (hleaf.low_le first (hmem₁ first List.mem_cons_self)).trans_lt
      (hlt first List.mem_cons_self)
  · intro l hl next hmem
    have hbefore := hnext next hmem
    rcases List.mem_pair.mp hl with rfl | rfl
    · exact ⟨hbefore.low_lt, fun e he => hbefore.lt_low e (hmem₁ e he)⟩
    · exact ⟨hbefore.lt_low item (hmem₂ item List.mem_cons_self),
        fun e he => hbefore.lt_low e (hmem₂ e he)⟩
  · intro last hchained
    exact ⟨rfl, hchained.1, trivial⟩

/-- Two leaves become one. -/
theorem LeafRow.merge {x y : Leaf K V}
    (h : LeafRow (before ++ x :: y :: after)) :
    LeafRow (before ++
      { x with nextPageId := y.nextPageId, array := x.array ++ y.array } ::
        after) := by
  have hx := h.ordered x (by simp)
  have hy := h.ordered y (by simp)
  obtain ⟨-, hrest, -⟩ := List.pairwise_append.mp h.pairwise
  obtain ⟨hxrest, hyrest⟩ := List.pairwise_cons.mp hrest
  have hxy := hxrest y List.mem_cons_self
  have hynext := (List.pairwise_cons.mp hyrest).1
  refine @LeafRow.replace _ _ _ before [y] [] after x
    { x with nextPageId := y.nextPageId, array := x.array ++ y.array } h rfl
    rfl ?_ ?_ ?_ ?_
  · intro l hl
    obtain rfl := List.mem_singleton.mp hl
    constructor
    · intro e he
      rcases List.mem_append.mp he with he | he
      · exact hx.low_le e he
      · exact (hxy.low_lt.trans_le (hy.low_le e he)).le
    · refine List.pairwise_append.mpr ⟨hx.sorted, hy.sorted, ?_⟩
      intro e he e' he'
      exact WithBot.coe_lt_coe.mp
        ((hxy.lt_low e he).trans_le (hy.low_le e' he'))
  · exact List.pairwise_singleton _ _
  · intro l hl next hnext
    obtain rfl := List.mem_singleton.mp hl
    refine ⟨(hxrest next (List.mem_cons_of_mem _ hnext)).low_lt, ?_⟩
    intro e he
    rcases List.mem_append.mp he with he | he
    · exact (hxrest next (List.mem_cons_of_mem _ hnext)).lt_low e he
    · exact (hynext next hnext).lt_low e he
  · exact fun last hchained => ⟨hchained.2.1, trivial⟩

/-- The items of two leaves are divided anew between them. -/
theorem LeafRow.divide {x y : Leaf K V} {items₁ items₂ : List (K × V)}
    {item : K × V} (h : LeafRow (before ++ x :: y :: after))
    (harray : x.array ++ y.array = items₁ ++ item :: items₂)
    (hne : items₁ ≠ []) :
    LeafRow (before ++ { x with array := items₁ } ::
      { y with low := item.1, array := item :: items₂ } :: after) := by
  have hmerged : LeafRow (before ++
      { x with nextPageId := y.nextPageId, array := items₁ ++ item :: items₂ } ::
        after) := by
    rw [← harray]
    exact h.merge
  have hchained := (chained_append.mp h.chained).2
  have hnext : x.nextPageId = y.pageId := hchained.1
  have hx : ({ x with array := items₁ } : Leaf K V) =
      { x with nextPageId := y.pageId, array := items₁ } := by
    rw [← hnext]
  rw [hx]
  exact hmerged.split rfl hne

/-- Two leaves that are merged or balanced hold the same entries as before. -/
theorem LeafRow.balances {nodes : List (Node K V)} (h : LeafRow leaves)
    (hbalances : Node.Balances (leaves.map Node.leaf) nodes)
    (hpos : ∀ node ∈ nodes, 0 < node.size) :
    ∃ leaves', nodes = leaves'.map Node.leaf ∧ LeafRow leaves' ∧
      entriesOf leaves' = entriesOf leaves := by
  generalize hrow : leaves.map Node.leaf = row at hbalances
  cases hbalances with
  | merge before after x y x' key hmerge hlow =>
      obtain ⟨before, l, m, after, rfl, rfl, rfl, rfl, rfl⟩ :=
        exists_leaves_pair hrow
      cases hmerge
      refine ⟨_, ?_, h.merge, ?_⟩
      · rw [List.map_append, List.map_cons]
      · rw [entriesOf_pieces, entriesOf_pieces, entriesOf_cons]
        simp only [List.append_assoc]
  | shiftLeft before after x y x' y' key key' hshift hlow =>
      obtain ⟨before, l, m, after, rfl, rfl, rfl, rfl, rfl⟩ :=
        exists_leaves_pair hrow
      cases hshift with
      | leaf _ _ item next items hm =>
        have harray : l.array ++ m.array =
            (l.array ++ [item]) ++ next :: items := by
          rw [hm, List.append_assoc]
          rfl
        have hdivide := h.divide harray (by simp)
        refine ⟨_, ?_, hdivide, ?_⟩
        · rw [List.map_append, List.map_cons, List.map_cons]
        · rw [entriesOf_pieces, entriesOf_pieces, entriesOf_cons,
            entriesOf_cons, hm]
          simp only [List.append_assoc, List.cons_append, List.nil_append]
  | shiftRight before after x y x' y' key key' hshift hlow =>
      obtain ⟨before, l, m, after, rfl, rfl, rfl, rfl, rfl⟩ :=
        exists_leaves_pair hrow
      cases hshift with
      | leaf _ _ items item hl =>
        have hne : items ≠ [] := by
          have hsize := hpos (.leaf { l with array := items }) (by simp)
          exact List.length_pos_iff.mp hsize
        have harray : l.array ++ m.array = items ++ item :: m.array := by
          rw [hl, List.append_assoc]
          rfl
        have hdivide := h.divide harray hne
        refine ⟨_, ?_, hdivide, ?_⟩
        · rw [List.map_append, List.map_cons, List.map_cons]
        · rw [entriesOf_pieces, entriesOf_pieces, entriesOf_cons,
            entriesOf_cons, hl]
          simp only [List.append_assoc, List.cons_append, List.nil_append]

end Row

end TicketSystem.Database
