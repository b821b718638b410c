import TicketSystem.Database.TreeSearch
import TicketSystem.Database.Types

/-!
# What the two searches find and what they read

`KeyIndex` is a lower bound that answers `-1` when there is none; `Lookup`
finds the last child whose key is not above the wanted one, and never looks at
the key of the first child.  Both are stated by the signs of the comparator.
-/

namespace TicketSystem.Database

open TicketSystem.Support

variable {K V : Type}

/-- The keys of the items are strictly increasing. -/
def Increasing (comparator : K → K → ℤ) (items : List (K × V)) : Prop :=
  items.Pairwise fun item item' => comparator item.1 item'.1 < 0

/-! ## KeyIndex -/

namespace LeafPage

variable {comparator : K → K → ℤ} {page : LeafPage K V} {key : K}

/-- The indices whose keys the loop of `KeyIndex` reads, in order. -/
def keyIndexLoopReads (comparator : K → K → ℤ) (page : LeafPage K V) (key : K) :
    ℕ → ℤ → ℤ → List ℤ
  | 0, _, _ => []
  | fuel + 1, l, r =>
      if l ≤ r then
        let mid := (l + r) / 2
        mid ::
          match page.array[mid.toNat]? with
          | none => []
          | some item =>
              if 0 ≤ comparator item.1 key then
                keyIndexLoopReads comparator page key fuel l (mid - 1)
              else keyIndexLoopReads comparator page key fuel (mid + 1) r
      else []

/-- The indices whose keys `KeyIndex` reads. -/
def keyIndexReads (comparator : K → K → ℤ) (page : LeafPage K V) (key : K) :
    List ℤ :=
  keyIndexLoopReads comparator page key (page.size + 1) 0 (page.size - 1)

/-- `index` is the least one whose key is not below `key`, or `-1`. -/
def IsKeyIndex (comparator : K → K → ℤ) (page : LeafPage K V) (key : K)
    (index : ℤ) : Prop :=
  (index = -1 ∧ ∀ item ∈ page.array, comparator item.1 key < 0) ∨
    ∃ i item, index = (i : ℕ) ∧ page.array[i]? = some item ∧
      0 ≤ comparator item.1 key ∧
      ∀ j < i, ∀ item', page.array[j]? = some item' →
        comparator item'.1 key < 0

theorem mem_keyIndexLoopReads {fuel : ℕ} {l r i : ℤ}
    (hi : i ∈ keyIndexLoopReads comparator page key fuel l r) :
    l ≤ i ∧ i ≤ r := by
  induction fuel generalizing l r with
  | zero => cases hi
  | succ fuel ih =>
      rw [keyIndexLoopReads] at hi
      by_cases hlr : l ≤ r
      · rw [if_pos hlr] at hi
        rcases List.mem_cons.mp hi with rfl | hi
        · omega
        · split at hi
          · cases hi
          · split_ifs at hi
            · have hbetween := ih hi
              omega
            · have hbetween := ih hi
              omega
      · rw [if_neg hlr] at hi
        cases hi

theorem mem_keyIndexReads {i : ℤ}
    (hi : i ∈ page.keyIndexReads comparator key) : 0 ≤ i ∧ i < page.size := by
  have hbetween := mem_keyIndexLoopReads hi
  omega

/-- The items below `key` come first. -/
theorem exists_keyIndex (hcmp : ThreeWayOrder comparator)
    (hkeys : Increasing comparator page.array) (key : K) :
    ∃ index, page.keyIndex comparator key = some index ∧
      page.IsKeyIndex comparator key index := by
  obtain ⟨before, after, harray, hbefore, hafter⟩ :=
    exists_cut_of_pairwise hkeys (P := fun item => comparator item.1 key < 0)
      fun item item' hlt hneg => hcmp.trans _ _ _ hlt hneg
  have hfound := keyIndex_eq harray hbefore fun item hitem =>
    not_lt.mp (hafter item hitem)
  refine ⟨_, hfound, ?_⟩
  cases after with
  | nil =>
      left
      rw [harray, List.append_nil]
      exact ⟨if_pos rfl, hbefore⟩
  | cons item after =>
      right
      refine ⟨before.length, item, if_neg (List.cons_ne_nil _ _), ?_, ?_, ?_⟩
      · rw [harray]
        exact getElem?_pieces before after item
      · exact not_lt.mp (hafter item List.mem_cons_self)
      · intro j hj item' hitem'
        rw [harray, List.getElem?_append_left hj] at hitem'
        exact hbefore item' (List.mem_of_getElem? hitem')

end LeafPage

/-! ## Lookup -/

namespace InternalPage

variable {comparator : K → K → ℤ} {page : InternalPage K} {key : K}

/-- The indices whose keys the loop of `Lookup` reads, in order. -/
def lookupLoopReads (comparator : K → K → ℤ) (page : InternalPage K) (key : K) :
    ℕ → ℤ → ℤ → List ℤ
  | 0, _, _ => []
  | fuel + 1, l, r =>
      if l ≤ r then
        let mid := (l + r) / 2
        mid ::
          match page.array[mid.toNat]? with
          | none => []
          | some item =>
              if comparator key item.1 < 0 then
                lookupLoopReads comparator page key fuel l (mid - 1)
              else lookupLoopReads comparator page key fuel (mid + 1) r
      else []

/-- The indices whose keys `Lookup` reads. -/
def lookupReads (comparator : K → K → ℤ) (page : InternalPage K) (key : K) :
    List ℤ :=
  lookupLoopReads comparator page key (page.size + 1) 1 (page.size - 1)

/-- `childIndex` is the greatest index `i` with `i = 0` or `K(i) ≤ key`. -/
def IsChildIndex (comparator : K → K → ℤ) (page : InternalPage K) (key : K)
    (childIndex : ℕ) : Prop :=
  (∃ item, page.array[childIndex]? = some item ∧
    (childIndex = 0 ∨ comparator item.1 key ≤ 0)) ∧
  ∀ j item, childIndex < j → page.array[j]? = some item →
    0 < comparator item.1 key

theorem mem_lookupLoopReads {fuel : ℕ} {l r i : ℤ}
    (hi : i ∈ lookupLoopReads comparator page key fuel l r) :
    l ≤ i ∧ i ≤ r := by
  induction fuel generalizing l r with
  | zero => cases hi
  | succ fuel ih =>
      rw [lookupLoopReads] at hi
      by_cases hlr : l ≤ r
      · rw [if_pos hlr] at hi
        rcases List.mem_cons.mp hi with rfl | hi
        · omega
        · split at hi
          · cases hi
          · split_ifs at hi
            · have hbetween := ih hi
              omega
            · have hbetween := ih hi
              omega
      · rw [if_neg hlr] at hi
        cases hi

theorem mem_lookupReads {i : ℤ}
    (hi : i ∈ page.lookupReads comparator key) : 1 ≤ i ∧ i < page.size := by
  have hbetween := mem_lookupLoopReads hi
  omega

/-- The loop of `Lookup` only looks at the keys after the first. -/
theorem lookupLoop_setKeyAt_zero (firstKey : K) {fuel : ℕ} {l r childIndex : ℤ}
    (hl : 1 ≤ l) :
    lookupLoop comparator (page.setKeyAt 0 firstKey) key fuel l r childIndex =
      lookupLoop comparator page key fuel l r childIndex := by
  induction fuel generalizing l r childIndex with
  | zero => rfl
  | succ fuel ih =>
      rw [lookupLoop, lookupLoop]
      by_cases hlr : l ≤ r
      · have hread : (page.setKeyAt 0 firstKey).array[((l + r) / 2).toNat]? =
            page.array[((l + r) / 2).toNat]? := by
          have hne : 0 ≠ ((l + r) / 2).toNat := by omega
          rw [setKeyAt, List.getElem?_modify]
          simp only [hne, if_false]
          cases page.array[((l + r) / 2).toNat]? <;> rfl
        simp only [if_pos hlr, hread]
        cases page.array[((l + r) / 2).toNat]? with
        | none => rfl
        | some item =>
            simp only
            rw [ih hl, ih (by omega)]
      · rw [if_neg hlr, if_neg hlr]

/-- What is written at the first key makes no difference to `Lookup`. -/
theorem lookup_setKeyAt_zero (firstKey : K) :
    (page.setKeyAt 0 firstKey).lookup comparator key =
      page.lookup comparator key := by
  have hsize : (page.setKeyAt 0 firstKey).size = page.size := by
    rw [size, setKeyAt, List.length_modify, size]
  have hvalue : ∀ index, (page.setKeyAt 0 firstKey).valueAt index =
      page.valueAt index := by
    intro index
    rw [valueAt, setKeyAt, List.getElem?_modify, valueAt]
    cases page.array[index]? with
    | none => rfl
    | some item =>
        split_ifs <;> rfl
  rw [lookup, lookup, hsize, lookupLoop_setKeyAt_zero firstKey (le_refl 1)]
  simp only [hvalue]

/-- The keys after the first that are not above `key` come first. -/
theorem exists_lookup (hcmp : ThreeWayOrder comparator)
    (hkeys : Increasing comparator page.array.tail) (hpage : page.array ≠ [])
    (key : K) :
    ∃ childIndex item, page.IsChildIndex comparator key childIndex ∧
      page.array[childIndex]? = some item ∧
      page.lookup comparator key = some item.2 := by
  obtain ⟨first, rest, harray⟩ := List.exists_cons_of_ne_nil hpage
  rw [harray, List.tail_cons] at hkeys
  obtain ⟨before, after, hrest, hbefore, hafter⟩ :=
    exists_cut_of_pairwise hkeys (P := fun item => 0 ≤ comparator key item.1)
      fun item item' hlt hnonneg => by
        by_contra hneg
        have htrans := hcmp.trans _ _ _ (not_le.mp hneg) hlt
        omega
  have hlength : rest.length = before.length + after.length := by
    rw [hrest, List.length_append]
  have hsize : page.size = rest.length + 1 := by
    rw [size, harray, List.length_cons]
  have hsplit : ∀ i item, 1 ≤ i → page.array[i]? = some item →
      (comparator key item.1 < 0 ↔ before.length < i) := by
    intro i item hi hitem
    obtain ⟨j, rfl⟩ : ∃ j, i = j + 1 := ⟨i - 1, by omega⟩
    rw [harray, List.getElem?_cons_succ, hrest] at hitem
    by_cases hj : j < before.length
    · rw [List.getElem?_append_left hj] at hitem
      have hnonneg := hbefore item (List.mem_of_getElem? hitem)
      apply iff_of_false
      · exact not_lt.mpr hnonneg
      · omega
    · rw [List.getElem?_append_right (not_lt.mp hj)] at hitem
      have hneg := hafter item (List.mem_of_getElem? hitem)
      apply iff_of_true
      · exact not_le.mp hneg
      · omega
  -- the child behind which the keys are above `key`
  have hindex : before.length < page.array.length := by
    rw [size] at hsize
    omega
  refine ⟨before.length, page.array[before.length], ⟨?_, ?_⟩,
    List.getElem?_eq_getElem hindex, ?_⟩
  · refine ⟨_, List.getElem?_eq_getElem hindex, ?_⟩
    by_cases hzero : before.length = 0
    · exact Or.inl hzero
    · right
      have hnot := mt (hsplit before.length _ (by omega)
        (List.getElem?_eq_getElem hindex)).mp (lt_irrefl _)
      rw [hcmp.swap] at hnot
      exact not_lt.mp hnot
  · intro j item hj hitem
    rw [← hcmp.swap]
    exact (hsplit j item (by omega) hitem).mpr hj
  · rw [lookup, lookupLoop_eq hsplit (le_refl 1) (by omega) (by omega)
      (by omega) (by omega), Option.bind_some, valueAt, Int.toNat_natCast,
      List.getElem?_eq_getElem hindex, Option.map_some]

end InternalPage

/-! ## Both searches -/

/-- On increasing keys both searches find what they are for, and read keys only
inside of the node, `Lookup` never the one of its first child. -/
theorem searches_find {comparator : K → K → ℤ}
    (hcmp : ThreeWayOrder comparator) (leaf : LeafPage K V)
    (page : InternalPage K) (key : K)
    (hleaf : Increasing comparator leaf.array)
    (hkeys : Increasing comparator page.array.tail)
    (hpage : page.array ≠ []) :
    ((∃ index, leaf.keyIndex comparator key = some index ∧
        leaf.IsKeyIndex comparator key index) ∧
      ∀ i ∈ leaf.keyIndexReads comparator key, 0 ≤ i ∧ i < leaf.size) ∧
    (∃ childIndex item, page.IsChildIndex comparator key childIndex ∧
        page.array[childIndex]? = some item ∧
        page.lookup comparator key = some item.2) ∧
      (∀ i ∈ page.lookupReads comparator key, 1 ≤ i ∧ i < page.size) ∧
      ∀ firstKey, (page.setKeyAt 0 firstKey).lookup comparator key =
        page.lookup comparator key := by
  refine ⟨⟨?_, ?_⟩, ?_, ?_, ?_⟩
  · exact LeafPage.exists_keyIndex hcmp hleaf key
  · intro i hi
    exact LeafPage.mem_keyIndexReads hi
  · exact InternalPage.exists_lookup hcmp hkeys hpage key
  · intro i hi
    exact InternalPage.mem_lookupReads hi
  · exact InternalPage.lookup_setKeyAt_zero

theorem searches_find_between :
    (∃ index, LeafPage.keyIndex compareInt
        ⟨4, 1, 2, -1, [(1, 'a'), (3, 'b')]⟩ 2 = some index ∧
      LeafPage.IsKeyIndex compareInt
        ⟨4, 1, 2, -1, [(1, 'a'), (3, 'b')]⟩ 2 index) ∧
    ∃ childIndex, ∃ item : ℤ × PageId,
      InternalPage.IsChildIndex compareInt ⟨4, -1, 1, [(0, 2), (3, 4)]⟩ 2
        childIndex ∧
      InternalPage.lookup compareInt ⟨4, -1, 1, [(0, 2), (3, 4)]⟩ 2 =
        some item.2 := by
  obtain ⟨⟨hindex, -⟩, ⟨childIndex, item, hchild, -, hlookup⟩, -⟩ :=
    searches_find compareInt_compares.threeWayOrder
      ⟨4, 1, 2, -1, [(1, 'a'), (3, 'b')]⟩ ⟨4, -1, 1, [(0, 2), (3, 4)]⟩ 2
      (by simp [Increasing, compareInt]) (by simp [Increasing]) (by simp)
  exact ⟨hindex, childIndex, item, hchild, hlookup⟩

/-- A page that was only initialised has no child to find: `Lookup` reads the
value at index `-1`. -/
theorem lookup_init_reads_outside :
    ¬ ∀ (page : InternalPage ℤ) (key : ℤ), page.size ≤ page.maxSize →
      Increasing compareInt page.array.tail →
        ∃ childIndex item, page.IsChildIndex compareInt key childIndex ∧
          page.array[childIndex]? = some item ∧
          page.lookup compareInt key = some item.2 := by
  intro h
  obtain ⟨childIndex, item, -, hitem, -⟩ :=
    h (InternalPage.init 0 (-1) 4) 0 (by decide) List.Pairwise.nil
  simp [InternalPage.init] at hitem

end TicketSystem.Database
