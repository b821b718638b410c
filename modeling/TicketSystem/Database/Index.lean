import TicketSystem.Support.Renaming

/-!
# What an index is for

An index is a finite map from keys to values together with the counter that
`Size` reports.  The counter follows the answers of the tree: an insertion
counts when the key was absent, a deletion when it was present.  `Clear` empties
the map and leaves the counter as it is.
-/

namespace TicketSystem.Database

open TicketSystem.Support

/-- The map an index stores and its `size_`. -/
structure Index (K V : Type*) [LinearOrder K] where
  map : SortedMap K V
  size : ℤ

namespace Index

variable {K V : Type*} [LinearOrder K]

/-- `SearchKey`: the vector of values found, of length zero or one. -/
def searchKey (index : Index K V) (key : K) : List V :=
  (index.map.find? key).toList

/-- `ScanKey`: the values from `key` on while the standby comparator answers
zero. -/
def scanKey (index : Index K V) (key : K)
    (standbyComparator : K → K → ℤ) : List V :=
  (index.map.scan key fun k => standbyComparator key k = 0).map Prod.snd

/-- `InsertEntry`. -/
def insertEntry (index : Index K V) (key : K) (value : V) : Index K V where
  map := index.map.insert key value
  size := index.size + if (index.map.find? key).isNone then 1 else 0

/-- `DeleteEntry`. -/
def deleteEntry (index : Index K V) (key : K) : Index K V where
  map := index.map.erase key
  size := index.size - if (index.map.find? key).isSome then 1 else 0

/-- `Clear`. -/
def clear (index : Index K V) : Index K V :=
  { index with map := SortedMap.empty }

/-- `IsEmpty`. -/
def isEmpty (index : Index K V) : Bool := index.map.entries.isEmpty

/-- An index on a new file, whose counter holds `size`. -/
def new (size : ℤ) : Index K V := ⟨SortedMap.empty, size⟩

theorem searchKey_eq (index : Index K V) (key : K) :
    index.searchKey key = (index.map.find? key).toList := rfl

theorem searchKey_of_find? {index : Index K V} {key : K} {o : Option V}
    (h : index.map.find? key = o) : index.searchKey key = o.toList := by
  rw [searchKey_eq, h]

@[simp] theorem map_new (size : ℤ) :
    (new size : Index K V).map = SortedMap.empty := rfl

@[simp] theorem map_insertEntry (index : Index K V) (key : K) (value : V) :
    (index.insertEntry key value).map = index.map.insert key value := rfl

@[simp] theorem map_deleteEntry (index : Index K V) (key : K) :
    (index.deleteEntry key).map = index.map.erase key := rfl

@[simp] theorem map_clear (index : Index K V) :
    index.clear.map = SortedMap.empty := rfl

theorem isEmpty_iff (index : Index K V) :
    index.isEmpty ↔ ∀ key, index.map.find? key = none := by
  rw [isEmpty, List.isEmpty_iff, SortedMap.entries_eq_nil_iff]

theorem mem_scanKey_iff {index : Index K V} {key : K}
    {standbyComparator : K → K → ℤ}
    (hclosed : ∀ a b, key ≤ a → a ≤ b → standbyComparator key b = 0 →
      standbyComparator key a = 0) {value : V} :
    value ∈ index.scanKey key standbyComparator ↔
      ∃ k, key ≤ k ∧ standbyComparator key k = 0 ∧
        index.map.find? k = some value := by
  rw [scanKey, SortedMap.scan_eq_filter _ _ _ fun a b ha hab hb => by
    simpa using hclosed a b ha hab (by simpa using hb)]
  simp only [List.mem_map, List.mem_filter, decide_eq_true_eq]
  constructor
  · rintro ⟨⟨k, v⟩, ⟨hmem, hle, hzero⟩, rfl⟩
    exact ⟨k, hle, hzero, SortedMap.find?_eq_some_iff.mpr hmem⟩
  · rintro ⟨k, hle, hzero, hfind⟩
    exact ⟨(k, value), ⟨SortedMap.find?_eq_some_iff.mp hfind, hle, hzero⟩,
      rfl⟩

/-- A scan answers in key order. -/
theorem scanKey_pairwise {index : Index K V} {f : V → K}
    (hf : ∀ k v, index.map.find? k = some v → f v = k) (key : K)
    (standbyComparator : K → K → ℤ) :
    (index.scanKey key standbyComparator).Pairwise
      fun a b => f a < f b := by
  have hkey : ∀ e ∈ index.map.scan key
      (fun k => standbyComparator key k = 0), f e.2 = e.1 := fun e he =>
    hf e.1 e.2 (SortedMap.find?_eq_some_iff.mpr
      ((SortedMap.scan_sublist _ _ _).subset he))
  rw [scanKey, List.pairwise_map]
  refine (index.map.sorted.sublist
    (SortedMap.scan_sublist _ _ _)).imp_of_mem ?_
  intro a b ha hb hlt
  rw [hkey a ha, hkey b hb]
  exact hlt

/-! ## Other counters and other keys -/

variable {K' V' : Type*} [LinearOrder K']

/-- The same map with a counter that is off by `n`. -/
def resize (n : ℤ) (index : Index K V) : Index K V :=
  { index with size := index.size + n }

/-- The map under other keys with a counter that is off by `n`. -/
def rename (f : Renaming K K' V V') (n : ℤ) (index : Index K V) :
    Index K' V' :=
  ⟨index.map.rename f, index.size + n⟩

theorem insertEntry_resize (index : Index K V) (n : ℤ) (key : K) (value : V) :
    (index.resize n).insertEntry key value =
      (index.insertEntry key value).resize n := by
  simp only [insertEntry, resize, mk.injEq, true_and]
  exact add_right_comm _ _ _

theorem deleteEntry_resize (index : Index K V) (n : ℤ) (key : K) :
    (index.resize n).deleteEntry key = (index.deleteEntry key).resize n := by
  simp only [deleteEntry, resize, mk.injEq, true_and]
  exact add_sub_right_comm _ _ _

variable (f : Renaming K K' V V') (index : Index K V) (n : ℤ)

theorem searchKey_rename (key : K) :
    (index.rename f n).searchKey (f.key key) =
      (index.searchKey key).map f.value := by
  rw [searchKey, rename, SortedMap.find?_rename, searchKey]
  cases index.map.find? key <;> rfl

theorem insertEntry_rename (key : K) (value : V) :
    (index.rename f n).insertEntry (f.key key) (f.value value) =
      (index.insertEntry key value).rename f n := by
  simp only [insertEntry, rename, SortedMap.insert_rename,
    SortedMap.find?_rename, Option.isNone_map, mk.injEq, true_and]
  exact add_right_comm _ _ _

theorem deleteEntry_rename (key : K) :
    (index.rename f n).deleteEntry (f.key key) =
      (index.deleteEntry key).rename f n := by
  simp only [deleteEntry, rename, SortedMap.erase_rename,
    SortedMap.find?_rename, Option.isSome_map, mk.injEq, true_and]
  exact add_sub_right_comm _ _ _

/-- A scan of the renamed index, if the comparator does not see the
renaming. -/
theorem scanKey_rename (key : K) (standbyComparator : K' → K' → ℤ)
    (standbyComparator' : K → K → ℤ)
    (hcmp : ∀ a, standbyComparator (f.key key) (f.key a) =
      standbyComparator' key a) :
    (index.rename f n).scanKey (f.key key) standbyComparator =
      (index.scanKey key standbyComparator').map f.value := by
  simp only [scanKey, rename, SortedMap.scan_rename, hcmp, List.map_map]
  rfl

end Index

end TicketSystem.Database
