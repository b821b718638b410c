import TicketSystem.Database.Page
import TicketSystem.Support.Pieces

/-!
# Search in a page

The binary searches of both kinds of pages, and what `Insert`, `Lookup` and
`RemoveAndDeleteRecord` make of the sorted items of a leaf.
-/

namespace TicketSystem.Database

open TicketSystem.Support

variable {K V : Type}

/-! ## The search in a leaf -/

namespace LeafPage

variable {comparator : K → K → ℤ} {page : LeafPage K V} {key : K}

/-- The loop ends at the bound `c` between the keys below `key` and the
others, which stays between `l` and `r + 1`. -/
theorem keyIndexLoop_eq {c : ℕ}
    (hsplit : ∀ i item, page.array[i]? = some item →
      (0 ≤ comparator item.1 key ↔ c ≤ i))
    {fuel : ℕ} {l r index : ℤ} (hl : 0 ≤ l) (hlc : l ≤ c) (hcr : c ≤ r + 1)
    (hr : r < page.size) (hfuel : r + 1 - l < fuel)
    (hindex : index = if r + 1 = page.size then -1 else r + 1) :
    keyIndexLoop comparator page key fuel l r index =
      some (if c = page.size then -1 else (c : ℤ)) := by
  induction fuel generalizing l r index with
  | zero => omega
  | succ fuel ih =>
      rw [keyIndexLoop]
      by_cases hlr : l ≤ r
      · have hmid : ((l + r) / 2).toNat < page.array.length := by
          rw [size] at hr
          omega
        simp only [if_pos hlr, List.getElem?_eq_getElem hmid]
        have hiff := hsplit _ _ (List.getElem?_eq_getElem hmid)
        by_cases hcmp : 0 ≤ comparator page.array[((l + r) / 2).toNat].1 key
        · have hle := hiff.mp hcmp
          rw [if_pos hcmp]
          apply ih hl hlc
          · omega
          · omega
          · omega
          · rw [if_neg (by omega)]
            omega
        · have hlt := mt hiff.mpr hcmp
          rw [if_neg hcmp]
          apply ih
          · omega
          · omega
          · exact hcr
          · exact hr
          · omega
          · exact hindex
      · rw [if_neg hlr, hindex]
        have hrc : r + 1 = (c : ℤ) := by omega
        rw [hrc]
        norm_cast

/-- `KeyIndex` finds the first item that is not below the key. -/
theorem keyIndex_eq {before after : List (K × V)}
    (harray : page.array = before ++ after)
    (hbefore : ∀ item ∈ before, comparator item.1 key < 0)
    (hafter : ∀ item ∈ after, 0 ≤ comparator item.1 key) :
    page.keyIndex comparator key =
      some (if after = [] then -1 else (before.length : ℤ)) := by
  have hsize : page.size = before.length + after.length := by
    rw [size, harray, List.length_append]
  have hsplit : ∀ i item, page.array[i]? = some item →
      (0 ≤ comparator item.1 key ↔ before.length ≤ i) := by
    intro i item hitem
    rw [harray] at hitem
    rcases lt_or_ge i before.length with hlt | hge
    · rw [List.getElem?_append_left hlt] at hitem
      have hneg := hbefore item (List.mem_of_getElem? hitem)
      constructor
      · intro hnonneg
        omega
      · intro hle
        omega
    · rw [List.getElem?_append_right hge] at hitem
      exact iff_of_true (hafter item (List.mem_of_getElem? hitem)) hge
  rw [keyIndex, keyIndexLoop_eq (c := before.length) hsplit
    (le_refl 0) (by omega) (by omega) (by omega) (by omega) (by simp)]
  congr 1
  by_cases hnil : after = []
  · rw [if_pos hnil, if_pos (by simp [hsize, hnil])]
  · have hpos := List.length_pos_iff.mpr hnil
    rw [if_neg hnil, if_neg (by omega)]

variable [LinearOrder K]

/-- `KeyIndex` on the items below the key, its own item and those above. -/
theorem keyIndex_split (hcmp : Compares comparator)
    {before mid after : List (K × V)}
    (harray : page.array = before ++ mid ++ after)
    (hbefore : ∀ e ∈ before, e.1 < key)
    (hmid : mid = [] ∨ ∃ v, mid = [(key, v)])
    (hafter : ∀ e ∈ after, key < e.1) :
    page.keyIndex comparator key =
      some (if mid ++ after = [] then -1 else (before.length : ℤ)) := by
  rw [List.append_assoc] at harray
  refine keyIndex_eq harray (fun e he => ?_) fun e he => ?_
  · exact (hcmp.neg_iff _ _).mpr (hbefore e he)
  · rw [hcmp.nonneg_iff]
    rcases List.mem_append.mp he with he | he
    · rcases hmid with rfl | ⟨v, rfl⟩
      · cases he
      · rw [List.mem_singleton.mp he]
    · exact (hafter e he).le

theorem lookupKey_split {before mid after : List (K × V)}
    (hbefore : ∀ e ∈ before, e.1 < key) (hafter : ∀ e ∈ after, key < e.1) :
    lookupKey key (before ++ mid ++ after) = lookupKey key mid :=
  lookupKey_append (fun e he => (hbefore e he).ne)
    fun e he => (hafter e he).ne'

theorem insertKey_split {before mid after : List (K × V)} (value : V)
    (hbefore : ∀ e ∈ before, e.1 < key)
    (hmid : mid = [] ∨ ∃ v, mid = [(key, v)])
    (hafter : ∀ e ∈ after, key < e.1) :
    insertKey key value (before ++ mid ++ after) =
      before ++ (key, value) :: after := by
  rw [insertKey_append value hbefore hafter]
  rcases hmid with rfl | ⟨v, rfl⟩ <;> simp [insertKey]

theorem eraseKey_split {before mid after : List (K × V)}
    (hbefore : ∀ e ∈ before, e.1 < key)
    (hmid : mid = [] ∨ ∃ v, mid = [(key, v)])
    (hafter : ∀ e ∈ after, key < e.1) :
    eraseKey key (before ++ mid ++ after) = before ++ after := by
  rw [eraseKey_append (fun e he => (hbefore e he).ne)
    fun e he => (hafter e he).ne']
  rcases hmid with rfl | ⟨v, rfl⟩ <;> simp [eraseKey]

/-- `Lookup` looks the key up. -/
theorem lookup_eq (hcmp : Compares comparator)
    (hsorted : KeySorted page.array) :
    page.lookup comparator key = some (lookupKey key page.array) := by
  obtain ⟨before, mid, after, harray, hbefore, hmid, hafter⟩ :=
    hsorted.exists_split key
  rw [lookup, keyIndex_split hcmp harray hbefore hmid hafter, harray,
    lookupKey_split hbefore hafter, Option.bind_some]
  rcases hmid with rfl | ⟨v, rfl⟩
  · cases after with
    | nil => simp [lookupKey]
    | cons item after =>
        have hne : comparator item.1 key ≠ 0 := by
          rw [ne_eq, hcmp.zero_iff]
          exact (hafter item List.mem_cons_self).ne'
        simp [lookupKey, hne]
  · simp [lookupKey, (hcmp.zero_iff key key).mpr rfl]

/-- `Insert` binds the key, and answers `-1` if it was bound. -/
theorem insert_eq (hcmp : Compares comparator)
    (hsorted : KeySorted page.array) (hsize : page.size < page.maxSize)
    (value : V) :
    page.insert comparator key value =
      some (if (lookupKey key page.array).isSome then -1
        else (page.size : ℤ) + 1,
        { page with array := insertKey key value page.array }) := by
  obtain ⟨before, mid, after, harray, hbefore, hmid, hafter⟩ :=
    hsorted.exists_split key
  rw [insert, if_neg (by omega),
    keyIndex_split hcmp harray hbefore hmid hafter]
  cases page
  subst harray
  rw [lookupKey_split hbefore hafter,
    insertKey_split value hbefore hmid hafter]
  simp only [size, Option.bind_some]
  rcases hmid with rfl | ⟨v, rfl⟩
  · cases after with
    | nil => simp [lookupKey]
    | cons item after =>
        have hne : comparator key item.1 ≠ 0 := by
          rw [ne_eq, hcmp.zero_iff]
          exact (hafter item List.mem_cons_self).ne
        simp [lookupKey, hne, insertIdx_pieces]
        omega
  · simp [lookupKey, (hcmp.zero_iff key key).mpr rfl]

/-- `RemoveAndDeleteRecord` removes the key, and answers `-1` if it was not
bound. -/
theorem removeAndDeleteRecord_eq (hcmp : Compares comparator)
    (hsorted : KeySorted page.array) :
    page.removeAndDeleteRecord comparator key =
      some (if (lookupKey key page.array).isSome then (page.size : ℤ) - 1
        else -1, { page with array := eraseKey key page.array }) := by
  obtain ⟨before, mid, after, harray, hbefore, hmid, hafter⟩ :=
    hsorted.exists_split key
  rw [removeAndDeleteRecord,
    keyIndex_split hcmp harray hbefore hmid hafter]
  cases page
  subst harray
  rw [lookupKey_split hbefore hafter, eraseKey_split hbefore hmid hafter]
  simp only [size, Option.bind_some, remove]
  rcases hmid with rfl | ⟨v, rfl⟩
  · cases after with
    | nil => simp [lookupKey]
    | cons item after =>
        have hne : comparator item.1 key ≠ 0 := by
          rw [ne_eq, hcmp.zero_iff]
          exact (hafter item List.mem_cons_self).ne'
        simp [lookupKey, hne]
  · simp [lookupKey, (hcmp.zero_iff key key).mpr rfl, eraseIdx_pieces]
    omega

end LeafPage

end TicketSystem.Database
