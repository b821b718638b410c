import Mathlib

/-!
# Finite maps kept as key-sorted lists

An association list whose keys increase strictly represents a finite map in
exactly one way.  The list operations below are total on arbitrary lists; the
structure `SortedMap` carries the ordering proof, so that two maps with the
same bindings are equal and a range of keys is a contiguous piece of the list.
-/

namespace TicketSystem.Support

variable {K V : Type*}

/-- Keys increase strictly along the list. -/
def KeySorted [LT K] (entries : List (K × V)) : Prop :=
  entries.Pairwise fun a b => a.1 < b.1

section ListOperations

variable [LinearOrder K]

/-- The value bound to `k`, if there is one. -/
def lookupKey (k : K) (entries : List (K × V)) : Option V :=
  (entries.find? fun e => e.1 = k).map Prod.snd

/-- Bind `k` to `v`, replacing an earlier binding of `k`. -/
def insertKey (k : K) (v : V) (entries : List (K × V)) : List (K × V) :=
  entries.filter (fun e => e.1 < k) ++ (k, v) ::
    entries.filter (fun e => k < e.1)

/-- Drop the binding of `k`. -/
def eraseKey (k : K) (entries : List (K × V)) : List (K × V) :=
  entries.filter fun e => e.1 ≠ k

theorem mem_insertKey
    {k : K} {v : V} {entries : List (K × V)} {e : K × V} :
    e ∈ insertKey k v entries ↔ e = (k, v) ∨ e.1 ≠ k ∧ e ∈ entries := by
  simp only [insertKey, List.mem_append, List.mem_filter, List.mem_cons,
    decide_eq_true_eq]
  constructor
  · rintro (⟨hmem, hlt⟩ | rfl | ⟨hmem, hlt⟩)
    · exact Or.inr ⟨ne_of_lt hlt, hmem⟩
    · exact Or.inl rfl
    · exact Or.inr ⟨ne_of_gt hlt, hmem⟩
  · rintro (rfl | ⟨hne, hmem⟩)
    · exact Or.inr (Or.inl rfl)
    · rcases lt_or_gt_of_ne hne with hlt | hgt
      · exact Or.inl ⟨hmem, hlt⟩
      · exact Or.inr (Or.inr ⟨hmem, hgt⟩)

theorem mem_eraseKey
    {k : K} {entries : List (K × V)} {e : K × V} :
    e ∈ eraseKey k entries ↔ e.1 ≠ k ∧ e ∈ entries := by
  simp [eraseKey, and_comm]

theorem KeySorted.insertKey
    {entries : List (K × V)} (h : KeySorted entries) (k : K) (v : V) :
    KeySorted (insertKey k v entries) := by
  unfold KeySorted Support.insertKey
  rw [List.pairwise_append, List.pairwise_cons]
  refine ⟨h.filter _, ⟨?_, h.filter _⟩, ?_⟩
  · intro e he
    simpa using (List.mem_filter.mp he).2
  · intro a ha b hb
    have hak : a.1 < k := by simpa using (List.mem_filter.mp ha).2
    rcases List.mem_cons.mp hb with rfl | hb
    · exact hak
    · exact hak.trans (by simpa using (List.mem_filter.mp hb).2)

theorem KeySorted.eraseKey
    {entries : List (K × V)} (h : KeySorted entries) (k : K) :
    KeySorted (eraseKey k entries) :=
  h.filter _

/-- Along a sorted list a key occurs at most once. -/
theorem KeySorted.eq_of_mem
    {entries : List (K × V)} (h : KeySorted entries) {k : K} {v w : V}
    (hv : (k, v) ∈ entries) (hw : (k, w) ∈ entries) : v = w := by
  induction entries with
  | nil => cases hv
  | cons e rest ih =>
      obtain ⟨hhead, htail⟩ := List.pairwise_cons.mp h
      rcases List.mem_cons.mp hv with rfl | hv'
      · rcases List.mem_cons.mp hw with heq | hw'
        · exact (Prod.mk.inj heq).2.symm
        · exact absurd (hhead _ hw') (lt_irrefl _)
      · rcases List.mem_cons.mp hw with rfl | hw'
        · exact absurd (hhead _ hv') (lt_irrefl _)
        · exact ih htail hv' hw'

theorem KeySorted.lookupKey_eq_some_iff
    {entries : List (K × V)} (h : KeySorted entries) {k : K} {v : V} :
    lookupKey k entries = some v ↔ (k, v) ∈ entries := by
  unfold lookupKey
  constructor
  · intro hlookup
    obtain ⟨⟨k', v'⟩, hfind, rfl⟩ := Option.map_eq_some_iff.mp hlookup
    have hk := List.find?_some hfind
    obtain rfl : k' = k := of_decide_eq_true hk
    exact List.mem_of_find?_eq_some hfind
  · intro hmem
    have hsome : (entries.find? fun e => decide (e.1 = k)).isSome := by
      rw [List.find?_isSome]
      exact ⟨(k, v), hmem, by simp⟩
    obtain ⟨⟨k', w⟩, he⟩ := Option.isSome_iff_exists.mp hsome
    have hk := List.find?_some he
    obtain rfl : k' = k := of_decide_eq_true hk
    rw [he, Option.map_some,
      h.eq_of_mem (List.mem_of_find?_eq_some he) hmem]

theorem KeySorted.lookupKey_eq_none_iff
    {entries : List (K × V)} {k : K} :
    lookupKey k entries = none ↔ ∀ v, (k, v) ∉ entries := by
  simp only [lookupKey, Option.map_eq_none_iff, List.find?_eq_none,
    decide_eq_true_eq]
  constructor
  · intro h v hv
    exact h (k, v) hv rfl
  · rintro h ⟨k', v⟩ hmem rfl
    exact h v hmem

theorem KeySorted.nodup {entries : List (K × V)} (h : KeySorted entries) :
    entries.Nodup :=
  h.imp fun hlt heq => absurd (heq ▸ hlt) (lt_irrefl _)

/-- Two sorted lists with the same members are the same list. -/
theorem KeySorted.ext
    {xs ys : List (K × V)} (hxs : KeySorted xs) (hys : KeySorted ys)
    (hmem : ∀ e, e ∈ xs ↔ e ∈ ys) : xs = ys := by
  refine List.Perm.eq_of_pairwise ?_ hxs hys
    ((List.perm_ext_iff_of_nodup hxs.nodup hys.nodup).mpr hmem)
  intro a b _ _ hab hba
  exact absurd (hab.trans hba) (lt_irrefl _)

/-- A sorted list splits at every key into what lies below the key, its
binding if there is one, and what lies above. -/
theorem KeySorted.exists_split
    {entries : List (K × V)} (h : KeySorted entries) (k : K) :
    ∃ before mid after, entries = before ++ mid ++ after ∧
      (∀ e ∈ before, e.1 < k) ∧ (mid = [] ∨ ∃ v, mid = [(k, v)]) ∧
      ∀ e ∈ after, k < e.1 := by
  induction entries with
  | nil => exact ⟨[], [], [], rfl, by simp, Or.inl rfl, by simp⟩
  | cons e rest ih =>
      obtain ⟨hhead, htail⟩ := List.pairwise_cons.mp h
      rcases lt_trichotomy e.1 k with hlt | heq | hgt
      · obtain ⟨before, mid, after, rfl, hbefore, hmid, hafter⟩ := ih htail
        refine ⟨e :: before, mid, after, rfl, ?_, hmid, hafter⟩
        intro e' he'
        rcases List.mem_cons.mp he' with rfl | he'
        · exact hlt
        · exact hbefore e' he'
      · exact ⟨[], [e], rest, rfl, by simp, Or.inr ⟨e.2, by rw [← heq]⟩,
          heq ▸ hhead⟩
      · refine ⟨[], [], e :: rest, rfl, by simp, Or.inl rfl, ?_⟩
        intro e' he'
        rcases List.mem_cons.mp he' with rfl | he'
        · exact hgt
        · exact hgt.trans (hhead e' he')

/-- Insertion into a sorted list acts on the piece that can hold the key. -/
theorem insertKey_append
    {before mid after : List (K × V)} {k : K} (v : V)
    (hbefore : ∀ e ∈ before, e.1 < k) (hafter : ∀ e ∈ after, k < e.1) :
    insertKey k v (before ++ mid ++ after) =
      before ++ insertKey k v mid ++ after := by
  have hb : before.filter (fun e => e.1 < k) = before :=
    List.filter_eq_self.mpr fun e he => by simpa using hbefore e he
  have hb' : before.filter (fun e => k < e.1) = [] :=
    List.filter_eq_nil_iff.mpr fun e he => by
      simpa using (hbefore e he).le
  have ha : after.filter (fun e => k < e.1) = after :=
    List.filter_eq_self.mpr fun e he => by simpa using hafter e he
  have ha' : after.filter (fun e => e.1 < k) = [] :=
    List.filter_eq_nil_iff.mpr fun e he => by
      simpa using (hafter e he).le
  simp [insertKey, hb, hb', ha, ha']

/-- Erasing from a sorted list acts on the piece that can hold the key. -/
theorem eraseKey_append
    {before mid after : List (K × V)} {k : K}
    (hbefore : ∀ e ∈ before, e.1 ≠ k) (hafter : ∀ e ∈ after, e.1 ≠ k) :
    eraseKey k (before ++ mid ++ after) =
      before ++ eraseKey k mid ++ after := by
  have hb : before.filter (fun e => e.1 ≠ k) = before :=
    List.filter_eq_self.mpr fun e he => by simpa using hbefore e he
  have ha : after.filter (fun e => e.1 ≠ k) = after :=
    List.filter_eq_self.mpr fun e he => by simpa using hafter e he
  simp only [eraseKey, List.filter_append, hb, ha]

/-- Lookup in a sorted list only sees the piece that can hold the key. -/
theorem lookupKey_append
    {before mid after : List (K × V)} {k : K}
    (hbefore : ∀ e ∈ before, e.1 ≠ k) (hafter : ∀ e ∈ after, e.1 ≠ k) :
    lookupKey k (before ++ mid ++ after) = lookupKey k mid := by
  have hb : before.find? (fun e => e.1 = k) = none :=
    List.find?_eq_none.mpr fun e he => by simpa using hbefore e he
  have ha : after.find? (fun e => e.1 = k) = none :=
    List.find?_eq_none.mpr fun e he => by simpa using hafter e he
  simp [lookupKey, List.find?_append, hb, ha]

/-- A new binding makes the list longer, a replaced one does not. -/
theorem length_insertKey
    {entries : List (K × V)} (h : KeySorted entries) (k : K) (v : V) :
    (insertKey k v entries).length =
      if (lookupKey k entries).isSome then entries.length
      else entries.length + 1 := by
  obtain ⟨before, mid, after, rfl, hbefore, hmid, hafter⟩ := h.exists_split k
  rw [insertKey_append v hbefore hafter,
    lookupKey_append (fun e he => (hbefore e he).ne)
      fun e he => (hafter e he).ne']
  rcases hmid with rfl | ⟨v', rfl⟩
  · simp [insertKey, lookupKey]
    omega
  · simp [insertKey, lookupKey]

/-- Without a binding there is nothing to erase. -/
theorem eraseKey_eq_self {entries : List (K × V)} {k : K}
    (h : lookupKey k entries = none) : eraseKey k entries = entries := by
  rw [lookupKey, Option.map_eq_none_iff, List.find?_eq_none] at h
  exact List.filter_eq_self.mpr fun e he => by simpa using h e he

theorem length_eraseKey
    {entries : List (K × V)} (h : KeySorted entries) (k : K) :
    (eraseKey k entries).length =
      if (lookupKey k entries).isSome then entries.length - 1
      else entries.length := by
  obtain ⟨before, mid, after, rfl, hbefore, hmid, hafter⟩ := h.exists_split k
  rw [eraseKey_append (fun e he => (hbefore e he).ne)
      fun e he => (hafter e he).ne',
    lookupKey_append (fun e he => (hbefore e he).ne)
      fun e he => (hafter e he).ne']
  rcases hmid with rfl | ⟨v', rfl⟩
  · simp [eraseKey, lookupKey]
  · simp [eraseKey, lookupKey]

end ListOperations

/-- A finite map, as the sorted list of its bindings. -/
structure SortedMap (K V : Type*) [LinearOrder K] where
  entries : List (K × V)
  sorted : KeySorted entries

namespace SortedMap

variable [LinearOrder K]

def empty : SortedMap K V := ⟨[], List.Pairwise.nil⟩

def find? (m : SortedMap K V) (k : K) : Option V := lookupKey k m.entries

def insert (m : SortedMap K V) (k : K) (v : V) : SortedMap K V :=
  ⟨insertKey k v m.entries, m.sorted.insertKey k v⟩

def erase (m : SortedMap K V) (k : K) : SortedMap K V :=
  ⟨eraseKey k m.entries, m.sorted.eraseKey k⟩

/-- The bindings from the first key not below `k` on, as long as `inRange`
accepts their keys. -/
def scan (m : SortedMap K V) (k : K) (inRange : K → Bool) : List (K × V) :=
  (m.entries.dropWhile fun e => e.1 < k).takeWhile fun e => inRange e.1

theorem find?_eq_some_iff {m : SortedMap K V} {k : K} {v : V} :
    m.find? k = some v ↔ (k, v) ∈ m.entries :=
  m.sorted.lookupKey_eq_some_iff

theorem find?_eq_none_iff {m : SortedMap K V} {k : K} :
    m.find? k = none ↔ ∀ v, (k, v) ∉ m.entries :=
  KeySorted.lookupKey_eq_none_iff

@[simp] theorem find?_empty (k : K) :
    (empty : SortedMap K V).find? k = none := rfl

/-- Maps with the same bindings are equal. -/
theorem ext_find? {m₁ m₂ : SortedMap K V}
    (h : ∀ k, m₁.find? k = m₂.find? k) : m₁ = m₂ := by
  obtain ⟨xs, hxs⟩ := m₁
  obtain ⟨ys, hys⟩ := m₂
  congr 1
  refine hxs.ext hys ?_
  rintro ⟨k, v⟩
  rw [← hxs.lookupKey_eq_some_iff, ← hys.lookupKey_eq_some_iff]
  exact Eq.congr_left (h k)

theorem find?_insert (m : SortedMap K V) (k k' : K) (v : V) :
    (m.insert k v).find? k' = if k' = k then some v else m.find? k' := by
  split
  next h =>
    rw [find?_eq_some_iff]
    exact mem_insertKey.mpr (Or.inl (by rw [h]))
  next h =>
    refine Option.ext fun w => ?_
    rw [find?_eq_some_iff, find?_eq_some_iff]
    simp only [insert, mem_insertKey, Prod.mk.injEq]
    tauto

@[simp] theorem find?_insert_self (m : SortedMap K V) (k : K) (v : V) :
    (m.insert k v).find? k = some v := by
  simp [find?_insert]

theorem find?_insert_of_ne (m : SortedMap K V) {k k' : K} (v : V)
    (h : k' ≠ k) : (m.insert k v).find? k' = m.find? k' := by
  simp [find?_insert, h]

theorem find?_erase (m : SortedMap K V) (k k' : K) :
    (m.erase k).find? k' = if k' = k then none else m.find? k' := by
  split
  next h =>
    rw [find?_eq_none_iff]
    intro v hv
    exact (mem_eraseKey.mp hv).1 h
  next h =>
    refine Option.ext fun w => ?_
    rw [find?_eq_some_iff, find?_eq_some_iff]
    simp only [erase, mem_eraseKey]
    tauto

theorem entries_eq_nil_iff {m : SortedMap K V} :
    m.entries = [] ↔ ∀ k, m.find? k = none := by
  constructor
  · intro h k
    simp [find?, lookupKey, h]
  · intro h
    refine List.eq_nil_iff_forall_not_mem.mpr ?_
    rintro ⟨k, v⟩ hmem
    exact find?_eq_none_iff.mp (h k) v hmem

/-- The sum of a quantity over all values. -/
def sumValues (m : SortedMap K V) (f : V → ℤ) : ℤ :=
  (m.entries.map fun e => f e.2).sum

theorem insert_entries_perm (m : SortedMap K V) (k : K) (v : V) :
    (m.insert k v).entries.Perm ((k, v) :: (m.erase k).entries) := by
  rw [List.perm_ext_iff_of_nodup (m.insert k v).sorted.nodup]
  · intro e
    rw [List.mem_cons]
    exact mem_insertKey.trans (or_congr_right mem_eraseKey.symm)
  · rw [List.nodup_cons]
    refine ⟨fun hmem => ?_, (m.erase k).sorted.nodup⟩
    exact (mem_eraseKey.mp hmem).1 rfl

theorem entries_perm_of_find? {m : SortedMap K V} {k : K} {v : V}
    (h : m.find? k = some v) :
    m.entries.Perm ((k, v) :: (m.erase k).entries) := by
  rw [List.perm_ext_iff_of_nodup m.sorted.nodup]
  · rintro ⟨k', w⟩
    rw [List.mem_cons]
    refine Iff.trans ?_ (or_congr_right mem_eraseKey.symm)
    rw [← find?_eq_some_iff]
    by_cases hk : k' = k
    · subst hk
      simp [h, eq_comm]
    · simp [hk, find?_eq_some_iff]
  · rw [List.nodup_cons]
    refine ⟨fun hmem => ?_, (m.erase k).sorted.nodup⟩
    exact (mem_eraseKey.mp hmem).1 rfl

theorem erase_eq_self {m : SortedMap K V} {k : K} (h : m.find? k = none) :
    m.erase k = m := by
  refine ext_find? fun k' => ?_
  rw [find?_erase]
  by_cases hk : k' = k
  · rw [if_pos hk, hk, h]
  · rw [if_neg hk]

/-- An insertion replaces the contribution of the old value by that of the
new one. -/
theorem sumValues_insert (m : SortedMap K V) (k : K) (v : V) (f : V → ℤ) :
    (m.insert k v).sumValues f =
      m.sumValues f - (m.find? k).elim 0 f + f v := by
  have hnew := ((m.insert_entries_perm k v).map fun e => f e.2).sum_eq
  cases hfind : m.find? k with
  | none =>
      rw [erase_eq_self hfind] at hnew
      simp only [sumValues, hnew, List.map_cons, List.sum_cons,
        Option.elim_none]
      ring
  | some w =>
      have hold := ((entries_perm_of_find? hfind).map fun e => f e.2).sum_eq
      simp only [sumValues, hnew, hold, List.map_cons, List.sum_cons,
        Option.elim_some]
      ring

theorem sumValues_eq_zero {m : SortedMap K V} {f : V → ℤ}
    (h : ∀ k v, m.find? k = some v → f v = 0) : m.sumValues f = 0 := by
  refine List.sum_eq_zero fun x hx => ?_
  obtain ⟨⟨k, v⟩, hmem, rfl⟩ := List.mem_map.mp hx
  exact h k v (find?_eq_some_iff.mpr hmem)

theorem sumValues_nonneg {m : SortedMap K V} {f : V → ℤ}
    (h : ∀ k v, m.find? k = some v → 0 ≤ f v) : 0 ≤ m.sumValues f := by
  refine List.sum_nonneg fun x hx => ?_
  obtain ⟨⟨k, v⟩, hmem, rfl⟩ := List.mem_map.mp hx
  exact h k v (find?_eq_some_iff.mpr hmem)

theorem scan_sublist (m : SortedMap K V) (k : K) (inRange : K → Bool) :
    (m.scan k inRange).Sublist m.entries :=
  (List.takeWhile_sublist _).trans (List.dropWhile_sublist _)

/-- The bindings from a key on are the last ones. -/
theorem dropWhile_eq_filter {entries : List (K × V)} (h : KeySorted entries)
    (k : K) :
    (entries.dropWhile fun e => e.1 < k) = entries.filter fun e => k ≤ e.1 := by
  induction entries with
  | nil => rfl
  | cons e rest ih =>
      obtain ⟨hhead, htail⟩ := List.pairwise_cons.mp h
      by_cases hlt : e.1 < k
      · rw [List.dropWhile_cons_of_pos (by simpa using hlt), ih htail,
          List.filter_cons_of_neg (by simpa using hlt)]
      · rw [List.dropWhile_cons_of_neg (by simpa using hlt)]
        have hle : k ≤ e.1 := not_lt.mp hlt
        refine (List.filter_eq_self.mpr fun x hx => ?_).symm
        obtain rfl | hx := List.mem_cons.mp hx
        · simpa using hle
        · simpa using hle.trans (hhead x hx).le

/-- On keys from `k` on, a downward closed test accepts a prefix of a sorted
list. -/
theorem takeWhile_eq_filter_of_closed
    {entries : List (K × V)} (hsorted : KeySorted entries)
    {k : K} {inRange : K → Bool}
    (hclosed : ∀ a b, k ≤ a → a ≤ b → inRange b → inRange a)
    (hge : ∀ e ∈ entries, k ≤ e.1) :
    entries.takeWhile (fun e => inRange e.1) =
      entries.filter fun e => k ≤ e.1 ∧ inRange e.1 := by
  induction entries with
  | nil => rfl
  | cons e rest ih =>
      obtain ⟨hhead, htail⟩ := List.pairwise_cons.mp hsorted
      have hke : k ≤ e.1 := hge e (by simp)
      cases hin : inRange e.1 with
      | true =>
          simp only [List.takeWhile_cons, List.filter_cons, hin, hke,
            and_self, decide_true, if_true]
          rw [ih htail fun x hx => hge x (by simp [hx])]
      | false =>
          simp only [List.takeWhile_cons, List.filter_cons, hin,
            Bool.false_eq_true, and_false, decide_false, if_false]
          refine (List.filter_eq_nil_iff.mpr ?_).symm
          intro x hx hacc
          have hxin : inRange x.1 = true := by
            simpa [hge x (by simp [hx])] using hacc
          have := hclosed _ _ hke (hhead x hx).le hxin
          simp [hin] at this

/-- If acceptance is downward closed among the keys from `k` on, a scan
returns exactly the accepted bindings from `k` on, in key order. -/
theorem scan_eq_filter (m : SortedMap K V) (k : K) (inRange : K → Bool)
    (hclosed : ∀ a b, k ≤ a → a ≤ b → inRange b → inRange a) :
    m.scan k inRange =
      m.entries.filter fun e => k ≤ e.1 ∧ inRange e.1 := by
  obtain ⟨entries, hsorted⟩ := m
  simp only [scan]
  induction entries with
  | nil => rfl
  | cons e rest ih =>
      obtain ⟨hhead, htail⟩ := List.pairwise_cons.mp hsorted
      by_cases hlt : e.1 < k
      · rw [List.dropWhile_cons_of_pos (by simpa using hlt), ih htail,
          List.filter_cons_of_neg (by simp [hlt])]
      · rw [List.dropWhile_cons_of_neg (by simpa using hlt)]
        have hke : k ≤ e.1 := not_lt.mp hlt
        refine takeWhile_eq_filter_of_closed hsorted hclosed ?_
        intro x hx
        rcases List.mem_cons.mp hx with rfl | hx
        · exact hke
        · exact hke.trans (hhead x hx).le

end SortedMap

end TicketSystem.Support
