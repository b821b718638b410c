import Mathlib

/-!
# Insertion-ordered maps

A linked hash map keeps one value for each key and is iterated in the order in
which its keys were first inserted.  An assignment to a key that is there keeps
the place of the key.
-/

namespace TicketSystem.Support

variable {K V : Type*} [DecidableEq K]

/-! ## Association lists -/

/-- Replaces the value of the key, or appends the key. -/
def assignKey (k : K) (v : V) : List (K × V) → List (K × V)
  | [] => [(k, v)]
  | e :: es => if e.1 = k then (k, v) :: es else e :: assignKey k v es

theorem keys_assignKey (k : K) (v : V) (es : List (K × V)) :
    (assignKey k v es).map Prod.fst =
      if k ∈ es.map Prod.fst then es.map Prod.fst
      else es.map Prod.fst ++ [k] := by
  induction es with
  | nil => simp [assignKey]
  | cons e es ih =>
      by_cases he : e.1 = k
      · simp [assignKey, he]
      · rw [assignKey, if_neg he, List.map_cons, ih, List.map_cons]
        simp only [List.mem_cons, Ne.symm he, false_or, List.cons_append]
        split <;> rfl

theorem mem_assignKey {k k' : K} {v v' : V} {es : List (K × V)}
    (h : (es.map Prod.fst).Nodup) :
    (k', v') ∈ assignKey k v es ↔
      k' = k ∧ v' = v ∨ k' ≠ k ∧ (k', v') ∈ es := by
  induction es with
  | nil => simp [assignKey]
  | cons e es ih =>
      obtain ⟨hfresh, hnodup⟩ := List.nodup_cons.mp h
      have hlater : ∀ w, (e.1, w) ∉ es := fun w hw =>
        hfresh (List.mem_map.mpr ⟨_, hw, rfl⟩)
      by_cases he : e.1 = k
      · rw [assignKey, if_pos he, List.mem_cons, List.mem_cons,
          Prod.mk.injEq]
        refine or_congr_right ⟨fun hmem => ⟨?_, Or.inr hmem⟩, ?_⟩
        · rintro rfl
          exact hlater v' (he ▸ hmem)
        · rintro ⟨hne, hmem | hmem⟩
          · exact absurd (by rw [← he, ← hmem]) hne
          · exact hmem
      · rw [assignKey, if_neg he, List.mem_cons, ih hnodup, List.mem_cons]
        constructor
        · rintro (rfl | hmem | ⟨hne, hmem⟩)
          · exact Or.inr ⟨he, Or.inl rfl⟩
          · exact Or.inl hmem
          · exact Or.inr ⟨hne, Or.inr hmem⟩
        · rintro (hmem | ⟨hne, hmem | hmem⟩)
          · exact Or.inr (Or.inl hmem)
          · exact Or.inl hmem
          · exact Or.inr (Or.inr ⟨hne, hmem⟩)

/-! ## Linked maps -/

/-- The entries of a map in the order of insertion. -/
structure LinkedMap (K V : Type*) where
  entries : List (K × V)
  nodup : (entries.map Prod.fst).Nodup

namespace LinkedMap

variable {m : LinkedMap K V} {k k' : K} {v v' : V}

/-- The map without entries. -/
def empty : LinkedMap K V where
  entries := []
  nodup := List.nodup_nil

/-- The value of the key. -/
def find? (m : LinkedMap K V) (k : K) : Option V :=
  (m.entries.find? fun e => e.1 = k).map Prod.snd

/-- `m[k] = v`. -/
def assign (m : LinkedMap K V) (k : K) (v : V) : LinkedMap K V where
  entries := assignKey k v m.entries
  nodup := by
    rw [keys_assignKey]
    split
    · exact m.nodup
    · next hk =>
      refine List.Nodup.append m.nodup (List.nodup_singleton k) ?_
      rw [List.disjoint_singleton]
      exact hk

/-- The map without the key. -/
def erase (m : LinkedMap K V) (k : K) : LinkedMap K V where
  entries := m.entries.filter fun e => e.1 ≠ k
  nodup := m.nodup.sublist (List.filter_sublist.map Prod.fst)

theorem mem_entries_iff : (k, v) ∈ m.entries ↔ m.find? k = some v := by
  rw [find?, Option.map_eq_some_iff]
  constructor
  · intro hmem
    obtain ⟨e, he⟩ := Option.isSome_iff_exists.mp
      (List.find?_isSome (p := fun e => decide (e.1 = k)).mpr
        ⟨(k, v), hmem, decide_eq_true rfl⟩)
    have hkey : e.1 = k := by simpa using List.find?_some he
    have hsame : e = (k, v) := List.inj_on_of_nodup_map m.nodup
      (List.mem_of_find?_eq_some he) hmem hkey
    exact ⟨e, he, by rw [hsame]⟩
  · rintro ⟨e, he, rfl⟩
    obtain rfl : e.1 = k := by simpa using List.find?_some he
    exact List.mem_of_find?_eq_some he

@[simp] theorem find?_empty : (empty : LinkedMap K V).find? k = none := rfl

/-- A map in which no key is found has no entries. -/
theorem eq_empty (h : ∀ k, m.find? k = none) : m = empty := by
  obtain ⟨entries, nodup⟩ := m
  cases entries with
  | nil => rfl
  | cons e entries =>
      have hmem : (e.1, e.2) ∈ (mk (e :: entries) nodup).entries :=
        List.mem_cons_self
      rw [mem_entries_iff, h e.1] at hmem
      cases hmem

theorem find?_assign :
    (m.assign k v).find? k' = if k' = k then some v else m.find? k' := by
  apply Option.ext
  intro w
  rw [← mem_entries_iff, assign, mem_assignKey m.nodup]
  by_cases hk : k' = k
  · simp [hk, eq_comm]
  · simp [hk, mem_entries_iff]

theorem find?_erase :
    (m.erase k).find? k' = if k' = k then none else m.find? k' := by
  apply Option.ext
  intro w
  rw [← mem_entries_iff, erase, List.mem_filter, mem_entries_iff]
  by_cases hk : k' = k
  · simp [hk]
  · simp [hk]

@[simp] theorem find?_assign_self : (m.assign k v).find? k = some v := by
  rw [find?_assign, if_pos rfl]

theorem find?_assign_of_ne (h : k' ≠ k) :
    (m.assign k v).find? k' = m.find? k' := by
  rw [find?_assign, if_neg h]

@[simp] theorem find?_erase_self : (m.erase k).find? k = none := by
  rw [find?_erase, if_pos rfl]

theorem find?_erase_of_ne (h : k' ≠ k) :
    (m.erase k).find? k' = m.find? k' := by
  rw [find?_erase, if_neg h]

end LinkedMap

end TicketSystem.Support
