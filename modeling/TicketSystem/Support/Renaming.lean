import TicketSystem.Support.SortedMap

/-!
# Renaming the keys of a sorted map

A strictly increasing renaming of keys keeps a map sorted.  Every operation on
the renamed map with a renamed key is the operation on the map, renamed.
-/

namespace TicketSystem.Support

variable {K K' V V' : Type*} [LinearOrder K] [LinearOrder K']

/-- A strictly increasing renaming of keys, and what it does to the values. -/
structure Renaming (K K' V V' : Type*) [LinearOrder K] [LinearOrder K'] where
  key : K → K'
  value : V → V'
  strictMono : StrictMono key

namespace Renaming

def entry (f : Renaming K K' V V') (e : K × V) : K' × V' :=
  (f.key e.1, f.value e.2)

end Renaming

namespace SortedMap

variable (f : Renaming K K' V V') (m : SortedMap K V)

def rename : SortedMap K' V' where
  entries := m.entries.map f.entry
  sorted := List.pairwise_map.mpr (m.sorted.imp fun h => f.strictMono h)

@[simp] theorem rename_empty :
    (empty : SortedMap K V).rename f = empty := rfl

theorem find?_rename (k : K) :
    (m.rename f).find? (f.key k) = (m.find? k).map f.value := by
  refine Option.ext fun v => ?_
  rw [find?_eq_some_iff, Option.map_eq_some_iff]
  simp only [rename, List.mem_map, find?_eq_some_iff, Renaming.entry,
    Prod.mk.injEq]
  constructor
  · rintro ⟨⟨k', v'⟩, hmem, hkey, rfl⟩
    exact ⟨v', f.strictMono.injective hkey ▸ hmem, rfl⟩
  · rintro ⟨v', hmem, rfl⟩
    exact ⟨(k, v'), hmem, rfl, rfl⟩

/-- Keys of a renamed map are renamed keys. -/
theorem exists_of_find?_rename {k' : K'} {v' : V'}
    (h : (m.rename f).find? k' = some v') :
    ∃ k v, m.find? k = some v ∧ k' = f.key k ∧ v' = f.value v := by
  rw [find?_eq_some_iff] at h
  obtain ⟨⟨k, v⟩, hmem, heq⟩ := List.mem_map.mp h
  obtain ⟨rfl, rfl⟩ := Prod.mk.inj heq
  exact ⟨k, v, find?_eq_some_iff.mpr hmem, rfl, rfl⟩

theorem insert_rename (k : K) (v : V) :
    (m.rename f).insert (f.key k) (f.value v) = (m.insert k v).rename f := by
  have hlt : ∀ a b, f.key a < f.key b ↔ a < b := fun a b =>
    f.strictMono.lt_iff_lt
  simp only [insert, rename, insertKey, List.filter_map, List.map_append,
    List.map_cons, Function.comp_def, Renaming.entry, hlt]

theorem erase_rename (k : K) :
    (m.rename f).erase (f.key k) = (m.erase k).rename f := by
  simp only [erase, rename, eraseKey, List.filter_map, Function.comp_def,
    Renaming.entry, f.strictMono.injective.ne_iff]

theorem scan_rename (k : K) (inRange : K' → Bool) :
    (m.rename f).scan (f.key k) inRange =
      (m.scan k fun a => inRange (f.key a)).map f.entry := by
  simp only [scan, rename, List.dropWhile_map, List.takeWhile_map,
    Function.comp_def, Renaming.entry, f.strictMono.lt_iff_lt]

end SortedMap

end TicketSystem.Support
