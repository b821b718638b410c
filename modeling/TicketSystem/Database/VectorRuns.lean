import TicketSystem.Database.Vector

/-!
# Sequences of operations on vectors

A program names its vectors, and each of them is to be the list that the
operations describe.  The forms of `insert` and `erase` that take an index go
through the iterator of the item before it, and `DoubleSpace` loses an
iterator that stands at the end.
-/

namespace TicketSystem.Database

open TicketSystem.Support

/-- The operations of a program on its vectors; an iterator is given by its
distance from `begin()`. -/
inductive VectorOp (V α : Type)
  | new (x : V)
  | copy (x y : V)
  | assign (x y : V)
  | pushBack (x : V) (value : α)
  | popBack (x : V)
  | insert (x : V) (i : ℕ) (value : α)
  | insertAt (x : V) (ind : ℕ) (value : α)
  | erase (x : V) (i : ℕ)
  | eraseAt (x : V) (ind : ℕ)
  | clear (x : V)
  | at (x : V) (pos : ℕ)

/-- What an operation answers: nothing, the item, or an exception. -/
inductive VectorAnswer (α : Type)
  | done
  | item (value : α)
  | thrown (error : VectorError)

variable {V α : Type} [DecidableEq V]

/-! ## The lists -/

/-- What the operation is to do to the lists.  Nothing stands for a use that
is not allowed: of a name that stands for no vector, of one that already does
in a construction, or of an iterator that is none. -/
def listStep (lists : V → Option (List α)) :
    VectorOp V α → Option (VectorAnswer α × (V → Option (List α)))
  | .new x =>
      match lists x with
      | some _ => none
      | none => some (.done, Function.update lists x (some []))
  | .copy x y =>
      match lists x, lists y with
      | none, some k => some (.done, Function.update lists x (some k))
      | _, _ => none
  | .assign x y =>
      match lists x, lists y with
      | some _, some k => some (.done, Function.update lists x (some k))
      | _, _ => none
  | .pushBack x value =>
      (lists x).map fun l =>
        (.done, Function.update lists x (some (l ++ [value])))
  | .popBack x =>
      (lists x).map fun l =>
        if l = [] then (.thrown .containerIsEmpty, lists)
        else (.done, Function.update lists x (some l.dropLast))
  | .insert x i value =>
      (lists x).bind fun l =>
        if i ≤ l.length then
          some (.done, Function.update lists x (some (l.insertIdx i value)))
        else none
  | .insertAt x ind value =>
      (lists x).map fun l =>
        if l.length < ind then (.thrown .indexOutOfBound, lists)
        else (.done, Function.update lists x (some (l.insertIdx ind value)))
  | .erase x i =>
      (lists x).bind fun l =>
        if i < l.length then
          some (.done, Function.update lists x (some (l.eraseIdx i)))
        else none
  | .eraseAt x ind =>
      (lists x).map fun l =>
        if l.length ≤ ind then (.thrown .indexOutOfBound, lists)
        else (.done, Function.update lists x (some (l.eraseIdx ind)))
  | .clear x =>
      (lists x).map fun _ => (.done, Function.update lists x (some []))
  | .at x pos =>
      (lists x).map fun l =>
        if hpos : pos < l.length then (.item l[pos], lists)
        else (.thrown .indexOutOfBound, lists)

/-! ## The vectors -/

/-- The vectors of a program and the memory they live in. -/
structure Vectors (V α : Type) where
  memory : RawMemory α
  vector : V → Option ThomasVector

namespace Vectors

def empty : Vectors V α where
  memory := RawMemory.empty
  vector _ := none

/-- The name stands for the vector. -/
def set (s : Vectors V α) (x : V) (v : ThomasVector × RawMemory α) :
    Vectors V α where
  memory := v.2
  vector := Function.update s.vector x (some v.1)

/-- The answer and the state after a call that may throw. -/
def catchError (s : Vectors V α) (x : V) :
    Except VectorError (ThomasVector × RawMemory α) →
      VectorAnswer α × Vectors V α
  | .ok v => (.done, s.set x v)
  | .error error => (.thrown error, s)

/-- One operation. -/
def step (s : Vectors V α) :
    VectorOp V α → Option (VectorAnswer α × Vectors V α)
  | .new x => some (.done, s.set x (ThomasVector.new s.memory))
  | .copy x y =>
      (s.vector y).bind fun other =>
        (other.copy s.memory).map fun out => (.done, s.set x out)
  | .assign x y =>
      if x = y then some (.done, s)
      else
        (s.vector x).bind fun v =>
          (s.vector y).bind fun other =>
            (v.assign other s.memory).map fun out => (.done, s.set x out)
  | .pushBack x value =>
      (s.vector x).bind fun v =>
        (v.pushBack value s.memory).map fun out => (.done, s.set x out)
  | .popBack x =>
      (s.vector x).bind fun v => (v.popBack s.memory).map (s.catchError x)
  | .insert x i value =>
      (s.vector x).bind fun v =>
        (v.insert (v.iterator i) value s.memory).map fun out =>
          (.done, s.set x out.2)
  | .insertAt x ind value =>
      (s.vector x).bind fun v =>
        (v.insertAt ind value s.memory).map fun out =>
          s.catchError x (out.map Prod.snd)
  | .erase x i =>
      (s.vector x).bind fun v =>
        (v.erase (v.iterator i) s.memory).map fun out =>
          (.done, s.set x out.2)
  | .eraseAt x ind =>
      (s.vector x).bind fun v =>
        (v.eraseAt ind s.memory).map fun out =>
          s.catchError x (out.map Prod.snd)
  | .clear x =>
      (s.vector x).bind fun v =>
        (v.clear s.memory).map fun out => (.done, s.set x out)
  | .at x pos =>
      (s.vector x).bind fun v =>
        (v.get pos s.memory).map fun
          | .ok value => (.item value, s)
          | .error error => (.thrown error, s)

/-- Every vector holds its list, in a block of its own. -/
structure Corresponds (s : Vectors V α) (lists : V → Option (List α)) :
    Prop where
  isSome_eq : ∀ x, (s.vector x).isSome = (lists x).isSome
  holds : ∀ x v l, s.vector x = some v → lists x = some l →
    v.Holds s.memory l
  apart : ∀ x y v w, s.vector x = some v → s.vector y = some w →
    v.data = w.data → x = y

/-- When an operation does to a vector what it does to the list: an iterator
at the end finds room, and an index form throws or does at the item before
what it was to do at the index. -/
def Fits (s : Vectors V α) (lists : V → Option (List α)) :
    VectorOp V α → Prop
  | .insert x i _ => ∀ v l, s.vector x = some v → lists x = some l →
      i < l.length ∨ l.length < v.maxSize
  | .insertAt x ind value => ∀ l, lists x = some l →
      l.length < ind ∨ 0 < ind ∧ l[ind - 1]? = some value
  | .eraseAt x ind => ∀ l, lists x = some l →
      l.length ≤ ind ∨ 0 < ind ∧ l[ind - 1]? = l[ind]?
  | _ => True

variable {s : Vectors V α} {lists lists' : V → Option (List α)}
  {op : VectorOp V α} {answer : VectorAnswer α} {x : V} {l : List α}

omit [DecidableEq V] in
theorem empty_corresponds :
    (empty : Vectors V α).Corresponds fun _ => none where
  isSome_eq _ := rfl
  holds _ _ _ hv := nomatch hv
  apart _ _ _ _ hv := nomatch hv

omit [DecidableEq V] in
theorem Corresponds.exists_vector (h : s.Corresponds lists)
    (hl : lists x = some l) :
    ∃ v, s.vector x = some v ∧ v.Holds s.memory l := by
  have hsome := h.isSome_eq x
  rw [hl, Option.isSome_some] at hsome
  obtain ⟨v, hv⟩ := Option.isSome_iff_exists.mp hsome
  exact ⟨v, hv, h.holds x v l hv hl⟩

/-- A name gets a vector whose block none of the others uses. -/
theorem Corresponds.set (h : s.Corresponds lists) {v' : ThomasVector}
    {memory' : RawMemory α} (hholds : v'.Holds memory' l)
    (hothers : ∀ y w, y ≠ x → s.vector y = some w →
      w.data < s.memory.next →
        memory'.block w.data = s.memory.block w.data ∧ w.data ≠ v'.data)
    (hnext : s.memory.next ≤ memory'.next) :
    (s.set x (v', memory')).Corresponds
      (Function.update lists x (some l)) := by
  have hlt : ∀ y w, s.vector y = some w → w.data < s.memory.next := by
    intro y w hw
    have hsome := h.isSome_eq y
    rw [hw, Option.isSome_some] at hsome
    obtain ⟨k, hk⟩ := Option.isSome_iff_exists.mp hsome.symm
    exact (h.holds y w k hw hk).lists.lt_next
  constructor
  · intro y
    simp only [Vectors.set]
    by_cases hy : y = x
    · subst hy
      simp
    · rw [Function.update_of_ne hy, Function.update_of_ne hy, h.isSome_eq y]
  · intro y w k hw hk
    simp only [Vectors.set] at hw ⊢
    by_cases hy : y = x
    · subst hy
      rw [Function.update_self] at hw hk
      obtain rfl := Option.some.inj hw
      obtain rfl := Option.some.inj hk
      exact hholds
    · rw [Function.update_of_ne hy] at hw hk
      have hold := h.holds y w k hw hk
      exact
        { curSize_eq := hold.curSize_eq
          maxSize_pos := hold.maxSize_pos
          lists := hold.lists.of_block_eq
            (hothers y w hy hw (hlt y w hw)).1 hnext }
  · intro y z w u hw hu hdata
    simp only [Vectors.set] at hw hu
    by_cases hy : y = x
    · by_cases hz : z = x
      · rw [hy, hz]
      · subst hy
        rw [Function.update_self] at hw
        obtain rfl := Option.some.inj hw
        rw [Function.update_of_ne hz] at hu
        exact absurd hdata.symm (hothers z u hz hu (hlt z u hu)).2
    · rw [Function.update_of_ne hy] at hw
      by_cases hz : z = x
      · subst hz
        rw [Function.update_self] at hu
        obtain rfl := Option.some.inj hu
        exact absurd hdata (hothers y w hy hw (hlt y w hw)).2
      · rw [Function.update_of_ne hz] at hu
        exact h.apart y z w u hw hu hdata

/-- A vector changes, and the others stay. -/
theorem Corresponds.update (h : s.Corresponds lists) {v v' : ThomasVector}
    {memory' : RawMemory α} (hv : s.vector x = some v)
    (hstep : v.Becomes s.memory v' memory' l) :
    (s.set x (v', memory')).Corresponds
      (Function.update lists x (some l)) := by
  apply h.set hstep.holds _ hstep.next_le
  intro y w hy hw hlt
  have hne : w.data ≠ v.data := by
    intro heq
    exact hy (h.apart y x w v hw hv heq)
  refine ⟨hstep.block_eq w.data hlt hne, ?_⟩
  rcases hstep.data_eq_or with heq | hle
  · rw [heq]
    exact hne
  · exact (hlt.trans_le hle).ne

/-- A vector is constructed in a fresh block. -/
theorem Corresponds.add (h : s.Corresponds lists) {v' : ThomasVector}
    {memory' : RawMemory α} (hholds : v'.Holds memory' l)
    (hdata : v'.data = s.memory.next)
    (hnext : s.memory.next ≤ memory'.next)
    (hblock : ∀ name < s.memory.next,
      memory'.block name = s.memory.block name) :
    (s.set x (v', memory')).Corresponds
      (Function.update lists x (some l)) := by
  apply h.set hholds _ hnext
  intro y w _ _ hlt
  refine ⟨hblock w.data hlt, ?_⟩
  rw [hdata]
  exact hlt.ne

/-! ## The index forms -/

/-- An item is inserted one place too early, which shows unless it is equal to
the item there. -/
theorem insertIdx_pred_eq_iff {ind : ℕ} {value : α} (hpos : 0 < ind)
    (hle : ind ≤ l.length) :
    l.insertIdx (ind - 1) value = l.insertIdx ind value ↔
      l[ind - 1]? = some value := by
  constructor
  · intro heq
    have hat := congrArg (fun k => k[ind - 1]?) heq
    simp only [List.getElem?_insertIdx_self] at hat
    rw [if_pos (by omega), List.getElem?_insertIdx_of_lt (by omega)] at hat
    exact hat.symm
  · intro hitem
    apply List.ext_getElem? fun j => ?_
    rcases lt_trichotomy j (ind - 1) with hlt | rfl | hgt
    · rw [List.getElem?_insertIdx_of_lt hlt,
        List.getElem?_insertIdx_of_lt (by omega)]
    · rw [List.getElem?_insertIdx_self, if_pos (by omega),
        List.getElem?_insertIdx_of_lt (by omega), hitem]
    · rw [List.getElem?_insertIdx_of_gt hgt]
      by_cases hj : j = ind
      · subst hj
        rw [List.getElem?_insertIdx_self, if_pos hle, hitem]
      · rw [List.getElem?_insertIdx_of_gt (by omega)]

theorem eraseIdx_pred_eq_iff {ind : ℕ} (hpos : 0 < ind) :
    l.eraseIdx (ind - 1) = l.eraseIdx ind ↔ l[ind - 1]? = l[ind]? := by
  constructor
  · intro heq
    have hat := congrArg (fun k => k[ind - 1]?) heq
    simp only [List.getElem?_eraseIdx] at hat
    rw [if_neg (by omega), if_pos (by omega), Nat.sub_add_cancel hpos] at hat
    exact hat.symm
  · intro hitem
    apply List.ext_getElem? fun j => ?_
    rw [List.getElem?_eraseIdx, List.getElem?_eraseIdx]
    by_cases hj : j < ind - 1
    · rw [if_pos hj, if_pos (by omega)]
    · rw [if_neg hj]
      by_cases hj' : j < ind
      · obtain rfl : j = ind - 1 := by omega
        rw [if_pos hj', Nat.sub_add_cancel hpos, hitem]
      · rw [if_neg hj']

/-! ## One operation -/

/-- Whether the operation answers as the lists do and leads to them. -/
def Follows (s : Vectors V α) (op : VectorOp V α) (answer : VectorAnswer α)
    (lists : V → Option (List α)) : Prop :=
  ∃ s', s.step op = some (answer, s') ∧ s'.Corresponds lists

/-- An operation that has changed a vector does what the lists do exactly when
the vector holds the new list. -/
theorem follows_of_becomes (h : s.Corresponds lists) {v v' : ThomasVector}
    {memory' : RawMemory α} {k : List α} (hv : s.vector x = some v)
    (hstep : s.step op = some (.done, s.set x (v', memory')))
    (hbecomes : v.Becomes s.memory v' memory' k) :
    s.Follows op .done (Function.update lists x (some l)) ↔ k = l := by
  constructor
  · rintro ⟨s', hs', hcorresponds⟩
    rw [hstep] at hs'
    obtain ⟨-, rfl⟩ := Prod.mk.inj (Option.some.inj hs')
    have hholds := hcorresponds.holds x v' l (Function.update_self _ _ _)
      (Function.update_self _ _ _)
    exact hbecomes.holds.unique hholds
  · rintro rfl
    exact ⟨_, hstep, h.update hv hbecomes⟩

theorem follows_insert_iff (h : s.Corresponds lists) (hl : lists x = some l)
    {i : ℕ} (hi : i ≤ l.length) (value : α) :
    s.Follows (.insert x i value) .done
        (Function.update lists x (some (l.insertIdx i value))) ↔
      s.Fits lists (.insert x i value) := by
  obtain ⟨v, hv, hholds⟩ := h.exists_vector hl
  by_cases hfits : i < l.length ∨ l.length < v.maxSize
  · have hcase : i < l.length ∨ i = l.length ∧ l.length < v.maxSize := by
      omega
    obtain ⟨v', memory', hrun, hbecomes⟩ := hholds.insert value hcase
    have hstep : s.step (.insert x i value) =
        some (.done, s.set x (v', memory')) := by
      rw [step, hv, Option.bind_some, hrun, Option.map_some]
    rw [follows_of_becomes h hv hstep hbecomes]
    simp only [Fits, hv, hl, Option.some.injEq, true_iff]
    rintro w k rfl rfl
    exact hfits
  · have hnone : v.insert (v.iterator i) value s.memory = none := by
      apply hholds.insert_eq_none value rfl
      · intro j hj heq
        have hoffset : (j : ℤ) = i := congrArg Pointer.offset heq
        omega
      · intro _
        omega
    constructor
    · rintro ⟨s', hs', -⟩
      rw [step, hv, Option.bind_some, hnone] at hs'
      cases hs'
    · intro hfits'
      exact absurd (hfits' v l hv hl) hfits

theorem follows_insertAt_iff (h : s.Corresponds lists)
    (hl : lists x = some l) {ind : ℕ} (hle : ind ≤ l.length) (value : α) :
    s.Follows (.insertAt x ind value) .done
        (Function.update lists x (some (l.insertIdx ind value))) ↔
      s.Fits lists (.insertAt x ind value) := by
  obtain ⟨v, hv, hholds⟩ := h.exists_vector hl
  have hsize : ¬ v.curSize < ind := by
    rw [hholds.curSize_eq]
    exact not_lt.mpr hle
  have hfits : s.Fits lists (.insertAt x ind value) ↔
      0 < ind ∧ l[ind - 1]? = some value := by
    simp [Fits, hl, not_lt.mpr hle]
  by_cases hpos : 0 < ind
  · obtain ⟨v', memory', hrun, hbecomes⟩ :=
      hholds.insert (i := ind - 1) value (Or.inl (by omega))
    rw [show ((ind - 1 : ℕ) : ℤ) = (ind : ℤ) - 1 by omega] at hrun
    have hstep : s.step (.insertAt x ind value) =
        some (.done, s.set x (v', memory')) := by
      rw [step, hv, Option.bind_some, ThomasVector.insertAt, if_neg hsize,
        hrun]
      rfl
    rw [follows_of_becomes h hv hstep hbecomes, hfits,
      insertIdx_pred_eq_iff hpos hle]
    simp [hpos]
  · obtain rfl : ind = 0 := by omega
    have hnone : v.insert (v.iterator ((0 : ℕ) - 1)) value s.memory =
        none := by
      apply hholds.insert_eq_none value rfl
      · intro j hj heq
        have hoffset : (j : ℤ) = (0 : ℕ) - 1 := congrArg Pointer.offset heq
        omega
      · intro heq
        have hoffset : ((0 : ℕ) : ℤ) - 1 = l.length :=
          congrArg Pointer.offset heq
        omega
    rw [hfits]
    constructor
    · rintro ⟨s', hs', -⟩
      rw [step, hv, Option.bind_some, ThomasVector.insertAt, if_neg hsize,
        hnone] at hs'
      cases hs'
    · intro hboth
      exact absurd hboth.1 hpos

theorem follows_eraseAt_iff (h : s.Corresponds lists)
    (hl : lists x = some l) {ind : ℕ} (hlt : ind < l.length) :
    s.Follows (.eraseAt x ind) .done
        (Function.update lists x (some (l.eraseIdx ind))) ↔
      s.Fits lists (.eraseAt x ind) := by
  obtain ⟨v, hv, hholds⟩ := h.exists_vector hl
  have hsize : ¬ v.curSize ≤ ind := by
    rw [hholds.curSize_eq]
    exact not_le.mpr hlt
  have hfits : s.Fits lists (.eraseAt x ind) ↔
      0 < ind ∧ l[ind - 1]? = l[ind]? := by
    simp [Fits, hl, not_le.mpr hlt]
  by_cases hpos : 0 < ind
  · obtain ⟨v', memory', hrun, hbecomes⟩ :=
      hholds.erase (i := ind - 1) (by omega)
    rw [show ((ind - 1 : ℕ) : ℤ) = (ind : ℤ) - 1 by omega] at hrun
    have hstep : s.step (.eraseAt x ind) =
        some (.done, s.set x (v', memory')) := by
      rw [step, hv, Option.bind_some, ThomasVector.eraseAt, if_neg hsize,
        hrun]
      rfl
    rw [follows_of_becomes h hv hstep hbecomes, hfits,
      eraseIdx_pred_eq_iff hpos]
    simp [hpos]
  · obtain rfl : ind = 0 := by omega
    have hnone : v.erase (v.iterator ((0 : ℕ) - 1)) s.memory = none := by
      apply hholds.erase_eq_none
      intro j hj heq
      have hoffset : (j : ℤ) = (0 : ℕ) - 1 := congrArg Pointer.offset heq
      omega
    rw [hfits]
    constructor
    · rintro ⟨s', hs', -⟩
      rw [step, hv, Option.bind_some, ThomasVector.eraseAt, if_neg hsize,
        hnone] at hs'
      cases hs'
    · intro hboth
      exact absurd hboth.1 hpos

/-- An operation that always fits. -/
theorem follows_of_update (h : s.Corresponds lists) {v : ThomasVector}
    (hv : s.vector x = some v)
    (hrun : ∃ v' memory', s.step op = some (.done, s.set x (v', memory')) ∧
      v.Becomes s.memory v' memory' l) :
    s.Follows op .done (Function.update lists x (some l)) := by
  obtain ⟨v', memory', hstep, hbecomes⟩ := hrun
  exact ⟨_, hstep, h.update hv hbecomes⟩

theorem follows_copy (h : s.Corresponds lists) {y : V}
    (hl : lists y = some l) :
    s.Follows (.copy x y) .done (Function.update lists x (some l)) := by
  obtain ⟨v, hv, hholds⟩ := h.exists_vector hl
  obtain ⟨v', memory', hcopy, hholds', hdata, hnext, hblock⟩ := hholds.copy
  refine ⟨s.set x (v', memory'), ?_, ?_⟩
  · rw [step, hv, Option.bind_some, hcopy, Option.map_some]
  · exact h.add hholds' hdata (hnext ▸ Nat.le_succ _) hblock

theorem follows_assign (h : s.Corresponds lists) {y : V} {k : List α}
    (hl : lists x = some l) (hk : lists y = some k) :
    s.Follows (.assign x y) .done (Function.update lists x (some k)) := by
  by_cases hxy : x = y
  · subst hxy
    refine ⟨s, by rw [step, if_pos rfl], ?_⟩
    rwa [Function.update_eq_self_iff.mpr hk.symm]
  · obtain ⟨v, hv, hholds⟩ := h.exists_vector hl
    obtain ⟨w, hw, hholds'⟩ := h.exists_vector hk
    have hne : w.data ≠ v.data := by
      intro heq
      exact hxy (h.apart x y v w hv hw heq.symm)
    obtain ⟨v', memory', hassign, hbecomes⟩ := hholds.assign hholds' hne
    apply follows_of_update h hv
    refine ⟨v', memory', ?_, hbecomes⟩
    rw [step, if_neg hxy, hv, Option.bind_some, hw, Option.bind_some, hassign,
      Option.map_some]

theorem follows_popBack (h : s.Corresponds lists) (hl : lists x = some l) :
    s.Follows (.popBack x)
      (if l = [] then .thrown .containerIsEmpty else .done)
      (if l = [] then lists
        else Function.update lists x (some l.dropLast)) := by
  obtain ⟨v, hv, hholds⟩ := h.exists_vector hl
  by_cases hempty : l = []
  · rw [if_pos hempty, if_pos hempty]
    refine ⟨s, ?_, h⟩
    have hsize : v.curSize = 0 := by
      rw [hholds.curSize_eq, hempty, List.length_nil]
    rw [step, hv, Option.bind_some, ThomasVector.popBack, if_pos hsize]
    rfl
  · rw [if_neg hempty, if_neg hempty]
    obtain ⟨v', memory', hrun, hbecomes⟩ := hholds.popBack hempty
    apply follows_of_update h hv
    refine ⟨v', memory', ?_, hbecomes⟩
    rw [step, hv, Option.bind_some, hrun]
    rfl

/-- An operation follows the lists exactly when it fits. -/
theorem follows_iff (h : s.Corresponds lists)
    (hlist : listStep lists op = some (answer, lists')) :
    s.Follows op answer lists' ↔ s.Fits lists op := by
  cases op with
  | new x =>
      simp only [listStep] at hlist
      cases hl : lists x with
      | some l => simp [hl] at hlist
      | none =>
          rw [hl] at hlist
          obtain ⟨rfl, rfl⟩ := Prod.mk.inj (Option.some.inj hlist)
          refine iff_of_true ⟨_, rfl, ?_⟩ trivial
          apply h.add (ThomasVector.new_holds s.memory) rfl (Nat.le_succ _)
          intro name hlt
          exact RawMemory.malloc_block_of_lt hlt
  | copy x y =>
      simp only [listStep] at hlist
      split at hlist
      · next hk =>
        obtain ⟨rfl, rfl⟩ := Prod.mk.inj (Option.some.inj hlist)
        exact iff_of_true (follows_copy h hk) trivial
      · cases hlist
  | assign x y =>
      simp only [listStep] at hlist
      split at hlist
      · next hl hk =>
        obtain ⟨rfl, rfl⟩ := Prod.mk.inj (Option.some.inj hlist)
        exact iff_of_true (follows_assign h hl hk) trivial
      · cases hlist
  | pushBack x value =>
      obtain ⟨l, hl, heq⟩ := Option.map_eq_some_iff.mp hlist
      obtain ⟨rfl, rfl⟩ := Prod.mk.inj heq
      obtain ⟨v, hv, hholds⟩ := h.exists_vector hl
      obtain ⟨v', memory', hrun, hbecomes⟩ := hholds.pushBack value
      refine iff_of_true (follows_of_update h hv ⟨v', memory', ?_, hbecomes⟩)
        trivial
      rw [step, hv, Option.bind_some, hrun, Option.map_some]
  | popBack x =>
      obtain ⟨l, hl, heq⟩ := Option.map_eq_some_iff.mp hlist
      have hfollows := follows_popBack h hl
      refine iff_of_true ?_ trivial
      split at heq
      · next hempty =>
        obtain ⟨rfl, rfl⟩ := Prod.mk.inj heq
        rwa [if_pos hempty, if_pos hempty] at hfollows
      · next hempty =>
        obtain ⟨rfl, rfl⟩ := Prod.mk.inj heq
        rwa [if_neg hempty, if_neg hempty] at hfollows
  | insert x i value =>
      obtain ⟨l, hl, heq⟩ := Option.bind_eq_some_iff.mp hlist
      split at heq
      · next hi =>
        obtain ⟨rfl, rfl⟩ := Prod.mk.inj (Option.some.inj heq)
        exact follows_insert_iff h hl hi value
      · cases heq
  | insertAt x ind value =>
      obtain ⟨l, hl, heq⟩ := Option.map_eq_some_iff.mp hlist
      split at heq
      · next hlt =>
        obtain ⟨rfl, rfl⟩ := Prod.mk.inj heq
        obtain ⟨v, hv, hholds⟩ := h.exists_vector hl
        refine iff_of_true ⟨s, ?_, h⟩ ?_
        · rw [step, hv, Option.bind_some, ThomasVector.insertAt,
            if_pos (hholds.curSize_eq ▸ hlt)]
          rfl
        · intro k hk
          obtain rfl := Option.some.inj (hl.symm.trans hk)
          exact Or.inl hlt
      · next hle =>
        obtain ⟨rfl, rfl⟩ := Prod.mk.inj heq
        exact follows_insertAt_iff h hl (not_lt.mp hle) value
  | erase x i =>
      obtain ⟨l, hl, heq⟩ := Option.bind_eq_some_iff.mp hlist
      split at heq
      · next hi =>
        obtain ⟨rfl, rfl⟩ := Prod.mk.inj (Option.some.inj heq)
        obtain ⟨v, hv, hholds⟩ := h.exists_vector hl
        obtain ⟨v', memory', hrun, hbecomes⟩ := hholds.erase hi
        refine iff_of_true
          (follows_of_update h hv ⟨v', memory', ?_, hbecomes⟩) trivial
        rw [step, hv, Option.bind_some, hrun, Option.map_some]
      · cases heq
  | eraseAt x ind =>
      obtain ⟨l, hl, heq⟩ := Option.map_eq_some_iff.mp hlist
      split at heq
      · next hle =>
        obtain ⟨rfl, rfl⟩ := Prod.mk.inj heq
        obtain ⟨v, hv, hholds⟩ := h.exists_vector hl
        refine iff_of_true ⟨s, ?_, h⟩ ?_
        · rw [step, hv, Option.bind_some, ThomasVector.eraseAt,
            if_pos (hholds.curSize_eq ▸ hle)]
          rfl
        · intro k hk
          obtain rfl := Option.some.inj (hl.symm.trans hk)
          exact Or.inl hle
      · next hlt =>
        obtain ⟨rfl, rfl⟩ := Prod.mk.inj heq
        exact follows_eraseAt_iff h hl (not_le.mp hlt)
  | clear x =>
      obtain ⟨l, hl, heq⟩ := Option.map_eq_some_iff.mp hlist
      obtain ⟨rfl, rfl⟩ := Prod.mk.inj heq
      obtain ⟨v, hv, hholds⟩ := h.exists_vector hl
      obtain ⟨v', memory', hrun, hbecomes⟩ := hholds.clear
      refine iff_of_true (follows_of_update h hv ⟨v', memory', ?_, hbecomes⟩)
        trivial
      rw [step, hv, Option.bind_some, hrun, Option.map_some]
  | «at» x pos =>
      obtain ⟨l, hl, heq⟩ := Option.map_eq_some_iff.mp hlist
      obtain ⟨v, hv, hholds⟩ := h.exists_vector hl
      refine iff_of_true ⟨s, ?_, ?_⟩ trivial
      · rw [step, hv, Option.bind_some, hholds.get pos, Option.map_some]
        split at heq
        · next hpos =>
          obtain ⟨rfl, -⟩ := Prod.mk.inj heq
          rw [dif_pos hpos]
        · next hpos =>
          obtain ⟨rfl, -⟩ := Prod.mk.inj heq
          rw [dif_neg hpos]
      · split at heq
        · obtain ⟨-, rfl⟩ := Prod.mk.inj heq
          exact h
        · obtain ⟨-, rfl⟩ := Prod.mk.inj heq
          exact h

/-! ## Sequences of operations -/

/-- Every operation of the sequence answers as the lists do and leads to
them, up to the first use that is not allowed. -/
def FollowsAll (s : Vectors V α) (lists : V → Option (List α)) :
    List (VectorOp V α) → Prop
  | [] => True
  | op :: ops =>
      ∀ answer lists', listStep lists op = some (answer, lists') →
        ∃ s', s.step op = some (answer, s') ∧ s'.Corresponds lists' ∧
          FollowsAll s' lists' ops

/-- Every operation of the sequence fits in the state before it. -/
def FitsAll (s : Vectors V α) (lists : V → Option (List α)) :
    List (VectorOp V α) → Prop
  | [] => True
  | op :: ops =>
      ∀ answer lists', listStep lists op = some (answer, lists') →
        s.Fits lists op ∧
          ∀ answer s', s.step op = some (answer, s') → FitsAll s' lists' ops

theorem Corresponds.follows_run_iff {ops : List (VectorOp V α)} :
    ∀ {s : Vectors V α} {lists : V → Option (List α)},
      s.Corresponds lists → (s.FollowsAll lists ops ↔ s.FitsAll lists ops) := by
  induction ops with
  | nil => exact fun _ => Iff.rfl
  | cons op ops ih =>
      intro s lists h
      constructor
      · intro hall answer lists' hlist
        obtain ⟨s', hs', hcorresponds, hrest⟩ := hall answer lists' hlist
        refine ⟨(follows_iff h hlist).mp ⟨s', hs', hcorresponds⟩, ?_⟩
        intro answer' s'' hs''
        obtain ⟨-, rfl⟩ := Prod.mk.inj (Option.some.inj (hs'.symm.trans hs''))
        exact (ih hcorresponds).mp hrest
      · intro hall answer lists' hlist
        obtain ⟨hfits, hrest⟩ := hall answer lists' hlist
        obtain ⟨s', hs', hcorresponds⟩ := (follows_iff h hlist).mpr hfits
        exact ⟨s', hs', hcorresponds,
          (ih hcorresponds).mpr (hrest answer s' hs')⟩

/-- The vectors of a program are the lists along every sequence of operations
that fit, and along no other one. -/
theorem followsAll_iff (ops : List (VectorOp V α)) :
    (empty : Vectors V α).FollowsAll (fun _ => none) ops ↔
      (empty : Vectors V α).FitsAll (fun _ => none) ops :=
  empty_corresponds.follows_run_iff

/-- An item that is inserted at index `1` comes before the first one. -/
theorem not_always_followsAll :
    ¬ ∀ ops : List (VectorOp Unit ℕ),
      (empty : Vectors Unit ℕ).FollowsAll (fun _ => none) ops := by
  intro hall
  obtain ⟨s₁, -, -, hrest⟩ := hall [.new (), .pushBack () 7, .insertAt () 1 9]
    _ _ rfl
  obtain ⟨s₂, -, hcorresponds, hrest⟩ := hrest _ _ rfl
  obtain ⟨s₃, hs₃, hcorresponds', -⟩ := hrest _ _ rfl
  have hfits := (follows_iff hcorresponds rfl).mp
    ⟨s₃, hs₃, hcorresponds'⟩
  rcases hfits [7] rfl with hlt | ⟨-, hitem⟩
  · exact absurd hlt (by decide)
  · cases hitem

end Vectors

end TicketSystem.Database
