import Mathlib

/-!
# Blocks of raw memory

A block holds a fixed number of slots.  A slot is raw until an object is
constructed in it and after the object is destroyed, and only an object can be
read.  Blocks are allocated under fresh names, and a freed block is gone.
-/

namespace TicketSystem.Support

variable {α : Type*}

/-- A block of memory. -/
structure Block (α : Type*) where
  capacity : ℕ
  slot : ℕ → Option α

namespace Block

def raw (capacity : ℕ) : Block α where
  capacity := capacity
  slot _ := none

def read (b : Block α) (i : ℕ) : Option α :=
  if i < b.capacity then b.slot i else none

def construct (b : Block α) (i : ℕ) (x : α) : Option (Block α) :=
  if i < b.capacity then
    some { b with slot := Function.update b.slot i (some x) }
  else none

def destroy (b : Block α) (i : ℕ) : Option (Block α) :=
  (b.read i).map fun _ =>
    { b with slot := Function.update b.slot i none }

/-- Copies the slots from `i` on, `k` of them. -/
def copyFrom (source : Block α) (i : ℕ) : ℕ → Block α → Option (Block α)
  | 0, b => some b
  | k + 1, b =>
      (source.read i).bind fun x =>
        (b.construct i x).bind fun b => copyFrom source (i + 1) k b

/-- Moves the `k` slots from `i` on one place up, the last one first. -/
def shiftUp (b : Block α) (i : ℕ) : ℕ → Option (Block α)
  | 0 => some b
  | k + 1 =>
      (b.read (i + k)).bind fun x =>
        (b.construct (i + k + 1) x).bind fun b => shiftUp b i k

/-- Moves the `k` slots behind `i` one place down, the first one first. -/
def shiftDown (b : Block α) (i : ℕ) : ℕ → Option (Block α)
  | 0 => some b
  | k + 1 =>
      (b.read (i + 1)).bind fun x =>
        (b.construct i x).bind fun b => shiftDown b (i + 1) k

/-- Destroys the `k` objects from `i` on. -/
def destroyFrom (b : Block α) (i : ℕ) : ℕ → Option (Block α)
  | 0 => some b
  | k + 1 => (b.destroy i).bind fun b => destroyFrom b (i + 1) k

/-- The first slots of the block hold the items of the list. -/
structure Lists (b : Block α) (l : List α) : Prop where
  length_le : l.length ≤ b.capacity
  slot_eq : ∀ i < l.length, b.slot i = l[i]?

variable {b : Block α} {l : List α} {i k : ℕ} {x : α}

theorem read_eq_some (hi : i < b.capacity) (hx : b.slot i = some x) :
    b.read i = some x := by
  rw [read, if_pos hi, hx]

theorem Lists.read (h : b.Lists l) (hi : i < l.length) :
    b.read i = some l[i] := by
  apply read_eq_some (hi.trans_le h.length_le)
  rw [h.slot_eq i hi, List.getElem?_eq_getElem hi]

theorem lists_nil (b : Block α) : b.Lists [] :=
  ⟨Nat.zero_le _, by simp⟩

theorem construct_eq (hi : i < b.capacity) (x : α) :
    b.construct i x =
      some { b with slot := Function.update b.slot i (some x) } :=
  if_pos hi

/-- The slots that are copied are those of the source. -/
theorem copyFrom_eq (source : Block α) :
    ∀ {k i : ℕ} {b : Block α},
      (∀ j, i ≤ j → j < i + k → ∃ x, source.read j = some x) →
        i + k ≤ b.capacity →
          ∃ b', source.copyFrom i k b = some b' ∧
            b'.capacity = b.capacity ∧
              ∀ j, b'.slot j =
                if i ≤ j ∧ j < i + k then source.read j else b.slot j
  | 0, i, b, _, _ => by
      refine ⟨b, rfl, rfl, fun j => ?_⟩
      rw [if_neg (by omega)]
  | k + 1, i, b, hsource, hcapacity => by
      obtain ⟨x, hx⟩ := hsource i (le_refl i) (by omega)
      have hi : i < b.capacity := by omega
      obtain ⟨b', hrun, hcap, hslot⟩ := copyFrom_eq source (k := k) (i := i + 1)
        (b := { b with slot := Function.update b.slot i (some x) })
        (fun j hle hlt => hsource j (by omega) (by omega))
        (show i + 1 + k ≤ b.capacity by omega)
      refine ⟨b', ?_, hcap, fun j => ?_⟩
      · rw [copyFrom, hx, Option.bind_some, construct_eq hi,
          Option.bind_some, hrun]
      · rw [hslot j]
        by_cases hj : j = i
        · subst hj
          rw [if_neg (by omega), if_pos (by omega), hx]
          exact Function.update_self _ _ _
        · by_cases hin : i + 1 ≤ j ∧ j < i + 1 + k
          · rw [if_pos hin, if_pos (by omega)]
          · rw [if_neg hin, if_neg (by omega)]
            exact Function.update_of_ne hj _ _

/-- What stands at `j` after a move upwards stood one place below. -/
theorem shiftUp_eq :
    ∀ {k i : ℕ} {b : Block α},
      (∀ j, i ≤ j → j < i + k → ∃ x, b.slot j = some x) →
        i + k < b.capacity →
          ∃ b', b.shiftUp i k = some b' ∧ b'.capacity = b.capacity ∧
            ∀ j, b'.slot j =
              if i < j ∧ j ≤ i + k then b.slot (j - 1) else b.slot j
  | 0, i, b, _, _ => by
      refine ⟨b, rfl, rfl, fun j => ?_⟩
      rw [if_neg (by omega)]
  | k + 1, i, b, hslots, hcapacity => by
      obtain ⟨x, hx⟩ := hslots (i + k) (by omega) (by omega)
      obtain ⟨b', hrun, hcap, hslot⟩ := shiftUp_eq (k := k) (i := i)
        (b := { b with slot := Function.update b.slot (i + k + 1) (some x) })
        (by
          intro j hle hlt
          obtain ⟨y, hy⟩ := hslots j hle (by omega)
          refine ⟨y, ?_⟩
          dsimp only
          rw [Function.update_of_ne (by omega), hy])
        (show i + k < b.capacity by omega)
      refine ⟨b', ?_, hcap, fun j => ?_⟩
      · rw [shiftUp, read_eq_some (by omega) hx, Option.bind_some,
          construct_eq (by omega), Option.bind_some, hrun]
      · rw [hslot j]
        dsimp only
        by_cases hj : j = i + k + 1
        · subst hj
          rw [if_neg (by omega), if_pos (by omega), Function.update_self,
            Nat.add_sub_cancel, hx]
        · by_cases hin : i < j ∧ j ≤ i + k
          · rw [if_pos hin, if_pos (by omega),
              Function.update_of_ne (by omega)]
          · rw [if_neg hin, if_neg (by omega), Function.update_of_ne hj]

/-- What stands at `j` after a move downwards stood one place above. -/
theorem shiftDown_eq :
    ∀ {k i : ℕ} {b : Block α},
      (∀ j, i < j → j ≤ i + k → ∃ x, b.slot j = some x) →
        i + k < b.capacity →
          ∃ b', b.shiftDown i k = some b' ∧ b'.capacity = b.capacity ∧
            ∀ j, b'.slot j =
              if i ≤ j ∧ j < i + k then b.slot (j + 1) else b.slot j
  | 0, i, b, _, _ => by
      refine ⟨b, rfl, rfl, fun j => ?_⟩
      rw [if_neg (by omega)]
  | k + 1, i, b, hslots, hcapacity => by
      obtain ⟨x, hx⟩ := hslots (i + 1) (by omega) (by omega)
      obtain ⟨b', hrun, hcap, hslot⟩ := shiftDown_eq (k := k) (i := i + 1)
        (b := { b with slot := Function.update b.slot i (some x) })
        (by
          intro j hlt hle
          obtain ⟨y, hy⟩ := hslots j (by omega) (by omega)
          refine ⟨y, ?_⟩
          dsimp only
          rw [Function.update_of_ne (by omega), hy])
        (show i + 1 + k < b.capacity by omega)
      refine ⟨b', ?_, hcap, fun j => ?_⟩
      · rw [shiftDown, read_eq_some (by omega) hx, Option.bind_some,
          construct_eq (by omega), Option.bind_some, hrun]
      · rw [hslot j]
        dsimp only
        by_cases hj : j = i
        · subst hj
          rw [if_neg (by omega), if_pos (by omega), Function.update_self, hx]
        · by_cases hin : i + 1 ≤ j ∧ j < i + 1 + k
          · rw [if_pos hin, if_pos (by omega),
              Function.update_of_ne (by omega)]
          · rw [if_neg hin, if_neg (by omega), Function.update_of_ne hj]

/-- Objects can be destroyed one after the other. -/
theorem destroyFrom_isSome :
    ∀ {k i : ℕ} {b : Block α},
      (∀ j, i ≤ j → j < i + k → ∃ x, b.read j = some x) →
        ∃ b', b.destroyFrom i k = some b'
  | 0, _, b, _ => ⟨b, rfl⟩
  | k + 1, i, b, hread => by
      obtain ⟨x, hx⟩ := hread i (le_refl i) (by omega)
      obtain ⟨b', hrun⟩ := destroyFrom_isSome (k := k) (i := i + 1)
        (b := { b with slot := Function.update b.slot i none })
        (by
          intro j hle hlt
          obtain ⟨y, hy⟩ := hread j (by omega) (by omega)
          refine ⟨y, ?_⟩
          rw [← hy, read, read]
          dsimp only
          rw [Function.update_of_ne (by omega)])
      refine ⟨b', ?_⟩
      rw [destroyFrom, destroy, hx, Option.map_some, Option.bind_some, hrun]

/-! ### What the loops do to a list -/

theorem Lists.slot_isSome (h : b.Lists l) (hi : i < l.length) :
    ∃ x, b.slot i = some x :=
  ⟨l[i], by rw [h.slot_eq i hi, List.getElem?_eq_getElem hi]⟩

/-- The list is read off the slots. -/
theorem Lists.unique {l' : List α} (h : b.Lists l) (h' : b.Lists l')
    (hlength : l.length = l'.length) : l = l' := by
  apply List.ext_getElem? fun i => ?_
  by_cases hi : i < l.length
  · rw [← h.slot_eq i hi, ← h'.slot_eq i (hlength ▸ hi)]
  · rw [List.getElem?_eq_none (not_lt.mp hi),
      List.getElem?_eq_none (hlength ▸ not_lt.mp hi)]

theorem Lists.copyFrom (h : b.Lists l) (target : Block α)
    (hcapacity : l.length ≤ target.capacity) :
    ∃ b', b.copyFrom 0 l.length target = some b' ∧
      b'.capacity = target.capacity ∧ b'.Lists l := by
  obtain ⟨b', hrun, hcap, hslot⟩ := copyFrom_eq b (i := 0)
    (k := l.length) (b := target)
    (fun j _ hj => ⟨_, h.read (by omega)⟩) (by omega)
  refine ⟨b', hrun, hcap, ?_, fun i hi => ?_⟩
  · rw [hcap]
    exact hcapacity
  · rw [hslot i, if_pos (by omega), h.read hi, List.getElem?_eq_getElem hi]

theorem Lists.destroyFrom (h : b.Lists l) :
    ∃ b', b.destroyFrom 0 l.length = some b' :=
  destroyFrom_isSome fun _ _ hj => ⟨_, h.read (by omega)⟩

theorem Lists.push (h : b.Lists l) (hcapacity : l.length < b.capacity)
    (x : α) :
    ∃ b', b.construct l.length x = some b' ∧ b'.capacity = b.capacity ∧
      b'.Lists (l ++ [x]) := by
  refine ⟨_, construct_eq hcapacity x, rfl, ?_, fun i hi => ?_⟩
  · rw [List.length_append]
    exact hcapacity
  · dsimp only
    by_cases heq : i = l.length
    · subst heq
      rw [Function.update_self, List.getElem?_concat_length]
    · have hlt : i < l.length := by
        rw [List.length_append, List.length_singleton] at hi
        omega
      rw [Function.update_of_ne heq, h.slot_eq i hlt,
        List.getElem?_append_left hlt]

theorem Lists.pop (h : b.Lists l) (hl : l ≠ []) :
    ∃ b', b.destroy (l.length - 1) = some b' ∧ b'.capacity = b.capacity ∧
      b'.Lists l.dropLast := by
  have hlast : l.length - 1 < l.length :=
    Nat.sub_one_lt (mt List.length_eq_zero_iff.mp hl)
  refine ⟨{ b with slot := Function.update b.slot (l.length - 1) none },
    by rw [destroy, h.read hlast, Option.map_some], rfl, ?_, fun i hi => ?_⟩
  · rw [List.length_dropLast]
    exact (Nat.sub_le _ _).trans h.length_le
  · rw [List.length_dropLast] at hi
    dsimp only
    rw [Function.update_of_ne (by omega), h.slot_eq i (by omega),
      List.getElem?_dropLast, if_pos hi]

/-- Moving the items behind makes room for a new one. -/
theorem Lists.insert (h : b.Lists l) (hi : i ≤ l.length)
    (hcapacity : l.length < b.capacity) (x : α) :
    ∃ b₁ b₂, b.shiftUp i (l.length - i) = some b₁ ∧
      b₁.construct i x = some b₂ ∧ b₂.capacity = b.capacity ∧
        b₂.Lists (l.insertIdx i x) := by
  obtain ⟨b₁, hrun, hcap, hslot⟩ := shiftUp_eq (b := b) (i := i)
    (k := l.length - i) (fun j _ hj => h.slot_isSome (by omega)) (by omega)
  refine ⟨b₁, _, hrun, construct_eq (by omega) x, hcap, ?_, fun j hj => ?_⟩
  · rw [List.length_insertIdx_of_le_length hi]
    dsimp only
    omega
  · rw [List.length_insertIdx_of_le_length hi] at hj
    dsimp only
    rcases lt_trichotomy j i with hlt | rfl | hgt
    · rw [Function.update_of_ne (by omega), hslot j, if_neg (by omega),
        h.slot_eq j (by omega), List.getElem?_insertIdx_of_lt hlt]
    · rw [Function.update_self, List.getElem?_insertIdx_self, if_pos hi]
    · rw [Function.update_of_ne (by omega), hslot j, if_pos (by omega),
        h.slot_eq (j - 1) (by omega), List.getElem?_insertIdx_of_gt hgt]

/-- Moving the items behind closes the gap. -/
theorem Lists.erase (h : b.Lists l) (hi : i < l.length) :
    ∃ b₁ b₂, b.destroy i = some b₁ ∧
      b₁.shiftDown i (l.length - 1 - i) = some b₂ ∧
        b₂.capacity = b.capacity ∧ b₂.Lists (l.eraseIdx i) := by
  have hle := h.length_le
  obtain ⟨b₂, hrun, hcap, hslot⟩ := shiftDown_eq (i := i)
    (b := { b with slot := Function.update b.slot i none })
    (k := l.length - 1 - i)
    (by
      intro j hlt hj
      obtain ⟨y, hy⟩ := h.slot_isSome (i := j) (by omega)
      refine ⟨y, ?_⟩
      dsimp only
      rw [Function.update_of_ne (by omega), hy])
    (show i + (l.length - 1 - i) < b.capacity by omega)
  refine ⟨_, b₂, by rw [destroy, h.read hi, Option.map_some], hrun, hcap, ?_,
    fun j hj => ?_⟩
  · rw [hcap, List.length_eraseIdx_of_lt hi]
    exact (Nat.sub_le _ _).trans hle
  · rw [List.length_eraseIdx_of_lt hi] at hj
    rw [hslot j, List.getElem?_eraseIdx]
    dsimp only
    by_cases hlt : j < i
    · rw [if_neg (by omega), if_pos hlt, Function.update_of_ne (by omega),
        h.slot_eq j (by omega)]
    · rw [if_pos (by omega), if_neg hlt, Function.update_of_ne (by omega),
        h.slot_eq (j + 1) (by omega)]

end Block

/-! ## Allocation -/

/-- The blocks that are allocated, and the name of the next one. -/
structure RawMemory (α : Type*) where
  block : ℕ → Option (Block α)
  next : ℕ

namespace RawMemory

def empty : RawMemory α where
  block _ := none
  next := 0

def set (memory : RawMemory α) (name : ℕ) (b : Block α) : RawMemory α :=
  { memory with block := Function.update memory.block name (some b) }

def malloc (memory : RawMemory α) (capacity : ℕ) : ℕ × RawMemory α :=
  (memory.next,
    { memory.set memory.next (Block.raw capacity) with
      next := memory.next + 1 })

def free (memory : RawMemory α) (name : ℕ) : Option (RawMemory α) :=
  (memory.block name).map fun _ =>
    { memory with block := Function.update memory.block name none }

/-- The block of that name has the capacity and begins with the list. -/
structure Lists (memory : RawMemory α) (name capacity : ℕ) (l : List α) :
    Prop where
  lt_next : name < memory.next
  exists_block : ∃ b, memory.block name = some b ∧ b.capacity = capacity ∧
    b.Lists l

variable {memory memory' : RawMemory α} {name name' capacity : ℕ} {l : List α}

theorem Lists.length_le (h : memory.Lists name capacity l) :
    l.length ≤ capacity := by
  obtain ⟨b, -, rfl, hlists⟩ := h.exists_block
  exact hlists.length_le

/-- Lists in blocks that are not touched stay. -/
theorem Lists.of_block_eq (h : memory.Lists name capacity l)
    (hblock : memory'.block name = memory.block name)
    (hnext : memory.next ≤ memory'.next) : memory'.Lists name capacity l where
  lt_next := h.lt_next.trans_le hnext
  exists_block := by rw [hblock]; exact h.exists_block

@[simp] theorem set_next (b : Block α) :
    (memory.set name b).next = memory.next := rfl

theorem set_block_of_ne (hne : name' ≠ name) (b : Block α) :
    (memory.set name b).block name' = memory.block name' :=
  Function.update_of_ne hne _ _

@[simp] theorem malloc_next :
    (memory.malloc capacity).2.next = memory.next + 1 := rfl

theorem malloc_block_of_lt (hlt : name < memory.next) :
    (memory.malloc capacity).2.block name = memory.block name :=
  Function.update_of_ne hlt.ne _ _

theorem lists_malloc :
    (memory.malloc capacity).2.Lists (memory.malloc capacity).1 capacity
      [] where
  lt_next := Nat.lt_succ_self _
  exists_block := ⟨_, Function.update_self _ _ _, rfl, Block.lists_nil _⟩

theorem lists_set (hname : name < memory.next) {b : Block α} (hb : b.Lists l) :
    (memory.set name b).Lists name b.capacity l where
  lt_next := hname
  exists_block := ⟨b, Function.update_self _ _ _, rfl, hb⟩

end RawMemory

end TicketSystem.Support
