import TicketSystem.Support.RawMemory

/-!
# `thomas::vector`

A vector keeps its items in a block of raw memory that is doubled when it is
full.  An iterator is the address of an item.  Nothing stands for what C++
leaves undefined: a search that falls off the end of `GetId`, an access outside
of a block, and the use of an object that is not there.
-/

namespace TicketSystem.Database

open TicketSystem.Support

/-- A `T *`: the block it points into, and the place there. -/
structure Pointer where
  block : ℕ
  offset : ℤ
  deriving DecidableEq

/-- The members of `vector`. -/
structure ThomasVector where
  data : ℕ
  curSize : ℕ
  maxSize : ℕ

/-- The exceptions of `vector`. -/
inductive VectorError
  | indexOutOfBound
  | containerIsEmpty
  deriving DecidableEq

namespace ThomasVector

variable {α : Type}

/-- `iterator(data + i, this)`. -/
def iterator (v : ThomasVector) (i : ℤ) : Pointer where
  block := v.data
  offset := i

/-- `vector()`. -/
def new (memory : RawMemory α) : ThomasVector × RawMemory α :=
  ({ data := (memory.malloc 32).1, curSize := 0, maxSize := 32 },
    (memory.malloc 32).2)

/-- `Clean`. -/
def clean (v : ThomasVector) (memory : RawMemory α) : Option (RawMemory α) :=
  (memory.block v.data).bind fun b =>
    (b.destroyFrom 0 v.curSize).bind fun _ => memory.free v.data

/-- A fresh block into which the items of the vector are copied. -/
def allocateCopy (v : ThomasVector) (maxSize : ℕ) (memory : RawMemory α) :
    Option (ThomasVector × RawMemory α) :=
  (memory.block v.data).bind fun source =>
    (source.copyFrom 0 v.curSize (Block.raw maxSize)).map fun b =>
      ({ v with data := memory.next, maxSize := maxSize },
        (memory.malloc maxSize).2.set memory.next b)

/-- `vector(const vector &)`. -/
def copy (other : ThomasVector) (memory : RawMemory α) :
    Option (ThomasVector × RawMemory α) :=
  other.allocateCopy other.maxSize memory

/-- `operator=`, from a vector that is not this one. -/
def assign (v other : ThomasVector) (memory : RawMemory α) :
    Option (ThomasVector × RawMemory α) :=
  (v.clean memory).bind fun memory => other.copy memory

/-- `GetId`. -/
def getId (v : ThomasVector) (it : Pointer) : Option ℕ :=
  (List.range v.curSize).find? fun i => decide (v.iterator i = it)

/-- `DoubleSpace`, with the iterator that it keeps on its item. -/
def doubleSpace (v : ThomasVector) (pos : Pointer) (memory : RawMemory α) :
    Option (ThomasVector × Pointer × RawMemory α) :=
  (v.allocateCopy (2 * v.maxSize) memory).bind fun out =>
    let (v', memory) := out
    let pos :=
      match v.getId pos with
      | some i => v'.iterator i
      | none => pos
    (v.clean memory).map fun memory => (v', pos, memory)

/-- `if (cur_size + 1 > max_size) DoubleSpace(pos)`. -/
def makeRoom (v : ThomasVector) (pos : Pointer) (memory : RawMemory α) :
    Option (ThomasVector × Pointer × RawMemory α) :=
  if v.maxSize < v.curSize + 1 then v.doubleSpace pos memory
  else some (v, pos, memory)

/-- `insert(iterator, const T &)`. -/
def insert (v : ThomasVector) (pos : Pointer) (value : α)
    (memory : RawMemory α) :
    Option (Pointer × ThomasVector × RawMemory α) :=
  (v.makeRoom pos memory).bind fun out =>
    let (v, pos, memory) := out
    let v := { v with curSize := v.curSize + 1 }
    (v.getId pos).bind fun id =>
      (memory.block v.data).bind fun b =>
        (b.shiftUp id (v.curSize - 1 - id)).bind fun b =>
          (b.construct id value).map fun b =>
            (pos, v, memory.set v.data b)

/-- `insert(const size_t &, const T &)`. -/
def insertAt (v : ThomasVector) (ind : ℕ) (value : α)
    (memory : RawMemory α) :
    Option (Except VectorError (Pointer × ThomasVector × RawMemory α)) :=
  if v.curSize < ind then some (.error .indexOutOfBound)
  else (v.insert (v.iterator (ind - 1)) value memory).map .ok

/-- `erase(iterator)`. -/
def erase (v : ThomasVector) (pos : Pointer) (memory : RawMemory α) :
    Option (Pointer × ThomasVector × RawMemory α) :=
  (v.getId pos).bind fun id =>
    (memory.block v.data).bind fun b =>
      (b.destroy id).bind fun b =>
        (b.shiftDown id (v.curSize - 1 - id)).map fun b =>
          (pos, { v with curSize := v.curSize - 1 }, memory.set v.data b)

/-- `erase(const size_t &)`. -/
def eraseAt (v : ThomasVector) (ind : ℕ) (memory : RawMemory α) :
    Option (Except VectorError (Pointer × ThomasVector × RawMemory α)) :=
  if v.curSize ≤ ind then some (.error .indexOutOfBound)
  else (v.erase (v.iterator (ind - 1)) memory).map .ok

/-- `push_back`. -/
def pushBack (v : ThomasVector) (value : α) (memory : RawMemory α) :
    Option (ThomasVector × RawMemory α) :=
  (v.makeRoom (v.iterator 0) memory).bind fun out =>
    let (v, _, memory) := out
    (memory.block v.data).bind fun b =>
      (b.construct v.curSize value).map fun b =>
        ({ v with curSize := v.curSize + 1 }, memory.set v.data b)

/-- `pop_back`. -/
def popBack (v : ThomasVector) (memory : RawMemory α) :
    Option (Except VectorError (ThomasVector × RawMemory α)) :=
  if v.curSize = 0 then some (.error .containerIsEmpty)
  else
    (memory.block v.data).bind fun b =>
      (b.destroy (v.curSize - 1)).map fun b =>
        .ok ({ v with curSize := v.curSize - 1 }, memory.set v.data b)

/-- `clear`. -/
def clear (v : ThomasVector) (memory : RawMemory α) :
    Option (ThomasVector × RawMemory α) :=
  (v.clean memory).map new

/-- `at`. -/
def get (v : ThomasVector) (pos : ℕ) (memory : RawMemory α) :
    Option (Except VectorError α) :=
  if v.curSize ≤ pos then some (.error .indexOutOfBound)
  else (memory.block v.data).bind fun b => (b.read pos).map .ok

/-! ## What a vector holds -/

/-- The vector holds the items of the list. -/
structure Holds (v : ThomasVector) (memory : RawMemory α) (l : List α) :
    Prop where
  curSize_eq : v.curSize = l.length
  maxSize_pos : 0 < v.maxSize
  lists : memory.Lists v.data v.maxSize l

/-- A vector has become another one, which holds the list, and no other block
that was there has changed. -/
structure Becomes (v : ThomasVector) (memory : RawMemory α)
    (v' : ThomasVector) (memory' : RawMemory α) (l : List α) : Prop where
  holds : v'.Holds memory' l
  data_eq_or : v'.data = v.data ∨ memory.next ≤ v'.data
  block_eq : ∀ name < memory.next, name ≠ v.data →
    memory'.block name = memory.block name
  next_le : memory.next ≤ memory'.next

variable {v v' : ThomasVector} {memory memory' : RawMemory α} {l : List α}
  {pos : Pointer} {i : ℕ}

theorem Holds.unique {l' : List α} (h : v.Holds memory l)
    (h' : v.Holds memory l') : l = l' := by
  obtain ⟨b, hb, -, hlists⟩ := h.lists.exists_block
  obtain ⟨b', hb', -, hlists'⟩ := h'.lists.exists_block
  obtain rfl := Option.some.inj (hb.symm.trans hb')
  apply hlists.unique hlists'
  rw [← h.curSize_eq, ← h'.curSize_eq]

/-! ## The search for an iterator -/

theorem getId_iterator (hi : i < v.curSize) :
    v.getId (v.iterator i) = some i := by
  rw [getId, List.find?_range_eq_some]
  refine ⟨by simp, by simpa using hi, fun j hj => ?_⟩
  have hne : (j : ℤ) ≠ i := by exact_mod_cast hj.ne
  simpa [iterator] using hne

theorem getId_eq_none
    (hpos : ∀ i < v.curSize, v.iterator i ≠ pos) : v.getId pos = none := by
  rw [getId, List.find?_eq_none]
  intro i hi
  rw [decide_eq_true_eq]
  exact hpos i (List.mem_range.mp hi)

/-! ## Allocation and growth -/

theorem Holds.of_becomes {w : ThomasVector} {k : List α}
    (h : v.Holds memory l) (hstep : w.Becomes memory v' memory' k)
    (hne : v.data ≠ w.data) : v.Holds memory' l where
  curSize_eq := h.curSize_eq
  maxSize_pos := h.maxSize_pos
  lists := h.lists.of_block_eq
    (hstep.block_eq v.data h.lists.lt_next hne) hstep.next_le

theorem Becomes.trans {v'' : ThomasVector} {memory'' : RawMemory α}
    {k : List α} (h : v.Becomes memory v' memory' k)
    (h' : v'.Becomes memory' v'' memory'' l) :
    v.Becomes memory v'' memory'' l where
  holds := h'.holds
  data_eq_or := by
    rcases h'.data_eq_or with heq | hle
    · rw [heq]
      exact h.data_eq_or
    · exact Or.inr (h.next_le.trans hle)
  block_eq name hlt hne := by
    have hne' : name ≠ v'.data := by
      rcases h.data_eq_or with heq | hle
      · rw [heq]
        exact hne
      · exact (hlt.trans_le hle).ne
    rw [h'.block_eq name (hlt.trans_le h.next_le) hne']
    exact h.block_eq name hlt hne
  next_le := h.next_le.trans h'.next_le

theorem Becomes.refl (h : v.Holds memory l) : v.Becomes memory v memory l where
  holds := h
  data_eq_or := Or.inl rfl
  block_eq _ _ _ := rfl
  next_le := le_refl _

/-- A change of the block of the vector. -/
theorem becomes_set (h : v.Holds memory l) {b : Block α} {k : List α}
    (hcapacity : b.capacity = v.maxSize) (hb : b.Lists k) :
    v.Becomes memory { v with curSize := k.length } (memory.set v.data b)
      k where
  holds :=
    { curSize_eq := rfl
      maxSize_pos := h.maxSize_pos
      lists := hcapacity ▸ RawMemory.lists_set h.lists.lt_next hb }
  data_eq_or := Or.inl rfl
  block_eq _ _ hne := RawMemory.set_block_of_ne hne b
  next_le := le_refl _

theorem new_holds (memory : RawMemory α) :
    (new memory).1.Holds (new memory).2 [] where
  curSize_eq := rfl
  maxSize_pos := Nat.succ_pos 31
  lists := RawMemory.lists_malloc

/-- `Clean` frees the block of the vector and no other one. -/
theorem Holds.clean (h : v.Holds memory l) :
    ∃ memory', v.clean memory = some memory' ∧
      memory'.next = memory.next ∧
        ∀ name, name ≠ v.data → memory'.block name = memory.block name := by
  obtain ⟨b, hb, -, hlists⟩ := h.lists.exists_block
  obtain ⟨b', hdestroy⟩ := hlists.destroyFrom
  refine ⟨{ memory with block := Function.update memory.block v.data none },
    ?_, rfl, fun name hne => Function.update_of_ne hne _ _⟩
  rw [ThomasVector.clean, hb, Option.bind_some, h.curSize_eq, hdestroy,
    Option.bind_some, RawMemory.free, hb, Option.map_some]

/-- The copy holds the same items in a fresh block. -/
theorem Holds.allocateCopy (h : v.Holds memory l) (maxSize : ℕ)
    (hpos : 0 < maxSize) (hle : l.length ≤ maxSize) :
    ∃ memory', v.allocateCopy maxSize memory =
        some ({ v with data := memory.next, maxSize := maxSize }, memory') ∧
      Holds { v with data := memory.next, maxSize := maxSize } memory' l ∧
        memory'.next = memory.next + 1 ∧
          ∀ name < memory.next,
            memory'.block name = memory.block name := by
  obtain ⟨b, hb, -, hlists⟩ := h.lists.exists_block
  obtain ⟨b', hcopy, hcap, hlists'⟩ :=
    hlists.copyFrom (Block.raw maxSize) hle
  refine ⟨(memory.malloc maxSize).2.set memory.next b', ?_, ?_, rfl, ?_⟩
  · rw [ThomasVector.allocateCopy, hb, Option.bind_some, h.curSize_eq, hcopy,
      Option.map_some]
  · constructor
    · exact h.curSize_eq
    · exact hpos
    · have hname : memory.next < (memory.malloc maxSize).2.next :=
        Nat.lt_succ_self _
      have hset := RawMemory.lists_set hname hlists'
      rw [hcap] at hset
      exact hset
  · intro name hlt
    rw [RawMemory.set_block_of_ne hlt.ne, RawMemory.malloc_block_of_lt hlt]

/-- `DoubleSpace` keeps the items in their order, and the iterator on its
item. -/
theorem Holds.doubleSpace (h : v.Holds memory l) (pos : Pointer) :
    ∃ v' memory',
      v.doubleSpace pos memory =
          some (v', (v.getId pos).elim pos (fun i => v'.iterator i),
            memory') ∧
        v.Becomes memory v' memory' l ∧ v'.maxSize = 2 * v.maxSize ∧
          v'.data ≠ v.data := by
  have hpos := h.maxSize_pos
  have hle := h.lists.length_le
  obtain ⟨memory₁, hcopy, hholds, hnext, hblock⟩ :=
    h.allocateCopy (2 * v.maxSize) (by omega) (by omega)
  have hold : v.Holds memory₁ l :=
    { curSize_eq := h.curSize_eq
      maxSize_pos := hpos
      lists := h.lists.of_block_eq (hblock v.data h.lists.lt_next)
        (by omega) }
  have hne : memory.next ≠ v.data := h.lists.lt_next.ne'
  obtain ⟨memory₂, hclean, hnext', hblock'⟩ := hold.clean
  refine ⟨{ v with data := memory.next, maxSize := 2 * v.maxSize }, memory₂,
    ?_, ⟨?_, Or.inr (le_refl _), ?_, by omega⟩, rfl, hne⟩
  · rw [ThomasVector.doubleSpace, hcopy, Option.bind_some]
    dsimp only
    rw [hclean, Option.map_some]
    cases v.getId pos with
    | none => rfl
    | some i => rfl
  · constructor
    · exact hholds.curSize_eq
    · exact hholds.maxSize_pos
    · exact hholds.lists.of_block_eq (hblock' _ hne) hnext'.ge
  · intro name hlt hne'
    rw [hblock' name hne', hblock name hlt]

/-- What `makeRoom` does to a vector and an iterator: it stays on its item, or
is left alone when it is on none. -/
structure MakesRoom (v : ThomasVector) (pos : Pointer) (memory : RawMemory α)
    (v' : ThomasVector) (pos' : Pointer) (memory' : RawMemory α)
    (l : List α) : Prop where
  becomes : v.Becomes memory v' memory' l
  room : l.length < v'.maxSize
  kept : ∀ i < l.length, pos = v.iterator i → pos' = v'.iterator i
  stale : (∀ i < l.length, v.iterator i ≠ pos) → pos' = pos
  same : l.length < v.maxSize → v'.data = v.data
  moved : v.maxSize ≤ l.length → v'.data ≠ v.data

theorem Holds.makeRoom (h : v.Holds memory l) (pos : Pointer) :
    ∃ v' pos' memory', v.makeRoom pos memory = some (v', pos', memory') ∧
      v.MakesRoom pos memory v' pos' memory' l := by
  have hle := h.lists.length_le
  by_cases hroom : l.length < v.maxSize
  · refine ⟨v, pos, memory, ?_, .refl h, hroom, fun _ _ heq => heq,
      fun _ => rfl, fun _ => rfl,
      fun hfull => absurd hroom (not_lt.mpr hfull)⟩
    rw [ThomasVector.makeRoom, h.curSize_eq, if_neg (by omega)]
  · obtain ⟨v', memory', hrun, hstep, hmax, hne⟩ := h.doubleSpace pos
    have hpos := h.maxSize_pos
    refine ⟨v', (v.getId pos).elim pos fun i => v'.iterator i, memory', ?_,
      hstep, by omega, fun i hi heq => ?_, fun hout => ?_,
      fun hlt => absurd hlt hroom, fun _ => hne⟩
    · rw [ThomasVector.makeRoom, h.curSize_eq, if_pos (by omega), hrun]
    · rw [heq, getId_iterator (h.curSize_eq ▸ hi)]
      rfl
    · rw [getId_eq_none (h.curSize_eq ▸ hout)]
      rfl

/-! ## The operations on the items -/

/-- An item is inserted at an iterator of the vector, but at its end only
while there is room. -/
theorem Holds.insert (h : v.Holds memory l) (value : α)
    (hi : i < l.length ∨ i = l.length ∧ l.length < v.maxSize) :
    ∃ v' memory', v.insert (v.iterator i) value memory =
        some (v'.iterator i, v', memory') ∧
      v.Becomes memory v' memory' (l.insertIdx i value) := by
  obtain ⟨v₁, pos₁, memory₁, hroom, hmakes⟩ := h.makeRoom (v.iterator i)
  have hpos : pos₁ = v₁.iterator i := by
    rcases hi with hlt | ⟨rfl, hfree⟩
    · exact hmakes.kept i hlt rfl
    · rw [hmakes.stale, iterator, iterator, hmakes.same hfree]
      intro j hj heq
      have heq' : (j : ℤ) = l.length := congrArg Pointer.offset heq
      omega
  subst hpos
  have hle : i ≤ l.length := by omega
  have hholds := hmakes.becomes.holds
  obtain ⟨b, hb, hcap, hlists⟩ := hholds.lists.exists_block
  obtain ⟨b₁, b₂, hshift, hconstruct, hcap', hlists'⟩ :=
    hlists.insert hle (hcap ▸ hmakes.room) value
  have hset := becomes_set hholds (hcap'.trans hcap) hlists'
  refine ⟨_, _, ?_, hmakes.becomes.trans hset⟩
  have hid : ({ v₁ with curSize := v₁.curSize + 1 } : ThomasVector).getId
      (v₁.iterator i) = some i :=
    getId_iterator (v := { v₁ with curSize := v₁.curSize + 1 })
      (show i < v₁.curSize + 1 by rw [hholds.curSize_eq]; omega)
  rw [ThomasVector.insert, hroom, Option.bind_some]
  dsimp only
  rw [hid, Option.bind_some, hb, Option.bind_some, Nat.add_sub_cancel,
    hholds.curSize_eq, hshift, Option.bind_some, hconstruct, Option.map_some,
    List.length_insertIdx_of_le_length hle]
  rfl

/-- An insertion at an address that is no item, and not the end of a vector
with room, falls off the end of `GetId`. -/
theorem Holds.insert_eq_none (h : v.Holds memory l) (value : α)
    (hblock : pos.block = v.data) (hout : ∀ i < l.length, v.iterator i ≠ pos)
    (hend : pos = v.iterator l.length → v.maxSize ≤ l.length) :
    v.insert pos value memory = none := by
  obtain ⟨v₁, pos₁, memory₁, hroom, hmakes⟩ := h.makeRoom pos
  obtain rfl := hmakes.stale hout
  have hid : ({ v₁ with curSize := v₁.curSize + 1 } : ThomasVector).getId
      pos₁ = none := by
    apply getId_eq_none
    intro i hi heq
    have hdata : v₁.data = v.data := (congrArg Pointer.block heq).trans hblock
    have hiterator : v.iterator i = pos₁ := by
      rw [← heq, iterator, iterator, ← hdata]
    have hi : i < l.length + 1 := hmakes.becomes.holds.curSize_eq ▸ hi
    rcases Nat.lt_succ_iff_lt_or_eq.mp hi with hlt | rfl
    · exact hout i hlt hiterator
    · exact hmakes.moved (hend hiterator.symm) hdata
  rw [ThomasVector.insert, hroom, Option.bind_some]
  dsimp only
  rw [hid, Option.bind_none]

theorem Holds.erase (h : v.Holds memory l) (hi : i < l.length) :
    ∃ v' memory', v.erase (v.iterator i) memory =
        some (v.iterator i, v', memory') ∧
      v.Becomes memory v' memory' (l.eraseIdx i) := by
  obtain ⟨b, hb, hcap, hlists⟩ := h.lists.exists_block
  obtain ⟨b₁, b₂, hdestroy, hshift, hcap', hlists'⟩ := hlists.erase hi
  have hset := becomes_set h (hcap'.trans hcap) hlists'
  refine ⟨_, _, ?_, hset⟩
  rw [ThomasVector.erase, getId_iterator (h.curSize_eq ▸ hi),
    Option.bind_some, hb, Option.bind_some, hdestroy, Option.bind_some,
    h.curSize_eq, hshift, Option.map_some, List.length_eraseIdx_of_lt hi]

theorem Holds.erase_eq_none (h : v.Holds memory l)
    (hout : ∀ i < l.length, v.iterator i ≠ pos) :
    v.erase pos memory = none := by
  rw [ThomasVector.erase, getId_eq_none (h.curSize_eq ▸ hout),
    Option.bind_none]

theorem Holds.pushBack (h : v.Holds memory l) (value : α) :
    ∃ v' memory', v.pushBack value memory = some (v', memory') ∧
      v.Becomes memory v' memory' (l ++ [value]) := by
  obtain ⟨v₁, pos₁, memory₁, hroom, hmakes⟩ := h.makeRoom (v.iterator 0)
  have hholds := hmakes.becomes.holds
  obtain ⟨b, hb, hcap, hlists⟩ := hholds.lists.exists_block
  obtain ⟨b', hconstruct, hcap', hlists'⟩ :=
    hlists.push (hcap ▸ hmakes.room) value
  have hset := becomes_set hholds (hcap'.trans hcap) hlists'
  refine ⟨_, _, ?_, hmakes.becomes.trans hset⟩
  rw [ThomasVector.pushBack, hroom, Option.bind_some]
  dsimp only
  rw [hb, Option.bind_some, hholds.curSize_eq, hconstruct, Option.map_some,
    List.length_append, List.length_singleton]

theorem Holds.popBack (h : v.Holds memory l) (hl : l ≠ []) :
    ∃ v' memory', v.popBack memory = some (.ok (v', memory')) ∧
      v.Becomes memory v' memory' l.dropLast := by
  obtain ⟨b, hb, hcap, hlists⟩ := h.lists.exists_block
  obtain ⟨b', hdestroy, hcap', hlists'⟩ := hlists.pop hl
  have hset := becomes_set h (hcap'.trans hcap) hlists'
  refine ⟨_, _, ?_, hset⟩
  have hne : l.length ≠ 0 := mt List.length_eq_zero_iff.mp hl
  rw [ThomasVector.popBack, h.curSize_eq, if_neg hne, hb, Option.bind_some,
    hdestroy, Option.map_some, List.length_dropLast]

theorem Holds.clear (h : v.Holds memory l) :
    ∃ v' memory', v.clear memory = some (v', memory') ∧
      v.Becomes memory v' memory' [] := by
  obtain ⟨memory₁, hclean, hnext, hblock⟩ := h.clean
  refine ⟨_, _, by rw [ThomasVector.clear, hclean, Option.map_some], ?_⟩
  constructor
  · exact new_holds memory₁
  · exact Or.inr hnext.ge
  · intro name hlt hne
    rw [← hblock name hne]
    exact RawMemory.malloc_block_of_lt (hnext ▸ hlt)
  · exact hnext.ge.trans (Nat.le_succ _)

theorem Holds.copy (h : v.Holds memory l) :
    ∃ v' memory', v.copy memory = some (v', memory') ∧
      v'.Holds memory' l ∧ v'.data = memory.next ∧
        memory'.next = memory.next + 1 ∧
          ∀ name < memory.next,
            memory'.block name = memory.block name := by
  obtain ⟨memory', hcopy, hholds, hnext, hblock⟩ :=
    h.allocateCopy v.maxSize h.maxSize_pos h.lists.length_le
  exact ⟨_, memory', hcopy, hholds, rfl, hnext, hblock⟩

theorem Holds.assign {other : ThomasVector} {k : List α}
    (h : v.Holds memory l) (hother : other.Holds memory k)
    (hne : other.data ≠ v.data) :
    ∃ v' memory', v.assign other memory = some (v', memory') ∧
      v.Becomes memory v' memory' k := by
  obtain ⟨memory₁, hclean, hnext, hblock⟩ := h.clean
  have hother₁ : other.Holds memory₁ k :=
    { curSize_eq := hother.curSize_eq
      maxSize_pos := hother.maxSize_pos
      lists := hother.lists.of_block_eq (hblock _ hne) hnext.ge }
  obtain ⟨v', memory', hcopy, hholds, hdata, hnext', hblock'⟩ := hother₁.copy
  refine ⟨v', memory', ?_, hholds, Or.inr ?_, fun name hlt hne' => ?_, ?_⟩
  · rw [ThomasVector.assign, hclean, Option.bind_some, hcopy]
  · rw [hdata, hnext]
  · rw [hblock' name (hnext ▸ hlt), hblock name hne']
  · rw [hnext', hnext]
    exact Nat.le_succ _

/-- `at` throws exactly behind the last item. -/
theorem Holds.get (h : v.Holds memory l) (pos : ℕ) :
    v.get pos memory =
      some (if hpos : pos < l.length then .ok l[pos]
        else .error .indexOutOfBound) := by
  obtain ⟨b, hb, hcap, hlists⟩ := h.lists.exists_block
  rw [ThomasVector.get, h.curSize_eq]
  by_cases hpos : pos < l.length
  · rw [if_neg (not_le.mpr hpos), dif_pos hpos, hb, Option.bind_some,
      hlists.read hpos, Option.map_some]
  · rw [if_pos (not_lt.mp hpos), dif_neg hpos]

end ThomasVector

end TicketSystem.Database
