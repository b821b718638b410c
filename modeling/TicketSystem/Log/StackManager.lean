import TicketSystem.Support.ByteStream
import TicketSystem.Support.Bytes
import TicketSystem.Support.Machine

/-!
# The stack on disk

`StackManager` keeps the number of its elements in memory.  The destructor
writes it to the head of the file, and the constructor reads it when there was a
file; on a new file the member keeps what its memory held.  The elements lie
behind the head at offsets that are computed as an `int`.
-/

namespace TicketSystem.Log

open TicketSystem.Support

/-- `sizeof(size_t)`. -/
abbrev SIZE_BYTES : ℕ := 8

/-- The bytes of an element of `n` bytes. -/
abbrev Element (n : ℕ) := Fin n → UInt8

/-- The members of `StackManager` for elements of `n` bytes. -/
structure StackManager (n : ℕ) where
  stackIo : ByteStream
  sum : ℕ

namespace StackManager

variable {n : ℕ}

/-- The file is opened again, at its begin. -/
def openFile (file : ByteStream) : ByteStream :=
  { file with position := 0, failbit := false }

/-- What a `read` leaves where `old` stood: short reads keep the end of it. -/
def readInto (io : ByteStream) (old : Element n) : Element n × ByteStream :=
  let after := io.read n
  (fun k => if k < io.gcount n then after.1 k else old k, after.2)

/-- The constructor, with what the memory of `sum_` held before; nothing stands
for a file that does not exist. -/
def construct (file : Option ByteStream) (memory : ℕ) : StackManager n :=
  match file with
  | none => ⟨⟨fun _ => 0, 0, 0, false⟩, memory⟩
  | some file =>
      let io := (openFile file).seekp 0
      let (bytes, io) := readInto io (toBytes SIZE_BYTES memory)
      ⟨io, ofBytes bytes⟩

/-- The destructor, which leaves the file. -/
def destruct (stack : StackManager n) : ByteStream :=
  (stack.stackIo.seekp 0).write (toBytes SIZE_BYTES stack.sum)

/-- `sizeof(size_t) + sizeof(T) * sum`, which is converted to an `int`. -/
def offset (n sum : ℕ) : ℤ :=
  Int.bmod ((SIZE_BYTES + n * sum) % 2 ^ 64 : ℕ) (2 ^ 32)

/-- `Push`. -/
def push (stack : StackManager n) (value : Element n) : StackManager n where
  stackIo := (stack.stackIo.seekp (offset n stack.sum)).write value
  sum := (stack.sum + 1) % 2 ^ 64

/-- `Pop` into a variable that holds `value`. -/
def pop (stack : StackManager n) (value : Element n) :
    Element n × StackManager n :=
  let sum := (stack.sum + (2 ^ 64 - 1)) % 2 ^ 64
  let (value, io) := readInto (stack.stackIo.seekp (offset n sum)) value
  (value, ⟨io, sum⟩)

/-- `Size`. -/
def size (stack : StackManager n) : ℕ := stack.sum

/-- `IsEmpty`. -/
def isEmpty (stack : StackManager n) : Bool := stack.sum == 0

end StackManager

/-! ## Sequences of calls -/

/-- The file between two uses, or the stack that is in use. -/
inductive StackState (n : ℕ)
  | closed (file : Option ByteStream)
  | opened (stack : StackManager n)

inductive StackCall (n : ℕ)
  | construct (memory : ℕ)
  | destruct
  | push (value : Element n)
  | pop (value : Element n)

namespace StackState

variable {n : ℕ}

/-- There is no file yet. -/
def start : StackState n := .closed none

/-- One call, with the element that `Pop` answers with.  `Pop` is called only
when `IsEmpty` is false. -/
def step : StackState n → StackCall n →
    Option (Option (Element n) × StackState n)
  | .closed file, .construct memory =>
      some (none, .opened (StackManager.construct file memory))
  | .opened stack, .destruct => some (none, .closed (some stack.destruct))
  | .opened stack, .push value => some (none, .opened (stack.push value))
  | .opened stack, .pop value =>
      if stack.isEmpty then none
      else
        let (value, stack) := stack.pop value
        some (some value, .opened stack)
  | _, _ => none

end StackState

/-! ## What the stack is for -/

/-- The elements that were pushed and not popped yet, the latest first. -/
def liveElements {n : ℕ} (calls : List (StackCall n)) : List (Element n) :=
  calls.foldl
    (fun live call =>
      match call with
      | .push value => value :: live
      | .pop _ => live.tail
      | _ => live)
    []

/-- The stack counts the elements, and `Pop` answers with the latest. -/
structure IsLifo {n : ℕ} (stack : StackManager n) (live : List (Element n)) :
    Prop where
  size_eq : stack.size = live.length
  isEmpty_eq : stack.isEmpty = live.isEmpty
  pop_eq : ∀ value top rest, live = top :: rest →
    (stack.pop value).1 = top

/-! ## The elements in the file -/

section Elements

variable {n : ℕ} {io : ByteStream} {live : List (Element n)}

/-- The elements stand in the file where an `int` can address them. -/
def ElementsStand (io : ByteStream) : List (Element n) → Prop
  | [] => True
  | top :: rest =>
      io.Stores ((SIZE_BYTES + n * rest.length : ℕ) : ℤ) top ∧
        SIZE_BYTES + n * rest.length < 2 ^ 31 ∧ ElementsStand io rest

theorem ElementsStand.of_eq {io' : ByteStream} (h : ElementsStand io live)
    (hbyte : io'.byte = io.byte) (hlength : io'.length = io.length) :
    ElementsStand io' live := by
  induction live with
  | nil => trivial
  | cons top rest ih =>
      obtain ⟨htop, hsmall, hrest⟩ := h
      exact ⟨htop.of_eq hbyte hlength, hsmall, ih hrest⟩

/-- A write to the head or behind the elements leaves them. -/
theorem ElementsStand.write {m : ℕ} {block : Fin m → UInt8}
    (h : ElementsStand io live)
    (hapart : io.position + m ≤ SIZE_BYTES ∨
      ((SIZE_BYTES + n * live.length : ℕ) : ℤ) ≤ io.position) :
    ElementsStand (io.write block) live := by
  induction live with
  | nil => trivial
  | cons top rest ih =>
      obtain ⟨htop, hsmall, hrest⟩ := h
      rw [List.length_cons, mul_add, mul_one] at hapart
      refine ⟨htop.write ?_, hsmall, ih hrest ?_⟩
      · rw [Set.disjoint_left]
        intro i hi hi'
        rw [ByteStream.blockAt, Set.mem_Ico] at hi hi'
        push_cast at hi hi' hapart
        rcases hapart with hhead | hbehind
        · have hnonneg : (0 : ℤ) ≤ n * rest.length := by positivity
          linarith
        · linarith
      · rcases hapart with hhead | hbehind
        · exact Or.inl hhead
        · right
          push_cast at hbehind ⊢
          have hnonneg : (0 : ℤ) ≤ n := Nat.cast_nonneg n
          linarith

/-- An `int` holds a small number. -/
theorem bmod_of_lt {m : ℕ} (hm : m < 2 ^ 31) :
    Int.bmod (m % 2 ^ 64 : ℕ) (2 ^ 32) = m := by
  have hmod : m % 2 ^ 64 = m := Nat.mod_eq_of_lt (by omega)
  rw [hmod]
  apply Int.bmod_eq_of_le_mul_two
  · push_cast
    omega
  · push_cast
    omega

theorem offset_eq {n sum : ℕ} (hsmall : SIZE_BYTES + n * sum < 2 ^ 31) :
    StackManager.offset n sum = ((SIZE_BYTES + n * sum : ℕ) : ℤ) :=
  bmod_of_lt hsmall

/-- The number of the elements is a `size_t`. -/
theorem ElementsStand.length_lt (hn : 0 < n) (h : ElementsStand io live) :
    live.length < 2 ^ 32 := by
  cases live with
  | nil =>
      rw [List.length_nil]
      norm_num
  | cons top rest =>
      have hle : rest.length ≤ n * rest.length := Nat.le_mul_of_pos_left _ hn
      have hsmall := h.2.1
      rw [List.length_cons]
      omega

end Elements

/-! ## What one call does -/

namespace StackManager

variable {n : ℕ} {stack : StackManager n} {live : List (Element n)}

/-- The stack in use holds the elements. -/
structure Holds (stack : StackManager n) (live : List (Element n)) :
    Prop where
  failbit_eq : stack.stackIo.failbit = false
  sum_eq : stack.sum = live.length
  stand : ElementsStand stack.stackIo live

theorem readInto_of_stores {m : ℕ} {io : ByteStream} {block old : Element m}
    (hm : 0 < m) (hgood : io.failbit = false)
    (h : io.Stores io.position block) :
    (readInto io old).1 = block ∧ (readInto io old).2.failbit = false ∧
      (readInto io old).2.byte = io.byte ∧
        (readInto io old).2.length = io.length := by
  have hcount := h.gcount hgood hm
  refine ⟨?_, ?_, rfl, rfl⟩
  · funext k
    simp only [readInto, hcount, k.isLt, if_true]
    exact congrFun h.read k
  · simp [readInto, ByteStream.read, hcount]

/-- What the destructor leaves is what the constructor reads. -/
theorem Holds.destruct (h : stack.Holds live) :
    stack.destruct.Stores 0 (toBytes SIZE_BYTES live.length) ∧
      ElementsStand stack.destruct live := by
  rw [StackManager.destruct, ByteStream.seekp_of_nonneg h.failbit_eq le_rfl,
    h.sum_eq]
  constructor
  · exact ByteStream.stores_write (by exact h.failbit_eq) _
  · apply ElementsStand.write
    · exact h.stand.of_eq rfl rfl
    · left
      simp

theorem holds_construct (hn : 0 < n) {file : ByteStream} (memory : ℕ)
    (hhead : file.Stores 0 (toBytes SIZE_BYTES live.length))
    (hstand : ElementsStand file live) :
    (construct (some file) memory : StackManager n).Holds live := by
  have hseek : (openFile file).seekp 0 = openFile file :=
    ByteStream.seekp_of_nonneg rfl le_rfl
  have hopened : (openFile file).Stores (openFile file).position
      (toBytes SIZE_BYTES live.length) := hhead.of_eq rfl rfl
  obtain ⟨hbytes, hgood, hbyte, hlength⟩ :=
    @readInto_of_stores _ _ _ (toBytes SIZE_BYTES memory) (by decide) rfl
      hopened
  have hlt := hstand.length_lt hn
  simp only [construct, hseek]
  constructor
  · exact hgood
  · rw [hbytes]
    apply ofBytes_toBytes
    norm_num
    omega
  · exact hstand.of_eq hbyte hlength

theorem Holds.push (hn : 0 < n) (h : stack.Holds live) (value : Element n)
    (hsmall : SIZE_BYTES + n * live.length < 2 ^ 31) :
    (stack.push value).Holds (value :: live) := by
  have hlt := h.stand.length_lt hn
  have hio : (stack.push value).stackIo =
      { stack.stackIo with
        position := ((SIZE_BYTES + n * live.length : ℕ) : ℤ) }.write value := by
    rw [StackManager.push, h.sum_eq, offset_eq hsmall,
      ByteStream.seekp_of_nonneg h.failbit_eq (Nat.cast_nonneg _)]
  constructor
  · rw [hio]
    simp [ByteStream.write, h.failbit_eq]
  · rw [StackManager.push, h.sum_eq, List.length_cons,
      Nat.mod_eq_of_lt (by omega)]
  · rw [hio]
    refine ⟨ByteStream.stores_write (by exact h.failbit_eq) value, hsmall, ?_⟩
    apply ElementsStand.write
    · exact h.stand.of_eq rfl rfl
    · exact Or.inr le_rfl

theorem Holds.pop (hn : 0 < n) {top : Element n} {rest : List (Element n)}
    (h : stack.Holds (top :: rest)) (value : Element n) :
    (stack.pop value).1 = top ∧ (stack.pop value).2.Holds rest := by
  obtain ⟨htop, hsmall, hrest⟩ := h.stand
  have hlt := h.stand.length_lt hn
  rw [List.length_cons] at hlt
  have hsum : (stack.sum + (2 ^ 64 - 1)) % 2 ^ 64 = rest.length := by
    rw [h.sum_eq, List.length_cons]
    omega
  have hseek : stack.stackIo.seekp (offset n rest.length) =
      { stack.stackIo with
        position := ((SIZE_BYTES + n * rest.length : ℕ) : ℤ) } := by
    rw [offset_eq hsmall,
      ByteStream.seekp_of_nonneg h.failbit_eq (Nat.cast_nonneg _)]
  obtain ⟨hread, hgood, hbyte, hlength⟩ :=
    @readInto_of_stores n { stack.stackIo with
        position := ((SIZE_BYTES + n * rest.length : ℕ) : ℤ) } top value hn
      h.failbit_eq (htop.of_eq rfl rfl)
  simp only [StackManager.pop, hsum, hseek]
  refine ⟨hread, ?_⟩
  constructor
  · exact hgood
  · rfl
  · exact hrest.of_eq hbyte hlength

/-- A stack that holds the elements is a stack of them. -/
theorem Holds.isLifo (hn : 0 < n) (h : stack.Holds live) :
    IsLifo stack live := by
  constructor
  · exact h.sum_eq
  · rw [StackManager.isEmpty, h.sum_eq]
    cases live <;> rfl
  · rintro value top rest rfl
    exact (h.pop hn value).1

end StackManager

/-! ## What every sequence of calls keeps -/

namespace StackState

variable {n : ℕ}

/-- What is known after the calls. -/
def Sound (calls : List (StackCall n)) : StackState n → Prop
  | .closed none => calls = []
  | .closed (some file) =>
      file.Stores 0 (toBytes SIZE_BYTES (liveElements calls).length) ∧
        ElementsStand file (liveElements calls)
  | .opened stack => stack.Holds (liveElements calls)

theorem liveElements_append (calls : List (StackCall n))
    (call : StackCall n) :
    liveElements (calls ++ [call]) =
      match call with
      | .push value => value :: liveElements calls
      | .pop _ => (liveElements calls).tail
      | _ => liveElements calls := by
  rw [liveElements, List.foldl_append]
  rfl

/-- The memory of `sum_` is zero when the file is created. -/
def StartsFromZero (calls : List (StackCall n)) : Prop :=
  ∀ memory rest, calls = .construct memory :: rest → memory = 0

/-- An `int` holds the offset of every element that is pushed. -/
def OffsetsFit (calls : List (StackCall n)) : Prop :=
  ∀ before value after, calls = before ++ .push value :: after →
    SIZE_BYTES + n * (liveElements before).length < 2 ^ 31

theorem length_liveElements_le (calls : List (StackCall n)) :
    (liveElements calls).length ≤ calls.length := by
  induction calls using List.reverseRecOn with
  | nil => exact le_rfl
  | append_singleton calls call ih =>
      rw [liveElements_append, List.length_append, List.length_singleton]
      cases call with
      | push value => exact Nat.succ_le_succ ih
      | pop value =>
          rw [List.length_tail]
          omega
      | construct memory => exact ih.trans (Nat.le_succ _)
      | destruct => exact ih.trans (Nat.le_succ _)

/-- Short sequences of calls do not come that far. -/
theorem offsetsFit_of_length {calls : List (StackCall n)}
    (h : SIZE_BYTES + n * calls.length < 2 ^ 31) : OffsetsFit calls := by
  rintro before value after rfl
  apply lt_of_le_of_lt _ h
  apply Nat.add_le_add_left
  apply Nat.mul_le_mul_left
  apply (length_liveElements_le before).trans
  rw [List.length_append]
  exact Nat.le_add_right _ _

theorem Sound.step (hn : 0 < n) {state state' : StackState n}
    {calls : List (StackCall n)} {call : StackCall n}
    {reply : Option (Element n)} (h : state.Sound calls)
    (hzero : StartsFromZero (calls ++ [call]))
    (hfit : OffsetsFit (calls ++ [call]))
    (hstep : state.step call = some (reply, state')) :
    state'.Sound (calls ++ [call]) := by
  cases state with
  | closed file =>
      cases call with
      | construct memory =>
          obtain ⟨-, rfl⟩ := Prod.mk.inj (Option.some.inj hstep)
          cases file with
          | none =>
              obtain rfl : calls = [] := h
              obtain rfl : memory = 0 := hzero memory [] rfl
              exact ⟨rfl, rfl, trivial⟩
          | some file =>
              rw [Sound, liveElements_append]
              exact StackManager.holds_construct hn memory h.1 h.2
      | destruct => cases hstep
      | push value => cases hstep
      | pop value => cases hstep
  | opened stack =>
      have hholds : stack.Holds (liveElements calls) := h
      cases call with
      | construct memory => cases hstep
      | destruct =>
          obtain ⟨-, rfl⟩ := Prod.mk.inj (Option.some.inj hstep)
          rw [Sound, liveElements_append]
          exact hholds.destruct
      | push value =>
          obtain ⟨-, rfl⟩ := Prod.mk.inj (Option.some.inj hstep)
          rw [Sound, liveElements_append]
          exact hholds.push hn value (hfit calls value [] rfl)
      | pop value =>
          by_cases hempty : stack.isEmpty = true
          · simp [StackState.step, hempty] at hstep
          · simp only [StackState.step, if_neg hempty] at hstep
            obtain ⟨-, rfl⟩ := Prod.mk.inj (Option.some.inj hstep)
            rw [Sound, liveElements_append]
            rw [(hholds.isLifo hn).isEmpty_eq] at hempty
            cases hlive : liveElements calls with
            | nil => simp [hlive] at hempty
            | cons top rest =>
                rw [hlive] at hholds
                exact (hholds.pop hn value).2

theorem StartsFromZero.of_append {calls : List (StackCall n)}
    {call : StackCall n} (h : StartsFromZero (calls ++ [call])) :
    StartsFromZero calls := by
  rintro memory rest rfl
  exact h memory (rest ++ [call]) rfl

theorem OffsetsFit.of_append {calls : List (StackCall n)}
    {call : StackCall n} (h : OffsetsFit (calls ++ [call])) :
    OffsetsFit calls := by
  rintro before value after rfl
  exact h before value (after ++ [call]) (by simp)

theorem sound_of_runSteps (hn : 0 < n) {calls : List (StackCall n)}
    {state : StackState n} (hzero : StartsFromZero calls)
    (hfit : OffsetsFit calls) (hrun : runSteps step start calls = some state) :
    state.Sound calls := by
  induction calls using List.reverseRecOn generalizing state with
  | nil =>
      obtain rfl : start = state := by simpa [runSteps] using hrun
      rfl
  | append_singleton calls call ih =>
      rw [runSteps_append] at hrun
      obtain ⟨before, hbefore, hlast⟩ := Option.bind_eq_some_iff.mp hrun
      obtain ⟨⟨reply, after⟩, hstep, hdone⟩ :=
        Option.bind_eq_some_iff.mp hlast
      obtain rfl : after = state := by simpa [runSteps] using hdone
      exact (ih hzero.of_append hfit.of_append hbefore).step hn hzero hfit
        hstep

/-- The stack is a stack of the live elements whenever it is in use, if its
count started from zero and an `int` held all offsets. -/
theorem isLifo_of_runSteps (hn : 0 < n) {calls : List (StackCall n)}
    {stack : StackManager n} (hzero : StartsFromZero calls)
    (hfit : OffsetsFit calls)
    (hrun : runSteps step start calls = some (.opened stack)) :
    IsLifo stack (liveElements calls) :=
  (sound_of_runSteps hn hzero hfit hrun).isLifo hn

/-- A stack is used, closed and opened again. -/
def reopenedRun : List (StackCall 4) :=
  [.construct 0, .push fun _ => 5, .push fun _ => 6, .pop fun _ => 0,
    .destruct, .construct 9]

theorem isLifo_reopenedRun :
    ∃ stack, runSteps step start reopenedRun = some (.opened stack) ∧
      IsLifo stack [fun _ => 5] := by
  have hzero : StartsFromZero reopenedRun := by
    rintro memory rest ⟨⟩
    rfl
  exact ⟨_, rfl, isLifo_of_runSteps (by decide) hzero
    (offsetsFit_of_length (by decide)) rfl⟩

/-- A stack on a new file counts from what its memory held. -/
theorem not_isLifo_on_new_file :
    ¬ ∀ (calls : List (StackCall 4)) (stack : StackManager 4),
      runSteps step start calls = some (.opened stack) →
        IsLifo stack (liveElements calls) := by
  intro h
  have hsize := (h [.construct 7] _ rfl).size_eq
  cases hsize

end StackState

end TicketSystem.Log
