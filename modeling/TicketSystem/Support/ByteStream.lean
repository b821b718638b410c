import Mathlib

/-!
# Blocks of bytes in a file

A stream over a file that is open for reading and writing.  It has one position
and a fail bit, and while the fail bit is set nothing moves and nothing is
transferred.  Blocks of `n` bytes are written and read at a position.
-/

namespace TicketSystem.Support

/-- The characters of a file, its length, and the state of the stream. -/
structure ByteStream where
  byte : ℤ → UInt8
  length : ℤ
  position : ℤ
  failbit : Bool

namespace ByteStream

variable {n : ℕ}

/-- A negative position is refused. -/
def seekp (io : ByteStream) (position : ℤ) : ByteStream :=
  if io.failbit then io
  else if position < 0 then { io with failbit := true }
  else { io with position := position }

def write (io : ByteStream) (block : Fin n → UInt8) : ByteStream :=
  if io.failbit then io
  else
    { io with
      byte := fun i =>
        if h : (i - io.position).toNat < n ∧ io.position ≤ i then
          block ⟨(i - io.position).toNat, h.1⟩
        else io.byte i
      length := max io.length (io.position + n)
      position := io.position + n }

/-- How many characters of a block of `n` are read. -/
def gcount (io : ByteStream) (n : ℕ) : ℕ :=
  if io.failbit then 0 else min n (io.length - io.position).toNat

/-- The block at the position.  Reading on behind the end sets the fail bit. -/
def read (io : ByteStream) (n : ℕ) : (Fin n → UInt8) × ByteStream :=
  (fun k => io.byte (io.position + k),
    { io with
      position := io.position + io.gcount n
      failbit := decide (io.gcount n < n) })

def clear (io : ByteStream) : ByteStream :=
  { io with failbit := false }

/-- The block stands in the file at the position. -/
structure Stores (io : ByteStream) (position : ℤ) (block : Fin n → UInt8) :
    Prop where
  byte_eq : ∀ k : Fin n, io.byte (position + k) = block k
  le_length : position + n ≤ io.length

/-- The characters of a block of `n` at the position. -/
def blockAt (position : ℤ) (n : ℕ) : Set ℤ :=
  Set.Ico position (position + n)

variable {io : ByteStream} {position : ℤ} {block : Fin n → UInt8}

@[simp] theorem seekp_byte (io : ByteStream) (position : ℤ) :
    (io.seekp position).byte = io.byte := by
  unfold seekp
  split
  · rfl
  · split <;> rfl

@[simp] theorem seekp_length (io : ByteStream) (position : ℤ) :
    (io.seekp position).length = io.length := by
  unfold seekp
  split
  · rfl
  · split <;> rfl

theorem seekp_of_nonneg (hgood : io.failbit = false)
    (hposition : 0 ≤ position) :
    io.seekp position = { io with position := position } := by
  simp [seekp, hgood, not_lt.mpr hposition]

theorem seekp_of_neg (hposition : position < 0) :
    (io.seekp position).failbit = true := by
  by_cases hfail : io.failbit = true
  · simp [seekp, hfail]
  · simp [seekp, hfail, hposition]

theorem gcount_of_failbit (hfail : io.failbit = true) : io.gcount n = 0 := by
  simp [gcount, hfail]

/-- A block is read whole when it ends before the end of the file. -/
theorem gcount_eq_iff (hgood : io.failbit = false) (hn : 0 < n) :
    io.gcount n = n ↔ io.position + n ≤ io.length := by
  simp only [gcount, hgood]
  constructor
  · intro hcount
    have hle : n ≤ (io.length - io.position).toNat := by
      simpa using hcount
    omega
  · intro hle
    simp only [Bool.false_eq_true, ↓reduceIte, min_eq_left_iff]
    omega

theorem gcount_le : io.gcount n ≤ n := by
  unfold gcount
  split
  · exact Nat.zero_le n
  · exact min_le_left _ _

/-- What is written is stored. -/
theorem stores_write (hgood : io.failbit = false) (block : Fin n → UInt8) :
    (io.write block).Stores io.position block := by
  constructor
  · intro k
    simp only [write, hgood]
    have hindex : (io.position + k - io.position).toNat = k := by omega
    have hin : (io.position + k - io.position).toNat < n ∧
        io.position ≤ io.position + k := by
      rw [hindex]
      exact ⟨k.isLt, by omega⟩
    simp only [Bool.false_eq_true, ↓reduceIte, hin, and_self, ↓reduceDIte]
    congr 1
    exact Fin.ext hindex
  · simp [write, hgood]

/-- A write changes the characters of its block only. -/
theorem write_byte_of_notMem {i : ℤ} (hi : i ∉ blockAt io.position n)
    (block : Fin n → UInt8) : (io.write block).byte i = io.byte i := by
  by_cases hfail : io.failbit = true
  · simp [write, hfail]
  · have hout : ¬ ((i - io.position).toNat < n ∧ io.position ≤ i) := by
      rintro ⟨hlt, hle⟩
      apply hi
      rw [blockAt, Set.mem_Ico]
      omega
    simp [write, hfail, hout]

/-- A write elsewhere leaves a stored block. -/
theorem Stores.write {m : ℕ} {other : Fin m → UInt8}
    (h : io.Stores position block)
    (hapart : Disjoint (blockAt position n) (blockAt io.position m)) :
    (io.write other).Stores position block := by
  constructor
  · intro k
    have hmem : position + k ∈ blockAt position n := by
      have hk := k.isLt
      rw [blockAt, Set.mem_Ico]
      omega
    rw [write_byte_of_notMem (Set.disjoint_left.mp hapart hmem)]
    exact h.byte_eq k
  · unfold ByteStream.write
    split
    · exact h.le_length
    · exact h.le_length.trans (le_max_left _ _)

theorem Stores.of_eq {io' : ByteStream} (h : io.Stores position block)
    (hbyte : io'.byte = io.byte) (hlength : io'.length = io.length) :
    io'.Stores position block where
  byte_eq k := by rw [hbyte, h.byte_eq k]
  le_length := by rw [hlength]; exact h.le_length

/-- A stored block is read back. -/
theorem Stores.read (h : io.Stores io.position block) :
    (io.read n).1 = block := by
  funext k
  exact h.byte_eq k

theorem Stores.gcount (h : io.Stores io.position block)
    (hgood : io.failbit = false) (hn : 0 < n) : io.gcount n = n :=
  (gcount_eq_iff hgood hn).mpr h.le_length

end ByteStream

end TicketSystem.Support
