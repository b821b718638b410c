import Mathlib

/-!
# Bytes in memory

A number in `n` bytes, the lowest byte first, and sequences of bytes that are
written, moved and read at a place of a memory.
-/

namespace TicketSystem.Support

/-- The `n` bytes of a number, lowest first. -/
def toBytes (n s : ℕ) : Fin n → UInt8 :=
  fun k => UInt8.ofNat (s / 256 ^ (k : ℕ))

/-- The number in the bytes. -/
def ofBytes {n : ℕ} (bytes : Fin n → UInt8) : ℕ :=
  ∑ k : Fin n, (bytes k).toNat * 256 ^ (k : ℕ)

theorem toBytes_succ (n s : ℕ) (k : Fin n) :
    toBytes (n + 1) s k.succ = toBytes n (s / 256) k := by
  rw [toBytes, toBytes, Fin.val_succ, pow_succ', Nat.div_div_eq_div_mul]

theorem ofBytes_toBytes {n s : ℕ} (h : s < 256 ^ n) :
    ofBytes (toBytes n s) = s := by
  induction n generalizing s with
  | zero =>
      rw [pow_zero] at h
      rw [ofBytes, Fin.sum_univ_zero]
      omega
  | succ n ih =>
      have hrest : s / 256 < 256 ^ n := by
        rw [pow_succ'] at h
        exact Nat.div_lt_of_lt_mul h
      have hsum : ∑ k : Fin n, (toBytes (n + 1) s k.succ).toNat *
          256 ^ ((k.succ : Fin (n + 1)) : ℕ) = 256 * (s / 256) := by
        calc
          ∑ k : Fin n, (toBytes (n + 1) s k.succ).toNat *
              256 ^ ((k.succ : Fin (n + 1)) : ℕ)
              = ∑ k : Fin n,
                256 * ((toBytes n (s / 256) k).toNat * 256 ^ (k : ℕ)) := by
            apply Finset.sum_congr rfl
            intro k _
            rw [toBytes_succ, Fin.val_succ, pow_succ']
            ring
          _ = 256 * ofBytes (toBytes n (s / 256)) :=
            (Finset.mul_sum _ _ _).symm
          _ = 256 * (s / 256) := by rw [ih hrest]
      have hlow : (toBytes (n + 1) s 0).toNat = s % 256 := by
        simp [toBytes]
      rw [ofBytes, Fin.sum_univ_succ, hsum, hlow]
      simp only [Fin.val_zero, pow_zero, mul_one]
      omega

/-! ## Sequences of bytes -/

section Memory

variable {memory : ℤ → UInt8} {offset : ℤ} {bytes : List UInt8}

def writeBytes (memory : ℤ → UInt8) (offset : ℤ) (bytes : List UInt8) :
    ℤ → UInt8 :=
  fun i =>
    if offset ≤ i then bytes.getD (i - offset).toNat (memory i) else memory i

/-- `n` bytes are moved, also to a place that overlaps with theirs. -/
def moveBytes (memory : ℤ → UInt8) (target source : ℤ) (n : ℕ) : ℤ → UInt8 :=
  fun i =>
    if target ≤ i ∧ i < target + n then memory (source + (i - target))
    else memory i

/-- The bytes stand at the place. -/
def BytesStand (memory : ℤ → UInt8) (offset : ℤ) (bytes : List UInt8) :
    Prop :=
  ∀ k b, bytes[k]? = some b → memory (offset + (k : ℕ)) = b

theorem bytesStand_write (memory : ℤ → UInt8) (offset : ℤ)
    (bytes : List UInt8) :
    BytesStand (writeBytes memory offset bytes) offset bytes := by
  intro k b hb
  have hindex : (offset + (k : ℕ) - offset).toNat = k := by omega
  rw [writeBytes, if_pos (by omega), hindex, List.getD_eq_getElem?_getD, hb]
  rfl

/-- A write elsewhere leaves the bytes. -/
theorem BytesStand.write {offset' : ℤ} {bytes' : List UInt8}
    (h : BytesStand memory offset bytes)
    (hapart : offset + bytes.length ≤ offset' ∨
      offset' + bytes'.length ≤ offset) :
    BytesStand (writeBytes memory offset' bytes') offset bytes := by
  intro k b hb
  have hk : k < bytes.length := (List.getElem?_eq_some_iff.mp hb).1
  have hold := h k b hb
  rw [writeBytes]
  by_cases hbehind : offset' ≤ offset + (k : ℕ)
  · have hout : bytes'[(offset + (k : ℕ) - offset').toNat]? = none := by
      rw [List.getElem?_eq_none_iff]
      omega
    rw [if_pos hbehind, List.getD_eq_getElem?_getD, hout]
    exact hold
  · rw [if_neg hbehind]
    exact hold

/-- What was moved stands at its new place. -/
theorem BytesStand.move_moved {target source : ℤ} {n d : ℕ}
    (h : BytesStand memory (source + d) bytes)
    (hinside : d + bytes.length ≤ n) :
    BytesStand (moveBytes memory target source n) (target + d) bytes := by
  intro k b hb
  have hk : k < bytes.length := (List.getElem?_eq_some_iff.mp hb).1
  have hplace : source + (target + d + (k : ℕ) - target) =
      source + d + (k : ℕ) := by ring
  rw [moveBytes, if_pos (by omega), hplace]
  exact h k b hb

/-- A move to another place leaves the bytes. -/
theorem BytesStand.move {target source : ℤ} {n : ℕ}
    (h : BytesStand memory offset bytes)
    (hapart : offset + bytes.length ≤ target) :
    BytesStand (moveBytes memory target source n) offset bytes := by
  intro k b hb
  have hk : k < bytes.length := (List.getElem?_eq_some_iff.mp hb).1
  rw [moveBytes, if_neg (by omega)]
  exact h k b hb

theorem BytesStand.tail {b : UInt8}
    (h : BytesStand memory offset (b :: bytes)) :
    BytesStand memory (offset + 1) bytes := by
  intro k c hc
  have hplace : offset + 1 + (k : ℕ) = offset + ((k + 1 : ℕ) : ℤ) := by
    push_cast
    ring
  rw [hplace]
  exact h (k + 1) c hc

theorem BytesStand.head {b : UInt8}
    (h : BytesStand memory offset (b :: bytes)) : memory offset = b := by
  have hfirst := h 0 b rfl
  rwa [Nat.cast_zero, add_zero] at hfirst

end Memory

end TicketSystem.Support
