import Mathlib

/-!
# Three-way comparison functions

A three-way comparator answers with the sign of an integer.  When it is a
strict total order whose zero is equality, the comparator and the order it
induces carry the same information; the results here pass between the two.
-/

namespace TicketSystem.Support

variable {K : Type*}

/-- `cmp` is a strict total order in three-way form. -/
structure ThreeWayOrder (cmp : K → K → ℤ) : Prop where
  zero_iff : ∀ a b, cmp a b = 0 ↔ a = b
  swap : ∀ a b, cmp a b < 0 ↔ 0 < cmp b a
  trans : ∀ a b c, cmp a b < 0 → cmp b c < 0 → cmp a c < 0

/-- `cmp` answers with the sign that the order of `K` prescribes. -/
structure Compares [LinearOrder K] (cmp : K → K → ℤ) : Prop where
  neg_iff : ∀ a b, cmp a b < 0 ↔ a < b
  zero_iff : ∀ a b, cmp a b = 0 ↔ a = b

namespace Compares

variable [LinearOrder K] {cmp : K → K → ℤ}

theorem pos_iff (h : Compares cmp) (a b : K) : 0 < cmp a b ↔ b < a := by
  have hneg := h.neg_iff a b
  have hzero := h.zero_iff a b
  rcases lt_trichotomy a b with hlt | heq | hgt
  · have : cmp a b < 0 := hneg.mpr hlt
    constructor
    · intro; omega
    · intro hba; exact absurd (hlt.trans hba) (lt_irrefl _)
  · have : cmp a b = 0 := hzero.mpr heq
    constructor
    · intro; omega
    · intro hba; exact absurd (heq ▸ hba) (lt_irrefl _)
  · constructor
    · intro; exact hgt
    · intro
      have h1 : ¬ cmp a b < 0 := fun hc =>
        absurd ((hneg.mp hc).trans hgt) (lt_irrefl _)
      have h2 : cmp a b ≠ 0 := fun hc => absurd (hzero.mp hc) (ne_of_gt hgt)
      omega

theorem nonneg_iff (h : Compares cmp) (a b : K) : 0 ≤ cmp a b ↔ b ≤ a := by
  rw [← not_lt, h.neg_iff, not_lt]

theorem threeWayOrder (h : Compares cmp) : ThreeWayOrder cmp where
  zero_iff := h.zero_iff
  swap a b := by rw [h.neg_iff, h.pos_iff]
  trans a b c hab hbc :=
    (h.neg_iff a c).mpr
      (((h.neg_iff a b).mp hab).trans ((h.neg_iff b c).mp hbc))

/-- The three-way form of a linear order. -/
theorem of_lt : Compares fun a b : K =>
    if a < b then (-1 : ℤ) else if a = b then 0 else 1 where
  neg_iff a b := by
    split_ifs with h₁ h₂ <;> simp [h₁]
  zero_iff a b := by
    split_ifs with h₁ h₂
    · simp [ne_of_lt h₁]
    · simp [h₂]
    · simp [h₂]

end Compares

namespace ThreeWayOrder

variable {cmp : K → K → ℤ}

/-- The linear order that a three-way strict total order induces. -/
@[reducible] def linearOrder (h : ThreeWayOrder cmp) : LinearOrder K where
  lt a b := cmp a b < 0
  le a b := cmp a b ≤ 0
  le_refl a := le_of_eq ((h.zero_iff a a).mpr rfl)
  le_trans a b c hab hbc := by
    rcases lt_or_eq_of_le hab with hab' | hab'
    · rcases lt_or_eq_of_le hbc with hbc' | hbc'
      · exact (h.trans a b c hab' hbc').le
      · exact (h.zero_iff b c).mp hbc' ▸ hab
    · exact (h.zero_iff a b).mp hab' ▸ hbc
  lt_iff_le_not_ge a b := by
    have h₁ := h.swap a b
    have h₂ := h.zero_iff a b
    have h₃ := h.zero_iff b a
    constructor
    · intro hlt
      exact ⟨hlt.le, not_le.mpr (h₁.mp hlt)⟩
    · rintro ⟨-, hge⟩
      exact h₁.mpr (not_le.mp hge)
  le_antisymm a b hab hba := by
    rcases lt_or_eq_of_le hab with hlt | heq
    · exact absurd hba (not_le.mpr ((h.swap a b).mp hlt))
    · exact (h.zero_iff a b).mp heq
  le_total a b := by
    rcases le_or_gt (cmp a b) 0 with hle | hgt
    · exact Or.inl hle
    · exact Or.inr ((h.swap b a).mpr hgt).le
  toDecidableLE a b := inferInstanceAs (Decidable (cmp a b ≤ 0))
  toDecidableLT a b := inferInstanceAs (Decidable (cmp a b < 0))
  toDecidableEq a b := decidable_of_iff (cmp a b = 0) (h.zero_iff a b)

theorem compares (h : ThreeWayOrder cmp) :
    @Compares K h.linearOrder cmp :=
  @Compares.mk K h.linearOrder cmp (fun _ _ => Iff.rfl) h.zero_iff

end ThreeWayOrder

end TicketSystem.Support
