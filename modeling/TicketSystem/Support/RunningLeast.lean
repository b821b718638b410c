import Mathlib

/-!
# Keeping the least candidate

A loop that replaces the candidate it holds by every one with a strictly
smaller key ends with the first of the candidates with the least key, if that
key is below the one it starts with.  Nested loops that may fail are one such
loop over all candidates in the order in which they are met.
-/

namespace TicketSystem.Support

/-! ## The loop -/

section Least

variable {α κ : Type*} [LinearOrder κ] (key : α → κ) (top : κ)

/-- The key to beat: that of the candidate, or `top` without one. -/
def keyOr : Option α → κ
  | none => top
  | some x => key x

/-- One candidate is met. -/
def better (best : Option α) (x : α) : Option α :=
  if key x < keyOr key top best then some x else best

/-- `x` is the first of the least candidates of a list. -/
def FirstLeast (xs : List α) (x : α) : Prop :=
  ∃ before after, xs = before ++ x :: after ∧
    (∀ y ∈ before, key x < key y) ∧ ∀ y ∈ after, key x ≤ key y

variable {key top}

theorem FirstLeast.mem {xs : List α} {x : α} (h : FirstLeast key xs x) :
    x ∈ xs := by
  obtain ⟨before, after, rfl, -⟩ := h
  simp

theorem FirstLeast.key_le {xs : List α} {x : α} (h : FirstLeast key xs x)
    {y : α} (hy : y ∈ xs) : key x ≤ key y := by
  obtain ⟨before, after, rfl, hbefore, hafter⟩ := h
  rcases List.mem_append.mp hy with hy | hy
  · exact (hbefore y hy).le
  · rcases List.mem_cons.mp hy with rfl | hy
    · exact le_rfl
    · exact hafter y hy

/-- Among the candidates with the least key the first one comes first in every
order of the list. -/
theorem FirstLeast.rel {xs : List α} {x : α} (h : FirstLeast key xs x)
    {R : α → α → Prop} (hR : xs.Pairwise R) {y : α} (hy : y ∈ xs)
    (hle : key y ≤ key x) : y = x ∨ R x y := by
  obtain ⟨before, after, rfl, hbefore, -⟩ := h
  rcases List.mem_append.mp hy with hy | hy
  · exact absurd (hbefore y hy) (not_lt.mpr hle)
  · rcases List.mem_cons.mp hy with rfl | hy
    · exact Or.inl rfl
    · have hlater := (List.pairwise_append.mp hR).2.1
      exact Or.inr ((List.pairwise_cons.mp hlater).1 y hy)

/-- The loop ends with the first least candidate, or there is none below
`top`. -/
theorem foldl_better (xs : List α) :
    (xs.foldl (better key top) none = none ∧ ∀ x ∈ xs, top ≤ key x) ∨
      ∃ x, xs.foldl (better key top) none = some x ∧ key x < top ∧
        FirstLeast key xs x := by
  induction xs using List.reverseRecOn with
  | nil => exact Or.inl ⟨rfl, by simp⟩
  | append_singleton xs y ih =>
      rw [List.foldl_append, List.foldl_cons, List.foldl_nil]
      rcases ih with ⟨hnone, htop⟩ | ⟨x, hsome, hlt, hleast⟩
      · rw [hnone, better, keyOr]
        by_cases hy : key y < top
        · rw [if_pos hy]
          refine Or.inr ⟨y, rfl, hy, xs, [], rfl, ?_, by simp⟩
          exact fun x hx => hy.trans_le (htop x hx)
        · rw [if_neg hy]
          refine Or.inl ⟨rfl, fun x hx => ?_⟩
          rcases List.mem_append.mp hx with hx | hx
          · exact htop x hx
          · obtain rfl := List.mem_singleton.mp hx
            exact not_lt.mp hy
      · rw [hsome, better, keyOr]
        by_cases hy : key y < key x
        · rw [if_pos hy]
          refine Or.inr ⟨y, rfl, hy.trans hlt, xs, [], rfl, ?_, by simp⟩
          exact fun z hz => hy.trans_le (hleast.key_le hz)
        · rw [if_neg hy]
          obtain ⟨before, after, rfl, hbefore, hafter⟩ := hleast
          refine Or.inr ⟨x, rfl, hlt, before, after ++ [y],
            by simp, hbefore, fun z hz => ?_⟩
          rcases List.mem_append.mp hz with hz | hz
          · exact hafter z hz
          · obtain rfl := List.mem_singleton.mp hz
            exact not_lt.mp hy

end Least

/-! ## Nested loops -/

section Enumerates

variable {σ α ι : Type*}

/-- On the states `of`, a computation that may fail goes with `step` over the
elements that `P` holds of, in the order `R`. -/
def Enumerates (of : Option α → σ) (step : Option α → α → Option α)
    (R : α → α → Prop) (F : σ → Option σ) (P : α → Prop) : Prop :=
  ∃ xs : List α, (∀ best, F (of best) = some (of (xs.foldl step best))) ∧
    (∀ x, x ∈ xs ↔ P x) ∧ xs.Pairwise R

variable {of : Option α → σ} {step : Option α → α → Option α}
  {R : α → α → Prop} {F : σ → Option σ} {P : α → Prop}

theorem Enumerates.nothing (hF : ∀ best, F (of best) = some (of best))
    (hP : ∀ x, ¬ P x) : Enumerates of step R F P :=
  ⟨[], hF, fun x => by simp [hP x], List.Pairwise.nil⟩

theorem Enumerates.single {x : α}
    (hF : ∀ best, F (of best) = some (of (step best x)))
    (hP : ∀ y, P y ↔ y = x) : Enumerates of step R F P :=
  ⟨[x], hF, fun y => by simp [hP y], List.pairwise_singleton R x⟩

theorem Enumerates.congr {P' : α → Prop} (h : Enumerates of step R F P)
    (hP : ∀ x, P' x ↔ P x) : Enumerates of step R F P' := by
  obtain ⟨xs, hF, hmem, hR⟩ := h
  exact ⟨xs, hF, fun x => (hmem x).trans (hP x).symm, hR⟩

/-- A loop goes over the elements of its iterations, one after the other. -/
theorem Enumerates.foldlM {items : List ι} {f : σ → ι → Option σ}
    {P : ι → α → Prop} {Q : ι → ι → Prop} (hitems : items.Pairwise Q)
    (h : ∀ i ∈ items, Enumerates of step R (fun s => f s i) (P i))
    (hR : ∀ i ∈ items, ∀ j ∈ items, ∀ x y, Q i j → P i x → P j y → R x y) :
    Enumerates of step R (fun s => items.foldlM f s)
      fun x => ∃ i ∈ items, P i x := by
  induction items with
  | nil => exact .nothing (fun best => rfl) fun x => by simp
  | cons i items ih =>
      obtain ⟨hhead, htail⟩ := List.pairwise_cons.mp hitems
      obtain ⟨xs, hF, hmem, hxs⟩ := h i List.mem_cons_self
      obtain ⟨ys, hFs, hmems, hys⟩ := ih htail
        (fun j hj => h j (List.mem_cons_of_mem i hj))
        (fun j hj k hk => hR j (List.mem_cons_of_mem i hj) k
          (List.mem_cons_of_mem i hk))
      refine ⟨xs ++ ys, fun best => ?_, fun x => ?_, ?_⟩
      · have hfirst : f (of best) i = some (of (xs.foldl step best)) :=
          hF best
        dsimp only
        rw [List.foldlM_cons, hfirst, List.foldl_append]
        exact hFs _
      · rw [List.mem_append, hmem, hmems]
        simp only [List.mem_cons, exists_eq_or_imp]
      · refine List.pairwise_append.mpr ⟨hxs, hys, fun x hx y hy => ?_⟩
        obtain ⟨j, hj, hPj⟩ := (hmems y).mp hy
        exact hR i List.mem_cons_self j (List.mem_cons_of_mem i hj) x y
          (hhead j hj) ((hmem x).mp hx) hPj

end Enumerates

end TicketSystem.Support
