import Mathlib

/-!
# Runs of a step function

A step function takes a state and an input to an answer and a next state, or
to nothing when the system stops abnormally.  `Reaches step Ok s₀` holds of the
states of the runs from `s₀` all of whose steps were taken on an input that
`Ok` admits in the state before the step.
-/

namespace TicketSystem.Support

variable {σ ι ρ : Type*}

/-- The states of the admitted runs from `s₀`. -/
inductive Reaches (step : σ → ι → Option (ρ × σ)) (Ok : σ → ι → Prop)
    (s₀ : σ) : σ → Prop
  | refl : Reaches step Ok s₀ s₀
  | tail {s s' : σ} {i : ι} {r : ρ} :
      Reaches step Ok s₀ s → Ok s i → step s i = some (r, s') →
        Reaches step Ok s₀ s'

namespace Reaches

variable {step : σ → ι → Option (ρ × σ)} {Ok Ok' : σ → ι → Prop}
  {s₀ : σ}

/-- A property of the first state that every admitted step preserves holds
along every run. -/
theorem invariant (Inv : σ → Prop) (hinit : Inv s₀)
    (hstep : ∀ s i r s', Inv s → Ok s i → step s i = some (r, s') → Inv s')
    {s : σ} (h : Reaches step Ok s₀ s) : Inv s := by
  induction h with
  | refl => exact hinit
  | tail _ hok hs ih => exact hstep _ _ _ _ ih hok hs

theorem mono (himp : ∀ s i, Ok s i → Ok' s i) {s : σ}
    (h : Reaches step Ok s₀ s) : Reaches step Ok' s₀ s := by
  induction h with
  | refl => exact .refl
  | tail _ hok hs ih => exact .tail ih (himp _ _ hok) hs

end Reaches

/-- The state after a sequence of inputs. -/
def runSteps (step : σ → ι → Option (ρ × σ)) (s : σ) : List ι → Option σ
  | [] => some s
  | i :: is => (step s i).bind fun out => runSteps step out.2 is

theorem runSteps_append (step : σ → ι → Option (ρ × σ)) (s : σ)
    (is is' : List ι) :
    runSteps step s (is ++ is') =
      (runSteps step s is).bind fun s' => runSteps step s' is' := by
  induction is generalizing s with
  | nil => rfl
  | cons i is ih =>
      simp only [List.cons_append, runSteps, ih]
      cases step s i <;> rfl

/-- Every step of the run on the given inputs is admitted. -/
def StepsOk (step : σ → ι → Option (ρ × σ)) (Ok : σ → ι → Prop) (s : σ) :
    List ι → Prop
  | [] => True
  | i :: is =>
      Ok s i ∧
        match step s i with
        | none => True
        | some out => StepsOk step Ok out.2 is

instance StepsOk.decidable (step : σ → ι → Option (ρ × σ))
    (Ok : σ → ι → Prop) [∀ s i, Decidable (Ok s i)] :
    ∀ (s : σ) (is : List ι), Decidable (StepsOk step Ok s is)
  | _, [] => isTrue trivial
  | s, i :: is =>
      have _hrest : Decidable
          (match step s i with
          | none => True
          | some out => StepsOk step Ok out.2 is) :=
        match step s i with
        | none => isTrue trivial
        | some out => StepsOk.decidable step Ok out.2 is
      inferInstanceAs (Decidable (_ ∧ _))

theorem Reaches.runSteps
    {step : σ → ι → Option (ρ × σ)} {Ok : σ → ι → Prop} {s₀ s s' : σ}
    {is : List ι} (h : Reaches step Ok s₀ s) (hok : StepsOk step Ok s is)
    (hrun : runSteps step s is = some s') : Reaches step Ok s₀ s' := by
  induction is generalizing s with
  | nil =>
      obtain rfl : s = s' := by simpa [Support.runSteps] using hrun
      exact h
  | cons i is ih =>
      obtain ⟨⟨r, t⟩, hstep, hrest⟩ := Option.bind_eq_some_iff.mp hrun
      obtain ⟨hfirst, hlater⟩ := hok
      rw [hstep] at hlater
      exact ih (.tail h hfirst hstep) hlater hrest

/-! ## Answers -/

/-- The answers to a sequence of inputs and the state after them. -/
def runReplies (step : σ → ι → Option (ρ × σ)) (s : σ) :
    List ι → Option (List ρ × σ)
  | [] => some ([], s)
  | i :: is => do
      let (r, s) ← step s i
      let (rs, s) ← runReplies step s is
      return (r :: rs, s)

/-- A machine that never stops answers every sequence of inputs. -/
theorem exists_runReplies (step : σ → ι → ρ × σ) (s : σ) (is : List ι) :
    ∃ rs s', runReplies (fun s i => some (step s i)) s is = some (rs, s') := by
  induction is generalizing s with
  | nil => exact ⟨[], s, rfl⟩
  | cons i is ih =>
      obtain ⟨rs, s', hrun⟩ := ih (step s i).2
      refine ⟨(step s i).1 :: rs, s', ?_⟩
      change (runReplies _ (step s i).2 is).bind _ = _
      rw [hrun]
      rfl

/-- A machine that follows another one step by step gives its answers. -/
theorem runReplies_simulates {τ : Type*} {step : σ → ι → Option (ρ × σ)}
    {step' : τ → ι → Option (ρ × τ)} {R : σ → τ → Prop}
    (hsim : ∀ s t i r t', R s t → step' t i = some (r, t') →
      ∃ s', step s i = some (r, s') ∧ R s' t')
    {s : σ} {t t' : τ} {is : List ι} {rs : List ρ} (hR : R s t)
    (h : runReplies step' t is = some (rs, t')) :
    ∃ s', runReplies step s is = some (rs, s') ∧ R s' t' := by
  induction is generalizing s t rs with
  | nil =>
      obtain ⟨rfl, rfl⟩ := Prod.mk.inj (Option.some.inj h)
      exact ⟨s, rfl, hR⟩
  | cons i is ih =>
      obtain ⟨⟨r, t₁⟩, hstep, hrest⟩ := Option.bind_eq_some_iff.mp h
      obtain ⟨⟨rs', t₂⟩, hrun, heq⟩ := Option.bind_eq_some_iff.mp hrest
      obtain ⟨rfl, rfl⟩ := Prod.mk.inj (Option.some.inj heq)
      obtain ⟨s₁, hstep', hR₁⟩ := hsim s t i r t₁ hR hstep
      obtain ⟨s₂, hrun', hR₂⟩ := ih hR₁ hrun
      refine ⟨s₂, ?_, hR₂⟩
      rw [runReplies, hstep']
      change (runReplies step s₁ is).bind _ = _
      rw [hrun']
      rfl

/-- A machine that does every admitted step of its runs as another one does it
answers them like that one. -/
theorem exists_runReplies_of_simulates {τ : Type*}
    {step : σ → ι → Option (ρ × σ)} {step' : τ → ι → Option (ρ × τ)}
    {Ok : σ → ι → Prop} {R : σ → τ → Prop}
    (hsim : ∀ s t i, R s t → Ok s i → ∃ r s' t', step s i = some (r, s') ∧
      step' t i = some (r, t') ∧ R s' t')
    {s : σ} {t : τ} {is : List ι} (hR : R s t) (hok : StepsOk step Ok s is) :
    ∃ rs s' t', runReplies step s is = some (rs, s') ∧
      runReplies step' t is = some (rs, t') ∧ R s' t' := by
  induction is generalizing s t with
  | nil => exact ⟨[], s, t, rfl, rfl, hR⟩
  | cons i is ih =>
      obtain ⟨hfirst, hlater⟩ := hok
      obtain ⟨r, s₁, t₁, hstep, hstep', hR₁⟩ := hsim s t i hR hfirst
      rw [hstep] at hlater
      obtain ⟨rs, s', t', hrun, hrun', hR'⟩ := ih hR₁ hlater
      refine ⟨r :: rs, s', t', ?_, ?_, hR'⟩
      · rw [runReplies, hstep]
        change (runReplies step s₁ is).bind _ = _
        rw [hrun]
        rfl
      · rw [runReplies, hstep']
        change (runReplies step' t₁ is).bind _ = _
        rw [hrun']
        rfl

end TicketSystem.Support
