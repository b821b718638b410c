import Mathlib

/-!
# Programs over a set of operations

A program is a tree of operations: each is followed by what is done with its
answer.  A handler gives the operations a meaning on a state.  The rules below
are those of total correctness, and what is proved about one handler passes to
another one that simulates it.
-/

namespace TicketSystem.Support

/-- A program with operations `Op`, answers `Answer op` and errors `ε`. -/
inductive Program (Op : Type) (Answer : Op → Type) (ε α : Type) : Type
  | pure (value : α)
  | throw (error : ε)
  | perform (op : Op) (next : Answer op → Program Op Answer ε α)

namespace Program

variable {Op : Type} {Answer : Op → Type} {ε α β σ τ : Type}

protected def bind : Program Op Answer ε α →
    (α → Program Op Answer ε β) → Program Op Answer ε β
  | .pure value, f => f value
  | .throw error, _ => .throw error
  | .perform op next, f => .perform op fun answer => (next answer).bind f

instance : Monad (Program Op Answer ε) where
  pure := .pure
  bind := Program.bind

/-- The program of one operation. -/
def lift (op : Op) : Program Op Answer ε (Answer op) :=
  .perform op .pure

/-- Runs a program.  An operation without meaning in the state it is performed
in ends the run, like an error. -/
def run (handle : (op : Op) → σ → Option (Answer op × σ)) :
    Program Op Answer ε α → σ → Except (Option ε) (α × σ)
  | .pure value, s => .ok (value, s)
  | .throw error, _ => .error (some error)
  | .perform op next, s =>
      match handle op s with
      | none => .error none
      | some (answer, s) => (next answer).run handle s

variable {handle : (op : Op) → σ → Option (Answer op × σ)}
  {p : Program Op Answer ε α} {f : α → Program Op Answer ε β}

/-! ## Total correctness -/

/-- From `s` the program ends with a value and a state as in `Q`. -/
def Ends (handle : (op : Op) → σ → Option (Answer op × σ))
    (p : Program Op Answer ε α) (s : σ) (Q : α → σ → Prop) : Prop :=
  ∃ value s', p.run handle s = .ok (value, s') ∧ Q value s'

theorem ends_pure {value : α} {s : σ} {Q : α → σ → Prop} (h : Q value s) :
    Ends handle (Pure.pure value : Program Op Answer ε α) s Q :=
  ⟨value, s, rfl, h⟩

theorem ends_lift {op : Op} {s : σ} (answer : Answer op) (s' : σ)
    {Q : Answer op → σ → Prop} (hop : handle op s = some (answer, s'))
    (h : Q answer s') :
    Ends handle (lift op : Program Op Answer ε (Answer op)) s Q := by
  refine ⟨answer, s', ?_, h⟩
  simp only [lift, run, hop]

/-- The first part ends where the second begins. -/
theorem run_bind_of_ok {s s' : σ} {value : α}
    (h : p.run handle s = .ok (value, s')) :
    (p >>= f).run handle s = (f value).run handle s' := by
  induction p generalizing s with
  | pure value' =>
      obtain ⟨rfl, rfl⟩ := Prod.mk.inj (Except.ok.inj h)
      rfl
  | throw error => cases h
  | perform op next ih =>
      simp only [run] at h
      change (perform op fun answer => (next answer).bind f).run handle s = _
      rw [run]
      split at h
      · cases h
      · exact ih _ h

theorem run_bind_of_error {s : σ} {error : Option ε}
    (h : p.run handle s = .error error) :
    (p >>= f).run handle s = .error error := by
  induction p generalizing s with
  | pure value => cases h
  | throw error' =>
      obtain rfl := Except.error.inj h
      rfl
  | perform op next ih =>
      simp only [run] at h
      change (perform op fun answer => (next answer).bind f).run handle s = _
      rw [run]
      split at h
      · obtain rfl := Except.error.inj h
        rfl
      · exact ih _ h

/-- A run of two parts is a run of the first one and then of the second. -/
theorem exists_of_run_bind {s s' : σ} {value : β}
    (h : (p >>= f).run handle s = .ok (value, s')) :
    ∃ first s₁, p.run handle s = .ok (first, s₁) ∧
      (f first).run handle s₁ = .ok (value, s') := by
  cases hrun : p.run handle s with
  | error error =>
      rw [run_bind_of_error hrun] at h
      cases h
  | ok result =>
      rw [run_bind_of_ok hrun] at h
      exact ⟨result.1, result.2, rfl, h⟩

theorem ends_bind {s : σ} {Q : β → σ → Prop}
    (h : Ends handle p s fun value s' => Ends handle (f value) s' Q) :
    Ends handle (p >>= f) s Q := by
  obtain ⟨value, s', hrun, value', s'', hrun', hQ⟩ := h
  exact ⟨value', s'', (run_bind_of_ok hrun).trans hrun', hQ⟩

theorem Ends.mono {s : σ} {P Q : α → σ → Prop} (h : Ends handle p s P)
    (himp : ∀ value s', P value s' → Q value s') : Ends handle p s Q := by
  obtain ⟨value, s', hrun, hP⟩ := h
  exact ⟨value, s', hrun, himp value s' hP⟩

/-! ## The operations of a run -/

/-- The operations that a run performs, each with the state it is performed
in. -/
def steps (handle : (op : Op) → σ → Option (Answer op × σ)) :
    Program Op Answer ε α → σ → List (Op × σ)
  | .pure _, _ => []
  | .throw _, _ => []
  | .perform op next, s =>
      (op, s) ::
        match handle op s with
        | none => []
        | some (answer, s) => (next answer).steps handle s

theorem steps_bind_of_ok {s s' : σ} {value : α}
    (h : p.run handle s = .ok (value, s')) :
    (p >>= f).steps handle s =
      p.steps handle s ++ (f value).steps handle s' := by
  induction p generalizing s with
  | pure value' =>
      obtain ⟨rfl, rfl⟩ := Prod.mk.inj (Except.ok.inj h)
      rfl
  | throw error => cases h
  | perform op next ih =>
      simp only [run] at h
      change (perform op fun answer => (next answer).bind f).steps handle s = _
      rw [steps, steps]
      split at h
      · cases h
      · next answer s₁ hop =>
        exact congrArg _ (ih _ h)

/-- The program performs only operations as in `P`. -/
def Performs (P : Op → Prop) : Program Op Answer ε α → Prop
  | .pure _ => True
  | .throw _ => True
  | .perform op next => P op ∧ ∀ answer, (next answer).Performs P

section Performs

variable {P : Op → Prop}

theorem performs_pure (value : α) :
    (Pure.pure value : Program Op Answer ε α).Performs P :=
  trivial

theorem performs_lift {op : Op} (h : P op) :
    (lift op : Program Op Answer ε (Answer op)).Performs P :=
  ⟨h, fun _ => trivial⟩

theorem performs_bind (h : p.Performs P) (hf : ∀ value, (f value).Performs P) :
    (p >>= f).Performs P := by
  induction p with
  | pure value => exact hf value
  | throw error => trivial
  | perform op next ih => exact ⟨h.1, fun answer => ih answer (h.2 answer)⟩

theorem Performs.mono {P' : Op → Prop} (h : p.Performs P)
    (himp : ∀ op, P op → P' op) : p.Performs P' := by
  induction p with
  | pure value => trivial
  | throw error => trivial
  | perform op next ih =>
      exact ⟨himp op h.1, fun answer => ih answer (h.2 answer)⟩

theorem performs_ite {c : Prop} [Decidable c] {q : Program Op Answer ε α}
    (hp : p.Performs P) (hq : q.Performs P) :
    (if c then p else q).Performs P := by
  split
  · exact hp
  · exact hq

theorem Performs.of_mem_steps (h : p.Performs P) {s : σ} {step : Op × σ}
    (hstep : step ∈ p.steps handle s) : P step.1 := by
  induction p generalizing s with
  | pure value => simp [steps] at hstep
  | throw error => simp [steps] at hstep
  | perform op next ih =>
      rw [steps] at hstep
      rcases List.mem_cons.mp hstep with rfl | hstep
      · exact h.1
      · split at hstep
        · simp at hstep
        · next answer s' _ => exact ih answer (h.2 answer) hstep

theorem steps_subset_bind {s : σ} :
    p.steps handle s ⊆ (p >>= f).steps handle s := by
  induction p generalizing s with
  | pure value => exact List.nil_subset _
  | throw error => exact List.nil_subset _
  | perform op next ih =>
      change (perform op next).steps handle s ⊆
        (perform op fun answer => (next answer).bind f).steps handle s
      rw [steps, steps]
      apply List.cons_subset_cons
      split
      · exact List.nil_subset _
      · exact ih _

/-- Every run that ends performs an operation as in `P`. -/
def SurelyPerforms (handle : (op : Op) → σ → Option (Answer op × σ))
    (P : Op → Prop) (p : Program Op Answer ε α) : Prop :=
  ∀ s value s', p.run handle s = .ok (value, s') →
    ∃ step ∈ p.steps handle s, P step.1

theorem surelyPerforms_lift {op : Op} (h : P op) :
    SurelyPerforms handle P
      (lift op : Program Op Answer ε (Answer op)) := by
  intro s value s' _
  refine ⟨(op, s), ?_, h⟩
  rw [lift, steps]
  exact List.mem_cons_self

theorem SurelyPerforms.bind (h : SurelyPerforms handle P p)
    (f : α → Program Op Answer ε β) :
    SurelyPerforms handle P (p >>= f) := by
  intro s value s' hrun
  obtain ⟨first, s₁, hfirst, -⟩ := exists_of_run_bind hrun
  obtain ⟨step, hstep, hP⟩ := h s first s₁ hfirst
  exact ⟨step, steps_subset_bind hstep, hP⟩

theorem surelyPerforms_bind (h : ∀ value, SurelyPerforms handle P (f value)) :
    SurelyPerforms handle P (p >>= f) := by
  intro s value s' hrun
  obtain ⟨first, s₁, hfirst, hrest⟩ := exists_of_run_bind hrun
  obtain ⟨step, hstep, hP⟩ := h first s₁ value s' hrest
  refine ⟨step, ?_, hP⟩
  rw [steps_bind_of_ok hfirst]
  exact List.mem_append_right _ hstep

end Performs

/-! ## Programs as parts of others -/

section Translate

variable {Op' : Type} {Answer' : Op' → Type}

/-- The program with every operation replaced by a program that answers as the
operation does. -/
def translate (f : (op : Op) → Program Op' Answer' ε (Answer op)) :
    Program Op Answer ε α → Program Op' Answer' ε α
  | .pure value => .pure value
  | .throw error => .throw error
  | .perform op next => (f op).bind fun answer => (next answer).translate f

/-- A program of which each operation is performed on a part of the state. -/
theorem run_translate {handle' : (op : Op') → τ → Option (Answer' op × τ)}
    {f : (op : Op) → Program Op' Answer' ε (Answer op)} (get : τ → σ)
    (set : σ → τ → τ) (hget : ∀ s t, get (set s t) = s)
    (hset : ∀ s s' t, set s' (set s t) = set s' t)
    (hself : ∀ t, set (get t) t = t)
    (hf : ∀ op t, (f op).run handle' t =
      match handle op (get t) with
      | none => .error none
      | some (answer, s) => .ok (answer, set s t)) (t : τ) :
    (p.translate f).run handle' t =
      (p.run handle (get t)).map fun result => (result.1, set result.2 t) := by
  induction p generalizing t with
  | pure value => exact congrArg (fun t => Except.ok (value, t)) (hself t).symm
  | throw error => rfl
  | perform op next ih =>
      change ((f op) >>= fun answer => (next answer).translate f).run handle' t
        = _
      have hop := hf op t
      rw [run]
      cases hhandle : handle op (get t) with
      | none =>
          rw [hhandle] at hop
          exact run_bind_of_error hop
      | some result =>
          rw [hhandle] at hop
          rw [run_bind_of_ok hop, ih, hget]
          simp only [hset]

/-- What holds of the operations of a program and is handed on to those that
they are replaced by. -/
theorem performs_translate {P : Op → Prop} {P' : Op' → Prop}
    {f : (op : Op) → Program Op' Answer' ε (Answer op)}
    (hf : ∀ op, P op → (f op).Performs P') (h : p.Performs P) :
    (p.translate f).Performs P' := by
  induction p with
  | pure value => trivial
  | throw error => trivial
  | perform op next ih =>
      exact performs_bind (hf op h.1) fun answer => ih answer (h.2 answer)

end Translate

/-! ## Simulation -/

/-- A program can be done with another handler if its operations can, which may
depend on the states that this run performs them in. -/
theorem run_simulates_of_steps
    {handle' : (op : Op) → τ → Option (Answer op × τ)} {R : σ → τ → Prop}
    {P : Op → τ → Prop}
    (hsim : ∀ op s answer s' t, handle op s = some (answer, s') → R s t →
      P op t → ∃ t', handle' op t = some (answer, t') ∧ R s' t')
    {s s' : σ} {t : τ} {value : α} (h : p.run handle s = .ok (value, s'))
    (hR : R s t) (hok : ∀ step ∈ p.steps handle' t, P step.1 step.2) :
    (∃ t', p.run handle' t = .ok (value, t') ∧ R s' t') ∧
      ∀ step ∈ p.steps handle' t, ∃ s answer s', R s step.2 ∧
        handle step.1 s = some (answer, s') := by
  induction p generalizing s t with
  | pure value' =>
      obtain ⟨rfl, rfl⟩ := Prod.mk.inj (Except.ok.inj h)
      exact ⟨⟨t, rfl, hR⟩, by simp [steps]⟩
  | throw error => cases h
  | perform op next ih =>
      simp only [run] at h
      split at h
      · cases h
      · next answer s₁ hop =>
        have hfirst : (op, t) ∈ (perform op next).steps handle' t := by
          rw [steps]
          exact List.mem_cons_self
        obtain ⟨t₁, hop', hR₁⟩ := hsim op s answer s₁ t hop hR
          (hok (op, t) hfirst)
        have hsteps : (perform op next).steps handle' t =
            (op, t) :: (next answer).steps handle' t₁ := by
          rw [steps, hop']
        rw [hsteps] at hok ⊢
        obtain ⟨⟨t', hrun, hR'⟩, hlater⟩ := ih answer h hR₁
          fun step hstep => hok step (List.mem_cons_of_mem _ hstep)
        constructor
        · refine ⟨t', ?_, hR'⟩
          rw [run, hop']
          exact hrun
        · intro step hstep
          rcases List.mem_cons.mp hstep with rfl | hstep
          · exact ⟨s, answer, s₁, hR, hop⟩
          · exact hlater step hstep

/-- If the operations of one handler can be done with another one, then so can
the programs. -/
theorem run_simulates {handle' : (op : Op) → τ → Option (Answer op × τ)}
    {R : σ → τ → Prop}
    (hsim : ∀ op s answer s' t, handle op s = some (answer, s') → R s t →
      ∃ t', handle' op t = some (answer, t') ∧ R s' t')
    {s s' : σ} {t : τ} {value : α} (h : p.run handle s = .ok (value, s'))
    (hR : R s t) :
    ∃ t', p.run handle' t = .ok (value, t') ∧ R s' t' :=
  (run_simulates_of_steps (P := fun _ _ => True)
    (fun op s answer s' t hop hR _ => hsim op s answer s' t hop hR) h hR
    fun _ _ => trivial).1

/-- Along a run, from the state before each operation on, a relation that
every operation keeps goes back to the first state. -/
theorem rel_of_mem_steps {Rel : σ → σ → Prop} (hrefl : ∀ s, Rel s s)
    (htrans : ∀ s t u, Rel s t → Rel t u → Rel s u)
    (hstep : ∀ op s answer s', handle op s = some (answer, s') → Rel s s')
    {s : σ} {step : Op × σ} (h : step ∈ p.steps handle s) :
    Rel s step.2 := by
  induction p generalizing s with
  | pure value => simp [steps] at h
  | throw error => simp [steps] at h
  | perform op next ih =>
      rw [steps] at h
      rcases List.mem_cons.mp h with rfl | h
      · exact hrefl s
      · split at h
        · simp at h
        · next answer s' hop =>
          exact htrans s s' step.2 (hstep op s answer s' hop) (ih answer h)

/-- A property of the states that every operation preserves. -/
theorem run_invariant {Inv : σ → Prop}
    (hstep : ∀ op s answer s', handle op s = some (answer, s') → Inv s →
      Inv s')
    {s s' : σ} {value : α} (h : p.run handle s = .ok (value, s'))
    (hs : Inv s) : Inv s' := by
  have hsim : ∀ op s answer s' t, handle op s = some (answer, s') →
      s = t ∧ Inv s → ∃ t', handle op t = some (answer, t') ∧
        s' = t' ∧ Inv s' := by
    rintro op s answer s' _ hop ⟨rfl, hinv⟩
    exact ⟨s', hop, rfl, hstep op s answer s' hop hinv⟩
  obtain ⟨_, -, -, hinv⟩ := run_simulates hsim h ⟨rfl, hs⟩
  exact hinv

end Program

end TicketSystem.Support
