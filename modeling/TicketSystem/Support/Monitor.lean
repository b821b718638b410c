import Mathlib

/-!
# Monitors

Threads share a state under a mutex and wait on condition variables.  A visit
is what a thread does from where it takes the mutex to where it gives it back;
visits exclude each other, so that a run is a sequence of visits.  A thread that
waits goes on from the place where it waits: when it is notified, or for no
reason at all.
-/

namespace TicketSystem.Support

/-- Where a thread is: about to go on at a place, or waiting there. -/
inductive Stage (L C : Type*)
  | ready (place : L)
  | asleep (cond : C) (place : L)
  deriving DecidableEq

/-- The notifications of a condition variable. -/
inductive Signal (C : Type*)
  | notifyOne (cond : C)
  | notifyAll (cond : C)
  deriving DecidableEq

/-- What a visit leaves behind. -/
structure Visit (σ L C : Type*) where
  shared : σ
  signals : List (Signal C)
  next : Stage L C
  deriving DecidableEq

/-- The shared state and where the threads are. -/
structure Monitor (T σ L C : Type*) where
  shared : σ
  stages : T → Stage L C

variable {T σ L C : Type*}

namespace Stage

/-- The place of a thread, whether it waits there or not. -/
def place : Stage L C → L
  | ready l => l
  | asleep _ l => l

/-- A thread that waits is woken up. -/
def wake [DecidableEq C] (cond : C) : Stage L C → Stage L C
  | ready l => ready l
  | asleep c l => if c = cond then ready l else asleep c l

@[simp] theorem place_ready (l : L) : (ready l : Stage L C).place = l := rfl

@[simp] theorem place_asleep (c : C) (l : L) : (asleep c l).place = l := rfl

theorem place_update [DecidableEq T] (stages : T → Stage L C) (t : T)
    (stage : Stage L C) :
    (fun u => (Function.update stages t stage u).place) =
      Function.update (fun u => (stages u).place) t stage.place := by
  funext u
  by_cases h : u = t
  · rw [h, Function.update_self, Function.update_self]
  · rw [Function.update_of_ne h, Function.update_of_ne h]

variable [DecidableEq C]

@[simp] theorem place_wake (c : C) (stage : Stage L C) :
    (stage.wake c).place = stage.place := by
  cases stage with
  | ready l => rfl
  | asleep c' l =>
      by_cases h : c' = c
      · rw [wake, if_pos h, place_ready, place_asleep]
      · rw [wake, if_neg h]

theorem wake_ne (c : C) (stage : Stage L C) (l : L) :
    stage.wake c ≠ asleep c l := by
  cases stage with
  | ready l' =>
      intro heq
      cases heq
  | asleep c' l' =>
      by_cases h : c' = c
      · rw [wake, if_pos h]
        intro heq
        cases heq
      · rw [wake, if_neg h]
        exact fun heq => h (Stage.asleep.inj heq).1

theorem of_wake_eq {c c' : C} {l : L} {stage : Stage L C}
    (h : stage.wake c = asleep c' l) : stage = asleep c' l := by
  cases stage with
  | ready l' => exact h
  | asleep c'' l' =>
      by_cases heq : c'' = c
      · rw [wake, if_pos heq] at h
        cases h
      · rwa [wake, if_neg heq] at h

theorem wake_of_ready {c : C} {l : L} {stage : Stage L C}
    (h : stage = ready l) : stage.wake c = ready l := by
  rw [h, wake]

end Stage

/-! ## Counting threads -/

section Counting

variable [Fintype T]

theorem sum_update [DecidableEq T] (f : L → ℕ) (places : T → L) (t : T)
    (l : L) :
    ∑ u, f (Function.update places t l u) + f (places t) =
      ∑ u, f (places u) + f l := by
  have hrest : ∀ places' : T → L, ∑ u, f (places' u) =
      f (places' t) + ∑ u ∈ Finset.univ.erase t, f (places' u) :=
    fun places' => (Finset.add_sum_erase _ _ (Finset.mem_univ t)).symm
  have hsame : ∑ u ∈ Finset.univ.erase t, f (Function.update places t l u) =
      ∑ u ∈ Finset.univ.erase t, f (places u) := by
    refine Finset.sum_congr rfl fun u hu => ?_
    rw [Function.update_of_ne (Finset.ne_of_mem_erase hu)]
  rw [hrest, hrest places, hsame, Function.update_self]
  omega

/-- How many threads are at places of a kind. -/
def countAt (P : L → Prop) [DecidablePred P] (places : T → L) : ℕ :=
  (Finset.univ.filter fun t => P (places t)).card

variable (P : L → Prop) [DecidablePred P] (places : T → L)

theorem countAt_update [DecidableEq T] (t : T) (l : L) :
    countAt P (Function.update places t l) + (if P (places t) then 1 else 0) =
      countAt P places + if P l then 1 else 0 := by
  rw [countAt, countAt, Finset.card_filter, Finset.card_filter]
  exact sum_update (fun l => if P l then 1 else 0) places t l

theorem countAt_pos : 0 < countAt P places ↔ ∃ t, P (places t) := by
  rw [countAt, Finset.card_pos]
  constructor
  · rintro ⟨t, ht⟩
    exact ⟨t, (Finset.mem_filter.mp ht).2⟩
  · rintro ⟨t, ht⟩
    exact ⟨t, Finset.mem_filter.mpr ⟨Finset.mem_univ t, ht⟩⟩

theorem eq_of_countAt_le_one (h : countAt P places ≤ 1) {t u : T}
    (ht : P (places t)) (hu : P (places u)) : t = u :=
  Finset.card_le_one.mp h t (Finset.mem_filter.mpr ⟨Finset.mem_univ t, ht⟩) u
    (Finset.mem_filter.mpr ⟨Finset.mem_univ u, hu⟩)

end Counting

/-! ## Waking up -/

variable [DecidableEq C] [DecidableEq T]

/-- Some notifications wake threads up.  `notify_one` chooses one that waits,
if there is any. -/
inductive Woken : List (Signal C) → (T → Stage L C) → (T → Stage L C) → Prop
  | nil {stages : T → Stage L C} : Woken [] stages stages
  | all {c : C} {signals : List (Signal C)} {stages stages' : T → Stage L C} :
      Woken signals (fun t => (stages t).wake c) stages' →
        Woken (.notifyAll c :: signals) stages stages'
  | one {c : C} {l : L} {t : T} {signals : List (Signal C)}
      {stages stages' : T → Stage L C} : stages t = .asleep c l →
        Woken signals (Function.update stages t (.ready l)) stages' →
          Woken (.notifyOne c :: signals) stages stages'
  | noOne {c : C} {signals : List (Signal C)} {stages stages' : T → Stage L C} :
      (∀ t l, stages t ≠ .asleep c l) → Woken signals stages stages' →
        Woken (.notifyOne c :: signals) stages stages'

namespace Woken

variable {signals : List (Signal C)} {stages stages' : T → Stage L C}

theorem place (h : Woken signals stages stages') (t : T) :
    (stages' t).place = (stages t).place := by
  induction h with
  | nil => rfl
  | all _ ih => rw [ih, Stage.place_wake]
  | noOne _ _ ih => exact ih
  | @one _ _ u _ stages _ hu _ ih =>
      rw [ih]
      by_cases heq : t = u
      · rw [heq, Function.update_self, hu]
        rfl
      · rw [Function.update_of_ne heq]

/-- Notifications never fail. -/
theorem exists_woken (signals : List (Signal C)) (stages : T → Stage L C) :
    ∃ stages', Woken signals stages stages' := by
  induction signals generalizing stages with
  | nil => exact ⟨stages, .nil⟩
  | cons signal signals ih =>
      cases signal with
      | notifyAll c =>
          obtain ⟨stages', h⟩ := ih fun t => (stages t).wake c
          exact ⟨stages', .all h⟩
      | notifyOne c =>
          by_cases hsome : ∃ t l, stages t = .asleep c l
          · obtain ⟨t, l, ht⟩ := hsome
            obtain ⟨stages', h⟩ := ih (Function.update stages t (.ready l))
            exact ⟨stages', .one ht h⟩
          · obtain ⟨stages', h⟩ := ih stages
            refine ⟨stages', .noOne (fun t l ht => hsome ⟨t, l, ht⟩) h⟩

/-- Nobody is put to sleep. -/
theorem of_asleep (h : Woken signals stages stages') {t : T} {c : C} {l : L}
    (ht : stages' t = .asleep c l) : stages t = .asleep c l := by
  induction h with
  | nil => exact ht
  | all _ ih => exact Stage.of_wake_eq (ih ht)
  | noOne _ _ ih => exact ih ht
  | @one _ _ u _ _ _ _ _ ih =>
      have hupdate := ih ht
      by_cases heq : t = u
      · rw [heq, Function.update_self] at hupdate
        cases hupdate
      · rwa [Function.update_of_ne heq] at hupdate

theorem ready (h : Woken signals stages stages') {t : T} {l : L}
    (ht : stages t = .ready l) : stages' t = .ready l := by
  have hplace := h.place t
  rw [ht, Stage.place_ready] at hplace
  cases hstage : stages' t with
  | ready l' => rw [hstage] at hplace; exact congrArg Stage.ready hplace
  | asleep c l' =>
      have hold := h.of_asleep hstage
      rw [ht] at hold
      cases hold

theorem eq_of_nil (h : Woken signals stages stages') (hsignals : signals = []) :
    stages = stages' := by
  subst hsignals
  cases h
  rfl

/-- After `notify_all` nobody waits any more. -/
theorem ne_of_notifyAll (h : Woken signals stages stages') {c : C}
    (hc : .notifyAll c ∈ signals) (t : T) (l : L) :
    stages' t ≠ .asleep c l := by
  intro ht
  induction h with
  | nil => cases hc
  | all hrest ih =>
      obtain heq | hmem := List.mem_cons.mp hc
      · obtain rfl := Signal.notifyAll.inj heq
        exact Stage.wake_ne _ _ _ (hrest.of_asleep ht)
      · exact ih hmem ht
  | noOne _ _ ih =>
      obtain heq | hmem := List.mem_cons.mp hc
      · cases heq
      · exact ih hmem ht
  | one _ _ ih =>
      obtain heq | hmem := List.mem_cons.mp hc
      · cases heq
      · exact ih hmem ht

/-- After `notify_one` a thread that waited alone does not wait any more. -/
theorem ne_of_notifyOne (h : Woken signals stages stages') {c : C} {t : T}
    (hc : .notifyOne c ∈ signals)
    (halone : ∀ u l, stages u = .asleep c l → u = t) (l : L) :
    stages' t ≠ .asleep c l := by
  intro ht
  induction h with
  | nil => cases hc
  | all hrest ih =>
      obtain heq | hmem := List.mem_cons.mp hc
      · cases heq
      · exact ih hmem (fun u l hu => halone u l (Stage.of_wake_eq hu)) ht
  | noOne hnone hrest ih =>
      obtain heq | hmem := List.mem_cons.mp hc
      · obtain rfl := Signal.notifyOne.inj heq
        exact hnone _ _ (hrest.of_asleep ht)
      · exact ih hmem halone ht
  | @one c' l' u signals stages stages' hu hrest ih =>
      obtain heq | hmem := List.mem_cons.mp hc
      · obtain rfl := Signal.notifyOne.inj heq
        obtain rfl := halone u l' hu
        have hold := hrest.of_asleep ht
        rw [Function.update_self] at hold
        cases hold
      · refine ih hmem (fun v l hv => ?_) ht
        by_cases heq : v = u
        · rw [heq, Function.update_self] at hv
          cases hv
        · rw [Function.update_of_ne heq] at hv
          exact halone v l hv

/-- After `notify_one` some thread that waited does not wait any more. -/
theorem exists_ready_of_notifyOne (h : Woken [.notifyOne c] stages stages')
    {t : T} {l : L} (ht : stages t = .asleep c l) :
    ∃ u l', stages u = .asleep c l' ∧
      stages' = Function.update stages u (.ready l') := by
  cases h with
  | noOne hnone _ => exact absurd ht (hnone t l)
  | @one _ l' u _ _ _ hu hrest =>
      cases hrest
      exact ⟨u, l', hu, rfl⟩

end Woken

/-! ## Runs -/

namespace Monitor

/-- The places of the threads. -/
def places (m : Monitor T σ L C) (t : T) : L :=
  (m.stages t).place

/-- One visit, or a thread that wakes up for no reason.  `acts t l s` are the
visits of the thread `t` at the place `l` with the shared state `s`. -/
inductive Step (acts : T → L → σ → Visit σ L C → Prop) :
    Monitor T σ L C → Monitor T σ L C → Prop
  | visit {m : Monitor T σ L C} {t : T} {l : L} {v : Visit σ L C}
      {stages : T → Stage L C} : m.stages t = .ready l → acts t l m.shared v →
        Woken v.signals m.stages stages →
          Step acts m ⟨v.shared, Function.update stages t v.next⟩
  | spurious {m : Monitor T σ L C} {t : T} {c : C} {l : L} :
      m.stages t = .asleep c l →
        Step acts m ⟨m.shared, Function.update m.stages t (.ready l)⟩

/-- The states of the runs from `start`. -/
def Reachable (acts : T → L → σ → Visit σ L C → Prop)
    (start m : Monitor T σ L C) : Prop :=
  Relation.ReflTransGen (Step acts) start m

variable {acts : T → L → σ → Visit σ L C → Prop} {start m m' : Monitor T σ L C}

/-- A visit that notifies nobody. -/
theorem Step.silent {t : T} {l : L} {v : Visit σ L C}
    (ht : m.stages t = .ready l) (hact : acts t l m.shared v)
    (hsignals : v.signals = []) :
    Step acts m ⟨v.shared, Function.update m.stages t v.next⟩ := by
  refine .visit ht hact ?_
  rw [hsignals]
  exact .nil

/-- A visit moves one thread; who wakes up does not show in the places. -/
theorem Step.places (h : Step acts m m') :
    (∃ t v, m.stages t = .ready (m.places t) ∧
      acts t (m.places t) m.shared v ∧ m'.shared = v.shared ∧
      m'.places = Function.update m.places t v.next.place) ∨
    m'.shared = m.shared ∧ m'.places = m.places := by
  cases h with
  | @visit t l v stages ht hact hwoken =>
      have hl : m.places t = l := by rw [Monitor.places, ht, Stage.place_ready]
      have hstages : (fun u => (stages u).place) = m.places :=
        funext hwoken.place
      refine .inl ⟨t, v, hl ▸ ht, hl ▸ hact, rfl, ?_⟩
      rw [← hstages]
      exact Stage.place_update stages t v.next
  | @spurious t c l ht =>
      have hl : l = m.places t := by
        rw [Monitor.places, ht, Stage.place_asleep]
      refine .inr ⟨rfl, (Stage.place_update m.stages t _).trans ?_⟩
      rw [Stage.place_ready, hl]
      exact Function.update_eq_self t m.places

/-- What the visits preserve of the shared state and the places holds along
every run: waking up changes neither. -/
theorem Reachable.invariant (Inv : σ → (T → L) → Prop)
    (hinit : Inv start.shared start.places)
    (hvisit : ∀ t s places v, Inv s places → acts t (places t) s v →
      Inv v.shared (Function.update places t v.next.place))
    (h : Reachable acts start m) : Inv m.shared m.places := by
  induction h with
  | refl => exact hinit
  | tail _ hstep ih =>
      obtain ⟨t, v, -, hact, hshared, hplaces⟩ | ⟨hshared, hplaces⟩ :=
        hstep.places
      · rw [hshared, hplaces]
        exact hvisit t _ _ v ih hact
      · rw [hshared, hplaces]
        exact ih

/-- Every thread that waits has a reason to. -/
def Justified (reason : C → L → σ → Prop) (m : Monitor T σ L C) : Prop :=
  ∀ t c l, m.stages t = .asleep c l → reason c l m.shared

/-- Nobody waits without a reason, if threads fall asleep for a reason and a
visit that takes a reason away notifies everybody, or one thread where only one
waits. -/
theorem Reachable.justified {reason : C → L → σ → Prop}
    (hinit : Justified reason start)
    (hsleep : ∀ t l s v c l', acts t l s v → v.next = .asleep c l' →
      reason c l' v.shared)
    (hkeep : ∀ m t v u c l, Reachable acts start m → Justified reason m →
      m.stages t = .ready (m.places t) → acts t (m.places t) m.shared v →
      m.stages u = .asleep c l → ¬ reason c l v.shared →
      .notifyAll c ∈ v.signals ∨
        .notifyOne c ∈ v.signals ∧ ∀ u' l', m.stages u' = .asleep c l' → u' = u)
    (h : Reachable acts start m) : Justified reason m := by
  induction h with
  | refl => exact hinit
  | @tail m m' hrun hstep ih =>
      intro u c l hu
      cases hstep with
      | @visit t l' v stages ht hact hwoken =>
          by_cases heq : u = t
          · rw [heq] at hu
            change Function.update stages t v.next t = _ at hu
            rw [Function.update_self] at hu
            exact hsleep t l' _ v c l hact hu
          · change Function.update stages t v.next u = _ at hu
            rw [Function.update_of_ne heq] at hu
            have hl' : m.places t = l' := by
              rw [Monitor.places, ht, Stage.place_ready]
            by_contra hreason
            obtain hall | ⟨hone, halone⟩ := hkeep m t v u c l hrun ih
              (hl' ▸ ht) (hl' ▸ hact) (hwoken.of_asleep hu) hreason
            · exact hwoken.ne_of_notifyAll hall u l hu
            · exact hwoken.ne_of_notifyOne hone halone l hu
      | @spurious t c' l' ht =>
          by_cases heq : u = t
          · rw [heq] at hu
            change Function.update m.stages t _ t = _ at hu
            rw [Function.update_self] at hu
            cases hu
          · change Function.update m.stages t _ u = _ at hu
            rw [Function.update_of_ne heq] at hu
            exact ih u c l hu

end Monitor

end TicketSystem.Support
