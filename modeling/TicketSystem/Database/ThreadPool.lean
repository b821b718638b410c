import TicketSystem.Support.Monitor

/-!
# The thread pool

Workers take tasks from a queue and run them with the mutex of the pool still
locked; a task gives it back with the transaction it has begun, which has kept
the pointer to the lock that the pool showed then.  Tasks are submitted by any
number of clients, and one thread destroys the pool.
-/

namespace TicketSystem.Database

open TicketSystem.Support

variable {W U Task : Type}

/-- The threads of a program with a pool. -/
inductive PoolThread (W U : Type)
  | worker (w : W)
  | client (u : U)
  | owner
  deriving DecidableEq, Fintype

/-- The members of `ThreadPool`.  The mutex `latch_` is held across the steps
of a thread only by the worker of `latch`, and `lock` is the worker whose lock
`lock_` points to.  `joined` and `started` record the tasks that were accepted
and those that were begun. -/
structure ThreadPool (W Task : Type) where
  tasks : List Task
  isTerminated : Bool
  lock : Option W
  latch : Option W
  joined : List Task
  started : List Task

/-- What has become of the transaction of a task, which has kept a lock. -/
inductive TaskPhase (W : Type)
  | fresh
  | begun (lock : Option W)
  | unlocked

/-- Where a thread is: `wait` is the call of `cv_.wait`, `failed` is where
`unlock` throws, on a lock that is not locked. -/
inductive PoolPlace (W Task : Type)
  | wait
  | running (task : Task) (phase : TaskPhase W)
  | returned
  | failed
  | outside
  | join (task : Task)
  | notify
  | terminate
  | notifyAll
  | joinWorkers

/-- The condition variable `cv_`. -/
inductive PoolCond
  | cv
  deriving DecidableEq

abbrev PoolVisit (W Task : Type) : Type :=
  Visit (ThreadPool W Task) (PoolPlace W Task) PoolCond

namespace ThreadPool

/-- The pool before the first task. -/
def new : ThreadPool W Task where
  tasks := []
  isTerminated := false
  lock := none
  latch := none
  joined := []
  started := []

/-- `WorkerFunction`, from where it has the mutex to where it waits, returns or
begins the task. -/
def workerFunction (pool : ThreadPool W Task) (w : W) : PoolVisit W Task :=
  match pool.tasks with
  | [] =>
      if pool.isTerminated then ⟨pool, [], .ready .returned⟩
      else ⟨pool, [], .asleep .cv .wait⟩
  | task :: tasks =>
      ⟨{ pool with
          tasks := tasks
          lock := some w
          latch := some w
          started := pool.started ++ [task] },
        [], .ready (.running task .fresh)⟩

theorem workerFunction_signals (pool : ThreadPool W Task) (w : W) :
    (pool.workerFunction w).signals = [] := by
  unfold workerFunction
  cases pool.tasks with
  | nil =>
      dsimp only
      split_ifs <;> rfl
  | cons task tasks => rfl

variable [DecidableEq W]

/-- `Unlock` of a transaction that has kept a lock. -/
def unlock (pool : ThreadPool W Task) (task : Task) (lock : Option W) :
    PoolVisit W Task :=
  if lock ≠ none ∧ pool.latch = lock then
    ⟨{ pool with latch := none }, [], .ready (.running task .unlocked)⟩
  else ⟨pool, [], .ready .failed⟩

theorem unlock_signals (pool : ThreadPool W Task) (task : Task)
    (lock : Option W) : (pool.unlock task lock).signals = [] := by
  unfold unlock
  split_ifs <;> rfl

/-- The end of a task, where the lock of the worker goes out of scope. -/
def finish (pool : ThreadPool W Task) (w : W) : PoolVisit W Task :=
  ⟨{ pool with latch := if pool.latch = some w then none else pool.latch },
    [], .ready .wait⟩

omit [DecidableEq W] in
/-- The locked part of `Join`, which throws `terminated_queue` after the
destructor has begun. -/
def join (pool : ThreadPool W Task) (task : Task) : PoolVisit W Task :=
  if pool.isTerminated then ⟨pool, [], .ready .outside⟩
  else
    ⟨{ pool with tasks := pool.tasks ++ [task], joined := pool.joined ++ [task] },
      [], .ready .notify⟩

omit [DecidableEq W] in
theorem join_signals (pool : ThreadPool W Task) (task : Task) :
    (pool.join task).signals = [] := by
  unfold join
  split_ifs <;> rfl

/-- The visits of the threads.  Those that lock the mutex happen while no
worker holds it. -/
inductive Acts : PoolThread W U → PoolPlace W Task → ThreadPool W Task →
    PoolVisit W Task → Prop
  | work (w : W) (pool : ThreadPool W Task) (hfree : pool.latch = none) :
      Acts (.worker w) .wait pool (pool.workerFunction w)
  | beginTransaction (w : W) (task : Task) (pool : ThreadPool W Task) :
      Acts (.worker w) (.running task .fresh) pool
        ⟨pool, [], .ready (.running task (.begun pool.lock))⟩
  | unlock (w : W) (task : Task) (lock : Option W) (pool : ThreadPool W Task) :
      Acts (.worker w) (.running task (.begun lock)) pool
        (pool.unlock task lock)
  | finish (w : W) (task : Task) (phase : TaskPhase W)
      (pool : ThreadPool W Task) :
      Acts (.worker w) (.running task phase) pool (pool.finish w)
  | callJoin (u : U) (task : Task) (pool : ThreadPool W Task) :
      Acts (.client u) .outside pool ⟨pool, [], .ready (.join task)⟩
  | join (u : U) (task : Task) (pool : ThreadPool W Task)
      (hfree : pool.latch = none) :
      Acts (.client u) (.join task) pool (pool.join task)
  | notify (u : U) (pool : ThreadPool W Task) :
      Acts (.client u) .notify pool ⟨pool, [.notifyOne .cv], .ready .outside⟩
  | destroy (pool : ThreadPool W Task) :
      Acts .owner .outside pool ⟨pool, [], .ready .terminate⟩
  | terminate (pool : ThreadPool W Task) (hfree : pool.latch = none) :
      Acts .owner .terminate pool
        ⟨{ pool with isTerminated := true }, [], .ready .notifyAll⟩
  | notifyAll (pool : ThreadPool W Task) :
      Acts .owner .notifyAll pool
        ⟨pool, [.notifyAll .cv], .ready .joinWorkers⟩

/-- The pool and the threads around it. -/
abbrev Threads (W U Task : Type) : Type :=
  Monitor (PoolThread W U) (ThreadPool W Task) (PoolPlace W Task) PoolCond

/-- The workers are there, nobody has called the pool. -/
def start (W U Task : Type) : Threads W U Task where
  shared := .new
  stages
    | .worker _ => .ready .wait
    | .client _ => .ready .outside
    | .owner => .ready .outside

variable [DecidableEq U]

def Reachable (m : Threads W U Task) : Prop :=
  Monitor.Reachable Acts (start W U Task) m

/-! ## What every visit keeps -/

/-- The places where a thread of a kind can be. -/
def Fits : PoolThread W U → PoolPlace W Task → Prop
  | .worker _, .wait => True
  | .worker _, .running _ _ => True
  | .worker _, .returned => True
  | .client _, .outside => True
  | .client _, .join _ => True
  | .client _, .notify => True
  | .owner, .outside => True
  | .owner, .terminate => True
  | .owner, .notifyAll => True
  | .owner, .joinWorkers => True
  | _, _ => False

/-- A worker has the lock of its task. -/
def Holds : PoolPlace W Task → Prop
  | .running _ .fresh => True
  | .running _ (.begun _) => True
  | _ => False

structure Kept (pool : ThreadPool W Task)
    (places : PoolThread W U → PoolPlace W Task) : Prop where
  fits : ∀ t, Fits t (places t)
  latch : ∀ w, pool.latch = some w ↔ Holds (places (.worker w))
  lock : ∀ w, pool.latch = some w → pool.lock = some w
  begun : ∀ w task lock, places (.worker w) = .running task (.begun lock) →
    lock = some w
  tasks : pool.started ++ pool.tasks = pool.joined
  returned : ∀ w, places (.worker w) = .returned →
    pool.isTerminated = true ∧ pool.tasks = []

namespace Kept

variable {pool pool' : ThreadPool W Task}
  {places : PoolThread W U → PoolPlace W Task} {l : PoolPlace W Task}

/-- A visit of a worker. -/
theorem worker {w : W} (h : Kept pool places)
    (hfits : Fits (.worker w : PoolThread W U) l)
    (hself : pool'.latch = some w ↔ Holds l)
    (hother : ∀ w' ≠ w, pool'.latch = some w' ↔ pool.latch = some w')
    (hlock : ∀ w', pool'.latch = some w' → pool'.lock = some w')
    (hbegun : ∀ task lock, l = .running task (.begun lock) → lock = some w)
    (htasks : pool'.started ++ pool'.tasks = pool'.joined)
    (hended : pool.isTerminated = true ∧ pool.tasks = [] →
      pool'.isTerminated = true ∧ pool'.tasks = [])
    (hreturned : l = .returned →
      pool'.isTerminated = true ∧ pool'.tasks = []) :
    Kept pool' (Function.update places (.worker w) l) := by
  have hne : ∀ {w'}, w' ≠ w → Function.update places (.worker w) l
      (.worker w') = places (.worker w') := by
    intro w' hw'
    exact Function.update_of_ne (fun heq => hw' (PoolThread.worker.inj heq)) ..
  refine ⟨fun t => ?_, fun w' => ?_, hlock, fun w' task lock hw' => ?_, htasks,
    fun w' hw' => ?_⟩
  · by_cases heq : t = .worker w
    · rw [heq, Function.update_self]
      exact hfits
    · rw [Function.update_of_ne heq]
      exact h.fits t
  · by_cases heq : w' = w
    · rw [heq, Function.update_self]
      exact hself
    · rw [hne heq, hother w' heq]
      exact h.latch w'
  · by_cases heq : w' = w
    · rw [heq, Function.update_self] at hw'
      rw [heq]
      exact hbegun task lock hw'
    · rw [hne heq] at hw'
      exact h.begun w' task lock hw'
  · by_cases heq : w' = w
    · rw [heq, Function.update_self] at hw'
      exact hreturned hw'
    · rw [hne heq] at hw'
      exact hended (h.returned w' hw')

/-- A visit of another thread. -/
theorem other {t : PoolThread W U} (h : Kept pool places)
    (ht : ∀ w, t ≠ .worker w) (hfits : Fits t l)
    (hlatch : pool'.latch = pool.latch) (hlock : pool'.lock = pool.lock)
    (htasks : pool'.started ++ pool'.tasks = pool'.joined)
    (hended : pool.isTerminated = true ∧ pool.tasks = [] →
      pool'.isTerminated = true ∧ pool'.tasks = []) :
    Kept pool' (Function.update places t l) := by
  have hne : ∀ w, Function.update places t l (.worker w) =
      places (.worker w) := fun w => Function.update_of_ne (ht w).symm ..
  refine ⟨fun u => ?_, fun w => ?_, fun w hw => ?_, fun w task lock hw => ?_,
    htasks, fun w hw => ?_⟩
  · by_cases heq : u = t
    · rw [heq, Function.update_self]
      exact hfits
    · rw [Function.update_of_ne heq]
      exact h.fits u
  · rw [hlatch, hne]
    exact h.latch w
  · rw [hlatch] at hw
    rw [hlock]
    exact h.lock w hw
  · rw [hne] at hw
    exact h.begun w task lock hw
  · rw [hne] at hw
    exact hended (h.returned w hw)

theorem work {w : W} (h : Kept pool places) (hfree : pool.latch = none) :
    Kept (pool.workerFunction w).shared (Function.update places (.worker w)
      (pool.workerFunction w).next.place) := by
  have hnone : ∀ w', pool.latch = some w' ↔ False := by
    intro w'
    rw [hfree]
    exact iff_of_false (Option.some_ne_none w').symm id
  unfold workerFunction
  cases htasks : pool.tasks with
  | nil =>
      by_cases hended : pool.isTerminated = true
      · dsimp only
        rw [if_pos hended]
        exact h.worker trivial (hnone w) (fun _ _ => Iff.rfl) h.lock
          (fun task lock heq => by cases heq) h.tasks id
          fun _ => ⟨hended, htasks⟩
      · dsimp only
        rw [if_neg hended]
        exact h.worker trivial (hnone w) (fun _ _ => Iff.rfl) h.lock
          (fun task lock heq => by cases heq) h.tasks id
          fun heq => by cases heq
  | cons task tasks =>
      refine h.worker trivial (iff_of_true rfl trivial) (fun w' hw' => ?_)
        (fun w' hw' => hw') (fun task lock heq => by cases heq) ?_
        (fun hended => ?_) fun heq => by cases heq
      · rw [hnone w']
        exact iff_of_false (fun heq => hw' (Option.some.inj heq).symm) id
      · rw [List.append_assoc]
        change pool.started ++ (task :: tasks) = pool.joined
        rw [← htasks]
        exact h.tasks
      · rw [htasks] at hended
        cases hended.2

theorem unlock {w : W} {task : Task} {lock : Option W} (h : Kept pool places)
    (hw : places (.worker w) = .running task (.begun lock)) :
    pool.unlock task lock =
      ⟨{ pool with latch := none }, [], .ready (.running task .unlocked)⟩ ∧
    Kept { pool with latch := none } (Function.update places (.worker w)
      (.running task .unlocked)) := by
  have hlatch : pool.latch = some w := by
    rw [h.latch, hw]
    trivial
  have hlock := h.begun w task lock hw
  constructor
  · rw [hlock]
    exact if_pos ⟨Option.some_ne_none w, hlatch⟩
  · refine h.worker trivial (iff_of_false (Option.some_ne_none w).symm id)
      (fun w' hw' => ?_) (fun w' heq => by cases heq)
      (fun task lock heq => by cases heq) h.tasks id fun heq => by cases heq
    rw [hlatch]
    exact iff_of_false (Option.some_ne_none w').symm
      fun heq => hw' (Option.some.inj heq).symm

theorem finish (w : W) (h : Kept pool places) :
    Kept (pool.finish w).shared (Function.update places (.worker w) .wait) := by
  have hlatch : ∀ w', (pool.finish w).shared.latch = some w' ↔
      w' ≠ w ∧ pool.latch = some w' := by
    intro w'
    change (if pool.latch = some w then none else pool.latch) = some w' ↔ _
    by_cases hw : pool.latch = some w
    · rw [if_pos hw, hw]
      refine iff_of_false (Option.some_ne_none w').symm ?_
      rintro ⟨hne, heq⟩
      exact hne (Option.some.inj heq).symm
    · rw [if_neg hw]
      refine ⟨fun heq => ⟨fun hw' => hw (hw' ▸ heq), heq⟩, And.right⟩
  refine h.worker trivial ?_ (fun w' hw' => ?_) (fun w' hw' => ?_)
    (fun task lock heq => by cases heq) h.tasks id fun heq => by cases heq
  · rw [hlatch]
    exact iff_of_false (fun hw => hw.1 rfl) id
  · rw [hlatch]
    exact and_iff_right hw'
  · exact h.lock w' ((hlatch w').mp hw').2

theorem visit {t : PoolThread W U} {v : PoolVisit W Task}
    (h : Kept pool places) (hact : Acts t (places t) pool v) :
    Kept v.shared (Function.update places t v.next.place) := by
  have hclient : ∀ {u : U} w, (.client u : PoolThread W U) ≠ .worker w :=
    fun w heq => by cases heq
  have howner : ∀ w, (.owner : PoolThread W U) ≠ .worker w :=
    fun w heq => by cases heq
  generalize hl : places t = l at hact
  cases hact with
  | work w _ hfree => exact h.work hfree
  | unlock w task lock =>
      obtain ⟨hunlock, hkept⟩ := h.unlock hl
      rw [hunlock]
      exact hkept
  | finish w task phase => exact h.finish w
  | callJoin => exact h.other hclient trivial rfl rfl h.tasks id
  | notify => exact h.other hclient trivial rfl rfl h.tasks id
  | destroy => exact h.other howner trivial rfl rfl h.tasks id
  | notifyAll => exact h.other howner trivial rfl rfl h.tasks id
  | terminate _ hfree =>
      exact h.other howner trivial rfl rfl h.tasks fun hended => ⟨rfl, hended.2⟩
  | join u task _ hfree =>
      unfold ThreadPool.join
      by_cases hended : pool.isTerminated = true
      · rw [if_pos hended]
        exact h.other hclient trivial rfl rfl h.tasks id
      · rw [if_neg hended]
        refine h.other hclient trivial rfl rfl ?_ fun hboth =>
          absurd hboth.1 hended
        rw [← List.append_assoc, h.tasks]
  | beginTransaction w task =>
      have hlatch : pool.latch = some w := by
        rw [h.latch, hl]
        trivial
      refine h.worker trivial (iff_of_true hlatch trivial)
        (fun _ _ => Iff.rfl) h.lock (fun task' lock heq => ?_) h.tasks id
        fun heq => by cases heq
      cases heq
      exact h.lock w hlatch

end Kept

theorem Reachable.kept {m : Threads W U Task} (h : Reachable m) :
    Kept m.shared m.places := by
  refine Monitor.Reachable.invariant Kept ?_
    (fun _ _ _ _ hkept hact => hkept.visit hact) h
  refine ⟨fun t => ?_, fun w => ?_, fun w hw => ?_, fun w task lock hw => ?_,
    rfl, fun w hw => ?_⟩
  · cases t <;> trivial
  · exact iff_of_false (Option.some_ne_none w).symm id
  · cases hw
  · cases hw
  · cases hw

/-- Tasks are begun in the order in which they were submitted, each one once. -/
theorem started_append_tasks {m : Threads W U Task} (h : Reachable m) :
    m.shared.started ++ m.shared.tasks = m.shared.joined :=
  h.kept.tasks

/-- A transaction unlocks the lock of the worker that runs its task, which is
then locked, and no two workers hold the mutex. -/
theorem unlocks_own_lock {m : Threads W U Task} (h : Reachable m) :
    (∀ t, m.places t ≠ .failed) ∧
      (∀ w task lock, m.places (.worker w) = .running task (.begun lock) →
        lock = some w ∧ m.shared.latch = some w) ∧
      ∀ w w', Holds (m.places (.worker w)) → Holds (m.places (.worker w')) →
        w = w' := by
  have hkept := h.kept
  refine ⟨fun t ht => ?_, fun w task lock hw => ⟨hkept.begun w task lock hw, ?_⟩,
    fun w w' hw hw' => ?_⟩
  · have hfits := hkept.fits t
    rw [ht] at hfits
    cases t <;> exact hfits
  · rw [hkept.latch, hw]
    trivial
  · rw [← hkept.latch] at hw hw'
    rw [hw] at hw'
    exact Option.some.inj hw'

/-- A client has submitted a task and a worker runs it. -/
def oneRunning : Threads Bool Unit ℕ where
  shared :=
    { tasks := []
      isTerminated := false
      lock := some false
      latch := some false
      joined := [7]
      started := [7] }
  stages
    | .worker w => .ready (if w then .wait else .running 7 (.begun (some false)))
    | .client _ => .ready .notify
    | .owner => .ready .outside

theorem reachable_oneRunning : Reachable oneRunning := by
  let called := Function.update (start Bool Unit ℕ).stages (.client ())
    (.ready (.join 7))
  let joined := Function.update called (.client ()) (.ready .notify)
  let worked := Function.update joined (.worker false)
    (.ready (.running 7 .fresh))
  have hcall := Monitor.Step.silent (m := start Bool Unit ℕ) (t := .client ())
    rfl (Acts.callJoin () 7 new) rfl
  have hjoin := Monitor.Step.silent (m := ⟨new, called⟩) (t := .client ())
    rfl (Acts.join () 7 new rfl) rfl
  have hwork := Monitor.Step.silent
    (m := ⟨{ (ThreadPool.new : ThreadPool Bool ℕ) with
      tasks := [7], joined := [7] }, joined⟩) (t := .worker false)
    rfl (Acts.work false _ rfl) rfl
  have hbegin := Monitor.Step.silent (m := ⟨oneRunning.shared, worked⟩)
    (t := .worker false) rfl (Acts.beginTransaction false 7 _) rfl
  have hrun : Reachable _ :=
    (((Relation.ReflTransGen.single hcall).tail hjoin).tail hwork).tail hbegin
  convert hrun using 2
  funext t
  rcases t with (_ | _) | _ | _ <;> rfl

theorem started_append_tasks_oneRunning : [7] ++ [] = [7] :=
  started_append_tasks reachable_oneRunning

theorem unlocks_own_lock_oneRunning :
    (∀ t, oneRunning.places t ≠ .failed) ∧
      (∀ w task lock,
        oneRunning.places (.worker w) = .running task (.begun lock) →
          lock = some w ∧ some false = some w) ∧
      ∀ w w', Holds (oneRunning.places (.worker w)) →
        Holds (oneRunning.places (.worker w')) → w = w' :=
  unlocks_own_lock reachable_oneRunning

/-! ## No task is left behind -/

/-- A thread that will look into the queue or wake up one that does. -/
def pends : Stage (PoolPlace W Task) PoolCond → Bool
  | .ready .wait => true
  | .ready .notify => true
  | _ => false

omit [DecidableEq W] in
theorem pends_wait :
    pends (.ready .wait : Stage (PoolPlace W Task) PoolCond) = true := rfl

omit [DecidableEq W] in
theorem pends_notify :
    pends (.ready .notify : Stage (PoolPlace W Task) PoolCond) = true := rfl

omit [DecidableEq W] in
theorem of_pends {stage : Stage (PoolPlace W Task) PoolCond}
    (h : pends stage = true) : stage = .ready .wait ∨ stage = .ready .notify := by
  cases stage with
  | asleep c l => cases h
  | ready l =>
      cases l with
      | wait => exact .inl rfl
      | notify => exact .inr rfl
      | _ => cases h

theorem Reachable.asleep_wait {m : Threads W U Task} (h : Reachable m)
    {t : PoolThread W U} {c : PoolCond} {l : PoolPlace W Task}
    (ht : m.stages t = .asleep c l) : l = .wait := by
  have hjustified : Monitor.Justified (fun _ l _ => l = .wait) m := by
    refine Monitor.Reachable.justified ?_ ?_ ?_ h
    · intro t c l ht
      cases t <;> cases ht
    · intro t l pool v c l' hact hnext
      cases hact with
      | work w _ _ =>
          unfold workerFunction at hnext
          cases htasks : pool.tasks with
          | nil =>
              rw [htasks] at hnext
              dsimp only at hnext
              split_ifs at hnext
              cases hnext
              rfl
          | cons task tasks =>
              rw [htasks] at hnext
              cases hnext
      | unlock w task lock =>
          unfold ThreadPool.unlock at hnext
          split_ifs at hnext
      | join u task _ _ =>
          unfold ThreadPool.join at hnext
          split_ifs at hnext
      | beginTransaction => cases hnext
      | finish => cases hnext
      | callJoin => cases hnext
      | notify => cases hnext
      | destroy => cases hnext
      | terminate => cases hnext
      | notifyAll => cases hnext
    · intro m t v u c l hm hjustified _ _ hu hends
      exact absurd (hjustified u c l hu) hends
  exact hjustified t c l ht

variable [Fintype W] [Fintype U]

/-- While a worker waits, every task in the queue has a thread that will see
to it, and so has the end of the pool. -/
structure Attended (m : Threads W U Task) : Prop where
  tasks : (∃ t c l, m.stages t = .asleep c l) →
    m.shared.tasks.length ≤ countAt (fun stage => pends stage = true) m.stages
  ended : (∃ t c l, m.stages t = .asleep c l) →
    m.shared.isTerminated = true → ∃ t, m.stages t = .ready .notifyAll

namespace Attended

variable {m : Threads W U Task} {t : PoolThread W U} {l : PoolPlace W Task}
  {v : PoolVisit W Task}

/-- A visit that notifies nobody and does not end in waiting. -/
theorem silent (h : Attended m) (ht : m.stages t = .ready l)
    (hnext : ∀ c l', v.next ≠ .asleep c l')
    (htasks : v.shared.tasks = [] ∨ v.shared.tasks.length +
        (if pends (.ready l : Stage (PoolPlace W Task) PoolCond) = true then 1
          else 0) ≤
      m.shared.tasks.length + if pends v.next = true then 1 else 0)
    (hended : v.shared.isTerminated = true →
      m.shared.isTerminated = true ∧ l ≠ .notifyAll ∨
        v.next = .ready .notifyAll) :
    Attended ⟨v.shared, Function.update m.stages t v.next⟩ := by
  have hasleep : (∃ u c l', Function.update m.stages t v.next u =
      .asleep c l') → ∃ u c l', m.stages u = .asleep c l' := by
    rintro ⟨u, c, l', hu⟩
    by_cases heq : u = t
    · rw [heq, Function.update_self] at hu
      exact absurd hu (hnext c l')
    · rw [Function.update_of_ne heq] at hu
      exact ⟨u, c, l', hu⟩
  refine ⟨fun hu => ?_, fun hu hterminated => ?_⟩
  · change v.shared.tasks.length ≤
      countAt _ (Function.update m.stages t v.next)
    obtain hempty | hle := htasks
    · rw [hempty]
      exact Nat.zero_le _
    · have hcount := countAt_update (fun stage => pends stage = true) m.stages
        t v.next
      have hold := h.tasks (hasleep hu)
      rw [ht] at hcount
      omega
  · obtain ⟨hbefore, hl⟩ | hthis := hended hterminated
    · obtain ⟨u, hu'⟩ := h.ended (hasleep hu) hbefore
      refine ⟨u, ?_⟩
      change Function.update m.stages t v.next u = _
      rw [Function.update_of_ne ?_]
      · exact hu'
      · intro heq
        rw [heq, ht] at hu'
        exact hl (Stage.ready.inj hu')
    · refine ⟨t, ?_⟩
      change Function.update m.stages t v.next t = _
      rw [Function.update_self]
      exact hthis

theorem work {w : W} (h : Attended m)
    (hw : m.stages (.worker w) = .ready .wait) :
    Attended ⟨(m.shared.workerFunction w).shared, Function.update m.stages
      (.worker w) (m.shared.workerFunction w).next⟩ := by
  unfold workerFunction
  cases htasks : m.shared.tasks with
  | nil =>
      by_cases hended : m.shared.isTerminated = true
      · dsimp only
        rw [if_pos hended]
        exact h.silent (v := ⟨m.shared, [], .ready .returned⟩) hw
          (fun c l' heq => by cases heq) (.inl htasks)
          fun _ => .inl ⟨hended, fun heq => by cases heq⟩
      · dsimp only
        rw [if_neg hended]
        refine ⟨fun _ => ?_, fun _ hterminated => absurd hterminated hended⟩
        change m.shared.tasks.length ≤ _
        rw [htasks]
        exact Nat.zero_le _
  | cons task tasks =>
      refine h.silent (v := ⟨_, [], .ready (.running task .fresh)⟩) hw
        (fun c l' heq => by cases heq) (.inr ?_)
        fun hended => .inl ⟨hended, fun heq => by cases heq⟩
      rw [htasks, List.length_cons]
      exact le_refl _

theorem join {t : PoolThread W U} {task : Task} (h : Attended m)
    (ht : m.stages t = .ready (.join task)) :
    Attended ⟨(m.shared.join task).shared,
      Function.update m.stages t (m.shared.join task).next⟩ := by
  unfold ThreadPool.join
  by_cases hended : m.shared.isTerminated = true
  · rw [if_pos hended]
    exact h.silent (v := ⟨m.shared, [], .ready .outside⟩) ht
      (fun c l' heq => by cases heq) (.inr (le_refl _))
      fun _ => .inl ⟨hended, fun heq => by cases heq⟩
  · rw [if_neg hended]
    refine h.silent (v := ⟨_, [], .ready .notify⟩) ht
      (fun c l' heq => by cases heq) (.inr ?_)
      fun hterminated => absurd hterminated hended
    rw [List.length_append]
    exact le_refl _

theorem unlock {t : PoolThread W U} {task : Task} {lock : Option W}
    (h : Attended m) (ht : m.stages t = .ready (.running task (.begun lock))) :
    Attended ⟨(m.shared.unlock task lock).shared,
      Function.update m.stages t (m.shared.unlock task lock).next⟩ := by
  unfold ThreadPool.unlock
  by_cases hlock : lock ≠ none ∧ m.shared.latch = lock
  · rw [if_pos hlock]
    exact h.silent (v := ⟨_, [], .ready (.running task .unlocked)⟩) ht
      (fun c l' heq => by cases heq) (.inr (le_refl _))
      fun hended => .inl ⟨hended, fun heq => by cases heq⟩
  · rw [if_neg hlock]
    exact h.silent (v := ⟨m.shared, [], .ready .failed⟩) ht
      (fun c l' heq => by cases heq) (.inr (le_refl _))
      fun hended => .inl ⟨hended, fun heq => by cases heq⟩

/-- A worker wakes up. -/
theorem wake {u : PoolThread W U} {c : PoolCond} (h : Attended m)
    (hu : m.stages u = .asleep c .wait) :
    m.shared.tasks.length < countAt (fun stage => pends stage = true)
        (Function.update m.stages u (.ready .wait)) ∧
      (m.shared.isTerminated = true →
        ∃ t, Function.update m.stages u (.ready .wait) t = .ready .notifyAll) := by
  constructor
  · have hcount := countAt_update (fun stage => pends stage = true) m.stages u
      (.ready .wait)
    have hold := h.tasks ⟨u, c, .wait, hu⟩
    rw [if_neg (by rw [hu]; exact Bool.false_ne_true), if_pos pends_wait]
      at hcount
    omega
  · intro hended
    obtain ⟨t, ht⟩ := h.ended ⟨u, c, .wait, hu⟩ hended
    refine ⟨t, ?_⟩
    rw [Function.update_of_ne ?_]
    · exact ht
    · intro heq
      rw [heq, hu] at ht
      cases ht

theorem notify {u : U} {stages : PoolThread W U → Stage (PoolPlace W Task) PoolCond}
    (h : Attended m) (hreach : Reachable m)
    (hu : m.stages (.client u) = .ready .notify)
    (hwoken : Woken [.notifyOne .cv] m.stages stages) :
    Attended ⟨m.shared,
      Function.update stages (.client u) (.ready .outside)⟩ := by
  have hne : ∀ {t : PoolThread W U} {c : PoolCond} {l : PoolPlace W Task},
      Function.update stages (.client u) (.ready .outside) t = .asleep c l →
        stages t = .asleep c l := by
    intro t c l ht
    by_cases heq : t = .client u
    · rw [heq, Function.update_self] at ht
      cases ht
    · rwa [Function.update_of_ne heq] at ht
  cases hwoken with
  | noOne hnone hrest =>
      cases hrest
      refine ⟨?_, ?_⟩
      · rintro ⟨t, ⟨⟩, l, ht⟩
        exact absurd (hne ht) (hnone t l)
      · rintro ⟨t, ⟨⟩, l, ht⟩ -
        exact absurd (hne ht) (hnone t l)
  | @one _ l w _ _ _ hw hrest =>
      cases hrest
      obtain rfl := hreach.asleep_wait hw
      obtain ⟨htasks, hended⟩ := h.wake hw
      have huw : .client u ≠ w := by
        intro heq
        rw [← heq, hu] at hw
        cases hw
      refine ⟨fun _ => ?_, fun _ hterminated => ?_⟩
      · have hcount := countAt_update (fun stage => pends stage = true)
          (Function.update m.stages w (.ready .wait)) (.client u)
          (.ready .outside)
        rw [Function.update_of_ne huw, hu, if_pos pends_notify,
          if_neg (by exact Bool.false_ne_true)] at hcount
        change m.shared.tasks.length ≤ countAt _ (Function.update _ _ _)
        omega
      · obtain ⟨t, ht⟩ := hended hterminated
        refine ⟨t, ?_⟩
        change Function.update _ (.client u) _ t = _
        rw [Function.update_of_ne ?_]
        · exact ht
        · intro heq
          rw [heq, Function.update_of_ne huw, hu] at ht
          cases ht

theorem step {m' : Threads W U Task} (h : Attended m) (hreach : Reachable m)
    (hstep : Monitor.Step Acts m m') : Attended m' := by
  cases hstep with
  | spurious hu =>
      obtain rfl := hreach.asleep_wait hu
      obtain ⟨htasks, hended⟩ := h.wake hu
      exact ⟨fun _ => htasks.le, fun _ => hended⟩
  | @visit t l v stages ht hact hwoken =>
      cases hact with
      | notify u _ => exact h.notify hreach ht hwoken
      | notifyAll =>
          have hnone : ∀ t c l, Function.update stages (.owner : PoolThread W U)
              (.ready .joinWorkers) t ≠ .asleep c l := by
            rintro t ⟨⟩ l hu
            by_cases heq : t = .owner
            · rw [heq, Function.update_self] at hu
              cases hu
            · rw [Function.update_of_ne heq] at hu
              exact hwoken.ne_of_notifyAll List.mem_cons_self t l hu
          refine ⟨?_, ?_⟩
          · rintro ⟨t, c, l, hu⟩
            exact absurd hu (hnone t c l)
          · rintro ⟨t, c, l, hu⟩ -
            exact absurd hu (hnone t c l)
      | work w _ _ =>
          obtain rfl := hwoken.eq_of_nil (workerFunction_signals ..)
          exact h.work ht
      | unlock w task lock _ =>
          obtain rfl := hwoken.eq_of_nil (unlock_signals ..)
          exact h.unlock ht
      | join u task _ _ =>
          obtain rfl := hwoken.eq_of_nil (join_signals ..)
          exact h.join ht
      | beginTransaction w task _ =>
          obtain rfl := hwoken.eq_of_nil rfl
          exact h.silent (v := ⟨m.shared, [], .ready _⟩) ht
            (fun c l' heq => by cases heq) (.inr (le_refl _))
            fun hended => .inl ⟨hended, fun heq => by cases heq⟩
      | finish w task phase _ =>
          obtain rfl := hwoken.eq_of_nil rfl
          exact h.silent (v := m.shared.finish w) ht
            (fun c l' heq => by cases heq) (.inr (Nat.le_succ _))
            fun hended => .inl ⟨hended, fun heq => by cases heq⟩
      | callJoin u task _ =>
          obtain rfl := hwoken.eq_of_nil rfl
          exact h.silent (v := ⟨m.shared, [], .ready _⟩) ht
            (fun c l' heq => by cases heq) (.inr (le_refl _))
            fun hended => .inl ⟨hended, fun heq => by cases heq⟩
      | destroy _ =>
          obtain rfl := hwoken.eq_of_nil rfl
          exact h.silent (v := ⟨m.shared, [], .ready _⟩) ht
            (fun c l' heq => by cases heq) (.inr (le_refl _))
            fun hended => .inl ⟨hended, fun heq => by cases heq⟩
      | terminate _ _ =>
          obtain rfl := hwoken.eq_of_nil rfl
          exact h.silent (v := ⟨_, [], .ready .notifyAll⟩) ht
            (fun c l' heq => by cases heq) (.inr (le_refl _))
            fun _ => .inr rfl

end Attended

theorem Reachable.attended {m : Threads W U Task} (h : Reachable m) :
    Attended m := by
  induction h with
  | refl =>
      refine ⟨?_, ?_⟩
      · rintro ⟨t, c, l, ht⟩
        cases t <;> cases ht
      · rintro ⟨t, c, l, ht⟩
        cases t <;> cases ht
  | tail hrun hstep ih => exact ih.step hrun hstep

/-- No thread can go on, unless it wakes up for no reason or calls the pool
anew. -/
def Stuck (m : Threads W U Task) : Prop :=
  ∀ t l v, m.stages t = .ready l → Acts t l m.shared v → l = .outside

/-- The pool only comes to rest when every task it has accepted was begun, and
in its destructor only when every worker has returned. -/
theorem all_started_of_stuck [Nonempty W] {m : Threads W U Task}
    (h : Reachable m) (hstuck : Stuck m) :
    m.shared.started = m.shared.joined ∧
      (m.shared.isTerminated = true →
        ∀ w, m.places (.worker w) = .returned) := by
  have hkept := h.kept
  have hattended := h.attended
  -- a worker that runs a task could end it
  have hrunning : ∀ w task phase,
      m.stages (.worker w) ≠ .ready (.running task phase) := by
    intro w task phase hw
    cases hstuck _ _ _ hw (.finish w task phase _)
  have hworker : ∀ w, m.stages (.worker w) = .ready .wait ∨
      m.stages (.worker w) = .ready .returned ∨
        ∃ c, m.stages (.worker w) = .asleep c .wait := by
    intro w
    cases hstage : m.stages (.worker w) with
    | asleep c l =>
        obtain rfl := h.asleep_wait hstage
        exact .inr (.inr ⟨c, rfl⟩)
    | ready l =>
        have hfits := hkept.fits (.worker w)
        rw [Monitor.places, hstage, Stage.place_ready] at hfits
        cases l with
        | wait => exact .inl rfl
        | returned => exact .inr (.inl rfl)
        | running task phase => exact absurd hstage (hrunning w task phase)
        | _ => exact hfits.elim
  have hfree : m.shared.latch = none := by
    cases hlatch : m.shared.latch with
    | none => rfl
    | some w =>
        have hholds := (hkept.latch w).mp hlatch
        obtain hw | hw | ⟨c, hw⟩ := hworker w <;>
          rw [Monitor.places, hw] at hholds <;> exact hholds.elim
  have hpends : countAt (fun stage => pends stage = true) m.stages = 0 := by
    refine Nat.eq_zero_of_not_pos fun hpos => ?_
    obtain ⟨t, ht⟩ := (countAt_pos _ _).mp hpos
    have hfits := hkept.fits t
    obtain hwait | hnotify := of_pends ht
    · rw [Monitor.places, hwait] at hfits
      cases t with
      | worker w => cases hstuck _ _ _ hwait (.work w _ hfree)
      | client u => exact hfits.elim
      | owner => exact hfits.elim
    · rw [Monitor.places, hnotify] at hfits
      cases t with
      | worker w => exact hfits.elim
      | client u => cases hstuck _ _ _ hnotify (.notify u _)
      | owner => exact hfits.elim
  have hwait : ∀ w, m.stages (.worker w) ≠ .ready .wait := by
    intro w hw
    cases hstuck _ _ _ hw (.work w _ hfree)
  have htasks : m.shared.tasks = [] := by
    obtain ⟨w⟩ := ‹Nonempty W›
    obtain hw | hw | ⟨c, hw⟩ := hworker w
    · exact absurd hw (hwait w)
    · refine (hkept.returned w ?_).2
      rw [Monitor.places, hw]
      rfl
    · have hlength := hattended.tasks ⟨.worker w, c, .wait, hw⟩
      rw [hpends] at hlength
      exact List.length_eq_zero_iff.mp (Nat.le_zero.mp hlength)
  constructor
  · have hlists := hkept.tasks
    rwa [htasks, List.append_nil] at hlists
  · intro hended w
    obtain hw | hw | ⟨c, hw⟩ := hworker w
    · exact absurd hw (hwait w)
    · rw [Monitor.places, hw]
      rfl
    · -- somebody is still to call `notify_all`
      obtain ⟨t, ht⟩ := hattended.ended ⟨.worker w, c, .wait, hw⟩ hended
      have hfits := hkept.fits t
      rw [Monitor.places, ht] at hfits
      cases t with
      | worker w => exact hfits.elim
      | client u => exact hfits.elim
      | owner => cases hstuck _ _ _ ht (.notifyAll _)

/-! ## Coming to rest -/

/-- A visit other than a new call. -/
inductive Proceeds (m : Threads W U Task) : Threads W U Task → Prop
  | visit {t : PoolThread W U} {l : PoolPlace W Task} {v : PoolVisit W Task}
      {stages : PoolThread W U → Stage (PoolPlace W Task) PoolCond} :
      m.stages t = .ready l → l ≠ .outside → Acts t l m.shared v →
        Woken v.signals m.stages stages →
          Proceeds m ⟨v.shared, Function.update stages t v.next⟩

/-- What a thread at a place has still to do, with `n` threads to wake up. -/
def todo (n : ℕ) : PoolPlace W Task → ℕ
  | .wait => 1
  | .running _ .unlocked => 2
  | .running _ (.begun _) => 3
  | .running _ .fresh => 4
  | .notify => 2
  | .join _ => 7
  | .notifyAll => n + 1
  | .terminate => n + 2
  | _ => 0

/-- A thread that waits has less to do than one that has woken up. -/
def stageTodo (n : ℕ) : Stage (PoolPlace W Task) PoolCond → ℕ
  | .asleep _ l => todo n l
  | .ready l => todo n l + 1

/-- What is still to be done. -/
def remaining (m : Threads W U Task) : ℕ :=
  4 * m.shared.tasks.length +
    ∑ t, stageTodo (Fintype.card (PoolThread W U)) (m.stages t)

omit [DecidableEq W] [Fintype W] in
theorem stageTodo_wake (n : ℕ) (c : PoolCond)
    (stage : Stage (PoolPlace W Task) PoolCond) :
    stageTodo n (stage.wake c) ≤ stageTodo n stage + 1 := by
  cases stage with
  | ready l => exact Nat.le_succ _
  | asleep c' l =>
      rw [Stage.wake]
      split_ifs
      · exact le_refl _
      · exact Nat.le_succ _

theorem sum_stageTodo_woken {n : ℕ} {signals : List (Signal PoolCond)}
    {stages stages' : PoolThread W U → Stage (PoolPlace W Task) PoolCond}
    (h : Woken signals stages stages') :
    (signals = [] → ∑ t, stageTodo n (stages' t) = ∑ t, stageTodo n (stages t)) ∧
    (signals = [.notifyOne .cv] →
      ∑ t, stageTodo n (stages' t) ≤ ∑ t, stageTodo n (stages t) + 1) ∧
    (signals = [.notifyAll .cv] → ∑ t, stageTodo n (stages' t) ≤
      ∑ t, stageTodo n (stages t) + Fintype.card (PoolThread W U)) := by
  refine ⟨fun hs => ?_, fun hs => ?_, fun hs => ?_⟩
  · rw [h.eq_of_nil hs]
  · subst hs
    cases h with
    | noOne _ hrest =>
        obtain rfl := hrest.eq_of_nil rfl
        exact Nat.le_succ _
    | @one _ l t _ _ _ ht hrest =>
        obtain rfl := hrest.eq_of_nil rfl
        have hsum := sum_update (stageTodo n) stages t (.ready l)
        rw [ht] at hsum
        change _ + todo n l = _ + (todo n l + 1) at hsum
        omega
  · subst hs
    cases h with
    | all hrest =>
        obtain rfl := hrest.eq_of_nil rfl
        calc ∑ t, stageTodo n ((stages t).wake .cv)
            ≤ ∑ t, (stageTodo n (stages t) + 1) :=
              Finset.sum_le_sum fun t _ => stageTodo_wake n .cv (stages t)
          _ = ∑ t, stageTodo n (stages t) + Fintype.card (PoolThread W U) := by
              rw [Finset.sum_add_distrib, Finset.sum_const, Finset.card_univ,
                smul_eq_mul, mul_one]

theorem Proceeds.remaining_lt {m m' : Threads W U Task} (h : Proceeds m m') :
    remaining m' < remaining m := by
  cases h with
  | @visit t l v stages ht hl hact hwoken =>
      obtain ⟨hnil, hone, hall⟩ := sum_stageTodo_woken
        (n := Fintype.card (PoolThread W U)) hwoken
      have hsum := sum_update (stageTodo (Fintype.card (PoolThread W U))) stages
        t v.next
      rw [hwoken.ready ht] at hsum
      change 4 * v.shared.tasks.length +
          ∑ u, stageTodo (Fintype.card (PoolThread W U))
            (Function.update stages t v.next u) <
        4 * m.shared.tasks.length +
          ∑ u, stageTodo (Fintype.card (PoolThread W U)) (m.stages u)
      -- what the visit itself gains
      have hsilent : v.signals = [] →
          4 * v.shared.tasks.length +
              stageTodo (Fintype.card (PoolThread W U)) v.next <
            4 * m.shared.tasks.length +
              stageTodo (Fintype.card (PoolThread W U))
                (.ready l : Stage (PoolPlace W Task) PoolCond) →
          4 * v.shared.tasks.length +
              ∑ u, stageTodo (Fintype.card (PoolThread W U))
                (Function.update stages t v.next u) <
            4 * m.shared.tasks.length +
              ∑ u, stageTodo (Fintype.card (PoolThread W U)) (m.stages u) := by
        intro hsignals hlt
        have hsame := hnil hsignals
        omega
      cases hact with
      | callJoin => exact absurd rfl hl
      | destroy => exact absurd rfl hl
      | notify u =>
          have hwake := hone rfl
          change _ + 3 = _ + 1 at hsum
          dsimp only at hsum ⊢
          omega
      | notifyAll =>
          have hwake := hall rfl
          change _ + (Fintype.card (PoolThread W U) + 1 + 1) = _ + 1 at hsum
          dsimp only at hsum ⊢
          omega
      | beginTransaction => exact hsilent rfl (Nat.lt_succ_self _)
      | terminate => exact hsilent rfl (Nat.lt_succ_self _)
      | finish w task phase =>
          refine hsilent rfl ?_
          have hphase : 2 < stageTodo (Fintype.card (PoolThread W U))
              (.ready (.running task phase) :
                Stage (PoolPlace W Task) PoolCond) := by
            cases phase with
            | fresh => exact (by decide : 2 < 5)
            | begun lock => exact (by decide : 2 < 4)
            | unlocked => exact (by decide : 2 < 3)
          exact Nat.add_lt_add_left hphase _
      | work w =>
          refine hsilent (workerFunction_signals ..) ?_
          unfold workerFunction
          cases htasks : m.shared.tasks with
          | nil =>
              have hlt : 4 * m.shared.tasks.length + 1 < 2 := by
                rw [htasks]
                exact Nat.one_lt_two
              dsimp only
              split_ifs
              · exact hlt
              · exact hlt
          | cons task tasks =>
              change 4 * tasks.length + 5 < 4 * (tasks.length + 1) + 2
              omega
      | unlock w task lock =>
          refine hsilent (unlock_signals ..) ?_
          unfold ThreadPool.unlock
          split_ifs
          · exact Nat.lt_succ_self _
          · exact Nat.add_lt_add_left (by decide : 1 < 4) _
      | join u task =>
          refine hsilent (join_signals ..) ?_
          unfold ThreadPool.join
          split_ifs
          · exact Nat.add_lt_add_left (by decide : 1 < 8) _
          · dsimp only
            rw [List.length_append]
            change 4 * (m.shared.tasks.length + 1) + 3 <
              4 * m.shared.tasks.length + 8
            omega

omit [Fintype W] [Fintype U] in
theorem stuck_of_not_proceeds {m : Threads W U Task}
    (h : ∀ m', ¬ Proceeds m m') : Stuck m := by
  intro t l v ht hact
  by_contra hl
  obtain ⟨stages, hwoken⟩ := Woken.exists_woken v.signals m.stages
  exact h _ (.visit ht hl hact hwoken)

/-- Without new calls and idle awakenings the pool comes to rest whatever the
order of the visits, and then every task it has accepted was begun; in its
destructor every worker has then returned. -/
theorem comes_to_rest [Nonempty W] :
    (WellFounded fun m' m : Threads W U Task => Proceeds m m') ∧
      ∀ m : Threads W U Task, Reachable m → (∀ m', ¬ Proceeds m m') →
        m.shared.started = m.shared.joined ∧
          (m.shared.isTerminated = true →
            ∀ w, m.places (.worker w) = .returned) :=
  ⟨Subrelation.wf (fun h => h.remaining_lt) (measure remaining).wf,
    fun _ h hrest => all_started_of_stuck h (stuck_of_not_proceeds hrest)⟩

theorem two_workers_come_to_rest :
    (WellFounded fun m' m : Threads Bool Unit ℕ => Proceeds m m') ∧
      ∀ m : Threads Bool Unit ℕ, Reachable m → (∀ m', ¬ Proceeds m m') →
        m.shared.started = m.shared.joined ∧
          (m.shared.isTerminated = true →
            ∀ w, m.places (.worker w) = .returned) :=
  comes_to_rest

end ThreadPool

end TicketSystem.Database
