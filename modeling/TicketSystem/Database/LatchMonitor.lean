import TicketSystem.Database.LatchedTree
import TicketSystem.Support.Monitor

/-!
# Threads at a reader-writer latch

`ReaderWriterLatch` with any number of threads, which wait on its two condition
variables.  The loops of `WLock` and `RLock` test their condition again each time the
thread wakes up.
-/

namespace TicketSystem.Database

open TicketSystem.Support

/-- Where a thread is with respect to a latch: `drain` is the second loop of
`WLock`. -/
inductive LatchPlace
  | outside
  | rLock
  | wLock
  | drain
  | reading
  | writing
  deriving DecidableEq

/-- The condition variables `reader_` and `writer_`. -/
inductive LatchCond
  | reader
  | writer
  deriving DecidableEq

namespace ReaderWriterLatch

abbrev LatchVisit : Type :=
  Visit ReaderWriterLatch LatchPlace LatchCond

/-- The loop of `RLock` and what follows it. -/
def rLock (latch : ReaderWriterLatch) : LatchVisit :=
  if latch.writerEntered ∨ latch.readerCount = MAX_READERS then
    ⟨latch, [], .asleep .reader .rLock⟩
  else
    ⟨{ latch with readerCount := latch.readerCount + 1 }, [], .ready .reading⟩

/-- The second loop of `WLock`. -/
def drain (latch : ReaderWriterLatch) : LatchVisit :=
  if 0 < latch.readerCount then ⟨latch, [], .asleep .writer .drain⟩
  else ⟨latch, [], .ready .writing⟩

@[simp] theorem drain_shared (latch : ReaderWriterLatch) :
    latch.drain.shared = latch := by
  unfold drain
  split_ifs <;> rfl

/-- The first loop of `WLock` and what follows it. -/
def wLock (latch : ReaderWriterLatch) : LatchVisit :=
  if latch.writerEntered then ⟨latch, [], .asleep .reader .wLock⟩
  else drain { latch with writerEntered := true }

def rUnlock (latch : ReaderWriterLatch) : LatchVisit :=
  let readerCount := latch.readerCount - 1
  ⟨{ latch with readerCount := readerCount },
    if latch.writerEntered then
      if readerCount = 0 then [.notifyOne .writer] else []
    else
      if readerCount = MAX_READERS - 1 then [.notifyOne .reader] else [],
    .ready .outside⟩

def wUnlock (latch : ReaderWriterLatch) : LatchVisit :=
  ⟨{ latch with writerEntered := false }, [.notifyAll .reader],
    .ready .outside⟩

/-- Threads lock the latch and unlock it as they have locked it. -/
inductive Acts {T : Type} :
    T → LatchPlace → ReaderWriterLatch → LatchVisit → Prop
  | callRLock (t : T) (latch : ReaderWriterLatch) :
      Acts t .outside latch ⟨latch, [], .ready .rLock⟩
  | callWLock (t : T) (latch : ReaderWriterLatch) :
      Acts t .outside latch ⟨latch, [], .ready .wLock⟩
  | rLock (t : T) (latch : ReaderWriterLatch) : Acts t .rLock latch latch.rLock
  | wLock (t : T) (latch : ReaderWriterLatch) : Acts t .wLock latch latch.wLock
  | drain (t : T) (latch : ReaderWriterLatch) : Acts t .drain latch latch.drain
  | rUnlock (t : T) (latch : ReaderWriterLatch) :
      Acts t .reading latch latch.rUnlock
  | wUnlock (t : T) (latch : ReaderWriterLatch) :
      Acts t .writing latch latch.wUnlock

/-- A call that does not wait is what it is for one thread alone. -/
theorem rLock_eq_iff (latch latch' : ReaderWriterLatch) :
    latch.rLock = ⟨latch', [], .ready .reading⟩ ↔
      latch.lock .read = some latch' := by
  unfold rLock lock
  split_ifs with hwait <;> simp

theorem wLock_eq_iff (latch latch' : ReaderWriterLatch) :
    latch.wLock = ⟨latch', [], .ready .writing⟩ ↔
      latch.lock .write = some latch' := by
  unfold wLock drain lock
  by_cases hentered : latch.writerEntered = true
  · simp [hentered]
  · by_cases hcount : 0 < latch.readerCount
    · simp [hentered, hcount]
    · simp [hentered, hcount]

theorem rUnlock_shared (latch : ReaderWriterLatch) :
    latch.rUnlock.shared = latch.unlock .read := rfl

theorem wUnlock_shared (latch : ReaderWriterLatch) :
    latch.wUnlock.shared = latch.unlock .write := rfl

theorem toNat_MAX_READERS : MAX_READERS.toNat = 4294967295 := rfl

theorem toNat_add_one {readerCount : UInt32} (h : readerCount ≠ MAX_READERS) :
    (readerCount + 1).toNat = readerCount.toNat + 1 := by
  have hne : readerCount.toNat ≠ MAX_READERS.toNat :=
    fun heq => h (UInt32.toNat_inj.mp heq)
  have hlt := readerCount.toNat_lt
  rw [toNat_MAX_READERS] at hne
  rw [UInt32.toNat_add]
  exact Nat.mod_eq_of_lt (by change readerCount.toNat + 1 < _; omega)

theorem toNat_sub_one {readerCount : UInt32} (h : 0 < readerCount.toNat) :
    (readerCount - 1).toNat = readerCount.toNat - 1 :=
  UInt32.toNat_sub_of_le _ _ (UInt32.le_iff_toNat_le.mpr h)

variable {T : Type} [Fintype T] [DecidableEq T]

/-- A thread that has entered `WLock` and not left `WUnlock`. -/
def Entered (l : LatchPlace) : Prop :=
  l = .drain ∨ l = .writing

instance : DecidablePred Entered :=
  fun l => inferInstanceAs (Decidable (l = .drain ∨ l = .writing))

/-- The members of the latch tell who holds it. -/
structure Counts (latch : ReaderWriterLatch) (places : T → LatchPlace) :
    Prop where
  readers : latch.readerCount.toNat = countAt (· = .reading) places
  entered : countAt Entered places = if latch.writerEntered then 1 else 0
  alone : (∃ t, places t = .writing) → latch.readerCount = 0

namespace Counts

variable {latch : ReaderWriterLatch} {places : T → LatchPlace} {t : T}

omit [DecidableEq T] in
theorem free (hplaces : ∀ t, places t = .outside) :
    Counts ReaderWriterLatch.free places where
  readers := by
    have hnone : ¬ 0 < countAt (· = .reading) places := by
      rw [countAt_pos]
      rintro ⟨t, ht⟩
      rw [hplaces t] at ht
      cases ht
    exact (Nat.eq_zero_of_not_pos hnone).symm
  entered := by
    have hnone : ¬ 0 < countAt Entered places := by
      rw [countAt_pos]
      rintro ⟨t, ht⟩
      rw [hplaces t] at ht
      rcases ht with ht | ht <;> cases ht
    exact Nat.eq_zero_of_not_pos hnone
  alone := fun _ => rfl

/-- A step between places where the latch is not held. -/
theorem move (h : Counts latch places) {l : LatchPlace}
    (hfrom : places t ≠ .reading ∧ ¬ Entered (places t))
    (hto : l ≠ .reading ∧ ¬ Entered l) :
    Counts latch (Function.update places t l) where
  readers := by
    have hcount := countAt_update (· = .reading) places t l
    rw [if_neg hfrom.1, if_neg hto.1] at hcount
    rw [h.readers]
    exact hcount.symm
  entered := by
    have hcount := countAt_update Entered places t l
    rw [if_neg hfrom.2, if_neg hto.2] at hcount
    rw [← h.entered]
    exact hcount
  alone := by
    rintro ⟨u, hu⟩
    by_cases heq : u = t
    · rw [heq, Function.update_self] at hu
      exact absurd (.inr hu) hto.2
    · rw [Function.update_of_ne heq] at hu
      exact h.alone ⟨u, hu⟩

end Counts

namespace Counts

variable {latch : ReaderWriterLatch} {places : T → LatchPlace} {t : T}

omit [DecidableEq T] in
theorem writerEntered (h : Counts latch places) (ht : Entered (places t)) :
    latch.writerEntered = true := by
  have hpos := (countAt_pos Entered places).mpr ⟨t, ht⟩
  rw [h.entered] at hpos
  by_contra hnot
  rw [if_neg hnot] at hpos
  exact absurd hpos (Nat.lt_irrefl 0)

omit [DecidableEq T] in
theorem readerCount_pos (h : Counts latch places) (ht : places t = .reading) :
    0 < latch.readerCount.toNat := by
  rw [h.readers]
  exact (countAt_pos _ _).mpr ⟨t, ht⟩

theorem read (h : Counts latch places) (ht : places t = .rLock)
    (hfree : latch.writerEntered = false)
    (hcount : latch.readerCount ≠ MAX_READERS) :
    Counts { latch with readerCount := latch.readerCount + 1 }
      (Function.update places t .reading) where
  readers := by
    have hupdate := countAt_update (· = .reading) places t .reading
    rw [if_neg (by rw [ht]; decide), if_pos rfl] at hupdate
    rw [toNat_add_one hcount, h.readers]
    exact hupdate.symm
  entered := by
    have hupdate := countAt_update Entered places t .reading
    rw [if_neg (by rw [ht]; decide), if_neg (by decide)] at hupdate
    rw [← h.entered]
    exact hupdate
  alone := by
    rintro ⟨u, hu⟩
    by_cases heq : u = t
    · rw [heq, Function.update_self] at hu
      cases hu
    · rw [Function.update_of_ne heq] at hu
      have hentered := h.writerEntered (t := u) (.inr hu)
      rw [hfree] at hentered
      cases hentered

/-- A writer enters, or goes on to write. -/
theorem enter (h : Counts latch places) {l : LatchPlace}
    (ht : places t = .wLock ∧ latch.writerEntered = false ∨
      places t = .drain) (hl : l = .drain ∨ l = .writing ∧ latch.readerCount = 0) :
    Counts { latch with writerEntered := true }
      (Function.update places t l) where
  readers := by
    have hupdate := countAt_update (· = .reading) places t l
    rw [if_neg (by rcases ht with ⟨ht, -⟩ | ht <;> rw [ht] <;> decide),
      if_neg (by rcases hl with hl | ⟨hl, -⟩ <;> rw [hl] <;> decide)] at hupdate
    exact h.readers.trans hupdate.symm
  entered := by
    have hupdate := countAt_update Entered places t l
    have hentered := h.entered
    have hto : Entered l := hl.imp_right And.left
    rw [if_pos hto] at hupdate
    rw [if_pos rfl]
    obtain ⟨ht, hfree⟩ | ht := ht
    · rw [if_neg (by rw [ht]; decide)] at hupdate
      rw [if_neg (by rw [hfree]; exact Bool.false_ne_true)] at hentered
      omega
    · rw [if_pos (by rw [ht]; decide)] at hupdate
      rw [if_pos (h.writerEntered (t := t) (.inl ht))] at hentered
      omega
  alone := by
    rintro ⟨u, hu⟩
    by_cases heq : u = t
    · rw [heq, Function.update_self] at hu
      obtain hdrain | ⟨-, hcount⟩ := hl
      · rw [hdrain] at hu
        cases hu
      · exact hcount
    · rw [Function.update_of_ne heq] at hu
      exact h.alone ⟨u, hu⟩

theorem leave_read (h : Counts latch places) (ht : places t = .reading) :
    Counts { latch with readerCount := latch.readerCount - 1 }
      (Function.update places t .outside) where
  readers := by
    have hupdate := countAt_update (· = .reading) places t .outside
    rw [if_pos ht, if_neg (by decide)] at hupdate
    rw [toNat_sub_one (h.readerCount_pos ht), h.readers]
    omega
  entered := by
    have hupdate := countAt_update Entered places t .outside
    rw [if_neg (by rw [ht]; decide), if_neg (by decide)] at hupdate
    rw [← h.entered]
    exact hupdate
  alone := by
    rintro ⟨u, hu⟩
    by_cases heq : u = t
    · rw [heq, Function.update_self] at hu
      cases hu
    · rw [Function.update_of_ne heq] at hu
      have hpos := h.readerCount_pos ht
      rw [h.alone ⟨u, hu⟩] at hpos
      exact absurd hpos (Nat.lt_irrefl 0)

theorem leave_write (h : Counts latch places) (ht : places t = .writing) :
    Counts { latch with writerEntered := false }
      (Function.update places t .outside) where
  readers := by
    have hupdate := countAt_update (· = .reading) places t .outside
    rw [if_neg (by rw [ht]; decide), if_neg (by decide)] at hupdate
    exact h.readers.trans hupdate.symm
  entered := by
    have hupdate := countAt_update Entered places t .outside
    have hentered := h.entered
    rw [if_pos (by rw [ht]; decide), if_neg (by decide)] at hupdate
    rw [if_pos (h.writerEntered (t := t) (.inr ht))] at hentered
    rw [if_neg Bool.false_ne_true]
    omega
  alone := by
    rintro ⟨u, hu⟩
    by_cases heq : u = t
    · rw [heq, Function.update_self] at hu
      cases hu
    · rw [Function.update_of_ne heq] at hu
      exact h.alone ⟨u, hu⟩

theorem drain (h : Counts latch places)
    (ht : places t = .wLock ∧ latch.writerEntered = false ∨ places t = .drain) :
    Counts (ReaderWriterLatch.drain { latch with writerEntered := true }).shared
      (Function.update places t (ReaderWriterLatch.drain
        { latch with writerEntered := true }).next.place) := by
  unfold ReaderWriterLatch.drain
  split_ifs with hcount
  · exact h.enter ht (.inl rfl)
  · refine h.enter ht (.inr ⟨rfl, ?_⟩)
    exact UInt32.toNat_inj.mp (Nat.eq_zero_of_not_pos hcount)

theorem visit (h : Counts latch places) {v : LatchVisit}
    (hact : Acts t (places t) latch v) :
    Counts v.shared (Function.update places t v.next.place) := by
  generalize hl : places t = l at hact
  cases hact with
  | callRLock => exact h.move (l := .rLock) (by rw [hl]; decide) (by decide)
  | callWLock => exact h.move (l := .wLock) (by rw [hl]; decide) (by decide)
  | rLock =>
      unfold ReaderWriterLatch.rLock
      split_ifs with hwait
      · exact h.move (l := .rLock) (by rw [hl]; decide) (by decide)
      · obtain ⟨hfree, hcount⟩ := not_or.mp hwait
        exact h.read hl (Bool.eq_false_of_not_eq_true hfree) hcount
  | wLock =>
      unfold ReaderWriterLatch.wLock
      split_ifs with hwait
      · exact h.move (l := .wLock) (by rw [hl]; decide) (by decide)
      · exact h.drain (.inl ⟨hl, Bool.eq_false_of_not_eq_true hwait⟩)
  | drain =>
      have hentered : { latch with writerEntered := true } = latch := by
        rw [← h.writerEntered (t := t) (.inl hl)]
      rw [← hentered]
      exact h.drain (.inr hl)
  | rUnlock => exact h.leave_read hl
  | wUnlock => exact h.leave_write hl

end Counts

/-! ## Runs -/

/-- The threads at a latch. -/
abbrev Threads (T : Type) : Type :=
  Monitor T ReaderWriterLatch LatchPlace LatchCond

/-- A latch that no thread has called. -/
def start (T : Type) : Threads T where
  shared := .free
  stages _ := .ready .outside

def Reachable (m : Threads T) : Prop :=
  Monitor.Reachable Acts (start T) m

theorem Reachable.counts {m : Threads T} (h : Reachable m) :
    Counts m.shared m.places :=
  Monitor.Reachable.invariant Counts (.free fun _ => rfl)
    (fun _ _ _ _ hcounts hact => hcounts.visit hact) h

omit [Fintype T] in
/-- Two visits of a thread: it calls `RLock` and gets in or waits. -/
theorem reachable_rLock {m : Threads T} {t : T} (h : Reachable m)
    (ht : m.stages t = .ready .outside) :
    Reachable ⟨m.shared.rLock.shared,
      Function.update m.stages t m.shared.rLock.next⟩ := by
  have hsignals : m.shared.rLock.signals = [] := by
    unfold rLock
    split_ifs <;> rfl
  have hcall := Monitor.Step.silent ht (Acts.callRLock t m.shared) rfl
  have hlock := Monitor.Step.silent
    (m := ⟨m.shared, Function.update m.stages t (.ready .rLock)⟩)
    (Function.update_self ..) (Acts.rLock t m.shared) hsignals
  rw [Function.update_idem] at hlock
  exact (Relation.ReflTransGen.tail h hcall).tail hlock

/-- Whatever the order of the visits, the latch counts its readers and a writer
is alone with it. -/
theorem readers_and_writer_apart {m : Threads T} (h : Reachable m) :
    m.shared.readerCount.toNat = countAt (· = .reading) m.places ∧
      ∀ t u, m.places t = .writing →
        m.places u = .reading ∨ Entered (m.places u) → u = t := by
  have hcounts := h.counts
  refine ⟨hcounts.readers, fun t u ht hu => ?_⟩
  obtain hreading | hentered := hu
  · have hpos := hcounts.readerCount_pos hreading
    rw [hcounts.alone ⟨t, ht⟩] at hpos
    exact absurd hpos (Nat.lt_irrefl 0)
  · refine eq_of_countAt_le_one Entered m.places ?_ hentered (.inr ht)
    rw [hcounts.entered]
    split_ifs
    · exact le_refl 1
    · exact Nat.zero_le 1

/-- One thread writes and another one waits to read. -/
def writerAndReader : Threads Bool where
  shared := { readerCount := 0, writerEntered := true }
  stages t := if t then .asleep .reader .rLock else .ready .writing

theorem reachable_writerAndReader : Reachable writerAndReader := by
  have hcall := Monitor.Step.silent (m := start Bool) (t := false) rfl
    (Acts.callWLock false free) rfl
  have hlock := Monitor.Step.silent
    (m := ⟨free, Function.update (start Bool).stages false (.ready .wLock)⟩)
    (t := false) rfl (Acts.wLock false free) rfl
  have hrun : Reachable _ := (Relation.ReflTransGen.single hcall).tail hlock
  have hwait := reachable_rLock (t := true) hrun rfl
  convert hwait using 2
  · rfl
  · funext t
    cases t <;> rfl

theorem writer_apart_from_reader :
    (0 : UInt32).toNat = countAt (· = .reading) writerAndReader.places ∧
      ∀ t u, writerAndReader.places t = .writing →
        writerAndReader.places u = .reading ∨
          Entered (writerAndReader.places u) → u = t :=
  readers_and_writer_apart reachable_writerAndReader

/-! ## Waking up in time -/

/-- A thread waits where the condition of its loop holds. -/
inductive Waits : LatchCond → LatchPlace → ReaderWriterLatch → Prop
  | rLock {latch : ReaderWriterLatch} :
      latch.writerEntered = true ∨ latch.readerCount = MAX_READERS →
        Waits .reader .rLock latch
  | wLock {latch : ReaderWriterLatch} :
      latch.writerEntered = true → Waits .reader .wLock latch
  | drain {latch : ReaderWriterLatch} :
      0 < latch.readerCount → Waits .writer .drain latch

omit [Fintype T] [DecidableEq T] in
theorem Acts.waits {t : T} {l l' : LatchPlace} {latch : ReaderWriterLatch}
    {v : LatchVisit} {c : LatchCond} (h : Acts t l latch v)
    (hnext : v.next = .asleep c l') : Waits c l' v.shared := by
  have hdrain : ∀ latch : ReaderWriterLatch,
      latch.drain.next = .asleep c l' → Waits c l' latch.drain.shared := by
    intro latch hnext
    unfold ReaderWriterLatch.drain at hnext ⊢
    by_cases hcount : 0 < latch.readerCount
    · rw [if_pos hcount] at hnext ⊢
      cases hnext
      exact .drain hcount
    · rw [if_neg hcount] at hnext
      cases hnext
  cases h with
  | callRLock => cases hnext
  | callWLock => cases hnext
  | rUnlock => cases hnext
  | wUnlock => cases hnext
  | drain => exact hdrain latch hnext
  | rLock =>
      unfold ReaderWriterLatch.rLock at hnext ⊢
      by_cases hwait : latch.writerEntered = true ∨
          latch.readerCount = MAX_READERS
      · rw [if_pos hwait] at hnext ⊢
        cases hnext
        exact .rLock hwait
      · rw [if_neg hwait] at hnext
        cases hnext
  | wLock =>
      unfold ReaderWriterLatch.wLock at hnext ⊢
      by_cases hwait : latch.writerEntered = true
      · rw [if_pos hwait] at hnext ⊢
        cases hnext
        exact .wLock hwait
      · rw [if_neg hwait] at hnext ⊢
        exact hdrain _ hnext

omit [DecidableEq T] in
/-- Where the latch is full and one more thread is there than it has room for,
all others read. -/
theorem Counts.eq_of_not_reading {latch : ReaderWriterLatch}
    {places : T → LatchPlace} (h : Counts latch places)
    (hcard : Fintype.card T ≤ MAX_READERS.toNat + 1)
    (hfull : latch.readerCount = MAX_READERS) {t u : T}
    (ht : places t ≠ .reading) (hu : places u ≠ .reading) : t = u := by
  have hsplit : countAt (· = .reading) places +
      countAt (fun l => ¬ l = .reading) places = Fintype.card T :=
    Finset.card_filter_add_card_filter_not _
  have hreaders := h.readers
  rw [hfull] at hreaders
  refine eq_of_countAt_le_one (fun l => ¬ l = .reading) places ?_ ht hu
  omega

/-- A thread goes on waiting when a writer enters. -/
theorem Waits.enter {c : LatchCond} {l : LatchPlace}
    {latch : ReaderWriterLatch} (h : Waits c l latch) :
    Waits c l { latch with writerEntered := true } := by
  cases h with
  | rLock _ => exact .rLock (.inl rfl)
  | wLock _ => exact .wLock rfl
  | drain h => exact .drain h

omit [DecidableEq T] in
/-- A reader that leaves notifies those whose wait it ends. -/
theorem rUnlock_wakes {m : Threads T} {t u : T} {c : LatchCond}
    {l : LatchPlace} (hcounts : Counts m.shared m.places)
    (hjustified : Monitor.Justified Waits m)
    (hcard : Fintype.card T ≤ MAX_READERS.toNat + 1)
    (ht : m.places t = .reading) (hu : m.stages u = .asleep c l)
    (hends : ¬ Waits c l m.shared.rUnlock.shared) :
    .notifyOne c ∈ m.shared.rUnlock.signals ∧
      ∀ u' l', m.stages u' = .asleep c l' → u' = u := by
  have hplace : ∀ {u' c' l'}, m.stages u' = .asleep c' l' →
      m.places u' = l' := by
    intro u' c' l' hu'
    rw [Monitor.places, hu', Stage.place_asleep]
  have hpos := hcounts.readerCount_pos ht
  cases hwaits : hjustified u c l hu with
  | rLock hwait =>
      -- the latch was full, and only the thread that is notified was left out
      have hfree : ¬ m.shared.writerEntered = true :=
        fun hentered => hends (.rLock (.inl hentered))
      have hfull := hwait.resolve_left hfree
      refine ⟨?_, fun u' l' hu' => ?_⟩
      · unfold ReaderWriterLatch.rUnlock
        dsimp only
        rw [if_neg hfree, hfull, if_pos rfl]
        exact List.mem_cons_self
      · refine hcounts.eq_of_not_reading hcard hfull ?_ ?_
        · rw [hplace hu']
          cases hjustified u' _ _ hu' <;> decide
        · rw [hplace hu]
          decide
  | wLock hwait => exact absurd (.wLock hwait) hends
  | drain hwait =>
      have hdrain : Entered (m.places u) := .inl (hplace hu)
      have hzero : m.shared.readerCount - 1 = 0 := by
        by_contra hne
        exact hends (.drain (UInt32.pos_iff_ne_zero.mpr hne))
      refine ⟨?_, fun u' l' hu' => ?_⟩
      · unfold ReaderWriterLatch.rUnlock
        dsimp only
        rw [if_pos (hcounts.writerEntered hdrain), if_pos hzero]
        exact List.mem_cons_self
      · have hdrain' : Entered (m.places u') := by
          cases hjustified u' _ _ hu'
          exact .inl (hplace hu')
        refine eq_of_countAt_le_one Entered m.places ?_ hdrain' hdrain
        rw [hcounts.entered]
        split_ifs
        · exact le_refl 1
        · exact Nat.zero_le 1

omit [DecidableEq T] in
/-- A visit that ends the wait of a thread wakes it up. -/
theorem Acts.wakes {m : Threads T} {t u : T} {v : LatchVisit} {c : LatchCond}
    {l : LatchPlace} (hcounts : Counts m.shared m.places)
    (hjustified : Monitor.Justified Waits m)
    (hcard : Fintype.card T ≤ MAX_READERS.toNat + 1)
    (hact : Acts t (m.places t) m.shared v) (hu : m.stages u = .asleep c l)
    (hends : ¬ Waits c l v.shared) :
    .notifyAll c ∈ v.signals ∨
      .notifyOne c ∈ v.signals ∧
        ∀ u' l', m.stages u' = .asleep c l' → u' = u := by
  have hwaits := hjustified u c l hu
  generalize hl : m.places t = l₀ at hact
  cases hact with
  | callRLock => exact absurd hwaits hends
  | callWLock => exact absurd hwaits hends
  | rUnlock =>
      exact .inr (rUnlock_wakes hcounts hjustified hcard hl hu hends)
  | rLock =>
      unfold ReaderWriterLatch.rLock at hends ⊢
      by_cases hwait : m.shared.writerEntered = true ∨
          m.shared.readerCount = MAX_READERS
      · rw [if_pos hwait] at hends
        exact absurd hwaits hends
      · -- nobody waits while readers are let in
        exfalso
        cases hwaits with
        | rLock h => exact hwait h
        | wLock h => exact hwait (.inl h)
        | drain h =>
            have hplace : m.places u = .drain := by
              rw [Monitor.places, hu, Stage.place_asleep]
            exact hwait (.inl (hcounts.writerEntered (.inl hplace)))
  | wLock =>
      unfold ReaderWriterLatch.wLock at hends ⊢
      by_cases hwait : m.shared.writerEntered = true
      · rw [if_pos hwait] at hends
        exact absurd hwaits hends
      · rw [if_neg hwait, drain_shared] at hends
        exact absurd hwaits.enter hends
  | drain =>
      rw [drain_shared] at hends
      exact absurd hwaits hends
  | wUnlock =>
      cases hwaits with
      | rLock _ => exact .inl List.mem_cons_self
      | wLock _ => exact .inl List.mem_cons_self
      | drain h => exact absurd (.drain h) hends

/-- Nobody waits longer than for the condition of its loop. -/
def NoLostWakeup (T : Type) [DecidableEq T] : Prop :=
  ∀ m : Threads T, Reachable m → Monitor.Justified Waits m

theorem noLostWakeup_of_card_le
    (hcard : Fintype.card T ≤ MAX_READERS.toNat + 1) : NoLostWakeup T := by
  intro m hm
  refine Monitor.Reachable.justified ?_ ?_ ?_ hm
  · intro t c l ht
    cases ht
  · intro t l s v c l' hact hnext
    exact hact.waits hnext
  · intro m t v u c l hm hjustified _ hact hu hends
    exact hact.wakes (Reachable.counts hm) hjustified hcard hu hends

/-! ## More threads than the latch has room for -/

/-- The threads of `readers` read, the others have not called the latch. -/
def reading (readers : Finset T) : Threads T where
  shared :=
    { readerCount := UInt32.ofNat readers.card, writerEntered := false }
  stages t := if t ∈ readers then .ready .reading else .ready .outside

omit [Fintype T] in
theorem reachable_reading (readers : Finset T)
    (hcard : readers.card ≤ MAX_READERS.toNat) :
    Reachable (reading readers) := by
  induction readers using Finset.induction_on with
  | empty => exact Relation.ReflTransGen.refl
  | insert t readers ht ih =>
      rw [Finset.card_insert_of_notMem ht] at hcard
      have hm := ih (Nat.le_of_succ_le hcard)
      have hout : (reading readers).stages t = .ready .outside := if_neg ht
      have hroom : ¬ ((reading readers).shared.writerEntered = true ∨
          (reading readers).shared.readerCount = MAX_READERS) := by
        rintro (hentered | hfull)
        · cases hentered
        · have hnat := congrArg UInt32.toNat hfull
          rw [show (reading readers).shared.readerCount.toNat = readers.card from
            UInt32.toNat_ofNat_of_lt' (by
              rw [toNat_MAX_READERS] at hcard
              change readers.card < 4294967296
              omega)] at hnat
          omega
      have hnext := reachable_rLock hm hout
      unfold rLock at hnext
      rw [if_neg hroom] at hnext
      convert hnext using 2
      · rw [reading, Finset.card_insert_of_notMem ht]
        change ReaderWriterLatch.mk _ _ = ReaderWriterLatch.mk _ _
        rw [UInt32.ofNat_add]
        rfl
      · funext u
        by_cases heq : u = t
        · rw [heq, Function.update_self]
          exact if_pos (Finset.mem_insert_self t readers)
        · rw [Function.update_of_ne heq]
          refine if_congr ?_ rfl rfl
          rw [Finset.mem_insert]
          exact or_iff_right heq

omit [Fintype T] in
/-- At a full latch a thread waits. -/
theorem reachable_full {m : Threads T} {t : T} (h : Reachable m)
    (ht : m.stages t = .ready .outside)
    (hfull : m.shared.readerCount = MAX_READERS) :
    Reachable ⟨m.shared, Function.update m.stages t (.asleep .reader .rLock)⟩ := by
  have hwait : m.shared.rLock = ⟨m.shared, [], .asleep .reader .rLock⟩ :=
    if_pos (.inr hfull)
  have hnext := reachable_rLock h ht
  rwa [hwait] at hnext

/-- Two threads wait at a full latch and two readers leave: only the first of
them notifies anybody. -/
theorem not_noLostWakeup (hcard : MAX_READERS.toNat + 1 < Fintype.card T) :
    ¬ NoLostWakeup T := by
  obtain ⟨readers, -, hreaders⟩ := Finset.exists_subset_card_eq
    (s := (Finset.univ : Finset T)) (n := MAX_READERS.toNat) (by
      rw [Finset.card_univ]
      omega)
  obtain ⟨u, hu, w, hw, huw⟩ := Finset.one_lt_card.mp
    (show 1 < readersᶜ.card by rw [Finset.card_compl]; omega)
  obtain ⟨r₁, hr₁, r₂, hr₂, hr⟩ := Finset.one_lt_card.mp
    (show 1 < readers.card by rw [hreaders, toNat_MAX_READERS]; omega)
  rw [Finset.mem_compl] at hu hw
  have hne : ∀ {r v}, r ∈ readers → v ∉ readers → r ≠ v := by
    intro r v hr hv heq
    exact hv (heq ▸ hr)
  have hfull : (reading readers).shared.readerCount = MAX_READERS := by
    rw [reading, hreaders]
    rfl
  have hm := reachable_reading readers (le_of_eq hreaders)
  have hm₁ := reachable_full hm (if_neg hu) hfull
  have hm₂ := reachable_full (t := w) hm₁ (by
    change Function.update _ u _ w = _
    rw [Function.update_of_ne huw.symm]
    exact if_neg hw) hfull
  let stages := Function.update (Function.update (reading readers).stages u
    (.asleep .reader .rLock)) w (.asleep .reader .rLock)
  have hstage : ∀ r ∈ readers, stages r = .ready .reading := by
    intro r hr
    change Function.update (Function.update _ u _) w _ r = _
    rw [Function.update_of_ne (hne hr hw), Function.update_of_ne (hne hr hu)]
    exact if_pos hr
  have hasleep : stages u = .asleep .reader .rLock := by
    change Function.update (Function.update _ u _) w _ u = _
    rw [Function.update_of_ne huw, Function.update_self]
  let latch : ReaderWriterLatch := (reading readers).shared
  have hfirst : latch.rUnlock.signals = [.notifyOne .reader] := by
    change (if latch.readerCount - 1 = MAX_READERS - 1 then _ else _) = _
    rw [show latch.readerCount = MAX_READERS from hfull, if_pos rfl]
  have hstep₁ : Monitor.Step Acts ⟨latch, stages⟩ ⟨latch.rUnlock.shared,
      Function.update (Function.update stages u (.ready .rLock)) r₁
        (.ready .outside)⟩ := by
    refine .visit (v := latch.rUnlock) (hstage r₁ hr₁) (.rUnlock r₁ latch) ?_
    rw [hfirst]
    exact .one hasleep .nil
  have hsecond : latch.rUnlock.shared.rUnlock.signals = [] := by
    change (if latch.readerCount - 1 - 1 = MAX_READERS - 1 then _ else _) = _
    rw [show latch.readerCount = MAX_READERS from hfull, if_neg (by decide)]
  have hstep₂ := Monitor.Step.silent (m := ⟨latch.rUnlock.shared,
      Function.update (Function.update stages u (.ready .rLock)) r₁
        (.ready .outside)⟩) (t := r₂) (by
    change Function.update (Function.update stages u _) r₁ _ r₂ = _
    rw [Function.update_of_ne hr.symm, Function.update_of_ne (hne hr₂ hu)]
    exact hstage r₂ hr₂) (Acts.rUnlock r₂ latch.rUnlock.shared) hsecond
  intro hnone
  have hwaits := hnone _ ((hm₂.tail hstep₁).tail hstep₂) w .reader .rLock (by
    change Function.update (Function.update (Function.update stages u _) r₁ _)
      r₂ _ w = _
    rw [Function.update_of_ne (hne hr₂ hw).symm,
      Function.update_of_ne (hne hr₁ hw).symm, Function.update_of_ne huw.symm]
    exact Function.update_self ..)
  cases hwaits with
  | rLock hwait =>
      obtain hentered | hcount := hwait
      · cases hentered
      · change latch.readerCount - 1 - 1 = MAX_READERS at hcount
        rw [show latch.readerCount = MAX_READERS from hfull] at hcount
        exact absurd hcount (by decide)

/-- With one thread more than the latch has room for, nobody is forgotten; with
two more, somebody can be. -/
theorem noLostWakeup_iff :
    NoLostWakeup T ↔ Fintype.card T ≤ MAX_READERS.toNat + 1 := by
  constructor
  · intro hnone
    by_contra hcard
    exact not_noLostWakeup (Nat.lt_of_not_le hcard) hnone
  · exact noLostWakeup_of_card_le

/-- Where a thread waits, another one goes on: it holds the latch, or tests its
condition again. -/
theorem exists_ready_of_asleep
    (hcard : Fintype.card T ≤ MAX_READERS.toNat + 1) {m : Threads T}
    (h : Reachable m) {t : T} {c : LatchCond} {l : LatchPlace}
    (ht : m.stages t = .asleep c l) :
    ∃ u l', m.stages u = .ready l' ∧ l' ≠ .outside := by
  have hcounts := Reachable.counts h
  have hjustified := noLostWakeup_of_card_le hcard m h
  have hreaders : 0 < m.shared.readerCount →
      ∃ u l', m.stages u = .ready l' ∧ l' ≠ .outside := by
    intro hpos
    have hcount : 0 < countAt (· = .reading) m.places := by
      rw [← hcounts.readers]
      exact hpos
    obtain ⟨u, hu⟩ := (countAt_pos _ _).mp hcount
    cases hstage : m.stages u with
    | ready l' =>
        rw [Monitor.places, hstage, Stage.place_ready] at hu
        exact ⟨u, l', hstage, by rw [hu]; decide⟩
    | asleep c' l' =>
        rw [Monitor.places, hstage, Stage.place_asleep] at hu
        subst hu
        cases hjustified u _ _ hstage
  have hwriter : m.shared.writerEntered = true →
      ∃ u l', m.stages u = .ready l' ∧ l' ≠ .outside := by
    intro hentered
    have hcount : 0 < countAt Entered m.places := by
      rw [hcounts.entered, if_pos hentered]
      exact Nat.one_pos
    obtain ⟨u, hu⟩ := (countAt_pos _ _).mp hcount
    cases hstage : m.stages u with
    | ready l' =>
        rw [Monitor.places, hstage, Stage.place_ready] at hu
        exact ⟨u, l', hstage, by rcases hu with rfl | rfl <;> decide⟩
    | asleep c' l' =>
        rw [Monitor.places, hstage, Stage.place_asleep] at hu
        have hwaits := hjustified u _ _ hstage
        obtain rfl | rfl := hu
        · cases hwaits with
          | drain hpos => exact hreaders hpos
        · cases hwaits
  cases hjustified t c l ht with
  | drain hpos => exact hreaders hpos
  | wLock hentered => exact hwriter hentered
  | rLock hwait =>
      obtain hentered | hfull := hwait
      · exact hwriter hentered
      · refine hreaders ?_
        rw [hfull]
        decide

/-- The waiting reader of two threads, beside the writer. -/
theorem exists_ready_beside_reader :
    ∃ u l', writerAndReader.stages u = .ready l' ∧ l' ≠ .outside :=
  exists_ready_of_asleep (by decide) reachable_writerAndReader
    (t := true) rfl

end ReaderWriterLatch

end TicketSystem.Database
