import TicketSystem.Backend.Reachable

/-!
# The waiting list

A refund of a granted order should walk over all waiting orders of the train
and day in the order of purchase and grant each that fits.  The program starts
its walk at the refunded order and skips orders that do not touch the freed
segments.  The second is harmless as long as no waiting order fits; the first
is harmless as long as no older order fits the freed seats.
-/

namespace TicketSystem.Backend

open TicketSystem.Support
open TicketSystem.Database

/-! ## The intended walk -/

/-- The waiting order fits the seats. -/
def PendingOrder.Fits (p : PendingOrder) (d : DayTrain) : Prop :=
  p.num ≤ d.querySeat p.fromIndex (p.toIndex - 1)

instance (p : PendingOrder) (d : DayTrain) : Decidable (p.Fits d) :=
  inferInstanceAs (Decidable (_ ≤ _))

/-- The seats after the waiting order took its own. -/
def DayTrain.take (d : DayTrain) (p : PendingOrder) : DayTrain :=
  d.modifySeat p.fromIndex (p.toIndex - 1) (-p.num)

/-- Walk over waiting orders and grant each that fits: the orders granted and
the seats left. -/
def walkQueue : DayTrain → List PendingOrder → List PendingOrder × DayTrain
  | d, [] => ([], d)
  | d, p :: ps =>
      if p.Fits d then
        (p :: (walkQueue (d.take p) ps).1, (walkQueue (d.take p) ps).2)
      else walkQueue d ps

theorem PendingOrder.fits_of_le {p : PendingOrder} {d d' : DayTrain}
    (hle : ∀ j, d'.seatNum j ≤ d.seatNum j) (h : p.Fits d') : p.Fits d := by
  obtain ⟨hmax, hall⟩ := DayTrain.le_querySeat_iff.mp h
  exact DayTrain.le_querySeat_iff.mpr
    ⟨hmax, fun i hl hr => (hall i hl hr).trans (hle i)⟩

/-- Only the segments of the order matter. -/
theorem PendingOrder.fits_congr {p : PendingOrder} {d d' : DayTrain}
    (hlt : p.fromIndex < p.toIndex)
    (heq : ∀ j, p.fromIndex ≤ j → j < p.toIndex →
      d'.seatNum j = d.seatNum j) : p.Fits d' ↔ p.Fits d := by
  unfold Fits
  rw [DayTrain.le_querySeat_iff, DayTrain.le_querySeat_iff]
  refine and_congr_right fun _ => forall_congr' fun i =>
    forall_congr' fun hl => forall_congr' fun hr => ?_
  rw [heq i hl (by omega)]

theorem DayTrain.take_le {d : DayTrain} {p : PendingOrder}
    (hpos : 0 ≤ p.num) (j : ℕ) : (d.take p).seatNum j ≤ d.seatNum j := by
  rw [take, modifySeat_seatNum]
  split
  next => omega
  next => exact le_refl _

theorem walkQueue_subset (d : DayTrain) (ps : List PendingOrder) :
    (walkQueue d ps).1 ⊆ ps := by
  induction ps generalizing d with
  | nil => exact List.Subset.refl _
  | cons p ps ih =>
      rw [walkQueue]
      split
      next => exact List.cons_subset_cons p (ih _)
      next => exact List.Subset.trans (ih d) (List.subset_cons_self p ps)

theorem walkQueue_le {d : DayTrain} {ps : List PendingOrder}
    (hpos : ∀ p ∈ ps, 0 ≤ p.num) (j : ℕ) :
    (walkQueue d ps).2.seatNum j ≤ d.seatNum j := by
  induction ps generalizing d with
  | nil => exact le_refl _
  | cons p ps ih =>
      have hps : ∀ q ∈ ps, 0 ≤ q.num :=
        fun q hq => hpos q (List.mem_cons_of_mem p hq)
      rw [walkQueue]
      split
      next =>
        exact (ih hps).trans
          (DayTrain.take_le (hpos p List.mem_cons_self) j)
      next => exact ih hps

/-- After the walk no order that was passed over fits. -/
theorem not_fits_of_not_mem_walkQueue {d : DayTrain}
    {ps : List PendingOrder} (hpos : ∀ p ∈ ps, 0 ≤ p.num)
    {p : PendingOrder} (hp : p ∈ ps) (hnot : p ∉ (walkQueue d ps).1) :
    ¬ p.Fits (walkQueue d ps).2 := by
  induction ps generalizing d with
  | nil => cases hp
  | cons q ps ih =>
      have hps : ∀ q ∈ ps, 0 ≤ q.num :=
        fun q' hq' => hpos q' (List.mem_cons_of_mem q hq')
      rw [walkQueue] at hnot ⊢
      by_cases hfits : q.Fits d
      · rw [if_pos hfits] at hnot ⊢
        obtain ⟨hne, hnot⟩ := not_or.mp (mt List.mem_cons.mpr hnot)
        exact ih hps ((List.mem_cons.mp hp).resolve_left hne) hnot
      · rw [if_neg hfits] at hnot ⊢
        rcases List.mem_cons.mp hp with rfl | hp
        · exact fun hc => hfits (PendingOrder.fits_of_le
            (fun j => walkQueue_le hps j) hc)
        · exact ih hps hp hnot

/-- Orders at the front that do not fit do not change the walk. -/
theorem walkQueue_append_of_not_fits {d : DayTrain}
    {front ps : List PendingOrder} (h : ∀ p ∈ front, ¬ p.Fits d) :
    walkQueue d (front ++ ps) = walkQueue d ps := by
  induction front with
  | nil => rfl
  | cons p front ih =>
      rw [List.cons_append, walkQueue, if_neg (h p List.mem_cons_self)]
      exact ih fun q hq => h q (List.mem_cons_of_mem p hq)

/-- Of several orders of which one fits, the walk grants one. -/
theorem exists_mem_walkQueue {d : DayTrain} {front : List PendingOrder}
    (ps : List PendingOrder) {p : PendingOrder} (hp : p ∈ front) (hfits : p.Fits d) :
    ∃ q ∈ front, q ∈ (walkQueue d (front ++ ps)).1 := by
  induction front with
  | nil => cases hp
  | cons q front ih =>
      rw [List.cons_append, walkQueue]
      by_cases hq : q.Fits d
      · rw [if_pos hq]
        exact ⟨q, List.mem_cons_self, List.mem_cons_self⟩
      · rw [if_neg hq]
        have hne : p ≠ q := fun heq => hq (heq ▸ hfits)
        obtain ⟨q', hq', hmem⟩ := ih ((List.mem_cons.mp hp).resolve_left hne)
        exact ⟨q', List.mem_cons_of_mem q hq', hmem⟩

namespace TrainManagement

variable {trains trains' : TrainManagement}

/-- All waiting orders of a train and day, in the order of the database: by
order number. -/
def waitingOrders (trains : TrainManagement) (dayKey : StringAny) :
    List PendingOrder :=
  (trains.pendingOrderDatabase.map.entries.map Prod.snd).filter
    fun p => (⟨p.trainId, p.startDay⟩ : StringAny) = dayKey

/-- No waiting order fits the seats of its day. -/
def NoneFits (trains : TrainManagement) : Prop :=
  ∀ key order d, trains.orderDatabase.map.find? key = some order →
    order.status = .pending →
    trains.daytrainDatabase.map.find? order.dayKey = some d →
      ¬ order.toPending.Fits d

theorem Consistent.key_of_find?_pending (h : trains.Consistent)
    {key : StringIntInt} {p : PendingOrder}
    (hp : trains.pendingOrderDatabase.map.find? key = some p) :
    p.key = key := by
  obtain ⟨o, -, -, rfl, rfl⟩ := (h.pending_iff key p).mp hp
  rfl

theorem mem_waitingOrders_iff (h : trains.Consistent) {dayKey : StringAny}
    {p : PendingOrder} :
    p ∈ trains.waitingOrders dayKey ↔
      trains.pendingOrderDatabase.map.find? p.key = some p ∧
        (⟨p.trainId, p.startDay⟩ : StringAny) = dayKey := by
  simp only [waitingOrders, List.mem_filter, List.mem_map,
    decide_eq_true_eq]
  refine and_congr_left fun _ => ?_
  constructor
  · rintro ⟨⟨k, p⟩, hmem, rfl⟩
    have hp := SortedMap.find?_eq_some_iff.mpr hmem
    rw [h.key_of_find?_pending hp]
    exact hp
  · exact fun hp => ⟨(p.key, p), SortedMap.find?_eq_some_iff.mp hp, rfl⟩

/-- The waiting orders of a day come in increasing order of their numbers. -/
theorem waitingOrders_pairwise (h : trains.Consistent)
    (dayKey : StringAny) :
    (trains.waitingOrders dayKey).Pairwise
      fun p q => p.orderId < q.orderId := by
  rw [waitingOrders, List.pairwise_filter, List.pairwise_map]
  refine trains.pendingOrderDatabase.map.sorted.imp_of_mem ?_
  intro a b ha hb hlt hpa hpb
  have hka := h.key_of_find?_pending (SortedMap.find?_eq_some_iff.mpr ha)
  have hkb := h.key_of_find?_pending (SortedMap.find?_eq_some_iff.mpr hb)
  rw [← hka, ← hkb] at hlt
  have hday := (of_decide_eq_true hpa).trans (of_decide_eq_true hpb).symm
  obtain ⟨htrain, hstart⟩ := StringAny.mk.inj hday
  rcases (StringIntInt.lt_iff _ _).mp hlt with hlt | ⟨-, hlt | ⟨-, hlt⟩⟩
  · exact absurd htrain hlt.ne
  · exact absurd hstart hlt.ne
  · exact hlt

/-- The program walks over the orders from the refunded one on. -/
theorem eq_filter_waitingOrders (h : trains.Consistent) {r : Order}
    {ps : List PendingOrder}
    (hperm : ps.Perm (trains.pendingOrderDatabase.scanKey r.pendingKey
      (stringIntIntComparator 1)))
    (hsorted : ps.Pairwise fun p q => pendingOrderCmp q p = false) :
    ps = (trains.waitingOrders r.dayKey).filter
      fun p => r.orderId ≤ p.orderId := by
  have hlater := (waitingOrders_pairwise h r.dayKey).filter
    fun p => decide (r.orderId ≤ p.orderId)
  have hle : ps.Pairwise fun p q => p.orderId ≤ q.orderId :=
    hsorted.imp fun hcmp => by simpa [pendingOrderCmp] using hcmp
  refine List.Perm.eq_of_pairwise ?_ hle (hlater.imp le_of_lt) ?_
  · intro p q hp hq hle hge
    have hwait := waiting_of_perm_scanKey h hperm
    have hq' := (mem_waitingOrders_iff h).mp (List.mem_filter.mp hq).1
    have hday := (hwait.sameDay p hp).trans hq'.2.symm
    obtain ⟨htrain, hstart⟩ := StringAny.mk.inj hday
    have hkey : p.key = q.key :=
      StringIntInt.ext htrain hstart (le_antisymm hle hge)
    have hfind := hwait.find? p hp
    rw [hkey, hq'.1] at hfind
    exact (Option.some.inj hfind).symm
  · rw [List.perm_ext_iff_of_nodup
      ((waiting_of_perm_scanKey h hperm).nodup.of_map _)
      (hlater.imp fun hlt heq => absurd (heq ▸ hlt) (lt_irrefl _))]
    intro p
    rw [hperm.mem_iff, mem_scanKey_pending_iff h, List.mem_filter,
      mem_waitingOrders_iff h, decide_eq_true_eq, and_assoc]

/-- The waiting orders of a day are the older and the later ones. -/
theorem waitingOrders_eq_append (h : trains.Consistent)
    (dayKey : StringAny) (orderId : ℤ) :
    trains.waitingOrders dayKey =
      (trains.waitingOrders dayKey).filter (fun p => p.orderId < orderId) ++
        (trains.waitingOrders dayKey).filter
          fun p => orderId ≤ p.orderId := by
  have hsorted := waitingOrders_pairwise h dayKey
  generalize trains.waitingOrders dayKey = ps at hsorted
  induction ps with
  | nil => rfl
  | cons p ps ih =>
      obtain ⟨hhead, htail⟩ := List.pairwise_cons.mp hsorted
      by_cases hp : p.orderId < orderId
      · rw [List.filter_cons_of_pos (by simpa using hp),
          List.filter_cons_of_neg (by simpa using hp), List.cons_append,
          ← ih htail]
      · -- from the first later order on all are later
        have hlater : ∀ q ∈ p :: ps, orderId ≤ q.orderId := by
          intro q hq
          rcases List.mem_cons.mp hq with rfl | hq
          · exact not_lt.mp hp
          · exact (not_lt.mp hp).trans (hhead q hq).le
        rw [List.filter_eq_nil_iff.mpr fun q hq => by
            simpa using hlater q hq,
          List.filter_eq_self.mpr fun q hq => by simpa using hlater q hq,
          List.nil_append]

/-! ## The promotion loop is a walk -/

/-- The test by which the promotion loop skips an order. -/
def Skips (r : Order) (p : PendingOrder) : Prop :=
  r.toIndex < p.fromIndex ∨ p.toIndex < r.fromIndex

theorem promoteOrders_of_skips {r : Order} {p : PendingOrder}
    {ps : List PendingOrder} {st : Promotion} (hskip : Skips r p) :
    promoteOrders r (p :: ps) st = promoteOrders r ps st :=
  if_pos hskip

theorem promoteOrders_of_fits {r : Order} {p : PendingOrder}
    {ps : List PendingOrder} {st : Promotion} (hskip : ¬ Skips r p)
    (hfits : p.Fits st.tpDaytrain) :
    promoteOrders r (p :: ps) st =
      (st.grant p).bind (promoteOrders r ps) :=
  (if_neg hskip).trans (if_pos hfits)

theorem promoteOrders_of_not_fits {r : Order} {p : PendingOrder}
    {ps : List PendingOrder} {st : Promotion}
    (hfits : ¬ p.Fits st.tpDaytrain) :
    promoteOrders r (p :: ps) st = promoteOrders r ps st := by
  by_cases hskip : Skips r p
  · exact promoteOrders_of_skips hskip
  · exact (if_neg hskip).trans (if_neg hfits)

/-- What a walk that grants `granted` does to the orders. -/
structure Granted (granted : List PendingOrder) (orders orders' :
    Index StringAny Order) : Prop where
  success : ∀ p ∈ granted, ∃ o, orders.map.find? p.orderKey = some o ∧
    orders'.map.find? p.orderKey = some { o with status := .success }
  other : ∀ key, (∀ p ∈ granted, p.orderKey ≠ key) →
    orders'.map.find? key = orders.map.find? key

/-- What a granted order writes. -/
theorem grant_eq_some {st st' : Promotion} {p : PendingOrder}
    (h : st.grant p = some st') :
    st'.tpDaytrain = st.tpDaytrain.take p ∧
      ∃ o, st.orderDatabase.map.find? p.orderKey = some o ∧
        st'.orderDatabase = st.orderDatabase.insertEntry p.orderKey
          { o with status := .success } := by
  unfold Promotion.grant at h
  cases hfind : st.orderDatabase.map.find? p.orderKey with
  | none => simp [Index.searchKey_of_find? hfind] at h
  | some o =>
      simp only [Index.searchKey_of_find? hfind, Option.toList_some,
        Option.some.injEq] at h
      subst h
      exact ⟨rfl, o, rfl, rfl⟩

/-- Waiting orders of one day with one number are one. -/
theorem Waiting.orderKey_ne {r : Order} {p : PendingOrder}
    {ps : List PendingOrder} (hwait : trains.Waiting r (p :: ps))
    {q : PendingOrder} (hq : q ∈ ps) : q.orderKey ≠ p.orderKey := by
  intro heq
  have hday := (hwait.sameDay q (List.mem_cons_of_mem p hq)).trans
    (hwait.sameDay p List.mem_cons_self).symm
  obtain ⟨htrain, hstart⟩ := StringAny.mk.inj hday
  have hkey : q.key = p.key :=
    StringIntInt.ext htrain hstart (StringAny.mk.inj heq).2
  exact (List.nodup_cons.mp hwait.nodup).1
    (hkey ▸ List.mem_map_of_mem hq)

/-- Waiting orders ask for seats. -/
theorem Consistent.pending_pos (h : trains.Consistent) {p : PendingOrder}
    {key : StringIntInt}
    (hp : trains.pendingOrderDatabase.map.find? key = some p) :
    0 < p.num ∧ p.fromIndex < p.toIndex := by
  obtain ⟨o, ho, -, -, rfl⟩ := (h.pending_iff key p).mp hp
  obtain ⟨train, -, hvalid⟩ := h.order_valid _ o ho
  exact ⟨hvalid.num_pos, hvalid.lt⟩

/-- If no skipped order fits, the promotion loop is the walk. -/
theorem promoteOrders_eq_walkQueue {r : Order} {ps : List PendingOrder}
    {st st' : Promotion} (h : (trains.commit r st).Consistent)
    (hwait : (trains.commit r st).Waiting r ps)
    (hskip : ∀ p ∈ ps, Skips r p → ¬ p.Fits st.tpDaytrain)
    (hrun : promoteOrders r ps st = some st') :
    st'.tpDaytrain = (walkQueue st.tpDaytrain ps).2 ∧
      Granted (walkQueue st.tpDaytrain ps).1 st.orderDatabase
        st'.orderDatabase := by
  induction ps generalizing st with
  | nil =>
      obtain rfl := Option.some.inj hrun
      exact ⟨rfl, ⟨fun p hp => absurd hp List.not_mem_nil, fun key _ => rfl⟩⟩
  | cons p ps ih =>
      have hp := hwait.find? p List.mem_cons_self
      have hskip' : ∀ q ∈ ps, Skips r q → ¬ q.Fits st.tpDaytrain :=
        fun q hq => hskip q (List.mem_cons_of_mem p hq)
      rw [walkQueue]
      by_cases hfits : p.Fits st.tpDaytrain
      swap
      · rw [promoteOrders_of_not_fits hfits] at hrun
        rw [if_neg hfits]
        exact ih h hwait.tail hskip' hrun
      have hskipped : ¬ Skips r p :=
        fun hc => hskip p List.mem_cons_self hc hfits
      rw [promoteOrders_of_fits hskipped hfits] at hrun
      rw [if_pos hfits]
      obtain ⟨st₁, hgrant, hrest⟩ := Option.bind_eq_some_iff.mp hrun
      have hday := hwait.sameDay p List.mem_cons_self
      obtain ⟨htp, o, ho, horders⟩ := grant_eq_some hgrant
      have hpos := (h.pending_pos hp).1.le
      obtain ⟨htp', hgranted⟩ := ih (consistent_grant h hp hday hfits hgrant)
        (hwait.tail_of_grant hgrant)
        (fun q hq hqskip hqfits => hskip' q hq hqskip
          (PendingOrder.fits_of_le
            (fun j => htp ▸ DayTrain.take_le hpos j) hqfits)) hrest
      rw [htp] at htp' hgranted
      have hsub := walkQueue_subset (st.tpDaytrain.take p) ps
      have hne : ∀ q ∈ (walkQueue (st.tpDaytrain.take p) ps).1,
          q.orderKey ≠ p.orderKey := fun q hq => hwait.orderKey_ne (hsub hq)
      refine ⟨htp', ⟨?_, ?_⟩⟩
      · intro q hq
        rcases List.mem_cons.mp hq with rfl | hq
        · refine ⟨o, ho, ?_⟩
          rw [hgranted.other _ hne, horders, Index.map_insertEntry,
            SortedMap.find?_insert_self]
        · obtain ⟨o', ho', hdone⟩ := hgranted.success q hq
          refine ⟨o', ?_, hdone⟩
          rw [horders, Index.map_insertEntry,
            SortedMap.find?_insert_of_ne _ _ (hne q hq)] at ho'
          exact ho'
      · intro key hkey
        rw [hgranted.other key fun q hq =>
            hkey q (List.mem_cons_of_mem p hq), horders,
          Index.map_insertEntry, SortedMap.find?_insert_of_ne]
        exact (hkey p List.mem_cons_self).symm

/-! ## A refund grants the orders of the whole walk -/

/-- The order that waited before waits no longer and has its seats. -/
def Promoted (trains trains' : TrainManagement) (key : StringAny) : Prop :=
  ∃ o o', trains.orderDatabase.map.find? key = some o ∧
    o.status = .pending ∧ trains'.orderDatabase.map.find? key = some o' ∧
    o'.status = .success

/-- The seats of a day once the seats of an order are free again. -/
def freedSeats (d : DayTrain) (o : Order) : DayTrain :=
  d.modifySeat o.fromIndex (o.toIndex - 1) o.num

/-- The walk that a refund should make. -/
def refundWalk (trains : TrainManagement) (o : Order) (d : DayTrain) :
    List PendingOrder × DayTrain :=
  walkQueue (freedSeats d o) (trains.waitingOrders o.dayKey)

/-- No order older than the refunded one fits the freed seats. -/
def OlderWait (trains : TrainManagement) (o : Order) (d : DayTrain) : Prop :=
  ∀ p ∈ trains.waitingOrders o.dayKey, p.orderId < o.orderId →
    ¬ p.Fits (freedSeats d o)

instance (trains : TrainManagement) (o : Order) (d : DayTrain) :
    Decidable (trains.OlderWait o d) :=
  inferInstanceAs (Decidable (∀ p ∈ trains.waitingOrders o.dayKey,
    p.orderId < o.orderId → ¬ p.Fits (freedSeats d o)))

/-- While no waiting order fits, an order that the loop skips does not fit
the freed seats either. -/
theorem not_fits_of_skips (h : trains.Consistent) (hnone : trains.NoneFits)
    {o : Order} {d : DayTrain}
    (hd : trains.daytrainDatabase.map.find? o.dayKey = some d)
    (hlt : o.fromIndex < o.toIndex) {p : PendingOrder}
    (hp : p ∈ trains.waitingOrders o.dayKey) (hskip : Skips o p) :
    ¬ p.Fits (freedSeats d o) := by
  obtain ⟨hfind, hday⟩ := (mem_waitingOrders_iff h).mp hp
  have hplt := (h.pending_pos hfind).2
  rw [PendingOrder.fits_congr hplt (d := d)]
  · obtain ⟨o', ho', hstatus, -, rfl⟩ := (h.pending_iff _ _).mp hfind
    exact hnone _ o' d ho' hstatus (by rw [← hd, ← hday]; rfl)
  · intro j hj hjp
    rw [freedSeats, DayTrain.modifySeat_pred _ hlt, if_neg, add_zero]
    rcases hskip with hskip | hskip
    · omega
    · omega

/-- If no older order fits, the whole walk is the walk over the later ones. -/
theorem refundWalk_of_olderWait (h : trains.Consistent) {o : Order}
    {d : DayTrain} (holder : trains.OlderWait o d) :
    trains.refundWalk o d = walkQueue (freedSeats d o)
      ((trains.waitingOrders o.dayKey).filter
        fun p => o.orderId ≤ p.orderId) := by
  refine (congrArg (walkQueue (freedSeats d o))
    (waitingOrders_eq_append h o.dayKey o.orderId)).trans
      (walkQueue_append_of_not_fits ?_)
  intro p hp
  obtain ⟨hmem, hlt⟩ := List.mem_filter.mp hp
  exact holder p hmem (of_decide_eq_true hlt)

/-- The parts of a refund of a granted order that the claims about the waiting
list use. -/
theorem refundOrder_walk (h : trains.Consistent) (hnone : trains.NoneFits)
    {o : Order} (ho : trains.orderDatabase.map.find? o.key = some o)
    (hstatus : o.status = .success) {reply : TrainReply}
    (hstep : trains.refundOrder o.userName o = some (reply, trains')) :
    ∃ d st, trains.daytrainDatabase.map.find? o.dayKey = some d ∧
      trains' = trains.commit o st ∧
      st.tpDaytrain = (walkQueue (freedSeats d o)
        ((trains.waitingOrders o.dayKey).filter
          fun p => o.orderId ≤ p.orderId)).2 ∧
      Granted (walkQueue (freedSeats d o)
        ((trains.waitingOrders o.dayKey).filter
          fun p => o.orderId ≤ p.orderId)).1
        (trains.refundStart o d).orderDatabase st.orderDatabase := by
  rcases (refundOrder_cases hstep).2 with
    ⟨hpending, -⟩ | ⟨-, d, ps, st, hd, hperm, hsorted, hrun, rfl⟩
  · rw [hstatus] at hpending
    cases hpending
  obtain ⟨train, -, hvalid⟩ := h.order_valid _ o ho
  have hps := eq_filter_waitingOrders h hperm hsorted
  have hwait := waiting_of_perm_scanKey h hperm
  obtain ⟨htp, hgranted⟩ := promoteOrders_eq_walkQueue
    (consistent_commit_refundStart h ho hd hstatus)
    ⟨hwait.find?, hwait.sameDay, hwait.nodup⟩
    (fun p hp hskip => not_fits_of_skips h hnone hd hvalid.lt
      (List.mem_filter.mp (hps ▸ hp)).1 hskip) hrun
  rw [← hps]
  exact ⟨d, st, hd, rfl, htp, hgranted⟩

/-- What is promoted are the orders that were granted. -/
theorem promoted_iff_of_granted (h : trains.Consistent) {o : Order}
    (ho : trains.orderDatabase.map.find? o.key = some o)
    (hstatus : o.status = .success) {d : DayTrain} {st : Promotion}
    {granted : List PendingOrder}
    (hwaiting : ∀ p ∈ granted, p ∈ trains.waitingOrders o.dayKey)
    (hgranted : Granted granted (trains.refundStart o d).orderDatabase
      st.orderDatabase) (key : StringAny) :
    trains.Promoted (trains.commit o st) key ↔
      ∃ p ∈ granted, p.orderKey = key := by
  have hstart : ∀ key, key ≠ o.key →
      (trains.refundStart o d).orderDatabase.map.find? key =
        trains.orderDatabase.map.find? key :=
    fun key hne => SortedMap.find?_insert_of_ne _ _ hne
  constructor
  · rintro ⟨o₁, o₂, ho₁, hpending, ho₂, hsuccess⟩
    by_contra hnot
    push Not at hnot
    have hne : key ≠ o.key := by
      rintro rfl
      obtain rfl := Option.some.inj (ho.symm.trans ho₁)
      rw [hstatus] at hpending
      cases hpending
    have hsame := hgranted.other key fun p hp => hnot p hp
    rw [hstart key hne] at hsame
    obtain rfl := Option.some.inj (ho₁.symm.trans (hsame.symm.trans ho₂))
    rw [hpending] at hsuccess
    cases hsuccess
  · rintro ⟨p, hp, rfl⟩
    obtain ⟨hfind, -⟩ := (mem_waitingOrders_iff h).mp (hwaiting p hp)
    obtain ⟨o₁, ho₁, -, hpending, -⟩ := h.exists_order hfind
    have hne : p.orderKey ≠ o.key := by
      intro heq
      rw [heq] at ho₁
      obtain rfl := Option.some.inj (ho.symm.trans ho₁)
      rw [hstatus] at hpending
      cases hpending
    obtain ⟨o₂, ho₂, hdone⟩ := hgranted.success p hp
    exact ⟨o₁, _, ho₁, hpending, hdone, rfl⟩

/-- A refund of a granted order grants exactly the orders of the whole walk if
no older order fits the freed seats, and only then. -/
theorem promoted_iff_refundWalk_iff (h : trains.Consistent)
    (hnone : trains.NoneFits) {o : Order} {d : DayTrain}
    (ho : trains.orderDatabase.map.find? o.key = some o)
    (hstatus : o.status = .success)
    (hd : trains.daytrainDatabase.map.find? o.dayKey = some d)
    {reply : TrainReply}
    (hstep : trains.refundOrder o.userName o = some (reply, trains')) :
    (∀ key, trains.Promoted trains' key ↔
      ∃ p ∈ (trains.refundWalk o d).1, p.orderKey = key) ↔
        trains.OlderWait o d := by
  obtain ⟨d', st, hd', rfl, -, hgranted⟩ :=
    refundOrder_walk h hnone ho hstatus hstep
  obtain rfl := Option.some.inj (hd.symm.trans hd')
  have hsplit := waitingOrders_eq_append h o.dayKey o.orderId
  have hlater : ∀ p ∈ (walkQueue (freedSeats d o)
      ((trains.waitingOrders o.dayKey).filter
        fun p => o.orderId ≤ p.orderId)).1,
      p ∈ trains.waitingOrders o.dayKey ∧ o.orderId ≤ p.orderId := by
    intro p hp
    have hmem := List.mem_filter.mp (walkQueue_subset _ _ hp)
    exact ⟨hmem.1, of_decide_eq_true hmem.2⟩
  have hpromoted := promoted_iff_of_granted h ho hstatus
    (fun p hp => (hlater p hp).1) hgranted
  constructor
  · intro hall p hp hlt hfits
    -- the walk grants an older order, the program does not
    have hfront : p ∈ (trains.waitingOrders o.dayKey).filter
        fun p => p.orderId < o.orderId :=
      List.mem_filter.mpr ⟨hp, decide_eq_true hlt⟩
    obtain ⟨q, hq, hgrant⟩ := exists_mem_walkQueue
      ((trains.waitingOrders o.dayKey).filter
        fun p => o.orderId ≤ p.orderId) hfront hfits
    rw [← hsplit] at hgrant
    obtain ⟨p', hp', hkey⟩ :=
      (hpromoted _).mp ((hall q.orderKey).mpr ⟨q, hgrant, rfl⟩)
    have hle := (hlater p' hp').2
    rw [(StringAny.mk.inj hkey).2] at hle
    exact absurd (of_decide_eq_true (List.mem_filter.mp hq).2)
      (not_lt.mpr hle)
  · intro holder key
    rw [hpromoted, refundWalk_of_olderWait h holder]

/-! ## No waiting order fits -/

/-- Refunding a granted order leaves no waiting order that fits, if no older
order fits the freed seats. -/
theorem noneFits_refundOrder (h : trains.Consistent)
    (hnone : trains.NoneFits) {o : Order} {d : DayTrain}
    (ho : trains.orderDatabase.map.find? o.key = some o)
    (hstatus : o.status = .success)
    (hd : trains.daytrainDatabase.map.find? o.dayKey = some d)
    (holder : trains.OlderWait o d) {reply : TrainReply}
    (hstep : trains.refundOrder o.userName o = some (reply, trains')) :
    trains'.NoneFits := by
  obtain ⟨d', st, hd', rfl, htp, hgranted⟩ :=
    refundOrder_walk h hnone ho hstatus hstep
  obtain rfl := Option.some.inj (hd.symm.trans hd')
  rw [← refundWalk_of_olderWait h holder] at htp hgranted
  intro key o₁ d₁ ho₁ hpending hd₁
  -- an order that waits still was not granted and waited before
  have hnot : ∀ p ∈ (trains.refundWalk o d).1, p.orderKey ≠ key := by
    rintro p hp rfl
    obtain ⟨o₂, -, hdone⟩ := hgranted.success p hp
    obtain rfl := Option.some.inj (hdone.symm.trans ho₁)
    cases hpending
  have hsame : (trains.refundStart o d).orderDatabase.map.find? key =
      some o₁ := by
    rw [← hgranted.other key hnot]
    exact ho₁
  have hne : key ≠ o.key := by
    rintro rfl
    have hrefunded := SortedMap.find?_insert_self trains.orderDatabase.map
      o.key { o with status := .refunded }
    obtain rfl := Option.some.inj (hrefunded.symm.trans hsame)
    cases hpending
  have hbefore : trains.orderDatabase.map.find? key = some o₁ :=
    (SortedMap.find?_insert_of_ne _ _ hne).symm.trans hsame
  by_cases hday : o₁.dayKey = o.dayKey
  · have hd' : (trains.commit o st).daytrainDatabase.map.find? o.dayKey =
        some st.tpDaytrain := SortedMap.find?_insert_self _ _ _
    rw [hday] at hd₁
    obtain rfl := Option.some.inj (hd'.symm.trans hd₁)
    rw [htp]
    refine not_fits_of_not_mem_walkQueue (fun p hp => ?_) ?_ ?_
    · exact (h.pending_pos ((mem_waitingOrders_iff h).mp hp).1).1.le
    · refine (mem_waitingOrders_iff h).mpr ⟨?_, hday⟩
      exact (h.pending_iff _ _).mpr
        ⟨o₁, h.find?_key hbefore, hpending, rfl, rfl⟩
    · intro hmem
      exact hnot _ hmem (h.order_key _ _ hbefore)
  · refine hnone key o₁ d₁ hbefore hpending ?_
    exact (SortedMap.find?_insert_of_ne _ _ hday).symm.trans hd₁

/-- Orders and seats that are as before leave no waiting order that fits. -/
theorem NoneFits.of_eq (hnone : trains.NoneFits)
    (horders : trains'.orderDatabase = trains.orderDatabase)
    (hdaytrains : trains'.daytrainDatabase = trains.daytrainDatabase) :
    trains'.NoneFits := by
  rw [NoneFits, horders, hdaytrains]
  exact hnone

theorem noneFits_release (h : trains.Consistent) (hnone : trains.NoneFits)
    {trainId : String} {train : Train}
    (hfind : trains.trainDatabase.map.find? trainId = some train)
    (hunreleased : train.isReleased = false) :
    (trains.release trainId train).NoneFits := by
  intro key o d ho hpending hd
  obtain ⟨train', hrel, -⟩ := h.order_valid key o ho
  refine hnone key o d ho hpending ?_
  have hne : o.trainId ≠ trainId := by
    rintro rfl
    obtain rfl := Option.some.inj (hfind.symm.trans hrel.1)
    exact Bool.false_ne_true (hunreleased.symm.trans hrel.2)
  have hdays := find?_insertDays trains.daytrainDatabase trainId
    (DayTrain.full train) (saleDays train.startSaleDate train.endSaleDate)
    o.dayKey
  rw [if_neg fun hc => hne hc.1] at hdays
  exact hdays.symm.trans hd

theorem noneFits_sell (hnone : trains.NoneFits)
    {order : Order} {train : Train} {d : DayTrain}
    (hnext : trains.IsNext order train d)
    (hsuccess : order.status = .success) :
    (trains.sell order d).NoneFits := by
  intro key o d₁ ho hpending hd₁
  have hne : key ≠ order.key := by
    rintro rfl
    have hnew := SortedMap.find?_insert_self trains.orderDatabase.map
      order.key order
    obtain rfl := Option.some.inj (hnew.symm.trans ho)
    rw [hsuccess] at hpending
    cases hpending
  have hbefore : trains.orderDatabase.map.find? key = some o :=
    (SortedMap.find?_insert_of_ne _ _ hne).symm.trans ho
  by_cases hday : o.dayKey = order.dayKey
  · rw [hday] at hd₁
    have hnew := SortedMap.find?_insert_self trains.daytrainDatabase.map
      order.dayKey (d.modifySeat order.fromIndex (order.toIndex - 1)
        (-order.num))
    obtain rfl := Option.some.inj (hnew.symm.trans hd₁)
    intro hfits
    refine hnone key o d hbefore hpending (hday ▸ hnext.daytrain)
      (PendingOrder.fits_of_le (fun j => ?_) hfits)
    have hpos := hnext.valid.num_pos
    rw [DayTrain.modifySeat_seatNum]
    split
    next => omega
    next => exact le_refl _
  · exact hnone key o d₁ hbefore hpending
      ((SortedMap.find?_insert_of_ne _ _ hday).symm.trans hd₁)

theorem noneFits_queue (hnone : trains.NoneFits) {order : Order}
    {train : Train} {d : DayTrain} (hnext : trains.IsNext order train d)
    (hfits : ¬ order.num ≤
      d.querySeat order.fromIndex (order.toIndex - 1)) :
    (trains.queue order).NoneFits := by
  intro key o d₁ ho hpending hd₁
  by_cases hkey : key = order.key
  · subst hkey
    have hnew := SortedMap.find?_insert_self trains.orderDatabase.map
      order.key order
    obtain rfl := Option.some.inj (hnew.symm.trans ho)
    obtain rfl := Option.some.inj (hnext.daytrain.symm.trans hd₁)
    exact hfits
  · exact hnone key o d₁
      ((SortedMap.find?_insert_of_ne _ _ hkey).symm.trans ho) hpending hd₁

theorem noneFits_buyTicketWith (h : trains.Consistent)
    (hnone : trains.NoneFits) {accounts : AccountManagement}
    {args : BuyArgs} (hnum : 0 < args.num) {reply : TrainReply}
    (hstep : trains.buyTicketWith accounts args = some (reply, trains')) :
    trains'.NoneFits := by
  rcases buyTicketWith_cases hstep with
    ⟨-, rfl⟩ | ⟨train, startDay, s, t, d, hbuy, -, -, hplace⟩
  · exact hnone
  have hnext := hbuy.isNext h hnum
  unfold placeOrder at hplace
  by_cases hfits : (trains.newOrder args train startDay s t).num ≤
      d.querySeat (trains.newOrder args train startDay s t).fromIndex
        ((trains.newOrder args train startDay s t).toIndex - 1)
  · rw [if_pos hfits] at hplace
    obtain ⟨-, rfl⟩ := Prod.mk.inj hplace
    exact noneFits_sell hnone hnext rfl
  · rw [if_neg hfits] at hplace
    obtain ⟨-, rfl⟩ := Prod.mk.inj hplace
    exact noneFits_queue hnone hnext.pending hfits

theorem noneFits_cancel (hnone : trains.NoneFits) {o : Order}
    (hday : trains'.daytrainDatabase = trains.daytrainDatabase)
    (horders : trains'.orderDatabase = trains.orderDatabase.insertEntry o.key
      { o with status := .refunded }) :
    trains'.NoneFits := by
  intro key o₁ d₁ ho₁ hpending hd₁
  rw [horders] at ho₁
  rw [hday] at hd₁
  have hne : key ≠ o.key := by
    rintro rfl
    have hnew := SortedMap.find?_insert_self trains.orderDatabase.map
      o.key { o with status := .refunded }
    obtain rfl := Option.some.inj (hnew.symm.trans ho₁)
    cases hpending
  exact hnone key o₁ d₁
    ((SortedMap.find?_insert_of_ne _ _ hne).symm.trans ho₁) hpending hd₁

end TrainManagement

/-! ## Runs -/

namespace System

/-- The order that a refund command names: the `x`-th newest order of a user
who is logged in. -/
def refundTarget (system : System) (request : Request) : Option Order :=
  let args := RefundArgs.ofLine request.line
  if request.name ≠ .refundTicket ∨
      (system.accounts.loginPool.find? args.userName).isNone then none
  else do
    let orders ← system.trains.userOrders args.userName
    atIndex orders (args.x - 1)

/-- If the command refunds a granted order, no older waiting order of the
train and day fits the freed seats. -/
def KeepsQueue (system : System) (request : Request) : Prop :=
  ∀ o ∈ system.refundTarget request, o.status = .success →
    ∀ d ∈ system.trains.daytrainDatabase.map.find? o.dayKey,
      system.trains.OlderWait o d

instance (system : System) (request : Request) :
    Decidable (system.KeepsQueue request) := by
  unfold KeepsQueue
  infer_instance

/-- What the target of a refund command is. -/
theorem refundTarget_eq_some_iff {system : System} {request : Request}
    {o : Order} :
    system.refundTarget request = some o ↔
      request.name = .refundTicket ∧
        (system.accounts.loginPool.find?
          (RefundArgs.ofLine request.line).userName).isSome ∧
        ∃ orders, system.trains.userOrders
            (RefundArgs.ofLine request.line).userName = some orders ∧
          atIndex orders ((RefundArgs.ofLine request.line).x - 1) =
            some o := by
  simp only [refundTarget]
  by_cases hno : request.name ≠ .refundTicket ∨
      (system.accounts.loginPool.find?
        (RefundArgs.ofLine request.line).userName).isNone
  · rw [if_pos hno]
    constructor
    · intro hc
      cases hc
    · rintro ⟨hname, hlogin, -⟩
      rcases hno with hne | hnone
      · exact absurd hname hne
      · rw [← Option.not_isSome, hlogin] at hnone
        cases hnone
  · rw [if_neg hno]
    push Not at hno
    rw [Option.bind_eq_bind, Option.bind_eq_some_iff]
    exact (and_iff_right_of_imp fun _ => hno.1).symm.trans
      (and_congr_right fun _ => (and_iff_right_of_imp fun _ =>
        Option.isSome_iff_ne_none.mpr (by simpa using hno.2)).symm)

/-- A refund command that names a granted order refunds it. -/
theorem refundOrder_of_step {system system' : System} {request : Request}
    {reply : Reply} (h : system.trains.Consistent)
    (hstep : system.step request = some (reply, system')) {o : Order}
    (htarget : system.refundTarget request = some o)
    (hstatus : o.status = .success) :
    system.trains.orderDatabase.map.find? o.key = some o ∧
      ∃ r, system.trains.refundOrder o.userName o =
        some (r, system'.trains) := by
  obtain ⟨hname, hlogin, orders, horders, ho⟩ :=
    refundTarget_eq_some_iff.mp htarget
  obtain ⟨name, line, uninit⟩ := request
  obtain rfl : name = .refundTicket := hname
  obtain ⟨⟨r, trains'⟩, hrefund, heq⟩ := Option.map_eq_some_iff.mp hstep
  cases heq
  have hmem : o ∈ orders :=
    List.mem_of_getElem? (atIndex_eq_some_iff.mp ho).2
  obtain ⟨huser, hfind⟩ :=
    TrainManagement.find?_of_mem_userOrders h.order_key horders hmem
  refine ⟨hfind, r, ?_⟩
  rw [huser, ← TrainManagement.refundTicketWith_of_atIndex hlogin horders ho
    (by rw [hstatus]; decide)]
  exact hrefund

theorem noneFits_step {system system' : System} {request : Request}
    {reply : Reply} (h : system.trains.Consistent)
    (hnone : system.trains.NoneFits) (hwf : request.WellFormed)
    (hkeep : system.KeepsQueue request)
    (hstep : system.step request = some (reply, system')) :
    system'.trains.NoneFits := by
  obtain ⟨name, line, uninit⟩ := request
  cases name
  case addTrain =>
    obtain ⟨⟨r, trains'⟩, hadd, heq⟩ := Option.map_eq_some_iff.mp hstep
    cases heq
    rcases TrainManagement.addTrainWith_cases hadd with
      rfl | ⟨-, newTrain, -, rfl⟩
    · exact hnone
    · exact hnone.of_eq rfl rfl
  case releaseTrain =>
    cases hstep
    rcases TrainManagement.releaseTrain_cases system.trains line with
      hsame | ⟨trainId, train, hfind, hunreleased, hrel⟩
    · exact hnone.of_eq (congrArg _ hsame) (congrArg _ hsame)
    · have hnone' :=
        TrainManagement.noneFits_release h hnone hfind hunreleased
      exact hnone'.of_eq (congrArg _ hrel) (congrArg _ hrel)
  case deleteTrain =>
    cases hstep
    rcases TrainManagement.deleteTrain_cases system.trains line with
      hsame | ⟨trainId, train, -, -, hdel⟩
    · exact hnone.of_eq (congrArg _ hsame) (congrArg _ hsame)
    · have horders : (system.trains.deleteTrain line).2.orderDatabase =
          system.trains.orderDatabase := by rw [hdel]
      have hdaytrains : (system.trains.deleteTrain line).2.daytrainDatabase =
          system.trains.daytrainDatabase := by rw [hdel]
      exact hnone.of_eq horders hdaytrains
  case buyTicket =>
    obtain ⟨⟨r, trains'⟩, hbuy, heq⟩ := Option.map_eq_some_iff.mp hstep
    cases heq
    exact TrainManagement.noneFits_buyTicketWith h hnone hwf hbuy
  case refundTicket =>
    obtain ⟨⟨r, trains'⟩, hrefund, heq⟩ := Option.map_eq_some_iff.mp hstep
    cases heq
    rcases TrainManagement.refundTicketWith_cases h.order_key hrefund with
      rfl | ⟨orders, o, hlogin, horders, hx, -, ho, hstatus, hstep'⟩
    · exact hnone
    cases hsuccess : o.status with
    | refunded => exact absurd hsuccess hstatus
    | pending =>
        rcases (TrainManagement.refundOrder_cases hstep').2 with
          ⟨-, rfl⟩ | ⟨hnot, -⟩
        · exact TrainManagement.noneFits_cancel hnone rfl rfl
        · exact absurd hsuccess hnot
    | success =>
        obtain ⟨d, hd⟩ := h.exists_daytrain ho
        have htarget := refundTarget_eq_some_iff.mpr
          ⟨rfl, hlogin, orders, horders, hx⟩
        exact TrainManagement.noneFits_refundOrder h hnone ho hsuccess hd
          (hkeep o htarget hsuccess d hd) hstep'
  case clean =>
    cases hstep
    intro key o d ho
    cases ho
  case exit =>
    cases hstep
    exact hnone.of_eq rfl rfl
  -- the other commands leave the trains alone
  all_goals
    simp only [System.step, Option.map_eq_some_iff, Option.some.injEq,
      Prod.mk.injEq, System.withAccounts] at hstep
    obtain ⟨_, _, _, rfl⟩ := hstep
    exact hnone

/-- Along every run in which no refund meets an older waiting order that fits
the freed seats, no waiting order ever fits, and every refund of a granted
order promotes exactly the orders of the whole walk. -/
theorem waitingOrders_served {sizes : Fin 6 → ℤ} {s : System}
    (h : Reaches System.step
      (fun s request => request.WellFormed ∧ s.KeepsQueue request)
      (System.start (Databases.new sizes)) s) :
    (∀ key o d, s.trains.orderDatabase.map.find? key = some o →
      o.status = .pending →
      s.trains.daytrainDatabase.map.find? o.dayKey = some d →
        ¬ o.toPending.Fits d) ∧
    ∀ request reply s' o, request.WellFormed → s.KeepsQueue request →
      s.step request = some (reply, s') →
      s.refundTarget request = some o → o.status = .success →
        ∃ d, s.trains.daytrainDatabase.map.find? o.dayKey = some d ∧
          ∀ key, s.trains.Promoted s'.trains key ↔
            ∃ p ∈ (walkQueue
              (d.modifySeat o.fromIndex (o.toIndex - 1) o.num)
              (s.trains.waitingOrders o.dayKey)).1, p.orderKey = key := by
  have hinv : s.trains.Consistent ∧ s.trains.NoneFits := by
    refine h.invariant
      (fun s => s.trains.Consistent ∧ s.trains.NoneFits) ?_ ?_
    · refine ⟨System.consistent_start sizes, ?_⟩
      intro key o d ho
      cases ho
    · intro s request reply s' hs hok hstep
      exact ⟨System.consistent_step hs.1 hok.1 hstep,
        noneFits_step hs.1 hs.2 hok.1 hok.2 hstep⟩
  obtain ⟨hcons, hnone⟩ := hinv
  refine ⟨hnone, ?_⟩
  intro request reply s' o hwf hkeep hstep htarget hstatus
  obtain ⟨ho, r, hrefund⟩ :=
    refundOrder_of_step hcons hstep htarget hstatus
  obtain ⟨d, hd⟩ := hcons.exists_daytrain ho
  exact ⟨d, hd, (TrainManagement.promoted_iff_refundWalk_iff hcons hnone ho
    hstatus hd hrefund).mpr (hkeep o htarget hstatus d hd)⟩

/-- A ten-seat train with four orders of three, three, five and four seats, of
which the third waits. -/
def crowdedRun : List Request :=
  waitingRun.take 4 ++ ["3", "3", "5", "4"].map fun n =>
    ⟨.buyTicket, ["-u", "root", "-i", "T", "-d", "06-01", "-n", n,
      "-f", "A", "-t", "C", "-q", "true"], 0⟩

/-- Refunding the oldest order frees too few seats for the waiting order;
refunding the next serves it. -/
theorem waitingOrders_served_crowdedRun :
    ∃ s : System, (s.trains.orderDatabase.map.find? ⟨"root", 3⟩).map
        Order.status = some .success ∧
      (∀ key o d, s.trains.orderDatabase.map.find? key = some o →
        o.status = .pending →
        s.trains.daytrainDatabase.map.find? o.dayKey = some d →
          ¬ o.toPending.Fits d) := by
  let requests := crowdedRun ++
    [⟨.refundTicket, ["-u", "root", "-n", "4"], 0⟩,
      ⟨.refundTicket, ["-u", "root", "-n", "3"], 0⟩]
  have hrun : ((runSteps System.step
      (System.start (Databases.new fun _ => 0)) requests).map fun s =>
        (s.trains.orderDatabase.map.find? ⟨"root", 3⟩).map Order.status) =
          some (some .success) := by
    decide +kernel
  have hok : StepsOk System.step
      (fun s request => request.WellFormed ∧ s.KeepsQueue request)
      (System.start (Databases.new fun _ => 0)) requests := by
    decide +kernel
  obtain ⟨s, hs, hstatus⟩ := Option.map_eq_some_iff.mp hrun
  exact ⟨s, hstatus, (waitingOrders_served (Reaches.runSteps .refl hok hs)).1⟩

/-- Refunding the newest order after one of the oldest leaves a waiting order
that fits: it is older than the refunded one. -/
theorem not_always_served :
    ¬ ∀ s : System, s.Reachable →
      ∀ key o d, s.trains.orderDatabase.map.find? key = some o →
        o.status = .pending →
        s.trains.daytrainDatabase.map.find? o.dayKey = some d →
          ¬ o.toPending.Fits d := by
  intro hall
  let requests := crowdedRun ++
    [⟨.refundTicket, ["-u", "root", "-n", "3"], 0⟩,
      ⟨.refundTicket, ["-u", "root", "-n", "1"], 0⟩]
  have hrun : ((runSteps System.step
      (System.start (Databases.new fun _ => 0)) requests).map fun s =>
        (s.trains.orderDatabase.map.find? ⟨"root", 3⟩).map fun o =>
          decide (o.status = .pending ∧
            ∃ d ∈ s.trains.daytrainDatabase.map.find? o.dayKey,
              o.toPending.Fits d)) = some (some true) := by
    decide +kernel
  have hok : StepsOk System.step (fun _ request => request.WellFormed)
      (System.start (Databases.new fun _ => 0)) requests := by
    decide +kernel
  obtain ⟨s, hs, hfacts⟩ := Option.map_eq_some_iff.mp hrun
  obtain ⟨o, ho, hwaits⟩ := Option.map_eq_some_iff.mp hfacts
  obtain ⟨hpending, d, hd, hfits⟩ := of_decide_eq_true hwaits
  exact hall s (reachable_of_runSteps hok hs) _ o d ho hpending hd hfits

end System

end TicketSystem.Backend
