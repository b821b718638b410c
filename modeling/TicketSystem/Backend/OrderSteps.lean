import TicketSystem.Backend.Consistency

/-!
# Buying and refunding

A purchase sets a new order, a refund rewrites one and then grants waiting
orders.  Each of these settings keeps the databases consistent; during the
promotion loop the invariant is that of the state that would be written back.
-/

namespace TicketSystem.Backend

open TicketSystem.Support
open TicketSystem.Database

/-! ## Seats of one order -/

theorem Order.seatsAt_of_ne_success {order : Order}
    (h : order.status ≠ .success) (trainId : String) (day : TimeType)
    (j : ℕ) : order.seatsAt trainId day j = 0 := by
  unfold Order.seatsAt
  rw [if_neg]
  exact fun hc => h hc.1

theorem Order.seatsAt_self {order : Order} (h : order.status = .success)
    (j : ℕ) :
    order.seatsAt order.trainId order.startDay j =
      if order.fromIndex ≤ j ∧ j < order.toIndex then order.num else 0 := by
  simp [Order.seatsAt, h]

namespace DayTrain

/-- Taking the segments from station `l` to station `r` of an order. -/
theorem modifySeat_pred (d : DayTrain) {l r : ℕ} (hlr : l < r) (val : ℤ)
    (j : ℕ) :
    (d.modifySeat l (r - 1) val).seatNum j =
      d.seatNum j + if l ≤ j ∧ j < r then val else 0 := by
  rw [modifySeat_seatNum]
  by_cases hj : l ≤ j ∧ j < r
  · rw [if_pos hj, if_pos ⟨hj.1, by omega⟩]
  · rw [if_neg hj, if_neg (by omega), add_zero]

/-- What fits the answer of `query_seat` fits every segment. -/
theorem le_seatNum_of_le_querySeat {d : DayTrain} {l r j : ℕ} {n : ℤ}
    (h : n ≤ d.querySeat l (r - 1)) (hl : l ≤ j) (hr : j < r) :
    n ≤ d.seatNum j :=
  (le_querySeat_iff.mp h).2 j hl (by omega)

end DayTrain

namespace TrainManagement

variable {trains trains' : TrainManagement}

/-! ## Buying -/

/-- The search for the stations finds nothing or stations of that name. -/
theorem findStations_spec (train : Train) (fromStation toStation : String)
    (is : List ℕ) (st : ℕ × ℕ) {P : ℕ → Prop} (hP : ∀ i ∈ is, P i)
    (hs : st.1 ≠ 0 → P st.1 ∧ train.stations st.1 = fromStation)
    (ht : st.2 ≠ 0 → P st.2 ∧ train.stations st.2 = toStation) :
    ((train.findStations fromStation toStation is st).1 ≠ 0 →
      P (train.findStations fromStation toStation is st).1 ∧
        train.stations (train.findStations fromStation toStation is st).1 =
          fromStation) ∧
    ((train.findStations fromStation toStation is st).2 ≠ 0 →
      P (train.findStations fromStation toStation is st).2 ∧
        train.stations (train.findStations fromStation toStation is st).2 =
          toStation) := by
  induction is generalizing st with
  | nil => exact ⟨hs, ht⟩
  | cons i is ih =>
      obtain ⟨s, t⟩ := st
      rw [Train.findStations]
      by_cases hdone : s ≠ 0 ∧ t ≠ 0
      · rw [if_pos hdone]
        exact ⟨hs, ht⟩
      · rw [if_neg hdone]
        apply ih
        · exact fun i' hi' => hP i' (List.mem_cons_of_mem i hi')
        · intro hne
          by_cases hname : train.stations i = fromStation
          · simp only [if_pos hname]
            exact ⟨hP i List.mem_cons_self, hname⟩
          · simp only [if_neg hname] at hne ⊢
            exact hs hne
        · intro hne
          by_cases hname : train.stations i = toStation
          · simp only [if_pos hname]
            exact ⟨hP i List.mem_cons_self, hname⟩
          · simp only [if_neg hname] at hne ⊢
            exact ht hne

/-- A purchase that passes all checks: its train, stations, start day and
seats. -/
structure Purchase (trains : TrainManagement) (args : BuyArgs)
    (train : Train) (startDay : TimeType) (s t : ℕ) (d : DayTrain) :
    Prop where
  released : trains.Released args.trainId train
  one_le : 1 ≤ s
  lt : s < t
  le_stationNum : t ≤ train.stationNum
  from_eq : train.stations s = args.fromStation
  to_eq : train.stations t = args.toStation
  startDay_eq : ∃ date, TimeType.ofString (args.date ++ " 00:00") = some date ∧
    startDay = date - TimeType.getDate (train.leavingTimes s)
  le_startDay : train.startSaleDate ≤ startDay
  startDay_le : startDay ≤ train.endSaleDate
  daytrain : trains.daytrainDatabase.map.find? ⟨args.trainId, startDay⟩ =
    some d

theorem buyTicketWith_cases {accounts : AccountManagement} {args : BuyArgs}
    {reply : TrainReply}
    (h : trains.buyTicketWith accounts args = some (reply, trains')) :
    (reply = .failure ∧ trains' = trains) ∨
      ∃ train startDay s t d,
        trains.Purchase args train startDay s t d ∧
        args.num ≤ train.totalSeatNum ∧
        (args.isPending ∨ args.num ≤ d.querySeat s (t - 1)) ∧
        (reply, trains') = trains.placeOrder
          (trains.newOrder args train startDay s t) d := by
  unfold buyTicketWith at h
  by_cases hlogin : (accounts.loginPool.find? args.userName).isNone
  · rw [if_pos hlogin] at h
    cases h
    exact Or.inl ⟨rfl, rfl⟩
  rw [if_neg hlogin] at h
  cases hfind : trains.trainDatabase.map.find? args.trainId with
  | none =>
      rw [Index.searchKey_of_find? hfind] at h
      cases h
      exact Or.inl ⟨rfl, rfl⟩
  | some train =>
      simp only [Index.searchKey_of_find? hfind, Option.toList_some] at h
      by_cases hreleased : train.isReleased
      swap
      · rw [if_pos hreleased] at h
        cases h
        exact Or.inl ⟨rfl, rfl⟩
      rw [if_neg (not_not.mpr hreleased)] at h
      by_cases htotal : train.totalSeatNum < args.num
      · rw [if_pos htotal] at h
        cases h
        exact Or.inl ⟨rfl, rfl⟩
      rw [if_neg htotal] at h
      have hfound := findStations_spec train args.fromStation args.toStation
        (loopRange 1 train.stationNum) (0, 0)
        (P := fun i => 1 ≤ i ∧ i ≤ train.stationNum)
        (fun i hi => mem_loopRange.mp hi) (by simp) (by simp)
      generalize train.findStations args.fromStation args.toStation
        (loopRange 1 train.stationNum) (0, 0) = st at h hfound
      obtain ⟨s, t⟩ := st
      obtain ⟨hs, ht⟩ := hfound
      simp only at h hs ht
      by_cases hst : s = 0 ∨ t = 0 ∨ t ≤ s
      · rw [if_pos hst] at h
        cases h
        exact Or.inl ⟨rfl, rfl⟩
      rw [if_neg hst] at h
      push Not at hst
      obtain ⟨date, hdate, h⟩ := Option.bind_eq_some_iff.mp h
      by_cases hwindow :
          date - TimeType.getDate (train.leavingTimes s) <
              train.startSaleDate ∨
            train.endSaleDate <
              date - TimeType.getDate (train.leavingTimes s)
      · rw [if_pos hwindow] at h
        cases h
        exact Or.inl ⟨rfl, rfl⟩
      rw [if_neg hwindow] at h
      push Not at hwindow
      cases hday : trains.daytrainDatabase.map.find?
          ⟨args.trainId, date - TimeType.getDate (train.leavingTimes s)⟩ with
      | none =>
          rw [Index.searchKey_of_find? hday] at h
          cases h
      | some d =>
          simp only [Index.searchKey_of_find? hday, Option.toList_some] at h
          by_cases hseat : ¬ args.isPending ∧ d.querySeat s (t - 1) < args.num
          · rw [if_pos hseat] at h
            cases h
            exact Or.inl ⟨rfl, rfl⟩
          · rw [if_neg hseat] at h
            refine Or.inr ⟨train, _, s, t, d, ?_, not_lt.mp htotal, ?_,
              (Option.some.inj h).symm⟩
            · exact
                { released := ⟨hfind, hreleased⟩
                  one_le := (hs hst.1).1.1
                  lt := hst.2.2
                  le_stationNum := (ht hst.2.1).1.2
                  from_eq := (hs hst.1).2
                  to_eq := (ht hst.2.1).2
                  startDay_eq := ⟨date, hdate, rfl⟩
                  le_startDay := hwindow.1
                  startDay_le := hwindow.2
                  daytrain := hday }
            · by_cases hpending : args.isPending
              · exact Or.inl hpending
              · exact Or.inr (not_lt.mp fun hlt => hseat ⟨hpending, hlt⟩)

/-- An order with the next number, for seats of a released train. -/
structure IsNext (trains : TrainManagement) (order : Order) (train : Train)
    (d : DayTrain) : Prop where
  orderId_eq : order.orderId = trains.orderNum + 1
  released : trains.Released order.trainId train
  valid : order.Valid train
  daytrain : trains.daytrainDatabase.map.find? order.dayKey = some d

namespace IsNext

variable {order : Order} {train : Train} {d : DayTrain}

/-- The number of a new order is not in use. -/
theorem orderId_ne (hnext : trains.IsNext order train d)
    (h : trains.Consistent) {key : StringAny} {o : Order}
    (ho : trains.orderDatabase.map.find? key = some o) :
    o.orderId ≠ order.orderId := by
  have hle := h.order_le key o ho
  have heq := hnext.orderId_eq
  omega

theorem find?_key (hnext : trains.IsNext order train d)
    (h : trains.Consistent) :
    trains.orderDatabase.map.find? order.key = none := by
  by_contra hsome
  obtain ⟨o, ho⟩ := Option.ne_none_iff_exists'.mp hsome
  exact hnext.orderId_ne h ho (StringAny.mk.inj (h.order_key _ _ ho)).2

theorem size_insertEntry (hnext : trains.IsNext order train d)
    (h : trains.Consistent) :
    (trains.orderDatabase.insertEntry order.key order).size =
      order.orderId := by
  rw [Index.insertEntry, hnext.find?_key h, hnext.orderId_eq, h.orderNum_eq]
  rfl

/-- The new order is not on the waiting list yet. -/
theorem find?_pendingKey (hnext : trains.IsNext order train d)
    (h : trains.Consistent) :
    trains.pendingOrderDatabase.map.find? order.pendingKey = none := by
  by_contra hsome
  obtain ⟨p, hp⟩ := Option.ne_none_iff_exists'.mp hsome
  obtain ⟨o, ho, -, hkey, -⟩ := (h.pending_iff _ _).mp hp
  exact hnext.orderId_ne h ho (StringIntInt.mk.inj hkey).2.2

/-- An order may as well wait for its seats. -/
theorem pending (hnext : trains.IsNext order train d) :
    trains.IsNext { order with status := .pending } train d :=
  have hvalid := hnext.valid
  ⟨hnext.orderId_eq, hnext.released,
    ⟨hvalid.one_le, hvalid.lt, hvalid.le_stationNum, hvalid.startDay_mem,
      hvalid.num_pos⟩, hnext.daytrain⟩

theorem consistent_sell (hnext : trains.IsNext order train d)
    (h : trains.Consistent) (hsuccess : order.status = .success)
    (hfits : order.num ≤
      d.querySeat order.fromIndex (order.toIndex - 1)) :
    (trains.sell order d).Consistent := by
  have hvalid := hnext.valid
  refine h.set_order order
    (d.modifySeat order.fromIndex (order.toIndex - 1) (-order.num))
    rfl rfl rfl ?_ ?_ ?_ ?_ (hnext.size_insertEntry h).symm ?_ (le_refl _)
    hnext.released hvalid ?_ hnext.daytrain ?_
  · exact SortedMap.find?_insert_self _ _ _
  · exact fun key hkey => SortedMap.find?_insert_of_ne _ _ hkey
  · rw [if_neg (by rw [hsuccess]; decide)]
    exact hnext.find?_pendingKey h
  · exact fun key _ => rfl
  · have hid : order.orderId = trains.orderNum + 1 := hnext.orderId_eq
    exact (Int.le_add_one (le_refl _)).trans hid.ge
  · exact fun key o ho heq => absurd heq (hnext.orderId_ne h ho)
  · intro j hj hjn
    have hold := (h.seats _ _ _ _ hnext.released hnext.daytrain j hj hjn).2
    rw [hnext.find?_key h, Order.seatsAt_self hsuccess,
      DayTrain.modifySeat_pred _ hvalid.lt, Option.elim_none]
    by_cases hin : order.fromIndex ≤ j ∧ j < order.toIndex
    · have hle := DayTrain.le_seatNum_of_le_querySeat hfits hin.1 hin.2
      simp only [if_pos hin]
      omega
    · simp only [if_neg hin]
      omega

theorem consistent_queue (hnext : trains.IsNext order train d)
    (h : trains.Consistent) (hpending : order.status = .pending) :
    (trains.queue order).Consistent := by
  refine h.set_order order d rfl rfl rfl ?_ ?_ ?_ ?_
    (hnext.size_insertEntry h).symm ?_ (le_refl _) hnext.released
    hnext.valid ?_ hnext.daytrain ?_
  · exact hnext.daytrain
  · exact fun key _ => rfl
  · rw [if_pos hpending]
    exact SortedMap.find?_insert_self _ _ _
  · exact fun key hkey => SortedMap.find?_insert_of_ne _ _ hkey
  · have hid : order.orderId = trains.orderNum + 1 := hnext.orderId_eq
    exact (Int.le_add_one (le_refl _)).trans hid.ge
  · exact fun key o ho heq => absurd heq (hnext.orderId_ne h ho)
  · intro j hj hjn
    have hold := (h.seats _ _ _ _ hnext.released hnext.daytrain j hj hjn).2
    rw [hnext.find?_key h,
      Order.seatsAt_of_ne_success (by rw [hpending]; decide),
      Option.elim_none]
    omega

end IsNext

theorem Purchase.isNext {args : BuyArgs} {train : Train}
    {startDay : TimeType} {s t : ℕ} {d : DayTrain}
    (hbuy : trains.Purchase args train startDay s t d)
    (h : trains.Consistent) (hnum : 0 < args.num) :
    trains.IsNext (trains.newOrder args train startDay s t) train d := by
  have hmem : startDay ∈ saleDays train.startSaleDate train.endSaleDate := by
    obtain ⟨train', hrel, hmem⟩ :=
      (h.daytrain_iff _ _).mp (by rw [hbuy.daytrain]; rfl)
    rwa [hbuy.released.unique hrel]
  exact
    { orderId_eq := rfl
      released := hbuy.released
      valid := ⟨hbuy.one_le, hbuy.lt, hbuy.le_stationNum, hmem, hnum⟩
      daytrain := hbuy.daytrain }

theorem consistent_placeOrder (h : trains.Consistent) {order : Order}
    {train : Train} {d : DayTrain} (hnext : trains.IsNext order train d)
    (hsuccess : order.status = .success) :
    (trains.placeOrder order d).2.Consistent := by
  unfold placeOrder
  by_cases hfits : order.num ≤
      d.querySeat order.fromIndex (order.toIndex - 1)
  · rw [if_pos hfits]
    exact hnext.consistent_sell h hsuccess hfits
  · rw [if_neg hfits]
    exact hnext.pending.consistent_queue h rfl

theorem consistent_buyTicketWith (h : trains.Consistent)
    {accounts : AccountManagement} {args : BuyArgs} (hnum : 0 < args.num)
    {reply : TrainReply}
    (hstep : trains.buyTicketWith accounts args = some (reply, trains')) :
    trains'.Consistent := by
  rcases buyTicketWith_cases hstep with
    ⟨-, rfl⟩ | ⟨train, startDay, s, t, d, hbuy, -, -, hplace⟩
  · exact h
  · have hplaced := consistent_placeOrder h (hbuy.isNext h hnum) rfl
    rw [← hplace] at hplaced
    exact hplaced

/-! ## Rewriting the status of an order -/

theorem Consistent.size_insertEntry_of_find? (h : trains.Consistent)
    {key : StringAny} {o o' : Order}
    (ho : trains.orderDatabase.map.find? key = some o) :
    (trains.orderDatabase.insertEntry key o').size = trains.orderNum := by
  rw [Index.insertEntry, ho, h.orderNum_eq]
  simp

/-- An order changes its status, and the seats of its day with it. -/
theorem Consistent.set_status (h : trains.Consistent) {o : Order}
    (status : Status) (d' : DayTrain) {d : DayTrain}
    (ho : trains.orderDatabase.map.find? o.key = some o)
    (hd : trains.daytrainDatabase.map.find? o.dayKey = some d)
    (htrains : trains'.trainDatabase = trains.trainDatabase)
    (hstations : trains'.stationDatabase = trains.stationDatabase)
    (horderNum : trains'.orderNum = trains.orderNum)
    (horders : trains'.orderDatabase =
      trains.orderDatabase.insertEntry o.key { o with status := status })
    (hdaytrain : trains'.daytrainDatabase.map.find? o.dayKey = some d')
    (hdaytrains : ∀ key, key ≠ o.dayKey →
      trains'.daytrainDatabase.map.find? key =
        trains.daytrainDatabase.map.find? key)
    (hpending : trains'.pendingOrderDatabase.map.find? o.pendingKey =
      if status = .pending then some o.toPending else none)
    (hpendings : ∀ key, key ≠ o.pendingKey →
      trains'.pendingOrderDatabase.map.find? key =
        trains.pendingOrderDatabase.map.find? key)
    (hseats : ∀ j, 1 ≤ j →
      d'.seatNum j = d.seatNum j + o.seatsAt o.trainId o.startDay j -
        { o with status := status }.seatsAt o.trainId o.startDay j ∧
      (0 ≤ d.seatNum j → 0 ≤ d'.seatNum j)) :
    trains'.Consistent := by
  obtain ⟨train, hreleased, hvalid⟩ := h.order_valid _ o ho
  refine h.set_order { o with status := status } d' htrains hstations
    horders hdaytrain hdaytrains hpending hpendings ?_ horderNum.symm.le ?_
    hreleased ⟨hvalid.one_le, hvalid.lt, hvalid.le_stationNum,
      hvalid.startDay_mem, hvalid.num_pos⟩ ?_ hd ?_
  · rw [horderNum, horders, h.size_insertEntry_of_find? ho]
  · rw [horderNum]
    exact h.order_le _ o ho
  · intro key o₁ ho₁ hid
    have hkey := h.order_inj _ _ _ _ ho₁ ho hid
    subst hkey
    obtain rfl := Option.some.inj (ho.symm.trans ho₁)
    exact ⟨rfl, rfl⟩
  · intro j hj hjn
    have hold := (h.seats _ _ _ _ hreleased hd j hj hjn).2
    obtain ⟨hseat, hnonneg⟩ := hseats j hj
    have hfind : trains.orderDatabase.map.find?
        { o with status := status }.key = some o := ho
    rw [hfind, Option.elim_some]
    exact ⟨hseat, hnonneg hold⟩

/-! ## Promoting waiting orders -/

/-- Waiting orders of the day of the refunded order, each once. -/
structure Waiting (trains : TrainManagement) (refundOrder : Order)
    (ps : List PendingOrder) : Prop where
  find? : ∀ p ∈ ps,
    trains.pendingOrderDatabase.map.find? p.key = some p
  sameDay : ∀ p ∈ ps, (⟨p.trainId, p.startDay⟩ : StringAny) =
    refundOrder.dayKey
  nodup : (ps.map PendingOrder.key).Nodup

/-- The order behind an entry of the waiting list. -/
theorem Consistent.exists_order (h : trains.Consistent) {p : PendingOrder}
    (hp : trains.pendingOrderDatabase.map.find? p.key = some p) :
    ∃ o, trains.orderDatabase.map.find? p.orderKey = some o ∧
      o.key = p.orderKey ∧ o.status = .pending ∧ o.toPending = p := by
  obtain ⟨o, ho, hstatus, -, rfl⟩ := (h.pending_iff _ _).mp hp
  exact ⟨o, ho, rfl, hstatus, rfl⟩

/-- Granting a waiting order that fits keeps what would be written back
consistent. -/
theorem consistent_grant {r : Order} {st st' : Promotion} {p : PendingOrder}
    (h : (trains.commit r st).Consistent)
    (hp : st.pendingOrderDatabase.map.find? p.key = some p)
    (hday : (⟨p.trainId, p.startDay⟩ : StringAny) = r.dayKey)
    (hfits : p.num ≤ st.tpDaytrain.querySeat p.fromIndex (p.toIndex - 1))
    (hgrant : st.grant p = some st') :
    (trains.commit r st').Consistent := by
  obtain ⟨o, ho, hkey, hstatus, rfl⟩ := h.exists_order hp
  change o.num ≤ st.tpDaytrain.querySeat o.fromIndex (o.toIndex - 1) at hfits
  have ho' : st.orderDatabase.map.find? o.toPending.orderKey = some o := ho
  have hd : (trains.commit r st).daytrainDatabase.map.find? o.dayKey =
      some st.tpDaytrain := by
    rw [show o.dayKey = r.dayKey from hday]
    exact SortedMap.find?_insert_self _ _ _
  obtain ⟨train, hreleased, hvalid⟩ := h.order_valid _ o ho
  simp only [Promotion.grant, Index.searchKey_of_find? ho',
    Option.toList_some, Option.some.injEq] at hgrant
  subst hgrant
  refine h.set_status (o := o) .success
    (st.tpDaytrain.modifySeat o.fromIndex (o.toIndex - 1) (-o.num))
    ho hd rfl rfl rfl rfl ?_ ?_ ?_ ?_ ?_
  · rw [show o.dayKey = r.dayKey from hday]
    exact SortedMap.find?_insert_self _ _ _
  · intro key hne
    rw [show o.dayKey = r.dayKey from hday] at hne
    exact (SortedMap.find?_insert_of_ne _ _ hne).trans
      (SortedMap.find?_insert_of_ne _ _ hne).symm
  · rw [if_neg (by decide)]
    exact (SortedMap.find?_erase _ _ _).trans (if_pos rfl)
  · exact fun key hne => (SortedMap.find?_erase _ _ _).trans (if_neg hne)
  · intro j hj
    have hsuccess : { o with status := .success }.seatsAt o.trainId
        o.startDay j =
          if o.fromIndex ≤ j ∧ j < o.toIndex then o.num else 0 :=
      Order.seatsAt_self rfl j
    rw [Order.seatsAt_of_ne_success (by rw [hstatus]; decide), hsuccess,
      DayTrain.modifySeat_pred _ hvalid.lt]
    by_cases hin : o.fromIndex ≤ j ∧ j < o.toIndex
    · have hle := DayTrain.le_seatNum_of_le_querySeat hfits hin.1 hin.2
      simp only [if_pos hin]
      exact ⟨by ring, fun _ => by omega⟩
    · simp only [if_neg hin]
      exact ⟨by ring, fun hnonneg => by omega⟩

/-- The waiting orders that are left after one was granted. -/
theorem Waiting.tail_of_grant {r : Order} {st st' : Promotion}
    {p : PendingOrder} {ps : List PendingOrder}
    (hwait : (trains.commit r st).Waiting r (p :: ps))
    (hgrant : st.grant p = some st') :
    (trains.commit r st').Waiting r ps := by
  have hnodup := List.nodup_cons.mp hwait.nodup
  refine ⟨fun q hq => ?_, fun q hq =>
    hwait.sameDay q (List.mem_cons_of_mem p hq), hnodup.2⟩
  have hne : q.key ≠ p.key :=
    fun heq => hnodup.1 (heq ▸ List.mem_map_of_mem hq)
  have hfind := hwait.find? q (List.mem_cons_of_mem p hq)
  unfold Promotion.grant at hgrant
  cases hsearch : st.orderDatabase.searchKey p.orderKey with
  | nil => simp [hsearch] at hgrant
  | cons o rest =>
      rw [hsearch] at hgrant
      obtain rfl := Option.some.inj hgrant
      exact (SortedMap.find?_erase _ _ _).trans ((if_neg hne).trans hfind)

theorem Waiting.tail {r : Order} {p : PendingOrder}
    {ps : List PendingOrder} (hwait : trains.Waiting r (p :: ps)) :
    trains.Waiting r ps :=
  ⟨fun q hq => hwait.find? q (List.mem_cons_of_mem p hq),
    fun q hq => hwait.sameDay q (List.mem_cons_of_mem p hq),
    (List.nodup_cons.mp hwait.nodup).2⟩

theorem consistent_promoteOrders {r : Order} {ps : List PendingOrder}
    {st st' : Promotion} (h : (trains.commit r st).Consistent)
    (hwait : (trains.commit r st).Waiting r ps)
    (hrun : promoteOrders r ps st = some st') :
    (trains.commit r st').Consistent := by
  induction ps generalizing st with
  | nil =>
      obtain rfl := Option.some.inj hrun
      exact h
  | cons p ps ih =>
      rw [promoteOrders] at hrun
      split at hrun
      next => exact ih h hwait.tail hrun
      next =>
        split at hrun
        next hfits =>
          obtain ⟨st₁, hgrant, hrest⟩ := Option.bind_eq_some_iff.mp hrun
          have hp := hwait.find? p List.mem_cons_self
          have hday := hwait.sameDay p List.mem_cons_self
          exact ih (consistent_grant h hp hday hfits hgrant)
            (hwait.tail_of_grant hgrant) hrest
        next => exact ih h hwait.tail hrun

/-! ## Refunding -/

/-- The scan of the waiting list from an order on sees the later waiting
orders of its day. -/
theorem mem_scanKey_pending_iff (h : trains.Consistent) {r : Order}
    {p : PendingOrder} :
    p ∈ trains.pendingOrderDatabase.scanKey r.pendingKey
        (stringIntIntComparator 1) ↔
      trains.pendingOrderDatabase.map.find? p.key = some p ∧
        (⟨p.trainId, p.startDay⟩ : StringAny) = r.dayKey ∧
        r.orderId ≤ p.orderId := by
  have hkey : ∀ k p, trains.pendingOrderDatabase.map.find? k = some p →
      p.key = k := by
    intro k p hp
    obtain ⟨o, -, -, rfl, rfl⟩ := (h.pending_iff k p).mp hp
    rfl
  rw [Index.mem_scanKey_iff]
  · constructor
    · rintro ⟨k, hle, hzero, hp⟩
      obtain rfl := hkey k p hp
      obtain ⟨hstr, hfirst⟩ :=
        (stringIntIntComparator_one_eq_zero_iff _ _).mp hzero
      refine ⟨hp, StringAny.ext hstr.symm hfirst.symm, ?_⟩
      rcases (StringIntInt.le_iff _ _).mp hle with hlt | ⟨-, hlt | hle⟩
      · exact absurd hstr hlt.ne
      · exact absurd hfirst hlt.ne
      · exact hle.2
    · rintro ⟨hp, hday, hle⟩
      obtain ⟨hstr, hfirst⟩ := StringAny.mk.inj hday
      refine ⟨p.key, (StringIntInt.le_iff _ _).mpr
        (Or.inr ⟨hstr.symm, Or.inr ⟨hfirst.symm, hle⟩⟩), ?_, hp⟩
      exact (stringIntIntComparator_one_eq_zero_iff _ _).mpr
        ⟨hstr.symm, hfirst.symm⟩
  · intro a b hka hab hzero
    obtain ⟨hstr, hfirst⟩ :=
      (stringIntIntComparator_one_eq_zero_iff _ _).mp hzero
    refine (stringIntIntComparator_one_eq_zero_iff _ _).mpr ?_
    -- between two keys of one day lie only keys of that day
    rcases (StringIntInt.le_iff _ _).mp hka with hlt | ⟨ha, hka⟩
    · rcases (StringIntInt.le_iff _ _).mp hab with hlt' | ⟨hb, -⟩
      · exact absurd (hlt.trans hlt') (hstr ▸ lt_irrefl _)
      · exact absurd hlt (by rw [hstr, hb]; exact lt_irrefl _)
    · refine ⟨ha, ?_⟩
      rcases (StringIntInt.le_iff _ _).mp hab with hlt' | ⟨-, hab⟩
      · exact absurd hlt' (by rw [← ha, hstr]; exact lt_irrefl _)
      · rcases hka with hlt | ⟨heq, -⟩
        · rcases hab with hlt' | ⟨heq', -⟩
          · exact absurd (hlt.trans hlt') (hfirst ▸ lt_irrefl _)
          · exact absurd hlt (by rw [hfirst, heq']; exact lt_irrefl _)
        · exact heq

/-- The waiting orders that a refund looks at. -/
theorem waiting_of_perm_scanKey (h : trains.Consistent) {r : Order}
    {ps : List PendingOrder}
    (hperm : ps.Perm (trains.pendingOrderDatabase.scanKey r.pendingKey
      (stringIntIntComparator 1))) : trains.Waiting r ps := by
  have hmem : ∀ p ∈ ps, _ := fun p hp =>
    (mem_scanKey_pending_iff h).mp (hperm.mem_iff.mp hp)
  refine ⟨fun p hp => (hmem p hp).1, fun p hp => (hmem p hp).2.1, ?_⟩
  rw [(hperm.map PendingOrder.key).nodup_iff]
  refine List.pairwise_map.mpr ((Index.scanKey_pairwise ?_ _ _).imp ne_of_lt)
  intro k p hp
  obtain ⟨o, -, -, rfl, rfl⟩ := (h.pending_iff k p).mp hp
  rfl

/-- An order that does not wait is not on the waiting list. -/
theorem Consistent.find?_pendingKey_eq_none (h : trains.Consistent)
    {o : Order} (ho : trains.orderDatabase.map.find? o.key = some o)
    (hstatus : o.status ≠ .pending) :
    trains.pendingOrderDatabase.map.find? o.pendingKey = none := by
  by_contra hsome
  obtain ⟨p, hp⟩ := Option.ne_none_iff_exists'.mp hsome
  obtain ⟨o', ho', hstatus', hkey, -⟩ := (h.pending_iff _ _).mp hp
  have hsame := h.order_inj _ _ _ _ ho' ho (StringIntInt.mk.inj hkey).2.2
  rw [hsame] at ho'
  obtain rfl := Option.some.inj (ho.symm.trans ho')
  exact hstatus hstatus'

/-- The promotion loop starts from the state in which the order is refunded
and its seats are free again. -/
def refundStart (trains : TrainManagement) (order : Order)
    (daytrain : DayTrain) : Promotion where
  tpDaytrain := daytrain.modifySeat order.fromIndex (order.toIndex - 1)
    order.num
  orderDatabase := trains.orderDatabase.insertEntry order.key
    { order with status := .refunded }
  pendingOrderDatabase := trains.pendingOrderDatabase

theorem consistent_commit_refundStart (h : trains.Consistent) {o : Order}
    {d : DayTrain} (ho : trains.orderDatabase.map.find? o.key = some o)
    (hd : trains.daytrainDatabase.map.find? o.dayKey = some d)
    (hstatus : o.status = .success) :
    (trains.commit o (trains.refundStart o d)).Consistent := by
  obtain ⟨train, hreleased, hvalid⟩ := h.order_valid _ o ho
  refine h.set_status (o := o) .refunded
    (d.modifySeat o.fromIndex (o.toIndex - 1) o.num) ho hd rfl rfl rfl rfl
    ?_ ?_ ?_ ?_ ?_
  · exact SortedMap.find?_insert_self _ _ _
  · exact fun key hne => SortedMap.find?_insert_of_ne _ _ hne
  · rw [if_neg (by decide)]
    exact h.find?_pendingKey_eq_none ho (by rw [hstatus]; decide)
  · exact fun key _ => rfl
  · intro j hj
    have hrefunded : { o with status := .refunded }.seatsAt o.trainId
        o.startDay j = 0 :=
      Order.seatsAt_of_ne_success (fun hc => by cases hc) _ _ _
    rw [Order.seatsAt_self hstatus, hrefunded,
      DayTrain.modifySeat_pred _ hvalid.lt]
    have hpos := hvalid.num_pos
    by_cases hin : o.fromIndex ≤ j ∧ j < o.toIndex
    · simp only [if_pos hin]
      exact ⟨by ring, fun _ => by omega⟩
    · simp only [if_neg hin]
      exact ⟨by ring, fun _ => by omega⟩

/-- A waiting order is taken off the waiting list. -/
theorem consistent_cancel (h : trains.Consistent) {o : Order}
    (ho : trains.orderDatabase.map.find? o.key = some o)
    (hstatus : o.status = .pending) :
    ({ trains with
        orderDatabase := trains.orderDatabase.insertEntry o.key
          { o with status := .refunded }
        pendingOrderDatabase :=
          trains.pendingOrderDatabase.deleteEntry o.pendingKey } :
      TrainManagement).Consistent := by
  obtain ⟨d, hd⟩ := h.exists_daytrain ho
  refine h.set_status (o := o) .refunded d ho hd rfl rfl rfl rfl hd
    (fun key _ => rfl) ?_ ?_ ?_
  · rw [if_neg (by decide)]
    exact (SortedMap.find?_erase _ _ _).trans (if_pos rfl)
  · exact fun key hne => (SortedMap.find?_erase _ _ _).trans (if_neg hne)
  · intro j _
    have hrefunded : { o with status := .refunded }.seatsAt o.trainId
        o.startDay j = 0 :=
      Order.seatsAt_of_ne_success (fun hc => by cases hc) _ _ _
    rw [Order.seatsAt_of_ne_success (by rw [hstatus]; decide), hrefunded]
    exact ⟨by ring, id⟩

/-- What a refund does once the order is known: a waiting order is taken off
the list; a granted one frees its seats and the promotion loop runs. -/
theorem refundOrder_cases {o : Order} {reply : TrainReply}
    (h : trains.refundOrder o.userName o = some (reply, trains')) :
    reply = .success ∧
    ((o.status = .pending ∧ trains' =
        { trains with
          orderDatabase := trains.orderDatabase.insertEntry o.key
            { o with status := .refunded }
          pendingOrderDatabase :=
            trains.pendingOrderDatabase.deleteEntry o.pendingKey }) ∨
      o.status ≠ .pending ∧
        ∃ d ps st, trains.daytrainDatabase.map.find? o.dayKey = some d ∧
          ps.Perm (trains.pendingOrderDatabase.scanKey o.pendingKey
            (stringIntIntComparator 1)) ∧
          ps.Pairwise (fun p q => pendingOrderCmp q p = false) ∧
          promoteOrders o ps (trains.refundStart o d) = some st ∧
          trains' = trains.commit o st) := by
  unfold refundOrder at h
  by_cases hstatus : o.status = .pending
  · rw [if_pos hstatus] at h
    cases h
    exact ⟨rfl, Or.inl ⟨hstatus, rfl⟩⟩
  · rw [if_neg hstatus] at h
    cases hd : trains.daytrainDatabase.map.find? o.dayKey with
    | none =>
        rw [Index.searchKey_of_find? hd] at h
        cases h
    | some d =>
        simp only [Index.searchKey_of_find? hd, Option.toList_some,
          Option.bind_eq_bind, Option.bind_eq_some_iff, Option.some.injEq,
          Prod.mk.injEq] at h
        obtain ⟨ps, hsort, st, hrun, rfl, rfl⟩ := h
        obtain ⟨hperm, hsorted⟩ :=
          sort_eq_some pendingOrderCmp_strictWeakOrder hsort
        exact ⟨rfl, Or.inr ⟨hstatus, d, ps, st, rfl, hperm, hsorted, hrun,
          rfl⟩⟩

theorem consistent_refundOrder (h : trains.Consistent) {o : Order}
    (ho : trains.orderDatabase.map.find? o.key = some o)
    (hstatus : o.status ≠ .refunded) {reply : TrainReply}
    (hstep : trains.refundOrder o.userName o = some (reply, trains')) :
    trains'.Consistent := by
  rcases (refundOrder_cases hstep).2 with
    ⟨hpending, rfl⟩ | ⟨hnot, d, ps, st, hd, hperm, -, hrun, rfl⟩
  · exact consistent_cancel h ho hpending
  · have hsuccess : o.status = .success := by
      cases hs : o.status with
      | success => rfl
      | pending => exact absurd hs hnot
      | refunded => exact absurd hs hstatus
    have hstart := consistent_commit_refundStart h ho hd hsuccess
    have hwait := waiting_of_perm_scanKey h hperm
    exact consistent_promoteOrders hstart
      ⟨hwait.find?, hwait.sameDay, hwait.nodup⟩ hrun

/-- The orders that a user sees are stored under the user's name. -/
theorem find?_of_mem_userOrders
    (h : ∀ key order, trains.orderDatabase.map.find? key = some order →
      order.key = key) {userName : String}
    {orders : List Order} (horders : trains.userOrders userName = some orders)
    {o : Order} (ho : o ∈ orders) :
    o.userName = userName ∧
      trains.orderDatabase.map.find? o.key = some o := by
  obtain ⟨hperm, -⟩ := sort_eq_some orderCmp_strictWeakOrder horders
  have hscan := hperm.mem_iff.mp ho
  rw [Index.scanKey, List.mem_map] at hscan
  obtain ⟨⟨k, o'⟩, hmem, rfl⟩ := hscan
  have hzero := (List.mem_takeWhile_imp hmem)
  have hfind := SortedMap.find?_eq_some_iff.mpr
    ((SortedMap.scan_sublist _ _ _).subset hmem)
  have hname := (stringAnyComparator_one_eq_zero_iff _ _).mp
    (of_decide_eq_true hzero)
  have hkey := h _ _ hfind
  refine ⟨?_, ?_⟩
  · rw [show userName = k.dataStr from hname, ← hkey]
    rfl
  · rw [hkey]
    exact hfind

theorem refundTicketWith_cases
    (h : ∀ key order, trains.orderDatabase.map.find? key = some order →
      order.key = key)
    {accounts : AccountManagement} {args : RefundArgs} {reply : TrainReply}
    (hstep : trains.refundTicketWith accounts args =
      some (reply, trains')) :
    trains' = trains ∨
      ∃ orders o, (accounts.loginPool.find? args.userName).isSome ∧
        trains.userOrders args.userName = some orders ∧
        atIndex orders (args.x - 1) = some o ∧
        o.userName = args.userName ∧
        trains.orderDatabase.map.find? o.key = some o ∧
        o.status ≠ .refunded ∧
        trains.refundOrder o.userName o = some (reply, trains') := by
  unfold refundTicketWith at hstep
  by_cases hlogin : (accounts.loginPool.find? args.userName).isNone
  · rw [if_pos hlogin] at hstep
    cases hstep
    exact Or.inl rfl
  rw [if_neg hlogin] at hstep
  obtain ⟨orders, horders, hstep⟩ := Option.bind_eq_some_iff.mp hstep
  by_cases hnil : orders = []
  · rw [if_pos hnil] at hstep
    cases hstep
    exact Or.inl rfl
  rw [if_neg hnil] at hstep
  by_cases hlen : (orders.length : ℤ) < args.x
  · rw [if_pos hlen] at hstep
    cases hstep
    exact Or.inl rfl
  rw [if_neg hlen] at hstep
  obtain ⟨o, ho, hstep⟩ := Option.bind_eq_some_iff.mp hstep
  by_cases hstatus : o.status = .refunded
  · rw [if_pos hstatus] at hstep
    cases hstep
    exact Or.inl rfl
  rw [if_neg hstatus] at hstep
  have hmem : o ∈ orders :=
    List.mem_of_getElem? (atIndex_eq_some_iff.mp ho).2
  obtain ⟨hname, hfind⟩ := find?_of_mem_userOrders h horders hmem
  refine Or.inr ⟨orders, o, ?_, horders, ho, hname, hfind, hstatus, ?_⟩
  · rwa [← Option.not_isNone, Bool.not_eq_true', Bool.eq_false_iff]
  · rw [hname]
    exact hstep

/-- A refund that names an order that is not refunded yet goes through. -/
theorem refundTicketWith_of_atIndex {accounts : AccountManagement}
    {args : RefundArgs}
    (hlogin : (accounts.loginPool.find? args.userName).isSome)
    {orders : List Order}
    (horders : trains.userOrders args.userName = some orders) {o : Order}
    (ho : atIndex orders (args.x - 1) = some o)
    (hstatus : o.status ≠ .refunded) :
    trains.refundTicketWith accounts args =
      trains.refundOrder args.userName o := by
  have hlen := atIndex_lt_length ho
  have hnil : orders ≠ [] := by
    rintro rfl
    simp only [List.length_nil] at hlen
    omega
  have hlogged : ¬ (accounts.loginPool.find? args.userName).isNone := by
    rw [← Option.not_isSome, hlogin]
    decide
  rw [refundTicketWith, if_neg hlogged, horders]
  simp only [Option.bind_eq_bind, Option.bind_some]
  rw [if_neg hnil, if_neg (by omega), ho, Option.bind_some, if_neg hstatus]

/-- A refund numbers no order and leaves the trains alone. -/
theorem refundTicketWith_frame {accounts : AccountManagement}
    {args : RefundArgs} {reply : TrainReply}
    (h : trains.refundTicketWith accounts args = some (reply, trains')) :
    trains'.orderNum = trains.orderNum ∧
      trains'.trainDatabase = trains.trainDatabase := by
  unfold refundTicketWith at h
  split_ifs at h
  · cases h
    exact ⟨rfl, rfl⟩
  obtain ⟨orders, -, h⟩ := Option.bind_eq_some_iff.mp h
  split_ifs at h
  · cases h
    exact ⟨rfl, rfl⟩
  · cases h
    exact ⟨rfl, rfl⟩
  obtain ⟨order, -, h⟩ := Option.bind_eq_some_iff.mp h
  split_ifs at h
  · cases h
    exact ⟨rfl, rfl⟩
  unfold refundOrder at h
  dsimp only at h
  split_ifs at h
  · cases h
    exact ⟨rfl, rfl⟩
  cases hdays : trains.daytrainDatabase.searchKey order.dayKey with
  | nil =>
      rw [hdays] at h
      cases h
  | cons daytrain _ =>
      rw [hdays] at h
      obtain ⟨ps, -, h⟩ := Option.bind_eq_some_iff.mp h
      obtain ⟨st, -, h⟩ := Option.bind_eq_some_iff.mp h
      cases h
      exact ⟨rfl, rfl⟩

theorem consistent_refundTicketWith (h : trains.Consistent)
    {accounts : AccountManagement} {args : RefundArgs} {reply : TrainReply}
    (hstep : trains.refundTicketWith accounts args =
      some (reply, trains')) : trains'.Consistent := by
  rcases refundTicketWith_cases h.order_key hstep with
    rfl | ⟨-, o, -, -, -, -, hfind, hstatus, hrefund⟩
  · exact h
  · exact consistent_refundOrder h hfind hstatus hrefund

end TrainManagement

end TicketSystem.Backend
