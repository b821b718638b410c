import TicketSystem.Backend.Main

/-!
# What the five train databases agree on

The invariant of the ticket system: orders, waiting list, stations, days and
seats all describe the released trains.  Handlers reach it through two kinds of
steps: a train enters, leaves or is released, and an order is set together with
its seats and its place in the waiting list.
-/

namespace TicketSystem.Backend

open TicketSystem.Support
open TicketSystem.Database

/-! ## The invariant -/

/-- What `add_train` promises about a train. -/
structure Train.Sound (train : Train) (trainId : String) : Prop where
  trainId_eq : train.trainId = trainId
  two_le : 2 ≤ train.stationNum
  totalSeatNum_pos : 0 < train.totalSeatNum
  dvd_startSaleDate : 1440 ∣ train.startSaleDate
  stations_inj : ∀ i j, 1 ≤ i → i ≤ train.stationNum → 1 ≤ j →
    j ≤ train.stationNum → train.stations i = train.stations j → i = j

/-- The order asks for seats that the train has, on a day it runs. -/
structure Order.Valid (order : Order) (train : Train) : Prop where
  one_le : 1 ≤ order.fromIndex
  lt : order.fromIndex < order.toIndex
  le_stationNum : order.toIndex ≤ train.stationNum
  startDay_mem :
    order.startDay ∈ saleDays train.startSaleDate train.endSaleDate
  num_pos : 0 < order.num

/-- The seats that an order takes of a train on a day between station `j` and
the next. -/
def Order.seatsAt (order : Order) (trainId : String) (day : TimeType)
    (j : ℕ) : ℤ :=
  if order.status = .success ∧ order.trainId = trainId ∧
      order.startDay = day ∧ order.fromIndex ≤ j ∧ j < order.toIndex then
    order.num
  else 0

namespace TrainManagement

/-- A released train. -/
def Released (trains : TrainManagement) (trainId : String)
    (train : Train) : Prop :=
  trains.trainDatabase.map.find? trainId = some train ∧
    train.isReleased = true

/-- The seats that all granted orders take together. -/
def booked (trains : TrainManagement) (trainId : String) (day : TimeType)
    (j : ℕ) : ℤ :=
  trains.orderDatabase.map.sumValues fun order =>
    order.seatsAt trainId day j

structure Consistent (trains : TrainManagement) : Prop where
  train_sound : ∀ trainId train,
    trains.trainDatabase.map.find? trainId = some train →
      train.Sound trainId
  station_iff : ∀ name trainId station,
    trains.stationDatabase.map.find? ⟨name, trainId⟩ = some station ↔
      ∃ train i, trains.Released trainId train ∧ 1 ≤ i ∧
        i ≤ train.stationNum ∧ train.stations i = name ∧
        train.station trainId i = station
  daytrain_iff : ∀ trainId day,
    (trains.daytrainDatabase.map.find? ⟨trainId, day⟩).isSome ↔
      ∃ train, trains.Released trainId train ∧
        day ∈ saleDays train.startSaleDate train.endSaleDate
  order_key : ∀ key order,
    trains.orderDatabase.map.find? key = some order → order.key = key
  order_valid : ∀ key order,
    trains.orderDatabase.map.find? key = some order →
      ∃ train, trains.Released order.trainId train ∧ order.Valid train
  order_le : ∀ key order,
    trains.orderDatabase.map.find? key = some order →
      order.orderId ≤ trains.orderNum
  order_inj : ∀ key₁ order₁ key₂ order₂,
    trains.orderDatabase.map.find? key₁ = some order₁ →
      trains.orderDatabase.map.find? key₂ = some order₂ →
        order₁.orderId = order₂.orderId → key₁ = key₂
  orderNum_eq : trains.orderNum = trains.orderDatabase.size
  pending_iff : ∀ key p,
    trains.pendingOrderDatabase.map.find? key = some p ↔
      ∃ order, trains.orderDatabase.map.find? order.key = some order ∧
        order.status = .pending ∧ order.pendingKey = key ∧
        order.toPending = p
  seats : ∀ trainId train day d, trains.Released trainId train →
    trains.daytrainDatabase.map.find? ⟨trainId, day⟩ = some d →
      ∀ j, 1 ≤ j → j < train.stationNum →
        d.seatNum j = train.totalSeatNum - trains.booked trainId day j ∧
          0 ≤ d.seatNum j

/-- A train is released in one way. -/
theorem Released.unique {trains : TrainManagement} {trainId : String}
    {train train' : Train} (h : trains.Released trainId train)
    (h' : trains.Released trainId train') : train = train' :=
  Option.some.inj (h.1.symm.trans h'.1)

namespace Consistent

variable {trains trains' : TrainManagement}

/-- An order is stored under its own key. -/
theorem find?_key (h : trains.Consistent) {key : StringAny} {order : Order}
    (horder : trains.orderDatabase.map.find? key = some order) :
    trains.orderDatabase.map.find? order.key = some order := by
  rw [h.order_key key order horder]
  exact horder

/-- The day of an order has seats. -/
theorem exists_daytrain (h : trains.Consistent) {key : StringAny}
    {order : Order}
    (horder : trains.orderDatabase.map.find? key = some order) :
    ∃ d, trains.daytrainDatabase.map.find? order.dayKey = some d := by
  obtain ⟨train, hrel, hvalid⟩ := h.order_valid key order horder
  exact Option.isSome_iff_exists.mp
    ((h.daytrain_iff _ _).mpr ⟨train, hrel, hvalid.startDay_mem⟩)

theorem booked_nonneg (h : trains.Consistent) (trainId : String)
    (day : TimeType) (j : ℕ) : 0 ≤ trains.booked trainId day j := by
  refine SortedMap.sumValues_nonneg fun key order horder => ?_
  obtain ⟨train, -, hvalid⟩ := h.order_valid key order horder
  unfold Order.seatsAt
  split
  next => exact hvalid.num_pos.le
  next => exact le_refl 0

/-- Nobody has ordered seats of a train that is not released. -/
theorem booked_eq_zero (h : trains.Consistent) {trainId : String}
    (hnot : ∀ train, ¬ trains.Released trainId train) (day : TimeType)
    (j : ℕ) : trains.booked trainId day j = 0 := by
  refine SortedMap.sumValues_eq_zero fun key order horder => ?_
  obtain ⟨train, hrel, -⟩ := h.order_valid key order horder
  unfold Order.seatsAt
  rw [if_neg]
  rintro ⟨-, rfl, -⟩
  exact hnot train hrel

/-! ## Trains come and go -/

/-- The invariant only sees the released trains among the trains. -/
theorem of_released_iff (h : trains.Consistent)
    (hsound : ∀ trainId train,
      trains'.trainDatabase.map.find? trainId = some train →
        train.Sound trainId)
    (hreleased : ∀ trainId train, trains'.Released trainId train ↔
      trains.Released trainId train)
    (hrest : trains' =
      { trains with trainDatabase := trains'.trainDatabase }) :
    trains'.Consistent := by
  rw [hrest] at hreleased ⊢
  rw [hrest] at hsound
  exact
    { train_sound := hsound
      station_iff := by
        simpa only [hreleased] using h.station_iff
      daytrain_iff := by
        simpa only [hreleased] using h.daytrain_iff
      order_key := h.order_key
      order_valid := by
        simpa only [hreleased] using h.order_valid
      order_le := h.order_le
      order_inj := h.order_inj
      orderNum_eq := h.orderNum_eq
      pending_iff := h.pending_iff
      seats := fun trainId train day d hrel =>
        h.seats trainId train day d ((hreleased trainId train).mp hrel) }

/-! ## One order is set -/

/-- The invariant survives that an order is added or rewritten, if its seats
and its place in the waiting list follow. -/
theorem set_order (h : trains.Consistent) (order : Order)
    (d' : DayTrain) {d : DayTrain} {train : Train}
    (htrains : trains'.trainDatabase = trains.trainDatabase)
    (hstations : trains'.stationDatabase = trains.stationDatabase)
    (horders : trains'.orderDatabase =
      trains.orderDatabase.insertEntry order.key order)
    (hdaytrain : trains'.daytrainDatabase.map.find? order.dayKey = some d')
    (hdaytrains : ∀ key, key ≠ order.dayKey →
      trains'.daytrainDatabase.map.find? key =
        trains.daytrainDatabase.map.find? key)
    (hpending : trains'.pendingOrderDatabase.map.find? order.pendingKey =
      if order.status = .pending then some order.toPending else none)
    (hpendings : ∀ key, key ≠ order.pendingKey →
      trains'.pendingOrderDatabase.map.find? key =
        trains.pendingOrderDatabase.map.find? key)
    (hnum : trains'.orderNum = trains'.orderDatabase.size)
    (hle : trains.orderNum ≤ trains'.orderNum)
    (hid : order.orderId ≤ trains'.orderNum)
    (hreleased : trains.Released order.trainId train)
    (hvalid : order.Valid train)
    (hfresh : ∀ key o, trains.orderDatabase.map.find? key = some o →
      o.orderId = order.orderId → key = order.key ∧
        o.pendingKey = order.pendingKey)
    (hd : trains.daytrainDatabase.map.find? order.dayKey = some d)
    (hseats : ∀ j, 1 ≤ j → j < train.stationNum →
      d'.seatNum j = d.seatNum j +
        (trains.orderDatabase.map.find? order.key).elim 0
          (fun o => o.seatsAt order.trainId order.startDay j) -
        order.seatsAt order.trainId order.startDay j ∧
      0 ≤ d'.seatNum j) :
    trains'.Consistent := by
  have hrel : ∀ trainId train, trains'.Released trainId train ↔
      trains.Released trainId train := by
    intro trainId train
    rw [Released, htrains, Released]
  have hfind : ∀ key, trains'.orderDatabase.map.find? key =
      if key = order.key then some order
      else trains.orderDatabase.map.find? key := by
    intro key
    rw [horders, Index.map_insertEntry]
    by_cases hkey : key = order.key
    · rw [hkey, SortedMap.find?_insert_self, if_pos rfl]
    · rw [SortedMap.find?_insert_of_ne _ _ hkey, if_neg hkey]
  have hcases : ∀ key o, trains'.orderDatabase.map.find? key = some o →
      key = order.key ∧ o = order ∨ key ≠ order.key ∧
        trains.orderDatabase.map.find? key = some o := by
    intro key o ho
    rw [hfind] at ho
    by_cases hkey : key = order.key
    · rw [if_pos hkey] at ho
      exact Or.inl ⟨hkey, (Option.some.inj ho).symm⟩
    · rw [if_neg hkey] at ho
      exact Or.inr ⟨hkey, ho⟩
  -- an order keeps its train and day when it is rewritten
  have hsame : ∀ o, trains.orderDatabase.map.find? order.key = some o →
      o.pendingKey = order.pendingKey := by
    intro o ho
    have hkey := h.order_key _ _ ho
    exact (hfresh _ o ho (StringAny.mk.inj hkey).2).2
  have hbooked : ∀ trainId day j, trains'.booked trainId day j =
      trains.booked trainId day j -
        (trains.orderDatabase.map.find? order.key).elim 0
          (fun o => o.seatsAt trainId day j) +
        order.seatsAt trainId day j := by
    intro trainId day j
    rw [booked, horders, Index.map_insertEntry, SortedMap.sumValues_insert,
      booked]
  constructor
  case train_sound =>
    rw [htrains]
    exact h.train_sound
  case station_iff =>
    simpa only [hrel, hstations] using h.station_iff
  case daytrain_iff =>
    intro trainId day
    simp only [hrel]
    rw [← h.daytrain_iff]
    by_cases hkey : (⟨trainId, day⟩ : StringAny) = order.dayKey
    · rw [hkey, hdaytrain, hd]
      simp
    · rw [hdaytrains _ hkey]
  case order_key =>
    intro key o ho
    rcases hcases key o ho with ⟨hkey, rfl⟩ | ⟨-, hold⟩
    · exact hkey.symm
    · exact h.order_key key o hold
  case order_valid =>
    intro key o ho
    simp only [hrel]
    rcases hcases key o ho with ⟨-, rfl⟩ | ⟨-, hold⟩
    · exact ⟨train, hreleased, hvalid⟩
    · exact h.order_valid key o hold
  case order_le =>
    intro key o ho
    rcases hcases key o ho with ⟨-, rfl⟩ | ⟨-, hold⟩
    · exact hid
    · exact (h.order_le key o hold).trans hle
  case order_inj =>
    intro key₁ o₁ key₂ o₂ ho₁ ho₂ heq
    rcases hcases key₁ o₁ ho₁ with ⟨hkey₁, rfl⟩ | ⟨-, hold₁⟩
    · rcases hcases key₂ o₂ ho₂ with ⟨hkey₂, -⟩ | ⟨-, hold₂⟩
      · rw [hkey₁, hkey₂]
      · rw [hkey₁, (hfresh key₂ o₂ hold₂ heq.symm).1]
    · rcases hcases key₂ o₂ ho₂ with ⟨hkey₂, rfl⟩ | ⟨-, hold₂⟩
      · rw [hkey₂, (hfresh key₁ o₁ hold₁ heq).1]
      · exact h.order_inj key₁ o₁ key₂ o₂ hold₁ hold₂ heq
  case orderNum_eq => exact hnum
  case pending_iff =>
    intro key p
    by_cases hkey : key = order.pendingKey
    · rw [hkey, hpending]
      constructor
      · intro hp
        by_cases hstatus : order.status = .pending
        · rw [if_pos hstatus] at hp
          refine ⟨order, ?_, hstatus, rfl, Option.some.inj hp⟩
          rw [hfind, if_pos rfl]
        · rw [if_neg hstatus] at hp
          cases hp
      · rintro ⟨o, ho, hstatus, hokey, rfl⟩
        rcases hcases _ o ho with ⟨-, rfl⟩ | ⟨hne, hold⟩
        · rw [if_pos hstatus]
        · -- the waiting list has one order under one number
          have hids := (StringIntInt.mk.inj hokey).2.2
          exact absurd (hfresh _ o hold hids).1 hne
    · rw [hpendings _ hkey, h.pending_iff]
      refine exists_congr fun o => and_congr_left fun hrest => ?_
      rw [hfind]
      by_cases hok : o.key = order.key
      · rw [if_pos hok, hok]
        constructor
        · intro hold
          exact absurd (hrest.2.1.symm.trans (hsame o hold)) hkey
        · intro hnew
          obtain rfl := Option.some.inj hnew
          exact absurd hrest.2.1.symm hkey
      · rw [if_neg hok]
  case seats =>
    intro trainId train' day d₀ hrel' hd₀ j hj hjn
    rw [hrel] at hrel'
    rw [hbooked]
    by_cases hkey : (⟨trainId, day⟩ : StringAny) = order.dayKey
    · obtain ⟨rfl, rfl⟩ := StringAny.mk.inj hkey
      obtain rfl := hreleased.unique hrel'
      rw [hkey, hdaytrain] at hd₀
      obtain rfl := Option.some.inj hd₀
      obtain ⟨hdj, -⟩ := h.seats _ _ _ d hrel' hd j hj hjn
      obtain ⟨hd'j, hnonneg⟩ := hseats j hj hjn
      exact ⟨by rw [hd'j, hdj]; ring, hnonneg⟩
    · rw [hdaytrains _ hkey] at hd₀
      have hzero : order.seatsAt trainId day j = 0 := by
        unfold Order.seatsAt
        rw [if_neg]
        rintro ⟨-, rfl, rfl, -⟩
        exact hkey rfl
      have hzero' : (trains.orderDatabase.map.find? order.key).elim 0
          (fun o => o.seatsAt trainId day j) = 0 := by
        cases hold : trains.orderDatabase.map.find? order.key with
        | none => rfl
        | some o =>
            obtain ⟨htid, hday, -⟩ := StringIntInt.mk.inj (hsame o hold)
            simp only [Option.elim_some]
            unfold Order.seatsAt
            rw [if_neg]
            rintro ⟨-, rfl, rfl, -⟩
            exact hkey (by rw [htid, hday, Order.dayKey])
      rw [hzero, hzero', sub_zero, add_zero]
      exact h.seats trainId train' day d₀ hrel' hd₀ j hj hjn

end Consistent

end TrainManagement

end TicketSystem.Backend
