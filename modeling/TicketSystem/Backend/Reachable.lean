import TicketSystem.Backend.OrderSteps
import TicketSystem.Backend.TrainSteps

/-!
# Reachable states of the ticket system

Every well-formed command keeps the train databases consistent, so they agree
in every reachable state, and seats are neither oversold nor lost.
-/

namespace TicketSystem.Backend

open TicketSystem.Support
open TicketSystem.Database

/-! ## Every step and every run -/

namespace TrainManagement

/-- Databases without trains and orders are consistent. -/
theorem consistent_of_empty {trains : TrainManagement}
    (htrains : trains.trainDatabase.map = SortedMap.empty)
    (hstations : trains.stationDatabase.map = SortedMap.empty)
    (hdaytrains : trains.daytrainDatabase.map = SortedMap.empty)
    (horders : trains.orderDatabase.map = SortedMap.empty)
    (hpendings : trains.pendingOrderDatabase.map = SortedMap.empty)
    (hnum : trains.orderNum = trains.orderDatabase.size) :
    trains.Consistent := by
  have hrel : ∀ trainId train, ¬ trains.Released trainId train := by
    rintro trainId train ⟨hfind, -⟩
    simp [htrains] at hfind
  constructor
  case train_sound =>
    intro trainId train hfind
    simp [htrains] at hfind
  case station_iff =>
    intro name trainId station
    simp [hstations, hrel]
  case daytrain_iff =>
    intro trainId day
    simp [hdaytrains, hrel]
  case order_key =>
    intro key order hfind
    simp [horders] at hfind
  case order_valid =>
    intro key order hfind
    simp [horders] at hfind
  case order_le =>
    intro key order hfind
    simp [horders] at hfind
  case order_inj =>
    intro key₁ order₁ key₂ order₂ hfind
    simp [horders] at hfind
  case orderNum_eq => exact hnum
  case pending_iff =>
    intro key p
    simp [hpendings, horders]
  case seats =>
    intro trainId train day d hreleased
    exact absurd hreleased (hrel trainId train)

/-- Opening the databases again numbers orders as before. -/
theorem Consistent.reopen {trains : TrainManagement}
    (h : trains.Consistent) :
    ({ trains with orderNum := trains.orderDatabase.size } :
      TrainManagement).Consistent := by
  rw [← h.orderNum_eq]
  exact h

end TrainManagement

theorem System.consistent_step {system system' : System}
    {request : Request} {reply : Reply} (h : system.trains.Consistent)
    (hwf : request.WellFormed)
    (hstep : system.step request = some (reply, system')) :
    system'.trains.Consistent := by
  obtain ⟨name, line, uninit⟩ := request
  cases name
  case addTrain =>
    obtain ⟨⟨r, trains'⟩, hadd, heq⟩ := Option.map_eq_some_iff.mp hstep
    cases heq
    exact TrainManagement.consistent_addTrainWith h hwf hadd
  case releaseTrain =>
    cases hstep
    exact TrainManagement.consistent_releaseTrain h line
  case deleteTrain =>
    cases hstep
    exact TrainManagement.consistent_deleteTrain h line
  case buyTicket =>
    obtain ⟨⟨r, trains'⟩, hbuy, heq⟩ := Option.map_eq_some_iff.mp hstep
    cases heq
    exact TrainManagement.consistent_buyTicketWith h hwf hbuy
  case refundTicket =>
    obtain ⟨⟨r, trains'⟩, hrefund, heq⟩ := Option.map_eq_some_iff.mp hstep
    cases heq
    exact TrainManagement.consistent_refundTicketWith h hrefund
  case clean =>
    cases hstep
    exact TrainManagement.consistent_of_empty rfl rfl rfl rfl rfl
      h.orderNum_eq
  case exit =>
    cases hstep
    exact h.reopen
  -- the other commands leave the trains alone
  all_goals
    simp only [System.step, Option.map_eq_some_iff, Option.some.injEq,
      Prod.mk.injEq, System.withAccounts] at hstep
    obtain ⟨_, _, _, rfl⟩ := hstep
    exact h

theorem System.consistent_start (sizes : Fin 6 → ℤ) :
    (System.start (Databases.new sizes)).trains.Consistent :=
  TrainManagement.consistent_of_empty rfl rfl rfl rfl rfl rfl

theorem System.Reachable.consistent {s : System} (h : s.Reachable) :
    s.trains.Consistent := by
  obtain ⟨sizes, hreach⟩ := h
  refine hreach.invariant (fun s => s.trains.Consistent)
    (System.consistent_start sizes) ?_
  intro s request reply s' hinv hwf hstep
  exact System.consistent_step hinv hwf hstep

/-- Somebody buys six of the ten seats of a train and waits for six more. -/
def waitingRun : List Request :=
  [⟨.addUser, ["-u", "root", "-p", "a"], 0⟩,
    ⟨.login, ["-u", "root", "-p", "a"], 0⟩,
    ⟨.addTrain, ["-i", "T", "-n", "3", "-m", "10", "-s", "A|B|C", "-p", "1|2",
      "-x", "10:00", "-t", "60|60", "-o", "5", "-d", "06-01|06-02",
      "-y", "G"], 0⟩,
    ⟨.releaseTrain, ["-i", "T"], 0⟩,
    ⟨.buyTicket, ["-u", "root", "-i", "T", "-d", "06-01", "-n", "6",
      "-f", "A", "-t", "C"], 0⟩,
    ⟨.buyTicket, ["-u", "root", "-i", "T", "-d", "06-01", "-n", "6",
      "-f", "B", "-t", "C", "-q", "true"], 0⟩]

/-! ## What reachable databases agree on -/

/-- The five databases describe the same trains and orders. -/
structure TrainManagement.DatabasesAgree (trains : TrainManagement) :
    Prop where
  /-- The waiting list holds exactly the pending orders, with their data. -/
  pending_iff : ∀ trainId day orderId p,
    trains.pendingOrderDatabase.map.find? ⟨trainId, day, orderId⟩ = some p ↔
      ∃ key order, trains.orderDatabase.map.find? key = some order ∧
        order.orderId = orderId ∧ order.trainId = trainId ∧
        order.startDay = day ∧ order.status = .pending ∧
        p = order.toPending
  /-- An order is for a released train that runs on its day. -/
  order_valid : ∀ key order,
    trains.orderDatabase.map.find? key = some order →
      ∃ train, trains.Released order.trainId train ∧
        1 ≤ order.fromIndex ∧ order.fromIndex < order.toIndex ∧
        order.toIndex ≤ train.stationNum ∧
        train.startSaleDate ≤ order.startDay ∧
        order.startDay ≤ train.endSaleDate
  /-- The stations stored for a train are those of its route. -/
  station_iff : ∀ name trainId station,
    trains.stationDatabase.map.find? ⟨name, trainId⟩ = some station ↔
      ∃ train i, trains.Released trainId train ∧ 1 ≤ i ∧
        i ≤ train.stationNum ∧ train.stations i = name ∧
        station =
          { trainId := trainId, stationName := name,
            startSaleTime := train.startSaleDate,
            endSaleTime := train.endSaleDate,
            arrivingTime := train.arrivingTimes i,
            leavingTime := train.leavingTimes i,
            priceSum := train.priceSum i, index := i }
  /-- Different stations of a route have different entries. -/
  station_inj : ∀ trainId train i j, trains.Released trainId train →
    1 ≤ i → i ≤ train.stationNum → 1 ≤ j → j ≤ train.stationNum →
      train.stations i = train.stations j → i = j
  /-- Seats are kept for the days of the sale window. -/
  daytrain_iff : ∀ trainId day,
    (trains.daytrainDatabase.map.find? ⟨trainId, day⟩).isSome ↔
      ∃ train, trains.Released trainId train ∧
        train.startSaleDate ≤ day ∧ day ≤ train.endSaleDate ∧
        1440 ∣ day - train.startSaleDate

/-- In every reachable state the databases agree. -/
theorem System.Reachable.databasesAgree {s : System} (hs : s.Reachable) :
    s.trains.DatabasesAgree := by
  have h := hs.consistent
  constructor
  case pending_iff =>
    intro trainId day orderId p
    rw [h.pending_iff]
    constructor
    · rintro ⟨order, ho, hstatus, hkey, rfl⟩
      obtain ⟨htrain, hday, hid⟩ := StringIntInt.mk.inj hkey
      exact ⟨order.key, order, ho, hid, htrain, hday, hstatus, rfl⟩
    · rintro ⟨key, order, ho, rfl, rfl, rfl, hstatus, rfl⟩
      exact ⟨order, h.find?_key ho, hstatus, rfl, rfl⟩
  case order_valid =>
    intro key order ho
    obtain ⟨train, hrel, hvalid⟩ := h.order_valid key order ho
    obtain ⟨hle, hge, -⟩ := mem_saleDays.mp hvalid.startDay_mem
    exact ⟨train, hrel, hvalid.one_le, hvalid.lt, hvalid.le_stationNum, hle,
      hge⟩
  case station_iff =>
    intro name trainId station
    rw [h.station_iff]
    constructor
    · rintro ⟨train, i, hrel, hi, hin, rfl, rfl⟩
      exact ⟨train, i, hrel, hi, hin, rfl, rfl⟩
    · rintro ⟨train, i, hrel, hi, hin, rfl, rfl⟩
      exact ⟨train, i, hrel, hi, hin, rfl, rfl⟩
  case station_inj =>
    intro trainId train i j hrel hi hin hj hjn heq
    exact (h.train_sound trainId train hrel.1).stations_inj i j hi hin hj hjn
      heq
  case daytrain_iff =>
    intro trainId day
    rw [h.daytrain_iff]
    simp only [mem_saleDays]

/-- After `waitingRun` an order waits and the databases agree. -/
theorem System.databasesAgree_waitingRun :
    ∃ s : System, (s.trains.pendingOrderDatabase.map.find?
        ⟨"T", 0, 2⟩).isSome ∧ s.trains.DatabasesAgree := by
  have hrun : ((runSteps System.step
      (System.start (Databases.new fun _ => 0)) waitingRun).map fun s =>
        (s.trains.pendingOrderDatabase.map.find? ⟨"T", 0, 2⟩).isSome) =
          some true := by
    decide +kernel
  obtain ⟨s, hs, hpending⟩ := Option.map_eq_some_iff.mp hrun
  have hok : StepsOk System.step (fun _ request => request.WellFormed)
      (System.start (Databases.new fun _ => 0)) waitingRun := by
    decide +kernel
  exact ⟨s, hpending,
    System.Reachable.databasesAgree (System.reachable_of_runSteps hok hs)⟩

/-! ## Seats -/

/-- Between two stations of a released train on a day of its sale window, the
seats that are free and the seats of the granted orders make up all seats. -/
theorem System.Reachable.seats_eq {s : System} (h : s.Reachable)
    {trainId : String} {train : Train} {day : TimeType} {j : ℕ}
    (hrel : s.trains.Released trainId train)
    (hday : day ∈ saleDays train.startSaleDate train.endSaleDate)
    (hj : 1 ≤ j) (hjn : j < train.stationNum) :
    ∃ d, s.trains.daytrainDatabase.map.find? ⟨trainId, day⟩ = some d ∧
      d.seatNum j = train.totalSeatNum - s.trains.booked trainId day j ∧
      0 ≤ d.seatNum j ∧ d.seatNum j ≤ train.totalSeatNum := by
  have hcons := h.consistent
  obtain ⟨d, hd⟩ := Option.isSome_iff_exists.mp
    ((hcons.daytrain_iff trainId day).mpr ⟨train, hrel, hday⟩)
  obtain ⟨hseat, hnonneg⟩ := hcons.seats trainId train day d hrel hd j hj hjn
  have hbooked := hcons.booked_nonneg trainId day j
  exact ⟨d, hd, hseat, hnonneg, by omega⟩

/-- After `waitingRun` the granted order takes six of ten seats. -/
theorem System.seats_eq_waitingRun :
    ∃ s : System, s.trains.booked "T" 0 2 = 6 ∧
      ∃ d, s.trains.daytrainDatabase.map.find? ⟨"T", 0⟩ = some d ∧
        d.seatNum 2 = 10 - s.trains.booked "T" 0 2 ∧
        0 ≤ d.seatNum 2 ∧ d.seatNum 2 ≤ 10 := by
  have hrun : ((runSteps System.step
      (System.start (Databases.new fun _ => 0)) waitingRun).map fun s =>
        (s.trains.booked "T" 0 2,
          (s.trains.trainDatabase.map.find? "T").map fun train =>
            decide (train.isReleased = true ∧ train.startSaleDate = 0 ∧
              train.endSaleDate = 1440 ∧ train.stationNum = 3 ∧
              train.totalSeatNum = 10))) = some (6, some true) := by
    decide +kernel
  obtain ⟨s, hs, hfacts⟩ := Option.map_eq_some_iff.mp hrun
  obtain ⟨hbooked, htrain⟩ := Prod.mk.inj hfacts
  obtain ⟨train, hfind, hfields⟩ := Option.map_eq_some_iff.mp htrain
  obtain ⟨hreleased, hstart, hend, hnum, htotal⟩ :=
    of_decide_eq_true hfields
  have hok : StepsOk System.step (fun _ request => request.WellFormed)
      (System.start (Databases.new fun _ => 0)) waitingRun := by
    decide +kernel
  refine ⟨s, hbooked, ?_⟩
  rw [← htotal]
  exact System.Reachable.seats_eq (System.reachable_of_runSteps hok hs)
    ⟨hfind, hreleased⟩ (by rw [hstart, hend]; decide) (by decide)
    (by rw [hnum]; decide)

end TicketSystem.Backend
