import TicketSystem.Backend.TransferChoice

/-!
# The route of a train

The constructor of `Train` reads five lists.  For a well-formed `add_train` the
train has the listed stations in order, its prefix sums give the price of every
part of the route, and its times are those of the listed legs and stops.
-/

namespace TicketSystem.Backend

open TicketSystem.Support
open TicketSystem.Database

/-! ## The entries of the lists -/

namespace TrainArgs

/-- The price of the leg from station `k` to the next one. -/
def price (args : TrainArgs) (k : ℕ) : ℤ :=
  stringToInt (nthToken (split args.prices '|') (k - 1))

/-- The time from station `k` to the next one. -/
def travelTime (args : TrainArgs) (k : ℕ) : ℤ :=
  stringToInt (nthToken (split args.travelTimes '|') (k - 1))

/-- The time at station `k + 1`. -/
def stopOverTime (args : TrainArgs) (k : ℕ) : ℤ :=
  stringToInt (nthToken (split args.stopOverTimes '|') (k - 1))

end TrainArgs

/-- The train goes along the route that the arguments describe. -/
structure Train.FollowsRoute (train : Train) (args : TrainArgs) : Prop where
  stationNum_eq : (train.stationNum : ℤ) = args.stationNum
  station : ∀ i, 1 ≤ i → i ≤ train.stationNum →
    train.stations i = nthToken (split args.stations '|') (i - 1)
  price_one : train.priceSum 1 = 0
  price : ∀ i j, 1 ≤ i → i ≤ j → j ≤ train.stationNum →
    train.priceSum j - train.priceSum i = ∑ k ∈ Finset.Ico i j, args.price k
  leaving_one :
    TimeType.ofString ("06-01 " ++ args.startTime) =
      some (train.leavingTimes 1)
  arriving_succ : ∀ i, 1 ≤ i → i < train.stationNum →
    train.arrivingTimes (i + 1) = train.leavingTimes i + args.travelTime i
  leaving_succ : ∀ i, 1 ≤ i → i + 1 < train.stationNum →
    train.leavingTimes (i + 1) =
      train.arrivingTimes (i + 1) + args.stopOverTime i

namespace Train

/-! ## The loops of the constructor -/

theorem fillPrices_apply (prices : List String) (k : ℕ) (sums : ℕ → ℤ)
    {j : ℕ} (hj : j ≤ k + prices.length) :
    fillPrices prices k sums j =
      if k < j then
        sums k + ∑ i ∈ Finset.range (j - k), stringToInt (nthToken prices i)
      else sums j := by
  induction prices generalizing k sums with
  | nil =>
      rw [fillPrices, if_neg (by simpa using hj)]
  | cons price prices ih =>
      rw [fillPrices, ih _ _ (by rw [List.length_cons] at hj; omega)]
      rcases lt_trichotomy j (k + 1) with hlt | rfl | hgt
      · rw [if_neg (by omega), if_neg (by omega),
          Function.update_of_ne (by omega)]
      · rw [if_neg (by omega), if_pos (by omega), Function.update_self,
          show k + 1 - k = 1 by omega, Finset.sum_range_one]
        rfl
      · rw [if_pos hgt, if_pos (by omega), Function.update_self,
          show j - k = (j - (k + 1)) + 1 by omega, Finset.sum_range_succ',
          add_comm (Finset.sum _ _), ← add_assoc]
        rfl

/-- The times before the loop stay, and each iteration sets those of one
station. -/
theorem fillTimes_spec (travelTimes stopOverTimes : List String)
    (steps i : ℕ) (times : (ℕ → TimeType) × (ℕ → TimeType)) :
    let filled := fillTimes travelTimes stopOverTimes steps i times
    (∀ j ≤ i, filled.1 j = times.1 j ∧ filled.2 j = times.2 j) ∧
      ∀ j, i ≤ j → j < i + steps →
        filled.1 (j + 1) = filled.2 j +
            stringToInt (nthToken travelTimes (j - 1)) ∧
          filled.2 (j + 1) = filled.1 (j + 1) +
            stringToInt (nthToken stopOverTimes (j - 1)) := by
  induction steps generalizing i times with
  | zero =>
      refine ⟨fun j _ => ⟨rfl, rfl⟩, fun j hij hji => ?_⟩
      omega
  | succ steps ih =>
      obtain ⟨arriving, leaving⟩ := times
      let arrive := leaving i + stringToInt (nthToken travelTimes (i - 1))
      let leave := arrive + stringToInt (nthToken stopOverTimes (i - 1))
      obtain ⟨hkept, hset⟩ := ih (i + 1)
        (Function.update arriving (i + 1) arrive,
          Function.update leaving (i + 1) leave)
      refine ⟨fun j hj => ?_, fun j hij hji => ?_⟩
      · obtain ⟨harriving, hleaving⟩ := hkept j (by omega)
        constructor
        · exact harriving.trans (Function.update_of_ne (by omega) _ _)
        · exact hleaving.trans (Function.update_of_ne (by omega) _ _)
      · rcases hij.eq_or_lt with rfl | hlt
        · obtain ⟨harriving, hleaving⟩ := hkept (i + 1) le_rfl
          have hprev : (fillTimes travelTimes stopOverTimes steps (i + 1)
              (Function.update arriving (i + 1) arrive,
                Function.update leaving (i + 1) leave)).2 i = leaving i :=
            (hkept i (by omega)).2.trans
              (Function.update_of_ne (by omega) _ _)
          rw [fillTimes]
          refine ⟨?_, ?_⟩
          · rw [harriving, hprev]
            exact Function.update_self ..
          · rw [harriving, hleaving]
            simp only [Function.update_self]
            rfl
        · exact hset j hlt (by omega)

/-- The constructor makes a train that goes along its route. -/
theorem followsRoute_of_make {args : TrainArgs} (h : args.Admissible)
    (htwo : 2 ≤ args.stationNum) {train : Train}
    (hmake : make args.trainId args.stationNum.toNat args.seatNum
      args.stations args.prices args.startTime args.travelTimes
      args.stopOverTimes args.saleDate args.type = some train) :
    train.FollowsRoute args := by
  simp only [make, Option.bind_eq_bind, Option.bind_eq_some_iff,
    Option.some.injEq] at hmake
  obtain ⟨start, hstart, _, _, _, _, rfl⟩ := hmake
  let n := args.stationNum.toNat
  have hn : (n : ℤ) = args.stationNum := Int.toNat_of_nonneg (by omega)
  have hstations := h.stations_length
  have hprices := h.prices_length
  let filled := fillTimes (split args.travelTimes '|')
    (split args.stopOverTimes '|') (n - 2) 1
    (fun _ => 0, Function.update (fun _ => 0) 1 start)
  let last := filled.2 (n - 1) +
    stringToInt (nthToken (split args.travelTimes '|') (n - 2))
  obtain ⟨hkept, hset⟩ := fillTimes_spec (split args.travelTimes '|')
    (split args.stopOverTimes '|') (n - 2) 1
    (fun _ => 0, Function.update (fun _ => 0) 1 start)
  have hsum : ∀ j, 1 ≤ j → j ≤ n →
      fillPrices (split args.prices '|') 1 (fun _ => 0) j =
        ∑ i ∈ Finset.range (j - 1),
          stringToInt (nthToken (split args.prices '|') i) := by
    intro j hj hjn
    rw [fillPrices_apply _ _ _ (by omega)]
    split
    next => rw [zero_add]
    next hlt =>
      obtain rfl : j = 1 := by omega
      rfl
  constructor
  case stationNum_eq => exact hn
  case station =>
    intro i hi hin
    change i ≤ n at hin
    dsimp only
    rw [fillStations_apply, if_pos (by omega)]
    rfl
  case price_one => exact hsum 1 le_rfl (by omega)
  case price =>
    intro i j hi hij hjn
    change j ≤ n at hjn
    dsimp only
    induction j, hij using Nat.le_induction with
    | base => rw [Finset.Ico_self, Finset.sum_empty, sub_self]
    | succ j hij ih =>
        have hprev := ih (by omega)
        rw [Finset.sum_Ico_succ_top hij, ← hprev, hsum (j + 1) (by omega) hjn,
          hsum j (by omega) (by omega),
          show j + 1 - 1 = (j - 1) + 1 by omega, Finset.sum_range_succ,
          TrainArgs.price]
        ring
  case leaving_one =>
    have hone : filled.2 1 = start := by
      refine (hkept 1 le_rfl).2.trans ?_
      change Function.update (fun _ => (0 : TimeType)) 1 start 1 = start
      exact Function.update_self ..
    change _ = some (Function.update filled.2 n maxInt 1)
    rw [Function.update_of_ne (by omega), hone]
    exact hstart
  case arriving_succ =>
    intro i hi hin
    change i < n at hin
    change Function.update filled.1 n last (i + 1) =
      Function.update filled.2 n maxInt i + args.travelTime i
    rw [Function.update_of_ne hin.ne]
    by_cases hlast : i + 1 = n
    · have hlast' : last = filled.2 i + args.travelTime i := by
        change filled.2 (n - 1) + _ = _
        rw [TrainArgs.travelTime, show n - 1 = i by omega,
          show n - 2 = i - 1 by omega]
      rw [hlast, Function.update_self, hlast']
    · rw [Function.update_of_ne hlast]
      exact (hset i hi (by omega)).1
  case leaving_succ =>
    intro i hi hin
    change i + 1 < n at hin
    change Function.update filled.2 n maxInt (i + 1) =
      Function.update filled.1 n last (i + 1) + args.stopOverTime i
    rw [Function.update_of_ne hin.ne, Function.update_of_ne hin.ne]
    exact (hset i hi (by omega)).2

/-! ## Tickets along the route -/

namespace FollowsRoute

variable {train : Train} {args : TrainArgs} {i j : ℕ}

/-- The time from a departure to a later arrival is that of the legs and of the
stops between them. -/
theorem arriving_sub_leaving (h : train.FollowsRoute args) (hi : 1 ≤ i)
    (hij : i < j) (hjn : j ≤ train.stationNum) :
    train.arrivingTimes j - train.leavingTimes i =
      ∑ k ∈ Finset.Ico i j, args.travelTime k +
        ∑ k ∈ Finset.Ico i (j - 1), args.stopOverTime k := by
  obtain ⟨j, rfl⟩ : ∃ m, j = m + 1 := ⟨j - 1, by omega⟩
  rw [Nat.add_sub_cancel]
  have hij' : i ≤ j := by omega
  clear hij
  induction j, hij' using Nat.le_induction with
  | base =>
      rw [h.arriving_succ i hi (by omega), Nat.Ico_succ_singleton,
        Finset.sum_singleton, Finset.Ico_self, Finset.sum_empty]
      ring
  | succ j hij ih =>
      have hprev := ih (by omega)
      rw [h.arriving_succ (j + 1) (by omega) (by omega),
        h.leaving_succ j (by omega) (by omega),
        Finset.sum_Ico_succ_top (by omega) args.travelTime,
        Finset.sum_Ico_succ_top hij args.stopOverTime]
      calc train.arrivingTimes (j + 1) + args.stopOverTime j +
            args.travelTime (j + 1) - train.leavingTimes i
          = (train.arrivingTimes (j + 1) - train.leavingTimes i) +
            args.travelTime (j + 1) + args.stopOverTime j := by ring
        _ = _ := by rw [hprev]; ring

theorem ticket_cost (h : train.FollowsRoute args) (trainId : String)
    (hi : 1 ≤ i) (hij : i < j) (hjn : j ≤ train.stationNum) :
    (⟨train.station trainId i, train.station trainId j⟩ : Ticket).cost =
      ∑ k ∈ Finset.Ico i j, args.price k :=
  h.price i j hi hij.le hjn

theorem travelTime_nonneg (hnum : args.TimesAreNumbers) (k : ℕ) :
    0 ≤ args.travelTime k :=
  stringToInt_nthToken_nonneg hnum.1 _

theorem stopOverTime_nonneg (hnum : args.TimesAreNumbers)
    (htwo : 2 < args.stationNum) (k : ℕ) : 0 ≤ args.stopOverTime k :=
  stringToInt_nthToken_nonneg (hnum.2 htwo) _

/-- A train leaves a station before it reaches a later one. -/
theorem leaving_le_arriving (h : train.FollowsRoute args)
    (hnum : args.TimesAreNumbers) (hi : 1 ≤ i) (hij : i < j)
    (hjn : j ≤ train.stationNum) :
    train.leavingTimes i ≤ train.arrivingTimes j := by
  have htime := h.arriving_sub_leaving hi hij hjn
  have hlegs : 0 ≤ ∑ k ∈ Finset.Ico i j, args.travelTime k :=
    Finset.sum_nonneg fun k _ => travelTime_nonneg hnum k
  have hstops : 0 ≤ ∑ k ∈ Finset.Ico i (j - 1), args.stopOverTime k := by
    apply Finset.sum_nonneg
    intro k hk
    obtain ⟨hik, hkj⟩ := Finset.mem_Ico.mp hk
    have hn := h.stationNum_eq
    exact stopOverTime_nonneg hnum (by omega) k
  apply sub_nonneg.mp
  rw [htime]
  exact add_nonneg hlegs hstops

/-- A train reaches an inner station before it leaves it. -/
theorem arriving_le_leaving (h : train.FollowsRoute args)
    (hnum : args.TimesAreNumbers) (hi : 1 < i) (hin : i < train.stationNum) :
    train.arrivingTimes i ≤ train.leavingTimes i := by
  obtain ⟨i, rfl⟩ : ∃ m, i = m + 1 := ⟨i - 1, by omega⟩
  have hn := h.stationNum_eq
  rw [h.leaving_succ i (by omega) hin]
  exact le_add_of_nonneg_right (stopOverTime_nonneg hnum (by omega) i)

end FollowsRoute

end Train

/-! ## A new train -/

/-- A train goes along its route in time, and every ticket for it costs and
takes what the lists say. -/
structure Train.ServesRoute (train : Train) (args : TrainArgs) : Prop where
  followsRoute : train.FollowsRoute args
  leaving_le : ∀ i j, 1 ≤ i → i < j → j ≤ train.stationNum →
    train.leavingTimes i ≤ train.arrivingTimes j
  arriving_le : ∀ i, 1 < i → i < train.stationNum →
    train.arrivingTimes i ≤ train.leavingTimes i
  ticket : ∀ i j, 1 ≤ i → i < j → j ≤ train.stationNum →
    let ticket : Ticket :=
      ⟨train.station args.trainId i, train.station args.trainId j⟩
    ticket.cost = ∑ k ∈ Finset.Ico i j, args.price k ∧
      ticket.time = ∑ k ∈ Finset.Ico i j, args.travelTime k +
        ∑ k ∈ Finset.Ico i (j - 1), args.stopOverTime k

namespace TrainManagement

/-- A well-formed `add_train` with a new name stores a train that serves the
route of its arguments. -/
theorem addTrain_servesRoute (trains : TrainManagement) (line : List String)
    {args : TrainArgs} (hargs : TrainArgs.ofLine line = args) (hadm : args.Admissible)
    (htwo : 2 ≤ args.stationNum) (hnum : args.TimesAreNumbers)
    (hnew : trains.trainDatabase.searchKey args.trainId = []) :
    ∃ train, train.ServesRoute args ∧
      trains.addTrain line = some (.success,
        { trains with
          trainDatabase :=
            trains.trainDatabase.insertEntry args.trainId train }) := by
  obtain ⟨train, hmake, -⟩ := hadm.exists_make
  have hroute := Train.followsRoute_of_make hadm htwo hmake
  have hhundred := hadm.le_hundred
  refine ⟨train, ⟨hroute, ?_, ?_, ?_⟩, ?_⟩
  · exact fun i j hi hij hjn => hroute.leaving_le_arriving hnum hi hij hjn
  · exact fun i hi hin => hroute.arriving_le_leaving hnum hi hin
  · intro i j hi hij hjn
    exact ⟨hroute.ticket_cost args.trainId hi hij hjn,
      hroute.arriving_sub_leaving hi hij hjn⟩
  · rw [addTrain, hargs, addTrainWith, if_neg (not_not.mpr hnew),
      if_neg (by omega), hmake]
    rfl

/-- A train with three stations. -/
theorem addTrain_servesRoute_three :
    ∃ train : Train, train.ServesRoute
        (TrainArgs.ofLine ["-i", "T", "-n", "3", "-m", "10", "-s", "A|B|C",
          "-p", "1|2", "-x", "10:00", "-t", "60|60", "-o", "5",
          "-d", "06-01|06-02", "-y", "G"]) ∧
      ((System.start (Databases.new fun _ => 0)).trains.addTrain
        ["-i", "T", "-n", "3", "-m", "10", "-s", "A|B|C", "-p", "1|2",
          "-x", "10:00", "-t", "60|60", "-o", "5", "-d", "06-01|06-02",
          "-y", "G"]).isSome := by
  obtain ⟨train, hserves, hadd⟩ := addTrain_servesRoute
    (System.start (Databases.new fun _ => 0)).trains
    ["-i", "T", "-n", "3", "-m", "10", "-s", "A|B|C", "-p", "1|2",
      "-x", "10:00", "-t", "60|60", "-o", "5", "-d", "06-01|06-02",
      "-y", "G"] rfl (by decide +kernel) (by decide +kernel)
    (by decide +kernel) (by decide +kernel)
  exact ⟨train, hserves, by rw [hadd]; rfl⟩

end TrainManagement

end TicketSystem.Backend
