import TicketSystem.Backend.Command
import TicketSystem.Backend.Library

/-!
# Trains, stations, seats and orders

The records of the ticket system.  Arrays are indexed as in the source, from
one for stations; the entries that the source leaves unset hold a default.
The index of a station and the number of stations are natural numbers, all
other quantities are integers.
-/

namespace TicketSystem.Backend

def maxInt : ℤ := 0x7fffffff

/-- What an `int` of 32 bits keeps of a result. -/
def toInt32 (x : ℤ) : ℤ := Int.bmod x (2 ^ 32)

/-- The range of an `int` of 32 bits. -/
def IsInt32 (x : ℤ) : Prop := -2 ^ 31 ≤ x ∧ x < 2 ^ 31

instance (x : ℤ) : Decidable (IsInt32 x) :=
  inferInstanceAs (Decidable (_ ∧ _))

theorem toInt32_eq_self_iff {x : ℤ} : toInt32 x = x ↔ IsInt32 x := by
  unfold toInt32 IsInt32
  constructor
  · intro h
    have hlo := @Int.le_bmod x (2 ^ 32) (by decide)
    have hhi := @Int.bmod_lt x (2 ^ 32) (by decide)
    omega
  · rintro ⟨hlo, hhi⟩
    exact Int.bmod_eq_of_le (by omega) (by omega)

/-- The values of a loop index that runs from `l` up to and including `r`. -/
def loopRange (l r : ℕ) : List ℕ := List.range' l (r + 1 - l)

@[simp] theorem mem_loopRange {l r i : ℕ} :
    i ∈ loopRange l r ↔ l ≤ i ∧ i ≤ r := by
  simp only [loopRange, List.mem_range'_1]
  omega

theorem loopRange_nodup (l r : ℕ) : (loopRange l r).Nodup :=
  List.nodup_range'

/-! ## Trains -/

/-- A train: its route with times and prices, its sale window and its seats.
`isReleased` tells whether tickets are sold. -/
structure Train where
  trainId : String
  stations : ℕ → String
  stationNum : ℕ
  totalSeatNum : ℤ
  startTime : TimeType
  arrivingTimes : ℕ → TimeType
  leavingTimes : ℕ → TimeType
  startSaleDate : TimeType
  endSaleDate : TimeType
  type : Char
  isReleased : Bool
  priceSum : ℕ → ℤ

namespace Train

/-- The prefix sums of the prices; `k` is the last index that is set. -/
def fillPrices : List String → ℕ → (ℕ → ℤ) → ℕ → ℤ
  | [], _, sums => sums
  | price :: prices, k, sums =>
      fillPrices prices (k + 1)
        (Function.update sums (k + 1) (sums k + stringToInt price))

/-- The station names; `k` is the last index that is set. -/
def fillStations : List String → ℕ → (ℕ → String) → ℕ → String
  | [], _, names => names
  | name :: rest, k, names =>
      fillStations rest (k + 1) (Function.update names (k + 1) name)

/-- The times at the inner stations, for `steps` stations from index `i + 1`
on. -/
def fillTimes (travelTimes stopOverTimes : List String) :
    ℕ → ℕ → (ℕ → TimeType) × (ℕ → TimeType) →
      (ℕ → TimeType) × (ℕ → TimeType)
  | 0, _, times => times
  | steps + 1, i, (arriving, leaving) =>
      let arrive := leaving i + stringToInt (nthToken travelTimes (i - 1))
      let leave := arrive + stringToInt (nthToken stopOverTimes (i - 1))
      fillTimes travelTimes stopOverTimes steps (i + 1)
        (Function.update arriving (i + 1) arrive,
          Function.update leaving (i + 1) leave)

/-- The constructor of `Train`; it throws when a time cannot be read. -/
def make (trainId : String) (stationNum : ℕ) (totalSeatNum : ℤ)
    (stations prices startTime travelTimes stopOverTimes saleDate
      type : String) : Option Train := do
  let start ← TimeType.ofString ("06-01 " ++ startTime)
  let saleDates := split saleDate '|'
  let startSaleDate ← TimeType.ofString (nthToken saleDates 0 ++ " 00:00")
  let endSaleDate ← TimeType.ofString (nthToken saleDates 1 ++ " 00:00")
  let travel := split travelTimes '|'
  let stopOver := split stopOverTimes '|'
  let (arriving, leaving) := fillTimes travel stopOver (stationNum - 2) 1
    (fun _ => 0, Function.update (fun _ => 0) 1 start)
  some
    { trainId := trainId
      stations := fillStations (split stations '|') 0 fun _ => ""
      stationNum := stationNum
      totalSeatNum := totalSeatNum
      startTime := start
      arrivingTimes := Function.update arriving stationNum
        (leaving (stationNum - 1) +
          stringToInt (nthToken travel (stationNum - 2)))
      leavingTimes := Function.update leaving stationNum maxInt
      startSaleDate := startSaleDate
      endSaleDate := endSaleDate
      type := type.toList.headD (Char.ofNat 0)
      isReleased := false
      priceSum := fillPrices (split prices '|') 1 fun _ => 0 }

/-- The names read from a list follow the last index that was set. -/
theorem fillStations_apply (names : List String) (k : ℕ) (f : ℕ → String)
    (j : ℕ) :
    fillStations names k f j =
      if k < j ∧ j ≤ k + names.length then names.getD (j - k - 1) ""
      else f j := by
  induction names generalizing k f with
  | nil =>
      rw [fillStations, if_neg]
      simp only [List.length_nil]
      omega
  | cons name rest ih =>
      rw [fillStations, ih]
      by_cases hj : j = k + 1
      · subst hj
        simp
      · rw [Function.update_of_ne hj]
        by_cases hin : k + 1 < j ∧ j ≤ k + 1 + rest.length
        · rw [if_pos hin, if_pos (by simp only [List.length_cons]; omega),
            show j - k - 1 = (j - (k + 1) - 1) + 1 by omega,
            List.getD_cons_succ]
        · rw [if_neg hin, if_neg (by simp only [List.length_cons]; omega)]

/-- The fields of a new train that its arguments fix directly. -/
theorem make_eq_some {trainId stations prices startTime travelTimes
    stopOverTimes saleDate type : String} {stationNum : ℕ}
    {totalSeatNum : ℤ} {train : Train}
    (h : make trainId stationNum totalSeatNum stations prices startTime
      travelTimes stopOverTimes saleDate type = some train) :
    train.trainId = trainId ∧ train.stationNum = stationNum ∧
      train.totalSeatNum = totalSeatNum ∧ train.isReleased = false ∧
      train.stations = fillStations (split stations '|') 0 fun _ => "" := by
  simp only [make, Option.bind_eq_bind, Option.bind_eq_some_iff,
    Option.some.injEq] at h
  obtain ⟨_, _, _, _, _, _, rfl⟩ := h
  exact ⟨rfl, rfl, rfl, rfl, rfl⟩

/-- The sale window of a new train starts at midnight. -/
theorem dvd_startSaleDate_of_make {trainId stations prices startTime
    travelTimes stopOverTimes saleDate type : String} {stationNum : ℕ}
    {totalSeatNum : ℤ} {train : Train}
    (h : make trainId stationNum totalSeatNum stations prices startTime
      travelTimes stopOverTimes saleDate type = some train)
    (hdate : (nthToken (split saleDate '|') 0).length = 5) :
    1440 ∣ train.startSaleDate := by
  simp only [make, Option.bind_eq_bind, Option.bind_eq_some_iff,
    Option.some.injEq] at h
  obtain ⟨_, _, startSaleDate, hstart, _, _, rfl⟩ := h
  exact TimeType.dvd_ofString hdate hstart

/-- Stations listed once each have names that differ. -/
theorem stations_injective_of_make {trainId stations prices startTime
    travelTimes stopOverTimes saleDate type : String} {stationNum : ℕ}
    {totalSeatNum : ℤ} {train : Train}
    (h : make trainId stationNum totalSeatNum stations prices startTime
      travelTimes stopOverTimes saleDate type = some train)
    (hlen : (split stations '|').length = stationNum)
    (hnodup : (split stations '|').Nodup) {i j : ℕ} (hi : 1 ≤ i)
    (hin : i ≤ stationNum) (hj : 1 ≤ j) (hjn : j ≤ stationNum)
    (heq : train.stations i = train.stations j) : i = j := by
  obtain ⟨-, -, -, -, hstations⟩ := make_eq_some h
  rw [hstations, fillStations_apply, fillStations_apply,
    if_pos (by omega), if_pos (by omega)] at heq
  rw [List.getD_eq_getElem _ _ (by omega), List.getD_eq_getElem _ _ (by omega),
    hnodup.getElem_inj_iff] at heq
  omega

end Train

/-! ## Seats -/

/-- The free seats of one train on one day: `seatNum j` from station `j` to
the next. -/
structure DayTrain where
  seatNum : ℕ → ℤ

namespace DayTrain

/-- `modify_seat`. -/
def modifySeat (d : DayTrain) (l r : ℕ) (val : ℤ) : DayTrain where
  seatNum := (loopRange l r).foldl
    (fun seat i => Function.update seat i (seat i + val)) d.seatNum

/-- `query_seat`. -/
def querySeat (d : DayTrain) (l r : ℕ) : ℤ :=
  (loopRange l r).foldl (fun ans i => min ans (d.seatNum i)) maxInt

theorem foldl_update_add (is : List ℕ) (hnodup : is.Nodup)
    (seat : ℕ → ℤ) (val : ℤ) (j : ℕ) :
    is.foldl (fun seat i => Function.update seat i (seat i + val)) seat j =
      if j ∈ is then seat j + val else seat j := by
  induction is generalizing seat with
  | nil => simp
  | cons i is ih =>
      obtain ⟨hi, his⟩ := List.nodup_cons.mp hnodup
      rw [List.foldl_cons, ih his]
      by_cases hj : j = i
      · subst hj
        simp [hi]
      · simp [hj, Function.update_of_ne]

@[simp] theorem modifySeat_seatNum (d : DayTrain) (l r : ℕ) (val : ℤ)
    (j : ℕ) :
    (d.modifySeat l r val).seatNum j =
      if l ≤ j ∧ j ≤ r then d.seatNum j + val else d.seatNum j := by
  simp only [modifySeat, foldl_update_add _ (loopRange_nodup l r),
    mem_loopRange]

theorem le_foldl_min_iff (is : List ℕ) (seat : ℕ → ℤ) (n ans : ℤ) :
    n ≤ is.foldl (fun ans i => min ans (seat i)) ans ↔
      n ≤ ans ∧ ∀ i ∈ is, n ≤ seat i := by
  induction is generalizing ans with
  | nil => simp
  | cons i is ih =>
      rw [List.foldl_cons, ih]
      simp [and_assoc]

/-- A request fits the answer of `query_seat` when it fits every segment. -/
theorem le_querySeat_iff {d : DayTrain} {l r : ℕ} {n : ℤ} :
    n ≤ d.querySeat l r ↔
      n ≤ maxInt ∧ ∀ i, l ≤ i → i ≤ r → n ≤ d.seatNum i := by
  simp only [querySeat, le_foldl_min_iff, mem_loopRange, and_imp]

end DayTrain

/-! ## Stations and tickets -/

/-- A station of a train, as the station index stores it. -/
structure Station where
  trainId : String
  stationName : String
  startSaleTime : TimeType
  endSaleTime : TimeType
  arrivingTime : TimeType
  leavingTime : TimeType
  priceSum : ℤ
  index : ℕ
  deriving DecidableEq

/-- A ticket from station `s` to station `t` of one train. -/
structure Ticket where
  s : Station
  t : Station
  deriving DecidableEq

namespace Ticket

def cost (ticket : Ticket) : ℤ := ticket.t.priceSum - ticket.s.priceSum

def time (ticket : Ticket) : ℤ :=
  ticket.t.arrivingTime - ticket.s.leavingTime

end Ticket

/-! ## Orders -/

inductive Status where
  | success
  | pending
  | refunded
  deriving DecidableEq

structure Order where
  userName : String
  trainId : String
  num : ℤ
  price : ℤ
  orderId : ℤ
  startDay : TimeType
  leavingTime : TimeType
  arrivingTime : TimeType
  status : Status
  fromIndex : ℕ
  toIndex : ℕ
  fromStation : String
  toStation : String
  deriving DecidableEq

/-- An order that waits for seats. -/
structure PendingOrder where
  trainId : String
  userName : String
  startDay : TimeType
  num : ℤ
  fromIndex : ℕ
  toIndex : ℕ
  orderId : ℤ
  deriving DecidableEq

end TicketSystem.Backend
