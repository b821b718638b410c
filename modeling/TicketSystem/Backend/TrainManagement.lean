import TicketSystem.Backend.Account
import TicketSystem.Backend.Sort
import TicketSystem.Backend.TrainSystem
import TicketSystem.Database.Types

/-!
# Trains, tickets and the waiting list

`TrainManagement` keeps five indexes and the number of the last order.  Its
handlers answer with a line, or with nothing where the program throws or reads
outside an array: the first element of an empty answer, a date that cannot be
read, an array of stations that is too short.
-/

namespace TicketSystem.Backend

open TicketSystem.Support
open TicketSystem.Database

structure TrainManagement where
  trainDatabase : Index String Train
  stationDatabase : Index DualString Station
  daytrainDatabase : Index StringAny DayTrain
  orderDatabase : Index StringAny Order
  pendingOrderDatabase : Index StringIntInt PendingOrder
  orderNum : ℤ

/-! ## Replies -/

/-- A line of the answer of `query_train`. -/
structure TrainRow where
  station : String
  arriving : Option TimeType
  leaving : Option TimeType
  price : ℤ
  seat : Option ℤ
  deriving DecidableEq

/-- A line of the answer of `query_ticket` or `query_transfer`. -/
structure TicketRow where
  trainId : String
  fromStation : String
  leaving : TimeType
  toStation : String
  arriving : TimeType
  price : ℤ
  seat : ℤ
  deriving DecidableEq

inductive TrainReply where
  | failure
  | success
  | queue
  | bought (total : ℤ)
  | train (trainId : String) (type : Char) (rows : List TrainRow)
  | tickets (rows : List TicketRow)
  | transfer (best : Option (TicketRow × TicketRow))
  | orders (rows : List Order)
  deriving DecidableEq

def TrainRow.render (row : TrainRow) : String :=
  let time := fun t : Option TimeType =>
    t.elim "xx-xx xx:xx" TimeType.transfer
  row.station ++ " " ++ time row.arriving ++ " -> " ++ time row.leaving ++
    " " ++ toString row.price ++ " " ++ row.seat.elim "x" toString

def TicketRow.render (row : TicketRow) : String :=
  row.trainId ++ " " ++ row.fromStation ++ " " ++
    TimeType.transfer row.leaving ++ " -> " ++ row.toStation ++ " " ++
    TimeType.transfer row.arriving ++ " " ++ toString row.price ++ " " ++
    toString row.seat

def Order.render (order : Order) : String :=
  (match order.status with
    | .success => "[success] "
    | .pending => "[pending] "
    | .refunded => "[refunded] ") ++
    order.trainId ++ " " ++ order.fromStation ++ " " ++
    TimeType.transfer (order.leavingTime + order.startDay) ++ " -> " ++
    order.toStation ++ " " ++
    TimeType.transfer (order.arrivingTime + order.startDay) ++ " " ++
    toString order.price ++ " " ++ toString order.num

def TrainReply.render : TrainReply → String
  | failure => "-1"
  | success => "0"
  | queue => "queue"
  | bought total => toString total
  | train trainId type rows =>
      trainId ++ " " ++ type.toString ++
        String.join (rows.map fun row => "\n" ++ row.render)
  | tickets rows =>
      toString rows.length ++
        String.join (rows.map fun row => "\n" ++ row.render)
  | transfer none => "0"
  | transfer (some (first, second)) => first.render ++ "\n" ++ second.render
  | orders rows =>
      toString rows.length ++
        String.join (rows.map fun order => "\n" ++ order.render)

/-! ## The orders of the sorts -/

def timeCmp (a b : Ticket) : Bool :=
  if a.time = b.time then strcmp a.s.trainId b.s.trainId < 0
  else a.time < b.time

def costCmp (a b : Ticket) : Bool :=
  if a.cost = b.cost then strcmp a.s.trainId b.s.trainId < 0
  else a.cost < b.cost

def orderCmp (a b : Order) : Bool := b.orderId < a.orderId

def pendingOrderCmp (a b : PendingOrder) : Bool := a.orderId < b.orderId

def stationCmp (a b : String × ℕ) : Bool := a.1 < b.1

theorem orderCmp_strictWeakOrder : StrictWeakOrder orderCmp :=
  .of_key (f := fun o => -o.orderId) fun a b => by simp [orderCmp]

theorem pendingOrderCmp_strictWeakOrder : StrictWeakOrder pendingOrderCmp :=
  .of_key (f := fun p => p.orderId) fun a b => by simp [pendingOrderCmp]

theorem stationCmp_strictWeakOrder : StrictWeakOrder stationCmp :=
  .of_key (f := fun s => s.1) fun a b => by simp [stationCmp]

theorem strcmp_neg_iff (a b : String) : strcmp a b < 0 ↔ a < b :=
  strcmp_compares.neg_iff a b

theorem timeCmp_strictWeakOrder : StrictWeakOrder timeCmp :=
  .of_key (f := fun t => toLex (t.time, t.s.trainId)) fun a b => by
    rw [Prod.Lex.toLex_lt_toLex, ← strcmp_neg_iff]
    by_cases h : a.time = b.time <;> simp [timeCmp, h]

theorem costCmp_strictWeakOrder : StrictWeakOrder costCmp :=
  .of_key (f := fun t => toLex (t.cost, t.s.trainId)) fun a b => by
    rw [Prod.Lex.toLex_lt_toLex, ← strcmp_neg_iff]
    by_cases h : a.cost = b.cost <;> simp [costCmp, h]

/-! ## Trains -/

structure TrainArgs where
  trainId : String := ""
  stationNum : ℤ := 0
  seatNum : ℤ := 0
  stations : String := ""
  prices : String := ""
  startTime : String := ""
  travelTimes : String := ""
  stopOverTimes : String := ""
  saleDate : String := ""
  type : String := ""

/-- The branches of the option loop of `add_train`; every option that is not
listed sets the type. -/
def TrainArgs.readOption (args : TrainArgs) (opt : String) :
    Option (String → TrainArgs) :=
  if opt = "-i" then some fun v => { args with trainId := v }
  else if opt = "-n" then
    some fun v => { args with stationNum := stringToInt v }
  else if opt = "-m" then some fun v => { args with seatNum := stringToInt v }
  else if opt = "-s" then some fun v => { args with stations := v }
  else if opt = "-p" then some fun v => { args with prices := v }
  else if opt = "-x" then some fun v => { args with startTime := v }
  else if opt = "-t" then some fun v => { args with travelTimes := v }
  else if opt = "-o" then some fun v => { args with stopOverTimes := v }
  else if opt = "-d" then some fun v => { args with saleDate := v }
  else some fun v => { args with type := v }

def TrainArgs.ofLine (line : List String) : TrainArgs :=
  parseOptions TrainArgs.readOption {} line

/-- The days of `for (i = start; i <= end; i += 1440)`. -/
def saleDays (startSaleDate endSaleDate : TimeType) : List TimeType :=
  (List.range ((endSaleDate - startSaleDate) / 1440 + 1).toNat).map
    fun k : ℕ => startSaleDate + 1440 * (k : ℤ)

/-- The seats of a day on which nothing is sold yet. -/
def DayTrain.full (train : Train) : DayTrain where
  seatNum := (loopRange 1 train.stationNum).foldl
    (fun seat j => Function.update seat j train.totalSeatNum) fun _ => 0

/-- The record of the `i`-th station of a train. -/
def Train.station (train : Train) (trainId : String) (i : ℕ) : Station where
  trainId := trainId
  stationName := train.stations i
  priceSum := train.priceSum i
  startSaleTime := train.startSaleDate
  endSaleTime := train.endSaleDate
  arrivingTime := train.arrivingTimes i
  leavingTime := train.leavingTimes i
  index := i

theorem mem_saleDays {startSaleDate endSaleDate day : ℤ} :
    day ∈ saleDays startSaleDate endSaleDate ↔
      startSaleDate ≤ day ∧ day ≤ endSaleDate ∧
        1440 ∣ day - startSaleDate := by
  simp only [saleDays, List.mem_map, List.mem_range]
  constructor
  · rintro ⟨k, hk, rfl⟩
    refine ⟨by omega, by omega, k, by ring⟩
  · rintro ⟨hle, hge, k, hk⟩
    exact ⟨k.toNat, by omega, by omega⟩

theorem DayTrain.full_seatNum {train : Train} {j : ℕ} (hj : 1 ≤ j)
    (hjn : j ≤ train.stationNum) :
    (DayTrain.full train).seatNum j = train.totalSeatNum := by
  have hfold : ∀ (is : List ℕ) (seat : ℕ → ℤ), j ∈ is →
      is.foldl (fun seat j => Function.update seat j train.totalSeatNum)
        seat j = train.totalSeatNum := by
    intro is
    induction is using List.reverseRecOn with
    | nil => simp
    | append_singleton is i ih =>
        intro seat hmem
        rw [List.foldl_append, List.foldl_cons, List.foldl_nil]
        by_cases hij : j = i
        · rw [hij, Function.update_self]
        · rw [Function.update_of_ne hij]
          exact ih seat (by simpa [hij] using hmem)
  exact hfold _ _ (mem_loopRange.mpr ⟨hj, hjn⟩)

namespace TrainManagement

/-- `add_train` on its parsed options.  A train has at least one station and
fits the arrays of 101 entries. -/
def addTrainWith (trains : TrainManagement) (args : TrainArgs) :
    Option (TrainReply × TrainManagement) :=
  if trains.trainDatabase.searchKey args.trainId ≠ [] then
    some (.failure, trains)
  else if args.stationNum < 1 ∨ 100 < args.stationNum then none
  else do
    let newTrain ← Train.make args.trainId args.stationNum.toNat args.seatNum
      args.stations args.prices args.startTime args.travelTimes
      args.stopOverTimes args.saleDate args.type
    some (.success,
      { trains with
        trainDatabase :=
          trains.trainDatabase.insertEntry args.trainId newTrain })

/-- `add_train`. -/
def addTrain (trains : TrainManagement) (line : List String) :
    Option (TrainReply × TrainManagement) :=
  trains.addTrainWith (TrainArgs.ofLine line)

/-- The loop of `release_train` over the days of the sale window. -/
def insertDays (database : Index StringAny DayTrain) (trainId : String)
    (daytrain : DayTrain) (days : List TimeType) :
    Index StringAny DayTrain :=
  days.foldl (fun db day => db.insertEntry ⟨trainId, day⟩ daytrain) database

/-- The loop of `release_train` over the stations. -/
def insertStations (database : Index DualString Station) (trainId : String)
    (train : Train) (is : List ℕ) : Index DualString Station :=
  is.foldl
    (fun db i => db.insertEntry ⟨train.stations i, trainId⟩
      (train.station trainId i))
    database

/-- The writes of `release_train`. -/
def release (trains : TrainManagement) (trainId : String)
    (targetTrain : Train) : TrainManagement :=
  { trains with
    trainDatabase := trains.trainDatabase.insertEntry trainId
      { targetTrain with isReleased := true }
    daytrainDatabase := insertDays trains.daytrainDatabase trainId
      (DayTrain.full targetTrain)
      (saleDays targetTrain.startSaleDate targetTrain.endSaleDate)
    stationDatabase := insertStations trains.stationDatabase trainId
      targetTrain (loopRange 1 targetTrain.stationNum) }

/-- `release_train`: the second token is the train. -/
def releaseTrain (trains : TrainManagement) (line : List String) :
    TrainReply × TrainManagement :=
  let trainId := nthToken line 1
  match trains.trainDatabase.searchKey trainId with
  | [] => (.failure, trains)
  | targetTrain :: _ =>
      if targetTrain.isReleased then (.failure, trains)
      else (.success, trains.release trainId targetTrain)

/-- The rows of `query_train`, with the seats shown at a station. -/
def trainRows (train : Train) (day : TimeType) (seat : ℕ → ℤ) :
    List TrainRow :=
  let n := train.stationNum
  { station := train.stations 1, arriving := none,
    leaving := some (day + train.startTime), price := 0,
    seat := some (seat 1) } ::
  (loopRange 2 (n - 1)).map (fun i =>
    { station := train.stations i,
      arriving := some (day + train.arrivingTimes i),
      leaving := some (day + train.leavingTimes i),
      price := train.priceSum i, seat := some (seat i) }) ++
  [{ station := train.stations n,
     arriving := some (day + train.arrivingTimes n), leaving := none,
     price := train.priceSum n, seat := none }]

/-- `query_train`. -/
def queryTrain (trains : TrainManagement) (line : List String) :
    Option TrainReply := do
  let (trainId, date) := parseOptions
    (fun (args : String × String) opt =>
      if opt = "-i" then some fun v => (v, args.2)
      else some fun v => (args.1, v)) ("", "") line
  if ¬ (← isLegal (date ++ " 00:00")) then some .failure
  else
    let day ← TimeType.ofString (date ++ " 00:00")
    match trains.trainDatabase.searchKey trainId with
    | [] => some .failure
    | targetTrain :: _ =>
        if day < targetTrain.startSaleDate ∨ targetTrain.endSaleDate < day
        then some .failure
        else if ¬ targetTrain.isReleased then
          some (.train trainId targetTrain.type
            (trainRows targetTrain day fun _ => targetTrain.totalSeatNum))
        else
          match trains.daytrainDatabase.searchKey ⟨trainId, day⟩ with
          | [] => none
          | currentDaytrain :: _ =>
              some (.train trainId targetTrain.type
                (trainRows targetTrain day currentDaytrain.seatNum))

/-- `delete_train`: the second token is the train. -/
def deleteTrain (trains : TrainManagement) (line : List String) :
    TrainReply × TrainManagement :=
  let trainId := nthToken line 1
  match trains.trainDatabase.searchKey trainId with
  | [] => (.failure, trains)
  | targetTrain :: _ =>
      if targetTrain.isReleased then (.failure, trains)
      else
        (.success,
          { trains with
            trainDatabase := trains.trainDatabase.deleteEntry trainId })

end TrainManagement

/-! ## Tickets -/

structure TicketArgs where
  s : String := ""
  t : String := ""
  date : String := ""
  type : String := "time"
  deriving DecidableEq

/-- The branches of the option loop of `query_ticket` and `query_transfer`;
an option that is not listed is skipped alone. -/
def TicketArgs.readOption (args : TicketArgs) (opt : String) :
    Option (String → TicketArgs) :=
  if opt = "-s" then some fun v => { args with s := v }
  else if opt = "-t" then some fun v => { args with t := v }
  else if opt = "-d" then some fun v => { args with date := v }
  else if opt = "-p" then some fun v => { args with type := v }
  else none

def TicketArgs.ofLine (line : List String) : TicketArgs :=
  parseOptions TicketArgs.readOption {} line

/-- The day on which a train has to leave its first station to leave this
one on `day`. -/
def Station.startDay (station : Station) (day : TimeType) : TimeType :=
  day - TimeType.getDate station.leavingTime

/-- The loop of `query_ticket` that merges the stations of both ends by train;
`n` bounds its iterations. -/
def matchStations (day : TimeType) :
    ℕ → List Station → List Station → List Ticket
  | n + 1, s1 :: ans1, t1 :: ans2 =>
      if strcmp s1.trainId t1.trainId < 0 then
        matchStations day n ans1 (t1 :: ans2)
      else if 0 < strcmp s1.trainId t1.trainId then
        matchStations day n (s1 :: ans1) ans2
      else if t1.index ≤ s1.index then matchStations day n ans1 ans2
      else if s1.startSaleTime ≤ s1.startDay day ∧
          s1.startDay day ≤ s1.endSaleTime then
        ⟨s1, t1⟩ :: matchStations day n ans1 ans2
      else matchStations day n ans1 ans2
  | _, _, _ => []

namespace TrainManagement

/-- All stations with one name, by train. -/
def stationsNamed (trains : TrainManagement) (name : String) :
    List Station :=
  trains.stationDatabase.scanKey ⟨name, ""⟩ (dualStringComparator 1)

/-- The line of `query_ticket` for one ticket. -/
def ticketRow (trains : TrainManagement) (day : TimeType)
    (ticket : Ticket) : Option TicketRow :=
  let startDay := ticket.s.startDay day
  match trains.daytrainDatabase.searchKey ⟨ticket.s.trainId, startDay⟩ with
  | [] => none
  | tpDaytrain :: _ =>
      some
        { trainId := ticket.s.trainId
          fromStation := ticket.s.stationName
          leaving := startDay + ticket.s.leavingTime
          toStation := ticket.t.stationName
          arriving := startDay + ticket.t.arrivingTime
          price := ticket.cost
          seat := tpDaytrain.querySeat ticket.s.index (ticket.t.index - 1) }

/-- `query_ticket` on its parsed options. -/
def queryTicketWith (trains : TrainManagement) (args : TicketArgs) :
    Option TrainReply := do
  if ¬ (← isLegal (args.date ++ " 00:00")) then some (.tickets [])
  else if args.s = args.t then some (.tickets [])
  else
    let day ← TimeType.ofString (args.date ++ " 00:00")
    let ans1 := trains.stationsNamed args.s
    let ans2 := trains.stationsNamed args.t
    let tickets := matchStations day (ans1.length + ans2.length) ans1 ans2
    let tickets ← sort tickets 0 (tickets.length - 1)
      (if args.type = "time" then timeCmp else costCmp)
    let rows ← tickets.mapM (trains.ticketRow day)
    some (.tickets rows)

/-- `query_ticket`. -/
def queryTicket (trains : TrainManagement) (line : List String) :
    Option TrainReply :=
  trains.queryTicketWith (TicketArgs.ofLine line)

end TrainManagement

/-! ## Transfers -/

/-- The best transfer so far: `COST`, `TIME`, `FIRST_TIME` and the answer. -/
structure Transfer where
  cost : ℤ
  time : ℤ
  firstTime : ℤ
  output : Option (TicketRow × TicketRow)

/-- The three-key comparison of `query_transfer` for one order of the first
two keys.  In both orders the third key is only looked at when the first two
are equal. -/
def Transfer.improves (best : Transfer) (type : String)
    (cost time firstTime : ℤ) : Bool :=
  if type = "cost" then
    cost < best.cost ∨ (best.cost = cost ∧ time < best.time) ∨
      (best.cost = cost ∧ best.time = time ∧ firstTime < best.firstTime)
  else
    time < best.time ∨ (best.time = time ∧ cost < best.cost) ∨
      (best.cost = cost ∧ best.time = time ∧ firstTime < best.firstTime)

/-- The loop over both sorted station lists: the pairs of positions of the
stations where a change is possible; `n` bounds its iterations. -/
def commonStations : ℕ → List (String × ℕ) → List (String × ℕ) →
    List (ℕ × ℕ)
  | n + 1, (name1, k) :: starts, (name2, l) :: ends =>
      if name1 < name2 then commonStations n starts ((name2, l) :: ends)
      else if name2 < name1 then
        commonStations n ((name1, k) :: starts) ends
      else (k, l) :: commonStations n starts ends
  | _, _, _ => []

/-- The first day on which the second train can be boarded after the first
one arrives. -/
def fastStartDay (train1 train2 : Train) (startDay1 : TimeType)
    (k l : ℕ) : TimeType :=
  let sameDay := startDay1 + TimeType.getDate (train1.arrivingTimes k) -
    TimeType.getDate (train2.leavingTimes l)
  if TimeType.getTime (train1.arrivingTimes k) ≤
      TimeType.getTime (train2.leavingTimes l) then sameDay
  else sameDay + 1440

namespace TrainManagement

/-- One iteration of the innermost loop of `query_transfer`: change from
station `k` of the first train to station `l` of the second. -/
def tryTransfer (trains : TrainManagement) (type : String)
    (startDay1 : TimeType) (s1 t1 : Station) (train1 train2 : Train)
    (best : Transfer) (k l : ℕ) : Option Transfer :=
  let fastStartDay2 := fastStartDay train1 train2 startDay1 k l
  if t1.endSaleTime < fastStartDay2 then some best
  else
    let startDay2 := max fastStartDay2 t1.startSaleTime
    let cost := train1.priceSum k - s1.priceSum + t1.priceSum -
      train2.priceSum l
    let time := (startDay2 + t1.arrivingTime) - (startDay1 + s1.leavingTime)
    let firstTime := train1.arrivingTimes k - s1.leavingTime
    if best.improves type cost time firstTime then
      match trains.daytrainDatabase.searchKey ⟨train1.trainId, startDay1⟩,
        trains.daytrainDatabase.searchKey ⟨train2.trainId, startDay2⟩ with
      | f1 :: _, f2 :: _ =>
          some
            { cost := cost, time := time, firstTime := firstTime
              output := some
                ({ trainId := s1.trainId, fromStation := s1.stationName
                   leaving := startDay1 + s1.leavingTime
                   toStation := train1.stations k
                   arriving := startDay1 + train1.arrivingTimes k
                   price := train1.priceSum k - s1.priceSum
                   seat := f1.querySeat s1.index (k - 1) },
                 { trainId := t1.trainId, fromStation := train2.stations l
                   leaving := startDay2 + train2.leavingTimes l
                   toStation := t1.stationName
                   arriving := startDay2 + t1.arrivingTime
                   price := t1.priceSum - train2.priceSum l
                   seat := f2.querySeat l (t1.index - 1) }) }
      | _, _ => none
    else some best

/-- One iteration of the middle loop of `query_transfer`: the trains of the
two stations are given. -/
def tryTrains (trains : TrainManagement) (type : String) (day : TimeType)
    (s1 : Station) (train1 : Train) (best : Transfer) (t1 : Station) :
    Option Transfer :=
  if s1.trainId = t1.trainId then some best
  else
    match trains.trainDatabase.searchKey t1.trainId with
    | [] => none
    | train2 :: _ => do
        let starts := (loopRange (s1.index + 1) train1.stationNum).map
          fun k => (train1.stations k, k)
        let ends := (loopRange 1 (t1.index - 1)).map
          fun k => (train2.stations k, k)
        let starts ← sort starts 0 (starts.length - 1) stationCmp
        let ends ← sort ends 0 (ends.length - 1) stationCmp
        (commonStations (starts.length + ends.length) starts ends).foldlM
          (fun best kl => trains.tryTransfer type (s1.startDay day) s1 t1
            train1 train2 best kl.1 kl.2)
          best

/-- `query_transfer`. -/
def queryTransfer (trains : TrainManagement) (line : List String) :
    Option TrainReply := do
  let args := TicketArgs.ofLine line
  if ¬ (← isLegal (args.date ++ " 00:00")) then some (.transfer none)
  else if args.s = args.t then some (.transfer none)
  else
    let day ← TimeType.ofString (args.date ++ " 00:00")
    let ans1 := trains.stationsNamed args.s
    let ans2 := trains.stationsNamed args.t
    if ans1 = [] ∨ ans2 = [] then some (.transfer none)
    else
      let best ← ans1.foldlM
        (fun best s1 =>
          let startDay1 := s1.startDay day
          if startDay1 < s1.startSaleTime ∨ s1.endSaleTime < startDay1 then
            some best
          else
            match trains.trainDatabase.searchKey s1.trainId with
            | [] => none
            | train1 :: _ =>
                ans2.foldlM (trains.tryTrains args.type day s1 train1) best)
        ⟨maxInt, maxInt, maxInt, none⟩
      if best.firstTime ≠ maxInt then some (.transfer best.output)
      else some (.transfer none)

end TrainManagement

/-! ## Orders -/

structure BuyArgs where
  userName : String := ""
  trainId : String := ""
  date : String := ""
  num : ℤ
  fromStation : String := ""
  toStation : String := ""
  isPending : Bool := false
  deriving DecidableEq

/-- The branches of the option loop of `buy_ticket`. -/
def BuyArgs.readOption (args : BuyArgs) (opt : String) :
    Option (String → BuyArgs) :=
  if opt = "-u" then some fun v => { args with userName := v }
  else if opt = "-i" then some fun v => { args with trainId := v }
  else if opt = "-d" then some fun v => { args with date := v }
  else if opt = "-n" then some fun v => { args with num := stringToInt v }
  else if opt = "-f" then some fun v => { args with fromStation := v }
  else if opt = "-t" then some fun v => { args with toStation := v }
  else if opt = "-q" then some fun v =>
    { args with isPending := args.isPending || v == "true" }
  else none

/-- The options of `buy_ticket`; without an option for it, the number of
tickets is whatever its memory holds. -/
def BuyArgs.ofLine (uninit : ℤ) (line : List String) : BuyArgs :=
  parseOptions BuyArgs.readOption { num := uninit } line

structure RefundArgs where
  userName : String := ""
  x : ℤ := 1

/-- The branches of the option loop of `refund_ticket`. -/
def RefundArgs.readOption (args : RefundArgs) (opt : String) :
    Option (String → RefundArgs) :=
  if opt = "-u" then some fun v => { args with userName := v }
  else if opt = "-n" then some fun v => { args with x := stringToInt v }
  else none

def RefundArgs.ofLine (line : List String) : RefundArgs :=
  parseOptions RefundArgs.readOption {} line

/-- The loop of `buy_ticket` that looks for both stations and stops once it
has them. -/
def Train.findStations (train : Train) (fromStation toStation : String) :
    List ℕ → ℕ × ℕ → ℕ × ℕ
  | [], (s, t) => (s, t)
  | i :: is, (s, t) =>
      if s ≠ 0 ∧ t ≠ 0 then (s, t)
      else
        train.findStations fromStation toStation is
          (if train.stations i = fromStation then i else s,
            if train.stations i = toStation then i else t)

/-- The key of an order. -/
def Order.key (order : Order) : StringAny := ⟨order.userName, order.orderId⟩

/-- The key of the seats an order uses. -/
def Order.dayKey (order : Order) : StringAny :=
  ⟨order.trainId, order.startDay⟩

/-- The key under which an order waits. -/
def Order.pendingKey (order : Order) : StringIntInt :=
  ⟨order.trainId, order.startDay, order.orderId⟩

/-- The record of an order that waits. -/
def Order.toPending (order : Order) : PendingOrder where
  trainId := order.trainId
  userName := order.userName
  startDay := order.startDay
  num := order.num
  fromIndex := order.fromIndex
  toIndex := order.toIndex
  orderId := order.orderId

def PendingOrder.key (p : PendingOrder) : StringIntInt :=
  ⟨p.trainId, p.startDay, p.orderId⟩

def PendingOrder.orderKey (p : PendingOrder) : StringAny :=
  ⟨p.userName, p.orderId⟩

namespace TrainManagement

/-- The writes of `buy_ticket` for an order that gets its seats. -/
def sell (trains : TrainManagement) (newOrder : Order) (tp : DayTrain) :
    TrainManagement :=
  { trains with
    orderNum := newOrder.orderId
    daytrainDatabase := trains.daytrainDatabase.insertEntry newOrder.dayKey
      (tp.modifySeat newOrder.fromIndex (newOrder.toIndex - 1)
        (-newOrder.num))
    orderDatabase :=
      trains.orderDatabase.insertEntry newOrder.key newOrder }

/-- The writes of `buy_ticket` for an order that waits. -/
def queue (trains : TrainManagement) (newOrder : Order) : TrainManagement :=
  { trains with
    orderNum := newOrder.orderId
    orderDatabase := trains.orderDatabase.insertEntry newOrder.key newOrder
    pendingOrderDatabase := trains.pendingOrderDatabase.insertEntry
      newOrder.pendingKey newOrder.toPending }

/-- The part of `buy_ticket` after all checks: a new order either takes its
seats or waits.  The total is a product of two `int`s. -/
def placeOrder (trains : TrainManagement) (newOrder : Order)
    (tp : DayTrain) : TrainReply × TrainManagement :=
  if newOrder.num ≤
      tp.querySeat newOrder.fromIndex (newOrder.toIndex - 1) then
    (.bought (toInt32 (newOrder.num * newOrder.price)),
      trains.sell newOrder tp)
  else (.queue, trains.queue { newOrder with status := .pending })

/-- The order that `buy_ticket` builds. -/
def newOrder (trains : TrainManagement) (args : BuyArgs) (train : Train)
    (startDay : TimeType) (s t : ℕ) : Order where
  userName := args.userName
  trainId := args.trainId
  num := args.num
  price := train.priceSum t - train.priceSum s
  orderId := trains.orderNum + 1
  startDay := startDay
  leavingTime := train.leavingTimes s
  arrivingTime := train.arrivingTimes t
  status := .success
  fromIndex := s
  toIndex := t
  fromStation := train.stations s
  toStation := train.stations t

/-- `buy_ticket` on its parsed options. -/
def buyTicketWith (trains : TrainManagement)
    (accounts : AccountManagement) (args : BuyArgs) :
    Option (TrainReply × TrainManagement) :=
  if (accounts.loginPool.find? args.userName).isNone then
    some (.failure, trains)
  else
    match trains.trainDatabase.searchKey args.trainId with
    | [] => some (.failure, trains)
    | targetTrain :: _ =>
        if ¬ targetTrain.isReleased then some (.failure, trains)
        else if targetTrain.totalSeatNum < args.num then
          some (.failure, trains)
        else
          let (s, t) := targetTrain.findStations args.fromStation
            args.toStation (loopRange 1 targetTrain.stationNum) (0, 0)
          if s = 0 ∨ t = 0 ∨ t ≤ s then some (.failure, trains)
          else do
            let date ← TimeType.ofString (args.date ++ " 00:00")
            let startDay := date - TimeType.getDate (targetTrain.leavingTimes s)
            if startDay < targetTrain.startSaleDate ∨
                targetTrain.endSaleDate < startDay then
              some (.failure, trains)
            else
              match trains.daytrainDatabase.searchKey
                ⟨args.trainId, startDay⟩ with
              | [] => none
              | tp :: _ =>
                  if ¬ args.isPending ∧ tp.querySeat s (t - 1) < args.num
                  then some (.failure, trains)
                  else some (trains.placeOrder
                    (trains.newOrder args targetTrain startDay s t) tp)

/-- `buy_ticket`. -/
def buyTicket (trains : TrainManagement) (accounts : AccountManagement)
    (uninit : ℤ) (line : List String) :
    Option (TrainReply × TrainManagement) :=
  trains.buyTicketWith accounts (BuyArgs.ofLine uninit line)

/-- The orders of a user, newest first. -/
def userOrders (trains : TrainManagement) (userName : String) :
    Option (List Order) :=
  let orders := trains.orderDatabase.scanKey ⟨userName, 0⟩
    (stringAnyComparator 1)
  sort orders 0 (orders.length - 1) orderCmp

/-- `query_order`: the second token is the user. -/
def queryOrder (trains : TrainManagement) (accounts : AccountManagement)
    (line : List String) : Option TrainReply :=
  let userName := nthToken line 1
  if (accounts.loginPool.find? userName).isNone then some .failure
  else (trains.userOrders userName).map .orders

/-- What the promotion loop of `refund_ticket` works on: the seats in memory
and the two databases of orders. -/
structure Promotion where
  tpDaytrain : DayTrain
  orderDatabase : Index StringAny Order
  pendingOrderDatabase : Index StringIntInt PendingOrder

/-- The body of the promotion loop for a waiting order that fits: it takes
its seats, leaves the waiting list and becomes a success. -/
def Promotion.grant (st : Promotion) (p : PendingOrder) :
    Option Promotion :=
  match st.orderDatabase.searchKey p.orderKey with
  | [] => none
  | successOrder :: _ =>
      some
        { tpDaytrain := st.tpDaytrain.modifySeat p.fromIndex (p.toIndex - 1)
            (-p.num)
          pendingOrderDatabase := st.pendingOrderDatabase.deleteEntry p.key
          orderDatabase := st.orderDatabase.insertEntry p.orderKey
            { successOrder with status := .success } }

/-- The promotion loop of `refund_ticket`. -/
def promoteOrders (refundOrder : Order) :
    List PendingOrder → Promotion → Option Promotion
  | [], st => some st
  | p :: pendingOrders, st =>
      if refundOrder.toIndex < p.fromIndex ∨
          p.toIndex < refundOrder.fromIndex then
        promoteOrders refundOrder pendingOrders st
      else if p.num ≤ st.tpDaytrain.querySeat p.fromIndex (p.toIndex - 1)
      then (st.grant p).bind (promoteOrders refundOrder pendingOrders)
      else promoteOrders refundOrder pendingOrders st

/-- Write back what the promotion loop worked on. -/
def commit (trains : TrainManagement) (refundOrder : Order)
    (st : Promotion) : TrainManagement :=
  { trains with
    orderDatabase := st.orderDatabase
    pendingOrderDatabase := st.pendingOrderDatabase
    daytrainDatabase := trains.daytrainDatabase.insertEntry
      refundOrder.dayKey st.tpDaytrain }

/-- `refund_ticket` once the order to refund is known. -/
def refundOrder (trains : TrainManagement) (userName : String)
    (order : Order) : Option (TrainReply × TrainManagement) :=
  let orderDatabase := trains.orderDatabase.insertEntry
    ⟨userName, order.orderId⟩ { order with status := .refunded }
  if order.status = .pending then
    some (.success,
      { trains with
        orderDatabase := orderDatabase
        pendingOrderDatabase :=
          trains.pendingOrderDatabase.deleteEntry order.pendingKey })
  else
    match trains.daytrainDatabase.searchKey order.dayKey with
    | [] => none
    | daytrain :: _ => do
        let tpDaytrain := daytrain.modifySeat order.fromIndex
          (order.toIndex - 1) order.num
        let pendingOrders := trains.pendingOrderDatabase.scanKey
          order.pendingKey (stringIntIntComparator 1)
        let pendingOrders ← sort pendingOrders 0 (pendingOrders.length - 1)
          pendingOrderCmp
        let st ← promoteOrders order pendingOrders
          ⟨tpDaytrain, orderDatabase, trains.pendingOrderDatabase⟩
        some (.success, trains.commit order st)

/-- `refund_ticket` on its parsed options.  The order to refund is the `x`-th
newest of the user, counted from one. -/
def refundTicketWith (trains : TrainManagement)
    (accounts : AccountManagement) (args : RefundArgs) :
    Option (TrainReply × TrainManagement) :=
  if (accounts.loginPool.find? args.userName).isNone then
    some (.failure, trains)
  else do
    let orders ← trains.userOrders args.userName
    if orders = [] then some (.success, trains)
    else if (orders.length : ℤ) < args.x then some (.failure, trains)
    else
      let order ← atIndex orders (args.x - 1)
      if order.status = .refunded then some (.failure, trains)
      else trains.refundOrder args.userName order

/-- `refund_ticket`. -/
def refundTicket (trains : TrainManagement) (accounts : AccountManagement)
    (line : List String) : Option (TrainReply × TrainManagement) :=
  trains.refundTicketWith accounts (RefundArgs.ofLine line)

end TrainManagement

end TicketSystem.Backend
