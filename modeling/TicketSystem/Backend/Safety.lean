import TicketSystem.Backend.SortBounds
import TicketSystem.Backend.TicketQuery

/-!
# No command throws

The handlers read first elements of answers and entries of the login pool
without asking.  On well-formed commands every such read succeeds, in every
run: the train databases refer to each other in a way that every command
preserves, and the handlers of the accounts look before they read.
-/

namespace TicketSystem.Backend

open TicketSystem.Support
open TicketSystem.Database

/-! ## The login pool -/

namespace AccountManagement

/-- `login_pool.count`. -/
def poolCount (accounts : AccountManagement) (name : String) : Bool :=
  (accounts.loginPool.find? name).isSome

/-- `login_pool.at`, which throws where there is no entry. -/
def poolAt (accounts : AccountManagement) (name : String) : Option ℤ :=
  accounts.loginPool.find? name

/-- `login_pool.erase(login_pool.find(name))`, which throws at the end of the
map. -/
def poolErase (accounts : AccountManagement) (name : String) :
    Option AccountManagement :=
  (accounts.loginPool.find? name).map fun _ =>
    { accounts with loginPool := accounts.loginPool.erase name }

/-- `add_user` with its reads of the login pool. -/
def addUserReading (accounts : AccountManagement) (uninit : ℤ)
    (line : List String) : Option (AccountReply × AccountManagement) :=
  let args := parseOptions AccountArgs.readProfileOption
    { privilege := uninit } line
  let ans := accounts.userDatabase.searchKey args.username
  let register := fun privilege =>
    { accounts with
      userDatabase := accounts.userDatabase.insertEntry args.username
        { userName := args.username, name := args.name,
          mailAddr := args.mail, password := args.password,
          privilege := privilege } }
  if accounts.userDatabase.isEmpty then some (.success, register 10)
  else if ¬ accounts.poolCount args.cur then some (.failure, accounts)
  else do
    let curPrivilege ← accounts.poolAt args.cur
    if curPrivilege ≤ args.privilege ∨ ans ≠ [] then
      some (.failure, accounts)
    else some (.success, register args.privilege)

/-- `logout` with its access to the login pool. -/
def logoutReading (accounts : AccountManagement) (line : List String) :
    Option (AccountReply × AccountManagement) :=
  let username := nthToken line 1
  if ¬ accounts.poolCount username then some (.failure, accounts)
  else (accounts.poolErase username).map fun rest => (.success, rest)

/-- `modify_profile` with its reads of the login pool. -/
def modifyProfileReading (accounts : AccountManagement)
    (line : List String) : Option (AccountReply × AccountManagement) :=
  let args := parseOptions AccountArgs.readProfileOption
    { privilege := 0 } line
  match accounts.userDatabase.searchKey args.username with
  | [] => some (.failure, accounts)
  | u :: _ =>
      if ¬ accounts.poolCount args.cur then some (.failure, accounts)
      else do
        let first ← accounts.poolAt args.cur
        if first ≤ u.privilege ∧ args.cur ≠ args.username then
          some (.failure, accounts)
        else do
          let second ← accounts.poolAt args.cur
          if second ≤ args.privilege then some (.failure, accounts)
          else
            some (.profile (updatedUser u args),
              { accounts with
                userDatabase := accounts.userDatabase.insertEntry
                  args.username (updatedUser u args) })

/-- `query_profile` with its read of the login pool. -/
def queryProfileReading (accounts : AccountManagement)
    (line : List String) : Option AccountReply :=
  let args := parseOptions AccountArgs.readQueryOption
    { privilege := 0 } line
  match accounts.userDatabase.searchKey args.username with
  | [] => some .failure
  | u :: _ =>
      if ¬ accounts.poolCount args.cur then some .failure
      else do
        let curPrivilege ← accounts.poolAt args.cur
        if curPrivilege ≤ u.privilege ∧ args.cur ≠ args.username then
          some .failure
        else some (.profile u)

variable (accounts : AccountManagement)

/-- `add_user` only reads entries it has counted. -/
theorem addUserReading_eq (uninit : ℤ) (line : List String) :
    accounts.addUserReading uninit line =
      some (accounts.addUser uninit line) := by
  simp only [addUserReading, addUser, addUserWith, poolCount, poolAt]
  by_cases hempty : accounts.userDatabase.isEmpty
  · rw [if_pos hempty, if_pos hempty]
  · rw [if_neg hempty, if_neg hempty]
    cases hcur : accounts.loginPool.find? (parseOptions
        AccountArgs.readProfileOption { privilege := uninit } line).cur with
    | none => rfl
    | some curPrivilege =>
        simp only [Option.isSome_some, not_true_eq_false, if_false,
          Option.bind_eq_bind, Option.bind_some]
        split <;> rfl

theorem logoutReading_eq (line : List String) :
    accounts.logoutReading line = some (accounts.logout line) := by
  rw [logoutReading, logout]
  by_cases hname : (accounts.loginPool.find? (nthToken line 1)).isSome
  · obtain ⟨privilege, hprivilege⟩ := Option.isSome_iff_exists.mp hname
    simp [poolCount, poolErase, hprivilege]
  · simp [poolCount, Option.not_isSome_iff_eq_none.mp hname]

theorem modifyProfileReading_eq (line : List String) :
    accounts.modifyProfileReading line =
      some (accounts.modifyProfile line) := by
  rw [modifyProfileReading, modifyProfile, modifyProfileWith]
  generalize parseOptions AccountArgs.readProfileOption { privilege := 0 }
    line = args
  cases hans : accounts.userDatabase.searchKey args.username with
  | nil => rfl
  | cons u rest =>
      cases hcur : accounts.loginPool.find? args.cur with
      | none => simp [poolCount, hcur]
      | some curPrivilege =>
          simp only [poolCount, poolAt, hcur, Option.isSome_some,
            not_true_eq_false, if_false, Option.bind_eq_bind,
            Option.bind_some]
          by_cases hfirst : curPrivilege ≤ u.privilege ∧
              args.cur ≠ args.username
          · rw [if_pos hfirst, if_pos (Or.inl hfirst)]
          · rw [if_neg hfirst]
            simp only [hfirst, false_or]
            split <;> rfl

theorem queryProfileReading_eq (line : List String) :
    accounts.queryProfileReading line =
      some (accounts.queryProfile line) := by
  rw [queryProfileReading, queryProfile, queryProfileWith]
  generalize parseOptions AccountArgs.readQueryOption { privilege := 0 }
    line = args
  cases hans : accounts.userDatabase.searchKey args.username with
  | nil => rfl
  | cons u rest =>
      cases hcur : accounts.loginPool.find? args.cur with
      | none => simp [poolCount, hcur]
      | some curPrivilege =>
          simp only [poolCount, poolAt, hcur, Option.isSome_some,
            not_true_eq_false, if_false, Option.bind_eq_bind,
            Option.bind_some]
          split <;> rfl

end AccountManagement

/-- One iteration of the command loop, with the reads of the login pool. -/
def System.stepReading (system : System) (request : Request) :
    Option (Reply × System) :=
  let line := request.line
  match request.name with
  | .addUser =>
      (system.accounts.addUserReading request.uninit line).map
        system.withAccounts
  | .logout => (system.accounts.logoutReading line).map system.withAccounts
  | .queryProfile =>
      (system.accounts.queryProfileReading line).map
        fun r => (.account r, system)
  | .modifyProfile =>
      (system.accounts.modifyProfileReading line).map system.withAccounts
  | _ => system.step request

theorem System.stepReading_eq (system : System) (request : Request) :
    system.stepReading request = system.step request := by
  obtain ⟨name, line, uninit⟩ := request
  cases name
  case addUser =>
    simp [stepReading, step, AccountManagement.addUserReading_eq]
  case logout => simp [stepReading, step, AccountManagement.logoutReading_eq]
  case queryProfile =>
    simp [stepReading, step, AccountManagement.queryProfileReading_eq]
  case modifyProfile =>
    simp [stepReading, step, AccountManagement.modifyProfileReading_eq]
  all_goals rfl

/-! ## Well-formed commands -/

/-- A time of day `hh:mm`. -/
def isTime (s : String) : Bool :=
  match s.toList with
  | [h₁, h₂, ':', m₁, m₂] =>
      [h₁, h₂, m₁, m₂].all Char.isDigit &&
        stringToInt (String.ofList [h₁, h₂]) ≤ 23 &&
        stringToInt (String.ofList [m₁, m₂]) ≤ 59
  | _ => false

/-- The first and the last day of a sale window as they are written. -/
def TrainArgs.startSale (args : TrainArgs) : String :=
  nthToken (split args.saleDate '|') 0

def TrainArgs.endSale (args : TrainArgs) : String :=
  nthToken (split args.saleDate '|') 1

/-- A well-formed `add_train`: lists that match the number of stations, which
fits the arrays, and a sale window from a date to a date not before it. -/
structure TrainArgs.Admissible (args : TrainArgs) : Prop where
  one_le : 1 ≤ args.stationNum
  le_hundred : args.stationNum ≤ 100
  stations_length :
    ((split args.stations '|').length : ℤ) = args.stationNum
  prices_length :
    ((split args.prices '|').length : ℤ) = args.stationNum - 1
  travelTimes_length :
    ((split args.travelTimes '|').length : ℤ) = args.stationNum - 1
  stopOverTimes_length : 2 < args.stationNum →
    ((split args.stopOverTimes '|').length : ℤ) = args.stationNum - 2
  isTime_start : isTime args.startTime
  isDate_start : isDate 6 9 args.startSale
  isDate_end : isDate 6 9 args.endSale
  start_le_end : ∀ start ∈ TimeType.ofString (args.startSale ++ " 00:00"),
    ∀ finish ∈ TimeType.ofString (args.endSale ++ " 00:00"), start ≤ finish

instance (args : TrainArgs) : Decidable args.Admissible :=
  decidable_of_iff (1 ≤ args.stationNum ∧ args.stationNum ≤ 100 ∧
      ((split args.stations '|').length : ℤ) = args.stationNum ∧
      ((split args.prices '|').length : ℤ) = args.stationNum - 1 ∧
      ((split args.travelTimes '|').length : ℤ) = args.stationNum - 1 ∧
      (2 < args.stationNum →
        ((split args.stopOverTimes '|').length : ℤ) = args.stationNum - 2) ∧
      isTime args.startTime ∧ isDate 6 9 args.startSale ∧
      isDate 6 9 args.endSale ∧
      ∀ start ∈ TimeType.ofString (args.startSale ++ " 00:00"),
        ∀ finish ∈ TimeType.ofString (args.endSale ++ " 00:00"),
          start ≤ finish)
    ⟨fun ⟨h₁, h₂, h₃, h₄, h₅, h₆, h₇, h₈, h₉, h₁₀⟩ =>
        ⟨h₁, h₂, h₃, h₄, h₅, h₆, h₇, h₈, h₉, h₁₀⟩,
      fun ⟨h₁, h₂, h₃, h₄, h₅, h₆, h₇, h₈, h₉, h₁₀⟩ =>
        ⟨h₁, h₂, h₃, h₄, h₅, h₆, h₇, h₈, h₉, h₁₀⟩⟩

/-- The options of `query_train`: the train and the date. -/
def queryTrainArgs (line : List String) : String × String :=
  parseOptions
    (fun (args : String × String) opt =>
      if opt = "-i" then some fun v => (v, args.2)
      else some fun v => (args.1, v)) ("", "") line

/-- The arguments of a command are well formed: dates are in June to
September, sale windows are in order, lists are as long as they should be and
orders are counted from one. -/
def Request.Admissible (request : Request) : Prop :=
  match request.name with
  | .addTrain => (TrainArgs.ofLine request.line).Admissible
  | .queryTrain => isDate 6 9 (queryTrainArgs request.line).2
  | .queryTicket | .queryTransfer =>
      isDate 6 9 (TicketArgs.ofLine request.line).date
  | .buyTicket =>
      isDate 6 9 (BuyArgs.ofLine request.uninit request.line).date
  | .refundTicket => 1 ≤ (RefundArgs.ofLine request.line).x
  | _ => True

instance (request : Request) : Decidable request.Admissible :=
  match request with
  | ⟨.addTrain, line, _⟩ =>
      inferInstanceAs (Decidable (TrainArgs.ofLine line).Admissible)
  | ⟨.queryTrain, line, _⟩ =>
      inferInstanceAs (Decidable (isDate 6 9 (queryTrainArgs line).2 = true))
  | ⟨.queryTicket, line, _⟩ | ⟨.queryTransfer, line, _⟩ =>
      inferInstanceAs (Decidable (isDate 6 9 (TicketArgs.ofLine line).date = true))
  | ⟨.buyTicket, line, uninit⟩ =>
      inferInstanceAs
        (Decidable (isDate 6 9 (BuyArgs.ofLine uninit line).date = true))
  | ⟨.refundTicket, line, _⟩ =>
      inferInstanceAs (Decidable (1 ≤ (RefundArgs.ofLine line).x))
  | ⟨.addUser, _, _⟩ | ⟨.login, _, _⟩ | ⟨.logout, _, _⟩ | ⟨.queryProfile, _, _⟩
  | ⟨.modifyProfile, _, _⟩ | ⟨.releaseTrain, _, _⟩ | ⟨.deleteTrain, _, _⟩
  | ⟨.queryOrder, _, _⟩ | ⟨.rollback, _, _⟩ | ⟨.clean, _, _⟩
  | ⟨.exit, _, _⟩ => isTrue trivial

theorem isTime_cases {s : String} (h : isTime s) :
    ∃ h₁ h₂ m₁ m₂, s.toList = [h₁, h₂, ':', m₁, m₂] := by
  unfold isTime at h
  split at h
  next h₁ h₂ m₁ m₂ hs => exact ⟨h₁, h₂, m₁, m₂, hs⟩
  next => cases h

/-- How a time of day is read. -/
theorem TimeType.ofString_time {s : String} {h₁ h₂ m₁ m₂ : Char}
    (hs : s.toList = [h₁, h₂, ':', m₁, m₂]) :
    TimeType.ofString ("06-01 " ++ s) =
      some (stringToInt (String.ofList [h₁, h₂]) * 60 +
        stringToInt (String.ofList [m₁, m₂])) := by
  have hlist : ("06-01 " ++ s).toList =
      ['0', '6', '-', '0', '1', ' ', h₁, h₂, ':', m₁, m₂] := by
    rw [String.toList_append, hs]
    rfl
  have hlen : ("06-01 " ++ s).length = 11 := by
    rw [← String.length_toList, hlist]
    rfl
  have hmonth : substr ("06-01 " ++ s) 0 2 = some "06" := by
    rw [substr, hlen, hlist]
    rfl
  have hday : substr ("06-01 " ++ s) 3 2 = some "01" := by
    rw [substr, hlen, hlist]
    rfl
  have hhour : substr ("06-01 " ++ s) 6 2 = some (String.ofList [h₁, h₂]) := by
    rw [substr, hlen, hlist]
    rfl
  have hmin : substr ("06-01 " ++ s) 9 2 = some (String.ofList [m₁, m₂]) := by
    rw [substr, hlen, hlist]
    rfl
  simp only [TimeType.ofString, hmonth, hday, hhour, hmin,
    Option.bind_eq_bind, Option.bind_some]
  rw [if_neg (by decide)]
  have hfirst : ((Month.take (stringToInt "06" - 6).toNat).map
      (· * 1440)).sum + (stringToInt "01" - 1) * 1440 = 0 := by
    decide
  rw [hfirst, zero_add]

/-- A time of day can be read. -/
theorem TimeType.exists_ofString_time {s : String} (h : isTime s) :
    ∃ t, TimeType.ofString ("06-01 " ++ s) = some t := by
  obtain ⟨h₁, h₂, m₁, m₂, hs⟩ := isTime_cases h
  exact ⟨_, TimeType.ofString_time hs⟩

/-- A well-formed `add_train` builds a train with a sale window. -/
theorem TrainArgs.Admissible.exists_make {args : TrainArgs}
    (h : args.Admissible) :
    ∃ train, Train.make args.trainId args.stationNum.toNat args.seatNum
        args.stations args.prices args.startTime args.travelTimes
        args.stopOverTimes args.saleDate args.type = some train ∧
      train.startSaleDate ≤ train.endSaleDate := by
  obtain ⟨startTime, hstartTime⟩ :=
    TimeType.exists_ofString_time h.isTime_start
  obtain ⟨start, hstart⟩ := TimeType.exists_ofString h.isDate_start
  obtain ⟨finish, hfinish⟩ := TimeType.exists_ofString h.isDate_end
  have hle := h.start_le_end start hstart finish hfinish
  rw [TrainArgs.startSale] at hstart
  rw [TrainArgs.endSale] at hfinish
  simp only [Train.make, hstartTime, hstart, hfinish, Option.bind_eq_bind,
    Option.bind_some]
  exact ⟨_, rfl, hle⟩

/-! ## What the train handlers rely on -/

/-- The values that a scan hands out are stored. -/
theorem exists_find?_of_mem_scanKey {K V : Type} [LinearOrder K]
    {index : Index K V} {key : K} {standbyComparator : K → K → ℤ}
    {value : V} (h : value ∈ index.scanKey key standbyComparator) :
    ∃ k, standbyComparator key k = 0 ∧
      index.map.find? k = some value := by
  rw [Index.scanKey, List.mem_map] at h
  obtain ⟨⟨k, v⟩, hmem, rfl⟩ := h
  have hzero := List.mem_takeWhile_imp hmem
  refine ⟨k, of_decide_eq_true hzero, ?_⟩
  exact SortedMap.find?_eq_some_iff.mpr
    ((SortedMap.scan_sublist _ _ _).subset hmem)

/-- An insertion keeps all keys. -/
theorem isSome_insertEntry {K V : Type} [LinearOrder K] {index : Index K V}
    {key : K} (k : K) (v : V) (h : (index.map.find? key).isSome) :
    ((index.insertEntry k v).map.find? key).isSome := by
  rw [Index.map_insertEntry, SortedMap.find?_insert]
  split_ifs
  · rfl
  · exact h

/-- What holds of the new value and of all values that were stored holds of
all values after an insertion. -/
theorem forall_find?_insertEntry {K V : Type} [LinearOrder K]
    {index : Index K V} {P : V → Prop} {k : K} {v : V} (hnew : P v)
    (hold : ∀ key value, index.map.find? key = some value → P value) :
    ∀ key value, (index.insertEntry k v).map.find? key = some value →
      P value := by
  intro key value hfind
  rw [Index.map_insertEntry, SortedMap.find?_insert] at hfind
  split_ifs at hfind
  · rw [← Option.some.inj hfind]
    exact hnew
  · exact hold key value hfind

/-- What holds of all stored values holds of those that a deletion leaves. -/
theorem forall_find?_deleteEntry {K V : Type} [LinearOrder K]
    {index : Index K V} {P : V → Prop} {k : K}
    (hold : ∀ key value, index.map.find? key = some value → P value) :
    ∀ key value, (index.deleteEntry k).map.find? key = some value →
      P value := by
  intro key value hfind
  rw [Index.map_deleteEntry, SortedMap.find?_erase] at hfind
  split_ifs at hfind
  exact hold key value hfind

namespace TrainManagement

/-- The train databases refer to each other only where there is an entry: a
station to its train, the sale window to its days, an order to its day and a
waiting order to its order. -/
structure Referenced (trains : TrainManagement) : Prop where
  train_sound : ∀ trainId train,
    trains.trainDatabase.map.find? trainId = some train →
      train.trainId = trainId ∧ 1440 ∣ train.startSaleDate ∧
        train.startSaleDate ≤ train.endSaleDate
  station_train : ∀ key station,
    trains.stationDatabase.map.find? key = some station →
      station.trainId = key.secondStr ∧
        ∃ train, trains.Released key.secondStr train ∧
          station.startSaleTime = train.startSaleDate ∧
          station.endSaleTime = train.endSaleDate
  daytrain_isSome : ∀ trainId train, trains.Released trainId train →
    ∀ day ∈ saleDays train.startSaleDate train.endSaleDate,
      (trains.daytrainDatabase.map.find? ⟨trainId, day⟩).isSome
  order_day : ∀ key order,
    trains.orderDatabase.map.find? key = some order →
      (trains.daytrainDatabase.map.find? order.dayKey).isSome
  pending_order : ∀ key p,
    trains.pendingOrderDatabase.map.find? key = some p →
      (trains.orderDatabase.map.find? p.orderKey).isSome

variable {trains trains' : TrainManagement}

theorem referenced_of_empty
    (htrains : trains.trainDatabase.map = SortedMap.empty)
    (hstations : trains.stationDatabase.map = SortedMap.empty)
    (horders : trains.orderDatabase.map = SortedMap.empty)
    (hpendings : trains.pendingOrderDatabase.map = SortedMap.empty) :
    trains.Referenced where
  train_sound trainId train hfind := by simp [htrains] at hfind
  station_train key station hfind := by simp [hstations] at hfind
  daytrain_isSome trainId train hrel := by
    have hfind := hrel.1
    simp [htrains] at hfind
  order_day key order hfind := by simp [horders] at hfind
  pending_order key p hfind := by simp [hpendings] at hfind

namespace Referenced

/-- A whole day inside the sale window of a released train has seats. -/
theorem exists_daytrain (h : trains.Referenced) {trainId : String}
    {train : Train} (hrel : trains.Released trainId train) {day : TimeType}
    (hday : 1440 ∣ day) (hle : train.startSaleDate ≤ day)
    (hge : day ≤ train.endSaleDate) :
    ∃ d, trains.daytrainDatabase.map.find? ⟨trainId, day⟩ = some d := by
  apply Option.isSome_iff_exists.mp
  apply h.daytrain_isSome trainId train hrel day
  have hstart := (h.train_sound trainId train hrel.1).2.1
  exact mem_saleDays.mpr ⟨hle, hge, hday.sub hstart⟩

/-- Trains may come and go as long as the released ones stay. -/
theorem of_released_iff (h : trains.Referenced)
    (hsound : ∀ trainId train,
      trains'.trainDatabase.map.find? trainId = some train →
        train.trainId = trainId ∧ 1440 ∣ train.startSaleDate ∧
          train.startSaleDate ≤ train.endSaleDate)
    (hreleased : ∀ trainId train, trains'.Released trainId train ↔
      trains.Released trainId train)
    (hrest : trains' =
      { trains with trainDatabase := trains'.trainDatabase }) :
    trains'.Referenced := by
  rw [hrest] at hreleased ⊢
  rw [hrest] at hsound
  exact
    { train_sound := hsound
      station_train := by simpa only [hreleased] using h.station_train
      daytrain_isSome := by simpa only [hreleased] using h.daytrain_isSome
      order_day := h.order_day
      pending_order := h.pending_order }

/-- Orders may be set as long as days and orders stay where they are, a new
order has a day and a waiting order has an order. -/
theorem of_orders (h : trains.Referenced) (trains' : TrainManagement)
    (htrains : trains'.trainDatabase = trains.trainDatabase)
    (hstations : trains'.stationDatabase = trains.stationDatabase)
    (hdays : ∀ key, (trains.daytrainDatabase.map.find? key).isSome →
      (trains'.daytrainDatabase.map.find? key).isSome)
    (horders : ∀ key order,
      trains'.orderDatabase.map.find? key = some order →
        (trains'.daytrainDatabase.map.find? order.dayKey).isSome)
    (hpendings : ∀ key p,
      trains'.pendingOrderDatabase.map.find? key = some p →
        (trains'.orderDatabase.map.find? p.orderKey).isSome) :
    trains'.Referenced := by
  have hrel : ∀ trainId train, trains'.Released trainId train ↔
      trains.Released trainId train := by
    intro trainId train
    rw [Released, htrains, Released]
  constructor
  case train_sound =>
    rw [htrains]
    exact h.train_sound
  case station_train => simpa only [hrel, hstations] using h.station_train
  case daytrain_isSome =>
    intro trainId train hreleased day hday
    apply hdays
    exact h.daytrain_isSome trainId train ((hrel _ _).mp hreleased) day hday
  case order_day => exact horders
  case pending_order => exact hpendings

end Referenced

/-! ## Every handler of the trains returns -/

theorem addTrainWith_total (h : trains.Referenced) {args : TrainArgs}
    (hok : args.Admissible) :
    ∃ reply trains', trains.addTrainWith args = some (reply, trains') ∧
      trains'.Referenced := by
  obtain ⟨newTrain, hmake, hwindow⟩ := hok.exists_make
  cases hfind : trains.trainDatabase.map.find? args.trainId with
  | some train =>
      refine ⟨.failure, trains, ?_, h⟩
      rw [addTrainWith, Index.searchKey_of_find? hfind]
      simp
  | none =>
      have hrange : ¬ (args.stationNum < 1 ∨ 100 < args.stationNum) := by
        have hone := hok.one_le
        have hhundred := hok.le_hundred
        omega
      obtain ⟨htid, -, -, hunreleased, -⟩ := Train.make_eq_some hmake
      refine ⟨.success, _, ?_, h.of_released_iff ?_
        (released_insertEntry_iff hfind hunreleased) rfl⟩
      · rw [addTrainWith, Index.searchKey_of_find? hfind, hmake,
          if_neg hrange]
        simp
      · intro trainId train hfind'
        simp only [Index.map_insertEntry, SortedMap.find?_insert] at hfind'
        by_cases heq : trainId = args.trainId
        · rw [if_pos heq] at hfind'
          obtain rfl := Option.some.inj hfind'
          refine ⟨by rw [htid, heq], ?_, hwindow⟩
          exact Train.dvd_startSaleDate_of_make hmake
            (length_eq_of_isDate hok.isDate_start)
        · rw [if_neg heq] at hfind'
          exact h.train_sound trainId train hfind'

theorem referenced_deleteTrain (h : trains.Referenced)
    (line : List String) : (trains.deleteTrain line).2.Referenced := by
  rcases deleteTrain_cases trains line with
    hsame | ⟨trainId, train, hfind, hunreleased, hdel⟩
  · rw [hsame]
    exact h
  rw [hdel]
  apply h.of_released_iff _ (released_deleteEntry_iff hfind hunreleased) rfl
  intro trainId' train' hfind'
  simp only [Index.map_deleteEntry, SortedMap.find?_erase] at hfind'
  by_cases heq : trainId' = trainId
  · rw [if_pos heq] at hfind'
    cases hfind'
  · rw [if_neg heq] at hfind'
    exact h.train_sound trainId' train' hfind'

theorem referenced_release (h : trains.Referenced) {trainId : String}
    {train : Train}
    (hfind : trains.trainDatabase.map.find? trainId = some train)
    (hunreleased : train.isReleased = false) :
    (trains.release trainId train).Referenced := by
  have hnot := not_released hfind hunreleased
  have hrel := @released_release_iff trains trainId train
  have hsound := h.train_sound trainId train hfind
  have hdays : ∀ key,
      (trains.release trainId train).daytrainDatabase.map.find? key =
        if key.dataStr = trainId ∧
            key.dataT ∈ saleDays train.startSaleDate train.endSaleDate then
          some (DayTrain.full train)
        else trains.daytrainDatabase.map.find? key :=
    fun key => find?_insertDays _ _ _ _ key
  constructor
  case train_sound =>
    intro tid tr hfind'
    simp only [release, Index.map_insertEntry, SortedMap.find?_insert]
      at hfind'
    by_cases htid : tid = trainId
    · rw [if_pos htid] at hfind'
      obtain rfl := Option.some.inj hfind'
      rw [htid]
      exact hsound
    · rw [if_neg htid] at hfind'
      exact h.train_sound tid tr hfind'
  case station_train =>
    intro key station hstation
    simp only [hrel]
    rcases find?_insertStations_cases hstation with ⟨hkey, i, rfl⟩ | hold
    · refine ⟨hkey.symm, { train with isReleased := true }, ?_, rfl, rfl⟩
      rw [if_pos hkey]
    · obtain ⟨htid, tr, hrel', hstart, hend⟩ :=
        h.station_train key station hold
      refine ⟨htid, tr, ?_, hstart, hend⟩
      rw [if_neg]
      · exact hrel'
      · intro hkey
        rw [hkey] at hrel'
        exact hnot tr hrel'
  case daytrain_isSome =>
    intro tid tr hrel' day hday
    rw [hrel] at hrel'
    rw [hdays]
    by_cases htid : tid = trainId
    · rw [if_pos htid] at hrel'
      subst hrel'
      rw [if_pos ⟨htid, hday⟩]
      rfl
    · rw [if_neg htid] at hrel'
      rw [if_neg fun hc => htid hc.1]
      exact h.daytrain_isSome tid tr hrel' day hday
  case order_day =>
    intro key order horder
    rw [hdays]
    split
    next => rfl
    next => exact h.order_day key order horder
  case pending_order => exact h.pending_order

theorem referenced_releaseTrain (h : trains.Referenced)
    (line : List String) : (trains.releaseTrain line).2.Referenced := by
  rcases releaseTrain_cases trains line with
    hsame | ⟨trainId, train, hfind, hunreleased, hrel⟩
  · rw [hsame]
    exact h
  · rw [hrel]
    exact referenced_release h hfind hunreleased

/-- `query_train` finds the seats of every day of the sale window. -/
theorem queryTrain_total (h : trains.Referenced) {line : List String}
    (hok : isDate 6 9 (queryTrainArgs line).2) :
    ∃ reply, trains.queryTrain line = some reply := by
  cases hargs : queryTrainArgs line with
  | mk trainId date =>
      rw [hargs] at hok
      obtain ⟨day, hday⟩ := TimeType.exists_ofString hok
      have hdvd := TimeType.dvd_ofString (length_eq_of_isDate hok) hday
      rw [queryTrainArgs] at hargs
      simp only [queryTrain, hargs, isLegal_of_isDate hok, hday,
        Option.bind_eq_bind, Option.bind_some]
      split_ifs with hlegal
      swap
      · exact ⟨_, rfl⟩
      cases hfind : trains.trainDatabase.map.find? trainId with
      | none =>
          rw [Index.searchKey_of_find? hfind]
          exact ⟨_, rfl⟩
      | some train =>
          rw [Index.searchKey_of_find? hfind]
          simp only [Option.toList_some]
          by_cases hwindow :
              day < train.startSaleDate ∨ train.endSaleDate < day
          · rw [if_pos hwindow]
            exact ⟨_, rfl⟩
          rw [if_neg hwindow]
          by_cases hreleased : train.isReleased
          · rw [not_or, not_lt, not_lt] at hwindow
            obtain ⟨d, hd⟩ := h.exists_daytrain ⟨hfind, hreleased⟩ hdvd
              hwindow.1 hwindow.2
            rw [if_neg (not_not.mpr hreleased), Index.searchKey_of_find? hd]
            exact ⟨_, rfl⟩
          · rw [if_pos hreleased]
            exact ⟨_, rfl⟩

/-- The stations of one name are stored under it. -/
theorem Referenced.station_of_mem (h : trains.Referenced) {name : String}
    {station : Station} (hmem : station ∈ trains.stationsNamed name) :
    ∃ train, trains.Released station.trainId train ∧
      station.startSaleTime = train.startSaleDate ∧
      station.endSaleTime = train.endSaleDate := by
  obtain ⟨key, -, hfind⟩ := exists_find?_of_mem_scanKey hmem
  obtain ⟨htid, hrest⟩ := h.station_train key station hfind
  rw [htid]
  exact hrest

/-- The stations of a matched ticket come from both lists, and the first of
them is left on a day of its sale window. -/
theorem of_mem_matchStations {day : TimeType} {n : ℕ}
    {ans1 ans2 : List Station} {ticket : Ticket}
    (hmem : ticket ∈ matchStations day n ans1 ans2) :
    ticket.s ∈ ans1 ∧ ticket.s.startSaleTime ≤ ticket.s.startDay day ∧
      ticket.s.startDay day ≤ ticket.s.endSaleTime := by
  induction n generalizing ans1 ans2 with
  | zero => simp [matchStations] at hmem
  | succ n ih =>
      cases ans1 with
      | nil => simp [matchStations] at hmem
      | cons s1 ans1 =>
          cases ans2 with
          | nil => simp [matchStations] at hmem
          | cons t1 ans2 =>
              have hlater : ∀ {rest}, ticket ∈ matchStations day n ans1 rest →
                  ticket.s ∈ s1 :: ans1 ∧
                    ticket.s.startSaleTime ≤ ticket.s.startDay day ∧
                    ticket.s.startDay day ≤ ticket.s.endSaleTime := by
                intro rest hrest
                obtain ⟨hs, hwindow⟩ := ih hrest
                exact ⟨List.mem_cons_of_mem s1 hs, hwindow⟩
              rw [matchStations] at hmem
              split_ifs at hmem with hlt hgt hidx hwin
              · exact hlater hmem
              · exact ih hmem
              · exact hlater hmem
              · rcases List.mem_cons.mp hmem with rfl | hmem
                · exact ⟨List.mem_cons_self, hwin⟩
                · exact hlater hmem
              · exact hlater hmem

/-- `query_ticket` finds the seats of every ticket it lists. -/
theorem queryTicketWith_total (h : trains.Referenced) {args : TicketArgs}
    (hok : isDate 6 9 args.date) :
    ∃ reply, trains.queryTicketWith args = some reply := by
  obtain ⟨day, hday⟩ := TimeType.exists_ofString hok
  have hdvd := TimeType.dvd_ofString (length_eq_of_isDate hok) hday
  have hcmp : StrictWeakOrder
      (if args.type = "time" then timeCmp else costCmp) := by
    split_ifs
    · exact timeCmp_strictWeakOrder
    · exact costCmp_strictWeakOrder
  rw [queryTicketWith]
  generalize (if args.type = "time" then timeCmp else costCmp) = cmp
    at hcmp ⊢
  simp only [isLegal_of_isDate hok, hday, Option.bind_eq_bind,
    Option.bind_some]
  split_ifs with hlegal hsame
  · exact ⟨_, rfl⟩
  swap
  · exact ⟨_, rfl⟩
  obtain ⟨tickets, hsort, hperm, -⟩ := sort_spec hcmp
    (matchStations day ((trains.stationsNamed args.s).length +
      (trains.stationsNamed args.t).length) (trains.stationsNamed args.s)
      (trains.stationsNamed args.t))
  obtain ⟨rows, hrows, -⟩ := exists_mapM_eq_some (f := trains.ticketRow day)
    tickets fun ticket hticket => by
      obtain ⟨hs, hle, hge⟩ := of_mem_matchStations (hperm.mem_iff.mp hticket)
      obtain ⟨train, hrel, hstart, hend⟩ := h.station_of_mem hs
      obtain ⟨d, hd⟩ := h.exists_daytrain hrel
        (hdvd.sub (TimeType.dvd_getDate ticket.s.leavingTime))
        (hstart ▸ hle) (hend ▸ hge)
      rw [← Station.startDay] at hd
      rw [ticketRow, Index.searchKey_of_find? hd]
      exact ⟨_, rfl⟩
  rw [hsort, Option.bind_some, hrows]
  exact ⟨_, rfl⟩

/-- A loop over a list returns when its body does. -/
theorem exists_foldlM {α β : Type} {f : β → α → Option β} (xs : List α)
    (h : ∀ x ∈ xs, ∀ b, ∃ b', f b x = some b') (b : β) :
    ∃ b', xs.foldlM f b = some b' := by
  induction xs generalizing b with
  | nil => exact ⟨b, rfl⟩
  | cons x xs ih =>
      obtain ⟨b', hb'⟩ := h x List.mem_cons_self b
      rw [List.foldlM_cons, hb']
      exact ih (fun x' hx' => h x' (List.mem_cons_of_mem x hx')) b'

theorem exists_foldlM_bind {α β γ : Type} {f : β → α → Option β}
    {g : β → Option γ} {xs : List α} {b : β}
    (hf : ∀ x ∈ xs, ∀ b, ∃ b', f b x = some b')
    (hg : ∀ b, ∃ c, g b = some c) :
    ∃ c, (xs.foldlM f b).bind g = some c := by
  obtain ⟨b', hb'⟩ := exists_foldlM xs hf b
  rw [hb']
  exact hg b'

/-- A change of trains is on whole days. -/
theorem dvd_fastStartDay {train1 train2 : Train} {startDay1 : TimeType}
    (h : 1440 ∣ startDay1) (k l : ℕ) :
    1440 ∣ fastStartDay train1 train2 startDay1 k l := by
  have hsame : 1440 ∣ startDay1 +
      TimeType.getDate (train1.arrivingTimes k) -
        TimeType.getDate (train2.leavingTimes l) :=
    (h.add (TimeType.dvd_getDate _)).sub (TimeType.dvd_getDate _)
  rw [fastStartDay]
  split_ifs
  · exact hsame
  · exact hsame.add (dvd_refl 1440)

theorem tryTransfer_total (h : trains.Referenced) {type : String}
    {startDay1 : TimeType} {s1 t1 : Station} {train1 train2 : Train}
    (hrel1 : trains.Released s1.trainId train1)
    (hrel2 : trains.Released t1.trainId train2)
    (hdvd : 1440 ∣ startDay1) (hle : train1.startSaleDate ≤ startDay1)
    (hge : startDay1 ≤ train1.endSaleDate)
    (hstart : t1.startSaleTime = train2.startSaleDate)
    (hend : t1.endSaleTime = train2.endSaleDate) (best : Transfer)
    (k l : ℕ) :
    ∃ best', trains.tryTransfer type startDay1 s1 t1 train1 train2 best k l =
      some best' := by
  rw [tryTransfer]
  have hfast := @dvd_fastStartDay train1 train2 startDay1 hdvd k l
  generalize fastStartDay train1 train2 startDay1 k l = fast at hfast ⊢
  by_cases hlate : t1.endSaleTime < fast
  · rw [if_pos hlate]
    exact ⟨best, rfl⟩
  rw [if_neg hlate]
  simp only
  split_ifs
  swap
  · exact ⟨best, rfl⟩
  obtain ⟨htid1, -, -⟩ := h.train_sound _ _ hrel1.1
  obtain ⟨htid2, hdvd2, hwindow2⟩ := h.train_sound _ _ hrel2.1
  obtain ⟨f1, hf1⟩ := h.exists_daytrain hrel1 hdvd hle hge
  obtain ⟨f2, hf2⟩ : ∃ f2, trains.daytrainDatabase.map.find?
      ⟨t1.trainId, max fast t1.startSaleTime⟩ = some f2 := by
    apply h.exists_daytrain hrel2
    · rcases max_cases fast t1.startSaleTime with ⟨hmax, -⟩ | ⟨hmax, -⟩
      · rw [hmax]
        exact hfast
      · rw [hmax, hstart]
        exact hdvd2
    · rw [hstart]
      exact le_max_right _ _
    · apply max_le
      · rw [← hend]
        exact not_lt.mp hlate
      · rw [hstart]
        exact hwindow2
  rw [htid1, htid2, Index.searchKey_of_find? hf1, Index.searchKey_of_find? hf2]
  exact ⟨_, rfl⟩

theorem tryTrains_total (h : trains.Referenced) {type : String}
    {day : TimeType} {s1 t1 : Station} {train1 : Train} {name : String}
    (hrel1 : trains.Released s1.trainId train1) (hday : 1440 ∣ day)
    (hle : train1.startSaleDate ≤ s1.startDay day)
    (hge : s1.startDay day ≤ train1.endSaleDate)
    (ht1 : t1 ∈ trains.stationsNamed name) (best : Transfer) :
    ∃ best', trains.tryTrains type day s1 train1 best t1 = some best' := by
  obtain ⟨train2, hrel2, hstart, hend⟩ := h.station_of_mem ht1
  rw [tryTrains, Index.searchKey_of_find? hrel2.1]
  split_ifs
  · exact ⟨best, rfl⟩
  simp only [Option.toList_some]
  obtain ⟨starts, hstarts, -⟩ := sort_spec stationCmp_strictWeakOrder
    ((loopRange (s1.index + 1) train1.stationNum).map
      fun k => (train1.stations k, k))
  obtain ⟨ends, hends, -⟩ := sort_spec stationCmp_strictWeakOrder
    ((loopRange 1 (t1.index - 1)).map fun k => (train2.stations k, k))
  simp only [hstarts, hends, Option.bind_eq_bind, Option.bind_some]
  apply exists_foldlM
  intro kl _ best
  exact tryTransfer_total h hrel1 hrel2
    (hday.sub (TimeType.dvd_getDate _)) hle hge hstart hend best kl.1 kl.2

/-- `query_transfer` finds the trains of all stations and the seats of both
days. -/
theorem queryTransfer_total (h : trains.Referenced) {line : List String}
    (hok : isDate 6 9 (TicketArgs.ofLine line).date) :
    ∃ reply, trains.queryTransfer line = some reply := by
  obtain ⟨day, hday⟩ := TimeType.exists_ofString hok
  have hdvd := TimeType.dvd_ofString (length_eq_of_isDate hok) hday
  simp only [queryTransfer, isLegal_of_isDate hok, hday,
    Option.bind_eq_bind, Option.bind_some]
  split_ifs with hlegal hsame hnil
  · exact ⟨_, rfl⟩
  · exact ⟨_, rfl⟩
  swap
  · exact ⟨_, rfl⟩
  apply exists_foldlM_bind
  · intro s1 hs1 best
    obtain ⟨train1, hrel1, hstart, hend⟩ := h.station_of_mem hs1
    by_cases hwindow : s1.startDay day < s1.startSaleTime ∨
        s1.endSaleTime < s1.startDay day
    · rw [if_pos hwindow]
      exact ⟨best, rfl⟩
    · rw [if_neg hwindow, Index.searchKey_of_find? hrel1.1]
      rw [not_or, not_lt, not_lt, hstart, hend] at hwindow
      apply exists_foldlM
      intro t1 ht1 best
      exact tryTrains_total h hrel1 hdvd hwindow.1 hwindow.2 ht1 best
  · intro best
    split_ifs
    · exact ⟨_, rfl⟩
    · exact ⟨_, rfl⟩

/-! ## Buying and refunding -/

theorem referenced_placeOrder (h : trains.Referenced) {order : Order}
    {d : DayTrain}
    (hd : trains.daytrainDatabase.map.find? order.dayKey = some d) :
    (trains.placeOrder order d).2.Referenced := by
  rw [placeOrder]
  split_ifs
  · have hdays : ∀ key, (trains.daytrainDatabase.map.find? key).isSome →
        ((trains.sell order d).daytrainDatabase.map.find? key).isSome :=
      fun key hkey => isSome_insertEntry _ _ hkey
    refine h.of_orders (trains.sell order d) rfl rfl hdays ?_ ?_
    · apply forall_find?_insertEntry
      · exact hdays _ (by rw [hd]; rfl)
      · exact fun key o ho => hdays _ (h.order_day key o ho)
    · exact fun key p hp => isSome_insertEntry _ _ (h.pending_order key p hp)
  · refine h.of_orders (trains.queue { order with status := .pending }) rfl
      rfl (fun key hkey => hkey) ?_ ?_
    · apply forall_find?_insertEntry
      · change (trains.daytrainDatabase.map.find? order.dayKey).isSome
        rw [hd]
        rfl
      · exact h.order_day
    · apply forall_find?_insertEntry
      · change ((trains.orderDatabase.insertEntry order.key _).map.find?
          order.key).isSome
        rw [Index.map_insertEntry, SortedMap.find?_insert_self]
        rfl
      · exact fun key p hp =>
          isSome_insertEntry _ _ (h.pending_order key p hp)

/-- `buy_ticket` finds the seats of every day of the sale window. -/
theorem buyTicketWith_total (h : trains.Referenced)
    {accounts : AccountManagement} {args : BuyArgs}
    (hok : isDate 6 9 args.date) :
    ∃ reply trains', trains.buyTicketWith accounts args =
      some (reply, trains') ∧ trains'.Referenced := by
  obtain ⟨day, hday⟩ := TimeType.exists_ofString hok
  have hdvd := TimeType.dvd_ofString (length_eq_of_isDate hok) hday
  have hreturns : ∃ out, trains.buyTicketWith accounts args = some out := by
    rw [buyTicketWith, hday]
    cases hfind : trains.trainDatabase.map.find? args.trainId with
    | none =>
        rw [Index.searchKey_of_find? hfind]
        split_ifs
        · exact ⟨_, rfl⟩
        · exact ⟨_, rfl⟩
    | some train =>
        rw [Index.searchKey_of_find? hfind]
        simp only [Option.toList_some, Option.bind_eq_bind, Option.bind_some]
        by_cases hreleased : train.isReleased
        · generalize train.findStations args.fromStation args.toStation
            (loopRange 1 train.stationNum) (0, 0) = st
          by_cases hwindow : day - TimeType.getDate
                (train.leavingTimes st.1) < train.startSaleDate ∨
              train.endSaleDate <
                day - TimeType.getDate (train.leavingTimes st.1)
          · simp only [if_pos hwindow]
            split_ifs <;> exact ⟨_, rfl⟩
          · simp only [if_neg hwindow]
            rw [not_or, not_lt, not_lt] at hwindow
            obtain ⟨d, hd⟩ := h.exists_daytrain ⟨hfind, hreleased⟩
              (hdvd.sub (TimeType.dvd_getDate (train.leavingTimes st.1)))
              hwindow.1 hwindow.2
            rw [Index.searchKey_of_find? hd]
            simp only [Option.toList_some]
            split_ifs <;> exact ⟨_, rfl⟩
        · rw [if_pos hreleased]
          split_ifs <;> exact ⟨_, rfl⟩
  obtain ⟨⟨reply, trains'⟩, hstep⟩ := hreturns
  refine ⟨reply, trains', hstep, ?_⟩
  rcases buyTicketWith_cases hstep with
    ⟨-, rfl⟩ | ⟨train, startDay, s, t, d, hpurchase, -, -, hplace⟩
  · exact h
  · obtain ⟨-, rfl⟩ := Prod.mk.inj hplace
    exact referenced_placeOrder h hpurchase.daytrain

/-- What the promotion loop relies on: each order has a day and each waiting
order an order. -/
structure Promotion.Referenced (st : Promotion)
    (days : Index StringAny DayTrain) : Prop where
  order_day : ∀ key order, st.orderDatabase.map.find? key = some order →
    (days.map.find? order.dayKey).isSome
  pending_order : ∀ key p, st.pendingOrderDatabase.map.find? key = some p →
    (st.orderDatabase.map.find? p.orderKey).isSome

/-- A waiting order with an order can be granted, and no order disappears. -/
theorem grant_total {days : Index StringAny DayTrain} {st : Promotion}
    (h : Promotion.Referenced st days) {p : PendingOrder}
    (hp : (st.orderDatabase.map.find? p.orderKey).isSome) :
    ∃ st', st.grant p = some st' ∧ Promotion.Referenced st' days ∧
      ∀ key, (st.orderDatabase.map.find? key).isSome →
        (st'.orderDatabase.map.find? key).isSome := by
  obtain ⟨order, ho⟩ := Option.isSome_iff_exists.mp hp
  refine ⟨_, by rw [Promotion.grant, Index.searchKey_of_find? ho]; rfl,
    ⟨?_, ?_⟩, fun key hkey => isSome_insertEntry _ _ hkey⟩
  · apply forall_find?_insertEntry _ h.order_day
    exact h.order_day _ order ho
  · apply forall_find?_deleteEntry
    exact fun key q hq => isSome_insertEntry _ _ (h.pending_order key q hq)

theorem promoteOrders_total {days : Index StringAny DayTrain} (r : Order)
    {ps : List PendingOrder} {st : Promotion}
    (h : Promotion.Referenced st days)
    (hps : ∀ p ∈ ps, (st.orderDatabase.map.find? p.orderKey).isSome) :
    ∃ st', promoteOrders r ps st = some st' ∧
      Promotion.Referenced st' days := by
  induction ps generalizing st with
  | nil => exact ⟨st, rfl, h⟩
  | cons p ps ih =>
      have hrest : ∀ q ∈ ps, (st.orderDatabase.map.find? q.orderKey).isSome :=
        fun q hq => hps q (List.mem_cons_of_mem p hq)
      rw [promoteOrders]
      split_ifs
      · exact ih h hrest
      · obtain ⟨st', hgrant, h', hkeep⟩ :=
          grant_total h (hps p List.mem_cons_self)
        rw [hgrant, Option.bind_some]
        exact ih h' fun q hq => hkeep _ (hrest q hq)
      · exact ih h hrest

/-- A refund finds the seats of its order and the orders of everybody who
waits. -/
theorem refundOrder_total (h : trains.Referenced) {userName : String}
    {order : Order} {key : StringAny}
    (ho : trains.orderDatabase.map.find? key = some order) :
    ∃ reply trains', trains.refundOrder userName order =
      some (reply, trains') ∧ trains'.Referenced := by
  have horders := forall_find?_insertEntry
    (P := fun o => (trains.daytrainDatabase.map.find? o.dayKey).isSome)
    (k := ⟨userName, order.orderId⟩) (v := { order with status := .refunded })
    (h.order_day key order ho) h.order_day
  have hpendings : ∀ k p, trains.pendingOrderDatabase.map.find? k = some p →
      ((trains.orderDatabase.insertEntry ⟨userName, order.orderId⟩
        { order with status := .refunded }).map.find? p.orderKey).isSome :=
    fun k p hp => isSome_insertEntry _ _ (h.pending_order k p hp)
  rw [refundOrder]
  by_cases hstatus : order.status = .pending
  · rw [if_pos hstatus]
    refine ⟨_, _, rfl, ?_⟩
    exact h.of_orders _ rfl rfl (fun key hkey => hkey) horders
      (forall_find?_deleteEntry hpendings)
  · rw [if_neg hstatus]
    obtain ⟨d, hd⟩ :=
      Option.isSome_iff_exists.mp (h.order_day key order ho)
    rw [Index.searchKey_of_find? hd]
    obtain ⟨ps, hsort, hperm, -⟩ :=
      sort_spec pendingOrderCmp_strictWeakOrder
        (trains.pendingOrderDatabase.scanKey order.pendingKey
          (stringIntIntComparator 1))
    have hstart : Promotion.Referenced
        ⟨d.modifySeat order.fromIndex (order.toIndex - 1) order.num,
          trains.orderDatabase.insertEntry ⟨userName, order.orderId⟩
            { order with status := .refunded },
          trains.pendingOrderDatabase⟩ trains.daytrainDatabase :=
      ⟨horders, hpendings⟩
    obtain ⟨st, hrun, hst⟩ := promoteOrders_total order hstart fun p hp => by
      obtain ⟨k, -, hfind⟩ :=
        exists_find?_of_mem_scanKey (hperm.mem_iff.mp hp)
      exact hpendings k p hfind
    simp only [Option.toList_some, hsort, hrun, Option.bind_eq_bind,
      Option.bind_some]
    refine ⟨_, _, rfl, ?_⟩
    have hdays : ∀ key, (trains.daytrainDatabase.map.find? key).isSome →
        ((trains.commit order st).daytrainDatabase.map.find? key).isSome :=
      fun key hkey => isSome_insertEntry _ _ hkey
    apply h.of_orders (trains.commit order st) rfl rfl hdays _
      hst.pending_order
    exact fun key o ho' => hdays _ (hst.order_day key o ho')

theorem userOrders_total (trains : TrainManagement) (userName : String) :
    ∃ orders, trains.userOrders userName = some orders ∧
      ∀ o ∈ orders, ∃ key, trains.orderDatabase.map.find? key = some o := by
  obtain ⟨orders, hsort, hperm, -⟩ := sort_spec orderCmp_strictWeakOrder
    (trains.orderDatabase.scanKey ⟨userName, 0⟩ (stringAnyComparator 1))
  refine ⟨orders, hsort, fun o ho => ?_⟩
  obtain ⟨key, -, hfind⟩ :=
    exists_find?_of_mem_scanKey (hperm.mem_iff.mp ho)
  exact ⟨key, hfind⟩

/-- The order to refund is within the orders of the user. -/
theorem refundTicketWith_total (h : trains.Referenced)
    {accounts : AccountManagement} {args : RefundArgs}
    (hok : 1 ≤ args.x) :
    ∃ reply trains', trains.refundTicketWith accounts args =
      some (reply, trains') ∧ trains'.Referenced := by
  obtain ⟨orders, horders, hstored⟩ := userOrders_total trains args.userName
  rw [refundTicketWith, horders]
  simp only [Option.bind_eq_bind, Option.bind_some]
  split_ifs with hlogin hnil hlen
  · exact ⟨_, _, rfl, h⟩
  · exact ⟨_, _, rfl, h⟩
  · exact ⟨_, _, rfl, h⟩
  obtain ⟨order, horder⟩ :=
    exists_atIndex (a := orders) (i := args.x - 1) (by omega) (by omega)
  rw [horder, Option.bind_some]
  split_ifs
  · exact ⟨_, _, rfl, h⟩
  · obtain ⟨key, hfind⟩ := hstored order
      (List.mem_of_getElem? (atIndex_eq_some_iff.mp horder).2)
    exact refundOrder_total h hfind

end TrainManagement

/-! ## Every run -/

namespace System

/-- A well-formed command returns and leaves the databases referring only to
what is there. -/
theorem step_total {s : System} (h : s.trains.Referenced) {request : Request}
    (hok : request.Admissible) :
    ∃ out, s.step request = some out ∧ out.2.trains.Referenced := by
  obtain ⟨name, line, uninit⟩ := request
  cases name
  case addTrain =>
    obtain ⟨reply, trains', hstep, h'⟩ :=
      TrainManagement.addTrainWith_total h hok
    exact ⟨_, by rw [step, TrainManagement.addTrain, hstep]; rfl, h'⟩
  case releaseTrain =>
    exact ⟨_, rfl, TrainManagement.referenced_releaseTrain h line⟩
  case queryTrain =>
    obtain ⟨reply, hstep⟩ := TrainManagement.queryTrain_total h hok
    exact ⟨_, by rw [step, hstep]; rfl, h⟩
  case deleteTrain =>
    exact ⟨_, rfl, TrainManagement.referenced_deleteTrain h line⟩
  case queryTicket =>
    obtain ⟨reply, hstep⟩ := TrainManagement.queryTicketWith_total h hok
    exact ⟨_, by rw [step, TrainManagement.queryTicket, hstep]; rfl, h⟩
  case queryTransfer =>
    obtain ⟨reply, hstep⟩ := TrainManagement.queryTransfer_total h hok
    exact ⟨_, by rw [step, hstep]; rfl, h⟩
  case buyTicket =>
    obtain ⟨reply, trains', hstep, h'⟩ :=
      @TrainManagement.buyTicketWith_total s.trains h s.accounts _ hok
    exact ⟨_, by rw [step, TrainManagement.buyTicket, hstep]; rfl, h'⟩
  case queryOrder =>
    obtain ⟨orders, horders, -⟩ :=
      TrainManagement.userOrders_total s.trains (nthToken line 1)
    rw [step, TrainManagement.queryOrder, horders]
    simp only
    split_ifs
    · exact ⟨_, rfl, h⟩
    · exact ⟨_, rfl, h⟩
  case refundTicket =>
    obtain ⟨reply, trains', hstep, h'⟩ :=
      @TrainManagement.refundTicketWith_total s.trains h s.accounts _ hok
    exact ⟨_, by rw [step, TrainManagement.refundTicket, hstep]; rfl, h'⟩
  case clean =>
    exact ⟨_, rfl, TrainManagement.referenced_of_empty rfl rfl rfl rfl⟩
  case exit =>
    exact ⟨_, rfl, ⟨h.train_sound, h.station_train, h.daytrain_isSome,
      h.order_day, h.pending_order⟩⟩
  -- the accounts and `rollback`
  all_goals exact ⟨_, rfl, h⟩

theorem referenced_start (sizes : Fin 6 → ℤ) :
    (start (Databases.new sizes)).trains.Referenced :=
  TrainManagement.referenced_of_empty rfl rfl rfl rfl

/-- A run on well-formed commands returns from every one of them. -/
theorem exists_runSteps {s : System} (h : s.trains.Referenced)
    {requests : List Request}
    (hok : ∀ request ∈ requests, request.Admissible) :
    ∃ s', runSteps stepReading s requests = some s' ∧
      runSteps step s requests = some s' := by
  induction requests generalizing s with
  | nil => exact ⟨s, rfl, rfl⟩
  | cons request requests ih =>
      obtain ⟨out, hstep, h'⟩ := step_total h (hok request List.mem_cons_self)
      obtain ⟨s', hreading, hrun⟩ := ih h' fun later hlater =>
        hok later (List.mem_cons_of_mem request hlater)
      refine ⟨s', ?_, ?_⟩
      · rw [runSteps, stepReading_eq, hstep]
        exact hreading
      · rw [runSteps, hstep]
        exact hrun

end System

/-- `Sort` with this order returns on every vector, and does so without an
access outside of the range of any of its calls. -/
def SortsInside {α : Type} (cmp : α → α → Bool) : Prop :=
  ∀ a : List α, ∃ a', sortInside a 0 (a.length - 1) cmp = some a' ∧
    sort a 0 (a.length - 1) cmp = some a'

theorem StrictWeakOrder.sortsInside {α : Type} {cmp : α → α → Bool}
    (h : StrictWeakOrder cmp) : SortsInside cmp := by
  intro a
  obtain ⟨a', hsort, -⟩ := sort_spec h a
  exact ⟨a', by rw [sortInside_eq h, hsort], hsort⟩

/-- A run that queries, buys, waits and refunds. -/
def refundRun : List Request :=
  waitingRun ++
    [⟨.queryTrain, ["-i", "T", "-d", "06-02"], 0⟩,
      ⟨.queryTicket, ["-s", "A", "-t", "C", "-d", "06-01"], 0⟩,
      ⟨.queryTransfer, ["-s", "A", "-t", "C", "-d", "06-01"], 0⟩,
      ⟨.queryOrder, ["-u", "root"], 0⟩,
      ⟨.refundTicket, ["-u", "root", "-n", "2"], 0⟩,
      ⟨.logout, ["-u", "root"], 0⟩]

end TicketSystem.Backend
