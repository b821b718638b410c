import TicketSystem.Backend.Calendar
import TicketSystem.Backend.TicketListing
import TicketSystem.Backend.TransferChoice
import TicketSystem.Backend.PurchaseLog

/-!
# The date of a purchase

`buy_ticket` reads its date without the test of the queries that it is in the
summer.  From June to September it sells tickets for the day it is asked for;
a date before June sells the same day of June.
-/

namespace TicketSystem.Backend

open TicketSystem.Support
open TicketSystem.Database

namespace TrainManagement

variable {trains trains' : TrainManagement} {accounts : AccountManagement}
  {args : BuyArgs} {train : Train} {i j : ℕ} {date : TimeType}

/-! ## The checks before the date and after it -/

/-- The purchase passes the checks that do not look at the date. -/
structure Boards (trains : TrainManagement) (accounts : AccountManagement)
    (args : BuyArgs) (train : Train) (i j : ℕ) : Prop where
  login : (accounts.loginPool.find? args.userName).isSome
  released : trains.Released args.trainId train
  num_le : args.num ≤ train.totalSeatNum
  one_le : 1 ≤ i
  lt : i < j
  le_stationNum : j ≤ train.stationNum
  from_eq : train.stations i = args.fromStation
  to_eq : train.stations j = args.toStation

/-- The train can be boarded on the day, and the order gets its seats or may
wait. -/
def Serves (trains : TrainManagement) (args : BuyArgs) (train : Train)
    (i j : ℕ) (date : TimeType) : Prop :=
  ∃ d, trains.Journey args.trainId args.fromStation args.toStation date train
      i j d ∧ (args.isPending ∨ args.num ≤ d.querySeat i (j - 1))

/-- `buy_ticket` once the date is read. -/
def buyOn (trains : TrainManagement) (args : BuyArgs) (targetTrain : Train)
    (s t : ℕ) (date : TimeType) : Option (TrainReply × TrainManagement) :=
  let startDay := date - TimeType.getDate (targetTrain.leavingTimes s)
  if startDay < targetTrain.startSaleDate ∨
      targetTrain.endSaleDate < startDay then
    some (.failure, trains)
  else
    match trains.daytrainDatabase.searchKey ⟨args.trainId, startDay⟩ with
    | [] => none
    | tp :: _ =>
        if ¬ args.isPending ∧ tp.querySeat s (t - 1) < args.num then
          some (.failure, trains)
        else some (trains.placeOrder
          (trains.newOrder args targetTrain startDay s t) tp)

/-- Without these checks nothing is sold. -/
theorem buyTicketWith_of_not_boards
    (hno : ∀ train i j, ¬ trains.Boards accounts args train i j) :
    trains.buyTicketWith accounts args = some (.failure, trains) := by
  unfold buyTicketWith
  by_cases hlogin : (accounts.loginPool.find? args.userName).isNone
  · rw [if_pos hlogin]
  rw [if_neg hlogin]
  cases hfind : trains.trainDatabase.map.find? args.trainId with
  | none => rw [Index.searchKey_of_find? hfind, Option.toList_none]
  | some train =>
      rw [Index.searchKey_of_find? hfind, Option.toList_some]
      dsimp only
      by_cases hreleased : train.isReleased
      swap
      · rw [if_pos hreleased]
      rw [if_neg (not_not.mpr hreleased)]
      by_cases htotal : train.totalSeatNum < args.num
      · rw [if_pos htotal]
      rw [if_neg htotal]
      have hfound := findStations_spec train args.fromStation args.toStation
        (loopRange 1 train.stationNum) (0, 0)
        (P := fun i => 1 ≤ i ∧ i ≤ train.stationNum)
        (fun i hi => mem_loopRange.mp hi) (by simp) (by simp)
      generalize train.findStations args.fromStation args.toStation
        (loopRange 1 train.stationNum) (0, 0) = st at hfound ⊢
      obtain ⟨s, t⟩ := st
      by_cases hst : s = 0 ∨ t = 0 ∨ t ≤ s
      · exact if_pos hst
      · push Not at hst
        obtain ⟨hs, ht⟩ := hfound
        obtain ⟨⟨hone, -⟩, hfrom⟩ := hs hst.1
        obtain ⟨⟨-, hle⟩, hto⟩ := ht hst.2.1
        refine absurd ?_ (hno train s t)
        exact
          { login := by rwa [← Option.not_isNone, Bool.not_eq_true',
              Bool.eq_false_iff]
            released := ⟨hfind, hreleased⟩
            num_le := not_lt.mp htotal
            one_le := hone
            lt := hst.2.2
            le_stationNum := hle
            from_eq := hfrom
            to_eq := hto }

/-- With them the date is read. -/
theorem Boards.buyTicketWith_eq
    (hboards : trains.Boards accounts args train i j)
    (h : trains.Consistent) :
    trains.buyTicketWith accounts args =
      (TimeType.ofString (args.date ++ " 00:00")).bind
        (trains.buyOn args train i j) := by
  have hone := hboards.one_le
  have hlt := hboards.lt
  have hle := hboards.le_stationNum
  have hinj := (h.train_sound _ _ hboards.released.1).stations_inj
  have hfound : train.findStations args.fromStation args.toStation
      (loopRange 1 train.stationNum) (0, 0) = (i, j) := by
    refine findStations_eq (by omega) (by omega) (fun k hk => ?_)
      (fun k hk => ?_) (Or.inr ⟨rfl, mem_loopRange.mpr ⟨hone, by omega⟩⟩)
      (Or.inr ⟨rfl, mem_loopRange.mpr ⟨by omega, hle⟩⟩)
    · obtain ⟨hk, hkn⟩ := mem_loopRange.mp hk
      rw [← hboards.from_eq]
      exact ⟨hinj k i hk hkn hone (by omega), fun heq => heq ▸ rfl⟩
    · obtain ⟨hk, hkn⟩ := mem_loopRange.mp hk
      rw [← hboards.to_eq]
      exact ⟨hinj k j hk hkn (by omega) hle, fun heq => heq ▸ rfl⟩
  have hlogged : ¬ (accounts.loginPool.find? args.userName).isNone := by
    rw [← Option.not_isSome, hboards.login]
    decide
  rw [buyTicketWith, if_neg hlogged,
    Index.searchKey_of_find? hboards.released.1]
  simp only [Option.toList_some, hfound]
  rw [if_neg (not_not.mpr hboards.released.2),
    if_neg (not_lt.mpr hboards.num_le), if_neg (by omega)]
  rfl

/-- The order of a purchase that is served. -/
theorem buyOn_of_serves (hserves : trains.Serves args train i j date) :
    ∃ reply trains' order, trains.buyOn args train i j date =
        some (reply, trains') ∧
      reply ≠ .failure ∧ trains.Orders trains' order ∧
      order.userName = args.userName ∧
      order.fromStation = args.fromStation ∧
      order.startDay = date - TimeType.getDate (train.leavingTimes i) ∧
      order.leavingTime = train.leavingTimes i := by
  obtain ⟨d, hjourney, hseat⟩ := hserves
  have hopen : ¬ (¬ args.isPending ∧ d.querySeat i (j - 1) < args.num) := by
    rintro ⟨hpending, hlt⟩
    rcases hseat with hwait | hfits
    · exact hpending hwait
    · exact absurd hlt (not_lt.mpr hfits)
  obtain ⟨hreply, status, horders⟩ := @orders_placeOrder trains
    (trains.newOrder args train
      (date - TimeType.getDate (train.leavingTimes i)) i j) d rfl
  refine ⟨_, _, _, ?_, hreply, horders, rfl, hjourney.from_eq, rfl, rfl⟩
  rw [buyOn]
  rw [if_neg (by
      rw [not_or, not_lt, not_lt]
      exact ⟨hjourney.le_startDay, hjourney.startDay_le⟩),
    Index.searchKey_of_find? hjourney.daytrain]
  simp only [Option.toList_some]
  rw [if_neg hopen]

/-- On a day on which it is not served the purchase is refused. -/
theorem Boards.buyOn_of_not_serves
    (hboards : trains.Boards accounts args train i j)
    (h : trains.Consistent) (hdate : 1440 ∣ date)
    (hno : ¬ trains.Serves args train i j date) :
    trains.buyOn args train i j date = some (.failure, trains) := by
  rw [buyOn]
  by_cases hwindow : date - TimeType.getDate (train.leavingTimes i) <
        train.startSaleDate ∨
      train.endSaleDate < date - TimeType.getDate (train.leavingTimes i)
  · rw [if_pos hwindow]
  rw [if_neg hwindow]
  push Not at hwindow
  obtain ⟨hle, hge⟩ := hwindow
  obtain ⟨d, hd⟩ := h.exists_daytrain_of_released hboards.released
    (dvd_sub hdate (TimeType.dvd_getDate _)) hle hge
  rw [Index.searchKey_of_find? hd]
  simp only [Option.toList_some]
  rw [if_pos]
  by_contra hopen
  apply hno
  refine ⟨d, ?_, ?_⟩
  · exact
      { released := hboards.released
        one_le := hboards.one_le
        lt := hboards.lt
        le_stationNum := hboards.le_stationNum
        from_eq := hboards.from_eq
        to_eq := hboards.to_eq
        le_startDay := hle
        startDay_le := hge
        daytrain := hd }
  · by_cases hpending : args.isPending
    · exact Or.inl hpending
    · exact Or.inr (not_lt.mp fun hlt => hopen ⟨hpending, hlt⟩)

/-! ## An order keeps its trip -/

/-- An order that is stored with the number of `order` is `order`, whatever
became of it. -/
def Keeps (trains : TrainManagement) (order : Order) : Prop :=
  ∀ key o, trains.orderDatabase.map.find? key = some o →
    o.orderId = order.orderId → ∃ status, o = { order with status := status }

/-- A new order is the only one with its number. -/
theorem Orders.keeps {order : Order} (horders : trains.Orders trains' order)
    (h : trains.Numbered) : trains'.Keeps order := by
  intro key o ho hid
  rw [horders.orderDatabase_eq, Index.map_insertEntry,
    SortedMap.find?_insert] at ho
  split_ifs at ho with heq
  · obtain rfl := Option.some.inj ho
    exact ⟨order.status, rfl⟩
  · have hle := h.orderId_le key o ho
    have hnext := horders.orderId_eq
    omega

theorem Orders.keeps_earlier {order new : Order}
    (horders : trains.Orders trains' new) (h : trains.Keeps order)
    (hle : order.orderId ≤ trains.orderNum) : trains'.Keeps order := by
  intro key o ho hid
  rw [horders.orderDatabase_eq, Index.map_insertEntry,
    SortedMap.find?_insert] at ho
  split_ifs at ho with heq
  · obtain rfl := Option.some.inj ho
    have hnext := horders.orderId_eq
    omega
  · exact h key o ho hid

theorem Keeps.setsStatuses {order : Order} (h : trains.Keeps order)
    (hset : SetsStatuses trains.orderDatabase trains'.orderDatabase) :
    trains'.Keeps order := by
  unfold Keeps at h ⊢
  generalize trains'.orderDatabase = orders' at hset ⊢
  induction hset with
  | refl => exact h
  | @set orders key old status _ hfind ih =>
      intro key' o ho hid
      rw [Index.map_insertEntry, SortedMap.find?_insert] at ho
      split_ifs at ho
      · obtain rfl := Option.some.inj ho
        obtain ⟨status', rfl⟩ := ih key old hfind hid
        exact ⟨status, rfl⟩
      · exact ih key' o ho hid

end TrainManagement

namespace System

variable {s s' : System} {request : Request} {reply : Reply}

theorem keeps_step (h : s.trains.Numbered) {order : Order}
    (hkeeps : s.trains.Keeps order)
    (hle : order.orderId ≤ s.trains.orderNum)
    (hstep : s.step request = some (reply, s')) : s'.trains.Keeps order := by
  cases ordersStep_of_step hstep with
  | kept _ _ horders _ =>
      rw [TrainManagement.Keeps, horders]
      exact hkeeps
  | placed new _ _ horders _ => exact horders.keeps_earlier hkeeps hle
  | refunded _ hset _ => exact hkeeps.setsStatuses (hset h.key_eq)
  | cleaned _ heq =>
      subst heq
      intro key o ho
      cases ho
  | reopened _ heq =>
      subst heq
      exact hkeeps

theorem keeps_of_reaches (h : s.trains.Numbered) {order : Order}
    (hkeeps : s.trains.Keeps order)
    (hle : order.orderId ≤ s.trains.orderNum) {Ok : System → Request → Prop}
    {later : System} (hlater : Reaches System.step Ok s later) :
    later.trains.Numbered ∧ later.trains.Keeps order := by
  have hall := hlater.invariant
    (fun s => s.trains.Numbered ∧ s.trains.Keeps order ∧
      order.orderId ≤ s.trains.orderNum) ⟨h, hkeeps, hle⟩ ?_
  · exact ⟨hall.1, hall.2.1⟩
  · rintro s request reply s' ⟨h, hkeeps, hle⟩ _ hstep
    obtain ⟨h', hnum⟩ := numbered_step h hstep
    exact ⟨h', keeps_step h hkeeps hle hstep, hle.trans hnum⟩

/-! ## Reachable states -/

end System

/-- A well-formed command with the times of a new train in order. -/
def Request.Scheduled (request : Request) : Prop :=
  request.WellFormed ∧ (request.name = .addTrain →
    isTime (TrainArgs.ofLine request.line).startTime ∧
      (TrainArgs.ofLine request.line).TimesAreNumbers)

instance (request : Request) : Decidable request.Scheduled :=
  inferInstanceAs (Decidable (_ ∧ _))

namespace System

/-- The states of the runs on such commands, from databases on new files. -/
def ReachableScheduled (s : System) : Prop :=
  ∃ sizes, Reaches System.step (fun _ request => request.Scheduled)
    (System.start (Databases.new sizes)) s

/-- Trains are sold and leave after 06-01. -/
def Scheduled (s : System) : Prop :=
  ∀ trainId train, s.trains.trainDatabase.map.find? trainId = some train →
    0 ≤ train.startSaleDate ∧ ∀ i, 0 ≤ train.leavingTimes i

theorem scheduled_step {s s' : System} {request : Request} {reply : Reply}
    (h : s.Scheduled) (hok : request.Scheduled)
    (hstep : s.step request = some (reply, s')) : s'.Scheduled := by
  apply System.forall_trains_step h _ _ hstep
  · intro hname newTrain args hmake
    obtain ⟨htime, hnumbers⟩ := hok.2 hname
    have hformed := hok.1
    rw [Request.WellFormed, hname] at hformed
    constructor
    · simp only [Train.make, Option.bind_eq_bind, Option.bind_eq_some_iff,
        Option.some.injEq] at hmake
      obtain ⟨_, _, startSaleDate, hstart, _, _, rfl⟩ := hmake
      exact TimeType.ofString_nonneg hformed.isDate_start hstart
    · intro i
      exact (Train.times_nonneg_of_make hnumbers htime hmake i).2
  · exact fun _ _ htrain => htrain

theorem ReachableScheduled.scheduled {s : System}
    (hs : s.ReachableScheduled) : s.Scheduled := by
  obtain ⟨sizes, hreach⟩ := hs
  refine hreach.invariant Scheduled ?_ ?_
  · intro trainId train hfind
    cases hfind
  · intro s request reply s' h hok hstep
    exact scheduled_step h hok hstep

theorem ReachableScheduled.reachable {s : System}
    (hs : s.ReachableScheduled) : s.Reachable := by
  obtain ⟨sizes, hreach⟩ := hs
  exact ⟨sizes, hreach.mono fun _ _ hok => hok.1⟩

end System

/-! ## The date that is sold -/

/-- The train leaves the station on the date, on a run inside its sale
window. -/
def TrainManagement.LeavesOn (trains : TrainManagement)
    (trainId fromStation date : String) : Prop :=
  ∃ train i day, trains.Released trainId train ∧ 1 ≤ i ∧
    i < train.stationNum ∧ train.stations i = fromStation ∧
    day ∈ saleDays train.startSaleDate train.endSaleDate ∧
    TimeType.getDate (day + train.leavingTimes i) = calendarDay date * 1440

namespace System

variable {s s' : System} {args : BuyArgs} {train : Train} {i j : ℕ}

/-- In whatever is done later, a list of orders shows the order with the
station and the date of the purchase. -/
def ShowsDate (s : System) (orderId : ℤ) (args : BuyArgs) : Prop :=
  ∀ later, Reaches System.step (fun _ _ => True) s later →
    ∀ (query : Request) orders next, query.name = .queryOrder →
      later.step query = some (.train (.orders orders), next) →
        ∀ o ∈ orders, o.orderId = orderId →
          o.userName = args.userName ∧ o.fromStation = args.fromStation ∧
            ∃ clock, TimeType.transfer (o.leavingTime + o.startDay) =
              args.date ++ " " ++ clock

/-- A purchase sells tickets for its date, and only if the train leaves on
it. -/
structure SellsDate (s : System) (args : BuyArgs) (reply : Reply)
    (s' : System) : Prop where
  shows_date : reply ≠ .train .failure →
    s'.ShowsDate s'.trains.orderNum args
  refuses : ¬ s.trains.LeavesOn args.trainId args.fromStation args.date →
    reply = .train .failure

/-- No other check stops the purchase only if the date is one from June to
September, or one before June whose day in June is not served. -/
def ReadsDate (s : System) (args : BuyArgs) : Prop :=
  ∀ train i j, s.trains.Boards s.accounts args train i j →
    (6 ≤ monthOf args.date ∧ monthOf args.date ≤ 9) ∨
      monthOf args.date < 6 ∧
        ¬ s.trains.Serves args train i j ((dayOf args.date - 1) * 1440)

theorem sellsDate_failure : s.SellsDate args (.train .failure) s' :=
  ⟨fun hreply => absurd rfl hreply, fun _ => rfl⟩

/-- The trip of a served order starts on the date. -/
theorem startDay_add_leavingTime (h : s.Scheduled) {date : TimeType}
    (hserves : s.trains.Serves args train i j date) :
    date - TimeType.getDate (train.leavingTimes i) + train.leavingTimes i =
        date + TimeType.getTime (train.leavingTimes i) ∧
      0 ≤ TimeType.getTime (train.leavingTimes i) ∧
      TimeType.getTime (train.leavingTimes i) < 1440 := by
  obtain ⟨d, hjourney, -⟩ := hserves
  have hsplit := TimeType.getDate_add_getTime (train.leavingTimes i)
  have hleaving := (h _ _ hjourney.released.1).2 i
  refine ⟨?_, TimeType.getTime_nonneg hleaving, TimeType.getTime_lt _⟩
  linarith

theorem leavesOn_of_serves (h : s.trains.Consistent) (hsched : s.Scheduled)
    (hday : 0 ≤ calendarDay args.date)
    (hserves : s.trains.Serves args train i j
      (calendarDay args.date * 1440)) :
    s.trains.LeavesOn args.trainId args.fromStation args.date := by
  obtain ⟨hsum, hnonneg, hlt⟩ := startDay_add_leavingTime hsched hserves
  obtain ⟨d, hjourney, -⟩ := hserves
  have hmem : calendarDay args.date * 1440 -
      TimeType.getDate (train.leavingTimes i) ∈
        saleDays train.startSaleDate train.endSaleDate := by
    obtain ⟨train', hrel, hmem⟩ :=
      (h.daytrain_iff _ _).mp (by rw [hjourney.daytrain]; rfl)
    obtain rfl := hjourney.released.unique hrel
    exact hmem
  refine ⟨train, i, _, hjourney.released, hjourney.one_le,
    hjourney.lt.trans_le hjourney.le_stationNum, hjourney.from_eq, hmem, ?_⟩
  rw [hsum]
  exact TimeType.getDate_mul_add hday hnonneg hlt

/-- A new order is shown with its date from then on. -/
theorem showsDate_of_orders (h : s.trains.Numbered) {order : Order}
    (horders : s.trains.Orders s'.trains order)
    (huser : order.userName = args.userName)
    (hfrom : order.fromStation = args.fromStation)
    (hdate : ∃ clock, TimeType.transfer (order.leavingTime + order.startDay) =
      args.date ++ " " ++ clock) :
    s'.ShowsDate s'.trains.orderNum args := by
  have hkeeps := horders.keeps h
  rintro later hlater ⟨name, line, uninit⟩ orders next hname hquery o ho hid
  obtain rfl : name = .queryOrder := hname
  obtain ⟨hnumbered, hkept⟩ := keeps_of_reaches (horders.numbered h) hkeeps
    horders.orderNum_eq.ge hlater
  obtain ⟨r, hr, heq⟩ := Option.map_eq_some_iff.mp hquery
  obtain rfl : r = .orders orders := Reply.train.inj (Prod.mk.inj heq).1
  -- the list comes from the database
  have hlist : later.trains.userOrders (nthToken line 1) = some orders := by
    rw [TrainManagement.queryOrder] at hr
    dsimp only at hr
    split_ifs at hr
    · cases hr
    · obtain ⟨orders', horders', heq⟩ := Option.map_eq_some_iff.mp hr
      obtain rfl := TrainReply.orders.inj heq
      exact horders'
  obtain ⟨-, hfind⟩ :=
    TrainManagement.find?_of_mem_userOrders hnumbered.key_eq hlist ho
  obtain ⟨status, rfl⟩ := hkept _ o hfind
    (hid.trans horders.orderNum_eq)
  exact ⟨huser, hfrom, hdate⟩

/-- A date before June that is served in June is sold although the train does
not leave on it. -/
theorem not_sellsDate_of_early (hsched : s.Scheduled)
    (hdate : isCalendarDate args.date) (hmonth : monthOf args.date < 6)
    {reply : Reply} (hreply : reply ≠ .train .failure) :
    ¬ s.SellsDate args reply s' := by
  intro hsells
  apply hreply
  apply hsells.refuses
  rintro ⟨train, i, day, hreleased, -, -, -, hmem, heq⟩
  obtain ⟨hstart, hleaving⟩ := hsched _ _ hreleased.1
  have hday := (mem_saleDays.mp hmem).1
  have hneg := calendarDay_neg hdate hmonth
  have hnonneg : 0 ≤ TimeType.getDate (day + train.leavingTimes i) :=
    TimeType.getDate_nonneg (add_nonneg (hstart.trans hday) (hleaving i))
  linarith

/-- A purchase is answered and sells tickets for its date, and only if the
train leaves on it, exactly when another check stops it, its date is one from
June to September, or its date is before June and the same day of June is not
served. -/
theorem ReachableScheduled.sellsDate_iff (hs : s.ReachableScheduled)
    {line : List String} {uninit : ℤ}
    (hargs : BuyArgs.ofLine uninit line = args)
    (hdate : isCalendarDate args.date) :
    (∃ reply s', s.step ⟨.buyTicket, line, uninit⟩ = some (reply, s') ∧
      s.SellsDate args reply s') ↔ s.ReadsDate args := by
  have h := hs.reachable.consistent
  have hsched := hs.scheduled
  have hstep : s.step ⟨.buyTicket, line, uninit⟩ =
      (s.trains.buyTicketWith s.accounts args).map s.withTrains := by
    rw [← hargs]
    rfl
  have hrefused : s.trains.buyTicketWith s.accounts args =
      some (.failure, s.trains) →
        ∃ reply s', s.step ⟨.buyTicket, line, uninit⟩ = some (reply, s') ∧
          s.SellsDate args reply s' := by
    intro hrun
    exact ⟨.train .failure, s, by rw [hstep, hrun]; rfl, sellsDate_failure⟩
  constructor
  · rintro ⟨reply, s', hsteps, hsells⟩ train i j hboards
    rw [hstep, hboards.buyTicketWith_eq h] at hsteps
    rcases lt_or_ge (monthOf args.date) 6 with hearly | hlo
    · refine Or.inr ⟨hearly, fun hserves => ?_⟩
      obtain ⟨r, trains', order, hrun, hreply, -⟩ :=
        TrainManagement.buyOn_of_serves hserves
      rw [TimeType.ofString_early hdate hearly, Option.bind_some,
        hrun] at hsteps
      obtain ⟨rfl, rfl⟩ := Prod.mk.inj (Option.some.inj hsteps)
      exact not_sellsDate_of_early hsched hdate hearly
        (fun heq => hreply (Reply.train.inj heq)) hsells
    · rcases lt_or_ge 9 (monthOf args.date) with hlate | hhi
      · rw [TimeType.ofString_late hdate hlate] at hsteps
        cases hsteps
      · exact Or.inl ⟨hlo, hhi⟩
  · intro hreads
    by_cases hboards : ∃ train i j,
        s.trains.Boards s.accounts args train i j
    swap
    · apply hrefused
      apply TrainManagement.buyTicketWith_of_not_boards
      exact fun train i j hb => hboards ⟨train, i, j, hb⟩
    obtain ⟨train, i, j, hboards⟩ := hboards
    rcases hreads train i j hboards with ⟨hlo, hhi⟩ | ⟨hearly, hno⟩
    · have hrun : s.trains.buyTicketWith s.accounts args =
          s.trains.buyOn args train i j (calendarDay args.date * 1440) := by
        rw [hboards.buyTicketWith_eq h, TimeType.ofString_summer hdate hlo hhi,
          Option.bind_some]
      by_cases hserves : s.trains.Serves args train i j
          (calendarDay args.date * 1440)
      swap
      · exact hrefused (hrun.trans
          (hboards.buyOn_of_not_serves h (dvd_mul_left _ _) hserves))
      obtain ⟨r, trains', order, hbuy, hreply, horders, huser, hfrom,
        hstart, hleaving⟩ := TrainManagement.buyOn_of_serves hserves
      rw [hrun, hbuy] at hstep
      have hday := calendarDay_nonneg hdate hlo hhi
      refine ⟨_, _, hstep, ?_, ?_⟩
      · intro _
        apply showsDate_of_orders h.numbered horders huser hfrom
        obtain ⟨hsum, hnonneg, hlt⟩ := startDay_add_leavingTime hsched hserves
        rw [hstart, hleaving, add_comm, hsum]
        exact TimeType.transfer_calendarDay hdate hlo hhi hnonneg hlt
      · intro hleaves
        exact absurd (leavesOn_of_serves h hsched hday hserves) hleaves
    · apply hrefused
      rw [hboards.buyTicketWith_eq h, TimeType.ofString_early hdate hearly,
        Option.bind_some]
      exact hboards.buyOn_of_not_serves h (dvd_mul_left _ _) hno

theorem reachableScheduled_of_runSteps {s : System} {requests : List Request}
    (hok : StepsOk System.step (fun _ request => request.Scheduled)
      (start (Databases.new fun _ => 0)) requests)
    (hrun : runSteps System.step (start (Databases.new fun _ => 0))
      requests = some s) : s.ReachableScheduled :=
  ⟨_, Reaches.runSteps .refl hok hrun⟩

/-- The train of `waitingRun` is sold out on its first day only. -/
theorem sellsDate_iff_waitingRun :
    ∃ s : System, let args := BuyArgs.ofLine 0 ["-u", "root", "-i", "T",
        "-d", "06-02", "-n", "1", "-f", "A", "-t", "C"]
      (∃ reply s', s.step ⟨.buyTicket, ["-u", "root", "-i", "T", "-d",
          "06-02", "-n", "1", "-f", "A", "-t", "C"], 0⟩ = some (reply, s') ∧
        s.SellsDate args reply s') ↔ s.ReadsDate args := by
  have hrun : (runSteps System.step
      (start (Databases.new fun _ => 0)) waitingRun).isSome := by
    decide +kernel
  obtain ⟨s, hs⟩ := Option.isSome_iff_exists.mp hrun
  have hok : StepsOk System.step (fun _ request => request.Scheduled)
      (start (Databases.new fun _ => 0)) waitingRun := by
    decide +kernel
  exact ⟨s, ReachableScheduled.sellsDate_iff
    (reachableScheduled_of_runSteps hok hs) rfl (by decide +kernel)⟩

/-- A ticket for the second of January is one for the second of June. -/
theorem not_always_sellsDate :
    ¬ ∀ (s : System) (line : List String) (reply : Reply) (s' : System),
      s.ReachableScheduled → isCalendarDate (BuyArgs.ofLine 0 line).date →
        s.step ⟨.buyTicket, line, 0⟩ = some (reply, s') →
          s.SellsDate (BuyArgs.ofLine 0 line) reply s' := by
  intro hall
  let line := ["-u", "root", "-i", "T", "-d", "01-02", "-n", "1", "-f", "A",
    "-t", "C"]
  have hrun : ((runSteps System.step
      (start (Databases.new fun _ => 0)) waitingRun).bind fun s =>
        (s.step ⟨.buyTicket, line, 0⟩).map Prod.fst) =
      some (.train (.bought 3)) := by
    decide +kernel
  obtain ⟨s, hs, hbuy⟩ := Option.bind_eq_some_iff.mp hrun
  obtain ⟨⟨reply, s'⟩, hstep, rfl⟩ := Option.map_eq_some_iff.mp hbuy
  have hok : StepsOk System.step (fun _ request => request.Scheduled)
      (start (Databases.new fun _ => 0)) waitingRun := by
    decide +kernel
  have hreachable := reachableScheduled_of_runSteps hok hs
  have hdate : isCalendarDate (BuyArgs.ofLine 0 line).date := by
    decide +kernel
  have hmonth : monthOf (BuyArgs.ofLine 0 line).date < 6 := by
    decide +kernel
  have hsells := hall s line _ s' hreachable hdate hstep
  refine not_sellsDate_of_early hreachable.scheduled hdate hmonth ?_ hsells
  intro hreply
  cases hreply

end System

end TicketSystem.Backend
