import TicketSystem.Backend.Reachable

/-!
# Queries and purchases

`query_ticket` reads stations and `buy_ticket` reads the train.  Both find the
same seats and prices, except that the query refuses dates in September, on
which trains of the end of August are still on their way.
-/

namespace TicketSystem.Backend

open TicketSystem.Support
open TicketSystem.Database

/-! ## The merge of the stations of both ends -/

/-- A train runs from station `s` to station `t` and leaves `s` on `day`. -/
structure Ticket.Runs (ticket : Ticket) (day : TimeType) : Prop where
  trainId_eq : ticket.s.trainId = ticket.t.trainId
  index_lt : ticket.s.index < ticket.t.index
  le_startDay : ticket.s.startSaleTime ≤ ticket.s.startDay day
  startDay_le : ticket.s.startDay day ≤ ticket.s.endSaleTime

/-- The stations of a list are those of different trains, in order. -/
def TrainSorted (stations : List Station) : Prop :=
  stations.Pairwise fun a b => a.trainId < b.trainId

theorem TrainSorted.lt_of_mem {s t : Station} {stations : List Station}
    (h : TrainSorted (t :: stations)) (hlt : s.trainId < t.trainId)
    {t' : Station} (ht' : t' ∈ t :: stations) : s.trainId < t'.trainId := by
  rcases List.mem_cons.mp ht' with rfl | ht'
  · exact hlt
  · exact hlt.trans ((List.pairwise_cons.mp h).1 t' ht')

/-- The merge only drops pairs that do not belong to one train. -/
theorem mem_matchStations_iff {day : TimeType} {n : ℕ}
    {ans1 ans2 : List Station} (hn : ans1.length + ans2.length ≤ n)
    (h₁ : TrainSorted ans1) (h₂ : TrainSorted ans2) {ticket : Ticket} :
    ticket ∈ matchStations day n ans1 ans2 ↔
      ticket.s ∈ ans1 ∧ ticket.t ∈ ans2 ∧ ticket.Runs day := by
  induction n generalizing ans1 ans2 with
  | zero =>
      obtain rfl : ans1 = [] := List.length_eq_zero_iff.mp (by omega)
      simp [matchStations]
  | succ n ih =>
      match ans1, ans2 with
      | [], ans2 => simp [matchStations]
      | s1 :: ans1, [] => simp [matchStations]
      | s1 :: ans1, t1 :: ans2 =>
          obtain ⟨hhead₁, htail₁⟩ := List.pairwise_cons.mp h₁
          obtain ⟨hhead₂, htail₂⟩ := List.pairwise_cons.mp h₂
          simp only [List.length_cons] at hn
          rw [matchStations]
          rcases lt_trichotomy s1.trainId t1.trainId with hlt | heq | hgt
          · rw [if_pos ((strcmp_compares.neg_iff _ _).mpr hlt),
              ih (by simp only [List.length_cons]; omega) htail₁ h₂]
            refine ⟨fun ⟨hs, hrest⟩ => ⟨List.mem_cons_of_mem s1 hs, hrest⟩,
              fun ⟨hs, ht, hruns⟩ => ⟨?_, ht, hruns⟩⟩
            refine (List.mem_cons.mp hs).resolve_left fun hs1 => ?_
            exact (h₂.lt_of_mem hlt ht).ne (hs1 ▸ hruns.trainId_eq)
          · have hzero : strcmp s1.trainId t1.trainId = 0 :=
              (strcmp_compares.zero_iff _ _).mpr heq
            have hlater := @ih ans1 ans2 (by omega) htail₁ htail₂
            -- a pair of one train has both heads or none
            have hpair : (ticket.s ∈ s1 :: ans1 ∧ ticket.t ∈ t1 :: ans2 ∧
                ticket.Runs day) ↔
                (ticket = ⟨s1, t1⟩ ∧ ticket.Runs day) ∨
                  ticket.s ∈ ans1 ∧ ticket.t ∈ ans2 ∧ ticket.Runs day := by
              constructor
              · rintro ⟨hs, ht, hruns⟩
                rcases List.mem_cons.mp hs with hs | hs
                · rcases List.mem_cons.mp ht with ht | ht
                  · exact Or.inl ⟨by rw [← hs, ← ht], hruns⟩
                  · have hlt := hhead₂ _ ht
                    rw [← hruns.trainId_eq, hs, heq] at hlt
                    exact absurd hlt (lt_irrefl _)
                · rcases List.mem_cons.mp ht with ht | ht
                  · have hlt := hhead₁ _ hs
                    rw [hruns.trainId_eq, ht, heq] at hlt
                    exact absurd hlt (lt_irrefl _)
                  · exact Or.inr ⟨hs, ht, hruns⟩
              · rintro (⟨rfl, hruns⟩ | ⟨hs, ht, hruns⟩)
                · exact ⟨List.mem_cons_self, List.mem_cons_self, hruns⟩
                · exact ⟨List.mem_cons_of_mem s1 hs,
                    List.mem_cons_of_mem t1 ht, hruns⟩
            rw [hpair, if_neg (by omega), if_neg (by omega)]
            by_cases hindex : t1.index ≤ s1.index
            · rw [if_pos hindex, hlater, or_iff_right]
              rintro ⟨rfl, hruns⟩
              exact absurd hruns.index_lt (not_lt.mpr hindex)
            rw [if_neg hindex]
            by_cases hsale : s1.startSaleTime ≤ s1.startDay day ∧
                s1.startDay day ≤ s1.endSaleTime
            · rw [if_pos hsale, List.mem_cons, hlater]
              refine or_congr_left ⟨fun hticket => ⟨hticket, ?_⟩, And.left⟩
              rw [hticket]
              exact ⟨heq, not_le.mp hindex, hsale.1, hsale.2⟩
            · rw [if_neg hsale, hlater, or_iff_right]
              rintro ⟨rfl, hruns⟩
              exact hsale ⟨hruns.le_startDay, hruns.startDay_le⟩
          · have hpos := (strcmp_compares.pos_iff _ _).mpr hgt
            rw [if_neg (by omega), if_pos hpos,
              ih (by simp only [List.length_cons]; omega) h₁ htail₂]
            refine ⟨fun ⟨hs, ht, hruns⟩ =>
                ⟨hs, List.mem_cons_of_mem t1 ht, hruns⟩,
              fun ⟨hs, ht, hruns⟩ => ⟨hs, ?_, hruns⟩⟩
            refine (List.mem_cons.mp ht).resolve_left fun ht1 => ?_
            exact (h₁.lt_of_mem hgt hs).ne' (ht1 ▸ hruns.trainId_eq)

namespace TrainManagement

variable {trains trains' : TrainManagement}

/-! ## What a query lists -/

/-- A train of which `num` seats can be had from one station to another, when
boarded on `day`: the two stops, the start day and its seats. -/
structure Journey (trains : TrainManagement) (trainId fromStation toStation :
    String) (day : TimeType) (train : Train) (i j : ℕ) (d : DayTrain) :
    Prop where
  released : trains.Released trainId train
  one_le : 1 ≤ i
  lt : i < j
  le_stationNum : j ≤ train.stationNum
  from_eq : train.stations i = fromStation
  to_eq : train.stations j = toStation
  le_startDay : train.startSaleDate ≤
    day - TimeType.getDate (train.leavingTimes i)
  startDay_le : day - TimeType.getDate (train.leavingTimes i) ≤
    train.endSaleDate
  daytrain : trains.daytrainDatabase.map.find?
    ⟨trainId, day - TimeType.getDate (train.leavingTimes i)⟩ = some d

/-- Two journeys of one train between the same stations are one. -/
theorem Journey.unique (h : trains.Consistent) {trainId fromStation
    toStation : String} {day : TimeType} {train train' : Train}
    {i i' j j' : ℕ} {d d' : DayTrain}
    (hjourney : trains.Journey trainId fromStation toStation day train i j d)
    (hjourney' :
      trains.Journey trainId fromStation toStation day train' i' j' d') :
    train = train' ∧ i = i' ∧ j = j' ∧ d = d' := by
  obtain rfl := hjourney.released.unique hjourney'.released
  have hinj := (h.train_sound _ _ hjourney.released.1).stations_inj
  have hle := hjourney.le_stationNum
  have hle' := hjourney'.le_stationNum
  have hone := hjourney.one_le
  have hone' := hjourney'.one_le
  have hlt := hjourney.lt
  have hlt' := hjourney'.lt
  obtain rfl := hinj i i' hone (by omega) hone' (by omega)
    (hjourney.from_eq.trans hjourney'.from_eq.symm)
  obtain rfl := hinj j j' (by omega) hle (by omega) hle'
    (hjourney.to_eq.trans hjourney'.to_eq.symm)
  exact ⟨rfl, rfl, rfl,
    Option.some.inj (hjourney.daytrain.symm.trans hjourney'.daytrain)⟩

/-- The scan for a station name answers the stops of that name. -/
theorem mem_stationsNamed_iff (h : trains.Consistent) {name : String}
    {station : Station} :
    station ∈ trains.stationsNamed name ↔
      ∃ trainId train i, trains.Released trainId train ∧ 1 ≤ i ∧
        i ≤ train.stationNum ∧ train.stations i = name ∧
        train.station trainId i = station := by
  rw [stationsNamed, Index.mem_scanKey_iff]
  · constructor
    · rintro ⟨⟨name', trainId⟩, -, hzero, hfind⟩
      obtain rfl : name = name' :=
        (dualStringComparator_one_eq_zero_iff _ _).mp hzero
      obtain ⟨train, i, hstop⟩ := (h.station_iff _ _ _).mp hfind
      exact ⟨trainId, train, i, hstop⟩
    · rintro ⟨trainId, train, i, hstop⟩
      refine ⟨⟨name, trainId⟩, ?_,
        (dualStringComparator_one_eq_zero_iff _ _).mpr rfl,
        (h.station_iff _ _ _).mpr ⟨train, i, hstop⟩⟩
      refine not_lt.mp fun hlt => ?_
      rcases (DualString.lt_iff _ _).mp hlt with hlt | ⟨-, hlt⟩
      · exact lt_irrefl _ hlt
      · have hnil := String.lt_iff_toList_lt.mp hlt
        rw [String.toList_empty] at hnil
        exact List.not_lt_nil _ hnil
  · intro a b hka hab hzero
    have hb := (dualStringComparator_one_eq_zero_iff _ _).mp hzero
    refine (dualStringComparator_one_eq_zero_iff _ _).mpr ?_
    simp only at hb ⊢
    -- between two keys of one name lie only keys of that name
    have hle₁ : name ≤ a.firstStr := not_lt.mp fun hlt =>
      not_lt.mpr hka ((DualString.lt_iff _ _).mpr (Or.inl hlt))
    have hle₂ : a.firstStr ≤ b.firstStr := not_lt.mp fun hlt =>
      not_lt.mpr hab ((DualString.lt_iff _ _).mpr (Or.inl hlt))
    exact le_antisymm hle₁ (hb ▸ hle₂)

theorem stationsNamed_trainSorted (h : trains.Consistent) (name : String) :
    TrainSorted (trains.stationsNamed name) := by
  have hkey : ∀ k station,
      trains.stationDatabase.map.find? k = some station →
        (⟨station.stationName, station.trainId⟩ : DualString) = k := by
    rintro ⟨name', trainId⟩ station hfind
    obtain ⟨train, i, -, -, -, rfl, rfl⟩ := (h.station_iff _ _ _).mp hfind
    rfl
  refine (Index.scanKey_pairwise hkey _ _).imp_of_mem ?_
  intro a b ha hb hlt
  obtain ⟨_, _, _, -, -, -, hna, rfl⟩ := (mem_stationsNamed_iff h).mp ha
  obtain ⟨_, _, _, -, -, -, hnb, rfl⟩ := (mem_stationsNamed_iff h).mp hb
  rcases (DualString.lt_iff _ _).mp hlt with hlt | ⟨-, hlt⟩
  · simp only [Train.station, hna, hnb] at hlt
    exact absurd hlt (lt_irrefl _)
  · exact hlt

/-- A value from every call makes a list of values. -/
theorem exists_mapM_eq_some {α β : Type} {f : α → Option β} (xs : List α)
    (h : ∀ x ∈ xs, ∃ y, f x = some y) :
    ∃ ys, xs.mapM f = some ys ∧
      ∀ y, y ∈ ys ↔ ∃ x ∈ xs, f x = some y := by
  induction xs with
  | nil => exact ⟨[], rfl, by simp⟩
  | cons x xs ih =>
      obtain ⟨y, hy⟩ := h x List.mem_cons_self
      obtain ⟨ys, hys, hmem⟩ := ih fun x' hx' =>
        h x' (List.mem_cons_of_mem x hx')
      refine ⟨y :: ys, ?_, fun y' => ?_⟩
      · simp [List.mapM_cons, hy, hys]
      · simp [hmem, hy, eq_comm]

/-- The line that shows a journey. -/
def journeyRow (trainId fromStation toStation : String) (day : TimeType)
    (train : Train) (i j : ℕ) (d : DayTrain) : TicketRow where
  trainId := trainId
  fromStation := fromStation
  leaving := day - TimeType.getDate (train.leavingTimes i) +
    train.leavingTimes i
  toStation := toStation
  arriving := day - TimeType.getDate (train.leavingTimes i) +
    train.arrivingTimes j
  price := train.priceSum j - train.priceSum i
  seat := d.querySeat i (j - 1)

/-- The tickets that the merge finds are the journeys. -/
theorem mem_matchStations_stationsNamed_iff (h : trains.Consistent)
    {fromStation toStation : String} {day : TimeType} (hday : 1440 ∣ day)
    {ticket : Ticket} :
    ticket ∈ matchStations day
        ((trains.stationsNamed fromStation).length +
          (trains.stationsNamed toStation).length)
        (trains.stationsNamed fromStation)
        (trains.stationsNamed toStation) ↔
      ∃ trainId train i j d,
        trains.Journey trainId fromStation toStation day train i j d ∧
          ticket = ⟨train.station trainId i, train.station trainId j⟩ := by
  rw [mem_matchStations_iff (le_refl _)
    (stationsNamed_trainSorted h fromStation)
    (stationsNamed_trainSorted h toStation),
    mem_stationsNamed_iff h, mem_stationsNamed_iff h]
  constructor
  · obtain ⟨s, t⟩ := ticket
    rintro ⟨⟨trainId, train, i, hrel, hi, hin, hfrom, rfl⟩,
      ⟨trainId', train', j, hrel', hj, hjn, hto, rfl⟩, hruns⟩
    obtain rfl : trainId = trainId' := hruns.trainId_eq
    obtain rfl := hrel.unique hrel'
    have hdvd : 1440 ∣ day - TimeType.getDate (train.leavingTimes i) -
        train.startSaleDate :=
      dvd_sub (dvd_sub hday (TimeType.dvd_getDate _))
        (h.train_sound _ _ hrel.1).dvd_startSaleDate
    obtain ⟨d, hd⟩ := Option.isSome_iff_exists.mp
      ((h.daytrain_iff trainId
        (day - TimeType.getDate (train.leavingTimes i))).mpr
        ⟨train, hrel, mem_saleDays.mpr
          ⟨hruns.le_startDay, hruns.startDay_le, hdvd⟩⟩)
    exact ⟨trainId, train, i, j, d,
      ⟨hrel, hi, hruns.index_lt, hjn, hfrom, hto, hruns.le_startDay,
        hruns.startDay_le, hd⟩, rfl⟩
  · rintro ⟨trainId, train, i, j, d, hjourney, rfl⟩
    have hone := hjourney.one_le
    have hlt := hjourney.lt
    have hle := hjourney.le_stationNum
    exact ⟨⟨trainId, train, i, hjourney.released, hone, by omega,
        hjourney.from_eq, rfl⟩,
      ⟨trainId, train, j, hjourney.released, by omega, hle,
        hjourney.to_eq, rfl⟩,
      ⟨rfl, hlt, hjourney.le_startDay, hjourney.startDay_le⟩⟩

theorem Journey.ticketRow_eq {trainId fromStation toStation : String}
    {day : TimeType} {train : Train} {i j : ℕ} {d : DayTrain}
    (hjourney :
      trains.Journey trainId fromStation toStation day train i j d) :
    trains.ticketRow day
        ⟨train.station trainId i, train.station trainId j⟩ =
      some (journeyRow trainId fromStation toStation day train i j d) := by
  have hsearch : trains.daytrainDatabase.searchKey
      ⟨(train.station trainId i).trainId,
        (train.station trainId i).startDay day⟩ = [d] :=
    Index.searchKey_of_find? hjourney.daytrain
  simp only [ticketRow, hsearch, journeyRow, Option.some.injEq]
  rw [← hjourney.from_eq, ← hjourney.to_eq]
  rfl

/-- On a day up to August a query lists exactly the journeys. -/
theorem queryTicketWith_spec (h : trains.Consistent) (args : TicketArgs)
    (hne : args.s ≠ args.t) (hdate : isDate 6 9 args.date)
    (hmonth : monthOf args.date ≤ 8) {day : TimeType}
    (hday : TimeType.ofString (args.date ++ " 00:00") = some day) :
    ∃ rows, trains.queryTicketWith args = some (.tickets rows) ∧
      ∀ row, row ∈ rows ↔ ∃ trainId train i j d,
        trains.Journey trainId args.s args.t day train i j d ∧
          row = journeyRow trainId args.s args.t day train i j d := by
  have hcmp : StrictWeakOrder
      (if args.type = "time" then timeCmp else costCmp) := by
    split
    · exact timeCmp_strictWeakOrder
    · exact costCmp_strictWeakOrder
  obtain ⟨tickets, hsort, hperm, -⟩ := sort_spec hcmp
    (matchStations day ((trains.stationsNamed args.s).length +
      (trains.stationsNamed args.t).length) (trains.stationsNamed args.s)
      (trains.stationsNamed args.t))
  have hmem : ∀ ticket, ticket ∈ tickets ↔ _ := fun ticket =>
    hperm.mem_iff.trans (mem_matchStations_stationsNamed_iff h
      (TimeType.dvd_ofString (length_eq_of_isDate hdate) hday))
  have hrow : ∀ ticket ∈ tickets, ∃ row,
      trains.ticketRow day ticket = some row := by
    intro ticket hticket
    obtain ⟨_, _, _, _, _, hjourney, rfl⟩ := (hmem ticket).mp hticket
    exact ⟨_, hjourney.ticketRow_eq⟩
  obtain ⟨rows, hrows, hmemRows⟩ := exists_mapM_eq_some tickets hrow
  refine ⟨rows, ?_, fun row => ?_⟩
  · simp only [queryTicketWith, isLegal_of_isDate hdate, hday,
      Option.bind_eq_bind, Option.bind_some]
    rw [if_neg (by simpa using hmonth), if_neg hne, hsort,
      Option.bind_some, hrows, Option.bind_some]
  · rw [hmemRows]
    constructor
    · rintro ⟨ticket, hticket, hrow⟩
      obtain ⟨trainId, train, i, j, d, hjourney, rfl⟩ :=
        (hmem ticket).mp hticket
      rw [hjourney.ticketRow_eq] at hrow
      exact ⟨trainId, train, i, j, d, hjourney, (Option.some.inj hrow).symm⟩
    · rintro ⟨trainId, train, i, j, d, hjourney, rfl⟩
      exact ⟨_, (hmem _).mpr ⟨trainId, train, i, j, d, hjourney, rfl⟩,
        hjourney.ticketRow_eq⟩

/-- On a day in September a query lists nothing. -/
theorem queryTicketWith_september {args : TicketArgs}
    (hdate : isDate 6 9 args.date) (hmonth : ¬ monthOf args.date ≤ 8) :
    trains.queryTicketWith args = some (.tickets []) := by
  simp only [queryTicketWith, isLegal_of_isDate hdate, Option.bind_eq_bind,
    Option.bind_some]
  rw [if_pos (by simpa using hmonth)]

/-! ## What can be bought -/

/-- The search of `buy_ticket` finds both stops. -/
theorem findStations_eq {train : Train} {fromStation toStation : String}
    {i j : ℕ} (hi : i ≠ 0) (hj : j ≠ 0) {is : List ℕ}
    (hfrom : ∀ k ∈ is, train.stations k = fromStation ↔ k = i)
    (hto : ∀ k ∈ is, train.stations k = toStation ↔ k = j) {s t : ℕ}
    (hs : s = i ∨ s = 0 ∧ i ∈ is) (ht : t = j ∨ t = 0 ∧ j ∈ is) :
    train.findStations fromStation toStation is (s, t) = (i, j) := by
  induction is generalizing s t with
  | nil =>
      obtain rfl := hs.resolve_right (by simp)
      obtain rfl := ht.resolve_right (by simp)
      rfl
  | cons k is ih =>
      rw [Train.findStations]
      by_cases hdone : s ≠ 0 ∧ t ≠ 0
      · rw [if_pos hdone, hs.resolve_right fun hc => hdone.1 hc.1,
          ht.resolve_right fun hc => hdone.2 hc.1]
      · rw [if_neg hdone]
        apply ih
        · exact fun k' hk' => hfrom k' (List.mem_cons_of_mem k hk')
        · exact fun k' hk' => hto k' (List.mem_cons_of_mem k hk')
        · by_cases hk : k = i
          · rw [if_pos ((hfrom k List.mem_cons_self).mpr hk)]
            exact Or.inl hk
          · rw [if_neg fun hc => hk ((hfrom k List.mem_cons_self).mp hc)]
            refine hs.imp_right fun hc => ⟨hc.1, ?_⟩
            exact (List.mem_cons.mp hc.2).resolve_left (Ne.symm hk)
        · by_cases hk : k = j
          · rw [if_pos ((hto k List.mem_cons_self).mpr hk)]
            exact Or.inl hk
          · rw [if_neg fun hc => hk ((hto k List.mem_cons_self).mp hc)]
            refine ht.imp_right fun hc => ⟨hc.1, ?_⟩
            exact (List.mem_cons.mp hc.2).resolve_left (Ne.symm hk)

/-- A purchase without waiting succeeds exactly on a journey with enough
seats, and costs what the journey costs. -/
theorem buyTicketWith_bought_iff (h : trains.Consistent)
    {accounts : AccountManagement} (args : BuyArgs)
    (hlogin : (accounts.loginPool.find? args.userName).isSome)
    (hpending : args.isPending = false) {day : TimeType}
    (hday : TimeType.ofString (args.date ++ " 00:00") = some day)
    (total : ℤ) :
    (∃ trains', trains.buyTicketWith accounts args =
        some (.bought total, trains')) ↔
      ∃ train i j d, trains.Journey args.trainId args.fromStation
          args.toStation day train i j d ∧
        args.num ≤ d.querySeat i (j - 1) ∧
        total = toInt32 (args.num * (train.priceSum j - train.priceSum i)) := by
  constructor
  · rintro ⟨trains', hbuy⟩
    rcases buyTicketWith_cases hbuy with
      ⟨hc, -⟩ | ⟨train, startDay, i, j, d, hpurchase, -, hseat, hplace⟩
    · cases hc
    obtain ⟨date, hdate, rfl⟩ := hpurchase.startDay_eq
    obtain rfl := Option.some.inj (hday.symm.trans hdate)
    have hfits := hseat.resolve_left (by rw [hpending]; decide)
    refine ⟨train, i, j, d, ?_, hfits, ?_⟩
    · exact
        { released := hpurchase.released
          one_le := hpurchase.one_le
          lt := hpurchase.lt
          le_stationNum := hpurchase.le_stationNum
          from_eq := hpurchase.from_eq
          to_eq := hpurchase.to_eq
          le_startDay := hpurchase.le_startDay
          startDay_le := hpurchase.startDay_le
          daytrain := hpurchase.daytrain }
    · unfold placeOrder at hplace
      rw [if_pos (by exact hfits)] at hplace
      exact TrainReply.bought.inj (Prod.mk.inj hplace).1
  · rintro ⟨train, i, j, d, hjourney, hfits, rfl⟩
    have hone := hjourney.one_le
    have hlt := hjourney.lt
    have hle := hjourney.le_stationNum
    have hinj := (h.train_sound _ _ hjourney.released.1).stations_inj
    have htotal : args.num ≤ train.totalSeatNum := by
      have hseat := (h.seats _ _ _ _ hjourney.released hjourney.daytrain i
        hone (by omega)).1
      have hnum := DayTrain.le_seatNum_of_le_querySeat hfits (le_refl i) hlt
      have hbooked := h.booked_nonneg args.trainId
        (day - TimeType.getDate (train.leavingTimes i)) i
      omega
    have hfound : train.findStations args.fromStation args.toStation
        (loopRange 1 train.stationNum) (0, 0) = (i, j) := by
      refine findStations_eq (by omega) (by omega) (fun k hk => ?_)
        (fun k hk => ?_) (Or.inr ⟨rfl, mem_loopRange.mpr ⟨hone, by omega⟩⟩)
        (Or.inr ⟨rfl, mem_loopRange.mpr ⟨by omega, hle⟩⟩)
      · obtain ⟨hk, hkn⟩ := mem_loopRange.mp hk
        rw [← hjourney.from_eq]
        exact ⟨hinj k i hk hkn hone (by omega), fun heq => heq ▸ rfl⟩
      · obtain ⟨hk, hkn⟩ := mem_loopRange.mp hk
        rw [← hjourney.to_eq]
        exact ⟨hinj k j hk hkn (by omega) hle, fun heq => heq ▸ rfl⟩
    have hlogged : ¬ (accounts.loginPool.find? args.userName).isNone := by
      rw [← Option.not_isSome, hlogin]
      decide
    have hfree : ¬ (¬ args.isPending ∧ d.querySeat i (j - 1) < args.num) :=
      fun hc => absurd hc.2 (not_lt.mpr hfits)
    refine ⟨trains.sell (trains.newOrder args train
      (day - TimeType.getDate (train.leavingTimes i)) i j) d, ?_⟩
    rw [buyTicketWith, if_neg hlogged,
      Index.searchKey_of_find? hjourney.released.1]
    simp only [Option.toList_some, hfound, hday, Option.bind_eq_bind,
      Option.bind_some]
    rw [if_neg (not_not.mpr hjourney.released.2),
      if_neg (not_lt.mpr htotal), if_neg (by omega),
      if_neg (by
        rw [not_or, not_lt, not_lt]
        exact ⟨hjourney.le_startDay, hjourney.startDay_le⟩),
      Index.searchKey_of_find? hjourney.daytrain]
    simp only [Option.toList_some]
    rw [if_neg hfree, placeOrder, if_pos (by exact hfits)]
    rfl

/-- The train can be boarded at the station on the date and has the seats. -/
def SeatsFree (trains : TrainManagement) (trainId fromStation toStation
    date : String) (num : ℤ) : Prop :=
  ∃ day train i j d, TimeType.ofString (date ++ " 00:00") = some day ∧
    trains.Journey trainId fromStation toStation day train i j d ∧
    num ≤ d.querySeat i (j - 1)

end TrainManagement

/-! ## Purchase and query -/

namespace System

/-- The purchase succeeds exactly if the query lists the train with enough
seats, and then costs the listed price for each ticket. -/
def BuyMatchesQuery (s : System) (buy query : Request) (trainId : String)
    (num : ℤ) : Prop :=
  ((∃ total s', s.step buy = some (.train (.bought total), s')) ↔
    ∃ rows, s.step query = some (.train (.tickets rows), s) ∧
      ∃ row ∈ rows, row.trainId = trainId ∧ num ≤ row.seat) ∧
  ∀ total s' rows row, s.step buy = some (.train (.bought total), s') →
    s.step query = some (.train (.tickets rows), s) → row ∈ rows →
      row.trainId = trainId → num ≤ row.seat → total = num * row.price

/-- What a purchase answers when it succeeds. -/
theorem step_buyTicket_iff {s : System} {uninit : ℤ} {line : List String}
    {total : ℤ} :
    (∃ s', s.step ⟨.buyTicket, line, uninit⟩ =
        some (.train (.bought total), s')) ↔
      ∃ trains', s.trains.buyTicketWith s.accounts
        (BuyArgs.ofLine uninit line) = some (.bought total, trains') := by
  simp only [step, TrainManagement.buyTicket, withTrains,
    Option.map_eq_some_iff, Prod.mk.injEq, Reply.train.injEq]
  constructor
  · rintro ⟨s', ⟨r, trains'⟩, hstep, rfl, -⟩
    exact ⟨trains', hstep⟩
  · rintro ⟨trains', hstep⟩
    exact ⟨_, ⟨_, trains'⟩, hstep, rfl, rfl⟩

/-- What a query answers. -/
theorem step_queryTicket_iff {s : System} {line : List String}
    {rows : List TicketRow} :
    s.step ⟨.queryTicket, line, 0⟩ = some (.train (.tickets rows), s) ↔
      s.trains.queryTicketWith (TicketArgs.ofLine line) =
        some (.tickets rows) := by
  simp only [step, TrainManagement.queryTicket, Option.map_eq_some_iff,
    Prod.mk.injEq, Reply.train.injEq, and_true, exists_eq_right]

/-- A purchase without waiting succeeds exactly on a journey with enough
seats. -/
theorem step_buyTicket_bought_iff {s : System} (h : s.trains.Consistent)
    {uninit : ℤ} {line : List String} {args : BuyArgs}
    (hargs : BuyArgs.ofLine uninit line = args)
    (hlogin : (s.accounts.loginPool.find? args.userName).isSome)
    (hpending : args.isPending = false) {day : TimeType}
    (hday : TimeType.ofString (args.date ++ " 00:00") = some day)
    (total : ℤ) :
    (∃ s', s.step ⟨.buyTicket, line, uninit⟩ =
        some (.train (.bought total), s')) ↔
      ∃ train i j d, s.trains.Journey args.trainId args.fromStation
          args.toStation day train i j d ∧
        args.num ≤ d.querySeat i (j - 1) ∧
        total = toInt32 (args.num * (train.priceSum j - train.priceSum i)) := by
  rw [step_buyTicket_iff, hargs]
  exact TrainManagement.buyTicketWith_bought_iff h args hlogin hpending hday
    total

theorem step_buyTicket_iff_seatsFree {s : System} (h : s.trains.Consistent)
    {uninit : ℤ} {line : List String} {args : BuyArgs}
    (hargs : BuyArgs.ofLine uninit line = args)
    (hlogin : (s.accounts.loginPool.find? args.userName).isSome)
    (hpending : args.isPending = false) {day : TimeType}
    (hday : TimeType.ofString (args.date ++ " 00:00") = some day) :
    (∃ total s', s.step ⟨.buyTicket, line, uninit⟩ =
        some (.train (.bought total), s')) ↔
      s.trains.SeatsFree args.trainId args.fromStation args.toStation
        args.date args.num := by
  have hbought := step_buyTicket_bought_iff h hargs hlogin hpending hday
  constructor
  · rintro ⟨total, hbuys⟩
    obtain ⟨train, i, j, d, hjourney, hseat, -⟩ := (hbought total).mp hbuys
    exact ⟨day, train, i, j, d, hday, hjourney, hseat⟩
  · rintro ⟨day', train, i, j, d, hday', hjourney, hseat⟩
    obtain rfl := Option.some.inj (hday.symm.trans hday')
    exact ⟨_, (hbought _).mpr ⟨train, i, j, d, hjourney, hseat, rfl⟩⟩

/-- One query has one answer. -/
theorem rows_eq_of_step {s : System} {query : Request}
    {rows rows' : List TicketRow}
    (hlisted : s.step query = some (.train (.tickets rows), s))
    (hrows : s.step query = some (.train (.tickets rows'), s)) :
    rows = rows' := by
  have hpair := Option.some.inj (hlisted.symm.trans hrows)
  injection (Prod.mk.inj hpair).1 with hreply
  injection hreply

/-- With the same journeys behind purchase and query they match. -/
theorem buyMatchesQuery_of_listed {s : System} (h : s.trains.Consistent)
    {buy query : Request} {trainId fromStation toStation : String} {num : ℤ}
    {day : TimeType} {rows : List TicketRow}
    (hprod : ∀ train i j d, s.trains.Journey trainId fromStation toStation day
      train i j d → IsInt32 (num * (train.priceSum j - train.priceSum i)))
    (hbought : ∀ total,
      (∃ s', s.step buy = some (.train (.bought total), s')) ↔
      ∃ train i j d, s.trains.Journey trainId fromStation toStation day train
          i j d ∧ num ≤ d.querySeat i (j - 1) ∧
        total = toInt32 (num * (train.priceSum j - train.priceSum i)))
    (hlisted : s.step query = some (.train (.tickets rows), s))
    (hmem : ∀ row, row ∈ rows ↔ ∃ trainId train i j d,
      s.trains.Journey trainId fromStation toStation day train i j d ∧
        row = TrainManagement.journeyRow trainId fromStation toStation day
          train i j d) :
    s.BuyMatchesQuery buy query trainId num := by
  refine ⟨⟨?_, ?_⟩, ?_⟩
  · rintro ⟨total, hbuys⟩
    obtain ⟨train, i, j, d, hjourney, hseat, -⟩ := (hbought total).mp hbuys
    exact ⟨rows, hlisted, _,
      (hmem _).mpr ⟨trainId, train, i, j, d, hjourney, rfl⟩, rfl, hseat⟩
  · rintro ⟨rows', hrows', row, hrow, htrain, hseat⟩
    obtain rfl := rows_eq_of_step hlisted hrows'
    obtain ⟨_, train, i, j, d, hjourney, rfl⟩ := (hmem row).mp hrow
    obtain rfl : _ = trainId := htrain
    exact ⟨_, (hbought _).mpr ⟨train, i, j, d, hjourney, hseat, rfl⟩⟩
  · intro total s' rows' row hbuys hrows' hrow htrain _
    obtain rfl := rows_eq_of_step hlisted hrows'
    obtain ⟨_, train, i, j, d, hjourney, rfl⟩ := (hmem row).mp hrow
    obtain rfl : _ = trainId := htrain
    obtain ⟨train', i', j', d', hjourney', -, rfl⟩ :=
      (hbought total).mp ⟨s', hbuys⟩
    obtain ⟨rfl, rfl, rfl, -⟩ := hjourney.unique h hjourney'
    exact toInt32_eq_self_iff.mpr (hprod _ _ _ _ hjourney)

/-- If the query lists nothing, then they match when the purchase fails. -/
theorem buyMatchesQuery_iff_of_nil {s : System} {buy query : Request}
    {trainId : String} {num : ℤ}
    (hlisted : s.step query = some (.train (.tickets []), s)) :
    s.BuyMatchesQuery buy query trainId num ↔
      ¬ ∃ total s', s.step buy = some (.train (.bought total), s') := by
  constructor
  · rintro ⟨hiff, -⟩ hbuys
    obtain ⟨rows, hrows, row, hrow, -⟩ := hiff.mp hbuys
    obtain rfl := rows_eq_of_step hlisted hrows
    exact List.not_mem_nil hrow
  · intro hfails
    refine ⟨iff_of_false hfails ?_, ?_⟩
    · rintro ⟨rows, hrows, row, hrow, -⟩
      obtain rfl := rows_eq_of_step hlisted hrows
      exact List.not_mem_nil hrow
    · intro total s' rows row hbuys
      exact absurd ⟨total, s', hbuys⟩ hfails

/-- In every reachable state a purchase whose total is an `int` matches the
query, unless the date is in September and the purchase could be served. -/
theorem Reachable.buyMatchesQuery_iff {s : System} (h : s.Reachable)
    {userName trainId fromStation toStation date : String} {num uninit : ℤ}
    {buyLine queryLine : List String}
    (hbuy : BuyArgs.ofLine uninit buyLine =
      { userName := userName, trainId := trainId, date := date, num := num,
        fromStation := fromStation, toStation := toStation })
    (hquery : TicketArgs.ofLine queryLine =
      { s := fromStation, t := toStation, date := date })
    (hlogin : (s.accounts.loginPool.find? userName).isSome)
    (hne : fromStation ≠ toStation) (hdate : isDate 6 9 date)
    (hprod : ∀ day train i j d, s.trains.Journey trainId fromStation toStation
      day train i j d →
        IsInt32 (num * (train.priceSum j - train.priceSum i))) :
    s.BuyMatchesQuery ⟨.buyTicket, buyLine, uninit⟩
        ⟨.queryTicket, queryLine, 0⟩ trainId num ↔
      (monthOf date ≤ 8 ∨ ¬ s.trains.SeatsFree trainId fromStation toStation
        date num) := by
  have hcons := h.consistent
  obtain ⟨day, hday⟩ := TimeType.exists_ofString hdate
  by_cases hmonth : monthOf date ≤ 8
  · obtain ⟨rows, hrows, hmem⟩ := TrainManagement.queryTicketWith_spec hcons
      { s := fromStation, t := toStation, date := date } hne hdate hmonth hday
    refine iff_of_true ?_ (Or.inl hmonth)
    exact buyMatchesQuery_of_listed hcons (hprod day)
      (step_buyTicket_bought_iff hcons hbuy hlogin rfl hday)
      (step_queryTicket_iff.mpr (hquery ▸ hrows)) hmem
  · have hnone : s.trains.queryTicketWith (TicketArgs.ofLine queryLine) =
        some (.tickets []) := by
      rw [hquery]
      exact TrainManagement.queryTicketWith_september hdate hmonth
    -- the query answers nothing, so the purchase has to fail
    rw [or_iff_right hmonth,
      buyMatchesQuery_iff_of_nil (step_queryTicket_iff.mpr hnone),
      step_buyTicket_iff_seatsFree hcons hbuy hlogin rfl hday]

/-- After `waitingRun` two tickets from the first to the second station can be
bought as listed. -/
theorem buyMatchesQuery_iff_waitingRun :
    ∃ s : System, s.BuyMatchesQuery
        ⟨.buyTicket, ["-u", "root", "-i", "T", "-d", "06-01", "-n", "2",
          "-f", "A", "-t", "B"], 0⟩
        ⟨.queryTicket, ["-s", "A", "-t", "B", "-d", "06-01"], 0⟩ "T" 2 ↔
      (monthOf "06-01" ≤ 8 ∨
        ¬ s.trains.SeatsFree "T" "A" "B" "06-01" 2) := by
  have hrun : ((runSteps System.step
      (System.start (Databases.new fun _ => 0)) waitingRun).map fun s =>
        ((s.accounts.loginPool.find? "root").isSome,
          (s.trains.trainDatabase.map.find? "T").map fun train =>
            decide (train.stationNum = 3 ∧ ∀ i ∈ List.range 4,
              ∀ j ∈ List.range 4,
              IsInt32 (2 * (train.priceSum j - train.priceSum i))))) =
      some (true, some true) := by
    decide +kernel
  obtain ⟨s, hs, hfacts⟩ := Option.map_eq_some_iff.mp hrun
  obtain ⟨hlogin, htrain⟩ := Prod.mk.inj hfacts
  obtain ⟨train, hfind, hprices⟩ := Option.map_eq_some_iff.mp htrain
  obtain ⟨hnum, hproducts⟩ := of_decide_eq_true hprices
  have hok : StepsOk System.step (fun _ request => request.WellFormed)
      (System.start (Databases.new fun _ => 0)) waitingRun := by
    decide +kernel
  refine ⟨s, System.Reachable.buyMatchesQuery_iff (reachable_of_runSteps hok hs)
    (by decide +kernel) (by decide +kernel) hlogin (by decide)
    (by decide +kernel) ?_⟩
  intro day train' i j d hjourney
  obtain rfl := Option.some.inj (hfind.symm.trans hjourney.released.1)
  have hlt := hjourney.lt
  have hle := hjourney.le_stationNum
  exact hproducts i (List.mem_range.mpr (by omega)) j
    (List.mem_range.mpr (by omega))

/-- A train that leaves at the end of August and reaches its second station in
September. -/
def septemberRun : List Request :=
  [⟨.addUser, ["-u", "root", "-p", "a"], 0⟩,
    ⟨.login, ["-u", "root", "-p", "a"], 0⟩,
    ⟨.addTrain, ["-i", "T", "-n", "3", "-m", "10", "-s", "A|B|C", "-p", "1|2",
      "-x", "23:00", "-t", "60|60", "-o", "5", "-d", "08-31|08-31",
      "-y", "G"], 0⟩,
    ⟨.releaseTrain, ["-i", "T"], 0⟩]

/-- Its tickets from the second station can be bought and are not listed. -/
theorem not_always_buyMatchesQuery :
    ¬ ∀ s : System, s.Reachable → s.BuyMatchesQuery
      ⟨.buyTicket, ["-u", "root", "-i", "T", "-d", "09-01", "-n", "1",
        "-f", "B", "-t", "C"], 0⟩
      ⟨.queryTicket, ["-s", "B", "-t", "C", "-d", "09-01"], 0⟩ "T" 1 := by
  intro hall
  have hrun : ((runSteps System.step
      (System.start (Databases.new fun _ => 0)) septemberRun).map fun s =>
        ((s.step ⟨.buyTicket, ["-u", "root", "-i", "T", "-d", "09-01",
            "-n", "1", "-f", "B", "-t", "C"], 0⟩).map Prod.fst,
          (s.step ⟨.queryTicket, ["-s", "B", "-t", "C", "-d", "09-01"],
            0⟩).map Prod.fst)) =
      some (some (.train (.bought 2)), some (.train (.tickets []))) := by
    decide +kernel
  obtain ⟨s, hs, hfacts⟩ := Option.map_eq_some_iff.mp hrun
  obtain ⟨hbuy, hquery⟩ := Prod.mk.inj hfacts
  obtain ⟨⟨r, s'⟩, hbuys, rfl⟩ := Option.map_eq_some_iff.mp hbuy
  obtain ⟨⟨r', s''⟩, hqueries, rfl⟩ := Option.map_eq_some_iff.mp hquery
  have hok : StepsOk System.step (fun _ request => request.WellFormed)
      (System.start (Databases.new fun _ => 0)) septemberRun := by
    decide +kernel
  obtain ⟨rows, hrows, row, hrow, -⟩ :=
    (hall s (reachable_of_runSteps hok hs)).1.mp ⟨2, s', hbuys⟩
  rw [hqueries] at hrows
  cases hrows
  cases hrow

end System

end TicketSystem.Backend
