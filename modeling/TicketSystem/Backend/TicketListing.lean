import TicketSystem.Backend.TicketQuery

/-!
# The list of `query_ticket`

The list has one line for each released train that passes both stations in
their order and can be boarded on the day, by travel time or by price and then
by train.  The merge answers every train once, since the stations of a name
come by train, and the sort decides ties by the train.
-/

namespace TicketSystem.Backend

open TicketSystem.Support
open TicketSystem.Database

/-! ## Lists of rows -/

theorem mapM_eq_some_iff {α β : Type} {f : α → Option β} {xs : List α}
    {ys : List β} : xs.mapM f = some ys ↔ xs.map f = ys.map some := by
  induction xs generalizing ys with
  | nil =>
      simp only [List.mapM_nil, Option.pure_def, Option.some.injEq,
        List.map_nil]
      exact ⟨fun h => h ▸ rfl, fun h => (List.map_eq_nil_iff.mp h.symm).symm⟩
  | cons x xs ih =>
      simp only [List.mapM_cons, Option.bind_eq_bind, Option.pure_def,
        Option.bind_eq_some_iff, Option.some.injEq, List.map_cons]
      constructor
      · rintro ⟨y, hy, ys', hys, rfl⟩
        rw [hy, ih.mp hys]
        rfl
      · intro h
        cases ys with
        | nil => cases h
        | cons y ys =>
            obtain ⟨hy, hys⟩ := List.cons.inj h
            exact ⟨y, hy, ys, ih.mpr hys, rfl⟩

/-- The values of a list of calls keep an order of the arguments. -/
theorem pairwise_of_mapM {α β : Type} {f : α → Option β} {xs : List α}
    {ys : List β} {R : α → α → Prop} {S : β → β → Prop}
    (h : xs.mapM f = some ys) (hxs : xs.Pairwise R)
    (himp : ∀ a b c d, R a b → f a = some c → f b = some d → S c d) :
    ys.Pairwise S := by
  have hmap : (xs.map f).Pairwise fun o o' =>
      ∀ c d, o = some c → o' = some d → S c d :=
    List.pairwise_map.mpr (hxs.imp fun hab c d => himp _ _ c d hab)
  rw [mapM_eq_some_iff.mp h, List.pairwise_map] at hmap
  exact hmap.imp fun hcd => hcd _ _ rfl rfl

/-! ## The order of the lines -/

/-- The travel time that a line shows. -/
def TicketRow.time (row : TicketRow) : ℤ := row.arriving - row.leaving

/-- The order of the lines: by time or by price, then by train. -/
def TicketRow.Before (type : String) (a b : TicketRow) : Prop :=
  if type = "time" then
    a.time < b.time ∨ a.time = b.time ∧ a.trainId < b.trainId
  else a.price < b.price ∨ a.price = b.price ∧ a.trainId < b.trainId

/-- A sort by one key and then by train orders the tickets of different
trains. -/
theorem lt_of_not_cmp {a b : Ticket} {f : Ticket → ℤ}
    (hcmp : (if f b = f a then decide (strcmp b.s.trainId a.s.trainId < 0)
      else decide (f b < f a)) = false)
    (hne : a.s.trainId ≠ b.s.trainId) :
    f a < f b ∨ f a = f b ∧ a.s.trainId < b.s.trainId := by
  split_ifs at hcmp with heq
  · have hle := of_decide_eq_false hcmp
    rw [strcmp_neg_iff, not_lt] at hle
    exact Or.inr ⟨heq.symm, lt_of_le_of_ne hle hne⟩
  · have hle := not_lt.mp (of_decide_eq_false hcmp)
    exact Or.inl (lt_of_le_of_ne hle (Ne.symm heq))

/-- The tickets of the merge are for different trains. -/
theorem matchStations_sublist (day : TimeType) (n : ℕ)
    (ans1 ans2 : List Station) :
    ((matchStations day n ans1 ans2).map Ticket.s).Sublist ans1 := by
  induction n generalizing ans1 ans2 with
  | zero => exact List.nil_sublist _
  | succ n ih =>
      match ans1, ans2 with
      | [], ans2 => exact List.nil_sublist _
      | s1 :: ans1, [] => exact List.nil_sublist _
      | s1 :: ans1, t1 :: ans2 =>
          rw [matchStations]
          split_ifs
          · exact (ih ans1 (t1 :: ans2)).cons s1
          · exact ih (s1 :: ans1) ans2
          · exact (ih ans1 ans2).cons s1
          · exact (ih ans1 ans2).cons_cons s1
          · exact (ih ans1 ans2).cons s1

/-! ## The trains that are listed -/

namespace TrainManagement

variable {trains : TrainManagement}

/-- A released train that passes two stations in their order and can be
boarded at the first one on `day`. -/
structure Passes (trains : TrainManagement) (trainId fromStation toStation :
    String) (day : TimeType) (train : Train) (i j : ℕ) : Prop where
  released : trains.Released trainId train
  one_le : 1 ≤ i
  lt : i < j
  le_stationNum : j ≤ train.stationNum
  from_eq : train.stations i = fromStation
  to_eq : train.stations j = toStation
  le_startDay : train.startSaleDate ≤
    day - TimeType.getDate (train.leavingTimes i)
  startDay_le : day - TimeType.getDate (train.leavingTimes i) ≤
    train.endSaleDate

theorem Journey.passes {trainId fromStation toStation : String}
    {day : TimeType} {train : Train} {i j : ℕ} {d : DayTrain}
    (h : trains.Journey trainId fromStation toStation day train i j d) :
    trains.Passes trainId fromStation toStation day train i j :=
  ⟨h.released, h.one_le, h.lt, h.le_stationNum, h.from_eq, h.to_eq,
    h.le_startDay, h.startDay_le⟩

/-- On a day of its sale window a train has seats. -/
theorem Consistent.exists_daytrain_of_released (h : trains.Consistent)
    {trainId : String} {train : Train} {day : TimeType}
    (hrel : trains.Released trainId train) (hday : 1440 ∣ day)
    (hle : train.startSaleDate ≤ day) (hge : day ≤ train.endSaleDate) :
    ∃ d, trains.daytrainDatabase.map.find? ⟨trainId, day⟩ = some d := by
  have hdvd : 1440 ∣ day - train.startSaleDate :=
    dvd_sub hday (h.train_sound _ _ hrel.1).dvd_startSaleDate
  exact Option.isSome_iff_exists.mp ((h.daytrain_iff trainId day).mpr
    ⟨train, hrel, mem_saleDays.mpr ⟨hle, hge, hdvd⟩⟩)

theorem Passes.exists_journey {trainId fromStation toStation : String}
    {day : TimeType} {train : Train} {i j : ℕ}
    (hpasses : trains.Passes trainId fromStation toStation day train i j)
    (h : trains.Consistent) (hday : 1440 ∣ day) :
    ∃ d, trains.Journey trainId fromStation toStation day train i j d := by
  obtain ⟨d, hd⟩ := h.exists_daytrain_of_released hpasses.released
    (dvd_sub hday (TimeType.dvd_getDate _)) hpasses.le_startDay
    hpasses.startDay_le
  exact ⟨d, hpasses.released, hpasses.one_le, hpasses.lt,
    hpasses.le_stationNum, hpasses.from_eq, hpasses.to_eq,
    hpasses.le_startDay, hpasses.startDay_le, hd⟩

theorem ticketRow_fields {day : TimeType} {ticket : Ticket}
    {row : TicketRow} (h : trains.ticketRow day ticket = some row) :
    row.trainId = ticket.s.trainId ∧ row.time = ticket.time ∧
      row.price = ticket.cost := by
  unfold ticketRow at h
  dsimp only at h
  cases hday : trains.daytrainDatabase.searchKey
      ⟨ticket.s.trainId, ticket.s.startDay day⟩ with
  | nil =>
      rw [hday] at h
      cases h
  | cons d _ =>
      rw [hday] at h
      obtain rfl := Option.some.inj h
      exact ⟨rfl, add_sub_add_left_eq_sub _ _ _, rfl⟩

/-- The lines come in the order that was asked for. -/
theorem pairwise_queryTicketWith (h : trains.Consistent) {args : TicketArgs}
    {rows : List TicketRow}
    (hrows : trains.queryTicketWith args = some (.tickets rows)) :
    rows.Pairwise fun a b =>
      a.trainId ≠ b.trainId ∧ TicketRow.Before args.type a b := by
  unfold queryTicketWith at hrows
  obtain ⟨legal, -, hrows⟩ := Option.bind_eq_some_iff.mp hrows
  by_cases hlegal : ¬ legal = true
  · rw [if_pos hlegal] at hrows
    obtain rfl : [] = rows := TrainReply.tickets.inj (Option.some.inj hrows)
    exact List.Pairwise.nil
  rw [if_neg hlegal] at hrows
  by_cases hsame : args.s = args.t
  · rw [if_pos hsame] at hrows
    obtain rfl : [] = rows := TrainReply.tickets.inj (Option.some.inj hrows)
    exact List.Pairwise.nil
  · rw [if_neg hsame] at hrows
    obtain ⟨day, -, hrows⟩ := Option.bind_eq_some_iff.mp hrows
    obtain ⟨tickets, hsort, hrows⟩ := Option.bind_eq_some_iff.mp hrows
    obtain ⟨rows', hmap, heq⟩ := Option.bind_eq_some_iff.mp hrows
    obtain rfl : rows' = rows := TrainReply.tickets.inj (Option.some.inj heq)
    have hcmp : StrictWeakOrder
        (if args.type = "time" then timeCmp else costCmp) := by
      split
      · exact timeCmp_strictWeakOrder
      · exact costCmp_strictWeakOrder
    obtain ⟨hperm, hsorted⟩ := sort_eq_some hcmp hsort
    -- every train has one ticket, before and after the sort
    have hmerge := (stationsNamed_trainSorted h args.s).sublist
      (matchStations_sublist day ((trains.stationsNamed args.s).length +
        (trains.stationsNamed args.t).length) (trains.stationsNamed args.s)
        (trains.stationsNamed args.t))
    have hdiffer : tickets.Pairwise
        fun a b => a.s.trainId ≠ b.s.trainId := by
      apply List.Pairwise.perm _ hperm.symm fun hne => Ne.symm hne
      exact (List.pairwise_map.mp hmerge).imp fun hlt => ne_of_lt hlt
    apply pairwise_of_mapM hmap (hsorted.and hdiffer)
    rintro a b ra rb ⟨hnot, hne⟩ hra hrb
    obtain ⟨hida, htimea, hpricea⟩ := ticketRow_fields hra
    obtain ⟨hidb, htimeb, hpriceb⟩ := ticketRow_fields hrb
    refine ⟨by rwa [hida, hidb], ?_⟩
    rw [TicketRow.Before, hida, hidb, htimea, htimeb, hpricea, hpriceb]
    split_ifs with htype
    · rw [if_pos htype] at hnot
      exact @lt_of_not_cmp a b Ticket.time hnot hne
    · rw [if_neg htype] at hnot
      exact @lt_of_not_cmp a b Ticket.cost hnot hne

end TrainManagement

/-- `query_seat` is the least of the seats, which are integers of the
machine. -/
theorem DayTrain.isLeast_querySeat {d : DayTrain} {i j : ℕ} (hij : i < j)
    (hint : ∀ k, i ≤ k → k < j → d.seatNum k ≤ maxInt) :
    IsLeast (d.seatNum '' Set.Ico i j) (d.querySeat i (j - 1)) := by
  have hlower := (DayTrain.le_querySeat_iff (d := d) (l := i) (r := j - 1)
    (n := d.querySeat i (j - 1))).mp le_rfl
  have hmin : ∃ k ∈ Set.Ico i j, d.querySeat i (j - 1) = d.seatNum k := by
    by_contra hnone
    push Not at hnone
    have hlt : ∀ k, i ≤ k → k ≤ j - 1 →
        d.querySeat i (j - 1) + 1 ≤ d.seatNum k := by
      intro k hik hkj
      exact lt_of_le_of_ne (hlower.2 k hik hkj)
        (hnone k ⟨hik, by omega⟩)
    have hfirst := hlt i le_rfl (by omega)
    have hbound := hint i le_rfl hij
    have hle := DayTrain.le_querySeat_iff.mpr ⟨hfirst.trans hbound, hlt⟩
    omega
  constructor
  · obtain ⟨k, hk, heq⟩ := hmin
    exact ⟨k, hk, heq.symm⟩
  · rintro - ⟨k, hk, rfl⟩
    exact hlower.2 k hk.1 (by have := hk.2; omega)

/-- A list that is not empty is printed on more than one character. -/
theorem TrainReply.render_tickets_eq_zero_iff {rows : List TicketRow} :
    (TrainReply.tickets rows).render = "0" ↔ rows = [] := by
  constructor
  · intro h
    cases rows with
    | nil => rfl
    | cons row rows =>
        have hlen := congrArg String.length h
        have hnum : 0 < (toString (row :: rows).length).length :=
          Nat.length_repr_pos
        simp only [TrainReply.render, List.map_cons, String.join_cons,
          String.length_append] at hlen
        have hone : "0".length = 1 := rfl
        have hnl : "\n".length = 1 := rfl
        omega
  · rintro rfl
    rfl

/-! ## The query -/

/-- In every reachable state a query for a day of June, July or August answers
one line for each released train that passes both stations and can be boarded
on the day, with its times, its price and the seats of the day on which it
starts, ordered by the key that was asked for; it answers zero when there is no
such train. -/
theorem System.Reachable.queryTicket_lists {s : System} (hs : s.Reachable)
    {line : List String} {uninit : ℤ} {args : TicketArgs}
    (hargs : TicketArgs.ofLine line = args) (hne : args.s ≠ args.t)
    (hdate : isDate 6 8 args.date) :
    ∃ day rows, TimeType.ofString (args.date ++ " 00:00") = some day ∧
      s.step ⟨.queryTicket, line, uninit⟩ =
        some (.train (.tickets rows), s) ∧
      (∀ row, row ∈ rows ↔ ∃ trainId train i j d,
        s.trains.Passes trainId args.s args.t day train i j ∧
          s.trains.daytrainDatabase.map.find?
            ⟨trainId, day - TimeType.getDate (train.leavingTimes i)⟩ =
              some d ∧
          row = TrainManagement.journeyRow trainId args.s args.t day train i j
            d) ∧
      (∀ trainId, trainId ∈ rows.map TicketRow.trainId ↔ ∃ train i j,
        s.trains.Passes trainId args.s args.t day train i j) ∧
      (rows.map TicketRow.trainId).Nodup ∧
      rows.Pairwise (TicketRow.Before args.type) ∧
      (∀ (d : DayTrain) (i j : ℕ), i < j →
        (∀ k, i ≤ k → k < j → d.seatNum k ≤ maxInt) →
          IsLeast (d.seatNum '' Set.Ico i j) (d.querySeat i (j - 1))) ∧
      ((TrainReply.tickets rows).render = "0" ↔ ∀ trainId train i j,
        ¬ s.trains.Passes trainId args.s args.t day train i j) := by
  have h := hs.consistent
  have hdate9 : isDate 6 9 args.date := isDate_mono (by decide) hdate
  obtain ⟨day, hday⟩ := TimeType.exists_ofString hdate9
  obtain ⟨m₁, m₂, d₁, d₂, hchars, -, hmonth⟩ := isDate_cases hdate
  have hdvd := TimeType.dvd_ofString (length_eq_of_isDate hdate) hday
  obtain ⟨rows, hrows, hmem⟩ := TrainManagement.queryTicketWith_spec h args
    hne hdate9 hmonth hday
  have hpairwise := TrainManagement.pairwise_queryTicketWith h hrows
  have hlisted : ∀ trainId, trainId ∈ rows.map TicketRow.trainId ↔
      ∃ train i j, s.trains.Passes trainId args.s args.t day train i j := by
    intro trainId
    rw [List.mem_map]
    constructor
    · rintro ⟨row, hrow, rfl⟩
      obtain ⟨trainId, train, i, j, d, hjourney, rfl⟩ := (hmem row).mp hrow
      exact ⟨train, i, j, hjourney.passes⟩
    · rintro ⟨train, i, j, hpasses⟩
      obtain ⟨d, hjourney⟩ := hpasses.exists_journey h hdvd
      exact ⟨_, (hmem _).mpr ⟨trainId, train, i, j, d, hjourney, rfl⟩, rfl⟩
  refine ⟨day, rows, hday, ?_, fun row => ?_, hlisted, ?_, ?_, ?_, ?_⟩
  · subst hargs
    exact congrArg (Option.map fun r => (Reply.train r, s)) hrows
  · rw [hmem]
    constructor
    · rintro ⟨trainId, train, i, j, d, hjourney, rfl⟩
      exact ⟨trainId, train, i, j, d, hjourney.passes, hjourney.daytrain, rfl⟩
    · rintro ⟨trainId, train, i, j, d, hp, hd, rfl⟩
      exact ⟨trainId, train, i, j, d, ⟨hp.released, hp.one_le, hp.lt,
        hp.le_stationNum, hp.from_eq, hp.to_eq, hp.le_startDay,
        hp.startDay_le, hd⟩, rfl⟩
  · rw [List.nodup_iff_pairwise_ne, List.pairwise_map]
    exact hpairwise.imp And.left
  · exact hpairwise.imp And.right
  · exact fun d i j hij hint => DayTrain.isLeast_querySeat hij hint
  · rw [TrainReply.render_tickets_eq_zero_iff]
    constructor
    · rintro rfl trainId train i j hpasses
      exact List.not_mem_nil ((hlisted trainId).mpr ⟨train, i, j, hpasses⟩)
    · intro hnone
      rw [List.eq_nil_iff_forall_not_mem]
      intro row hrow
      obtain ⟨train, i, j, hpasses⟩ :=
        (hlisted row.trainId).mp (List.mem_map_of_mem hrow)
      exact hnone _ _ _ _ hpasses

/-- After `waitingRun` one train goes from `A` to `C`. -/
theorem System.queryTicket_lists_waitingRun :
    ∃ (s : System) (row : TicketRow), row.trainId = "T" ∧ row.seat = 4 ∧
      s.step ⟨.queryTicket, ["-s", "A", "-t", "C", "-d", "06-01"], 0⟩ =
        some (.train (.tickets [row]), s) ∧
      ∃ train i j, s.trains.Passes "T" "A" "C" 0 train i j := by
  let line := ["-s", "A", "-t", "C", "-d", "06-01"]
  have hrun : ((runSteps System.step
      (System.start (Databases.new fun _ => 0)) waitingRun).bind fun s =>
        (s.step ⟨.queryTicket, line, 0⟩).map Prod.fst) =
          some (.train (.tickets [⟨"T", "A", 600, "C", 725, 3, 4⟩])) := by
    decide +kernel
  obtain ⟨s, hs, hquery⟩ := Option.bind_eq_some_iff.mp hrun
  obtain ⟨⟨reply, s'⟩, hstep, rfl⟩ := Option.map_eq_some_iff.mp hquery
  have hok : StepsOk System.step (fun _ request => request.WellFormed)
      (System.start (Databases.new fun _ => 0)) waitingRun := by
    decide +kernel
  obtain ⟨day, rows, hday, hstep', -, hlisted, -⟩ :=
    @System.Reachable.queryTicket_lists s
      (System.reachable_of_runSteps hok hs) line 0
      { s := "A", t := "C", date := "06-01" } (by decide) (by decide)
      (by decide)
  obtain rfl : day = 0 := Option.some.inj (hday.symm.trans (by decide))
  obtain ⟨hreply, rfl⟩ := Prod.mk.inj
    (Option.some.inj (hstep'.symm.trans hstep))
  obtain rfl : rows = [⟨"T", "A", 600, "C", 725, 3, 4⟩] :=
    TrainReply.tickets.inj (Reply.train.inj hreply)
  exact ⟨s, _, rfl, rfl, hstep',
    (hlisted "T").mp (List.mem_singleton.mpr rfl)⟩

end TicketSystem.Backend
