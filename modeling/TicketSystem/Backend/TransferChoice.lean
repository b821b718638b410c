import TicketSystem.Backend.TransferQuery

/-!
# Which itinerary `query_transfer` chooses

The specification breaks ties in time and price by the two trains.  The program
breaks them by the travel time of the first train and only then by the trains.
It answers as specified exactly when one itinerary is least in both orders.
-/

namespace TicketSystem.Backend

open TicketSystem.Support
open TicketSystem.Database

/-! ## The chosen itinerary -/

namespace Itinerary

theorem docKey_le_iff {type : String} {x y : Itinerary} :
    x.docKey type ≤ y.docKey type ↔ x.mainKey type < y.mainKey type ∨
      x.mainKey type = y.mainKey type ∧ x.idKey ≤ y.idKey :=
  Prod.Lex.toLex_le_toLex

theorem codeKey_le_iff {type : String} {x y : Itinerary} :
    x.codeKey type ≤ y.codeKey type ↔ x.mainKey type < y.mainKey type ∨
      x.mainKey type = y.mainKey type ∧ x.firstTime ≤ y.firstTime :=
  Prod.Lex.toLex_le_toLex

/-- An earlier second train makes the main keys smaller. -/
theorem mainKey_le {type : String} {x y : Itinerary}
    (hcost : x.cost = y.cost) (htime : x.time ≤ y.time) :
    x.mainKey type ≤ y.mainKey type := by
  unfold mainKey
  split_ifs
  · rw [hcost]
    exact Prod.Lex.toLex_le_toLex.mpr (Or.inr ⟨rfl, htime⟩)
  · rw [hcost]
    rcases htime.lt_or_eq with hlt | heq
    · exact Prod.Lex.toLex_le_toLex.mpr (Or.inl hlt)
    · exact Prod.Lex.toLex_le_toLex.mpr (Or.inr ⟨heq, le_rfl⟩)

end Itinerary

namespace TrainManagement

variable {trains : TrainManagement} {type fromStation toStation : String}
  {day : TimeType}

/-- Every feasible itinerary has an earliest one on the same trains. -/
theorem Feasible.exists_earliest (h : trains.Documented) (hday : 1440 ∣ day)
    {x : Itinerary} (hf : trains.Feasible fromStation toStation day x) :
    ∃ y, trains.Earliest fromStation toStation day y ∧
      y.idKey = x.idKey ∧ y.firstTime = x.firstTime ∧
        y.mainKey type ≤ x.mainKey type := by
  obtain ⟨hid1, hdvd1, -⟩ := h.referenced.train_sound _ _ hf.released1.1
  obtain ⟨hid2, hdvd2, hwindow2⟩ := h.referenced.train_sound _ _ hf.released2.1
  obtain ⟨hle2, hge2, hdvd⟩ := mem_saleDays.mp hf.startDay2_mem
  have hdvdDay1 : 1440 ∣ x.startDay1 := by
    rw [hf.startDay1_eq]
    exact dvd_sub hday (TimeType.dvd_getDate _)
  have hdvdDay2 : 1440 ∣ x.startDay2 := by
    have hsum := dvd_add hdvd hdvd2
    rwa [sub_add_cancel] at hsum
  have harrive := (h.timely _ _ hf.released1.1 x.k
    (hf.one_le_s.trans hf.s_lt.le) hf.k_le).1
  have hleave := (h.timely _ _ hf.released2.1 x.l hf.one_le_l
    (hf.l_lt.le.trans hf.t_le)).2
  have hfast := (fastStartDay_le_iff harrive hleave hdvdDay1 hdvdDay2).mpr
    hf.in_time
  have hfirst : x.firstDay2 ≤ x.startDay2 := max_le hfast hle2
  have hdvdFirst : 1440 ∣ x.firstDay2 := by
    rcases max_choice (fastStartDay x.train1 x.train2 x.startDay1 x.k x.l)
      x.train2.startSaleDate with hmax | hmax
    · rw [Itinerary.firstDay2, hmax]
      exact dvd_fastStartDay hdvdDay1 _ _
    · rw [Itinerary.firstDay2, hmax]
      exact hdvd2
  have hintime := (fastStartDay_le_iff harrive hleave hdvdDay1 hdvdFirst).mp
    (le_max_left _ _)
  refine ⟨{ x with startDay2 := x.firstDay2 }, ⟨?_, rfl⟩, rfl, rfl, ?_⟩
  · exact
      { hf with
        startDay2_mem := mem_saleDays.mpr ⟨le_max_right _ _,
          hfirst.trans hge2, dvd_sub hdvdFirst hdvd2⟩
        in_time := hintime }
  · apply Itinerary.mainKey_le
    · rfl
    · exact sub_le_sub_right (add_le_add_left hfirst _) _

/-- The reply for what the loop holds in the end. -/
def transferReply (trains : TrainManagement) :
    Option Itinerary → TrainReply
  | none => .transfer none
  | some x =>
      if x.firstTime ≠ maxInt then .transfer (some (trains.itineraryRows x))
      else .transfer none

/-- `query_transfer` runs through all earliest itineraries. -/
theorem queryTransfer_eq (h : trains.Documented) {line : List String}
    {args : TicketArgs} (hargs : TicketArgs.ofLine line = args)
    (hne : args.s ≠ args.t) (hdate : isDate 6 8 args.date)
    (hday : TimeType.ofString (args.date ++ " 00:00") = some day) :
    ∃ xs : List Itinerary,
      (∀ x, x ∈ xs ↔ trains.Earliest args.s args.t day x) ∧
      (xs.Pairwise fun x y => x.idKey ≤ y.idKey) ∧
      trains.queryTransfer line = some (trains.transferReply
        (xs.foldl (better (Itinerary.codeKey args.type) Itinerary.topKey)
          none)) := by
  have hdvd := TimeType.dvd_ofString (length_eq_of_isDate hdate) hday
  obtain ⟨m₁, m₂, d₁, d₂, hchars, -, hmonth⟩ := isDate_cases hdate
  obtain ⟨xs, hrun, hmem, hsorted⟩ := @queryTransfer_goesOver trains
    args.type args.s args.t day h hdvd
  refine ⟨xs, hmem, hsorted, ?_⟩
  simp only [queryTransfer, hargs,
    isLegal_of_isDate (isDate_mono (by decide) hdate : isDate 6 9 args.date),
    hday, Option.bind_eq_bind, Option.bind_some]
  rw [if_neg (by simpa using hmonth), if_neg hne]
  by_cases hnil : trains.stationsNamed args.s = [] ∨
      trains.stationsNamed args.t = []
  · -- without stations there is no itinerary
    rw [if_pos hnil]
    obtain rfl : xs = [] := by
      rw [List.eq_nil_iff_forall_not_mem]
      intro x hx
      have hf := ((hmem x).mp hx).1
      rcases hnil with hnil | hnil
      · have hstop := (mem_stationsNamed_iff h.consistent).mpr
          ⟨x.trainId1, x.train1, x.s, hf.released1, hf.one_le_s,
            hf.s_lt.le.trans hf.k_le, hf.from_eq, rfl⟩
        rw [hnil] at hstop
        exact List.not_mem_nil hstop
      · have hstop := (mem_stationsNamed_iff h.consistent).mpr
          ⟨x.trainId2, x.train2, x.t, hf.released2,
            hf.one_le_l.trans hf.l_lt.le, hf.t_le, hf.to_eq, rfl⟩
        rw [hnil] at hstop
        exact List.not_mem_nil hstop
    rfl
  · rw [if_neg hnil]
    apply (congrArg (fun o => Option.bind o fun best =>
      if best.firstTime ≠ maxInt then some (TrainReply.transfer best.output)
      else some (TrainReply.transfer none)) (hrun none)).trans
    generalize xs.foldl (better (Itinerary.codeKey args.type)
      Itinerary.topKey) none = best
    cases best with
    | none => rfl
    | some x =>
        rw [transferReply]
        by_cases hmax : x.firstTime ≠ maxInt
        · rw [if_pos hmax]
          exact if_pos hmax
        · rw [if_neg hmax]
          exact if_neg hmax

/-! ## When the choice is the specified one -/

/-- The specification: a feasible itinerary with the least keys, if there is
one. -/
def AnswersAsSpecified (trains : TrainManagement)
    (type fromStation toStation : String) (day : TimeType)
    (reply : TrainReply) : Prop :=
  ((∀ x, ¬ trains.Feasible fromStation toStation day x) →
    reply = .transfer none) ∧
  ((∃ x, trains.Feasible fromStation toStation day x) →
    ∃ x, trains.Feasible fromStation toStation day x ∧
      (∀ y, trains.Feasible fromStation toStation day y →
        x.docKey type ≤ y.docKey type) ∧
      reply = .transfer (some (trains.itineraryRows x)))

/-- Some itinerary is least in the order of the specification and in that of
the program, and its keys are below the ones the program starts with. -/
def LeastInBoth (trains : TrainManagement)
    (type fromStation toStation : String) (day : TimeType) : Prop :=
  ∃ x, trains.Feasible fromStation toStation day x ∧
    (∀ y, trains.Feasible fromStation toStation day y →
      x.docKey type ≤ y.docKey type ∧ x.codeKey type ≤ y.codeKey type) ∧
    x.codeKey type < Itinerary.topKey ∧ x.firstTime ≠ maxInt

/-- The lines of an itinerary show its keys. -/
theorem keys_eq_of_rows {x y : Itinerary}
    (h : trains.itineraryRows x = trains.itineraryRows y) :
    x.mainKey type = y.mainKey type ∧ x.firstTime = y.firstTime ∧
      x.idKey = y.idKey := by
  obtain ⟨hrow1, hrow2⟩ := Prod.mk.inj h
  obtain ⟨hid1, -, hleave1, -, harrive1, hprice1, -⟩ :=
    TicketRow.mk.inj hrow1
  obtain ⟨hid2, -, -, -, harrive2, hprice2, -⟩ := TicketRow.mk.inj hrow2
  have hcost : x.cost = y.cost := by
    rw [Itinerary.cost, Itinerary.cost, add_sub_assoc, add_sub_assoc, hprice1,
      hprice2]
  have htime : x.time = y.time := by
    rw [Itinerary.time, Itinerary.time, harrive2, hleave1]
  have hfirst : x.firstTime = y.firstTime := by
    have hdiff := congrArg₂ (· - ·) harrive1 hleave1
    simp only [add_sub_add_left_eq_sub] at hdiff
    exact hdiff
  refine ⟨?_, hfirst, ?_⟩
  · rw [Itinerary.mainKey, Itinerary.mainKey, hcost, htime]
  · rw [Itinerary.idKey, Itinerary.idKey, hid1, hid2]

theorem answersAsSpecified_iff (h : trains.Documented) (hday : 1440 ∣ day)
    {xs : List Itinerary}
    (hmem : ∀ x, x ∈ xs ↔ trains.Earliest fromStation toStation day x)
    (hsorted : xs.Pairwise fun x y => x.idKey ≤ y.idKey) :
    trains.AnswersAsSpecified type fromStation toStation day
        (trains.transferReply (xs.foldl
          (better (Itinerary.codeKey type) Itinerary.topKey) none)) ↔
      (∀ x, ¬ trains.Feasible fromStation toStation day x) ∨
        trains.LeastInBoth type fromStation toStation day := by
  -- every feasible itinerary is met by an earliest one
  have hmeets : ∀ y, trains.Feasible fromStation toStation day y →
      ∃ z ∈ xs, z.idKey = y.idKey ∧ z.firstTime = y.firstTime ∧
        z.mainKey type ≤ y.mainKey type := by
    intro y hy
    obtain ⟨z, hz, hkeys⟩ := @Feasible.exists_earliest trains type fromStation
      toStation day h hday y hy
    exact ⟨z, (hmem z).mpr hz, hkeys⟩
  by_cases hnone : ∀ x, ¬ trains.Feasible fromStation toStation day x
  · obtain rfl : xs = [] := by
      rw [List.eq_nil_iff_forall_not_mem]
      exact fun x hx => hnone x ((hmem x).mp hx).1
    refine iff_of_true ⟨fun _ => rfl, ?_⟩ (Or.inl hnone)
    rintro ⟨x, hx⟩
    exact absurd hx (hnone x)
  rw [or_iff_right hnone]
  push Not at hnone
  have hcode : ∀ z y : Itinerary, z.firstTime = y.firstTime →
      z.mainKey type ≤ y.mainKey type → z.codeKey type ≤ y.codeKey type := by
    intro z y hfirst hmain
    rw [Itinerary.codeKey_le_iff]
    rcases hmain.lt_or_eq with hlt | heq
    · exact Or.inl hlt
    · exact Or.inr ⟨heq, hfirst.le⟩
  rcases @foldl_better Itinerary _ _ (Itinerary.codeKey type)
      Itinerary.topKey xs with
    ⟨hfold, htop⟩ | ⟨c, hfold, hlt, hleast⟩
  · -- nothing is below the keys that the program starts with
    rw [hfold]
    refine iff_of_false ?_ ?_
    · rintro ⟨-, hsome⟩
      obtain ⟨x, -, -, hreply⟩ := hsome hnone
      cases hreply
    · rintro ⟨x, hx, -, hbelow, -⟩
      obtain ⟨z, hz, -, hfirst, hmain⟩ := hmeets x hx
      exact absurd ((htop z hz).trans (hcode z x hfirst hmain))
        (not_le.mpr hbelow)
  rw [hfold, transferReply]
  have hc := (hmem c).mp hleast.mem
  have hleastCode : ∀ y, trains.Feasible fromStation toStation day y →
      c.codeKey type ≤ y.codeKey type := by
    intro y hy
    obtain ⟨z, hz, -, hfirst, hmain⟩ := hmeets y hy
    exact (hleast.key_le hz).trans (hcode z y hfirst hmain)
  constructor
  · rintro ⟨-, hsome⟩
    obtain ⟨x, hx, hdoc, hreply⟩ := hsome hnone
    by_cases hmax : c.firstTime ≠ maxInt
    · rw [if_pos hmax] at hreply
      have hrows := Option.some.inj (TrainReply.transfer.inj hreply)
      obtain ⟨hmain, hfirst, -⟩ := @keys_eq_of_rows trains type c x hrows
      have hsame : x.codeKey type = c.codeKey type := by
        rw [Itinerary.codeKey, Itinerary.codeKey, hmain, hfirst]
      refine ⟨x, hx, fun y hy => ⟨hdoc y hy, ?_⟩, ?_, ?_⟩
      · rw [hsame]
        exact hleastCode y hy
      · rw [hsame]
        exact hlt
      · rw [← hfirst]
        exact hmax
    · rw [if_neg hmax] at hreply
      cases hreply
  · rintro ⟨x, hx, hboth, hbelow, hmax⟩
    -- the program holds an itinerary with the keys of `x`
    have hsame : c.codeKey type = x.codeKey type :=
      le_antisymm (hleastCode x hx) (hboth c hc.1).2
    obtain ⟨hmainLex, hfirst⟩ := Prod.mk.inj (toLex.injective hsame)
    have hids : c.idKey ≤ x.idKey := by
      obtain ⟨z, hz, hid, hzfirst, hmain⟩ := hmeets x hx
      have hzc : z.codeKey type ≤ c.codeKey type :=
        (hcode z x hzfirst hmain).trans hsame.ge
      rcases hleast.rel hsorted hz hzc with rfl | hle
      · exact hid.le
      · exact hle.trans hid.le
    rw [if_pos (hfirst ▸ hmax)]
    refine ⟨fun hall => absurd hx (hall x), fun _ => ?_⟩
    refine ⟨c, hc.1, fun y hy => le_trans ?_ (hboth y hy).1, rfl⟩
    exact Itinerary.docKey_le_iff.mpr (Or.inr ⟨hmainLex, hids⟩)

end TrainManagement

/-! ## The documented input -/

/-- A number without a sign. -/
def isNumber (s : String) : Bool := s.toList.all Char.isDigit

/-- Times between stations and at stations are numbers without a sign; with
two stations there are no times at stations. -/
def TrainArgs.TimesAreNumbers (args : TrainArgs) : Prop :=
  (∀ s ∈ split args.travelTimes '|', isNumber s) ∧
    (2 < args.stationNum → ∀ s ∈ split args.stopOverTimes '|', isNumber s)

instance (args : TrainArgs) : Decidable args.TimesAreNumbers :=
  inferInstanceAs (Decidable (_ ∧ _))

/-- A command as the specification of the input has it. -/
def Request.Documented (request : Request) : Prop :=
  request.WellFormed ∧ request.Admissible ∧
    (request.name = .addTrain →
      (TrainArgs.ofLine request.line).TimesAreNumbers)

instance (request : Request) : Decidable request.Documented :=
  inferInstanceAs (Decidable (_ ∧ _ ∧ _))

/-- The states of the runs on documented commands, from databases on new
files. -/
def System.ReachableDocumented (s : System) : Prop :=
  ∃ sizes, Reaches System.step (fun _ request => request.Documented)
    (System.start (Databases.new sizes)) s

theorem stringToInt_nonneg {s : String} (h : isNumber s) :
    0 ≤ stringToInt s := by
  have hdigits : ∀ cs : List Char, cs.all Char.isDigit → ∀ n : ℤ, 0 ≤ n →
      0 ≤ cs.foldl (fun (t : ℤ) (c : Char) =>
        t * 10 + c.toNat - '0'.toNat) n := by
    intro cs
    induction cs with
    | nil => exact fun _ n hn => hn
    | cons c cs ih =>
        intro hall n hn
        rw [List.all_cons, Bool.and_eq_true] at hall
        have hc : '0'.toNat ≤ c.toNat := by
          have hle := hall.1
          rw [Char.isDigit, Bool.and_eq_true, decide_eq_true_eq] at hle
          exact hle.1
        apply ih hall.2
        change 0 ≤ n * 10 + (c.toNat : ℤ) - ('0'.toNat : ℤ)
        omega
  exact hdigits s.toList h 0 le_rfl

theorem stringToInt_nthToken_nonneg {tokens : List String}
    (h : ∀ s ∈ tokens, isNumber s) (n : ℕ) :
    0 ≤ stringToInt (nthToken tokens n) := by
  apply stringToInt_nonneg
  rw [nthToken]
  by_cases hn : n < tokens.length
  · rw [List.getD_eq_getElem _ _ hn]
    exact h _ (List.getElem_mem hn)
  · rw [List.getD_eq_default _ _ (not_lt.mp hn)]
    rfl

/-- A time of day is not negative. -/
theorem TimeType.ofString_time_nonneg {s : String} (h : isTime s) {t : ℤ}
    (ht : TimeType.ofString ("06-01 " ++ s) = some t) : 0 ≤ t := by
  obtain ⟨h₁, h₂, m₁, m₂, hs⟩ := isTime_cases h
  rw [TimeType.ofString_time hs] at ht
  obtain rfl := Option.some.inj ht
  have hdigits : [h₁, h₂, m₁, m₂].all Char.isDigit := by
    unfold isTime at h
    rw [hs] at h
    simp only [Bool.and_eq_true] at h
    exact h.1.1
  simp only [List.all_cons, List.all_nil, Bool.and_true,
    Bool.and_eq_true] at hdigits
  obtain ⟨hh₁, hh₂, hm₁, hm₂⟩ := hdigits
  have hhour := @stringToInt_nonneg (String.ofList [h₁, h₂])
    (by simp [isNumber, hh₁, hh₂])
  have hmin := @stringToInt_nonneg (String.ofList [m₁, m₂])
    (by simp [isNumber, hm₁, hm₂])
  exact add_nonneg (mul_nonneg hhour (by decide)) hmin

namespace Train

/-- The times of a train are sums of numbers that are not negative. -/
theorem fillTimes_nonneg {travelTimes stopOverTimes : List String}
    (htravel : ∀ s ∈ travelTimes, isNumber s)
    (steps i : ℕ) (hstop : 0 < steps → ∀ s ∈ stopOverTimes, isNumber s)
    {times : (ℕ → TimeType) × (ℕ → TimeType)}
    (h : ∀ j, 0 ≤ times.1 j ∧ 0 ≤ times.2 j) (j : ℕ) :
    0 ≤ (fillTimes travelTimes stopOverTimes steps i times).1 j ∧
      0 ≤ (fillTimes travelTimes stopOverTimes steps i times).2 j := by
  induction steps generalizing i times with
  | zero => exact h j
  | succ steps ih =>
      obtain ⟨arriving, leaving⟩ := times
      rw [fillTimes]
      have harrive : 0 ≤ leaving i +
          stringToInt (nthToken travelTimes (i - 1)) :=
        add_nonneg (h i).2 (stringToInt_nthToken_nonneg htravel _)
      have hleave := add_nonneg harrive
        (stringToInt_nthToken_nonneg (hstop (Nat.succ_pos steps)) (i - 1))
      apply ih (i + 1) fun _ => hstop (Nat.succ_pos steps)
      intro j
      by_cases hj : j = i + 1
      · subst hj
        simp only [Function.update_self]
        exact ⟨harrive, hleave⟩
      · simp only [Function.update_of_ne hj]
        exact h j

theorem times_nonneg_of_make {args : TrainArgs} (h : args.TimesAreNumbers)
    (htime : isTime args.startTime) {train : Train}
    (hmake : make args.trainId args.stationNum.toNat args.seatNum
      args.stations args.prices args.startTime args.travelTimes
      args.stopOverTimes args.saleDate args.type = some train) (j : ℕ) :
    0 ≤ train.arrivingTimes j ∧ 0 ≤ train.leavingTimes j := by
  simp only [make, Option.bind_eq_bind, Option.bind_eq_some_iff,
    Option.some.injEq] at hmake
  obtain ⟨start, hstart, _, _, _, _, rfl⟩ := hmake
  have hnonneg := TimeType.ofString_time_nonneg htime hstart
  have hfirst : ∀ j, 0 ≤ (0 : ℤ) ∧
      0 ≤ Function.update (fun _ => (0 : ℤ)) 1 start j := by
    intro j
    by_cases hj : j = 1
    · rw [hj, Function.update_self]
      exact ⟨le_rfl, hnonneg⟩
    · rw [Function.update_of_ne hj]
      exact ⟨le_rfl, le_rfl⟩
  have hfill := @fillTimes_nonneg (split args.travelTimes '|')
    (split args.stopOverTimes '|') h.1 (args.stationNum.toNat - 2) 1
    (fun hsteps => h.2 (by omega))
    (fun _ => 0, Function.update (fun _ => 0) 1 start) hfirst
  constructor
  · dsimp only
    by_cases hj : j = args.stationNum.toNat
    · rw [hj, Function.update_self]
      exact add_nonneg (hfill _).2 (stringToInt_nthToken_nonneg h.1 _)
    · rw [Function.update_of_ne hj]
      exact (hfill j).1
  · dsimp only
    by_cases hj : j = args.stationNum.toNat
    · rw [hj, Function.update_self]
      decide
    · rw [Function.update_of_ne hj]
      exact (hfill j).2

end Train

/-- Commands that leave all trains as they are. -/
theorem System.trainDatabase_eq_of_step {system system' : System}
    {request : Request} {reply : Reply}
    (hname : request.name ∉
      [CommandName.addTrain, .releaseTrain, .deleteTrain, .clean])
    (hstep : system.step request = some (reply, system')) :
    system'.trains.trainDatabase = system.trains.trainDatabase := by
  obtain ⟨name, line, uninit⟩ := request
  cases name
  case buyTicket =>
    obtain ⟨⟨r, trains'⟩, hbuy, heq⟩ := Option.map_eq_some_iff.mp hstep
    cases heq
    rcases TrainManagement.buyTicketWith_cases hbuy with
      ⟨-, rfl⟩ | ⟨train, startDay, s, t, d, -, -, -, hplace⟩
    · rfl
    · unfold TrainManagement.placeOrder at hplace
      split_ifs at hplace
      all_goals
        obtain ⟨-, rfl⟩ := Prod.mk.inj hplace
        rfl
  case refundTicket =>
    obtain ⟨⟨r, trains'⟩, hrefund, heq⟩ := Option.map_eq_some_iff.mp hstep
    cases heq
    exact (TrainManagement.refundTicketWith_frame hrefund).2
  case addTrain => exact absurd (by simp) hname
  case releaseTrain => exact absurd (by simp) hname
  case deleteTrain => exact absurd (by simp) hname
  case clean => exact absurd (by simp) hname
  case exit =>
    cases hstep
    rfl
  -- the other commands leave the trains alone
  all_goals
    simp only [System.step, Option.map_eq_some_iff, Option.some.injEq,
      Prod.mk.injEq, System.withAccounts] at hstep
    obtain ⟨_, _, _, rfl⟩ := hstep
    rfl

/-- What holds of every new train and does not depend on its release holds of
every stored train after a step. -/
theorem System.forall_trains_step {P : String → Train → Prop}
    {system system' : System} {request : Request} {reply : Reply}
    (h : ∀ trainId train,
      system.trains.trainDatabase.map.find? trainId = some train →
        P trainId train)
    (hmake : request.name = .addTrain → ∀ newTrain,
      let args := TrainArgs.ofLine request.line
      Train.make args.trainId args.stationNum.toNat args.seatNum args.stations
        args.prices args.startTime args.travelTimes args.stopOverTimes
        args.saleDate args.type = some newTrain → P args.trainId newTrain)
    (hrelease : ∀ trainId train, P trainId train →
      P trainId { train with isReleased := true })
    (hstep : system.step request = some (reply, system')) :
    ∀ trainId train,
      system'.trains.trainDatabase.map.find? trainId = some train →
        P trainId train := by
  by_cases hother : request.name ∉
      [CommandName.addTrain, .releaseTrain, .deleteTrain, .clean]
  · rw [trainDatabase_eq_of_step hother hstep]
    exact h
  obtain ⟨name, line, uninit⟩ := request
  rw [not_not] at hother
  simp only [List.mem_cons, List.not_mem_nil, or_false] at hother
  rcases hother with rfl | rfl | rfl | rfl
  -- add_train
  · obtain ⟨⟨r, trains'⟩, hadd, heq⟩ := Option.map_eq_some_iff.mp hstep
    cases heq
    rcases TrainManagement.addTrainWith_cases hadd with
      rfl | ⟨-, newTrain, hnew, rfl⟩
    · exact h
    · intro trainId train hfind
      rw [Index.map_insertEntry, SortedMap.find?_insert] at hfind
      split_ifs at hfind with heq
      · obtain rfl := Option.some.inj hfind
        exact heq ▸ hmake rfl newTrain hnew
      · exact h trainId train hfind
  -- release_train
  · cases hstep
    rcases TrainManagement.releaseTrain_cases system.trains line with
      heq | ⟨trainId, train, hfind, -, heq⟩
    · exact heq.symm ▸ h
    · intro trainId' train' hfind'
      have hdb := congrArg TrainManagement.trainDatabase heq
      rw [show (system.trains.releaseTrain line).2.trainDatabase = _ from hdb,
        TrainManagement.release, Index.map_insertEntry,
        SortedMap.find?_insert] at hfind'
      split_ifs at hfind' with hsame
      · obtain rfl := Option.some.inj hfind'
        exact hsame ▸ hrelease trainId train (h trainId train hfind)
      · exact h trainId' train' hfind'
  -- delete_train
  · cases hstep
    rcases TrainManagement.deleteTrain_cases system.trains line with
      heq | ⟨trainId, train, hfind, -, heq⟩
    · exact heq.symm ▸ h
    · intro trainId' train' hfind'
      have hdb := congrArg TrainManagement.trainDatabase heq
      rw [show (system.trains.deleteTrain line).2.trainDatabase = _ from hdb,
        Index.map_deleteEntry, SortedMap.find?_erase] at hfind'
      split_ifs at hfind'
      exact h trainId' train' hfind'
  -- clean
  · cases hstep
    intro trainId train hfind
    cases hfind

theorem System.timely_step {system system' : System} {request : Request}
    {reply : Reply} (h : system.trains.Timely) (hok : request.Documented)
    (hstep : system.step request = some (reply, system')) :
    system'.trains.Timely := by
  apply System.forall_trains_step h _ _ hstep
  · intro hname newTrain args hmake i _ _
    have htimes := hok.2.2 hname
    have hadmissible := hok.2.1
    rw [Request.Admissible, hname] at hadmissible
    exact Train.times_nonneg_of_make htimes hadmissible.isTime_start hmake i
  · exact fun _ _ htrain => htrain

theorem System.ReachableDocumented.documented {s : System}
    (hs : s.ReachableDocumented) : s.trains.Documented := by
  obtain ⟨sizes, hreach⟩ := hs
  have htimely : (System.start (Databases.new sizes)).trains.Timely := by
    intro trainId train hfind
    cases hfind
  refine hreach.invariant (fun s => s.trains.Documented)
    ⟨System.consistent_start sizes, System.referenced_start sizes, htimely⟩ ?_
  · intro s request reply s' h hok hstep
    obtain ⟨⟨reply', s''⟩, hstep', href⟩ :=
      System.step_total h.referenced hok.2.1
    obtain ⟨-, rfl⟩ := Prod.mk.inj
      (Option.some.inj (hstep'.symm.trans hstep))
    exact ⟨System.consistent_step h.consistent hok.1 hstep, href,
      System.timely_step h.timely hok hstep⟩

/-! ## The query -/

/-- The reply to a query for transfers is the specified one. -/
def System.TransferAsSpecified (s : System) (line : List String) : Prop :=
  let args := TicketArgs.ofLine line
  ∃ day reply, TimeType.ofString (args.date ++ " 00:00") = some day ∧
    s.step ⟨.queryTransfer, line, 0⟩ = some (.train reply, s) ∧
    s.trains.AnswersAsSpecified args.type args.s args.t day reply

/-- In every state that documented commands lead to, a query for different
stations and a day of June, July or August answers as specified if and only if
there is no itinerary at all or one itinerary is least both for the
specification and for the program. -/
theorem System.ReachableDocumented.transferAsSpecified_iff {s : System}
    (hs : s.ReachableDocumented) {line : List String} {args : TicketArgs}
    (hargs : TicketArgs.ofLine line = args) (hne : args.s ≠ args.t)
    (hdate : isDate 6 8 args.date) {day : TimeType}
    (hday : TimeType.ofString (args.date ++ " 00:00") = some day) :
    s.TransferAsSpecified line ↔
      (∀ x, ¬ s.trains.Feasible args.s args.t day x) ∨
        s.trains.LeastInBoth args.type args.s args.t day := by
  have h := hs.documented
  have hdvd := TimeType.dvd_ofString (length_eq_of_isDate hdate) hday
  obtain ⟨xs, hmem, hsorted, hquery⟩ :=
    TrainManagement.queryTransfer_eq h hargs hne hdate hday
  rw [← TrainManagement.answersAsSpecified_iff h hdvd hmem hsorted]
  have hstep : s.step ⟨.queryTransfer, line, 0⟩ = some (.train _, s) :=
    congrArg (Option.map fun r => (Reply.train r, s)) hquery
  subst hargs
  constructor
  · rintro ⟨day', reply, hday', hstep', hanswers⟩
    obtain rfl := Option.some.inj (hday.symm.trans hday')
    have hreply := (Prod.mk.inj (Option.some.inj
      (hstep.symm.trans hstep'))).1
    rw [Reply.train.inj hreply]
    exact hanswers
  · intro hanswers
    exact ⟨day, _, hday, hstep, hanswers⟩

/-- Two trains reach the third one for the same price; the second of them is
faster but waits longer. -/
def tieRun : List Request :=
  [⟨.addTrain, ["-i", "P", "-n", "2", "-m", "10", "-s", "S|M", "-p", "1",
      "-x", "10:00", "-t", "60", "-o", "_", "-d", "06-01|06-02",
      "-y", "G"], 0⟩,
    ⟨.addTrain, ["-i", "Q", "-n", "2", "-m", "10", "-s", "S|M", "-p", "1",
      "-x", "10:00", "-t", "30", "-o", "_", "-d", "06-01|06-02",
      "-y", "G"], 0⟩,
    ⟨.addTrain, ["-i", "R", "-n", "2", "-m", "10", "-s", "M|T", "-p", "1",
      "-x", "12:00", "-t", "60", "-o", "_", "-d", "06-01|06-02",
      "-y", "G"], 0⟩,
    ⟨.releaseTrain, ["-i", "P"], 0⟩,
    ⟨.releaseTrain, ["-i", "Q"], 0⟩,
    ⟨.releaseTrain, ["-i", "R"], 0⟩]

theorem System.reachableDocumented_tieRun {s : System}
    (hs : runSteps System.step (System.start (Databases.new fun _ => 0))
      tieRun = some s) : s.ReachableDocumented := by
  have hok : StepsOk System.step (fun _ request => request.Documented)
      (System.start (Databases.new fun _ => 0)) tieRun := by
    decide +kernel
  exact ⟨_, Reaches.runSteps .refl hok hs⟩

theorem System.transferAsSpecified_iff_tieRun :
    ∃ s : System, (s.TransferAsSpecified ["-s", "M", "-t", "T", "-d", "06-02"] ↔
      (∀ x, ¬ s.trains.Feasible "M" "T" 1440 x) ∨
        s.trains.LeastInBoth "time" "M" "T" 1440) := by
  have hrun : (runSteps System.step
      (System.start (Databases.new fun _ => 0)) tieRun).isSome := by
    decide +kernel
  obtain ⟨s, hs⟩ := Option.isSome_iff_exists.mp hrun
  exact ⟨s, @System.ReachableDocumented.transferAsSpecified_iff s
    (System.reachableDocumented_tieRun hs) ["-s", "M", "-t", "T", "-d", "06-02"]
    { s := "M", t := "T", date := "06-02" } (by decide) (by decide)
    (by decide) 1440 (by decide)⟩

/-- The fields of a train of two stations that an itinerary shows. -/
def Train.Goes (train : Train) (fromStation toStation : String)
    (leaving arriving : TimeType) : Prop :=
  train.isReleased = true ∧ train.stationNum = 2 ∧
    train.stations 1 = fromStation ∧ train.stations 2 = toStation ∧
    train.leavingTimes 1 = leaving ∧ train.arrivingTimes 2 = arriving ∧
    train.priceSum 1 = 0 ∧ train.priceSum 2 = 1 ∧
    train.startSaleDate = 0 ∧ train.endSaleDate = 1440

instance (train : Train) (fromStation toStation : String)
    (leaving arriving : TimeType) :
    Decidable (train.Goes fromStation toStation leaving arriving) :=
  inferInstanceAs (Decidable (_ ∧ _))

/-- After `tieRun` the program answers the faster first train although the
other one comes first. -/
theorem System.not_always_transferAsSpecified :
    ∃ (s : System) (line : List String) (args : TicketArgs),
      s.ReachableDocumented ∧ TicketArgs.ofLine line = args ∧
        args.s ≠ args.t ∧ isDate 6 8 args.date ∧
          ¬ s.TransferAsSpecified line := by
  let line := ["-s", "S", "-t", "T", "-d", "06-01"]
  let row1 : TicketRow := ⟨"Q", "S", 600, "M", 630, 1, 10⟩
  let row2 : TicketRow := ⟨"R", "M", 720, "T", 780, 1, 10⟩
  have hrun : ((runSteps System.step
      (System.start (Databases.new fun _ => 0)) tieRun).map fun s =>
        ((s.step ⟨.queryTransfer, line, 0⟩).map Prod.fst,
          (s.trains.trainDatabase.map.find? "P").map fun train =>
            decide (train.Goes "S" "M" 600 660),
          (s.trains.trainDatabase.map.find? "R").map fun train =>
            decide (train.Goes "M" "T" 720 780))) =
      some (some (.train (.transfer (some (row1, row2)))), some true,
        some true) := by
    decide +kernel
  obtain ⟨s, hs, hfacts⟩ := Option.map_eq_some_iff.mp hrun
  obtain ⟨hreply, hfacts⟩ := Prod.mk.inj hfacts
  obtain ⟨htrainP, htrainR⟩ := Prod.mk.inj hfacts
  obtain ⟨trainP, hfindP, hgoesP⟩ := Option.map_eq_some_iff.mp htrainP
  obtain ⟨trainR, hfindR, hgoesR⟩ := Option.map_eq_some_iff.mp htrainR
  obtain ⟨hrelP, hnumP, hfromP, htoP, hleaveP, harriveP, hzeroP, honeP,
    hstartP, hendP⟩ := of_decide_eq_true hgoesP
  obtain ⟨hrelR, hnumR, hfromR, htoR, hleaveR, harriveR, hzeroR, honeR,
    hstartR, hendR⟩ := of_decide_eq_true hgoesR
  refine ⟨s, line, { s := "S", t := "T", date := "06-01" },
    System.reachableDocumented_tieRun hs, by decide, by decide, by decide, ?_⟩
  rintro ⟨day, reply, hday, hstep, -, hsome⟩
  obtain rfl : day = 0 := Option.some.inj (hday.symm.trans (by decide))
  -- the itinerary with the train that comes first
  let y : Itinerary :=
    { trainId1 := "P", train1 := trainP, s := 1, k := 2, trainId2 := "R"
      train2 := trainR, l := 1, t := 2, startDay1 := 0, startDay2 := 0 }
  have hy : s.trains.Feasible "S" "T" 0 y :=
    { released1 := ⟨hfindP, hrelP⟩
      released2 := ⟨hfindR, hrelR⟩
      ne := by
        change ("P" : String) ≠ "R"
        decide
      one_le_s := le_rfl
      s_lt := Nat.lt_succ_self 1
      k_le := hnumP.ge
      from_eq := hfromP
      one_le_l := le_rfl
      l_lt := Nat.lt_succ_self 1
      t_le := hnumR.ge
      to_eq := htoR
      change_eq := htoP.trans hfromR.symm
      startDay1_eq := by
        change (0 : ℤ) = 0 - TimeType.getDate (trainP.leavingTimes 1)
        rw [hleaveP]
        decide
      startDay1_mem :=
        ⟨hstartP.le, (show (0 : ℤ) ≤ 1440 by decide).trans_eq hendP.symm⟩
      startDay2_mem := by
        change (0 : ℤ) ∈ saleDays trainR.startSaleDate trainR.endSaleDate
        rw [hstartR, hendR]
        decide
      in_time := by
        change (0 : ℤ) + trainP.arrivingTimes 2 ≤ 0 + trainR.leavingTimes 1
        rw [harriveP, hleaveR]
        decide }
  obtain ⟨x, -, hleast, hrows⟩ := hsome ⟨y, hy⟩
  have hstepped : (some reply : Option TrainReply) =
      some (.transfer (some (row1, row2))) := by
    rw [hstep] at hreply
    exact congrArg some (Reply.train.inj (Option.some.inj hreply))
  rw [hrows] at hstepped
  have hx := Option.some.inj (TrainReply.transfer.inj
    (Option.some.inj hstepped))
  obtain ⟨hrow1, hrow2⟩ := Prod.mk.inj hx
  obtain ⟨hid1, -, hleave1, -, -, hprice1, -⟩ := TicketRow.mk.inj hrow1
  obtain ⟨hid2, -, -, -, harrive2, hprice2, -⟩ := TicketRow.mk.inj hrow2
  have hcost : x.cost = y.cost := by
    rw [Itinerary.cost, add_sub_assoc, hprice1, hprice2]
    simp only [Itinerary.cost, y, hzeroP, honeP, hzeroR, honeR]
    rfl
  have htime : x.time = y.time := by
    rw [Itinerary.time, harrive2, hleave1]
    simp only [Itinerary.time, y, harriveR, hleaveP]
    rfl
  rcases Itinerary.docKey_le_iff.mp (hleast y hy) with hlt | ⟨-, hle⟩
  · rw [Itinerary.mainKey, Itinerary.mainKey, hcost, htime] at hlt
    exact lt_irrefl _ hlt
  · rw [Itinerary.idKey, hid1, hid2] at hle
    have hfalse : ¬ toLex ("Q", "R") ≤ (toLex ("P", "R") : String ×ₗ String) := by
      decide
    exact hfalse hle

end TicketSystem.Backend
