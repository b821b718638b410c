import TicketSystem.Backend.Safety
import TicketSystem.Backend.TicketListing
import TicketSystem.Support.RunningLeast

/-!
# The itinerary of `query_transfer`

The loops of `query_transfer` go over all itineraries with one change, by the
first and then by the second train, and keep the first of those with the least
total time, total cost and travel time of the first train.
-/

namespace TicketSystem.Backend

open TicketSystem.Support
open TicketSystem.Database

/-! ## Stations where a change is possible -/

/-- The merge answers the positions of the stations on both lists. -/
theorem mem_commonStations_iff {n : ℕ} {starts ends : List (String × ℕ)}
    (hn : starts.length + ends.length ≤ n)
    (h₁ : starts.Pairwise fun a b => a.1 < b.1)
    (h₂ : ends.Pairwise fun a b => a.1 < b.1) {kl : ℕ × ℕ} :
    kl ∈ commonStations n starts ends ↔
      ∃ name, (name, kl.1) ∈ starts ∧ (name, kl.2) ∈ ends := by
  induction n generalizing starts ends with
  | zero =>
      obtain rfl : starts = [] := List.length_eq_zero_iff.mp (by omega)
      simp [commonStations]
  | succ n ih =>
      match starts, ends with
      | [], ends => simp [commonStations]
      | (name1, k) :: starts, [] => simp [commonStations]
      | (name1, k) :: starts, (name2, l) :: ends =>
          obtain ⟨hhead₁, htail₁⟩ := List.pairwise_cons.mp h₁
          obtain ⟨hhead₂, htail₂⟩ := List.pairwise_cons.mp h₂
          simp only [List.length_cons] at hn
          rw [commonStations]
          rcases lt_trichotomy name1 name2 with hlt | rfl | hgt
          · rw [if_pos hlt,
              ih (by simp only [List.length_cons]; omega) htail₁ h₂]
            -- the first name is not on the second list
            have habsent : ∀ l', (name1, l') ∉ (name2, l) :: ends := by
              intro l' hmem
              rcases List.mem_cons.mp hmem with heq | hmem
              · exact hlt.ne (Prod.mk.inj heq).1
              · exact lt_asymm hlt (hhead₂ _ hmem)
            constructor
            · rintro ⟨name, hs, hrest⟩
              exact ⟨name, List.mem_cons_of_mem _ hs, hrest⟩
            · rintro ⟨name, hs, he⟩
              rcases List.mem_cons.mp hs with heq | hs
              · obtain ⟨rfl, -⟩ := Prod.mk.inj heq
                exact absurd he (habsent kl.2)
              · exact ⟨name, hs, he⟩
          · rw [if_neg (lt_irrefl _), if_neg (lt_irrefl _), List.mem_cons,
              ih (by omega) htail₁ htail₂]
            constructor
            · rintro (rfl | ⟨name, hs, he⟩)
              · exact ⟨name1, List.mem_cons_self, List.mem_cons_self⟩
              · exact ⟨name, List.mem_cons_of_mem _ hs,
                  List.mem_cons_of_mem _ he⟩
            · rintro ⟨name, hs, he⟩
              rcases List.mem_cons.mp hs with heq | hs'
              · obtain ⟨rfl, rfl⟩ := Prod.mk.inj heq
                rcases List.mem_cons.mp he with heq' | he'
                · exact Or.inl (Prod.ext rfl (Prod.mk.inj heq').2)
                · exact absurd (hhead₂ _ he') (lt_irrefl _)
              · rcases List.mem_cons.mp he with heq' | he'
                · obtain ⟨rfl, -⟩ := Prod.mk.inj heq'
                  exact absurd (hhead₁ _ hs') (lt_irrefl _)
                · exact Or.inr ⟨name, hs', he'⟩
          · rw [if_neg (lt_asymm hgt), if_pos hgt,
              ih (by simp only [List.length_cons]; omega) h₁ htail₂]
            have habsent : ∀ k', (name2, k') ∉ (name1, k) :: starts := by
              intro k' hmem
              rcases List.mem_cons.mp hmem with heq | hmem
              · exact hgt.ne (Prod.mk.inj heq).1
              · exact lt_asymm hgt (hhead₁ _ hmem)
            constructor
            · rintro ⟨name, hs, he⟩
              exact ⟨name, hs, List.mem_cons_of_mem _ he⟩
            · rintro ⟨name, hs, he⟩
              rcases List.mem_cons.mp he with heq | he
              · obtain ⟨rfl, -⟩ := Prod.mk.inj heq
                exact absurd hs (habsent kl.1)
              · exact ⟨name, hs, he⟩

/-- The sorted stations of a part of a route. -/
theorem sort_stations {train : Train} {is : List ℕ}
    {out : List (String × ℕ)} (hnodup : is.Nodup)
    (hinj : ∀ i ∈ is, ∀ j ∈ is, train.stations i = train.stations j → i = j)
    (hsort : sort (is.map fun k => (train.stations k, k)) 0
      ((is.map fun k => (train.stations k, k)).length - 1) stationCmp =
        some out) :
    (∀ name k, (name, k) ∈ out ↔ k ∈ is ∧ train.stations k = name) ∧
      out.Pairwise fun a b => a.1 < b.1 := by
  obtain ⟨hperm, hsorted⟩ := sort_eq_some stationCmp_strictWeakOrder hsort
  have hmem : ∀ name k,
      (name, k) ∈ out ↔ k ∈ is ∧ train.stations k = name := by
    intro name k
    rw [hperm.mem_iff, List.mem_map]
    constructor
    · rintro ⟨k', hk', heq⟩
      obtain ⟨rfl, rfl⟩ := Prod.mk.inj heq
      exact ⟨hk', rfl⟩
    · rintro ⟨hk, rfl⟩
      exact ⟨k, hk, rfl⟩
  refine ⟨hmem, ?_⟩
  have hdiffer : out.Pairwise (· ≠ ·) := by
    rw [← List.nodup_iff_pairwise_ne, hperm.nodup_iff]
    exact hnodup.map fun i j heq => (Prod.mk.inj heq).2
  refine (hsorted.and hdiffer).imp_of_mem ?_
  rintro ⟨name, k⟩ ⟨name', k'⟩ ha hb ⟨hnot, hne⟩
  have hle : name ≤ name' := not_lt.mp (of_decide_eq_false hnot)
  refine lt_of_le_of_ne hle ?_
  rintro rfl
  obtain ⟨hk, hname⟩ := (hmem _ _).mp ha
  obtain ⟨hk', hname'⟩ := (hmem _ _).mp hb
  exact hne (by rw [hinj k hk k' hk' (hname.trans hname'.symm)])

/-! ## Days -/

/-- The first whole day after which `b` is not before `a` after `day1`. -/
theorem first_day_le_iff {a b day1 day : ℤ} (hday1 : 1440 ∣ day1)
    (hday : 1440 ∣ day) :
    (if a % 1440 ≤ b % 1440 then
        day1 + (a - a % 1440) - (b - b % 1440)
      else day1 + (a - a % 1440) - (b - b % 1440) + 1440) ≤ day ↔
      day1 + a ≤ day + b := by
  split_ifs <;> omega

/-- For times after midnight of the first day, the first start day on which
the second train can be boarded is the least one on which it leaves no earlier
than the first train arrives. -/
theorem fastStartDay_le_iff {train1 train2 : Train} {startDay1 day : TimeType}
    {k l : ℕ} (hk : 0 ≤ train1.arrivingTimes k)
    (hl : 0 ≤ train2.leavingTimes l) (hday1 : 1440 ∣ startDay1)
    (hday : 1440 ∣ day) :
    fastStartDay train1 train2 startDay1 k l ≤ day ↔
      startDay1 + train1.arrivingTimes k ≤ day + train2.leavingTimes l := by
  simp only [fastStartDay, TimeType.getDate, TimeType.getTime,
    Int.tmod_eq_emod_of_nonneg hk, Int.tmod_eq_emod_of_nonneg hl]
  exact first_day_le_iff hday1 hday

/-- The whole days of the sale window of the second train on which it leaves
the station of the change no earlier than the first train arrives. -/
def connectingDays (train1 train2 : Train) (t1 : Station)
    (startDay1 : TimeType) (k l : ℕ) : Set TimeType :=
  {day | 1440 ∣ day ∧ t1.startSaleTime ≤ day ∧ day ≤ t1.endSaleTime ∧
    startDay1 + train1.arrivingTimes k ≤ day + train2.leavingTimes l}

/-- The day that the second train is boarded on, unless the change is
skipped. -/
def startDay2 (train1 train2 : Train) (t1 : Station) (startDay1 : TimeType)
    (k l : ℕ) : Option TimeType :=
  let fastStartDay2 := fastStartDay train1 train2 startDay1 k l
  if t1.endSaleTime < fastStartDay2 then none
  else some (max fastStartDay2 t1.startSaleTime)

/-- The change is skipped when no day connects, and otherwise it is made on the
first one that does. -/
theorem startDay2_eq {train1 train2 : Train} {t1 : Station}
    {startDay1 : TimeType} {k l : ℕ} (hk : 0 ≤ train1.arrivingTimes k)
    (hl : 0 ≤ train2.leavingTimes l) (hday1 : 1440 ∣ startDay1)
    (hstart : 1440 ∣ t1.startSaleTime)
    (hwindow : t1.startSaleTime ≤ t1.endSaleTime) :
    (startDay2 train1 train2 t1 startDay1 k l = none ↔
      connectingDays train1 train2 t1 startDay1 k l = ∅) ∧
    ∀ day2, startDay2 train1 train2 t1 startDay1 k l = some day2 →
      IsLeast (connectingDays train1 train2 t1 startDay1 k l) day2 := by
  have hfast := @TrainManagement.dvd_fastStartDay train1 train2
    startDay1 hday1 k l
  have hmem : ∀ day, day ∈ connectingDays train1 train2 t1 startDay1 k l ↔
      1440 ∣ day ∧ t1.startSaleTime ≤ day ∧ day ≤ t1.endSaleTime ∧
        fastStartDay train1 train2 startDay1 k l ≤ day := by
    intro day
    constructor
    · rintro ⟨hday, hfrom, hto, hleave⟩
      exact ⟨hday, hfrom, hto,
        (fastStartDay_le_iff hk hl hday1 hday).mpr hleave⟩
    · rintro ⟨hday, hfrom, hto, hle⟩
      exact ⟨hday, hfrom, hto, (fastStartDay_le_iff hk hl hday1 hday).mp hle⟩
  rw [startDay2]
  generalize fastStartDay train1 train2 startDay1 k l = fast at hfast hmem ⊢
  by_cases hlate : t1.endSaleTime < fast
  · -- every day of the window is too early
    simp only [if_pos hlate, true_iff]
    constructor
    · rw [Set.eq_empty_iff_forall_notMem]
      intro day hday
      obtain ⟨-, -, hto, hle⟩ := (hmem day).mp hday
      exact absurd hlate (not_lt.mpr (hle.trans hto))
    · rintro day2 ⟨⟩
  · simp only [if_neg hlate, Option.some.injEq]
    have hleast : IsLeast (connectingDays train1 train2 t1 startDay1 k l)
        (max fast t1.startSaleTime) := by
      constructor
      · apply (hmem _).mpr
        refine ⟨?_, le_max_right _ _, ?_, le_max_left _ _⟩
        · rcases max_choice fast t1.startSaleTime with hmax | hmax
          · rwa [hmax]
          · rwa [hmax]
        · exact max_le (not_lt.mp hlate) hwindow
      · intro day hday
        obtain ⟨-, hfrom, -, hle⟩ := (hmem day).mp hday
        exact max_le hle hfrom
    constructor
    · apply iff_of_false
      · simp
      · exact hleast.nonempty.ne_empty
    · rintro day2 rfl
      exact hleast

namespace TrainManagement

/-- The iteration of the innermost loop from the day of the second train on. -/
def tryOnDay (trains : TrainManagement) (type : String)
    (startDay1 : TimeType) (s1 t1 : Station) (train1 train2 : Train)
    (best : Transfer) (k l : ℕ) (startDay2 : TimeType) : Option Transfer :=
  let cost := train1.priceSum k - s1.priceSum + t1.priceSum -
    train2.priceSum l
  let time := (startDay2 + t1.arrivingTime) - (startDay1 + s1.leavingTime)
  let firstTime := train1.arrivingTimes k - s1.leavingTime
  if best.improves type cost time firstTime then
    match trains.daytrainDatabase.searchKey ⟨train1.trainId, startDay1⟩,
      trains.daytrainDatabase.searchKey ⟨train2.trainId, startDay2⟩ with
    | f1 :: _, f2 :: _ =>
        some
          { cost := cost, time := time, firstTime := firstTime
            output := some
              ({ trainId := s1.trainId, fromStation := s1.stationName
                 leaving := startDay1 + s1.leavingTime
                 toStation := train1.stations k
                 arriving := startDay1 + train1.arrivingTimes k
                 price := train1.priceSum k - s1.priceSum
                 seat := f1.querySeat s1.index (k - 1) },
               { trainId := t1.trainId, fromStation := train2.stations l
                 leaving := startDay2 + train2.leavingTimes l
                 toStation := t1.stationName
                 arriving := startDay2 + t1.arrivingTime
                 price := t1.priceSum - train2.priceSum l
                 seat := f2.querySeat l (t1.index - 1) }) }
    | _, _ => none
  else some best

theorem tryTransfer_eq (trains : TrainManagement) (type : String)
    (startDay1 : TimeType) (s1 t1 : Station) (train1 train2 : Train)
    (best : Transfer) (k l : ℕ) :
    trains.tryTransfer type startDay1 s1 t1 train1 train2 best k l =
      (startDay2 train1 train2 t1 startDay1 k l).elim (some best)
        (trains.tryOnDay type startDay1 s1 t1 train1 train2 best k l) := by
  rw [tryTransfer, startDay2]
  by_cases hlate :
      t1.endSaleTime < fastStartDay train1 train2 startDay1 k l
  · simp only [if_pos hlate]
    rfl
  · simp only [if_neg hlate]
    rfl

/-- An iteration changes to the second train on the first day that connects,
which makes the total time as short as it can be, and is skipped when no day
does. -/
theorem tryTransfer_on_first_day (trains : TrainManagement) (type : String)
    (startDay1 : TimeType) (s1 : Station) {t1 : Station}
    {train1 train2 : Train} (best : Transfer) {k l : ℕ}
    (hk : 0 ≤ train1.arrivingTimes k) (hl : 0 ≤ train2.leavingTimes l)
    (hday1 : 1440 ∣ startDay1) (hstart : 1440 ∣ t1.startSaleTime)
    (hwindow : t1.startSaleTime ≤ t1.endSaleTime) :
    trains.tryTransfer type startDay1 s1 t1 train1 train2 best k l =
        (startDay2 train1 train2 t1 startDay1 k l).elim (some best)
          (trains.tryOnDay type startDay1 s1 t1 train1 train2 best k l) ∧
      (startDay2 train1 train2 t1 startDay1 k l = none ↔
        ¬ ∃ day, day ∈ connectingDays train1 train2 t1 startDay1 k l) ∧
      ∀ day2, startDay2 train1 train2 t1 startDay1 k l = some day2 →
        IsLeast (connectingDays train1 train2 t1 startDay1 k l) day2 ∧
          ∀ day ∈ connectingDays train1 train2 t1 startDay1 k l,
            (day2 + t1.arrivingTime) - (startDay1 + s1.leavingTime) ≤
              (day + t1.arrivingTime) - (startDay1 + s1.leavingTime) := by
  obtain ⟨hnone, hsome⟩ := startDay2_eq hk hl hday1 hstart hwindow
  refine ⟨tryTransfer_eq .., ?_, ?_⟩
  · rw [hnone, Set.eq_empty_iff_forall_notMem, not_exists]
  · intro day2 hday2
    refine ⟨hsome day2 hday2, ?_⟩
    intro day hday
    have hle : day2 ≤ day := (hsome day2 hday2).2 hday
    exact sub_le_sub_right (add_le_add_left hle _) _

theorem tryTransfer_on_first_day_overnight :
    IsLeast
      (connectingDays
        ⟨"a", fun _ => "", 2, 1, 0, fun _ => 1500, fun _ => 0, 0, 4320, 'G',
          true, fun _ => 0⟩
        ⟨"b", fun _ => "", 2, 1, 0, fun _ => 0, fun _ => 60, 0, 4320, 'G',
          true, fun _ => 0⟩
        ⟨"b", "", 0, 4320, 0, 0, 0, 2⟩ 0 2 1) 1440 :=
  ((tryTransfer_on_first_day ⟨.new 0, .new 0, .new 0, .new 0, .new 0, 0⟩
    "time" 0 ⟨"a", "", 0, 4320, 0, 0, 0, 1⟩
    ⟨0, 0, 0, none⟩ (by decide) (by decide) (by decide) (by decide)
    (by decide)).2.2 1440 (by decide)).1

end TrainManagement

/-! ## Itineraries -/

/-- A way to travel with one change: from stop `s` to stop `k` of the first
train and, at the same station, from stop `l` to stop `t` of the second. -/
structure Itinerary where
  trainId1 : String
  train1 : Train
  s : ℕ
  k : ℕ
  trainId2 : String
  train2 : Train
  l : ℕ
  t : ℕ
  startDay1 : TimeType
  startDay2 : TimeType

namespace Itinerary

def cost (x : Itinerary) : ℤ :=
  x.train1.priceSum x.k - x.train1.priceSum x.s + x.train2.priceSum x.t -
    x.train2.priceSum x.l

def time (x : Itinerary) : ℤ :=
  (x.startDay2 + x.train2.arrivingTimes x.t) -
    (x.startDay1 + x.train1.leavingTimes x.s)

/-- The travel time of the first train. -/
def firstTime (x : Itinerary) : ℤ :=
  x.train1.arrivingTimes x.k - x.train1.leavingTimes x.s

/-- The first two keys, in the order that `type` asks for. -/
def mainKey (type : String) (x : Itinerary) : ℤ ×ₗ ℤ :=
  if type = "cost" then toLex (x.cost, x.time) else toLex (x.time, x.cost)

def idKey (x : Itinerary) : String ×ₗ String := toLex (x.trainId1, x.trainId2)

/-- The keys of the specification: the trains decide ties. -/
def docKey (type : String) (x : Itinerary) :
    (ℤ ×ₗ ℤ) ×ₗ (String ×ₗ String) :=
  toLex (x.mainKey type, x.idKey)

/-- The keys of the program: the travel time of the first train decides
ties. -/
def codeKey (type : String) (x : Itinerary) : (ℤ ×ₗ ℤ) ×ₗ ℤ :=
  toLex (x.mainKey type, x.firstTime)

/-- What the keys start with. -/
def topKey : (ℤ ×ₗ ℤ) ×ₗ ℤ := toLex (toLex (maxInt, maxInt), maxInt)

end Itinerary

namespace TrainManagement

variable {trains : TrainManagement}

/-- The seats that can be had between two stops on a day. -/
def seatsBetween (trains : TrainManagement) (trainId : String)
    (day : TimeType) (l r : ℕ) : ℤ :=
  match trains.daytrainDatabase.searchKey ⟨trainId, day⟩ with
  | [] => 0
  | d :: _ => d.querySeat l (r - 1)

/-- The two lines that show an itinerary. -/
def itineraryRows (trains : TrainManagement) (x : Itinerary) :
    TicketRow × TicketRow :=
  ({ trainId := x.trainId1, fromStation := x.train1.stations x.s
     leaving := x.startDay1 + x.train1.leavingTimes x.s
     toStation := x.train1.stations x.k
     arriving := x.startDay1 + x.train1.arrivingTimes x.k
     price := x.train1.priceSum x.k - x.train1.priceSum x.s
     seat := trains.seatsBetween x.trainId1 x.startDay1 x.s x.k },
   { trainId := x.trainId2, fromStation := x.train2.stations x.l
     leaving := x.startDay2 + x.train2.leavingTimes x.l
     toStation := x.train2.stations x.t
     arriving := x.startDay2 + x.train2.arrivingTimes x.t
     price := x.train2.priceSum x.t - x.train2.priceSum x.l
     seat := trains.seatsBetween x.trainId2 x.startDay2 x.l x.t })

/-- The itineraries that can be travelled: two different released trains, the
first boarded on `day`, both on days of their sale windows, and the second
leaves the station of the change no earlier than the first arrives. -/
structure Feasible (trains : TrainManagement) (fromStation toStation : String)
    (day : TimeType) (x : Itinerary) : Prop where
  released1 : trains.Released x.trainId1 x.train1
  released2 : trains.Released x.trainId2 x.train2
  ne : x.trainId1 ≠ x.trainId2
  one_le_s : 1 ≤ x.s
  s_lt : x.s < x.k
  k_le : x.k ≤ x.train1.stationNum
  from_eq : x.train1.stations x.s = fromStation
  one_le_l : 1 ≤ x.l
  l_lt : x.l < x.t
  t_le : x.t ≤ x.train2.stationNum
  to_eq : x.train2.stations x.t = toStation
  change_eq : x.train1.stations x.k = x.train2.stations x.l
  startDay1_eq :
    x.startDay1 = day - TimeType.getDate (x.train1.leavingTimes x.s)
  startDay1_mem : x.train1.startSaleDate ≤ x.startDay1 ∧
    x.startDay1 ≤ x.train1.endSaleDate
  startDay2_mem :
    x.startDay2 ∈ saleDays x.train2.startSaleDate x.train2.endSaleDate
  in_time : x.startDay1 + x.train1.arrivingTimes x.k ≤
    x.startDay2 + x.train2.leavingTimes x.l

end TrainManagement

/-- On which day the second train of an itinerary is boarded by the
program. -/
def Itinerary.firstDay2 (x : Itinerary) : TimeType :=
  max (fastStartDay x.train1 x.train2 x.startDay1 x.k x.l)
    x.train2.startSaleDate

/-- What the loop holds when it holds an itinerary. -/
def Transfer.holding (trains : TrainManagement) : Option Itinerary → Transfer
  | none => ⟨maxInt, maxInt, maxInt, none⟩
  | some x => ⟨x.cost, x.time, x.firstTime, some (trains.itineraryRows x)⟩

/-- The three comparisons compare the keys in their order. -/
theorem Transfer.improves_holding (trains : TrainManagement)
    (best : Option Itinerary) (type : String) (x : Itinerary) :
    (Transfer.holding trains best).improves type x.cost x.time x.firstTime ↔
      x.codeKey type <
        keyOr (Itinerary.codeKey type) Itinerary.topKey best := by
  have hkeys : ∀ cost time firstTime cost' time' firstTime' : ℤ,
      Transfer.improves ⟨cost', time', firstTime', none⟩ type cost time
          firstTime ↔
        toLex ((if type = "cost" then toLex (cost, time)
            else toLex (time, cost) : ℤ ×ₗ ℤ), firstTime) <
          toLex ((if type = "cost" then toLex (cost', time')
            else toLex (time', cost') : ℤ ×ₗ ℤ), firstTime') := by
    intro cost time firstTime cost' time' firstTime'
    unfold Transfer.improves
    by_cases htype : type = "cost"
    · simp only [if_pos htype, decide_eq_true_eq, Prod.Lex.toLex_lt_toLex,
        toLex_inj, Prod.mk.injEq]
      omega
    · simp only [if_neg htype, decide_eq_true_eq, Prod.Lex.toLex_lt_toLex,
        toLex_inj, Prod.mk.injEq]
      omega
  cases best with
  | none =>
      have htop := hkeys x.cost x.time x.firstTime maxInt maxInt maxInt
      rw [ite_self] at htop
      exact htop
  | some y => exact hkeys x.cost x.time x.firstTime y.cost y.time y.firstTime

/-! ## The loops go over all itineraries -/

namespace TrainManagement

variable {trains : TrainManagement}

/-- The trains reach and leave their stations after midnight of the first
day. -/
def Timely (trains : TrainManagement) : Prop :=
  ∀ trainId train, trains.trainDatabase.map.find? trainId = some train →
    ∀ i, 1 ≤ i → i ≤ train.stationNum →
      0 ≤ train.arrivingTimes i ∧ 0 ≤ train.leavingTimes i

/-- The databases as the documented input leaves them. -/
structure Documented (trains : TrainManagement) : Prop where
  consistent : trains.Consistent
  referenced : trains.Referenced
  timely : trains.Timely

/-- A feasible itinerary whose second train is boarded as early as it can
be. -/
def Earliest (trains : TrainManagement) (fromStation toStation : String)
    (day : TimeType) (x : Itinerary) : Prop :=
  trains.Feasible fromStation toStation day x ∧ x.startDay2 = x.firstDay2

/-- `F` goes over the itineraries that `P` holds of, by their trains. -/
def GoesOver (trains : TrainManagement) (type : String)
    (F : Transfer → Option Transfer) (P : Itinerary → Prop) : Prop :=
  Enumerates (Transfer.holding trains)
    (better (Itinerary.codeKey type) Itinerary.topKey)
    (fun x y => x.idKey ≤ y.idKey) F P

theorem seatsBetween_of_find? {trainId : String} {day : TimeType}
    {d : DayTrain}
    (hd : trains.daytrainDatabase.map.find? ⟨trainId, day⟩ = some d)
    (l r : ℕ) :
    trains.seatsBetween trainId day l r = d.querySeat l (r - 1) := by
  rw [seatsBetween, Index.searchKey_of_find? hd]
  rfl

/-- Two stops on different trains, the first boarded on a day of its sale
window. -/
structure Boarded (trains : TrainManagement) (day : TimeType)
    (trainId1 : String) (train1 : Train) (s : ℕ) (trainId2 : String)
    (train2 : Train) (t : ℕ) : Prop where
  released1 : trains.Released trainId1 train1
  released2 : trains.Released trainId2 train2
  one_le_s : 1 ≤ s
  s_le : s ≤ train1.stationNum
  one_le_t : 1 ≤ t
  t_le : t ≤ train2.stationNum
  dvd_day : 1440 ∣ day
  le_startDay1 : train1.startSaleDate ≤
    day - TimeType.getDate (train1.leavingTimes s)
  startDay1_le : day - TimeType.getDate (train1.leavingTimes s) ≤
    train1.endSaleDate

section Boarded

variable {type : String} {day : TimeType} {trainId1 trainId2 : String}
  {train1 train2 : Train} {s t : ℕ}

/-- The itinerary of one change. -/
def Boarded.itinerary
    (_ : trains.Boarded day trainId1 train1 s trainId2 train2 t)
    (k l : ℕ) : Itinerary where
  trainId1 := trainId1
  train1 := train1
  s := s
  k := k
  trainId2 := trainId2
  train2 := train2
  l := l
  t := t
  startDay1 := day - TimeType.getDate (train1.leavingTimes s)
  startDay2 := max (fastStartDay train1 train2
    (day - TimeType.getDate (train1.leavingTimes s)) k l) train2.startSaleDate

theorem Boarded.dvd_startDay1
    (hb : trains.Boarded day trainId1 train1 s trainId2 train2 t) :
    1440 ∣ day - TimeType.getDate (train1.leavingTimes s) :=
  dvd_sub hb.dvd_day (TimeType.dvd_getDate _)

theorem Boarded.dvd_startDay2 (h : trains.Documented)
    (hb : trains.Boarded day trainId1 train1 s trainId2 train2 t) (k l : ℕ) :
    1440 ∣ (hb.itinerary k l).startDay2 := by
  have hfast := @dvd_fastStartDay train1 train2 _ hb.dvd_startDay1 k l
  have hstart := (h.referenced.train_sound _ _ hb.released2.1).2.1
  rcases max_choice (fastStartDay train1 train2
    (day - TimeType.getDate (train1.leavingTimes s)) k l)
    train2.startSaleDate with hmax | hmax
  · rw [Boarded.itinerary, hmax]
    exact hfast
  · rw [Boarded.itinerary, hmax]
    exact hstart

/-- One change is one candidate, unless the second train is not sold that
late. -/
theorem tryTransfer_goesOver (h : trains.Documented)
    (hb : trains.Boarded day trainId1 train1 s trainId2 train2 t) (k l : ℕ) :
    trains.GoesOver type
      (fun best => trains.tryTransfer type
        (day - TimeType.getDate (train1.leavingTimes s))
        (train1.station trainId1 s) (train2.station trainId2 t) train1 train2
        best k l)
      (fun x => x = hb.itinerary k l ∧
        fastStartDay train1 train2
          (day - TimeType.getDate (train1.leavingTimes s)) k l ≤
            train2.endSaleDate) := by
  by_cases hlate : train2.endSaleDate < fastStartDay train1 train2
      (day - TimeType.getDate (train1.leavingTimes s)) k l
  · apply Enumerates.nothing
    · intro best
      exact if_pos hlate
    · rintro x ⟨-, hle⟩
      exact absurd hle (not_le.mpr hlate)
  apply @Enumerates.single _ _ _ _ _ _ _ (hb.itinerary k l)
  swap
  · exact fun x => and_iff_left (not_lt.mp hlate)
  intro best
  -- both trains have seats on their days
  obtain ⟨hid1, -, -⟩ := h.referenced.train_sound _ _ hb.released1.1
  obtain ⟨hid2, -, hwindow⟩ := h.referenced.train_sound _ _ hb.released2.1
  obtain ⟨d1, hd1⟩ := h.referenced.exists_daytrain hb.released1
    hb.dvd_startDay1 hb.le_startDay1 hb.startDay1_le
  obtain ⟨d2, hd2⟩ := h.referenced.exists_daytrain hb.released2
    (hb.dvd_startDay2 h k l) (le_max_right _ _)
    (max_le (not_lt.mp hlate) hwindow)
  have hsearch1 := Index.searchKey_of_find? hd1
  have hsearch2 := Index.searchKey_of_find? hd2
  let x := hb.itinerary k l
  have hseats1 : trains.seatsBetween x.trainId1 x.startDay1 x.s x.k =
      d1.querySeat s (k - 1) := seatsBetween_of_find? hd1 s k
  have hseats2 : trains.seatsBetween x.trainId2 x.startDay2 x.l x.t =
      d2.querySeat l (t - 1) := seatsBetween_of_find? hd2 l t
  have himproves := Transfer.improves_holding trains best type x
  rw [tryTransfer]
  apply (if_neg hlate).trans
  rw [better]
  by_cases hbetter : x.codeKey type <
      keyOr (Itinerary.codeKey type) Itinerary.topKey best
  · rw [if_pos hbetter]
    apply (if_pos (himproves.mpr hbetter)).trans
    rw [hid1, hid2]
    split
    next f1 _ f2 _ hf1 hf2 =>
      obtain rfl : d1 = f1 := (List.cons.inj (hsearch1.symm.trans hf1)).1
      obtain rfl : d2 = f2 := (List.cons.inj (hsearch2.symm.trans hf2)).1
      apply congrArg some
      rw [Transfer.holding, itineraryRows, hseats1, hseats2]
      rfl
    next hnone =>
      exact absurd hsearch2 (hnone d1 [] d2 [] hsearch1)
  · rw [if_neg hbetter]
    exact if_neg (fun hyes => hbetter (himproves.mp hyes))

/-- The candidates of two trains are the earliest itineraries on them. -/
theorem Boarded.earliest_iff (h : trains.Documented)
    (hb : trains.Boarded day trainId1 train1 s trainId2 train2 t)
    (hne : trainId1 ≠ trainId2) {x : Itinerary} :
    (∃ k l, (s < k ∧ k ≤ train1.stationNum) ∧ (1 ≤ l ∧ l < t) ∧
        train1.stations k = train2.stations l ∧ x = hb.itinerary k l ∧
        fastStartDay train1 train2
          (day - TimeType.getDate (train1.leavingTimes s)) k l ≤
            train2.endSaleDate) ↔
      x.trainId1 = trainId1 ∧ x.s = s ∧ x.trainId2 = trainId2 ∧ x.t = t ∧
        trains.Earliest (train1.stations s) (train2.stations t) day x := by
  obtain ⟨-, -, hwindow⟩ := h.referenced.train_sound _ _ hb.released2.1
  constructor
  · rintro ⟨k, l, ⟨hsk, hk⟩, ⟨hl, hlt⟩, hchange, rfl, hsold⟩
    have hdvd2 := hb.dvd_startDay2 h k l
    have harrive := (h.timely _ _ hb.released1.1 k
      (hb.one_le_s.trans hsk.le) hk).1
    have hleave := (h.timely _ _ hb.released2.1 l hl
      (hlt.le.trans hb.t_le)).2
    have hintime := (fastStartDay_le_iff harrive hleave hb.dvd_startDay1
      hdvd2).mp (le_max_left _ _)
    have hstart := (h.referenced.train_sound _ _ hb.released2.1).2.1
    refine ⟨rfl, rfl, rfl, rfl, ?_, rfl⟩
    exact
      { released1 := hb.released1
        released2 := hb.released2
        ne := hne
        one_le_s := hb.one_le_s
        s_lt := hsk
        k_le := hk
        from_eq := rfl
        one_le_l := hl
        l_lt := hlt
        t_le := hb.t_le
        to_eq := rfl
        change_eq := hchange
        startDay1_eq := rfl
        startDay1_mem := ⟨hb.le_startDay1, hb.startDay1_le⟩
        startDay2_mem := mem_saleDays.mpr ⟨le_max_right _ _,
          max_le hsold hwindow, dvd_sub hdvd2 hstart⟩
        in_time := hintime }
  · rintro ⟨rfl, rfl, rfl, rfl, hf, hfirst⟩
    obtain rfl := hf.released1.unique hb.released1
    obtain rfl := hf.released2.unique hb.released2
    have hx : x = hb.itinerary x.k x.l := by
      rw [Boarded.itinerary, ← hf.startDay1_eq]
      change x = { x with startDay2 := x.firstDay2 }
      rw [← hfirst]
    have hsold := (mem_saleDays.mp hf.startDay2_mem).2.1
    rw [hfirst, Itinerary.firstDay2, hf.startDay1_eq] at hsold
    exact ⟨x.k, x.l, ⟨hf.s_lt, hf.k_le⟩, ⟨hf.one_le_l, hf.l_lt⟩, hf.change_eq,
      hx, (le_max_left _ _).trans hsold⟩

/-- The middle loop goes over the earliest itineraries on two trains. -/
theorem tryTrains_goesOver (h : trains.Documented)
    (hb : trains.Boarded day trainId1 train1 s trainId2 train2 t) :
    trains.GoesOver type
      (fun best => trains.tryTrains type day (train1.station trainId1 s) train1
        best (train2.station trainId2 t))
      (fun x => x.trainId1 = trainId1 ∧ x.s = s ∧ x.trainId2 = trainId2 ∧
        x.t = t ∧
          trains.Earliest (train1.stations s) (train2.stations t) day x) := by
  by_cases hsame : trainId1 = trainId2
  · apply Enumerates.nothing
    · intro best
      exact if_pos hsame
    · rintro x ⟨hid1, -, hid2, -, hf, -⟩
      exact hf.ne (hid1.trans (hsame.trans hid2.symm))
  have hinj1 := (h.consistent.train_sound _ _ hb.released1.1).stations_inj
  have hinj2 := (h.consistent.train_sound _ _ hb.released2.1).stations_inj
  obtain ⟨starts, hstarts, -⟩ := sort_spec stationCmp_strictWeakOrder
    ((loopRange (s + 1) train1.stationNum).map
      fun k => (train1.stations k, k))
  obtain ⟨ends, hends, -⟩ := sort_spec stationCmp_strictWeakOrder
    ((loopRange 1 (t - 1)).map fun k => (train2.stations k, k))
  have hs := hb.one_le_s
  have ht := hb.t_le
  obtain ⟨hmem1, hlt1⟩ := sort_stations (loopRange_nodup _ _) (fun i hi j hj =>
    hinj1 i j (by have := mem_loopRange.mp hi; omega) (mem_loopRange.mp hi).2
      (by have := mem_loopRange.mp hj; omega) (mem_loopRange.mp hj).2) hstarts
  obtain ⟨hmem2, hlt2⟩ := sort_stations (loopRange_nodup _ _) (fun i hi j hj =>
    hinj2 i j (mem_loopRange.mp hi).1 (by have := mem_loopRange.mp hi; omega)
      (mem_loopRange.mp hj).1 (by have := mem_loopRange.mp hj; omega)) hends
  have hcommon := fun kl : ℕ × ℕ => @mem_commonStations_iff
    (starts.length + ends.length) starts ends le_rfl hlt1 hlt2 kl
  have hloop : trains.GoesOver type
      (fun best => (commonStations (starts.length + ends.length) starts
        ends).foldlM (fun best kl => trains.tryTransfer type
          (day - TimeType.getDate (train1.leavingTimes s))
          (train1.station trainId1 s) (train2.station trainId2 t) train1
          train2 best kl.1 kl.2) best)
      (fun x => ∃ kl ∈ commonStations (starts.length + ends.length) starts
        ends, x = hb.itinerary kl.1 kl.2 ∧
          fastStartDay train1 train2
            (day - TimeType.getDate (train1.leavingTimes s)) kl.1 kl.2 ≤
              train2.endSaleDate) := by
    refine Enumerates.foldlM (Q := fun _ _ => True)
      (List.pairwise_of_forall fun _ _ => trivial)
      (fun kl _ => tryTransfer_goesOver h hb kl.1 kl.2) ?_
    rintro kl - kl' - x y - ⟨rfl, -⟩ ⟨rfl, -⟩
    exact le_rfl
  have hsearch := Index.searchKey_of_find? hb.released2.1
  obtain ⟨xs, hrun, hmem, hsorted⟩ := hloop
  refine ⟨xs, fun best => ?_, fun x => ?_, hsorted⟩
  · dsimp only
    rw [tryTrains]
    apply (if_neg hsame).trans
    rw [show trains.trainDatabase.searchKey
      (train2.station trainId2 t).trainId = [train2] from hsearch]
    simp only [Train.station, hstarts, hends, Option.bind_eq_bind,
      Option.bind_some]
    exact hrun best
  · dsimp only
    rw [hmem, ← hb.earliest_iff h hsame]
    constructor
    · rintro ⟨⟨k, l⟩, hkl, hx, hsold⟩
      obtain ⟨name, hk, hl⟩ := (hcommon _).mp hkl
      obtain ⟨hkin, rfl⟩ := (hmem1 _ _).mp hk
      obtain ⟨hlin, hname⟩ := (hmem2 _ _).mp hl
      rw [mem_loopRange] at hkin hlin
      exact ⟨k, l, ⟨by omega, hkin.2⟩, ⟨hlin.1, by omega⟩, hname.symm, hx,
        hsold⟩
    · rintro ⟨k, l, ⟨hsk, hk⟩, ⟨hl, hlt⟩, hname, hx, hsold⟩
      refine ⟨(k, l), (hcommon _).mpr ⟨train1.stations k, ?_, ?_⟩, hx, hsold⟩
      · exact (hmem1 _ _).mpr ⟨mem_loopRange.mpr ⟨hsk, hk⟩, rfl⟩
      · exact (hmem2 _ _).mpr ⟨mem_loopRange.mpr ⟨hl, by omega⟩, hname.symm⟩

end Boarded

variable {type fromStation toStation : String} {day : TimeType}

/-- The loops of `query_transfer` go over all earliest itineraries. -/
theorem queryTransfer_goesOver (h : trains.Documented) (hday : 1440 ∣ day) :
    trains.GoesOver type
      (fun best => (trains.stationsNamed fromStation).foldlM
        (fun best s1 =>
          let startDay1 := s1.startDay day
          if startDay1 < s1.startSaleTime ∨ s1.endSaleTime < startDay1 then
            some best
          else
            match trains.trainDatabase.searchKey s1.trainId with
            | [] => none
            | train1 :: _ =>
                (trains.stationsNamed toStation).foldlM
                  (trains.tryTrains type day s1 train1) best)
        best)
      (trains.Earliest fromStation toStation day) := by
  have hsorted1 := stationsNamed_trainSorted h.consistent fromStation
  have hsorted2 := stationsNamed_trainSorted h.consistent toStation
  have hmem1 := fun station =>
    @mem_stationsNamed_iff trains h.consistent fromStation station
  have hmem2 := fun station =>
    @mem_stationsNamed_iff trains h.consistent toStation station
  -- the trains of one first station
  have hinner : ∀ s1 ∈ trains.stationsNamed fromStation,
      trains.GoesOver type
        (fun best =>
          let startDay1 := s1.startDay day
          if startDay1 < s1.startSaleTime ∨ s1.endSaleTime < startDay1 then
            some best
          else
            match trains.trainDatabase.searchKey s1.trainId with
            | [] => none
            | train1 :: _ =>
                (trains.stationsNamed toStation).foldlM
                  (trains.tryTrains type day s1 train1) best)
        (fun x => x.trainId1 = s1.trainId ∧ x.s = s1.index ∧
          trains.Earliest fromStation toStation day x) := by
    intro s1 hs1
    obtain ⟨trainId1, train1, s, hrel1, hs, hsn, hfrom, rfl⟩ := (hmem1 s1).mp hs1
    by_cases hwindow :
        day - TimeType.getDate (train1.leavingTimes s) <
            train1.startSaleDate ∨
          train1.endSaleDate < day - TimeType.getDate (train1.leavingTimes s)
    · apply Enumerates.nothing
      · intro best
        exact if_pos hwindow
      · rintro x ⟨hid, hindex, hf, -⟩
        obtain rfl : x.trainId1 = trainId1 := hid
        obtain rfl : x.s = s := hindex
        obtain rfl := hf.released1.unique hrel1
        obtain ⟨hle, hge⟩ := hf.startDay1_mem
        rw [hf.startDay1_eq] at hle hge
        rcases hwindow with hlt | hlt
        · exact absurd hle (not_le.mpr hlt)
        · exact absurd hge (not_le.mpr hlt)
    have hopen := hwindow
    rw [not_or, not_lt, not_lt] at hopen
    have hloop : trains.GoesOver type
        (fun best => (trains.stationsNamed toStation).foldlM
          (trains.tryTrains type day (train1.station trainId1 s) train1) best)
        (fun x => ∃ t1 ∈ trains.stationsNamed toStation,
          x.trainId1 = trainId1 ∧ x.s = s ∧ x.trainId2 = t1.trainId ∧
            x.t = t1.index ∧
              trains.Earliest fromStation toStation day x) := by
      refine Enumerates.foldlM hsorted2 (fun t1 ht1 => ?_) ?_
      · obtain ⟨trainId2, train2, t, hrel2, ht, htn, hto, rfl⟩ :=
          (hmem2 t1).mp ht1
        have hb : trains.Boarded day trainId1 train1 s trainId2 train2 t :=
          ⟨hrel1, hrel2, hs, hsn, ht, htn, hday, hopen.1, hopen.2⟩
        have hboth := @tryTrains_goesOver trains type day trainId1 trainId2
          train1 train2 s t h hb
        rw [hfrom, hto] at hboth
        exact hboth
      · rintro t1 - t1' - x y hlt ⟨hid1, -, hid2, -⟩ ⟨hid1', -, hid2', -⟩
        rw [Itinerary.idKey, Itinerary.idKey, hid1, hid1', hid2, hid2']
        exact Prod.Lex.toLex_le_toLex.mpr (Or.inr ⟨rfl, hlt.le⟩)
    obtain ⟨xs, hrun, hmem, hordered⟩ := hloop
    have hsearch := Index.searchKey_of_find? hrel1.1
    refine ⟨xs, fun best => ?_, fun x => (hmem x).trans ?_, hordered⟩
    · apply (if_neg hwindow).trans
      rw [show trains.trainDatabase.searchKey
        (train1.station trainId1 s).trainId = [train1] from hsearch]
      exact hrun best
    · constructor
      · rintro ⟨t1, -, hid, hindex, -, -, hearliest⟩
        exact ⟨hid, hindex, hearliest⟩
      · rintro ⟨hid, hindex, hearliest⟩
        have hf := hearliest.1
        refine ⟨x.train2.station x.trainId2 x.t, (hmem2 _).mpr
          ⟨x.trainId2, x.train2, x.t, hf.released2,
            hf.one_le_l.trans hf.l_lt.le, hf.t_le, hf.to_eq, rfl⟩, hid, hindex,
          rfl, rfl, hearliest⟩
  have houter := @Enumerates.foldlM _ _ _ (Transfer.holding trains)
    (better (Itinerary.codeKey type) Itinerary.topKey)
    (fun x y => x.idKey ≤ y.idKey) _ _ _ _ hsorted1 hinner (by
      rintro s1 - s1' - x y hlt ⟨hid, -⟩ ⟨hid', -⟩
      rw [Itinerary.idKey, Itinerary.idKey, hid, hid']
      exact Prod.Lex.toLex_le_toLex.mpr (Or.inl hlt))
  apply Enumerates.congr houter
  intro x
  constructor
  · intro hearliest
    have hf := hearliest.1
    exact ⟨x.train1.station x.trainId1 x.s, (hmem1 _).mpr
      ⟨x.trainId1, x.train1, x.s, hf.released1, hf.one_le_s,
        hf.s_lt.le.trans hf.k_le, hf.from_eq, rfl⟩, rfl, rfl, hearliest⟩
  · rintro ⟨s1, -, -, -, hearliest⟩
    exact hearliest


end TrainManagement

end TicketSystem.Backend
