import TicketSystem.Backend.TrainRoute

/-!
# Prices in 32 bits

The documented limits on stations, prices and seats keep the prefix sums of the
prices far inside an `int`.  The total of a purchase is a product of two `int`s
that is only then stored in a `long long`, so that it is exact as long as it is
an `int` itself.
-/

namespace TicketSystem.Backend

open TicketSystem.Support
open TicketSystem.Database

/-! ## The documented limits -/

/-- An `add_train` inside the documented limits. -/
structure TrainArgs.WithinLimits (args : TrainArgs) : Prop where
  admissible : args.Admissible
  two_le : 2 ≤ args.stationNum
  prices : ∀ s ∈ split args.prices '|',
    isNumber s ∧ stringToInt s ≤ 100000
  seatNum_le : args.seatNum ≤ 100000

instance (args : TrainArgs) : Decidable args.WithinLimits :=
  decidable_of_iff (args.Admissible ∧ 2 ≤ args.stationNum ∧
      (∀ s ∈ split args.prices '|', isNumber s ∧ stringToInt s ≤ 100000) ∧
      args.seatNum ≤ 100000)
    ⟨fun ⟨h₁, h₂, h₃, h₄⟩ => ⟨h₁, h₂, h₃, h₄⟩,
      fun ⟨h₁, h₂, h₃, h₄⟩ => ⟨h₁, h₂, h₃, h₄⟩⟩

def Request.WithinLimits (request : Request) : Prop :=
  request.WellFormed ∧
    (request.name = .addTrain → (TrainArgs.ofLine request.line).WithinLimits)

instance (request : Request) : Decidable request.WithinLimits :=
  inferInstanceAs (Decidable (_ ∧ _))

/-- The states of the runs on commands inside the limits, from databases on new
files. -/
def System.ReachableWithinLimits (s : System) : Prop :=
  ∃ sizes, Reaches System.step (fun _ request => request.WithinLimits)
    (System.start (Databases.new sizes)) s

/-! ## Prefix sums -/

variable {train : Train} {route : TrainArgs} {i j k : ℕ}

theorem TrainArgs.WithinLimits.price_bounds (h : route.WithinLimits)
    (hk : 1 ≤ k) (hkn : (k : ℤ) < route.stationNum) :
    0 ≤ route.price k ∧ route.price k ≤ 100000 := by
  have hlen := h.admissible.prices_length
  have hlt : k - 1 < (split route.prices '|').length := by omega
  obtain ⟨hnumber, hle⟩ := h.prices _ (List.getElem_mem hlt)
  rw [TrainArgs.price, nthToken, List.getD_eq_getElem _ _ hlt]
  exact ⟨stringToInt_nonneg hnumber, hle⟩

/-- The price of a part of the route. -/
theorem Train.FollowsRoute.sum_bounds (h : train.FollowsRoute route)
    (hlimits : route.WithinLimits) (hi : 1 ≤ i) (hij : i ≤ j)
    (hjn : j ≤ train.stationNum) :
    0 ≤ ∑ k ∈ Finset.Ico i j, route.price k ∧
      ∑ k ∈ Finset.Ico i j, route.price k ≤ 9900000 := by
  have hn := h.stationNum_eq
  have hhundred := hlimits.admissible.le_hundred
  have hprice : ∀ k ∈ Finset.Ico i j,
      0 ≤ route.price k ∧ route.price k ≤ 100000 := by
    intro k hk
    obtain ⟨hik, hkj⟩ := Finset.mem_Ico.mp hk
    exact hlimits.price_bounds (hi.trans hik) (by omega)
  constructor
  · exact Finset.sum_nonneg fun k hk => (hprice k hk).1
  · have hcard := Finset.sum_le_card_nsmul _ _ 100000 fun k hk =>
      (hprice k hk).2
    rw [Nat.card_Ico, nsmul_eq_mul] at hcard
    have hlegs : ((j - i : ℕ) : ℤ) ≤ 99 := by omega
    calc ∑ k ∈ Finset.Ico i j, route.price k
        ≤ ((j - i : ℕ) : ℤ) * 100000 := hcard
      _ ≤ 99 * 100000 := mul_le_mul_of_nonneg_right hlegs (by decide)
      _ = 9900000 := by norm_num

/-- The prefix sums are `int`s. -/
theorem Train.FollowsRoute.isInt32_priceSum (h : train.FollowsRoute route)
    (hlimits : route.WithinLimits) (hk : 1 ≤ k)
    (hkn : k ≤ train.stationNum) : IsInt32 (train.priceSum k) := by
  have hsum := h.price 1 k le_rfl hk hkn
  obtain ⟨hlo, hhi⟩ := h.sum_bounds hlimits le_rfl hk hkn
  rw [h.price_one, sub_zero] at hsum
  rw [hsum]
  constructor
  · exact le_trans (by norm_num) hlo
  · exact lt_of_le_of_lt hhi (by norm_num)

/-! ## Stored trains -/

/-- Every stored train goes along a route inside the limits. -/
def TrainManagement.WithinLimits (trains : TrainManagement) : Prop :=
  ∀ trainId train, trains.trainDatabase.map.find? trainId = some train →
    ∃ route : TrainArgs, route.trainId = trainId ∧ route.WithinLimits ∧
      train.FollowsRoute route

theorem System.withinLimits_step {system system' : System}
    {request : Request} {reply : Reply} (h : system.trains.WithinLimits)
    (hok : request.WithinLimits)
    (hstep : system.step request = some (reply, system')) :
    system'.trains.WithinLimits := by
  apply System.forall_trains_step h _ _ hstep
  · intro hname newTrain args hmake
    have hlimits := hok.2 hname
    exact ⟨args, rfl, hlimits,
      Train.followsRoute_of_make hlimits.admissible hlimits.two_le hmake⟩
  · rintro trainId train ⟨route, hid, hlimits, hroute⟩
    refine ⟨route, hid, hlimits, ?_⟩
    exact
      { stationNum_eq := hroute.stationNum_eq
        station := hroute.station
        price_one := hroute.price_one
        price := hroute.price
        leaving_one := hroute.leaving_one
        arriving_succ := hroute.arriving_succ
        leaving_succ := hroute.leaving_succ }

theorem System.ReachableWithinLimits.withinLimits {s : System}
    (hs : s.ReachableWithinLimits) : s.trains.WithinLimits := by
  obtain ⟨sizes, hreach⟩ := hs
  refine hreach.invariant (fun s => s.trains.WithinLimits) ?_ ?_
  · intro trainId train hfind
    cases hfind
  · intro s request reply s' h hok hstep
    exact System.withinLimits_step h hok hstep

/-! ## The total of a purchase -/

/-- The purchase is for the part from `i` to `j` of the route of a released
train. -/
structure System.BuysOn (s : System) (args : BuyArgs) (train : Train)
    (route : TrainArgs) (i j : ℕ) : Prop where
  released : s.trains.Released args.trainId train
  followsRoute : train.FollowsRoute route
  withinLimits : route.WithinLimits
  one_le : 1 ≤ i
  lt : i < j
  le_stationNum : j ≤ train.stationNum
  from_eq : train.stations i = args.fromStation
  to_eq : train.stations j = args.toStation

/-- No `int` overflows on the way to the total, which is the number of tickets
times the prices of the legs. -/
structure ExactTotal (num : ℤ) (train : Train) (route : TrainArgs)
    (i j : ℕ) (total : ℤ) : Prop where
  sums : ∀ k, 1 ≤ k → k ≤ train.stationNum → IsInt32 (train.priceSum k)
  difference : IsInt32 (train.priceSum j - train.priceSum i)
  product : IsInt32 (num * ∑ k ∈ Finset.Ico i j, route.price k)
  total_eq : total = num * ∑ k ∈ Finset.Ico i j, route.price k

/-- A purchase that is granted at once has the exact total if and only if the
exact total is below `2 ^ 31`. -/
theorem System.ReachableWithinLimits.exactTotal_iff {s s' : System}
    (hs : s.ReachableWithinLimits) {line : List String} {uninit : ℤ}
    {args : BuyArgs} (hargs : BuyArgs.ofLine uninit line = args)
    (hnum : 0 < args.num) {total : ℤ}
    (hbuy : s.step ⟨.buyTicket, line, uninit⟩ =
      some (.train (.bought total), s')) :
    ∃ train route i j, s.BuysOn args train route i j ∧
      (ExactTotal args.num train route i j total ↔
        args.num * ∑ k ∈ Finset.Ico i j, route.price k < 2 ^ 31) := by
  obtain ⟨⟨r, trains'⟩, hbuys, heq⟩ := Option.map_eq_some_iff.mp hbuy
  obtain ⟨hreply, -⟩ := Prod.mk.inj heq
  obtain rfl : r = .bought total := Reply.train.inj hreply
  rw [TrainManagement.buyTicket, hargs] at hbuys
  rcases TrainManagement.buyTicketWith_cases hbuys with
    ⟨hfailure, -⟩ | ⟨train, startDay, i, j, d, hpurchase, -, -, hplace⟩
  · cases hfailure
  obtain ⟨route, -, hlimits, hroute⟩ :=
    hs.withinLimits _ _ hpurchase.released.1
  have hsum := hroute.price i j hpurchase.one_le hpurchase.lt.le
    hpurchase.le_stationNum
  obtain ⟨hlo, hhi⟩ := hroute.sum_bounds hlimits hpurchase.one_le
    hpurchase.lt.le hpurchase.le_stationNum
  have htotal : total =
      toInt32 (args.num * ∑ k ∈ Finset.Ico i j, route.price k) := by
    rw [← hsum]
    unfold TrainManagement.placeOrder at hplace
    split_ifs at hplace
    · exact TrainReply.bought.inj (Prod.mk.inj hplace).1
    · cases (Prod.mk.inj hplace).1
  refine ⟨train, route, i, j, ?_, ?_⟩
  · exact
      { released := hpurchase.released
        followsRoute := hroute
        withinLimits := hlimits
        one_le := hpurchase.one_le
        lt := hpurchase.lt
        le_stationNum := hpurchase.le_stationNum
        from_eq := hpurchase.from_eq
        to_eq := hpurchase.to_eq }
  · constructor
    · exact fun h => h.product.2
    · intro hlt
      have hproduct :
          IsInt32 (args.num * ∑ k ∈ Finset.Ico i j, route.price k) :=
        ⟨le_trans (by norm_num) (mul_nonneg hnum.le hlo), hlt⟩
      exact
        { sums := fun k hk hkn => hroute.isInt32_priceSum hlimits hk hkn
          difference := by
            rw [hsum]
            exact ⟨le_trans (by norm_num) hlo,
              lt_of_le_of_lt hhi (by norm_num)⟩
          product := hproduct
          total_eq := htotal.trans (toInt32_eq_self_iff.mpr hproduct) }

namespace System

theorem reachableWithinLimits_of_runSteps {s : System}
    {requests : List Request}
    (hok : StepsOk System.step (fun _ request => request.WithinLimits)
      (System.start (Databases.new fun _ => 0)) requests)
    (hrun : runSteps System.step (System.start (Databases.new fun _ => 0))
      requests = some s) : s.ReachableWithinLimits :=
  ⟨_, Reaches.runSteps .refl hok hrun⟩

/-- A train with the greatest price and the greatest number of seats. -/
def dearRun : List Request :=
  [⟨.addUser, ["-u", "root", "-p", "a"], 0⟩,
    ⟨.login, ["-u", "root", "-p", "a"], 0⟩,
    ⟨.addTrain, ["-i", "T", "-n", "2", "-m", "100000", "-s", "A|B",
      "-p", "100000", "-x", "10:00", "-t", "60", "-o", "_",
      "-d", "06-01|06-02", "-y", "G"], 0⟩,
    ⟨.releaseTrain, ["-i", "T"], 0⟩]

/-- Its first two tickets are sold for their price. -/
theorem exactTotal_iff_dearRun :
    ∃ s : System, ∃ train route i j,
      s.BuysOn (BuyArgs.ofLine 0 ["-u", "root", "-i", "T", "-d", "06-01",
        "-n", "2", "-f", "A", "-t", "B"]) train route i j ∧
      (ExactTotal 2 train route i j 200000 ↔
        2 * ∑ k ∈ Finset.Ico i j, route.price k < 2 ^ 31) := by
  have hrun : ((runSteps System.step
      (System.start (Databases.new fun _ => 0)) dearRun).map fun s =>
        (s.step ⟨.buyTicket, ["-u", "root", "-i", "T", "-d", "06-01",
          "-n", "2", "-f", "A", "-t", "B"], 0⟩).map Prod.fst) =
      some (some (.train (.bought 200000))) := by
    decide +kernel
  obtain ⟨s, hs, hreply⟩ := Option.map_eq_some_iff.mp hrun
  obtain ⟨⟨r, s'⟩, hbuy, rfl⟩ := Option.map_eq_some_iff.mp hreply
  have hok : StepsOk System.step (fun _ request => request.WithinLimits)
      (System.start (Databases.new fun _ => 0)) dearRun := by
    decide +kernel
  exact ⟨s, @ReachableWithinLimits.exactTotal_iff s s'
    (reachableWithinLimits_of_runSteps hok hs) _ 0 _ rfl (by decide +kernel)
    200000 hbuy⟩

/-- All its tickets together cost ten billion, which is not what the purchase
answers. -/
theorem not_always_exactTotal :
    ¬ ∀ (s s' : System) (total : ℤ), s.ReachableWithinLimits →
      s.step ⟨.buyTicket, ["-u", "root", "-i", "T", "-d", "06-01",
        "-n", "100000", "-f", "A", "-t", "B"], 0⟩ =
          some (.train (.bought total), s') →
      ∃ train route i j, s.BuysOn (BuyArgs.ofLine 0 ["-u", "root", "-i", "T",
          "-d", "06-01", "-n", "100000", "-f", "A", "-t", "B"])
          train route i j ∧
        ExactTotal 100000 train route i j total := by
  intro hall
  have hrun : ((runSteps System.step
      (System.start (Databases.new fun _ => 0)) dearRun).map fun s =>
        (s.step ⟨.buyTicket, ["-u", "root", "-i", "T", "-d", "06-01",
          "-n", "100000", "-f", "A", "-t", "B"], 0⟩).map Prod.fst) =
      some (some (.train (.bought 1410065408))) := by
    decide +kernel
  obtain ⟨s, hs, hreply⟩ := Option.map_eq_some_iff.mp hrun
  obtain ⟨⟨r, s'⟩, hbuy, rfl⟩ := Option.map_eq_some_iff.mp hreply
  have hok : StepsOk System.step (fun _ request => request.WithinLimits)
      (System.start (Databases.new fun _ => 0)) dearRun := by
    decide +kernel
  obtain ⟨train, route, i, j, -, hexact⟩ := hall s s' 1410065408
    (reachableWithinLimits_of_runSteps hok hs) hbuy
  have htotal := hexact.total_eq
  omega

end System

end TicketSystem.Backend
