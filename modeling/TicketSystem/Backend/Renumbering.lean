import TicketSystem.Backend.OrderNumbers

/-!
# Systems that number orders differently

Two systems that differ only in where the numbers of their orders start and in
the counters of their databases answer alike: no reply shows a number, and all
comparisons of numbers are relative.  Only the scan for the orders of a user
starts at a fixed number, at zero, and so needs all numbers to be positive.
-/

namespace TicketSystem.Backend

open TicketSystem.Support
open TicketSystem.Database

/-- How far the numbers of orders and the counters of the databases are
off. -/
structure Offset where
  orders : ℤ
  sizes : Fin 6 → ℤ

local instance neZero_six : NeZero 6 := ⟨by decide⟩

def Order.renumber (d : ℤ) (order : Order) : Order :=
  { order with orderId := order.orderId + d }

def PendingOrder.renumber (d : ℤ) (p : PendingOrder) : PendingOrder :=
  { p with orderId := p.orderId + d }

/-- The orders under their other numbers. -/
def orderRenaming (d : ℤ) : Renaming StringAny StringAny Order Order where
  key k := ⟨k.dataStr, k.dataT + d⟩
  value := Order.renumber d
  strictMono a b h := by
    rw [StringAny.lt_iff] at h ⊢
    simpa only [Int.add_lt_add_iff_right] using h

/-- The waiting list under the other numbers. -/
def pendingRenaming (d : ℤ) :
    Renaming StringIntInt StringIntInt PendingOrder PendingOrder where
  key k := ⟨k.str, k.firstInt, k.secondInt + d⟩
  value := PendingOrder.renumber d
  strictMono a b h := by
    rw [StringIntInt.lt_iff] at h ⊢
    simpa only [Int.add_lt_add_iff_right] using h

def AccountManagement.renumber (ρ : Offset) (accounts : AccountManagement) :
    AccountManagement :=
  { accounts with userDatabase := accounts.userDatabase.resize (ρ.sizes 0) }

def TrainManagement.renumber (ρ : Offset) (trains : TrainManagement) :
    TrainManagement where
  trainDatabase := trains.trainDatabase.resize (ρ.sizes 1)
  stationDatabase := trains.stationDatabase.resize (ρ.sizes 2)
  daytrainDatabase := trains.daytrainDatabase.resize (ρ.sizes 3)
  orderDatabase :=
    trains.orderDatabase.rename (orderRenaming ρ.orders) (ρ.sizes 4)
  pendingOrderDatabase :=
    trains.pendingOrderDatabase.rename (pendingRenaming ρ.orders) (ρ.sizes 5)
  orderNum := trains.orderNum + ρ.orders

def System.renumber (ρ : Offset) (system : System) : System where
  accounts := system.accounts.renumber ρ
  trains := system.trains.renumber ρ

/-! ## Accounts -/

namespace AccountManagement

variable (accounts : AccountManagement) (ρ : Offset) (args : AccountArgs)

theorem addUserWith_renumber :
    (accounts.renumber ρ).addUserWith args =
      ((accounts.addUserWith args).1,
        (accounts.addUserWith args).2.renumber ρ) := by
  have hsearch : (accounts.renumber ρ).userDatabase.searchKey args.username =
      accounts.userDatabase.searchKey args.username := rfl
  have hempty : (accounts.renumber ρ).userDatabase.isEmpty =
      accounts.userDatabase.isEmpty := rfl
  have hpool : (accounts.renumber ρ).loginPool = accounts.loginPool := rfl
  have hinsert : ∀ name u,
      (accounts.renumber ρ).userDatabase.insertEntry name u =
        (accounts.userDatabase.insertEntry name u).resize (ρ.sizes 0) :=
    fun name u => Index.insertEntry_resize _ _ _ _
  simp only [addUserWith, hsearch, hempty, hpool, hinsert]
  by_cases hfirst : accounts.userDatabase.isEmpty
  · simp only [if_pos hfirst]
    rfl
  · simp only [if_neg hfirst]
    cases accounts.loginPool.find? args.cur with
    | none => rfl
    | some curPrivilege =>
        dsimp only
        split_ifs <;> rfl

theorem loginWith_renumber :
    (accounts.renumber ρ).loginWith args =
      ((accounts.loginWith args).1,
        (accounts.loginWith args).2.renumber ρ) := by
  have hsearch : (accounts.renumber ρ).userDatabase.searchKey args.username =
      accounts.userDatabase.searchKey args.username := rfl
  have hpool : (accounts.renumber ρ).loginPool = accounts.loginPool := rfl
  simp only [loginWith, hsearch, hpool]
  cases accounts.userDatabase.searchKey args.username with
  | nil => rfl
  | cons user _ =>
      dsimp only
      split_ifs <;> rfl

theorem logout_renumber (line : List String) :
    (accounts.renumber ρ).logout line =
      ((accounts.logout line).1, (accounts.logout line).2.renumber ρ) := by
  dsimp only [logout, renumber]
  split_ifs <;> rfl

theorem modifyProfileWith_renumber :
    (accounts.renumber ρ).modifyProfileWith args =
      ((accounts.modifyProfileWith args).1,
        (accounts.modifyProfileWith args).2.renumber ρ) := by
  have hsearch : (accounts.renumber ρ).userDatabase.searchKey args.username =
      accounts.userDatabase.searchKey args.username := rfl
  have hpool : (accounts.renumber ρ).loginPool = accounts.loginPool := rfl
  have hinsert : ∀ name u,
      (accounts.renumber ρ).userDatabase.insertEntry name u =
        (accounts.userDatabase.insertEntry name u).resize (ρ.sizes 0) :=
    fun name u => Index.insertEntry_resize _ _ _ _
  simp only [modifyProfileWith, hsearch, hpool, hinsert]
  cases accounts.userDatabase.searchKey args.username with
  | nil => rfl
  | cons u _ =>
      cases accounts.loginPool.find? args.cur with
      | none => rfl
      | some curPrivilege =>
          dsimp only
          split_ifs <;> rfl

end AccountManagement

/-! ## Trains -/

namespace TrainManagement

variable (trains : TrainManagement) (ρ : Offset)

theorem addTrainWith_renumber (args : TrainArgs) :
    (trains.renumber ρ).addTrainWith args =
      (trains.addTrainWith args).map fun out => (out.1, out.2.renumber ρ) := by
  have hsearch : (trains.renumber ρ).trainDatabase.searchKey args.trainId =
      trains.trainDatabase.searchKey args.trainId := rfl
  have hinsert : ∀ train,
      (trains.renumber ρ).trainDatabase.insertEntry args.trainId train =
        (trains.trainDatabase.insertEntry args.trainId train).resize
          (ρ.sizes 1) :=
    fun train => Index.insertEntry_resize _ _ _ _
  simp only [addTrainWith, hsearch, hinsert]
  split_ifs
  · rfl
  · rfl
  · cases Train.make args.trainId args.stationNum.toNat args.seatNum
      args.stations args.prices args.startTime args.travelTimes
      args.stopOverTimes args.saleDate args.type <;> rfl

theorem insertDays_resize (database : Index StringAny DayTrain) (n : ℤ)
    (trainId : String) (daytrain : DayTrain) (days : List TimeType) :
    insertDays (database.resize n) trainId daytrain days =
      (insertDays database trainId daytrain days).resize n := by
  induction days generalizing database with
  | nil => rfl
  | cons day days ih =>
      simp only [insertDays, List.foldl_cons, Index.insertEntry_resize]
      exact ih _

theorem insertStations_resize (database : Index DualString Station) (n : ℤ)
    (trainId : String) (train : Train) (is : List ℕ) :
    insertStations (database.resize n) trainId train is =
      (insertStations database trainId train is).resize n := by
  induction is generalizing database with
  | nil => rfl
  | cons i is ih =>
      simp only [insertStations, List.foldl_cons, Index.insertEntry_resize]
      exact ih _

theorem release_renumber (trainId : String) (train : Train) :
    (trains.renumber ρ).release trainId train =
      (trains.release trainId train).renumber ρ := by
  simp only [release, renumber, Index.insertEntry_resize, insertDays_resize,
    insertStations_resize]

theorem releaseTrain_renumber (line : List String) :
    (trains.renumber ρ).releaseTrain line =
      ((trains.releaseTrain line).1,
        (trains.releaseTrain line).2.renumber ρ) := by
  have hsearch : ∀ trainId, (trains.renumber ρ).trainDatabase.searchKey
      trainId = trains.trainDatabase.searchKey trainId := fun _ => rfl
  simp only [releaseTrain, hsearch, release_renumber]
  cases trains.trainDatabase.searchKey (nthToken line 1) with
  | nil => rfl
  | cons train _ =>
      dsimp only
      split_ifs <;> rfl

theorem deleteTrain_renumber (line : List String) :
    (trains.renumber ρ).deleteTrain line =
      ((trains.deleteTrain line).1,
        (trains.deleteTrain line).2.renumber ρ) := by
  have hsearch : ∀ trainId, (trains.renumber ρ).trainDatabase.searchKey
      trainId = trains.trainDatabase.searchKey trainId := fun _ => rfl
  have hdelete : ∀ trainId,
      (trains.renumber ρ).trainDatabase.deleteEntry trainId =
        (trains.trainDatabase.deleteEntry trainId).resize (ρ.sizes 1) :=
    fun trainId => Index.deleteEntry_resize _ _ _
  simp only [deleteTrain, hsearch, hdelete]
  cases trains.trainDatabase.searchKey (nthToken line 1) with
  | nil => rfl
  | cons train _ =>
      dsimp only
      split_ifs <;> rfl

/-- Queries for trains and tickets do not look at orders. -/
theorem queryTrain_renumber (line : List String) :
    (trains.renumber ρ).queryTrain line = trains.queryTrain line := rfl

theorem queryTicket_renumber (line : List String) :
    (trains.renumber ρ).queryTicket line = trains.queryTicket line := rfl

theorem queryTransfer_renumber (line : List String) :
    (trains.renumber ρ).queryTransfer line = trains.queryTransfer line := rfl

/-! ## Orders -/

theorem key_renumber (d : ℤ) (order : Order) :
    (order.renumber d).key = (orderRenaming d).key order.key := rfl

theorem newOrder_renumber (args : BuyArgs) (train : Train)
    (startDay : TimeType) (s t : ℕ) :
    (trains.renumber ρ).newOrder args train startDay s t =
      (trains.newOrder args train startDay s t).renumber ρ.orders := by
  simp only [newOrder, renumber, Order.renumber, Order.mk.injEq, true_and,
    and_true]
  exact add_right_comm _ _ _

theorem sell_renumber (order : Order) (tp : DayTrain) :
    (trains.renumber ρ).sell (order.renumber ρ.orders) tp =
      (trains.sell order tp).renumber ρ := by
  have horders := Index.insertEntry_rename (orderRenaming ρ.orders)
    trains.orderDatabase (ρ.sizes 4) order.key order
  have hdays := Index.insertEntry_resize trains.daytrainDatabase (ρ.sizes 3)
    order.dayKey (tp.modifySeat order.fromIndex (order.toIndex - 1)
      (-order.num))
  simp only [sell, renumber]
  rw [← horders, ← hdays]
  rfl

theorem queue_renumber (order : Order) :
    (trains.renumber ρ).queue (order.renumber ρ.orders) =
      (trains.queue order).renumber ρ := by
  have horders := Index.insertEntry_rename (orderRenaming ρ.orders)
    trains.orderDatabase (ρ.sizes 4) order.key order
  have hpendings := Index.insertEntry_rename (pendingRenaming ρ.orders)
    trains.pendingOrderDatabase (ρ.sizes 5) order.pendingKey order.toPending
  simp only [queue, renumber]
  rw [← horders, ← hpendings]
  rfl

theorem placeOrder_renumber (order : Order) (tp : DayTrain) :
    (trains.renumber ρ).placeOrder (order.renumber ρ.orders) tp =
      ((trains.placeOrder order tp).1,
        (trains.placeOrder order tp).2.renumber ρ) := by
  unfold placeOrder
  by_cases hfits : order.num ≤ tp.querySeat order.fromIndex (order.toIndex - 1)
  · rw [if_pos hfits, sell_renumber]
    exact if_pos hfits
  · have hqueue := queue_renumber trains ρ { order with status := .pending }
    rw [if_neg hfits]
    exact (if_neg hfits).trans (congrArg (Prod.mk _) hqueue)

theorem buyTicketWith_renumber (accounts : AccountManagement)
    (args : BuyArgs) :
    (trains.renumber ρ).buyTicketWith (accounts.renumber ρ) args =
      (trains.buyTicketWith accounts args).map
        fun out => (out.1, out.2.renumber ρ) := by
  have hsearch : (trains.renumber ρ).trainDatabase.searchKey args.trainId =
      trains.trainDatabase.searchKey args.trainId := rfl
  have hdays : ∀ key, (trains.renumber ρ).daytrainDatabase.searchKey key =
      trains.daytrainDatabase.searchKey key := fun _ => rfl
  have hpool : (accounts.renumber ρ).loginPool = accounts.loginPool := rfl
  simp only [buyTicketWith, hsearch, hdays, hpool, newOrder_renumber,
    placeOrder_renumber]
  split_ifs
  · rfl
  cases trains.trainDatabase.searchKey args.trainId with
  | nil => rfl
  | cons train _ =>
      dsimp only
      generalize train.findStations args.fromStation args.toStation
        (loopRange 1 train.stationNum) (0, 0) = st
      obtain ⟨s, t⟩ := st
      dsimp only
      by_cases hreleased : ¬ train.isReleased = true
      · simp only [if_pos hreleased]
        rfl
      by_cases htotal : train.totalSeatNum < args.num
      · simp only [if_neg hreleased, if_pos htotal]
        rfl
      by_cases hst : s = 0 ∨ t = 0 ∨ t ≤ s
      · simp only [if_neg hreleased, if_neg htotal, if_pos hst]
        rfl
      simp only [if_neg hreleased, if_neg htotal, if_neg hst]
      cases TimeType.ofString (args.date ++ " 00:00") with
      | none => rfl
      | some date =>
          simp only [Option.bind_eq_bind, Option.bind_some]
          generalize date - TimeType.getDate (train.leavingTimes s) = startDay
          by_cases hwindow : startDay < train.startSaleDate ∨
              train.endSaleDate < startDay
          · simp only [if_pos hwindow]
            rfl
          simp only [if_neg hwindow]
          cases trains.daytrainDatabase.searchKey ⟨args.trainId, startDay⟩ with
          | nil => rfl
          | cons tp _ =>
              dsimp only
              split_ifs <;> rfl

/-! ## Refunds -/

/-- What the promotion loop works on, under the other numbers. -/
def Promotion.renumber (ρ : Offset) (st : Promotion) : Promotion where
  tpDaytrain := st.tpDaytrain
  orderDatabase :=
    st.orderDatabase.rename (orderRenaming ρ.orders) (ρ.sizes 4)
  pendingOrderDatabase :=
    st.pendingOrderDatabase.rename (pendingRenaming ρ.orders) (ρ.sizes 5)

theorem grant_renumber (st : Promotion) (p : PendingOrder) :
    (Promotion.renumber ρ st).grant (p.renumber ρ.orders) =
      (st.grant p).map (Promotion.renumber ρ) := by
  have hsearch := Index.searchKey_rename (orderRenaming ρ.orders)
    st.orderDatabase (ρ.sizes 4) p.orderKey
  have hdelete := Index.deleteEntry_rename (pendingRenaming ρ.orders)
    st.pendingOrderDatabase (ρ.sizes 5) p.key
  unfold Promotion.grant
  cases hfound : st.orderDatabase.searchKey p.orderKey with
  | nil =>
      rw [hfound] at hsearch
      rw [show (Promotion.renumber ρ st).orderDatabase.searchKey
        (p.renumber ρ.orders).orderKey = [] from hsearch]
      rfl
  | cons successOrder _ =>
      rw [hfound] at hsearch
      rw [show (Promotion.renumber ρ st).orderDatabase.searchKey
        (p.renumber ρ.orders).orderKey = _ from hsearch]
      have hinsert := Index.insertEntry_rename (orderRenaming ρ.orders)
        st.orderDatabase (ρ.sizes 4) p.orderKey
        { successOrder with status := .success }
      simp only [List.map_cons, Option.map_some, Promotion.renumber]
      rw [← hinsert, ← hdelete]
      rfl

theorem promoteOrders_renumber (refundOrder : Order) (ps : List PendingOrder)
    (st : Promotion) :
    promoteOrders (refundOrder.renumber ρ.orders)
        (ps.map (PendingOrder.renumber ρ.orders)) (Promotion.renumber ρ st) =
      (promoteOrders refundOrder ps st).map (Promotion.renumber ρ) := by
  induction ps generalizing st with
  | nil => rfl
  | cons p ps ih =>
      rw [List.map_cons, promoteOrders, promoteOrders, grant_renumber]
      by_cases hdisjoint : refundOrder.toIndex < p.fromIndex ∨
          p.toIndex < refundOrder.fromIndex
      · rw [if_pos hdisjoint]
        exact (if_pos hdisjoint).trans (ih st)
      rw [if_neg hdisjoint]
      apply (if_neg hdisjoint).trans
      by_cases hfits :
          p.num ≤ st.tpDaytrain.querySeat p.fromIndex (p.toIndex - 1)
      · rw [if_pos hfits]
        apply (if_pos hfits).trans
        cases st.grant p with
        | none => rfl
        | some st' => exact ih st'
      · rw [if_neg hfits]
        exact (if_neg hfits).trans (ih st)

theorem commit_renumber (order : Order) (st : Promotion) :
    (trains.renumber ρ).commit (order.renumber ρ.orders)
        (Promotion.renumber ρ st) =
      (trains.commit order st).renumber ρ := by
  have hdays := Index.insertEntry_resize trains.daytrainDatabase (ρ.sizes 3)
    order.dayKey st.tpDaytrain
  simp only [commit, renumber]
  rw [← hdays]
  rfl

/-- The scan of the waiting list is relative to the refunded order. -/
theorem scanKey_pending_renumber (order : Order) :
    (trains.renumber ρ).pendingOrderDatabase.scanKey
        (order.renumber ρ.orders).pendingKey (stringIntIntComparator 1) =
      (trains.pendingOrderDatabase.scanKey order.pendingKey
        (stringIntIntComparator 1)).map (PendingOrder.renumber ρ.orders) :=
  Index.scanKey_rename (pendingRenaming ρ.orders)
    trains.pendingOrderDatabase (ρ.sizes 5) order.pendingKey
    (stringIntIntComparator 1) (stringIntIntComparator 1) fun _ => rfl

theorem refundOrder_renumber (userName : String) (order : Order) :
    (trains.renumber ρ).refundOrder userName (order.renumber ρ.orders) =
      (trains.refundOrder userName order).map
        fun out => (out.1, out.2.renumber ρ) := by
  have hinsert := Index.insertEntry_rename (orderRenaming ρ.orders)
    trains.orderDatabase (ρ.sizes 4) ⟨userName, order.orderId⟩
    { order with status := .refunded }
  have hdelete := Index.deleteEntry_rename (pendingRenaming ρ.orders)
    trains.pendingOrderDatabase (ρ.sizes 5) order.pendingKey
  have hdays : (trains.renumber ρ).daytrainDatabase.searchKey
      (order.renumber ρ.orders).dayKey =
        trains.daytrainDatabase.searchKey order.dayKey := rfl
  unfold refundOrder
  by_cases hpending : order.status = .pending
  · rw [if_pos hpending]
    apply (if_pos hpending).trans
    simp only [Option.map_some, renumber]
    rw [← hinsert, ← hdelete]
    rfl
  rw [if_neg hpending]
  apply (if_neg hpending).trans
  rw [hdays]
  cases trains.daytrainDatabase.searchKey order.dayKey with
  | nil => rfl
  | cons daytrain _ =>
      have hsort := @sort_map PendingOrder PendingOrder
        (PendingOrder.renumber ρ.orders) pendingOrderCmp pendingOrderCmp
        (fun x y => by simp [pendingOrderCmp, PendingOrder.renumber])
        (trains.pendingOrderDatabase.scanKey order.pendingKey
          (stringIntIntComparator 1)) 0
        ((trains.pendingOrderDatabase.scanKey order.pendingKey
          (stringIntIntComparator 1)).length - 1)
      dsimp only
      rw [scanKey_pending_renumber, List.length_map, hsort]
      cases sort (trains.pendingOrderDatabase.scanKey order.pendingKey
          (stringIntIntComparator 1)) 0
          ((trains.pendingOrderDatabase.scanKey order.pendingKey
            (stringIntIntComparator 1)).length - 1) pendingOrderCmp with
      | none => rfl
      | some ps =>
          let start : Promotion :=
            ⟨daytrain.modifySeat order.fromIndex (order.toIndex - 1) order.num,
              trains.orderDatabase.insertEntry ⟨userName, order.orderId⟩
                { order with status := .refunded },
              trains.pendingOrderDatabase⟩
          have hrun := promoteOrders_renumber ρ order ps start
          rw [Promotion.renumber, ← hinsert] at hrun
          simp only [Option.map_some, Option.bind_eq_bind, Option.bind_some]
          apply (congrArg (fun st => Option.bind st fun st =>
            some (TrainReply.success, (trains.renumber ρ).commit
              (order.renumber ρ.orders) st)) hrun).trans
          change _ = Option.map _ (Option.bind (promoteOrders order ps start) _)
          cases promoteOrders order ps start with
          | none => rfl
          | some st =>
              simp only [Option.map_some, Option.bind_some, commit_renumber]

/-! ## The orders of a user -/

/-- Orders are stored under their own keys, with positive numbers. -/
def OrdersPositive (orders : Index StringAny Order) : Prop :=
  ∀ key order, orders.map.find? key = some order →
    order.key = key ∧ 0 < order.orderId

/-- All orders have positive numbers, the next one too. -/
structure Positive (trains : TrainManagement) : Prop where
  orderNum_nonneg : 0 ≤ trains.orderNum
  orders_pos : OrdersPositive trains.orderDatabase

/-- With positive numbers the scan from zero answers all orders of a user. -/
theorem scanKey_user {orders : Index StringAny Order}
    (hpos : OrdersPositive orders) (userName : String) :
    orders.scanKey ⟨userName, 0⟩ (stringAnyComparator 1) =
      (orders.map.entries.filter fun e => e.1.dataStr = userName).map
        Prod.snd := by
  rw [Index.scanKey, SortedMap.scan_eq_filter]
  · congr 1
    apply List.filter_congr
    rintro ⟨key, order⟩ hmem
    have hkey : 0 < key.dataT := by
      obtain ⟨rfl, hid⟩ := hpos key order (SortedMap.find?_eq_some_iff.mpr hmem)
      exact hid
    rw [decide_eq_decide, decide_eq_true_eq,
      stringAnyComparator_one_eq_zero_iff]
    constructor
    · exact fun h => h.2.symm
    · rintro rfl
      exact ⟨(StringAny.le_iff _ _).mpr (Or.inr ⟨rfl, hkey.le⟩), rfl⟩
  · intro a b hka hab hb
    rw [decide_eq_true_eq, stringAnyComparator_one_eq_zero_iff] at hb ⊢
    -- between two keys of one user lie only keys of that user
    have hle₁ : userName ≤ a.dataStr := by
      rcases (StringAny.le_iff _ _).mp hka with hlt | ⟨heq, -⟩
      · exact hlt.le
      · exact heq.le
    have hle₂ : a.dataStr ≤ b.dataStr := by
      rcases (StringAny.le_iff _ _).mp hab with hlt | ⟨heq, -⟩
      · exact hlt.le
      · exact heq.le
    exact le_antisymm hle₁ (hb ▸ hle₂)

theorem userOrders_renumber (h : trains.Positive)
    (h' : (trains.renumber ρ).Positive) (userName : String) :
    (trains.renumber ρ).userOrders userName =
      (trains.userOrders userName).map
        (List.map (Order.renumber ρ.orders)) := by
  have hscan : (trains.renumber ρ).orderDatabase.scanKey ⟨userName, 0⟩
      (stringAnyComparator 1) =
        (trains.orderDatabase.scanKey ⟨userName, 0⟩
          (stringAnyComparator 1)).map (Order.renumber ρ.orders) := by
    rw [scanKey_user h'.orders_pos, scanKey_user h.orders_pos]
    simp only [renumber, Index.rename, SortedMap.rename, List.filter_map,
      List.map_map]
    rfl
  unfold userOrders
  dsimp only
  rw [hscan, List.length_map]
  exact sort_map (fun x y => by simp [orderCmp, Order.renumber]) _ _ _

theorem refundTicketWith_renumber (h : trains.Positive)
    (h' : (trains.renumber ρ).Positive) (accounts : AccountManagement)
    (args : RefundArgs) :
    (trains.renumber ρ).refundTicketWith (accounts.renumber ρ) args =
      (trains.refundTicketWith accounts args).map
        fun out => (out.1, out.2.renumber ρ) := by
  have hpool : (accounts.renumber ρ).loginPool = accounts.loginPool := rfl
  simp only [refundTicketWith, hpool, userOrders_renumber trains ρ h h']
  split_ifs
  · rfl
  cases trains.userOrders args.userName with
  | none => rfl
  | some orders =>
      simp only [Option.map_some, Option.bind_eq_bind, Option.bind_some,
        List.map_eq_nil_iff, List.length_map, atIndex_map]
      by_cases hnil : orders = []
      · simp only [if_pos hnil]
        rfl
      by_cases hlen : (orders.length : ℤ) < args.x
      · simp only [if_neg hnil, if_pos hlen]
        rfl
      simp only [if_neg hnil, if_neg hlen]
      cases atIndex orders (args.x - 1) with
      | none => rfl
      | some order =>
          simp only [Option.map_some, Option.bind_some]
          by_cases hrefunded : order.status = .refunded
          · simp only [if_pos hrefunded]
            exact if_pos hrefunded
          · simp only [if_neg hrefunded]
            exact (if_neg hrefunded).trans
              (refundOrder_renumber trains ρ args.userName order)

theorem render_renumber (d : ℤ) (order : Order) :
    (order.renumber d).render = order.render := rfl

/-- No line shows the number of an order. -/
theorem queryOrder_renumber (h : trains.Positive)
    (h' : (trains.renumber ρ).Positive) (accounts : AccountManagement)
    (line : List String) :
    ((trains.renumber ρ).queryOrder (accounts.renumber ρ) line).map
        TrainReply.render =
      (trains.queryOrder accounts line).map TrainReply.render := by
  have hpool : (accounts.renumber ρ).loginPool = accounts.loginPool := rfl
  simp only [queryOrder, hpool, userOrders_renumber trains ρ h h']
  split_ifs
  · rfl
  cases trains.userOrders (nthToken line 1) with
  | none => rfl
  | some orders =>
      simp only [Option.map_some, TrainReply.render, List.length_map,
        List.map_map, Function.comp_def, render_renumber]

end TrainManagement

end TicketSystem.Backend
