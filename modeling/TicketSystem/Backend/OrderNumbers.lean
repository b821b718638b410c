import TicketSystem.Backend.Reachable

/-!
# The numbers of orders

The number of the next order is counted in memory and read back from the size
of the order database when a process starts.  Both numbers stay equal over
every run: each new order counts once in both, an order that is written again
counts in neither, and `clean` resets neither.
-/

namespace TicketSystem.Backend

open TicketSystem.Support
open TicketSystem.Database

/-- Orders are stored under their own keys, with numbers up to the size of the
database. -/
structure OrdersUpTo (orders : Index StringAny Order) (num : ℤ) : Prop where
  key_eq : ∀ key order, orders.map.find? key = some order → order.key = key
  orderId_le : ∀ key order, orders.map.find? key = some order →
    order.orderId ≤ num
  size_eq : num = orders.size

namespace OrdersUpTo

variable {orders : Index StringAny Order} {num : ℤ} {order : Order}

theorem of_empty (hempty : orders.map = SortedMap.empty)
    (hsize : num = orders.size) : OrdersUpTo orders num := by
  refine ⟨?_, ?_, hsize⟩
  all_goals
    intro key order horder
    rw [hempty] at horder
    cases horder

/-- The next number is not in use. -/
theorem find?_next (h : OrdersUpTo orders num)
    (hid : order.orderId = num + 1) :
    orders.map.find? order.key = none := by
  by_contra hsome
  obtain ⟨o, ho⟩ := Option.ne_none_iff_exists'.mp hsome
  have hle := h.orderId_le _ o ho
  have heq : o.orderId = order.orderId :=
    (StringAny.mk.inj (h.key_eq _ o ho)).2
  rw [heq, hid] at hle
  exact absurd hle (not_le.mpr (lt_add_one num))

theorem insert_next (h : OrdersUpTo orders num)
    (hid : order.orderId = num + 1) :
    OrdersUpTo (orders.insertEntry order.key order) order.orderId := by
  refine ⟨?_, ?_, ?_⟩
  · intro key o ho
    rw [Index.map_insertEntry, SortedMap.find?_insert] at ho
    split_ifs at ho with heq
    · obtain rfl := Option.some.inj ho
      exact heq.symm
    · exact h.key_eq key o ho
  · intro key o ho
    rw [Index.map_insertEntry, SortedMap.find?_insert] at ho
    split_ifs at ho with heq
    · obtain rfl := Option.some.inj ho
      exact le_rfl
    · have hle := h.orderId_le key o ho
      rw [hid]
      exact hle.trans (lt_add_one num).le
  · rw [Index.insertEntry, h.find?_next hid, hid, h.size_eq]
    rfl

/-- An order that is stored is written again. -/
theorem insert_again (h : OrdersUpTo orders num) {key : StringAny}
    {old : Order} (hold : orders.map.find? key = some old)
    (hkey : order.key = old.key) :
    OrdersUpTo (orders.insertEntry key order) num := by
  have hown : order.key = key := hkey.trans (h.key_eq key old hold)
  refine ⟨?_, ?_, ?_⟩
  · intro key' o ho
    rw [Index.map_insertEntry, SortedMap.find?_insert] at ho
    split_ifs at ho with heq
    · obtain rfl := Option.some.inj ho
      exact hown.trans heq.symm
    · exact h.key_eq key' o ho
  · intro key' o ho
    rw [Index.map_insertEntry, SortedMap.find?_insert] at ho
    split_ifs at ho with heq
    · obtain rfl := Option.some.inj ho
      rw [(StringAny.mk.inj hkey).2]
      exact h.orderId_le key old hold
    · exact h.orderId_le key' o ho
  · rw [Index.insertEntry, hold, h.size_eq]
    exact (add_zero _).symm

end OrdersUpTo

/-- The status of stored orders is set, one order after another. -/
inductive SetsStatuses (orders : Index StringAny Order) :
    Index StringAny Order → Prop
  | refl : SetsStatuses orders orders
  | set {orders' : Index StringAny Order} {key : StringAny} {old : Order}
      (status : Status) :
      SetsStatuses orders orders' → orders'.map.find? key = some old →
        SetsStatuses orders
          (orders'.insertEntry key { old with status := status })

theorem OrdersUpTo.setsStatuses {orders orders' : Index StringAny Order}
    {num : ℤ} (h : OrdersUpTo orders num) (hset : SetsStatuses orders orders') :
    OrdersUpTo orders' num := by
  induction hset with
  | refl => exact h
  | set status _ hfind ih => exact ih.insert_again hfind rfl

namespace TrainManagement

variable {trains trains' : TrainManagement}

/-- The orders are numbered up to the number of the last one. -/
def Numbered (trains : TrainManagement) : Prop :=
  OrdersUpTo trains.orderDatabase trains.orderNum

/-- A new order is stored under a new key, with the next number. -/
structure Orders (trains trains' : TrainManagement) (order : Order) :
    Prop where
  orderId_eq : order.orderId = trains.orderNum + 1
  orderNum_eq : trains'.orderNum = order.orderId
  orderDatabase_eq : trains'.orderDatabase =
    trains.orderDatabase.insertEntry order.key order

/-- An order with the next number is placed, granted or not. -/
theorem orders_placeOrder {order : Order} (d : DayTrain)
    (hid : order.orderId = trains.orderNum + 1) :
    (trains.placeOrder order d).1 ≠ .failure ∧
      ∃ status, trains.Orders (trains.placeOrder order d).2
        { order with status := status } := by
  unfold placeOrder
  split_ifs
  · refine ⟨?_, order.status, hid, rfl, rfl⟩
    intro hreply
    cases hreply
  · refine ⟨?_, .pending, hid, rfl, rfl⟩
    intro hreply
    cases hreply

/-- A purchase is refused, or it places an order of the user. -/
theorem exists_orders_of_buyTicketWith {accounts : AccountManagement}
    {args : BuyArgs} {reply : TrainReply}
    (h : trains.buyTicketWith accounts args = some (reply, trains')) :
    (reply = .failure ∧ trains' = trains) ∨
      reply ≠ .failure ∧ ∃ order, trains.Orders trains' order ∧
        order.userName = args.userName := by
  rcases buyTicketWith_cases h with
    hfail | ⟨train, startDay, s, t, d, -, -, -, hplace⟩
  · exact Or.inl hfail
  · obtain ⟨rfl, rfl⟩ := Prod.mk.inj hplace
    obtain ⟨hreply, status, horders⟩ := @orders_placeOrder trains
      (trains.newOrder args train startDay s t) d rfl
    exact Or.inr ⟨hreply, _, horders, rfl⟩

theorem Orders.numbered {order : Order} (horders : trains.Orders trains' order)
    (h : trains.Numbered) : trains'.Numbered := by
  rw [Numbered, horders.orderNum_eq, horders.orderDatabase_eq]
  exact h.insert_next horders.orderId_eq

/-- The promotion loop sets statuses. -/
theorem setsStatuses_promoteOrders {orders : Index StringAny Order}
    {refundOrder : Order} {pendingOrders : List PendingOrder}
    {st st' : Promotion} (h : SetsStatuses orders st.orderDatabase)
    (hrun : promoteOrders refundOrder pendingOrders st = some st') :
    SetsStatuses orders st'.orderDatabase := by
  induction pendingOrders generalizing st with
  | nil =>
      obtain rfl := Option.some.inj hrun
      exact h
  | cons p pendingOrders ih =>
      rw [promoteOrders] at hrun
      split_ifs at hrun
      · exact ih h hrun
      · obtain ⟨st₁, hgrant, hrest⟩ := Option.bind_eq_some_iff.mp hrun
        apply ih _ hrest
        unfold Promotion.grant at hgrant
        cases hfind : st.orderDatabase.map.find? p.orderKey with
        | none =>
            rw [Index.searchKey_of_find? hfind] at hgrant
            cases hgrant
        | some successOrder =>
            rw [Index.searchKey_of_find? hfind] at hgrant
            obtain rfl := Option.some.inj hgrant
            exact h.set .success hfind
      · exact ih h hrun

theorem setsStatuses_refundTicketWith
    (h : ∀ key order, trains.orderDatabase.map.find? key = some order →
      order.key = key)
    {accounts : AccountManagement} {args : RefundArgs} {reply : TrainReply}
    (hstep : trains.refundTicketWith accounts args =
      some (reply, trains')) :
    SetsStatuses trains.orderDatabase trains'.orderDatabase := by
  rcases refundTicketWith_cases h hstep with
    rfl | ⟨-, o, -, -, -, -, hfind, -, hrefund⟩
  · exact .refl
  · have hrefunded := SetsStatuses.refl.set .refunded hfind
    rcases (refundOrder_cases hrefund).2 with
      ⟨-, rfl⟩ | ⟨-, d, ps, st, -, -, -, hrun, rfl⟩
    · exact hrefunded
    · exact @setsStatuses_promoteOrders _ o ps (trains.refundStart o d) st
        hrefunded hrun

end TrainManagement

namespace System

variable {system system' : System} {request : Request} {reply : Reply}

/-- Only these commands touch the orders. -/
theorem orders_eq_of_step
    (hname : request.name ∉
      [CommandName.buyTicket, .refundTicket, .clean, .exit])
    (hstep : system.step request = some (reply, system')) :
    system'.trains.orderDatabase = system.trains.orderDatabase ∧
      system'.trains.orderNum = system.trains.orderNum := by
  obtain ⟨name, line, uninit⟩ := request
  cases name
  case addTrain =>
    obtain ⟨⟨r, trains'⟩, hadd, heq⟩ := Option.map_eq_some_iff.mp hstep
    cases heq
    rcases TrainManagement.addTrainWith_cases hadd with
      rfl | ⟨-, newTrain, -, rfl⟩
    · exact ⟨rfl, rfl⟩
    · exact ⟨rfl, rfl⟩
  case releaseTrain =>
    cases hstep
    rcases TrainManagement.releaseTrain_cases system.trains line with
      heq | ⟨trainId, train, -, -, heq⟩
    all_goals
      have horders := congrArg TrainManagement.orderDatabase heq
      have hnum := congrArg TrainManagement.orderNum heq
      exact ⟨horders, hnum⟩
  case deleteTrain =>
    cases hstep
    rcases TrainManagement.deleteTrain_cases system.trains line with
      heq | ⟨trainId, train, -, -, heq⟩
    all_goals
      have horders := congrArg TrainManagement.orderDatabase heq
      have hnum := congrArg TrainManagement.orderNum heq
      exact ⟨horders, hnum⟩
  case buyTicket => exact absurd (by simp) hname
  case refundTicket => exact absurd (by simp) hname
  case clean => exact absurd (by simp) hname
  case exit => exact absurd (by simp) hname
  -- the other commands leave the trains alone
  all_goals
    simp only [System.step, Option.map_eq_some_iff, Option.some.injEq,
      Prod.mk.injEq, System.withAccounts] at hstep
    obtain ⟨_, _, _, rfl⟩ := hstep
    exact ⟨rfl, rfl⟩

/-- What a command does to the orders. -/
inductive OrdersStep (system : System) (request : Request) (reply : Reply)
    (system' : System) : Prop
  | kept (hbuy : request.name = .buyTicket → reply = .train .failure)
      (hclean : request.name ≠ .clean)
      (horders :
        system'.trains.orderDatabase = system.trains.orderDatabase)
      (hnum : system'.trains.orderNum = system.trains.orderNum)
  | placed (order : Order) (hname : request.name = .buyTicket)
      (hreply : reply ≠ .train .failure)
      (horders : system.trains.Orders system'.trains order)
      (huser : order.userName =
        (BuyArgs.ofLine request.uninit request.line).userName)
  | refunded (hname : request.name = .refundTicket)
      (hset : (∀ key order,
          system.trains.orderDatabase.map.find? key = some order →
            order.key = key) →
        SetsStatuses system.trains.orderDatabase system'.trains.orderDatabase)
      (hnum : system'.trains.orderNum = system.trains.orderNum)
  | cleaned (hname : request.name = .clean) (heq : system' = system.clean)
  | reopened (hname : request.name = .exit)
      (heq : system' = start system.databases)

theorem ordersStep_of_step
    (hstep : system.step request = some (reply, system')) :
    OrdersStep system request reply system' := by
  by_cases hname : request.name ∉
      [CommandName.buyTicket, .refundTicket, .clean, .exit]
  · obtain ⟨horders, hnum⟩ := orders_eq_of_step hname hstep
    apply OrdersStep.kept _ _ horders hnum
    · intro hbuy
      exact absurd (by simp [hbuy]) hname
    · intro hclean
      exact hname (by simp [hclean])
  obtain ⟨name, line, uninit⟩ := request
  rw [not_not] at hname
  simp only [List.mem_cons, List.not_mem_nil, or_false] at hname
  rcases hname with rfl | rfl | rfl | rfl
  -- buy_ticket
  · obtain ⟨⟨r, trains'⟩, hbuy, heq⟩ := Option.map_eq_some_iff.mp hstep
    obtain ⟨rfl, rfl⟩ := Prod.mk.inj heq
    rcases TrainManagement.exists_orders_of_buyTicketWith hbuy with
      ⟨rfl, rfl⟩ | ⟨hreply, order, horders, huser⟩
    · exact .kept (fun _ => rfl) CommandName.noConfusion rfl rfl
    · exact .placed order rfl (fun heq => hreply (Reply.train.inj heq))
        horders huser
  -- refund_ticket
  · obtain ⟨⟨r, trains'⟩, hrefund, heq⟩ := Option.map_eq_some_iff.mp hstep
    obtain ⟨rfl, rfl⟩ := Prod.mk.inj heq
    exact .refunded rfl
      (fun h => TrainManagement.setsStatuses_refundTicketWith h hrefund)
      (TrainManagement.refundTicketWith_frame hrefund).1
  -- clean
  · cases hstep
    exact .cleaned rfl rfl
  -- exit
  · cases hstep
    exact .reopened rfl rfl

/-- Orders stay numbered, and the number of the last one never goes down. -/
theorem numbered_step (h : system.trains.Numbered)
    (hstep : system.step request = some (reply, system')) :
    system'.trains.Numbered ∧
      system.trains.orderNum ≤ system'.trains.orderNum := by
  cases ordersStep_of_step hstep with
  | kept _ _ horders hnum =>
      rw [TrainManagement.Numbered, horders, hnum]
      exact ⟨h, le_rfl⟩
  | placed order _ _ horders _ =>
      refine ⟨horders.numbered h, ?_⟩
      rw [horders.orderNum_eq, horders.orderId_eq]
      exact (lt_add_one _).le
  | refunded _ hset hnum =>
      rw [TrainManagement.Numbered, hnum]
      exact ⟨h.setsStatuses (hset h.key_eq), le_rfl⟩
  | cleaned _ heq =>
      subst heq
      exact ⟨.of_empty rfl h.size_eq, le_rfl⟩
  | reopened _ heq =>
      subst heq
      have hsize : system.trains.orderNum = system.trains.orderDatabase.size :=
        h.size_eq
      refine ⟨⟨h.key_eq, ?_, rfl⟩, hsize.le⟩
      intro key order horder
      exact (h.orderId_le key order horder).trans hsize.le

theorem numbered_start (sizes : Fin 6 → ℤ) :
    (start (Databases.new sizes)).trains.Numbered :=
  .of_empty rfl rfl

theorem orderNum_le_of_runSteps {requests : List Request}
    (h : system.trains.Numbered)
    (hrun : runSteps System.step system requests = some system') :
    system.trains.orderNum ≤ system'.trains.orderNum := by
  induction requests generalizing system with
  | nil =>
      obtain rfl := Option.some.inj hrun
      exact le_rfl
  | cons request requests ih =>
      obtain ⟨⟨reply, system₁⟩, hstep, hrest⟩ :=
        Option.bind_eq_some_iff.mp hrun
      obtain ⟨hnumbered, hle⟩ := numbered_step h hstep
      exact hle.trans (ih hnumbered hrest)

/-- Whatever was done before, over any number of processes and cleanings, a
new order gets a higher number than every order that is stored or was placed
before: its key is new and it is listed first. -/
theorem order_newest {sizes : Fin 6 → ℤ}
    (hsystem : Reaches System.step (fun _ _ => True)
      (start (Databases.new sizes)) system)
    (hbuy : request.name = .buyTicket)
    (hstep : system.step request = some (reply, system'))
    (hreply : reply ≠ .train .failure) :
    ∃ order, system'.trains.orderDatabase =
        system.trains.orderDatabase.insertEntry order.key order ∧
      system.trains.orderDatabase.map.find? order.key = none ∧
      (∀ key stored,
        system.trains.orderDatabase.map.find? key = some stored →
          stored.orderId < order.orderId ∧ orderCmp order stored = true) ∧
      ∀ requests later, runSteps System.step system' requests = some later →
        ∀ request' reply' later', request'.name = .buyTicket →
          later.step request' = some (reply', later') →
          reply' ≠ .train .failure →
            order.orderId < later'.trains.orderNum ∧
              ∃ order', order'.orderId = later'.trains.orderNum ∧
                later'.trains.orderDatabase =
                  later.trains.orderDatabase.insertEntry order'.key
                    order' := by
  have h : system.trains.Numbered := by
    refine hsystem.invariant (fun s => s.trains.Numbered)
      (numbered_start sizes) ?_
    intro s request reply s' hinv _ hs
    exact (numbered_step hinv hs).1
  -- a purchase that is not refused places an order
  have hplaces : ∀ {s s' : System} {r : Request} {rep : Reply},
      r.name = .buyTicket → s.step r = some (rep, s') →
      rep ≠ .train .failure → ∃ order, s.trains.Orders s'.trains order := by
    intro s s' r rep hname hs hrep
    cases ordersStep_of_step hs with
    | kept hbuy _ _ _ => exact absurd (hbuy hname) hrep
    | placed order _ _ horders _ => exact ⟨order, horders⟩
    | refunded hname' _ _ => exact absurd (hname.symm.trans hname') (by decide)
    | cleaned hname' _ => exact absurd (hname.symm.trans hname') (by decide)
    | reopened hname' _ => exact absurd (hname.symm.trans hname') (by decide)
  obtain ⟨order, horders⟩ := hplaces hbuy hstep hreply
  have hless : ∀ key stored,
      system.trains.orderDatabase.map.find? key = some stored →
        stored.orderId < order.orderId := by
    intro key stored hstored
    rw [horders.orderId_eq]
    exact Int.lt_add_one_of_le (h.orderId_le key stored hstored)
  refine ⟨order, horders.orderDatabase_eq, h.find?_next horders.orderId_eq,
    fun key stored hstored => ?_, ?_⟩
  · exact ⟨hless key stored hstored,
      decide_eq_true (hless key stored hstored)⟩
  · intro requests later hrun request' reply' later' hbuy' hstep' hreply'
    obtain ⟨order', horders'⟩ := hplaces hbuy' hstep' hreply'
    refine ⟨?_, order', horders'.orderNum_eq.symm,
      horders'.orderDatabase_eq⟩
    have hle := orderNum_le_of_runSteps (horders.numbered h) hrun
    calc order.orderId = system'.trains.orderNum := horders.orderNum_eq.symm
      _ ≤ later.trains.orderNum := hle
      _ < later.trains.orderNum + 1 := lt_add_one _
      _ = order'.orderId := horders'.orderId_eq.symm
      _ = later'.trains.orderNum := horders'.orderNum_eq.symm

/-- After a restart of the process that ran `waitingRun`. -/
theorem order_newest_waitingRun :
    ∃ (system system' : System) (order : Order),
      (system.trains.orderDatabase.map.find? ⟨"root", 9⟩).isSome ∧
        system'.trains.orderDatabase =
          system.trains.orderDatabase.insertEntry order.key order ∧
        ∀ key stored,
          system.trains.orderDatabase.map.find? key = some stored →
            stored.orderId < order.orderId := by
  let buy : Request := ⟨.buyTicket, ["-u", "root", "-i", "T", "-d", "06-02",
    "-n", "1", "-f", "A", "-t", "C"], 0⟩
  have hrun : ((runSteps System.step
      (start (Databases.new fun _ => 7))
        (waitingRun ++ [⟨.exit, [], 0⟩,
          ⟨.login, ["-u", "root", "-p", "a"], 0⟩])).bind fun s =>
        (s.step buy).map fun out =>
          ((s.trains.orderDatabase.map.find? ⟨"root", 9⟩).isSome,
            out.1)) = some (true, .train (.bought 3)) := by
    decide +kernel
  obtain ⟨s, hs, hbuy⟩ := Option.bind_eq_some_iff.mp hrun
  obtain ⟨⟨reply, s'⟩, hstep, hfacts⟩ := Option.map_eq_some_iff.mp hbuy
  obtain ⟨hstored, rfl⟩ := Prod.mk.inj hfacts
  have hreaches : Reaches System.step (fun _ _ => True)
      (start (Databases.new fun _ => 7)) s := by
    refine Reaches.refl.runSteps ?_ hs
    decide +kernel
  obtain ⟨order, hinsert, -, hless, -⟩ :=
    order_newest hreaches rfl hstep fun h => by cases h
  exact ⟨s, s', order, hstored, hinsert, fun key stored hfind =>
    (hless key stored hfind).1⟩

end System

end TicketSystem.Backend
