import TicketSystem.Backend.OrderLines
import TicketSystem.Backend.CleanSlate

/-!
# The log of the purchases

The program keeps no history of what was bought.  Here the system runs beside
a log of the purchases since the last `clean`.  What `query_order` lists for a
user is the part of this log that belongs to the user, and `refund_ticket`
goes by the same list.
-/

namespace TicketSystem.Backend

open TicketSystem.Support
open TicketSystem.Database

/-- The orders are those of the log, newest first. -/
structure LogOf (orders : Index StringAny Order) (log : List StringAny) :
    Prop where
  mem_iff : ∀ key, key ∈ log ↔ (orders.map.find? key).isSome
  decreasing : log.Pairwise fun a b => b.dataT < a.dataT

namespace LogOf

variable {orders orders' : Index StringAny Order} {log : List StringAny}

theorem of_empty (h : orders.map = SortedMap.empty) : LogOf orders [] := by
  constructor
  · intro key
    rw [h]
    exact iff_of_false List.not_mem_nil Bool.false_ne_true
  · exact List.Pairwise.nil

/-- No order is added and none is dropped. -/
theorem setsStatuses (h : LogOf orders log)
    (hset : SetsStatuses orders orders') : LogOf orders' log := by
  induction hset with
  | refl => exact h
  | set status _ hfind ih =>
      refine ⟨fun key => ?_, ih.decreasing⟩
      rw [ih.mem_iff key, Index.map_insertEntry, SortedMap.find?_insert]
      split_ifs with heq
      · rw [heq, hfind]
        exact iff_of_true rfl rfl
      · exact Iff.rfl

/-- A new order goes on top of the log. -/
theorem insert_next {num : ℤ} {order : Order} (h : LogOf orders log)
    (hnumbered : OrdersUpTo orders num) (hid : order.orderId = num + 1) :
    LogOf (orders.insertEntry order.key order) (order.key :: log) := by
  constructor
  · intro key
    rw [List.mem_cons, h.mem_iff key, Index.map_insertEntry,
      SortedMap.find?_insert]
    split_ifs with heq
    · exact iff_of_true (Or.inl heq) rfl
    · exact or_iff_right heq
  · apply List.Pairwise.cons _ h.decreasing
    intro key hkey
    obtain ⟨o, ho⟩ := Option.isSome_iff_exists.mp ((h.mem_iff key).mp hkey)
    have hle := hnumbered.orderId_le key o ho
    obtain rfl := hnumbered.key_eq key o ho
    calc o.orderId ≤ num := hle
      _ < num + 1 := lt_add_one num
      _ = order.orderId := hid.symm

end LogOf

namespace TrainManagement

variable {trains trains' : TrainManagement}

theorem Consistent.numbered (h : trains.Consistent) : trains.Numbered :=
  ⟨h.order_key, h.order_le, h.orderNum_eq⟩

/-- The list of a user is the user's part of the log. -/
theorem map_key_ordersOf (h : trains.Consistent) {log : List StringAny}
    (hlog : LogOf trains.orderDatabase log) (userName : String) :
    (trains.ordersOf userName).map Order.key =
      log.filter fun key => key.dataStr = userName := by
  have hdown : ((trains.ordersOf userName).map Order.key).Pairwise
      fun a b => b.dataT < a.dataT :=
    List.pairwise_map.mpr (ordersOf_pairwise h userName)
  have hdown' := hlog.decreasing.filter
    fun key => decide (key.dataStr = userName)
  have hne : ∀ a b : StringAny, b.dataT < a.dataT → a ≠ b := by
    rintro a b hlt rfl
    exact lt_irrefl _ hlt
  refine List.Perm.eq_of_pairwise ?_ hdown hdown' ?_
  · intro a b _ _ hlt hgt
    exact absurd hlt hgt.asymm
  · rw [List.perm_ext_iff_of_nodup (hdown.imp (hne _ _))
      (hdown'.imp (hne _ _))]
    intro key
    rw [List.mem_map, List.mem_filter, hlog.mem_iff, decide_eq_true_eq]
    constructor
    · rintro ⟨o, ho, rfl⟩
      obtain ⟨hfind, huser⟩ := (mem_ordersOf_iff h).mp ho
      exact ⟨by rw [hfind]; rfl, huser⟩
    · rintro ⟨hsome, rfl⟩
      obtain ⟨o, ho⟩ := Option.isSome_iff_exists.mp hsome
      obtain rfl := h.order_key key o ho
      exact ⟨o, (mem_ordersOf_iff h).mpr ⟨ho, rfl⟩, rfl⟩

/-- With positive numbers the commands see all orders of the user. -/
theorem userOrders_eq_ordersOf (h : trains.Consistent)
    (hpos : trains.Positive) (userName : String) :
    trains.userOrders userName = some (trains.ordersOf userName) := by
  rw [userOrders_eq h, List.filter_eq_self.mpr]
  intro o ho
  have hfind := ((mem_ordersOf_iff h).mp ho).1
  exact decide_eq_true (hpos.orders_pos o.key o hfind).2.le

/-- What the refund of line `x` of a list answers and does: the order of the
line is refunded unless it already was, and a line that is not there is not
refunded. -/
structure ActsOnLine (trains : TrainManagement) (orders : List Order)
    (x : ℤ) (reply : TrainReply) (trains' : TrainManagement) : Prop where
  refunds : ∀ o, atIndex orders (x - 1) = some o → o.status ≠ .refunded →
    reply = .success ∧ trains.Refunds trains' o
  again : ∀ o, atIndex orders (x - 1) = some o → o.status = .refunded →
    reply = .failure ∧ trains' = trains
  missing : atIndex orders (x - 1) = none → trains' = trains

theorem actsOnLine_refundTicketWith (h : trains.Consistent)
    {accounts : AccountManagement} {args : RefundArgs}
    (hlogin : (accounts.loginPool.find? args.userName).isSome)
    {orders : List Order}
    (horders : trains.userOrders args.userName = some orders)
    {reply : TrainReply}
    (hstep : trains.refundTicketWith accounts args = some (reply, trains')) :
    trains.ActsOnLine orders args.x reply trains' := by
  by_cases hx : 1 ≤ args.x
  · rcases refundTicketWith_line h hx hlogin horders with
      ⟨rfl, hrun⟩ | ⟨-, ⟨hnone, hrun⟩ | ⟨o, next, ho, hstatus, hrefunds,
        hrun⟩⟩
    all_goals
      rw [hrun] at hstep
      obtain ⟨rfl, rfl⟩ := Prod.mk.inj (Option.some.inj hstep)
    -- the user has no orders
    · have hnone : ∀ o, atIndex ([] : List Order) (args.x - 1) ≠ some o := by
        intro o ho
        exact List.not_mem_nil
          (List.mem_of_getElem? (atIndex_eq_some_iff.mp ho).2)
      constructor
      · exact fun o ho => absurd ho (hnone o)
      · exact fun o ho => absurd ho (hnone o)
      · exact fun _ => rfl
    -- nothing is left to refund on the line
    · constructor
      · intro o ho hstatus
        exact absurd (hnone o ho) hstatus
      · exact fun o _ _ => ⟨rfl, rfl⟩
      · exact fun _ => rfl
    · constructor
      · intro o' ho' _
        obtain rfl := Option.some.inj (ho.symm.trans ho')
        exact ⟨rfl, hrefunds⟩
      · intro o' ho' hstatus'
        obtain rfl := Option.some.inj (ho.symm.trans ho')
        exact absurd hstatus' hstatus
      · intro hnone
        rw [ho] at hnone
        cases hnone
  · -- there are no lines before the first
    have hnone : atIndex orders (args.x - 1) = none := by
      rw [Option.eq_none_iff_forall_ne_some]
      intro o ho
      have hnonneg := (atIndex_eq_some_iff.mp ho).1
      omega
    constructor
    · intro o ho
      rw [hnone] at ho
      cases ho
    · intro o ho
      rw [hnone] at ho
      cases ho
    · intro _
      rcases refundTicketWith_cases h.order_key hstep with
        rfl | ⟨orders', o, -, horders', ho, -⟩
      · rfl
      · obtain rfl := Option.some.inj (horders.symm.trans horders')
        rw [hnone] at ho
        cases ho

end TrainManagement

/-! ## Runs beside the log -/

namespace System

variable {s s' : System} {log : List StringAny}

/-- The log after a command that was answered. -/
def logAfter (log : List StringAny) (request : Request) (reply : Reply)
    (system : System) : List StringAny :=
  match request.name with
  | .buyTicket =>
      if reply = .train .failure then log
      else
        ⟨(BuyArgs.ofLine request.uninit request.line).userName,
          system.trains.orderNum⟩ :: log
  | .clean => []
  | _ => log

/-- One iteration of the command loop beside the log. -/
def stepLogged (state : System × List StringAny) (request : Request) :
    Option (Reply × System × List StringAny) :=
  (state.1.step request).map fun out =>
    (out.1, out.2, logAfter state.2 request out.1 out.2)

/-- The databases are consistent, and the log is that of their orders. -/
structure Logged (s : System) (log : List StringAny) : Prop where
  consistent : s.trains.Consistent
  positive : s.trains.Positive
  logOf : LogOf s.trains.orderDatabase log

theorem logged_start {sizes : Fin 6 → ℤ} (hsize : 0 ≤ sizes 4) :
    Logged (start (Databases.new sizes)) [] := by
  constructor
  · exact consistent_start sizes
  · refine ⟨hsize, ?_⟩
    intro key order hfind
    cases hfind
  · exact LogOf.of_empty rfl

/-- The numbers stay positive over a restart as well. -/
theorem Logged.positive_step {request : Request} {reply : Reply}
    (h : Logged s log) (hstep : s.step request = some (reply, s')) :
    s'.trains.Positive := by
  by_cases hname : request.name = .exit
  · obtain ⟨name, line, uninit⟩ := request
    obtain rfl : name = .exit := hname
    cases hstep
    have hsize : s.trains.orderNum = s.trains.orderDatabase.size :=
      h.consistent.orderNum_eq
    have hnonneg : 0 ≤ s.trains.orderDatabase.size :=
      hsize ▸ h.positive.orderNum_nonneg
    exact ⟨hnonneg, h.positive.orders_pos⟩
  · exact System.positive_step h.positive hname hstep

theorem logAfter_of_ne {request : Request} {reply : Reply}
    (hbuy : request.name = .buyTicket → reply = .train .failure)
    (hclean : request.name ≠ .clean) : logAfter log request reply s' = log := by
  unfold logAfter
  split
  next hname => exact if_pos (hbuy hname)
  next hname => exact absurd hname hclean
  next => rfl

theorem Logged.logOf_step {request : Request} {reply : Reply}
    (h : Logged s log) (hstep : s.step request = some (reply, s')) :
    LogOf s'.trains.orderDatabase (logAfter log request reply s') := by
  cases ordersStep_of_step hstep with
  | kept hbuy hclean horders _ =>
      rw [logAfter_of_ne hbuy hclean, horders]
      exact h.logOf
  | placed order hname hreply horders huser =>
      have hkey : (⟨(BuyArgs.ofLine request.uninit request.line).userName,
          s'.trains.orderNum⟩ : StringAny) = order.key :=
        StringAny.ext huser.symm horders.orderNum_eq
      have hlog : logAfter log request reply s' = order.key :: log := by
        rw [logAfter, hname]
        dsimp only
        rw [if_neg hreply, hkey]
      rw [hlog, horders.orderDatabase_eq]
      exact h.logOf.insert_next h.consistent.numbered horders.orderId_eq
  | refunded hname hset _ =>
      rw [logAfter_of_ne (fun hbuy => by cases hname.symm.trans hbuy)
        (by rw [hname]; decide)]
      exact h.logOf.setsStatuses (hset h.consistent.order_key)
  | cleaned hname heq =>
      have hlog : logAfter log request reply s' = [] := by
        rw [logAfter, hname]
      rw [hlog, heq]
      exact LogOf.of_empty rfl
  | reopened hname heq =>
      rw [logAfter_of_ne (fun hbuy => by cases hname.symm.trans hbuy)
        (by rw [hname]; decide), heq]
      exact h.logOf

theorem logged_of_reaches {sizes : Fin 6 → ℤ} (hsize : 0 ≤ sizes 4)
    (hs : Reaches stepLogged (fun _ request => request.WellFormed)
      (start (Databases.new sizes), []) (s, log)) : Logged s log := by
  refine hs.invariant (fun state => Logged state.1 state.2)
    (logged_start hsize) ?_
  rintro ⟨s, log⟩ request reply ⟨s', log'⟩ h hok hstep
  obtain ⟨⟨r, next⟩, hnext, heq⟩ := Option.map_eq_some_iff.mp hstep
  obtain ⟨rfl, hstate⟩ := Prod.mk.inj heq
  obtain ⟨rfl, rfl⟩ := Prod.mk.inj hstate
  constructor
  · exact consistent_step h.consistent hok hnext
  · exact h.positive_step hnext
  · exact h.logOf_step hnext

/-! ## What the two commands show and do -/

/-- The list shows the purchases of the user, newest first, each once and as
it is stored. -/
structure ShowsPurchases (s : System) (log : List StringAny)
    (userName : String) (orders : List Order) : Prop where
  keys_eq : orders.map Order.key =
    log.filter fun key => key.dataStr = userName
  mem_iff : ∀ o, o ∈ orders ↔
    s.trains.orderDatabase.map.find? o.key = some o ∧ o.userName = userName
  nodup : orders.Nodup
  decreasing : orders.Pairwise fun a b => b.orderId < a.orderId

theorem Logged.showsPurchases (h : Logged s log) (userName : String) :
    s.ShowsPurchases log userName (s.trains.ordersOf userName) := by
  have hdown := TrainManagement.ordersOf_pairwise h.consistent userName
  constructor
  · exact TrainManagement.map_key_ordersOf h.consistent h.logOf userName
  · intro o
    exact TrainManagement.mem_ordersOf_iff h.consistent
  · apply hdown.imp
    rintro a b hlt rfl
    exact lt_irrefl _ hlt
  · exact hdown

/-- `query_order` shows a user who is logged in exactly the purchases of that
user, newest first, and changes nothing; a refund issued next acts on the
order of the line that it names, and with a line number from one on it
answers. -/
theorem queryOrder_showsPurchases {sizes : Fin 6 → ℤ} (hsize : 0 ≤ sizes 4)
    (hs : Reaches stepLogged (fun _ request => request.WellFormed)
      (start (Databases.new sizes), []) (s, log))
    {userName : String} (hlogin : (s.accounts.loginPool.find? userName).isSome)
    (query : Request) (hquery : query.name = .queryOrder)
    (huser : nthToken query.line 1 = userName) :
    ∃ orders, s.step query = some (.train (.orders orders), s) ∧
      s.ShowsPurchases log userName orders ∧
      ∀ refund : Request, refund.name = .refundTicket →
        (RefundArgs.ofLine refund.line).userName = userName →
          (1 ≤ (RefundArgs.ofLine refund.line).x →
            (s.step refund).isSome) ∧
          ∀ reply s', s.step refund = some (reply, s') →
            ∃ r, reply = .train r ∧ s'.accounts = s.accounts ∧
              s.trains.ActsOnLine orders (RefundArgs.ofLine refund.line).x r
                s'.trains := by
  have h := logged_of_reaches hsize hs
  have horders := TrainManagement.userOrders_eq_ordersOf h.consistent
    h.positive userName
  refine ⟨s.trains.ordersOf userName, ?_, h.showsPurchases userName, ?_⟩
  · obtain ⟨name, line, uninit⟩ := query
    obtain rfl : name = .queryOrder := hquery
    subst huser
    have hlogged : ¬ (s.accounts.loginPool.find? (nthToken line 1)).isNone := by
      rw [← Option.not_isSome, hlogin]
      decide
    have hlist : s.trains.queryOrder s.accounts line =
        some (.orders (s.trains.ordersOf (nthToken line 1))) := by
      rw [TrainManagement.queryOrder, if_neg hlogged, horders]
      rfl
    change (s.trains.queryOrder s.accounts line).map _ = _
    rw [hlist]
    rfl
  · rintro ⟨name, line, uninit⟩ hname hrefundUser
    obtain rfl : name = .refundTicket := hname
    have hstep : s.step ⟨.refundTicket, line, uninit⟩ =
        (s.trains.refundTicketWith s.accounts (RefundArgs.ofLine line)).map
          s.withTrains := rfl
    rw [hstep]
    dsimp only at hrefundUser ⊢
    generalize RefundArgs.ofLine line = args at hrefundUser
    subst hrefundUser
    constructor
    · intro hx
      rw [Option.isSome_map]
      rcases TrainManagement.refundTicketWith_line h.consistent hx hlogin
          horders with ⟨-, hrun⟩ | ⟨-, ⟨-, hrun⟩ | ⟨o, next, -, -, -, hrun⟩⟩
      all_goals
        rw [hrun]
        rfl
    · intro reply s' hmap
      obtain ⟨⟨r, trains'⟩, hrun, heq⟩ := Option.map_eq_some_iff.mp hmap
      obtain ⟨rfl, rfl⟩ := Prod.mk.inj heq
      exact ⟨r, rfl, rfl, TrainManagement.actsOnLine_refundTicketWith
        h.consistent hlogin horders hrun⟩

/-- Both orders of `waitingRun` are shown, and the newer one is refunded. -/
theorem queryOrder_showsPurchases_waitingRun :
    ∃ (s : System) (orders : List Order),
      s.step ⟨.queryOrder, ["-u", "root"], 0⟩ =
          some (.train (.orders orders), s) ∧
        s.ShowsPurchases [⟨"root", 2⟩, ⟨"root", 1⟩] "root" orders ∧
          (s.step ⟨.refundTicket, ["-u", "root"], 0⟩).isSome := by
  have hrun : ((runSteps stepLogged (start (Databases.new fun _ => 0), [])
      waitingRun).map fun state =>
        (state.2, (state.1.accounts.loginPool.find? "root").isSome)) =
          some ([⟨"root", 2⟩, ⟨"root", 1⟩], true) := by
    decide +kernel
  obtain ⟨⟨s, log⟩, hs, hfacts⟩ := Option.map_eq_some_iff.mp hrun
  obtain ⟨rfl, hlogin⟩ := Prod.mk.inj hfacts
  have hok : StepsOk stepLogged (fun _ request => request.WellFormed)
      (start (Databases.new fun _ => 0), []) waitingRun := by
    decide +kernel
  obtain ⟨orders, hquery, hshows, hrefund⟩ :=
    @queryOrder_showsPurchases s _ (fun _ => 0) le_rfl
      (Reaches.runSteps .refl hok hs) "root" hlogin
      ⟨.queryOrder, ["-u", "root"], 0⟩ rfl rfl
  refine ⟨s, orders, hquery, hshows, ?_⟩
  exact (hrefund ⟨.refundTicket, ["-u", "root"], 0⟩ rfl rfl).1 (by decide)

end System

end TicketSystem.Backend
