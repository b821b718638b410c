import TicketSystem.Backend.Waitlist
import TicketSystem.Backend.Safety

/-!
# The orders of a user, line by line

`query_order` and `refund_ticket` scan and sort the orders of a user on their
own.  Both see the orders whose numbers are not negative, newest first, and a
refund changes the order of its line and orders that wait.
-/

namespace TicketSystem.Backend

open TicketSystem.Support
open TicketSystem.Database

namespace TrainManagement

variable {trains trains' : TrainManagement}

/-! ## The orders of a user -/

/-- All orders of a user, newest first. -/
def ordersOf (trains : TrainManagement) (userName : String) : List Order :=
  ((trains.orderDatabase.map.entries.filter
    fun e => e.1.dataStr = userName).map Prod.snd).reverse

theorem mem_ordersOf_iff (h : trains.Consistent) {userName : String}
    {o : Order} :
    o ∈ trains.ordersOf userName ↔
      trains.orderDatabase.map.find? o.key = some o ∧
        o.userName = userName := by
  simp only [ordersOf, List.mem_reverse, List.mem_map, List.mem_filter,
    decide_eq_true_eq]
  constructor
  · rintro ⟨⟨key, o⟩, ⟨hmem, rfl⟩, rfl⟩
    have hfind := SortedMap.find?_eq_some_iff.mpr hmem
    obtain rfl := h.order_key key o hfind
    exact ⟨hfind, rfl⟩
  · rintro ⟨hfind, rfl⟩
    exact ⟨(o.key, o), ⟨SortedMap.find?_eq_some_iff.mp hfind, rfl⟩, rfl⟩

/-- The numbers go down from one order of a user to the next. -/
theorem ordersOf_pairwise (h : trains.Consistent) (userName : String) :
    (trains.ordersOf userName).Pairwise
      fun a b => b.orderId < a.orderId := by
  rw [ordersOf, List.pairwise_reverse, List.pairwise_map,
    List.pairwise_filter]
  refine trains.orderDatabase.map.sorted.imp_of_mem ?_
  intro a b ha hb hlt huser huser'
  have hka := h.order_key _ _ (SortedMap.find?_eq_some_iff.mpr ha)
  have hkb := h.order_key _ _ (SortedMap.find?_eq_some_iff.mpr hb)
  rw [← hka] at hlt huser
  rw [← hkb] at hlt huser'
  have hname := (of_decide_eq_true huser).trans (of_decide_eq_true huser').symm
  rcases (StringAny.lt_iff _ _).mp hlt with hlt | ⟨-, hlt⟩
  · exact absurd hname hlt.ne
  · exact hlt

/-- The scan sees the orders whose numbers are not negative. -/
theorem mem_scanKey_user_iff (h : trains.Consistent) {userName : String}
    {o : Order} :
    o ∈ trains.orderDatabase.scanKey ⟨userName, 0⟩ (stringAnyComparator 1) ↔
      o ∈ trains.ordersOf userName ∧ 0 ≤ o.orderId := by
  rw [Index.mem_scanKey_iff, mem_ordersOf_iff h]
  · constructor
    · rintro ⟨key, hle, hzero, hfind⟩
      obtain rfl := h.order_key key o hfind
      have hname := (stringAnyComparator_one_eq_zero_iff _ _).mp hzero
      refine ⟨⟨hfind, hname.symm⟩, ?_⟩
      rcases (StringAny.le_iff _ _).mp hle with hlt | ⟨-, hle⟩
      · exact absurd hname hlt.ne
      · exact hle
    · rintro ⟨⟨hfind, rfl⟩, hle⟩
      refine ⟨o.key, (StringAny.le_iff _ _).mpr (Or.inr ⟨rfl, hle⟩), ?_,
        hfind⟩
      exact (stringAnyComparator_one_eq_zero_iff _ _).mpr rfl
  · intro a b hka hab hb
    rw [stringAnyComparator_one_eq_zero_iff] at hb ⊢
    have hle : (⟨userName, 0⟩ : StringAny).dataStr ≤ a.dataStr := by
      rcases (StringAny.le_iff _ _).mp hka with hlt | ⟨heq, -⟩
      · exact hlt.le
      · exact heq.le
    have hle' : a.dataStr ≤ b.dataStr := by
      rcases (StringAny.le_iff _ _).mp hab with hlt | ⟨heq, -⟩
      · exact hlt.le
      · exact heq.le
    exact le_antisymm hle (hb ▸ hle')

theorem scanKey_user_nodup (h : trains.Consistent) (userName : String) :
    (trains.orderDatabase.scanKey ⟨userName, 0⟩
      (stringAnyComparator 1)).Nodup := by
  have hsorted := Index.scanKey_pairwise h.order_key ⟨userName, 0⟩
    (stringAnyComparator 1)
  exact hsorted.imp fun hlt heq => (heq ▸ hlt).ne rfl

/-- What the two commands work on. -/
theorem userOrders_eq (h : trains.Consistent) (userName : String) :
    trains.userOrders userName =
      some ((trains.ordersOf userName).filter fun o => 0 ≤ o.orderId) := by
  obtain ⟨orders, hsort, hperm, hsorted⟩ := sort_spec orderCmp_strictWeakOrder
    (trains.orderDatabase.scanKey ⟨userName, 0⟩ (stringAnyComparator 1))
  have hdown : orders.Pairwise fun a b => b.orderId ≤ a.orderId :=
    hsorted.imp fun hcmp => by simpa [orderCmp] using hcmp
  have hstrict := (ordersOf_pairwise h userName).filter
    fun o => decide (0 ≤ o.orderId)
  have hmem : ∀ o, o ∈ orders ↔
      o ∈ (trains.ordersOf userName).filter fun o => 0 ≤ o.orderId := by
    intro o
    rw [hperm.mem_iff, mem_scanKey_user_iff h, List.mem_filter,
      decide_eq_true_eq]
  rw [userOrders, hsort]
  congr 1
  refine List.Perm.eq_of_pairwise ?_ hdown (hstrict.imp le_of_lt) ?_
  · intro a b ha hb hle hge
    have ha' := (mem_ordersOf_iff h).mp
      (List.mem_of_mem_filter ((hmem a).mp ha))
    have hb' := (mem_ordersOf_iff h).mp (List.mem_of_mem_filter hb)
    have hkey : a.key = b.key :=
      StringAny.ext (ha'.2.trans hb'.2.symm) (le_antisymm hge hle)
    have hfind := ha'.1
    rw [hkey, hb'.1] at hfind
    exact (Option.some.inj hfind).symm
  · rw [List.perm_ext_iff_of_nodup
      (hperm.nodup_iff.mpr (scanKey_user_nodup h userName))
      (hstrict.imp fun hlt heq => absurd (heq ▸ hlt) (lt_irrefl _))]
    exact hmem

/-! ## What a refund changes -/

/-- The promotion loop makes successes of orders on its list. -/
theorem promoteOrders_find? {r : Order} {ps : List PendingOrder}
    {st st' : Promotion} (hrun : promoteOrders r ps st = some st')
    (key : StringAny) :
    st'.orderDatabase.map.find? key = st.orderDatabase.map.find? key ∨
      (∃ p ∈ ps, p.orderKey = key) ∧
        ∃ o, st.orderDatabase.map.find? key = some o ∧
          st'.orderDatabase.map.find? key =
            some { o with status := .success } := by
  induction ps generalizing st with
  | nil =>
      obtain rfl := Option.some.inj hrun
      exact Or.inl rfl
  | cons p ps ih =>
      have hskip : promoteOrders r ps st = some st' → _ := fun hrest =>
        (ih hrest).imp_right fun ⟨⟨q, hq, hkey⟩, horder⟩ =>
          (⟨⟨q, List.mem_cons_of_mem p hq, hkey⟩, horder⟩ :
            (∃ q ∈ p :: ps, q.orderKey = key) ∧ _)
      rw [promoteOrders] at hrun
      split_ifs at hrun
      · exact hskip hrun
      · obtain ⟨st₁, hgrant, hrest⟩ := Option.bind_eq_some_iff.mp hrun
        obtain ⟨-, o, ho, horders⟩ := grant_eq_some hgrant
        by_cases hkey : p.orderKey = key
        · -- the order that is granted here may be set once more
          subst hkey
          have hset : st₁.orderDatabase.map.find? p.orderKey =
              some { o with status := .success } := by
            rw [horders, Index.map_insertEntry, SortedMap.find?_insert_self]
          refine Or.inr ⟨⟨p, List.mem_cons_self, rfl⟩, o, ho, ?_⟩
          rcases ih hrest with hsame | ⟨-, o', ho', hdone⟩
          · rw [hsame, hset]
          · obtain rfl := Option.some.inj (hset.symm.trans ho')
            exact hdone
        · have hsame : st₁.orderDatabase.map.find? key =
              st.orderDatabase.map.find? key := by
            rw [horders, Index.map_insertEntry,
              SortedMap.find?_insert_of_ne _ _ (Ne.symm hkey)]
          rw [← hsame]
          exact (ih hrest).imp_right fun ⟨⟨q, hq, hkey'⟩, horder⟩ =>
            ⟨⟨q, List.mem_cons_of_mem p hq, hkey'⟩, horder⟩
      · exact hskip hrun

/-- A refund makes its order refunded; of the other orders it only makes
successes of some that wait. -/
structure Refunds (trains trains' : TrainManagement) (order : Order) :
    Prop where
  refunded : trains'.orderDatabase.map.find? order.key =
    some { order with status := .refunded }
  others : ∀ key, key ≠ order.key →
    trains'.orderDatabase.map.find? key =
        trains.orderDatabase.map.find? key ∨
      ∃ o, trains.orderDatabase.map.find? key = some o ∧
        o.status = .pending ∧
          trains'.orderDatabase.map.find? key =
            some { o with status := .success }

theorem refunds_of_refundOrder (h : trains.Consistent) {o : Order}
    (ho : trains.orderDatabase.map.find? o.key = some o)
    {reply : TrainReply}
    (hstep : trains.refundOrder o.userName o = some (reply, trains')) :
    reply = .success ∧ trains.Refunds trains' o := by
  obtain ⟨hreply, hcases⟩ := refundOrder_cases hstep
  refine ⟨hreply, ?_⟩
  rcases hcases with
    ⟨-, rfl⟩ | ⟨hnot, d, ps, st, -, hperm, -, hrun, rfl⟩
  · constructor
    · exact SortedMap.find?_insert_self _ _ _
    · intro key hne
      exact Or.inl (SortedMap.find?_insert_of_ne _ _ hne)
  · have hwait := waiting_of_perm_scanKey h hperm
    -- the orders on the list wait in the state before the refund
    have hpending : ∀ p ∈ ps, ∃ o',
        trains.orderDatabase.map.find? p.orderKey = some o' ∧
          o'.status = .pending := by
      intro p hp
      obtain ⟨o', ho', -, hstatus, -⟩ := h.exists_order (hwait.find? p hp)
      exact ⟨o', ho', hstatus⟩
    constructor
    · have hset : (trains.refundStart o d).orderDatabase.map.find? o.key =
          some { o with status := .refunded } :=
        SortedMap.find?_insert_self _ _ _
      rcases promoteOrders_find? hrun o.key with
        hsame | ⟨⟨p, hp, hkey⟩, -⟩
      · exact hsame.trans hset
      · obtain ⟨o', ho', hstatus⟩ := hpending p hp
        rw [hkey, ho] at ho'
        obtain rfl := Option.some.inj ho'
        exact absurd hstatus hnot
    · intro key hne
      have hkeep : (trains.refundStart o d).orderDatabase.map.find? key =
          trains.orderDatabase.map.find? key :=
        SortedMap.find?_insert_of_ne _ _ hne
      rcases promoteOrders_find? hrun key with
        hsame | ⟨⟨p, hp, rfl⟩, o₁, ho₁, hdone⟩
      · exact Or.inl (hsame.trans hkeep)
      · obtain ⟨o', ho', hstatus⟩ := hpending p hp
        rw [hkeep, ho'] at ho₁
        obtain rfl := Option.some.inj ho₁
        exact Or.inr ⟨o', ho', hstatus, hdone⟩

/-- The order to refund has a day, and everybody who waits has an order. -/
theorem Consistent.exists_refundOrder (h : trains.Consistent) {o : Order}
    (ho : trains.orderDatabase.map.find? o.key = some o) :
    ∃ reply trains', trains.refundOrder o.userName o =
      some (reply, trains') := by
  rw [refundOrder]
  by_cases hstatus : o.status = .pending
  · exact ⟨_, _, if_pos hstatus⟩
  · rw [if_neg hstatus]
    obtain ⟨d, hd⟩ := h.exists_daytrain ho
    obtain ⟨ps, hsort, hperm, -⟩ :=
      sort_spec pendingOrderCmp_strictWeakOrder
        (trains.pendingOrderDatabase.scanKey o.pendingKey
          (stringIntIntComparator 1))
    have hwait := waiting_of_perm_scanKey h hperm
    have hisSome : ∀ p, trains.pendingOrderDatabase.map.find? p.key =
        some p → ((trains.refundStart o d).orderDatabase.map.find?
          p.orderKey).isSome := by
      intro p hp
      obtain ⟨o', ho', -⟩ := h.exists_order hp
      exact isSome_insertEntry _ _ (by rw [ho']; rfl)
    have hdays := forall_find?_insertEntry
      (P := fun o => (trains.daytrainDatabase.map.find? o.dayKey).isSome)
      (k := o.key) (v := { o with status := .refunded })
      (Option.isSome_iff_exists.mpr ⟨d, hd⟩)
      fun _ _ ho' => Option.isSome_iff_exists.mpr (h.exists_daytrain ho')
    have hstart : (trains.refundStart o d).Referenced
        trains.daytrainDatabase := by
      refine ⟨hdays, fun key p hp => hisSome p ?_⟩
      rw [h.key_of_find?_pending hp]
      exact hp
    obtain ⟨st, hrun, -⟩ := promoteOrders_total o hstart
      fun p hp => hisSome p (hwait.find? p hp)
    rw [Index.searchKey_of_find? hd]
    refine ⟨.success, trains.commit o st, ?_⟩
    simp only [Option.toList_some, hsort, Option.bind_eq_bind,
      Option.bind_some]
    change (promoteOrders o ps (trains.refundStart o d)).bind _ = _
    rw [hrun]
    rfl

/-! ## One line of the list -/

/-- A list whose numbers go down begins with its numbers from `c` on. -/
theorem eq_filter_append_filter {α : Type} {f : α → ℤ} {l : List α}
    (h : l.Pairwise fun a b => f b < f a) (c : ℤ) :
    l = l.filter (fun a => c ≤ f a) ++ l.filter fun a => f a < c := by
  induction l with
  | nil => rfl
  | cons a l ih =>
      obtain ⟨hhead, htail⟩ := List.pairwise_cons.mp h
      by_cases ha : c ≤ f a
      · rw [List.filter_cons_of_pos (by simpa using ha),
          List.filter_cons_of_neg (by simpa using ha), List.cons_append,
          ← ih htail]
      · have hsmall : ∀ b ∈ a :: l, f b < c := by
          intro b hb
          rcases List.mem_cons.mp hb with rfl | hb
          · exact not_le.mp ha
          · exact (hhead b hb).trans (not_le.mp ha)
        rw [List.filter_eq_nil_iff.mpr fun b hb => by
            simpa using hsmall b hb,
          List.filter_eq_self.mpr fun b hb => by simpa using hsmall b hb,
          List.nil_append]

/-- The lines of the list are the first orders of the user. -/
theorem atIndex_filter_ordersOf (h : trains.Consistent) {userName : String}
    {i : ℤ} {o : Order} :
    atIndex ((trains.ordersOf userName).filter fun o => 0 ≤ o.orderId) i =
        some o ↔
      atIndex (trains.ordersOf userName) i = some o ∧ 0 ≤ o.orderId := by
  have happend :=
    eq_filter_append_filter (ordersOf_pairwise h userName) 0
  rw [atIndex_eq_some_iff, atIndex_eq_some_iff]
  constructor
  · rintro ⟨hi, ho⟩
    have hmem := List.mem_filter.mp (List.mem_of_getElem? ho)
    refine ⟨⟨hi, ?_⟩, of_decide_eq_true hmem.2⟩
    rw [happend, List.getElem?_append_left (List.getElem?_eq_some_iff.mp ho).1]
    exact ho
  · rintro ⟨⟨hi, ho⟩, hnonneg⟩
    refine ⟨hi, ?_⟩
    rw [happend] at ho
    by_cases hlt : i.toNat <
        ((trains.ordersOf userName).filter fun o => 0 ≤ o.orderId).length
    · rwa [List.getElem?_append_left hlt] at ho
    · rw [List.getElem?_append_right (not_lt.mp hlt)] at ho
      have hneg := (List.mem_filter.mp (List.mem_of_getElem? ho)).2
      exact absurd hnonneg (not_le.mpr (of_decide_eq_true hneg))

/-- A refund by a user who is logged in: without an order in the list it says
that it succeeded, and otherwise it refunds the order of its line unless that
is already refunded. -/
theorem refundTicketWith_line (h : trains.Consistent)
    {accounts : AccountManagement} {args : RefundArgs} (hx : 1 ≤ args.x)
    (hlogin : (accounts.loginPool.find? args.userName).isSome)
    {orders : List Order}
    (horders : trains.userOrders args.userName = some orders) :
    (orders = [] ∧
        trains.refundTicketWith accounts args = some (.success, trains)) ∨
      orders ≠ [] ∧
        ((∀ o, atIndex orders (args.x - 1) = some o →
            o.status = .refunded) ∧
          trains.refundTicketWith accounts args = some (.failure, trains) ∨
        ∃ o trains', atIndex orders (args.x - 1) = some o ∧
          o.status ≠ .refunded ∧ trains.Refunds trains' o ∧
            trains.refundTicketWith accounts args =
              some (.success, trains')) := by
  have hlogged : ¬ (accounts.loginPool.find? args.userName).isNone := by
    rw [← Option.not_isSome, hlogin]
    decide
  have hrun : trains.refundTicketWith accounts args =
      if orders = [] then some (.success, trains)
      else if (orders.length : ℤ) < args.x then some (.failure, trains)
      else (atIndex orders (args.x - 1)).bind fun order =>
        if order.status = .refunded then some (.failure, trains)
        else trains.refundOrder args.userName order := by
    rw [refundTicketWith, if_neg hlogged, horders]
    rfl
  by_cases hnil : orders = []
  · exact Or.inl ⟨hnil, by rw [hrun, if_pos hnil]⟩
  refine Or.inr ⟨hnil, ?_⟩
  rw [hrun, if_neg hnil]
  by_cases hlen : (orders.length : ℤ) < args.x
  · refine Or.inl ⟨fun o ho => ?_, if_pos hlen⟩
    have hlt := atIndex_lt_length ho
    omega
  rw [if_neg hlen]
  obtain ⟨o, ho⟩ :=
    exists_atIndex (a := orders) (i := args.x - 1) (by omega) (by omega)
  rw [ho, Option.bind_some]
  by_cases hstatus : o.status = .refunded
  · refine Or.inl ⟨fun o' ho' => ?_, if_pos hstatus⟩
    obtain rfl := Option.some.inj ho'
    exact hstatus
  · rw [if_neg hstatus]
    have hmem : o ∈ orders :=
      List.mem_of_getElem? (atIndex_eq_some_iff.mp ho).2
    obtain ⟨huser, hfind⟩ :=
      find?_of_mem_userOrders h.order_key horders hmem
    obtain ⟨reply, trains', hrefund⟩ := h.exists_refundOrder hfind
    obtain ⟨rfl, hrefunds⟩ := refunds_of_refundOrder h hfind hrefund
    rw [huser] at hrefund
    exact Or.inr ⟨o, trains', rfl, hstatus, hrefunds, hrefund⟩

end TrainManagement

/-! ## What a refund answers -/

namespace System

/-- The `x`-th newest order of the user that a refund names. -/
def nthNewest (system : System) (args : RefundArgs) : Option Order :=
  atIndex (system.trains.ordersOf args.userName) (args.x - 1)

/-- A refund is to answer `0` exactly when the user is logged in and has the
order, which is not refunded yet and is from then on; otherwise it answers
`-1`. -/
structure RefundsRightly (system : System) (args : RefundArgs)
    (reply : Reply) (system' : System) : Prop where
  success_iff : reply = .train .success ↔
    (system.accounts.loginPool.find? args.userName).isSome ∧
      ∃ o, system.nthNewest args = some o ∧ o.status ≠ .refunded
  failure : reply ≠ .train .success → reply = .train .failure
  refunded : reply = .train .success → ∀ o,
    system.nthNewest args = some o →
      system'.trains.orderDatabase.map.find? o.key =
        some { o with status := .refunded }

/-- The user has an order in the list, and the order to refund, if there is
one, is in the list as well. -/
def ScansLine (system : System) (args : RefundArgs) : Prop :=
  (∃ o ∈ system.trains.ordersOf args.userName, 0 ≤ o.orderId) ∧
    ∀ o ∈ system.nthNewest args, o.status ≠ .refunded → 0 ≤ o.orderId

instance (system : System) (args : RefundArgs) :
    Decidable (system.ScansLine args) :=
  inferInstanceAs (Decidable (_ ∧ _))

variable {s s' : System} {args : RefundArgs}

/-- A refund that refuses is right when there is nothing to refund. -/
theorem refundsRightly_failure_iff
    (hlogin : (s.accounts.loginPool.find? args.userName).isSome) :
    s.RefundsRightly args (.train .failure) s' ↔
      ∀ o, s.nthNewest args = some o → o.status = .refunded := by
  constructor
  · intro h o ho
    by_contra hstatus
    have hreply := h.success_iff.mpr ⟨hlogin, o, ho, hstatus⟩
    cases hreply
  · intro hnone
    constructor
    · constructor
      · intro hreply
        cases hreply
      · rintro ⟨-, o, ho, hstatus⟩
        exact absurd (hnone o ho) hstatus
    · exact fun _ => rfl
    · intro hreply
      cases hreply

/-- A refund that succeeds and changes nothing is wrong. -/
theorem not_refundsRightly_unchanged (h : s.trains.Consistent) :
    ¬ s.RefundsRightly args (.train .success) s := by
  intro hright
  obtain ⟨-, o, ho, hstatus⟩ := hright.success_iff.mp rfl
  have hmem := List.mem_of_getElem? (atIndex_eq_some_iff.mp ho).2
  have hfind := ((TrainManagement.mem_ordersOf_iff h).mp hmem).1
  have hnew := hright.refunded rfl o ho
  rw [hfind] at hnew
  have hsame := congrArg Order.status (Option.some.inj hnew)
  exact hstatus hsame

theorem refundsRightly_success
    (hlogin : (s.accounts.loginPool.find? args.userName).isSome) {o : Order}
    (ho : s.nthNewest args = some o) (hstatus : o.status ≠ .refunded)
    (hrefunds : s.trains.Refunds s'.trains o) :
    s.RefundsRightly args (.train .success) s' := by
  constructor
  · exact iff_of_true rfl ⟨hlogin, o, ho, hstatus⟩
  · intro hreply
    exact absurd rfl hreply
  · intro _ o' ho'
    obtain rfl := Option.some.inj (ho.symm.trans ho')
    exact hrefunds.refunded

/-- A refund answers rightly exactly when nobody is logged in under the name
or the user has an order in the list, and the order to refund, if there is
one, is in the list as well. -/
theorem Reachable.refundsRightly_iff (hs : s.Reachable) (request : Request)
    (hname : request.name = .refundTicket) (hwf : request.WellFormed) :
    ∃ reply s', s.step request = some (reply, s') ∧
      (s.RefundsRightly (RefundArgs.ofLine request.line) reply s' ↔
        ¬ (s.accounts.loginPool.find?
            (RefundArgs.ofLine request.line).userName).isSome ∨
          s.ScansLine (RefundArgs.ofLine request.line)) := by
  have h := hs.consistent
  obtain ⟨name, line, uninit⟩ := request
  obtain rfl : name = .refundTicket := hname
  have hstep : s.step ⟨.refundTicket, line, uninit⟩ =
      (s.trains.refundTicketWith s.accounts (RefundArgs.ofLine line)).map
        s.withTrains := rfl
  have hx : 1 ≤ (RefundArgs.ofLine line).x := hwf
  dsimp only
  generalize RefundArgs.ofLine line = args at hstep hx
  by_cases hlogin : (s.accounts.loginPool.find? args.userName).isSome
  swap
  · have hfail : s.trains.refundTicketWith s.accounts args =
        some (.failure, s.trains) := by
      rw [TrainManagement.refundTicketWith, if_pos]
      rwa [← Option.not_isSome, Bool.not_eq_true', ← Bool.not_eq_true]
    refine ⟨.train .failure, s, by rw [hstep, hfail]; rfl,
      iff_of_true ⟨?_, fun _ => rfl, ?_⟩ (Or.inl hlogin)⟩
    · exact iff_of_false (fun hreply => by cases hreply)
        fun hright => hlogin hright.1
    · intro hreply
      cases hreply
  -- which orders the command sees
  have horders := TrainManagement.userOrders_eq h args.userName
  have hline := fun o => @TrainManagement.atIndex_filter_ordersOf s.trains h
    args.userName (args.x - 1) o
  have hempty : (s.trains.ordersOf args.userName).filter
      (fun o => 0 ≤ o.orderId) ≠ [] ↔
        ∃ o ∈ s.trains.ordersOf args.userName, 0 ≤ o.orderId := by
    rw [Ne, List.filter_eq_nil_iff]
    simp
  rcases TrainManagement.refundTicketWith_line h hx hlogin horders with
    ⟨hnil, hrun⟩ | ⟨hsome, ⟨hnone, hrun⟩ | ⟨o, trains', ho, hstatus,
      hrefunds, hrun⟩⟩
  · refine ⟨.train .success, s, by rw [hstep, hrun]; rfl,
      iff_of_false (not_refundsRightly_unchanged h) ?_⟩
    rintro (hlogout | hscans)
    · exact hlogout hlogin
    · exact hempty.mpr hscans.1 hnil
  · refine ⟨.train .failure, s, by rw [hstep, hrun]; rfl, ?_⟩
    rw [refundsRightly_failure_iff hlogin]
    constructor
    · intro hrefunded
      refine Or.inr ⟨hempty.mp hsome, fun o ho hstatus => ?_⟩
      exact absurd (hrefunded o ho) hstatus
    · rintro (hlogout | hscans) o ho
      · exact absurd hlogin hlogout
      · by_contra hstatus
        have hnonneg := hscans.2 o ho hstatus
        exact hstatus (hnone o ((hline o).mpr ⟨ho, hnonneg⟩))
  · obtain ⟨hnewest, hnonneg⟩ := (hline o).mp ho
    refine ⟨.train .success, { s with trains := trains' },
      by rw [hstep, hrun]; rfl, iff_of_true
        (refundsRightly_success hlogin hnewest hstatus hrefunds)
        (Or.inr ⟨hempty.mp hsome, fun o' ho' _ => ?_⟩)⟩
    obtain rfl := Option.some.inj (hnewest.symm.trans ho')
    exact hnonneg

/-- The newer order of `waitingRun` is refunded. -/
theorem refundsRightly_waitingRun :
    ∃ s reply s', System.Reachable s ∧
      s.step ⟨.refundTicket, ["-u", "root"], 0⟩ = some (reply, s') ∧
        s.RefundsRightly ⟨"root", 1⟩ reply s' := by
  have hrun : ((runSteps System.step
      (start (Databases.new fun _ => 0)) waitingRun).map fun s =>
        decide (s.ScansLine (RefundArgs.ofLine ["-u", "root"]))) =
          some true := by
    decide +kernel
  obtain ⟨s, hs, hscans⟩ := Option.map_eq_some_iff.mp hrun
  have hok : StepsOk System.step (fun _ request => request.WellFormed)
      (start (Databases.new fun _ => 0)) waitingRun := by
    decide +kernel
  have hreachable := reachable_of_runSteps hok hs
  obtain ⟨reply, s', hstep, hiff⟩ := Reachable.refundsRightly_iff hreachable
    ⟨.refundTicket, ["-u", "root"], 0⟩ rfl (by decide)
  exact ⟨s, reply, s', hreachable, hstep,
    hiff.mpr (Or.inr (of_decide_eq_true hscans))⟩

/-- A user without orders is told that the refund succeeded. -/
theorem not_always_refundsRightly :
    ¬ ∀ (s : System) (request : Request) (reply : Reply) (s' : System),
      s.Reachable → request.name = .refundTicket → request.WellFormed →
        s.step request = some (reply, s') →
          s.RefundsRightly (RefundArgs.ofLine request.line) reply s' := by
  intro hall
  let refund : Request := ⟨.refundTicket, ["-u", "root"], 0⟩
  have hrun : ((runSteps System.step
      (start (Databases.new fun _ => 0)) (waitingRun.take 2)).bind fun s =>
        (s.step refund).map fun out =>
          (out.1, s.nthNewest (RefundArgs.ofLine refund.line))) =
            some (.train .success, none) := by
    decide +kernel
  obtain ⟨s, hs, hrefund⟩ := Option.bind_eq_some_iff.mp hrun
  obtain ⟨⟨reply, s'⟩, hstep, hfacts⟩ := Option.map_eq_some_iff.mp hrefund
  obtain ⟨hreply, hnone⟩ := Prod.mk.inj hfacts
  have hok : StepsOk System.step (fun _ request => request.WellFormed)
      (start (Databases.new fun _ => 0)) (waitingRun.take 2) := by
    decide +kernel
  have hright := hall s refund reply s' (reachable_of_runSteps hok hs) rfl
    (by decide) hstep
  obtain ⟨-, o, ho, -⟩ := hright.success_iff.mp hreply
  rw [hnone] at ho
  cases ho

end System

end TicketSystem.Backend
