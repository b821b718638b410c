import TicketSystem.Backend.Renumbering

/-!
# Nothing from before `clean` can be observed

`clean` empties all databases but keeps the number of the last order and the
counters of the databases.  Two cleaned systems are therefore one system under
another numbering of the orders, and this stays so over every run without a
restart of the process.
-/

namespace TicketSystem.Backend

open TicketSystem.Support
open TicketSystem.Database

namespace TrainManagement

variable {trains trains' : TrainManagement}

/-! ## Numbers stay positive -/

theorem OrdersPositive.insertEntry {orders : Index StringAny Order}
    (h : OrdersPositive orders) {key : StringAny} {order : Order}
    (hkey : order.key = key) (hpos : 0 < order.orderId) :
    OrdersPositive (orders.insertEntry key order) := by
  intro key' o ho
  rw [Index.map_insertEntry, SortedMap.find?_insert] at ho
  split_ifs at ho with heq
  · obtain rfl := Option.some.inj ho
    exact ⟨hkey.trans heq.symm, hpos⟩
  · exact h key' o ho

theorem OrdersPositive.setsStatuses {orders orders' : Index StringAny Order}
    (h : OrdersPositive orders) (hset : SetsStatuses orders orders') :
    OrdersPositive orders' := by
  induction hset with
  | refl => exact h
  | set status _ hfind ih =>
      obtain ⟨hkey, hpos⟩ := ih _ _ hfind
      exact ih.insertEntry hkey hpos

end TrainManagement

namespace System

variable {system system' : System} {request : Request} {reply : Reply}

theorem orderNum_le_step (hname : request.name ≠ .exit)
    (hstep : system.step request = some (reply, system')) :
    system.trains.orderNum ≤ system'.trains.orderNum := by
  cases ordersStep_of_step hstep with
  | kept _ _ _ hnum => exact hnum.ge
  | placed order _ _ horders _ =>
      rw [horders.orderNum_eq, horders.orderId_eq]
      exact (lt_add_one _).le
  | refunded _ _ hnum => exact hnum.ge
  | cleaned _ heq =>
      subst heq
      exact le_rfl
  | reopened hexit _ => exact absurd hexit hname

theorem orderNum_nonneg_of_runSteps {requests : List Request}
    (h : 0 ≤ system.trains.orderNum)
    (hnames : ∀ request ∈ requests, request.name ≠ .exit)
    (hrun : runSteps System.step system requests = some system') :
    0 ≤ system'.trains.orderNum := by
  induction requests generalizing system with
  | nil =>
      obtain rfl := Option.some.inj hrun
      exact h
  | cons request requests ih =>
      obtain ⟨⟨reply, system₁⟩, hstep, hrest⟩ :=
        Option.bind_eq_some_iff.mp hrun
      have hle := orderNum_le_step (hnames request List.mem_cons_self) hstep
      exact ih (h.trans hle)
        (fun r hr => hnames r (List.mem_cons_of_mem _ hr)) hrest

theorem positive_step (h : system.trains.Positive)
    (hname : request.name ≠ .exit)
    (hstep : system.step request = some (reply, system')) :
    system'.trains.Positive := by
  refine ⟨h.orderNum_nonneg.trans (orderNum_le_step hname hstep), ?_⟩
  cases ordersStep_of_step hstep with
  | kept _ _ horders _ =>
      rw [horders]
      exact h.orders_pos
  | placed order _ _ horders _ =>
      have hid : 0 < order.orderId :=
        horders.orderId_eq ▸ Int.lt_add_one_of_le h.orderNum_nonneg
      rw [horders.orderDatabase_eq]
      exact h.orders_pos.insertEntry rfl hid
  | refunded _ hset _ =>
      exact h.orders_pos.setsStatuses
        (hset fun key o ho => (h.orders_pos key o ho).1)
  | cleaned _ heq =>
      subst heq
      intro key order hfind
      cases hfind
  | reopened hexit _ => exact absurd hexit hname

/-! ## Steps under another numbering -/

/-- What a command prints and the state after it. -/
def printed (system : System) (request : Request) :
    Option (String × System) :=
  (system.step request).map fun out => (out.1.render, out.2)

theorem printed_withAccounts {ρ : Offset}
    {out out' : AccountReply × AccountManagement}
    (h : out' = (out.1, out.2.renumber ρ)) :
    (some ((system.renumber ρ).withAccounts out')).map
        (fun out => (out.1.render, out.2)) =
      ((some (system.withAccounts out)).map
        fun out => (out.1.render, out.2)).map
          fun out => (out.1, out.2.renumber ρ) := by
  rw [h]
  rfl

theorem printed_withTrains {ρ : Offset}
    {out out' : Option (TrainReply × TrainManagement)}
    (h : out' = out.map fun out => (out.1, out.2.renumber ρ)) :
    (out'.map (system.renumber ρ).withTrains).map
        (fun out => (out.1.render, out.2)) =
      ((out.map system.withTrains).map
        fun out => (out.1.render, out.2)).map
          fun out => (out.1, out.2.renumber ρ) := by
  rw [h]
  cases out <;> rfl

theorem printed_query {ρ : Offset} {out out' : Option TrainReply}
    (h : out'.map TrainReply.render = out.map TrainReply.render) :
    (out'.map fun r => (Reply.train r, system.renumber ρ)).map
        (fun out => (out.1.render, out.2)) =
      ((out.map fun r => (Reply.train r, system)).map
        fun out => (out.1.render, out.2)).map
          fun out => (out.1, out.2.renumber ρ) := by
  have hmap := congrArg (Option.map fun text => (text, system.renumber ρ)) h
  rw [Option.map_map, Option.map_map] at hmap
  rw [Option.map_map, Option.map_map, Option.map_map]
  exact hmap

/-- A command prints the same under another numbering and leaves the same
state under that numbering. -/
theorem printed_renumber {ρ : Offset} (h : system.trains.Positive)
    (h' : (system.renumber ρ).trains.Positive)
    (hname : request.name ≠ .exit) :
    (system.renumber ρ).printed request =
      (system.printed request).map fun out => (out.1, out.2.renumber ρ) := by
  obtain ⟨name, line, uninit⟩ := request
  cases name
  case exit => exact absurd rfl hname
  case addUser =>
    exact printed_withAccounts
      (AccountManagement.addUserWith_renumber system.accounts ρ _)
  case login =>
    exact printed_withAccounts
      (AccountManagement.loginWith_renumber system.accounts ρ _)
  case logout =>
    exact printed_withAccounts
      (AccountManagement.logout_renumber system.accounts ρ line)
  case modifyProfile =>
    exact printed_withAccounts
      (AccountManagement.modifyProfileWith_renumber system.accounts ρ _)
  case addTrain =>
    exact printed_withTrains
      (TrainManagement.addTrainWith_renumber system.trains ρ _)
  case releaseTrain =>
    exact @printed_withTrains system ρ
      (some (system.trains.releaseTrain line)) _
      (congrArg some
        (TrainManagement.releaseTrain_renumber system.trains ρ line))
  case deleteTrain =>
    exact @printed_withTrains system ρ
      (some (system.trains.deleteTrain line)) _
      (congrArg some
        (TrainManagement.deleteTrain_renumber system.trains ρ line))
  case buyTicket =>
    exact printed_withTrains (TrainManagement.buyTicketWith_renumber
      system.trains ρ system.accounts _)
  case refundTicket =>
    exact printed_withTrains (TrainManagement.refundTicketWith_renumber
      system.trains ρ h h' system.accounts _)
  case queryTrain =>
    exact printed_query (congrArg (Option.map TrainReply.render)
      (TrainManagement.queryTrain_renumber system.trains ρ line))
  case queryTicket =>
    exact printed_query (congrArg (Option.map TrainReply.render)
      (TrainManagement.queryTicket_renumber system.trains ρ line))
  case queryTransfer =>
    exact printed_query (congrArg (Option.map TrainReply.render)
      (TrainManagement.queryTransfer_renumber system.trains ρ line))
  case queryOrder =>
    exact printed_query (TrainManagement.queryOrder_renumber system.trains ρ h
      h' system.accounts line)
  -- these do not look at orders at all
  case queryProfile => rfl
  case rollback => rfl
  case clean => rfl

/-! ## Runs -/

/-- The lines that a sequence of commands prints, up to the first one that
stops the program. -/
def replies (system : System) : List Request → List String
  | [] => []
  | request :: requests =>
      match system.printed request with
      | none => []
      | some (text, system') => text :: system'.replies requests

theorem replies_renumber {ρ : Offset} {requests : List Request}
    (h : system.trains.Positive)
    (h' : (system.renumber ρ).trains.Positive)
    (hnames : ∀ request ∈ requests, request.name ≠ .exit) :
    (system.renumber ρ).replies requests = system.replies requests := by
  induction requests generalizing system with
  | nil => rfl
  | cons request requests ih =>
      have hname := hnames request List.mem_cons_self
      have hrest := fun r hr => hnames r (List.mem_cons_of_mem request hr)
      have hprinted := printed_renumber h h' hname
      rw [replies, replies, hprinted]
      cases hout : system.printed request with
      | none => rfl
      | some out =>
          obtain ⟨text, next⟩ := out
          rw [hout] at hprinted
          obtain ⟨⟨reply, _⟩, hstep, heq⟩ := Option.map_eq_some_iff.mp hout
          obtain ⟨-, rfl⟩ := Prod.mk.inj heq
          obtain ⟨⟨reply', _⟩, hstep', heq'⟩ :=
            Option.map_eq_some_iff.mp hprinted
          obtain ⟨-, rfl⟩ := Prod.mk.inj heq'
          exact congrArg (List.cons text)
            (ih (positive_step h hname hstep) (positive_step h' hname hstep')
              hrest)

/-- How the numbers of a cleaned system are off from those of another one. -/
def offset (system other : System) : Offset where
  orders := other.trains.orderNum - system.trains.orderNum
  sizes
    | 0 => other.accounts.userDatabase.size - system.accounts.userDatabase.size
    | 1 => other.trains.trainDatabase.size - system.trains.trainDatabase.size
    | 2 =>
        other.trains.stationDatabase.size - system.trains.stationDatabase.size
    | 3 =>
        other.trains.daytrainDatabase.size -
          system.trains.daytrainDatabase.size
    | 4 => other.trains.orderDatabase.size - system.trains.orderDatabase.size
    | 5 =>
        other.trains.pendingOrderDatabase.size -
          system.trains.pendingOrderDatabase.size

/-- Two cleaned systems differ in their numbers only. -/
theorem clean_renumber (system other : System) :
    system.clean.renumber (offset system other) = other.clean := by
  have hadd : ∀ a b : ℤ, a + (b - a) = b := fun a b => by ring
  simp only [clean, renumber, AccountManagement.renumber,
    TrainManagement.renumber, offset, Index.clear, Index.resize, Index.rename,
    SortedMap.rename_empty, hadd]

theorem positive_clean (h : 0 ≤ system.trains.orderNum) :
    system.clean.trains.Positive := by
  refine ⟨h, ?_⟩
  intro key order hfind
  cases hfind

/-- Cleaned systems answer alike. -/
theorem replies_clean (other : System) (h : 0 ≤ system.trains.orderNum)
    (h' : 0 ≤ other.trains.orderNum) {requests : List Request}
    (hnames : ∀ request ∈ requests, request.name ≠ .exit) :
    other.clean.replies requests = system.clean.replies requests := by
  have hsame := clean_renumber system other
  rw [← hsame]
  apply replies_renumber (positive_clean h) _ hnames
  rw [hsame]
  exact positive_clean h'

/-- A new system is a cleaned one. -/
theorem clean_start (sizes : Fin 6 → ℤ) :
    (start (Databases.new sizes)).clean = start (Databases.new sizes) := rfl

end System

end TicketSystem.Backend
