import TicketSystem.Backend.OrderSteps

/-!
# Commands that fail

A handler that answers `-1` has written nothing: its checks come before its
writes on every path.  The handlers of queries write nothing at all.
-/

namespace TicketSystem.Backend

open TicketSystem.Support
open TicketSystem.Database

/-! ## Accounts -/

namespace AccountManagement

variable {accounts : AccountManagement} {args : AccountArgs}

theorem addUserWith_of_failure
    (h : (accounts.addUserWith args).1 = .failure) :
    (accounts.addUserWith args).2 = accounts := by
  by_cases hempty : accounts.userDatabase.isEmpty
  · simp [addUserWith, hempty] at h
  cases hcur : accounts.loginPool.find? args.cur with
  | none => simp [addUserWith, hempty, hcur]
  | some curPrivilege =>
      by_cases hguard : curPrivilege ≤ args.privilege ∨
          accounts.userDatabase.searchKey args.username ≠ []
      · simp only [addUserWith, hempty, hcur, if_pos hguard,
          Bool.false_eq_true, if_false]
      · simp only [addUserWith, hempty, hcur, if_neg hguard,
          Bool.false_eq_true, if_false] at h
        cases h

theorem loginWith_of_failure (h : (accounts.loginWith args).1 = .failure) :
    (accounts.loginWith args).2 = accounts := by
  unfold loginWith at h ⊢
  cases hans : accounts.userDatabase.searchKey args.username with
  | nil => rfl
  | cons user _ =>
      simp only [hans] at h ⊢
      split_ifs at h ⊢ <;> rfl

theorem logout_of_failure {line : List String}
    (h : (accounts.logout line).1 = .failure) :
    (accounts.logout line).2 = accounts := by
  simp only [logout] at h ⊢
  split_ifs at h ⊢
  rfl

theorem modifyProfileWith_of_failure
    (h : (accounts.modifyProfileWith args).1 = .failure) :
    (accounts.modifyProfileWith args).2 = accounts := by
  unfold modifyProfileWith at h ⊢
  cases hans : accounts.userDatabase.searchKey args.username with
  | nil => rfl
  | cons u _ =>
      cases hcur : accounts.loginPool.find? args.cur with
      | none => rfl
      | some curPrivilege =>
          simp only [hans, hcur] at h ⊢
          split_ifs at h ⊢
          rfl

end AccountManagement

/-! ## Trains -/

namespace TrainManagement

variable {trains trains' : TrainManagement} {accounts : AccountManagement}

theorem addTrainWith_of_failure {args : TrainArgs}
    (h : trains.addTrainWith args = some (.failure, trains')) :
    trains' = trains := by
  unfold addTrainWith at h
  split_ifs at h
  · cases h
    rfl
  · obtain ⟨newTrain, -, heq⟩ := Option.bind_eq_some_iff.mp h
    cases heq

theorem releaseTrain_of_failure {line : List String}
    (h : (trains.releaseTrain line).1 = .failure) :
    (trains.releaseTrain line).2 = trains := by
  unfold releaseTrain at h ⊢
  dsimp only at h ⊢
  cases hans : trains.trainDatabase.searchKey (nthToken line 1) with
  | nil => rfl
  | cons targetTrain _ =>
      simp only [hans] at h ⊢
      split_ifs at h ⊢
      rfl

theorem deleteTrain_of_failure {line : List String}
    (h : (trains.deleteTrain line).1 = .failure) :
    (trains.deleteTrain line).2 = trains := by
  unfold deleteTrain at h ⊢
  dsimp only at h ⊢
  cases hans : trains.trainDatabase.searchKey (nthToken line 1) with
  | nil => rfl
  | cons targetTrain _ =>
      simp only [hans] at h ⊢
      split_ifs at h ⊢
      rfl

/-- An order that is placed is bought or waits. -/
theorem placeOrder_ne_failure (newOrder : Order) (tp : DayTrain) :
    (trains.placeOrder newOrder tp).1 ≠ .failure := by
  unfold placeOrder
  split <;> exact fun h => by cases h

theorem buyTicketWith_of_failure {args : BuyArgs}
    (h : trains.buyTicketWith accounts args = some (.failure, trains')) :
    trains' = trains := by
  rcases buyTicketWith_cases h with
    ⟨-, rfl⟩ | ⟨train, startDay, s, t, d, -, -, -, hplace⟩
  · rfl
  · exact absurd (congrArg Prod.fst hplace).symm (placeOrder_ne_failure _ _)

/-- A refund of a known order succeeds. -/
theorem refundOrder_ne_failure {userName : String} {order : Order} :
    trains.refundOrder userName order ≠ some (.failure, trains') := by
  intro h
  unfold refundOrder at h
  by_cases hstatus : order.status = .pending
  · rw [if_pos hstatus] at h
    cases h
  · rw [if_neg hstatus] at h
    cases hday : trains.daytrainDatabase.searchKey order.dayKey with
    | nil =>
        rw [hday] at h
        cases h
    | cons daytrain _ =>
        simp only [hday, Option.bind_eq_bind, Option.bind_eq_some_iff] at h
        obtain ⟨_, -, _, -, heq⟩ := h
        cases heq

theorem refundTicketWith_of_failure {args : RefundArgs}
    (h : trains.refundTicketWith accounts args = some (.failure, trains')) :
    trains' = trains := by
  unfold refundTicketWith at h
  by_cases hlogin : (accounts.loginPool.find? args.userName).isNone
  · rw [if_pos hlogin] at h
    cases h
    rfl
  rw [if_neg hlogin] at h
  obtain ⟨orders, -, h⟩ := Option.bind_eq_some_iff.mp h
  by_cases hnil : orders = []
  · rw [if_pos hnil] at h
    cases h
  rw [if_neg hnil] at h
  by_cases hlen : (orders.length : ℤ) < args.x
  · rw [if_pos hlen] at h
    cases h
    rfl
  rw [if_neg hlen] at h
  obtain ⟨order, -, h⟩ := Option.bind_eq_some_iff.mp h
  by_cases hstatus : order.status = .refunded
  · rw [if_pos hstatus] at h
    cases h
    rfl
  · rw [if_neg hstatus] at h
    exact absurd h refundOrder_ne_failure

end TrainManagement

/-! ## The system -/

/-- The reply is `-1`. -/
def Reply.IsFailure (reply : Reply) : Prop :=
  reply = .account .failure ∨ reply = .train .failure

/-- The commands that only ask. -/
def CommandName.IsQuery (name : CommandName) : Prop :=
  name ∈ [.queryProfile, .queryTrain, .queryTicket, .queryTransfer,
    .queryOrder]

instance (name : CommandName) : Decidable name.IsQuery :=
  inferInstanceAs (Decidable (name ∈ _))

namespace System

variable {system system' : System} {reply : Reply}

theorem eq_of_withAccounts {out : AccountReply × AccountManagement}
    (h : some (system.withAccounts out) = some (reply, system'))
    (hfail : reply.IsFailure)
    (hsame : out.1 = .failure → out.2 = system.accounts) :
    system' = system := by
  obtain ⟨rfl, rfl⟩ := Prod.mk.inj (Option.some.inj h)
  rcases hfail with hfail | hfail
  · rw [hsame (Reply.account.inj hfail)]
  · cases hfail

theorem eq_of_withTrains {out : Option (TrainReply × TrainManagement)}
    (h : out.map system.withTrains = some (reply, system'))
    (hfail : reply.IsFailure)
    (hsame : ∀ trains', out = some (.failure, trains') →
      trains' = system.trains) : system' = system := by
  obtain ⟨⟨reply', trains'⟩, hout, heq⟩ := Option.map_eq_some_iff.mp h
  obtain ⟨rfl, rfl⟩ := Prod.mk.inj heq
  rcases hfail with hfail | hfail
  · cases hfail
  · obtain rfl := Reply.train.inj hfail
    rw [hsame trains' hout]

theorem eq_of_query {out : Option TrainReply}
    (h : out.map (fun r => (Reply.train r, system)) =
      some (reply, system')) : system' = system := by
  obtain ⟨r, -, heq⟩ := Option.map_eq_some_iff.mp h
  exact (Prod.mk.inj heq).2.symm

end System

end TicketSystem.Backend
