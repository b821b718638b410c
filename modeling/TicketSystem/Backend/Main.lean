import TicketSystem.Backend.TrainManagement
import TicketSystem.Support.Machine

/-!
# The command loop

The program holds the accounts and the trains and executes one command line
after the other.  The databases outlive the process: `exit` ends it, and the
next process opens them as they were left, with nobody logged in and with the
number of the last order taken from the size of the order database.
-/

namespace TicketSystem.Backend

open TicketSystem.Support
open TicketSystem.Database

inductive CommandName where
  | addUser
  | login
  | logout
  | queryProfile
  | modifyProfile
  | addTrain
  | releaseTrain
  | queryTrain
  | deleteTrain
  | queryTicket
  | queryTransfer
  | buyTicket
  | queryOrder
  | refundTicket
  | rollback
  | clean
  | exit
  deriving DecidableEq

/-- The tests of `main` on the second token of a line. -/
def CommandName.ofString (s : String) : Option CommandName :=
  if s = "add_user" then some .addUser
  else if s = "login" then some .login
  else if s = "logout" then some .logout
  else if s = "query_profile" then some .queryProfile
  else if s = "modify_profile" then some .modifyProfile
  else if s = "add_train" then some .addTrain
  else if s = "release_train" then some .releaseTrain
  else if s = "query_train" then some .queryTrain
  else if s = "delete_train" then some .deleteTrain
  else if s = "query_ticket" then some .queryTicket
  else if s = "query_transfer" then some .queryTransfer
  else if s = "buy_ticket" then some .buyTicket
  else if s = "query_order" then some .queryOrder
  else if s = "refund_ticket" then some .refundTicket
  else if s = "rollback" then some .rollback
  else if s = "clean" then some .clean
  else if s = "exit" then some .exit
  else none

/-- A command line: its command, the tokens after it, and what the integers
that its handler leaves unset hold. -/
structure Request where
  name : CommandName
  line : List String
  uninit : ℤ := 0

/-- Read a command line; a line with an unknown command asks for nothing. -/
def Request.ofString (input : String) : Option Request :=
  let tokens := split input ' '
  (CommandName.ofString (nthToken tokens 1)).map fun name =>
    { name := name, line := tokens.drop 2 }

inductive Reply where
  | account (reply : AccountReply)
  | train (reply : TrainReply)
  | bye
  deriving DecidableEq

def Reply.render : Reply → String
  | account reply => reply.render
  | train reply => reply.render
  | bye => "bye"

/-- The globals of the program. -/
structure System where
  accounts : AccountManagement
  trains : TrainManagement

/-- The databases on the disk. -/
structure Databases where
  users : Index String User
  trains : Index String Train
  stations : Index DualString Station
  daytrains : Index StringAny DayTrain
  orders : Index StringAny Order
  pendingOrders : Index StringIntInt PendingOrder

/-- Databases on new files: empty, with what their counters happen to hold. -/
def Databases.new (sizes : Fin 6 → ℤ) : Databases where
  users := Index.new (sizes 0)
  trains := Index.new (sizes 1)
  stations := Index.new (sizes 2)
  daytrains := Index.new (sizes 3)
  orders := Index.new (sizes 4)
  pendingOrders := Index.new (sizes 5)

namespace System

/-- The constructors of the globals. -/
def start (files : Databases) : System where
  accounts :=
    { loginPool := SortedMap.empty
      userDatabase := files.users }
  trains :=
    { trainDatabase := files.trains
      stationDatabase := files.stations
      daytrainDatabase := files.daytrains
      orderDatabase := files.orders
      pendingOrderDatabase := files.pendingOrders
      orderNum := files.orders.size }

/-- What a process leaves on the disk. -/
def databases (system : System) : Databases where
  users := system.accounts.userDatabase
  trains := system.trains.trainDatabase
  stations := system.trains.stationDatabase
  daytrains := system.trains.daytrainDatabase
  orders := system.trains.orderDatabase
  pendingOrders := system.trains.pendingOrderDatabase

/-- `clean`: every database is cleared and everybody is logged out. -/
def clean (system : System) : System where
  accounts :=
    { loginPool := SortedMap.empty
      userDatabase := system.accounts.userDatabase.clear }
  trains :=
    { trainDatabase := system.trains.trainDatabase.clear
      stationDatabase := system.trains.stationDatabase.clear
      daytrainDatabase := system.trains.daytrainDatabase.clear
      orderDatabase := system.trains.orderDatabase.clear
      pendingOrderDatabase := system.trains.pendingOrderDatabase.clear
      orderNum := system.trains.orderNum }

/-- Answer of a handler of the accounts that may change them. -/
def withAccounts (system : System)
    (out : AccountReply × AccountManagement) : Reply × System :=
  (.account out.1, { system with accounts := out.2 })

/-- Answer of a handler of the trains that may change them. -/
def withTrains (system : System) (out : TrainReply × TrainManagement) :
    Reply × System :=
  (.train out.1, { system with trains := out.2 })

/-- One iteration of the command loop. -/
def step (system : System) (request : Request) : Option (Reply × System) :=
  let line := request.line
  match request.name with
  | .addUser =>
      some (system.withAccounts (system.accounts.addUser request.uninit line))
  | .login => some (system.withAccounts (system.accounts.login line))
  | .logout => some (system.withAccounts (system.accounts.logout line))
  | .queryProfile =>
      some (.account (system.accounts.queryProfile line), system)
  | .modifyProfile =>
      some (system.withAccounts (system.accounts.modifyProfile line))
  | .addTrain => (system.trains.addTrain line).map system.withTrains
  | .releaseTrain =>
      some (system.withTrains (system.trains.releaseTrain line))
  | .queryTrain =>
      (system.trains.queryTrain line).map fun r => (.train r, system)
  | .deleteTrain => some (system.withTrains (system.trains.deleteTrain line))
  | .queryTicket =>
      (system.trains.queryTicket line).map fun r => (.train r, system)
  | .queryTransfer =>
      (system.trains.queryTransfer line).map fun r => (.train r, system)
  | .buyTicket =>
      (system.trains.buyTicket system.accounts request.uninit line).map
        system.withTrains
  | .queryOrder =>
      (system.trains.queryOrder system.accounts line).map
        fun r => (.train r, system)
  | .refundTicket =>
      (system.trains.refundTicket system.accounts line).map system.withTrains
  | .rollback => some (.train .success, system)
  | .clean => some (.train .success, system.clean)
  | .exit => some (.bye, start system.databases)

end System

/-! ## Well-formed commands -/

/-- What the input promises about a new train: as many stations as it says,
no station twice, seats, and a sale window of two summer dates. -/
structure TrainArgs.WellFormed (args : TrainArgs) : Prop where
  two_le : 2 ≤ args.stationNum
  le_hundred : args.stationNum ≤ 100
  length_eq : ((split args.stations '|').length : ℤ) = args.stationNum
  nodup : (split args.stations '|').Nodup
  seatNum_pos : 0 < args.seatNum
  isDate_start : isDate 6 8 (nthToken (split args.saleDate '|') 0)
  isDate_end : isDate 6 8 (nthToken (split args.saleDate '|') 1)

instance (args : TrainArgs) : Decidable args.WellFormed :=
  decidable_of_iff (2 ≤ args.stationNum ∧ args.stationNum ≤ 100 ∧
      ((split args.stations '|').length : ℤ) = args.stationNum ∧
      (split args.stations '|').Nodup ∧ 0 < args.seatNum ∧
      isDate 6 8 (nthToken (split args.saleDate '|') 0) ∧
      isDate 6 8 (nthToken (split args.saleDate '|') 1))
    ⟨fun ⟨h₁, h₂, h₃, h₄, h₅, h₆, h₇⟩ => ⟨h₁, h₂, h₃, h₄, h₅, h₆, h₇⟩,
      fun ⟨h₁, h₂, h₃, h₄, h₅, h₆, h₇⟩ => ⟨h₁, h₂, h₃, h₄, h₅, h₆, h₇⟩⟩

/-- What the input promises about a command. -/
def Request.WellFormed (request : Request) : Prop :=
  match request.name with
  | .addTrain => (TrainArgs.ofLine request.line).WellFormed
  | .buyTicket => 0 < (BuyArgs.ofLine request.uninit request.line).num
  | .refundTicket => 0 < (RefundArgs.ofLine request.line).x
  | _ => True

instance (request : Request) : Decidable request.WellFormed := by
  unfold Request.WellFormed
  cases request.name <;> infer_instance

/-- The states of the runs on well-formed commands, from databases on new
files. -/
def System.Reachable (s : System) : Prop :=
  ∃ sizes, Reaches System.step (fun _ request => request.WellFormed)
    (System.start (Databases.new sizes)) s

/-- The state that a run on well-formed commands from new databases ends in
is reachable. -/
theorem System.reachable_of_runSteps {s : System} {requests : List Request}
    (hok : StepsOk System.step (fun _ request => request.WellFormed)
      (System.start (Databases.new fun _ => 0)) requests)
    (hrun : runSteps System.step (System.start (Databases.new fun _ => 0))
      requests = some s) : s.Reachable :=
  ⟨_, Reaches.runSteps .refl hok hrun⟩

end TicketSystem.Backend
