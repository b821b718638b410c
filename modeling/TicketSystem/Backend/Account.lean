import TicketSystem.Backend.Command
import TicketSystem.Backend.Library
import TicketSystem.Database.Index

/-!
# Accounts

`AccountManagement` keeps the registered users in an index and the users that
are logged in, with the privilege they had when they logged in, in a map.  A
local integer that a handler may read before writing it is a parameter
`uninit`: the value its memory happens to hold.
-/

namespace TicketSystem.Backend

open TicketSystem.Support
open TicketSystem.Database

/-- `User`. -/
structure User where
  userName : String
  password : String
  mailAddr : String
  name : String
  privilege : ℤ
  deriving DecidableEq

/-- `AccountManagement`. -/
structure AccountManagement where
  loginPool : SortedMap String ℤ
  userDatabase : Index String User

/-- What the account handlers answer. -/
inductive AccountReply where
  /-- `-1` -/
  | failure
  /-- `0` -/
  | success
  /-- The line that shows a user. -/
  | profile (user : User)
  deriving DecidableEq

def AccountReply.render : AccountReply → String
  | failure => "-1"
  | success => "0"
  | profile u =>
      u.userName ++ " " ++ u.name ++ " " ++ u.mailAddr ++ " " ++
        toString u.privilege

/-- The options of the account handlers. -/
structure AccountArgs where
  cur : String := ""
  username : String := ""
  password : String := ""
  name : String := ""
  mail : String := ""
  privilege : ℤ

namespace AccountArgs

/-- The branches of the option loop of `add_user` and `modify_profile`; every
option that is not listed sets the privilege. -/
def readProfileOption (args : AccountArgs) (opt : String) :
    Option (String → AccountArgs) :=
  if opt = "-c" then some fun v => { args with cur := v }
  else if opt = "-u" then some fun v => { args with username := v }
  else if opt = "-p" then some fun v => { args with password := v }
  else if opt = "-n" then some fun v => { args with name := v }
  else if opt = "-m" then some fun v => { args with mail := v }
  else some fun v => { args with privilege := stringToInt v }

/-- The branches of the option loop of `login`. -/
def readLoginOption (args : AccountArgs) (opt : String) :
    Option (String → AccountArgs) :=
  if opt = "-u" then some fun v => { args with username := v }
  else some fun v => { args with password := v }

/-- The branches of the option loop of `query_profile`. -/
def readQueryOption (args : AccountArgs) (opt : String) :
    Option (String → AccountArgs) :=
  if opt = "-c" then some fun v => { args with cur := v }
  else some fun v => { args with username := v }

end AccountArgs

namespace AccountManagement

/-- `add_user` on its parsed options. -/
def addUserWith (accounts : AccountManagement) (args : AccountArgs) :
    AccountReply × AccountManagement :=
  let ans := accounts.userDatabase.searchKey args.username
  let register := fun privilege =>
    { accounts with
      userDatabase := accounts.userDatabase.insertEntry args.username
        { userName := args.username, name := args.name,
          mailAddr := args.mail, password := args.password,
          privilege := privilege } }
  if accounts.userDatabase.isEmpty then (.success, register 10)
  else
    match accounts.loginPool.find? args.cur with
    | none => (.failure, accounts)
    | some curPrivilege =>
        if curPrivilege ≤ args.privilege ∨ ans ≠ [] then
          (.failure, accounts)
        else (.success, register args.privilege)

/-- `add_user`.  Without an option for it, the privilege is whatever its
memory holds. -/
def addUser (accounts : AccountManagement) (uninit : ℤ)
    (line : List String) : AccountReply × AccountManagement :=
  accounts.addUserWith
    (parseOptions AccountArgs.readProfileOption { privilege := uninit } line)

/-- `login` on its parsed options. -/
def loginWith (accounts : AccountManagement) (args : AccountArgs) :
    AccountReply × AccountManagement :=
  match accounts.userDatabase.searchKey args.username with
  | [] => (.failure, accounts)
  | user :: _ =>
      if (accounts.loginPool.find? args.username).isSome then
        (.failure, accounts)
      else if user.password ≠ args.password then (.failure, accounts)
      else
        (.success,
          { accounts with
            loginPool :=
              accounts.loginPool.insert args.username user.privilege })

/-- `login`. -/
def login (accounts : AccountManagement) (line : List String) :
    AccountReply × AccountManagement :=
  accounts.loginWith
    (parseOptions AccountArgs.readLoginOption { privilege := 0 } line)

/-- `logout`: the second token is the user name. -/
def logout (accounts : AccountManagement) (line : List String) :
    AccountReply × AccountManagement :=
  let username := nthToken line 1
  if (accounts.loginPool.find? username).isNone then (.failure, accounts)
  else
    (.success,
      { accounts with loginPool := accounts.loginPool.erase username })

/-- The fields that `modify_profile` replaces; an empty string or a zero
privilege keeps what is stored. -/
def updatedUser (u : User) (args : AccountArgs) : User where
  userName := u.userName
  password := if args.password = "" then u.password else args.password
  name := if args.name = "" then u.name else args.name
  mailAddr := if args.mail = "" then u.mailAddr else args.mail
  privilege := if args.privilege = 0 then u.privilege else args.privilege

/-- `modify_profile` on its parsed options. -/
def modifyProfileWith (accounts : AccountManagement) (args : AccountArgs) :
    AccountReply × AccountManagement :=
  match accounts.userDatabase.searchKey args.username with
  | [] => (.failure, accounts)
  | u :: _ =>
      match accounts.loginPool.find? args.cur with
      | none => (.failure, accounts)
      | some curPrivilege =>
          if (curPrivilege ≤ u.privilege ∧ args.cur ≠ args.username) ∨
              curPrivilege ≤ args.privilege then
            (.failure, accounts)
          else
            (.profile (updatedUser u args),
              { accounts with
                userDatabase := accounts.userDatabase.insertEntry
                  args.username (updatedUser u args) })

/-- `modify_profile`.  The privilege starts at zero. -/
def modifyProfile (accounts : AccountManagement) (line : List String) :
    AccountReply × AccountManagement :=
  accounts.modifyProfileWith
    (parseOptions AccountArgs.readProfileOption { privilege := 0 } line)

/-- `query_profile` on its parsed options. -/
def queryProfileWith (accounts : AccountManagement) (args : AccountArgs) :
    AccountReply :=
  match accounts.userDatabase.searchKey args.username with
  | [] => .failure
  | u :: _ =>
      match accounts.loginPool.find? args.cur with
      | none => .failure
      | some curPrivilege =>
          if curPrivilege ≤ u.privilege ∧ args.cur ≠ args.username then
            .failure
          else .profile u

/-- `query_profile`. -/
def queryProfile (accounts : AccountManagement) (line : List String) :
    AccountReply :=
  accounts.queryProfileWith
    (parseOptions AccountArgs.readQueryOption { privilege := 0 } line)

end AccountManagement

end TicketSystem.Backend
