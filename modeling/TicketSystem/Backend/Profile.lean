import TicketSystem.Backend.Privileges

/-!
# Changing a profile

A `modify_profile` request may leave out every field it does not change.  The
handler starts from empty strings and from the privilege zero and takes these
for fields that are not given, so that it cannot tell a given zero from no
privilege at all.  Where the difference does not matter, it does what the
request asks for.
-/

namespace TicketSystem.Backend

open TicketSystem.Support
open TicketSystem.Database

/-! ## Requests -/

/-- A `modify_profile` request: its options in any order, each at most once
and with a value, two of them for the acting user and the user to change. -/
structure ProfileRequest where
  options : List (String × String)
  cur : String
  username : String
  known : ∀ o ∈ options, o.1 ∈ ["-c", "-u", "-p", "-n", "-m", "-g"]
  nodup : (options.map Prod.fst).Nodup
  value_ne : ∀ o ∈ options, o.2 ≠ ""
  cur_eq : options.lookup "-c" = some cur
  username_eq : options.lookup "-u" = some username
  privilege_mem : ∀ v, options.lookup "-g" = some v →
    0 ≤ stringToInt v ∧ stringToInt v ≤ 10

namespace ProfileRequest

variable (request : ProfileRequest)

/-- The tokens after the name of the command. -/
def line : List String := request.options.flatMap fun o => [o.1, o.2]

def password : Option String := request.options.lookup "-p"

def name : Option String := request.options.lookup "-n"

def mail : Option String := request.options.lookup "-m"

def privilege : Option ℤ := (request.options.lookup "-g").map stringToInt

/-- The record with exactly the given fields replaced. -/
def replaced (u : User) : User where
  userName := u.userName
  password := request.password.getD u.password
  name := request.name.getD u.name
  mailAddr := request.mail.getD u.mailAddr
  privilege := request.privilege.getD u.privilege

end ProfileRequest

namespace AccountManagement

variable (accounts : AccountManagement) (request : ProfileRequest) (u : User)

/-- The acting user is logged in, stands above the user to change or is the
same, and above the privilege that is given. -/
def MayReplace : Prop :=
  ∃ p, (accounts.loginPool.find? request.cur).isSome ∧
    accounts.storedPrivilege request.cur = some p ∧
    (u.privilege < p ∨ request.cur = request.username) ∧
    ∀ v ∈ request.privilege, v < p

/-- `modify_profile` does what the request asks for: it succeeds if the acting
user may do it, and then replaces the given fields of this user only. -/
structure ModifiesAsAsked : Prop where
  succeeds_iff : (accounts.modifyProfile request.line).1 ≠ .failure ↔
    accounts.MayReplace request u
  replaces : (accounts.modifyProfile request.line).1 ≠ .failure →
    (accounts.modifyProfile request.line).1 =
        .profile (request.replaced u) ∧
      (accounts.modifyProfile request.line).2.loginPool =
        accounts.loginPool ∧
      ∀ name, (accounts.modifyProfile
        request.line).2.userDatabase.map.find? name =
          if name = request.username then some (request.replaced u)
          else accounts.userDatabase.map.find? name

/-- An acting user who may change this user has a privilege above zero if the
request gives none, and a request for the privilege zero finds it there. -/
def ZeroIsClear : Prop :=
  ∀ p, accounts.loginPool.find? request.cur = some p →
    (u.privilege < p ∨ request.cur = request.username) →
      match request.privilege with
      | none => p ≠ 0
      | some v => v = 0 → p ≠ 0 → u.privilege = 0

end AccountManagement

/-! ## Reading the options -/

/-- Options that are given once are all read. -/
theorem parseOptions_profile (args : AccountArgs)
    (options : List (String × String))
    (hknown : ∀ o ∈ options, o.1 ∈ ["-c", "-u", "-p", "-n", "-m", "-g"])
    (hnodup : (options.map Prod.fst).Nodup) :
    parseOptions AccountArgs.readProfileOption args
        (options.flatMap fun o => [o.1, o.2]) =
      { cur := (options.lookup "-c").getD args.cur
        username := (options.lookup "-u").getD args.username
        password := (options.lookup "-p").getD args.password
        name := (options.lookup "-n").getD args.name
        mail := (options.lookup "-m").getD args.mail
        privilege :=
          ((options.lookup "-g").map stringToInt).getD args.privilege } := by
  induction options generalizing args with
  | nil => rfl
  | cons o options ih =>
      obtain ⟨opt, value⟩ := o
      rw [List.map_cons, List.nodup_cons] at hnodup
      have hrest := fun args => ih args
        (fun o ho => hknown o (List.mem_cons_of_mem _ ho)) hnodup.2
      have hnone : options.lookup opt = none := by
        rw [List.lookup_eq_none_iff]
        intro o ho
        apply bne_iff_ne.mpr
        rintro rfl
        exact hnodup.1 (List.mem_map.mpr ⟨o, ho, rfl⟩)
      have hopt := hknown _ List.mem_cons_self
      simp only [List.mem_cons, List.not_mem_nil, or_false] at hopt
      rcases hopt with rfl | rfl | rfl | rfl | rfl | rfl
      all_goals
        simp [parseOptions, AccountArgs.readProfileOption, hrest, hnone,
          List.lookup_cons]

/-- A value that is given is not empty. -/
theorem ProfileRequest.lookup_ne (request : ProfileRequest) (opt : String) :
    request.options.lookup opt ≠ some "" := by
  intro h
  obtain ⟨l₁, l₂, heq, -⟩ := List.lookup_eq_some_iff.mp h
  apply request.value_ne (opt, "")
  · rw [heq]
    simp
  · rfl

/-- An empty string stands for a field that is not given. -/
theorem getD_eq_ite {value : Option String} (h : value ≠ some "")
    (stored : String) :
    value.getD stored =
      if value.getD "" = "" then stored else value.getD "" := by
  cases value with
  | none => simp
  | some v =>
      have hne : v ≠ "" := fun hv => h (congrArg some hv)
      simp [hne]

section Handler

variable {accounts : AccountManagement} {request : ProfileRequest} {u : User}

/-- What the handler reads. -/
def ProfileRequest.args (request : ProfileRequest) : AccountArgs where
  cur := request.cur
  username := request.username
  password := request.password.getD ""
  name := request.name.getD ""
  mail := request.mail.getD ""
  privilege := request.privilege.getD 0

theorem modifyProfile_line :
    accounts.modifyProfile request.line =
      accounts.modifyProfileWith request.args := by
  rw [AccountManagement.modifyProfile, ProfileRequest.line,
    parseOptions_profile _ _ request.known request.nodup, request.cur_eq,
    request.username_eq]
  rfl

/-- The handler replaces what is given, but for a privilege of zero. -/
theorem updatedUser_eq_replaced_iff :
    AccountManagement.updatedUser u request.args = request.replaced u ↔
      (request.privilege = some 0 → u.privilege = 0) := by
  have hpassword := getD_eq_ite (request.lookup_ne "-p") u.password
  have hname := getD_eq_ite (request.lookup_ne "-n") u.name
  have hmail := getD_eq_ite (request.lookup_ne "-m") u.mailAddr
  have hfields : AccountManagement.updatedUser u request.args =
      { request.replaced u with
        privilege := if request.privilege.getD 0 = 0 then u.privilege
          else request.privilege.getD 0 } := by
    simp only [AccountManagement.updatedUser, ProfileRequest.args,
      ProfileRequest.replaced]
    congr 1
    · exact hpassword.symm
    · exact hmail.symm
    · exact hname.symm
  rw [hfields]
  cases hprivilege : request.privilege with
  | none =>
      refine iff_of_true ?_ (fun h => by cases h)
      simp [ProfileRequest.replaced, hprivilege]
  | some v =>
      simp only [Option.getD_some, Option.some.injEq]
      by_cases hv : v = 0
      · simp [ProfileRequest.replaced, hprivilege, hv]
      · simp [ProfileRequest.replaced, hprivilege, hv]

/-- `modify_profile` does what the request asks for exactly when the privilege
zero is clear. -/
theorem modifiesAsAsked_iff (hcached : accounts.CachedPrivileges)
    (hrange : ∀ name user,
      accounts.userDatabase.map.find? name = some user →
        0 ≤ user.privilege ∧ user.privilege ≤ 10)
    (hu : accounts.userDatabase.map.find? request.username = some u) :
    accounts.ModifiesAsAsked request u ↔ accounts.ZeroIsClear request u := by
  have hcur : ∀ {p}, accounts.loginPool.find? request.cur = some p →
      accounts.storedPrivilege request.cur = some p ∧ 0 ≤ p := by
    intro p hp
    have hstored := hcached _ _ hp
    obtain ⟨user, huser, rfl⟩ := Option.map_eq_some_iff.mp hstored
    exact ⟨hstored, (hrange _ _ huser).1⟩
  rcases AccountManagement.modifyProfileWith_cases accounts request.args with
    ⟨hfail, hnot⟩ | ⟨u', p, ⟨hu', hp, hright, hless⟩, hmod⟩
  · have hasked : accounts.ModifiesAsAsked request u ↔
        ¬ accounts.MayReplace request u := by
      constructor
      · intro h hmay
        exact h.succeeds_iff.mpr hmay (by rw [modifyProfile_line, hfail])
      · intro hmay
        refine ⟨iff_of_false ?_ hmay, fun h => absurd ?_ h⟩
        · rw [modifyProfile_line, hfail]
          exact fun h => h rfl
        · rw [modifyProfile_line, hfail]
    rw [hasked]
    constructor
    · intro hmay p hp hright
      obtain ⟨hstored, hpos⟩ := hcur hp
      have hlogged : (accounts.loginPool.find? request.cur).isSome :=
        Option.isSome_of_eq_some hp
      cases hprivilege : request.privilege with
      | none =>
          rintro -
          exact hmay ⟨p, hlogged, hstored, hright, by simp [hprivilege]⟩
      | some v =>
          rintro rfl hne
          refine absurd ⟨p, hlogged, hstored, hright, ?_⟩ hmay
          intro v hv
          rw [hprivilege] at hv
          obtain rfl := Option.some.inj hv
          exact lt_of_le_of_ne hpos hne.symm
    · rintro hclear ⟨p, hlogged, hstored, hright, hlt⟩
      obtain ⟨p', hp'⟩ := Option.isSome_iff_exists.mp hlogged
      obtain ⟨hstored', hpos⟩ := hcur hp'
      obtain rfl := Option.some.inj (hstored'.symm.trans hstored)
      have hzero := hclear p' hp' hright
      refine hnot u p' ⟨hu, hp', hright, ?_⟩
      cases hprivilege : request.privilege with
      | none =>
          rw [hprivilege] at hzero
          rw [ProfileRequest.args, hprivilege]
          exact lt_of_le_of_ne hpos (Ne.symm hzero)
      | some v =>
          rw [ProfileRequest.args, hprivilege]
          exact hlt v (by simp [hprivilege])
  · obtain rfl := Option.some.inj (hu.symm.trans hu')
    have hmay : accounts.MayReplace request u := by
      refine ⟨p, Option.isSome_of_eq_some hp, (hcur hp).1, hright, ?_⟩
      intro v hv
      have hargs : request.args.privilege = v := by
        rw [ProfileRequest.args, Option.mem_def.mp hv]
        rfl
      exact hargs ▸ hless
    have hasked : accounts.ModifiesAsAsked request u ↔
        AccountManagement.updatedUser u request.args =
          request.replaced u := by
      constructor
      · intro h
        have hreply := (h.replaces (h.succeeds_iff.mpr hmay)).1
        rw [modifyProfile_line, hmod] at hreply
        exact AccountReply.profile.inj hreply
      · intro heq
        rw [heq] at hmod
        refine ⟨iff_of_true ?_ hmay, fun _ => ?_⟩
        · rw [modifyProfile_line, hmod]
          exact fun h => by cases h
        · rw [modifyProfile_line, hmod]
          exact ⟨rfl, rfl, fun name => SortedMap.find?_insert _ _ _ _⟩
    rw [hasked, updatedUser_eq_replaced_iff]
    constructor
    · intro h p' hp' _
      obtain rfl := Option.some.inj (hp.symm.trans hp')
      cases hprivilege : request.privilege with
      | none =>
          rw [ProfileRequest.args, hprivilege] at hless
          exact hless.ne'
      | some v =>
          rintro rfl -
          exact h hprivilege
    · intro hclear hprivilege
      have hzero := hclear p hp hright
      rw [ProfileRequest.args, hprivilege] at hless
      rw [hprivilege] at hzero
      exact hzero rfl hless.ne'

end Handler

/-! ## Two users -/

/-- The first user logs in and adds another one. -/
def twoUsers : List Request :=
  [⟨.addUser, ["-u", "root", "-p", "a", "-n", "Root", "-m", "r"], 0⟩,
    ⟨.login, ["-u", "root", "-p", "a"], 0⟩,
    ⟨.addUser, ["-c", "root", "-u", "bob", "-p", "b", "-n", "Bob", "-m", "m",
      "-g", "5"], 0⟩]

/-- The record of the second user. -/
def bob : User := ⟨"bob", "b", "m", "Bob", 5⟩

/-- The state after it: its privileges are current and within range. -/
theorem exists_twoUsers :
    ∃ s : System, s.Reachable ∧ s.accounts.CachedPrivileges ∧
      (∀ name user, s.accounts.userDatabase.map.find? name = some user →
        0 ≤ user.privilege ∧ user.privilege ≤ 10) ∧
      s.accounts.userDatabase.map.find? "bob" = some bob ∧
      s.accounts.loginPool.find? "root" = some 10 ∧
      (s.accounts.modifyProfile ["-c", "root", "-u", "bob", "-g", "0"]).1 =
        .profile bob := by
  have hrun : ((runSteps System.step
      (System.start (Databases.new fun _ => 0)) twoUsers).map fun s =>
        (s.accounts.loginPool.entries, s.accounts.userDatabase.map.entries,
          (s.accounts.modifyProfile
            ["-c", "root", "-u", "bob", "-g", "0"]).1)) =
      some ([("root", 10)],
        [("bob", bob), ("root", ⟨"root", "a", "r", "Root", 10⟩)],
        .profile bob) := by
    decide
  obtain ⟨s, hs, hfacts⟩ := Option.map_eq_some_iff.mp hrun
  obtain ⟨hpool, hrest⟩ := Prod.mk.inj hfacts
  obtain ⟨husers, hreply⟩ := Prod.mk.inj hrest
  have hok : StepsOk System.step (fun _ request => request.WellFormed)
      (System.start (Databases.new fun _ => 0)) twoUsers := by
    decide
  have hfind : ∀ {name user},
      s.accounts.userDatabase.map.find? name = some user ↔
        (name, user) = ("bob", bob) ∨
          (name, user) = ("root", ⟨"root", "a", "r", "Root", 10⟩) := by
    intro name user
    rw [SortedMap.find?_eq_some_iff, husers]
    simp
  have hlogged : ∀ {name p}, s.accounts.loginPool.find? name = some p ↔
      (name, p) = ("root", 10) := by
    intro name p
    rw [SortedMap.find?_eq_some_iff, hpool]
    simp
  refine ⟨s, System.reachable_of_runSteps hok hs, ?_, ?_,
    hfind.mpr (Or.inl rfl), hlogged.mpr rfl, hreply⟩
  · intro name p hp
    obtain ⟨rfl, rfl⟩ := Prod.mk.inj (hlogged.mp hp)
    rw [AccountManagement.storedPrivilege, hfind.mpr (Or.inr rfl)]
    rfl
  · intro name user huser
    rcases hfind.mp huser with h | h
    · obtain ⟨-, rfl⟩ := Prod.mk.inj h
      decide
    · obtain ⟨-, rfl⟩ := Prod.mk.inj h
      decide

/-- The first user gives the second one another name and privilege. -/
theorem modifiesAsAsked_iff_twoUsers :
    ∃ (s : System) (request : ProfileRequest),
      request.line = ["-c", "root", "-u", "bob", "-n", "Rob", "-g", "3"] ∧
      s.Reachable ∧ s.accounts.ModifiesAsAsked request bob := by
  obtain ⟨s, hreach, hcached, hrange, hbob, hroot, -⟩ := exists_twoUsers
  refine ⟨s, ⟨[("-c", "root"), ("-u", "bob"), ("-n", "Rob"), ("-g", "3")],
    "root", "bob", by decide, by decide, by decide, rfl, rfl, ?_⟩, rfl,
    hreach, ?_⟩
  · intro v hv
    obtain rfl : v = "3" := (Option.some.inj hv).symm
    decide
  · refine (modifiesAsAsked_iff hcached hrange hbob).mpr ?_
    intro p _ _ hv
    exact absurd hv (by decide)

/-- The first user takes the privilege of the second one away. -/
def takeAway : ProfileRequest where
  options := [("-c", "root"), ("-u", "bob"), ("-g", "0")]
  cur := "root"
  username := "bob"
  known := by decide
  nodup := by decide
  value_ne := by decide
  cur_eq := rfl
  username_eq := rfl
  privilege_mem := by
    intro v hv
    obtain rfl : v = "0" := (Option.some.inj hv).symm
    decide

/-- A request for the privilege zero leaves the privilege as it was. -/
theorem not_always_modifiesAsAsked :
    ¬ ∀ s : System, s.Reachable → s.accounts.CachedPrivileges →
      (∀ name user, s.accounts.userDatabase.map.find? name = some user →
        0 ≤ user.privilege ∧ user.privilege ≤ 10) →
      ∀ (request : ProfileRequest) (u : User),
        s.accounts.userDatabase.map.find? request.username = some u →
          s.accounts.ModifiesAsAsked request u := by
  intro hall
  obtain ⟨s, hreach, hcached, hrange, hbob, -, hreply⟩ := exists_twoUsers
  have hasked := hall s hreach hcached hrange takeAway bob hbob
  have hreply' : (s.accounts.modifyProfile takeAway.line).1 =
      .profile bob := hreply
  have hne : (s.accounts.modifyProfile takeAway.line).1 ≠ .failure := by
    rw [hreply']
    exact fun h => by cases h
  have hsame := AccountReply.profile.inj
    (hreply'.symm.trans (hasked.replaces hne).1)
  exact absurd (congrArg User.privilege hsame) (by decide)

end TicketSystem.Backend
