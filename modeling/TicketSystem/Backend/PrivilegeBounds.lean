import TicketSystem.Backend.Privileges

/-!
# How high privileges go

Since the databases were last empty only the first user that was added can
have the privilege ten.  Every other privilege comes from somebody who had a
higher one, and the login cache, right or not, holds privileges that were
stored at some time.
-/

namespace TicketSystem.Backend

open TicketSystem.Support
open TicketSystem.Database

/-- What `add_user` reads from a request. -/
def Request.addUserArgs (request : Request) : AccountArgs :=
  parseOptions AccountArgs.readProfileOption { privilege := request.uninit }
    request.line

/-- What `modify_profile` reads from a request. -/
def Request.modifyProfileArgs (request : Request) : AccountArgs :=
  parseOptions AccountArgs.readProfileOption { privilege := 0 } request.line

/-- The user that a request adds if there is none yet. -/
def Request.firstUser (request : Request) : Option String :=
  if request.name = .addUser then some request.addUserArgs.username else none

/-- The user of the first `add_user` of a run. -/
def firstAdded (requests : List Request) : Option String :=
  requests.findSome? Request.firstUser

namespace AccountManagement

/-- Only `first` has the privilege ten, stored or cached, and nobody has
more. -/
structure Bounded (first : Option String) (accounts : AccountManagement) :
    Prop where
  stored : ∀ name u, accounts.userDatabase.map.find? name = some u →
    u.privilege ≤ 10 ∧ (u.privilege = 10 → first = some name)
  cached : ∀ name p, accounts.loginPool.find? name = some p →
    p ≤ 10 ∧ (p = 10 → first = some name)
  first_isSome : ∀ name, first = some name →
    (accounts.userDatabase.map.find? name).isSome
  isEmpty_of_none : first = none → accounts.userDatabase.isEmpty

variable {accounts : AccountManagement} {first : Option String}
  {args : AccountArgs}

/-- Without users nobody is the first one. -/
theorem Bounded.eq_none (h : accounts.Bounded first)
    (hempty : accounts.userDatabase.isEmpty) : first = none := by
  cases hfirst : first with
  | none => rfl
  | some name =>
      have hsome := h.first_isSome name hfirst
      rw [(Index.isEmpty_iff _).mp hempty] at hsome
      cases hsome

theorem bounded_of_empty {users : Index String User}
    (hempty : users.isEmpty) :
    (AccountManagement.mk SortedMap.empty users).Bounded none := by
  refine ⟨?_, ?_, ?_, fun _ => hempty⟩
  · intro name u hu
    rw [(Index.isEmpty_iff _).mp hempty] at hu
    cases hu
  · intro name p hp
    cases hp
  · intro name hname
    cases hname

/-- A record of at most nine is written, or the one of the first user. -/
theorem Bounded.insertEntry (h : accounts.Bounded first) {name : String}
    {u : User} (hle : u.privilege ≤ 10)
    (hten : u.privilege = 10 → first = some name) (hsome : first ≠ none) :
    ({ accounts with
      userDatabase := accounts.userDatabase.insertEntry name u } :
        AccountManagement).Bounded first := by
  refine ⟨?_, h.cached, ?_, fun hnone => absurd hnone hsome⟩
  · intro name' u' hu'
    rw [Index.map_insertEntry, SortedMap.find?_insert] at hu'
    split_ifs at hu' with heq
    · obtain rfl := Option.some.inj hu'
      exact ⟨hle, fun h => heq ▸ hten h⟩
    · exact h.stored name' u' hu'
  · intro name' hname'
    rw [Index.map_insertEntry, SortedMap.find?_insert]
    split_ifs
    · rfl
    · exact h.first_isSome name' hname'

theorem bounded_addUserWith (h : accounts.Bounded first) :
    (accounts.addUserWith args).2.Bounded (first.or (some args.username)) := by
  by_cases hempty : accounts.userDatabase.isEmpty
  · have hnone := (Index.isEmpty_iff _).mp hempty
    have hfirst := h.eq_none hempty
    have hcached := h.cached
    simp only [addUserWith, hempty, if_true]
    rw [hfirst, Option.none_or]
    rw [hfirst] at hcached
    refine ⟨?_, ?_, ?_, fun hc => by cases hc⟩
    · intro name u hu
      rw [Index.map_insertEntry, SortedMap.find?_insert, hnone] at hu
      split_ifs at hu with heq
      obtain rfl := Option.some.inj hu
      exact ⟨le_rfl, fun _ => heq ▸ rfl⟩
    · intro name p hp
      obtain ⟨hle, hten⟩ := hcached name p hp
      exact ⟨hle, fun hp' => by cases hten hp'⟩
    · intro name hname
      obtain rfl := Option.some.inj hname
      rw [Index.map_insertEntry, SortedMap.find?_insert_self]
      rfl
  · have hsome : first ≠ none := fun hnone => hempty (h.isEmpty_of_none hnone)
    have hor : first.or (some args.username) = first := by
      obtain ⟨name, rfl⟩ := Option.ne_none_iff_exists'.mp hsome
      rfl
    rw [hor]
    cases hcur : accounts.loginPool.find? args.cur with
    | none => simpa only [addUserWith, hempty, hcur]
    | some p =>
        simp only [addUserWith, hempty, hcur, Bool.false_eq_true, if_false]
        split_ifs with hguard
        · exact h
        · have hp := (h.cached _ p hcur).1
          have hless : args.privilege < p := by
            rw [← not_le]
            exact fun hle => hguard (Or.inl hle)
          apply h.insertEntry _ _ hsome
          · exact hless.le.trans hp
          · intro hten
            exact absurd (hten ▸ hless) (not_lt.mpr hp)

theorem bounded_loginWith (h : accounts.Bounded first) :
    (accounts.loginWith args).2.Bounded first := by
  rcases loginWith_cases accounts args with hsame | ⟨u, hu, hlogin⟩
  · rw [hsame]
    exact h
  · rw [hlogin]
    refine ⟨h.stored, ?_, h.first_isSome, h.isEmpty_of_none⟩
    intro name p hp
    rw [SortedMap.find?_insert] at hp
    split_ifs at hp with heq
    · obtain rfl := Option.some.inj hp
      exact heq ▸ h.stored _ u hu
    · exact h.cached name p hp

theorem bounded_logout (h : accounts.Bounded first) (line : List String) :
    (accounts.logout line).2.Bounded first := by
  simp only [logout]
  split_ifs
  · exact h
  · refine ⟨h.stored, ?_, h.first_isSome, h.isEmpty_of_none⟩
    intro name p hp
    rw [SortedMap.find?_erase] at hp
    split_ifs at hp
    exact h.cached name p hp

theorem bounded_modifyProfileWith (h : accounts.Bounded first) :
    (accounts.modifyProfileWith args).2.Bounded first := by
  rcases modifyProfileWith_cases accounts args with
    ⟨hfail, -⟩ | ⟨u, p, ⟨hu, hp, -, hless⟩, hmod⟩
  · rw [hfail]
    exact h
  · rw [hmod]
    have hcur := (h.cached _ p hp).1
    obtain ⟨hle, hten⟩ := h.stored _ u hu
    have hsome : first ≠ none := by
      intro hnone
      rw [(Index.isEmpty_iff _).mp (h.isEmpty_of_none hnone)] at hu
      cases hu
    have hprivilege : (updatedUser u args).privilege = u.privilege ∨
        (updatedUser u args).privilege < 10 := by
      simp only [updatedUser]
      split_ifs
      · exact Or.inl rfl
      · exact Or.inr (hless.trans_le hcur)
    rcases hprivilege with hsame | hlt
    · exact h.insertEntry (hsame ▸ hle) (fun h => hten (hsame ▸ h)) hsome
    · exact h.insertEntry hlt.le (fun h => absurd h hlt.ne) hsome

/-- Without an acting user who is logged in, only the first user is added. -/
theorem addUserWith_of_not_logged
    (hcur : accounts.loginPool.find? args.cur = none)
    (hempty : accounts.userDatabase.isEmpty = false) :
    (accounts.addUserWith args).2 = accounts := by
  simp only [addUserWith, hempty, hcur, Bool.false_eq_true, if_false]

theorem modifyProfileWith_of_not_logged
    (hcur : accounts.loginPool.find? args.cur = none) :
    (accounts.modifyProfileWith args).2 = accounts := by
  rcases modifyProfileWith_cases accounts args with
    ⟨hfail, -⟩ | ⟨u, p, ⟨-, hp, -⟩, -⟩
  · rw [hfail]
  · rw [hcur] at hp
    cases hp

end AccountManagement

/-! ## Runs -/

/-- One command other than `clean`. -/
theorem System.bounded_step {system system' : System} {request : Request}
    {reply : Reply} {first : Option String}
    (h : system.accounts.Bounded first) (hname : request.name ≠ .clean)
    (hstep : system.step request = some (reply, system')) :
    system'.accounts.Bounded (first.or request.firstUser) := by
  obtain ⟨name, line, uninit⟩ := request
  cases name
  case addUser =>
    cases hstep
    exact AccountManagement.bounded_addUserWith h
  case clean => exact absurd rfl hname
  all_goals
    rw [Request.firstUser, if_neg fun heq => CommandName.noConfusion heq,
      Option.or_none]
  case login =>
    cases hstep
    exact AccountManagement.bounded_loginWith h
  case logout =>
    cases hstep
    exact AccountManagement.bounded_logout h line
  case modifyProfile =>
    cases hstep
    exact AccountManagement.bounded_modifyProfileWith h
  case exit =>
    cases hstep
    refine ⟨h.stored, ?_, h.first_isSome, h.isEmpty_of_none⟩
    intro name p hp
    cases hp
  -- the other commands leave the accounts alone
  all_goals
    simp only [System.step, Option.map_eq_some_iff, Option.some.injEq,
      Prod.mk.injEq, System.withTrains] at hstep
    obtain ⟨_, _, _, rfl⟩ := hstep
    exact h

/-- Commands other than `clean`. -/
theorem System.bounded_runSteps {system system' : System}
    {requests : List Request} {first : Option String}
    (h : system.accounts.Bounded first)
    (hnames : ∀ request ∈ requests, request.name ≠ .clean)
    (hrun : runSteps System.step system requests = some system') :
    system'.accounts.Bounded (first.or (firstAdded requests)) := by
  induction requests generalizing system first with
  | nil =>
      obtain rfl := Option.some.inj hrun
      rw [firstAdded, List.findSome?_nil, Option.or_none]
      exact h
  | cons request requests ih =>
      obtain ⟨⟨reply, system₁⟩, hstep, hrest⟩ :=
        Option.bind_eq_some_iff.mp hrun
      have hfirst := System.bounded_step h
        (hnames request List.mem_cons_self) hstep
      have hlater := ih hfirst (fun r hr => hnames r
        (List.mem_cons_of_mem _ hr)) hrest
      rw [Option.or_assoc] at hlater
      rw [firstAdded, List.findSome?_cons]
      cases hrequest : request.firstUser with
      | none => simpa [hrequest, firstAdded] using hlater
      | some name => simpa [hrequest] using hlater

/-- Since the databases were last empty only the first user that was added has
the privilege ten, and nobody is added or changed by somebody who is not
logged in. -/
theorem System.privileges_bounded {system system' : System}
    {requests : List Request}
    (hempty : (∃ before : System, system = before.clean) ∨
      ∃ sizes, system = System.start (Databases.new sizes))
    (hnames : ∀ request ∈ requests, request.name ≠ .clean)
    (hrun : runSteps System.step system requests = some system') :
    (∀ name u, system'.accounts.userDatabase.map.find? name = some u →
      u.privilege ≤ 10 ∧
        (u.privilege = 10 → firstAdded requests = some name)) ∧
    (∀ name p, system'.accounts.loginPool.find? name = some p →
      p ≤ 10 ∧ (p = 10 → firstAdded requests = some name)) ∧
    (∀ request reply system'', request.name = .addUser →
      system'.accounts.loginPool.find? request.addUserArgs.cur = none →
      system'.step request = some (reply, system'') →
        system'.accounts.userDatabase.isEmpty ∨
          system''.accounts.userDatabase = system'.accounts.userDatabase) ∧
    ∀ request reply system'', request.name = .modifyProfile →
      system'.accounts.loginPool.find? request.modifyProfileArgs.cur = none →
      system'.step request = some (reply, system'') →
        system''.accounts.userDatabase = system'.accounts.userDatabase := by
  have hstart : system.accounts.Bounded none := by
    rcases hempty with ⟨before, rfl⟩ | ⟨sizes, rfl⟩
    · exact AccountManagement.bounded_of_empty rfl
    · exact AccountManagement.bounded_of_empty rfl
  have h := System.bounded_runSteps hstart hnames hrun
  rw [Option.none_or] at h
  refine ⟨h.stored, h.cached, ?_, ?_⟩
  · rintro ⟨name, line, uninit⟩ reply system'' rfl hcur hstep
    cases hstep
    cases hempty : system'.accounts.userDatabase.isEmpty with
    | true => exact Or.inl rfl
    | false =>
        exact Or.inr (congrArg AccountManagement.userDatabase
          (AccountManagement.addUserWith_of_not_logged hcur hempty))
  · rintro ⟨name, line, uninit⟩ reply system'' rfl hcur hstep
    cases hstep
    exact congrArg AccountManagement.userDatabase
      (AccountManagement.modifyProfileWith_of_not_logged hcur)

/-- The first user adds a second one with the highest privilege it can. -/
theorem System.privileges_bounded_two_users :
    ∃ s : System, (s.accounts.userDatabase.map.find? "bob").map
        User.privilege = some 9 ∧
      ∀ name u, s.accounts.userDatabase.map.find? name = some u →
        u.privilege ≤ 10 ∧ (u.privilege = 10 → some "root" = some name) := by
  let requests : List Request :=
    [⟨.addUser, ["-u", "root", "-p", "a"], 0⟩,
      ⟨.login, ["-u", "root", "-p", "a"], 0⟩,
      ⟨.addUser, ["-c", "root", "-u", "bob", "-p", "b", "-g", "9"], 0⟩]
  have hrun : ((runSteps System.step
      (System.start (Databases.new fun _ => 0)) requests).map fun s =>
        (s.accounts.userDatabase.map.find? "bob").map User.privilege) =
          some (some 9) := by
    decide +kernel
  obtain ⟨s, hs, hprivilege⟩ := Option.map_eq_some_iff.mp hrun
  exact ⟨s, hprivilege,
    (System.privileges_bounded (Or.inr ⟨_, rfl⟩) (by decide) hs).1⟩

end TicketSystem.Backend
