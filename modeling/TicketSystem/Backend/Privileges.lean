import TicketSystem.Backend.Main

/-!
# Cached privileges

The pool of logged-in users caches the privilege each of them had at login.
The cache stays equal to the stored privileges along every run in which no
`modify_profile` changes the privilege of a logged-in user; such a command
writes the database alone.
-/

namespace TicketSystem.Backend

open TicketSystem.Support
open TicketSystem.Database

namespace AccountManagement

/-- The privilege stored for a user. -/
def storedPrivilege (accounts : AccountManagement) (name : String) :
    Option ℤ :=
  (accounts.userDatabase.map.find? name).map User.privilege

/-- Every privilege in the pool is the stored one. -/
def CachedPrivileges (accounts : AccountManagement) : Prop :=
  ∀ name p, accounts.loginPool.find? name = some p →
    accounts.storedPrivilege name = some p

/-- The three handlers that ask for an acting user decide by the privilege
that is stored for that user. -/
structure AuthorisesByStored (accounts : AccountManagement) : Prop where
  addUser : ∀ args : AccountArgs, accounts.userDatabase.isEmpty = false →
    ((accounts.addUserWith args).1 = .success ↔
      ∃ p, (accounts.loginPool.find? args.cur).isSome ∧
        accounts.storedPrivilege args.cur = some p ∧ args.privilege < p ∧
        accounts.userDatabase.map.find? args.username = none)
  modifyProfile : ∀ (args : AccountArgs) (user : User),
    ((accounts.modifyProfileWith args).1 = .profile user ↔
      ∃ p u, (accounts.loginPool.find? args.cur).isSome ∧
        accounts.storedPrivilege args.cur = some p ∧
        accounts.userDatabase.map.find? args.username = some u ∧
        (u.privilege < p ∨ args.cur = args.username) ∧
        args.privilege < p ∧ user = updatedUser u args)
  queryProfile : ∀ (args : AccountArgs) (user : User),
    (accounts.queryProfileWith args = .profile user ↔
      ∃ p, (accounts.loginPool.find? args.cur).isSome ∧
        accounts.storedPrivilege args.cur = some p ∧
        accounts.userDatabase.map.find? args.username = some user ∧
        (user.privilege < p ∨ args.cur = args.username))

/-! ## What the handlers do -/

theorem addUserWith_cases (accounts : AccountManagement)
    (args : AccountArgs) :
    (accounts.addUserWith args).2 = accounts ∨
      accounts.userDatabase.map.find? args.username = none ∧
        (accounts.addUserWith args).2.loginPool = accounts.loginPool ∧
        ∃ u, (accounts.addUserWith args).2.userDatabase =
          accounts.userDatabase.insertEntry args.username u := by
  unfold addUserWith
  by_cases hempty : accounts.userDatabase.isEmpty
  · have hnone := (Index.isEmpty_iff _).mp hempty args.username
    simp only [hempty, if_true]
    exact Or.inr ⟨hnone, trivial, _, rfl⟩
  · simp only [hempty, Bool.false_eq_true, if_false]
    split
    next => exact Or.inl rfl
    next curPrivilege hcur =>
      split
      next => exact Or.inl rfl
      next hguard =>
        have hnone : accounts.userDatabase.map.find? args.username = none := by
          by_contra hsome
          obtain ⟨u, hu⟩ := Option.ne_none_iff_exists'.mp hsome
          apply hguard
          exact Or.inr (by simp [Index.searchKey_of_find? hu])
        exact Or.inr ⟨hnone, rfl, _, rfl⟩

theorem loginWith_cases (accounts : AccountManagement)
    (args : AccountArgs) :
    (accounts.loginWith args).2 = accounts ∨
      ∃ u, accounts.userDatabase.map.find? args.username = some u ∧
        (accounts.loginWith args).2 =
          { accounts with
            loginPool :=
              accounts.loginPool.insert args.username u.privilege } := by
  unfold loginWith
  cases hfind : accounts.userDatabase.map.find? args.username with
  | none => simp [Index.searchKey_of_find? hfind]
  | some u =>
      rw [Index.searchKey_of_find? hfind]
      simp only [Option.toList_some]
      split
      next => exact Or.inl rfl
      next =>
        split
        next => exact Or.inl rfl
        next => exact Or.inr ⟨u, rfl, rfl⟩

/-- The checks of `modify_profile`, with the record of the target and the
privilege of the acting user. -/
def MayModify (accounts : AccountManagement) (args : AccountArgs) (u : User)
    (curPrivilege : ℤ) : Prop :=
  accounts.userDatabase.map.find? args.username = some u ∧
    accounts.loginPool.find? args.cur = some curPrivilege ∧
    (u.privilege < curPrivilege ∨ args.cur = args.username) ∧
    args.privilege < curPrivilege

theorem modifyProfileWith_cases (accounts : AccountManagement)
    (args : AccountArgs) :
    (accounts.modifyProfileWith args = (.failure, accounts) ∧
        ∀ u p, ¬ accounts.MayModify args u p) ∨
      ∃ u p, accounts.MayModify args u p ∧
        accounts.modifyProfileWith args =
          (.profile (updatedUser u args),
            { accounts with
              userDatabase := accounts.userDatabase.insertEntry
                args.username (updatedUser u args) }) := by
  unfold modifyProfileWith MayModify
  cases hfind : accounts.userDatabase.map.find? args.username with
  | none => simp [Index.searchKey_of_find? hfind]
  | some u =>
      rw [Index.searchKey_of_find? hfind]
      simp only [Option.toList_some]
      cases hcur : accounts.loginPool.find? args.cur with
      | none => simp
      | some p =>
          simp only
          by_cases hguard : (p ≤ u.privilege ∧ args.cur ≠ args.username) ∨
              p ≤ args.privilege
          · rw [if_pos hguard]
            refine Or.inl ⟨rfl, ?_⟩
            rintro u' p' ⟨hu, hp, hright, hless⟩
            obtain rfl := Option.some.inj hu
            obtain rfl := Option.some.inj hp
            rcases hguard with ⟨hle, hne⟩ | hle
            · exact hright.elim (fun h => absurd h (not_lt.mpr hle)) hne
            · exact absurd hless (not_lt.mpr hle)
          · rw [if_neg hguard]
            push Not at hguard
            refine Or.inr ⟨u, p, ⟨rfl, rfl, ?_, hguard.2⟩, rfl⟩
            by_cases hname : args.cur = args.username
            · exact Or.inr hname
            · exact Or.inl (not_le.mp fun hle => hname (hguard.1 hle))

/-! ## One step -/

/-- `modify_profile` leaves the privilege of a logged-in user as it is. -/
def KeepsPrivilege (accounts : AccountManagement) (args : AccountArgs) :
    Prop :=
  ∀ u ∈ accounts.userDatabase.map.find? args.username,
    ∀ curPrivilege ∈ accounts.loginPool.find? args.cur,
      (u.privilege < curPrivilege ∨ args.cur = args.username) →
      args.privilege < curPrivilege →
      (accounts.loginPool.find? args.username).isSome →
        args.privilege = 0 ∨ args.privilege = u.privilege

instance (accounts : AccountManagement) (args : AccountArgs) :
    Decidable (accounts.KeepsPrivilege args) := by
  unfold KeepsPrivilege
  infer_instance

theorem updatedUser_privilege_eq_iff (u : User) (args : AccountArgs) :
    (updatedUser u args).privilege = u.privilege ↔
      args.privilege = 0 ∨ args.privilege = u.privilege := by
  unfold updatedUser
  by_cases h : args.privilege = 0 <;> simp [h]

theorem cachedPrivileges_addUserWith {accounts : AccountManagement}
    (h : accounts.CachedPrivileges) (args : AccountArgs) :
    (accounts.addUserWith args).2.CachedPrivileges := by
  rcases addUserWith_cases accounts args with hsame | ⟨hnone, hpool, u, hdb⟩
  · rw [hsame]
    exact h
  · intro name p hname
    rw [hpool] at hname
    have hstored := h name p hname
    have hne : name ≠ args.username := by
      rintro rfl
      simp [storedPrivilege, hnone] at hstored
    rw [storedPrivilege, hdb, Index.map_insertEntry,
      SortedMap.find?_insert_of_ne _ _ hne]
    exact hstored

theorem cachedPrivileges_loginWith {accounts : AccountManagement}
    (h : accounts.CachedPrivileges) (args : AccountArgs) :
    (accounts.loginWith args).2.CachedPrivileges := by
  rcases loginWith_cases accounts args with hsame | ⟨u, hu, hlogin⟩
  · rw [hsame]
    exact h
  · rw [hlogin]
    intro name p hname
    simp only [SortedMap.find?_insert] at hname
    by_cases heq : name = args.username
    · rw [if_pos heq] at hname
      obtain rfl := Option.some.inj hname
      simp [storedPrivilege, heq, hu]
    · rw [if_neg heq] at hname
      exact h name p hname

theorem cachedPrivileges_logout {accounts : AccountManagement}
    (h : accounts.CachedPrivileges) (line : List String) :
    (accounts.logout line).2.CachedPrivileges := by
  by_cases hnone : (accounts.loginPool.find? (nthToken line 1)).isNone
  · simpa only [logout, hnone, if_true] using h
  · simp only [logout, hnone, if_false, Bool.false_eq_true]
    intro name p hname
    simp only [SortedMap.find?_erase] at hname
    by_cases heq : name = nthToken line 1
    · simp [heq] at hname
    · rw [if_neg heq] at hname
      exact h name p hname

/-- A `modify_profile` keeps the cache right exactly when it leaves the
privileges of logged-in users as they are. -/
theorem cachedPrivileges_modifyProfileWith_iff {accounts : AccountManagement}
    (h : accounts.CachedPrivileges) (args : AccountArgs) :
    (accounts.modifyProfileWith args).2.CachedPrivileges ↔
      accounts.KeepsPrivilege args := by
  rcases modifyProfileWith_cases accounts args with
    ⟨hfail, hnot⟩ | ⟨u, p, hmay, hmod⟩
  · rw [hfail]
    refine iff_of_true h ?_
    intro u hu p hp hright hless
    exact absurd ⟨hu, hp, hright, hless⟩ (hnot u p)
  · obtain ⟨hu, hp, hright, hless⟩ := hmay
    rw [hmod]
    constructor
    · intro hcached u' hu' _ _ _ _ hlogged
      obtain rfl : u' = u := Option.some.inj
        ((Option.mem_def.mp hu').symm.trans hu)
      obtain ⟨c, hc⟩ := Option.isSome_iff_exists.mp hlogged
      have hbefore := h _ _ hc
      have hafter := hcached _ _ hc
      simp only [storedPrivilege, hu, Option.map_some, Option.some.injEq]
        at hbefore
      simp only [storedPrivilege, Index.map_insertEntry,
        SortedMap.find?_insert_self, Option.map_some, Option.some.injEq]
        at hafter
      exact (updatedUser_privilege_eq_iff u' args).mp
        (hafter.trans hbefore.symm)
    · intro hkeep name c hc
      by_cases hname : name = args.username
      · subst hname
        have hbefore := h _ _ hc
        simp only [storedPrivilege, hu, Option.map_some, Option.some.injEq]
          at hbefore
        have hsame := (updatedUser_privilege_eq_iff u args).mpr
          (hkeep u hu p hp hright hless (by simp [hc]))
        simp [storedPrivilege, hsame, hbefore]
      · simp only [storedPrivilege, Index.map_insertEntry,
          SortedMap.find?_insert_of_ne _ _ hname]
        exact h name c hc

/-- While the cache is right, the handlers authorise by what is stored. -/
theorem authorisesByStored_of_cachedPrivileges
    {accounts : AccountManagement} (h : accounts.CachedPrivileges) :
    accounts.AuthorisesByStored := by
  constructor
  · intro args hnonempty
    unfold addUserWith
    simp only [hnonempty, Bool.false_eq_true, if_false]
    cases hcur : accounts.loginPool.find? args.cur with
    | none => simp
    | some p =>
        have hstored := h _ _ hcur
        cases hfind : accounts.userDatabase.map.find? args.username with
        | none =>
            by_cases hle : p ≤ args.privilege
            · simp [Index.searchKey_of_find? hfind, hle, hstored]
            · simp [Index.searchKey_of_find? hfind, hle, hstored, not_le.mp hle]
        | some u => simp [Index.searchKey_of_find? hfind]
  · intro args user
    rcases modifyProfileWith_cases accounts args with
      ⟨hfail, hnot⟩ | ⟨u, p, ⟨hu, hp, hright, hless⟩, hmod⟩
    · rw [hfail]
      constructor
      · intro hc
        cases hc
      · rintro ⟨p, u, hlogged, hstored, hu, hright, hless, -⟩
        obtain ⟨c, hc⟩ := Option.isSome_iff_exists.mp hlogged
        obtain rfl : c = p := Option.some.inj ((h _ _ hc).symm.trans hstored)
        exact absurd ⟨hu, hc, hright, hless⟩ (hnot u c)
    · rw [hmod]
      constructor
      · intro heq
        exact ⟨p, u, by simp [hp], h _ _ hp, hu, hright, hless,
          (AccountReply.profile.inj heq).symm⟩
      · rintro ⟨p', u', -, -, hu', -, -, rfl⟩
        obtain rfl : u = u' := Option.some.inj (hu.symm.trans hu')
        rfl
  · intro args user
    unfold queryProfileWith
    cases hfind : accounts.userDatabase.map.find? args.username with
    | none => simp [Index.searchKey_of_find? hfind]
    | some u =>
        rw [Index.searchKey_of_find? hfind]
        simp only [Option.toList_some]
        cases hcur : accounts.loginPool.find? args.cur with
        | none => simp
        | some p =>
            have hstored := h _ _ hcur
            simp only [hstored, Option.isSome_some, Option.some.injEq,
              true_and]
            by_cases hguard : p ≤ u.privilege ∧ args.cur ≠ args.username
            · rw [if_pos hguard]
              constructor
              · intro hc
                cases hc
              · rintro ⟨_, rfl, rfl, hright⟩
                exact hright.elim
                  (fun hlt => absurd hlt (not_lt.mpr hguard.1)) hguard.2.elim
            · rw [if_neg hguard, AccountReply.profile.injEq]
              have hright : u.privilege < p ∨ args.cur = args.username := by
                by_contra hnot
                push Not at hnot
                exact hguard hnot
              constructor
              · rintro rfl
                exact ⟨p, rfl, rfl, hright⟩
              · rintro ⟨_, -, rfl, -⟩
                rfl

end AccountManagement

/-! ## Runs -/

/-- The command does not change the privilege of a logged-in user. -/
def System.KeepsPrivileges (system : System) (request : Request) : Prop :=
  request.name = .modifyProfile →
    system.accounts.KeepsPrivilege
      (parseOptions AccountArgs.readProfileOption { privilege := 0 }
        request.line)

instance (system : System) (request : Request) :
    Decidable (system.KeepsPrivileges request) := by
  unfold System.KeepsPrivileges
  infer_instance

/-- A step keeps the cache right if it keeps the privileges. -/
theorem System.cachedPrivileges_step {system system' : System}
    {request : Request} {reply : Reply}
    (h : system.accounts.CachedPrivileges)
    (hkeep : system.KeepsPrivileges request)
    (hstep : system.step request = some (reply, system')) :
    system'.accounts.CachedPrivileges := by
  have hempty : ∀ users : Index String User,
      (AccountManagement.mk SortedMap.empty users).CachedPrivileges := by
    intro users name p hname
    cases hname
  obtain ⟨name, line, uninit⟩ := request
  cases name
  case addUser =>
    cases hstep
    exact AccountManagement.cachedPrivileges_addUserWith h _
  case login =>
    cases hstep
    exact AccountManagement.cachedPrivileges_loginWith h _
  case logout =>
    cases hstep
    exact AccountManagement.cachedPrivileges_logout h line
  case modifyProfile =>
    cases hstep
    exact (AccountManagement.cachedPrivileges_modifyProfileWith_iff h _).mpr
      (hkeep rfl)
  case clean =>
    cases hstep
    exact hempty _
  case exit =>
    cases hstep
    exact hempty _
  -- the other commands answer from the accounts or leave them alone
  all_goals
    simp only [System.step, Option.map_eq_some_iff, Option.some.injEq,
      Prod.mk.injEq, System.withTrains] at hstep
    obtain ⟨_, _, _, rfl⟩ := hstep
    exact h

/-- Along every run that changes no privilege of a logged-in user, cached and
stored privileges agree, and the handlers authorise by the stored ones. -/
theorem System.cachedPrivileges_of_reaches {sizes : Fin 6 → ℤ}
    {s : System}
    (h : Reaches System.step System.KeepsPrivileges
      (System.start (Databases.new sizes)) s) :
    s.accounts.CachedPrivileges ∧ s.accounts.AuthorisesByStored := by
  have hcached : s.accounts.CachedPrivileges := by
    refine h.invariant (fun s => s.accounts.CachedPrivileges) ?_ ?_
    · intro name p hname
      cases hname
    · intro s request reply s' hinv hkeep hstep
      exact System.cachedPrivileges_step hinv hkeep hstep
  exact ⟨hcached,
    AccountManagement.authorisesByStored_of_cachedPrivileges hcached⟩

/-- In such a run a user who is logged out loses privileges before logging in
again. -/
theorem System.cachedPrivileges_of_reaches_relogin :
    ∃ s : System, s.accounts.loginPool.find? "bob" = some 3 ∧
      s.accounts.CachedPrivileges ∧ s.accounts.AuthorisesByStored := by
  have hrun : ((runSteps System.step
      (System.start (Databases.new fun _ => 0))
      [⟨.addUser, ["-u", "root", "-p", "a"], 0⟩,
        ⟨.login, ["-u", "root", "-p", "a"], 0⟩,
        ⟨.addUser, ["-c", "root", "-u", "bob", "-p", "b", "-g", "5"], 0⟩,
        ⟨.modifyProfile, ["-c", "root", "-u", "bob", "-g", "3"], 0⟩,
        ⟨.login, ["-u", "bob", "-p", "b"], 0⟩]).map fun s =>
          s.accounts.loginPool.find? "bob") = some (some 3) := by
    decide
  obtain ⟨s, hs, hbob⟩ := Option.map_eq_some_iff.mp hrun
  exact ⟨s, hbob, System.cachedPrivileges_of_reaches
    (Reaches.runSteps .refl (by decide) hs)⟩

/-- Two users log in and the first lowers the privilege of the second. -/
def privilegeDrift : List Request :=
  [⟨.addUser, ["-u", "root", "-p", "a"], 0⟩,
    ⟨.login, ["-u", "root", "-p", "a"], 0⟩,
    ⟨.addUser, ["-c", "root", "-u", "bob", "-p", "b", "-g", "5"], 0⟩,
    ⟨.login, ["-u", "bob", "-p", "b"], 0⟩,
    ⟨.modifyProfile, ["-c", "root", "-u", "bob", "-g", "3"], 0⟩]

/-- After it the pool still holds the old privilege. -/
theorem System.not_always_cachedPrivileges :
    ¬ ∀ s, Reaches System.step (fun _ _ => True)
      (System.start (Databases.new fun _ => 0)) s →
        s.accounts.CachedPrivileges := by
  intro hall
  have hrun : ((runSteps System.step
      (System.start (Databases.new fun _ => 0)) privilegeDrift).map fun s =>
        (s.accounts.loginPool.find? "bob",
          s.accounts.storedPrivilege "bob")) = some (some 5, some 3) := by
    decide
  obtain ⟨s, hs, hpair⟩ := Option.map_eq_some_iff.mp hrun
  obtain ⟨hpool, hstored⟩ := Prod.mk.inj hpair
  have hreach : Reaches System.step (fun _ _ => True)
      (System.start (Databases.new fun _ => 0)) s :=
    Reaches.runSteps .refl (by decide) hs
  have hfive := hall s hreach "bob" 5 hpool
  rw [hstored] at hfive
  cases hfive

end TicketSystem.Backend
