import TicketSystem.Backend.Main
import TicketSystem.Backend.Profile
import TicketSystem.Backend.CommandBuffer

/-!
# The order of the options

A handler reads key-argument pairs one after the other, and each key it knows
sets a field of its own.  Pairs with different keys can therefore be exchanged,
and a command does the same for every order of its pairs as long as it has the
arguments that its handler does not set itself.
-/

namespace TicketSystem.Backend

open TicketSystem.Support
open TicketSystem.Database

/-! ## The line of a command -/

/-- A word of a line. -/
def IsWord (word : String) : Prop :=
  word ≠ "" ∧ ∀ x ∈ word.toList, x ≠ ' ' ∧ x ≠ '\r'

theorem mem_intercalate {α : Type*} {sep x : α} {ls : List (List α)}
    (hx : x ∈ [sep].intercalate ls) : x = sep ∨ ∃ l ∈ ls, x ∈ l := by
  induction ls with
  | nil => cases hx
  | cons l ls ih =>
      by_cases hnil : ls = []
      · subst hnil
        rw [List.intercalate_singleton] at hx
        exact .inr ⟨l, List.mem_cons_self, hx⟩
      · rw [List.intercalate_cons_of_ne_nil hnil, List.append_assoc,
          List.mem_append] at hx
        rcases hx with hx | hx
        · exact .inr ⟨l, List.mem_cons_self, hx⟩
        · rcases List.mem_cons.mp hx with rfl | hx
          · exact .inl rfl
          · obtain rfl | ⟨l', hl', hx⟩ := ih hx
            · exact .inl rfl
            · exact .inr ⟨l', List.mem_cons_of_mem _ hl', hx⟩

/-- Words with spaces between them are the tokens of their line. -/
theorem split_intercalate {words : List String}
    (hwords : ∀ word ∈ words, IsWord word) :
    split (" ".intercalate words) ' ' = words := by
  rcases eq_or_ne words [] with rfl | hnil
  · rfl
  have hline : ∀ x ∈ [' '].intercalate (words.map String.toList), x ≠ '\r' := by
    intro x hx
    obtain rfl | ⟨_, hl, hx⟩ := mem_intercalate hx
    · decide
    · obtain ⟨word, hword, rfl⟩ := List.mem_map.mp hl
      exact ((hwords word hword).2 x hx).2
  have hsplit : ([' '].intercalate (words.map String.toList)).splitOn ' ' =
      words.map String.toList := by
    apply List.splitOn_intercalate
    · intro l hl hx
      obtain ⟨word, hword, rfl⟩ := List.mem_map.mp hl
      exact ((hwords word hword).2 _ hx).1 rfl
    · simpa using hnil
  have hkeep : (words.map String.toList).filter (· ≠ []) =
      words.map String.toList := by
    apply List.filter_eq_self.mpr
    intro l hl
    obtain ⟨word, hword, rfl⟩ := List.mem_map.mp hl
    have hne := (hwords word hword).1
    simpa using hne
  rw [split_eq_runs _ (by decide), runs, String.toList_intercalate]
  change ((([' '].intercalate (words.map String.toList)).takeWhile _).splitOn
    ' ' |>.filter _).map String.ofList = words
  rw [List.takeWhile_eq_self_iff.mpr fun x hx => decide_eq_true (hline x hx),
    hsplit, hkeep, List.map_map]
  simp

/-! ## Pairs of keys and arguments -/

/-- The tokens of key-argument pairs. -/
def optionTokens (options : List (String × String)) : List String :=
  options.flatMap fun o => [o.1, o.2]

section Pairs

variable {α : Type*}

/-- What a pair changes. -/
def readPair (known : α → String → Option (String → α)) (args : α)
    (o : String × String) : α :=
  match known args o.1 with
  | none => args
  | some set => set o.2

/-- The handler reads an argument for each of these keys, and two of them set
different things. -/
structure ReadsKeys (known : α → String → Option (String → α))
    (keys : List String) : Prop where
  ne_empty : "" ∉ keys
  isSome : ∀ args, ∀ key ∈ keys, (known args key).isSome
  comm : ∀ args v v', ∀ key ∈ keys, ∀ key' ∈ keys, key ≠ key' →
    readPair known (readPair known args (key, v)) (key', v') =
      readPair known (readPair known args (key', v')) (key, v)

variable {known : α → String → Option (String → α)} {keys : List String}
  {args : α} {options options' : List (String × String)}

/-- The option loop reads the pairs from the left to the right. -/
theorem ReadsKeys.parseOptions_eq (hreads : ReadsKeys known keys)
    (hkeys : ∀ o ∈ options, o.1 ∈ keys) :
    parseOptions known args (optionTokens options) =
      options.foldl (readPair known) args := by
  induction options generalizing args with
  | nil => rfl
  | cons o options ih =>
      have hkey := hkeys o List.mem_cons_self
      have hne : o.1 ≠ "" := by
        intro heq
        rw [heq] at hkey
        exact hreads.ne_empty hkey
      obtain ⟨set, hset⟩ := Option.isSome_iff_exists.mp
        (hreads.isSome args o.1 hkey)
      have hpair : readPair known args o = set o.2 := by
        rw [readPair, hset]
      rw [List.foldl_cons, hpair,
        ← ih fun o' ho' => hkeys o' (List.mem_cons_of_mem _ ho')]
      change parseOptions known args (o.1 :: o.2 :: optionTokens options) = _
      rw [parseOptions, if_neg hne, hset]

/-- Pairs with different keys are read in any order. -/
theorem ReadsKeys.parseOptions_perm (hreads : ReadsKeys known keys) (args : α)
    (hkeys : ∀ o ∈ options, o.1 ∈ keys) (hnodup : (options.map Prod.fst).Nodup)
    (hperm : options'.Perm options) :
    parseOptions known args (optionTokens options') =
      parseOptions known args (optionTokens options) := by
  have hkeys' : ∀ o ∈ options', o.1 ∈ keys :=
    fun o ho => hkeys o (hperm.mem_iff.mp ho)
  rw [hreads.parseOptions_eq hkeys, hreads.parseOptions_eq hkeys']
  apply hperm.foldl_eq'
  intro o ho o' ho' args
  by_cases heq : o.1 = o'.1
  · have hmem := hperm.mem_iff.mp ho
    have hmem' := hperm.mem_iff.mp ho'
    rw [List.inj_on_of_nodup_map hnodup hmem hmem' heq]
  · exact hreads.comm args _ _ _ (hkeys' o ho) _ (hkeys' o' ho') heq

/-- With the key that sets it among the pairs, it does not matter what a field
held before. -/
theorem ReadsKeys.parseOptions_congr (hreads : ReadsKeys known keys)
    {args args' : α} (key : String)
    (hkeys : ∀ o ∈ options, o.1 ∈ keys) (hnodup : (options.map Prod.fst).Nodup)
    (hkey : key ∈ options.map Prod.fst)
    (hset : ∀ v, readPair known args (key, v) =
      readPair known args' (key, v)) :
    parseOptions known args (optionTokens options) =
      parseOptions known args' (optionTokens options) := by
  obtain ⟨o, hmem, rfl⟩ := List.mem_map.mp hkey
  obtain ⟨before, after, rfl⟩ := List.append_of_mem hmem
  have hfront : (before ++ o :: after).Perm (o :: (before ++ after)) :=
    List.perm_middle
  have hset : readPair known args o = readPair known args' o := hset o.2
  rw [← hreads.parseOptions_perm _ hkeys hnodup hfront.symm,
    ← hreads.parseOptions_perm _ hkeys hnodup hfront.symm,
    hreads.parseOptions_eq fun o ho => hkeys o (hfront.mem_iff.mpr ho),
    hreads.parseOptions_eq fun o ho => hkeys o (hfront.mem_iff.mpr ho),
    List.foldl_cons, List.foldl_cons, hset]

end Pairs

/-! ## The options of the handlers -/

theorem readProfileOption_readsKeys :
    ReadsKeys AccountArgs.readProfileOption
      ["-c", "-u", "-p", "-n", "-m", "-g"] where
  ne_empty := by decide
  isSome := by simp [AccountArgs.readProfileOption]
  comm := by simp [readPair, AccountArgs.readProfileOption]

theorem readLoginOption_readsKeys :
    ReadsKeys AccountArgs.readLoginOption ["-u", "-p"] where
  ne_empty := by decide
  isSome := by simp [AccountArgs.readLoginOption]
  comm := by simp [readPair, AccountArgs.readLoginOption]

theorem readQueryOption_readsKeys :
    ReadsKeys AccountArgs.readQueryOption ["-c", "-u"] where
  ne_empty := by decide
  isSome := by simp [AccountArgs.readQueryOption]
  comm := by simp [readPair, AccountArgs.readQueryOption]

theorem trainArgs_readsKeys :
    ReadsKeys TrainArgs.readOption
      ["-i", "-n", "-m", "-s", "-p", "-x", "-t", "-o", "-d", "-y"] where
  ne_empty := by decide
  isSome := by simp [TrainArgs.readOption]
  comm := by simp [readPair, TrainArgs.readOption]

theorem queryTrain_readsKeys :
    ReadsKeys (fun (args : String × String) opt =>
      if opt = "-i" then some fun v => (v, args.2)
      else some fun v => (args.1, v)) ["-i", "-d"] where
  ne_empty := by decide
  isSome := by simp
  comm := by simp [readPair]

theorem ticketArgs_readsKeys :
    ReadsKeys TicketArgs.readOption ["-s", "-t", "-d", "-p"] where
  ne_empty := by decide
  isSome := by simp [TicketArgs.readOption]
  comm := by simp [readPair, TicketArgs.readOption]

theorem buyArgs_readsKeys :
    ReadsKeys BuyArgs.readOption
      ["-u", "-i", "-d", "-n", "-f", "-t", "-q"] where
  ne_empty := by decide
  isSome := by simp [BuyArgs.readOption]
  comm := by simp [readPair, BuyArgs.readOption]

theorem refundArgs_readsKeys :
    ReadsKeys RefundArgs.readOption ["-u", "-n"] where
  ne_empty := by decide
  isSome := by simp [RefundArgs.readOption]
  comm := by simp [readPair, RefundArgs.readOption]

/-! ## Commands with their arguments -/

/-- The word on which `main` calls the handler of a command. -/
def CommandName.word : CommandName → String
  | .addUser => "add_user"
  | .login => "login"
  | .logout => "logout"
  | .queryProfile => "query_profile"
  | .modifyProfile => "modify_profile"
  | .addTrain => "add_train"
  | .releaseTrain => "release_train"
  | .queryTrain => "query_train"
  | .deleteTrain => "delete_train"
  | .queryTicket => "query_ticket"
  | .queryTransfer => "query_transfer"
  | .buyTicket => "buy_ticket"
  | .queryOrder => "query_order"
  | .refundTicket => "refund_ticket"
  | .rollback => "rollback"
  | .clean => "clean"
  | .exit => "exit"

/-- The line of a command: a time stamp, the command, and its pairs. -/
def commandLine (timestamp : String) (name : CommandName)
    (options : List (String × String)) : String :=
  " ".intercalate (timestamp :: name.word :: optionTokens options)

/-- A command is read from its line, its pairs in the order of the line. -/
theorem Request.ofString_commandLine {timestamp : String}
    {name : CommandName} {options : List (String × String)}
    (htimestamp : IsWord timestamp)
    (hoptions : ∀ o ∈ options, IsWord o.1 ∧ IsWord o.2) :
    Request.ofString (commandLine timestamp name options) =
      some { name := name, line := optionTokens options } := by
  have hname : IsWord name.word := by
    cases name <;> simp [IsWord, CommandName.word]
  have hwords : ∀ word ∈ timestamp :: name.word :: optionTokens options,
      IsWord word := by
    intro word hword
    rcases List.mem_cons.mp hword with rfl | hword
    · exact htimestamp
    rcases List.mem_cons.mp hword with rfl | hword
    · exact hname
    obtain ⟨o, ho, hword⟩ := List.mem_flatMap.mp hword
    rcases List.mem_pair.mp hword with rfl | rfl
    · exact (hoptions o ho).1
    · exact (hoptions o ho).2
  have hcommand : CommandName.ofString name.word = some name := by
    cases name <;> simp [CommandName.ofString, CommandName.word]
  rw [Request.ofString, commandLine, split_intercalate hwords]
  change (CommandName.ofString name.word).map _ = _
  rw [hcommand]
  rfl

/-- The keys of a command, the optional ones among them. -/
def CommandName.keys : CommandName → List String
  | .addUser | .modifyProfile => ["-c", "-u", "-p", "-n", "-m", "-g"]
  | .login => ["-u", "-p"]
  | .logout | .queryOrder => ["-u"]
  | .queryProfile => ["-c", "-u"]
  | .addTrain =>
      ["-i", "-n", "-m", "-s", "-p", "-x", "-t", "-o", "-d", "-y"]
  | .releaseTrain | .deleteTrain => ["-i"]
  | .queryTrain => ["-i", "-d"]
  | .queryTicket | .queryTransfer => ["-s", "-t", "-d", "-p"]
  | .buyTicket => ["-u", "-i", "-d", "-n", "-f", "-t", "-q"]
  | .refundTicket => ["-u", "-n"]
  | .rollback => ["-t"]
  | .clean | .exit => []

/-- The keys without which a command is not complete.  The first user needs
neither an acting user nor a privilege. -/
def System.requiredKeys (s : System) : CommandName → List String
  | .addUser =>
      if s.accounts.userDatabase.isEmpty then ["-u", "-p", "-n", "-m"]
      else ["-c", "-u", "-p", "-n", "-m", "-g"]
  | .modifyProfile => ["-c", "-u"]
  | .queryTicket | .queryTransfer => ["-s", "-t", "-d"]
  | .buyTicket => ["-u", "-i", "-d", "-n", "-f", "-t"]
  | .refundTicket => ["-u"]
  | name => name.keys

/-- A command with all its required arguments and distinct keys. -/
structure System.Accepts (s : System) (name : CommandName)
    (options : List (String × String)) : Prop where
  keys : ∀ o ∈ options, o.1 ∈ name.keys
  required : ∀ key ∈ s.requiredKeys name, key ∈ options.map Prod.fst
  nodup : (options.map Prod.fst).Nodup

instance (s : System) (name : CommandName)
    (options : List (String × String)) : Decidable (s.Accepts name options) :=
  decidable_of_iff ((∀ o ∈ options, o.1 ∈ name.keys) ∧
      (∀ key ∈ s.requiredKeys name, key ∈ options.map Prod.fst) ∧
      (options.map Prod.fst).Nodup)
    ⟨fun ⟨h₁, h₂, h₃⟩ => ⟨h₁, h₂, h₃⟩, fun ⟨h₁, h₂, h₃⟩ => ⟨h₁, h₂, h₃⟩⟩

/-- Pairs with the same single key are a single pair. -/
theorem length_le_one_of_keys {options : List (String × String)}
    {keys : List String} (hlen : keys.length ≤ 1)
    (hkeys : ∀ o ∈ options, o.1 ∈ keys)
    (hnodup : (options.map Prod.fst).Nodup) : options.length ≤ 1 := by
  have hsub : options.map Prod.fst ⊆ keys := by
    intro key hkey
    obtain ⟨o, ho, rfl⟩ := List.mem_map.mp hkey
    exact hkeys o ho
  have hle := (hnodup.subperm hsub).length_le
  rw [List.length_map] at hle
  exact hle.trans hlen

/-- The only order of at most one pair. -/
theorem perm_eq_of_length_le_one {options options' : List (String × String)}
    (hlen : options.length ≤ 1) (hperm : options'.Perm options) :
    options' = options := by
  match options with
  | [] => exact List.perm_nil.mp hperm
  | [o] => exact List.perm_singleton.mp hperm

/-- For the first user, `add_user` reads neither the acting user nor the
privilege. -/
theorem AccountManagement.addUserWith_of_isEmpty
    {accounts : AccountManagement} {args args' : AccountArgs}
    (hempty : accounts.userDatabase.isEmpty)
    (husername : args.username = args'.username)
    (hpassword : args.password = args'.password)
    (hname : args.name = args'.name) (hmail : args.mail = args'.mail) :
    accounts.addUserWith args = accounts.addUserWith args' := by
  rw [addUserWith, addUserWith, if_pos hempty, if_pos hempty, husername,
    hpassword, hname, hmail]

section Order

variable {s : System} {name : CommandName}
  {options options' : List (String × String)}

/-- What memory holds does not matter to a complete `add_user`. -/
theorem addUser_optionTokens (h : s.Accepts .addUser options)
    (uninit uninit' : ℤ) :
    s.accounts.addUser uninit (optionTokens options) =
      s.accounts.addUser uninit' (optionTokens options) := by
  rw [AccountManagement.addUser, AccountManagement.addUser]
  by_cases hempty : s.accounts.userDatabase.isEmpty
  · have hread := fun privilege => parseOptions_profile
      { privilege := privilege } options h.keys h.nodup
    rw [optionTokens, hread uninit, hread uninit']
    exact AccountManagement.addUserWith_of_isEmpty hempty rfl rfl rfl rfl
  · congr 1
    apply readProfileOption_readsKeys.parseOptions_congr "-g" h.keys h.nodup
    · apply h.required
      simp [System.requiredKeys, hempty]
    · intro v
      rfl

/-- What memory holds does not matter to a complete `buy_ticket`. -/
theorem buyArgs_optionTokens (h : s.Accepts .buyTicket options)
    (uninit uninit' : ℤ) :
    BuyArgs.ofLine uninit (optionTokens options) =
      BuyArgs.ofLine uninit' (optionTokens options) := by
  apply buyArgs_readsKeys.parseOptions_congr "-n" h.keys h.nodup
  · apply h.required
    simp [System.requiredKeys]
  · intro v
    rfl

end Order

/-- Whatever the state, a complete command does the same for every order of
its pairs, and whatever the memory it does not set holds. -/
theorem System.step_perm (s : System) {name : CommandName}
    {options options' : List (String × String)}
    (h : s.Accepts name options) (hperm : options'.Perm options)
    (uninit uninit' : ℤ) :
    s.step { name := name, line := optionTokens options', uninit := uninit' } =
      s.step { name := name, line := optionTokens options, uninit := uninit } := by
  have hsame : name.keys.length ≤ 1 → options' = options := fun hlen =>
    perm_eq_of_length_le_one
      (length_le_one_of_keys hlen h.keys h.nodup) hperm
  cases name with
  | addUser =>
      have hread := readProfileOption_readsKeys.parseOptions_perm
        { privilege := uninit' } h.keys h.nodup hperm
      rw [System.step, System.step, addUser_optionTokens h uninit uninit',
        AccountManagement.addUser, AccountManagement.addUser, hread]
  | login =>
      have hread := readLoginOption_readsKeys.parseOptions_perm
        { privilege := 0 } h.keys h.nodup hperm
      rw [System.step, System.step, AccountManagement.login,
        AccountManagement.login, hread]
  | logout =>
      rw [hsame (by decide)]
      rfl
  | queryProfile =>
      have hread := readQueryOption_readsKeys.parseOptions_perm
        { privilege := 0 } h.keys h.nodup hperm
      rw [System.step, System.step, AccountManagement.queryProfile,
        AccountManagement.queryProfile, hread]
  | modifyProfile =>
      have hread := readProfileOption_readsKeys.parseOptions_perm
        { privilege := 0 } h.keys h.nodup hperm
      rw [System.step, System.step, AccountManagement.modifyProfile,
        AccountManagement.modifyProfile, hread]
  | addTrain =>
      have hread := trainArgs_readsKeys.parseOptions_perm {}
        h.keys h.nodup hperm
      rw [System.step, System.step, TrainManagement.addTrain,
        TrainManagement.addTrain, TrainArgs.ofLine, TrainArgs.ofLine, hread]
  | releaseTrain =>
      rw [hsame (by decide)]
      rfl
  | queryTrain =>
      have hread := queryTrain_readsKeys.parseOptions_perm ("", "")
        h.keys h.nodup hperm
      rw [System.step, System.step, TrainManagement.queryTrain,
        TrainManagement.queryTrain, hread]
  | deleteTrain =>
      rw [hsame (by decide)]
      rfl
  | queryTicket =>
      have hread := ticketArgs_readsKeys.parseOptions_perm {}
        h.keys h.nodup hperm
      rw [System.step, System.step, TrainManagement.queryTicket,
        TrainManagement.queryTicket, TicketArgs.ofLine, TicketArgs.ofLine,
        hread]
  | queryTransfer =>
      have hread := ticketArgs_readsKeys.parseOptions_perm {}
        h.keys h.nodup hperm
      rw [System.step, System.step, TrainManagement.queryTransfer,
        TrainManagement.queryTransfer, TicketArgs.ofLine, TicketArgs.ofLine,
        hread]
  | buyTicket =>
      have hread := buyArgs_readsKeys.parseOptions_perm { num := uninit' }
        h.keys h.nodup hperm
      rw [System.step, System.step, TrainManagement.buyTicket,
        TrainManagement.buyTicket, buyArgs_optionTokens h uninit uninit',
        BuyArgs.ofLine, BuyArgs.ofLine, hread]
  | queryOrder =>
      rw [hsame (by decide)]
      rfl
  | refundTicket =>
      have hread := refundArgs_readsKeys.parseOptions_perm {}
        h.keys h.nodup hperm
      rw [System.step, System.step, TrainManagement.refundTicket,
        TrainManagement.refundTicket, RefundArgs.ofLine, RefundArgs.ofLine,
        hread]
  | rollback => rfl
  | clean => rfl
  | exit => rfl

/-- The first `add_user` from the back to the front, with a password that
looks like a key. -/
theorem System.step_perm_first_user :
    (System.start (Databases.new fun _ => 0)).step
        { name := .addUser
          line := ["-m", "a@b", "-n", "Ann", "-p", "-u", "-u", "ann"]
          uninit := 3 } =
      (System.start (Databases.new fun _ => 0)).step
        { name := .addUser
          line := ["-u", "ann", "-p", "-u", "-n", "Ann", "-m", "a@b"]
          uninit := 7 } :=
  have h : (System.start (Databases.new fun _ => 0)).Accepts .addUser
      [("-u", "ann"), ("-p", "-u"), ("-n", "Ann"), ("-m", "a@b")] := by
    decide
  System.step_perm (System.start (Databases.new fun _ => 0)) h
    (List.reverse_perm _) 7 3

end TicketSystem.Backend
