import TicketSystem.Database.IndexSessions

/-!
# The index as the program uses it

The train system works on indices that are finite maps with a counter.  The
sessions of `BPlusTreeIndexNTS` on a file are such an index, closed and opened
again any number of times: they answer as it does, their pages are pinned as
they should be, and no page is handed out twice.
-/

namespace TicketSystem.Database

open TicketSystem.Support

variable {K V : Type} [LinearOrder K]

/-! ## The abstract index -/

/-- What an index answers to an event, and the index after it; there is none
before the first session. -/
def IndexEvent.perform (index : Option (Index K V)) :
    IndexEvent K V → List V × Option (Index K V)
  | construct _ memory => ([], some (index.getD (Index.new memory)))
  | call (.insertEntry key value) =>
      ([], index.map fun index => index.insertEntry key value)
  | call (.deleteEntry key) =>
      ([], index.map fun index => index.deleteEntry key)
  | call (.searchKey key result) =>
      (index.elim result fun index => result ++ index.searchKey key, index)
  | call (.scanKey key result standbyComparator) =>
      (index.elim result fun index =>
        result ++ index.scanKey key standbyComparator, index)
  | clear => ([], index.map Index.clear)
  | destroy => ([], index)

/-- The sessions on a file stand for an index. -/
inductive Follows (base : BPlusTreeNTS K) :
    IndexSessions K V → Option (Index K V) → Prop
  | new {turns : ℕ} (hturns : 0 < turns) :
      Follows base ⟨turns, .closed DiskFile.empty⟩ none
  | kept {sessions : IndexSessions K V} {index : Index K V}
      (h : KeepsEntries base sessions.state index.map.entries (some index.size))
      (hturns : index.map.entries.length < sessions.turns) :
      Follows base sessions (some index)

theorem scanKey_eq_accepted (index : Index K V) (key : K)
    (standbyComparator : K → K → ℤ) :
    index.scanKey key standbyComparator = accepted standbyComparator key
      (index.map.entries.filter fun e => key ≤ e.1) := by
  rw [← SortedMap.dropWhile_eq_filter index.map.sorted]
  rfl

theorem searchKey_eq_pushed (index : Index K V) (key : K) (result : List V) :
    result ++ index.searchKey key =
      (pushed result (lookupKey key index.map.entries)).2 := by
  rw [Index.searchKey_eq]
  change result ++ (lookupKey key index.map.entries).toList = _
  cases lookupKey key index.map.entries with
  | none => exact List.append_nil result
  | some value => rfl

/-- The entries and the counter follow the index. -/
theorem IndexEvent.perform_some (index : Index K V) (event : IndexEvent K V) :
    event.reply index.map.entries = (event.perform (some index)).1 ∧
      ∃ index', (event.perform (some index)).2 = some index' ∧
        index'.map.entries = event.entriesAfter index.map.entries ∧
        event.sizeAfter index.map.entries (some index.size) =
          some index'.size := by
  cases event with
  | construct poolSize memory => exact ⟨rfl, index, rfl, rfl, rfl⟩
  | clear => exact ⟨rfl, index.clear, rfl, rfl, rfl⟩
  | destroy => exact ⟨rfl, index, rfl, rfl, rfl⟩
  | call c =>
      cases c with
      | insertEntry key value =>
          exact ⟨rfl, index.insertEntry key value, rfl, rfl, rfl⟩
      | deleteEntry key =>
          refine ⟨rfl, index.deleteEntry key, rfl, rfl, congrArg some ?_⟩
          change index.size + (if (index.map.find? key).isSome then -1 else 0) =
            index.size - if (index.map.find? key).isSome then 1 else 0
          split_ifs
          · rfl
          · rw [add_zero, sub_zero]
      | searchKey key result =>
          refine ⟨(searchKey_eq_pushed index key result).symm, index, rfl, rfl, ?_⟩
          exact congrArg some (add_zero index.size)
      | scanKey key result standbyComparator =>
          refine ⟨?_, index, rfl, rfl, congrArg some (add_zero index.size)⟩
          exact congrArg (result ++ ·)
            (scanKey_eq_accepted index key standbyComparator).symm

/-- An event that can happen here, without `Clear`, on a pool of at least five
frames and with page ids that `ReadPage` finds. -/
def IndexSessions.Admits [Inhabited K] (base : BPlusTreeNTS K)
    (sessions : IndexSessions K V) (event : IndexEvent K V) : Prop :=
  event.Fits sessions.state ∧ event.Ordinary 5 ∧ sessions.IdsBelow base event

omit [LinearOrder K] in
instance IndexEvent.Fits.decidable (state : IndexState K V) :
    (event : IndexEvent K V) → Decidable (event.Fits state)
  | construct _ _ =>
      match state with
      | .closed file => isTrue ⟨file, rfl⟩
      | .opened _ => isFalse (by rintro ⟨file, h⟩; cases h)
  | call _ =>
      match state with
      | .closed _ => isFalse (by rintro ⟨index, h⟩; cases h)
      | .opened index => isTrue ⟨index, rfl⟩
  | clear =>
      match state with
      | .closed _ => isFalse (by rintro ⟨index, h⟩; cases h)
      | .opened index => isTrue ⟨index, rfl⟩
  | destroy =>
      match state with
      | .closed _ => isFalse (by rintro ⟨index, h⟩; cases h)
      | .opened index => isTrue ⟨index, rfl⟩

omit [LinearOrder K] in
instance IndexEvent.Ordinary.decidable (poolSize : ℕ) :
    (event : IndexEvent K V) → Decidable (event.Ordinary poolSize)
  | construct poolSize' _ => inferInstanceAs (Decidable (poolSize ≤ poolSize'))
  | call _ => isTrue trivial
  | clear => isFalse id
  | destroy => isTrue trivial

instance IndexSessions.Admits.decidable [Inhabited K] (base : BPlusTreeNTS K)
    (sessions : IndexSessions K V) (event : IndexEvent K V) :
    Decidable (sessions.Admits base event) :=
  inferInstanceAs (Decidable (_ ∧ _ ∧
    ∀ pageId ∈ sessions.newPageIds base event, pageId < 65536))

variable {base : BPlusTreeNTS K} [Inhabited K]

theorem Follows.step {sessions : IndexSessions K V} {index : Option (Index K V)}
    (h : Follows base sessions index) (hbase : base.Fit)
    {event : IndexEvent K V} (hok : sessions.Admits base event) :
    ∃ sessions', sessions.step base event =
        some ((event.perform index).1, sessions') ∧
      Follows base sessions' (event.perform index).2 := by
  obtain ⟨hfits, hordinary, hids⟩ := hok
  cases h with
  | @new turns hturns =>
      have hnew : KeepsEntries base
          (IndexSessions.mk turns (.closed DiskFile.empty)).state
          ([] : List (K × V)) none := .new
      obtain ⟨sessions', hstep, hkeeps, hturns'⟩ :=
        hnew.exists_step hbase hturns hfits hordinary hids
      cases event with
      | construct poolSize memory =>
          refine ⟨sessions', hstep, .kept hkeeps hturns'⟩
      | call c =>
          obtain ⟨index, hstate⟩ := hfits
          cases hstate
      | clear => exact hordinary.elim
      | destroy =>
          obtain ⟨index, hstate⟩ := hfits
          cases hstate
  | @kept _ index h hturns =>
      obtain ⟨sessions', hstep, hkeeps, hturns'⟩ :=
        h.exists_step hbase hturns hfits hordinary hids
      obtain ⟨hreply, index', hindex, hentries, hsize⟩ :=
        event.perform_some index
      rw [hreply] at hstep
      rw [hsize, ← hentries] at hkeeps
      rw [← hentries] at hturns'
      exact ⟨sessions', hstep, hindex ▸ .kept hkeeps hturns'⟩

omit [Inhabited K] in
theorem KeepsEntries.exists_store {index : BPlusTreeIndexNTS K V}
    {entries : List (K × V)} {size : Option ℤ}
    (h : KeepsEntries base (.opened index) entries size) :
    ∃ store, ServesIndex base index store entries ∧ size = some index.size := by
  cases h with
  | opened h => exact ⟨_, h, rfl⟩

omit [Inhabited K] in
theorem Serves.isEmpty_eq {tree : BPlusTreeNTS K}
    {store : PageStore (PageData K V)} {index : Index K V}
    (h : Serves base tree store index.map.entries) (hbase : base.Fit) :
    tree.isEmpty = index.isEmpty := by
  rw [Bool.eq_iff_iff, h.isEmpty_iff hbase.le_leafMaxSize
    hbase.le_internalMaxSize]
  exact index.isEmpty_iff.symm

/-- Sessions on a new file answer as an index does that lives on from one to the
next: so do `SearchKey` and `ScanKey`, and in the end `IsEmpty` and `Size`. -/
theorem sessions_refine_index (hbase : base.Fit)
    (events : List (IndexEvent K V))
    (hok : StepsOk (IndexSessions.step base) (IndexSessions.Admits base)
      IndexSessions.start events) :
    ∃ replies sessions index,
      runReplies (IndexSessions.step base) IndexSessions.start events =
        some (replies, sessions) ∧
      runReplies (fun index event => some (IndexEvent.perform index event))
        (none : Option (Index K V)) events = some (replies, index) ∧
      ∀ nts, sessions.state = .opened nts →
        ∃ i, index = some i ∧ nts.isEmpty = i.isEmpty ∧ nts.size = i.size := by
  have hsim : ∀ (sessions : IndexSessions K V) index event,
      Follows base sessions index → sessions.Admits base event →
      ∃ reply sessions' index',
        sessions.step base event = some (reply, sessions') ∧
        some (IndexEvent.perform index event) = some (reply, index') ∧
        Follows base sessions' index' := by
    intro sessions index event h hadmits
    obtain ⟨sessions', hstep, hnext⟩ := h.step hbase hadmits
    exact ⟨_, sessions', _, hstep, rfl, hnext⟩
  obtain ⟨replies, sessions, index, hrun, hrun', hfollows⟩ :=
    exists_runReplies_of_simulates hsim (.new Nat.one_pos) hok
  refine ⟨replies, sessions, index, hrun, hrun', fun nts hstate => ?_⟩
  cases hfollows with
  | new => cases hstate
  | @kept _ i hkeeps _ =>
      rw [hstate] at hkeeps
      obtain ⟨store, hserves, hsize⟩ := hkeeps.exists_store
      exact ⟨i, rfl, hserves.serves.isEmpty_eq hbase,
        (Option.some.inj hsize).symm⟩

theorem BPlusTreeNTS.ofIndex_fit :
    (BPlusTreeNTS.ofIndex compareInt 4 4).Fit where
  compares := compareInt_compares
  name_eq := rfl
  le_leafMaxSize := le_rfl
  le_internalMaxSize := le_rfl

/-- Two entries in a first session, of which the second one deletes one. -/
def twoSessions : List (IndexEvent ℤ Char) :=
  [.construct 5 0, .call (.insertEntry 1 'a'), .call (.insertEntry 2 'b'),
    .destroy, .construct 6 7, .call (.searchKey 1 []), .call (.deleteEntry 2)]

theorem twoSessions_ok :
    StepsOk (IndexSessions.step (BPlusTreeNTS.ofIndex compareInt 4 4))
      (IndexSessions.Admits (BPlusTreeNTS.ofIndex compareInt 4 4))
      IndexSessions.start twoSessions := by
  decide +kernel

theorem sessions_refine_index_two_sessions :
    ∃ replies sessions index,
      runReplies (IndexSessions.step (BPlusTreeNTS.ofIndex compareInt 4 4))
        IndexSessions.start twoSessions = some (replies, sessions) ∧
      runReplies (fun index event => some (IndexEvent.perform index event))
        none twoSessions = some (replies, index) ∧
      ∀ nts, sessions.state = .opened nts →
        ∃ i, index = some i ∧ nts.isEmpty = i.isEmpty ∧ nts.size = i.size :=
  sessions_refine_index BPlusTreeNTS.ofIndex_fit twoSessions twoSessions_ok

/-! ## The counter -/

/-- The counter is ahead of the number of entries by `memory`. -/
def CountsFrom (memory : ℤ) (index : Index K V) : Prop :=
  index.size = memory + index.map.entries.length

omit [Inhabited K] in
theorem CountsFrom.insertEntry {memory : ℤ} {index : Index K V}
    (h : CountsFrom memory index) (key : K) (value : V) :
    CountsFrom memory (index.insertEntry key value) := by
  have hlength := length_insertKey index.map.sorted key value
  have hfind : index.map.find? key = lookupKey key index.map.entries := rfl
  unfold CountsFrom at h ⊢
  change index.size + (if (index.map.find? key).isNone then 1 else 0) = memory +
    ((insertKey key value index.map.entries).length : ℤ)
  rw [hlength, h, hfind]
  cases lookupKey key index.map.entries with
  | none =>
      change memory + (index.map.entries.length : ℤ) + 1 =
        memory + ((index.map.entries.length + 1 : ℕ) : ℤ)
      rw [Nat.cast_add_one, add_assoc]
  | some value => exact add_zero _

omit [Inhabited K] in
theorem CountsFrom.deleteEntry {memory : ℤ} {index : Index K V}
    (h : CountsFrom memory index) (key : K) :
    CountsFrom memory (index.deleteEntry key) := by
  have hlength := length_eraseKey index.map.sorted key
  have hfind : index.map.find? key = lookupKey key index.map.entries := rfl
  unfold CountsFrom at h ⊢
  change index.size - (if (index.map.find? key).isSome then 1 else 0) = memory +
    ((eraseKey key index.map.entries).length : ℤ)
  rw [hlength, h, hfind]
  cases hlookup : lookupKey key index.map.entries with
  | none => exact sub_zero _
  | some value =>
      have hpos : 0 < index.map.entries.length := by
        rw [List.length_pos_iff]
        intro hnil
        rw [hnil] at hlookup
        cases hlookup
      change memory + (index.map.entries.length : ℤ) - 1 =
        memory + ((index.map.entries.length - 1 : ℕ) : ℤ)
      rw [Nat.cast_pred hpos, add_sub_assoc]

omit [Inhabited K] in
/-- Only `Clear`, which leaves the counter, makes it lose track. -/
theorem IndexEvent.perform_counts {memory : ℤ} {index : Index K V}
    (h : CountsFrom memory index) {event : IndexEvent K V} {poolSize : ℕ}
    (hordinary : event.Ordinary poolSize) :
    ∀ i, (event.perform (some index)).2 = some i → CountsFrom memory i := by
  rintro i hi
  cases event with
  | construct poolSize' memory' =>
      obtain rfl := Option.some.inj hi
      exact h
  | clear => exact hordinary.elim
  | destroy =>
      obtain rfl := Option.some.inj hi
      exact h
  | call c =>
      cases c with
      | insertEntry key value =>
          obtain rfl := Option.some.inj hi
          exact h.insertEntry key value
      | deleteEntry key =>
          obtain rfl := Option.some.inj hi
          exact h.deleteEntry key
      | searchKey key result =>
          obtain rfl := Option.some.inj hi
          exact h
      | scanKey key result standbyComparator =>
          obtain rfl := Option.some.inj hi
          exact h

/-- `Size` is the number of entries and what the memory of `size_` held when the
first session on the file began. -/
theorem size_counts_entries (hbase : base.Fit) (poolSize : ℕ) (memory : ℤ)
    (events : List (IndexEvent K V))
    (hok : StepsOk (IndexSessions.step base) (IndexSessions.Admits base)
      IndexSessions.start (.construct poolSize memory :: events)) :
    ∃ replies sessions index,
      runReplies (IndexSessions.step base) IndexSessions.start
        (.construct poolSize memory :: events) = some (replies, sessions) ∧
      runReplies (fun index event => some (IndexEvent.perform index event))
        (none : Option (Index K V)) (.construct poolSize memory :: events) =
          some (replies, some index) ∧
      ∀ nts, sessions.state = .opened nts →
        nts.size = memory + index.map.entries.length := by
  have hsim : ∀ (sessions : IndexSessions K V) index event,
      (Follows base sessions index ∧ ∃ i, index = some i ∧
        CountsFrom memory i) → sessions.Admits base event →
      ∃ reply sessions' index',
        sessions.step base event = some (reply, sessions') ∧
        some (IndexEvent.perform index event) = some (reply, index') ∧
        Follows base sessions' index' ∧ ∃ i, index' = some i ∧
          CountsFrom memory i := by
    rintro sessions _ event ⟨h, index, rfl, hcounts⟩ hadmits
    obtain ⟨sessions', hstep, hnext⟩ := h.step hbase hadmits
    obtain ⟨-, index', hindex, -⟩ := event.perform_some index
    exact ⟨_, sessions', _, hstep, rfl, hnext, index', hindex,
      IndexEvent.perform_counts hcounts hadmits.2.1 index' hindex⟩
  obtain ⟨hfirst, hlater⟩ := hok
  obtain ⟨sessions₁, hstep, hnext⟩ :=
    (Follows.new Nat.one_pos).step hbase hfirst
  have hnew : CountsFrom memory (Index.new memory : Index K V) :=
    (add_zero memory).symm
  rw [show IndexSessions.start.step base (.construct poolSize memory) =
    some ([], sessions₁) from hstep] at hlater
  obtain ⟨replies, sessions, _, hrun, hrun', hfollows, index, rfl, hcounts⟩ :=
    exists_runReplies_of_simulates hsim ⟨hnext, _, rfl, hnew⟩ hlater
  refine ⟨[] :: replies, sessions, index, ?_, ?_, fun nts hstate => ?_⟩
  · rw [runReplies, show IndexSessions.start.step base
      (.construct poolSize memory) = some ([], sessions₁) from hstep]
    change (runReplies _ sessions₁ events).bind _ = _
    rw [hrun]
    rfl
  · rw [runReplies]
    change (runReplies _ (IndexEvent.perform none
      (.construct poolSize memory)).2 events).bind _ = _
    rw [hrun']
    rfl
  · cases hfollows with
    | kept hkeeps _ =>
        rw [hstate] at hkeeps
        obtain ⟨store, -, hsize⟩ := hkeeps.exists_store
        rw [← Option.some.inj hsize]
        exact hcounts

theorem size_counts_entries_two_sessions :
    ∃ replies sessions index,
      runReplies (IndexSessions.step (BPlusTreeNTS.ofIndex compareInt 4 4))
        IndexSessions.start twoSessions = some (replies, sessions) ∧
      runReplies (fun index event => some (IndexEvent.perform index event))
        none twoSessions = some (replies, some index) ∧
      ∀ nts, sessions.state = .opened nts →
        nts.size = 0 + index.map.entries.length :=
  size_counts_entries BPlusTreeNTS.ofIndex_fit 5 0 twoSessions.tail
    twoSessions_ok

/-! ## Runs -/

/-- The sessions on a new file that events as above lead to. -/
def IndexSessions.Reachable (base : BPlusTreeNTS K)
    (sessions : IndexSessions K V) : Prop :=
  Reaches (IndexSessions.step base) (IndexSessions.Admits base)
    IndexSessions.start sessions

theorem IndexSessions.Reachable.follows {sessions : IndexSessions K V}
    (h : sessions.Reachable base) (hbase : base.Fit) :
    ∃ index, Follows base sessions index := by
  refine Reaches.invariant (fun sessions => ∃ index, Follows base sessions index)
    ⟨none, .new Nat.one_pos⟩ ?_ h
  rintro s event reply s' ⟨index, hfollows⟩ hok hstep
  obtain ⟨s'', hstep', hnext⟩ := hfollows.step hbase hok
  rw [hstep] at hstep'
  obtain ⟨-, rfl⟩ := Prod.mk.inj (Option.some.inj hstep')
  exact ⟨_, hnext⟩

theorem IndexSessions.Reachable.serves {sessions : IndexSessions K V}
    (h : sessions.Reachable base) (hbase : base.Fit)
    {index : BPlusTreeIndexNTS K V} (hstate : sessions.state = .opened index) :
    ∃ store entries, ServesIndex base index store entries ∧
      entries.length < sessions.turns := by
  obtain ⟨abstract, hfollows⟩ := h.follows hbase
  cases hfollows with
  | new => cases hstate
  | kept hkeeps hturns =>
      rw [hstate] at hkeeps
      obtain ⟨store, hserves, -⟩ := hkeeps.exists_store
      exact ⟨store, _, hserves, hturns⟩

/-- In every session a call of the index gets every page it asks for, touches
only pages it has pinned, and gives back every pin it takes: between two calls
only the header page is pinned. -/
theorem calls_balance_pins (hbase : base.Fit) {sessions : IndexSessions K V}
    (h : sessions.Reachable base) {index : BPlusTreeIndexNTS K V}
    (hstate : sessions.state = .opened index) {c : IndexCall K V}
    (hok : sessions.Admits base (.call c)) :
    (∀ step ∈ (c.program index.tree sessions.turns).steps
        BufferPoolManager.perform index.bpm, step.2.Proper step.1) ∧
      (∀ pageId, index.bpm.pinCount pageId =
        if pageId = HEADER_PAGE_ID then 1 else 0) ∧
      ∃ result index', index.call sessions.turns c = some (result, index') ∧
        ∀ pageId, index'.bpm.pinCount pageId = index.bpm.pinCount pageId := by
  obtain ⟨store, entries, hserves, hturns⟩ := h.serves hbase hstate
  have hids : ∀ pageId ∈ index.bpm.newPageIds
      (c.program index.tree sessions.turns), pageId < 65536 := by
    obtain ⟨turns, state⟩ := sessions
    cases hstate
    exact hok.2.2
  obtain ⟨⟨index', store', hcall, hspec⟩, hproper⟩ :=
    hserves.call hbase hturns c hids
  refine ⟨hproper, fun pageId => ?_, _, index', hcall, hspec.pinCount_eq⟩
  rw [hserves.refines.pinCount_eq, hserves.serves.pins_eq,
    Multiset.count_singleton]

theorem exists_after_twoSessions :
    ∃ (sessions : IndexSessions ℤ Char) (index : BPlusTreeIndexNTS ℤ Char),
      sessions.Reachable (BPlusTreeNTS.ofIndex compareInt 4 4) ∧
      sessions.state = .opened index ∧
      sessions.Admits (BPlusTreeNTS.ofIndex compareInt 4 4)
        (.call (.insertEntry 3 'c')) := by
  have hrun : ((runSteps
      (IndexSessions.step (BPlusTreeNTS.ofIndex compareInt 4 4))
      IndexSessions.start twoSessions).map fun sessions =>
        decide (sessions.Admits (BPlusTreeNTS.ofIndex compareInt 4 4)
          (.call (.insertEntry 3 'c')))) = some true := by
    decide +kernel
  obtain ⟨sessions, hsessions, hadmits⟩ := Option.map_eq_some_iff.mp hrun
  have hok := of_decide_eq_true hadmits
  obtain ⟨index, hstate⟩ := hok.1
  exact ⟨sessions, index, Reaches.refl.runSteps twoSessions_ok hsessions,
    hstate, hok⟩

theorem calls_balance_pins_two_sessions :
    ∃ (sessions : IndexSessions ℤ Char) (index : BPlusTreeIndexNTS ℤ Char),
      sessions.state = .opened index ∧
      (∀ step ∈ ((IndexCall.insertEntry 3 'c').program index.tree
          sessions.turns).steps BufferPoolManager.perform index.bpm,
        step.2.Proper step.1) ∧
      (∀ pageId, index.bpm.pinCount pageId =
        if pageId = HEADER_PAGE_ID then 1 else 0) ∧
      ∃ result index',
        index.call sessions.turns (.insertEntry 3 'c') = some (result, index') ∧
        ∀ pageId, index'.bpm.pinCount pageId = index.bpm.pinCount pageId := by
  obtain ⟨sessions, index, hreaches, hstate, hok⟩ := exists_after_twoSessions
  exact ⟨sessions, index, hstate,
    calls_balance_pins BPlusTreeNTS.ofIndex_fit hreaches hstate hok⟩

end TicketSystem.Database
