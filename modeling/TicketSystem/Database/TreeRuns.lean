import TicketSystem.Database.TreeScan
import TicketSystem.Database.TreeStructure
import TicketSystem.Database.Types

/-!
# Runs of the tree

Calls of a tree on a new header page, one after another, answer as a finite map
would.  How the pages are laid out shows in no answer.
-/

namespace TicketSystem.Database

open TicketSystem.Support

variable {K V : Type}

/-! ## Calls -/

/-- Calls of the tree with their arguments. -/
inductive TreeCall (K V : Type)
  | insert (key : K) (value : V)
  | remove (key : K)
  | getValue (key : K) (result : List V)

namespace BPlusTreeNTS

/-- The tree of an index, before its constructor has run. -/
def ofIndex (comparator : K → K → ℤ) (leafMaxSize internalMaxSize : ℕ) :
    BPlusTreeNTS K where
  indexName := "index"
  rootPageId := INVALID_PAGE_ID
  comparator := comparator
  leafMaxSize := leafMaxSize
  internalMaxSize := internalMaxSize

/-- The header page of a new index and the tree on it, as the constructor of
the index and `Clear` make them. -/
def create (tree : BPlusTreeNTS K) : TreeM K V (BPlusTreeNTS K) := do
  match ← Program.lift PageOp.newPage with
  | none => .throw .nullPointer
  | some headerPageId =>
      let records ← getHeader headerPageId
      let records := (records.insertRecord "index" (-1)).2
      let records := (records.insertRecord "page_amount" 1).2
      let records := (records.insertRecord "size" 0).2
      setData headerPageId (.header records)
      tree.construct

/-- One call: its answer, the vector `result` after it, and the tree. -/
def call [Inhabited K] (tree : BPlusTreeNTS K) (fuel : ℕ) :
    TreeCall K V → TreeM K V ((Bool × List V) × BPlusTreeNTS K)
  | .insert key value => do
      let (answer, tree) ← tree.insert fuel key value
      pure ((answer, []), tree)
  | .remove key => do
      let (answer, tree) ← tree.remove fuel key
      pure ((answer, []), tree)
  | .getValue key result => do
      let answer ← tree.getValue fuel key result
      pure (answer, tree)

/-- Calls one after another, with their answers. -/
def callAll [Inhabited K] (fuel : ℕ) : BPlusTreeNTS K →
    List (TreeCall K V) → TreeM K V (List (Bool × List V) × BPlusTreeNTS K)
  | tree, [] => pure ([], tree)
  | tree, c :: calls => do
      let (answer, tree) ← tree.call fuel c
      let (answers, tree) ← callAll fuel tree calls
      pure (answer :: answers, tree)

/-- A new tree and calls of it. -/
def createAndCall [Inhabited K] (tree : BPlusTreeNTS K) (fuel : ℕ)
    (calls : List (TreeCall K V)) :
    TreeM K V (List (Bool × List V) × BPlusTreeNTS K) := do
  let tree ← tree.create
  callAll fuel tree calls

end BPlusTreeNTS

/-! ## The finite map -/

namespace TreeCall

variable [DecidableEq K]

/-- What a finite map answers. -/
def answer (map : K → Option V) : TreeCall K V → Bool × List V
  | insert key _ => ((map key).isNone, [])
  | remove key => ((map key).isSome, [])
  | getValue key result => pushed result (map key)

/-- The finite map after a call. -/
def update (map : K → Option V) : TreeCall K V → K → Option V
  | insert key value => Function.update map key (some value)
  | remove key => Function.update map key none
  | getValue _ _ => map

/-- The answers to calls one after another. -/
def answers : (K → Option V) → List (TreeCall K V) → List (Bool × List V)
  | _, [] => []
  | map, c :: calls => c.answer map :: answers (c.update map) calls

/-- The finite map after calls one after another. -/
def updates (map : K → Option V) (calls : List (TreeCall K V)) :
    K → Option V :=
  calls.foldl update map

end TreeCall

/-! ## The entries -/

namespace TreeCall

variable [LinearOrder K] {entries : List (K × V)}

/-- The entries after a call. -/
def entriesAfter (entries : List (K × V)) :
    TreeCall K V → List (K × V)
  | insert key value => insertKey key value entries
  | remove key => eraseKey key entries
  | getValue _ _ => entries

theorem length_entriesAfter (h : KeySorted entries) (c : TreeCall K V) :
    (c.entriesAfter entries).length ≤ entries.length + 1 := by
  cases c with
  | insert key value =>
      rw [entriesAfter, length_insertKey h]
      split <;> omega
  | remove key =>
      rw [entriesAfter, length_eraseKey h]
      split <;> omega
  | getValue key result => exact Nat.le_succ _

theorem lookupKey_entriesAfter (h : KeySorted entries) (c : TreeCall K V) :
    (fun key => lookupKey key (c.entriesAfter entries)) =
      c.update (fun key => lookupKey key entries) := by
  cases c with
  | insert key value =>
      funext key'
      rw [TreeCall.update, Function.update_apply]
      exact SortedMap.find?_insert ⟨entries, h⟩ key key' value
  | remove key =>
      funext key'
      rw [TreeCall.update, Function.update_apply]
      exact SortedMap.find?_erase ⟨entries, h⟩ key key'
  | getValue key result => rfl

end TreeCall

/-! ## Fetches that never fail -/

namespace PageStore

variable {D : Type} [Zero D]

/-- The operations of a client that finds a frame for every page. -/
def performAlways (op : PageOp D) (store : PageStore D) :
    Option (op.Answer × PageStore D) :=
  store.perform (store.pins.toFinset.card + 1) op

/-- What the frames suffice for is done with more of them, too. -/
theorem perform_mono {frames frames' : ℕ} {store : PageStore D}
    (hle : store.pins.toFinset.card < frames → store.pins.toFinset.card <
      frames')
    {op : PageOp D} {result : op.Answer × PageStore D}
    (h : store.perform frames op = some result) :
    store.perform frames' op = some result := by
  cases op with
  | newPage =>
      simp only [perform] at h ⊢
      split at h
      · next hroom => rwa [if_pos (hle hroom)]
      · cases h
  | fetchPage pageId =>
      simp only [perform] at h ⊢
      split at h
      · next hlive =>
        rwa [if_pos ⟨hlive.1, hlive.2.imp_right hle⟩]
      · cases h
  | unpinPage pageId isDirty => exact h
  | flushPage pageId => exact h
  | flushAllPages => exact h
  | deletePage pageId => exact h
  | getData pageId => exact h
  | setData pageId data => exact h

end PageStore

/-- A program that ends with some frames ends when fetches never fail. -/
theorem Does.always {α : Type} {frames : ℕ} {program : TreeM K V α}
    {store : PageStore (PageData K V)}
    {Q : α → PageStore (PageData K V) → Prop}
    (h : Does frames program store Q) :
    Program.Ends PageStore.performAlways program store Q := by
  obtain ⟨value, store', hrun, hQ⟩ := h
  have hsim : ∀ (op : PageOp (PageData K V)) s answer s' t,
      PageStore.perform frames op s = some (answer, s') → s = t →
        ∃ t', PageStore.performAlways op t = some (answer, t') ∧ s' = t' := by
    rintro op s answer s' _ hop rfl
    exact ⟨s', PageStore.perform_mono (fun _ => Nat.lt_succ_self _) hop, rfl⟩
  obtain ⟨_, hrun', rfl⟩ := Program.run_simulates hsim hrun rfl
  exact ⟨value, store', hrun', hQ⟩

/-! ## Steps -/

/-- A tree between two calls, with its entries. -/
structure Serves [LinearOrder K] (base tree : BPlusTreeNTS K)
    (store : PageStore (PageData K V)) (entries : List (K × V)) : Prop where
  tree_eq : tree = { base with rootPageId := tree.rootPageId }
  holds : Holds tree store entries
  ready : Ready tree store
  pins_eq : store.pins = {HEADER_PAGE_ID}

section Steps

variable {base tree : BPlusTreeNTS K} {store : PageStore (PageData K V)}
  {entries : List (K × V)} {fuel : ℕ}

theorem does_newPage {frames : ℕ}
    {Q : Option PageId → PageStore (PageData K V) → Prop}
    (hroom : store.pins.toFinset.card < frames)
    (hQ : Q (some store.nextPageId)
      (store.allocate.pin store.nextPageId)) :
    Does frames (Program.lift PageOp.newPage) store Q := by
  refine Program.ends_lift (some store.nextPageId)
    (store.allocate.pin store.nextPageId) ?_ hQ
  exact if_pos hroom

/-- The constructor of the tree reads the root from the header page. -/
theorem does_construct {frames : ℕ} {rootPageId : PageId}
    (hrecord : store.record base.indexName = some rootPageId)
    (hin : HEADER_PAGE_ID ∈ store.pins)
    {Q : BPlusTreeNTS K → PageStore (PageData K V) → Prop}
    (hQ : Q { base with rootPageId := rootPageId }
      ((store.pin HEADER_PAGE_ID).unpin HEADER_PAGE_ID true)) :
    Does frames base.construct store Q := by
  obtain ⟨data, hlive, hdata⟩ := Option.bind_eq_some_iff.mp hrecord
  obtain ⟨records, hrecords, hfind⟩ := Option.bind_eq_some_iff.mp hdata
  refine Program.ends_bind (does_fetchPage hlive (Or.inl hin) ?_)
  refine Program.ends_bind
    (does_getHeader (Multiset.mem_cons_self _ _) hlive hrecords ?_)
  refine Program.ends_bind
    (does_orStop (Option.join_eq_some_iff.mp hfind) ?_)
  refine Program.ends_bind
    (does_unpinPage (Multiset.mem_cons_self _ _) (fun h => by cases h) ?_)
  exact Program.ends_pure hQ

/-- The tree is created on a store without pages, with its records. -/
theorem does_create [LinearOrder K] {frames : ℕ}
    (hname : base.indexName = "index") (hpage : ∀ pageId, store.page pageId = none)
    (hnext : store.nextPageId = HEADER_PAGE_ID) (hpins : store.pins = 0)
    (howed : store.owed = ∅) (hroom : 0 < frames)
    {Q : BPlusTreeNTS K → PageStore (PageData K V) → Prop}
    (hQ : ∀ tree store, Serves base tree store [] →
      store.record "page_amount" = some 1 → store.record "size" = some 0 →
        Q tree store) :
    Does frames base.create store Q := by
  refine Program.ends_bind (does_newPage (by simpa [hpins]) ?_)
  rw [hnext]
  have hzero : (store.allocate.pin HEADER_PAGE_ID).page HEADER_PAGE_ID =
      some 0 := by
    rw [PageStore.pin_page, PageStore.allocate_page, hnext,
      Function.update_self]
  refine Program.ends_bind (does_getHeader (by simp) hzero rfl ?_)
  refine Program.ends_bind (does_setData (by simp) ?_)
  generalize hrecords : HeaderRecords.insertRecord _ "size" 0 = records
  have hheader : ((store.allocate.pin HEADER_PAGE_ID).write HEADER_PAGE_ID
      (.header records.2)).page HEADER_PAGE_ID = some (.header records.2) := by
    rw [PageStore.write_page, Function.update_self]
  have hrecord : ∀ name, PageStore.record ((store.allocate.pin
      HEADER_PAGE_ID).write HEADER_PAGE_ID (.header records.2)) name =
        HeaderRecords.find? records.2 name := by
    intro name
    rw [PageStore.record, hheader]
    rfl
  have hroot : PageStore.record ((store.allocate.pin HEADER_PAGE_ID).write
      HEADER_PAGE_ID (.header records.2)) base.indexName =
        some INVALID_PAGE_ID := by
    rw [hrecord, hname, ← hrecords]
    rfl
  refine does_construct hroot (by simp) ?_
  apply hQ
  · refine ⟨rfl, .empty rfl, ⟨?_, ?_, hroot⟩, ?_⟩
    · intro pageId hlive
      have heq : pageId = HEADER_PAGE_ID := by
        by_contra hne
        simp [hnext, hpage, hne, Function.update_of_ne] at hlive
      rw [heq]
      refine ⟨le_rfl, ?_⟩
      rw [PageStore.unpin_nextPageId, PageStore.pin_nextPageId,
        PageStore.write_nextPageId, PageStore.pin_nextPageId,
        PageStore.allocate_nextPageId, hnext]
      exact Int.zero_lt_one
    · simp [howed]
    · simp [hpins]
  · change PageStore.record ((store.allocate.pin HEADER_PAGE_ID).write
      HEADER_PAGE_ID (.header records.2)) "page_amount" = some 1
    rw [hrecord, ← hrecords]
    rfl
  · change PageStore.record ((store.allocate.pin HEADER_PAGE_ID).write
      HEADER_PAGE_ID (.header records.2)) "size" = some 0
    rw [hrecord, ← hrecords]
    rfl

variable [LinearOrder K] [Inhabited K]

omit [Inhabited K] in
theorem Serves.of_served {tree' : BPlusTreeNTS K}
    {store' : PageStore (PageData K V)} {entries' : List (K × V)}
    (h : Serves base tree store entries)
    (hserved : Served tree store tree' store')
    (hholds : Holds tree' store' entries') :
    Serves base tree' store' entries' where
  tree_eq := by rw [hserved.tree_eq, h.tree_eq]
  holds := hholds
  ready := hserved.ready
  pins_eq := by rw [hserved.pins_eq, h.pins_eq]

/-- One call answers as the map does, and leaves the other records of the header
page. -/
theorem Serves.does_call (h : Serves base tree store entries)
    (hcmp : Compares base.comparator) (hmax : 4 ≤ base.leafMaxSize)
    (hmax' : 4 ≤ base.internalMaxSize) (hfuel : entries.length ≤ fuel)
    (c : TreeCall K V)
    {Q : (Bool × List V) × BPlusTreeNTS K → PageStore (PageData K V) → Prop}
    (hQ : ∀ tree' store', Serves base tree' store' (c.entriesAfter entries) →
      (∀ name, name ≠ base.indexName →
        store'.record name = store.record name) →
      Q (c.answer fun key => lookupKey key entries, tree') store') :
    Does 5 (tree.call fuel c) store Q := by
  have hname : tree.indexName = base.indexName := by rw [h.tree_eq]
  have hcomparator : tree.comparator = base.comparator := by rw [h.tree_eq]
  have hleaf : tree.leafMaxSize = base.leafMaxSize := by rw [h.tree_eq]
  have hinternal : tree.internalMaxSize = base.internalMaxSize := by
    rw [h.tree_eq]
  rw [← hcomparator] at hcmp
  rw [← hleaf] at hmax
  rw [← hinternal] at hmax'
  have hcard : store.pins.toFinset.card = 1 := by
    rw [h.pins_eq]
    rfl
  cases c with
  | insert key value =>
      apply Program.ends_bind
      refine h.holds.does_insert hcmp h.ready hmax hmax' hfuel (by omega) ?_
      intro tree' store' hserved hholds
      apply Program.ends_pure
      apply hQ tree' store' (h.of_served hserved hholds)
      rw [← hname]
      exact hserved.record_eq
  | remove key =>
      apply Program.ends_bind
      refine h.holds.does_remove hcmp h.ready hmax hmax' hfuel ?_ (by omega) ?_
      · intro pageId hmem
        rw [h.pins_eq] at hmem
        exact Multiset.mem_singleton.mp hmem
      · intro tree' store' hserved hholds
        apply Program.ends_pure
        apply hQ tree' store' (h.of_served hserved hholds)
        rw [← hname]
        exact hserved.record_eq
  | getValue key result =>
      apply Program.ends_bind
      refine h.holds.does_getValue hcmp h.ready hmax hmax' hfuel (by omega) ?_
      apply Program.ends_pure
      exact hQ tree store h fun _ _ => rfl

/-- Calls one after another answer as the map does. -/
theorem Serves.does_callAll (h : Serves base tree store entries)
    (hcmp : Compares base.comparator) (hmax : 4 ≤ base.leafMaxSize)
    (hmax' : 4 ≤ base.internalMaxSize) (calls : List (TreeCall K V))
    (hfuel : entries.length + calls.length ≤ fuel)
    {Q : List (Bool × List V) × BPlusTreeNTS K → PageStore (PageData K V) →
      Prop}
    (hQ : ∀ tree' store' entries', Serves base tree' store' entries' →
      entries'.length ≤ entries.length + calls.length →
      (fun key => lookupKey key entries') =
        TreeCall.updates (fun key => lookupKey key entries) calls →
      Q (TreeCall.answers (fun key => lookupKey key entries) calls, tree')
        store') :
    Does 5 (BPlusTreeNTS.callAll fuel tree calls) store Q := by
  induction calls generalizing tree store entries Q with
  | nil => exact Program.ends_pure (hQ tree store entries h le_rfl rfl)
  | cons c calls ih =>
      rw [List.length_cons] at hfuel
      apply Program.ends_bind
      refine h.does_call hcmp hmax hmax' (by omega) c ?_
      intro tree₁ store₁ h₁ _
      have hlength := c.length_entriesAfter h.holds.sorted
      have hmap := c.lookupKey_entriesAfter h.holds.sorted
      apply Program.ends_bind
      refine ih h₁ (by omega) ?_
      intro tree' store' entries' h' hlength' hmap'
      apply Program.ends_pure
      rw [hmap] at hmap' ⊢
      refine hQ tree' store' entries' h' ?_ hmap'
      rw [List.length_cons]
      omega

omit [Inhabited K] in
theorem Serves.isEmpty_iff (h : Serves base tree store entries)
    (hmax : 4 ≤ base.leafMaxSize) (hmax' : 4 ≤ base.internalMaxSize) :
    tree.isEmpty = true ↔ ∀ key, lookupKey key entries = none := by
  have hnil : entries = [] ↔ ∀ key, lookupKey key entries = none :=
    @SortedMap.entries_eq_nil_iff K V _ ⟨entries, h.holds.sorted⟩
  rw [← hnil, BPlusTreeNTS.isEmpty, decide_eq_true_iff]
  cases h.holds with
  | empty hroot => exact ⟨fun _ => rfl, fun _ => hroot⟩
  | leaves leaves rows hshape =>
      have hleaf : tree.leafMaxSize = base.leafMaxSize := by rw [h.tree_eq]
      have hinternal : tree.internalMaxSize = base.internalMaxSize := by
        rw [h.tree_eq]
      have hrows := hshape.length_rows_lt (hleaf ▸ hmax) (hinternal ▸ hmax')
      have hne : entriesOf leaves ≠ [] := List.length_pos_iff.mp (by omega)
      exact iff_of_false (hshape.rootPageId_ne h.ready) hne

end Steps

/-! ## Runs -/

section Runs

variable [Inhabited K] {comparator : K → K → ℤ}
  {leafMaxSize internalMaxSize fuel : ℕ}

/-- A new tree serves its calls. -/
theorem ends_createAndCall [LinearOrder K] (hcmp : Compares comparator)
    (hmax : 4 ≤ leafMaxSize) (hmax' : 4 ≤ internalMaxSize)
    (calls : List (TreeCall K V)) (hfuel : calls.length ≤ fuel) :
    ∃ tree store entries,
      ((BPlusTreeNTS.ofIndex comparator leafMaxSize
        internalMaxSize).createAndCall fuel calls).run
          PageStore.performAlways (PageStore.start 0) =
            .ok ((TreeCall.answers (fun _ => none) calls, tree), store) ∧
      Serves (BPlusTreeNTS.ofIndex comparator leafMaxSize internalMaxSize)
        tree store entries ∧
      entries.length ≤ calls.length ∧
      (fun key => lookupKey key entries) =
        TreeCall.updates (fun _ => none) calls := by
  have hdoes : Does 5 ((BPlusTreeNTS.ofIndex comparator leafMaxSize
      internalMaxSize).createAndCall fuel calls) (PageStore.start 0)
      fun result store => ∃ entries,
        result.1 = TreeCall.answers (fun _ => none) calls ∧
        Serves (BPlusTreeNTS.ofIndex comparator leafMaxSize internalMaxSize)
          result.2 store entries ∧
        entries.length ≤ calls.length ∧
        (fun key => lookupKey key entries) =
          TreeCall.updates (fun _ => none) calls := by
    apply Program.ends_bind
    refine does_create rfl (fun _ => rfl) rfl rfl rfl (by decide) ?_
    intro tree store hserves _ _
    refine hserves.does_callAll hcmp hmax hmax' calls (by simpa) ?_
    intro tree' store' entries' hserves' hlength hmap
    exact ⟨entries', rfl, hserves', by simpa using hlength, hmap⟩
  obtain ⟨⟨answers, tree⟩, store, hrun, entries, hanswers, hserves, hrest⟩ :=
    hdoes.always
  dsimp only at hanswers hserves
  rw [hanswers] at hrun
  exact ⟨tree, store, entries, hrun, hserves, hrest⟩

/-- The tree is a finite map. -/
theorem createAndCall_answers [DecidableEq K] (hcmp : ThreeWayOrder comparator)
    (hmax : 4 ≤ leafMaxSize) (hmax' : 4 ≤ internalMaxSize)
    (calls : List (TreeCall K V)) (hfuel : calls.length ≤ fuel) :
    ∃ tree store,
      ((BPlusTreeNTS.ofIndex comparator leafMaxSize
        internalMaxSize).createAndCall fuel calls).run
          PageStore.performAlways (PageStore.start 0) =
            .ok ((TreeCall.answers (fun _ => none) calls, tree), store) ∧
      (tree.isEmpty = true ↔
        ∀ key, TreeCall.updates (fun _ => none) calls key = none) := by
  let _ := hcmp.linearOrder
  obtain rfl : ‹DecidableEq K› = hcmp.linearOrder.toDecidableEq :=
    Subsingleton.elim _ _
  obtain ⟨tree, store, entries, hrun, hserves, -, hmap⟩ :=
    ends_createAndCall hcmp.compares hmax hmax' calls hfuel
  refine ⟨tree, store, hrun, ?_⟩
  rw [hserves.isEmpty_iff hmax hmax', ← hmap]

theorem createAndCall_answers_three_keys :
    ∃ tree store,
      ((BPlusTreeNTS.ofIndex compareInt 4 4).createAndCall 6
        [.insert 2 'b', .insert 1 'a', .insert 2 'c', .remove 3,
          .getValue 2 [], .getValue 3 ['d']]).run
          PageStore.performAlways (PageStore.start 0) =
            .ok (([(true, []), (true, []), (false, []), (false, []),
              (true, ['c']), (false, ['d'])], tree), store) ∧
      (tree.isEmpty = true ↔ ∀ key : ℤ, TreeCall.updates (fun _ => none)
        [.insert 2 'b', .insert 1 'a', .insert 2 'c', .remove 3,
          .getValue 2 [], .getValue 3 ['d']] key = none) :=
  createAndCall_answers compareInt_compares.threeWayOrder le_rfl le_rfl
    [.insert 2 'b', .insert 1 'a', .insert 2 'c', .remove 3, .getValue 2 [],
      .getValue 3 ['d']] le_rfl

/-- The pages of the tree are well formed in the order of the comparator. -/
theorem createAndCall_wellFormed [DecidableEq K]
    (hcmp : ThreeWayOrder comparator) (hmax : 4 ≤ leafMaxSize)
    (hmax' : 4 ≤ internalMaxSize) (calls : List (TreeCall K V))
    (hfuel : calls.length ≤ fuel) :
    ∃ tree store,
      ((BPlusTreeNTS.ofIndex comparator leafMaxSize
        internalMaxSize).createAndCall fuel calls).run
          PageStore.performAlways (PageStore.start 0) =
            .ok ((TreeCall.answers (fun _ => none) calls, tree), store) ∧
      @WellFormed K V hcmp.linearOrder leafMaxSize internalMaxSize
        tree.rootPageId store := by
  let _ := hcmp.linearOrder
  obtain rfl : ‹DecidableEq K› = hcmp.linearOrder.toDecidableEq :=
    Subsingleton.elim _ _
  obtain ⟨tree, store, entries, hrun, hserves, -, -⟩ :=
    ends_createAndCall hcmp.compares hmax hmax' calls hfuel
  refine ⟨tree, store, hrun, ?_⟩
  have hleaf : tree.leafMaxSize = leafMaxSize := by
    rw [hserves.tree_eq]
    rfl
  have hinternal : tree.internalMaxSize = internalMaxSize := by
    rw [hserves.tree_eq]
    rfl
  cases hserves.holds with
  | empty hroot => exact Or.inl hroot
  | leaves leaves rows hshape =>
      have hformed := hshape.wellFormed hserves.ready.bounded
        (hinternal ▸ hmax')
      rwa [hleaf, hinternal] at hformed

theorem createAndCall_wellFormed_four_keys :
    ∃ tree store,
      ((BPlusTreeNTS.ofIndex compareInt 4 4).createAndCall 5
        [.insert 2 'b', .insert 1 'a', .insert 4 'd', .insert 3 'c',
          .remove 2]).run
          PageStore.performAlways (PageStore.start 0) =
            .ok (([(true, []), (true, []), (true, []), (true, []), (true, [])],
              tree), store) ∧
      @WellFormed ℤ Char compareInt_compares.threeWayOrder.linearOrder 4 4
        tree.rootPageId store :=
  createAndCall_wellFormed compareInt_compares.threeWayOrder le_rfl le_rfl
    [.insert 2 'b', .insert 1 'a', .insert 4 'd', .insert 3 'c', .remove 2]
    le_rfl

/-! ### Range scans -/

/-- Where the standby comparator accepts a key, it accepts the keys between it
and the one asked for. -/
def DownwardClosed (comparator standbyComparator : K → K → ℤ) (key : K) :
    Prop :=
  ∀ a b, 0 ≤ comparator a key → comparator a b ≤ 0 →
    standbyComparator key b = 0 → standbyComparator key a = 0

omit [Inhabited K] in
theorem DownwardClosed.takeWhile_eq [LinearOrder K]
    (hcmp : Compares comparator) {standbyComparator : K → K → ℤ} {key : K}
    {entries : List (K × V)}
    (h : DownwardClosed comparator standbyComparator key)
    (hsorted : KeySorted entries) (hge : ∀ e ∈ entries, key ≤ e.1) :
    (entries.takeWhile fun e => standbyComparator key e.1 = 0) =
      entries.filter fun e => standbyComparator key e.1 = 0 := by
  have hclosed : ∀ a b, key ≤ a → a ≤ b →
      decide (standbyComparator key b = 0) = true →
        decide (standbyComparator key a = 0) = true := by
    intro a b hkey hab hb
    rw [decide_eq_true_iff] at hb ⊢
    have hle : ¬ 0 < comparator a b := by
      rw [hcmp.pos_iff]
      exact not_lt.mpr hab
    exact h a b ((hcmp.nonneg_iff a key).mpr hkey) (not_lt.mp hle) hb
  rw [SortedMap.takeWhile_eq_filter_of_closed hsorted hclosed hge]
  apply List.filter_congr
  intro e he
  simp [hge e he]

/-- A scan of a new tree after calls of it. -/
theorem createAndCall_getValues [DecidableEq K]
    (hcmp : ThreeWayOrder comparator) (hmax : 4 ≤ leafMaxSize)
    (hmax' : 4 ≤ internalMaxSize) (calls : List (TreeCall K V))
    (hfuel : calls.length < fuel) (key : K) (result : List V)
    (standbyComparator : K → K → ℤ)
    (hclosed : DownwardClosed comparator standbyComparator key) :
    ∃ (tree : BPlusTreeNTS K) (store : PageStore (PageData K V))
        (answer : Bool) (entries : List (K × V)),
      ((BPlusTreeNTS.ofIndex comparator leafMaxSize
        internalMaxSize).createAndCall fuel calls).run
          PageStore.performAlways (PageStore.start 0) =
            .ok ((TreeCall.answers (fun _ => none) calls, tree), store) ∧
      (tree.getValues fuel key result standbyComparator).run
          PageStore.performAlways store =
            .ok ((answer, result ++ entries.map Prod.snd), store) ∧
      (entries.Pairwise fun a b => comparator a.1 b.1 < 0) ∧
      ∀ k v, (k, v) ∈ entries ↔
        TreeCall.updates (fun _ => none) calls k = some v ∧
          0 ≤ comparator k key ∧ standbyComparator key k = 0 := by
  let _ := hcmp.linearOrder
  obtain rfl : ‹DecidableEq K› = hcmp.linearOrder.toDecidableEq :=
    Subsingleton.elim _ _
  obtain ⟨tree, store, entries, hrun, hserves, hlength, hmap⟩ :=
    ends_createAndCall hcmp.compares hmax hmax' calls hfuel.le
  have hcomparator : tree.comparator = comparator := by rw [hserves.tree_eq]; rfl
  have hleaf : tree.leafMaxSize = leafMaxSize := by rw [hserves.tree_eq]; rfl
  have hinternal : tree.internalMaxSize = internalMaxSize := by
    rw [hserves.tree_eq]
    rfl
  have hcard : store.pins.toFinset.card = 1 := by
    rw [hserves.pins_eq]
    rfl
  have hsorted := hserves.holds.sorted
  have hge : ∀ e ∈ entries.filter fun e => key ≤ e.1, key ≤ e.1 := by
    intro e he
    simpa using (List.mem_filter.mp he).2
  refine ⟨tree, store, !entries.isEmpty, (entries.filter fun e => key ≤ e.1).filter
    fun e => standbyComparator key e.1 = 0, hrun, ?_, ?_, ?_⟩
  · have hdoes : Does 5 (tree.getValues fuel key result standbyComparator) store
        fun answer store' => answer = (!entries.isEmpty, result ++ accepted
          standbyComparator key (entries.filter fun e => key ≤ e.1)) ∧
            store' = store := by
      refine hserves.holds.does_getValues ?_ hserves.ready ?_ ?_ ?_ ?_ ?_
      · rw [hcomparator]
        exact hcmp.compares
      · rwa [hleaf]
      · rwa [hinternal]
      · omega
      · omega
      · exact ⟨rfl, rfl⟩
    obtain ⟨_, _, hscan, rfl, rfl⟩ := hdoes.always
    rw [hscan, accepted, hclosed.takeWhile_eq hcmp.compares (hsorted.filter _) hge]
  · exact (hsorted.filter _).filter _
  · intro k v
    rw [List.mem_filter, List.mem_filter, ← hmap, hsorted.lookupKey_eq_some_iff,
      hcmp.compares.nonneg_iff, decide_eq_true_iff, decide_eq_true_iff, and_assoc]

end Runs

/-! ### The comparators of the program -/

theorem dualString_downwardClosed (key : DualString) :
    DownwardClosed (dualStringComparator 2) (dualStringComparator 1) key := by
  intro a b hkey hab hb
  rw [dualStringComparator_one_eq_zero_iff] at hb ⊢
  have hle : key ≤ a := (dualStringComparator_compares.nonneg_iff a key).mp hkey
  have hlt : ¬ b < a := by
    rw [← dualStringComparator_compares.pos_iff]
    exact not_lt.mpr hab
  rw [← not_lt, DualString.lt_iff] at hle
  rw [DualString.lt_iff] at hlt
  rcases lt_trichotomy a.firstStr key.firstStr with h | h | h
  · exact absurd (Or.inl h) hle
  · exact h.symm
  · exact absurd (Or.inl (hb ▸ h)) hlt

theorem stringAny_downwardClosed (key : StringAny) :
    DownwardClosed (stringAnyComparator 3) (stringAnyComparator 1) key := by
  intro a b hkey hab hb
  rw [stringAnyComparator_one_eq_zero_iff] at hb ⊢
  have hle : key ≤ a := (stringAnyComparator_compares.nonneg_iff a key).mp hkey
  have hlt : ¬ b < a := by
    rw [← stringAnyComparator_compares.pos_iff]
    exact not_lt.mpr hab
  rw [← not_lt, StringAny.lt_iff] at hle
  rw [StringAny.lt_iff] at hlt
  rcases lt_trichotomy a.dataStr key.dataStr with h | h | h
  · exact absurd (Or.inl h) hle
  · exact h.symm
  · exact absurd (Or.inl (hb ▸ h)) hlt

theorem stringIntInt_downwardClosed (key : StringIntInt) :
    DownwardClosed (stringIntIntComparator 2) (stringIntIntComparator 1)
      key := by
  intro a b hkey hab hb
  rw [stringIntIntComparator_one_eq_zero_iff] at hb ⊢
  have hle : key ≤ a :=
    (stringIntIntComparator_compares.nonneg_iff a key).mp hkey
  have hlt : ¬ b < a := by
    rw [← stringIntIntComparator_compares.pos_iff]
    exact not_lt.mpr hab
  rw [← not_lt, StringIntInt.lt_iff] at hle
  rw [StringIntInt.lt_iff, ← hb.1, ← hb.2] at hlt
  rcases lt_trichotomy a.str key.str with h | h | h
  · exact absurd (Or.inl h) hle
  · rcases lt_trichotomy a.firstInt key.firstInt with h' | h' | h'
    · exact absurd (Or.inr ⟨h, Or.inl h'⟩) hle
    · exact ⟨h.symm, h'.symm⟩
    · exact absurd (Or.inr ⟨h.symm, Or.inl h'⟩) hlt
  · exact absurd (Or.inl h) hlt

/-- Range scans are exact, and the comparators of the program meet the
condition. -/
theorem scan_exact [Inhabited K] [DecidableEq K] {comparator : K → K → ℤ}
    {leafMaxSize internalMaxSize fuel : ℕ} (hcmp : ThreeWayOrder comparator)
    (hmax : 4 ≤ leafMaxSize) (hmax' : 4 ≤ internalMaxSize)
    (calls : List (TreeCall K V)) (hfuel : calls.length < fuel) (key : K)
    (result : List V) (standbyComparator : K → K → ℤ)
    (hclosed : DownwardClosed comparator standbyComparator key) :
    (∃ (tree : BPlusTreeNTS K) (store : PageStore (PageData K V))
        (answer : Bool) (entries : List (K × V)),
      ((BPlusTreeNTS.ofIndex comparator leafMaxSize
        internalMaxSize).createAndCall fuel calls).run
          PageStore.performAlways (PageStore.start 0) =
            .ok ((TreeCall.answers (fun _ => none) calls, tree), store) ∧
      (tree.getValues fuel key result standbyComparator).run
          PageStore.performAlways store =
            .ok ((answer, result ++ entries.map Prod.snd), store) ∧
      (entries.Pairwise fun a b => comparator a.1 b.1 < 0) ∧
      ∀ k v, (k, v) ∈ entries ↔
        TreeCall.updates (fun _ => none) calls k = some v ∧
          0 ≤ comparator k key ∧ standbyComparator key k = 0) ∧
    (∀ k, DownwardClosed (dualStringComparator 2) (dualStringComparator 1)
      k) ∧
    (∀ k, DownwardClosed (stringAnyComparator 3) (stringAnyComparator 1) k) ∧
    ∀ k, DownwardClosed (stringIntIntComparator 2) (stringIntIntComparator 1)
      k :=
  ⟨createAndCall_getValues hcmp hmax hmax' calls hfuel key result
    standbyComparator hclosed, dualString_downwardClosed,
    stringAny_downwardClosed, stringIntInt_downwardClosed⟩

theorem scan_exact_two_orders :
    ∃ (tree : BPlusTreeNTS StringAny)
        (store : PageStore (PageData StringAny ℤ)) (answer : Bool)
        (entries : List (StringAny × ℤ)),
      ((BPlusTreeNTS.ofIndex (stringAnyComparator 3) 4 4).createAndCall 4
        [.insert ⟨"b", 1⟩ 1, .insert ⟨"a", 2⟩ 2, .insert ⟨"a", 3⟩ 3]).run
          PageStore.performAlways (PageStore.start 0) =
            .ok (([(true, []), (true, []), (true, [])], tree), store) ∧
      (tree.getValues 4 ⟨"a", 0⟩ [] (stringAnyComparator 1)).run
          PageStore.performAlways store =
            .ok ((answer, entries.map Prod.snd), store) ∧
      (entries.Pairwise fun a b => stringAnyComparator 3 a.1 b.1 < 0) ∧
      ∀ k v, (k, v) ∈ entries ↔
        TreeCall.updates (fun _ => none)
          [.insert ⟨"b", 1⟩ 1, .insert ⟨"a", 2⟩ 2, .insert ⟨"a", 3⟩ 3] k =
            some v ∧
          0 ≤ stringAnyComparator 3 k ⟨"a", 0⟩ ∧
          stringAnyComparator 1 ⟨"a", 0⟩ k = 0 :=
  (scan_exact stringAnyComparator_compares.threeWayOrder le_rfl le_rfl
    [.insert ⟨"b", 1⟩ 1, .insert ⟨"a", 2⟩ 2, .insert ⟨"a", 3⟩ 3]
    (by decide) ⟨"a", 0⟩ [] (stringAnyComparator 1)
    (stringAny_downwardClosed ⟨"a", 0⟩)).1

end TicketSystem.Database
