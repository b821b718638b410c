import TicketSystem.Database.IndexRefinement

/-!
# The page ids of an index

Over all sessions on a file the pages are numbered in the order in which they
are made: the counter of the disk manager reaches the next session through the
header page.  So no page that is made collides with a page of the tree.
-/

namespace TicketSystem.Database

open TicketSystem.Support

variable {K V : Type}

/-! ## Consecutive ids -/

/-- The ids from `first` on. -/
def idsFrom (first : PageId) (count : ℕ) : List PageId :=
  (List.range count).map fun n : ℕ => first + n

theorem idsFrom_add (first : PageId) (m n : ℕ) :
    idsFrom first (m + n) = idsFrom first m ++ idsFrom (first + m) n := by
  rw [idsFrom, List.range_add, List.map_append, List.map_map]
  refine congrArg (idsFrom first m ++ ·) (List.map_congr_left fun k _ => ?_)
  change first + ((m + k : ℕ) : ℤ) = first + m + k
  rw [Nat.cast_add, add_assoc]

theorem le_of_mem_idsFrom {first pageId : PageId} {count : ℕ}
    (h : pageId ∈ idsFrom first count) : first ≤ pageId := by
  obtain ⟨n, -, rfl⟩ := List.mem_map.mp h
  exact le_add_of_nonneg_right (Int.natCast_nonneg n)

namespace BufferPoolManager

variable {bpm : BufferPoolManager (PageData K V)}
  {store store' : PageStore (PageData K V)} {frames poolSize : ℕ} {α : Type}

/-- The page that an operation makes. -/
def idsOf (bpm : BufferPoolManager (PageData K V)) :
    PageOp (PageData K V) → List PageId
  | .newPage => (bpm.newPage.bind Prod.fst).toList
  | _ => []

theorem newPageIds_perform (op : PageOp (PageData K V))
    (next : op.Answer → TreeM K V α) :
    bpm.newPageIds (.perform op next) = bpm.idsOf op ++
      (bpm.perform op).elim [] fun out => out.2.newPageIds (next out.1) := by
  have hsteps : (Program.perform op next).steps perform bpm = (op, bpm) ::
      (bpm.perform op).elim [] fun out => (next out.1).steps perform out.2 := by
    rw [Program.steps]
    cases bpm.perform op <;> rfl
  rw [newPageIds, hsteps, List.filterMap_cons]
  cases op with
  | newPage =>
      rw [idsOf]
      cases bpm.perform .newPage <;> cases hid : bpm.newPage.bind Prod.fst <;>
        simp only [hid] <;> rfl
  | _ => cases bpm.perform _ <;> rfl

/-- An operation on the store makes the next page or none, and the pool does
it too. -/
theorem Refines.perform_numbers {op : PageOp (PageData K V)}
    {answer : op.Answer} (h : bpm.Refines poolSize fileIndex store)
    (hframes : frames ≤ poolSize)
    (hids : ∀ pageId ∈ bpm.idsOf op, pageId < 65536)
    (hop : store.perform frames op = some (answer, store')) :
    ∃ bpm' count, bpm.perform op = some (answer, bpm') ∧
      bpm'.Refines poolSize fileIndex store' ∧
      bpm.idsOf op = idsFrom store.nextPageId count ∧
      store'.nextPageId = store.nextPageId + count := by
  have hop' := PageStore.perform_mono (fun hlt => hlt.trans_le hframes) hop
  by_cases hnew : op = .newPage
  · subst hnew
    rw [PageStore.perform] at hop
    split at hop
    · next hroom =>
      obtain ⟨rfl, rfl⟩ := Prod.mk.inj (Option.some.inj hop)
      have hid := h.newPage_fst (hroom.trans_le hframes)
      have hone : bpm.idsOf .newPage = [store.nextPageId] := by
        rw [idsOf, hid]
        rfl
      rw [hone] at hids ⊢
      have hindex := fileIndex_eq h.agrees.next_nonneg
        (hids _ List.mem_cons_self)
      obtain ⟨bpm', hperform, hrefines⟩ :=
        h.perform_of_store (fun _ => hindex) hop'
      exact ⟨bpm', 1, hperform, hrefines,
        congrArg (fun pageId => [pageId]) (add_zero _).symm, rfl⟩
    · cases hop
  · obtain ⟨bpm', hperform, hrefines⟩ :=
      h.perform_of_store (fun heq => absurd heq hnew) hop'
    refine ⟨bpm', 0, hperform, hrefines, ?_, ?_⟩
    · cases op with
      | newPage => exact absurd rfl hnew
      | _ => rfl
    · rw [Nat.cast_zero, add_zero]
      cases op with
      | newPage => exact absurd rfl hnew
      | getData pageId =>
          rw [PageStore.perform] at hop
          split at hop
          · obtain ⟨_, -, heq⟩ := Option.map_eq_some_iff.mp hop
            obtain ⟨-, rfl⟩ := Prod.mk.inj heq
            rfl
          · cases hop
      | flushPage pageId => cases hop
      | flushAllPages => cases hop
      | _ =>
          rw [PageStore.perform] at hop
          split at hop
          · obtain ⟨-, rfl⟩ := Prod.mk.inj (Option.some.inj hop)
            rfl
          · cases hop

/-- A program numbers the pages it makes, on the pool as on the store. -/
theorem Refines.run_numbers {program : TreeM K V α} {value : α}
    (h : bpm.Refines poolSize fileIndex store) (hframes : frames ≤ poolSize)
    (hids : ∀ pageId ∈ bpm.newPageIds program, pageId < 65536)
    (hrun : program.run (PageStore.perform frames) store = .ok (value, store')) :
    ∃ bpm' count, program.run BufferPoolManager.perform bpm = .ok (value, bpm') ∧
      bpm'.Refines poolSize fileIndex store' ∧
      bpm.newPageIds program = idsFrom store.nextPageId count ∧
      store'.nextPageId = store.nextPageId + count := by
  induction program generalizing bpm store with
  | pure value' =>
      obtain ⟨rfl, rfl⟩ := Prod.mk.inj (Except.ok.inj hrun)
      exact ⟨bpm, 0, rfl, h, rfl, (add_zero _).symm⟩
  | throw error => cases hrun
  | perform op next ih =>
      rw [Program.run] at hrun
      cases hop : store.perform frames op with
      | none =>
          rw [hop] at hrun
          cases hrun
      | some out =>
          obtain ⟨answer, store₁⟩ := out
          rw [hop] at hrun
          obtain ⟨bpm₁, m, hperform, hrefines, hfirst, hnext⟩ :=
            h.perform_numbers hframes (fun pageId hmem => hids pageId (by
              rw [newPageIds_perform]
              exact List.mem_append_left _ hmem)) hop
          rw [newPageIds_perform, hperform, Option.elim_some] at hids ⊢
          obtain ⟨bpm', n, hrest, hrefines', hlater, hnext'⟩ := ih answer
            hrefines (fun pageId hmem => hids pageId
              (List.mem_append_right _ hmem)) hrun
          refine ⟨bpm', m + n, ?_, hrefines', ?_, ?_⟩
          · rw [Program.run, hperform]
            exact hrest
          · rw [hfirst, hlater, hnext, idsFrom_add]
          · rw [hnext', hnext, Nat.cast_add, add_assoc]

end BufferPoolManager

/-! ## Sessions -/

/-- The id of the next page: that of the disk manager, or what its file has for
the next session. -/
def IndexState.nextPageId : IndexState K V → PageId
  | closed file =>
      (((file.page HEADER_PAGE_ID).records.bind
        BPlusTreeIndexNTS.readMetadata).map Prod.fst).getD 0
  | opened index => index.bpm.diskManager.nextPageId

section Sessions

variable [LinearOrder K] {base : BPlusTreeNTS K}
  {store : PageStore (PageData K V)} {entries : List (K × V)}
  {file : DiskFile (PageData K V)} {rootPageId : PageId} {size : ℤ}

theorem Stored.nextPageId (h : Stored base file store rootPageId entries size) :
    (IndexState.closed file).nextPageId = store.nextPageId := by
  obtain ⟨data, hlive, hdata⟩ := Option.bind_eq_some_iff.mp h.root
  obtain ⟨records, hrecords, -⟩ := Option.bind_eq_some_iff.mp hdata
  have hrecord : ∀ name, store.record name = records.find? name := by
    intro name
    rw [PageStore.record, hlive, Option.bind_some, hrecords, Option.bind_some]
  have hmetadata : BPlusTreeIndexNTS.readMetadata records =
      some (store.nextPageId, size) := by
    have hamount := h.amount
    have hsize := h.size
    rw [hrecord, HeaderRecords.find?] at hamount hsize
    rw [BPlusTreeIndexNTS.readMetadata, hamount, hsize]
    rfl
  rw [IndexState.nextPageId, (h.live _ _ hlive).2.2.2.2, hrecords,
    Option.bind_some, hmetadata]
  rfl

/-- The constructor finds the header page. -/
theorem Stored.fetchHeader
    (h : Stored base file store rootPageId entries size) {poolSize : ℕ}
    (hpool : 0 < poolSize) :
    ∃ bpm, (BufferPoolManager.new poolSize
      (DiskManager.new file)).fetchPage HEADER_PAGE_ID = some (.page, bpm) := by
  let bpm : BufferPoolManager (PageData K V) :=
    .new poolSize (DiskManager.new file)
  have hnew : (bpm.withNextPageId store.nextPageId).Refines poolSize fileIndex
      store :=
    BufferPoolManager.refines_of_unmapped (fun _ => LinkedMap.find?_empty) rfl
      rfl rfl rfl rfl rfl rfl h.next_nonneg h.pins_eq h.owed_eq h.live
  obtain ⟨data, hlive, -⟩ := Option.bind_eq_some_iff.mp h.root
  obtain ⟨answer, fetched, hfetch, -, hanswers⟩ :=
    hnew.fetchPage (Option.isSome_of_eq_some hlive)
  rw [fetchPage_withNextPageId, Option.map_eq_some_iff] at hfetch
  obtain ⟨⟨answer', bpm'⟩, hfetch, heq⟩ := hfetch
  obtain ⟨rfl, -⟩ := Prod.mk.inj heq
  cases answer' with
  | page => exact ⟨bpm', hfetch⟩
  | null =>
      have hcard := hanswers.1
      rw [h.pins_eq] at hcard
      exact absurd hpool (not_lt.mpr hcard)
  | readLessThenAPage => exact hanswers.elim

variable [Inhabited K]

/-- A call numbers its pages. -/
theorem ServesIndex.call_numbers {index index' : BPlusTreeIndexNTS K V}
    (h : ServesIndex base index store entries) (hbase : base.Fit) {turns : ℕ}
    (hturns : entries.length < turns) {c : IndexCall K V}
    (hids : ∀ pageId ∈ index.bpm.newPageIds (c.program index.tree turns),
      pageId < 65536) {result : List V}
    (hcall : index.call turns c = some (result, index')) :
    ∃ count, index.bpm.newPageIds (c.program index.tree turns) =
        idsFrom index.bpm.diskManager.nextPageId count ∧
      index'.bpm.diskManager.nextPageId =
        index.bpm.diskManager.nextPageId + count := by
  obtain ⟨value, store', hrun, -⟩ :=
    h.serves.does_program hbase.compares hbase.le_leafMaxSize
      hbase.le_internalMaxSize hturns c (Q := fun _ _ => True)
      fun _ _ _ _ => trivial
  obtain ⟨bpm', count, hpool, hrefines, hnumbers, hnext⟩ :=
    h.refines.run_numbers h.le_poolSize hids hrun
  have hindex' : index'.bpm = bpm' := by
    rw [BPlusTreeIndexNTS.call, BufferPoolManager.runTree, hpool] at hcall
    obtain ⟨-, rfl⟩ := Prod.mk.inj (Option.some.inj hcall)
    rfl
  refine ⟨count, ?_, ?_⟩
  · rw [hnumbers, h.refines.agrees.next_eq]
  · rw [hindex', hrefines.agrees.next_eq, hnext, h.refines.agrees.next_eq]

/-- The constructor on a new file makes the header page. -/
theorem construct_empty_numbers (hbase : base.Fit) {poolSize : ℕ}
    (hpool : 5 ≤ poolSize) {memory : ℤ} {index : BPlusTreeIndexNTS K V}
    (hnew : BPlusTreeIndexNTS.construct base poolSize DiskFile.empty memory =
      some index) {turns : ℕ}
    (hids : IndexSessions.IdsBelow base ⟨turns, .closed DiskFile.empty⟩
      (.construct poolSize memory : IndexEvent K V)) :
    ∃ count, IndexSessions.newPageIds base ⟨turns, .closed DiskFile.empty⟩
        (.construct poolSize memory : IndexEvent K V) = idsFrom 0 count ∧
      index.bpm.diskManager.nextPageId = 0 + count := by
  obtain ⟨bpm, hfetch, hrefines⟩ :=
    dropHeader_refines (K := K) (V := V) (by omega : 0 < poolSize)
  have hmade : IndexSessions.newPageIds base ⟨turns, .closed DiskFile.empty⟩
      (.construct poolSize memory : IndexEvent K V) =
        (BPlusTreeIndexNTS.dropHeader bpm).newPageIds base.create := by
    rw [IndexSessions.newPageIds]
    dsimp only
    rw [hfetch]
  rw [IndexSessions.IdsBelow, hmade] at hids
  have hcreate : Does 5 base.create
      (PageStore.start HEADER_PAGE_ID : PageStore (PageData K V))
      (fun _ _ => True) :=
    does_create hbase.name_eq (fun _ => rfl) rfl rfl rfl (by decide)
      fun _ _ _ _ _ => trivial
  obtain ⟨tree, store', hrun, -⟩ := hcreate
  obtain ⟨bpm', count, hrun', hrefines', hnumbers, hnext⟩ :=
    hrefines.run_numbers hpool hids hrun
  have hindex : index.bpm = bpm' := by
    rw [BPlusTreeIndexNTS.construct] at hnew
    change ((BufferPoolManager.new poolSize (DiskManager.new
      DiskFile.empty)).fetchPage HEADER_PAGE_ID).bind _ = _ at hnew
    rw [hfetch] at hnew
    change ((BPlusTreeIndexNTS.dropHeader bpm).runTree base.create).bind _ =
      _ at hnew
    rw [BufferPoolManager.runTree, hrun'] at hnew
    obtain rfl := Option.some.inj hnew
    rfl
  refine ⟨count, hmade.trans hnumbers, ?_⟩
  rw [hindex, hrefines'.agrees.next_eq, hnext]
  rfl

/-- Every event numbers its pages from the next id on. -/
theorem KeepsEntries.numbers {sessions sessions' : IndexSessions K V}
    {counter : Option ℤ} {reply : List V} {event : IndexEvent K V}
    (h : KeepsEntries base sessions.state entries counter) (hbase : base.Fit)
    (hturns : entries.length < sessions.turns)
    (hok : sessions.Admits base event)
    (hstep : sessions.step base event = some (reply, sessions')) :
    ∃ count, sessions.newPageIds base event =
        idsFrom sessions.state.nextPageId count ∧
      sessions'.state.nextPageId = sessions.state.nextPageId + count := by
  obtain ⟨turns, state⟩ := sessions
  obtain ⟨hfits, hordinary, hids⟩ := hok
  cases h with
  | new =>
      cases event with
      | construct poolSize memory =>
          obtain ⟨index, hnew, heq⟩ := Option.map_eq_some_iff.mp hstep
          obtain ⟨-, rfl⟩ := Prod.mk.inj heq
          exact construct_empty_numbers hbase hordinary hnew hids
      | _ => cases hstep
  | @closed file store rootPageId _ size h =>
      cases event with
      | construct poolSize memory =>
          obtain ⟨index, store', hnew, hserves, -, -, hnext⟩ :=
            h.construct hordinary memory
          obtain ⟨bpm, hfetch⟩ :=
            h.fetchHeader (by exact (by decide : 0 < 5).trans_le hordinary)
          obtain ⟨index', hnew', heq⟩ := Option.map_eq_some_iff.mp hstep
          obtain ⟨-, rfl⟩ := Prod.mk.inj heq
          obtain rfl := Option.some.inj (hnew.symm.trans hnew')
          refine ⟨0, ?_, ?_⟩
          · rw [IndexSessions.newPageIds]
            dsimp only
            rw [hfetch]
            rfl
          · change index.bpm.diskManager.nextPageId =
              (IndexState.closed file).nextPageId + 0
            rw [add_zero, hserves.refines.agrees.next_eq, hnext, h.nextPageId]
      | _ => cases hstep
  | @opened index store _ h =>
      cases event with
      | construct poolSize memory => cases hstep
      | clear => exact hordinary.elim
      | call c =>
          obtain ⟨⟨result, index'⟩, hcall, heq⟩ :=
            Option.map_eq_some_iff.mp hstep
          obtain ⟨-, rfl⟩ := Prod.mk.inj heq
          exact h.call_numbers hbase hturns hids hcall
      | destroy =>
          obtain ⟨file, store', hdestroy, hstored, hnext⟩ := h.destroy hbase
          obtain ⟨file', hdestroy', heq⟩ := Option.map_eq_some_iff.mp hstep
          obtain ⟨-, rfl⟩ := Prod.mk.inj heq
          obtain rfl := Option.some.inj (hdestroy.symm.trans hdestroy')
          refine ⟨0, rfl, ?_⟩
          change (IndexState.closed file).nextPageId =
            index.bpm.diskManager.nextPageId + 0
          rw [add_zero, hstored.nextPageId, hnext, h.refines.agrees.next_eq]

/-- The ids of the pages that events one after another get from `NewPage`. -/
def IndexSessions.allPageIds (base : BPlusTreeNTS K) :
    IndexSessions K V → List (IndexEvent K V) → List PageId
  | _, [] => []
  | sessions, event :: events =>
      sessions.newPageIds base event ++
        match sessions.step base event with
        | none => []
        | some (_, sessions') => allPageIds base sessions' events

omit [Inhabited K] in
theorem Follows.keeps {sessions : IndexSessions K V} {index : Option (Index K V)}
    (h : Follows base sessions index) : ∃ entries counter,
      KeepsEntries base sessions.state entries counter ∧
        entries.length < sessions.turns := by
  cases h with
  | new hturns => exact ⟨[], none, .new, hturns⟩
  | kept h hturns => exact ⟨_, _, h, hturns⟩

theorem Follows.allPageIds {sessions : IndexSessions K V}
    {index : Option (Index K V)} (h : Follows base sessions index)
    (hbase : base.Fit) {events : List (IndexEvent K V)}
    (hok : StepsOk (IndexSessions.step base) (IndexSessions.Admits base)
      sessions events) :
    ∃ count, sessions.allPageIds base events =
      idsFrom sessions.state.nextPageId count := by
  induction events generalizing sessions index with
  | nil => exact ⟨0, rfl⟩
  | cons event events ih =>
      obtain ⟨hfirst, hlater⟩ := hok
      obtain ⟨sessions', hstep, hnext⟩ := h.step hbase hfirst
      obtain ⟨entries, counter, hkeeps, hturns⟩ := h.keeps
      obtain ⟨m, hnumbers, hnextId⟩ :=
        hkeeps.numbers hbase hturns hfirst hstep
      rw [hstep] at hlater
      obtain ⟨n, hrest⟩ := ih hnext hlater
      refine ⟨m + n, ?_⟩
      rw [IndexSessions.allPageIds, hstep]
      change _ ++ sessions'.allPageIds base events = _
      rw [hnumbers, hrest, hnextId, idsFrom_add]

/-- Over all sessions on a file the pages get the ids 0, 1, 2 and so on: none
is handed out twice. -/
theorem allPageIds_consecutive (hbase : base.Fit)
    (events : List (IndexEvent K V))
    (hok : StepsOk (IndexSessions.step base) (IndexSessions.Admits base)
      IndexSessions.start events) :
    ∃ count, IndexSessions.start.allPageIds base events = idsFrom 0 count :=
  (Follows.new Nat.one_pos).allPageIds hbase hok

theorem allPageIds_consecutive_two_sessions :
    ∃ count, IndexSessions.start.allPageIds
      (BPlusTreeNTS.ofIndex compareInt 4 4) twoSessions = idsFrom 0 count :=
  allPageIds_consecutive BPlusTreeNTS.ofIndex_fit twoSessions twoSessions_ok

/-! ## The pages of the tree -/

/-- What a page holds, in its frame or on the disk. -/
def BufferPoolManager.dataOf (bpm : BufferPoolManager (PageData K V))
    (pageId : PageId) : PageData K V :=
  match bpm.pageTable.find? pageId with
  | some frameId => (bpm.pages frameId).data
  | none => bpm.diskManager.file.page pageId

/-- An internal page refers to the other page. -/
def IsChild (bpm : BufferPoolManager (PageData K V))
    (pageId childId : PageId) : Prop :=
  ∃ page, bpm.dataOf pageId = .internal page ∧
    ∃ item ∈ page.array, item.2 = childId

/-- The page is reached from the root. -/
def InTree (index : BPlusTreeIndexNTS K V) (pageId : PageId) : Prop :=
  index.tree.rootPageId ≠ INVALID_PAGE_ID ∧
    Relation.ReflTransGen (IsChild index.bpm) index.tree.rootPageId pageId

omit [LinearOrder K] [Inhabited K] in
theorem BufferPoolManager.Agrees.dataOf_eq {bpm : BufferPoolManager (PageData K V)}
    (h : bpm.Agrees store) {pageId : PageId} {data : PageData K V}
    (hdata : store.page pageId = some data) : bpm.dataOf pageId = data := by
  rw [dataOf]
  cases hpage : bpm.pageTable.find? pageId with
  | none => exact h.stored pageId data hpage hdata
  | some frameId =>
      exact Option.some.inj ((h.data_eq pageId frameId hpage).symm.trans hdata)

omit [LinearOrder K] [Inhabited K] in
theorem Children.exists_subtree {subtree : WithBot K → WithTop K → PageId →
      PageId → List (LeafPage K V) → Prop} {high : WithTop K}
    {refs : List (Ref K)} {leaves : List (LeafPage K V)}
    (h : Children subtree high refs leaves) {ref : Ref K} (href : ref ∈ refs) :
    ∃ high leaves, subtree ref.low high ref.parentPageId ref.pageId leaves := by
  induction refs generalizing leaves with
  | nil => cases href
  | cons first refs ih =>
      obtain ⟨leaves₁, leaves₂, -, hfirst, hrest⟩ := h
      obtain rfl | hmem := List.mem_cons.mp href
      · exact ⟨_, leaves₁, hfirst⟩
      · exact ih hrest hmem

omit [Inhabited K] in
/-- The pages below a page of a tree are there. -/
theorem Subtree.isSome {bpm : BufferPoolManager (PageData K V)}
    (hagrees : bpm.Agrees store) {leafMaxSize internalMaxSize depth : ℕ}
    {keys : List K} {low : WithBot K} {high : WithTop K}
    {parentPageId pageId pageId' : PageId} {leaves : List (LeafPage K V)}
    (h : Subtree leafMaxSize internalMaxSize store keys depth low high
      parentPageId pageId leaves)
    (hpath : Relation.ReflTransGen (IsChild bpm) pageId pageId') :
    (store.page pageId').isSome := by
  induction depth generalizing low high parentPageId pageId leaves with
  | zero =>
      obtain ⟨page, node, -, hpage, -⟩ := h
      obtain rfl | ⟨childId, ⟨internal, hdata, -⟩, -⟩ := hpath.cases_head
      · exact Option.isSome_of_eq_some hpage
      · rw [hagrees.dataOf_eq hpage] at hdata
        cases hdata
  | succ depth ih =>
      obtain ⟨page, node, hpage, -, -, -, -, -, -, hchildren⟩ := h
      obtain rfl | ⟨childId, ⟨internal, hdata, item, hitem, rfl⟩, hrest⟩ :=
        hpath.cases_head
      · exact Option.isSome_of_eq_some hpage
      · rw [hagrees.dataOf_eq hpage] at hdata
        obtain rfl := PageData.internal.inj hdata
        have hid : item.2 ∈ (refsOf low pageId page.array).map Ref.pageId := by
          rw [pageId_mem_refsOf]
          exact List.mem_map_of_mem hitem
        obtain ⟨ref, href, hrefId⟩ := List.mem_map.mp hid
        obtain ⟨high', leaves', hsubtree⟩ := hchildren.exists_subtree href
        rw [← hrefId] at hrest
        exact ih hsubtree hrest

omit [Inhabited K] in
/-- The pages of the tree have ids that were handed out. -/
theorem ServesIndex.lt_of_inTree {index : BPlusTreeIndexNTS K V}
    (h : ServesIndex base index store entries) (hbase : base.Fit)
    {pageId : PageId} (hin : InTree index pageId) :
    pageId < index.bpm.diskManager.nextPageId := by
  obtain ⟨hroot, hpath⟩ := hin
  have hmax : 4 ≤ index.tree.internalMaxSize := by
    rw [h.serves.tree_eq]
    exact hbase.le_internalMaxSize
  cases h.serves.holds with
  | empty hnone => exact absurd hnone hroot
  | leaves leaves rows hshape =>
      obtain hnone | ⟨depth, pages, hsubtree, -⟩ :=
        hshape.wellFormed h.serves.ready.bounded hmax
      · exact absurd hnone hroot
      · have hsome := hsubtree.isSome h.refines.agrees hpath
        rw [h.refines.agrees.next_eq]
        exact (h.serves.ready.bounded pageId hsome).2

/-- No page that an event makes is a page of the tree. -/
theorem new_pages_apart_from_tree (hbase : base.Fit)
    {sessions : IndexSessions K V} (h : sessions.Reachable base)
    {index : BPlusTreeIndexNTS K V} (hstate : sessions.state = .opened index)
    {event : IndexEvent K V} (hok : sessions.Admits base event) :
    ∀ pageId ∈ sessions.newPageIds base event, ¬ InTree index pageId := by
  intro pageId hnew hin
  obtain ⟨abstract, hfollows⟩ := h.follows hbase
  obtain ⟨sessions', hstep, -⟩ := hfollows.step hbase hok
  obtain ⟨entries, counter, hkeeps, hturns⟩ := hfollows.keeps
  obtain ⟨count, hnumbers, -⟩ := hkeeps.numbers hbase hturns hok hstep
  obtain ⟨store, entries', hserves, -⟩ := h.serves hbase hstate
  rw [hnumbers, hstate] at hnew
  exact absurd (hserves.lt_of_inTree hbase hin)
    (not_lt.mpr (le_of_mem_idsFrom hnew))

theorem new_pages_apart_from_tree_two_sessions :
    ∃ (sessions : IndexSessions ℤ Char) (index : BPlusTreeIndexNTS ℤ Char),
      sessions.state = .opened index ∧
      ∀ pageId ∈ sessions.newPageIds (BPlusTreeNTS.ofIndex compareInt 4 4)
        (.call (.insertEntry 3 'c')), ¬ InTree index pageId := by
  obtain ⟨sessions, index, hreaches, hstate, hok⟩ := exists_after_twoSessions
  exact ⟨sessions, index, hstate,
    new_pages_apart_from_tree BPlusTreeNTS.ofIndex_fit hreaches hstate hok⟩

end Sessions

end TicketSystem.Database
