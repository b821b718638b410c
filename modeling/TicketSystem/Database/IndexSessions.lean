import TicketSystem.Database.IndexRuns

/-!
# The sessions of an index

A session serves the entries that the file holds, and leaves the file with the
entries it served last.  Along all sessions on a file every event ends, and the
entries follow the calls.
-/

namespace TicketSystem.Database

open TicketSystem.Support

variable {K V : Type} [LinearOrder K]

/-! ## An index in a session -/

/-- The index serves its entries on the pages of the store. -/
structure ServesIndex (base : BPlusTreeNTS K) (index : BPlusTreeIndexNTS K V)
    (store : PageStore (PageData K V)) (entries : List (K × V)) : Prop where
  le_poolSize : 5 ≤ index.bpm.poolSize
  refines : index.bpm.Refines index.bpm.poolSize fileIndex store
  serves : Serves base index.tree store entries
  amount : (store.record "page_amount").isSome
  size : (store.record "size").isSome

/-- What the arguments of an index must be. -/
structure BPlusTreeNTS.Fit (base : BPlusTreeNTS K) : Prop where
  compares : Compares base.comparator
  name_eq : base.indexName = "index"
  le_leafMaxSize : 4 ≤ base.leafMaxSize
  le_internalMaxSize : 4 ≤ base.internalMaxSize

section Session

variable {base : BPlusTreeNTS K} {index index' : BPlusTreeIndexNTS K V}
  {store : PageStore (PageData K V)} {entries : List (K × V)} {turns : ℕ}

/-- What a call does in a session. -/
structure CallSpec (base : BPlusTreeNTS K) (index : BPlusTreeIndexNTS K V)
    (c : IndexCall K V) (entries : List (K × V))
    (index' : BPlusTreeIndexNTS K V) (store' : PageStore (PageData K V)) :
    Prop where
  serves : ServesIndex base index' store' (c.entriesAfter entries)
  size_eq : index'.size = index.size + c.sizeChange (c.reply entries).1
  pinCount_eq : ∀ pageId, index'.bpm.pinCount pageId =
    index.bpm.pinCount pageId

theorem ServesIndex.call [Inhabited K]
    (h : ServesIndex base index store entries) (hbase : base.Fit)
    (hturns : entries.length < turns) (c : IndexCall K V)
    (hids : ∀ pageId ∈ index.bpm.newPageIds (c.program index.tree turns),
      pageId < 65536) :
    (∃ index' store', index.call turns c =
        some ((c.reply entries).2, index') ∧
      CallSpec base index c entries index' store') ∧
    ∀ step ∈ (c.program index.tree turns).steps BufferPoolManager.perform
      index.bpm, step.2.Proper step.1 := by
  obtain ⟨⟨answer, tree⟩, store', bpm', hrun, ⟨hanswer, hserves, hrecord⟩,
      hrefines, hproper⟩ :=
    h.refines.runTree h.le_poolSize hids
      (Q := fun answer store' => answer.1 = c.reply entries ∧
        Serves base answer.2 store' (c.entriesAfter entries) ∧
        ∀ name, name ≠ base.indexName →
          store'.record name = store.record name)
      (h.serves.does_program hbase.compares hbase.le_leafMaxSize
        hbase.le_internalMaxSize hturns c
        fun tree' store' hserves hrecord => ⟨rfl, hserves, hrecord⟩)
  dsimp only at hanswer hserves
  have hpool : bpm'.poolSize = index.bpm.poolSize := hrefines.poolSize_eq
  refine ⟨⟨⟨bpm', tree, index.size + c.sizeChange (c.reply entries).1⟩, store',
    ?_, ?_⟩, hproper⟩
  · rw [BPlusTreeIndexNTS.call, hrun, ← hanswer]
    rfl
  · refine ⟨⟨?_, ?_, hserves, ?_, ?_⟩, rfl, ?_⟩
    · exact hpool ▸ h.le_poolSize
    · dsimp only
      rw [hpool]
      exact hrefines
    · rw [hrecord _ (by rw [hbase.name_eq]; decide)]
      exact h.amount
    · rw [hrecord _ (by rw [hbase.name_eq]; decide)]
      exact h.size
    · intro pageId
      dsimp only
      rw [hrefines.pinCount_eq, h.refines.pinCount_eq, hserves.pins_eq,
        h.serves.pins_eq]

/-! ## The file between two sessions -/

/-- The file holds the pages of the store, and with them the entries and the
counter. -/
structure Stored (base : BPlusTreeNTS K) (file : DiskFile (PageData K V))
    (store : PageStore (PageData K V)) (rootPageId : PageId)
    (entries : List (K × V)) (size : ℤ) : Prop where
  live : ∀ pageId data, store.page pageId = some data →
    0 ≤ pageId ∧ pageId < store.nextPageId ∧ pageId < file.size ∧
      fileIndex pageId = pageId ∧ file.page pageId = data
  next_nonneg : 0 ≤ store.nextPageId
  pins_eq : store.pins = 0
  owed_eq : store.owed = ∅
  holds : Holds { base with rootPageId := rootPageId } store entries
  root : store.record base.indexName = some rootPageId
  amount : store.record "page_amount" = some store.nextPageId
  size : store.record "size" = some size

omit [LinearOrder K] in
/-- The header page that the destructor writes. -/
theorem does_writeMetadata {frames : ℕ} {nextPageId : PageId} {size : ℤ}
    (hin : HEADER_PAGE_ID ∈ store.pins) (howed : store.owed = ∅)
    (hamount : (store.record "page_amount").isSome)
    (hsize : (store.record "size").isSome)
    {Q : Unit → PageStore (PageData K V) → Prop}
    (hQ : ∀ data : PageData K V,
      (∀ name, data.records.bind (HeaderRecords.find? · name) =
        if name = "size" then some size
        else if name = "page_amount" then some nextPageId
        else store.record name) →
      Q () ((store.replace HEADER_PAGE_ID data).unpin HEADER_PAGE_ID true)) :
    Does frames (BPlusTreeIndexNTS.writeMetadata nextPageId size) store Q := by
  obtain ⟨amount, hamount⟩ := Option.isSome_iff_exists.mp hamount
  obtain ⟨count, hsize⟩ := Option.isSome_iff_exists.mp hsize
  obtain ⟨data, hlive, hdata⟩ := Option.bind_eq_some_iff.mp hamount
  obtain ⟨records, hrecords, hfind⟩ := Option.bind_eq_some_iff.mp hdata
  have hrecord : ∀ name, store.record name = records.find? name := by
    intro name
    rw [PageStore.record, hlive, Option.bind_some, hrecords, Option.bind_some]
  refine Program.ends_bind (does_getHeader hin hlive hrecords ?_)
  refine Program.ends_bind (does_setData hin ?_)
  refine does_unpinPage hin (fun h => by cases h) ?_
  have hstore : ∀ data : PageData K V, (store.write HEADER_PAGE_ID
      data).unpin HEADER_PAGE_ID true =
        (store.replace HEADER_PAGE_ID data).unpin HEADER_PAGE_ID true := by
    intro data
    simp [PageStore.write, PageStore.replace, PageStore.unpin, howed]
  rw [hstore]
  apply hQ
  intro name
  change HeaderRecords.find? (HeaderRecords.updateRecord
    (HeaderRecords.updateRecord records "page_amount" nextPageId).2 "size"
      size).2 name = _
  rw [HeaderRecords.find?_updateRecord, HeaderRecords.find?_updateRecord,
    HeaderRecords.find?_updateRecord, hrecord]
  rw [hrecord] at hsize hamount
  rw [if_neg (by decide : "size" ≠ "page_amount"), hsize, hamount]
  rfl

/-- A tree stands on the pages that are not the header page. -/
theorem Holds.congr {tree : BPlusTreeNTS K} {store' : PageStore (PageData K V)}
    (h : Holds tree store entries)
    (hsame : ∀ pageId, pageId ≠ HEADER_PAGE_ID →
      store'.page pageId = store.page pageId) :
    Holds tree store' entries := by
  cases h with
  | empty hroot => exact .empty hroot
  | leaves leaves rows hshape =>
      refine .leaves leaves rows ⟨hshape.stands.congr ?_, hshape.fits, hshape.row⟩
      intro pageId hmem
      apply hsame
      rintro rfl
      exact hshape.stands.header hmem

/-- The destructor leaves a file with the entries and the counter. -/
theorem ServesIndex.destroy (h : ServesIndex base index store entries)
    (hbase : base.Fit) :
    ∃ file store', index.destroy = some file ∧
      Stored base file store' index.tree.rootPageId entries index.size ∧
      store'.nextPageId = store.nextPageId := by
  have hin : HEADER_PAGE_ID ∈ store.pins := by
    rw [h.serves.pins_eq]
    exact Multiset.mem_singleton_self _
  obtain ⟨_, store', bpm', hrun, ⟨data, hrecord, hstore⟩, hrefines, -⟩ :=
    h.refines.runTree h.le_poolSize
      (by rw [newPageIds_eq_nil (makesNoPage_writeMetadata _ _)]; simp)
      (Q := fun _ store' => ∃ data : PageData K V,
        (∀ name, data.records.bind (HeaderRecords.find? · name) =
          if name = "size" then some index.size
          else if name = "page_amount" then
            some index.bpm.diskManager.nextPageId
          else store.record name) ∧
        store' = (store.replace HEADER_PAGE_ID data).unpin HEADER_PAGE_ID true)
      (does_writeMetadata hin h.serves.ready.owed_eq h.amount h.size
        fun data hrecord => ⟨data, hrecord, rfl⟩)
  obtain ⟨hflushed, hstored⟩ := hrefines.flushAllPages
  have hnext : store'.nextPageId = store.nextPageId := by rw [hstore]; rfl
  have hnew : ∀ name, store'.record name =
      data.records.bind (HeaderRecords.find? · name) := by
    intro name
    rw [hstore, PageStore.record, PageStore.unpin_page,
      PageStore.replace_page, Function.update_self]
    rfl
  refine ⟨bpm'.flushAllPages.diskManager.file, store', ?_, ?_, hnext⟩
  · rw [BPlusTreeIndexNTS.destroy, hrun]
    rfl
  constructor
  · intro pageId data hdata
    have hlive := hflushed.agrees.live pageId (Option.isSome_of_eq_some hdata)
    rw [hflushed.readIndex_eq] at hlive
    exact ⟨hlive.1, hlive.2.1, hlive.2.2.1, hlive.2.2.2,
      hstored pageId data hdata⟩
  · exact hflushed.agrees.next_nonneg
  · rw [hstore, PageStore.unpin_pins, PageStore.replace_pins, h.serves.pins_eq]
    rfl
  · rw [hstore, PageStore.unpin_owed, PageStore.replace_owed,
      h.serves.ready.owed_eq]
    rfl
  · rw [← h.serves.tree_eq]
    apply h.serves.holds.congr
    intro pageId hne
    rw [hstore]
    exact Function.update_of_ne hne _ _
  · have hname : index.tree.indexName = base.indexName := by
      rw [h.serves.tree_eq]
    rw [hnew, hrecord, ← hname, h.serves.ready.record_eq, hname, hbase.name_eq]
    rfl
  · rw [hnew, hrecord, hnext, h.refines.agrees.next_eq]
    rfl
  · rw [hnew, hrecord, if_pos rfl]

/-! ## The constructor -/

/-- The pool with another next page id. -/
def BufferPoolManager.withNextPageId (bpm : BufferPoolManager (PageData K V))
    (nextPageId : PageId) : BufferPoolManager (PageData K V) :=
  { bpm with diskManager := bpm.diskManager.setNextPageId nextPageId }

omit [LinearOrder K] in
theorem readPage_setNextPageId (disk : DiskManager (PageData K V))
    (nextPageId pageId : PageId) :
    (disk.setNextPageId nextPageId).readPage pageId =
      ((disk.readPage pageId).1,
        (disk.readPage pageId).2.setNextPageId nextPageId) := by
  unfold DiskManager.readPage DiskManager.setNextPageId
  dsimp only
  by_cases hread : disk.failed = false ∧ 0 ≤ disk.readIndex pageId ∧
      disk.readIndex pageId < disk.file.size
  · rw [if_pos hread, if_pos hread]
  · rw [if_neg hread, if_neg hread]

omit [LinearOrder K] in
/-- A new pool fetches without looking at the next page id. -/
theorem fetchPage_withNextPageId (poolSize : ℕ)
    (file : DiskFile (PageData K V)) (nextPageId pageId : PageId) :
    ((BufferPoolManager.new poolSize (DiskManager.new file)).withNextPageId
      nextPageId).fetchPage pageId =
        ((BufferPoolManager.new poolSize (DiskManager.new file)).fetchPage
          pageId).map fun (answer, bpm) =>
            (answer, bpm.withNextPageId nextPageId) := by
  unfold BufferPoolManager.fetchPage BufferPoolManager.findFrame
  simp only [BufferPoolManager.withNextPageId, BufferPoolManager.new,
    LinkedMap.find?_empty]
  cases hfree : (List.range poolSize).getLast? with
  | none => rfl
  | some frameId =>
      simp only [BufferPoolManager.setFrame, readPage_setNextPageId]
      cases hread : (DiskManager.new file).readPage pageId with
      | mk data disk => cases data <;> rfl

/-- The constructor on a file that was left by a session. -/
theorem Stored.construct {file : DiskFile (PageData K V)}
    {rootPageId : PageId} {size : ℤ}
    (h : Stored base file store rootPageId entries size) {poolSize : ℕ}
    (hpool : 5 ≤ poolSize) (memory : ℤ) :
    ∃ index store', BPlusTreeIndexNTS.construct base poolSize file memory =
        some index ∧
      ServesIndex base index store' entries ∧ index.size = size ∧
      index.tree.rootPageId = rootPageId ∧
      store'.nextPageId = store.nextPageId := by
  let bpm : BufferPoolManager (PageData K V) :=
    .new poolSize (DiskManager.new file)
  have hnew : (bpm.withNextPageId store.nextPageId).Refines poolSize fileIndex
      store :=
    BufferPoolManager.refines_of_unmapped (fun _ => LinkedMap.find?_empty) rfl
      rfl rfl rfl rfl rfl rfl h.next_nonneg h.pins_eq h.owed_eq h.live
  obtain ⟨data, hlive, hdata⟩ := Option.bind_eq_some_iff.mp h.root
  obtain ⟨records, hrecords, hroot⟩ := Option.bind_eq_some_iff.mp hdata
  have hrecord : ∀ name, store.record name = records.find? name := by
    intro name
    rw [PageStore.record, hlive, Option.bind_some, hrecords, Option.bind_some]
  have hmetadata : BPlusTreeIndexNTS.readMetadata records =
      some (store.nextPageId, size) := by
    have hamount := h.amount
    have hsize := h.size
    rw [hrecord, HeaderRecords.find?] at hamount hsize
    rw [BPlusTreeIndexNTS.readMetadata, hamount, hsize]
    rfl
  obtain ⟨answer, fetched, hfetch, hafter, hanswers⟩ :=
    hnew.fetchPage (Option.isSome_of_eq_some hlive)
  have hpage : answer = .page := by
    cases answer with
    | page => rfl
    | null =>
        have hcard := hanswers.1
        rw [h.pins_eq] at hcard
        simp at hcard
        omega
    | readLessThenAPage => exact hanswers.elim
  subst hpage
  rw [fetchPage_withNextPageId, Option.map_eq_some_iff] at hfetch
  obtain ⟨⟨_, bpm'⟩, hfetch, heq⟩ := hfetch
  obtain ⟨rfl, rfl⟩ := Prod.mk.inj heq
  obtain ⟨data', hget, hdata'⟩ :=
    hafter.agrees.getData (Multiset.mem_cons_self HEADER_PAGE_ID _)
  obtain rfl : data = data' := Option.some.inj (hlive.symm.trans hdata')
  obtain ⟨tree, store', pool, hrun, ⟨htree, hstore⟩, hrefines, -⟩ :=
    hafter.runTree hpool
      (by rw [newPageIds_eq_nil (makesNoPage_construct _)]; simp)
      (Q := fun tree store' => tree = { base with rootPageId := rootPageId } ∧
        store' = ((store.pin HEADER_PAGE_ID).pin HEADER_PAGE_ID).unpin
          HEADER_PAGE_ID true)
      (does_construct (by exact h.root) (by exact Multiset.mem_cons_self _ _)
        ⟨rfl, rfl⟩)
  have hsame : store'.page = store.page := by rw [hstore]; rfl
  have hnext : store'.nextPageId = store.nextPageId := by rw [hstore]; rfl
  have howed : store'.owed = ∅ := by
    rw [hstore, PageStore.unpin_owed, PageStore.pin_owed, PageStore.pin_owed,
      h.owed_eq]
    rfl
  have hrecord' : ∀ name, store'.record name = store.record name := by
    intro name
    rw [PageStore.record, hsame]
    rfl
  refine ⟨⟨pool, tree, size⟩, store', ?_, ?_, rfl, by rw [htree], hnext⟩
  · rw [BPlusTreeIndexNTS.construct]
    change (bpm.fetchPage HEADER_PAGE_ID).bind _ = _
    rw [hfetch]
    change (bpm'.getData HEADER_PAGE_ID).bind _ = _
    rw [show bpm'.getData HEADER_PAGE_ID = some data from hget]
    change data.records.bind _ = _
    rw [hrecords]
    change (BPlusTreeIndexNTS.readMetadata records).bind _ = _
    rw [hmetadata]
    change ((bpm'.withNextPageId _).runTree base.construct).bind _ = _
    rw [hrun]
    rfl
  · have hsize : pool.poolSize = poolSize := hrefines.poolSize_eq
    refine ⟨?_, ?_, ⟨?_, ?_, ⟨?_, howed, ?_⟩, ?_⟩, ?_, ?_⟩
    · exact hsize ▸ hpool
    · exact hsize ▸ hrefines
    · rw [htree]
    · rw [htree]
      exact h.holds.congr fun pageId _ => congrFun hsame pageId
    · intro pageId hsome
      rw [hsame] at hsome
      obtain ⟨data, hdata⟩ := Option.isSome_iff_exists.mp hsome
      obtain ⟨hid, hlt, -⟩ := h.live pageId data hdata
      exact ⟨hid, hnext ▸ hlt⟩
    · rw [htree, hrecord']
      exact h.root
    · rw [hstore, PageStore.unpin_pins, PageStore.pin_pins,
        Multiset.erase_cons_head, PageStore.pin_pins, h.pins_eq]
      rfl
    · rw [hrecord', h.amount]
      rfl
    · rw [hrecord', h.size]
      rfl

omit [LinearOrder K] in
/-- The constructor gives back the frame of the header page that it could not
fetch. -/
theorem dropHeader_refines {poolSize : ℕ} (hpool : 0 < poolSize) :
    ∃ bpm : BufferPoolManager (PageData K V),
      (BufferPoolManager.new poolSize
        (DiskManager.new DiskFile.empty)).fetchPage HEADER_PAGE_ID =
          some (.readLessThenAPage, bpm) ∧
      (BPlusTreeIndexNTS.dropHeader bpm).Refines poolSize fileIndex
        (PageStore.start HEADER_PAGE_ID) := by
  obtain ⟨frames, rfl⟩ := Nat.exists_eq_succ_of_ne_zero hpool.ne'
  have hread : (DiskManager.new (DiskFile.empty :
      DiskFile (PageData K V))).readPage HEADER_PAGE_ID =
        (none, DiskManager.new DiskFile.empty) := by
    rw [DiskManager.readPage]
    exact if_neg fun h => lt_irrefl (0 : ℤ) h.2.2
  have hlast : (List.range (frames + 1)).getLast? = some frames := by
    rw [List.range_succ, List.getLast?_concat]
  have hinit : (List.range (frames + 1)).dropLast = List.range frames := by
    rw [List.range_succ, List.dropLast_concat]
  let pages : ℕ → Frame (PageData K V) :=
    Function.update (fun _ => Frame.reset) frames Frame.reset
  let bpm : BufferPoolManager (PageData K V) :=
    { poolSize := frames + 1
      pages := Function.update pages frames
        { pages frames with pageId := HEADER_PAGE_ID, pinCount := 1 }
      diskManager := DiskManager.new DiskFile.empty
      pageTable := LinkedMap.empty.assign HEADER_PAGE_ID frames
      replacer := { queue := [], numPages := frames + 1 }
      freeList := List.range frames }
  refine ⟨bpm, ?_, ?_⟩
  · rw [BufferPoolManager.fetchPage]
    simp only [BufferPoolManager.new, LinkedMap.find?_empty,
      BufferPoolManager.findFrame, Nat.succ_eq_add_one, hlast, hinit,
      BufferPoolManager.setFrame, hread]
    rfl
  · have hpage : bpm.pageTable.find? HEADER_PAGE_ID = some frames :=
      LinkedMap.find?_assign_self
    have hunpin : (bpm.unpinPage HEADER_PAGE_ID false).2 =
        { bpm with
          replacer := { queue := [frames], numPages := frames + 1 } }.setFrame
            frames { pages frames with pageId := HEADER_PAGE_ID } := by
      simp [BufferPoolManager.unpinPage, hpage, LRUReplacer.unpin, bpm, pages,
        Frame.reset]
    have hdrop : BPlusTreeIndexNTS.dropHeader bpm =
        { bpm with
          pageTable := bpm.pageTable.erase HEADER_PAGE_ID
          freeList := List.range frames ++ [frames] }.setFrame frames
            (pages frames) := by
      rw [BPlusTreeIndexNTS.dropHeader, hunpin, BufferPoolManager.deletePage]
      simp [hpage, BufferPoolManager.setFrame, LRUReplacer.pin, bpm, pages,
        Frame.reset]
    rw [hdrop]
    refine BufferPoolManager.refines_of_unmapped ?_ rfl rfl List.range_succ.symm
      rfl rfl rfl rfl le_rfl rfl rfl fun _ _ hdata => by cases hdata
    intro pageId
    rw [BufferPoolManager.setFrame_pageTable, LinkedMap.find?_erase]
    split
    · rfl
    · next hne =>
      rw [LinkedMap.find?_assign_of_ne hne, LinkedMap.find?_empty]

/-- The constructor on a new file. -/
theorem construct_empty (hbase : base.Fit) {poolSize : ℕ}
    (hpool : 5 ≤ poolSize) (memory : ℤ) :
    ∃ (index : BPlusTreeIndexNTS K V) (store : PageStore (PageData K V)),
      BPlusTreeIndexNTS.construct base poolSize DiskFile.empty memory =
        some index ∧
      ServesIndex base index store [] ∧ index.size = memory := by
  obtain ⟨bpm, hfetch, hrefines⟩ :=
    dropHeader_refines (K := K) (V := V) (by omega : 0 < poolSize)
  have hids : ∀ pageId ∈ (BPlusTreeIndexNTS.dropHeader bpm).newPageIds
      base.create, pageId < 65536 := by
    intro pageId hmem
    have hpage := eq_of_mem_newPageIds_create hmem
    rw [hrefines.newPage_fst (by simp [PageStore.start]; omega)] at hpage
    obtain rfl := Option.some.inj hpage
    exact (by decide : (0 : ℤ) < 65536)
  obtain ⟨tree, store, bpm', hrun, ⟨hserves, hamount, hsize⟩, hafter, -⟩ :=
    hrefines.runTree hpool hids
      (Q := fun tree store => Serves base tree store [] ∧
        store.record "page_amount" = some 1 ∧ store.record "size" = some 0)
      (does_create hbase.name_eq (fun _ => rfl) rfl rfl rfl (by decide)
        fun tree store hserves hamount hsize => ⟨hserves, hamount, hsize⟩)
  have hpoolSize : bpm'.poolSize = poolSize := hafter.poolSize_eq
  refine ⟨⟨bpm', tree, memory⟩, store, ?_, ⟨?_, ?_, hserves, ?_, ?_⟩, rfl⟩
  · rw [BPlusTreeIndexNTS.construct]
    change ((BufferPoolManager.new poolSize (DiskManager.new
      DiskFile.empty)).fetchPage HEADER_PAGE_ID).bind _ = _
    rw [hfetch]
    change ((BPlusTreeIndexNTS.dropHeader bpm).runTree base.create).bind _ = _
    rw [hrun]
    rfl
  · exact hpoolSize ▸ hpool
  · exact hpoolSize ▸ hafter
  · rw [hamount]
    rfl
  · rw [hsize]
    rfl

end Session

/-! ## Sessions -/

section Sessions

variable {base : BPlusTreeNTS K} {entries : List (K × V)}

/-- The sessions keep the entries; the counter is the one of the index or of
its file, and there is none before the first session. -/
inductive KeepsEntries (base : BPlusTreeNTS K) :
    IndexState K V → List (K × V) → Option ℤ → Prop
  | new : KeepsEntries base (.closed DiskFile.empty) [] none
  | closed {file : DiskFile (PageData K V)}
      {store : PageStore (PageData K V)} {rootPageId : PageId}
      {entries : List (K × V)} {size : ℤ}
      (h : Stored base file store rootPageId entries size) :
      KeepsEntries base (.closed file) entries (some size)
  | opened {index : BPlusTreeIndexNTS K V} {store : PageStore (PageData K V)}
      {entries : List (K × V)} (h : ServesIndex base index store entries) :
      KeepsEntries base (.opened index) entries (some index.size)

/-- The entries after an event. -/
def IndexEvent.entriesAfter (entries : List (K × V)) :
    IndexEvent K V → List (K × V)
  | call c => c.entriesAfter entries
  | clear => []
  | _ => entries

/-- The counter after an event. -/
def IndexEvent.sizeAfter (entries : List (K × V)) (size : Option ℤ) :
    IndexEvent K V → Option ℤ
  | construct _ memory => some (size.getD memory)
  | call c => size.map (· + c.sizeChange (c.reply entries).1)
  | _ => size

/-- The vector `result` after an event. -/
def IndexEvent.reply (entries : List (K × V)) : IndexEvent K V → List V
  | call c => (c.reply entries).2
  | _ => []

/-- A session begins between two sessions, and the rest is done in one. -/
def IndexEvent.Fits (state : IndexState K V) : IndexEvent K V → Prop
  | construct _ _ => ∃ file, state = .closed file
  | _ => ∃ index, state = .opened index

/-- Sessions without `Clear` on pools of at least that many frames. -/
def IndexEvent.Ordinary (poolSize : ℕ) : IndexEvent K V → Prop
  | construct poolSize' _ => poolSize ≤ poolSize'
  | clear => False
  | _ => True

/-- The new pages of the event are among those that `ReadPage` finds. -/
def IndexSessions.IdsBelow [Inhabited K] (base : BPlusTreeNTS K)
    (sessions : IndexSessions K V) (event : IndexEvent K V) : Prop :=
  ∀ pageId ∈ sessions.newPageIds base event, pageId < 65536

omit [LinearOrder K] in
theorem IndexEvent.fits_of_step [Inhabited K] {sessions : IndexSessions K V}
    {event : IndexEvent K V} {out : List V × IndexSessions K V}
    (hstep : sessions.step base event = some out) :
    event.Fits sessions.state := by
  obtain ⟨turns, state⟩ := sessions
  cases state with
  | closed file =>
      cases event with
      | construct poolSize memory => exact ⟨file, rfl⟩
      | _ => cases hstep
  | opened index =>
      cases event with
      | construct poolSize memory => cases hstep
      | _ => exact ⟨index, rfl⟩

/-- Every event ends but `Clear`, of which nothing is said, and the entries and
the counter follow. -/
theorem KeepsEntries.exists_step [Inhabited K] {sessions : IndexSessions K V}
    {size : Option ℤ} (h : KeepsEntries base sessions.state entries size)
    (hbase : base.Fit) (hturns : entries.length < sessions.turns)
    {event : IndexEvent K V} (hfits : event.Fits sessions.state)
    (hordinary : event.Ordinary 5) (hids : sessions.IdsBelow base event) :
    ∃ sessions', sessions.step base event =
        some (event.reply entries, sessions') ∧
      KeepsEntries base sessions'.state (event.entriesAfter entries)
        (event.sizeAfter entries size) ∧
      (event.entriesAfter entries).length < sessions'.turns := by
  obtain ⟨turns, state⟩ := sessions
  cases event with
  | construct poolSize memory =>
      cases h with
      | new =>
          obtain ⟨index, store, hnew, hserves, rfl⟩ :=
            construct_empty (V := V) hbase hordinary memory
          refine ⟨⟨turns, .opened index⟩, ?_, .opened hserves, hturns⟩
          simp only [IndexSessions.step, hnew]
          rfl
      | closed h =>
          obtain ⟨index, store, hnew, hserves, rfl, -⟩ :=
            h.construct hordinary memory
          refine ⟨⟨turns, .opened index⟩, ?_, .opened hserves, hturns⟩
          simp only [IndexSessions.step, hnew]
          rfl
      | opened h =>
          obtain ⟨file, hstate⟩ := hfits
          cases hstate
  | call c =>
      obtain ⟨index, hstate⟩ := hfits
      cases hstate
      cases h with
      | opened h =>
          obtain ⟨⟨index', store', hcall, hspec⟩, -⟩ :=
            h.call hbase hturns c hids
          refine ⟨⟨turns + 1, .opened index'⟩, ?_, ?_, ?_⟩
          · simp only [IndexSessions.step, hcall]
            rfl
          · rw [IndexEvent.sizeAfter, Option.map_some, ← hspec.size_eq]
            exact .opened hspec.serves
          · have hlength := c.length_entriesAfter h.serves.holds.sorted
            change (c.entriesAfter entries).length < turns + 1
            change entries.length < turns at hturns
            omega
  | clear => exact hordinary.elim
  | destroy =>
      obtain ⟨index, hstate⟩ := hfits
      cases hstate
      cases h with
      | opened h =>
          obtain ⟨file, store', hdestroy, hstored, -⟩ := h.destroy hbase
          refine ⟨⟨turns, .closed file⟩, ?_, .closed hstored, hturns⟩
          simp only [IndexSessions.step, hdestroy]
          rfl

end Sessions

end TicketSystem.Database
