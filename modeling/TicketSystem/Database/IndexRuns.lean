import TicketSystem.Database.DiskOffsets
import TicketSystem.Database.IndexFile
import TicketSystem.Database.PoolRuns

/-!
# Runs of an index

What a tree does on the page store its buffer pool does, as long as `ReadPage`
finds the pages.  An index in a session serves its entries, and its file holds
them between two sessions.
-/

namespace TicketSystem.Database

open TicketSystem.Support

variable {K V : Type} {D : Type}

/-! ## Pages that `ReadPage` finds -/

/-- The page of the file at which `ReadPage` looks for a page id. -/
def fileIndex (pageId : PageId) : PageId :=
  DiskManager.readOffset pageId / PAGE_SIZE

theorem fileIndex_eq {pageId : PageId} (hid : 0 ≤ pageId)
    (hlt : pageId < 65536) : fileIndex pageId = pageId := by
  have hpage : IsPageId pageId := ⟨hid, hlt.trans (by norm_num)⟩
  rw [fileIndex, (DbFile.readOffset_eq_iff hpage).mpr hlt]
  exact Int.mul_ediv_cancel _ (by decide)

/-! ## Pins -/

namespace BufferPoolManager

variable {bpm : BufferPoolManager D} {store : PageStore D} {poolSize : ℕ}
  {readIndex : PageId → PageId} {pageId : PageId}

/-- The pins of a page; a page that is in no frame has none. -/
def pinCount (bpm : BufferPoolManager D) (pageId : PageId) : ℕ :=
  (bpm.pinCount? pageId).getD 0

/-- The operation gets a page, or is done to a pinned page. -/
def Proper [Zero D] (bpm : BufferPoolManager D) : PageOp D → Prop
  | .newPage => (bpm.newPage.bind Prod.fst).isSome
  | .fetchPage pageId => (bpm.fetchPage pageId).map Prod.fst = some .page
  | .unpinPage pageId _ => 0 < bpm.pinCount pageId
  | .getData pageId => 0 < bpm.pinCount pageId
  | .setData pageId _ => 0 < bpm.pinCount pageId
  | _ => True

theorem Refines.pinCount_eq (h : bpm.Refines poolSize readIndex store)
    (pageId : PageId) : bpm.pinCount pageId = store.pins.count pageId := by
  rw [pinCount, pinCount?]
  cases hpage : bpm.pageTable.find? pageId with
  | none =>
      have hout := h.agrees.count_eq_zero hpage
      simp [Multiset.count_eq_zero_of_notMem hout]
  | some frameId => simpa using h.agrees.pinCount_eq pageId frameId hpage

theorem Refines.pinCount_pos (h : bpm.Refines poolSize readIndex store)
    (hin : pageId ∈ store.pins) : 0 < bpm.pinCount pageId := by
  rw [h.pinCount_eq]
  exact Multiset.count_pos.mpr hin

/-- The id of a new page is the next one, wherever the page is read later. -/
theorem Refines.newPage_fst [Zero D] (h : bpm.Refines poolSize readIndex store)
    (hroom : store.pins.toFinset.card < poolSize) :
    bpm.newPage.bind Prod.fst = some store.nextPageId := by
  rcases h.sound.findFrame_cases with
    ⟨-, hpinned⟩ | ⟨frameId, claimed, hsome, hclaims⟩
  · have hcard := h.agrees.card_pins h.sound hpinned
    rw [h.poolSize_eq] at hcard
    exact absurd hcard (not_le.mpr hroom)
  · have hagrees := h.agrees.claims h.sound hclaims
    rw [BufferPoolManager.newPage, hsome]
    exact congrArg some hagrees.next_eq

/-- What the store does, the pool does properly. -/
theorem Refines.proper [Zero D] (h : bpm.Refines poolSize readIndex store)
    {op : PageOp D} {answer : op.Answer} {store' : PageStore D}
    (hop : store.perform poolSize op = some (answer, store')) :
    bpm.Proper op := by
  cases op with
  | newPage =>
      simp only [PageStore.perform] at hop
      split at hop
      · next hroom =>
        rw [Proper, h.newPage_fst hroom]
        rfl
      · cases hop
  | fetchPage pageId =>
      have hanswer : answer = .page := by
        simp only [PageStore.perform] at hop
        split at hop
        · exact (Prod.mk.inj (Option.some.inj hop)).1.symm
        · cases hop
      subst hanswer
      obtain ⟨bpm', hfetch, -⟩ :=
        h.perform_of_store (fun heq => by cases heq) hop
      rw [Proper]
      change bpm.fetchPage pageId = some (.page, bpm') at hfetch
      rw [hfetch]
      rfl
  | unpinPage pageId isDirty =>
      simp only [PageStore.perform] at hop
      split at hop
      · next hallow => exact h.pinCount_pos hallow.1
      · cases hop
  | getData pageId =>
      simp only [PageStore.perform] at hop
      split at hop
      · next hin => exact h.pinCount_pos hin
      · cases hop
  | setData pageId data =>
      simp only [PageStore.perform] at hop
      split at hop
      · next hin => exact h.pinCount_pos hin
      · cases hop
  | flushPage pageId => trivial
  | flushAllPages => trivial
  | deletePage pageId => trivial

/-- A pool that has no page in a frame shows what is on the disk. -/
theorem refines_of_unmapped (hmapped : ∀ pageId,
      bpm.pageTable.find? pageId = none)
    (hsize : bpm.poolSize = poolSize)
    (hindex : bpm.diskManager.readIndex = readIndex)
    (hfree : bpm.freeList = List.range poolSize)
    (hqueue : bpm.replacer.queue = [])
    (hnum : bpm.replacer.numPages = poolSize)
    (hfailed : bpm.diskManager.failed = false)
    (hnext : bpm.diskManager.nextPageId = store.nextPageId)
    (hnonneg : 0 ≤ store.nextPageId) (hpins : store.pins = 0)
    (howed : store.owed = ∅)
    (hlive : ∀ pageId data, store.page pageId = some data →
      0 ≤ pageId ∧ pageId < store.nextPageId ∧
        pageId < bpm.diskManager.file.size ∧ readIndex pageId = pageId ∧
        bpm.diskManager.file.page pageId = data) :
    bpm.Refines poolSize readIndex store := by
  subst hsize hindex
  refine ⟨?_, ?_, rfl, rfl⟩
  · constructor
    · exact hnum
    · simp
    · simp [hmapped]
    · rw [hfree]
      exact List.nodup_range
    · simp [hfree, hmapped]
    · rw [hqueue]
      exact List.nodup_nil
    · simp [hqueue, hmapped]
    · intro frameId hlt
      rw [hfree]
      exact Or.inl (List.mem_range.mpr hlt)
  · constructor
    · exact hnext
    · exact hnonneg
    · exact hfailed
    · intro pageId hsome
      obtain ⟨data, hdata⟩ := Option.isSome_iff_exists.mp hsome
      obtain ⟨hid, hlt, hsize, hindex, -⟩ := hlive pageId data hdata
      exact ⟨hid, hlt, hsize, hindex⟩
    · simp [hmapped]
    · simp [hmapped]
    · simp [hpins]
    · simp [hmapped]
    · intro pageId data _ hdata
      exact (hlive pageId data hdata).2.2.2.2
    · simp [howed]

end BufferPoolManager

/-! ## Programs on a buffer pool -/

section Programs

variable {bpm : BufferPoolManager (PageData K V)}
  {store : PageStore (PageData K V)} {frames poolSize : ℕ} {α : Type}
  {program : TreeM K V α}

/-- What the store does, the pool does too, where every page is found that the
program makes. -/
theorem BufferPoolManager.Refines.runTree
    (h : bpm.Refines poolSize fileIndex store) (hframes : frames ≤ poolSize)
    (hids : ∀ pageId ∈ bpm.newPageIds program, pageId < 65536)
    {Q : α → PageStore (PageData K V) → Prop}
    (hdoes : Does frames program store Q) :
    ∃ value store' bpm', bpm.runTree program = some (value, bpm') ∧
      Q value store' ∧ bpm'.Refines poolSize fileIndex store' ∧
      ∀ step ∈ program.steps BufferPoolManager.perform bpm,
        step.2.Proper step.1 := by
  obtain ⟨value, store', hrun, hQ⟩ := hdoes
  -- an operation on the store is one on the pool, if a new page is found again
  have hsim : ∀ (op : PageOp (PageData K V)) s answer s'
      (t : BufferPoolManager (PageData K V)),
      s.perform frames op = some (answer, s') →
        t.Refines poolSize fileIndex s →
        (op = .newPage → ∀ pageId ∈ t.newPage.bind Prod.fst, pageId < 65536) →
        ∃ t', t.perform op = some (answer, t') ∧
          t'.Refines poolSize fileIndex s' := by
    intro op s answer s' t hop hrefines hsmall
    refine hrefines.perform_of_store ?_
      (PageStore.perform_mono (fun hlt => hlt.trans_le hframes) hop)
    rintro rfl
    have hroom : s.pins.toFinset.card < poolSize := by
      by_contra hfull
      rw [PageStore.perform, if_neg fun hlt => hfull (hlt.trans_le hframes)]
        at hop
      cases hop
    refine fileIndex_eq hrefines.agrees.next_nonneg ?_
    exact hsmall rfl _ (hrefines.newPage_fst hroom)
  have hsmall : ∀ step ∈ program.steps BufferPoolManager.perform bpm,
      step.1 = .newPage → ∀ pageId ∈ step.2.newPage.bind Prod.fst,
        pageId < 65536 := by
    rintro ⟨_, t⟩ hstep rfl pageId hpage
    exact hids pageId (List.mem_filterMap.mpr ⟨_, hstep, hpage⟩)
  obtain ⟨⟨bpm', hrun', hrefines⟩, hsteps⟩ :=
    Program.run_simulates_of_steps hsim hrun h hsmall
  refine ⟨value, store', bpm', ?_, hQ, hrefines, ?_⟩
  · rw [BufferPoolManager.runTree, hrun']
    rfl
  · intro step hstep
    obtain ⟨s, answer, s', hs, hop⟩ := hsteps step hstep
    exact hs.proper
      (PageStore.perform_mono (fun hlt => hlt.trans_le hframes) hop)

/-! ### Programs without new pages -/

/-- The program makes no pages. -/
abbrev MakesNoPage (program : TreeM K V α) : Prop :=
  program.Performs fun op => op ≠ .newPage

theorem newPageIds_eq_nil (h : MakesNoPage program) :
    bpm.newPageIds program = [] := by
  rw [BufferPoolManager.newPageIds, List.filterMap_eq_nil_iff]
  rintro ⟨op, s⟩ hstep
  cases op with
  | newPage => exact absurd rfl (h.of_mem_steps hstep)
  | _ => rfl

/-- A program that makes its first page and no other one. -/
theorem eq_of_mem_newPageIds {next : Option PageId → TreeM K V α}
    (hnext : ∀ answer, MakesNoPage (next answer)) {pageId : PageId}
    (hmem : pageId ∈ bpm.newPageIds (Program.lift PageOp.newPage >>= next)) :
    bpm.newPage.bind Prod.fst = some pageId := by
  obtain ⟨⟨op, s⟩, hstep, hpage⟩ := List.mem_filterMap.mp hmem
  have hfirst : (Program.lift PageOp.newPage >>= next : TreeM K V α) =
      Program.perform PageOp.newPage next := rfl
  rw [hfirst, Program.steps] at hstep
  rcases List.mem_cons.mp hstep with heq | hlater
  · obtain ⟨rfl, rfl⟩ := Prod.mk.inj heq
    exact hpage
  · split at hlater
    · simp at hlater
    · next answer s' _ =>
      have hne := (hnext answer).of_mem_steps hlater
      cases op with
      | newPage => exact absurd rfl hne
      | _ => cases hpage

theorem makesNoPage_orStop {stop : Stop} (option : Option α) :
    MakesNoPage (orStop (K := K) (V := V) stop option) := by
  cases option <;> trivial

theorem makesNoPage_getHeader (pageId : PageId) :
    MakesNoPage (getHeader (K := K) (V := V) pageId) := by
  apply Program.performs_bind
  · exact Program.performs_lift fun h => by cases h
  · exact fun data => makesNoPage_orStop _

theorem makesNoPage_unpinPage (pageId : PageId) (isDirty : Bool) :
    MakesNoPage (unpinPage (K := K) (V := V) pageId isDirty) := by
  apply Program.performs_bind
  · exact Program.performs_lift fun h => by cases h
  · exact fun _ => Program.performs_pure ()

theorem makesNoPage_fetchPage (pageId : PageId) :
    MakesNoPage (fetchPage (K := K) (V := V) pageId) := by
  apply Program.performs_bind
  · exact Program.performs_lift fun h => by cases h
  · rintro (_ | _ | _) <;> trivial

theorem makesNoPage_construct (tree : BPlusTreeNTS K) :
    MakesNoPage (tree.construct (V := V)) := by
  apply Program.performs_bind (makesNoPage_fetchPage _)
  intro _
  apply Program.performs_bind (makesNoPage_getHeader _)
  intro records
  apply Program.performs_bind (makesNoPage_orStop _)
  intro record
  apply Program.performs_bind (makesNoPage_unpinPage _ _)
  exact fun _ => Program.performs_pure _

/-- Only the header page is made for a new tree. -/
theorem eq_of_mem_newPageIds_create {tree : BPlusTreeNTS K} {pageId : PageId}
    (hmem : pageId ∈ bpm.newPageIds (V := V) tree.create) :
    bpm.newPage.bind Prod.fst = some pageId := by
  refine eq_of_mem_newPageIds ?_ hmem
  rintro (_ | headerPageId)
  · trivial
  · apply Program.performs_bind (makesNoPage_getHeader _)
    intro records
    apply Program.performs_bind
    · exact Program.performs_lift fun h => by cases h
    · exact fun _ => makesNoPage_construct _

theorem makesNoPage_writeMetadata (nextPageId : PageId) (size : ℤ) :
    MakesNoPage (BPlusTreeIndexNTS.writeMetadata (K := K) (V := V) nextPageId
      size) := by
  apply Program.performs_bind (makesNoPage_getHeader _)
  intro records
  apply Program.performs_bind
  · exact Program.performs_lift fun h => by cases h
  · exact fun _ => makesNoPage_unpinPage _ _

end Programs

/-! ## Calls on the page store -/

section Calls

variable [LinearOrder K] {base tree : BPlusTreeNTS K}
  {store : PageStore (PageData K V)} {entries : List (K × V)} {turns : ℕ}

/-- The entries after a call. -/
def IndexCall.entriesAfter (entries : List (K × V)) :
    IndexCall K V → List (K × V)
  | insertEntry key value => insertKey key value entries
  | deleteEntry key => eraseKey key entries
  | _ => entries

/-- What the tree answers to a call, and the vector `result` after it. -/
def IndexCall.reply (entries : List (K × V)) : IndexCall K V → Bool × List V
  | insertEntry key _ => ((lookupKey key entries).isNone, [])
  | deleteEntry key => ((lookupKey key entries).isSome, [])
  | searchKey key result => pushed result (lookupKey key entries)
  | scanKey key result standbyComparator =>
      (!entries.isEmpty, result ++ accepted standbyComparator key
        (entries.filter fun e => key ≤ e.1))

/-- The counter follows the number of entries. -/
theorem IndexCall.length_add_sizeChange (h : KeySorted entries)
    (c : IndexCall K V) :
    (entries.length : ℤ) + c.sizeChange (c.reply entries).1 =
      (c.entriesAfter entries).length := by
  cases c with
  | insertEntry key value =>
      rw [entriesAfter, reply, sizeChange, length_insertKey h]
      cases lookupKey key entries <;> simp
  | deleteEntry key =>
      rw [entriesAfter, reply, sizeChange, length_eraseKey h]
      cases hfind : lookupKey key entries with
      | none => simp
      | some value =>
          have hmem := h.lookupKey_eq_some_iff.mp hfind
          have hpos := List.length_pos_of_mem hmem
          simp
          omega
  | searchKey key result => exact add_zero _
  | scanKey key result standbyComparator => exact add_zero _

theorem IndexCall.length_entriesAfter (h : KeySorted entries)
    (c : IndexCall K V) :
    (c.entriesAfter entries).length ≤ entries.length + 1 := by
  have hlength := c.length_add_sizeChange h
  have hchange : c.sizeChange (c.reply entries).1 ≤ 1 := by
    cases c with
    | insertEntry key value =>
        rw [sizeChange]
        split <;> decide
    | deleteEntry key =>
        rw [sizeChange]
        split <;> decide
    | searchKey key result => exact zero_le_one
    | scanKey key result standbyComparator => exact zero_le_one
  omega

/-- One call answers from the entries, and leaves the other records of the
header page. -/
theorem Serves.does_program [Inhabited K] (h : Serves base tree store entries)
    (hcmp : Compares base.comparator) (hmax : 4 ≤ base.leafMaxSize)
    (hmax' : 4 ≤ base.internalMaxSize) (hturns : entries.length < turns)
    (c : IndexCall K V)
    {Q : (Bool × List V) × BPlusTreeNTS K → PageStore (PageData K V) → Prop}
    (hQ : ∀ tree' store', Serves base tree' store' (c.entriesAfter entries) →
      (∀ name, name ≠ base.indexName →
        store'.record name = store.record name) →
      Q (c.reply entries, tree') store') :
    Does 5 (c.program tree turns) store Q := by
  cases c with
  | insertEntry key value =>
      exact h.does_call hcmp hmax hmax' hturns.le (.insert key value) hQ
  | deleteEntry key =>
      exact h.does_call hcmp hmax hmax' hturns.le (.remove key) hQ
  | searchKey key result =>
      exact h.does_call hcmp hmax hmax' hturns.le (.getValue key result) hQ
  | scanKey key result standbyComparator =>
      have hcomparator : tree.comparator = base.comparator := by rw [h.tree_eq]
      have hleaf : tree.leafMaxSize = base.leafMaxSize := by rw [h.tree_eq]
      have hinternal : tree.internalMaxSize = base.internalMaxSize := by
        rw [h.tree_eq]
      have hcard : store.pins.toFinset.card = 1 := by
        rw [h.pins_eq]
        rfl
      apply Program.ends_bind
      refine h.holds.does_getValues ?_ h.ready ?_ ?_ hturns ?_ ?_
      · rwa [hcomparator]
      · rwa [hleaf]
      · rwa [hinternal]
      · omega
      · exact Program.ends_pure (hQ tree store h fun _ _ => rfl)

end Calls

end TicketSystem.Database
