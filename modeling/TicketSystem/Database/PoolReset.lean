import TicketSystem.Database.PoolRefinement

/-!
# Clearing a buffer pool

`BPlusTreeIndexNTS::Clear` calls `Initialize` of the buffer pool and `Clear` of
the disk manager.  `Initialize` leaves the page table alone, so that the pool
behaves like a new one exactly when no page is in it.
-/

namespace TicketSystem.Database

open TicketSystem.Support

variable {D : Type}

namespace BufferPoolManager

/-- `Initialize` together with `Clear` of the disk manager. -/
def clear [Zero D] (bpm : BufferPoolManager D) : BufferPoolManager D :=
  { bpm.initializePool with diskManager := bpm.diskManager.clear }

/-! ## What a client and the file show -/

/-- The answers to a sequence of operations, each with the file after it.  The
sequence ends at an operation that has no meaning. -/
def observe [Zero D] (bpm : BufferPoolManager D) :
    List (PageOp D) → List (Σ op : PageOp D, Option (op.Answer × DiskFile D))
  | [] => []
  | op :: ops =>
      match bpm.perform op with
      | none => [⟨op, none⟩]
      | some (answer, bpm) =>
          ⟨op, some (answer, bpm.diskManager.file)⟩ :: bpm.observe ops

/-- The pool with other frames. -/
def withPages (bpm : BufferPoolManager D) (pages : ℕ → Frame D) :
    BufferPoolManager D :=
  { bpm with pages := pages }

@[simp] theorem withPages_pages (bpm : BufferPoolManager D)
    (pages : ℕ → Frame D) : (bpm.withPages pages).pages = pages := rfl

@[simp] theorem withPages_pageTable (bpm : BufferPoolManager D)
    (pages : ℕ → Frame D) :
    (bpm.withPages pages).pageTable = bpm.pageTable := rfl

@[simp] theorem withPages_diskManager (bpm : BufferPoolManager D)
    (pages : ℕ → Frame D) :
    (bpm.withPages pages).diskManager = bpm.diskManager := rfl

/-- The frames that hold a page are the same. -/
structure SamePages (bpm : BufferPoolManager D) (pages : ℕ → Frame D) :
    Prop where
  mapped : ∀ pageId frameId, bpm.pageTable.find? pageId = some frameId →
    pages frameId = bpm.pages frameId
  queued : ∀ frameId ∈ bpm.replacer.queue, pages frameId = bpm.pages frameId

variable {bpm claimed : BufferPoolManager D} {pages : ℕ → Frame D}

/-- A frame is written, and no other one comes into use. -/
theorem SamePages.update (h : bpm.SamePages pages) (frameId : ℕ)
    (frame : Frame D) (disk : DiskManager D)
    (table : LinkedMap PageId ℕ) (replacer : LRUReplacer) (freeList : List ℕ)
    (hmapped : ∀ pageId frameId', table.find? pageId = some frameId' →
      frameId' = frameId ∨ bpm.pageTable.find? pageId = some frameId')
    (hqueued : ∀ frameId' ∈ replacer.queue,
      frameId' = frameId ∨ frameId' ∈ bpm.replacer.queue) :
    ({ bpm with
      diskManager := disk, pageTable := table
      replacer := replacer, freeList := freeList }.setFrame frameId
        frame).SamePages (Function.update pages frameId frame) where
  mapped pageId frameId' hpage := by
    by_cases heq : frameId' = frameId
    · subst heq
      simp only [setFrame_pages, Function.update_self]
    · simp only [setFrame_pages, Function.update_of_ne heq]
      exact h.mapped pageId frameId'
        ((hmapped pageId frameId' hpage).resolve_left heq)
  queued frameId' hin := by
    by_cases heq : frameId' = frameId
    · subst heq
      simp only [setFrame_pages, Function.update_self]
    · simp only [setFrame_pages, Function.update_of_ne heq]
      exact h.queued frameId' ((hqueued frameId' hin).resolve_left heq)

/-- Only the frame and the disk change. -/
theorem SamePages.setFrame (h : bpm.SamePages pages) (frameId : ℕ)
    (frame : Frame D) (disk : DiskManager D) :
    ({ bpm with diskManager := disk }.setFrame frameId frame).SamePages
      (Function.update pages frameId frame) :=
  h.update frameId frame disk bpm.pageTable bpm.replacer bpm.freeList
    (fun _ _ => Or.inr) (fun _ => Or.inr)

/-- `FindFrame` does the same on both pools, and clears the frame it gives. -/
theorem SamePages.findFrame [Zero D] (h : bpm.SamePages pages) :
    bpm.findFrame = none ∧ (bpm.withPages pages).findFrame = none ∨
      bpm.findFrame = some (none, bpm) ∧
        (bpm.withPages pages).findFrame = some (none, bpm.withPages pages) ∨
      ∃ frameId claimed, bpm.findFrame = some (some frameId, claimed) ∧
        (bpm.withPages pages).findFrame =
          some (some frameId,
            claimed.withPages (Function.update pages frameId Frame.reset)) ∧
        claimed.pages frameId = Frame.reset ∧
        claimed.SamePages (Function.update pages frameId Frame.reset) := by
  cases hfree : bpm.freeList.getLast? with
  | some frameId =>
      refine Or.inr (Or.inr ⟨frameId, { bpm with
        freeList := bpm.freeList.dropLast }.setFrame frameId Frame.reset,
        ?_, ?_, Function.update_self _ _ _, ?_⟩)
      · rw [BufferPoolManager.findFrame, hfree]
      · rw [BufferPoolManager.findFrame, withPages, hfree]
        rfl
      · exact h.update frameId Frame.reset bpm.diskManager bpm.pageTable bpm.replacer
          bpm.freeList.dropLast (fun _ _ => Or.inr) (fun _ => Or.inr)
  | none =>
      cases hqueue : bpm.replacer.queue with
      | nil =>
          refine Or.inr (Or.inl ⟨?_, ?_⟩) <;>
            simp [BufferPoolManager.findFrame, withPages, hfree,
              LRUReplacer.victim, hqueue]
      | cons frameId queue =>
          have hsame := h.queued frameId (by rw [hqueue]; exact List.mem_cons_self)
          cases hpage : bpm.pageTable.find? (bpm.pages frameId).pageId with
          | none =>
              refine Or.inl ⟨?_, ?_⟩ <;>
                simp [BufferPoolManager.findFrame, withPages, hfree,
                  LRUReplacer.victim, hqueue, hsame, hpage]
          | some frameId' =>
              refine Or.inr (Or.inr ⟨frameId, { bpm with
                diskManager := bpm.writeBack (bpm.pages frameId)
                pageTable := bpm.pageTable.erase (bpm.pages frameId).pageId
                replacer := { bpm.replacer with
                  queue := queue } }.setFrame frameId Frame.reset,
                ?_, ?_, Function.update_self _ _ _, ?_⟩)
              · simp [BufferPoolManager.findFrame, hfree, LRUReplacer.victim,
                  hqueue, hpage]
              · simp [BufferPoolManager.findFrame, withPages, hfree,
                  LRUReplacer.victim, hqueue, hsame, hpage,
                  BufferPoolManager.setFrame, writeBack]
              · refine h.update frameId Frame.reset _ _ _ _
                  (fun pageId' frameId'' hin => ?_) (fun frameId'' hin => ?_)
                · rw [LinkedMap.find?_erase] at hin
                  split at hin
                  · cases hin
                  · exact Or.inr hin
                · rw [hqueue]
                  exact Or.inr (List.mem_cons_of_mem _ hin)

/-- The page that is put into the claimed frame. -/
theorem SamePages.place (h : claimed.SamePages pages) (pageId : PageId)
    (frameId : ℕ) (frame : Frame D) (disk : DiskManager D) :
    ({ claimed with
      diskManager := disk
      pageTable := claimed.pageTable.assign pageId frameId
      replacer := claimed.replacer.pin frameId }.setFrame frameId
        frame).SamePages (Function.update pages frameId frame) := by
  refine h.update frameId frame disk _ _ _ (fun pageId' frameId' hin => ?_)
    (fun frameId' hin => ?_)
  · rw [LinkedMap.find?_assign] at hin
    split at hin
    · exact Or.inl (Option.some.inj hin).symm
    · exact Or.inr hin
  · exact Or.inr (List.mem_of_mem_erase hin)

/-- An operation on both pools: the same answer, and pools that differ in
their frames alone. -/
def Matches [Zero D] (bpm : BufferPoolManager D) (pages : ℕ → Frame D)
    (op : PageOp D) : Prop :=
  bpm.perform op = none ∧ (bpm.withPages pages).perform op = none ∨
    ∃ answer after pages', bpm.perform op = some (answer, after) ∧
      (bpm.withPages pages).perform op =
        some (answer, after.withPages pages') ∧
      after.SamePages pages'

theorem SamePages.newPage [Zero D] (h : bpm.SamePages pages) :
    bpm.Matches pages .newPage := by
  rcases h.findFrame with ⟨hfind, hfind'⟩ | ⟨hfind, hfind'⟩ |
    ⟨frameId, claimed, hfind, hfind', hreset, hclaimed⟩
  · refine Or.inl ⟨?_, ?_⟩ <;>
      simp [perform, BufferPoolManager.newPage, hfind, hfind']
  · refine Or.inr ⟨none, bpm, pages, ?_, ?_, h⟩ <;>
      simp [perform, BufferPoolManager.newPage, hfind, hfind']
  · refine Or.inr ⟨some claimed.diskManager.nextPageId, _, _, ?_, ?_,
      hclaimed.place claimed.diskManager.nextPageId frameId
        { Frame.reset with
          pageId := claimed.diskManager.nextPageId, pinCount := 1 }
        (claimed.diskManager.allocatePage.2.writePage
          claimed.diskManager.nextPageId 0)⟩
    · simp only [perform, BufferPoolManager.newPage, hfind, hreset]
      rfl
    · simp only [perform, BufferPoolManager.newPage, hfind',
        withPages_pages, withPages_diskManager, Function.update_self]
      rfl

theorem SamePages.fetchPage [Zero D] (h : bpm.SamePages pages)
    (pageId : PageId) : bpm.Matches pages (.fetchPage pageId) := by
  cases hpage : bpm.pageTable.find? pageId with
  | some frameId =>
      have hsame := h.mapped pageId frameId hpage
      refine Or.inr ⟨.page, _, _, ?_, ?_,
        h.update frameId
          { bpm.pages frameId with
            pinCount := (bpm.pages frameId).pinCount + 1 }
          bpm.diskManager bpm.pageTable (bpm.replacer.pin frameId)
          bpm.freeList (fun _ _ => Or.inr)
          fun _ hin => Or.inr (List.mem_of_mem_erase hin)⟩
      · simp only [perform, BufferPoolManager.fetchPage, hpage]
      · simp only [perform, BufferPoolManager.fetchPage,
          withPages_pages, withPages_pageTable, hpage, hsame]
        rfl
  | none =>
      rcases h.findFrame with ⟨hfind, hfind'⟩ | ⟨hfind, hfind'⟩ |
        ⟨frameId, claimed, hfind, hfind', hreset, hclaimed⟩
      · refine Or.inl ⟨?_, ?_⟩
        · simp only [perform, BufferPoolManager.fetchPage, hpage, hfind]
        · simp only [perform, BufferPoolManager.fetchPage,
            withPages_pageTable, hpage, hfind']
      · refine Or.inr ⟨.null, bpm, pages, ?_, ?_, h⟩
        · simp only [perform, BufferPoolManager.fetchPage, hpage, hfind]
        · simp only [perform, BufferPoolManager.fetchPage,
            withPages_pageTable, hpage, hfind']
      · cases hread : claimed.diskManager.readPage pageId with
        | mk data disk =>
          cases data with
          | none =>
              refine Or.inr ⟨.readLessThenAPage, _, _, ?_, ?_,
                hclaimed.place pageId frameId
                  { Frame.reset with pageId := pageId, pinCount := 1 } disk⟩
              · simp only [perform, BufferPoolManager.fetchPage, hpage, hfind,
                  hread, hreset]
              · simp only [perform, BufferPoolManager.fetchPage,
                  withPages_pages, withPages_pageTable, withPages_diskManager,
                  hpage, hfind', hread, Function.update_self]
                rfl
          | some data =>
              refine Or.inr ⟨.page, _, _, ?_, ?_,
                hclaimed.place pageId frameId
                  { (Frame.reset : Frame D) with
                    pageId := pageId, pinCount := 1, data := data } disk⟩
              · simp only [perform, BufferPoolManager.fetchPage, hpage, hfind,
                  hread, hreset]
              · simp only [perform, BufferPoolManager.fetchPage,
                  withPages_pages, withPages_pageTable, withPages_diskManager,
                  hpage, hfind', hread, Function.update_self]
                rfl

theorem SamePages.unpinPage [Zero D] (h : bpm.SamePages pages)
    (pageId : PageId) (isDirty : Bool) :
    bpm.Matches pages (.unpinPage pageId isDirty) := by
  cases hpage : bpm.pageTable.find? pageId with
  | none =>
      refine Or.inr ⟨false, bpm, pages, ?_, ?_, h⟩ <;>
        simp [perform, BufferPoolManager.unpinPage, hpage]
  | some frameId =>
      have hsame := h.mapped pageId frameId hpage
      by_cases hpin : (bpm.pages frameId).pinCount = 0
      · refine Or.inr ⟨false, bpm, pages, ?_, ?_, h⟩ <;>
          simp [perform, BufferPoolManager.unpinPage, hpage, hsame, hpin]
      · refine Or.inr ⟨true, _, _, ?_, ?_,
          h.update frameId
            { bpm.pages frameId with
              isDirty := (bpm.pages frameId).isDirty || isDirty
              pinCount := (bpm.pages frameId).pinCount - 1 }
            bpm.diskManager bpm.pageTable
            (if (bpm.pages frameId).pinCount = 1 then
              bpm.replacer.unpin frameId else bpm.replacer)
            bpm.freeList (fun _ _ => Or.inr) fun frameId' hin => ?_⟩
        · simp only [perform, BufferPoolManager.unpinPage, hpage, if_neg hpin]
        · simp only [perform, BufferPoolManager.unpinPage, withPages_pages,
            withPages_pageTable, hpage, hsame, if_neg hpin]
          rfl
        · split at hin
          · rw [LRUReplacer.unpin] at hin
            split at hin
            · exact Or.inr hin
            · rcases List.mem_append.mp hin with hin | hin
              · exact Or.inr (List.mem_of_mem_erase hin)
              · exact Or.inl (List.mem_singleton.mp hin)
          · exact Or.inr hin

theorem SamePages.deletePage [Zero D] (h : bpm.SamePages pages)
    (pageId : PageId) : bpm.Matches pages (.deletePage pageId) := by
  cases hpage : bpm.pageTable.find? pageId with
  | none =>
      refine Or.inr ⟨true, bpm, pages, ?_, ?_, h⟩ <;>
        simp [perform, BufferPoolManager.deletePage, hpage]
  | some frameId =>
      have hsame := h.mapped pageId frameId hpage
      by_cases hpin : (bpm.pages frameId).pinCount = 0
      · refine Or.inr ⟨true, _, _, ?_, ?_,
          h.update frameId
            { bpm.pages frameId with
              isDirty := false, pageId := INVALID_PAGE_ID, pinCount := 0 }
            bpm.diskManager (bpm.pageTable.erase pageId)
            (bpm.replacer.pin frameId) (bpm.freeList ++ [frameId])
            (fun pageId' frameId' hin => ?_)
            fun _ hin => Or.inr (List.mem_of_mem_erase hin)⟩
        · simp only [perform, BufferPoolManager.deletePage, hpage,
            if_neg (not_not.mpr hpin)]
        · simp only [perform, BufferPoolManager.deletePage, withPages_pages,
            withPages_pageTable, hpage, hsame, if_neg (not_not.mpr hpin)]
          rfl
        · rw [LinkedMap.find?_erase] at hin
          split at hin
          · cases hin
          · exact Or.inr hin
      · refine Or.inr ⟨false, bpm, pages, ?_, ?_, h⟩ <;>
          simp [perform, BufferPoolManager.deletePage, hpage, hsame, hpin]

theorem SamePages.getData [Zero D] (h : bpm.SamePages pages)
    (pageId : PageId) : bpm.Matches pages (.getData pageId) := by
  cases hpage : bpm.pageTable.find? pageId with
  | none =>
      refine Or.inl ⟨?_, ?_⟩ <;>
        simp [perform, BufferPoolManager.getData, hpage]
  | some frameId =>
      have hsame := h.mapped pageId frameId hpage
      by_cases hpin : (bpm.pages frameId).pinCount = 0
      · refine Or.inl ⟨?_, ?_⟩ <;>
          simp [perform, BufferPoolManager.getData, hpage, hsame, hpin]
      · refine Or.inr ⟨(bpm.pages frameId).data, bpm, pages, ?_, ?_, h⟩ <;>
          simp [perform, BufferPoolManager.getData, hpage, hsame, hpin]

theorem SamePages.setData [Zero D] (h : bpm.SamePages pages)
    (pageId : PageId) (data : D) : bpm.Matches pages (.setData pageId data) := by
  cases hpage : bpm.pageTable.find? pageId with
  | none =>
      refine Or.inl ⟨?_, ?_⟩ <;>
        simp [perform, BufferPoolManager.setData, hpage]
  | some frameId =>
      have hsame := h.mapped pageId frameId hpage
      by_cases hpin : (bpm.pages frameId).pinCount = 0
      · refine Or.inl ⟨?_, ?_⟩ <;>
          simp [perform, BufferPoolManager.setData, hpage, hsame, hpin]
      · refine Or.inr ⟨(), _, _, ?_, ?_,
          h.setFrame frameId { bpm.pages frameId with data := data }
            bpm.diskManager⟩
        · simp [perform, BufferPoolManager.setData, hpage, hpin]
        · simp [perform, BufferPoolManager.setData, hpage, hsame, hpin]
          rfl

/-- A turn of `FlushAllPages`, and with it `FlushPage`. -/
theorem SamePages.flushFrame (h : bpm.SamePages pages) {pageId : PageId}
    {frameId : ℕ} (hpage : bpm.pageTable.find? pageId = some frameId) :
    ∃ pages', (bpm.withPages pages).flushFrame frameId =
        (bpm.flushFrame frameId).withPages pages' ∧
      (bpm.flushFrame frameId).SamePages pages' := by
  have hsame := h.mapped pageId frameId hpage
  refine ⟨_, ?_, h.setFrame frameId
    { bpm.pages frameId with isDirty := false } _⟩
  simp only [BufferPoolManager.flushFrame, withPages_pages, hsame]
  rfl

theorem SamePages.flushPage [Zero D] (h : bpm.SamePages pages)
    (pageId : PageId) : bpm.Matches pages (.flushPage pageId) := by
  by_cases hid : pageId = INVALID_PAGE_ID
  · refine Or.inr ⟨false, bpm, pages, ?_, ?_, h⟩ <;>
      simp [perform, BufferPoolManager.flushPage, hid]
  cases hpage : bpm.pageTable.find? pageId with
  | none =>
      refine Or.inr ⟨false, bpm, pages, ?_, ?_, h⟩ <;>
        simp [perform, BufferPoolManager.flushPage, hid, hpage]
  | some frameId =>
      have hsame := h.mapped pageId frameId hpage
      refine Or.inr ⟨true, _, _, ?_, ?_,
        h.setFrame frameId { bpm.pages frameId with isDirty := false }
          (bpm.diskManager.writePage pageId (bpm.pages frameId).data)⟩
      · simp only [perform, BufferPoolManager.flushPage, if_neg hid, hpage]
      · simp only [perform, BufferPoolManager.flushPage, if_neg hid,
          withPages_pages, withPages_pageTable, hpage, hsame]
        rfl

theorem SamePages.flushAllPages [Zero D] (h : bpm.SamePages pages) :
    bpm.Matches pages .flushAllPages := by
  suffices hloop : ∀ (items : List (PageId × ℕ)) (bpm : BufferPoolManager D)
      (pages : ℕ → Frame D), bpm.SamePages pages →
      (∀ item ∈ items, bpm.pageTable.find? item.1 = some item.2) →
        ∃ pages', items.foldl (fun bpm item => bpm.flushFrame item.2)
            (bpm.withPages pages) =
              (items.foldl (fun bpm item => bpm.flushFrame item.2)
                bpm).withPages pages' ∧
          (items.foldl (fun bpm item => bpm.flushFrame item.2)
            bpm).SamePages pages' by
    obtain ⟨pages', heq, hsame⟩ := hloop bpm.pageTable.entries bpm pages h
      fun item hitem => LinkedMap.mem_entries_iff.mp hitem
    refine Or.inr ⟨(), bpm.flushAllPages, pages', rfl, ?_, hsame⟩
    rw [perform, BufferPoolManager.flushAllPages, withPages_pageTable, heq]
    rfl
  intro items
  induction items with
  | nil => exact fun bpm pages h _ => ⟨pages, rfl, h⟩
  | cons item items ih =>
      intro bpm pages h hitems
      obtain ⟨pages', heq, hsame⟩ :=
        h.flushFrame (hitems item List.mem_cons_self)
      rw [List.foldl_cons, List.foldl_cons, heq]
      exact ih _ _ hsame fun item' hitem' =>
        hitems item' (List.mem_cons_of_mem item hitem')

theorem SamePages.perform [Zero D] (h : bpm.SamePages pages) :
    ∀ op, bpm.Matches pages op
  | .newPage => h.newPage
  | .fetchPage pageId => h.fetchPage pageId
  | .unpinPage pageId isDirty => h.unpinPage pageId isDirty
  | .flushPage pageId => h.flushPage pageId
  | .flushAllPages => h.flushAllPages
  | .deletePage pageId => h.deletePage pageId
  | .getData pageId => h.getData pageId
  | .setData pageId data => h.setData pageId data

/-- Frames that hold no page cannot be observed. -/
theorem SamePages.observe_eq [Zero D] (h : bpm.SamePages pages)
    (ops : List (PageOp D)) :
    (bpm.withPages pages).observe ops = bpm.observe ops := by
  induction ops generalizing bpm pages with
  | nil => rfl
  | cons op ops ih =>
      rcases h.perform op with
        ⟨hop, hop'⟩ | ⟨answer, after, pages', hop, hop', hafter⟩
      · rw [observe, observe, hop, hop']
      · simp only [observe, hop, hop', ih hafter, withPages_diskManager]

/-! ## Runs with clears -/

/-- What is done to the buffer pool of an index. -/
inductive PoolCall (D : Type)
  | perform (op : PageOp D)
  | clear

/-- One call; the answers are of no concern here. -/
def call [Zero D] (bpm : BufferPoolManager D) :
    PoolCall D → Option (Unit × BufferPoolManager D)
  | .perform op => (bpm.perform op).map fun result => ((), result.2)
  | .clear => some ((), bpm.clear)

/-- The pools that a database file and a sequence of calls lead to. -/
def Reachable [Zero D] (poolSize : ℕ) (file : DiskFile D)
    (bpm : BufferPoolManager D) : Prop :=
  Reaches call (fun _ _ => True) (new poolSize (DiskManager.new file)) bpm

/-- What no call changes. -/
def shape (bpm : BufferPoolManager D) : ℕ × ℕ × (PageId → PageId) :=
  (bpm.poolSize, bpm.replacer.numPages, bpm.diskManager.readIndex)

theorem findFrame_shape [Zero D] {answer : Option ℕ}
    (hfind : bpm.findFrame = some (answer, claimed)) :
    claimed.shape = bpm.shape := by
  unfold findFrame at hfind
  split at hfind
  · obtain ⟨-, rfl⟩ := Prod.mk.inj (Option.some.inj hfind)
    rfl
  · unfold LRUReplacer.victim at hfind
    cases hqueue : bpm.replacer.queue with
    | nil =>
        simp only [hqueue] at hfind
        obtain ⟨-, rfl⟩ := Prod.mk.inj (Option.some.inj hfind)
        rfl
    | cons frameId queue =>
        simp only [hqueue] at hfind
        split at hfind
        · cases hfind
        · obtain ⟨-, rfl⟩ := Prod.mk.inj (Option.some.inj hfind)
          simp [shape, writeBack, apply_ite DiskManager.readIndex]

theorem newPage_shape [Zero D] {answer : Option PageId}
    (hnew : bpm.newPage = some (answer, claimed)) :
    claimed.shape = bpm.shape := by
  unfold newPage at hnew
  split at hnew
  · cases hnew
  · next hfind =>
    obtain ⟨-, rfl⟩ := Prod.mk.inj (Option.some.inj hnew)
    exact findFrame_shape hfind
  · next hfind =>
    obtain ⟨-, rfl⟩ := Prod.mk.inj (Option.some.inj hnew)
    rw [← findFrame_shape hfind]
    simp [shape, LRUReplacer.pin]

theorem fetchPage_shape [Zero D] {pageId : PageId} {answer : Fetched}
    (hfetch : bpm.fetchPage pageId = some (answer, claimed)) :
    claimed.shape = bpm.shape := by
  unfold fetchPage at hfetch
  split at hfetch
  · obtain ⟨-, rfl⟩ := Prod.mk.inj (Option.some.inj hfetch)
    rfl
  · split at hfetch
    · cases hfetch
    · next hfind =>
      obtain ⟨-, rfl⟩ := Prod.mk.inj (Option.some.inj hfetch)
      exact findFrame_shape hfind
    · next placed hfind =>
      rw [← findFrame_shape hfind]
      have hread : (placed.diskManager.readPage pageId).2.readIndex =
          placed.diskManager.readIndex := readPage_readIndex placed.diskManager
      simp only at hfetch
      split at hfetch
      · next heq =>
        obtain ⟨-, rfl⟩ := Prod.mk.inj (Option.some.inj hfetch)
        rw [heq] at hread
        simpa [shape, LRUReplacer.pin] using hread
      · next heq =>
        obtain ⟨-, rfl⟩ := Prod.mk.inj (Option.some.inj hfetch)
        rw [heq] at hread
        simpa [shape, LRUReplacer.pin] using hread

theorem unpinPage_shape (bpm : BufferPoolManager D) (pageId : PageId)
    (isDirty : Bool) :
    (bpm.unpinPage pageId isDirty).2.shape = bpm.shape := by
  unfold unpinPage
  split
  · rfl
  · simp only
    split
    · rfl
    · simp only [shape, setFrame_poolSize, setFrame_replacer,
        setFrame_diskManager, LRUReplacer.unpin]
      split_ifs <;> rfl

theorem flushFrame_shape (bpm : BufferPoolManager D) (frameId : ℕ) :
    (bpm.flushFrame frameId).shape = bpm.shape := by
  simp [shape, flushFrame]

theorem flushAllPages_shape (bpm : BufferPoolManager D) :
    bpm.flushAllPages.shape = bpm.shape := by
  rw [flushAllPages]
  generalize bpm.pageTable.entries = items
  induction items generalizing bpm with
  | nil => rfl
  | cons item items ih =>
      rw [List.foldl_cons, ih, flushFrame_shape]

theorem flushPage_shape (bpm : BufferPoolManager D) (pageId : PageId) :
    (bpm.flushPage pageId).2.shape = bpm.shape := by
  unfold flushPage
  split
  · rfl
  · split
    · rfl
    · simp [shape]

theorem deletePage_shape (bpm : BufferPoolManager D) (pageId : PageId) :
    (bpm.deletePage pageId).2.shape = bpm.shape := by
  unfold deletePage
  split
  · rfl
  · simp only
    split <;> rfl

theorem perform_shape [Zero D] {op : PageOp D} {answer : op.Answer}
    (hop : bpm.perform op = some (answer, claimed)) :
    claimed.shape = bpm.shape := by
  cases op with
  | newPage => exact newPage_shape hop
  | fetchPage pageId => exact fetchPage_shape hop
  | unpinPage pageId isDirty =>
      obtain ⟨-, rfl⟩ := Prod.mk.inj (Option.some.inj hop)
      exact unpinPage_shape bpm pageId isDirty
  | flushPage pageId =>
      obtain ⟨-, rfl⟩ := Prod.mk.inj (Option.some.inj hop)
      exact flushPage_shape bpm pageId
  | flushAllPages =>
      obtain ⟨-, rfl⟩ := Prod.mk.inj (Option.some.inj hop)
      exact flushAllPages_shape bpm
  | deletePage pageId =>
      obtain ⟨-, rfl⟩ := Prod.mk.inj (Option.some.inj hop)
      exact deletePage_shape bpm pageId
  | getData pageId =>
      obtain ⟨data, -, heq⟩ := Option.map_eq_some_iff.mp hop
      obtain ⟨-, rfl⟩ := Prod.mk.inj heq
      rfl
  | setData pageId data =>
      obtain ⟨after, hset, heq⟩ := Option.map_eq_some_iff.mp hop
      obtain ⟨-, rfl⟩ := Prod.mk.inj heq
      unfold setData at hset
      split at hset
      · cases hset
      · simp only at hset
        split at hset
        · cases hset
        · obtain rfl := Option.some.inj hset
          rfl

theorem Reachable.shape_eq [Zero D] {poolSize : ℕ} {file : DiskFile D}
    (h : Reachable poolSize file bpm) :
    bpm.shape = (new poolSize (DiskManager.new file)).shape := by
  refine Reaches.invariant
    (fun bpm => bpm.shape = (new poolSize (DiskManager.new file)).shape) rfl
    ?_ h
  intro bpm item _ after hshape _ hcall
  cases item with
  | perform op =>
      obtain ⟨⟨answer, after'⟩, hop, heq⟩ := Option.map_eq_some_iff.mp hcall
      obtain rfl := (Prod.mk.inj heq).2
      exact (perform_shape hop).trans hshape
  | clear =>
      obtain rfl := (Prod.mk.inj (Option.some.inj hcall)).2
      exact hshape

/-- After a clear nobody can tell the pool from a new one over an empty
file. -/
def FreshAfterClear [Zero D] (bpm : BufferPoolManager D) : Prop :=
  ∀ ops, bpm.clear.observe ops =
    (new bpm.poolSize (DiskManager.new DiskFile.empty)).observe ops

/-- Over an empty file no page is fetched at first. -/
theorem new_fetchPage_ne [Zero D] (poolSize : ℕ) (pageId : PageId)
    (after : BufferPoolManager D) :
    (new poolSize (DiskManager.new DiskFile.empty)).fetchPage pageId ≠
      some (.page, after) := by
  have hread : ∀ disk : DiskManager D, disk.file.size = 0 →
      (disk.readPage pageId).1 = none := by
    intro disk hsize
    rw [DiskManager.readPage, if_neg]
    rintro ⟨-, hid, hlt⟩
    rw [hsize] at hlt
    exact absurd hlt (not_lt.mpr hid)
  cases poolSize with
  | zero => simp [new, fetchPage, findFrame, LRUReplacer.victim]
  | succ n =>
      have hnone := hread (DiskManager.new DiskFile.empty) rfl
      simp only [new, fetchPage, findFrame, LinkedMap.find?_empty,
        List.range_succ, List.getLast?_append, List.getLast?_singleton,
        Option.some_or, setFrame_diskManager]
      split
      · simp
      · next heq =>
        rw [heq] at hnone
        cases hnone

/-- A page that stays in the page table is fetched, although the file is
empty. -/
theorem not_freshAfterClear [Zero D] {pageId : PageId} {frameId : ℕ}
    (hpage : bpm.pageTable.find? pageId = some frameId) :
    ¬ bpm.FreshAfterClear := by
  intro hfresh
  obtain ⟨after, hclear⟩ : ∃ after,
      bpm.clear.fetchPage pageId = some (.page, after) :=
    ⟨_, by simp only [fetchPage, clear, initializePool, hpage]; rfl⟩
  have hsame := hfresh [.fetchPage pageId]
  cases hnew : (new bpm.poolSize
      (DiskManager.new (DiskFile.empty : DiskFile D))).fetchPage pageId with
  | none => simp [observe, perform, hclear, hnew] at hsame
  | some result =>
      obtain ⟨answer, after'⟩ := result
      simp only [observe, perform, hclear, hnew, List.cons.injEq,
        Sigma.mk.injEq, heq_eq_eq, Option.some.injEq, Prod.mk.injEq,
        true_and] at hsame
      obtain rfl := hsame.1.1
      exact new_fetchPage_ne bpm.poolSize pageId after' hnew

/-- A clear gives a fresh pool exactly when the page table is empty. -/
theorem Reachable.freshAfterClear_iff [Zero D] {poolSize : ℕ}
    {file : DiskFile D} (h : Reachable poolSize file bpm) :
    bpm.FreshAfterClear ↔ ∀ pageId, bpm.pageTable.find? pageId = none := by
  constructor
  · intro hfresh pageId
    cases hpage : bpm.pageTable.find? pageId with
    | none => rfl
    | some frameId => exact absurd hfresh (not_freshAfterClear hpage)
  · intro hempty ops
    have hclear : bpm.clear =
        (new bpm.poolSize (DiskManager.new DiskFile.empty)).withPages
          bpm.pages := by
      obtain ⟨poolSize, pages, disk, table, replacer, freeList⟩ := bpm
      obtain rfl := LinkedMap.eq_empty hempty
      obtain ⟨hsize, hnum, hindex⟩ :
          poolSize = _ ∧ replacer.numPages = _ ∧ disk.readIndex = _ := by
        simpa [shape] using h.shape_eq
      simp only [clear, initializePool, DiskManager.clear,
        LRUReplacer.clear, hnum, hindex, hsize]
      rfl
    rw [hclear]
    apply SamePages.observe_eq
    constructor
    · simp [new]
    · simp [new]

/-- A page that was created, unpinned and deleted leaves the page table
empty. -/
theorem Reachable.freshAfterClear_iff_deleted :
    ∃ bpm : BufferPoolManager ℕ, bpm.diskManager.nextPageId = 1 ∧
      bpm.FreshAfterClear := by
  let calls : List (PoolCall ℕ) :=
    [.perform .newPage, .perform (.unpinPage 0 true),
      .perform (.deletePage 0)]
  have hrun : ((runSteps call (new 2 (DiskManager.new DiskFile.empty))
      calls).map fun bpm =>
        (bpm.diskManager.nextPageId, bpm.pageTable.entries)) =
      some (1, []) := by decide +kernel
  obtain ⟨bpm, hbpm, heq⟩ := Option.map_eq_some_iff.mp hrun
  obtain ⟨hnext, hentries⟩ := Prod.mk.inj heq
  have hok : StepsOk call (fun _ _ => True)
      (new 2 (DiskManager.new (DiskFile.empty : DiskFile ℕ))) calls := by
    decide +kernel
  refine ⟨bpm, hnext, (Reachable.freshAfterClear_iff
    (Reaches.refl.runSteps hok hbpm)).mpr fun pageId => ?_⟩
  rw [LinkedMap.find?, hentries]
  rfl

/-- A page that is in the pool, as the header page of an index is, stays
mapped across a clear. -/
theorem not_always_freshAfterClear :
    ¬ ∀ (poolSize : ℕ) (file : DiskFile ℕ) (bpm : BufferPoolManager ℕ),
      Reachable poolSize file bpm → bpm.FreshAfterClear := by
  intro hall
  have hrun : ((runSteps call (new 2 (DiskManager.new DiskFile.empty))
      [.perform .newPage]).map fun bpm : BufferPoolManager ℕ =>
        bpm.pageTable.find? 0) = some (some 1) := by decide +kernel
  obtain ⟨bpm, hbpm, hpage⟩ := Option.map_eq_some_iff.mp hrun
  have hok : StepsOk call (fun _ _ => True)
      (new 2 (DiskManager.new (DiskFile.empty : DiskFile ℕ)))
      [.perform .newPage] := by
    decide +kernel
  exact not_freshAfterClear hpage
    (hall 2 DiskFile.empty bpm (Reaches.refl.runSteps hok hbpm))

end BufferPoolManager

end TicketSystem.Database
