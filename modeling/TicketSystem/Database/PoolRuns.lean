import TicketSystem.Database.PoolRefinement

/-!
# The frames along a run of a buffer pool

Nothing is asked of the client here except that it fetches pages the disk has.
Beside the pool stands a clock, which tells when the pin count of each page
last reached zero; the replacer keeps its frames in the order of these times.
-/

namespace TicketSystem.Database

open TicketSystem.Support

variable {D : Type}

/-! ## A pool and its clock -/

/-- The page is present on disk. -/
def DiskManager.Holds (disk : DiskManager D) (pageId : PageId) : Prop :=
  0 ≤ pageId ∧ pageId < disk.file.size

instance (disk : DiskManager D) (pageId : PageId) :
    Decidable (disk.Holds pageId) :=
  inferInstanceAs (Decidable (_ ∧ _))

/-- Every page of the file was handed out by the counter. -/
structure DiskManager.Counted (disk : DiskManager D) : Prop where
  failed_eq : disk.failed = false
  next_nonneg : 0 ≤ disk.nextPageId
  size_le : disk.file.size ≤ disk.nextPageId

/-- The pin count of a page that is in a frame. -/
def BufferPoolManager.pinCount? (bpm : BufferPoolManager D)
    (pageId : PageId) : Option ℕ :=
  (bpm.pageTable.find? pageId).map fun frameId => (bpm.pages frameId).pinCount

/-- A buffer pool, how many operations it has performed, and during which of
them the pin count of a page last reached zero. -/
structure TimedPool (D : Type) where
  bpm : BufferPoolManager D
  clock : ℕ
  unpinnedAt : PageId → ℕ

namespace TimedPool

def start [Zero D] (poolSize : ℕ) (disk : DiskManager D) : TimedPool D where
  bpm := BufferPoolManager.new poolSize disk
  clock := 0
  unpinnedAt _ := 0

/-- The pool after an operation. -/
def tick (pool : TimedPool D) (bpm : BufferPoolManager D) : TimedPool D where
  bpm := bpm
  clock := pool.clock + 1
  unpinnedAt pageId :=
    if pool.bpm.pinCount? pageId ≠ some 0 ∧ bpm.pinCount? pageId = some 0 then
      pool.clock
    else pool.unpinnedAt pageId

def step [Zero D] (pool : TimedPool D) (op : PageOp D) :
    Option (Unit × TimedPool D) :=
  (pool.bpm.perform op).map fun result => ((), pool.tick result.2)

/-- Only ids that are present on disk are fetched. -/
def Admits (pool : TimedPool D) : PageOp D → Prop
  | .fetchPage pageId => pool.bpm.diskManager.Holds pageId
  | _ => True

instance (pool : TimedPool D) (op : PageOp D) : Decidable (pool.Admits op) :=
  match op with
  | .fetchPage pageId =>
      inferInstanceAs (Decidable (pool.bpm.diskManager.Holds pageId))
  | .newPage | .unpinPage .. | .flushPage _ | .flushAllPages | .deletePage _
  | .getData _ | .setData .. => isTrue trivial

/-- The states of the runs on a new pool. -/
def Reachable [Zero D] (poolSize : ℕ) (disk : DiskManager D)
    (pool : TimedPool D) : Prop :=
  Reaches step Admits (start poolSize disk) pool

end TimedPool

/-! ## What every operation keeps -/

namespace BufferPoolManager

/-- The frames are shared out, and the pages in them were handed out by the
disk manager. -/
structure Kept (bpm : BufferPoolManager D) : Prop where
  sound : bpm.Sound none
  counted : bpm.diskManager.Counted
  allocated : ∀ pageId frameId, bpm.pageTable.find? pageId = some frameId →
    0 ≤ pageId ∧ pageId < bpm.diskManager.nextPageId

/-- How the replacer changes: frames leave it, or one whose page was pinned is
put at its end; and frames that stay keep their pages. -/
structure QueueStep (bpm bpm' : BufferPoolManager D) : Prop where
  queue :
    bpm'.replacer.queue.Sublist bpm.replacer.queue ∨
      ∃ pageId frameId,
        bpm'.replacer.queue = bpm.replacer.queue ++ [frameId] ∧
          bpm'.pageTable.find? pageId = some frameId ∧
          bpm.pinCount? pageId ≠ some 0
  pages : ∀ frameId ∈ bpm.replacer.queue,
    frameId ∈ bpm'.replacer.queue →
      (bpm'.pages frameId).pageId = (bpm.pages frameId).pageId

/-- Pages that are pinned stay in their frames. -/
def KeepsPinned (bpm bpm' : BufferPoolManager D) : Prop :=
  ∀ pageId frameId, bpm.pageTable.find? pageId = some frameId →
    (bpm.pages frameId).pinCount ≠ 0 →
      bpm'.pageTable.find? pageId = some frameId

variable {bpm bpm' : BufferPoolManager D} {pageId : PageId} {frameId : ℕ}

theorem QueueStep.of_eq (hqueue : bpm'.replacer.queue = bpm.replacer.queue)
    (hpages : ∀ frameId ∈ bpm.replacer.queue,
      (bpm'.pages frameId).pageId = (bpm.pages frameId).pageId) :
    QueueStep bpm bpm' where
  queue := Or.inl (by rw [hqueue])
  pages frameId hin _ := hpages frameId hin

theorem new_kept [Zero D] (poolSize : ℕ) {disk : DiskManager D}
    (hdisk : disk.Counted) : (new poolSize disk).Kept where
  sound := new_sound poolSize disk
  counted := hdisk
  allocated := by simp [new]

end BufferPoolManager

namespace DiskManager

variable {disk : DiskManager D} {pageId : PageId}

@[simp] theorem writePage_nextPageId (disk : DiskManager D)
    (pageId : PageId) (data : D) :
    (disk.writePage pageId data).nextPageId = disk.nextPageId := by
  unfold writePage
  split_ifs <;> rfl

@[simp] theorem readPage_nextPageId (disk : DiskManager D)
    (pageId : PageId) :
    (disk.readPage pageId).2.nextPageId = disk.nextPageId := by
  rw [readPage]
  split <;> rfl

theorem Counted.writePage (h : disk.Counted) (hid : 0 ≤ pageId)
    (hlt : pageId < disk.nextPageId) (data : D) :
    (disk.writePage pageId data).Counted where
  failed_eq := by
    rw [DiskManager.writePage, if_neg (by simp [h.failed_eq]),
      if_neg (not_lt.mpr hid)]
    exact h.failed_eq
  next_nonneg := by simpa using h.next_nonneg
  size_le := by
    rw [DiskManager.writePage, if_neg (by simp [h.failed_eq]),
      if_neg (not_lt.mpr hid)]
    exact max_le h.size_le hlt

/-- The page that is written after its id was handed out. -/
theorem Counted.writePage_allocatePage (h : disk.Counted) (data : D) :
    (disk.allocatePage.2.writePage disk.allocatePage.1 data).Counted := by
  apply Counted.writePage
  · exact ⟨h.failed_eq, h.next_nonneg.trans (lt_add_one _).le,
      h.size_le.trans (lt_add_one _).le⟩
  · exact h.next_nonneg
  · exact lt_add_one _

/-- What the disk holds stays when another page is written. -/
theorem Holds.writePage (h : disk.Holds pageId) (pageId' : PageId)
    (data : D) : (disk.writePage pageId' data).Holds pageId := by
  obtain ⟨hid, hsize⟩ := h
  unfold DiskManager.writePage
  split
  · exact ⟨hid, hsize⟩
  · split
    · exact ⟨hid, hsize⟩
    · exact ⟨hid, lt_max_of_lt_left hsize⟩

theorem Counted.readPage (h : disk.Counted) (pageId : PageId) :
    (disk.readPage pageId).2.Counted := by
  rw [DiskManager.readPage]
  split
  · exact h
  · exact ⟨rfl, h.next_nonneg, h.size_le⟩

end DiskManager

namespace BufferPoolManager

variable {bpm bpm' : BufferPoolManager D} {pageId : PageId} {frameId : ℕ}

/-! ### Changes that leave the frames to their pages -/

/-- The pool apart from bytes, dirty marks and the disk. -/
structure SameFrames (bpm bpm' : BufferPoolManager D) : Prop where
  poolSize_eq : bpm'.poolSize = bpm.poolSize
  pageTable_eq : bpm'.pageTable = bpm.pageTable
  replacer_eq : bpm'.replacer = bpm.replacer
  freeList_eq : bpm'.freeList = bpm.freeList
  pageId_eq : ∀ frameId, (bpm'.pages frameId).pageId =
    (bpm.pages frameId).pageId
  pinCount_eq : ∀ frameId, (bpm'.pages frameId).pinCount =
    (bpm.pages frameId).pinCount

theorem SameFrames.refl (bpm : BufferPoolManager D) : SameFrames bpm bpm :=
  ⟨rfl, rfl, rfl, rfl, fun _ => rfl, fun _ => rfl⟩

theorem SameFrames.trans {bpm'' : BufferPoolManager D}
    (h : SameFrames bpm bpm') (h' : SameFrames bpm' bpm'') :
    SameFrames bpm bpm'' where
  poolSize_eq := h'.poolSize_eq.trans h.poolSize_eq
  pageTable_eq := h'.pageTable_eq.trans h.pageTable_eq
  replacer_eq := h'.replacer_eq.trans h.replacer_eq
  freeList_eq := h'.freeList_eq.trans h.freeList_eq
  pageId_eq frameId := (h'.pageId_eq frameId).trans (h.pageId_eq frameId)
  pinCount_eq frameId := (h'.pinCount_eq frameId).trans (h.pinCount_eq frameId)

theorem SameFrames.setFrame (frame : Frame D) (disk : DiskManager D)
    (hid : frame.pageId = (bpm.pages frameId).pageId)
    (hpin : frame.pinCount = (bpm.pages frameId).pinCount) :
    SameFrames bpm
      ({ bpm with diskManager := disk }.setFrame frameId frame) where
  poolSize_eq := rfl
  pageTable_eq := rfl
  replacer_eq := rfl
  freeList_eq := rfl
  pageId_eq frameId' := by
    by_cases heq : frameId' = frameId
    · subst heq
      rw [setFrame_pages, Function.update_self, hid]
    · rw [setFrame_pages, Function.update_of_ne heq]
  pinCount_eq frameId' := by
    by_cases heq : frameId' = frameId
    · subst heq
      rw [setFrame_pages, Function.update_self, hpin]
    · rw [setFrame_pages, Function.update_of_ne heq]

theorem SameFrames.sound (h : SameFrames bpm bpm') {held : Option ℕ}
    (hsound : bpm.Sound held) : bpm'.Sound held where
  numPages_eq := by
    rw [h.replacer_eq, h.poolSize_eq]
    exact hsound.numPages_eq
  held_lt := by
    rw [h.poolSize_eq]
    exact hsound.held_lt
  mapped pageId frameId hpage := by
    rw [h.pageTable_eq] at hpage
    rw [h.poolSize_eq, h.pageId_eq]
    exact hsound.mapped pageId frameId hpage
  free_nodup := by
    rw [h.freeList_eq]
    exact hsound.free_nodup
  free := by
    rw [h.freeList_eq, h.poolSize_eq, h.pageTable_eq]
    exact hsound.free
  queue_nodup := by
    rw [h.replacer_eq]
    exact hsound.queue_nodup
  mem_queue frameId := by
    rw [h.replacer_eq, h.pageTable_eq, h.pinCount_eq]
    exact hsound.mem_queue frameId
  covered := by
    rw [h.freeList_eq, h.poolSize_eq, h.pageTable_eq]
    exact hsound.covered

/-- What an operation keeps, and what it does to the replacer and to pinned
pages. -/
structure Steps (bpm bpm' : BufferPoolManager D) : Prop where
  kept : bpm'.Kept
  queueStep : QueueStep bpm bpm'
  keepsPinned : KeepsPinned bpm bpm'
  poolSize_eq : bpm'.poolSize = bpm.poolSize

theorem Steps.refl (h : bpm.Kept) : Steps bpm bpm :=
  ⟨h, .of_eq rfl fun _ _ => rfl, fun _ _ hpage _ => hpage, rfl⟩

theorem Kept.sameFrames (h : bpm.Kept) (hsame : SameFrames bpm bpm')
    (hcounted : bpm'.diskManager.Counted)
    (hnext : bpm'.diskManager.nextPageId = bpm.diskManager.nextPageId) :
    Steps bpm bpm' where
  kept :=
    { sound := hsame.sound h.sound
      counted := hcounted
      allocated := by
        rw [hsame.pageTable_eq, hnext]
        exact h.allocated }
  queueStep := .of_eq (by rw [hsame.replacer_eq])
    fun frameId _ => hsame.pageId_eq frameId
  keepsPinned := by
    intro pageId frameId hpage _
    rw [hsame.pageTable_eq]
    exact hpage
  poolSize_eq := hsame.poolSize_eq

/-! ### The operations -/

theorem Kept.pin (h : bpm.Kept)
    (hpage : bpm.pageTable.find? pageId = some frameId) :
    Steps bpm
      ({ bpm with replacer := bpm.replacer.pin frameId }.setFrame frameId
        { bpm.pages frameId with
          pinCount := (bpm.pages frameId).pinCount + 1 }) where
  kept := ⟨h.sound.pin hpage, h.counted, h.allocated⟩
  queueStep := by
    refine ⟨Or.inl List.erase_sublist, fun frameId' _ _ => ?_⟩
    by_cases heq : frameId' = frameId
    · subst heq
      rw [setFrame_pages, Function.update_self]
    · rw [setFrame_pages, Function.update_of_ne heq]
  keepsPinned _ _ hpage' _ := hpage'
  poolSize_eq := rfl

theorem Kept.unpinPage (h : bpm.Kept) (pageId : PageId) (isDirty : Bool) :
    Steps bpm (bpm.unpinPage pageId isDirty).2 := by
  rw [BufferPoolManager.unpinPage]
  cases hpage : bpm.pageTable.find? pageId with
  | none => exact .refl h
  | some frameId =>
      by_cases hpin : (bpm.pages frameId).pinCount = 0
      · simp only [if_pos hpin]
        exact .refl h
      · simp only [if_neg hpin]
        refine ⟨⟨h.sound.unpin hpage hpin isDirty, h.counted, h.allocated⟩,
          ⟨?_, ?_⟩, fun _ _ hpage' _ => hpage', rfl⟩
        · simp only [h.sound.replacer_unpin hpage hpin, setFrame_replacer]
          by_cases hone : (bpm.pages frameId).pinCount = 1
          · refine Or.inr ⟨pageId, frameId, by rw [if_pos hone], hpage, ?_⟩
            simp [pinCount?, hpage, hpin]
          · exact Or.inl (by rw [if_neg hone])
        · intro frameId' _ _
          by_cases heq : frameId' = frameId
          · subst heq
            rw [setFrame_pages, Function.update_self]
          · rw [setFrame_pages, Function.update_of_ne heq]

theorem Kept.deletePage (h : bpm.Kept) (pageId : PageId) :
    Steps bpm (bpm.deletePage pageId).2 := by
  rw [BufferPoolManager.deletePage]
  cases hpage : bpm.pageTable.find? pageId with
  | none => exact .refl h
  | some frameId =>
      by_cases hpin : (bpm.pages frameId).pinCount = 0
      · simp only [if_neg (not_not.mpr hpin)]
        have hfind := h.sound.find?_erase_iff hpage
        refine ⟨⟨h.sound.release hpage _, h.counted, ?_⟩, ⟨?_, ?_⟩, ?_, rfl⟩
        · intro pageId' frameId' hpage'
          exact h.allocated pageId' frameId' ((hfind _ _).mp hpage').2
        · exact Or.inl List.erase_sublist
        · intro frameId' _ hin
          have hne := (h.sound.queue_nodup.mem_erase_iff.mp hin).1
          rw [setFrame_pages, Function.update_of_ne hne]
        · intro pageId' frameId' hpage' hpin'
          refine (hfind pageId' frameId').mpr ⟨?_, hpage'⟩
          rintro rfl
          exact hpin' hpin
      · simp only [if_pos hpin]
        exact .refl h

theorem Kept.setData (h : bpm.Kept) {data : D}
    (hset : bpm.setData pageId data = some bpm') : Steps bpm bpm' := by
  simp only [BufferPoolManager.setData] at hset
  split at hset
  · cases hset
  · split at hset
    · cases hset
    · obtain rfl := Option.some.inj hset
      exact h.sameFrames (.setFrame _ bpm.diskManager rfl rfl) h.counted rfl

/-- One turn of `FlushAllPages`. -/
theorem Kept.flushFrame (h : bpm.Kept)
    (hpage : bpm.pageTable.find? pageId = some frameId) :
    SameFrames bpm (bpm.flushFrame frameId) ∧
      Steps bpm (bpm.flushFrame frameId) := by
  have hid := (h.sound.mapped pageId frameId hpage).2.1
  obtain ⟨hnonneg, hlt⟩ := h.allocated pageId frameId hpage
  have hsame : SameFrames bpm (bpm.flushFrame frameId) :=
    .setFrame _ _ rfl rfl
  refine ⟨hsame, h.sameFrames hsame ?_ ?_⟩
  · exact h.counted.writePage (hid ▸ hnonneg) (hid ▸ hlt) _
  · exact DiskManager.writePage_nextPageId _ _ _

theorem Kept.flushPage (h : bpm.Kept) (pageId : PageId) :
    Steps bpm (bpm.flushPage pageId).2 := by
  rw [BufferPoolManager.flushPage]
  split
  · exact .refl h
  · cases hpage : bpm.pageTable.find? pageId with
    | none => exact .refl h
    | some frameId =>
        have hflush := (h.flushFrame hpage).2
        simp only [BufferPoolManager.flushFrame,
          (h.sound.mapped pageId frameId hpage).2.1] at hflush
        simpa only [(h.sound.mapped pageId frameId hpage).2.1] using hflush

theorem Kept.flushAllPages (h : bpm.Kept) :
    Steps bpm bpm.flushAllPages := by
  suffices hloop : ∀ (items : List (PageId × ℕ)) (bpm : BufferPoolManager D),
      bpm.Kept →
      (∀ item ∈ items, bpm.pageTable.find? item.1 = some item.2) →
        SameFrames bpm
            (items.foldl (fun bpm item => bpm.flushFrame item.2) bpm) ∧
          (items.foldl (fun bpm item => bpm.flushFrame item.2) bpm).Kept ∧
          (items.foldl (fun bpm item => bpm.flushFrame item.2)
              bpm).diskManager.nextPageId = bpm.diskManager.nextPageId by
    obtain ⟨hsame, hkept, hnext⟩ := hloop bpm.pageTable.entries bpm h
      fun item hitem => LinkedMap.mem_entries_iff.mp hitem
    exact h.sameFrames hsame hkept.counted hnext
  intro items
  induction items with
  | nil => exact fun bpm hkept _ => ⟨.refl bpm, hkept, rfl⟩
  | cons item items ih =>
      intro bpm hkept hitems
      obtain ⟨hsame, hsteps⟩ :=
        hkept.flushFrame (hitems item List.mem_cons_self)
      obtain ⟨hsame', hkept', hnext⟩ := ih (bpm.flushFrame item.2)
        hsteps.kept fun item' hitem' => by
          rw [hsame.pageTable_eq]
          exact hitems item' (List.mem_cons_of_mem item hitem')
      exact ⟨hsame.trans hsame', hkept', hnext.trans
        (DiskManager.writePage_nextPageId _ _ _)⟩

/-! ### Claiming a frame and placing a page -/

section Claiming

variable [Zero D] {claimed : BufferPoolManager D}

/-- `FindFrame` takes the back of the free list, and only without one the
front of the replacer. -/
theorem findFrame_eq_some
    (hfind : bpm.findFrame = some (some frameId, claimed)) :
    bpm.freeList.getLast? = some frameId ∧ claimed.replacer = bpm.replacer ∨
      bpm.freeList = [] ∧
        bpm.replacer.queue = frameId :: claimed.replacer.queue := by
  unfold findFrame at hfind
  split at hfind
  · next hfree =>
    obtain ⟨hframe, rfl⟩ := Prod.mk.inj (Option.some.inj hfind)
    obtain rfl := Option.some.inj hframe
    exact Or.inl ⟨hfree, rfl⟩
  · next hfree =>
    refine Or.inr ⟨List.getLast?_eq_none_iff.mp hfree, ?_⟩
    unfold LRUReplacer.victim at hfind
    cases hqueue : bpm.replacer.queue with
    | nil => simp [hqueue] at hfind
    | cons frameId' queue =>
        simp only [hqueue] at hfind
        split at hfind
        · cases hfind
        · obtain ⟨hframe, rfl⟩ := Prod.mk.inj (Option.some.inj hfind)
          obtain rfl := Option.some.inj hframe
          rfl

/-- The pool while a frame is claimed. -/
structure Kept.Claimed (bpm : BufferPoolManager D) (frameId : ℕ)
    (claimed : BufferPoolManager D) : Prop where
  claims : bpm.Claims frameId claimed
  counted : claimed.diskManager.Counted
  next_eq : claimed.diskManager.nextPageId = bpm.diskManager.nextPageId
  table : ∀ pageId frameId', claimed.pageTable.find? pageId = some frameId' →
    bpm.pageTable.find? pageId = some frameId'
  pinned : KeepsPinned bpm claimed
  queue : claimed.replacer.queue.Sublist bpm.replacer.queue
  holds : ∀ pageId, bpm.diskManager.Holds pageId →
    claimed.diskManager.Holds pageId

theorem Kept.claim (h : bpm.Kept) (hclaims : bpm.Claims frameId claimed)
    (hfind : bpm.findFrame = some (some frameId, claimed)) :
    Kept.Claimed bpm frameId claimed where
  claims := hclaims
  counted := by
    rcases hclaims.table_disk with ⟨-, -, hdisk⟩ | ⟨pageId, hpage, -, -, hdisk⟩
    · rw [hdisk]
      exact h.counted
    · obtain ⟨hnonneg, hlt⟩ := h.allocated pageId frameId hpage
      rw [hdisk, writeBack, (h.sound.mapped pageId frameId hpage).2.1]
      split
      · exact h.counted.writePage hnonneg hlt _
      · exact h.counted
  next_eq := by
    rcases hclaims.table_disk with ⟨-, -, hdisk⟩ | ⟨_, -, -, -, hdisk⟩
    · rw [hdisk]
    · rw [hdisk, writeBack]
      split
      · exact DiskManager.writePage_nextPageId _ _ _
      · rfl
  table pageId frameId' hpage := by
    rcases hclaims.table_disk with ⟨-, htable, -⟩ | ⟨pageId', hpage', -, htable, -⟩
    · rwa [htable] at hpage
    · rw [htable, h.sound.find?_erase_iff hpage'] at hpage
      exact hpage.2
  pinned pageId frameId' hpage hpin := by
    rcases hclaims.table_disk with
      ⟨-, htable, -⟩ | ⟨pageId', hpage', hpin', htable, -⟩
    · rw [htable, hpage]
    · rw [htable, h.sound.find?_erase_iff hpage']
      refine ⟨?_, hpage⟩
      rintro rfl
      exact hpin hpin'
  queue := by
    rcases findFrame_eq_some hfind with ⟨-, hreplacer⟩ | ⟨-, hqueue⟩
    · rw [hreplacer]
    · rw [hqueue]
      exact List.sublist_cons_self frameId _
  holds pageId hholds := by
    rcases hclaims.table_disk with ⟨-, -, hdisk⟩ | ⟨_, -, -, -, hdisk⟩
    · rw [hdisk]
      exact hholds
    · rw [hdisk, writeBack]
      split
      · exact hholds.writePage _ _
      · exact hholds

/-- A page that is not in the pool is put into the claimed frame. -/
theorem Kept.Claimed.place (hc : Kept.Claimed bpm frameId claimed)
    (h : bpm.Kept) (hpage : claimed.pageTable.find? pageId = none)
    (frame : Frame D) (hid : frame.pageId = pageId)
    (hpin : frame.pinCount ≠ 0) {disk : DiskManager D}
    (hcounted : disk.Counted) (hnonneg : 0 ≤ pageId)
    (hlt : pageId < disk.nextPageId)
    (hle : bpm.diskManager.nextPageId ≤ disk.nextPageId) :
    Steps bpm
      ({ claimed with
        pageTable := claimed.pageTable.assign pageId frameId
        replacer := claimed.replacer.pin frameId
        diskManager := disk }.setFrame frameId frame) where
  kept :=
    { sound := hc.claims.sound.place hpage frame hid hpin disk
      counted := hcounted
      allocated := by
        intro pageId' frameId' hpage'
        rw [setFrame_pageTable, LinkedMap.find?_assign] at hpage'
        by_cases heq : pageId' = pageId
        · subst heq
          exact ⟨hnonneg, hlt⟩
        · rw [if_neg heq] at hpage'
          obtain ⟨hnonneg', hlt'⟩ :=
            h.allocated pageId' frameId' (hc.table pageId' frameId' hpage')
          exact ⟨hnonneg', hlt'.trans_le hle⟩ }
  queueStep := by
    refine ⟨Or.inl (List.erase_sublist.trans hc.queue),
      fun frameId' _ hin => ?_⟩
    have hne :=
      (hc.claims.sound.queue_nodup.mem_erase_iff.mp hin).1
    rw [setFrame_pages, Function.update_of_ne hne]
    simp only [hc.claims.pages_eq, Function.update_of_ne hne]
  keepsPinned := by
    intro pageId' frameId' hpage' hpin'
    have hstay := hc.pinned pageId' frameId' hpage' hpin'
    rw [setFrame_pageTable, LinkedMap.find?_assign_of_ne]
    · exact hstay
    · rintro rfl
      rw [hpage] at hstay
      cases hstay
  poolSize_eq := hc.claims.poolSize_eq

theorem Kept.Claimed.find?_eq_none (hc : Kept.Claimed bpm frameId claimed)
    (hpage : bpm.pageTable.find? pageId = none) :
    claimed.pageTable.find? pageId = none := by
  cases hclaimed : claimed.pageTable.find? pageId with
  | none => rfl
  | some frameId' =>
      rw [hc.table pageId frameId' hclaimed] at hpage
      cases hpage

/-- `NewPage` answers with the null pointer only if every frame is pinned,
and then it changes nothing. -/
theorem Kept.newPage (h : bpm.Kept) :
    ∃ answer bpm', bpm.newPage = some (answer, bpm') ∧ Steps bpm bpm' ∧
      (answer = none → bpm' = bpm ∧
        ∀ frameId < bpm.poolSize, ∃ pageId,
          bpm.pageTable.find? pageId = some frameId ∧
            (bpm.pages frameId).pinCount ≠ 0) := by
  rcases h.sound.findFrame_cases with
    ⟨hnone, hpinned⟩ | ⟨frameId, claimed, hsome, hclaims⟩
  · exact ⟨none, bpm, by rw [BufferPoolManager.newPage, hnone], .refl h,
      fun _ => ⟨rfl, hpinned⟩⟩
  · have hc := h.claim hclaims hsome
    rw [BufferPoolManager.newPage, hsome]
    refine ⟨_, _, rfl, hc.place h ?_ _ rfl one_ne_zero
      (hc.counted.writePage_allocatePage _) hc.counted.next_nonneg ?_ ?_, ?_⟩
    · -- the next page id was never handed out
      cases hnext : claimed.pageTable.find?
          claimed.diskManager.allocatePage.1 with
      | none => exact hnext
      | some frameId' =>
          have hlt := (h.allocated _ frameId' (hc.table _ _ hnext)).2
          rw [← hc.next_eq] at hlt
          exact absurd hlt (lt_irrefl _)
    · rw [DiskManager.writePage_nextPageId]
      exact lt_add_one _
    · rw [DiskManager.writePage_nextPageId, ← hc.next_eq]
      exact (lt_add_one _).le
    · simp

/-- `FetchPage` of a page that the disk holds answers with the null pointer
only if every frame is pinned, and ends with an exception only if `ReadPage`
looks for the page in a wrong place. -/
theorem Kept.fetchPage (h : bpm.Kept)
    (hholds : bpm.diskManager.Holds pageId) :
    ∃ answer bpm', bpm.fetchPage pageId = some (answer, bpm') ∧
      Steps bpm bpm' ∧
      (answer = .readLessThenAPage →
        bpm.diskManager.readIndex pageId ≠ pageId) ∧
      (answer = .null → bpm' = bpm ∧
        ∀ frameId < bpm.poolSize, ∃ pageId,
          bpm.pageTable.find? pageId = some frameId ∧
            (bpm.pages frameId).pinCount ≠ 0) := by
  cases hpage : bpm.pageTable.find? pageId with
  | some frameId =>
      rw [BufferPoolManager.fetchPage, hpage]
      exact ⟨_, _, rfl, h.pin hpage, by simp, by simp⟩
  | none =>
      rcases h.sound.findFrame_cases with
        ⟨hnone, hpinned⟩ | ⟨frameId, claimed, hsome, hclaims⟩
      · refine ⟨.null, bpm, ?_, .refl h, by simp, fun _ => ⟨rfl, hpinned⟩⟩
        rw [BufferPoolManager.fetchPage, hpage, hnone]
      · have hc := h.claim hclaims hsome
        obtain ⟨hid, hsize⟩ := hc.holds pageId hholds
        have hcounted := hc.counted.readPage pageId
        have hnext := DiskManager.readPage_nextPageId claimed.diskManager pageId
        have hlt := hsize.trans_le hc.counted.size_le
        have hplace := fun frame hframe hpin =>
          hc.place h (hc.find?_eq_none hpage) frame hframe hpin hcounted hid
            (hlt.trans_eq hnext.symm) (hc.next_eq.ge.trans_eq hnext.symm)
        rw [BufferPoolManager.fetchPage, hpage]
        simp only [hsome]
        rcases hread : claimed.diskManager.readPage pageId with
          ⟨_ | data, disk⟩
        · rw [hread] at hplace
          refine ⟨_, _, rfl, hplace _ rfl one_ne_zero, fun _ hindex => ?_,
            by simp⟩
          rw [← hc.claims.readIndex_eq] at hindex
          rw [DiskManager.readPage_of_lt hc.counted.failed_eq hindex hid
            hsize] at hread
          cases hread
        · rw [hread] at hplace
          exact ⟨_, _, rfl, hplace _ rfl one_ne_zero, by simp, by simp⟩

/-- An admitted operation. -/
theorem Kept.perform (h : bpm.Kept) (op : PageOp D)
    (hfetch : ∀ pageId, op = .fetchPage pageId →
      bpm.diskManager.Holds pageId)
    {answer : op.Answer} (hop : bpm.perform op = some (answer, bpm')) :
    Steps bpm bpm' := by
  cases op with
  | newPage =>
      obtain ⟨answer', bpm'', hnew, hsteps, -⟩ := h.newPage
      rw [BufferPoolManager.perform, hnew] at hop
      obtain ⟨-, rfl⟩ := Prod.mk.inj (Option.some.inj hop)
      exact hsteps
  | fetchPage pageId =>
      obtain ⟨answer', bpm'', hfetched, hsteps, -⟩ :=
        h.fetchPage (hfetch pageId rfl)
      rw [BufferPoolManager.perform, hfetched] at hop
      obtain ⟨-, rfl⟩ := Prod.mk.inj (Option.some.inj hop)
      exact hsteps
  | unpinPage pageId isDirty =>
      obtain ⟨-, rfl⟩ := Prod.mk.inj (Option.some.inj hop)
      exact h.unpinPage pageId isDirty
  | flushPage pageId =>
      obtain ⟨-, rfl⟩ := Prod.mk.inj (Option.some.inj hop)
      exact h.flushPage pageId
  | flushAllPages =>
      obtain ⟨-, rfl⟩ := Prod.mk.inj (Option.some.inj hop)
      exact h.flushAllPages
  | deletePage pageId =>
      obtain ⟨-, rfl⟩ := Prod.mk.inj (Option.some.inj hop)
      exact h.deletePage pageId
  | getData pageId =>
      obtain ⟨data, -, heq⟩ := Option.map_eq_some_iff.mp hop
      obtain ⟨-, rfl⟩ := Prod.mk.inj heq
      exact .refl h
  | setData pageId data =>
      obtain ⟨bpm'', hset, heq⟩ := Option.map_eq_some_iff.mp hop
      obtain ⟨-, rfl⟩ := Prod.mk.inj heq
      exact h.setData hset

end Claiming

/-! ## The three sets of frames -/

/-- The frame is in the free list once, and no page is mapped to it. -/
structure IsFree (bpm : BufferPoolManager D) (frameId : ℕ) : Prop where
  count_freeList : bpm.freeList.count frameId = 1
  unmapped : ∀ pageId, bpm.pageTable.find? pageId ≠ some frameId
  not_mem_queue : frameId ∉ bpm.replacer.queue

/-- One entry of the page table leads to the frame, under its page id. -/
structure IsMapped (bpm : BufferPoolManager D) (frameId : ℕ) : Prop where
  find? : bpm.pageTable.find? (bpm.pages frameId).pageId = some frameId
  unique : ∀ pageId, bpm.pageTable.find? pageId = some frameId →
    pageId = (bpm.pages frameId).pageId
  not_mem_freeList : frameId ∉ bpm.freeList

/-- The frame holds a pinned page. -/
structure IsPinned (bpm : BufferPoolManager D) (frameId : ℕ) : Prop where
  mapped : bpm.IsMapped frameId
  pinCount_pos : 0 < (bpm.pages frameId).pinCount
  not_mem_queue : frameId ∉ bpm.replacer.queue

/-- The frame holds a page without pins, and is in the replacer once. -/
structure IsWaiting (bpm : BufferPoolManager D) (frameId : ℕ) : Prop where
  mapped : bpm.IsMapped frameId
  pinCount_eq : (bpm.pages frameId).pinCount = 0
  count_queue : bpm.replacer.queue.count frameId = 1

theorem Sound.isMapped (h : bpm.Sound none)
    (hpage : bpm.pageTable.find? pageId = some frameId) :
    bpm.IsMapped frameId := by
  have hid := (h.mapped pageId frameId hpage).2.1
  refine ⟨by rw [hid, hpage], fun pageId' hpage' => ?_, fun hin => ?_⟩
  · rw [hid]
    exact h.pageId_unique hpage' hpage
  · exact (h.free frameId hin).2.2 pageId hpage

/-- Every frame is in one of the three sets. -/
theorem Sound.isFree_or (h : bpm.Sound none) (hlt : frameId < bpm.poolSize) :
    bpm.IsFree frameId ∨ bpm.IsPinned frameId ∨ bpm.IsWaiting frameId := by
  rcases h.covered frameId hlt with hin | hin | ⟨pageId, hpage⟩
  · refine Or.inl ⟨List.count_eq_one_of_mem h.free_nodup hin,
      (h.free frameId hin).2.2, fun hqueue => ?_⟩
    obtain ⟨pageId, hpage, -⟩ := (h.mem_queue frameId).mp hqueue
    exact (h.free frameId hin).2.2 pageId hpage
  · exact absurd hin (Option.not_mem_none _)
  · have hmapped := h.isMapped hpage
    have hqueue := h.mem_queue_iff hpage
    by_cases hpin : (bpm.pages frameId).pinCount = 0
    · exact Or.inr (Or.inr ⟨hmapped, hpin,
        List.count_eq_one_of_mem h.queue_nodup (hqueue.mpr hpin)⟩)
    · exact Or.inr (Or.inl ⟨hmapped, Nat.pos_of_ne_zero hpin,
        mt hqueue.mp hpin⟩)

theorem IsFree.not_isMapped (h : bpm.IsFree frameId) :
    ¬ bpm.IsMapped frameId :=
  fun hmapped => h.unmapped _ hmapped.find?

theorem IsPinned.not_isWaiting (h : bpm.IsPinned frameId) :
    ¬ bpm.IsWaiting frameId :=
  fun hwaiting => h.pinCount_pos.ne' hwaiting.pinCount_eq

end BufferPoolManager

/-! ## Runs -/

namespace TimedPool

/-- The replacer has its frames in the order in which their pages lost their
last pins. -/
structure InOrder (pool : TimedPool D) : Prop where
  kept : pool.bpm.Kept
  queue : pool.bpm.replacer.queue.Pairwise fun frameId frameId' =>
    pool.unpinnedAt (pool.bpm.pages frameId).pageId <
      pool.unpinnedAt (pool.bpm.pages frameId').pageId
  past : ∀ frameId ∈ pool.bpm.replacer.queue,
    pool.unpinnedAt (pool.bpm.pages frameId).pageId < pool.clock

variable {pool : TimedPool D} {bpm : BufferPoolManager D} {frameId : ℕ}

/-- A frame that stays in the replacer keeps its time. -/
theorem InOrder.unpinnedAt_tick (h : pool.InOrder)
    (hqueue : BufferPoolManager.QueueStep pool.bpm bpm)
    (hin : frameId ∈ pool.bpm.replacer.queue)
    (hin' : frameId ∈ bpm.replacer.queue) :
    (pool.tick bpm).unpinnedAt (bpm.pages frameId).pageId =
      pool.unpinnedAt (pool.bpm.pages frameId).pageId := by
  obtain ⟨pageId, hpage, hpin⟩ := (h.kept.sound.mem_queue frameId).mp hin
  have hid := (h.kept.sound.mapped pageId frameId hpage).2.1
  have hzero : pool.bpm.pinCount? pageId = some 0 := by
    rw [BufferPoolManager.pinCount?, hpage, Option.map_some, hpin]
  rw [hqueue.pages frameId hin hin', tick, hid]
  exact if_neg fun hne => hne.1 hzero

@[simp] theorem tick_bpm : (pool.tick bpm).bpm = bpm := rfl

@[simp] theorem tick_clock : (pool.tick bpm).clock = pool.clock + 1 := rfl

theorem InOrder.tick (h : pool.InOrder)
    (hsteps : BufferPoolManager.Steps pool.bpm bpm) :
    (pool.tick bpm).InOrder := by
  have htime := fun frameId (hin : frameId ∈ pool.bpm.replacer.queue) hin' =>
    h.unpinnedAt_tick hsteps.queueStep hin hin'
  rcases hsteps.queueStep.queue with hsub | ⟨pageId, last, happ, hpage, hpin⟩
  · refine ⟨hsteps.kept, ?_, fun frameId hin => ?_⟩
    · refine (h.queue.sublist hsub).imp_of_mem ?_
      intro frameId frameId' hin hin' hlt
      rw [tick_bpm, htime frameId (hsub.subset hin) hin,
        htime frameId' (hsub.subset hin') hin']
      exact hlt
    · rw [tick_bpm, htime frameId (hsub.subset hin) hin, tick_clock]
      exact (h.past frameId (hsub.subset hin)).trans (Nat.lt_succ_self _)
  · have hmem : ∀ frameId ∈ pool.bpm.replacer.queue,
        frameId ∈ bpm.replacer.queue := by
      intro frameId hin
      rw [happ]
      exact List.mem_append_left _ hin
    have hlast : last ∈ bpm.replacer.queue := by
      rw [happ]
      exact List.mem_append_right _ (List.mem_singleton_self last)
    -- the frame at the end is the one that was unpinned now
    have hnow : (pool.tick bpm).unpinnedAt (bpm.pages last).pageId =
        pool.clock := by
      have hsound := hsteps.kept.sound
      rw [(hsound.mapped pageId last hpage).2.1]
      refine if_pos ⟨hpin, ?_⟩
      rw [BufferPoolManager.pinCount?, hpage, Option.map_some,
        (hsound.mem_queue_iff hpage).mp hlast]
    refine ⟨hsteps.kept, ?_, fun frameId hin => ?_⟩
    · rw [TimedPool.tick, happ, List.pairwise_append]
      refine ⟨h.queue.imp_of_mem ?_, List.pairwise_singleton _ _, ?_⟩
      · intro frameId frameId' hin hin' hlt
        rw [← htime frameId hin (hmem frameId hin),
          ← htime frameId' hin' (hmem frameId' hin')] at hlt
        exact hlt
      · intro frameId hin frameId' hin'
        obtain rfl := List.mem_singleton.mp hin'
        have hlt := h.past frameId hin
        rw [← htime frameId hin (hmem frameId hin), ← hnow] at hlt
        exact hlt
    · have hin' : frameId ∈ bpm.replacer.queue := hin
      rw [happ, List.mem_append, List.mem_singleton] at hin'
      rcases hin' with hin' | rfl
      · have heq := htime frameId hin' hin
        exact heq ▸ (h.past frameId hin').trans (Nat.lt_succ_self _)
      · exact hnow ▸ Nat.lt_succ_self _

variable [Zero D] {poolSize : ℕ} {disk : DiskManager D}

theorem Reachable.inOrder (hdisk : disk.Counted)
    (h : Reachable poolSize disk pool) :
    pool.InOrder ∧ pool.bpm.poolSize = poolSize := by
  refine Reaches.invariant
    (fun pool => pool.InOrder ∧ pool.bpm.poolSize = poolSize) ?_ ?_ h
  · refine ⟨⟨BufferPoolManager.new_kept poolSize hdisk, List.Pairwise.nil, ?_⟩,
      rfl⟩
    simp [start, BufferPoolManager.new]
  · intro pool op _ pool' hinv hadmits hstep
    obtain ⟨⟨answer, bpm⟩, hperform, heq⟩ := Option.map_eq_some_iff.mp hstep
    obtain rfl := (Prod.mk.inj heq).2
    have hsteps := hinv.1.kept.perform op (fun pageId hop => by
      subst hop
      exact hadmits) hperform
    exact ⟨hinv.1.tick hsteps, hsteps.poolSize_eq.trans hinv.2⟩

/-- What holds of the frames at every moment of a run. -/
structure SharesFrames (pool : TimedPool D) : Prop where
  /-- Each frame is in exactly one of the three sets. -/
  partition : ∀ frameId < pool.bpm.poolSize,
    (pool.bpm.IsFree frameId ∨ pool.bpm.IsPinned frameId ∨
        pool.bpm.IsWaiting frameId) ∧
      ¬ (pool.bpm.IsFree frameId ∧ pool.bpm.IsPinned frameId) ∧
      ¬ (pool.bpm.IsFree frameId ∧ pool.bpm.IsWaiting frameId) ∧
      ¬ (pool.bpm.IsPinned frameId ∧ pool.bpm.IsWaiting frameId)
  /-- A pinned page is never evicted. -/
  keepsPinned : ∀ op (answer : op.Answer) bpm, pool.Admits op →
    pool.bpm.perform op = some (answer, bpm) →
      BufferPoolManager.KeepsPinned pool.bpm bpm
  /-- `FindFrame` evicts only without free frames, and the page that lost its
  last pin first. -/
  evicts : ∀ frameId bpm, pool.bpm.findFrame = some (some frameId, bpm) →
    ∀ pageId, pool.bpm.pageTable.find? pageId ≠ none →
      bpm.pageTable.find? pageId = none →
        pool.bpm.freeList = [] ∧ pool.bpm.pinCount? pageId = some 0 ∧
          ∀ pageId' ≠ pageId, pool.bpm.pinCount? pageId' = some 0 →
            pool.unpinnedAt pageId < pool.unpinnedAt pageId'
  /-- `NewPage` fails only when all frames are pinned, and uses up no id. -/
  newPage : ∃ answer bpm, pool.bpm.newPage = some (answer, bpm) ∧
    (answer = none → bpm = pool.bpm ∧
      ∀ frameId < pool.bpm.poolSize, pool.bpm.IsPinned frameId)
  /-- So does `FetchPage` of a page that is present on disk, apart from the
  exception of `ReadPage` when it misses the page. -/
  fetchPage : ∀ pageId, pool.bpm.diskManager.Holds pageId →
    ∃ answer bpm, pool.bpm.fetchPage pageId = some (answer, bpm) ∧
      (answer = .readLessThenAPage →
        pool.bpm.diskManager.readIndex pageId ≠ pageId) ∧
      (answer = .null → bpm = pool.bpm ∧
        ∀ frameId < pool.bpm.poolSize, pool.bpm.IsPinned frameId)

omit [Zero D] in
theorem isPinned_of_pinCount (hkept : bpm.Kept)
    (h : ∀ frameId < bpm.poolSize, ∃ pageId,
      bpm.pageTable.find? pageId = some frameId ∧
        (bpm.pages frameId).pinCount ≠ 0) :
    ∀ frameId < bpm.poolSize, bpm.IsPinned frameId := by
  intro frameId hlt
  obtain ⟨pageId, hpage, hpin⟩ := h frameId hlt
  exact ⟨hkept.sound.isMapped hpage, Nat.pos_of_ne_zero hpin,
    mt (hkept.sound.mem_queue_iff hpage).mp hpin⟩

/-- The page that `FindFrame` evicts is the first of those without pins. -/
theorem InOrder.evicts (h : pool.InOrder)
    (hfind : pool.bpm.findFrame = some (some frameId, bpm))
    {pageId : PageId} (hpage : pool.bpm.pageTable.find? pageId ≠ none)
    (hgone : bpm.pageTable.find? pageId = none) :
    pool.bpm.freeList = [] ∧ pool.bpm.pinCount? pageId = some 0 ∧
      ∀ pageId' ≠ pageId, pool.bpm.pinCount? pageId' = some 0 →
        pool.unpinnedAt pageId < pool.unpinnedAt pageId' := by
  have hsound := h.kept.sound
  obtain ⟨evicted, hevicted⟩ := Option.ne_none_iff_exists'.mp hpage
  obtain ⟨claimed, hfind', hclaims⟩ : ∃ claimed,
      pool.bpm.findFrame = some (some frameId, claimed) ∧
        pool.bpm.Claims frameId claimed := by
    rcases hsound.findFrame_cases with
      ⟨hnone, -⟩ | ⟨frameId', claimed, hsome, hclaims⟩
    · rw [hnone] at hfind
      cases hfind
    · have heq := hsome.symm.trans hfind
      obtain ⟨hframe, -⟩ := Prod.mk.inj (Option.some.inj heq)
      obtain rfl := Option.some.inj hframe
      exact ⟨claimed, hsome, hclaims⟩
  obtain rfl := (Prod.mk.inj (Option.some.inj (hfind.symm.trans hfind'))).2
  rcases hclaims.table_disk with
    ⟨-, htable, -⟩ | ⟨pageId', hpage', hpin', htable, -⟩
  · -- a free frame: no page is gone
    rw [htable, hevicted] at hgone
    cases hgone
  · obtain rfl : pageId = pageId' := by
      by_contra hne
      rw [htable, LinkedMap.find?_erase_of_ne hne, hevicted] at hgone
      cases hgone
    rcases BufferPoolManager.findFrame_eq_some hfind with
      ⟨hfree, -⟩ | ⟨hfree, hqueue⟩
    · have hin := List.mem_of_getLast? hfree
      exact absurd hpage' ((hsound.free frameId hin).2.2 pageId)
    · refine ⟨hfree, ?_, fun other hne hzero => ?_⟩
      · rw [BufferPoolManager.pinCount?, hpage', Option.map_some, hpin']
      · obtain ⟨frame, hframe, hpin⟩ := Option.map_eq_some_iff.mp hzero
        have hin := (hsound.mem_queue_iff hframe).mpr hpin
        rw [hqueue, List.mem_cons] at hin
        have hin : frame ∈ bpm.replacer.queue := by
          refine hin.resolve_left ?_
          rintro rfl
          exact hne (hsound.pageId_unique hframe hpage')
        have hpair := h.queue
        rw [hqueue, List.pairwise_cons] at hpair
        have hlt := hpair.1 frame hin
        rwa [(hsound.mapped pageId frameId hpage').2.1,
          (hsound.mapped other frame hframe).2.1] at hlt

/-- In every state of every run the frames are shared out among the free list,
the pinned pages and the replacer, which has its frames in the order in which
they were unpinned. -/
theorem Reachable.sharesFrames (hdisk : disk.Counted)
    (h : Reachable poolSize disk pool) :
    pool.bpm.poolSize = poolSize ∧ pool.SharesFrames := by
  obtain ⟨horder, hsize⟩ := h.inOrder hdisk
  have hkept := horder.kept
  refine ⟨hsize, ?_⟩
  constructor
  case partition =>
    intro frameId hlt
    refine ⟨hkept.sound.isFree_or hlt, fun hboth => ?_, fun hboth => ?_,
      fun hboth => ?_⟩
    · exact hboth.1.not_isMapped hboth.2.mapped
    · exact hboth.1.not_isMapped hboth.2.mapped
    · exact hboth.1.not_isWaiting hboth.2
  case keepsPinned =>
    intro op answer bpm hadmits hperform
    exact (hkept.perform op (fun pageId hop => by
      subst hop
      exact hadmits) hperform).keepsPinned
  case evicts =>
    intro frameId bpm hfind pageId hpage hgone
    exact horder.evicts hfind hpage hgone
  case newPage =>
    obtain ⟨answer, bpm, hnew, -, hnull⟩ := hkept.newPage
    refine ⟨answer, bpm, hnew, fun hnone => ?_⟩
    obtain ⟨heq, hpinned⟩ := hnull hnone
    exact ⟨heq, isPinned_of_pinCount hkept hpinned⟩
  case fetchPage =>
    intro pageId hholds
    obtain ⟨answer, bpm, hfetch, -, hread, hnull⟩ := hkept.fetchPage hholds
    refine ⟨answer, bpm, hfetch, hread, fun hnone => ?_⟩
    obtain ⟨heq, hpinned⟩ := hnull hnone
    exact ⟨heq, isPinned_of_pinCount hkept hpinned⟩

/-- Two pages in two frames, the second of which was unpinned first. -/
theorem Reachable.sharesFrames_full :
    ∃ pool : TimedPool ℕ,
      pool.unpinnedAt 1 < pool.unpinnedAt 0 ∧ pool.bpm.poolSize = 2 ∧
        pool.SharesFrames := by
  let ops : List (PageOp ℕ) :=
    [.newPage, .newPage, .unpinPage 1 true, .unpinPage 0 false]
  let disk : DiskManager ℕ := DiskManager.new DiskFile.empty
  have hrun : ((runSteps step (start 2 disk) ops).map fun pool =>
      decide (pool.unpinnedAt 1 < pool.unpinnedAt 0)) = some true := by
    decide +kernel
  obtain ⟨pool, hpool, htimes⟩ := Option.map_eq_some_iff.mp hrun
  have hok : StepsOk step Admits (start 2 disk) ops := by decide +kernel
  exact ⟨pool, of_decide_eq_true htimes,
    Reachable.sharesFrames ⟨rfl, le_refl 0, le_refl 0⟩
      (Reaches.refl.runSteps hok hpool)⟩

end TimedPool

end TicketSystem.Database
