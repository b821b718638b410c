import TicketSystem.Database.BufferPool

/-!
# The frames of a buffer pool

Every frame is free, holds a pinned page, or holds an unpinned page that waits
in the replacer.  While `FetchPage` and `NewPage` run, one more frame is in
their hands.
-/

namespace TicketSystem.Database.BufferPoolManager

open TicketSystem.Support

variable {D : Type}

/-- The free list, the page table and the replacer share out the frames, apart
from the one that is held. -/
structure Sound (bpm : BufferPoolManager D) (held : Option ℕ) : Prop where
  numPages_eq : bpm.replacer.numPages = bpm.poolSize
  held_lt : ∀ frameId ∈ held, frameId < bpm.poolSize
  mapped : ∀ pageId frameId, bpm.pageTable.find? pageId = some frameId →
    frameId < bpm.poolSize ∧ (bpm.pages frameId).pageId = pageId ∧
      frameId ∉ held
  free_nodup : bpm.freeList.Nodup
  free : ∀ frameId ∈ bpm.freeList,
    frameId < bpm.poolSize ∧ frameId ∉ held ∧
      ∀ pageId, bpm.pageTable.find? pageId ≠ some frameId
  queue_nodup : bpm.replacer.queue.Nodup
  mem_queue : ∀ frameId, frameId ∈ bpm.replacer.queue ↔
    ∃ pageId, bpm.pageTable.find? pageId = some frameId ∧
      (bpm.pages frameId).pinCount = 0
  covered : ∀ frameId < bpm.poolSize,
    frameId ∈ bpm.freeList ∨ frameId ∈ held ∨
      ∃ pageId, bpm.pageTable.find? pageId = some frameId

theorem new_sound [Zero D] (poolSize : ℕ) (disk : DiskManager D) :
    (new poolSize disk).Sound none where
  numPages_eq := rfl
  held_lt := by simp
  mapped := by simp [new]
  free_nodup := List.nodup_range
  free := by simp [new]
  queue_nodup := List.nodup_nil
  mem_queue := by simp [new]
  covered := by
    intro frameId hlt
    exact Or.inl (List.mem_range.mpr hlt)

variable {bpm : BufferPoolManager D} {held : Option ℕ} {pageId : PageId}
  {frameId : ℕ}

@[simp] theorem setFrame_pageTable (frame : Frame D) :
    (bpm.setFrame frameId frame).pageTable = bpm.pageTable := rfl

@[simp] theorem setFrame_diskManager (frame : Frame D) :
    (bpm.setFrame frameId frame).diskManager = bpm.diskManager := rfl

@[simp] theorem setFrame_replacer (frame : Frame D) :
    (bpm.setFrame frameId frame).replacer = bpm.replacer := rfl

@[simp] theorem setFrame_freeList (frame : Frame D) :
    (bpm.setFrame frameId frame).freeList = bpm.freeList := rfl

@[simp] theorem setFrame_poolSize (frame : Frame D) :
    (bpm.setFrame frameId frame).poolSize = bpm.poolSize := rfl

@[simp] theorem setFrame_pages (frame : Frame D) :
    (bpm.setFrame frameId frame).pages =
      Function.update bpm.pages frameId frame := rfl

/-- Two pages never share a frame. -/
theorem Sound.pageId_unique (h : bpm.Sound held) {pageId' : PageId}
    (hpage : bpm.pageTable.find? pageId = some frameId)
    (hpage' : bpm.pageTable.find? pageId' = some frameId) :
    pageId = pageId' :=
  (h.mapped pageId frameId hpage).2.1.symm.trans
    (h.mapped pageId' frameId hpage').2.1

/-- An unpinned page waits in the replacer, and only there. -/
theorem Sound.mem_queue_iff (h : bpm.Sound held)
    (hpage : bpm.pageTable.find? pageId = some frameId) :
    frameId ∈ bpm.replacer.queue ↔ (bpm.pages frameId).pinCount = 0 := by
  rw [h.mem_queue]
  exact ⟨fun ⟨_, _, hpin⟩ => hpin, fun hpin => ⟨pageId, hpage, hpin⟩⟩

/-- The pages that stay when one is erased are those in other frames. -/
theorem Sound.find?_erase_iff (h : bpm.Sound held)
    (hpage : bpm.pageTable.find? pageId = some frameId) (pageId' : PageId)
    (frameId' : ℕ) :
    (bpm.pageTable.erase pageId).find? pageId' = some frameId' ↔
      frameId' ≠ frameId ∧ bpm.pageTable.find? pageId' = some frameId' := by
  rw [LinkedMap.find?_erase]
  by_cases heq : pageId' = pageId
  · subst heq
    rw [if_pos rfl, hpage, Option.some.injEq]
    exact ⟨fun hc => (Option.some_ne_none _ hc.symm).elim,
      fun ⟨hne, hc⟩ => absurd hc.symm hne⟩
  · rw [if_neg heq]
    refine ⟨fun hpage' => ⟨?_, hpage'⟩, And.right⟩
    rintro rfl
    exact heq (h.pageId_unique hpage' hpage)

/-- There is always room for another frame in the replacer. -/
theorem Sound.queue_length_lt (h : bpm.Sound held)
    (hlt : frameId < bpm.poolSize) (hout : frameId ∉ bpm.replacer.queue) :
    bpm.replacer.queue.length < bpm.replacer.numPages := by
  have hsub : frameId :: bpm.replacer.queue ⊆ List.range bpm.poolSize := by
    intro frame hmem
    rw [List.mem_range]
    rcases List.mem_cons.mp hmem with rfl | hmem
    · exact hlt
    · obtain ⟨pageId, hpage, -⟩ := (h.mem_queue frame).mp hmem
      exact (h.mapped pageId frame hpage).1
  have hlen := (List.subperm_of_subset
    (List.nodup_cons.mpr ⟨hout, h.queue_nodup⟩) hsub).length_le
  rw [List.length_cons, List.length_range] at hlen
  rw [h.numPages_eq]
  exact hlen

/-- A frame that keeps its page keeps the sharing, if the replacer follows its
pin count. -/
theorem Sound.setFrame (h : bpm.Sound held)
    (hpage : bpm.pageTable.find? pageId = some frameId) (frame : Frame D)
    (hid : frame.pageId = pageId) (replacer : LRUReplacer)
    (disk : DiskManager D) (hnum : replacer.numPages = bpm.replacer.numPages)
    (hnodup : replacer.queue.Nodup)
    (hself : frameId ∈ replacer.queue ↔ frame.pinCount = 0)
    (hother : ∀ frameId' ≠ frameId,
      frameId' ∈ replacer.queue ↔ frameId' ∈ bpm.replacer.queue) :
    ({ bpm with replacer := replacer, diskManager := disk }.setFrame frameId
      frame).Sound held where
  numPages_eq := hnum.trans h.numPages_eq
  held_lt := h.held_lt
  mapped := by
    intro pageId' frameId' hpage'
    obtain ⟨hlt, hid', hheld⟩ := h.mapped pageId' frameId' hpage'
    refine ⟨hlt, ?_, hheld⟩
    by_cases heq : frameId' = frameId
    · subst heq
      rw [setFrame_pages, Function.update_self, hid]
      exact h.pageId_unique hpage hpage'
    · rw [setFrame_pages, Function.update_of_ne heq]
      exact hid'
  free_nodup := h.free_nodup
  free := h.free
  queue_nodup := hnodup
  mem_queue := by
    intro frameId'
    simp only [setFrame_replacer, setFrame_pageTable, setFrame_pages]
    by_cases heq : frameId' = frameId
    · subst heq
      rw [hself, Function.update_self]
      constructor
      · exact fun hpin => ⟨pageId, hpage, hpin⟩
      · rintro ⟨_, _, hpin⟩
        exact hpin
    · rw [hother frameId' heq, Function.update_of_ne heq]
      exact h.mem_queue frameId'
  covered := h.covered

/-- A page in the pool gets another pin. -/
theorem Sound.pin (h : bpm.Sound held)
    (hpage : bpm.pageTable.find? pageId = some frameId) :
    ({ bpm with replacer := bpm.replacer.pin frameId }.setFrame frameId
      { bpm.pages frameId with
        pinCount := (bpm.pages frameId).pinCount + 1 }).Sound held := by
  refine h.setFrame hpage _ ?_ _ _ rfl (h.queue_nodup.erase _) ?_ ?_
  · exact (h.mapped pageId frameId hpage).2.1
  · simp [LRUReplacer.pin, h.queue_nodup.mem_erase_iff]
  · intro frameId' hne
    simp [LRUReplacer.pin, h.queue_nodup.mem_erase_iff, hne]

/-- The replacer takes a pinned page at its end. -/
theorem Sound.replacer_unpin (h : bpm.Sound held)
    (hpage : bpm.pageTable.find? pageId = some frameId)
    (hpin : (bpm.pages frameId).pinCount ≠ 0) :
    bpm.replacer.unpin frameId =
      { bpm.replacer with queue := bpm.replacer.queue ++ [frameId] } := by
  have hout : frameId ∉ bpm.replacer.queue := by
    rw [h.mem_queue_iff hpage]
    exact hpin
  have hlen := h.queue_length_lt (h.mapped pageId frameId hpage).1 hout
  rw [LRUReplacer.unpin, if_neg (not_le.mpr hlen),
    List.erase_of_not_mem hout]

/-- A pinned page loses a pin. -/
theorem Sound.unpin (h : bpm.Sound held)
    (hpage : bpm.pageTable.find? pageId = some frameId)
    (hpin : (bpm.pages frameId).pinCount ≠ 0) (isDirty : Bool) :
    ({ bpm with
      replacer :=
        if (bpm.pages frameId).pinCount = 1 then bpm.replacer.unpin frameId
        else bpm.replacer }.setFrame frameId
      { bpm.pages frameId with
        isDirty := (bpm.pages frameId).isDirty || isDirty
        pinCount := (bpm.pages frameId).pinCount - 1 }).Sound held := by
  have hout : frameId ∉ bpm.replacer.queue := by
    rw [h.mem_queue_iff hpage]
    exact hpin
  rw [h.replacer_unpin hpage hpin]
  refine h.setFrame hpage _ ?_ _ _ ?_ ?_ ?_ ?_
  · exact (h.mapped pageId frameId hpage).2.1
  · split <;> rfl
  · split
    · refine List.Nodup.append h.queue_nodup (List.nodup_singleton _) ?_
      rw [List.disjoint_singleton]
      exact hout
    · exact h.queue_nodup
  · split
    · next hone => simp [hone]
    · next hone =>
      refine iff_of_false hout fun hzero => ?_
      simp only at hzero
      omega
  · intro frameId' hne
    split
    · simp [hne]
    · rfl

/-- The sharing does not depend on the disk. -/
theorem Sound.disk (h : bpm.Sound held) (disk : DiskManager D) :
    { bpm with diskManager := disk }.Sound held where
  numPages_eq := h.numPages_eq
  held_lt := h.held_lt
  mapped := h.mapped
  free_nodup := h.free_nodup
  free := h.free
  queue_nodup := h.queue_nodup
  mem_queue := h.mem_queue
  covered := h.covered

/-! ## Claiming a frame -/

variable [Zero D]

/-- What `FindFrame` does to a pool that has a frame to give: the frame was
free, or the page that was unpinned first is evicted. -/
structure Claims (bpm : BufferPoolManager D) (frameId : ℕ)
    (bpm' : BufferPoolManager D) : Prop where
  sound : bpm'.Sound (some frameId)
  poolSize_eq : bpm'.poolSize = bpm.poolSize
  pages_eq : bpm'.pages = Function.update bpm.pages frameId Frame.reset
  table_disk :
    (∀ pageId, bpm.pageTable.find? pageId ≠ some frameId) ∧
        bpm'.pageTable = bpm.pageTable ∧
        bpm'.diskManager = bpm.diskManager ∨
      ∃ pageId, bpm.pageTable.find? pageId = some frameId ∧
        (bpm.pages frameId).pinCount = 0 ∧
        bpm'.pageTable = bpm.pageTable.erase pageId ∧
        bpm'.diskManager = bpm.writeBack (bpm.pages frameId)

theorem Sound.claims_free (h : bpm.Sound none) {freeList : List ℕ}
    (hfree : bpm.freeList = freeList ++ [frameId]) :
    bpm.Claims frameId
      ({ bpm with freeList := bpm.freeList.dropLast }.setFrame frameId
        Frame.reset) := by
  have hdrop : bpm.freeList.dropLast = freeList := by rw [hfree]; simp
  have hmem : ∀ frameId', frameId' ∈ bpm.freeList ↔
      frameId' ∈ freeList ∨ frameId' = frameId := by
    intro frameId'
    rw [hfree, List.mem_append, List.mem_singleton]
  have hnodup := h.free_nodup
  rw [hfree, List.nodup_append] at hnodup
  have hout : frameId ∉ freeList := fun hin =>
    hnodup.2.2 _ hin _ (List.mem_singleton_self _) rfl
  obtain ⟨hlt, -, hunmapped⟩ := h.free frameId ((hmem frameId).mpr (Or.inr rfl))
  have hmapped : ∀ pageId frameId',
      bpm.pageTable.find? pageId = some frameId' → frameId' ≠ frameId := by
    rintro pageId _ hpage rfl
    exact hunmapped pageId hpage
  refine ⟨?_, rfl, rfl, Or.inl ⟨hunmapped, rfl, rfl⟩⟩
  constructor
  case numPages_eq => exact h.numPages_eq
  case held_lt =>
    intro frameId' heq
    obtain rfl : frameId = frameId' := Option.some.inj heq
    exact hlt
  case mapped =>
    intro pageId frameId' hpage
    obtain ⟨hlt', hid, -⟩ := h.mapped pageId frameId' hpage
    have hne := hmapped pageId frameId' hpage
    rw [setFrame_pages, Function.update_of_ne hne]
    exact ⟨hlt', hid, fun heq => hne (Option.some.inj heq).symm⟩
  case free_nodup =>
    rw [setFrame_freeList]
    exact hdrop ▸ hnodup.1
  case free =>
    intro frameId' hin
    rw [setFrame_freeList, hdrop] at hin
    obtain ⟨hlt', -, hno⟩ := h.free frameId' ((hmem frameId').mpr (Or.inl hin))
    refine ⟨hlt', fun heq => ?_, hno⟩
    obtain rfl : frameId = frameId' := Option.some.inj heq
    exact hout hin
  case queue_nodup => exact h.queue_nodup
  case mem_queue =>
    intro frameId'
    refine (h.mem_queue frameId').trans (exists_congr fun pageId => ?_)
    refine and_congr_right fun hpage => ?_
    rw [setFrame_pages,
      Function.update_of_ne (hmapped pageId frameId' hpage)]
  case covered =>
    intro frameId' hlt'
    rcases h.covered frameId' hlt' with hin | hin | hpage
    · rcases (hmem frameId').mp hin with hin | rfl
      · exact Or.inl (by rw [setFrame_freeList, hdrop]; exact hin)
      · exact Or.inr (Or.inl rfl)
    · exact absurd hin (Option.not_mem_none _)
    · exact Or.inr (Or.inr hpage)

theorem Sound.claims_evicted (h : bpm.Sound none) {queue : List ℕ}
    (hqueue : bpm.replacer.queue = frameId :: queue)
    (hpage : bpm.pageTable.find? pageId = some frameId) :
    bpm.Claims frameId
      ({ bpm with
        diskManager := bpm.writeBack (bpm.pages frameId)
        pageTable := bpm.pageTable.erase pageId
        replacer := { bpm.replacer with queue := queue } }.setFrame frameId
        Frame.reset) := by
  obtain ⟨hlt, -, -⟩ := h.mapped pageId frameId hpage
  have hpin : (bpm.pages frameId).pinCount = 0 :=
    (h.mem_queue_iff hpage).mp (by rw [hqueue]; exact List.mem_cons_self)
  have hnodup := h.queue_nodup
  rw [hqueue, List.nodup_cons] at hnodup
  have hfind := h.find?_erase_iff hpage
  refine ⟨?_, rfl, rfl, Or.inr ⟨pageId, hpage, hpin, rfl, rfl⟩⟩
  constructor
  case numPages_eq => exact h.numPages_eq
  case held_lt =>
    intro frameId' heq
    obtain rfl : frameId = frameId' := Option.some.inj heq
    exact hlt
  case mapped =>
    intro pageId' frameId' hpage'
    obtain ⟨hne, hpage'⟩ := (hfind pageId' frameId').mp hpage'
    obtain ⟨hlt', hid, -⟩ := h.mapped pageId' frameId' hpage'
    rw [setFrame_pages, Function.update_of_ne hne]
    exact ⟨hlt', hid, fun heq => hne (Option.some.inj heq).symm⟩
  case free_nodup => exact h.free_nodup
  case free =>
    intro frameId' hin
    obtain ⟨hlt', -, hno⟩ := h.free frameId' hin
    refine ⟨hlt', fun heq => ?_, fun pageId' hpage' => ?_⟩
    · obtain rfl : frameId = frameId' := Option.some.inj heq
      exact hno pageId hpage
    · exact hno pageId' ((hfind pageId' frameId').mp hpage').2
  case queue_nodup => exact hnodup.2
  case mem_queue =>
    intro frameId'
    simp only [setFrame_replacer, setFrame_pageTable, setFrame_pages, hfind]
    have hold := h.mem_queue frameId'
    rw [hqueue, List.mem_cons] at hold
    by_cases heq : frameId' = frameId
    · subst heq
      simp [hnodup.1]
    · rw [or_iff_right heq] at hold
      simp [hold, heq]
  case covered =>
    intro frameId' hlt'
    rcases h.covered frameId' hlt' with hin | hin | ⟨pageId', hpage'⟩
    · exact Or.inl hin
    · exact absurd hin (Option.not_mem_none _)
    · by_cases heq : frameId' = frameId
      · exact Or.inr (Or.inl (congrArg some heq.symm))
      · exact Or.inr (Or.inr
          ⟨pageId', (hfind pageId' frameId').mpr ⟨heq, hpage'⟩⟩)

/-- `FindFrame` fails only if every frame is pinned. -/
theorem Sound.findFrame_cases (h : bpm.Sound none) :
    bpm.findFrame = some (none, bpm) ∧
        (∀ frameId < bpm.poolSize, ∃ pageId,
          bpm.pageTable.find? pageId = some frameId ∧
            (bpm.pages frameId).pinCount ≠ 0) ∨
      ∃ frameId bpm', bpm.findFrame = some (some frameId, bpm') ∧
        bpm.Claims frameId bpm' := by
  rcases List.eq_nil_or_concat bpm.freeList with hfree | ⟨freeList, frameId, hfree⟩
  · cases hqueue : bpm.replacer.queue with
    | nil =>
        refine Or.inl ⟨?_, fun frameId hlt => ?_⟩
        · simp [findFrame, hfree, LRUReplacer.victim, hqueue]
        · rcases h.covered frameId hlt with hin | hin | ⟨pageId, hpage⟩
          · rw [hfree] at hin
            exact absurd hin List.not_mem_nil
          · exact absurd hin (Option.not_mem_none _)
          · refine ⟨pageId, hpage, fun hpin => ?_⟩
            have hin := (h.mem_queue_iff hpage).mpr hpin
            rw [hqueue] at hin
            exact List.not_mem_nil hin
    | cons frameId queue =>
        obtain ⟨pageId, hpage, hpin⟩ := (h.mem_queue frameId).mp
          (by rw [hqueue]; exact List.mem_cons_self)
        obtain ⟨-, hid, -⟩ := h.mapped pageId frameId hpage
        refine Or.inr ⟨frameId, _, ?_, h.claims_evicted hqueue hpage⟩
        simp [findFrame, hfree, LRUReplacer.victim, hqueue, hid, hpage]
  · rw [List.concat_eq_append] at hfree
    refine Or.inr ⟨frameId, _, ?_, h.claims_free hfree⟩
    simp [findFrame, hfree]

omit [Zero D] in
/-- A page that is not in the pool is put into the frame that was claimed. -/
theorem Sound.place (h : bpm.Sound (some frameId))
    (hpage : bpm.pageTable.find? pageId = none) (frame : Frame D)
    (hid : frame.pageId = pageId) (hpin : frame.pinCount ≠ 0)
    (disk : DiskManager D) :
    ({ bpm with
      pageTable := bpm.pageTable.assign pageId frameId
      replacer := bpm.replacer.pin frameId
      diskManager := disk }.setFrame frameId frame).Sound none := by
  have hheld : ∀ {pageId' frameId'},
      bpm.pageTable.find? pageId' = some frameId' →
        frameId' ≠ frameId ∧ pageId' ≠ pageId := by
    intro pageId' frameId' hpage'
    refine ⟨?_, ?_⟩
    · rintro rfl
      exact (h.mapped pageId' frameId' hpage').2.2 rfl
    · rintro rfl
      rw [hpage] at hpage'
      cases hpage'
  have hfind : ∀ pageId' frameId',
      (bpm.pageTable.assign pageId frameId).find? pageId' = some frameId' ↔
        pageId' = pageId ∧ frameId' = frameId ∨
          bpm.pageTable.find? pageId' = some frameId' := by
    intro pageId' frameId'
    rw [LinkedMap.find?_assign]
    by_cases heq : pageId' = pageId
    · subst heq
      rw [if_pos rfl, hpage]
      simp [eq_comm]
    · simp [heq]
  have hout : frameId ∉ bpm.replacer.queue := by
    intro hin
    obtain ⟨pageId', hpage', -⟩ := (h.mem_queue frameId).mp hin
    exact (hheld hpage').1 rfl
  have hqueue : (bpm.replacer.pin frameId).queue = bpm.replacer.queue :=
    List.erase_of_not_mem hout
  constructor
  case numPages_eq => exact h.numPages_eq
  case held_lt => simp
  case mapped =>
    intro pageId' frameId' hpage'
    refine ⟨?_, ?_, Option.not_mem_none _⟩
    · rcases (hfind pageId' frameId').mp hpage' with ⟨-, rfl⟩ | hpage'
      · exact h.held_lt frameId' rfl
      · exact (h.mapped pageId' frameId' hpage').1
    · rcases (hfind pageId' frameId').mp hpage' with ⟨rfl, rfl⟩ | hpage'
      · rw [setFrame_pages, Function.update_self, hid]
      · rw [setFrame_pages, Function.update_of_ne (hheld hpage').1]
        exact (h.mapped pageId' frameId' hpage').2.1
  case free_nodup => exact h.free_nodup
  case free =>
    intro frameId' hin
    obtain ⟨hlt, hne, hno⟩ := h.free frameId' hin
    refine ⟨hlt, Option.not_mem_none _, fun pageId' hpage' => ?_⟩
    rcases (hfind pageId' frameId').mp hpage' with ⟨-, rfl⟩ | hpage'
    · exact hne rfl
    · exact hno pageId' hpage'
  case queue_nodup => exact hqueue ▸ h.queue_nodup
  case mem_queue =>
    intro frameId'
    simp only [setFrame_replacer, setFrame_pageTable, setFrame_pages, hqueue,
      hfind]
    rw [h.mem_queue]
    constructor
    · rintro ⟨pageId', hpage', hpin'⟩
      refine ⟨pageId', Or.inr hpage', ?_⟩
      rw [Function.update_of_ne (hheld hpage').1]
      exact hpin'
    · rintro ⟨pageId', ⟨rfl, rfl⟩ | hpage', hpin'⟩
      · rw [Function.update_self] at hpin'
        exact absurd hpin' hpin
      · rw [Function.update_of_ne (hheld hpage').1] at hpin'
        exact ⟨pageId', hpage', hpin'⟩
  case covered =>
    intro frameId' hlt
    rcases h.covered frameId' hlt with hin | hin | ⟨pageId', hpage'⟩
    · exact Or.inl hin
    · exact Or.inr (Or.inr ⟨pageId, (hfind _ _).mpr
        (Or.inl ⟨rfl, (Option.some.inj hin).symm⟩)⟩)
    · exact Or.inr (Or.inr ⟨pageId', (hfind _ _).mpr (Or.inr hpage')⟩)

omit [Zero D] in
/-- A page without pins gives its frame back. -/
theorem Sound.release (h : bpm.Sound none)
    (hpage : bpm.pageTable.find? pageId = some frameId) (frame : Frame D) :
    ({ bpm with
      pageTable := bpm.pageTable.erase pageId
      freeList := bpm.freeList ++ [frameId]
      replacer := bpm.replacer.pin frameId }.setFrame frameId
      frame).Sound none := by
  have hfind := h.find?_erase_iff hpage
  constructor
  case numPages_eq => exact h.numPages_eq
  case held_lt => simp
  case mapped =>
    intro pageId' frameId' hpage'
    obtain ⟨hne, hpage'⟩ := (hfind pageId' frameId').mp hpage'
    obtain ⟨hlt', hid, -⟩ := h.mapped pageId' frameId' hpage'
    rw [setFrame_pages, Function.update_of_ne hne]
    exact ⟨hlt', hid, Option.not_mem_none _⟩
  case free_nodup =>
    refine List.Nodup.append h.free_nodup (List.nodup_singleton _) ?_
    rw [List.disjoint_singleton]
    exact fun hin => (h.free frameId hin).2.2 pageId hpage
  case free =>
    intro frameId' hin
    rw [setFrame_freeList, List.mem_append, List.mem_singleton] at hin
    refine ⟨?_, Option.not_mem_none _, fun pageId' hpage' => ?_⟩
    · rcases hin with hin | rfl
      · exact (h.free frameId' hin).1
      · exact (h.mapped pageId frameId' hpage).1
    · obtain ⟨hne, hpage'⟩ := (hfind pageId' frameId').mp hpage'
      exact (h.free frameId' (hin.resolve_right hne)).2.2 pageId' hpage'
  case queue_nodup => exact h.queue_nodup.erase frameId
  case mem_queue =>
    intro frameId'
    simp only [setFrame_replacer, setFrame_pageTable, setFrame_pages, hfind,
      LRUReplacer.pin, h.queue_nodup.mem_erase_iff, h.mem_queue]
    constructor
    · rintro ⟨hne, pageId', hpage', hpin'⟩
      exact ⟨pageId', ⟨hne, hpage'⟩, by rwa [Function.update_of_ne hne]⟩
    · rintro ⟨pageId', ⟨hne, hpage'⟩, hpin'⟩
      rw [Function.update_of_ne hne] at hpin'
      exact ⟨hne, pageId', hpage', hpin'⟩
  case covered =>
    intro frameId' hlt'
    rw [setFrame_freeList, List.mem_append, List.mem_singleton]
    rcases h.covered frameId' hlt' with hin | hin | ⟨pageId', hpage'⟩
    · exact Or.inl (Or.inl hin)
    · exact absurd hin (Option.not_mem_none _)
    · by_cases heq : frameId' = frameId
      · exact Or.inl (Or.inr heq)
      · exact Or.inr (Or.inr
          ⟨pageId', (hfind pageId' frameId').mpr ⟨heq, hpage'⟩⟩)

end TicketSystem.Database.BufferPoolManager
