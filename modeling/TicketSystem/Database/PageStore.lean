import TicketSystem.Database.Frames

/-!
# The pages as the client sees them

To a client that writes only to pages it has pinned, and that gives a written
page back as dirty, the buffer pool is a store of pages: which frames hold
which pages, and which pages were evicted, cannot be told.
-/

namespace TicketSystem.Database

open TicketSystem.Support

variable {D : Type}

/-! ## The page store -/

/-- What a client has done: the latest bytes of every page that was allocated
and not deleted, the pins it holds, and the pages it has written since it last
unpinned them as dirty. -/
structure PageStore (D : Type) where
  page : PageId → Option D
  nextPageId : PageId
  pins : Multiset PageId
  owed : Finset PageId

namespace PageStore

/-- The store before any operation. -/
def start (nextPageId : PageId) : PageStore D where
  page _ := none
  nextPageId := nextPageId
  pins := 0
  owed := ∅

def pin (store : PageStore D) (pageId : PageId) : PageStore D :=
  { store with pins := pageId ::ₘ store.pins }

def unpin (store : PageStore D) (pageId : PageId) (isDirty : Bool) :
    PageStore D :=
  { store with
    pins := store.pins.erase pageId
    owed := if isDirty then store.owed.erase pageId else store.owed }

/-- A fresh page holds zeros. -/
def allocate [Zero D] (store : PageStore D) : PageStore D :=
  { store with
    page := Function.update store.page store.nextPageId (some 0)
    nextPageId := store.nextPageId + 1 }

def delete (store : PageStore D) (pageId : PageId) : PageStore D :=
  { store with page := Function.update store.page pageId none }

def write (store : PageStore D) (pageId : PageId) (data : D) : PageStore D :=
  { store with
    page := Function.update store.page pageId (some data)
    owed := insert pageId store.owed }

section Fields

variable (store : PageStore D) (pageId : PageId) (isDirty : Bool) (data : D)

@[simp] theorem pin_page : (store.pin pageId).page = store.page := rfl

@[simp] theorem pin_pins :
    (store.pin pageId).pins = pageId ::ₘ store.pins := rfl

@[simp] theorem pin_owed : (store.pin pageId).owed = store.owed := rfl

@[simp] theorem pin_nextPageId :
    (store.pin pageId).nextPageId = store.nextPageId := rfl

@[simp] theorem unpin_page :
    (store.unpin pageId isDirty).page = store.page := rfl

@[simp] theorem unpin_pins :
    (store.unpin pageId isDirty).pins = store.pins.erase pageId := rfl

@[simp] theorem unpin_owed :
    (store.unpin pageId isDirty).owed =
      if isDirty then store.owed.erase pageId else store.owed := rfl

@[simp] theorem unpin_nextPageId :
    (store.unpin pageId isDirty).nextPageId = store.nextPageId := rfl

@[simp] theorem allocate_page [Zero D] :
    store.allocate.page =
      Function.update store.page store.nextPageId (some 0) := rfl

@[simp] theorem allocate_pins [Zero D] : store.allocate.pins = store.pins :=
  rfl

@[simp] theorem allocate_owed [Zero D] : store.allocate.owed = store.owed :=
  rfl

@[simp] theorem allocate_nextPageId [Zero D] :
    store.allocate.nextPageId = store.nextPageId + 1 := rfl

@[simp] theorem delete_page :
    (store.delete pageId).page =
      Function.update store.page pageId none := rfl

@[simp] theorem delete_pins : (store.delete pageId).pins = store.pins := rfl

@[simp] theorem delete_owed : (store.delete pageId).owed = store.owed := rfl

@[simp] theorem delete_nextPageId :
    (store.delete pageId).nextPageId = store.nextPageId := rfl

@[simp] theorem write_page :
    (store.write pageId data).page =
      Function.update store.page pageId (some data) := rfl

@[simp] theorem write_pins : (store.write pageId data).pins = store.pins :=
  rfl

@[simp] theorem write_owed :
    (store.write pageId data).owed = insert pageId store.owed := rfl

@[simp] theorem write_nextPageId :
    (store.write pageId data).nextPageId = store.nextPageId := rfl

end Fields

/-- The client fetches only pages that are there, touches only pages it has
pinned, and does not drop the last pin of a written page as clean. -/
def Allows (store : PageStore D) : PageOp D → Prop
  | .fetchPage pageId => (store.page pageId).isSome
  | .unpinPage pageId isDirty =>
      isDirty = false → pageId ∈ store.owed → 2 ≤ store.pins.count pageId
  | .getData pageId => pageId ∈ store.pins
  | .setData pageId _ => pageId ∈ store.pins
  | _ => True

instance (store : PageStore D) (op : PageOp D) : Decidable (store.Allows op) := by
  unfold Allows
  split <;> infer_instance

/-- The store after an operation that was answered. -/
def after [Zero D] (store : PageStore D) : (op : PageOp D) → op.Answer →
    PageStore D
  | .newPage, some _ => store.allocate.pin store.nextPageId
  | .fetchPage pageId, .page => store.pin pageId
  | .unpinPage pageId isDirty, true => store.unpin pageId isDirty
  | .deletePage pageId, true => store.delete pageId
  | .setData pageId data, () => store.write pageId data
  | _, _ => store

/-- The answers that the store permits.  Only a pool whose frames are all
pinned may answer with the null pointer. -/
def Answers (store : PageStore D) (poolSize : ℕ) :
    (op : PageOp D) → op.Answer → Prop
  | .newPage, some pageId => pageId = store.nextPageId
  | .newPage, none => poolSize ≤ store.pins.toFinset.card
  | .fetchPage _, .page => True
  | .fetchPage pageId, .null =>
      poolSize ≤ store.pins.toFinset.card ∧ pageId ∉ store.pins
  | .fetchPage _, .readLessThenAPage => False
  | .unpinPage pageId _, answer => answer = true ↔ pageId ∈ store.pins
  | .deletePage pageId, answer => pageId ∈ store.pins ↔ answer = false
  | .getData pageId, data => store.page pageId = some data
  | _, _ => True

end PageStore

/-! ## The pool agrees with the store -/

namespace DiskManager

theorem writePage_of_nonneg {disk : DiskManager D}
    (hok : disk.failed = false) {pageId : PageId} (hid : 0 ≤ pageId)
    (data : D) :
    disk.writePage pageId data =
      { disk with
        file :=
          { page := Function.update disk.file.page pageId data
            size := max disk.file.size (pageId + 1) } } := by
  rw [writePage, if_neg (by rw [hok]; decide), if_neg (not_lt.mpr hid)]

theorem readPage_of_lt {disk : DiskManager D} (hok : disk.failed = false)
    {pageId : PageId} (hindex : disk.readIndex pageId = pageId)
    (hid : 0 ≤ pageId) (hlt : pageId < disk.file.size) :
    disk.readPage pageId = (some (disk.file.page pageId), disk) := by
  rw [readPage, hindex, if_pos ⟨hok, hid, hlt⟩]

end DiskManager

namespace BufferPoolManager

/-- The pool shows the pages of the store: those in frames as the frames have
them, the others as they are on disk. -/
structure Agrees (bpm : BufferPoolManager D) (store : PageStore D) : Prop where
  next_eq : bpm.diskManager.nextPageId = store.nextPageId
  next_nonneg : 0 ≤ store.nextPageId
  failed_eq : bpm.diskManager.failed = false
  live : ∀ pageId, (store.page pageId).isSome →
    0 ≤ pageId ∧ pageId < store.nextPageId ∧
      pageId < bpm.diskManager.file.size ∧
      bpm.diskManager.readIndex pageId = pageId
  data_eq : ∀ pageId frameId, bpm.pageTable.find? pageId = some frameId →
    store.page pageId = some (bpm.pages frameId).data
  pinCount_eq : ∀ pageId frameId, bpm.pageTable.find? pageId = some frameId →
    (bpm.pages frameId).pinCount = store.pins.count pageId
  pins_mapped : ∀ pageId ∈ store.pins,
    (bpm.pageTable.find? pageId).isSome
  clean : ∀ pageId frameId, bpm.pageTable.find? pageId = some frameId →
    (bpm.pages frameId).isDirty = false → pageId ∉ store.owed →
      bpm.diskManager.file.page pageId = (bpm.pages frameId).data
  stored : ∀ pageId data, bpm.pageTable.find? pageId = none →
    store.page pageId = some data →
      bpm.diskManager.file.page pageId = data
  owed_pinned : ∀ pageId ∈ store.owed, pageId ∈ store.pins

variable {bpm bpm' : BufferPoolManager D} {store : PageStore D}
  {held : Option ℕ} {pageId : PageId} {frameId : ℕ}

theorem new_agrees [Zero D] (poolSize : ℕ) {disk : DiskManager D}
    (hok : disk.failed = false) (hnext : 0 ≤ disk.nextPageId) :
    (new poolSize disk).Agrees (PageStore.start disk.nextPageId) where
  next_eq := rfl
  next_nonneg := hnext
  failed_eq := hok
  live := by simp [PageStore.start]
  data_eq := by simp [new]
  pinCount_eq := by simp [new]
  pins_mapped := by simp [PageStore.start]
  clean := by simp [new]
  stored := by simp [PageStore.start]
  owed_pinned := by simp [PageStore.start]

/-- A page in a frame is there. -/
theorem Agrees.isSome_of_mapped (h : bpm.Agrees store)
    (hpage : bpm.pageTable.find? pageId = some frameId) :
    (store.page pageId).isSome := by
  rw [h.data_eq pageId frameId hpage]
  rfl

theorem Agrees.count_eq_zero (h : bpm.Agrees store)
    (hpage : bpm.pageTable.find? pageId = none) :
    pageId ∉ store.pins := by
  intro hin
  have hmapped := h.pins_mapped pageId hin
  rw [hpage] at hmapped
  cases hmapped

/-- Writing a page in a frame to the disk changes nothing for the client. -/
theorem Agrees.writePage (h : bpm.Agrees store)
    (hpage : bpm.pageTable.find? pageId = some frameId) :
    ({ bpm with
      diskManager := bpm.diskManager.writePage pageId
        (bpm.pages frameId).data }).Agrees store := by
  obtain ⟨hid, -, -, -⟩ := h.live pageId (h.isSome_of_mapped hpage)
  rw [DiskManager.writePage_of_nonneg h.failed_eq hid]
  constructor
  case next_eq => exact h.next_eq
  case next_nonneg => exact h.next_nonneg
  case failed_eq => exact h.failed_eq
  case live =>
    intro pageId' hlive
    obtain ⟨hid', hlt, hsize, hindex⟩ := h.live pageId' hlive
    exact ⟨hid', hlt, lt_max_of_lt_left hsize, hindex⟩
  case data_eq => exact h.data_eq
  case pinCount_eq => exact h.pinCount_eq
  case pins_mapped => exact h.pins_mapped
  case clean =>
    intro pageId' frameId' hpage' hdirty howed
    by_cases heq : pageId' = pageId
    · subst heq
      obtain rfl := Option.some.inj (hpage.symm.trans hpage')
      exact Function.update_self _ _ _
    · exact (Function.update_of_ne heq _ _).trans
        (h.clean pageId' frameId' hpage' hdirty howed)
  case stored =>
    intro pageId' data hpage' hlive
    by_cases heq : pageId' = pageId
    · rw [heq, hpage] at hpage'
      cases hpage'
    · exact (Function.update_of_ne heq _ _).trans
        (h.stored pageId' data hpage' hlive)
  case owed_pinned => exact h.owed_pinned

/-- What is done to one page in a frame, in the pool and in the store. -/
theorem Agrees.setFrame (h : bpm.Agrees store) (hsound : bpm.Sound held)
    (hpage : bpm.pageTable.find? pageId = some frameId) (frame : Frame D)
    (replacer : LRUReplacer) {store' : PageStore D}
    (hnext : store'.nextPageId = store.nextPageId)
    (hdata : store'.page pageId = some frame.data)
    (hpin : frame.pinCount = store'.pins.count pageId)
    (hclean : frame.isDirty = false → pageId ∉ store'.owed →
      bpm.diskManager.file.page pageId = frame.data)
    (howed : pageId ∈ store'.owed → pageId ∈ store'.pins)
    (hother : ∀ pageId' ≠ pageId,
      store'.page pageId' = store.page pageId' ∧
        store'.pins.count pageId' = store.pins.count pageId' ∧
        (pageId' ∈ store'.owed ↔ pageId' ∈ store.owed)) :
    ({ bpm with replacer := replacer }.setFrame frameId frame).Agrees
      store' := by
  have hne : ∀ {pageId' frameId'}, pageId' ≠ pageId →
      bpm.pageTable.find? pageId' = some frameId' → frameId' ≠ frameId := by
    rintro pageId' _ hneq hpage' rfl
    exact hneq (hsound.pageId_unique hpage' hpage)
  constructor
  case next_eq => exact h.next_eq.trans hnext.symm
  case next_nonneg => exact hnext ▸ h.next_nonneg
  case failed_eq => exact h.failed_eq
  case live =>
    intro pageId' hlive
    rw [hnext]
    by_cases heq : pageId' = pageId
    · exact h.live pageId' (heq ▸ h.isSome_of_mapped hpage)
    · rw [(hother pageId' heq).1] at hlive
      exact h.live pageId' hlive
  case data_eq =>
    intro pageId' frameId' hpage'
    rw [setFrame_pages]
    by_cases heq : pageId' = pageId
    · subst heq
      obtain rfl := Option.some.inj (hpage.symm.trans hpage')
      rw [Function.update_self, hdata]
    · rw [Function.update_of_ne (hne heq hpage'), (hother pageId' heq).1]
      exact h.data_eq pageId' frameId' hpage'
  case pinCount_eq =>
    intro pageId' frameId' hpage'
    rw [setFrame_pages]
    by_cases heq : pageId' = pageId
    · subst heq
      obtain rfl := Option.some.inj (hpage.symm.trans hpage')
      rw [Function.update_self, hpin]
    · rw [Function.update_of_ne (hne heq hpage'), (hother pageId' heq).2.1]
      exact h.pinCount_eq pageId' frameId' hpage'
  case pins_mapped =>
    intro pageId' hin
    by_cases heq : pageId' = pageId
    · rw [setFrame_pageTable, heq, hpage]
      rfl
    · rw [← Multiset.one_le_count_iff_mem, (hother pageId' heq).2.1,
        Multiset.one_le_count_iff_mem] at hin
      exact h.pins_mapped pageId' hin
  case clean =>
    intro pageId' frameId' hpage' hdirty hnot
    rw [setFrame_pages] at hdirty ⊢
    by_cases heq : pageId' = pageId
    · subst heq
      obtain rfl := Option.some.inj (hpage.symm.trans hpage')
      rw [Function.update_self] at hdirty ⊢
      exact hclean hdirty hnot
    · rw [Function.update_of_ne (hne heq hpage')] at hdirty ⊢
      rw [(hother pageId' heq).2.2] at hnot
      exact h.clean pageId' frameId' hpage' hdirty hnot
  case stored =>
    intro pageId' data hpage' hlive
    have heq : pageId' ≠ pageId := by
      rintro rfl
      rw [setFrame_pageTable, hpage] at hpage'
      cases hpage'
    rw [(hother pageId' heq).1] at hlive
    exact h.stored pageId' data hpage' hlive
  case owed_pinned =>
    intro pageId' hin
    by_cases heq : pageId' = pageId
    · exact heq ▸ howed (heq ▸ hin)
    · rw [(hother pageId' heq).2.2] at hin
      rw [← Multiset.one_le_count_iff_mem, (hother pageId' heq).2.1,
        Multiset.one_le_count_iff_mem]
      exact h.owed_pinned pageId' hin

variable [Zero D]

omit [Zero D] in
/-- Some pages leave the frames, and the client may forget pages. -/
theorem Agrees.restrict (h : bpm.Agrees store)
    (hdisk : bpm'.diskManager = bpm.diskManager) {store' : PageStore D}
    (hnext : store'.nextPageId = store.nextPageId)
    (hpins : store'.pins = store.pins) (howed : store'.owed = store.owed)
    (hlive : ∀ pageId data, store'.page pageId = some data →
      store.page pageId = some data)
    (hmapped : ∀ pageId frameId,
      bpm'.pageTable.find? pageId = some frameId →
        bpm.pageTable.find? pageId = some frameId ∧
          bpm'.pages frameId = bpm.pages frameId ∧
          store'.page pageId = store.page pageId)
    (hpinned : ∀ pageId ∈ store.pins,
      (bpm'.pageTable.find? pageId).isSome)
    (hstored : ∀ pageId data, bpm'.pageTable.find? pageId = none →
      store'.page pageId = some data →
        bpm.diskManager.file.page pageId = data) :
    bpm'.Agrees store' := by
  constructor
  case next_eq => rw [hdisk, hnext, h.next_eq]
  case next_nonneg => exact hnext ▸ h.next_nonneg
  case failed_eq => exact hdisk ▸ h.failed_eq
  case live =>
    intro pageId hsome
    obtain ⟨data, hdata⟩ := Option.isSome_iff_exists.mp hsome
    rw [hdisk, hnext]
    exact h.live pageId (Option.isSome_of_eq_some (hlive pageId data hdata))
  case data_eq =>
    intro pageId frameId hpage
    obtain ⟨hpage, hframe, hsame⟩ := hmapped pageId frameId hpage
    rw [hframe, hsame]
    exact h.data_eq pageId frameId hpage
  case pinCount_eq =>
    intro pageId frameId hpage
    obtain ⟨hpage, hframe, -⟩ := hmapped pageId frameId hpage
    rw [hframe, hpins]
    exact h.pinCount_eq pageId frameId hpage
  case pins_mapped => exact hpins ▸ hpinned
  case clean =>
    intro pageId frameId hpage
    obtain ⟨hpage, hframe, -⟩ := hmapped pageId frameId hpage
    rw [hframe, hdisk, howed]
    exact h.clean pageId frameId hpage
  case stored =>
    intro pageId data hpage hdata
    rw [hdisk]
    exact hstored pageId data hpage hdata
  case owed_pinned =>
    rw [howed, hpins]
    exact h.owed_pinned

/-- Claiming a frame changes nothing for the client: the evicted page is on
disk. -/
theorem Agrees.claims (h : bpm.Agrees store) (hsound : bpm.Sound none)
    (hclaims : bpm.Claims frameId bpm') : bpm'.Agrees store := by
  rcases hclaims.table_disk with
    ⟨hno, htable, hdisk⟩ | ⟨pageId, hpage, hpin, htable, hdisk⟩
  · refine h.restrict hdisk rfl rfl rfl (fun _ _ hlive => hlive) ?_
      (htable ▸ h.pins_mapped) (htable ▸ h.stored)
    intro pageId' frameId' hpage'
    rw [htable] at hpage'
    refine ⟨hpage', ?_, rfl⟩
    rw [hclaims.pages_eq, Function.update_of_ne]
    rintro rfl
    exact hno pageId' hpage'
  · obtain ⟨-, hid, -⟩ := hsound.mapped pageId frameId hpage
    have hout : pageId ∉ store.pins := by
      rw [← Multiset.count_eq_zero, ← h.pinCount_eq pageId frameId hpage, hpin]
    -- written back if it was dirty, and on disk before if it was not
    have hback : ({ bpm with
        diskManager := bpm.writeBack (bpm.pages frameId) }).Agrees store ∧
        (bpm.writeBack (bpm.pages frameId)).file.page pageId =
          (bpm.pages frameId).data := by
      rw [writeBack]
      by_cases hdirty : (bpm.pages frameId).isDirty
      · rw [if_pos hdirty, hid]
        refine ⟨h.writePage hpage, ?_⟩
        rw [DiskManager.writePage_of_nonneg h.failed_eq
          (h.live pageId (h.isSome_of_mapped hpage)).1]
        exact Function.update_self _ _ _
      · rw [if_neg hdirty]
        exact ⟨h, h.clean pageId frameId hpage (by simpa using hdirty)
          fun howed => hout (h.owed_pinned pageId howed)⟩
    obtain ⟨hagrees, hstored⟩ := hback
    refine hagrees.restrict hdisk rfl rfl rfl (fun _ _ hlive => hlive) ?_ ?_ ?_
    · intro pageId' frameId' hpage'
      rw [htable, hsound.find?_erase_iff hpage] at hpage'
      refine ⟨hpage'.2, ?_, rfl⟩
      rw [hclaims.pages_eq, Function.update_of_ne hpage'.1]
    · intro pageId' hin
      have hne : pageId' ≠ pageId := fun heq => hout (heq ▸ hin)
      rw [htable, LinkedMap.find?_erase_of_ne hne]
      exact h.pins_mapped pageId' hin
    · intro pageId' data hpage' hlive
      by_cases heq : pageId' = pageId
      · subst heq
        rw [h.data_eq pageId' frameId hpage] at hlive
        exact hstored.trans (Option.some.inj hlive)
      · rw [htable, LinkedMap.find?_erase_of_ne heq] at hpage'
        exact hagrees.stored pageId' data hpage' hlive

omit [Zero D] in
/-- A page from the disk is put into a frame and pinned. -/
theorem Agrees.place (h : bpm.Agrees store) (hsound : bpm.Sound (some frameId))
    (hpage : bpm.pageTable.find? pageId = none) (frame : Frame D)
    (hlive : store.page pageId = some frame.data) (hpin : frame.pinCount = 1)
    (replacer : LRUReplacer) :
    ({ bpm with
      pageTable := bpm.pageTable.assign pageId frameId
      replacer := replacer }.setFrame frameId frame).Agrees
      (store.pin pageId) := by
  have hcases : ∀ {pageId' frameId'},
      (bpm.pageTable.assign pageId frameId).find? pageId' = some frameId' →
        pageId' = pageId ∧ frameId' = frameId ∨
          pageId' ≠ pageId ∧ frameId' ≠ frameId ∧
            bpm.pageTable.find? pageId' = some frameId' := by
    intro pageId' frameId' hpage'
    by_cases heq : pageId' = pageId
    · rw [heq, LinkedMap.find?_assign_self] at hpage'
      exact Or.inl ⟨heq, (Option.some.inj hpage').symm⟩
    · rw [LinkedMap.find?_assign_of_ne heq] at hpage'
      refine Or.inr ⟨heq, ?_, hpage'⟩
      rintro rfl
      exact (hsound.mapped pageId' frameId' hpage').2.2 rfl
  constructor
  case next_eq => exact h.next_eq
  case next_nonneg => exact h.next_nonneg
  case failed_eq => exact h.failed_eq
  case live => exact h.live
  case data_eq =>
    intro pageId' frameId' hpage'
    rw [setFrame_pages]
    rcases hcases hpage' with ⟨rfl, rfl⟩ | ⟨-, hne, hpage'⟩
    · rw [Function.update_self]
      exact hlive
    · rw [Function.update_of_ne hne]
      exact h.data_eq pageId' frameId' hpage'
  case pinCount_eq =>
    intro pageId' frameId' hpage'
    rw [setFrame_pages, PageStore.pin]
    rcases hcases hpage' with ⟨rfl, rfl⟩ | ⟨hneq, hne, hpage'⟩
    · rw [Function.update_self, Multiset.count_cons_self, hpin,
        Multiset.count_eq_zero_of_notMem (h.count_eq_zero hpage)]
    · rw [Function.update_of_ne hne, Multiset.count_cons_of_ne hneq]
      exact h.pinCount_eq pageId' frameId' hpage'
  case pins_mapped =>
    intro pageId' hin
    rw [setFrame_pageTable]
    by_cases heq : pageId' = pageId
    · rw [heq, LinkedMap.find?_assign_self]
      rfl
    · rw [LinkedMap.find?_assign_of_ne heq]
      exact h.pins_mapped pageId' ((Multiset.mem_cons.mp hin).resolve_left heq)
  case clean =>
    intro pageId' frameId' hpage' hdirty howed
    rw [setFrame_pages] at hdirty ⊢
    rcases hcases hpage' with ⟨rfl, rfl⟩ | ⟨-, hne, hpage'⟩
    · rw [Function.update_self]
      exact h.stored pageId' frame.data hpage hlive
    · rw [Function.update_of_ne hne] at hdirty ⊢
      exact h.clean pageId' frameId' hpage' hdirty howed
  case stored =>
    intro pageId' data hpage' hlive'
    rw [setFrame_pageTable] at hpage'
    have heq : pageId' ≠ pageId := by
      rintro rfl
      rw [LinkedMap.find?_assign_self] at hpage'
      cases hpage'
    rw [LinkedMap.find?_assign_of_ne heq] at hpage'
    exact h.stored pageId' data hpage' hlive'
  case owed_pinned =>
    intro pageId' hin
    exact Multiset.mem_cons_of_mem (h.owed_pinned pageId' hin)

/-- A page of zeros at the next page id is added on disk. -/
theorem Agrees.allocate (h : bpm.Agrees store)
    (hindex : bpm.diskManager.readIndex store.nextPageId = store.nextPageId) :
    bpm.pageTable.find? store.nextPageId = none ∧
      ({ bpm with
        diskManager := bpm.diskManager.allocatePage.2.writePage
          store.nextPageId 0 }).Agrees store.allocate := by
  have hfresh : store.page store.nextPageId = none := by
    rw [← Option.not_isSome_iff_eq_none]
    exact fun hlive => lt_irrefl _ (h.live _ hlive).2.1
  have hunmapped : bpm.pageTable.find? store.nextPageId = none := by
    cases hpage : bpm.pageTable.find? store.nextPageId with
    | none => rfl
    | some frameId =>
        rw [h.data_eq _ _ hpage] at hfresh
        cases hfresh
  have hmapped : ∀ {pageId frameId},
      bpm.pageTable.find? pageId = some frameId →
        pageId ≠ store.nextPageId := by
    rintro _ frameId hpage rfl
    rw [hunmapped] at hpage
    cases hpage
  refine ⟨hunmapped, ?_⟩
  rw [DiskManager.writePage_of_nonneg (by exact h.failed_eq) h.next_nonneg]
  constructor
  case next_eq => exact congrArg (· + 1) h.next_eq
  case next_nonneg => exact Int.add_nonneg h.next_nonneg (by decide)
  case failed_eq => exact h.failed_eq
  case live =>
    intro pageId hlive
    by_cases heq : pageId = store.nextPageId
    · subst heq
      exact ⟨h.next_nonneg, lt_add_one _, lt_max_of_lt_right (lt_add_one _),
        hindex⟩
    · rw [PageStore.allocate_page, Function.update_of_ne heq] at hlive
      obtain ⟨hid, hlt, hsize, hindex'⟩ := h.live pageId hlive
      exact ⟨hid, hlt.trans (lt_add_one _), lt_max_of_lt_left hsize, hindex'⟩
  case data_eq =>
    intro pageId frameId hpage
    rw [PageStore.allocate_page, Function.update_of_ne (hmapped hpage)]
    exact h.data_eq pageId frameId hpage
  case pinCount_eq => exact h.pinCount_eq
  case pins_mapped => exact h.pins_mapped
  case clean =>
    intro pageId frameId hpage hdirty howed
    exact (Function.update_of_ne (hmapped hpage) _ _).trans
      (h.clean pageId frameId hpage hdirty howed)
  case stored =>
    intro pageId data hpage hlive
    by_cases heq : pageId = store.nextPageId
    · subst heq
      rw [PageStore.allocate_page, Function.update_self] at hlive
      exact (Function.update_self _ _ _).trans (Option.some.inj hlive)
    · rw [PageStore.allocate_page, Function.update_of_ne heq] at hlive
      exact (Function.update_of_ne heq _ _).trans
        (h.stored pageId data hpage hlive)
  case owed_pinned => exact h.owed_pinned

end BufferPoolManager

end TicketSystem.Database
