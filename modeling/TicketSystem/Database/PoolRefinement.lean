import TicketSystem.Database.PageStore
import TicketSystem.Support.Machine

/-!
# The buffer pool refines the page store

Whatever the pool evicts, each of its operations keeps it in agreement with the
store, and what it answers is what the store permits.
-/

namespace TicketSystem.Database

open TicketSystem.Support

variable {D : Type}

namespace BufferPoolManager

variable {bpm bpm' : BufferPoolManager D} {store : PageStore D}
  {held : Option ℕ} {pageId : PageId} {frameId : ℕ} [Zero D]

/-! ## One operation -/

omit [Zero D] in
/-- Frames that are all pinned hold as many pinned pages. -/
theorem Agrees.card_pins (h : bpm.Agrees store) (hsound : bpm.Sound held)
    (hpinned : ∀ frameId < bpm.poolSize, ∃ pageId,
      bpm.pageTable.find? pageId = some frameId ∧
        (bpm.pages frameId).pinCount ≠ 0) :
    bpm.poolSize ≤ store.pins.toFinset.card := by
  have hcard := Finset.card_le_card_of_injOn
    (s := Finset.range bpm.poolSize) (t := store.pins.toFinset)
    (fun frameId => (bpm.pages frameId).pageId) ?_ ?_
  · rwa [Finset.card_range] at hcard
  · intro frameId hlt
    obtain ⟨pageId, hpage, hpin⟩ := hpinned frameId (by simpa using hlt)
    obtain ⟨-, hid, -⟩ := hsound.mapped pageId frameId hpage
    rw [h.pinCount_eq pageId frameId hpage, Multiset.count_ne_zero] at hpin
    simpa [hid] using hpin
  · intro frameId hlt frameId' hlt' heq
    obtain ⟨pageId, hpage, -⟩ := hpinned frameId (by simpa using hlt)
    obtain ⟨pageId', hpage', -⟩ := hpinned frameId' (by simpa using hlt')
    have hid := (hsound.mapped pageId frameId hpage).2.1
    have hid' := (hsound.mapped pageId' frameId' hpage').2.1
    obtain rfl : pageId = pageId' := hid.symm.trans (heq.trans hid')
    exact Option.some.inj (hpage.symm.trans hpage')

/-- A pool of `poolSize` frames between two operations. -/
structure Refines (poolSize : ℕ) (readIndex : PageId → PageId)
    (bpm : BufferPoolManager D) (store : PageStore D) : Prop where
  sound : bpm.Sound none
  agrees : bpm.Agrees store
  poolSize_eq : bpm.poolSize = poolSize
  readIndex_eq : bpm.diskManager.readIndex = readIndex

variable {poolSize : ℕ} {readIndex : PageId → PageId}

omit [Zero D] in
@[simp] theorem writePage_readIndex (disk : DiskManager D) (data : D) :
    (disk.writePage pageId data).readIndex = disk.readIndex := by
  unfold DiskManager.writePage
  split
  · rfl
  · split <;> rfl

omit [Zero D] in
theorem readPage_readIndex (disk : DiskManager D) :
    (disk.readPage pageId).2.readIndex = disk.readIndex := by
  simp only [DiskManager.readPage]
  split <;> rfl

theorem Claims.readIndex_eq (h : bpm.Claims frameId bpm') :
    bpm'.diskManager.readIndex = bpm.diskManager.readIndex := by
  rcases h.table_disk with ⟨-, -, hdisk⟩ | ⟨_, -, -, -, hdisk⟩
  · rw [hdisk]
  · rw [hdisk, writeBack]
    split
    · exact writePage_readIndex _ _
    · rfl

theorem Claims.find?_eq_none (h : bpm.Claims frameId bpm')
    (hpage : bpm.pageTable.find? pageId = none) :
    bpm'.pageTable.find? pageId = none := by
  rcases h.table_disk with ⟨-, htable, -⟩ | ⟨pageId', -, -, htable, -⟩
  · rw [htable, hpage]
  · rw [htable, LinkedMap.find?_erase, hpage, ite_self]

theorem Refines.newPage (h : Refines poolSize readIndex bpm store)
    (hindex : readIndex store.nextPageId = store.nextPageId) :
    ∃ answer bpm', bpm.newPage = some (answer, bpm') ∧
      Refines poolSize readIndex bpm' (store.after .newPage answer) ∧
      store.Answers poolSize .newPage answer := by
  rcases h.sound.findFrame_cases with
    ⟨hnone, hpinned⟩ | ⟨frameId, claimed, hsome, hclaims⟩
  · refine ⟨none, bpm, by rw [BufferPoolManager.newPage, hnone], h, ?_⟩
    exact h.poolSize_eq ▸ h.agrees.card_pins h.sound hpinned
  · have hagrees := h.agrees.claims h.sound hclaims
    have hreset : claimed.pages frameId = Frame.reset := by
      rw [hclaims.pages_eq, Function.update_self]
    obtain ⟨hunmapped, hallocated⟩ := hagrees.allocate
      (by rw [hclaims.readIndex_eq, h.readIndex_eq, hindex])
    have hnew : bpm.newPage = some (some store.nextPageId,
        { claimed with
          diskManager := claimed.diskManager.allocatePage.2.writePage
            store.nextPageId 0
          pageTable := claimed.pageTable.assign store.nextPageId frameId
          replacer := claimed.replacer.pin frameId }.setFrame frameId
          { Frame.reset with
            pageId := store.nextPageId, pinCount := 1 }) := by
      rw [BufferPoolManager.newPage, hsome]
      simp only [hreset, DiskManager.allocatePage, hagrees.next_eq]
      rfl
    refine ⟨_, _, hnew, ⟨?_, ?_, ?_, ?_⟩, rfl⟩
    · exact hclaims.sound.place hunmapped _ rfl one_ne_zero _
    · refine hallocated.place (hclaims.sound.disk _) hunmapped _ ?_ rfl _
      exact Function.update_self _ _ _
    · exact hclaims.poolSize_eq.trans h.poolSize_eq
    · exact (writePage_readIndex _ _).trans
        (hclaims.readIndex_eq.trans h.readIndex_eq)

/-- A page that is there is fetched unless all frames are pinned. -/
theorem Refines.fetchPage (h : Refines poolSize readIndex bpm store)
    (hlive : (store.page pageId).isSome) :
    ∃ answer bpm', bpm.fetchPage pageId = some (answer, bpm') ∧
      Refines poolSize readIndex bpm'
        (store.after (.fetchPage pageId) answer) ∧
      store.Answers poolSize (.fetchPage pageId) answer := by
  cases hpage : bpm.pageTable.find? pageId with
  | some frameId =>
      have hfetch : bpm.fetchPage pageId = some (.page,
          { bpm with replacer := bpm.replacer.pin frameId }.setFrame frameId
            { bpm.pages frameId with
              pinCount := (bpm.pages frameId).pinCount + 1 }) := by
        rw [BufferPoolManager.fetchPage, hpage]
      refine ⟨_, _, hfetch, ⟨?_, ?_, h.poolSize_eq, h.readIndex_eq⟩, trivial⟩
      · exact h.sound.pin hpage
      · refine h.agrees.setFrame h.sound hpage _ _ rfl
          (h.agrees.data_eq pageId frameId hpage) ?_
          (h.agrees.clean pageId frameId hpage) ?_ ?_
        · simp [PageStore.after, h.agrees.pinCount_eq pageId frameId hpage]
        · exact fun _ => Multiset.mem_cons_self _ _
        · intro pageId' hne
          exact ⟨rfl, Multiset.count_cons_of_ne hne _, Iff.rfl⟩
  | none =>
      rcases h.sound.findFrame_cases with
        ⟨hnone, hpinned⟩ | ⟨frameId, claimed, hsome, hclaims⟩
      · refine ⟨.null, bpm, by rw [BufferPoolManager.fetchPage, hpage, hnone],
          h, ?_, h.agrees.count_eq_zero hpage⟩
        exact h.poolSize_eq ▸ h.agrees.card_pins h.sound hpinned
      · have hagrees := h.agrees.claims h.sound hclaims
        have hunmapped := hclaims.find?_eq_none hpage
        obtain ⟨data, hdata⟩ := Option.isSome_iff_exists.mp hlive
        obtain ⟨hid, -, hsize, hindex⟩ := hagrees.live pageId hlive
        have hread := DiskManager.readPage_of_lt hagrees.failed_eq hindex hid
          hsize
        rw [hagrees.stored pageId data hunmapped hdata] at hread
        have hfetch : bpm.fetchPage pageId = some (.page,
            { claimed with
              pageTable := claimed.pageTable.assign pageId frameId
              replacer := claimed.replacer.pin frameId }.setFrame frameId
              { claimed.pages frameId with
                pageId := pageId, pinCount := 1, data := data }) := by
          rw [BufferPoolManager.fetchPage, hpage]
          simp only [hsome, hread]
        refine ⟨_, _, hfetch, ⟨?_, ?_, ?_, ?_⟩, trivial⟩
        · exact hclaims.sound.place hunmapped _ rfl one_ne_zero _
        · exact hagrees.place hclaims.sound hunmapped _ hdata rfl _
        · exact hclaims.poolSize_eq.trans h.poolSize_eq
        · exact hclaims.readIndex_eq.trans h.readIndex_eq

omit [Zero D] in
theorem Agrees.mem_pins_iff (h : bpm.Agrees store)
    (hpage : bpm.pageTable.find? pageId = some frameId) :
    pageId ∈ store.pins ↔ (bpm.pages frameId).pinCount ≠ 0 := by
  rw [h.pinCount_eq pageId frameId hpage, Multiset.count_ne_zero]

theorem Refines.unpinPage (h : Refines poolSize readIndex bpm store)
    (isDirty : Bool) (hallow : store.Allows (.unpinPage pageId isDirty)) :
    Refines poolSize readIndex (bpm.unpinPage pageId isDirty).2
        (store.after (.unpinPage pageId isDirty)
          (bpm.unpinPage pageId isDirty).1) ∧
      store.Answers poolSize (.unpinPage pageId isDirty)
        (bpm.unpinPage pageId isDirty).1 := by
  cases hpage : bpm.pageTable.find? pageId with
  | none =>
      simp only [BufferPoolManager.unpinPage, hpage]
      exact ⟨h, by simp [PageStore.Answers, h.agrees.count_eq_zero hpage]⟩
  | some frameId =>
      have hpins := h.agrees.mem_pins_iff hpage
      have hcount := h.agrees.pinCount_eq pageId frameId hpage
      by_cases hpin : (bpm.pages frameId).pinCount = 0
      · simp only [BufferPoolManager.unpinPage, hpage, hpin, if_true]
        exact ⟨h, by simp [PageStore.Answers, hpins, hpin]⟩
      simp only [BufferPoolManager.unpinPage, hpage, hpin, if_false]
      refine ⟨⟨?_, ?_, h.poolSize_eq, h.readIndex_eq⟩,
        by simp [PageStore.Answers, hpins, hpin]⟩
      · exact h.sound.unpin hpage hpin isDirty
      · refine h.agrees.setFrame h.sound hpage _ _ rfl
          (h.agrees.data_eq pageId frameId hpage) ?_ ?_ ?_ ?_
        · simp [PageStore.after, hcount]
        · -- a page that becomes clean is not owed, and was clean before
          intro hclean howed
          obtain ⟨hold, hdirty⟩ := Bool.or_eq_false_iff.mp hclean
          refine h.agrees.clean pageId frameId hpage hold fun hmem => howed ?_
          simpa [PageStore.after, hdirty] using hmem
        · intro howed
          cases hdirty : isDirty with
          | true => simp [PageStore.after, hdirty] at howed
          | false =>
              have hmem : pageId ∈ store.owed := by
                simpa [PageStore.after, hdirty] using howed
              have htwo := hallow hdirty hmem
              rw [PageStore.after, PageStore.unpin_pins,
                ← Multiset.one_le_count_iff_mem, Multiset.count_erase_self]
              omega
        · intro pageId' hne
          refine ⟨rfl, Multiset.count_erase_of_ne hne _, ?_⟩
          simp only [PageStore.after, PageStore.unpin_owed]
          split
          · rw [Finset.mem_erase, and_iff_right hne]
          · rfl

omit [Zero D] in
/-- A turn of `FlushAllPages`, and with it `FlushPage`. -/
theorem Refines.flushFrame (h : Refines poolSize readIndex bpm store)
    (hpage : bpm.pageTable.find? pageId = some frameId) :
    Refines poolSize readIndex (bpm.flushFrame frameId) store := by
  have hid := (h.sound.mapped pageId frameId hpage).2.1
  have hlive := h.agrees.live pageId (h.agrees.isSome_of_mapped hpage)
  have hwritten := h.agrees.writePage hpage
  simp only [BufferPoolManager.flushFrame, hid]
  refine ⟨?_, ?_, h.poolSize_eq,
    (writePage_readIndex _ _).trans h.readIndex_eq⟩
  · exact h.sound.setFrame hpage _ (by rfl) bpm.replacer _ rfl
      h.sound.queue_nodup (h.sound.mem_queue_iff hpage) fun _ _ => Iff.rfl
  · refine hwritten.setFrame (h.sound.disk _) hpage _ bpm.replacer rfl
      (h.agrees.data_eq pageId frameId hpage)
      (h.agrees.pinCount_eq pageId frameId hpage) ?_
      (h.agrees.owed_pinned pageId) fun _ _ => ⟨rfl, rfl, Iff.rfl⟩
    intro _ _
    rw [DiskManager.writePage_of_nonneg h.agrees.failed_eq hlive.1]
    exact Function.update_self _ _ _

omit [Zero D] in
theorem Refines.flushPage (h : Refines poolSize readIndex bpm store)
    (pageId : PageId) :
    Refines poolSize readIndex (bpm.flushPage pageId).2 store := by
  rw [BufferPoolManager.flushPage]
  split
  · exact h
  · cases hpage : bpm.pageTable.find? pageId with
    | none => exact h
    | some frameId =>
        have hflush := h.flushFrame hpage
        simp only [BufferPoolManager.flushFrame,
          (h.sound.mapped pageId frameId hpage).2.1] at hflush
        simpa only [(h.sound.mapped pageId frameId hpage).2.1] using hflush

omit [Zero D] in
/-- The loop of `FlushAllPages` puts the pages it has passed on disk. -/
theorem Refines.flushAllPages (h : Refines poolSize readIndex bpm store) :
    Refines poolSize readIndex bpm.flushAllPages store ∧
      ∀ pageId data, store.page pageId = some data →
        bpm.flushAllPages.diskManager.file.page pageId = data := by
  suffices hloop : ∀ (items : List (PageId × ℕ)) (bpm : BufferPoolManager D),
      Refines poolSize readIndex bpm store →
      (∀ item ∈ items, bpm.pageTable.find? item.1 = some item.2) →
      (∀ pageId data, store.page pageId = some data →
        bpm.diskManager.file.page pageId = data ∨
          pageId ∈ items.map Prod.fst) →
      Refines poolSize readIndex
          (items.foldl (fun bpm item => bpm.flushFrame item.2) bpm) store ∧
        ∀ pageId data, store.page pageId = some data →
          (items.foldl (fun bpm item => bpm.flushFrame item.2)
            bpm).diskManager.file.page pageId = data by
    refine hloop _ bpm h (fun item hitem => ?_) fun pageId data hlive => ?_
    · exact LinkedMap.mem_entries_iff.mp hitem
    · cases hpage : bpm.pageTable.find? pageId with
      | none => exact Or.inl (h.agrees.stored pageId data hpage hlive)
      | some frameId =>
          exact Or.inr (List.mem_map.mpr
            ⟨_, LinkedMap.mem_entries_iff.mpr hpage, rfl⟩)
  intro items
  induction items with
  | nil =>
      intro bpm h _ hdisk
      exact ⟨h, fun pageId data hlive =>
        (hdisk pageId data hlive).resolve_right List.not_mem_nil⟩
  | cons item items ih =>
      intro bpm h hitems hdisk
      have hpage := hitems item List.mem_cons_self
      refine ih _ (h.flushFrame hpage)
        (fun item' hitem' => hitems item' (List.mem_cons_of_mem _ hitem')) ?_
      intro pageId data hlive
      have hid := (h.sound.mapped item.1 item.2 hpage).2.1
      have hnonneg := (h.agrees.live item.1
        (h.agrees.isSome_of_mapped hpage)).1
      simp only [BufferPoolManager.flushFrame, setFrame_diskManager, hid]
      rw [DiskManager.writePage_of_nonneg h.agrees.failed_eq hnonneg]
      by_cases heq : pageId = item.1
      · subst heq
        rw [h.agrees.data_eq _ _ hpage] at hlive
        exact Or.inl ((Function.update_self _ _ _).trans
          (Option.some.inj hlive))
      · rcases hdisk pageId data hlive with hstored | hin
        · exact Or.inl ((Function.update_of_ne heq _ _).trans hstored)
        · exact Or.inr ((List.mem_cons.mp hin).resolve_left heq)

omit [Zero D] in
/-- The client forgets a page without pins. -/
theorem Agrees.delete (h : bpm.Agrees store)
    (hdisk : bpm'.diskManager = bpm.diskManager) (hout : pageId ∉ store.pins)
    (hmapped : ∀ pageId' frameId',
      bpm'.pageTable.find? pageId' = some frameId' →
        pageId' ≠ pageId ∧ bpm.pageTable.find? pageId' = some frameId' ∧
          bpm'.pages frameId' = bpm.pages frameId')
    (hunmapped : ∀ pageId' ≠ pageId, bpm'.pageTable.find? pageId' = none →
      bpm.pageTable.find? pageId' = none) :
    bpm'.Agrees (store.delete pageId) := by
  have hlive : ∀ pageId' data,
      (store.delete pageId).page pageId' = some data →
        pageId' ≠ pageId ∧ store.page pageId' = some data := by
    intro pageId' data hdata
    by_cases heq : pageId' = pageId
    · subst heq
      rw [PageStore.delete_page, Function.update_self] at hdata
      cases hdata
    · rw [PageStore.delete_page, Function.update_of_ne heq] at hdata
      exact ⟨heq, hdata⟩
  refine h.restrict hdisk rfl rfl rfl
    (fun pageId' data hdata => (hlive pageId' data hdata).2) ?_ ?_ ?_
  · intro pageId' frameId' hpage'
    obtain ⟨hne, hpage', hframe⟩ := hmapped pageId' frameId' hpage'
    exact ⟨hpage', hframe, Function.update_of_ne hne _ _⟩
  · intro pageId' hin
    have hne : pageId' ≠ pageId := fun heq => hout (heq ▸ hin)
    rw [Option.isSome_iff_ne_none]
    intro hnone
    have hsome := h.pins_mapped pageId' hin
    rw [hunmapped pageId' hne hnone] at hsome
    cases hsome
  · intro pageId' data hpage' hdata
    obtain ⟨hne, hdata⟩ := hlive pageId' data hdata
    exact h.stored pageId' data (hunmapped pageId' hne hpage') hdata

theorem Refines.deletePage (h : Refines poolSize readIndex bpm store)
    (pageId : PageId) :
    Refines poolSize readIndex (bpm.deletePage pageId).2
        (store.after (.deletePage pageId) (bpm.deletePage pageId).1) ∧
      store.Answers poolSize (.deletePage pageId)
        (bpm.deletePage pageId).1 := by
  cases hpage : bpm.pageTable.find? pageId with
  | none =>
      have hout := h.agrees.count_eq_zero hpage
      simp only [BufferPoolManager.deletePage, hpage]
      refine ⟨⟨h.sound, ?_, h.poolSize_eq, h.readIndex_eq⟩,
        by simp [PageStore.Answers, hout]⟩
      refine h.agrees.delete rfl hout (fun pageId' frameId' hpage' => ?_)
        fun _ _ hpage' => hpage'
      refine ⟨?_, hpage', rfl⟩
      rintro rfl
      rw [hpage] at hpage'
      cases hpage'
  | some frameId =>
      have hpins := h.agrees.mem_pins_iff hpage
      by_cases hpin : (bpm.pages frameId).pinCount = 0
      · simp only [BufferPoolManager.deletePage, hpage, hpin, ne_eq,
          not_true_eq_false, if_false]
        refine ⟨⟨h.sound.release hpage _, ?_, h.poolSize_eq, h.readIndex_eq⟩,
          by simp [PageStore.Answers, hpins, hpin]⟩
        refine h.agrees.delete rfl (by rw [hpins, hpin]; decide) ?_ ?_
        · intro pageId' frameId' hpage'
          obtain ⟨hne, hkept⟩ :=
            (h.sound.find?_erase_iff hpage pageId' frameId').mp hpage'
          refine ⟨?_, hkept, Function.update_of_ne hne _ _⟩
          rintro rfl
          exact hne (Option.some.inj (hkept.symm.trans hpage))
        · intro pageId' hne hpage'
          exact (LinkedMap.find?_erase_of_ne hne).symm.trans hpage'
      · simp only [BufferPoolManager.deletePage, hpage, ne_eq, hpin,
          not_false_eq_true, if_true]
        exact ⟨h, by simp [PageStore.Answers, hpins, hpin]⟩

omit [Zero D] in
/-- A pinned page is in a frame. -/
theorem Agrees.pinned (h : bpm.Agrees store) (hin : pageId ∈ store.pins) :
    ∃ frameId, bpm.pageTable.find? pageId = some frameId ∧
      (bpm.pages frameId).pinCount ≠ 0 := by
  obtain ⟨frameId, hpage⟩ := Option.isSome_iff_exists.mp
    (h.pins_mapped pageId hin)
  exact ⟨frameId, hpage, (h.mem_pins_iff hpage).mp hin⟩

omit [Zero D] in
/-- The pointer to a pinned page shows its latest bytes. -/
theorem Agrees.getData (h : bpm.Agrees store) (hin : pageId ∈ store.pins) :
    ∃ data, bpm.getData pageId = some data ∧
      store.page pageId = some data := by
  obtain ⟨frameId, hpage, hpin⟩ := h.pinned hin
  refine ⟨_, ?_, h.data_eq pageId frameId hpage⟩
  simp only [BufferPoolManager.getData, hpage, if_neg hpin]

omit [Zero D] in
theorem Refines.setData (h : Refines poolSize readIndex bpm store)
    (hin : pageId ∈ store.pins) (data : D) :
    ∃ bpm', bpm.setData pageId data = some bpm' ∧
      Refines poolSize readIndex bpm' (store.write pageId data) := by
  obtain ⟨frameId, hpage, hpin⟩ := h.agrees.pinned hin
  have hset : bpm.setData pageId data = some (bpm.setFrame frameId
      { bpm.pages frameId with data := data }) := by
    simp only [BufferPoolManager.setData, hpage, if_neg hpin]
  refine ⟨_, hset, ?_, ?_, h.poolSize_eq, h.readIndex_eq⟩
  · exact h.sound.setFrame hpage _
      (by exact (h.sound.mapped pageId frameId hpage).2.1) bpm.replacer
      bpm.diskManager rfl h.sound.queue_nodup (h.sound.mem_queue_iff hpage)
      fun _ _ => Iff.rfl
  · refine h.agrees.setFrame h.sound hpage _ bpm.replacer rfl
      (Function.update_self _ _ _)
      (by exact h.agrees.pinCount_eq pageId frameId hpage) ?_
      (fun _ => hin) ?_
    · -- the page is owed now, so nothing is said about the disk
      intro _ howed
      exact absurd (Finset.mem_insert_self pageId _) howed
    · intro pageId' hne
      exact ⟨Function.update_of_ne hne _ _, rfl,
        by simp [PageStore.write, hne]⟩

/-- Every operation of a client that keeps its rules is answered as the store
permits. -/
theorem Refines.perform (h : Refines poolSize readIndex bpm store)
    (hindex : readIndex store.nextPageId = store.nextPageId) (op : PageOp D)
    (hallow : store.Allows op) :
    ∃ answer bpm', bpm.perform op = some (answer, bpm') ∧
      Refines poolSize readIndex bpm' (store.after op answer) ∧
      store.Answers poolSize op answer := by
  cases op with
  | newPage => exact h.newPage hindex
  | fetchPage pageId => exact h.fetchPage hallow
  | unpinPage pageId isDirty => exact ⟨_, _, rfl, h.unpinPage isDirty hallow⟩
  | flushPage pageId => exact ⟨_, _, rfl, h.flushPage pageId, trivial⟩
  | flushAllPages => exact ⟨(), _, rfl, h.flushAllPages.1, trivial⟩
  | deletePage pageId => exact ⟨_, _, rfl, h.deletePage pageId⟩
  | getData pageId =>
      obtain ⟨data, hget, hdata⟩ := h.agrees.getData hallow
      exact ⟨data, bpm, by rw [BufferPoolManager.perform, hget]; rfl, h, hdata⟩
  | setData pageId data =>
      obtain ⟨bpm', hset, hrefines⟩ := h.setData hallow data
      exact ⟨(), bpm', by rw [BufferPoolManager.perform, hset]; rfl, hrefines,
        trivial⟩

end BufferPoolManager

/-! ## Runs of a client -/

/-- A buffer pool together with what its client has done to it. -/
structure PoolClient (D : Type) where
  bpm : BufferPoolManager D
  store : PageStore D

namespace PoolClient

variable [Zero D]

/-- A client of a new pool. -/
def start (poolSize : ℕ) (disk : DiskManager D) : PoolClient D where
  bpm := BufferPoolManager.new poolSize disk
  store := PageStore.start disk.nextPageId

/-- An operation on the pool, and its answer in the client's records. -/
def step (client : PoolClient D) (op : PageOp D) :
    Option (Unit × PoolClient D) :=
  (client.bpm.perform op).map fun (answer, bpm) =>
    ((), { bpm := bpm, store := client.store.after op answer })

/-- The states that a client reaches when it keeps the rules. -/
def Reachable (poolSize : ℕ) (disk : DiskManager D) (client : PoolClient D) :
    Prop :=
  Reaches step (fun client op => client.store.Allows op)
    (start poolSize disk) client

/-- A disk manager that stores pages faithfully: it looks for a page where it
was written. -/
structure Faithful (disk : DiskManager D) : Prop where
  readIndex_eq : ∀ pageId, disk.readIndex pageId = pageId
  failed_eq : disk.failed = false
  next_nonneg : 0 ≤ disk.nextPageId

variable {poolSize : ℕ} {disk : DiskManager D} {client : PoolClient D}

theorem refines_of_reachable (hdisk : Faithful disk)
    (h : Reachable poolSize disk client) :
    BufferPoolManager.Refines poolSize id client.bpm client.store := by
  refine Reaches.invariant
    (fun client =>
      BufferPoolManager.Refines poolSize id client.bpm client.store) ?_ ?_ h
  · exact ⟨BufferPoolManager.new_sound poolSize disk,
      BufferPoolManager.new_agrees poolSize hdisk.failed_eq hdisk.next_nonneg,
      rfl, funext hdisk.readIndex_eq⟩
  · intro client op _ client' hrefines hallow hstep
    obtain ⟨answer, bpm, hperform, hafter, -⟩ :=
      hrefines.perform rfl op hallow
    rw [step, hperform] at hstep
    obtain rfl := (Prod.mk.inj (Option.some.inj hstep)).2
    exact hafter

/-- In every state that a client of the pool reaches, a page that is fetched
shows the bytes last written to it, a pinned page shows them too, and flushing
all pages puts them on disk. -/
theorem Reachable.latest (hdisk : Faithful disk)
    (h : Reachable poolSize disk client) {pageId : PageId} {data : D}
    (hdata : client.store.page pageId = some data) :
    (∃ answer bpm, client.bpm.fetchPage pageId = some (answer, bpm) ∧
        answer ≠ .readLessThenAPage ∧
        (answer = .page → bpm.getData pageId = some data)) ∧
      (pageId ∈ client.store.pins →
        client.bpm.getData pageId = some data) ∧
      (client.bpm.flushAllPages.diskManager.readPage pageId).1 =
        some data := by
  have hrefines := refines_of_reachable hdisk h
  have hlive := Option.isSome_of_eq_some hdata
  refine ⟨?_, ?_, ?_⟩
  · obtain ⟨answer, bpm, hfetch, hafter, hanswers⟩ :=
      hrefines.fetchPage hlive
    refine ⟨answer, bpm, hfetch, ?_, ?_⟩
    · rintro rfl
      exact hanswers
    · rintro rfl
      obtain ⟨data', hget, hdata'⟩ := hafter.agrees.getData
        (Multiset.mem_cons_self pageId _)
      rw [hget, ← hdata, ← hdata']
      rfl
  · intro hin
    obtain ⟨data', hget, hdata'⟩ := hrefines.agrees.getData hin
    rw [hget, ← hdata, ← hdata']
  · obtain ⟨hflushed, hstored⟩ := hrefines.flushAllPages
    obtain ⟨hid, -, hsize, hindex⟩ := hflushed.agrees.live pageId hlive
    rw [DiskManager.readPage_of_lt hflushed.agrees.failed_eq hindex hid hsize,
      hstored pageId data hdata]

/-- With a single frame, a written page is evicted by the next one and fetched
again with what was written. -/
theorem Reachable.latest_evicted :
    ∃ client : PoolClient ℕ, client.store.page 0 = some 7 ∧
      (∃ answer bpm, client.bpm.fetchPage 0 = some (answer, bpm) ∧
        answer ≠ .readLessThenAPage ∧
        (answer = .page → bpm.getData 0 = some 7)) ∧
      (0 ∈ client.store.pins → client.bpm.getData 0 = some 7) ∧
      (client.bpm.flushAllPages.diskManager.readPage 0).1 = some 7 := by
  let disk : DiskManager ℕ :=
    { DiskManager.new DiskFile.empty with readIndex := id }
  let ops : List (PageOp ℕ) :=
    [.newPage, .setData 0 7, .unpinPage 0 true, .newPage, .unpinPage 1 false]
  have hrun : ((runSteps step (start 1 disk) ops).map fun client =>
      client.store.page 0) = some (some 7) := by decide +kernel
  obtain ⟨client, hclient, hdata⟩ := Option.map_eq_some_iff.mp hrun
  have hok : StepsOk step (fun client op => client.store.Allows op)
      (start 1 disk) ops := by decide +kernel
  exact ⟨client, hdata, Reachable.latest ⟨fun _ => rfl, rfl, le_refl 0⟩
    (Reaches.refl.runSteps hok hclient) hdata⟩

end PoolClient

end TicketSystem.Database
