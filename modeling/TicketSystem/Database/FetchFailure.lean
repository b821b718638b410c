import TicketSystem.Database.Frames

/-!
# A fetch that fails

`FetchPage` maps the page and pins its frame before it reads from the disk, and
takes nothing back when `ReadPage` throws.
-/

namespace TicketSystem.Database.BufferPoolManager

open TicketSystem.Support

variable {D : Type} [Zero D]

/-- What a failed fetch of a page should leave behind. -/
structure LeavesNoTrace (bpm : BufferPoolManager D) (pageId : PageId)
    (after : BufferPoolManager D) : Prop where
  unmapped : after.pageTable.find? pageId = none
  unpinned : ∀ frameId, (after.pages frameId).pageId = pageId →
    (after.pages frameId).pinCount = 0
  available : ∀ frameId claimed,
    bpm.findFrame = some (some frameId, claimed) →
      frameId ∈ after.freeList ∨ frameId ∈ after.replacer.queue
  failsAgain : ∃ again,
    after.fetchPage pageId = some (.readLessThenAPage, again)

/-- What it does leave behind: the page is pinned in the frame that was found,
and shows zero bytes to the next fetch. -/
structure LeavesTrace (bpm : BufferPoolManager D) (pageId : PageId)
    (frameId : ℕ) (after : BufferPoolManager D) : Prop where
  mapped : after.pageTable.find? pageId = some frameId
  pinned : (after.pages frameId).pageId = pageId ∧
    (after.pages frameId).pinCount = 1
  taken : bpm.Sound none →
    frameId ∉ after.freeList ∧ frameId ∉ after.replacer.queue
  zeroPage : ∃ again, after.fetchPage pageId = some (.page, again) ∧
    again.getData pageId = some 0

variable {bpm after : BufferPoolManager D} {pageId : PageId}

/-- The frame that `FindFrame` returns is reset. -/
theorem findFrame_pages {frameId : ℕ} {claimed : BufferPoolManager D}
    (hfind : bpm.findFrame = some (some frameId, claimed)) :
    claimed.pages frameId = Frame.reset := by
  unfold findFrame at hfind
  split at hfind
  · obtain ⟨hframe, rfl⟩ := Prod.mk.inj (Option.some.inj hfind)
    obtain rfl := Option.some.inj hframe
    exact Function.update_self _ _ _
  · split at hfind
    · cases hfind
    · dsimp only at hfind
      split at hfind
      · cases hfind
      · obtain ⟨hframe, rfl⟩ := Prod.mk.inj (Option.some.inj hfind)
        obtain rfl := Option.some.inj hframe
        exact Function.update_self _ _ _

/-- Only a read can fail, after the page was placed. -/
theorem fetchPage_eq_readLessThenAPage
    (hmiss : bpm.pageTable.find? pageId = none)
    (hfail : bpm.fetchPage pageId = some (.readLessThenAPage, after)) :
    ∃ frameId claimed disk, bpm.findFrame = some (some frameId, claimed) ∧
      after =
        { claimed with
          pageTable := claimed.pageTable.assign pageId frameId
          replacer := claimed.replacer.pin frameId
          diskManager := disk }.setFrame frameId
          { Frame.reset with pageId := pageId, pinCount := 1 } := by
  rw [fetchPage, hmiss] at hfail
  cases hfind : bpm.findFrame with
  | none => simp [hfind] at hfail
  | some found =>
      obtain ⟨_ | frameId, claimed⟩ := found
      · simp [hfind] at hfail
      · simp only [hfind, findFrame_pages hfind] at hfail
        refine ⟨frameId, claimed, (claimed.diskManager.readPage pageId).2,
          rfl, ?_⟩
        cases hread : claimed.diskManager.readPage pageId with
        | mk data disk =>
            cases data with
            | none => simpa [hread, eq_comm] using hfail
            | some data => simp [hread] at hfail

theorem fetchPage_leavesTrace (hmiss : bpm.pageTable.find? pageId = none)
    (hfail : bpm.fetchPage pageId = some (.readLessThenAPage, after)) :
    ∃ frameId claimed, bpm.findFrame = some (some frameId, claimed) ∧
      bpm.LeavesTrace pageId frameId after := by
  obtain ⟨frameId, claimed, disk, hfind, rfl⟩ :=
    fetchPage_eq_readLessThenAPage hmiss hfail
  refine ⟨frameId, claimed, hfind, ?_⟩
  constructor
  · simp
  · simp
  · intro hsound
    have hclaims : bpm.Claims frameId claimed := by
      rcases hsound.findFrame_cases with
        ⟨hnone, -⟩ | ⟨frameId', claimed', hsome, hclaims⟩
      · rw [hnone] at hfind
        cases hfind
      · rw [hsome] at hfind
        cases hfind
        exact hclaims
    constructor
    · intro hfree
      exact (hclaims.sound.free frameId hfree).2.1 rfl
    · intro hqueue
      exact (List.Nodup.not_mem_erase hclaims.sound.queue_nodup) hqueue
  · simp [fetchPage, getData, Frame.reset]

/-- A failed fetch of a page that was not in the pool never leaves the pool
without a trace of it. -/
theorem fetchPage_not_leavesNoTrace
    (hmiss : bpm.pageTable.find? pageId = none)
    (hfail : bpm.fetchPage pageId = some (.readLessThenAPage, after)) :
    ¬ bpm.LeavesNoTrace pageId after ∧
      ∃ frameId, bpm.LeavesTrace pageId frameId after := by
  obtain ⟨frameId, claimed, hfind, htrace⟩ :=
    fetchPage_leavesTrace hmiss hfail
  refine ⟨fun hclean => ?_, frameId, htrace⟩
  have hnone := hclean.unmapped
  rw [htrace.mapped] at hnone
  cases hnone

/-- The header page of a database that does not exist yet. -/
theorem fetchPage_not_leavesNoTrace_header :
    ∃ after, (new 1 (DiskManager.new (DiskFile.empty : DiskFile ℕ))).fetchPage
        HEADER_PAGE_ID = some (.readLessThenAPage, after) ∧
      ¬ (new 1 (DiskManager.new DiskFile.empty)).LeavesNoTrace HEADER_PAGE_ID
        after :=
  ⟨_, rfl, (fetchPage_not_leavesNoTrace rfl rfl).1⟩

/-- A second fetch of the header page succeeds. -/
theorem not_always_leavesNoTrace :
    ¬ ∀ (bpm : BufferPoolManager ℕ) (pageId : PageId)
      (after : BufferPoolManager ℕ), bpm.Sound none →
        bpm.pageTable.find? pageId = none →
          bpm.diskManager.file.size ≤ pageId →
            bpm.fetchPage pageId = some (.readLessThenAPage, after) →
              bpm.LeavesNoTrace pageId after := by
  intro hall
  have hclean := hall (new 1 (DiskManager.new DiskFile.empty)) HEADER_PAGE_ID
    _ (new_sound 1 _) rfl (le_refl 0) rfl
  obtain ⟨again, hagain⟩ := hclean.failsAgain
  cases hagain

end TicketSystem.Database.BufferPoolManager
