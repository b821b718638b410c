import TicketSystem.Database.BufferPool
import TicketSystem.Support.ByteStream

/-!
# The places of the pages in the database file

`WritePage` computes the offset of a page as a `size_t` and `ReadPage` as an
`int`.  Here the database file is a stream of bytes; the disk manager of the
buffer pool, whose file consists of pages, is what this one looks like.
-/

namespace TicketSystem.Database

open TicketSystem.Support

/-- The `PAGE_SIZE` characters of a page. -/
abbrev PageBytes := Fin PAGE_SIZE.toNat → UInt8

/-- What `AllocatePage` hands out, before its counter overflows. -/
def IsPageId (pageId : ℤ) : Prop :=
  0 ≤ pageId ∧ pageId < 2 ^ 31

instance (pageId : ℤ) : Decidable (IsPageId pageId) :=
  inferInstanceAs (Decidable (_ ∧ _))

namespace DbFile

/-- `static_cast<size_t>(page_id) * PAGE_SIZE`, as `seekp` takes it. -/
def writeOffset (pageId : PageId) : ℤ :=
  Int.bmod (pageId * PAGE_SIZE) (2 ^ 64)

/-- `WritePage`. -/
def writePage (io : ByteStream) (pageId : PageId) (data : PageBytes) :
    ByteStream :=
  (io.seekp (writeOffset pageId)).write data

/-- `ReadPage`, with nothing for `read_less_then_a_page`. -/
def readPage (io : ByteStream) (pageId : PageId) :
    Option PageBytes × ByteStream :=
  let io := io.seekp (DiskManager.readOffset pageId)
  let after := io.read PAGE_SIZE.toNat
  if io.gcount PAGE_SIZE.toNat < PAGE_SIZE.toNat then (none, after.2.clear)
  else (some after.1, after.2)

/-! ## Sequences of calls -/

inductive DiskCall
  | writePage (pageId : PageId) (data : PageBytes)
  | readPage (pageId : PageId)

def DiskCall.pageId : DiskCall → PageId
  | writePage pageId _ => pageId
  | readPage pageId => pageId

def call (io : ByteStream) : DiskCall → ByteStream
  | .writePage pageId data => writePage io pageId data
  | .readPage pageId => (readPage io pageId).2

def run (io : ByteStream) (calls : List DiskCall) : ByteStream :=
  calls.foldl call io

/-- The data of the last write of the page. -/
def lastWritten (calls : List DiskCall) (pageId : PageId) : Option PageBytes :=
  calls.foldl
    (fun last call =>
      match call with
      | .writePage pageId' data => if pageId' = pageId then some data else last
      | .readPage _ => last)
    none

/-- Both calls find the page at its place, which it shares with no other page,
and it is read as it was last written. -/
structure ReadsBack (io : ByteStream) (calls : List DiskCall)
    (pageId : PageId) : Prop where
  readOffset_eq : DiskManager.readOffset pageId = pageId * PAGE_SIZE
  writeOffset_eq : writeOffset pageId = pageId * PAGE_SIZE
  apart : ∀ pageId', IsPageId pageId' → pageId' ≠ pageId →
    Disjoint (ByteStream.blockAt (writeOffset pageId) PAGE_SIZE.toNat)
      (ByteStream.blockAt (writeOffset pageId')
        PAGE_SIZE.toNat)
  answers : ∀ data, lastWritten calls pageId = some data →
    (readPage (run io calls) pageId).1 = some data
  signals : (readPage (run io calls) pageId).1 = none →
    lastWritten calls pageId = none

/-! ## The offsets -/

theorem cast_toNat_PAGE_SIZE : (PAGE_SIZE.toNat : ℤ) = PAGE_SIZE := rfl

variable {pageId pageId' : ℤ}

theorem writeOffset_eq_of_int (hlow : -2 ^ 31 ≤ pageId)
    (hhigh : pageId < 2 ^ 31) : writeOffset pageId = pageId * PAGE_SIZE := by
  rw [writeOffset, PAGE_SIZE]
  apply Int.bmod_eq_of_le_mul_two
  · push_cast
    omega
  · push_cast
    omega

theorem writeOffset_eq (hid : IsPageId pageId) :
    writeOffset pageId = pageId * PAGE_SIZE := by
  apply writeOffset_eq_of_int _ hid.2
  have hnonneg := hid.1
  omega

theorem PAGE_SIZE_dvd_readOffset (pageId : ℤ) :
    PAGE_SIZE ∣ DiskManager.readOffset pageId := by
  apply (Int.dvd_iff_emod_eq_zero).mpr
  rw [DiskManager.readOffset, PAGE_SIZE, Int.bmod_def]
  push_cast
  omega

/-- The `int` of `ReadPage` is the place of the page for the first `65536`
pages only. -/
theorem readOffset_eq_iff (hid : IsPageId pageId) :
    DiskManager.readOffset pageId = pageId * PAGE_SIZE ↔ pageId < 65536 := by
  obtain ⟨hnonneg, hlt⟩ := hid
  constructor
  · intro heq
    have hbound : DiskManager.readOffset pageId < (2 ^ 32 + 1) / 2 :=
      Int.bmod_lt (show 0 < 2 ^ 32 by norm_num)
    rw [heq, PAGE_SIZE] at hbound
    omega
  · intro hsmall
    rw [DiskManager.readOffset, PAGE_SIZE]
    apply Int.bmod_eq_of_le_mul_two
    · push_cast
      omega
    · push_cast
      omega

/-- Different pages lie apart. -/
theorem disjoint_blockAt (hne : pageId' ≠ pageId) :
    Disjoint (ByteStream.blockAt (pageId * PAGE_SIZE) PAGE_SIZE.toNat)
      (ByteStream.blockAt (pageId' * PAGE_SIZE) PAGE_SIZE.toNat) := by
  rw [Set.disjoint_left]
  intro i hi hi'
  rw [ByteStream.blockAt, cast_toNat_PAGE_SIZE, PAGE_SIZE, Set.mem_Ico]
    at hi hi'
  omega

/-! ## What the calls do to the file -/

variable {io : ByteStream} {data : PageBytes}

theorem stores_writePage (hgood : io.failbit = false) (hid : IsPageId pageId) :
    (writePage io pageId data).Stores (pageId * PAGE_SIZE) data := by
  have hplace : 0 ≤ pageId * PAGE_SIZE :=
    mul_nonneg hid.1 (by decide)
  rw [writePage, writeOffset_eq hid,
    ByteStream.seekp_of_nonneg hgood hplace]
  apply ByteStream.stores_write
  exact hgood

theorem stores_writePage_of_ne {data' : PageBytes}
    (hgood : io.failbit = false) (hid' : IsPageId pageId')
    (hne : pageId' ≠ pageId) (h : io.Stores (pageId * PAGE_SIZE) data) :
    (writePage io pageId' data').Stores (pageId * PAGE_SIZE) data := by
  have hplace : 0 ≤ pageId' * PAGE_SIZE :=
    mul_nonneg hid'.1 (by decide)
  rw [writePage, writeOffset_eq hid',
    ByteStream.seekp_of_nonneg hgood hplace]
  apply ByteStream.Stores.write
  · exact h.of_eq rfl rfl
  · exact disjoint_blockAt hne

theorem writePage_failbit (hgood : io.failbit = false)
    (hid : IsPageId pageId) : (writePage io pageId data).failbit = false := by
  have hplace : 0 ≤ pageId * PAGE_SIZE :=
    mul_nonneg hid.1 (by decide)
  rw [writePage, writeOffset_eq hid,
    ByteStream.seekp_of_nonneg hgood hplace]
  simp [ByteStream.write, hgood]

/-- A read leaves the file, and no fail bit. -/
theorem readPage_failbit (io : ByteStream) (pageId : PageId) :
    (readPage io pageId).2.failbit = false := by
  unfold readPage
  dsimp only
  split
  · rfl
  · next hcount => exact decide_eq_false hcount

theorem readPage_byte (io : ByteStream) (pageId : PageId) :
    (readPage io pageId).2.byte = io.byte ∧
      (readPage io pageId).2.length = io.length := by
  unfold readPage
  dsimp only
  split
  · simp [ByteStream.clear, ByteStream.read]
  · simp [ByteStream.read]

/-- What is stored at the `int` offset is read. -/
theorem readPage_of_stores (hgood : io.failbit = false)
    (hplace : 0 ≤ DiskManager.readOffset pageId)
    (h : io.Stores (DiskManager.readOffset pageId) data) :
    (readPage io pageId).1 = some data := by
  have hstores : ({ io with position := DiskManager.readOffset pageId } :
      ByteStream).Stores (DiskManager.readOffset pageId) data :=
    h.of_eq rfl rfl
  have hcount := hstores.gcount hgood (by decide)
  unfold readPage
  rw [ByteStream.seekp_of_nonneg hgood hplace]
  dsimp only
  rw [hcount, if_neg (lt_irrefl _)]
  exact congrArg some hstores.read

theorem readPage_of_gcount
    (hcount : (io.seekp (DiskManager.readOffset pageId)).gcount
      PAGE_SIZE.toNat < PAGE_SIZE.toNat) :
    (readPage io pageId).1 = none := by
  unfold readPage
  dsimp only
  rw [if_pos hcount]

/-- A page whose `int` offset is negative cannot be read. -/
theorem readPage_of_neg (hneg : DiskManager.readOffset pageId < 0) :
    (readPage io pageId).1 = none := by
  apply readPage_of_gcount
  rw [ByteStream.gcount_of_failbit (ByteStream.seekp_of_neg hneg)]
  decide

/-! ## What every sequence of calls keeps -/

/-- Every page stands in the file as it was last written. -/
structure Keeps (io : ByteStream) (written : PageId → Option PageBytes) :
    Prop where
  failbit_eq : io.failbit = false
  stores : ∀ pageId data, IsPageId pageId → written pageId = some data →
    io.Stores (pageId * PAGE_SIZE) data

theorem Keeps.call {calls : List DiskCall} {next : DiskCall}
    (h : Keeps io (lastWritten calls)) (hid : IsPageId next.pageId) :
    Keeps (call io next) (lastWritten (calls ++ [next])) := by
  cases next with
  | readPage pageId =>
      obtain ⟨hbyte, hlength⟩ := readPage_byte io pageId
      constructor
      · exact readPage_failbit io pageId
      · intro pageId' data hid' hlast
        apply (h.stores pageId' data hid' _).of_eq hbyte hlength
        simpa [lastWritten] using hlast
  | writePage pageId data =>
      constructor
      · exact writePage_failbit h.failbit_eq hid
      · intro pageId' data' hid' hlast
        by_cases heq : pageId = pageId'
        · subst heq
          obtain rfl : data = data' := by
            simpa [lastWritten] using hlast
          exact stores_writePage h.failbit_eq hid
        · apply stores_writePage_of_ne h.failbit_eq hid heq
          apply h.stores pageId' data' hid'
          simpa [lastWritten, heq] using hlast

theorem keeps_run {calls : List DiskCall} (hgood : io.failbit = false)
    (hids : ∀ call ∈ calls, IsPageId call.pageId) :
    Keeps (run io calls) (lastWritten calls) := by
  induction calls using List.reverseRecOn with
  | nil => exact ⟨hgood, by simp [lastWritten]⟩
  | append_singleton calls next ih =>
      have hbefore : ∀ call ∈ calls, IsPageId call.pageId := by
        intro call hmem
        exact hids call (List.mem_append_left _ hmem)
      rw [run, List.foldl_append]
      exact (ih hbefore).call (hids next (by simp))

/-- A page is read back exactly when it is one of the first `65536`. -/
theorem readsBack_iff {calls : List DiskCall} (hgood : io.failbit = false)
    (hids : ∀ call ∈ calls, IsPageId call.pageId) (hid : IsPageId pageId) :
    ReadsBack io calls pageId ↔ pageId < 65536 := by
  constructor
  · intro h
    exact (readOffset_eq_iff hid).mp h.readOffset_eq
  · intro hsmall
    have hkeeps := keeps_run hgood hids
    have hanswers : ∀ data, lastWritten calls pageId = some data →
        (readPage (run io calls) pageId).1 = some data := by
      intro data hlast
      have hstores := hkeeps.stores pageId data hid hlast
      have hplace : 0 ≤ pageId * PAGE_SIZE :=
        mul_nonneg hid.1 (by decide)
      rw [← (readOffset_eq_iff hid).mpr hsmall] at hstores hplace
      exact readPage_of_stores hkeeps.failbit_eq hplace hstores
    constructor
    · exact (readOffset_eq_iff hid).mpr hsmall
    · exact writeOffset_eq hid
    · intro pageId' hid' hne
      rw [writeOffset_eq hid, writeOffset_eq hid']
      exact disjoint_blockAt hne
    · exact hanswers
    · intro hnone
      by_contra hwritten
      obtain ⟨data, hdata⟩ := Option.ne_none_iff_exists'.mp hwritten
      rw [hanswers data hdata] at hnone
      cases hnone

/-- The bytes of a page that is written and read in a fresh file. -/
theorem readsBack_third :
    IsPageId 3 ∧ (3 : ℤ) < 65536 ∧
      ReadsBack ⟨fun _ => 0, 0, 0, false⟩ [.writePage 3 fun _ => 7] 3 :=
  ⟨by decide, by decide,
    (readsBack_iff rfl (by simp [DiskCall.pageId, IsPageId])
      (by decide)).mpr (by decide)⟩

/-- The offset of page `65536` is a negative `int`. -/
theorem not_always_readsBack :
    ¬ ∀ (io : ByteStream) (calls : List DiskCall) (pageId : ℤ),
      io.failbit = false → (∀ call ∈ calls, IsPageId call.pageId) →
        IsPageId pageId → ReadsBack io calls pageId := by
  intro hall
  have hback := hall ⟨fun _ => 0, 0, 0, false⟩ [.writePage 65536 fun _ => 7]
    65536 rfl (by simp [DiskCall.pageId, IsPageId]) (by decide)
  have hnone := hback.signals (readPage_of_neg (by decide))
  simp [lastWritten] at hnone

/-- Every later page is misread after some writes: it cannot be read at all,
or the content of another page is. -/
theorem exists_misread (hgood : io.failbit = false) (hid : IsPageId pageId)
    (hlarge : 65536 ≤ pageId) :
    ∃ calls data, (∀ call ∈ calls, IsPageId call.pageId) ∧
      lastWritten calls pageId = some data ∧
        (readPage (run io calls) pageId).1 ≠ some data := by
  by_cases hneg : DiskManager.readOffset pageId < 0
  · refine ⟨[.writePage pageId fun _ => 0], fun _ => 0, ?_, ?_, ?_⟩
    · simpa [DiskCall.pageId] using hid
    · simp [lastWritten]
    · rw [readPage_of_neg hneg]
      simp
  · -- the read goes to the place of the page below
    obtain ⟨other, hother, hne, hoffset⟩ : ∃ other, IsPageId other ∧
        other ≠ pageId ∧
          DiskManager.readOffset pageId = other * PAGE_SIZE := by
      obtain ⟨other, hother⟩ := PAGE_SIZE_dvd_readOffset pageId
      have hbound : DiskManager.readOffset pageId < (2 ^ 32 + 1) / 2 :=
        Int.bmod_lt (show 0 < 2 ^ 32 by norm_num)
      rw [PAGE_SIZE] at hother
      refine ⟨other, ⟨?_, ?_⟩, ?_, ?_⟩
      · omega
      · omega
      · omega
      · rw [hother, PAGE_SIZE, mul_comm]
    have hids : ∀ call ∈ [DiskCall.writePage other fun _ => 1,
        .writePage pageId fun _ => 0], IsPageId call.pageId := by
      simp [DiskCall.pageId, hid, hother]
    have hkeeps := keeps_run hgood hids
    have hstores := hkeeps.stores other (fun _ => 1) hother
      (by simp [lastWritten, hne.symm])
    rw [← hoffset] at hstores
    refine ⟨_, fun _ => 0, hids, by simp [lastWritten], ?_⟩
    rw [readPage_of_stores hkeeps.failbit_eq (not_lt.mp hneg) hstores]
    intro hsame
    have hbytes := congrFun (Option.some.inj hsame) ⟨0, by decide⟩
    cases hbytes

/-! ## The pages of the file -/

/-- The stream looks like the disk manager of the buffer pool. -/
structure Represents (io : ByteStream) (disk : DiskManager PageBytes) :
    Prop where
  readIndex_eq : disk.readIndex =
    fun pageId => DiskManager.readOffset pageId / PAGE_SIZE
  failed_eq : disk.failed = io.failbit
  length_eq : io.length = disk.file.size * PAGE_SIZE
  page_eq : ∀ pageId : ℤ, 0 ≤ pageId →
    disk.file.page pageId =
      fun k : Fin PAGE_SIZE.toNat => io.byte (pageId * PAGE_SIZE + k)

variable {disk : DiskManager PageBytes}

theorem Represents.writePage (h : Represents io disk)
    (hlow : -2 ^ 31 ≤ pageId) (hhigh : pageId < 2 ^ 31) (data : PageBytes) :
    Represents (writePage io pageId data) (disk.writePage pageId data) := by
  have hplace := writeOffset_eq_of_int hlow hhigh
  by_cases hfail : io.failbit = true
  · have hio : DbFile.writePage io pageId data = io := by
      simp [DbFile.writePage, ByteStream.seekp, ByteStream.write, hfail]
    rw [hio, DiskManager.writePage, if_pos (h.failed_eq.trans hfail)]
    exact h
  · have hgood : io.failbit = false := Bool.eq_false_iff.mpr hfail
    rw [DiskManager.writePage, if_neg (by rw [h.failed_eq]; exact hfail)]
    by_cases hneg : pageId < 0
    · have hoffset : writeOffset pageId < 0 := by
        rw [hplace, PAGE_SIZE]
        omega
      rw [if_pos hneg]
      constructor
      · exact h.readIndex_eq
      · simp [DbFile.writePage, ByteStream.write, ByteStream.seekp, hgood,
          hoffset]
      · simpa [DbFile.writePage, ByteStream.write, ByteStream.seekp, hgood,
          hoffset] using h.length_eq
      · simpa [DbFile.writePage, ByteStream.write, ByteStream.seekp, hgood,
          hoffset] using h.page_eq
    · have hid : IsPageId pageId := ⟨not_lt.mp hneg, hhigh⟩
      have hstores : (DbFile.writePage io pageId data).Stores
          (pageId * PAGE_SIZE) data := stores_writePage hgood hid
      have hio : DbFile.writePage io pageId data =
          { io with position := pageId * PAGE_SIZE }.write data := by
        rw [DbFile.writePage, hplace, ByteStream.seekp_of_nonneg hgood]
        exact mul_nonneg hid.1 (by decide)
      rw [if_neg hneg]
      constructor
      · exact h.readIndex_eq
      · exact h.failed_eq.trans (hgood.trans (writePage_failbit hgood hid).symm)
      · rw [hio, ByteStream.write, if_neg hfail]
        simp only [h.length_eq, PAGE_SIZE]
        omega
      · intro pageId' hnonneg
        dsimp only
        by_cases heq : pageId' = pageId
        · subst heq
          funext k
          rw [Function.update_self, hstores.byte_eq k]
        · rw [Function.update_of_ne heq, h.page_eq pageId' hnonneg]
          funext k
          have hmem : pageId' * PAGE_SIZE + k ∈
              ByteStream.blockAt (pageId' * PAGE_SIZE) PAGE_SIZE.toNat := by
            have hk := k.isLt
            rw [ByteStream.blockAt, Set.mem_Ico]
            omega
          rw [hio, ByteStream.write_byte_of_notMem]
          exact Set.disjoint_left.mp (disjoint_blockAt (Ne.symm heq)) hmem

theorem Represents.readPage (h : Represents io disk) (pageId : PageId) :
    (readPage io pageId).1 = (disk.readPage pageId).1 ∧
      Represents (readPage io pageId).2 (disk.readPage pageId).2 := by
  obtain ⟨index, hindex⟩ := PAGE_SIZE_dvd_readOffset pageId
  have hread : disk.readIndex pageId = index := by
    simp only [h.readIndex_eq, hindex]
    exact Int.mul_ediv_cancel_left _ (by decide)
  rw [mul_comm] at hindex
  have hafter : (disk.readPage pageId).2 = { disk with failed := false } := by
    unfold DiskManager.readPage
    dsimp only
    split
    · next hcond => rw [← hcond.1]
    · rfl
  constructor
  · by_cases hcond : disk.failed = false ∧ 0 ≤ index ∧ index < disk.file.size
    · have hstores : io.Stores (index * PAGE_SIZE)
          (disk.file.page index) := by
        constructor
        · intro k
          rw [h.page_eq index hcond.2.1]
        · rw [h.length_eq, cast_toNat_PAGE_SIZE, PAGE_SIZE]
          omega
      rw [← hindex] at hstores
      rw [DiskManager.readPage, hread, if_pos hcond]
      apply readPage_of_stores (h.failed_eq.symm.trans hcond.1) _ hstores
      rw [hindex]
      exact mul_nonneg hcond.2.1 (by decide)
    · rw [DiskManager.readPage, hread, if_neg hcond]
      by_cases hneg : DiskManager.readOffset pageId < 0
      · exact readPage_of_neg hneg
      · apply readPage_of_gcount
        by_cases hfail : io.failbit = true
        · rw [ByteStream.gcount_of_failbit]
          · decide
          · simp [ByteStream.seekp, hfail]
        · have hgood : io.failbit = false := Bool.eq_false_iff.mpr hfail
          rw [ByteStream.seekp_of_nonneg hgood (not_lt.mp hneg)]
          apply lt_of_le_of_ne ByteStream.gcount_le
          intro hcount
          rw [ByteStream.gcount_eq_iff (by exact hgood) (by decide)] at hcount
          have hle : DiskManager.readOffset pageId + PAGE_SIZE ≤ io.length :=
            hcount
          rw [hindex, h.length_eq] at hle
          apply hcond
          rw [hindex, PAGE_SIZE] at hneg
          rw [PAGE_SIZE] at hle
          exact ⟨h.failed_eq.trans hgood, by omega, by omega⟩
  · obtain ⟨hbyte, hlength⟩ := readPage_byte io pageId
    rw [hafter]
    constructor
    · exact h.readIndex_eq
    · exact (readPage_failbit io pageId).symm
    · rw [hlength, h.length_eq]
    · intro pageId' hnonneg
      rw [hbyte]
      exact h.page_eq pageId' hnonneg

end DbFile

end TicketSystem.Database
