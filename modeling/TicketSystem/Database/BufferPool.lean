import TicketSystem.Support.LinkedMap

/-!
# The buffer pool

`DiskManager`, `LRUReplacer` and `BufferPoolManager`.  The bytes of a page are
a type `D` with the page of zero bytes as its zero, a frame is its index in
`pages_`, and a pointer to a pinned page is the id of the page.
-/

namespace TicketSystem.Database

open TicketSystem.Support

/-- `page_id_t`. -/
abbrev PageId := ℤ

def INVALID_PAGE_ID : PageId := -1

def HEADER_PAGE_ID : PageId := 0

def PAGE_SIZE : ℤ := 32768

variable {D : Type}

/-! ## The disk manager -/

/-- A database file of `size` pages; behind its end lie zero bytes. -/
structure DiskFile (D : Type) where
  page : PageId → D
  size : ℤ

/-- The file of a fresh database. -/
def DiskFile.empty [Zero D] : DiskFile D where
  page _ := 0
  size := 0

/-- The state of `DiskManager`.  `failed` is the fail bit of `db_io_`, and
`readIndex` tells at which page of the file `ReadPage` looks for a page id. -/
structure DiskManager (D : Type) where
  readIndex : PageId → PageId
  file : DiskFile D
  failed : Bool
  nextPageId : PageId

namespace DiskManager

/-- `ReadPage` computes `page_id * PAGE_SIZE` as an `int`. -/
def readOffset (pageId : PageId) : ℤ :=
  Int.bmod (pageId * PAGE_SIZE) (2 ^ 32)

/-- The constructor, on a file that may exist. -/
def new (file : DiskFile D) : DiskManager D where
  readIndex pageId := readOffset pageId / PAGE_SIZE
  file := file
  failed := false
  nextPageId := 0

/-- A negative offset sets the fail bit, and writes are lost while it is set.
`WritePage` only looks at the bad bit. -/
def writePage (disk : DiskManager D) (pageId : PageId) (data : D) :
    DiskManager D :=
  if disk.failed then disk
  else if pageId < 0 then { disk with failed := true }
  else
    { disk with
      file :=
        { page := Function.update disk.file.page pageId data
          size := max disk.file.size (pageId + 1) } }

/-- Nothing stands for the exception `read_less_then_a_page`, before which the
fail bit is cleared. -/
def readPage (disk : DiskManager D) (pageId : PageId) :
    Option D × DiskManager D :=
  let index := disk.readIndex pageId
  if disk.failed = false ∧ 0 ≤ index ∧ index < disk.file.size then
    (some (disk.file.page index), disk)
  else (none, { disk with failed := false })

def allocatePage (disk : DiskManager D) : PageId × DiskManager D :=
  (disk.nextPageId, { disk with nextPageId := disk.nextPageId + 1 })

def setNextPageId (disk : DiskManager D) (nextPageId : PageId) :
    DiskManager D :=
  { disk with nextPageId := nextPageId }

/-- `Clear` truncates the file. -/
def clear [Zero D] (disk : DiskManager D) : DiskManager D :=
  { disk with file := DiskFile.empty, failed := false, nextPageId := 0 }

end DiskManager

/-! ## The replacer -/

/-- The linked hash map of `LRUReplacer`, oldest frame first. -/
structure LRUReplacer where
  queue : List ℕ
  numPages : ℕ

namespace LRUReplacer

def victim (replacer : LRUReplacer) : Option (ℕ × LRUReplacer) :=
  match replacer.queue with
  | [] => none
  | frameId :: queue => some (frameId, { replacer with queue := queue })

def pin (replacer : LRUReplacer) (frameId : ℕ) : LRUReplacer :=
  { replacer with queue := replacer.queue.erase frameId }

def unpin (replacer : LRUReplacer) (frameId : ℕ) : LRUReplacer :=
  if replacer.numPages ≤ replacer.queue.length then replacer
  else { replacer with queue := replacer.queue.erase frameId ++ [frameId] }

def clear (replacer : LRUReplacer) : LRUReplacer :=
  { replacer with queue := [] }

end LRUReplacer

/-! ## The buffer pool manager -/

/-- The members of `Page`. -/
structure Frame (D : Type) where
  data : D
  pageId : PageId
  pinCount : ℕ
  isDirty : Bool

/-- A frame that holds no page. -/
def Frame.reset [Zero D] : Frame D where
  data := 0
  pageId := INVALID_PAGE_ID
  pinCount := 0
  isDirty := false

/-- The state of `BufferPoolManager`; `free_list_` has its back at the end. -/
structure BufferPoolManager (D : Type) where
  poolSize : ℕ
  pages : ℕ → Frame D
  diskManager : DiskManager D
  pageTable : LinkedMap PageId ℕ
  replacer : LRUReplacer
  freeList : List ℕ

/-- What `FetchPage` ends with: the page, the null pointer, or the exception
of `ReadPage`. -/
inductive Fetched
  | page
  | null
  | readLessThenAPage
  deriving DecidableEq

namespace BufferPoolManager

/-- The constructor. -/
def new [Zero D] (poolSize : ℕ) (diskManager : DiskManager D) :
    BufferPoolManager D where
  poolSize := poolSize
  pages _ := Frame.reset
  diskManager := diskManager
  pageTable := LinkedMap.empty
  replacer := { queue := [], numPages := poolSize }
  freeList := List.range poolSize

/-- The frame with the given members. -/
def setFrame (bpm : BufferPoolManager D) (frameId : ℕ) (frame : Frame D) :
    BufferPoolManager D :=
  { bpm with pages := Function.update bpm.pages frameId frame }

/-- The page written back before its frame is used for another one. -/
def writeBack (bpm : BufferPoolManager D) (page : Frame D) :
    DiskManager D :=
  if page.isDirty then bpm.diskManager.writePage page.pageId page.data
  else bpm.diskManager

/-- `FindFrame`, with `-1` as nothing; erasing a page that is not in the page
table throws. -/
def findFrame [Zero D] (bpm : BufferPoolManager D) :
    Option (Option ℕ × BufferPoolManager D) :=
  match bpm.freeList.getLast? with
  | some frameId =>
      some (some frameId,
        { bpm with freeList := bpm.freeList.dropLast }.setFrame frameId
          Frame.reset)
  | none =>
      match bpm.replacer.victim with
      | none => some (none, bpm)
      | some (frameId, replacer) =>
          let page := bpm.pages frameId
          match bpm.pageTable.find? page.pageId with
          | none => none
          | some _ =>
              some (some frameId,
                { bpm with
                  diskManager := bpm.writeBack page
                  pageTable := bpm.pageTable.erase page.pageId
                  replacer := replacer }.setFrame frameId Frame.reset)

/-- `FetchPage`. -/
def fetchPage [Zero D] (bpm : BufferPoolManager D) (pageId : PageId) :
    Option (Fetched × BufferPoolManager D) :=
  match bpm.pageTable.find? pageId with
  | some frameId =>
      let page := bpm.pages frameId
      some (.page,
        { bpm with replacer := bpm.replacer.pin frameId }.setFrame frameId
          { page with pinCount := page.pinCount + 1 })
  | none =>
      match bpm.findFrame with
      | none => none
      | some (none, bpm) => some (.null, bpm)
      | some (some frameId, bpm) =>
          let page :=
            { bpm.pages frameId with pageId := pageId, pinCount := 1 }
          let bpm :=
            { bpm with
              pageTable := bpm.pageTable.assign pageId frameId
              replacer := bpm.replacer.pin frameId }
          match bpm.diskManager.readPage pageId with
          | (none, disk) =>
              some (.readLessThenAPage,
                { bpm with diskManager := disk }.setFrame frameId page)
          | (some data, disk) =>
              some (.page,
                { bpm with diskManager := disk }.setFrame frameId
                  { page with data := data })

/-- `UnpinPage`. -/
def unpinPage (bpm : BufferPoolManager D) (pageId : PageId)
    (isDirty : Bool) : Bool × BufferPoolManager D :=
  match bpm.pageTable.find? pageId with
  | none => (false, bpm)
  | some frameId =>
      let page := bpm.pages frameId
      if page.pinCount = 0 then (false, bpm)
      else
        (true,
          { bpm with
            replacer :=
              if page.pinCount = 1 then bpm.replacer.unpin frameId
              else bpm.replacer }.setFrame frameId
            { page with
              isDirty := page.isDirty || isDirty
              pinCount := page.pinCount - 1 })

/-- `FlushPage`. -/
def flushPage (bpm : BufferPoolManager D) (pageId : PageId) :
    Bool × BufferPoolManager D :=
  if pageId = INVALID_PAGE_ID then (false, bpm)
  else
    match bpm.pageTable.find? pageId with
    | none => (false, bpm)
    | some frameId =>
        let page := bpm.pages frameId
        (true,
          { bpm with
            diskManager := bpm.diskManager.writePage pageId page.data
            }.setFrame frameId { page with isDirty := false })

/-- `NewPage`: the id of the new page, or the null pointer. -/
def newPage [Zero D] (bpm : BufferPoolManager D) :
    Option (Option PageId × BufferPoolManager D) :=
  match bpm.findFrame with
  | none => none
  | some (none, bpm) => some (none, bpm)
  | some (some frameId, bpm) =>
      let page := bpm.pages frameId
      let (pageId, disk) := bpm.diskManager.allocatePage
      some (some pageId,
        { bpm with
          diskManager := disk.writePage pageId page.data
          pageTable := bpm.pageTable.assign pageId frameId
          replacer := bpm.replacer.pin frameId }.setFrame frameId
          { page with pageId := pageId, pinCount := 1 })

/-- `DeletePage`; `DeallocatePage` does nothing. -/
def deletePage (bpm : BufferPoolManager D) (pageId : PageId) :
    Bool × BufferPoolManager D :=
  match bpm.pageTable.find? pageId with
  | none => (true, bpm)
  | some frameId =>
      let page := bpm.pages frameId
      if page.pinCount ≠ 0 then (false, bpm)
      else
        (true,
          { bpm with
            pageTable := bpm.pageTable.erase pageId
            freeList := bpm.freeList ++ [frameId]
            replacer := bpm.replacer.pin frameId }.setFrame frameId
            { page with
              isDirty := false, pageId := INVALID_PAGE_ID, pinCount := 0 })

/-- One turn of the loop of `FlushAllPages`. -/
def flushFrame (bpm : BufferPoolManager D) (frameId : ℕ) :
    BufferPoolManager D :=
  let page := bpm.pages frameId
  { bpm with
    diskManager := bpm.diskManager.writePage page.pageId page.data
    }.setFrame frameId { page with isDirty := false }

/-- `FlushAllPages`. -/
def flushAllPages (bpm : BufferPoolManager D) : BufferPoolManager D :=
  bpm.pageTable.entries.foldl (fun bpm item => bpm.flushFrame item.2) bpm

/-- `Initialize`. -/
def initializePool (bpm : BufferPoolManager D) : BufferPoolManager D :=
  { bpm with
    replacer := bpm.replacer.clear
    freeList := List.range bpm.poolSize }

/-- What the pointer to a pinned page shows. -/
def getData (bpm : BufferPoolManager D) (pageId : PageId) : Option D :=
  match bpm.pageTable.find? pageId with
  | none => none
  | some frameId =>
      let page := bpm.pages frameId
      if page.pinCount = 0 then none else some page.data

/-- A write through the pointer to a pinned page. -/
def setData (bpm : BufferPoolManager D) (pageId : PageId) (data : D) :
    Option (BufferPoolManager D) :=
  match bpm.pageTable.find? pageId with
  | none => none
  | some frameId =>
      let page := bpm.pages frameId
      if page.pinCount = 0 then none
      else some (bpm.setFrame frameId { page with data := data })

end BufferPoolManager

/-! ## The operations of a client -/

/-- What a client does with a buffer pool. -/
inductive PageOp (D : Type)
  | newPage
  | fetchPage (pageId : PageId)
  | unpinPage (pageId : PageId) (isDirty : Bool)
  | flushPage (pageId : PageId)
  | flushAllPages
  | deletePage (pageId : PageId)
  | getData (pageId : PageId)
  | setData (pageId : PageId) (data : D)

/-- What the operation answers. -/
abbrev PageOp.Answer : PageOp D → Type
  | newPage => Option PageId
  | fetchPage _ => Fetched
  | unpinPage _ _ => Bool
  | flushPage _ => Bool
  | flushAllPages => Unit
  | deletePage _ => Bool
  | getData _ => D
  | setData _ _ => Unit

/-- One operation on the pool. -/
def BufferPoolManager.perform [Zero D] :
    (op : PageOp D) → BufferPoolManager D →
      Option (op.Answer × BufferPoolManager D)
  | .newPage, bpm => bpm.newPage
  | .fetchPage pageId, bpm => bpm.fetchPage pageId
  | .unpinPage pageId isDirty, bpm => some (bpm.unpinPage pageId isDirty)
  | .flushPage pageId, bpm => some (bpm.flushPage pageId)
  | .flushAllPages, bpm => some ((), bpm.flushAllPages)
  | .deletePage pageId, bpm => some (bpm.deletePage pageId)
  | .getData pageId, bpm => (bpm.getData pageId).map fun data => (data, bpm)
  | .setData pageId data, bpm => (bpm.setData pageId data).map ((), ·)

end TicketSystem.Database
