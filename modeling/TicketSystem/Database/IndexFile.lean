import TicketSystem.Database.TreeRuns
import TicketSystem.Database.PoolReset

/-!
# An index and its file

`BPlusTreeIndexNTS`: a tree on a buffer pool of its own, the counter of `Size`,
and what the constructor and the destructor keep in the header page.  Nothing
stands for a call that does not end normally.
-/

namespace TicketSystem.Database

open TicketSystem.Support

variable {K V : Type}

/-! ## Programs on a buffer pool -/

namespace BufferPoolManager

/-- Runs a program of the tree on the pool. -/
def runTree {α : Type} (bpm : BufferPoolManager (PageData K V))
    (program : TreeM K V α) :
    Option (α × BufferPoolManager (PageData K V)) :=
  (program.run perform bpm).toOption

/-- The ids of the pages that a program gets from `NewPage`. -/
def newPageIds {α : Type} (bpm : BufferPoolManager (PageData K V))
    (program : TreeM K V α) : List PageId :=
  (program.steps perform bpm).filterMap fun step =>
    match step with
    | (.newPage, bpm) => bpm.newPage.bind Prod.fst
    | _ => none

end BufferPoolManager

/-! ## The index -/

/-- The members of `BPlusTreeIndexNTS`.  `header_page_` points to the header
page, which stays pinned. -/
structure BPlusTreeIndexNTS (K V : Type) where
  bpm : BufferPoolManager (PageData K V)
  tree : BPlusTreeNTS K
  size : ℤ

/-- Calls of an index with their arguments. -/
inductive IndexCall (K V : Type)
  | insertEntry (key : K) (value : V)
  | deleteEntry (key : K)
  | searchKey (key : K) (result : List V)
  | scanKey (key : K) (result : List V) (standbyComparator : K → K → ℤ)

/-- The program of the tree behind a call: the answer of the tree, the vector
`result` after the call, and the tree. -/
def IndexCall.program [Inhabited K] (tree : BPlusTreeNTS K) (turns : ℕ) :
    IndexCall K V → TreeM K V ((Bool × List V) × BPlusTreeNTS K)
  | insertEntry key value => tree.call turns (.insert key value)
  | deleteEntry key => tree.call turns (.remove key)
  | searchKey key result => tree.call turns (.getValue key result)
  | scanKey key result standbyComparator => do
      let answer ← tree.getValues turns key result standbyComparator
      pure (answer, tree)

/-- What the answer of the tree adds to `size_`. -/
def IndexCall.sizeChange (answer : Bool) : IndexCall K V → ℤ
  | insertEntry _ _ => if answer then 1 else 0
  | deleteEntry _ => if answer then -1 else 0
  | _ => 0

namespace BPlusTreeIndexNTS

/-- The records `page_amount` and `size`; without them the metadata is
broken. -/
def readMetadata (records : HeaderRecords) : Option (PageId × ℤ) := do
  let nextPageId ← (records.searchRecord "page_amount").join
  let size ← (records.searchRecord "size").join
  pure (nextPageId, size)

/-- After the header page could not be fetched: it is still pinned. -/
def dropHeader (bpm : BufferPoolManager (PageData K V)) :
    BufferPoolManager (PageData K V) :=
  ((bpm.unpinPage HEADER_PAGE_ID false).2.deletePage HEADER_PAGE_ID).2

/-- The constructor on a file, with the tree before its own constructor.  On a
new file `size_` keeps what its memory holds. -/
def construct (base : BPlusTreeNTS K) (poolSize : ℕ)
    (file : DiskFile (PageData K V)) (memory : ℤ) :
    Option (BPlusTreeIndexNTS K V) := do
  let bpm := BufferPoolManager.new poolSize (DiskManager.new file)
  match ← bpm.fetchPage HEADER_PAGE_ID with
  | (.null, _) => none
  | (.page, bpm) =>
      let records ← (← bpm.getData HEADER_PAGE_ID).records
      let (nextPageId, size) ← readMetadata records
      let bpm :=
        { bpm with
          diskManager := bpm.diskManager.setNextPageId nextPageId }
      let (tree, bpm) ← bpm.runTree base.construct
      pure { bpm := bpm, tree := tree, size := size }
  | (.readLessThenAPage, bpm) =>
      let (tree, bpm) ← (dropHeader bpm).runTree base.create
      pure { bpm := bpm, tree := tree, size := memory }

/-- `InsertEntry`, `DeleteEntry`, `SearchKey` and `ScanKey`: the vector
`result` after the call. -/
def call [Inhabited K] (index : BPlusTreeIndexNTS K V) (turns : ℕ)
    (c : IndexCall K V) : Option (List V × BPlusTreeIndexNTS K V) := do
  let (((answer, result), tree), bpm) ←
    index.bpm.runTree (c.program index.tree turns)
  pure (result,
    { bpm := bpm, tree := tree, size := index.size + c.sizeChange answer })

def isEmpty (index : BPlusTreeIndexNTS K V) : Bool := index.tree.isEmpty

/-- `Clear`, which leaves `size_` as it is. -/
def clear (index : BPlusTreeIndexNTS K V) :
    Option (BPlusTreeIndexNTS K V) := do
  let (tree, bpm) ← index.bpm.clear.runTree index.tree.create
  pure { index with bpm := bpm, tree := tree }

/-- What the destructor writes to the header page. -/
def writeMetadata (nextPageId : PageId) (size : ℤ) : TreeM K V Unit := do
  let records ← getHeader HEADER_PAGE_ID
  let records := (records.updateRecord "page_amount" nextPageId).2
  let records := (records.updateRecord "size" size).2
  setData HEADER_PAGE_ID (.header records)
  unpinPage HEADER_PAGE_ID true

/-- The destructor: the file it leaves. -/
def destroy (index : BPlusTreeIndexNTS K V) :
    Option (DiskFile (PageData K V)) := do
  let (_, bpm) ← index.bpm.runTree
    (writeMetadata index.bpm.diskManager.nextPageId index.size)
  pure bpm.flushAllPages.diskManager.file

end BPlusTreeIndexNTS

/-! ## Sessions -/

/-- The file of an index between two sessions, or the index in one. -/
inductive IndexState (K V : Type)
  | closed (file : DiskFile (PageData K V))
  | opened (index : BPlusTreeIndexNTS K V)

/-- What is done with an index. -/
inductive IndexEvent (K V : Type)
  | construct (poolSize : ℕ) (memory : ℤ)
  | call (c : IndexCall K V)
  | clear
  | destroy

/-- The sessions on one file.  A loop of the tree takes as many turns as it may
need: one more than there were calls. -/
structure IndexSessions (K V : Type) where
  turns : ℕ
  state : IndexState K V

namespace IndexSessions

/-- No session was on the file yet. -/
def start : IndexSessions K V where
  turns := 1
  state := .closed DiskFile.empty

/-- One event: the vector `result` after a call, and the sessions. -/
def step [Inhabited K] (base : BPlusTreeNTS K) (sessions : IndexSessions K V) :
    IndexEvent K V → Option (List V × IndexSessions K V)
  | .construct poolSize memory =>
      match sessions.state with
      | .closed file =>
          (BPlusTreeIndexNTS.construct base poolSize file memory).map
            fun index => ([], { sessions with state := .opened index })
      | .opened _ => none
  | .call c =>
      match sessions.state with
      | .opened index =>
          (index.call sessions.turns c).map fun (result, index) =>
            (result, { turns := sessions.turns + 1, state := .opened index })
      | .closed _ => none
  | .clear =>
      match sessions.state with
      | .opened index =>
          index.clear.map fun index =>
            ([], { sessions with state := .opened index })
      | .closed _ => none
  | .destroy =>
      match sessions.state with
      | .opened index =>
          index.destroy.map fun file =>
            ([], { sessions with state := .closed file })
      | .closed _ => none

/-- The ids of the pages that an event gets from `NewPage`. -/
def newPageIds [Inhabited K] (base : BPlusTreeNTS K)
    (sessions : IndexSessions K V) : IndexEvent K V → List PageId
  | .construct poolSize _ =>
      match sessions.state with
      | .closed file =>
          match (BufferPoolManager.new poolSize
            (DiskManager.new file)).fetchPage HEADER_PAGE_ID with
          | some (.readLessThenAPage, bpm) =>
              (BPlusTreeIndexNTS.dropHeader bpm).newPageIds base.create
          | _ => []
      | .opened _ => []
  | .call c =>
      match sessions.state with
      | .opened index =>
          index.bpm.newPageIds (c.program index.tree sessions.turns)
      | .closed _ => []
  | .clear =>
      match sessions.state with
      | .opened index => index.bpm.clear.newPageIds index.tree.create
      | .closed _ => []
  | .destroy => []

end IndexSessions

end TicketSystem.Database
