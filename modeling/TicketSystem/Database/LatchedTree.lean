import TicketSystem.Database.BPlusTree

/-!
# The B+ tree with latches

`BPlusTreeTS` as programs over a buffer pool, the latches of its frames, the
latch of the root and the transaction of the operation that runs.  Operations
run one at a time, so that one which would have to wait for a latch does not go
on.  A `Page *` is the frame it points to, also when the page is not pinned any
more; a node is the id of its page, as in the tree without latches.
-/

namespace TicketSystem.Database

open TicketSystem.Support

variable {K V : Type} {D : Type}

/-! ## Latches -/

inductive LatchMode
  | read
  | write
  deriving DecidableEq

/-- The members of `ReaderWriterLatch`. -/
structure ReaderWriterLatch where
  readerCount : UInt32
  writerEntered : Bool
  deriving DecidableEq

namespace ReaderWriterLatch

def MAX_READERS : UInt32 := 4294967295

/-- A latch that nobody holds. -/
def free : ReaderWriterLatch where
  readerCount := 0
  writerEntered := false

/-- `RLock` and `WLock`, with nothing where they wait. -/
def lock (latch : ReaderWriterLatch) : LatchMode → Option ReaderWriterLatch
  | .read =>
      if latch.writerEntered ∨ latch.readerCount = MAX_READERS then none
      else some { latch with readerCount := latch.readerCount + 1 }
  | .write =>
      if latch.writerEntered ∨ 0 < latch.readerCount then none
      else some { latch with writerEntered := true }

/-- `RUnlock` and `WUnlock`, which do not ask whether the latch is held. -/
def unlock (latch : ReaderWriterLatch) : LatchMode → ReaderWriterLatch
  | .read => { latch with readerCount := latch.readerCount - 1 }
  | .write => { latch with writerEntered := false }

end ReaderWriterLatch

/-! ## The operations -/

/-- The members of `Transaction`, where `ownsLatch` tells whether the lock of
the thread pool is still held. -/
structure Transaction where
  pageSet : List ℕ
  deletedPageSet : List PageId
  ownsLatch : Bool

/-- The constructor, with the lock of the thread pool held. -/
def Transaction.new : Transaction where
  pageSet := []
  deletedPageSet := []
  ownsLatch := true

/-- What the tree does with the pool, the latches and the transaction. -/
inductive LatchedOp (D : Type)
  | page (op : PageOp D)
  | frameOf (pageId : PageId)
  | getPage (frameId : ℕ)
  | lockRoot (mode : LatchMode)
  | unlockRoot (mode : LatchMode)
  | latch (frameId : ℕ) (mode : LatchMode)
  | unlatch (frameId : ℕ) (mode : LatchMode)
  | unlockTransaction
  | addIntoPageSet (frameId : ℕ)
  | getPageSet
  | clearPageSet
  | addIntoDeletedPageSet (pageId : PageId)
  | clearDeletedPageSet

/-- What the operation answers. -/
abbrev LatchedOp.Answer : LatchedOp D → Type
  | page op => op.Answer
  | frameOf _ => ℕ
  | getPage _ => Frame D
  | getPageSet => List ℕ
  | _ => Unit

/-- The buffer pool, the latch of the root, those of the frames, and the
transaction. -/
structure LatchedPool (D : Type) where
  bpm : BufferPoolManager D
  rootLatch : ReaderWriterLatch
  latches : ℕ → ReaderWriterLatch
  transaction : Transaction

namespace LatchedPool

/-- With all latches free and a new transaction. -/
def ofPool (bpm : BufferPoolManager D) : LatchedPool D where
  bpm := bpm
  rootLatch := .free
  latches _ := .free
  transaction := .new

/-- The next operation comes with a transaction of its own. -/
def nextTransaction (s : LatchedPool D) : LatchedPool D :=
  { s with transaction := .new }

/-- One operation.  It has no meaning where it waits for ever, and `Unlock` has
none on a lock that is not held. -/
def perform [Zero D] :
    (op : LatchedOp D) → LatchedPool D → Option (op.Answer × LatchedPool D)
  | .page op, s =>
      (s.bpm.perform op).map fun result => (result.1, { s with bpm := result.2 })
  | .frameOf pageId, s =>
      (s.bpm.pageTable.find? pageId).map fun frameId => (frameId, s)
  | .getPage frameId, s => some (s.bpm.pages frameId, s)
  | .lockRoot mode, s =>
      (s.rootLatch.lock mode).map fun latch => ((), { s with rootLatch := latch })
  | .unlockRoot mode, s =>
      some ((), { s with rootLatch := s.rootLatch.unlock mode })
  | .latch frameId mode, s =>
      ((s.latches frameId).lock mode).map fun latch =>
        ((), { s with latches := Function.update s.latches frameId latch })
  | .unlatch frameId mode, s =>
      some ((),
        { s with
          latches := Function.update s.latches frameId
            ((s.latches frameId).unlock mode) })
  | .unlockTransaction, s =>
      if s.transaction.ownsLatch then
        some ((),
          { s with transaction := { s.transaction with ownsLatch := false } })
      else none
  | .addIntoPageSet frameId, s =>
      some ((),
        { s with
          transaction :=
            { s.transaction with
              pageSet := s.transaction.pageSet ++ [frameId] } })
  | .getPageSet, s => some (s.transaction.pageSet, s)
  | .clearPageSet, s =>
      some ((), { s with transaction := { s.transaction with pageSet := [] } })
  | .addIntoDeletedPageSet pageId, s =>
      some ((),
        { s with
          transaction :=
            { s.transaction with
              deletedPageSet := s.transaction.deletedPageSet ++ [pageId] } })
  | .clearDeletedPageSet, s =>
      some ((),
        { s with transaction := { s.transaction with deletedPageSet := [] } })

end LatchedPool

/-- Programs over the pages of an index, its latches and a transaction. -/
abbrev LatchedM (K V : Type) : Type → Type :=
  Program (LatchedOp (PageData K V)) LatchedOp.Answer Stop

/-- A program that only uses the buffer pool. -/
def onPool {α : Type} (program : TreeM K V α) : LatchedM K V α :=
  Program.translate (fun op : PageOp (PageData K V) =>
    (Program.lift (LatchedOp.page op) : LatchedM K V op.Answer)) program

namespace BPlusTreePage

/-- `IsInsertSafe`. -/
def isInsertSafe (page : BPlusTreePage) : Bool :=
  page.size + 1 < page.maxSize

/-- `IsDeleteSafe`. -/
def isDeleteSafe (page : BPlusTreePage) : Bool :=
  page.minSize < page.size

end BPlusTreePage

/-- Calls of `BPlusTreeTS` with their arguments. -/
inductive LatchedCall (K V : Type)
  | insert (key : K) (value : V) (isCalled : Bool)
  | optimisticInsert (key : K) (value : V)
  | remove (key : K) (isCalled : Bool)
  | optimisticRemove (key : K)
  | getValue (key : K) (result : List V)
  | getValues (key : K) (result : List V) (newComparator : K → K → ℤ)

/-! ## Latching pages -/

inductive TransactionType
  | optimisticInsert
  | optimisticDelete
  | find
  | multifind
  | insert
  | delete
  deriving DecidableEq

namespace TransactionType

/-- Whether the way down lets go of every page but the last. -/
def isShared : TransactionType → Bool
  | insert => false
  | delete => false
  | _ => true

/-- The mode in which the root is locked. -/
def rootMode (type : TransactionType) : LatchMode :=
  if type.isShared then .read else .write

/-- The mode in which a page is latched. -/
def pageMode (type : TransactionType) (node : BPlusTreePage) : LatchMode :=
  if type = insert ∨ type = delete ∨
      (type = optimisticInsert ∨ type = optimisticDelete) ∧ node.isLeafPage then
    .write
  else .read

end TransactionType

/-- `FetchPage` for the pointer to the page. -/
def fetch (pageId : PageId) : LatchedM K V ℕ := do
  onPool (fetchPage pageId)
  Program.lift (LatchedOp.frameOf pageId)

/-- `FetchPage` where the pointer is not used, not even to see whether it is
the null pointer. -/
def pinPage (pageId : PageId) : LatchedM K V Unit := do
  match ← Program.lift (LatchedOp.page (.fetchPage pageId)) with
  | Fetched.readLessThenAPage => .throw .readLessThenAPage
  | _ => pure ()

def getPage (page : ℕ) : LatchedM K V (Frame (PageData K V)) :=
  Program.lift (LatchedOp.getPage page)

/-- What a frame shows to a pointer to `BPlusTreePage`. -/
def nodeAt (page : ℕ) : LatchedM K V BPlusTreePage := do
  onPool (orStop .wrongPageType (← getPage page).data.node)

def lockRoot (type : TransactionType) : LatchedM K V Unit :=
  Program.lift (LatchedOp.lockRoot type.rootMode)

def unlockRoot (type : TransactionType) : LatchedM K V Unit :=
  Program.lift (LatchedOp.unlockRoot type.rootMode)

def unlockTransaction : LatchedM K V Unit :=
  Program.lift LatchedOp.unlockTransaction

def latchPage (page : ℕ) (type : TransactionType) : LatchedM K V Unit := do
  let node ← nodeAt page
  Program.lift (LatchedOp.latch page (type.pageMode node))

def unlatchPage (page : ℕ) (type : TransactionType) : LatchedM K V Unit := do
  let node ← nodeAt page
  if node.isRootPage then unlockRoot type
  Program.lift (LatchedOp.unlatch page (type.pageMode node))

/-- `UnlatchNode`. -/
def unlatchNode (node : PageId) (type : TransactionType) :
    LatchedM K V Unit := do
  let pageId := (← onPool (getNode node)).pageId
  let page ← fetch pageId
  unlatchPage page type
  onPool (unpinPage pageId false)

/-- The loop of `ReleasePages`. -/
def releaseEach (type : TransactionType) : List ℕ → LatchedM K V Unit
  | [] => pure ()
  | page :: pages => do
      unlatchPage page type
      onPool (unpinPage (← getPage page).pageId false)
      releaseEach type pages

def releasePages (type : TransactionType) : LatchedM K V Unit := do
  releaseEach type (← Program.lift LatchedOp.getPageSet)
  Program.lift LatchedOp.clearPageSet

/-- The loop of `DeletePages`. -/
def deleteEach : List ℕ → LatchedM K V Unit
  | [] => pure ()
  | page :: pages => do
      onPool (deletePage (← getPage page).pageId)
      deleteEach pages

def deletePages : LatchedM K V Unit := do
  deleteEach (← Program.lift LatchedOp.getPageSet)
  Program.lift LatchedOp.clearDeletedPageSet

/-! ## The tree -/

/-- The members of `BPlusTreeTS` apart from the buffer pool and the latch of
the root: those of `BPlusTreeNTS`, whose constructor, `NewNode` and `Split` it
repeats. -/
structure BPlusTreeTS (K : Type) extends BPlusTreeNTS K

namespace BPlusTreeTS

/-- The tree of an index, before its constructor has run. -/
def ofIndex (comparator : K → K → ℤ) (leafMaxSize internalMaxSize : ℕ) :
    BPlusTreeTS K where
  indexName := "index"
  rootPageId := INVALID_PAGE_ID
  comparator := comparator
  leafMaxSize := leafMaxSize
  internalMaxSize := internalMaxSize

/-- The header page of a new index and the tree on it, as the constructor of
`BPlusTreeIndexTS` makes them. -/
def create (tree : BPlusTreeTS K) : LatchedM K V (BPlusTreeTS K) := do
  match ← Program.lift (LatchedOp.page .newPage) with
  | none => .throw .nullPointer
  | some headerPageId =>
      let records ← onPool (getHeader headerPageId)
      let records := (records.insertRecord "index" (-1)).2
      let records := (records.insertRecord "page_amount" 1).2
      onPool (setData headerPageId (.header records))
      let constructed ← onPool tree.construct
      pure { toBPlusTreeNTS := constructed }

/-- `UpdateRootPageId`, which is only called to update.  Without a record,
`last_root_page_id` is read before it has a value. -/
def updateRootPageId (tree : BPlusTreeTS K) : LatchedM K V Unit := do
  onPool (fetchPage HEADER_PAGE_ID)
  let records ← onPool (getHeader HEADER_PAGE_ID)
  let record ← onPool
    (orStop .assertion (records.searchRecord tree.indexName))
  let lastRootPageId ← onPool (orStop .outOfRange record)
  if lastRootPageId ≠ INVALID_PAGE_ID then
    onPool (unpinPage lastRootPageId false)
  onPool (setData HEADER_PAGE_ID
    (.header (records.updateRecord tree.indexName tree.rootPageId).2))
  if tree.rootPageId ≠ INVALID_PAGE_ID then pinPage tree.rootPageId
  onPool (unpinPage HEADER_PAGE_ID true)

/-! ### The way down -/

/-- The loop of `CrabToLeaf`. -/
def crabLoop (tree : BPlusTreeTS K) (key : K) (type : TransactionType)
    (leftMost : Bool) : ℕ → ℕ → PageId → LatchedM K V ℕ
  | 0, _, _ => .throw .outOfTurns
  | fuel + 1, lastPage, lastPageId => do
      let lastNode ← onPool (getInternal lastPageId)
      let nextPageId ← onPool (orStop .outOfRange
        (if leftMost then lastNode.valueAt 0
        else lastNode.lookup tree.comparator key))
      let nextPage ← fetch nextPageId
      let nextNode ← nodeAt nextPage
      latchPage nextPage type
      if type.isShared then
        unlatchPage lastPage type
        onPool (unpinPage lastPageId false)
      else
        Program.lift (LatchedOp.addIntoPageSet lastPage)
        if (type = .insert ∧ nextNode.isInsertSafe) ∨
            (type = .delete ∧ nextNode.isDeleteSafe) then
          releasePages type
      if nextNode.isLeafPage then pure nextPage
      else tree.crabLoop key type leftMost fuel nextPage nextPageId

/-- `CrabToLeaf` with the root locked. -/
def crabFromRoot (tree : BPlusTreeTS K) (fuel : ℕ) (key : K)
    (type : TransactionType) (leftMost : Bool) :
    LatchedM K V (Option ℕ) := do
  if tree.rootPageId = INVALID_PAGE_ID then
    unlockRoot type
    pure none
  else
    let lastPage ← fetch tree.rootPageId
    latchPage lastPage type
    let testNode ← nodeAt lastPage
    if testNode.isLeafPage then pure (some lastPage)
    else
      let leaf ← tree.crabLoop key type leftMost fuel lastPage tree.rootPageId
      pure (some leaf)

/-- `CrabToLeaf`. -/
def crabToLeaf (tree : BPlusTreeTS K) (fuel : ℕ) (key : K)
    (type : TransactionType) (leftMost rootLatched isLocked : Bool) :
    LatchedM K V (Option ℕ) := do
  if !rootLatched then
    lockRoot type
    if isLocked then unlockTransaction
  tree.crabFromRoot fuel key type leftMost

/-! ### Search -/

/-- `GetValue` for one key: the answer and the vector `result`. -/
def getValue (tree : BPlusTreeTS K) (fuel : ℕ) (key : K) (result : List V) :
    LatchedM K V (Bool × List V) := do
  match ← tree.crabToLeaf fuel key .find false false true with
  | none => pure (false, result)
  | some leafPage =>
      let leaf := (← getPage leafPage).pageId
      let node ← onPool (getLeaf leaf)
      let found ← onPool (orStop .outOfRange
        (node.lookup tree.comparator key))
      unlatchPage leafPage .find
      onPool (unpinPage node.pageId false)
      match found with
      | none => pure (false, result)
      | some value => pure (true, result ++ [value])

/-- The end of a leaf in `GetValue` with a standby comparator. -/
def nextLeaf (leafPage : ℕ) (node : LeafPage K V) :
    LatchedM K V (Option ℕ) := do
  unlatchPage leafPage .multifind
  onPool (unpinPage node.pageId false)
  if node.nextPageId = INVALID_PAGE_ID then pure none
  else
    let next ← fetch node.nextPageId
    latchPage next .multifind
    pure (some next)

/-- The loop of `GetValue` with a standby comparator. -/
def getValuesLoop (newComparator : K → K → ℤ) (key : K) :
    ℕ → ℕ → ℤ → List V → LatchedM K V (List V)
  | 0, _, _, _ => .throw .outOfTurns
  | fuel + 1, leafPage, index, result => do
      let node ← onPool (getLeaf (← getPage leafPage).pageId)
      if index = -1 then
        match ← nextLeaf leafPage node with
        | none => pure result
        | some next => getValuesLoop newComparator key fuel next 0 result
      else
        let item ← onPool (orStop .outOfRange node.array[index.toNat]?)
        if newComparator key item.1 ≠ 0 then
          unlatchPage leafPage .multifind
          onPool (unpinPage node.pageId false)
          pure result
        else
          let result := result ++ [item.2]
          if index + 1 = node.size then
            match ← nextLeaf leafPage node with
            | none => pure result
            | some next => getValuesLoop newComparator key fuel next 0 result
          else
            getValuesLoop newComparator key fuel leafPage (index + 1) result

/-- `GetValue` with a standby comparator. -/
def getValues (tree : BPlusTreeTS K) (fuel : ℕ) (key : K) (result : List V)
    (newComparator : K → K → ℤ) : LatchedM K V (Bool × List V) := do
  match ← tree.crabToLeaf fuel key .multifind false false false with
  | none =>
      unlockTransaction
      pure (false, result)
  | some leafPage =>
      let node ← onPool (getLeaf (← getPage leafPage).pageId)
      let index ← onPool (orStop .outOfRange
        (node.keyIndex tree.comparator key))
      let result ← getValuesLoop newComparator key fuel leafPage index result
      unlockTransaction
      pure (true, result)

/-! ### Insertion -/

/-- `StartNewTree`. -/
def startNewTree (tree : BPlusTreeTS K) (key : K) (value : V) :
    LatchedM K V (BPlusTreeTS K) := do
  let node ← onPool (tree.newLeaf INVALID_PAGE_ID)
  let page ← onPool (getLeaf node)
  let inserted ← onPool (orStop .outOfRange
    (page.insert tree.comparator key value))
  onPool (setData node (.leaf inserted.2))
  onPool (unpinPage inserted.2.pageId true)
  let tree := { tree with rootPageId := inserted.2.pageId }
  tree.updateRootPageId
  pure tree

/-- `InsertIntoParent` for a root page. -/
def growRoot [Inhabited K] (tree : BPlusTreeTS K) (oldNode : PageId) (key : K)
    (newNode : PageId) : LatchedM K V (BPlusTreeTS K) := do
  let rootNode ← onPool (tree.newInternal INVALID_PAGE_ID)
  let root ← onPool (getInternal rootNode)
  let old ← onPool (getNode oldNode)
  let new ← onPool (getNode newNode)
  onPool (setData rootNode
    (.internal (root.populateNewRoot old.pageId key new.pageId)))
  onPool (setParentPageId oldNode root.pageId)
  onPool (setParentPageId newNode root.pageId)
  let tree := { tree with rootPageId := root.pageId }
  tree.updateRootPageId
  Program.lift (LatchedOp.unlockRoot .write)
  onPool (unpinPage root.pageId true)
  onPool (unpinPage old.pageId true)
  onPool (unpinPage new.pageId true)
  pure tree

/-- `InsertIntoParent`. -/
def insertIntoParent [Inhabited K] : ℕ → BPlusTreeTS K → PageId → K →
    PageId → LatchedM K V (BPlusTreeTS K)
  | 0, _, _, _, _ => .throw .outOfTurns
  | fuel + 1, tree, oldNode, key, newNode => do
      let old ← onPool (getNode oldNode)
      if old.isRootPage then tree.growRoot oldNode key newNode
      else
        let new ← onPool (getNode newNode)
        let parent := old.parentPageId
        onPool (fetchPage parent)
        onPool (unpinPage old.pageId true)
        onPool (unpinPage new.pageId true)
        let parentNode ← onPool (getInternal parent)
        let parentNode :=
          (parentNode.insertNodeAfter old.pageId key new.pageId).2
        onPool (setData parent (.internal parentNode))
        if parentNode.size = parentNode.maxSize then
          let extra ← onPool (tree.splitInternal parent)
          let extraNode ← onPool (getInternal extra)
          let extraKey ← onPool (orStop .outOfRange (extraNode.keyAt 0))
          insertIntoParent fuel tree parent extraKey extra
        else
          onPool (unpinPage parent true)
          pure tree

/-- `InsertIntoLeaf`. -/
def insertIntoLeaf [Inhabited K] (tree : BPlusTreeTS K) (fuel : ℕ) (key : K)
    (value : V) : LatchedM K V (Bool × BPlusTreeTS K) := do
  let found ← tree.crabToLeaf fuel key .insert false true false
  let leafPage ← onPool (orStop .nullPointer found)
  let leaf := (← getPage leafPage).pageId
  let node ← onPool (getLeaf leaf)
  let inserted ← onPool (orStop .outOfRange
    (node.insert tree.comparator key value))
  onPool (setData leaf (.leaf inserted.2))
  if inserted.1 = -1 then
    releasePages .insert
    unlatchPage leafPage .insert
    onPool (unpinPage inserted.2.pageId true)
    pure (false, tree)
  else if inserted.2.size < inserted.2.maxSize then
    unlatchPage leafPage .insert
    onPool (unpinPage leaf true)
    pure (true, tree)
  else
    let extra ← onPool (tree.splitLeaf leaf)
    let extraNode ← onPool (getLeaf extra)
    let node ← onPool (getLeaf leaf)
    onPool (setData extra
      (.leaf { extraNode with nextPageId := node.nextPageId }))
    onPool (setData leaf (.leaf { node with nextPageId := extraNode.pageId }))
    let extraKey ← onPool (orStop .outOfRange (extraNode.keyAt 0))
    let tree ← insertIntoParent fuel tree leaf extraKey extra
    releasePages .insert
    -- the leaf is not pinned any more
    unlatchPage leafPage .insert
    pure (true, tree)

/-- `Insert`: true for an insertion, false for a modification. -/
def insert [Inhabited K] (tree : BPlusTreeTS K) (fuel : ℕ) (key : K)
    (value : V) (isCalled : Bool) : LatchedM K V (Bool × BPlusTreeTS K) := do
  Program.lift (LatchedOp.lockRoot .write)
  if !isCalled then unlockTransaction
  if tree.isEmpty then
    let tree ← tree.startNewTree key value
    Program.lift (LatchedOp.unlockRoot .write)
    pure (true, tree)
  else tree.insertIntoLeaf fuel key value

inductive InsertState
  | success
  | duplicateKey
  | noRoot
  | unsafeLeaf
  deriving DecidableEq

/-- `TentativeInsert`. -/
def tentativeInsert (tree : BPlusTreeTS K) (fuel : ℕ) (key : K) (value : V) :
    LatchedM K V InsertState := do
  match ← tree.crabToLeaf fuel key .optimisticInsert false false true with
  | none => pure .noRoot
  | some leafPage =>
      let leaf := (← getPage leafPage).pageId
      let node ← onPool (getLeaf leaf)
      let (insertState, node) ←
        if !(← nodeAt leafPage).isInsertSafe then
          pure (InsertState.unsafeLeaf, node)
        else do
          let inserted ← onPool (orStop .outOfRange
            (node.insert tree.comparator key value))
          onPool (setData leaf (.leaf inserted.2))
          pure (if inserted.1 = -1 then .duplicateKey else .success, inserted.2)
      unlatchPage leafPage .optimisticInsert
      onPool (unpinPage node.pageId (insertState = .success))
      pure insertState

/-- `OptimisticInsert`. -/
def optimisticInsert [Inhabited K] (tree : BPlusTreeTS K) (fuel : ℕ) (key : K)
    (value : V) : LatchedM K V (Bool × BPlusTreeTS K) := do
  match ← tree.tentativeInsert fuel key value with
  | .success => pure (true, tree)
  | .duplicateKey => pure (false, tree)
  | _ => tree.insert fuel key value true

/-! ### Removal -/

/-- `AdjustRoot`. -/
def adjustRoot (tree : BPlusTreeTS K) (oldRootNode : PageId) :
    LatchedM K V (Bool × BPlusTreeTS K) := do
  match ← onPool (getData oldRootNode) with
  | .internal root =>
      if root.size = 1 then
        let (child, emptied) ← onPool (orStop .outOfRange
          root.removeAndReturnOnlyChild)
        onPool (setData oldRootNode (.internal emptied))
        onPool (unpinPage root.pageId true)
        Program.lift (LatchedOp.addIntoDeletedPageSet root.pageId)
        onPool (fetchPage child)
        onPool (setParentPageId child INVALID_PAGE_ID)
        let childNode ← onPool (getNode child)
        onPool (unpinPage child true)
        let tree := { tree with rootPageId := childNode.pageId }
        tree.updateRootPageId
        Program.lift (LatchedOp.unlockRoot .write)
        pure (true, tree)
      else
        onPool (unpinPage root.pageId true)
        pure (false, tree)
  | .leaf root =>
      if root.size = 0 then
        onPool (unpinPage root.pageId true)
        Program.lift (LatchedOp.addIntoDeletedPageSet root.pageId)
        let tree := { tree with rootPageId := INVALID_PAGE_ID }
        tree.updateRootPageId
        Program.lift (LatchedOp.unlockRoot .write)
        pure (true, tree)
      else
        onPool (unpinPage root.pageId true)
        pure (false, tree)
  | _ => .throw .wrongPageType

/-- `Coalesce` up to the recursion, on two neighbors in their order; `latched`
is the one of them that is not the node itself. -/
def coalesceOrdered (neighbor node parent : PageId) (index : ℕ)
    (latched : PageId) : LatchedM K V Unit := do
  let parentNode ← onPool (getInternal parent)
  let middleKey ← onPool (orStop .outOfRange (parentNode.keyAt index))
  onPool (BPlusTreeNTS.mergeInto node neighbor middleKey)
  onPool (setData parent (.internal (parentNode.remove index)))
  let prevNode ← onPool (getNode neighbor)
  let currNode ← onPool (getNode node)
  unlatchNode latched .delete
  onPool (unpinPage prevNode.pageId true)
  onPool (unpinPage currNode.pageId true)
  Program.lift (LatchedOp.addIntoDeletedPageSet currNode.pageId)

/-- `Coalesce` up to the recursion. -/
def coalesce (neighbor node parent : PageId) (index : ℕ) :
    LatchedM K V Unit :=
  if index = 0 then coalesceOrdered node neighbor parent 1 neighbor
  else coalesceOrdered neighbor node parent index neighbor

/-- `Redistribute`. -/
def redistribute (neighbor node : PageId) (index : ℕ) :
    LatchedM K V Unit := do
  let parent := (← onPool (getNode node)).parentPageId
  onPool (fetchPage parent)
  let parentNode ← onPool (getInternal parent)
  let child ← onPool (getNode (if index = 0 then neighbor else node))
  let arrayId ← onPool (orStop .outOfRange
    (parentNode.valueIndex child.pageId))
  let middleKey ← onPool (orStop .outOfRange (parentNode.keyAt arrayId))
  let newKey ← onPool
    (BPlusTreeNTS.moveItem neighbor node index middleKey)
  onPool (setData parent (.internal (parentNode.setKeyAt arrayId newKey)))
  onPool (do unpinPage (← getNode node).pageId true)
  unlatchNode neighbor .delete
  onPool (do unpinPage (← getNode neighbor).pageId true)
  onPool (unpinPage parentNode.pageId true)

/-- `CoalesceOrRedistribute`. -/
def coalesceOrRedistribute : ℕ → BPlusTreeTS K → PageId →
    LatchedM K V (Bool × BPlusTreeTS K)
  | 0, _, _ => .throw .outOfTurns
  | fuel + 1, tree, node => do
      let page ← onPool (getNode node)
      if page.minSize ≤ page.size then
        onPool (unpinPage page.pageId true)
        pure (true, tree)
      else if page.isRootPage then tree.adjustRoot node
      else
        let parent := page.parentPageId
        onPool (fetchPage parent)
        let parentNode ← onPool (getInternal parent)
        let nodeId ← onPool (orStop .outOfRange
          (parentNode.valueIndex page.pageId))
        let neighbor ← onPool (orStop .outOfRange
          (parentNode.valueAt (if nodeId = 0 then 1 else nodeId - 1)))
        let neighborPage ← fetch neighbor
        latchPage neighborPage .delete
        let neighborNode ← onPool (getNode neighbor)
        if neighborNode.size + page.size < page.maxSize then
          coalesce neighbor node parent nodeId
          coalesceOrRedistribute fuel tree parent
        else
          redistribute neighbor node (if nodeId = 0 then 0 else 1)
          onPool (unpinPage parentNode.pageId true)
          pure (false, tree)

/-- `Remove` on the leaf that was found, up to the release of the pages. -/
def removeFromLeaf (tree : BPlusTreeTS K) (fuel : ℕ) (key : K)
    (leafPage : ℕ) : LatchedM K V (BPlusTreeTS K) := do
  let leaf := (← getPage leafPage).pageId
  let node ← onPool (getLeaf leaf)
  let removed ← onPool (orStop .outOfRange
    (node.removeAndDeleteRecord tree.comparator key))
  if removed.1 = -1 then
    onPool (unpinPage node.pageId false)
    pure tree
  else
    onPool (setData leaf (.leaf removed.2))
    let (_, tree) ← coalesceOrRedistribute fuel tree leaf
    pure tree

/-- `Remove`. -/
def remove (tree : BPlusTreeTS K) (fuel : ℕ) (key : K) (isCalled : Bool) :
    LatchedM K V (BPlusTreeTS K) := do
  match ← tree.crabToLeaf fuel key .delete false false (!isCalled) with
  | none => pure tree
  | some leafPage =>
      let tree ← tree.removeFromLeaf fuel key leafPage
      releasePages .delete
      -- the leaf is not pinned any more
      unlatchPage leafPage .delete
      deletePages
      pure tree

inductive DeleteState
  | success
  | noEntry
  | pageFault
  | unsafeLeaf
  deriving DecidableEq

/-- `TentativeRemove`. -/
def tentativeRemove (tree : BPlusTreeTS K) (fuel : ℕ) (key : K) :
    LatchedM K V DeleteState := do
  match ← tree.crabToLeaf fuel key .optimisticDelete false false true with
  | none => pure .pageFault
  | some leafPage =>
      let leaf := (← getPage leafPage).pageId
      let node ← onPool (getLeaf leaf)
      let (deleteState, node) ←
        if !(← nodeAt leafPage).isDeleteSafe then
          pure (DeleteState.unsafeLeaf, node)
        else do
          let removed ← onPool (orStop .outOfRange
            (node.removeAndDeleteRecord tree.comparator key))
          onPool (setData leaf (.leaf removed.2))
          pure (if removed.1 = -1 then .noEntry else .success, removed.2)
      unlatchPage leafPage .optimisticDelete
      onPool (unpinPage node.pageId (deleteState = .success))
      pure deleteState

/-- `OptimisticRemove`. -/
def optimisticRemove (tree : BPlusTreeTS K) (fuel : ℕ) (key : K) :
    LatchedM K V (BPlusTreeTS K) := do
  match ← tree.tentativeRemove fuel key with
  | .unsafeLeaf => tree.remove fuel key true
  | _ => pure tree

/-! ### Calls -/

/-- One call: its answer, if it has one, the vector `result` after it, and the
tree. -/
def call [Inhabited K] (tree : BPlusTreeTS K) (fuel : ℕ) :
    LatchedCall K V → LatchedM K V ((Option Bool × List V) × BPlusTreeTS K)
  | .insert key value isCalled => do
      let (answer, tree) ← tree.insert fuel key value isCalled
      pure ((some answer, []), tree)
  | .optimisticInsert key value => do
      let (answer, tree) ← tree.optimisticInsert fuel key value
      pure ((some answer, []), tree)
  | .remove key isCalled => do
      let tree ← tree.remove fuel key isCalled
      pure ((none, []), tree)
  | .optimisticRemove key => do
      let tree ← tree.optimisticRemove fuel key
      pure ((none, []), tree)
  | .getValue key result => do
      let (answer, result) ← tree.getValue fuel key result
      pure ((some answer, result), tree)
  | .getValues key result newComparator => do
      let (answer, result) ← tree.getValues fuel key result newComparator
      pure ((some answer, result), tree)

/-- The tree is reached from a new one by calls that return, each with a
transaction of its own. -/
inductive Reachable [Inhabited K] (base : BPlusTreeTS K) :
    BPlusTreeTS K → LatchedPool (PageData K V) → Prop
  | create (poolSize : ℕ) {tree : BPlusTreeTS K}
      {s : LatchedPool (PageData K V)}
      (h : (base.create (V := V)).run LatchedPool.perform
        (.ofPool (.new poolSize (DiskManager.new DiskFile.empty))) =
          .ok (tree, s)) :
      Reachable base tree s
  | call {tree tree' : BPlusTreeTS K} {s s' : LatchedPool (PageData K V)}
      (fuel : ℕ) (c : LatchedCall K V) {answer : Option Bool × List V}
      (before : Reachable base tree s)
      (h : (tree.call fuel c).run LatchedPool.perform s.nextTransaction =
        .ok ((answer, tree'), s')) :
      Reachable base tree' s'

end BPlusTreeTS

end TicketSystem.Database
