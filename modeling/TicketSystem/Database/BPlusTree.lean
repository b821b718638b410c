import TicketSystem.Database.Page
import TicketSystem.Support.Program

/-!
# The B+ tree

`BPlusTreeNTS` as programs over a buffer pool.  A pointer to a page is its page
id; what it points to is read and written by operations of its own.  Loops and
recursions take a number of turns that they may at most use.
-/

namespace TicketSystem.Database

open TicketSystem.Support

variable {K V : Type}

/-- What ends a program early. -/
inductive Stop
  | runtimeError (what : String)
  | readLessThenAPage
  | nullPointer
  | outOfRange
  | assertion
  | wrongPageType
  | outOfTurns
  deriving DecidableEq

/-- Programs over the pages of an index. -/
abbrev TreeM (K V : Type) : Type → Type :=
  Program (PageOp (PageData K V)) PageOp.Answer Stop

/-! ## Access to pages -/

/-- A value that a page has, or the end of the program. -/
def orStop {α : Type} (stop : Stop) : Option α → TreeM K V α
  | some value => .pure value
  | none => .throw stop

/-- `FetchPage`, where the pointer is used without a check. -/
def fetchPage (pageId : PageId) : TreeM K V Unit := do
  match ← Program.lift (PageOp.fetchPage pageId) with
  | .page => pure ()
  | .null => .throw .nullPointer
  | .readLessThenAPage => .throw .readLessThenAPage

/-- `UnpinPage`, where the answer is not used. -/
def unpinPage (pageId : PageId) (isDirty : Bool) : TreeM K V Unit := do
  let _ ← Program.lift (PageOp.unpinPage pageId isDirty)
  pure ()

/-- `DeletePage`, where the answer is not used. -/
def deletePage (pageId : PageId) : TreeM K V Unit := do
  let _ ← Program.lift (PageOp.deletePage pageId)
  pure ()

def getData (pageId : PageId) : TreeM K V (PageData K V) :=
  Program.lift (PageOp.getData pageId)

def setData (pageId : PageId) (data : PageData K V) : TreeM K V Unit :=
  Program.lift (PageOp.setData pageId data)

def getLeaf (pageId : PageId) : TreeM K V (LeafPage K V) := do
  match ← getData pageId with
  | .leaf page => pure page
  | _ => .throw .wrongPageType

def getInternal (pageId : PageId) : TreeM K V (InternalPage K) := do
  match ← getData pageId with
  | .internal page => pure page
  | _ => .throw .wrongPageType

/-- A page of the tree as its pointer to `BPlusTreePage` shows it. -/
def getNode (pageId : PageId) : TreeM K V BPlusTreePage := do
  orStop .wrongPageType (← getData pageId).node

def getHeader (pageId : PageId) : TreeM K V HeaderRecords := do
  orStop .wrongPageType (← getData pageId).records

/-- `SetParentPageId` through a pointer. -/
def setParentPageId (pageId parentPageId : PageId) : TreeM K V Unit := do
  setData pageId ((← getData pageId).setParentPageId parentPageId)

/-- The loop body with which a page takes a child over. -/
def setParent (child parentPageId : PageId) : TreeM K V Unit := do
  fetchPage child
  setParentPageId child parentPageId
  unpinPage child true

/-- The same for several children. -/
def setParents (parentPageId : PageId) : List PageId → TreeM K V Unit
  | [] => pure ()
  | child :: children => do
      setParent child parentPageId
      setParents parentPageId children

/-! ## Internal pages and their children -/

/-- `CopyNFrom` of an internal page. -/
def copyNFrom (pageId : PageId) (items : List (K × PageId)) :
    TreeM K V Unit := do
  let page ← getInternal pageId
  if page.maxSize < page.size + items.length then
    .throw (.runtimeError "Page overflows.")
  else
    setParents page.pageId (items.map Prod.snd)
    setData pageId (.internal { page with array := page.array ++ items })

/-- `MoveHalfTo` of an internal page. -/
def moveHalfTo (pageId recipient : PageId) : TreeM K V Unit := do
  let page ← getInternal pageId
  let newThisSize := page.minSize
  let newRecipientSize := page.size - newThisSize
  copyNFrom recipient (page.array.drop newThisSize)
  setData pageId (.internal (page.setSize newThisSize))
  let recipientPage ← getInternal recipient
  setData recipient (.internal (recipientPage.setSize newRecipientSize))

/-- `MoveAllTo` of an internal page. -/
def moveAllTo (pageId recipient : PageId) (middleKey : K) :
    TreeM K V Unit := do
  let page ← getInternal pageId
  let recipientPage ← getInternal recipient
  if page.maxSize < recipientPage.size + page.size then
    .throw (.runtimeError "Page overflows.")
  else
    setParents recipientPage.pageId (page.array.map Prod.snd)
    setData recipient (.internal
      ({ recipientPage with
        array := recipientPage.array ++ page.array }.setKeyAt
          recipientPage.size middleKey))
    setData pageId (.internal (page.setSize 0))

/-- `CopyLastFrom` of an internal page. -/
def copyLastFrom (pageId : PageId) (pair : K × PageId) : TreeM K V Unit := do
  let page ← getInternal pageId
  setData pageId (.internal { page with array := page.array ++ [pair] })
  setParent pair.2 page.pageId

/-- `CopyFirstFrom` of an internal page. -/
def copyFirstFrom (pageId : PageId) (pair : K × PageId) :
    TreeM K V Unit := do
  let page ← getInternal pageId
  setData pageId (.internal { page with array := pair :: page.array })
  setParent pair.2 page.pageId

/-- `MoveFirstToEndOf` of an internal page. -/
def moveFirstToEndOf (pageId recipient : PageId) (middleKey : K) :
    TreeM K V Unit := do
  let page ← getInternal pageId
  let child ← orStop .outOfRange (page.valueAt 0)
  copyLastFrom recipient (middleKey, child)
  setData pageId (.internal (page.remove 0))

/-- `MoveLastToFrontOf` of an internal page. -/
def moveLastToFrontOf (pageId recipient : PageId) (middleKey : K) :
    TreeM K V Unit := do
  let recipientPage ← getInternal recipient
  setData recipient (.internal (recipientPage.setKeyAt 0 middleKey))
  let page ← getInternal pageId
  let item ← orStop .outOfRange page.array[page.size - 1]?
  copyFirstFrom recipient item
  setData pageId (.internal (page.setSize (page.size - 1)))

/-! ## The tree -/

/-- The members of `BPlusTreeNTS` apart from the buffer pool. -/
structure BPlusTreeNTS (K : Type) where
  indexName : String
  rootPageId : PageId
  comparator : K → K → ℤ
  leafMaxSize : ℕ
  internalMaxSize : ℕ

namespace BPlusTreeNTS

/-- The constructor, on a tree that has its other members. -/
def construct (tree : BPlusTreeNTS K) : TreeM K V (BPlusTreeNTS K) := do
  fetchPage HEADER_PAGE_ID
  let records ← getHeader HEADER_PAGE_ID
  let record ← orStop .assertion (records.searchRecord tree.indexName)
  unpinPage HEADER_PAGE_ID true
  pure { tree with rootPageId := record.getD INVALID_PAGE_ID }

def isEmpty (tree : BPlusTreeNTS K) : Bool :=
  tree.rootPageId = INVALID_PAGE_ID

/-- `UpdateRootPageId`, which is only called to update. -/
def updateRootPageId (tree : BPlusTreeNTS K) : TreeM K V Unit := do
  fetchPage HEADER_PAGE_ID
  let records ← getHeader HEADER_PAGE_ID
  setData HEADER_PAGE_ID
    (.header (records.updateRecord tree.indexName tree.rootPageId).2)
  unpinPage HEADER_PAGE_ID true

/-! ### Search -/

/-- The loop of `FindLeafPage`. -/
def findLeafLoop (tree : BPlusTreeNTS K) (key : K) (leftMost : Bool)
    (rightMost : Bool) : ℕ → PageId → TreeM K V PageId
  | 0, _ => .throw .outOfTurns
  | fuel + 1, lastPageId => do
      let node ← getInternal lastPageId
      let nextPageId ← orStop .outOfRange
        (if leftMost then node.valueAt 0
        else if rightMost then node.valueAt (node.size - 1)
        else node.lookup tree.comparator key)
      fetchPage nextPageId
      unpinPage lastPageId false
      match ← getData nextPageId with
      | .leaf _ => pure nextPageId
      | _ => tree.findLeafLoop key leftMost rightMost fuel nextPageId

/-- `FindLeafPage`. -/
def findLeafPage (tree : BPlusTreeNTS K) (fuel : ℕ) (key : K)
    (leftMost rightMost : Bool) : TreeM K V (Option PageId) := do
  if tree.rootPageId = INVALID_PAGE_ID then pure none
  else
    fetchPage tree.rootPageId
    match ← getData tree.rootPageId with
    | .leaf _ => pure (some tree.rootPageId)
    | _ =>
        let pageId ← tree.findLeafLoop key leftMost rightMost fuel
          tree.rootPageId
        pure (some pageId)

/-- `GetValue` for one key: the answer and the vector `result`. -/
def getValue (tree : BPlusTreeNTS K) (fuel : ℕ) (key : K)
    (result : List V) : TreeM K V (Bool × List V) := do
  match ← tree.findLeafPage fuel key false false with
  | none => pure (false, result)
  | some leaf =>
      let node ← getLeaf leaf
      let found ← orStop .outOfRange (node.lookup tree.comparator key)
      unpinPage node.pageId false
      match found with
      | none => pure (false, result)
      | some value => pure (true, result ++ [value])

/-- The end of a leaf in `GetValue` with a standby comparator. -/
def nextLeaf (node : LeafPage K V) : TreeM K V (Option PageId) := do
  unpinPage node.pageId false
  if node.nextPageId = INVALID_PAGE_ID then pure none
  else
    fetchPage node.nextPageId
    pure (some node.nextPageId)

/-- The loop of `GetValue` with a standby comparator. -/
def getValuesLoop (newComparator : K → K → ℤ) (key : K) :
    ℕ → PageId → ℤ → List V → TreeM K V (Bool × List V)
  | 0, _, _, _ => .throw .outOfTurns
  | fuel + 1, leaf, index, result => do
      let node ← getLeaf leaf
      if index = -1 then
        match ← nextLeaf node with
        | none => pure (true, result)
        | some next => getValuesLoop newComparator key fuel next 0 result
      else
        let item ← orStop .outOfRange node.array[index.toNat]?
        if newComparator key item.1 ≠ 0 then
          unpinPage node.pageId false
          pure (true, result)
        else
          let result := result ++ [item.2]
          if index + 1 = node.size then
            match ← nextLeaf node with
            | none => pure (true, result)
            | some next => getValuesLoop newComparator key fuel next 0 result
          else getValuesLoop newComparator key fuel leaf (index + 1) result

/-- `GetValue` with a standby comparator. -/
def getValues (tree : BPlusTreeNTS K) (fuel : ℕ) (key : K) (result : List V)
    (newComparator : K → K → ℤ) : TreeM K V (Bool × List V) := do
  match ← tree.findLeafPage fuel key false false with
  | none => pure (false, result)
  | some leaf =>
      let node ← getLeaf leaf
      let index ← orStop .outOfRange (node.keyIndex tree.comparator key)
      getValuesLoop newComparator key fuel leaf index result

/-! ### Insertion -/

/-- `NewNode<LeafPage>`. -/
def newLeaf (tree : BPlusTreeNTS K) (parentId : PageId) :
    TreeM K V PageId := do
  match ← Program.lift PageOp.newPage with
  | none => .throw (.runtimeError "Cannot fetch a new page.")
  | some pageId =>
      setData pageId (.leaf (LeafPage.init pageId parentId tree.leafMaxSize))
      pure pageId

/-- `NewNode<InternalPage>`. -/
def newInternal (tree : BPlusTreeNTS K) (parentId : PageId) :
    TreeM K V PageId := do
  match ← Program.lift PageOp.newPage with
  | none => .throw (.runtimeError "Cannot fetch a new page.")
  | some pageId =>
      setData pageId
        (.internal (InternalPage.init pageId parentId tree.internalMaxSize))
      pure pageId

/-- `StartNewTree`. -/
def startNewTree (tree : BPlusTreeNTS K) (key : K) (value : V) :
    TreeM K V (BPlusTreeNTS K) := do
  let node ← tree.newLeaf INVALID_PAGE_ID
  let page ← getLeaf node
  let inserted ← orStop .outOfRange (page.insert tree.comparator key value)
  setData node (.leaf inserted.2)
  unpinPage inserted.2.pageId true
  let tree := { tree with rootPageId := inserted.2.pageId }
  tree.updateRootPageId
  pure tree

/-- `Split<LeafPage>`: the new page. -/
def splitLeaf (tree : BPlusTreeNTS K) (node : PageId) :
    TreeM K V PageId := do
  let currNode ← getLeaf node
  let extra ← tree.newLeaf currNode.parentPageId
  let extraNode ← getLeaf extra
  let (currNode, extraNode) := currNode.moveHalfTo extraNode
  setData node (.leaf currNode)
  setData extra (.leaf extraNode)
  pure extra

/-- `Split<InternalPage>`: the new page. -/
def splitInternal (tree : BPlusTreeNTS K) (node : PageId) :
    TreeM K V PageId := do
  let currNode ← getInternal node
  let extra ← tree.newInternal currNode.parentPageId
  moveHalfTo node extra
  pure extra

/-- `InsertIntoParent` for a root page. -/
def growRoot [Inhabited K] (tree : BPlusTreeNTS K) (oldNode : PageId)
    (key : K) (newNode : PageId) : TreeM K V (BPlusTreeNTS K) := do
  let rootNode ← tree.newInternal INVALID_PAGE_ID
  let root ← getInternal rootNode
  let old ← getNode oldNode
  let new ← getNode newNode
  setData rootNode
    (.internal (root.populateNewRoot old.pageId key new.pageId))
  setParentPageId oldNode root.pageId
  setParentPageId newNode root.pageId
  let tree := { tree with rootPageId := root.pageId }
  tree.updateRootPageId
  unpinPage root.pageId true
  unpinPage old.pageId true
  unpinPage new.pageId true
  pure tree

/-- `InsertIntoParent`. -/
def insertIntoParent [Inhabited K] : ℕ → BPlusTreeNTS K → PageId → K →
    PageId → TreeM K V (BPlusTreeNTS K)
  | 0, _, _, _, _ => .throw .outOfTurns
  | fuel + 1, tree, oldNode, key, newNode => do
      let old ← getNode oldNode
      if old.isRootPage then tree.growRoot oldNode key newNode
      else
        let new ← getNode newNode
        let parent := old.parentPageId
        fetchPage parent
        unpinPage old.pageId true
        unpinPage new.pageId true
        let parentNode ← getInternal parent
        let parentNode :=
          (parentNode.insertNodeAfter old.pageId key new.pageId).2
        setData parent (.internal parentNode)
        if parentNode.size = parentNode.maxSize then
          let extra ← tree.splitInternal parent
          let extraNode ← getInternal extra
          let extraKey ← orStop .outOfRange (extraNode.keyAt 0)
          insertIntoParent fuel tree parent extraKey extra
        else
          unpinPage parent true
          pure tree

/-- `InsertIntoLeaf`. -/
def insertIntoLeaf [Inhabited K] (tree : BPlusTreeNTS K) (fuel : ℕ) (key : K)
    (value : V) : TreeM K V (Bool × BPlusTreeNTS K) := do
  let leaf ← orStop .nullPointer
    (← tree.findLeafPage fuel key false false)
  let node ← getLeaf leaf
  let inserted ← orStop .outOfRange (node.insert tree.comparator key value)
  setData leaf (.leaf inserted.2)
  if inserted.1 = -1 then
    unpinPage inserted.2.pageId true
    pure (false, tree)
  else if inserted.2.size < inserted.2.maxSize then
    unpinPage leaf true
    pure (true, tree)
  else
    let extra ← tree.splitLeaf leaf
    let extraNode ← getLeaf extra
    let node ← getLeaf leaf
    setData extra (.leaf { extraNode with nextPageId := node.nextPageId })
    setData leaf (.leaf { node with nextPageId := extraNode.pageId })
    let extraKey ← orStop .outOfRange (extraNode.keyAt 0)
    let tree ← insertIntoParent fuel tree leaf extraKey extra
    pure (true, tree)

/-- `Insert`: true for an insertion, false for a modification. -/
def insert [Inhabited K] (tree : BPlusTreeNTS K) (fuel : ℕ) (key : K)
    (value : V) : TreeM K V (Bool × BPlusTreeNTS K) := do
  if tree.isEmpty then
    let tree ← tree.startNewTree key value
    pure (true, tree)
  else tree.insertIntoLeaf fuel key value

/-! ### Removal -/

/-- `AdjustRoot`. -/
def adjustRoot (tree : BPlusTreeNTS K) (oldRootNode : PageId) :
    TreeM K V (Bool × BPlusTreeNTS K) := do
  match ← getData oldRootNode with
  | .internal root =>
      if root.size = 1 then
        let (child, emptied) ← orStop .outOfRange
          root.removeAndReturnOnlyChild
        setData oldRootNode (.internal emptied)
        unpinPage root.pageId true
        deletePage root.pageId
        fetchPage child
        setParentPageId child INVALID_PAGE_ID
        let childNode ← getNode child
        let tree := { tree with rootPageId := childNode.pageId }
        unpinPage child true
        tree.updateRootPageId
        pure (true, tree)
      else
        unpinPage root.pageId true
        pure (false, tree)
  | .leaf root =>
      if root.size = 0 then
        unpinPage root.pageId true
        deletePage root.pageId
        let tree := { tree with rootPageId := INVALID_PAGE_ID }
        tree.updateRootPageId
        pure (true, tree)
      else
        unpinPage root.pageId true
        pure (false, tree)
  | _ => .throw .wrongPageType

/-- The part of `Coalesce` that moves the items of `node` to the page before
it. -/
def mergeInto (node neighbor : PageId) (middleKey : K) : TreeM K V Unit := do
  match ← getData node with
  | .internal _ => moveAllTo node neighbor middleKey
  | .leaf currNode =>
      let prevNode ← getLeaf neighbor
      let (currNode', prevNode) := currNode.moveAllTo prevNode
      setData neighbor
        (.leaf { prevNode with nextPageId := currNode.nextPageId })
      setData node (.leaf currNode')
  | _ => .throw .wrongPageType

/-- `Coalesce` up to the recursion, on two neighbors in their order. -/
def coalesceOrdered (neighbor node parent : PageId) (index : ℕ) :
    TreeM K V Unit := do
  let parentNode ← getInternal parent
  let middleKey ← orStop .outOfRange (parentNode.keyAt index)
  mergeInto node neighbor middleKey
  setData parent (.internal (parentNode.remove index))
  unpinPage (← getNode neighbor).pageId true
  unpinPage (← getNode node).pageId true

/-- `Coalesce` up to the recursion. -/
def coalesce (neighbor node parent : PageId) (index : ℕ) : TreeM K V Unit :=
  if index = 0 then coalesceOrdered node neighbor parent 1
  else coalesceOrdered neighbor node parent index

/-- The part of `Redistribute` that moves one item: the new key of the page on
the right. -/
def moveItem (neighbor node : PageId) (index : ℕ) (middleKey : K) :
    TreeM K V K := do
  match ← getData neighbor with
  | .leaf neighborNode =>
      let currNode ← getLeaf node
      if index = 0 then
        let (neighborNode, currNode) ← orStop .outOfRange
          (neighborNode.moveFirstToEndOf currNode)
        setData neighbor (.leaf neighborNode)
        setData node (.leaf currNode)
        orStop .outOfRange (neighborNode.keyAt 0)
      else
        let (neighborNode, currNode) ← orStop .outOfRange
          (neighborNode.moveLastToFrontOf currNode)
        setData neighbor (.leaf neighborNode)
        setData node (.leaf currNode)
        orStop .outOfRange (currNode.keyAt 0)
  | .internal _ =>
      if index = 0 then
        moveFirstToEndOf neighbor node middleKey
        orStop .outOfRange ((← getInternal neighbor).keyAt 0)
      else
        moveLastToFrontOf neighbor node middleKey
        orStop .outOfRange ((← getInternal node).keyAt 0)
  | _ => .throw .wrongPageType

/-- `Redistribute`. -/
def redistribute (neighbor node : PageId) (index : ℕ) : TreeM K V Unit := do
  let parent := (← getNode node).parentPageId
  fetchPage parent
  let parentNode ← getInternal parent
  let child ← getNode (if index = 0 then neighbor else node)
  let arrayId ← orStop .outOfRange (parentNode.valueIndex child.pageId)
  let middleKey ← orStop .outOfRange (parentNode.keyAt arrayId)
  let newKey ← moveItem neighbor node index middleKey
  setData parent (.internal (parentNode.setKeyAt arrayId newKey))
  unpinPage (← getNode node).pageId true
  unpinPage (← getNode neighbor).pageId true
  unpinPage parentNode.pageId true

/-- `CoalesceOrRedistribute`. -/
def coalesceOrRedistribute : ℕ → BPlusTreeNTS K → PageId →
    TreeM K V (Bool × BPlusTreeNTS K)
  | 0, _, _ => .throw .outOfTurns
  | fuel + 1, tree, node => do
      let page ← getNode node
      if page.minSize ≤ page.size then
        unpinPage page.pageId true
        pure (true, tree)
      else if page.isRootPage then tree.adjustRoot node
      else
        let parent := page.parentPageId
        fetchPage parent
        let parentNode ← getInternal parent
        let nodeId ← orStop .outOfRange (parentNode.valueIndex page.pageId)
        let neighbor ← orStop .outOfRange
          (parentNode.valueAt (if nodeId = 0 then 1 else nodeId - 1))
        fetchPage neighbor
        let neighborPage ← getNode neighbor
        if neighborPage.size + page.size < page.maxSize then
          coalesce neighbor node parent nodeId
          coalesceOrRedistribute fuel tree parent
        else
          redistribute neighbor node (if nodeId = 0 then 0 else 1)
          unpinPage parentNode.pageId true
          pure (false, tree)

/-- `Remove`. -/
def remove (tree : BPlusTreeNTS K) (fuel : ℕ) (key : K) :
    TreeM K V (Bool × BPlusTreeNTS K) := do
  match ← tree.findLeafPage fuel key false false with
  | none => pure (false, tree)
  | some leaf =>
      let node ← getLeaf leaf
      let removed ← orStop .outOfRange
        (node.removeAndDeleteRecord tree.comparator key)
      if removed.1 = -1 then
        unpinPage leaf false
        pure (false, tree)
      else
        setData leaf (.leaf removed.2)
        let (_, tree) ← coalesceOrRedistribute fuel tree leaf
        pure (true, tree)

end BPlusTreeNTS

end TicketSystem.Database
