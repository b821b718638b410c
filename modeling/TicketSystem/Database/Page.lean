import TicketSystem.Database.BufferPool
import TicketSystem.Support.SortedMap
import TicketSystem.Support.ThreeWay

/-!
# The pages of an index

`BPlusTreeLeafPage`, `BPlusTreeInternalPage` and `HeaderPage`, as far as they
work on one page.  The `array` of a page is the list of its first `size_`
items; a read outside of them answers with nothing.
-/

namespace TicketSystem.Database

open TicketSystem.Support

variable {K V : Type}

/-! ## Leaf pages -/

/-- The members of `BPlusTreeLeafPage`. -/
structure LeafPage (K V : Type) where
  maxSize : ℕ
  parentPageId : PageId
  pageId : PageId
  nextPageId : PageId
  array : List (K × V)

namespace LeafPage

def init (pageId parentPageId : PageId) (maxSize : ℕ) : LeafPage K V where
  maxSize := maxSize
  parentPageId := parentPageId
  pageId := pageId
  nextPageId := INVALID_PAGE_ID
  array := []

def size (page : LeafPage K V) : ℕ := page.array.length

def minSize (page : LeafPage K V) : ℕ := page.maxSize / 2

/-- The loop of `KeyIndex`; nothing if a key outside of the page is read. -/
def keyIndexLoop (comparator : K → K → ℤ) (page : LeafPage K V) (key : K) :
    ℕ → ℤ → ℤ → ℤ → Option ℤ
  | 0, _, _, _ => none
  | fuel + 1, l, r, index =>
      if l ≤ r then
        let mid := (l + r) / 2
        match page.array[mid.toNat]? with
        | none => none
        | some item =>
            if 0 ≤ comparator item.1 key then
              keyIndexLoop comparator page key fuel l (mid - 1) mid
            else keyIndexLoop comparator page key fuel (mid + 1) r index
      else some index

/-- `KeyIndex`: the first index whose key is not below `key`, or `-1`. -/
def keyIndex (comparator : K → K → ℤ) (page : LeafPage K V) (key : K) :
    Option ℤ :=
  keyIndexLoop comparator page key (page.size + 1) 0 (page.size - 1) (-1)

/-- `Insert`: the size after the insertion, or `-1` if a key was there. -/
def insert (comparator : K → K → ℤ) (page : LeafPage K V) (key : K)
    (value : V) : Option (ℤ × LeafPage K V) :=
  if page.size = page.maxSize then some (-1, page)
  else
    (page.keyIndex comparator key).bind fun index =>
      if index = -1 then
        let page := { page with array := page.array ++ [(key, value)] }
        some (page.size, page)
      else
        (page.array[index.toNat]?).bind fun item =>
          if comparator key item.1 = 0 then
            some (-1,
              { page with array := page.array.set index.toNat (key, value) })
          else
            let page :=
              { page with
                array := page.array.insertIdx index.toNat (key, value) }
            some (page.size, page)

/-- `Lookup`. -/
def lookup (comparator : K → K → ℤ) (page : LeafPage K V) (key : K) :
    Option (Option V) :=
  (page.keyIndex comparator key).bind fun index =>
    if index = -1 then some none
    else
      (page.array[index.toNat]?).map fun item =>
        if comparator item.1 key ≠ 0 then none else some item.2

/-- `Remove`. -/
def remove (page : LeafPage K V) (index : ℕ) : LeafPage K V :=
  { page with array := page.array.eraseIdx index }

/-- `RemoveAndDeleteRecord`: the size after the deletion, or `-1`. -/
def removeAndDeleteRecord (comparator : K → K → ℤ) (page : LeafPage K V)
    (key : K) : Option (ℤ × LeafPage K V) :=
  (page.keyIndex comparator key).bind fun index =>
    if index = -1 then some (-1, page)
    else
      (page.array[index.toNat]?).map fun item =>
        if comparator item.1 key ≠ 0 then (-1, page)
        else
          let page := page.remove index.toNat
          (page.size, page)

/-- `SetSize`, which never makes a page larger where it is used. -/
def setSize (page : LeafPage K V) (size : ℕ) : LeafPage K V :=
  { page with array := page.array.take size }

def copyNFrom (page : LeafPage K V) (items : List (K × V)) : LeafPage K V :=
  { page with array := page.array ++ items }

/-- `MoveHalfTo`: this page and the recipient. -/
def moveHalfTo (page recipient : LeafPage K V) : LeafPage K V × LeafPage K V :=
  let newThisSize := page.minSize
  let newRecipientSize := page.size - newThisSize
  let recipient := recipient.copyNFrom (page.array.drop newThisSize)
  (page.setSize newThisSize, recipient.setSize newRecipientSize)

/-- `MoveAllTo`: this page and the recipient. -/
def moveAllTo (page recipient : LeafPage K V) : LeafPage K V × LeafPage K V :=
  (page.setSize 0, recipient.copyNFrom page.array)

/-- `CopyLastFrom`. -/
def copyLastFrom (page : LeafPage K V) (item : K × V) : LeafPage K V :=
  { page with array := page.array ++ [item] }

/-- `CopyFirstFrom`. -/
def copyFirstFrom (page : LeafPage K V) (item : K × V) : LeafPage K V :=
  { page with array := item :: page.array }

/-- `MoveFirstToEndOf`: this page and the recipient. -/
def moveFirstToEndOf (page recipient : LeafPage K V) :
    Option (LeafPage K V × LeafPage K V) :=
  (page.array[0]?).map fun item =>
    (page.remove 0, recipient.copyLastFrom item)

/-- `MoveLastToFrontOf`: this page and the recipient. -/
def moveLastToFrontOf (page recipient : LeafPage K V) :
    Option (LeafPage K V × LeafPage K V) :=
  (page.array[page.size - 1]?).map fun item =>
    (page.setSize (page.size - 1), recipient.copyFirstFrom item)

/-- `KeyAt`. -/
def keyAt (page : LeafPage K V) (index : ℕ) : Option K :=
  (page.array[index]?).map Prod.fst

end LeafPage

/-! ## Internal pages -/

/-- The members of `BPlusTreeInternalPage`; the key of the first item is
ignored. -/
structure InternalPage (K : Type) where
  maxSize : ℕ
  parentPageId : PageId
  pageId : PageId
  array : List (K × PageId)

namespace InternalPage

def init (pageId parentPageId : PageId) (maxSize : ℕ) : InternalPage K where
  maxSize := maxSize
  parentPageId := parentPageId
  pageId := pageId
  array := []

def size (page : InternalPage K) : ℕ := page.array.length

def minSize (page : InternalPage K) : ℕ := page.maxSize / 2

/-- `KeyAt`. -/
def keyAt (page : InternalPage K) (index : ℕ) : Option K :=
  (page.array[index]?).map Prod.fst

/-- `SetKeyAt`. -/
def setKeyAt (page : InternalPage K) (index : ℕ) (key : K) : InternalPage K :=
  { page with
    array := page.array.modify index fun item => (key, item.2) }

/-- `ValueAt`. -/
def valueAt (page : InternalPage K) (index : ℕ) : Option PageId :=
  (page.array[index]?).map Prod.snd

/-- `ValueIndex`, with nothing for `-1`. -/
def valueIndex (page : InternalPage K) (value : PageId) : Option ℕ :=
  page.array.findIdx? fun item => item.2 = value

/-- The loop of `Lookup`. -/
def lookupLoop (comparator : K → K → ℤ) (page : InternalPage K) (key : K) :
    ℕ → ℤ → ℤ → ℤ → Option ℤ
  | 0, _, _, _ => none
  | fuel + 1, l, r, childIndex =>
      if l ≤ r then
        let mid := (l + r) / 2
        match page.array[mid.toNat]? with
        | none => none
        | some item =>
            if comparator key item.1 < 0 then
              lookupLoop comparator page key fuel l (mid - 1) (mid - 1)
            else lookupLoop comparator page key fuel (mid + 1) r childIndex
      else some childIndex

/-- `Lookup`: the child whose keys include `key`. -/
def lookup (comparator : K → K → ℤ) (page : InternalPage K) (key : K) :
    Option PageId :=
  (lookupLoop comparator page key (page.size + 1) 1 (page.size - 1)
    (page.size - 1)).bind fun childIndex => page.valueAt childIndex.toNat

/-- `PopulateNewRoot` on a page of zero bytes. -/
def populateNewRoot [Inhabited K] (page : InternalPage K) (oldValue : PageId)
    (newKey : K) (newValue : PageId) : InternalPage K :=
  { page with array := [(default, oldValue), (newKey, newValue)] }

/-- `InsertNodeAfter`: the size after the insertion, or `-1`. -/
def insertNodeAfter (page : InternalPage K) (oldValue : PageId) (newKey : K)
    (newValue : PageId) : ℤ × InternalPage K :=
  if page.size = page.maxSize then (-1, page)
  else
    match page.valueIndex oldValue with
    | none => (-1, page)
    | some index =>
        let page :=
          { page with
            array := page.array.insertIdx (index + 1) (newKey, newValue) }
        (page.size, page)

/-- `SetSize`, which never makes a page larger where it is used. -/
def setSize (page : InternalPage K) (size : ℕ) : InternalPage K :=
  { page with array := page.array.take size }

/-- `Remove`. -/
def remove (page : InternalPage K) (index : ℕ) : InternalPage K :=
  { page with array := page.array.eraseIdx index }

/-- `RemoveAndReturnOnlyChild`. -/
def removeAndReturnOnlyChild (page : InternalPage K) :
    Option (PageId × InternalPage K) :=
  (page.valueAt 0).map fun child => (child, page.setSize 0)

end InternalPage

/-! ## Header pages -/

/-- The records of a `HeaderPage`. -/
abbrev HeaderRecords := List (String × PageId)

namespace HeaderRecords

/-- `FindRecord`, with nothing for `-1`. -/
def findRecord (records : HeaderRecords) (name : String) : Option ℕ :=
  records.findIdx? fun record => record.1 = name

/-- `InsertRecord`. -/
def insertRecord (records : HeaderRecords) (name : String) (rootId : PageId) :
    Bool × HeaderRecords :=
  match findRecord records name with
  | some _ => (false, records)
  | none => (true, records ++ [(name, rootId)])

/-- `SearchRecord`; it asserts that there are records. -/
def searchRecord (records : HeaderRecords) (name : String) :
    Option (Option PageId) :=
  if records = [] then none
  else
    some ((findRecord records name).bind fun index =>
      (records[index]?).map Prod.snd)

/-- `UpdateRecord`. -/
def updateRecord (records : HeaderRecords) (name : String) (rootId : PageId) :
    Bool × HeaderRecords :=
  match findRecord records name with
  | none => (false, records)
  | some index =>
      (true, records.modify index fun record => (record.1, rootId))

end HeaderRecords

/-! ## What a page holds -/

/-- The members that leaf pages and internal pages share. -/
structure BPlusTreePage where
  isLeafPage : Bool
  size : ℕ
  maxSize : ℕ
  parentPageId : PageId
  pageId : PageId

namespace BPlusTreePage

/-- `IsRootPage`. -/
def isRootPage (page : BPlusTreePage) : Bool :=
  page.parentPageId = INVALID_PAGE_ID

/-- `GetMinSize`. -/
def minSize (page : BPlusTreePage) : ℕ := page.maxSize / 2

end BPlusTreePage

/-- The bytes of a page, read by the page type they were written with. -/
inductive PageData (K V : Type)
  | zero
  | header (records : HeaderRecords)
  | leaf (page : LeafPage K V)
  | internal (page : InternalPage K)

instance : Zero (PageData K V) := ⟨.zero⟩

namespace PageData

/-- A page of zeros is a header page without records. -/
def records : PageData K V → Option HeaderRecords
  | .zero => some []
  | .header records => some records
  | _ => none

/-- The page as a `BPlusTreePage`, if it is a page of the tree. -/
def node : PageData K V → Option BPlusTreePage
  | .leaf page =>
      some
        { isLeafPage := true
          size := page.size
          maxSize := page.maxSize
          parentPageId := page.parentPageId
          pageId := page.pageId }
  | .internal page =>
      some
        { isLeafPage := false
          size := page.size
          maxSize := page.maxSize
          parentPageId := page.parentPageId
          pageId := page.pageId }
  | _ => none

/-- `SetParentPageId` of a node of the tree. -/
def setParentPageId (parentPageId : PageId) : PageData K V → PageData K V
  | .leaf page => .leaf { page with parentPageId := parentPageId }
  | .internal page => .internal { page with parentPageId := parentPageId }
  | data => data

end PageData

end TicketSystem.Database
