import TicketSystem.Database.PageSteps
import TicketSystem.Support.Pieces

/-!
# The shape of a tree

A tree of pages is described row by row, from the leaves up to the root: the
children that the branches of a row refer to, from left to right, are the nodes
of the row below.  A node is described by a bound below its keys, its page id
and its items; its parent is the page that refers to it.
-/

namespace TicketSystem.Database

open TicketSystem.Support

variable {K V : Type}

/-! ## Nodes and references -/

/-- A child as its parent refers to it: the bound below its keys, its page and
the page of the parent. -/
structure Ref (K : Type) where
  low : WithBot K
  pageId : PageId
  parentPageId : PageId

/-- The reference of the item of a page that is not its first. -/
def Ref.ofItem (parentPageId : PageId) (item : K × PageId) : Ref K :=
  ⟨item.1, item.2, parentPageId⟩

/-- The references of the items of a page; the first key of a page is ignored,
and the bound of the page stands for it. -/
def refsOf (low : WithBot K) (parentPageId : PageId) :
    List (K × PageId) → List (Ref K)
  | [] => []
  | item :: items =>
      ⟨low, item.2, parentPageId⟩ :: items.map (Ref.ofItem parentPageId)

structure Leaf (K V : Type) where
  low : WithBot K
  pageId : PageId
  nextPageId : PageId
  array : List (K × V)

structure Branch (K : Type) where
  low : WithBot K
  pageId : PageId
  array : List (K × PageId)

inductive Node (K V : Type)
  | leaf (leaf : Leaf K V)
  | branch (branch : Branch K)

variable (tree : BPlusTreeNTS K)

def Leaf.page (parentPageId : PageId) (leaf : Leaf K V) : LeafPage K V where
  maxSize := tree.leafMaxSize
  parentPageId := parentPageId
  pageId := leaf.pageId
  nextPageId := leaf.nextPageId
  array := leaf.array

def Branch.page (parentPageId : PageId) (branch : Branch K) :
    InternalPage K where
  maxSize := tree.internalMaxSize
  parentPageId := parentPageId
  pageId := branch.pageId
  array := branch.array

/-- The branch with other items. -/
def Branch.withArray (branch : Branch K) (array : List (K × PageId)) :
    Branch K :=
  { branch with array := array }

def Branch.refs (branch : Branch K) : List (Ref K) :=
  refsOf branch.low branch.pageId branch.array

section WithArray

variable (branch : Branch K) (array : List (K × PageId))

@[simp] theorem Branch.low_withArray :
    (branch.withArray array).low = branch.low := rfl

@[simp] theorem Branch.pageId_withArray :
    (branch.withArray array).pageId = branch.pageId := rfl

@[simp] theorem Branch.array_withArray :
    (branch.withArray array).array = array := rfl

@[simp] theorem Branch.size_page (parentPageId : PageId) :
    (branch.page tree parentPageId).size = branch.array.length := rfl

@[simp] theorem Branch.maxSize_page (parentPageId : PageId) :
    (branch.page tree parentPageId).maxSize = tree.internalMaxSize := rfl

end WithArray

namespace Node

def low : Node K V → WithBot K
  | leaf l => l.low
  | branch b => b.low

def pageId : Node K V → PageId
  | leaf l => l.pageId
  | branch b => b.pageId

def size : Node K V → ℕ
  | leaf l => l.array.length
  | branch b => b.array.length

def isLeaf : Node K V → Bool
  | leaf _ => true
  | branch _ => false

def maxSize : Node K V → ℕ
  | leaf _ => tree.leafMaxSize
  | branch _ => tree.internalMaxSize

/-- The children of a node. -/
def refs : Node K V → List (Ref K)
  | leaf _ => []
  | branch b => b.refs

/-- The page of a node. -/
def data (parentPageId : PageId) : Node K V → PageData K V
  | leaf l => .leaf (l.page tree parentPageId)
  | branch b => .internal (b.page tree parentPageId)

@[simp] theorem low_leaf (l : Leaf K V) : (leaf l).low = l.low := rfl

@[simp] theorem low_branch (b : Branch K) :
    (branch b : Node K V).low = b.low := rfl

@[simp] theorem pageId_leaf (l : Leaf K V) : (leaf l).pageId = l.pageId := rfl

@[simp] theorem pageId_branch (b : Branch K) :
    (branch b : Node K V).pageId = b.pageId := rfl

@[simp] theorem refs_leaf (l : Leaf K V) : (leaf l).refs = [] := rfl

@[simp] theorem refs_branch (b : Branch K) :
    (branch b : Node K V).refs = b.refs := rfl

/-- The header of the page of a node. -/
theorem node_data (parentPageId : PageId) (node : Node K V) :
    (node.data tree parentPageId).node =
      some
        { isLeafPage := node.isLeaf
          size := node.size
          maxSize := node.maxSize tree
          parentPageId := parentPageId
          pageId := node.pageId } := by
  cases node <;> rfl

/-- A node that gets another parent. -/
@[simp] theorem setParentPageId_data (p parentPageId : PageId)
    (node : Node K V) :
    (node.data tree p).setParentPageId parentPageId =
      node.data tree parentPageId := by
  cases node <;> rfl

/-- The page of the node is where the reference says and has this parent. -/
structure At (store : PageStore (PageData K V)) (ref : Ref K)
    (node : Node K V) : Prop where
  low_eq : ref.low = node.low
  pageId_eq : ref.pageId = node.pageId
  page_eq : store.page node.pageId =
    some (node.data tree ref.parentPageId)

end Node

/-! ## References in pieces -/

section Refs

variable {low : WithBot K} {parentPageId : PageId}

theorem refsOf_append (before after : List (K × PageId)) (item : K × PageId) :
    refsOf low parentPageId (before ++ item :: after) =
      refsOf low parentPageId before ++
        ⟨if before = [] then low else item.1, item.2, parentPageId⟩ ::
          after.map (Ref.ofItem parentPageId) := by
  cases before with
  | nil => rfl
  | cons first before => simp [refsOf, Ref.ofItem]

theorem refsOf_cons (item : K × PageId) (items : List (K × PageId)) :
    refsOf low parentPageId (item :: items) =
      ⟨low, item.2, parentPageId⟩ :: items.map (Ref.ofItem parentPageId) :=
  rfl

theorem length_refsOf (items : List (K × PageId)) :
    (refsOf low parentPageId items).length = items.length := by
  cases items with
  | nil => rfl
  | cons item items => simp [refsOf]

theorem pageId_mem_refsOf {items : List (K × PageId)} :
    (refsOf low parentPageId items).map Ref.pageId = items.map Prod.snd := by
  cases items with
  | nil => rfl
  | cons item items => simp [refsOf, Ref.ofItem]

theorem parentPageId_of_mem_refsOf {items : List (K × PageId)} {ref : Ref K}
    (h : ref ∈ refsOf low parentPageId items) :
    ref.parentPageId = parentPageId := by
  cases items with
  | nil => cases h
  | cons item items =>
      rcases List.mem_cons.mp h with rfl | h
      · rfl
      · obtain ⟨item', -, rfl⟩ := List.mem_map.mp h
        rfl

/-- A reference of a page comes from an item of the page. -/
theorem exists_pieces_of_refsOf {items : List (K × PageId)}
    {before after : List (Ref K)} {ref : Ref K}
    (h : refsOf low parentPageId items = before ++ ref :: after) :
    ∃ ibefore item iafter, items = ibefore ++ item :: iafter ∧
      before = refsOf low parentPageId ibefore ∧
      ref = ⟨if ibefore = [] then low else item.1, item.2, parentPageId⟩ ∧
      after = iafter.map (Ref.ofItem parentPageId) := by
  have hlen : before.length < items.length := by
    rw [← @length_refsOf K low parentPageId, h]
    simp
  have hsplit : items = items.take before.length ++ items[before.length] ::
      items.drop (before.length + 1) := by
    rw [← List.drop_eq_getElem_cons hlen, List.take_append_drop]
  rw [hsplit, refsOf_append] at h
  have hbefore : (refsOf low parentPageId
      (items.take before.length)).length = before.length := by
    rw [length_refsOf, List.length_take]
    omega
  obtain ⟨h₁, h₂⟩ := List.append_inj h hbefore
  obtain ⟨href, hafter⟩ := List.cons.inj h₂
  exact ⟨_, _, _, hsplit, h₁.symm, href.symm, hafter.symm⟩

end Refs

/-! ## Rows -/

/-- The references into a row from the rows above it; nobody refers to the
root. -/
def refsAbove (rootPageId : PageId) : List (List (Branch K)) → List (Ref K)
  | [] => [⟨⊥, rootPageId, INVALID_PAGE_ID⟩]
  | row :: _ => row.flatMap Branch.refs

/-- The sizes that a branch below the rows `rows` may have. -/
structure Branch.Fits (rows : List (List (Branch K))) (branch : Branch K) :
    Prop where
  lt_maxSize : branch.array.length < tree.internalMaxSize
  le_size : (if rows = [] then 2 else tree.internalMaxSize / 2) ≤
    branch.array.length

section Fits

variable {tree} {rows rows' : List (List (Branch K))} {branch : Branch K}

/-- A branch that has enough items for one that is not the root. -/
theorem Branch.fits_of_le
    (hlt : branch.array.length < tree.internalMaxSize)
    (hle : tree.internalMaxSize / 2 ≤ branch.array.length)
    (hmax : 4 ≤ tree.internalMaxSize) : branch.Fits tree rows := by
  refine ⟨hlt, ?_⟩
  split_ifs
  · omega
  · exact hle

theorem Branch.fits_withRoot (rootPageId : PageId) :
    branch.Fits { tree with rootPageId := rootPageId } rows ↔
      branch.Fits tree rows :=
  ⟨fun h => ⟨h.1, h.2⟩, fun h => ⟨h.1, h.2⟩⟩

/-- Among several branches none is the root. -/
theorem Branch.Fits.of_ne_nil (h : branch.Fits tree rows) (hrows : rows ≠ [])
    (hmax : 4 ≤ tree.internalMaxSize) : branch.Fits tree rows' := by
  have hle := h.le_size
  rw [if_neg hrows] at hle
  exact Branch.fits_of_le h.lt_maxSize hle hmax

end Fits

/-- The rows of branches, from the lowest up to the root, are where they refer
to each other. -/
def Above (store : PageStore (PageData K V)) :
    List (List (Branch K)) → Prop
  | [] => True
  | row :: rows =>
      List.Forall₂ (Node.At tree store) (refsAbove tree.rootPageId rows)
        (row.map Node.branch) ∧
      (∀ branch ∈ row, branch.Fits tree rows) ∧ Above store rows

/-- The page ids of rows of branches. -/
def rowIds (rows : List (List (Branch K))) : List PageId :=
  rows.flatMap fun row => row.map Branch.pageId

/-! ## What the shape depends on -/

section Congr

variable {tree} {store store' : PageStore (PageData K V)}

/-- Nodes stay where they are when their pages do. -/
theorem forall₂_at_congr {refs : List (Ref K)} {nodes : List (Node K V)}
    (h : List.Forall₂ (Node.At tree store) refs nodes)
    (hsame : ∀ node ∈ nodes,
      store'.page node.pageId = store.page node.pageId) :
    List.Forall₂ (Node.At tree store') refs nodes := by
  refine forall₂_imp_of_mem h fun ref node _ hnode hat => ?_
  refine ⟨hat.low_eq, hat.pageId_eq, ?_⟩
  rw [hsame node hnode]
  exact hat.page_eq

/-- The root of the tree does not matter to the nodes. -/
theorem Node.at_withRoot (rootPageId : PageId) {ref : Ref K}
    {node : Node K V} :
    Node.At { tree with rootPageId := rootPageId } store ref node ↔
      Node.At tree store ref node := by
  have hdata : ∀ p, node.data { tree with rootPageId := rootPageId } p =
      node.data tree p := by
    intro p
    cases node <;> rfl
  constructor
  · intro h
    exact ⟨h.low_eq, h.pageId_eq, by rw [h.page_eq, hdata]⟩
  · intro h
    exact ⟨h.low_eq, h.pageId_eq, by rw [h.page_eq, hdata]⟩

theorem forall₂_at_withRoot (rootPageId : PageId) {refs : List (Ref K)}
    {nodes : List (Node K V)} :
    List.Forall₂ (Node.At { tree with rootPageId := rootPageId } store) refs
        nodes ↔
      List.Forall₂ (Node.At tree store) refs nodes := by
  constructor
  · exact fun h => h.imp fun _ _ => (Node.at_withRoot rootPageId).mp
  · exact fun h => h.imp fun _ _ => (Node.at_withRoot rootPageId).mpr

@[simp] theorem mem_rowIds {rows : List (List (Branch K))} {pageId : PageId} :
    pageId ∈ rowIds rows ↔
      ∃ row ∈ rows, ∃ branch ∈ row, branch.pageId = pageId := by
  simp [rowIds]

theorem rowIds_cons (row : List (Branch K)) (rows : List (List (Branch K))) :
    rowIds (row :: rows) = row.map Branch.pageId ++ rowIds rows := rfl

/-- Rows stay where they are when their pages do. -/
theorem Above.congr {rows : List (List (Branch K))}
    (h : Above tree store rows)
    (hsame : ∀ pageId ∈ rowIds rows,
      store'.page pageId = store.page pageId) : Above tree store' rows := by
  induction rows with
  | nil => trivial
  | cons row rows ih =>
      obtain ⟨hrow, hfits, hrest⟩ := h
      rw [rowIds_cons] at hsame
      refine ⟨forall₂_at_congr hrow ?_, hfits, ih hrest ?_⟩
      · intro node hnode
        obtain ⟨branch, hbranch, rfl⟩ := List.mem_map.mp hnode
        exact hsame _ (List.mem_append_left _ (List.mem_map_of_mem hbranch))
      · exact fun pageId hmem => hsame pageId (List.mem_append_right _ hmem)

/-- The nodes of a row are on pages that exist. -/
theorem isSome_of_at {refs : List (Ref K)} {nodes : List (Node K V)}
    (h : List.Forall₂ (Node.At tree store) refs nodes) {node : Node K V}
    (hnode : node ∈ nodes) : (store.page node.pageId).isSome := by
  obtain ⟨ref, -, hat⟩ := exists_of_forall₂_right h hnode
  rw [hat.page_eq]
  rfl

theorem Above.isSome {rows : List (List (Branch K))}
    (h : Above tree store rows) {pageId : PageId}
    (hmem : pageId ∈ rowIds rows) : (store.page pageId).isSome := by
  induction rows with
  | nil => simp [rowIds] at hmem
  | cons row rows ih =>
      obtain ⟨hrow, -, hrest⟩ := h
      rw [rowIds_cons] at hmem
      rcases List.mem_append.mp hmem with hmem | hmem
      · obtain ⟨branch, hbranch, rfl⟩ := List.mem_map.mp hmem
        exact isSome_of_at hrow (List.mem_map_of_mem hbranch)
      · exact ih hrest hmem

/-- The reference from another parent. -/
def Ref.setParentPageId (parentPageId : PageId) (ref : Ref K) : Ref K :=
  { ref with parentPageId := parentPageId }

/-- Nodes that get another parent. -/
theorem forall₂_at_setParentPageId {refs : List (Ref K)}
    {nodes : List (Node K V)} (parentPageId : PageId)
    (h : List.Forall₂ (Node.At tree store) refs nodes)
    (hset : ∀ node ∈ nodes, store'.page node.pageId =
      (store.page node.pageId).map
        (PageData.setParentPageId parentPageId)) :
    List.Forall₂ (Node.At tree store')
      (refs.map (Ref.setParentPageId parentPageId)) nodes := by
  rw [List.forall₂_map_left_iff]
  refine forall₂_imp_of_mem h fun ref node _ hnode hat => ?_
  refine ⟨hat.low_eq, hat.pageId_eq, ?_⟩
  rw [hset node hnode, hat.page_eq, Option.map_some,
    Node.setParentPageId_data]
  rfl

theorem pageId_eq_of_at {refs : List (Ref K)} {nodes : List (Node K V)}
    (h : List.Forall₂ (Node.At tree store) refs nodes) :
    refs.map Ref.pageId = nodes.map Node.pageId := by
  induction h with
  | nil => rfl
  | cons hat _ ih => rw [List.map_cons, List.map_cons, hat.pageId_eq, ih]

/-- Some of the nodes get another parent, and the others stay as they are. -/
theorem forall₂_at_move {refs₁ refs₂ refs₃ : List (Ref K)}
    {nodes : List (Node K V)} (parentPageId : PageId)
    (h : List.Forall₂ (Node.At tree store) (refs₁ ++ (refs₂ ++ refs₃)) nodes)
    (hnodup : (nodes.map Node.pageId).Nodup)
    (hset : ∀ pageId ∈ refs₂.map Ref.pageId, store'.page pageId =
      (store.page pageId).map (PageData.setParentPageId parentPageId))
    (hother : ∀ node ∈ nodes, node.pageId ∉ refs₂.map Ref.pageId →
      store'.page node.pageId = store.page node.pageId) :
    List.Forall₂ (Node.At tree store')
      (refs₁ ++ (refs₂.map (Ref.setParentPageId parentPageId) ++ refs₃))
      nodes := by
  obtain ⟨nodes₁, nodes', rfl, h₁, h'⟩ := forall₂_append_left h
  obtain ⟨nodes₂, nodes₃, rfl, h₂, h₃⟩ := forall₂_append_left h'
  rw [List.map_append, List.map_append, List.nodup_append,
    List.nodup_append] at hnodup
  obtain ⟨-, ⟨-, -, hright⟩, hleft⟩ := hnodup
  rw [pageId_eq_of_at h₂] at hset hother
  refine List.rel_append (forall₂_at_congr h₁ ?_) (List.rel_append
    (forall₂_at_setParentPageId _ h₂ ?_) (forall₂_at_congr h₃ ?_))
  · intro node hnode
    refine hother node (List.mem_append_left _ hnode) fun hmem => ?_
    exact hleft _ (List.mem_map_of_mem hnode) _
      (List.mem_append_left _ hmem) rfl
  · exact fun node hnode => hset _ (List.mem_map_of_mem hnode)
  · intro node hnode
    refine hother node (List.mem_append_right _
      (List.mem_append_right _ hnode)) fun hmem => ?_
    exact hright _ hmem _ (List.mem_map_of_mem hnode) rfl

end Congr

/-! ## Nodes below rows -/

/-- The page ids of nodes and of the rows above them. -/
def levelIds (nodes : List (Node K V)) (rows : List (List (Branch K))) :
    List PageId :=
  nodes.map Node.pageId ++ rowIds rows

/-- The nodes are the children of the lowest row, each on a page of its
own. -/
structure Stands (store : PageStore (PageData K V)) (nodes : List (Node K V))
    (rows : List (List (Branch K))) : Prop where
  nodes_at : List.Forall₂ (Node.At tree store)
    (refsAbove tree.rootPageId rows) nodes
  above : Above tree store rows
  nodup : (levelIds nodes rows).Nodup
  header : HEADER_PAGE_ID ∉ levelIds nodes rows

/-- Nodes stand below rows, and other nodes are their children. -/
structure Level (store : PageStore (PageData K V))
    (below nodes : List (Node K V)) (rows : List (List (Branch K))) :
    Prop where
  stands : Stands tree store nodes rows
  below_at : List.Forall₂ (Node.At tree store) (nodes.flatMap Node.refs)
    below
  below_nodup : (below.map Node.pageId).Nodup
  disjoint : ∀ node ∈ below, node.pageId ∉ levelIds nodes rows
  below_header : ∀ node ∈ below, node.pageId ≠ HEADER_PAGE_ID

/-- What an operation that ends without pins of its own does, if it works on
the pages `ids` of the tree. -/
structure Steps (store : PageStore (PageData K V)) (ids : List PageId)
    (tree' : BPlusTreeNTS K) (store' : PageStore (PageData K V)) :
    Prop where
  tree_eq : tree' = { tree with rootPageId := tree'.rootPageId }
  touches : store.Touches ids store'
  bounded : store'.Bounded
  owed_eq : store'.owed = ∅
  record_self : store'.record tree.indexName = some tree'.rootPageId
  record_eq : ∀ name, name ≠ tree.indexName →
    store'.record name = store.record name

/-- The place of a node among the items of its parent: the items before it
refer to the nodes before it, and the items behind it to the nodes behind
it. -/
structure Place (store : PageStore (PageData K V))
    (before : List (Node K V)) (node : Node K V) (after : List (Node K V))
    (row₁ : List (Branch K)) (parent : Branch K) (row₂ : List (Branch K))
    (items₁ : List (K × PageId)) (item : K × PageId)
    (items₂ : List (K × PageId)) : Prop where
  array_eq : parent.array = items₁ ++ item :: items₂
  before_at : List.Forall₂ (Node.At tree store)
    (row₁.flatMap Branch.refs ++ refsOf parent.low parent.pageId items₁)
    before
  node_at : Node.At tree store
    ⟨if items₁ = [] then parent.low else item.1, item.2, parent.pageId⟩ node
  after_at : List.Forall₂ (Node.At tree store)
    (items₂.map (Ref.ofItem parent.pageId) ++ row₂.flatMap Branch.refs) after

section Stands

variable {tree} {store : PageStore (PageData K V)} {nodes : List (Node K V)}
  {row : List (Branch K)} {rows : List (List (Branch K))}

theorem Stands.isSome (h : Stands tree store nodes rows) {pageId : PageId}
    (hmem : pageId ∈ levelIds nodes rows) : (store.page pageId).isSome := by
  rcases List.mem_append.mp hmem with hmem | hmem
  · obtain ⟨node, hnode, rfl⟩ := List.mem_map.mp hmem
    exact isSome_of_at h.nodes_at hnode
  · exact h.above.isSome hmem

theorem levelIds_cons :
    levelIds nodes (row :: rows) =
      nodes.map Node.pageId ++
        levelIds (row.map (Node.branch : Branch K → Node K V)) rows := by
  rw [levelIds, levelIds, rowIds_cons, List.map_map]
  rfl

/-- The branches of the lowest row stand below the other rows. -/
theorem Stands.branches (h : Stands tree store nodes (row :: rows)) :
    Stands tree store (row.map Node.branch) rows := by
  have hnodup := h.nodup
  have hheader := h.header
  rw [levelIds_cons] at hnodup hheader
  exact ⟨h.above.1, h.above.2.2, (List.nodup_append.mp hnodup).2.1,
    fun hmem => hheader (List.mem_append_right _ hmem)⟩

theorem Stands.congr {store' : PageStore (PageData K V)}
    (h : Stands tree store nodes rows)
    (hsame : ∀ pageId ∈ levelIds nodes rows,
      store'.page pageId = store.page pageId) :
    Stands tree store' nodes rows where
  nodes_at := forall₂_at_congr h.nodes_at fun _ hnode =>
    hsame _ (List.mem_append_left _ (List.mem_map_of_mem hnode))
  above := h.above.congr fun _ hmem => hsame _ (List.mem_append_right _ hmem)
  nodup := h.nodup
  header := h.header

/-- The page ids when a node is added. -/
theorem levelIds_insert (before after : List (Node K V)) (old new : Node K V) :
    (levelIds (before ++ old :: new :: after) rows).Perm
      (new.pageId :: levelIds (before ++ old :: after) rows) := by
  have hperm := @List.perm_middle _ new.pageId
    (before.map Node.pageId ++ [old.pageId])
    (after.map Node.pageId ++ rowIds rows)
  simpa [levelIds] using hperm

/-- A child of one of the nodes is a node below them. -/
theorem Level.exists_below {below : List (Node K V)}
    (h : Level tree store below nodes rows) {node : Node K V}
    (hnode : node ∈ nodes) {ref : Ref K} (href : ref ∈ node.refs) :
    ∃ child ∈ below, Node.At tree store ref child :=
  exists_of_forall₂_left h.below_at (List.mem_flatMap.mpr ⟨node, hnode, href⟩)

theorem Level.isSome_ref {below : List (Node K V)}
    (h : Level tree store below nodes rows) {node : Node K V}
    (hnode : node ∈ nodes) {ref : Ref K} (href : ref ∈ node.refs) :
    (store.page ref.pageId).isSome := by
  obtain ⟨child, -, hat⟩ := h.exists_below hnode href
  rw [hat.pageId_eq, hat.page_eq]
  rfl

theorem Level.ref_notMem {below : List (Node K V)}
    (h : Level tree store below nodes rows) {node : Node K V}
    (hnode : node ∈ nodes) {pageId : PageId}
    (hmem : pageId ∈ node.refs.map Ref.pageId) :
    pageId ∉ levelIds nodes rows := by
  obtain ⟨ref, href, rfl⟩ := List.mem_map.mp hmem
  obtain ⟨child, hchild, hat⟩ := h.exists_below hnode href
  rw [hat.pageId_eq]
  exact h.disjoint child hchild

theorem flatMap_refs_branch :
    (row.map (Node.branch : Branch K → Node K V)).flatMap Node.refs =
      row.flatMap Branch.refs := by
  rw [List.flatMap_map]
  rfl

/-- Nodes stand below a row that stands below the others. -/
theorem Level.stands_below
    (h : Level tree store nodes
      (row.map (Node.branch : Branch K → Node K V)) rows)
    (hfits : ∀ branch ∈ row, branch.Fits tree rows) :
    Stands tree store nodes (row :: rows) := by
  refine ⟨?_, ⟨h.stands.nodes_at, hfits, h.stands.above⟩, ?_, ?_⟩
  · have hbelow := h.below_at
    rwa [flatMap_refs_branch] at hbelow
  · rw [levelIds_cons, List.nodup_append]
    refine ⟨h.below_nodup, h.stands.nodup, ?_⟩
    rintro pageId hmem _ hmem' rfl
    obtain ⟨node, hnode, rfl⟩ := List.mem_map.mp hmem
    exact h.disjoint node hnode hmem'
  · rw [levelIds_cons, List.mem_append]
    rintro (hmem | hmem)
    · obtain ⟨node, hnode, heq⟩ := List.mem_map.mp hmem
      exact h.below_header node hnode heq
    · exact h.stands.header hmem

/-- One node gets other items. -/
theorem Stands.update {store' : PageStore (PageData K V)}
    {before after : List (Node K V)} {node node' : Node K V}
    (h : Stands tree store (before ++ node :: after) rows)
    (hlow : node'.low = node.low) (hid : node'.pageId = node.pageId)
    (hpage : ∀ parentPageId,
      store.page node.pageId = some (node.data tree parentPageId) →
        store'.page node.pageId = some (node'.data tree parentPageId))
    (hother : ∀ pageId ∈ levelIds (before ++ node :: after) rows,
      pageId ≠ node.pageId → store'.page pageId = store.page pageId) :
    Stands tree store' (before ++ node' :: after) rows := by
  have hids : levelIds (before ++ node' :: after) rows =
      levelIds (before ++ node :: after) rows := by
    simp [levelIds, hid]
  have hnodup := h.nodup
  rw [levelIds, List.map_append, List.map_cons, List.append_assoc,
    List.cons_append, List.nodup_middle, List.nodup_cons] at hnodup
  have hne : ∀ pageId, pageId ∈ before.map Node.pageId ∨
      pageId ∈ after.map Node.pageId ∨ pageId ∈ rowIds rows →
        store'.page pageId = store.page pageId := by
    intro pageId hmem
    apply hother
    · simp only [levelIds, List.map_append, List.map_cons, List.mem_append,
        List.mem_cons]
      tauto
    · rintro rfl
      exact hnodup.1 (by simpa [or_assoc] using hmem)
  obtain ⟨refs₁, ref, refs₂, hrefs, hbefore, hat, hafter⟩ :=
    forall₂_pieces_right h.nodes_at
  refine ⟨?_, ?_, hids ▸ h.nodup, hids ▸ h.header⟩
  · rw [hrefs]
    refine List.rel_append (forall₂_at_congr hbefore ?_)
      (.cons ⟨?_, ?_, ?_⟩ (forall₂_at_congr hafter ?_))
    · exact fun n hn => hne _ (Or.inl (List.mem_map_of_mem hn))
    · rw [hat.low_eq, hlow]
    · rw [hat.pageId_eq, hid]
    · rw [hid]
      exact hpage _ hat.page_eq
    · exact fun n hn => hne _ (Or.inr (Or.inl (List.mem_map_of_mem hn)))
  · exact h.above.congr fun pageId hmem => hne _ (Or.inr (Or.inr hmem))

/-- Without rows the only node is the root. -/
theorem Stands.root (h : Stands tree store nodes []) :
    ∃ node, nodes = [node] ∧
      Node.At tree store ⟨⊥, tree.rootPageId, INVALID_PAGE_ID⟩ node := by
  obtain ⟨node, nodes', hat, hrest, rfl⟩ :=
    List.forall₂_cons_left_iff.mp h.nodes_at
  rw [List.forall₂_nil_left_iff.mp hrest]
  exact ⟨node, rfl, hat⟩

/-- The nodes below a row and the row make a level. -/
theorem Stands.level (h : Stands tree store nodes (row :: rows)) :
    Level tree store nodes
      (row.map (Node.branch : Branch K → Node K V)) rows := by
  have hnodup := h.nodup
  rw [levelIds_cons] at hnodup
  refine ⟨h.branches, ?_, (List.nodup_append.mp hnodup).1, ?_, ?_⟩
  · rw [flatMap_refs_branch]
    exact h.nodes_at
  · intro node hnode hmem
    exact (List.nodup_append.mp hnodup).2.2 _ (List.mem_map_of_mem hnode) _
      hmem rfl
  · intro node hnode heq
    apply h.header
    rw [← heq]
    exact List.mem_append_left _ (List.mem_map_of_mem hnode)

/-- Several nodes need a row above them. -/
theorem Stands.rows_ne_nil (h : Stands tree store nodes rows)
    (hlength : 2 ≤ nodes.length) : rows ≠ [] := by
  rintro rfl
  obtain ⟨node, rfl, -⟩ := h.root
  rw [List.length_singleton] at hlength
  omega

/-- A node below a row is a child of one of its branches. -/
theorem Stands.exists_place {before after : List (Node K V)}
    {node : Node K V}
    (h : Stands tree store (before ++ node :: after) (row :: rows)) :
    ∃ (row₁ : List (Branch K)) (parent : Branch K) (row₂ : List (Branch K))
        (items₁ : List (K × PageId)) (item : K × PageId)
        (items₂ : List (K × PageId)),
      row = row₁ ++ parent :: row₂ ∧
        Place tree store before node after row₁ parent row₂ items₁ item
          items₂ := by
  obtain ⟨refs₁, ref, refs₂, hrefs, hbefore, hnode, hafter⟩ :=
    forall₂_pieces_right h.nodes_at
  obtain ⟨row₁, parent, row₂, refs₃, refs₄, rfl, hparent, rfl, rfl⟩ :=
    exists_pieces_of_flatMap hrefs
  obtain ⟨items₁, item, items₂, harray, rfl, rfl, rfl⟩ :=
    exists_pieces_of_refsOf hparent
  exact ⟨row₁, parent, row₂, items₁, item, items₂, rfl, harray, hbefore,
    hnode, hafter⟩

/-- The nodes are not among the branches. -/
theorem Stands.notMem_rowIds (h : Stands tree store nodes rows)
    {node : Node K V} (hnode : node ∈ nodes) :
    node.pageId ∉ rowIds rows := fun hmem =>
  (List.nodup_append.mp h.nodup).2.2 _ (List.mem_map_of_mem hnode) _ hmem rfl

/-- Siblings and their parent are three pages. -/
theorem Stands.siblings_ne {before after : List (Node K V)} {x y : Node K V}
    {row₁ row₂ : List (Branch K)} {parent : Branch K}
    (h : Stands tree store (before ++ x :: y :: after)
      ((row₁ ++ parent :: row₂) :: rows)) :
    x.pageId ≠ y.pageId ∧ x.pageId ≠ parent.pageId ∧
      y.pageId ≠ parent.pageId := by
  have hparent : parent.pageId ∈
      rowIds ((row₁ ++ parent :: row₂) :: rows) := by
    simp [rowIds_cons]
  have hnodup := (List.nodup_append.mp h.nodup).1
  rw [List.map_append, List.map_cons, List.map_cons,
    List.nodup_append] at hnodup
  refine ⟨fun heq => ?_, fun heq => ?_, fun heq => ?_⟩
  · apply (List.nodup_cons.mp hnodup.2.1).1
    rw [heq]
    exact List.mem_cons_self
  · exact h.notMem_rowIds (by simp) (heq ▸ hparent)
  · exact h.notMem_rowIds (by simp) (heq ▸ hparent)

/-- The items before the one of a node refer to other nodes. -/
theorem Stands.item_ne {before after : List (Node K V)} {node : Node K V}
    {row₁ row₂ : List (Branch K)} {parent : Branch K}
    {items₁ items₂ : List (K × PageId)} {item : K × PageId}
    (h : Stands tree store (before ++ node :: after) rows)
    (hplace : Place tree store before node after row₁ parent row₂ items₁ item
      items₂) : ∀ i ∈ items₁, i.2 ≠ item.2 := by
  intro i hi heq
  have hids := pageId_eq_of_at hplace.before_at
  rw [List.map_append, pageId_mem_refsOf] at hids
  have hmem : i.2 ∈ before.map Node.pageId := by
    rw [← hids]
    exact List.mem_append_right _ (List.mem_map_of_mem hi)
  have hnodup := (List.nodup_append.mp h.nodup).1
  rw [List.map_append, List.map_cons] at hnodup
  exact (List.nodup_append.mp hnodup).2.2 _ hmem _ List.mem_cons_self
    (heq.trans hplace.node_at.pageId_eq)

/-- The page of a branch. -/
theorem Stands.exists_page
    (h : Stands tree store nodes (row :: rows)) {branch : Branch K}
    (hbranch : branch ∈ row) :
    ∃ grandparent, store.page branch.pageId =
      some (.internal (branch.page tree grandparent)) := by
  obtain ⟨ref, -, hat⟩ :=
    exists_of_forall₂_right h.above.1 (List.mem_map_of_mem hbranch)
  exact ⟨ref.parentPageId, hat.page_eq⟩

end Stands

end TicketSystem.Database
