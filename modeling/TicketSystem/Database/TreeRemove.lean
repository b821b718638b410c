import TicketSystem.Database.TreeBalance

/-!
# Merges on the way up

`CoalesceOrRedistribute` at a node that has lost an item: it is merged with a
node beside it, and then their parent is looked at in the same way, or an item
moves over from the node beside it.  A root with a single child is replaced by
the child.
-/

namespace TicketSystem.Database

open TicketSystem.Support

variable {K V : Type}

variable {frames : ℕ} {store : PageStore (PageData K V)}
  {tree : BPlusTreeNTS K}

/-! ## Two siblings and their parent -/

section Step

variable {below before after : List (Node K V)} {x y : Node K V}
  {row₁ row₂ : List (Branch K)} {parent : Branch K}
  {rows : List (List (Branch K))} {items₁ items₂ : List (K × PageId)}
  {left right : K × PageId} {base : Multiset PageId}
  {Q : Unit → PageStore (PageData K V) → Prop}

theorem does_coalesceOrdered {x' : Node K V}
    (hlevel : Level tree store below (before ++ x :: y :: after)
      ((row₁ ++ parent :: row₂) :: rows))
    (hsiblings : Siblings tree store before x y after row₁ parent row₂ items₁
      left right items₂)
    (hmerge : Node.Merge right.1 x y x')
    (hsize : x.size + y.size ≤ x.maxSize tree) (hpos : 0 < x.size)
    (hpins : store.pins = x.pageId ::ₘ y.pageId ::ₘ parent.pageId ::ₘ base)
    (howed : store.owed ⊆ {x.pageId, y.pageId})
    (hroom : base.toFinset.card + 4 ≤ frames)
    (hQ : ∀ store', Rebalanced tree store below (before ++ x' :: after)
      (row₁ ++ parent.withArray (items₁ ++ left :: items₂) :: row₂) rows
      (below.map Node.pageId ++ levelIds (before ++ x :: y :: after)
        ((row₁ ++ parent :: row₂) :: rows)) store' →
      store'.pins = parent.pageId ::ₘ base →
      store'.owed ⊆ {parent.pageId} → Q () store') :
    Does frames (BPlusTreeNTS.coalesceOrdered x.pageId y.pageId
      parent.pageId (items₁.length + 1)) store Q := by
  obtain ⟨grandparent, hparent⟩ := hlevel.stands.exists_page
    (List.mem_append_right row₁ List.mem_cons_self)
  have hxmem : x ∈ before ++ x :: y :: after := by simp
  have hymem : y ∈ before ++ x :: y :: after := by simp
  obtain ⟨hne, hxp, hyp⟩ := hlevel.stands.siblings_ne
  refine Program.ends_bind (does_getInternal ?_ hparent ?_)
  · simp [hpins]
  refine Program.ends_bind (does_orStop hsiblings.keyAt_eq ?_)
  refine Program.ends_bind (does_mergeInto hmerge hsiblings.left_at.page_eq
    hsiblings.right_at.page_eq ?_ ?_ hne ?_ ?_ ?_ hsize ?_ ?_)
  · simp [hpins]
  · simp [hpins]
  · exact fun ref href => hlevel.isSome_ref hymem href
  · intro hmem
    exact hlevel.ref_notMem hymem hmem (by simp [levelIds])
  · intro hmem
    exact hlevel.ref_notMem hymem hmem (by simp [levelIds])
  · have hcard := PageStore.card_cons_three_le base x.pageId y.pageId
      parent.pageId
    rw [hpins]
    omega
  intro store₁ data node hnode hnodeId hmoves
  rw [hsiblings.remove_eq]
  refine Program.ends_bind (does_setData ?_ ?_)
  · simp [hmoves.pins_eq, hpins]
  refine Program.ends_bind (does_getNode ?_
    ((Function.update_of_ne hxp _ _).trans hmoves.left_eq)
    (Node.node_data _ _ _) ?_)
  · simp [hmoves.pins_eq, hpins]
  refine Program.ends_bind (does_unpinPage ?_ (fun h => by cases h) ?_)
  · simp [hmoves.pins_eq, hpins, hmerge.pageId_eq]
  refine Program.ends_bind (does_getNode ?_
    ((Function.update_of_ne hyp _ _).trans hmoves.right_eq) hnode ?_)
  · simp [hmoves.pins_eq, hpins, hmerge.pageId_eq]
  refine does_unpinPage ?_ (fun h => by cases h) ?_
  · simp [hmoves.pins_eq, hpins, hmerge.pageId_eq, hnodeId]
  apply hQ
  · exact Moves.merged hmerge hmoves hlevel hsiblings hparent rfl rfl hpos
  · simp [hmoves.pins_eq, hpins, hmerge.pageId_eq, hnodeId]
  · intro pageId hmem
    have hmem₁ := @hmoves.owed_subset pageId
    have hmem₂ := @howed pageId
    simp [hmerge.pageId_eq, hnodeId] at hmem hmem₁ hmem₂ ⊢
    tauto

theorem does_redistribute {x' y' node neighbor : Node K V} {index : ℕ}
    {key : K}
    (hlevel : Level tree store below (before ++ x :: y :: after)
      ((row₁ ++ parent :: row₂) :: rows))
    (hsiblings : Siblings tree store before x y after row₁ parent row₂ items₁
      left right items₂)
    (hshift : Node.ShiftLeft right.1 x y x' y' key ∧ index = 0 ∧ node = x ∧
      neighbor = y ∨ Node.ShiftRight right.1 x y x' y' key ∧ index = 1 ∧
        node = y ∧ neighbor = x)
    (hpos : 0 < x.size) (hsize : neighbor = x → 2 ≤ x.size)
    (hpins : store.pins = x.pageId ::ₘ y.pageId ::ₘ parent.pageId ::ₘ base)
    (howed : store.owed ⊆ {x.pageId, y.pageId})
    (hroom : base.toFinset.card + 4 ≤ frames)
    (hQ : ∀ store', Rebalanced tree store below (before ++ x' :: y' :: after)
      (row₁ ++ parent.withArray
        (items₁ ++ left :: (key, right.2) :: items₂) :: row₂) rows
      (below.map Node.pageId ++ levelIds (before ++ x :: y :: after)
        ((row₁ ++ parent :: row₂) :: rows)) store' →
      store'.pins = parent.pageId ::ₘ base → store'.owed = ∅ →
      Q () store') :
    Does frames (BPlusTreeNTS.redistribute neighbor.pageId node.pageId index)
      store Q := by
  obtain ⟨grandparent, hparent⟩ := hlevel.stands.exists_page
    (List.mem_append_right row₁ List.mem_cons_self)
  obtain ⟨hne, hxp, hyp⟩ := hlevel.stands.siblings_ne
  have hxmem : x ∈ before ++ x :: y :: after := by simp
  have hymem : y ∈ before ++ x :: y :: after := by simp
  have hboth : node = x ∧ neighbor = y ∨ node = y ∧ neighbor = x := by
    tauto
  have hx := hsiblings.left_at.page_eq
  have hy := hsiblings.right_at.page_eq
  have hnode : store.page node.pageId =
      some (node.data tree parent.pageId) := by
    rcases hboth with ⟨rfl, -⟩ | ⟨rfl, -⟩
    · exact hx
    · exact hy
  refine Program.ends_bind (does_getNode ?_ hnode (Node.node_data _ _ _) ?_)
  · rcases hboth with ⟨rfl, -⟩ | ⟨rfl, -⟩ <;> simp [hpins]
  refine Program.ends_bind (does_fetchPage hparent ?_ ?_)
  · left
    simp [hpins]
  refine Program.ends_bind (does_getInternal (Multiset.mem_cons_self _ _)
    hparent ?_)
  have hchild : (if index = 0 then neighbor.pageId else node.pageId) =
      y.pageId := by
    rcases hshift with ⟨-, rfl, -, rfl⟩ | ⟨-, rfl, rfl, -⟩ <;> rfl
  rw [hchild]
  refine Program.ends_bind (does_getNode ?_ hy (Node.node_data _ _ _) ?_)
  · simp [hpins]
  refine Program.ends_bind
    (does_orStop (hsiblings.valueIndex_eq hlevel.stands).2 ?_)
  refine Program.ends_bind (does_orStop hsiblings.keyAt_eq ?_)
  refine Program.ends_bind (does_moveItem hshift hx hy ?_ ?_ hne ?_ ?_ ?_
    hsiblings.right_at.low_eq.symm hpos hsize ?_ ?_)
  · simp [hpins]
  · simp [hpins]
  · intro ref href
    rcases List.mem_append.mp href with href | href
    · exact hlevel.isSome_ref hxmem href
    · exact hlevel.isSome_ref hymem href
  · rw [List.map_append, List.mem_append]
    rintro (hmem | hmem)
    · exact hlevel.ref_notMem hxmem hmem (by simp [levelIds])
    · exact hlevel.ref_notMem hymem hmem (by simp [levelIds])
  · rw [List.map_append, List.mem_append]
    rintro (hmem | hmem)
    · exact hlevel.ref_notMem hxmem hmem (by simp [levelIds])
    · exact hlevel.ref_notMem hymem hmem (by simp [levelIds])
  · have hcard := PageStore.card_cons_three_le base x.pageId y.pageId
      parent.pageId
    have hin : parent.pageId ∈ store.pins.toFinset := by simp [hpins]
    rw [PageStore.pin_pins, Multiset.toFinset_cons,
      Finset.insert_eq_of_mem hin, hpins]
    omega
  intro store₁ refs₁ refs₂ refs₃ newParent hmoves hrefs hrefs'
  have hids : x'.low = x.low ∧ x'.pageId = x.pageId ∧ y'.low = key ∧
      y'.pageId = y.pageId := by
    rcases hshift with ⟨hshift, -⟩ | ⟨hshift, -⟩
    · exact hshift.ids_eq
    · exact hshift.ids_eq
  obtain ⟨-, hidx, -, hidy⟩ := id hids
  rw [hsiblings.setKeyAt_eq]
  refine Program.ends_bind (does_setData ?_ ?_)
  · simp [hmoves.pins_eq]
  obtain ⟨node', neighbor', hnode', hneighbor', hnodeId, hneighborId⟩ :
      ∃ node' neighbor' : Node K V,
        store₁.page node.pageId = some (node'.data tree parent.pageId) ∧
        store₁.page neighbor.pageId =
          some (neighbor'.data tree parent.pageId) ∧
        node'.pageId = node.pageId ∧ neighbor'.pageId = neighbor.pageId := by
    rcases hboth with ⟨rfl, rfl⟩ | ⟨rfl, rfl⟩
    · exact ⟨x', y', hmoves.left_eq, hmoves.right_eq, hidx, hidy⟩
    · exact ⟨y', x', hmoves.right_eq, hmoves.left_eq, hidy, hidx⟩
  have hpins₁ : store₁.pins = node.pageId ::ₘ neighbor.pageId ::ₘ
      parent.pageId ::ₘ parent.pageId ::ₘ base := by
    rw [hmoves.pins_eq, PageStore.pin_pins, hpins,
      Multiset.cons_swap parent.pageId, Multiset.cons_swap parent.pageId]
    rcases hboth with ⟨rfl, rfl⟩ | ⟨rfl, rfl⟩
    · rfl
    · exact Multiset.cons_swap _ _ _
  have howed₁ : store₁.owed ⊆ {node.pageId, neighbor.pageId} := by
    intro pageId hmem
    have hmem₁ := hmoves.owed_subset hmem
    have hmem₂ := @howed pageId
    simp only [PageStore.pin_owed, Finset.mem_insert, Finset.mem_singleton]
      at hmem₁ hmem₂ ⊢
    rcases hboth with ⟨rfl, rfl⟩ | ⟨rfl, rfl⟩
    · exact hmem₁.elim Or.inl fun h => h.elim Or.inr hmem₂
    · exact (hmem₁.elim Or.inl fun h => h.elim Or.inr hmem₂).symm
  have hnodeNe : node.pageId ≠ parent.pageId := by
    rcases hboth with ⟨rfl, -⟩ | ⟨rfl, -⟩
    · exact hxp
    · exact hyp
  have hneighborNe : neighbor.pageId ≠ parent.pageId := by
    rcases hboth with ⟨-, rfl⟩ | ⟨-, rfl⟩
    · exact hyp
    · exact hxp
  refine Program.ends_bind (does_getNode ?_
    ((Function.update_of_ne hnodeNe _ _).trans hnode') (Node.node_data _ _ _)
    ?_)
  · simp [hpins₁]
  refine Program.ends_bind (does_unpinPage ?_ (fun h => by cases h) ?_)
  · simp [hpins₁, hnodeId]
  refine Program.ends_bind (does_getNode ?_
    ((Function.update_of_ne hneighborNe _ _).trans hneighbor')
    (Node.node_data _ _ _) ?_)
  · simp [hpins₁, hnodeId]
  refine Program.ends_bind (does_unpinPage ?_ (fun h => by cases h) ?_)
  · simp [hpins₁, hnodeId, hneighborId]
  refine does_unpinPage ?_ (fun h => by cases h) ?_
  · simp [hpins₁, hnodeId, hneighborId, Branch.page]
  apply hQ
  · exact hmoves.of_pin.shifted hlevel hsiblings hparent rfl rfl hids hrefs
      hrefs'
  · simp [hpins₁, hnodeId, hneighborId, Branch.page]
  · rw [Finset.eq_empty_iff_forall_notMem]
    intro pageId hmem
    have hmem₁ := @howed₁ pageId
    simp [hnodeId, hneighborId, Branch.page] at hmem hmem₁
    obtain ⟨hparent', hneighbor', hnode', hor⟩ := hmem
    exact (hmem₁ (hor.resolve_left hparent')).elim hnode' hneighbor'

end Step

/-! ## A node with too few items -/

namespace Node

/-- The size that the nodes of a row have, apart from the root. -/
structure Sized (tree : BPlusTreeNTS K) (isLeaf : Bool)
    (node : Node K V) : Prop where
  isLeaf_eq : node.isLeaf = isLeaf
  le_size : node.maxSize tree / 2 ≤ node.size
  size_lt : node.size < node.maxSize tree

theorem maxSize_eq {x y : Node K V} (h : x.isLeaf = y.isLeaf) :
    x.maxSize tree = y.maxSize tree := by
  cases x <;> cases y <;> first | rfl | cases h

/-- How a row changes where a node has too few items: two nodes are merged, or
an item moves between them. -/
inductive Balances : List (Node K V) → List (Node K V) → Prop
  | merge (before after : List (Node K V)) (x y x' : Node K V) (key : K)
      (hmerge : Merge key x y x') (hlow : y.low = key) :
      Balances (before ++ x :: y :: after) (before ++ x' :: after)
  | shiftLeft (before after : List (Node K V)) (x y x' y' : Node K V)
      (key key' : K) (hshift : ShiftLeft key x y x' y' key')
      (hlow : y.low = key) :
      Balances (before ++ x :: y :: after) (before ++ x' :: y' :: after)
  | shiftRight (before after : List (Node K V)) (x y x' y' : Node K V)
      (key key' : K) (hshift : ShiftRight key x y x' y' key')
      (hlow : y.low = key) :
      Balances (before ++ x :: y :: after) (before ++ x' :: y' :: after)

end Node

theorem Level.congr {below nodes : List (Node K V)}
    {rows : List (List (Branch K))} {store' : PageStore (PageData K V)}
    (h : Level tree store below nodes rows)
    (hpage : store'.page = store.page) :
    Level tree store' below nodes rows where
  stands := h.stands.congr fun pageId _ => by rw [hpage]
  below_at := forall₂_at_congr h.below_at fun _ _ => by rw [hpage]
  below_nodup := h.below_nodup
  disjoint := h.disjoint
  below_header := h.below_header

theorem Siblings.congr {before after : List (Node K V)} {x y : Node K V}
    {row₁ row₂ : List (Branch K)} {parent : Branch K}
    {items₁ items₂ : List (K × PageId)} {left right : K × PageId}
    {store' : PageStore (PageData K V)}
    (h : Siblings tree store before x y after row₁ parent row₂ items₁ left
      right items₂) (hpage : store'.page = store.page) :
    Siblings tree store' before x y after row₁ parent row₂ items₁ left right
      items₂ where
  array_eq := h.array_eq
  before_at := forall₂_at_congr h.before_at fun _ _ => by rw [hpage]
  left_at := ⟨h.left_at.low_eq, h.left_at.pageId_eq, by
    rw [hpage, h.left_at.page_eq]⟩
  right_at := ⟨h.right_at.low_eq, h.right_at.pageId_eq, by
    rw [hpage, h.right_at.page_eq]⟩
  after_at := forall₂_at_congr h.after_at fun _ _ => by rw [hpage]

/-- Pins and owed writes before the change do not matter. -/
theorem Rebalanced.of_page {below nodes : List (Node K V)}
    {row : List (Branch K)} {rows : List (List (Branch K))}
    {touched : List PageId} {store₁ store' : PageStore (PageData K V)}
    (h : Rebalanced tree store₁ below nodes row rows touched store')
    (hpage : store₁.page = store.page)
    (hnext : store₁.nextPageId = store.nextPageId) :
    Rebalanced tree store below nodes row rows touched store' where
  level := h.level
  below_at := h.below_at
  nextPageId_eq := h.nextPageId_eq.trans hnext
  isSome := by
    intro pageId hlive
    rw [← hpage]
    exact h.isSome pageId hlive
  other_eq := by
    intro pageId hout
    rw [← hpage]
    exact h.other_eq pageId hout

theorem Rebalanced.unpin {below nodes : List (Node K V)}
    {row : List (Branch K)} {rows : List (List (Branch K))}
    {touched : List PageId} {store' : PageStore (PageData K V)}
    (h : Rebalanced tree store below nodes row rows touched store')
    (pageId : PageId) (isDirty : Bool) :
    Rebalanced tree store below nodes row rows touched
      (store'.unpin pageId isDirty) where
  level := h.level.congr rfl
  below_at := forall₂_at_congr h.below_at fun _ _ => rfl
  nextPageId_eq := h.nextPageId_eq
  isSome := h.isSome
  other_eq := h.other_eq

section Underfull

variable {below before after : List (Node K V)} {node : Node K V}
  {row : List (Branch K)} {rows : List (List (Branch K))}
  {base : Multiset PageId}
  {Q : Bool × BPlusTreeNTS K → PageStore (PageData K V) → Prop}

/-- `CoalesceOrRedistribute` at a node that is not the root and has one item
too few. -/
theorem does_coalesceOrRedistribute_step {fuel : ℕ}
    (hlevel : Level tree store below (before ++ node :: after) (row :: rows))
    (hbounded : store.Bounded) (hmax : 4 ≤ tree.internalMaxSize)
    (hmax' : 4 ≤ node.maxSize tree)
    (hothers : ∀ other ∈ before ++ after, other.Sized tree node.isLeaf)
    (hlt : node.size < node.maxSize tree / 2)
    (hle : node.maxSize tree / 2 ≤ node.size + 1)
    (hpins : store.pins = node.pageId ::ₘ base)
    (howed : store.owed ⊆ {node.pageId})
    (hroom : base.toFinset.card + 4 ≤ frames)
    (hmerged : ∀ nodes row₁ parent row₂ array store',
      Node.Balances (before ++ node :: after) nodes →
      (∀ other ∈ nodes, other.Sized tree node.isLeaf) →
      row = row₁ ++ parent :: row₂ →
      parent.array.length = array.length + 1 →
      Rebalanced tree store below nodes
        (row₁ ++ parent.withArray array :: row₂) rows
        (below.map Node.pageId ++
          levelIds (before ++ node :: after) (row :: rows)) store' →
      store'.pins = parent.pageId ::ₘ base →
      store'.owed ⊆ {parent.pageId} →
      Does frames (BPlusTreeNTS.coalesceOrRedistribute fuel tree
        parent.pageId) store' Q)
    (hshifted : ∀ nodes row₁ parent row₂ array store',
      Node.Balances (before ++ node :: after) nodes →
      (∀ other ∈ nodes, other.Sized tree node.isLeaf) →
      row = row₁ ++ parent :: row₂ →
      parent.array.length = array.length →
      Rebalanced tree store below nodes
        (row₁ ++ parent.withArray array :: row₂) rows
        (below.map Node.pageId ++
          levelIds (before ++ node :: after) (row :: rows)) store' →
      store'.pins = base → store'.owed = ∅ → Q (false, tree) store') :
    Does frames (BPlusTreeNTS.coalesceOrRedistribute (fuel + 1) tree
      node.pageId) store Q := by
  have hrow : ∀ branch ∈ row, 2 ≤ branch.array.length := by
    intro branch hbranch
    have hsize := (hlevel.stands.above.2.1 branch hbranch).le_size
    split_ifs at hsize <;> omega
  obtain ⟨before', x, y, after', row₁, parent, row₂, items₁, left, right,
    items₂, neighbor, nodeId, rfl, hsiblings, hcases⟩ :=
    hlevel.stands.exists_siblings hrow
  have hnodes : before ++ node :: after = before' ++ x :: y :: after' := by
    rcases hcases with ⟨rfl, rfl, rfl, -⟩ | ⟨rfl, rfl, rfl, -⟩
    · rfl
    · simp
  have hboth : node = x ∧ neighbor = y ∨ node = y ∧ neighbor = x := by
    tauto
  have hrest : ∀ other ∈ before' ++ after', other.Sized tree node.isLeaf := by
    intro other hother
    apply hothers
    rcases hcases with ⟨rfl, rfl, rfl, -⟩ | ⟨rfl, rfl, rfl, -⟩
    · simp only [List.mem_append, List.mem_cons] at hother ⊢
      tauto
    · simp only [List.mem_append, List.mem_singleton] at hother ⊢
      tauto
  have hneighbor : neighbor.Sized tree node.isLeaf := by
    apply hothers
    rcases hcases with ⟨rfl, rfl, rfl, rfl, -⟩ | ⟨rfl, rfl, rfl, rfl, -⟩
    · simp
    · simp
  rw [hnodes] at hlevel hmerged hshifted
  obtain ⟨hne, hxp, hyp⟩ := hlevel.stands.siblings_ne
  obtain ⟨grandparent, hparent⟩ := hlevel.stands.exists_page
    (List.mem_append_right row₁ List.mem_cons_self)
  have hparentNe : parent.pageId ≠ INVALID_PAGE_ID := by
    intro heq
    have hpos := (hbounded parent.pageId (by rw [hparent]; rfl)).1
    rw [heq] at hpos
    exact absurd hpos (by decide)
  obtain ⟨hnodePage, hneighborPage⟩ :
      store.page node.pageId = some (node.data tree parent.pageId) ∧
        store.page neighbor.pageId =
          some (neighbor.data tree parent.pageId) := by
    have hx := hsiblings.left_at.page_eq
    have hy := hsiblings.right_at.page_eq
    rcases hboth with ⟨rfl, rfl⟩ | ⟨rfl, rfl⟩
    · exact ⟨hx, hy⟩
    · exact ⟨hy, hx⟩
  obtain ⟨hindex, hvalue⟩ :
      (parent.page tree grandparent).valueIndex node.pageId = some nodeId ∧
        (parent.page tree grandparent).valueAt
          (if nodeId = 0 then 1 else nodeId - 1) = some neighbor.pageId := by
    have hindices : (parent.page tree grandparent).valueIndex x.pageId =
        some items₁.length ∧ (parent.page tree grandparent).valueIndex
          y.pageId = some (items₁.length + 1) :=
      hsiblings.valueIndex_eq hlevel.stands
    have hvalues : (parent.page tree grandparent).valueAt items₁.length =
        some x.pageId ∧ (parent.page tree grandparent).valueAt
          (items₁.length + 1) = some y.pageId := hsiblings.valueAt_eq
    rcases hcases with ⟨-, rfl, -, rfl, rfl, rfl⟩ | ⟨-, rfl, -, rfl, rfl⟩
    · exact ⟨hindices.1, hvalues.2⟩
    · exact ⟨hindices.2, hvalues.1⟩
  have hmaxEq : neighbor.maxSize tree = node.maxSize tree :=
    Node.maxSize_eq hneighbor.isLeaf_eq
  have hle' := hneighbor.le_size
  have hlt' := hneighbor.size_lt
  rw [hmaxEq] at hle' hlt'
  refine Program.ends_bind (does_getNode ?_ hnodePage (Node.node_data _ _ _)
    ?_)
  · simp [hpins]
  rw [if_neg, if_neg]
  rotate_left
  · exact fun hroot => hparentNe (of_decide_eq_true hroot)
  · exact not_le.mpr hlt
  have hcard := PageStore.card_cons_le base node.pageId
  have hcard' := PageStore.card_cons_le (node.pageId ::ₘ base) parent.pageId
  refine Program.ends_bind (does_fetchPage hparent (Or.inr ?_) ?_)
  · rw [hpins]
    omega
  refine Program.ends_bind (does_getInternal (Multiset.mem_cons_self _ _)
    hparent ?_)
  refine Program.ends_bind (does_orStop hindex ?_)
  refine Program.ends_bind (does_orStop hvalue ?_)
  refine Program.ends_bind (does_fetchPage hneighborPage (Or.inr ?_) ?_)
  · rw [PageStore.pin_pins, hpins]
    exact hcard'.trans_lt (by omega)
  refine Program.ends_bind (does_getNode (Multiset.mem_cons_self _ _)
    hneighborPage (Node.node_data _ _ _) ?_)
  have hlow := hsiblings.right_at.low_eq.symm
  have hpage : ((store.pin parent.pageId).pin neighbor.pageId).page =
      store.page := rfl
  have hpins' : ((store.pin parent.pageId).pin neighbor.pageId).pins =
      x.pageId ::ₘ y.pageId ::ₘ parent.pageId ::ₘ base := by
    rw [PageStore.pin_pins, PageStore.pin_pins, hpins,
      Multiset.cons_swap parent.pageId]
    rcases hboth with ⟨rfl, rfl⟩ | ⟨rfl, rfl⟩
    · exact Multiset.cons_swap _ _ _
    · rfl
  have howed' : ((store.pin parent.pageId).pin neighbor.pageId).owed ⊆
      {x.pageId, y.pageId} := by
    intro pageId hmem
    have hmem' := Finset.mem_singleton.mp (howed hmem)
    rcases hboth with ⟨rfl, -⟩ | ⟨rfl, -⟩
    · simp [hmem']
    · simp [hmem']
  obtain ⟨hxleaf, hyleaf⟩ :
      x.isLeaf = node.isLeaf ∧ y.isLeaf = node.isLeaf := by
    rcases hboth with ⟨rfl, rfl⟩ | ⟨rfl, rfl⟩
    · exact ⟨rfl, hneighbor.isLeaf_eq⟩
    · exact ⟨hneighbor.isLeaf_eq, rfl⟩
  have hkind : x.isLeaf = y.isLeaf := hxleaf.trans hyleaf.symm
  obtain ⟨hxpos, hypos, hsizes⟩ : 0 < x.size ∧ 0 < y.size ∧
      x.size + y.size = neighbor.size + node.size := by
    rcases hboth with ⟨rfl, rfl⟩ | ⟨rfl, rfl⟩
    · refine ⟨?_, ?_, Nat.add_comm _ _⟩ <;> omega
    · refine ⟨?_, ?_, rfl⟩ <;> omega
  have hsized : ∀ new : Node K V, new.isLeaf = node.isLeaf →
      node.maxSize tree / 2 ≤ new.size → new.size < node.maxSize tree →
        new.Sized tree node.isLeaf := by
    intro new hleaf hge hlt
    have hnewMax : new.maxSize tree = node.maxSize tree :=
      Node.maxSize_eq hleaf
    exact ⟨hleaf, hnewMax ▸ hge, hnewMax ▸ hlt⟩
  by_cases hsum : neighbor.size + node.size < node.maxSize tree
  · rw [if_pos hsum]
    have hcoalesce : (BPlusTreeNTS.coalesce neighbor.pageId node.pageId
        parent.pageId nodeId : TreeM K V Unit) =
          BPlusTreeNTS.coalesceOrdered x.pageId y.pageId parent.pageId
            (items₁.length + 1) := by
      rcases hcases with ⟨-, rfl, -, rfl, rfl, rfl⟩ | ⟨-, rfl, -, rfl, rfl⟩
      · rfl
      · rfl
    rw [hcoalesce]
    obtain ⟨x', hmerge⟩ := Node.exists_merge hkind hypos right.1
    have hsize := hmerge.size_eq
    have hxMax : x.maxSize tree = node.maxSize tree :=
      Node.maxSize_eq hxleaf
    apply Program.ends_bind
    refine does_coalesceOrdered (hlevel.congr hpage) (hsiblings.congr hpage)
      hmerge ?_ hxpos hpins' howed' hroom ?_
    · rw [hxMax, hsizes]
      exact hsum.le
    intro store' hrebalanced hpins'' howed''
    refine hmerged _ row₁ parent row₂ _ store'
      (.merge before' after' x y x' right.1 hmerge hlow) ?_ rfl ?_
      (hrebalanced.of_page hpage rfl) hpins'' howed''
    · intro other hother
      rcases List.mem_append.mp hother with hother | hother
      · exact hrest other (List.mem_append_left _ hother)
      rcases List.mem_cons.mp hother with rfl | hother
      · apply hsized
        · rw [hmerge.isLeaf_eq, hxleaf]
        · omega
        · omega
      · exact hrest other (List.mem_append_right _ hother)
    · rw [hsiblings.array_eq]
      simp
      omega
  · rw [if_neg hsum]
    obtain ⟨x', y', key, hshift⟩ : ∃ x' y' key,
        Node.ShiftLeft right.1 x y x' y' key ∧
          (if nodeId = 0 then 0 else 1) = 0 ∧ node = x ∧ neighbor = y ∨
        Node.ShiftRight right.1 x y x' y' key ∧
          (if nodeId = 0 then 0 else 1) = 1 ∧ node = y ∧ neighbor = x := by
      rcases hcases with ⟨-, rfl, -, rfl, rfl, -⟩ | ⟨-, rfl, -, rfl, rfl⟩
      · obtain ⟨x', y', key, hshift⟩ :=
          Node.exists_shiftLeft hkind (show 2 ≤ neighbor.size by omega) right.1
        exact ⟨x', y', key, Or.inl ⟨hshift, rfl, rfl, rfl⟩⟩
      · obtain ⟨x', y', key, hshift⟩ :=
          Node.exists_shiftRight hkind hxpos hypos right.1
        exact ⟨x', y', key, Or.inr ⟨hshift, rfl, rfl, rfl⟩⟩
    apply Program.ends_bind
    refine does_redistribute (hlevel.congr hpage) (hsiblings.congr hpage)
      hshift hxpos ?_ hpins' howed' hroom ?_
    · rintro rfl
      omega
    intro store' hrebalanced hpins'' howed''
    refine Program.ends_bind (does_unpinPage ?_ (fun h => by cases h) ?_)
    · rw [hpins'']
      exact Multiset.mem_cons_self _ _
    apply Program.ends_pure
    refine hshifted (before' ++ x' :: y' :: after') row₁ parent row₂ _ _ ?_
      ?_ rfl ?_ ((hrebalanced.of_page hpage rfl).unpin _ _) ?_ ?_
    · rcases hshift with ⟨hshift, -⟩ | ⟨hshift, -⟩
      · exact .shiftLeft _ _ _ _ _ _ _ _ hshift hlow
      · exact .shiftRight _ _ _ _ _ _ _ _ hshift hlow
    · obtain ⟨hx', hy'⟩ : x'.Sized tree node.isLeaf ∧
          y'.Sized tree node.isLeaf := by
        rcases hshift with ⟨hshift, -, rfl, rfl⟩ | ⟨hshift, -, rfl, rfl⟩
        · obtain ⟨hx', hy'⟩ := hshift.isLeaf_eq
          obtain ⟨hxsize, hysize⟩ := hshift.size_eq
          refine ⟨hsized x' (hx'.trans hxleaf) ?_ ?_,
            hsized y' (hy'.trans hyleaf) ?_ ?_⟩ <;> omega
        · obtain ⟨hx', hy'⟩ := hshift.isLeaf_eq
          obtain ⟨hxsize, hysize⟩ := hshift.size_eq
          refine ⟨hsized x' (hx'.trans hxleaf) ?_ ?_,
            hsized y' (hy'.trans hyleaf) ?_ ?_⟩ <;> omega
      intro other hother
      rcases List.mem_append.mp hother with hother | hother
      · exact hrest other (List.mem_append_left _ hother)
      rcases List.mem_cons.mp hother with rfl | hother
      · exact hx'
      rcases List.mem_cons.mp hother with rfl | hother
      · exact hy'
      · exact hrest other (List.mem_append_right _ hother)
    · rw [hsiblings.array_eq]
      simp
    · rw [PageStore.unpin_pins, hpins'']
      exact Multiset.erase_cons_head _ _
    · rw [PageStore.unpin_owed, howed'']
      simp

end Underfull

/-! ## The root -/

section Root

variable {base : Multiset PageId}
  {Q : Bool × BPlusTreeNTS K → PageStore (PageData K V) → Prop}

/-- `AdjustRoot` replaces a root with a single child by the child. -/
theorem does_adjustRoot_onlyChild {branch : Branch K} {child : Node K V}
    (hlevel : Level tree store [child] [Node.branch branch] [])
    (hsize : branch.array.length = 1)
    (hrecord : store.record tree.indexName = some tree.rootPageId)
    (hbounded : store.Bounded)
    (hpins : store.pins = branch.pageId ::ₘ base)
    (hbase : branch.pageId ∉ base)
    (howed : store.owed ⊆ {branch.pageId})
    (hroom : base.toFinset.card + 4 ≤ frames)
    (hQ : ∀ tree' store', Steps tree store [branch.pageId, child.pageId] tree'
      store' → store'.pins = base → Stands tree' store' [child] [] →
      Q (true, tree') store') :
    Does frames (tree.adjustRoot branch.pageId) store Q := by
  obtain ⟨item, harray⟩ := List.length_eq_one_iff.mp hsize
  obtain ⟨_, hnodes, hroot⟩ := hlevel.stands.root
  obtain ⟨rfl, -⟩ := List.cons.inj hnodes
  have hpage : store.page branch.pageId =
      some (.internal (branch.page tree INVALID_PAGE_ID)) := hroot.page_eq
  have hchild : Node.At tree store ⟨branch.low, item.2, branch.pageId⟩
      child := by
    have hbelow := hlevel.below_at
    simp only [List.flatMap_cons, List.flatMap_nil, Node.refs_branch,
      Branch.refs, harray, List.append_nil] at hbelow
    obtain ⟨_, _, hat, -, heq⟩ := List.forall₂_cons_left_iff.mp hbelow
    rw [(List.cons.inj heq).1]
    exact hat
  have hne : child.pageId ≠ branch.pageId := by
    intro heq
    apply hlevel.disjoint child List.mem_cons_self
    simp [levelIds, heq]
  have hchildHeader := hlevel.below_header child List.mem_cons_self
  have hheader : branch.pageId ≠ HEADER_PAGE_ID := by
    intro heq
    apply hlevel.stands.header
    simp [levelIds, heq]
  have honly : (branch.page tree INVALID_PAGE_ID).removeAndReturnOnlyChild =
      some (child.pageId,
        (branch.withArray []).page tree INVALID_PAGE_ID) := by
    rw [InternalPage.removeAndReturnOnlyChild, InternalPage.valueAt,
      Branch.page, harray]
    exact congrArg (fun pageId => some (pageId,
      (branch.withArray []).page tree INVALID_PAGE_ID)) hchild.pageId_eq
  have hcard := PageStore.card_cons_le base branch.pageId
  refine Program.ends_bind (does_getData ?_ hpage ?_)
  · simp [hpins]
  dsimp only
  rw [if_pos (show (branch.page tree INVALID_PAGE_ID).size = 1 from hsize)]
  refine Program.ends_bind (does_orStop honly ?_)
  refine Program.ends_bind (does_setData ?_ ?_)
  · simp [hpins]
  refine Program.ends_bind (does_unpinPage ?_ (fun h => by cases h) ?_)
  · simp [hpins, Branch.page]
  refine Program.ends_bind (does_deletePage ?_ ?_)
  · simp [hpins, Branch.page, hbase]
  refine Program.ends_bind (does_fetchPage
    (show _ = some (child.data tree branch.pageId) by
      simp [Branch.page, Function.update_of_ne, hne, hchild.page_eq])
    (Or.inr ?_) ?_)
  · simp [hpins, Branch.page]
    omega
  refine Program.ends_bind (does_setParentPageId (Multiset.mem_cons_self _ _)
    (show _ = some (child.data tree branch.pageId) by
      simp [Branch.page, Function.update_of_ne, hne, hchild.page_eq]) ?_)
  refine Program.ends_bind (does_getNode (Multiset.mem_cons_self _ _)
    (show _ = some (child.data tree INVALID_PAGE_ID) by simp)
    (Node.node_data _ _ _) ?_)
  refine Program.ends_bind (does_unpinPage (Multiset.mem_cons_self _ _)
    (fun h => by cases h) ?_)
  refine Program.ends_bind (does_updateRootPageId
    ((PageStore.record_congr ?_ tree.indexName).trans hrecord) ?_ ?_)
  · simp [Branch.page, Function.update_of_ne, hheader.symm,
      hchildHeader.symm]
  · right
    simp [hpins, Branch.page]
    omega
  intro store' hrecorded
  apply Program.ends_pure
  apply hQ
  · constructor
    · rfl
    · constructor
      · simp [hrecorded.nextPageId_eq]
      · intro pageId hids hheader' hlt
        simp at hids
        simp [hrecorded.page_eq _ hheader', Branch.page, hids.1, hids.2]
    · refine hbounded.congr ?_ fun pageId hlive => ?_
      · simp [hrecorded.nextPageId_eq]
      · have hlive' := (hrecorded.isSome_iff pageId).mp hlive
        by_cases hc : pageId = child.pageId
        · rw [hc, hchild.page_eq]
          rfl
        · by_cases hb : pageId = branch.pageId
          · rw [hb, hpage]
            rfl
          · simpa [Branch.page, Function.update_of_ne, hc, hb] using hlive'
    · rw [Finset.eq_empty_iff_forall_notMem]
      intro pageId hmem
      have howed' := @howed pageId
      simp [hrecorded.owed_eq, Branch.page] at hmem howed'
      tauto
    · exact hrecorded.record_self
    · intro name hname
      refine (hrecorded.record_eq name hname).trans
        (PageStore.record_congr ?_ name)
      simp [Branch.page, Function.update_of_ne, hheader.symm,
        hchildHeader.symm]
  · rw [hrecorded.pins_eq]
    simp [hpins, Branch.page]
  · refine ⟨(forall₂_at_withRoot child.pageId).mpr
      (.cons ⟨?_, rfl, ?_⟩ .nil), trivial, ?_, ?_⟩
    · rw [← hchild.low_eq]
      exact hroot.low_eq
    · rw [hrecorded.page_eq _ hchildHeader]
      simp
    · simp [levelIds, rowIds]
    · simpa [levelIds, rowIds] using hchildHeader.symm

end Root

/-! ## All rows -/

theorem Node.Balances.ids_subset {nodes nodes' : List (Node K V)}
    (h : Node.Balances nodes nodes') :
    nodes'.map Node.pageId ⊆ nodes.map Node.pageId := by
  cases h with
  | merge before after x y x' key hmerge hlow =>
      intro pageId hmem
      simp only [List.map_append, List.map_cons, List.mem_append,
        List.mem_cons, hmerge.pageId_eq] at hmem ⊢
      tauto
  | shiftLeft before after x y x' y' key key' hshift hlow =>
      obtain ⟨-, hx, -, hy⟩ := hshift.ids_eq
      simp [hx, hy]
  | shiftRight before after x y x' y' key key' hshift hlow =>
      obtain ⟨-, hx, -, hy⟩ := hshift.ids_eq
      simp [hx, hy]

theorem Steps.refl {ids : List PageId} (hbounded : store.Bounded)
    (howed : store.owed = ∅)
    (hrecord : store.record tree.indexName = some tree.rootPageId) :
    Steps tree store ids tree store where
  tree_eq := rfl
  touches := ⟨le_rfl, fun _ _ _ _ => rfl⟩
  bounded := hbounded
  owed_eq := howed
  record_self := hrecord
  record_eq := fun _ _ => rfl

/-- The last pin is given back as dirty. -/
theorem Steps.unpin {ids : List PageId} {pageId : PageId}
    (hbounded : store.Bounded) (howed : store.owed ⊆ {pageId})
    (hrecord : store.record tree.indexName = some tree.rootPageId) :
    Steps tree store ids tree (store.unpin pageId true) where
  tree_eq := rfl
  touches := ⟨le_rfl, fun _ _ _ _ => rfl⟩
  bounded := hbounded
  owed_eq := by
    rw [Finset.eq_empty_iff_forall_notMem]
    intro other hmem
    have howed' := @howed other
    simp at hmem howed'
    tauto
  record_self := hrecord
  record_eq := fun _ _ => rfl

theorem levelIds_branches {row : List (Branch K)}
    {rows : List (List (Branch K))} :
    levelIds (row.map (Node.branch : Branch K → Node K V)) rows =
      rowIds (row :: rows) := by
  rw [levelIds, rowIds_cons, List.map_map]
  rfl

theorem Level.header_notMem {below nodes : List (Node K V)}
    {rows : List (List (Branch K))} (h : Level tree store below nodes rows) :
    HEADER_PAGE_ID ∉ below.map Node.pageId ++ levelIds nodes rows := by
  rw [List.mem_append]
  rintro (hmem | hmem)
  · obtain ⟨node, hnode, heq⟩ := List.mem_map.mp hmem
    exact h.below_header node hnode heq
  · exact h.stands.header hmem

/-- A change of two siblings and what is done after it. -/
theorem Rebalanced.steps {below nodes : List (Node K V)}
    {row : List (Branch K)} {rows : List (List (Branch K))}
    {touched ids : List PageId} {tree' : BPlusTreeNTS K}
    {store₁ store' : PageStore (PageData K V)}
    (h : Rebalanced tree store below nodes row rows touched store₁)
    (hheader : HEADER_PAGE_ID ∉ touched)
    (hsteps : Steps tree store₁ ids tree' store') (hids : ids ⊆ touched) :
    Steps tree store touched tree' store' where
  tree_eq := hsteps.tree_eq
  touches := by
    have htouches : store.Touches touched store₁ :=
      ⟨h.nextPageId_eq.ge, fun pageId hout _ _ => h.other_eq pageId hout⟩
    exact htouches.trans hsteps.touches fun pageId hmem => Or.inl (hids hmem)
  bounded := hsteps.bounded
  owed_eq := hsteps.owed_eq
  record_self := hsteps.record_self
  record_eq := by
    intro name hname
    rw [hsteps.record_eq name hname]
    exact PageStore.record_congr (h.other_eq _ hheader) name

/-- Nodes whose pages are not among those worked on. -/
theorem Steps.nodes_at {ids : List PageId} {tree' : BPlusTreeNTS K}
    {store' : PageStore (PageData K V)} {refs : List (Ref K)}
    {nodes : List (Node K V)} (hsteps : Steps tree store ids tree' store')
    (hnodes : List.Forall₂ (Node.At tree store) refs nodes)
    (hbounded : store.Bounded)
    (hout : ∀ node ∈ nodes, node.pageId ∉ ids)
    (hheader : ∀ node ∈ nodes, node.pageId ≠ HEADER_PAGE_ID) :
    List.Forall₂ (Node.At tree' store') refs nodes := by
  rw [hsteps.tree_eq, forall₂_at_withRoot]
  refine forall₂_at_congr hnodes fun node hnode => ?_
  apply hsteps.touches.page_eq _ (hout node hnode) (hheader node hnode)
  exact (hbounded _ (isSome_of_at hnodes hnode)).2

/-- Nodes below a row of branches. -/
theorem Stands.below_branches {below : List (Node K V)}
    {row : List (Branch K)} {rows : List (List (Branch K))}
    (h : Stands tree store (row.map Node.branch) rows)
    (hfits : ∀ branch ∈ row, branch.Fits tree rows)
    (hbelow : List.Forall₂ (Node.At tree store)
      ((row.map (Node.branch : Branch K → Node K V)).flatMap Node.refs) below)
    (hnodup : (below.map Node.pageId).Nodup)
    (hdisjoint : ∀ node ∈ below, node.pageId ∉ rowIds (row :: rows))
    (hheader : ∀ node ∈ below, node.pageId ≠ HEADER_PAGE_ID) :
    Stands tree store below (row :: rows) := by
  refine Level.stands_below ⟨h, hbelow, hnodup, ?_, hheader⟩ hfits
  rw [levelIds_branches]
  exact hdisjoint

/-- Nodes of the right size that are no leaves make a row of branches. -/
theorem exists_row_of_sized {nodes : List (Node K V)}
    (h : ∀ node ∈ nodes, node.Sized tree false) :
    ∃ row : List (Branch K), nodes = row.map Node.branch ∧
      ∀ branch ∈ row, tree.internalMaxSize / 2 ≤ branch.array.length ∧
        branch.array.length < tree.internalMaxSize := by
  induction nodes with
  | nil => exact ⟨[], rfl, by simp⟩
  | cons node nodes ih =>
      have hnode := h node List.mem_cons_self
      obtain ⟨row, rfl, hrow⟩ :=
        ih fun other hother => h other (List.mem_cons_of_mem _ hother)
      cases node with
      | leaf leaf => exact absurd hnode.isLeaf_eq (by simp [Node.isLeaf])
      | branch branch =>
          refine ⟨branch :: row, rfl, fun other hother => ?_⟩
          rcases List.mem_cons.mp hother with rfl | hother
          · exact ⟨hnode.le_size, hnode.size_lt⟩
          · exact hrow other hother

section Rows

variable {below : List (Node K V)} {row₁ row₂ : List (Branch K)}
  {branch : Branch K} {rows : List (List (Branch K))}
  {base : Multiset PageId}
  {Q : Bool × BPlusTreeNTS K → PageStore (PageData K V) → Prop}

/-- A node with enough items is left as it is. -/
theorem does_coalesceOrRedistribute_enough {fuel : ℕ} {node : Node K V}
    {parentPageId : PageId}
    (hpage : store.page node.pageId = some (node.data tree parentPageId))
    (hsize : node.maxSize tree / 2 ≤ node.size)
    (hin : node.pageId ∈ store.pins)
    (hQ : Q (true, tree) (store.unpin node.pageId true)) :
    Does frames (BPlusTreeNTS.coalesceOrRedistribute (fuel + 1) tree
      node.pageId) store Q := by
  refine Program.ends_bind (does_getNode hin hpage (Node.node_data _ _ _) ?_)
  rw [if_pos]
  · exact Program.ends_bind (does_unpinPage hin (fun h => by cases h)
      (Program.ends_pure hQ))
  · exact hsize

theorem does_coalesceOrRedistribute_root {fuel : ℕ} {node : Node K V}
    (hpage : store.page node.pageId = some (node.data tree INVALID_PAGE_ID))
    (hsize : node.size < node.maxSize tree / 2)
    (hin : node.pageId ∈ store.pins)
    (hQ : Does frames (tree.adjustRoot node.pageId) store Q) :
    Does frames (BPlusTreeNTS.coalesceOrRedistribute (fuel + 1) tree
      node.pageId) store Q := by
  refine Program.ends_bind (does_getNode hin hpage (Node.node_data _ _ _) ?_)
  rw [if_neg, if_pos]
  · exact hQ
  · rfl
  · exact not_le.mpr hsize

/-- A row on which all branches have enough items. -/
theorem Level.stands_of_unpin {row : List (Branch K)} {pageId : PageId}
    (hlevel : Level tree store below (row.map Node.branch) rows)
    (hfits : ∀ other ∈ row, other.Fits tree rows) :
    Stands tree (store.unpin pageId true) below (row :: rows) := by
  have hlevel' : Level tree (store.unpin pageId true) below
      (row.map Node.branch) rows := hlevel.congr rfl
  exact hlevel'.stands_below hfits

/-- `CoalesceOrRedistribute` at a root that is a branch. -/
theorem does_coalesceOrRedistribute_rootBranch {fuel : ℕ}
    (hlevel : Level tree store below [Node.branch branch] [])
    (hlt : branch.array.length < tree.internalMaxSize)
    (hle : 1 ≤ branch.array.length) (hmax : 4 ≤ tree.internalMaxSize)
    (hrecord : store.record tree.indexName = some tree.rootPageId)
    (hbounded : store.Bounded)
    (hpins : store.pins = branch.pageId ::ₘ base)
    (hbase : branch.pageId ∉ base)
    (howed : store.owed ⊆ {branch.pageId})
    (hroom : base.toFinset.card + 4 ≤ frames)
    (hQ : ∀ b tree' store' rows', Steps tree store
      (below.map Node.pageId ++ rowIds [[branch]]) tree' store' →
      store'.pins = base → Stands tree' store' below rows' →
      rowIds rows' ⊆ rowIds [[branch]] → Q (b, tree') store') :
    Does frames (BPlusTreeNTS.coalesceOrRedistribute (fuel + 1) tree
      branch.pageId) store Q := by
  have hin : branch.pageId ∈ store.pins := by
    rw [hpins]
    exact Multiset.mem_cons_self _ _
  have hpins' : (store.unpin branch.pageId true).pins = base := by
    rw [PageStore.unpin_pins, hpins, Multiset.erase_cons_head]
  obtain ⟨_, hnodes, hroot⟩ := hlevel.stands.root
  obtain ⟨rfl, -⟩ := List.cons.inj hnodes
  have hpage : store.page (Node.branch branch : Node K V).pageId =
      some ((Node.branch branch).data tree INVALID_PAGE_ID) := hroot.page_eq
  have hkeep : 2 ≤ branch.array.length →
      Stands tree (store.unpin branch.pageId true) below [[branch]] := by
    intro hsize
    refine Level.stands_of_unpin hlevel fun other hother => ?_
    rw [List.mem_singleton.mp hother]
    exact ⟨hlt, hsize⟩
  by_cases hbig : tree.internalMaxSize / 2 ≤ branch.array.length
  · apply does_coalesceOrRedistribute_enough hpage hbig hin
    exact hQ true tree _ [[branch]] (.unpin hbounded howed hrecord) hpins'
      (hkeep (by omega)) (List.Subset.refl _)
  · apply does_coalesceOrRedistribute_root hpage (not_le.mp hbig) hin
    by_cases hone : branch.array.length = 1
    · obtain ⟨child, hchild⟩ : ∃ child, below = [child] := by
        have hlength := hlevel.below_at.length_eq
        simp [Branch.refs, length_refsOf, hone] at hlength
        exact List.length_eq_one_iff.mp hlength.symm
      subst hchild
      refine does_adjustRoot_onlyChild hlevel hone hrecord hbounded hpins
        hbase howed hroom fun tree' store' hsteps hpins'' hstands => ?_
      refine hQ true tree' store' [] ?_ hpins'' hstands ?_
      · refine ⟨hsteps.tree_eq, ⟨hsteps.touches.next_le, ?_⟩, hsteps.bounded,
          hsteps.owed_eq, hsteps.record_self, hsteps.record_eq⟩
        intro pageId hout
        apply hsteps.touches.page_eq
        simpa [rowIds, and_comm] using hout
      · exact List.nil_subset _
    · refine Program.ends_bind (does_getData hin hpage ?_)
      dsimp only [Node.data]
      rw [if_neg (show ¬ (branch.page tree INVALID_PAGE_ID).size = 1 from
        hone)]
      refine Program.ends_bind (does_unpinPage hin (fun h => by cases h) ?_)
      apply Program.ends_pure
      exact hQ false tree _ [[branch]] (.unpin hbounded howed hrecord) hpins'
        (hkeep (by omega)) (List.Subset.refl _)

/-- A change of two branches, and then the rows above them settled. -/
theorem Rebalanced.settle {row₀ row row' : List (Branch K)}
    {nodes : List (Node K V)} {rows' : List (List (Branch K))}
    {touched : List PageId} {tree' : BPlusTreeNTS K}
    {store₁ store' : PageStore (PageData K V)}
    (h : Rebalanced tree store below nodes row' rows touched store₁)
    (htouched : touched = below.map Node.pageId ++
      rowIds (row₀ :: row :: rows))
    (hlevel : Level tree store below (row₀.map Node.branch) (row :: rows))
    (hbounded : store.Bounded) (hmax : 4 ≤ tree.internalMaxSize)
    (hbalances : Node.Balances (row₀.map Node.branch) nodes)
    (hsized : ∀ other ∈ nodes, other.Sized tree false)
    (hids : rowIds (row' :: rows) = rowIds (row :: rows))
    (hsteps : Steps tree store₁
      (nodes.map Node.pageId ++ rowIds (row' :: rows)) tree' store')
    (hstands : Stands tree' store' nodes rows')
    (hids' : rowIds rows' ⊆ rowIds (row' :: rows)) :
    Steps tree store touched tree' store' ∧ ∃ rows'',
      Stands tree' store' below rows'' ∧
        rowIds rows'' ⊆ rowIds (row₀ :: row :: rows) := by
  obtain ⟨newRow, rfl, hnewRow⟩ := exists_row_of_sized hsized
  have hnew : newRow.map Branch.pageId ⊆ row₀.map Branch.pageId := by
    have hsub := hbalances.ids_subset
    rw [List.map_map, List.map_map] at hsub
    exact hsub
  have hsub : (newRow.map (Node.branch : Branch K → Node K V)).map
      Node.pageId ++ rowIds (row' :: rows) ⊆ rowIds (row₀ :: row :: rows) := by
    intro pageId hmem
    rw [hids, List.map_map] at hmem
    rw [rowIds_cons]
    rcases List.mem_append.mp hmem with hmem | hmem
    · exact List.mem_append_left _ (hnew hmem)
    · exact List.mem_append_right _ hmem
  have hsub' : rowIds (newRow :: rows') ⊆ rowIds (row₀ :: row :: rows) := by
    intro pageId hmem
    rw [rowIds_cons] at hmem
    apply hsub
    rw [List.map_map]
    rcases List.mem_append.mp hmem with hmem | hmem
    · exact List.mem_append_left _ hmem
    · exact List.mem_append_right _ (hids' hmem)
  have hbelow : ∀ node ∈ below,
      node.pageId ∉ rowIds (row₀ :: row :: rows) := by
    intro node hnode
    rw [← levelIds_branches]
    exact hlevel.disjoint node hnode
  have hheader := hlevel.header_notMem
  rw [levelIds_branches, ← htouched] at hheader
  refine ⟨h.steps hheader hsteps ?_, newRow :: rows', ?_, hsub'⟩
  · rw [htouched]
    exact fun pageId hmem => List.mem_append_right _ (hsub hmem)
  refine Stands.below_branches hstands ?_ ?_ hlevel.below_nodup
    (fun node hnode hmem => hbelow node hnode (hsub' hmem))
    hlevel.below_header
  · intro branch hbranch
    obtain ⟨hle, hlt⟩ := hnewRow branch hbranch
    rw [hsteps.tree_eq, Branch.fits_withRoot]
    exact Branch.fits_of_le hlt hle hmax
  · refine hsteps.nodes_at h.below_at
      (hbounded.congr h.nextPageId_eq h.isSome) ?_ hlevel.below_header
    exact fun node hnode hmem => hbelow node hnode (hsub hmem)

/-- `CoalesceOrRedistribute` at a branch that may have lost an item. -/
theorem does_coalesceOrRedistribute_branch {fuel : ℕ}
    (hlevel : Level tree store below
      ((row₁ ++ branch :: row₂).map Node.branch) rows)
    (hothers : ∀ other ∈ row₁ ++ row₂, other.Fits tree rows)
    (hlt : branch.array.length < tree.internalMaxSize)
    (hle : (if rows = [] then 2 else tree.internalMaxSize / 2) ≤
      branch.array.length + 1)
    (hmax : 4 ≤ tree.internalMaxSize)
    (hrecord : store.record tree.indexName = some tree.rootPageId)
    (hbounded : store.Bounded)
    (hpins : store.pins = branch.pageId ::ₘ base)
    (hbase : ∀ pageId ∈ rowIds ((row₁ ++ branch :: row₂) :: rows),
      pageId ∉ base)
    (howed : store.owed ⊆ {branch.pageId})
    (hroom : base.toFinset.card + 4 ≤ frames) (hfuel : rows.length < fuel)
    (hQ : ∀ b tree' store' rows', Steps tree store
      (below.map Node.pageId ++ rowIds ((row₁ ++ branch :: row₂) :: rows))
      tree' store' → store'.pins = base → Stands tree' store' below rows' →
      rowIds rows' ⊆ rowIds ((row₁ ++ branch :: row₂) :: rows) →
      Q (b, tree') store') :
    Does frames (BPlusTreeNTS.coalesceOrRedistribute fuel tree
      branch.pageId) store Q := by
  induction rows generalizing store below row₁ branch row₂ fuel Q with
  | nil =>
      obtain ⟨fuel, rfl⟩ := Nat.exists_eq_succ_of_ne_zero hfuel.ne'
      obtain ⟨rfl, rfl⟩ : row₁ = [] ∧ row₂ = [] := by
        obtain ⟨_, hnodes, -⟩ := hlevel.stands.root
        have hlength := congrArg List.length hnodes
        simp at hlength
        exact ⟨List.eq_nil_of_length_eq_zero (by omega),
          List.eq_nil_of_length_eq_zero (by omega)⟩
      rw [if_pos rfl] at hle
      exact does_coalesceOrRedistribute_rootBranch hlevel hlt (by omega) hmax
        hrecord hbounded hpins (hbase _ (by simp)) howed hroom hQ
  | cons row rows ih =>
      obtain ⟨fuel, rfl⟩ := Nat.exists_eq_succ_of_ne_zero
        (Nat.zero_lt_of_lt hfuel).ne'
      rw [if_neg (List.cons_ne_nil _ _)] at hle
      have hmem : Node.branch branch ∈
          (row₁ ++ branch :: row₂).map (Node.branch : Branch K → Node K V) :=
        List.mem_map_of_mem (by simp)
      obtain ⟨ref, -, hat⟩ :=
        exists_of_forall₂_right hlevel.stands.nodes_at hmem
      have hin : branch.pageId ∈ store.pins := by
        rw [hpins]
        exact Multiset.mem_cons_self _ _
      by_cases hbig : tree.internalMaxSize / 2 ≤ branch.array.length
      · apply does_coalesceOrRedistribute_enough hat.page_eq hbig hin
        refine hQ true tree _ ((row₁ ++ branch :: row₂) :: row :: rows)
          (.unpin hbounded howed hrecord) ?_
          (hlevel.stands_of_unpin fun other hother => ?_)
          (List.Subset.refl _)
        · rw [PageStore.unpin_pins, hpins, Node.pageId_branch,
            Multiset.erase_cons_head]
        · rcases List.mem_append.mp hother with hother | hother
          · exact hothers other (List.mem_append_left _ hother)
          rcases List.mem_cons.mp hother with rfl | hother
          · exact Branch.fits_of_le hlt hbig hmax
          · exact hothers other (List.mem_append_right _ hother)
      · have hids : ∀ {row₁ row₂ : List (Branch K)} {parent : Branch K}
            (array : List (K × PageId)),
            rowIds ((row₁ ++ parent.withArray array :: row₂) :: rows) =
              rowIds ((row₁ ++ parent :: row₂) :: rows) := by
          intro row₁ row₂ parent array
          simp [rowIds_cons]
        have hheader := hlevel.header_notMem
        rw [levelIds_branches] at hheader
        have hrow : (row₁ ++ branch :: row₂).map
            (Node.branch : Branch K → Node K V) =
              row₁.map Node.branch ++ Node.branch branch ::
                row₂.map Node.branch := by
          rw [List.map_append, List.map_cons]
        have hlevel' : Level tree store below (row₁.map Node.branch ++
            Node.branch branch :: row₂.map Node.branch) (row :: rows) :=
          hrow ▸ hlevel
        refine does_coalesceOrRedistribute_step hlevel' hbounded hmax hmax ?_
          (not_le.mp hbig) hle hpins howed hroom ?_ ?_
        · intro other hother
          rw [← List.map_append] at hother
          obtain ⟨other', hother', rfl⟩ := List.mem_map.mp hother
          have hfits := hothers other' hother'
          have hsize := hfits.le_size
          rw [if_neg (List.cons_ne_nil _ _)] at hsize
          exact ⟨rfl, hsize, hfits.lt_maxSize⟩
        · intro nodes row₁' parent row₂' array store₁ hbalances hsized hrow'
            harray hrebalanced hpins₁ howed₁
          subst hrow'
          rw [← hrow] at hbalances hrebalanced
          rw [levelIds_branches] at hrebalanced
          have hparent := hlevel.stands.above.2.1 parent (by simp)
          have hparentLt := hparent.lt_maxSize
          have hparentLe := hparent.le_size
          have hbounded₁ := hbounded.congr hrebalanced.nextPageId_eq
            hrebalanced.isSome
          have hrecord₁ : store₁.record tree.indexName =
              some tree.rootPageId := by
            rw [PageStore.record_congr (hrebalanced.other_eq _ hheader),
              hrecord]
          refine @ih store₁ nodes row₁' row₂' (parent.withArray array) Q fuel
            hrebalanced.level ?_ ?_ ?_ hrecord₁ hbounded₁ hpins₁ ?_ howed₁ ?_
            ?_
          · intro other hother
            apply hlevel.stands.above.2.1
            simp only [List.mem_append, List.mem_cons] at hother ⊢
            tauto
          · rw [Branch.array_withArray]
            omega
          · rw [Branch.array_withArray]
            omega
          · intro pageId hmem'
            rw [hids] at hmem'
            apply hbase
            rw [rowIds_cons]
            exact List.mem_append_right _ hmem'
          · rw [List.length_cons] at hfuel
            omega
          · intro b tree' store' rows' hsteps hpins' hstands hids'
            obtain ⟨hsteps', rows'', hstands', hsub⟩ := hrebalanced.settle rfl
              hlevel hbounded hmax hbalances hsized (hids array) hsteps hstands
              hids'
            exact hQ b tree' store' rows'' hsteps' hpins' hstands' hsub
        · intro nodes row₁' parent row₂' array store₁ hbalances hsized hrow'
            harray hrebalanced hpins₁ howed₁
          subst hrow'
          rw [← hrow] at hbalances hrebalanced
          rw [levelIds_branches] at hrebalanced
          have hfits : ∀ other ∈ row₁' ++ parent.withArray array :: row₂',
              other.Fits tree rows := by
            intro other hother
            rcases List.mem_append.mp hother with hother | hother
            · exact hlevel.stands.above.2.1 other
                (List.mem_append_left _ hother)
            rcases List.mem_cons.mp hother with rfl | hother
            · have hparent := hlevel.stands.above.2.1 parent (by simp)
              exact ⟨harray ▸ hparent.lt_maxSize, harray ▸ hparent.le_size⟩
            · exact hlevel.stands.above.2.1 other
                (List.mem_append_right _ (List.mem_cons_of_mem _ hother))
          have hbounded₁ := hbounded.congr hrebalanced.nextPageId_eq
            hrebalanced.isSome
          have hrecord₁ : store₁.record tree.indexName =
              some tree.rootPageId := by
            rw [PageStore.record_congr (hrebalanced.other_eq _ hheader),
              hrecord]
          obtain ⟨hsteps', rows'', hstands', hsub⟩ := hrebalanced.settle rfl
            hlevel hbounded hmax hbalances hsized (hids array)
            (.refl hbounded₁ howed₁ hrecord₁)
            (hrebalanced.level.stands_below hfits) (List.Subset.refl _)
          exact hQ false tree store₁ rows'' hsteps' hpins₁ hstands' hsub

end Rows

end TicketSystem.Database
