import TicketSystem.Database.TreeSearch

/-!
# Splits on the way up

`InsertIntoParent` puts the reference to a new page behind the one it was split
from.  A parent that becomes full is split in turn, which gives half of its
children another parent, and a root that is split gets a new root above it.
-/

namespace TicketSystem.Database

open TicketSystem.Support

variable {K V : Type}

variable {frames : ℕ} {store : PageStore (PageData K V)}
  {tree : BPlusTreeNTS K}

/-! ## Splitting one page -/

/-- An internal page whose items behind the first half went to a new page. -/
structure SplitInternal (store : PageStore (PageData K V)) (pageId : PageId)
    (page : InternalPage K) (moved : List (K × PageId)) (maxSize : ℕ)
    (store' : PageStore (PageData K V)) : Prop where
  pins : store'.pins = store.nextPageId ::ₘ store.pins
  nextPageId : store'.nextPageId = store.nextPageId + 1
  owed : store'.owed ⊆ insert store.nextPageId (insert pageId store.owed)
  page_eq : store'.page pageId = some (.internal page)
  extra_eq : store'.page store.nextPageId =
    some (.internal
      { maxSize := maxSize
        parentPageId := page.parentPageId
        pageId := store.nextPageId
        array := moved })
  child_eq : ∀ child ∈ moved.map Prod.snd, store'.page child =
    (store.page child).map (PageData.setParentPageId store.nextPageId)
  other_eq : ∀ other, other ≠ pageId → other ≠ store.nextPageId →
    other ∉ moved.map Prod.snd → store'.page other = store.page other

theorem does_splitInternal {pageId : PageId} (page : InternalPage K)
    {kept moved : List (K × PageId)}
    {Q : PageId → PageStore (PageData K V) → Prop}
    (hin : pageId ∈ store.pins)
    (hlive : store.page pageId =
      some (.internal { page with array := kept ++ moved }))
    (hkept : kept.length = page.maxSize / 2)
    (hmoved : moved.length ≤ tree.internalMaxSize)
    (hbounded : store.Bounded)
    (hchildren : ∀ child ∈ moved.map Prod.snd, (store.page child).isSome)
    (hself : pageId ∉ moved.map Prod.snd)
    (hroom : store.pins.toFinset.card + 2 ≤ frames)
    (hQ : ∀ store', SplitInternal store pageId { page with array := kept }
      moved tree.internalMaxSize store' → Q store.nextPageId store') :
    Does frames (tree.splitInternal pageId) store Q := by
  have hne : pageId ≠ store.nextPageId :=
    hbounded.ne_nextPageId (by rw [hlive]; rfl)
  have hnew : store.nextPageId ∉ moved.map Prod.snd := fun hmem =>
    hbounded.ne_nextPageId (hchildren _ hmem) rfl
  have hone := PageStore.card_cons_le store.pins store.nextPageId
  have hdrop : (kept ++ moved).drop (page.maxSize / 2) = moved := by
    rw [← hkept, List.drop_left]
  have htake : (kept ++ moved).take (page.maxSize / 2) = kept := by
    rw [← hkept, List.take_left]
  have hsize : (kept ++ moved).length - page.maxSize / 2 = moved.length := by
    rw [List.length_append, ← hkept]
    omega
  refine Program.ends_bind (does_getInternal hin hlive ?_)
  refine Program.ends_bind (does_newInternal (by omega) ?_)
  refine Program.ends_bind ?_
  -- `MoveHalfTo`
  have hpage : (store.addPage (.internal (InternalPage.init store.nextPageId
      page.parentPageId tree.internalMaxSize))).page pageId =
        some (.internal { page with array := kept ++ moved }) := by
    rw [PageStore.addPage_page, Function.update_of_ne hne]
    exact hlive
  refine Program.ends_bind (does_getInternal
    (Multiset.mem_cons_of_mem hin) hpage ?_)
  simp only [InternalPage.minSize, InternalPage.size, hdrop, hsize]
  refine Program.ends_bind ?_
  -- `CopyNFrom`
  refine Program.ends_bind (does_getInternal (Multiset.mem_cons_self _ _)
    (Function.update_self _ _ _) ?_)
  rw [if_neg (by simpa [InternalPage.init, InternalPage.size] using hmoved)]
  refine Program.ends_bind (does_setParents ?_ ?_ ?_)
  · intro child hchild
    have hlive' := hchildren child hchild
    rw [PageStore.addPage_page,
      Function.update_of_ne (hbounded.ne_nextPageId hlive')]
    exact hlive'
  · rw [PageStore.addPage_pins]
    omega
  refine does_setData (Multiset.mem_cons_self _ _) ?_
  refine Program.ends_bind (does_setData (Multiset.mem_cons_of_mem hin) ?_)
  refine Program.ends_bind (does_getInternal (Multiset.mem_cons_self _ _)
    ((Function.update_of_ne hne.symm _ _).trans
      (Function.update_self _ _ _)) ?_)
  refine does_setData (Multiset.mem_cons_self _ _) (Program.ends_pure ?_)
  apply hQ
  constructor
  · simp
  · simp
  · intro other
    simp
    tauto
  · simp [hne, htake, InternalPage.setSize]
  · simp [InternalPage.setSize, InternalPage.init]
  · intro child hchild
    have hchild' : child ≠ pageId := fun heq => hself (heq ▸ hchild)
    have hnew' := hbounded.ne_nextPageId (hchildren child hchild)
    simp [Function.update_of_ne, hchild', hnew',
      PageStore.setParents_page_of_mem _ _ _ hchild, InternalPage.init]
  · intro other hother hother' hmem
    simp [Function.update_of_ne, hother, hother',
      PageStore.setParents_page_of_notMem _ _ _ hmem]

/-! ## A new root -/

/-- A root that was split gets a page above it that refers to both halves. -/
theorem does_growRoot [Inhabited K] {old new : Node K V} {key : K}
    {base : Multiset PageId}
    {Q : BPlusTreeNTS K → PageStore (PageData K V) → Prop}
    (hstands : Stands tree store [old] [])
    (hnew : store.page new.pageId = some (new.data tree INVALID_PAGE_ID))
    (hlow : new.low = key) (hne : new.pageId ≠ old.pageId)
    (hheader : new.pageId ≠ HEADER_PAGE_ID)
    (hmax : 4 ≤ tree.internalMaxSize)
    (hrecord : store.record tree.indexName = some tree.rootPageId)
    (hbounded : store.Bounded)
    (hpins : store.pins = new.pageId ::ₘ old.pageId ::ₘ base)
    (howed : store.owed ⊆ {new.pageId, old.pageId})
    (hroom : base.toFinset.card + 4 ≤ frames)
    (hQ : ∀ tree' store', Steps tree store [old.pageId, new.pageId] tree'
      store' → store'.pins = base →
      Stands tree' store' [old, new]
        [[⟨⊥, store.nextPageId,
          [(default, old.pageId), (key, new.pageId)]⟩]] → Q tree' store') :
    Does frames (tree.growRoot old.pageId key new.pageId) store Q := by
  obtain ⟨_, hnodes, hat⟩ := hstands.root
  obtain ⟨rfl, -⟩ := List.cons.inj hnodes
  have hold := hat.page_eq
  have holdHeader : old.pageId ≠ HEADER_PAGE_ID := by
    intro heq
    apply hstands.header
    simp [levelIds, heq]
  have hnewNext := hbounded.ne_nextPageId (Option.isSome_of_eq_some hnew)
  have holdNext := hbounded.ne_nextPageId (Option.isSome_of_eq_some hold)
  have hheaderNext :=
    hbounded.ne_nextPageId (PageStore.isSome_of_record hrecord)
  have hnextNonneg : 0 ≤ store.nextPageId :=
    (hbounded _ (Option.isSome_of_eq_some hold)).1.trans
      (hbounded _ (Option.isSome_of_eq_some hold)).2.le
  have hcard : store.pins.toFinset.card + 2 ≤ frames := by
    have hone := PageStore.card_cons_le base old.pageId
    have htwo := PageStore.card_cons_le (old.pageId ::ₘ base) new.pageId
    rw [hpins]
    omega
  have hone := PageStore.card_cons_le store.pins store.nextPageId
  refine Program.ends_bind (does_newInternal (by omega) ?_)
  refine Program.ends_bind (does_getInternal (Multiset.mem_cons_self _ _)
    (Function.update_self _ _ _) ?_)
  refine Program.ends_bind (does_getNode ?_
    (show _ = some (old.data tree INVALID_PAGE_ID) by
      simp [Function.update_of_ne, holdNext, hold])
    (Node.node_data _ _ _) ?_)
  · simp [hpins]
  refine Program.ends_bind (does_getNode ?_
    (show _ = some (new.data tree INVALID_PAGE_ID) by
      simp [Function.update_of_ne, hnewNext, hnew])
    (Node.node_data _ _ _) ?_)
  · simp [hpins]
  refine Program.ends_bind (does_setData (Multiset.mem_cons_self _ _) ?_)
  refine Program.ends_bind (does_setParentPageId ?_
    (show _ = some (old.data tree INVALID_PAGE_ID) by
      simp [Function.update_of_ne, holdNext, hold]) ?_)
  · simp [hpins]
  refine Program.ends_bind (does_setParentPageId ?_
    (show _ = some (new.data tree INVALID_PAGE_ID) by
      simp [Function.update_of_ne, hnewNext, hne, hnew]) ?_)
  · simp [hpins]
  refine Program.ends_bind (does_updateRootPageId
    ((PageStore.record_congr ?_ tree.indexName).trans hrecord) ?_ ?_)
  · simp [Function.update_of_ne, hheader.symm, holdHeader.symm, hheaderNext]
  · right
    simp only [PageStore.write_pins, PageStore.addPage_pins]
    omega
  intro store' hrecorded
  have hpins' : store'.pins =
      store.nextPageId ::ₘ new.pageId ::ₘ old.pageId ::ₘ base := by
    rw [hrecorded.pins_eq]
    simp [hpins]
  refine Program.ends_bind (does_unpinPage ?_ (fun h => by cases h) ?_)
  · rw [hpins']
    exact Multiset.mem_cons_self _ _
  refine Program.ends_bind (does_unpinPage ?_ (fun h => by cases h) ?_)
  · simp [hpins', InternalPage.init]
  refine Program.ends_bind (does_unpinPage ?_ (fun h => by cases h) ?_)
  · simp [hpins', InternalPage.init, PageStore.erase_second]
  refine Program.ends_pure ?_
  apply hQ
  · constructor
    · rfl
    · constructor
      · simp [hrecorded.nextPageId_eq]
      · intro pageId hids hheader' hlt
        simp at hids
        simp [hrecorded.page_eq _ hheader', hids.1, hids.2, hlt.ne]
    · have hlive := Option.isSome_of_eq_some hold
      have hlive' := Option.isSome_of_eq_some hnew
      refine ((((hbounded.addPage hnextNonneg _).write ?_ _).write ?_ _).write
        ?_ _).congr hrecorded.nextPageId_eq
          fun pageId => (hrecorded.isSome_iff pageId).mp
      · simp
      · simp [Function.update_of_ne, holdNext, hlive]
      · simp [Function.update_of_ne, hnewNext, hne, hlive']
    · rw [Finset.eq_empty_iff_forall_notMem]
      intro pageId hmem
      have howed' := @howed pageId
      simp [hrecorded.owed_eq, InternalPage.init] at hmem howed'
      tauto
    · exact hrecorded.record_self
    · intro name hname
      refine (hrecorded.record_eq name hname).trans
        (PageStore.record_congr ?_ name)
      simp [Function.update_of_ne, hheader.symm, holdHeader.symm, hheaderNext]
  · simp [hpins', InternalPage.init, PageStore.erase_second]
  · have hpage : ∀ node ∈ [old, new], (((store'.unpin store.nextPageId
        true).unpin old.pageId true).unpin new.pageId true).page node.pageId =
          some (node.data tree store.nextPageId) := by
      intro node hnode
      rcases List.mem_pair.mp hnode with rfl | rfl
      · simp [hrecorded.page_eq _ holdHeader, Function.update_of_ne, hne.symm,
          InternalPage.init]
      · simp [hrecorded.page_eq _ hheader, InternalPage.init]
    constructor
    · refine (forall₂_at_withRoot store.nextPageId).mpr ?_
      refine .cons ⟨?_, rfl, hpage old (by simp)⟩
        (.cons ⟨?_, rfl, hpage new (by simp)⟩ .nil)
      · exact hat.low_eq
      · exact hlow.symm
    · refine ⟨(forall₂_at_withRoot store.nextPageId).mpr
        (.cons ⟨rfl, rfl, ?_⟩ .nil), ?_, trivial⟩
      · simp [hrecorded.page_eq _ hheaderNext.symm, Function.update_of_ne,
          holdNext.symm, hnewNext.symm]
        rfl
      · intro branch hbranch
        rw [List.mem_singleton.mp hbranch]
        constructor
        · exact hmax.trans' (by simp)
        · simp
    · simp [levelIds, rowIds, hne.symm, holdNext, hnewNext]
    · simp [levelIds, rowIds, hheader.symm, holdHeader.symm, hheaderNext]

/-! ## The way up -/

/-- `InsertNodeAfter` puts the new item behind the old one. -/
theorem InternalPage.insertNodeAfter_eq {page : InternalPage K}
    {before after : List (K × PageId)} {item : K × PageId}
    (harray : page.array = before ++ item :: after)
    (hbefore : ∀ i ∈ before, i.2 ≠ item.2) (hsize : page.size < page.maxSize)
    (key : K) (newValue : PageId) :
    (page.insertNodeAfter item.2 key newValue).2 =
      { page with array := before ++ item :: (key, newValue) :: after } := by
  have hindex : page.valueIndex item.2 = some before.length := by
    rw [valueIndex, harray]
    apply findIdx?_pieces
    · simpa using hbefore
    · simp
  have hinsert := insertIdx_pieces (before ++ [item]) after (key, newValue)
  rw [List.length_append, List.length_singleton, List.append_assoc,
    List.append_assoc] at hinsert
  rw [insertNodeAfter, if_neg hsize.ne, hindex]
  simp only [harray]
  exact congrArg (fun array => { page with array := array }) hinsert

theorem SplitInternal.bounded {pageId : PageId} {page : InternalPage K}
    {moved : List (K × PageId)} {maxSize : ℕ}
    {store' : PageStore (PageData K V)}
    (h : SplitInternal store pageId page moved maxSize store')
    (hbounded : store.Bounded) (hlive : (store.page pageId).isSome) :
    store'.Bounded := by
  intro other hother
  rw [h.nextPageId]
  by_cases hnext : other = store.nextPageId
  · have hle := (hbounded _ hlive).1.trans (hbounded _ hlive).2.le
    exact ⟨hnext ▸ hle, hnext ▸ Int.lt_succ _⟩
  · have hlive' : (store.page other).isSome := by
      by_cases hpage : other = pageId
      · exact hpage ▸ hlive
      · by_cases hmem : other ∈ moved.map Prod.snd
        · rwa [h.child_eq other hmem, Option.isSome_map] at hother
        · rwa [h.other_eq other hpage hnext hmem] at hother
    exact ⟨(hbounded other hlive').1,
      (hbounded other hlive').2.trans (Int.lt_succ _)⟩

/-- After a split of a full parent its children stand below both halves. -/
theorem SplitInternal.stands {store' : PageStore (PageData K V)}
    {row₁ row₂ : List (Branch K)} {parent : Branch K}
    {rows : List (List (Branch K))} {nodes : List (Node K V)}
    {kept items : List (K × PageId)} {item : K × PageId}
    {grandparent : PageId}
    (h : SplitInternal store parent.pageId
      ((parent.withArray kept).page tree grandparent)
      (item :: items) tree.internalMaxSize store')
    (hbounded : store.Bounded)
    (hup : Stands tree store (row₁.map Node.branch ++
      Node.branch (parent.withArray (kept ++ item :: items)) ::
        row₂.map Node.branch : List (Node K V)) rows)
    (hpage : store.page parent.pageId = some (.internal
      ((parent.withArray (kept ++ item :: items)).page tree grandparent)))
    (hnodes : List.Forall₂ (Node.At tree store)
      (row₁.flatMap Branch.refs ++
        (refsOf parent.low parent.pageId (kept ++ item :: items) ++
          row₂.flatMap Branch.refs)) nodes)
    (hkept : kept ≠ []) (hnodup : (nodes.map Node.pageId).Nodup)
    (hdisjoint : ∀ node ∈ nodes,
      node.pageId ∉ rowIds ((row₁ ++ parent :: row₂) :: rows)) :
    Stands tree store' (row₁.map Node.branch ++
        Node.branch (parent.withArray kept) ::
          row₂.map Node.branch : List (Node K V)) rows ∧
      List.Forall₂ (Node.At tree store')
        ((row₁ ++ parent.withArray kept ::
          ⟨item.1, store.nextPageId, item :: items⟩ :: row₂).flatMap
            Branch.refs) nodes := by
  have hrefs : refsOf parent.low parent.pageId (kept ++ item :: items) =
      refsOf parent.low parent.pageId kept ++
        (item :: items).map (Ref.ofItem parent.pageId) := by
    rw [refsOf_append, if_neg hkept]
    rfl
  rw [hrefs, List.append_assoc, ← List.append_assoc] at hnodes
  have hchildren : ((item :: items).map (Ref.ofItem parent.pageId)).map
      Ref.pageId = (item :: items).map Prod.snd := by
    rw [List.map_map]
    rfl
  have hmem : ∀ pageId, pageId ∈ levelIds (row₁.map Node.branch ++
      Node.branch (parent.withArray (kept ++ item :: items)) ::
        row₂.map Node.branch : List (Node K V)) rows ↔
      pageId ∈ rowIds ((row₁ ++ parent :: row₂) :: rows) := by
    intro pageId
    simp [levelIds, rowIds_cons, Function.comp_def]
  constructor
  · refine hup.update rfl rfl ?_ ?_
    · intro parentPageId hpage'
      have heq := Option.some.inj (hpage.symm.trans hpage')
      obtain rfl : grandparent = parentPageId :=
        congrArg InternalPage.parentPageId (PageData.internal.inj heq)
      exact h.page_eq
    · intro pageId hid hne
      apply h.other_eq _ hne
      · exact hbounded.ne_nextPageId (hup.isSome hid)
      · intro hchild
        obtain ⟨ref, href, rfl⟩ := List.mem_map.mp (hchildren ▸ hchild)
        obtain ⟨node, hnode, hat⟩ := exists_of_forall₂_left hnodes
          (List.mem_append_right _ (List.mem_append_left _ href))
        apply hdisjoint node hnode
        rw [← hmem, ← hat.pageId_eq]
        exact hid
  · have hrefs' : (row₁ ++ parent.withArray kept ::
        ⟨item.1, store.nextPageId, item :: items⟩ :: row₂).flatMap
          Branch.refs =
        (row₁.flatMap Branch.refs ++
          refsOf parent.low parent.pageId kept) ++
          (((item :: items).map (Ref.ofItem parent.pageId)).map
            (Ref.setParentPageId store.nextPageId) ++
            row₂.flatMap Branch.refs) := by
      simp [Branch.refs, refsOf, Ref.ofItem, Ref.setParentPageId,
        Function.comp_def]
    rw [hrefs']
    refine forall₂_at_move _ hnodes hnodup ?_ ?_
    · rw [hchildren]
      exact h.child_eq
    · intro node hnode hchild
      apply h.other_eq
      · intro heq
        apply hdisjoint node hnode
        rw [← hmem, heq]
        simp [levelIds]
      · exact hbounded.ne_nextPageId (isSome_of_at hnodes hnode)
      · rwa [hchildren] at hchild

/-- The parent took a new node over and is the only page left pinned. -/
structure Adopted (tree : BPlusTreeNTS K) (store : PageStore (PageData K V))
    (base : Multiset PageId) (nodes : List (Node K V))
    (row₁ : List (Branch K)) (parent : Branch K) (row₂ : List (Branch K))
    (array : List (K × PageId)) (rows : List (List (Branch K)))
    (grandparent : PageId) (store' : PageStore (PageData K V)) : Prop where
  pins_eq : store'.pins = parent.pageId ::ₘ base
  nextPageId_eq : store'.nextPageId = store.nextPageId
  owed_subset : store'.owed ⊆ {parent.pageId}
  page_eq : store'.page = Function.update store.page parent.pageId
    (some (.internal ((parent.withArray array).page tree grandparent)))
  nodes_at : List.Forall₂ (Node.At tree store')
    (row₁.flatMap Branch.refs ++
      (refsOf parent.low parent.pageId array ++ row₂.flatMap Branch.refs))
    nodes
  up : Stands tree store' (row₁.map Node.branch ++
    Node.branch (parent.withArray array) ::
      row₂.map Node.branch : List (Node K V)) rows

namespace Adopted

variable {base : Multiset PageId} {nodes : List (Node K V)}
  {row₁ row₂ : List (Branch K)} {parent : Branch K}
  {array : List (K × PageId)} {rows : List (List (Branch K))}
  {grandparent : PageId} {store' : PageStore (PageData K V)}

theorem other_eq (h : Adopted tree store base nodes row₁ parent row₂ array
    rows grandparent store') {pageId : PageId} (hne : pageId ≠ parent.pageId) :
    store'.page pageId = store.page pageId := by
  rw [h.page_eq]
  exact Function.update_of_ne hne _ _

theorem parent_eq (h : Adopted tree store base nodes row₁ parent row₂ array
    rows grandparent store') : store'.page parent.pageId =
      some (.internal ((parent.withArray array).page tree grandparent)) := by
  rw [h.page_eq]
  exact Function.update_self _ _ _

theorem header_ne (h : Adopted tree store base nodes row₁ parent row₂ array
    rows grandparent store') : HEADER_PAGE_ID ≠ parent.pageId := by
  intro heq
  apply h.up.header
  simp [levelIds, heq]

theorem bounded (h : Adopted tree store base nodes row₁ parent row₂ array
    rows grandparent store') (hbounded : store.Bounded)
    (hlive : (store.page parent.pageId).isSome) : store'.Bounded := by
  refine hbounded.congr h.nextPageId_eq fun pageId hsome => ?_
  by_cases heq : pageId = parent.pageId
  · exact heq ▸ hlive
  · rwa [h.other_eq heq] at hsome

/-- The children of the parent are among the nodes. -/
theorem exists_node (h : Adopted tree store base nodes row₁ parent row₂ array
    rows grandparent store') {child : PageId}
    (hchild : child ∈ array.map Prod.snd) :
    ∃ node ∈ nodes, node.pageId = child := by
  have hids := pageId_eq_of_at h.nodes_at
  rw [List.map_append, List.map_append, pageId_mem_refsOf] at hids
  have hmem : child ∈ nodes.map Node.pageId := by
    rw [← hids]
    exact List.mem_append_right _ (List.mem_append_left _ hchild)
  exact List.mem_map.mp hmem

end Adopted

/-- The end of `InsertIntoParent`: a full parent is split in turn. -/
def BPlusTreeNTS.splitFull [Inhabited K] (fuel : ℕ) (tree : BPlusTreeNTS K)
    (parent : PageId) (parentNode : InternalPage K) :
    TreeM K V (BPlusTreeNTS K) :=
  if parentNode.size = parentNode.maxSize then do
    let extra ← tree.splitInternal parent
    let extraNode ← getInternal extra
    let extraKey ← orStop .outOfRange (extraNode.keyAt 0)
    insertIntoParent fuel tree parent extraKey extra
  else do
    unpinPage parent true
    pure tree

/-- The beginning of `InsertIntoParent`, for a node below the root. -/
theorem does_adopt [Inhabited K] {row₁ row₂ : List (Branch K)}
    {parent : Branch K} {rows : List (List (Branch K))}
    {items₁ items₂ : List (K × PageId)} {item : K × PageId}
    {before after : List (Node K V)} {old new : Node K V} {key : K}
    {base : Multiset PageId} {fuel : ℕ}
    {Q : BPlusTreeNTS K → PageStore (PageData K V) → Prop}
    (hstands : Stands tree store (before ++ old :: after)
      ((row₁ ++ parent :: row₂) :: rows))
    (hplace : Place tree store before old after row₁ parent row₂ items₁ item
      items₂)
    (hnew : ∀ parentPageId,
      store.page old.pageId = some (old.data tree parentPageId) →
        store.page new.pageId = some (new.data tree parentPageId))
    (hlow : new.low = key)
    (hid : new.pageId ∉ levelIds (before ++ old :: after)
      ((row₁ ++ parent :: row₂) :: rows))
    (hbounded : store.Bounded)
    (hpins : store.pins = new.pageId ::ₘ old.pageId ::ₘ base)
    (howed : store.owed ⊆ {new.pageId, old.pageId})
    (hroom : base.toFinset.card + 4 ≤ frames)
    (hQ : ∀ grandparent store', Adopted tree store base
      (before ++ old :: new :: after) row₁ parent row₂
      (items₁ ++ item :: (key, new.pageId) :: items₂) rows grandparent
      store' → Does frames (tree.splitFull fuel parent.pageId
        ((parent.withArray
          (items₁ ++ item :: (key, new.pageId) :: items₂)).page tree
          grandparent)) store' Q) :
    Does frames
      (BPlusTreeNTS.insertIntoParent (fuel + 1) tree old.pageId key
        new.pageId) store Q := by
  have hmem : parent ∈ row₁ ++ parent :: row₂ :=
    List.mem_append_right _ List.mem_cons_self
  obtain ⟨grandparent, hparent⟩ := hstands.exists_page hmem
  have hold := hplace.node_at.page_eq
  have hitem : item.2 = old.pageId := hplace.node_at.pageId_eq
  have hnewOld : new.pageId ≠ old.pageId := by
    intro heq
    apply hid
    simp [levelIds, heq]
  have hparentNodes : ∀ node ∈ before ++ old :: new :: after,
      node.pageId ≠ parent.pageId := by
    have hrow : parent.pageId ∈ rowIds ((row₁ ++ parent :: row₂) :: rows) := by
      simp [rowIds_cons]
    intro node hnode heq
    rw [← heq] at hrow
    by_cases hnode' : node ∈ before ++ old :: after
    · exact hstands.notMem_rowIds hnode' hrow
    · obtain rfl : node = new := by
        simp only [List.mem_append, List.mem_cons] at hnode hnode'
        tauto
      exact hid (List.mem_append_right _ hrow)
  have hparentNe : parent.pageId ≠ INVALID_PAGE_ID := by
    intro heq
    have hpos := (hbounded _ (Option.isSome_of_eq_some hparent)).1
    rw [heq] at hpos
    exact absurd hpos (by decide)
  have hone := PageStore.card_cons_le base old.pageId
  have htwo := PageStore.card_cons_le (old.pageId ::ₘ base) new.pageId
  have hless := (hstands.above.2.1 parent hmem).lt_maxSize
  refine Program.ends_bind (does_getNode ?_ hold (Node.node_data _ _ _) ?_)
  · simp [hpins]
  rw [if_neg (by simpa [BPlusTreePage.isRootPage] using hparentNe)]
  refine Program.ends_bind (does_getNode ?_ (hnew _ hold)
    (Node.node_data _ _ _) ?_)
  · simp [hpins]
  refine Program.ends_bind (does_fetchPage hparent ?_ ?_)
  · right
    rw [hpins]
    omega
  refine Program.ends_bind (does_unpinPage ?_ (fun h => by cases h) ?_)
  · simp [hpins]
  refine Program.ends_bind (does_unpinPage ?_ (fun h => by cases h) ?_)
  · simp [hpins, Multiset.mem_erase_of_ne, hnewOld]
  have hpins' : (((store.pin parent.pageId).unpin old.pageId true).unpin
      new.pageId true).pins = parent.pageId ::ₘ base := by
    simp [hpins, Multiset.erase_comm _ old.pageId, PageStore.erase_second]
  refine Program.ends_bind (does_getInternal ?_ hparent ?_)
  · exact hpins' ▸ Multiset.mem_cons_self _ _
  have hinsert : ((parent.page tree grandparent).insertNodeAfter old.pageId
      key new.pageId).2 = (parent.withArray
        (items₁ ++ item :: (key, new.pageId) :: items₂)).page tree
          grandparent := by
    rw [← hitem]
    apply InternalPage.insertNodeAfter_eq
    · exact hplace.array_eq
    · exact hstands.item_ne hplace
    · exact hless
  simp only [hinsert]
  refine Program.ends_bind (does_setData ?_ (hQ grandparent _ ?_))
  · exact hpins' ▸ Multiset.mem_cons_self _ _
  have hother : ∀ pageId, pageId ≠ parent.pageId →
      ((((store.pin parent.pageId).unpin old.pageId true).unpin new.pageId
        true).write parent.pageId (.internal ((parent.withArray
          (items₁ ++ item :: (key, new.pageId) :: items₂)).page tree
            grandparent))).page pageId = store.page pageId := by
    intro pageId hne
    exact Function.update_of_ne hne _ _
  constructor
  · exact hpins'
  · rfl
  · intro pageId howed'
    have hmem' := @howed pageId
    simp at howed' hmem' ⊢
    tauto
  · rfl
  · rw [refsOf_append, List.append_assoc, ← List.append_assoc]
    refine forall₂_at_congr (List.rel_append hplace.before_at
      (.cons hplace.node_at (.cons ⟨hlow.symm, rfl, hnew _ hold⟩
        hplace.after_at))) ?_
    exact fun node hnode => hother _ (hparentNodes node hnode)
  · have hup := hstands.branches
    rw [List.map_append, List.map_cons] at hup
    refine hup.update rfl rfl ?_ ?_
    · intro parentPageId hpage
      have heq := Option.some.inj (hparent.symm.trans hpage)
      obtain rfl : grandparent = parentPageId :=
        congrArg InternalPage.parentPageId (PageData.internal.inj heq)
      exact Function.update_self _ _ _
    · exact fun pageId _ hne => hother pageId hne

/-- `InsertIntoParent` puts a new node behind the one it was split from. -/
theorem does_insertIntoParent [Inhabited K] {rows : List (List (Branch K))}
    {before after : List (Node K V)} {old new : Node K V} {key : K}
    {base : Multiset PageId} {fuel : ℕ}
    {Q : BPlusTreeNTS K → PageStore (PageData K V) → Prop}
    (hmax : 4 ≤ tree.internalMaxSize)
    (hstands : Stands tree store (before ++ old :: after) rows)
    (hnew : ∀ parentPageId,
      store.page old.pageId = some (old.data tree parentPageId) →
        store.page new.pageId = some (new.data tree parentPageId))
    (hlow : new.low = key)
    (hid : new.pageId ∉ levelIds (before ++ old :: after) rows)
    (hheader : new.pageId ≠ HEADER_PAGE_ID)
    (hrecord : store.record tree.indexName = some tree.rootPageId)
    (hbounded : store.Bounded)
    (hpins : store.pins = new.pageId ::ₘ old.pageId ::ₘ base)
    (howed : store.owed ⊆ {new.pageId, old.pageId})
    (hroom : base.toFinset.card + 4 ≤ frames) (hfuel : rows.length < fuel)
    (hQ : ∀ tree' store' rows',
      Steps tree store (levelIds (before ++ old :: new :: after) rows) tree'
        store' → store'.pins = base →
      Stands tree' store' (before ++ old :: new :: after) rows' →
      (∀ pageId ∈ rowIds rows', pageId ∈ rowIds rows ∨
        store.nextPageId ≤ pageId) → Q tree' store') :
    Does frames
      (BPlusTreeNTS.insertIntoParent fuel tree old.pageId key new.pageId)
      store Q := by
  induction rows generalizing before after old new key fuel store with
  | nil =>
      obtain ⟨fuel, rfl⟩ : ∃ n, fuel = n + 1 := ⟨fuel - 1, by omega⟩
      obtain ⟨node, hnodes, hat⟩ := hstands.root
      obtain ⟨rfl, rfl, rfl⟩ : before = [] ∧ old = node ∧ after = [] := by
        rcases List.append_eq_singleton_iff.mp hnodes with
          ⟨rfl, hcons⟩ | ⟨-, hcons⟩
        · obtain ⟨rfl, rfl⟩ := List.cons.inj hcons
          exact ⟨rfl, rfl, rfl⟩
        · exact absurd hcons (List.cons_ne_nil _ _)
      refine Program.ends_bind (does_getNode ?_ hat.page_eq
        (Node.node_data _ _ _) ?_)
      · simp [hpins]
      rw [if_pos (by simp [BPlusTreePage.isRootPage])]
      apply does_growRoot hstands (hnew _ hat.page_eq) hlow
      · intro heq
        apply hid
        simp [levelIds, heq]
      · exact hheader
      · exact hmax
      · exact hrecord
      · exact hbounded
      · exact hpins
      · exact howed
      · exact hroom
      · intro tree' store' hsteps hpins' hstands'
        refine hQ tree' store' _ ?_ hpins' hstands' ?_
        · simpa [levelIds, rowIds] using hsteps
        · simp [rowIds]
  | cons row rows ih =>
      obtain ⟨fuel, rfl⟩ : ∃ n, fuel = n + 1 := ⟨fuel - 1, by omega⟩
      obtain ⟨row₁, parent, row₂, items₁, item, items₂, rfl, hplace⟩ :=
        hstands.exists_place
      have hmem : parent ∈ row₁ ++ parent :: row₂ :=
        List.mem_append_right _ List.mem_cons_self
      have hlive : (store.page parent.pageId).isSome := by
        apply hstands.isSome
        simp [levelIds, rowIds_cons]
      have hnew' := hnew _ hplace.node_at.page_eq
      have hperm := @levelIds_insert K V ((row₁ ++ parent :: row₂) :: rows)
        before after old new
      have hnodup : (levelIds (before ++ old :: new :: after)
          ((row₁ ++ parent :: row₂) :: rows)).Nodup := by
        rw [hperm.nodup_iff]
        exact List.nodup_cons.mpr ⟨hid, hstands.nodup⟩
      have hdisjoint : ∀ node ∈ before ++ old :: new :: after,
          node.pageId ∉ rowIds ((row₁ ++ parent :: row₂) :: rows) :=
        fun node hnode hrow => (List.nodup_append.mp hnodup).2.2 _
          (List.mem_map_of_mem hnode) _ hrow rfl
      have hheaderNodes : ∀ node ∈ before ++ old :: new :: after,
          node.pageId ≠ HEADER_PAGE_ID := by
        intro node hnode heq
        have hmem' := hperm.subset
          (List.mem_append_left _ (List.mem_map_of_mem hnode))
        rw [heq] at hmem'
        rcases List.mem_cons.mp hmem' with heq' | hmem'
        · exact hheader heq'.symm
        · exact hstands.header hmem'
      have hliveNodes : ∀ node ∈ before ++ old :: new :: after,
          node.pageId < store.nextPageId := by
        intro node hnode
        have hmem' := hperm.subset
          (List.mem_append_left _ (List.mem_map_of_mem hnode))
        rcases List.mem_cons.mp hmem' with heq' | hmem'
        · exact heq' ▸ (hbounded _ (Option.isSome_of_eq_some hnew')).2
        · exact (hbounded _ (hstands.isSome hmem')).2
      apply does_adopt hstands hplace hnew hlow hid hbounded hpins howed hroom
      intro grandparent store₁ h₁
      have hbounded₁ := h₁.bounded hbounded hlive
      rw [BPlusTreeNTS.splitFull, Branch.size_page, Branch.maxSize_page,
        Branch.array_withArray]
      by_cases hfull : (items₁ ++ item :: (key, new.pageId) ::
        items₂).length = tree.internalMaxSize
      · rw [if_pos hfull]
        obtain ⟨kept, first, items, hcut, hkept⟩ :=
          exists_pieces (show tree.internalMaxSize / 2 < (items₁ ++ item ::
            (key, new.pageId) :: items₂).length by omega)
        rw [hcut] at h₁ hfull
        refine Program.ends_bind (does_splitInternal
          (parent.page tree grandparent) ?_ h₁.parent_eq hkept ?_ hbounded₁ ?_
            ?_ ?_ ?_)
        · rw [h₁.pins_eq]
          exact Multiset.mem_cons_self _ _
        · rw [List.length_append] at hfull
          omega
        · intro child hchild
          obtain ⟨node, hnode, rfl⟩ := h₁.exists_node (by
            rw [List.map_append]
            exact List.mem_append_right _ hchild)
          exact isSome_of_at h₁.nodes_at hnode
        · intro hchild
          obtain ⟨node, hnode, heq⟩ := h₁.exists_node (by
            rw [List.map_append]
            exact List.mem_append_right _ hchild)
          apply hdisjoint node hnode
          simp [heq, rowIds_cons]
        · have hone := PageStore.card_cons_le base parent.pageId
          rw [h₁.pins_eq]
          omega
        · intro store₂ h₂
          have hkeptNe : kept ≠ [] := by
            rintro rfl
            rw [List.length_nil] at hkept
            omega
          obtain ⟨hup₂, hnodes₂⟩ := h₂.stands hbounded₁ h₁.up h₁.parent_eq
            h₁.nodes_at hkeptNe (List.nodup_append.mp hnodup).1 hdisjoint
          refine Program.ends_bind (does_getInternal ?_ h₂.extra_eq ?_)
          · rw [h₂.pins]
            exact Multiset.mem_cons_self _ _
          refine Program.ends_bind
            (does_orStop (show _ = some first.1 from rfl) ?_)
          have hnew₂ : ∀ parentPageId,
              store₂.page (Node.branch (parent.withArray kept) :
                Node K V).pageId = some (Node.data tree parentPageId
                  (.branch (parent.withArray kept))) →
              store₂.page (Node.branch ⟨first.1, store₁.nextPageId,
                first :: items⟩ : Node K V).pageId =
                  some (Node.data tree parentPageId (.branch ⟨first.1,
                    store₁.nextPageId, first :: items⟩)) := by
            intro parentPageId hpage
            have heq := Option.some.inj (h₂.page_eq.symm.trans hpage)
            obtain rfl : grandparent = parentPageId :=
              congrArg InternalPage.parentPageId (PageData.internal.inj heq)
            exact h₂.extra_eq
          have hheader₁ : (store₁.page HEADER_PAGE_ID).isSome := by
            rw [h₁.other_eq h₁.header_ne]
            exact PageStore.isSome_of_record hrecord
          have hmoved : ∀ pageId, (∀ node ∈ before ++ old :: new :: after,
              node.pageId ≠ pageId) →
              pageId ∉ (first :: items).map Prod.snd := by
            intro pageId hne hchild
            obtain ⟨node, hnode, heq⟩ := h₁.exists_node (by
              rw [List.map_append]
              exact List.mem_append_right _ hchild)
            exact hne node hnode heq
          have hrecord₂ : ∀ name, store₂.record name = store.record name := by
            intro name
            apply PageStore.record_congr
            rw [h₂.other_eq _ h₁.header_ne (hbounded₁.ne_nextPageId hheader₁)
              (hmoved _ hheaderNodes), h₁.other_eq h₁.header_ne]
          refine ih hup₂ hnew₂ rfl ?_ ?_ ?_ ?_ ?_ ?_ ?_ ?_
          · intro hmem'
            refine hbounded₁.ne_nextPageId (h₁.up.isSome ?_) rfl
            simpa [levelIds] using hmem'
          · exact (hbounded₁.ne_nextPageId hheader₁).symm
          · exact (hrecord₂ _).trans hrecord
          · exact h₂.bounded hbounded₁
              (Option.isSome_of_eq_some h₁.parent_eq)
          · rw [h₂.pins, h₁.pins_eq]
            rfl
          · intro pageId howed'
            have howed₁ := @h₁.owed_subset pageId
            have howed₂ := h₂.owed howed'
            simp at howed₁ howed₂ ⊢
            tauto
          · rw [List.length_cons] at hfuel
            omega
          · intro tree' store' rows' hsteps hpins' hstands' hrows'
            obtain ⟨root, rfl⟩ : ∃ root,
                tree' = { tree with rootPageId := root } :=
              ⟨_, hsteps.tree_eq⟩
            have hnext₂ : store₂.nextPageId = store.nextPageId + 1 := by
              rw [h₂.nextPageId, h₁.nextPageId_eq]
            have hparentIds : ∀ pageId, pageId = parent.pageId →
                pageId ∈ rowIds ((row₁ ++ parent :: row₂) :: rows) := by
              rintro pageId rfl
              simp [rowIds_cons]
            have hids : ∀ pageId, pageId ∈ rowIds ((row₁ ++
                parent.withArray kept :: ⟨first.1, store₁.nextPageId,
                  first :: items⟩ :: row₂) :: rows') →
                pageId ∈ rowIds ((row₁ ++ parent :: row₂) :: rows) ∨
                  store.nextPageId ≤ pageId := by
              intro pageId hmem'
              have hrows := hrows' pageId
              rw [hnext₂] at hrows
              simp only [rowIds_cons, List.map_append, List.map_cons,
                List.mem_append, List.mem_cons, Branch.pageId_withArray,
                h₁.nextPageId_eq] at hmem' ⊢
              rcases hmem' with (h | h | rfl | h) | h
              · exact Or.inl (Or.inl (Or.inl h))
              · exact Or.inl (Or.inl (Or.inr (Or.inl h)))
              · exact Or.inr le_rfl
              · exact Or.inl (Or.inl (Or.inr (Or.inr h)))
              · rcases hrows h with h | h
                · exact Or.inl (Or.inr h)
                · exact Or.inr ((Int.lt_succ _).le.trans h)
            refine hQ _ store' ((row₁ ++ parent.withArray kept ::
              ⟨first.1, store₁.nextPageId, first :: items⟩ :: row₂) :: rows')
              ?_ hpins' ?_ ?_
            · refine ⟨rfl, ?_, hsteps.bounded, hsteps.owed_eq,
                hsteps.record_self, fun name hname =>
                  (hsteps.record_eq name hname).trans (hrecord₂ name)⟩
              refine PageStore.Touches.trans ⟨?_, ?_⟩ hsteps.touches ?_
              · rw [hnext₂]
                exact (Int.lt_succ _).le
              · intro pageId hids _ hlt
                have hne : pageId ≠ parent.pageId := fun heq =>
                  hids (List.mem_append_right _ (hparentIds pageId heq))
                rw [h₂.other_eq pageId hne, h₁.other_eq hne]
                · rw [h₁.nextPageId_eq]
                  exact hlt.ne
                · apply hmoved
                  rintro node hnode rfl
                  exact hids (List.mem_append_left _
                    (List.mem_map_of_mem hnode))
              · intro pageId hmem'
                simp only [levelIds, rowIds_cons, List.map_append,
                  List.map_cons, List.map_map, List.mem_append,
                  List.mem_cons, Node.pageId_branch, Branch.pageId_withArray,
                  h₁.nextPageId_eq, Function.comp_def] at hmem' ⊢
                rcases hmem' with (h | h | h | h) | h
                · tauto
                · tauto
                · exact Or.inr h.ge
                · tauto
                · tauto
            · apply Level.stands_below
              · constructor
                · rw [List.map_append, List.map_cons, List.map_cons]
                  exact hstands'
                · rw [flatMap_refs_branch]
                  refine (forall₂_at_withRoot root).mpr
                    (forall₂_at_congr hnodes₂ ?_)
                  intro node hnode
                  apply hsteps.touches.page_eq
                  · intro hmem'
                    have hne := (hliveNodes node hnode).ne
                    have hnot := hdisjoint node hnode
                    simp only [levelIds, rowIds_cons, List.map_append,
                      List.map_cons, List.map_map, List.mem_append,
                      List.mem_cons, Node.pageId_branch,
                      Branch.pageId_withArray, h₁.nextPageId_eq,
                      Function.comp_def] at hmem' hnot
                    tauto
                  · exact hheaderNodes node hnode
                  · rw [hnext₂]
                    exact (hliveNodes node hnode).trans (Int.lt_succ _)
                · exact (List.nodup_append.mp hnodup).1
                · intro node hnode hmem'
                  rcases hids node.pageId (by
                    simpa [levelIds, rowIds_cons, Function.comp_def]
                      using hmem') with h | h
                  · exact hdisjoint node hnode h
                  · exact absurd (hliveNodes node hnode) (not_lt.mpr h)
                · exact hheaderNodes
              · have hrows : rows' ≠ [] := hstands'.rows_ne_nil (by
                  simp
                  omega)
                have hother : ∀ branch ∈ row₁ ++ row₂,
                    branch.Fits tree rows' := by
                  intro branch hbranch
                  have hmem' : branch ∈ row₁ ++ parent :: row₂ := by
                    simp only [List.mem_append, List.mem_cons] at hbranch ⊢
                    tauto
                  refine (hstands.above.2.1 branch hmem').of_ne_nil ?_ hmax
                  apply hstands.branches.rows_ne_nil
                  have hpos := List.length_pos_of_mem hbranch
                  simp at hpos ⊢
                  omega
                simp only [List.length_append, List.length_cons] at hfull
                intro branch hbranch
                rw [Branch.fits_withRoot]
                rcases List.mem_append.mp hbranch with h | h
                · exact hother branch (List.mem_append_left _ h)
                rcases List.mem_cons.mp h with rfl | h
                · apply Branch.fits_of_le
                  · simp only [Branch.array_withArray]
                    omega
                  · simp only [Branch.array_withArray]
                    omega
                  · exact hmax
                rcases List.mem_cons.mp h with rfl | h
                · apply Branch.fits_of_le
                  · simp only [List.length_cons]
                    omega
                  · simp only [List.length_cons]
                    omega
                  · exact hmax
                · exact hother branch (List.mem_append_right _ h)
            · exact hids
      · rw [if_neg hfull]
        refine Program.ends_bind (does_unpinPage ?_ (fun h => by cases h)
          (Program.ends_pure ?_))
        · rw [h₁.pins_eq]
          exact Multiset.mem_cons_self _ _
        refine hQ tree _
          ((row₁ ++ parent.withArray
            (items₁ ++ item :: (key, new.pageId) :: items₂) :: row₂) :: rows)
          ?_ ?_ ?_ ?_
        · constructor
          · rfl
          · refine ⟨h₁.nextPageId_eq.ge, fun pageId hids _ _ => ?_⟩
            apply h₁.other_eq
            rintro rfl
            apply hids
            simp [levelIds, rowIds_cons]
          · exact hbounded₁
          · rw [Finset.eq_empty_iff_forall_notMem]
            intro pageId howed'
            have hmem' := @h₁.owed_subset pageId
            simp at howed' hmem'
            tauto
          · rw [← hrecord]
            exact PageStore.record_congr (h₁.other_eq h₁.header_ne) _
          · intro name _
            exact PageStore.record_congr (h₁.other_eq h₁.header_ne) name
        · simp [h₁.pins_eq]
        · apply Level.stands_below
          · constructor
            · rw [List.map_append, List.map_cons]
              exact h₁.up.congr fun _ _ => rfl
            · rw [flatMap_refs_branch, List.flatMap_append, List.flatMap_cons]
              exact forall₂_at_congr h₁.nodes_at fun _ _ => rfl
            · exact (List.nodup_append.mp hnodup).1
            · intro node hnode hmem'
              apply hdisjoint node hnode
              simpa [levelIds, rowIds_cons, Function.comp_def] using hmem'
            · exact hheaderNodes
          · intro branch hbranch
            rcases List.mem_append.mp hbranch with hbranch | hbranch
            · exact hstands.above.2.1 _ (List.mem_append_left _ hbranch)
            · rcases List.mem_cons.mp hbranch with rfl | hbranch
              · have hfits := hstands.above.2.1 _ hmem
                have hlt := hfits.lt_maxSize
                have hle := hfits.le_size
                rw [hplace.array_eq] at hlt hle
                simp only [List.length_append, List.length_cons]
                  at hlt hle hfull
                constructor
                · simp only [Branch.array_withArray, List.length_append,
                    List.length_cons]
                  omega
                · simp only [Branch.array_withArray, List.length_append,
                    List.length_cons]
                  omega
              · exact hstands.above.2.1 _ (List.mem_append_right _
                  (List.mem_cons_of_mem _ hbranch))
        · intro pageId hid'
          left
          simpa [rowIds_cons] using hid'

end TicketSystem.Database
