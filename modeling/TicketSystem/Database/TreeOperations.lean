import TicketSystem.Database.TreeInsert
import TicketSystem.Database.TreeMap

/-!
# The operations of the tree

`GetValue`, `Insert` and `Remove` on a tree that holds a map: they end with the
answer of the map and leave a tree that holds the map after the operation, with
the pins that were there before.
-/

namespace TicketSystem.Database

open TicketSystem.Support

variable {K V : Type}

variable {frames : ℕ} {store : PageStore (PageData K V)}
  {tree : BPlusTreeNTS K}

theorem does_findLeafPage_empty {fuel : ℕ} {key : K}
    {Q : Option PageId → PageStore (PageData K V) → Prop}
    (hroot : tree.rootPageId = INVALID_PAGE_ID) (hQ : Q none store) :
    Does frames (tree.findLeafPage fuel key false false) store Q := by
  rw [BPlusTreeNTS.findLeafPage, if_pos hroot]
  exact Program.ends_pure hQ

/-! ## Splitting a leaf -/

theorem does_splitLeaf {pageId : PageId} {page : LeafPage K V}
    {kept moved : List (K × V)}
    {Q : PageId → PageStore (PageData K V) → Prop}
    (hin : pageId ∈ store.pins)
    (hlive : store.page pageId =
      some (.leaf { page with array := kept ++ moved }))
    (hkept : kept.length = page.maxSize / 2) (hbounded : store.Bounded)
    (hroom : store.pins.toFinset.card < frames)
    (hQ : Q store.nextPageId
      (((store.addPage (.leaf (LeafPage.init store.nextPageId
        page.parentPageId tree.leafMaxSize))).write pageId
          (.leaf { page with array := kept })).write store.nextPageId
            (.leaf
              { maxSize := tree.leafMaxSize
                parentPageId := page.parentPageId
                pageId := store.nextPageId
                nextPageId := INVALID_PAGE_ID
                array := moved }))) :
    Does frames (tree.splitLeaf pageId) store Q := by
  have hne : pageId ≠ store.nextPageId :=
    hbounded.ne_nextPageId (by rw [hlive]; rfl)
  have hdrop : (kept ++ moved).drop (page.maxSize / 2) = moved := by
    rw [← hkept, List.drop_left]
  have htake : (kept ++ moved).take (page.maxSize / 2) = kept := by
    rw [← hkept, List.take_left]
  have hsize : (kept ++ moved).length - page.maxSize / 2 = moved.length := by
    rw [List.length_append, ← hkept]
    omega
  refine Program.ends_bind (does_getLeaf hin hlive ?_)
  refine Program.ends_bind (does_newLeaf hroom ?_)
  refine Program.ends_bind (does_getLeaf (Multiset.mem_cons_self _ _)
    (Function.update_self _ _ _) ?_)
  simp only [LeafPage.moveHalfTo, LeafPage.minSize, LeafPage.size, hdrop,
    hsize, LeafPage.copyNFrom, LeafPage.setSize, htake, LeafPage.init,
    List.nil_append, List.take_length]
  refine Program.ends_bind (does_setData (Multiset.mem_cons_of_mem hin) ?_)
  refine Program.ends_bind (does_setData (Multiset.mem_cons_self _ _) ?_)
  exact Program.ends_pure hQ

namespace BPlusTreeNTS

/-- The end of `InsertIntoLeaf` at a full leaf. -/
def splitFullLeaf [Inhabited K] (tree : BPlusTreeNTS K) (fuel : ℕ)
    (leaf : PageId) : TreeM K V (Bool × BPlusTreeNTS K) := do
  let extra ← tree.splitLeaf leaf
  let extraNode ← getLeaf extra
  let node ← getLeaf leaf
  setData extra (.leaf { extraNode with nextPageId := node.nextPageId })
  setData leaf (.leaf { node with nextPageId := extraNode.pageId })
  let extraKey ← orStop .outOfRange (extraNode.keyAt 0)
  let tree ← insertIntoParent fuel tree leaf extraKey extra
  pure (true, tree)

end BPlusTreeNTS

theorem does_splitFullLeaf [Inhabited K] {before after : List (Leaf K V)}
    {leaf : Leaf K V} {rows : List (List (Branch K))}
    {items₁ items₂ : List (K × V)} {item : K × V} {base : Multiset PageId}
    {fuel : ℕ} {Q : Bool × BPlusTreeNTS K → PageStore (PageData K V) → Prop}
    (hstands : Stands tree store ((before ++ leaf :: after).map Node.leaf)
      rows)
    (harray : leaf.array = items₁ ++ item :: items₂)
    (hkept : items₁.length = tree.leafMaxSize / 2)
    (hmax : 4 ≤ tree.internalMaxSize)
    (hrecord : store.record tree.indexName = some tree.rootPageId)
    (hbounded : store.Bounded)
    (hpins : store.pins = leaf.pageId ::ₘ base)
    (howed : store.owed ⊆ {leaf.pageId})
    (hroom : base.toFinset.card + 4 ≤ frames) (hfuel : rows.length < fuel)
    (hQ : ∀ tree' store' rows', Steps tree store
      (levelIds ((before ++ leaf :: after).map Node.leaf) rows) tree' store' →
      store'.pins = base →
      Stands tree' store' ((before ++
        { leaf with nextPageId := store.nextPageId, array := items₁ } ::
          ⟨item.1, store.nextPageId, leaf.nextPageId, item :: items₂⟩ ::
            after).map Node.leaf) rows' →
      Q (true, tree') store') :
    Does frames (tree.splitFullLeaf fuel leaf.pageId) store Q := by
  have hmem : Node.leaf leaf ∈
      (before ++ leaf :: after).map (Node.leaf : Leaf K V → Node K V) :=
    List.mem_map_of_mem (by simp)
  obtain ⟨ref, -, hat⟩ := exists_of_forall₂_right hstands.nodes_at hmem
  have hpage : store.page leaf.pageId = some (.leaf
      { leaf.page tree ref.parentPageId with
        array := items₁ ++ item :: items₂ }) := by
    rw [← harray]
    exact hat.page_eq
  have hne : leaf.pageId ≠ store.nextPageId :=
    hbounded.ne_nextPageId (by rw [hpage]; rfl)
  have hheader := PageStore.isSome_of_record hrecord
  have hheaderNext := hbounded.ne_nextPageId hheader
  have hheaderLeaf : leaf.pageId ≠ HEADER_PAGE_ID := by
    intro heq
    apply hstands.header
    simp [levelIds, heq]
  have hcard := PageStore.card_cons_le base leaf.pageId
  refine Program.ends_bind (does_splitLeaf ?_ hpage hkept hbounded ?_ ?_)
  · rw [hpins]
    exact Multiset.mem_cons_self _ _
  · rw [hpins]
    omega
  refine Program.ends_bind (does_getLeaf ?_ (Function.update_self _ _ _) ?_)
  · simp
  refine Program.ends_bind (does_getLeaf ?_
    ((Function.update_of_ne hne _ _).trans (Function.update_self _ _ _)) ?_)
  · simp [hpins]
  refine Program.ends_bind (does_setData ?_ ?_)
  · simp
  refine Program.ends_bind (does_setData ?_ ?_)
  · simp [hpins]
  refine Program.ends_bind (does_orStop (show _ = some item.1 from rfl) ?_)
  apply Program.ends_bind
  generalize hstore : PageStore.write _ leaf.pageId _ = store₃
  have hpins₃ : store₃.pins = store.nextPageId ::ₘ leaf.pageId ::ₘ base := by
    rw [← hstore]
    simp [hpins]
  have hnext₃ : store₃.nextPageId = store.nextPageId + 1 := by
    rw [← hstore]
    rfl
  have hold : store₃.page leaf.pageId = some (.leaf
      (({ leaf with nextPageId := store.nextPageId, array := items₁ } :
        Leaf K V).page tree ref.parentPageId)) := by
    rw [← hstore]
    simp [Leaf.page]
  have hnew : store₃.page store.nextPageId = some (.leaf
      ((⟨item.1, store.nextPageId, leaf.nextPageId, item :: items₂⟩ :
        Leaf K V).page tree ref.parentPageId)) := by
    rw [← hstore]
    simp [Leaf.page, Function.update_of_ne, hne.symm]
  have hother : ∀ pageId, pageId ≠ leaf.pageId → pageId ≠ store.nextPageId →
      store₃.page pageId = store.page pageId := by
    intro pageId hleaf hnext
    rw [← hstore]
    simp [Function.update_of_ne, hleaf, hnext]
  have howed₃ : store₃.owed ⊆ {store.nextPageId, leaf.pageId} := by
    intro pageId hmem
    have howed' := @howed pageId
    rw [← hstore] at hmem
    simp at hmem howed' ⊢
    tauto
  have hbounded₃ : store₃.Bounded := by
    intro pageId hlive
    rw [hnext₃]
    by_cases heq : pageId = store.nextPageId
    · obtain ⟨hpos, hlt⟩ := hbounded _ (Option.isSome_of_eq_some hpage)
      exact ⟨heq ▸ hpos.trans hlt.le, heq ▸ Int.lt_succ _⟩
    · have hlive' : (store.page pageId).isSome := by
        by_cases hleaf : pageId = leaf.pageId
        · rw [hleaf, hpage]
          rfl
        · rwa [hother pageId hleaf heq] at hlive
      obtain ⟨hpos, hlt⟩ := hbounded pageId hlive'
      exact ⟨hpos, hlt.trans (Int.lt_succ _)⟩
  have hrecord₃ : ∀ name, store₃.record name = store.record name :=
    PageStore.record_congr (hother _ hheaderLeaf.symm hheaderNext)
  have hids : ∀ pageId ∈
      levelIds ((before ++ leaf :: after).map Node.leaf) rows,
      pageId ≠ store.nextPageId := fun pageId hmem =>
    hbounded.ne_nextPageId (hstands.isSome hmem)
  rw [List.map_append, List.map_cons] at hstands
  have hmove : ∀ {p}, store.page leaf.pageId =
      some ((Node.leaf leaf).data tree p) → p = ref.parentPageId := by
    intro p hp
    exact congrArg LeafPage.parentPageId
      (PageData.leaf.inj (Option.some.inj (hp.symm.trans hat.page_eq)))
  have hstands₃ : Stands tree store₃ (before.map Node.leaf ++
      Node.leaf { leaf with nextPageId := store.nextPageId, array := items₁ } ::
        after.map Node.leaf) rows := by
    refine hstands.update rfl rfl ?_ ?_
    · intro p hp
      rw [hmove hp]
      exact hold
    · intro pageId hmem hleaf
      apply hother pageId hleaf
      apply hids
      rw [List.map_append, List.map_cons]
      exact hmem
  refine @does_insertIntoParent K V frames store₃ tree _ rows
    (before.map Node.leaf) (after.map Node.leaf)
    (.leaf { leaf with nextPageId := store.nextPageId, array := items₁ })
    (.leaf ⟨item.1, store.nextPageId, leaf.nextPageId, item :: items₂⟩)
    item.1 base fuel _ hmax hstands₃ ?_ rfl ?_ hheaderNext.symm ?_ hbounded₃
    hpins₃ howed₃ hroom hfuel ?_
  · intro p hp
    obtain rfl : ref.parentPageId = p := congrArg LeafPage.parentPageId
      (PageData.leaf.inj (Option.some.inj (hold.symm.trans hp)))
    exact hnew
  · intro hmem
    refine hids store.nextPageId ?_ rfl
    simpa [levelIds] using hmem
  · rw [hrecord₃, hrecord]
  · intro tree' store' rows' hsteps hpins' hstands' _
    apply Program.ends_pure
    refine hQ tree' store' rows' ⟨hsteps.tree_eq, ⟨?_, ?_⟩, hsteps.bounded,
      hsteps.owed_eq, hsteps.record_self, ?_⟩ hpins' ?_
    · have hle := hsteps.touches.next_le
      rw [hnext₃] at hle
      exact (Int.lt_succ _).le.trans hle
    · intro pageId hout hheader' hlt
      have hleaf : pageId ≠ leaf.pageId := by
        rintro rfl
        exact hout (by simp [levelIds])
      refine (hsteps.touches.page_eq pageId ?_ hheader' ?_).trans
        (hother pageId hleaf hlt.ne)
      · rw [(levelIds_insert _ _ _ _).mem_iff, List.mem_cons]
        rintro (heq | hmem)
        · exact hlt.ne heq
        · apply hout
          simpa [levelIds] using hmem
      · rw [hnext₃]
        exact hlt.trans (Int.lt_succ _)
    · intro name hname
      rw [hsteps.record_eq name hname, hrecord₃]
    · rw [List.map_append, List.map_cons, List.map_cons]
      exact hstands'

/-! ## Operations -/

/-- What an operation leaves behind apart from the entries. -/
structure Served (tree : BPlusTreeNTS K) (store : PageStore (PageData K V))
    (tree' : BPlusTreeNTS K) (store' : PageStore (PageData K V)) : Prop where
  tree_eq : tree' = { tree with rootPageId := tree'.rootPageId }
  ready : Ready tree' store'
  pins_eq : store'.pins = store.pins
  next_le : store.nextPageId ≤ store'.nextPageId
  record_eq : ∀ name, name ≠ tree.indexName →
    store'.record name = store.record name

/-- One page that is not the header page was replaced. -/
theorem Ready.served_replace (h : Ready tree store) {pageId : PageId}
    {data : PageData K V} (hlive : (store.page pageId).isSome)
    (hheader : pageId ≠ HEADER_PAGE_ID) :
    Served tree store tree (store.replace pageId data) := by
  have hrecord : ∀ name, (store.replace pageId data).record name =
      store.record name :=
    PageStore.record_congr (Function.update_of_ne hheader.symm _ _)
  refine ⟨rfl, ⟨?_, ?_, ?_⟩, rfl, le_rfl, fun name _ => hrecord name⟩
  · refine h.bounded.congr rfl fun other hother => ?_
    by_cases heq : other = pageId
    · exact heq ▸ hlive
    · rwa [PageStore.replace_page, Function.update_of_ne heq] at hother
  · rw [PageStore.replace_owed, h.owed_eq, Finset.erase_empty]
  · rw [hrecord]
    exact h.record_eq

section Operations

variable [LinearOrder K] {entries : List (K × V)} {key : K} {value : V}
  {fuel : ℕ}

theorem Holds.sorted (h : Holds tree store entries) : KeySorted entries := by
  cases h with
  | empty hroot => exact .nil
  | leaves leaves rows hshape => exact hshape.row.sorted

/-! ### GetValue -/

/-- What `GetValue` answers and pushes. -/
def pushed (result : List V) : Option V → Bool × List V
  | none => (false, result)
  | some value => (true, result ++ [value])

theorem Holds.does_getValue (h : Holds tree store entries)
    (hcmp : Compares tree.comparator) (hready : Ready tree store)
    (hmax : 4 ≤ tree.leafMaxSize) (hmax' : 4 ≤ tree.internalMaxSize)
    (hfuel : entries.length ≤ fuel)
    (hroom : store.pins.toFinset.card + 2 ≤ frames) {result : List V}
    {Q : Bool × List V → PageStore (PageData K V) → Prop}
    (hQ : Q (pushed result (lookupKey key entries)) store) :
    Does frames (tree.getValue fuel key result) store Q := by
  cases h with
  | empty hroot =>
      refine Program.ends_bind (does_findLeafPage_empty hroot ?_)
      exact Program.ends_pure hQ
  | leaves leaves rows hshape =>
      have hrows := hshape.length_rows_lt hmax hmax'
      refine Program.ends_bind (hshape.does_findLeafPage hcmp hready hmax'
        (by omega) hroom ?_)
      rintro before leaf after parentPageId rfl hlow hafter hpage
      have hlookup : (leaf.page tree parentPageId).lookup tree.comparator key =
          some (lookupKey key leaf.array) :=
        LeafPage.lookup_eq hcmp (hshape.row.ordered leaf (by simp)).sorted
      rw [hshape.row.lookupKey_eq hlow hafter] at hQ
      refine Program.ends_bind (does_getLeaf (Multiset.mem_cons_self _ _)
        hpage ?_)
      refine Program.ends_bind (does_orStop hlookup ?_)
      refine Program.ends_bind (does_unpinPage (Multiset.mem_cons_self _ _)
        ?_ ?_)
      · intro _
        rw [PageStore.pin_owed, hready.owed_eq]
        exact Finset.notMem_empty _
      have hstore : (store.pin leaf.pageId).unpin leaf.pageId false =
          store := by
        simp [PageStore.pin, PageStore.unpin]
      rw [show (leaf.page tree parentPageId).pageId = leaf.pageId from rfl,
        hstore]
      cases hfound : lookupKey key leaf.array with
      | none =>
          rw [hfound] at hQ
          exact Program.ends_pure hQ
      | some value =>
          rw [hfound] at hQ
          exact Program.ends_pure hQ

/-! ### Insert -/

theorem does_startNewTree (hcmp : Compares tree.comparator)
    (hready : Ready tree store) (hmax : 4 ≤ tree.leafMaxSize)
    (hroom : store.pins.toFinset.card + 2 ≤ frames)
    {Q : BPlusTreeNTS K → PageStore (PageData K V) → Prop}
    (hQ : ∀ tree' store', Served tree store tree' store' →
      Holds tree' store' [(key, value)] → Q tree' store') :
    Does frames (tree.startNewTree key value) store Q := by
  have hheader := PageStore.isSome_of_record hready.record_eq
  have hheaderNext := hready.bounded.ne_nextPageId hheader
  have hnonneg : 0 ≤ store.nextPageId :=
    (hready.bounded _ hheader).1.trans (hready.bounded _ hheader).2.le
  have hcard := PageStore.card_cons_le store.pins store.nextPageId
  have hinsert : (LeafPage.init store.nextPageId INVALID_PAGE_ID
      tree.leafMaxSize : LeafPage K V).insert tree.comparator key value =
        some (1, (⟨⊥, store.nextPageId, INVALID_PAGE_ID, [(key, value)]⟩ :
          Leaf K V).page tree INVALID_PAGE_ID) := by
    rw [LeafPage.insert_eq hcmp]
    · rfl
    · exact .nil
    · exact Nat.zero_lt_of_lt hmax
  refine Program.ends_bind (does_newLeaf (by omega) ?_)
  refine Program.ends_bind (does_getLeaf (Multiset.mem_cons_self _ _)
    (Function.update_self _ _ _) ?_)
  refine Program.ends_bind (does_orStop hinsert ?_)
  refine Program.ends_bind (does_setData (Multiset.mem_cons_self _ _) ?_)
  refine Program.ends_bind (does_unpinPage (Multiset.mem_cons_self _ _)
    (fun h => by cases h) ?_)
  refine Program.ends_bind (does_updateRootPageId
    ((PageStore.record_congr ?_ tree.indexName).trans hready.record_eq) ?_ ?_)
  · simp [Leaf.page, Function.update_of_ne, hheaderNext]
  · right
    simp [Leaf.page]
    omega
  intro store' hrecorded
  apply Program.ends_pure
  apply hQ
  · constructor
    · rfl
    · constructor
      · have hlive : ((store.addPage (.leaf (LeafPage.init store.nextPageId
            INVALID_PAGE_ID tree.leafMaxSize))).page
              store.nextPageId).isSome := by simp
        refine ((hready.bounded.addPage hnonneg _).write hlive _).congr
          hrecorded.nextPageId_eq fun pageId => (hrecorded.isSome_iff pageId).mp
      · rw [hrecorded.owed_eq, Finset.eq_empty_iff_forall_notMem]
        intro pageId hmem
        simp [Leaf.page, hready.owed_eq] at hmem
      · exact hrecorded.record_self
    · rw [hrecorded.pins_eq]
      simp [Leaf.page]
    · simp [hrecorded.nextPageId_eq]
    · intro name hname
      refine (hrecorded.record_eq name hname).trans
        (PageStore.record_congr ?_ name)
      simp [Leaf.page, Function.update_of_ne, hheaderNext]
  · change Holds _ _ (entriesOf [(⟨⊥, store.nextPageId, INVALID_PAGE_ID,
      [(key, value)]⟩ : Leaf K V)])
    refine .leaves _ [] ⟨⟨.cons ⟨rfl, rfl, ?_⟩ .nil, trivial, ?_, ?_⟩, ?_,
      ⟨?_, List.pairwise_singleton _ _, ?_, ⟨rfl, trivial⟩⟩⟩
    · refine (hrecorded.page_eq _ hheaderNext.symm).trans ?_
      simp [Leaf.page]
      rfl
    · simp [levelIds, rowIds]
    · simpa [levelIds, rowIds] using hheaderNext
    · intro leaf hleaf
      obtain rfl := List.mem_singleton.mp hleaf
      exact ⟨hmax.trans' (by simp), by simp⟩
    · intro leaf hleaf
      obtain rfl := List.mem_singleton.mp hleaf
      exact ⟨fun e he => bot_le, List.pairwise_singleton _ _⟩
    · intro leaf hleaf
      obtain rfl : _ = leaf := by simpa using hleaf
      rfl

section Leaf

variable {leaves before after : List (Leaf K V)} {leaf : Leaf K V}
  {rows : List (List (Branch K))}

/-- Several leaves are below at least one row, so that none of them is the
root. -/
theorem Shape.sized (h : Shape tree store (before ++ leaf :: after) rows) :
    ∀ other ∈ before ++ after, (Node.leaf other).Sized tree true := by
  intro other hother
  have hrows : rows ≠ [] := by
    apply h.stands.rows_ne_nil
    have hpos := List.length_pos_of_mem hother
    simp only [List.length_map, List.length_append, List.length_cons] at hpos ⊢
    omega
  have hmem : other ∈ before ++ leaf :: after := by
    simp only [List.mem_append, List.mem_cons] at hother ⊢
    tauto
  have hle := (h.fits other hmem).le_size
  rw [if_neg hrows] at hle
  exact ⟨rfl, hle, (h.fits other hmem).lt_maxSize⟩

/-- One leaf gets other items. -/
theorem Shape.withArray {array : List (K × V)} {store' : PageStore (PageData K V)}
    (h : Shape tree store (before ++ leaf :: after) rows)
    (hrow : LeafRow (before ++ { leaf with array := array } :: after))
    (hfits : ({ leaf with array := array } : Leaf K V).Fits tree rows)
    (hpage : ∀ parentPageId,
      store.page leaf.pageId = some (.leaf (leaf.page tree parentPageId)) →
        store'.page leaf.pageId = some (.leaf
          (({ leaf with array := array } : Leaf K V).page tree parentPageId)))
    (hother : ∀ pageId, pageId ≠ leaf.pageId →
      store'.page pageId = store.page pageId) :
    Shape tree store' (before ++ { leaf with array := array } :: after)
      rows := by
  have hstands := h.stands
  rw [List.map_append, List.map_cons] at hstands
  refine ⟨?_, fun other hmem => ?_, hrow⟩
  · rw [List.map_append, List.map_cons]
    exact hstands.update rfl rfl hpage fun pageId _ hne => hother pageId hne
  · rcases List.mem_append.mp hmem with hmem | hmem
    · exact h.fits other (List.mem_append_left _ hmem)
    rcases List.mem_cons.mp hmem with rfl | hmem
    · exact hfits
    · exact h.fits other (List.mem_append_right _ (List.mem_cons_of_mem _ hmem))

/-- The root is a page. -/
theorem Shape.rootPageId_ne (h : Shape tree store leaves rows)
    (hready : Ready tree store) : tree.rootPageId ≠ INVALID_PAGE_ID := by
  obtain ⟨nodes, hstands⟩ := h.stands.exists_root
  obtain ⟨node, -, hat⟩ := hstands.root
  have hpos := (hready.bounded _ (Option.isSome_of_eq_some hat.page_eq)).1
  have hid : tree.rootPageId = node.pageId := hat.pageId_eq
  intro heq
  rw [← hid, heq] at hpos
  exact absurd hpos (by decide)

theorem Shape.does_insertIntoLeaf [Inhabited K]
    (h : Shape tree store leaves rows) (hcmp : Compares tree.comparator)
    (hready : Ready tree store) (hmax : 4 ≤ tree.leafMaxSize)
    (hmax' : 4 ≤ tree.internalMaxSize) (hfuel : rows.length < fuel)
    (hroom : store.pins.toFinset.card + 4 ≤ frames)
    {Q : Bool × BPlusTreeNTS K → PageStore (PageData K V) → Prop}
    (hQ : ∀ tree' store', Served tree store tree' store' →
      Holds tree' store' (insertKey key value (entriesOf leaves)) →
      Q ((lookupKey key (entriesOf leaves)).isNone, tree') store') :
    Does frames (tree.insertIntoLeaf fuel key value) store Q := by
  refine Program.ends_bind (h.does_findLeafPage hcmp hready hmax' hfuel.le
    (by omega) ?_)
  rintro before leaf after parentPageId rfl hlow hafter hpage
  have hleaf := h.row.ordered leaf (by simp)
  have hfits := h.fits leaf (by simp)
  have hheader : leaf.pageId ≠ HEADER_PAGE_ID := by
    intro heq
    apply h.stands.header
    simp [levelIds, heq]
  rw [h.row.insertKey_eq hlow hafter, h.row.lookupKey_eq hlow hafter] at hQ
  have hrow : LeafRow (before ++
      { leaf with array := insertKey key value leaf.array } :: after) :=
    h.row.insert hlow hafter
  have hlength := length_insertKey hleaf.sorted key value
  have hinsert : (leaf.page tree parentPageId).insert tree.comparator key
      value = some (if (lookupKey key leaf.array).isSome then -1
        else (leaf.array.length : ℤ) + 1,
        ({ leaf with array := insertKey key value leaf.array } :
          Leaf K V).page tree parentPageId) := by
    apply LeafPage.insert_eq hcmp
    · exact hleaf.sorted
    · exact hfits.lt_maxSize
  refine Program.ends_bind (does_orStop rfl ?_)
  refine Program.ends_bind (does_getLeaf (Multiset.mem_cons_self _ _) hpage ?_)
  refine Program.ends_bind (does_orStop hinsert ?_)
  refine Program.ends_bind (does_setData (Multiset.mem_cons_self _ _) ?_)
  -- the leaf alone changes
  have hkeep : (insertKey key value leaf.array).length < tree.leafMaxSize →
      Served tree store tree (store.replace leaf.pageId (.leaf
        (({ leaf with array := insertKey key value leaf.array } :
          Leaf K V).page tree parentPageId))) ∧
      Holds tree (store.replace leaf.pageId (.leaf
        (({ leaf with array := insertKey key value leaf.array } :
          Leaf K V).page tree parentPageId)))
        (entriesOf (before ++
          { leaf with array := insertKey key value leaf.array } ::
            after)) := by
    intro hlt
    have hge : leaf.array.length ≤
        (insertKey key value leaf.array).length := by
      rw [hlength]
      split_ifs
      · exact le_refl _
      · exact Nat.le_succ _
    constructor
    · exact hready.served_replace (Option.isSome_of_eq_some hpage) hheader
    · refine .leaves _ rows (h.withArray hrow ⟨hlt, ?_⟩ ?_ ?_)
      · exact hfits.le_size.trans hge
      · intro p hp
        obtain rfl : parentPageId = p := congrArg LeafPage.parentPageId
          (PageData.leaf.inj (Option.some.inj (hpage.symm.trans hp)))
        exact Function.update_self _ _ _
      · exact fun pageId hne => Function.update_of_ne hne _ _
  by_cases hfound : (lookupKey key leaf.array).isSome
  · rw [if_pos hfound] at hlength
    obtain ⟨hserved, hholds⟩ := hkeep (hlength ▸ hfits.lt_maxSize)
    simp only [if_pos hfound]
    refine Program.ends_bind (does_unpinPage (Multiset.mem_cons_self _ _)
      (fun h => by cases h) ?_)
    apply Program.ends_pure
    have hQ' := hQ tree _ hserved hholds
    rw [Option.isNone_eq_false_iff.mpr hfound,
      ← PageStore.unpin_write_pin] at hQ'
    exact hQ'
  · simp only [if_neg hfound]
    rw [if_neg (by omega)]
    rw [if_neg hfound] at hlength
    have hnone : (lookupKey key leaf.array).isNone = true := by
      simpa using hfound
    rw [hnone] at hQ
    by_cases hlt : (insertKey key value leaf.array).length < tree.leafMaxSize
    · rw [if_pos (by exact hlt)]
      obtain ⟨hserved, hholds⟩ := hkeep hlt
      refine Program.ends_bind (does_unpinPage (Multiset.mem_cons_self _ _)
        (fun h => by cases h) ?_)
      apply Program.ends_pure
      have hQ' := hQ tree _ hserved hholds
      rw [← PageStore.unpin_write_pin] at hQ'
      exact hQ'
    · rw [if_neg (by exact hlt)]
      have hfull : (insertKey key value leaf.array).length =
          tree.leafMaxSize := by
        have hlt' := hfits.lt_maxSize
        omega
      obtain ⟨items₁, item, items₂, harray, hkept⟩ := exists_pieces
        (show tree.leafMaxSize / 2 < (insertKey key value leaf.array).length by
          omega)
      have hlength₂ := congrArg List.length harray
      rw [hfull, List.length_append, List.length_cons, hkept] at hlength₂
      refine @does_splitFullLeaf K V frames _ tree _ before after
        { leaf with array := insertKey key value leaf.array } rows items₁
        items₂ item store.pins fuel _ ?_ harray hkept hmax' ?_ ?_ rfl ?_ hroom
        hfuel ?_
      · have hstands := h.stands
        rw [List.map_append, List.map_cons] at hstands ⊢
        refine hstands.update rfl rfl ?_ ?_
        · intro p hp
          obtain rfl : parentPageId = p := congrArg LeafPage.parentPageId
            (PageData.leaf.inj (Option.some.inj (hpage.symm.trans hp)))
          exact Function.update_self _ _ _
        · exact fun pageId _ hne => Function.update_of_ne hne _ _
      · rw [PageStore.record_congr]
        · exact hready.record_eq
        · exact Function.update_of_ne hheader.symm _ _
      · have hlive : ((store.pin leaf.pageId).page leaf.pageId).isSome :=
          Option.isSome_of_eq_some hpage
        exact PageStore.Bounded.write hready.bounded hlive _
      · intro pageId hmem
        simpa [hready.owed_eq] using hmem
      · intro tree' store' rows' hsteps hpins' hstands'
        apply hQ tree' store'
        · refine ⟨hsteps.tree_eq, hsteps.ready, hpins', hsteps.touches.next_le,
            fun name hname => ?_⟩
          rw [hsteps.record_eq name hname]
          apply PageStore.record_congr
          exact Function.update_of_ne hheader.symm _ _
        · have hne : items₁ ≠ [] := by
            apply List.length_pos_iff.mp
            omega
          have hentries : entriesOf (before ++
              { leaf with array := insertKey key value leaf.array } ::
                after) = entriesOf (before ++
              { leaf with nextPageId := store.nextPageId, array := items₁ } ::
                ⟨item.1, store.nextPageId, leaf.nextPageId, item :: items₂⟩ ::
                  after) := by
            rw [entriesOf_pieces, entriesOf_pieces, entriesOf_cons, harray]
            simp only [List.append_assoc]
          rw [hentries]
          refine .leaves _ rows' ⟨hstands', ?_, hrow.split harray hne⟩
          intro other hother
          have hsized : (Node.leaf other).Sized tree true := by
            rcases List.mem_append.mp hother with hother | hother
            · exact h.sized other (List.mem_append_left _ hother)
            rcases List.mem_cons.mp hother with rfl | hother
            · refine ⟨rfl, hkept.ge, ?_⟩
              exact hkept.trans_lt (Nat.div_lt_self (by omega) (by omega))
            rcases List.mem_cons.mp hother with rfl | hother
            · refine ⟨rfl, ?_, ?_⟩
              · exact (show tree.leafMaxSize / 2 ≤ items₂.length + 1 by omega)
              · exact (show items₂.length + 1 < tree.leafMaxSize by omega)
            · exact h.sized other (List.mem_append_right _ hother)
          have hfits' : other.Fits tree rows' :=
            Leaf.fits_of_sized hsized hmax
          rw [hsteps.tree_eq]
          exact ⟨hfits'.lt_maxSize, hfits'.le_size⟩

end Leaf

theorem Holds.does_insert [Inhabited K] (h : Holds tree store entries)
    (hcmp : Compares tree.comparator) (hready : Ready tree store)
    (hmax : 4 ≤ tree.leafMaxSize) (hmax' : 4 ≤ tree.internalMaxSize)
    (hfuel : entries.length ≤ fuel)
    (hroom : store.pins.toFinset.card + 4 ≤ frames)
    {Q : Bool × BPlusTreeNTS K → PageStore (PageData K V) → Prop}
    (hQ : ∀ tree' store', Served tree store tree' store' →
      Holds tree' store' (insertKey key value entries) →
      Q ((lookupKey key entries).isNone, tree') store') :
    Does frames (tree.insert fuel key value) store Q := by
  cases h with
  | empty hroot =>
      rw [BPlusTreeNTS.insert, if_pos (by simpa [BPlusTreeNTS.isEmpty])]
      refine Program.ends_bind
        (does_startNewTree hcmp hready hmax (by omega) ?_)
      intro tree' store' hserved hholds
      exact Program.ends_pure (hQ tree' store' hserved hholds)
  | leaves leaves rows hshape =>
      have hrows := hshape.length_rows_lt hmax hmax'
      have hroot : tree.rootPageId ≠ INVALID_PAGE_ID :=
        hshape.rootPageId_ne hready
      rw [BPlusTreeNTS.insert, if_neg (by simpa [BPlusTreeNTS.isEmpty])]
      exact hshape.does_insertIntoLeaf hcmp hready hmax hmax' (by omega) hroom
        hQ

/-! ### Remove -/

theorem Holds.does_remove (h : Holds tree store entries)
    (hcmp : Compares tree.comparator) (hready : Ready tree store)
    (hmax : 4 ≤ tree.leafMaxSize) (hmax' : 4 ≤ tree.internalMaxSize)
    (hfuel : entries.length ≤ fuel)
    (hpins : ∀ pageId ∈ store.pins, pageId = HEADER_PAGE_ID)
    (hroom : store.pins.toFinset.card + 4 ≤ frames)
    {Q : Bool × BPlusTreeNTS K → PageStore (PageData K V) → Prop}
    (hQ : ∀ tree' store', Served tree store tree' store' →
      Holds tree' store' (eraseKey key entries) →
      Q ((lookupKey key entries).isSome, tree') store') :
    Does frames (tree.remove fuel key) store Q := by
  cases h with
  | empty hroot =>
      refine Program.ends_bind (does_findLeafPage_empty hroot ?_)
      apply Program.ends_pure
      exact hQ tree store ⟨rfl, hready, rfl, le_rfl, fun _ _ => rfl⟩
        (.empty hroot)
  | leaves leaves rows hshape =>
      have hrows := hshape.length_rows_lt hmax hmax'
      refine Program.ends_bind (hshape.does_findLeafPage hcmp hready hmax'
        (by omega) (by omega) ?_)
      rintro before leaf after parentPageId rfl hlow hafter hpage
      have hleaf := hshape.row.ordered leaf (by simp)
      have hfits := hshape.fits leaf (by simp)
      have hheader : leaf.pageId ≠ HEADER_PAGE_ID := by
        intro heq
        apply hshape.stands.header
        simp [levelIds, heq]
      rw [hshape.row.eraseKey_eq hlow hafter,
        hshape.row.lookupKey_eq hlow hafter] at hQ
      have hrow := hshape.row.erase key
      have hlength := length_eraseKey hleaf.sorted key
      have hremove : (leaf.page tree parentPageId).removeAndDeleteRecord
          tree.comparator key = some (if (lookupKey key leaf.array).isSome
            then (leaf.array.length : ℤ) - 1 else -1,
            ({ leaf with array := eraseKey key leaf.array } :
              Leaf K V).page tree parentPageId) := by
        apply LeafPage.removeAndDeleteRecord_eq hcmp
        exact hleaf.sorted
      refine Program.ends_bind
        (does_getLeaf (Multiset.mem_cons_self _ _) hpage ?_)
      refine Program.ends_bind (does_orStop hremove ?_)
      by_cases hfound : (lookupKey key leaf.array).isSome
      · have hpos := List.length_pos_iff.mpr
          (hshape.ne_nil hmax leaf (by simp))
        simp only [if_pos hfound]
        rw [if_neg (by omega)]
        rw [if_pos hfound] at hlength
        rw [hfound] at hQ
        refine Program.ends_bind (does_setData (Multiset.mem_cons_self _ _) ?_)
        apply Program.ends_bind
        refine @does_coalesceOrRedistribute_leaf K V frames _ tree store.pins
          { leaf with array := eraseKey key leaf.array } before after rows _ _
          fuel ?_ hrow ?_ ?_ ?_ hmax hmax' ?_ ?_ rfl ?_ ?_ hroom (by omega) ?_
        · have hstands := hshape.stands
          rw [List.map_append, List.map_cons] at hstands ⊢
          refine hstands.update rfl rfl ?_ ?_
          · intro p hp
            obtain rfl : parentPageId = p := congrArg LeafPage.parentPageId
              (PageData.leaf.inj (Option.some.inj (hpage.symm.trans hp)))
            exact Function.update_self _ _ _
          · exact fun pageId _ hne => Function.update_of_ne hne _ _
        · intro other hother
          apply hshape.fits
          simp only [List.mem_append, List.mem_cons] at hother ⊢
          tauto
        · have hlt := hfits.lt_maxSize
          change (eraseKey key leaf.array).length < _
          omega
        · have hle := hfits.le_size
          change _ ≤ (eraseKey key leaf.array).length + 1
          omega
        · rw [PageStore.record_congr]
          · exact hready.record_eq
          · exact Function.update_of_ne hheader.symm _ _
        · have hlive : ((store.pin leaf.pageId).page leaf.pageId).isSome :=
            Option.isSome_of_eq_some hpage
          exact PageStore.Bounded.write hready.bounded hlive _
        · intro pageId hmem hpin
          apply hshape.stands.header
          rw [← hpins pageId hpin]
          simpa [levelIds] using hmem
        · intro pageId hmem
          simpa [hready.owed_eq] using hmem
        · intro b tree' store' hsteps hpins' hholds
          apply Program.ends_pure
          apply hQ tree' store' _ hholds
          refine ⟨hsteps.tree_eq, hsteps.ready, hpins', hsteps.touches.next_le,
            fun name hname => ?_⟩
          rw [hsteps.record_eq name hname]
          apply PageStore.record_congr
          exact Function.update_of_ne hheader.symm _ _
      · have hnone : lookupKey key leaf.array = none := by simpa using hfound
        simp only [if_neg hfound, if_true]
        refine Program.ends_bind (does_unpinPage (Multiset.mem_cons_self _ _)
          ?_ ?_)
        · intro _
          rw [PageStore.pin_owed, hready.owed_eq]
          exact Finset.notMem_empty _
        have hstore : (store.pin leaf.pageId).unpin leaf.pageId false =
            store := by
          simp [PageStore.pin, PageStore.unpin]
        rw [hstore]
        apply Program.ends_pure
        have hQ' := hQ tree store ⟨rfl, hready, rfl, le_rfl, fun _ _ => rfl⟩
        rw [eraseKey_eq_self hnone, hnone] at hQ'
        exact hQ' (.leaves _ rows hshape)

end Operations

end TicketSystem.Database
