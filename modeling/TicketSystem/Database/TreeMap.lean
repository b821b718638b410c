import TicketSystem.Database.TreeLeaves

/-!
# The tree as a map

A tree holds the entries of its leaves.  Searching finds the leaf of a key and
looks there; insertion and removal change that leaf and then restore the sizes
of the nodes, by splits on the way up or by merges.
-/

namespace TicketSystem.Database

open TicketSystem.Support

variable {K V : Type}

/-! ## States -/

/-- What the operations of a tree need of the pages. -/
structure Ready (tree : BPlusTreeNTS K) (store : PageStore (PageData K V)) :
    Prop where
  bounded : store.Bounded
  owed_eq : store.owed = ∅
  record_eq : store.record tree.indexName = some tree.rootPageId

section Shape

variable [LinearOrder K]

/-- The tree has these leaves below these rows. -/
structure Shape (tree : BPlusTreeNTS K) (store : PageStore (PageData K V))
    (leaves : List (Leaf K V)) (rows : List (List (Branch K))) : Prop where
  stands : Stands tree store (leaves.map Node.leaf) rows
  fits : ∀ leaf ∈ leaves, leaf.Fits tree rows
  row : LeafRow leaves

/-- The tree holds the entries. -/
inductive Holds (tree : BPlusTreeNTS K) (store : PageStore (PageData K V)) :
    List (K × V) → Prop
  | empty (hroot : tree.rootPageId = INVALID_PAGE_ID) : Holds tree store []
  | leaves (leaves : List (Leaf K V)) (rows : List (List (Branch K)))
      (hshape : Shape tree store leaves rows) :
      Holds tree store (entriesOf leaves)

end Shape

variable {frames : ℕ} {store : PageStore (PageData K V)}
  {tree : BPlusTreeNTS K}

theorem Steps.ready {ids : List PageId} {tree' : BPlusTreeNTS K}
    {store' : PageStore (PageData K V)}
    (h : Steps tree store ids tree' store') : Ready tree' store' where
  bounded := h.bounded
  owed_eq := h.owed_eq
  record_eq := by
    have hname : tree'.indexName = tree.indexName := by rw [h.tree_eq]
    rw [hname]
    exact h.record_self

/-! ## The height -/

/-- Each row is longer than the one above it. -/
theorem Stands.length_lt (hmax : 4 ≤ tree.internalMaxSize)
    {nodes : List (Node K V)} {rows : List (List (Branch K))}
    (h : Stands tree store nodes rows) : rows.length < nodes.length := by
  induction rows generalizing nodes with
  | nil =>
      obtain ⟨node, rfl, -⟩ := h.root
      exact Nat.zero_lt_one
  | cons row rows ih =>
      have hrow : rows.length < row.length := by
        simpa using ih h.branches
      have hnodes : nodes.length = (row.map fun b => b.array.length).sum := by
        rw [← h.nodes_at.length_eq, refsAbove, List.length_flatMap]
        simp only [Branch.refs, length_refsOf]
      have htwo : ∀ size ∈ row.map fun b => b.array.length, 2 ≤ size := by
        intro size hsize
        obtain ⟨branch, hbranch, rfl⟩ := List.mem_map.mp hsize
        have hle := (h.above.2.1 branch hbranch).le_size
        split_ifs at hle <;> omega
      have hsum := List.card_nsmul_le_sum _ 2 htwo
      rw [List.length_map, smul_eq_mul] at hsum
      rw [List.length_cons]
      omega

theorem Stands.exists_root {nodes : List (Node K V)}
    {rows : List (List (Branch K))} (h : Stands tree store nodes rows) :
    ∃ nodes' : List (Node K V), Stands tree store nodes' [] := by
  induction rows generalizing nodes with
  | nil => exact ⟨nodes, h⟩
  | cons row rows ih => exact ih h.branches

/-- A leaf holds at least one entry. -/
theorem length_le_entriesOf {leaves : List (Leaf K V)}
    (h : ∀ leaf ∈ leaves, leaf.array ≠ []) :
    leaves.length ≤ (entriesOf leaves).length := by
  induction leaves with
  | nil => exact Nat.zero_le _
  | cons leaf leaves ih =>
      have hleaf := List.length_pos_iff.mpr (h leaf List.mem_cons_self)
      have hrest := ih fun l hl => h l (List.mem_cons_of_mem _ hl)
      rw [entriesOf_cons, List.length_append, List.length_cons]
      omega

section Height

variable [LinearOrder K] {leaves : List (Leaf K V)}
  {rows : List (List (Branch K))}

theorem Shape.ne_nil (h : Shape tree store leaves rows)
    (hmax : 4 ≤ tree.leafMaxSize) : ∀ leaf ∈ leaves, leaf.array ≠ [] := by
  intro leaf hleaf hnil
  have hle := (h.fits leaf hleaf).le_size
  rw [hnil, List.length_nil] at hle
  split_ifs at hle <;> omega

theorem Shape.length_rows_lt (h : Shape tree store leaves rows)
    (hmax : 4 ≤ tree.leafMaxSize) (hmax' : 4 ≤ tree.internalMaxSize) :
    rows.length < (entriesOf leaves).length := by
  have hlt := h.stands.length_lt hmax'
  rw [List.length_map] at hlt
  exact hlt.trans_le (length_le_entriesOf (h.ne_nil hmax))

end Height

/-! ## Search -/

section Search

variable [LinearOrder K] {leaves : List (Leaf K V)}
  {rows : List (List (Branch K))} {key : K} {fuel : ℕ}

/-- The reference to the leaf whose bounds enclose the key. -/
theorem Shape.exists_ref {before after : List (Leaf K V)} {leaf : Leaf K V}
    (h : Shape tree store (before ++ leaf :: after) rows)
    (hbefore : ∀ l ∈ before, l.low ≤ (key : WithBot K))
    (hlow : leaf.low ≤ (key : WithBot K))
    (hafter : ∀ l ∈ after, (key : WithBot K) < l.low) :
    ∃ refs₁ ref refs₂,
      refsAbove tree.rootPageId rows = refs₁ ++ ref :: refs₂ ∧
      Encloses key refs₁ ref refs₂ ∧ Node.At tree store ref (.leaf leaf) := by
  have hnodes := h.stands.nodes_at
  rw [List.map_append, List.map_cons] at hnodes
  obtain ⟨refs₁, ref, refs₂, hrefs, hat₁, hat, hat₂⟩ :=
    forall₂_pieces_right hnodes
  refine ⟨refs₁, ref, refs₂, hrefs, ⟨?_, ?_, ?_⟩, hat⟩
  · intro r hr
    obtain ⟨node, hnode, hrat⟩ := exists_of_forall₂_left hat₁ hr
    obtain ⟨l, hl, rfl⟩ := List.mem_map.mp hnode
    rw [hrat.low_eq]
    exact hbefore l hl
  · rw [hat.low_eq]
    exact hlow
  · intro r hr
    obtain ⟨node, hnode, hrat⟩ := exists_of_forall₂_left hat₂ hr
    obtain ⟨l, hl, rfl⟩ := List.mem_map.mp hnode
    rw [hrat.low_eq]
    exact hafter l hl

/-- `FindLeafPage` finds the leaf of the key. -/
theorem Shape.does_findLeafPage (h : Shape tree store leaves rows)
    (hcmp : Compares tree.comparator) (hready : Ready tree store)
    (hmax : 4 ≤ tree.internalMaxSize) (hfuel : rows.length ≤ fuel)
    (hroom : store.pins.toFinset.card + 2 ≤ frames)
    {Q : Option PageId → PageStore (PageData K V) → Prop}
    (hQ : ∀ before leaf after parentPageId, leaves = before ++ leaf :: after →
      leaf.low ≤ (key : WithBot K) →
      (∀ l ∈ after, (key : WithBot K) < l.low) →
      store.page leaf.pageId = some (.leaf (leaf.page tree parentPageId)) →
      Q (some leaf.pageId) (store.pin leaf.pageId)) :
    Does frames (tree.findLeafPage fuel key false false) store Q := by
  have hne : leaves ≠ [] := by
    rintro rfl
    have hlt := h.stands.length_lt hmax
    simp at hlt
  obtain ⟨before, leaf, after, rfl, hbefore, hlow, hafter⟩ :=
    h.row.exists_leaf hne key
  obtain ⟨refs₁, ref, refs₂, hrefs, hencl, hat⟩ :=
    h.exists_ref hbefore hlow hafter
  obtain ⟨extra, rfl⟩ := Nat.exists_eq_add_of_le' hfuel
  have hpage : store.page ref.pageId =
      some (.leaf (leaf.page tree ref.parentPageId)) := by
    rw [hat.pageId_eq]
    exact hat.page_eq
  refine Database.does_findLeafPage hcmp h.stands.above hmax hrefs hencl
    hpage hready.bounded ?_ hroom ?_
  · intro pageId _
    rw [hready.owed_eq]
    exact Finset.notMem_empty _
  · refine does_descend_leaf (Multiset.mem_cons_self _ _) hpage ?_
    rw [hat.pageId_eq] at hpage ⊢
    exact hQ before leaf after ref.parentPageId rfl hlow hafter hpage

end Search

/-! ## Removal -/

section Remove

variable {base : Multiset PageId} {leaf : Leaf K V}
  {leaves₁ leaves₂ : List (Leaf K V)} {rows : List (List (Branch K))}
  {Q : Bool × BPlusTreeNTS K → PageStore (PageData K V) → Prop}

/-- Leaves have nothing below them. -/
theorem Stands.level_leaves {leaves : List (Leaf K V)}
    (h : Stands tree store (leaves.map Node.leaf) rows) :
    Level tree store [] (leaves.map Node.leaf) rows where
  stands := h
  below_at := by
    have hrefs : (leaves.map Node.leaf).flatMap Node.refs =
        ([] : List (Ref K)) := by
      rw [List.flatMap_map]
      exact List.flatMap_eq_nil_iff.mpr fun _ _ => rfl
    rw [hrefs]
    exact .nil
  below_nodup := List.nodup_nil
  disjoint := by simp
  below_header := by simp

/-- `AdjustRoot` gives up an empty root. -/
theorem does_adjustRoot_leaf
    (hstands : Stands tree store [Node.leaf leaf] [])
    (hempty : leaf.array = [])
    (hrecord : store.record tree.indexName = some tree.rootPageId)
    (hbounded : store.Bounded)
    (hpins : store.pins = leaf.pageId ::ₘ base) (hbase : leaf.pageId ∉ base)
    (howed : store.owed ⊆ {leaf.pageId})
    (hroom : base.toFinset.card + 4 ≤ frames)
    (hQ : ∀ tree' store', Steps tree store [leaf.pageId] tree' store' →
      store'.pins = base → tree'.rootPageId = INVALID_PAGE_ID →
      Q (true, tree') store') :
    Does frames (tree.adjustRoot leaf.pageId) store Q := by
  obtain ⟨_, hnodes, hroot⟩ := hstands.root
  obtain ⟨rfl, -⟩ := List.cons.inj hnodes
  have hpage : store.page leaf.pageId =
      some (.leaf (leaf.page tree INVALID_PAGE_ID)) := hroot.page_eq
  have hheader : leaf.pageId ≠ HEADER_PAGE_ID := by
    intro heq
    apply hstands.header
    simp [levelIds, heq]
  refine Program.ends_bind (does_getData ?_ hpage ?_)
  · simp [hpins]
  dsimp only
  rw [if_pos (show (leaf.page tree INVALID_PAGE_ID).size = 0 by
    rw [LeafPage.size, Leaf.page, hempty]
    rfl)]
  refine Program.ends_bind (does_unpinPage ?_ (fun h => by cases h) ?_)
  · simp [hpins, Leaf.page]
  refine Program.ends_bind (does_deletePage ?_ ?_)
  · simp [hpins, Leaf.page, hbase]
  refine Program.ends_bind (does_updateRootPageId
    ((PageStore.record_congr ?_ tree.indexName).trans hrecord) ?_ ?_)
  · simp [Leaf.page, Function.update_of_ne, hheader.symm]
  · right
    simp [hpins, Leaf.page]
    omega
  intro store' hrecorded
  apply Program.ends_pure
  apply hQ
  · constructor
    · rfl
    · constructor
      · simp [hrecorded.nextPageId_eq]
      · intro pageId hids hheader' hlt
        simp at hids
        simp [hrecorded.page_eq _ hheader', Leaf.page, hids]
    · refine hbounded.congr ?_ fun pageId hlive => ?_
      · simp [hrecorded.nextPageId_eq]
      · have hlive' := (hrecorded.isSome_iff pageId).mp hlive
        by_cases hl : pageId = leaf.pageId
        · rw [hl, hpage]
          rfl
        · simpa [Leaf.page, Function.update_of_ne, hl] using hlive'
    · rw [Finset.eq_empty_iff_forall_notMem]
      intro pageId hmem
      have howed' := @howed pageId
      simp [hrecorded.owed_eq, Leaf.page] at hmem howed'
      tauto
    · exact hrecorded.record_self
    · intro name hname
      refine (hrecorded.record_eq name hname).trans
        (PageStore.record_congr ?_ name)
      simp [Leaf.page, Function.update_of_ne, hheader.symm]
  · rw [hrecorded.pins_eq]
    simp [hpins, Leaf.page]
  · rfl

/-- Leaves of the size of one that is not the root. -/
theorem Leaf.fits_of_sized (h : (Node.leaf leaf).Sized tree true)
    (hmax : 4 ≤ tree.leafMaxSize) : leaf.Fits tree rows := by
  refine ⟨h.size_lt, ?_⟩
  have hle : tree.leafMaxSize / 2 ≤ leaf.array.length := h.le_size
  split_ifs
  · omega
  · exact hle

variable [LinearOrder K]

/-- The leaves were balanced, and the rows above them settled. -/
theorem Holds.of_balances {leaves : List (Leaf K V)}
    {nodes : List (Node K V)} {tree' : BPlusTreeNTS K}
    {store' : PageStore (PageData K V)} (hrow : LeafRow leaves)
    (hbalances : Node.Balances (leaves.map Node.leaf) nodes)
    (hsized : ∀ node ∈ nodes, node.Sized tree true)
    (hmax : 4 ≤ tree.leafMaxSize)
    (htree : tree' = { tree with rootPageId := tree'.rootPageId })
    (hstands : Stands tree' store' nodes rows) :
    Holds tree' store' (entriesOf leaves) := by
  obtain ⟨leaves', rfl, hrow', hentries⟩ :=
    hrow.balances hbalances fun node hnode => by
      have hsize := (hsized node hnode).le_size
      have hnodeMax : node.maxSize tree = tree.leafMaxSize := by
        have hkind := (hsized node hnode).isLeaf_eq
        cases node with
        | leaf leaf => rfl
        | branch branch => cases hkind
      omega
  rw [← hentries]
  refine .leaves leaves' rows ⟨hstands, fun leaf hleaf => ?_, hrow'⟩
  have hfits : leaf.Fits tree rows :=
    Leaf.fits_of_sized (hsized _ (List.mem_map_of_mem hleaf)) hmax
  rw [htree]
  exact ⟨hfits.lt_maxSize, hfits.le_size⟩

/-- `CoalesceOrRedistribute` at a leaf that may have lost an item. -/
theorem does_coalesceOrRedistribute_leaf {fuel : ℕ}
    (hstands : Stands tree store
      ((leaves₁ ++ leaf :: leaves₂).map Node.leaf) rows)
    (hrow : LeafRow (leaves₁ ++ leaf :: leaves₂))
    (hothers : ∀ other ∈ leaves₁ ++ leaves₂, other.Fits tree rows)
    (hlt : leaf.array.length < tree.leafMaxSize)
    (hle : (if rows = [] then 1 else tree.leafMaxSize / 2) ≤
      leaf.array.length + 1)
    (hmax : 4 ≤ tree.leafMaxSize) (hmax' : 4 ≤ tree.internalMaxSize)
    (hrecord : store.record tree.indexName = some tree.rootPageId)
    (hbounded : store.Bounded)
    (hpins : store.pins = leaf.pageId ::ₘ base)
    (hbase : ∀ pageId ∈
      levelIds ((leaves₁ ++ leaf :: leaves₂).map Node.leaf) rows,
      pageId ∉ base)
    (howed : store.owed ⊆ {leaf.pageId})
    (hroom : base.toFinset.card + 4 ≤ frames) (hfuel : rows.length < fuel)
    (hQ : ∀ b tree' store', Steps tree store
      (levelIds ((leaves₁ ++ leaf :: leaves₂).map Node.leaf) rows) tree'
      store' → store'.pins = base →
      Holds tree' store' (entriesOf (leaves₁ ++ leaf :: leaves₂)) →
      Q (b, tree') store') :
    Does frames (BPlusTreeNTS.coalesceOrRedistribute fuel tree leaf.pageId)
      store Q := by
  obtain ⟨fuel, rfl⟩ := Nat.exists_eq_succ_of_ne_zero
    (Nat.zero_lt_of_lt hfuel).ne'
  have hin : leaf.pageId ∈ store.pins := by
    rw [hpins]
    exact Multiset.mem_cons_self _ _
  have hpins' : (store.unpin leaf.pageId true).pins = base := by
    rw [PageStore.unpin_pins, hpins, Multiset.erase_cons_head]
  have hmem : Node.leaf leaf ∈
      (leaves₁ ++ leaf :: leaves₂).map (Node.leaf : Leaf K V → Node K V) :=
    List.mem_map_of_mem (by simp)
  obtain ⟨ref, href, hat⟩ := exists_of_forall₂_right hstands.nodes_at hmem
  have hkeep : leaf.Fits tree rows →
      Holds tree (store.unpin leaf.pageId true)
        (entriesOf (leaves₁ ++ leaf :: leaves₂)) := by
    intro hfits
    refine .leaves _ rows ⟨hstands.congr fun _ _ => rfl, ?_, hrow⟩
    intro other hother
    rcases List.mem_append.mp hother with hother | hother
    · exact hothers other (List.mem_append_left _ hother)
    rcases List.mem_cons.mp hother with rfl | hother
    · exact hfits
    · exact hothers other (List.mem_append_right _ hother)
  by_cases hbig : tree.leafMaxSize / 2 ≤ leaf.array.length
  · apply does_coalesceOrRedistribute_enough hat.page_eq hbig hin
    apply hQ true tree _ (.unpin hbounded howed hrecord) hpins'
    apply hkeep
    exact Leaf.fits_of_sized ⟨rfl, hbig, hlt⟩ hmax
  cases rows with
  | nil =>
      obtain ⟨rfl, rfl⟩ : leaves₁ = [] ∧ leaves₂ = [] := by
        obtain ⟨_, hnodes, -⟩ := hstands.root
        have hlength := congrArg List.length hnodes
        simp at hlength
        exact ⟨List.eq_nil_of_length_eq_zero (by omega),
          List.eq_nil_of_length_eq_zero (by omega)⟩
      obtain ⟨_, hnodes, hroot⟩ := hstands.root
      obtain ⟨rfl, -⟩ := List.cons.inj hnodes
      apply does_coalesceOrRedistribute_root hroot.page_eq (not_le.mp hbig) hin
      by_cases hempty : leaf.array = []
      · apply does_adjustRoot_leaf hstands hempty hrecord hbounded hpins
          (hbase _ (by simp [levelIds])) howed hroom
        intro tree' store' hsteps hpins'' hroot'
        apply hQ true tree' store' _ hpins''
        · have hentries : entriesOf [leaf] = [] := by
            rw [entriesOf_cons, hempty]
            rfl
          exact hentries ▸ .empty hroot'
        · simpa [levelIds, rowIds] using hsteps
      · refine Program.ends_bind (does_getData hin hroot.page_eq ?_)
        dsimp only [Node.data]
        have hpos := List.length_pos_iff.mpr hempty
        rw [if_neg (show ¬ (leaf.page tree INVALID_PAGE_ID).size = 0 from
          hpos.ne')]
        refine Program.ends_bind (does_unpinPage hin (fun h => by cases h) ?_)
        apply Program.ends_pure
        apply hQ false tree _ (.unpin hbounded howed hrecord) hpins'
        exact hkeep ⟨hlt, hpos⟩
  | cons row rows =>
      have hkinds : ∀ other ∈ leaves₁ ++ leaves₂,
          (Node.leaf other).Sized tree true := by
        intro other hother
        have hfits := hothers other hother
        have hsize := hfits.le_size
        rw [if_neg (List.cons_ne_nil _ _)] at hsize
        exact ⟨rfl, hsize, hfits.lt_maxSize⟩
      have hmap : (leaves₁ ++ leaf :: leaves₂).map
          (Node.leaf : Leaf K V → Node K V) =
            leaves₁.map Node.leaf ++ Node.leaf leaf ::
              leaves₂.map Node.leaf := by
        rw [List.map_append, List.map_cons]
      have hlevel : Level tree store [] (leaves₁.map Node.leaf ++
          Node.leaf leaf :: leaves₂.map Node.leaf) (row :: rows) :=
        hmap ▸ hstands.level_leaves
      have hheader := hlevel.header_notMem
      rw [if_neg (List.cons_ne_nil _ _)] at hle
      refine does_coalesceOrRedistribute_step hlevel hbounded hmax' hmax ?_
        (not_le.mp hbig) hle hpins howed hroom ?_ ?_
      · intro other hother
        rw [← List.map_append] at hother
        obtain ⟨other', hother', rfl⟩ := List.mem_map.mp hother
        exact hkinds other' hother'
      · intro nodes row₁ parent row₂ array store₁ hbalances hsized hrow'
          harray hrebalanced hpins₁ howed₁
        subst hrow'
        have hbounded₁ := hbounded.congr hrebalanced.nextPageId_eq
          hrebalanced.isSome
        have hrecord₁ : store₁.record tree.indexName =
            some tree.rootPageId := by
          rw [PageStore.record_congr (hrebalanced.other_eq _ hheader),
            hrecord]
        have hparent := hstands.above.2.1 parent (by simp)
        have hparentLt := hparent.lt_maxSize
        have hparentLe := hparent.le_size
        have hids : rowIds ((row₁ ++ parent.withArray array :: row₂) ::
            rows) = rowIds ((row₁ ++ parent :: row₂) :: rows) := by
          simp [rowIds_cons]
        apply @does_coalesceOrRedistribute_branch _ _ frames store₁ tree nodes
          row₁ row₂ (parent.withArray array) rows base Q fuel
          hrebalanced.level
        · intro other hother
          apply hstands.above.2.1
          simp only [List.mem_append, List.mem_cons] at hother ⊢
          tauto
        · rw [Branch.array_withArray]
          omega
        · rw [Branch.array_withArray]
          omega
        · exact hmax'
        · exact hrecord₁
        · exact hbounded₁
        · exact hpins₁
        · intro pageId hmem'
          rw [hids] at hmem'
          exact hbase _ (List.mem_append_right _ hmem')
        · exact howed₁
        · exact hroom
        · rw [List.length_cons] at hfuel
          omega
        · intro b tree' store' rows' hsteps hpins'' hstands' hids'
          rw [hids] at hsteps
          rw [hmap] at hQ
          rw [← hmap] at hbalances
          apply hQ b tree' store' (hrebalanced.steps hheader hsteps ?_) hpins''
          · exact .of_balances hrow hbalances hsized hmax hsteps.tree_eq
              hstands'
          · intro pageId hmem'
            change pageId ∈ levelIds _ _
            rw [levelIds]
            rcases List.mem_append.mp hmem' with hmem' | hmem'
            · apply List.mem_append_left
              rw [← hmap]
              exact hbalances.ids_subset hmem'
            · exact List.mem_append_right _ hmem'
      · intro nodes row₁ parent row₂ array store₁ hbalances hsized hrow'
          harray hrebalanced hpins₁ howed₁
        subst hrow'
        have hbounded₁ := hbounded.congr hrebalanced.nextPageId_eq
          hrebalanced.isSome
        have hrecord₁ : store₁.record tree.indexName =
            some tree.rootPageId := by
          rw [PageStore.record_congr (hrebalanced.other_eq _ hheader),
            hrecord]
        have hfits : ∀ other ∈ row₁ ++ parent.withArray array :: row₂,
            other.Fits tree rows := by
          intro other hother
          rcases List.mem_append.mp hother with hother | hother
          · exact hstands.above.2.1 other (List.mem_append_left _ hother)
          rcases List.mem_cons.mp hother with rfl | hother
          · have hparent := hstands.above.2.1 parent (by simp)
            exact ⟨harray ▸ hparent.lt_maxSize, harray ▸ hparent.le_size⟩
          · exact hstands.above.2.1 other
              (List.mem_append_right _ (List.mem_cons_of_mem _ hother))
        rw [hmap] at hQ
        rw [← hmap] at hbalances
        apply hQ false tree store₁ (hrebalanced.steps hheader
          (.refl hbounded₁ howed₁ hrecord₁) (List.nil_subset _)) hpins₁
        exact .of_balances hrow hbalances hsized hmax rfl
          (hrebalanced.level.stands_below hfits)

end Remove

end TicketSystem.Database
