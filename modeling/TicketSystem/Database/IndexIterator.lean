import TicketSystem.Database.NodeSearch
import TicketSystem.Database.TreeRuns

/-!
# The iterator of the tree

`Begin` starts an iterator at the first key that is not below the one asked
for, in the leaf that this key is routed to.  When that leaf has no such key
the index is `-1`, and the iterator neither skips to the next leaf nor stops.
-/

namespace TicketSystem.Database

open TicketSystem.Support

variable {K V : Type}

/-- The members of `IndexIterator` apart from the buffer pool; the leaf it
points to is pinned. -/
structure IndexIterator where
  ptr : Option PageId
  index : ℤ

namespace IndexIterator

def isEnd (itr : IndexIterator) : Bool := itr.ptr.isNone

/-- `operator*`. -/
def item (itr : IndexIterator) : TreeM K V (K × V) := do
  let leaf ← orStop .nullPointer itr.ptr
  let node ← getLeaf leaf
  orStop .outOfRange
    (if itr.index < 0 then none else node.array[itr.index.toNat]?)

/-- `operator++`. -/
def next (itr : IndexIterator) : TreeM K V IndexIterator := do
  let leaf ← orStop .nullPointer itr.ptr
  let node ← getLeaf leaf
  if itr.index + 1 = node.size then
    let ptr ← BPlusTreeNTS.nextLeaf node
    pure ⟨ptr, 0⟩
  else pure ⟨itr.ptr, itr.index + 1⟩

/-- The items on the way to `isEnd`, behind those visited before. -/
def visit : ℕ → IndexIterator → List (K × V) → TreeM K V (List (K × V))
  | 0, _, _ => .throw .outOfTurns
  | fuel + 1, itr, visited =>
      if itr.isEnd then pure visited
      else do
        let item ← itr.item
        let itr ← itr.next
        visit fuel itr (visited ++ [item])

end IndexIterator

namespace BPlusTreeNTS

/-- `Begin`. -/
def beginAt (tree : BPlusTreeNTS K) (fuel : ℕ) (key : K) :
    TreeM K V IndexIterator := do
  let leaf ← orStop .nullPointer (← tree.findLeafPage fuel key false false)
  let node ← getLeaf leaf
  let index ← orStop .outOfRange (node.keyIndex tree.comparator key)
  pure ⟨some leaf, index⟩

/-- The loop of a caller from `Begin` to `isEnd`. -/
def iterate (tree : BPlusTreeNTS K) (fuel : ℕ) (key : K) :
    TreeM K V (List (K × V)) := do
  let itr ← tree.beginAt fuel key
  itr.visit fuel []

end BPlusTreeNTS

/-! ## The leaf of a key -/

/-- From the page `pageId` on, the children that `Lookup` picks lead to
`leaf`. -/
inductive RoutedTo (comparator : K → K → ℤ) (key : K)
    (store : PageStore (PageData K V)) : PageId → PageId → Prop
  | leaf {pageId : PageId} {page : LeafPage K V} :
      store.page pageId = some (.leaf page) →
        RoutedTo comparator key store pageId pageId
  | child {pageId child leaf : PageId} {page : InternalPage K} :
      store.page pageId = some (.internal page) →
        page.lookup comparator key = some child →
          RoutedTo comparator key store child leaf →
            RoutedTo comparator key store pageId leaf

/-- The leaf that the key is routed to has a key that is not below it. -/
def LeafReaches (comparator : K → K → ℤ) (key : K)
    (store : PageStore (PageData K V)) (rootPageId : PageId) : Prop :=
  ∃ leaf page, RoutedTo comparator key store rootPageId leaf ∧
    store.page leaf = some (.leaf page) ∧
    ∃ item ∈ page.array, 0 ≤ comparator item.1 key

theorem RoutedTo.unique {comparator : K → K → ℤ} {key : K}
    {store : PageStore (PageData K V)} {pageId leaf leaf' : PageId}
    (h : RoutedTo comparator key store pageId leaf)
    (h' : RoutedTo comparator key store pageId leaf') : leaf = leaf' := by
  induction h with
  | leaf hpage =>
      cases h' with
      | leaf _ => rfl
      | child hpage' _ _ =>
          rw [hpage] at hpage'
          cases hpage'
  | child hpage hlookup _ ih =>
      cases h' with
      | leaf hpage' =>
          rw [hpage] at hpage'
          cases hpage'
      | child hpage' hlookup' hrest =>
          rw [hpage] at hpage'
          cases hpage'
          rw [hlookup] at hlookup'
          cases hlookup'
          exact ih hrest

section Routes

variable [LinearOrder K] {tree : BPlusTreeNTS K}
  {store : PageStore (PageData K V)} {rows : List (List (Branch K))}
  {key : K}

/-- The way from a node whose bounds enclose the key begins at the root. -/
theorem Above.routedTo (hcmp : Compares tree.comparator)
    {before after : List (Ref K)} {ref : Ref K} {leaf : PageId}
    (habove : Above tree store rows) (hmax : 4 ≤ tree.internalMaxSize)
    (hrefs : refsAbove tree.rootPageId rows = before ++ ref :: after)
    (hkey : Encloses key before ref after)
    (h : RoutedTo tree.comparator key store ref.pageId leaf) :
    RoutedTo tree.comparator key store tree.rootPageId leaf := by
  induction rows generalizing before ref after with
  | nil =>
      obtain ⟨rfl, rfl, rfl⟩ := refsAbove_nil_eq hrefs
      exact h
  | cons row rows ih =>
      obtain ⟨branch, -, cbefore, cafter, ubefore, up, uafter, hbranch,
        hchild, hup, hencl, hat⟩ := habove.exists_up hmax hrefs hkey
      apply ih habove.2.2 hup hencl
      have hpage := hat.page_eq
      rw [← hat.pageId_eq] at hpage
      exact RoutedTo.child hpage (InternalPage.lookup_eq hcmp hbranch
        hchild.before_le hchild.low_le hchild.lt_after) h

theorem Shape.routedTo (hcmp : Compares tree.comparator)
    {before after : List (Leaf K V)} {leaf : Leaf K V}
    (h : Shape tree store (before ++ leaf :: after) rows)
    (hmax : 4 ≤ tree.internalMaxSize)
    (hlow : leaf.low ≤ (key : WithBot K))
    (hafter : ∀ l ∈ after, (key : WithBot K) < l.low) :
    RoutedTo tree.comparator key store tree.rootPageId leaf.pageId := by
  have hbefore : ∀ l ∈ before, l.low ≤ (key : WithBot K) := by
    intro l hl
    have hlt := (List.pairwise_append.mp h.row.pairwise).2.2 l hl leaf
      List.mem_cons_self
    exact hlt.low_lt.le.trans hlow
  obtain ⟨refs₁, ref, refs₂, hrefs, hencl, hat⟩ :=
    h.exists_ref hbefore hlow hafter
  apply h.stands.above.routedTo hcmp hmax hrefs hencl
  rw [hat.pageId_eq]
  exact RoutedTo.leaf hat.page_eq

/-- Whether the leaf of a key reaches it is read off its items. -/
theorem Shape.leafReaches_iff (hcmp : Compares tree.comparator)
    {before after : List (Leaf K V)} {leaf : Leaf K V}
    (h : Shape tree store (before ++ leaf :: after) rows)
    (hmax : 4 ≤ tree.internalMaxSize)
    (hlow : leaf.low ≤ (key : WithBot K))
    (hafter : ∀ l ∈ after, (key : WithBot K) < l.low) :
    LeafReaches tree.comparator key store tree.rootPageId ↔
      ∃ item ∈ leaf.array, key ≤ item.1 := by
  have hrouted := h.routedTo hcmp hmax hlow hafter
  obtain ⟨p, hpage⟩ := h.exists_page
    (show leaf ∈ before ++ leaf :: after by simp)
  constructor
  · rintro ⟨leaf', page, hrouted', hpage', item, hitem, hge⟩
    obtain rfl := hrouted.unique hrouted'
    rw [hpage] at hpage'
    cases hpage'
    exact ⟨item, hitem, (hcmp.nonneg_iff _ _).mp hge⟩
  · rintro ⟨item, hitem, hge⟩
    exact ⟨leaf.pageId, leaf.page tree p, hrouted, hpage, item, hitem,
      (hcmp.nonneg_iff _ _).mpr hge⟩

end Routes

/-! ## The way of the iterator -/

section Iterate

variable [LinearOrder K] {frames : ℕ} {store : PageStore (PageData K V)}
  {tree : BPlusTreeNTS K} {before after : List (Leaf K V)} {leaf : Leaf K V}
  {rows : List (List (Branch K))} {entries visited : List (K × V)} {key : K}
  {fuel : ℕ}

/-- From an item of a leaf on the iterator visits the rest of the leaf and all
later leaves. -/
theorem Shape.does_visit {done rest : List (K × V)} {item : K × V}
    (h : Shape tree store (before ++ leaf :: after) rows)
    (hready : Ready tree store) (hmax : 4 ≤ tree.leafMaxSize)
    (harray : leaf.array = done ++ item :: rest)
    (hfuel : rest.length + (entriesOf after).length + 1 < fuel)
    (hroom : store.pins.toFinset.card + 2 ≤ frames)
    {Q : List (K × V) → PageStore (PageData K V) → Prop}
    (hQ : Q (visited ++ item :: (rest ++ entriesOf after)) store) :
    Does frames
      (IndexIterator.visit fuel ⟨some leaf.pageId, done.length⟩ visited)
      (store.pin leaf.pageId) Q := by
  induction fuel generalizing before leaf after done item rest visited with
  | zero => omega
  | succ fuel ih =>
      obtain ⟨p, hpage⟩ := h.exists_page
        (show leaf ∈ before ++ leaf :: after by simp)
      have hitem : (if (done.length : ℤ) < 0 then none
          else (leaf.page tree p).array[(done.length : ℤ).toNat]?) =
          some item := by
        rw [if_neg (by omega), Int.toNat_natCast]
        simp [Leaf.page, harray]
      have hsize : (leaf.page tree p).size = done.length + rest.length + 1 := by
        simp [LeafPage.size, Leaf.page, harray]
        omega
      rw [IndexIterator.visit, if_neg (by simp [IndexIterator.isEnd])]
      apply Program.ends_bind
      refine Program.ends_bind (does_orStop rfl ?_)
      refine Program.ends_bind
        (does_getLeaf (Multiset.mem_cons_self _ _) hpage ?_)
      refine does_orStop hitem ?_
      apply Program.ends_bind
      refine Program.ends_bind (does_orStop rfl ?_)
      refine Program.ends_bind
        (does_getLeaf (Multiset.mem_cons_self _ _) hpage ?_)
      cases rest with
      | nil =>
          rw [if_pos (by rw [hsize]; simp)]
          apply Program.ends_bind
          refine h.does_nextLeaf hready hroom p ?_ ?_
          · rintro rfl
            apply Program.ends_pure
            obtain ⟨fuel, rfl⟩ := Nat.exists_eq_succ_of_ne_zero
              (show fuel ≠ 0 by omega)
            rw [IndexIterator.visit,
              if_pos (show IndexIterator.isEnd ⟨none, 0⟩ = true from rfl)]
            exact Program.ends_pure (by simpa [entriesOf] using hQ)
          · rintro next after' rfl
            obtain ⟨item', rest', harray'⟩ := List.exists_cons_of_ne_nil
              (h.ne_nil hmax next (by simp))
            rw [entriesOf_cons, harray'] at hQ hfuel
            have h' : Shape tree store ((before ++ [leaf]) ++ next :: after')
                rows := by
              rw [List.append_assoc]
              exact h
            apply Program.ends_pure
            refine @ih (before ++ [leaf]) after' next (visited ++ [item]) []
              rest' item' h' harray' ?_ ?_
            · simp only [List.length_append, List.length_cons,
                List.length_nil] at hfuel
              omega
            · simpa using hQ
      | cons second rest =>
          rw [if_neg (by rw [hsize]; simp; omega)]
          apply Program.ends_pure
          have hvisit := @ih before after leaf (visited ++ [item])
            (done ++ [item]) rest second h (by
              rw [harray, List.append_assoc]
              rfl)
          rw [List.length_append, List.length_singleton, Nat.cast_add,
            Nat.cast_one] at hvisit
          apply hvisit
          · rw [List.length_cons] at hfuel
            omega
          · simpa using hQ

/-- `Begin` points into the leaf whose bounds enclose the key. -/
theorem Shape.does_beginAt {leaves : List (Leaf K V)}
    (h : Shape tree store leaves rows) (hcmp : Compares tree.comparator)
    (hready : Ready tree store) (hmax : 4 ≤ tree.leafMaxSize)
    (hmax' : 4 ≤ tree.internalMaxSize)
    (hfuel : (entriesOf leaves).length ≤ fuel)
    (hroom : store.pins.toFinset.card + 2 ≤ frames)
    {Q : IndexIterator → PageStore (PageData K V) → Prop}
    (hQ : ∀ before leaf after below above,
      leaves = before ++ leaf :: after → leaf.low ≤ (key : WithBot K) →
      (∀ l ∈ after, (key : WithBot K) < l.low) →
      leaf.array = below ++ above → (∀ e ∈ below, e.1 < key) →
      (∀ e ∈ above, key ≤ e.1) →
      Q ⟨some leaf.pageId, if above = [] then -1 else (below.length : ℤ)⟩
        (store.pin leaf.pageId)) :
    Does frames (tree.beginAt fuel key) store Q := by
  have hrows := h.length_rows_lt hmax hmax'
  apply Program.ends_bind
  refine h.does_findLeafPage hcmp hready hmax' (by omega) hroom ?_
  rintro before leaf after p rfl hlow hafter hpage
  obtain ⟨below, above, harray, hbelow, habove⟩ :=
    exists_cut_of_pairwise (h.row.ordered leaf (by simp)).sorted
      (P := fun e => e.1 < key) fun e e' hlt hkey => lt_trans hlt hkey
  have habove' : ∀ e ∈ above, key ≤ e.1 := by
    intro e he
    exact not_lt.mp (habove e he)
  have hindex : (leaf.page tree p).keyIndex tree.comparator key =
      some (if above = [] then -1 else (below.length : ℤ)) := by
    apply LeafPage.keyIndex_eq harray
    · intro e he
      exact (hcmp.neg_iff _ _).mpr (hbelow e he)
    · intro e he
      exact (hcmp.nonneg_iff _ _).mpr (habove' e he)
  refine Program.ends_bind (does_orStop rfl ?_)
  refine Program.ends_bind (does_getLeaf (Multiset.mem_cons_self _ _) hpage ?_)
  refine Program.ends_bind (does_orStop hindex ?_)
  exact Program.ends_pure
    (hQ before leaf after below above rfl hlow hafter harray hbelow habove')

/-- The entries that are not below a key begin in its leaf. -/
theorem LeafRow.filter_eq {below above : List (K × V)}
    (h : LeafRow (before ++ leaf :: after))
    (hlow : leaf.low ≤ (key : WithBot K))
    (hafter : ∀ l ∈ after, (key : WithBot K) < l.low)
    (harray : leaf.array = below ++ above) (hbelow : ∀ e ∈ below, e.1 < key)
    (habove : ∀ e ∈ above, key ≤ e.1) :
    (entriesOf (before ++ leaf :: after)).filter (fun e => key ≤ e.1) =
      above ++ entriesOf after := by
  obtain ⟨hlt, hgt⟩ := h.lt_of_mem hlow hafter
  rw [entriesOf_pieces, harray]
  simp only [List.filter_append]
  rw [List.filter_eq_nil_iff.mpr fun e he => by simpa using hlt e he,
    List.filter_eq_nil_iff.mpr fun e he => by simpa using hbelow e he,
    List.filter_eq_self.mpr fun e he => by simpa using habove e he,
    List.filter_eq_self.mpr fun e he => by simpa using (hgt e he).le]
  rfl

omit [LinearOrder K] in
/-- An iterator at the index `-1` cannot be read. -/
theorem run_visit_below {parentPageId : PageId} (hfuel : 0 < fuel)
    (hpage : store.page leaf.pageId =
      some (.leaf (leaf.page tree parentPageId))) :
    (IndexIterator.visit fuel ⟨some leaf.pageId, -1⟩ visited).run
        PageStore.performAlways (store.pin leaf.pageId) =
      .error (some .outOfRange) := by
  obtain ⟨fuel, rfl⟩ := Nat.exists_eq_succ_of_ne_zero hfuel.ne'
  rw [IndexIterator.visit, if_neg (by simp [IndexIterator.isEnd])]
  apply Program.run_bind_of_error
  have hleaf : Does 5 (getLeaf leaf.pageId) (store.pin leaf.pageId)
      fun node s => node = leaf.page tree parentPageId ∧
        s = store.pin leaf.pageId :=
    does_getLeaf (Multiset.mem_cons_self _ _) hpage ⟨rfl, rfl⟩
  obtain ⟨_, _, hrun, rfl, rfl⟩ := hleaf.always
  change Program.run _ (getLeaf leaf.pageId >>= _) _ = _
  rw [Program.run_bind_of_ok hrun]
  rfl

theorem Holds.iterate_of_reaches (h : Holds tree store entries)
    (hcmp : Compares tree.comparator) (hready : Ready tree store)
    (hmax : 4 ≤ tree.leafMaxSize) (hmax' : 4 ≤ tree.internalMaxSize)
    (hpins : store.pins.toFinset.card = 1) (hfuel : entries.length < fuel)
    (hne : entries ≠ [])
    (hreaches : LeafReaches tree.comparator key store tree.rootPageId) :
    (tree.iterate fuel key).run PageStore.performAlways store =
      .ok (entries.filter fun e => key ≤ e.1, store) := by
  cases h with
  | empty hroot => exact absurd rfl hne
  | leaves leaves rows hshape =>
      have hdoes : Does 5 (tree.iterate fuel key) store fun visited store' =>
          visited = (entriesOf leaves).filter (fun e => key ≤ e.1) ∧
            store' = store := by
        apply Program.ends_bind
        refine hshape.does_beginAt hcmp hready hmax hmax' hfuel.le (by omega)
          ?_
        rintro before leaf after below above rfl hlow hafter harray hbelow
          habove
        rw [hshape.leafReaches_iff hcmp hmax' hlow hafter, harray] at hreaches
        obtain ⟨item, hitem, hge⟩ := hreaches
        have hmem : item ∈ above := by
          rcases List.mem_append.mp hitem with hitem | hitem
          · exact absurd (hbelow item hitem) (not_lt.mpr hge)
          · exact hitem
        obtain ⟨first, rest, rfl⟩ :=
          List.exists_cons_of_ne_nil (List.ne_nil_of_mem hmem)
        rw [if_neg (List.cons_ne_nil _ _)]
        refine hshape.does_visit hready hmax harray ?_ (by omega) ?_
        · rw [entriesOf_pieces, harray] at hfuel
          simp only [List.length_append, List.length_cons] at hfuel
          omega
        · rw [hshape.row.filter_eq hlow hafter harray hbelow habove]
          exact ⟨rfl, rfl⟩
      obtain ⟨_, _, hrun, rfl, rfl⟩ := hdoes.always
      exact hrun

theorem Holds.iterate_of_not_reaches (h : Holds tree store entries)
    (hcmp : Compares tree.comparator) (hready : Ready tree store)
    (hmax : 4 ≤ tree.leafMaxSize) (hmax' : 4 ≤ tree.internalMaxSize)
    (hpins : store.pins.toFinset.card = 1) (hfuel : entries.length < fuel)
    (hne : entries ≠ [])
    (hreaches : ¬ LeafReaches tree.comparator key store tree.rootPageId) :
    (tree.iterate fuel key).run PageStore.performAlways store =
      .error (some .outOfRange) := by
  cases h with
  | empty hroot => exact absurd rfl hne
  | leaves leaves rows hshape =>
      have hdoes : Does 5 (tree.beginAt fuel key) store fun itr store' =>
          ∃ leaf ∈ leaves, itr = ⟨some leaf.pageId, -1⟩ ∧
            store' = store.pin leaf.pageId := by
        refine hshape.does_beginAt hcmp hready hmax hmax' hfuel.le (by omega)
          ?_
        rintro before leaf after below above rfl hlow hafter harray - habove
        rw [hshape.leafReaches_iff hcmp hmax' hlow hafter, harray] at hreaches
        obtain rfl : above = [] := by
          rw [List.eq_nil_iff_forall_not_mem]
          intro item hitem
          exact hreaches ⟨item, List.mem_append_right _ hitem,
            habove item hitem⟩
        exact ⟨leaf, by simp, rfl, rfl⟩
      obtain ⟨_, _, hrun, leaf, hleaf, rfl, rfl⟩ := hdoes.always
      obtain ⟨p, hpage⟩ := hshape.exists_page hleaf
      rw [BPlusTreeNTS.iterate, Program.run_bind_of_ok hrun]
      exact run_visit_below (by omega) hpage

end Iterate

/-! ## Runs -/

/-- The iterator from a key visits exactly the entries that are not below it. -/
def VisitsFrom [DecidableEq K] (comparator : K → K → ℤ)
    (calls : List (TreeCall K V)) (tree : BPlusTreeNTS K)
    (store : PageStore (PageData K V)) (fuel : ℕ) (key : K) : Prop :=
  ∃ entries,
    (tree.iterate fuel key).run PageStore.performAlways store =
      .ok (entries, store) ∧
    Increasing comparator entries ∧
    ∀ k v, (k, v) ∈ entries ↔
      TreeCall.updates (fun _ => none) calls k = some v ∧
        0 ≤ comparator k key

/-- On a tree with keys the iterator does so exactly when the leaf that the key
is routed to has a key that is not below it. -/
theorem visitsFrom_iff [Inhabited K] [DecidableEq K]
    {comparator : K → K → ℤ} {leafMaxSize internalMaxSize fuel : ℕ}
    (hcmp : ThreeWayOrder comparator) (hmax : 4 ≤ leafMaxSize)
    (hmax' : 4 ≤ internalMaxSize) (calls : List (TreeCall K V))
    (hfuel : calls.length < fuel)
    (hne : ∃ k, TreeCall.updates (fun _ => none) calls k ≠ none) (key : K) :
    ∃ tree store,
      ((BPlusTreeNTS.ofIndex comparator leafMaxSize
        internalMaxSize).createAndCall fuel calls).run
          PageStore.performAlways (PageStore.start 0) =
            .ok ((TreeCall.answers (fun _ => none) calls, tree), store) ∧
      (VisitsFrom comparator calls tree store fuel key ↔
        LeafReaches comparator key store tree.rootPageId) := by
  let _ := hcmp.linearOrder
  obtain rfl : ‹DecidableEq K› = hcmp.linearOrder.toDecidableEq :=
    Subsingleton.elim _ _
  obtain ⟨tree, store, entries, hrun, hserves, hlength, hmap⟩ :=
    ends_createAndCall hcmp.compares hmax hmax' calls hfuel.le
  refine ⟨tree, store, hrun, ?_⟩
  have hcomparator : tree.comparator = comparator := by
    rw [hserves.tree_eq]
    rfl
  have hleaf : 4 ≤ tree.leafMaxSize := by
    rw [hserves.tree_eq]
    exact hmax
  have hinternal : 4 ≤ tree.internalMaxSize := by
    rw [hserves.tree_eq]
    exact hmax'
  have hpins : store.pins.toFinset.card = 1 := by
    rw [hserves.pins_eq]
    rfl
  have hcompares : Compares tree.comparator := hcomparator ▸ hcmp.compares
  have hentries : entries ≠ [] := by
    rintro rfl
    obtain ⟨k, hk⟩ := hne
    rw [← hmap] at hk
    exact hk rfl
  have hsorted := hserves.holds.sorted
  constructor
  · rintro ⟨visited, hvisit, -, -⟩
    by_contra hreaches
    rw [← hcomparator] at hreaches
    rw [hserves.holds.iterate_of_not_reaches hcompares hserves.ready hleaf
      hinternal hpins (by omega) hentries hreaches] at hvisit
    cases hvisit
  · intro hreaches
    rw [← hcomparator] at hreaches
    refine ⟨entries.filter fun e => key ≤ e.1,
      hserves.holds.iterate_of_reaches hcompares hserves.ready hleaf hinternal
        hpins (by omega) hentries hreaches, ?_, ?_⟩
    · exact hsorted.filter _
    · intro k v
      rw [List.mem_filter, ← hmap, hsorted.lookupKey_eq_some_iff,
        hcmp.compares.nonneg_iff, decide_eq_true_iff]

theorem visitsFrom_iff_two_keys :
    ∃ tree store,
      ((BPlusTreeNTS.ofIndex compareInt 4 4).createAndCall 3
        [.insert 1 'a', .insert 3 'b']).run
          PageStore.performAlways (PageStore.start 0) =
            .ok (([(true, []), (true, [])], tree), store) ∧
      (VisitsFrom compareInt [.insert 1 'a', .insert 3 'b'] tree store 3 2 ↔
        LeafReaches compareInt 2 store tree.rootPageId) :=
  visitsFrom_iff compareInt_compares.threeWayOrder le_rfl le_rfl
    [.insert 1 'a', .insert 3 'b'] (by decide) ⟨1, by decide⟩ 2

/-- From a key above all others the iterator reads an item at the index
`-1`. -/
theorem not_always_visitsFrom :
    ¬ ∀ (calls : List (TreeCall ℤ Char)) (tree : BPlusTreeNTS ℤ)
        (store : PageStore (PageData ℤ Char)) (fuel : ℕ) (key : ℤ),
      ((BPlusTreeNTS.ofIndex compareInt 4 4).createAndCall fuel calls).run
          PageStore.performAlways (PageStore.start 0) =
            .ok ((TreeCall.answers (fun _ => none) calls, tree), store) →
        calls.length < fuel →
          (∃ k, TreeCall.updates (fun _ => none) calls k ≠ none) →
            VisitsFrom compareInt calls tree store fuel key := by
  intro h
  obtain ⟨entries, hvisit, -⟩ := h [.insert 1 'a'] _ _ 2 2 rfl (by decide)
    ⟨1, by decide⟩
  cases hvisit

end TicketSystem.Database
