import TicketSystem.Database.TreeMap

/-!
# The structure of a tree of pages

What a tree is, read from its pages alone and from the root down: sizes, parent
pages, the order of the keys in each node, the keys that the children of a node
hold, and the chain of leaves.  A tree that stands in rows has this structure.
-/

namespace TicketSystem.Database

open TicketSystem.Support

variable {K V : Type}

/-! ## Definitions -/

/-- The keys in leaf pages. -/
def keysOf (leaves : List (LeafPage K V)) : List K :=
  leaves.flatMap fun leaf => leaf.array.map Prod.fst

/-- Following `next_page_id_` from the first page visits all of them and ends
with the last one. -/
def Linked : List (LeafPage K V) → Prop
  | [] => True
  | [leaf] => leaf.nextPageId = INVALID_PAGE_ID
  | leaf :: next :: leaves =>
      leaf.nextPageId = next.pageId ∧ Linked (next :: leaves)

/-- A node on the page that its parent refers to, with a size as its place in
the tree permits. -/
structure BPlusTreePage.Placed (page : BPlusTreePage) (rootSize : ℕ)
    (parentPageId pageId : PageId) : Prop where
  pageId_eq : page.pageId = pageId
  pageId_ne : pageId ≠ INVALID_PAGE_ID
  parentPageId_eq : page.parentPageId = parentPageId
  lt_maxSize : page.size < page.maxSize
  le_size : (if page.isRootPage then rootSize else page.minSize) ≤ page.size

/-- The bound above the keys of a child: the bound below those of the next
child, or that of the page for its last child. -/
def highOf (high : WithTop K) : List (Ref K) → WithTop K
  | [] => high
  | ⟨(key : K), _, _⟩ :: _ => key
  | ⟨⊥, _, _⟩ :: _ => ⊤

/-- The children are subtrees within their bounds, with these leaves from left
to right. -/
def Children (subtree : WithBot K → WithTop K → PageId → PageId →
    List (LeafPage K V) → Prop) (high : WithTop K) :
    List (Ref K) → List (LeafPage K V) → Prop
  | [], leaves => leaves = []
  | child :: children, leaves => ∃ leaves₁ leaves₂,
      leaves = leaves₁ ++ leaves₂ ∧
      subtree child.low (highOf high children) child.parentPageId child.pageId
        leaves₁ ∧
      Children subtree high children leaves₂

section Subtree

variable [LinearOrder K]

/-- The leaves hold exactly those of the keys that lie within the bounds. -/
def HoldExactly (keys : List K) (low : WithBot K) (high : WithTop K)
    (leaves : List (LeafPage K V)) : Prop :=
  ∀ key, key ∈ keysOf leaves ↔
    key ∈ keys ∧ low ≤ (key : WithBot K) ∧ (key : WithTop K) < high

/-- The page is the root of a subtree with all its leaves at this depth: those
of the keys of the whole tree that lie within the bounds are in its leaves. -/
def Subtree (leafMaxSize internalMaxSize : ℕ)
    (store : PageStore (PageData K V)) (keys : List K) :
    ℕ → WithBot K → WithTop K → PageId → PageId → List (LeafPage K V) → Prop
  | 0, low, high, parentPageId, pageId, leaves => ∃ page node,
      leaves = [page] ∧
      store.page pageId = some (.leaf page) ∧
      (PageData.leaf page).node = some node ∧
      node.maxSize = leafMaxSize ∧
      node.Placed 1 parentPageId pageId ∧
      (page.array.map Prod.fst).Pairwise (· < ·) ∧
      HoldExactly keys low high leaves
  | depth + 1, low, high, parentPageId, pageId, leaves =>
      ∃ (page : InternalPage K) (node : BPlusTreePage),
        store.page pageId = some (.internal page) ∧
        (PageData.internal page : PageData K V).node = some node ∧
        node.maxSize = internalMaxSize ∧
        node.Placed 2 parentPageId pageId ∧
        -- the first key is ignored
        (page.array.tail.map Prod.fst).Pairwise (· < ·) ∧
        (∀ item ∈ page.array.tail,
          low < (item.1 : WithBot K) ∧ (item.1 : WithTop K) < high) ∧
        HoldExactly keys low high leaves ∧
        Children (Subtree leafMaxSize internalMaxSize store keys depth) high
          (refsOf low pageId page.array) leaves

/-- The pages from the root on are a tree, unless there is no root. -/
def WellFormed (leafMaxSize internalMaxSize : ℕ) (rootPageId : PageId)
    (store : PageStore (PageData K V)) : Prop :=
  rootPageId = INVALID_PAGE_ID ∨ ∃ depth leaves,
    Subtree leafMaxSize internalMaxSize store (keysOf leaves) depth ⊥ ⊤
      INVALID_PAGE_ID rootPageId leaves ∧
    (leaves.map LeafPage.pageId).Nodup ∧ Linked leaves

end Subtree

/-! ## Children -/

section Children

variable {subtree : WithBot K → WithTop K → PageId → PageId →
    List (LeafPage K V) → Prop} {high : WithTop K}
  {refs refs' : List (Ref K)} {leaves leaves' : List (LeafPage K V)}

theorem keysOf_append :
    keysOf (leaves ++ leaves') = keysOf leaves ++ keysOf leaves' :=
  List.flatMap_append

theorem highOf_append :
    highOf high (refs ++ refs') = highOf (highOf high refs') refs := by
  match refs with
  | [] => rfl
  | ⟨(key : K), _, _⟩ :: _ => rfl
  | ⟨⊥, _, _⟩ :: _ => rfl

theorem children_append :
    Children subtree high (refs ++ refs') leaves ↔ ∃ leaves₁ leaves₂,
      leaves = leaves₁ ++ leaves₂ ∧
      Children subtree (highOf high refs') refs leaves₁ ∧
      Children subtree high refs' leaves₂ := by
  induction refs generalizing leaves with
  | nil =>
      constructor
      · exact fun h => ⟨[], leaves, rfl, rfl, h⟩
      · rintro ⟨_, leaves₂, rfl, rfl, h⟩
        exact h
  | cons ref refs ih =>
      rw [List.cons_append, Children, highOf_append]
      constructor
      · rintro ⟨leaves₁, _, rfl, hchild, hrest⟩
        obtain ⟨leaves₂, leaves₃, rfl, hrefs, hrefs'⟩ := ih.mp hrest
        exact ⟨leaves₁ ++ leaves₂, leaves₃, by rw [List.append_assoc],
          ⟨leaves₁, leaves₂, rfl, hchild, hrefs⟩, hrefs'⟩
      · rintro ⟨_, leaves₃, rfl, ⟨leaves₁, leaves₂, rfl, hchild, hrefs⟩,
          hrefs'⟩
        exact ⟨leaves₁, leaves₂ ++ leaves₃, by rw [List.append_assoc], hchild,
          ih.mpr ⟨leaves₂, leaves₃, rfl, hrefs, hrefs'⟩⟩

end Children

/-! ## Bounds -/

section Bounds

variable [LinearOrder K] {keys : List K} {high : WithTop K} {ref : Ref K}
  {refs : List (Ref K)} {leaves : List (LeafPage K V)}

/-- The bound of a child is below the one above it. -/
def Ref.Below (high : WithTop K) (ref : Ref K) : Prop :=
  ∀ key : K, ref.low = key → (key : WithTop K) < high

/-- Bounds that increase lie below the bound of what follows. -/
theorem below_highOf {refs₁ refs₂ : List (Ref K)}
    (hpairwise : (refs₁ ++ refs₂).Pairwise fun a b => a.low < b.low)
    (hbelow : ∀ r ∈ refs₁ ++ refs₂, r.Below high) :
    ∀ r ∈ refs₁, r.Below (highOf high refs₂) := by
  intro r hr key hkey
  match refs₂ with
  | [] => exact hbelow r (List.mem_append_left _ hr) key hkey
  | ⟨⊥, _, _⟩ :: _ => exact WithTop.coe_lt_top key
  | ⟨(next : K), pageId, parentPageId⟩ :: refs₂ =>
      have hlt := (List.pairwise_append.mp hpairwise).2.2 r hr _
        List.mem_cons_self
      rw [hkey] at hlt
      exact WithTop.coe_lt_coe.mpr (WithBot.coe_lt_coe.mp hlt)

/-- Children that hold the keys within their bounds hold together those within
the bounds of all of them. -/
theorem Children.holdExactly {subtree : WithBot K → WithTop K → PageId →
      PageId → List (LeafPage K V) → Prop}
    (hsub : ∀ low high parentPageId pageId leaves,
      subtree low high parentPageId pageId leaves →
        HoldExactly keys low high leaves)
    (h : Children subtree high (ref :: refs) leaves)
    (hpairwise : (ref :: refs).Pairwise fun a b => a.low < b.low)
    (hbelow : ∀ r ∈ ref :: refs, r.Below high) :
    HoldExactly keys ref.low high leaves := by
  induction refs generalizing ref leaves with
  | nil =>
      obtain ⟨leaves₁, _, rfl, hchild, rfl⟩ := h
      rw [List.append_nil]
      exact hsub _ _ _ _ _ hchild
  | cons next refs ih =>
      obtain ⟨leaves₁, leaves₂, rfl, hchild, hrest⟩ := h
      obtain ⟨hhead, htail⟩ := List.pairwise_cons.mp hpairwise
      have hothers := ih hrest htail fun r hr =>
        hbelow r (List.mem_cons_of_mem _ hr)
      obtain ⟨low, pageId, parentPageId⟩ := next
      have hlow : ref.low < low := hhead _ List.mem_cons_self
      obtain ⟨bound, rfl⟩ := WithBot.ne_bot_iff_exists.mp hlow.ne_bot
      have hfirst := hsub _ _ _ _ _ hchild
      have hhigh : (bound : WithTop K) < high :=
        hbelow _ (List.mem_cons_of_mem _ List.mem_cons_self) bound rfl
      intro key
      rw [keysOf_append, List.mem_append, hfirst key, hothers key]
      constructor
      · rintro (⟨hkey, hle, hlt⟩ | ⟨hkey, hle, hlt⟩)
        · exact ⟨hkey, hle, hlt.trans hhigh⟩
        · exact ⟨hkey, hlow.le.trans hle, hlt⟩
      · rintro ⟨hkey, hle, hlt⟩
        rcases lt_or_ge key bound with hkb | hkb
        · exact Or.inl ⟨hkey, hle, WithTop.coe_lt_coe.mpr hkb⟩
        · exact Or.inr ⟨hkey, WithBot.coe_le_coe.mpr hkb, hlt⟩

theorem Subtree.holdExactly {leafMaxSize internalMaxSize depth : ℕ}
    {store : PageStore (PageData K V)} {low : WithBot K} {high : WithTop K}
    {parentPageId pageId : PageId} {leaves : List (LeafPage K V)}
    (h : Subtree leafMaxSize internalMaxSize store keys depth low high
      parentPageId pageId leaves) :
    HoldExactly keys low high leaves := by
  cases depth with
  | zero =>
      obtain ⟨page, node, -, -, -, -, -, -, hexact⟩ := h
      exact hexact
  | succ depth =>
      obtain ⟨page, node, -, -, -, -, -, -, hexact, -⟩ := h
      exact hexact

end Bounds

/-! ## The rows of a tree -/

/-- A node without a parent is the one above which there are no rows. -/
theorem BPlusTreePage.placed {page : BPlusTreePage} {rootSize : ℕ}
    {rows : List (List (Branch K))} (hid : page.pageId ≠ INVALID_PAGE_ID)
    (hroot : page.parentPageId = INVALID_PAGE_ID ↔ rows = [])
    (hlt : page.size < page.maxSize)
    (hle : (if rows = [] then rootSize else page.minSize) ≤ page.size) :
    page.Placed rootSize page.parentPageId page.pageId := by
  refine ⟨rfl, hid, rfl, hlt, ?_⟩
  by_cases hrows : rows = []
  · rw [if_pos hrows] at hle
    rwa [isRootPage, if_pos (decide_eq_true (hroot.mpr hrows))]
  · rw [if_neg hrows] at hle
    rwa [isRootPage, if_neg (by simpa using fun h => hrows (hroot.mp h))]

section Rows

variable [LinearOrder K] {tree : BPlusTreeNTS K}
  {store : PageStore (PageData K V)} {keys : List K} {depth : ℕ}
  {high : WithTop K}

omit [LinearOrder K] in
theorem Branch.Fits.exists_cons {branch : Branch K}
    {rows : List (List (Branch K))} (h : branch.Fits tree rows)
    (hmax : 4 ≤ tree.internalMaxSize) :
    ∃ item items, branch.array = item :: items := by
  apply List.exists_cons_of_ne_nil
  intro hnil
  have hle := h.le_size
  rw [hnil, List.length_nil] at hle
  split_ifs at hle <;> omega

omit [LinearOrder K] in
/-- The first child of a row has the bound of the first branch. -/
theorem highOf_row {refs : List (Ref K)} {row : List (Branch K)}
    {rows : List (List (Branch K))}
    (hat : List.Forall₂ (Node.At tree store) refs
      (row.map (Node.branch : Branch K → Node K V)))
    (hfits : ∀ branch ∈ row, branch.Fits tree rows)
    (hmax : 4 ≤ tree.internalMaxSize) :
    highOf high refs = highOf high (row.flatMap Branch.refs) := by
  cases row with
  | nil =>
      rw [List.map_nil, List.forall₂_nil_right_iff] at hat
      rw [hat]
      rfl
  | cons branch row =>
      obtain ⟨⟨low, pageId, parentPageId⟩, refs', ⟨rfl, -, -⟩, -, rfl⟩ :=
        List.forall₂_cons_right_iff.mp hat
      obtain ⟨item, items, harray⟩ :=
        (hfits branch List.mem_cons_self).exists_cons hmax
      rw [List.flatMap_cons, Branch.refs, harray, refsOf_cons]
      rw [Node.low_branch]
      cases branch.low <;> rfl

/-- The subtree of one branch. -/
theorem subtree_branch {ref : Ref K} {branch : Branch K}
    {rows : List (List (Branch K))} {leaves : List (LeafPage K V)}
    (hat : Node.At tree store ref (.branch branch))
    (hfits : branch.Fits tree rows)
    (hroot : ref.parentPageId = INVALID_PAGE_ID ↔ rows = [])
    (hmax : 4 ≤ tree.internalMaxSize) (hid : branch.pageId ≠ INVALID_PAGE_ID)
    (hpairwise : branch.refs.Pairwise fun a b => a.low < b.low)
    (hbelow : ∀ r ∈ branch.refs, r.Below high)
    (hchildren : Children (Subtree tree.leafMaxSize tree.internalMaxSize store
      keys depth) high branch.refs leaves) :
    Subtree tree.leafMaxSize tree.internalMaxSize store keys (depth + 1)
      ref.low high ref.parentPageId ref.pageId leaves := by
  obtain ⟨low, pageId, parentPageId⟩ := ref
  obtain ⟨rfl, rfl, hpage⟩ := hat
  obtain ⟨item, items, harray⟩ := hfits.exists_cons hmax
  have hrefs : branch.refs = ⟨branch.low, item.2, branch.pageId⟩ ::
      items.map (Ref.ofItem branch.pageId) := by
    rw [Branch.refs, harray, refsOf_cons]
  have hexact : HoldExactly keys branch.low high leaves := by
    rw [hrefs] at hpairwise hbelow hchildren
    exact hchildren.holdExactly (fun _ _ _ _ _ => Subtree.holdExactly)
      hpairwise hbelow
  rw [hrefs] at hpairwise hbelow
  obtain ⟨hhead, htail⟩ := List.pairwise_cons.mp hpairwise
  refine ⟨branch.page tree parentPageId, _, hpage, rfl, rfl, ?_, ?_, ?_,
    hexact, hchildren⟩
  · exact BPlusTreePage.placed hid hroot hfits.lt_maxSize hfits.le_size
  · have hitems : (branch.page tree parentPageId).array.tail = items := by
      rw [Branch.page, harray, List.tail_cons]
    rw [hitems]
    rw [List.pairwise_map] at htail ⊢
    exact htail.imp WithBot.coe_lt_coe.mp
  · intro item' hitem'
    have hmem : item' ∈ items := by
      rwa [Branch.page, harray, List.tail_cons] at hitem'
    have href := List.mem_map_of_mem (f := Ref.ofItem branch.pageId) hmem
    exact ⟨hhead _ href, hbelow _ (List.mem_cons_of_mem _ href) _ rfl⟩

/-- A row of branches above the roots of subtrees. -/
theorem children_above {refs : List (Ref K)} {row : List (Branch K)}
    {rows : List (List (Branch K))} {leaves : List (LeafPage K V)}
    (hat : List.Forall₂ (Node.At tree store) refs
      (row.map (Node.branch : Branch K → Node K V)))
    (hfits : ∀ branch ∈ row, branch.Fits tree rows)
    (hroot : ∀ ref ∈ refs, ref.parentPageId = INVALID_PAGE_ID ↔ rows = [])
    (hmax : 4 ≤ tree.internalMaxSize)
    (hid : ∀ branch ∈ row, branch.pageId ≠ INVALID_PAGE_ID)
    (hpairwise : (row.flatMap Branch.refs).Pairwise fun a b => a.low < b.low)
    (hbelow : ∀ r ∈ row.flatMap Branch.refs, r.Below high)
    (hchildren : Children (Subtree tree.leafMaxSize tree.internalMaxSize store
      keys depth) high (row.flatMap Branch.refs) leaves) :
    Children (Subtree tree.leafMaxSize tree.internalMaxSize store keys
      (depth + 1)) high refs leaves := by
  induction row generalizing refs leaves with
  | nil =>
      rw [List.map_nil, List.forall₂_nil_right_iff] at hat
      rw [hat]
      exact hchildren
  | cons branch row ih =>
      obtain ⟨ref, refs', hfirst, hrest, rfl⟩ :=
        List.forall₂_cons_right_iff.mp hat
      rw [List.flatMap_cons] at hpairwise hbelow hchildren
      obtain ⟨leaves₁, leaves₂, rfl, hchildren₁, hchildren₂⟩ :=
        children_append.mp hchildren
      have hfits' : ∀ b ∈ row, b.Fits tree rows := fun b hb =>
        hfits b (List.mem_cons_of_mem _ hb)
      refine ⟨leaves₁, leaves₂, rfl, ?_, ?_⟩
      · rw [highOf_row hrest hfits' hmax]
        exact subtree_branch hfirst (hfits branch List.mem_cons_self)
          (hroot ref List.mem_cons_self) hmax (hid branch List.mem_cons_self)
          (List.pairwise_append.mp hpairwise).1
          (below_highOf hpairwise hbelow) hchildren₁
      · refine ih hrest hfits' ?_ ?_ ?_ ?_ hchildren₂
        · exact fun r hr => hroot r (List.mem_cons_of_mem _ hr)
        · exact fun b hb => hid b (List.mem_cons_of_mem _ hb)
        · exact (List.pairwise_append.mp hpairwise).2.1
        · exact fun r hr => hbelow r (List.mem_append_right _ hr)

/-- The keys of a leaf are those of the row within its bounds. -/
theorem holdExactly_leaf {before after : List (Leaf K V)} {leaf : Leaf K V}
    {refs : List (Ref K)} {parentPageId : PageId}
    (hrow : LeafRow (before ++ leaf :: after))
    (hat : List.Forall₂ (Node.At tree store) refs (after.map Node.leaf))
    (hkeys : ∀ key, key ∈ keys ↔
      ∃ e ∈ entriesOf (before ++ leaf :: after), e.1 = key) :
    HoldExactly keys leaf.low (highOf ⊤ refs)
      [leaf.page tree parentPageId] := by
  intro key
  have hmem : key ∈ keysOf [leaf.page tree parentPageId] ↔
      ∃ e ∈ leaf.array, e.1 = key := by
    simp [keysOf, Leaf.page]
  rw [hmem, hkeys]
  have hordered := hrow.ordered leaf (by simp)
  obtain ⟨-, hpairwise, -⟩ := List.pairwise_append.mp hrow.pairwise
  obtain ⟨hbefore, hpairwise⟩ := List.pairwise_cons.mp hpairwise
  have hhigh : (key : WithTop K) < highOf ⊤ refs ↔
      ∀ l ∈ after, (key : WithBot K) < l.low := by
    cases after with
    | nil =>
        rw [List.map_nil, List.forall₂_nil_right_iff] at hat
        rw [hat]
        exact iff_of_true (WithTop.coe_lt_top key) (by simp)
    | cons next after =>
        obtain ⟨⟨low, _, _⟩, _, ⟨rfl, -, -⟩, -, rfl⟩ :=
          List.forall₂_cons_right_iff.mp hat
        have hlow := (hbefore next List.mem_cons_self).low_lt
        obtain ⟨bound, hbound⟩ := WithBot.ne_bot_iff_exists.mp hlow.ne_bot
        rw [Node.low_leaf, ← hbound]
        change (key : WithTop K) < (bound : WithTop K) ↔ _
        rw [WithTop.coe_lt_coe]
        constructor
        · intro hlt l hl
          rcases List.mem_cons.mp hl with rfl | hl
          · rw [← hbound]
            exact WithBot.coe_lt_coe.mpr hlt
          · have hnext := ((List.pairwise_cons.mp hpairwise).1 l hl).low_lt
            rw [← hbound] at hnext
            exact (WithBot.coe_lt_coe.mpr hlt).trans hnext
        · intro h
          have hlt := h next List.mem_cons_self
          rw [← hbound] at hlt
          exact WithBot.coe_lt_coe.mp hlt
  rw [hhigh]
  constructor
  · rintro ⟨e, he, rfl⟩
    refine ⟨⟨e, ?_, rfl⟩, hordered.low_le e he, ?_⟩
    · rw [entriesOf_pieces]
      simp [he]
    · exact fun l hl => (hbefore l hl).lt_low e he
  · rintro ⟨⟨e, he, rfl⟩, hlow, hafter⟩
    obtain ⟨hlt, hgt⟩ := hrow.lt_of_mem hlow hafter
    rw [entriesOf_pieces, List.append_assoc, List.mem_append,
      List.mem_append] at he
    rcases he with he | he | he
    · exact absurd (hlt e he) (lt_irrefl _)
    · exact ⟨e, he, rfl⟩
    · exact absurd (hgt e he) (lt_irrefl _)

/-- The pages of the leaves. -/
def IsPageOf (tree : BPlusTreeNTS K) (page : LeafPage K V) (leaf : Leaf K V) :
    Prop :=
  ∃ parentPageId, page = leaf.page tree parentPageId

/-- The leaves as subtrees. -/
theorem children_leaves {before leaves : List (Leaf K V)}
    {refs : List (Ref K)} {rows : List (List (Branch K))}
    (hrow : LeafRow (before ++ leaves))
    (hat : List.Forall₂ (Node.At tree store) refs (leaves.map Node.leaf))
    (hfits : ∀ leaf ∈ leaves, leaf.Fits tree rows)
    (hroot : ∀ ref ∈ refs, ref.parentPageId = INVALID_PAGE_ID ↔ rows = [])
    (hid : ∀ leaf ∈ leaves, leaf.pageId ≠ INVALID_PAGE_ID)
    (hkeys : ∀ key, key ∈ keys ↔
      ∃ e ∈ entriesOf (before ++ leaves), e.1 = key) :
    ∃ pages, List.Forall₂ (IsPageOf tree) pages leaves ∧
      Children (Subtree tree.leafMaxSize tree.internalMaxSize store keys 0) ⊤
        refs pages := by
  induction leaves generalizing before refs with
  | nil =>
      rw [List.map_nil, List.forall₂_nil_right_iff] at hat
      rw [hat]
      exact ⟨[], .nil, rfl⟩
  | cons leaf leaves ih =>
      obtain ⟨ref, refs', hfirst, hrest, rfl⟩ :=
        List.forall₂_cons_right_iff.mp hat
      have hexact := @holdExactly_leaf K V _ tree store keys before leaves leaf
        refs' ref.parentPageId hrow hrest hkeys
      rw [List.append_cons] at hrow hkeys
      obtain ⟨pages, hpages, hchildren⟩ := ih hrow hrest
        (fun l hl => hfits l (List.mem_cons_of_mem _ hl))
        (fun r hr => hroot r (List.mem_cons_of_mem _ hr))
        (fun l hl => hid l (List.mem_cons_of_mem _ hl)) hkeys
      refine ⟨leaf.page tree ref.parentPageId :: pages,
        .cons ⟨_, rfl⟩ hpages, [_], pages, rfl, ?_, hchildren⟩
      obtain ⟨low, pageId, parentPageId⟩ := ref
      obtain ⟨rfl, rfl, hpage⟩ := hfirst
      have hleaf := hfits leaf List.mem_cons_self
      refine ⟨_, _, rfl, hpage, rfl, rfl, ?_, ?_, hexact⟩
      · exact BPlusTreePage.placed (hid leaf List.mem_cons_self)
          (hroot _ List.mem_cons_self) hleaf.lt_maxSize hleaf.le_size
      · rw [List.pairwise_map]
        exact (hrow.ordered leaf (by simp)).sorted

omit [LinearOrder K] in
theorem low_eq_of_at {refs : List (Ref K)} {nodes : List (Node K V)}
    (h : List.Forall₂ (Node.At tree store) refs nodes) :
    refs.map Ref.low = nodes.map Node.low := by
  induction h with
  | nil => rfl
  | cons hat _ ih => rw [List.map_cons, List.map_cons, hat.low_eq, ih]

section Pages

variable {pages : List (LeafPage K V)} {leaves : List (Leaf K V)}

omit [LinearOrder K] in
theorem keysOf_pages (h : List.Forall₂ (IsPageOf tree) pages leaves) :
    keysOf pages = (entriesOf leaves).map Prod.fst := by
  induction h with
  | nil => rfl
  | cons hpage _ ih =>
      obtain ⟨p, rfl⟩ := hpage
      rw [entriesOf_cons, List.map_append, ← ih]
      rfl

omit [LinearOrder K] in
theorem pageId_pages (h : List.Forall₂ (IsPageOf tree) pages leaves) :
    pages.map LeafPage.pageId = leaves.map Leaf.pageId := by
  induction h with
  | nil => rfl
  | cons hpage _ ih =>
      obtain ⟨p, rfl⟩ := hpage
      rw [List.map_cons, List.map_cons, ih]
      rfl

omit [LinearOrder K] in
theorem linked_pages (h : List.Forall₂ (IsPageOf tree) pages leaves)
    (hchained : Chained INVALID_PAGE_ID leaves) : Linked pages := by
  induction h with
  | nil => trivial
  | cons hpage hrest ih =>
      obtain ⟨p, rfl⟩ := hpage
      obtain ⟨hnext, hchained⟩ := hchained
      cases hrest with
      | nil => exact hnext
      | cons hpage' hrest' =>
          obtain ⟨p', rfl⟩ := hpage'
          exact ⟨hnext, ih hchained⟩

end Pages

omit [LinearOrder K] in
/-- Only the root has no parent. -/
theorem parentPageId_refsAbove {rootPageId : PageId}
    {rows : List (List (Branch K))}
    (hid : ∀ pageId ∈ rowIds rows, pageId ≠ INVALID_PAGE_ID) :
    ∀ ref ∈ refsAbove rootPageId rows,
      ref.parentPageId = INVALID_PAGE_ID ↔ rows = [] := by
  cases rows with
  | nil =>
      intro ref href
      obtain rfl := List.mem_singleton.mp href
      exact iff_of_true rfl rfl
  | cons row rows =>
      intro ref href
      obtain ⟨branch, hbranch, href⟩ := List.mem_flatMap.mp href
      refine iff_of_false ?_ (List.cons_ne_nil _ _)
      rw [parentPageId_of_mem_refsOf href]
      apply hid
      rw [rowIds, List.flatMap_cons, List.mem_append]
      exact Or.inl (List.mem_map_of_mem hbranch)

/-- The bounds of branches increase if those of their children do. -/
theorem pairwise_low_above {refs : List (Ref K)} {row : List (Branch K)}
    {rows : List (List (Branch K))}
    (hat : List.Forall₂ (Node.At tree store) refs
      (row.map (Node.branch : Branch K → Node K V)))
    (hfits : ∀ branch ∈ row, branch.Fits tree rows)
    (hmax : 4 ≤ tree.internalMaxSize)
    (hpairwise : (row.flatMap Branch.refs).Pairwise
      fun a b => a.low < b.low) :
    refs.Pairwise fun a b => a.low < b.low := by
  have hfirst : ∀ branch ∈ row, ∃ r ∈ branch.refs, r.low = branch.low := by
    intro branch hbranch
    obtain ⟨item, items, harray⟩ := (hfits branch hbranch).exists_cons hmax
    apply Branch.exists_ref_low
    rw [harray]
    exact List.cons_ne_nil _ _
  induction row generalizing refs with
  | nil =>
      rw [List.map_nil, List.forall₂_nil_right_iff] at hat
      rw [hat]
      exact .nil
  | cons branch row ih =>
      obtain ⟨ref, refs', hat₁, hrest, rfl⟩ :=
        List.forall₂_cons_right_iff.mp hat
      rw [List.flatMap_cons] at hpairwise
      obtain ⟨-, hpairwise', hcross⟩ := List.pairwise_append.mp hpairwise
      refine .cons ?_ (ih hrest (fun b hb => hfits b
        (List.mem_cons_of_mem _ hb)) hpairwise' fun b hb => hfirst b
          (List.mem_cons_of_mem _ hb))
      intro ref' href'
      obtain ⟨node, hnode, hat'⟩ := exists_of_forall₂_left hrest href'
      obtain ⟨b, hb, rfl⟩ := List.mem_map.mp hnode
      obtain ⟨r, hr, hlow⟩ := hfirst branch List.mem_cons_self
      obtain ⟨r', hr', hlow'⟩ := hfirst b (List.mem_cons_of_mem _ hb)
      rw [hat₁.low_eq, hat'.low_eq, Node.low_branch, Node.low_branch, ← hlow,
        ← hlow']
      exact hcross r hr r' (List.mem_flatMap.mpr ⟨b, hb, hr'⟩)

/-- Subtrees below the rows make one tree. -/
theorem exists_subtree {rows : List (List (Branch K))}
    {pages : List (LeafPage K V)} (habove : Above tree store rows)
    (hmax : 4 ≤ tree.internalMaxSize)
    (hid : ∀ pageId ∈ rowIds rows, pageId ≠ INVALID_PAGE_ID)
    (hpairwise : (refsAbove tree.rootPageId rows).Pairwise
      fun a b => a.low < b.low)
    (hchildren : Children (Subtree tree.leafMaxSize tree.internalMaxSize store
      keys depth) ⊤ (refsAbove tree.rootPageId rows) pages) :
    ∃ depth', Subtree tree.leafMaxSize tree.internalMaxSize store keys depth'
      ⊥ ⊤ INVALID_PAGE_ID tree.rootPageId pages := by
  induction rows generalizing depth with
  | nil =>
      obtain ⟨pages', _, rfl, hroot, rfl⟩ := hchildren
      rw [List.append_nil]
      exact ⟨depth, hroot⟩
  | cons row rows ih =>
      obtain ⟨hat, hfits, hrest⟩ := habove
      have hid' : ∀ pageId ∈ rowIds rows, pageId ≠ INVALID_PAGE_ID := by
        intro pageId hmem
        apply hid
        rw [rowIds, List.flatMap_cons, List.mem_append]
        exact Or.inr hmem
      apply @ih (depth + 1) hrest hid'
        (pairwise_low_above hat hfits hmax hpairwise)
      refine children_above hat hfits (parentPageId_refsAbove hid') hmax ?_
        hpairwise ?_ hchildren
      · intro branch hbranch
        apply hid
        rw [rowIds, List.flatMap_cons, List.mem_append]
        exact Or.inl (List.mem_map_of_mem hbranch)
      · exact fun r _ key _ => WithTop.coe_lt_top key

/-- A tree that stands in rows is well formed. -/
theorem Shape.wellFormed {leaves : List (Leaf K V)}
    {rows : List (List (Branch K))} (h : Shape tree store leaves rows)
    (hbounded : store.Bounded) (hmax : 4 ≤ tree.internalMaxSize) :
    WellFormed tree.leafMaxSize tree.internalMaxSize tree.rootPageId
      store := by
  have hid : ∀ pageId ∈ levelIds (leaves.map Node.leaf) rows,
      pageId ≠ INVALID_PAGE_ID := by
    rintro pageId hmem rfl
    have hpos := (hbounded _ (h.stands.isSome hmem)).1
    exact absurd hpos (by decide)
  have hid' : ∀ pageId ∈ rowIds rows, pageId ≠ INVALID_PAGE_ID :=
    fun pageId hmem => hid pageId (List.mem_append_right _ hmem)
  have hrow : LeafRow ([] ++ leaves) := h.row
  have hkeys : ∀ key, key ∈ (entriesOf leaves).map Prod.fst ↔
      ∃ e ∈ entriesOf ([] ++ leaves), e.1 = key := fun key => List.mem_map
  obtain ⟨pages, hpages, hchildren⟩ := children_leaves hrow h.stands.nodes_at
    h.fits (parentPageId_refsAbove hid') (fun leaf hleaf => by
      apply hid
      exact List.mem_append_left _
        (List.mem_map_of_mem (List.mem_map_of_mem hleaf))) hkeys
  have hlows : (refsAbove tree.rootPageId rows).Pairwise
      fun a b => a.low < b.low := by
    have hpairwise : (leaves.map Leaf.low).Pairwise (· < ·) :=
      List.pairwise_map.mpr (h.row.pairwise.imp Leaf.Before.low_lt)
    have hlow := low_eq_of_at h.stands.nodes_at
    rw [List.map_map] at hlow
    rw [← List.pairwise_map (f := Ref.low) (R := (· < ·)), hlow]
    exact hpairwise
  obtain ⟨depth, hsubtree⟩ := exists_subtree h.stands.above hmax hid' hlows
    hchildren
  refine Or.inr ⟨depth, pages, ?_, ?_, ?_⟩
  · rwa [keysOf_pages hpages]
  · rw [pageId_pages hpages]
    have hnodup := (List.nodup_append.mp h.stands.nodup).1
    rwa [List.map_map] at hnodup
  · exact linked_pages hpages h.row.chained

end Rows

end TicketSystem.Database
