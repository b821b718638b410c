import TicketSystem.Database.LeafSearch
import TicketSystem.Database.PageSteps
import TicketSystem.Database.TreeShape

/-!
# The way down

`Lookup` of an internal page picks the child whose bounds enclose the key, and
`FindLeafPage` follows these choices through all rows to the leaf whose bounds
enclose it.  Only the page it stands at is pinned.
-/

namespace TicketSystem.Database

open TicketSystem.Support

variable {K V : Type}

/-! ## The search in an internal page -/

namespace InternalPage

variable {comparator : K → K → ℤ} {page : InternalPage K} {key : K}

/-- The loop ends at the last index `c` whose key is not above `key`; the key
at index zero is not read. -/
theorem lookupLoop_eq {c : ℕ}
    (hsplit : ∀ i item, 1 ≤ i → page.array[i]? = some item →
      (comparator key item.1 < 0 ↔ c < i))
    {fuel : ℕ} {l r : ℤ} (hl : 1 ≤ l) (hlc : l ≤ c + 1) (hcr : c ≤ r)
    (hr : r < page.size) (hfuel : r + 1 - l < fuel) :
    lookupLoop comparator page key fuel l r r = some (c : ℤ) := by
  induction fuel generalizing l r with
  | zero => omega
  | succ fuel ih =>
      rw [lookupLoop]
      by_cases hlr : l ≤ r
      · have hmid : ((l + r) / 2).toNat < page.array.length := by
          rw [size] at hr
          omega
        simp only [if_pos hlr, List.getElem?_eq_getElem hmid]
        have hiff := hsplit _ _ (by omega) (List.getElem?_eq_getElem hmid)
        by_cases hcmp : comparator key page.array[((l + r) / 2).toNat].1 < 0
        · have hlt := hiff.mp hcmp
          rw [if_pos hcmp]
          apply ih hl hlc
          · omega
          · omega
          · omega
        · have hge := mt hiff.mpr hcmp
          rw [if_neg hcmp]
          apply ih
          · omega
          · omega
          · exact hcr
          · exact hr
          · omega
      · rw [if_neg hlr]
        congr 1
        omega

variable [LinearOrder K]

/-- `Lookup` picks the child whose bounds enclose the key. -/
theorem lookup_eq (hcmp : Compares comparator) {low : WithBot K}
    {parentPageId : PageId} {before after : List (Ref K)} {ref : Ref K}
    (hrefs : refsOf low parentPageId page.array = before ++ ref :: after)
    (hbefore : ∀ r ∈ before, r.low ≤ key) (hlow : ref.low ≤ key)
    (hafter : ∀ r ∈ after, key < r.low) :
    page.lookup comparator key = some ref.pageId := by
  obtain ⟨ibefore, item, iafter, harray, rfl, rfl, rfl⟩ :=
    exists_pieces_of_refsOf hrefs
  have hsize : page.size = ibefore.length + iafter.length + 1 := by
    rw [size, harray, List.length_append, List.length_cons]
    omega
  have hsplit : ∀ i item', 1 ≤ i → page.array[i]? = some item' →
      (comparator key item'.1 < 0 ↔ ibefore.length < i) := by
    intro i item' hi hitem
    rw [hcmp.neg_iff]
    rw [harray] at hitem
    rcases lt_trichotomy i ibefore.length with hlt | heq | hgt
    · rw [List.getElem?_append_left hlt] at hitem
      have hmem : Ref.ofItem parentPageId item' ∈
          refsOf low parentPageId ibefore := by
        cases ibefore with
        | nil => simp at hlt
        | cons first ibefore =>
            obtain ⟨j, rfl⟩ : ∃ j, i = j + 1 := ⟨i - 1, by omega⟩
            rw [List.getElem?_cons_succ] at hitem
            exact List.mem_cons_of_mem _
              (List.mem_map_of_mem (List.mem_of_getElem? hitem))
      have hle : item'.1 ≤ key := WithBot.coe_le_coe.mp (hbefore _ hmem)
      exact iff_of_false (not_lt.mpr hle) (not_lt.mpr hlt.le)
    · subst heq
      rw [getElem?_pieces, Option.some.injEq] at hitem
      subst hitem
      rw [if_neg (by
        rintro rfl
        simp at hi)] at hlow
      exact iff_of_false (not_lt.mpr (WithBot.coe_le_coe.mp hlow))
        (lt_irrefl _)
    · rw [List.getElem?_append_right hgt.le] at hitem
      obtain ⟨j, hj⟩ : ∃ j, i - ibefore.length = j + 1 :=
        ⟨i - ibefore.length - 1, by omega⟩
      rw [hj, List.getElem?_cons_succ] at hitem
      have hlt := hafter _ (List.mem_map_of_mem
        (List.mem_of_getElem? hitem))
      exact iff_of_true (WithBot.coe_lt_coe.mp hlt) hgt
  rw [lookup, lookupLoop_eq (c := ibefore.length) hsplit (le_refl 1)
    (by omega) (by omega) (by omega) (by omega), Option.bind_some, valueAt,
    Int.toNat_natCast, harray, getElem?_pieces]
  rfl

end InternalPage

/-! ## FindLeafPage -/

/-- `ref` is the one of the references whose bounds enclose the key. -/
structure Encloses [LinearOrder K] (key : K) (before : List (Ref K))
    (ref : Ref K) (after : List (Ref K)) : Prop where
  before_le : ∀ r ∈ before, r.low ≤ key
  low_le : ref.low ≤ key
  lt_after : ∀ r ∈ after, key < r.low

namespace BPlusTreeNTS

/-- The rest of `FindLeafPage` from a page that it has just pinned. -/
def descend (tree : BPlusTreeNTS K) (key : K) (fuel : ℕ) (pageId : PageId) :
    TreeM K V PageId := do
  match ← getData pageId with
  | .leaf _ => pure pageId
  | _ => tree.findLeafLoop key false false fuel pageId

end BPlusTreeNTS

section Search

variable {frames : ℕ} {store : PageStore (PageData K V)}
  {tree : BPlusTreeNTS K} {key : K}

theorem does_descend_leaf {fuel : ℕ} {pageId : PageId} {page : LeafPage K V}
    {Q : PageId → PageStore (PageData K V) → Prop}
    (hin : pageId ∈ store.pins)
    (hlive : store.page pageId = some (.leaf page)) (hQ : Q pageId store) :
    Does frames (tree.descend key fuel pageId) store Q :=
  Program.ends_bind (does_getData hin hlive (Program.ends_pure hQ))

/-- From a branch the search moves its pin to the child it picks. -/
theorem does_descend_branch [LinearOrder K]
    (hcmp : Compares tree.comparator) {fuel : ℕ} {branch : Branch K}
    {parentPageId : PageId} {before after : List (Ref K)} {ref : Ref K}
    {data : PageData K V} {Q : PageId → PageStore (PageData K V) → Prop}
    (hlive : store.page branch.pageId =
      some (.internal (branch.page tree parentPageId)))
    (hrefs : branch.refs = before ++ ref :: after)
    (hkey : Encloses key before ref after)
    (hchild : store.page ref.pageId = some data)
    (hclean : branch.pageId ∉ store.owed)
    (hroom : store.pins.toFinset.card + 2 ≤ frames)
    (hQ : Does frames (tree.descend key fuel ref.pageId)
      (store.pin ref.pageId) Q) :
    Does frames (tree.descend key (fuel + 1) branch.pageId)
      (store.pin branch.pageId) Q := by
  have hlookup : (branch.page tree parentPageId).lookup tree.comparator key =
      some ref.pageId :=
    InternalPage.lookup_eq hcmp hrefs hkey.before_le hkey.low_le hkey.lt_after
  have hone := PageStore.card_cons_le store.pins branch.pageId
  refine Program.ends_bind
    (does_getData (Multiset.mem_cons_self _ _) hlive ?_)
  refine Program.ends_bind
    (does_getInternal (Multiset.mem_cons_self _ _) hlive ?_)
  refine Program.ends_bind (does_orStop hlookup ?_)
  refine Program.ends_bind (does_fetchPage hchild (Or.inr ?_) ?_)
  · rw [PageStore.pin_pins]
    omega
  refine Program.ends_bind (does_unpinPage ?_ ?_ ?_)
  · exact Multiset.mem_cons_of_mem (Multiset.mem_cons_self _ _)
  · exact fun _ => hclean
  have hstore : ((store.pin branch.pageId).pin ref.pageId).unpin
      branch.pageId false = store.pin ref.pageId := by
    simp [PageStore.pin, PageStore.unpin, PageStore.erase_second]
  rw [hstore]
  exact hQ

/-- The first child of a branch has the bound of the branch. -/
theorem Branch.exists_ref_low {branch : Branch K} (h : branch.array ≠ []) :
    ∃ ref ∈ branch.refs, ref.low = branch.low := by
  obtain ⟨item, items, harray⟩ := List.exists_cons_of_ne_nil h
  rw [Branch.refs, harray]
  exact ⟨_, List.mem_cons_self, rfl⟩

/-- The branch that refers to the child that encloses the key encloses it
itself. -/
theorem Encloses.exists_branch [LinearOrder K] {row : List (Branch K)}
    {before after : List (Ref K)} {ref : Ref K}
    (hrefs : row.flatMap Branch.refs = before ++ ref :: after)
    (hkey : Encloses key before ref after)
    (hrow : ∀ branch ∈ row, branch.array ≠ []) :
    ∃ (row₁ : List (Branch K)) (branch : Branch K) (row₂ : List (Branch K))
        (cbefore cafter : List (Ref K)), row = row₁ ++ branch :: row₂ ∧
      branch.refs = cbefore ++ ref :: cafter ∧
      Encloses key cbefore ref cafter ∧ (∀ b ∈ row₁, b.low ≤ key) ∧
      branch.low ≤ key ∧ ∀ b ∈ row₂, key < b.low := by
  obtain ⟨row₁, branch, row₂, cbefore, cafter, rfl, hbranch, rfl, rfl⟩ :=
    exists_pieces_of_flatMap hrefs
  have hmem : branch ∈ row₁ ++ branch :: row₂ := by simp
  refine ⟨row₁, branch, row₂, cbefore, cafter, rfl, hbranch,
    ⟨?_, hkey.low_le, ?_⟩, ?_, ?_, ?_⟩
  · exact fun r hr => hkey.before_le r (List.mem_append_right _ hr)
  · exact fun r hr => hkey.lt_after r (List.mem_append_left _ hr)
  · intro b hb
    obtain ⟨r, hr, hlow⟩ :=
      Branch.exists_ref_low (hrow b (List.mem_append_left _ hb))
    rw [← hlow]
    apply hkey.before_le
    exact List.mem_append_left _ (List.mem_flatMap.mpr ⟨b, hb, hr⟩)
  · obtain ⟨r, hr, hlow⟩ := Branch.exists_ref_low (hrow branch hmem)
    rw [hbranch] at hr
    rw [← hlow]
    rcases List.mem_append.mp hr with hr | hr
    · exact hkey.before_le r (List.mem_append_right _ hr)
    rcases List.mem_cons.mp hr with rfl | hr
    · exact hkey.low_le
    · -- the bound of the branch is that of its first child
      cases cbefore with
      | cons first cbefore =>
          obtain ⟨item, items, harray⟩ :=
            List.exists_cons_of_ne_nil (hrow branch hmem)
          rw [Branch.refs, harray] at hbranch
          obtain ⟨rfl, -⟩ := List.cons.inj hbranch
          rw [hlow]
          exact hkey.before_le _
            (List.mem_append_right _ List.mem_cons_self)
      | nil =>
          obtain ⟨item, items, harray⟩ :=
            List.exists_cons_of_ne_nil (hrow branch hmem)
          rw [Branch.refs, harray] at hbranch
          obtain ⟨rfl, -⟩ := List.cons.inj hbranch
          rw [hlow]
          exact hkey.low_le
  · intro b hb
    obtain ⟨r, hr, hlow⟩ := Branch.exists_ref_low
      (hrow b (List.mem_append_right _ (List.mem_cons_of_mem _ hb)))
    rw [← hlow]
    apply hkey.lt_after
    exact List.mem_append_right _ (List.mem_flatMap.mpr ⟨b, hb, hr⟩)

/-- At the root the search goes on as from any other page. -/
theorem findLeafPage_eq (fuel : ℕ) (hroot : tree.rootPageId ≠ INVALID_PAGE_ID) :
    (tree.findLeafPage fuel key false false : TreeM K V (Option PageId)) =
      fetchPage tree.rootPageId >>= fun _ =>
        tree.descend key fuel tree.rootPageId >>= fun pageId =>
          pure (some pageId) := by
  rw [BPlusTreeNTS.findLeafPage, if_neg hroot]
  congr 1
  funext _
  change Program.perform _ _ = Program.perform _ _
  congr 1
  funext data
  cases data <;> rfl

/-- Only the root is referred to above all rows. -/
theorem refsAbove_nil_eq {rootPageId : PageId} {before after : List (Ref K)}
    {ref : Ref K} (h : refsAbove rootPageId [] = before ++ ref :: after) :
    before = [] ∧ ⟨⊥, rootPageId, INVALID_PAGE_ID⟩ = ref ∧ after = [] := by
  cases before with
  | nil =>
      obtain ⟨href, hafter⟩ := List.cons.inj h
      exact ⟨rfl, href, hafter.symm⟩
  | cons first before =>
      obtain ⟨-, hrest⟩ := List.cons.inj h
      exact absurd hrest.symm (by simp)

/-- The branch that refers to the node whose bounds enclose the key, and the
reference to it from the row above. -/
theorem Above.exists_up [LinearOrder K] {row : List (Branch K)}
    {rows : List (List (Branch K))} {before after : List (Ref K)}
    {ref : Ref K} (habove : Above tree store (row :: rows))
    (hmax : 4 ≤ tree.internalMaxSize)
    (hrefs : refsAbove tree.rootPageId (row :: rows) = before ++ ref :: after)
    (hkey : Encloses key before ref after) :
    ∃ branch ∈ row, ∃ cbefore cafter ubefore up uafter,
      branch.refs = cbefore ++ ref :: cafter ∧
      Encloses key cbefore ref cafter ∧
      refsAbove tree.rootPageId rows = ubefore ++ up :: uafter ∧
      Encloses key ubefore up uafter ∧
      Node.At tree store up (.branch branch) := by
  obtain ⟨hrow, hfits, -⟩ := habove
  have hnonempty : ∀ branch ∈ row, branch.array ≠ [] := by
    intro branch hbranch hnil
    have hle := (hfits branch hbranch).le_size
    rw [hnil, List.length_nil] at hle
    split_ifs at hle <;> omega
  obtain ⟨row₁, branch, row₂, cbefore, cafter, rfl, hbranch, hchild,
    hbefore, hlow, hafter⟩ := hkey.exists_branch hrefs hnonempty
  rw [List.map_append, List.map_cons] at hrow
  obtain ⟨ubefore, up, uafter, hup, hbefore', hat, hafter'⟩ :=
    forall₂_pieces_right hrow
  refine ⟨branch, by simp, cbefore, cafter, ubefore, up, uafter, hbranch,
    hchild, hup, ⟨?_, ?_, ?_⟩, hat⟩
  · intro r hr
    obtain ⟨node, hnode, hrat⟩ := exists_of_forall₂_left hbefore' hr
    obtain ⟨b, hb, rfl⟩ := List.mem_map.mp hnode
    rw [hrat.low_eq]
    exact hbefore b hb
  · rw [hat.low_eq]
    exact hlow
  · intro r hr
    obtain ⟨node, hnode, hrat⟩ := exists_of_forall₂_left hafter' hr
    obtain ⟨b, hb, rfl⟩ := List.mem_map.mp hnode
    rw [hrat.low_eq]
    exact hafter b hb

/-- `FindLeafPage` on the way to a node whose bounds enclose the key. -/
theorem does_findLeafPage [LinearOrder K] (hcmp : Compares tree.comparator)
    {rows : List (List (Branch K))} {before after : List (Ref K)}
    {ref : Ref K} {data : PageData K V} {fuel : ℕ}
    {Q : Option PageId → PageStore (PageData K V) → Prop}
    (habove : Above tree store rows) (hmax : 4 ≤ tree.internalMaxSize)
    (hrefs : refsAbove tree.rootPageId rows = before ++ ref :: after)
    (hkey : Encloses key before ref after)
    (hlive : store.page ref.pageId = some data) (hbounded : store.Bounded)
    (hclean : ∀ pageId ∈ rowIds rows, pageId ∉ store.owed)
    (hroom : store.pins.toFinset.card + 2 ≤ frames)
    (hQ : Does frames (tree.descend key fuel ref.pageId)
      (store.pin ref.pageId) fun pageId s' => Q (some pageId) s') :
    Does frames (tree.findLeafPage (fuel + rows.length) key false false)
      store Q := by
  induction rows generalizing before ref after data fuel with
  | nil =>
      obtain ⟨rfl, rfl, rfl⟩ := refsAbove_nil_eq hrefs
      have hroot : tree.rootPageId ≠ INVALID_PAGE_ID := by
        intro heq
        have hpos := (hbounded tree.rootPageId (by rw [hlive]; rfl)).1
        rw [heq] at hpos
        exact absurd hpos (by decide)
      rw [findLeafPage_eq _ hroot]
      refine Program.ends_bind (does_fetchPage hlive (Or.inr (by omega)) ?_)
      refine Program.ends_bind (hQ.mono fun pageId s' h => ?_)
      exact Program.ends_pure h
  | cons row rows ih =>
      obtain ⟨branch, hmem, cbefore, cafter, ubefore, up, uafter, hbranch,
        hchild, hup, hencl, hat⟩ := habove.exists_up hmax hrefs hkey
      rw [List.length_cons, show fuel + (rows.length + 1) =
        fuel + 1 + rows.length by omega]
      have hpage : store.page up.pageId =
          some ((Node.branch branch).data tree up.parentPageId) := by
        rw [hat.pageId_eq]
        exact hat.page_eq
      refine ih habove.2.2 hup hencl hpage ?_ ?_
      · intro pageId hid
        apply hclean
        rw [rowIds_cons]
        exact List.mem_append_right _ hid
      · rw [hat.pageId_eq] at hpage ⊢
        apply does_descend_branch hcmp hpage hbranch hchild hlive
        · apply hclean
          rw [rowIds_cons]
          exact List.mem_append_left _ (List.mem_map_of_mem hmem)
        · exact hroom
        · exact hQ

end Search

end TicketSystem.Database
