import TicketSystem.Database.Index
import TicketSystem.Database.TreeOperations

/-!
# Range scans

`GetValue` with a standby comparator starts at the first key that is not below
the one asked for, in its leaf or in the next one, and follows the chain of
leaves as long as the standby comparator answers zero.
-/

namespace TicketSystem.Database

open TicketSystem.Support

variable {K V : Type}

variable {frames : ℕ} {store : PageStore (PageData K V)}
  {tree : BPlusTreeNTS K}

section Scan

variable [LinearOrder K] {before after : List (Leaf K V)} {leaf : Leaf K V}
  {rows : List (List (Branch K))} {entries : List (K × V)} {key : K}
  {fuel : ℕ} {newComparator : K → K → ℤ} {result : List V}

/-- The entries of a list as long as the standby comparator answers zero. -/
def accepted (newComparator : K → K → ℤ) (key : K) (entries : List (K × V)) :
    List V :=
  (entries.takeWhile fun e => newComparator key e.1 = 0).map Prod.snd

/-- The page of a leaf. -/
theorem Shape.exists_page {leaves : List (Leaf K V)}
    (h : Shape tree store leaves rows) (hleaf : leaf ∈ leaves) :
    ∃ parentPageId, store.page leaf.pageId =
      some (.leaf (leaf.page tree parentPageId)) := by
  obtain ⟨ref, -, hat⟩ :=
    exists_of_forall₂_right h.stands.nodes_at (List.mem_map_of_mem hleaf)
  exact ⟨ref.parentPageId, hat.page_eq⟩

/-- The end of a leaf: the pin moves to the next one. -/
theorem Shape.does_nextLeaf (h : Shape tree store (before ++ leaf :: after)
      rows) (hready : Ready tree store)
    (hroom : store.pins.toFinset.card + 2 ≤ frames) (parentPageId : PageId)
    {Q : Option PageId → PageStore (PageData K V) → Prop}
    (hlast : after = [] → Q none store)
    (hnext : ∀ next rest, after = next :: rest →
      Q (some next.pageId) (store.pin next.pageId)) :
    Does frames (BPlusTreeNTS.nextLeaf (leaf.page tree parentPageId))
      (store.pin leaf.pageId) Q := by
  have hchained := (chained_append.mp h.row.chained).2.1
  have hstore : (store.pin leaf.pageId).unpin leaf.pageId false = store := by
    simp [PageStore.pin, PageStore.unpin]
  refine Program.ends_bind (does_unpinPage (Multiset.mem_cons_self _ _) ?_ ?_)
  · intro _
    rw [PageStore.pin_owed, hready.owed_eq]
    exact Finset.notMem_empty _
  have hid : (leaf.page tree parentPageId).pageId = leaf.pageId := rfl
  have hnextId : (leaf.page tree parentPageId).nextPageId =
      leaf.nextPageId := rfl
  rw [hid, hstore, hnextId, hchained]
  cases after with
  | nil =>
      rw [firstPageId, if_pos rfl]
      exact Program.ends_pure (hlast rfl)
  | cons next rest =>
      obtain ⟨p, hpage⟩ := h.exists_page (show next ∈ before ++ leaf ::
        next :: rest by simp)
      have hne : next.pageId ≠ INVALID_PAGE_ID := by
        intro heq
        have hpos := (hready.bounded _ (Option.isSome_of_eq_some hpage)).1
        rw [heq] at hpos
        exact absurd hpos (by decide)
      rw [firstPageId, if_neg hne]
      refine Program.ends_bind (does_fetchPage hpage (Or.inr (by omega)) ?_)
      exact Program.ends_pure (hnext next rest rfl)

/-- The loop from an item of a leaf on. -/
theorem Shape.does_getValuesLoop {done rest : List (K × V)} {item : K × V}
    (h : Shape tree store (before ++ leaf :: after) rows)
    (hready : Ready tree store) (hmax : 4 ≤ tree.leafMaxSize)
    (harray : leaf.array = done ++ item :: rest)
    (hfuel : rest.length + (entriesOf after).length < fuel)
    (hroom : store.pins.toFinset.card + 2 ≤ frames)
    {Q : Bool × List V → PageStore (PageData K V) → Prop}
    (hQ : Q (true, result ++ accepted newComparator key
      (item :: (rest ++ entriesOf after))) store) :
    Does frames (BPlusTreeNTS.getValuesLoop newComparator key fuel leaf.pageId
      done.length result) (store.pin leaf.pageId) Q := by
  induction fuel generalizing before leaf after done item rest result with
  | zero => omega
  | succ fuel ih =>
      obtain ⟨p, hpage⟩ := h.exists_page
        (show leaf ∈ before ++ leaf :: after by simp)
      have hitem : (leaf.page tree p).array[(done.length : ℤ).toNat]? =
          some item := by
        rw [Int.toNat_natCast]
        simp [Leaf.page, harray]
      rw [BPlusTreeNTS.getValuesLoop]
      refine Program.ends_bind (does_getLeaf (Multiset.mem_cons_self _ _)
        hpage ?_)
      rw [if_neg (by omega)]
      refine Program.ends_bind (does_orStop hitem ?_)
      by_cases hzero : newComparator key item.1 = 0
      · rw [if_neg (by simpa using hzero)]
        have haccepted : result ++ accepted newComparator key
            (item :: (rest ++ entriesOf after)) =
              (result ++ [item.2]) ++ accepted newComparator key
                (rest ++ entriesOf after) := by
          simp [accepted, hzero]
        rw [haccepted] at hQ
        have hsize : (leaf.page tree p).size = done.length + rest.length + 1 := by
          simp [LeafPage.size, Leaf.page, harray]
          omega
        cases rest with
        | nil =>
            rw [if_pos (by rw [hsize]; simp)]
            apply Program.ends_bind
            refine h.does_nextLeaf hready hroom p ?_ ?_
            · rintro rfl
              exact Program.ends_pure (by simpa [accepted, entriesOf] using hQ)
            · rintro next after' rfl
              obtain ⟨item', rest', harray'⟩ := List.exists_cons_of_ne_nil
                (h.ne_nil hmax next (by simp))
              rw [entriesOf_cons, harray'] at hQ hfuel
              have h' : Shape tree store ((before ++ [leaf]) ++ next :: after')
                  rows := by
                rw [List.append_assoc]
                exact h
              have hloop := @ih (before ++ [leaf]) after' next
                (result ++ [item.2]) [] rest' item' h' harray'
              refine hloop ?_ ?_
              · simp only [List.length_append, List.length_cons,
                  List.length_nil] at hfuel
                omega
              · simpa using hQ
        | cons second rest =>
            rw [if_neg (by rw [hsize]; simp; omega)]
            have hloop := @ih before after leaf (result ++ [item.2])
              (done ++ [item]) rest second h (by
                rw [harray, List.append_assoc]
                rfl)
            rw [List.length_append, List.length_singleton, Nat.cast_add,
              Nat.cast_one] at hloop
            refine hloop ?_ ?_
            · rw [List.length_cons] at hfuel
              omega
            · exact hQ
      · rw [if_pos hzero]
        refine Program.ends_bind (does_unpinPage (Multiset.mem_cons_self _ _)
          ?_ ?_)
        · intro _
          rw [PageStore.pin_owed, hready.owed_eq]
          exact Finset.notMem_empty _
        have hstore : (store.pin leaf.pageId).unpin leaf.pageId false =
            store := by
          simp [PageStore.pin, PageStore.unpin]
        have hid : (leaf.page tree p).pageId = leaf.pageId := rfl
        rw [hid, hstore]
        apply Program.ends_pure
        simpa [accepted, hzero] using hQ

/-- `GetValue` with a standby comparator pushes the values from the key on as
long as the comparator answers zero. -/
theorem Holds.does_getValues (h : Holds tree store entries)
    (hcmp : Compares tree.comparator) (hready : Ready tree store)
    (hmax : 4 ≤ tree.leafMaxSize) (hmax' : 4 ≤ tree.internalMaxSize)
    (hfuel : entries.length < fuel)
    (hroom : store.pins.toFinset.card + 2 ≤ frames)
    {Q : Bool × List V → PageStore (PageData K V) → Prop}
    (hQ : Q (!entries.isEmpty, result ++ accepted newComparator key
      (entries.filter fun e => key ≤ e.1)) store) :
    Does frames (tree.getValues fuel key result newComparator) store Q := by
  cases h with
  | empty hroot =>
      refine Program.ends_bind (does_findLeafPage_empty hroot ?_)
      exact Program.ends_pure (by simpa [accepted] using hQ)
  | leaves leaves rows hshape =>
      have hrows := hshape.length_rows_lt hmax hmax'
      refine Program.ends_bind (hshape.does_findLeafPage hcmp hready hmax'
        (by omega) hroom ?_)
      rintro before leaf after p rfl hlow hafter hpage
      obtain ⟨below, mid, above, harray, hbelow, hmid, habove⟩ :=
        (hshape.row.ordered leaf (by simp)).sorted.exists_split key
      have hindex : (leaf.page tree p).keyIndex tree.comparator key =
          some (if mid ++ above = [] then -1 else (below.length : ℤ)) :=
        LeafPage.keyIndex_split hcmp harray hbelow hmid habove
      obtain ⟨hlt, hgt⟩ := hshape.row.lt_of_mem hlow hafter
      have hfilter : (entriesOf (before ++ leaf :: after)).filter
          (fun e => key ≤ e.1) = (mid ++ above) ++ entriesOf after := by
        have hmidge : ∀ e ∈ mid, key ≤ e.1 := by
          rcases hmid with rfl | ⟨v, rfl⟩ <;> simp
        rw [entriesOf_pieces, harray]
        simp only [List.filter_append]
        rw [List.filter_eq_nil_iff.mpr fun e he => by simpa using hlt e he,
          List.filter_eq_nil_iff.mpr fun e he => by simpa using hbelow e he,
          List.filter_eq_self.mpr fun e he => by simpa using hmidge e he,
          List.filter_eq_self.mpr fun e he => by simpa using (habove e he).le,
          List.filter_eq_self.mpr fun e he => by simpa using (hgt e he).le]
        rfl
      have hnonempty : (entriesOf (before ++ leaf :: after)).isEmpty =
          false := by
        rw [List.isEmpty_eq_false_iff]
        exact List.length_pos_iff.mp (by omega)
      rw [hfilter, hnonempty] at hQ
      have hlength : (entriesOf (before ++ leaf :: after)).length =
          (entriesOf before ++ leaf.array ++ entriesOf after).length := by
        rw [entriesOf_pieces]
      rw [List.length_append, List.length_append, harray, List.append_assoc,
        List.length_append] at hlength
      refine Program.ends_bind
        (does_getLeaf (Multiset.mem_cons_self _ _) hpage ?_)
      refine Program.ends_bind (does_orStop hindex ?_)
      cases hrest : mid ++ above with
      | nil =>
          obtain ⟨fuel, rfl⟩ := Nat.exists_eq_succ_of_ne_zero
            (Nat.zero_lt_of_lt hfuel).ne'
          rw [hrest, List.nil_append] at hQ
          rw [if_pos rfl, BPlusTreeNTS.getValuesLoop]
          refine Program.ends_bind
            (does_getLeaf (Multiset.mem_cons_self _ _) hpage ?_)
          rw [if_pos rfl]
          apply Program.ends_bind
          refine hshape.does_nextLeaf hready hroom p ?_ ?_
          · rintro rfl
            exact Program.ends_pure (by simpa [accepted, entriesOf] using hQ)
          · rintro next after' rfl
            obtain ⟨item, rest, harray'⟩ := List.exists_cons_of_ne_nil
              (hshape.ne_nil hmax next (by simp))
            have hshape' : Shape tree store ((before ++ [leaf]) ++ next ::
                after') rows := by
              rw [List.append_assoc]
              exact hshape
            rw [entriesOf_cons, harray'] at hQ hlength
            have harray'' : next.array = [] ++ item :: rest := harray'
            have hfuel' : rest.length + (entriesOf after').length < fuel := by
              simp only [List.length_append, List.length_cons] at hlength
              omega
            exact hshape'.does_getValuesLoop hready hmax harray'' hfuel' hroom
              hQ
      | cons item rest =>
          rw [if_neg (List.cons_ne_nil _ _)]
          rw [hrest] at hQ hlength
          refine hshape.does_getValuesLoop hready hmax ?_ ?_ hroom hQ
          · rw [harray, List.append_assoc, hrest]
          · rw [List.length_cons] at hlength
            omega

end Scan

end TicketSystem.Database
