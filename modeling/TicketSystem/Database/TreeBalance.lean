import TicketSystem.Database.TreeSearch

/-!
# Merging and balancing two siblings

When a node has lost an item it is merged with a node beside it, or an item
moves over from there.  Both give the children that change places another
parent, and the separating key in the common parent goes or is replaced.
-/

namespace TicketSystem.Database

open TicketSystem.Support

variable {K V : Type}

variable {frames : ℕ} {store : PageStore (PageData K V)}
  {tree : BPlusTreeNTS K}

/-! ## What becomes of two siblings -/

namespace Node

/-- `x'` has the items of `x` and, behind them, those of `y`; `key` separated
them. -/
inductive Merge (key : K) : Node K V → Node K V → Node K V → Prop
  | leaf (x y : Leaf K V) :
      Merge key (leaf x) (leaf y)
        (leaf
          { x with
            nextPageId := y.nextPageId
            array := x.array ++ y.array })
  | branch (x y : Branch K) (item : K × PageId) (items : List (K × PageId))
      (hy : y.array = item :: items) :
      Merge key (branch x) (branch y)
        (branch (x.withArray (x.array ++ (key, item.2) :: items)))

/-- The first item of `y` became the last one of `x`; `key'` separates them
now. -/
inductive ShiftLeft (key : K) :
    Node K V → Node K V → Node K V → Node K V → K → Prop
  | leaf (x y : Leaf K V) (item next : K × V) (items : List (K × V))
      (hy : y.array = item :: next :: items) :
      ShiftLeft key (leaf x) (leaf y)
        (leaf { x with array := x.array ++ [item] })
        (leaf { y with low := next.1, array := next :: items }) next.1
  | branch (x y : Branch K) (item next : K × PageId)
      (items : List (K × PageId)) (hy : y.array = item :: next :: items) :
      ShiftLeft key (branch x) (branch y)
        (branch (x.withArray (x.array ++ [(key, item.2)])))
        (branch { y with low := next.1, array := next :: items }) next.1

/-- The last item of `x` became the first one of `y`. -/
inductive ShiftRight (key : K) :
    Node K V → Node K V → Node K V → Node K V → K → Prop
  | leaf (x y : Leaf K V) (items : List (K × V)) (item : K × V)
      (hx : x.array = items ++ [item]) :
      ShiftRight key (leaf x) (leaf y) (leaf { x with array := items })
        (leaf { y with low := item.1, array := item :: y.array }) item.1
  | branch (x y : Branch K) (items : List (K × PageId)) (item : K × PageId)
      (first : K × PageId) (rest : List (K × PageId))
      (hx : x.array = items ++ [item]) (hy : y.array = first :: rest) :
      ShiftRight key (branch x) (branch y) (branch (x.withArray items))
        (branch
          { y with
            low := item.1
            array := item :: (key, first.2) :: rest }) item.1

variable {x y x' y' : Node K V} {key key' : K}

theorem Merge.low_eq (h : Merge key x y x') : x'.low = x.low := by
  cases h <;> rfl

theorem Merge.pageId_eq (h : Merge key x y x') : x'.pageId = x.pageId := by
  cases h <;> rfl

theorem Merge.isLeaf_eq (h : Merge key x y x') : x'.isLeaf = x.isLeaf := by
  cases h <;> rfl

theorem Merge.size_eq (h : Merge key x y x') :
    x'.size = x.size + y.size := by
  cases h with
  | leaf x y => simp [size]
  | branch x y item items hy => simp [size, hy]

/-- The children of both are children of the one that is left. -/
theorem Merge.refs_eq (h : Merge key x y x') (hlow : y.low = key)
    (hsize : 0 < x.size) :
    x'.refs = x.refs ++ y.refs.map (Ref.setParentPageId x.pageId) := by
  cases h with
  | leaf x y => rfl
  | branch x y item items hy =>
      have hne : x.array ≠ [] := List.length_pos_iff.mp hsize
      have hlow' : y.low = key := hlow
      simp [Branch.refs, refsOf_append, refsOf_cons, hne, hy, hlow',
        Ref.setParentPageId, Ref.ofItem, Function.comp_def]

theorem ShiftLeft.size_eq (h : ShiftLeft key x y x' y' key') :
    x'.size = x.size + 1 ∧ y'.size + 1 = y.size := by
  cases h with
  | leaf x y item next items hy => simp [size, hy]
  | branch x y item next items hy => simp [size, hy]

theorem ShiftLeft.ids_eq (h : ShiftLeft key x y x' y' key') :
    x'.low = x.low ∧ x'.pageId = x.pageId ∧ y'.low = key' ∧
      y'.pageId = y.pageId := by
  cases h <;> exact ⟨rfl, rfl, rfl, rfl⟩

theorem ShiftLeft.isLeaf_eq (h : ShiftLeft key x y x' y' key') :
    x'.isLeaf = x.isLeaf ∧ y'.isLeaf = y.isLeaf := by
  cases h <;> exact ⟨rfl, rfl⟩

theorem ShiftLeft.refs_eq (h : ShiftLeft key x y x' y' key')
    (hlow : y.low = key) (hsize : 0 < x.size) :
    x'.refs ++ y'.refs = x.refs ++
      ((y.refs.take 1).map (Ref.setParentPageId x.pageId) ++
        y.refs.drop 1) := by
  cases h with
  | leaf x y item next items hy => rfl
  | branch x y item next items hy =>
      have hne : x.array ≠ [] := List.length_pos_iff.mp hsize
      have hlow' : y.low = key := hlow
      simp [Branch.refs, refsOf_append, refsOf_cons, hne, hy, hlow',
        Ref.setParentPageId, Ref.ofItem]

theorem ShiftRight.size_eq (h : ShiftRight key x y x' y' key') :
    x'.size + 1 = x.size ∧ y'.size = y.size + 1 := by
  cases h with
  | leaf x y items item hx => simp [size, hx]
  | branch x y items item first rest hx hy => simp [size, hx, hy]

theorem ShiftRight.ids_eq (h : ShiftRight key x y x' y' key') :
    x'.low = x.low ∧ x'.pageId = x.pageId ∧ y'.low = key' ∧
      y'.pageId = y.pageId := by
  cases h <;> exact ⟨rfl, rfl, rfl, rfl⟩

theorem ShiftRight.isLeaf_eq (h : ShiftRight key x y x' y' key') :
    x'.isLeaf = x.isLeaf ∧ y'.isLeaf = y.isLeaf := by
  cases h <;> exact ⟨rfl, rfl⟩

theorem ShiftRight.refs_eq (h : ShiftRight key x y x' y' key')
    (hlow : y.low = key) (hsize : 2 ≤ x.size) :
    x'.refs ++ y'.refs = x.refs.take (x.refs.length - 1) ++
      ((x.refs.drop (x.refs.length - 1)).map
        (Ref.setParentPageId y.pageId) ++ y.refs) := by
  cases h with
  | leaf x y items item hx => rfl
  | branch x y items item first rest hx hy =>
      have hne : items ≠ [] := by
        rintro rfl
        simp [size, hx] at hsize
      have hlow' : y.low = key := hlow
      simp [Branch.refs, hx, refsOf_append, refsOf_cons, hne, hy, hlow',
        Ref.setParentPageId, Ref.ofItem]

theorem exists_merge (hkind : x.isLeaf = y.isLeaf) (hy : 0 < y.size)
    (key : K) : ∃ x', Merge key x y x' := by
  cases x with
  | leaf x =>
      cases y with
      | leaf y => exact ⟨_, .leaf x y⟩
      | branch y => cases hkind
  | branch x =>
      cases y with
      | leaf y => cases hkind
      | branch y =>
          obtain ⟨item, items, harray⟩ :=
            List.exists_cons_of_length_pos hy
          exact ⟨_, .branch x y item items harray⟩

theorem exists_shiftLeft (hkind : x.isLeaf = y.isLeaf) (hy : 2 ≤ y.size)
    (key : K) : ∃ x' y' key', ShiftLeft key x y x' y' key' := by
  cases x with
  | leaf x =>
      cases y with
      | leaf y =>
          obtain ⟨item, rest, harray⟩ := List.exists_cons_of_length_pos
            (Nat.lt_of_lt_of_le Nat.zero_lt_two hy)
          have hrest : 0 < rest.length := by
            rw [size, harray, List.length_cons] at hy
            omega
          obtain ⟨next, items, rfl⟩ := List.exists_cons_of_length_pos hrest
          exact ⟨_, _, _, .leaf x y item next items harray⟩
      | branch y => cases hkind
  | branch x =>
      cases y with
      | leaf y => cases hkind
      | branch y =>
          obtain ⟨item, rest, harray⟩ := List.exists_cons_of_length_pos
            (Nat.lt_of_lt_of_le Nat.zero_lt_two hy)
          have hrest : 0 < rest.length := by
            rw [size, harray, List.length_cons] at hy
            omega
          obtain ⟨next, items, rfl⟩ := List.exists_cons_of_length_pos hrest
          exact ⟨_, _, _, .branch x y item next items harray⟩

theorem exists_shiftRight (hkind : x.isLeaf = y.isLeaf) (hx : 0 < x.size)
    (hy : 0 < y.size) (key : K) :
    ∃ x' y' key', ShiftRight key x y x' y' key' := by
  cases x with
  | leaf x =>
      cases y with
      | leaf y =>
          have hne : x.array ≠ [] := List.length_pos_iff.mp hx
          exact ⟨_, _, _, .leaf x y x.array.dropLast (x.array.getLast hne)
            (List.dropLast_append_getLast hne).symm⟩
      | branch y => cases hkind
  | branch x =>
      cases y with
      | leaf y => cases hkind
      | branch y =>
          have hne : x.array ≠ [] := List.length_pos_iff.mp hx
          obtain ⟨first, rest, harray⟩ := List.exists_cons_of_length_pos hy
          exact ⟨_, _, _, .branch x y x.array.dropLast (x.array.getLast hne)
            first rest (List.dropLast_append_getLast hne).symm harray⟩

end Node

/-- Two pages were written, and the pages `moved` got another parent. -/
structure Moves (store : PageStore (PageData K V)) (left right : PageId)
    (leftData rightData : PageData K V) (moved : List PageId)
    (parentPageId : PageId) (store' : PageStore (PageData K V)) : Prop where
  pins_eq : store'.pins = store.pins
  nextPageId_eq : store'.nextPageId = store.nextPageId
  owed_subset : store'.owed ⊆ insert left (insert right store.owed)
  left_eq : store'.page left = some leftData
  right_eq : store'.page right = some rightData
  moved_eq : ∀ pageId ∈ moved, store'.page pageId =
    (store.page pageId).map (PageData.setParentPageId parentPageId)
  other_eq : ∀ pageId, pageId ≠ left → pageId ≠ right → pageId ∉ moved →
    store'.page pageId = store.page pageId

theorem Moves.of_page {left right : PageId}
    {leftData rightData : PageData K V} {moved : List PageId}
    {parentPageId : PageId} {store' : PageStore (PageData K V)}
    (hpins : store'.pins = store.pins)
    (hnext : store'.nextPageId = store.nextPageId)
    (howed : store'.owed ⊆ insert left (insert right store.owed))
    (hpage : store'.page = Function.update (Function.update
      (store.setParents parentPageId moved).page left (some leftData)) right
        (some rightData))
    (hne : left ≠ right) (hleft : left ∉ moved) (hright : right ∉ moved) :
    Moves store left right leftData rightData moved parentPageId store' where
  pins_eq := hpins
  nextPageId_eq := hnext
  owed_subset := howed
  left_eq := by rw [hpage, Function.update_of_ne hne, Function.update_self]
  right_eq := by rw [hpage, Function.update_self]
  moved_eq := by
    intro pageId hmem
    have hne₁ : pageId ≠ left := fun heq => hleft (heq ▸ hmem)
    have hne₂ : pageId ≠ right := fun heq => hright (heq ▸ hmem)
    rw [hpage, Function.update_of_ne hne₂, Function.update_of_ne hne₁,
      PageStore.setParents_page_of_mem _ _ _ hmem]
  other_eq := by
    intro pageId hne₁ hne₂ hmem
    rw [hpage, Function.update_of_ne hne₂, Function.update_of_ne hne₁,
      PageStore.setParents_page_of_notMem _ _ _ hmem]

/-- A pin does not matter to the pages. -/
theorem Moves.of_pin {left right pinned : PageId}
    {leftData rightData : PageData K V} {moved : List PageId}
    {parentPageId : PageId} {store' : PageStore (PageData K V)}
    (h : Moves (store.pin pinned) left right leftData rightData moved
      parentPageId store') :
    Moves store left right leftData rightData moved parentPageId
      (store'.unpin pinned false) where
  pins_eq := by
    rw [PageStore.unpin_pins, h.pins_eq, PageStore.pin_pins,
      Multiset.erase_cons_head]
  nextPageId_eq := h.nextPageId_eq
  owed_subset := h.owed_subset
  left_eq := h.left_eq
  right_eq := h.right_eq
  moved_eq := h.moved_eq
  other_eq := h.other_eq

theorem Moves.isSome {left right : PageId} {leftData rightData : PageData K V}
    {moved : List PageId} {parentPageId : PageId}
    {store' : PageStore (PageData K V)}
    (h : Moves store left right leftData rightData moved parentPageId store')
    (hleft : (store.page left).isSome) (hright : (store.page right).isSome)
    {pageId : PageId} (hlive : (store'.page pageId).isSome) :
    (store.page pageId).isSome := by
  by_cases hl : pageId = left
  · exact hl ▸ hleft
  · by_cases hr : pageId = right
    · exact hr ▸ hright
    · by_cases hmem : pageId ∈ moved
      · rwa [h.moved_eq pageId hmem, Option.isSome_map] at hlive
      · rwa [h.other_eq pageId hl hr hmem] at hlive

/-! ## Merging -/

section Merge

variable {x y x' : Node K V} {key : K} {parentPageId : PageId}
  {Q : Unit → PageStore (PageData K V) → Prop}

theorem does_mergeInto (hmerge : Node.Merge key x y x')
    (hx : store.page x.pageId = some (x.data tree parentPageId))
    (hy : store.page y.pageId = some (y.data tree parentPageId))
    (hxin : x.pageId ∈ store.pins) (hyin : y.pageId ∈ store.pins)
    (hne : x.pageId ≠ y.pageId)
    (hlive : ∀ ref ∈ y.refs, (store.page ref.pageId).isSome)
    (hxchild : x.pageId ∉ y.refs.map Ref.pageId)
    (hychild : y.pageId ∉ y.refs.map Ref.pageId)
    (hsize : x.size + y.size ≤ x.maxSize tree)
    (hroom : store.pins.toFinset.card < frames)
    (hQ : ∀ store' data node, data.node = some node →
      node.pageId = y.pageId →
      Moves store x.pageId y.pageId (x'.data tree parentPageId) data
        (y.refs.map Ref.pageId) x.pageId store' → Q () store') :
    Does frames (BPlusTreeNTS.mergeInto y.pageId x.pageId key) store Q := by
  cases hmerge with
  | leaf x y =>
      refine Program.ends_bind (does_getData hyin hy ?_)
      refine Program.ends_bind (does_getLeaf hxin hx ?_)
      refine Program.ends_bind (does_setData hxin (does_setData hyin ?_))
      refine hQ _ (.leaf ((y.page tree parentPageId).setSize 0)) _ rfl rfl ?_
      apply Moves.of_page
      · rfl
      · rfl
      · intro pageId
        simp
        tauto
      · simp [LeafPage.copyNFrom, Leaf.page, Node.data]
      · exact hne
      · exact hxchild
      · exact hychild
  | branch x y item items harray =>
      have hids : (Node.branch y : Node K V).refs.map Ref.pageId =
          y.array.map Prod.snd := pageId_mem_refsOf
      rw [hids] at hxchild hychild hQ
      refine Program.ends_bind (does_getData hyin hy ?_)
      refine Program.ends_bind (does_getInternal hyin hy ?_)
      refine Program.ends_bind (does_getInternal hxin hx ?_)
      rw [if_neg (by
        simp only [Branch.size_page, Branch.maxSize_page]
        simpa [Node.size, Node.maxSize] using hsize)]
      refine Program.ends_bind (does_setParents ?_ hroom ?_)
      · intro child hchild
        have hchild' : child ∈ y.refs.map Ref.pageId := by
          rw [Branch.refs, pageId_mem_refsOf]
          exact hchild
        obtain ⟨ref, href, rfl⟩ := List.mem_map.mp hchild'
        exact hlive ref href
      refine Program.ends_bind (does_setData hxin (does_setData hyin ?_))
      refine hQ _ (.internal ((y.page tree parentPageId).setSize 0)) _ rfl
        rfl ?_
      apply Moves.of_page
      · rfl
      · rfl
      · intro pageId
        simp
        tauto
      · have hmodify := modify_pieces x.array items item fun i => (key, i.2)
        simp [Branch.page, Branch.withArray, Node.data, harray,
          InternalPage.setKeyAt, InternalPage.size, hmodify]
      · exact hne
      · exact hxchild
      · exact hychild

end Merge

/-! ## Balancing -/

section Shift

variable {x y x' y' : Node K V} {key key' : K} {parentPageId : PageId}
  {Q : K → PageStore (PageData K V) → Prop}

theorem does_moveItem_left (hshift : Node.ShiftLeft key x y x' y' key')
    (hx : store.page x.pageId = some (x.data tree parentPageId))
    (hy : store.page y.pageId = some (y.data tree parentPageId))
    (hxin : x.pageId ∈ store.pins) (hyin : y.pageId ∈ store.pins)
    (hne : x.pageId ≠ y.pageId)
    (hlive : ∀ ref ∈ y.refs, (store.page ref.pageId).isSome)
    (hxchild : x.pageId ∉ (y.refs.take 1).map Ref.pageId)
    (hychild : y.pageId ∉ (y.refs.take 1).map Ref.pageId)
    (hroom : store.pins.toFinset.card < frames)
    (hQ : ∀ store', Moves store x.pageId y.pageId (x'.data tree parentPageId)
      (y'.data tree parentPageId) ((y.refs.take 1).map Ref.pageId) x.pageId
      store' → Q key' store') :
    Does frames (BPlusTreeNTS.moveItem y.pageId x.pageId 0 key) store Q := by
  cases hshift with
  | leaf x y item next items harray =>
      refine Program.ends_bind (does_getData hyin hy ?_)
      refine Program.ends_bind (does_getLeaf hxin hx ?_)
      have hmove : (y.page tree parentPageId).moveFirstToEndOf
          (x.page tree parentPageId) =
            some (Leaf.page tree parentPageId
              { y with low := next.1, array := next :: items },
              Leaf.page tree parentPageId
                { x with array := x.array ++ [item] }) := by
        simp [LeafPage.moveFirstToEndOf, Leaf.page, harray, LeafPage.remove,
          LeafPage.copyLastFrom]
      rw [if_pos rfl]
      refine Program.ends_bind (does_orStop hmove ?_)
      refine Program.ends_bind (does_setData hyin ?_)
      refine Program.ends_bind (does_setData hxin ?_)
      refine does_orStop (show _ = some next.1 from rfl) (hQ _ ?_)
      apply Moves.of_page
      · rfl
      · rfl
      · intro pageId
        simp
      · simp only [PageStore.write_page, PageStore.setParents_nil,
          Node.refs_leaf, List.take_nil, List.map_nil, Node.data]
        exact Function.update_comm hne.symm _ _ _
      · exact hne
      · exact hxchild
      · exact hychild
  | branch x y item next items harray =>
      have htake : ((Node.branch y : Node K V).refs.take 1).map Ref.pageId =
          [item.2] := by
        simp [Branch.refs, harray, refsOf]
      rw [htake] at hxchild hychild hQ
      have hne' : x.pageId ≠ y.pageId := hne
      have hxne : item.2 ≠ x.pageId := fun heq => hxchild (by simp [heq])
      have hyne : item.2 ≠ y.pageId := fun heq => hychild (by simp [heq])
      obtain ⟨data, hdata⟩ : ∃ data, store.page item.2 = some data := by
        apply Option.isSome_iff_exists.mp
        apply hlive ⟨y.low, item.2, y.pageId⟩
        simp [Branch.refs, harray, refsOf]
      refine Program.ends_bind (does_getData hyin hy ?_)
      simp only [if_true]
      refine Program.ends_bind ?_
      -- `MoveFirstToEndOf`
      refine Program.ends_bind (does_getInternal hyin hy ?_)
      refine Program.ends_bind (does_orStop
        (show _ = some item.2 by
          simp [InternalPage.valueAt, Branch.page, harray]) ?_)
      refine Program.ends_bind ?_
      -- `CopyLastFrom`
      refine Program.ends_bind (does_getInternal hxin hx ?_)
      refine Program.ends_bind (does_setData hxin ?_)
      refine does_setParent ((Function.update_of_ne hxne _ _).trans hdata)
        hroom ?_
      refine does_setData hyin ?_
      refine Program.ends_bind (does_getInternal hyin
        (Function.update_self _ _ _) ?_)
      refine does_orStop (show _ = some next.1 by
        simp [InternalPage.keyAt, InternalPage.remove, Branch.page, harray])
        (hQ _ ?_)
      constructor
      · rfl
      · rfl
      · intro pageId
        simp
        tauto
      · simp [Function.update_of_ne, hxne.symm, hne', Node.data, Branch.page,
          Branch.withArray]
      · simp [Node.data, Branch.page, InternalPage.remove, harray]
      · intro pageId hmem
        rw [List.mem_singleton.mp hmem]
        simp [Function.update_of_ne, hyne, hdata, Branch.page]
      · intro pageId hleft hright hmem
        simp at hleft hright hmem
        simp [Function.update_of_ne, hleft, hright, hmem]

theorem does_moveItem_right (hshift : Node.ShiftRight key x y x' y' key')
    (hx : store.page x.pageId = some (x.data tree parentPageId))
    (hy : store.page y.pageId = some (y.data tree parentPageId))
    (hxin : x.pageId ∈ store.pins) (hyin : y.pageId ∈ store.pins)
    (hne : x.pageId ≠ y.pageId)
    (hlive : ∀ ref ∈ x.refs, (store.page ref.pageId).isSome)
    (hxchild : x.pageId ∉
      (x.refs.drop (x.refs.length - 1)).map Ref.pageId)
    (hychild : y.pageId ∉
      (x.refs.drop (x.refs.length - 1)).map Ref.pageId)
    (hroom : store.pins.toFinset.card < frames)
    (hQ : ∀ store', Moves store x.pageId y.pageId (x'.data tree parentPageId)
      (y'.data tree parentPageId)
      ((x.refs.drop (x.refs.length - 1)).map Ref.pageId) y.pageId store' →
        Q key' store') :
    Does frames (BPlusTreeNTS.moveItem x.pageId y.pageId 1 key) store Q := by
  cases hshift with
  | leaf x y items item harray =>
      refine Program.ends_bind (does_getData hxin hx ?_)
      refine Program.ends_bind (does_getLeaf hyin hy ?_)
      have hmove : (x.page tree parentPageId).moveLastToFrontOf
          (y.page tree parentPageId) =
            some (Leaf.page tree parentPageId { x with array := items },
              Leaf.page tree parentPageId
                { y with low := item.1, array := item :: y.array }) := by
        simp [LeafPage.moveLastToFrontOf, Leaf.page, harray, LeafPage.setSize,
          LeafPage.copyFirstFrom, LeafPage.size]
      rw [if_neg one_ne_zero]
      refine Program.ends_bind (does_orStop hmove ?_)
      refine Program.ends_bind (does_setData hxin ?_)
      refine Program.ends_bind (does_setData hyin ?_)
      refine does_orStop (show _ = some item.1 from rfl) (hQ _ ?_)
      apply Moves.of_page
      · rfl
      · rfl
      · intro pageId
        simp
        tauto
      · simp only [PageStore.write_page, PageStore.setParents_nil,
          Node.refs_leaf, List.drop_nil, List.map_nil, Node.data]
      · exact hne
      · exact hxchild
      · exact hychild
  | branch x y items item first rest hx_array hy_array =>
      have hids : (Node.branch x : Node K V).refs.map Ref.pageId =
          items.map Prod.snd ++ [item.2] := by
        rw [Node.refs_branch, Branch.refs, pageId_mem_refsOf, hx_array,
          List.map_append]
        rfl
      have hdrop : ((Node.branch x : Node K V).refs.drop
          ((Node.branch x : Node K V).refs.length - 1)).map Ref.pageId =
            [item.2] := by
        rw [List.map_drop, hids, ← List.length_map Ref.pageId, hids]
        simp
      rw [hdrop] at hxchild hychild hQ
      have hne' : x.pageId ≠ y.pageId := hne
      have hxne : item.2 ≠ x.pageId := fun heq => hxchild (by simp [heq])
      have hyne : item.2 ≠ y.pageId := fun heq => hychild (by simp [heq])
      obtain ⟨data, hdata⟩ : ∃ data, store.page item.2 = some data := by
        have hmem : item.2 ∈ (Node.branch x : Node K V).refs.map
            Ref.pageId := by
          rw [hids]
          exact List.mem_append_right _ List.mem_cons_self
        obtain ⟨ref, href, heq⟩ := List.mem_map.mp hmem
        exact heq ▸ Option.isSome_iff_exists.mp (hlive ref href)
      refine Program.ends_bind (does_getData hxin hx ?_)
      simp only [one_ne_zero, if_false]
      refine Program.ends_bind ?_
      -- `MoveLastToFrontOf`
      refine Program.ends_bind (does_getInternal hyin hy ?_)
      refine Program.ends_bind (does_setData hyin ?_)
      refine Program.ends_bind (does_getInternal hxin
        ((Function.update_of_ne hne _ _).trans hx) ?_)
      refine Program.ends_bind (does_orStop
        (show _ = some item by simp [Branch.page, hx_array, InternalPage.size]) ?_)
      refine Program.ends_bind ?_
      -- `CopyFirstFrom`
      refine Program.ends_bind (does_getInternal hyin
        (Function.update_self _ _ _) ?_)
      refine Program.ends_bind (does_setData hyin ?_)
      refine does_setParent (((Function.update_of_ne hyne _ _).trans
        (Function.update_of_ne hyne _ _)).trans hdata) hroom ?_
      refine does_setData hxin ?_
      refine Program.ends_bind (does_getInternal hyin
        (show _ = some (PageData.internal (Branch.page tree parentPageId
          { y with low := item.1, array := item :: (key, first.2) :: rest }))
        by simp [Function.update_of_ne, hne'.symm, hyne.symm, Branch.page,
            InternalPage.setKeyAt, hy_array]) ?_)
      refine does_orStop (show _ = some item.1 by
        simp [InternalPage.keyAt, Branch.page]) (hQ _ ?_)
      constructor
      · rfl
      · rfl
      · intro pageId
        simp
        tauto
      · simp [Node.data, Branch.page, Branch.withArray, InternalPage.setSize,
          InternalPage.size, hx_array]
      · simp [Function.update_of_ne, hne'.symm, hyne.symm, Node.data,
          Branch.page, InternalPage.setKeyAt, hy_array]
      · intro pageId hmem
        rw [List.mem_singleton.mp hmem]
        simp [Function.update_of_ne, hxne, hdata, Branch.page,
          InternalPage.setKeyAt]
      · intro pageId hleft hright hmem
        simp at hleft hright hmem
        simp [Function.update_of_ne, hleft, hright, hmem]

/-- An item moves to `node` from its neighbor on the right, or on the left. -/
theorem does_moveItem {node neighbor : Node K V} {index : ℕ}
    (hshift : Node.ShiftLeft key x y x' y' key' ∧ index = 0 ∧ node = x ∧
      neighbor = y ∨ Node.ShiftRight key x y x' y' key' ∧ index = 1 ∧
        node = y ∧ neighbor = x)
    (hx : store.page x.pageId = some (x.data tree parentPageId))
    (hy : store.page y.pageId = some (y.data tree parentPageId))
    (hxin : x.pageId ∈ store.pins) (hyin : y.pageId ∈ store.pins)
    (hne : x.pageId ≠ y.pageId)
    (hlive : ∀ ref ∈ x.refs ++ y.refs, (store.page ref.pageId).isSome)
    (hxchild : x.pageId ∉ (x.refs ++ y.refs).map Ref.pageId)
    (hychild : y.pageId ∉ (x.refs ++ y.refs).map Ref.pageId)
    (hlow : y.low = key) (hxsize : 0 < x.size)
    (hsize : neighbor = x → 2 ≤ x.size)
    (hroom : store.pins.toFinset.card < frames)
    (hQ : ∀ store' refs₁ refs₂ refs₃ newParent,
      Moves store x.pageId y.pageId (x'.data tree parentPageId)
        (y'.data tree parentPageId) (refs₂.map Ref.pageId) newParent store' →
      x.refs ++ y.refs = refs₁ ++ (refs₂ ++ refs₃) →
      x'.refs ++ y'.refs = refs₁ ++
        (refs₂.map (Ref.setParentPageId newParent) ++ refs₃) →
      Q key' store') :
    Does frames (BPlusTreeNTS.moveItem neighbor.pageId node.pageId index key)
      store Q := by
  have hmap : ∀ {refs : List (Ref K)} {pageId},
      refs ⊆ x.refs ++ y.refs → pageId ∉ (x.refs ++ y.refs).map Ref.pageId →
        pageId ∉ refs.map Ref.pageId :=
    fun hsub hnot hmem => hnot (List.map_subset _ hsub hmem)
  have hright : y.refs.take 1 ⊆ x.refs ++ y.refs := fun _ href =>
    List.mem_append_right _ (List.mem_of_mem_take href)
  have hleft : x.refs.drop (x.refs.length - 1) ⊆ x.refs ++ y.refs :=
    fun _ href => List.mem_append_left _ (List.mem_of_mem_drop href)
  rcases hshift with ⟨hshift, rfl, rfl, rfl⟩ | ⟨hshift, rfl, rfl, rfl⟩
  · apply does_moveItem_left hshift hx hy hxin hyin hne
    · exact fun ref href => hlive ref (List.mem_append_right _ href)
    · exact hmap hright hxchild
    · exact hmap hright hychild
    · exact hroom
    · intro store' hmoves
      refine hQ store' _ _ _ _ hmoves ?_ (hshift.refs_eq hlow hxsize)
      rw [List.take_append_drop]
  · apply does_moveItem_right hshift hx hy hxin hyin hne
    · exact fun ref href => hlive ref (List.mem_append_left _ href)
    · exact hmap hleft hxchild
    · exact hmap hleft hychild
    · exact hroom
    · intro store' hmoves
      refine hQ store' _ _ _ _ hmoves ?_ (hshift.refs_eq hlow (hsize rfl))
      rw [← List.append_assoc, List.take_append_drop]

end Shift

/-! ## The level after a move -/

/-- Two nodes beside each other among the items of their parent. -/
structure Siblings (tree : BPlusTreeNTS K) (store : PageStore (PageData K V))
    (before : List (Node K V)) (x y : Node K V) (after : List (Node K V))
    (row₁ : List (Branch K)) (parent : Branch K) (row₂ : List (Branch K))
    (items₁ : List (K × PageId)) (left right : K × PageId)
    (items₂ : List (K × PageId)) : Prop where
  array_eq : parent.array = items₁ ++ left :: right :: items₂
  before_at : List.Forall₂ (Node.At tree store)
    (row₁.flatMap Branch.refs ++ refsOf parent.low parent.pageId items₁)
    before
  left_at : Node.At tree store
    ⟨if items₁ = [] then parent.low else left.1, left.2, parent.pageId⟩ x
  right_at : Node.At tree store (Ref.ofItem parent.pageId right) y
  after_at : List.Forall₂ (Node.At tree store)
    (items₂.map (Ref.ofItem parent.pageId) ++ row₂.flatMap Branch.refs) after

section Siblings

variable {before after : List (Node K V)} {x y : Node K V}
  {row₁ row₂ : List (Branch K)} {parent : Branch K}
  {rows : List (List (Branch K))} {items₁ items₂ : List (K × PageId)}
  {left right : K × PageId} {grandparent : PageId}

theorem Siblings.keyAt_eq
    (h : Siblings tree store before x y after row₁ parent row₂ items₁ left
      right items₂) :
    (parent.page tree grandparent).keyAt (items₁.length + 1) =
      some right.1 := by
  have hget := getElem?_pieces (items₁ ++ [left]) items₂ right
  rw [List.length_append, List.append_assoc] at hget
  simp only [InternalPage.keyAt, Branch.page, h.array_eq]
  exact congrArg (Option.map Prod.fst) hget

theorem Siblings.valueAt_eq
    (h : Siblings tree store before x y after row₁ parent row₂ items₁ left
      right items₂) :
    (parent.page tree grandparent).valueAt items₁.length = some x.pageId ∧
      (parent.page tree grandparent).valueAt (items₁.length + 1) =
        some y.pageId := by
  have hleft := getElem?_pieces items₁ (right :: items₂) left
  have hright := getElem?_pieces (items₁ ++ [left]) items₂ right
  rw [List.length_append, List.append_assoc] at hright
  have hx : left.2 = x.pageId := h.left_at.pageId_eq
  have hy : right.2 = y.pageId := h.right_at.pageId_eq
  simp only [InternalPage.valueAt, Branch.page, h.array_eq]
  constructor
  · exact (congrArg (Option.map Prod.snd) hleft).trans (congrArg some hx)
  · exact (congrArg (Option.map Prod.snd) hright).trans (congrArg some hy)

theorem Siblings.remove_eq
    (h : Siblings tree store before x y after row₁ parent row₂ items₁ left
      right items₂) :
    (parent.page tree grandparent).remove (items₁.length + 1) =
      (parent.withArray (items₁ ++ left :: items₂)).page tree grandparent := by
  have herase := eraseIdx_pieces (items₁ ++ [left]) items₂ right
  rw [List.length_append, List.append_assoc, List.append_assoc] at herase
  simp only [InternalPage.remove, Branch.page, Branch.withArray, h.array_eq]
  exact congrArg (InternalPage.mk _ _ _) herase

theorem Siblings.setKeyAt_eq
    (h : Siblings tree store before x y after row₁ parent row₂ items₁ left
      right items₂) (key : K) :
    (parent.page tree grandparent).setKeyAt (items₁.length + 1) key =
      (parent.withArray (items₁ ++ left :: (key, right.2) :: items₂)).page
        tree grandparent := by
  have hmodify := modify_pieces (items₁ ++ [left]) items₂ right
    fun item => (key, item.2)
  rw [List.length_append, List.append_assoc, List.append_assoc] at hmodify
  simp only [InternalPage.setKeyAt, Branch.page, Branch.withArray, h.array_eq]
  exact congrArg (InternalPage.mk _ _ _) hmodify

/-- The indices at which the parent refers to both. -/
theorem Siblings.valueIndex_eq
    (h : Siblings tree store before x y after row₁ parent row₂ items₁ left
      right items₂)
    (hstands : Stands tree store (before ++ x :: y :: after) rows) :
    (parent.page tree grandparent).valueIndex x.pageId =
        some items₁.length ∧
      (parent.page tree grandparent).valueIndex y.pageId =
        some (items₁.length + 1) := by
  have hids := pageId_eq_of_at h.before_at
  rw [List.map_append, pageId_mem_refsOf] at hids
  have hmem : ∀ item ∈ items₁, item.2 ∈ before.map Node.pageId := by
    intro item hitem
    rw [← hids]
    exact List.mem_append_right _ (List.mem_map_of_mem hitem)
  have hnodup := (List.nodup_append.mp hstands.nodup).1
  rw [List.map_append, List.map_cons, List.map_cons,
    List.nodup_append] at hnodup
  obtain ⟨-, hxy, hbefore⟩ := hnodup
  have hx : left.2 = x.pageId := h.left_at.pageId_eq
  have hy : right.2 = y.pageId := h.right_at.pageId_eq
  have hne : left.2 ≠ y.pageId := by
    rw [hx]
    intro heq
    exact (List.nodup_cons.mp hxy).1 (heq ▸ List.mem_cons_self)
  constructor
  · rw [InternalPage.valueIndex, Branch.page, h.array_eq]
    apply findIdx?_pieces
    · intro item hitem
      simpa using hbefore _ (hmem item hitem) _ List.mem_cons_self
    · simpa using hx
  · have hindex := findIdx?_pieces (items₁ ++ [left]) items₂ right
      (fun item => item.2 = y.pageId) ?_ (by simpa using hy)
    · rw [List.length_append, List.append_assoc] at hindex
      rw [InternalPage.valueIndex, Branch.page, h.array_eq]
      exact hindex
    · intro item hitem
      rcases List.mem_append.mp hitem with hitem | hitem
      · simpa using hbefore _ (hmem item hitem) _
          (List.mem_cons_of_mem _ List.mem_cons_self)
      · rw [List.mem_singleton.mp hitem]
        simpa using hne

/-- A node has a sibling before it, or is its parent's first child and has one
behind it. -/
theorem Stands.exists_siblings {row : List (Branch K)} {node : Node K V}
    (h : Stands tree store (before ++ node :: after) (row :: rows))
    (hrow : ∀ branch ∈ row, 2 ≤ branch.array.length) :
    ∃ (before' : List (Node K V)) (x y : Node K V)
        (after' : List (Node K V)) (row₁ : List (Branch K))
        (parent : Branch K) (row₂ : List (Branch K))
        (items₁ : List (K × PageId)) (left right : K × PageId)
        (items₂ : List (K × PageId)) (neighbor : Node K V) (nodeId : ℕ),
      row = row₁ ++ parent :: row₂ ∧
        Siblings tree store before' x y after' row₁ parent row₂ items₁ left
          right items₂ ∧
        (before = before' ∧ node = x ∧ after = y :: after' ∧ neighbor = y ∧
            nodeId = 0 ∧ items₁ = [] ∨
          before = before' ++ [x] ∧ node = y ∧ after = after' ∧
            neighbor = x ∧ nodeId = items₁.length + 1) := by
  obtain ⟨row₁, parent, row₂, items₁, item, items₂, rfl, hplace⟩ :=
    h.exists_place
  rcases List.eq_nil_or_concat' items₁ with rfl | ⟨items, left, rfl⟩
  · have hlength := hrow parent (by simp)
    rw [hplace.array_eq] at hlength
    obtain ⟨right, items, rfl⟩ := List.exists_cons_of_length_pos
      (show 0 < items₂.length by simp at hlength; omega)
    obtain ⟨y, after', hright, hafter, rfl⟩ :=
      List.forall₂_cons_left_iff.mp hplace.after_at
    exact ⟨before, node, y, after', row₁, parent, row₂, [], item, right, items,
      y, 0, rfl, ⟨hplace.array_eq, hplace.before_at, hplace.node_at,
        hright, hafter⟩, Or.inl ⟨rfl, rfl, rfl, rfl, rfl, rfl⟩⟩
  · have hbefore := hplace.before_at
    rw [refsOf_append, ← List.append_assoc] at hbefore
    obtain ⟨before', last, rfl, hbefore', hlast⟩ :=
      forall₂_append_left hbefore
    obtain ⟨x, rest, hleft, hrest, rfl⟩ := List.forall₂_cons_left_iff.mp hlast
    obtain rfl := List.forall₂_nil_left_iff.mp hrest
    have hnode := hplace.node_at
    rw [if_neg (by simp)] at hnode
    refine ⟨before', x, node, after, row₁, parent, row₂, items, left, item,
      items₂, x, items.length + 1, rfl,
      ⟨?_, hbefore', hleft, hnode, hplace.after_at⟩,
      Or.inr ⟨rfl, rfl, rfl, rfl, rfl⟩⟩
    rw [hplace.array_eq]
    simp

end Siblings

/-- The nodes and the row above them have changed, below rows that have not. -/
structure Rebalanced (tree : BPlusTreeNTS K)
    (store : PageStore (PageData K V)) (below nodes : List (Node K V))
    (row : List (Branch K)) (rows : List (List (Branch K)))
    (touched : List PageId) (store' : PageStore (PageData K V)) : Prop where
  level : Level tree store' nodes (row.map Node.branch) rows
  below_at : List.Forall₂ (Node.At tree store') (nodes.flatMap Node.refs)
    below
  nextPageId_eq : store'.nextPageId = store.nextPageId
  isSome : ∀ pageId, (store'.page pageId).isSome →
    (store.page pageId).isSome
  other_eq : ∀ pageId, pageId ∉ touched →
    store'.page pageId = store.page pageId

section Level

variable {store₁ store₂ : PageStore (PageData K V)}
  {below before after nodes : List (Node K V)} {x y x' : Node K V}
  {row₁ row₂ : List (Branch K)} {parent : Branch K}
  {rows : List (List (Branch K))} {items₁ items items₂ : List (K × PageId)}
  {left right : K × PageId} {grandparent newParent : PageId}
  {data : PageData K V} {refs₁ refs₂ refs₃ : List (Ref K)}

/-- `x'` is there instead of `x`, and `nodes` and their items instead of `y` and
its item, where the children `refs₂` got another parent. -/
theorem Moves.level
    (hmoves : Moves store x.pageId y.pageId (x'.data tree parent.pageId) data
      (refs₂.map Ref.pageId) newParent store₁)
    (hlevel : Level tree store below (before ++ x :: y :: after)
      ((row₁ ++ parent :: row₂) :: rows))
    (hsiblings : Siblings tree store before x y after row₁ parent row₂ items₁
      left right items₂)
    (hparent : store.page parent.pageId =
      some (.internal (parent.page tree grandparent)))
    (hpage : store₂.page = Function.update store₁.page parent.pageId
      (some (.internal ((parent.withArray
        (items₁ ++ left :: (items ++ items₂))).page tree grandparent))))
    (hlow : x'.low = x.low) (hid : x'.pageId = x.pageId)
    (hnodes : items = [] ∧ nodes = [] ∨ ∃ (key : K) (y' : Node K V),
      items = [(key, right.2)] ∧ nodes = [y'] ∧ y'.low = key ∧
        y'.pageId = y.pageId ∧ data = y'.data tree parent.pageId)
    (hrefs : x.refs ++ y.refs = refs₁ ++ (refs₂ ++ refs₃))
    (hrefs' : x'.refs ++ nodes.flatMap Node.refs =
      refs₁ ++ (refs₂.map (Ref.setParentPageId newParent) ++ refs₃)) :
    Level tree store₂ (before ++ x' :: (nodes ++ after))
        ((row₁ ++ parent.withArray (items₁ ++ left :: (items ++ items₂)) ::
          row₂).map Node.branch) rows ∧
      List.Forall₂ (Node.At tree store₂)
        ((before ++ x' :: (nodes ++ after)).flatMap Node.refs) below := by
  have hbelow : List.Forall₂ (Node.At tree store)
      ((before.flatMap Node.refs ++ refs₁) ++
        (refs₂ ++ (refs₃ ++ after.flatMap Node.refs))) below := by
    have h := hlevel.below_at
    rw [List.flatMap_append, List.flatMap_cons, List.flatMap_cons,
      ← List.append_assoc x.refs, hrefs] at h
    simpa only [List.append_assoc] using h
  have hmoved : ∀ pageId ∈ refs₂.map Ref.pageId,
      pageId ∉ levelIds (before ++ x :: y :: after)
        ((row₁ ++ parent :: row₂) :: rows) := by
    intro pageId hmem
    obtain ⟨ref, href, rfl⟩ := List.mem_map.mp hmem
    obtain ⟨node, hnode, hat⟩ := exists_of_forall₂_left hbelow
      (List.mem_append_right _ (List.mem_append_left _ href))
    rw [hat.pageId_eq]
    exact hlevel.disjoint node hnode
  have hparentMem : parent.pageId ∈ levelIds (before ++ x :: y :: after)
      ((row₁ ++ parent :: row₂) :: rows) := by
    simp [levelIds, rowIds_cons]
  have hxmem : x.pageId ∈ levelIds (before ++ x :: y :: after)
      ((row₁ ++ parent :: row₂) :: rows) := by
    simp [levelIds]
  have hymem : y.pageId ∈ levelIds (before ++ x :: y :: after)
      ((row₁ ++ parent :: row₂) :: rows) := by
    simp [levelIds]
  have hsame : ∀ pageId, pageId ≠ x.pageId → pageId ≠ y.pageId →
      pageId ≠ parent.pageId → pageId ∉ refs₂.map Ref.pageId →
        store₂.page pageId = store.page pageId := by
    intro pageId hx hy hp hmem
    rw [hpage, Function.update_of_ne hp, hmoves.other_eq pageId hx hy hmem]
  have hparentRow : parent.pageId ∈
      rowIds ((row₁ ++ parent :: row₂) :: rows) := by
    simp [rowIds_cons]
  have hrow : ∀ pageId ∈ (before ++ x :: y :: after).map Node.pageId,
      pageId ∉ rowIds ((row₁ ++ parent :: row₂) :: rows) := fun _ hmem hrow =>
    (List.nodup_append.mp hlevel.stands.nodup).2.2 _ hmem _ hrow rfl
  have hxp : x.pageId ≠ parent.pageId := fun heq =>
    hrow x.pageId (by simp) (heq ▸ hparentRow)
  have hyp : y.pageId ≠ parent.pageId := fun heq =>
    hrow y.pageId (by simp) (heq ▸ hparentRow)
  have hids : ((before ++ x' :: (nodes ++ after)).map Node.pageId).Sublist
      ((before ++ x :: y :: after).map Node.pageId) := by
    rcases hnodes with ⟨-, rfl⟩ | ⟨_, y', -, rfl, -, hy', -⟩
    · simp [hid]
    · simp [hid, hy']
  have hupIds : ∀ pageId, pageId ∈ levelIds
      ((row₁ ++ parent.withArray (items₁ ++ left :: (items ++ items₂)) ::
        row₂).map (Node.branch : Branch K → Node K V)) rows →
      pageId ∈ rowIds ((row₁ ++ parent :: row₂) :: rows) := by
    intro pageId hmem
    simpa [levelIds, rowIds_cons, Function.comp_def] using hmem
  have hothers : ∀ node ∈ before ++ after,
      store₂.page node.pageId = store.page node.pageId := by
    intro node hnode
    have hmem : node.pageId ∈ (before ++ x :: y :: after).map
        Node.pageId := by
      apply List.mem_map_of_mem
      simp only [List.mem_append, List.mem_cons] at hnode ⊢
      tauto
    have hnodup := (List.nodup_append.mp hlevel.stands.nodup).1
    rw [List.map_append, List.map_cons, List.map_cons,
      List.nodup_append] at hnodup
    obtain ⟨-, hxy, hbefore⟩ := hnodup
    obtain ⟨hx, hy⟩ := List.nodup_cons.mp hxy
    have hne : node.pageId ≠ x.pageId ∧ node.pageId ≠ y.pageId := by
      rcases List.mem_append.mp hnode with hnode | hnode
      · have hmem' := List.mem_map_of_mem (f := Node.pageId) hnode
        exact ⟨hbefore _ hmem' _ (by simp), hbefore _ hmem' _ (by simp)⟩
      · have hmem' := List.mem_map_of_mem (f := Node.pageId) hnode
        constructor
        · exact fun heq => hx (heq ▸ List.mem_cons_of_mem _ hmem')
        · exact fun heq => (List.nodup_cons.mp hy).1 (heq ▸ hmem')
    apply hsame _ hne.1 hne.2
    · exact fun heq => hrow _ hmem (heq ▸ hparentRow)
    · exact fun hmem' => hmoved _ hmem' (List.mem_append_left _ hmem)
  constructor
  · constructor
    · rw [List.map_append, List.map_cons]
      have hup := hlevel.stands.branches
      rw [List.map_append, List.map_cons] at hup
      refine hup.update rfl rfl ?_ ?_
      · intro parentPageId hpage'
        have heq := Option.some.inj (hparent.symm.trans hpage')
        obtain rfl : grandparent = parentPageId :=
          congrArg InternalPage.parentPageId (PageData.internal.inj heq)
        rw [hpage]
        exact Function.update_self _ _ _
      · intro pageId hmem hne
        have hmem' : pageId ∈ rowIds ((row₁ ++ parent :: row₂) :: rows) := by
          simpa [levelIds, rowIds_cons, Function.comp_def] using hmem
        apply hsame
        · rintro rfl
          exact hrow _ (by simp) hmem'
        · rintro rfl
          exact hrow _ (by simp) hmem'
        · exact hne
        · intro hmem''
          exact hmoved _ hmem'' (List.mem_append_right _ hmem')
    · have hrowRefs : (row₁ ++ parent.withArray
          (items₁ ++ left :: (items ++ items₂)) :: row₂).flatMap Branch.refs =
          (row₁.flatMap Branch.refs ++
            refsOf parent.low parent.pageId items₁) ++
            (⟨if items₁ = [] then parent.low else left.1, left.2,
              parent.pageId⟩ ::
              (items.map (Ref.ofItem parent.pageId) ++
                (items₂.map (Ref.ofItem parent.pageId) ++
                  row₂.flatMap Branch.refs))) := by
        simp [Branch.refs, refsOf_append]
      rw [flatMap_refs_branch, hrowRefs]
      refine List.rel_append (forall₂_at_congr hsiblings.before_at ?_)
        (.cons ⟨?_, ?_, ?_⟩ (List.rel_append ?_
          (forall₂_at_congr hsiblings.after_at ?_)))
      · exact fun node hnode => hothers node (List.mem_append_left _ hnode)
      · rw [hlow]
        exact hsiblings.left_at.low_eq
      · rw [hid]
        exact hsiblings.left_at.pageId_eq
      · rw [hid, hpage, Function.update_of_ne hxp]
        exact hmoves.left_eq
      · rcases hnodes with ⟨rfl, rfl⟩ | ⟨key, y', rfl, rfl, hlow', hy', rfl⟩
        · exact .nil
        · refine .cons ⟨hlow'.symm, ?_, ?_⟩ .nil
          · rw [hy']
            exact hsiblings.right_at.pageId_eq
          · rw [hy', hpage, Function.update_of_ne hyp]
            exact hmoves.right_eq
      · exact fun node hnode => hothers node (List.mem_append_right _ hnode)
    · exact (List.nodup_append.mp hlevel.stands.nodup).1.sublist hids
    · intro node hnode hmem
      exact hrow _ (hids.subset (List.mem_map_of_mem hnode))
        (hupIds _ hmem)
    · intro node hnode heq
      apply hlevel.stands.header
      rw [← heq]
      exact List.mem_append_left _
        (hids.subset (List.mem_map_of_mem hnode))
  · rw [List.flatMap_append, List.flatMap_cons, List.flatMap_append,
      ← List.append_assoc x'.refs, hrefs']
    simp only [List.append_assoc]
    rw [← List.append_assoc]
    refine forall₂_at_move _ hbelow hlevel.below_nodup ?_ ?_
    · intro pageId hmem
      rw [hpage, Function.update_of_ne, hmoves.moved_eq pageId hmem]
      rintro rfl
      exact hmoved _ hmem hparentMem
    · intro node hnode hmem
      have hdisjoint := hlevel.disjoint node hnode
      apply hsame
      · exact fun heq => hdisjoint (heq ▸ hxmem)
      · exact fun heq => hdisjoint (heq ▸ hymem)
      · exact fun heq => hdisjoint (heq ▸ hparentMem)
      · exact hmem

theorem Moves.rebalanced
    (hmoves : Moves store x.pageId y.pageId (x'.data tree parent.pageId) data
      (refs₂.map Ref.pageId) newParent store₁)
    (hlevel : Level tree store below (before ++ x :: y :: after)
      ((row₁ ++ parent :: row₂) :: rows))
    (hsiblings : Siblings tree store before x y after row₁ parent row₂ items₁
      left right items₂)
    (hparent : store.page parent.pageId =
      some (.internal (parent.page tree grandparent)))
    (hpage : store₂.page = Function.update store₁.page parent.pageId
      (some (.internal ((parent.withArray
        (items₁ ++ left :: (items ++ items₂))).page tree grandparent))))
    (hnext : store₂.nextPageId = store₁.nextPageId)
    (hlow : x'.low = x.low) (hid : x'.pageId = x.pageId)
    (hnodes : items = [] ∧ nodes = [] ∨ ∃ (key : K) (y' : Node K V),
      items = [(key, right.2)] ∧ nodes = [y'] ∧ y'.low = key ∧
        y'.pageId = y.pageId ∧ data = y'.data tree parent.pageId)
    (hrefs : x.refs ++ y.refs = refs₁ ++ (refs₂ ++ refs₃))
    (hrefs' : x'.refs ++ nodes.flatMap Node.refs =
      refs₁ ++ (refs₂.map (Ref.setParentPageId newParent) ++ refs₃)) :
    Rebalanced tree store below (before ++ x' :: (nodes ++ after))
      (row₁ ++ parent.withArray (items₁ ++ left :: (items ++ items₂)) :: row₂)
      rows (below.map Node.pageId ++ levelIds (before ++ x :: y :: after)
        ((row₁ ++ parent :: row₂) :: rows)) store₂ := by
  obtain ⟨hlevel', hbelow'⟩ := hmoves.level hlevel hsiblings hparent hpage
    hlow hid hnodes hrefs hrefs'
  refine ⟨hlevel', hbelow', hnext.trans hmoves.nextPageId_eq, ?_, ?_⟩
  · intro pageId hlive
    by_cases hp : pageId = parent.pageId
    · rw [hp, hparent]
      rfl
    · rw [hpage, Function.update_of_ne hp] at hlive
      refine hmoves.isSome ?_ ?_ hlive
      · exact hlevel.stands.isSome (by simp [levelIds])
      · exact hlevel.stands.isSome (by simp [levelIds])
  · intro pageId hout
    rw [List.mem_append, not_or] at hout
    rw [hpage, Function.update_of_ne, hmoves.other_eq]
    · rintro rfl
      exact hout.2 (by simp [levelIds])
    · rintro rfl
      exact hout.2 (by simp [levelIds])
    · intro hmem
      have hmem' : pageId ∈ (x.refs ++ y.refs).map Ref.pageId := by
        rw [hrefs, List.map_append, List.map_append]
        exact List.mem_append_right _ (List.mem_append_left _ hmem)
      obtain ⟨ref, href, rfl⟩ := List.mem_map.mp hmem'
      obtain ⟨child, hchild, hat⟩ : ∃ child ∈ below,
          Node.At tree store ref child := by
        rcases List.mem_append.mp href with href | href
        · exact hlevel.exists_below (by simp) href
        · exact hlevel.exists_below (by simp) href
      apply hout.1
      rw [hat.pageId_eq]
      exact List.mem_map_of_mem hchild
    · rintro rfl
      exact hout.2 (by simp [levelIds, rowIds_cons])

/-- `y` was merged into `x`. -/
theorem Moves.merged
    (hmerge : Node.Merge right.1 x y x')
    (hmoves : Moves store x.pageId y.pageId (x'.data tree parent.pageId) data
      (y.refs.map Ref.pageId) x.pageId store₁)
    (hlevel : Level tree store below (before ++ x :: y :: after)
      ((row₁ ++ parent :: row₂) :: rows))
    (hsiblings : Siblings tree store before x y after row₁ parent row₂ items₁
      left right items₂)
    (hparent : store.page parent.pageId =
      some (.internal (parent.page tree grandparent)))
    (hpage : store₂.page = Function.update store₁.page parent.pageId
      (some (.internal ((parent.withArray
        (items₁ ++ left :: items₂)).page tree grandparent))))
    (hnext : store₂.nextPageId = store₁.nextPageId) (hpos : 0 < x.size) :
    Rebalanced tree store below (before ++ x' :: after)
      (row₁ ++ parent.withArray (items₁ ++ left :: items₂) :: row₂)
      rows (below.map Node.pageId ++ levelIds (before ++ x :: y :: after)
        ((row₁ ++ parent :: row₂) :: rows)) store₂ := by
  have hlow : y.low = right.1 := hsiblings.right_at.low_eq.symm
  have hrefs : x.refs ++ y.refs = x.refs ++ (y.refs ++ []) := by
    rw [List.append_nil]
  have hrefs' : x'.refs ++ ([] : List (Node K V)).flatMap Node.refs =
      x.refs ++ (y.refs.map (Ref.setParentPageId x.pageId) ++ []) := by
    rw [hmerge.refs_eq hlow hpos, List.flatMap_nil, List.append_nil,
      List.append_nil]
  exact hmoves.rebalanced hlevel hsiblings hparent hpage hnext hmerge.low_eq
    hmerge.pageId_eq (Or.inl ⟨rfl, rfl⟩) hrefs hrefs'

/-- An item moved between `x` and `y`. -/
theorem Moves.shifted {y' : Node K V} {key : K}
    (hmoves : Moves store x.pageId y.pageId (x'.data tree parent.pageId)
      (y'.data tree parent.pageId) (refs₂.map Ref.pageId) newParent store₁)
    (hlevel : Level tree store below (before ++ x :: y :: after)
      ((row₁ ++ parent :: row₂) :: rows))
    (hsiblings : Siblings tree store before x y after row₁ parent row₂ items₁
      left right items₂)
    (hparent : store.page parent.pageId =
      some (.internal (parent.page tree grandparent)))
    (hpage : store₂.page = Function.update store₁.page parent.pageId
      (some (.internal ((parent.withArray
        (items₁ ++ left :: (key, right.2) :: items₂)).page tree
          grandparent))))
    (hnext : store₂.nextPageId = store₁.nextPageId)
    (hids : x'.low = x.low ∧ x'.pageId = x.pageId ∧ y'.low = key ∧
      y'.pageId = y.pageId)
    (hrefs : x.refs ++ y.refs = refs₁ ++ (refs₂ ++ refs₃))
    (hrefs' : x'.refs ++ y'.refs =
      refs₁ ++ (refs₂.map (Ref.setParentPageId newParent) ++ refs₃)) :
    Rebalanced tree store below (before ++ x' :: y' :: after)
      (row₁ ++ parent.withArray
        (items₁ ++ left :: (key, right.2) :: items₂) :: row₂)
      rows (below.map Node.pageId ++ levelIds (before ++ x :: y :: after)
        ((row₁ ++ parent :: row₂) :: rows)) store₂ := by
  have hrefs'' : x'.refs ++ [y'].flatMap Node.refs =
      refs₁ ++ (refs₂.map (Ref.setParentPageId newParent) ++ refs₃) := by
    rw [List.flatMap_singleton, hrefs']
  exact hmoves.rebalanced hlevel hsiblings hparent hpage hnext hids.1
    hids.2.1 (Or.inr ⟨key, y', rfl, rfl, hids.2.2.1, hids.2.2.2, rfl⟩) hrefs
    hrefs''

end Level

end TicketSystem.Database
