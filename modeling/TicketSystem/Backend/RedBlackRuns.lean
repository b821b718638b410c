import TicketSystem.Backend.RedBlackInsert
import TicketSystem.Backend.RedBlackRemove
import TicketSystem.Backend.RedBlackCopy
import TicketSystem.Backend.RedBlackIterator

/-!
# Runs of maps

A program declares maps `0, 1, …` and calls their functions.  What it sees are
lists ordered by their keys, and every map is a red-black tree.
-/

namespace TicketSystem.Backend

open TicketSystem.Support

variable {K V : Type} {lt : K → K → Bool} {es before after : List (K × V)}
  {e x : K × V} {key : K} {value : V}

/-! ## Ordered lists -/

namespace SortedEntries

/-- The keys beside an entry differ from its key. -/
theorem not_equal_of_ascending (hlt : StrictWeakOrder lt)
    (h : Ascending lt (before ++ e :: after))
    (hequal : RedBlackTree.equal lt e.1 key = true) :
    (∀ b ∈ before, RedBlackTree.equal lt b.1 key = false) ∧
      ∀ b ∈ after, RedBlackTree.equal lt b.1 key = false := by
  obtain ⟨-, hafter, hbefore⟩ := List.pairwise_append.mp h
  constructor
  · intro b hb
    exact equal_eq_false_of_lt
      (hlt.lt_of_lt_of_equal (hbefore b hb e List.mem_cons_self) hequal)
  · intro b hb
    rw [equal_comm]
    exact equal_eq_false_of_lt (hlt.lt_of_equal_of_lt
      (equal_comm e.1 key ▸ hequal) ((List.pairwise_cons.mp hafter).1 b hb))

theorem lookup_append (hbefore : ∀ b ∈ before,
      RedBlackTree.equal lt b.1 key = false) :
    lookup lt (before ++ after) key = lookup lt after key := by
  rw [lookup, List.find?_append, List.find?_eq_none.mpr]
  · rfl
  · intro b hb
    rw [hbefore b hb]
    exact Bool.false_ne_true

/-- The entry is found by its key. -/
theorem lookup_split (hlt : StrictWeakOrder lt)
    (h : Ascending lt (before ++ e :: after))
    (hequal : RedBlackTree.equal lt e.1 key = true) :
    lookup lt (before ++ e :: after) key = some e := by
  rw [lookup_append (not_equal_of_ascending hlt h hequal).1, lookup,
    List.find?_cons, hequal]

theorem exists_split (h : lookup lt es key = some e) :
    ∃ before after, es = before ++ e :: after ∧
      RedBlackTree.equal lt e.1 key = true := by
  obtain ⟨before, after, heq⟩ :=
    List.append_of_mem (List.mem_of_find?_eq_some h)
  have hfound := List.find?_some h
  exact ⟨before, after, heq, hfound⟩

theorem absent_of_lookup (h : lookup lt es key = none) :
    ∀ b ∈ es, RedBlackTree.equal lt b.1 key = false := by
  intro b hb
  have hb' := List.find?_eq_none.mp h b hb
  exact Bool.not_eq_true _ ▸ hb'

/-- A new key goes between the lesser and the greater ones. -/
theorem insert_split (hlt : StrictWeakOrder lt)
    (h : lookup lt (before ++ after) x.1 = none)
    (hbefore : ∀ b ∈ before, lt b.1 x.1 = true)
    (hafter : ∀ b ∈ after, lt x.1 b.1 = true) :
    insert lt (before ++ after) x = before ++ x :: after := by
  rw [insert, h, if_neg (by simp), List.filter_append, List.filter_append,
    List.filter_eq_self.mpr hbefore, List.filter_eq_self.mpr hafter,
    List.filter_eq_nil_iff.mpr, List.filter_eq_nil_iff.mpr, List.append_nil,
    List.nil_append]
  · intro b hb
    rw [hlt.asymm _ _ (hbefore b hb)]
    exact Bool.false_ne_true
  · intro b hb
    rw [hlt.asymm _ _ (hafter b hb)]
    exact Bool.false_ne_true

theorem insert_of_present (h : lookup lt es x.1 = some e) :
    insert lt es x = es := by
  rw [insert, h]
  exact if_pos rfl

theorem store_split (hlt : StrictWeakOrder lt)
    (h : Ascending lt (before ++ e :: after))
    (hequal : RedBlackTree.equal lt e.1 key = true) :
    store lt (before ++ e :: after) key value =
      before ++ (e.1, value) :: after := by
  obtain ⟨hbefore, hafter⟩ := not_equal_of_ascending hlt h hequal
  have hkeep : ∀ l : List (K × V),
      (∀ b ∈ l, RedBlackTree.equal lt b.1 key = false) →
        (l.map fun e => if RedBlackTree.equal lt e.1 key then (e.1, value)
          else e) = l := by
    intro l hl
    refine Eq.trans (List.map_congr_left fun b hb => ?_) (List.map_id l)
    rw [hl b hb]
    rfl
  rw [store, List.map_append, List.map_cons, hkeep _ hbefore, hkeep _ hafter,
    if_pos hequal]

theorem erase_split (hlt : StrictWeakOrder lt)
    (h : Ascending lt (before ++ e :: after))
    (hequal : RedBlackTree.equal lt e.1 key = true) :
    erase lt (before ++ e :: after) key = before ++ after := by
  obtain ⟨hbefore, hafter⟩ := not_equal_of_ascending hlt h hequal
  rw [erase, List.filter_append, List.filter_cons_of_neg (by simp [hequal]),
    List.filter_eq_self.mpr, List.filter_eq_self.mpr]
  · intro b hb
    rw [hafter b hb]
    rfl
  · intro b hb
    rw [hbefore b hb]
    rfl

end SortedEntries

/-! ## Search -/

/-- The way down leads to the node with the key. -/
theorem RedBlackTree.search_eq (hlt : StrictWeakOrder lt) {t : RBTree K V}
    (h : Ascending lt (entries t)) (key : K) :
    search lt key t =
      (t.cells.find? fun c => equal lt c.2.2.1 key).map fun c =>
        (c.1, c.2.2) := by
  induction t with
  | nil => rfl
  | node p a l r ihl ihr =>
      have hentries : entries (.node p a l r) =
          entries l ++ a.2 :: entries r := entries_join (s := .left)
      rw [hentries] at h
      obtain ⟨hl, hr, hbefore⟩ := List.pairwise_append.mp h
      obtain ⟨hafter, hr⟩ := List.pairwise_cons.mp hr
      have hnone : ∀ u : RBTree K V,
          (∀ b ∈ entries u, equal lt b.1 key = false) →
            (u.cells.find? fun c => equal lt c.2.2.1 key) = none := by
        intro u hu
        apply List.find?_eq_none.mpr
        intro c hc
        rw [hu c.2.2 (List.mem_map_of_mem hc)]
        exact Bool.false_ne_true
      rw [NodeTree.cells, List.find?_append, search]
      by_cases hequal : equal lt a.2.1 key = true
      · have hleft : ∀ b ∈ entries l, equal lt b.1 key = false := by
          intro b hb
          exact equal_eq_false_of_lt (hlt.lt_of_lt_of_equal
            (hbefore b hb a.2 List.mem_cons_self) hequal)
        rw [if_pos hequal, hnone l hleft, List.find?_cons, hequal]
        rfl
      rw [Bool.not_eq_true] at hequal
      rw [hequal, if_neg Bool.false_ne_true, List.find?_cons, hequal]
      by_cases hside : lt key a.2.1 = true
      · have hs : sideOf lt key a.2.1 = .left := if_pos hside
        have hright : ∀ b ∈ entries r, equal lt b.1 key = false := by
          intro b hb
          rw [equal_comm]
          exact equal_eq_false_of_lt (hlt.trans hside (hafter b hb))
        rw [hs, hnone r hright, Option.or_none]
        exact ihl hl
      · have hs : sideOf lt key a.2.1 = .right := if_neg hside
        have hgt : lt a.2.1 key = true := by
          rw [Bool.not_eq_true] at hside
          simpa [equal, hside] using hequal
        have hleft : ∀ b ∈ entries l, equal lt b.1 key = false := by
          intro b hb
          exact equal_eq_false_of_lt
            (hlt.trans (hbefore b hb a.2 List.mem_cons_self) hgt)
        rw [hs, hnone l hleft, Option.none_or]
        exact ihr hr

/-! ## One map -/

namespace Map

/-- The map is a red-black tree with the entries. -/
structure Stores (lt : K → K → Bool) (m : Map K V) (t : RBTree K V)
    (es : List (K × V)) : Prop where
  holds : m.mp.Holds t
  balanced : ∃ n, Balanced t .black n
  ends : RedBlackTree.EndsAt m.mp t
  entries_eq : entries t = es
  ascending : Ascending lt es
  len : m.mp.len = es.length

variable {m : Map K V} {t : RBTree K V} {this : ℕ} {c : ℕ × Color × K × V}

theorem Stores.new : Stores lt (new : Map K V) .nil [] where
  holds := ⟨trivial, List.nodup_nil, nofun, rfl⟩
  balanced := ⟨0, .nil⟩
  ends := ⟨rfl, rfl⟩
  entries_eq := rfl
  ascending := .nil
  len := rfl

/-- `find` finds what the list holds. -/
theorem Stores.find_cases (hlt : StrictWeakOrder lt) (h : Stores lt m t es)
    (key : K) :
    SortedEntries.lookup lt es key = none ∧ m.mp.find lt key = some none ∨
      ∃ c ∈ t.cells, RedBlackTree.equal lt c.2.2.1 key = true ∧
        SortedEntries.lookup lt es key = some c.2.2 ∧
          m.mp.find lt key = some (some c.1) := by
  have hfind : m.mp.find lt key =
      some ((RedBlackTree.search lt key t).map Prod.fst) := h.holds.find key
  have hasc : Ascending lt (entries t) := h.entries_eq ▸ h.ascending
  have hlookup : SortedEntries.lookup lt es key =
      (t.cells.find? fun c => RedBlackTree.equal lt c.2.2.1 key).map
        fun c => c.2.2 := by
    rw [← h.entries_eq, SortedEntries.lookup, entries, List.find?_map]
    rfl
  rw [RedBlackTree.search_eq hlt hasc key] at hfind
  cases hcell : t.cells.find? fun c => RedBlackTree.equal lt c.2.2.1 key with
  | none =>
      left
      rw [hlookup, hfind, hcell]
      exact ⟨rfl, rfl⟩
  | some c =>
      right
      have hequal := List.find?_some hcell
      rw [hlookup, hfind, hcell]
      exact ⟨c, List.mem_of_find?_eq_some hcell, hequal, rfl, rfl⟩

theorem Stores.find_absent (hlt : StrictWeakOrder lt) (h : Stores lt m t es)
    (habsent : SortedEntries.lookup lt es key = none) :
    m.mp.find lt key = some none := by
  rcases h.find_cases hlt key with ⟨-, hfind⟩ | ⟨c, -, -, hsome, -⟩
  · exact hfind
  · rw [habsent] at hsome
    cases hsome

theorem Stores.find_present (hlt : StrictWeakOrder lt) (h : Stores lt m t es)
    (hpresent : SortedEntries.lookup lt es key = some e) :
    ∃ c ∈ t.cells, c.2.2 = e ∧ RedBlackTree.equal lt e.1 key = true ∧
      m.mp.find lt key = some (some c.1) := by
  rcases h.find_cases hlt key with ⟨hnone, -⟩ | ⟨c, hc, hequal, hsome, hfind⟩
  · rw [hpresent] at hnone
    cases hnone
  · obtain rfl := Option.some.inj (hpresent.symm.trans hsome)
    exact ⟨c, hc, rfl, hequal, hfind⟩

/-- An iterator for every node. -/
theorem Stores.deref (h : Stores lt m t es) (hc : c ∈ t.cells) :
    m.deref ⟨.node c.1, this⟩ = some (.ok c.2.2) := by
  change (m.mp.memory.getData c.1).bind _ = _
  rw [h.holds.getData_of_cell hc]
  rfl

/-- A new key is inserted. -/
theorem Stores.insert (hlt : StrictWeakOrder lt) (this : ℕ)
    (h : Stores lt m t es)
    (habsent : SortedEntries.lookup lt es x.1 = none) :
    ∃ m' t' c, m.insert lt this x = some ((⟨.node c.1, this⟩, true), m') ∧
      Stores lt m' t' (SortedEntries.insert lt es x) ∧ c ∈ t'.cells ∧
        c.2.2 = x := by
  obtain ⟨n, hbalanced⟩ := h.balanced
  have hother : ∀ b ∈ entries t, RedBlackTree.equal lt b.1 x.1 = false := by
    rw [h.entries_eq]
    exact SortedEntries.absent_of_lookup habsent
  obtain ⟨tree', t', hinsert, hlen, hinserted⟩ := h.holds.insert hlt hbalanced
    (h.entries_eq ▸ h.ascending) hother
  obtain ⟨before, after, hes, hentries, hbefore, hafter⟩ :=
    hinserted.entries_eq
  rw [h.entries_eq] at hes
  have hsplit : SortedEntries.insert lt es x = before ++ x :: after := by
    rw [hes]
    exact SortedEntries.insert_split hlt (hes ▸ habsent) hbefore hafter
  have hstores : Stores lt ⟨tree'⟩ t' (SortedEntries.insert lt es x) := by
    refine ⟨hinserted.holds, hinserted.balanced, hinserted.ends,
      hentries.trans hsplit.symm, ?_, ?_⟩
    · have hasc := h.ascending
      rw [hes] at hasc
      obtain ⟨hb, ha, hba⟩ := List.pairwise_append.mp hasc
      rw [hsplit]
      refine List.pairwise_append.mpr
        ⟨hb, List.pairwise_cons.mpr ⟨hafter, ha⟩, fun b hb' d hd => ?_⟩
      rcases List.mem_cons.mp hd with rfl | hd
      · exact hbefore b hb'
      · exact hba b hb' d hd
    · rw [hlen, h.len, hsplit, hes]
      simp only [List.length_append, List.length_cons]
      push_cast
      ring
  have hlookup : SortedEntries.lookup lt (SortedEntries.insert lt es x) x.1 =
      some x := by
    have hasc := hstores.ascending
    rw [hsplit] at hasc ⊢
    exact SortedEntries.lookup_split hlt hasc (hlt.equal_self x.1)
  obtain ⟨c, hc, hx, -, hfind⟩ := hstores.find_present hlt hlookup
  refine ⟨⟨tree'⟩, t', c, ?_, hstores, hc, hx⟩
  change (m.mp.find lt x.1).bind _ = _
  rw [h.find_absent hlt habsent]
  change (m.mp.insert lt x).bind _ = _
  rw [hinsert]
  change (tree'.find lt x.1).bind _ = _
  rw [hfind]
  rfl

/-- A key that is there stays. -/
theorem Stores.insert_present (hlt : StrictWeakOrder lt) (this : ℕ)
    (h : Stores lt m t es)
    (hpresent : SortedEntries.lookup lt es x.1 = some e) :
    ∃ c ∈ t.cells, c.2.2 = e ∧
      m.insert lt this x = some ((⟨.node c.1, this⟩, false), m) := by
  obtain ⟨c, hc, he, -, hfind⟩ := h.find_present hlt hpresent
  refine ⟨c, hc, he, ?_⟩
  change (m.mp.find lt x.1).bind _ = _
  rw [hfind]
  rfl

/-- `operator[]` refers to the value of the key. -/
theorem Stores.subscript (hlt : StrictWeakOrder lt) (this : ℕ)
    (h : Stores lt m t es)
    (default : V) (key : K) :
    ∃ m' t' c, m.subscript lt default this key = some (c.1, m') ∧
      Stores lt m' t' (SortedEntries.insert lt es (key, default)) ∧
      c ∈ t'.cells ∧ RedBlackTree.equal lt c.2.2.1 key = true ∧
      c.2.2.2 =
        ((SortedEntries.lookup lt es key).map Prod.snd).getD default := by
  cases hlookup : SortedEntries.lookup lt es key with
  | none =>
      obtain ⟨m', t', c, hinsert, hstores, hc, hx⟩ :=
        h.insert (x := (key, default)) hlt this hlookup
      refine ⟨m', t', c, ?_, hstores, hc, ?_, ?_⟩
      · change (m.mp.find lt key).bind _ = _
        rw [h.find_absent hlt hlookup]
        change (m.insert lt this (key, default)).bind _ = _
        rw [hinsert]
        rfl
      · rw [hx]
        exact hlt.equal_self key
      · rw [hx]
        rfl
  | some e =>
      obtain ⟨c, hc, rfl, hequal, hfind⟩ := h.find_present hlt hlookup
      refine ⟨m, t, c, ?_, ?_, hc, hequal, rfl⟩
      · change (m.mp.find lt key).bind _ = _
        rw [hfind]
        rfl
      · rw [SortedEntries.insert_of_present
          (x := (key, default)) hlookup]
        exact h

/-- The values do not matter to the order. -/
theorem ascending_congr {es es' : List (K × V)} (h : Ascending lt es)
    (heq : es'.map Prod.fst = es.map Prod.fst) : Ascending lt es' := by
  have hkeys : (es.map Prod.fst).Pairwise fun a b => lt a b = true :=
    List.pairwise_map.mpr h
  rw [← heq] at hkeys
  exact List.pairwise_map.mp hkeys

/-- The ends of two trees with the same nodes. -/
theorem endsAt_congr {tree : RedBlackTree K V} {t' : RBTree K V}
    (h : RedBlackTree.EndsAt tree t)
    (heq : t'.cells.map Prod.fst = t.cells.map Prod.fst) :
    RedBlackTree.EndsAt tree t' := by
  refine ⟨h.head.trans ?_, h.rear.trans ?_⟩
  · rw [NodeTree.outer_left, NodeTree.outer_left, ← List.head?_map,
      ← List.head?_map, heq]
  · rw [NodeTree.outer_right, NodeTree.outer_right, ← List.getLast?_map,
      ← List.getLast?_map, heq]

/-- A value is assigned to a key that is there. -/
theorem Stores.setData (hlt : StrictWeakOrder lt) (h : Stores lt m t es)
    (hc : c ∈ t.cells) (hequal : RedBlackTree.equal lt c.2.2.1 key = true)
    (value : V) :
    ∃ memory t', m.mp.memory.setData c.1 (c.2.2.1, value) = some memory ∧
      Stores lt { mp := { m.mp with memory := memory } } t'
        (SortedEntries.store lt es key value) := by
  obtain ⟨before, after, hcells⟩ := List.append_of_mem hc
  obtain ⟨path, l, r, rfl, rfl, rfl⟩ :=
    NodeTree.exists_plug_cell (show t.cells = before ++ (c.1, c.2) :: after
      from hcells)
  obtain ⟨n, hbalanced⟩ := h.balanced
  obtain ⟨memory, hset, hholds⟩ := RedBlackTree.Holds.setData
    (show m.mp.Holds (plug path (.join .left c.1 c.2 l r)) from h.holds)
    (c.2.2.1, value)
  have hes : es = (entriesBefore path ++ entries l) ++ c.2.2 ::
      (entries r ++ entriesAfter path) := by
    rw [← h.entries_eq]
    change entries (plug path (.join .left c.1 c.2 l r)) = _
    rw [entries_plug, entries_join]
    simp
  have hasc := h.ascending
  rw [hes] at hasc
  have hstore : SortedEntries.store lt es key value =
      (entriesBefore path ++ entries l) ++ (c.2.2.1, value) ::
        (entries r ++ entriesAfter path) := by
    rw [hes]
    exact SortedEntries.store_split hlt hasc hequal
  have hat : RedBlackTree.EndsAt m.mp
      (plug path (.join .left c.1 (c.2.1, (c.2.2.1, value)) l r)) := by
    apply endsAt_congr h.ends
    simp [cells_plug, NodeTree.join, NodeTree.cells]
  refine ⟨memory, _, hset, hholds, ⟨n, ?_⟩, ⟨hat.head, hat.rear⟩, ?_, ?_, ?_⟩
  · exact hbalanced.plug_congr fun _ _ hjoin =>
      hjoin.join_congr (s := .left) (fun _ _ h => h) (fun _ _ h => h) c.1
        (c.2.2.1, value)
  · rw [hstore, entries_plug, entries_join]
    simp
  · rw [hstore]
    refine ascending_congr hasc ?_
    simp
  · rw [h.len, hstore, hes]
    simp

/-- The entry at a node is removed. -/
theorem Stores.remove (hlt : StrictWeakOrder lt) (h : Stores lt m t es)
    {left right : List (ℕ × Color × K × V)}
    (hcells : t.cells = left ++ c :: right) :
    ∃ mp t', m.mp.remove lt c.2.2.1 = some mp ∧
      Stores lt { mp := mp } t'
        (left.map (fun c => c.2.2) ++ right.map fun c => c.2.2) := by
  obtain ⟨n, hbalanced⟩ := h.balanced
  have hes : entries t = left.map (fun c => c.2.2) ++ c.2.2 ::
      right.map fun c => c.2.2 := by
    rw [entries, hcells, List.map_append, List.map_cons]
  have hasc : Ascending lt (entries t) := h.entries_eq ▸ h.ascending
  obtain ⟨mp, t', hremove, hlen, hremoved⟩ := h.holds.remove hlt hbalanced
    hasc hes (hlt.equal_self c.2.2.1)
  refine ⟨mp, t', hremove, hremoved.holds, hremoved.balanced, hremoved.ends,
    hremoved.entries_eq, ?_, ?_⟩
  · rw [hes] at hasc
    exact hasc.sublist (List.Sublist.append (List.Sublist.refl _)
      (List.sublist_cons_self _ _))
  · rw [hlen, h.len, ← h.entries_eq, hes]
    simp only [List.length_append, List.length_cons]
    push_cast
    ring

/-- `erase` of an iterator. -/
theorem Stores.erase (hlt : StrictWeakOrder lt) (this : ℕ)
    (h : Stores lt m t es)
    {left right : List (ℕ × Color × K × V)}
    (hcells : t.cells = left ++ c :: right) :
    ∃ m' t', m.erase lt this ⟨.node c.1, this⟩ = some (.ok m') ∧
      Stores lt m' t'
        (left.map (fun c => c.2.2) ++ right.map fun c => c.2.2) := by
  obtain ⟨mp, t', hremove, hstores⟩ := h.remove hlt hcells
  refine ⟨⟨mp⟩, t', ?_, hstores⟩
  have hc : c ∈ t.cells := by
    rw [hcells]
    simp
  change (if this ≠ this then _ else (m.mp.memory.getData c.1).bind _) = _
  rw [if_neg (not_not_intro rfl), h.holds.getData_of_cell hc]
  change (m.mp.remove lt c.2.2.1).bind _ = _
  rw [hremove]
  rfl

theorem Stores.clear (h : Stores lt m t es) :
    ∃ m' t', m.clear = some m' ∧ Stores lt m' t' [] := by
  obtain ⟨memory, hempty, hholds⟩ := h.holds.makeEmpty
  refine ⟨_, .nil, ?_, ⟨hholds, ⟨0, .nil⟩, ⟨rfl, rfl⟩, rfl, .nil, rfl⟩⟩
  change (RedBlackTree.makeEmpty m.mp.memory m.mp.memory.top m.mp.root).bind _ =
    _
  rw [hempty]
  rfl

theorem Stores.copy (h : Stores lt m t es) :
    ∃ m' t', m.copy = some m' ∧ Stores lt m' t' es := by
  obtain ⟨mp, hcopy, hlen, hholds, hends⟩ := h.holds.copy
  obtain ⟨n, hbalanced⟩ := h.balanced
  refine ⟨⟨mp⟩, _, ?_, hholds, ⟨n, RedBlackTree.balanced_renumber hbalanced 0⟩,
    hends, ?_, h.ascending, hlen.trans h.len⟩
  · change m.mp.copy.bind _ = _
    rw [hcopy]
    rfl
  · exact (RedBlackTree.entries_renumber 0 t).trans h.entries_eq

theorem Stores.assign {other : Map K V} {u : RBTree K V}
    {es' : List (K × V)} (h : Stores lt m t es) (hu : Stores lt other u es') :
    ∃ m' t', m.assign other = some m' ∧ Stores lt m' t' es' := by
  obtain ⟨mp, hassign, hlen, hholds, hends⟩ := h.holds.assign hu.holds
  obtain ⟨n, hbalanced⟩ := hu.balanced
  refine ⟨⟨mp⟩, _, ?_, hholds, ⟨n, RedBlackTree.balanced_renumber hbalanced _⟩,
    hends, ?_, hu.ascending, hlen.trans hu.len⟩
  · change (m.mp.assign other.mp).bind _ = _
    rw [hassign]
    rfl
  · exact (RedBlackTree.entries_renumber _ u).trans hu.entries_eq

/-! ## Many maps -/

/-- Every map is a red-black tree with the entries of its list. -/
def Follows (lt : K → K → Bool) (s : ℕ → Map K V) (f : ℕ → List (K × V)) :
    Prop :=
  ∀ i, ∃ t, Stores lt (s i) t (f i)

variable {s : ℕ → Map K V} {f : ℕ → List (K × V)}

theorem Follows.update (h : Follows lt s f) (hm : Stores lt m t es) (i : ℕ) :
    Follows lt (Function.update s i m) (Function.update f i es) := by
  intro j
  by_cases hj : j = i
  · subst hj
    rw [Function.update_self, Function.update_self]
    exact ⟨t, hm⟩
  · rw [Function.update_of_ne hj, Function.update_of_ne hj]
    exact h j

/-- `erase` of the iterator at a place of the same map. -/
theorem Follows.eraseStep_node (hlt : StrictWeakOrder lt) (h : Follows lt s f)
    {i : ℕ} (hi : Stores lt (s i) t (f i))
    {left right : List (ℕ × Color × K × V)}
    (hcells : t.cells = left ++ c :: right) :
    ∃ s', Map.eraseStep lt s i ⟨.node c.1, i⟩ = some (.done, s') ∧
      Follows lt s' (Function.update f i
        (left.map (fun c => c.2.2) ++ right.map fun c => c.2.2)) := by
  obtain ⟨m', t', herase, hstores⟩ := hi.erase hlt i hcells
  refine ⟨Function.update s i m', ?_, h.update hstores i⟩
  change ((s i).erase lt i ⟨.node c.1, i⟩).bind _ = _
  rw [herase]
  rfl

theorem Follows.eraseKey (hlt : StrictWeakOrder lt) (h : Follows lt s f)
    (default : V) (i : ℕ) (key : K) :
    ∃ s', Map.step lt default s (.eraseKey i key) =
        some ((SortedEntries.step lt default f (.eraseKey i key)).1, s') ∧
      Follows lt s' (SortedEntries.step lt default f (.eraseKey i key)).2 := by
  obtain ⟨t, hi⟩ := h i
  cases hlookup : SortedEntries.lookup lt (f i) key with
  | none =>
      have hstep : SortedEntries.step lt default f (.eraseKey i key) =
          (.thrown .invalidIterator, f) := by
        rw [SortedEntries.step, hlookup]
        rfl
      refine ⟨s, ?_, hstep ▸ h⟩
      rw [hstep]
      change ((s i).find lt i key).bind _ = _
      have hfind : (s i).find lt i key = some (pastEnd i) := by
        change ((s i).mp.find lt key).bind _ = _
        rw [hi.find_absent hlt hlookup]
        rfl
      rw [hfind]
      rfl
  | some e =>
      obtain ⟨c, hc, rfl, hequal, hfind⟩ := hi.find_present hlt hlookup
      obtain ⟨left, right, hcells⟩ := List.append_of_mem hc
      have hstep : SortedEntries.step lt default f (.eraseKey i key) =
          (.done, Function.update f i
            (left.map (fun c => c.2.2) ++ right.map fun c => c.2.2)) := by
        have hes : f i = left.map (fun c => c.2.2) ++ c.2.2 ::
            right.map fun c => c.2.2 := by
          rw [← hi.entries_eq, entries, hcells, List.map_append, List.map_cons]
        have hasc := hi.ascending
        rw [hes] at hasc
        rw [SortedEntries.step, hlookup, if_pos Option.isSome_some, hes,
          SortedEntries.erase_split hlt hasc hequal]
      obtain ⟨s', herase, hfollows⟩ := h.eraseStep_node hlt hi hcells
      refine ⟨s', ?_, hstep ▸ hfollows⟩
      rw [hstep]
      change ((s i).find lt i key).bind _ = _
      have hfound : (s i).find lt i key = some ⟨.node c.1, i⟩ := by
        change ((s i).mp.find lt key).bind _ = _
        rw [hfind]
        rfl
      rw [hfound]
      exact herase

theorem Follows.erase (hlt : StrictWeakOrder lt) (h : Follows lt s f)
    (default : V) (i j n : ℕ) :
    ∃ s', Map.step lt default s (.erase i j n) =
        some ((SortedEntries.step lt default f (.erase i j n)).1, s') ∧
      Follows lt s' (SortedEntries.step lt default f (.erase i j n)).2 := by
  obtain ⟨t, hj⟩ := h j
  have hlength : t.cells.length = (f j).length := by
    rw [← hj.entries_eq, entries, List.length_map]
  have hadvance := advance_place hj.holds hj.ends j
    (Nat.zero_le t.cells.length) n
  rw [← begin_eq hj.holds hj.ends j, Nat.zero_add] at hadvance
  by_cases hn : n ≤ t.cells.length
  · rw [if_pos hn] at hadvance
    have hthrow : ¬ (i = j ∧ n < (f i).length) →
        (s i).erase lt i (place t j n) = some (.error .invalidIterator) := by
      intro hno
      rcases Nat.lt_or_eq_of_le hn with hlt' | heq
      · rw [place_of_lt hlt']
        apply if_pos
        rintro rfl
        exact hno ⟨rfl, hlength ▸ hlt'⟩
      · rw [place_of_le heq.ge]
        rfl
    by_cases hok : i = j ∧ n < (f i).length
    · obtain ⟨rfl, hn'⟩ := hok
      rw [← hlength] at hn'
      have hcells := cells_split hn'
      obtain ⟨s', herase, hfollows⟩ := h.eraseStep_node hlt hj hcells
      have hes : (t.cells.take n).map (fun c => c.2.2) ++
          (t.cells.drop (n + 1)).map (fun c => c.2.2) =
            (f i).eraseIdx n := by
        rw [← hj.entries_eq, entries, List.eraseIdx_eq_take_drop_succ,
          List.map_take, List.map_drop]
      rw [hes] at hfollows
      have hstep : SortedEntries.step lt default f (.erase i i n) =
          (.done, Function.update f i ((f i).eraseIdx n)) :=
        if_pos ⟨rfl, hlength ▸ hn'⟩
      refine ⟨s', ?_, hstep ▸ hfollows⟩
      rw [hstep]
      change ((s i).advance ((s i).begin i) n).bind _ = _
      rw [hadvance, place_of_lt hn']
      exact herase
    · have hstep : SortedEntries.step lt default f (.erase i j n) =
          (.thrown .invalidIterator, f) := if_neg hok
      refine ⟨s, ?_, hstep ▸ h⟩
      rw [hstep]
      change ((s j).advance ((s j).begin j) n).bind _ = _
      rw [hadvance]
      change ((s i).erase lt i (place t j n)).bind _ = _
      rw [hthrow hok]
      rfl
  · rw [if_neg hn] at hadvance
    have hstep : SortedEntries.step lt default f (.erase i j n) =
        (.thrown .invalidIterator, f) := by
      apply if_neg
      rintro ⟨rfl, hlt'⟩
      omega
    refine ⟨s, ?_, hstep ▸ h⟩
    rw [hstep]
    change ((s j).advance ((s j).begin j) n).bind _ = _
    rw [hadvance]
    rfl

theorem Follows.subscript (hlt : StrictWeakOrder lt) (h : Follows lt s f)
    (default : V) (i : ℕ) (key : K) :
    ∃ s', Map.step lt default s (.subscript i key) =
        some ((SortedEntries.step lt default f (.subscript i key)).1, s') ∧
      Follows lt s' (SortedEntries.step lt default f (.subscript i key)).2 := by
  obtain ⟨t, hi⟩ := h i
  obtain ⟨m', t', c, hsubscript, hstores, hc, -, hvalue⟩ :=
    hi.subscript hlt i default key
  refine ⟨Function.update s i m', ?_, h.update hstores i⟩
  change ((s i).subscript lt default i key).bind _ = _
  rw [hsubscript]
  change (m'.mp.memory.getData c.1).bind _ = _
  rw [hstores.holds.getData_of_cell hc]
  change some (SjtuReply.value c.2.2.2, Function.update s i m') = _
  rw [hvalue]
  rfl

theorem Follows.store (hlt : StrictWeakOrder lt) (h : Follows lt s f)
    (default : V) (i : ℕ) (key : K) (value : V) :
    ∃ s', Map.step lt default s (.store i key value) =
        some ((SortedEntries.step lt default f (.store i key value)).1, s') ∧
      Follows lt s'
        (SortedEntries.step lt default f (.store i key value)).2 := by
  obtain ⟨t, hi⟩ := h i
  obtain ⟨m', t', c, hsubscript, hstores, hc, hequal, -⟩ :=
    hi.subscript hlt i default key
  obtain ⟨memory, t'', hset, hstored⟩ :=
    hstores.setData hlt hc hequal value
  refine ⟨_, ?_, h.update hstored i⟩
  change ((s i).subscript lt default i key).bind _ = _
  rw [hsubscript]
  change (m'.mp.memory.getData c.1).bind _ = _
  rw [hstores.holds.getData_of_cell hc]
  change (m'.mp.memory.setData c.1 (c.2.2.1, value)).bind _ = _
  rw [hset]
  rfl

theorem Follows.insert (hlt : StrictWeakOrder lt) (h : Follows lt s f)
    (default : V) (i : ℕ) (x : K × V) :
    ∃ s', Map.step lt default s (.insert i x) =
        some ((SortedEntries.step lt default f (.insert i x)).1, s') ∧
      Follows lt s' (SortedEntries.step lt default f (.insert i x)).2 := by
  obtain ⟨t, hi⟩ := h i
  cases hlookup : SortedEntries.lookup lt (f i) x.1 with
  | none =>
      obtain ⟨m', t', c, hinsert, hstores, hc, hx⟩ :=
        hi.insert hlt i hlookup
      refine ⟨Function.update s i m', ?_, h.update hstores i⟩
      rw [SortedEntries.step, hlookup]
      change ((s i).insert lt i x).bind _ = _
      rw [hinsert]
      change (m'.deref ⟨.node c.1, i⟩).bind _ = _
      rw [hstores.deref hc, hx]
      rfl
  | some e =>
      obtain ⟨c, hc, rfl, hinsert⟩ :=
        hi.insert_present hlt i hlookup
      have hsame : SortedEntries.insert lt (f i) x = f i :=
        SortedEntries.insert_of_present hlookup
      refine ⟨Function.update s i (s i), ?_, ?_⟩
      · rw [SortedEntries.step, hlookup]
        change ((s i).insert lt i x).bind _ = _
        rw [hinsert]
        change ((s i).deref ⟨.node c.1, i⟩).bind _ = _
        rw [hi.deref hc]
        rfl
      · apply h.update (t := t)
        rw [hsame]
        exact hi

theorem Follows.assign (h : Follows lt s f) (default : V) (i j : ℕ) :
    ∃ s', Map.step lt default s (.assign i j) =
        some ((SortedEntries.step lt default f (.assign i j)).1, s') ∧
      Follows lt s' (SortedEntries.step lt default f (.assign i j)).2 := by
  obtain ⟨t, hi⟩ := h i
  obtain ⟨u, hj⟩ := h j
  by_cases hij : i = j
  · subst hij
    refine ⟨s, if_pos rfl, ?_⟩
    change Follows lt s (Function.update f i (f i))
    rw [Function.update_eq_self]
    exact h
  · obtain ⟨m', t', hassign, hstores⟩ := hi.assign hj
    refine ⟨Function.update s i m', ?_, h.update hstores i⟩
    refine (if_neg hij).trans ?_
    change ((s i).assign (s j)).bind _ = _
    rw [hassign]
    rfl

theorem Follows.atKey (hlt : StrictWeakOrder lt) (h : Follows lt s f)
    (default : V) (i : ℕ) (key : K) :
    Map.step lt default s (.atKey i key) =
        some ((SortedEntries.step lt default f (.atKey i key)).1, s) ∧
      (SortedEntries.step lt default f (.atKey i key)).2 = f := by
  obtain ⟨t, hi⟩ := h i
  rw [SortedEntries.step]
  cases hlookup : SortedEntries.lookup lt (f i) key with
  | none =>
      refine ⟨?_, rfl⟩
      have hat : (s i).atKey lt key = some (.error .indexOutOfBound) := by
        change ((s i).mp.find lt key).bind _ = _
        rw [hi.find_absent hlt hlookup]
        rfl
      change ((s i).atKey lt key).bind _ = _
      rw [hat]
      rfl
  | some e =>
      refine ⟨?_, rfl⟩
      have hat : (s i).atKey lt key = some (.ok e.2) := by
        obtain ⟨c, hc, rfl, -, hfind⟩ := hi.find_present hlt hlookup
        change ((s i).mp.find lt key).bind _ = _
        rw [hfind]
        change ((s i).mp.memory.getData c.1).bind _ = _
        rw [hi.holds.getData_of_cell hc]
        rfl
      change ((s i).atKey lt key).bind _ = _
      rw [hat]
      rfl

/-- `count` counts the key. -/
theorem Stores.count (hlt : StrictWeakOrder lt) (h : Stores lt m t es)
    (key : K) :
    m.count lt key =
      some (if (SortedEntries.lookup lt es key).isSome then 1 else 0) := by
  change (m.mp.find lt key).bind _ = _
  rcases h.find_cases hlt key with ⟨hlookup, hfind⟩ | ⟨c, -, -, hlookup, hfind⟩
  · rw [hlookup, hfind]
    rfl
  · rw [hlookup, hfind]
    rfl

/-- Every call is answered as the lists say. -/
theorem Follows.step (hlt : StrictWeakOrder lt) (h : Follows lt s f)
    (default : V) (call : SjtuCall K V) :
    ∃ s', Map.step lt default s call =
        some ((SortedEntries.step lt default f call).1, s') ∧
      Follows lt s' (SortedEntries.step lt default f call).2 := by
  cases call with
  | subscript i key => exact h.subscript hlt default i key
  | store i key value => exact h.store hlt default i key value
  | insert i x => exact h.insert hlt default i x
  | eraseKey i key => exact h.eraseKey hlt default i key
  | erase i j n => exact h.erase hlt default i j n
  | clear i =>
      obtain ⟨t, hi⟩ := h i
      obtain ⟨m', t', hclear, hstores⟩ := hi.clear
      refine ⟨Function.update s i m', ?_, h.update hstores i⟩
      change (s i).clear.bind _ = _
      rw [hclear]
      rfl
  | copy i j =>
      obtain ⟨t, hj⟩ := h j
      obtain ⟨m', t', hcopy, hstores⟩ := hj.copy
      refine ⟨Function.update s i m', ?_, h.update hstores i⟩
      change (s j).copy.bind _ = _
      rw [hcopy]
      rfl
  | assign i j => exact h.assign default i j
  | atKey i key =>
      obtain ⟨hstep, hsame⟩ := h.atKey hlt default i key
      exact ⟨s, hstep, hsame.symm ▸ h⟩
  | count i key =>
      obtain ⟨t, hi⟩ := h i
      refine ⟨s, ?_, h⟩
      change ((s i).count lt key).bind _ = _
      rw [hi.count hlt key]
      rfl

/-- The maps of a program follow its lists. -/
theorem run_follows (hlt : StrictWeakOrder lt) (default : V)
    (calls : List (SjtuCall K V)) :
    ∃ replies s f,
      runReplies (Map.step lt default) (fun _ => new) calls =
        some (replies, s) ∧
      runReplies (fun f call => some (SortedEntries.step lt default f call))
        (fun _ => []) calls = some (replies, f) ∧ Follows lt s f := by
  obtain ⟨replies, f, hlists⟩ :=
    exists_runReplies (SortedEntries.step lt default) (fun _ => []) calls
  have hstart : Follows lt (fun _ => (new : Map K V)) fun _ => [] :=
    fun _ => ⟨.nil, .new⟩
  obtain ⟨s, hrun, hfollows⟩ := runReplies_simulates (R := Follows lt)
    (fun s f call r f' hsf hstep => by
      obtain ⟨s', hstep', hfollows'⟩ := hsf.step hlt default call
      obtain ⟨rfl, rfl⟩ := Prod.mk.inj (Option.some.inj hstep)
      exact ⟨s', hstep', hfollows'⟩) hstart hlists
  exact ⟨replies, s, f, hrun, hlists, hfollows⟩

/-- What stands in memory for a map, and what a program can see of it. -/
structure RedBlack (lt : K → K → Bool) (this : ℕ) (m : Map K V)
    (es : List (K × V)) : Prop where
  /-- A binary tree with links to the parents, balanced and with a black root,
  which the first and the last of its nodes are known of. -/
  tree : ∃ t, m.mp.Holds t ∧ (∃ n, Balanced t .black n) ∧ entries t = es ∧
    RedBlackTree.EndsAt m.mp t
  ascending : Ascending lt es
  len : m.mp.len = es.length
  head : m.mp.head.bind m.mp.memory.getData = es.head?
  rear : m.mp.rear.bind m.mp.memory.getData = es.getLast?
  find : ∀ key, match SortedEntries.lookup lt es key with
    | none => m.find lt this key = some (pastEnd this)
    | some e => ∃ p, m.find lt this key = some ⟨.node p, this⟩ ∧
        m.mp.memory.getData p = some e
  count : ∀ key, m.count lt key =
    some (if (SortedEntries.lookup lt es key).isSome then 1 else 0)
  atKey : ∀ key, m.atKey lt key =
    some (match SortedEntries.lookup lt es key with
      | none => .error .indexOutOfBound
      | some e => .ok e.2)

theorem Stores.redBlack (hlt : StrictWeakOrder lt) (h : Stores lt m t es)
    (this : ℕ) : RedBlack lt this m es where
  tree := ⟨t, h.holds, h.balanced, h.entries_eq, h.ends⟩
  ascending := h.ascending
  len := h.len
  head := by
    rw [h.ends.head, NodeTree.outer_left, ← h.entries_eq, entries,
      List.head?_map]
    cases hcell : t.cells.head? with
    | none => rfl
    | some c =>
        exact h.holds.getData_of_cell (List.mem_of_head? hcell)
  rear := by
    rw [h.ends.rear, NodeTree.outer_right, ← h.entries_eq, entries,
      List.getLast?_map]
    cases hcell : t.cells.getLast? with
    | none => rfl
    | some c =>
        exact h.holds.getData_of_cell (List.mem_of_getLast? hcell)
  find key := by
    cases hlookup : SortedEntries.lookup lt es key with
    | none =>
        change (m.mp.find lt key).bind _ = _
        rw [h.find_absent hlt hlookup]
        rfl
    | some e =>
        obtain ⟨c, hc, rfl, -, hfind⟩ := h.find_present hlt hlookup
        refine ⟨c.1, ?_, h.holds.getData_of_cell hc⟩
        change (m.mp.find lt key).bind _ = _
        rw [hfind]
        rfl
  count := h.count hlt
  atKey key := by
    change (m.mp.find lt key).bind _ = _
    cases hlookup : SortedEntries.lookup lt es key with
    | none =>
        rw [h.find_absent hlt hlookup]
        rfl
    | some e =>
        obtain ⟨c, hc, rfl, -, hfind⟩ := h.find_present hlt hlookup
        rw [hfind]
        change (m.mp.memory.getData c.1).bind _ = _
        rw [h.holds.getData_of_cell hc]
        rfl

/-- Every sequence of calls is answered as the lists ordered by their keys say,
and leaves red-black trees with their entries behind. -/
theorem run_redBlack (hlt : StrictWeakOrder lt) (default : V)
    (calls : List (SjtuCall K V)) :
    ∃ replies s f,
      runReplies (Map.step lt default) (fun _ => new) calls =
        some (replies, s) ∧
      runReplies (fun f call => some (SortedEntries.step lt default f call))
        (fun _ => []) calls = some (replies, f) ∧
      ∀ i, RedBlack lt i (s i) (f i) := by
  obtain ⟨replies, s, f, hrun, hlists, hfollows⟩ :=
    run_follows hlt default calls
  refine ⟨replies, s, f, hrun, hlists, fun i => ?_⟩
  obtain ⟨t, hi⟩ := hfollows i
  exact hi.redBlack hlt i

/-- Numbers by their tens. -/
theorem strictWeakOrder_tens :
    StrictWeakOrder fun a b : ℕ => decide (a / 10 < b / 10) :=
  .of_key (f := fun n => n / 10) fun _ _ => decide_eq_true_iff

theorem run_redBlack_tens :
    ∃ replies s f,
      runReplies (Map.step (fun a b : ℕ => decide (a / 10 < b / 10)) 0)
        (fun _ => new) [.insert 0 (7, 1), .store 0 25 2, .subscript 0 31,
          .eraseKey 0 3, .atKey 0 20] = some (replies, s) ∧
      runReplies (fun f call => some (SortedEntries.step
        (fun a b : ℕ => decide (a / 10 < b / 10)) 0 f call)) (fun _ => [])
        [.insert 0 (7, 1), .store 0 25 2, .subscript 0 31, .eraseKey 0 3,
          .atKey 0 20] = some (replies, f) ∧
      ∀ i, RedBlack (fun a b : ℕ => decide (a / 10 < b / 10)) i (s i) (f i) :=
  run_redBlack strictWeakOrder_tens 0 [.insert 0 (7, 1), .store 0 25 2,
    .subscript 0 31, .eraseKey 0 3, .atKey 0 20]

/-- The iterators of a map stand at the places of its entries. -/
structure Iterates (lt : K → K → Bool) (this : ℕ) (m : Map K V)
    (es : List (K × V)) : Prop where
  ascending : Ascending lt es
  count : ∀ key, m.count lt key =
    some (if (SortedEntries.lookup lt es key).isSome then 1 else 0)
  size : m.size = es.length
  places : ∃ it : ℕ → MapIterator,
    (∀ k ≤ es.length, m.advance (m.begin this) k = some (.ok (it k))) ∧
    it es.length = pastEnd this ∧
    (∀ k ≤ es.length,
      m.retreat (pastEnd this) k = some (.ok (it (es.length - k)))) ∧
    it 0 = m.begin this ∧
    (∀ k (hk : k < es.length), m.deref (it k) = some (.ok (es.get ⟨k, hk⟩))) ∧
    ∀ k < es.length, m.increment (it k) = some (.ok (it (k + 1))) ∧
      m.decrement (it (k + 1)) = some (.ok (it k))
  increment_end : m.increment (pastEnd this) = some (.error .invalidIterator)
  decrement_begin :
    m.decrement (m.begin this) = some (.error .invalidIterator)

theorem Stores.iterates (hlt : StrictWeakOrder lt) (h : Stores lt m t es)
    (this : ℕ) : Iterates lt this m es where
  ascending := h.ascending
  count := h.count hlt
  size := by
    rw [size, h.len, Int.toNat_natCast]
  places := by
    have hlength : es.length = t.cells.length := by
      rw [← h.entries_eq, entries, List.length_map]
    have hbegin := begin_eq h.holds h.ends this
    have hend : place t this es.length = pastEnd this :=
      place_of_le hlength.ge
    refine ⟨place t this, ?_, hend, ?_, hbegin.symm, ?_, ?_⟩
    · intro k hk
      rw [hbegin, advance_place h.holds h.ends this (Nat.zero_le _) k, Nat.zero_add,
        if_pos (hlength ▸ hk)]
    · intro k hk
      rw [← hend]
      exact retreat_place h.holds h.ends hlength.le hk
    · intro k hk
      have hcell : k < t.cells.length := hlength ▸ hk
      rw [deref_place h.holds hcell]
      have hget : es.get ⟨k, hk⟩ = t.cells[k].2.2 := by
        have heq := h.entries_eq
        subst heq
        simp [entries]
      rw [hget]
    · intro k hk
      rw [hlength] at hk
      exact ⟨increment_place h.holds h.ends hk,
        decrement_place h.holds h.ends hk⟩
  increment_end := rfl
  decrement_begin := decrement_begin h.holds h.ends

/-- After every sequence of calls the iterators of every map visit its entries
in the order of the keys, and back. -/
theorem run_iterates (hlt : StrictWeakOrder lt) (default : V)
    (calls : List (SjtuCall K V)) :
    ∃ replies s f,
      runReplies (Map.step lt default) (fun _ => new) calls =
        some (replies, s) ∧
      runReplies (fun f call => some (SortedEntries.step lt default f call))
        (fun _ => []) calls = some (replies, f) ∧
      ∀ i, Iterates lt i (s i) (f i) := by
  obtain ⟨replies, s, f, hrun, hlists, hfollows⟩ :=
    run_follows hlt default calls
  refine ⟨replies, s, f, hrun, hlists, fun i => ?_⟩
  obtain ⟨t, hi⟩ := hfollows i
  exact hi.iterates hlt i

theorem run_iterates_copy :
    ∃ replies s f,
      runReplies (Map.step (fun a b : ℕ => decide (a / 10 < b / 10)) 0)
        (fun _ => new) [.insert 0 (17, 1), .insert 0 (4, 2), .copy 1 0,
          .erase 0 0 1, .clear 0, .assign 0 1] = some (replies, s) ∧
      runReplies (fun f call => some (SortedEntries.step
        (fun a b : ℕ => decide (a / 10 < b / 10)) 0 f call)) (fun _ => [])
        [.insert 0 (17, 1), .insert 0 (4, 2), .copy 1 0, .erase 0 0 1,
          .clear 0, .assign 0 1] = some (replies, f) ∧
      ∀ i, Iterates (fun a b : ℕ => decide (a / 10 < b / 10)) i (s i) (f i) :=
  run_iterates strictWeakOrder_tens 0 [.insert 0 (17, 1), .insert 0 (4, 2),
    .copy 1 0, .erase 0 0 1, .clear 0, .assign 0 1]

end Map

end TicketSystem.Backend
