import TicketSystem.Backend.RedBlackMap
import TicketSystem.Backend.RedBlackSteps
import TicketSystem.Support.NodeTreeWalk

/-!
# Iterators of the map

An iterator walks along the nodes from left to right: below its node, or up to
the first node on whose other side it was.
-/

namespace TicketSystem.Backend

open TicketSystem.Support

variable {K V : Type}

namespace RedBlackTree

variable {tree : RedBlackTree K V} {s : Side} {a : Color × K × V}
  {A B t : RBTree K V} {p fuel : ℕ} {path : List (Frame (Color × K × V))}

/-! ## The neighbours of a node -/

/-- The path without the nodes on whose side `s` it ends. -/
def turn (s : Side) (path : List (Frame (Color × K × V))) :
    List (Frame (Color × K × V)) :=
  path.dropWhile fun f => decide (f.side = s)

theorem turn_cons_of_eq {f : Frame (Color × K × V)} (h : f.side = s) :
    turn s (f :: path) = turn s path := by
  rw [turn, List.dropWhile_cons_of_pos (by simp [h])]
  rfl

theorem turn_cons_of_ne {f : Frame (Color × K × V)} (h : f.side ≠ s) :
    turn s (f :: path) = f :: path := by
  rw [turn, List.dropWhile_cons_of_neg (by simp [h])]

/-- The climb ends below the first node on whose other side it was. -/
theorem Holds.climbWhile (h : Holds tree (plug path t)) (hp : t.root = some p)
    (s : Side) (hfuel : path.length < fuel) :
    ∃ q, tree.memory.climbWhile s fuel p = some q ∧
      tree.memory.get tree.memory.fa q = some (above (turn s path)) := by
  induction path generalizing t p fuel with
  | nil =>
      obtain ⟨fuel, rfl⟩ : ∃ n, fuel = n + 1 := ⟨fuel - 1, by omega⟩
      obtain ⟨a, A, B, rfl⟩ := NodeTree.exists_join .left hp
      have hread := h.reads
      have hfa : tree.memory.get tree.memory.fa p = some none := by
        rw [RBMemory.get_eq hread.live, hread.fa]
        rfl
      refine ⟨p, ?_, hfa⟩
      rw [RBMemory.climbWhile, hfa]
      rfl
  | cons f path ih =>
      obtain ⟨fuel, rfl⟩ : ∃ n, fuel = n + 1 := ⟨fuel - 1, by omega⟩
      have hparent := h.reads_cons
      have hjoin : Holds tree (plug path (.join f.side f.p f.a t f.sibling)) :=
        h
      have hfa : tree.memory.get tree.memory.fa p = some (some f.p) := by
        obtain ⟨a, A, B, rfl⟩ := NodeTree.exists_join .left hp
        have hread := h.reads
        rw [RBMemory.get_eq hread.live, hread.fa]
        rfl
      have hstep : tree.memory.climbWhile s (fuel + 1) p =
          if tree.memory.child s f.p = some p then
            tree.memory.climbWhile s fuel f.p else some p := by
        rw [RBMemory.climbWhile, hfa]
        change (tree.memory.get (tree.memory.child s) f.p).bind _ = _
        rw [RBMemory.get_eq hparent.live]
        rfl
      rw [hstep]
      by_cases hside : f.side = s
      · subst hside
        rw [if_pos (hparent.child.trans hp), turn_cons_of_eq rfl]
        exact ih hjoin (NodeTree.root_join ..) (Nat.lt_of_succ_lt_succ hfuel)
      · have hother : f.side.other = s :=
          ((f.side.eq_or_eq_other s).resolve_left fun heq =>
            hside heq.symm).symm
        have hne : tree.memory.child s f.p ≠ some p := by
          rw [← hother, hparent.other]
          exact hjoin.root_other_ne hp
        rw [if_neg hne, turn_cons_of_ne hside]
        exact ⟨p, rfl, hfa⟩

theorem Holds.length_path_lt (h : Holds tree (plug path t)) :
    path.length < tree.memory.top + 1 := by
  have hsize := h.size_le
  rw [← NodeTree.length_nodes, (nodes_plug path t).length_eq,
    List.length_append] at hsize
  have hpath : path.length ≤ (pathNodes path).length := by
    clear h hsize
    induction path with
    | nil => exact Nat.zero_le _
    | cons f path ih =>
        simp only [pathNodes, List.length_cons, List.length_append]
        omega
  omega

/-- The next node on one side. -/
theorem Holds.neighbor (h : Holds tree (plug path (.join s p a A B))) :
    tree.memory.neighbor s p = some (if A.root = none then
      above (turn s path) else A.outer s.other) := by
  have hread := h.reads
  rw [RBMemory.neighbor, RBMemory.get_eq hread.live, hread.child]
  cases hA : A.root with
  | none =>
      obtain ⟨q, hclimb, hfa⟩ :=
        h.climbWhile (NodeTree.root_join ..) s h.length_path_lt
      change (tree.memory.climbWhile s (tree.memory.top + 1) p).bind _ = _
      rw [hclimb, if_pos rfl]
      exact hfa
  | some q =>
      have hsize : A.size ≤ tree.memory.top := by
        refine le_trans ?_ h.size_le
        rw [← NodeTree.length_nodes, ← NodeTree.length_nodes,
          (nodes_plug path _).length_eq, List.length_append,
          (NodeTree.nodes_join ..).length_eq, List.length_cons,
          List.length_append]
        omega
      obtain ⟨x, hx⟩ := NodeTree.exists_outer (by rw [hA]; simp) s.other
      change (tree.memory.lastOn s.other tree.memory.top q).map some = _
      rw [h.child.lastOn s.other hA hsize, hx,
        if_neg (Option.some_ne_none q)]
      rfl

/-- What follows the subtree at the end of the path. -/
theorem head_cellsAfter (path : List (Frame (Color × K × V))) :
    (cellsAfter path).head?.map Prod.fst = above (turn .right path) := by
  induction path with
  | nil => rfl
  | cons f path ih =>
      cases hside : f.side with
      | left =>
          rw [turn_cons_of_ne (by simp [hside]), cellsAfter, hside]
          rfl
      | right =>
          rw [turn_cons_of_eq hside, cellsAfter, hside]
          exact ih

theorem last_cellsBefore (path : List (Frame (Color × K × V))) :
    (cellsBefore path).getLast?.map Prod.fst = above (turn .left path) := by
  induction path with
  | nil => rfl
  | cons f path ih =>
      cases hside : f.side with
      | left =>
          rw [turn_cons_of_eq hside, cellsBefore, hside, List.append_nil]
          exact ih
      | right =>
          rw [turn_cons_of_ne (by simp [hside]), cellsBefore, hside,
            ← List.append_assoc, List.getLast?_concat]
          rfl

variable {before after : List (ℕ × Color × K × V)}

theorem Holds.neighbor_right (h : Holds tree t)
    (hcells : t.cells = before ++ (p, a) :: after) :
    tree.memory.neighbor .right p = some (after.head?.map Prod.fst) := by
  obtain ⟨path, l, r, rfl, -, rfl⟩ := NodeTree.exists_plug_cell hcells
  have hneighbor := Holds.neighbor
    (show Holds tree (plug path (.join .right p a r l)) from h)
  rw [hneighbor]
  cases hr : r.root with
  | none =>
      obtain rfl := NodeTree.eq_nil_of_root hr
      rw [if_pos rfl]
      exact congrArg some (head_cellsAfter path).symm
  | some q =>
      obtain ⟨x, hx⟩ := NodeTree.exists_outer (by rw [hr]; simp) .left
      rw [if_neg (Option.some_ne_none q)]
      change some (r.outer .left) = _
      rw [NodeTree.outer_left] at hx ⊢
      obtain ⟨c, hc, -⟩ := Option.map_eq_some_iff.mp hx
      rw [List.head?_append, hc]
      rfl

theorem Holds.neighbor_left (h : Holds tree t)
    (hcells : t.cells = before ++ (p, a) :: after) :
    tree.memory.neighbor .left p = some (before.getLast?.map Prod.fst) := by
  obtain ⟨path, l, r, rfl, rfl, -⟩ := NodeTree.exists_plug_cell hcells
  have hneighbor := Holds.neighbor
    (show Holds tree (plug path (.join .left p a l r)) from h)
  rw [hneighbor]
  cases hl : l.root with
  | none =>
      obtain rfl := NodeTree.eq_nil_of_root hl
      rw [if_pos rfl, NodeTree.cells, List.append_nil]
      exact congrArg some (last_cellsBefore path).symm
  | some q =>
      obtain ⟨x, hx⟩ := NodeTree.exists_outer (by rw [hl]; simp) .right
      rw [if_neg (Option.some_ne_none q)]
      change some (l.outer .right) = _
      rw [NodeTree.outer_right] at hx ⊢
      obtain ⟨c, hc, -⟩ := Option.map_eq_some_iff.mp hx
      rw [List.getLast?_append, hc]
      rfl

/-- What stands at a node. -/
theorem Holds.getData_of_cell {c : ℕ × Color × K × V} (h : Holds tree t)
    (hc : c ∈ t.cells) : tree.memory.getData c.1 = some c.2.2 := by
  obtain ⟨before, after, hcells⟩ := List.append_of_mem hc
  obtain ⟨path, l, r, rfl, -⟩ :=
    NodeTree.exists_plug_cell (show t.cells = before ++ (c.1, c.2) :: after
      from hcells)
  have hread := Holds.reads
    (show Holds tree (plug path (.join .left c.1 c.2 l r)) from h)
  exact RBMemory.getData_eq hread.live hread.data

end RedBlackTree

/-! ## Places -/

namespace Map

variable {m : Map K V} {t : RBTree K V} {this k : ℕ}

/-- The iterator at the place `k` of a tree. -/
def place (t : RBTree K V) (this k : ℕ) : MapIterator where
  p :=
    match t.cells[k]? with
    | none => .endNode
    | some c => .node c.1
  id := this

theorem place_of_lt (hk : k < t.cells.length) :
    place t this k = ⟨.node t.cells[k].1, this⟩ := by
  rw [place, List.getElem?_eq_getElem hk]

theorem place_of_le (hk : t.cells.length ≤ k) : place t this k = pastEnd this := by
  rw [place, List.getElem?_eq_none hk, pastEnd]

/-- The cells before and after a place. -/
theorem cells_split {cells : List (ℕ × Color × K × V)} (hk : k < cells.length) :
    cells = cells.take k ++ (cells[k].1, cells[k].2) ::
      cells.drop (k + 1) := by
  change _ = _ ++ cells[k] :: _
  rw [← List.drop_eq_getElem_cons hk, List.take_append_drop]

/-- Different places have different nodes. -/
theorem cell_ne (h : t.nodes.Nodup) {i j : ℕ} (hi : i < t.cells.length)
    (hj : j < t.cells.length) (hne : i ≠ j) : t.cells[i].1 ≠ t.cells[j].1 := by
  have hnodup := (NodeTree.cells_perm_nodes t).nodup_iff.mpr h
  intro heq
  have hi' : i < (t.cells.map Prod.fst).length := by rwa [List.length_map]
  have hj' : j < (t.cells.map Prod.fst).length := by rwa [List.length_map]
  have hkeys : (t.cells.map Prod.fst)[i] = (t.cells.map Prod.fst)[j] := by
    rw [List.getElem_map, List.getElem_map, heq]
  exact hne (hnodup.getElem_inj_iff.mp hkeys)

variable (h : m.mp.Holds t) (hends : RedBlackTree.EndsAt m.mp t)
include h hends

theorem begin_eq (this : ℕ) : m.begin this = place t this 0 := by
  rw [begin, h.root]
  cases t with
  | nil => rfl
  | node p a l r =>
      have hhead := hends.head
      rw [NodeTree.outer_left] at hhead
      have hpos : 0 < (NodeTree.node p a l r).cells.length := by
        rw [NodeTree.length_cells]
        exact Nat.succ_pos _
      rw [if_neg (by simp [NodeTree.root]), hhead, place_of_lt hpos,
        List.head?_eq_getElem?, List.getElem?_eq_getElem hpos]
      rfl

/-- `++` goes to the next place. -/
theorem increment_place (hk : k < t.cells.length) :
    m.increment (place t this k) = some (.ok (place t this (k + 1))) := by
  have hrear := hends.rear
  rw [NodeTree.outer_right] at hrear
  rw [place_of_lt hk, increment]
  change (if some t.cells[k].1 = m.mp.rear then _ else
    (m.mp.memory.neighbor .right t.cells[k].1).bind _) = _
  by_cases hlast : k + 1 < t.cells.length
  · rw [if_neg, h.neighbor_right (cells_split hk), List.head?_drop,
      List.getElem?_eq_getElem hlast, place_of_lt hlast]
    · rfl
    · rw [hrear, List.getLast?_eq_getElem?,
        List.getElem?_eq_getElem (by omega)]
      intro heq
      exact cell_ne h.nodup hk (by omega) (by omega) (Option.some.inj heq)
  · rw [if_pos, place_of_le (by omega)]
    · rfl
    · rw [hrear, List.getLast?_eq_getElem?,
        List.getElem?_eq_getElem (by omega)]
      have hindex : t.cells.length - 1 = k := by omega
      simp only [hindex]
      rfl

/-- `--` goes to the place before. -/
theorem decrement_place (hk : k < t.cells.length) :
    m.decrement (place t this (k + 1)) = some (.ok (place t this k)) := by
  have hroot : m.mp.root ≠ none := by
    rw [h.root]
    intro hnil
    rw [NodeTree.eq_nil_of_root hnil] at hk
    exact absurd hk (Nat.not_lt_zero k)
  by_cases hlast : k + 1 < t.cells.length
  · rw [place_of_lt hlast, decrement, if_neg hroot]
    change (if some t.cells[k + 1].1 = m.mp.head then _ else
      (m.mp.memory.neighbor .left t.cells[k + 1].1).bind _) = _
    rw [if_neg, h.neighbor_left (cells_split hlast), place_of_lt hk]
    · have hbefore : (t.cells.take (k + 1)).getLast? = some t.cells[k] := by
        rw [List.getLast?_take, if_neg (Nat.succ_ne_zero k),
          Nat.add_sub_cancel, List.getElem?_eq_getElem hk]
        rfl
      rw [hbefore]
      rfl
    · have hhead := hends.head
      rw [NodeTree.outer_left, List.head?_eq_getElem?,
        List.getElem?_eq_getElem (by omega)] at hhead
      rw [hhead]
      intro heq
      exact cell_ne h.nodup hlast (by omega) (by omega) (Option.some.inj heq)
  · rw [place_of_le (by omega), decrement, if_neg hroot]
    change (m.mp.outermost .right).bind _ = _
    rw [h.outermost, NodeTree.outer_right, List.getLast?_eq_getElem?,
      place_of_lt hk]
    have hindex : t.cells.length - 1 = k := by omega
    rw [hindex, List.getElem?_eq_getElem hk]
    rfl

theorem decrement_begin :
    m.decrement (m.begin this) = some (.error .invalidIterator) := by
  rw [begin_eq h hends this, decrement]
  cases t with
  | nil => exact if_pos h.root
  | node p a l r =>
      have hpos : 0 < (NodeTree.node p a l r).cells.length := by
        rw [NodeTree.length_cells]
        exact Nat.succ_pos _
      have hhead := hends.head
      rw [NodeTree.outer_left, List.head?_eq_getElem?,
        List.getElem?_eq_getElem hpos] at hhead
      rw [if_neg (by rw [h.root]; simp [NodeTree.root]), place_of_lt hpos]
      exact if_pos hhead.symm

/-- `n` times `++`; the end is not passed. -/
theorem advance_place (this : ℕ) (hk : k ≤ t.cells.length) (n : ℕ) :
    m.advance (place t this k) n =
      some (if k + n ≤ t.cells.length then .ok (place t this (k + n))
        else .error .invalidIterator) := by
  induction n generalizing k with
  | zero => rw [advance, Nat.add_zero, if_pos hk]
  | succ n ih =>
      rw [advance]
      rcases Nat.lt_or_eq_of_le hk with hlt | heq
      · rw [increment_place h hends hlt]
        change m.advance (place t this (k + 1)) n = _
        rw [ih (Nat.succ_le_of_lt hlt), show k + 1 + n = k + (n + 1) by omega]
      · rw [place_of_le heq.ge, if_neg (by omega)]
        rfl

/-- `n` times `--` -/
theorem retreat_place (hk : k ≤ t.cells.length) {n : ℕ} (hn : n ≤ k) :
    m.retreat (place t this k) n = some (.ok (place t this (k - n))) := by
  induction n generalizing k with
  | zero => rfl
  | succ n ih =>
      obtain ⟨k, rfl⟩ : ∃ j, k = j + 1 := ⟨k - 1, by omega⟩
      rw [retreat, decrement_place h hends hk]
      change m.retreat (place t this k) n = _
      rw [ih (by omega) (by omega), Nat.add_sub_add_right]

omit hends in
/-- The data at a place. -/
theorem deref_place (hk : k < t.cells.length) :
    m.deref (place t this k) = some (.ok t.cells[k].2.2) := by
  rw [place_of_lt hk, deref]
  change (m.mp.memory.getData t.cells[k].1).bind _ = _
  rw [h.getData_of_cell (List.getElem_mem hk)]
  rfl

end Map

end TicketSystem.Backend
