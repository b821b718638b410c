import TicketSystem.Support.NodeTreeMoves

/-!
# Walks along the nodes of a tree

The nodes of a tree from left to right, each at the end of its path, and the
tree with its nodes at consecutive addresses.
-/

namespace TicketSystem.Support

variable {α : Type*} {path path' : List (Frame α)} {p q k : ℕ} {a : α}

theorem cellsBefore_append (path path' : List (Frame α)) :
    cellsBefore (path ++ path') = cellsBefore path' ++ cellsBefore path := by
  induction path with
  | nil => simp [cellsBefore]
  | cons f path ih => rw [List.cons_append, cellsBefore, cellsBefore, ih,
      List.append_assoc]

theorem cellsAfter_append (path path' : List (Frame α)) :
    cellsAfter (path ++ path') = cellsAfter path ++ cellsAfter path' := by
  induction path with
  | nil => simp [cellsAfter]
  | cons f path ih => rw [List.cons_append, cellsAfter, cellsAfter, ih,
      List.append_assoc]

theorem TreeLinks.Agree.trans {k₁ k₂ k₃ : TreeLinks α}
    (h : k₁.Agree k₂ p) (h' : k₂.Agree k₃ p) : k₁.Agree k₃ p :=
  ⟨h'.content.trans h.content, fun s => (h'.child s).trans (h.child s),
    h'.fa.trans h.fa⟩

namespace NodeTree

variable {t : NodeTree α}

/-- A cell of a tree stands at the end of a path. -/
theorem exists_plug_cell {before after : List (ℕ × α)}
    (h : t.cells = before ++ (p, a) :: after) :
    ∃ path l r, t = plug path (node p a l r) ∧
      before = cellsBefore path ++ l.cells ∧
      after = r.cells ++ cellsAfter path := by
  induction t generalizing before after with
  | nil => exact absurd h (by simp [cells])
  | node q b l r ihl ihr =>
      rcases List.append_eq_append_iff.mp h with
        ⟨rest, hbefore, hrest⟩ | ⟨rest, hl, hrest⟩
      · cases rest with
        | nil =>
            obtain ⟨heq, rfl⟩ := List.cons.inj hrest
            obtain ⟨rfl, rfl⟩ := Prod.mk.inj heq
            exact ⟨[], l, r, rfl, by simpa [cellsBefore] using hbefore,
              by simp [cellsAfter]⟩
        | cons c rest =>
            obtain ⟨rfl, hr⟩ := List.cons.inj hrest
            obtain ⟨path, l', r', rfl, rfl, rfl⟩ := ihr hr
            refine ⟨path ++ [⟨.right, q, b, l⟩], l', r', ?_, ?_, ?_⟩
            · rw [plug_append]
              rfl
            · rw [hbefore, cellsBefore_append]
              simp [cellsBefore]
            · rw [cellsAfter_append]
              simp [cellsAfter]
      · cases rest with
        | nil =>
            obtain ⟨heq, rfl⟩ := List.cons.inj hrest
            obtain ⟨rfl, rfl⟩ := Prod.mk.inj heq
            exact ⟨[], l, r, rfl, by simpa [cellsBefore] using hl.symm,
              by simp [cellsAfter]⟩
        | cons c rest =>
            obtain ⟨rfl, rfl⟩ := List.cons.inj hrest
            obtain ⟨path, l', r', rfl, rfl, rfl⟩ := ihl hl
            refine ⟨path ++ [⟨.left, q, b, r⟩], l', r', ?_, ?_, ?_⟩
            · rw [plug_append]
              rfl
            · rw [cellsBefore_append]
              simp [cellsBefore]
            · rw [cellsAfter_append]
              simp [cellsAfter]

/-- The cells have the addresses of the nodes. -/
theorem cells_perm_nodes (t : NodeTree α) :
    (t.cells.map Prod.fst).Perm t.nodes := by
  induction t with
  | nil => exact .refl _
  | node p a l r ihl ihr =>
      rw [cells, nodes, List.map_append, List.map_cons]
      exact List.perm_middle.trans ((ihl.append ihr).cons p)

/-! ## Consecutive addresses -/

/-- The nodes get the addresses from `k` on, every node before its children. -/
def renumber : ℕ → NodeTree α → NodeTree α
  | _, nil => nil
  | k, node _ a l r =>
      node k a (l.renumber (k + 1)) (r.renumber (k + 1 + l.size))

@[simp] theorem size_renumber (k : ℕ) (t : NodeTree α) :
    (t.renumber k).size = t.size := by
  induction t generalizing k with
  | nil => rfl
  | node p a l r ihl ihr => rw [renumber, size, size, ihl, ihr]

theorem mem_nodes_renumber (h : q ∈ (t.renumber k).nodes) :
    k ≤ q ∧ q < k + t.size := by
  induction t generalizing k with
  | nil => cases h
  | node p a l r ihl ihr =>
      rw [size]
      rcases List.mem_cons.mp h with rfl | hq
      · omega
      · rcases List.mem_append.mp hq with hq | hq
        · have hl := ihl hq
          omega
        · have hr := ihr hq
          omega

theorem nodup_renumber (k : ℕ) (t : NodeTree α) :
    (t.renumber k).nodes.Nodup := by
  induction t generalizing k with
  | nil => exact List.nodup_nil
  | node p a l r ihl ihr =>
      refine List.nodup_cons.mpr ⟨?_, List.nodup_append.mpr ⟨ihl _, ihr _, ?_⟩⟩
      · intro hk
        rcases List.mem_append.mp hk with hk | hk
        · have hl := mem_nodes_renumber hk
          omega
        · have hr := mem_nodes_renumber hk
          omega
      · rintro q hq r hr rfl
        have hl := mem_nodes_renumber hq
        have hr := mem_nodes_renumber hr
        omega

/-- The contents keep their order. -/
theorem cells_renumber (k : ℕ) (t : NodeTree α) :
    (t.renumber k).cells.map Prod.snd = t.cells.map Prod.snd := by
  induction t generalizing k with
  | nil => rfl
  | node p a l r ihl ihr => simp [renumber, cells, ihl, ihr]

end NodeTree

end TicketSystem.Support
