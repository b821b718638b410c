import TicketSystem.Backend.RedBlackSteps

/-!
# Taking nodes out of a red-black tree

A full node changes its place and its colour with the next node, which is not
full, before it is taken out.
-/

namespace TicketSystem.Backend

open TicketSystem.Support

variable {K V : Type}

namespace RedBlackTree

variable {tree : RedBlackTree K V} {s : Side} {e : K × V}
  {a b : Color × K × V} {A B L R t : RBTree K V} {p q r : ℕ}
  {path rest : List (Frame (Color × K × V))} {c : Color}

/-! ## A node and the next one -/

/-- The node with another entry. -/
def withEntry (e : K × V) (a : Color × K × V) : Color × K × V :=
  (a.1, e)

/-- The memory in which the colours of two nodes are exchanged. -/
theorem exchange_colors (h : Holds tree (plug path (.join .left q a L
      (plug rest (.join .left r b .nil R))))) (hne : q ≠ r)
    {m : RBMemory K V} (hlive : m.live = tree.memory.live)
    (hdata : m.data = tree.memory.data)
    (hcolor : m.color = Function.update
      (Function.update tree.memory.color r a.1) q b.1)
    (htop : m.top = tree.memory.top) {root : Option ℕ}
    (hroot : root = (plug path (.join .left r (a.1, b.2) L
      (plug rest (.join .left q (b.1, a.2) .nil R)))).root)
    (hlinks : ∀ p ∈ (plug path (.join .left q a L
        (plug rest (.join .left r b .nil R)))).nodes,
      (∀ s, m.child s (Equiv.swap q r p) =
        (tree.memory.child s p).map (Equiv.swap q r)) ∧
        m.fa (Equiv.swap q r p) =
          (tree.memory.fa p).map (Equiv.swap q r)) :
    Holds { tree with memory := m, root := root }
      (plug path (.join .left r (a.1, b.2) L
        (plug rest (.join .left q (b.1, a.2) .nil R)))) := by
  have hq := h.reads
  have hwhole : Holds tree (plug (rest ++ ⟨.right, q, a, L⟩ :: path)
      (.join .left r b .nil R)) := by
    rw [plug_append]
    exact h
  have hr := hwhole.reads
  have hshape := exchange_plug (withEntry a.2) (withEntry b.2) h.nodup
  have hstands : (plug path (.join .left r (a.1, b.2) L
      (plug rest (.join .left q (b.1, a.2) .nil R)))).Stands m.links none := by
    change (plug path (.join .left r (withEntry b.2 a) L
      (plug rest (.join .left q (withEntry a.2 b) .nil R)))).Stands m.links none
    rw [← hshape]
    apply h.stands.exchange hne
    · intro p hpq hpr
      simp only [RBMemory.links, hlive, hdata, hcolor,
        Function.update_of_ne hpq, Function.update_of_ne hpr]
    · have hold : tree.memory.links.content r = some b :=
        RBMemory.content_eq_some.mpr ⟨hr.live, hr.color, hr.data⟩
      rw [hold]
      refine RBMemory.content_eq_some.mpr ⟨hlive ▸ hq.live, ?_,
        hdata ▸ hq.data⟩
      rw [hcolor, Function.update_self]
    · have hold : tree.memory.links.content q = some a :=
        RBMemory.content_eq_some.mpr ⟨hq.live, hq.color, hq.data⟩
      rw [hold]
      refine RBMemory.content_eq_some.mpr ⟨hlive ▸ hr.live, ?_,
        hdata ▸ hr.data⟩
      rw [hcolor, Function.update_of_ne hne.symm, Function.update_self]
    · exact fun p hp => (hlinks p hp).1
    · exact fun p hp => (hlinks p hp).2
  refine ⟨hstands, ?_, ?_, hroot⟩
  · have hnodes : (plug path (.join .left r (a.1, b.2) L
        (plug rest (.join .left q (b.1, a.2) .nil R)))).nodes =
          (plug path (.join .left q a L
            (plug rest (.join .left r b .nil R)))).nodes.map
              (Equiv.swap q r) := by
      have hnodes := congrArg NodeTree.nodes hshape
      rw [NodeTree.nodes_modify, NodeTree.nodes_modify,
        NodeTree.nodes_rename] at hnodes
      exact hnodes.symm
    rw [hnodes]
    exact h.nodup.map (Equiv.swap q r).injective
  · intro p hp
    rw [htop]
    exact h.bounded p (hlive ▸ hp)

/-- A full node changes its place and its colour with the next node. -/
theorem Holds.swapWithNext (h : Holds tree (plug path (.join .left q a L R)))
    (hL : L.root ≠ none) (hR : R.root ≠ none) :
    ∃ tree' rest r b R' x, R = plug rest (.join .left r b .nil R') ∧
      (plug rest (.join .left q (b.1, a.2) .nil R')).root = some x ∧
      tree.swapWithNext q = some (tree', ⟨r, x, L.root⟩) ∧
      tree'.len = tree.len ∧ tree'.memory.top = tree.memory.top ∧
      (∀ f ∈ rest, Frame.side f = .left) ∧
      Holds tree' (plug path (.join .left r (a.1, b.2) L
        (plug rest (.join .left q (b.1, a.2) .nil R')))) := by
  obtain ⟨r₀, hr₀⟩ := Option.ne_none_iff_exists'.mp hR
  obtain ⟨l₀, hl₀⟩ := Option.ne_none_iff_exists'.mp hL
  obtain ⟨r, hr⟩ := NodeTree.exists_outer hR .left
  obtain ⟨rest, b, R', rfl, hrest⟩ := exists_plug_outer hr
  have hlinks := exchangeLinks h.stands h.nodup
  have hlast : tree.memory.lastOn .left tree.memory.top r₀ = some r := by
    have hsize := h.size_le
    have hle : (plug rest (.join .left r b .nil R')).size ≤
        tree.memory.top := by
      refine le_trans ?_ hsize
      rw [← NodeTree.length_nodes, ← NodeTree.length_nodes,
        (nodes_plug path _).length_eq, List.length_append,
        (NodeTree.nodes_join ..).length_eq, List.length_cons,
        List.length_append]
      omega
    rw [h.other_child.lastOn .left hr₀ hle, hr]
  have hq := h.reads
  have hwhole : Holds tree (plug (rest ++ ⟨.right, q, a, L⟩ :: path)
      (.join .left r b .nil R')) := by
    rw [plug_append]
    exact h
  have hnext := hwhole.reads
  have hlive : ∀ p ∈ (plug path (.join .left q a L
      (plug rest (.join .left r b .nil R')))).nodes,
        tree.memory.live p = true := fun p hp => h.live hp
  let root : Option ℕ := if some q = tree.root then some r else tree.root
  have hroot : root =
      (plug path (.join .left r (a.1, b.2) L
        (plug rest (.join .left q (b.1, a.2) .nil R')))).root := by
    cases path with
    | nil =>
        have heq : some q = tree.root := by
          rw [h.root, plug, NodeTree.root_join]
        rw [plug, NodeTree.root_join]
        exact if_pos heq
    | cons f path =>
        obtain ⟨r', hr'⟩ := exists_root_plug f path
        have hne : some q ≠ tree.root := Holds.root_ne
          (show Holds tree (plug path (.join f.side f.p f.a _ f.sibling))
            from h) (NodeTree.root_join ..)
        rw [hr', ← hr' (.join .left q a L
          (plug rest (.join .left r b .nil R'))), ← h.root]
        exact if_neg hne
  let m := tree.memory
  let m₁ : RBMemory K V :=
    { m with color := Function.update m.color r a.1 }
  let m₂ : RBMemory K V :=
    { m₁ with color := Function.update m₁.color q b.1 }
  let m₃ : RBMemory K V :=
    { m₂ with child := redirect m.child (above path) q (some r) }
  let m₄ : RBMemory K V :=
    { m₃ with fa := Function.update m.fa r (above path) }
  have habove : ∀ f, above path = some f → tree.memory.live f = true :=
    fun f hf => h.live_above hf
  have hredirect : ∀ s p, p = q ∨ p = r → m₄.child s p = m.child s p := by
    rintro s p (rfl | rfl)
    · exact redirect_of_ne fun heq => hlinks.fa_ne.1 (hq.fa.trans heq)
    · exact redirect_of_ne fun heq => hlinks.fa_ne.2 (hq.fa.trans heq)
  have hR' : ∀ x, R'.root = some x → tree.memory.live x = true := by
    intro x hx
    apply hwhole.live_focus
    simp [NodeTree.root_mem hx]
  have hl₀live : tree.memory.live l₀ = true := by
    apply h.live_focus
    simp [NodeTree.root_mem hl₀]
  cases rest with
  | nil =>
      -- the next node is the right child
      let m₅ : RBMemory K V :=
        { m₄ with child := storeChild m₄.child .left q none }
      let m₆ : RBMemory K V :=
        { m₅ with child := storeChild m₅.child .right q R'.root }
      let m₇ : RBMemory K V :=
        { m₆ with fa := storeAt m₆.fa R'.root (some q) }
      let m₈ : RBMemory K V :=
        { m₇ with child := storeChild m₇.child .left r (some l₀) }
      let m₉ : RBMemory K V :=
        { m₈ with fa := Function.update m₈.fa l₀ (some r) }
      let m₁₀ : RBMemory K V :=
        { m₉ with child := storeChild m₉.child .right r (some q) }
      let m₁₁ : RBMemory K V :=
        { m₁₀ with fa := Function.update m₁₀.fa q (some r) }
      have hrfa : m.fa r = some q := hnext.fa
      have htmp : m₄.child .left q = some l₀ :=
        (hredirect .left q (.inl rfl)).trans (hq.child.trans hl₀)
      have hrl : m₄.child .left r = none :=
        (hredirect .left r (.inr rfl)).trans hnext.child
      have hrl' : m₅.child .left r = none := by
        change storeChild m₄.child .left q none .left r = none
        rw [storeChild_of_ne hlinks.ne.symm, hrl]
      have hrr : m₅.child .right r = R'.root := by
        change storeChild m₄.child .left q none .right r = _
        rw [storeChild_of_ne hlinks.ne.symm, hredirect _ _ (.inr rfl)]
        exact hnext.other
      have hrr' : m₆.child .right r = R'.root := by
        change storeChild m₅.child .right q R'.root .right r = _
        rw [storeChild_of_ne hlinks.ne.symm, hrr]
      have hfinal : m₁₁.child .right r = some q := storeChild_self
      have hfinal' : m₁₁.child .left r = some l₀ := by
        change storeChild m₉.child .right r (some q) .left r = _
        rw [storeChild_of_side_ne (by simp)]
        exact storeChild_self
      have hrun : tree.swapWithNext q =
          some ({ tree with memory := m₁₁, root := root },
            ⟨r, q, L.root⟩) := by
        change (m.get (m.child .right) q).bind _ = _
        rw [RBMemory.get_eq hq.live, show m.child .right q = some r₀ from
          hq.other.trans hr₀]
        change (m.lastOn .left m.top r₀).bind _ = _
        rw [hlast]
        change (m.get m.color r).bind _ = _
        rw [RBMemory.get_eq hnext.live, hnext.color]
        change (m.get m.color q).bind _ = _
        rw [RBMemory.get_eq hq.live, hq.color]
        change (m.put r m₁).bind _ = _
        rw [RBMemory.put_eq hnext.live]
        change (m₁.put q m₂).bind _ = _
        rw [RBMemory.put_eq (m := m₁) hq.live]
        change (m₂.get m₂.fa q).bind _ = _
        rw [RBMemory.get_eq (m := m₂) hq.live, show m₂.fa q = above path from
          hq.fa]
        change (m₂.get m₂.fa r).bind _ = _
        rw [RBMemory.get_eq (m := m₂) hnext.live, show m₂.fa r = some q from
          hrfa]
        change (m₂.unlessNull (above path) fun f =>
          m₂.replaceChild f q (some r)).bind _ = _
        rw [RBMemory.unlessNull_replaceChild (m := m₂) habove]
        change (m₃.put r m₄).bind _ = _
        rw [RBMemory.put_eq (m := m₃) hnext.live]
        change (if some q = some q then (m₄.get (m₄.child .left) q).bind _
          else _) = _
        rw [if_pos rfl, RBMemory.get_eq (m := m₄) hq.live, htmp]
        change (m₄.get (m₄.child .left) r).bind _ = _
        rw [RBMemory.get_eq (m := m₄) hnext.live, hrl]
        change (m₄.put q m₅).bind _ = _
        rw [RBMemory.put_eq (m := m₄) hq.live]
        change (m₅.get (m₅.child .left) r).bind _ = _
        rw [RBMemory.get_eq (m := m₅) hnext.live, hrl']
        change (m₅.get (m₅.child .right) r).bind _ = _
        rw [RBMemory.get_eq (m := m₅) hnext.live, hrr]
        change (m₅.put q m₆).bind _ = _
        rw [RBMemory.put_eq (m := m₅) hq.live]
        change (m₆.get (m₆.child .right) r).bind _ = _
        rw [RBMemory.get_eq (m := m₆) hnext.live, hrr']
        change (m₆.unlessNull R'.root fun x => m₆.setFa x (some q)).bind _ = _
        rw [RBMemory.unlessNull_setFa (m := m₆) hR']
        change (m₇.put r m₈).bind _ = _
        rw [RBMemory.put_eq (m := m₇) hnext.live]
        change (m₈.put l₀ m₉).bind _ = _
        rw [RBMemory.put_eq (m := m₈) hl₀live]
        change (m₉.put r m₁₀).bind _ = _
        rw [RBMemory.put_eq (m := m₉) hnext.live]
        change (m₁₀.put q m₁₁).bind _ = _
        rw [RBMemory.put_eq (m := m₁₀) hq.live]
        change (m₁₁.get (m₁₁.child .right) r).bind _ = _
        rw [RBMemory.get_eq (m := m₁₁) hnext.live, hfinal]
        change (m₁₁.get (m₁₁.child .left) r).bind _ = _
        rw [RBMemory.get_eq (m := m₁₁) hnext.live, hfinal', hl₀]
        rfl
      have hchild : m₁₁.links.child = storeChild (storeChild (storeChild
          (storeChild (redirect m.links.child (m.links.fa q) q (some r)) .left q
            none) .right q R'.root) .left r L.root) .right r (some q) := by
        rw [hl₀, show m.links.fa q = above path from hq.fa]
        rfl
      have hfa : m₁₁.links.fa = Function.update (storeAt (storeAt
          (Function.update m.links.fa r (m.links.fa q)) R'.root (some q))
            L.root (some r)) q (some r) := by
        rw [hl₀, show m.links.fa q = above path from hq.fa]
        rfl
      have hright : (plug [] (.join .left r b .nil R')).root = some r :=
        NodeTree.root_join ..
      rw [hright] at hlinks
      exact ⟨_, [], r, b, R', q, rfl, NodeTree.root_join .., hrun, rfl, rfl,
        List.forall_mem_nil _, exchange_colors (m := m₁₁) h hlinks.ne rfl rfl rfl rfl hroot
          fun p hp => hlinks.of_child hchild hfa hp⟩
  | cons g rest =>
      -- the next node stands further below
      obtain ⟨-, hapart⟩ := exchange_apart h.nodup
      have hgq : g.p ≠ q := by
        intro heq
        apply (hapart q (by simp)).2.2.1
        exact heq ▸ List.mem_cons_self
      have hg := hwhole.reads_cons
      have hgr : m.child .left g.p = some r := by
        have hchild := hg.child
        rw [hrest g List.mem_cons_self, NodeTree.root_join] at hchild
        exact hchild
      have hgr' : g.p ≠ r := by
        intro heq
        apply (hapart r (by simp)).2.2.1
        exact heq ▸ List.mem_cons_self
      let m₅ : RBMemory K V :=
        { m₄ with child := storeChild m₄.child .left g.p (some q) }
      let m₆ : RBMemory K V :=
        { m₅ with fa := Function.update m₅.fa q (some g.p) }
      let m₇ : RBMemory K V :=
        { m₆ with child := storeChild m₆.child .left r (some l₀) }
      let m₈ : RBMemory K V :=
        { m₇ with fa := Function.update m₇.fa l₀ (some r) }
      let m₉ : RBMemory K V :=
        { m₈ with child := storeChild m₈.child .right r (some r₀) }
      let m₁₀ : RBMemory K V :=
        { m₉ with fa := Function.update m₉.fa r₀ (some r) }
      let m₁₁ : RBMemory K V :=
        { m₁₀ with child := storeChild m₁₀.child .left q none }
      let m₁₂ : RBMemory K V :=
        { m₁₁ with child := storeChild m₁₁.child .right q R'.root }
      let m₁₃ : RBMemory K V :=
        { m₁₂ with fa := storeAt m₁₂.fa R'.root (some q) }
      have hrfa : m.fa r = some g.p := hnext.fa
      have hrr : m₆.child .right r = R'.root := by
        change storeChild m₄.child .left g.p (some q) .right r = _
        rw [storeChild_of_ne hgr'.symm, hredirect _ _ (.inr rfl)]
        exact hnext.other
      have hql : m₆.child .left q = some l₀ := by
        change storeChild m₄.child .left g.p (some q) .left q = _
        rw [storeChild_of_ne hgq.symm, hredirect _ _ (.inl rfl)]
        exact hq.child.trans hl₀
      have hql' : m₇.child .left q = some l₀ := by
        change storeChild m₆.child .left r (some l₀) .left q = _
        rw [storeChild_of_ne hlinks.ne, hql]
      have hqr : m₈.child .right q = some r₀ := by
        change storeChild m₆.child .left r (some l₀) .right q = _
        rw [storeChild_of_ne hlinks.ne]
        change storeChild m₄.child .left g.p (some q) .right q = _
        rw [storeChild_of_ne hgq.symm, hredirect _ _ (.inl rfl)]
        exact hq.other.trans hr₀
      have hqr' : m₉.child .right q = some r₀ := by
        change storeChild m₈.child .right r (some r₀) .right q = _
        rw [storeChild_of_ne hlinks.ne, hqr]
      have hr₀live : tree.memory.live r₀ = true := by
        apply h.live_focus
        rw [NodeTree.mem_nodes_join]
        exact .inr (.inr (NodeTree.root_mem hr₀))
      have hfinal : m₁₃.child .right r = some r₀ := by
        change storeChild m₁₁.child .right q R'.root .right r = _
        rw [storeChild_of_ne hlinks.ne.symm]
        change storeChild m₁₀.child .left q none .right r = _
        rw [storeChild_of_ne hlinks.ne.symm]
        exact storeChild_self
      have hfinal' : m₁₃.child .left r = some l₀ := by
        change storeChild m₁₁.child .right q R'.root .left r = _
        rw [storeChild_of_ne hlinks.ne.symm]
        change storeChild m₁₀.child .left q none .left r = _
        rw [storeChild_of_ne hlinks.ne.symm]
        change storeChild m₈.child .right r (some r₀) .left r = _
        rw [storeChild_of_side_ne (by simp)]
        exact storeChild_self
      have hbranch : ¬ some g.p = some q :=
        fun heq => hgq (Option.some.inj heq)
      have hrun : tree.swapWithNext q =
          some ({ tree with memory := m₁₃, root := root },
            ⟨r, r₀, L.root⟩) := by
        change (m.get (m.child .right) q).bind _ = _
        rw [RBMemory.get_eq hq.live, show m.child .right q = some r₀ from
          hq.other.trans hr₀]
        change (m.lastOn .left m.top r₀).bind _ = _
        rw [hlast]
        change (m.get m.color r).bind _ = _
        rw [RBMemory.get_eq hnext.live, hnext.color]
        change (m.get m.color q).bind _ = _
        rw [RBMemory.get_eq hq.live, hq.color]
        change (m.put r m₁).bind _ = _
        rw [RBMemory.put_eq hnext.live]
        change (m₁.put q m₂).bind _ = _
        rw [RBMemory.put_eq (m := m₁) hq.live]
        change (m₂.get m₂.fa q).bind _ = _
        rw [RBMemory.get_eq (m := m₂) hq.live, show m₂.fa q = above path from
          hq.fa]
        change (m₂.get m₂.fa r).bind _ = _
        rw [RBMemory.get_eq (m := m₂) hnext.live, show m₂.fa r = some g.p from
          hrfa]
        change (m₂.unlessNull (above path) fun f =>
          m₂.replaceChild f q (some r)).bind _ = _
        rw [RBMemory.unlessNull_replaceChild (m := m₂) habove]
        change (m₃.put r m₄).bind _ = _
        rw [RBMemory.put_eq (m := m₃) hnext.live]
        change (if some g.p = some q then _
          else (m₄.put g.p m₅).bind _) = _
        rw [if_neg hbranch, RBMemory.put_eq (m := m₄) hg.live]
        change (m₅.put q m₆).bind _ = _
        rw [RBMemory.put_eq (m := m₅) hq.live]
        change (m₆.get (m₆.child .right) r).bind _ = _
        rw [RBMemory.get_eq (m := m₆) hnext.live, hrr]
        change (m₆.get (m₆.child .left) q).bind _ = _
        rw [RBMemory.get_eq (m := m₆) hq.live, hql]
        change (m₆.put r m₇).bind _ = _
        rw [RBMemory.put_eq (m := m₆) hnext.live]
        change (m₇.get (m₇.child .left) q).bind _ = _
        rw [RBMemory.get_eq (m := m₇) hq.live, hql']
        change (m₇.put l₀ m₈).bind _ = _
        rw [RBMemory.put_eq (m := m₇) hl₀live]
        change (m₈.get (m₈.child .right) q).bind _ = _
        rw [RBMemory.get_eq (m := m₈) hq.live, hqr]
        change (m₈.put r m₉).bind _ = _
        rw [RBMemory.put_eq (m := m₈) hnext.live]
        change (m₉.get (m₉.child .right) q).bind _ = _
        rw [RBMemory.get_eq (m := m₉) hq.live, hqr']
        change (m₉.put r₀ m₁₀).bind _ = _
        rw [RBMemory.put_eq (m := m₉) hr₀live]
        change (m₁₀.put q m₁₁).bind _ = _
        rw [RBMemory.put_eq (m := m₁₀) hq.live]
        change (m₁₁.put q m₁₂).bind _ = _
        rw [RBMemory.put_eq (m := m₁₁) hq.live]
        change (m₁₂.unlessNull R'.root fun x =>
          m₁₂.setFa x (some q)).bind _ = _
        rw [RBMemory.unlessNull_setFa (m := m₁₂) hR']
        change (m₁₃.get (m₁₃.child .right) r).bind _ = _
        rw [RBMemory.get_eq (m := m₁₃) hnext.live, hfinal]
        change (m₁₃.get (m₁₃.child .left) r).bind _ = _
        rw [RBMemory.get_eq (m := m₁₃) hnext.live, hfinal', hl₀]
        rfl
      have hchild : m₁₃.links.child = storeChild (storeChild (storeChild
          (storeChild (storeChild (redirect m.links.child (m.links.fa q) q
            (some r)) .left g.p (some q)) .left r L.root) .right r
              (plug (g :: rest) (.join .left r b .nil R')).root) .left q none)
                .right q R'.root := by
        rw [hl₀, hr₀, show m.links.fa q = above path from hq.fa]
        rfl
      have hfa : m₁₃.links.fa = storeAt (storeAt (storeAt (Function.update
          (Function.update m.links.fa r (m.links.fa q)) q (some g.p)) L.root
            (some r)) (plug (g :: rest) (.join .left r b .nil R')).root
              (some r)) R'.root (some q) := by
        rw [hl₀, hr₀, show m.links.fa q = above path from hq.fa]
        rfl
      have hgmem : g.p ∈ (plug path (.join .left q a L
          (plug (g :: rest) (.join .left r b .nil R')))).nodes := by
        refine (nodes_plug _ _).mem_iff.mpr (List.mem_append_left _ ?_)
        rw [NodeTree.mem_nodes_join, (nodes_plug _ _).mem_iff]
        exact .inr (.inr (List.mem_append_right _ List.mem_cons_self))
      obtain ⟨x, hx⟩ := exists_root_plug g rest
      have hx₀ : x = r₀ :=
        Option.some.inj ((hx (.join .left r b .nil R')).symm.trans hr₀)
      subst hx₀
      exact ⟨_, g :: rest, r, b, R', x, rfl, hx _, hrun, rfl, rfl, hrest,
        exchange_colors (m := m₁₃) h hlinks.ne rfl rfl rfl rfl hroot fun p hp =>
          hlinks.of_below hgmem hgr hgq hchild hfa hp⟩

/-! ## A leaf -/

/-- The memory without a node that has no children. -/
theorem Holds.unlink {f : Frame (Color × K × V)}
    (h : Holds tree (plug (f :: path) (.join s q a .nil .nil))) :
    ∃ m₁ m₂, tree.memory.replaceChild f.p q none = some m₁ ∧
      m₁.deleteNode q = some m₂ ∧ m₂.top = tree.memory.top ∧
      ∀ len, Holds { tree with memory := m₂, len := len }
        (plug (f :: path) .nil) := by
  have hq := h.reads
  have hf := h.reads_cons
  have hnodes := (nodes_plug _ _).nodup_iff.mp h.nodup
  have hfresh : q ∉ pathNodes (f :: path) := fun hmem =>
    (List.nodup_append.mp hnodes).2.2 q (by simp) q hmem rfl
  have hpathnodup := (List.nodup_append.mp hnodes).2.1
  have hpath := (stands_plug.mp h.stands).1
  rw [NodeTree.root_join] at hpath
  let m₁ : RBMemory K V := { tree.memory with
    child := redirect tree.memory.child (some f.p) q none }
  refine ⟨m₁, _, RBMemory.replaceChild_eq hf.live none,
    RBMemory.put_eq (m := m₁) hq.live _, rfl, fun len => ?_⟩
  refine ⟨stands_plug.mpr ⟨?_, trivial⟩, ?_, ?_, ?_⟩
  · apply hpath.redirect hpathnodup hfresh
    · intro r hr
      have hne : r ≠ q := fun heq => hfresh (heq ▸ hr)
      change (if Function.update tree.memory.live q false r = true then _
        else none) = _
      rw [Function.update_of_ne hne]
      rfl
    · exact fun r _ => rfl
    · exact fun r _ s => rfl
  · exact (nodes_plug _ _).nodup_iff.mpr hpathnodup
  · intro r hr
    apply h.bounded r
    change Function.update tree.memory.live q false r = true at hr
    by_cases heq : r = q
    · rw [heq]
      exact hq.live
    · rwa [Function.update_of_ne heq] at hr
  · obtain ⟨r, hr⟩ := exists_root_plug f path
    exact h.root.trans ((hr _).trans (hr _).symm)

end RedBlackTree

end TicketSystem.Backend
