import TicketSystem.Backend.RedBlackSteps
import TicketSystem.Support.NodeTreeWalk

/-!
# Copies of red-black trees

`make_empty` deletes the nodes of a tree; `clone` makes them anew, in the order
in which the recursion meets them.
-/

namespace TicketSystem.Backend

open TicketSystem.Support

variable {K V : Type}

namespace RedBlackTree

variable {tree other : RedBlackTree K V} {m src : RBMemory K V} {t : RBTree K V}
  {f : Option ℕ} {fuel : ℕ}

/-! ## Deletion -/

/-- The nodes of the tree are deleted, and others are left alone. -/
theorem makeEmpty_spec (h : t.Stands m.links f) (hnodup : t.nodes.Nodup)
    (hfuel : t.size ≤ fuel) :
    ∃ m', makeEmpty m fuel t.root = some m' ∧ m'.top = m.top ∧
      (∀ q, m'.live q = true → m.live q = true) ∧
      ∀ q, q ∉ t.nodes → m.links.Agree m'.links q := by
  induction t generalizing m f fuel with
  | nil =>
      refine ⟨m, ?_, rfl, fun _ hq => hq, fun q _ => ⟨rfl, fun _ => rfl, rfl⟩⟩
      cases fuel <;> rfl
  | node p a l r ihl ihr =>
      obtain ⟨ha, -, hl, hr, hleft, hright⟩ := h
      obtain ⟨hfresh, hboth⟩ := List.nodup_cons.mp hnodup
      obtain ⟨hlnodup, hrnodup, hdisjoint⟩ := List.nodup_append.mp hboth
      rw [NodeTree.size] at hfuel
      obtain ⟨fuel, rfl⟩ : ∃ n, fuel = n + 1 := ⟨fuel - 1, by omega⟩
      have hlive := RBMemory.live_of_content (ha ▸ Option.some_ne_none a)
      obtain ⟨m₁, hrun₁, htop₁, hlive₁, hagree₁⟩ :=
        ihl hleft hlnodup (show l.size ≤ fuel by omega)
      have hp₁ := hagree₁ p fun hp => hfresh (List.mem_append_left _ hp)
      have hright₁ : r.Stands m₁.links (some p) := hright.congr fun q hq =>
        hagree₁ q fun hq' => hdisjoint q hq' q hq rfl
      have hplive₁ : m₁.live p = true := by
        apply RBMemory.live_of_content
        rw [hp₁.content, ha]
        exact Option.some_ne_none a
      obtain ⟨m₂, hrun₂, htop₂, hlive₂, hagree₂⟩ :=
        ihr hright₁ hrnodup (show r.size ≤ fuel by omega)
      have hp₂ := hagree₂ p fun hp => hfresh (List.mem_append_right _ hp)
      have hplive₂ : m₂.live p = true := by
        apply RBMemory.live_of_content
        rw [hp₂.content, hp₁.content, ha]
        exact Option.some_ne_none a
      let m₃ : RBMemory K V :=
        { m₂ with live := Function.update m₂.live p false }
      refine ⟨m₃, ?_, htop₂.trans htop₁, ?_, ?_⟩
      · change (m.get (m.child .left) p).bind _ = _
        rw [RBMemory.get_eq hlive, show m.child .left p = l.root from hl]
        change (makeEmpty m fuel l.root).bind _ = _
        rw [hrun₁]
        change (m₁.get (m₁.child .right) p).bind _ = _
        rw [RBMemory.get_eq hplive₁, show m₁.child .right p = r.root from
          (hp₁.child .right).trans hr]
        change (makeEmpty m₁ fuel r.root).bind _ = _
        rw [hrun₂]
        exact RBMemory.put_eq hplive₂ m₃
      · intro q hq
        change Function.update m₂.live p false q = true at hq
        by_cases hqp : q = p
        · rw [hqp]
          exact hlive
        · rw [Function.update_of_ne hqp] at hq
          exact hlive₁ q (hlive₂ q hq)
      · intro q hq
        have hqp : q ≠ p := fun heq => hq (heq ▸ List.mem_cons_self)
        have hq₁ := hagree₁ q fun hq' =>
          hq (List.mem_cons_of_mem _ (List.mem_append_left _ hq'))
        have hq₂ := hagree₂ q fun hq' =>
          hq (List.mem_cons_of_mem _ (List.mem_append_right _ hq'))
        refine hq₁.trans (hq₂.trans ⟨?_, fun _ => rfl, rfl⟩)
        change (if Function.update m₂.live p false q = true then _ else none) = _
        rw [Function.update_of_ne hqp]
        rfl

/-! ## New nodes -/

/-- The tree stands at new addresses, and the old ones are left alone. -/
theorem clone_spec (h : t.Stands src.links f) (hfuel : t.size ≤ fuel) :
    ∃ m', clone src fuel m t.root = some (m', (t.renumber m.top).root) ∧
      m'.top = m.top + t.size ∧ (t.renumber m.top).Stands m'.links none ∧
      (∀ q < m.top, m.links.Agree m'.links q) ∧
      ((∀ q, m.live q = true → q < m.top) →
        ∀ q, m'.live q = true → q < m'.top) := by
  induction t generalizing m f fuel with
  | nil =>
      refine ⟨m, ?_, rfl, trivial, fun q _ => ⟨rfl, fun _ => rfl, rfl⟩,
        fun hm => hm⟩
      cases fuel <;> rfl
  | node p a l r ihl ihr =>
      obtain ⟨ha, -, hl, hr, hleft, hright⟩ := h
      obtain ⟨hplive, hpcolor, hpdata⟩ := RBMemory.content_eq_some.mp ha
      rw [NodeTree.size] at hfuel
      obtain ⟨fuel, rfl⟩ : ∃ n, fuel = n + 1 := ⟨fuel - 1, by omega⟩
      let k := m.top
      let m₁ := (m.newNode a.2 a.1 none).2
      obtain ⟨m₂, hrun₂, htop₂, hl₂, hagree₂, hbounded₂⟩ :=
        ihl (m := m₁) hleft (show l.size ≤ fuel by omega)
      have hk₂ := hagree₂ k (Nat.lt_succ_self k)
      have hcontent₁ : m₁.links.content k = some a :=
        RBMemory.content_eq_some.mpr ⟨Function.update_self ..,
          Function.update_self .., Function.update_self ..⟩
      have hlive₂ : m₂.live k = true := by
        apply RBMemory.live_of_content
        rw [hk₂.content, hcontent₁]
        exact Option.some_ne_none a
      let l' := l.renumber (k + 1)
      let m₃ : RBMemory K V :=
        { m₂ with child := storeChild m₂.child .left k l'.root }
      obtain ⟨m₄, hrun₄, htop₄, hr₄, hagree₄, hbounded₄⟩ :=
        ihr (m := m₃) hright (show r.size ≤ fuel by omega)
      have hk₃ : k < m₃.top := by
        change k < m₂.top
        rw [htop₂]
        change k < k + 1 + l.size
        omega
      have hk₄ := hagree₄ k hk₃
      have hlive₄ : m₄.live k = true := by
        apply RBMemory.live_of_content
        rw [hk₄.content]
        change m₂.links.content k ≠ none
        rw [hk₂.content, hcontent₁]
        exact Option.some_ne_none a
      have htop₃ : m₃.top = k + 1 + l.size := htop₂
      rw [htop₃] at hr₄ hrun₄ htop₄
      let r' := r.renumber (k + 1 + l.size)
      let m₅ : RBMemory K V :=
        { m₄ with child := storeChild m₄.child .right k r'.root }
      let m₆ : RBMemory K V := { m₅ with fa := storeAt m₅.fa l'.root (some k) }
      let m₇ : RBMemory K V := { m₆ with fa := storeAt m₆.fa r'.root (some k) }
      have hl'range : ∀ q ∈ l'.nodes, k + 1 ≤ q ∧ q < k + 1 + l.size :=
        fun q => NodeTree.mem_nodes_renumber
      have hr'range : ∀ q ∈ r'.nodes, k + 1 + l.size ≤ q :=
        fun q hq => (NodeTree.mem_nodes_renumber hq).1
      -- what the writes after the calls for the subtrees leave alone
      have hkeep : ∀ q, q ≠ k → l'.root ≠ some q → r'.root ≠ some q →
          m₄.links.Agree m₇.links q := by
        intro q hqk hql hqr
        refine ⟨rfl, fun s => storeChild_of_ne hqk, ?_⟩
        exact (storeAt_of_ne hqr).trans (storeAt_of_ne hql)
      have hkeep₃ : ∀ q, q ≠ k → m₂.links.Agree m₃.links q := fun q hqk =>
        ⟨rfl, fun s => storeChild_of_ne hqk, rfl⟩
      have hleft₄ : ∀ q ∈ l'.nodes, m₂.links.Agree m₄.links q := by
        intro q hq
        have hrange := hl'range q hq
        have hq₃ := hkeep₃ q (by omega)
        exact hq₃.trans (hagree₄ q (by rw [htop₃]; exact hrange.2))
      have hkl : m₅.child .left k = l'.root := by
        change storeChild m₄.child .right k r'.root .left k = _
        rw [storeChild_of_side_ne (by simp)]
        refine (hk₄.child .left).trans ?_
        exact storeChild_self
      have hkr : m₆.child .right k = r'.root := storeChild_self
      have hllive : ∀ q, l'.root = some q → m₅.live q = true := by
        intro q hq
        have hmem := NodeTree.root_mem hq
        apply RBMemory.live_of_content (m := m₄)
        rw [(hleft₄ q hmem).content]
        exact hl₂.content_ne hmem
      have hrlive : ∀ q, r'.root = some q → m₆.live q = true := by
        intro q hq
        exact RBMemory.live_of_content (m := m₄)
          (hr₄.content_ne (NodeTree.root_mem hq))
      refine ⟨m₇, ?_, ?_, ⟨?_, ?_, ?_, ?_, ?_, ?_⟩, ?_, ?_⟩
      · change (src.getData p).bind _ = _
        rw [RBMemory.getData_eq hplive hpdata]
        change (src.get src.color p).bind _ = _
        rw [RBMemory.get_eq hplive, hpcolor]
        change (src.get (src.child .left) p).bind _ = _
        rw [RBMemory.get_eq hplive, show src.child .left p = l.root from hl]
        change (clone src fuel m₁ l.root).bind _ = _
        rw [hrun₂]
        change (m₂.put k m₃).bind _ = _
        rw [RBMemory.put_eq hlive₂]
        change (src.get (src.child .right) p).bind _ = _
        rw [RBMemory.get_eq hplive, show src.child .right p = r.root from hr]
        change (clone src fuel m₃ r.root).bind _ = _
        rw [hrun₄]
        change (m₄.put k m₅).bind _ = _
        rw [RBMemory.put_eq hlive₄]
        change (m₅.get (m₅.child .left) k).bind _ = _
        rw [RBMemory.get_eq (m := m₅) hlive₄, hkl]
        change (m₅.unlessNull l'.root fun q => m₅.setFa q (some k)).bind _ = _
        rw [RBMemory.unlessNull_setFa hllive]
        change (m₆.get (m₆.child .right) k).bind _ = _
        rw [RBMemory.get_eq (m := m₆) hlive₄, hkr]
        change (m₆.unlessNull r'.root fun q => m₆.setFa q (some k)).bind _ = _
        rw [RBMemory.unlessNull_setFa hrlive]
        rfl
      · change m₄.top = _
        rw [htop₄, NodeTree.size]
        change k + 1 + l.size + r.size = k + (l.size + r.size + 1)
        omega
      · exact (hk₄.content.trans hk₂.content).trans hcontent₁
      · have hnone : m₄.fa k = none :=
          (hk₄.fa.trans hk₂.fa).trans (Function.update_self ..)
        change storeAt m₆.fa r'.root (some k) k = none
        rw [storeAt_of_ne fun hroot => absurd
          (hr'range k (NodeTree.root_mem hroot)) (by omega)]
        change storeAt m₅.fa l'.root (some k) k = none
        rw [storeAt_of_ne fun hroot => absurd
          (hl'range k (NodeTree.root_mem hroot)).1 (by omega)]
        exact hnone
      · exact hkl
      · exact hkr
      · have hrne : ∀ q ∈ l'.nodes, r'.root ≠ some q := by
          intro q hq hroot
          have hl := hl'range q hq
          have hr := hr'range q (NodeTree.root_mem hroot)
          omega
        apply hl₂.reparent (NodeTree.nodup_renumber ..)
        · intro q hq
          have hmem := NodeTree.root_mem hq
          have hqk : q ≠ k := by
            have hrange := hl'range q hmem
            omega
          refine ⟨(hleft₄ q hmem).content, fun s => ?_, ?_⟩
          · exact (storeChild_of_ne hqk).trans ((hleft₄ q hmem).child s)
          · change storeAt m₆.fa r'.root (some k) q = some k
            rw [storeAt_of_ne (hrne q hmem)]
            change storeAt m₅.fa l'.root (some k) q = some k
            rw [show l'.root = some q from hq, storeAt_self]
        · intro q hq hroot
          have hqk : q ≠ k := by
            have hrange := hl'range q hq
            omega
          exact (hleft₄ q hq).trans (hkeep q hqk hroot (hrne q hq))
      · have hlne : ∀ q ∈ r'.nodes, l'.root ≠ some q := by
          intro q hq hroot
          have hr := hr'range q hq
          have hl := hl'range q (NodeTree.root_mem hroot)
          omega
        apply hr₄.reparent (NodeTree.nodup_renumber ..)
        · intro q hq
          have hmem := NodeTree.root_mem hq
          have hqk : q ≠ k := by
            have hrange := hr'range q hmem
            omega
          refine ⟨rfl, fun s => storeChild_of_ne hqk, ?_⟩
          change storeAt m₆.fa r'.root (some k) q = some k
          rw [show r'.root = some q from hq, storeAt_self]
        · intro q hq hroot
          have hqk : q ≠ k := by
            have hrange := hr'range q hq
            omega
          exact hkeep q hqk (hlne q hq) hroot
      · intro q hq
        have hqk : q ≠ k := hq.ne
        have hq₁ : m.links.Agree m₁.links q := by
          refine ⟨?_, fun s => Function.update_of_ne hqk _ _,
            Function.update_of_ne hqk _ _⟩
          change (if Function.update m.live k true q = true then
            (Function.update m.data k (some a.2) q).map fun e =>
              (Function.update m.color k a.1 q, e) else none) = _
          rw [Function.update_of_ne hqk, Function.update_of_ne hqk,
            Function.update_of_ne hqk]
          rfl
        have hq₂ := hagree₂ q (Nat.lt_succ_of_lt hq)
        have hq₃ := hkeep₃ q hqk
        have hq₄ := hagree₄ q (hq.trans hk₃)
        have hq₇ := hkeep q hqk
          (fun hroot => absurd (hl'range q (NodeTree.root_mem hroot)).1
            (by omega))
          (fun hroot => absurd (hr'range q (NodeTree.root_mem hroot))
            (by omega))
        exact hq₁.trans (hq₂.trans (hq₃.trans (hq₄.trans hq₇)))
      · intro hm
        apply hbounded₄
        apply hbounded₂
        intro q hq
        change Function.update m.live k true q = true at hq
        change q < k + 1
        by_cases hqk : q = k
        · omega
        · rw [Function.update_of_ne hqk] at hq
          exact Nat.lt_succ_of_lt (hm q hq)

/-! ## Copies -/

/-- The colours do not depend on the addresses. -/
theorem balanced_renumber {c : Color} {n : ℕ} (h : Balanced t c n) (k : ℕ) :
    Balanced (t.renumber k) c n := by
  induction h generalizing k with
  | nil => exact .nil
  | red _ _ ihA ihB => exact .red (ihA _) (ihB _)
  | black _ _ ihA ihB => exact .black (ihA _) (ihB _)

theorem entries_renumber (k : ℕ) (t : RBTree K V) :
    entries (t.renumber k) = entries t := by
  have hcells := congrArg (List.map Prod.snd) (NodeTree.cells_renumber k t)
  rw [List.map_map, List.map_map] at hcells
  exact hcells

/-- The tree stands in a memory of its own. -/
theorem Holds.copy (h : Holds other t) :
    ∃ tree', other.copy = some tree' ∧ tree'.len = other.len ∧
      Holds tree' (t.renumber 0) ∧ EndsAt tree' (t.renumber 0) := by
  obtain ⟨m, hclone, -, hstands, -, hbounded⟩ :=
    clone_spec (m := .empty) h.stands h.size_le
  let tree : RedBlackTree K V :=
    { memory := m, root := (t.renumber 0).root, head := none, rear := none
      len := other.len }
  have hholds : Holds tree (t.renumber 0) :=
    ⟨hstands, NodeTree.nodup_renumber .., hbounded nofun, rfl⟩
  obtain ⟨tree', hends, hlen, -, h', hat⟩ := hholds.setEnds
  refine ⟨tree', ?_, hlen, h', hat⟩
  change (clone other.memory other.memory.top .empty other.root).bind _ = _
  rw [h.root, hclone]
  exact hends

/-- The tree stands in the memory of another one, which is gone. -/
theorem Holds.assign {u : RBTree K V} (h : Holds tree t) (hu : Holds other u) :
    ∃ tree', tree.assign other = some tree' ∧ tree'.len = other.len ∧
      Holds tree' (u.renumber tree.memory.top) ∧
      EndsAt tree' (u.renumber tree.memory.top) := by
  obtain ⟨m₁, hempty, htop₁, hlive₁, -⟩ :=
    makeEmpty_spec h.stands h.nodup h.size_le
  obtain ⟨m₂, hclone, htop₂, hstands, -, hbounded⟩ :=
    clone_spec (m := m₁) hu.stands hu.size_le
  rw [htop₁] at hclone hstands hbounded
  let tree₂ : RedBlackTree K V :=
    { tree with memory := m₂, root := (u.renumber tree.memory.top).root }
  have hholds : Holds tree₂ (u.renumber tree.memory.top) :=
    ⟨hstands, NodeTree.nodup_renumber ..,
      hbounded fun q hq => h.bounded q (hlive₁ q hq), rfl⟩
  obtain ⟨tree', hends, -, -, h', hat⟩ := hholds.setEnds
  refine ⟨{ tree' with len := other.len }, ?_, rfl,
    ⟨h'.stands, h'.nodup, h'.bounded, h'.root⟩, hat.head, hat.rear⟩
  change (makeEmpty tree.memory tree.memory.top tree.root).bind _ = _
  rw [h.root, hempty]
  change (clone other.memory other.memory.top m₁ other.root).bind _ = _
  rw [hu.root, hclone]
  change tree₂.setEnds.bind _ = _
  rw [hends]
  rfl

/-- Nothing stands in memory any more. -/
theorem Holds.makeEmpty (h : Holds tree t) :
    ∃ m, RedBlackTree.makeEmpty tree.memory tree.memory.top tree.root =
        some m ∧
      Holds { memory := m, root := none, head := none, rear := none, len := 0 }
        (.nil : RBTree K V) := by
  obtain ⟨m, hempty, htop, hlive, -⟩ :=
    makeEmpty_spec h.stands h.nodup h.size_le
  refine ⟨m, h.root ▸ hempty, trivial, List.nodup_nil, fun q hq => ?_, rfl⟩
  rw [htop]
  exact h.bounded q (hlive q hq)

end RedBlackTree

end TicketSystem.Backend
