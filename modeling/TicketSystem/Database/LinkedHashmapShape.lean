import Mathlib
import TicketSystem.Database.LinkedHashmap

/-!
# The two lists of a linked hash map

Every live node stands in the order list and in the chain of its hash.  The
functions of the container are followed on these lists: the links they write
are the insertions and removals of `DoublyLinked`.
-/

namespace TicketSystem.Database

open TicketSystem.Support

variable {K V : Type}

/-! ## Writes -/

namespace NodeMemory

variable {m : NodeMemory K V} {p x : ℕ} {α : Type}

theorem get_eq (h : m.live p = true) (field : ℕ → α) :
    m.get field p = some (field p) :=
  if_pos h

theorem put_eq (h : m.live p = true) (written : NodeMemory K V) :
    m.put p written = some written :=
  if_pos h

theorem getPacket_eq {packet : K × V} (h : m.live p = true)
    (hpacket : m.packet p = some packet) : m.getPacket p = some packet := by
  rw [getPacket, get_eq h, hpacket]
  rfl

theorem insertAfterHash_eq (hx : m.live x = true) (hp : m.live p = true)
    (hnext : ∀ q, m.nextHash p = some q → m.live q = true) :
    m.insertAfterHash x p =
      some { m with
        nextHash := linkNext m.nextHash x p
        prevHash := linkPrev m.nextHash m.prevHash x p } := by
  cases hq : m.nextHash p with
  | none =>
      simp [insertAfterHash, get, put, setNextHash, setPrevHash, unlessNull,
        hx, hp, hq, linkNext, linkPrev, storeAt]
  | some q =>
      simp [insertAfterHash, get, put, setNextHash, setPrevHash, unlessNull,
        hx, hp, hq, hnext q hq, linkNext, linkPrev, storeAt]

theorem insertBeforeLink_eq (hx : m.live x = true) (hp : m.live p = true)
    (hprev : ∀ q, m.prevList p = some q → m.live q = true) :
    m.insertBeforeLink x p =
      some { m with
        nextList := linkPrev m.prevList m.nextList x p
        prevList := linkNext m.prevList x p } := by
  cases hq : m.prevList p with
  | none =>
      simp [insertBeforeLink, get, put, setNextList, setPrevList, unlessNull,
        hx, hp, hq, linkNext, linkPrev, storeAt]
  | some q =>
      simp [insertBeforeLink, get, put, setNextList, setPrevList, unlessNull,
        hx, hp, hq, hprev q hq, linkNext, linkPrev, storeAt]

/-- A write through a pointer that is null or leads to a live node. -/
theorem unlessNull_eq {q : Option ℕ}
    {write : ℕ → Option (NodeMemory K V)} {written : NodeMemory K V}
    (hlive : ∀ r, q = some r → m.live r = true)
    (hwrite : ∀ r, q = some r → write r = m.put r written)
    (hnone : q = none → m = written) :
    m.unlessNull q write = some written := by
  cases q with
  | none => exact congrArg some (hnone rfl)
  | some r => exact (hwrite r rfl).trans (put_eq (hlive r rfl) written)

/-- The lists without the node `x`. -/
def unlinked (m : NodeMemory K V) (x : ℕ) : NodeMemory K V :=
  { m with
    nextList := storeAt m.nextList (m.prevList x) (m.nextList x)
    prevList := storeAt m.prevList (m.nextList x) (m.prevList x)
    nextHash := storeAt m.nextHash (m.prevHash x) (m.nextHash x)
    prevHash := storeAt m.prevHash (m.nextHash x) (m.prevHash x) }

theorem delete_eq (hx : m.live x = true)
    (hprevList : ∀ q, m.prevList x = some q → m.live q = true)
    (hnextList : ∀ q, m.nextList x = some q → m.live q = true)
    (hprevHash : ∀ q, m.prevHash x = some q → m.live q = true)
    (hnextHash : ∀ q, m.nextHash x = some q → m.live q = true) :
    m.delete x = some (m.unlinked x) := by
  -- the four writes, in the order of the source
  let m₁ : NodeMemory K V :=
    { m with nextList := storeAt m.nextList (m.prevList x) (m.nextList x) }
  let m₂ : NodeMemory K V :=
    { m₁ with prevList := storeAt m.prevList (m.nextList x) (m.prevList x) }
  let m₃ : NodeMemory K V :=
    { m₂ with nextHash := storeAt m.nextHash (m.prevHash x) (m.nextHash x) }
  let m₄ : NodeMemory K V :=
    { m₃ with prevHash := storeAt m.prevHash (m.nextHash x) (m.prevHash x) }
  have h₁ : (m.unlessNull (m.prevList x) fun prev => do
      m.setNextList prev (← m.get m.nextList x)) = some m₁ := by
    apply unlessNull_eq hprevList
    · intro q hq
      rw [get_eq hx]
      simp only [m₁, hq]
      rfl
    · intro hq
      simp only [m₁, hq, storeAt]
  have h₂ : (m₁.unlessNull (m.nextList x) fun next => do
      m₁.setPrevList next (← m₁.get m₁.prevList x)) = some m₂ := by
    apply unlessNull_eq (m := m₁) hnextList
    · intro q hq
      rw [get_eq (m := m₁) hx]
      simp only [m₂, hq]
      rfl
    · intro hq
      simp only [m₂, hq, storeAt]
      rfl
  have h₃ : (m₂.unlessNull (m.prevHash x) fun prev => do
      m₂.setNextHash prev (← m₂.get m₂.nextHash x)) = some m₃ := by
    apply unlessNull_eq (m := m₂) hprevHash
    · intro q hq
      rw [get_eq (m := m₂) hx]
      simp only [m₃, hq]
      rfl
    · intro hq
      simp only [m₃, hq, storeAt]
      rfl
  have h₄ : (m₃.unlessNull (m.nextHash x) fun next => do
      m₃.setPrevHash next (← m₃.get m₃.prevHash x)) = some m₄ := by
    apply unlessNull_eq (m := m₃) hnextHash
    · intro q hq
      rw [get_eq (m := m₃) hx]
      simp only [m₄, hq]
      rfl
    · intro hq
      simp only [m₄, hq, storeAt]
      rfl
  have hlist : m₁.nextList x = m.nextList x := storeAt_keep
  have hhash : m₃.nextHash x = m.nextHash x := storeAt_keep
  rw [delete, get_eq hx]
  change (m.unlessNull (m.prevList x) _).bind _ = _
  rw [h₁, Option.bind_some, get_eq (m := m₁) hx, hlist]
  change (m₁.unlessNull (m.nextList x) _).bind _ = _
  rw [h₂, Option.bind_some, get_eq (m := m₂) hx]
  change (m₂.unlessNull (m.prevHash x) _).bind _ = _
  rw [h₃, Option.bind_some, get_eq (m := m₃) hx, hhash]
  exact h₄

end NodeMemory

/-! ## The lists -/

/-- The addresses of the entries. -/
abbrev nodesOf (es : List (ℕ × K × V)) : List ℕ :=
  es.map Prod.fst

/-- The order list leads from `head` over the entries to `tail`. -/
structure Ordered (m : NodeMemory K V) (head tail : ℕ)
    (es : List (ℕ × K × V)) : Prop where
  segment : Segment m.nextList m.prevList head (nodesOf es) (some tail)
  nodup : (head :: nodesOf es ++ [tail]).Nodup
  live : ∀ p ∈ head :: nodesOf es ++ [tail], m.live p = true
  packet : ∀ e ∈ es, m.packet e.1 = some e.2

/-- The entries whose hash selects the chain `i`. -/
def chosen (hash : K → ℕ) (capacity i : ℕ) (es : List (ℕ × K × V)) :
    List (ℕ × K × V) :=
  es.filter fun e => hash e.2.1 % capacity = i

/-- The chains hold the entries that their hash selects. -/
structure Hashed (hash : K → ℕ) (m : NodeMemory K V) (capacity table : ℕ)
    (es : List (ℕ × K × V)) : Prop where
  chain : ∀ i < capacity, ∃ c : List ℕ,
    Segment m.nextHash m.prevHash (table + i) c none ∧
      c.Perm (nodesOf (chosen hash capacity i es))
  nodup : (nodesOf es).Nodup
  live : ∀ p ∈ nodesOf es, m.live p = true
  tableLive : ∀ i < capacity, m.live (table + i) = true
  apart : ∀ i < capacity, table + i ∉ nodesOf es

variable {hash : K → ℕ} {m m' : NodeMemory K V}
  {capacity table head tail : ℕ} {es done rest : List (ℕ × K × V)}

theorem Ordered.congr (h : Ordered m head tail es)
    (hagree : ∀ p ∈ head :: nodesOf es ++ [tail], m'.live p = m.live p ∧
      m'.nextList p = m.nextList p ∧ m'.prevList p = m.prevList p ∧
        m'.packet p = m.packet p) :
    Ordered m' head tail es := by
  refine ⟨h.segment.congr ?_ ?_, h.nodup, ?_, ?_⟩
  · exact fun p hp => (hagree p (List.mem_append_left _ hp)).2.1
  · exact fun p hp => (hagree p (List.mem_cons_of_mem head hp)).2.2.1
  · exact fun p hp => (hagree p hp).1.trans (h.live p hp)
  · intro e he
    have hmem : e.1 ∈ head :: nodesOf es ++ [tail] :=
      List.mem_append_left _ (List.mem_cons_of_mem head
        (List.mem_map_of_mem he))
    exact (hagree e.1 hmem).2.2.2.trans (h.packet e he)

theorem Hashed.congr (h : Hashed hash m capacity table es)
    (hnode : ∀ p ∈ nodesOf es, m'.live p = m.live p ∧
      m'.nextHash p = m.nextHash p ∧ m'.prevHash p = m.prevHash p)
    (hslot : ∀ i < capacity, m'.live (table + i) = m.live (table + i) ∧
      m'.nextHash (table + i) = m.nextHash (table + i)) :
    Hashed hash m' capacity table es := by
  refine ⟨fun i hi => ?_, h.nodup, ?_, ?_, h.apart⟩
  · obtain ⟨c, hsegment, hperm⟩ := h.chain i hi
    have hmem : ∀ p ∈ c, p ∈ nodesOf es := fun p hp =>
      (List.filter_sublist.map Prod.fst).subset (hperm.mem_iff.mp hp)
    refine ⟨c, hsegment.congr ?_ ?_, hperm⟩
    · intro p hp
      rcases List.mem_cons.mp hp with rfl | hp
      · exact (hslot i hi).2
      · exact (hnode p (hmem p hp)).2.1
    · intro p hp
      rw [Option.toList_none, List.append_nil] at hp
      exact (hnode p (hmem p hp)).2.2
  · exact fun p hp => (hnode p hp).1.trans (h.live p hp)
  · exact fun i hi => (hslot i hi).1.trans (h.tableLive i hi)

/-- A node lies in one chain. -/
theorem Hashed.chain_eq (h : Hashed hash m capacity table es) {i j p : ℕ}
    (hi : p ∈ nodesOf (chosen hash capacity i es))
    (hj : p ∈ nodesOf (chosen hash capacity j es)) : i = j := by
  obtain ⟨e, he, rfl⟩ := List.mem_map.mp hi
  obtain ⟨e', he', heq⟩ := List.mem_map.mp hj
  obtain ⟨hmem, hhash⟩ := List.mem_filter.mp he
  obtain ⟨hmem', hhash'⟩ := List.mem_filter.mp he'
  obtain rfl : e' = e := List.inj_on_of_nodup_map h.nodup hmem' hmem heq
  exact (of_decide_eq_true hhash).symm.trans (of_decide_eq_true hhash')

/-- The nodes of two chains are different. -/
theorem Hashed.disjoint (h : Hashed hash m capacity table es) {i j : ℕ}
    (hi : i < capacity) (hj : j < capacity) (hne : i ≠ j) {c d : List ℕ}
    (hc : c.Perm (nodesOf (chosen hash capacity i es)))
    (hd : d.Perm (nodesOf (chosen hash capacity j es))) :
    ((table + i) :: c).Disjoint ((table + j) :: d) := by
  have hnode : ∀ {k : ℕ} {b : List ℕ},
      b.Perm (nodesOf (chosen hash capacity k es)) → ∀ p ∈ b,
        p ∈ nodesOf es := fun hb p hp =>
    (List.filter_sublist.map Prod.fst).subset (hb.mem_iff.mp hp)
  intro p hp hp'
  rcases List.mem_cons.mp hp with rfl | hp <;>
    rcases List.mem_cons.mp hp' with hslot | hp'
  · exact hne (Nat.add_left_cancel hslot)
  · exact h.apart i hi (hnode hd _ hp')
  · exact h.apart j hj (hslot ▸ hnode hc p hp)
  · exact hne (h.chain_eq (hc.mem_iff.mp hp) (hd.mem_iff.mp hp'))

/-- A slot with its chain repeats no node. -/
theorem Hashed.nodup_chain (h : Hashed hash m capacity table es) {i : ℕ}
    (hi : i < capacity) {c : List ℕ}
    (hc : c.Perm (nodesOf (chosen hash capacity i es))) :
    ((table + i) :: c).Nodup := by
  have hsub : (nodesOf (chosen hash capacity i es)).Sublist (nodesOf es) :=
    List.filter_sublist.map Prod.fst
  refine List.nodup_cons.mpr ⟨fun hmem => ?_, ?_⟩
  · exact h.apart i hi (hsub.subset (hc.mem_iff.mp hmem))
  · exact hc.nodup_iff.mpr (h.nodup.sublist hsub)

/-! ## Insertion into a chain -/

theorem chosen_append (es es' : List (ℕ × K × V)) (i : ℕ) :
    chosen hash capacity i (es ++ es') =
      chosen hash capacity i es ++ chosen hash capacity i es' :=
  List.filter_append ..

theorem Hashed.insertAfterHash (h : Hashed hash m capacity table es)
    (hpos : 0 < capacity) {x : ℕ} (packet : K × V) (hlive : m.live x = true)
    (hfresh : x ∉ nodesOf es) (hslots : ∀ i < capacity, table + i ≠ x) :
    ∃ m', m.insertAfterHash x (table + hash packet.1 % capacity) = some m' ∧
      m' = { m with nextHash := m'.nextHash, prevHash := m'.prevHash } ∧
      Hashed hash m' capacity table (es ++ [(x, packet)]) := by
  set i := hash packet.1 % capacity with hidef
  have hi : i < capacity := Nat.mod_lt _ hpos
  obtain ⟨c, hsegment, hperm⟩ := h.chain i hi
  have hnodup := h.nodup_chain hi hperm
  have hmem : ∀ p ∈ c, p ∈ nodesOf es := fun p hp =>
    (List.filter_sublist.map Prod.fst).subset (hperm.mem_iff.mp hp)
  have hnext : ∀ q, m.nextHash (table + i) = some q → q ∈ c := by
    intro q hq
    simpa using hsegment.next_mem hq
  have hxc : x ∉ (table + i) :: c := by
    rintro hx
    rcases List.mem_cons.mp hx with rfl | hx
    · exact hslots i hi rfl
    · exact hfresh (hmem x hx)
  refine ⟨_, NodeMemory.insertAfterHash_eq hlive (h.tableLive i hi)
    (fun q hq => h.live q (hmem q (hnext q hq))), rfl, ?_, ?_, ?_, h.tableLive,
      ?_⟩
  · intro j hj
    by_cases hij : j = i
    · rw [hij]
      refine ⟨x :: c, hsegment.link (by simpa using hnodup)
        (by simpa using hxc), ?_⟩
      have hchosen : chosen hash capacity i [(x, packet)] = [(x, packet)] :=
        List.filter_eq_self.mpr (by simp [hidef])
      rw [chosen_append, hchosen, nodesOf, List.map_append]
      exact (hperm.cons x).trans (List.perm_append_singleton x _).symm
    · obtain ⟨d, hsegment', hperm'⟩ := h.chain j hj
      have hdisjoint := h.disjoint hi hj (Ne.symm hij) hperm hperm'
      have hmem' : ∀ p ∈ d, p ∈ nodesOf es := fun p hp =>
        (List.filter_sublist.map Prod.fst).subset (hperm'.mem_iff.mp hp)
      refine ⟨d, hsegment'.link_frame ?_ ?_ ?_, ?_⟩
      · intro hx
        rw [Option.toList_none, List.append_nil] at hx
        rcases List.mem_cons.mp hx with rfl | hx
        · exact hslots j hj rfl
        · exact hfresh (hmem' x hx)
      · exact fun hp => hdisjoint List.mem_cons_self hp
      · intro q hq hq'
        rw [Option.toList_none, List.append_nil] at hq'
        exact hdisjoint (List.mem_cons_of_mem _ (hnext q hq))
          (List.mem_cons_of_mem _ hq')
      · have hchosen : chosen hash capacity j [(x, packet)] = [] :=
          List.filter_eq_nil_iff.mpr (by simpa using Ne.symm hij)
        rwa [chosen_append, hchosen, List.append_nil]
  · rw [nodesOf, List.map_append]
    exact h.nodup.append (List.nodup_singleton x)
      (List.disjoint_singleton.mpr hfresh)
  · intro p hp
    rw [nodesOf, List.map_append] at hp
    rcases List.mem_append.mp hp with hp | hp
    · exact h.live p hp
    · obtain rfl := List.mem_singleton.mp hp
      exact hlive
  · intro j hj hmem'
    rw [nodesOf, List.map_append] at hmem'
    rcases List.mem_append.mp hmem' with hp | hp
    · exact h.apart j hj hp
    · exact hslots j hj (List.mem_singleton.mp hp)

/-! ## Insertion into the order list -/

theorem Ordered.insertBeforeLink (h : Ordered m head tail es) {x : ℕ}
    {packet : K × V} (hlive : m.live x = true)
    (hpacket : m.packet x = some packet)
    (hfresh : x ∉ head :: nodesOf es ++ [tail]) :
    ∃ m', m.insertBeforeLink x tail = some m' ∧
      m' = { m with nextList := m'.nextList, prevList := m'.prevList } ∧
      Ordered m' head tail (es ++ [(x, packet)]) := by
  have hprev : ∀ q, m.prevList tail = some q → m.live q = true := by
    intro q hq
    obtain ⟨y, hy, hlast, -⟩ := h.segment.exists_last
    obtain rfl : y = q := Option.some.inj (hlast.symm.trans hq)
    exact h.live y (List.mem_append_left _ hy)
  have hnodes : nodesOf (es ++ [(x, packet)]) = nodesOf es ++ [x] :=
    List.map_append
  have hperm : (head :: (nodesOf es ++ [x]) ++ [tail]).Perm
      (x :: (head :: nodesOf es ++ [tail])) := by
    rw [← List.cons_append, List.append_assoc]
    exact List.perm_middle
  refine ⟨_, NodeMemory.insertBeforeLink_eq hlive (h.live tail (by simp))
    hprev, rfl, ?_, ?_, ?_, ?_⟩
  · rw [hnodes]
    exact h.segment.link_before h.nodup hfresh
  · rw [hnodes, hperm.nodup_iff]
    exact List.nodup_cons.mpr ⟨hfresh, h.nodup⟩
  · intro p hp
    rw [hnodes, hperm.mem_iff] at hp
    rcases List.mem_cons.mp hp with rfl | hp
    · exact hlive
    · exact h.live p hp
  · intro e he
    rcases List.mem_append.mp he with he | he
    · exact h.packet e he
    · obtain rfl := List.mem_singleton.mp he
      exact hpacket

/-! ## New nodes -/

namespace NodeMemory

theorem newNodes_eq_of_lt (count : ℕ) (packet : Option (K × V)) {p : ℕ}
    (hp : p < m.top) :
    (m.newNodes count packet).2.live p = m.live p ∧
      (m.newNodes count packet).2.packet p = m.packet p ∧
      (m.newNodes count packet).2.nextHash p = m.nextHash p ∧
      (m.newNodes count packet).2.prevHash p = m.prevHash p ∧
      (m.newNodes count packet).2.nextList p = m.nextList p ∧
      (m.newNodes count packet).2.prevList p = m.prevList p := by
  have hold : ¬ m.Fresh count p := fun h => absurd h.1 (Nat.not_le.mpr hp)
  simp only [newNodes, if_neg hold, and_self]

theorem newNodes_fresh {count p : ℕ} (packet : Option (K × V))
    (hp : m.Fresh count p) :
    (m.newNodes count packet).2.live p = true ∧
      (m.newNodes count packet).2.packet p = packet ∧
      (m.newNodes count packet).2.nextHash p = none := by
  simp only [newNodes, if_pos hp, and_self]

/-- The live nodes were allocated. -/
def Bounded (m : NodeMemory K V) : Prop :=
  ∀ p, m.live p = true → p < m.top

theorem Bounded.newNodes (h : m.Bounded) (count : ℕ)
    (packet : Option (K × V)) : (m.newNodes count packet).2.Bounded := by
  intro p hp
  by_cases hfresh : m.Fresh count p
  · exact hfresh.2
  · simp only [NodeMemory.newNodes, if_neg hfresh] at hp ⊢
    exact Nat.lt_add_right count (h p hp)

end NodeMemory

theorem Ordered.newNodes (h : Ordered m head tail es) (hb : m.Bounded)
    (count : ℕ) (packet : Option (K × V)) :
    Ordered (m.newNodes count packet).2 head tail es := by
  apply h.congr
  intro p hp
  obtain ⟨hlive, hpacket, -, -, hnext, hprev⟩ :=
    NodeMemory.newNodes_eq_of_lt count packet (hb p (h.live p hp))
  exact ⟨hlive, hnext, hprev, hpacket⟩

theorem Hashed.newNodes (h : Hashed hash m capacity table es)
    (hb : m.Bounded) (count : ℕ) (packet : Option (K × V)) :
    Hashed hash (m.newNodes count packet).2 capacity table es := by
  apply h.congr
  · intro p hp
    obtain ⟨hlive, -, hnext, hprev, -⟩ :=
      NodeMemory.newNodes_eq_of_lt count packet (hb p (h.live p hp))
    exact ⟨hlive, hnext, hprev⟩
  · intro i hi
    obtain ⟨hlive, -, hnext, -⟩ :=
      NodeMemory.newNodes_eq_of_lt count packet (hb _ (h.tableLive i hi))
    exact ⟨hlive, hnext⟩

/-- A new table has empty chains. -/
theorem Hashed.of_newNodes :
    Hashed hash (m.newNodes capacity none).2 capacity m.top [] := by
  have hfresh : ∀ i < capacity, m.Fresh capacity (m.top + i) := fun i hi =>
    ⟨Nat.le_add_right m.top i, Nat.add_lt_add_left hi m.top⟩
  refine ⟨fun i hi => ⟨[], ⟨?_, by simp⟩, .refl _⟩, List.nodup_nil, by simp,
    fun i hi => ?_, by simp⟩
  · exact (NodeMemory.newNodes_fresh none (hfresh i hi)).2.2
  · exact (NodeMemory.newNodes_fresh none (hfresh i hi)).1

/-! ## The container -/

namespace LinkedHashmap

/-- The container holds the entries in this order. -/
structure Shape (hash : K → ℕ) (m : LinkedHashmap K V)
    (es : List (ℕ × K × V)) : Prop where
  ordered : Ordered m.memory m.head m.tail es
  hashed : Hashed hash m.memory m.capacity m.table es
  pos : 0 < m.capacity
  bounded : m.memory.Bounded
  sides : ∀ i < m.capacity, m.table + i ≠ m.head ∧ m.table + i ≠ m.tail

variable {c : LinkedHashmap K V}

theorem Shape.insertNode (h : Shape hash c es) (packet : K × V) :
    ∃ x memory, c.insertNode hash packet =
        some (x, { c with memory := memory }) ∧
      Shape hash { c with memory := memory } (es ++ [(x, packet)]) := by
  obtain ⟨hordered, hhashed, hpos, hb, hsides⟩ := h
  have hfresh : ∀ p, c.memory.live p = true → p ≠ c.memory.top :=
    fun p hp => (hb p hp).ne
  obtain ⟨hlive, hpacket, -⟩ := NodeMemory.newNodes_fresh (some packet)
    (show c.memory.Fresh 1 c.memory.top from
      ⟨le_rfl, Nat.lt_succ_self c.memory.top⟩)
  have hout : c.memory.top ∉ c.head :: nodesOf es ++ [c.tail] := fun hmem =>
    hfresh _ (hordered.live _ hmem) rfl
  obtain ⟨m₁, hrun₁, heq₁, hhashed₁⟩ :=
    (hhashed.newNodes hb 1 (some packet)).insertAfterHash hpos
      packet hlive
      (fun hmem => hfresh _ (hhashed.live _ hmem) rfl)
      (fun i hi => hfresh _ (hhashed.tableLive i hi))
  have hordered₁ : Ordered m₁ c.head c.tail es := by
    rw [heq₁]
    exact (hordered.newNodes hb 1 (some packet)).congr fun _ _ =>
      ⟨rfl, rfl, rfl, rfl⟩
  have hlive₁ : m₁.live c.memory.top = true := by
    rw [heq₁]
    exact hlive
  have hpacket₁ : m₁.packet c.memory.top = some packet := by
    rw [heq₁]
    exact hpacket
  obtain ⟨m₂, hrun₂, heq₂, hordered₂⟩ :=
    hordered₁.insertBeforeLink hlive₁ hpacket₁ hout
  have hb₂ : m₂.Bounded := by
    rw [heq₂, heq₁]
    exact hb.newNodes 1 (some packet)
  refine ⟨c.memory.top, m₂, ?_, hordered₂, ?_, hpos, hb₂, hsides⟩
  · change ((c.memory.newNodes 1 (some packet)).2.insertAfterHash
      c.memory.top (c.table + hash packet.1 % c.capacity)).bind _ = _
    rw [hrun₁]
    change (m₁.insertBeforeLink c.memory.top c.tail).bind _ = _
    rw [hrun₂]
    rfl
  · rw [heq₂]
    exact hhashed₁.congr (fun _ _ => ⟨rfl, rfl, rfl⟩) fun _ _ => ⟨rfl, rfl⟩

end LinkedHashmap

end TicketSystem.Database
