import Mathlib
import TicketSystem.Database.LinkedHashmapShape

/-!
# The functions of a linked hash map

Each function of the container ends, and what it does to the entries.
-/

namespace TicketSystem.Database

open TicketSystem.Support

variable {K V : Type} {hash : K → ℕ} {equal : K → K → Bool}
  {m : NodeMemory K V} {capacity table head tail : ℕ}
  {es done rest : List (ℕ × K × V)}

/-- The loops run often enough. -/
theorem length_le_of_nodup {l : List ℕ} {n : ℕ} (hnodup : l.Nodup)
    (hlt : ∀ p ∈ l, p < n) : l.length ≤ n := by
  have hsub : l ⊆ List.range n := fun p hp => List.mem_range.mpr (hlt p hp)
  have hle := (hnodup.subperm hsub).length_le
  rwa [List.length_range] at hle

theorem mem_order_of_mem_nodes {p : ℕ} (hp : p ∈ nodesOf es) :
    p ∈ head :: nodesOf es ++ [tail] :=
  List.mem_append_left _ (List.mem_cons_of_mem head hp)

theorem Ordered.length_le (h : Ordered m head tail es) (hb : m.Bounded) :
    es.length ≤ m.top := by
  have hsub : (nodesOf es).Sublist (head :: nodesOf es ++ [tail]) :=
    (List.sublist_cons_self head _).trans (List.sublist_append_left _ _)
  have hle := length_le_of_nodup (h.nodup.sublist hsub) fun p hp =>
    hb p (h.live p (hsub.subset hp))
  rwa [List.length_map] at hle

/-- The node after `head`, or after an entry. -/
theorem Segment.next_eq {next prev : ℕ → Option ℕ} {p t : ℕ} {ps : List ℕ}
    (h : Segment next prev p ps (some t)) : next p = (ps ++ [t]).head? := by
  cases ps with
  | nil => exact h.1
  | cons r rs => exact h.1

theorem Ordered.next_entry {e : ℕ × K × V}
    (h : Ordered m head tail (done ++ e :: rest)) :
    m.nextList e.1 = (nodesOf rest ++ [tail]).head? := by
  have hsegment := h.segment
  rw [nodesOf, List.map_append, List.map_cons, segment_append] at hsegment
  exact Segment.next_eq hsegment.2

theorem Ordered.ne_tail {e : ℕ × K × V}
    (h : Ordered m head tail (done ++ e :: rest)) : e.1 ≠ tail := by
  have hmem : e.1 ∈ nodesOf (done ++ e :: rest) :=
    List.mem_map_of_mem (by simp)
  intro htail
  exact (List.nodup_append.mp h.nodup).2.2 e.1
    (List.mem_cons_of_mem head hmem) tail List.mem_cons_self htail

/-! ## Deletion of nodes -/

theorem NodeMemory.deleteNodes_eq {p count : ℕ}
    (h : ∀ i < count, m.live (p + i) = true) :
    m.deleteNodes p count =
      some { m with
        live := fun r => m.live r && !(p ≤ r && r < p + count) } :=
  if_pos h

/-- A node that is not among the deleted ones stays. -/
theorem deleted_eq {live : ℕ → Bool} {p count r : ℕ}
    (h : ∀ i < count, p + i ≠ r) :
    (live r && !(p ≤ r && r < p + count)) = live r := by
  have hout : ¬ (p ≤ r ∧ r < p + count) := by
    rintro ⟨hle, hlt⟩
    exact h (r - p) (by omega) (by omega)
  have hfalse : (decide (p ≤ r) && decide (r < p + count)) = false := by
    rw [← Bool.decide_and, decide_eq_false hout]
  rw [hfalse, Bool.not_false, Bool.and_true]

theorem Ordered.deleteNodes (h : Ordered m head tail es) {p count : ℕ}
    (hout : ∀ i < count, p + i ∉ head :: nodesOf es ++ [tail]) :
    Ordered { m with live := fun r => m.live r && !(p ≤ r && r < p + count) }
      head tail es := by
  apply h.congr
  intro r hr
  refine ⟨deleted_eq fun i hi hir => hout i hi (hir ▸ hr), rfl, rfl, rfl⟩

theorem Hashed.deleteNodes (h : Hashed hash m capacity table es)
    {p count : ℕ} (hout : ∀ i < count, p + i ∉ nodesOf es)
    (hslot : ∀ i < count, ∀ j < capacity, p + i ≠ table + j) :
    Hashed hash
      { m with live := fun r => m.live r && !(p ≤ r && r < p + count) }
      capacity table es := by
  apply h.congr
  · exact fun r hr => ⟨deleted_eq fun i hi hir => hout i hi (hir ▸ hr), rfl, rfl⟩
  · exact fun j hj => ⟨deleted_eq fun i hi => hslot i hi j hj, rfl⟩

theorem NodeMemory.Bounded.deleteNodes (h : m.Bounded) {p count : ℕ} :
    NodeMemory.Bounded
      { m with live := fun r => m.live r && !(p ≤ r && r < p + count) } := by
  intro r hr
  exact h r (Bool.and_eq_true_iff.mp hr).1

namespace LinkedHashmap

variable {c : LinkedHashmap K V}

/-! ## Search -/

theorem findFrom_eq {key : K} {p : ℕ} {ps : List ℕ}
    (h : Segment m.nextHash m.prevHash p ps none)
    (hlive : ∀ q ∈ ps, m.live q = true)
    (hpacket : ∀ q ∈ ps, ∃ packet, m.packet q = some packet) {fuel : ℕ}
    (hfuel : ps.length ≤ fuel) :
    findFrom equal m key fuel (m.nextHash p) =
      some (ps.find? fun q =>
        (m.packet q).any fun packet => equal packet.1 key) := by
  induction ps generalizing p fuel with
  | nil =>
      rw [h.1]
      cases fuel <;> rfl
  | cons r rs ih =>
      obtain ⟨hp, -, hrest⟩ := h
      obtain ⟨fuel, rfl⟩ : ∃ n, fuel = n + 1 :=
        Nat.exists_eq_succ_of_ne_zero (Nat.ne_of_gt
          (lt_of_lt_of_le (Nat.succ_pos rs.length) hfuel))
      obtain ⟨packet, hr⟩ := hpacket r List.mem_cons_self
      have hrlive := hlive r List.mem_cons_self
      have hlater := ih hrest
        (fun q hq => hlive q (List.mem_cons_of_mem r hq))
        (fun q hq => hpacket q (List.mem_cons_of_mem r hq))
        (Nat.le_of_succ_le_succ hfuel)
      rw [hp, findFrom, NodeMemory.getPacket_eq hrlive hr,
        NodeMemory.get_eq hrlive]
      cases hequal : equal packet.1 key with
      | true => simp [hr, hequal]
      | false => simpa [hr, hequal] using hlater

/-- The keys of the entries are different. -/
def DistinctKeys (equal : K → K → Bool) (packets : List (K × V)) : Prop :=
  packets.Pairwise fun a b => equal a.1 b.1 = false

/-- `Equal` is an equivalence that the hash respects. -/
structure Respects (hash : K → ℕ) (equal : K → K → Bool) : Prop where
  equivalence : Equivalence fun a b => equal a b = true
  hash_eq : ∀ {a b : K}, equal a b = true → hash a = hash b

theorem DistinctKeys.eq_of_equal (hr : Respects hash equal)
    (h : DistinctKeys equal (es.map Prod.snd)) {e e' : ℕ × K × V}
    (he : e ∈ es) (he' : e' ∈ es) (hequal : equal e.2.1 e'.2.1 = true) :
    e = e' := by
  by_contra hne
  have _hsymm : Std.Symm fun a b : ℕ × K × V =>
      equal a.2.1 b.2.1 = false := by
    constructor
    intro a b hab
    rw [Bool.eq_false_iff] at hab ⊢
    exact fun hba => hab (hr.equivalence.symm hba)
  have hfalse := (List.pairwise_map.mp h).forall he he' hne
  rw [hequal] at hfalse
  cases hfalse

theorem Shape.findNode (h : Shape hash c es) (hr : Respects hash equal)
    (hkeys : DistinctKeys equal (es.map Prod.snd)) (key : K) :
    c.findNode hash equal key =
      some ((es.find? fun e => equal e.2.1 key).map Prod.fst) := by
  set i := hash key % c.capacity with hidef
  have hi : i < c.capacity := Nat.mod_lt _ h.pos
  obtain ⟨ps, hsegment, hperm⟩ := h.hashed.chain i hi
  -- the nodes of the chain and what they hold
  have hentry : ∀ q ∈ ps, ∃ e ∈ es, e.1 = q ∧
      c.memory.packet q = some e.2 := by
    intro q hq
    obtain ⟨e, he, rfl⟩ := List.mem_map.mp (hperm.mem_iff.mp hq)
    have hmem := List.mem_of_mem_filter he
    exact ⟨e, hmem, rfl, h.ordered.packet e hmem⟩
  have hlive : ∀ q ∈ ps, c.memory.live q = true := by
    intro q hq
    obtain ⟨e, he, rfl, -⟩ := hentry q hq
    exact h.hashed.live _ (List.mem_map_of_mem he)
  have hlength : ps.length ≤ c.memory.top :=
    length_le_of_nodup
      (List.nodup_cons.mp (h.hashed.nodup_chain hi hperm)).2
      fun q hq => h.bounded q (hlive q hq)
  have hrun : c.findNode hash equal key =
      some (ps.find? fun q =>
        (c.memory.packet q).any fun packet => equal packet.1 key) := by
    rw [LinkedHashmap.findNode, NodeMemory.get_eq (h.hashed.tableLive i hi)]
    apply findFrom_eq hsegment hlive _ hlength
    intro q hq
    obtain ⟨e, -, -, hpacket⟩ := hentry q hq
    exact ⟨e.2, hpacket⟩
  rw [hrun]
  congr 1
  cases hfind : es.find? fun e => equal e.2.1 key with
  | none =>
      rw [Option.map_none, List.find?_eq_none]
      intro q hq
      obtain ⟨e, he, rfl, hpacket⟩ := hentry q hq
      rw [hpacket]
      exact List.find?_eq_none.mp hfind e he
  | some e =>
      have he := List.mem_of_find?_eq_some hfind
      have hequal : equal e.2.1 key = true := by
        simpa using List.find?_some hfind
      have hmem : e.1 ∈ ps := by
        rw [hperm.mem_iff]
        apply List.mem_map_of_mem
        refine List.mem_filter.mpr ⟨he, decide_eq_true ?_⟩
        rw [hr.hash_eq hequal]
      obtain ⟨q, hq⟩ := Option.isSome_iff_exists.mp
        (List.find?_isSome (p := fun q =>
          (c.memory.packet q).any fun packet => equal packet.1 key).mpr
            ⟨e.1, hmem, by rw [h.ordered.packet e he]; exact hequal⟩)
      rw [hq, Option.map_some]
      obtain ⟨e', he', rfl, hpacket⟩ :=
        hentry q (List.mem_of_find?_eq_some hq)
      have hequal' : equal e'.2.1 key = true := by
        have hany := List.find?_some hq
        rw [hpacket] at hany
        exact hany
      obtain rfl := hkeys.eq_of_equal hr he he'
        (hr.equivalence.trans hequal (hr.equivalence.symm hequal'))
      rfl

/-! ## Rehashing -/

/-- The loop over the order list moves one entry after another into the new
chains. -/
theorem fillFrom_spec (hpos : 0 < capacity) (done : List (ℕ × K × V))
    {fuel : ℕ} (h : Ordered m head tail (done ++ rest))
    (hdone : Hashed hash m capacity table done)
    (hout : ∀ i < capacity,
      table + i ∉ head :: nodesOf (done ++ rest) ++ [tail])
    (hfuel : rest.length ≤ fuel) :
    ∃ m', fillFrom hash capacity table tail m fuel
          (nodesOf rest ++ [tail]).head? = some m' ∧
      m' = { m with nextHash := m'.nextHash, prevHash := m'.prevHash } ∧
      Hashed hash m' capacity table (done ++ rest) := by
  induction rest generalizing m done fuel with
  | nil =>
      refine ⟨m, ?_, rfl, ?_⟩
      · cases fuel <;> exact if_pos rfl
      · rwa [List.append_nil]
  | cons e rest ih =>
      obtain ⟨fuel, rfl⟩ : ∃ n, fuel = n + 1 :=
        Nat.exists_eq_succ_of_ne_zero (Nat.ne_of_gt
          (lt_of_lt_of_le (Nat.succ_pos rest.length) hfuel))
      have hmem : e.1 ∈ nodesOf (done ++ e :: rest) :=
        List.mem_map_of_mem (by simp)
      have hlive := h.live _ (mem_order_of_mem_nodes hmem)
      have hnodup : (nodesOf (done ++ e :: rest)).Nodup :=
        h.nodup.sublist ((List.sublist_cons_self head _).trans
          (List.sublist_append_left _ _))
      have hfresh : e.1 ∉ nodesOf done := by
        rw [nodesOf, List.map_append, List.map_cons] at hnodup
        intro hdonemem
        exact (List.nodup_append.mp hnodup).2.2 _ hdonemem _
          List.mem_cons_self rfl
      have hslots : ∀ i < capacity, table + i ≠ e.1 := fun i hi hie =>
        hout i hi (hie ▸ mem_order_of_mem_nodes hmem)
      have hne := h.ne_tail
      -- the node is taken out of its old chain
      let m₀ : NodeMemory K V :=
        { m with nextHash := Function.update m.nextHash e.1 none }
      let m₁ : NodeMemory K V :=
        { m₀ with prevHash := Function.update m.prevHash e.1 none }
      have hdone₁ : Hashed hash m₁ capacity table done := by
        apply hdone.congr
        · intro p hp
          have hpe : p ≠ e.1 := ne_of_mem_of_not_mem hp hfresh
          exact ⟨rfl, Function.update_of_ne hpe _ _,
            Function.update_of_ne hpe _ _⟩
        · exact fun i hi => ⟨rfl, Function.update_of_ne (hslots i hi) _ _⟩
      have hpacket : m₁.getPacket e.1 = some e.2 :=
        NodeMemory.getPacket_eq hlive (h.packet e (by simp))
      obtain ⟨m₂, hrun₂, heq₂, hdone₂⟩ :=
        hdone₁.insertAfterHash hpos e.2 hlive hfresh hslots
      have h₂ : Ordered m₂ head tail (done ++ [e] ++ rest) := by
        rw [List.append_assoc, heq₂]
        exact h.congr fun _ _ => ⟨rfl, rfl, rfl, rfl⟩
      have hlive₂ : m₂.live e.1 = true := by
        rw [heq₂]
        exact hlive
      have hnext : m₂.nextList e.1 = (nodesOf rest ++ [tail]).head? := by
        rw [heq₂]
        exact h.next_entry
      have happend : done ++ [e] ++ rest = done ++ e :: rest := by simp
      obtain ⟨m', hrun, heq, hall⟩ := ih (done ++ [e]) h₂ hdone₂ (happend ▸ hout)
        (Nat.le_of_succ_le_succ hfuel)
      refine ⟨m', ?_, ?_, happend ▸ hall⟩
      · rw [nodesOf, List.map_cons, List.cons_append, List.head?_cons,
          fillFrom, if_neg (by simpa using hne)]
        change (m.put e.1 m₀).bind _ = _
        rw [NodeMemory.put_eq hlive]
        change (m₀.put e.1 m₁).bind _ = _
        rw [NodeMemory.put_eq (m := m₀) hlive]
        change (m₁.getPacket e.1).bind _ = _
        rw [hpacket]
        change (m₁.insertAfterHash e.1 (table + hash e.2.1 % capacity)).bind
          _ = _
        rw [hrun₂]
        change (m₂.get m₂.nextList e.1).bind _ = _
        rw [NodeMemory.get_eq hlive₂, hnext]
        exact hrun
      · rw [heq, heq₂]

theorem Shape.rehash (h : Shape hash c es) {capacity : ℕ}
    (hpos : 0 < capacity) :
    ∃ c', c.rehash hash capacity = some c' ∧ Shape hash c' es ∧
      c'.sum = c.sum := by
  obtain ⟨hordered, hhashed, -, hb, hsides⟩ := h
  have hnew := hordered.newNodes hb capacity none
  have hold := hhashed.newNodes hb capacity none
  have hlt : ∀ p ∈ c.head :: nodesOf es ++ [c.tail], p < c.memory.top :=
    fun p hp => hb p (hordered.live p hp)
  have htable : ∀ i < c.capacity, c.table + i < c.memory.top :=
    fun i hi => hb _ (hhashed.tableLive i hi)
  have hout : ∀ i < capacity,
      c.memory.top + i ∉ c.head :: nodesOf ([] ++ es) ++ [c.tail] :=
    fun i _ hmem => absurd (hlt _ hmem) (Nat.not_lt.mpr (Nat.le_add_right _ i))
  obtain ⟨m', hrun, heq, hfilled⟩ :=
    fillFrom_spec hpos [] hnew .of_newNodes hout
      ((hordered.length_le hb).trans (Nat.le_add_right _ capacity))
  have hordered' : Ordered m' c.head c.tail es := by
    rw [heq]
    exact hnew.congr fun _ _ => ⟨rfl, rfl, rfl, rfl⟩
  have hlive' : ∀ i < c.capacity, m'.live (c.table + i) = true := by
    rw [heq]
    exact hold.tableLive
  have hbounded' : m'.Bounded := by
    rw [heq]
    exact hb.newNodes capacity none
  -- the old table goes
  have hslots : ∀ i < c.capacity, c.table + i ∉
      c.head :: nodesOf es ++ [c.tail] := by
    intro i hi hmem
    rcases List.mem_append.mp hmem with hmem | hmem
    · rcases List.mem_cons.mp hmem with hhead | hmem
      · exact (hsides i hi).1 hhead
      · exact hhashed.apart i hi hmem
    · exact (hsides i hi).2 (List.mem_singleton.mp hmem)
  have hdelete := NodeMemory.deleteNodes_eq hlive'
  refine ⟨{ c with memory := _, capacity := capacity, table := c.memory.top },
    ?_, ⟨hordered'.deleteNodes hslots, ?_, hpos, hbounded'.deleteNodes, ?_⟩,
    rfl⟩
  · change ((c.memory.newNodes capacity none).2.get
      (c.memory.newNodes capacity none).2.nextList c.head).bind _ = _
    rw [NodeMemory.get_eq (hnew.live c.head (by simp)),
      Segment.next_eq hnew.segment]
    change (fillFrom hash capacity c.memory.top c.tail
      (c.memory.newNodes capacity none).2 _ _).bind _ = _
    rw [hrun]
    change (m'.deleteNodes c.table c.capacity).bind _ = _
    rw [hdelete]
    rfl
  · apply hfilled.deleteNodes
    · exact fun i hi hmem => hslots i hi (mem_order_of_mem_nodes hmem)
    · intro i hi j _ hij
      exact absurd (htable i hi) (hij ▸ Nat.not_lt.mpr (Nat.le_add_right _ j))
  · intro i _
    have hge := Nat.le_add_right c.memory.top i
    exact ⟨(lt_of_lt_of_le (hlt c.head (by simp)) hge).ne',
      (lt_of_lt_of_le (hlt c.tail (by simp)) hge).ne'⟩

theorem Shape.expand (h : Shape hash c es) :
    ∃ c', c.expand hash = some c' ∧ Shape hash c' es ∧ c'.sum = c.sum := by
  rw [LinkedHashmap.expand]
  split
  · exact ⟨c, rfl, h, rfl⟩
  · exact h.rehash (Nat.mul_pos h.pos Nat.two_pos)

theorem Shape.shrink (h : Shape hash c es) :
    ∃ c', c.shrink hash = some c' ∧ Shape hash c' es ∧ c'.sum = c.sum := by
  rw [LinkedHashmap.shrink]
  split
  · exact ⟨c, rfl, h, rfl⟩
  · next hlarge =>
    rw [not_or, not_le, not_le] at hlarge
    exact h.rehash (by omega)

/-! ## Construction -/

/-- A container without entries and table. -/
structure Bare (c : LinkedHashmap K V) : Prop where
  ordered : Ordered c.memory c.head c.tail []
  bounded : c.memory.Bounded

theorem Bare.newTable (h : Bare c) (hpos : 0 < c.capacity) :
    Shape hash c.newTable [] := by
  have hlt : ∀ p, c.memory.live p = true → ∀ i, c.memory.top + i ≠ p :=
    fun p hp i => (lt_of_lt_of_le (h.bounded p hp) (Nat.le_add_right _ i)).ne'
  exact
    { ordered := h.ordered.newNodes h.bounded c.capacity none
      hashed := .of_newNodes
      pos := hpos
      bounded := h.bounded.newNodes c.capacity none
      sides := fun i _ =>
        ⟨hlt c.head (h.ordered.live _ (by simp)) i,
          hlt c.tail (h.ordered.live _ (by simp)) i⟩ }

theorem newList_spec (capacity sum : ℕ) :
    ∃ c : LinkedHashmap K V, newList capacity sum = some c ∧ Bare c ∧
      c.capacity = capacity ∧ c.sum = sum := by
  refine ⟨_, rfl, ⟨⟨⟨rfl, ?_⟩, ?_, ?_, ?_⟩, ?_⟩, rfl, rfl⟩
  · rintro r hr
    obtain rfl := Option.mem_some_iff.mp hr
    rfl
  · exact (List.pairwise_pair (R := (· ≠ ·))).mpr Nat.zero_ne_one
  · intro p hp
    rcases List.mem_cons.mp hp with rfl | hp
    · rfl
    · obtain rfl := List.mem_singleton.mp hp
      rfl
  · simp
  · exact (NodeMemory.Bounded.newNodes (m := NodeMemory.empty)
      (fun p hp => by cases hp) 1 none).newNodes 1 none

theorem new_spec (hash : K → ℕ) :
    ∃ c : LinkedHashmap K V, LinkedHashmap.new = some c ∧ Shape hash c [] ∧
      c.sum = 0 := by
  obtain ⟨c, hrun, hbare, hcapacity, hsum⟩ :=
    newList_spec (K := K) (V := V) INIT_SIZE 0
  refine ⟨c.newTable, ?_, hbare.newTable ?_, hsum⟩
  · rw [LinkedHashmap.new, hrun]
    rfl
  · rw [hcapacity]
    decide

/-! ## Copies -/

theorem insertFrom_spec {other : LinkedHashmap K V}
    (done : List (ℕ × K × V)) {fuel : ℕ}
    (hother : Ordered other.memory other.head other.tail (done ++ rest))
    (h : Shape hash c es) (hfuel : rest.length ≤ fuel) :
    ∃ memory es', insertFrom hash other c fuel
          (nodesOf rest ++ [other.tail]).head? =
        some { c with memory := memory } ∧
      Shape hash { c with memory := memory } (es ++ es') ∧
      es'.map Prod.snd = rest.map Prod.snd := by
  induction rest generalizing c done es fuel with
  | nil =>
      refine ⟨c.memory, [], ?_, ?_, rfl⟩
      · cases fuel <;> exact if_pos rfl
      · rwa [List.append_nil]
  | cons e rest ih =>
      obtain ⟨fuel, rfl⟩ : ∃ n, fuel = n + 1 :=
        Nat.exists_eq_succ_of_ne_zero (Nat.ne_of_gt
          (lt_of_lt_of_le (Nat.succ_pos rest.length) hfuel))
      have hmem : e.1 ∈ nodesOf (done ++ e :: rest) :=
        List.mem_map_of_mem (by simp)
      have hlive := hother.live _ (mem_order_of_mem_nodes hmem)
      have hne := hother.ne_tail
      obtain ⟨x, memory, hinsert, hshape⟩ := h.insertNode e.2
      have happend : done ++ e :: rest = done ++ [e] ++ rest := by simp
      obtain ⟨memory', es', hrun, hall, hes'⟩ := ih (done ++ [e])
        (happend ▸ hother) hshape
        (Nat.le_of_succ_le_succ hfuel)
      refine ⟨memory', (x, e.2) :: es', ?_, ?_, ?_⟩
      · rw [nodesOf, List.map_cons, List.cons_append, List.head?_cons,
          insertFrom, if_neg (by simpa using hne)]
        change (other.memory.getPacket e.1).bind _ = _
        rw [NodeMemory.getPacket_eq hlive (hother.packet e (by simp))]
        change (c.insertNode hash e.2).bind _ = _
        rw [hinsert]
        change (other.memory.get other.memory.nextList e.1).bind _ = _
        rw [NodeMemory.get_eq hlive, hother.next_entry]
        exact hrun
      · rwa [List.append_assoc, List.singleton_append] at hall
      · rw [List.map_cons, hes', List.map_cons]

theorem Shape.insertFrom {other : LinkedHashmap K V}
    {es' : List (ℕ × K × V)} (hother : Shape hash other es')
    (h : Shape hash c []) :
    ∃ memory es, insertFrom hash other c other.memory.top
          (other.memory.nextList other.head) =
        some { c with memory := memory } ∧
      Shape hash { c with memory := memory } es ∧
      es.map Prod.snd = es'.map Prod.snd := by
  rw [Segment.next_eq hother.ordered.segment]
  exact insertFrom_spec [] hother.ordered h
    (hother.ordered.length_le hother.bounded)

theorem Shape.copy {other : LinkedHashmap K V} {es' : List (ℕ × K × V)}
    (hother : Shape hash other es') :
    ∃ c es, other.copy hash = some c ∧ Shape hash c es ∧
      es.map Prod.snd = es'.map Prod.snd ∧ c.sum = other.sum := by
  obtain ⟨c, hnew, hbare, hcapacity, hsum⟩ :=
    newList_spec (K := K) (V := V) other.capacity other.sum
  obtain ⟨memory, es, hrun, hshape, hes⟩ :=
    hother.insertFrom (hbare.newTable (hcapacity ▸ hother.pos))
  refine ⟨_, es, ?_, hshape, hes, hsum⟩
  rw [LinkedHashmap.copy, hnew]
  change (other.memory.get other.memory.nextList other.head).bind _ = _
  rw [NodeMemory.get_eq (hother.ordered.live _ (by simp))]
  exact hrun

/-! ## Clearing -/

theorem deleteFrom_spec {p fuel : ℕ} {ps : List ℕ}
    (h : Segment m.nextList m.prevList p ps (some tail))
    (hnodup : (ps ++ [tail]).Nodup) (hlive : ∀ q ∈ ps, m.live q = true)
    (hfuel : ps.length ≤ fuel) :
    ∃ m', deleteFrom tail m fuel (m.nextList p) = some m' ∧
      m' = { m with live := m'.live } ∧
      (∀ r, r ∉ ps → m'.live r = m.live r) ∧
        ∀ r, m'.live r = true → m.live r = true := by
  induction ps generalizing m p fuel with
  | nil =>
      refine ⟨m, ?_, rfl, fun _ _ => rfl, fun _ hr => hr⟩
      rw [h.1]
      cases fuel <;> exact if_pos rfl
  | cons q ps ih =>
      obtain ⟨hp, -, hrest⟩ := h
      obtain ⟨fuel, rfl⟩ : ∃ n, fuel = n + 1 :=
        Nat.exists_eq_succ_of_ne_zero (Nat.ne_of_gt
          (lt_of_lt_of_le (Nat.succ_pos ps.length) hfuel))
      obtain ⟨hfresh, hnodup'⟩ := List.nodup_cons.mp hnodup
      have hqlive : ∀ i < 1, m.live (q + i) = true := by
        intro i hi
        obtain rfl := Nat.lt_one_iff.mp hi
        exact hlive q List.mem_cons_self
      have hout : ∀ r, r ≠ q → ∀ i < 1, q + i ≠ r := by
        intro r hr i hi
        obtain rfl := Nat.lt_one_iff.mp hi
        exact hr.symm
      let m₁ : NodeMemory K V :=
        { m with live := fun r => m.live r && !(q ≤ r && r < q + 1) }
      have hlive₁ : ∀ r ∈ ps, m₁.live r = true := by
        intro r hr
        have hrq : r ≠ q :=
          ne_of_mem_of_not_mem (List.mem_append_left _ hr) hfresh
        exact (deleted_eq (hout r hrq)).trans
          (hlive r (List.mem_cons_of_mem q hr))
      obtain ⟨m', hrun, heq, hkeep, hold⟩ := ih (m := m₁) (p := q) hrest
        hnodup' hlive₁ (Nat.le_of_succ_le_succ hfuel)
      refine ⟨m', ?_, heq, ?_, ?_⟩
      · have hne : some q ≠ some tail := by
          rintro htail
          obtain rfl := Option.some.inj htail
          exact hfresh (by simp)
        rw [hp, deleteFrom, if_neg hne]
        change (m.get m.nextList q).bind _ = _
        rw [NodeMemory.get_eq (hlive q List.mem_cons_self)]
        change (m.deleteNodes q 1).bind _ = _
        rw [NodeMemory.deleteNodes_eq hqlive]
        exact hrun
      · intro r hr
        rw [hkeep r fun hmem => hr (List.mem_cons_of_mem q hmem)]
        apply deleted_eq
        exact hout r fun hrq => hr (hrq ▸ List.mem_cons_self)
      · exact fun r hr => (Bool.and_eq_true_iff.mp (hold r hr)).1

theorem Shape.clearNodes (h : Shape hash c es) :
    ∃ memory, c.clearNodes = some { c with memory := memory } ∧
      ∀ capacity sum, Bare { c with
        memory := memory, capacity := capacity, sum := sum } := by
  obtain ⟨hordered, hhashed, -, hb, hsides⟩ := h
  obtain ⟨hheadfresh, hnodup⟩ := List.nodup_cons.mp hordered.nodup
  have hhead := hordered.live c.head (by simp)
  have hlength : (nodesOf es).length ≤ c.memory.top := by
    rw [nodesOf, List.length_map]
    exact hordered.length_le hb
  obtain ⟨m₁, hrun, heq, hkeep, hold⟩ := deleteFrom_spec hordered.segment
    hnodup (fun q hq => hordered.live q (mem_order_of_mem_nodes hq)) hlength
  have htable : ∀ i < c.capacity, m₁.live (c.table + i) = true := by
    intro i hi
    rw [hkeep _ (hhashed.apart i hi)]
    exact hhashed.tableLive i hi
  have hdelete := NodeMemory.deleteNodes_eq htable
  -- the two ends are still there
  have hhead₁ : m₁.live c.head = true :=
    (hkeep _ fun hmem => hheadfresh (List.mem_append_left _ hmem)).trans hhead
  have htail₁ : m₁.live c.tail = true := by
    rw [hkeep _ fun hmem => (List.nodup_append.mp hnodup).2.2 _ hmem _
      List.mem_cons_self rfl]
    exact hordered.live _ (by simp)
  let m₂ : NodeMemory K V :=
    { m₁ with
      live := fun r =>
        m₁.live r && !(c.table ≤ r && r < c.table + c.capacity) }
  have hhead₂ : m₂.live c.head = true :=
    (deleted_eq fun i hi => (hsides i hi).1).trans hhead₁
  have htail₂ : m₂.live c.tail = true :=
    (deleted_eq fun i hi => (hsides i hi).2).trans htail₁
  let m₃ : NodeMemory K V :=
    { m₂ with
      nextList := Function.update m₂.nextList c.head (some c.tail) }
  let m₄ : NodeMemory K V :=
    { m₃ with
      prevList := Function.update m₂.prevList c.tail (some c.head) }
  have hb₄ : m₄.Bounded := by
    intro r hr
    have htop : m₄.top = c.memory.top := by
      change m₁.top = c.memory.top
      rw [heq]
    rw [htop]
    exact hb r (hold r (Bool.and_eq_true_iff.mp hr).1)
  have hordered₄ : Ordered m₄ c.head c.tail [] := by
    refine ⟨⟨Function.update_self .., ?_⟩, ?_, ?_, by simp⟩
    · rintro r hr
      obtain rfl := Option.mem_some_iff.mp hr
      exact Function.update_self ..
    · have hne : c.head ≠ c.tail := fun h =>
        hheadfresh (List.mem_append_right _ (List.mem_singleton.mpr h))
      exact (List.pairwise_pair (R := (· ≠ ·))).mpr hne
    · intro p hp
      rcases List.mem_cons.mp hp with rfl | hp
      · exact hhead₂
      · obtain rfl := List.mem_singleton.mp hp
        exact htail₂
  refine ⟨m₄, ?_, fun _ _ => ⟨hordered₄, hb₄⟩⟩
  change (c.memory.get c.memory.nextList c.head).bind _ = _
  rw [NodeMemory.get_eq hhead]
  change (deleteFrom c.tail c.memory c.memory.top
    (c.memory.nextList c.head)).bind _ = _
  rw [hrun]
  change (m₁.deleteNodes c.table c.capacity).bind _ = _
  rw [hdelete]
  change (m₂.put c.head m₃).bind _ = _
  rw [NodeMemory.put_eq hhead₂]
  change (m₃.put c.tail m₄).bind _ = _
  rw [NodeMemory.put_eq (m := m₃) htail₂]
  rfl

theorem Shape.clear (h : Shape hash c es) :
    ∃ c', c.clear = some c' ∧ Shape hash c' [] ∧ c'.sum = 0 := by
  obtain ⟨memory, hrun, hbare⟩ := h.clearNodes
  refine ⟨_, ?_, (hbare INIT_SIZE 0).newTable ?_, rfl⟩
  · rw [LinkedHashmap.clear, hrun]
    rfl
  · exact (show 0 < INIT_SIZE by decide)

theorem Shape.assign (h : Shape hash c es) {other : LinkedHashmap K V}
    {es' : List (ℕ × K × V)} (hother : Shape hash other es') :
    ∃ c' es'', c.assign hash other = some c' ∧ Shape hash c' es'' ∧
      es''.map Prod.snd = es'.map Prod.snd ∧ c'.sum = other.sum := by
  obtain ⟨memory, hclear, hbare⟩ := h.clearNodes
  obtain ⟨memory', es'', hrun, hshape, hes⟩ :=
    hother.insertFrom ((hbare other.capacity other.sum).newTable hother.pos)
  refine ⟨_, es'', ?_, hshape, hes, rfl⟩
  rw [LinkedHashmap.assign, hclear]
  change (other.memory.get other.memory.nextList other.head).bind _ = _
  rw [NodeMemory.get_eq (hother.ordered.live _ (by simp))]
  exact hrun

end LinkedHashmap

/-! ## Erasure -/

section

variable {as bs : List (ℕ × K × V)} {e : ℕ × K × V}

theorem chosen_middle_self :
    chosen hash capacity (hash e.2.1 % capacity) (as ++ e :: bs) =
      chosen hash capacity (hash e.2.1 % capacity) as ++
        e :: chosen hash capacity (hash e.2.1 % capacity) bs := by
  simp [chosen]

theorem chosen_middle_of_ne {i : ℕ} (h : hash e.2.1 % capacity ≠ i) :
    chosen hash capacity i (as ++ e :: bs) =
      chosen hash capacity i (as ++ bs) := by
  simp [chosen, h]

theorem nodesOf_middle :
    nodesOf (as ++ e :: bs) = nodesOf as ++ e.1 :: nodesOf bs := by
  rw [nodesOf, List.map_append, List.map_cons]

theorem nodesOf_sublist : (nodesOf (as ++ bs)).Sublist
    (nodesOf (as ++ e :: bs)) := by
  apply List.Sublist.map
  exact List.Sublist.append (List.Sublist.refl as) (List.sublist_cons_self e bs)

theorem Ordered.unlinked (h : Ordered m head tail (as ++ e :: bs)) :
    Ordered (m.unlinked e.1) head tail (as ++ bs) := by
  have hsub : (head :: nodesOf (as ++ bs) ++ [tail]).Sublist
      (head :: nodesOf (as ++ e :: bs) ++ [tail]) :=
    (nodesOf_sublist.cons_cons head).append (List.Sublist.refl [tail])
  have hsegment := h.segment
  have hnodup := h.nodup
  rw [nodesOf_middle] at hsegment hnodup
  refine ⟨?_, h.nodup.sublist hsub, fun p hp => h.live p (hsub.subset hp), ?_⟩
  · rw [nodesOf, List.map_append]
    exact hsegment.unlink hnodup
  · intro e' he'
    apply h.packet
    rcases List.mem_append.mp he' with he' | he'
    · exact List.mem_append_left _ he'
    · exact List.mem_append_right _ (List.mem_cons_of_mem e he')

/-- The chain of an entry, and its neighbours there. -/
theorem Hashed.exists_chain (h : Hashed hash m capacity table (as ++ e :: bs))
    (hpos : 0 < capacity) :
    ∃ cs ds : List ℕ,
      Segment m.nextHash m.prevHash (table + hash e.2.1 % capacity)
          (cs ++ e.1 :: ds) none ∧
        (cs ++ e.1 :: ds).Perm (nodesOf
          (chosen hash capacity (hash e.2.1 % capacity) (as ++ e :: bs))) ∧
        (∀ s, m.prevHash e.1 = some s →
          s ∈ (table + hash e.2.1 % capacity) :: cs) ∧
        ∀ s, m.nextHash e.1 = some s → s ∈ ds := by
  obtain ⟨c, hsegment, hperm⟩ := h.chain _ (Nat.mod_lt (hash e.2.1) hpos)
  have hmem : e.1 ∈ c := by
    rw [hperm.mem_iff, chosen_middle_self, nodesOf_middle]
    simp
  obtain ⟨cs, ds, rfl⟩ := List.append_of_mem hmem
  obtain ⟨hbefore, hafter⟩ := segment_append.mp hsegment
  refine ⟨cs, ds, hsegment, hperm, fun s hs => ?_, fun s hs => ?_⟩
  · obtain ⟨y, hy, hlast, -⟩ := hbefore.exists_last
    obtain rfl : y = s := Option.some.inj (hlast.symm.trans hs)
    exact hy
  · simpa using hafter.next_mem hs

theorem Hashed.unlinked (h : Hashed hash m capacity table (as ++ e :: bs))
    (hpos : 0 < capacity) :
    Hashed hash (m.unlinked e.1) capacity table (as ++ bs) := by
  have hi := Nat.mod_lt (hash e.2.1) hpos
  obtain ⟨cs, ds, hsegment, hperm, hprev, hnext⟩ := h.exists_chain hpos
  have hnodup := h.nodup_chain hi hperm
  refine ⟨fun j hj => ?_, h.nodup.sublist nodesOf_sublist,
    fun p hp => h.live p (nodesOf_sublist.subset hp), h.tableLive,
    fun j hj hmem => h.apart j hj (nodesOf_sublist.subset hmem)⟩
  by_cases hij : hash e.2.1 % capacity = j
  · subst hij
    refine ⟨cs ++ ds, hsegment.unlink (by simpa using hnodup), ?_⟩
    rw [chosen_middle_self, nodesOf_middle] at hperm
    rw [chosen_append, nodesOf, List.map_append]
    exact (List.perm_middle.symm.trans (hperm.trans List.perm_middle)).cons_inv
  · obtain ⟨d, hsegment', hperm'⟩ := h.chain j hj
    have hdisjoint := h.disjoint hi hj hij hperm hperm'
    refine ⟨d, hsegment'.unlink_frame ?_ ?_, ?_⟩
    · intro s hs hmem
      refine hdisjoint ?_ hmem
      rcases List.mem_cons.mp (hprev s hs) with rfl | hs
      · exact List.mem_cons_self
      · exact List.mem_cons_of_mem _ (List.mem_append_left _ hs)
    · intro s hs hmem
      rw [Option.toList_none, List.append_nil] at hmem
      refine hdisjoint ?_ (List.mem_cons_of_mem _ hmem)
      exact List.mem_cons_of_mem _ (List.mem_append_right cs
        (List.mem_cons_of_mem e.1 (hnext s hs)))
    · rwa [← chosen_middle_of_ne hij]

namespace LinkedHashmap

theorem Shape.erase {c : LinkedHashmap K V} (h : Shape hash c (as ++ e :: bs))
    (this : ℕ) :
    ∃ c', c.erase hash this ⟨e.1, this⟩ = some (.ok c') ∧
      Shape hash c' (as ++ bs) ∧ c'.sum = c.sum - 1 := by
  obtain ⟨hordered, hhashed, hpos, hb, hsides⟩ := h
  have hmem : e.1 ∈ nodesOf (as ++ e :: bs) := List.mem_map_of_mem (by simp)
  have hlive := hordered.live _ (mem_order_of_mem_nodes hmem)
  obtain ⟨cs, ds, hsegment, hperm, hprev, hnext⟩ := hhashed.exists_chain hpos
  have hnodes : ∀ q ∈ cs ++ e.1 :: ds, c.memory.live q = true := fun q hq =>
    hhashed.live q ((List.filter_sublist.map Prod.fst).subset
      (hperm.mem_iff.mp hq))
  have horder := hordered.segment
  rw [nodesOf_middle, segment_append] at horder
  have hdelete : c.memory.delete e.1 = some (c.memory.unlinked e.1) := by
    apply NodeMemory.delete_eq hlive
    · intro q hq
      obtain ⟨y, hy, hlast, -⟩ := horder.1.exists_last
      obtain rfl : y = q := Option.some.inj (hlast.symm.trans hq)
      apply hordered.live
      rw [nodesOf_middle]
      rcases List.mem_cons.mp hy with rfl | hy
      · exact List.mem_cons_self
      · exact List.mem_append_left _ (List.mem_cons_of_mem _
          (List.mem_append_left _ hy))
    · intro q hq
      apply hordered.live
      rw [nodesOf_middle]
      have hq' := horder.2.next_mem hq
      simp only [Option.toList_some, List.mem_append] at hq'
      rcases hq' with hq' | hq'
      · exact List.mem_append_left _ (List.mem_cons_of_mem _
          (List.mem_append_right _ (List.mem_cons_of_mem _ hq')))
      · exact List.mem_append_right _ hq'
    · intro q hq
      rcases List.mem_cons.mp (hprev q hq) with rfl | hq
      · exact hhashed.tableLive _ (Nat.mod_lt _ hpos)
      · exact hnodes q (List.mem_append_left _ hq)
    · intro q hq
      exact hnodes q (List.mem_append_right _
        (List.mem_cons_of_mem _ (hnext q hq)))
  have hne := hordered.ne_tail
  have hone : ∀ i < 1, e.1 + i = e.1 := by
    intro i hi
    rw [Nat.lt_one_iff.mp hi, Nat.add_zero]
  have hfree := NodeMemory.deleteNodes_eq
    (show ∀ i < 1, (c.memory.unlinked e.1).live (e.1 + i) = true from
      fun i hi => (hone i hi).symm ▸ hlive)
  -- the node lies in neither list
  have hgone : e.1 ∉ c.head :: nodesOf (as ++ bs) ++ [c.tail] := by
    have hnodup := hordered.nodup
    rw [nodesOf_middle] at hnodup
    have hperm : (c.head :: (nodesOf as ++ e.1 :: nodesOf bs) ++
        [c.tail]).Perm
          (e.1 :: (c.head :: nodesOf (as ++ bs) ++ [c.tail])) := by
      have hsplit : nodesOf (as ++ bs) = nodesOf as ++ nodesOf bs :=
        List.map_append
      simp only [hsplit, List.cons_append, List.append_assoc]
      exact @List.perm_middle _ e.1 (c.head :: nodesOf as)
        (nodesOf bs ++ [c.tail])
    exact (List.nodup_cons.mp (hperm.nodup_iff.mp hnodup)).1
  have hshape : Shape hash { c with
      memory := { c.memory.unlinked e.1 with
        live := fun r => (c.memory.unlinked e.1).live r &&
          !(e.1 ≤ r && r < e.1 + 1) }
      sum := c.sum - 1 } (as ++ bs) :=
    { ordered := hordered.unlinked.deleteNodes fun i hi =>
        (hone i hi).symm ▸ hgone
      hashed := (hhashed.unlinked hpos).deleteNodes
        (fun i hi hmem => hgone
          (mem_order_of_mem_nodes (hone i hi ▸ hmem)))
        (fun i hi j hj hij => hhashed.apart j hj
          (hij ▸ (hone i hi).symm ▸ hmem))
      pos := hpos
      bounded := NodeMemory.Bounded.deleteNodes hb
      sides := hsides }
  obtain ⟨c', hshrink, hshape', hsum⟩ := hshape.shrink
  refine ⟨c', ?_, hshape', hsum⟩
  rw [LinkedHashmap.erase, if_neg (by simpa using hne), hdelete]
  change ((c.memory.unlinked e.1).deleteNodes e.1 1).bind _ = _
  rw [hfree]
  change (LinkedHashmap.shrink hash _).bind _ = _
  rw [hshrink]
  rfl

end LinkedHashmap

end

end TicketSystem.Database
