import Mathlib
import TicketSystem.Database.LinkedHashmapSteps
import TicketSystem.Support.LinkedMap
import TicketSystem.Support.Machine

/-!
# Runs of linked hash maps

A program declares containers `0, 1, …` and calls their functions.  What it
sees are insertion-ordered maps: the list of the live entries, oldest first.
-/

namespace TicketSystem.Database

open TicketSystem.Support

variable {K V : Type}

/-! ## Insertion-ordered maps -/

namespace OrderedMap

variable (equal : K → K → Bool)

/-- The entry of the key. -/
def lookup (packets : List (K × V)) (key : K) : Option (K × V) :=
  packets.find? fun e => equal e.1 key

/-- A new key goes to the end. -/
def insert (packets : List (K × V)) (packet : K × V) : List (K × V) :=
  if (lookup equal packets packet.1).isSome then packets
  else packets ++ [packet]

/-- The key that is there stays, with another value. -/
def store (packets : List (K × V)) (key : K) (value : V) : List (K × V) :=
  packets.map fun e => if equal e.1 key then (e.1, value) else e

def erase (packets : List (K × V)) (key : K) : List (K × V) :=
  packets.eraseP fun e => equal e.1 key

/-- For the equality of keys these are the maps that the buffer pool is
modelled with. -/
theorem store_insert_eq_assignKey [DecidableEq K] {packets : List (K × V)}
    (h : (packets.map Prod.fst).Nodup) (key : K) (value value' : V) :
    store (fun a b => decide (a = b))
        (insert (fun a b => decide (a = b)) packets (key, value')) key value =
      assignKey key value packets := by
  induction packets with
  | nil => simp [insert, lookup, store, assignKey]
  | cons e packets ih =>
      obtain ⟨hfresh, hnodup⟩ := List.nodup_cons.mp h
      have ih := ih hnodup
      by_cases he : e.1 = key
      · have hrest : store (fun a b => decide (a = b)) packets key value =
            packets := by
          refine Eq.trans (List.map_congr_left fun e' he' => ?_)
            (List.map_id packets)
          have hne : e'.1 ≠ key := by
            rintro hkey
            exact hfresh (List.mem_map.mpr ⟨e', he', hkey.trans he.symm⟩)
          simp [hne]
        have hfound : (lookup (fun a b => decide (a = b)) (e :: packets)
            key).isSome := by
          simp [lookup, he]
        rw [assignKey, if_pos he, insert, if_pos hfound, store, List.map_cons]
        simp only [he, decide_true, if_true]
        exact congrArg _ hrest
      · have hsame : lookup (fun a b => decide (a = b)) (e :: packets) key =
            lookup (fun a b => decide (a = b)) packets key := by
          simp [lookup, he]
        rw [assignKey, if_neg he, ← ih, insert, insert, hsame]
        split
        · simp [store, he]
        · simp [store, he]

end OrderedMap

/-! ## Programs with containers -/

/-- A call; containers are named by numbers. -/
inductive MapCall (K V : Type)
  /-- `mᵢ[key]` -/
  | subscript (i : ℕ) (key : K)
  /-- `mᵢ[key] = value` -/
  | store (i : ℕ) (key : K) (value : V)
  /-- `mᵢ.insert(packet)` -/
  | insert (i : ℕ) (packet : K × V)
  /-- `mᵢ.erase(mᵢ.find(key))` -/
  | eraseKey (i : ℕ) (key : K)
  /-- `mᵢ.erase(pos)` for the iterator `n` places behind `mⱼ.begin()` -/
  | erase (i j n : ℕ)
  /-- `mᵢ.clear()` -/
  | clear (i : ℕ)
  /-- `mᵢ` is made anew as a copy of `mⱼ` -/
  | copy (i j : ℕ)
  /-- `mᵢ = mⱼ` -/
  | assign (i j : ℕ)

/-- What a call returns or throws. -/
inductive MapReply (K V : Type)
  | done
  | value (value : V)
  | inserted (packet : K × V) (flag : Bool)
  | thrown (error : LinkedHashmapError)
deriving DecidableEq, Repr

namespace LinkedHashmap

variable (hash : K → ℕ) (equal : K → K → Bool) (default : V)

/-- `mᵢ.erase(pos)` -/
def eraseStep (s : ℕ → LinkedHashmap K V) (i : ℕ) (pos : Iterator) :
    Option (MapReply K V × (ℕ → LinkedHashmap K V)) := do
  match ← (s i).erase hash i pos with
  | .error e => some (.thrown e, s)
  | .ok m => some (.done, Function.update s i m)

def step (s : ℕ → LinkedHashmap K V) :
    MapCall K V → Option (MapReply K V × (ℕ → LinkedHashmap K V))
  | .subscript i key => do
      let (curr, m) ← (s i).subscript hash equal default key
      let packet ← m.memory.getPacket curr
      return (.value packet.2, Function.update s i m)
  | .store i key value => do
      let (curr, m) ← (s i).subscript hash equal default key
      let packet ← m.memory.getPacket curr
      let memory ← m.memory.setPacket curr (packet.1, value)
      return (.value value, Function.update s i { m with memory := memory })
  | .insert i packet => do
      let ((pos, flag), m) ← (s i).insert hash equal i packet
      let packet ← m.memory.getPacket pos.curr
      return (.inserted packet flag, Function.update s i m)
  | .eraseKey i key => do
      eraseStep hash s i (← (s i).find hash equal i key)
  | .erase i j n => do
      match ← (s j).advance (← (s j).begin j) n with
      | .error e => some (.thrown e, s)
      | .ok pos => eraseStep hash s i pos
  | .clear i => do
      return (.done, Function.update s i (← (s i).clear))
  | .copy i j => do
      return (.done, Function.update s i (← (s j).copy hash))
  | .assign i j =>
      if i = j then some (.done, s)
      else do return (.done, Function.update s i (← (s i).assign hash (s j)))

end LinkedHashmap

namespace OrderedMap

variable (equal : K → K → Bool) (default : V)

/-- The same call on insertion-ordered maps. -/
def step (s : ℕ → List (K × V)) :
    MapCall K V → MapReply K V × (ℕ → List (K × V))
  | .subscript i key =>
      (.value (((lookup equal (s i) key).map Prod.snd).getD default),
        Function.update s i (insert equal (s i) (key, default)))
  | .store i key value =>
      (.value value, Function.update s i
        (store equal (insert equal (s i) (key, default)) key value))
  | .insert i packet =>
      (.inserted ((lookup equal (s i) packet.1).getD packet)
          (lookup equal (s i) packet.1).isNone,
        Function.update s i (insert equal (s i) packet))
  | .eraseKey i key =>
      if (lookup equal (s i) key).isSome then
        (.done, Function.update s i (erase equal (s i) key))
      else (.thrown .invalidIterator, s)
  | .erase i j n =>
      if i = j ∧ n < (s i).length then
        (.done, Function.update s i ((s i).eraseIdx n))
      else (.thrown .invalidIterator, s)
  | .clear i => (.done, Function.update s i [])
  | .copy i j => (.done, Function.update s i (s j))
  | .assign i j => (.done, Function.update s i (s j))

end OrderedMap

namespace LinkedHashmap

variable {hash : K → ℕ} {equal : K → K → Bool}

/-- The container holds the packets in this order. -/
structure Holds (hash : K → ℕ) (equal : K → K → Bool) (c : LinkedHashmap K V)
    (packets : List (K × V)) : Prop where
  shape : ∃ es, Shape hash c es ∧ es.map Prod.snd = packets
  distinct : DistinctKeys equal packets
  sum_eq : c.sum = packets.length

variable {c : LinkedHashmap K V} {es : List (ℕ × K × V)}
  {packets : List (K × V)}

theorem lookup_map_snd (equal : K → K → Bool) (es : List (ℕ × K × V))
    (key : K) :
    OrderedMap.lookup equal (es.map Prod.snd) key =
      (es.find? fun e => equal e.2.1 key).map Prod.snd := by
  rw [OrderedMap.lookup, List.find?_map]
  rfl

theorem Shape.with_sum (h : Shape hash c es) (sum : ℕ) :
    Shape hash { c with sum := sum } es :=
  ⟨h.ordered, h.hashed, h.pos, h.bounded, h.sides⟩

/-! ### Insertion -/

/-- `insert` leads to the entry of the key, and there is one. -/
theorem Shape.insert (h : Shape hash c es) (hr : Respects hash equal)
    (hkeys : DistinctKeys equal (es.map Prod.snd)) (hsum : c.sum = es.length)
    (this : ℕ) (packet : K × V) :
    ∃ e c' es', c.insert hash equal this packet =
        some ((⟨e.1, this⟩,
          (OrderedMap.lookup equal (es.map Prod.snd) packet.1).isNone), c') ∧
      Shape hash c' es' ∧
      es'.map Prod.snd = OrderedMap.insert equal (es.map Prod.snd) packet ∧
      c'.sum = es'.length ∧ e ∈ es' ∧ equal e.2.1 packet.1 = true ∧
      e.2 = (OrderedMap.lookup equal (es.map Prod.snd) packet.1).getD
        packet := by
  have hfind := h.findNode hr hkeys packet.1
  have hlookup := lookup_map_snd equal es packet.1
  cases hcase : es.find? fun e => equal e.2.1 packet.1 with
  | some e =>
      rw [hcase] at hfind hlookup
      refine ⟨e, c, es, ?_, h, ?_, hsum, List.mem_of_find?_eq_some hcase, ?_,
        ?_⟩
      · rw [LinkedHashmap.insert, hfind, hlookup]
        rfl
      · rw [OrderedMap.insert, hlookup]
        rfl
      · simpa using List.find?_some hcase
      · rw [hlookup]
        rfl
  | none =>
      rw [hcase] at hfind hlookup
      obtain ⟨x, memory, hinsert, hshape⟩ := h.insertNode packet
      obtain ⟨c', hexpand, hshape', hsum'⟩ :=
        (hshape.with_sum (c.sum + 1)).expand
      refine ⟨(x, packet), c', es ++ [(x, packet)], ?_, hshape', ?_, ?_,
        by simp, hr.equivalence.refl packet.1, ?_⟩
      · rw [LinkedHashmap.insert, hfind, hlookup]
        change (c.insertNode hash packet).bind _ = _
        rw [hinsert]
        change (LinkedHashmap.expand hash _).bind _ = _
        rw [hexpand]
        rfl
      · rw [OrderedMap.insert, hlookup, List.map_append]
        rfl
      · rw [hsum', List.length_append, ← hsum]
        rfl
      · rw [hlookup]
        rfl

/-- `operator[]` inserts the default value. -/
theorem subscript_eq_insert (default : V) (this : ℕ) (key : K) :
    c.subscript hash equal default key =
      (c.insert hash equal this (key, default)).map fun r =>
        (r.1.1.curr, r.2) := by
  rw [LinkedHashmap.subscript, LinkedHashmap.insert]
  cases c.findNode hash equal key with
  | none => rfl
  | some found =>
      cases found with
      | some curr => rfl
      | none =>
          change (c.insertNode hash (key, default)).bind _ =
            Option.map _ ((c.insertNode hash (key, default)).bind _)
          cases c.insertNode hash (key, default) with
          | none => rfl
          | some r =>
              change (LinkedHashmap.expand hash _).bind _ =
                Option.map _ ((LinkedHashmap.expand hash _).bind _)
              cases LinkedHashmap.expand hash
                { r.2 with sum := r.2.sum + 1 } <;> rfl

theorem DistinctKeys.insert (h : DistinctKeys equal packets)
    (packet : K × V) :
    DistinctKeys equal (OrderedMap.insert equal packets packet) := by
  rw [OrderedMap.insert]
  split
  · exact h
  · next hnone =>
    refine List.pairwise_append.mpr ⟨h, List.pairwise_singleton _ _, ?_⟩
    intro e he e' he'
    obtain rfl := List.mem_singleton.mp he'
    rw [Option.not_isSome_iff_eq_none, OrderedMap.lookup,
      List.find?_eq_none] at hnone
    exact Bool.eq_false_iff.mpr (hnone e he)

/-! ### Values -/

theorem nodesOf_chosen_map {capacity i : ℕ}
    {f : ℕ × K × V → ℕ × K × V} (hnode : ∀ e ∈ es, (f e).1 = e.1)
    (hkey : ∀ e ∈ es, (f e).2.1 = e.2.1) :
    nodesOf (chosen hash capacity i (es.map f)) =
      nodesOf (chosen hash capacity i es) := by
  have hsame : chosen hash capacity i (es.map f) =
      (chosen hash capacity i es).map f := by
    rw [chosen, List.filter_map]
    congr 1
    apply List.filter_congr
    intro e he
    simp [hkey e he]
  rw [hsame, nodesOf, List.map_map]
  exact List.map_congr_left fun e he => hnode e (List.mem_of_mem_filter he)

/-- A value is written to the entry `e`. -/
theorem Shape.setPacket (h : Shape hash c es) {e : ℕ × K × V} (he : e ∈ es)
    (value : V) :
    ∃ memory, c.memory.setPacket e.1 (e.2.1, value) = some memory ∧
      Shape hash { c with memory := memory }
        (es.map fun e' =>
          if e'.1 = e.1 then (e'.1, e'.2.1, value) else e') := by
  obtain ⟨hordered, hhashed, hpos, hb, hsides⟩ := h
  set f : ℕ × K × V → ℕ × K × V := fun e' =>
    if e'.1 = e.1 then (e'.1, e'.2.1, value) else e' with hf
  have hnode : ∀ e', (f e').1 = e'.1 := by
    intro e'
    simp only [hf]
    split <;> rfl
  have hkey : ∀ e', (f e').2.1 = e'.2.1 := by
    intro e'
    simp only [hf]
    split <;> rfl
  have hnodes : nodesOf (es.map f) = nodesOf es := by
    rw [nodesOf, List.map_map]
    exact List.map_congr_left fun e' _ => hnode e'
  have hlive := hhashed.live e.1 (List.mem_map_of_mem he)
  refine ⟨_, NodeMemory.put_eq hlive _, ⟨?_, ?_, ?_, ?_⟩,
    ⟨?_, ?_, ?_, hhashed.tableLive, ?_⟩, hpos, hb, hsides⟩
  · rw [hnodes]
    exact hordered.segment
  · rw [hnodes]
    exact hordered.nodup
  · rw [hnodes]
    exact hordered.live
  · intro e' he'
    obtain ⟨e₀, he₀, rfl⟩ := List.mem_map.mp he'
    by_cases hsame : e₀.1 = e.1
    · obtain rfl : e₀ = e :=
        List.inj_on_of_nodup_map hhashed.nodup he₀ he hsame
      simp [hf]
    · simp only [hf, if_neg hsame]
      exact (Function.update_of_ne hsame _ _).trans (hordered.packet e₀ he₀)
  · intro i hi
    rw [nodesOf_chosen_map (fun e' _ => hnode e') fun e' _ => hkey e']
    exact hhashed.chain i hi
  · rw [hnodes]
    exact hhashed.nodup
  · rw [hnodes]
    exact hhashed.live
  · rw [hnodes]
    exact hhashed.apart

/-- The entry `e` is the one of the key. -/
theorem store_map_snd (hr : Respects hash equal)
    (hnodup : (nodesOf es).Nodup)
    (hkeys : DistinctKeys equal (es.map Prod.snd)) {e : ℕ × K × V}
    (he : e ∈ es) {key : K} (hequal : equal e.2.1 key = true) (value : V) :
    (es.map fun e' =>
        if e'.1 = e.1 then (e'.1, e'.2.1, value) else e').map Prod.snd =
      OrderedMap.store equal (es.map Prod.snd) key value := by
  rw [OrderedMap.store, List.map_map, List.map_map]
  apply List.map_congr_left
  intro e' he'
  by_cases hsame : e'.1 = e.1
  · obtain rfl := List.inj_on_of_nodup_map hnodup he' he hsame
    simp [hequal]
  · have hother : equal e'.2.1 key = false := by
      rw [Bool.eq_false_iff]
      intro hequal'
      apply hsame
      rw [hkeys.eq_of_equal hr he' he
        (hr.equivalence.trans hequal' (hr.equivalence.symm hequal))]
    simp [hsame, hother]

theorem DistinctKeys.store (h : DistinctKeys equal packets) (key : K)
    (value : V) : DistinctKeys equal (OrderedMap.store equal packets key value) := by
  refine List.pairwise_map.mpr (h.imp fun {a b} hab => ?_)
  split <;> split <;> exact hab

/-- `insert` leads to the entry `e` of the key, whose value can be written. -/
theorem Holds.insert (h : Holds hash equal c packets)
    (hr : Respects hash equal) (this : ℕ) (packet : K × V) :
    ∃ (e : ℕ × K × V) (c' : LinkedHashmap K V),
      c.insert hash equal this packet = some ((⟨e.1, this⟩,
          (OrderedMap.lookup equal packets packet.1).isNone), c') ∧
      Holds hash equal c' (OrderedMap.insert equal packets packet) ∧
      c'.memory.getPacket e.1 = some e.2 ∧
      e.2 = (OrderedMap.lookup equal packets packet.1).getD packet ∧
      ∀ value, ∃ memory,
        c'.memory.setPacket e.1 (e.2.1, value) = some memory ∧
          Holds hash equal { c' with memory := memory }
            (OrderedMap.store equal (OrderedMap.insert equal packets packet)
              packet.1 value) := by
  obtain ⟨⟨es, hshape, rfl⟩, hdistinct, hsum⟩ := h
  rw [List.length_map] at hsum
  obtain ⟨e, c', es', hrun, hshape', hes', hsum', he, hequal, hvalue⟩ :=
    hshape.insert hr hdistinct hsum this packet
  have hdistinct' := hdistinct.insert packet
  rw [← hes'] at hdistinct' ⊢
  have hpacket := NodeMemory.getPacket_eq
    (hshape'.hashed.live _ (List.mem_map_of_mem he))
    (hshape'.ordered.packet e he)
  refine ⟨e, c', hrun, ⟨⟨es', hshape', rfl⟩, hdistinct', ?_⟩, hpacket, hvalue,
    fun value => ?_⟩
  · rw [hsum', List.length_map]
  · obtain ⟨memory, hset, hshape''⟩ := hshape'.setPacket he value
    refine ⟨memory, hset, ⟨_, hshape'', ?_⟩, hdistinct'.store packet.1 value,
      ?_⟩
    · exact store_map_snd hr hshape'.hashed.nodup hdistinct' he hequal value
    · change c'.sum = _
      rw [hsum', OrderedMap.store, List.length_map, List.length_map]

/-! ### Iterators -/

/-- A step from an entry leads to the next node. -/
theorem increment_eq {done rest : List (ℕ × K × V)} {e : ℕ × K × V}
    (h : Ordered c.memory c.head c.tail (done ++ e :: rest)) (this : ℕ)
    {q : ℕ} (hq : (nodesOf rest ++ [c.tail]).head? = some q) :
    c.increment ⟨e.1, this⟩ = some (.ok ⟨q, this⟩) := by
  have hmem : e.1 ∈ nodesOf (done ++ e :: rest) :=
    List.mem_map_of_mem (by simp)
  have hlive := h.live _ (mem_order_of_mem_nodes hmem)
  rw [increment, if_neg h.ne_tail, NodeMemory.get_eq hlive, h.next_entry, hq]
  rfl

/-- `n` steps from the node after `done`. -/
theorem advance_spec (done : List (ℕ × K × V)) {rest : List (ℕ × K × V)}
    {this curr : ℕ}
    (h : Ordered c.memory c.head c.tail (done ++ rest))
    (hcurr : (nodesOf rest ++ [c.tail]).head? = some curr) (n : ℕ) :
    c.advance ⟨curr, this⟩ n =
      match (nodesOf rest ++ [c.tail])[n]? with
      | some p => some (.ok ⟨p, this⟩)
      | none => some (.error .invalidIterator) := by
  induction n generalizing done rest curr with
  | zero =>
      rw [← List.head?_eq_getElem?, hcurr]
      rfl
  | succ n ih =>
      cases rest with
      | nil =>
          obtain rfl : c.tail = curr := Option.some.inj hcurr
          rw [advance, increment, if_pos rfl]
          rfl
      | cons e rest =>
          obtain rfl : e.1 = curr := Option.some.inj hcurr
          obtain ⟨q, hq⟩ : ∃ q, (nodesOf rest ++ [c.tail]).head? = some q :=
            ⟨_, List.head?_eq_some_head (by simp)⟩
          have happend : done ++ e :: rest = done ++ [e] ++ rest := by simp
          rw [advance, increment_eq h this hq]
          exact ih (done ++ [e]) (happend ▸ h) hq

theorem Shape.advance (h : Shape hash c es) (this n : ℕ) :
    (do c.advance (← c.begin this) n) =
      match (nodesOf es ++ [c.tail])[n]? with
      | some p => some (.ok ⟨p, this⟩)
      | none => some (.error .invalidIterator) := by
  obtain ⟨q, hq⟩ : ∃ q, (nodesOf es ++ [c.tail]).head? = some q :=
    ⟨_, List.head?_eq_some_head (by simp)⟩
  have hbegin : c.begin this = some ⟨q, this⟩ := by
    rw [LinkedHashmap.begin, NodeMemory.get_eq
      (h.ordered.live c.head (by simp)), Segment.next_eq h.ordered.segment, hq]
    rfl
  rw [hbegin]
  exact advance_spec [] h.ordered hq n

/-! ### Steps -/

/-- The containers of a program hold the packets. -/
def Follows (hash : K → ℕ) (equal : K → K → Bool) (s : ℕ → LinkedHashmap K V)
    (t : ℕ → List (K × V)) : Prop :=
  ∀ i, Holds hash equal (s i) (t i)

variable {s : ℕ → LinkedHashmap K V} {t : ℕ → List (K × V)}

theorem Follows.update (h : Follows hash equal s t) (i : ℕ)
    (hc : Holds hash equal c packets) :
    Follows hash equal (Function.update s i c) (Function.update t i packets) := by
  intro j
  by_cases hj : j = i
  · rw [hj, Function.update_self, Function.update_self]
    exact hc
  · rw [Function.update_of_ne hj, Function.update_of_ne hj]
    exact h j

theorem Follows.eraseStep (h : Follows hash equal s t) {i : ℕ}
    {as bs : List (ℕ × K × V)} {e : ℕ × K × V}
    (hshape : Shape hash (s i) (as ++ e :: bs))
    (hpackets : (as ++ e :: bs).map Prod.snd = t i) :
    ∃ s', eraseStep hash s i ⟨e.1, i⟩ = some (.done, s') ∧
      Follows hash equal s'
        (Function.update t i ((as ++ bs).map Prod.snd)) := by
  obtain ⟨c', herase, hshape', hsum⟩ := hshape.erase i
  obtain ⟨-, hdistinct, hcount⟩ := h i
  have hsub : (as ++ bs).Sublist (as ++ e :: bs) :=
    (List.Sublist.refl as).append (List.sublist_cons_self e bs)
  refine ⟨Function.update s i c', ?_, h.update i ⟨⟨_, hshape', rfl⟩, ?_, ?_⟩⟩
  · rw [LinkedHashmap.eraseStep, herase]
    rfl
  · rw [← hpackets] at hdistinct
    exact hdistinct.sublist (hsub.map Prod.snd)
  · rw [hsum, hcount, ← hpackets]
    simp only [List.length_map, List.length_append, List.length_cons]
    omega

theorem find?_eq_some_append {α : Type*} {p : α → Bool} {l : List α}
    (h : (l.find? p).isSome) :
    ∃ as a bs, l = as ++ a :: bs ∧ l.find? p = some a ∧
      l.eraseP p = as ++ bs := by
  obtain ⟨a, ha⟩ := Option.isSome_iff_exists.mp h
  obtain ⟨b, as, bs, hbefore, hb, hl, herase⟩ := List.exists_of_eraseP
    (List.mem_of_find?_eq_some ha) (List.find?_some ha)
  refine ⟨as, b, bs, hl, ?_, herase⟩
  rw [hl, List.find?_append, List.find?_eq_none.mpr hbefore, Option.none_or,
    List.find?_cons_of_pos hb]

variable {default : V}

theorem Follows.eraseKey (h : Follows hash equal s t)
    (hr : Respects hash equal) (i : ℕ) (key : K) :
    ∃ s', step hash equal default s (.eraseKey i key) =
        some ((OrderedMap.step equal default t (.eraseKey i key)).1, s') ∧
      Follows hash equal s'
        (OrderedMap.step equal default t (.eraseKey i key)).2 := by
  obtain ⟨⟨es, hshape, hes⟩, hdistinct, -⟩ := h i
  rw [← hes] at hdistinct
  have hfind := hshape.findNode hr hdistinct key
  have hlookup : OrderedMap.lookup equal (t i) key =
      (es.find? fun e => equal e.2.1 key).map Prod.snd := by
    rw [← hes, lookup_map_snd]
  cases hcase : es.find? fun e => equal e.2.1 key with
  | none =>
      rw [hcase] at hfind hlookup
      rw [OrderedMap.step, hlookup, if_neg (by simp)]
      refine ⟨s, ?_, h⟩
      have hend : (s i).find hash equal i key = some ⟨(s i).tail, i⟩ := by
        rw [LinkedHashmap.find, hfind]
        rfl
      rw [step, hend]
      change LinkedHashmap.eraseStep hash s i ⟨(s i).tail, i⟩ = _
      rw [LinkedHashmap.eraseStep, LinkedHashmap.erase, if_pos (Or.inr rfl)]
      rfl
  | some e =>
      obtain ⟨as, e', bs, rfl, hsome, herase⟩ :=
        find?_eq_some_append (Option.isSome_iff_exists.mpr ⟨e, hcase⟩)
      obtain rfl : e' = e := Option.some.inj (hsome.symm.trans hcase)
      rw [hcase] at hfind hlookup
      rw [OrderedMap.step, hlookup, if_pos (by simp)]
      have hpos : (s i).find hash equal i key = some ⟨e'.1, i⟩ := by
        rw [LinkedHashmap.find, hfind]
        rfl
      have herased : OrderedMap.erase equal (t i) key =
          (as ++ bs).map Prod.snd := by
        rw [OrderedMap.erase, ← hes, List.eraseP_map, ← herase]
        rfl
      obtain ⟨s', hstep, hfollows⟩ := h.eraseStep hshape hes
      refine ⟨s', ?_, herased ▸ hfollows⟩
      rw [step, hpos]
      exact hstep

theorem Follows.erase (h : Follows hash equal s t) (i j n : ℕ) :
    ∃ s', step hash equal default s (.erase i j n) =
        some ((OrderedMap.step equal default t (.erase i j n)).1, s') ∧
      Follows hash equal s'
        (OrderedMap.step equal default t (.erase i j n)).2 := by
  obtain ⟨⟨es, hshape, hes⟩, -, -⟩ := h j
  have hlength : es.length = (t j).length := by rw [← hes, List.length_map]
  have hadvance := hshape.advance j n
  have hrun : step hash equal default s (.erase i j n) =
      match (nodesOf es ++ [(s j).tail])[n]? with
      | some p => LinkedHashmap.eraseStep hash s i ⟨p, j⟩
      | none => some (.thrown .invalidIterator, s) := by
    change ((s j).begin j).bind (fun pos => ((s j).advance pos n).bind _) = _
    rw [← Option.bind_assoc]
    change (do (s j).advance (← (s j).begin j) n).bind _ = _
    rw [hadvance]
    split <;> rfl
  rw [hrun, OrderedMap.step]
  by_cases hn : i = j ∧ n < (t i).length
  · obtain ⟨rfl, hn⟩ := hn
    rw [if_pos ⟨rfl, hn⟩]
    have hlt : n < es.length := hlength.trans_gt hn
    have hget : (nodesOf es ++ [(s i).tail])[n]? = some es[n].1 := by
      rw [List.getElem?_append_left (by simpa using hlt), List.getElem?_map,
        List.getElem?_eq_getElem hlt]
      rfl
    have hsplit : es = es.take n ++ es[n] :: es.drop (n + 1) := by
      rw [List.cons_getElem_drop_succ, List.take_append_drop]
    have herased : (t i).eraseIdx n =
        (es.take n ++ es.drop (n + 1)).map Prod.snd := by
      rw [← hes, ← List.eraseIdx_eq_take_drop_succ, List.eraseIdx_map]
    obtain ⟨s', hstep, hfollows⟩ :=
      h.eraseStep (hsplit ▸ hshape) (hsplit ▸ hes)
    rw [hget]
    exact ⟨s', hstep, herased ▸ hfollows⟩
  · rw [if_neg hn]
    refine ⟨s, ?_, h⟩
    split
    · next p hp =>
      rw [LinkedHashmap.eraseStep, LinkedHashmap.erase, if_pos]
      · rfl
      · by_cases hij : i = j
        · subst hij
          right
          have hge : (nodesOf es).length ≤ n := by
            rw [List.length_map, hlength]
            exact Nat.not_lt.mp fun hlt => hn ⟨rfl, hlt⟩
          rw [List.getElem?_append_right hge] at hp
          have hmem := List.mem_of_getElem? hp
          exact List.mem_singleton.mp hmem
        · exact Or.inl (Ne.symm hij)
    · rfl

/-- Every call does to the containers what it does to the maps. -/
theorem Follows.step (default : V) (h : Follows hash equal s t)
    (hr : Respects hash equal) (call : MapCall K V) :
    ∃ s', step hash equal default s call =
        some ((OrderedMap.step equal default t call).1, s') ∧
      Follows hash equal s' (OrderedMap.step equal default t call).2 := by
  cases call with
  | subscript i key =>
      obtain ⟨e, c', hrun, hholds, hpacket, hvalue, -⟩ :=
        (h i).insert hr i (key, default)
      refine ⟨Function.update s i c', ?_, h.update i hholds⟩
      rw [LinkedHashmap.step, subscript_eq_insert default i, hrun]
      change (c'.memory.getPacket e.1).bind _ = _
      rw [hpacket, hvalue, OrderedMap.step]
      cases OrderedMap.lookup equal (t i) key <;> rfl
  | store i key value =>
      obtain ⟨e, c', hrun, -, hpacket, -, hstore⟩ :=
        (h i).insert hr i (key, default)
      obtain ⟨memory, hset, hholds⟩ := hstore value
      refine ⟨Function.update s i { c' with memory := memory }, ?_,
        h.update i hholds⟩
      rw [LinkedHashmap.step, subscript_eq_insert default i, hrun]
      change (c'.memory.getPacket e.1).bind _ = _
      rw [hpacket]
      change (c'.memory.setPacket e.1 (e.2.1, value)).bind _ = _
      rw [hset]
      rfl
  | insert i packet =>
      obtain ⟨e, c', hrun, hholds, hpacket, hvalue, -⟩ :=
        (h i).insert hr i packet
      refine ⟨Function.update s i c', ?_, h.update i hholds⟩
      rw [LinkedHashmap.step, hrun]
      change (c'.memory.getPacket e.1).bind _ = _
      rw [hpacket, hvalue]
      rfl
  | eraseKey i key => exact h.eraseKey hr i key
  | erase i j n => exact h.erase i j n
  | clear i =>
      obtain ⟨⟨es, hshape, -⟩, -, -⟩ := h i
      obtain ⟨c', hrun, hshape', hsum⟩ := hshape.clear
      refine ⟨Function.update s i c', ?_, h.update i
        ⟨⟨[], hshape', rfl⟩, List.Pairwise.nil, hsum⟩⟩
      rw [LinkedHashmap.step, hrun]
      rfl
  | copy i j =>
      obtain ⟨⟨es, hshape, hes⟩, hdistinct, hsum⟩ := h j
      obtain ⟨c', es', hrun, hshape', hes', hsum'⟩ := hshape.copy
      refine ⟨Function.update s i c', ?_, h.update i
        ⟨⟨es', hshape', hes'.trans hes⟩, hdistinct, hsum'.trans hsum⟩⟩
      rw [LinkedHashmap.step, hrun]
      rfl
  | assign i j =>
      by_cases hij : i = j
      · subst hij
        refine ⟨s, if_pos rfl, ?_⟩
        rw [OrderedMap.step, Function.update_eq_self]
        exact h
      · obtain ⟨⟨es, hshape, hes⟩, hdistinct, hsum⟩ := h j
        obtain ⟨⟨esᵢ, hshapeᵢ, -⟩, -, -⟩ := h i
        obtain ⟨c', es', hrun, hshape', hes', hsum'⟩ := hshapeᵢ.assign hshape
        refine ⟨Function.update s i c', ?_, h.update i
          ⟨⟨es', hshape', hes'.trans hes⟩, hdistinct, hsum'.trans hsum⟩⟩
        rw [LinkedHashmap.step, if_neg hij, hrun]
        rfl

/-! ### What is seen -/

/-- The loop `for (it = begin(); it != end(); ++it)` with the nodes it
visits. -/
def iterateFrom (c : LinkedHashmap K V) :
    ℕ → Iterator → Option (List (ℕ × K × V))
  | 0, pos => if pos.curr = c.tail then some [] else none
  | fuel + 1, pos =>
      if pos.curr = c.tail then some []
      else do
        let packet ← c.memory.getPacket pos.curr
        match ← c.increment pos with
        | .error _ => none
        | .ok next => return (pos.curr, packet) :: (← c.iterateFrom fuel next)

def iterate (c : LinkedHashmap K V) (this : ℕ) :
    Option (List (ℕ × K × V)) := do
  c.iterateFrom c.memory.top (← c.begin this)

/-- The nodes of the chain `i`. -/
def chainNodes (c : LinkedHashmap K V) (i : ℕ) : Option (List ℕ) :=
  walk c.memory.nextHash none c.memory.top (c.memory.nextHash (c.table + i))

theorem iterateFrom_spec (done : List (ℕ × K × V))
    {rest : List (ℕ × K × V)} {this curr : ℕ}
    (h : Ordered c.memory c.head c.tail (done ++ rest))
    (hcurr : (nodesOf rest ++ [c.tail]).head? = some curr) {fuel : ℕ}
    (hfuel : rest.length ≤ fuel) :
    c.iterateFrom fuel ⟨curr, this⟩ = some rest := by
  induction rest generalizing done curr fuel with
  | nil =>
      obtain rfl : c.tail = curr := Option.some.inj hcurr
      cases fuel <;> exact if_pos rfl
  | cons e rest ih =>
      obtain rfl : e.1 = curr := Option.some.inj hcurr
      obtain ⟨fuel, rfl⟩ : ∃ n, fuel = n + 1 :=
        Nat.exists_eq_succ_of_ne_zero (Nat.ne_of_gt
          (lt_of_lt_of_le (Nat.succ_pos rest.length) hfuel))
      obtain ⟨q, hq⟩ : ∃ q, (nodesOf rest ++ [c.tail]).head? = some q :=
        ⟨_, List.head?_eq_some_head (by simp)⟩
      have hmem : e.1 ∈ nodesOf (done ++ e :: rest) :=
        List.mem_map_of_mem (by simp)
      have hlive := h.live _ (mem_order_of_mem_nodes hmem)
      have hincrement := increment_eq h this hq
      have happend : done ++ e :: rest = done ++ [e] ++ rest := by simp
      rw [iterateFrom, if_neg (h.ne_tail),
        NodeMemory.getPacket_eq hlive (h.packet e (by simp))]
      change (c.increment ⟨e.1, this⟩).bind _ = _
      rw [hincrement]
      change (c.iterateFrom fuel ⟨q, this⟩).bind _ = _
      rw [ih (done ++ [e]) (happend ▸ h) hq (Nat.le_of_succ_le_succ hfuel)]
      rfl

/-- What a program can see of the container `this`. -/
structure Represents (hash : K → ℕ) (equal : K → K → Bool) (this : ℕ)
    (c : LinkedHashmap K V) (packets : List (K × V)) : Prop where
  find : ∀ key, ∃ pos, c.find hash equal this key = some pos ∧
    pos.source = this ∧
      match OrderedMap.lookup equal packets key with
      | none => pos.curr = c.tail
      | some packet => pos.curr ≠ c.tail ∧
          c.memory.getPacket pos.curr = some packet
  count : ∀ key, c.count hash equal key =
    some (if (OrderedMap.lookup equal packets key).isSome then 1 else 0)
  atKey : ∀ key, match OrderedMap.lookup equal packets key with
    | none => c.atKey hash equal key = some (.error .indexOutOfBound)
    | some packet => ∃ p, c.atKey hash equal key = some (.ok p) ∧
        c.memory.getPacket p = some packet
  size : c.size = packets.length
  /-- The iteration visits the packets in order, each at a node of its own,
  and the chains hold the nodes that the hash selects. -/
  iterate : ∃ es, c.iterate this = some es ∧ (nodesOf es).Nodup ∧
    es.map Prod.snd = packets ∧ ∀ i < c.capacity, ∃ ps,
      c.chainNodes i = some ps ∧
        ps.Perm (nodesOf (chosen hash c.capacity i es))

theorem Shape.iterate (h : Shape hash c es) (this : ℕ) :
    c.iterate this = some es := by
  obtain ⟨q, hq⟩ : ∃ q, (nodesOf es ++ [c.tail]).head? = some q :=
    ⟨_, List.head?_eq_some_head (by simp)⟩
  have hbegin : c.begin this = some ⟨q, this⟩ := by
    rw [LinkedHashmap.begin, NodeMemory.get_eq
      (h.ordered.live c.head (by simp)), Segment.next_eq h.ordered.segment, hq]
    rfl
  rw [LinkedHashmap.iterate, hbegin]
  exact iterateFrom_spec [] h.ordered hq
    (h.ordered.length_le h.bounded)

theorem Shape.chainNodes (h : Shape hash c es) {i : ℕ} (hi : i < c.capacity) :
    ∃ ps, c.chainNodes i = some ps ∧
      ps.Perm (nodesOf (chosen hash c.capacity i es)) := by
  obtain ⟨ps, hsegment, hperm⟩ := h.hashed.chain i hi
  have hlength : ps.length ≤ c.memory.top :=
    length_le_of_nodup
      (List.nodup_cons.mp (h.hashed.nodup_chain hi hperm)).2
      fun q hq => h.bounded q (h.hashed.live q
        ((List.filter_sublist.map Prod.fst).subset (hperm.mem_iff.mp hq)))
  exact ⟨ps, hsegment.walk (fun r _ hr => by cases hr) hlength, hperm⟩

theorem Holds.represents (h : Holds hash equal c packets)
    (hr : Respects hash equal) (this : ℕ) :
    Represents hash equal this c packets := by
  obtain ⟨⟨es, hshape, rfl⟩, hdistinct, hsum⟩ := h
  have hnode : ∀ {key : K} {e : ℕ × K × V},
      (es.find? fun e => equal e.2.1 key) = some e →
        e.1 ≠ c.tail ∧ c.memory.getPacket e.1 = some e.2 := by
    intro key e he
    have hmem := List.mem_of_find?_eq_some he
    obtain ⟨as, bs, rfl⟩ := List.append_of_mem hmem
    exact ⟨hshape.ordered.ne_tail, NodeMemory.getPacket_eq
      (hshape.hashed.live _ (List.mem_map_of_mem hmem))
      (hshape.ordered.packet e hmem)⟩
  refine ⟨fun key => ?_, fun key => ?_, fun key => ?_, hsum,
    es, hshape.iterate this, hshape.hashed.nodup, rfl,
      fun i hi => hshape.chainNodes hi⟩
  · have hfind := hshape.findNode hr hdistinct key
    rw [lookup_map_snd, LinkedHashmap.find, hfind]
    cases hcase : es.find? fun e => equal e.2.1 key with
    | none => exact ⟨_, rfl, rfl, rfl⟩
    | some e => exact ⟨_, rfl, rfl, hnode hcase⟩
  · have hfind := hshape.findNode hr hdistinct key
    rw [lookup_map_snd, LinkedHashmap.count, hfind]
    cases es.find? fun e => equal e.2.1 key <;> rfl
  · have hfind := hshape.findNode hr hdistinct key
    rw [lookup_map_snd, LinkedHashmap.atKey, hfind]
    cases hcase : es.find? fun e => equal e.2.1 key with
    | none => rfl
    | some e => exact ⟨e.1, rfl, (hnode hcase).2⟩

/-- Every sequence of calls on containers, each of which was made empty, gives
the answers of insertion-ordered maps, and then the containers are seen as
these maps. -/
theorem run_represents (hr : Respects hash equal) (default : V)
    (calls : List (MapCall K V)) :
    ∃ (c₀ : LinkedHashmap K V) (replies : List (MapReply K V))
      (s : ℕ → LinkedHashmap K V) (t : ℕ → List (K × V)),
      LinkedHashmap.new = some c₀ ∧
        runReplies (LinkedHashmap.step hash equal default) (fun _ => c₀)
          calls = some (replies, s) ∧
        runReplies (fun t call => some (OrderedMap.step equal default t call))
          (fun _ => []) calls = some (replies, t) ∧
        ∀ i, Represents hash equal i (s i) (t i) := by
  obtain ⟨c₀, hnew, hshape, hsum⟩ := new_spec (K := K) (V := V) hash
  have hstart : Follows hash equal (fun _ => c₀) (fun _ => []) := fun _ =>
    ⟨⟨[], hshape, rfl⟩, List.Pairwise.nil, hsum⟩
  obtain ⟨replies, t, hmaps⟩ :=
    exists_runReplies (OrderedMap.step equal default) (fun _ => []) calls
  obtain ⟨s, hrun, hfollows⟩ := runReplies_simulates
    (R := Follows hash equal) (fun s t call r t' hst hstep => by
      obtain ⟨s', hstep', hfollows'⟩ := hst.step default hr call
      obtain ⟨rfl, rfl⟩ := Prod.mk.inj (Option.some.inj hstep)
      exact ⟨s', hstep', hfollows'⟩) hstart hmaps
  exact ⟨c₀, replies, s, t, hnew, hrun, hmaps, fun i =>
    (hfollows i).represents hr i⟩

/-- Numbers that are stored by their last digit in their own order. -/
theorem respects_mod_ten :
    Respects (fun n : ℕ => n % 10) fun a b => decide (a = b) := by
  refine ⟨⟨fun a => decide_eq_true rfl, ?_, ?_⟩, ?_⟩
  · intro a b hab
    exact decide_eq_true (of_decide_eq_true hab).symm
  · intro a b c hab hbc
    exact decide_eq_true
      ((of_decide_eq_true hab).trans (of_decide_eq_true hbc))
  · intro a b hab
    rw [of_decide_eq_true hab]

theorem run_represents_two_maps :
    ∃ (c₀ : LinkedHashmap ℕ ℕ) (replies : List (MapReply ℕ ℕ))
      (s : ℕ → LinkedHashmap ℕ ℕ) (t : ℕ → List (ℕ × ℕ)),
      LinkedHashmap.new = some c₀ ∧
        runReplies (LinkedHashmap.step (fun n => n % 10)
          (fun a b => decide (a = b)) 0) (fun _ => c₀)
          [.store 0 13 1, .insert 0 (23, 2), .assign 1 0, .eraseKey 0 13] =
            some (replies, s) ∧
        runReplies (fun t call => some (OrderedMap.step
          (fun a b => decide (a = b)) 0 t call)) (fun _ => [])
          [.store 0 13 1, .insert 0 (23, 2), .assign 1 0, .eraseKey 0 13] =
            some (replies, t) ∧
        ∀ i, Represents (fun n => n % 10) (fun a b => decide (a = b)) i (s i)
          (t i) :=
  run_represents respects_mod_ten 0
    [.store 0 13 1, .insert 0 (23, 2), .assign 1 0, .eraseKey 0 13]

end LinkedHashmap

end TicketSystem.Database
