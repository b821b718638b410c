import TicketSystem.Backend.RedBlackTree
import TicketSystem.Support.Machine

/-!
# The map over the red-black tree

`sjtu::map` with its iterators, and the programs that call its functions.  An
iterator belongs to the map with the number `id`; `this` is the number of the
map of which a function is called.
-/

namespace TicketSystem.Backend

open TicketSystem.Support

variable {K V : Type}

inductive MapError
  | indexOutOfBound
  | invalidIterator
deriving DecidableEq, Repr

/-- Where an iterator points: nowhere, to a node, or to `end_node`. -/
inductive NodePointer
  | null
  | node (p : ℕ)
  | endNode
deriving DecidableEq, Repr

def NodePointer.ofNode : Option ℕ → NodePointer
  | none => .null
  | some p => .node p

structure MapIterator where
  p : NodePointer
  id : ℕ
deriving DecidableEq, Repr

/-- `sjtu::map` -/
structure Map (K V : Type) where
  mp : RedBlackTree K V

namespace Map

def new : Map K V where
  mp := .new

/-! ## Iterators -/

/-- `begin` -/
def begin (this : ℕ) (m : Map K V) : MapIterator :=
  if m.mp.root = none then ⟨.endNode, this⟩ else ⟨.ofNode m.mp.head, this⟩

/-- `end` -/
def pastEnd (this : ℕ) : MapIterator :=
  ⟨.endNode, this⟩

/-- `++iter` -/
def increment (m : Map K V) (it : MapIterator) :
    Option (Except MapError MapIterator) :=
  match it.p with
  | .null => some (.error .invalidIterator)
  | .endNode => some (.error .invalidIterator)
  | .node p =>
      if some p = m.mp.rear then some (.ok { it with p := .endNode })
      else do
        let q ← m.mp.memory.neighbor .right p
        return .ok { it with p := .ofNode q }

/-- `--iter` -/
def decrement (m : Map K V) (it : MapIterator) :
    Option (Except MapError MapIterator) :=
  if m.mp.root = none then some (.error .invalidIterator)
  else
    match it.p with
    | .null => some (.error .invalidIterator)
    | .endNode => do
        let q ← m.mp.back
        return .ok { it with p := .ofNode q }
    | .node p =>
        if some p = m.mp.head then some (.error .invalidIterator)
        else do
          let q ← m.mp.memory.neighbor .left p
          return .ok { it with p := .ofNode q }

/-- `*iter` -/
def deref (m : Map K V) (it : MapIterator) :
    Option (Except MapError (K × V)) :=
  match it.p with
  | .null => some (.error .invalidIterator)
  | .endNode => some (.error .invalidIterator)
  | .node p => do return .ok (← m.mp.memory.getData p)

/-- `n` times `++iter` -/
def advance (m : Map K V) (it : MapIterator) :
    ℕ → Option (Except MapError MapIterator)
  | 0 => some (.ok it)
  | n + 1 => do
      match ← m.increment it with
      | .error e => some (.error e)
      | .ok it => m.advance it n

/-- `n` times `--iter` -/
def retreat (m : Map K V) (it : MapIterator) :
    ℕ → Option (Except MapError MapIterator)
  | 0 => some (.ok it)
  | n + 1 => do
      match ← m.decrement it with
      | .error e => some (.error e)
      | .ok it => m.retreat it n

/-! ## Functions -/

section

variable (lt : K → K → Bool)

/-- `at` -/
def atKey (m : Map K V) (key : K) : Option (Except MapError V) := do
  match ← m.mp.find lt key with
  | none => some (.error .indexOutOfBound)
  | some tmp => return .ok (← m.mp.memory.getData tmp).2

/-- `insert` -/
def insert (this : ℕ) (m : Map K V) (value : K × V) :
    Option ((MapIterator × Bool) × Map K V) := do
  match ← m.mp.find lt value.1 with
  | some tmp => some ((⟨.node tmp, this⟩, false), m)
  | none => do
      let mp ← m.mp.insert lt value
      let tmp ← mp.find lt value.1
      return ((⟨.ofNode tmp, this⟩, true), { mp := mp })

/-- `operator[]`: the node whose value is returned.  `default` is `T()`. -/
def subscript (default : V) (this : ℕ) (m : Map K V) (key : K) :
    Option (ℕ × Map K V) := do
  match ← m.mp.find lt key with
  | some tmp => some (tmp, m)
  | none => do
      let ((pos, _), m) ← m.insert lt this (key, default)
      match pos.p with
      | .node tmp => some (tmp, m)
      | _ => none

/-- `erase` -/
def erase (this : ℕ) (m : Map K V) (pos : MapIterator) :
    Option (Except MapError (Map K V)) :=
  match pos.p with
  | .null => some (.error .invalidIterator)
  | .endNode => some (.error .invalidIterator)
  | .node p =>
      if pos.id ≠ this then some (.error .invalidIterator)
      else do
        let del ← m.mp.memory.getData p
        let mp ← m.mp.remove lt del.1
        return .ok { mp := mp }

def count (m : Map K V) (key : K) : Option ℕ := do
  let tmp ← m.mp.find lt key
  return if tmp = none then 0 else 1

def find (this : ℕ) (m : Map K V) (key : K) : Option MapIterator := do
  match ← m.mp.find lt key with
  | none => some (pastEnd this)
  | some t => some ⟨.node t, this⟩

end

/-- `clear` -/
def clear (m : Map K V) : Option (Map K V) := do
  let memory ← RedBlackTree.makeEmpty m.mp.memory m.mp.memory.top m.mp.root
  return { mp := { memory := memory, root := none, head := none, rear := none
                   len := 0 } }

def size (m : Map K V) : ℕ :=
  m.mp.len.toNat

/-- The copy constructor. -/
def copy (other : Map K V) : Option (Map K V) := do
  return { mp := ← other.mp.copy }

/-- `operator=` for another map. -/
def assign (m other : Map K V) : Option (Map K V) := do
  return { mp := ← m.mp.assign other.mp }

end Map

/-! ## Maps as lists ordered by their keys -/

namespace SortedEntries

variable (lt : K → K → Bool)

/-- The entry of the key. -/
def lookup (es : List (K × V)) (key : K) : Option (K × V) :=
  es.find? fun e => RedBlackTree.equal lt e.1 key

/-- A new key takes its place in the order. -/
def insert (es : List (K × V)) (value : K × V) : List (K × V) :=
  if (lookup lt es value.1).isSome then es
  else es.filter (fun e => lt e.1 value.1) ++ value ::
    es.filter fun e => lt value.1 e.1

/-- The key that is there stays, with another value. -/
def store (es : List (K × V)) (key : K) (value : V) : List (K × V) :=
  es.map fun e =>
    if RedBlackTree.equal lt e.1 key then (e.1, value) else e

def erase (es : List (K × V)) (key : K) : List (K × V) :=
  es.filter fun e => !RedBlackTree.equal lt e.1 key

end SortedEntries

/-! ## Programs with maps -/

/-- A call; maps are named by numbers. -/
inductive SjtuCall (K V : Type)
  /-- `mᵢ[key]` -/
  | subscript (i : ℕ) (key : K)
  /-- `mᵢ[key] = value` -/
  | store (i : ℕ) (key : K) (value : V)
  /-- `mᵢ.insert(value)` -/
  | insert (i : ℕ) (value : K × V)
  /-- `mᵢ.erase(mᵢ.find(key))` -/
  | eraseKey (i : ℕ) (key : K)
  /-- `mᵢ.erase(pos)` for the iterator `n` places behind `mⱼ.begin()` -/
  | erase (i j n : ℕ)
  /-- `mᵢ.clear()` -/
  | clear (i : ℕ)
  /-- `mᵢ` is made anew as a copy of `mⱼ` -/
  | copy (i j : ℕ)
  /-- `mᵢ = mⱼ` -/
  | assign (i j : ℕ)
  /-- `mᵢ.at(key)` -/
  | atKey (i : ℕ) (key : K)
  /-- `mᵢ.count(key)` -/
  | count (i : ℕ) (key : K)

/-- What a call returns or throws. -/
inductive SjtuReply (K V : Type)
  | done
  | value (value : V)
  | number (n : ℕ)
  | inserted (value : K × V) (flag : Bool)
  | thrown (error : MapError)
deriving DecidableEq, Repr

namespace Map

variable (lt : K → K → Bool) (default : V)

/-- `mᵢ.erase(pos)` -/
def eraseStep (s : ℕ → Map K V) (i : ℕ) (pos : MapIterator) :
    Option (SjtuReply K V × (ℕ → Map K V)) := do
  match ← (s i).erase lt i pos with
  | .error e => some (.thrown e, s)
  | .ok m => some (.done, Function.update s i m)

def step (s : ℕ → Map K V) :
    SjtuCall K V → Option (SjtuReply K V × (ℕ → Map K V))
  | .subscript i key => do
      let (tmp, m) ← (s i).subscript lt default i key
      let e ← m.mp.memory.getData tmp
      return (.value e.2, Function.update s i m)
  | .store i key value => do
      let (tmp, m) ← (s i).subscript lt default i key
      let e ← m.mp.memory.getData tmp
      let memory ← m.mp.memory.setData tmp (e.1, value)
      return (.value value,
        Function.update s i { mp := { m.mp with memory := memory } })
  | .insert i value => do
      let ((pos, flag), m) ← (s i).insert lt i value
      match ← m.deref pos with
      | .error e => some (.thrown e, Function.update s i m)
      | .ok value => some (.inserted value flag, Function.update s i m)
  | .eraseKey i key => do
      eraseStep lt s i (← (s i).find lt i key)
  | .erase i j n => do
      match ← (s j).advance ((s j).begin j) n with
      | .error e => some (.thrown e, s)
      | .ok pos => eraseStep lt s i pos
  | .clear i => do
      return (.done, Function.update s i (← (s i).clear))
  | .copy i j => do
      return (.done, Function.update s i (← (s j).copy))
  | .assign i j =>
      if i = j then some (.done, s)
      else do return (.done, Function.update s i (← (s i).assign (s j)))
  | .atKey i key => do
      match ← (s i).atKey lt key with
      | .error e => some (.thrown e, s)
      | .ok value => some (.value value, s)
  | .count i key => do
      return (.number (← (s i).count lt key), s)

end Map

namespace SortedEntries

variable (lt : K → K → Bool) (default : V)

/-- The same call on lists ordered by their keys. -/
def step (s : ℕ → List (K × V)) :
    SjtuCall K V → SjtuReply K V × (ℕ → List (K × V))
  | .subscript i key =>
      (.value (((lookup lt (s i) key).map Prod.snd).getD default),
        Function.update s i (insert lt (s i) (key, default)))
  | .store i key value =>
      (.value value, Function.update s i
        (store lt (insert lt (s i) (key, default)) key value))
  | .insert i value =>
      (.inserted ((lookup lt (s i) value.1).getD value)
          (lookup lt (s i) value.1).isNone,
        Function.update s i (insert lt (s i) value))
  | .eraseKey i key =>
      if (lookup lt (s i) key).isSome then
        (.done, Function.update s i (erase lt (s i) key))
      else (.thrown .invalidIterator, s)
  | .erase i j n =>
      if i = j ∧ n < (s i).length then
        (.done, Function.update s i ((s i).eraseIdx n))
      else (.thrown .invalidIterator, s)
  | .clear i => (.done, Function.update s i [])
  | .copy i j => (.done, Function.update s i (s j))
  | .assign i j => (.done, Function.update s i (s j))
  | .atKey i key =>
      match lookup lt (s i) key with
      | none => (.thrown .indexOutOfBound, s)
      | some e => (.value e.2, s)
  | .count i key => (.number (if (lookup lt (s i) key).isSome then 1 else 0), s)

end SortedEntries

end TicketSystem.Backend
