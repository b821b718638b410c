import Mathlib
import TicketSystem.Support.DoublyLinked

/-!
# The linked hash map

`linked_hashmap` with its nodes in memory.  A node is an address, and every
member of a node is a map from addresses.  To read or to write a member of a
node that is not live, and to follow a null pointer, has no meaning: the
function then has no value.  `none` is the null pointer.
-/

namespace TicketSystem.Database

open TicketSystem.Support

variable {K V : Type}

/-! ## Nodes -/

/-- The nodes that one container allocated.  Addresses from `top` on are
unused. -/
structure NodeMemory (K V : Type) where
  top : ℕ
  live : ℕ → Bool
  packet : ℕ → Option (K × V)
  prevHash : ℕ → Option ℕ
  nextHash : ℕ → Option ℕ
  prevList : ℕ → Option ℕ
  nextList : ℕ → Option ℕ

namespace NodeMemory

def empty : NodeMemory K V where
  top := 0
  live _ := false
  packet _ := none
  prevHash _ := none
  nextHash _ := none
  prevList _ := none
  nextList _ := none

/-- The addresses of the next `count` nodes. -/
def Fresh (m : NodeMemory K V) (count p : ℕ) : Prop :=
  m.top ≤ p ∧ p < m.top + count

instance (m : NodeMemory K V) (count p : ℕ) : Decidable (m.Fresh count p) :=
  inferInstanceAs (Decidable (_ ∧ _))

/-- `new Node[count]()`, or `new Node(packet)`. -/
def newNodes (m : NodeMemory K V) (count : ℕ) (packet : Option (K × V)) :
    ℕ × NodeMemory K V :=
  (m.top,
    { top := m.top + count
      live := fun p => if m.Fresh count p then true else m.live p
      packet := fun p => if m.Fresh count p then packet else m.packet p
      prevHash := fun p => if m.Fresh count p then none else m.prevHash p
      nextHash := fun p => if m.Fresh count p then none else m.nextHash p
      prevList := fun p => if m.Fresh count p then none else m.prevList p
      nextList := fun p => if m.Fresh count p then none else m.nextList p })

/-- `delete[]` of `count` nodes, or `delete` of one. -/
def deleteNodes (m : NodeMemory K V) (p count : ℕ) : Option (NodeMemory K V) :=
  if ∀ i < count, m.live (p + i) then
    some { m with live := fun r => m.live r && !(p ≤ r && r < p + count) }
  else none

/-- `p->field` -/
def get {α : Type} (m : NodeMemory K V) (field : ℕ → α) (p : ℕ) : Option α :=
  if m.live p then some (field p) else none

/-- The memory after a write to the node `p`. -/
def put (m : NodeMemory K V) (p : ℕ) (written : NodeMemory K V) :
    Option (NodeMemory K V) :=
  if m.live p then some written else none

def setPacket (m : NodeMemory K V) (p : ℕ) (packet : K × V) :
    Option (NodeMemory K V) :=
  m.put p { m with packet := Function.update m.packet p (some packet) }

def setPrevHash (m : NodeMemory K V) (p : ℕ) (q : Option ℕ) :
    Option (NodeMemory K V) :=
  m.put p { m with prevHash := Function.update m.prevHash p q }

def setNextHash (m : NodeMemory K V) (p : ℕ) (q : Option ℕ) :
    Option (NodeMemory K V) :=
  m.put p { m with nextHash := Function.update m.nextHash p q }

def setPrevList (m : NodeMemory K V) (p : ℕ) (q : Option ℕ) :
    Option (NodeMemory K V) :=
  m.put p { m with prevList := Function.update m.prevList p q }

def setNextList (m : NodeMemory K V) (p : ℕ) (q : Option ℕ) :
    Option (NodeMemory K V) :=
  m.put p { m with nextList := Function.update m.nextList p q }

/-- `if (p)`, for a write to the node `p`. -/
def unlessNull (m : NodeMemory K V) (p : Option ℕ)
    (write : ℕ → Option (NodeMemory K V)) : Option (NodeMemory K V) :=
  match p with
  | none => some m
  | some p => write p

def insertAfterHash (m : NodeMemory K V) (this prev : ℕ) :
    Option (NodeMemory K V) := do
  let next ← m.get m.nextHash prev
  let m ← m.unlessNull next fun next => m.setPrevHash next (some this)
  let m ← m.setNextHash this next
  let m ← m.setNextHash prev (some this)
  m.setPrevHash this (some prev)

def insertBeforeLink (m : NodeMemory K V) (this next : ℕ) :
    Option (NodeMemory K V) := do
  let prev ← m.get m.prevList next
  let m ← m.unlessNull prev fun prev => m.setNextList prev (some this)
  let m ← m.setPrevList this prev
  let m ← m.setPrevList next (some this)
  m.setNextList this (some next)

/-- `Delete` takes the node out of both lists. -/
def delete (m : NodeMemory K V) (this : ℕ) : Option (NodeMemory K V) := do
  let m ← m.unlessNull (← m.get m.prevList this) fun prev => do
    m.setNextList prev (← m.get m.nextList this)
  let m ← m.unlessNull (← m.get m.nextList this) fun next => do
    m.setPrevList next (← m.get m.prevList this)
  let m ← m.unlessNull (← m.get m.prevHash this) fun prev => do
    m.setNextHash prev (← m.get m.nextHash this)
  m.unlessNull (← m.get m.nextHash this) fun next => do
    m.setPrevHash next (← m.get m.prevHash this)

/-- `*curr->packet` -/
def getPacket (m : NodeMemory K V) (p : ℕ) : Option (K × V) :=
  (m.get m.packet p).join

end NodeMemory

/-! ## The container -/

/-- The exceptions of the container. -/
inductive LinkedHashmapError
  | indexOutOfBound
  | invalidIterator
deriving DecidableEq, Repr

/-- A container.  `table` is the address of the first node of the array. -/
structure LinkedHashmap (K V : Type) where
  memory : NodeMemory K V
  capacity : ℕ
  sum : ℕ
  table : ℕ
  head : ℕ
  tail : ℕ

/-- An iterator with the name of the container it belongs to. -/
structure LinkedHashmap.Iterator where
  curr : ℕ
  source : ℕ

namespace LinkedHashmap

def LOAD_FACTOR : ℕ := 1

def INIT_SIZE : ℕ := 8192

/-! ### Private functions -/

section

variable (hash : K → ℕ) (equal : K → K → Bool)

/-- The loop of `Find`.  A chain has at most as many nodes as were ever
allocated. -/
def findFrom (m : NodeMemory K V) (key : K) : ℕ → Option ℕ → Option (Option ℕ)
  | _, none => some none
  | 0, some _ => none
  | fuel + 1, some curr => do
      let packet ← m.getPacket curr
      if equal packet.1 key then some (some curr)
      else findFrom m key fuel (← m.get m.nextHash curr)

/-- `Find` -/
def findNode (m : LinkedHashmap K V) (key : K) : Option (Option ℕ) := do
  let hashValue := hash key % m.capacity
  let curr ← m.memory.get m.memory.nextHash (m.table + hashValue)
  findFrom equal m.memory key m.memory.top curr

/-- `Insert` -/
def insertNode (m : LinkedHashmap K V) (packet : K × V) :
    Option (ℕ × LinkedHashmap K V) := do
  let hashValue := hash packet.1 % m.capacity
  let (curr, memory) := m.memory.newNodes 1 (some packet)
  let memory ← memory.insertAfterHash curr (m.table + hashValue)
  let memory ← memory.insertBeforeLink curr m.tail
  return (curr, { m with memory := memory })

/-- The loop over the order list that fills a new table. -/
def fillFrom (capacity temp tail : ℕ) (m : NodeMemory K V) :
    ℕ → Option ℕ → Option (NodeMemory K V)
  | 0, curr => if curr = some tail then some m else none
  | fuel + 1, curr =>
      if curr = some tail then some m
      else do
        let curr ← curr
        let m ← m.setNextHash curr none
        let m ← m.setPrevHash curr none
        let packet ← m.getPacket curr
        let hashValue := hash packet.1 % capacity
        let m ← m.insertAfterHash curr (temp + hashValue)
        fillFrom capacity temp tail m fuel (← m.get m.nextList curr)

/-- What `Expand` and `Shrink` do once the capacity is known. -/
def rehash (m : LinkedHashmap K V) (capacity : ℕ) :
    Option (LinkedHashmap K V) := do
  let (temp, memory) := m.memory.newNodes capacity none
  let curr ← memory.get memory.nextList m.head
  let memory ← fillFrom hash capacity temp m.tail memory memory.top curr
  let memory ← memory.deleteNodes m.table m.capacity
  return { m with memory := memory, capacity := capacity, table := temp }

/-- `Expand` -/
def expand (m : LinkedHashmap K V) : Option (LinkedHashmap K V) :=
  if m.sum ≤ m.capacity * LOAD_FACTOR then some m
  else m.rehash hash (m.capacity * 2)

/-- `Shrink` -/
def shrink (m : LinkedHashmap K V) : Option (LinkedHashmap K V) :=
  if m.capacity ≤ m.sum * 4 ∨ m.sum ≤ INIT_SIZE then some m
  else m.rehash hash (m.capacity / 2)

/-- The loop of `Clear`. -/
def deleteFrom (tail : ℕ) (m : NodeMemory K V) :
    ℕ → Option ℕ → Option (NodeMemory K V)
  | 0, curr => if curr = some tail then some m else none
  | fuel + 1, curr =>
      if curr = some tail then some m
      else do
        let curr ← curr
        let next ← m.get m.nextList curr
        deleteFrom tail (← m.deleteNodes curr 1) fuel next

/-- `Clear` -/
def clearNodes (m : LinkedHashmap K V) : Option (LinkedHashmap K V) := do
  let curr ← m.memory.get m.memory.nextList m.head
  let memory ← deleteFrom m.tail m.memory m.memory.top curr
  let memory ← memory.deleteNodes m.table m.capacity
  let memory ← memory.setNextList m.head (some m.tail)
  let memory ← memory.setPrevList m.tail (some m.head)
  return { m with memory := memory }

/-- `table = new Node[capacity]()` -/
def newTable (m : LinkedHashmap K V) : LinkedHashmap K V :=
  let (table, memory) := m.memory.newNodes m.capacity none
  { m with memory := memory, table := table }

/-- The loop that copies the elements of another container. -/
def insertFrom (other : LinkedHashmap K V) (m : LinkedHashmap K V) :
    ℕ → Option ℕ → Option (LinkedHashmap K V)
  | 0, curr => if curr = some other.tail then some m else none
  | fuel + 1, curr =>
      if curr = some other.tail then some m
      else do
        let curr ← curr
        let (_, m) ← m.insertNode hash (← other.memory.getPacket curr)
        insertFrom other m fuel (← other.memory.get other.memory.nextList curr)

/-- `head = new Node(); tail = new Node();` and their links, in a container
without table. -/
def newList (capacity sum : ℕ) : Option (LinkedHashmap K V) := do
  let (head, memory) := NodeMemory.empty.newNodes 1 none
  let (tail, memory) := memory.newNodes 1 none
  let memory ← memory.setNextList head (some tail)
  let memory ← memory.setPrevList tail (some head)
  return { memory, capacity, sum, table := 0, head, tail }

/-! ### Public functions -/

/-- The default constructor. -/
def new : Option (LinkedHashmap K V) := do
  return (← newList INIT_SIZE 0).newTable

/-- The copy constructor. -/
def copy (other : LinkedHashmap K V) : Option (LinkedHashmap K V) := do
  let m ← newList other.capacity other.sum
  let curr ← other.memory.get other.memory.nextList other.head
  insertFrom hash other m.newTable other.memory.top curr

/-- `operator=` for another container. -/
def assign (m other : LinkedHashmap K V) : Option (LinkedHashmap K V) := do
  let m ← m.clearNodes
  let m := { m with capacity := other.capacity, sum := other.sum }
  let curr ← other.memory.get other.memory.nextList other.head
  insertFrom hash other m.newTable other.memory.top curr

/-- `at`: the node whose value is returned. -/
def atKey (m : LinkedHashmap K V) (key : K) :
    Option (Except LinkedHashmapError ℕ) := do
  match ← m.findNode hash equal key with
  | none => some (.error .indexOutOfBound)
  | some curr => some (.ok curr)

/-- `operator[]`: the node whose value is returned.  `default` is `Value()`. -/
def subscript (default : V) (m : LinkedHashmap K V) (key : K) :
    Option (ℕ × LinkedHashmap K V) := do
  match ← m.findNode hash equal key with
  | some curr => some (curr, m)
  | none => do
      let (curr, m) ← m.insertNode hash (key, default)
      let m ← { m with sum := m.sum + 1 }.expand hash
      return (curr, m)

/-- `insert` -/
def insert (this : ℕ) (m : LinkedHashmap K V) (value : K × V) :
    Option ((Iterator × Bool) × LinkedHashmap K V) := do
  match ← m.findNode hash equal value.1 with
  | some curr => some ((⟨curr, this⟩, false), m)
  | none => do
      let (curr, m) ← m.insertNode hash value
      let m ← { m with sum := m.sum + 1 }.expand hash
      return ((⟨curr, this⟩, true), m)

/-- `erase` -/
def erase (this : ℕ) (m : LinkedHashmap K V) (pos : Iterator) :
    Option (Except LinkedHashmapError (LinkedHashmap K V)) :=
  if pos.source ≠ this ∨ pos.curr = m.tail then
    some (.error .invalidIterator)
  else do
    let memory ← m.memory.delete pos.curr
    let memory ← memory.deleteNodes pos.curr 1
    let m ← { m with memory := memory, sum := m.sum - 1 }.shrink hash
    return .ok m

/-- `clear` -/
def clear (m : LinkedHashmap K V) : Option (LinkedHashmap K V) := do
  let m ← m.clearNodes
  return { m with capacity := INIT_SIZE, sum := 0 }.newTable

def size (m : LinkedHashmap K V) : ℕ :=
  m.sum

def count (m : LinkedHashmap K V) (key : K) : Option ℕ := do
  let curr ← m.findNode hash equal key
  return if curr = none then 0 else 1

def find (this : ℕ) (m : LinkedHashmap K V) (key : K) : Option Iterator := do
  let curr ← m.findNode hash equal key
  return ⟨curr.getD m.tail, this⟩

def begin (this : ℕ) (m : LinkedHashmap K V) : Option Iterator := do
  let curr ← ← m.memory.get m.memory.nextList m.head
  return ⟨curr, this⟩

/-- `++iter` -/
def increment (m : LinkedHashmap K V) (pos : Iterator) :
    Option (Except LinkedHashmapError Iterator) :=
  if pos.curr = m.tail then some (.error .invalidIterator)
  else do
    let curr ← ← m.memory.get m.memory.nextList pos.curr
    return .ok { pos with curr := curr }

/-- `n` times `++iter` -/
def advance (m : LinkedHashmap K V) (pos : Iterator) :
    ℕ → Option (Except LinkedHashmapError Iterator)
  | 0 => some (.ok pos)
  | n + 1 => do
      match ← m.increment pos with
      | .error e => some (.error e)
      | .ok pos => m.advance pos n

end

end LinkedHashmap

end TicketSystem.Database
