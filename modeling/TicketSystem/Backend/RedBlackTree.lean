import Mathlib
import TicketSystem.Support.NodeTree

/-!
# The red-black tree

`RedBlackTree` of `sjtu::map` with its nodes in memory.  A node is an address,
and every member of a node is a map from addresses; `left` and `right` are the
two sides of `child`.  To read or to write a member of a node that is not live,
and to follow a null pointer, has no meaning: the function then has no value.
`none` is the null pointer.  Functions that the source writes once for each
side are one definition with the side.
-/

namespace TicketSystem.Backend

open TicketSystem.Support

variable {K V : Type}

inductive Color
  | red
  | black
deriving DecidableEq, Repr

/-! ## Nodes -/

/-- The nodes of a tree.  Addresses from `top` on are unused. -/
structure RBMemory (K V : Type) where
  top : ℕ
  live : ℕ → Bool
  data : ℕ → Option (K × V)
  color : ℕ → Color
  child : Side → ℕ → Option ℕ
  fa : ℕ → Option ℕ

namespace RBMemory

def empty : RBMemory K V where
  top := 0
  live _ := false
  data _ := none
  color _ := .red
  child _ _ := none
  fa _ := none

/-- `p->field` -/
def get {α : Type} (m : RBMemory K V) (field : ℕ → α) (p : ℕ) : Option α :=
  if m.live p then some (field p) else none

/-- The memory after a write to the node `p`. -/
def put (m : RBMemory K V) (p : ℕ) (written : RBMemory K V) :
    Option (RBMemory K V) :=
  if m.live p then some written else none

/-- `*p->data` -/
def getData (m : RBMemory K V) (p : ℕ) : Option (K × V) :=
  (m.get m.data p).join

def setData (m : RBMemory K V) (p : ℕ) (e : K × V) : Option (RBMemory K V) :=
  m.put p { m with data := Function.update m.data p (some e) }

def setColor (m : RBMemory K V) (p : ℕ) (c : Color) : Option (RBMemory K V) :=
  m.put p { m with color := Function.update m.color p c }

def setChild (m : RBMemory K V) (s : Side) (p : ℕ) (q : Option ℕ) :
    Option (RBMemory K V) :=
  m.put p { m with child := storeChild m.child s p q }

def setFa (m : RBMemory K V) (p : ℕ) (q : Option ℕ) : Option (RBMemory K V) :=
  m.put p { m with fa := Function.update m.fa p q }

/-- `if (p)`, for a write to the node `p`. -/
def unlessNull (m : RBMemory K V) (p : Option ℕ)
    (write : ℕ → Option (RBMemory K V)) : Option (RBMemory K V) :=
  match p with
  | none => some m
  | some p => write p

/-- `new NODE(e, c, f)` -/
def newNode (m : RBMemory K V) (e : K × V) (c : Color) (f : Option ℕ) :
    ℕ × RBMemory K V :=
  (m.top,
    { top := m.top + 1
      live := Function.update m.live m.top true
      data := Function.update m.data m.top (some e)
      color := Function.update m.color m.top c
      child := fun s => Function.update (m.child s) m.top none
      fa := Function.update m.fa m.top f })

/-- `delete p` -/
def deleteNode (m : RBMemory K V) (p : ℕ) : Option (RBMemory K V) :=
  m.put p { m with live := Function.update m.live p false }

/-- `p == nullptr || p->color == BLACK` -/
def isBlackOrNull (m : RBMemory K V) : Option ℕ → Option Bool
  | none => some true
  | some p => do return (← m.get m.color p) = .black

/-- `p && p->color == RED` -/
def isRed (m : RBMemory K V) : Option ℕ → Option Bool
  | none => some false
  | some p => do return (← m.get m.color p) = .red

/-- `if (f->left == p) f->left = q; else f->right = q;` -/
def replaceChild (m : RBMemory K V) (f p : ℕ) (q : Option ℕ) :
    Option (RBMemory K V) := do
  if (← m.get (m.child .left) f) = some p then m.setChild .left f q
  else m.setChild .right f q

/-- `while (p->left) p = p->left;` for the side `left`. -/
def lastOn (m : RBMemory K V) (s : Side) : ℕ → ℕ → Option ℕ
  | 0, _ => none
  | fuel + 1, p => do
      match ← m.get (m.child s) p with
      | none => some p
      | some q => m.lastOn s fuel q

/-- `while (p->fa) p = p->fa;` -/
def climb (m : RBMemory K V) : ℕ → ℕ → Option ℕ
  | 0, _ => none
  | fuel + 1, p => do
      match ← m.get m.fa p with
      | none => some p
      | some q => m.climb fuel q

/-- `while (p->fa && p->fa->right == p) p = p->fa;` for the side `right`. -/
def climbWhile (m : RBMemory K V) (s : Side) : ℕ → ℕ → Option ℕ
  | 0, _ => none
  | fuel + 1, p => do
      match ← m.get m.fa p with
      | none => some p
      | some f =>
          if (← m.get (m.child s) f) = some p then m.climbWhile s fuel f
          else some p

/-- The steps of `operator++` from a node to another one for the side `right`
and of `operator--` for the side `left`. -/
def neighbor (m : RBMemory K V) (s : Side) (p : ℕ) : Option (Option ℕ) := do
  match ← m.get (m.child s) p with
  | some q => (m.lastOn s.other m.top q).map some
  | none => m.get m.fa (← m.climbWhile s (m.top + 1) p)

end RBMemory

/-! ## The tree -/

structure RedBlackTree (K V : Type) where
  memory : RBMemory K V
  root : Option ℕ
  head : Option ℕ
  rear : Option ℕ
  len : ℤ

namespace RedBlackTree

def new : RedBlackTree K V where
  memory := .empty
  root := none
  head := none
  rear := none
  len := 0

variable (lt : K → K → Bool)

/-- `equal` -/
def equal (a b : K) : Bool :=
  !(lt a b || lt b a)

/-- The child of a node with the key `key` where `x` belongs. -/
def sideOf (x key : K) : Side :=
  if lt x key then .left else .right

/-- `front` and `back` -/
def outermost (s : Side) (tree : RedBlackTree K V) : Option (Option ℕ) :=
  match tree.root with
  | none => some none
  | some p => (tree.memory.lastOn s tree.memory.top p).map some

def front : RedBlackTree K V → Option (Option ℕ) :=
  outermost .left

def back : RedBlackTree K V → Option (Option ℕ) :=
  outermost .right

/-- The loop of `find`. -/
def findFrom (m : RBMemory K V) (x : K) : ℕ → Option ℕ → Option (Option ℕ)
  | _, none => some none
  | 0, some _ => none
  | fuel + 1, some t => do
      let e ← m.getData t
      if equal lt e.1 x then some (some t)
      else findFrom m x fuel (← m.get (m.child (sideOf lt x e.1)) t)

def find (tree : RedBlackTree K V) (x : K) : Option (Option ℕ) :=
  findFrom lt tree.memory x tree.memory.top tree.root

/-- `head = front(); rear = back();` -/
def setEnds (tree : RedBlackTree K V) : Option (RedBlackTree K V) := do
  let head ← tree.front
  let rear ← tree.back
  return { tree with head := head, rear := rear }

/-- `root->color = BLACK;` -/
def blackenRoot (tree : RedBlackTree K V) : Option (RedBlackTree K V) := do
  let memory ← tree.memory.setColor (← tree.root) .black
  return { tree with memory := memory }

/-- `while (root->fa) root = root->fa;` -/
def climbRoot (tree : RedBlackTree K V) : Option (RedBlackTree K V) := do
  let root ← tree.memory.climb (tree.memory.top + 1) (← tree.root)
  return { tree with root := some root }

/-! ### Rotations -/

/-- `LL` for the side `left`, `RR` for the side `right`. -/
def rotate (s : Side) (tree : RedBlackTree K V) (gp : ℕ) :
    Option (RedBlackTree K V) := do
  let m := tree.memory
  let p ← ← m.get (m.child s) gp
  let gpFa ← m.get m.fa gp
  let m ← m.unlessNull gpFa fun gpFa => m.replaceChild gpFa gp (some p)
  let m ← m.setFa p gpFa
  let m ← m.setChild s gp (← m.get (m.child s.other) p)
  let m ← m.unlessNull (← m.get (m.child s.other) p) fun inner =>
    m.setFa inner (some gp)
  let m ← m.setChild s.other p (some gp)
  let m ← m.setFa gp (some p)
  let m ← m.setColor gp .red
  let m ← m.setColor p .black
  { tree with memory := m }.climbRoot

/-- `LR` for the side `left`, `RL` for the side `right`. -/
def rotateTwice (s : Side) (tree : RedBlackTree K V) (gp : ℕ) :
    Option (RedBlackTree K V) := do
  let m := tree.memory
  let p ← ← m.get (m.child s) gp
  let t ← ← m.get (m.child s.other) p
  let gpFa ← m.get m.fa gp
  let m ← m.unlessNull gpFa fun gpFa => m.replaceChild gpFa gp (some t)
  let m ← m.setFa t gpFa
  let m ← m.setChild s gp (← m.get (m.child s.other) t)
  let m ← m.unlessNull (← m.get (m.child s.other) t) fun inner =>
    m.setFa inner (some gp)
  let m ← m.setChild s.other p (← m.get (m.child s) t)
  let m ← m.unlessNull (← m.get (m.child s) t) fun inner =>
    m.setFa inner (some p)
  let m ← m.setChild s t (some p)
  let m ← m.setFa p (some t)
  let m ← m.setChild s.other t (some gp)
  let m ← m.setFa gp (some t)
  let m ← m.setColor gp .red
  let m ← m.setColor t .black
  { tree with memory := m }.climbRoot

def LL : RedBlackTree K V → ℕ → Option (RedBlackTree K V) :=
  rotate .left

def RR : RedBlackTree K V → ℕ → Option (RedBlackTree K V) :=
  rotate .right

def LR : RedBlackTree K V → ℕ → Option (RedBlackTree K V) :=
  rotateTwice .left

def RL : RedBlackTree K V → ℕ → Option (RedBlackTree K V) :=
  rotateTwice .right

/-! ### Insertion -/

/-- `insert_adjust` -/
def insertAdjust (tree : RedBlackTree K V) (gp p t : ℕ) :
    Option (RedBlackTree K V) := do
  let m := tree.memory
  if (← m.get m.color p) = .black then return tree
  else if some p = tree.root then
    return { tree with memory := ← m.setColor p .black }
  else if (← m.get (m.child .left) gp) = some p then
    if (← m.get (m.child .left) p) = some t then tree.LL gp else tree.LR gp
  else
    if (← m.get (m.child .right) p) = some t then tree.RR gp else tree.RL gp

/-- Two red children of `t` give their colour to `t`. -/
def splitRed (tree : RedBlackTree K V) (gp p t : ℕ) :
    Option (RedBlackTree K V) := do
  let m := tree.memory
  let l ← m.get (m.child .left) t
  let r ← m.get (m.child .right) t
  if (← m.isRed l) && (← m.isRed r) then
    let m ← m.setColor (← r) .black
    let m ← m.setColor (← l) .black
    let m ← m.setColor t .red
    insertAdjust { tree with memory := m } gp p t
  else return tree

/-- The loop of `insert`. -/
def insertFrom (x : K × V) : ℕ → RedBlackTree K V → Option ℕ → ℕ → ℕ →
    Option (RedBlackTree K V)
  | _, tree, none, parent, grandP => do
      let (t, m) := tree.memory.newNode x .red (some parent)
      let side := sideOf lt x.1 (← m.getData parent).1
      let m ← m.setChild side parent (some t)
      let tree ← insertAdjust { tree with memory := m, len := tree.len + 1 }
        grandP parent t
      let tree ← tree.blackenRoot
      tree.setEnds
  | 0, _, some _, _, _ => none
  | fuel + 1, tree, some t, parent, grandP => do
      let tree ← tree.splitRed grandP parent t
      let m := tree.memory
      let next ← m.get (m.child (sideOf lt x.1 (← m.getData t).1)) t
      insertFrom x fuel tree next t parent

/-- `insert` -/
def insert (tree : RedBlackTree K V) (x : K × V) : Option (RedBlackTree K V) :=
  match tree.root with
  | none =>
      let (t, m) := tree.memory.newNode x .black none
      some { memory := m, root := some t, head := some t, rear := some t
             len := tree.len + 1 }
  | some root => insertFrom lt x tree.memory.top tree (some root) root root

/-! ### Removal -/

/-- The pointers of `remove`: the node `t`, its parent `p` and the sibling `t2`
of `t`. -/
structure Cursor where
  p : ℕ
  t : ℕ
  t2 : Option ℕ

/-- The node `p` with its child `t` and the other child. -/
def cursorAt (m : RBMemory K V) (p : ℕ) (t : Option ℕ) : Option Cursor := do
  let left ← m.get (m.child .left) p
  let t2 ← m.get (m.child (if t = left then .right else .left)) p
  return { p := p, t := ← t, t2 := t2 }

/-- Case 1.2, in which `t2` is the child `s` of `p` and has a red child. -/
def borrow (s : Side) (tree : RedBlackTree K V) (p t t2 : ℕ) :
    Option (RedBlackTree K V × Cursor) := do
  let m := tree.memory
  let outer ← m.get (m.child s) t2
  if ← m.isRed outer then
    let tree ← tree.rotate s p
    let m ← tree.memory.setColor t2 .red
    let m ← m.setColor t .red
    let m ← m.setColor p .black
    let m ← m.setColor (← ← m.get (m.child s) t2) .black
    return ({ tree with memory := m }, ⟨p, t, ← m.get (m.child s) p⟩)
  else
    let tree ← tree.rotateTwice s p
    let m ← tree.memory.setColor t .red
    let m ← m.setColor (← ← m.get m.fa p) .red
    let m ← m.setColor t2 .black
    let m ← m.setColor p .black
    return ({ tree with memory := m }, ⟨p, t, ← m.get (m.child s) p⟩)

/-- Case 2.1, in which `t` goes below its child `s`, which is red. -/
def lower (s : Side) (tree : RedBlackTree K V) (t : ℕ) :
    Option (RedBlackTree K V × Cursor) := do
  let tree ← tree.rotate s t
  let m ← tree.memory.setColor t .red
  let p ← ← m.get m.fa t
  let m ← m.setColor p .black
  return ({ tree with memory := m }, ⟨p, t, ← m.get (m.child s) p⟩)

/-- `remove_adjust` -/
def removeAdjust (del : K) : ℕ → RedBlackTree K V → Cursor →
    Option (RedBlackTree K V × Cursor)
  | 0, _, _ => none
  | fuel + 1, tree, ⟨p, t, t2⟩ => do
      let m := tree.memory
      if (← m.get m.color t) = .red then return (tree, ⟨p, t, t2⟩)
      let l ← m.get (m.child .left) t
      let r ← m.get (m.child .right) t
      if some t = tree.root ∧ l.isSome ∧ r.isSome ∧
          (← m.isRed l) = (← m.isRed r) then
        let m ← m.setColor t .red
        let m ← m.setColor (← r) .black
        let m ← m.setColor (← l) .black
        return ({ tree with memory := m }, ⟨p, t, t2⟩)
      if (← m.isBlackOrNull l) && (← m.isBlackOrNull r) then
        let t2 ← t2
        if (← m.isBlackOrNull (← m.get (m.child .left) t2)) &&
            (← m.isBlackOrNull (← m.get (m.child .right) t2)) then
          let m ← m.setColor p .black
          let m ← m.setColor t2 .red
          let m ← m.setColor t .red
          return ({ tree with memory := m }, ⟨p, t, some t2⟩)
        else if (← m.get (m.child .left) p) = some t2 then
          tree.borrow .left p t t2
        else tree.borrow .right p t t2
      else if equal lt (← m.getData t).1 del then
        if l.isSome ∧ r.isSome then
          if (← m.isBlackOrNull r) then tree.lower .left t
          else return (tree, ⟨p, t, t2⟩)
        else if l.isSome then tree.lower .left t
        else tree.lower .right t
      else
        let side := sideOf lt del (← m.getData t).1
        let next ← cursorAt m t (← m.get (m.child side) t)
        if (← m.get m.color next.t) = .black then
          let up ← next.t2
          let tree ← if (← m.get (m.child .right) next.p) = some up then
              tree.RR next.p
            else tree.LL next.p
          let m ← tree.memory.setColor next.p .red
          let m ← m.setColor up .black
          let last ← cursorAt m up (some next.p)
          removeAdjust del fuel { tree with memory := m } last
        else return (tree, next)

/-- The node `t` and the last node `rep` left below its right child change
their places and their colours. -/
def swapWithNext (tree : RedBlackTree K V) (t : ℕ) :
    Option (RedBlackTree K V × Cursor) := do
  let m := tree.memory
  let rep ← m.lastOn .left m.top (← ← m.get (m.child .right) t)
  let repColor ← m.get m.color rep
  let m ← m.setColor rep (← m.get m.color t)
  let m ← m.setColor t repColor
  let tFa ← m.get m.fa t
  let repFa ← m.get m.fa rep
  let m ← m.unlessNull tFa fun tFa => m.replaceChild tFa t (some rep)
  let m ← m.setFa rep tFa
  let m ← if repFa = some t then do
      let tmp ← m.get (m.child .left) t
      let m ← m.setChild .left t (← m.get (m.child .left) rep)
      let m ← m.unlessNull (← m.get (m.child .left) rep) fun q =>
        m.setFa q (some t)
      let m ← m.setChild .right t (← m.get (m.child .right) rep)
      let m ← m.unlessNull (← m.get (m.child .right) rep) fun q =>
        m.setFa q (some t)
      let m ← m.setChild .left rep tmp
      let m ← m.setFa (← tmp) (some rep)
      let m ← m.setChild .right rep (some t)
      m.setFa t (some rep)
    else do
      let m ← m.setChild .left (← repFa) (some t)
      let m ← m.setFa t repFa
      let repRs ← m.get (m.child .right) rep
      let m ← m.setChild .left rep (← m.get (m.child .left) t)
      let m ← m.setFa (← ← m.get (m.child .left) t) (some rep)
      let m ← m.setChild .right rep (← m.get (m.child .right) t)
      let m ← m.setFa (← ← m.get (m.child .right) t) (some rep)
      let m ← m.setChild .left t none
      let m ← m.setChild .right t repRs
      m.unlessNull repRs fun q => m.setFa q (some t)
  let root := if some t = tree.root then some rep else tree.root
  let next ← ← m.get (m.child .right) rep
  return ({ tree with memory := m, root := root },
    ⟨rep, next, ← m.get (m.child .left) rep⟩)

/-- The node `t`, which is not full, is taken out and deleted. -/
def unlinkNode (tree : RedBlackTree K V) (parent t : ℕ) :
    Option (RedBlackTree K V) := do
  let m := tree.memory
  let m ← m.replaceChild parent t (← m.get (m.child .right) t)
  let m ← m.deleteNode t
  let tree ← { tree with memory := m, len := tree.len - 1 }.blackenRoot
  tree.setEnds

/-- The loop of `remove`. -/
def removeFrom (del : K) : ℕ → RedBlackTree K V → Cursor →
    Option (RedBlackTree K V)
  | 0, _, _ => none
  | fuel + 1, tree, cursor => do
      let (tree, ⟨parent, t, _⟩) ← removeAdjust lt del (fuel + 2) tree cursor
      let m := tree.memory
      let l ← m.get (m.child .left) t
      let r ← m.get (m.child .right) t
      let e ← m.getData t
      if equal lt e.1 del ∧ l.isSome ∧ r.isSome then
        let (tree, cursor) ← tree.swapWithNext t
        removeFrom del fuel tree cursor
      else if equal lt e.1 del then tree.unlinkNode parent t
      else
        removeFrom del fuel tree
          (← cursorAt m t (← m.get (m.child (sideOf lt del e.1)) t))

/-- `remove` -/
def remove (tree : RedBlackTree K V) (del : K) : Option (RedBlackTree K V) :=
  match tree.root with
  | none => some tree
  | some root => do
      let m := tree.memory
      let l ← m.get (m.child .left) root
      let r ← m.get (m.child .right) root
      if equal lt (← m.getData root).1 del ∧ l = none ∧ r = none then
        let m ← m.deleteNode root
        return { memory := m, root := none, head := none, rear := none
                 len := tree.len - 1 }
      else removeFrom lt del m.top tree ⟨root, root, some root⟩

/-- `make_empty` -/
def makeEmpty (m : RBMemory K V) : ℕ → Option ℕ → Option (RBMemory K V)
  | _, none => some m
  | 0, some _ => none
  | fuel + 1, some t => do
      let m ← makeEmpty m fuel (← m.get (m.child .left) t)
      let m ← makeEmpty m fuel (← m.get (m.child .right) t)
      m.deleteNode t

/-- `clone`: the nodes of `other` from `p` on are made anew.  The new nodes get
their parents after their children. -/
def clone (other : RBMemory K V) :
    ℕ → RBMemory K V → Option ℕ → Option (RBMemory K V × Option ℕ)
  | _, m, none => some (m, none)
  | 0, _, some _ => none
  | fuel + 1, m, some p => do
      let e ← other.getData p
      let c ← other.get other.color p
      let (t, m) := m.newNode e c none
      let (m, l) ← clone other fuel m (← other.get (other.child .left) p)
      let m ← m.setChild .left t l
      let (m, r) ← clone other fuel m (← other.get (other.child .right) p)
      let m ← m.setChild .right t r
      let m ← m.unlessNull (← m.get (m.child .left) t) fun l =>
        m.setFa l (some t)
      let m ← m.unlessNull (← m.get (m.child .right) t) fun r =>
        m.setFa r (some t)
      return (m, some t)

/-- The copy constructor. -/
def copy (other : RedBlackTree K V) : Option (RedBlackTree K V) := do
  let (m, root) ← clone other.memory other.memory.top .empty other.root
  let tree : RedBlackTree K V :=
    { memory := m, root := root, head := none, rear := none, len := other.len }
  tree.setEnds

/-- `operator=` for another tree. -/
def assign (tree other : RedBlackTree K V) : Option (RedBlackTree K V) := do
  let m ← makeEmpty tree.memory tree.memory.top tree.root
  let (m, root) ← clone other.memory other.memory.top m other.root
  let tree ← { tree with memory := m, root := root }.setEnds
  return { tree with len := other.len }

end RedBlackTree

end TicketSystem.Backend
