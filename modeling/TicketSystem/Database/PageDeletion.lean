import TicketSystem.Database.IndexRuns
import TicketSystem.Database.LatchedTree

/-!
# The pages that a removal leaves behind

`Remove` of the tree with latches records the pages that it no longer needs and
deletes, at its end, those that it holds latched.  By then it holds none, so
that it deletes no page at all; whether it leaves one behind is decided at the
leaf of the key.
-/

namespace TicketSystem.Database

open TicketSystem.Support

variable {K V : Type} {D : Type} {α : Type}

/-! ## Operations that delete and record nothing -/

def PageOp.Keeps : PageOp D → Prop
  | deletePage _ => False
  | _ => True

/-- The operation deletes no page. -/
def LatchedOp.Keeps : LatchedOp D → Prop
  | page op => op.Keeps
  | _ => True

/-- The operation neither deletes a page nor records one. -/
def LatchedOp.Quiet : LatchedOp D → Prop
  | page op => op.Keeps
  | addIntoDeletedPageSet _ => False
  | _ => True

theorem LatchedOp.Quiet.keeps {op : LatchedOp D} (h : op.Quiet) : op.Keeps := by
  cases op with
  | page op => exact h
  | _ => trivial

section Pages

/-- The program deletes no page. -/
abbrev Keeps (program : TreeM K V α) : Prop :=
  program.Performs PageOp.Keeps

theorem keeps_orStop {stop : Stop} (option : Option α) :
    Keeps (orStop (K := K) (V := V) stop option) := by
  cases option <;> trivial

theorem keeps_getData (pageId : PageId) :
    Keeps (getData (K := K) (V := V) pageId) :=
  Program.performs_lift trivial

theorem keeps_setData (pageId : PageId) (data : PageData K V) :
    Keeps (setData pageId data) :=
  Program.performs_lift trivial

theorem keeps_fetchPage (pageId : PageId) :
    Keeps (fetchPage (K := K) (V := V) pageId) := by
  apply Program.performs_bind (Program.performs_lift trivial)
  rintro (_ | _ | _) <;> trivial

theorem keeps_unpinPage (pageId : PageId) (isDirty : Bool) :
    Keeps (unpinPage (K := K) (V := V) pageId isDirty) :=
  Program.performs_bind (Program.performs_lift trivial) fun _ =>
    Program.performs_pure ()

theorem keeps_getLeaf (pageId : PageId) :
    Keeps (getLeaf (K := K) (V := V) pageId) := by
  apply Program.performs_bind (keeps_getData pageId)
  rintro (_ | _ | _ | _) <;> trivial

theorem keeps_getInternal (pageId : PageId) :
    Keeps (getInternal (K := K) (V := V) pageId) := by
  apply Program.performs_bind (keeps_getData pageId)
  rintro (_ | _ | _ | _) <;> trivial

theorem keeps_getNode (pageId : PageId) :
    Keeps (getNode (K := K) (V := V) pageId) :=
  Program.performs_bind (keeps_getData pageId) fun _ => keeps_orStop _

theorem keeps_getHeader (pageId : PageId) :
    Keeps (getHeader (K := K) (V := V) pageId) :=
  Program.performs_bind (keeps_getData pageId) fun _ => keeps_orStop _

theorem keeps_setParentPageId (pageId parentPageId : PageId) :
    Keeps (setParentPageId (K := K) (V := V) pageId parentPageId) :=
  Program.performs_bind (keeps_getData pageId) fun _ => keeps_setData _ _

theorem keeps_setParent (child parentPageId : PageId) :
    Keeps (setParent (K := K) (V := V) child parentPageId) := by
  apply Program.performs_bind (keeps_fetchPage child)
  intro _
  apply Program.performs_bind (keeps_setParentPageId child parentPageId)
  exact fun _ => keeps_unpinPage child true

theorem keeps_setParents (parentPageId : PageId) (children : List PageId) :
    Keeps (setParents (K := K) (V := V) parentPageId children) := by
  induction children with
  | nil => trivial
  | cons child children ih =>
      exact Program.performs_bind (keeps_setParent child parentPageId)
        fun _ => ih

theorem keeps_moveAllTo (pageId recipient : PageId) (middleKey : K) :
    Keeps (moveAllTo (V := V) pageId recipient middleKey) := by
  apply Program.performs_bind (keeps_getInternal pageId)
  intro page
  apply Program.performs_bind (keeps_getInternal recipient)
  intro recipientPage
  split
  · trivial
  · apply Program.performs_bind (keeps_setParents _ _)
    intro _
    exact Program.performs_bind (keeps_setData _ _) fun _ => keeps_setData _ _

theorem keeps_copyLastFrom (pageId : PageId) (pair : K × PageId) :
    Keeps (copyLastFrom (V := V) pageId pair) := by
  apply Program.performs_bind (keeps_getInternal pageId)
  intro page
  exact Program.performs_bind (keeps_setData _ _) fun _ => keeps_setParent _ _

theorem keeps_copyFirstFrom (pageId : PageId) (pair : K × PageId) :
    Keeps (copyFirstFrom (V := V) pageId pair) := by
  apply Program.performs_bind (keeps_getInternal pageId)
  intro page
  exact Program.performs_bind (keeps_setData _ _) fun _ => keeps_setParent _ _

theorem keeps_moveFirstToEndOf (pageId recipient : PageId) (middleKey : K) :
    Keeps (moveFirstToEndOf (V := V) pageId recipient middleKey) := by
  apply Program.performs_bind (keeps_getInternal pageId)
  intro page
  apply Program.performs_bind (keeps_orStop _)
  intro child
  exact Program.performs_bind (keeps_copyLastFrom _ _) fun _ =>
    keeps_setData _ _

theorem keeps_moveLastToFrontOf (pageId recipient : PageId) (middleKey : K) :
    Keeps (moveLastToFrontOf (V := V) pageId recipient middleKey) := by
  apply Program.performs_bind (keeps_getInternal recipient)
  intro recipientPage
  apply Program.performs_bind (keeps_setData _ _)
  intro _
  apply Program.performs_bind (keeps_getInternal pageId)
  intro page
  apply Program.performs_bind (keeps_orStop _)
  intro item
  exact Program.performs_bind (keeps_copyFirstFrom _ _) fun _ =>
    keeps_setData _ _

theorem keeps_mergeInto (node neighbor : PageId) (middleKey : K) :
    Keeps (BPlusTreeNTS.mergeInto (V := V) node neighbor middleKey) := by
  apply Program.performs_bind (keeps_getData node)
  rintro (_ | _ | currNode | _)
  · trivial
  · trivial
  · apply Program.performs_bind (keeps_getLeaf neighbor)
    intro prevNode
    exact Program.performs_bind (keeps_setData _ _) fun _ => keeps_setData _ _
  · exact keeps_moveAllTo node neighbor middleKey

theorem keeps_moveItem (neighbor node : PageId) (index : ℕ) (middleKey : K) :
    Keeps (BPlusTreeNTS.moveItem (V := V) neighbor node index middleKey) := by
  apply Program.performs_bind (keeps_getData neighbor)
  rintro (_ | _ | neighborNode | _)
  · trivial
  · trivial
  · apply Program.performs_bind (keeps_getLeaf node)
    intro currNode
    apply Program.performs_ite <;>
    · apply Program.performs_bind (keeps_orStop _)
      rintro ⟨neighborNode, currNode⟩
      apply Program.performs_bind (keeps_setData _ _)
      intro _
      exact Program.performs_bind (keeps_setData _ _) fun _ => keeps_orStop _
  · apply Program.performs_ite
    · apply Program.performs_bind (keeps_moveFirstToEndOf _ _ _)
      intro _
      exact Program.performs_bind (keeps_getInternal _) fun _ => keeps_orStop _
    · apply Program.performs_bind (keeps_moveLastToFrontOf _ _ _)
      intro _
      exact Program.performs_bind (keeps_getInternal _) fun _ => keeps_orStop _

end Pages

section Latched

/-- The program neither deletes a page nor records one. -/
abbrev Quiet (program : LatchedM K V α) : Prop :=
  program.Performs LatchedOp.Quiet

theorem quiet_onPool {program : TreeM K V α} (h : Keeps program) :
    Quiet (onPool program) :=
  Program.performs_translate (fun _ hop => Program.performs_lift hop) h

theorem quiet_fetchPage (pageId : PageId) :
    Quiet (K := K) (V := V) (onPool (fetchPage pageId)) :=
  quiet_onPool (keeps_fetchPage pageId)

theorem quiet_unpinPage (pageId : PageId) (isDirty : Bool) :
    Quiet (K := K) (V := V) (onPool (unpinPage pageId isDirty)) :=
  quiet_onPool (keeps_unpinPage pageId isDirty)

theorem quiet_orStop {stop : Stop} (option : Option α) :
    Quiet (K := K) (V := V) (onPool (orStop stop option)) :=
  quiet_onPool (keeps_orStop option)

theorem quiet_fetch (pageId : PageId) :
    Quiet (fetch (K := K) (V := V) pageId) :=
  Program.performs_bind (quiet_fetchPage pageId) fun _ =>
    Program.performs_lift trivial

theorem quiet_getPage (page : ℕ) : Quiet (getPage (K := K) (V := V) page) :=
  Program.performs_lift trivial

theorem quiet_nodeAt (page : ℕ) : Quiet (nodeAt (K := K) (V := V) page) :=
  Program.performs_bind (Program.performs_lift trivial) fun _ => quiet_orStop _

theorem quiet_latchPage (page : ℕ) (type : TransactionType) :
    Quiet (latchPage (K := K) (V := V) page type) :=
  Program.performs_bind (quiet_nodeAt page) fun _ =>
    Program.performs_lift trivial

theorem quiet_unlatchPage (page : ℕ) (type : TransactionType) :
    Quiet (unlatchPage (K := K) (V := V) page type) := by
  apply Program.performs_bind (quiet_nodeAt page)
  intro node
  split
  · exact Program.performs_bind (Program.performs_lift trivial) fun _ =>
      Program.performs_lift trivial
  · exact Program.performs_lift trivial

theorem quiet_unlatchNode (node : PageId) (type : TransactionType) :
    Quiet (unlatchNode (K := K) (V := V) node type) := by
  apply Program.performs_bind (quiet_onPool (keeps_getNode node))
  intro page
  apply Program.performs_bind (quiet_fetch _)
  intro frame
  exact Program.performs_bind (quiet_unlatchPage _ _) fun _ =>
    quiet_unpinPage _ _

theorem quiet_releaseEach (type : TransactionType) (pages : List ℕ) :
    Quiet (releaseEach (K := K) (V := V) type pages) := by
  induction pages with
  | nil => trivial
  | cons page pages ih =>
      apply Program.performs_bind (quiet_unlatchPage page type)
      intro _
      apply Program.performs_bind (Program.performs_lift trivial)
      intro frame
      exact Program.performs_bind (quiet_unpinPage _ _) fun _ => ih

theorem quiet_releasePages (type : TransactionType) :
    Quiet (releasePages (K := K) (V := V) type) := by
  apply Program.performs_bind (Program.performs_lift trivial)
  intro pages
  exact Program.performs_bind (quiet_releaseEach type pages) fun _ =>
    Program.performs_lift trivial

variable {tree : BPlusTreeTS K} {key : K} {type : TransactionType}
  {leftMost : Bool}

theorem quiet_crabLoop (fuel lastPage : ℕ) (lastPageId : PageId) :
    Quiet (tree.crabLoop (V := V) key type leftMost fuel lastPage
      lastPageId) := by
  induction fuel generalizing lastPage lastPageId with
  | zero => trivial
  | succ fuel ih =>
      apply Program.performs_bind (quiet_onPool (keeps_getInternal _))
      intro lastNode
      apply Program.performs_bind (quiet_orStop _)
      intro nextPageId
      apply Program.performs_bind (quiet_fetch _)
      intro nextPage
      apply Program.performs_bind (quiet_nodeAt _)
      intro nextNode
      apply Program.performs_bind (quiet_latchPage _ _)
      intro _
      have hrest : Quiet (V := V)
          (if nextNode.isLeafPage then pure nextPage
          else tree.crabLoop key type leftMost fuel nextPage nextPageId) :=
        Program.performs_ite trivial (ih _ _)
      dsimp only
      apply Program.performs_ite
      · apply Program.performs_bind (quiet_unlatchPage _ _)
        intro _
        exact Program.performs_bind (quiet_unpinPage _ _) fun _ => hrest
      · apply Program.performs_bind (Program.performs_lift trivial)
        intro _
        apply Program.performs_ite
        · exact Program.performs_bind (quiet_releasePages _) fun _ => hrest
        · exact hrest

theorem quiet_crabFromRoot (fuel : ℕ) :
    Quiet (tree.crabFromRoot (V := V) fuel key type leftMost) := by
  apply Program.performs_ite
  · exact Program.performs_bind (Program.performs_lift trivial) fun _ =>
      Program.performs_pure _
  · apply Program.performs_bind (quiet_fetch _)
    intro lastPage
    apply Program.performs_bind (quiet_latchPage _ _)
    intro _
    apply Program.performs_bind (quiet_nodeAt _)
    intro testNode
    apply Program.performs_ite
    · trivial
    · exact Program.performs_bind (quiet_crabLoop _ _ _) fun _ =>
        Program.performs_pure _

theorem quiet_crabToLeaf (fuel : ℕ) (rootLatched isLocked : Bool) :
    Quiet (tree.crabToLeaf (V := V) fuel key type leftMost rootLatched
      isLocked) := by
  have hrest : Quiet (V := V) (tree.crabFromRoot fuel key type leftMost) :=
    quiet_crabFromRoot fuel
  apply Program.performs_ite
  · apply Program.performs_bind (Program.performs_lift trivial)
    intro _
    apply Program.performs_ite
    · exact Program.performs_bind (Program.performs_lift trivial) fun _ =>
        hrest
    · exact hrest
  · exact hrest

theorem quiet_pinPage (pageId : PageId) :
    Quiet (pinPage (K := K) (V := V) pageId) := by
  apply Program.performs_bind (Program.performs_lift trivial)
  rintro (_ | _ | _) <;> trivial

theorem quiet_updateRootPageId (tree : BPlusTreeTS K) :
    Quiet (tree.updateRootPageId (V := V)) := by
  apply Program.performs_bind (quiet_fetchPage _)
  intro _
  apply Program.performs_bind (quiet_onPool (keeps_getHeader _))
  intro records
  apply Program.performs_bind (quiet_orStop _)
  intro record
  apply Program.performs_bind (quiet_orStop _)
  intro lastRootPageId
  have hpin := quiet_unpinPage (K := K) (V := V) HEADER_PAGE_ID true
  have hset : ∀ records : HeaderRecords, Quiet (K := K) (V := V)
      (onPool (setData HEADER_PAGE_ID (.header records))) := fun records =>
    quiet_onPool (keeps_setData _ _)
  apply Program.performs_ite
  · apply Program.performs_bind (quiet_unpinPage _ _)
    intro _
    apply Program.performs_bind (hset _)
    intro _
    apply Program.performs_ite _ hpin
    exact Program.performs_bind (quiet_pinPage _) fun _ => hpin
  · apply Program.performs_bind (hset _)
    intro _
    apply Program.performs_ite _ hpin
    exact Program.performs_bind (quiet_pinPage _) fun _ => hpin

theorem quiet_redistribute (neighbor node : PageId) (index : ℕ) :
    Quiet (BPlusTreeTS.redistribute (K := K) (V := V) neighbor node
      index) := by
  apply Program.performs_bind (quiet_onPool (keeps_getNode _))
  intro page
  apply Program.performs_bind (quiet_fetchPage _)
  intro _
  apply Program.performs_bind (quiet_onPool (keeps_getInternal _))
  intro parentNode
  apply Program.performs_bind (quiet_onPool (keeps_getNode _))
  intro child
  apply Program.performs_bind (quiet_orStop _)
  intro arrayId
  apply Program.performs_bind (quiet_orStop _)
  intro middleKey
  apply Program.performs_bind (quiet_onPool (keeps_moveItem _ _ _ _))
  intro newKey
  apply Program.performs_bind (quiet_onPool (keeps_setData _ _))
  intro _
  have hunpin : ∀ pageId : PageId, Keeps (K := K) (V := V)
      (do unpinPage (← getNode pageId).pageId true) := fun pageId =>
    Program.performs_bind (keeps_getNode pageId) fun _ => keeps_unpinPage _ _
  apply Program.performs_bind (quiet_onPool (hunpin node))
  intro _
  apply Program.performs_bind (quiet_unlatchNode _ _)
  intro _
  exact Program.performs_bind (quiet_onPool (hunpin neighbor)) fun _ =>
    quiet_unpinPage _ _

end Latched

/-! ## Runs on the pool -/

section Runs

variable {bpm bpm' : BufferPoolManager (PageData K V)} {pageId : PageId}
  {data : PageData K V}

theorem of_run_orStop {stop : Stop} {option : Option α} {value : α}
    (h : (orStop stop option : TreeM K V α).run BufferPoolManager.perform bpm =
      .ok (value, bpm')) :
    option = some value ∧ bpm' = bpm := by
  cases option with
  | none => cases h
  | some value' =>
      obtain ⟨rfl, rfl⟩ := Prod.mk.inj (Except.ok.inj h)
      exact ⟨rfl, rfl⟩

theorem of_run_getData
    (h : (getData pageId).run BufferPoolManager.perform bpm = .ok (data, bpm')) :
    bpm.getData pageId = some data ∧ bpm' = bpm := by
  rw [getData, Program.lift, Program.run,
    BufferPoolManager.perform] at h
  cases hget : bpm.getData pageId with
  | none =>
      rw [hget] at h
      cases h
  | some data' =>
      rw [hget] at h
      obtain ⟨rfl, rfl⟩ := Prod.mk.inj (Except.ok.inj h)
      exact ⟨rfl, rfl⟩

theorem of_run_setData {answer : Unit}
    (h : (setData pageId data).run BufferPoolManager.perform bpm = .ok (answer, bpm')) :
    bpm.setData pageId data = some bpm' := by
  rw [setData, Program.lift, Program.run,
    BufferPoolManager.perform] at h
  cases hset : bpm.setData pageId data with
  | none =>
      rw [hset] at h
      cases h
  | some bpm₁ =>
      rw [hset] at h
      obtain ⟨-, rfl⟩ := Prod.mk.inj (Except.ok.inj h)
      rfl

theorem of_run_fetchPage {answer : Unit}
    (h : (fetchPage pageId : TreeM K V Unit).run BufferPoolManager.perform bpm =
      .ok (answer, bpm')) :
    bpm.fetchPage pageId = some (.page, bpm') := by
  obtain ⟨fetched, bpm₁, hfetch, hrest⟩ := Program.exists_of_run_bind h
  rw [Program.lift, Program.run,
    BufferPoolManager.perform] at hfetch
  cases hpage : bpm.fetchPage pageId with
  | none =>
      rw [hpage] at hfetch
      cases hfetch
  | some result =>
      rw [hpage] at hfetch
      obtain ⟨rfl, rfl⟩ := Prod.mk.inj (Except.ok.inj hfetch)
      obtain ⟨fetched, bpm₁⟩ := result
      cases fetched with
      | page =>
          obtain ⟨-, rfl⟩ := Prod.mk.inj (Except.ok.inj hrest)
          rfl
      | null => cases hrest
      | readLessThenAPage => cases hrest

theorem of_run_getLeaf {page : LeafPage K V}
    (h : (getLeaf pageId).run BufferPoolManager.perform bpm = .ok (page, bpm')) :
    bpm.getData pageId = some (.leaf page) ∧ bpm' = bpm := by
  obtain ⟨data, bpm₁, hget, hrest⟩ := Program.exists_of_run_bind h
  obtain ⟨hdata, rfl⟩ := of_run_getData hget
  cases data with
  | leaf page' =>
      obtain ⟨rfl, rfl⟩ := Prod.mk.inj (Except.ok.inj hrest)
      exact ⟨hdata, rfl⟩
  | zero => cases hrest
  | header records => cases hrest
  | internal page' => cases hrest

theorem of_run_getInternal {page : InternalPage K}
    (h : (getInternal pageId : TreeM K V (InternalPage K)).run BufferPoolManager.perform bpm =
      .ok (page, bpm')) :
    bpm.getData pageId = some (.internal page) ∧ bpm' = bpm := by
  obtain ⟨data, bpm₁, hget, hrest⟩ := Program.exists_of_run_bind h
  obtain ⟨hdata, rfl⟩ := of_run_getData hget
  cases data with
  | internal page' =>
      obtain ⟨rfl, rfl⟩ := Prod.mk.inj (Except.ok.inj hrest)
      exact ⟨hdata, rfl⟩
  | zero => cases hrest
  | header records => cases hrest
  | leaf page' => cases hrest

theorem of_run_getNode {node : BPlusTreePage}
    (h : (getNode pageId : TreeM K V BPlusTreePage).run BufferPoolManager.perform bpm =
      .ok (node, bpm')) :
    ((bpm.getData pageId).bind PageData.node) = some node ∧ bpm' = bpm := by
  obtain ⟨data, bpm₁, hget, hrest⟩ := Program.exists_of_run_bind h
  obtain ⟨hdata, rfl⟩ := of_run_getData hget
  obtain ⟨hnode, rfl⟩ := of_run_orStop hrest
  rw [hdata]
  exact ⟨hnode, rfl⟩

/-- What was written is read again. -/
theorem BufferPoolManager.getData_setData (h : bpm.setData pageId data = some bpm') :
    bpm'.getData pageId = some data := by
  rw [BufferPoolManager.setData] at h
  cases hpage : bpm.pageTable.find? pageId with
  | none =>
      rw [hpage] at h
      cases h
  | some frameId =>
      simp only [hpage] at h
      split at h
      · cases h
      · next hpin =>
        obtain rfl := Option.some.inj h
        rw [BufferPoolManager.getData]
        simp only [BufferPoolManager.setFrame, hpage, Function.update_self, if_neg hpin]

end Runs

namespace LatchedPool

variable {s s' : LatchedPool (PageData K V)}

theorem run_onPool (program : TreeM K V α) (s : LatchedPool (PageData K V)) :
    (onPool program).run perform s =
      (program.run BufferPoolManager.perform s.bpm).map fun result =>
        (result.1, { s with bpm := result.2 }) := by
  apply Program.run_translate bpm fun bpm s => { s with bpm := bpm }
  · exact fun _ _ => rfl
  · exact fun _ _ _ => rfl
  · exact fun _ => rfl
  · intro op s
    rw [Program.lift, Program.run, perform]
    cases BufferPoolManager.perform op s.bpm with
    | none => rfl
    | some result => rfl

theorem of_run_onPool {program : TreeM K V α} {value : α}
    (h : (onPool program).run perform s = .ok (value, s')) :
    ∃ bpm, program.run BufferPoolManager.perform s.bpm = .ok (value, bpm) ∧
      s' = { s with bpm := bpm } := by
  rw [run_onPool] at h
  cases hrun : program.run BufferPoolManager.perform s.bpm with
  | error error =>
      rw [hrun] at h
      cases h
  | ok result =>
      rw [hrun] at h
      obtain ⟨rfl, rfl⟩ := Prod.mk.inj (Except.ok.inj h)
      exact ⟨result.2, rfl, rfl⟩

/-- A program that only reads pages leaves the state as it is. -/
theorem of_run_onPool_same {program : TreeM K V α} {value : α} {P : Prop}
    (hpool : ∀ bpm, program.run BufferPoolManager.perform s.bpm =
      .ok (value, bpm) → P ∧ bpm = s.bpm)
    (h : (onPool program).run perform s = .ok (value, s')) :
    P ∧ s = s' := by
  obtain ⟨bpm, hrun, rfl⟩ := of_run_onPool h
  obtain ⟨hP, rfl⟩ := hpool bpm hrun
  exact ⟨hP, rfl⟩

theorem of_run_orStop {stop : Stop} {option : Option α} {value : α}
    (h : (onPool (orStop stop option) : LatchedM K V α).run perform s =
      .ok (value, s')) :
    option = some value ∧ s = s' :=
  of_run_onPool_same (fun _ => Database.of_run_orStop) h

theorem of_run_getData {pageId : PageId} {data : PageData K V}
    (h : (onPool (getData pageId)).run perform s = .ok (data, s')) :
    s.bpm.getData pageId = some data ∧ s = s' :=
  of_run_onPool_same (fun _ => Database.of_run_getData) h

theorem of_run_getLeaf {pageId : PageId} {page : LeafPage K V}
    (h : (onPool (getLeaf pageId)).run perform s = .ok (page, s')) :
    s.bpm.getData pageId = some (.leaf page) ∧ s = s' :=
  of_run_onPool_same (fun _ => Database.of_run_getLeaf) h

theorem of_run_getInternal {pageId : PageId} {page : InternalPage K}
    (h : (onPool (getInternal pageId) : LatchedM K V (InternalPage K)).run
      perform s = .ok (page, s')) :
    s.bpm.getData pageId = some (.internal page) ∧ s = s' :=
  of_run_onPool_same (fun _ => Database.of_run_getInternal) h

theorem of_run_getNode {pageId : PageId} {node : BPlusTreePage}
    (h : (onPool (getNode pageId) : LatchedM K V BPlusTreePage).run
      perform s = .ok (node, s')) :
    (s.bpm.getData pageId).bind PageData.node = some node ∧ s = s' :=
  of_run_onPool_same (fun _ => Database.of_run_getNode) h

theorem of_run_setData {pageId : PageId} {data : PageData K V} {answer : Unit}
    (h : (onPool (setData pageId data)).run perform s = .ok (answer, s')) :
    ∃ bpm, s.bpm.setData pageId data = some bpm ∧
      s' = { s with bpm := bpm } := by
  obtain ⟨bpm, hrun, rfl⟩ := of_run_onPool h
  exact ⟨bpm, Database.of_run_setData hrun, rfl⟩

theorem of_run_fetchPage {pageId : PageId} {answer : Unit}
    (h : (onPool (fetchPage pageId) : LatchedM K V Unit).run perform s =
      .ok (answer, s')) :
    ∃ bpm, s.bpm.fetchPage pageId = some (.page, bpm) ∧
      s' = { s with bpm := bpm } := by
  obtain ⟨bpm, hrun, rfl⟩ := of_run_onPool h
  exact ⟨bpm, Database.of_run_fetchPage hrun, rfl⟩

theorem of_run_fetch {pageId : PageId} {page : ℕ}
    (h : (fetch pageId : LatchedM K V ℕ).run perform s = .ok (page, s')) :
    s.bpm.fetchPage pageId = some (.page, s'.bpm) := by
  obtain ⟨_, s₁, hfetch, hframe⟩ := Program.exists_of_run_bind h
  obtain ⟨bpm, hpage, rfl⟩ := of_run_fetchPage hfetch
  rw [Program.lift, Program.run, perform] at hframe
  cases hfind : bpm.pageTable.find? pageId with
  | none =>
      rw [hfind] at hframe
      cases hframe
  | some frameId =>
      rw [hfind] at hframe
      obtain ⟨-, rfl⟩ := Prod.mk.inj (Except.ok.inj hframe)
      exact hpage

theorem of_run_nodeAt {page : ℕ} {node : BPlusTreePage}
    (h : (nodeAt page : LatchedM K V BPlusTreePage).run perform s =
      .ok (node, s')) :
    s = s' := by
  obtain ⟨frame, s₁, hframe, hstop⟩ := Program.exists_of_run_bind h
  obtain ⟨-, rfl⟩ := Prod.mk.inj (Except.ok.inj hframe)
  exact (of_run_orStop hstop).2

theorem of_run_latchPage {page : ℕ} {type : TransactionType} {answer : Unit}
    (h : (latchPage page type : LatchedM K V Unit).run perform s =
      .ok (answer, s')) :
    s'.bpm = s.bpm := by
  obtain ⟨node, s₁, hnode, hlatch⟩ := Program.exists_of_run_bind h
  obtain rfl := of_run_nodeAt hnode
  rw [Program.lift, Program.run, perform] at hlatch
  cases hlock : (s.latches page).lock (type.pageMode node) with
  | none =>
      simp only [hlock, Option.map_none] at hlatch
      cases hlatch
  | some latch =>
      simp only [hlock, Option.map_some] at hlatch
      obtain ⟨-, rfl⟩ := Prod.mk.inj (Except.ok.inj hlatch)
      rfl

/-- Nothing is latched any more, as far as the transaction knows. -/
theorem of_run_releasePages {type : TransactionType} {answer : Unit}
    (h : (releasePages type : LatchedM K V Unit).run perform s =
      .ok (answer, s')) :
    s'.transaction.pageSet = [] := by
  obtain ⟨pages, s₁, -, h⟩ := Program.exists_of_run_bind h
  obtain ⟨_, s₂, -, hclear⟩ := Program.exists_of_run_bind h
  obtain ⟨-, rfl⟩ := Prod.mk.inj (Except.ok.inj hclear)
  rfl

theorem of_run_unlatchPage {page : ℕ} {type : TransactionType} {answer : Unit}
    (h : (unlatchPage page type : LatchedM K V Unit).run perform s =
      .ok (answer, s')) :
    s'.transaction = s.transaction := by
  obtain ⟨node, s₁, hnode, h⟩ := Program.exists_of_run_bind h
  obtain rfl := of_run_nodeAt hnode
  by_cases hroot : node.isRootPage
  · rw [if_pos hroot] at h
    obtain ⟨_, s₁, hunlock, hunlatch⟩ := Program.exists_of_run_bind h
    obtain ⟨-, rfl⟩ := Prod.mk.inj (Except.ok.inj hunlock)
    obtain ⟨-, rfl⟩ := Prod.mk.inj (Except.ok.inj hunlatch)
    rfl
  · rw [if_neg hroot] at h
    obtain ⟨-, rfl⟩ := Prod.mk.inj (Except.ok.inj h)
    rfl

end LatchedPool

theorem ok_of_toOption {ε : Type} {result : Except ε α} {value : α}
    (h : result.toOption = some value) : result = .ok value := by
  cases result with
  | error error => cases h
  | ok value' => exact congrArg _ (Option.some.inj h)

/-! ## Whether a node is dropped -/

namespace BufferPoolManager

variable {bpm : BufferPoolManager (PageData K V)}

/-- What the pointer of `FetchPage` shows, and the pool after it. -/
def fetchData (bpm : BufferPoolManager (PageData K V)) (pageId : PageId) :
    Option (PageData K V × BufferPoolManager (PageData K V)) :=
  match bpm.fetchPage pageId with
  | some (.page, bpm) => (bpm.getData pageId).map fun data => (data, bpm)
  | _ => none

/-- The page that `CoalesceOrRedistribute` takes for the neighbor of a node:
the child of the parent before it, or the second child for the first one. -/
def neighborOf (bpm : BufferPoolManager (PageData K V))
    (node : BPlusTreePage) : Option BPlusTreePage :=
  match bpm.fetchData node.parentPageId with
  | some (.internal parent, bpm) => do
      let nodeId ← parent.valueIndex node.pageId
      let neighbor ← parent.valueAt (if nodeId = 0 then 1 else nodeId - 1)
      let (data, _) ← bpm.fetchData neighbor
      data.node
  | _ => none

/-- The node that has lost an item does not stay by itself: as the root it is
empty, and otherwise it has less than the minimum and fits on one page together
with its neighbor. -/
def DropsNode (bpm : BufferPoolManager (PageData K V))
    (node : BPlusTreePage) : Prop :=
  node.size < node.minSize ∧
    if node.isRootPage then node.size = 0
    else ∃ neighbor, bpm.neighborOf node = some neighbor ∧
      neighbor.size + node.size < node.maxSize

end BufferPoolManager

namespace BPlusTreeTS

/-- The leaf holds the key, and without it the leaf is dropped or takes the
place of its neighbor. -/
def DropsLeaf (tree : BPlusTreeTS K) (key : K) (leafPage : ℕ)
    (s : LatchedPool (PageData K V)) : Prop :=
  ∃ page index page' node bpm,
    s.bpm.getData (s.bpm.pages leafPage).pageId = some (.leaf page) ∧
    page.removeAndDeleteRecord tree.comparator key = some (index, page') ∧
    index ≠ -1 ∧
    (PageData.leaf page').node = some node ∧
    s.bpm.setData (s.bpm.pages leafPage).pageId (.leaf page') = some bpm ∧
    bpm.DropsNode node

/-- The leaf to which `CrabToLeaf` goes from here is one that the removal of
the key drops. -/
def DropsNode (tree : BPlusTreeTS K) (fuel : ℕ) (key : K) (isCalled : Bool)
    (s : LatchedPool (PageData K V)) : Prop :=
  ∃ leafPage s₁,
    (tree.crabToLeaf fuel key .delete false false (!isCalled)).run
      LatchedPool.perform s = .ok (some leafPage, s₁) ∧
    tree.DropsLeaf key leafPage s₁

end BPlusTreeTS

section Recording

variable {s s' : LatchedPool (PageData K V)}

/-- The operation records a page for deletion. -/
def LatchedOp.Records : LatchedOp D → Prop
  | addIntoDeletedPageSet _ => True
  | _ => False

instance (op : LatchedOp D) : Decidable op.Records := by
  unfold LatchedOp.Records
  split <;> infer_instance

/-- Some step of the program records a page. -/
def Recording (program : LatchedM K V α)
    (s : LatchedPool (PageData K V)) : Prop :=
  ∃ step ∈ program.steps LatchedPool.perform s, step.1.Records

theorem Quiet.not_recording {program : LatchedM K V α} (h : Quiet program) :
    ¬ Recording program s := by
  rintro ⟨⟨op, t⟩, hstep, hrecords⟩
  have hquiet := h.of_mem_steps hstep
  cases op with
  | addIntoDeletedPageSet pageId => exact hquiet
  | _ => exact hrecords

/-- What comes before can be left out if it is quiet. -/
theorem recording_bind {β : Type} {program : LatchedM K V α}
    {next : α → LatchedM K V β} {value : α} (h : Quiet program)
    (hrun : program.run LatchedPool.perform s = .ok (value, s')) :
    Recording (program >>= next) s ↔ Recording (next value) s' := by
  rw [Recording, Program.steps_bind_of_ok hrun]
  constructor
  · rintro ⟨step, hstep, hrecords⟩
    rcases List.mem_append.mp hstep with hstep | hstep
    · exact absurd ⟨step, hstep, hrecords⟩ h.not_recording
    · exact ⟨step, hstep, hrecords⟩
  · rintro ⟨step, hstep, hrecords⟩
    exact ⟨step, List.mem_append_right _ hstep, hrecords⟩

/-- What comes after can be left out as well. -/
theorem recording_bind_quiet {β : Type} {program : LatchedM K V α}
    {value : α} (next : α → LatchedM K V β)
    (hrun : program.run LatchedPool.perform s = .ok (value, s'))
    (h : ¬ Recording (next value) s') :
    Recording (program >>= next) s ↔ Recording program s := by
  rw [Recording, Program.steps_bind_of_ok hrun]
  constructor
  · rintro ⟨step, hstep, hrecords⟩
    rcases List.mem_append.mp hstep with hstep | hstep
    · exact ⟨step, hstep, hrecords⟩
    · exact absurd ⟨step, hstep, hrecords⟩ h
  · rintro ⟨step, hstep, hrecords⟩
    exact ⟨step, List.mem_append_left _ hstep, hrecords⟩

/-- Every run that ends records a page. -/
abbrev SurelyRecords (program : LatchedM K V α) : Prop :=
  program.SurelyPerforms LatchedPool.perform LatchedOp.Records

theorem surelyRecords_coalesceOrdered (neighbor node parent : PageId)
    (index : ℕ) (latched : PageId) :
    SurelyRecords (BPlusTreeTS.coalesceOrdered (K := K) (V := V) neighbor node
      parent index latched) := by
  apply Program.surelyPerforms_bind
  intro parentNode
  apply Program.surelyPerforms_bind
  intro middleKey
  apply Program.surelyPerforms_bind
  intro _
  apply Program.surelyPerforms_bind
  intro _
  apply Program.surelyPerforms_bind
  intro prevNode
  apply Program.surelyPerforms_bind
  intro currNode
  apply Program.surelyPerforms_bind
  intro _
  apply Program.surelyPerforms_bind
  intro _
  apply Program.surelyPerforms_bind
  intro _
  exact Program.surelyPerforms_lift trivial

theorem surelyRecords_coalesce (neighbor node parent : PageId) (index : ℕ) :
    SurelyRecords (BPlusTreeTS.coalesce (K := K) (V := V) neighbor node parent
      index) := by
  rw [BPlusTreeTS.coalesce]
  split
  · exact surelyRecords_coalesceOrdered _ _ _ _ _
  · exact surelyRecords_coalesceOrdered _ _ _ _ _

variable {tree : BPlusTreeTS K} {page : LeafPage K V} {node : BPlusTreePage}
  {leaf : PageId}

/-- A root that is a leaf is recorded when it is empty. -/
theorem recording_adjustRoot {result : Bool × BPlusTreeTS K}
    (h : (tree.adjustRoot (V := V) leaf).run LatchedPool.perform s =
      .ok (result, s'))
    (hleaf : s.bpm.getData leaf = some (.leaf page)) :
    Recording (tree.adjustRoot (V := V) leaf) s ↔ page.size = 0 := by
  obtain ⟨data, s₁, hget, hrest⟩ := Program.exists_of_run_bind h
  rw [BPlusTreeTS.adjustRoot,
    recording_bind (quiet_onPool (keeps_getData leaf)) hget]
  obtain ⟨hdata, rfl⟩ := LatchedPool.of_run_getData hget
  obtain rfl := Option.some.inj (hleaf.symm.trans hdata)
  by_cases hsize : page.size = 0
  · simp only [if_pos hsize] at hrest ⊢
    refine iff_of_true ?_ hsize
    refine Program.surelyPerforms_bind (fun _ => ?_) _ _ _ hrest
    exact (Program.surelyPerforms_lift trivial).bind _
  · simp only [if_neg hsize]
    refine iff_of_false (Quiet.not_recording ?_) hsize
    exact Program.performs_bind (quiet_unpinPage _ _) fun _ =>
      Program.performs_pure _

theorem neighborOf_eq {bpm bpm₁ bpm₂ : BufferPoolManager (PageData K V)}
    {parent : InternalPage K} {nodeId : ℕ} {neighbor : PageId}
    {neighborNode : BPlusTreePage}
    (hparent : bpm.fetchPage node.parentPageId = some (.page, bpm₁))
    (hinternal : bpm₁.getData node.parentPageId = some (.internal parent))
    (hindex : parent.valueIndex node.pageId = some nodeId)
    (hvalue : parent.valueAt (if nodeId = 0 then 1 else nodeId - 1) =
      some neighbor)
    (hfetch : bpm₁.fetchPage neighbor = some (.page, bpm₂))
    (hnode : (bpm₂.getData neighbor).bind PageData.node =
      some neighborNode) :
    bpm.neighborOf node = some neighborNode := by
  obtain ⟨data, hdata, hnode⟩ := Option.bind_eq_some_iff.mp hnode
  have hfirst : bpm.fetchData node.parentPageId =
      some (.internal parent, bpm₁) := by
    rw [BufferPoolManager.fetchData, hparent]
    simp only [hinternal, Option.map_some]
  have hsecond : bpm₁.fetchData neighbor = some (data, bpm₂) := by
    rw [BufferPoolManager.fetchData, hfetch]
    simp only [hdata, Option.map_some]
  rw [BufferPoolManager.neighborOf, hfirst]
  simp only [hindex, hvalue, hsecond, hnode, Option.bind_eq_bind,
    Option.bind_some]

/-- Whether a leaf that has lost an item is dropped, or the node that it is
merged into, is seen at the leaf. -/
theorem recording_coalesceOrRedistribute {fuel : ℕ}
    {result : Bool × BPlusTreeTS K}
    (h : (tree.coalesceOrRedistribute (V := V) fuel leaf).run
      LatchedPool.perform s = .ok (result, s'))
    (hleaf : s.bpm.getData leaf = some (.leaf page))
    (hnode : (PageData.leaf page).node = some node) :
    Recording (tree.coalesceOrRedistribute (V := V) fuel leaf) s ↔
      s.bpm.DropsNode node := by
  cases fuel with
  | zero => cases h
  | succ fuel =>
      obtain ⟨node', s₁, hget, h⟩ := Program.exists_of_run_bind h
      rw [BPlusTreeTS.coalesceOrRedistribute,
        recording_bind (quiet_onPool (keeps_getNode leaf)) hget]
      obtain ⟨hshown, rfl⟩ := LatchedPool.of_run_getNode hget
      rw [hleaf, Option.bind_some, hnode, Option.some.injEq] at hshown
      subst hshown
      by_cases hsize : node.minSize ≤ node.size
      · -- nothing is done
        rw [if_pos hsize]
        refine iff_of_false (Quiet.not_recording ?_)
          fun hdrops => absurd hsize (not_le.mpr hdrops.1)
        exact Program.performs_bind (quiet_unpinPage _ _) fun _ =>
          Program.performs_pure _
      simp only [if_neg hsize] at h ⊢
      have hdrops : s.bpm.DropsNode node ↔
          if node.isRootPage then node.size = 0
          else ∃ neighbor, s.bpm.neighborOf node = some neighbor ∧
            neighbor.size + node.size < node.maxSize :=
        and_iff_right (not_le.mp hsize)
      rw [hdrops]
      by_cases hroot : node.isRootPage
      · have hpage : page.size = node.size := by
          obtain rfl := Option.some.inj hnode
          rfl
        simp only [if_pos hroot] at h ⊢
        rw [recording_adjustRoot h hleaf, hpage]
      simp only [if_neg hroot] at h ⊢
      obtain ⟨_, s₁, hfirst, h⟩ := Program.exists_of_run_bind h
      rw [recording_bind (quiet_fetchPage _) hfirst]
      obtain ⟨bpm, hparent, rfl⟩ := LatchedPool.of_run_fetchPage hfirst
      obtain ⟨parent, s₁, hsecond, h⟩ := Program.exists_of_run_bind h
      rw [recording_bind (quiet_onPool (keeps_getInternal _)) hsecond]
      obtain ⟨hinternal, rfl⟩ := LatchedPool.of_run_getInternal hsecond
      obtain ⟨nodeId, s₁, hthird, h⟩ := Program.exists_of_run_bind h
      rw [recording_bind (quiet_orStop _) hthird]
      obtain ⟨hindex, rfl⟩ := LatchedPool.of_run_orStop hthird
      obtain ⟨neighbor, s₁, hfourth, h⟩ := Program.exists_of_run_bind h
      rw [recording_bind (quiet_orStop _) hfourth]
      obtain ⟨hvalue, rfl⟩ := LatchedPool.of_run_orStop hfourth
      obtain ⟨neighborPage, s₁, hfifth, h⟩ := Program.exists_of_run_bind h
      rw [recording_bind (quiet_fetch _) hfifth]
      obtain ⟨_, s₂, hlatch, h⟩ := Program.exists_of_run_bind h
      rw [recording_bind (quiet_latchPage _ _) hlatch]
      have hfetch : bpm.fetchPage neighbor = some (.page, s₂.bpm) := by
        rw [LatchedPool.of_run_latchPage hlatch]
        exact LatchedPool.of_run_fetch hfifth
      obtain ⟨neighborNode, s₃, hsixth, h⟩ := Program.exists_of_run_bind h
      rw [recording_bind (quiet_onPool (keeps_getNode _)) hsixth]
      obtain ⟨hneighbor, rfl⟩ := LatchedPool.of_run_getNode hsixth
      rw [neighborOf_eq hparent hinternal hindex hvalue hfetch hneighbor]
      simp only [Option.some.injEq, exists_eq_left']
      by_cases hfits : neighborNode.size + node.size < node.maxSize
      · simp only [if_pos hfits] at h ⊢
        refine iff_of_true ?_ hfits
        exact (surelyRecords_coalesce _ _ _ _).bind _ _ _ _ h
      · simp only [if_neg hfits]
        refine iff_of_false (Quiet.not_recording ?_) hfits
        apply Program.performs_bind (quiet_redistribute _ _ _)
        intro _
        exact Program.performs_bind (quiet_unpinPage _ _) fun _ =>
          Program.performs_pure _

/-- The same for `Remove` from the leaf on. -/
theorem recording_removeFromLeaf {fuel leafPage : ℕ} {key : K}
    {result : BPlusTreeTS K}
    (h : (tree.removeFromLeaf (V := V) fuel key leafPage).run
      LatchedPool.perform s = .ok (result, s')) :
    Recording (tree.removeFromLeaf (V := V) fuel key leafPage) s ↔
      tree.DropsLeaf key leafPage s := by
  obtain ⟨frame, s₁, hframe, h⟩ := Program.exists_of_run_bind h
  rw [BPlusTreeTS.removeFromLeaf,
    recording_bind (quiet_getPage leafPage) hframe]
  obtain ⟨rfl, rfl⟩ := Prod.mk.inj (Except.ok.inj hframe)
  obtain ⟨page, s₁, hleaf, h⟩ := Program.exists_of_run_bind h
  rw [recording_bind (quiet_onPool (keeps_getLeaf _)) hleaf]
  obtain ⟨hpage, rfl⟩ := LatchedPool.of_run_getLeaf hleaf
  obtain ⟨⟨index, page'⟩, s₁, hremove, h⟩ := Program.exists_of_run_bind h
  rw [recording_bind (quiet_orStop _) hremove]
  obtain ⟨hremoved, rfl⟩ := LatchedPool.of_run_orStop hremove
  have hdrops : tree.DropsLeaf key leafPage s ↔ index ≠ -1 ∧
      ∃ node bpm, (PageData.leaf page').node = some node ∧
        s.bpm.setData (s.bpm.pages leafPage).pageId (.leaf page') = some bpm ∧
        bpm.DropsNode node := by
    constructor
    · rintro ⟨p, i, p', node, bpm, hp, hr, hindex, hnode, hset, hdrops⟩
      obtain rfl := PageData.leaf.inj (Option.some.inj (hpage.symm.trans hp))
      obtain ⟨rfl, rfl⟩ :=
        Prod.mk.inj (Option.some.inj (hremoved.symm.trans hr))
      exact ⟨hindex, node, bpm, hnode, hset, hdrops⟩
    · rintro ⟨hindex, node, bpm, hnode, hset, hdrops⟩
      exact ⟨page, index, page', node, bpm, hpage, hremoved, hindex, hnode,
        hset, hdrops⟩
  rw [hdrops]
  by_cases hindex : index = -1
  · simp only [if_pos hindex]
    refine iff_of_false (Quiet.not_recording ?_) fun hne => hne.1 hindex
    exact Program.performs_bind (quiet_unpinPage _ _) fun _ =>
      Program.performs_pure _
  · simp only [if_neg hindex] at h ⊢
    obtain ⟨_, s₁, hwrite, h⟩ := Program.exists_of_run_bind h
    rw [recording_bind (quiet_onPool (keeps_setData _ _)) hwrite]
    obtain ⟨bpm, hset, rfl⟩ := LatchedPool.of_run_setData hwrite
    obtain ⟨answer, s₂, hcall, -⟩ := Program.exists_of_run_bind h
    have htail : Quiet (V := V)
        (pure answer.2 : LatchedM K V (BPlusTreeTS K)) :=
      Program.performs_pure _
    have hnot := htail.not_recording (s := s₂)
    rw [recording_bind_quiet (fun result => pure result.2) hcall hnot,
      recording_coalesceOrRedistribute hcall
        (BufferPoolManager.getData_setData hset) rfl]
    constructor
    · exact fun hdrops => ⟨hindex, _, bpm, rfl, hset, hdrops⟩
    · rintro ⟨-, node, bpm', hnode, hset', hdrops⟩
      obtain rfl := Option.some.inj hnode
      obtain rfl := Option.some.inj (hset.symm.trans hset')
      exact hdrops

end Recording

/-! ## No page is deleted -/

section Deletes

/-- The program deletes no page, though it may record one. -/
abbrev DeletesNothing (program : LatchedM K V α) : Prop :=
  program.Performs LatchedOp.Keeps

theorem Quiet.deletesNothing {program : LatchedM K V α} (h : Quiet program) :
    DeletesNothing program :=
  h.mono fun _ => LatchedOp.Quiet.keeps

variable {tree : BPlusTreeTS K}

theorem deletesNothing_adjustRoot (oldRootNode : PageId) :
    DeletesNothing (tree.adjustRoot (V := V) oldRootNode) := by
  apply Program.performs_bind (quiet_onPool (keeps_getData _)).deletesNothing
  have hunpin : ∀ pageId : PageId, DeletesNothing (K := K) (V := V)
      (onPool (unpinPage pageId true)) := fun pageId =>
    (quiet_unpinPage pageId true).deletesNothing
  rintro (_ | _ | root | root)
  · trivial
  · trivial
  · apply Program.performs_ite
    · apply Program.performs_bind (hunpin _)
      intro _
      apply Program.performs_bind (Program.performs_lift trivial)
      intro _
      apply Program.performs_bind (quiet_updateRootPageId _).deletesNothing
      intro _
      exact Program.performs_bind (Program.performs_lift trivial) fun _ =>
        Program.performs_pure _
    · exact Program.performs_bind (hunpin _) fun _ => Program.performs_pure _
  · apply Program.performs_ite
    · apply Program.performs_bind (quiet_orStop _).deletesNothing
      rintro ⟨child, emptied⟩
      apply Program.performs_bind
        (quiet_onPool (keeps_setData _ _)).deletesNothing
      intro _
      apply Program.performs_bind (hunpin _)
      intro _
      apply Program.performs_bind (Program.performs_lift trivial)
      intro _
      apply Program.performs_bind (quiet_fetchPage _).deletesNothing
      intro _
      apply Program.performs_bind
        (quiet_onPool (keeps_setParentPageId _ _)).deletesNothing
      intro _
      apply Program.performs_bind
        (quiet_onPool (keeps_getNode _)).deletesNothing
      intro childNode
      apply Program.performs_bind (hunpin _)
      intro _
      apply Program.performs_bind (quiet_updateRootPageId _).deletesNothing
      intro _
      exact Program.performs_bind (Program.performs_lift trivial) fun _ =>
        Program.performs_pure _
    · exact Program.performs_bind (hunpin _) fun _ => Program.performs_pure _

theorem deletesNothing_coalesceOrdered (neighbor node parent : PageId)
    (index : ℕ) (latched : PageId) :
    DeletesNothing (BPlusTreeTS.coalesceOrdered (K := K) (V := V) neighbor
      node parent index latched) := by
  apply Program.performs_bind
    (quiet_onPool (keeps_getInternal _)).deletesNothing
  intro parentNode
  apply Program.performs_bind (quiet_orStop _).deletesNothing
  intro middleKey
  apply Program.performs_bind
    (quiet_onPool (keeps_mergeInto _ _ _)).deletesNothing
  intro _
  apply Program.performs_bind (quiet_onPool (keeps_setData _ _)).deletesNothing
  intro _
  apply Program.performs_bind (quiet_onPool (keeps_getNode _)).deletesNothing
  intro prevNode
  apply Program.performs_bind (quiet_onPool (keeps_getNode _)).deletesNothing
  intro currNode
  apply Program.performs_bind (quiet_unlatchNode _ _).deletesNothing
  intro _
  apply Program.performs_bind (quiet_unpinPage _ _).deletesNothing
  intro _
  exact Program.performs_bind (quiet_unpinPage _ _).deletesNothing fun _ =>
    Program.performs_lift trivial

theorem deletesNothing_coalesceOrRedistribute (fuel : ℕ) (node : PageId) :
    DeletesNothing (tree.coalesceOrRedistribute (V := V) fuel node) := by
  induction fuel generalizing node with
  | zero => trivial
  | succ fuel ih =>
      apply Program.performs_bind
        (quiet_onPool (keeps_getNode _)).deletesNothing
      intro page
      apply Program.performs_ite
      · exact Program.performs_bind (quiet_unpinPage _ _).deletesNothing
          fun _ => Program.performs_pure _
      apply Program.performs_ite
      · exact deletesNothing_adjustRoot node
      apply Program.performs_bind (quiet_fetchPage _).deletesNothing
      intro _
      apply Program.performs_bind
        (quiet_onPool (keeps_getInternal _)).deletesNothing
      intro parentNode
      apply Program.performs_bind (quiet_orStop _).deletesNothing
      intro nodeId
      apply Program.performs_bind (quiet_orStop _).deletesNothing
      intro neighbor
      apply Program.performs_bind (quiet_fetch _).deletesNothing
      intro neighborPage
      apply Program.performs_bind (quiet_latchPage _ _).deletesNothing
      intro _
      apply Program.performs_bind
        (quiet_onPool (keeps_getNode _)).deletesNothing
      intro neighborNode
      apply Program.performs_ite
      · apply Program.performs_bind (Program.performs_ite
          (deletesNothing_coalesceOrdered _ _ _ _ _)
          (deletesNothing_coalesceOrdered _ _ _ _ _))
        exact fun _ => ih _
      · apply Program.performs_bind (quiet_redistribute _ _ _).deletesNothing
        intro _
        exact Program.performs_bind (quiet_unpinPage _ _).deletesNothing
          fun _ => Program.performs_pure _

theorem deletesNothing_removeFromLeaf (fuel leafPage : ℕ) (key : K) :
    DeletesNothing (tree.removeFromLeaf (V := V) fuel key leafPage) := by
  apply Program.performs_bind (quiet_getPage _).deletesNothing
  intro frame
  apply Program.performs_bind (quiet_onPool (keeps_getLeaf _)).deletesNothing
  intro page
  apply Program.performs_bind (quiet_orStop _).deletesNothing
  intro removed
  apply Program.performs_ite
  · exact Program.performs_bind (quiet_unpinPage _ _).deletesNothing fun _ =>
      Program.performs_pure _
  · apply Program.performs_bind
      (quiet_onPool (keeps_setData _ _)).deletesNothing
    intro _
    apply Program.performs_bind (deletesNothing_coalesceOrRedistribute _ _)
    exact fun _ => Program.performs_pure _

/-- `DeletePages` goes through the latched pages, of which there are none. -/
theorem steps_deletePages {s : LatchedPool (PageData K V)}
    (h : s.transaction.pageSet = []) :
    (deletePages (K := K) (V := V)).steps LatchedPool.perform s =
      [(.getPageSet, s), (.clearDeletedPageSet, s)] := by
  have hpages : (Program.lift LatchedOp.getPageSet :
      LatchedM K V (List ℕ)).run LatchedPool.perform s = .ok ([], s) := by
    rw [← h]
    rfl
  rw [deletePages, Program.steps_bind_of_ok hpages]
  rfl

end Deletes

/-! ## Removals -/

section Removal

/-- The page was recorded on the way. -/
def Recorded (steps : List (LatchedOp D × LatchedPool D))
    (pageId : PageId) : Prop :=
  ∃ s, (LatchedOp.addIntoDeletedPageSet pageId, s) ∈ steps

/-- The pages that were recorded, and no others, were given to `DeletePage`
when they were not pinned, and at the end they are not in the pool. -/
structure DeletesRecorded (steps : List (LatchedOp D × LatchedPool D))
    (s' : LatchedPool D) : Prop where
  deleted : ∀ pageId, Recorded steps pageId →
    ∃ s, (LatchedOp.page (.deletePage pageId), s) ∈ steps ∧
      s.bpm.pinCount pageId = 0
  gone : ∀ pageId, Recorded steps pageId →
    s'.bpm.pageTable.find? pageId = none
  only : ∀ pageId s, (LatchedOp.page (.deletePage pageId), s) ∈ steps →
    Recorded steps pageId

variable {tree tree' : BPlusTreeTS K} {fuel : ℕ} {key : K} {isCalled : Bool}
  {s s' : LatchedPool (PageData K V)}

/-- Without a call of `DeletePage` nothing may be recorded. -/
theorem deletesRecorded_iff_not_records
    {steps : List (LatchedOp D × LatchedPool D)} {t : LatchedPool D}
    (hkeeps : ∀ step ∈ steps, step.1.Keeps) :
    DeletesRecorded steps t ↔ ¬ ∃ step ∈ steps, step.1.Records := by
  constructor
  · rintro h ⟨⟨op, u⟩, hstep, hrecords⟩
    cases op with
    | addIntoDeletedPageSet pageId =>
        obtain ⟨u', hdelete, -⟩ := h.deleted pageId ⟨u, hstep⟩
        exact hkeeps _ hdelete
    | _ => exact hrecords
  · intro hno
    have hnone : ∀ pageId, ¬ Recorded steps pageId :=
      fun pageId ⟨u, hstep⟩ => hno ⟨_, hstep, trivial⟩
    exact
      { deleted := fun pageId h => absurd h (hnone pageId)
        gone := fun pageId h => absurd h (hnone pageId)
        only := fun pageId u hstep => (hkeeps _ hstep).elim }

/-- The end of `Remove` deletes no pages, since it has released those that it
held latched. -/
theorem quiet_steps_release {leafPage : ℕ}
    (h : (do
      releasePages .delete
      unlatchPage leafPage .delete
      deletePages
      pure tree : LatchedM K V (BPlusTreeTS K)).run LatchedPool.perform s =
        .ok (tree', s')) :
    ∀ step ∈ (do
      releasePages .delete
      unlatchPage leafPage .delete
      deletePages
      pure tree : LatchedM K V (BPlusTreeTS K)).steps LatchedPool.perform s,
        step.1.Quiet := by
  obtain ⟨_, s₁, hrelease, h⟩ := Program.exists_of_run_bind h
  obtain ⟨_, s₂, hunlatch, h⟩ := Program.exists_of_run_bind h
  obtain ⟨_, s₃, hdelete, -⟩ := Program.exists_of_run_bind h
  have hempty : s₂.transaction.pageSet = [] := by
    rw [LatchedPool.of_run_unlatchPage hunlatch]
    exact LatchedPool.of_run_releasePages hrelease
  rw [Program.steps_bind_of_ok hrelease, Program.steps_bind_of_ok hunlatch,
    Program.steps_bind_of_ok hdelete, steps_deletePages hempty]
  intro step hstep
  rcases List.mem_append.mp hstep with hstep | hstep
  · exact (quiet_releasePages .delete).of_mem_steps hstep
  rcases List.mem_append.mp hstep with hstep | hstep
  · exact (quiet_unlatchPage leafPage .delete).of_mem_steps hstep
  rcases List.mem_append.mp hstep with hstep | hstep
  · rcases List.mem_cons.mp hstep with rfl | hstep
    · trivial
    · obtain rfl := List.mem_singleton.mp hstep
      trivial
  · cases hstep

/-- A removal deletes no page. -/
theorem keeps_steps_remove
    (h : (tree.remove (V := V) fuel key isCalled).run LatchedPool.perform s =
      .ok (tree', s')) :
    ∀ step ∈ (tree.remove (V := V) fuel key isCalled).steps
      LatchedPool.perform s, step.1.Keeps := by
  obtain ⟨found, s₁, hfound, hrest⟩ := Program.exists_of_run_bind h
  intro step hstep
  rw [BPlusTreeTS.remove, Program.steps_bind_of_ok hfound] at hstep
  rcases List.mem_append.mp hstep with hstep | hstep
  · exact ((quiet_crabToLeaf _ _ _).of_mem_steps hstep).keeps
  cases found with
  | none => cases hstep
  | some leafPage =>
      obtain ⟨tree₂, s₂, hleaf, hend⟩ := Program.exists_of_run_bind hrest
      dsimp only at hstep
      rw [Program.steps_bind_of_ok hleaf] at hstep
      rcases List.mem_append.mp hstep with hstep | hstep
      · exact (deletesNothing_removeFromLeaf _ _ _).of_mem_steps hstep
      · exact (quiet_steps_release hend step hstep).keeps

/-- A removal records a page if and only if it drops a node. -/
theorem recording_remove
    (h : (tree.remove (V := V) fuel key isCalled).run LatchedPool.perform s =
      .ok (tree', s')) :
    Recording (tree.remove (V := V) fuel key isCalled) s ↔
      tree.DropsNode fuel key isCalled s := by
  obtain ⟨found, s₁, hfound, hrest⟩ := Program.exists_of_run_bind h
  rw [BPlusTreeTS.remove, recording_bind (quiet_crabToLeaf _ _ _) hfound]
  cases found with
  | none =>
      refine iff_of_false ?_ ?_
      · rintro ⟨step, hstep, -⟩
        cases hstep
      · rintro ⟨leafPage, s₂, hleaf, -⟩
        cases hfound.symm.trans hleaf
  | some leafPage =>
      obtain ⟨tree₂, s₂, hleaf, hend⟩ := Program.exists_of_run_bind hrest
      have hquiet := quiet_steps_release hend
      dsimp only
      rw [recording_bind_quiet _ hleaf, recording_removeFromLeaf hleaf]
      · constructor
        · exact fun hdrops => ⟨leafPage, s₁, hfound, hdrops⟩
        · rintro ⟨leafPage', s₁', hleaf', hdrops⟩
          obtain ⟨heq, rfl⟩ :=
            Prod.mk.inj (Except.ok.inj (hfound.symm.trans hleaf'))
          obtain rfl := Option.some.inj heq
          exact hdrops
      · rintro ⟨⟨op, u⟩, hstep, hrecords⟩
        have hop := hquiet _ hstep
        cases op with
        | addIntoDeletedPageSet pageId => exact hop
        | _ => exact hrecords

/-- A call of `Remove` that returns deletes the pages that it has recorded if
and only if it drops no node. -/
theorem deletesRecorded_iff (tree tree' : BPlusTreeTS K) (fuel : ℕ) (key : K)
    (isCalled : Bool) (s s' : LatchedPool (PageData K V))
    (h : (tree.remove (V := V) fuel key isCalled).run LatchedPool.perform s =
      .ok (tree', s')) :
    DeletesRecorded ((tree.remove (V := V) fuel key isCalled).steps
      LatchedPool.perform s) s' ↔ ¬ tree.DropsNode fuel key isCalled s := by
  rw [deletesRecorded_iff_not_records (keeps_steps_remove h)]
  exact not_congr (recording_remove h)

/-- The tree with one key, from which the key is removed. -/
theorem exists_recording_remove :
    ∃ (tree tree' : BPlusTreeTS ℤ) (s s' : LatchedPool (PageData ℤ Char)),
      (BPlusTreeTS.ofIndex compareInt 4 4).Reachable tree s ∧
      (tree.remove 1 1 false).run LatchedPool.perform s.nextTransaction =
        .ok (tree', s') ∧
      Recording (V := Char) (tree.remove 1 1 false) s.nextTransaction := by
  have hruns : (((BPlusTreeTS.ofIndex compareInt 4 4).create.run
      LatchedPool.perform (.ofPool (.new 5
        (DiskManager.new DiskFile.empty)))).toOption.bind fun created =>
      ((created.1.call 1 (.optimisticInsert 1 'a')).run LatchedPool.perform
        created.2.nextTransaction).toOption.bind fun inserted =>
      ((inserted.1.2.remove 1 1 false).run LatchedPool.perform
        inserted.2.nextTransaction).toOption.map fun _ =>
      ((inserted.1.2.remove (V := Char) 1 1 false).steps LatchedPool.perform
        inserted.2.nextTransaction).any fun step => step.1.Records) =
      some true := by
    decide +kernel
  obtain ⟨⟨tree₀, s₀⟩, hcreate, hruns⟩ := Option.bind_eq_some_iff.mp hruns
  obtain ⟨⟨⟨answer, tree⟩, s⟩, hinsert, hruns⟩ :=
    Option.bind_eq_some_iff.mp hruns
  obtain ⟨⟨tree', s'⟩, hremove, hrecords⟩ := Option.map_eq_some_iff.mp hruns
  refine ⟨tree, tree', s, s', ?_, ok_of_toOption hremove, ?_⟩
  · exact .call 1 (.optimisticInsert 1 'a')
      (.create 5 (ok_of_toOption hcreate)) (ok_of_toOption hinsert)
  · obtain ⟨step, hstep, hrecord⟩ := List.any_eq_true.mp hrecords
    exact ⟨step, hstep, of_decide_eq_true hrecord⟩

theorem deletesRecorded_iff_one_key :
    ∃ (tree tree' : BPlusTreeTS ℤ) (s s' : LatchedPool (PageData ℤ Char)),
      (tree.remove 1 1 false).run LatchedPool.perform s.nextTransaction =
        .ok (tree', s') ∧
      (DeletesRecorded ((tree.remove (V := Char) 1 1 false).steps
        LatchedPool.perform s.nextTransaction) s' ↔
          ¬ tree.DropsNode 1 1 false s.nextTransaction) := by
  obtain ⟨tree, tree', s, s', -, hrun, -⟩ := exists_recording_remove
  exact ⟨tree, tree', s, s', hrun,
    deletesRecorded_iff tree tree' 1 1 false s.nextTransaction s' hrun⟩

/-- The root leaf from which the last key is removed is recorded and not
deleted. -/
theorem not_always_deletesRecorded :
    ¬ ∀ (tree tree' : BPlusTreeTS ℤ) (s s' : LatchedPool (PageData ℤ Char))
        (fuel : ℕ) (key : ℤ) (isCalled : Bool),
      (BPlusTreeTS.ofIndex compareInt 4 4).Reachable tree s →
        (tree.remove fuel key isCalled).run LatchedPool.perform
          s.nextTransaction = .ok (tree', s') →
            DeletesRecorded ((tree.remove (V := Char) fuel key isCalled).steps
              LatchedPool.perform s.nextTransaction) s' := by
  intro h
  obtain ⟨tree, tree', s, s', hreach, hrun, hrecording⟩ :=
    exists_recording_remove
  have hdeletes := h tree tree' s s' 1 1 false hreach hrun
  rw [deletesRecorded_iff_not_records (keeps_steps_remove hrun)] at hdeletes
  exact hdeletes hrecording

end Removal

end TicketSystem.Database
