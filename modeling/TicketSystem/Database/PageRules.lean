import TicketSystem.Database.BPlusTree
import TicketSystem.Database.PoolRefinement

/-!
# Programs over the page store

The operations of the tree on a store whose client has `frames` frames to pin
pages in.  They are defined only for a client that keeps the rules, so that a
program that ends here ends with the same values on every buffer pool of that
size.
-/

namespace TicketSystem.Database

open TicketSystem.Support

variable {K V : Type} {D : Type}

/-! ## The operations -/

namespace PageStore

/-- Whether the page is pinned already or may be pinned as well. -/
def HasRoom (store : PageStore D) (frames : ℕ) (pageId : PageId) : Prop :=
  pageId ∈ store.pins ∨ store.pins.toFinset.card < frames

instance (store : PageStore D) (frames : ℕ) (pageId : PageId) :
    Decidable (store.HasRoom frames pageId) :=
  inferInstanceAs (Decidable (_ ∨ _))

/-- An operation of a client that keeps the rules and never needs more than
`frames` frames; without meaning otherwise. -/
def perform [Zero D] (frames : ℕ) : (op : PageOp D) → PageStore D →
    Option (op.Answer × PageStore D)
  | .newPage, store =>
      if store.pins.toFinset.card < frames then
        some (some store.nextPageId, store.allocate.pin store.nextPageId)
      else none
  | .fetchPage pageId, store =>
      if (store.page pageId).isSome ∧ store.HasRoom frames pageId then
        some (.page, store.pin pageId)
      else none
  | .unpinPage pageId isDirty, store =>
      if pageId ∈ store.pins ∧ store.Allows (.unpinPage pageId isDirty) then
        some (true, store.unpin pageId isDirty)
      else none
  | .deletePage pageId, store =>
      if pageId ∉ store.pins then some (true, store.delete pageId) else none
  | .getData pageId, store =>
      if pageId ∈ store.pins then
        (store.page pageId).map fun data => (data, store)
      else none
  | .setData pageId data, store =>
      if pageId ∈ store.pins then some ((), store.write pageId data) else none
  | .flushPage _, _ => none
  | .flushAllPages, _ => none

end PageStore

/-- What the store does, a buffer pool with that many frames does too. -/
theorem BufferPoolManager.Refines.perform_of_store [Zero D] {frames : ℕ}
    {readIndex : PageId → PageId} {bpm : BufferPoolManager D}
    {store store' : PageStore D}
    (h : bpm.Refines frames readIndex store)
    {op : PageOp D} {answer : op.Answer}
    (hindex : op = .newPage →
      readIndex store.nextPageId = store.nextPageId)
    (hop : store.perform frames op = some (answer, store')) :
    ∃ bpm', bpm.perform op = some (answer, bpm') ∧
      bpm'.Refines frames readIndex store' := by
  cases op with
  | newPage =>
      obtain ⟨answer', bpm', hnew, hafter, hanswers⟩ := h.newPage (hindex rfl)
      simp only [PageStore.perform] at hop
      split at hop
      · next hroom =>
        obtain ⟨rfl, rfl⟩ := Prod.mk.inj (Option.some.inj hop)
        cases answer' with
        | none => exact absurd hanswers (not_le.mpr hroom)
        | some pageId =>
            obtain rfl : pageId = store.nextPageId := hanswers
            exact ⟨bpm', hnew, hafter⟩
      · cases hop
  | fetchPage pageId =>
      simp only [PageStore.perform] at hop
      split at hop
      · next hlive =>
        obtain ⟨rfl, rfl⟩ := Prod.mk.inj (Option.some.inj hop)
        obtain ⟨answer', bpm', hfetch, hafter, hanswers⟩ :=
          h.fetchPage hlive.1
        cases answer' with
        | page => exact ⟨bpm', hfetch, hafter⟩
        | null =>
            rcases hlive.2 with hin | hroom
            · exact absurd hin hanswers.2
            · exact absurd hanswers.1 (not_le.mpr hroom)
        | readLessThenAPage => exact hanswers.elim
      · cases hop
  | unpinPage pageId isDirty =>
      simp only [PageStore.perform] at hop
      split at hop
      · next hallow =>
        obtain ⟨rfl, rfl⟩ := Prod.mk.inj (Option.some.inj hop)
        obtain ⟨hafter, hanswers⟩ := h.unpinPage isDirty hallow.2
        have htrue : (bpm.unpinPage pageId isDirty).1 = true :=
          hanswers.mpr hallow.1
        rw [htrue] at hafter
        exact ⟨_, by rw [BufferPoolManager.perform, ← htrue], hafter⟩
      · cases hop
  | flushPage pageId => cases hop
  | flushAllPages => cases hop
  | deletePage pageId =>
      simp only [PageStore.perform] at hop
      split at hop
      · next hout =>
        obtain ⟨rfl, rfl⟩ := Prod.mk.inj (Option.some.inj hop)
        obtain ⟨hafter, hanswers⟩ := h.deletePage pageId
        have htrue : (bpm.deletePage pageId).1 = true := by
          rw [← Bool.not_eq_false]
          exact fun hfalse => hout (hanswers.mpr hfalse)
        rw [htrue] at hafter
        exact ⟨_, by rw [BufferPoolManager.perform, ← htrue], hafter⟩
      · cases hop
  | getData pageId =>
      simp only [PageStore.perform] at hop
      split at hop
      · next hin =>
        obtain ⟨data, hget, hdata⟩ := h.agrees.getData hin
        rw [hdata] at hop
        obtain ⟨rfl, rfl⟩ := Prod.mk.inj (Option.some.inj hop)
        exact ⟨bpm, by rw [BufferPoolManager.perform, hget]; rfl, h⟩
      · cases hop
  | setData pageId data =>
      simp only [PageStore.perform] at hop
      split at hop
      · next hin =>
        obtain ⟨-, rfl⟩ := Prod.mk.inj (Option.some.inj hop)
        obtain ⟨bpm', hset, hafter⟩ := h.setData hin data
        exact ⟨bpm', by rw [BufferPoolManager.perform, hset]; rfl, hafter⟩
      · cases hop

/-! ## Rules -/

section Rules

variable {frames : ℕ} {store : PageStore (PageData K V)}
  {pageId : PageId} {data : PageData K V}

/-- The program ends on the store in a value and a store as in `Q`. -/
abbrev Does {α : Type} (frames : ℕ) (program : TreeM K V α)
    (store : PageStore (PageData K V))
    (Q : α → PageStore (PageData K V) → Prop) : Prop :=
  Program.Ends (PageStore.perform frames) program store Q

theorem does_orStop {α : Type} {stop : Stop} {option : Option α} {value : α}
    {Q : α → PageStore (PageData K V) → Prop} (h : option = some value)
    (hQ : Q value store) : Does frames (orStop stop option) store Q := by
  subst h
  exact Program.ends_pure hQ

theorem does_fetchPage {Q : Unit → PageStore (PageData K V) → Prop}
    (hlive : store.page pageId = some data)
    (hroom : store.HasRoom frames pageId) (hQ : Q () (store.pin pageId)) :
    Does frames (fetchPage pageId) store Q := by
  refine Program.ends_bind (Program.ends_lift .page
    (store.pin pageId) ?_ (Program.ends_pure hQ))
  exact if_pos ⟨Option.isSome_of_eq_some hlive, hroom⟩

theorem does_unpinPage {Q : Unit → PageStore (PageData K V) → Prop}
    {isDirty : Bool} (hin : pageId ∈ store.pins)
    (hclean : isDirty = false → pageId ∉ store.owed)
    (hQ : Q () (store.unpin pageId isDirty)) :
    Does frames (unpinPage pageId isDirty) store Q := by
  refine Program.ends_bind (Program.ends_lift true
    (store.unpin pageId isDirty) ?_ (Program.ends_pure hQ))
  exact if_pos ⟨hin, fun hdirty howed => absurd howed (hclean hdirty)⟩

theorem does_deletePage {Q : Unit → PageStore (PageData K V) → Prop}
    (hout : pageId ∉ store.pins) (hQ : Q () (store.delete pageId)) :
    Does frames (deletePage pageId) store Q := by
  refine Program.ends_bind (Program.ends_lift true
    (store.delete pageId) ?_ (Program.ends_pure hQ))
  exact if_pos hout

theorem does_getData {Q : PageData K V → PageStore (PageData K V) → Prop}
    (hin : pageId ∈ store.pins) (hlive : store.page pageId = some data)
    (hQ : Q data store) : Does frames (getData pageId) store Q := by
  refine Program.ends_lift data store ?_ hQ
  simp only [PageStore.perform, if_pos hin, hlive, Option.map_some]

theorem does_setData {Q : Unit → PageStore (PageData K V) → Prop}
    (hin : pageId ∈ store.pins) (hQ : Q () (store.write pageId data)) :
    Does frames (setData pageId data) store Q := by
  refine Program.ends_lift () (store.write pageId data)
    ?_ hQ
  exact if_pos hin

theorem does_getLeaf {Q : LeafPage K V → PageStore (PageData K V) → Prop}
    {page : LeafPage K V} (hin : pageId ∈ store.pins)
    (hlive : store.page pageId = some (.leaf page)) (hQ : Q page store) :
    Does frames (getLeaf pageId) store Q :=
  Program.ends_bind (does_getData hin hlive (Program.ends_pure hQ))

theorem does_getInternal
    {Q : InternalPage K → PageStore (PageData K V) → Prop}
    {page : InternalPage K} (hin : pageId ∈ store.pins)
    (hlive : store.page pageId = some (.internal page)) (hQ : Q page store) :
    Does frames (getInternal pageId) store Q :=
  Program.ends_bind (does_getData hin hlive (Program.ends_pure hQ))

theorem does_getNode {Q : BPlusTreePage → PageStore (PageData K V) → Prop}
    {node : BPlusTreePage} (hin : pageId ∈ store.pins)
    (hlive : store.page pageId = some data) (hnode : data.node = some node)
    (hQ : Q node store) : Does frames (getNode pageId) store Q :=
  Program.ends_bind (does_getData hin hlive (does_orStop hnode hQ))

theorem does_getHeader {Q : HeaderRecords → PageStore (PageData K V) → Prop}
    {records : HeaderRecords} (hin : pageId ∈ store.pins)
    (hlive : store.page pageId = some data)
    (hrecords : data.records = some records) (hQ : Q records store) :
    Does frames (getHeader pageId) store Q :=
  Program.ends_bind (does_getData hin hlive (does_orStop hrecords hQ))

theorem does_setParentPageId {Q : Unit → PageStore (PageData K V) → Prop}
    {parentPageId : PageId} (hin : pageId ∈ store.pins)
    (hlive : store.page pageId = some data)
    (hQ : Q () (store.write pageId (data.setParentPageId parentPageId))) :
    Does frames (setParentPageId pageId parentPageId) store Q :=
  Program.ends_bind (does_getData hin hlive (does_setData hin hQ))

end Rules

end TicketSystem.Database
