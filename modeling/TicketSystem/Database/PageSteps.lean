import TicketSystem.Database.PageRules

/-!
# The steps of the tree on a few pages

What the helpers of the tree do to the store: a page is replaced, a page is
added, and children get another parent.  Each leaves the pins as they were, but
for a page that it adds.
-/

namespace TicketSystem.Database

open TicketSystem.Support

variable {K V : Type} {D : Type}

/-! ## Header records -/

namespace HeaderRecords

/-- The page id that `SearchRecord` finds. -/
def find? (records : HeaderRecords) (name : String) : Option PageId :=
  (searchRecord records name).join

theorem find?_nil (name : String) : find? [] name = none := rfl

theorem find?_cons (record : String × PageId) (records : HeaderRecords)
    (name : String) :
    find? (record :: records) name =
      if record.1 = name then some record.2 else find? records name := by
  rw [find?, searchRecord, if_neg (List.cons_ne_nil _ _), Option.join_some,
    findRecord, List.findIdx?_cons]
  by_cases hname : record.1 = name
  · simp [hname]
  · rw [if_neg hname, find?, searchRecord]
    cases records with
    | nil => simp [hname]
    | cons record' records =>
        simp [hname, findRecord, Option.bind_map]

theorem updateRecord_cons (record : String × PageId) (records : HeaderRecords)
    (name : String) (rootId : PageId) :
    (updateRecord (record :: records) name rootId).2 =
      if record.1 = name then (record.1, rootId) :: records
      else record :: (updateRecord records name rootId).2 := by
  rw [updateRecord, findRecord, List.findIdx?_cons]
  by_cases hname : record.1 = name
  · simp [hname]
  · rw [if_neg hname, updateRecord]
    simp only [hname, decide_false, Bool.false_eq_true, if_false]
    rw [findRecord]
    cases List.findIdx? (fun record => decide (record.1 = name)) records with
    | none => rfl
    | some index => rfl

/-- `UpdateRecord` changes the record of that name only. -/
theorem find?_updateRecord (records : HeaderRecords) (name name' : String)
    (rootId : PageId) :
    find? (updateRecord records name rootId).2 name' =
      if name' = name then (find? records name).map fun _ => rootId
      else find? records name' := by
  induction records with
  | nil =>
      rw [updateRecord, findRecord, List.findIdx?_nil]
      simp [find?_nil]
  | cons record records ih =>
      rw [updateRecord_cons]
      by_cases hname : record.1 = name
      · rw [if_pos hname, find?_cons, find?_cons, find?_cons, if_pos hname]
        by_cases hname' : name' = name
        · rw [if_pos hname', if_pos (hname.trans hname'.symm)]
          rfl
        · have hne : ¬ record.1 = name' := fun h =>
            hname' (h.symm.trans hname)
          rw [if_neg hname', if_neg hne, if_neg hne]
      · rw [if_neg hname, find?_cons, find?_cons, find?_cons, if_neg hname,
          ih]
        by_cases hname' : name' = name
        · have hne : ¬ record.1 = name' := fun h => hname (h.trans hname')
          rw [if_pos hname', if_pos hname', if_neg hne]
        · rw [if_neg hname', if_neg hname']

end HeaderRecords

/-! ## Stores -/

namespace PageStore

/-- The page id that the header page has under a name. -/
def record (store : PageStore (PageData K V)) (name : String) :
    Option PageId :=
  (store.page HEADER_PAGE_ID).bind fun data =>
    data.records.bind fun records => records.find? name

/-- Every page there is has an id that was handed out. -/
def Bounded (store : PageStore D) : Prop :=
  ∀ pageId, (store.page pageId).isSome →
    0 ≤ pageId ∧ pageId < store.nextPageId

/-- Apart from the header page and new pages, only the pages `ids` change. -/
structure Touches (store : PageStore D) (ids : List PageId)
    (store' : PageStore D) : Prop where
  next_le : store.nextPageId ≤ store'.nextPageId
  page_eq : ∀ pageId, pageId ∉ ids → pageId ≠ HEADER_PAGE_ID →
    pageId < store.nextPageId → store'.page pageId = store.page pageId

/-- A page is fetched, written and given back. -/
def replace (store : PageStore D) (pageId : PageId) (data : D) :
    PageStore D :=
  { store with
    page := Function.update store.page pageId (some data)
    owed := store.owed.erase pageId }

/-- A new page is pinned and written. -/
def addPage [Zero D] (store : PageStore D) (data : D) : PageStore D :=
  (store.allocate.pin store.nextPageId).write store.nextPageId data

/-- Pages get another parent. -/
def setParents (store : PageStore (PageData K V)) (parentPageId : PageId)
    (children : List PageId) : PageStore (PageData K V) :=
  { store with
    page := fun pageId =>
      if pageId ∈ children then
        (store.page pageId).map (PageData.setParentPageId parentPageId)
      else store.page pageId
    owed := store.owed \ children.toFinset }

section Fields

variable (store : PageStore D) (pageId : PageId) (data : D)

@[simp] theorem replace_page :
    (store.replace pageId data).page =
      Function.update store.page pageId (some data) := rfl

@[simp] theorem replace_pins : (store.replace pageId data).pins = store.pins :=
  rfl

@[simp] theorem replace_owed :
    (store.replace pageId data).owed = store.owed.erase pageId := rfl

@[simp] theorem replace_nextPageId :
    (store.replace pageId data).nextPageId = store.nextPageId := rfl

@[simp] theorem addPage_page [Zero D] :
    (store.addPage data).page =
      Function.update store.page store.nextPageId (some data) := by
  simp [addPage]

@[simp] theorem addPage_pins [Zero D] :
    (store.addPage data).pins = store.nextPageId ::ₘ store.pins := rfl

@[simp] theorem addPage_owed [Zero D] :
    (store.addPage data).owed = insert store.nextPageId store.owed := rfl

@[simp] theorem addPage_nextPageId [Zero D] :
    (store.addPage data).nextPageId = store.nextPageId + 1 := rfl

variable (store : PageStore (PageData K V)) (parentPageId : PageId)
  (children : List PageId)

@[simp] theorem setParents_pins :
    (store.setParents parentPageId children).pins = store.pins := rfl

@[simp] theorem setParents_owed :
    (store.setParents parentPageId children).owed =
      store.owed \ children.toFinset := rfl

@[simp] theorem setParents_nextPageId :
    (store.setParents parentPageId children).nextPageId =
      store.nextPageId := rfl

theorem setParents_page_of_mem {pageId : PageId} (h : pageId ∈ children) :
    (store.setParents parentPageId children).page pageId =
      (store.page pageId).map (PageData.setParentPageId parentPageId) :=
  if_pos h

theorem setParents_page_of_notMem {pageId : PageId}
    (h : pageId ∉ children) :
    (store.setParents parentPageId children).page pageId =
      store.page pageId :=
  if_neg h

@[simp] theorem setParents_nil :
    store.setParents parentPageId [] = store := by
  simp [setParents]

end Fields

/-- Writing a pinned page and giving one pin back as dirty. -/
theorem unpin_write_pin (store : PageStore D) (pageId : PageId) (data : D) :
    ((store.pin pageId).write pageId data).unpin pageId true =
      store.replace pageId data := by
  simp [replace, pin, write, unpin]

theorem setParents_cons (store : PageStore (PageData K V))
    (parentPageId child : PageId) (children : List PageId)
    {data : PageData K V} (hlive : store.page child = some data) :
    (store.replace child (data.setParentPageId parentPageId)).setParents
        parentPageId children =
      store.setParents parentPageId (child :: children) := by
  have hidem : ∀ d : PageData K V,
      (d.setParentPageId parentPageId).setParentPageId parentPageId =
        d.setParentPageId parentPageId := by
    intro d
    cases d <;> rfl
  unfold setParents
  congr 1
  · funext pageId
    simp only [replace_page]
    by_cases heq : pageId = child
    · subst heq
      by_cases hmem : pageId ∈ children
      · simp [hmem, hlive, hidem]
      · simp [hmem, hlive]
    · simp [heq]
  · ext pageId
    simp only [replace_owed, Finset.mem_sdiff, Finset.mem_erase,
      List.toFinset_cons, Finset.mem_insert]
    tauto

theorem record_congr {store store' : PageStore (PageData K V)}
    (h : store'.page HEADER_PAGE_ID = store.page HEADER_PAGE_ID)
    (name : String) : store'.record name = store.record name := by
  rw [record, record, h]

theorem isSome_of_record {store : PageStore (PageData K V)} {name : String}
    {pageId : PageId} (h : store.record name = some pageId) :
    (store.page HEADER_PAGE_ID).isSome := by
  obtain ⟨data, hdata, -⟩ := Option.bind_eq_some_iff.mp h
  exact Option.isSome_of_eq_some hdata

theorem Bounded.ne_nextPageId {store : PageStore D} (h : store.Bounded)
    {pageId : PageId} (hlive : (store.page pageId).isSome) :
    pageId ≠ store.nextPageId := by
  rintro rfl
  exact lt_irrefl _ (h _ hlive).2

theorem Bounded.congr {store store' : PageStore D} (h : store.Bounded)
    (hnext : store'.nextPageId = store.nextPageId)
    (hlive : ∀ pageId, (store'.page pageId).isSome →
      (store.page pageId).isSome) : store'.Bounded := by
  intro pageId hsome
  rw [hnext]
  exact h pageId (hlive pageId hsome)

theorem Bounded.write {store : PageStore D} (h : store.Bounded)
    {pageId : PageId} (hlive : (store.page pageId).isSome) (data : D) :
    (store.write pageId data).Bounded := by
  refine h.congr rfl fun other hother => ?_
  by_cases heq : other = pageId
  · exact heq ▸ hlive
  · rwa [write_page, Function.update_of_ne heq] at hother

theorem Bounded.addPage [Zero D] {store : PageStore D} (h : store.Bounded)
    (hnext : 0 ≤ store.nextPageId) (data : D) :
    (store.addPage data).Bounded := by
  intro pageId hlive
  rw [addPage_nextPageId]
  by_cases heq : pageId = store.nextPageId
  · exact ⟨heq ▸ hnext, heq ▸ Int.lt_succ _⟩
  · rw [addPage_page, Function.update_of_ne heq] at hlive
    exact ⟨(h pageId hlive).1, (h pageId hlive).2.trans (Int.lt_succ _)⟩

theorem Bounded.setParents {store : PageStore (PageData K V)}
    (h : store.Bounded) (parentPageId : PageId) (children : List PageId) :
    (store.setParents parentPageId children).Bounded := by
  refine h.congr rfl fun pageId hlive => ?_
  by_cases hmem : pageId ∈ children
  · rwa [setParents_page_of_mem _ _ _ hmem, Option.isSome_map] at hlive
  · rwa [setParents_page_of_notMem _ _ _ hmem] at hlive

theorem Touches.trans {ids ids' : List PageId}
    {store store₁ store₂ : PageStore D} (h : store.Touches ids store₁)
    (h' : store₁.Touches ids' store₂)
    (hids : ∀ pageId ∈ ids', pageId ∈ ids ∨ store.nextPageId ≤ pageId) :
    store.Touches ids store₂ where
  next_le := h.next_le.trans h'.next_le
  page_eq := by
    intro pageId hids' hheader hlt
    rw [h'.page_eq pageId ?_ hheader (hlt.trans_le h.next_le)]
    · exact h.page_eq pageId hids' hheader hlt
    · intro hmem
      rcases hids pageId hmem with hmem | hle
      · exact hids' hmem
      · exact absurd hlt (not_lt.mpr hle)

/-- One more pin needs at most one more frame. -/
theorem card_cons_le (pins : Multiset PageId) (pageId : PageId) :
    (pageId ::ₘ pins).toFinset.card ≤ pins.toFinset.card + 1 := by
  rw [Multiset.toFinset_cons]
  exact Finset.card_insert_le _ _

theorem card_cons_three_le (pins : Multiset PageId) (a b c : PageId) :
    (a ::ₘ b ::ₘ c ::ₘ pins).toFinset.card ≤ pins.toFinset.card + 3 := by
  have hone := card_cons_le pins c
  have htwo := card_cons_le (c ::ₘ pins) b
  have hthree := card_cons_le (b ::ₘ c ::ₘ pins) a
  omega

theorem erase_second (pins : Multiset PageId) (first second : PageId) :
    (first ::ₘ second ::ₘ pins).erase second = first ::ₘ pins := by
  rw [Multiset.cons_swap, Multiset.erase_cons_head]

end PageStore

/-! ## The helpers of the tree -/

section Helpers

variable {frames : ℕ} {store : PageStore (PageData K V)}
  {Q : Unit → PageStore (PageData K V) → Prop}

theorem does_setParent {child parentPageId : PageId} {data : PageData K V}
    (hlive : store.page child = some data)
    (hroom : store.pins.toFinset.card < frames)
    (hQ : Q () (store.replace child (data.setParentPageId parentPageId))) :
    Does frames (setParent child parentPageId) store Q := by
  refine Program.ends_bind (does_fetchPage hlive (Or.inr hroom) ?_)
  refine Program.ends_bind
    (does_setParentPageId (Multiset.mem_cons_self _ _) hlive ?_)
  refine does_unpinPage (Multiset.mem_cons_self _ _) (fun h => by cases h) ?_
  rw [PageStore.unpin_write_pin]
  exact hQ

theorem does_setParents {parentPageId : PageId} {children : List PageId}
    (hlive : ∀ child ∈ children, (store.page child).isSome)
    (hroom : store.pins.toFinset.card < frames)
    (hQ : Q () (store.setParents parentPageId children)) :
    Does frames (setParents parentPageId children) store Q := by
  induction children generalizing store with
  | nil =>
      rw [PageStore.setParents_nil] at hQ
      exact Program.ends_pure hQ
  | cons child children ih =>
      obtain ⟨data, hdata⟩ :=
        Option.isSome_iff_exists.mp (hlive child List.mem_cons_self)
      apply Program.ends_bind
      apply does_setParent hdata hroom
      apply ih
      · intro child' hchild'
        rw [PageStore.replace_page]
        by_cases heq : child' = child
        · rw [heq, Function.update_self]
          rfl
        · rw [Function.update_of_ne heq]
          exact hlive child' (List.mem_cons_of_mem child hchild')
      · exact hroom
      · rw [PageStore.setParents_cons _ _ _ _ hdata]
        exact hQ

variable {tree : BPlusTreeNTS K}

theorem does_newLeaf {parentId : PageId}
    {Q : PageId → PageStore (PageData K V) → Prop}
    (hroom : store.pins.toFinset.card < frames)
    (hQ : Q store.nextPageId
      (store.addPage
        (.leaf (LeafPage.init store.nextPageId parentId tree.leafMaxSize)))) :
    Does frames (tree.newLeaf parentId) store Q := by
  apply Program.ends_bind
  refine Program.ends_lift (some store.nextPageId)
    (store.allocate.pin store.nextPageId) ?_ ?_
  · rw [PageStore.perform, if_pos hroom]
  · exact Program.ends_bind
      (does_setData (Multiset.mem_cons_self _ _) (Program.ends_pure hQ))

theorem does_newInternal {parentId : PageId}
    {Q : PageId → PageStore (PageData K V) → Prop}
    (hroom : store.pins.toFinset.card < frames)
    (hQ : Q store.nextPageId
      (store.addPage
        (.internal (InternalPage.init store.nextPageId parentId
          tree.internalMaxSize)))) :
    Does frames (tree.newInternal parentId) store Q := by
  apply Program.ends_bind
  refine Program.ends_lift (some store.nextPageId)
    (store.allocate.pin store.nextPageId) ?_ ?_
  · rw [PageStore.perform, if_pos hroom]
  · exact Program.ends_bind
      (does_setData (Multiset.mem_cons_self _ _) (Program.ends_pure hQ))

/-- The header page got the root of the tree. -/
structure RootRecorded (tree : BPlusTreeNTS K)
    (store store' : PageStore (PageData K V)) : Prop where
  pins_eq : store'.pins = store.pins
  nextPageId_eq : store'.nextPageId = store.nextPageId
  owed_eq : store'.owed = store.owed.erase HEADER_PAGE_ID
  page_eq : ∀ pageId, pageId ≠ HEADER_PAGE_ID →
    store'.page pageId = store.page pageId
  isSome_iff : ∀ pageId,
    (store'.page pageId).isSome ↔ (store.page pageId).isSome
  record_self : store'.record tree.indexName = some tree.rootPageId
  record_eq : ∀ name, name ≠ tree.indexName →
    store'.record name = store.record name

theorem does_updateRootPageId {rootPageId : PageId}
    (hrecord : store.record tree.indexName = some rootPageId)
    (hroom : store.HasRoom frames HEADER_PAGE_ID)
    (hQ : ∀ store', RootRecorded tree store store' → Q () store') :
    Does frames tree.updateRootPageId store Q := by
  obtain ⟨data, hlive, hdata⟩ := Option.bind_eq_some_iff.mp hrecord
  obtain ⟨records, hrecords, hfind⟩ := Option.bind_eq_some_iff.mp hdata
  refine Program.ends_bind (does_fetchPage hlive hroom ?_)
  refine Program.ends_bind
    (does_getHeader (Multiset.mem_cons_self _ _) hlive hrecords ?_)
  refine Program.ends_bind (does_setData (Multiset.mem_cons_self _ _) ?_)
  refine does_unpinPage (Multiset.mem_cons_self _ _) (fun h => by cases h) ?_
  rw [PageStore.unpin_write_pin]
  have hnew : ∀ name, (store.replace HEADER_PAGE_ID (.header
      (records.updateRecord tree.indexName tree.rootPageId).2)).record name =
        HeaderRecords.find?
          (records.updateRecord tree.indexName tree.rootPageId).2 name := by
    intro name
    rw [PageStore.record, PageStore.replace_page, Function.update_self]
    rfl
  apply hQ
  constructor
  · rfl
  · rfl
  · rfl
  · intro pageId hne
    exact Function.update_of_ne hne _ _
  · intro pageId
    by_cases heq : pageId = HEADER_PAGE_ID
    · subst heq
      rw [PageStore.replace_page, Function.update_self, hlive]
      exact Iff.rfl
    · rw [PageStore.replace_page, Function.update_of_ne heq]
  · rw [hnew, HeaderRecords.find?_updateRecord, if_pos rfl, hfind]
    rfl
  · intro name hne
    rw [hnew, HeaderRecords.find?_updateRecord, if_neg hne, PageStore.record,
      hlive, Option.bind_some, hrecords, Option.bind_some]

end Helpers

end TicketSystem.Database
