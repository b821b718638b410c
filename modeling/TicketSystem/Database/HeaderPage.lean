import TicketSystem.Database.BufferPool
import TicketSystem.Support.Bytes
import TicketSystem.Support.Machine
import TicketSystem.Support.Pieces

/-!
# The bytes of a header page

`HeaderPage` keeps records of 36 bytes behind its count: a name that ends in a
zero byte, and the id of a root page.  What stands behind the end of a name, and
in the slots behind the last record, is left from earlier records.
-/

namespace TicketSystem.Database

open TicketSystem.Support

/-- The characters of a name, without the zero at its end. -/
abbrev RecordName := List UInt8

/-- The memory that `GetData` points to. -/
abbrev PageMemory := ℤ → UInt8

namespace HeaderPage

/-- `length` bytes at `offset` lie in the page. -/
def InPage (offset : ℤ) (length : ℕ) : Prop :=
  0 ≤ offset ∧ offset + length ≤ PAGE_SIZE

instance (offset : ℤ) (length : ℕ) : Decidable (InPage offset length) :=
  inferInstanceAs (Decidable (_ ∧ _))

/-! ## Access to the page, with nothing outside of it -/

def memcpy (page : PageMemory) (offset : ℤ) (bytes : List UInt8) :
    Option PageMemory :=
  if InPage offset bytes.length then some (writeBytes page offset bytes)
  else none

def memmove (page : PageMemory) (target source : ℤ) (n : ℕ) :
    Option PageMemory :=
  if InPage target n ∧ InPage source n then
    some (moveBytes page target source n)
  else none

def readChar (page : PageMemory) (offset : ℤ) : Option UInt8 :=
  if InPage offset 1 then some (page offset) else none

/-- The four bytes of an `int`. -/
def intBytes (value : Int32) : List UInt8 :=
  List.ofFn (toBytes 4 value.toUInt32.toNat)

def readInt (page : PageMemory) (offset : ℤ) : Option Int32 :=
  if InPage offset 4 then
    some ⟨UInt32.ofNat (ofBytes fun k : Fin 4 => page (offset + (k : ℕ)))⟩
  else none

/-- Whether `strcmp` answers zero on the string in the page and `name`. -/
def strEq (page : PageMemory) : ℤ → RecordName → Option Bool
  | offset, [] => (readChar page offset).map fun c => c == 0
  | offset, b :: name => do
      let c ← readChar page offset
      if c ≠ b then some false
      else if b = 0 then some true
      else strEq page (offset + 1) name

/-! ## The functions of the page -/

/-- `GetRecordCount`. -/
def getRecordCount (page : PageMemory) : Option ℤ :=
  (readInt page 0).map Int32.toInt

/-- `SetRecordCount`. -/
def setRecordCount (page : PageMemory) (recordCount : ℤ) :
    Option PageMemory :=
  memcpy page 0 (intBytes (Int32.ofInt recordCount))

/-- The loop of `FindRecord` over `n` records from `i` on. -/
def findLoop (page : PageMemory) (name : RecordName) :
    ℕ → ℤ → Option (Option ℤ)
  | 0, _ => some none
  | n + 1, i => do
      if ← strEq page (4 + i * 36) name then some (some i)
      else findLoop page name n (i + 1)

/-- `FindRecord`, with nothing for `-1`. -/
def findRecord (page : PageMemory) (name : RecordName) :
    Option (Option ℤ) := do
  let recordNum ← getRecordCount page
  findLoop page name recordNum.toNat 0

/-- `InsertRecord`. -/
def insertRecord (page : PageMemory) (name : RecordName) (rootId : Int32) :
    Option (Bool × PageMemory) := do
  if ¬ name.length < 32 then none
  else
    let recordNum ← getRecordCount page
    let offset := 4 + recordNum * 36
    match ← findRecord page name with
    | some _ => some (false, page)
    | none =>
        let page ← memcpy page offset (name ++ [0])
        let page ← memcpy page (offset + 32) (intBytes rootId)
        let page ← setRecordCount page (recordNum + 1)
        some (true, page)

/-- `DeleteRecord`. -/
def deleteRecord (page : PageMemory) (name : RecordName) :
    Option (Bool × PageMemory) := do
  let recordNum ← getRecordCount page
  if ¬ 0 < recordNum then none
  else
    match ← findRecord page name with
    | none => some (false, page)
    | some index =>
        let offset := index * 36 + 4
        let page ← memmove page offset (offset + 36)
          ((recordNum - index - 1) * 36).toNat
        let page ← setRecordCount page (recordNum - 1)
        some (true, page)

/-- `SearchRecord`, with nothing for `false`. -/
def searchRecord (page : PageMemory) (name : RecordName) :
    Option (Option Int32) := do
  let recordNum ← getRecordCount page
  if ¬ 0 < recordNum then none
  else
    match ← findRecord page name with
    | none => some none
    | some index =>
        let offset := index * 36 + 4
        let rootId ← readInt page (offset + 32)
        some (some rootId)

/-- `UpdateRecord`. -/
def updateRecord (page : PageMemory) (name : RecordName) (rootId : Int32) :
    Option (Bool × PageMemory) := do
  if ¬ name.length < 32 then none
  else
    match ← findRecord page name with
    | none => some (false, page)
    | some index =>
        let offset := index * 36 + 4
        let page ← memcpy page (offset + 32) (intBytes rootId)
        some (true, page)

/-- `GetRootId`, with nothing for `false`. -/
def getRootId (page : PageMemory) (name : RecordName) :
    Option (Option Int32) := do
  if ¬ name.length < 32 then none
  else
    match ← findRecord page name with
    | none => some none
    | some index =>
        let offset := (index + 1) * 36
        let rootId ← readInt page offset
        some (some rootId)

end HeaderPage

/-! ## Calls, and what they are for -/

inductive HeaderCall
  | insertRecord (name : RecordName) (rootId : Int32)
  | deleteRecord (name : RecordName)
  | updateRecord (name : RecordName) (rootId : Int32)
  | searchRecord (name : RecordName)
  | getRootId (name : RecordName)
  | getRecordCount

inductive HeaderReply
  | success (success : Bool)
  | rootId (rootId : Option Int32)
  | count (count : ℤ)
  deriving DecidableEq

/-- One call on the page. -/
def HeaderPage.call (page : PageMemory) :
    HeaderCall → Option (HeaderReply × PageMemory)
  | .insertRecord name rootId =>
      (insertRecord page name rootId).map fun out => (.success out.1, out.2)
  | .deleteRecord name =>
      (deleteRecord page name).map fun out => (.success out.1, out.2)
  | .updateRecord name rootId =>
      (updateRecord page name rootId).map fun out => (.success out.1, out.2)
  | .searchRecord name =>
      (searchRecord page name).map fun out => (.rootId out, page)
  | .getRootId name =>
      (getRootId page name).map fun out => (.rootId out, page)
  | .getRecordCount =>
      (getRecordCount page).map fun out => (.count out, page)

/-- The finite map from names to ids that a header page stands for. -/
abbrev RootIds := Finmap fun _ : RecordName => Int32

namespace RootIds

/-- A C string of less than 32 bytes. -/
def IsName (name : RecordName) : Prop := name.length < 32 ∧ (0 : UInt8) ∉ name

instance (name : RecordName) : Decidable (IsName name) :=
  inferInstanceAs (Decidable (_ ∧ _))

/-- What a call answers and does to the map; nothing for calls that are not
allowed: a bad name, a 911th record, `DeleteRecord` and `SearchRecord` without
records. -/
def call (rootIds : RootIds) : HeaderCall → Option (HeaderReply × RootIds)
  | .insertRecord name rootId =>
      if ¬ IsName name then none
      else if name ∈ rootIds then some (.success false, rootIds)
      else if rootIds.keys.card < 910 then
        some (.success true, rootIds.insert name rootId)
      else none
  | .deleteRecord name =>
      if ¬ IsName name ∨ rootIds.keys.card = 0 then none
      else some (.success (name ∈ rootIds), rootIds.erase name)
  | .updateRecord name rootId =>
      if ¬ IsName name then none
      else if name ∈ rootIds then
        some (.success true, rootIds.insert name rootId)
      else some (.success false, rootIds)
  | .searchRecord name =>
      if ¬ IsName name ∨ rootIds.keys.card = 0 then none
      else some (.rootId (rootIds.lookup name), rootIds)
  | .getRootId name =>
      if ¬ IsName name then none
      else some (.rootId (rootIds.lookup name), rootIds)
  | .getRecordCount => some (.count rootIds.keys.card, rootIds)

end RootIds

namespace HeaderPage

/-! ## Reading what stands in the page -/

section Reads

variable {page : PageMemory} {offset : ℤ} {name name' : RecordName}

theorem length_intBytes (value : Int32) : (intBytes value).length = 4 :=
  List.length_ofFn

theorem readInt_of_stand {value : Int32} (hin : InPage offset 4)
    (h : BytesStand page offset (intBytes value)) :
    readInt page offset = some value := by
  have hbytes : (fun k : Fin 4 => page (offset + (k : ℕ))) =
      toBytes 4 value.toUInt32.toNat := by
    funext k
    apply h k
    rw [intBytes, List.getElem?_ofFn, dif_pos k.isLt]
  have hlt : value.toUInt32.toNat < 256 ^ 4 := value.toUInt32.toNat_lt
  rw [readInt, if_pos hin, hbytes, ofBytes_toBytes hlt, UInt32.ofNat_toNat]

/-- `strcmp` on a name in the page compares the names. -/
theorem strEq_of_stand (h : BytesStand page offset (name' ++ [0]))
    (hname' : (0 : UInt8) ∉ name') (hname : (0 : UInt8) ∉ name)
    (hin : InPage offset (name'.length + 1)) :
    strEq page offset name = some (decide (name' = name)) := by
  induction name' generalizing offset name with
  | nil =>
      have hchar : readChar page offset = some 0 := by
        rw [readChar, if_pos (show InPage offset 1 from hin), h.head]
      cases name with
      | nil => simp [strEq, hchar]
      | cons b name =>
          have hb : (0 : UInt8) ≠ b := by
            rintro rfl
            exact hname List.mem_cons_self
          simp [strEq, hchar, hb]
  | cons b' rest ih =>
      rw [List.length_cons, InPage] at hin
      push_cast at hin
      have hchar : readChar page offset = some b' := by
        rw [readChar, if_pos ⟨hin.1, by push_cast; omega⟩, h.head]
      have hb' : b' ≠ 0 := by
        rintro rfl
        exact hname' List.mem_cons_self
      cases name with
      | nil => simp [strEq, hchar, hb']
      | cons b name =>
          by_cases hbb : b' = b
          · subst hbb
            have hrest := ih h.tail (fun hmem => hname'
                (List.mem_cons_of_mem _ hmem))
              (fun hmem => hname (List.mem_cons_of_mem _ hmem))
              ⟨by omega, by push_cast; omega⟩
            simp [strEq, hchar, hb', hrest]
          · simp [strEq, hchar, hbb]

end Reads

/-! ## The records in the page -/

/-- The record stands in slot `i`. -/
structure RecordStands (page : PageMemory) (i : ℕ)
    (record : RecordName × Int32) : Prop where
  name : BytesStand page (4 + i * 36) (record.1 ++ [0])
  rootId : BytesStand page (4 + i * 36 + 32) (intBytes record.2)

/-- The records stand in the page, in order. -/
structure Encodes (page : PageMemory) (records : List (RecordName × Int32)) :
    Prop where
  count : BytesStand page 0 (intBytes (Int32.ofInt records.length))
  record : ∀ i r, records[i]? = some r → RecordStands page i r
  isName : ∀ r ∈ records, RootIds.IsName r.1
  nodup : (records.map Prod.fst).Nodup
  length_le : records.length ≤ 910

section Encodes

variable {page : PageMemory} {records : List (RecordName × Int32)}
  {name : RecordName}

theorem Encodes.getRecordCount (h : Encodes page records) :
    getRecordCount page = some (records.length : ℤ) := by
  have hle := h.length_le
  rw [HeaderPage.getRecordCount,
    readInt_of_stand ⟨le_rfl, by rw [PAGE_SIZE]; norm_num⟩ h.count,
    Option.map_some, Int32.toInt_ofInt_of_le (by omega) (by omega)]

/-- The slots of 910 records lie in the page. -/
theorem inPage_of_le {i n : ℕ} {d : ℤ} (hi : i < 910) (hd : 0 ≤ d)
    (hn : d + n ≤ 36) : InPage (4 + i * 36 + d) n := by
  rw [InPage, PAGE_SIZE]
  omega

theorem Encodes.strEq (h : Encodes page records) {i : ℕ}
    {r : RecordName × Int32} (hr : records[i]? = some r)
    (hname : RootIds.IsName name) :
    strEq page (4 + i * 36) name = some (decide (r.1 = name)) := by
  have hi := (List.getElem?_eq_some_iff.mp hr).1
  have hle := h.length_le
  obtain ⟨hlength, hzero⟩ := h.isName r (List.mem_of_getElem? hr)
  have hin := @inPage_of_le i (r.1.length + 1) 0 (by omega) le_rfl
    (by push_cast; omega)
  rw [add_zero] at hin
  exact strEq_of_stand (h.record i r hr).name hzero hname.2 hin

/-- The loop finds the first record with the name. -/
theorem Encodes.findLoop (h : Encodes page records)
    (hname : RootIds.IsName name) {before after : List (RecordName × Int32)}
    (hrecords : records = before ++ after) :
    findLoop page name after.length before.length =
      some ((after.findIdx? fun r => r.1 = name).map fun k : ℕ =>
        (before.length : ℤ) + k) := by
  induction after generalizing before with
  | nil => rfl
  | cons r after ih =>
      have hr : records[before.length]? = some r := by
        rw [hrecords]
        simp
      have hrest := @ih (before ++ [r]) (by simp [hrecords])
      rw [List.length_append, List.length_singleton, Nat.cast_add,
        Nat.cast_one] at hrest
      rw [List.length_cons, HeaderPage.findLoop, h.strEq hr hname,
        List.findIdx?_cons]
      by_cases heq : r.1 = name
      · simp [heq]
      · simp only [heq, decide_false, Option.bind_eq_bind, Option.bind_some,
          Bool.false_eq_true, if_false, hrest, Option.map_map]
        congr 2
        funext k
        simp only [Function.comp_apply]
        push_cast
        ring

theorem Encodes.findRecord (h : Encodes page records)
    (hname : RootIds.IsName name) :
    findRecord page name =
      some ((records.findIdx? fun r => r.1 = name).map fun k : ℕ =>
        (k : ℤ)) := by
  have hloop := @Encodes.findLoop page records name h hname [] records rfl
  simp only [List.length_nil, Nat.cast_zero, zero_add] at hloop
  rw [HeaderPage.findRecord, h.getRecordCount]
  simpa using hloop

/-- `FindRecord` finds the one record with the name. -/
theorem Encodes.find_cases (h : Encodes page records)
    (hname : RootIds.IsName name) :
    (HeaderPage.findRecord page name = some none ∧
      ∀ r ∈ records, r.1 ≠ name) ∨
    ∃ before rootId after, records = before ++ (name, rootId) :: after ∧
      HeaderPage.findRecord page name = some (some before.length) := by
  rw [h.findRecord hname]
  cases hfind : records.findIdx? fun r => r.1 = name with
  | none =>
      left
      rw [List.findIdx?_eq_none_iff] at hfind
      exact ⟨rfl, fun r hr => of_decide_eq_false (hfind r hr)⟩
  | some i =>
      right
      obtain ⟨hi, heq, -⟩ := List.findIdx?_eq_some_iff_getElem.mp hfind
      obtain ⟨before, ⟨name', rootId⟩, after, rfl, rfl⟩ := exists_pieces hi
      rw [List.getElem_append_right le_rfl] at heq
      simp only [Nat.sub_self, List.getElem_cons_zero, decide_eq_true_eq]
        at heq
      subst heq
      exact ⟨before, rootId, after, rfl, rfl⟩

/-! ## What the functions do to the records -/

/-- A write outside of a slot leaves its record. -/
theorem RecordStands.write {i : ℕ} {r : RecordName × Int32}
    (h : RecordStands page i r) (hname : RootIds.IsName r.1) {offset : ℤ}
    {bytes : List UInt8}
    (hapart : offset + bytes.length ≤ 4 + i * 36 ∨
      4 + i * 36 + 36 ≤ offset) :
    RecordStands (writeBytes page offset bytes) i r := by
  have hlength := hname.1
  constructor
  · apply h.name.write
    rw [List.length_append, List.length_singleton]
    omega
  · apply h.rootId.write
    rw [length_intBytes]
    omega

theorem memcpy_eq {offset : ℤ} {bytes : List UInt8}
    (hin : InPage offset bytes.length) :
    memcpy page offset bytes = some (writeBytes page offset bytes) :=
  if_pos hin

/-- The count is written over the old one. -/
theorem Encodes.setRecordCount {records' : List (RecordName × Int32)}
    (count : ℤ) (hcount : count = records'.length)
    (hrecord : ∀ i r, records'[i]? = some r → RecordStands page i r)
    (hname : ∀ r ∈ records', RootIds.IsName r.1)
    (hnodup : (records'.map Prod.fst).Nodup) (hle : records'.length ≤ 910) :
    ∃ page', setRecordCount page count = some page' ∧
      Encodes page' records' := by
  refine ⟨_, memcpy_eq ?_, ?_, ?_, hname, hnodup, hle⟩
  · rw [length_intBytes, InPage, PAGE_SIZE]
    norm_num
  · rw [hcount]
    exact bytesStand_write _ _ _
  · intro i r hr
    apply (hrecord i r hr).write (hname r (List.mem_of_getElem? hr))
    rw [length_intBytes]
    left
    push_cast
    omega

theorem Encodes.insertRecord (h : Encodes page records)
    (hname : RootIds.IsName name) (hnew : ∀ r ∈ records, r.1 ≠ name)
    (hroom : records.length < 910) (rootId : Int32) :
    ∃ page', insertRecord page name rootId = some (true, page') ∧
      Encodes page' (records ++ [(name, rootId)]) := by
  have hfind : HeaderPage.findRecord page name = some none := by
    rcases h.find_cases hname with ⟨hfind, -⟩ | ⟨before, old, after, rfl, -⟩
    · exact hfind
    · exact absurd rfl (hnew (name, old) (by simp))
  have hlength := hname.1
  let slot : ℤ := 4 + (records.length : ℤ) * 36
  have hin₁ : InPage slot (name ++ [0]).length := by
    rw [← add_zero slot]
    apply inPage_of_le hroom le_rfl
    rw [List.length_append, List.length_singleton]
    omega
  have hin₂ : InPage (slot + 32) (intBytes rootId).length := by
    apply inPage_of_le hroom (by norm_num)
    rw [length_intBytes]
    norm_num
  let page₂ := writeBytes (writeBytes page slot (name ++ [0])) (slot + 32)
    (intBytes rootId)
  have hrecord : ∀ i r, (records ++ [(name, rootId)])[i]? = some r →
      RecordStands page₂ i r := by
    intro i r hr
    rcases lt_trichotomy i records.length with hlt | rfl | hgt
    · -- the older records lie before the new one
      rw [List.getElem?_append_left hlt] at hr
      have hisName := h.isName r (List.mem_of_getElem? hr)
      apply ((h.record i r hr).write hisName _).write hisName
      · right
        omega
      · right
        omega
    · rw [getElem?_pieces, Option.some.injEq] at hr
      subst hr
      constructor
      · apply (bytesStand_write page slot (name ++ [0])).write
        left
        rw [List.length_append, List.length_singleton]
        omega
      · exact bytesStand_write _ _ _
    · rw [List.getElem?_eq_none_iff.mpr (by simpa using hgt)] at hr
      cases hr
  obtain ⟨page', hset, hencodes⟩ := Encodes.setRecordCount
    ((records.length : ℤ) + 1) (by simp) hrecord
    (by
      intro r hr
      rcases List.mem_append.mp hr with hr | hr
      · exact h.isName r hr
      · rw [List.mem_singleton.mp hr]
        exact hname)
    (by
      rw [List.map_append, List.nodup_append]
      refine ⟨h.nodup, List.nodup_singleton _, ?_⟩
      rintro a ha b hb rfl
      obtain ⟨r, hr, rfl⟩ := List.mem_map.mp ha
      exact hnew r hr (by simpa using hb))
    (by simpa using hroom)
  refine ⟨page', ?_, hencodes⟩
  rw [HeaderPage.insertRecord, if_neg (not_not.mpr hlength), h.getRecordCount]
  simp only [Option.bind_eq_bind, Option.bind_some, hfind]
  rw [memcpy_eq hin₁, Option.bind_some, memcpy_eq hin₂, Option.bind_some]
  rw [hset, Option.bind_some]

theorem getElem?_pieces_of_ne {α : Type*} {before after : List α} {i : ℕ}
    (h : i ≠ before.length) (a b : α) :
    (before ++ a :: after)[i]? = (before ++ b :: after)[i]? := by
  rcases lt_or_gt_of_ne h with hlt | hgt
  · rw [List.getElem?_append_left hlt, List.getElem?_append_left hlt]
  · obtain ⟨j, hj⟩ : ∃ j, i - before.length = j + 1 :=
      ⟨i - before.length - 1, by omega⟩
    rw [List.getElem?_append_right hgt.le, List.getElem?_append_right hgt.le,
      hj, List.getElem?_cons_succ, List.getElem?_cons_succ]

/-- The id of a record is written over. -/
theorem Encodes.setRootId {before after : List (RecordName × Int32)}
    {old : Int32} (h : Encodes page (before ++ (name, old) :: after))
    (hname : RootIds.IsName name) (rootId : Int32) :
    Encodes (writeBytes page (4 + (before.length : ℤ) * 36 + 32)
      (intBytes rootId)) (before ++ (name, rootId) :: after) := by
  constructor
  · have hcount : (before ++ (name, rootId) :: after).length =
        (before ++ (name, old) :: after).length := by simp
    rw [hcount]
    apply h.count.write
    rw [length_intBytes]
    left
    push_cast
    omega
  · intro i r hr
    by_cases hi : i = before.length
    · subst hi
      rw [getElem?_pieces, Option.some.injEq] at hr
      subst hr
      have hold := h.record before.length (name, old)
        (getElem?_pieces _ _ _)
      constructor
      · apply hold.name.write
        have hlength : (name, old).1.length < 32 := hname.1
        rw [List.length_append, List.length_singleton]
        left
        omega
      · exact bytesStand_write _ _ _
    · rw [getElem?_pieces_of_ne hi _ (name, old)] at hr
      apply (h.record i r hr).write (h.isName r (List.mem_of_getElem? hr))
      rw [length_intBytes]
      push_cast
      omega
  · intro r hr
    rcases List.mem_append.mp hr with hr | hr
    · exact h.isName r (List.mem_append_left _ hr)
    · rcases List.mem_cons.mp hr with rfl | hr
      · exact hname
      · exact h.isName r (List.mem_append_right _ (List.mem_cons_of_mem _ hr))
  · have hnames : (before ++ (name, rootId) :: after).map Prod.fst =
        (before ++ (name, old) :: after).map Prod.fst := by simp
    rw [hnames]
    exact h.nodup
  · have hle := h.length_le
    rw [List.length_append, List.length_cons] at hle ⊢
    exact hle

theorem Encodes.updateRecord {before after : List (RecordName × Int32)}
    {old : Int32} (h : Encodes page (before ++ (name, old) :: after))
    (hname : RootIds.IsName name)
    (hfind : HeaderPage.findRecord page name =
      some (some (before.length : ℤ))) (rootId : Int32) :
    ∃ page', updateRecord page name rootId = some (true, page') ∧
      Encodes page' (before ++ (name, rootId) :: after) := by
  have hle := h.length_le
  rw [List.length_append, List.length_cons] at hle
  have hplace : (before.length : ℤ) * 36 + 4 + 32 =
      4 + (before.length : ℤ) * 36 + 32 := by ring
  have hin : InPage (4 + (before.length : ℤ) * 36 + 32)
      (intBytes rootId).length := by
    apply inPage_of_le
    · omega
    · norm_num
    · rw [length_intBytes]
      norm_num
  refine ⟨_, ?_, h.setRootId hname rootId⟩
  rw [HeaderPage.updateRecord, if_neg (not_not.mpr hname.1)]
  simp only [Option.bind_eq_bind]
  rw [hfind, Option.bind_some]
  simp only
  rw [hplace, memcpy_eq hin, Option.bind_some]

theorem Encodes.deleteRecord {before after : List (RecordName × Int32)}
    {rootId : Int32} (h : Encodes page (before ++ (name, rootId) :: after))
    (hfind : HeaderPage.findRecord page name =
      some (some (before.length : ℤ))) :
    ∃ page', deleteRecord page name = some (true, page') ∧
      Encodes page' (before ++ after) := by
  have hle := h.length_le
  have hcount := h.getRecordCount
  rw [List.length_append, List.length_cons] at hle hcount
  let slot : ℤ := (before.length : ℤ) * 36 + 4
  have hmoved : ((((before.length + (after.length + 1) : ℕ) : ℤ) -
      before.length - 1) * 36).toNat = after.length * 36 := by
    push_cast
    omega
  have hin : InPage slot (after.length * 36) ∧
      InPage (slot + 36) (after.length * 36) := by
    simp only [InPage, PAGE_SIZE, slot]
    push_cast
    omega
  have hrecord : ∀ i r, (before ++ after)[i]? = some r →
      RecordStands (moveBytes page slot (slot + 36) (after.length * 36)) i
        r := by
    intro i r hr
    by_cases hi : i < before.length
    · rw [List.getElem?_append_left hi] at hr
      have hsame : (before ++ (name, rootId) :: after)[i]? = some r := by
        rw [List.getElem?_append_left hi, hr]
      have hlength := (h.isName r (List.mem_of_getElem? hsame)).1
      have hold := h.record i r hsame
      constructor
      · apply hold.name.move
        rw [List.length_append, List.length_singleton]
        push_cast
        omega
      · apply hold.rootId.move
        rw [length_intBytes]
        push_cast
        omega
    · -- the records behind the deleted one move up by a slot
      obtain ⟨j, rfl⟩ : ∃ j, i = before.length + j :=
        ⟨i - before.length, by omega⟩
      rw [List.getElem?_append_right (by omega), Nat.add_sub_cancel_left]
        at hr
      have hj := (List.getElem?_eq_some_iff.mp hr).1
      have hsame : (before ++ (name, rootId) :: after)[
          before.length + (j + 1)]? = some r := by
        rw [List.getElem?_append_right (by omega), Nat.add_sub_cancel_left,
          List.getElem?_cons_succ, hr]
      have hlength := (h.isName r (List.mem_of_getElem? hsame)).1
      obtain ⟨hstandName, hstandId⟩ := h.record _ r hsame
      have hfrom : (4 : ℤ) + ((before.length + (j + 1) : ℕ) : ℤ) * 36 =
          slot + 36 + ((j * 36 : ℕ) : ℤ) := by
        simp only [slot]
        push_cast
        ring
      have hto : (4 : ℤ) + ((before.length + j : ℕ) : ℤ) * 36 =
          slot + ((j * 36 : ℕ) : ℤ) := by
        simp only [slot]
        push_cast
        ring
      rw [hfrom] at hstandName hstandId
      constructor
      · rw [hto]
        apply hstandName.move_moved
        rw [List.length_append, List.length_singleton]
        omega
      · have hshift : ∀ place : ℤ, place + ((j * 36 : ℕ) : ℤ) + 32 =
            place + ((j * 36 + 32 : ℕ) : ℤ) := by
          intro place
          push_cast
          ring
        rw [hshift] at hstandId
        rw [hto, hshift]
        apply hstandId.move_moved
        rw [length_intBytes]
        omega
  obtain ⟨page', hset, hencodes⟩ := Encodes.setRecordCount
    (((before.length + (after.length + 1) : ℕ) : ℤ) - 1)
    (by
      rw [List.length_append]
      push_cast
      ring) hrecord
    (by
      intro r hr
      apply h.isName
      rcases List.mem_append.mp hr with hr | hr
      · exact List.mem_append_left _ hr
      · exact List.mem_append_right _ (List.mem_cons_of_mem _ hr))
    (by
      have hsub : (before ++ after).Sublist
          (before ++ (name, rootId) :: after) :=
        (List.sublist_cons_self _ _).append_left before
      exact h.nodup.sublist (hsub.map Prod.fst))
    (by
      rw [List.length_append]
      omega)
  refine ⟨page', ?_, hencodes⟩
  rw [HeaderPage.deleteRecord, hcount]
  simp only [Option.bind_eq_bind, Option.bind_some]
  rw [if_neg (by push_cast; omega), hfind, Option.bind_some]
  simp only
  rw [hmoved, memmove, if_pos hin, Option.bind_some]
  rw [hset, Option.bind_some]

/-- Both readers find the id behind the name. -/
theorem Encodes.readInt {before after : List (RecordName × Int32)}
    {rootId : Int32} (h : Encodes page (before ++ (name, rootId) :: after))
    {offset : ℤ} (hoffset : offset = 4 + (before.length : ℤ) * 36 + 32) :
    readInt page offset = some rootId := by
  have hle := h.length_le
  rw [List.length_append, List.length_cons] at hle
  rw [hoffset]
  apply readInt_of_stand
  · exact inPage_of_le (by omega) (by norm_num) (by norm_num)
  · exact (h.record before.length (name, rootId)
      (getElem?_pieces _ _ _)).rootId

end Encodes

/-! ## The map in the page -/

/-- The records in the page are the entries of the map. -/
def Represents (page : PageMemory) (rootIds : RootIds) : Prop :=
  ∃ records, Encodes page records ∧
    ∀ name rootId, rootIds.lookup name = some rootId ↔
      (name, rootId) ∈ records

section Represents

variable {page : PageMemory} {rootIds : RootIds}
  {records : List (RecordName × Int32)} {name : RecordName}

/-- No bytes but the zero page are needed to begin with. -/
theorem represents_zero : Represents (fun _ => 0) ∅ := by
  refine ⟨[], ?_, by simp⟩
  constructor
  · intro k b hb
    have hk := (List.getElem?_eq_some_iff.mp hb).1
    rw [length_intBytes] at hk
    interval_cases k
    all_goals
      obtain rfl := Option.some.inj hb
      rfl
  · simp
  · simp
  · simp
  · simp

theorem mem_iff_of_lookup
    (hlookup : ∀ name rootId, rootIds.lookup name = some rootId ↔
      (name, rootId) ∈ records) :
    name ∈ rootIds ↔ name ∈ records.map Prod.fst := by
  rw [Finmap.mem_iff, List.mem_map]
  constructor
  · rintro ⟨rootId, h⟩
    exact ⟨(name, rootId), (hlookup name rootId).mp h, rfl⟩
  · rintro ⟨⟨_, rootId⟩, hmem, rfl⟩
    exact ⟨rootId, (hlookup _ rootId).mpr hmem⟩

theorem card_keys (h : Encodes page records)
    (hlookup : ∀ name rootId, rootIds.lookup name = some rootId ↔
      (name, rootId) ∈ records) :
    rootIds.keys.card = records.length := by
  have hkeys : rootIds.keys = (records.map Prod.fst).toFinset := by
    ext name
    rw [Finmap.mem_keys, mem_iff_of_lookup hlookup, List.mem_toFinset]
  rw [hkeys, List.toFinset_card_of_nodup h.nodup, List.length_map]

/-- What `FindRecord` finds is what the map holds. -/
theorem find_cases_of_lookup (h : Encodes page records)
    (hlookup : ∀ name rootId, rootIds.lookup name = some rootId ↔
      (name, rootId) ∈ records) (hname : RootIds.IsName name) :
    (findRecord page name = some none ∧ name ∉ rootIds ∧
      ∀ r ∈ records, r.1 ≠ name) ∨
    ∃ before rootId after, records = before ++ (name, rootId) :: after ∧
      findRecord page name = some (some (before.length : ℤ)) ∧
        name ∈ rootIds ∧ rootIds.lookup name = some rootId := by
  rcases h.find_cases hname with
    ⟨hfind, hne⟩ | ⟨before, rootId, after, hrecords, hfind⟩
  · refine Or.inl ⟨hfind, ?_, hne⟩
    rw [mem_iff_of_lookup hlookup, List.mem_map]
    rintro ⟨r, hr, heq⟩
    exact hne r hr heq
  · have hfound : rootIds.lookup name = some rootId := by
      rw [hlookup, hrecords]
      simp
    exact Or.inr ⟨before, rootId, after, hrecords, hfind,
      Finmap.mem_iff.mpr ⟨rootId, hfound⟩, hfound⟩

/-- The other entries keep their ids when one is set. -/
theorem lookup_insert_iff {before after : List (RecordName × Int32)}
    (old : List (RecordName × Int32)) {rootId : Int32}
    (hrecords : records = before ++ old ++ after)
    (hold : ∀ r ∈ old, r.1 = name)
    (hothers : ∀ r ∈ before ++ after, r.1 ≠ name)
    (hlookup : ∀ name rootId, rootIds.lookup name = some rootId ↔
      (name, rootId) ∈ records) (name' : RecordName) (rootId' : Int32) :
    (rootIds.insert name rootId).lookup name' = some rootId' ↔
      (name', rootId') ∈ before ++ (name, rootId) :: after := by
  by_cases heq : name' = name
  · subst heq
    rw [Finmap.lookup_insert, Option.some.injEq, List.mem_append,
      List.mem_cons]
    constructor
    · rintro rfl
      exact Or.inr (Or.inl rfl)
    · rintro (hmem | hmem | hmem)
      · exact absurd rfl (hothers _ (List.mem_append_left _ hmem))
      · exact (Prod.mk.inj hmem).2.symm
      · exact absurd rfl (hothers _ (List.mem_append_right _ hmem))
  · rw [Finmap.lookup_insert_of_ne _ heq, hlookup, hrecords]
    have hne : (name', rootId') ∉ old := fun hmem => heq (hold _ hmem)
    simp [hne, heq]

/-- The names before and after a record are other names. -/
theorem Encodes.ne_of_mem {before after : List (RecordName × Int32)}
    {rootId : Int32} (h : Encodes page (before ++ (name, rootId) :: after)) :
    ∀ r ∈ before ++ after, r.1 ≠ name := by
  have hnodup := h.nodup
  rw [List.map_append, List.map_cons, List.nodup_middle, List.nodup_cons,
    ← List.map_append] at hnodup
  intro r hr heq
  exact hnodup.1 (List.mem_map.mpr ⟨r, hr, heq⟩)

theorem insertRecord_of_found {index recordNum : ℤ}
    (hlength : name.length < 32) (hcount : getRecordCount page = some recordNum)
    (hfind : findRecord page name = some (some index)) (rootId : Int32) :
    HeaderPage.insertRecord page name rootId = some (false, page) := by
  simp [HeaderPage.insertRecord, hlength, hcount, hfind]

theorem Represents.insertRecord (h : Represents page rootIds)
    (hname : RootIds.IsName name) (rootId : Int32)
    (hroom : name ∈ rootIds ∨ rootIds.keys.card < 910) :
    ∃ page', HeaderPage.insertRecord page name rootId =
        some (decide (name ∉ rootIds), page') ∧
      Represents page'
        (if name ∈ rootIds then rootIds else rootIds.insert name rootId) := by
  obtain ⟨records, hencodes, hlookup⟩ := h
  rcases find_cases_of_lookup hencodes hlookup hname with
    ⟨hfind, hnew, hothers⟩ | ⟨before, old, after, rfl, hfind, hmem, -⟩
  · rw [or_iff_right hnew, card_keys hencodes hlookup] at hroom
    obtain ⟨page', hinsert, hencodes'⟩ :=
      hencodes.insertRecord hname hothers hroom rootId
    refine ⟨page', ?_, ?_⟩
    · rw [hinsert, decide_eq_true hnew]
    · rw [if_neg hnew]
      refine ⟨_, hencodes', ?_⟩
      apply lookup_insert_iff [] _ _ _ hlookup
      · simp
      · simp
      · simpa using hothers
  · refine ⟨page, ?_, ?_⟩
    · rw [insertRecord_of_found hname.1 hencodes.getRecordCount hfind,
        decide_eq_false (not_not.mpr hmem)]
    · rw [if_pos hmem]
      exact ⟨_, hencodes, hlookup⟩

theorem Represents.deleteRecord (h : Represents page rootIds)
    (hname : RootIds.IsName name) (hpos : rootIds.keys.card ≠ 0) :
    ∃ page', HeaderPage.deleteRecord page name =
        some (decide (name ∈ rootIds), page') ∧
      Represents page' (rootIds.erase name) := by
  obtain ⟨records, hencodes, hlookup⟩ := h
  rw [card_keys hencodes hlookup] at hpos
  rcases find_cases_of_lookup hencodes hlookup hname with
    ⟨hfind, hnew, hothers⟩ | ⟨before, old, after, rfl, hfind, hmem, -⟩
  · refine ⟨page, ?_, records, hencodes, ?_⟩
    · rw [HeaderPage.deleteRecord, hencodes.getRecordCount]
      simp only [Option.bind_eq_bind, Option.bind_some]
      rw [if_neg (by omega), hfind, Option.bind_some, decide_eq_false hnew]
    · intro name' rootId'
      by_cases heq : name' = name
      · subst heq
        rw [Finmap.lookup_erase]
        apply iff_of_false
        · simp
        · exact fun hmem => hothers _ hmem rfl
      · rw [Finmap.lookup_erase_ne heq, hlookup]
  · obtain ⟨page', hdelete, hencodes'⟩ := hencodes.deleteRecord hfind
    refine ⟨page', ?_, _, hencodes', ?_⟩
    · rw [hdelete, decide_eq_true hmem]
    · intro name' rootId'
      by_cases heq : name' = name
      · subst heq
        rw [Finmap.lookup_erase]
        apply iff_of_false
        · simp
        · exact fun hmem => hencodes.ne_of_mem _ hmem rfl
      · rw [Finmap.lookup_erase_ne heq, hlookup]
        simp [heq]

theorem Represents.updateRecord (h : Represents page rootIds)
    (hname : RootIds.IsName name) (rootId : Int32) :
    ∃ page', HeaderPage.updateRecord page name rootId =
        some (decide (name ∈ rootIds), page') ∧
      Represents page'
        (if name ∈ rootIds then rootIds.insert name rootId else rootIds) := by
  obtain ⟨records, hencodes, hlookup⟩ := h
  rcases find_cases_of_lookup hencodes hlookup hname with
    ⟨hfind, hnew, -⟩ | ⟨before, old, after, rfl, hfind, hmem, -⟩
  · refine ⟨page, ?_, ?_⟩
    · rw [HeaderPage.updateRecord, if_neg (not_not.mpr hname.1)]
      simp only [Option.bind_eq_bind]
      rw [hfind, Option.bind_some, decide_eq_false hnew]
    · rw [if_neg hnew]
      exact ⟨records, hencodes, hlookup⟩
  · obtain ⟨page', hupdate, hencodes'⟩ :=
      hencodes.updateRecord hname hfind rootId
    refine ⟨page', ?_, ?_⟩
    · rw [hupdate, decide_eq_true hmem]
    · rw [if_pos hmem]
      refine ⟨_, hencodes', ?_⟩
      apply lookup_insert_iff [(name, old)] _ _ hencodes.ne_of_mem hlookup
      · simp
      · simp

theorem Represents.searchRecord (h : Represents page rootIds)
    (hname : RootIds.IsName name) (hpos : rootIds.keys.card ≠ 0) :
    HeaderPage.searchRecord page name = some (rootIds.lookup name) := by
  obtain ⟨records, hencodes, hlookup⟩ := h
  rw [card_keys hencodes hlookup] at hpos
  rw [HeaderPage.searchRecord, hencodes.getRecordCount]
  simp only [Option.bind_eq_bind, Option.bind_some]
  rw [if_neg (by omega)]
  rcases find_cases_of_lookup hencodes hlookup hname with
    ⟨hfind, hnew, -⟩ | ⟨before, old, after, rfl, hfind, -, hfound⟩
  · rw [hfind, Option.bind_some, Finmap.lookup_eq_none.mpr hnew]
  · have hread := hencodes.readInt
      (show (before.length : ℤ) * 36 + 4 + 32 = _ by ring)
    rw [hfind, Option.bind_some]
    simp only
    rw [hread, Option.bind_some, hfound]

/-- The formula of `GetRootId` gives the same place. -/
theorem Represents.getRootId (h : Represents page rootIds)
    (hname : RootIds.IsName name) :
    HeaderPage.getRootId page name = some (rootIds.lookup name) := by
  obtain ⟨records, hencodes, hlookup⟩ := h
  rw [HeaderPage.getRootId, if_neg (not_not.mpr hname.1)]
  simp only [Option.bind_eq_bind]
  rcases find_cases_of_lookup hencodes hlookup hname with
    ⟨hfind, hnew, -⟩ | ⟨before, old, after, rfl, hfind, -, hfound⟩
  · rw [hfind, Option.bind_some, Finmap.lookup_eq_none.mpr hnew]
  · have hread := hencodes.readInt
      (show ((before.length : ℤ) + 1) * 36 = _ by ring)
    rw [hfind, Option.bind_some]
    simp only
    rw [hread, Option.bind_some, hfound]

/-- Every call that is allowed answers as the map does and leaves a page that
represents the map after it. -/
theorem Represents.call (h : Represents page rootIds) {call : HeaderCall}
    {reply : HeaderReply} {rootIds' : RootIds}
    (hcall : rootIds.call call = some (reply, rootIds')) :
    ∃ page', HeaderPage.call page call = some (reply, page') ∧
      Represents page' rootIds' := by
  cases call with
  | insertRecord name rootId =>
      by_cases hname : RootIds.IsName name
      · simp only [RootIds.call, if_neg (not_not.mpr hname)] at hcall
        by_cases hmem : name ∈ rootIds
        · rw [if_pos hmem] at hcall
          obtain ⟨rfl, rfl⟩ := Prod.mk.inj (Option.some.inj hcall)
          obtain ⟨page', hinsert, hafter⟩ :=
            h.insertRecord hname rootId (Or.inl hmem)
          rw [if_pos hmem] at hafter
          exact ⟨page', by simp [HeaderPage.call, hinsert, hmem], hafter⟩
        · rw [if_neg hmem] at hcall
          by_cases hroom : rootIds.keys.card < 910
          · rw [if_pos hroom] at hcall
            obtain ⟨rfl, rfl⟩ := Prod.mk.inj (Option.some.inj hcall)
            obtain ⟨page', hinsert, hafter⟩ :=
              h.insertRecord hname rootId (Or.inr hroom)
            rw [if_neg hmem] at hafter
            exact ⟨page', by simp [HeaderPage.call, hinsert, hmem], hafter⟩
          · rw [if_neg hroom] at hcall
            cases hcall
      · simp only [RootIds.call, if_pos hname] at hcall
        cases hcall
  | deleteRecord name =>
      by_cases hbad : ¬ RootIds.IsName name ∨ rootIds.keys.card = 0
      · simp only [RootIds.call, if_pos hbad] at hcall
        cases hcall
      · simp only [RootIds.call, if_neg hbad] at hcall
        push Not at hbad
        obtain ⟨rfl, rfl⟩ := Prod.mk.inj (Option.some.inj hcall)
        obtain ⟨page', hdelete, hafter⟩ := h.deleteRecord hbad.1 hbad.2
        exact ⟨page', by simp [HeaderPage.call, hdelete], hafter⟩
  | updateRecord name rootId =>
      by_cases hname : RootIds.IsName name
      · simp only [RootIds.call, if_neg (not_not.mpr hname)] at hcall
        obtain ⟨page', hupdate, hafter⟩ := h.updateRecord hname rootId
        refine ⟨page', ?_⟩
        by_cases hmem : name ∈ rootIds
        · rw [if_pos hmem] at hcall hafter
          obtain ⟨rfl, rfl⟩ := Prod.mk.inj (Option.some.inj hcall)
          exact ⟨by simp [HeaderPage.call, hupdate, hmem], hafter⟩
        · rw [if_neg hmem] at hcall hafter
          obtain ⟨rfl, rfl⟩ := Prod.mk.inj (Option.some.inj hcall)
          exact ⟨by simp [HeaderPage.call, hupdate, hmem], hafter⟩
      · simp only [RootIds.call, if_pos hname] at hcall
        cases hcall
  | searchRecord name =>
      by_cases hbad : ¬ RootIds.IsName name ∨ rootIds.keys.card = 0
      · simp only [RootIds.call, if_pos hbad] at hcall
        cases hcall
      · simp only [RootIds.call, if_neg hbad] at hcall
        push Not at hbad
        obtain ⟨rfl, rfl⟩ := Prod.mk.inj (Option.some.inj hcall)
        refine ⟨page, ?_, h⟩
        rw [HeaderPage.call, h.searchRecord hbad.1 hbad.2, Option.map_some]
  | getRootId name =>
      by_cases hname : RootIds.IsName name
      · simp only [RootIds.call, if_neg (not_not.mpr hname)] at hcall
        obtain ⟨rfl, rfl⟩ := Prod.mk.inj (Option.some.inj hcall)
        refine ⟨page, ?_, h⟩
        rw [HeaderPage.call, h.getRootId hname, Option.map_some]
      · simp only [RootIds.call, if_pos hname] at hcall
        cases hcall
  | getRecordCount =>
      obtain ⟨rfl, rfl⟩ := Prod.mk.inj (Option.some.inj hcall)
      refine ⟨page, ?_, h⟩
      obtain ⟨records, hencodes, hlookup⟩ := h
      rw [HeaderPage.call, hencodes.getRecordCount,
        card_keys hencodes hlookup, Option.map_some]

/-- From a page of zeros on, every sequence of calls that is allowed answers as
the finite map does. -/
theorem call_refines {calls : List HeaderCall} {replies : List HeaderReply}
    {rootIds : RootIds}
    (hcalls : runReplies RootIds.call ∅ calls = some (replies, rootIds)) :
    ∃ page, runReplies HeaderPage.call (fun _ => 0) calls =
        some (replies, page) ∧ Represents page rootIds :=
  runReplies_simulates (fun _ _ _ _ _ h hcall => h.call hcall)
    represents_zero hcalls

theorem call_refines_two_records :
    ∃ page, runReplies HeaderPage.call (fun _ => 0)
      [.insertRecord [97, 98] 7, .insertRecord [97] (-1), .getRecordCount,
        .insertRecord [97] 3, .deleteRecord [97, 98], .searchRecord [97],
        .getRootId [97, 98]] =
      some ([.success true, .success true, .count 2, .success false,
        .success true, .rootId (some (-1)), .rootId none], page) := by
  obtain ⟨page, hrun, -⟩ := call_refines (show runReplies RootIds.call ∅
    [.insertRecord [97, 98] 7, .insertRecord [97] (-1), .getRecordCount,
      .insertRecord [97] 3, .deleteRecord [97, 98], .searchRecord [97],
      .getRootId [97, 98]] =
    some ([.success true, .success true, .count 2, .success false,
      .success true, .rootId (some (-1)), .rootId none], _) from rfl)
  exact ⟨page, hrun⟩

end Represents

end HeaderPage

end TicketSystem.Database
