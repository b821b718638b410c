import TicketSystem.Support.ThreeWay

/-!
# Index keys and their comparators

Keys are C strings, alone or with a second string or one or two integers.  The
comparators answer three-way and are selected by a category; one category of
each orders the whole key and is the order of an index, another compares a
prefix of the key and delimits range scans.
-/

namespace TicketSystem.Database

open TicketSystem.Support

/-- `strcmp`, with the sign as its value. -/
def strcmp (lhs rhs : String) : ℤ :=
  if lhs < rhs then -1 else if lhs = rhs then 0 else 1

/-- The three-way comparison of two `int`s. -/
def compareInt (lhs rhs : ℤ) : ℤ :=
  if lhs < rhs then -1 else if lhs = rhs then 0 else 1

theorem strcmp_compares : Compares strcmp := Compares.of_lt

theorem compareInt_compares : Compares compareInt := Compares.of_lt

/-- `StringComparator`. -/
def stringComparator (lhs rhs : String) : ℤ := strcmp lhs rhs

theorem stringComparator_compares : Compares stringComparator :=
  strcmp_compares

/-! ## Lexicographic combination -/

/-- The first comparison decides unless it answers zero. -/
def thenCompare (first second : ℤ) : ℤ :=
  if first = 0 then second else first

/-- Three-way comparison of pairs, first components first. -/
theorem Compares.lex {K A B : Type*} [LinearOrder K] [LinearOrder A]
    [LinearOrder B] {cmpA : A → A → ℤ} {cmpB : B → B → ℤ} {f : K → A}
    {g : K → B} (hA : Compares cmpA) (hB : Compares cmpB)
    (hlt : ∀ a b : K, a < b ↔ f a < f b ∨ f a = f b ∧ g a < g b)
    (heq : ∀ a b : K, f a = f b → g a = g b → a = b) :
    Compares fun a b : K =>
      thenCompare (cmpA (f a) (f b)) (cmpB (g a) (g b)) where
  neg_iff a b := by
    have hzero := hA.zero_iff (f a) (f b)
    have hneg := hA.neg_iff (f a) (f b)
    unfold thenCompare
    split
    next h =>
      have hf := hzero.mp h
      rw [hB.neg_iff, hlt]
      simp [hf]
    next h =>
      have hf : f a ≠ f b := fun hf => h (hzero.mpr hf)
      rw [hneg, hlt]
      simp [hf]
  zero_iff a b := by
    have hzero := hA.zero_iff (f a) (f b)
    unfold thenCompare
    split
    next h =>
      rw [hB.zero_iff]
      exact ⟨heq a b (hzero.mp h), fun hab => hab ▸ rfl⟩
    next h =>
      exact ⟨fun hc => absurd hc h, fun hab => absurd (hzero.mpr (hab ▸ rfl)) h⟩

/-! ## Two strings -/

/-- `DualString`. -/
@[ext] structure DualString where
  firstStr : String
  secondStr : String
  deriving DecidableEq, Inhabited

instance : LinearOrder DualString :=
  LinearOrder.lift' (fun k => toLex (k.firstStr, k.secondStr)) fun a b h => by
    have h' := Prod.mk.inj (toLex.injective h)
    exact DualString.ext h'.1 h'.2

theorem DualString.lt_iff (a b : DualString) :
    a < b ↔ a.firstStr < b.firstStr ∨
      a.firstStr = b.firstStr ∧ a.secondStr < b.secondStr :=
  Prod.Lex.toLex_lt_toLex

/-- `DualStringComparator`: type 1 compares the first string, type 2 both. -/
def dualStringComparator (type : ℤ) (lhs rhs : DualString) : ℤ :=
  let firstResult := strcmp lhs.firstStr rhs.firstStr
  if type = 1 then firstResult
  else if type = 2 then
    if firstResult ≠ 0 then firstResult
    else strcmp lhs.secondStr rhs.secondStr
  else 0

theorem dualStringComparator_compares :
    Compares (dualStringComparator 2) := by
  have h := Compares.lex strcmp_compares strcmp_compares DualString.lt_iff
    fun a b => DualString.ext
  have hfun : dualStringComparator 2 = fun a b =>
      thenCompare (strcmp a.firstStr b.firstStr)
        (strcmp a.secondStr b.secondStr) := by
    funext a b
    simp [dualStringComparator, thenCompare]
  exact hfun ▸ h

theorem dualStringComparator_one_eq_zero_iff (a b : DualString) :
    dualStringComparator 1 a b = 0 ↔ a.firstStr = b.firstStr := by
  simpa [dualStringComparator] using
    strcmp_compares.zero_iff a.firstStr b.firstStr

/-! ## A string and an integer -/

/-- `StringAny` at `int`. -/
@[ext] structure StringAny where
  dataStr : String
  dataT : ℤ
  deriving DecidableEq, Inhabited

instance : LinearOrder StringAny :=
  LinearOrder.lift' (fun k => toLex (k.dataStr, k.dataT)) fun a b h => by
    have h' := Prod.mk.inj (toLex.injective h)
    exact StringAny.ext h'.1 h'.2

theorem StringAny.lt_iff (a b : StringAny) :
    a < b ↔ a.dataStr < b.dataStr ∨
      a.dataStr = b.dataStr ∧ a.dataT < b.dataT :=
  Prod.Lex.toLex_lt_toLex

theorem StringAny.le_iff (a b : StringAny) :
    a ≤ b ↔ a.dataStr < b.dataStr ∨
      a.dataStr = b.dataStr ∧ a.dataT ≤ b.dataT :=
  Prod.Lex.toLex_le_toLex

/-- `StringAnyComparator`: category 1 compares the string, 2 the integer,
3 the string first and 4 the integer first. -/
def stringAnyComparator (category : ℤ) (lhs rhs : StringAny) : ℤ :=
  let compareString := strcmp lhs.dataStr rhs.dataStr
  let compareAny := compareInt lhs.dataT rhs.dataT
  if category = 1 then compareString
  else if category = 2 then compareAny
  else if category = 3 then
    if compareString = 0 then compareAny else compareString
  else if category = 4 then
    if compareAny = 0 then compareString else compareAny
  else 0

theorem stringAnyComparator_compares :
    Compares (stringAnyComparator 3) := by
  have h := Compares.lex strcmp_compares compareInt_compares StringAny.lt_iff
    fun a b => StringAny.ext
  have hfun : stringAnyComparator 3 = fun a b =>
      thenCompare (strcmp a.dataStr b.dataStr)
        (compareInt a.dataT b.dataT) := by
    funext a b
    simp [stringAnyComparator, thenCompare]
  exact hfun ▸ h

theorem stringAnyComparator_one_eq_zero_iff (a b : StringAny) :
    stringAnyComparator 1 a b = 0 ↔ a.dataStr = b.dataStr := by
  simpa [stringAnyComparator] using
    strcmp_compares.zero_iff a.dataStr b.dataStr

/-! ## A string and two integers -/

/-- `StringIntInt`. -/
@[ext] structure StringIntInt where
  str : String
  firstInt : ℤ
  secondInt : ℤ
  deriving DecidableEq, Inhabited

instance : LinearOrder StringIntInt :=
  LinearOrder.lift'
    (fun k => toLex (k.str, toLex (k.firstInt, k.secondInt))) fun a b h => by
    have h' := Prod.mk.inj (toLex.injective h)
    have h'' := Prod.mk.inj (toLex.injective h'.2)
    exact StringIntInt.ext h'.1 h''.1 h''.2

theorem StringIntInt.lt_iff (a b : StringIntInt) :
    a < b ↔ a.str < b.str ∨ a.str = b.str ∧
      (a.firstInt < b.firstInt ∨
        a.firstInt = b.firstInt ∧ a.secondInt < b.secondInt) := by
  have h : a < b ↔ toLex (a.str, toLex (a.firstInt, a.secondInt)) <
      toLex (b.str, toLex (b.firstInt, b.secondInt)) := Iff.rfl
  rw [h, Prod.Lex.toLex_lt_toLex, Prod.Lex.toLex_lt_toLex]

theorem StringIntInt.le_iff (a b : StringIntInt) :
    a ≤ b ↔ a.str < b.str ∨ a.str = b.str ∧
      (a.firstInt < b.firstInt ∨
        a.firstInt = b.firstInt ∧ a.secondInt ≤ b.secondInt) := by
  have h : a ≤ b ↔ toLex (a.str, toLex (a.firstInt, a.secondInt)) ≤
      toLex (b.str, toLex (b.firstInt, b.secondInt)) := Iff.rfl
  rw [h, Prod.Lex.toLex_le_toLex, Prod.Lex.toLex_le_toLex]

/-- `StringIntIntComparator`: category 1 compares the string and the first
integer, 2 compares everything. -/
def stringIntIntComparator (category : ℤ) (lhs rhs : StringIntInt) : ℤ :=
  if category = 1 then
    let result := strcmp lhs.str rhs.str
    if result = 0 then compareInt lhs.firstInt rhs.firstInt else result
  else if category = 2 then
    let result := strcmp lhs.str rhs.str
    let result :=
      if result = 0 then compareInt lhs.firstInt rhs.firstInt else result
    if result = 0 then compareInt lhs.secondInt rhs.secondInt else result
  else 0

theorem stringIntIntComparator_compares :
    Compares (stringIntIntComparator 2) := by
  -- the first two components make one comparison of pairs
  have hpair : Compares fun a b : String ×ₗ ℤ =>
      thenCompare (strcmp (ofLex a).1 (ofLex b).1)
        (compareInt (ofLex a).2 (ofLex b).2) :=
    Compares.lex strcmp_compares compareInt_compares
      (fun a b => Prod.Lex.lt_iff) fun a b h₁ h₂ =>
        ofLex.injective (Prod.ext h₁ h₂)
  have h := Compares.lex (K := StringIntInt)
    (f := fun k => toLex (k.str, k.firstInt)) (g := fun k => k.secondInt)
    hpair compareInt_compares
    (fun a b => by
      rw [StringIntInt.lt_iff, Prod.Lex.toLex_lt_toLex, toLex_inj,
        Prod.mk.injEq]
      tauto)
    (fun a b h₁ h₂ => by
      have h₁' := Prod.mk.inj (toLex.injective h₁)
      exact StringIntInt.ext h₁'.1 h₁'.2 h₂)
  have hfun : stringIntIntComparator 2 = fun a b =>
      thenCompare
        (thenCompare (strcmp a.str b.str)
          (compareInt a.firstInt b.firstInt))
        (compareInt a.secondInt b.secondInt) := by
    funext a b
    rfl
  exact hfun ▸ h

theorem stringIntIntComparator_one_eq_zero_iff (a b : StringIntInt) :
    stringIntIntComparator 1 a b = 0 ↔
      a.str = b.str ∧ a.firstInt = b.firstInt := by
  have hstr := strcmp_compares.zero_iff a.str b.str
  have hint := compareInt_compares.zero_iff a.firstInt b.firstInt
  simp only [stringIntIntComparator, if_true]
  split
  next h => simp [hstr.mp h, hint]
  next h =>
    have hne : a.str ≠ b.str := fun hc => h (hstr.mpr hc)
    simp [h, hne]

end TicketSystem.Database
