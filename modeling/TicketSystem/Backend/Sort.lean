import Mathlib

/-!
# The quicksort of the handlers

`Sort` on a vector, with its two unguarded inner scans.  Indices are integers,
since the right index of an empty vector is `-1`, and an access outside the
vector throws, which is `none` here.  On a range inside the vector and for a
strict weak order the sort never throws, terminates, permutes the range and
leaves it sorted.
-/

namespace TicketSystem.Backend

variable {α : Type}

/-! ## The program -/

/-- `operator[]` of the vector. -/
def atIndex (a : List α) (i : ℤ) : Option α :=
  if 0 ≤ i then a[i.toNat]? else none

/-- `while (cmp(a[pl], mid_val)) ++pl`. -/
def scanUp (cmp : α → α → Bool) (midVal : α) (a : List α) :
    ℕ → ℤ → Option ℤ
  | 0, _ => none
  | n + 1, pl => do
      let x ← atIndex a pl
      if cmp x midVal then scanUp cmp midVal a n (pl + 1) else some pl

/-- `while (cmp(mid_val, a[pr])) --pr`. -/
def scanDown (cmp : α → α → Bool) (midVal : α) (a : List α) :
    ℕ → ℤ → Option ℤ
  | 0, _ => none
  | n + 1, pr => do
      let x ← atIndex a pr
      if cmp midVal x then scanDown cmp midVal a n (pr - 1) else some pr

/-- `std::swap(a[pl], a[pr])`. -/
def swapAt (a : List α) (pl pr : ℤ) : Option (List α) := do
  let x ← atIndex a pl
  let y ← atIndex a pr
  some ((a.set pl.toNat y).set pr.toNat x)

/-- The loop `while (pl <= pr)`, with a bound on its iterations. -/
def partitionLoop (cmp : α → α → Bool) (midVal : α) :
    ℕ → List α → ℤ → ℤ → Option (List α × ℤ × ℤ)
  | 0, _, _, _ => none
  | n + 1, a, pl, pr =>
      if pl ≤ pr then do
        let pl ← scanUp cmp midVal a (a.length + 1) pl
        let pr ← scanDown cmp midVal a (a.length + 1) pr
        if pl ≤ pr then do
          let a ← swapAt a pl pr
          partitionLoop cmp midVal n a (pl + 1) (pr - 1)
        else partitionLoop cmp midVal n a pl pr
      else some (a, pl, pr)

/-- `Sort`, with a bound on the depth of its recursion. -/
def sortWithin (cmp : α → α → Bool) :
    ℕ → List α → ℤ → ℤ → Option (List α)
  | 0, _, _, _ => none
  | n + 1, a, l, r =>
      if r ≤ l then some a
      else do
        let midVal ← atIndex a ((l + r) / 2)
        let (a, pl, pr) ← partitionLoop cmp midVal (a.length + 2) a l r
        let a ← if l < pr then sortWithin cmp n a l pr else some a
        if pl < r then sortWithin cmp n a pl r else some a

/-- `Sort`. -/
def sort (a : List α) (l r : ℤ) (cmp : α → α → Bool) : Option (List α) :=
  sortWithin cmp (a.length + 1) a l r

/-! ## Access and exchange -/

theorem atIndex_eq_some_iff {a : List α} {i : ℤ} {x : α} :
    atIndex a i = some x ↔ 0 ≤ i ∧ a[i.toNat]? = some x := by
  unfold atIndex
  split <;> simp_all

theorem exists_atIndex {a : List α} {i : ℤ} (h₀ : 0 ≤ i)
    (h : i < a.length) : ∃ x, atIndex a i = some x := by
  have hi : i.toNat < a.length := by omega
  exact ⟨a[i.toNat], atIndex_eq_some_iff.mpr
    ⟨h₀, List.getElem?_eq_getElem hi⟩⟩

theorem atIndex_lt_length {a : List α} {i : ℤ} {x : α}
    (h : atIndex a i = some x) : 0 ≤ i ∧ i < a.length := by
  obtain ⟨h₀, hx⟩ := atIndex_eq_some_iff.mp h
  have := (List.getElem?_eq_some_iff.mp hx).1
  omega

/-- `a[l..r]` -/
def slice (a : List α) (l r : ℤ) : List α :=
  (a.drop l.toNat).take ((r + 1).toNat - l.toNat)

/-- `a'` is a rearrangement of `a` inside the range from `l` to `r`. -/
structure Rearranged (a a' : List α) (l r : ℤ) : Prop where
  perm : a'.Perm a
  outside : ∀ i, i < l ∨ r < i → atIndex a' i = atIndex a i

namespace Rearranged

theorem refl (a : List α) (l r : ℤ) : Rearranged a a l r :=
  ⟨.refl a, fun _ _ => rfl⟩

theorem trans {a b c : List α} {l r : ℤ} (h₁ : Rearranged a b l r)
    (h₂ : Rearranged b c l r) : Rearranged a c l r :=
  ⟨h₂.perm.trans h₁.perm, fun i hi =>
    (h₂.outside i hi).trans (h₁.outside i hi)⟩

theorem widen {a a' : List α} {l r l' r' : ℤ} (h : Rearranged a a' l r)
    (hl : l' ≤ l) (hr : r ≤ r') : Rearranged a a' l' r' :=
  ⟨h.perm, fun i hi => h.outside i (by omega)⟩

/-- A rearrangement of the range permutes the range. -/
theorem slice_perm {a a' : List α} {l r : ℤ} (h : Rearranged a a' l r) :
    (slice a' l r).Perm (slice a l r) := by
  let m := l.toNat
  let n := (r + 1).toNat - m
  -- cut both lists before and after the range
  have hcut : ∀ b : List α,
      b = b.take m ++ (slice b l r ++ (b.drop m).drop n) := by
    intro b
    rw [slice, List.take_append_drop, List.take_append_drop]
  have houtside : ∀ k : ℕ, k < m ∨ m + n ≤ k → a'[k]? = a[k]? := by
    intro k hk
    have hkout : (k : ℤ) < l ∨ r < k := by omega
    simpa [atIndex] using h.outside k hkout
  have hfront : a'.take m = a.take m := by
    refine List.ext_getElem? fun k => ?_
    simp only [List.getElem?_take]
    split
    next hk => exact houtside k (Or.inl hk)
    next => rfl
  have hback : (a'.drop m).drop n = (a.drop m).drop n := by
    refine List.ext_getElem? fun k => ?_
    simp only [List.getElem?_drop]
    exact houtside _ (Or.inr (by omega))
  have hp := h.perm
  rw [hcut a', hcut a, hfront, hback] at hp
  exact (List.perm_append_right_iff _).mp
    ((List.perm_append_left_iff _).mp hp)

/-- What holds of every element of the range holds of it after a
rearrangement of the range. -/
theorem forall_range {a a' : List α} {l r : ℤ} (h : Rearranged a a' l r)
    {P : α → Prop}
    (hP : ∀ i x, l ≤ i → i ≤ r → atIndex a i = some x → P x) :
    ∀ i x, l ≤ i → i ≤ r → atIndex a' i = some x → P x := by
  intro i x hli hir hx
  obtain ⟨h₀, hget⟩ := atIndex_eq_some_iff.mp hx
  have hmem : x ∈ slice a' l r := by
    rw [slice, List.mem_iff_getElem?]
    refine ⟨i.toNat - l.toNat, ?_⟩
    rw [List.getElem?_take_of_lt (by omega), List.getElem?_drop,
      show l.toNat + (i.toNat - l.toNat) = i.toNat by omega]
    exact hget
  obtain ⟨k, hk⟩ := List.mem_iff_getElem?.mp (h.slice_perm.mem_iff.mp hmem)
  have hkn : k < (r + 1).toNat - l.toNat := by
    have hlt := (List.getElem?_eq_some_iff.mp hk).1
    rw [slice, List.length_take] at hlt
    omega
  rw [slice, List.getElem?_take_of_lt hkn, List.getElem?_drop] at hk
  refine hP (l.toNat + k : ℕ) x (by omega) (by omega) ?_
  rw [atIndex_eq_some_iff, Int.toNat_natCast]
  exact ⟨by omega, hk⟩

end Rearranged

theorem swapAt_spec {a : List α} {i j : ℤ} {x y : α}
    (hx : atIndex a i = some x) (hy : atIndex a j = some y) :
    ∃ a', swapAt a i j = some a' ∧ a'.Perm a ∧
      atIndex a' i = some y ∧ atIndex a' j = some x ∧
      ∀ k, k ≠ i → k ≠ j → atIndex a' k = atIndex a k := by
  obtain ⟨hi₀, hix⟩ := atIndex_eq_some_iff.mp hx
  obtain ⟨hj₀, hjy⟩ := atIndex_eq_some_iff.mp hy
  obtain ⟨hi, rfl⟩ := List.getElem?_eq_some_iff.mp hix
  obtain ⟨hj, rfl⟩ := List.getElem?_eq_some_iff.mp hjy
  refine ⟨_, by simp [swapAt, hx, hy], List.set_set_perm hi hj, ?_, ?_, ?_⟩
  · rw [atIndex_eq_some_iff]
    refine ⟨hi₀, ?_⟩
    by_cases hij : i = j
    · subst hij
      simp [hi]
    · rw [List.getElem?_set_ne (by omega), List.getElem?_set_self hi]
  · rw [atIndex_eq_some_iff]
    exact ⟨hj₀, List.getElem?_set_self (by simpa using hj)⟩
  · intro k hki hkj
    unfold atIndex
    split
    next hk₀ =>
      rw [List.getElem?_set_ne (by omega), List.getElem?_set_ne (by omega)]
    next => rfl

/-! ## The inner scans -/

/-- A scan upwards stops at or before the first sentinel. -/
theorem scanUp_spec {cmp : α → α → Bool} {midVal : α} {a : List α}
    {n : ℕ} {pl : ℤ} (h₀ : 0 ≤ pl)
    {s : ℤ} {y : α} (hpl : pl ≤ s) (hy : atIndex a s = some y)
    (hstop : cmp y midVal = false) (hn : s - pl < n) :
    ∃ i x, scanUp cmp midVal a n pl = some i ∧ pl ≤ i ∧ i ≤ s ∧
      atIndex a i = some x ∧ cmp x midVal = false ∧
      ∀ k z, pl ≤ k → k < i → atIndex a k = some z →
        cmp z midVal = true := by
  induction n generalizing pl with
  | zero => omega
  | succ n ih =>
      have hs := atIndex_lt_length hy
      obtain ⟨x, hx⟩ := exists_atIndex (a := a) h₀ (by omega)
      cases hc : cmp x midVal with
      | false =>
          exact ⟨pl, x, by simp [scanUp, hx, hc], le_refl _, hpl, hx, hc,
            fun k z h₁ h₂ => by omega⟩
      | true =>
          have hne : pl ≠ s := by
            rintro rfl
            rw [hx] at hy
            rw [Option.some.inj hy] at hc
            simp [hc] at hstop
          obtain ⟨i, x', hscan, hle, his, hx', hc', hall⟩ :=
            @ih (pl + 1) (by omega) (by omega) (by omega)
          refine ⟨i, x', by simp [scanUp, hx, hc, hscan], by omega, his, hx',
            hc', ?_⟩
          intro k z hk hki hz
          by_cases hkpl : k = pl
          · subst hkpl
            rw [hx] at hz
            exact Option.some.inj hz ▸ hc
          · exact hall k z (by omega) hki hz

/-- A scan downwards stops at or after the last sentinel. -/
theorem scanDown_spec {cmp : α → α → Bool} {midVal : α} {a : List α}
    {n : ℕ} {pr : ℤ} (hr : pr < a.length)
    {s : ℤ} {y : α} (hpr : s ≤ pr) (hy : atIndex a s = some y)
    (hstop : cmp midVal y = false) (hn : pr - s < n) :
    ∃ j x, scanDown cmp midVal a n pr = some j ∧ s ≤ j ∧ j ≤ pr ∧
      atIndex a j = some x ∧ cmp midVal x = false ∧
      ∀ k z, j < k → k ≤ pr → atIndex a k = some z →
        cmp midVal z = true := by
  induction n generalizing pr with
  | zero => omega
  | succ n ih =>
      have hs := atIndex_lt_length hy
      obtain ⟨x, hx⟩ := exists_atIndex (a := a) (i := pr) (by omega) hr
      cases hc : cmp midVal x with
      | false =>
          exact ⟨pr, x, by simp [scanDown, hx, hc], hpr, le_refl _, hx, hc,
            fun k z h₁ h₂ => by omega⟩
      | true =>
          have hne : pr ≠ s := by
            rintro rfl
            rw [hx] at hy
            rw [Option.some.inj hy] at hc
            simp [hc] at hstop
          obtain ⟨j, x', hscan, hle, hjs, hx', hc', hall⟩ :=
            @ih (pr - 1) (by omega) (by omega) (by omega)
          refine ⟨j, x', by simp [scanDown, hx, hc, hscan], hle, by omega,
            hx', hc', ?_⟩
          intro k z hk hkpr hz
          by_cases hkpr' : k = pr
          · subst hkpr'
            rw [hx] at hz
            exact Option.some.inj hz ▸ hc
          · exact hall k z hk (by omega) hz

/-! ## One partition -/

/-- `cmp` is a strict weak order: asymmetric, and its negation is
transitive. -/
structure StrictWeakOrder (cmp : α → α → Bool) : Prop where
  asymm : ∀ a b, cmp a b = true → cmp b a = false
  negTrans : ∀ a b c, cmp a b = false → cmp b c = false → cmp a c = false

/-- Comparing by a key is a strict weak order. -/
theorem StrictWeakOrder.of_key {β : Type} [LinearOrder β] {f : α → β}
    {cmp : α → α → Bool} (h : ∀ a b, cmp a b = true ↔ f a < f b) :
    StrictWeakOrder cmp where
  asymm a b hab := by
    rw [← Bool.not_eq_true, h]
    exact ((h a b).mp hab).not_gt
  negTrans a b c hab hbc := by
    rw [← Bool.not_eq_true, h, not_lt] at hab hbc ⊢
    exact hbc.trans hab

/-- What the partition loop has established when it stands at `pl` and `pr`:
nothing left of `pl` is above the pivot and nothing right of `pr` below it. -/
structure Partitioned (cmp : α → α → Bool) (midVal : α) (a : List α)
    (l r pl pr : ℤ) : Prop where
  left : ∀ k z, l ≤ k → k < pl → atIndex a k = some z →
    cmp midVal z = false
  right : ∀ k z, pr < k → k ≤ r → atIndex a k = some z →
    cmp z midVal = false

/-- Sentinels that stop the two scans from `pl` and `pr`. -/
structure Sentinels (cmp : α → α → Bool) (midVal : α) (a : List α)
    (l r pl pr : ℤ) : Prop where
  up : ∃ s y, pl ≤ s ∧ s ≤ r ∧ atIndex a s = some y ∧
    cmp y midVal = false
  down : ∃ s y, l ≤ s ∧ s ≤ pr ∧ atIndex a s = some y ∧
    cmp midVal y = false

/-- One round of the loop: the scans stop, and the indices either cross or an
exchange leaves new sentinels behind. -/
theorem partition_round {cmp : α → α → Bool} (hcmp : StrictWeakOrder cmp)
    {midVal : α} {a : List α} {l r pl pr : ℤ} (hl : 0 ≤ l)
    (hr : r < a.length) (hpl : l ≤ pl) (hpr : pr ≤ r)
    (hpart : Partitioned cmp midVal a l r pl pr)
    (hsent : Sentinels cmp midVal a l r pl pr) :
    ∃ i j, scanUp cmp midVal a (a.length + 1) pl = some i ∧
      scanDown cmp midVal a (a.length + 1) pr = some j ∧
      pl ≤ i ∧ j ≤ pr ∧
      (∀ s y, pl ≤ s → atIndex a s = some y → cmp y midVal = false →
        i ≤ s) ∧
      (∀ s y, s ≤ pr → atIndex a s = some y → cmp midVal y = false →
        s ≤ j) ∧
      (i ≤ j → ∃ a', swapAt a i j = some a' ∧ Rearranged a a' l r ∧
        Partitioned cmp midVal a' l r (i + 1) (j - 1) ∧
        (i + 1 ≤ j - 1 →
          Sentinels cmp midVal a' l r (i + 1) (j - 1))) ∧
      (j < i → Partitioned cmp midVal a l r i j) := by
  obtain ⟨⟨s, y, hpls, hsr, hy, hystop⟩, t, z, hlt, htpr, hz, hzstop⟩ := hsent
  have hs := atIndex_lt_length hy
  have ht := atIndex_lt_length hz
  obtain ⟨i, x, hup, hpli, -, hxi, hxstop, hbelow⟩ :=
    scanUp_spec (n := a.length + 1) (by omega) hpls hy hystop (by omega)
  obtain ⟨j, w, hdown, -, hjpr, hwj, hwstop, habove⟩ :=
    scanDown_spec (n := a.length + 1) (by omega) htpr hz hzstop (by omega)
  have hleft : ∀ k v, l ≤ k → k < i → atIndex a k = some v →
      cmp midVal v = false := by
    intro k v hk hki hv
    by_cases hkpl : k < pl
    · exact hpart.left k v hk hkpl hv
    · exact hcmp.asymm _ _ (hbelow k v (by omega) hki hv)
  have hright : ∀ k v, j < k → k ≤ r → atIndex a k = some v →
      cmp v midVal = false := by
    intro k v hjk hkr hv
    by_cases hkpr : pr < k
    · exact hpart.right k v hkpr hkr hv
    · exact hcmp.asymm _ _ (habove k v hjk (by omega) hv)
  refine ⟨i, j, hup, hdown, hpli, hjpr, ?_, ?_, ?_, ?_⟩
  · intro s' y' hs' hy' hstop'
    by_contra hlt'
    have := hbelow s' y' hs' (by omega) hy'
    simp [this] at hstop'
  · intro s' y' hs' hy' hstop'
    by_contra hlt'
    have := habove s' y' (by omega) hs' hy'
    simp [this] at hstop'
  · intro hij
    obtain ⟨a', hswap, hperm, hi', hj', hother⟩ := swapAt_spec hxi hwj
    refine ⟨a', hswap, ⟨hperm, fun k hk => hother k (by omega) (by omega)⟩,
      ⟨?_, ?_⟩, fun hlt' => ⟨⟨j, x, by omega, by omega, hj', hxstop⟩,
        ⟨i, w, by omega, by omega, hi', hwstop⟩⟩⟩
    · intro k v hk hki hv
      by_cases hkeq : k = i
      · subst hkeq
        rw [hi'] at hv
        exact Option.some.inj hv ▸ hwstop
      · rw [hother k hkeq (by omega)] at hv
        exact hleft k v hk (by omega) hv
    · intro k v hjk hkr hv
      by_cases hkeq : k = j
      · subst hkeq
        rw [hj'] at hv
        exact Option.some.inj hv ▸ hxstop
      · rw [hother k (by omega) hkeq] at hv
        exact hright k v (by omega) hkr hv
  · intro _
    exact ⟨hleft, hright⟩

theorem partitionLoop_spec {cmp : α → α → Bool}
    (hcmp : StrictWeakOrder cmp) {midVal : α} {n : ℕ} {a : List α}
    {l r pl pr : ℤ} (hl : 0 ≤ l) (hr : r < a.length) (hpl : l ≤ pl)
    (hpr : pr ≤ r) (hn : pr - pl + 2 < n) (hn₀ : 0 < n)
    (hpart : Partitioned cmp midVal a l r pl pr)
    (hsent : pl ≤ pr → Sentinels cmp midVal a l r pl pr) :
    ∃ a' pl' pr', partitionLoop cmp midVal n a pl pr = some (a', pl', pr') ∧
      Rearranged a a' l r ∧ pl ≤ pl' ∧ pr' ≤ pr ∧ pr' < pl' ∧
      Partitioned cmp midVal a' l r pl' pr' := by
  induction n generalizing a pl pr with
  | zero => omega
  | succ n ih =>
      by_cases hle : pl ≤ pr
      · obtain ⟨i, j, hup, hdown, hpli, hjpr, -, -, hmeet, hcross⟩ :=
          partition_round hcmp hl hr hpl hpr hpart (hsent hle)
        by_cases hij : i ≤ j
        · obtain ⟨a', hswap, hre, hpart', hsent'⟩ := hmeet hij
          obtain ⟨a'', pl', pr', hloop, hre', hle', hpr', hlt', hpart''⟩ :=
            @ih a' (i + 1) (j - 1)
              (by rw [hre.perm.length_eq]; exact hr) (by omega) (by omega)
              (by omega) (by omega) hpart' hsent'
          refine ⟨a'', pl', pr', ?_, hre.trans hre', by omega, by omega,
            hlt', hpart''⟩
          simp [partitionLoop, hle, hup, hdown, hij, hswap, hloop]
        · -- the scans crossed: the next test of the loop ends it
          obtain ⟨m, rfl⟩ : ∃ m, n = m + 1 := ⟨n - 1, by omega⟩
          refine ⟨a, i, j, ?_, .refl a l r, hpli, hjpr, by omega,
            hcross (by omega)⟩
          rw [partitionLoop, if_pos hle, hup, hdown]
          simp only [Option.bind_eq_bind, Option.bind_some, if_neg hij]
          rw [partitionLoop, if_neg hij]
      · refine ⟨a, pl, pr, ?_, .refl a l r, le_refl _, le_refl _, by omega,
          hpart⟩
        simp [partitionLoop, hle]

/-- The first round always exchanges, so both parts are shorter than the
range. -/
theorem partition_spec {cmp : α → α → Bool} (hcmp : StrictWeakOrder cmp)
    {midVal : α} {a : List α} {l r : ℤ} (hl : 0 ≤ l) (hlr : l < r)
    (hr : r < a.length) (hmid : atIndex a ((l + r) / 2) = some midVal) :
    ∃ a' pl pr,
      partitionLoop cmp midVal (a.length + 2) a l r = some (a', pl, pr) ∧
      Rearranged a a' l r ∧ l < pl ∧ pr < r ∧ pr < pl ∧
      Partitioned cmp midVal a' l r pl pr := by
  have hirrefl : cmp midVal midVal = false := by
    cases h : cmp midVal midVal with
    | false => rfl
    | true => rw [← hcmp.asymm _ _ h, h]
  have hpart : Partitioned cmp midVal a l r l r :=
    ⟨fun k z h₁ h₂ => by omega, fun k z h₁ h₂ => by omega⟩
  have hsent : Sentinels cmp midVal a l r l r :=
    ⟨⟨(l + r) / 2, midVal, by omega, by omega, hmid, hirrefl⟩,
      ⟨(l + r) / 2, midVal, by omega, by omega, hmid, hirrefl⟩⟩
  obtain ⟨i, j, hup, hdown, hli, hjr, hfirst, hlast, hmeet, -⟩ :=
    partition_round hcmp hl hr (le_refl l) (le_refl r) hpart hsent
  have hi := hfirst ((l + r) / 2) midVal (by omega) hmid hirrefl
  have hj := hlast ((l + r) / 2) midVal (by omega) hmid hirrefl
  have hij : i ≤ j := by omega
  obtain ⟨a', hswap, hre, hpart', hsent'⟩ := hmeet hij
  obtain ⟨a'', pl, pr, hloop, hre', hpl, hpr, hlt, hpart''⟩ :=
    partitionLoop_spec (n := a.length + 1) hcmp hl
      (by rw [hre.perm.length_eq]; exact hr) (by omega) (by omega)
      (by omega) (by omega) hpart' hsent'
  refine ⟨a'', pl, pr, ?_, hre.trans hre', by omega, by omega, hlt,
    hpart''⟩
  rw [partitionLoop, if_pos hlr.le, hup, hdown]
  simp only [Option.bind_eq_bind, Option.bind_some, if_pos hij, hswap]
  exact hloop

/-! ## The whole sort -/

/-- No later element of the range is below an earlier one. -/
def SortedRange (cmp : α → α → Bool) (a : List α) (l r : ℤ) : Prop :=
  ∀ i j x y, l ≤ i → i < j → j ≤ r → atIndex a i = some x →
    atIndex a j = some y → cmp y x = false

/-- Sorted parts left and right of the pivot make a sorted range. -/
theorem sortedRange_of_parts {cmp : α → α → Bool}
    (hcmp : StrictWeakOrder cmp) {midVal : α} {a : List α}
    {l r pl pr : ℤ}
    (hpart : Partitioned cmp midVal a l r pl pr)
    (hleft : SortedRange cmp a l pr) (hright : SortedRange cmp a pl r) :
    SortedRange cmp a l r := by
  intro i j x y hli hij hjr hx hy
  by_cases hj : j ≤ pr
  · exact hleft i j x y hli hij hj hx hy
  · by_cases hi : pl ≤ i
    · exact hright i j x y hi hij hjr hx hy
    · exact hcmp.negTrans _ _ _
        (hpart.right j y (by omega) hjr hy)
        (hpart.left i x hli (by omega) hx)

/-- Sorting one side of a partition keeps it a partition. -/
theorem Partitioned.rearranged {cmp : α → α → Bool} {midVal : α}
    {a a' : List α} {l r pl pr l' r' : ℤ}
    (hpart : Partitioned cmp midVal a l r pl pr)
    (hre : Rearranged a a' l' r')
    (hside : l ≤ l' ∧ r' ≤ pr ∧ pr < pl ∨ pl ≤ l' ∧ r' ≤ r ∧ pr < pl) :
    Partitioned cmp midVal a' l r pl pr := by
  constructor
  · intro k z hlk hkpl hz
    by_cases hk : l' ≤ k ∧ k ≤ r'
    · rcases hside with hside | hside
      · exact hre.forall_range
          (P := fun v => cmp midVal v = false)
          (fun i x h₁ h₂ hx => hpart.left i x (by omega) (by omega) hx)
          k z hk.1 hk.2 hz
      · omega
    · rw [hre.outside k (by omega)] at hz
      exact hpart.left k z hlk hkpl hz
  · intro k z hprk hkr hz
    by_cases hk : l' ≤ k ∧ k ≤ r'
    · rcases hside with hside | hside
      · omega
      · exact hre.forall_range
          (P := fun v => cmp v midVal = false)
          (fun i x h₁ h₂ hx => hpart.right i x (by omega) (by omega) hx)
          k z hk.1 hk.2 hz
    · rw [hre.outside k (by omega)] at hz
      exact hpart.right k z hprk hkr hz

theorem SortedRange.congr {cmp : α → α → Bool} {a a' : List α} {l r : ℤ}
    (h : SortedRange cmp a l r)
    (heq : ∀ i, l ≤ i → i ≤ r → atIndex a' i = atIndex a i) :
    SortedRange cmp a' l r := by
  intro i j x y hli hij hjr hx hy
  rw [heq i hli (by omega)] at hx
  rw [heq j (by omega) hjr] at hy
  exact h i j x y hli hij hjr hx hy

theorem sortWithin_spec {cmp : α → α → Bool} (hcmp : StrictWeakOrder cmp)
    {n : ℕ} {a : List α} {l r : ℤ} (hl : 0 ≤ l) (hr : r < a.length)
    (hn : r - l < n) (hn₀ : 0 < n) :
    ∃ a', sortWithin cmp n a l r = some a' ∧ Rearranged a a' l r ∧
      SortedRange cmp a' l r := by
  induction n generalizing a l r with
  | zero => omega
  | succ n ih =>
      by_cases hrl : r ≤ l
      · refine ⟨a, by simp [sortWithin, hrl], .refl a l r, ?_⟩
        intro i j x y h₁ h₂ h₃
        omega
      · obtain ⟨midVal, hmid⟩ :=
          exists_atIndex (a := a) (i := (l + r) / 2) (by omega) (by omega)
        obtain ⟨a₁, pl, pr, hloop, hre₁, hlpl, hprr, hlt, hpart⟩ :=
          partition_spec hcmp hl (by omega) hr hmid
        have hlen₁ : a₁.length = a.length := hre₁.perm.length_eq
        -- the left part
        obtain ⟨a₂, hsort₂, hre₂, hsorted₂⟩ :
            ∃ a₂, (if l < pr then sortWithin cmp n a₁ l pr else some a₁) =
                some a₂ ∧ Rearranged a₁ a₂ l pr ∧
              SortedRange cmp a₂ l pr := by
          by_cases hlpr : l < pr
          · simpa [hlpr] using
              ih (a := a₁) hl (by omega) (by omega) (by omega)
          · exact ⟨a₁, by simp [hlpr], .refl a₁ l pr,
              fun i j x y h₁ h₂ h₃ => by omega⟩
        have hlen₂ : a₂.length = a.length :=
          hre₂.perm.length_eq.trans hlen₁
        have hpart₂ := hpart.rearranged hre₂
          (Or.inl ⟨le_refl l, le_refl pr, hlt⟩)
        -- the right part
        obtain ⟨a₃, hsort₃, hre₃, hsorted₃⟩ :
            ∃ a₃, (if pl < r then sortWithin cmp n a₂ pl r else some a₂) =
                some a₃ ∧ Rearranged a₂ a₃ pl r ∧
              SortedRange cmp a₃ pl r := by
          by_cases hplr : pl < r
          · simpa [hplr] using
              ih (a := a₂) (by omega) (by omega) (by omega) (by omega)
          · exact ⟨a₂, by simp [hplr], .refl a₂ pl r,
              fun i j x y h₁ h₂ h₃ => by omega⟩
        have hpart₃ := hpart₂.rearranged hre₃
          (Or.inr ⟨le_refl pl, le_refl r, hlt⟩)
        refine ⟨a₃, ?_, ?_, ?_⟩
        · rw [sortWithin, if_neg hrl, hmid]
          simp only [Option.bind_eq_bind, Option.bind_some, hloop]
          by_cases hlpr : l < pr
          · rw [if_pos hlpr] at hsort₂ ⊢
            rw [hsort₂]
            exact hsort₃
          · rw [if_neg hlpr] at hsort₂ ⊢
            obtain rfl := Option.some.inj hsort₂
            exact hsort₃
        · exact (hre₁.trans (hre₂.widen (le_refl l) (by omega))).trans
            (hre₃.widen (by omega) (le_refl r))
        · refine sortedRange_of_parts hcmp hpart₃ ?_ hsorted₃
          exact hsorted₂.congr fun i _ hi => hre₃.outside i (by omega)

/-- `Sort` on the whole of a vector returns a sorted permutation of it. -/
theorem sort_spec {cmp : α → α → Bool} (hcmp : StrictWeakOrder cmp)
    (a : List α) :
    ∃ a', sort a 0 (a.length - 1) cmp = some a' ∧ a'.Perm a ∧
      a'.Pairwise fun x y => cmp y x = false := by
  obtain ⟨a', hsort, hre, hsorted⟩ :=
    sortWithin_spec (n := a.length + 1) (a := a) (l := 0)
      (r := a.length - 1) hcmp (le_refl 0) (by omega) (by omega) (by omega)
  refine ⟨a', hsort, hre.perm, ?_⟩
  have hlen := hre.perm.length_eq
  rw [List.pairwise_iff_getElem]
  intro i j hi hj hij
  refine hsorted i j a'[i] a'[j] (by omega) (by omega) (by omega) ?_ ?_
  · exact atIndex_eq_some_iff.mpr ⟨by omega, by simp [hi]⟩
  · exact atIndex_eq_some_iff.mpr ⟨by omega, by simp [hj]⟩

theorem sort_eq_some {cmp : α → α → Bool} (hcmp : StrictWeakOrder cmp)
    {a a' : List α} (h : sort a 0 (a.length - 1) cmp = some a') :
    a'.Perm a ∧ a'.Pairwise fun x y => cmp y x = false := by
  obtain ⟨b, hb, hspec⟩ := sort_spec hcmp a
  obtain rfl : b = a' := Option.some.inj (hb.symm.trans h)
  exact hspec

/-! ## Sorting the images of values -/

section Map

variable {β : Type} {g : α → β} {cmp : β → β → Bool} {cmp' : α → α → Bool}

theorem atIndex_map (g : α → β) (a : List α) (i : ℤ) :
    atIndex (a.map g) i = (atIndex a i).map g := by
  unfold atIndex
  split
  · exact List.getElem?_map
  · rfl

theorem scanUp_map (hcmp : ∀ x y, cmp (g x) (g y) = cmp' x y) (midVal : α)
    (a : List α) (n : ℕ) (pl : ℤ) :
    scanUp cmp (g midVal) (a.map g) n pl = scanUp cmp' midVal a n pl := by
  induction n generalizing pl with
  | zero => rfl
  | succ n ih =>
      rw [scanUp, scanUp, atIndex_map]
      cases atIndex a pl with
      | none => rfl
      | some x =>
          simp only [Option.map_some, Option.bind_eq_bind, Option.bind_some,
            hcmp, ih]

theorem scanDown_map (hcmp : ∀ x y, cmp (g x) (g y) = cmp' x y) (midVal : α)
    (a : List α) (n : ℕ) (pr : ℤ) :
    scanDown cmp (g midVal) (a.map g) n pr = scanDown cmp' midVal a n pr := by
  induction n generalizing pr with
  | zero => rfl
  | succ n ih =>
      rw [scanDown, scanDown, atIndex_map]
      cases atIndex a pr with
      | none => rfl
      | some x =>
          simp only [Option.map_some, Option.bind_eq_bind, Option.bind_some,
            hcmp, ih]

theorem swapAt_map (g : α → β) (a : List α) (pl pr : ℤ) :
    swapAt (a.map g) pl pr = (swapAt a pl pr).map (List.map g) := by
  rw [swapAt, swapAt, atIndex_map, atIndex_map]
  cases atIndex a pl with
  | none => rfl
  | some x =>
      cases atIndex a pr with
      | none => rfl
      | some y =>
          simp only [Option.map_some, Option.bind_eq_bind, Option.bind_some,
            List.map_set]

theorem partitionLoop_map (hcmp : ∀ x y, cmp (g x) (g y) = cmp' x y)
    (midVal : α) (n : ℕ) (a : List α) (pl pr : ℤ) :
    partitionLoop cmp (g midVal) n (a.map g) pl pr =
      (partitionLoop cmp' midVal n a pl pr).map
        fun out => (out.1.map g, out.2) := by
  induction n generalizing a pl pr with
  | zero => rfl
  | succ n ih =>
      rw [partitionLoop, partitionLoop]
      by_cases hle : pl ≤ pr
      · rw [if_pos hle, if_pos hle, scanUp_map hcmp, List.length_map]
        simp only [Option.bind_eq_bind, scanDown_map hcmp, swapAt_map, ih]
        cases scanUp cmp' midVal a (a.length + 1) pl with
        | none => rfl
        | some pl' =>
            simp only [Option.bind_some]
            cases scanDown cmp' midVal a (a.length + 1) pr with
            | none => rfl
            | some pr' =>
                simp only [Option.bind_some]
                split
                · cases swapAt a pl' pr' with
                  | none => rfl
                  | some a' =>
                      simp only [Option.map_some, Option.bind_some, ih]
                · rfl
      · rw [if_neg hle, if_neg hle]
        rfl

theorem sortWithin_map (hcmp : ∀ x y, cmp (g x) (g y) = cmp' x y) (n : ℕ)
    (a : List α) (l r : ℤ) :
    sortWithin cmp n (a.map g) l r =
      (sortWithin cmp' n a l r).map (List.map g) := by
  induction n generalizing a l r with
  | zero => rfl
  | succ n ih =>
      rw [sortWithin, sortWithin]
      by_cases hle : r ≤ l
      · rw [if_pos hle, if_pos hle]
        rfl
      rw [if_neg hle, if_neg hle, atIndex_map, List.length_map]
      cases atIndex a ((l + r) / 2) with
      | none => rfl
      | some midVal =>
          simp only [Option.map_some, Option.bind_eq_bind, Option.bind_some,
            partitionLoop_map hcmp]
          cases partitionLoop cmp' midVal (a.length + 2) a l r with
          | none => rfl
          | some out =>
              obtain ⟨a₁, pl, pr⟩ := out
              simp only [Option.map_some, Option.bind_some, ih]
              -- the right part is sorted alike whatever the left one became
              have hright : ∀ a₂ : List α,
                  (if pl < r then sortWithin cmp n (a₂.map g) pl r
                    else some (a₂.map g)) =
                  (if pl < r then sortWithin cmp' n a₂ pl r
                    else some a₂).map (List.map g) := by
                intro a₂
                split
                · exact ih a₂ pl r
                · rfl
              by_cases hlpr : l < pr
              · rw [if_pos hlpr, if_pos hlpr]
                cases sortWithin cmp' n a₁ l pr with
                | none => rfl
                | some a₂ => exact hright a₂
              · rw [if_neg hlpr, if_neg hlpr, ← ih]
                exact hright a₁

/-- The sort only looks at values through the comparison. -/
theorem sort_map (hcmp : ∀ x y, cmp (g x) (g y) = cmp' x y) (a : List α)
    (l r : ℤ) :
    sort (a.map g) l r cmp = (sort a l r cmp').map (List.map g) := by
  rw [sort, sort, List.length_map, sortWithin_map hcmp]

end Map

end TicketSystem.Backend
