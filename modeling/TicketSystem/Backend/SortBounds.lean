import TicketSystem.Backend.Sort

/-!
# The quicksort stays inside its range

The scans of `Sort` run without a guard, so that they could leave the range of
the call they belong to and still hit an element of the vector.  Here every
access is checked against the range of the current call, or against that of
the first one, and the check never fails.
-/

namespace TicketSystem.Backend

variable {α : Type}

/-! ## Checked accesses -/

/-- `a[i]` in a call of `Sort` on the range from `l` to `r`; an access outside
of the range is `none`. -/
def atInside (l r : ℤ) (a : List α) (i : ℤ) : Option α :=
  if l ≤ i ∧ i ≤ r then atIndex a i else none

/-- `scanUp` with checked accesses. -/
def scanUpInside (l r : ℤ) (cmp : α → α → Bool) (midVal : α) (a : List α) :
    ℕ → ℤ → Option ℤ
  | 0, _ => none
  | n + 1, pl => do
      let x ← atInside l r a pl
      if cmp x midVal then scanUpInside l r cmp midVal a n (pl + 1)
      else some pl

/-- `scanDown` with checked accesses. -/
def scanDownInside (l r : ℤ) (cmp : α → α → Bool) (midVal : α)
    (a : List α) : ℕ → ℤ → Option ℤ
  | 0, _ => none
  | n + 1, pr => do
      let x ← atInside l r a pr
      if cmp midVal x then scanDownInside l r cmp midVal a n (pr - 1)
      else some pr

/-- `swapAt` with checked accesses. -/
def swapAtInside (l r : ℤ) (a : List α) (pl pr : ℤ) :
    Option (List α) := do
  let x ← atInside l r a pl
  let y ← atInside l r a pr
  some ((a.set pl.toNat y).set pr.toNat x)

/-- `partitionLoop` with checked accesses. -/
def partitionLoopInside (l r : ℤ) (cmp : α → α → Bool) (midVal : α) :
    ℕ → List α → ℤ → ℤ → Option (List α × ℤ × ℤ)
  | 0, _, _, _ => none
  | n + 1, a, pl, pr =>
      if pl ≤ pr then do
        let pl ← scanUpInside l r cmp midVal a (a.length + 1) pl
        let pr ← scanDownInside l r cmp midVal a (a.length + 1) pr
        if pl ≤ pr then do
          let a ← swapAtInside l r a pl pr
          partitionLoopInside l r cmp midVal n a (pl + 1) (pr - 1)
        else partitionLoopInside l r cmp midVal n a pl pr
      else some (a, pl, pr)

/-- `sortWithin` with checked accesses: each call checks its own range. -/
def sortWithinInside (cmp : α → α → Bool) :
    ℕ → List α → ℤ → ℤ → Option (List α)
  | 0, _, _, _ => none
  | n + 1, a, l, r =>
      if r ≤ l then some a
      else do
        let midVal ← atInside l r a ((l + r) / 2)
        let (a, pl, pr) ←
          partitionLoopInside l r cmp midVal (a.length + 2) a l r
        let a ← if l < pr then sortWithinInside cmp n a l pr else some a
        if pl < r then sortWithinInside cmp n a pl r else some a

/-- `sort` with checked accesses. -/
def sortInside (a : List α) (l r : ℤ) (cmp : α → α → Bool) :
    Option (List α) :=
  sortWithinInside cmp (a.length + 1) a l r

/-- `sortWithin` with checked accesses: a call on the range from `l` to `r` may
use the indices from `lo l` to `hi r`. -/
def sortWithinChecked (lo hi : ℤ → ℤ) (cmp : α → α → Bool) :
    ℕ → List α → ℤ → ℤ → Option (List α)
  | 0, _, _, _ => none
  | n + 1, a, l, r =>
      if r ≤ l then some a
      else do
        let midVal ← atInside (lo l) (hi r) a ((l + r) / 2)
        let (a, pl, pr) ←
          partitionLoopInside (lo l) (hi r) cmp midVal (a.length + 2) a l r
        let a ← if l < pr then sortWithinChecked lo hi cmp n a l pr else some a
        if pl < r then sortWithinChecked lo hi cmp n a pl r else some a

/-- `sort` in which every access of every call is checked against the range
from `l` to `r`. -/
def sortBetween (a : List α) (l r : ℤ) (cmp : α → α → Bool) :
    Option (List α) :=
  sortWithinChecked (fun _ => l) (fun _ => r) cmp (a.length + 1) a l r

/-! ## The checks never fail -/

variable {cmp : α → α → Bool} {midVal : α} {a : List α} {l r lo hi : ℤ}

theorem atInside_eq {i : ℤ} (hl : l ≤ i) (hr : i ≤ r) :
    atInside l r a i = atIndex a i :=
  if_pos ⟨hl, hr⟩

/-- A scan upwards that starts and stops inside the range stays inside. -/
theorem scanUpInside_eq {n : ℕ} {pl i : ℤ}
    (h : scanUp cmp midVal a n pl = some i) (hl : l ≤ pl) (hr : i ≤ r) :
    scanUpInside l r cmp midVal a n pl = some i ∧ pl ≤ i := by
  induction n generalizing pl with
  | zero => cases h
  | succ n ih =>
      obtain ⟨x, hx, hrest⟩ := Option.bind_eq_some_iff.mp h
      by_cases hc : cmp x midVal
      · rw [if_pos hc] at hrest
        obtain ⟨hscan, hle⟩ := ih hrest (by omega)
        rw [scanUpInside, atInside_eq hl (by omega), hx]
        simp only [Option.bind_eq_bind, Option.bind_some, if_pos hc]
        exact ⟨hscan, by omega⟩
      · rw [if_neg hc] at hrest
        obtain rfl := Option.some.inj hrest
        rw [scanUpInside, atInside_eq hl hr, hx]
        simp [hc]

/-- A scan downwards that starts and stops inside the range stays inside. -/
theorem scanDownInside_eq {n : ℕ} {pr j : ℤ}
    (h : scanDown cmp midVal a n pr = some j) (hr : pr ≤ r) (hl : l ≤ j) :
    scanDownInside l r cmp midVal a n pr = some j ∧ j ≤ pr := by
  induction n generalizing pr with
  | zero => cases h
  | succ n ih =>
      obtain ⟨x, hx, hrest⟩ := Option.bind_eq_some_iff.mp h
      by_cases hc : cmp midVal x
      · rw [if_pos hc] at hrest
        obtain ⟨hscan, hle⟩ := ih hrest (by omega)
        rw [scanDownInside, atInside_eq (by omega) hr, hx]
        simp only [Option.bind_eq_bind, Option.bind_some, if_pos hc]
        exact ⟨hscan, by omega⟩
      · rw [if_neg hc] at hrest
        obtain rfl := Option.some.inj hrest
        rw [scanDownInside, atInside_eq hl hr, hx]
        simp [hc]

theorem swapAtInside_eq {pl pr : ℤ} (hl : l ≤ pl) (hle : pl ≤ pr)
    (hr : pr ≤ r) : swapAtInside l r a pl pr = swapAt a pl pr := by
  rw [swapAtInside, swapAt, atInside_eq hl (hle.trans hr),
    atInside_eq (hl.trans hle) hr]

/-- While both scans have a sentinel, every access of the loop is inside. -/
theorem partitionLoopInside_eq (hcmp : StrictWeakOrder cmp) {n : ℕ}
    {pl pr : ℤ} (hlo : lo ≤ l) (hhi : r ≤ hi) (hl : 0 ≤ l)
    (hr : r < a.length) (hpl : l ≤ pl) (hpr : pr ≤ r)
    (hpart : Partitioned cmp midVal a l r pl pr)
    (hsent : pl ≤ pr → Sentinels cmp midVal a l r pl pr) :
    partitionLoopInside lo hi cmp midVal n a pl pr =
      partitionLoop cmp midVal n a pl pr := by
  induction n generalizing a pl pr with
  | zero => rfl
  | succ n ih =>
      rw [partitionLoopInside, partitionLoop]
      by_cases hle : pl ≤ pr
      · obtain ⟨i, j, hup, hdown, hpli, hjpr, hfirst, hlast, hmeet, hcross⟩ :=
          partition_round hcmp hl hr hpl hpr hpart (hsent hle)
        obtain ⟨⟨s, y, hpls, hsr, hy, hystop⟩, t, z, hlt, htpr, hz, hzstop⟩ :=
          hsent hle
        -- the scans stop before they reach the end of the range
        have hir : i ≤ r := (hfirst s y hpls hy hystop).trans hsr
        have hlj : l ≤ j := hlt.trans (hlast t z htpr hz hzstop)
        rw [if_pos hle, if_pos hle, hup, hdown,
          (scanUpInside_eq hup (hlo.trans hpl) (hir.trans hhi)).1,
          (scanDownInside_eq hdown (hpr.trans hhi) (hlo.trans hlj)).1]
        simp only [Option.bind_eq_bind, Option.bind_some]
        by_cases hij : i ≤ j
        · obtain ⟨a', hswap, hre, hpart', hsent'⟩ := hmeet hij
          rw [if_pos hij, if_pos hij,
            swapAtInside_eq (hlo.trans (hpl.trans hpli)) hij
              ((hjpr.trans hpr).trans hhi), hswap]
          apply ih _ (by omega) (by omega) hpart' hsent'
          rw [hre.perm.length_eq]
          exact hr
        · rw [if_neg hij, if_neg hij]
          apply ih hr (by omega) (by omega) (hcross (by omega))
          intro hc
          exact absurd hc hij
      · rw [if_neg hle, if_neg hle]

/-- No call of the recursion uses an index outside its bounds. -/
theorem sortWithinChecked_eq {lo hi : ℤ → ℤ} (hcmp : StrictWeakOrder cmp)
    {n : ℕ} (hlo : ∀ i, l ≤ i → lo i ≤ i) (hhi : ∀ i, i ≤ r → i ≤ hi i)
    (hl : 0 ≤ l) (hr : r < a.length) (hn : r - l < n) :
    sortWithinChecked lo hi cmp n a l r = sortWithin cmp n a l r := by
  induction n generalizing a l r with
  | zero => rfl
  | succ n ih =>
      have hlol : lo l ≤ l := hlo l le_rfl
      have hrhi : r ≤ hi r := hhi r le_rfl
      rw [sortWithinChecked, sortWithin]
      by_cases hrl : r ≤ l
      · rw [if_pos hrl, if_pos hrl]
      · obtain ⟨midVal, hmid⟩ :=
          exists_atIndex (a := a) (i := (l + r) / 2) (by omega) (by omega)
        have hirrefl : cmp midVal midVal = false := by
          by_contra hc
          rw [Bool.not_eq_false] at hc
          exact absurd hc (by rw [hcmp.asymm _ _ hc]; simp)
        obtain ⟨a₁, pl, pr, hloop, hre₁, hlpl, hprr, -, -⟩ :=
          partition_spec hcmp hl (by omega) hr hmid
        have hlen₁ : a₁.length = a.length := hre₁.perm.length_eq
        have hloop' : partitionLoopInside (lo l) (hi r) cmp midVal
            (a.length + 2) a l r = some (a₁, pl, pr) := by
          rw [partitionLoopInside_eq hcmp hlol hrhi hl hr (le_refl l)
            (le_refl r) ⟨fun k z _ _ => by omega, fun k z _ _ => by omega⟩,
            hloop]
          intro _
          exact
            ⟨⟨(l + r) / 2, midVal, by omega, by omega, hmid, hirrefl⟩,
              ⟨(l + r) / 2, midVal, by omega, by omega, hmid, hirrefl⟩⟩
        rw [if_neg hrl, if_neg hrl, atInside_eq (by omega) (by omega), hmid]
        simp only [Option.bind_eq_bind, Option.bind_some, hloop, hloop']
        have hright : ∀ b : List α, b.length = a.length →
            (if pl < r then sortWithinChecked lo hi cmp n b pl r
              else some b) =
              if pl < r then sortWithin cmp n b pl r else some b := by
          intro b hb
          by_cases hplr : pl < r
          · rw [if_pos hplr, if_pos hplr]
            apply ih _ hhi (by omega) (by omega) (by omega)
            exact fun i hi => hlo i (hlpl.le.trans hi)
          · rw [if_neg hplr, if_neg hplr]
        by_cases hlpr : l < pr
        · obtain ⟨a₂, hsort₂, hre₂, -⟩ :=
            sortWithin_spec (n := n) (a := a₁) (l := l) (r := pr) hcmp hl
              (by omega) (by omega) (by omega)
          have hleft : sortWithinChecked lo hi cmp n a₁ l pr =
              sortWithin cmp n a₁ l pr := by
            apply ih hlo _ hl (by omega) (by omega)
            exact fun i hi => hhi i (hi.trans hprr.le)
          rw [if_pos hlpr, if_pos hlpr, hleft, hsort₂]
          exact hright a₂ (hre₂.perm.length_eq.trans hlen₁)
        · rw [if_neg hlpr, if_neg hlpr]
          exact hright a₁ hlen₁

theorem sortWithinInside_eq_checked (n : ℕ) :
    sortWithinInside cmp n a l r =
      sortWithinChecked (fun i => i) (fun i => i) cmp n a l r := by
  induction n generalizing a l r with
  | zero => rfl
  | succ n ih => simp only [sortWithinInside, sortWithinChecked, ih]

/-- `Sort` on the whole of a vector never leaves the range of any of its
calls. -/
theorem sortInside_eq (hcmp : StrictWeakOrder cmp) (a : List α) :
    sortInside a 0 (a.length - 1) cmp = sort a 0 (a.length - 1) cmp := by
  rw [sortInside, sort, sortWithinInside_eq_checked]
  exact sortWithinChecked_eq hcmp (fun _ _ => le_rfl) (fun _ _ => le_rfl)
    le_rfl (by omega) (by omega)

/-- `Sort` on a range inside the vector, or on an empty one, ends, touches no
other index in any of its calls, permutes the range and leaves it sorted. -/
theorem sort_range (hcmp : StrictWeakOrder cmp) (a : List α) (l r : ℤ)
    (h : r < l ∨ 0 ≤ l ∧ l ≤ r ∧ r < a.length) :
    ∃ a', sort a l r cmp = some a' ∧ sortBetween a l r cmp = some a' ∧
      a'.length = a.length ∧ (slice a' l r).Perm (slice a l r) ∧
      (∀ i, i < l ∨ r < i → atIndex a' i = atIndex a i) ∧
      SortedRange cmp a' l r := by
  rcases h with hrl | ⟨hl, hlr, hr⟩
  · have hsort : sort a l r cmp = some a := if_pos hrl.le
    have hbetween : sortBetween a l r cmp = some a := if_pos hrl.le
    refine ⟨a, hsort, hbetween, rfl, .refl _, fun _ _ => rfl, ?_⟩
    intro i j x y hli hij hjr
    omega
  · obtain ⟨a', hsort, hre, hsorted⟩ := sortWithin_spec
      (n := a.length + 1) hcmp hl hr (by omega) (by omega)
    have hbetween : sortBetween a l r cmp = sort a l r cmp := by
      apply sortWithinChecked_eq hcmp _ _ hl hr (by omega)
      · exact fun i hi => hi
      · exact fun i hi => hi
    exact ⟨a', hsort, hbetween.trans hsort, hre.perm.length_eq,
      hre.slice_perm, hre.outside, hsorted⟩

/-- The middle three of five numbers are sorted. -/
theorem sort_range_middle :
    ∃ a', sort [5, 4, 3, 2, 1] 1 3 (fun x y : ℕ => decide (x < y)) = some a' ∧
      sortBetween [5, 4, 3, 2, 1] 1 3 (fun x y : ℕ => decide (x < y)) =
        some a' ∧
      a'.length = 5 ∧
      (slice a' 1 3).Perm (slice [5, 4, 3, 2, 1] 1 3) ∧
      (∀ i, i < 1 ∨ 3 < i → atIndex a' i = atIndex [5, 4, 3, 2, 1] i) ∧
      SortedRange (fun x y : ℕ => decide (x < y)) a' 1 3 :=
  sort_range (.of_key (f := fun x => x) fun _ _ => decide_eq_true_iff)
    [5, 4, 3, 2, 1] 1 3 (Or.inr (by decide))

end TicketSystem.Backend
