import Mathlib

/-!
# Lists in pieces

A position in a list is given by what stands before it: `before ++ a :: after`
has `a` at the index `before.length`.  The operations on an index change the
piece there and leave the others.
-/

namespace TicketSystem.Support

variable {α β : Type*}

theorem getElem?_pieces (before after : List α) (a : α) :
    (before ++ a :: after)[before.length]? = some a := by
  simp

theorem insertIdx_pieces (before after : List α) (a : α) :
    (before ++ after).insertIdx before.length a = before ++ a :: after := by
  induction before with
  | nil => rfl
  | cons b before ih => simpa using ih

theorem eraseIdx_pieces (before after : List α) (a : α) :
    (before ++ a :: after).eraseIdx before.length = before ++ after := by
  rw [List.eraseIdx_append_of_length_le (le_refl _), Nat.sub_self,
    List.eraseIdx_cons_zero]

theorem modify_pieces (before after : List α) (a : α) (f : α → α) :
    (before ++ a :: after).modify before.length f =
      before ++ f a :: after := by
  induction before with
  | nil => rfl
  | cons b before ih => simpa using ih

theorem findIdx?_pieces (before after : List α) (a : α) (p : α → Bool)
    (hbefore : ∀ b ∈ before, p b = false) (ha : p a = true) :
    (before ++ a :: after).findIdx? p = some before.length := by
  induction before with
  | nil => simp [List.findIdx?_cons, ha]
  | cons b before ih =>
      rw [List.cons_append, List.findIdx?_cons,
        hbefore b List.mem_cons_self,
        ih fun b' hb' => hbefore b' (List.mem_cons_of_mem b hb')]
      rfl

/-- A list can be cut before any of its positions. -/
theorem exists_pieces {xs : List α} {n : ℕ} (h : n < xs.length) :
    ∃ before x after, xs = before ++ x :: after ∧ before.length = n := by
  refine ⟨xs.take n, xs[n], xs.drop (n + 1), ?_, ?_⟩
  · rw [← List.drop_eq_getElem_cons h, List.take_append_drop]
  · rw [List.length_take]
    exact min_eq_left h.le

/-- A list in order is cut where a property that passes to what comes before
ceases to hold. -/
theorem exists_cut_of_pairwise {R : α → α → Prop} {xs : List α}
    (hxs : xs.Pairwise R) {P : α → Prop} (hP : ∀ a b, R a b → P b → P a) :
    ∃ before after, xs = before ++ after ∧ (∀ a ∈ before, P a) ∧
      ∀ a ∈ after, ¬ P a := by
  induction xs with
  | nil => exact ⟨[], [], rfl, by simp, by simp⟩
  | cons x xs ih =>
      rw [List.pairwise_cons] at hxs
      by_cases hx : P x
      · obtain ⟨before, after, rfl, hbefore, hafter⟩ := ih hxs.2
        refine ⟨x :: before, after, rfl, ?_, hafter⟩
        intro a ha
        rcases List.mem_cons.mp ha with rfl | ha
        · exact hx
        · exact hbefore a ha
      · refine ⟨[], x :: xs, rfl, by simp, ?_⟩
        intro a ha hPa
        rcases List.mem_cons.mp ha with rfl | ha
        · exact hx hPa
        · exact hx (hP x a (hxs.1 a ha) hPa)

/-- What stands at a position of a flattened list stands in one of the lists
it was made of. -/
theorem exists_pieces_of_flatMap {f : α → List β} {xs : List α}
    {before after : List β} {b : β}
    (h : xs.flatMap f = before ++ b :: after) :
    ∃ xs₁ x xs₂ ys₁ ys₂, xs = xs₁ ++ x :: xs₂ ∧ f x = ys₁ ++ b :: ys₂ ∧
      before = xs₁.flatMap f ++ ys₁ ∧ after = ys₂ ++ xs₂.flatMap f := by
  induction xs generalizing before with
  | nil =>
      rw [List.flatMap_nil] at h
      exact absurd h.symm (by simp)
  | cons x xs ih =>
      rw [List.flatMap_cons, List.append_eq_append_iff] at h
      rcases h with ⟨rest, rfl, hrest⟩ | ⟨rest, hx, hrest⟩
      · obtain ⟨xs₁, x', xs₂, ys₁, ys₂, rfl, hx', rfl, rfl⟩ := ih hrest
        exact ⟨x :: xs₁, x', xs₂, ys₁, ys₂, rfl, hx', by simp, rfl⟩
      · cases rest with
        | nil =>
            rw [List.nil_append] at hrest
            obtain ⟨xs₁, x', xs₂, ys₁, ys₂, rfl, hx', hys₁, rfl⟩ :=
              ih (show xs.flatMap f = [] ++ b :: after from hrest.symm)
            obtain ⟨hnil, rfl⟩ := List.append_eq_nil_iff.mp hys₁.symm
            refine ⟨x :: xs₁, x', xs₂, [], ys₂, rfl, hx', ?_, rfl⟩
            rw [List.append_nil] at hx
            simp [hnil, hx]
        | cons b' rest =>
            obtain ⟨rfl, rfl⟩ := List.cons.inj hrest
            exact ⟨[], x, xs, before, rest, rfl, hx, rfl, rfl⟩

/-! ## Lists that are related item by item -/

variable {R : α → β → Prop}

/-- Both lists can be cut where one of them is. -/
theorem forall₂_append_left {xs₁ xs₂ : List α} {ys : List β}
    (h : List.Forall₂ R (xs₁ ++ xs₂) ys) :
    ∃ ys₁ ys₂, ys = ys₁ ++ ys₂ ∧ List.Forall₂ R xs₁ ys₁ ∧
      List.Forall₂ R xs₂ ys₂ := by
  induction xs₁ generalizing ys with
  | nil => exact ⟨[], ys, rfl, .nil, h⟩
  | cons x xs₁ ih =>
      obtain ⟨y, ys', hxy, hrest, rfl⟩ := List.forall₂_cons_left_iff.mp h
      obtain ⟨ys₁, ys₂, rfl, h₁, h₂⟩ := ih hrest
      exact ⟨y :: ys₁, ys₂, rfl, .cons hxy h₁, h₂⟩

theorem forall₂_append_right {xs : List α} {ys₁ ys₂ : List β}
    (h : List.Forall₂ R xs (ys₁ ++ ys₂)) :
    ∃ xs₁ xs₂, xs = xs₁ ++ xs₂ ∧ List.Forall₂ R xs₁ ys₁ ∧
      List.Forall₂ R xs₂ ys₂ := by
  obtain ⟨xs₁, xs₂, rfl, h₁, h₂⟩ := forall₂_append_left h.flip
  exact ⟨xs₁, xs₂, rfl, h₁.flip, h₂.flip⟩

theorem forall₂_pieces_left {xs₁ xs₂ : List α} {x : α} {ys : List β}
    (h : List.Forall₂ R (xs₁ ++ x :: xs₂) ys) :
    ∃ ys₁ y ys₂, ys = ys₁ ++ y :: ys₂ ∧ List.Forall₂ R xs₁ ys₁ ∧ R x y ∧
      List.Forall₂ R xs₂ ys₂ := by
  obtain ⟨ys₁, ys', rfl, h₁, h₂⟩ := forall₂_append_left h
  obtain ⟨y, ys₂, hxy, hrest, rfl⟩ := List.forall₂_cons_left_iff.mp h₂
  exact ⟨ys₁, y, ys₂, rfl, h₁, hxy, hrest⟩

theorem forall₂_pieces_right {xs : List α} {ys₁ ys₂ : List β} {y : β}
    (h : List.Forall₂ R xs (ys₁ ++ y :: ys₂)) :
    ∃ xs₁ x xs₂, xs = xs₁ ++ x :: xs₂ ∧ List.Forall₂ R xs₁ ys₁ ∧ R x y ∧
      List.Forall₂ R xs₂ ys₂ := by
  obtain ⟨xs₁, x, xs₂, rfl, h₁, hxy, h₂⟩ := forall₂_pieces_left h.flip
  exact ⟨xs₁, x, xs₂, rfl, h₁.flip, hxy, h₂.flip⟩

theorem exists_of_forall₂_left {xs : List α} {ys : List β}
    (h : List.Forall₂ R xs ys) {x : α} (hx : x ∈ xs) : ∃ y ∈ ys, R x y := by
  obtain ⟨xs₁, xs₂, rfl⟩ := List.append_of_mem hx
  obtain ⟨ys₁, y, ys₂, rfl, -, hxy, -⟩ := forall₂_pieces_left h
  exact ⟨y, by simp, hxy⟩

theorem exists_of_forall₂_right {xs : List α} {ys : List β}
    (h : List.Forall₂ R xs ys) {y : β} (hy : y ∈ ys) : ∃ x ∈ xs, R x y := by
  obtain ⟨x, hx, hxy⟩ := exists_of_forall₂_left h.flip hy
  exact ⟨x, hx, hxy⟩

/-- What is related to the items of a list stays so when the relation changes
as far as these items do not notice. -/
theorem forall₂_imp_of_mem {S : α → β → Prop} {xs : List α} {ys : List β}
    (h : List.Forall₂ R xs ys)
    (himp : ∀ x y, x ∈ xs → y ∈ ys → R x y → S x y) :
    List.Forall₂ S xs ys := by
  induction h with
  | nil => exact .nil
  | cons hxy _ ih =>
      refine .cons (himp _ _ List.mem_cons_self List.mem_cons_self hxy) ?_
      exact ih fun x y hx hy =>
        himp x y (List.mem_cons_of_mem _ hx) (List.mem_cons_of_mem _ hy)

end TicketSystem.Support
