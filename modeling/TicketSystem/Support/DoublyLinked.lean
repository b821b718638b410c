import Mathlib

/-!
# Doubly linked lists

Nodes are addresses and a link is an address or null.  `Segment next prev p ps
q` says that from the node `p` the links lead over the nodes `ps` to `q`, and
back.  A list that ends with null is a segment to `none`.
-/

namespace TicketSystem.Support

variable {α : Type*}

/-- `if (p) p->field = v`. -/
def storeAt (field : ℕ → α) : Option ℕ → α → ℕ → α
  | none, _ => field
  | some p, v => Function.update field p v

theorem storeAt_of_ne {field : ℕ → α} {p : Option ℕ} {v : α} {r : ℕ}
    (h : p ≠ some r) : storeAt field p v r = field r := by
  cases p with
  | none => rfl
  | some p =>
      have hr : r ≠ p := fun hr => h (congrArg some hr.symm)
      rw [storeAt, Function.update_of_ne hr]

@[simp] theorem storeAt_self {field : ℕ → α} {p : ℕ} {v : α} :
    storeAt field (some p) v p = v := by
  rw [storeAt, Function.update_self]

/-- Writing what is there somewhere else. -/
theorem storeAt_keep {field : ℕ → α} {p : Option ℕ} {r : ℕ} :
    storeAt field p (field r) r = field r := by
  by_cases h : p = some r
  · rw [h, storeAt_self]
  · exact storeAt_of_ne h

/-- The nodes `ps` lie between `p` and `q`. -/
def Segment (next prev : ℕ → Option ℕ) : ℕ → List ℕ → Option ℕ → Prop
  | p, [], q => next p = q ∧ ∀ r ∈ q, prev r = some p
  | p, r :: rs, q => next p = some r ∧ prev r = some p ∧ Segment next prev r rs q

variable {next prev next' prev' : ℕ → Option ℕ} {p x : ℕ} {ps as bs : List ℕ}
  {q : Option ℕ}

theorem segment_append :
    Segment next prev p (as ++ x :: bs) q ↔
      Segment next prev p as (some x) ∧ Segment next prev x bs q := by
  induction as generalizing p with
  | nil => simp [Segment, and_assoc]
  | cons a as ih => simp [Segment, ih, and_assoc]

/-- A segment depends on the links between its nodes only. -/
theorem Segment.congr (h : Segment next prev p ps q)
    (hnext : ∀ r ∈ p :: ps, next' r = next r)
    (hprev : ∀ r ∈ ps ++ q.toList, prev' r = prev r) :
    Segment next' prev' p ps q := by
  induction ps generalizing p with
  | nil =>
      obtain ⟨hp, hq⟩ := h
      refine ⟨(hnext p List.mem_cons_self).trans hp, fun r hr => ?_⟩
      rw [hprev r (by simpa using hr), hq r hr]
  | cons r rs ih =>
      obtain ⟨hp, hr, hrest⟩ := h
      refine ⟨(hnext p List.mem_cons_self).trans hp, ?_, ?_⟩
      · rw [hprev r (by simp), hr]
      · apply ih hrest
        · exact fun s hs => hnext s (List.mem_cons_of_mem p hs)
        · exact fun s hs => hprev s (List.mem_cons_of_mem r hs)

/-- Read from its end, a segment is a segment for the exchanged links. -/
theorem Segment.reverse {t : ℕ} (h : Segment next prev p ps (some t)) :
    Segment prev next t ps.reverse (some p) := by
  induction ps generalizing p with
  | nil =>
      obtain ⟨hp, ht⟩ := h
      refine ⟨ht t rfl, fun r hr => ?_⟩
      obtain rfl := Option.mem_some_iff.mp hr
      exact hp
  | cons r rs ih =>
      obtain ⟨hp, hr, hrest⟩ := h
      rw [List.reverse_cons, segment_append]
      refine ⟨ih hrest, hr, fun s hs => ?_⟩
      obtain rfl := Option.mem_some_iff.mp hs
      exact hp

/-- The node before the end of a segment. -/
theorem Segment.exists_last {t : ℕ} (h : Segment next prev p ps (some t)) :
    ∃ y ∈ p :: ps, prev t = some y ∧ next y = some t := by
  induction ps generalizing p with
  | nil => exact ⟨p, List.mem_cons_self, h.2 t rfl, h.1⟩
  | cons r rs ih =>
      obtain ⟨y, hy, hlinks⟩ := ih h.2.2
      exact ⟨y, List.mem_cons_of_mem p hy, hlinks⟩

/-- The node after the start of a segment. -/
theorem Segment.next_mem (h : Segment next prev p ps q) {r : ℕ}
    (hr : next p = some r) : r ∈ ps ++ q.toList := by
  cases ps with
  | nil =>
      obtain rfl : q = some r := h.1.symm.trans hr
      simp
  | cons s ss =>
      obtain rfl : s = r := Option.some.inj (h.1.symm.trans hr)
      simp

/-! ## Insertion -/

/-- The forward links after `x` was put behind `p`. -/
def linkNext (next : ℕ → Option ℕ) (x p : ℕ) : ℕ → Option ℕ :=
  Function.update (Function.update next x (next p)) p (some x)

/-- The backward links after `x` was put behind `p`. -/
def linkPrev (next prev : ℕ → Option ℕ) (x p : ℕ) : ℕ → Option ℕ :=
  Function.update (storeAt prev (next p) (some x)) x (some p)

theorem linkNext_of_ne {r : ℕ} (hp : r ≠ p) (hx : r ≠ x) :
    linkNext next x p r = next r := by
  rw [linkNext, Function.update_of_ne hp, Function.update_of_ne hx]

theorem linkPrev_of_ne {r : ℕ} (hp : next p ≠ some r) (hx : r ≠ x) :
    linkPrev next prev x p r = prev r := by
  rw [linkPrev, Function.update_of_ne hx, storeAt_of_ne hp]

/-- A segment away from the place of the insertion. -/
theorem Segment.link_frame {r : ℕ} (h : Segment next prev r ps q)
    (hx : x ∉ r :: ps ++ q.toList) (hp : p ∉ r :: ps)
    (hnext : ∀ s, next p = some s → s ∉ ps ++ q.toList) :
    Segment (linkNext next x p) (linkPrev next prev x p) r ps q := by
  apply h.congr
  · intro s hs
    exact linkNext_of_ne (ne_of_mem_of_not_mem hs hp)
      (ne_of_mem_of_not_mem (List.mem_append_left _ hs) hx)
  · intro s hs
    exact linkPrev_of_ne (fun hps => hnext s hps hs)
      (ne_of_mem_of_not_mem (List.mem_cons_of_mem r hs) hx)

theorem Segment.link (h : Segment next prev p ps q)
    (hnodup : (p :: ps ++ q.toList).Nodup) (hx : x ∉ p :: ps ++ q.toList) :
    Segment (linkNext next x p) (linkPrev next prev x p) p (x :: ps) q := by
  have hxp : x ≠ p := fun hxp => hx (hxp ▸ List.mem_cons_self)
  have hpnext : linkNext next x p p = some x := Function.update_self ..
  have hxnext : linkNext next x p x = next p := by
    rw [linkNext, Function.update_of_ne hxp, Function.update_self]
  have hxprev : linkPrev next prev x p x = some p := Function.update_self ..
  have hafter : ∀ r, next p = some r → linkPrev next prev x p r = some x := by
    intro r hr
    have hrx : r ≠ x := by
      rintro rfl
      exact hx (List.mem_cons_of_mem p (h.next_mem hr))
    rw [linkPrev, Function.update_of_ne hrx, hr, storeAt_self]
  refine ⟨hpnext, hxprev, ?_⟩
  cases ps with
  | nil => exact ⟨hxnext.trans h.1, fun r hr => hafter r (h.1.trans hr)⟩
  | cons r rs =>
      obtain ⟨hpr, hrp, hrest⟩ := h
      refine ⟨hxnext.trans hpr, hafter r hpr, ?_⟩
      obtain ⟨hpfresh, hrfresh⟩ := List.nodup_cons.mp hnodup
      apply hrest.link_frame
      · exact fun hmem => hx (List.mem_cons_of_mem p hmem)
      · exact fun hmem => hpfresh (List.mem_append_left _ hmem)
      · rintro s hs hmem
        obtain rfl : r = s := Option.some.inj (hpr.symm.trans hs)
        exact (List.nodup_cons.mp hrfresh).1 hmem

/-- Insertion before the end of a segment. -/
theorem Segment.link_before {t : ℕ} (h : Segment next prev p ps (some t))
    (hnodup : (p :: ps ++ [t]).Nodup) (hx : x ∉ p :: ps ++ [t]) :
    Segment (linkPrev prev next x t) (linkNext prev x t) p (ps ++ [x])
      (some t) := by
  have hperm : (t :: ps.reverse ++ [p]).reverse = p :: ps ++ [t] := by simp
  have hlinked := h.reverse.link (x := x)
    (by
      rw [← List.nodup_reverse]
      exact hperm ▸ hnodup)
    (by
      rw [← List.mem_reverse]
      exact hperm ▸ hx)
  have hback := hlinked.reverse
  rwa [List.reverse_cons, List.reverse_reverse] at hback

/-! ## Removal -/

/-- A segment away from the place of the removal. -/
theorem Segment.unlink_frame {r : ℕ} (h : Segment next prev r ps q)
    (hprev : ∀ s, prev x = some s → s ∉ r :: ps)
    (hnext : ∀ s, next x = some s → s ∉ ps ++ q.toList) :
    Segment (storeAt next (prev x) (next x)) (storeAt prev (next x) (prev x))
      r ps q := by
  apply h.congr
  · exact fun s hs => storeAt_of_ne fun hxs => hprev s hxs hs
  · exact fun s hs => storeAt_of_ne fun hxs => hnext s hxs hs

theorem Segment.unlink (h : Segment next prev p (as ++ x :: bs) q)
    (hnodup : (p :: (as ++ x :: bs) ++ q.toList).Nodup) :
    Segment (storeAt next (prev x) (next x)) (storeAt prev (next x) (prev x))
      p (as ++ bs) q := by
  obtain ⟨hbefore, hafter⟩ := segment_append.mp h
  induction as generalizing p with
  | nil =>
      obtain ⟨hpx, hxp⟩ := hbefore
      have hxp : prev x = some p := hxp x rfl
      rw [hxp]
      obtain ⟨hpfresh, hxnodup⟩ := List.nodup_cons.mp hnodup
      cases bs with
      | nil =>
          refine ⟨storeAt_self.trans hafter.1, fun r hr => ?_⟩
          rw [hafter.1.trans hr, storeAt_self]
      | cons r rs =>
          obtain ⟨hxr, hrx, hrest⟩ := hafter
          refine ⟨storeAt_self.trans hxr, ?_, ?_⟩
          · rw [hxr, storeAt_self]
          · rw [← hxp]
            apply hrest.unlink_frame
            · rintro s hs hmem
              obtain rfl : p = s := Option.some.inj (hxp.symm.trans hs)
              exact hpfresh (List.mem_append_left _
                (List.mem_cons_of_mem x hmem))
            · rintro s hs hmem
              obtain rfl : r = s := Option.some.inj (hxr.symm.trans hs)
              exact (List.nodup_cons.mp (List.nodup_cons.mp hxnodup).2).1 hmem
  | cons a as ih =>
      obtain ⟨hpa, hap, hrest⟩ := hbefore
      obtain ⟨hpfresh, hnodup'⟩ := List.nodup_cons.mp hnodup
      refine ⟨?_, ?_, ih (segment_append.mpr ⟨hrest, hafter⟩) hnodup' hrest⟩
      · obtain ⟨y, hy, hxy, -⟩ := hrest.exists_last
        rw [storeAt_of_ne, hpa]
        rintro hxp
        obtain rfl : y = p := Option.some.inj (hxy.symm.trans hxp)
        apply hpfresh
        simp only [List.append_eq, List.mem_append, List.mem_cons] at hy ⊢
        tauto
      · rw [storeAt_of_ne, hap]
        intro hxa
        have hmem := hafter.next_mem hxa
        have hafresh := (List.nodup_cons.mp hnodup').1
        apply hafresh
        simp only [List.append_eq, List.mem_append, List.mem_cons] at hmem ⊢
        tauto

/-! ## Walks -/

/-- The nodes from `p` on up to `stop`. -/
def walk (next : ℕ → Option ℕ) (stop : Option ℕ) :
    ℕ → Option ℕ → Option (List ℕ)
  | 0, p => if p = stop then some [] else none
  | fuel + 1, p =>
      if p = stop then some []
      else p.bind fun p => (walk next stop fuel (next p)).map (p :: ·)

theorem Segment.walk (h : Segment next prev p ps q)
    (hq : ∀ r ∈ ps, q ≠ some r) {fuel : ℕ} (hfuel : ps.length ≤ fuel) :
    Support.walk next q fuel (next p) = some ps := by
  induction ps generalizing p fuel with
  | nil =>
      rw [h.1]
      cases fuel <;> simp [Support.walk]
  | cons r rs ih =>
      obtain ⟨hp, -, hrest⟩ := h
      obtain ⟨fuel, rfl⟩ : ∃ n, fuel = n + 1 :=
        Nat.exists_eq_succ_of_ne_zero (Nat.ne_of_gt
          (lt_of_lt_of_le (Nat.succ_pos rs.length) hfuel))
      have hne : some r ≠ q := (hq r List.mem_cons_self).symm
      rw [hp, Support.walk, if_neg hne, Option.bind_some,
        ih hrest (fun s hs => hq s (List.mem_cons_of_mem r hs))
          (Nat.le_of_succ_le_succ hfuel), Option.map_some]

end TicketSystem.Support
