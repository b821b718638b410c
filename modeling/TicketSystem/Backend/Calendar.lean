import TicketSystem.Backend.Library

/-!
# Reading and printing dates

`TimeType` has a table of three months and starts in June.  It reads a date
from June to September as its day of the calendar and prints it again; an
earlier date is read as the same day of June, and a later one cannot be read.
-/

namespace TicketSystem.Backend

/-! ## The calendar of 2021 -/

def daysOfMonth (month : ℤ) : ℤ :=
  if month = 2 then 28
  else if month ∈ [4, 6, 9, 11] then 30
  else 31

/-- The day of a date. -/
def dayOf (s : String) : ℤ :=
  stringToInt (String.ofList ((s.toList.drop 3).take 2))

/-- A date `mm-dd` that exists in 2021. -/
def isCalendarDate (s : String) : Bool :=
  isDate 1 12 s && dayOf s ≤ daysOfMonth (monthOf s)

/-- The days from 06-01 to a date. -/
def calendarDay (s : String) : ℤ :=
  ((List.range' 1 (monthOf s - 1).toNat).map fun k : ℕ => daysOfMonth k).sum +
    dayOf s - 152

variable {s : String}

/-- What a date looks like, with its digits. -/
theorem isDate_digits {lo hi : ℤ} (h : isDate lo hi s) :
    ∃ m₁ m₂ d₁ d₂, s.toList = [m₁, m₂, '-', d₁, d₂] ∧
      [m₁, m₂, d₁, d₂].all Char.isDigit ∧
      (lo ≤ monthOf s ∧ monthOf s ≤ hi) ∧ 1 ≤ dayOf s := by
  unfold isDate at h
  split at h
  next m₁ m₂ d₁ d₂ hs =>
    simp only [Bool.and_eq_true, decide_eq_true_eq] at h
    obtain ⟨⟨⟨⟨hdigits, hlo⟩, hhi⟩, hone⟩, -⟩ := h
    have hmonth : monthOf s = stringToInt (String.ofList [m₁, m₂]) := by
      rw [monthOf, hs]
      rfl
    have hday : dayOf s = stringToInt (String.ofList [d₁, d₂]) := by
      rw [dayOf, hs]
      rfl
    rw [← hmonth] at hlo hhi
    rw [← hday] at hone
    exact ⟨m₁, m₂, d₁, d₂, hs, hdigits, ⟨hlo, hhi⟩, hone⟩
  next => cases h

theorem isCalendarDate_iff :
    isCalendarDate s ↔
      isDate 1 12 s ∧ dayOf s ≤ daysOfMonth (monthOf s) := by
  rw [isCalendarDate, Bool.and_eq_true, decide_eq_true_eq]

/-- The days before June come before the days that the program counts. -/
theorem calendarDay_neg (h : isCalendarDate s) (hmonth : monthOf s < 6) :
    calendarDay s < 0 := by
  obtain ⟨hdate, hlast⟩ := isCalendarDate_iff.mp h
  obtain ⟨-, -, -, -, -, -, ⟨hlo, -⟩, -⟩ := isDate_digits hdate
  unfold calendarDay
  generalize monthOf s = month at *
  interval_cases month
  all_goals
    simp [daysOfMonth, List.range'_succ] at hlast ⊢
    omega

/-- From June on the days are counted with the table of the program. -/
theorem calendarDay_eq (hlo : 6 ≤ monthOf s) (hhi : monthOf s ≤ 9) :
    calendarDay s =
      (Month.take (monthOf s - 6).toNat).sum + (dayOf s - 1) := by
  unfold calendarDay
  generalize monthOf s = month at *
  interval_cases month
  all_goals
    simp [daysOfMonth, List.range'_succ, Month]
    omega

/-- Whole months have no negative length. -/
theorem sum_take_Month_nonneg (n : ℕ) : 0 ≤ (Month.take n).sum := by
  apply List.sum_nonneg
  intro m hm
  have hall : ∀ m ∈ Month, 0 ≤ m := by decide
  exact hall m (List.mem_of_mem_take hm)

theorem calendarDay_nonneg (h : isCalendarDate s) (hlo : 6 ≤ monthOf s)
    (hhi : monthOf s ≤ 9) : 0 ≤ calendarDay s := by
  obtain ⟨-, -, -, -, -, -, -, hone⟩ :=
    isDate_digits (isCalendarDate_iff.mp h).1
  have hsum := sum_take_Month_nonneg (monthOf s - 6).toNat
  rw [calendarDay_eq hlo hhi]
  omega

/-! ## Reading -/

namespace TimeType

/-- How midnight of a date is read. -/
theorem ofString_midnight {lo hi : ℤ} (h : isDate lo hi s) :
    ofString (s ++ " 00:00") =
      if 3 < monthOf s - 6 then none
      else some (((Month.take (monthOf s - 6).toNat).sum +
        (dayOf s - 1)) * 1440) := by
  obtain ⟨m₁, m₂, d₁, d₂, hs, -⟩ := isDate_digits h
  obtain ⟨h₁, h₂, h₃, h₄⟩ := substr_midnight hs
  have hmonth : monthOf s = stringToInt (String.ofList [m₁, m₂]) := by
    rw [monthOf, hs]
    rfl
  have hday : dayOf s = stringToInt (String.ofList [d₁, d₂]) := by
    rw [dayOf, hs]
    rfl
  have hzero : stringToInt "00" * 60 + stringToInt "00" = 0 := by decide
  simp only [ofString, h₁, h₂, h₃, h₄, Option.bind_eq_bind,
    Option.bind_some, hzero, add_zero, ← hmonth, ← hday,
    List.sum_map_mul_right, List.map_id', add_mul]

/-- No date lies before 06-01. -/
theorem ofString_nonneg {lo hi : ℤ} (h : isDate lo hi s) {t : ℤ}
    (ht : ofString (s ++ " 00:00") = some t) : 0 ≤ t := by
  obtain ⟨-, -, -, -, -, -, -, hone⟩ := isDate_digits h
  have hsum := sum_take_Month_nonneg (monthOf s - 6).toNat
  rw [ofString_midnight h] at ht
  split_ifs at ht
  obtain rfl := Option.some.inj ht
  apply mul_nonneg _ (by decide)
  omega

/-- A date from June to September is read as its day. -/
theorem ofString_summer (h : isCalendarDate s) (hlo : 6 ≤ monthOf s)
    (hhi : monthOf s ≤ 9) :
    ofString (s ++ " 00:00") = some (calendarDay s * 1440) := by
  rw [ofString_midnight (isCalendarDate_iff.mp h).1, if_neg (by omega),
    calendarDay_eq hlo hhi]

/-- A date before June is read as the same day of June. -/
theorem ofString_early (h : isCalendarDate s) (hmonth : monthOf s < 6) :
    ofString (s ++ " 00:00") = some ((dayOf s - 1) * 1440) := by
  have hnone : (monthOf s - 6).toNat = 0 := by omega
  rw [ofString_midnight (isCalendarDate_iff.mp h).1, if_neg (by omega),
    hnone, List.take_zero, List.sum_nil, zero_add]

/-- A date after September is beyond the table. -/
theorem ofString_late (h : isCalendarDate s) (hmonth : 9 < monthOf s) :
    ofString (s ++ " 00:00") = none := by
  rw [ofString_midnight (isCalendarDate_iff.mp h).1, if_pos (by omega)]

/-! ## Days and times -/

theorem getTime_nonneg {t : ℤ} (h : 0 ≤ t) : 0 ≤ getTime t :=
  Int.tmod_nonneg 1440 h

theorem getTime_lt (t : ℤ) : getTime t < 1440 :=
  Int.tmod_lt_of_pos t (by decide)

theorem getDate_nonneg {t : ℤ} (h : 0 ≤ t) : 0 ≤ getDate t := by
  have hle : t % 1440 ≤ t := by omega
  rw [getDate, Int.tmod_eq_emod_of_nonneg h]
  exact sub_nonneg.mpr hle

/-- A moment of a whole day belongs to that day. -/
theorem getDate_mul_add {day r : ℤ} (hday : 0 ≤ day) (hr : 0 ≤ r)
    (hr' : r < 1440) : getDate (day * 1440 + r) = day * 1440 := by
  have hrest : (day * 1440 + r) % 1440 = r := by omega
  rw [getDate, Int.tmod_eq_emod_of_nonneg (by omega), hrest]
  exact add_sub_cancel_right _ _

/-! ## Printing -/

/-- Two digits are printed as they were read. -/
theorem pad_stringToInt {c₁ c₂ : Char} (h₁ : c₁.isDigit) (h₂ : c₂.isDigit) :
    pad (toString (stringToInt (String.ofList [c₁, c₂]))) =
      String.ofList [c₁, c₂] := by
  have hdigit : ∀ c : Char, c.isDigit → ∃ n < 10, c = Nat.digitChar n := by
    intro c hc
    simp only [Char.isDigit, Bool.and_eq_true, decide_eq_true_eq] at hc
    have hge : 48 ≤ c.toNat := hc.1
    have hle : c.toNat ≤ 57 := hc.2
    refine ⟨c.toNat - 48, by omega, ?_⟩
    rw [← Char.ofNat_toNat c]
    generalize c.toNat = n at hge hle
    interval_cases n <;> decide
  have hall : ∀ n₁ < 10, ∀ n₂ < 10,
      pad (toString (stringToInt
          (String.ofList [Nat.digitChar n₁, Nat.digitChar n₂]))) =
        String.ofList [Nat.digitChar n₁, Nat.digitChar n₂] := by
    decide +kernel
  obtain ⟨n₁, hn₁, rfl⟩ := hdigit c₁ h₁
  obtain ⟨n₂, hn₂, rfl⟩ := hdigit c₂ h₂
  exact hall n₁ hn₁ n₂ hn₂

/-- Counting days in months finds the date again. -/
theorem splitMonths_calendarDay (h : isCalendarDate s)
    (hlo : 6 ≤ monthOf s) (hhi : monthOf s ≤ 9) :
    splitMonths Month (calendarDay s + 1) 6 = (dayOf s, monthOf s) := by
  obtain ⟨hdate, hlast⟩ := isCalendarDate_iff.mp h
  obtain ⟨-, -, -, -, -, -, -, hone⟩ := isDate_digits hdate
  rw [calendarDay_eq hlo hhi]
  generalize monthOf s = month at *
  interval_cases month
  all_goals
    simp [daysOfMonth] at hlast
    simp only [Month, splitMonths]
    split_ifs <;> simp at * <;> omega

/-- A moment of a day from June to September is printed with its date. -/
theorem transfer_calendarDay (h : isCalendarDate s) (hlo : 6 ≤ monthOf s)
    (hhi : monthOf s ≤ 9) {r : ℤ} (hr : 0 ≤ r) (hr' : r < 1440) :
    ∃ clock, transfer (calendarDay s * 1440 + r) = s ++ " " ++ clock := by
  obtain ⟨m₁, m₂, d₁, d₂, hs, hdigits, -⟩ :=
    isDate_digits (isCalendarDate_iff.mp h).1
  simp only [List.all_cons, List.all_nil, Bool.and_true,
    Bool.and_eq_true] at hdigits
  obtain ⟨hm₁, hm₂, hd₁, hd₂⟩ := hdigits
  have hday := calendarDay_nonneg h hlo hhi
  have hdays : Int.tdiv (calendarDay s * 1440 + r) 1440 = calendarDay s := by
    rw [Int.tdiv_eq_ediv_of_nonneg (by omega)]
    omega
  have hmonths : pad (toString (monthOf s)) = String.ofList [m₁, m₂] := by
    rw [monthOf, hs]
    exact pad_stringToInt hm₁ hm₂
  have hdates : pad (toString (dayOf s)) = String.ofList [d₁, d₂] := by
    rw [dayOf, hs]
    exact pad_stringToInt hd₁ hd₂
  have hwhole : s = String.ofList [m₁, m₂] ++ "-" ++ String.ofList [d₁, d₂] := by
    rw [← String.toList_inj, hs]
    simp
  have hclock : ∀ hour min : String,
      s ++ " " ++ hour ++ ":" ++ min = s ++ " " ++ (hour ++ ":" ++ min) := by
    intro hour min
    simp only [String.append_assoc]
  unfold transfer
  rw [hdays, splitMonths_calendarDay h hlo hhi]
  simp only [hmonths, hdates, ← hwhole]
  exact ⟨_, hclock _ _⟩

end TimeType

end TicketSystem.Backend
