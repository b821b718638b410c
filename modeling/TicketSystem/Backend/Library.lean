import Mathlib

/-!
# Numbers, dates and times

`TimeType` counts minutes from 06-01 00:00.  Strings are read and printed by
the conversions of the header, including the places where it leaves defined
behaviour: a `substr` beyond the end of the string throws, and a month after
September would index past the three entries of `Month`.  Both are `none`
here.
-/

namespace TicketSystem.Backend

/-- `string_to_int`: every character counts as a decimal digit. -/
def stringToInt (s : String) : ℤ :=
  s.toList.foldl (fun t c => t * 10 + c.toNat - '0'.toNat) 0

/-- `std::string::substr`, which throws when it starts past the end. -/
def substr (s : String) (pos len : ℕ) : Option String :=
  if pos ≤ s.length then
    some (String.ofList ((s.toList.drop pos).take len))
  else none

/-- `Month`: the days of June, July and August. -/
def Month : List ℤ := [30, 31, 31]

/-- Minutes since 06-01 00:00. -/
abbrev TimeType := ℤ

namespace TimeType

def minutesPerDay : ℤ := 1440

/-- `TimeType(const string &)` on `Month-Day Hour:Minute`. -/
def ofString (s : String) : Option TimeType := do
  let month := stringToInt (← substr s 0 2)
  let day := stringToInt (← substr s 3 2)
  let hour := stringToInt (← substr s 6 2)
  let min := stringToInt (← substr s 9 2)
  if 3 < month - 6 then none
  else
    let months := ((Month.take (month - 6).toNat).map (· * 1440)).sum
    some (months + (day - 1) * 1440 + (hour * 60 + min))

/-- The loop of `transfer` that turns a day count into month and day. -/
def splitMonths : List ℤ → ℤ → ℤ → ℤ × ℤ
  | [], t, cnt => (t, cnt)
  | m :: ms, t, cnt =>
      if 0 < t - m then splitMonths ms (t - m) (cnt + 1) else (t, cnt)

/-- Pad a one-character number with a zero. -/
def pad (s : String) : String := if s.length = 1 then "0" ++ s else s

/-- `transfer`: print as `Month-Day Hour:Minute`. -/
def transfer (t : TimeType) : String :=
  let rest := Int.tmod t 1440
  let min := toString (Int.tmod rest 60)
  let hour := toString (Int.tdiv rest 60)
  let (day, cnt) := splitMonths Month (Int.tdiv t 1440 + 1) 6
  pad (toString cnt) ++ "-" ++ pad (toString day) ++ " " ++ pad hour ++ ":"
    ++ pad min

/-- `get_date`: midnight of the same day. -/
def getDate (t : TimeType) : TimeType := t - Int.tmod t 1440

/-- `get_time`: the time of day. -/
def getTime (t : TimeType) : TimeType := Int.tmod t 1440

theorem getDate_add_getTime (t : TimeType) : getDate t + getTime t = t := by
  simp [getDate, getTime]

/-- A date is a whole number of days. -/
theorem dvd_getDate (t : TimeType) : (1440 : ℤ) ∣ getDate t := by
  have h := Int.mul_tdiv_add_tmod t 1440
  exact ⟨Int.tdiv t 1440, by unfold getDate; omega⟩

end TimeType

/-- `is_legal`: the month is June, July or August. -/
def isLegal (s : String) : Option Bool := do
  let month := stringToInt (← substr s 0 2)
  some (decide (¬ (month < 6 ∨ 8 < month)))

/-! ## Dates -/

/-- A date `mm-dd` with a month from `lo` to `hi`. -/
def isDate (lo hi : ℤ) (s : String) : Bool :=
  match s.toList with
  | [m₁, m₂, '-', d₁, d₂] =>
      let month := stringToInt (String.ofList [m₁, m₂])
      let day := stringToInt (String.ofList [d₁, d₂])
      [m₁, m₂, d₁, d₂].all Char.isDigit && lo ≤ month && month ≤ hi &&
        1 ≤ day && day ≤ 31
  | _ => false

/-- The month of a date. -/
def monthOf (s : String) : ℤ := stringToInt (String.ofList (s.toList.take 2))

/-- What a date looks like. -/
theorem isDate_cases {lo hi : ℤ} {s : String} (h : isDate lo hi s) :
    ∃ m₁ m₂ d₁ d₂, s.toList = [m₁, m₂, '-', d₁, d₂] ∧
      lo ≤ monthOf s ∧ monthOf s ≤ hi := by
  unfold isDate at h
  split at h
  next m₁ m₂ d₁ d₂ hs =>
    simp only [Bool.and_eq_true, decide_eq_true_eq] at h
    refine ⟨m₁, m₂, d₁, d₂, hs, ?_, ?_⟩
    · simpa [monthOf, hs] using h.1.1.1.2
    · simpa [monthOf, hs] using h.1.1.2
  next => cases h

theorem isDate_mono {lo hi hi' : ℤ} {s : String} (hle : hi ≤ hi')
    (h : isDate lo hi s) : isDate lo hi' s := by
  unfold isDate at h ⊢
  split at h
  next m₁ m₂ d₁ d₂ hs =>
    simp only [Bool.and_eq_true, decide_eq_true_eq] at h ⊢
    obtain ⟨⟨⟨⟨hdigits, hlo⟩, hhi⟩, hone⟩, hday⟩ := h
    exact ⟨⟨⟨⟨hdigits, hlo⟩, hhi.trans hle⟩, hone⟩, hday⟩
  next => cases h

theorem length_eq_of_isDate {lo hi : ℤ} {s : String} (h : isDate lo hi s) :
    s.length = 5 := by
  obtain ⟨m₁, m₂, d₁, d₂, hs, -⟩ := isDate_cases h
  rw [← String.length_toList, hs]
  rfl

/-- The pieces of a date with a time of midnight. -/
theorem substr_midnight {s : String} {a b c d e : Char}
    (hs : s.toList = [a, b, c, d, e]) :
    substr (s ++ " 00:00") 0 2 = some (String.ofList [a, b]) ∧
      substr (s ++ " 00:00") 3 2 = some (String.ofList [d, e]) ∧
      substr (s ++ " 00:00") 6 2 = some "00" ∧
      substr (s ++ " 00:00") 9 2 = some "00" := by
  have hlist : (s ++ " 00:00").toList =
      [a, b, c, d, e, ' ', '0', '0', ':', '0', '0'] := by
    rw [String.toList_append, hs]
    rfl
  have hlen : (s ++ " 00:00").length = 11 := by
    rw [← String.length_toList, hlist]
    rfl
  simp only [substr, hlen, hlist]
  exact ⟨rfl, rfl, rfl, rfl⟩

/-- A date is read as midnight of some day. -/
theorem TimeType.dvd_ofString {s : String} (hlen : s.length = 5) {t : ℤ}
    (h : TimeType.ofString (s ++ " 00:00") = some t) : 1440 ∣ t := by
  rw [← String.length_toList] at hlen
  obtain ⟨a, b, c, d, e, hs⟩ : ∃ a b c d e, s.toList = [a, b, c, d, e] := by
    match hlist : s.toList, hlen with
    | [a, b, c, d, e], _ => exact ⟨a, b, c, d, e, rfl⟩
  obtain ⟨h₁, h₂, h₃, h₄⟩ := substr_midnight hs
  simp only [TimeType.ofString, h₁, h₂, h₃, h₄, Option.bind_eq_bind,
    Option.bind_some] at h
  split at h
  next => cases h
  next =>
    obtain rfl := Option.some.inj h
    have hmonths : ∀ months : List ℤ,
        1440 ∣ (months.map (· * 1440)).sum := by
      intro months
      refine List.dvd_sum fun x hx => ?_
      obtain ⟨y, -, rfl⟩ := List.mem_map.mp hx
      exact Dvd.intro_left y rfl
    refine Dvd.dvd.add (Dvd.dvd.add (hmonths _) (Dvd.intro_left _ rfl)) ?_
    decide

/-- A date up to September can be read. -/
theorem TimeType.exists_ofString {s : String} (h : isDate 6 9 s) :
    ∃ t, TimeType.ofString (s ++ " 00:00") = some t := by
  obtain ⟨m₁, m₂, d₁, d₂, hs, -, hmonth⟩ := isDate_cases h
  obtain ⟨h₁, h₂, h₃, h₄⟩ := substr_midnight hs
  simp only [monthOf, hs, List.take] at hmonth
  simp only [TimeType.ofString, h₁, h₂, h₃, h₄, Option.bind_eq_bind,
    Option.bind_some]
  rw [if_neg (by omega)]
  exact ⟨_, rfl⟩

/-- Only dates up to August are legal. -/
theorem isLegal_of_isDate {s : String} (h : isDate 6 9 s) :
    isLegal (s ++ " 00:00") = some (decide (monthOf s ≤ 8)) := by
  obtain ⟨m₁, m₂, d₁, d₂, hs, hge, -⟩ := isDate_cases h
  obtain ⟨h₁, -⟩ := substr_midnight hs
  simp only [monthOf, hs, List.take] at hge ⊢
  simp only [isLegal, h₁, Option.bind_eq_bind, Option.bind_some,
    Option.some.injEq, decide_eq_decide]
  omega

/-- Reading a date that exists gives midnight of that day. -/
example : TimeType.ofString "08-17 05:24" = some ((30 + 31 + 16) * 1440 + 324) := by
  decide

end TicketSystem.Backend
