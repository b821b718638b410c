import TicketSystem.Backend.Command

/-!
# The buffer of a command

`Command` with its buffer and its cursor.  A read of the buffer is allowed up
to the terminating NUL; beyond it there is nothing, and the function has no
value.  What is left of the buffer behind the cursor behaves as `Command`.
-/

namespace TicketSystem.Backend

structure CommandBuffer where
  buffer : List Char
  cur : ℕ
  delimiter : Char
  cnt : ℕ

namespace CommandBuffer

/-- `buffer[i]` -/
def charAt (buffer : List Char) (i : ℕ) : Option Char :=
  (buffer ++ [Char.ofNat 0])[i]?

/-- `while (p) i++;` for a test `p` that reads `buffer[i]`. -/
def scan (buffer : List Char) (p : ℕ → Char → Bool) : ℕ → ℕ → Option ℕ
  | 0, _ => none
  | fuel + 1, i => do
      if p i (← charAt buffer i) then scan buffer p fuel (i + 1) else some i

/-- `buffer[j] != delimiter && j < len && buffer[j] != '\r'` -/
def inToken (delimiter : Char) (len j : ℕ) (x : Char) : Bool :=
  x ≠ delimiter && j < len && x ≠ '\r'

/-- The loop of `count`. -/
def countFrom (buffer : List Char) (delimiter : Char) :
    ℕ → ℕ → ℕ → Option ℕ
  | 0, _, _ => none
  | fuel + 1, i, cnt => do
      let len := buffer.length
      if len ≤ i then some cnt
      else if (← charAt buffer i) = '\r' then some cnt
      else
        let j ← scan buffer (inToken delimiter len) (len + 1) i
        let k ← scan buffer (fun j x => x = delimiter && j < len) (len + 1) j
        countFrom buffer delimiter fuel k (if i ≠ j then cnt + 1 else cnt)

/-- `count` -/
def count (c : CommandBuffer) : Option CommandBuffer := do
  let len := c.buffer.length
  let i ← scan c.buffer (fun _ x => x = c.delimiter) (len + 1) 0
  let cnt ← countFrom c.buffer c.delimiter (len + 1) i c.cnt
  some { c with cnt := cnt }

/-- `Command(const string &, char)` -/
def ofString (input : String) (delimiter : Char) : Option CommandBuffer := do
  let buffer := input.toList
  let cur ← scan buffer (fun _ x => x = delimiter) (buffer.length + 1) 0
  { buffer := buffer, cur := cur, delimiter := delimiter, cnt := 0 :
    CommandBuffer }.count

/-- `next_token` -/
def nextToken (c : CommandBuffer) : Option (String × CommandBuffer) := do
  let len := c.buffer.length
  if len ≤ c.cur then some ("", c)
  else
    let j ← scan c.buffer (inToken c.delimiter len) (len + 1) c.cur
    let k ← scan c.buffer (fun j x => x = c.delimiter && j < len && x ≠ '\r')
      (len + 1) j
    some (String.ofList ((c.buffer.drop c.cur).take (j - c.cur)),
      { c with cur := k })

/-- The results of the next `n` calls of `next_token`. -/
def calls : ℕ → CommandBuffer → Option (List String)
  | 0, _ => some []
  | n + 1, c => do
      let (token, c) ← c.nextToken
      let rest ← calls n c
      some (token :: rest)

/-! ## Scans -/

variable {buffer : List Char} {p : ℕ → Char → Bool} {q : Char → Bool}
  {delimiter : Char}

theorem charAt_of_lt {i : ℕ} (hi : i < buffer.length) :
    charAt buffer i = some buffer[i] := by
  rw [charAt, List.getElem?_append_left hi, List.getElem?_eq_getElem hi]

theorem charAt_length : charAt buffer buffer.length = some (Char.ofNat 0) := by
  simp [charAt]

/-- A scan that stops at the NUL takes the characters that pass its test. -/
theorem scan_eq (hp : ∀ j x, j < buffer.length → p j x = q x)
    (hend : p buffer.length (Char.ofNat 0) = false) {fuel i : ℕ}
    (hi : i ≤ buffer.length) (hfuel : buffer.length < fuel + i) :
    scan buffer p fuel i =
      some (i + ((buffer.drop i).takeWhile q).length) := by
  induction fuel generalizing i with
  | zero => omega
  | succ fuel ih =>
      rw [scan]
      rcases hi.eq_or_lt with rfl | hlt
      · rw [charAt_length, List.drop_length]
        change (if p _ _ = true then _ else _) = _
        rw [hend]
        rfl
      · rw [charAt_of_lt hlt, List.drop_eq_getElem_cons hlt,
          List.takeWhile_cons]
        change (if p i buffer[i] = true then _ else _) = _
        rw [hp i _ hlt]
        by_cases hq : q buffer[i] = true
        · rw [if_pos hq, if_pos hq, ih hlt (by omega), List.length_cons]
          congr 1
          simp only [Nat.succ_eq_add_one]
          omega
        · rw [if_neg hq, if_neg hq]
          rfl

end CommandBuffer

/-! ## Runs without a delimiter -/

/-- The maximal runs without a delimiter in the line, which ends before the
first carriage return. -/
def runs (delimiter : Char) (l : List Char) : List String :=
  (((l.takeWhile (· ≠ '\r')).splitOn delimiter).filter (· ≠ [])).map
    String.ofList

section

variable {delimiter : Char} {l : List Char}

theorem runs_of_line_eq_nil (h : l.takeWhile (· ≠ '\r') = []) :
    runs delimiter l = [] := by
  rw [runs, h]
  rfl

/-- Delimiters at the front do not matter. -/
theorem runs_dropWhile (hcr : delimiter ≠ '\r') :
    runs delimiter (l.dropWhile (· = delimiter)) = runs delimiter l := by
  induction l with
  | nil => rfl
  | cons x l ih =>
      by_cases hx : x = delimiter
      · subst hx
        have hline : (x :: l).takeWhile (· ≠ '\r') =
            x :: l.takeWhile (· ≠ '\r') :=
          List.takeWhile_cons_of_pos (by simpa using hcr)
        rw [List.dropWhile_cons_of_pos (by simp), ih, runs, runs, hline,
          show x :: l.takeWhile (· ≠ '\r') = [] ++ x :: l.takeWhile (· ≠ '\r')
            from rfl, List.splitOn_append_cons_self]
        rfl
      · rw [List.dropWhile_cons_of_neg (by simpa using hx)]

/-- A character that `next_token` takes into a token. -/
def tokenChar (delimiter x : Char) : Bool :=
  x ≠ delimiter ∧ x ≠ '\r'

/-- The first run of a line and the rest behind the delimiters after it. -/
theorem runs_eq_cons (hcr : delimiter ≠ '\r')
    (hhead : l.head? ≠ some delimiter) :
    runs delimiter l =
      if l.takeWhile (tokenChar delimiter) = [] then []
      else String.ofList (l.takeWhile (tokenChar delimiter)) ::
        runs delimiter
          ((l.dropWhile (tokenChar delimiter)).dropWhile (· = delimiter)) := by
  generalize htake : l.takeWhile (tokenChar delimiter) = token
  generalize hdrop : l.dropWhile (tokenChar delimiter) = l'
  have hl : token ++ l' = l := by
    rw [← htake, ← hdrop, List.takeWhile_append_dropWhile]
  have htoken : ∀ x ∈ token, x ≠ delimiter ∧ x ≠ '\r' := by
    intro x hx
    rw [← htake] at hx
    have hchar : tokenChar delimiter x = true := List.mem_takeWhile_imp hx
    exact of_decide_eq_true hchar
  have hline : l.takeWhile (· ≠ '\r') = token ++ l'.takeWhile (· ≠ '\r') := by
    rw [← hl, List.takeWhile_append_of_pos]
    intro x hx
    simpa using (htoken x hx).2
  have hstop : ∀ x rest, l' = x :: rest → x = delimiter ∨ x = '\r' := by
    intro x rest hx
    have hnot : tokenChar delimiter x = false := by
      have hfirst := List.head?_dropWhile_not (tokenChar delimiter) l
      rw [hdrop, hx] at hfirst
      simpa using hfirst
    by_contra hne
    rw [not_or] at hne
    exact absurd (decide_eq_true hne) (by simpa [tokenChar] using hnot)
  by_cases hempty : token = []
  · rw [if_pos hempty]
    apply runs_of_line_eq_nil
    rw [hline, hempty, List.nil_append]
    cases l' with
    | nil => rfl
    | cons x rest =>
        rcases hstop x rest rfl with rfl | rfl
        · rw [hempty] at hl
          exact absurd (congrArg List.head? hl.symm) hhead
        · rfl
  · rw [if_neg hempty, runs_dropWhile hcr]
    have hmem : delimiter ∉ token := fun h => (htoken _ h).1 rfl
    have hkeep : ∀ rest : List (List Char),
        (token :: rest).filter (· ≠ []) = token :: rest.filter (· ≠ []) :=
      fun rest => List.filter_cons_of_pos (decide_eq_true hempty)
    have hlast : l'.takeWhile (· ≠ '\r') = [] →
        runs delimiter l = String.ofList token :: runs delimiter l' := by
      intro hend
      rw [runs_of_line_eq_nil hend, runs, hline, hend, List.append_nil,
        List.splitOn_eq_singleton hmem, hkeep]
      rfl
    cases l' with
    | nil => exact hlast rfl
    | cons x rest =>
        rcases hstop x rest rfl with rfl | rfl
        · have hcons : (x :: rest).takeWhile (· ≠ '\r') =
              x :: rest.takeWhile (· ≠ '\r') :=
            List.takeWhile_cons_of_pos (decide_eq_true hcr)
          rw [runs, hline, hcons, List.splitOn_append_cons_self_of_not_mem hmem,
            hkeep, List.map_cons, runs, hcons, show x :: rest.takeWhile (· ≠ '\r') =
            [] ++ x :: rest.takeWhile (· ≠ '\r') from rfl,
            List.splitOn_append_cons_self]
          rfl
        · exact hlast rfl

end

/-! ## The tokens of a line -/

/-- A call of `next_token` takes the first run. -/
theorem Command.nextToken_runs {c : Command} (hcr : c.delimiter ≠ '\r')
    (hhead : c.rest.head? ≠ some c.delimiter) :
    c.nextToken.1 = (runs c.delimiter c.rest).headD "" ∧
      runs c.delimiter c.nextToken.2.rest = (runs c.delimiter c.rest).tail ∧
      c.nextToken.2.rest.head? ≠ some c.delimiter := by
  have hgap : (fun x => decide (x = c.delimiter ∧ x ≠ '\r')) =
      fun x => decide (x = c.delimiter) := by
    funext x
    rw [decide_eq_decide, and_iff_left_iff_imp]
    rintro rfl
    exact hcr
  have hrest : c.nextToken.2.rest = (c.rest.dropWhile
      (tokenChar c.delimiter)).dropWhile (· = c.delimiter) := by
    rw [← hgap]
    rfl
  have htoken : c.nextToken.1 =
      String.ofList (c.rest.takeWhile (tokenChar c.delimiter)) := rfl
  have hnext : c.nextToken.2.rest.head? ≠ some c.delimiter := by
    intro hfirst
    have hnot := List.head?_dropWhile_not (· = c.delimiter)
      (c.rest.dropWhile (tokenChar c.delimiter))
    rw [← hrest, hfirst] at hnot
    simp at hnot
  refine ⟨?_, ?_, hnext⟩
  · rw [htoken, runs_eq_cons hcr hhead]
    split
    next hempty => rw [hempty]; rfl
    next => rfl
  · rw [hrest, runs_eq_cons hcr hhead]
    split
    next hempty =>
      have hall : c.rest.dropWhile (tokenChar c.delimiter) = c.rest := by
        have happend := List.takeWhile_append_dropWhile
          (p := tokenChar c.delimiter) (l := c.rest)
        rwa [hempty, List.nil_append] at happend
      rw [hall, runs_dropWhile hcr, runs_eq_cons hcr hhead, if_pos hempty]
      rfl
    next => rfl

theorem ne_of_mem_runs {delimiter : Char} {l : List Char} {token : String}
    (h : token ∈ runs delimiter l) : token ≠ "" := by
  obtain ⟨run, hrun, rfl⟩ := List.mem_map.mp h
  have hne : run ≠ [] := of_decide_eq_true (List.mem_filter.mp hrun).2
  intro heq
  exact hne (String.ofList_injective heq)

/-- The tokens of a command are the runs that are left. -/
theorem Command.tokensWithin_eq_runs {n : ℕ} {c : Command}
    (hcr : c.delimiter ≠ '\r') (hhead : c.rest.head? ≠ some c.delimiter)
    (hn : c.rest.length ≤ n) :
    tokensWithin n c = runs c.delimiter c.rest := by
  induction n generalizing c with
  | zero =>
      have hnil : c.rest = [] := List.eq_nil_of_length_eq_zero (by omega)
      rw [hnil, runs_of_line_eq_nil rfl]
      rfl
  | succ n ih =>
      obtain ⟨htoken, hruns, hhead'⟩ := Command.nextToken_runs hcr hhead
      rw [tokensWithin, htoken]
      cases hleft : runs c.delimiter c.rest with
      | nil => rfl
      | cons token rest =>
          have hne : token ≠ "" :=
            ne_of_mem_runs (hleft ▸ List.mem_cons_self)
          rw [List.headD_cons, if_neg hne]
          rw [hleft, List.tail_cons] at hruns
          have htake : c.rest.takeWhile (tokenChar c.delimiter) ≠ [] := by
            intro hempty
            rw [runs_eq_cons hcr hhead, if_pos hempty] at hleft
            cases hleft
          have hpos := List.length_pos_of_ne_nil htake
          have hsplit := congrArg List.length (List.takeWhile_append_dropWhile
            (p := tokenChar c.delimiter) (l := c.rest))
          have hle : c.nextToken.2.rest.length ≤
              (c.rest.dropWhile (tokenChar c.delimiter)).length :=
            (List.dropWhile_sublist _).length_le
          rw [List.length_append] at hsplit
          have hrest := ih (c := c.nextToken.2) hcr hhead' (by omega)
          rw [hrest]
          exact congrArg (token :: ·) hruns

/-- The tokens of a string are its runs. -/
theorem split_eq_runs (input : String) {delimiter : Char}
    (hcr : delimiter ≠ '\r') :
    split input delimiter = runs delimiter input.toList := by
  have hhead : (input.toList.dropWhile (· = delimiter)).head? ≠
      some delimiter := by
    intro hfirst
    have hnot := List.head?_dropWhile_not (· = delimiter) input.toList
    rw [hfirst] at hnot
    simp at hnot
  have htokens := Command.tokensWithin_eq_runs
    (c := Command.ofString input delimiter) hcr hhead le_rfl
  exact htokens.trans (runs_dropWhile hcr)

namespace CommandBuffer

variable {c : CommandBuffer}

/-- What is left of the buffer. -/
def left (c : CommandBuffer) : Command where
  rest := c.buffer.drop c.cur
  delimiter := c.delimiter

/-- Behind the characters that a scan took. -/
theorem drop_scan {buffer : List Char} {q : Char → Bool} {i : ℕ} :
    buffer.drop (i + ((buffer.drop i).takeWhile q).length) =
      (buffer.drop i).dropWhile q := by
  rw [← List.drop_drop]
  calc (buffer.drop i).drop ((buffer.drop i).takeWhile q).length
      = ((buffer.drop i).takeWhile q ++ (buffer.drop i).dropWhile q).drop
          ((buffer.drop i).takeWhile q).length := by
        rw [List.takeWhile_append_dropWhile]
    _ = (buffer.drop i).dropWhile q := List.drop_left

theorem scan_le {buffer : List Char} {q : Char → Bool} {i : ℕ}
    (hi : i ≤ buffer.length) :
    i + ((buffer.drop i).takeWhile q).length ≤ buffer.length := by
  have hle := (List.takeWhile_sublist q (l := buffer.drop i)).length_le
  rw [List.length_drop] at hle
  omega

/-- A token ends inside the buffer. -/
theorem scan_inToken {buffer : List Char} {delimiter : Char} {i : ℕ}
    (hi : i ≤ buffer.length) :
    scan buffer (inToken delimiter buffer.length) (buffer.length + 1) i =
      some (i + ((buffer.drop i).takeWhile (tokenChar delimiter)).length) := by
  apply scan_eq _ _ hi (by omega)
  · intro j x hj
    simp [inToken, tokenChar, hj]
  · simp [inToken]

/-- `next_token` on the buffer is `next_token` on what is left of it. -/
theorem nextToken_eq (hcur : c.cur ≤ c.buffer.length) :
    ∃ k, c.nextToken = some (c.left.nextToken.1, { c with cur := k }) ∧
      k ≤ c.buffer.length ∧
      { c with cur := k }.left = c.left.nextToken.2 := by
  by_cases hend : c.buffer.length ≤ c.cur
  · have hrest : c.buffer.drop c.cur = [] := List.drop_eq_nil_of_le hend
    refine ⟨c.cur, ?_, hcur, ?_⟩
    · rw [nextToken, if_pos hend]
      simp [Command.nextToken, left, hrest]
    · simp [Command.nextToken, left, hrest]
  · let j := c.cur +
      ((c.buffer.drop c.cur).takeWhile (tokenChar c.delimiter)).length
    have hj : j ≤ c.buffer.length := scan_le hcur
    let gap : Char → Bool := fun x => decide (x = c.delimiter ∧ x ≠ '\r')
    have hgap : scan c.buffer (fun j x => x = c.delimiter &&
        j < c.buffer.length && x ≠ '\r') (c.buffer.length + 1) j =
          some (j + ((c.buffer.drop j).takeWhile gap).length) := by
      apply scan_eq _ _ hj (by omega)
      · intro j x hj
        simp [gap, hj]
      · simp
    refine ⟨_, ?_, scan_le (q := gap) hj, ?_⟩
    · rw [nextToken, if_neg hend]
      change (scan _ _ _ _).bind _ = _
      rw [scan_inToken hcur]
      change (scan _ _ _ j).bind _ = _
      rw [hgap]
      have htake : (c.buffer.drop c.cur).take (j - c.cur) =
          (c.buffer.drop c.cur).takeWhile (tokenChar c.delimiter) := by
        calc (c.buffer.drop c.cur).take (j - c.cur)
            = ((c.buffer.drop c.cur).takeWhile (tokenChar c.delimiter) ++
                (c.buffer.drop c.cur).dropWhile (tokenChar c.delimiter)).take
                  (j - c.cur) := by rw [List.takeWhile_append_dropWhile]
          _ = (c.buffer.drop c.cur).takeWhile (tokenChar c.delimiter) := by
            rw [Nat.add_sub_cancel_left, List.take_left]
      change some (String.ofList ((c.buffer.drop c.cur).take (j - c.cur)), _) = _
      rw [htake]
      rfl
    · rw [left, drop_scan, drop_scan]
      rfl

/-- The next `n` tokens are the runs that are left, and then empty strings. -/
theorem calls_eq (hcr : c.delimiter ≠ '\r') (hcur : c.cur ≤ c.buffer.length)
    (hhead : (c.buffer.drop c.cur).head? ≠ some c.delimiter) (n : ℕ) :
    calls n c = some ((List.range n).map
      (nthToken (runs c.delimiter (c.buffer.drop c.cur)))) := by
  induction n generalizing c with
  | zero => rfl
  | succ n ih =>
      obtain ⟨k, hnext, hk, hleft⟩ := nextToken_eq hcur
      obtain ⟨htoken, hruns, hhead'⟩ :=
        Command.nextToken_runs (c := c.left) hcr hhead
      rw [← hleft] at hruns hhead'
      rw [calls, hnext]
      change (calls n { c with cur := k }).bind _ = _
      rw [ih (c := { c with cur := k }) hcr hk hhead', List.range_succ_eq_map, List.map_cons,
        List.map_map]
      have hshift : nthToken (runs c.delimiter (c.buffer.drop c.cur)) ∘
          Nat.succ = nthToken (runs c.delimiter (c.buffer.drop k)) := by
        funext i
        change (runs c.delimiter (c.buffer.drop c.cur)).getD (i + 1) "" =
          (runs c.delimiter (c.buffer.drop k)).getD i ""
        rw [show runs c.delimiter (c.buffer.drop k) =
          (runs c.delimiter (c.buffer.drop c.cur)).tail from hruns]
        cases runs c.delimiter (c.buffer.drop c.cur) <;> rfl
      have hfirst : nthToken (runs c.delimiter (c.buffer.drop c.cur)) 0 =
          c.left.nextToken.1 := by
        rw [htoken]
        change _ = (runs c.delimiter (c.buffer.drop c.cur)).headD ""
        cases runs c.delimiter (c.buffer.drop c.cur) <;> rfl
      rw [hshift, hfirst]
      rfl

/-- The loop of `count` counts the runs that are left. -/
theorem countFrom_eq {buffer : List Char} {delimiter : Char}
    (hcr : delimiter ≠ '\r') {fuel i cnt : ℕ} (hi : i ≤ buffer.length)
    (hhead : (buffer.drop i).head? ≠ some delimiter)
    (hfuel : buffer.length < fuel + i) :
    countFrom buffer delimiter fuel i cnt =
      some (cnt + (runs delimiter (buffer.drop i)).length) := by
  induction fuel generalizing i cnt with
  | zero => omega
  | succ fuel ih =>
      by_cases hend : buffer.length ≤ i
      · rw [countFrom, if_pos hend, List.drop_eq_nil_of_le hend, runs_of_line_eq_nil rfl]
        rfl
      · have hlt : i < buffer.length := Nat.lt_of_not_le hend
        have hcons := List.drop_eq_getElem_cons hlt
        rw [countFrom]
        change (if buffer.length ≤ i then some cnt else
          (charAt buffer i).bind _) = _
        rw [if_neg hend, charAt_of_lt hlt]
        change (if buffer[i] = '\r' then some cnt else _) = _
        by_cases hend' : buffer[i] = '\r'
        · have hline : (buffer.drop i).takeWhile (· ≠ '\r') = [] := by
            rw [hcons, hend']
            rfl
          rw [if_pos hend', runs_of_line_eq_nil hline]
          rfl
        · have hne : buffer[i] ≠ delimiter := by
            intro h
            rw [hcons, h] at hhead
            exact hhead rfl
          have htoken : (buffer.drop i).takeWhile (tokenChar delimiter) =
              buffer[i] :: (buffer.drop (i + 1)).takeWhile
                (tokenChar delimiter) := by
            rw [hcons]
            exact List.takeWhile_cons_of_pos (decide_eq_true ⟨hne, hend'⟩)
          let j := i +
            ((buffer.drop i).takeWhile (tokenChar delimiter)).length
          have hj : j ≤ buffer.length := scan_le hi
          have hij : i < j := by
            change i < i + _
            rw [htoken, List.length_cons]
            omega
          let k := j + ((buffer.drop j).takeWhile (· = delimiter)).length
          have hgap : scan buffer
              (fun j x => x = delimiter && j < buffer.length)
                (buffer.length + 1) j = some k := by
            apply scan_eq _ _ hj (by omega)
            · intro j x hj
              simp [hj]
            · simp
          have hdrop : buffer.drop k = ((buffer.drop i).dropWhile
              (tokenChar delimiter)).dropWhile (· = delimiter) := by
            rw [drop_scan, drop_scan]
          have hhead' : (buffer.drop k).head? ≠ some delimiter := by
            intro hfirst
            have hnot := List.head?_dropWhile_not (· = delimiter)
              ((buffer.drop i).dropWhile (tokenChar delimiter))
            rw [← hdrop, hfirst] at hnot
            simp at hnot
          rw [if_neg hend']
          change (scan _ _ _ _).bind _ = _
          rw [scan_inToken hi]
          change (scan _ _ _ j).bind _ = _
          rw [hgap]
          change countFrom buffer delimiter fuel k
            (if i ≠ j then cnt + 1 else cnt) = _
          rw [if_pos hij.ne, ih (scan_le hj) hhead' (by omega),
            runs_eq_cons hcr hhead, if_neg (by rw [htoken]; simp), hdrop,
            List.length_cons]
          congr 1
          omega

end CommandBuffer

/-- A new command has counted the runs of its line, and its calls of
`next_token` return them one by one and then empty strings. -/
theorem CommandBuffer.tokens_of_string (input : String) {delimiter : Char}
    (hnul : delimiter ≠ Char.ofNat 0) (hcr : delimiter ≠ '\r') :
    ∃ c, CommandBuffer.ofString input delimiter = some c ∧
      c.cnt = (runs delimiter input.toList).length ∧
      ∀ n, CommandBuffer.calls n c =
        some ((List.range n).map (nthToken (runs delimiter input.toList))) := by
  let buffer := input.toList
  let cur := 0 + ((buffer.drop 0).takeWhile (· = delimiter)).length
  have hscan : scan buffer (fun _ x => x = delimiter) (buffer.length + 1) 0 =
      some cur := by
    apply scan_eq _ _ (Nat.zero_le _) (by omega)
    · exact fun _ _ _ => rfl
    · exact decide_eq_false hnul.symm
  have hcur : cur ≤ buffer.length := scan_le (Nat.zero_le _)
  have hdrop : buffer.drop cur = buffer.dropWhile (· = delimiter) := by
    rw [drop_scan, List.drop_zero]
  have hhead : (buffer.drop cur).head? ≠ some delimiter := by
    intro hfirst
    have hnot := List.head?_dropWhile_not (· = delimiter) buffer
    rw [← hdrop, hfirst] at hnot
    simp at hnot
  have hruns : runs delimiter (buffer.drop cur) = runs delimiter buffer := by
    rw [hdrop, runs_dropWhile hcr]
  have hcount : countFrom buffer delimiter (buffer.length + 1) cur 0 =
      some (0 + (runs delimiter (buffer.drop cur)).length) :=
    countFrom_eq hcr hcur hhead (by omega)
  refine ⟨⟨buffer, cur, delimiter, (runs delimiter buffer).length⟩, ?_, rfl,
    fun n => ?_⟩
  · change (scan buffer _ _ 0).bind _ = _
    rw [hscan]
    change (scan buffer _ _ 0).bind _ = _
    rw [hscan]
    change (countFrom buffer delimiter _ cur 0).bind _ = _
    rw [hcount, hruns, Nat.zero_add]
    rfl
  · rw [calls_eq hcr hcur hhead, hruns]

/-- The line ends at the carriage return, and the bars around its tokens do
not count. -/
theorem CommandBuffer.tokens_of_string_bars :
    ∃ c, CommandBuffer.ofString "|ab||c|\rd" '|' = some c ∧ c.cnt = 2 ∧
      ∀ n, CommandBuffer.calls n c =
        some ((List.range n).map (nthToken ["ab", "c"])) :=
  CommandBuffer.tokens_of_string "|ab||c|\rd" (by decide) (by decide)

end TicketSystem.Backend
