import Mathlib

/-!
# Splitting a command line

`Command` walks over a buffer and hands out its tokens one at a time.  The
cursor is represented by what is left of the buffer.  A carriage return ends
the line: no token reaches over it and nothing after it is handed out.
-/

namespace TicketSystem.Backend

/-- The part of a line that is still to be read, and its delimiter. -/
structure Command where
  rest : List Char
  delimiter : Char

namespace Command

/-- `Command(const string &, char)`: skip the delimiters at the front. -/
def ofString (input : String) (delimiter : Char) : Command where
  rest := input.toList.dropWhile (· = delimiter)
  delimiter := delimiter

/-- `next_token`: take characters up to a delimiter or a carriage return, then
skip delimiters. -/
def nextToken (c : Command) : String × Command :=
  let inToken := fun x => decide (x ≠ c.delimiter ∧ x ≠ '\r')
  (String.ofList (c.rest.takeWhile inToken),
    { c with
      rest := (c.rest.dropWhile inToken).dropWhile
        fun x => decide (x = c.delimiter ∧ x ≠ '\r') })

/-- The results of the next calls of `next_token` up to the first empty one.
A token is empty only when no call can make progress any more. -/
def tokensWithin : ℕ → Command → List String
  | 0, _ => []
  | n + 1, c =>
      if c.nextToken.1 = "" then []
      else c.nextToken.1 :: tokensWithin n c.nextToken.2

/-- All tokens that are left.  Each takes at least one character. -/
def tokens (c : Command) : List String := tokensWithin c.rest.length c

end Command

/-- The tokens of a string. -/
def split (input : String) (delimiter : Char) : List String :=
  (Command.ofString input delimiter).tokens

/-- The `n`-th result of `next_token`, counted from zero; the empty string
once the tokens are used up. -/
def nthToken (tokens : List String) (n : ℕ) : String := tokens.getD n ""

example : split "114||514\rx" '|' = ["114", "514"] := by decide

/-- The option loop of the handlers: read an option; if the handler knows it,
read its argument too and record it.  The loop ends at the first empty
option. -/
def parseOptions {α : Type*} (known : α → String → Option (String → α)) :
    α → List String → α
  | args, [] => args
  | args, opt :: rest =>
      if opt = "" then args
      else
        match known args opt with
        | none => parseOptions known args rest
        | some set =>
            match rest with
            | [] => set ""
            | value :: rest => parseOptions known (set value) rest

end TicketSystem.Backend
