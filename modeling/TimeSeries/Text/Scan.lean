/-!
# Scanners

A scanner takes characters from the front of a text and makes something of them, or refuses. A
scanner that refuses has taken nothing, so another one can be tried in its place.
-/

namespace TimeSeries.Text

/-- Takes characters from the front of a text, or refuses. -/
abbrev Scan := StateT (List Char) Option

namespace Scan

/-- The next character, without taking it. -/
def peek? : Scan (Option Char) := fun cs => some (cs.head?, cs)

/-- Takes the next character if it satisfies a test. -/
def satisfy (p : Char → Bool) : Scan Char
  | [] => none
  | c :: rest => if p c then some (c, rest) else none

/-- Takes a given character. -/
def char (c : Char) : Scan Unit := do let _ ← satisfy (· == c)

/-- Takes given characters. -/
def literal : List Char → Scan Unit
  | [] => pure ()
  | c :: rest => do char c; literal rest

/-- Takes a given word. -/
def word (w : String) : Scan Unit := literal w.toList

/-- Takes the characters up to the first that fails a test. -/
def takeWhile (p : Char → Bool) : Scan (List Char) := fun cs =>
  some (cs.takeWhile p, cs.dropWhile p)

/-- Takes a number of characters that satisfy a test. -/
def exactly : (count : Nat) → (p : Char → Bool) → Scan (List Char)
  | 0, _ => pure []
  | count + 1, p => do return (← satisfy p) :: (← exactly count p)

/-- What a scanner takes, or nothing. -/
def optional {α : Type} (x : Scan α) : Scan (Option α) := (some <$> x) <|> pure none

/-- What a scanner takes as often as it does not refuse. It has to take a character each time. -/
def many {α : Type} (x : Scan α) : Scan (List α) := fun cs => some (go cs.length cs)
where
  go : Nat → List Char → List α × List Char
    | 0, cs => ([], cs)
    | fuel + 1, cs =>
      match x cs with
      | none => ([], cs)
      | some (a, rest) =>
        let (more, rest) := go fuel rest
        (a :: more, rest)

/-- What a scanner takes once and then again after each separator. -/
def separated {α : Type} (x : Scan α) (sep : Scan Unit) : Scan (List α) := do
  return (← x) :: (← many (do sep; x))

/-- What a scanner makes of a whole text. -/
def all {α : Type} (x : Scan α) (cs : List Char) : Option α :=
  match x cs with
  | some (a, []) => some a
  | _ => none

end Scan

end TimeSeries.Text
