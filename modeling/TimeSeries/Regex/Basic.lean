import TimeSeries.Regex.CharClass

/-!
# Regular expressions and how they match

An expression is built from classes of characters and from assertions about a position. Whether a
text contains a match depends on the positions alone that an expression can lead to, so matching is
a function on sets of positions: from the positions at which an expression may begin to the
positions at which it may then end. Which match would be found first plays no role.

The engine for regular expressions is no part of this library. What is defined here is what an
engine promises that documents its syntax as that of classes, repetitions, groups, alternatives and
assertions about one position, with Unicode as the default and a search in linear time: a text
matches if a match begins anywhere in it, and nothing that was matched before plays a role.

A set of positions is a list in ascending order. The repetition without an upper bound is closed in
at most as many rounds as there are positions, since each round has to add one.
-/

namespace TimeSeries.Regex

/-- An assertion about a position between two characters. -/
inductive Look where
  | textStart
  | textEnd
  | lineStart (crlf : Bool)
  | lineEnd (crlf : Bool)
  | wordBoundary (word : CharClass)
  | notWordBoundary (word : CharClass)
  | wordStart (word : CharClass)
  | wordEnd (word : CharClass)
  | notAfterWord (word : CharClass)
  | notBeforeWord (word : CharClass)

/-- A regular expression. The size of a class is an estimate of the states that it takes. -/
inductive Expr where
  | empty
  | one (accepts : CharClass) (size : Nat)
  | look (assertion : Look)
  | seq (first second : Expr)
  | alt (left right : Expr)
  | repeated (body : Expr) (least : Nat) (most : Option Nat)

/-! ## Positions -/

/-- The characters before and after a position hold for an assertion. -/
def Look.holds (text : Array Char) (i : Nat) (look : Look) : Bool :=
  let before := if i = 0 then none else text[i - 1]?
  let after := text[i]?
  let inWord (word : CharClass) (c : Option Char) : Bool := c.any word
  match look with
  | .textStart => i == 0
  | .textEnd => i == text.size
  | .lineStart false => i == 0 || before == some '\n'
  | .lineStart true =>
    i == 0 || before == some '\n' || (before == some '\r' && after != some '\n')
  | .lineEnd false => i == text.size || after == some '\n'
  | .lineEnd true =>
    i == text.size || after == some '\r' || (after == some '\n' && before != some '\r')
  | .wordBoundary word => inWord word before != inWord word after
  | .notWordBoundary word => inWord word before == inWord word after
  | .wordStart word => !inWord word before && inWord word after
  | .wordEnd word => inWord word before && !inWord word after
  | .notAfterWord word => !inWord word before
  | .notBeforeWord word => !inWord word after

/-- The positions in either of two ascending lists, ascending. -/
def mergePositions : List Nat → List Nat → List Nat
  | [], ys => ys
  | xs, [] => xs
  | x :: xs, y :: ys =>
    if x < y then x :: mergePositions xs (y :: ys)
    else if y < x then y :: mergePositions (x :: xs) ys
    else x :: mergePositions xs ys

/-- The positions in the first of two ascending lists and not in the second. -/
def dropPositions : List Nat → List Nat → List Nat
  | [], _ => []
  | xs, [] => xs
  | x :: xs, y :: ys =>
    if x < y then x :: dropPositions xs (y :: ys)
    else if y < x then dropPositions (x :: xs) ys
    else dropPositions xs ys

/-- Applies a step a number of times, and stops early on no positions. -/
def iterate (step : List Nat → List Nat) : Nat → List Nat → List Nat
  | 0, ps => ps
  | n + 1, ps => if ps.isEmpty then [] else iterate step n (step ps)

/-- All the positions that are reached in at most `rounds` steps from `fresh`, with `known` ones
that have been dealt with before. -/
def reach (step : List Nat → List Nat) : (rounds : Nat) → (known fresh : List Nat) → List Nat
  | 0, known, fresh => mergePositions known fresh
  | rounds + 1, known, fresh =>
    let known := mergePositions known fresh
    let found := dropPositions (step fresh) known
    if found.isEmpty then known else reach step rounds known found

/-- The positions at which an expression ends when it begins at one of the given positions. -/
def Expr.ends (text : Array Char) : Expr → List Nat → List Nat
  | .empty, ps => ps
  | .one accepts _, ps => ps.filterMap fun i => if text[i]?.any accepts then some (i + 1) else none
  | .look assertion, ps => ps.filter fun i => assertion.holds text i
  | .seq first second, ps => second.ends text (first.ends text ps)
  | .alt left right, ps => mergePositions (left.ends text ps) (right.ends text ps)
  | .repeated body least most, ps =>
    let begun := iterate (body.ends text) least ps
    match most with
    | none => reach (body.ends text) (text.size + 1) [] begun
    | some most => reach (body.ends text) (min (most - least) (text.size + 1)) [] begun

/-- Whether a text contains a match of an expression. -/
def Expr.matches (e : Expr) (text : String) : Bool :=
  let cs := text.toList.toArray
  !(e.ends cs (List.range (cs.size + 1))).isEmpty

/-! ## Size -/

/-- An estimate of the number of states that an expression takes when it is written out. -/
def Expr.size : Expr → Nat
  | .empty => 1
  | .one _ size => size
  | .look _ => 1
  | .seq first second => first.size + second.size
  | .alt left right => left.size + right.size + 1
  | .repeated body least none => max least 1 * body.size + 1
  | .repeated body _ (some most) => most * (body.size + 1)

end TimeSeries.Regex
