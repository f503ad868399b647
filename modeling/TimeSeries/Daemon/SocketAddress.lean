import TimeSeries.Text.Scan

/-!
# Socket addresses

An address of the network and a port. An address of version 4 is written as four numbers with
points between them, one of version 6 as eight groups of hexadecimal digits with colons between
them, in brackets, perhaps with the number of a scope. A run of groups that are zero may be left
out, and the last two groups may be written as an address of version 4. There is one normal text
for each address.
-/

namespace TimeSeries

open Text

/-- An address and a port. -/
inductive SocketAddress where
  | v4 (numbers : List Nat) (port : Nat)
  | v6 (groups : List Nat) (scope : Nat) (port : Nat)
  deriving DecidableEq, Repr

namespace SocketAddress

/-- The value of a hexadecimal digit. -/
def digitValue (c : Char) : Nat :=
  if c.isDigit then c.toNat - '0'.toNat else c.toLower.toNat - 'a'.toNat + 10

/-- Whether a character is a digit in a base up to 16. -/
def isDigitIn (base : Nat) (c : Char) : Bool :=
  (c.isDigit || ('a' ≤ c && c ≤ 'f') || ('A' ≤ c && c ≤ 'F')) && digitValue c < base

/-- A number with at most so many digits, if there is a bound, and not above a limit. -/
def number (base : Nat) (maxDigits : Option Nat) (zeroFirst : Bool) (limit : Nat) : Scan Nat := do
  let digits ← Scan.takeWhile (isDigitIn base)
  let n := digits.foldl (fun n c => base * n + digitValue c) 0
  if digits.isEmpty || maxDigits.any (· < digits.length) ||
      (!zeroFirst && digits.head? == some '0' && 1 < digits.length) || limit < n then failure
  else return n

/-- The four numbers of an address of version 4. -/
def numbers : Scan (List Nat) := do
  let part := number 10 (some 3) false 255
  let a ← part
  Scan.char '.'
  let b ← part
  Scan.char '.'
  let c ← part
  Scan.char '.'
  let d ← part
  return [a, b, c, d]

/-- What follows a colon, which the first group does not need. -/
def afterColon {α : Type} (isFirst : Bool) (x : Scan α) : Scan α := do
  if !isFirst then Scan.char ':'
  x

/-- Up to so many groups, and whether they end with an address of version 4. -/
def groups : (limit : Nat) → (isFirst : Bool) → Scan (List Nat × Bool)
  | 0, _ => return ([], false)
  | limit + 1, isFirst => do
    let tail ← if limit = 0 then pure none else Scan.optional (afterColon isFirst numbers)
    match tail with
    | some [a, b, c, d] => return ([256 * a + b, 256 * c + d], true)
    | _ =>
      match ← Scan.optional (afterColon isFirst (number 16 (some 4) true 65535)) with
      | none => return ([], false)
      | some group =>
        let (more, endsInV4) ← groups limit false
        return (group :: more, endsInV4)

/-- The eight groups of an address of version 6. -/
def allGroups : Scan (List Nat) := do
  let (head, endsInV4) ← groups 8 true
  if head.length = 8 then return head
  else if endsInV4 then failure
  else
    Scan.literal [':', ':']
    let (tail, _) ← groups (7 - head.length) true
    return head ++ List.replicate (8 - head.length - tail.length) 0 ++ tail

/-- A port after its colon. -/
def port : Scan Nat := do
  Scan.char ':'
  number 10 none true 65535

/-- An address of version 4 and a port. -/
def scanV4 : Scan SocketAddress := do
  let ns ← numbers
  return .v4 ns (← port)

/-- An address of version 6 and a port. -/
def scanV6 : Scan SocketAddress := do
  Scan.char '['
  let gs ← allGroups
  let scope ← Scan.optional (do Scan.char '%'; number 10 none true 4294967295)
  Scan.char ']'
  return .v6 gs (scope.getD 0) (← port)

/-- The address that a text writes. -/
def parse? (text : String) : Option SocketAddress := (scanV4 <|> scanV6).all text.toList

/-! ## Normal text -/

/-- The length of the run of zeros at the front. -/
def zeroRun (gs : List Nat) : Nat := (gs.takeWhile (· == 0)).length

/-- Where the first of the longest runs of zeros begins, and its length. -/
def longestZeros : List Nat → Nat × Nat
  | [] => (0, 0)
  | g :: rest =>
    let here := zeroRun (g :: rest)
    let (start, length) := longestZeros rest
    if length ≤ here then (0, here) else (start + 1, length)

/-- Groups with colons between them. -/
def joinGroups (gs : List Nat) : String :=
  ":".intercalate (gs.map fun g => String.ofList (Nat.toDigits 16 g))

/-- Numbers with points between them. -/
def joinNumbers (ns : List Nat) : String := ".".intercalate (ns.map toString)

/-- The text of an address of version 6. One that stands for an address of version 4 shows it, and
otherwise the longest run of zeros is left out if it is longer than one. -/
def displayGroups (gs : List Nat) : String :=
  match gs with
  | [0, 0, 0, 0, 0, 65535, a, b] => s!"::ffff:{joinNumbers [a / 256, a % 256, b / 256, b % 256]}"
  | _ =>
    let (start, length) := longestZeros gs
    if 1 < length then s!"{joinGroups (gs.take start)}::{joinGroups (gs.drop (start + length))}"
    else joinGroups gs

/-- The normal text of an address. -/
def display : SocketAddress → String
  | v4 ns port => s!"{joinNumbers ns}:{port}"
  | v6 gs 0 port => s!"[{displayGroups gs}]:{port}"
  | v6 gs scope port => s!"[{displayGroups gs}%{scope}]:{port}"

end SocketAddress

end TimeSeries
