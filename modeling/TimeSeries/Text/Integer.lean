/-!
# Decimal integers of 64 bits

An integer is written as an optional sign and one or more digits. A text is refused at its first
character that is no digit, or as too large or too small for a signed number of 64 bits. The two
refusals are found in the order of reading: the digits before a stray character may already be
too many.
-/

namespace TimeSeries.Text

/-- Why a text is no signed integer of 64 bits. -/
inductive IntegerFault where
  | noText
  | strayCharacter
  | tooLarge
  | tooSmall
  deriving DecidableEq, Repr

/-- The wording of a refusal. -/
def IntegerFault.message : IntegerFault → String
  | .noText => "cannot parse integer from empty string"
  | .strayCharacter => "invalid digit found in string"
  | .tooLarge => "number too large to fit in target type"
  | .tooSmall => "number too small to fit in target type"

/-- The largest signed number of 64 bits. -/
def maxInt64 : Int := 9223372036854775807

/-- The smallest signed number of 64 bits. -/
def minInt64 : Int := -9223372036854775808

/-- Reads digits onto a number that is not negative. -/
def readUpward : Int → List Char → Except IntegerFault Int
  | n, [] => .ok n
  | n, c :: rest =>
    if c.isDigit then
      let next := 10 * n + (c.toNat - '0'.toNat : Nat)
      if next ≤ maxInt64 then readUpward next rest else .error .tooLarge
    else .error .strayCharacter

/-- Reads digits onto a number that is not positive. -/
def readDownward : Int → List Char → Except IntegerFault Int
  | n, [] => .ok n
  | n, c :: rest =>
    if c.isDigit then
      let next := 10 * n - (c.toNat - '0'.toNat : Nat)
      if minInt64 ≤ next then readDownward next rest else .error .tooSmall
    else .error .strayCharacter

/-- The signed integer of 64 bits that a text writes. -/
def readInteger (cs : List Char) : Except IntegerFault Int :=
  match cs with
  | [] => .error .noText
  | ['+'] | ['-'] => .error .strayCharacter
  | '-' :: digits => readDownward 0 digits
  | '+' :: digits => readUpward 0 digits
  | digits => readUpward 0 digits

/-- The largest unsigned number of 64 bits. -/
def maxCount64 : Nat := 18446744073709551615

/-- The unsigned integer of 64 bits that a text writes, with or without a plus sign. -/
def readCount (cs : List Char) : Option Nat :=
  let digits := match cs with
    | '+' :: rest => rest
    | _ => cs
  if digits.isEmpty || !digits.all Char.isDigit then none
  else
    let n := digits.foldl (fun n c => 10 * n + (c.toNat - '0'.toNat)) 0
    if n ≤ maxCount64 then some n else none

end TimeSeries.Text
