/-!
# Numerals read as binary floating point of 64 bits

A numeral is a decimal fraction with an optional exponent, or one of the words `inf`, `infinity`
and `nan` in any case, each after an optional sign. Its value is the nearest number of the
binary format, a tie going to the even one, and it is held as the 64 bits of that number, so
that the sign of zero and the payload of a NaN are never lost. All of the arithmetic is exact.
-/

namespace TimeSeries.Text

/-- The bits of positive infinity. -/
def infinityBits : Nat := 0x7FF0000000000000

/-- The bits of the NaN that a numeral can write. -/
def nanBits : Nat := 0x7FF8000000000000

/-- The bit of the sign. -/
def signBit : Nat := 0x8000000000000000

/-- The number of fractions that share an exponent, two to the power of 52. -/
def fractionCount : Nat := 0x10000000000000

/-- Divides and rounds to the nearest integer, a tie going to the even one. -/
def roundQuotient (num den : Nat) : Nat :=
  let q := num / den
  let twice := 2 * (num % den)
  if twice < den then q
  else if den < twice then q + 1
  else if q % 2 = 0 then q else q + 1

/--
The bits of the number nearest to `num / den`, for positive `num` and `den`.

The unit in the last place is `2 ^ k`, the one that leaves a quotient of 53 bits, but never below
`2 ^ (-1074)`. A quotient that rounds up to `2 ^ 53` carries into the exponent by itself.
-/
def nearestBits (num den : Nat) : Nat :=
  let scale (k : Int) : Nat × Nat := (num * Nat.pow 2 (-k).toNat, den * Nat.pow 2 k.toNat)
  let low : Int := Int.ofNat num.log2 - Int.ofNat den.log2 - 53
  let (n, d) := scale low
  let k := max (if n / d < 2 * fractionCount then low else low + 1) (-1074)
  let (n, d) := scale k
  min ((k + 1074).toNat * fractionCount + roundQuotient n d) infinityBits

/--
The bits nearest to `digits * 10 ^ exponent`. Far outside of the format the answer is known
without the power.
-/
def decimalBits (digits : Nat) (exponent : Int) : Nat :=
  if digits = 0 then 0
  else
    let size : Int := Int.ofNat (Nat.toDigits 10 digits).length + exponent
    if size > 400 then infinityBits
    else if size < -400 then 0
    else nearestBits (digits * Nat.pow 10 exponent.toNat) (Nat.pow 10 (-exponent).toNat)

/-- The number that a list of decimal digits writes. -/
def digitsValue (digits : List Char) : Nat :=
  digits.foldl (fun n c => 10 * n + (c.toNat - '0'.toNat)) 0

/-- The exponent that stands after a fraction: nothing, or `e` with a signed integer. -/
def readExponent : List Char → Option Int
  | [] => some 0
  | mark :: rest =>
    if mark = 'e' ∨ mark = 'E' then
      let (negative, digits) :=
        match rest with
        | '-' :: more => (true, more)
        | '+' :: more => (false, more)
        | more => (false, more)
      if digits.isEmpty || !digits.all Char.isDigit then none
      else
        let n := Int.ofNat (digitsValue digits)
        some (if negative then -n else n)
    else none

/-- The bits of an unsigned decimal fraction: at least one digit, with or without a point. -/
def readFraction (cs : List Char) : Option Nat := do
  let whole := cs.takeWhile Char.isDigit
  let rest := cs.dropWhile Char.isDigit
  let (fraction, rest) :=
    match rest with
    | '.' :: more => (more.takeWhile Char.isDigit, more.dropWhile Char.isDigit)
    | more => ([], more)
  if whole.isEmpty && fraction.isEmpty then none
  else
    let exponent ← readExponent rest
    some (decimalBits (digitsValue (whole ++ fraction)) (exponent - Int.ofNat fraction.length))

/-- The bits of an unsigned numeral: a fraction or one of the three words. -/
def readMagnitude (cs : List Char) : Option Nat :=
  let word := String.ofList (cs.map Char.toLower)
  if word = "inf" ∨ word = "infinity" then some infinityBits
  else if word = "nan" then some nanBits
  else readFraction cs

/-- The bits of a numeral with an optional sign; `none` for any other text. -/
def readBinary64 (cs : List Char) : Option UInt64 :=
  match cs with
  | '-' :: rest => (readMagnitude rest).map fun n => UInt64.ofNat (n + signBit)
  | '+' :: rest => (readMagnitude rest).map UInt64.ofNat
  | rest => (readMagnitude rest).map UInt64.ofNat

end TimeSeries.Text
