import TimeSeries.Text.Binary64

/-!
# The shortest decimal of a binary floating-point number

A finite number other than zero is `m * 2 ^ q`. Every decimal between the two halfway points to its
neighbours is read back as the number, and so are the halfway points themselves when `m` is even.
The shortest decimal is the one on the coarsest grid of powers of ten that has a point in there; of
two points the nearer. It is written in positions, without an exponent.
-/

namespace TimeSeries.Text

/-- A positive number `mantissa * 2 ^ power` and whether the gap below it is only half of the gap
above it. -/
structure BinaryFraction where
  mantissa : Nat
  power : Int
  narrowBelow : Bool
  deriving DecidableEq, Repr

namespace BinaryFraction

/-- The fraction that the bits of a finite positive number stand for. -/
def ofMagnitude (bits : Nat) : BinaryFraction :=
  let exponent := bits / fractionCount
  let fraction := bits % fractionCount
  if exponent = 0 then ⟨fraction, -1074, false⟩
  else ⟨fraction + fractionCount, Int.ofNat exponent - 1075, fraction = 0 && 1 < exponent⟩

/-- A multiple of a quarter of the unit, as a fraction of natural numbers:
`quarters * 2 ^ (power - 2)` in the unit `10 ^ grid`. -/
def onGrid (f : BinaryFraction) (grid : Int) (quarters : Nat) : Nat × Nat :=
  (quarters * Nat.pow 2 (f.power - 2).toNat * Nat.pow 10 (-grid).toNat,
    Nat.pow 2 (2 - f.power).toNat * Nat.pow 10 grid.toNat)

/-- Whether `n * 10 ^ grid` is read back as the number. -/
def reads (f : BinaryFraction) (grid : Int) (n : Nat) : Bool :=
  let (low, den) := f.onGrid grid (4 * f.mantissa - if f.narrowBelow then 1 else 2)
  let (high, _) := f.onGrid grid (4 * f.mantissa + 2)
  if f.mantissa % 2 = 0 then low ≤ n * den && n * den ≤ high else low < n * den && n * den < high

/-- The digits on a grid that are read back, the nearer ones of two. -/
def digitsOn? (f : BinaryFraction) (grid : Int) : Option Nat :=
  let (num, den) := f.onGrid grid (4 * f.mantissa)
  let below := num / den
  match f.reads grid below && 0 < below, f.reads grid (below + 1) with
  | true, true => some (if 2 * (num % den) ≤ den then below else below + 1)
  | true, false => some below
  | false, true => some (below + 1)
  | false, false => none

/-- The shortest digits and their grid, from the coarsest grid that a number can need downward. -/
def shortest (f : BinaryFraction) : Nat × Int :=
  ((List.range 640).findSome? fun i =>
    let grid := 309 - Int.ofNat i
    (f.digitsOn? grid).map (·, grid)).getD (0, 0)

end BinaryFraction

/-- The digits of `n * 10 ^ grid` in positions. -/
def positional (n : Nat) (grid : Int) : List Char :=
  let digits := Nat.toDigits 10 n
  if 0 ≤ grid then digits ++ List.replicate grid.toNat '0'
  else
    let places := (-grid).toNat
    let padded := List.replicate (places + 1 - digits.length) '0' ++ digits
    padded.take (padded.length - places) ++ '.' :: padded.drop (padded.length - places)

/-- The shortest text of a number. -/
def shortestDecimal (bits : UInt64) : String :=
  let sign := if bits.toNat < signBit then [] else ['-']
  let magnitude := bits.toNat % signBit
  if infinityBits < magnitude then "NaN"
  else if magnitude = infinityBits then String.ofList (sign ++ ['i', 'n', 'f'])
  else if magnitude = 0 then String.ofList (sign ++ ['0'])
  else
    let (n, grid) := (BinaryFraction.ofMagnitude magnitude).shortest
    String.ofList (sign ++ positional n grid)

/-- The integer nearest to a number, a half going away from zero. A NaN counts as zero, and the
infinities as integers beyond all others that a number of 64 bits can be. -/
def nearestInteger (bits : UInt64) : Int :=
  let magnitude := bits.toNat % signBit
  let size : Nat :=
    if infinityBits < magnitude then 0
    else
      let f := BinaryFraction.ofMagnitude magnitude
      let (num, den) := f.onGrid 0 (4 * f.mantissa)
      (2 * num + den) / (2 * den)
  if bits.toNat < signBit then size else -size

end TimeSeries.Text
