import Mathlib
import TimeSeries.SeriesReader

/-!
# Decoding on a machine that traps

The definitions of the decoder always have a value: a word that is not there is zero, a shift counts
modulo 64, a difference of natural numbers is not less than zero, and times are unbounded. A machine
has none of this. Here the decoder is written once more, step by step as it is, with operations that
*trap* where a machine has no result: they give `none`. A failure to decode is not a trap.
-/

namespace TimeSeries.Trap

/-! ## Operations -/

/-- The word at an index. -/
def wordAt (words : Array UInt64) (i : Nat) : Option UInt64 := words[i]?

/-- A word shifted up by less than its length. -/
def shiftLeft (w : UInt64) (k : Nat) : Option UInt64 :=
  if k < 64 then some (w <<< UInt64.ofNat k) else none

/-- A word shifted down by less than its length. -/
def shiftRight (w : UInt64) (k : Nat) : Option UInt64 :=
  if k < 64 then some (w >>> UInt64.ofNat k) else none

/-- A number taken from one that is not smaller. -/
def minus (a b : Nat) : Option Nat := if b ≤ a then some (a - b) else none

/-- The result of a calculation with signed numbers of 64 bits. -/
def int64 (n : Int) : Option Int := if SeriesReader.fitsInt64 n then some n else none

/-! ## Bits -/

/-- A step that reads, and may trap. -/
abbrev Step (α : Type) := StateT BitReader (ExceptT Error Option) α

/-- The field of 1 to 64 bits at a position. -/
def fieldAt (words : Array UInt64) (position n : Nat) : Option UInt64 := do
  let index := position / 64
  let shift := position % 64
  let word ← wordAt words index
  let room ← minus 64 shift
  if n < room then
    let cleared ← shiftLeft word shift
    let spare ← minus 64 n
    shiftRight cleared spare
  else
    let cleared ← shiftLeft word shift
    let head ← shiftRight cleared shift
    let carry ← minus (shift + n) 64
    if carry = 0 then return head
    else
      let high ← shiftLeft head carry
      let next ← wordAt words (index + 1)
      let spare ← minus 64 carry
      let low ← shiftRight next spare
      return high ||| low

/-- Reads the next `n` bits. -/
def read (n : Nat) : Step UInt64 := fun r =>
  if 64 < n then throw (.invalid (.readWidth n))
  else if n = 0 then pure (0, r)
  else if r.stream.length < r.position + n then
    throw (.malformed (.readPastEnd n r.position r.stream.length))
  else do
    let found ← fieldAt r.stream.words r.position n
    return (found, { r with position := r.position + n })

/-- Reads `n` bits and stays where it is unless they are the expected ones. -/
def tryRead (n : Nat) (expected : UInt64) : Step Bool := fun r => do
  let (found, next) ← read n r
  return if found = expected then (true, next) else (false, r)

/-- The number of bits that are left. -/
def bitsLeft (r : BitReader) : Option Nat := minus r.stream.length r.position

/-! ## Points -/

/-- A word as a signed number, less the bias of a code. -/
def unbiased (v : UInt64) (bias : Int) : Option Int := do
  let n ← int64 v.toNat
  int64 (n - bias)

/-- Reads the first of the codes whose mark is there. -/
def readChangeBy : List ChangeCode → Step Int
  | [] => do
    let _ ← read largeChange.markWidth
    let v ← read largeChange.width
    unbiased v largeChange.bias
  | code :: rest => do
    if ← tryRead code.markWidth code.mark then
      let v ← read code.width
      unbiased v code.bias
    else readChangeBy rest

/-- Reads the difference of two distances. -/
def readChange : Step Int := do
  if ← tryRead 1 0 then return 0 else readChangeBy smallChanges

/-- Reads the next time, and the distance that is then the last one. The sums that the decoder
checks for itself cannot trap. -/
def readTime (r : SeriesReader) : Step (Int × Int) := do
  let (time, delta) ←
    if r.decoded = 0 then do
      let header ← read 32
      let offset ← read 14
      let first ← int64 header.toNat
      let delta ← int64 offset.toNat
      let time ← int64 (first + delta)
      pure (time, delta)
    else do
      let change ← readChange
      let delta := r.lastDelta + change
      let time := r.lastTime + delta
      if SeriesReader.fitsInt64 delta && SeriesReader.fitsInt64 time then pure (time, delta)
      else throw (.malformed (.timestampOverflow r.decoded))
  if 0 ≤ time ∧ time ≤ maxTime then return (time, delta)
  else throw (.malformed (.timestampOutOfRange time r.decoded))

/-- Reads the next value, and the window that is then in force. -/
def readBits (r : SeriesReader) : Step (UInt64 × BitWindow) := do
  if r.decoded = 0 then
    return (← read 64, r.window)
  else if ← tryRead 1 0 then
    return (r.lastBits, r.window)
  else
    let mark ← read 2
    let window ←
      if mark = 0b11 then do
        let leading ← read 5
        let trailing ← read 6
        pure ⟨leading.toNat, trailing.toNat⟩
      else pure r.window
    let below ← int64 (64 - window.leading)
    let meaningful ← int64 (below - window.trailing)
    if meaningful < 0 ∨ 64 < meaningful then
      throw (.malformed (.meaningfulBits meaningful r.decoded))
    let changed ← read meaningful.toNat
    let shifted ← shiftLeft changed window.trailing
    return (r.lastBits ^^^ shifted, window)

/-- Decodes one point. -/
def readPoint (r : SeriesReader) : ExceptT Error Option (Point × SeriesReader) := do
  let ((time, delta), times) ← readTime r r.times
  let ((bits, window), values) ← readBits r r.values
  return (⟨time, bits⟩, { r with decoded := r.decoded + 1, times, values, lastTime := time,
                                 lastDelta := delta, lastBits := bits, window })

/-- The next point or the failure to decode it. -/
def next (r : SeriesReader) : Option (Option (Except Error Point) × SeriesReader) := do
  if r.failed || r.count ≤ r.decoded then return (none, r)
  else
    match ← (readPoint r).run with
    | .ok (p, r) => return (some (.ok p), r)
    | .error e => return (some (.error e), { r with failed := true })

/-- How many points may still come. -/
def pointsLeft (r : SeriesReader) : Option Nat :=
  if r.failed then some 0 else minus r.count r.decoded

end TimeSeries.Trap
