import TimeSeries.BitStream

/-!
# Reading bit streams

A reader is a position in a stream. The stream it reads is a value, so a reader never sees a bit
that was written after it was made. Reading is a step from one reader to the next; a step that
fails has no next reader, and the one at hand has not moved.
-/

namespace TimeSeries

/-- A position in a stream. -/
structure BitReader where
  stream : BitStream
  position : Nat

/-- A step that reads: it fails, or gives a result and the reader after it. -/
abbrev BitReader.Step (α : Type) := StateT BitReader (Except Error) α

namespace BitReader

/-- A reader before the first bit. -/
def start (stream : BitStream) : BitReader := ⟨stream, 0⟩

/-- The number of bits that are left. -/
def remaining (r : BitReader) : Nat := r.stream.length - r.position

/-- The field of 1 to 64 bits at a position, as the low bits of a word. -/
def fieldAt (words : Array UInt64) (position n : Nat) : UInt64 :=
  let index := position / 64
  let shift := position % 64
  let word := words[index]?.getD 0
  if n < 64 - shift then
    (word <<< UInt64.ofNat shift) >>> UInt64.ofNat (64 - n)
  else
    let head := (word <<< UInt64.ofNat shift) >>> UInt64.ofNat shift
    let carry := shift + n - 64
    if carry = 0 then head
    else (head <<< UInt64.ofNat carry) |||
      ((words[index + 1]?.getD 0) >>> UInt64.ofNat (64 - carry))

/-- Reads the next `n` bits. No bits read as zero, more than 64 are refused. -/
def read (n : Nat) : Step UInt64 := fun r =>
  if 64 < n then .error (.invalid (.readWidth n))
  else if n = 0 then .ok (0, r)
  else if r.stream.length < r.position + n then
    .error (.malformed (.readPastEnd n r.position r.stream.length))
  else .ok (fieldAt r.stream.words r.position n, { r with position := r.position + n })

/-- Reads `n` bits and stays where it is unless they are the expected ones. -/
def tryRead (n : Nat) (expected : UInt64) : Step Bool := fun r => do
  let (found, next) ← read n r
  return if found = expected then (true, next) else (false, r)

/-- Reads fields of `n` bits until one fails, and gives the reader at the failure. A width of zero
never fails, so the number of fields is bounded by one more than the bits that are left. -/
def drain (n : Nat) (r : BitReader) : List UInt64 × Option Error × BitReader :=
  go (r.remaining + 1) r
where
  go : Nat → BitReader → List UInt64 × Option Error × BitReader
    | 0, r => ([], none, r)
    | fuel + 1, r =>
      match read n r with
      | .error e => ([], some e, r)
      | .ok (v, next) =>
        let (rest, stop) := go fuel next
        (v :: rest, stop)

end BitReader

end TimeSeries
