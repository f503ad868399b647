import TimeSeries.Error

/-!
# Bytes in network order

A serialized value is a list of bytes, the most significant byte of a number first. A reader takes
what it needs from the front and hands on the rest.
-/

namespace TimeSeries

/-- A list of bytes. -/
abbrev Bytes := List UInt8

namespace Bytes

/-- The last `count` bytes of a number, most significant first. -/
def ofNat : (count : Nat) → Nat → Bytes
  | 0, _ => []
  | count + 1, n => ofNat count (n / 256) ++ [UInt8.ofNat n]

/-- The number that bytes spell, most significant first. -/
def toNat (bytes : Bytes) : Nat := bytes.foldl (fun n b => 256 * n + b.toNat) 0

/-- The number that four bytes spell in two's complement. -/
def toInt32 (bytes : Bytes) : Int := Int.bmod bytes.toNat 0x100000000

@[simp] theorem length_ofNat (count n : Nat) : (ofNat count n).length = count := by
  induction count generalizing n with
  | zero => rfl
  | succ count ih => simp [ofNat, ih]

/-- Takes `n` bytes from the front. -/
def split (bytes : Bytes) (n : Nat) : Except Error (Bytes × Bytes) :=
  if bytes.length < n then .error (.malformed (.truncated n bytes.length))
  else .ok (bytes.take n, bytes.drop n)

/-- Takes a signed number of 32 bits from the front. -/
def splitInt32 (bytes : Bytes) : Except Error (Int × Bytes) := do
  let (head, rest) ← bytes.split 4
  return (toInt32 head, rest)

/-- Takes a byte from the front. -/
def splitByte (bytes : Bytes) : Except Error (Nat × Bytes) := do
  let (head, rest) ← bytes.split 1
  return (toNat head, rest)

end Bytes

/-- The largest signed number of 32 bits. -/
def maxInt32 : Nat := 2147483647

end TimeSeries
