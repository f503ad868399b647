import TimeSeries.Bytes

/-!
# Bit streams

A bit stream is a growing sequence of bits packed into words of 64, the first bit at the top of
the first word. A write appends a field of 1 to 64 bits, and the words double in number when the
field does not fit.

A write sets bits and never clears one. On a stream that was only ever written to, the bits after
the end are zero, so the field arrives unchanged. The last word of a stream that was read back
from bytes may hold other bits after the end, and a write joins with them.
-/

namespace TimeSeries

/-- A growing sequence of `length` bits in words of 64. -/
structure BitStream where
  words : Array UInt64
  length : Nat
  words_pos : 0 < words.size
  length_le : length ≤ 64 * words.size

/-- A field of a stream: the low `width` bits of `value`. -/
structure BitField where
  width : Nat
  value : UInt64
  deriving DecidableEq, Repr

namespace BitStream

/-! ## Making and measuring -/

/-- An empty stream with room for `words` words, and for one at least. -/
def withCapacity (words : Nat) : BitStream where
  words := Array.replicate (max words 1) 0
  length := 0
  words_pos := by rw [Array.size_replicate]; omega
  length_le := by simp

/-- An empty stream of the usual capacity. -/
def empty : BitStream := withCapacity 16

instance : Inhabited BitStream := ⟨empty⟩

/-- The number of words in which the stream has room. -/
def capacity (s : BitStream) : Nat := s.words.size

/-- The number of words that hold a bit of the stream. -/
def usedWords (s : BitStream) : Nat := (s.length + 63) / 64

/-- The bit at a position, counted from the front. -/
def bit (s : BitStream) (i : Nat) : Bool :=
  (s.words[i / 64]?.getD 0).toNat.testBit (63 - i % 64)

/-- The bits of the stream, in order. -/
def toList (s : BitStream) : List Bool := (List.range s.length).map s.bit

/-! ## Writing -/

/-- Doubles the words if a field of `n` bits does not fit. Once is enough for 64 bits. -/
def reserve (s : BitStream) (n : Nat) : BitStream :=
  if 64 * s.words.size < s.length + n then
    { words := s.words ++ Array.replicate s.words.size 0
      length := s.length
      words_pos := by have := s.words_pos; rw [Array.size_append]; omega
      length_le := by have := s.length_le; rw [Array.size_append]; omega }
  else s

theorem room_reserve (s : BitStream) {n : Nat} (h : n ≤ 64) :
    s.length + n ≤ 64 * (s.reserve n).words.size := by
  have := s.words_pos
  have := s.length_le
  unfold reserve
  split
  · simp; omega
  · omega

/-- Sets in one word the bits that are set in `bits`. -/
def setBits (words : Array UInt64) (i : Nat) (bits : UInt64) : Array UInt64 :=
  words.modify i (· ||| bits)

@[simp] theorem size_setBits (words : Array UInt64) (i : Nat) (bits : UInt64) :
    (setBits words i bits).size = words.size := by simp [setBits]

/-- The words after a field of `n` bits was put at a position: its head into the word there and,
if it runs over the end of that word, its tail into the next. -/
def putField (words : Array UInt64) (position n : Nat) (value : UInt64) : Array UInt64 :=
  let index := position / 64
  let shift := position % 64
  let headed := setBits words index ((value <<< UInt64.ofNat (64 - n)) >>> UInt64.ofNat shift)
  if 64 < shift + n then
    setBits headed (index + 1) (value <<< UInt64.ofNat (64 - (shift + n - 64)))
  else headed

@[simp] theorem size_putField (words : Array UInt64) (position n : Nat) (value : UInt64) :
    (putField words position n value).size = words.size := by
  unfold putField
  dsimp only
  split <;> simp

/-- Appends a field of at most 64 bits. -/
def append (s : BitStream) (n : Nat) (value : UInt64) (h : n ≤ 64) : BitStream where
  words := putField (s.reserve n).words s.length n value
  length := s.length + n
  words_pos := by simpa using (s.reserve n).words_pos
  length_le := by simpa using s.room_reserve h

/-- Writes the low `n` bits of a value; a width outside of 1 to 64 is refused. -/
def write (s : BitStream) (n : Nat) (value : UInt64) : Outcome BitStream Unit :=
  if h : 1 ≤ n ∧ n ≤ 64 then (.ok (), s.append n value h.2)
  else (.error (.invalid (.writeWidth n)), s)

/-- Writes fields up to the first that is refused. The ones before it stay. -/
def writeAll (s : BitStream) : List BitField → Outcome BitStream Unit
  | [] => (.ok (), s)
  | field :: rest =>
    match s.write field.width field.value with
    | (.ok (), s) => s.writeAll rest
    | (.error e, s) => (.error e, s)

/-! ## Bytes -/

/-- The number of bytes of the serialized stream. -/
def byteSize (s : BitStream) : Nat := 5 + 8 * s.usedWords

/-- The bytes of a list of words. -/
def wordsToBytes (words : List UInt64) : Bytes := words.flatMap fun w => Bytes.ofNat 8 w.toNat

/-- The words that bytes spell, eight at a time; a shorter rest is left out. -/
def wordsOfBytes : Bytes → List UInt64
  | a :: b :: c :: d :: e :: f :: g :: h :: rest =>
    UInt64.ofNat (Bytes.toNat [a, b, c, d, e, f, g, h]) :: wordsOfBytes rest
  | _ => []

/-- The serialized stream: the number of used words in four bytes, the number of bits in a last
word that is not full in one, and the used words. -/
def toBytes (s : BitStream) : Except Error Bytes :=
  if s.usedWords ≤ maxInt32 then
    .ok (Bytes.ofNat 4 s.usedWords ++
      UInt8.ofNat (s.length % 64) :: wordsToBytes (s.words.toList.take s.usedWords))
  else .error (.internal s!"bit stream too large to serialize: {s.usedWords} words")

/-- The stream in words, of which the last holds `offset` bits, or 64 if `offset` is zero. -/
def ofWords (words : List UInt64) (offset : Nat) (h : offset < 64) : BitStream :=
  match words with
  | [] => { words := #[0], length := 0, words_pos := by simp, length_le := by simp }
  | first :: rest =>
    { words := (first :: rest).toArray
      length := if offset = 0 then 64 * (rest.length + 1) else 64 * rest.length + offset
      words_pos := by simp
      length_le := by rw [List.size_toArray, List.length_cons]; split <;> omega }

/-- Reads a serialized stream from the front of bytes, and hands on the rest. -/
def ofBytes (bytes : Bytes) : Except Error (BitStream × Bytes) := do
  let (count, rest) ← bytes.splitInt32
  let (offset, rest) ← Bytes.splitByte rest
  if count < 0 then throw (.malformed (.negativeWordCount count))
  if h : offset < 64 then
    if count = 0 ∧ offset ≠ 0 then throw (.malformed .offsetOnEmptyStream)
    let (body, rest) ← Bytes.split rest (8 * count.toNat)
    return (ofWords (wordsOfBytes body) offset h, rest)
  else throw (.malformed (.offsetOutOfRange offset))

end BitStream

end TimeSeries
