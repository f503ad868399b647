import TimeSeries.BitStream
import TimeSeries.Point

/-!
# Compressed series

A series keeps its points in two bit streams. The first holds the times: a header with the start
of the block of two hours in which the first point lies and the offset of the point in it, and
then, for each further point, how much its distance from the point before differs from the
distance before that, in a code that is shorter for smaller differences. The second holds the
values: the first as it is, and then, for each further point, the exclusive or with the value
before, of which only the bits between its leading and trailing zeros are written, in the window
of the value before when they fit into it.
-/

namespace TimeSeries

/-- The largest time that the code holds. -/
def maxTime : Int := 2147483647

/-- The length of the block to which the header of a series is aligned. -/
def blockSeconds : Int := 7200

/-- The bits of a word between its leading and its trailing zeros. -/
structure BitWindow where
  leading : Nat
  trailing : Nat
  deriving DecidableEq, Repr

/-- The number of bits in a window. -/
def BitWindow.width (w : BitWindow) : Nat := 64 - w.leading - w.trailing

/-- A window into which nothing fits: there is no window yet. -/
def BitWindow.none : BitWindow := ⟨64, 64⟩

/-- The zeros above the highest bit of a word. -/
def leadingZeros (w : UInt64) : Nat := if w = 0 then 64 else 63 - w.toNat.log2

/-- The zeros below the lowest bit of a word. -/
def trailingZeros (w : UInt64) : Nat :=
  ((List.range 64).find? fun i => w.toNat.testBit i).getD 64

/-- The window of a word. The counts end at 31 and 63, which is what their fields can hold. -/
def BitWindow.of (w : UInt64) : BitWindow := ⟨min (leadingZeros w) 31, min (trailingZeros w) 63⟩

/-! ## The code of the times -/

/-- A code for differences from `-bias` to `bias + 1`: a mark, then the difference plus the bias. -/
structure ChangeCode where
  markWidth : Nat
  mark : UInt64
  width : Nat
  bias : Int
  deriving DecidableEq, Repr

/-- Whether a difference is in the range of a code. -/
def ChangeCode.holds (c : ChangeCode) (change : Int) : Bool :=
  -c.bias ≤ change && change ≤ c.bias + 1

/-- The codes of the small differences, shorter ones first. No difference is a single zero. -/
def smallChanges : List ChangeCode := [⟨2, 0b10, 7, 63⟩, ⟨3, 0b110, 9, 255⟩, ⟨4, 0b1110, 12, 2047⟩]

/-- The code of all other differences. -/
def largeChange : ChangeCode := ⟨4, 0b1111, 32, 2147483647⟩

/-- The fields that a code writes for a difference. -/
def ChangeCode.fields (c : ChangeCode) (change : Int) : List BitField :=
  [⟨c.markWidth, c.mark⟩, ⟨c.width, UInt64.ofNat (change + c.bias).toNat⟩]

/-- The fields of a difference, by the shortest code that holds it. -/
def changeFields (change : Int) : Except Error (List BitField) :=
  if change = 0 then .ok [⟨1, 0⟩]
  else
    match smallChanges.find? (·.holds change) with
    | some code => .ok (code.fields change)
    | none =>
      if largeChange.holds change then .ok (largeChange.fields change)
      else .error (.invalid (.deltaOfDelta change))

/-! ## The code of the values -/

/-- The fields of a value after another, and the window that is then in force. -/
def valueFields (before bits : UInt64) (window : BitWindow) : List BitField × BitWindow :=
  let changed := bits ^^^ before
  if changed = 0 then ([⟨1, 0⟩], window)
  else
    let own := BitWindow.of changed
    if window.leading ≤ own.leading ∧ window.trailing ≤ own.trailing then
      ([⟨2, 0b10⟩, ⟨window.width, changed >>> UInt64.ofNat window.trailing⟩], window)
    else
      ([⟨2, 0b11⟩, ⟨5, UInt64.ofNat own.leading⟩, ⟨6, UInt64.ofNat own.trailing⟩,
        ⟨own.width, changed >>> UInt64.ofNat own.trailing⟩], own)

/-! ## Series -/

/-- A compressed series, with what the code of the next point depends on. -/
structure Series where
  times : BitStream
  values : BitStream
  count : Nat
  lastTime : Int
  lastDelta : Int
  lastBits : UInt64
  window : BitWindow

namespace Series

/-- The series without points. -/
def empty : Series where
  times := BitStream.withCapacity 1
  values := BitStream.withCapacity 1
  count := 0
  lastTime := 0
  lastDelta := 0
  lastBits := 0
  window := BitWindow.none

instance : Inhabited Series := ⟨empty⟩

/-- The fields of a time, and the distance that is then the last one. -/
def timeFields (s : Series) (time : Int) : Except Error (List BitField × Int) :=
  if s.count = 0 then
    let offset := time % blockSeconds
    .ok ([⟨32, UInt64.ofNat (time - offset).toNat⟩, ⟨14, UInt64.ofNat offset.toNat⟩], offset)
  else do
    let delta := time - s.lastTime
    let fields ← changeFields (delta - s.lastDelta)
    return (fields, delta)

/-- The fields of a value, and the window that is then in force. -/
def bitsFields (s : Series) (bits : UInt64) : List BitField × BitWindow :=
  if s.count = 0 then ([⟨64, bits⟩], BitWindow.none)
  else valueFields s.lastBits bits s.window

/-- Appends a point: its time, and then its value. -/
def append (s : Series) (p : Point) : Outcome Series Unit :=
  if 0 ≤ p.time ∧ p.time ≤ maxTime then
    match s.timeFields p.time with
    | .error e => (.error e, s)
    | .ok (timeFields, delta) =>
      match s.times.writeAll timeFields with
      | (.error e, times) => (.error e, { s with times })
      | (.ok (), times) =>
        let (bitsFields, window) := s.bitsFields p.bits
        match s.values.writeAll bitsFields with
        | (.error e, values) => (.error e, { s with times, values, lastDelta := delta })
        | (.ok (), values) =>
          (.ok (), { times, values, count := s.count + 1, lastTime := p.time,
                     lastDelta := delta, lastBits := p.bits, window })
  else (.error (.invalid (.timeOutsideCode p.time)), s)

/-- Appends points up to the first that is refused. The ones before it stay. -/
def appendAll (s : Series) : List Point → Outcome Series Unit
  | [] => (.ok (), s)
  | p :: rest =>
    match s.append p with
    | (.ok (), s) => s.appendAll rest
    | (.error e, s) => (.error e, s)

/-- The number of bytes of the serialized series. -/
def byteSize (s : Series) : Nat := 4 + s.times.byteSize + s.values.byteSize

/-- The serialized series: the number of points in four bytes, and the two streams. -/
def toBytes (s : Series) : Except Error Bytes :=
  if s.count ≤ maxInt32 then do
    let times ← s.times.toBytes
    let values ← s.values.toBytes
    return Bytes.ofNat 4 s.count ++ times ++ values
  else .error (.internal s!"series too long to serialize: {s.count}")

end Series

end TimeSeries
