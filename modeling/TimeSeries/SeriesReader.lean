import TimeSeries.BitReader
import TimeSeries.Series

/-!
# Reading compressed series

A series reader decodes the two streams of a series side by side, one point at a time. It gives
as many points as the series announces, or stops for good at the first one that cannot be decoded.
It never relies on the streams being well formed: each time is checked, and each width.
-/

namespace TimeSeries

/-- A decoder in the middle of a series. -/
structure SeriesReader where
  count : Nat
  decoded : Nat
  times : BitReader
  values : BitReader
  lastTime : Int
  lastDelta : Int
  lastBits : UInt64
  window : BitWindow
  failed : Bool

namespace SeriesReader

/-- A reader of `count` points, before the first. -/
def start (count : Nat) (times values : BitStream) : SeriesReader where
  count
  decoded := 0
  times := BitReader.start times
  values := BitReader.start values
  lastTime := 0
  lastDelta := 0
  lastBits := 0
  window := ⟨0, 0⟩
  failed := false

/-- How many points may still come. -/
def remaining (r : SeriesReader) : Nat := if r.failed then 0 else r.count - r.decoded

/-- Reads the first of the codes whose mark is there; without a mark the code is the large one. -/
def readChangeBy : List ChangeCode → BitReader.Step Int
  | [] => do
    let _ ← BitReader.read largeChange.markWidth
    let v ← BitReader.read largeChange.width
    return Int.ofNat v.toNat - largeChange.bias
  | code :: rest => do
    if ← BitReader.tryRead code.markWidth code.mark then
      let v ← BitReader.read code.width
      return Int.ofNat v.toNat - code.bias
    else readChangeBy rest

/-- Reads the difference of two distances. -/
def readChange : BitReader.Step Int := do
  if ← BitReader.tryRead 1 0 then return 0 else readChangeBy smallChanges

/-- Whether a number is a signed number of 64 bits. -/
def fitsInt64 (n : Int) : Bool := Text.minInt64 ≤ n && n ≤ Text.maxInt64

/-- Reads the next time, and the distance that is then the last one. -/
def readTime (r : SeriesReader) : BitReader.Step (Int × Int) := do
  let (time, delta) ←
    if r.decoded = 0 then do
      let header ← BitReader.read 32
      let offset ← BitReader.read 14
      pure (Int.ofNat header.toNat + Int.ofNat offset.toNat, Int.ofNat offset.toNat)
    else do
      let change ← readChange
      let delta := r.lastDelta + change
      let time := r.lastTime + delta
      if fitsInt64 delta && fitsInt64 time then pure (time, delta)
      else throw (.malformed (.timestampOverflow r.decoded))
  if 0 ≤ time ∧ time ≤ maxTime then return (time, delta)
  else throw (.malformed (.timestampOutOfRange time r.decoded))

/-- Reads the next value, and the window that is then in force. -/
def readBits (r : SeriesReader) : BitReader.Step (UInt64 × BitWindow) := do
  if r.decoded = 0 then
    return (← BitReader.read 64, r.window)
  else if ← BitReader.tryRead 1 0 then
    return (r.lastBits, r.window)
  else
    let mark ← BitReader.read 2
    let window ←
      if mark = 0b11 then do
        let leading ← BitReader.read 5
        let trailing ← BitReader.read 6
        pure ⟨leading.toNat, trailing.toNat⟩
      else pure r.window
    if 64 < window.leading + window.trailing then
      throw (.malformed (.meaningfulBits (64 - window.leading - window.trailing) r.decoded))
    let changed ← BitReader.read window.width
    return (r.lastBits ^^^ (changed <<< UInt64.ofNat window.trailing), window)

/-- Decodes one point. -/
def readPoint (r : SeriesReader) : Except Error (Point × SeriesReader) := do
  let ((time, delta), times) ← r.readTime r.times
  let ((bits, window), values) ← r.readBits r.values
  return (⟨time, bits⟩, { r with decoded := r.decoded + 1, times, values, lastTime := time,
                                 lastDelta := delta, lastBits := bits, window })

/-- The next point or the failure to decode it; nothing at the end and after a failure. -/
def next (r : SeriesReader) : Option (Except Error Point) × SeriesReader :=
  if r.failed || r.count ≤ r.decoded then (none, r)
  else
    match r.readPoint with
    | .ok (p, r) => (some (.ok p), r)
    | .error e => (some (.error e), { r with failed := true })

/-- All that comes, with the reader after it. -/
def drain (r : SeriesReader) : List (Except Error Point) × SeriesReader :=
  go r.remaining r
where
  go : Nat → SeriesReader → List (Except Error Point) × SeriesReader
    | 0, r => ([], r)
    | fuel + 1, r =>
      match r.next with
      | (none, r) => ([], r)
      | (some item, r) =>
        let (items, r) := go fuel r
        (item :: items, r)

/-- All the points, or the failure to decode one. -/
def points (r : SeriesReader) : Except Error (List Point) := r.drain.1.mapM id

/-- Reads a serialized series, which takes up all of the bytes. -/
def ofBytes (bytes : Bytes) : Except Error SeriesReader := do
  let (count, rest) ← bytes.splitInt32
  if count < 0 then throw (.malformed (.negativePointCount count))
  let (times, rest) ← BitStream.ofBytes rest
  let (values, rest) ← BitStream.ofBytes rest
  if rest ≠ [] then throw (.malformed (.trailingBytes rest.length))
  return start count.toNat times values

end SeriesReader

/-- A reader of the points that a series has now. -/
def Series.read (s : Series) : SeriesReader := SeriesReader.start s.count s.times s.values

end TimeSeries
