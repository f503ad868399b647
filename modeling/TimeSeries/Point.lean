/-!
# Points

A point is a value at a time. The time counts the seconds of the epoch, the value is a binary
floating-point number and is held as its 64 bits, so that each NaN and the negative zero keep
their identity.
-/

namespace TimeSeries

/-- A value, as the bits of a floating-point number, at a time in seconds. -/
structure Point where
  time : Int
  bits : UInt64
  deriving DecidableEq, Repr, Inhabited

/-- The points of one metric, as a query answers them. -/
structure MetricPoints where
  metric : String
  points : List Point
  deriving DecidableEq, Repr

namespace Point

/-- The value of a point as a number. -/
def value (p : Point) : Float := Float.ofBits p.bits

/-- Equality of times and of the numbers, in which a NaN differs from itself and the two zeros
are equal. -/
def sameNumber (p q : Point) : Bool := p.time == q.time && p.value == q.value

/-- Puts a point into points in descending order of time, over an older point of its time. -/
def insertDescending (p : Point) : List Point → List Point
  | [] => [p]
  | q :: rest =>
    if q.time < p.time then p :: q :: rest
    else if q.time = p.time then p :: rest
    else q :: insertDescending p rest

/-- Points in ascending order of time, of which the last one of each time is kept. Points that
come nearly in order cost a constant time each. -/
def dedup (points : List Point) : List Point :=
  (points.foldl (fun kept p => insertDescending p kept) []).reverse

end Point

end TimeSeries
