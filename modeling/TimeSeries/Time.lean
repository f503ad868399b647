import TimeSeries.Text.Integer

/-!
# Times

A time is a signed number of seconds that fits into 64 bits. What two times make together may not
fit. There is no time for it then, and whoever asked for it stops without an answer: this is what
`none` means wherever times are calculated.
-/

namespace TimeSeries

/-- The last time. -/
def lastTime : Int := 9223372036854775807

namespace Time

/-- A number of seconds that is a time. -/
def Fits (n : Int) : Prop := Text.minInt64 ≤ n ∧ n ≤ lastTime

instance (n : Int) : Decidable (Fits n) := inferInstanceAs (Decidable (_ ∧ _))

/-- The time of a number of seconds. -/
def ofSeconds? (n : Int) : Option Int := if Fits n then some n else none

/-- Two times added up. -/
def plus? (a b : Int) : Option Int := ofSeconds? (a + b)

/-- A time taken from another. -/
def minus? (a b : Int) : Option Int := ofSeconds? (a - b)

/-- The number of seconds at which the window of some length begins that holds a time. Windows are
counted from 0. -/
def floor (length time : Int) : Int := time - time % length

/-- The first time of the window of some length that holds a time. -/
def windowStart? (length time : Int) : Option Int := minus? time (time % length)

end Time

end TimeSeries
