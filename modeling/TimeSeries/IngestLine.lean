import TimeSeries.Metric
import TimeSeries.Point
import TimeSeries.Text.Binary64

/-!
# Ingest lines

An ingest line brings one point of one metric: the word `put`, a name, a time, a value, and any
number of tags, with blanks between them.
-/

namespace TimeSeries

/-- A point and the metric to which it belongs. -/
structure PutRecord where
  metric : Metric
  point : Point
  deriving DecidableEq, Repr

namespace PutRecord

/-- Reads the time of a record. -/
def parseTime (token : String) : Except Error Int :=
  match Text.readInteger token.toList with
  | .ok time => .ok time
  | .error fault => .error (.invalid (.badTimestamp token fault))

/-- Reads the value of a record. -/
def parseValue (token : String) : Except Error UInt64 :=
  match Text.readBinary64 token.toList with
  | some bits => .ok bits
  | none => .error (.invalid (.badValue token))

/-- Reads a line. -/
def parse (line : String) : Except Error PutRecord :=
  match Text.words line with
  | "put" :: name :: time :: value :: tags => do
    let time ← parseTime time
    let bits ← parseValue value
    let metric ← Metric.new name tags
    return ⟨metric, ⟨time, bits⟩⟩
  | "put" :: _ => .error (.invalid (.shortIngestLine line))
  | _ => .error (.invalid (.notAnIngestLine line))

end PutRecord

end TimeSeries
