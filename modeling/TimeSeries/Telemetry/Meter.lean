/-!
# Meters

A meter is something that is measured while the store works. A counter adds up what it is given, a
gauge shows what it was given last, and a histogram keeps all samples. How long something took is
known only outside of this library, so a sample of a time says no more than that it was taken.
-/

namespace TimeSeries

/-- What is measured. -/
inductive Meter where
  | ingestedPoints
  | rejectedLines
  | latePoints
  | queryTime
  | querySeries
  | lifecycleTime
  | frozenChunks
  | deletedChunks
  | liveChunks
  deriving DecidableEq, Repr

/-- What a meter does with what it is given. -/
inductive MeterKind where
  | counter
  | gauge
  | histogram
  deriving DecidableEq, Repr

/-- What a meter counts in. -/
inductive MeterUnit where
  | count
  | seconds
  deriving DecidableEq, Repr

/-- The name of a kind. -/
def MeterKind.name : MeterKind → String
  | counter => "counter"
  | gauge => "gauge"
  | histogram => "histogram"

/-- The name of a unit. -/
def MeterUnit.name : MeterUnit → String
  | count => "count"
  | seconds => "seconds"

namespace Meter

/-- All meters. -/
def all : List Meter :=
  [ingestedPoints, rejectedLines, latePoints, queryTime, querySeries, lifecycleTime, frozenChunks,
    deletedChunks, liveChunks]

/-- The name under which a meter is published. -/
def name : Meter → String
  | ingestedPoints => "chunkdb_ingest_points"
  | rejectedLines => "chunkdb_ingest_rejected_lines"
  | latePoints => "chunkdb_late_points"
  | queryTime => "chunkdb_query_duration_seconds"
  | querySeries => "chunkdb_query_series"
  | lifecycleTime => "chunkdb_lifecycle_duration_seconds"
  | frozenChunks => "chunkdb_chunks_read_only"
  | deletedChunks => "chunkdb_chunks_deleted"
  | liveChunks => "chunkdb_live_chunks"

/-- The kind of a meter. -/
def kind : Meter → MeterKind
  | queryTime | querySeries | lifecycleTime => .histogram
  | liveChunks => .gauge
  | _ => .counter

/-- The unit of a meter. -/
def unit : Meter → MeterUnit
  | queryTime | lifecycleTime => .seconds
  | _ => .count

/-- What is published about a meter. -/
def description : Meter → String
  | ingestedPoints => "Total number of points stored via ChunkManager::add_metric."
  | rejectedLines => "Ingest lines dropped as malformed."
  | latePoints => "Points dropped because their chunk was already read-only."
  | queryTime => "Wall time of ChunkManager::query."
  | querySeries => "Number of series returned per query."
  | lifecycleTime => "Wall time of one chunk lifecycle run."
  | frozenChunks => "Chunks converted to the read-only representation."
  | deletedChunks => "Stale chunks closed and removed."
  | liveChunks => "Chunks currently held by the manager."

end Meter

/-- Something that a meter is given. -/
inductive Measurement where
  | number (meter : Meter) (n : Nat)
  | time (meter : Meter)
  deriving DecidableEq, Repr

/-- What a meter shows. -/
inductive Reading where
  | value (n : Nat)
  | samples (ns : List Nat)
  | times (count : Nat)
  deriving DecidableEq, Repr

namespace Meter

/-- The numbers that a meter was given, in order. -/
def numbers (m : Meter) (given : List Measurement) : List Nat :=
  given.filterMap fun
    | .number meter n => if meter = m then some n else none
    | .time _ => none

/-- What a meter shows after some measurements. Before the first it shows nothing. -/
def read (m : Meter) (given : List Measurement) : Option Reading :=
  match m.kind, m.unit with
  | .histogram, .seconds =>
    match given.count (.time m) with
    | 0 => none
    | n => some (.times n)
  | kind, _ =>
    match m.numbers given, kind with
    | [], _ => none
    | n :: ns, .counter => some (.value (ns.foldl (· + ·) n))
    | n :: ns, .gauge => some (.value (ns.getLastD n))
    | n :: ns, .histogram => some (.samples (n :: ns))

end Meter

end TimeSeries
