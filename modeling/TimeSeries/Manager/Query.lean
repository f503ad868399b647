import TimeSeries.Manager.Basic

/-!
# Queries over many chunks

A query over a range of times is put to every chunk whose window meets the range, and the chunks
answer with all that they hold. The points of one metric from several chunks are put together in
the order of the windows. Without an aggregation the points of each metric are then ordered by
time, and of those at one time the last is kept. The sum adds up all points of all metrics time by
time.
-/

namespace TimeSeries

/-- Adds points to those of their metric, which takes the last place if it is new. -/
def MetricPoints.addTo (s : MetricPoints) : List MetricPoints → List MetricPoints
  | [] => [s]
  | t :: rest =>
    if t.metric = s.metric then ⟨t.metric, t.points ++ s.points⟩ :: rest else t :: s.addTo rest

/-- The points of each metric put together, the metrics in the order of their first place. -/
def MetricPoints.group (all : List MetricPoints) : List MetricPoints :=
  all.foldl (fun groups s => s.addTo groups) []

namespace Point

/-- The values of some points by their times. -/
def valuesByTime (points : List Point) : Std.TreeMap Int (List UInt64) :=
  points.foldl (fun byTime p => byTime.alter p.time fun old => some (old.getD [] ++ [p.bits])) ∅

/-- Values added up, from zero on. -/
def sumBits (values : List UInt64) : UInt64 :=
  (values.foldl (fun sum bits => sum + Float.ofBits bits) 0.0).toBits

/-- The sum of the values at each time. -/
def sums (points : List Point) : List Point :=
  (valuesByTime points).toList.map fun (time, values) => ⟨time, sumBits values⟩

end Point

namespace Manager

/-- The answers of some chunks, up to the first that fails. -/
def queryChunks [BlockCodec] (m : Manager) (q : Query) :
    List (Chunk GrowingStore) → Except Error (List MetricPoints) × List Signal
  | [] => (.ok [], [])
  | c :: rest =>
    match c.query m.disk m.tags q with
    | (.error e, signals) => (.error e, signals)
    | (.ok series, signals) =>
      let (more, moreSignals) := m.queryChunks q rest
      (more.map (series ++ ·), signals ++ moreSignals)

/-- What an aggregation makes of the points of each metric. -/
def aggregate (q : Query) (groups : List MetricPoints) : Aggregation → List MetricPoints
  | .none => groups.map fun s => ⟨s.metric, Point.dedup s.points⟩
  | .zimsum =>
    [⟨s!"{Aggregation.zimsum.display} {q.display}", Point.sums (groups.flatMap (·.points))⟩]

/-- The points of the metrics that a query selects, from the chunks that meet a range of times. -/
def query [BlockCodec] (m : Manager) (q : Query) (first last : Int) (aggregation : Aggregation) :
    Except Error (List MetricPoints) × List Signal :=
  let (result, signals) := m.queryChunks q (m.chunkList.filter (·.info.overlaps first last))
  match result with
  | .error e => (.error e, signals)
  | .ok series =>
    let answer := aggregate q (MetricPoints.group series) aggregation
    (.ok answer, signals ++
      [.measured (.time .queryTime), .measured (.number .querySeries answer.length)])

end Manager

end TimeSeries
