import TimeSeries.Store.Frozen

/-!
# Growing stores

A growing store keeps a compressed series for each id and takes points for all of them. A series
exists from the first attempt to add a point to it, but as long as that has not succeeded the
store holds no points of it. Freezing a store copies it: every series with points is serialized
into a record.
-/

namespace TimeSeries

/-- Series that take points. -/
structure GrowingStore where
  series : Std.TreeMap SeriesId Series
  closed : Bool

namespace GrowingStore

/-- The store without series. -/
def empty : GrowingStore := ⟨∅, false⟩

/-- Adds a point to a series. -/
def add (s : GrowingStore) (id : SeriesId) (p : Point) : Outcome GrowingStore Unit :=
  if s.closed then (.error (.closed "metric store"), s)
  else
    let (result, series) := (s.series.getD id Series.empty).append p
    (result, { s with series := s.series.insert id series })

/-- The points of a series, if it has any. -/
def get (s : GrowingStore) (id : SeriesId) : Except Error (Option (List Point)) :=
  match s.series[id]? with
  | none => .ok none
  | some series => if series.count = 0 then .ok none else some <$> series.read.points

/-- The ids of the series, in ascending order. -/
def ids (s : GrowingStore) : List SeriesId := s.series.keys

/-- The size of the store. The bytes of each series are rounded down. -/
def stats (s : GrowingStore) : StoreStats :=
  s.series.foldl (fun n _ series =>
    ⟨n.series + 1, n.points + series.count,
      n.bytes + (series.times.length + series.values.length) / 8⟩) {}

/-- Puts the series with points into records, up to the first that cannot be. -/
def putSeries [BlockCodec] (compression : Compression) :
    List (SeriesId × Series) → RecordMap → Disk → Outcome (RecordMap × Disk) Unit
  | [], records, disk => (.ok (), records, disk)
  | (id, series) :: rest, records, disk =>
    if series.count = 0 then putSeries compression rest records disk
    else
      match series.toBytes >>= compression.encode with
      | .error e => (.error e, records, disk)
      | .ok stored =>
        match records.put disk id stored with
        | (.error e, records, disk) => (.error e, records, disk)
        | (.ok (), records, disk) => putSeries compression rest records disk

/-- A frozen copy of the store. When the copy fails its file is removed again. -/
def freeze [BlockCodec] (s : GrowingStore) (disk : Disk) (dataset : String) (form : FrozenForm) :
    Outcome Disk FrozenStore :=
  match RecordMap.create (form.file dataset) disk with
  | (.error e, disk) => (.error e, disk)
  | (.ok records, disk) =>
    match putSeries form.compression s.series.toList records disk with
    | (.error e, records, disk) => (.error e, records.discard disk)
    | (.ok (), records, disk) => (.ok ⟨records, form.compression, s.stats.points⟩, disk)

/-- Drops all series. From then on no point is taken. -/
def close (_ : GrowingStore) : GrowingStore := { empty with closed := true }

end GrowingStore

end TimeSeries
