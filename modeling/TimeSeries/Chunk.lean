import TimeSeries.Store.Basic
import TimeSeries.TagIndex
import TimeSeries.Telemetry.Effect

/-!
# Chunks

A chunk holds the points of one window of time: its own store, and ids from a tag index that it
shares with other chunks. A chunk takes points until its store is frozen, and it is *evicted* when
its store is gone. It never goes back.

A query skips a series whose record cannot be decoded or turns out to have changed, and reports
it. Any other failure to read a series is the answer to the query.
-/

namespace TimeSeries

/-- The dataset name of a chunk and its window, which ends before `stop`. -/
structure ChunkInfo where
  dataset : String
  start : Int
  stop : Int
  deriving DecidableEq, Repr

namespace ChunkInfo

/-- Whether a window, with its end, meets the times from `first` to `last`. -/
def overlaps (info : ChunkInfo) (first last : Int) : Bool :=
  (info.start ≤ first && first ≤ info.stop) || (info.start ≤ last && last ≤ info.stop) ||
    (first ≤ info.start && info.stop ≤ last)

/-- How a chunk is named in reports. -/
def display (info : ChunkInfo) : String := s!"{info.dataset}[{info.start}, {info.stop})"

end ChunkInfo

/-- What may still happen to a chunk. -/
inductive ChunkState where
  /-- It takes points. -/
  | growing
  /-- It only answers queries. -/
  | frozen
  /-- It is empty for good. -/
  | evicted
  deriving DecidableEq, Repr

/-- A window and its store, which is absent once the chunk has been evicted. -/
structure Chunk (σ : Type) where
  info : ChunkInfo
  store : Option (Store σ)

namespace Chunk

variable {σ : Type} [PointStore σ]

/-- A chunk with a store that takes points. -/
def withStore (info : ChunkInfo) (store : σ) : Chunk σ := ⟨info, some (.growing store)⟩

/-- An empty chunk that takes points. -/
def new (info : ChunkInfo) : Chunk GrowingStore := withStore info GrowingStore.empty

/-- A chunk without a store. -/
def evicted (info : ChunkInfo) : Chunk σ := ⟨info, none⟩

/-- The state of a chunk. -/
def state (c : Chunk σ) : ChunkState :=
  match c.store with
  | none => .evicted
  | some store => if store.isFrozen then .frozen else .growing

/-- Whether a chunk takes no points. -/
def isClosedToPoints (c : Chunk σ) : Bool := c.state != .growing

/-- The size of the store of a chunk. -/
def stats (c : Chunk σ) : StoreStats :=
  match c.store with
  | none => {}
  | some store => store.stats

/-- The error of adding a point to a chunk that takes none. -/
def lateError (c : Chunk σ) : Error := .readOnlyInsertion c.info.dataset

/-- Adds a point of a metric, which gets an id if it has none. -/
def addPoint (c : Chunk σ) (tags : TagIndex) (m : Metric) (p : Point) :
    Outcome (Chunk σ × TagIndex) Unit :=
  match c.store with
  | some (.growing store) =>
    match tags.getOrCreate m with
    | (.error e, tags) => (.error e, c, tags)
    | (.ok id, tags) =>
      let (result, store) := PointStore.add store id p
      (result, { c with store := some (.growing store) }, tags)
  | _ => (.error c.lateError, c, tags)

/-- Whether a failure to read a series is only reported. -/
def isDamage : Error → Bool
  | .malformed _ | .corrupt .. => true
  | _ => false

/-- The points of the series with some ids. -/
def readSeries [BlockCodec] (c : Chunk σ) (store : Store σ) (disk : Disk) (tags : TagIndex) :
    List SeriesId → Except Error (List MetricPoints) × List Signal
  | [] => (.ok [], [])
  | id :: rest =>
    match store.get disk id with
    | .ok none => c.readSeries store disk tags rest
    | .ok (some points) =>
      let (result, signals) := c.readSeries store disk tags rest
      (result.map (⟨tags.fullName id, points⟩ :: ·), signals)
    | .error e =>
      if isDamage e then
        let (result, signals) := c.readSeries store disk tags rest
        (result, .event (.seriesDecodeFailed c.info.dataset id e.message) :: signals)
      else (.error e, [])

/-- The points of the metrics that a query selects, in the order of their ids. -/
def query [BlockCodec] (c : Chunk σ) (disk : Disk) (tags : TagIndex) (q : Query) :
    Except Error (List MetricPoints) × List Signal :=
  match c.store with
  | none => (.ok [], [])
  | some store => c.readSeries store disk tags (tags.lookup q)

/-- Puts a frozen copy in the place of the store and closes the store. The answer is whether there
was anything to freeze. A failure to close the old store is only reported. -/
def freeze [BlockCodec] (c : Chunk σ) (disk : Disk) (form : FrozenForm) :
    Effect (Chunk σ × Disk) Bool :=
  match c.store with
  | none => ⟨.ok false, (c, disk), []⟩
  | some old =>
    match old.freeze disk c.info.dataset form with
    | (.error e, disk) => ⟨.error e, (c, disk), []⟩
    | (.ok none, disk) => ⟨.ok false, (c, disk), []⟩
    | (.ok (some frozen), disk) =>
      let (closing, _, disk) := old.close disk
      let report := match closing with
        | .ok () => []
        | .error e => [.event (.chunkCloseFailed c.info.dataset e.message)]
      ⟨.ok true, ({ c with store := some (.frozen frozen) }, disk),
        report ++ [.event (.chunkFrozen c.info.dataset frozen.stats.series frozen.stats.bytes)]⟩

/-- Evicts the store. The chunk is evicted even when its store cannot be closed. -/
def close (c : Chunk σ) (disk : Disk) : Outcome (Chunk σ × Disk) Unit :=
  match c.store with
  | none => (.ok (), c, disk)
  | some store =>
    let (result, _, disk) := store.close disk
    (result, evicted c.info, disk)

end Chunk

end TimeSeries
