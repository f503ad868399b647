import TimeSeries.Chunk
import TimeSeries.IngestLine
import TimeSeries.Manager.Settings
import TimeSeries.Time

/-!
# The manager

A manager cuts time into windows and has at most one chunk for each, which it creates when the
first point of the window arrives. The chunks share one tag index. Chunks of the past are frozen,
and later they are closed and removed; a point that arrives still later begins a new chunk.

A chunk can be *held*. A handle means one chunk and no other: when that chunk has been removed, the
handle stands for an evicted chunk, even if there is a new chunk for the same window. Chunks are
told apart by the serial number that they get when they are created.
-/

namespace TimeSeries

/-- A chunk with its serial number. -/
structure LiveChunk where
  serial : Nat
  chunk : Chunk GrowingStore

/-- What is left in the hands of a holder of a chunk. -/
structure ChunkHandle where
  serial : Nat
  info : ChunkInfo
  deriving DecidableEq, Repr

/-- The handle of a chunk. -/
def LiveChunk.handle (c : LiveChunk) : ChunkHandle := ⟨c.serial, c.chunk.info⟩

/-- The chunks by the start of their windows, the tag index that they share, and the disk on which
frozen stores are kept. -/
structure Manager where
  settings : ManagerSettings
  tags : TagIndex
  disk : Disk
  chunks : Std.TreeMap Int LiveChunk
  nextSerial : Nat

/-- The size of a manager. -/
structure ManagerStats where
  growing : Nat := 0
  frozen : Nat := 0
  metrics : Nat := 0
  total : StoreStats := {}
  deriving DecidableEq, Repr

/-- Adds the size of a chunk. An evicted chunk does not count. -/
def ManagerStats.add (s : ManagerStats) (c : Chunk GrowingStore) : ManagerStats :=
  let total : StoreStats := ⟨s.total.series + c.stats.series, s.total.points + c.stats.points,
    s.total.bytes + c.stats.bytes⟩
  match c.state with
  | .growing => { s with growing := s.growing + 1, total }
  | .frozen => { s with frozen := s.frozen + 1, total }
  | .evicted => s

namespace Manager

/-- A manager without chunks. The directory for the files of frozen stores is made. -/
def new (settings : ManagerSettings) (disk : Disk) : Except Error Manager := do
  settings.validate disk
  let disk ← match settings.form.directory with
    | none => pure disk
    | some dir => disk.makeDirectories dir.steps
  return { settings, tags := TagIndex.empty, disk, chunks := ∅, nextSerial := 0 }

/-! ## Windows and chunks

The window of a time may begin before all times or end behind them, and then the manager stops when
it calculates the bound. The functions with a question mark that give an `Option` of their answer
are for any time, and they may stop. The others say what a window is, and they are for the times of
points, whose windows fit. -/

/-- The start of the window of a time. -/
def windowStart (m : Manager) (time : Int) : Int := Time.floor m.settings.windowSeconds time

/-- The start of the window of any time. -/
def windowStart? (m : Manager) (time : Int) : Option Int :=
  Time.windowStart? m.settings.windowSeconds time

/-- The name of the chunk with a start. -/
def datasetAt (m : Manager) (start : Int) : String := s!"{m.settings.dataset}_{start}"

/-- The name and the window of the chunk with a start. -/
def chunkInfo (m : Manager) (start : Int) : ChunkInfo :=
  ⟨m.datasetAt start, start, start + m.settings.windowSeconds⟩

/-- The name and the window of the chunk with any start. -/
def chunkInfo? (m : Manager) (start : Int) : Option ChunkInfo :=
  (Time.plus? start m.settings.windowSeconds).map (⟨m.datasetAt start, start, ·⟩)

/-- The chunk of the window of a time, if there is one. -/
def existing? (m : Manager) (time : Int) : Option LiveChunk := m.chunks[m.windowStart time]?

/-- The chunk of the window of any time, if there is one. -/
def existingAt? (m : Manager) (time : Int) : Option (Option LiveChunk) :=
  (m.windowStart? time).map (m.chunks[·]?)

/-- The signal of how many chunks there are. -/
def liveSignal (m : Manager) : Signal := .measured (.number .liveChunks m.chunks.size)

/-- Creates a chunk. -/
def create (m : Manager) (info : ChunkInfo) : LiveChunk × Manager × List Signal :=
  let c : LiveChunk := ⟨m.nextSerial, Chunk.new info⟩
  let m := { m with chunks := m.chunks.insert info.start c, nextSerial := m.nextSerial + 1 }
  (c, m, [.event (.chunkCreated info.dataset info.start), m.liveSignal])

/-- The chunk of the window of a time, which is created if there is none. -/
def chunkAt (m : Manager) (time : Int) : LiveChunk × Manager × List Signal :=
  match m.existing? time with
  | some c => (c, m, [])
  | none => m.create (m.chunkInfo (m.windowStart time))

/-- The chunk of the window of any time, which is created if there is none. Only then the end of
the window is calculated. -/
def chunkAt? (m : Manager) (time : Int) : Option (LiveChunk × Manager × List Signal) := do
  let start ← m.windowStart? time
  match m.chunks[start]? with
  | some c => return (c, m, [])
  | none => return m.create (← m.chunkInfo? start)

/-- The chunk of a handle. -/
def held (m : Manager) (h : ChunkHandle) : Chunk GrowingStore :=
  match m.chunks[h.info.start]? with
  | some c => if c.serial = h.serial then c.chunk else .evicted h.info
  | none => .evicted h.info

/-- Changes the chunk of a handle, if it is still there. -/
def setHeld (m : Manager) (h : ChunkHandle) (chunk : Chunk GrowingStore) : Manager :=
  match m.chunks[h.info.start]? with
  | some c =>
    if c.serial = h.serial then
      { m with chunks := m.chunks.insert h.info.start { c with chunk } }
    else m
  | none => m

/-- The chunks in the order of their windows. -/
def chunkList (m : Manager) : List (Chunk GrowingStore) := m.chunks.toList.map (·.2.chunk)

/-! ## Adding points -/

/-- Adds a point of a metric to the chunk of a handle. -/
def addHeld (m : Manager) (h : ChunkHandle) (metric : Metric) (p : Point) : Outcome Manager Unit :=
  let (result, chunk, tags) := (m.held h).addPoint m.tags metric p
  (result, { m.setHeld h chunk with tags })

/-- Adds the point of a record to the chunk of its time, if that is the time of a point. -/
def addRecord (m : Manager) (r : PutRecord) : Effect Manager Unit :=
  if 0 ≤ r.point.time ∧ r.point.time ≤ maxTime then
    let (c, m, signals) := m.chunkAt r.point.time
    let (result, m) := m.addHeld c.handle r.metric r.point
    let counted := match result with
      | .ok () => [.measured (.number .ingestedPoints 1)]
      | .error _ => []
    ⟨result, m, signals ++ counted⟩
  else ⟨.error (.invalid (.timeOutsideStore r.point.time)), m, []⟩

/-- Adds the point of an ingest line. -/
def addLine (m : Manager) (line : String) : Effect Manager Unit :=
  match PutRecord.parse line with
  | .error e => ⟨.error e, m, []⟩
  | .ok r => m.addRecord r

/-- Freezes the chunk of a handle, in whatever form. -/
def freezeHeld [BlockCodec] (m : Manager) (h : ChunkHandle) (form : FrozenForm) :
    Effect Manager Bool :=
  let x := (m.held h).freeze m.disk form
  ⟨x.result, { m.setHeld h x.state.1 with disk := x.state.2 }, x.signals⟩

/-- Evicts the store of the chunk of a handle. -/
def closeHeld (m : Manager) (h : ChunkHandle) : Outcome Manager Unit :=
  let (result, chunk, disk) := (m.held h).close m.disk
  (result, { m.setHeld h chunk with disk })

/-- Asks the chunk of a handle. -/
def queryHeld [BlockCodec] (m : Manager) (h : ChunkHandle) (q : Query) :
    Except Error (List MetricPoints) × List Signal :=
  (m.held h).query m.disk m.tags q

/-! ## The past -/

/-- Freezes a chunk. That it could not be frozen is only reported. -/
def freezeChunk [BlockCodec] (m : Manager) (start : Int) (c : LiveChunk) :
    Bool × Manager × List Signal :=
  let x := c.chunk.freeze m.disk m.settings.form
  let (chunk, disk) := x.state
  let m := { m with chunks := m.chunks.insert start { c with chunk }, disk }
  match x.result with
  | .ok done => (done, m, x.signals)
  | .error e =>
    (false, m, x.signals ++ [.event (.chunkFreezeFailed chunk.info.dataset e.message)])

/-- Freezes those of some chunks that take points and end by a cutoff. The answer is how many
were frozen. -/
def freezeAll [BlockCodec] (cutoff : Int) :
    List (Int × LiveChunk) → Manager → Nat × Manager × List Signal
  | [], m => (0, m, [])
  | (start, c) :: rest, m =>
    if cutoff < c.chunk.info.stop || c.chunk.isClosedToPoints then freezeAll cutoff rest m
    else
      let (done, m, signals) := m.freezeChunk start c
      let (count, m, more) := freezeAll cutoff rest m
      (count + done.toNat, m, signals ++ more)

/-- Freezes the chunks that take points and end by a cutoff. -/
def freezeUntil [BlockCodec] (m : Manager) (cutoff : Int) : Nat × Manager × List Signal :=
  freezeAll cutoff m.chunks.toList m

/-- Closes a chunk and removes it. That it could not be closed is only reported. -/
def removeChunk (m : Manager) (start : Int) (c : LiveChunk) : Manager × List Signal :=
  let (result, _, disk) := c.chunk.close m.disk
  let report := match result with
    | .ok () => []
    | .error e => [.event (.chunkCloseFailed c.chunk.info.dataset e.message)]
  ({ m with chunks := m.chunks.erase start, disk },
    report ++ [.event (.chunkDeleted c.chunk.info.dataset)])

/-- Removes those of some chunks that end by a cutoff. The answer is how many were removed. -/
def removeAll (cutoff : Int) : List (Int × LiveChunk) → Manager → Nat × Manager × List Signal
  | [], m => (0, m, [])
  | (start, c) :: rest, m =>
    if c.chunk.info.stop ≤ cutoff then
      let (m, signals) := m.removeChunk start c
      let (count, m, more) := removeAll cutoff rest m
      (count + 1, m, signals ++ more)
    else removeAll cutoff rest m

/-- Removes the chunks that end by a cutoff. -/
def removeUntil (m : Manager) (cutoff : Int) : Nat × Manager × List Signal :=
  let (count, m, signals) := removeAll cutoff m.chunks.toList m
  (count, m, signals ++ [m.liveSignal])

/-! ## Size -/

/-- The size of a manager. -/
def stats (m : Manager) : ManagerStats :=
  m.chunkList.foldl ManagerStats.add { metrics := m.tags.names.size }

end Manager

end TimeSeries
