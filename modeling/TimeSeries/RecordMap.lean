import TimeSeries.Checksum
import TimeSeries.Disk
import TimeSeries.IdSet

/-!
# Maps from series to records

A record is a string of bytes, and a map holds at most one record for each series: the last one
that was put. There are two kinds of maps. One keeps the records themselves, and counts their
bytes as they come and go. The other appends them to a file of its own and keeps where each one
lies and its checksum; a record that has been replaced stays in the file as waste. The file is
emptied when the map is made and removed when the map is closed or discarded.

A record that is read from the file is checked: all its bytes must be there and have the checksum
of the bytes that were put.
-/

namespace TimeSeries

/-- Where a record lies in a file, and its checksum. -/
structure RecordPlace where
  offset : Nat
  length : Nat
  checksum : BitVec 32
  deriving DecidableEq, Repr

/-- The records in a file. -/
structure RecordFile where
  path : Path
  file : FileId
  places : Std.TreeMap SeriesId RecordPlace
  /-- Where the next record goes. -/
  stop : Nat
  closed : Bool

/-- The records in memory. -/
structure RecordTable where
  records : Std.TreeMap SeriesId Bytes
  /-- The total length of the records, kept up to date. -/
  total : Nat

/-- A map from series to records. -/
inductive RecordMap where
  | memory (records : RecordTable)
  | file (records : RecordFile)

/-! ## Records in memory -/

namespace RecordTable

instance : EmptyCollection RecordTable := ⟨⟨∅, 0⟩⟩

/-- Puts a record in the place of the one that is there. -/
def put (t : RecordTable) (id : SeriesId) (bytes : Bytes) : RecordTable where
  records := t.records.insert id bytes
  total := t.total - (t.records[id]?.elim 0 List.length) + bytes.length

end RecordTable

/-! ## Records in a file -/

namespace RecordFile

/-- Makes an empty file for records, and the directories above it. -/
def create (path : Path) (disk : Disk) : Outcome Disk RecordFile :=
  match disk.makeDirectories path.parentSteps with
  | .error e => (.error e, disk)
  | .ok disk =>
    match disk.createFile path.steps with
    | .error e => (.error e, disk)
    | .ok (file, disk) => (.ok ⟨path, file, ∅, 0, false⟩, disk)

/-- The error of a use after the end. -/
def closedError (r : RecordFile) : Error := .closed s!"byte map {r.path.text}"

/-- Reads the record at a place and checks it. -/
def readPlace (r : RecordFile) (disk : Disk) (id : SeriesId) (place : RecordPlace) :
    Except Error Bytes := do
  let bytes ← disk.readAt r.file place.offset place.length
  let found := Checksum.ofBytes bytes
  if found = place.checksum then return bytes
  else throw (.corrupt (.checksum r.path.text place.checksum.toNat found.toNat) (some id))

/-- The record of a series. -/
def get (r : RecordFile) (disk : Disk) (id : SeriesId) : Except Error (Option Bytes) :=
  if r.closed then .error r.closedError
  else
    match r.places[id]? with
    | none => .ok none
    | some place => some <$> r.readPlace disk id place

/-- The length from which on a record is too long, two to the power of 32. -/
def lengthLimit : Nat := 0x100000000

/-- Appends a record. -/
def put (r : RecordFile) (disk : Disk) (id : SeriesId) (bytes : Bytes) :
    Outcome (RecordFile × Disk) Unit :=
  if r.closed then (.error r.closedError, r, disk)
  else if lengthLimit ≤ bytes.length then
    (.error (.invalid (.oversizedRecord bytes.length)), r, disk)
  else
    (.ok (),
      { r with places := r.places.insert id ⟨r.stop, bytes.length, Checksum.ofBytes bytes⟩
               stop := r.stop + bytes.length },
      disk.writeAt r.file r.stop bytes)

/-- Removes the file of a map that is open. It may already be gone. The map is closed even when
the file cannot be removed. -/
def close (r : RecordFile) (disk : Disk) : Outcome (RecordFile × Disk) Unit :=
  if r.closed then (.ok (), r, disk)
  else
    let closed := { r with places := ∅, closed := true }
    match disk.removeFile r.path.steps with
    | .ok disk => (.ok (), closed, disk)
    | .error (.io .notFound) => (.ok (), closed, disk)
    | .error e => (.error e, closed, disk)

/-- The disk after a map has been let go: its file is removed if that is possible. -/
def discard (r : RecordFile) (disk : Disk) : Disk := (r.close disk).2.2

end RecordFile

/-! ## Maps -/

namespace RecordMap

/-- An empty map in a file at a path, or in memory if there is none. -/
def create (path : Option Path) (disk : Disk) : Outcome Disk RecordMap :=
  match path with
  | none => (.ok (.memory ∅), disk)
  | some path =>
    match RecordFile.create path disk with
    | (.ok r, disk) => (.ok (.file r), disk)
    | (.error e, disk) => (.error e, disk)

/-- The record of a series. -/
def get (m : RecordMap) (disk : Disk) (id : SeriesId) : Except Error (Option Bytes) :=
  match m with
  | .memory t => .ok t.records[id]?
  | .file r => r.get disk id

/-- Puts a record in the place of the one that a series may have. -/
def put (m : RecordMap) (disk : Disk) (id : SeriesId) (bytes : Bytes) :
    Outcome (RecordMap × Disk) Unit :=
  match m with
  | .memory t => (.ok (), .memory (t.put id bytes), disk)
  | .file r =>
    let (result, r, disk) := r.put disk id bytes
    (result, .file r, disk)

/-- The series with a record, in ascending order. -/
def ids : RecordMap → List SeriesId
  | .memory t => t.records.keys
  | .file r => r.places.keys

/-- The number of records. -/
def size : RecordMap → Nat
  | .memory t => t.records.size
  | .file r => r.places.size

/-- The total length of the records. -/
def byteSize : RecordMap → Nat
  | .memory t => t.total
  | .file r => r.places.foldl (fun n _ place => n + place.length) 0

/-- Drops all records, and the file if there is one. A map in memory can be used again. -/
def close (m : RecordMap) (disk : Disk) : Outcome (RecordMap × Disk) Unit :=
  match m with
  | .memory _ => (.ok (), .memory ∅, disk)
  | .file r =>
    let (result, r, disk) := r.close disk
    (result, .file r, disk)

/-- The disk after a map has been let go. -/
def discard (m : RecordMap) (disk : Disk) : Disk :=
  match m with
  | .memory _ => disk
  | .file r => r.discard disk

end RecordMap

end TimeSeries
