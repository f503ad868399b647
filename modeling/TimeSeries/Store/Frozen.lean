import TimeSeries.Compression
import TimeSeries.RecordMap
import TimeSeries.SeriesReader

/-!
# Frozen stores

A frozen store holds serialized series as records and takes no more points. It remembers how many
points it holds, so that this can be told without decoding anything.
-/

namespace TimeSeries

/-- How much a store holds. -/
structure StoreStats where
  series : Nat := 0
  points : Nat := 0
  bytes : Nat := 0
  deriving DecidableEq, Repr

/-- How a store is kept once it is frozen: the directory for a file of its own, or memory if there
is none, and the codec. -/
structure FrozenForm where
  directory : Option Path := none
  compression : Compression := .none
  deriving DecidableEq, Repr

/-- The file for the frozen store of a dataset. -/
def FrozenForm.file (form : FrozenForm) (dataset : String) : Option Path :=
  form.directory.map fun dir => dir.join (dataset ++ ".series")

/-- The records of serialized series, and the number of points in them. -/
structure FrozenStore where
  records : RecordMap
  compression : Compression
  points : Nat

namespace FrozenStore

/-- The points of a series. -/
def get [BlockCodec] (s : FrozenStore) (disk : Disk) (id : SeriesId) :
    Except Error (Option (List Point)) := do
  match ← s.records.get disk id with
  | none => return none
  | some stored =>
    let bytes ← s.compression.decode stored
    let reader ← SeriesReader.ofBytes bytes
    return some (← reader.points)

/-- The size of the store. -/
def stats (s : FrozenStore) : StoreStats := ⟨s.records.size, s.points, s.records.byteSize⟩

/-- Drops the records. -/
def close (s : FrozenStore) (disk : Disk) : Outcome (FrozenStore × Disk) Unit :=
  let (result, records, disk) := s.records.close disk
  (result, { s with records }, disk)

end FrozenStore

end TimeSeries
