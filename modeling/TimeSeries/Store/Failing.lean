import TimeSeries.Store.Basic

/-!
# Failing stores

A store that fails where it is told to, to see what becomes of a failure in the store of a chunk.
In all else it is a growing store.
-/

namespace TimeSeries

/-- What happens when a failing store is to be frozen. -/
inductive FreezeFault where
  /-- It fails. -/
  | fails (error : Error)
  /-- It has no frozen form. -/
  | noForm

/-- Where a store fails. -/
structure StoreFaults where
  reads : List (SeriesId × Error) := []
  freezing : Option FreezeFault := none
  closing : Option Error := none

/-- A growing store with faults. -/
structure FailingStore where
  faults : StoreFaults
  store : GrowingStore

namespace FailingStore

/-- Adds a point to a series. -/
def add (s : FailingStore) (id : SeriesId) (p : Point) : Outcome FailingStore Unit :=
  let (result, store) := s.store.add id p
  (result, { s with store })

/-- The points of a series that can be read. -/
def get (s : FailingStore) (id : SeriesId) : Except Error (Option (List Point)) :=
  match s.faults.reads.lookup id with
  | some e => .error e
  | none => s.store.get id

/-- A frozen copy, if the store does not fail. -/
def freeze [BlockCodec] (s : FailingStore) (disk : Disk) (dataset : String) (form : FrozenForm) :
    Outcome Disk (Option FrozenStore) :=
  match s.faults.freezing with
  | some (.fails e) => (.error e, disk)
  | some .noForm => (.ok none, disk)
  | none => PointStore.freeze s.store disk dataset form

/-- Drops what the store holds, if the store does not fail. -/
def close (s : FailingStore) : Outcome FailingStore Unit :=
  match s.faults.closing with
  | some e => (.error e, s)
  | none => (.ok (), { s with store := s.store.close })

end FailingStore

instance : PointStore FailingStore where
  add := FailingStore.add
  get := FailingStore.get
  ids s := s.store.ids
  stats s := s.store.stats
  freeze := FailingStore.freeze
  close := FailingStore.close

end TimeSeries
