import TimeSeries.Store.Growing

/-!
# Stores

What a chunk needs of the store that takes its points is a class, `PointStore`, of which the
growing store is the instance in use. A `Store` is such a store or the frozen copy that takes its
place.
-/

namespace TimeSeries

/-- A store that takes points and can be copied into a frozen one. -/
class PointStore (σ : Type) where
  /-- Adds a point to a series. -/
  add : σ → SeriesId → Point → Outcome σ Unit
  /-- The points of a series, if it has any. -/
  get : σ → SeriesId → Except Error (Option (List Point))
  /-- The ids of the series, in ascending order. -/
  ids : σ → List SeriesId
  /-- The size of the store. -/
  stats : σ → StoreStats
  /-- A frozen copy for a dataset, if the store can be frozen. -/
  freeze : [BlockCodec] → σ → Disk → String → FrozenForm → Outcome Disk (Option FrozenStore)
  /-- Drops what the store holds. -/
  close : σ → Outcome σ Unit

instance : PointStore GrowingStore where
  add := GrowingStore.add
  get := GrowingStore.get
  ids := GrowingStore.ids
  stats := GrowingStore.stats
  freeze s disk dataset form :=
    match s.freeze disk dataset form with
    | (.ok frozen, disk) => (.ok (some frozen), disk)
    | (.error e, disk) => (.error e, disk)
  close s := (.ok (), s.close)

/-- A store that takes points, or a frozen one. -/
inductive Store (σ : Type) where
  | growing (store : σ)
  | frozen (store : FrozenStore)

namespace Store

variable {σ : Type} [PointStore σ]

/-- Whether a store takes no points. -/
def isFrozen : Store σ → Bool
  | growing _ => false
  | frozen _ => true

/-- Adds a point to a series. -/
def add (s : Store σ) (id : SeriesId) (p : Point) : Outcome (Store σ) Unit :=
  match s with
  | growing store =>
    let (result, store) := PointStore.add store id p
    (result, growing store)
  | frozen _ => (.error (.unsupported (.pointForFrozenStore id)), s)

/-- The points of a series, if it has any. -/
def get [BlockCodec] (s : Store σ) (disk : Disk) (id : SeriesId) :
    Except Error (Option (List Point)) :=
  match s with
  | growing store => PointStore.get store id
  | frozen store => store.get disk id

/-- The ids of the series, in ascending order. -/
def ids : Store σ → List SeriesId
  | growing store => PointStore.ids store
  | frozen store => store.records.ids

/-- The size of the store. -/
def stats : Store σ → StoreStats
  | growing store => PointStore.stats store
  | frozen store => store.stats

/-- A frozen copy, unless the store is frozen. -/
def freeze [BlockCodec] (s : Store σ) (disk : Disk) (dataset : String) (form : FrozenForm) :
    Outcome Disk (Option FrozenStore) :=
  match s with
  | growing store => PointStore.freeze store disk dataset form
  | frozen _ => (.ok none, disk)

/-- Drops what the store holds. -/
def close (s : Store σ) (disk : Disk) : Outcome (Store σ × Disk) Unit :=
  match s with
  | growing store =>
    let (result, store) := PointStore.close store
    (result, growing store, disk)
  | frozen store =>
    let (result, store, disk) := store.close disk
    (result, frozen store, disk)

/-- The disk after a store has been let go. -/
def discard (s : Store σ) (disk : Disk) : Disk :=
  match s with
  | growing _ => disk
  | frozen store => store.records.discard disk

end Store

end TimeSeries
