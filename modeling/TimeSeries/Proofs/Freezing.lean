import Mathlib
import TimeSeries.Proofs.Store

/-!
# What freezing keeps

A store that took points under ids, of which it refused some, is frozen. What there is to know of
the calls is the list of those that were taken: `pointsUnder` reads off it the points of an id. The
frozen copy cannot be told from the store by reading a series, has just the ids of the series with
points and knows how many points there are. All this follows from what `records_freeze` says of the
records, whether they lie in memory or in a file and however they are packed.
-/

namespace TimeSeries

variable {d : Disk} {id : SeriesId}

/-! ## Records of series -/

theorem exists_present {ps : List Point} : (∃ qs, present ps = some qs) ↔ ps ≠ [] := by
  by_cases hnil : ps = [] <;> simp [present, hnil]

/-- There is a record just where there are points. -/
theorem Compression.Stores.exists_iff [BlockCodec] {c : Compression} {record : Option Bytes}
    {ps : List Point} (h : c.Stores record ps) : (∃ bytes, record = some bytes) ↔ ps ≠ [] := by
  cases record with
  | none => simpa [Compression.Stores] using h
  | some stored => exact iff_of_true ⟨stored, rfl⟩ h.1

/-- A record is made of a series of the store only. -/
theorem Compression.RecordOf.exists_series [BlockCodec] {c : Compression} {s : GrowingStore}
    {stored : Bytes} (h : c.RecordOf (s.series.getD id Series.empty) (some stored)) :
    ∃ series, s.series[id]? = some series ∧ series.toBytes >>= c.encode = .ok stored := by
  obtain ⟨hcount, hstored⟩ := h
  rw [Std.TreeMap.getD_eq_getD_getElem?] at hcount hstored
  cases hs : s.series[id]? with
  | none =>
    rw [hs] at hcount
    exact absurd rfl hcount
  | some series =>
    rw [hs] at hstored
    exact ⟨series, rfl, hstored⟩

/-! ## Points that were taken -/

/-- The points that were taken under an id, in their order. -/
def pointsUnder (taken : List (SeriesId × Point)) (id : SeriesId) : List Point :=
  (taken.filter fun x => x.1 = id).map Prod.snd

theorem length_pointsUnder (taken : List (SeriesId × Point)) (id : SeriesId) :
    (pointsUnder taken id).length = (taken.map Prod.fst).count id := by
  induction taken with
  | nil => rfl
  | cons x taken ih =>
    rw [pointsUnder, List.map_cons, List.count_cons, ← ih]
    by_cases hx : x.1 = id
    · simp [pointsUnder, hx]
    · simp [pointsUnder, hx]

/-- Values among which are all those of a list count every place of the list once. -/
theorem sum_count_eq_length {α : Type} [DecidableEq α] {values list : List α}
    (hdistinct : values.Nodup) (hall : ∀ a ∈ list, a ∈ values) :
    (values.map fun a => list.count a).sum = list.length := by
  have hmem : ∀ a ∈ (list : Multiset α), a ∈ values.toFinset := fun a ha =>
    List.mem_toFinset.mpr (hall a (Multiset.mem_coe.mp ha))
  rw [← List.sum_toFinset _ hdistinct]
  simpa only [Multiset.coe_count, Multiset.coe_card] using Multiset.sum_count_eq_card hmem

/-- Ids among which are those of all points count every point once. -/
theorem sum_length_pointsUnder {taken : List (SeriesId × Point)} {ids : List SeriesId}
    (hdistinct : ids.Nodup) (hall : ∀ x ∈ taken, x.1 ∈ ids) :
    (ids.map fun id => (pointsUnder taken id).length).sum = taken.length := by
  simp only [length_pointsUnder]
  rw [sum_count_eq_length hdistinct, List.length_map]
  intro id hid
  obtain ⟨x, hx, rfl⟩ := List.mem_map.mp hid
  exact hall x hx

namespace GrowingStore

variable {s : GrowingStore} {f : SeriesId → List Point}

/-- Adds points one by one, whatever happens to the ones before, and gives those that were taken,
with their ids. -/
def addEach (s : GrowingStore) :
    List (SeriesId × Point) → List (SeriesId × Point) × GrowingStore
  | [] => ([], s)
  | (id, p) :: rest =>
    match s.add id p with
    | (.ok (), s) =>
      let (taken, s) := s.addEach rest
      ((id, p) :: taken, s)
    | (.error _, s) => s.addEach rest

/-- What was taken stands behind what was there. -/
theorem Holds.addEach (h : s.Holds f) (calls : List (SeriesId × Point)) :
    (s.addEach calls).2.Holds fun id => f id ++ pointsUnder (s.addEach calls).1 id := by
  induction calls generalizing s f with
  | nil => simpa [GrowingStore.addEach, pointsUnder] using h
  | cons call calls ih =>
    obtain ⟨id, p⟩ := call
    rw [GrowingStore.addEach]
    split
    · rename_i s' hadd
      have h' := ih (h.add hadd)
      convert h' using 2 with other
      by_cases ho : other = id
      · simp [ho, pointsUnder]
      · simp [ho, Ne.symm ho, pointsUnder]
    · rename_i e s' hadd
      exact ih (h.add_error hadd)

theorem holds_addEach (calls : List (SeriesId × Point)) :
    (empty.addEach calls).2.Holds (pointsUnder (empty.addEach calls).1) := by
  simpa using holds_empty.addEach calls

theorem stats_foldl (list : List (SeriesId × Series)) (n : StoreStats) :
    list.foldl (fun n x => StoreStats.mk (n.series + 1) (n.points + x.2.count)
      (n.bytes + (x.2.times.length + x.2.values.length) / 8)) n =
      ⟨n.series + list.length, n.points + (list.map fun x => x.2.count).sum,
        n.bytes + (list.map fun x => (x.2.times.length + x.2.values.length) / 8).sum⟩ := by
  induction list generalizing n with
  | nil => rfl
  | cons x list ih =>
    simp only [List.foldl_cons, ih, List.length_cons, List.map_cons, List.sum_cons,
      StoreStats.mk.injEq]
    omega

/-- The size of a store sums up its series. -/
theorem stats_eq (s : GrowingStore) :
    s.stats = ⟨s.series.size, (s.series.toList.map fun x => x.2.count).sum,
      (s.series.toList.map fun x => (x.2.times.length + x.2.values.length) / 8).sum⟩ := by
  rw [stats, Std.TreeMap.foldl_eq_foldl_toList, stats_foldl, Std.TreeMap.length_toList]
  simp

/-- The size of a store has the number of its points. -/
theorem Holds.points_stats {taken : List (SeriesId × Point)} (h : s.Holds (pointsUnder taken)) :
    s.stats.points = taken.length := by
  have hcounts : s.series.toList.map (fun x => x.2.count) =
      (s.series.toList.map Prod.fst).map fun id => (pointsUnder taken id).length := by
    rw [List.map_map]
    refine List.map_congr_left fun x hx => ?_
    exact (h.of_some (Std.TreeMap.mem_toList_iff_getElem?_eq_some.mp hx)).count_eq
  have hall : ∀ x ∈ taken, x.1 ∈ s.series.toList.map Prod.fst := by
    intro x hx
    cases hs : s.series[x.1]? with
    | some series =>
      exact List.mem_map.mpr ⟨_, Std.TreeMap.mem_toList_iff_getElem?_eq_some.mpr hs, rfl⟩
    | none =>
      -- an id without a series has no points
      have hmem : x.2 ∈ pointsUnder taken x.1 :=
        List.mem_map_of_mem (List.mem_filter.mpr ⟨hx, by simp⟩)
      rw [h.of_none hs] at hmem
      exact absurd hmem List.not_mem_nil
  rw [stats_eq, hcounts, sum_length_pointsUnder (TreeMap.nodup_keys s.series) hall]

variable [BlockCodec] [LawfulBlockCodec]

/-- **A frozen copy is as good as the store that was copied**, whatever points the store took or
refused before and in whatever form the copy is kept. From then on nobody writes to the file of the
copy, if it has one. Every series is read alike, and what is read is what was taken; the ids of the
copy are those of the series with points, in ascending order; it knows how many points were taken;
and without a codec its records are the serialized series. -/
theorem freeze_addEach (calls : List (SeriesId × Point)) {disk disk' later : Disk}
    {dataset : String} {form : FrozenForm} {frozen : FrozenStore}
    (hfreeze : (empty.addEach calls).2.freeze disk dataset form = (.ok frozen, disk'))
    (hfile : frozen.records.SameFile disk' later) :
    let taken := (empty.addEach calls).1
    let s := (empty.addEach calls).2
    (∀ id, frozen.get later id = s.get id ∧ s.get id = .ok (present (pointsUnder taken id))) ∧
    frozen.records.ids.Pairwise (· < ·) ∧
    (∀ id, id ∈ frozen.records.ids ↔ ∃ ps, s.get id = .ok (some ps)) ∧
    frozen.stats.points = taken.length ∧
    (form.compression = .none → ∀ id ∈ frozen.records.ids, ∃ series bytes,
      s.series[id]? = some series ∧ series.toBytes = .ok bytes ∧
        frozen.records.get later id = .ok (some bytes)) := by
  intro taken s
  have h : s.Holds (pointsUnder taken) := holds_addEach calls
  obtain ⟨-, hpoints, records, hrecords, hmade⟩ := records_freeze hfreeze
  have hlater := hrecords.congr hfile
  have hget (id : SeriesId) : frozen.get later id = .ok (present (pointsUnder taken id)) :=
    ((h.freeze hfreeze).congr hfile).get id
  have hstores (id : SeriesId) : form.compression.Stores (records id) (pointsUnder taken id) :=
    (hmade id).stores (h.series id)
  refine ⟨fun id => ⟨(hget id).trans (h.get id).symm, h.get id⟩, frozen.records.pairwise_ids,
    fun id => ?_, hpoints.trans h.points_stats, fun hplain id hid => ?_⟩
  · rw [hlater.mem_ids, (hstores id).exists_iff, h.get id, ← exists_present]
    simp only [Except.ok.injEq]
  · obtain ⟨stored, hstored⟩ := hlater.mem_ids.mp hid
    have hrecord := hmade id
    rw [hstored, hplain] at hrecord
    obtain ⟨series, hseries, hencoded⟩ := hrecord.exists_series
    obtain ⟨bytes, hbytes, hsame⟩ := bind_eq_ok.mp hencoded
    obtain rfl := Except.ok.inj hsame
    exact ⟨series, bytes, hseries, hbytes, hstored ▸ hlater.get id⟩

end GrowingStore

/-- Two series in a file, one of them with a value that is not a number, and a point that was
refused. -/
theorem GrowingStore.freeze_addEach_sample :
    let s := (empty.addEach [(5, ⟨60, 0x3FF0000000000000⟩), (2, ⟨-1, 0⟩),
      (5, ⟨61, 0x7FF8000000000001⟩), (3, ⟨7200, 0⟩)]).2
    ∃ frozen disk', s.freeze Disk.empty "d" { directory := some ⟨"/spill", ["spill"]⟩ } =
        (.ok frozen, disk') ∧
      frozen.get disk' 5 = .ok (some [⟨60, 0x3FF0000000000000⟩, ⟨61, 0x7FF8000000000001⟩]) ∧
      frozen.get disk' 2 = s.get 2 ∧ 2 ∉ frozen.records.ids ∧ frozen.stats.points = 3 ∧
      ∃ series bytes, s.series[3]? = some series ∧ series.toBytes = .ok bytes ∧
        frozen.records.get disk' 3 = .ok (some bytes) := by
  intro s
  have hfreeze : ∃ frozen disk', s.freeze Disk.empty "d"
      { directory := some ⟨"/spill", ["spill"]⟩ } = (.ok frozen, disk') := ⟨_, _, rfl⟩
  obtain ⟨frozen, disk', hfreeze⟩ := hfreeze
  obtain ⟨hget, -, hids, hpoints, hplain⟩ := freeze_addEach _ hfreeze .refl
  have hthree : 3 ∈ frozen.records.ids := (hids 3).mpr ⟨[⟨7200, 0⟩], (hget 3).2⟩
  have hnone : s.get 2 = .ok none := (hget 2).2
  refine ⟨frozen, disk', hfreeze, (hget 5).1.trans (hget 5).2, (hget 2).1, fun hmem => ?_, hpoints,
    hplain rfl 3 hthree⟩
  obtain ⟨ps, hps⟩ := (hids 2).mp hmem
  exact absurd (Except.ok.inj (hnone.symm.trans hps)) (by simp)

end TimeSeries
