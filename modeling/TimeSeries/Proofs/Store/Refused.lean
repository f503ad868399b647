import Mathlib
import TimeSeries.Proofs.Chunk.Size

/-!
# Points that a growing store refuses

A store starts the series of an id before it adds the first point to it. If this point is refused,
the series stays, and it has no points. Reading does not show it, and neither do the number of
points and the number of bytes; but the ids list it and the number of series counts it. It is the
only trace that a refused point can leave: a point that is refused under an id that is listed leaves
the store as it was.
-/

namespace TimeSeries.GrowingStore

variable {s s' : GrowingStore} {f : SeriesId → List Point} {id other : SeriesId} {p : Point}
  {e : Error}

/-! ## One point -/

/-- A series that is refused a point is put back as it was. -/
theorem Holds.eq_of_add_error (h : s.Holds f) (hadd : s.add id p = (.error e, s')) :
    s' = { s with series := s.series.insert id (s.series.getD id Series.empty) } := by
  unfold GrowingStore.add at hadd
  rw [h.opened, if_neg Bool.false_ne_true] at hadd
  cases happend : (s.series.getD id Series.empty).append p with
  | mk result series =>
    simp only [happend, Prod.mk.injEq] at hadd
    obtain ⟨rfl, rfl⟩ := hadd
    rw [(h.series id).append_error happend, h.opened]

/-- Where there is a series already, nothing changes. -/
theorem Holds.add_error_of_mem_ids (h : s.Holds f) (hadd : s.add id p = (.error e, s'))
    (hid : id ∈ s.ids) : s' = s := by
  obtain ⟨series, hseries⟩ := mem_ids.mp hid
  rw [h.eq_of_add_error hadd, Std.TreeMap.getD_eq_getD_getElem?, hseries, Option.getD_some,
    TreeMap.insert_of_getElem? hseries]

/-- Where there is none, one without points is started. -/
theorem Holds.add_error_of_not_mem_ids (h : s.Holds f) (hadd : s.add id p = (.error e, s'))
    (hid : id ∉ s.ids) : s.series[id]? = none ∧
      s' = { s with series := s.series.insert id Series.empty } := by
  have hnone : s.series[id]? = none := by
    rw [Option.eq_none_iff_forall_ne_some]
    exact fun series hseries => hid (mem_ids.mpr ⟨series, hseries⟩)
  refine ⟨hnone, ?_⟩
  rw [h.eq_of_add_error hadd, Std.TreeMap.getD_eq_getD_getElem?, hnone, Option.getD_none]

/-- A series without points counts as a series and as nothing else. -/
theorem stats_insert_empty (h : s.series[id]? = none) :
    ({ s with series := s.series.insert id Series.empty } : GrowingStore).stats =
      { s.stats with series := s.stats.series + 1 } := by
  have hperm := TreeMap.toList_insert_of_none h Series.empty
  rw [stats_eq, stats_eq, TreeMap.size_insert_of_none h, (hperm.map _).sum_eq,
    (hperm.map _).sum_eq, List.map_cons, List.map_cons, List.sum_cons, List.sum_cons]
  have hempty : Series.empty.count = 0 ∧ Series.empty.times.length = 0 ∧
    Series.empty.values.length = 0 := ⟨rfl, rfl, rfl⟩
  simp [hempty]

/-- Every attempt to add a point lists its id. -/
theorem mem_ids_add (hopen : s.closed = false) :
    other ∈ (s.add id p).2.ids ↔ other = id ∨ other ∈ s.ids := by
  rw [mem_ids, mem_ids, add, hopen, if_neg Bool.false_ne_true]
  dsimp only
  rw [TreeMap.getElem?_insert]
  by_cases ho : other = id
  · simp [ho]
  · simp [ho]

theorem closed_add (s : GrowingStore) (id : SeriesId) (p : Point) :
    (s.add id p).2.closed = s.closed := by
  rw [add]
  split <;> rfl

/-! ## All points -/

theorem addEach_cons (s : GrowingStore) (id : SeriesId) (p : Point)
    (calls : List (SeriesId × Point)) :
    (s.addEach ((id, p) :: calls)).2 = ((s.add id p).2.addEach calls).2 := by
  rw [addEach]
  split
  · rename_i s' hadd
    rw [hadd]
  · rename_i e s' hadd
    rw [hadd]

theorem mem_ids_addEach (hopen : s.closed = false) (calls : List (SeriesId × Point)) :
    other ∈ (s.addEach calls).2.ids ↔ other ∈ s.ids ∨ other ∈ calls.map Prod.fst := by
  induction calls generalizing s with
  | nil => simp [addEach]
  | cons call calls ih =>
    obtain ⟨id, p⟩ := call
    rw [addEach_cons, ih ((closed_add s id p).trans hopen), mem_ids_add hopen, List.map_cons,
      List.mem_cons]
    tauto

/-- **What a refused point leaves.** The ids of a store are those under which points were to be
added, and those that can be read are those under which points were taken. A point that is refused
changes no answer about any series, nor the number of points or of bytes. If its id is listed it
changes nothing at all, and otherwise its id is listed from then on, with one series more. -/
theorem refused_leaves (calls : List (SeriesId × Point)) :
    let taken := (empty.addEach calls).1
    let s := (empty.addEach calls).2
    (∀ id, (id ∈ s.ids ↔ id ∈ calls.map Prod.fst) ∧
      ((∃ ps, s.get id = .ok (some ps)) ↔ id ∈ taken.map Prod.fst)) ∧
    ∀ id p e s', s.add id p = (.error e, s') →
      (∀ other, s'.get other = s.get other) ∧
      (∀ other, other ∈ s'.ids ↔ other = id ∨ other ∈ s.ids) ∧
      s'.stats = { s.stats with series := s.stats.series + if id ∈ s.ids then 0 else 1 } ∧
      (id ∈ s.ids → s' = s) := by
  intro taken s
  have h : s.Holds (pointsUnder taken) := holds_addEach calls
  refine ⟨fun id => ⟨?_, ?_⟩, fun id p e s' hadd => ⟨fun other => ?_, fun other => ?_, ?_,
    h.add_error_of_mem_ids hadd⟩⟩
  · have hnone : id ∉ empty.ids := by simp [mem_ids, empty]
    rw [mem_ids_addEach rfl, or_iff_right hnone]
  · rw [h.get id, ← pointsUnder_ne_nil, ← exists_present]
    simp only [Except.ok.injEq]
  · rw [h.get, (h.add_error hadd).get]
  · have hids : other ∈ (s.add id p).2.ids ↔ other = id ∨ other ∈ s.ids := mem_ids_add h.opened
    rwa [hadd] at hids
  · by_cases hid : id ∈ s.ids
    · rw [if_pos hid, h.add_error_of_mem_ids hadd hid]
      rfl
    · obtain ⟨hnone, rfl⟩ := h.add_error_of_not_mem_ids hadd hid
      rw [if_neg hid, stats_insert_empty hnone]

/-- A point before the first time, refused under an id that has points and under a new one. -/
theorem refused_leaves_sample :
    let s := (empty.addEach [(5, ⟨60, 0x3FF0000000000000⟩), (7, ⟨-5, 0⟩)]).2
    (∃ e s', s.add 5 ⟨-5, 0⟩ = (.error e, s') ∧ s' = s) ∧
    ∃ e s', s.add 3 ⟨-5, 0⟩ = (.error e, s') ∧ s'.get 3 = s.get 3 ∧ 3 ∈ s'.ids ∧
      s'.stats.series = 3 ∧ s'.stats.points = 1 := by
  intro s
  obtain ⟨hids, hrefused⟩ := refused_leaves [(5, ⟨60, 0x3FF0000000000000⟩), (7, ⟨-5, 0⟩)]
  obtain ⟨e, s', hfive⟩ : ∃ e s', s.add 5 ⟨-5, 0⟩ = (.error e, s') := ⟨_, _, rfl⟩
  obtain ⟨e', s'', hthree⟩ : ∃ e s', s.add 3 ⟨-5, 0⟩ = (.error e, s') := ⟨_, _, rfl⟩
  obtain ⟨-, -, -, hsame⟩ := hrefused _ _ _ _ hfive
  obtain ⟨hget, hlisted, hstats, -⟩ := hrefused _ _ _ _ hthree
  have hnew : 3 ∉ s.ids := mt (hids 3).1.mp (by decide)
  have hsize : s.stats.series = 2 ∧ s.stats.points = 1 := ⟨rfl, rfl⟩
  refine ⟨⟨e, s', hfive, hsame ((hids 5).1.mpr (by decide))⟩, e', s'', hthree, hget 3,
    (hlisted 3).mpr (.inl rfl), ?_, ?_⟩
  · rw [hstats, if_neg hnew]
    exact congrArg (· + 1) hsize.1
  · rw [hstats]
    exact hsize.2

/-- A point before the first time, as the first one of its series, is refused and seen. -/
theorem refused_listed :
    ¬ ∀ (calls : List (SeriesId × Point)) (id : SeriesId) (p : Point) (e : Error)
      (s' : GrowingStore), (empty.addEach calls).2.add id p = (.error e, s') →
        (∀ other, s'.get other = (empty.addEach calls).2.get other) ∧
        s'.ids = (empty.addEach calls).2.ids ∧ s'.stats = (empty.addEach calls).2.stats ∧
        ∀ other, other ∈ s'.ids ↔ ∃ ps, s'.get other = .ok (some ps) := by
  intro h
  obtain ⟨e, s', hadd⟩ : ∃ e s', (empty.addEach []).2.add 7 ⟨-5, 0x3FF0000000000000⟩ =
    (.error e, s') := ⟨_, _, rfl⟩
  obtain ⟨-, hids, -, -⟩ := h [] 7 _ e s' hadd
  -- the id is listed afterwards, and was not before
  have hlisted : 7 ∈ (empty.add 7 ⟨-5, 0x3FF0000000000000⟩).2.ids :=
    (mem_ids_add holds_empty.opened).mpr (.inl rfl)
  rw [show empty.add 7 _ = _ from hadd, hids] at hlisted
  exact absurd hlisted (by simp [addEach, mem_ids, empty])

end TimeSeries.GrowingStore
