import Mathlib
import TimeSeries.Proofs.Freezing
import TimeSeries.Proofs.Manager.Refusal

/-!
# The size of a chunk

Two kinds of stores tell their size in two ways. A growing store goes through its series; a frozen
one has been told the number of points and counts its records. `Counts` says what both come to: the
points are as many as were taken, and the series are the metrics of these points. It names the
points by the full names of their metrics, in the order in which they were taken, and so speaks of
ids and of the codec nowhere. Freezing a store changes nothing of this because a series is started
only for a point that is taken, so that there is no series without a record.
-/

namespace TimeSeries

variable {d d' : Disk} {id : SeriesId} {p : Point} {ids : List SeriesId}

/-! ## Stores -/

theorem pointsUnder_snoc (taken : List (SeriesId × Point)) (id : SeriesId) (p : Point) :
    pointsUnder (taken ++ [(id, p)]) =
      Function.update (pointsUnder taken) id (pointsUnder taken id ++ [p]) := by
  funext other
  by_cases ho : other = id
  · simp [pointsUnder, ho]
  · simp [pointsUnder, ho, Ne.symm ho]

theorem pointsUnder_ne_nil {taken : List (SeriesId × Point)} :
    pointsUnder taken id ≠ [] ↔ id ∈ taken.map Prod.fst := by
  rw [← List.count_pos_iff, ← length_pointsUnder, List.length_pos_iff]

namespace GrowingStore

variable {s s' : GrowingStore}

theorem mem_ids : id ∈ s.ids ↔ ∃ series, s.series[id]? = some series := by
  rw [ids, Std.TreeMap.mem_keys, Std.TreeMap.mem_iff_isSome_getElem?, Option.isSome_iff_exists]

theorem series_stats (s : GrowingStore) : s.stats.series = s.ids.length := by
  rw [stats_eq, ids, Std.TreeMap.length_keys]

/-- Points were taken under some ids, and every series has points. -/
def Took (s : GrowingStore) (ids : List SeriesId) : Prop :=
  ∃ taken : List (SeriesId × Point), taken.map Prod.fst = ids ∧ s.Holds (pointsUnder taken) ∧
    ∀ id ∈ s.ids, id ∈ ids

theorem took_empty : empty.Took [] := by
  refine ⟨[], rfl, holds_empty, fun id hid => ?_⟩
  obtain ⟨series, hseries⟩ := mem_ids.mp hid
  exact absurd hseries (by simp [empty])

theorem Took.add (h : s.Took ids) (hadd : s.add id p = (.ok (), s')) : s'.Took (ids ++ [id]) := by
  obtain ⟨taken, rfl, hheld, hall⟩ := h
  have hheld' := hheld.add hadd
  refine ⟨taken ++ [(id, p)], by simp, by rwa [pointsUnder_snoc], fun other hother => ?_⟩
  rw [List.mem_append, List.mem_singleton]
  by_cases ho : other = id
  · exact .inr ho
  · -- no series is started but for the point
    refine .inl (hall other (mem_ids.mpr ?_))
    obtain ⟨series, hseries⟩ := mem_ids.mp hother
    unfold GrowingStore.add at hadd
    rw [hheld.opened, if_neg Bool.false_ne_true] at hadd
    obtain rfl := (Prod.mk.inj hadd).2
    dsimp only at hseries
    rw [TreeMap.getElem?_insert, if_neg ho] at hseries
    exact ⟨series, hseries⟩

theorem Took.mem_ids (h : s.Took ids) : id ∈ s.ids ↔ id ∈ ids := by
  obtain ⟨taken, rfl, hheld, hall⟩ := h
  refine ⟨hall id, fun hid => GrowingStore.mem_ids.mpr ?_⟩
  cases hs : s.series[id]? with
  | some series => exact ⟨series, rfl⟩
  | none => exact absurd (hheld.of_none hs) (pointsUnder_ne_nil.mpr hid)

end GrowingStore

/-- A store has points under some ids, as many under each as it is listed, and no series for any
other. -/
def Store.Counts (s : Store GrowingStore) (ids : List SeriesId) : Prop :=
  match s with
  | .growing store => store.Took ids
  | .frozen store => store.points = ids.length ∧ ∀ id, id ∈ store.records.ids ↔ id ∈ ids

namespace Store

variable {s : Store GrowingStore}

theorem nodup_ids (s : Store GrowingStore) : s.ids.Nodup := by
  cases s with
  | growing store =>
    exact Std.TreeMap.distinct_keys.imp fun h heq => h (Std.LawfulEqCmp.compare_eq_iff_eq.mpr heq)
  | frozen store => exact store.records.pairwise_ids.imp Nat.ne_of_lt

theorem series_stats (s : Store GrowingStore) : s.stats.series = s.ids.length := by
  cases s with
  | growing store => exact store.series_stats
  | frozen store =>
    cases hrecords : store.records with
    | memory t =>
      simp only [stats, ids, FrozenStore.stats, hrecords, RecordMap.size, RecordMap.ids]
      exact Std.TreeMap.length_keys.symm
    | file r =>
      simp only [stats, ids, FrozenStore.stats, hrecords, RecordMap.size, RecordMap.ids]
      exact Std.TreeMap.length_keys.symm

theorem Counts.mem_ids (h : s.Counts ids) : id ∈ s.ids ↔ id ∈ ids := by
  cases s with
  | growing store => exact GrowingStore.Took.mem_ids h
  | frozen store => exact h.2 id

theorem Counts.points_stats (h : s.Counts ids) : s.stats.points = ids.length := by
  cases s with
  | growing store =>
    obtain ⟨taken, rfl, hheld, -⟩ := h
    rw [List.length_map]
    exact hheld.points_stats
  | frozen store => exact h.1

theorem Counts.series_stats (h : s.Counts ids) : s.stats.series = ids.toFinset.card := by
  rw [s.series_stats, ← List.toFinset_card_of_nodup s.nodup_ids]
  congr 1
  ext id
  rw [List.mem_toFinset, List.mem_toFinset, h.mem_ids]

/-- A frozen copy counts what was counted. -/
theorem Counts.freeze [BlockCodec] {store : GrowingStore} {dataset : String} {form : FrozenForm}
    {frozen : FrozenStore} (h : (Store.growing store).Counts ids)
    (hfreeze : store.freeze d dataset form = (.ok frozen, d')) :
    (Store.frozen frozen : Store GrowingStore).Counts ids := by
  obtain ⟨-, hpoints, records, hrecords, hmade⟩ := GrowingStore.records_freeze hfreeze
  refine ⟨hpoints.trans h.points_stats, fun id => ?_⟩
  obtain ⟨taken, rfl, hheld, -⟩ := h
  rw [hrecords.mem_ids, ← pointsUnder_ne_nil]
  have hcount := (hheld.series id).count_eq
  have hrecord := hmade id
  cases hr : records id with
  | none =>
    rw [hr] at hrecord
    have hnil : pointsUnder taken id = [] :=
      List.eq_nil_of_length_eq_zero (hcount.symm.trans hrecord)
    simp [hnil]
  | some stored =>
    rw [hr] at hrecord
    refine iff_of_true ⟨stored, rfl⟩ fun hnil => hrecord.1 ?_
    rw [hcount, hnil]
    rfl

end Store

/-! ## Chunks -/

namespace TagIndex

variable {tags tags' : TagIndex} {names : List String} {ms more : List Metric}

theorem exists_name (h : ids.map tags.fullName? = names.map some) (hid : id ∈ ids) :
    ∃ name, tags.fullName? id = some name := by
  have hname : tags.fullName? id ∈ names.map some := h ▸ List.mem_map_of_mem hid
  obtain ⟨name, -, heq⟩ := List.mem_map.mp hname
  exact ⟨name, heq.symm⟩

/-- An index that gives the names of another one to the same ids. -/
def Extends (tags' tags : TagIndex) : Prop :=
  ∀ id name, tags.fullName? id = some name → tags'.fullName? id = some name

/-- Metrics that come later do not change the names of those that are there. -/
theorem Indexes.extends (h' : Indexes tags' (ms ++ more)) (h : Indexes tags ms) :
    tags'.Extends tags := by
  intro id name hname
  rw [h.fullName?_eq] at hname
  obtain ⟨m, hm, rfl⟩ := Option.map_eq_some_iff.mp hname
  rw [h'.fullName?_eq, metricAt_append (lt_of_metricAt hm), hm, Option.map_some]

theorem Extends.names_eq (htags : tags'.Extends tags)
    (h : ids.map tags.fullName? = names.map some) : ids.map tags'.fullName? = names.map some := by
  rw [← h]
  refine List.map_congr_left fun id hid => ?_
  obtain ⟨name, hname⟩ := exists_name h hid
  rw [hname, htags id name hname]

end TagIndex

namespace Chunk

variable {c : Chunk GrowingStore} {tags tags' : TagIndex} {names : List String}
  {ms : List Metric} {m : Metric}

/-- A chunk has taken points of metrics with some full names. -/
def Counts (c : Chunk GrowingStore) (tags : TagIndex) (names : List String) : Prop :=
  ∃ s ids, c.store = some s ∧ s.Counts ids ∧ ids.map tags.fullName? = names.map some

theorem counts_new (info : ChunkInfo) (tags : TagIndex) : (Chunk.new info).Counts tags [] :=
  ⟨_, [], rfl, GrowingStore.took_empty, rfl⟩

theorem Counts.extend (h : c.Counts tags names) (htags : tags'.Extends tags) :
    c.Counts tags' names := by
  obtain ⟨s, ids, hs, hcounts, hnames⟩ := h
  exact ⟨s, ids, hs, hcounts, htags.names_eq hnames⟩

theorem Counts.state_ne (h : c.Counts tags names) : c.state ≠ .evicted := by
  obtain ⟨s, ids, hs, -, -⟩ := h
  rw [ne_eq, state_eq_evicted, hs]
  simp

/-- The size of a chunk. -/
theorem Counts.stats (h : c.Counts tags names) (htags : TagIndex.Indexes tags ms) :
    c.stats.points = names.length ∧ c.stats.series = names.toFinset.card := by
  obtain ⟨s, ids, hs, hcounts, hnames⟩ := h
  have hstats : c.stats = s.stats := by rw [Chunk.stats, hs]
  have hlength : ids.length = names.length := by
    rw [← List.length_map tags.fullName?, hnames, List.length_map]
  rw [hstats, hcounts.points_stats, hcounts.series_stats]
  refine ⟨hlength, ?_⟩
  -- different ids have different names
  have hinj : Set.InjOn tags.fullName? ids.toFinset := by
    intro a ha b hb heq
    obtain ⟨name, hname⟩ := TagIndex.exists_name hnames (List.mem_toFinset.mp ha)
    rw [hname] at heq
    rw [htags.fullName?_eq] at hname heq
    obtain ⟨m, hm, hmname⟩ := Option.map_eq_some_iff.mp hname
    obtain ⟨n, hn, hnname⟩ := Option.map_eq_some_iff.mp heq.symm
    exact htags.metricAt_unique hm hn (hmname.trans hnname.symm)
  have himage : ids.toFinset.image tags.fullName? = names.toFinset.image some := by
    ext name
    simp only [Finset.mem_image, List.mem_toFinset, ← List.mem_map, hnames]
  rw [← Finset.card_image_of_injOn hinj, himage,
    Finset.card_image_of_injective _ (Option.some_injective _)]

/-! ## Adding a point -/

/-- A point whose metric has an id is counted, or it is refused by a series with points and changes
nothing. -/
theorem addPoint_counts_of_id {store : GrowingStore} {ids : List SeriesId}
    (hs : c.store = some (.growing store)) (hcounts : store.Took ids)
    (hget : tags.getOrCreate m = (.ok id, tags')) (hp : PointTime p.time) :
    (∃ e, c.addPoint tags m p = (.error e, c, tags') ∧ id ∈ ids) ∨
    (∃ store', c.addPoint tags m p = (.ok (), { c with store := some (.growing store') }, tags') ∧
      store'.Took (ids ++ [id])) := by
  cases hadd : store.add id p with
  | mk result store' =>
    have hresult : c.addPoint tags m p =
        (result, { c with store := some (.growing store') }, tags') := by
      simp [Chunk.addPoint, hs, hget, PointStore.add, hadd]
    cases result with
    | ok u => exact .inr ⟨store', hresult, hcounts.add hadd⟩
    | error e =>
      obtain ⟨taken, rfl, hheld, -⟩ := hcounts
      obtain ⟨rfl, -, hne⟩ := GrowingStore.add_refused hheld hp hadd
      refine .inl ⟨e, ?_, pointsUnder_ne_nil.mp hne⟩
      rw [hresult, ← hs]

/-- **A point counts for its metric or changes nothing**, not even the index. -/
theorem Counts.addPoint (h : c.Counts tags names) (htags : TagIndex.Indexes tags ms)
    (hm : m.WellFormed) (hp : PointTime p.time) :
    (∃ e, c.addPoint tags m p = (.error e, c, tags)) ∨
    (∃ c' tags' more, c.addPoint tags m p = (.ok (), c', tags') ∧
      TagIndex.Indexes tags' (ms ++ more) ∧
      (∀ name, name ∈ (ms ++ more).map Metric.fullName ↔
        name ∈ ms.map Metric.fullName ∨ name = m.fullName) ∧
      c'.Counts tags' (names ++ [m.fullName])) := by
  obtain ⟨s, ids, hs, hcounts, hnames⟩ := h
  cases s with
  | frozen store =>
    exact .inl ⟨_, addPoint_late (by simp [Chunk.state, hs, Store.isFrozen]) tags m p⟩
  | growing store =>
    rcases TagIndex.getOrCreate_cases htags hm with
      ⟨e, he⟩ | ⟨id, n, hget, hid, hname⟩ | ⟨tags', hget, htags'⟩
    · exact .inl ⟨e, by simp [Chunk.addPoint, hs, he]⟩
    · rcases addPoint_counts_of_id hs hcounts hget hp with ⟨e, he, -⟩ | ⟨store', hadd, hcounts'⟩
      · exact .inl ⟨e, he⟩
      · refine .inr ⟨_, _, [], hadd, by rwa [List.append_nil], fun name => ?_,
          _, _, rfl, hcounts', ?_⟩
        · rw [List.append_nil, iff_self_or]
          rintro rfl
          exact hname ▸ List.mem_map_of_mem (TagIndex.mem_of_metricAt hid)
        · rw [List.map_append, hnames, List.map_append, List.map_singleton, List.map_singleton,
            htags.fullName?_eq, hid, Option.map_some, hname]
    · have hlast : TagIndex.metricAt (ms ++ [m]) (ms.length + TagIndex.firstId) = some m :=
        TagIndex.metricAt_snoc.mpr (.inr ⟨rfl, rfl⟩)
      rcases addPoint_counts_of_id hs hcounts hget hp with ⟨e, -, hmem⟩ | ⟨store', hadd, hcounts'⟩
      · -- a metric that has just come has no points
        obtain ⟨name, hname⟩ := TagIndex.exists_name hnames hmem
        rw [htags.fullName?_eq] at hname
        obtain ⟨n, hn, -⟩ := Option.map_eq_some_iff.mp hname
        exact absurd (TagIndex.lt_of_metricAt hn) (Nat.lt_irrefl _)
      · refine .inr ⟨_, _, [m], hadd, htags', fun name => by simp, _, _, rfl, hcounts', ?_⟩
        rw [List.map_append, (htags'.extends htags).names_eq hnames, List.map_append,
          List.map_singleton, List.map_singleton, htags'.fullName?_eq, hlast, Option.map_some]

/-- Freezing changes nothing of what is counted, whether or not it succeeds. -/
theorem Counts.freeze [BlockCodec] (h : c.Counts tags names) (d : Disk) (form : FrozenForm) :
    (c.freeze d form).state.1.Counts tags names := by
  obtain ⟨s, ids, hs, hcounts, hnames⟩ := h
  cases s with
  | frozen store =>
    rw [(freeze_late (by simp [Chunk.state, hs, Store.isFrozen]) d form).2]
    exact ⟨_, ids, hs, hcounts, hnames⟩
  | growing store =>
    rcases freeze_growing hs d form with ⟨e, d', -, -, hstate⟩ | ⟨frozen, d', hfreeze, -, hstate⟩
    · rw [hstate]
      exact ⟨_, ids, hs, hcounts, hnames⟩
    · rw [hstate]
      exact ⟨_, ids, rfl, hcounts.freeze hfreeze, hnames⟩

end Chunk

end TimeSeries
