import Mathlib
import TimeSeries.Manager.Query
import TimeSeries.Proofs.Manager.Group
import TimeSeries.Proofs.Manager.Invariant

/-!
# What a manager answers

A query goes to the chunks of the windows that meet its range. The points that come back for a
metric are those that are left in these windows, window by window, so that putting them together
and keeping the last one of each time gives the last ones of all points that are left. The history
says which ones these are.
-/

namespace TimeSeries

/-- Whether the window of a time, with its end, meets the times from `first` to `last`. -/
def Time.Meets (length t first last : Int) : Prop :=
  floor length t ≤ last ∧ first ≤ floor length t + length

/-- An answer to a query over a range of times is the one that a history calls for. -/
structure History.Answered (h : History) (length : Int) (tags : TagIndex) (q : Query)
    (first last : Int) (answer : List MetricPoints) : Prop where
  /-- No metric is answered twice. -/
  distinct : (answer.map (·.metric)).Nodup
  /-- A metric is answered if the query finds it and there is a point left in one of the windows. -/
  metrics : ∀ name, name ∈ answer.map (·.metric) ↔
    (∃ id ∈ tags.lookup q, tags.fullName? id = some name) ∧
      ∃ t, h.Survives length name t ∧ Time.Meets length t first last
  /-- Times ascend. -/
  ascending : ∀ s ∈ answer, s.points.Pairwise fun p p' => p.time < p'.time
  /-- There is a point at the times of all points that are left in the windows, and at no others. -/
  times : ∀ s ∈ answer, ∀ t, (∃ p ∈ s.points, p.time = t) ↔
    h.Survives length s.metric t ∧ Time.Meets length t first last
  /-- Each point is the one that was taken last. -/
  latest : ∀ s ∈ answer, ∀ p ∈ s.points, h.Latest s.metric p

variable {settings : ManagerSettings} {points : String → List Point} {ms : List Metric}
  {tags : TagIndex} {f : SeriesId → List Point} {q : Query} {m : Manager} {id : SeriesId}
  {n : Metric} {name : String} {first last : Int}

/-! ## The answer of a chunk -/

theorem TagIndex.Indexes.fullName_eq (h : TagIndex.Indexes tags ms)
    (hid : TagIndex.metricAt ms id = some n) : tags.fullName id = n.fullName := by
  rw [TagIndex.fullName, h.fullName?_eq, hid]
  rfl

namespace Chunk

theorem mem_metrics_answer : name ∈ (answer tags f q).map (·.metric) ↔
    ∃ id ∈ tags.lookup q, f id ≠ [] ∧ tags.fullName id = name := by
  rw [List.mem_map]
  constructor
  · rintro ⟨s, hs, rfl⟩
    obtain ⟨id, hid, hseries⟩ := List.mem_filterMap.mp hs
    by_cases hf : f id = []
    · rw [series?_eq_none_iff.mpr hf] at hseries
      exact absurd hseries (by simp)
    · rw [series?_of_ne_nil hf] at hseries
      obtain rfl := Option.some_inj.mp hseries
      exact ⟨id, hid, hf, rfl⟩
  · rintro ⟨id, hid, hf, rfl⟩
    exact ⟨_, List.mem_filterMap.mpr ⟨id, hid, series?_of_ne_nil hf⟩, rfl⟩

/-- Reading ids with different names gives the points under one id to its name. -/
theorem pointsOf_filterMap {ids : List SeriesId} (hid : ids.Nodup)
    (hnames : ∀ a ∈ ids, a ≠ id → tags.fullName a ≠ tags.fullName id) :
    MetricPoints.pointsOf (ids.filterMap (series? tags f)) (tags.fullName id) =
      if id ∈ ids then f id else [] := by
  induction ids with
  | nil => rfl
  | cons a ids ih =>
    obtain ⟨hnew, hid⟩ := List.nodup_cons.mp hid
    obtain ⟨hname, hnames⟩ := List.forall_mem_cons.mp hnames
    have hhead : MetricPoints.pointsOf ((series? tags f a).toList) (tags.fullName id) =
        if a = id then f id else [] := by
      by_cases hf : f a = []
      · rw [series?_eq_none_iff.mpr hf]
        split
        · rename_i heq
          rw [← heq, hf]
          rfl
        · rfl
      · rw [series?_of_ne_nil hf, Option.toList_some]
        split
        · rename_i heq
          rw [← heq]
          exact MetricPoints.pointsOf_singleton_self
        · rename_i hne
          exact MetricPoints.pointsOf_singleton_ne (hname hne)
    -- an id adds its points, if any, in front of those of the other ids
    have hcons : (a :: ids).filterMap (series? tags f) =
        (series? tags f a).toList ++ ids.filterMap (series? tags f) := by
      rw [List.filterMap_cons]
      cases series? tags f a <;> rfl
    rw [hcons, MetricPoints.pointsOf_append, hhead, ih hid hnames]
    by_cases ha : a = id
    · subst ha
      simp [hnew]
    · simp [ha, Ne.symm ha]

theorem pointsOf_answer (h : TagIndex.Indexes tags ms) (hid : TagIndex.metricAt ms id = some n)
    (hq : id ∈ tags.lookup q) :
    MetricPoints.pointsOf (answer tags f q) n.fullName = f id := by
  rw [← h.fullName_eq hid, answer, pointsOf_filterMap, if_pos hq]
  · exact (TagIndex.pairwise_lookup h q).imp Nat.ne_of_lt
  · intro a ha hne heq
    obtain ⟨n', hn', -⟩ := (TagIndex.mem_lookup h q).mp ha
    rw [h.fullName_eq hid, h.fullName_eq hn'] at heq
    exact hne (h.metricAt_unique hn' hid heq)

end Chunk

/-! ## The answers of the chunks -/

namespace Manager

theorem queryChunks_eq [BlockCodec] {list : List (Chunk GrowingStore)}
    {answer : Chunk GrowingStore → List MetricPoints}
    (h : ∀ c ∈ list, c.query m.disk m.tags q = (.ok (answer c), [])) :
    m.queryChunks q list = (.ok (list.flatMap answer), []) := by
  induction list with
  | nil => rfl
  | cons c list ih =>
    obtain ⟨hc, hrest⟩ := List.forall_mem_cons.mp h
    rw [queryChunks, hc, ih hrest]
    rfl

/-- The starts of the windows with a chunk that meet a range. -/
def startsMeeting (m : Manager) (first last : Int) : List Int :=
  (m.chunkList.filter (·.info.overlaps first last)).map (·.info.start)

variable [BlockCodec]

theorem Holds.keeps_of_mem (h : m.Holds settings points ms) {x : Int × LiveChunk}
    (hx : x ∈ m.chunks.toList) : x.2.chunk.Keeps settings x.1 m.disk
      (heldIn settings.windowSeconds points ms x.1) := h.keeps x.1 x.2 (mem_toList.mp hx)

theorem Holds.start_eq (h : m.Holds settings points ms) {x : Int × LiveChunk}
    (hx : x ∈ m.chunks.toList) : x.2.chunk.info.start = x.1 := by
  rw [(h.keeps_of_mem hx).info]
  rfl

theorem Holds.nodup_startsMeeting (h : m.Holds settings points ms) :
    (m.startsMeeting first last).Nodup := by
  have hstarts : m.chunkList.map (·.info.start) = m.chunks.toList.map Prod.fst := by
    rw [chunkList, List.map_map]
    exact List.map_congr_left fun x hx => h.start_eq hx
  refine List.Nodup.sublist (List.filter_sublist.map _) ?_
  rw [hstarts]
  exact TreeMap.nodup_keys m.chunks

theorem Holds.mem_startsMeeting (hs : settings.Fits) (h : m.Holds settings points ms)
    (hle : first ≤ last) {start : Int} : start ∈ m.startsMeeting first last ↔
      (∃ c, m.chunks[start]? = some c) ∧ start ≤ last ∧ first ≤ start + settings.windowSeconds := by
  have hmeets {x : Int × LiveChunk} (hx : x ∈ m.chunks.toList) :
      x.2.chunk.info.overlaps first last = true ↔
        x.1 ≤ last ∧ first ≤ x.1 + settings.windowSeconds := by
    rw [(h.keeps_of_mem hx).info]
    refine ChunkInfo.overlaps_iff ?_ hle
    exact Int.le_add_of_nonneg_right (Int.le_of_lt hs.pos)
  rw [startsMeeting, chunkList, List.filter_map, List.map_map, List.mem_map]
  constructor
  · rintro ⟨x, hx, rfl⟩
    obtain ⟨hx, hover⟩ := List.mem_filter.mp hx
    rw [Function.comp_apply, h.start_eq hx]
    exact ⟨⟨x.2, mem_toList.mp hx⟩, (hmeets hx).mp hover⟩
  · rintro ⟨⟨c, hc⟩, hbounds⟩
    have hx : (start, c) ∈ m.chunks.toList := mem_toList.mpr hc
    exact ⟨(start, c), List.mem_filter.mpr ⟨hx, (hmeets hx).mpr hbounds⟩, h.start_eq hx⟩

/-- The answers of the chunks, window by window. -/
theorem Holds.queryChunks_eq (h : m.Holds settings points ms) (q : Query) :
    m.queryChunks q (m.chunkList.filter (·.info.overlaps first last)) =
      (.ok ((m.startsMeeting first last).flatMap fun start =>
        Chunk.answer m.tags (heldIn settings.windowSeconds points ms start) q), []) := by
  rw [startsMeeting, List.flatMap_map]
  refine Manager.queryChunks_eq fun c hc => ?_
  obtain ⟨x, hx, rfl⟩ := List.mem_map.mp (List.mem_of_mem_filter hc)
  rw [h.start_eq hx]
  exact (h.keeps_of_mem hx).query_eq m.tags q

/-- What all chunks of the windows that meet a range answer. -/
def answers (m : Manager) (settings : ManagerSettings) (points : String → List Point)
    (ms : List Metric) (q : Query) (first last : Int) : List MetricPoints :=
  (m.startsMeeting first last).flatMap fun start =>
    Chunk.answer m.tags (heldIn settings.windowSeconds points ms start) q

omit [BlockCodec] in
theorem exists_metricAt_of_fullName? (h : TagIndex.Indexes tags ms)
    (hname : tags.fullName? id = some name) :
    ∃ n, TagIndex.metricAt ms id = some n ∧ n.fullName = name := by
  rw [h.fullName?_eq] at hname
  exact Option.map_eq_some_iff.mp hname

/-- The points that come back for a metric are those that are left in the windows. -/
theorem Holds.pointsOf_answers (h : m.Holds settings points ms) (hid : id ∈ m.tags.lookup q)
    (hname : m.tags.fullName? id = some name) :
    MetricPoints.pointsOf (m.answers settings points ms q first last) name =
      (m.startsMeeting first last).flatMap fun start =>
        (points name).filter fun p => Time.floor settings.windowSeconds p.time = start := by
  obtain ⟨n, hn, rfl⟩ := exists_metricAt_of_fullName? h.tags hname
  rw [answers, MetricPoints.pointsOf_flatMap]
  refine List.flatMap_congr fun start _ => ?_
  rw [Chunk.pointsOf_answer h.tags hn hid, heldIn_of_metricAt hn]

theorem Holds.mem_metrics_answers (h : m.Holds settings points ms) :
    name ∈ (m.answers settings points ms q first last).map (·.metric) ↔
      (∃ id ∈ m.tags.lookup q, m.tags.fullName? id = some name) ∧
        ∃ p ∈ points name,
          Time.floor settings.windowSeconds p.time ∈ m.startsMeeting first last := by
  rw [answers, List.map_flatMap, List.mem_flatMap]
  constructor
  · rintro ⟨start, hstart, hmem⟩
    obtain ⟨id, hid, hne, rfl⟩ := Chunk.mem_metrics_answer.mp hmem
    obtain ⟨n, hn⟩ := metricAt_of_heldIn hne
    rw [heldIn_of_metricAt hn] at hne
    obtain ⟨p, hp⟩ := List.exists_mem_of_ne_nil _ hne
    obtain ⟨hp, hfloor⟩ := List.mem_filter.mp hp
    rw [h.tags.fullName_eq hn]
    refine ⟨⟨id, hid, by rw [h.tags.fullName?_eq, hn]; rfl⟩, p, hp, ?_⟩
    rw [of_decide_eq_true hfloor]
    exact hstart
  · rintro ⟨⟨id, hid, hname⟩, p, hp, hstart⟩
    obtain ⟨n, hn, rfl⟩ := exists_metricAt_of_fullName? h.tags hname
    refine ⟨_, hstart, Chunk.mem_metrics_answer.mpr ⟨id, hid, ?_, h.tags.fullName_eq hn⟩⟩
    rw [heldIn_of_metricAt hn]
    exact List.ne_nil_of_mem (List.mem_filter.mpr ⟨hp, decide_eq_true rfl⟩)

theorem Holds.floor_mem_iff (hs : settings.Fits) (h : m.Holds settings points ms)
    (hle : first ≤ last) {p : Point} (hp : p ∈ points name) :
    Time.floor settings.windowSeconds p.time ∈ m.startsMeeting first last ↔
      Time.Meets settings.windowSeconds p.time first last := by
  rw [h.mem_startsMeeting hs hle]
  exact and_iff_right (h.covered name p hp)

/-- The times of the points that are left in the windows. -/
theorem Holds.exists_mem_windows {history : History} (hs : settings.Fits)
    (h : m.Holds settings (history.kept settings.windowSeconds) ms) (hle : first ≤ last) {t : Int} :
    (∃ p ∈ history.kept settings.windowSeconds name, p.time = t ∧
        Time.floor settings.windowSeconds p.time ∈ m.startsMeeting first last) ↔
      history.Survives settings.windowSeconds name t ∧
        Time.Meets settings.windowSeconds t first last := by
  rw [← History.exists_mem_kept]
  constructor
  · rintro ⟨p, hp, rfl, hstart⟩
    exact ⟨⟨p, hp, rfl⟩, (h.floor_mem_iff hs hle hp).mp hstart⟩
  · rintro ⟨⟨p, hp, rfl⟩, hmeets⟩
    exact ⟨p, hp, rfl, (h.floor_mem_iff hs hle hp).mpr hmeets⟩

/-- The answer of a manager without an aggregation. -/
def series (m : Manager) (settings : ManagerSettings) (points : String → List Point)
    (ms : List Metric) (q : Query) (first last : Int) : List MetricPoints :=
  aggregate q (MetricPoints.group (m.answers settings points ms q first last)) .none

theorem Holds.query_eq (h : m.Holds settings points ms) (q : Query) :
    (m.query q first last .none).1 = .ok (m.series settings points ms q first last) := by
  rw [Manager.query, h.queryChunks_eq]
  rfl

omit [BlockCodec] in
theorem metrics_series : (m.series settings points ms q first last).map (·.metric) =
    (MetricPoints.group (m.answers settings points ms q first last)).map (·.metric) := by
  rw [series, aggregate, List.map_map]
  rfl

/-- Each series comes from the points that are left of its metric, window by window. -/
theorem Holds.points_of_mem_series (h : m.Holds settings points ms) {s : MetricPoints}
    (hs : s ∈ m.series settings points ms q first last) :
    s.points = Point.dedup ((m.startsMeeting first last).flatMap fun start =>
      (points s.metric).filter fun p => Time.floor settings.windowSeconds p.time = start) := by
  obtain ⟨-, hnames, hpoints⟩ :=
    MetricPoints.group_spec (m.answers settings points ms q first last)
  obtain ⟨g, hg, rfl⟩ := List.mem_map.mp hs
  have hname := (hnames g.metric).mp (List.mem_map_of_mem hg)
  obtain ⟨⟨id, hid, hfull⟩, -⟩ := h.mem_metrics_answers.mp hname
  dsimp only
  rw [hpoints g hg, h.pointsOf_answers hid hfull]

/-- The answer of a manager is the one that its history calls for. -/
theorem Holds.answered {history : History} (hs : settings.Fits)
    (h : m.Holds settings (history.kept settings.windowSeconds) ms) (q : Query)
    (hle : first ≤ last) : history.Answered settings.windowSeconds m.tags q first last
      (m.series settings (history.kept settings.windowSeconds) ms q first last) := by
  obtain ⟨hnodup, hnames, -⟩ := MetricPoints.group_spec
    (m.answers settings (history.kept settings.windowSeconds) ms q first last)
  -- dropping older points of a time changes neither the metrics nor the times
  refine ⟨?_, fun name => ?_, fun s hmem => ?_, fun s hmem t => ?_, fun s hmem p hp => ?_⟩
  · rw [metrics_series]
    exact hnodup
  · rw [metrics_series, hnames, h.mem_metrics_answers]
    refine and_congr_right fun _ => ?_
    constructor
    · rintro ⟨p, hp, hstart⟩
      exact ⟨p.time, (h.exists_mem_windows hs hle).mp ⟨p, hp, rfl, hstart⟩⟩
    · rintro ⟨t, ht⟩
      obtain ⟨p, hp, -, hstart⟩ := (h.exists_mem_windows hs hle).mpr ht
      exact ⟨p, hp, hstart⟩
  · rw [h.points_of_mem_series hmem]
    exact Point.pairwise_dedup _
  · rw [h.points_of_mem_series hmem, Point.exists_mem_dedup, ← h.exists_mem_windows hs hle]
    simp only [List.mem_flatMap, List.mem_filter, decide_eq_true_eq]
    constructor
    · rintro ⟨p, ⟨start, hstart, hp, rfl⟩, htime⟩
      exact ⟨p, hp, htime, hstart⟩
    · rintro ⟨p, hp, htime, hstart⟩
      exact ⟨p, ⟨_, hstart, hp, rfl⟩, htime⟩
  · rw [h.points_of_mem_series hmem, Point.mem_dedup,
      Point.lastAt_flatMap_filter h.nodup_startsMeeting] at hp
    exact History.latest_of_lastAt hp.2

variable [LawfulBlockCodec]

/-- **Whatever calls a manager has come through, a query is answered as the history of the calls
has it.** The answer never fails. It has one series for each metric that the query finds and of
which a point is left in a window that meets the range; in the series there is, at each time at
which a point is left, the point that was taken last for that metric and time. What is asked of
the disk at the start is that no two paths lead to one file. -/
theorem answered_callEach {disk : Disk} {fresh : Manager} (hdisk : disk.WellFormed)
    (hlength : settings.windowSeconds ≤ lastTime) (hnew : Manager.new settings disk = .ok fresh)
    (calls : List ManagerCall) (q : Query) (hle : first ≤ last) :
    ∃ answer, ((fresh.callEach calls).1.query q first last .none).1 = .ok answer ∧
      (fresh.callEach calls).2.Answered settings.windowSeconds (fresh.callEach calls).1.tags q
        first last answer := by
  obtain ⟨hempty, hpos⟩ := holds_new hdisk hnew
  have hs : settings.Fits := ⟨hpos, hlength⟩
  obtain ⟨ms, h⟩ := hempty.callEach hs calls
  exact ⟨_, h.query_eq q, h.answered hs q hle⟩

end Manager

/-- A window that was frozen refuses a point and is removed, and in a later one a point is taken
over another. -/
theorem Manager.answered_callEach_sample :
    let fresh : Manager := ⟨{}, TagIndex.empty, Disk.empty, ∅, 0⟩
    let after := fresh.callEach [.add "put cpu 60 1 host=a", .freezeUntil 7200,
      .add "put cpu 61 2 host=a", .add "put cpu 8000 3 host=a", .add "put cpu 8000 4 host=a",
      .removeUntil 7200]
    after.2 = [.taken ⟨⟨"cpu", [⟨"host", "a"⟩]⟩, ⟨60, 0x3FF0000000000000⟩⟩,
      .taken ⟨⟨"cpu", [⟨"host", "a"⟩]⟩, ⟨8000, 0x4008000000000000⟩⟩,
      .taken ⟨⟨"cpu", [⟨"host", "a"⟩]⟩, ⟨8000, 0x4010000000000000⟩⟩, .removed 7200] ∧
    after.2.Answered 7200 after.1.tags ⟨"cpu", []⟩ 0 10000
      [⟨"cpu host=a", [⟨8000, 0x4010000000000000⟩]⟩] := by
  intro fresh after
  have history : after.2 = [.taken ⟨⟨"cpu", [⟨"host", "a"⟩]⟩, ⟨60, 0x3FF0000000000000⟩⟩,
      .taken ⟨⟨"cpu", [⟨"host", "a"⟩]⟩, ⟨8000, 0x4008000000000000⟩⟩,
      .taken ⟨⟨"cpu", [⟨"host", "a"⟩]⟩, ⟨8000, 0x4010000000000000⟩⟩, .removed 7200] := by
    decide +kernel
  have given : (after.1.query ⟨"cpu", []⟩ 0 10000 .none).1 =
      .ok [⟨"cpu host=a", [⟨8000, 0x4010000000000000⟩]⟩] := by
    decide +kernel
  have hnew : Manager.new {} Disk.empty = .ok fresh := rfl
  obtain ⟨answer, hanswer, hanswered⟩ := answered_callEach Disk.wellFormed_empty (by decide) hnew
    _ ⟨"cpu", []⟩ (by decide : (0 : Int) ≤ 10000)
  obtain rfl := Except.ok.inj (given.symm.trans hanswer)
  exact ⟨history, hanswered⟩

end TimeSeries
