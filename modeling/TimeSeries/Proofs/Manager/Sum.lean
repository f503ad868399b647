import Mathlib
import TimeSeries.Proofs.Manager.Answer
import TimeSeries.Proofs.Manager.Partition

/-!
# What the sum adds up

A query that asks for the sum goes to the same chunks as one that asks for the series, and it finds
the same points. The difference lies in what becomes of them. A series keeps the last point of each
time; the sum takes them all, so that a metric that was sent a value twice at one time adds both.
`Summed` says so on the history of a manager: what is added up at a time are the values that were
taken at that time for the metrics of the series and are left, and of the values of one metric the
series has the last.
-/

namespace TimeSeries

/-! ## The values of a time -/

namespace Point

variable {points : List Point} {p : Point} {t length : Int}

/-- The values at a time, in their order. -/
def valuesAt (points : List Point) (t : Int) : List UInt64 :=
  (points.filter fun p => p.time = t).map (·.bits)

theorem valuesAt_append (points more : List Point) (t : Int) :
    valuesAt (points ++ more) t = valuesAt points t ++ valuesAt more t := by
  rw [valuesAt, List.filter_append, List.map_append]
  rfl

theorem valuesAt_flatMap {α : Type} (xs : List α) (f : α → List Point) (t : Int) :
    valuesAt (xs.flatMap f) t = xs.flatMap fun x => valuesAt (f x) t := by
  rw [valuesAt, List.filter_flatMap, List.map_flatMap]
  rfl

theorem valuesAt_eq_nil_iff : valuesAt points t = [] ↔ ∀ p ∈ points, p.time ≠ t := by
  simp [valuesAt, List.filter_eq_nil_iff]

theorem valuesAt_ne_nil_iff : valuesAt points t ≠ [] ↔ ∃ p ∈ points, p.time = t := by
  rw [ne_eq, valuesAt_eq_nil_iff]
  push Not
  rfl

/-- Sorting points into values by their times gives to each time the values of the time. -/
theorem getElem?_valuesByTime (points : List Point) (t : Int) :
    (valuesByTime points)[t]? =
      if valuesAt points t = [] then none else some (valuesAt points t) := by
  induction points using List.reverseRecOn with
  | nil => simp [valuesByTime, valuesAt]
  | append_singleton points p ih =>
    have hlast : valuesAt [p] t = if p.time = t then [p.bits] else [] := by
      rw [valuesAt, List.filter_singleton]
      by_cases hp : p.time = t <;> simp [hp]
    rw [valuesByTime, List.foldl_append, List.foldl_cons, List.foldl_nil,
      Std.TreeMap.getElem?_alter, TreeMap.ite_compare, valuesAt_append, hlast]
    by_cases hp : p.time = t
    · have hbefore : (valuesByTime points)[p.time]?.getD [] = valuesAt points t := by
        rw [hp, ih]
        split
        · rename_i hnil
          rw [hnil, Option.getD_none]
        · rfl
      rw [if_pos hp.symm, if_pos hp, if_neg (by simp)]
      exact congrArg (fun values => some (values ++ [p.bits])) hbefore
    · rw [if_neg (Ne.symm hp), if_neg hp, List.append_nil]
      exact ih

/-- Of the values of a time the one that stays when points are deduplicated is the last. -/
theorem valuesAt_dedup (points : List Point) (t : Int) :
    valuesAt (dedup points) t = (valuesAt points t).getLast?.toList := by
  by_cases hnone : ∀ p ∈ points, p.time ≠ t
  · have hkept : ∀ p ∈ dedup points, p.time ≠ t := fun p hp => hnone p (mem_dedup.mp hp).mem
    rw [valuesAt_eq_nil_iff.mpr hnone, valuesAt_eq_nil_iff.mpr hkept]
    rfl
  · push Not at hnone
    obtain ⟨p, hp, rfl⟩ := hnone
    obtain ⟨q, hlast, htime⟩ := exists_lastAt hp
    rw [← htime]
    -- in the deduplicated points no other one has the time
    have hkept : valuesAt (dedup points) q.time = [q.bits] := by
      obtain ⟨before, after, heq⟩ := List.append_of_mem (mem_dedup.mpr hlast)
      have hsorted := pairwise_dedup points
      rw [heq, List.pairwise_append, List.pairwise_cons] at hsorted
      obtain ⟨-, ⟨hafter, -⟩, hbefore⟩ := hsorted
      have hnone : valuesAt before q.time = [] :=
        valuesAt_eq_nil_iff.mpr fun x hx => Int.ne_of_lt (hbefore x hx q List.mem_cons_self)
      have hnone' : valuesAt after q.time = [] :=
        valuesAt_eq_nil_iff.mpr fun x hx => Int.ne_of_gt (hafter x hx)
      rw [heq, ← List.singleton_append, valuesAt_append, valuesAt_append, hnone, hnone']
      simp [valuesAt]
    have htaken : (valuesAt points q.time).getLast? = some q.bits := by
      obtain ⟨before, after, heq, hafter⟩ := hlast
      rw [heq, ← List.singleton_append, valuesAt_append, valuesAt_append,
        valuesAt_eq_nil_iff.mpr hafter]
      simp [valuesAt]
    rw [hkept, htaken]
    rfl

/-- Points that are collected window by window have the values of a time if its window is among the
windows, and none otherwise. -/
theorem valuesAt_windows {starts : List Int} (h : starts.Nodup) (points : List Point) (t : Int) :
    valuesAt (starts.flatMap fun start =>
        points.filter fun p => Time.floor length p.time = start) t =
      if Time.floor length t ∈ starts then valuesAt points t else [] := by
  have hone (start : Int) : valuesAt (points.filter fun p => Time.floor length p.time = start) t =
      if Time.floor length t = start then valuesAt points t else [] := by
    rw [valuesAt, List.filter_filter]
    split
    · rename_i hstart
      refine congrArg (List.map _) (List.filter_congr fun p _ => ?_)
      by_cases hp : p.time = t <;> simp [hp, hstart]
    · rename_i hstart
      rw [List.map_eq_nil_iff, List.filter_eq_nil_iff]
      intro p _ hp
      simp only [Bool.and_eq_true, decide_eq_true_eq] at hp
      exact hstart (hp.1 ▸ hp.2)
  rw [valuesAt_flatMap]
  induction starts with
  | nil => rfl
  | cons start starts ih =>
    obtain ⟨hnew, hstarts⟩ := List.nodup_cons.mp h
    rw [List.flatMap_cons, hone, ih hstarts]
    by_cases hstart : Time.floor length t = start
    · rw [if_pos hstart, hstart, if_neg hnew, if_pos List.mem_cons_self, List.append_nil]
    · rw [if_neg hstart, List.nil_append]
      simp only [List.mem_cons, hstart, false_or]

end Point

/-! ## What a history says of a sum -/

namespace History

/-- The values of a metric at a time that were taken and are left, in their order. -/
def valuesAt (length : Int) (h : History) (metric : String) (t : Int) : List UInt64 :=
  Point.valuesAt (kept length h metric) t

/-- The values that were added up at each time, when the points of the same query are some
series. -/
structure Summed (h : History) (length : Int) (series : List MetricPoints)
    (values : Std.TreeMap Int (List UInt64)) : Prop where
  /-- The times are those of the series. -/
  times : ∀ t : Int, (∃ vs : List UInt64, values[t]? = some vs) ↔
    ∃ s ∈ series, ∃ p ∈ s.points, p.time = t
  /-- All values that were taken for the metrics of the series and are left are added. -/
  taken : ∀ (t : Int) (vs : List UInt64), values[t]? = some vs →
    vs.Perm (series.flatMap fun s => h.valuesAt length s.metric t)
  /-- The value of a series is the last of those that are added for its metric. -/
  last : ∀ (t : Int) (vs : List UInt64), values[t]? = some vs → ∀ s ∈ series,
    Point.valuesAt s.points t = (h.valuesAt length s.metric t).getLast?.toList
  /-- Where no metric has two values, one value is added for each series with a point. -/
  once : ∀ (t : Int) (vs : List UInt64), values[t]? = some vs →
    (∀ s ∈ series, (h.valuesAt length s.metric t).length ≤ 1) →
    vs.Perm (series.flatMap fun s => Point.valuesAt s.points t)

/-- That one value is added for each series is a case of the rest. -/
theorem summed_of_last {h : History} {length : Int} {series : List MetricPoints}
    {values : Std.TreeMap Int (List UInt64)}
    (times : ∀ t : Int, (∃ vs : List UInt64, values[t]? = some vs) ↔
      ∃ s ∈ series, ∃ p ∈ s.points, p.time = t)
    (taken : ∀ (t : Int) (vs : List UInt64), values[t]? = some vs →
      vs.Perm (series.flatMap fun s => h.valuesAt length s.metric t))
    (last : ∀ (t : Int) (vs : List UInt64), values[t]? = some vs → ∀ s ∈ series,
      Point.valuesAt s.points t = (h.valuesAt length s.metric t).getLast?.toList) :
    h.Summed length series values := by
  refine ⟨times, taken, last, fun t vs hvs honce => ?_⟩
  have hsame : (series.flatMap fun s => h.valuesAt length s.metric t) =
      series.flatMap fun s => Point.valuesAt s.points t := by
    refine List.flatMap_congr fun s hs => ?_
    rw [last t vs hvs s hs]
    -- a list of at most one value is its last value
    cases hvalues : h.valuesAt length s.metric t with
    | nil => rfl
    | cons v more =>
      have hshort := honce s hs
      rw [hvalues, List.length_cons] at hshort
      obtain rfl : more = [] := List.eq_nil_of_length_eq_zero (by omega)
      rfl
  rw [← hsame]
  exact taken t vs hvs

end History

/-! ## Sums of a manager -/

namespace Manager

variable [BlockCodec] {settings : ManagerSettings} {points : String → List Point}
  {ms : List Metric} {m : Manager} {q : Query} {first last : Int}

/-- The values that are added up at each time to answer a query with their sums. -/
def valuesSummed (m : Manager) (q : Query) (first last : Int) :
    Except Error (Std.TreeMap Int (List UInt64)) :=
  (m.queryChunks q (m.chunkList.filter (·.info.overlaps first last))).1.map fun answers =>
    Point.valuesByTime ((MetricPoints.group answers).flatMap (·.points))

/-- The sums of some values, in the order of their times. -/
def sumsOf (values : Std.TreeMap Int (List UInt64)) : List Point :=
  values.toList.map fun (t, vs) => ⟨t, Point.sumBits vs⟩

omit [BlockCodec] in
theorem pairwise_sumsOf (values : Std.TreeMap Int (List UInt64)) :
    (sumsOf values).Pairwise fun p p' => p.time < p'.time := by
  have hkeys := Std.TreeMap.ordered_keys_toList (t := values)
  exact List.pairwise_map.mpr (hkeys.imp fun h => Std.compare_eq_lt.mp h)

/-- In any state of a manager, the sum is made of the values that are found. -/
theorem query_zimsum (m : Manager) (q : Query) (first last : Int) :
    (m.query q first last .zimsum).1 = (m.valuesSummed q first last).map fun values =>
      [⟨s!"zimsum {q.display}", sumsOf values⟩] := by
  rw [query, valuesSummed]
  dsimp only
  cases (m.queryChunks q (m.chunkList.filter (·.info.overlaps first last))).1 with
  | error e => rfl
  | ok answers => rfl

theorem Holds.valuesSummed_eq (h : m.Holds settings points ms) (q : Query) :
    m.valuesSummed q first last = .ok (Point.valuesByTime
      ((MetricPoints.group (m.answers settings points ms q first last)).flatMap (·.points))) := by
  rw [valuesSummed, h.queryChunks_eq]
  rfl

/-- The values of a metric that are found at a time are all that are left, if the window of the time
meets the range. -/
theorem Holds.valuesAt_group {history : History}
    (h : m.Holds settings (history.kept settings.windowSeconds) ms) {g : MetricPoints}
    (hg : g ∈ MetricPoints.group
      (m.answers settings (history.kept settings.windowSeconds) ms q first last)) (t : Int) :
    Point.valuesAt g.points t =
      if Time.floor settings.windowSeconds t ∈ m.startsMeeting first last then
        history.valuesAt settings.windowSeconds g.metric t
      else [] := by
  obtain ⟨-, hnames, hpoints⟩ := MetricPoints.group_spec
    (m.answers settings (history.kept settings.windowSeconds) ms q first last)
  have hname := (hnames g.metric).mp (List.mem_map_of_mem hg)
  obtain ⟨⟨id, hid, hfull⟩, -⟩ := h.mem_metrics_answers.mp hname
  rw [hpoints g hg, h.pointsOf_answers hid hfull, Point.valuesAt_windows h.nodup_startsMeeting]
  rfl

/-- The sum of a manager is the one that its history calls for. -/
theorem Holds.summed {history : History}
    (h : m.Holds settings (history.kept settings.windowSeconds) ms) :
    history.Summed settings.windowSeconds
      (m.series settings (history.kept settings.windowSeconds) ms q first last)
      (Point.valuesByTime ((MetricPoints.group
        (m.answers settings (history.kept settings.windowSeconds) ms q first last)).flatMap
          (·.points))) := by
  set groups := MetricPoints.group
    (m.answers settings (history.kept settings.windowSeconds) ms q first last) with hgroups
  have hseries : m.series settings (history.kept settings.windowSeconds) ms q first last =
      groups.map fun g => ⟨g.metric, Point.dedup g.points⟩ := rfl
  have hvalues (t : Int) : Point.valuesAt (groups.flatMap (·.points)) t =
      groups.flatMap fun g => Point.valuesAt g.points t := Point.valuesAt_flatMap _ _ t
  -- a value at a time shows that the window of the time meets the range
  have hfound {t : Int} {vs : List UInt64}
      (hvs : (Point.valuesByTime (groups.flatMap (·.points)))[t]? = some vs) :
      vs = (groups.flatMap fun g => Point.valuesAt g.points t) ∧
        ∀ g ∈ groups, Point.valuesAt g.points t =
          history.valuesAt settings.windowSeconds g.metric t := by
    rw [Point.getElem?_valuesByTime] at hvs
    split at hvs
    · exact absurd hvs (by simp)
    · rename_i hne
      obtain rfl := Option.some_inj.mp hvs
      refine ⟨hvalues t, fun g hg => ?_⟩
      rw [hvalues] at hne
      obtain ⟨v, hv⟩ := List.exists_mem_of_ne_nil _ hne
      obtain ⟨g', hg', hv⟩ := List.mem_flatMap.mp hv
      rw [h.valuesAt_group hg'] at hv
      have hmeets : Time.floor settings.windowSeconds t ∈ m.startsMeeting first last := by
        by_contra hnot
        rw [if_neg hnot] at hv
        exact List.not_mem_nil hv
      rw [h.valuesAt_group hg, if_pos hmeets]
  rw [hseries]
  refine History.summed_of_last (fun t => ?_) (fun t vs hvs => ?_) (fun t vs hvs s hs => ?_)
  · have hsome : (∃ vs, (Point.valuesByTime (groups.flatMap (·.points)))[t]? = some vs) ↔
        Point.valuesAt (groups.flatMap (·.points)) t ≠ [] := by
      rw [Point.getElem?_valuesByTime]
      split
      · rename_i hnil
        simp [hnil]
      · rename_i hne
        simp [hne]
    rw [hsome, Point.valuesAt_ne_nil_iff]
    constructor
    · rintro ⟨p, hp, htime⟩
      obtain ⟨g, hg, hp⟩ := List.mem_flatMap.mp hp
      exact ⟨_, List.mem_map_of_mem hg, Point.exists_mem_dedup.mpr ⟨p, hp, htime⟩⟩
    · rintro ⟨s, hs, hpoint⟩
      obtain ⟨g, hg, rfl⟩ := List.mem_map.mp hs
      obtain ⟨p, hp, htime⟩ := Point.exists_mem_dedup.mp hpoint
      exact ⟨p, List.mem_flatMap.mpr ⟨g, hg, hp⟩, htime⟩
  · obtain ⟨rfl, hall⟩ := hfound hvs
    rw [List.flatMap_map]
    refine List.Perm.of_eq (List.flatMap_congr fun g hg => ?_)
    exact hall g hg
  · obtain ⟨-, hall⟩ := hfound hvs
    obtain ⟨g, hg, rfl⟩ := List.mem_map.mp hs
    dsimp only
    rw [Point.valuesAt_dedup, hall g hg]

/-! ## Runs -/

/-- What is noted of a call. -/
def notedOf (m : Manager) : WindowCall → History
  | .visit _ => []
  | .call c => (m.call c).2

/-- The history of some calls. -/
def historyEach (m : Manager) : List WindowCall → History
  | [] => []
  | c :: rest => m.notedOf c ++ (m.perform c).historyEach rest

variable [LawfulBlockCodec]

/-- Calls make of the points what their history says. -/
theorem Holds.performEach (hs : settings.Fits) (h : m.Holds settings points ms)
    {calls : List WindowCall} (hcalls : ∀ c ∈ calls, c.InRange) :
    ∃ ms', (m.performEach calls).Holds settings
      ((m.historyEach calls).foldl (History.keep settings.windowSeconds) points) ms' := by
  induction calls generalizing m points ms with
  | nil => exact ⟨ms, h⟩
  | cons c calls ih =>
    obtain ⟨hc, hrest⟩ := List.forall_mem_cons.mp hcalls
    have hstep : ∃ ms', (m.perform c).Holds settings
        ((m.notedOf c).foldl (History.keep settings.windowSeconds) points) ms' := by
      cases c with
      | visit t => exact ⟨ms, (h.chunkAt hs hc).2.1⟩
      | call c => exact h.call hs c
    obtain ⟨ms', h'⟩ := hstep
    obtain ⟨ms'', h''⟩ := ih h' hrest
    refine ⟨ms'', ?_⟩
    rw [historyEach, List.foldl_append]
    exact h''

end Manager

end TimeSeries
