import Mathlib
import TimeSeries.Proofs.Manager.Window
import TimeSeries.Proofs.TagIndex.Invariant

/-!
# The points of a window

When there are points for each metric and metrics have ids, there are points for each window and
each id: `heldIn` picks from the points of the metric those of the window, and leaves them in their
order. Three things happen to the points of metrics, and this is what they come to in a window.
-/

namespace TimeSeries

variable {points : String → List Point} {ms more : List Metric} {start length : Int}
  {id : SeriesId} {m : Metric}

/-- The points of a window under an id, when there are points for each metric. -/
def heldIn (length : Int) (points : String → List Point) (ms : List Metric) (start : Int)
    (id : SeriesId) : List Point :=
  match TagIndex.metricAt ms id with
  | none => []
  | some m => (points m.fullName).filter fun p => Time.floor length p.time = start

theorem heldIn_of_metricAt {id : SeriesId} {m : Metric} (h : TagIndex.metricAt ms id = some m) :
    heldIn length points ms start id =
      (points m.fullName).filter fun p => Time.floor length p.time = start := by
  rw [heldIn, h]

theorem metricAt_of_heldIn {id : SeriesId} (h : heldIn length points ms start id ≠ []) :
    ∃ m, TagIndex.metricAt ms id = some m := by
  cases hm : TagIndex.metricAt ms id with
  | none => exact absurd (by rw [heldIn, hm]) h
  | some m => exact ⟨m, rfl⟩

/-- New metrics come without points. -/
theorem heldIn_append (hknown : ∀ name, points name ≠ [] → name ∈ ms.map Metric.fullName)
    (hnew : ((ms ++ more).map Metric.fullName).Nodup) (start : Int) :
    heldIn length points (ms ++ more) start = heldIn length points ms start := by
  funext id
  cases hm : TagIndex.metricAt ms id with
  | some m =>
    rw [heldIn_of_metricAt hm,
      heldIn_of_metricAt ((TagIndex.metricAt_append (TagIndex.lt_of_metricAt hm)).trans hm)]
  | none =>
    rw [heldIn, heldIn, hm]
    cases hn : TagIndex.metricAt (ms ++ more) id with
    | none => rfl
    | some n =>
      obtain ⟨i, rfl, hi⟩ := TagIndex.metricAt_eq_some.mp hn
      -- the id was given to one of the new metrics, of which there are no points
      have hmore : n ∈ more := by
        rw [List.getElem?_append] at hi
        split at hi
        · exact absurd (TagIndex.metricAt_eq_some.mpr ⟨i, rfl, hi⟩) (by rw [hm]; simp)
        · exact List.mem_of_getElem? hi
      rw [List.map_append] at hnew
      have hnone : points n.fullName = [] := by
        by_contra hne
        exact (List.nodup_append.mp hnew).2.2 _ (hknown _ hne) _ (List.mem_map_of_mem hmore) rfl
      simp [hnone]

/-- A point that is put behind the points of its metric comes into its window, under the id of the
metric, and into no other. -/
theorem heldIn_update {tags : TagIndex} (h : TagIndex.Indexes tags ms) {id : SeriesId} {m : Metric}
    (hm : TagIndex.metricAt ms id = some m) (p : Point) (start : Int) :
    heldIn length (Function.update points m.fullName (points m.fullName ++ [p])) ms start =
      if Time.floor length p.time = start then
        Function.update (heldIn length points ms start) id (heldIn length points ms start id ++ [p])
      else heldIn length points ms start := by
  have hid :
      heldIn length (Function.update points m.fullName (points m.fullName ++ [p])) ms start id =
        if Time.floor length p.time = start then heldIn length points ms start id ++ [p]
        else heldIn length points ms start id := by
    rw [heldIn_of_metricAt hm, heldIn_of_metricAt hm, Function.update_self, List.filter_append,
      List.filter_singleton]
    by_cases hp : Time.floor length p.time = start <;> simp [hp]
  -- under another id there is another name
  have hother (a : SeriesId) (ha : a ≠ id) :
      heldIn length (Function.update points m.fullName (points m.fullName ++ [p])) ms start a =
        heldIn length points ms start a := by
    cases hn : TagIndex.metricAt ms a with
    | none => rw [heldIn, heldIn, hn]
    | some n =>
      have hne : n.fullName ≠ m.fullName := fun hname => ha (h.metricAt_unique hn hm hname)
      rw [heldIn_of_metricAt hn, heldIn_of_metricAt hn, Function.update_of_ne hne]
  funext a
  by_cases ha : a = id
  · rw [ha, hid]
    split
    · rw [Function.update_self]
    · rfl
  · rw [hother a ha]
    split
    · rw [Function.update_of_ne ha]
    · rfl

theorem heldIn_filter (pick : Int → Bool) (h : ∀ t, Time.floor length t = start → pick t = true) :
    heldIn length (fun name => (points name).filter fun p => pick p.time) ms start =
      heldIn length points ms start := by
  funext id
  rw [heldIn, heldIn]
  cases TagIndex.metricAt ms id with
  | none => rfl
  | some m =>
    dsimp only
    rw [List.filter_filter]
    refine List.filter_congr fun p _ => ?_
    by_cases hp : Time.floor length p.time = start
    · simp [hp, h _ hp]
    · simp [hp]

end TimeSeries
