import Mathlib
import TimeSeries.Chunk
import TimeSeries.Proofs.Store
import TimeSeries.Proofs.TagIndex.Lookup

/-!
# What a chunk answers

A chunk whose store holds `f` answers a query with `answer tags f q`: the ids that the tag index
finds, in their order, as far as there are points under them, with the full names that the index
has for them. The tag index may have taken more metrics since the points came. That makes no
difference to the answer, because a query finds each metric for itself and a metric keeps its id.
-/

namespace TimeSeries

namespace Chunk

variable {tags tags' : TagIndex} {ms more : List Metric} {d : Disk} {f : SeriesId → List Point}
  {s : Store GrowingStore} {c : Chunk GrowingStore} {q : Query}

/-- What is answered for one id. -/
def series? (tags : TagIndex) (f : SeriesId → List Point) (id : SeriesId) : Option MetricPoints :=
  (present (f id)).map fun points => ⟨tags.fullName id, points⟩

/-- The answer to a query when `f` is held. -/
def answer (tags : TagIndex) (f : SeriesId → List Point) (q : Query) : List MetricPoints :=
  (tags.lookup q).filterMap (series? tags f)

theorem series?_eq_none_iff {id : SeriesId} : series? tags f id = none ↔ f id = [] := by
  by_cases h : f id = [] <;> simp [series?, present, h]

theorem series?_of_ne_nil {id : SeriesId} (h : f id ≠ []) :
    series? tags f id = some ⟨tags.fullName id, f id⟩ := by
  simp [series?, present, h]

theorem readSeries_eq [BlockCodec] (h : s.Holds d f) (ids : List SeriesId) :
    c.readSeries s d tags ids = (.ok (ids.filterMap (series? tags f)), []) := by
  induction ids with
  | nil => rfl
  | cons id ids ih =>
    rw [readSeries, h.get id]
    by_cases hid : f id = []
    · rw [List.filterMap_cons_none (series?_eq_none_iff.mpr hid), present, if_pos hid]
      exact ih
    · rw [List.filterMap_cons_some (series?_of_ne_nil hid), present, if_neg hid, ih]
      rfl

theorem query_eq [BlockCodec] (hc : c.store = some s) (h : s.Holds d f) (q : Query) :
    c.query d tags q = (.ok (answer tags f q), []) := by
  rw [query, hc]
  exact readSeries_eq h _

/-! ## More metrics -/

/-- There are points under ids of metrics only. -/
def Known (ms : List Metric) (f : SeriesId → List Point) : Prop :=
  ∀ id, f id ≠ [] → ∃ m, TagIndex.metricAt ms id = some m

theorem Known.append (h : Known ms f) : Known (ms ++ more) f := by
  intro id hid
  obtain ⟨m, hm⟩ := h id hid
  exact ⟨m, (TagIndex.metricAt_append (TagIndex.lt_of_metricAt hm)).trans hm⟩

theorem fullName_append (h : TagIndex.Indexes tags ms) (h' : TagIndex.Indexes tags' (ms ++ more))
    {id : SeriesId} {m : Metric} (hm : TagIndex.metricAt ms id = some m) :
    tags'.fullName id = tags.fullName id := by
  rw [TagIndex.fullName, TagIndex.fullName, h.fullName?_eq, h'.fullName?_eq,
    TagIndex.metricAt_append (TagIndex.lt_of_metricAt hm)]

/-- The ids with points that a query finds are the same after more metrics were taken. -/
theorem filter_lookup_append (h : TagIndex.Indexes tags ms)
    (h' : TagIndex.Indexes tags' (ms ++ more)) (hf : Known ms f) (q : Query) :
    (tags'.lookup q).filter (f · ≠ []) = (tags.lookup q).filter (f · ≠ []) := by
  have ascending {t : TagIndex} {ns : List Metric} (ht : TagIndex.Indexes t ns) :
      ((t.lookup q).filter (f · ≠ [])).Pairwise (· < ·) :=
    (TagIndex.pairwise_lookup ht q).filter _
  -- both lists are in ascending order, so they are the same when their members are
  refine List.Perm.eq_of_pairwise (fun a b _ _ hab hba => absurd hba (Nat.lt_asymm hab))
    (ascending h') (ascending h) ?_
  refine (List.perm_ext_iff_of_nodup ((ascending h').imp Nat.ne_of_lt)
    ((ascending h).imp Nat.ne_of_lt)).mpr fun id => ?_
  rw [List.mem_filter, List.mem_filter]
  refine and_congr_left fun hid => ?_
  obtain ⟨m, hm⟩ := hf id (by simpa using hid)
  rw [TagIndex.mem_lookup h q, TagIndex.mem_lookup h' q,
    TagIndex.metricAt_append (TagIndex.lt_of_metricAt hm)]

/-- **More metrics in the index do not change an answer.** -/
theorem answer_append (h : TagIndex.Indexes tags ms) (h' : TagIndex.Indexes tags' (ms ++ more))
    (hf : Known ms f) (q : Query) : answer tags' f q = answer tags f q := by
  have drop (t : TagIndex) : answer t f q = ((t.lookup q).filter (f · ≠ [])).filterMap
      (series? t f) := by
    rw [answer, List.filterMap_filter]
    refine List.filterMap_congr fun id _ => ?_
    by_cases hid : f id = []
    · simp [hid, series?_eq_none_iff.mpr hid]
    · simp [hid]
  rw [drop, drop, filter_lookup_append h h' hf q]
  refine List.filterMap_congr fun id hid => ?_
  have hne : f id ≠ [] := by simpa using (List.mem_filter.mp hid).2
  obtain ⟨m, hm⟩ := hf id hne
  rw [series?_of_ne_nil hne, series?_of_ne_nil hne, fullName_append h h' hm]

end Chunk

end TimeSeries
