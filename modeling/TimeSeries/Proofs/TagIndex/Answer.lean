import Mathlib
import TimeSeries.Proofs.TagIndex.Lookup

/-!
# What a query means

The meaning of a query is stated on metrics alone, without an index: which names, which tags and
which values it asks for. A query whose name, keys and looked-up values hold no blank, and whose
keys hold no `=`, is answered by the index with the ids of just the metrics that it means, however
the index came about. The questions that are not looked up in the table are put to one value only,
the least that the metric has under the key.
-/

namespace TimeSeries

namespace Metric

/-- A metric has a tag with a key. -/
def HasKey (m : Metric) (key : String) : Prop := ∃ t ∈ m.tags, t.key = key

variable {m n : Metric} {key value : String}

theorem LeastValue.congr (htags : ∀ t, t ∈ m.tags ↔ t ∈ n.tags) :
    m.LeastValue key value ↔ n.LeastValue key value := by
  simp only [LeastValue, htags]

theorem HasKey.congr (htags : ∀ t, t ∈ m.tags ↔ t ∈ n.tags) : m.HasKey key ↔ n.HasKey key := by
  simp only [HasKey, htags]

end Metric

namespace Matcher

/-- What a matcher asks of the least value under its key. -/
def HitsLeast (matcher : Matcher) (m : Metric) : Prop :=
  ∃ value, m.LeastValue matcher.key value ∧ matcher.test.holds value = true

/-- Some tag with the key of a matcher has one of the alternatives of a list. -/
def HitsListed (matcher : Matcher) (m : Metric) (pattern : String) : Prop :=
  ∃ value ∈ ValueTest.alternatives pattern, ⟨matcher.key, value⟩ ∈ m.tags

/-- **When a matcher hits a metric.** Equality and lists that do not ignore case look at all tags
with the key, the glob that is one star at none, and all else looks at the least value. -/
def Hits (matcher : Matcher) (m : Metric) : Prop :=
  match matcher.test with
  | .exact value => ⟨matcher.key, value⟩ ∈ m.tags
  | .literalOr pattern false | .notLiteralOr pattern false => matcher.HitsListed m pattern
  | .wildcard pattern _ => if pattern = "*" then m.HasKey matcher.key else matcher.HitsLeast m
  | .literalOr _ true | .notLiteralOr _ true | .regexp _ => matcher.HitsLeast m

/-- The values that a matcher looks up. -/
def lookedUp (matcher : Matcher) : List String :=
  match matcher.test with
  | .exact value => [value]
  | .literalOr pattern false | .notLiteralOr pattern false => ValueTest.alternatives pattern
  | _ => []

/-- The key and the values that are looked up hold no blank, and the key no `=`. -/
structure Plain (matcher : Matcher) : Prop where
  key : Text.hasBlank matcher.key = false
  no_equals : '=' ∉ matcher.key.toList
  values : ∀ value ∈ matcher.lookedUp, Text.hasBlank value = false

theorem Hits.congr {m n : Metric} (htags : ∀ t, t ∈ m.tags ↔ t ∈ n.tags) (matcher : Matcher) :
    matcher.Hits m ↔ matcher.Hits n := by
  simp only [Hits, HitsListed, HitsLeast, htags, Metric.LeastValue.congr htags,
    Metric.HasKey.congr htags]

end Matcher

namespace Query

/-- The name holds no blank, and the matchers are plain. -/
structure Plain (q : Query) : Prop where
  metric : Text.hasBlank q.metric = false
  matchers : ∀ matcher ∈ q.matchers, matcher.Plain

/-- **When a query means a metric.** The name is the one asked for; all matchers that select hit,
or, where all matchers are exclusions, the metric has all their keys; and where there are
exclusions one of them does not hit. -/
structure Means (q : Query) (m : Metric) : Prop where
  name : m.name = q.metric
  selected : ∀ matcher ∈ q.matchers, matcher.isExclusive = false → matcher.Hits m
  present : (∀ matcher ∈ q.matchers, matcher.isExclusive = true) →
    ∀ matcher ∈ q.matchers, m.HasKey matcher.key
  spared : (∃ matcher ∈ q.matchers, matcher.isExclusive = true) →
    ∃ matcher ∈ q.matchers, matcher.isExclusive = true ∧ ¬ matcher.Hits m

theorem Means.congr {m n : Metric} (hname : m.name = n.name)
    (htags : ∀ t, t ∈ m.tags ↔ t ∈ n.tags) {q : Query} (h : q.Means m) : q.Means n where
  name := hname ▸ h.name
  selected := fun matcher hm hx => (Matcher.Hits.congr htags matcher).mp (h.selected matcher hm hx)
  present := fun hall matcher hm => (Metric.HasKey.congr htags).mp (h.present hall matcher hm)
  spared := by
    intro hx
    obtain ⟨matcher, hm, hex, hnot⟩ := h.spared hx
    exact ⟨matcher, hm, hex, fun hit => hnot ((Matcher.Hits.congr htags matcher).mpr hit)⟩

end Query

namespace TagIndex

variable {m : Metric} {matcher : Matcher} {key value pattern : String}

/-! ## What the index asks is what the query means -/

theorem counted_iff (hm : m.WellFormed) (hkey : NoSpace key) {role : KeyRole}
    (hk : role = .tagKey → '=' ∉ key.toList) :
    Counted m key role ↔ (key, some role) ∈ keysOf m := by
  rw [Counted, hasKey_fullName hm hk]
  refine ⟨fun h => h.2 hkey, fun h => ⟨List.mem_map.mpr ⟨_, h, rfl⟩, fun _ => h⟩⟩

theorem counted_tagKey (hm : m.WellFormed) (hp : matcher.Plain) :
    Counted m matcher.key .tagKey ↔ m.HasKey matcher.key := by
  rw [counted_iff hm (noSpace_of_hasBlank hp.key) fun _ => hp.no_equals, mem_keysOf_tagKey]
  rfl

theorem counted_tag (hm : m.WellFormed) (hp : matcher.Plain)
    (hvalue : Text.hasBlank value = false) :
    Counted m (matcher.key ++ "=" ++ value) .tag ↔ ⟨matcher.key, value⟩ ∈ m.tags := by
  have hspace : NoSpace (matcher.key ++ "=" ++ value) :=
    noSpace_append (noSpace_append (noSpace_of_hasBlank hp.key) (by decide))
      (noSpace_of_hasBlank hvalue)
  rw [counted_iff hm hspace (by simp), mem_keysOf_tag]
  constructor
  · rintro ⟨t, ht, hraw⟩
    exact (Tag.raw_eq_iff (hm.tags t ht) hp.no_equals).mp hraw ▸ ht
  · intro h
    exact ⟨_, h, rfl⟩

theorem readHolds_iff (hm : m.WellFormed) (hk : '=' ∉ matcher.key.toList) :
    ReadHolds m matcher ↔ matcher.HitsLeast m := by
  rw [ReadHolds, Option.any_eq_true]
  exact exists_congr fun value => and_congr_left fun _ => hm.tagValue?_fullName hk

theorem counted_any (hm : m.WellFormed) (hp : matcher.Plain)
    (hvalues : matcher.lookedUp = ValueTest.alternatives pattern) :
    (∃ value ∈ ValueTest.alternatives pattern, Counted m (matcher.key ++ "=" ++ value) .tag) ↔
      matcher.HitsListed m pattern := by
  refine exists_congr fun value => and_congr_right fun hvalue => ?_
  exact counted_tag hm hp (hp.values value (hvalues ▸ hvalue))

theorem hasKey_of_hits (h : matcher.Hits m) : m.HasKey matcher.key := by
  have listed {pattern : String} (h : matcher.HitsListed m pattern) : m.HasKey matcher.key := by
    obtain ⟨value, -, ht⟩ := h
    exact ⟨_, ht, rfl⟩
  have least (h : matcher.HitsLeast m) : m.HasKey matcher.key := by
    obtain ⟨value, hv, -⟩ := h
    exact ⟨_, hv.1, rfl⟩
  unfold Matcher.Hits at h
  split at h
  · exact ⟨_, h, rfl⟩
  · exact listed h
  · exact listed h
  · split at h
    · exact h
    · exact least h
  · exact least h
  · exact least h
  · exact least h

/-- The key of a matcher that hits is there anyhow. -/
theorem counted_and_iff (hm : m.WellFormed) (hp : matcher.Plain) {P : Prop}
    (h : P ↔ matcher.Hits m) : Counted m matcher.key .tagKey ∧ P ↔ matcher.Hits m := by
  rw [h, counted_tagKey hm hp]
  exact ⟨fun h => h.2, fun h => ⟨hasKey_of_hits h, h⟩⟩

theorem selected_iff (hm : m.WellFormed) (hp : matcher.Plain)
    (hx : matcher.isExclusive = false) : Selected m matcher ↔ matcher.Hits m := by
  obtain ⟨key, test⟩ := matcher
  have absorb {P : Prop} (h : P ↔ Matcher.Hits ⟨key, test⟩ m) := counted_and_iff hm hp h
  cases test with
  | exact value => exact absorb (counted_tag hm hp (hp.values value List.mem_cons_self))
  | wildcard pattern ignoreCase =>
    by_cases hstar : pattern = "*"
    · simp only [Selected, Matcher.Hits, hstar, true_or, and_true, if_true]
      exact counted_tagKey hm hp
    · refine absorb ?_
      simp only [Matcher.Hits, hstar, false_or, if_false]
      exact readHolds_iff hm hp.no_equals
  | literalOr pattern ignoreCase =>
    cases ignoreCase with
    | false => exact absorb (counted_any hm hp rfl)
    | true => exact absorb (readHolds_iff hm hp.no_equals)
  | notLiteralOr pattern ignoreCase => exact absurd hx Bool.noConfusion
  | regexp regex => exact absorb (readHolds_iff hm hp.no_equals)

theorem hit_iff (hm : m.WellFormed) (hp : matcher.Plain) (hx : matcher.isExclusive = true) :
    Hit m matcher ↔ matcher.Hits m := by
  obtain ⟨key, test⟩ := matcher
  cases test with
  | notLiteralOr pattern ignoreCase =>
    cases ignoreCase with
    | false => exact counted_and_iff hm hp (counted_any hm hp rfl)
    | true => exact counted_and_iff hm hp (readHolds_iff hm hp.no_equals)
  | exact | wildcard | literalOr | regexp => exact absurd hx Bool.noConfusion

variable {q : Query}

theorem mem_exclusions : matcher ∈ exclusions q ↔
    matcher ∈ q.matchers ∧ matcher.isExclusive = true := List.mem_filter

theorem mem_inclusions : matcher ∈ inclusions q ↔
    matcher ∈ q.matchers ∧ matcher.isExclusive = false := by
  rw [inclusions, List.mem_filter, Bool.not_eq_true']

/-- **The index asks for what a plain query means.** -/
theorem found_iff (hm : m.WellFormed) (hq : q.Plain) : Found m q ↔ q.Means m := by
  have hname : Counted m q.metric .name ↔ m.name = q.metric := by
    rw [counted_iff hm (noSpace_of_hasBlank hq.metric) (by simp), mem_keysOf_name]
    exact eq_comm
  have hnil (p : Matcher → Bool) : q.matchers.filter p = [] ↔
      ∀ matcher ∈ q.matchers, p matcher = false := by
    simp [List.filter_eq_nil_iff]
  constructor
  · intro h
    refine ⟨hname.mp h.name, fun matcher hmem hx => ?_, fun hall matcher hmem => ?_, ?_⟩
    · exact (selected_iff hm (hq.matchers matcher hmem) hx).mp
        (h.selected matcher (mem_inclusions.mpr ⟨hmem, hx⟩))
    · refine (counted_tagKey hm (hq.matchers matcher hmem)).mp
        (h.present ((hnil _).mpr fun other ho => ?_) matcher
          (mem_exclusions.mpr ⟨hmem, hall matcher hmem⟩))
      rw [hall other ho]
      rfl
    · rintro ⟨other, ho, hx⟩
      -- were all exclusions to hit, the index would leave the metric out
      by_contra hnone
      push Not at hnone
      refine h.not_hit (List.ne_nil_of_mem (mem_exclusions.mpr ⟨ho, hx⟩)) fun matcher hmem => ?_
      obtain ⟨hmem, hx⟩ := mem_exclusions.mp hmem
      exact (hit_iff hm (hq.matchers matcher hmem) hx).mpr (hnone matcher hmem hx)
  · intro h
    refine ⟨hname.mpr h.name, fun matcher hmem => ?_, fun hall matcher hmem => ?_, ?_⟩
    · obtain ⟨hmem, hx⟩ := mem_inclusions.mp hmem
      exact (selected_iff hm (hq.matchers matcher hmem) hx).mpr (h.selected matcher hmem hx)
    · obtain ⟨hmem, -⟩ := mem_exclusions.mp hmem
      refine (counted_tagKey hm (hq.matchers matcher hmem)).mpr (h.present (fun other ho => ?_)
        matcher hmem)
      simpa using (hnil _).mp hall other ho
    · intro hne hall
      obtain ⟨other, ho⟩ := List.exists_mem_of_ne_nil _ hne
      obtain ⟨matcher, hmem, hx, hnot⟩ := h.spared ⟨other, mem_exclusions.mp ho⟩
      exact hnot ((hit_iff hm (hq.matchers matcher hmem) hx).mp
        (hall matcher (mem_exclusions.mpr ⟨hmem, hx⟩)))

/-- **After any calls, a plain query is answered with the ids of the metrics that it means**, in
ascending order and each once. Every id in the answer was given to a metric, and an id that was
given to a metric is in the answer just if the query means the metric. -/
theorem lookup_takeEach {calls : List Metric}
    (built : ∀ m ∈ calls, ∃ name tags, Metric.new name tags = .ok m) (hq : q.Plain) :
    ((empty.takeEach calls).2.lookup q).Pairwise (· < ·) ∧
    (∀ id ∈ (empty.takeEach calls).2.lookup q, ∃ m, (m, id) ∈ (empty.takeEach calls).1) ∧
    ∀ m id, (m, id) ∈ (empty.takeEach calls).1 →
      (id ∈ (empty.takeEach calls).2.lookup q ↔ q.Means m) := by
  have hwf : ∀ m ∈ calls, m.WellFormed := by
    intro m hm
    obtain ⟨name, tags, hnew⟩ := built m hm
    exact Metric.wellFormed_of_new hnew
  obtain ⟨ms, hms, htaken, hnew⟩ := indexes_takeEach indexes_empty hwf
  rw [List.nil_append] at hms htaken hnew
  have hfirst (id : SeriesId) : metricAt [] id = none := by simp [metricAt]
  refine ⟨pairwise_lookup hms q, fun id hid => ?_, fun m id hmid => ?_⟩
  · obtain ⟨n, hn, -⟩ := (mem_lookup hms q).mp hid
    rcases hnew n id hn with hold | htook
    · simp [hfirst] at hold
    · exact ⟨n, htook⟩
  · obtain ⟨n, hn, hname⟩ := htaken m id hmid
    have hnwf := hms.wellFormed n (mem_of_metricAt hn)
    have hmwf : m.WellFormed := hwf m (mem_calls_of_mem_takeEach hmid)
    -- the metric that has the id need not be the one that was given, but it looks the same
    obtain ⟨same, tags⟩ := hnwf.eq_of_fullName hmwf hname
    rw [lookup, List.mem_reverse, (collects_lookupIds hms q).mem_iff hn, found_iff hnwf hq]
    exact ⟨Query.Means.congr same tags, Query.Means.congr same.symm fun t => (tags t).symm⟩

/-- Two metrics, one of which is named like a tag key of the other. -/
theorem lookup_takeEach_sample :
    (⟨"cpu", [⟨"host", "b"⟩, ⟨"host", "a"⟩]⟩, 2) ∈
        (empty.takeEach [⟨"cpu", [⟨"host", "b"⟩, ⟨"host", "a"⟩]⟩, ⟨"host", [⟨"cpu", "a"⟩]⟩]).1 ∧
    2 ∈ (empty.takeEach
        [⟨"cpu", [⟨"host", "b"⟩, ⟨"host", "a"⟩]⟩, ⟨"host", [⟨"cpu", "a"⟩]⟩]).2.lookup
      ⟨"cpu", [⟨"host", .exact "b"⟩]⟩ := by
  have taken : (⟨"cpu", [⟨"host", "b"⟩, ⟨"host", "a"⟩]⟩, 2) ∈
      (empty.takeEach [⟨"cpu", [⟨"host", "b"⟩, ⟨"host", "a"⟩]⟩, ⟨"host", [⟨"cpu", "a"⟩]⟩]).1 := by
    simp [takeEach, getOrCreate, find?, entry, empty, firstId, maxId]
  have first : Metric.new "cpu" ["host=b", "host=a"] =
      .ok ⟨"cpu", [⟨"host", "b"⟩, ⟨"host", "a"⟩]⟩ := rfl
  have second : Metric.new "host" ["cpu=a"] = .ok ⟨"host", [⟨"cpu", "a"⟩]⟩ := rfl
  have built : ∀ m ∈ ([⟨"cpu", [⟨"host", "b"⟩, ⟨"host", "a"⟩]⟩, ⟨"host", [⟨"cpu", "a"⟩]⟩] :
      List Metric), ∃ name tags, Metric.new name tags = .ok m := by
    intro m hm
    simp only [List.mem_cons, List.not_mem_nil, or_false] at hm
    rcases hm with rfl | rfl
    · exact ⟨"cpu", ["host=b", "host=a"], first⟩
    · exact ⟨"host", ["cpu=a"], second⟩
  have plain : Query.Plain ⟨"cpu", [⟨"host", .exact "b"⟩]⟩ := by
    refine ⟨by decide, fun matcher hmatcher => ?_⟩
    obtain rfl := List.mem_singleton.mp hmatcher
    refine ⟨by decide, by decide, fun value hvalue => ?_⟩
    obtain rfl := List.mem_singleton.mp hvalue
    decide
  refine ⟨taken, ((lookup_takeEach built plain).2.2 _ _ taken).mpr ⟨rfl, ?_, ?_, ?_⟩⟩
  · intro matcher hmatcher _
    obtain rfl := List.mem_singleton.mp hmatcher
    exact List.mem_cons_self
  · intro hall matcher hmatcher
    obtain rfl := List.mem_singleton.mp hmatcher
    exact ⟨_, List.mem_cons_self, rfl⟩
  · rintro ⟨matcher, hmatcher, hx⟩
    obtain rfl := List.mem_singleton.mp hmatcher
    exact absurd hx Bool.noConfusion

end TagIndex

end TimeSeries
