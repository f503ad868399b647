import Mathlib
import TimeSeries.Proofs.TagIndex.Answer

/-!
# What is found and what matches

What a matcher asks of a metric can be said without a word about the index: some tag with its key
has a value that passes its test, no matter which of the tags it is. `Matches` says so. The index
comes near to this from both sides, for every query, and this module says where it misses.

* A metric of the right name that all the matchers of a query match is found, unless one of the
  matchers reads a single value of the metric, the least, and that value does not pass.
* A metric that is found has the right name and matches, unless a text that was looked up is the
  full name of a metric with tags, which stands in the table in no role, or a key holds `=`. In the
  second case a tag is still written as it was asked for, but its parts are others.
-/

namespace TimeSeries

namespace Metric

/-- A text is the full name of a metric with tags. No name, key or tag is such a text. -/
def TaggedName (m : Metric) (text : String) : Prop := m.tags ≠ [] ∧ m.fullName = text

/-- No key of a metric has two values. -/
def SingleValued (m : Metric) : Prop :=
  ∀ t ∈ m.tags, ∀ u ∈ m.tags, t.key = u.key → t.value = u.value

instance (m : Metric) : Decidable m.SingleValued :=
  inferInstanceAs (Decidable (∀ t ∈ m.tags, ∀ u ∈ m.tags, t.key = u.key → t.value = u.value))

variable {m n : Metric} {text : String}

theorem WellFormed.noSpace_fullName_iff (hm : m.WellFormed) :
    NoSpace m.fullName ↔ m.tags = [] := by
  constructor
  · intro h
    -- a full name without a space is one piece, which is the name
    have htokens := hm.tokens_fullName
    rw [FullName.tokens, Text.pieces_of_not_mem h, List.map_cons] at htokens
    have hsorted : m.sortedTags = [] := List.map_eq_nil_iff.mp (List.cons.inj htokens).2.symm
    refine List.eq_nil_iff_forall_not_mem.mpr fun t ht => ?_
    have hmem := mem_sortedTags.mpr ⟨t, ht, rfl⟩
    rw [hsorted] at hmem
    exact absurd hmem List.not_mem_nil
  · intro h
    have hname : m.fullName = m.name := by simp [fullName, sortedTags, h]
    exact hname ▸ hm.name

/-- The value that is found under a key in a full name is written behind the key in a tag. -/
theorem WellFormed.exists_raw_of_tagValue? (hm : m.WellFormed) {key value : String}
    (h : FullName.tagValue? m.fullName key = some value) :
    ∃ t ∈ m.tags, t.raw = key ++ "=" ++ value := by
  rw [hm.tagValue?_eq] at h
  obtain ⟨raw, hraw, hvalue⟩ := List.exists_of_findSome?_eq_some h
  obtain ⟨t, ht, rfl⟩ := mem_sortedTags.mp hraw
  obtain ⟨cs, hcs, rfl⟩ := Option.map_eq_some_iff.mp hvalue
  refine ⟨t, ht, String.toList_inj.mp ?_⟩
  rw [← List.isPrefixOf?_eq_some_iff_append_eq.mp hcs]
  simp

theorem WellFormed.not_noSpace_of_taggedName (hm : m.WellFormed) (h : m.TaggedName text) :
    ¬ NoSpace text := by
  obtain ⟨htags, rfl⟩ := h
  exact mt hm.noSpace_fullName_iff.mp htags

end Metric

/-- The glob that is one star accepts every value. -/
theorem ValueTest.holds_star (ignoreCase : Bool) (value : String) :
    (ValueTest.wildcard "*" ignoreCase).holds value = true := by
  have hall (text : String) : Glob.accepts "*" text = true := by
    have hpieces : Text.pieces (· == '*') "*".toList = [[], []] := by decide
    rw [Glob.accepts, Glob.matchesChars, hpieces]
    simp [Glob.matchesPieces, Glob.holdsInOrder, List.isSuffixOf?, List.isPrefixOf?]
  cases ignoreCase with
  | false => exact hall value
  | true =>
    have hlower : Text.lower "*" = "*" := by decide
    rw [ValueTest.holds, hlower]
    exact hall _

theorem ValueTest.ne_empty_of_mem_alternatives {pattern value : String}
    (h : value ∈ ValueTest.alternatives pattern) : value.isEmpty = false := by
  obtain ⟨cs, hcs, rfl⟩ := List.mem_map.mp h
  have hne := (List.mem_filter.mp hcs).2
  cases cs with
  | nil => exact absurd hne (by simp)
  | cons c cs => simp

/-- To be one of the alternatives of a list is to stand in it. -/
theorem ValueTest.isAlternative_iff {pattern value : String} :
    ValueTest.isAlternative pattern value false = true ↔
      value ∈ ValueTest.alternatives pattern := by
  rw [ValueTest.isAlternative]
  split
  · rename_i hempty
    refine iff_of_false Bool.false_ne_true fun hmem => ?_
    rw [ne_empty_of_mem_alternatives hmem] at hempty
    exact Bool.false_ne_true hempty
  · simp

namespace Matcher

variable {matcher : Matcher} {m n : Metric}

/-- **When a matcher matches a metric.** Some tag with its key has a value that passes its test. -/
def Matches (matcher : Matcher) (m : Metric) : Prop :=
  ∃ t ∈ m.tags, t.key = matcher.key ∧ matcher.test.holds t.value = true

/-- Some tag is written as the key of a matcher, `=` and a value that passes its test. -/
def MatchesWritten (matcher : Matcher) (m : Metric) : Prop :=
  ∃ t ∈ m.tags, ∃ value, t.raw = matcher.key ++ "=" ++ value ∧ matcher.test.holds value = true

/-- Whether a matcher reads only the least of the values under its key. -/
def ReadsLeast (matcher : Matcher) : Prop :=
  match matcher.test with
  | .wildcard pattern _ => pattern ≠ "*"
  | .literalOr _ true | .notLiteralOr _ true | .regexp _ => True
  | .exact _ | .literalOr _ false | .notLiteralOr _ false => False

/-- The texts under which a matcher looks into the table. -/
def texts (matcher : Matcher) : List String :=
  matcher.key :: matcher.lookedUp.map fun value => matcher.key ++ "=" ++ value

theorem Matches.congr (htags : ∀ t, t ∈ m.tags ↔ t ∈ n.tags) :
    matcher.Matches m ↔ matcher.Matches n := by
  simp only [Matches, htags]

/-- Where no key has two values, the least value is any. -/
theorem Matches.hitsLeast (h : matcher.Matches m) (hm : m.SingleValued) : matcher.HitsLeast m := by
  obtain ⟨⟨key, value⟩, ht, rfl, hholds⟩ := h
  refine ⟨value, ⟨ht, fun u hu hkey => ?_⟩, hholds⟩
  exact (hm _ ht u hu hkey.symm).le

/-- A tag that is written with a key has this key, if the key can be one. -/
theorem MatchesWritten.matches (hm : m.WellFormed) (hk : '=' ∉ matcher.key.toList)
    (h : matcher.MatchesWritten m) : matcher.Matches m := by
  obtain ⟨t, ht, value, hraw, hholds⟩ := h
  obtain rfl := (Tag.raw_eq_iff (hm.tags t ht) hk).mp hraw
  exact ⟨_, ht, rfl, hholds⟩

end Matcher

namespace TagIndex

variable {m : Metric} {matcher : Matcher} {key : String} {role : KeyRole} {q : Query}
  {calls : List Metric} {id : SeriesId}

/-! ## Keys in the table -/

theorem counted_of_mem_keysOf (hm : m.WellFormed) (h : (key, some role) ∈ keysOf m) :
    Counted m key role := by
  refine (counted_iff hm (noSpace_of_mem_keysOf hm h) fun hrole => ?_).mpr h
  subst hrole
  obtain ⟨t, ht, rfl⟩ := mem_keysOf_tagKey.mp h
  exact (hm.tags t ht).no_equals

/-- The only text with a space under which a metric is counted is its full name. -/
theorem noSpace_of_counted (hm : m.WellFormed) (hclear : ¬ m.TaggedName key)
    (h : Counted m key role) : NoSpace key := by
  obtain ⟨⟨text, role?⟩, hmem, rfl⟩ := List.mem_map.mp h.1
  cases role? with
  | some r => exact noSpace_of_mem_keysOf hm hmem
  | none =>
    have hfull : text = m.fullName := by simpa [keysOf] using hmem
    by_contra hspace
    refine hclear ⟨fun hnil => hspace ?_, hfull.symm⟩
    exact hfull ▸ hm.noSpace_fullName_iff.mpr hnil

theorem name_eq_iff (hm : m.WellFormed) (h : Counted m key .name) :
    m.name = key ↔ ¬ m.TaggedName key := by
  constructor
  · rintro rfl htagged
    exact hm.not_noSpace_of_taggedName htagged hm.name
  · intro hclear
    have hspace := noSpace_of_counted hm hclear h
    exact (mem_keysOf_name.mp ((counted_iff hm hspace (by simp)).mp h)).symm

/-! ## Matchers -/

/-- A metric that a matcher matches is selected unless its least value is read and does not
pass. -/
theorem selected_iff_of_matches (hm : m.WellFormed) (hx : matcher.isExclusive = false)
    (h : matcher.Matches m) :
    Selected m matcher ↔ (matcher.ReadsLeast → matcher.HitsLeast m) := by
  obtain ⟨_, test⟩ := matcher
  obtain ⟨⟨key, value⟩, ht, rfl, hholds⟩ := h
  have hkey : Counted m key .tagKey :=
    counted_of_mem_keysOf hm (mem_keysOf_tagKey.mpr ⟨_, ht, rfl⟩)
  have htag : Counted m (key ++ "=" ++ value) .tag :=
    counted_of_mem_keysOf hm (mem_keysOf_tag.mpr ⟨_, ht, rfl⟩)
  have hread {test : ValueTest} : ReadHolds m ⟨key, test⟩ ↔ Matcher.HitsLeast ⟨key, test⟩ m :=
    readHolds_iff hm (hm.tags _ ht).no_equals
  cases test with
  | exact expected =>
    obtain rfl : expected = value := by simpa [ValueTest.holds] using hholds
    exact iff_of_true ⟨hkey, htag⟩ False.elim
  | wildcard pattern ignoreCase =>
    simp only [Selected, hkey, true_and, hread, Matcher.ReadsLeast]
    tauto
  | literalOr pattern ignoreCase =>
    cases ignoreCase with
    | false =>
      have hlisted := ValueTest.isAlternative_iff.mp hholds
      exact iff_of_true ⟨hkey, value, hlisted, htag⟩ False.elim
    | true => simp only [Selected, hkey, true_and, hread, Matcher.ReadsLeast, true_imp_iff]
  | notLiteralOr pattern ignoreCase => exact absurd hx Bool.noConfusion
  | regexp regex => simp only [Selected, hkey, true_and, hread, Matcher.ReadsLeast, true_imp_iff]

/-- What is selected matches in its written tags, as far as the texts that are looked up can be told
apart from the full name of the metric. -/
theorem matchesWritten_of_selected (hm : m.WellFormed) (hx : matcher.isExclusive = false)
    (hclear : ∀ text ∈ matcher.texts, ¬ m.TaggedName text) (h : Selected m matcher) :
    matcher.MatchesWritten m := by
  obtain ⟨key, test⟩ := matcher
  obtain ⟨hkey, htest⟩ := h
  have written {value : String} (hvalue : value ∈ Matcher.lookedUp ⟨key, test⟩)
      (hc : Counted m (key ++ "=" ++ value) .tag) : ∃ t ∈ m.tags, t.raw = key ++ "=" ++ value := by
    have htext : key ++ "=" ++ value ∈ Matcher.texts ⟨key, test⟩ :=
      List.mem_cons_of_mem _ (List.mem_map.mpr ⟨value, hvalue, rfl⟩)
    have hspace := noSpace_of_counted hm (hclear _ htext) hc
    exact mem_keysOf_tag.mp ((counted_iff hm hspace (by simp)).mp hc)
  have read (hr : ReadHolds m ⟨key, test⟩) : Matcher.MatchesWritten ⟨key, test⟩ m := by
    rw [ReadHolds, Option.any_eq_true] at hr
    obtain ⟨value, hvalue, hholds⟩ := hr
    obtain ⟨t, ht, hraw⟩ := hm.exists_raw_of_tagValue? hvalue
    exact ⟨t, ht, value, hraw, hholds⟩
  cases test with
  | exact value =>
    obtain ⟨t, ht, hraw⟩ := written List.mem_cons_self htest
    exact ⟨t, ht, value, hraw, by simp [ValueTest.holds]⟩
  | wildcard pattern ignoreCase =>
    rcases htest with rfl | hr
    · -- a key is looked for in the full name when it holds no space
      have hsome := hkey.2 (noSpace_of_counted hm (hclear _ List.mem_cons_self) hkey)
      obtain ⟨value, hvalue⟩ := Option.isSome_iff_exists.mp hsome
      obtain ⟨t, ht, hraw⟩ := hm.exists_raw_of_tagValue? hvalue
      exact ⟨t, ht, value, hraw, ValueTest.holds_star ignoreCase value⟩
    · exact read hr
  | literalOr pattern ignoreCase =>
    cases ignoreCase with
    | false =>
      obtain ⟨value, hvalue, hc⟩ := htest
      obtain ⟨t, ht, hraw⟩ := written hvalue hc
      exact ⟨t, ht, value, hraw, ValueTest.isAlternative_iff.mpr hvalue⟩
    | true => exact read htest
  | notLiteralOr pattern ignoreCase => exact absurd hx Bool.noConfusion
  | regexp regex => exact read htest

/-! ## Queries -/

/-- Where no matcher is an exclusion, what counts is the name and what the matchers select. -/
theorem found_iff_selected (hx : ∀ matcher ∈ q.matchers, matcher.isExclusive = false) :
    Found m q ↔ Counted m q.metric .name ∧ ∀ matcher ∈ q.matchers, Selected m matcher := by
  have hnone : exclusions q = [] := by
    refine List.filter_eq_nil_iff.mpr fun matcher hmem => ?_
    rw [hx matcher hmem]
    exact Bool.false_ne_true
  constructor
  · intro h
    exact ⟨h.name, fun matcher hmem => h.selected matcher (mem_inclusions.mpr ⟨hmem, hx _ hmem⟩)⟩
  · rintro ⟨hname, hall⟩
    refine ⟨hname, fun matcher hmem => hall matcher (mem_inclusions.mp hmem).1, ?_, ?_⟩
    · simp [hnone]
    · exact fun hne => absurd hnone hne

/-- After any calls the index holds metrics under the ids that were given. The metric under an id
was taken with it, and it has the name and the tags of every metric that was. -/
theorem exists_indexes_takeEach
    (built : ∀ m ∈ calls, ∃ name tags, Metric.new name tags = .ok m) :
    ∃ ms, Indexes (empty.takeEach calls).2 ms ∧
      (∀ n id, metricAt ms id = some n → (n, id) ∈ (empty.takeEach calls).1) ∧
      ∀ m id, (m, id) ∈ (empty.takeEach calls).1 →
        ∃ n, metricAt ms id = some n ∧ n.name = m.name ∧ ∀ t, t ∈ n.tags ↔ t ∈ m.tags := by
  obtain ⟨ms, hms, hgiven⟩ := exists_given built
  refine ⟨ms, hms, hgiven.mem, fun m id hmid => ?_⟩
  obtain ⟨n, hn, hname⟩ := hgiven.same m id hmid
  have hm := hgiven.wellFormed m id hmid
  exact ⟨n, hn, (hms.wellFormed n (mem_of_metricAt hn)).eq_of_fullName hm hname⟩

/-- The first metric that is taken gets the first id. -/
theorem mem_takeEach_single (m : Metric) : (m, 2) ∈ (empty.takeEach [m]).1 := by
  simp [takeEach, getOrCreate, find?, entry, empty, firstId, maxId]

/-- **When a metric that is asked for is found.** Of a metric with the name of the query, which all
matchers match, those matchers that read a single value must match the least; that is all. So the
metric is found if no key of it has two values. -/
theorem mem_lookup_iff_hitsLeast
    (built : ∀ m ∈ calls, ∃ name tags, Metric.new name tags = .ok m)
    (hx : ∀ matcher ∈ q.matchers, matcher.isExclusive = false)
    (taken : (m, id) ∈ (empty.takeEach calls).1) (hname : m.name = q.metric)
    (hmatches : ∀ matcher ∈ q.matchers, matcher.Matches m) :
    (id ∈ (empty.takeEach calls).2.lookup q ↔
      ∀ matcher ∈ q.matchers, matcher.ReadsLeast → matcher.HitsLeast m) ∧
    (m.SingleValued → id ∈ (empty.takeEach calls).2.lookup q) := by
  obtain ⟨ms, hms, -, htaken⟩ := exists_indexes_takeEach built
  obtain ⟨n, hn, hsame, htags⟩ := htaken m id taken
  have hnwf := hms.wellFormed n (mem_of_metricAt hn)
  have hcounted : Counted n q.metric .name :=
    counted_of_mem_keysOf hnwf (mem_keysOf_name.mpr (hsame.trans hname).symm)
  have hleast (matcher : Matcher) : matcher.HitsLeast n ↔ matcher.HitsLeast m := by
    simp only [Matcher.HitsLeast, Metric.LeastValue.congr htags]
  have hiff : id ∈ (empty.takeEach calls).2.lookup q ↔
      ∀ matcher ∈ q.matchers, matcher.ReadsLeast → matcher.HitsLeast m := by
    rw [lookup, List.mem_reverse, (collects_lookupIds hms q).mem_iff hn, found_iff_selected hx,
      and_iff_right hcounted]
    refine forall₂_congr fun matcher hmem => ?_
    rw [selected_iff_of_matches hnwf (hx matcher hmem)
      ((Matcher.Matches.congr htags).mpr (hmatches matcher hmem)), hleast]
  refine ⟨hiff, fun hsingle => hiff.mpr fun matcher hmem _ => ?_⟩
  exact (hmatches matcher hmem).hitsLeast hsingle

/-- A metric with two values under a key, the lesser of which is listed, and a metric with one
value. -/
theorem mem_lookup_iff_hitsLeast_sample :
    let first : Metric := ⟨"m", [⟨"k", "b"⟩, ⟨"k", "a"⟩]⟩
    let second : Metric := ⟨"m", [⟨"k", "c"⟩]⟩
    let q : Query := ⟨"m", [⟨"k", .literalOr "a|c" true⟩]⟩
    2 ∈ (empty.takeEach [first]).2.lookup q ∧ 2 ∈ (empty.takeEach [second]).2.lookup q := by
  intro first second q
  have hfirst : Metric.new "m" ["k=b", "k=a"] = .ok first := rfl
  have hsecond : Metric.new "m" ["k=c"] = .ok second := rfl
  have hx : ∀ matcher ∈ q.matchers, matcher.isExclusive = false := by
    intro matcher hmatcher
    obtain rfl := List.mem_singleton.mp hmatcher
    rfl
  have lesser : Matcher.HitsLeast ⟨"k", .literalOr "a|c" true⟩ first :=
    ⟨"a", ⟨by decide, by decide⟩, by decide +kernel⟩
  constructor
  · refine (mem_lookup_iff_hitsLeast ?_ hx (mem_takeEach_single first) rfl ?_).1.mpr ?_
    · intro m hm
      exact ⟨_, _, List.mem_singleton.mp hm ▸ hfirst⟩
    · intro matcher hmatcher
      obtain rfl := List.mem_singleton.mp hmatcher
      exact ⟨⟨"k", "a"⟩, by decide, rfl, by decide +kernel⟩
    · intro matcher hmatcher _
      exact List.mem_singleton.mp hmatcher ▸ lesser
  · refine (mem_lookup_iff_hitsLeast ?_ hx (mem_takeEach_single second) rfl ?_).2 (by decide)
    · intro m hm
      exact ⟨_, _, List.mem_singleton.mp hm ▸ hsecond⟩
    · intro matcher hmatcher
      obtain rfl := List.mem_singleton.mp hmatcher
      exact ⟨⟨"k", "c"⟩, by decide, rfl, by decide +kernel⟩

/-- The greater of two values under a key is found if it is listed, but not if it is listed without
regard to case. -/
theorem lookup_caseless_misses :
    let m : Metric := ⟨"m", [⟨"k", "a"⟩, ⟨"k", "b"⟩]⟩
    let caseless : Matcher := ⟨"k", .literalOr "b" true⟩
    Metric.new "m" ["k=a", "k=b"] = .ok m ∧ Matcher.literalOr "k" "b" true = .ok caseless ∧
      Query.new "m" [caseless] = .ok ⟨"m", [caseless]⟩ ∧ caseless.Matches m ∧
      (m, 2) ∈ (empty.takeEach [m]).1 ∧
      (empty.takeEach [m]).2.lookup ⟨"m", [⟨"k", .literalOr "b" false⟩]⟩ = [2] ∧
      (empty.takeEach [m]).2.lookup ⟨"m", [caseless]⟩ = [] := by
  intro m caseless
  have hmatches : caseless.Matches m := ⟨⟨"k", "b"⟩, by decide, rfl, by decide +kernel⟩
  have hsorted : m.sortedTags = ["k=a", "k=b"] := List.mergeSort_of_pairwise (by decide)
  have hfull : m.fullName = "m k=a k=b" := by
    rw [Metric.fullName, hsorted]
    rfl
  have hindex : (empty.takeEach [m]).2 =
      { empty with
        names := #["m k=a k=b"]
        entries := [("m k=a k=b", none), ("m", some .name), ("k", some .tagKey),
          ("k=a", some .tag), ("k", some .tagKey), ("k=b", some .tag)].foldl (enter 2) ∅ } := by
    simp [takeEach, getOrCreate, find?, entry, empty, firstId, maxId, keysOf, hfull]
    simp [m, Tag.raw]
  refine ⟨rfl, rfl, rfl, hmatches, mem_takeEach_single m, ?_⟩
  rw [hindex]
  decide +kernel

/-- **What a metric that is found has.** Its name is the one asked for unless the text that stands
for the name is the full name of the metric, with tags. For each matcher that is no exclusion it
has a tag that is written as the key, `=` and a value that passes, unless a text that the matcher
looks up is this full name; and the matcher matches if its key holds no `=`. -/
theorem matches_of_mem_lookup
    (built : ∀ m ∈ calls, ∃ name tags, Metric.new name tags = .ok m) (q : Query) :
    ∀ id ∈ (empty.takeEach calls).2.lookup q, ∃ m, (m, id) ∈ (empty.takeEach calls).1 ∧
      (m.name = q.metric ↔ ¬ m.TaggedName q.metric) ∧
      ∀ matcher ∈ q.matchers, matcher.isExclusive = false →
        (∀ text ∈ matcher.texts, ¬ m.TaggedName text) →
        matcher.MatchesWritten m ∧ ('=' ∉ matcher.key.toList → matcher.Matches m) := by
  obtain ⟨ms, hms, hgiven, -⟩ := exists_indexes_takeEach built
  intro id hid
  obtain ⟨m, hm, hfound⟩ := (mem_lookup hms q).mp hid
  have hwf := hms.wellFormed m (mem_of_metricAt hm)
  refine ⟨m, hgiven m id hm, name_eq_iff hwf hfound.name, fun matcher hmem hx hclear => ?_⟩
  have hwritten := matchesWritten_of_selected hwf hx hclear
    (hfound.selected matcher (mem_inclusions.mpr ⟨hmem, hx⟩))
  exact ⟨hwritten, hwritten.matches hwf⟩

/-- A metric that is found, and the name and the tag that it was asked for. -/
theorem matches_of_mem_lookup_sample :
    let first : Metric := ⟨"cpu", [⟨"host", "b"⟩]⟩
    let second : Metric := ⟨"host", [⟨"cpu", "b"⟩]⟩
    let q : Query := ⟨"cpu", [⟨"host", .exact "b"⟩]⟩
    (empty.takeEach [first, second]).2.lookup q = [2] ∧
      ∃ m, (m, 2) ∈ (empty.takeEach [first, second]).1 ∧ m.name = "cpu" ∧
        Matcher.Matches ⟨"host", .exact "b"⟩ m := by
  intro first second q
  have hfirst : Metric.new "cpu" ["host=b"] = .ok first := rfl
  have hsecond : Metric.new "host" ["cpu=b"] = .ok second := rfl
  have built : ∀ m ∈ [first, second], ∃ name tags, Metric.new name tags = .ok m := by
    intro m hm
    simp only [List.mem_cons, List.not_mem_nil, or_false] at hm
    rcases hm with rfl | rfl
    · exact ⟨_, _, hfirst⟩
    · exact ⟨_, _, hsecond⟩
  have hfound : (empty.takeEach [first, second]).2.lookup q = [2] := by decide +kernel
  obtain ⟨m, hm, hname, hall⟩ := matches_of_mem_lookup built q 2 (by simp [hfound])
  have hwf : m.WellFormed := by
    obtain ⟨name, tags, hnew⟩ := built m (mem_calls_of_mem_takeEach hm)
    exact Metric.wellFormed_of_new hnew
  have clear (text : String) (h : NoSpace text) : ¬ m.TaggedName text := fun htagged =>
    hwf.not_noSpace_of_taggedName htagged h
  refine ⟨hfound, m, hm, hname.mpr (clear "cpu" (by decide)), ?_⟩
  refine (hall _ List.mem_cons_self rfl fun text htext => clear text ?_).2 (by decide)
  simp only [Matcher.texts, Matcher.lookedUp, List.mem_cons, List.map_cons, List.map_nil,
    List.not_mem_nil, or_false] at htext
  rcases htext with rfl | rfl <;> decide

/-- The full name of a metric with a tag finds the metric, although it is not its name. -/
theorem lookup_fullName_finds :
    let m : Metric := ⟨"m", [⟨"k", "v"⟩]⟩
    Metric.new "m" ["k=v"] = .ok m ∧ Query.new "m k=v" [] = .ok ⟨"m k=v", []⟩ ∧
      (empty.takeEach [m]).1 = [(m, 2)] ∧ (empty.takeEach [m]).2.lookup ⟨"m k=v", []⟩ = [2] ∧
      m.name ≠ "m k=v" := by
  intro m
  refine ⟨rfl, rfl, ?_, ?_, ?_⟩ <;> decide +kernel

end TagIndex

end TimeSeries
