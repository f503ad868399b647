import Mathlib
import TimeSeries.Proofs.TagIndex.Lookup

/-!
# The algebra of queries

The sets under all keys of an index are in descending order, whatever metrics it was given. On such
sets a matcher works id by id: it keeps the ids that it *admits*, no matter which others are still
in play. This is all that is needed to calculate with queries. Matchers may come in any order, and
an exclusion does to the ids that it is to hit what a list of alternatives does to those that it is
to select, so that an answer with exclusions is the difference of two answers without.
-/

namespace TimeSeries

/-- The list of alternatives that an exclusion is turned into. -/
def Matcher.affirmed (m : Matcher) : Matcher :=
  match m.test with
  | .notLiteralOr pattern ignoreCase => ⟨m.key, .literalOr pattern ignoreCase⟩
  | _ => m

theorem Matcher.isExclusive_affirmed (m : Matcher) : m.affirmed.isExclusive = false := by
  obtain ⟨key, test⟩ := m
  cases test <;> rfl

namespace TagIndex

/-- What becomes of the empty index by taking metrics and by being closed. -/
inductive Reachable : TagIndex → Prop
  | empty : Reachable empty
  | getOrCreate {index : TagIndex} (h : Reachable index) (m : Metric) :
      Reachable (index.getOrCreate m).2
  | close {index : TagIndex} (h : Reachable index) : Reachable index.close

theorem Reachable.takeEach {index : TagIndex} (h : index.Reachable) (calls : List Metric) :
    (index.takeEach calls).2.Reachable := by
  induction calls generalizing index with
  | nil => exact h
  | cons m calls ih =>
    have hnext := h.getOrCreate m
    rw [TagIndex.takeEach]
    cases hget : index.getOrCreate m with
    | mk result index' =>
      rw [hget] at hnext
      cases result with
      | ok id => exact ih hnext
      | error e => exact ih hnext

/-! ## Sets in order -/

/-- The sets under all keys are in descending order, and the next id is above them. -/
structure Ordered (index : TagIndex) : Prop where
  descending : ∀ key, (index.entry key).ids.Descending
  below : ∀ key, ∀ id ∈ (index.entry key).ids, id < index.names.size + firstId

variable {index : TagIndex} {ids : IdSet} {ms ms' : List Matcher} {metric : String} {a : SeriesId}

theorem ordered_of_entries (h : index.entries = ∅) : index.Ordered := by
  have hnone (key : String) : (index.entry key).ids = [] := by
    rw [entry, h, Std.TreeMap.getElem?_emptyc]
    rfl
  refine ⟨fun key => ?_, fun key id hid => ?_⟩
  · rw [hnone]
    exact IdSet.descending_nil
  · rw [hnone] at hid
    exact absurd hid List.not_mem_nil

theorem Ordered.getOrCreate (h : index.Ordered) (m : Metric) : (index.getOrCreate m).2.Ordered := by
  unfold TagIndex.getOrCreate
  split
  · exact h
  · split
    · exact h
    · dsimp only
      split
      · exact h
      · -- the new id is above all others
        refine ⟨fun key => ?_, fun key id hid => ?_⟩
        · rw [entry_eq]
          refine descending_foldl_enter (h.descending key) fun a ha => ?_
          exact Nat.le_of_lt (h.below key a ha)
        · rw [entry_eq, mem_ids_foldl_enter, ← entry_eq] at hid
          rw [Array.size_push]
          rcases hid with ⟨rfl, -⟩ | hid
          · exact Nat.add_lt_add_right (Nat.lt_succ_self _) firstId
          · have hlater := Nat.add_le_add_right (Nat.le_succ index.names.size) firstId
            exact Nat.lt_of_lt_of_le (h.below key id hid) hlater

theorem Reachable.ordered (h : index.Reachable) : index.Ordered := by
  induction h with
  | empty => exact ordered_of_entries rfl
  | getOrCreate _ m ih => exact ih.getOrCreate m
  | close => exact ordered_of_entries rfl

theorem Ordered.idsFor (h : index.Ordered) (key : String) (role : KeyRole) :
    (index.idsFor key role).Descending := by
  rw [TagIndex.idsFor]
  split
  · exact (h.descending key).filter _
  · exact h.descending key

theorem Ordered.idsForAny (h : index.Ordered) (key pattern : String) :
    (index.idsForAny key pattern).Descending := by
  rw [TagIndex.idsForAny]
  have run (values : List String) {ids : IdSet} (hids : ids.Descending) :
      (values.foldl (fun ids value => IdSet.union ids (index.idsFor (key ++ "=" ++ value) .tag))
        ids).Descending := by
    induction values generalizing ids with
    | nil => exact hids
    | cons value values ih => exact ih (IdSet.descending_union hids (h.idsFor _ .tag))
  exact run _ IdSet.descending_nil

/-! ## Matchers one id at a time -/

/-- Whether a matcher keeps an id that is there alone. -/
def admits (index : TagIndex) (m : Matcher) (id : SeriesId) : Bool :=
  (index.select [id] m).contains id

/-- A matcher intersects with the ids under its key and with another set, or it checks values. -/
theorem select_cases (h : index.Ordered) (m : Matcher) :
    (∃ asked : IdSet, asked.Descending ∧ ∀ ids, index.select ids m =
      IdSet.inter (IdSet.inter ids (index.idsFor m.key .tagKey)) asked) ∨
    ∃ check : SeriesId → Bool, ∀ ids, index.select ids m =
      (IdSet.inter ids (index.idsFor m.key .tagKey)).filter check := by
  obtain ⟨key, test⟩ := m
  cases test with
  | exact value => exact .inl ⟨_, h.idsFor (key ++ "=" ++ value) .tag, fun ids => rfl⟩
  | wildcard pattern ignoreCase =>
    refine .inr ?_
    by_cases hstar : pattern = "*"
    · refine ⟨fun _ => true, fun ids => ?_⟩
      simp only [select, if_pos hstar, List.filter_true]
    · refine ⟨fun id => (index.fullName? id).any fun name =>
        (FullName.tagValue? name key).any (ValueTest.wildcard pattern ignoreCase).holds,
        fun ids => ?_⟩
      simp only [select, if_neg hstar]
      rfl
  | literalOr pattern ignoreCase =>
    cases ignoreCase with
    | false => exact .inl ⟨_, h.idsForAny key pattern, fun ids => rfl⟩
    | true => exact .inr ⟨_, fun ids => rfl⟩
  | notLiteralOr pattern ignoreCase =>
    refine .inr ⟨fun _ => true, fun ids => ?_⟩
    simp only [select, List.filter_true]
  | regexp regex => exact .inr ⟨_, fun ids => rfl⟩

theorem descending_select (h : index.Ordered) (hids : ids.Descending) (m : Matcher) :
    (index.select ids m).Descending := by
  have hkey := IdSet.descending_inter hids (h.idsFor m.key .tagKey)
  rcases select_cases h m with ⟨asked, hasked, hselect⟩ | ⟨check, hselect⟩
  · rw [hselect]
    exact IdSet.descending_inter hkey hasked
  · rw [hselect]
    exact hkey.filter _

theorem mem_select (h : index.Ordered) (hids : ids.Descending) (m : Matcher) :
    a ∈ index.select ids m ↔ a ∈ ids ∧ index.admits m a = true := by
  have hkeys := h.idsFor m.key .tagKey
  have halone : IdSet.Descending [a] := List.pairwise_singleton _ a
  rw [admits, List.contains_iff_mem]
  rcases select_cases h m with ⟨asked, hasked, hselect⟩ | ⟨check, hselect⟩
  · rw [hselect, hselect, IdSet.mem_inter (IdSet.descending_inter hids hkeys) hasked,
      IdSet.mem_inter (IdSet.descending_inter halone hkeys) hasked, IdSet.mem_inter hids hkeys,
      IdSet.mem_inter halone hkeys, List.mem_singleton, eq_self_iff_true, true_and, and_assoc]
  · rw [hselect, hselect, List.mem_filter, List.mem_filter, IdSet.mem_inter hids hkeys,
      IdSet.mem_inter halone hkeys, List.mem_singleton, eq_self_iff_true, true_and, and_assoc]

/-- **Matchers keep the ids that all of them admit.** -/
theorem foldl_select_eq_filter (h : index.Ordered) (hids : ids.Descending) (ms : List Matcher) :
    ms.foldl index.select ids = ids.filter fun id => ms.all fun m => index.admits m id := by
  induction ms generalizing ids with
  | nil => simp
  | cons m ms ih =>
    have hone : index.select ids m = ids.filter (index.admits m) := by
      refine (descending_select h hids m).ext (hids.filter _) fun a => ?_
      rw [mem_select h hids m, List.mem_filter]
    rw [List.foldl_cons, ih (descending_select h hids m), hone, List.filter_filter]
    refine List.filter_congr fun id _ => ?_
    rw [List.all_cons, Bool.and_comm]

theorem included_eq_filter (h : index.Ordered) (metric : String) (ms : List Matcher) :
    index.included metric ms =
      (index.idsFor metric .name).filter fun id => ms.all fun m => index.admits m id :=
  foldl_select_eq_filter h (h.idsFor metric .name) ms

theorem descending_included (h : index.Ordered) (metric : String) (ms : List Matcher) :
    (index.included metric ms).Descending := by
  rw [included_eq_filter h]
  exact (h.idsFor metric .name).filter _

theorem included_perm (h : index.Ordered) (metric : String) (hp : ms.Perm ms') :
    index.included metric ms = index.included metric ms' := by
  rw [included_eq_filter h, included_eq_filter h]
  exact List.filter_congr fun id _ => hp.all_eq

/-! ## Exclusions -/

/-- An exclusion hits what its list of alternatives selects. -/
theorem selectExcluded_eq (index : TagIndex) (ids : IdSet) {m : Matcher}
    (hm : m.isExclusive = true) : index.selectExcluded ids m = index.select ids m.affirmed := by
  obtain ⟨key, test⟩ := m
  cases test with
  | notLiteralOr pattern ignoreCase => cases ignoreCase <;> rfl
  | exact | wildcard | literalOr | regexp => exact absurd hm Bool.noConfusion

theorem excluded_eq_included (index : TagIndex) (metric : String)
    (hms : ∀ m ∈ ms, m.isExclusive = true) :
    index.excluded metric ms = index.included metric (ms.map Matcher.affirmed) := by
  rw [excluded, included, List.foldl_map]
  exact List.foldl_ext _ _ _ fun ids m hm => selectExcluded_eq index ids (hms m hm)

/-! ## Answers -/

/-- The matchers that select: those of a query that do, or else the keys of its exclusions. -/
def selecting (inclusive exclusive : List Matcher) : List Matcher :=
  if inclusive.isEmpty then exclusive.map presence else inclusive

theorem lookupIds_eq (hopen : index.closed = false) (q : Query) : index.lookupIds q =
    if (exclusions q).isEmpty then index.included q.metric (inclusions q)
    else IdSet.diff (index.included q.metric (selecting (inclusions q) (exclusions q)))
      (index.excluded q.metric (exclusions q)) := by
  rw [lookupIds, if_neg (by simp [hopen]), List.partition_eq_filter_filter]
  rfl

theorem lookup_of_closed (hclosed : index.closed = true) (q : Query) : index.lookup q = [] := by
  rw [lookup, lookupIds, if_pos hclosed]
  rfl

theorem lookup_inclusive (hopen : index.closed = false) (metric : String)
    (hms : ∀ m ∈ ms, m.isExclusive = false) :
    index.lookup ⟨metric, ms⟩ = (index.included metric ms).reverse := by
  have hnone : exclusions ⟨metric, ms⟩ = [] := by
    refine List.filter_eq_nil_iff.mpr fun m hm => ?_
    rw [hms m hm]
    exact Bool.false_ne_true
  have hall : inclusions ⟨metric, ms⟩ = ms := by
    refine List.filter_eq_self.mpr fun m hm => ?_
    rw [hms m hm]
    rfl
  rw [lookup, lookupIds_eq hopen, hnone, hall, List.isEmpty_nil, if_pos rfl]

theorem lookup_append (hopen : index.closed = false) (metric : String)
    {inclusive exclusive : List Matcher} (hi : ∀ m ∈ inclusive, m.isExclusive = false)
    (he : ∀ m ∈ exclusive, m.isExclusive = true) (hne : exclusive ≠ []) :
    index.lookup ⟨metric, inclusive ++ exclusive⟩ =
      (IdSet.diff (index.included metric (selecting inclusive exclusive))
        (index.included metric (exclusive.map Matcher.affirmed))).reverse := by
  have hexclusions : exclusions ⟨metric, inclusive ++ exclusive⟩ = exclusive := by
    rw [exclusions, List.filter_append, List.filter_eq_self.mpr he,
      List.filter_eq_nil_iff.mpr fun m hm => by simp [hi m hm], List.nil_append]
  have hinclusions : inclusions ⟨metric, inclusive ++ exclusive⟩ = inclusive := by
    rw [inclusions, List.filter_append, List.filter_eq_self.mpr fun m hm => by simp [hi m hm],
      List.filter_eq_nil_iff.mpr fun m hm => by simp [he m hm], List.append_nil]
  rw [lookup, lookupIds_eq hopen, hexclusions, hinclusions, if_neg (by simpa using hne),
    excluded_eq_included index metric he]

theorem lookup_perm (h : index.Ordered) (metric : String) (hp : ms.Perm ms') :
    index.lookup ⟨metric, ms⟩ = index.lookup ⟨metric, ms'⟩ := by
  cases hclosed : index.closed with
  | true => rw [lookup_of_closed hclosed, lookup_of_closed hclosed]
  | false =>
    have hexclusions : (exclusions ⟨metric, ms⟩).Perm (exclusions ⟨metric, ms'⟩) := hp.filter _
    have hinclusions : (inclusions ⟨metric, ms⟩).Perm (inclusions ⟨metric, ms'⟩) := hp.filter _
    have hselecting : (selecting (inclusions ⟨metric, ms⟩) (exclusions ⟨metric, ms⟩)).Perm
        (selecting (inclusions ⟨metric, ms'⟩) (exclusions ⟨metric, ms'⟩)) := by
      rw [selecting, selecting, hinclusions.isEmpty_eq]
      split
      · exact hexclusions.map presence
      · exact hinclusions
    have hexcluded {ms : List Matcher} : index.excluded metric (exclusions ⟨metric, ms⟩) =
        index.included metric ((exclusions ⟨metric, ms⟩).map Matcher.affirmed) :=
      excluded_eq_included index metric fun m hm => (List.mem_filter.mp hm).2
    rw [lookup, lookup, lookupIds_eq hclosed, lookupIds_eq hclosed]
    dsimp only
    rw [hexclusions.isEmpty_eq, included_perm h metric hinclusions,
      included_perm h metric hselecting, hexcluded, hexcluded,
      included_perm h metric (hexclusions.map Matcher.affirmed)]

/-- **How queries calculate.** The answer to a query with exclusions is the answer to its other
matchers without the answer to the lists of alternatives of the exclusions; where there are no other
matchers, the keys of the exclusions have to be there. And no answer depends on the order of the
matchers. -/
theorem lookup_algebra (h : index.Reachable) (metric : String) :
    (∀ inclusive exclusive : List Matcher, (∀ m ∈ inclusive, m.isExclusive = false) →
      (∀ m ∈ exclusive, m.isExclusive = true) → exclusive ≠ [] →
      index.lookup ⟨metric, inclusive ++ exclusive⟩ =
        (index.lookup ⟨metric,
          if inclusive = [] then exclusive.map presence else inclusive⟩).filter
          (· ∉ index.lookup ⟨metric, exclusive.map Matcher.affirmed⟩)) ∧
    ∀ ms ms' : List Matcher, ms.Perm ms' →
      index.lookup ⟨metric, ms⟩ = index.lookup ⟨metric, ms'⟩ := by
  have hordered := h.ordered
  refine ⟨fun inclusive exclusive hi he hne => ?_, fun ms ms' hp => lookup_perm hordered metric hp⟩
  cases hclosed : index.closed with
  | true => simp [lookup_of_closed hclosed]
  | false =>
    have hif : (if inclusive = [] then exclusive.map presence else inclusive) =
        selecting inclusive exclusive := by
      rw [selecting]
      simp only [List.isEmpty_iff]
    have hselecting : ∀ m ∈ selecting inclusive exclusive, m.isExclusive = false := by
      intro m hm
      rw [selecting] at hm
      split at hm
      · obtain ⟨e, -, rfl⟩ := List.mem_map.mp hm
        rfl
      · exact hi m hm
    have haffirmed : ∀ m ∈ exclusive.map Matcher.affirmed, m.isExclusive = false := by
      intro m hm
      obtain ⟨e, -, rfl⟩ := List.mem_map.mp hm
      exact e.isExclusive_affirmed
    rw [hif, lookup_append hclosed metric hi he hne, lookup_inclusive hclosed metric hselecting,
      lookup_inclusive hclosed metric haffirmed,
      IdSet.diff_eq_filter (descending_included hordered metric _)
        (descending_included hordered metric _), ← List.filter_reverse]
    simp only [List.mem_reverse]

/-- Of three metrics two have the key, and one of these has the value that is excluded. -/
theorem lookup_algebra_sample :
    let index := (empty.takeEach [⟨"cpu", [⟨"host", "a"⟩]⟩, ⟨"cpu", [⟨"host", "b"⟩]⟩,
      ⟨"cpu", []⟩]).2
    let exclusion : Matcher := ⟨"host", .notLiteralOr "b|c" false⟩
    index.Reachable ∧ index.lookup ⟨"cpu", [exclusion]⟩ = [2] ∧
      index.lookup ⟨"cpu", [exclusion]⟩ = (index.lookup ⟨"cpu", [presence exclusion]⟩).filter
        (· ∉ index.lookup ⟨"cpu", [⟨"host", .literalOr "b|c" false⟩]⟩) ∧
      index.lookup ⟨"cpu", [exclusion, ⟨"host", .exact "a"⟩]⟩ =
        index.lookup ⟨"cpu", [⟨"host", .exact "a"⟩, exclusion]⟩ := by
  intro index exclusion
  have reached : index.Reachable := Reachable.empty.takeEach _
  have answer : index.lookup ⟨"cpu", [exclusion]⟩ = [2] := by decide +kernel
  obtain ⟨difference, order⟩ := lookup_algebra reached "cpu"
  refine ⟨reached, answer, difference [] [exclusion] (by simp) ?_ (by simp), order _ _ ?_⟩
  · intro m hm
    obtain rfl := List.mem_singleton.mp hm
    rfl
  · exact List.Perm.swap _ _ []

end TagIndex

end TimeSeries
