import Mathlib
import TimeSeries.Proofs.TagIndex.Invariant

/-!
# What the index answers

Every set that the index computes for a query is the set of the metrics with some property, and
the property asks for nothing but the metric itself: not for its id, and not for the other metrics
of the index. `Collects` says this of a set, and each operation of the index has a lemma that
names the property. This is where the roles of keys are dealt with. A text without a space under
which a metric is entered is its name, a tag key or a tag of it, so a text that is known in one
role only needs no check, and all others are checked against the full name.
-/

namespace TimeSeries

namespace TagIndex

variable {index : TagIndex} {ms : List Metric} {m : Metric} {key : String} {role : KeyRole}

/-! ## Keys without a space -/

theorem noSpace_of_mem_keysOf (hm : m.WellFormed) (h : (key, some role) ∈ keysOf m) :
    NoSpace key := by
  cases role with
  | name => exact mem_keysOf_name.mp h ▸ hm.name
  | tagKey =>
    obtain ⟨t, ht, rfl⟩ := mem_keysOf_tagKey.mp h
    exact (hm.tags t ht).key
  | tag =>
    obtain ⟨t, ht, rfl⟩ := mem_keysOf_tag.mp h
    exact (hm.tags t ht).noSpace_raw

/-- A full name without a space is a name. -/
theorem fullName_eq_name (hm : m.WellFormed) (h : NoSpace m.fullName) : m.fullName = m.name := by
  have htokens := hm.tokens_fullName
  rw [FullName.tokens, Text.pieces_of_not_mem h, List.map_cons] at htokens
  exact String.toList_inj.mp (List.cons.inj htokens).1

/-- A text without a space is entered in some role. -/
theorem exists_role (hm : m.WellFormed) (hkey : NoSpace key)
    (h : key ∈ (keysOf m).map Prod.fst) : ∃ role, (key, some role) ∈ keysOf m := by
  obtain ⟨⟨text, role?⟩, hmem, rfl⟩ := List.mem_map.mp h
  cases role? with
  | some role => exact ⟨role, hmem⟩
  | none =>
    have hfull : text = m.fullName := by simpa [keysOf] using hmem
    exact ⟨.name, mem_keysOf_name.mpr (hfull.trans (fullName_eq_name hm (hfull ▸ hkey)))⟩

/-! ## Sets of metrics with a property -/

/-- A set has just the ids of the metrics with a property. -/
structure Collects (ms : List Metric) (ids : IdSet) (P : Metric → Prop) : Prop where
  ordered : ids.Descending
  mem : ∀ id, id ∈ ids ↔ ∃ m, metricAt ms id = some m ∧ P m

namespace Collects

variable {ids others : IdSet} {P Q : Metric → Prop}

theorem mem_iff (h : Collects ms ids P) {id : SeriesId} (hm : metricAt ms id = some m) :
    id ∈ ids ↔ P m := by
  rw [h.mem, hm]
  simp

theorem congr (h : Collects ms ids P) (hPQ : ∀ m ∈ ms, P m ↔ Q m) : Collects ms ids Q where
  ordered := h.ordered
  mem := by
    intro id
    rw [h.mem]
    refine exists_congr fun m => and_congr_right fun hm => hPQ m (mem_of_metricAt hm)

theorem nil : Collects ms [] fun _ => False where
  ordered := IdSet.descending_nil
  mem := by simp

theorem inter (h : Collects ms ids P) (h' : Collects ms others Q) :
    Collects ms (IdSet.inter ids others) fun m => P m ∧ Q m where
  ordered := IdSet.descending_inter h.ordered h'.ordered
  mem := by
    intro id
    rw [IdSet.mem_inter h.ordered h'.ordered, h.mem, h'.mem]
    cases metricAt ms id <;> simp

theorem diff (h : Collects ms ids P) (h' : Collects ms others Q) :
    Collects ms (IdSet.diff ids others) fun m => P m ∧ ¬ Q m where
  ordered := IdSet.descending_diff h.ordered h'.ordered
  mem := by
    intro id
    rw [IdSet.mem_diff h.ordered h'.ordered, h.mem, h'.mem]
    cases metricAt ms id <;> simp

theorem union (h : Collects ms ids P) (h' : Collects ms others Q) :
    Collects ms (IdSet.union ids others) fun m => P m ∨ Q m where
  ordered := IdSet.descending_union h.ordered h'.ordered
  mem := by
    intro id
    rw [IdSet.mem_union, h.mem, h'.mem]
    cases metricAt ms id <;> simp

/-- A check of the full names under the ids. -/
theorem filter (hi : Indexes index ms) (h : Collects ms ids P) (test : String → Bool) :
    Collects ms (ids.filter fun id => (index.fullName? id).any test)
      fun m => P m ∧ test m.fullName = true where
  ordered := h.ordered.filter _
  mem := by
    intro id
    rw [List.mem_filter, h.mem, hi.fullName?_eq]
    cases metricAt ms id <;> simp

/-- Steps that each ask for one property more. -/
theorem foldl {α : Type} {f : IdSet → α → IdSet} {R : α → Metric → Prop}
    (step : ∀ x ids P, Collects ms ids P → Collects ms (f ids x) fun m => P m ∧ R x m)
    (xs : List α) (h : Collects ms ids P) :
    Collects ms (xs.foldl f ids) fun m => P m ∧ ∀ x ∈ xs, R x m := by
  induction xs generalizing ids P with
  | nil => exact h.congr fun m _ => by simp
  | cons x xs ih =>
    refine (ih (step x ids P h)).congr fun m _ => ?_
    simp only [List.forall_mem_cons, and_assoc]

end Collects

/-! ## Keys -/

/-- A metric is counted under a key in a role: it is entered under it, and a key without a space
is in its full name in that role. -/
def Counted (m : Metric) (key : String) (role : KeyRole) : Prop :=
  key ∈ (keysOf m).map Prod.fst ∧ (NoSpace key → FullName.hasKey m.fullName key role = true)

theorem collects_entry (h : Indexes index ms) (key : String) :
    Collects ms (index.entry key).ids fun m => key ∈ (keysOf m).map Prod.fst :=
  ⟨h.ordered key, fun id => h.entered key id⟩

/-- **The set under a key in a role**, whether or not the key has other roles. -/
theorem collects_idsFor (h : Indexes index ms) (key : String) (role : KeyRole) :
    Collects ms (index.idsFor key role) fun m => Counted m key role := by
  have hentry := collects_entry h key
  rw [idsFor]
  split
  · rename_i hother
    -- some metric has the key, in whatever role, so the key holds no space
    obtain ⟨r, -, hr⟩ := KeyRoles.hasOther_iff.mp hother
    obtain ⟨n, hn, hkey⟩ := (h.roles key r).mp hr
    have hspace := noSpace_of_mem_keysOf (h.wellFormed n hn) hkey
    refine (hentry.filter h (FullName.hasKey · key role)).congr fun m _ => ?_
    exact and_congr_right fun _ => ⟨fun ht _ => ht, fun ht => ht hspace⟩
  · rename_i hother
    refine hentry.congr fun m hm => ?_
    refine ⟨fun hkey => ⟨hkey, fun hspace => ?_⟩, fun hc => hc.1⟩
    -- the only role that the text can have for this metric is the one asked for
    have hwf := h.wellFormed m hm
    obtain ⟨r, hr⟩ := exists_role hwf hspace hkey
    obtain rfl : r = role := by
      by_contra hne
      exact hother (KeyRoles.hasOther_iff.mpr ⟨r, hne, (h.roles key r).mpr ⟨m, hm, hr⟩⟩)
    refine (hasKey_fullName hwf fun hrole => ?_).mpr hr
    subst hrole
    obtain ⟨t, ht, rfl⟩ := mem_keysOf_tagKey.mp hr
    exact (hwf.tags t ht).no_equals

theorem collects_idsForAny (h : Indexes index ms) (key pattern : String) :
    Collects ms (index.idsForAny key pattern) fun m =>
      ∃ value ∈ ValueTest.alternatives pattern, Counted m (key ++ "=" ++ value) .tag := by
  rw [idsForAny]
  have run (values : List String) {ids : IdSet} {P : Metric → Prop} (hids : Collects ms ids P) :
      Collects ms (values.foldl
        (fun ids value => IdSet.union ids (index.idsFor (key ++ "=" ++ value) .tag)) ids)
        fun m => P m ∨ ∃ value ∈ values, Counted m (key ++ "=" ++ value) .tag := by
    induction values generalizing ids P with
    | nil => exact hids.congr fun m _ => by simp
    | cons value values ih =>
      refine (ih (hids.union (collects_idsFor h _ .tag))).congr fun m _ => ?_
      simp only [List.exists_mem_cons_iff, or_assoc]
  exact (run (ValueTest.alternatives pattern) Collects.nil).congr fun m _ => by simp

/-! ## Matchers -/

/-- The value that the index reads under the key of a matcher is what is asked for. -/
def ReadHolds (m : Metric) (matcher : Matcher) : Prop :=
  (FullName.tagValue? m.fullName matcher.key).any matcher.test.holds = true

/-- What the index asks of a metric that a matcher is to select. -/
def Selected (m : Metric) (matcher : Matcher) : Prop :=
  Counted m matcher.key .tagKey ∧
    match matcher.test with
    | .exact value => Counted m (matcher.key ++ "=" ++ value) .tag
    | .wildcard pattern _ => pattern = "*" ∨ ReadHolds m matcher
    | .literalOr pattern false =>
      ∃ value ∈ ValueTest.alternatives pattern, Counted m (matcher.key ++ "=" ++ value) .tag
    | .literalOr _ true => ReadHolds m matcher
    | .notLiteralOr .. => True
    | .regexp _ => ReadHolds m matcher

/-- What the index asks of a metric that an exclusion is to hit. -/
def Hit (m : Metric) (matcher : Matcher) : Prop :=
  Counted m matcher.key .tagKey ∧
    match matcher.test with
    | .notLiteralOr pattern false =>
      ∃ value ∈ ValueTest.alternatives pattern, Counted m (matcher.key ++ "=" ++ value) .tag
    | .notLiteralOr _ true => ReadHolds m matcher
    | _ => True

variable {ids : IdSet} {P : Metric → Prop}

theorem collects_filterByValue (h : Indexes index ms) (hids : Collects ms ids P)
    (matcher : Matcher) :
    Collects ms (index.filterByValue ids matcher) fun m => P m ∧ ReadHolds m matcher :=
  hids.filter h fun name => (FullName.tagValue? name matcher.key).any matcher.test.holds

theorem collects_select (h : Indexes index ms) (matcher : Matcher) (ids : IdSet)
    (P : Metric → Prop) (hids : Collects ms ids P) :
    Collects ms (index.select ids matcher) fun m => P m ∧ Selected m matcher := by
  have hkey := hids.inter (collects_idsFor h matcher.key .tagKey)
  obtain ⟨key, test⟩ := matcher
  have hread := collects_filterByValue h hkey ⟨key, test⟩
  cases test with
  | exact value =>
    exact (hkey.inter (collects_idsFor h (key ++ "=" ++ value) .tag)).congr fun m _ => and_assoc
  | wildcard pattern ignoreCase =>
    rw [select]
    dsimp only
    split
    · rename_i hstar
      exact hkey.congr fun m _ => by simp [Selected, hstar]
    · rename_i hstar
      exact hread.congr fun m _ => by simp [Selected, hstar, and_assoc]
  | literalOr pattern ignoreCase =>
    cases ignoreCase with
    | false =>
      exact (hkey.inter (collects_idsForAny h key pattern)).congr fun m _ => and_assoc
    | true => exact hread.congr fun m _ => and_assoc
  | notLiteralOr pattern ignoreCase => exact hkey.congr fun m _ => by simp [Selected]
  | regexp regex => exact hread.congr fun m _ => and_assoc

theorem collects_selectExcluded (h : Indexes index ms) (matcher : Matcher) (ids : IdSet)
    (P : Metric → Prop) (hids : Collects ms ids P) :
    Collects ms (index.selectExcluded ids matcher) fun m => P m ∧ Hit m matcher := by
  have hkey := hids.inter (collects_idsFor h matcher.key .tagKey)
  obtain ⟨key, test⟩ := matcher
  have hread := collects_filterByValue h hkey ⟨key, test⟩
  cases test with
  | notLiteralOr pattern ignoreCase =>
    cases ignoreCase with
    | false =>
      exact (hkey.inter (collects_idsForAny h key pattern)).congr fun m _ => and_assoc
    | true => exact hread.congr fun m _ => and_assoc
  | exact value => exact hkey.congr fun m _ => by simp [Hit]
  | wildcard pattern ignoreCase => exact hkey.congr fun m _ => by simp [Hit]
  | literalOr pattern ignoreCase => exact hkey.congr fun m _ => by simp [Hit]
  | regexp regex => exact hkey.congr fun m _ => by simp [Hit]

/-! ## Queries -/

/-- The exclusions of a query. -/
def exclusions (q : Query) : List Matcher := q.matchers.filter (·.isExclusive)

/-- The matchers of a query that are no exclusions. -/
def inclusions (q : Query) : List Matcher := q.matchers.filter (!·.isExclusive)

/-- What the index asks of a metric that a query is to find. -/
structure Found (m : Metric) (q : Query) : Prop where
  name : Counted m q.metric .name
  selected : ∀ matcher ∈ inclusions q, Selected m matcher
  present : inclusions q = [] → ∀ matcher ∈ exclusions q, Counted m matcher.key .tagKey
  not_hit : exclusions q ≠ [] → ¬ ∀ matcher ∈ exclusions q, Hit m matcher

theorem collects_included (h : Indexes index ms) (metric : String) (matchers : List Matcher) :
    Collects ms (index.included metric matchers) fun m =>
      Counted m metric .name ∧ ∀ matcher ∈ matchers, Selected m matcher :=
  (collects_idsFor h metric .name).foldl (collects_select h) matchers

theorem collects_excluded (h : Indexes index ms) (metric : String) (matchers : List Matcher) :
    Collects ms (index.excluded metric matchers) fun m =>
      Counted m metric .name ∧ ∀ matcher ∈ matchers, Hit m matcher :=
  (collects_idsFor h metric .name).foldl (collects_selectExcluded h) matchers

theorem selected_presence (matcher : Matcher) :
    Selected m (presence matcher) ↔ Counted m matcher.key .tagKey := by
  simp [Selected, presence]

/-- **A query finds the metrics that it asks for**, one by one. -/
theorem collects_lookupIds (h : Indexes index ms) (q : Query) :
    Collects ms (index.lookupIds q) fun m => Found m q := by
  rw [lookupIds, if_neg (by simp [h.opened]), List.partition_eq_filter_filter]
  change Collects ms (if (exclusions q).isEmpty then index.included q.metric (inclusions q)
    else IdSet.diff (index.included q.metric
        (if (inclusions q).isEmpty then (exclusions q).map presence else inclusions q))
      (index.excluded q.metric (exclusions q))) _
  split
  · rename_i hempty
    rw [List.isEmpty_iff] at hempty
    refine (collects_included h q.metric (inclusions q)).congr fun m _ => ?_
    constructor
    · rintro ⟨hname, hall⟩
      exact ⟨hname, hall, by simp [hempty], by simp [hempty]⟩
    · intro hf
      exact ⟨hf.name, hf.selected⟩
  · rename_i hexcl
    rw [List.isEmpty_iff] at hexcl
    -- without matchers that select, the keys of the exclusions are asked for instead
    refine ((collects_included h q.metric _).diff
      (collects_excluded h q.metric (exclusions q))).congr fun m _ => ?_
    split
    · rename_i hincl
      rw [List.isEmpty_iff] at hincl
      simp only [List.forall_mem_map, selected_presence]
      constructor
      · rintro ⟨⟨hname, hkeys⟩, hnot⟩
        exact ⟨hname, by simp [hincl], fun _ => hkeys, fun _ hhit => hnot ⟨hname, hhit⟩⟩
      · intro hf
        exact ⟨⟨hf.name, hf.present hincl⟩, fun hhit => hf.not_hit hexcl hhit.2⟩
    · rename_i hincl
      rw [List.isEmpty_iff] at hincl
      constructor
      · rintro ⟨⟨hname, hall⟩, hnot⟩
        exact ⟨hname, hall, fun hnil => absurd hnil hincl, fun _ hhit => hnot ⟨hname, hhit⟩⟩
      · intro hf
        exact ⟨⟨hf.name, hf.selected⟩, fun hhit => hf.not_hit hexcl hhit.2⟩

/-- The answer is in ascending order, each id once. -/
theorem pairwise_lookup (h : Indexes index ms) (q : Query) :
    (index.lookup q).Pairwise (· < ·) :=
  List.pairwise_reverse.mpr (collects_lookupIds h q).ordered

theorem mem_lookup (h : Indexes index ms) (q : Query) {id : SeriesId} :
    id ∈ index.lookup q ↔ ∃ m, metricAt ms id = some m ∧ Found m q := by
  rw [lookup, List.mem_reverse]
  exact (collects_lookupIds h q).mem id

end TagIndex

end TimeSeries
