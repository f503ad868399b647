import Mathlib
import TimeSeries.Proofs.TagIndex.Numbering
import TimeSeries.Proofs.TreeMap

/-!
# What the index contains

The table of an index, the roles in it, the full names and the counts are all of them pictures of
the same thing: the metrics that were taken, with the ids that they were given. `Represents` says
for each part of the index what it shows, and says it by the metrics alone. Nothing that a metric
has is missing in the table, and nothing else is there, not even a text with an empty set.

That the table has no empty set is not seen by looking up keys, where such a set and none at all
are the same. So it is an invariant of its own, `NoneEmpty`, which every entry keeps.
-/

namespace TimeSeries

namespace Metric

/-- The terms of a metric: its full name, its name, and the keys and written forms of its tags. -/
def terms (m : Metric) : List String :=
  m.fullName :: m.name :: (m.tags.map Tag.key ++ m.tags.map Tag.raw)

/-- A metric has a text in a role. -/
def HasInRole (m : Metric) (text : String) : KeyRole → Prop
  | .name => m.name = text
  | .tagKey => ∃ t ∈ m.tags, t.key = text
  | .tag => ∃ t ∈ m.tags, t.raw = text

variable {m n : Metric} {text : String} {role : KeyRole}

theorem mem_terms : text ∈ m.terms ↔ text = m.fullName ∨ ∃ role, m.HasInRole text role := by
  simp only [terms, List.mem_cons, List.mem_append, List.mem_map]
  constructor
  · rintro (hfull | hname | hkey | hraw)
    · exact .inl hfull
    · exact .inr ⟨.name, hname.symm⟩
    · exact .inr ⟨.tagKey, hkey⟩
    · exact .inr ⟨.tag, hraw⟩
  · rintro (hfull | ⟨role, hrole⟩)
    · exact .inl hfull
    · cases role with
      | name => exact .inr (.inl hrole.symm)
      | tagKey => exact .inr (.inr (.inl hrole))
      | tag => exact .inr (.inr (.inr hrole))

/-- A property that depends on the full name only, as far as metrics are well formed. -/
def ByFullName (P : Metric → Prop) : Prop :=
  ∀ ⦃m n : Metric⦄, m.WellFormed → n.WellFormed → m.fullName = n.fullName → P m → P n

theorem byFullName_eq (name : String) : ByFullName fun m => m.fullName = name :=
  fun _ _ _ _ heq h => heq.symm.trans h

theorem byFullName_hasInRole (text : String) (role : KeyRole) :
    ByFullName fun m => m.HasInRole text role := by
  intro m n hm hn heq h
  obtain ⟨hname, htags⟩ := hm.eq_of_fullName hn heq
  cases role with
  | name => exact hname.symm.trans h
  | tagKey =>
    obtain ⟨t, ht, hkey⟩ := h
    exact ⟨t, (htags t).mp ht, hkey⟩
  | tag =>
    obtain ⟨t, ht, hraw⟩ := h
    exact ⟨t, (htags t).mp ht, hraw⟩

theorem byFullName_terms (text : String) : ByFullName fun m => text ∈ m.terms := by
  intro m n hm hn heq h
  rcases mem_terms.mp h with hfull | ⟨role, hrole⟩
  · exact mem_terms.mpr (.inl (hfull.trans heq))
  · exact mem_terms.mpr (.inr ⟨role, byFullName_hasInRole text role hm hn heq hrole⟩)

theorem byFullName_identity (id : String × Multiset Tag) : ByFullName fun m => m.identity = id :=
  fun _ _ hm hn heq h => ((hm.identity_eq_iff_fullName hn).mpr heq).symm.trans h

end Metric

namespace TagIndex

variable {index : TagIndex} {ms calls : List Metric} {taken : List (Metric × SeriesId)}
  {m n : Metric} {id bound : SeriesId} {text : String} {role : KeyRole}

/-! ## The texts under which a metric is entered -/

theorem mem_keysOf_role : (text, some role) ∈ keysOf m ↔ m.HasInRole text role := by
  cases role with
  | name => exact mem_keysOf_name.trans eq_comm
  | tagKey => exact mem_keysOf_tagKey
  | tag => exact mem_keysOf_tag

theorem mem_keysOf_iff : text ∈ (keysOf m).map Prod.fst ↔ text ∈ m.terms := by
  rw [Metric.mem_terms, List.mem_map]
  constructor
  · rintro ⟨⟨text, none | role⟩, hmem, rfl⟩
    · exact .inl (by simpa [keysOf] using hmem)
    · exact .inr ⟨role, mem_keysOf_role.mp hmem⟩
  · rintro (rfl | ⟨role, hrole⟩)
    · exact ⟨(m.fullName, none), List.mem_cons_self, rfl⟩
    · exact ⟨(text, some role), mem_keysOf_role.mpr hrole, rfl⟩

/-! ## No empty sets -/

/-- Under every text of a table there is some id. -/
def NoneEmpty (entries : Std.TreeMap String IndexEntry) : Prop :=
  ∀ (text : String) (entry : IndexEntry), entries[text]? = some entry → entry.ids ≠ []

theorem NoneEmpty.enter {entries : Std.TreeMap String IndexEntry} (h : NoneEmpty entries)
    (id : SeriesId) (key : String × Option KeyRole) : NoneEmpty (enter id entries key) := by
  intro text entry hentry
  rw [TagIndex.enter, Std.TreeMap.getElem?_alter] at hentry
  split at hentry
  · -- the id that is entered is under the text, whatever was there
    obtain rfl := Option.some_inj.mp hentry
    exact List.ne_nil_of_mem (IdSet.mem_insertNewest.mpr (.inl rfl))
  · exact h text entry hentry

theorem NoneEmpty.foldl_enter {entries : Std.TreeMap String IndexEntry} (h : NoneEmpty entries)
    (id : SeriesId) (keys : List (String × Option KeyRole)) :
    NoneEmpty (keys.foldl (TagIndex.enter id) entries) := by
  induction keys generalizing entries with
  | nil => exact h
  | cons key keys ih => exact ih (h.enter id key)

theorem NoneEmpty.getOrCreate (h : NoneEmpty index.entries) (m : Metric) :
    NoneEmpty (index.getOrCreate m).2.entries := by
  rw [TagIndex.getOrCreate]
  split
  · exact h
  · split
    · exact h
    · dsimp only
      split
      · exact h
      · exact h.foldl_enter _ _

theorem NoneEmpty.takeEach (h : NoneEmpty index.entries) (calls : List Metric) :
    NoneEmpty (index.takeEach calls).2.entries := by
  induction calls generalizing index with
  | nil => exact h
  | cons m calls ih =>
    have hstep := h.getOrCreate m
    rw [TagIndex.takeEach]
    split
    all_goals
      rename_i hget
      rw [hget] at hstep
      exact ih hstep

theorem noneEmpty_empty : NoneEmpty empty.entries := by
  intro text entry hentry
  simp [empty] at hentry

/-- A text has an entry just if some id is found under it. -/
theorem NoneEmpty.mem_iff (h : NoneEmpty index.entries) :
    text ∈ index.entries ↔ ∃ id, id ∈ (index.entry text).ids := by
  rw [← Std.TreeMap.isSome_getElem?_iff_mem, Option.isSome_iff_exists, entry]
  constructor
  · rintro ⟨entry, hentry⟩
    rw [hentry]
    exact List.exists_mem_of_ne_nil _ (h text entry hentry)
  · rintro ⟨id, hid⟩
    cases hentry : index.entries[text]? with
    | some entry => exact ⟨entry, rfl⟩
    | none =>
      rw [hentry] at hid
      exact absurd hid List.not_mem_nil

/-! ## What was taken and what the index holds -/

/-- What depends on full names may be asked of what was taken. -/
theorem Given.exists_iff (h : Given ms taken) (hms : Indexes index ms) {P : Metric → Prop}
    (hP : Metric.ByFullName P) :
    (∃ m, (m, id) ∈ taken ∧ P m) ↔ ∃ m, metricAt ms id = some m ∧ P m := by
  constructor
  · rintro ⟨m, hm, hPm⟩
    obtain ⟨n, hn, hname⟩ := h.same m id hm
    have hnwf := hms.wellFormed n (mem_of_metricAt hn)
    exact ⟨n, hn, hP (h.wellFormed m id hm) hnwf hname.symm hPm⟩
  · rintro ⟨m, hm, hPm⟩
    exact ⟨m, h.mem m id hm, hPm⟩

theorem Given.exists_mem_iff (h : Given ms taken) (hms : Indexes index ms) {P : Metric → Prop}
    (hP : Metric.ByFullName P) : (∃ m id, (m, id) ∈ taken ∧ P m) ↔ ∃ m ∈ ms, P m := by
  rw [exists_comm]
  constructor
  · rintro ⟨id, hid⟩
    obtain ⟨m, hm, hPm⟩ := (h.exists_iff hms hP).mp hid
    exact ⟨m, mem_of_metricAt hm, hPm⟩
  · rintro ⟨m, hm, hPm⟩
    obtain ⟨id, hid⟩ := exists_metricAt hm
    exact ⟨id, m, h.mem m id hid, hPm⟩

theorem Given.mem_ids (h : Given ms taken) (hms : Indexes index ms) :
    id ∈ (index.entry text).ids ↔ ∃ m, (m, id) ∈ taken ∧ text ∈ m.terms := by
  rw [hms.entered, h.exists_iff hms (Metric.byFullName_terms text)]
  simp only [mem_keysOf_iff]

theorem Given.has_role (h : Given ms taken) (hms : Indexes index ms) :
    (index.entry text).roles.has role = true ↔
      ∃ m id, (m, id) ∈ taken ∧ m.HasInRole text role := by
  rw [hms.roles, h.exists_mem_iff hms (Metric.byFullName_hasInRole text role)]
  simp only [mem_keysOf_role]

theorem Given.fullName?_eq_some (h : Given ms taken) (hms : Indexes index ms) {name : String} :
    index.fullName? id = some name ↔ ∃ m, (m, id) ∈ taken ∧ m.fullName = name := by
  rw [hms.fullName?_eq, Option.map_eq_some_iff, h.exists_iff hms (Metric.byFullName_eq name)]

/-- Two metrics were given one id just if they are the same. -/
theorem Given.id_eq_iff (h : Given ms taken) (hms : Indexes index ms) {i j : SeriesId}
    (hm : (m, i) ∈ taken) (hn : (n, j) ∈ taken) : i = j ↔ m.identity = n.identity := by
  obtain ⟨m', hm', hmname⟩ := h.same m i hm
  obtain ⟨n', hn', hnname⟩ := h.same n j hn
  rw [(h.wellFormed m i hm).identity_eq_iff_fullName (h.wellFormed n j hn), ← hmname, ← hnname]
  constructor
  · rintro rfl
    rw [Option.some_inj.mp (hm'.symm.trans hn')]
  · exact hms.metricAt_unique hm' hn'

/-! ## The last id -/

/-- The largest id that was given, or 1 if none was. -/
def lastId (taken : List (Metric × SeriesId)) : SeriesId :=
  (taken.map Prod.snd).foldr max (firstId - 1)

theorem lastId_le_iff :
    lastId taken ≤ bound ↔ firstId - 1 ≤ bound ∧ ∀ m id, (m, id) ∈ taken → id ≤ bound := by
  induction taken with
  | nil => simp [lastId]
  | cons p taken ih =>
    have hcons : lastId (p :: taken) = max p.2 (lastId taken) := rfl
    rw [hcons, max_le_iff, ih]
    constructor
    · rintro ⟨hp, hfirst, htaken⟩
      refine ⟨hfirst, fun m id hm => ?_⟩
      rcases List.mem_cons.mp hm with rfl | hm
      · exact hp
      · exact htaken m id hm
    · rintro ⟨hfirst, hall⟩
      exact ⟨hall p.1 p.2 List.mem_cons_self, hfirst,
        fun m id hm => hall m id (List.mem_cons_of_mem _ hm)⟩

theorem isSome_metricAt :
    (metricAt ms id).isSome = true ↔ firstId ≤ id ∧ id < ms.length + firstId := by
  rw [metricAt]
  split
  · rename_i hlow
    simp [Nat.not_le.mpr hlow]
  · rename_i hlow
    rw [isSome_getElem?, Nat.sub_lt_iff_lt_add (Nat.le_of_not_lt hlow)]
    simp [Nat.le_of_not_lt hlow]

/-- The next id is the one behind the last. -/
theorem Given.lastId_eq (h : Given ms taken) : lastId taken + 1 = ms.length + firstId := by
  have hupper : lastId taken ≤ ms.length + 1 := by
    refine lastId_le_iff.mpr ⟨Nat.le_add_left 1 _, fun m id hm => ?_⟩
    obtain ⟨n, hn, -⟩ := h.same m id hm
    exact Nat.le_of_lt_succ (lt_of_metricAt hn)
  have hlower : ms.length + 1 ≤ lastId taken := by
    obtain ⟨hfirst, hall⟩ := lastId_le_iff.mp (le_refl (lastId taken))
    rcases Nat.eq_zero_or_pos ms.length with hnone | hsome
    · rw [hnone]
      exact hfirst
    · -- the metric in the last place has been taken
      have hplace : (metricAt ms (ms.length + 1)).isSome = true :=
        isSome_metricAt.mpr ⟨Nat.succ_le_succ hsome, Nat.lt_succ_self _⟩
      obtain ⟨n, hn⟩ := Option.isSome_iff_exists.mp hplace
      exact hall n _ (h.mem n _ hn)
  rw [Nat.le_antisymm hupper hlower]
  rfl

theorem Given.isSome_fullName? (h : Given ms taken) (hms : Indexes index ms) :
    (index.fullName? id).isSome = true ↔ firstId ≤ id ∧ id ≤ lastId taken := by
  rw [hms.fullName?_eq, Option.isSome_map, isSome_metricAt, ← h.lastId_eq, Nat.lt_succ_iff]

/-- A metric that is not there gets the id behind the last, if there is one. -/
theorem Given.getOrCreate_fresh (h : Given ms taken) (hms : Indexes index ms)
    (hfresh : index.find? m = none) :
    (index.getOrCreate m).1 =
      if lastId taken < maxId then .ok (lastId taken + 1)
      else .error (.internal "series id space exhausted") := by
  rw [getOrCreate, if_neg (by simp [hms.opened]), hfresh]
  dsimp only
  rw [hms.size_names, ← h.lastId_eq]
  by_cases hroom : lastId taken < maxId
  · rw [if_pos hroom, if_neg (Nat.not_lt.mpr hroom)]
  · rw [if_neg hroom, if_pos (Nat.lt_succ_of_le (Nat.le_of_not_lt hroom))]

/-! ## The counts -/

theorem Given.metrics_stats (h : Given ms taken) (hms : Indexes index ms) :
    index.stats.metrics = (taken.map fun p => p.1.identity).toFinset.card := by
  have hsame : (taken.map fun p => p.1.identity).toFinset = (ms.map Metric.identity).toFinset := by
    ext id
    have hiff := h.exists_mem_iff hms (Metric.byFullName_identity id)
    simpa using hiff
  rw [hsame, List.toFinset_card_of_nodup hms.nodup_identity, List.length_map, ← hms.size_names]
  rfl

theorem Given.mem_entries (h : Given ms taken) (hms : Indexes index ms)
    (hfull : NoneEmpty index.entries) :
    text ∈ index.entries ↔ ∃ m id, (m, id) ∈ taken ∧ text ∈ m.terms := by
  rw [hfull.mem_iff, exists_comm]
  exact exists_congr fun id => h.mem_ids hms

theorem Given.keys_stats (h : Given ms taken) (hms : Indexes index ms)
    (hfull : NoneEmpty index.entries) :
    index.stats.keys = (taken.flatMap fun p => p.1.terms).toFinset.card := by
  refine TreeMap.size_eq_card fun text => ?_
  rw [h.mem_entries hms hfull, List.mem_toFinset, List.mem_flatMap, Prod.exists]

/-! ## What an index shows of the metrics that it was given -/

/-- **What each part of an index shows of the metrics that were taken**, with their ids. -/
structure Represents (index : TagIndex) (taken : List (Metric × SeriesId)) : Prop where
  opened : index.closed = false
  /-- An id belongs to one metric, and a metric has one id. -/
  owner : ∀ m i n j, (m, i) ∈ taken → (n, j) ∈ taken → (i = j ↔ m.identity = n.identity)
  /-- The set under a text has just the ids of the metrics with this term. -/
  ids : ∀ text id, id ∈ (index.entry text).ids ↔ ∃ m, (m, id) ∈ taken ∧ text ∈ m.terms
  /-- No id is in a set twice. -/
  ordered : ∀ text, (index.entry text).ids.Descending
  /-- A text has an entry just if some metric has this term. -/
  present : ∀ text, text ∈ index.entries ↔ ∃ m id, (m, id) ∈ taken ∧ text ∈ m.terms
  /-- No entry has an empty set. -/
  inhabited : NoneEmpty index.entries
  /-- The roles of a text are those in which some metric has it. -/
  roles : ∀ text role, (index.entry text).roles.has role = true ↔
    ∃ m id, (m, id) ∈ taken ∧ m.HasInRole text role
  /-- Under an id is the full name of the metric with the id. -/
  names : ∀ id name, index.fullName? id = some name ↔
    ∃ m, (m, id) ∈ taken ∧ m.fullName = name
  /-- The ids with a full name run from 2 to the last one. -/
  span : ∀ id, (index.fullName? id).isSome = true ↔ firstId ≤ id ∧ id ≤ lastId taken
  /-- A metric that is not there would get the id behind the last one, if there is one. -/
  next : ∀ m, index.find? m = none → (index.getOrCreate m).1 =
    if lastId taken < maxId then .ok (lastId taken + 1)
    else .error (.internal "series id space exhausted")
  /-- As many metrics are counted as there are different ones. -/
  metrics : index.stats.metrics = (taken.map fun p => p.1.identity).toFinset.card
  /-- As many keys are counted as the metrics have different terms. -/
  keys : index.stats.keys = (taken.flatMap fun p => p.1.terms).toFinset.card

/-- **After any calls, the index represents just the metrics that it has taken.** The calls are made
with metrics that were made from a name and written tags. -/
theorem represents_takeEach
    (built : ∀ m ∈ calls, ∃ name tags, Metric.new name tags = .ok m) :
    Represents (empty.takeEach calls).2 (empty.takeEach calls).1 := by
  obtain ⟨ms, hms, hgiven⟩ := exists_given built
  have hfull := noneEmpty_empty.takeEach calls
  exact
    { opened := hms.opened
      owner := fun m i n j hm hn => hgiven.id_eq_iff hms hm hn
      ids := fun text id => hgiven.mem_ids hms
      ordered := hms.ordered
      present := fun text => hgiven.mem_entries hms hfull
      inhabited := hfull
      roles := fun text role => hgiven.has_role hms
      names := fun id name => hgiven.fullName?_eq_some hms
      span := fun id => hgiven.isSome_fullName? hms
      next := fun m hfresh => hgiven.getOrCreate_fresh hms hfresh
      metrics := hgiven.metrics_stats hms
      keys := hgiven.keys_stats hms hfull }

/-- The name of the second metric is a tag key of the first, and the third is the first with its tags
in another order. So there are two metrics, and five texts have entries, one of them in two roles. -/
theorem represents_takeEach_sample :
    let first : Metric := ⟨"cpu", [⟨"host", "b"⟩, ⟨"host", "a"⟩]⟩
    let second : Metric := ⟨"host", []⟩
    let third : Metric := ⟨"cpu", [⟨"host", "a"⟩, ⟨"host", "b"⟩]⟩
    let index := (empty.takeEach [first, second, third]).2
    Represents index [(first, 2), (second, 3), (third, 2)] ∧
    (index.entry "host").ids = [3, 2] ∧
    (index.entry "host").roles.has .name = true ∧
    (index.entry "host").roles.has .tagKey = true ∧
    index.stats.metrics = 2 ∧ index.stats.keys = 5 := by
  intro first second third index
  have built : ∀ m ∈ [first, second, third], ∃ name tags, Metric.new name tags = .ok m := by
    intro m hm
    simp only [List.mem_cons, List.not_mem_nil, or_false] at hm
    rcases hm with rfl | rfl | rfl
    · exact ⟨"cpu", ["host=b", "host=a"], rfl⟩
    · exact ⟨"host", [], rfl⟩
    · exact ⟨"cpu", ["host=a", "host=b"], rfl⟩
  have hwf : ∀ m ∈ [first, second, third], m.WellFormed := by
    intro m hm
    obtain ⟨name, tags, hnew⟩ := built m hm
    exact Metric.wellFormed_of_new hnew
  have hnumbers : [first, second, third].map (fun m => (m, number [first, second, third] m)) =
      [(first, 2), (second, 3), (third, 2)] := by
    decide +kernel
  have htaken := (numbers_takeEach hwf (by decide +kernel)).1.trans hnumbers
  have h : Represents index [(first, 2), (second, 3), (third, 2)] :=
    htaken ▸ represents_takeEach built
  have hfirst : first.terms = ["cpu host=a host=b", "cpu", "host", "host", "host=b", "host=a"] := by
    simp [first, Metric.terms, Metric.fullName, Metric.sortedTags, Tag.raw, List.mergeSort]
  have hsecond : second.terms = ["host", "host"] := by
    simp [second, Metric.terms, Metric.fullName, Metric.sortedTags]
  have hthird : third.terms = ["cpu host=a host=b", "cpu", "host", "host", "host=a", "host=b"] := by
    simp [third, Metric.terms, Metric.fullName, Metric.sortedTags, Tag.raw, List.mergeSort]
  refine ⟨h, ?_, ?_, ?_, ?_, ?_⟩
  · refine (h.ordered "host").ext (by simp [IdSet.Descending]) fun id => ?_
    rw [h.ids]
    constructor
    · rintro ⟨m, hm, -⟩
      simp only [List.mem_cons, Prod.mk.injEq, List.not_mem_nil, or_false] at hm
      rcases hm with ⟨-, rfl⟩ | ⟨-, rfl⟩ | ⟨-, rfl⟩ <;> decide
    · intro hid
      simp only [List.mem_cons, List.not_mem_nil, or_false] at hid
      rcases hid with rfl | rfl
      · exact ⟨second, by simp, by simp [hsecond]⟩
      · exact ⟨first, by simp, by simp [hfirst]⟩
  · exact (h.roles "host" .name).mpr ⟨second, 3, by simp, rfl⟩
  · exact (h.roles "host" .tagKey).mpr ⟨first, 2, by simp, ⟨"host", "b"⟩, by simp [first], rfl⟩
  · rw [h.metrics]
    decide +kernel
  · rw [h.keys]
    simp only [List.flatMap_cons, List.flatMap_nil, hfirst, hsecond, hthird]
    decide +kernel

end TagIndex

end TimeSeries
