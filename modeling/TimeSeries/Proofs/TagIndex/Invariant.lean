import Mathlib
import TimeSeries.Proofs.FullName
import TimeSeries.Proofs.IdSet

/-!
# What the tag index holds

`Indexes index ms` says that the index holds the metrics `ms`, in the order in which they were
seen first: the position of a metric fixes its id, the table has under each key the ids of the
metrics that are entered under it, and the roles of a key are those in which some metric has it.
The empty index holds no metrics, and taking a metric either leaves the index alone, because the
metric is there already or ids have run out, or puts the metric behind the others.
-/

namespace TimeSeries

namespace KeyRoles

/-- Whether a role is among the roles of a key. -/
def has (roles : KeyRoles) : KeyRole → Bool
  | .name => roles.name
  | .tagKey => roles.tagKey
  | .tag => roles.tag

@[simp] theorem has_empty (role : KeyRole) : ({} : KeyRoles).has role = false := by
  cases role <;> rfl

theorem has_add {roles : KeyRoles} {r role : KeyRole} :
    (roles.add r).has role = true ↔ role = r ∨ roles.has role = true := by
  cases r <;> cases role <;> simp [add, has]

theorem hasOther_iff {roles : KeyRoles} {role : KeyRole} :
    roles.hasOther role = true ↔ ∃ r, r ≠ role ∧ roles.has r = true := by
  constructor
  · intro h
    cases role <;> simp only [hasOther, Bool.or_eq_true] at h <;> rcases h with h | h
    · exact ⟨.tagKey, by simp, h⟩
    · exact ⟨.tag, by simp, h⟩
    · exact ⟨.name, by simp, h⟩
    · exact ⟨.tag, by simp, h⟩
    · exact ⟨.name, by simp, h⟩
    · exact ⟨.tagKey, by simp, h⟩
  · rintro ⟨r, hne, hr⟩
    cases role <;> cases r <;> simp_all [hasOther, has]

end KeyRoles

namespace TagIndex

/-! ## Entering a metric -/

/-- What a table has under a key. -/
def entryOf (entries : Std.TreeMap String IndexEntry) (key : String) : IndexEntry :=
  (entries[key]?).getD {}

theorem entry_eq (index : TagIndex) (key : String) :
    index.entry key = entryOf index.entries key := rfl

variable {entries : Std.TreeMap String IndexEntry} {id a : SeriesId} {key : String}
  {keys : List (String × Option KeyRole)}

theorem entryOf_enter_self (k : String × Option KeyRole) :
    entryOf (enter id entries k) k.1 =
      { ids := IdSet.insertNewest id (entryOf entries k.1).ids
        roles := match k.2 with
          | some role => (entryOf entries k.1).roles.add role
          | none => (entryOf entries k.1).roles } := by
  rw [entryOf, enter, Std.TreeMap.getElem?_alter_self]
  rfl

theorem entryOf_enter_ne {k : String × Option KeyRole} (h : k.1 ≠ key) :
    entryOf (enter id entries k) key = entryOf entries key := by
  simp [entryOf, enter, Std.TreeMap.getElem?_alter, h]

theorem mem_ids_enter {k : String × Option KeyRole} :
    a ∈ (entryOf (enter id entries k) key).ids ↔
      (a = id ∧ key = k.1) ∨ a ∈ (entryOf entries key).ids := by
  by_cases h : k.1 = key
  · subst h
    rw [entryOf_enter_self]
    simp
  · rw [entryOf_enter_ne h]
    simp [Ne.symm h]

theorem mem_ids_foldl_enter :
    a ∈ (entryOf (keys.foldl (enter id) entries) key).ids ↔
      (a = id ∧ key ∈ keys.map Prod.fst) ∨ a ∈ (entryOf entries key).ids := by
  induction keys generalizing entries with
  | nil => simp
  | cons k keys ih =>
    rw [List.foldl_cons, ih, mem_ids_enter, List.map_cons, List.mem_cons]
    tauto

theorem descending_foldl_enter (h : (entryOf entries key).ids.Descending)
    (newest : ∀ a ∈ (entryOf entries key).ids, a ≤ id) :
    (entryOf (keys.foldl (enter id) entries) key).ids.Descending := by
  induction keys generalizing entries with
  | nil => exact h
  | cons k keys ih =>
    rw [List.foldl_cons]
    -- no id under the key is newer, before and after the first entry
    refine ih ?_ fun a ha => ?_
    · by_cases hk : k.1 = key
      · subst hk
        rw [entryOf_enter_self]
        exact IdSet.descending_insertNewest h newest
      · rw [entryOf_enter_ne hk]
        exact h
    · rcases mem_ids_enter.mp ha with ⟨rfl, -⟩ | ha
      · exact le_rfl
      · exact newest a ha

theorem has_foldl_enter {role : KeyRole} :
    (entryOf (keys.foldl (enter id) entries) key).roles.has role = true ↔
      (key, some role) ∈ keys ∨ (entryOf entries key).roles.has role = true := by
  induction keys generalizing entries with
  | nil => simp
  | cons k keys ih =>
    obtain ⟨text, r⟩ := k
    rw [List.foldl_cons, ih, List.mem_cons, Prod.mk.injEq]
    by_cases hk : text = key
    · subst hk
      rw [entryOf_enter_self (text, r)]
      cases r with
      | none => simp
      | some r =>
        simp only [KeyRoles.has_add, Option.some_inj, true_and]
        tauto
    · rw [entryOf_enter_ne hk]
      simp [Ne.symm hk]

/-! ## Ids and metrics -/

/-- The metric that has an id when metrics were given ids in their order. -/
def metricAt (ms : List Metric) (id : SeriesId) : Option Metric :=
  if id < firstId then none else ms[id - firstId]?

variable {ms more : List Metric} {m n : Metric}

theorem metricAt_eq_some :
    metricAt ms id = some m ↔ ∃ i : Nat, id = i + firstId ∧ ms[i]? = some m := by
  rw [metricAt]
  constructor
  · intro h
    split at h
    · exact absurd h (by simp)
    · rename_i hid
      exact ⟨id - firstId, (Nat.sub_add_cancel (Nat.le_of_not_lt hid)).symm, h⟩
  · rintro ⟨i, rfl, h⟩
    rw [if_neg (by simp), Nat.add_sub_cancel, h]

theorem lt_of_metricAt (h : metricAt ms id = some m) : id < ms.length + firstId := by
  obtain ⟨i, rfl, hi⟩ := metricAt_eq_some.mp h
  have := (List.getElem?_eq_some_iff.mp hi).1
  exact Nat.add_lt_add_right this firstId

theorem mem_of_metricAt (h : metricAt ms id = some m) : m ∈ ms := by
  obtain ⟨i, rfl, hi⟩ := metricAt_eq_some.mp h
  exact List.mem_of_getElem? hi

theorem exists_metricAt (h : m ∈ ms) : ∃ id, metricAt ms id = some m := by
  obtain ⟨i, hi⟩ := List.mem_iff_getElem?.mp h
  exact ⟨i + firstId, metricAt_eq_some.mpr ⟨i, rfl, hi⟩⟩

/-- The id of a metric stays its id. -/
theorem metricAt_append (h : id < ms.length + firstId) :
    metricAt (ms ++ more) id = metricAt ms id := by
  unfold metricAt
  split
  · rfl
  · rename_i hid
    rw [List.getElem?_append_left ((Nat.sub_lt_iff_lt_add (Nat.le_of_not_lt hid)).mpr h)]

/-- A metric that is put behind the others gets the next id. -/
theorem metricAt_snoc :
    metricAt (ms ++ [m]) id = some n ↔
      metricAt ms id = some n ∨ (id = ms.length + firstId ∧ n = m) := by
  rw [metricAt_eq_some, metricAt_eq_some]
  constructor
  · rintro ⟨i, rfl, hi⟩
    rw [List.getElem?_append] at hi
    split at hi
    · exact .inl ⟨i, rfl, hi⟩
    · rename_i hlt
      obtain ⟨h0, hm⟩ := List.getElem?_eq_some_iff.mp hi
      simp only [List.length_singleton] at h0
      obtain rfl : i = ms.length := by omega
      simp only [Nat.sub_self, List.getElem_cons_zero] at hm
      exact .inr ⟨rfl, hm.symm⟩
  · rintro (⟨i, rfl, hi⟩ | ⟨rfl, rfl⟩)
    · exact ⟨i, rfl, by rw [List.getElem?_append_left (List.getElem?_eq_some_iff.mp hi).1, hi]⟩
    · exact ⟨ms.length, rfl, by simp⟩

/-! ## The invariant -/

/-- The index holds these metrics, each with the id of its position. -/
structure Indexes (index : TagIndex) (ms : List Metric) : Prop where
  opened : index.closed = false
  wellFormed : ∀ m ∈ ms, m.WellFormed
  distinct : (ms.map Metric.fullName).Nodup
  names : index.names.toList = ms.map Metric.fullName
  entered : ∀ key id, id ∈ (index.entry key).ids ↔
    ∃ m, metricAt ms id = some m ∧ key ∈ (keysOf m).map Prod.fst
  ordered : ∀ key, (index.entry key).ids.Descending
  roles : ∀ key role, (index.entry key).roles.has role = true ↔
    ∃ m ∈ ms, (key, some role) ∈ keysOf m

theorem indexes_empty : Indexes empty [] where
  opened := rfl
  wellFormed := by simp
  distinct := List.nodup_nil
  names := rfl
  entered := by simp [empty, entry, metricAt]
  ordered := by
    intro key
    rw [show (empty.entry key).ids = [] by simp [empty, entry]]
    exact IdSet.descending_nil
  roles := by simp [empty, entry]

variable {index : TagIndex}

namespace Indexes

/-- The full name under an id is that of the metric with the id. -/
theorem fullName?_eq (h : Indexes index ms) (id : SeriesId) :
    index.fullName? id = (metricAt ms id).map Metric.fullName := by
  rw [fullName?, metricAt]
  split
  · rfl
  · rw [← Array.getElem?_toList, h.names, List.getElem?_map]

theorem size_names (h : Indexes index ms) : index.names.size = ms.length := by
  rw [← Array.length_toList, h.names, List.length_map]

/-- The full name decides which metric it is. -/
theorem metricAt_unique (h : Indexes index ms) {b : SeriesId} (hm : metricAt ms a = some m)
    (hn : metricAt ms b = some n) (hname : m.fullName = n.fullName) : a = b := by
  obtain ⟨i, rfl, hi⟩ := metricAt_eq_some.mp hm
  obtain ⟨j, rfl, hj⟩ := metricAt_eq_some.mp hn
  have hi' : (ms.map Metric.fullName)[i]? = some m.fullName := by simp [hi]
  have hj' : (ms.map Metric.fullName)[j]? = some m.fullName := by simp [hj, hname]
  have hlt := (List.getElem?_eq_some_iff.mp hi').1
  rw [(List.getElem?_inj hlt h.distinct).mp (hi'.trans hj'.symm)]

/-- The table finds a metric that is in the index. -/
theorem find?_eq_some (h : Indexes index ms) (hfound : index.find? m = some id) :
    ∃ n, metricAt ms id = some n ∧ n.fullName = m.fullName := by
  have hname := List.find?_some hfound
  rw [beq_iff_eq, h.fullName?_eq, Option.map_eq_some_iff] at hname
  exact hname

theorem find?_eq_none (h : Indexes index ms) (hnone : index.find? m = none) :
    m.fullName ∉ ms.map Metric.fullName := by
  intro hmem
  obtain ⟨n, hn, hname⟩ := List.mem_map.mp hmem
  obtain ⟨id, hid⟩ := exists_metricAt hn
  -- the metric is entered under its full name, so looking there would have found it
  have hin : id ∈ (index.entry m.fullName).ids :=
    (h.entered _ _).mpr ⟨n, hid, by simp [keysOf, hname]⟩
  have hmiss := List.find?_eq_none.mp hnone id hin
  rw [h.fullName?_eq, hid] at hmiss
  exact hmiss (by simp [hname])

/-- A metric that is not there yet is put behind the others. -/
theorem insert (h : Indexes index ms) (hm : m.WellFormed)
    (hfresh : m.fullName ∉ ms.map Metric.fullName) :
    Indexes { index with
      names := index.names.push m.fullName
      entries := (keysOf m).foldl (enter (index.names.size + firstId)) index.entries }
      (ms ++ [m]) where
  opened := h.opened
  wellFormed := by
    intro n hn
    rcases List.mem_append.mp hn with hn | hn
    · exact h.wellFormed n hn
    · exact List.mem_singleton.mp hn ▸ hm
  distinct := by
    rw [List.map_append, List.map_singleton, List.nodup_append]
    refine ⟨h.distinct, List.nodup_singleton _, ?_⟩
    intro a ha b hb
    rw [List.mem_singleton.mp hb]
    exact fun heq => hfresh (heq ▸ ha)
  names := by simp [h.names]
  entered := by
    intro key id
    rw [entry_eq, mem_ids_foldl_enter, ← entry_eq, h.entered, h.size_names]
    constructor
    · rintro (⟨rfl, hkey⟩ | ⟨n, hn, hkey⟩)
      · exact ⟨m, metricAt_snoc.mpr (.inr ⟨rfl, rfl⟩), hkey⟩
      · exact ⟨n, metricAt_snoc.mpr (.inl hn), hkey⟩
    · rintro ⟨n, hn, hkey⟩
      rcases metricAt_snoc.mp hn with hn | ⟨rfl, rfl⟩
      · exact .inr ⟨n, hn, hkey⟩
      · exact .inl ⟨rfl, hkey⟩
  ordered := by
    intro key
    rw [entry_eq]
    refine descending_foldl_enter (h.ordered key) fun a ha => ?_
    obtain ⟨n, hn, -⟩ := (h.entered key a).mp ha
    rw [h.size_names]
    exact Nat.le_of_lt (lt_of_metricAt hn)
  roles := by
    intro key role
    rw [entry_eq, has_foldl_enter, ← entry_eq, h.roles]
    constructor
    · rintro (hkey | ⟨n, hn, hkey⟩)
      · exact ⟨m, by simp, hkey⟩
      · exact ⟨n, List.mem_append_left _ hn, hkey⟩
    · rintro ⟨n, hn, hkey⟩
      rcases List.mem_append.mp hn with hn | hn
      · exact .inr ⟨n, hn, hkey⟩
      · exact .inl (List.mem_singleton.mp hn ▸ hkey)

end Indexes

/-! ## Taking metrics -/

/-- Taking a metric fails, finds the id of the metric, or puts the metric behind the others. -/
theorem getOrCreate_cases (h : Indexes index ms) (hm : m.WellFormed) :
    (∃ e, index.getOrCreate m = (.error e, index)) ∨
    (∃ id n, index.getOrCreate m = (.ok id, index) ∧ metricAt ms id = some n ∧
      n.fullName = m.fullName) ∨
    (∃ index', index.getOrCreate m = (.ok (ms.length + firstId), index') ∧
      Indexes index' (ms ++ [m])) := by
  rw [getOrCreate, if_neg (by simp [h.opened])]
  cases hfind : index.find? m with
  | some id =>
    obtain ⟨n, hn, hname⟩ := h.find?_eq_some hfind
    exact .inr (.inl ⟨id, n, rfl, hn, hname⟩)
  | none =>
    dsimp only
    split
    · exact .inl ⟨_, rfl⟩
    · have hnew := h.insert hm (h.find?_eq_none hfind)
      rw [h.size_names] at hnew ⊢
      exact .inr (.inr ⟨_, rfl, hnew⟩)

/-- There is an id left. -/
def HasRoom (index : TagIndex) : Prop := index.names.size + firstId ≤ maxId

/-- As long as there is an id left, no metric is refused. -/
theorem getOrCreate_of_hasRoom {index' : TagIndex} {e : Error} (h : Indexes index ms)
    (hroom : index.HasRoom) (m : Metric) : index.getOrCreate m ≠ (.error e, index') := by
  rw [getOrCreate, if_neg (by simp [h.opened])]
  split
  · simp
  · have hid : ¬ maxId < index.names.size + firstId := Nat.not_lt.mpr hroom
    simp [hid]

/-- Takes metrics one after another, whatever happens to the ones before, and gives the metrics
that were accepted with their ids. -/
def takeEach (index : TagIndex) : List Metric → List (Metric × SeriesId) × TagIndex
  | [] => ([], index)
  | m :: rest =>
    match index.getOrCreate m with
    | (.ok id, index) =>
      let (taken, index) := index.takeEach rest
      ((m, id) :: taken, index)
    | (.error _, index) => index.takeEach rest

theorem takeEach_append (index : TagIndex) (calls later : List Metric) :
    index.takeEach (calls ++ later) =
      ((index.takeEach calls).1 ++ ((index.takeEach calls).2.takeEach later).1,
        ((index.takeEach calls).2.takeEach later).2) := by
  induction calls generalizing index with
  | nil => rfl
  | cons m calls ih =>
    rw [List.cons_append, takeEach, takeEach]
    split
    · simp only [ih, List.cons_append]
    · exact ih _

/-- What was accepted was among the calls. -/
theorem mem_calls_of_mem_takeEach {calls : List Metric}
    (h : (m, id) ∈ (index.takeEach calls).1) : m ∈ calls := by
  induction calls generalizing index with
  | nil => simp [takeEach] at h
  | cons k calls ih =>
    rw [takeEach] at h
    split at h
    · rcases List.mem_cons.mp h with heq | h
      · exact (Prod.mk.inj heq).1 ▸ List.mem_cons_self
      · exact List.mem_cons_of_mem _ (ih h)
    · exact List.mem_cons_of_mem _ (ih h)

/-- **After any calls the index holds the metrics that were there before and new ones.** What was
taken has the id of a metric with its full name, and each new metric was taken with its id. -/
theorem indexes_takeEach {calls : List Metric} (h : Indexes index ms)
    (hc : ∀ m ∈ calls, m.WellFormed) :
    ∃ more, Indexes (index.takeEach calls).2 (ms ++ more) ∧
      (∀ m id, (m, id) ∈ (index.takeEach calls).1 →
        ∃ n, metricAt (ms ++ more) id = some n ∧ n.fullName = m.fullName) ∧
      ∀ n id, metricAt (ms ++ more) id = some n →
        metricAt ms id = some n ∨ (n, id) ∈ (index.takeEach calls).1 := by
  induction calls generalizing index ms with
  | nil =>
    refine ⟨[], by simpa [takeEach] using h, by simp [takeEach], fun n id hn => .inl ?_⟩
    rwa [List.append_nil] at hn
  | cons m calls ih =>
    obtain ⟨hm, hcalls⟩ := List.forall_mem_cons.mp hc
    rcases getOrCreate_cases h hm with ⟨e, he⟩ | ⟨id, n, hid, hn, hname⟩ | ⟨index', hid, h'⟩
    · simp only [takeEach, he]
      exact ih h hcalls
    · obtain ⟨more, hmore, htaken, hnew⟩ := ih h hcalls
      simp only [takeEach, hid]
      refine ⟨more, hmore, fun k i hk => ?_, fun k i hk => ?_⟩
      · rcases List.mem_cons.mp hk with heq | hk
        · obtain ⟨rfl, rfl⟩ := Prod.mk.inj heq
          exact ⟨n, (metricAt_append (lt_of_metricAt hn)).trans hn, hname⟩
        · exact htaken k i hk
      · exact (hnew k i hk).imp_right (List.mem_cons_of_mem _)
    · obtain ⟨more, hmore, htaken, hnew⟩ := ih h' hcalls
      simp only [takeEach, hid]
      rw [List.append_assoc] at hmore htaken hnew
      refine ⟨[m] ++ more, hmore, fun k i hk => ?_, fun k i hk => ?_⟩
      · rcases List.mem_cons.mp hk with heq | hk
        · obtain ⟨rfl, rfl⟩ := Prod.mk.inj heq
          refine ⟨k, ?_, rfl⟩
          rw [← List.append_assoc, metricAt_append (by simp)]
          exact metricAt_snoc.mpr (.inr ⟨rfl, rfl⟩)
        · exact htaken k i hk
      · rcases hnew k i hk with hold | htook
        · rcases metricAt_snoc.mp hold with hold | ⟨rfl, rfl⟩
          · exact .inl hold
          · exact .inr List.mem_cons_self
        · exact .inr (List.mem_cons_of_mem _ htook)

/-- The metrics were taken with the ids of their positions, and what else was taken has the id of a
metric with its full name. -/
structure Given (ms : List Metric) (taken : List (Metric × SeriesId)) : Prop where
  wellFormed : ∀ m id, (m, id) ∈ taken → m.WellFormed
  mem : ∀ m id, metricAt ms id = some m → (m, id) ∈ taken
  same : ∀ m id, (m, id) ∈ taken → ∃ n, metricAt ms id = some n ∧ n.fullName = m.fullName

/-- After any calls the index holds some of the metrics that were taken, one for each id. -/
theorem exists_given {calls : List Metric}
    (built : ∀ m ∈ calls, ∃ name tags, Metric.new name tags = .ok m) :
    ∃ ms, Indexes (empty.takeEach calls).2 ms ∧ Given ms (empty.takeEach calls).1 := by
  have hwf : ∀ m ∈ calls, m.WellFormed := by
    intro m hm
    obtain ⟨name, tags, hnew⟩ := built m hm
    exact Metric.wellFormed_of_new hnew
  obtain ⟨ms, hms, htaken, hnew⟩ := indexes_takeEach indexes_empty hwf
  rw [List.nil_append] at hms htaken hnew
  refine ⟨ms, hms, fun m id hm => hwf m (mem_calls_of_mem_takeEach hm), fun m id hm => ?_, htaken⟩
  refine (hnew m id hm).resolve_left fun hold => ?_
  simp [metricAt] at hold

end TagIndex

end TimeSeries
