import Mathlib
import TimeSeries.Proofs.TagIndex.Invariant

/-!
# How metrics are numbered

Metrics get the ids 2, 3, 4 and so on, in the order in which they first come. Which metrics are the
same is decided by their full names, but it can be said without them: they have the same name and
the same tags, whatever the order in which the tags were given.

An id is looked up in the table of all keys. What is found there under a full name may also have
been entered by metrics of which it is only a part, as their name or as one of their tags, or by
one that happens to be named like that. So it is the invariant of the whole table that makes an id
the id of one metric.
-/

namespace TimeSeries

/-- What tells metrics apart: the name, and the tags without their order. -/
def Metric.identity (m : Metric) : String × Multiset Tag := (m.name, m.tags)

theorem Metric.identity_eq_iff {m n : Metric} :
    m.identity = n.identity ↔ m.name = n.name ∧ m.tags.Perm n.tags := by
  rw [identity, identity, Prod.mk.injEq, Multiset.coe_eq_coe]

theorem Metric.WellFormed.identity_eq_iff_fullName {m n : Metric} (hm : m.WellFormed)
    (hn : n.WellFormed) : m.identity = n.identity ↔ m.fullName = n.fullName := by
  rw [Metric.identity_eq_iff, hm.fullName_eq_iff hn]

namespace TagIndex

variable {calls later ms : List Metric} {m n : Metric} {index : TagIndex} {id : SeriesId}

/-! ## The order of arrival -/

/-- The metrics of some calls in the order in which they first came. -/
def arrivals (calls : List Metric) : List (String × Multiset Tag) :=
  (calls.map Metric.identity).eraseDups

/-- The id that belongs to a metric after some calls. -/
def number (calls : List Metric) (m : Metric) : SeriesId :=
  (arrivals calls).idxOf m.identity + firstId

theorem mem_arrivals (h : m ∈ calls) : m.identity ∈ arrivals calls :=
  List.mem_eraseDups.mpr (List.mem_map_of_mem h)

theorem arrivals_append (calls later : List Metric) :
    ∃ new, arrivals (calls ++ later) = arrivals calls ++ new := by
  rw [arrivals, List.map_append, List.eraseDups_append]
  exact ⟨_, rfl⟩

theorem arrivals_concat (calls : List Metric) (m : Metric) :
    arrivals (calls ++ [m]) =
      if m.identity ∈ arrivals calls then arrivals calls else arrivals calls ++ [m.identity] := by
  have hsplit : arrivals (calls ++ [m]) =
      arrivals calls ++ ([m.identity].removeAll (calls.map Metric.identity)).eraseDups := by
    rw [arrivals, List.map_append, List.eraseDups_append]
    rfl
  have hmem : m.identity ∈ arrivals calls ↔ m.identity ∈ calls.map Metric.identity :=
    List.mem_eraseDups
  rw [hsplit]
  by_cases hin : m.identity ∈ calls.map Metric.identity
  · rw [if_pos (hmem.mpr hin), List.removeAll, List.filter_cons_of_neg (by simpa using hin)]
    exact List.append_nil _
  · rw [if_neg (hin ∘ hmem.mp), List.removeAll, List.filter_cons_of_pos (by simpa using hin)]
    rfl

/-- The id of a metric stays its id. -/
theorem number_append (h : m ∈ calls) : number (calls ++ later) m = number calls m := by
  obtain ⟨new, hnew⟩ := arrivals_append calls later
  rw [number, hnew, List.idxOf_append_of_mem (mem_arrivals h), number]

theorem number_eq_iff (h : m ∈ calls) :
    number calls m = number calls n ↔ m.name = n.name ∧ m.tags.Perm n.tags := by
  rw [number, number, Nat.add_right_cancel_iff, List.idxOf_inj (mem_arrivals h),
    Metric.identity_eq_iff]

/-! ## The ids of the index -/

theorem Indexes.nodup_identity (h : Indexes index ms) : (ms.map Metric.identity).Nodup := by
  refine h.distinct.of_map.map_on fun x hx y hy heq => ?_
  refine List.inj_on_of_nodup_map h.distinct hx hy ?_
  exact ((h.wellFormed x hx).identity_eq_iff_fullName (h.wellFormed y hy)).mp heq

/-- The index holds the metrics of some calls, in the order in which they first came. -/
def Numbers (index : TagIndex) (calls : List Metric) : Prop :=
  ∃ ms, Indexes index ms ∧ ms.map Metric.identity = arrivals calls

theorem numbers_empty : Numbers empty [] := ⟨[], indexes_empty, rfl⟩

/-- A metric with the full name of one that has an id has come, and the id is its number. -/
theorem Indexes.eq_number (h : Indexes index ms)
    (harrived : ms.map Metric.identity = arrivals calls) (hm : m.WellFormed)
    (hn : metricAt ms id = some n) (hname : n.fullName = m.fullName) :
    m.identity ∈ arrivals calls ∧ id = number calls m := by
  obtain ⟨i, rfl, hi⟩ := metricAt_eq_some.mp hn
  obtain ⟨hlt, hat⟩ := List.getElem?_eq_some_iff.mp hi
  have hsame := ((h.wellFormed n (mem_of_metricAt hn)).identity_eq_iff_fullName hm).mpr hname
  have hlt' : i < (ms.map Metric.identity).length := by rwa [List.length_map]
  have hget : (ms.map Metric.identity)[i] = m.identity := by rw [List.getElem_map, hat, hsame]
  have hpos := h.nodup_identity.idxOf_getElem i hlt'
  rw [hget, harrived] at hpos
  refine ⟨?_, by rw [number, hpos]⟩
  rw [← harrived, ← hget]
  exact List.getElem_mem hlt'

/-- **What is found under a full name is the number of the metric**, and only of one that came. -/
theorem Numbers.find?_eq (h : Numbers index calls) (hm : m.WellFormed) :
    index.find? m = if m.identity ∈ arrivals calls then some (number calls m) else none := by
  obtain ⟨ms, hms, harrived⟩ := h
  cases hfind : index.find? m with
  | some id =>
    obtain ⟨n, hn, hname⟩ := hms.find?_eq_some hfind
    obtain ⟨hin, rfl⟩ := hms.eq_number harrived hm hn hname
    rw [if_pos hin]
  | none =>
    rw [if_neg]
    intro hin
    rw [← harrived] at hin
    obtain ⟨n, hn, hsame⟩ := List.mem_map.mp hin
    have hname := ((hms.wellFormed n hn).identity_eq_iff_fullName hm).mp hsame
    exact hms.find?_eq_none hfind (hname ▸ List.mem_map_of_mem hn)

/-- A metric that comes is given its number. -/
theorem Numbers.getOrCreate (h : Numbers index calls) (hm : m.WellFormed)
    (hroom : index.HasRoom) :
    ∃ index', index.getOrCreate m = (.ok (number (calls ++ [m]) m), index') ∧
      Numbers index' (calls ++ [m]) := by
  obtain ⟨ms, hms, harrived⟩ := h
  have hlater := arrivals_concat calls m
  rcases getOrCreate_cases hms hm with ⟨e, he⟩ | ⟨id, n, hid, hn, hname⟩ | ⟨index', hid, hms'⟩
  · exact absurd he (getOrCreate_of_hasRoom hms hroom m)
  · obtain ⟨hin, -⟩ := hms.eq_number harrived hm hn hname
    rw [if_pos hin, ← harrived] at hlater
    obtain ⟨-, rfl⟩ := hms.eq_number hlater.symm hm hn hname
    exact ⟨index, hid, ms, hms, hlater.symm⟩
  · have hnew : m.identity ∉ arrivals calls := by
      intro hin
      have hdistinct := hms'.nodup_identity
      rw [List.map_append, harrived, List.nodup_append] at hdistinct
      exact hdistinct.2.2 _ hin _ List.mem_cons_self rfl
    rw [if_neg hnew, ← harrived, ← List.map_singleton, ← List.map_append] at hlater
    have hlast : metricAt (ms ++ [m]) (ms.length + firstId) = some m :=
      metricAt_snoc.mpr (.inr ⟨rfl, rfl⟩)
    obtain ⟨-, hnumber⟩ := hms'.eq_number hlater.symm hm hlast rfl
    exact ⟨index', hnumber ▸ hid, ms ++ [m], hms', hlater.symm⟩

/-- **Every call is answered with the number of its metric.** -/
theorem numbers_takeEach (hwf : ∀ m ∈ calls, m.WellFormed)
    (hfew : (arrivals calls).length < 2 ^ 32 - 2) :
    (empty.takeEach calls).1 = calls.map (fun m => (m, number calls m)) ∧
      Numbers (empty.takeEach calls).2 calls := by
  induction calls using List.reverseRecOn with
  | nil => exact ⟨rfl, numbers_empty⟩
  | append_singleton calls m ih =>
    obtain ⟨new, hnew⟩ := arrivals_append calls [m]
    have hfewer : (arrivals calls).length < 2 ^ 32 - 2 := by
      rw [hnew, List.length_append] at hfew
      omega
    obtain ⟨htaken, hnumbers⟩ := ih (fun k hk => hwf k (List.mem_append_left _ hk)) hfewer
    have hroom : (empty.takeEach calls).2.HasRoom := by
      obtain ⟨ms, hms, harrived⟩ := hnumbers
      rw [← harrived, List.length_map, ← hms.size_names] at hfewer
      rw [HasRoom, firstId, maxId]
      omega
    obtain ⟨index', hget, hnumbers'⟩ :=
      hnumbers.getOrCreate (hwf m (List.mem_append_right _ List.mem_cons_self)) hroom
    rw [takeEach_append, takeEach, hget]
    refine ⟨?_, hnumbers'⟩
    rw [htaken, List.map_append]
    refine congrArg₂ _ (List.map_congr_left fun k hk => ?_) rfl
    rw [number_append hk]

/-- **Metrics are numbered from 2 on in the order in which they first come.** This is so for any
calls with metrics that were made from a name and written tags, as long as there are ids for all of
them. Each call is answered with the number of its metric, and two numbers are the same just if the
metrics have one name and the same tags in any order. After the calls, exactly the metrics that
came are found, with their numbers, and under the number of a metric there is its full name. -/
theorem takeEach_eq_number (built : ∀ m ∈ calls, ∃ name tags, Metric.new name tags = .ok m)
    (hfew : (arrivals calls).length < 2 ^ 32 - 2) :
    let index := (empty.takeEach calls).2
    (empty.takeEach calls).1 = calls.map (fun m => (m, number calls m)) ∧
    (∀ m ∈ calls, ∀ n,
      number calls m = number calls n ↔ m.name = n.name ∧ m.tags.Perm n.tags) ∧
    (∀ m, (∃ name tags, Metric.new name tags = .ok m) →
      index.find? m = if m.identity ∈ arrivals calls then some (number calls m) else none) ∧
    ∀ m ∈ calls, index.fullName? (number calls m) = some m.fullName := by
  intro index
  have hwf : ∀ m ∈ calls, m.WellFormed := by
    intro m hm
    obtain ⟨name, tags, hnew⟩ := built m hm
    exact Metric.wellFormed_of_new hnew
  obtain ⟨htaken, hnumbers⟩ := numbers_takeEach hwf hfew
  refine ⟨htaken, fun m hm n => number_eq_iff hm, ?_, fun m hm => ?_⟩
  · intro m hbuilt
    obtain ⟨name, tags, hnew⟩ := hbuilt
    exact hnumbers.find?_eq (Metric.wellFormed_of_new hnew)
  · -- the name under the number is what the look-up compared
    have hfound := hnumbers.find?_eq (hwf m hm)
    rw [if_pos (mem_arrivals hm)] at hfound
    have hname := List.find?_some hfound
    exact beq_iff_eq.mp hname

/-- The second metric is named like a tag of the first, and the third is the first with its tags
in another order. Only of a part of the first there is none. -/
theorem takeEach_eq_number_sample :
    let first : Metric := ⟨"cpu", [⟨"host", "b"⟩, ⟨"host", "a"⟩]⟩
    let third : Metric := ⟨"cpu", [⟨"host", "a"⟩, ⟨"host", "b"⟩]⟩
    let calls := [first, ⟨"host=b", []⟩, third]
    (empty.takeEach calls).1 = [(first, 2), (⟨"host=b", []⟩, 3), (third, 2)] ∧
    (empty.takeEach calls).2.find? ⟨"host=b", []⟩ = some 3 ∧
    (empty.takeEach calls).2.find? ⟨"host", []⟩ = none := by
  intro first third calls
  have built : ∀ m ∈ calls, ∃ name tags, Metric.new name tags = .ok m := by
    intro m hm
    simp only [calls, List.mem_cons, List.not_mem_nil, or_false] at hm
    rcases hm with rfl | rfl | rfl
    · exact ⟨"cpu", ["host=b", "host=a"], rfl⟩
    · exact ⟨"host=b", [], rfl⟩
    · exact ⟨"cpu", ["host=a", "host=b"], rfl⟩
  have hfew : (arrivals calls).length < 2 ^ 32 - 2 := by decide +kernel
  obtain ⟨htaken, -, hfind, -⟩ := takeEach_eq_number built hfew
  have hnumbers : calls.map (fun m => (m, number calls m)) =
      [(first, 2), (⟨"host=b", []⟩, 3), (third, 2)] := by
    decide +kernel
  refine ⟨htaken.trans hnumbers, ?_, ?_⟩
  · rw [hfind ⟨"host=b", []⟩ ⟨"host=b", [], rfl⟩]
    decide +kernel
  · rw [hfind ⟨"host", []⟩ ⟨"host", [], rfl⟩]
    decide +kernel

end TagIndex

end TimeSeries
