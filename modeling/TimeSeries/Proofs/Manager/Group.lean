import Mathlib
import TimeSeries.Manager.Query

/-!
# Putting the points of a metric together

The answers of several chunks are put together metric by metric: afterwards each metric has one
place, and there are all its points, in the order in which they came.
-/

namespace TimeSeries

namespace MetricPoints

variable {all groups : List MetricPoints} {s t : MetricPoints} {name : String}

/-- All points of a metric in some answers, in their order. -/
def pointsOf (all : List MetricPoints) (name : String) : List Point :=
  (all.filter (·.metric = name)).flatMap (·.points)

theorem pointsOf_append (all more : List MetricPoints) (name : String) :
    pointsOf (all ++ more) name = pointsOf all name ++ pointsOf more name := by
  rw [pointsOf, List.filter_append, List.flatMap_append]
  rfl

theorem pointsOf_flatMap {α : Type} (xs : List α) (answer : α → List MetricPoints) (name : String) :
    pointsOf (xs.flatMap answer) name = xs.flatMap fun x => pointsOf (answer x) name := by
  rw [pointsOf, List.filter_flatMap, List.flatMap_assoc]
  rfl

theorem pointsOf_eq_nil (h : name ∉ all.map (·.metric)) : pointsOf all name = [] := by
  rw [pointsOf, List.filter_eq_nil_iff.mpr, List.flatMap_nil]
  intro x hx heq
  exact h (List.mem_map.mpr ⟨x, hx, by simpa using heq⟩)

theorem pointsOf_singleton_self : pointsOf [s] s.metric = s.points := by simp [pointsOf]

theorem pointsOf_singleton_ne (h : s.metric ≠ name) : pointsOf [s] name = [] :=
  pointsOf_eq_nil (by simpa using Ne.symm h)

theorem metrics_addTo : (s.addTo groups).map (·.metric) =
    if s.metric ∈ groups.map (·.metric) then groups.map (·.metric)
    else groups.map (·.metric) ++ [s.metric] := by
  induction groups with
  | nil => simp [addTo]
  | cons t rest ih =>
    rw [addTo]
    split
    · rename_i heq
      simp [heq]
    · rename_i hne
      rw [List.map_cons, ih, List.map_cons]
      by_cases hmem : s.metric ∈ rest.map (·.metric)
      · rw [if_pos hmem, if_pos (List.mem_cons_of_mem _ hmem)]
      · rw [if_neg hmem, if_neg (mt List.mem_cons.mp (not_or.mpr ⟨Ne.symm hne, hmem⟩)),
          List.cons_append]

theorem nodup_addTo (h : (groups.map (·.metric)).Nodup) :
    ((s.addTo groups).map (·.metric)).Nodup := by
  rw [metrics_addTo]
  split
  · exact h
  · rename_i hnew
    refine List.nodup_append.mpr ⟨h, List.nodup_singleton _, fun a ha b hb => ?_⟩
    rw [List.mem_singleton.mp hb]
    exact fun heq => hnew (heq ▸ ha)

/-- What is in the place of a metric after points were added to the places. -/
theorem mem_addTo (h : (groups.map (·.metric)).Nodup) (ht : t ∈ s.addTo groups) :
    (t.metric ≠ s.metric ∧ t ∈ groups) ∨
    (t.metric = s.metric ∧ ∃ u ∈ groups, u.metric = s.metric ∧ t.points = u.points ++ s.points) ∨
    (t = s ∧ s.metric ∉ groups.map (·.metric)) := by
  induction groups with
  | nil => exact .inr (.inr ⟨List.mem_singleton.mp ht, by simp⟩)
  | cons u rest ih =>
    obtain ⟨hu, hrest⟩ := List.nodup_cons.mp h
    rw [addTo] at ht
    split at ht
    · rename_i heq
      rcases List.mem_cons.mp ht with rfl | ht
      · exact .inr (.inl ⟨heq, u, List.mem_cons_self, heq, rfl⟩)
      · refine .inl ⟨fun hts => hu ?_, List.mem_cons_of_mem _ ht⟩
        exact List.mem_map.mpr ⟨t, ht, hts.trans heq.symm⟩
    · rename_i hne
      rcases List.mem_cons.mp ht with rfl | ht
      · exact .inl ⟨hne, List.mem_cons_self⟩
      · rcases ih hrest ht with ⟨hts, hmem⟩ | ⟨hts, v, hv, hvs, hp⟩ | ⟨hts, hnew⟩
        · exact .inl ⟨hts, List.mem_cons_of_mem _ hmem⟩
        · exact .inr (.inl ⟨hts, v, List.mem_cons_of_mem _ hv, hvs, hp⟩)
        · refine .inr (.inr ⟨hts, ?_⟩)
          simp only [List.map_cons, List.mem_cons, not_or]
          exact ⟨Ne.symm hne, hnew⟩

theorem group_snoc : group (all ++ [s]) = s.addTo (group all) := by
  rw [group, List.foldl_append]
  rfl

/-- **Each metric has one place, with all its points.** -/
theorem group_spec (all : List MetricPoints) :
    ((group all).map (·.metric)).Nodup ∧
    (∀ name, name ∈ (group all).map (·.metric) ↔ name ∈ all.map (·.metric)) ∧
    ∀ t ∈ group all, t.points = pointsOf all t.metric := by
  -- each answer is added to the places that the ones before it have made
  induction all using List.reverseRecOn with
  | nil => simp [group]
  | append_singleton all s ih =>
    obtain ⟨hnodup, hnames, hpoints⟩ := ih
    rw [group_snoc]
    refine ⟨nodup_addTo hnodup, fun name => ?_, fun t ht => ?_⟩
    · rw [metrics_addTo, List.map_append, List.map_singleton, List.mem_append,
        List.mem_singleton]
      split
      · rename_i hmem
        rw [hnames]
        exact ⟨.inl, fun hn => hn.elim id fun heq => heq ▸ (hnames _).mp hmem⟩
      · rw [List.mem_append, List.mem_singleton, hnames]
    · rw [pointsOf_append]
      rcases mem_addTo hnodup ht with ⟨hne, hmem⟩ | ⟨heq, u, hu, hus, hp⟩ | ⟨rfl, hnew⟩
      · rw [pointsOf_singleton_ne (Ne.symm hne), List.append_nil]
        exact hpoints t hmem
      · rw [heq, pointsOf_singleton_self, hp, hpoints u hu, hus]
      · rw [pointsOf_singleton_self, pointsOf_eq_nil fun hmem => hnew ((hnames _).mpr hmem),
          List.nil_append]

end MetricPoints

end TimeSeries
