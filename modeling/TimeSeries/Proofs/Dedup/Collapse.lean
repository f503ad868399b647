import Mathlib
import TimeSeries.Proofs.Dedup

/-!
# Keeping last points by sorting

`Point.dedup` takes points one by one. The same comes of a stable sort by time, in which points of
one time stay in the order that they had, and of a pass over the sorted points in which each takes
the place of the point before it if that has its time. The sort moves points of different times past
each other, and so it leaves the last point of each time the last one of its time.

What is kept depends on these last points alone. So the points that were kept of a list stand for
the whole list when others come behind it.
-/

namespace TimeSeries.Point

variable {ps qs : List Point} {p x : Point}

/-! ## Ascending times -/

/-- Points in ascending order of time, at most one of each time. -/
def Ascending (ps : List Point) : Prop := ps.Pairwise fun p q => p.time < q.time

/-- Where times ascend, every point is the last one of its time. -/
theorem Ascending.lastAt_iff (h : Ascending ps) : LastAt ps p ↔ p ∈ ps := by
  refine ⟨LastAt.mem, fun hp => ?_⟩
  obtain ⟨before, after, rfl⟩ := List.append_of_mem hp
  have hbehind := (List.pairwise_cons.mp (List.pairwise_append.mp h).2.1).1
  exact ⟨before, after, rfl, fun q hq => Int.ne_of_gt (hbehind q hq)⟩

/-- Points with ascending times are settled by which points they are. -/
theorem Ascending.eq_of_mem_iff (hp : Ascending ps) (hq : Ascending qs)
    (h : ∀ p, p ∈ ps ↔ p ∈ qs) : ps = qs := by
  have nodup {list : List Point} (hlist : Ascending list) : list.Nodup :=
    hlist.imp fun hlt heq => Int.ne_of_lt hlt (congrArg time heq)
  have hperm := (List.perm_ext_iff_of_nodup (nodup hp) (nodup hq)).mpr h
  exact hperm.eq_of_pairwise (fun a b _ _ hab hba => absurd hab (Int.lt_asymm hba)) hp hq

/-! ## A stable sort -/

/-- Points in the order of their times, and those of one time in the order that they had. -/
def sortByTime (ps : List Point) : List Point := ps.mergeSort fun p q => decide (p.time ≤ q.time)

private theorem le_time_trans (p q r : Point) : decide (p.time ≤ q.time) = true →
    decide (q.time ≤ r.time) = true → decide (p.time ≤ r.time) = true := by
  simp only [decide_eq_true_eq]
  exact Int.le_trans

private theorem le_time_total (p q : Point) :
    (decide (p.time ≤ q.time) || decide (q.time ≤ p.time)) = true := by
  simpa using Int.le_total p.time q.time

theorem pairwise_sortByTime (ps : List Point) :
    (sortByTime ps).Pairwise fun p q => p.time ≤ q.time :=
  (List.pairwise_mergeSort le_time_trans le_time_total ps).imp of_decide_eq_true

/-- **Sorting is stable**: the points of one time are as they were. -/
theorem filter_sortByTime (ps : List Point) (t : Int) :
    (sortByTime ps).filter (fun p => p.time = t) = ps.filter fun p => p.time = t := by
  induction ps with
  | nil => rw [sortByTime, List.mergeSort_nil]
  | cons p ps ih =>
    obtain ⟨front, back, hsorted, hrest, hfront⟩ :=
      List.mergeSort_cons le_time_trans le_time_total p ps
    rw [sortByTime, hrest, List.filter_append] at ih
    rw [sortByTime, hsorted, List.filter_append, List.filter_cons, List.filter_cons, ← ih]
    by_cases ht : p.time = t
    · -- what stands before the new point is earlier than it
      have hnone : front.filter (fun q => q.time = t) = [] := by
        refine List.filter_eq_nil_iff.mpr fun q hq => ?_
        have hlt := hfront q hq
        simp only [Bool.not_eq_true', decide_eq_false_iff_not, Int.not_le] at hlt
        simpa [ht] using Int.ne_of_lt (ht ▸ hlt)
      simp [ht, hnone]
    · simp [ht]

theorem lastAt_sortByTime : LastAt (sortByTime ps) p ↔ LastAt ps p := by
  have hfilter (list : List Point) :
      LastAt (list.filter fun q => q.time = p.time) p ↔ LastAt list p := by
    rw [lastAt_filter fun t => decide (t = p.time)]
    simp
  rw [← hfilter, filter_sortByTime, hfilter]

/-! ## Collapsing -/

/-- Puts a point behind others, in the place of the last of them if that has its time. -/
def overwrite (kept : List Point) (p : Point) : List Point :=
  match kept.getLast? with
  | some q => if q.time = p.time then kept.dropLast ++ [p] else kept ++ [p]
  | none => [p]

/-- What is left of points when each overwrites the one before it that has its time. -/
def collapse (ps : List Point) : List Point := ps.foldl overwrite []

theorem overwrite_nil : overwrite [] p = [p] := rfl

theorem overwrite_snoc : overwrite (ps ++ [x]) p =
    if x.time = p.time then ps ++ [p] else ps ++ [x] ++ [p] := by
  rw [overwrite, List.getLast?_concat, List.dropLast_concat]

/-- Putting a point behind points that are not later. -/
theorem Ascending.overwrite (h : Ascending ps) (hle : ∀ q ∈ ps, q.time ≤ x.time) :
    Ascending (overwrite ps x) ∧
      ∀ p, p ∈ overwrite ps x ↔ p = x ∨ (p ∈ ps ∧ x.time ≠ p.time) := by
  have snoc {list : List Point} (hlist : Ascending list) (hlt : ∀ q ∈ list, q.time < x.time) :
      Ascending (list ++ [x]) :=
    List.pairwise_append.mpr ⟨hlist, List.pairwise_singleton _ _, by simpa using hlt⟩
  rcases List.eq_nil_or_concat ps with rfl | ⟨front, last, rfl⟩
  · simp [overwrite_nil, Ascending]
  rw [List.concat_eq_append] at h hle ⊢
  obtain ⟨hfront, -, hbefore⟩ := List.pairwise_append.mp h
  simp only [List.mem_singleton, forall_eq] at hbefore
  rw [overwrite_snoc]
  split
  · rename_i hsame
    have hlt : ∀ q ∈ front, q.time < x.time := fun q hq => hsame ▸ hbefore q hq
    refine ⟨snoc hfront hlt, fun p => ?_⟩
    simp only [List.mem_append, List.mem_singleton]
    constructor
    · rintro (hp | rfl)
      · exact .inr ⟨.inl hp, Int.ne_of_gt (hlt p hp)⟩
      · exact .inl rfl
    · rintro (rfl | ⟨hp | rfl, hne⟩)
      · exact .inr rfl
      · exact .inl hp
      · exact absurd hsame.symm hne
  · rename_i hother
    have hlast : last.time < x.time := lt_of_le_of_ne (hle last (by simp)) hother
    have hlt : ∀ q ∈ front ++ [last], q.time < x.time := by
      intro q hq
      rcases List.mem_append.mp hq with hq | hq
      · exact Int.lt_trans (hbefore q hq) hlast
      · exact List.mem_singleton.mp hq ▸ hlast
    refine ⟨snoc h hlt, fun p => ?_⟩
    rw [List.mem_append, List.mem_singleton, or_comm]
    exact or_congr_right ⟨fun hp => ⟨hp, Int.ne_of_gt (hlt p hp)⟩, And.left⟩

/-- Of points in the order of their times, collapsing leaves the last one of each time. -/
theorem collapse_spec (h : ps.Pairwise fun p q => p.time ≤ q.time) :
    Ascending (collapse ps) ∧ ∀ p, p ∈ collapse ps ↔ LastAt ps p := by
  induction ps using List.reverseRecOn with
  | nil => exact ⟨.nil, fun p => by simp [collapse, not_lastAt_nil]⟩
  | append_singleton ps x ih =>
    obtain ⟨hps, -, hle⟩ := List.pairwise_append.mp h
    obtain ⟨hascending, hmem⟩ := ih hps
    have hearlier : ∀ q ∈ collapse ps, q.time ≤ x.time := fun q hq =>
      hle q ((hmem q).mp hq).mem x (by simp)
    obtain ⟨hafter, hmem'⟩ := hascending.overwrite hearlier
    rw [collapse, List.foldl_append, List.foldl_cons, List.foldl_nil]
    refine ⟨hafter, fun p => (hmem' p).trans ?_⟩
    rw [hmem, lastAt_snoc]

/-! ## Lists that come to the same -/

theorem ascending_dedup (ps : List Point) : Ascending (dedup ps) := pairwise_dedup ps

/-- What is kept depends on the last points alone. -/
theorem dedup_congr (h : ∀ p, LastAt ps p ↔ LastAt qs p) : dedup ps = dedup qs :=
  (ascending_dedup ps).eq_of_mem_iff (ascending_dedup qs) fun p =>
    mem_dedup.trans ((h p).trans mem_dedup.symm)

theorem lastAt_dedup : LastAt (dedup ps) p ↔ LastAt ps p :=
  (ascending_dedup ps).lastAt_iff.trans mem_dedup

theorem dedup_eq_collapse (ps : List Point) : dedup ps = collapse (sortByTime ps) := by
  obtain ⟨hascending, hmem⟩ := collapse_spec (pairwise_sortByTime ps)
  refine (ascending_dedup ps).eq_of_mem_iff hascending fun p => ?_
  rw [mem_dedup, hmem, lastAt_sortByTime]

theorem dedup_append_dedup (ps qs : List Point) : dedup (dedup ps ++ qs) = dedup (ps ++ qs) :=
  dedup_congr fun p => by rw [lastAt_append, lastAt_append, lastAt_dedup]

/-- **The last point of each time is kept.** The times ascend and are just those that there were,
and each has the last of its points, bit by bit. A stable sort and a pass that overwrites come to
the same points. When others follow, it makes no difference whether those in front have been sorted
out before. -/
theorem dedup_keeps_last (ps : List Point) :
    Ascending (dedup ps) ∧
    (∀ t, (∃ p ∈ dedup ps, p.time = t) ↔ ∃ p ∈ ps, p.time = t) ∧
    (∀ p, p ∈ dedup ps ↔ LastAt ps p) ∧
    dedup ps = collapse (sortByTime ps) ∧
    ∀ qs, dedup (ps ++ qs) = dedup (dedup ps ++ qs) :=
  ⟨ascending_dedup ps, fun _ => exists_mem_dedup, fun _ => mem_dedup, dedup_eq_collapse ps,
    fun qs => (dedup_append_dedup ps qs).symm⟩

/-- A NaN comes behind a zero of the same time. -/
example : dedup [⟨7, 0⟩, ⟨3, 1⟩, ⟨7, 0x7FF8000000000001⟩] =
    [⟨3, 1⟩, ⟨7, 0x7FF8000000000001⟩] := by decide

end TimeSeries.Point
