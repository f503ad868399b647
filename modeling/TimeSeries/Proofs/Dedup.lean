import Mathlib
import TimeSeries.Point

/-!
# The last point of each time

`LastAt ps p` says that `p` is in a list of points and that no point behind it has its time. Putting
points together and picking points by their time act on this in a simple way, and the points that
are kept by `Point.dedup` are just the last ones, in ascending order of time.
-/

namespace TimeSeries

/-- How a list with one more element comes apart around an element. -/
theorem snoc_eq_append_cons {α : Type} {xs before after : List α} {x y : α} :
    xs ++ [x] = before ++ y :: after ↔
      (xs = before ∧ x = y ∧ after = []) ∨
        ∃ rest, after = rest ++ [x] ∧ xs = before ++ y :: rest := by
  constructor
  · intro h
    rcases List.eq_nil_or_concat after with rfl | ⟨rest, z, rfl⟩
    · obtain ⟨hxs, hx⟩ := List.append_inj' h rfl
      exact .inl ⟨hxs, List.singleton_inj.mp hx, rfl⟩
    · rw [List.concat_eq_append, ← List.cons_append, ← List.append_assoc] at h
      obtain ⟨hxs, hx⟩ := List.append_inj' h rfl
      exact .inr ⟨rest, by rw [List.concat_eq_append, List.singleton_inj.mp hx], hxs⟩
  · rintro (⟨rfl, rfl, rfl⟩ | ⟨rest, rfl, rfl⟩)
    · rfl
    · rw [List.append_assoc, List.cons_append]

namespace Point

/-- A point that is the last one of its time. -/
def LastAt (ps : List Point) (p : Point) : Prop :=
  ∃ before after, ps = before ++ p :: after ∧ ∀ q ∈ after, q.time ≠ p.time

variable {ps : List Point} {p q : Point}

theorem not_lastAt_nil : ¬ LastAt [] p := by
  rintro ⟨before, after, h, -⟩
  simp at h

theorem LastAt.mem (h : LastAt ps p) : p ∈ ps := by
  obtain ⟨before, after, rfl, -⟩ := h
  simp

theorem lastAt_snoc : LastAt (ps ++ [q]) p ↔ p = q ∨ (LastAt ps p ∧ q.time ≠ p.time) := by
  constructor
  · rintro ⟨before, after, h, hlast⟩
    rcases snoc_eq_append_cons.mp h with ⟨-, rfl, -⟩ | ⟨rest, rfl, hps⟩
    · exact .inl rfl
    · exact .inr ⟨⟨before, rest, hps, fun x hx => hlast x (List.mem_append_left _ hx)⟩,
        hlast q (by simp)⟩
  · rintro (rfl | ⟨⟨before, after, rfl, hlast⟩, hne⟩)
    · exact ⟨ps, [], rfl, by simp⟩
    · refine ⟨before, after ++ [q], by simp, fun x hx => ?_⟩
      rcases List.mem_append.mp hx with hx | hx
      · exact hlast x hx
      · exact List.mem_singleton.mp hx ▸ hne

/-- Some point is the last one of each time that occurs. -/
theorem exists_lastAt (h : p ∈ ps) : ∃ q, LastAt ps q ∧ q.time = p.time := by
  induction ps using List.reverseRecOn with
  | nil => exact absurd h (by simp)
  | append_singleton ps x ih =>
    by_cases hx : x.time = p.time
    · exact ⟨x, lastAt_snoc.mpr (.inl rfl), hx⟩
    · rcases List.mem_append.mp h with h | h
      · obtain ⟨q, hq, hqt⟩ := ih h
        exact ⟨q, lastAt_snoc.mpr (.inr ⟨hq, by rw [hqt]; exact hx⟩), hqt⟩
      · exact absurd (List.mem_singleton.mp h ▸ rfl) hx

/-- Picking points by their time keeps the last ones. -/
theorem lastAt_filter (pick : Int → Bool) :
    LastAt (ps.filter fun q => pick q.time) p ↔ pick p.time = true ∧ LastAt ps p := by
  induction ps using List.reverseRecOn with
  | nil => simp [not_lastAt_nil]
  | append_singleton ps x ih =>
    rw [List.filter_append, lastAt_snoc]
    by_cases hx : pick x.time = true
    · rw [List.filter_singleton, hx, cond_true, lastAt_snoc, ih]
      constructor
      · rintro (rfl | ⟨⟨hp, hlast⟩, hne⟩)
        · exact ⟨hx, .inl rfl⟩
        · exact ⟨hp, .inr ⟨hlast, hne⟩⟩
      · rintro ⟨hp, rfl | ⟨hlast, hne⟩⟩
        · exact .inl rfl
        · exact .inr ⟨⟨hp, hlast⟩, hne⟩
    · rw [List.filter_singleton, eq_false_of_ne_true hx, cond_false, List.append_nil, ih]
      constructor
      · rintro ⟨hp, hlast⟩
        exact ⟨hp, .inr ⟨hlast, fun heq => hx (heq ▸ hp)⟩⟩
      · rintro ⟨hp, rfl | ⟨hlast, -⟩⟩
        · exact absurd hp hx
        · exact ⟨hp, hlast⟩

/-- A point of the front of a list is a last one if its time does not come again in the back. -/
theorem lastAt_append {qs : List Point} :
    LastAt (ps ++ qs) p ↔ LastAt qs p ∨ (LastAt ps p ∧ ∀ q ∈ qs, q.time ≠ p.time) := by
  induction qs using List.reverseRecOn with
  | nil => simp [not_lastAt_nil]
  | append_singleton qs x ih =>
    rw [← List.append_assoc, lastAt_snoc, lastAt_snoc, ih]
    constructor
    · rintro (rfl | ⟨hq | ⟨hp, hne⟩, hx⟩)
      · exact .inl (.inl rfl)
      · exact .inl (.inr ⟨hq, hx⟩)
      · refine .inr ⟨hp, fun q hq => ?_⟩
        rcases List.mem_append.mp hq with hq | hq
        · exact hne q hq
        · exact List.mem_singleton.mp hq ▸ hx
    · rintro ((rfl | ⟨hq, hx⟩) | ⟨hp, hne⟩)
      · exact .inl rfl
      · exact .inr ⟨.inl hq, hx⟩
      · exact .inr ⟨.inr ⟨hp, fun q hq => hne q (List.mem_append_left _ hq)⟩, hne x (by simp)⟩

/-- Sorting points by a key of their time keeps the last ones of those keys that are asked for. -/
theorem lastAt_flatMap_filter {key : Int → Int} {keys : List Int} (h : keys.Nodup) :
    LastAt (keys.flatMap fun k => ps.filter fun q => key q.time = k) p ↔
      key p.time ∈ keys ∧ LastAt ps p := by
  induction keys with
  | nil => simp [not_lastAt_nil]
  | cons k keys ih =>
    obtain ⟨hk, hkeys⟩ := List.nodup_cons.mp h
    rw [List.flatMap_cons, lastAt_append, ih hkeys, lastAt_filter fun t => decide (key t = k),
      decide_eq_true_eq, List.mem_cons]
    -- points under the other keys have other times
    constructor
    · rintro (⟨hmem, hlast⟩ | ⟨⟨heq, hlast⟩, -⟩)
      · exact ⟨.inr hmem, hlast⟩
      · exact ⟨.inl heq, hlast⟩
    · rintro ⟨heq | hmem, hlast⟩
      · refine .inr ⟨⟨heq, hlast⟩, fun q hq htime => hk ?_⟩
        obtain ⟨k', hk', hq⟩ := List.mem_flatMap.mp hq
        have hkey := of_decide_eq_true (List.mem_filter.mp hq).2
        rw [htime, heq] at hkey
        exact hkey ▸ hk'
      · exact .inl ⟨hmem, hlast⟩

/-! ## Keeping the last points -/

/-- Points in descending order of time. -/
def Descending (ps : List Point) : Prop := ps.Pairwise fun p q => q.time < p.time

theorem mem_insertDescending (h : Descending ps) {x : Point} :
    x ∈ insertDescending p ps ↔ x = p ∨ (x ∈ ps ∧ x.time ≠ p.time) := by
  induction ps with
  | nil => simp [insertDescending]
  | cons q rest ih =>
    obtain ⟨hq, hrest⟩ := List.pairwise_cons.mp h
    rw [insertDescending]
    split
    · rename_i hlt
      rw [List.mem_cons]
      refine or_congr_right ⟨fun hx => ⟨hx, ?_⟩, And.left⟩
      rcases List.mem_cons.mp hx with rfl | hx
      · exact Int.ne_of_lt hlt
      · exact Int.ne_of_lt (Int.lt_trans (hq x hx) hlt)
    · split
      · rename_i heq
        rw [List.mem_cons, List.mem_cons]
        refine or_congr_right ⟨fun hx => ⟨.inr hx, ?_⟩, fun hx => ?_⟩
        · exact Int.ne_of_lt (heq ▸ hq x hx)
        · exact hx.1.resolve_left fun hxq => hx.2 (hxq ▸ heq)
      · rename_i hne
        rw [List.mem_cons, ih hrest, List.mem_cons]
        constructor
        · rintro (rfl | rfl | ⟨hx, hxt⟩)
          · exact .inr ⟨.inl rfl, hne⟩
          · exact .inl rfl
          · exact .inr ⟨.inr hx, hxt⟩
        · rintro (rfl | ⟨rfl | hx, hxt⟩)
          · exact .inr (.inl rfl)
          · exact .inl rfl
          · exact .inr (.inr ⟨hx, hxt⟩)

theorem descending_insertDescending (h : Descending ps) : Descending (insertDescending p ps) := by
  induction ps with
  | nil => simp [insertDescending, Descending]
  | cons q rest ih =>
    obtain ⟨hq, hrest⟩ := List.pairwise_cons.mp h
    rw [insertDescending]
    split
    · rename_i hlt
      refine List.pairwise_cons.mpr ⟨fun x hx => ?_, h⟩
      rcases List.mem_cons.mp hx with rfl | hx
      · exact hlt
      · exact Int.lt_trans (hq x hx) hlt
    · split
      · rename_i heq
        exact List.pairwise_cons.mpr ⟨fun x hx => heq ▸ hq x hx, hrest⟩
      · rename_i hle hne
        refine List.pairwise_cons.mpr ⟨fun x hx => ?_, ih hrest⟩
        rcases (mem_insertDescending hrest).mp hx with rfl | ⟨hx, -⟩
        · exact lt_of_le_of_ne (Int.not_lt.mp hle) (Ne.symm hne)
        · exact hq x hx

theorem foldl_insertDescending (ps : List Point) :
    Descending (ps.foldl (fun kept p => insertDescending p kept) []) ∧
      ∀ p, p ∈ ps.foldl (fun kept p => insertDescending p kept) [] ↔ LastAt ps p := by
  -- the newest point is the last one that is put in
  induction ps using List.reverseRecOn with
  | nil => exact ⟨.nil, fun p => by simp [not_lastAt_nil]⟩
  | append_singleton ps x ih =>
    rw [List.foldl_append, List.foldl_cons, List.foldl_nil]
    refine ⟨descending_insertDescending ih.1, fun p => ?_⟩
    rw [mem_insertDescending ih.1, ih.2, lastAt_snoc]
    exact or_congr_right (and_congr_right fun _ => ne_comm)

/-- **What is kept of points is the last one of each time.** -/
theorem mem_dedup : p ∈ dedup ps ↔ LastAt ps p := by
  rw [dedup, List.mem_reverse]
  exact (foldl_insertDescending ps).2 p

/-- The points that are kept are in ascending order of time. -/
theorem pairwise_dedup (ps : List Point) : (dedup ps).Pairwise fun p q => p.time < q.time :=
  List.pairwise_reverse.mpr (foldl_insertDescending ps).1

theorem exists_mem_dedup {t : Int} : (∃ p ∈ dedup ps, p.time = t) ↔ ∃ p ∈ ps, p.time = t := by
  constructor
  · rintro ⟨p, hp, rfl⟩
    exact ⟨p, (mem_dedup.mp hp).mem, rfl⟩
  · rintro ⟨p, hp, rfl⟩
    obtain ⟨q, hq, hqt⟩ := exists_lastAt hp
    exact ⟨q, mem_dedup.mpr hq, hqt⟩

end Point

end TimeSeries
