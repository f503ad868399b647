import Mathlib
import TimeSeries.IdSet

/-!
# Laws of the sets of ids

Sets are lists in descending order. On such lists the operations have the members that their
names promise, and the order is kept. Each operation goes down one list and, for each id of it,
down the other, so each law is shown by two inductions, the inner one for the part that looks for
a single id.
-/

namespace TimeSeries

namespace IdSet

/-- The ids stand in descending order, each once. -/
def Descending (ids : IdSet) : Prop := ids.Pairwise (· > ·)

variable {xs ys : IdSet} {x id : SeriesId}

theorem descending_nil : Descending [] := List.Pairwise.nil

theorem descending_cons : Descending (x :: xs) ↔ (∀ a ∈ xs, a < x) ∧ Descending xs :=
  List.pairwise_cons

theorem Descending.filter (h : xs.Descending) (p : SeriesId → Bool) :
    Descending (List.filter p xs) := List.Pairwise.filter p h

/-- Sets with the same members are the same list. -/
theorem Descending.ext (hx : xs.Descending) (hy : ys.Descending) (h : ∀ a, a ∈ xs ↔ a ∈ ys) :
    xs = ys := List.Pairwise.eq_of_mem_iff hx hy h

/-! ## Adding the newest id -/

@[simp] theorem mem_insertNewest {a : SeriesId} : a ∈ insertNewest id xs ↔ a = id ∨ a ∈ xs := by
  cases xs with
  | nil => simp [insertNewest]
  | cons y ys =>
    rw [insertNewest]
    split
    · rename_i h
      simp [h]
    · simp

theorem descending_insertNewest (h : xs.Descending) (newest : ∀ a ∈ xs, a ≤ id) :
    (insertNewest id xs).Descending := by
  cases xs with
  | nil => simp [insertNewest, Descending]
  | cons y ys =>
    rw [insertNewest]
    split
    · exact h
    · rename_i hne
      have top : y < id := Nat.lt_of_le_of_ne (newest y List.mem_cons_self) hne
      refine descending_cons.mpr ⟨fun a ha => ?_, h⟩
      rcases List.mem_cons.mp ha with rfl | ha
      · exact top
      · exact Nat.lt_trans ((descending_cons.mp h).1 a ha) top

/-! ## Ids in both sets -/

theorem mem_inter (hx : xs.Descending) (hy : ys.Descending) {a : SeriesId} :
    a ∈ inter xs ys ↔ a ∈ xs ∧ a ∈ ys := by
  induction xs generalizing ys with
  | nil => simp [inter]
  | cons x xs ih =>
    obtain ⟨hbelow, hxs⟩ := descending_cons.mp hx
    rw [inter]
    induction ys with
    | nil => simp [interHead]
    | cons y ys ihy =>
      obtain ⟨hbelow', hys⟩ := descending_cons.mp hy
      -- a head that is above the other one is in no rest, and goes
      rw [interHead]
      split
      · rw [ihy hys]
        simp only [List.mem_cons]
        grind
      · split
        · rw [ih hxs hy]
          simp only [List.mem_cons]
          grind
        · rw [List.mem_cons, ih hxs hys]
          simp only [List.mem_cons]
          grind

theorem descending_inter (hx : xs.Descending) (hy : ys.Descending) :
    (inter xs ys).Descending := by
  induction xs generalizing ys with
  | nil => exact descending_nil
  | cons x xs ih =>
    obtain ⟨hbelow, hxs⟩ := descending_cons.mp hx
    rw [inter]
    induction ys with
    | nil => exact descending_nil
    | cons y ys ihy =>
      obtain ⟨-, hys⟩ := descending_cons.mp hy
      rw [interHead]
      split
      · exact ihy hys
      · split
        · exact ih hxs hy
        · exact descending_cons.mpr
            ⟨fun a ha => hbelow a ((mem_inter hxs hys).mp ha).1, ih hxs hys⟩

/-! ## Ids in one set only -/

theorem mem_diff (hx : xs.Descending) (hy : ys.Descending) {a : SeriesId} :
    a ∈ diff xs ys ↔ a ∈ xs ∧ a ∉ ys := by
  induction xs generalizing ys with
  | nil => simp [diff]
  | cons x xs ih =>
    obtain ⟨hbelow, hxs⟩ := descending_cons.mp hx
    rw [diff]
    induction ys with
    | nil =>
      rw [diffHead, List.mem_cons, ih hxs hy]
      simp
    | cons y ys ihy =>
      obtain ⟨hbelow', hys⟩ := descending_cons.mp hy
      -- the head stays when the other one is below it, and goes when they are the same
      rw [diffHead]
      split
      · rw [ihy hys]
        simp only [List.mem_cons]
        grind
      · split
        · rw [List.mem_cons, ih hxs hy]
          simp only [List.mem_cons]
          grind
        · rw [ih hxs hys]
          simp only [List.mem_cons]
          grind

theorem descending_diff (hx : xs.Descending) (hy : ys.Descending) :
    (diff xs ys).Descending := by
  induction xs generalizing ys with
  | nil => exact descending_nil
  | cons x xs ih =>
    obtain ⟨hbelow, hxs⟩ := descending_cons.mp hx
    have keep {zs : IdSet} (hz : zs.Descending) : Descending (x :: diff xs zs) :=
      descending_cons.mpr ⟨fun a ha => hbelow a ((mem_diff hxs hz).mp ha).1, ih hxs hz⟩
    rw [diff]
    induction ys with
    | nil => exact keep hy
    | cons y ys ihy =>
      obtain ⟨-, hys⟩ := descending_cons.mp hy
      rw [diffHead]
      split
      · exact ihy hys
      · split
        · exact keep hy
        · exact ih hxs hys

/-- What is left of a set is a part of its list. -/
theorem diff_eq_filter (hx : xs.Descending) (hy : ys.Descending) :
    diff xs ys = xs.filter (· ∉ ys) := by
  refine (descending_diff hx hy).ext (hx.filter _) fun a => ?_
  rw [mem_diff hx hy, List.mem_filter, decide_eq_true_eq]

/-! ## Ids in either set -/

theorem mem_union {a : SeriesId} : a ∈ union xs ys ↔ a ∈ xs ∨ a ∈ ys := by
  induction xs generalizing ys with
  | nil => simp [union]
  | cons x xs ih =>
    rw [union]
    induction ys with
    | nil =>
      rw [unionHead, List.mem_cons, ih]
      simp
    | cons y ys ihy =>
      -- the greater head comes first, and one of two that are the same goes
      rw [unionHead]
      split
      · rw [List.mem_cons, ihy]
        simp only [List.mem_cons]
        grind
      · split
        · rw [List.mem_cons, ih]
          simp only [List.mem_cons]
          grind
        · rw [List.mem_cons, ih]
          simp only [List.mem_cons]
          grind

theorem descending_union (hx : xs.Descending) (hy : ys.Descending) :
    (union xs ys).Descending := by
  induction xs generalizing ys with
  | nil => exact hy
  | cons x xs ih =>
    obtain ⟨hbelow, hxs⟩ := descending_cons.mp hx
    have put {zs : IdSet} (hz : zs.Descending) (below : ∀ a ∈ zs, a < x) :
        Descending (x :: union xs zs) :=
      descending_cons.mpr ⟨fun a ha => (mem_union.mp ha).elim (hbelow a) (below a), ih hxs hz⟩
    rw [union]
    induction ys with
    | nil => exact put hy (by simp)
    | cons y ys ihy =>
      obtain ⟨hbelow', hys⟩ := descending_cons.mp hy
      rw [unionHead]
      split
      · rename_i hlt
        refine descending_cons.mpr ⟨fun a ha => ?_, ihy hys⟩
        have whole : a ∈ union (x :: xs) ys := ha
        rcases mem_union.mp whole with h | h
        · rcases List.mem_cons.mp h with rfl | h
          · exact hlt
          · exact Nat.lt_trans (hbelow a h) hlt
        · exact hbelow' a h
      · rename_i hle
        split
        · rename_i hlt
          refine put hy fun a ha => ?_
          rcases List.mem_cons.mp ha with rfl | ha
          · exact hlt
          · exact Nat.lt_trans (hbelow' a ha) hlt
        · exact put hys fun a ha => Nat.lt_of_lt_of_le (hbelow' a ha) (Nat.le_of_not_lt hle)

end IdSet

end TimeSeries
