import Mathlib
import TimeSeries.Path
import TimeSeries.Store.Frozen

/-!
# Files of different windows

The file of a frozen store is named after its dataset, and the datasets of one manager differ only
in the number at their end. That is enough for their files to be in different places. A text may
hold slashes and steps upwards, but what is written behind it, if it holds no slash, only makes
its last step longer.
-/

namespace TimeSeries

namespace Text

/-- What is put behind a text is put behind its last piece. -/
theorem pieces_append (x : Char) (cs : List Char) :
    ∃ front last, ∀ rest, x ∉ rest → pieces (· == x) (cs ++ rest) = front ++ [last ++ rest] := by
  induction cs with
  | nil => exact ⟨[], [], fun rest h => pieces_of_not_mem h⟩
  | cons c cs ih =>
    obtain ⟨front, last, hpieces⟩ := ih
    by_cases hc : c = x
    · refine ⟨[] :: front, last, fun rest h => ?_⟩
      rw [List.cons_append, pieces, if_pos (by simpa using hc), hpieces rest h, List.cons_append]
    · cases front with
      | nil =>
        refine ⟨[], c :: last, fun rest h => ?_⟩
        rw [List.cons_append, pieces, if_neg (by simpa using hc), hpieces rest h]
        rfl
      | cons first front =>
        refine ⟨(c :: first) :: front, last, fun rest h => ?_⟩
        rw [List.cons_append, pieces, if_neg (by simpa using hc), hpieces rest h]
        rfl

/-- A number is written without slashes. -/
theorem slash_not_mem_toString (n : Int) : '/' ∉ (toString n).toList := by
  have digits (k : Nat) : '/' ∉ k.repr.toList := by
    intro h
    rw [Nat.toList_repr] at h
    exact absurd (Nat.isDigit_of_mem_toDigits (by decide) (by decide) h) (by decide)
  rw [Int.toString_eq_repr]
  cases n with
  | ofNat k => exact digits k
  | negSucc k =>
    rw [Int.repr, String.toList_append, List.mem_append]
    exact not_or.mpr ⟨by decide, digits _⟩

end Text

namespace Path

theorem walk_of_long {steps : List String} {step : String} (h : 2 < step.toList.length) :
    walk steps step = steps ++ [step] := by
  rw [walk, if_neg, if_neg]
  · rintro rfl
    exact absurd h (by decide)
  · rintro (rfl | rfl) <;> exact absurd h (by decide)

/-- What is put behind a text makes its last step longer. -/
theorem walkText_append (steps : List String) (text : String) :
    ∃ above last, ∀ rest : String, '/' ∉ rest.toList → 2 < rest.toList.length →
      walkText steps (text ++ rest) = above ++ [last ++ rest] := by
  obtain ⟨front, last, hpieces⟩ := Text.pieces_append '/' text.toList
  refine ⟨(front.map String.ofList).foldl walk steps, String.ofList last, fun rest h hlong => ?_⟩
  rw [walkText, String.toList_append, hpieces _ h, List.map_append, List.foldl_append,
    List.map_singleton, List.foldl_cons, List.foldl_nil, walk_of_long]
  · rw [String.ofList_append, String.ofList_toList]
  · rw [String.toList_ofList, List.length_append]
    omega

theorem steps_join (dir : Path) {text : String} (ht : text.toList ≠ []) :
    ∃ above last, ∀ rest : String, '/' ∉ rest.toList → 2 < rest.toList.length →
      (dir.join (text ++ rest)).steps = above ++ [last ++ rest] := by
  -- the first character decides where to start
  have top (rest : String) : startsAtTop (text ++ rest) = startsAtTop text := by
    rw [startsAtTop, startsAtTop, String.toList_append, List.head?_append_of_ne_nil _ ht]
  obtain ⟨above, last, hsteps⟩ := walkText_append (if startsAtTop text then [] else dir.steps) text
  refine ⟨above, last, fun rest h hlong => ?_⟩
  rw [← hsteps rest h hlong, join, top]
  split
  · rfl
  · split <;> rfl

end Path

/-- The steps to the file for the frozen store of a dataset, if it gets one. -/
def FrozenForm.place? (form : FrozenForm) (dataset : String) : Option (List String) :=
  (form.file dataset).map (·.steps)

/-- **Datasets with different numbers have their files in different places.** -/
theorem FrozenForm.place?_ne {m n : Int} (form : FrozenForm) (dataset : String) (h : m ≠ n) :
    form.place? s!"{dataset}_{m}" = none ∨
      form.place? s!"{dataset}_{m}" ≠ form.place? s!"{dataset}_{n}" := by
  cases hdir : form.directory with
  | none => exact .inl (by simp [place?, file, hdir])
  | some dir =>
    refine .inr fun heq => h ?_
    have hne : (dataset ++ "_").toList ≠ [] := by simp
    obtain ⟨above, last, hsteps⟩ := Path.steps_join dir hne
    have place (k : Int) : form.place? s!"{dataset}_{k}" =
        some (above ++ [last ++ (toString k ++ ".series")]) := by
      rw [place?, file, hdir, Option.map_some, Option.map_some]
      rw [← hsteps (toString k ++ ".series") _ _]
      · rw [← String.append_assoc]
        rfl
      · rw [String.toList_append, List.mem_append]
        exact not_or.mpr ⟨Text.slash_not_mem_toString k, by decide⟩
      · rw [String.toList_append, List.length_append]
        exact Nat.lt_of_lt_of_le (by decide : 2 < ".series".toList.length) (Nat.le_add_left _ _)
    rw [place, place, Option.some_inj, List.append_cancel_left_eq, List.singleton_inj] at heq
    -- what differs is the number between the underscore and the extension
    have hnumber := String.toList_inj.mpr heq
    simp only [String.toList_append, List.append_cancel_left_eq,
      List.append_cancel_right_eq] at hnumber
    rw [Int.toString_eq_repr, Int.toString_eq_repr] at hnumber
    exact Int.repr_injective (String.toList_inj.mp hnumber)

end TimeSeries
