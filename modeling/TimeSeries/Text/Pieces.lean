/-!
# Pieces of a text

A text is cut at every character of a class: the characters of the class are lost, and what
stands between two of them is a piece, possibly empty. There is always at least one piece, and
joining the pieces again with a single separator undoes the cut.
-/

namespace TimeSeries.Text

/-- The pieces between the characters that satisfy `sep`. -/
def pieces (sep : Char → Bool) : List Char → List (List Char)
  | [] => [[]]
  | c :: rest =>
    if sep c then [] :: pieces sep rest
    else
      match pieces sep rest with
      | [] => [[c]]
      | piece :: more => (c :: piece) :: more

theorem pieces_ne_nil (sep : Char → Bool) (cs : List Char) : pieces sep cs ≠ [] := by
  cases cs with
  | nil => simp [pieces]
  | cons c rest =>
    unfold pieces
    split
    · simp
    · split <;> simp

/-- There is one piece where there is no separator. -/
theorem pieces_of_forall {sep : Char → Bool} {cs : List Char} (h : ∀ c ∈ cs, sep c = false) :
    pieces sep cs = [cs] := by
  induction cs with
  | nil => rfl
  | cons c cs ih =>
    obtain ⟨hc, hcs⟩ := List.forall_mem_cons.mp h
    rw [pieces, if_neg (by simp [hc]), ih hcs]

theorem pieces_of_not_mem {x : Char} {cs : List Char} (h : x ∉ cs) :
    pieces (· == x) cs = [cs] :=
  pieces_of_forall fun _ hc => beq_false_of_ne fun heq => h (heq ▸ hc)

/-- A separator keeps the pieces on its two sides apart. -/
theorem pieces_append_cons {sep : Char → Bool} {c : Char} (hc : sep c = true)
    (before after : List Char) :
    pieces sep (before ++ c :: after) = pieces sep before ++ pieces sep after := by
  induction before with
  | nil =>
    show pieces sep (c :: after) = [] :: pieces sep after
    rw [pieces, if_pos hc]
  | cons b before ih =>
    rw [List.cons_append, pieces, pieces]
    split
    · rw [ih, List.cons_append]
    · obtain ⟨piece, more, h⟩ := List.exists_cons_of_ne_nil (pieces_ne_nil sep before)
      rw [ih, h]
      rfl

/-- A text that is one piece is that piece. -/
theorem pieces_eq_singleton {sep : Char → Bool} {cs piece : List Char}
    (h : pieces sep cs = [piece]) : cs = piece := by
  have hnone : ∀ c ∈ cs, sep c = false := by
    intro c hc
    obtain ⟨before, after, rfl⟩ := List.append_of_mem hc
    refine Bool.eq_false_iff.mpr fun hsep => ?_
    rw [pieces_append_cons hsep, List.append_eq_singleton_iff] at h
    rcases h with ⟨hnil, -⟩ | ⟨-, hnil⟩
    · exact pieces_ne_nil sep before hnil
    · exact pieces_ne_nil sep after hnil
  rw [pieces_of_forall hnone] at h
  exact List.singleton_inj.mp h

/-- The part before the first separator, and the part after it if there is one. -/
def cutFirst (sep : Char → Bool) : List Char → List Char × Option (List Char)
  | [] => ([], none)
  | c :: rest =>
    if sep c then ([], some rest)
    else
      let (before, after) := cutFirst sep rest
      (c :: before, after)

end TimeSeries.Text
