import Mathlib
import TimeSeries.Glob

/-!
# What matches a glob

A text matches a glob when it is the glob with each star replaced by some characters. `Fills` says
this without any search. The search tries one place for each piece, the first one, and the lemma
that makes it right is `exists_afterFirst`: wherever else a piece may be found, what is left behind
its first occurrence ends with what is left there, and all that can be found in the end of a text
can be found in the whole of it.
-/

namespace TimeSeries.Glob

/-- A text is a glob with its stars replaced by some characters each. -/
inductive Fills : List Char → List Char → Prop
  | nil : Fills [] []
  | star {pattern text : List Char} (gap : List Char) (h : Fills pattern text) :
      Fills ('*' :: pattern) (gap ++ text)
  | char {pattern text : List Char} {c : Char} (hc : c ≠ '*') (h : Fills pattern text) :
      Fills (c :: pattern) (c :: text)

variable {c : Char} {piece pattern text rest : List Char} {pieces : List (List Char)}

theorem fills_nil : Fills [] text ↔ text = [] := by
  constructor
  · intro h
    cases h
    rfl
  · rintro rfl
    exact .nil

theorem fills_star :
    Fills ('*' :: pattern) text ↔ ∃ gap rest, text = gap ++ rest ∧ Fills pattern rest := by
  constructor
  · intro h
    cases h with
    | star gap h => exact ⟨gap, _, rfl, h⟩
    | char hc h => exact absurd rfl hc
  · rintro ⟨gap, rest, rfl, h⟩
    exact .star gap h

theorem fills_char (hc : c ≠ '*') :
    Fills (c :: pattern) text ↔ ∃ rest, text = c :: rest ∧ Fills pattern rest := by
  constructor
  · intro h
    cases h with
    | star gap h => exact absurd rfl hc
    | char hc h => exact ⟨_, rfl, h⟩
  · rintro ⟨rest, rfl, h⟩
    exact .char hc h

/-! ## Pieces -/

/-- A text is made of pieces in their order, with any characters between two of them. -/
def Joins : List (List Char) → List Char → Prop
  | [], text => text = []
  | [only], text => text = only
  | first :: second :: more, text =>
    ∃ gap rest, text = first ++ (gap ++ rest) ∧ Joins (second :: more) rest

/-- A character at the front of the first piece is the first one of the text. -/
theorem joins_cons_cons :
    Joins ((c :: piece) :: pieces) text ↔
      ∃ rest, text = c :: rest ∧ Joins (piece :: pieces) rest := by
  cases pieces with
  | nil => simp [Joins]
  | cons second more =>
    constructor
    · rintro ⟨gap, rest, rfl, h⟩
      exact ⟨_, rfl, gap, rest, rfl, h⟩
    · rintro ⟨_, rfl, gap, rest, rfl, h⟩
      exact ⟨gap, rest, rfl, h⟩

/-- The texts that match a glob are those that its pieces make. -/
theorem fills_iff_joins : Fills pattern text ↔ Joins (Text.pieces (· == '*') pattern) text := by
  induction pattern generalizing text with
  | nil => rw [fills_nil, Text.pieces, Joins]
  | cons c pattern ih =>
    obtain ⟨first, more, hpieces⟩ :=
      List.exists_cons_of_ne_nil (Text.pieces_ne_nil (· == '*') pattern)
    rw [Text.pieces]
    by_cases hc : c = '*'
    · subst hc
      rw [if_pos (by rfl), fills_star, hpieces]
      simp only [Joins, ih, hpieces, List.nil_append]
    · rw [if_neg (by simpa using hc), fills_char hc, hpieces]
      simp only [joins_cons_cons, ih, hpieces]

/-! ## The search -/

/-- Pieces are found in a text in their order and without overlap. -/
def InOrder : List (List Char) → List Char → Prop
  | [], _ => True
  | piece :: more, text => ∃ gap rest, text = gap ++ (piece ++ rest) ∧ InOrder more rest

/-- What is found in the end of a text is found in the text. -/
theorem InOrder.of_suffix (h : InOrder pieces rest) (hend : rest <:+ text) :
    InOrder pieces text := by
  obtain ⟨before, rfl⟩ := hend
  cases pieces with
  | nil => trivial
  | cons piece more =>
    obtain ⟨gap, behind, rfl, h⟩ := h
    exact ⟨before ++ gap, behind, by rw [List.append_assoc], h⟩

theorem eq_of_afterFirst (h : afterFirst piece text = some rest) :
    ∃ gap, text = gap ++ (piece ++ rest) := by
  induction text with
  | nil =>
    rw [afterFirst, List.isPrefixOf?_eq_some_iff_append_eq] at h
    exact ⟨[], h.symm⟩
  | cons c text ih =>
    rw [afterFirst] at h
    split at h
    · rename_i found hfound
      obtain rfl := Option.some_inj.mp h
      rw [List.isPrefixOf?_eq_some_iff_append_eq] at hfound
      exact ⟨[], hfound.symm⟩
    · obtain ⟨gap, rfl⟩ := ih h
      exact ⟨c :: gap, rfl⟩

/-- A piece that begins a text is found there. -/
theorem afterFirst_of_begins (h : piece.isPrefixOf? text = some rest) :
    afterFirst piece text = some rest := by
  cases text with
  | nil => rwa [afterFirst]
  | cons c text => rw [afterFirst, h]

/-- The first occurrence of a piece leaves at least what any occurrence leaves. -/
theorem exists_afterFirst (gap piece rest : List Char) :
    ∃ found, afterFirst piece (gap ++ (piece ++ rest)) = some found ∧ rest <:+ found := by
  induction gap with
  | nil =>
    rw [List.nil_append]
    exact ⟨rest, afterFirst_of_begins (List.isPrefixOf?_eq_some_iff_append_eq.mpr rfl),
      List.suffix_rfl⟩
  | cons c gap ih =>
    obtain ⟨found, hfound, hend⟩ := ih
    rw [List.cons_append, afterFirst]
    split
    · -- an occurrence that begins before the gap ends
      rename_i earlier hearlier
      rw [List.isPrefixOf?_eq_some_iff_append_eq] at hearlier
      refine ⟨earlier, rfl, ?_⟩
      have hwhole : earlier <:+ c :: (gap ++ (piece ++ rest)) := ⟨piece, hearlier⟩
      have hrest : rest <:+ c :: (gap ++ (piece ++ rest)) := ⟨c :: (gap ++ piece), by simp⟩
      refine List.suffix_of_suffix_length_le hrest hwhole ?_
      have hlength := congrArg List.length hearlier
      simp only [List.length_append, List.length_cons] at hlength
      omega
    · exact ⟨found, hfound, hend⟩

theorem holdsInOrder_iff : holdsInOrder pieces text = true ↔ InOrder pieces text := by
  induction pieces generalizing text with
  | nil => exact iff_of_true rfl trivial
  | cons piece more ih =>
    rw [holdsInOrder, InOrder]
    constructor
    · intro h
      split at h
      · exact absurd h (by simp)
      · rename_i rest hfirst
        obtain ⟨gap, rfl⟩ := eq_of_afterFirst hfirst
        exact ⟨gap, rest, rfl, ih.mp h⟩
    · rintro ⟨gap, rest, rfl, h⟩
      obtain ⟨found, hfound, hend⟩ := exists_afterFirst gap piece rest
      rw [hfound]
      exact ih.mpr (h.of_suffix hend)

/-! ## The ends of a text -/

variable {first last : List Char}

/-- The first piece begins the text, the last one ends it, and the others are in order between. -/
theorem joins_ends :
    Joins (first :: (pieces ++ [last])) text ↔
      ∃ middle, text = first ++ (middle ++ last) ∧ InOrder pieces middle := by
  induction pieces generalizing first text with
  | nil => simp [Joins, InOrder]
  | cons second pieces ih =>
    simp only [List.cons_append, Joins, ih, InOrder]
    constructor
    · rintro ⟨gap, rest, rfl, middle, rfl, hin⟩
      exact ⟨gap ++ (second ++ middle), by simp, gap, middle, rfl, hin⟩
    · rintro ⟨_, rfl, gap, middle, rfl, hin⟩
      exact ⟨gap, second ++ (middle ++ last), by simp, middle, rfl, hin⟩

/-- The search looks for the first piece, then for the last one, and then for the others. -/
theorem matchesPieces_ends :
    matchesPieces (first :: (pieces ++ [last])) text =
      match first.isPrefixOf? text with
      | none => false
      | some rest =>
        match last.isSuffixOf? rest with
        | none => false
        | some middle => holdsInOrder pieces middle := by
  obtain ⟨second, more, hmore⟩ := List.exists_cons_of_ne_nil (l := pieces ++ [last]) (by simp)
  have hlast : (second :: more).getLast (List.cons_ne_nil _ _) = last := by simp [← hmore]
  have hothers : (second :: more).dropLast = pieces := by rw [← hmore, List.dropLast_concat]
  rw [hmore, ← hlast, ← hothers]
  rfl

/-- Searching for the pieces finds out whether they make the text. -/
theorem matchesPieces_iff : matchesPieces pieces text = true ↔ Joins pieces text := by
  cases pieces with
  | nil => simp [matchesPieces, Joins]
  | cons first more =>
    rcases List.eq_nil_or_concat' more with rfl | ⟨others, last, rfl⟩
    · simp [matchesPieces, Joins]
    · rw [matchesPieces_ends, joins_ends]
      constructor
      · intro h
        split at h
        · exact absurd h (by simp)
        · rename_i rest hfirst
          split at h
          · exact absurd h (by simp)
          · rename_i middle hlast
            rw [List.isPrefixOf?_eq_some_iff_append_eq] at hfirst
            rw [List.isSuffixOf?_eq_some_iff_append_eq] at hlast
            exact ⟨middle, by rw [hlast, hfirst], holdsInOrder_iff.mp h⟩
      · rintro ⟨middle, rfl, hin⟩
        rw [List.isPrefixOf?_eq_some_iff_append_eq.mpr rfl]
        dsimp only
        rw [List.isSuffixOf?_eq_some_iff_append_eq.mpr rfl]
        exact holdsInOrder_iff.mpr hin

/-- **A text is accepted by a glob just if it is the glob with its stars replaced.** -/
theorem accepts_eq_true_iff {pattern text : String} :
    accepts pattern text = true ↔ Fills pattern.toList text.toList := by
  rw [accepts, matchesChars, matchesPieces_iff, fills_iff_joins]

end TimeSeries.Glob
