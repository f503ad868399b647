import Mathlib
import TimeSeries.Proofs.Glob.Filling
import TimeSeries.Proofs.Glob.Trap
import TimeSeries.Proofs.Path

/-!
# Matching globs does not trap

The places that the matching counts out in bytes are always between two characters of the text and
in order, because it gets them by adding up the lengths of what it has found. `slice_eq` says this
once: behind some characters of a text, the bytes of the next ones are these characters. With it
each step of `Trap` is the step on characters, and what is trimmed and left out before makes no
difference, as an empty piece is found everywhere.
-/

namespace TimeSeries

namespace Glob

variable {piece first last before middle after cs : List Char} {pieces : List (List Char)}
  {text : String}

/-! ## Bytes -/

namespace Trap

theorem byteLength_append (cs more : List Char) :
    byteLength (cs ++ more) = byteLength cs + byteLength more := by
  rw [byteLength, String.ofList_append, String.utf8ByteSize_append]
  rfl

theorem byteLength_cons (c : Char) (cs : List Char) :
    byteLength (c :: cs) = c.utf8Size + byteLength cs := by
  have hone : byteLength [c] = c.utf8Size := by
    rw [byteLength, ← String.singleton_eq_ofList, String.utf8ByteSize_singleton]
  rw [← List.singleton_append, byteLength_append, hone]

theorem byteLength_toList (text : String) : byteLength text.toList = text.utf8ByteSize := by
  rw [byteLength, String.ofList_toList]

theorem byteLength_eq_zero_iff : byteLength cs = 0 ↔ cs = [] := by
  rw [byteLength, String.utf8ByteSize_eq_zero_iff, ← String.toList_inj, String.toList_ofList]
  rfl

/-- The bytes of some characters in the middle of a text are cut out as these characters. -/
theorem slice_eq (h : text.toList = before ++ (middle ++ after)) :
    slice text (byteLength before) (byteLength before + byteLength middle) =
      some (String.ofList middle) := by
  obtain rfl : text = String.ofList before ++ (String.ofList middle ++ String.ofList after) := by
    rw [← String.ofList_append, ← String.ofList_append, ← h, String.ofList_toList]
  have hfirst := String.Pos.Raw.isValid_iff_exists_append (p := ⟨byteLength before⟩).mpr
    ⟨String.ofList before, String.ofList middle ++ String.ofList after, rfl, rfl⟩
  have hlast := String.Pos.Raw.isValid_iff_exists_append
      (p := ⟨byteLength before + byteLength middle⟩).mpr
    ⟨String.ofList before ++ String.ofList middle, String.ofList after,
      (String.append_assoc ..).symm, String.Pos.Raw.ext (String.utf8ByteSize_append ..).symm⟩
  rw [slice, dif_pos ⟨Nat.le_add_right _ _, hfirst, hlast⟩, Option.some_inj,
    ← String.toByteArray_inj, String.toByteArray_extract, String.toByteArray_append]
  exact (ByteArray.extract_append_size_add (i := 0)).trans
    (by rw [String.toByteArray_append]; exact ByteArray.extract_append_eq_left rfl)

/-- What is behind some characters of a text is cut out from their last byte on. -/
theorem slice_end (h : text.toList = before ++ after) :
    slice text (byteLength before) text.utf8ByteSize = some (String.ofList after) := by
  rw [← byteLength_toList, h, byteLength_append]
  exact slice_eq (by rw [h, List.append_nil])

end Trap

/-! ## Search -/

/-- The empty piece is found at once. -/
theorem afterFirst_nil (cs : List Char) : afterFirst [] cs = some cs :=
  afterFirst_of_begins (List.isPrefixOf?_eq_some_iff_append_eq.mpr (List.nil_append cs))

/-- Empty pieces make no difference to a search. -/
theorem holdsInOrder_filter (pieces : List (List Char)) (cs : List Char) :
    holdsInOrder (pieces.filter (!·.isEmpty)) cs = holdsInOrder pieces cs := by
  induction pieces generalizing cs with
  | nil => rfl
  | cons piece more ih =>
    cases piece with
    | nil => rw [List.filter_cons_of_neg (by simp), ih, holdsInOrder, afterFirst_nil]
    | cons c piece =>
      rw [List.filter_cons_of_pos (by simp), holdsInOrder, holdsInOrder]
      simp only [ih]

namespace Trap

theorem find?_of_none (h : afterFirst piece cs = none) : find? piece cs = none := by
  induction cs with
  | nil =>
    cases piece with
    | nil => exact absurd h (by simp [afterFirst_nil])
    | cons c piece => rfl
  | cons c cs ih =>
    rw [afterFirst] at h
    split at h
    · exact absurd h (by simp)
    · rename_i hhere
      rw [find?, ← List.isSome_isPrefixOf?_eq_isPrefixOf, hhere, Option.isSome_none,
        if_neg Bool.false_ne_true, ih h, Option.map_none]

/-- A piece is found behind the characters before its first occurrence. -/
theorem exists_find? {rest : List Char} (h : afterFirst piece cs = some rest) :
    ∃ gap, cs = gap ++ (piece ++ rest) ∧ find? piece cs = some (byteLength gap) := by
  induction cs with
  | nil =>
    rw [afterFirst, List.isPrefixOf?_eq_some_iff_append_eq] at h
    obtain ⟨rfl, rfl⟩ := List.append_eq_nil_iff.mp h
    exact ⟨[], rfl, rfl⟩
  | cons c cs ih =>
    rw [afterFirst] at h
    split at h
    · rename_i found hhere
      obtain rfl := Option.some_inj.mp h
      refine ⟨[], (List.isPrefixOf?_eq_some_iff_append_eq.mp hhere).symm, ?_⟩
      rw [find?, ← List.isSome_isPrefixOf?_eq_isPrefixOf, hhere, Option.isSome_some, if_pos rfl]
      rfl
    · rename_i hhere
      obtain ⟨gap, hcs, hfind⟩ := ih h
      refine ⟨c :: gap, by rw [hcs, List.cons_append], ?_⟩
      rw [find?, ← List.isSome_isPrefixOf?_eq_isPrefixOf, hhere, Option.isSome_none,
        if_neg Bool.false_ne_true, hfind, Option.map_some, byteLength_cons]

theorem holdsInOrder_eq (pieces : List (List Char)) (text : String) :
    holdsInOrder pieces text = some (Glob.holdsInOrder pieces text.toList) := by
  induction pieces generalizing text with
  | nil => rfl
  | cons piece more ih =>
    rw [holdsInOrder, Glob.holdsInOrder]
    cases hafter : afterFirst piece text.toList with
    | none => rw [find?_of_none hafter]
    | some rest =>
      obtain ⟨gap, htext, hfind⟩ := exists_find? hafter
      rw [← List.append_assoc] at htext
      have hslice := slice_end htext
      rw [byteLength_append] at hslice
      rw [hfind]
      simp only [hslice, Option.bind_eq_bind, Option.bind_some, ih, String.toList_ofList]

/-- In a part of a text the pieces are searched as in the characters of the part. -/
theorem holdsBetween_eq {start stop : Nat}
    (h : slice text start stop = some (String.ofList middle)) :
    holdsBetween (pieces.filter (!·.isEmpty)) text start stop =
      some (Glob.holdsInOrder pieces middle) := by
  rw [holdsBetween, h, Option.bind_eq_bind, Option.bind_some, holdsInOrder_eq,
    holdsInOrder_filter, String.toList_ofList]

/-! ## The ends of a text -/

/-- The pieces behind the characters of a text that are matched, of which the last one ends it. An
empty last piece is left out and asks for nothing. -/
theorem holdsFrom_eq {rest : List Char} (h : text.toList = before ++ rest) :
    holdsFrom (!last.isEmpty) ((pieces ++ [last]).filter (!·.isEmpty)) text (byteLength before) =
      some (match last.isSuffixOf? rest with
        | none => false
        | some middle => Glob.holdsInOrder pieces middle) := by
  rw [List.filter_append]
  cases last with
  | nil =>
    have hend : [].isSuffixOf? rest = some rest :=
      List.isSuffixOf?_eq_some_iff_append_eq.mpr (List.append_nil rest)
    rw [hend, holdsFrom, if_neg (by simp), List.filter_cons_of_neg (by simp), List.filter_nil,
      List.append_nil, holdsBetween_eq (slice_end h)]
  | cons c last =>
    rw [List.filter_cons_of_pos (by simp), List.filter_nil, holdsFrom, if_pos (by simp),
      List.getLast?_concat]
    simp only [slice_end h, Option.bind_eq_bind, Option.bind_some, List.dropLast_concat,
      String.toList_ofList, ← List.isSome_isSuffixOf?_eq_isSuffixOf]
    cases hend : (c :: last).isSuffixOf? rest with
    | none =>
      rw [Option.isSome_none, if_neg Bool.false_ne_true]
      rfl
    | some middle =>
      rw [List.isSuffixOf?_eq_some_iff_append_eq] at hend
      rw [← hend] at h
      have hlength : text.utf8ByteSize =
          byteLength before + byteLength middle + byteLength (c :: last) := by
        rw [← byteLength_toList, h, byteLength_append, byteLength_append, Nat.add_assoc]
      have hstop : TimeSeries.Trap.minus text.utf8ByteSize (byteLength (c :: last)) =
          some (byteLength before + byteLength middle) := by
        rw [TimeSeries.Trap.minus, if_pos (by omega), hlength, Nat.add_sub_cancel]
      rw [Option.isSome_some, if_pos rfl, hstop, Option.bind_some, holdsBetween_eq (slice_eq h)]

/-- The pieces of a glob with a star. -/
theorem holds_ends :
    holds (!first.isEmpty) (!last.isEmpty)
        ((first :: (pieces ++ [last])).filter (!·.isEmpty)) text =
      some (matchesPieces (first :: (pieces ++ [last])) text.toList) := by
  rw [matchesPieces_ends]
  cases first with
  | nil =>
    have hbegin : [].isPrefixOf? text.toList = some text.toList :=
      List.isPrefixOf?_eq_some_iff_append_eq.mpr (List.nil_append _)
    rw [hbegin, List.filter_cons_of_neg (by simp), holds.eq_def, if_neg (by simp)]
    exact holdsFrom_eq (show text.toList = [] ++ text.toList from rfl)
  | cons c first =>
    rw [List.filter_cons_of_pos (by simp), holds, if_pos (by simp)]
    simp only [← List.isSome_isPrefixOf?_eq_isPrefixOf]
    cases hbegin : (c :: first).isPrefixOf? text.toList with
    | none => rw [Option.isSome_none, if_neg Bool.false_ne_true]
    | some rest =>
      rw [Option.isSome_some, if_pos rfl]
      exact holdsFrom_eq (List.isPrefixOf?_eq_some_iff_append_eq.mp hbegin).symm

/-- The one piece of a glob without a star is the whole text. -/
theorem holds_only :
    holds true true [cs] text = some (matchesPieces [cs] text.toList) := by
  rw [holds, if_pos rfl, matchesPieces]
  by_cases hbegins : cs.isPrefixOf text.toList
  · obtain ⟨rest, hrest⟩ := List.isPrefixOf_iff_prefix.mp hbegins
    rw [if_pos hbegins, holdsFrom, if_pos rfl, List.getLast?_nil, Option.some_inj,
      ← byteLength_toList, ← hrest, byteLength_append, Bool.eq_iff_iff, beq_iff_eq, beq_iff_eq,
      List.append_right_eq_self, ← byteLength_eq_zero_iff]
    omega
  · have hne : text.toList ≠ cs := by
      intro heq
      rw [heq, List.isPrefixOf_iff_prefix] at hbegins
      exact hbegins List.prefix_rfl
    rw [if_neg hbegins, beq_false_of_ne hne]

/-! ## Trimming -/

variable {stars : List Char}

theorem parts_stars_append (hstars : ∀ c ∈ stars, c = '*') : parts (stars ++ cs) = parts cs := by
  induction stars with
  | nil => rfl
  | cons c stars ih =>
    obtain ⟨rfl, hmore⟩ := List.forall_mem_cons.mp hstars
    rw [← ih hmore, parts, List.cons_append, Text.pieces, if_pos (by rfl),
      List.filter_cons_of_neg (by simp)]
    rfl

theorem parts_append_stars (hstars : ∀ c ∈ stars, c = '*') : parts (cs ++ stars) = parts cs := by
  cases stars with
  | nil => rw [List.append_nil]
  | cons c stars =>
    obtain ⟨rfl, hmore⟩ := List.forall_mem_cons.mp hstars
    have hnone : parts (stars ++ []) = [] := parts_stars_append hmore
    rw [List.append_nil] at hnone
    rw [parts, Text.pieces_append_cons rfl, List.filter_append]
    exact (congrArg (parts cs ++ ·) hnone).trans (List.append_nil _)

/-- The first piece is empty just if there are stars before it. -/
theorem isEmpty_first (h : Text.pieces (· == '*') cs = first :: pieces) (hcs : cs ≠ []) :
    first.isEmpty = !(cs.takeWhile (· == '*')).isEmpty := by
  obtain ⟨c, cs, rfl⟩ := List.exists_cons_of_ne_nil hcs
  rw [Text.pieces] at h
  by_cases hc : c = '*'
  · rw [if_pos (by simpa using hc)] at h
    obtain ⟨rfl, -⟩ := List.cons.inj h
    rw [List.takeWhile_cons_of_pos (by simpa using hc)]
    rfl
  · obtain ⟨second, more, hmore⟩ := List.exists_cons_of_ne_nil (Text.pieces_ne_nil (· == '*') cs)
    rw [if_neg (by simpa using hc), hmore] at h
    obtain ⟨rfl, -⟩ := List.cons.inj h
    rw [List.takeWhile_cons_of_neg (by simpa using hc)]
    rfl

/-- The last piece is empty just if there are stars behind it. -/
theorem isEmpty_last (h : (Text.pieces (· == '*') cs).getLast? = some last) (hcs : cs ≠ []) :
    last.isEmpty = !(cs.rtakeWhile (· == '*')).isEmpty := by
  obtain ⟨front, c, rfl⟩ := (List.eq_nil_or_concat' cs).resolve_left hcs
  by_cases hc : c = '*'
  · subst hc
    rw [Text.pieces_append_cons rfl, Text.pieces, List.getLast?_concat, Option.some_inj] at h
    rw [← h, List.rtakeWhile_concat_pos _ _ _ (by rfl)]
    simp
  · obtain ⟨before, piece, hpieces⟩ := Text.pieces_append '*' front
    rw [hpieces [c] (by simpa using Ne.symm hc), List.getLast?_concat, Option.some_inj] at h
    rw [← h, List.rtakeWhile_concat_neg _ _ _ (by simpa using hc)]
    simp

theorem getLast?_stars_append (hstars : ∀ c ∈ stars, c = '*') :
    (Text.pieces (· == '*') (stars ++ cs)).getLast? = (Text.pieces (· == '*') cs).getLast? := by
  induction stars with
  | nil => rfl
  | cons c stars ih =>
    obtain ⟨rfl, hmore⟩ := List.forall_mem_cons.mp hstars
    rw [← ih hmore, List.cons_append, Text.pieces, if_pos (by rfl)]
    obtain ⟨first, more, hpieces⟩ :=
      List.exists_cons_of_ne_nil (Text.pieces_ne_nil (· == '*') (stars ++ cs))
    rw [hpieces, List.getLast?_cons_cons]

theorem byteLength_beq_left (h : before ++ after = cs) :
    (byteLength before == byteLength cs) = after.isEmpty := by
  rw [← h, byteLength_append, Bool.eq_iff_iff, beq_iff_eq, List.isEmpty_iff,
    ← byteLength_eq_zero_iff]
  omega

theorem byteLength_beq_right (h : before ++ after = cs) :
    (byteLength after == byteLength cs) = before.isEmpty := by
  rw [← h, byteLength_append, Bool.eq_iff_iff, beq_iff_eq, List.isEmpty_iff,
    ← byteLength_eq_zero_iff]
  omega

/-- A glob that has a star has a first piece and a last one. -/
theorem exists_ends (h : '*' ∈ cs) :
    ∃ first pieces last, Text.pieces (· == '*') cs = first :: (pieces ++ [last]) := by
  obtain ⟨before, after, rfl⟩ := List.append_of_mem h
  obtain ⟨first, more, hfirst⟩ :=
    List.exists_cons_of_ne_nil (Text.pieces_ne_nil (· == '*') before)
  obtain ⟨others, last, hlast⟩ :=
    (List.eq_nil_or_concat' _).resolve_left (Text.pieces_ne_nil (· == '*') after)
  refine ⟨first, more ++ others, last, ?_⟩
  rw [Text.pieces_append_cons rfl, hfirst, hlast, List.cons_append, List.append_assoc]

/-- A glob of stars is matched by every text. -/
theorem matchesPieces_of_parts (hstar : '*' ∈ cs) (hparts : parts cs = []) (text : List Char) :
    matchesPieces (Text.pieces (· == '*') cs) text = true := by
  obtain ⟨first, pieces, last, hpieces⟩ := exists_ends hstar
  have hall : ∀ piece ∈ first :: (pieces ++ [last]), piece = [] := by
    rw [parts, hpieces, List.filter_eq_nil_iff] at hparts
    simpa using hparts
  have hothers : pieces.filter (!·.isEmpty) = [] := by
    rw [List.filter_eq_nil_iff]
    intro piece hpiece
    simp [hall piece (by simp [hpiece])]
  rw [hpieces, matchesPieces_iff, joins_ends, hall first (by simp), hall last (by simp)]
  refine ⟨text, by simp, ?_⟩
  rw [← holdsInOrder_iff, ← holdsInOrder_filter, hothers]
  rfl

theorem parts_dropWhile (cs : List Char) : parts (cs.dropWhile (· == '*')) = parts cs := by
  conv_rhs => rw [← cs.takeWhile_append_dropWhile (p := (· == '*'))]
  exact (parts_stars_append fun c hc => by simpa using List.mem_takeWhile_imp hc).symm

theorem parts_rdropWhile (cs : List Char) : parts (cs.rdropWhile (· == '*')) = parts cs := by
  conv_rhs => rw [← List.rdropWhile_append_rtakeWhile (l := cs) (p := (· == '*'))]
  exact (parts_append_stars fun c hc => by simpa using List.mem_rtakeWhile_imp hc).symm

theorem getLast?_dropWhile (cs : List Char) :
    (Text.pieces (· == '*') (cs.dropWhile (· == '*'))).getLast? =
      (Text.pieces (· == '*') cs).getLast? := by
  conv_rhs => rw [← cs.takeWhile_append_dropWhile (p := (· == '*'))]
  exact (getLast?_stars_append fun c hc => by simpa using List.mem_takeWhile_imp hc).symm

/-- A glob with a star, of which something is left between the stars at its ends. -/
theorem holds_parts (hstar : '*' ∈ cs) (htrimmed : cs.dropWhile (· == '*') ≠ []) (text : String) :
    holds (byteLength (cs.dropWhile (· == '*')) == byteLength cs)
      (byteLength ((cs.dropWhile (· == '*')).rdropWhile (· == '*')) ==
        byteLength (cs.dropWhile (· == '*'))) (parts cs) text =
      some (matchesPieces (Text.pieces (· == '*') cs) text.toList) := by
  obtain ⟨first, pieces, last, hpieces⟩ := exists_ends hstar
  have hlast : (Text.pieces (· == '*') (cs.dropWhile (· == '*'))).getLast? = some last := by
    rw [getLast?_dropWhile, hpieces, ← List.cons_append, List.getLast?_concat]
  have hbegin := isEmpty_first hpieces (List.ne_nil_of_mem hstar)
  have hend := isEmpty_last hlast htrimmed
  rw [byteLength_beq_right cs.takeWhile_append_dropWhile,
    byteLength_beq_left List.rdropWhile_append_rtakeWhile, ← Bool.not_not (cs.takeWhile _).isEmpty,
    ← Bool.not_not (List.rtakeWhile _ _).isEmpty, ← hbegin, ← hend, parts, hpieces]
  exact holds_ends

theorem dropWhile_of_not_mem (hstar : '*' ∉ cs) : cs.dropWhile (· == '*') = cs := by
  rw [List.dropWhile_eq_self_iff]
  intro hcs h
  exact hstar (by rw [← beq_iff_eq.mp h]; exact List.getElem_mem hcs)

theorem rdropWhile_of_not_mem (hstar : '*' ∉ cs) : cs.rdropWhile (· == '*') = cs := by
  rw [List.rdropWhile_eq_self_iff]
  intro hcs h
  exact hstar (by rw [← beq_iff_eq.mp h]; exact List.getLast_mem hcs)

/-- The matching has a result on every glob and every text, and it is the right one. -/
theorem accepts_eq (pattern text : String) :
    accepts pattern text = some (Glob.accepts pattern text) := by
  rw [accepts, Glob.accepts, matchesChars, ← byteLength_toList pattern]
  by_cases hempty : pattern.isEmpty
  · obtain rfl := String.isEmpty_iff.mp hempty
    rw [if_pos hempty, Option.some_inj, Bool.eq_iff_iff, String.isEmpty_iff, matchesPieces_iff]
    exact String.toList_eq_nil_iff.symm
  have hne : pattern.toList ≠ [] := by
    rwa [ne_eq, String.toList_eq_nil_iff, ← String.isEmpty_iff]
  rw [if_neg hempty]
  dsimp only
  generalize pattern.toList = cs at hne
  by_cases hstar : '*' ∈ cs
  · have hparts : parts ((cs.dropWhile (· == '*')).rdropWhile (· == '*')) = parts cs := by
      rw [parts_rdropWhile, parts_dropWhile]
    by_cases hcore : (cs.dropWhile (· == '*')).rdropWhile (· == '*') = []
    · rw [hcore] at hparts
      rw [hcore, if_pos (by rfl), matchesPieces_of_parts hstar hparts.symm]
    · rw [if_neg (by simpa using hcore), hparts, holds_parts hstar]
      intro htrimmed
      rw [htrimmed] at hcore
      exact hcore rfl
  · have hparts : parts cs = [cs] := by
      rw [parts, Text.pieces_of_not_mem hstar]
      exact List.filter_cons_of_pos (by simpa using hne)
    rw [dropWhile_of_not_mem hstar, rdropWhile_of_not_mem hstar, if_neg (by simpa using hne),
      hparts, beq_self_eq_true, Text.pieces_of_not_mem hstar, holds_only]

end Trap

/-- **A text is accepted by a glob just if it is the glob with each star replaced by some
characters, and on no glob and no text does the matching trap.** -/
theorem accepts_iff_fills (pattern text : String) :
    (accepts pattern text = true ↔ Fills pattern.toList text.toList) ∧
      Trap.accepts pattern text = some (accepts pattern text) :=
  ⟨accepts_eq_true_iff, Trap.accepts_eq pattern text⟩

/-- A piece that overlaps itself, between one that begins the text and one that ends it. -/
example : accepts "é*aba*a" "éababa" = true ∧ accepts "é*aba*aba" "éababa" = false := by
  decide +kernel

end Glob

end TimeSeries
