import Mathlib
import TimeSeries.Text.Lines
import TimeSeries.Text.Pieces

/-!
# Lines of a text

The lines of a file are found among its bytes, before they are read as texts. Where the bytes of
the file encode a text, the lines can be told from the text alone: it is cut at its line feeds, and
a carriage return right before a line feed goes with it. The two readings agree because no other
character has the byte of a line feed or of a carriage return in its encoding.
-/

namespace TimeSeries.Text

variable {cs before after : List Char} {c : Char} {line xs rest : List UInt8}

/-- The bytes that encode a text. -/
def encode (text : String) : List UInt8 := text.toUTF8.data.toList

/-- A list without its last element, if that is the one given. -/
def dropEnd {α : Type} [DecidableEq α] (x : α) (xs : List α) : List α :=
  if xs.getLast? = some x then xs.dropLast else xs

/-- The lines of a text: the pieces before its line feeds, without the carriage returns at their
ends, and the piece behind the last line feed if it is not empty. -/
def linesOf (cs : List Char) : List (List Char) :=
  let cut := pieces (· == '\n') cs
  cut.dropLast.map (dropEnd '\r') ++ (cut.getLast?.filter (!·.isEmpty)).toList

/-- The lines of a text, in order. -/
def lines (text : String) : List String := (linesOf text.toList).map String.ofList

/-! ## Cutting a text -/

/-- A text holds a character no more, or there is a first place where it holds it. -/
theorem cut_induction {motive : List Char → Prop} (c : Char)
    (last : ∀ cs, c ∉ cs → motive cs)
    (cut : ∀ before after, c ∉ before → motive after → motive (before ++ c :: after))
    (cs : List Char) : motive cs := by
  by_cases hc : c ∈ cs
  · obtain ⟨before, after, rfl, hbefore⟩ := List.eq_append_cons_of_mem hc
    exact cut before after hbefore (cut_induction c last cut after)
  · exact last cs hc
termination_by cs.length
decreasing_by simp [*]; omega

theorem linesOf_of_not_mem (h : '\n' ∉ cs) :
    linesOf cs = if cs = [] then [] else [cs] := by
  rw [linesOf, pieces_of_not_mem h]
  cases cs <;> rfl

/-- The lines up to a line feed, and those behind it. -/
theorem linesOf_append_cons (before after : List Char) :
    linesOf (before ++ '\n' :: after) =
      (pieces (· == '\n') before).map (dropEnd '\r') ++ linesOf after := by
  have hne := pieces_ne_nil (· == '\n') after
  rw [linesOf, linesOf, pieces_append_cons rfl, List.dropLast_append_of_ne_nil hne,
    List.getLast?_append_of_ne_nil _ hne, List.map_append, List.append_assoc]

/-- **A text that ends with a line feed keeps its lines whatever stands behind it.** -/
theorem linesOf_append (hbefore : before.getLast? = some '\n') :
    linesOf (before ++ after) = linesOf before ++ linesOf after := by
  obtain ⟨front, rfl⟩ := List.getLast?_eq_some_iff.mp hbefore
  have hend : linesOf [] = [] := rfl
  rw [List.append_assoc, List.singleton_append, linesOf_append_cons, linesOf_append_cons front [],
    hend, List.append_nil]

/-! ## The bytes of a text -/

theorem encode_ofList (cs : List Char) :
    encode (String.ofList cs) = cs.flatMap String.utf8EncodeChar := by
  rw [encode, String.toUTF8_eq_toByteArray, String.toByteArray_ofList, List.utf8Encode,
    List.data_toByteArray, List.toList_toArray]

theorem encode_append (before after : List Char) :
    encode (String.ofList (before ++ after)) =
      encode (String.ofList before) ++ encode (String.ofList after) := by
  rw [encode_ofList, encode_ofList, encode_ofList, List.flatMap_append]

theorem decode_encode (text : String) : decode (encode text) = some text := by
  rw [decode, encode, Array.toArray_toList]
  simp only [String.fromUTF8?, String.toUTF8_eq_toByteArray, dif_pos text.isValidUTF8]
  rfl

/-- A character of one byte is that byte, and the bytes of all others are greater. -/
theorem utf8EncodeChar_cases (c : Char) :
    (c.toNat < 128 ∧ String.utf8EncodeChar c = [UInt8.ofNat c.toNat]) ∨
      (128 ≤ c.toNat ∧ String.utf8EncodeChar c ≠ [] ∧
        ∀ b ∈ String.utf8EncodeChar c, 128 ≤ b.toNat) := by
  have hval : c.val.toNat = c.toNat := rfl
  rw [String.utf8EncodeChar.eq_def, hval]
  by_cases hc : c.toNat < 128
  · exact .inl ⟨hc, if_pos (Nat.le_of_lt_succ hc)⟩
  · refine .inr ⟨Nat.le_of_not_lt hc, ?_⟩
    dsimp only
    rw [if_neg (by omega)]
    split_ifs <;> simp <;> omega

theorem utf8EncodeChar_ne_nil (c : Char) : String.utf8EncodeChar c ≠ [] := by
  rcases utf8EncodeChar_cases c with ⟨-, heq⟩ | ⟨-, hne, -⟩
  · rw [heq]
    simp
  · exact hne

/-- The byte of a character of one byte is found just in the encoding of that character. -/
theorem mem_utf8EncodeChar {b : UInt8} (hb : b.toNat < 128) :
    b ∈ String.utf8EncodeChar c ↔ c.toNat = b.toNat := by
  rcases utf8EncodeChar_cases c with ⟨hc, heq⟩ | ⟨hc, -, hgreat⟩
  · rw [heq, List.mem_singleton, ← UInt8.toNat_inj, UInt8.toNat_ofNat']
    omega
  · constructor
    · intro h
      exact absurd (hgreat b h) (by omega)
    · intro h
      omega

theorem mem_encode_lineFeed : 10 ∈ encode (String.ofList cs) ↔ '\n' ∈ cs := by
  rw [encode_ofList, List.mem_flatMap]
  constructor
  · rintro ⟨c, hc, hten⟩
    have heq : c = '\n' := Char.toNat_inj.mp ((mem_utf8EncodeChar (by decide)).mp hten)
    exact heq ▸ hc
  · intro h
    exact ⟨'\n', h, by decide⟩

/-! ## Lines of bytes -/

/-- Bytes without a line feed are kept for the line. -/
theorem linesFrom_append (h : 10 ∉ xs) :
    linesFrom line (xs ++ rest) = linesFrom (xs.reverse ++ line) rest := by
  induction xs generalizing line with
  | nil => rfl
  | cons b xs ih =>
    obtain ⟨hb, hxs⟩ := List.ne_and_not_mem_of_not_mem_cons h
    have hstep : linesFrom line (b :: (xs ++ rest)) = linesFrom (b :: line) (xs ++ rest) := by
      rw [linesFrom.eq_def]
      exact if_neg (Ne.symm hb)
    rw [List.cons_append, hstep, ih hxs, List.reverse_cons, List.append_assoc,
      List.singleton_append]

/-- At a line feed the line ends, without a carriage return at its end. -/
theorem linesFrom_lineFeed :
    linesFrom line (10 :: rest) = dropEnd 13 line.reverse :: linesFrom [] rest := by
  cases line with
  | nil => rfl
  | cons b before =>
    rw [dropEnd, List.getLast?_reverse, List.head?_cons, List.reverse_cons, List.dropLast_concat]
    by_cases hb : b = 13
    · rw [hb, if_pos rfl]
      rfl
    · rw [if_neg fun h => hb (Option.some_inj.mp h), linesFrom, if_pos rfl, List.reverse_cons]
      exact fun _ heq => hb (List.cons.inj heq).1

/-- A carriage return is dropped from the bytes of a line as from its text. -/
theorem dropEnd_encode (cs : List Char) :
    dropEnd 13 (encode (String.ofList cs)) = encode (String.ofList (dropEnd '\r' cs)) := by
  rcases List.eq_nil_or_concat' cs with rfl | ⟨front, c, rfl⟩
  · rfl
  · have hlast : (encode (String.ofList (front ++ [c]))).getLast? =
        (String.utf8EncodeChar c).getLast? := by
      rw [encode_ofList, List.flatMap_append, List.flatMap_singleton,
        List.getLast?_append_of_ne_nil _ (utf8EncodeChar_ne_nil c)]
    rw [dropEnd, dropEnd, hlast, List.getLast?_concat, List.dropLast_concat]
    by_cases hc : c = '\r'
    · have hbyte : String.utf8EncodeChar '\r' = [13] := rfl
      rw [hc, if_pos rfl, hbyte, List.getLast?_singleton, if_pos rfl, encode_ofList, encode_ofList,
        List.flatMap_append, List.flatMap_singleton, hbyte, List.dropLast_concat]
    · have hother : (String.utf8EncodeChar c).getLast? ≠ some 13 := by
        intro h
        have hmem := (mem_utf8EncodeChar (by decide)).mp (List.mem_of_getLast? h)
        exact hc (Char.toNat_inj.mp hmem)
      rw [if_neg hother, if_neg fun h => hc (Option.some_inj.mp h)]

/-- The lines of the bytes of a text are the bytes of its lines. -/
theorem linesFrom_encode (cs : List Char) :
    linesFrom [] (encode (String.ofList cs)) =
      (linesOf cs).map fun line => encode (String.ofList line) := by
  induction cs using cut_induction '\n' with
  | last cs hcs =>
    have hten := mt mem_encode_lineFeed.mp hcs
    have hbytes : linesFrom [] (encode (String.ofList cs) ++ []) = _ := linesFrom_append hten
    rw [List.append_nil, List.append_nil] at hbytes
    rw [hbytes, linesOf_of_not_mem hcs, linesFrom]
    cases cs with
    | nil => rfl
    | cons c cs =>
      have hne : encode (String.ofList (c :: cs)) ≠ [] := by
        rw [encode_ofList, List.flatMap_cons]
        exact List.append_ne_nil_of_left_ne_nil (utf8EncodeChar_ne_nil c) _
      rw [if_neg (by simpa using hne), if_neg (List.cons_ne_nil c cs), List.reverse_reverse]
      rfl
  | cut before after hbefore ih =>
    have hten := mt mem_encode_lineFeed.mp hbefore
    have hfeed : encode (String.ofList ('\n' :: after)) = 10 :: encode (String.ofList after) := by
      rw [encode_ofList, encode_ofList]
      rfl
    rw [encode_append, linesFrom_append hten, List.append_nil, hfeed, linesFrom_lineFeed,
      List.reverse_reverse, dropEnd_encode, ih, linesOf_append_cons, pieces_of_not_mem hbefore]
    rfl

/-- **The bytes of a text hold its lines.** -/
theorem decodedLines_encode (text : String) :
    decodedLines (encode text) = (lines text).map some := by
  have hlines := linesFrom_encode text.toList
  rw [String.ofList_toList] at hlines
  rw [decodedLines, hlines, lines, List.map_map, List.map_map]
  exact List.map_congr_left fun line _ => decode_encode (String.ofList line)

end TimeSeries.Text
