import TimeSeries.Text.Pieces

/-!
# Globs

In a glob a star stands for any characters, also for none, and every other character for itself.
The literal pieces between the stars have to be found in the text in their order and without
overlap. The first piece begins the text and the last one ends it; each piece between them is
taken at its first occurrence in what is left, which leaves the most for the pieces after it.
-/

namespace TimeSeries.Glob

/-- The rest of a text after the first occurrence of a piece. -/
def afterFirst (piece : List Char) : List Char → Option (List Char)
  | [] => piece.isPrefixOf? []
  | c :: text =>
    match piece.isPrefixOf? (c :: text) with
    | some rest => some rest
    | none => afterFirst piece text

/-- Whether pieces occur in a text, in order and without overlap. -/
def holdsInOrder : List (List Char) → List Char → Bool
  | [], _ => true
  | piece :: more, text =>
    match afterFirst piece text with
    | none => false
    | some rest => holdsInOrder more rest

/-- Whether a text matches the literal pieces of a glob. A single piece is the whole text. -/
def matchesPieces (pieces : List (List Char)) (text : List Char) : Bool :=
  match pieces with
  | [] => text.isEmpty
  | [only] => text == only
  | first :: second :: more =>
    match first.isPrefixOf? text with
    | none => false
    | some rest =>
      let last := (second :: more).getLast (List.cons_ne_nil _ _)
      match last.isSuffixOf? rest with
      | none => false
      | some middle => holdsInOrder (second :: more).dropLast middle

/-- Whether a text matches a glob. -/
def matchesChars (pattern text : List Char) : Bool :=
  matchesPieces (Text.pieces (· == '*') pattern) text

/-- Whether a text matches a glob. -/
def accepts (pattern text : String) : Bool := matchesChars pattern.toList text.toList

end TimeSeries.Glob
