import Mathlib
import TimeSeries.Glob
import TimeSeries.Proofs.SeriesReader.Trap

/-!
# Matching globs on a machine that traps

The definitions of the glob work on lists of characters, which can be taken apart anywhere. A
machine holds a text as bytes and speaks of its places by counting bytes, and there it can go wrong:
a place can be inside a character or behind the end, and the two ends of a part can be in the wrong
order. Here the matching is written once more, step by step as it is done there: the stars at the
ends of the glob are trimmed, the empty pieces are left out, and what is still to be searched is cut
out of the text by its bytes. What has no result *traps* and gives `none`.
-/

namespace TimeSeries.Glob.Trap

/-- The number of bytes of a text. -/
def byteLength (cs : List Char) : Nat := (String.ofList cs).utf8ByteSize

/-- The part of a text from one byte up to another one. -/
def slice (text : String) (first last : Nat) : Option String :=
  if h : first ≤ last ∧ String.Pos.Raw.IsValid text ⟨first⟩ ∧
      String.Pos.Raw.IsValid text ⟨last⟩ then
    some (text.extract ⟨⟨first⟩, h.2.1⟩ ⟨⟨last⟩, h.2.2⟩)
  else none

/-- A character of two bytes cannot be cut in two. -/
example : slice "aé" 1 3 = some "é" ∧ slice "aé" 1 2 = none ∧ slice "aé" 3 1 = none := by
  decide +kernel

/-- The byte at which the first occurrence of a piece begins. -/
def find? (piece : List Char) : List Char → Option Nat
  | [] => if piece.isEmpty then some 0 else none
  | c :: text =>
    if piece.isPrefixOf (c :: text) then some 0
    else (find? piece text).map (c.utf8Size + ·)

/-- Whether pieces occur in a text, in order and without overlap. -/
def holdsInOrder : List (List Char) → String → Option Bool
  | [], _ => some true
  | piece :: more, text =>
    match find? piece text.toList with
    | none => some false
    | some i => do
      let rest ← slice text (i + byteLength piece) text.utf8ByteSize
      holdsInOrder more rest

/-- Whether pieces occur in a part of a text. -/
def holdsBetween (pieces : List (List Char)) (text : String) (start stop : Nat) : Option Bool := do
  let part ← slice text start stop
  holdsInOrder pieces part

/-- Whether pieces occur in a text from a byte on, of which the last one may have to end it. -/
def holdsFrom (anchored : Bool) (pieces : List (List Char)) (text : String) (start : Nat) :
    Option Bool :=
  if anchored then
    match pieces.getLast? with
    | none => some (start == text.utf8ByteSize)
    | some last => do
      let rest ← slice text start text.utf8ByteSize
      if last.isSuffixOf rest.toList then
        let stop ← TimeSeries.Trap.minus text.utf8ByteSize (byteLength last)
        holdsBetween pieces.dropLast text start stop
      else return false
  else holdsBetween pieces text start text.utf8ByteSize

/-- Whether pieces occur in a text, of which the first and the last one may have to begin and to
end it. Where the first one has to begin it there is a first one. -/
def holds (anchoredStart anchoredEnd : Bool) (pieces : List (List Char)) (text : String) :
    Option Bool :=
  if anchoredStart then
    match pieces with
    | [] => none
    | first :: pieces =>
      if first.isPrefixOf text.toList then holdsFrom anchoredEnd pieces text (byteLength first)
      else some false
  else holdsFrom anchoredEnd pieces text 0

/-- The pieces of a glob that are not empty. -/
def parts (cs : List Char) : List (List Char) := (Text.pieces (· == '*') cs).filter (!·.isEmpty)

/-- Whether a text matches a glob. -/
def accepts (pattern text : String) : Option Bool :=
  if pattern.isEmpty then some text.isEmpty
  else
    let trimmed := pattern.toList.dropWhile (· == '*')
    let core := trimmed.rdropWhile (· == '*')
    if core.isEmpty then some true
    else
      holds (byteLength trimmed == pattern.utf8ByteSize) (byteLength core == byteLength trimmed)
        (parts core) text

end TimeSeries.Glob.Trap
