import TimeSeries.Text.Pieces

/-!
# Blank characters, trimming and words

The blank characters are those with the white-space property. The *words* of a text are its
longest runs without a blank, so the blanks around and between the words are lost.
-/

namespace TimeSeries.Text

/-- Whether a character has the white-space property. -/
def isBlank (c : Char) : Bool :=
  let n := c.toNat
  (0x09 ≤ n && n ≤ 0x0D) || n == 0x20 || n == 0x85 || n == 0xA0 || n == 0x1680 ||
    (0x2000 ≤ n && n ≤ 0x200A) || n == 0x2028 || n == 0x2029 || n == 0x202F || n == 0x205F ||
    n == 0x3000

/-- Drops the blanks at both ends. -/
def trimChars (cs : List Char) : List Char :=
  ((cs.dropWhile isBlank).reverse.dropWhile isBlank).reverse

/-- A text without the blanks at its ends. -/
def trim (text : String) : String := String.ofList (trimChars text.toList)

/-- Whether a text holds nothing but blanks. -/
def isBlankText (text : String) : Bool := text.toList.all isBlank

/-- Whether a text holds a blank. -/
def hasBlank (text : String) : Bool := text.toList.any isBlank

/-- The words of a list of characters: the pieces between blanks that are not empty. -/
def wordsOf (cs : List Char) : List (List Char) := (pieces isBlank cs).filter (!·.isEmpty)

/-- The words of a text, in order. -/
def words (text : String) : List String := (wordsOf text.toList).map String.ofList

end TimeSeries.Text
