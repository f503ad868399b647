/-!
# Lines of a file

The bytes of a file are cut after every line feed. The line feed is no part of the line, and
neither is a carriage return right before it. What follows the last line feed is a line if it is
not empty; a carriage return at its end stays.
-/

namespace TimeSeries.Text

/-- The lines of a file as bytes. The line that is being read is kept in reverse. -/
def linesFrom (line : List UInt8) : List UInt8 → List (List UInt8)
  | [] => if line.isEmpty then [] else [line.reverse]
  | b :: rest =>
    if b = 10 then
      (match line with
        | 13 :: before => before.reverse
        | _ => line.reverse) :: linesFrom [] rest
    else linesFrom (b :: line) rest

/-- The text that bytes encode, if they do. -/
def decode (bytes : List UInt8) : Option String := String.fromUTF8? ⟨bytes.toArray⟩

/-- The lines of a file as texts, as far as they are texts. -/
def decodedLines (bytes : List UInt8) : List (Option String) := (linesFrom [] bytes).map decode

end TimeSeries.Text
