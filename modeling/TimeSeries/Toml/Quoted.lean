import TimeSeries.Text.Scan

/-!
# Quoted strings of TOML

TOML 1.0 has four forms. A basic string stands between double quotes and knows escapes, a literal
string stands between single quotes and holds what it shows. Each has a form over several lines,
between three quotes, in which a line break right after the opening quotes is lost, one or two
quotes may stand on their own, and a line break is a line feed however it is written.
-/

namespace TimeSeries.Toml

open Text

/-- Blanks within a line. -/
def isSpace (c : Char) : Bool := c == ' ' || c == '\t'

/-- Characters that may stand in comments and literal strings: all but controls other than tab. -/
def isShown (c : Char) : Bool := c == '\t' || (' ' ≤ c && c != '\x7f')

/-- Skips blanks within a line. -/
def spaces : Scan Unit := do let _ ← Scan.takeWhile isSpace

/-- Takes a line break. -/
def newline : Scan Unit := Scan.char '\n' <|> Scan.literal ['\r', '\n']

/-- The value of a hexadecimal digit. -/
def hexValue (c : Char) : Nat :=
  if c.isDigit then c.toNat - '0'.toNat else c.toLower.toNat - 'a'.toNat + 10

/-- Whether a character is a hexadecimal digit. -/
def isHex (c : Char) : Bool := c.isDigit || ('a' ≤ c && c ≤ 'f') || ('A' ≤ c && c ≤ 'F')

/-- A character by its code point in hexadecimal digits. -/
def codePoint (digits : Nat) : Scan Char := do
  let n := (← Scan.exactly digits isHex).foldl (fun n c => 16 * n + hexValue c) 0
  if n.isValidChar then return Char.ofNat n else failure

/-- What follows the backslash of an escape. -/
def escaped : Scan Char := do
  match ← Scan.satisfy fun _ => true with
  | 'b' => return '\x08'
  | 't' => return '\t'
  | 'n' => return '\n'
  | 'f' => return '\x0c'
  | 'r' => return '\r'
  | '"' => return '"'
  | '\\' => return '\\'
  | 'u' => codePoint 4
  | 'U' => codePoint 8
  | _ => failure

/-- An escape for one character. -/
def escape : Scan Char := do Scan.char '\\'; escaped

/-- A character of a basic string that stands for itself. -/
def plainBasic : Scan Char := Scan.satisfy fun c => isShown c && c != '"' && c != '\\'

/-- A character of a literal string. -/
def plainLiteral : Scan Char := Scan.satisfy fun c => isShown c && c != '\''

/-- A basic string on one line. -/
def basic : Scan (List Char) := do
  Scan.char '"'
  let cs ← Scan.many (plainBasic <|> escape)
  Scan.char '"'
  return cs

/-- A literal string on one line. -/
def literal : Scan (List Char) := do
  Scan.char '\''
  let cs ← Scan.many plainLiteral
  Scan.char '\''
  return cs

/-- A backslash at the end of a line, which is lost with all blanks and line breaks after it. -/
def foldedBreak : Scan (List Char) := do
  Scan.char '\\'
  spaces
  newline
  let _ ← Scan.many ((do let _ ← Scan.satisfy isSpace) <|> newline)
  return []

/-- One or two quotes that are not followed by another one. -/
def looseQuotes (quote : Char) : Scan (List Char) := do
  let quotes ← Scan.takeWhile (· == quote)
  if quotes.length = 1 || quotes.length = 2 then return quotes else failure

/-- The end of a string over several lines: three quotes, and up to two quotes before them that
belong to the string. -/
def closing (quote : Char) : Scan (List Char) := do
  let quotes ← Scan.takeWhile (· == quote)
  if 3 ≤ quotes.length && quotes.length ≤ 5 then return quotes.drop 3 else failure

/-- A string over several lines with given pieces. -/
def multiline (quote : Char) (piece : Scan (List Char)) : Scan (List Char) := do
  Scan.literal [quote, quote, quote]
  let _ ← Scan.optional newline
  let pieces ← Scan.many (piece <|> (do newline; return ['\n']) <|> looseQuotes quote)
  return pieces.flatten ++ (← closing quote)

/-- A quoted string. -/
def quotedString : Scan (List Char) :=
  let one (s : Scan Char) : Scan (List Char) := (fun c => [c]) <$> s
  multiline '"' (one plainBasic <|> foldedBreak <|> one escape) <|>
  multiline '\'' (one plainLiteral) <|> basic <|> literal

end TimeSeries.Toml
