import TimeSeries.Toml.Moment
import TimeSeries.Toml.Number
import TimeSeries.Toml.Tables

/-!
# TOML

The language is version 1.0 of TOML, with the freedom that it leaves used as the reader of the
settings documents it: integers have 64 bits, floats are binary ones of 64 bits, and keys and values
may only be nested to a fixed depth.

A TOML text is a sequence of lines. A line sets a value under a key in the table of the last header,
or is a header, or holds only blanks and perhaps a comment. The text is read into these statements
first, and then they are carried out one by one. A text that breaks any rule has no meaning at all.
-/

namespace TimeSeries.Toml

open Text

/-- A line of a text that says something. -/
inductive Statement where
  | header (path : List String) (key : String)
  | element (path : List String) (key : String)
  | pair (path : List String) (key : String) (v : Document)

/-- How deep values may stand in each other, and the number of parts from which on a key is too
long. -/
def nesting : Nat := 80

/-- Whether a character may stand in a key without quotes. -/
def isBare (c : Char) : Bool := c.isAlphanum || c == '_' || c == '-'

/-- One part of a key. -/
def simpleKey : Scan String := do
  let bare : Scan (List Char) := do
    let cs ← Scan.takeWhile isBare
    if cs.isEmpty then failure else return cs
  return String.ofList (← bare <|> basic <|> literal)

/-- A key: the parts before the last, and the last. -/
def key : Scan (List String × String) := do
  let part : Scan String := do
    spaces
    let k ← simpleKey
    spaces
    return k
  let parts ← Scan.separated part (Scan.char '.')
  match parts.getLast? with
  | some last => if parts.length < nesting then return (parts.dropLast, last) else failure
  | none => failure

/-- A comment, if there is one. -/
def comment : Scan Unit := do
  let _ ← Scan.optional (do Scan.char '#'; Scan.takeWhile isShown)

/-- What may stand around the values of a list. -/
def gap : Scan Unit := do
  let _ ← Scan.many ((do let _ ← Scan.satisfy isSpace) <|>
    (do comment; newline))
  return ()

/-- A value without parts. -/
def scalar : Scan Document :=
  ((fun cs => .text (String.ofList cs)) <$> quotedString) <|>
  ((fun cs => .text (String.ofList cs)) <$> moment) <|>
  (.float <$> float) <|> (.integer <$> integer) <|>
  (do Scan.word "true"; return .boolean true) <|> (do Scan.word "false"; return .boolean false)

/-- A list of values. -/
def list (value : Scan Document) : Scan Document := do
  Scan.char '['
  let item : Scan Document := do
    gap
    let v ← value
    gap
    return v
  let items ← Scan.optional (do
    let items ← Scan.separated item (Scan.char ',')
    let _ ← Scan.optional (Scan.char ',')
    return items)
  gap
  Scan.char ']'
  return .list (items.getD [])

/-- A key and its value. -/
def pair (value : Scan Document) : Scan Statement := do
  let (path, k) ← key
  Scan.char '='
  spaces
  let v ← value
  spaces
  return .pair path k v

/-- Carries out statements in a table between braces. -/
def putAll : List Statement → Fields → Option Fields
  | [], fields => some fields
  | .pair path k v :: rest, fields => (fields.putValue path k v).bind (putAll rest)
  | _ :: _, _ => none

/-- A table between braces, on one line. -/
def inlineTable (value : Scan Document) : Scan Document := do
  Scan.char '\x7b'
  let pairs ← Scan.optional (Scan.separated (pair value) (Scan.char ','))
  spaces
  Scan.char '\x7d'
  match putAll (pairs.getD []) [] with
  | some fields => return .table (documents fields)
  | none => failure

/-- A value, with lists and tables in each other up to a depth. -/
def value : (depth : Nat) → Scan Document
  | 0 => scalar
  | depth + 1 => scalar <|> list (value depth) <|> inlineTable (value depth)

/-- A header or a key with its value. -/
def statement : Scan Statement :=
  (do
    Scan.literal ['[', '[']
    let (path, k) ← key
    Scan.literal [']', ']']
    return .element path k) <|>
  (do
    Scan.char '['
    let (path, k) ← key
    Scan.char ']'
    return .header path k) <|>
  pair (value (nesting - 1))

/-- A line, without its break. -/
def line : Scan (Option Statement) := do
  spaces
  let s ← Scan.optional statement
  spaces
  comment
  return s

/-- The lines of a text, which may begin with a byte-order mark. -/
def lines : Scan (List (Option Statement)) := do
  let _ ← Scan.optional (Scan.char '\ufeff')
  Scan.separated line newline

/-- Carries out statements, in the table of the last header. -/
def run : (header : List String) → List Statement → Fields → Option Fields
  | _, [], fields => some fields
  | _, .header path k :: rest, fields =>
    (fields.defineTable path k).bind (run (path ++ [k]) rest)
  | _, .element path k :: rest, fields =>
    (fields.addElement path k).bind (run (path ++ [k]) rest)
  | header, .pair path k v :: rest, fields =>
    (fields.inTable header (·.putValue path k v)).bind (run header rest)

/-- The fields of the top table of a text. -/
def parse? (text : String) : Option (List (String × Document)) := do
  let statements ← lines.all text.toList
  let fields ← run [] (statements.filterMap id) []
  return documents fields

end TimeSeries.Toml
