import TimeSeries.Document
import TimeSeries.Text.Pieces

/-!
# Settings in the environment

A variable sets a value if its name, in any case, begins with the common prefix and its text is not
empty. The rest of the name, in lower case, is the key. The text is taken for a truth value, an
integer or a float if it writes one.

The daemon names the prefix and the separators, and leaves the rest to a library for layered
settings. This is its documented behaviour for a source that ignores empty variables and guesses the
kinds of values. Two underscores stand for a dot, and a key is then the path to a setting: names
with dots between them, and subscripts in brackets behind them, which count from the end if they are
negative. What is on the way of a path and of the wrong kind is replaced.
-/

namespace TimeSeries.Environment

open Document (Step)
open Text

/-- The variables in a block of entries. An entry is a name, an equals sign and a text, and ends
with the character of code zero. -/
def ofBlock (block : String) : List (String × String) :=
  (pieces (· == '\x00') block.toList).filterMap fun entry =>
    match cutFirst (· == '=') entry with
    | (name, some text) => some (String.ofList name, String.ofList text)
    | (_, none) => none

/-- What the names of the variables begin with, in lower case. -/
def namePrefix : List Char := "chunkdb_".toList

/-- The value that a text writes. -/
def readValue (text : String) : Document :=
  match lower text with
  | "true" => .boolean true
  | "false" => .boolean false
  | _ =>
    match readInteger text.toList with
    | .ok n => .integer n
    | .error _ =>
      match readBinary64 text.toList with
      | some bits => .float bits
      | none => .text text

/-- A key with a dot for two underscores, each time that they stand in it. -/
def dotted : List Char → List Char
  | [] => []
  | '_' :: '_' :: rest => '.' :: dotted rest
  | c :: rest => c :: dotted rest

/-- Whether a character can stand in a name of a path. -/
def isNameChar (c : Char) : Bool := c.isAlphanum || c == ' ' || c == '_' || c == '-'

/-- The step that a subscript writes, given what stands behind its opening bracket: an integer, with
or without blanks around it, and the closing bracket. -/
def subscript? (cs : List Char) : Option Step :=
  let isBlank (c : Char) : Bool := c == ' ' || c == '\t'
  match cs.reverse with
  | ']' :: inner =>
    match (inner.dropWhile isBlank).reverse.dropWhile isBlank with
    | '+' :: _ => none
    | digits => (readInteger digits).toOption.map .index
  | _ => none

/-- The steps that a part of a key between dots writes: a name, and subscripts behind it. -/
def steps? (part : List Char) : Option (List Step) :=
  match pieces (· == '[') part with
  | name :: subscripts =>
    if !name.isEmpty && name.all isNameChar then
      (subscripts.mapM subscript?).map (.key (String.ofList name) :: ·)
    else none
  | [] => none

/-- The path that a key writes. A key that writes none is a name as a whole. -/
def pathOf (key : List Char) : List Step :=
  match (pieces (· == '.') key).mapM steps? with
  | some parts => parts.flatten
  | none => [.key (String.ofList key)]

/-- The key in the name of a variable, if it has the prefix. -/
def keyOf? (name : String) : Option (List Char) := namePrefix.isPrefixOf? (lower name).toList

/-- Lets a variable set its value in a document, if its path leads anywhere in it. -/
def setVariable (doc : Document) (entry : String × String) : Option Document :=
  match keyOf? entry.1 with
  | none => some doc
  | some key =>
    if entry.2.isEmpty then some doc
    else Document.put? (readValue entry.2) (pathOf (dotted key)) doc

/-- Lets the variables of an environment set their values in a document. -/
def apply (env : List (String × String)) (doc : Document) : Option Document :=
  env.foldlM setVariable doc

end TimeSeries.Environment
