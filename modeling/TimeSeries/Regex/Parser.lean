import TimeSeries.Regex.Basic

/-!
# Reading patterns

A pattern is read from left to right with a stack of open groups. Flags hold from where they are set
to the end of the group, through all its further branches. With the flag `x`, blanks and comments
between the parts of a pattern are skipped.

The grammar is the one that the engine documents: classes with their set operations, groups with or
without a name, greedy and lazy repetitions, the assertions about one position, and the flags `i`,
`m`, `s`, `R`, `U`, `u` and `x`.

A pattern is refused as a whole, so the reader answers with an expression or with nothing. Apart
from wrong grammar it refuses what the engine has no means to match: assertions about what lies
ahead or behind, references back to a group, and patterns that are nested too deeply or that become
too large when their repetitions are written out.
-/

namespace TimeSeries.Regex

/-- The flags in force. -/
structure Flags where
  ignoreCase : Bool := false
  multiLine : Bool := false
  dotNewline : Bool := false
  swapGreed : Bool := false
  unicode : Bool := true
  crlf : Bool := false
  extended : Bool := false

namespace Flags

/-- Sets one flag; `none` if there is no such flag. -/
def set? (f : Flags) (name : Char) (on : Bool) : Option Flags :=
  match name with
  | 'i' => some { f with ignoreCase := on }
  | 'm' => some { f with multiLine := on }
  | 's' => some { f with dotNewline := on }
  | 'U' => some { f with swapGreed := on }
  | 'u' => some { f with unicode := on }
  | 'R' => some { f with crlf := on }
  | 'x' => some { f with extended := on }
  | _ => none

/-- A class as the flags take it. -/
def fold (f : Flags) (p : CharClass) : CharClass :=
  if !f.ignoreCase then p
  else if f.unicode then p.ignoringCase
  else p.ignoringAsciiCase

/-- The characters of words that assertions look for. -/
def word (f : Flags) : CharClass := if f.unicode then isWordChar else isAsciiWord

end Flags

/-- What a single character or escape stands for. -/
inductive Atom where
  /-- A character, and whether it was given as the value of a single byte. -/
  | literal (c : Char) (byte : Bool)
  | klass (p : CharClass) (size : Nat)
  | look (assertion : Look)
  | dot

/-! ## Blanks and numbers -/

/-- Drops blanks and comments, which run from `#` to the end of the line. -/
def skipExtended : (inComment : Bool) → List Char → List Char
  | _, [] => []
  | true, c :: rest => skipExtended (c != '\n') rest
  | false, c :: rest =>
    if Text.isBlank c then skipExtended false rest
    else if c = '#' then skipExtended true rest
    else c :: rest

/-- Drops blanks and comments if the flags say so. -/
def skip (f : Flags) (cs : List Char) : List Char :=
  if f.extended then skipExtended false cs else cs

/-- Reads digits, between which there may be something to skip. -/
def readDigits (f : Flags) :
    (fuel : Nat) → (digits : List Char) → List Char → List Char × List Char
  | 0, digits, cs => (digits.reverse, cs)
  | fuel + 1, digits, cs =>
    match cs with
    | c :: rest =>
      if c.isDigit then readDigits f fuel (c :: digits) (skip f rest) else (digits.reverse, cs)
    | [] => (digits.reverse, [])

/-- The value of a list of digits in a base. -/
def digitsToNat (base : Nat) (digits : List Char) : Nat :=
  digits.foldl (fun n c => base * n + (hexValue? c.toLower).getD 0) 0

/-- Reads a decimal number of 32 bits with blanks around it. -/
def readCount (f : Flags) (cs : List Char) : Option (Nat × List Char) :=
  let cs := cs.dropWhile Text.isBlank
  let (digits, rest) := readDigits f cs.length [] cs
  let n := digitsToNat 10 digits
  if digits.isEmpty || 0x100000000 ≤ n then none
  else some (n, skip f (rest.dropWhile Text.isBlank))

/-- Reads the bounds of a repetition after its opening brace. -/
def readBounds (f : Flags) (cs : List Char) : Option ((Nat × Option Nat) × List Char) := do
  let (least, rest) ← readCount f (skip f cs)
  match rest with
  | '\x7d' :: rest => some ((least, some least), rest)
  | ',' :: rest =>
    match skip f rest with
    | '\x7d' :: rest => some ((least, none), rest)
    | rest =>
      let (most, rest) ← readCount f rest
      match rest with
      | '\x7d' :: rest => if least ≤ most then some ((least, some most), rest) else none
      | _ => none
  | _ => none

/-! ## Escapes -/

/-- The characters with a meaning of their own. -/
def isMeta (c : Char) : Bool := "\\.+*?()|[]\x7b\x7d^$#&-~".toList.contains c

/-- Whether a character stands for itself after a backslash. -/
def isEscapable (c : Char) : Bool :=
  isMeta c || (c.toNat < 0x80 && !c.isAlphanum && c != '<' && c != '>')

/-- Whether a character is a hexadecimal digit. -/
def isHex (c : Char) : Bool := (hexValue? c.toLower).isSome

/-- Takes what stands before a closing brace. -/
def takeBraced (f : Flags) :
    (fuel : Nat) → (name : List Char) → List Char → Option (List Char × List Char)
  | 0, _, _ => none
  | fuel + 1, name, cs =>
    match cs with
    | [] => none
    | '\x7d' :: rest => some (name.reverse, rest)
    | c :: rest => takeBraced f fuel (c :: name) (skip f rest)

/-- The character of a code point, if it has one. -/
def charOfNat? (n : Nat) : Option Char := if n.isValidChar then some (Char.ofNat n) else none

/-- Takes a fixed number of hexadecimal digits. -/
def takeHex (f : Flags) : (count : Nat) → List Char → Option (List Char × List Char)
  | 0, cs => some ([], cs)
  | _ + 1, [] => none
  | count + 1, c :: rest =>
    if isHex c then do
      let (digits, rest) ← takeHex f count (skip f rest)
      some (c :: digits, rest)
    else none

/-- Reads the code point after `\x`, `\u` or `\U`. -/
def readCodePoint (f : Flags) (digits : Nat) (cs : List Char) : Option (Atom × List Char) :=
  match skip f cs with
  | '\x7b' :: rest => do
    let (name, rest) ← takeBraced f cs.length [] (skip f rest)
    if name.isEmpty || !name.all isHex then none
    let c ← charOfNat? (digitsToNat 16 name)
    some (.literal c false, skip f rest)
  | rest => do
    let (name, rest) ← takeHex f digits rest
    let c ← charOfNat? (digitsToNat 16 name)
    some (.literal c (digits == 2), rest)

/-- The parts of a text around the first occurrence of another. -/
def splitOnText (sep : List Char) : List Char → Option (List Char × List Char)
  | [] => none
  | c :: rest =>
    match sep.isPrefixOf? (c :: rest) with
    | some after => some ([], after)
    | none => (splitOnText sep rest).map fun (before, after) => (c :: before, after)

/-- The class of a property, given by a name alone or by a name and a value. -/
def readProperty (name : List Char) : Option CharClass :=
  match splitOnText ['!', '='] name with
  | some (property, value) => (propertyValueClass? property value).map CharClass.compl
  | none =>
    match splitOnText [':'] name with
    | some (property, value) => propertyValueClass? property value
    | none =>
      match splitOnText ['='] name with
      | some (property, value) => propertyValueClass? property value
      | none => propertyClass? name

/-- Reads the property after `\p` or `\P`. -/
def readPropertyEscape (f : Flags) (negated : Bool) (cs : List Char) : Option (Atom × List Char) :=
  let finish (name rest : List Char) := do
    if !f.unicode then none
    let p ← readProperty name
    some (Atom.klass ((f.fold p).negateIf negated) 500, rest)
  match skip f cs with
  | [] => none
  | '\x7b' :: rest => do
    let (name, rest) ← takeBraced f cs.length [] (skip f rest)
    finish name rest
  | '\\' :: _ => none
  | c :: rest => finish [c] (skip f rest)

/-- The class of one of the letters `d`, `s` and `w`, negated if the letter is a capital. Without
Unicode a negated class would hold parts of characters and is refused. -/
def letterClass (f : Flags) (letter : Char) : Option Atom :=
  let negated := letter.isUpper
  if !f.unicode && negated then none
  else
    let (p, size) := match letter.toLower with
      | 'd' => (if f.unicode then isDecimalDigit else isAsciiDigit, 150)
      | 's' => (if f.unicode then Text.isBlank else isAsciiSpace, 30)
      | _ => (f.word, 1500)
    some (.klass (p.negateIf negated) (if f.unicode then size else 2))

/-- Reads the name of an assertion about words after `\b` and an opening brace. What cannot be a
name is left to be read as the bounds of a repetition. -/
def readBoundaryName (f : Flags) (cs : List Char) : Option (Option Look × List Char) :=
  let isNameChar (c : Char) := c.isAlpha || c == '-'
  match skip f cs with
  | [] => none
  | first :: more =>
    if !isNameChar first then some (none, '\x7b' :: cs)
    else do
      let (name, rest) ← takeBraced f cs.length [] (first :: more)
      if !name.all isNameChar then none
      match String.ofList name with
      | "start" => some (some (.wordStart f.word), rest)
      | "end" => some (some (.wordEnd f.word), rest)
      | "start-half" => some (some (.notAfterWord f.word), rest)
      | "end-half" => some (some (.notBeforeWord f.word), rest)
      | _ => none

/-- Reads what stands after a backslash. -/
def readEscape (f : Flags) : List Char → Option (Atom × List Char)
  | [] => none
  | c :: rest =>
    match c with
    | 'x' => readCodePoint f 2 rest
    | 'u' => readCodePoint f 4 rest
    | 'U' => readCodePoint f 8 rest
    | 'p' => readPropertyEscape f false rest
    | 'P' => readPropertyEscape f true rest
    | 'd' | 's' | 'w' | 'D' | 'S' | 'W' => (letterClass f c).map (·, rest)
    | 'a' => some (.literal '\x07' false, rest)
    | 'f' => some (.literal '\x0c' false, rest)
    | 't' => some (.literal '\t' false, rest)
    | 'n' => some (.literal '\n' false, rest)
    | 'r' => some (.literal '\r' false, rest)
    | 'v' => some (.literal '\x0b' false, rest)
    | 'A' => some (.look .textStart, rest)
    | 'z' => some (.look .textEnd, rest)
    | 'B' => some (.look (.notWordBoundary f.word), rest)
    | '<' => some (.look (.wordStart f.word), rest)
    | '>' => some (.look (.wordEnd f.word), rest)
    | 'b' =>
      match rest with
      | '\x7b' :: after => do
        let (look, rest) ← readBoundaryName f after
        some (.look (look.getD (.wordBoundary f.word)), rest)
      | _ => some (.look (.wordBoundary f.word), rest)
    | c => if isEscapable c then some (.literal c false, rest) else none

/-! ## Bracketed classes -/

/-- The operators between the parts of a bracketed class. -/
inductive SetOp where
  | inter
  | diff
  | symmDiff

/-- The class of two operands. -/
def SetOp.apply : SetOp → CharClass → CharClass → CharClass
  | .inter => .inter
  | .diff => .diff
  | .symmDiff => .symmDiff

/-- A class with the depth to which it is nested. -/
structure NestedClass where
  accepts : CharClass
  depth : Nat

/-- An open bracketed class: the items since the last operator, newest first, and what stands
before that operator. -/
structure ClassLevel where
  negated : Bool
  left : Option (SetOp × NestedClass)
  items : List NestedClass

namespace ClassLevel

/-- Adds an item. -/
def add (level : ClassLevel) (item : NestedClass) : ClassLevel :=
  { level with items := item :: level.items }

/-- The items since the last operator as one class, joined with what stands before it. -/
def joined (f : Flags) (level : ClassLevel) : NestedClass :=
  let deepest := (level.items.map (·.depth)).foldl max 0
  let right : NestedClass :=
    { accepts := (level.items.map (·.accepts)).foldl .union .none
      depth := if 2 ≤ level.items.length then deepest + 1 else deepest }
  match level.left with
  | none => right
  | some (op, left) =>
    { accepts := op.apply (f.fold left.accepts) (f.fold right.accepts)
      depth := max left.depth right.depth + 1 }

/-- Begins the operand after an operator. -/
def operator (f : Flags) (op : SetOp) (level : ClassLevel) : ClassLevel :=
  { level with left := some (op, level.joined f), items := [] }

/-- The class when its closing bracket is reached. -/
def close (f : Flags) (level : ClassLevel) : NestedClass :=
  let body := level.joined f
  { accepts := (f.fold body.accepts).negateIf level.negated, depth := body.depth + 1 }

end ClassLevel

/-- Takes hyphens, which stand for themselves at the beginning of a class. -/
def takeHyphens (f : Flags) : (fuel count : Nat) → List Char → Nat × List Char
  | 0, count, cs => (count, cs)
  | fuel + 1, count, cs =>
    match cs with
    | '-' :: rest => takeHyphens f fuel (count + 1) (skip f rest)
    | _ => (count, cs)

/-- Opens a class after its bracket. A closing bracket at once stands for itself. -/
def openClass (f : Flags) (cs : List Char) : Option (ClassLevel × List Char) := do
  let (negated, cs) := match skip f cs with
    | '^' :: rest => (true, skip f rest)
    | rest => (false, rest)
  if !f.unicode && negated then none
  let (hyphens, cs) := takeHyphens f cs.length 0 cs
  let item (c : Char) : NestedClass := ⟨.single c, 0⟩
  let level : ClassLevel := ⟨negated, none, List.replicate hyphens (item '-')⟩
  match cs with
  | [] => none
  | ']' :: rest =>
    if hyphens = 0 then
      let rest := skip f rest
      if rest.isEmpty then none else some (level.add (item ']'), rest)
    else some (level, cs)
  | _ => some (level, cs)

/-- A bracketed name such as `[:alpha:]`, after its first bracket. -/
def namedClass? (f : Flags) : List Char → Option (NestedClass × List Char)
  | ':' :: rest =>
    let (negated, rest) := match rest with
      | '^' :: rest => (true, rest)
      | _ => (false, rest)
    match splitOnText [':'] rest with
    | some (name, ']' :: rest) => do
      let p ← asciiClass? (String.ofList name)
      some (⟨(f.fold p).negateIf negated, 0⟩, rest)
    | _ => none
  | _ => none

/-- Reads one character or escape of a class. -/
def readClassAtom (f : Flags) : List Char → Option (Atom × List Char)
  | [] => none
  | '\\' :: rest => readEscape f rest
  | c :: rest => some (.literal c false, rest)

/-- The character of an atom that may bound a range. Without Unicode it has to be of ASCII. -/
def Atom.bound? (f : Flags) : Atom → Option Char
  | .literal c _ => if f.unicode || c.toNat < 0x80 then some c else none
  | _ => none

/-- Reads a character, a range or a class inside of a class. -/
def readClassItem (f : Flags) (cs : List Char) : Option (NestedClass × List Char) := do
  let (first, rest) ← readClassAtom f cs
  let rest := skip f rest
  let alone : Option (NestedClass × List Char) :=
    match first with
    | .klass p _ => some (⟨p, 0⟩, rest)
    | atom => do some (⟨.single (← atom.bound? f), 0⟩, rest)
  match rest with
  | [] => none
  | '-' :: after =>
    match skip f after with
    | [] => none
    | ']' :: _ | '-' :: _ => alone
    | after => do
      let lo ← first.bound? f
      let (last, rest) ← readClassAtom f after
      let hi ← last.bound? f
      if lo ≤ hi then some (⟨.range lo hi, 0⟩, rest) else none
  | _ => alone

/-- Reads a class up to the bracket that closes it. -/
def readClass (f : Flags) :
    (fuel : Nat) → ClassLevel → (outer : List ClassLevel) → List Char →
      Option (NestedClass × List Char)
  | 0, _, _, _ => none
  | fuel + 1, level, outer, cs =>
    match skip f cs with
    | [] => none
    | '[' :: rest =>
      match namedClass? f rest with
      | some (item, rest) => readClass f fuel (level.add item) outer rest
      | none => do
        let (inner, rest) ← openClass f rest
        readClass f fuel inner (level :: outer) rest
    | ']' :: rest =>
      let item := level.close f
      match outer with
      | [] => some (item, rest)
      | up :: outer => readClass f fuel (up.add item) outer rest
    | '&' :: '&' :: rest => readClass f fuel (level.operator f .inter) outer rest
    | '-' :: '-' :: rest => readClass f fuel (level.operator f .diff) outer rest
    | '~' :: '~' :: rest => readClass f fuel (level.operator f .symmDiff) outer rest
    | cs => do
      let (item, rest) ← readClassItem f cs
      readClass f fuel (level.add item) outer rest

/-! ## Groups -/

/-- A part of a pattern with the depth to which it is nested. Setting flags is a part without an
expression, which cannot be repeated. -/
structure Part where
  expr : Option Expr
  depth : Nat

/-- Branches that are complete, newest first, and the parts of the current one, newest first. -/
structure Level where
  flags : Flags
  branches : List Part
  parts : List Part

/-- The parts of a branch, in order, as one. -/
def joinParts (parts : List Part) : Part :=
  let deepest := (parts.map (·.depth)).foldl max 0
  let exprs := (parts.filterMap (·.expr)).reverse
  { expr := some (match exprs with
      | [] => .empty
      | first :: rest => rest.foldl .seq first)
    depth := if 2 ≤ parts.length then deepest + 1 else deepest }

/-- The branches of a level as one part. -/
def Level.joined (level : Level) : Part :=
  let branches := (joinParts level.parts :: level.branches).reverse
  let deepest := (branches.map (·.depth)).foldl max 0
  match branches.filterMap (·.expr) with
  | [] => ⟨some .empty, 0⟩
  | [only] => ⟨some only, deepest⟩
  | first :: rest => ⟨some (rest.foldl .alt first), deepest + 1⟩

/-- Adds a part to the current branch. -/
def Level.add (level : Level) (expr : Expr) (depth : Nat) : Level :=
  { level with parts := ⟨some expr, depth⟩ :: level.parts }

/-- Repeats the last part, if it can be repeated. -/
def Level.repeatLast (level : Level) (least : Nat) (most : Option Nat) : Option Level :=
  match level.parts with
  | ⟨some body, depth⟩ :: parts =>
    some { level with parts := ⟨some (.repeated body least most), depth + 1⟩ :: parts }
  | _ => none

/-- Begins the next branch. -/
def Level.nextBranch (level : Level) : Level :=
  { level with branches := joinParts level.parts :: level.branches, parts := [] }

/-- What reading keeps: the level at hand, the open levels around it, and the names of groups. -/
structure ReadState where
  level : Level
  outer : List Level
  names : List (List Char)

/-- Reads flags up to `:` or `)`, which stays in front of the rest. -/
def readFlags : (fuel : Nat) → (flags : Flags) → (seen : List Char) → (dangling : Bool) →
    List Char → Option (Flags × Bool × List Char)
  | 0, _, _, _, _ => none
  | fuel + 1, flags, seen, dangling, cs =>
    match cs with
    | [] => none
    | c :: rest =>
      if c = ':' ∨ c = ')' then
        if dangling then none else some (flags, !seen.isEmpty, cs)
      else if seen.contains c then none
      else if c = '-' then readFlags fuel flags (c :: seen) true rest
      else do
        let flags ← flags.set? c (!seen.contains '-')
        readFlags fuel flags (c :: seen) false rest

/-- Whether the name of a group is well formed. -/
def isGroupName : List Char → Bool
  | [] => false
  | first :: rest =>
    (first == '_' || isAlphabetic first) &&
      rest.all fun c => c == '_' || c == '.' || c == '[' || c == ']' || isAlphanumeric c

/-- Opens a group, or sets flags, after an opening parenthesis. -/
def openGroup (s : ReadState) (cs : List Char) : Option (ReadState × List Char) :=
  let f := s.level.flags
  let inner (flags : Flags) : ReadState :=
    { s with level := ⟨flags, [], []⟩, outer := s.level :: s.outer }
  let named (cs : List Char) : Option (ReadState × List Char) := do
    let (name, rest) ← splitOnText ['>'] cs
    if !isGroupName name || s.names.contains name then none
    some ({ inner f with names := name :: s.names }, rest)
  match skip f cs with
  | '?' :: '=' :: _ | '?' :: '!' :: _ | '?' :: '<' :: '=' :: _ | '?' :: '<' :: '!' :: _ => none
  | '?' :: 'P' :: '<' :: rest => named rest
  | '?' :: '<' :: rest => named rest
  | '?' :: rest => do
    let (flags, given, rest) ← readFlags (rest.length + 1) f [] false rest
    match rest with
    | ')' :: rest =>
      if given then
        some ({ s with level := { s.level with flags, parts := ⟨none, 0⟩ :: s.level.parts } }, rest)
      else none
    | _ => some (inner flags, rest.drop 1)
  | rest => some (inner f, rest)

/-- Closes the group at hand. The flags from before the group are in force again. -/
def closeGroup (s : ReadState) : Option ReadState :=
  match s.outer with
  | [] => none
  | up :: outer =>
    let part := s.level.joined
    some { s with level := up.add (part.expr.getD .empty) (part.depth + 1), outer }

/-! ## Patterns -/

/-- The number of bytes of a character. -/
def byteLength (c : Char) : Nat := c.utf8Size

/-- The expression of an atom outside of a class. -/
def Atom.expr? (f : Flags) : Atom → Option Expr
  | .literal c byte =>
    if !f.unicode && byte && 0x80 ≤ c.toNat then none
    else if !f.unicode && 0x80 ≤ c.toNat then some (.one (.single c) (byteLength c))
    else some (.one (f.fold (.single c)) (byteLength c))
  | .klass p size => some (.one p size)
  | .look assertion => some (.look assertion)
  | .dot =>
    if !f.unicode then none
    else if f.dotNewline then some (.one .all 10)
    else if f.crlf then some (.one (fun c => c != '\n' && c != '\r') 10)
    else some (.one (fun c => c != '\n') 10)

/-- What a character that is no operator stands for. -/
def readAtom (f : Flags) : List Char → Option (Atom × List Char)
  | [] => none
  | '\\' :: rest => readEscape f rest
  | '.' :: rest => some (.dot, rest)
  | '^' :: rest => some (.look (if f.multiLine then .lineStart f.crlf else .textStart), rest)
  | '$' :: rest => some (.look (if f.multiLine then .lineEnd f.crlf else .textEnd), rest)
  | c :: rest => some (.literal c false, rest)

/-- Drops the mark of a lazy repetition. -/
def dropLazy : List Char → List Char
  | '?' :: rest => rest
  | rest => rest

/-- Reads a pattern to its end. Each round takes a character at least. -/
def readPattern : (fuel : Nat) → ReadState → List Char → Option Part
  | 0, _, _ => none
  | fuel + 1, s, cs =>
    let f := s.level.flags
    let repeated (least : Nat) (most : Option Nat) (rest : List Char) := do
      let level ← s.level.repeatLast least most
      readPattern fuel { s with level } rest
    match skip f cs with
    | [] => if s.outer.isEmpty then some s.level.joined else none
    | '(' :: rest => do
      let (s, rest) ← openGroup s rest
      readPattern fuel s rest
    | ')' :: rest => do readPattern fuel (← closeGroup s) rest
    | '|' :: rest => readPattern fuel { s with level := s.level.nextBranch } rest
    | '[' :: rest => do
      let (level, rest) ← openClass f rest
      let (p, rest) ← readClass f (rest.length + 1) level [] rest
      readPattern fuel { s with level := s.level.add (.one p.accepts 16) p.depth } rest
    | '?' :: rest => repeated 0 (some 1) (dropLazy rest)
    | '*' :: rest => repeated 0 none (dropLazy rest)
    | '+' :: rest => repeated 1 none (dropLazy rest)
    | '\x7b' :: rest => do
      let ((least, most), rest) ← readBounds f rest
      repeated least most (dropLazy (skip f rest))
    | cs => do
      let (atom, rest) ← readAtom f cs
      readPattern fuel { s with level := s.level.add (← atom.expr? f) 0 } rest

/-- How deeply a pattern may be nested. -/
def maxDepth : Nat := 250

/-- How many states a pattern may take. -/
def maxSize : Nat := 327680

end Regex

/-- A regular expression with the pattern that it was read from. -/
structure Regex where
  pattern : String
  expr : Regex.Expr

/-- Reads a pattern; `none` if it is refused. -/
def Regex.parse? (pattern : String) : Option Regex := do
  let cs := pattern.toList
  let part ← Regex.readPattern (cs.length + 1) ⟨⟨{}, [], []⟩, [], []⟩ cs
  let expr ← part.expr
  if part.depth ≤ Regex.maxDepth && expr.size ≤ Regex.maxSize then some ⟨pattern, expr⟩ else none

/-- Whether a text contains a match. -/
def Regex.matches (r : Regex) (text : String) : Bool := r.expr.matches text

end TimeSeries
