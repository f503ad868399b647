import TimeSeries.Regex.Script
import TimeSeries.Text.Blank
import TimeSeries.Text.LowerCase

/-!
# Classes of characters

A class is a predicate on characters. This file has the classes that a pattern can name: the
properties of the character database, the classes of the escapes `\d`, `\s` and `\w` and those of
the bracketed names such as `[:alpha:]`. The escapes are documented to follow the compatibility
properties that Unicode recommends for regular expressions, the bracketed names to hold characters
of ASCII only. Ignoring case closes a class under simple case folding: a character belongs to it
when one with the same folding does.
-/

namespace TimeSeries.Regex

/-- A class of characters. -/
abbrev CharClass := Char → Bool

namespace CharClass

/-- The class of one character. -/
def single (c : Char) : CharClass := (· == c)

/-- The characters between two, both included. -/
def range (lo hi : Char) : CharClass := fun c => lo ≤ c && c ≤ hi

/-- No character. -/
def none : CharClass := fun _ => false

/-- Every character. -/
def all : CharClass := fun _ => true

/-- The characters that are not in a class. -/
def compl (p : CharClass) : CharClass := fun c => !p c

/-- The characters in one class or the other. -/
def union (p q : CharClass) : CharClass := fun c => p c || q c

/-- The characters in both classes. -/
def inter (p q : CharClass) : CharClass := fun c => p c && q c

/-- The characters in the first class and not in the second. -/
def diff (p q : CharClass) : CharClass := fun c => p c && !q c

/-- The characters in exactly one of the classes. -/
def symmDiff (p q : CharClass) : CharClass := fun c => p c != q c

/-- The class of a table of ranges. -/
def ofRanges (ranges : List (Nat × Nat)) : CharClass := fun c => Text.inRanges ranges c.toNat

/-- The complement of a class if `negated`. -/
def negateIf (negated : Bool) (p : CharClass) : CharClass := if negated then p.compl else p

end CharClass

/-! ## Case -/

/-- Characters whose folding is not their lower case. -/
def foldingExceptions : List (Char × Char) :=
  [('\u00b5', 'μ'), ('\u017f', 's'), ('\u0345', 'ι'), ('ς', 'σ'), ('ϐ', 'β'), ('ϑ', 'θ'),
    ('ϕ', 'φ'), ('ϖ', 'π'), ('ϰ', 'κ'), ('ϱ', 'ρ'), ('ϵ', 'ε'), ('\u1c80', 'в'), ('\u1c81', 'д'),
    ('\u1c82', 'о'), ('\u1c83', 'с'), ('\u1c84', 'т'), ('\u1c85', 'т'), ('\u1c86', 'ъ'),
    ('\u1c87', 'ѣ'),
    ('\u1c88', '\ua64b'), ('\u1e9b', '\u1e61'), ('\u1fbe', 'ι'), ('\u1fd3', '\u0390'),
    ('\u1fe3', '\u03b0'), ('\ufb06', '\ufb05')]

/-- The simple case folding of a character: characters that differ in case alone share it. -/
def foldCase (c : Char) : Char := (foldingExceptions.lookup c).getD (Text.lowerChar c)

/-- The characters that may share a folding with others, from the runs of lower-casing. -/
def foldablePairs (folded : Char) : List Char :=
  let sources := Text.loweringRuns.filterMap fun run =>
    let source := (Int.ofNat folded.toNat - run.shift).toNat
    if run.first ≤ source && source ≤ run.last && (source - run.first) % run.step == 0
    then some (Char.ofNat source) else none
  folded :: sources ++ (foldingExceptions.filter (·.2 == folded)).map Prod.fst

/-- The characters with the same folding as a given one. -/
def caseVariants (c : Char) : List Char :=
  (c :: foldablePairs (foldCase c)).filter fun d => foldCase d == foldCase c

/-- A class closed under differences in case. -/
def CharClass.ignoringCase (p : CharClass) : CharClass := fun c => (caseVariants c).any p

/-- A class closed under the case of the letters `A` to `Z` alone. -/
def CharClass.ignoringAsciiCase (p : CharClass) : CharClass :=
  fun c => p c || p c.toLower || p c.toUpper

/-! ## Properties -/

/-- The marks that count as letters of words. -/
def alphabeticMarks : List (Nat × Nat) := rangesOfRuns
    ("345 1 1d d 240 e 1 1 1 2 1 2 1 1 48 b 30 d 1 7 10 1 65 7 4 4 2 2 4 1 23 1 1e 10 66 b 65 2 " ++
    "3 9 1 3 1 4 6a 1 3c c 3 7 6 14 36 2 2 f 1 2 5 3 a 2 1d 3 3a 7 2 2 2 2 a 1 a 2 1d 3 3a 5 4 " ++
    "2 2 2 4 1 1e 2 3 1 b 3 3a 8 1 3 1 2 15 2 16 3 4 3 3a 7 2 2 2 2 9 2 a 2 1e 1 3b 5 3 3 1 3 " ++
    "a 1 28 5 39 7 1 3 1 3 8 2 b 2 1d 3 3a 7 1 3 1 3 8 2 b 2 f 1 c 4 3a 7 1 3 1 3 a 1 a 2 1d 3 " ++
    "4b 6 1 1 1 8 12 2 3d 1 2 7 12 1 63 1 2 6 1 2 10 1 a3 13 9 b 1 24 6e c 1 1 2 4 17 4 4 3 1 " ++
    "3 2 7 3 4 d c 1 1 a 4 674 2 1e 2 1e 2 1e 2 42 13 bc 2 22 1 76 c 4 9 de 5 39 a 2 14 4a 2 b " ++
    "3 31 5 30 f 3c 3 1e 9 2 2 39 b 32 13 19c 22 feb 20 7874 8 22 2 162 1 8 1 17 5 58 2 32 10 " ++
    "1 1 39 1 26 5 1c c 2d 4 30 c 25 1 43 e c 1 8 2 2d 3 32 1 1 3 2 2 5 1 2c 5 5 1 ed 8 4f33 1 " ++
    "857 5 686 3 1 2 5 4 314 4 41 1 141 2 4d 3 103 3 35 e 2d 2 b 3 2d 9 9 1 3d 3 24 c 12 2 39 " ++
    "3 30 d e 2 5c 9 2 1 6 1 2 1 9d a 17 4 3a 7 2 2 2 2 a 1 a 2 54 9 1 1 2 1 1 4 1 2 67 d 1 3 " ++
    "6a 12 ed 7 2 7 1d 2 52 f 1 1 6a b 67 e 101 d f7 6 1 2 2 2 3 1 1 1 8e 7 2 6 4 1 1c a 2a 5 " ++
    "1 4 12 b 2e e c8 8 c7 8 1 7 53 16 1 e 7a 6 3 1 1 2 1 3 1 1 3 1 42 5 1 2 1 4 15c 4 9 2 1 1 " ++
    "30 7 3 3 41dd 11 e20 1 1 37 7 4 5d 2 4cac 1 2361 7 1 11 2 7 1 2 1 5 64 1 653 1 2 1 7 2 5 " ++
    "1 251 1")

/-- Letters in circles and squares, which are symbols by their category. -/
def enclosedLetters : CharClass :=
  .ofRanges [(0x24B6, 0x24E9), (0x1F130, 0x1F149), (0x1F150, 0x1F169), (0x1F170, 0x1F189)]

/-- The characters of words in a wide sense: letters, letter numbers and the marks on them. -/
def isAlphabetic : CharClass := fun c =>
  isInGroup 'L' c || isInCategory ⟨'N', 'l'⟩ c || enclosedLetters c ||
    Text.inRanges alphabeticMarks c.toNat

/-- Alphabetic and numeric characters. -/
def isAlphanumeric : CharClass := fun c => isAlphabetic c || isInGroup 'N' c

/-- The decimal digits of all scripts. -/
def isDecimalDigit : CharClass := isInCategory ⟨'N', 'd'⟩

/-- The characters of words: alphabetic ones, marks, decimal digits, connectors and joiners. -/
def isWordChar : CharClass := fun c =>
  isAlphabetic c || isInGroup 'M' c || isDecimalDigit c || isInCategory ⟨'P', 'c'⟩ c ||
    c == '\u200c' || c == '\u200d'

/-- Lower-case letters and what is written like them. -/
def isLowercase : CharClass :=
  .union (isInCategory ⟨'L', 'l'⟩) (.ofRanges [(0xAA, 0xAA), (0xBA, 0xBA), (0x2B0, 0x2B8),
    (0x2C0, 0x2C1), (0x2E0, 0x2E4), (0x345, 0x345), (0x37A, 0x37A), (0x10FC, 0x10FC),
    (0x1D2C, 0x1D6A), (0x1D78, 0x1D78), (0x1D9B, 0x1DBF), (0x2071, 0x2071), (0x207F, 0x207F),
    (0x2090, 0x209C), (0x2170, 0x217F), (0x24D0, 0x24E9), (0x2C7C, 0x2C7D), (0xA69C, 0xA69D),
    (0xA770, 0xA770), (0xA7F1, 0xA7F4), (0xA7F8, 0xA7F9), (0xAB5C, 0xAB5F), (0xAB69, 0xAB69),
    (0x10780, 0x10780), (0x10783, 0x10785), (0x10787, 0x107B0), (0x107B2, 0x107BA),
    (0x1E030, 0x1E06D)])

/-- Upper-case letters and what is written like them. -/
def isUppercase : CharClass :=
  .union (isInCategory ⟨'L', 'u'⟩) (.ofRanges [(0x2160, 0x216F), (0x24B6, 0x24CF),
    (0x1F130, 0x1F149), (0x1F150, 0x1F169), (0x1F170, 0x1F189)])

/-- Hexadecimal digits, also the wide ones. -/
def isHexDigit : CharClass :=
  .ofRanges [(0x30, 0x39), (0x41, 0x46), (0x61, 0x66), (0xFF10, 0xFF19), (0xFF21, 0xFF26),
    (0xFF41, 0xFF46)]

/-- The properties that are not categories or scripts, by their names in lower case and without
separators. -/
def properties : List (List String × CharClass) := [
  (["alphabetic", "alpha"], isAlphabetic),
  (["lowercase", "lower"], isLowercase),
  (["uppercase", "upper"], isUppercase),
  (["whitespace", "wspace", "space"], Text.isBlank),
  (["cased"], Text.isCased),
  (["caseignorable", "ci"], Text.isCaseIgnorable),
  (["hexdigit", "hex"], isHexDigit),
  (["asciihexdigit", "ahex"], .ofRanges [(0x30, 0x39), (0x41, 0x46), (0x61, 0x66)]),
  (["joincontrol", "joinc"], .ofRanges [(0x200C, 0x200D)]),
  (["dash"], .ofRanges (rangesOfRuns
    ("2d 1 55c 1 33 1 e41 1 405 1 809 6 3d 1 27 1 f 1 186 1 c04 1 2 1 1f 2 4 1 1c 1 1be 1 13 1 " ++
    "6f 1 cd90 2 25 1 a 1 a9 1 e60 1 13e 1"))),
  (["math"], .ofRanges (rangesOfRuns
    ("2b 1 10 3 1f 1 1d 1 1 1 2d 1 4 1 25 1 1f 1 2d8 3 2 1 1a 2 2 3 20f 3 1a0d 1 1b 3 b 1 3 1 d " ++
    "1 e 4 15 5 b 5 41 d 4 1 3 2 4 5 12 1 4 1 2 a 1 1 2 6 6 1 3 2 2 2 1 3 1 6 3 e 1 1 44 18 1 " ++
    "6 1 2 4 2 4 20 1 1 6 2 e 10c 8 4 14 2 5a 1 1e 1b 1 1 18 1 b 7 1bd 2 c a 4 6 4 2 2 2 3 5 e " ++
    "1 1 1 2 6 b 8 5 2 39 1 1 1 1d 4 9 3 150 40 100 200 30 15 2 6 cfdc 1 337 6 1 1 a2 1 10 3 " ++
    "1d 1 1 1 1d 1 1 1 83 1 6 4 da1 2 c160 1 50f 55 1 47 1 2 2 1 2 2 2 4 1 c 1 1 1 7 1 41 1 4 " ++
    "2 8 1 7 1 1c 1 4 1 5 1 1 3 7 1 154 2 124 2 32 1600 4 1 1b 1 2 1 1 2 1 1 a 1 4 1 1 1 1 6 1 " ++
    "4 1 1 1 1 1 1 3 1 2 1 1 2 1 1 1 1 1 1 1 1 1 1 2 1 1 2 4 1 7 1 4 1 4 1 1 1 a 1 11 5 3 1 5 " ++
    "1 11 34 2 9de 9"))),
  (["ideographic", "ideo"], .ofRanges (rangesOfRuns
    ("3006 2 19 9 e 3 3c5 19c0 40 5200 5900 16e 2 6a 750a 1 d 5 9 1cd6 29 20 61 73 237d 18c " ++
    "4d04 a6e0 20 111e 2 168e 2 1d31 f 26e 9a2 21e 5e2 134b 5 212a"))),
  (["emoji"], .ofRanges (rangesOfRuns
    ("23 1 6 1 5 a 6f 1 4 1 1f8d 1 c 1 d8 1 16 1 5a 6 f 2 16f 2 c 1 a6 1 19 b 4 3 c7 1 e7 2 a 1 " ++
    "9 1 3a 4 1 5 9 1 2 1 2 2 2 1 4 1 2 1 1 2 2 1 3 1 3 2 8 3 5 1 1 1 5 c b 2 2 1 1 2 1 1 12 1 " ++
    "2 2 12 6 1 1 1 2 3 2 5 1 2 2 4 2 b 2 5 2 2 1 5 2 1 1 1 2 14 2 5 6 1 4 2 1 4 1 2 1 2 6 1 1 " ++
    "2 1 1 1 1 1 6 1 3 1 6 1 a 2 f 1 2 1 4 1 1 1 4 3 1 1 b 2 30 3 9 1 e 1 e 1 174 2 1cf 3 13 2 " ++
    "33 1 4 1 4da 1 c 1 259 1 1 1 1bd6a 1 ca 1 a0 2 c 2 e 1 2 a 4b 1a 1 2 17 1 14 1 2 9 15 2 " ++
    "ae 22 2 70 2 2 1 3 2 53 2 3 1 107 1 3f b 6 1 18 7 2 2 8 c 1 2 4 2 1 4 2 d 2 2 1 8 2 9 1 5 " ++
    "3 c 3 8 3 2 1 1 1 4 1 6 1 3 1 6 56 30 46 5 8 2 4 3 a 3 1 1 2 3 1 2 a e3 c 4 1 11b 2f 1 a " ++
    "1 b9 70 d 3 b 3 39 1 1 4 10 2 c 4 a")))]

/-- Groups of categories and single categories, by their names. -/
def categoryNames : List (List String × CharClass) :=
  [(["c", "other"], isInGroup 'C'), (["l", "letter"], isInGroup 'L'),
    (["m", "mark", "combiningmark"], isInGroup 'M'), (["n", "number"], isInGroup 'N'),
    (["p", "punctuation", "punct"], isInGroup 'P'), (["s", "symbol"], isInGroup 'S'),
    (["z", "separator"], isInGroup 'Z'),
    (["lc", "casedletter"], fun c =>
      isInCategory ⟨'L', 'u'⟩ c || isInCategory ⟨'L', 'l'⟩ c || isInCategory ⟨'L', 't'⟩ c),
    (["any"], CharClass.all), (["assigned"], CharClass.compl (isInCategory ⟨'C', 'n'⟩)),
    (["ascii"], CharClass.ofRanges [(0, 0x7F)])] ++
  ([("cc", ["control", "cntrl"]), ("cf", ["format"]), ("cn", ["unassigned"]),
    ("co", ["privateuse"]), ("cs", ["surrogate"]), ("ll", ["lowercaseletter"]),
    ("lm", ["modifierletter"]), ("lo", ["otherletter"]), ("lt", ["titlecaseletter"]),
    ("lu", ["uppercaseletter"]), ("mc", ["spacingmark"]), ("me", ["enclosingmark"]),
    ("mn", ["nonspacingmark"]), ("nd", ["decimalnumber", "digit"]), ("nl", ["letternumber"]),
    ("no", ["othernumber"]), ("pc", ["connectorpunctuation"]), ("pd", ["dashpunctuation"]),
    ("pe", ["closepunctuation"]), ("pf", ["finalpunctuation"]), ("pi", ["initialpunctuation"]),
    ("po", ["otherpunctuation"]), ("ps", ["openpunctuation"]), ("sc", ["currencysymbol"]),
    ("sk", ["modifiersymbol"]), ("sm", ["mathsymbol"]), ("so", ["othersymbol"]),
    ("zl", ["lineseparator"]), ("zp", ["paragraphseparator"]), ("zs", ["spaceseparator"])].map
    fun (short, long) =>
      (short :: long, match short.toList with
        | [group, member] => isInCategory ⟨group.toUpper, member⟩
        | _ => CharClass.none))

/-- A class of a table, by name. -/
def findNamed (table : List (List String × CharClass)) (name : String) : Option CharClass :=
  (table.find? (·.1.contains name)).map Prod.snd

/-- A name without case, separators, characters outside of ASCII and a leading `is`. -/
def looseName (name : List Char) : String :=
  let plain (cs : List Char) := cs.filterMap fun c =>
    if c == ' ' || c == '_' || c == '-' || 0x80 ≤ c.toNat then Option.none else some c.toLower
  match name.map Char.toLower, name with
  | 'i' :: 's' :: _, _ :: _ :: rest =>
    if plain rest = ['c'] then "isc" else String.ofList (plain rest)
  | _, _ => String.ofList (plain name)

/-- The class of a category, a script or a property that stands alone. A name that could be a
category is one. -/
def propertyClass? (name : List Char) : Option CharClass :=
  let name := looseName name
  let property := if name == "cf" || name == "sc" || name == "lc" then Option.none
    else findNamed properties name
  property <|> findNamed categoryNames name <|> (scriptRanges? name).map .ofRanges

/-- The class of a property with a value. -/
def propertyValueClass? (property value : List Char) : Option CharClass :=
  let value := looseName value
  match looseName property with
  | "gc" | "generalcategory" => findNamed categoryNames value
  | "sc" | "script" | "scx" | "scriptextensions" => (scriptRanges? value).map .ofRanges
  | _ => Option.none

/-! ## Classes of ASCII -/

/-- The bracketed class of a name. -/
def asciiClass? : String → Option CharClass
  | "alnum" => some (.ofRanges [(0x30, 0x39), (0x41, 0x5A), (0x61, 0x7A)])
  | "alpha" => some (.ofRanges [(0x41, 0x5A), (0x61, 0x7A)])
  | "ascii" => some (.ofRanges [(0, 0x7F)])
  | "blank" => some (.ofRanges [(0x09, 0x09), (0x20, 0x20)])
  | "cntrl" => some (.ofRanges [(0, 0x1F), (0x7F, 0x7F)])
  | "digit" => some (.ofRanges [(0x30, 0x39)])
  | "graph" => some (.ofRanges [(0x21, 0x7E)])
  | "lower" => some (.ofRanges [(0x61, 0x7A)])
  | "print" => some (.ofRanges [(0x20, 0x7E)])
  | "punct" => some (.ofRanges [(0x21, 0x2F), (0x3A, 0x40), (0x5B, 0x60), (0x7B, 0x7E)])
  | "space" => some (.ofRanges [(0x09, 0x0D), (0x20, 0x20)])
  | "upper" => some (.ofRanges [(0x41, 0x5A)])
  | "word" => some (.ofRanges [(0x30, 0x39), (0x41, 0x5A), (0x5F, 0x5F), (0x61, 0x7A)])
  | "xdigit" => some (.ofRanges [(0x30, 0x39), (0x41, 0x46), (0x61, 0x66)])
  | _ => Option.none

/-- The digits `0` to `9`. -/
def isAsciiDigit : CharClass := .ofRanges [(0x30, 0x39)]

/-- The white space of ASCII. -/
def isAsciiSpace : CharClass := .ofRanges [(0x09, 0x0D), (0x20, 0x20)]

/-- The word characters of ASCII. -/
def isAsciiWord : CharClass := .ofRanges [(0x30, 0x39), (0x41, 0x5A), (0x5F, 0x5F), (0x61, 0x7A)]

end TimeSeries.Regex
