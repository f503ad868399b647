import TimeSeries.Text.CaseTables

/-!
# Lower case

The full lower case of a text. Each character is lowered on its own, with two exceptions: `İ`
becomes two characters, and a capital sigma is lowered by its neighbours. At the end of a word,
which means after a cased character and not before one, it becomes `ς`, elsewhere `σ`; the
search for the neighbour skips the case-ignorable characters.
-/

namespace TimeSeries.Text

/-- Whether a character has a case. -/
def isCased (c : Char) : Bool := inRanges casedRanges c.toNat

/-- Whether the search for a cased neighbour skips a character. -/
def isCaseIgnorable (c : Char) : Bool := inRanges caseIgnorableRanges c.toNat

/-- The first character that is not skipped has a case. -/
def casedNext (cs : List Char) : Bool :=
  match cs.dropWhile isCaseIgnorable with
  | [] => false
  | c :: _ => isCased c

/-- The lower case of a code point by the runs of the table. -/
def lowerByRuns : List LoweringRun → Nat → Nat
  | [], n => n
  | run :: rest, n =>
    if n < run.first then n
    else if n ≤ run.last ∧ (n - run.first) % run.step = 0 then (n + run.shift).toNat
    else lowerByRuns rest n

/-- The lower case of one character, when it is one character. -/
def lowerChar (c : Char) : Char :=
  if c.toNat < 0x80 then c.toLower else Char.ofNat (lowerByRuns loweringRuns c.toNat)

/-- Lowers the characters that follow `before`, which is held in reverse. -/
def lowerAfter : List Char → List Char → List Char
  | _, [] => []
  | before, c :: rest =>
    let lowered :=
      if c = 'Σ' then (if casedNext before && !casedNext rest then ['ς'] else ['σ'])
      else if c = 'İ' then ['i', '\u0307']
      else [lowerChar c]
    lowered ++ lowerAfter (c :: before) rest

/-- The full lower case of a text. -/
def lower (text : String) : String := String.ofList (lowerAfter [] text.toList)

/-- Lower-cases the letters `A` to `Z` only. -/
def lowerAscii (text : String) : String := String.ofList (text.toList.map Char.toLower)

end TimeSeries.Text
