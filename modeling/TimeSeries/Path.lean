import TimeSeries.Text.Pieces

/-!
# Paths

A path keeps the text in which it was given, for messages, and the steps from the top of the file
system that it stands for. Steps are separated by slashes. An empty step and the step `.` stay
where they are, and the step `..` goes back up.
-/

namespace TimeSeries

/-- A place in the file system. -/
structure Path where
  text : String
  steps : List String
  deriving DecidableEq, Repr

namespace Path

/-- Takes one step. -/
def walk (steps : List String) (step : String) : List String :=
  if step = "" ∨ step = "." then steps
  else if step = ".." then steps.dropLast
  else steps ++ [step]

/-- Takes the steps that a text writes. -/
def walkText (steps : List String) (text : String) : List String :=
  ((Text.pieces (· == '/') text.toList).map String.ofList).foldl walk steps

/-- Whether a text starts at the top. -/
def startsAtTop (text : String) : Bool := text.toList.head? == some '/'

/-- The path that a text writes, from the working directory, which is the top. -/
def ofText (text : String) : Path := ⟨text, walkText [] text⟩

/-- The path that a text writes, from a directory. -/
def join (dir : Path) (text : String) : Path :=
  if startsAtTop text then ofText text
  else if dir.text = "" ∨ dir.text.toList.getLast? = some '/' then
    ⟨dir.text ++ text, walkText dir.steps text⟩
  else ⟨dir.text ++ "/" ++ text, walkText dir.steps text⟩

/-- The steps to the directory that holds a path. -/
def parentSteps (p : Path) : List String := p.steps.dropLast

end Path

end TimeSeries
