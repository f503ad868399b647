import TimeSeries.Error
import TimeSeries.Text.Blank

/-!
# Metrics

A metric is a name with tags, and a tag is a key with a value. Names and the parts of tags are
single words, and a key holds no `=`. The *full name* of a metric is its name followed by its tags
in ascending order, so it does not depend on the order in which the tags were given. Metrics with
the same full name are the same metric.
-/

namespace TimeSeries

/-- A key with a value. -/
structure Tag where
  key : String
  value : String
  deriving DecidableEq, Repr, Inhabited

namespace Tag

/-- The tag as it is written. -/
def raw (t : Tag) : String := t.key ++ "=" ++ t.value

/-- Refuses a part of a tag that is no single word. -/
def checkPart (part : TagPart) (text : String) : Except Error Unit :=
  if Text.isBlankText text then .error (.invalid (.blankTagPart part))
  else if Text.hasBlank text then .error (.invalid (.spacedTagPart part text))
  else .ok ()

/-- The tag of a key and a value, if they can be one. -/
def new (key value : String) : Except Error Tag := do
  checkPart .key key
  checkPart .value value
  if key.toList.contains '=' then throw (.invalid (.keyWithEquals key))
  return ⟨key, value⟩

/-- The parts of a text around its first `=`. -/
def split? (text : String) : Option (String × String) :=
  match Text.cutFirst (· == '=') text.toList with
  | (_, none) => none
  | (key, some value) => some (String.ofList key, String.ofList value)

/-- Reads a tag from its written form. -/
def parse (text : String) : Except Error Tag :=
  match split? text with
  | some (key, value) => new key value
  | none => .error (.invalid (.malformedTag text))

end Tag

/-- A name with tags, in the order in which they were given. -/
structure Metric where
  name : String
  tags : List Tag
  deriving DecidableEq, Repr, Inhabited

namespace Metric

/-- Reads a metric from a name and written tags. Blank tags are left out. -/
def new (name : String) (tags : List String) : Except Error Metric := do
  let name := Text.trim name
  if name.isEmpty then throw (.invalid .blankMetricName)
  if Text.hasBlank name then throw (.invalid (.spacedMetricName name))
  let tags ← ((tags.map Text.trim).filter (!·.isEmpty)).mapM Tag.parse
  return ⟨name, tags⟩

/-- The written tags in ascending order. -/
def sortedTags (m : Metric) : List String := (m.tags.map Tag.raw).mergeSort (fun a b => a ≤ b)

/-- The name followed by the sorted tags, with a space before each. -/
def fullName (m : Metric) : String := " ".intercalate (m.name :: m.sortedTags)

/-- Whether two metrics are the same: their full names are. -/
def same (m n : Metric) : Bool := m.fullName == n.fullName

end Metric

end TimeSeries
