import TimeSeries.Error
import TimeSeries.Glob
import TimeSeries.Regex.Parser

/-!
# Tag matchers

A matcher asks something of the value that a metric has under one tag key. There are five kinds of
questions: equality, a glob, a list of alternatives, the exclusion of a list of alternatives, and
a regular expression. Globs and lists may ignore case, which means that both sides are lowered.
-/

namespace TimeSeries

/-- What is asked of a value. -/
inductive ValueTest where
  | exact (value : String)
  | wildcard (pattern : String) (ignoreCase : Bool)
  | literalOr (pattern : String) (ignoreCase : Bool)
  | notLiteralOr (pattern : String) (ignoreCase : Bool)
  | regexp (regex : Regex)

/-- A question about the value under a key. -/
structure Matcher where
  key : String
  test : ValueTest

namespace ValueTest

/-- The name of the kind of a question. -/
def kind : ValueTest → String
  | exact _ => "exact"
  | wildcard _ false => "wildcard"
  | wildcard _ true => "iwildcard"
  | literalOr _ false => "literal_or"
  | literalOr _ true => "iliteral_or"
  | notLiteralOr _ false => "not_literal_or"
  | notLiteralOr _ true => "not_iliteral_or"
  | regexp _ => "regexp"

/-- The text that the value is compared with. -/
def pattern : ValueTest → String
  | exact value => value
  | wildcard pattern _ | literalOr pattern _ | notLiteralOr pattern _ => pattern
  | regexp regex => regex.pattern

/-- Whether metrics are removed by the question instead of selected. -/
def isExclusive : ValueTest → Bool
  | notLiteralOr .. => true
  | _ => false

/-- The alternatives of a list, which are separated by bars and not empty. -/
def alternatives (pattern : String) : List String :=
  ((Text.pieces (· == '|') pattern.toList).filter (!·.isEmpty)).map String.ofList

/-- Whether a value is one of the alternatives of a list. The empty value never is. -/
def isAlternative (pattern value : String) (ignoreCase : Bool) : Bool :=
  if value.isEmpty then false
  else if ignoreCase then
    let lowered := Text.lower value
    (alternatives pattern).any fun a => Text.lower a == lowered
  else (alternatives pattern).any (· == value)

/-- Whether a value is what is asked for. To an exclusion this is whether it is excluded. -/
def holds (test : ValueTest) (value : String) : Bool :=
  match test with
  | exact expected => expected == value
  | wildcard pattern false => Glob.accepts pattern value
  | wildcard pattern true => Glob.accepts (Text.lower pattern) (Text.lower value)
  | literalOr pattern ignoreCase | notLiteralOr pattern ignoreCase =>
    isAlternative pattern value ignoreCase
  | regexp regex => regex.matches value

end ValueTest

namespace Matcher

/-- Refuses a key that is blank. -/
def checkKey (key : String) : Except Error Unit :=
  if Text.isBlankText key then .error (.invalid .blankMatcherKey) else .ok ()

/-- Asks for one value. -/
def exact (key value : String) : Except Error Matcher := do
  checkKey key
  if Text.isBlankText value then throw (.invalid (.exactWithoutValue key))
  return ⟨key, .exact value⟩

/-- Asks for a value that matches a glob, which has a star. -/
def wildcard (key pattern : String) (ignoreCase : Bool) : Except Error Matcher := do
  checkKey key
  if !pattern.toList.contains '*' then throw (.invalid (.wildcardWithoutStar pattern))
  return ⟨key, .wildcard pattern ignoreCase⟩

/-- Asks for one of the alternatives of a list. -/
def literalOr (key pattern : String) (ignoreCase : Bool) : Except Error Matcher := do
  checkKey key
  return ⟨key, .literalOr pattern ignoreCase⟩

/-- Excludes the alternatives of a list. -/
def notLiteralOr (key pattern : String) (ignoreCase : Bool) : Except Error Matcher := do
  checkKey key
  return ⟨key, .notLiteralOr pattern ignoreCase⟩

/-- Asks for a value that contains a match of a regular expression. -/
def regexp (key pattern : String) : Except Error Matcher := do
  checkKey key
  match Regex.parse? pattern with
  | some regex => return ⟨key, .regexp regex⟩
  | none => throw (.invalid (.badRegex pattern))

/-- The matcher of a kind, by its name. -/
def ofKind? (kind key pattern : String) : Option (Except Error Matcher) :=
  match kind with
  | "exact" => some (exact key pattern)
  | "wildcard" => some (wildcard key pattern false)
  | "iwildcard" => some (wildcard key pattern true)
  | "literal_or" => some (literalOr key pattern false)
  | "iliteral_or" => some (literalOr key pattern true)
  | "not_literal_or" => some (notLiteralOr key pattern false)
  | "not_iliteral_or" => some (notLiteralOr key pattern true)
  | "regexp" => some (regexp key pattern)
  | _ => none

/-- The kind of a matcher. -/
def kind (m : Matcher) : String := m.test.kind

/-- The text that the value is compared with. -/
def pattern (m : Matcher) : String := m.test.pattern

/-- Whether metrics are removed instead of selected. -/
def isExclusive (m : Matcher) : Bool := m.test.isExclusive

/-- Whether two matchers ask the same of the same key: kinds and texts are equal. -/
def same (m n : Matcher) : Bool := m.kind == n.kind && m.key == n.key && m.pattern == n.pattern

/-- How a matcher is written. The two forms that a query text can hold are written as there. -/
def display (m : Matcher) : String :=
  match m.test with
  | .exact value => m.key ++ "=" ++ value
  | .wildcard "*" false => m.key ++ "=*"
  | test => m.key ++ "=" ++ test.kind ++ "(" ++ test.pattern ++ ")"

end Matcher

end TimeSeries
