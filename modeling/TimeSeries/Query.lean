import TimeSeries.Matcher
import TimeSeries.Metric

/-!
# Queries

A query names a metric and asks something of the values under some tag keys, at most once for each
key. A query text is a metric name followed by words `key=value`, in which the value `*` asks for
any value. An aggregation says what becomes of the points of several metrics.
-/

namespace TimeSeries

/-- A metric name and what is asked of the tags. -/
structure Query where
  metric : String
  matchers : List Matcher

namespace Query

/-- The first key that stands in a list a second time. -/
def repeatedKey? : (seen : List String) → List Matcher → Option String
  | _, [] => none
  | seen, m :: rest => if seen.contains m.key then some m.key else repeatedKey? (m.key :: seen) rest

/-- The query of a name and matchers. -/
def new (metric : String) (matchers : List Matcher) : Except Error Query := do
  let metric := Text.trim metric
  if metric.isEmpty then throw (.invalid .emptyQueryMetric)
  match repeatedKey? [] matchers with
  | some key => throw (.invalid (.repeatedMatcherKey key))
  | none => return ⟨metric, matchers⟩

/-- Reads a matcher from a word of a query text. -/
def parseMatcher (word : String) : Except Error Matcher :=
  match Tag.split? word with
  | none => .error (.invalid (.malformedQueryTag word))
  | some (key, value) =>
    if value = "*" then Matcher.wildcard key value false else Matcher.exact key value

/-- Reads a query text. -/
def parse (text : String) : Except Error Query :=
  match Text.words text with
  | [] => .error (.invalid .emptyQuery)
  | metric :: rest => do new metric (← rest.mapM parseMatcher)

/-- How a query is written. -/
def display (q : Query) : String :=
  q.matchers.foldl (fun text m => text ++ " " ++ m.display) q.metric

/-- Whether two queries are the same, matcher by matcher. -/
def same (q r : Query) : Bool :=
  q.metric == r.metric && q.matchers.length == r.matchers.length &&
    (q.matchers.zip r.matchers).all fun (m, n) => m.same n

end Query

/-- What becomes of the points of several metrics. -/
inductive Aggregation where
  /-- They stay apart. -/
  | none
  /-- They are added up at each time. -/
  | zimsum
  deriving DecidableEq, Repr

namespace Aggregation

/-- The name of an aggregation. -/
def display : Aggregation → String
  | none => "none"
  | zimsum => "zimsum"

/-- Reads the name of an aggregation, in any case of the letters of ASCII. -/
def parse (text : String) : Except Error Aggregation :=
  match Text.lowerAscii (Text.trim text) with
  | "none" => .ok none
  | "zimsum" => .ok zimsum
  | other => .error (.invalid (.unknownAggregation other))

end Aggregation

end TimeSeries
