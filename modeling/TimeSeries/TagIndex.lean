import Std.Data.TreeMap
import TimeSeries.IdSet
import TimeSeries.Query

/-!
# The tag index

The index gives each metric an id, the first one 2 and then one more for each new metric, and it
answers queries with sets of ids.

A metric is entered under four kinds of keys: its full name, its name, each of its tag keys and
each of its tags. All kinds share one table, so a text may stand for several of them: a metric
can be named like a tag key of another. The table notes in which *roles* a text is a key, and
what is read under a text with more than one role is checked against the full names. Names, tag
keys and the values of exact questions are found in the table; all other questions about values
are put to the values in the full names.
-/

namespace TimeSeries

/-- What a key of the index stands for. -/
inductive KeyRole where
  | name
  | tagKey
  | tag
  deriving DecidableEq, Repr

/-- The roles in which a text is a key. -/
structure KeyRoles where
  name : Bool := false
  tagKey : Bool := false
  tag : Bool := false
  deriving DecidableEq, Repr, Inhabited

namespace KeyRoles

/-- Adds a role. -/
def add (roles : KeyRoles) : KeyRole → KeyRoles
  | .name => { roles with name := true }
  | .tagKey => { roles with tagKey := true }
  | .tag => { roles with tag := true }

/-- Whether there is a role other than the given one. -/
def hasOther (roles : KeyRoles) : KeyRole → Bool
  | .name => roles.tagKey || roles.tag
  | .tagKey => roles.name || roles.tag
  | .tag => roles.name || roles.tagKey

end KeyRoles

/-! ## Reading full names -/

namespace FullName

/-- The name and the tags in a full name: its pieces between spaces. -/
def tokens (fullName : String) : List (List Char) := Text.pieces (· == ' ') fullName.toList

/-- The value in the first tag of a full name that begins with a key and `=`. -/
def tagValue? (fullName key : String) : Option String :=
  ((tokens fullName).drop 1).findSome? fun token =>
    ((key.toList ++ ['=']).isPrefixOf? token).map String.ofList

/-- Whether a full name has a key in a role. -/
def hasKey (fullName key : String) : KeyRole → Bool
  | .name => (tokens fullName).head? == some key.toList
  | .tagKey => (tagValue? fullName key).isSome
  | .tag => ((tokens fullName).drop 1).contains key.toList

end FullName

/-! ## The index -/

/-- What is entered under a key: the metrics that have it, and its roles. A full name with tags
has no role. -/
structure IndexEntry where
  ids : IdSet := []
  roles : KeyRoles := {}
  deriving Inhabited

/-- The full names of the metrics in the order of their ids, and the table of keys. -/
structure TagIndex where
  names : Array String
  entries : Std.TreeMap String IndexEntry
  closed : Bool

/-- The size of an index. -/
structure TagIndexStats where
  metrics : Nat
  keys : Nat
  bytes : Nat
  deriving DecidableEq, Repr

namespace TagIndex

/-- The id of the first metric. -/
def firstId : SeriesId := 2

/-- The largest id. -/
def maxId : SeriesId := 4294967295

/-- The index without metrics. -/
def empty : TagIndex := ⟨#[], ∅, false⟩

instance : Inhabited TagIndex := ⟨empty⟩

/-- The full name of an id, if it has been given to a metric. -/
def fullName? (index : TagIndex) (id : SeriesId) : Option String :=
  if id < firstId then none else index.names[id - firstId]?

/-- The full name of an id, or the empty text. -/
def fullName (index : TagIndex) (id : SeriesId) : String := (index.fullName? id).getD ""

/-- What is entered under a key. -/
def entry (index : TagIndex) (key : String) : IndexEntry := (index.entries[key]?).getD {}

/-- The id of a metric, if it has one. The full name may also be a key of other metrics. -/
def find? (index : TagIndex) (m : Metric) : Option SeriesId :=
  (index.entry m.fullName).ids.find? fun id => index.fullName? id == some m.fullName

/-- Enters an id under a key, in a role if there is one. -/
def enter (id : SeriesId) (entries : Std.TreeMap String IndexEntry)
    (key : String × Option KeyRole) : Std.TreeMap String IndexEntry :=
  entries.alter key.1 fun old =>
    let old := old.getD {}
    some { ids := IdSet.insertNewest id old.ids
           roles := match key.2 with
             | some role => old.roles.add role
             | none => old.roles }

/-- The keys under which a metric is entered, with their roles. -/
def keysOf (m : Metric) : List (String × Option KeyRole) :=
  (m.fullName, none) :: (m.name, some .name) ::
    m.tags.flatMap fun t => [(t.key, some .tagKey), (t.raw, some .tag)]

/-- The id of a metric. A metric that is seen for the first time gets the next one. -/
def getOrCreate (index : TagIndex) (m : Metric) : Outcome TagIndex SeriesId :=
  if index.closed then (.error (.closed "tag store"), index)
  else
    match index.find? m with
    | some id => (.ok id, index)
    | none =>
      let id := index.names.size + firstId
      if maxId < id then (.error (.internal "series id space exhausted"), index)
      else
        (.ok id, { index with
          names := index.names.push m.fullName
          entries := (keysOf m).foldl (enter id) index.entries })

/-! ## Looking up -/

/-- The metrics that have a key in a role. -/
def idsFor (index : TagIndex) (key : String) (role : KeyRole) : IdSet :=
  let found := index.entry key
  if found.roles.hasOther role then
    found.ids.filter fun id => (index.fullName? id).any (FullName.hasKey · key role)
  else found.ids

/-- The metrics with one of the alternatives of a list under a key. -/
def idsForAny (index : TagIndex) (key pattern : String) : IdSet :=
  (ValueTest.alternatives pattern).foldl
    (fun ids value => IdSet.union ids (index.idsFor (key ++ "=" ++ value) .tag)) []

/-- Keeps the metrics whose value under the key of a matcher is what it asks for. -/
def filterByValue (index : TagIndex) (ids : IdSet) (m : Matcher) : IdSet :=
  ids.filter fun id =>
    (index.fullName? id).any fun name => (FullName.tagValue? name m.key).any m.test.holds

/-- Keeps the metrics that have the key of a matcher and that a matcher selects. -/
def select (index : TagIndex) (ids : IdSet) (m : Matcher) : IdSet :=
  let ids := IdSet.inter ids (index.idsFor m.key .tagKey)
  match m.test with
  | .exact value => IdSet.inter ids (index.idsFor (m.key ++ "=" ++ value) .tag)
  | .wildcard pattern _ => if pattern = "*" then ids else index.filterByValue ids m
  | .literalOr pattern false => IdSet.inter ids (index.idsForAny m.key pattern)
  | .literalOr _ true => index.filterByValue ids m
  | .notLiteralOr .. => ids
  | .regexp _ => index.filterByValue ids m

/-- Keeps the metrics that have the key of an exclusion and a value that it excludes. -/
def selectExcluded (index : TagIndex) (ids : IdSet) (m : Matcher) : IdSet :=
  let ids := IdSet.inter ids (index.idsFor m.key .tagKey)
  match m.test with
  | .notLiteralOr pattern false => IdSet.inter ids (index.idsForAny m.key pattern)
  | .notLiteralOr _ true => index.filterByValue ids m
  | _ => ids

/-- The metrics of a name that all the matchers select. -/
def included (index : TagIndex) (metric : String) (matchers : List Matcher) : IdSet :=
  matchers.foldl index.select (index.idsFor metric .name)

/-- The metrics of a name that all the exclusions hit. -/
def excluded (index : TagIndex) (metric : String) (matchers : List Matcher) : IdSet :=
  matchers.foldl index.selectExcluded (index.idsFor metric .name)

/-- Asks for the presence of the key of a matcher. -/
def presence (m : Matcher) : Matcher := ⟨m.key, .wildcard "*" false⟩

/-- The ids that a query selects. Metrics are removed that are hit by all the exclusions of the
query. Exclusions alone select the metrics that have all of their keys. -/
def lookupIds (index : TagIndex) (q : Query) : IdSet :=
  if index.closed then []
  else
    let (exclusive, inclusive) := q.matchers.partition (·.isExclusive)
    if exclusive.isEmpty then index.included q.metric inclusive
    else
      let inclusive := if inclusive.isEmpty then exclusive.map presence else inclusive
      IdSet.diff (index.included q.metric inclusive) (index.excluded q.metric exclusive)

/-- The ids that a query selects, in ascending order. -/
def lookup (index : TagIndex) (q : Query) : List SeriesId := (index.lookupIds q).reverse

/-! ## Size and end -/

/-- The number of metrics and of keys, and the size of the sets under them. -/
def stats (index : TagIndex) : TagIndexStats where
  metrics := index.names.size
  keys := index.entries.size
  bytes := index.entries.foldl (fun n _ entry => n + IdSet.bitmapBytes entry.ids) 0

/-- Drops all entries. From then on nothing is found and no metric is taken. -/
def close (_ : TagIndex) : TagIndex := { empty with closed := true }

end TagIndex

end TimeSeries
