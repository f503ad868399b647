import TimeSeries.Document

/-!
# Tables of TOML

By the rules of TOML 1.0 a text defines each table once: by its header, or key by key through dotted
keys. A table that a header only passes through on its way to an inner one is there without being
defined, and may be defined later. A header in double brackets adds a table to a list of tables, and
a path through such a list goes to its last table. What a value defines stays as it is.
-/

namespace TimeSeries.Toml

/-- How a table came to be. -/
inductive TableOrigin where
  /-- It has a header, or is the top table, or is an element of a list of tables. -/
  | header
  /-- A header passes through it. -/
  | passage
  /-- A dotted key passes through it. -/
  | dotted
  deriving DecidableEq, Repr

/-- What is under a key. -/
inductive Item where
  | value (v : Document)
  | table (origin : TableOrigin) (fields : List (String × Item))
  | tables (elements : List (List (String × Item)))
  deriving Inhabited

/-- The items in a table. -/
abbrev Fields := List (String × Item)

namespace Fields

/-- Changes what is under a key. The change sees nothing if there is nothing, and may refuse. -/
def change (key : String) (f : Option Item → Option Item) : Fields → Option Fields
  | [] => (f none).map fun item => [(key, item)]
  | (k, item) :: rest =>
    if k = key then (f (some item)).map fun item => (k, item) :: rest
    else (change key f rest).map ((k, item) :: ·)

/-- Changes the last of some tables. -/
def changeLast (f : Fields → Option Fields) : List Fields → Option (List Fields)
  | [] => none
  | [t] => (f t).map ([·])
  | t :: rest => (changeLast f rest).map (t :: ·)

/-- Goes through what is under a key. A table that is missing is made. -/
def step (origin : TableOrigin) (key : String) (f : TableOrigin → Fields → Option Fields) :
    Fields → Option Fields :=
  change key fun
    | none => (f origin []).map (.table origin)
    | some (.table o fields) =>
      if origin = .dotted && o = .header then none else (f o fields).map (.table o)
    | some (.tables ts) => (changeLast (f .header) ts).map .tables
    | some (.value _) => none

/-- Goes through the tables of a path. -/
def descend (origin : TableOrigin) (f : TableOrigin → Fields → Option Fields) :
    List String → (at_ : TableOrigin) → Fields → Option Fields
  | [], at_, fields => f at_ fields
  | key :: rest, _, fields => step origin key (descend origin f rest) fields

/-- Puts a value under a dotted key. Only tables that were made by dotted keys can be added to. -/
def putValue (path : List String) (key : String) (v : Document) (fields : Fields) : Option Fields :=
  descend .dotted (fun at_ fields =>
    if (at_ == .dotted) == path.isEmpty then none
    else change key (fun
      | none => some (.value v)
      | some _ => none) fields) path .header fields

/-- Defines the table of a header. -/
def defineTable (path : List String) (key : String) (fields : Fields) : Option Fields :=
  descend .passage (fun _ => change key fun
    | none => some (.table .header [])
    | some (.table .passage fields) => some (.table .header fields)
    | some _ => none) path .header fields

/-- Adds a table to the list of a header in double brackets. -/
def addElement (path : List String) (key : String) (fields : Fields) : Option Fields :=
  descend .passage (fun _ => change key fun
    | none => some (.tables [[]])
    | some (.tables ts) => some (.tables (ts ++ [[]]))
    | some _ => none) path .header fields

/-- Changes the table that a header has defined, or the top one. -/
def inTable (header : List String) (f : Fields → Option Fields) (fields : Fields) : Option Fields :=
  descend .passage (fun _ => f) header .header fields

end Fields

mutual

/-- The document under a key. -/
def Item.document : Item → Document
  | .value v => v
  | .table _ fields => .table (documents fields)
  | .tables elements => .list (tableDocuments elements)

/-- The documents in a table. -/
def documents : List (String × Item) → List (String × Document)
  | [] => []
  | (key, item) :: rest => (key, item.document) :: documents rest

/-- The documents of some tables. -/
def tableDocuments : List (List (String × Item)) → List Document
  | [] => []
  | fields :: rest => .table (documents fields) :: tableDocuments rest

end

end TimeSeries.Toml
