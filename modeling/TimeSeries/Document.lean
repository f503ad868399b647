import TimeSeries.Compression
import TimeSeries.Text.Binary64
import TimeSeries.Text.Integer
import TimeSeries.Text.LowerCase
import TimeSeries.Text.ShortestDecimal

/-!
# Documents

Settings are given as documents: trees of tables and lists with plain values at their leaves. A
plain value is taken for another kind where the meaning is clear: a text that writes a number for
the number, a number for its text, a fraction for the nearest integer, and a truth value for one or
zero.
-/

namespace TimeSeries

/-- A value in a document. -/
inductive Document where
  | null
  | boolean (b : Bool)
  | integer (n : Int)
  | float (bits : UInt64)
  | text (s : String)
  | list (items : List Document)
  | table (fields : List (String × Document))
  deriving Inhabited

namespace Document

/-- The text that a plain value stands for. -/
def asText : Document → Option String
  | text s => some s
  | boolean b => some (if b then "true" else "false")
  | integer n => some (toString n)
  | float bits => some (Text.shortestDecimal bits)
  | _ => none

/-- The truth value that a word stands for. -/
def truthOfWord (s : String) : Option Bool :=
  let word := Text.lower s
  if ["true", "on", "yes"].contains word then some true
  else if ["false", "off", "no"].contains word then some false
  else none

/-- The signed integer of 64 bits that a plain value stands for. -/
def asInteger : Document → Option Int
  | integer n => some n
  | boolean b => some b.toInt
  | float bits => some (max Text.minInt64 (min Text.maxInt64 (Text.nearestInteger bits)))
  | text s =>
    match truthOfWord s with
    | some b => some b.toInt
    | none => (Text.readInteger s.toList).toOption
  | _ => none

/-- The unsigned integer of 64 bits that a plain value stands for. -/
def asCount : Document → Option Nat
  | integer n => if 0 ≤ n then some n.toNat else none
  | boolean b => some b.toNat
  | float bits => some (min Text.maxCount64 (Text.nearestInteger bits).toNat)
  | text s =>
    match truthOfWord s with
    | some b => some b.toNat
    | none => Text.readCount s.toList
  | _ => none

/-- The fields of a table. Nothing else has fields. -/
def fields : Document → List (String × Document)
  | table fs => fs
  | _ => []

/-- A field, if it is there and holds anything. -/
def field? (d : Document) (key : String) : Option Document :=
  match d.fields.lookup key with
  | some null | none => none
  | some v => some v

/-- Sets a field among others. -/
def setField (key : String) (v : Document) : List (String × Document) → List (String × Document)
  | [] => [(key, v)]
  | (k, w) :: rest => if k = key then (k, v) :: rest else (k, w) :: setField key v rest

/-- The items of a list. Nothing else has items. -/
def items : Document → List Document
  | list ds => ds
  | _ => []

/-- Sets an item. What is missing before it is filled up with nulls. -/
def setItem (n : Nat) (v : Document) (ds : List Document) : List Document :=
  (ds ++ List.replicate (n + 1 - ds.length) null).set n v

/-! ## Places

A place is a way from the root of a document: through fields of tables and items of lists.
-/

/-- A field of a table, or an item of a list. -/
inductive Place where
  | key (name : String)
  | item (n : Nat)
  deriving DecidableEq, Repr

/-- What a document holds at a field or an item. -/
def child? : Place → Document → Option Document
  | .key name, d => d.fields.lookup name
  | .item n, d => d.items[n]?

/-- Sets a field or an item. What cannot have it becomes what can. -/
def setChild (v : Document) : Place → Document → Document
  | .key name, d => table (setField name v d.fields)
  | .item n, d => list (setItem n v d.items)

/-- What is found at a place. -/
def at? : List Place → Document → Option Document
  | [], d => some d
  | p :: rest, d => (child? p d).bind (at? rest)

/-- Sets what is at a place. -/
def setAt (v : Document) : List Place → Document → Document
  | [], _ => v
  | p :: rest, d => setChild (setAt v rest ((child? p d).getD null)) p d

/-! ## Paths

A path is written without regard to a document: an index in it may count from the end of a list.
-/

/-- A step of a path. -/
inductive Step where
  | key (name : String)
  | index (i : Int)
  deriving DecidableEq, Repr

/-- The item that an index means in a list of some length. A negative index counts from the end, and
means none if the list is too short. -/
def itemOf? (length : Nat) (i : Int) : Option Nat :=
  if 0 ≤ i then some i.toNat
  else if i.natAbs ≤ length then some (length - i.natAbs)
  else none

/-- The place in a document to which a path leads. -/
def place? : List Step → Document → Option (List Place)
  | [], _ => some []
  | .key name :: rest, d =>
    (place? rest ((child? (.key name) d).getD null)).map (.key name :: ·)
  | .index i :: rest, d =>
    (itemOf? d.items.length i).bind fun n =>
      (place? rest ((child? (.item n) d).getD null)).map (.item n :: ·)

mutual

/-- A value put over an old one: the fields of a table are put over those of the old one, one by
one, and anything else takes its place. -/
def overlay : Document → Option Document → Document
  | table fs, old => overlayFields fs (old.getD (table []))
  | v, _ => v

/-- Puts fields over those of a document. -/
def overlayFields : List (String × Document) → Document → Document
  | [], d => d
  | f :: rest, d => overlayFields rest (overlayField f d)

/-- Puts a field over that of a document. -/
def overlayField : String × Document → Document → Document
  | (key, v), d => table (setField key (overlay v (d.fields.lookup key)) d.fields)

end

/-- Puts a value over what a path leads to, unless it leads to before the start of a list. -/
def put? (v : Document) (path : List Step) (d : Document) : Option Document :=
  (place? path d).map fun place => setAt (overlay v (at? place d)) place d

/-! ## Compression settings -/

/-- The level of a codec, which has to be an integer of 32 bits. -/
def asLevel : Option Document → Option Int
  | some (integer n) => if -2147483648 ≤ n ∧ n ≤ 2147483647 then some n else none
  | _ => none

/-- The codec that a document describes: a table with the `type` and what belongs to it, or a list
with the same in this order. Other fields are ignored. -/
def asCompression (d : Document) : Option Compression :=
  match d with
  | table fs =>
    match fs.lookup "type" with
    | some (text "none") => some .none
    | some (text "lz4") => some .lz4
    | some (text "zstd") => (asLevel (fs.lookup "level")).map .zstd
    | _ => none
  | list [text "none"] => some .none
  | list [text "lz4"] => some .lz4
  | list [text "zstd", level] => (asLevel (some level)).map .zstd
  | _ => none

/-- The document that describes a codec. -/
def ofCompression : Compression → Document
  | .none => table [("type", text "none")]
  | .lz4 => table [("type", text "lz4")]
  | .zstd level => table [("type", text "zstd"), ("level", integer level)]

end Document

end TimeSeries
