import Std.Data.TreeMap
import TimeSeries.Bytes
import TimeSeries.Path

/-!
# The file system

A disk is a tree of directories and files, written as a table from paths to what is there. A path
leads to a *file identity*, and the content belongs to the identity: a holder of the identity goes
on reading and writing the content after the path has been removed or given to something else,
and sees what others do to the content through the path. Creating a file at the path of an existing
one empties it and keeps the identity.
-/

namespace TimeSeries

/-- The identity of a file. -/
abbrev FileId := Nat

/-- What a path leads to. -/
inductive DiskNode where
  | directory
  | file (id : FileId)
  deriving DecidableEq, Repr

/-- The paths below the top, the contents of the files, and the identity of the next file. -/
structure Disk where
  nodes : Std.TreeMap (List String) DiskNode
  contents : Std.TreeMap FileId Bytes
  nextFile : FileId

namespace Disk

/-- The disk with nothing below the top. -/
def empty : Disk := ⟨∅, ∅, 0⟩

/-- What is at the end of some steps. The top is a directory. -/
def node? (d : Disk) (steps : List String) : Option DiskNode :=
  if steps = [] then some .directory else d.nodes[steps]?

/-- Whether something is at the end of some steps. -/
def exists? (d : Disk) (steps : List String) : Bool := (d.node? steps).isSome

/-- Whether a directory is at the end of some steps. -/
def isDirectory (d : Disk) (steps : List String) : Bool := d.node? steps == some .directory

/-- Makes the directories on the way from one that exists. -/
def makeDirectoriesFrom (d : Disk) (above : List String) : List String → Except Error Disk
  | [] => .ok d
  | step :: rest =>
    let steps := above ++ [step]
    match d.node? steps with
    | some .directory => d.makeDirectoriesFrom steps rest
    | some (.file _) => .error (.io (if rest = [] then .alreadyExists else .notADirectory))
    | none => { d with nodes := d.nodes.insert steps .directory }.makeDirectoriesFrom steps rest

/-- Makes a directory and those above it, as far as they are missing. -/
def makeDirectories (d : Disk) (steps : List String) : Except Error Disk :=
  d.makeDirectoriesFrom [] steps

/-- Why there is nothing at the end of some steps: a directory is missing, or a file is in the
way. -/
def faultOnTheWay (d : Disk) (above : List String) : List String → DiskFault
  | [] => .notFound
  | step :: rest =>
    match d.node? (above ++ [step]) with
    | some (.file _) => if rest = [] then .notFound else .notADirectory
    | _ => d.faultOnTheWay (above ++ [step]) rest

/-- What is at the end of some steps, or why nothing is. -/
def find (d : Disk) (steps : List String) : Except Error DiskNode :=
  match d.node? steps with
  | some node => .ok node
  | none => .error (.io (d.faultOnTheWay [] steps))

/-- The content of a file. -/
def content (d : Disk) (id : FileId) : Bytes := d.contents.getD id []

/-- Gives a file another content. -/
def setContent (d : Disk) (id : FileId) (bytes : Bytes) : Disk :=
  { d with contents := d.contents.insert id bytes }

/-- Opens an empty file, in a directory that exists. A file that is already there is emptied. -/
def createFile (d : Disk) (steps : List String) : Except Error (FileId × Disk) :=
  match d.node? steps with
  | some .directory => .error (.io .isADirectory)
  | some (.file id) => .ok (id, d.setContent id [])
  | none =>
    if d.isDirectory steps.dropLast then
      .ok (d.nextFile, { nodes := d.nodes.insert steps (.file d.nextFile)
                         contents := d.contents.insert d.nextFile []
                         nextFile := d.nextFile + 1 })
    else .error (.io (d.faultOnTheWay [] steps))

/-- Puts a file with some content at the end of some steps, with the directories above it. -/
def putFile (d : Disk) (steps : List String) (bytes : Bytes) : Except Error Disk := do
  let (id, d) ← (← d.makeDirectories steps.dropLast).createFile steps
  return d.setContent id bytes

/-- Removes the path to a file. -/
def removeFile (d : Disk) (steps : List String) : Except Error Disk := do
  match ← d.find steps with
  | .directory => throw (.io .isADirectory)
  | .file _ => return { d with nodes := d.nodes.erase steps }

/-- The file at the end of some steps. -/
def openFile (d : Disk) (steps : List String) : Except Error FileId := do
  match ← d.find steps with
  | .directory => throw (.io .isADirectory)
  | .file id => return id

/-- Reads bytes of a file, all of which have to be there. -/
def readAt (d : Disk) (id : FileId) (offset length : Nat) : Except Error Bytes :=
  let bytes := ((d.content id).drop offset).take length
  if bytes.length = length then .ok bytes else .error (.io .shortRead)

/-- Writes bytes over those at an offset of a file. A gap before them is filled with zeros. -/
def writeAt (d : Disk) (id : FileId) (offset : Nat) (bytes : Bytes) : Disk :=
  let old := d.content id
  d.setContent id (old.take offset ++ List.replicate (offset - old.length) 0 ++ bytes ++
    old.drop (offset + bytes.length))

/-- The names in a directory, in ascending order. -/
def list (d : Disk) (steps : List String) : List String :=
  d.nodes.keys.filterMap fun path =>
    if path.dropLast = steps then path.getLast? else none

end Disk

end TimeSeries
