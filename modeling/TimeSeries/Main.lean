import TimeSeries.Daemon.Settings
import TimeSeries.Ingest

/-!
# The command

The command collects what the library works on, which are its arguments, its environment and the
files that the settings name, and prints what the library answers. With the switch
`--validate-config` it shows the settings in force. Without it, it ingests the file of the settings
and writes the events of the ingest to the log.
-/

namespace TimeSeries.Command

/-- The variables of the environment of this process. -/
def environment : IO (List (String × String)) := do
  let .ok block ← (IO.FS.readBinFile "/proc/self/environ").toBaseIO | return []
  return Environment.ofBlock ((String.fromUTF8? block).getD "")

/-- A disk with what the file system has at some place, beside what it held before. Reading a
directory is refused with code 21. -/
def copyIn (text : String) (disk : Disk) : IO Disk := do
  let steps := (Path.ofText text).steps
  let copied : Except Error Disk :=
    match ← (IO.FS.readBinFile text).toBaseIO with
    | .ok content => disk.putFile steps content.toList
    | .error (.inappropriateType _ 21 _) => disk.makeDirectories steps
    | .error _ => .ok disk
  return copied.toOption.getD disk

/-- The settings in force. The directory for the files of frozen stores is looked at only when the
sources have named it. -/
def settings (line : CommandLine) (env : List (String × String)) :
    IO (Except SettingsFault DaemonSettings) := do
  let file := (line.value? .config).getD DaemonSettings.defaultFile
  let disk ← copyIn (file ++ ".toml") (← copyIn file Disk.empty)
  match DaemonSettings.collect line env disk with
  | .error fault => return .error fault
  | .ok s =>
    let disk ← match s.spillDir with
      | none => pure disk
      | some dir => copyIn dir disk
    return DaemonSettings.ofPartial disk s

/-- Shows why the command ends early. -/
def fail (message : String) (code : UInt32) : IO UInt32 := do
  IO.eprintln s!"Error: {message}"
  return code

/-- Ingests a file into a new manager and writes the events to the log. -/
def ingest (settings : ManagerSettings) (file : String) : IO UInt32 := do
  match Manager.new settings (← copyIn file Disk.empty) with
  | .error e => fail e.message 1
  | .ok m =>
    let x := IngestFile.ingest ⟨Path.ofText file, true⟩ m
    for e in Signal.events x.signals do
      IO.eprintln e.trace.line
    match x.result with
    | .error e => fail e.message 1
    | .ok r =>
      IO.println s!"ingested={r.ingested} invalid={r.invalid} late={r.late} failed={r.failed}"
      return 0

/-- Does what the arguments ask for. -/
def run (args : List String) : IO UInt32 := do
  let env ← environment
  match CommandLine.parse? args env with
  | none => fail "the arguments are not understood" 2
  | some .version => do
    IO.println DaemonSettings.version
    return 0
  | some (.run line) =>
    match ← settings line env with
    | .error .stopped => fail "a path leads to before the start of a list" 101
    | .error fault => fail (fault.message?.getD "the settings cannot be read") 1
    | .ok s =>
      if line.has .validateConfig then
        s.lines.forM IO.println
        return 0
      match s.ingestFile with
      | none => return 0
      | some file => ingest s.manager file

end TimeSeries.Command

def main (args : List String) : IO UInt32 := TimeSeries.Command.run args
