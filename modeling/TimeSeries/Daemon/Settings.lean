import TimeSeries.Daemon.CommandLine
import TimeSeries.Daemon.Environment
import TimeSeries.Daemon.SocketAddress
import TimeSeries.Lifecycle
import TimeSeries.Toml.Basic

/-!
# The settings of the daemon

There are four sources of settings. Each setting comes from the highest source that gives it: an
option of the command line, a variable of the environment, the settings file, or the default. File
and environment together make one document, which is decoded before the options are looked at.
-/

namespace TimeSeries

open Text (quoted)

/-- Settings of which each may be left out. -/
structure PartialSettings where
  dataset : Option String := none
  httpBind : Option String := none
  windowSeconds : Option Int := none
  metricsDelay : Option Int := none
  staleDelay : Option Int := none
  intervalSeconds : Option Nat := none
  spillDir : Option String := none
  compression : Option Compression := none
  ingestFile : Option String := none
  deriving DecidableEq, Repr

/-- All that the daemon needs. -/
structure DaemonSettings where
  manager : ManagerSettings
  lifecycle : LifecycleSettings
  httpBind : SocketAddress
  ingestFile : Option String
  deriving DecidableEq, Repr

/-- Why there are no settings. -/
inductive SettingsFault where
  /-- The command line is malformed. -/
  | usage
  /-- The file of the command line does not exist. -/
  | fileNotFound (path : String)
  /-- The file is no TOML, or a setting is of the wrong kind. -/
  | unreadable
  /-- A path leads to before the start of a list. This is no error: the program stops there. -/
  | stopped
  /-- The settings contradict each other. -/
  | rejected (error : Error)
  | badAddress (text : String)
  deriving DecidableEq, Repr

/-- The message of a fault, if it has one of its own. -/
def SettingsFault.message? : SettingsFault → Option String
  | fileNotFound path => some s!"config file not found: {path}"
  | rejected error => some error.message
  | badAddress text => some s!"invalid http_bind {quoted text}: invalid socket address syntax"
  | usage | unreadable | stopped => none

namespace PartialSettings

/-- Decodes a field, if it is there. -/
def field {α : Type} (doc : Document) (key : String) (decode : Document → Option α) :
    Option (Option α) :=
  match doc.field? key with
  | none => some none
  | some v => (decode v).map some

/-- Decodes a document. Fields with other names are ignored. -/
def ofDocument? (doc : Document) : Option PartialSettings := do
  return {
    dataset := ← field doc "dataset" Document.asText
    httpBind := ← field doc "http_bind" Document.asText
    windowSeconds := ← field doc "chunk_duration_secs" Document.asInteger
    metricsDelay := ← field doc "metrics_delay_secs" Document.asInteger
    staleDelay := ← field doc "stale_data_delay_secs" Document.asInteger
    intervalSeconds := ← field doc "lifecycle_interval_secs" Document.asCount
    spillDir := ← field doc "spill_dir" Document.asText
    compression := ← field doc "compression" Document.asCompression
    ingestFile := ← field doc "ingest_file" Document.asText }

/-- Puts the options of a command line over some settings. -/
def withOptions (s : PartialSettings) (line : CommandLine) : PartialSettings :=
  { s with
    dataset := line.value? .dataset <|> s.dataset
    httpBind := line.value? .httpBind <|> s.httpBind
    spillDir := line.value? .spillDir <|> s.spillDir
    ingestFile := line.value? .ingestFile <|> s.ingestFile }

/-- The settings of the manager, with defaults for what is left out. -/
def manager (s : PartialSettings) : ManagerSettings :=
  let d : ManagerSettings := {}
  { dataset := s.dataset.getD d.dataset
    windowSeconds := s.windowSeconds.getD d.windowSeconds
    form := ⟨s.spillDir.map Path.ofText, s.compression.getD d.form.compression⟩ }

/-- The settings of the lifecycle, with defaults for what is left out. -/
def lifecycle (s : PartialSettings) : LifecycleSettings :=
  let d : LifecycleSettings := {}
  { metricsDelay := s.metricsDelay.getD d.metricsDelay
    staleDelay := s.staleDelay.getD d.staleDelay
    intervalMillis := (s.intervalSeconds.map (1000 * ·)).getD d.intervalMillis }

/-- The text of the address, with a default if it is left out. -/
def address (s : PartialSettings) : String := s.httpBind.getD "127.0.0.1:8080"

end PartialSettings

namespace DaemonSettings

/-- The settings file that is looked for when none is named. -/
def defaultFile : String := "chunkdbd.toml"

/-- Whether a file has the name of a TOML file: the ending, and something before it. -/
def isToml (name : String) : Bool :=
  match (Text.pieces (· == '.') name.toList).reverse with
  | ending :: stem => ending == "toml".toList && stem != [] && stem != [[]]
  | [] => false

/-- The text of a settings file. A directory stands for the file beside it with the ending of TOML,
and a file with another ending is passed over. -/
def fileText (disk : Disk) (steps : List String) : Bytes :=
  let content (steps : List String) : Bytes :=
    match disk.node? steps with
    | some (.file id) => disk.content id
    | _ => []
  match steps.getLast? with
  | none => []
  | some name =>
    if disk.isDirectory steps then content (steps.dropLast ++ [name ++ ".toml"])
    else if isToml name then content steps
    else []

/-- The document of a settings file. -/
def readFile (disk : Disk) (steps : List String) : Except SettingsFault Document :=
  match String.fromUTF8? ⟨(fileText disk steps).toArray⟩ with
  | none => .ok (.table [])
  | some text =>
    match Toml.parse? text with
    | none => .error .unreadable
    | some fields =>
      let doc? := fields.foldlM (fun doc (key, v) =>
        Document.put? v (Environment.pathOf key.toList) doc) (.table [])
      doc?.elim (.error .stopped) .ok

/-- The document of the settings file that applies: the one that the command line names, or else
the default one if it exists. -/
def fileDocument (disk : Disk) (line : CommandLine) : Except SettingsFault Document :=
  if line.has .noConfig then .ok (.table [])
  else
    match line.value? .config with
    | some path =>
      let steps := (Path.ofText path).steps
      if disk.exists? steps then readFile disk steps else .error (.fileNotFound path)
    | none =>
      let steps := (Path.ofText defaultFile).steps
      if disk.exists? steps then readFile disk steps else .ok (.table [])

/-- Accepts complete settings. -/
def ofPartial (disk : Disk) (s : PartialSettings) : Except SettingsFault DaemonSettings := do
  (s.manager.validate disk).mapError .rejected
  s.lifecycle.validate.mapError .rejected
  match SocketAddress.parse? s.address with
  | none => throw (.badAddress s.address)
  | some httpBind => return ⟨s.manager, s.lifecycle, httpBind, s.ingestFile⟩

/-- What the settings file, the environment and the options give. -/
def collect (line : CommandLine) (env : List (String × String)) (disk : Disk) :
    Except SettingsFault PartialSettings := do
  match Environment.apply env (← fileDocument disk line) with
  | none => throw .stopped
  | some doc =>
    match PartialSettings.ofDocument? doc with
    | none => throw .unreadable
    | some s => return s.withOptions line

/-- The settings from all sources. -/
def load (line : CommandLine) (env : List (String × String)) (disk : Disk) :
    Except SettingsFault DaemonSettings := do
  ofPartial disk (← collect line env disk)

/-- The lines that show settings. -/
def lines (s : DaemonSettings) : List String :=
  [s!"dataset={s.manager.dataset}",
    s!"chunk_duration_secs={s.manager.windowSeconds}",
    s!"metrics_delay_secs={s.lifecycle.metricsDelay}",
    s!"stale_data_delay_secs={s.lifecycle.staleDelay}",
    s!"lifecycle_interval_secs={s.lifecycle.intervalMillis / 1000}",
    "spill_dir=" ++ (s.manager.form.directory.map (·.text)).getD "",
    s!"compression={s.manager.form.compression.display}",
    s!"http_bind={s.httpBind.display}",
    "ingest_file=" ++ s.ingestFile.getD ""]

/-- The name and the version of the daemon. -/
def version : String := "chunkdbd 0.1.0"

/-- What is printed for arguments that ask for the effective settings. -/
def report (args : List String) (env : List (String × String)) (disk : Disk) :
    Except SettingsFault (List String) :=
  match CommandLine.parse? args env with
  | none => .error .usage
  | some .version => .ok [version]
  | some (.run line) => (load line env disk).map lines

end DaemonSettings

end TimeSeries
