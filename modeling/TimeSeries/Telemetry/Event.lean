import TimeSeries.IdSet

/-!
# Events

What the store and the tasks around it report while they work, beside their answers. Each event
can be written to a log as a *trace record*: a level, a message and named fields.
-/

namespace TimeSeries

/-- Something worth reporting. Failures are given by their messages. -/
inductive StoreEvent where
  | chunkCreated (dataset : String) (start : Int)
  | chunkCreationRace (bucket : Int)
  | chunkFrozen (dataset : String) (series bytes : Nat)
  | chunkFreezeFailed (dataset error : String)
  | chunkDeleted (dataset : String)
  | chunkCloseFailed (dataset error : String)
  /-- A series could not be decoded for a query, which was answered without it. -/
  | seriesDecodeFailed (dataset : String) (series : SeriesId) (error : String)
  | ingestRejected (line error : String)
  | lateData (line error : String)
  | ingestFileFailed (path error : String)
  | lifecycleRunCompleted (now : Int) (deleted frozen : Nat)
  | lifecycleRunFailed (now : Int) (error : String)
  | lifecycleStarted
  | lifecycleStopping
  | lifecyclePanicked
  deriving DecidableEq, Repr

/-- How serious a trace record is. -/
inductive TraceLevel where
  | error
  | warn
  | info
  | debug
  deriving DecidableEq, Repr

/-- The name of a level. -/
def TraceLevel.name : TraceLevel → String
  | .error => "ERROR"
  | .warn => "WARN"
  | .info => "INFO"
  | .debug => "DEBUG"

/-- An entry of a log. -/
structure TraceRecord where
  level : TraceLevel
  message : String
  fields : List (String × String)
  deriving DecidableEq, Repr

/-- The line that shows an entry. -/
def TraceRecord.line (r : TraceRecord) : String :=
  " ".intercalate (r.level.name :: r.message :: r.fields.map fun (name, text) => s!"{name}={text}")

/-- The entry of a log for an event. -/
def StoreEvent.trace : StoreEvent → TraceRecord
  | chunkCreated dataset start =>
    ⟨.debug, "chunk created", [("dataset", dataset), ("start_time_secs", toString start)]⟩
  | chunkCreationRace bucket =>
    ⟨.warn, "lost chunk creation race, using existing chunk", [("bucket", toString bucket)]⟩
  | chunkFrozen dataset series bytes =>
    ⟨.info, "chunk converted to read-only",
      [("dataset", dataset), ("series", toString series), ("bytes", toString bytes)]⟩
  | chunkFreezeFailed dataset error =>
    ⟨.error, "read-only conversion failed", [("dataset", dataset), ("error", error)]⟩
  | chunkDeleted dataset => ⟨.info, "stale chunk deleted", [("dataset", dataset)]⟩
  | chunkCloseFailed dataset error =>
    ⟨.error, "closing chunk failed", [("dataset", dataset), ("error", error)]⟩
  | seriesDecodeFailed dataset series error =>
    ⟨.error, "series decode failed",
      [("dataset", dataset), ("series", toString series), ("error", error)]⟩
  | ingestRejected line error =>
    ⟨.warn, "invalid ingest line dropped", [("line", line), ("error", error)]⟩
  | lateData line error => ⟨.debug, "late point dropped", [("line", line), ("error", error)]⟩
  | ingestFileFailed path error =>
    ⟨.error, "ingest file failed", [("path", path), ("error", error)]⟩
  | lifecycleRunCompleted now deleted frozen =>
    ⟨.info, "chunk lifecycle run completed",
      [("now", toString now), ("deleted", toString deleted), ("read_only", toString frozen)]⟩
  | lifecycleRunFailed now error =>
    ⟨.error, "chunk lifecycle run failed", [("now", toString now), ("error", error)]⟩
  | lifecycleStarted => ⟨.debug, "lifecycle thread started", []⟩
  | lifecycleStopping => ⟨.debug, "lifecycle thread stopping", []⟩
  | lifecyclePanicked => ⟨.error, "lifecycle thread panicked", []⟩

end TimeSeries
