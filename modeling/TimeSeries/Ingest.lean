import TimeSeries.Manager.Basic
import TimeSeries.Text.Lines

/-!
# Ingest from a file

All lines of a file that are not blank are given to a manager, one after the other. A line that the
manager refuses is counted and may be reported, and the next one follows. Only a file that cannot
be opened, or that does not hold text, ends the ingest early; the points of the lines before stay.
-/

namespace TimeSeries

/-- What became of the lines of a file that were not blank. -/
structure IngestReport where
  ingested : Nat := 0
  /-- Lines that are no ingest lines or hold no acceptable point. -/
  invalid : Nat := 0
  /-- Points for chunks that take none. -/
  late : Nat := 0
  /-- All other failures. -/
  failed : Nat := 0
  deriving DecidableEq, Repr

/-- The number of lines that were not blank. -/
def IngestReport.lines (r : IngestReport) : Nat := r.ingested + r.invalid + r.late + r.failed

/-- A file to be ingested, and whether the ingest reports events of its own. -/
structure IngestFile where
  path : Path
  reports : Bool := true
  deriving DecidableEq, Repr

namespace IngestFile

/-- Some events, if events are reported. -/
def tell (f : IngestFile) (e : StoreEvent) : List Signal := if f.reports then [.event e] else []

/-- Counts and reports what became of a line. -/
def countLine (f : IngestFile) (line : String) (report : IngestReport) :
    Except Error Unit → IngestReport × List Signal
  | .ok () => ({ report with ingested := report.ingested + 1 }, [])
  | .error e =>
    if e.isInvalid then
      ({ report with invalid := report.invalid + 1 },
        .measured (.number .rejectedLines 1) :: f.tell (.ingestRejected line e.message))
    else if e.isReadOnlyInsertion then
      ({ report with late := report.late + 1 },
        .measured (.number .latePoints 1) :: f.tell (.lateData line e.message))
    else
      ({ report with failed := report.failed + 1 }, f.tell (.ingestRejected line e.message))

/-- Gives lines to a manager, up to one that is no text. -/
def ingestLines (f : IngestFile) :
    List (Option String) → IngestReport → Manager → Effect Manager IngestReport
  | [], report, m => ⟨.ok report, m, []⟩
  | none :: _, _, m => ⟨.error (.io .notText), m, []⟩
  | some line :: rest, report, m =>
    if Text.isBlankText line then f.ingestLines rest report m
    else
      let x := m.addLine line
      let (report, signals) := f.countLine line report x.result
      (f.ingestLines rest report x.state).after (x.signals ++ signals)

/-- Ingests a file from the disk of a manager. -/
def ingest (f : IngestFile) (m : Manager) : Effect Manager IngestReport :=
  match m.disk.find f.path.steps with
  | .error e =>
    ⟨.error e, m, f.tell (.ingestFileFailed f.path.text (e.detail))⟩
  | .ok .directory => ⟨.error (.io .isADirectory), m, []⟩
  | .ok (.file id) => f.ingestLines (Text.decodedLines (m.disk.content id)) {} m

end IngestFile

end TimeSeries
