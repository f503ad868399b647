import Mathlib
import TimeSeries.Ingest
import TimeSeries.Proofs.Lines

/-!
# A file as its lines

To ingest a file that holds a text is to add its lines one by one, without those that are blank:
the manager is left in the state in which the last line leaves it, whatever became of the lines
before. The report and the events tell only what became of the lines, so the work can be stopped
after any line and be taken up behind it.
-/

namespace TimeSeries

/-! ## What becomes of lines -/

/-- What becomes of a line that is not blank. -/
inductive LineFate where
  | ingested
  | invalid
  | late
  | failed
  deriving DecidableEq, Repr

/-- What became of a line, by the answer to the call that adds it. -/
def LineFate.of : Except Error Unit → LineFate
  | .ok () => .ingested
  | .error (.invalid _) => .invalid
  | .error (.readOnlyInsertion _) => .late
  | .error _ => .failed

namespace Manager

/-- A manager after lines were added to it, one after the other. -/
def addEach (m : Manager) : List String → Manager
  | [] => m
  | line :: rest => (m.addLine line).state.addEach rest

/-- What became of each line. -/
def fates (m : Manager) : List String → List LineFate
  | [] => []
  | line :: rest => .of (m.addLine line).result :: (m.addLine line).state.fates rest

theorem length_fates (m : Manager) (lines : List String) :
    (m.fates lines).length = lines.length := by
  induction lines generalizing m with
  | nil => rfl
  | cons line rest ih => rw [fates, List.length_cons, ih, List.length_cons]

end Manager

namespace IngestReport

/-- The report of what became of some lines. -/
def count (fates : List LineFate) : IngestReport :=
  ⟨fates.count .ingested, fates.count .invalid, fates.count .late, fates.count .failed⟩

/-- The sum of two reports, field by field. -/
def plus (r s : IngestReport) : IngestReport :=
  ⟨r.ingested + s.ingested, r.invalid + s.invalid, r.late + s.late, r.failed + s.failed⟩

theorem empty_plus (r : IngestReport) : plus {} r = r := by
  simp [plus]

theorem plus_empty (r : IngestReport) : r.plus {} = r := rfl

theorem plus_assoc (r s t : IngestReport) : (r.plus s).plus t = r.plus (s.plus t) := by
  simp [plus, Nat.add_assoc]

theorem count_cons (fate : LineFate) (fates : List LineFate) :
    count (fate :: fates) = (count [fate]).plus (count fates) := by
  simp only [count, plus, List.count_cons, List.count_nil, Nat.zero_add, Nat.add_comm]

/-- Every line is counted once. -/
theorem lines_count (fates : List LineFate) : (count fates).lines = fates.length := by
  induction fates with
  | nil => rfl
  | cons fate fates ih =>
    rw [count_cons, List.length_cons, ← ih]
    cases fate <;> simp [count, plus, lines] <;> omega

end IngestReport

/-! ## Events -/

namespace StoreEvent

/-- Whether an event reports a line that was dropped for another reason than that it is late. -/
def isRejection : StoreEvent → Bool
  | ingestRejected .. => true
  | _ => false

/-- Whether an event reports a line that is late. -/
def isLateness : StoreEvent → Bool
  | lateData .. => true
  | _ => false

end StoreEvent

namespace Signal

/-- The events of signals report lines as a report counts them. -/
structure Reports (signals : List Signal) (r : IngestReport) : Prop where
  rejected : (events signals).countP (·.isRejection) = r.invalid + r.failed
  late : (events signals).countP (·.isLateness) = r.late

variable {signals more : List Signal} {r s : IngestReport}

theorem Reports.append (h : Reports signals r) (h' : Reports more s) :
    Reports (signals ++ more) (r.plus s) where
  rejected := by
    rw [events_append, List.countP_append, h.rejected, h'.rejected]
    exact Nat.add_add_add_comm _ _ _ _
  late := by
    rw [events_append, List.countP_append, h.late, h'.late]
    rfl

end Signal

/-- A manager reports no lines by itself. -/
theorem Manager.reports_addLine (m : Manager) (line : String) :
    Signal.Reports (m.addLine line).signals {} := by
  have hchunk (t : Int) : Signal.Reports (m.chunkAt t).2.2 {} := by
    rw [chunkAt]
    split <;> exact ⟨rfl, rfl⟩
  rw [addLine]
  split
  · exact ⟨rfl, rfl⟩
  · next r _ =>
    rw [addRecord]
    split
    · refine (hchunk r.point.time).append (s := {}) ?_
      split <;> exact ⟨rfl, rfl⟩
    · exact ⟨rfl, rfl⟩

/-! ## Lines one after the other -/

theorem Effect.andThen_after {σ α β : Type} (x : Effect σ α) (signals : List Signal)
    (f : α → σ → Effect σ β) :
    (x.after signals).andThen f = (x.andThen f).after signals := by
  rcases x with ⟨_ | _, state, more⟩
  · rfl
  · simp [andThen, after]

namespace IngestFile

variable {f g : IngestFile} {m : Manager} {line : String}

theorem ingestLines_blank (h : Text.isBlankText line = true) (rest : List (Option String))
    (r : IngestReport) (m : Manager) :
    f.ingestLines (some line :: rest) r m = f.ingestLines rest r m := if_pos h

theorem ingestLines_line (h : Text.isBlankText line = false) (rest : List (Option String))
    (r : IngestReport) (m : Manager) :
    f.ingestLines (some line :: rest) r m =
      (f.ingestLines rest (f.countLine line r (m.addLine line).result).1
        (m.addLine line).state).after
        ((m.addLine line).signals ++ (f.countLine line r (m.addLine line).result).2) := by
  rw [ingestLines, if_neg (by simp [h])]

/-- A line counts as what became of it. -/
theorem countLine_fst (f : IngestFile) (line : String) (r : IngestReport)
    (answer : Except Error Unit) :
    (f.countLine line r answer).1 = r.plus (.count [.of answer]) := by
  rcases answer with e | ⟨⟩
  · cases e <;> rfl
  · rfl

/-- What is reported of a line does not depend on those before. -/
theorem countLine_snd (f : IngestFile) (line : String) (r s : IngestReport)
    (answer : Except Error Unit) :
    (f.countLine line r answer).2 = (f.countLine line s answer).2 := by
  rcases answer with e | ⟨⟩
  · cases e <;> rfl
  · rfl

/-- A line is reported as what became of it. -/
theorem reports_countLine (hreports : f.reports = true) (line : String) (r : IngestReport)
    (answer : Except Error Unit) :
    Signal.Reports (f.countLine line r answer).2 (.count [.of answer]) := by
  have htell (e : StoreEvent) : f.tell e = [.event e] := if_pos hreports
  rcases answer with e | ⟨⟩
  · cases e <;> simp only [countLine, htell] <;> exact ⟨rfl, rfl⟩
  · exact ⟨rfl, rfl⟩

/-- Lines and then further lines. -/
theorem ingestLines_append (lines more : List (Option String)) (r : IngestReport) (m : Manager) :
    f.ingestLines (lines ++ more) r m =
      (f.ingestLines lines r m).andThen fun r m => f.ingestLines more r m := by
  induction lines generalizing r m with
  | nil => rfl
  | cons line lines ih =>
    cases line with
    | none => rfl
    | some line =>
      cases hblank : Text.isBlankText line with
      | true => rw [List.cons_append, ingestLines_blank hblank, ingestLines_blank hblank, ih]
      | false =>
        rw [List.cons_append, ingestLines_line hblank, ingestLines_line hblank, ih,
          Effect.andThen_after]

/-- What was reported before is added to the report of some lines, and changes nothing else. -/
theorem ingestLines_plus (lines : List (Option String)) (r s : IngestReport) (m : Manager) :
    f.ingestLines lines (r.plus s) m =
      (f.ingestLines lines s m).andThen fun t m => ⟨.ok (r.plus t), m, []⟩ := by
  induction lines generalizing s m with
  | nil => rfl
  | cons line lines ih =>
    cases line with
    | none => rfl
    | some line =>
      cases hblank : Text.isBlankText line with
      | true => rw [ingestLines_blank hblank, ingestLines_blank hblank, ih]
      | false =>
        rw [ingestLines_line hblank, ingestLines_line hblank, countLine_fst, countLine_fst,
          IngestReport.plus_assoc, ih, Effect.andThen_after, countLine_snd f line (r.plus s) s]

/-- Nothing but whether it reports matters of a file. -/
theorem ingestLines_congr (h : g.reports = f.reports) (lines : List (Option String))
    (r : IngestReport) (m : Manager) : g.ingestLines lines r m = f.ingestLines lines r m := by
  have hcount : g.countLine = f.countLine := by
    funext line r answer
    rcases answer with e | ⟨⟩
    · rw [countLine, countLine, tell, tell, tell, tell, h]
    · rfl
  induction lines generalizing r m with
  | nil => rfl
  | cons line lines ih =>
    cases line with
    | none => rfl
    | some line =>
      cases hblank : Text.isBlankText line with
      | true => rw [ingestLines_blank hblank, ingestLines_blank hblank, ih]
      | false => rw [ingestLines_line hblank, ingestLines_line hblank, ih, hcount]

/-- Those of some lines that are not blank. -/
def filled (lines : List String) : List String := lines.filter (!Text.isBlankText ·)

/-- To ingest lines is to add those that are not blank. -/
theorem ingestLines_texts (lines : List String) (r : IngestReport) (m : Manager) :
    (f.ingestLines (lines.map some) r m).result =
        .ok (r.plus (.count (m.fates (filled lines)))) ∧
      (f.ingestLines (lines.map some) r m).state = m.addEach (filled lines) ∧
      (f.reports = true → Signal.Reports (f.ingestLines (lines.map some) r m).signals
        (.count (m.fates (filled lines)))) := by
  induction lines generalizing r m with
  | nil => exact ⟨rfl, rfl, fun _ => ⟨rfl, rfl⟩⟩
  | cons line lines ih =>
    cases hblank : Text.isBlankText line with
    | true =>
      have hfilled : filled (line :: lines) = filled lines :=
        List.filter_cons_of_neg (by simp [hblank])
      rw [List.map_cons, ingestLines_blank hblank, hfilled]
      exact ih r m
    | false =>
      have hfilled : filled (line :: lines) = line :: filled lines :=
        List.filter_cons_of_pos (by simp [hblank])
      obtain ⟨hresult, hstate, hsignals⟩ :=
        ih (f.countLine line r (m.addLine line).result).1 (m.addLine line).state
      rw [List.map_cons, ingestLines_line hblank, hfilled, Manager.fates, IngestReport.count_cons]
      refine ⟨?_, hstate, fun hreports => ?_⟩
      · rw [← IngestReport.plus_assoc, ← countLine_fst f line r]
        exact hresult
      · have hline := (m.reports_addLine line).append
          (reports_countLine hreports line r (m.addLine line).result)
        rw [IngestReport.empty_plus] at hline
        exact hline.append (hsignals hreports)

end IngestFile

/-! ## Files -/

/-- A path leads to a file that holds a text. -/
def Disk.HoldsText (d : Disk) (path : Path) (text : String) : Prop :=
  ∃ id, d.node? path.steps = some (.file id) ∧ d.content id = Text.encode text

namespace Manager

/-- A line leaves the disk alone. -/
theorem disk_addLine (m : Manager) (line : String) : (m.addLine line).state.disk = m.disk := by
  have hchunk (t : Int) : (m.chunkAt t).2.1.disk = m.disk := by
    rw [chunkAt]
    split <;> rfl
  have hset (m : Manager) (h : ChunkHandle) (c : Chunk GrowingStore) :
      (m.setHeld h c).disk = m.disk := by
    rw [setHeld]
    repeat' split
    all_goals rfl
  rw [addLine]
  split
  · rfl
  · next r _ =>
    rw [addRecord]
    split
    · exact (hset _ _ _).trans (hchunk r.point.time)
    · rfl

theorem disk_addEach (m : Manager) (lines : List String) : (m.addEach lines).disk = m.disk := by
  induction lines generalizing m with
  | nil => rfl
  | cons line rest ih => rw [addEach, ih, disk_addLine]

end Manager

namespace IngestFile

variable {f g : IngestFile} {m : Manager} {text first second : String}

theorem ingest_text (h : m.disk.HoldsText f.path text) :
    f.ingest m = f.ingestLines ((Text.lines text).map some) {} m := by
  obtain ⟨id, hnode, hcontent⟩ := h
  rw [ingest, Disk.find, hnode]
  dsimp only
  rw [hcontent, Text.decodedLines_encode]

/-- **To ingest a file is to add its lines**, without those that are blank. Whatever becomes of a
line, the next one is added to the state that it leaves; each is counted once, by the answer to its
call, and each that is not ingested is reported if lines are reported. What a file holds up to a
line feed and what it holds behind it can be ingested one after the other. -/
theorem ingest_lines (h : m.disk.HoldsText f.path text) :
    (∃ report, (f.ingest m).result = .ok report ∧
      (f.ingest m).state = m.addEach (filled (Text.lines text)) ∧
      report = .count (m.fates (filled (Text.lines text))) ∧
      report.lines = (filled (Text.lines text)).length ∧
      (f.reports = true → Signal.Reports (f.ingest m).signals report)) ∧
    ∀ g k first second, text = first ++ second → first.toList.getLast? = some '\n' →
      m.disk.HoldsText (path g) first → m.disk.HoldsText (path k) second →
      g.reports = f.reports → k.reports = f.reports →
      f.ingest m = (g.ingest m).andThen fun r m => (k.ingest m).andThen fun s m =>
        ⟨.ok (r.plus s), m, []⟩ := by
  constructor
  · obtain ⟨hresult, hstate, hsignals⟩ := f.ingestLines_texts (Text.lines text) {} m
    rw [IngestReport.empty_plus] at hresult
    rw [ingest_text h]
    exact ⟨_, hresult, hstate, rfl,
      (IngestReport.lines_count _).trans (m.length_fates _), hsignals⟩
  · rintro g k first second rfl hend hg hk hgf hkf
    have hlines : Text.lines (first ++ second) = Text.lines first ++ Text.lines second := by
      rw [Text.lines, String.toList_append, Text.linesOf_append hend, List.map_append]
      rfl
    obtain ⟨hresult, hstate, -⟩ := f.ingestLines_texts (Text.lines first) {} m
    rw [ingest_text h, hlines, List.map_append, ingestLines_append, ingest_text hg,
      ingestLines_congr hgf, Effect.andThen, Effect.andThen, hresult]
    dsimp only
    -- the first lines leave the disk, so that the second file is still there
    have hkept : (f.ingestLines ((Text.lines first).map some) {} m).state.disk = m.disk := by
      rw [hstate, Manager.disk_addEach]
    rw [ingest_text (hkept.symm ▸ hk), ingestLines_congr hkf, ← ingestLines_plus,
      IngestReport.plus_empty]

/-- Lines that end in both ways, blank ones, and one without an end. The first line is late. -/
theorem ingest_lines_sample :
    let first := "put cpu 60 2\r\n\n \u2003\nput cpu 7200 3\n"
    let second := "put cpu\nput cpu 7201 -1"
    let disk : Disk :=
      ⟨.ofList [(["all"], DiskNode.file 0), (["a"], .file 1), (["b"], .file 2)],
        .ofList [(0, Text.encode (first ++ second)), (1, Text.encode first),
          (2, Text.encode second)], 3⟩
    let m : Manager := ⟨{}, TagIndex.empty, disk,
      .ofList [((0 : Int), LiveChunk.mk 0 (.evicted ⟨"metrics_0", 0, 7200⟩))], 1⟩
    let f : IngestFile := ⟨.ofText "all", true⟩
    (f.ingest m).result = .ok ⟨2, 1, 1, 0⟩ ∧
      f.ingest m = (ingest ⟨.ofText "a", true⟩ m).andThen fun r m =>
        (ingest ⟨.ofText "b", true⟩ m).andThen fun s m => ⟨.ok (r.plus s), m, []⟩ := by
  intro first second disk m f
  have hall : m.disk.HoldsText f.path (first ++ second) := ⟨0, by decide +kernel, by decide +kernel⟩
  have ha : m.disk.HoldsText (.ofText "a") first := ⟨1, by decide +kernel, by decide +kernel⟩
  have hb : m.disk.HoldsText (.ofText "b") second := ⟨2, by decide +kernel, by decide +kernel⟩
  have hfates : m.fates (filled (Text.lines (first ++ second))) =
      [.late, .ingested, .invalid, .ingested] := by
    decide +kernel
  obtain ⟨⟨report, hresult, -, hreport, -⟩, hsplit⟩ := ingest_lines hall
  rw [hfates] at hreport
  rw [hreport] at hresult
  exact ⟨hresult, hsplit ⟨.ofText "a", true⟩ ⟨.ofText "b", true⟩ first second rfl (by decide +kernel)
    ha hb rfl rfl⟩

end IngestFile

end TimeSeries
