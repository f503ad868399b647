import Mathlib
import TimeSeries.Proofs.Manager.Invariant

/-!
# Runs of a manager

A manager changes in four ways: a line is added, the chunk of a time is asked for and created if
there is none, chunks are frozen, chunks are removed. A run is any number of such steps.

`Sound` holds of every manager that a run leads to from a new one. It asks nothing of the disk, of
the codec or of the length of the windows, and so it says less than `Holds` about what the chunks
keep: each chunk stands at the start of its window; while it has a store, a store that takes points
has them under ids of metrics only, and a frozen store lies in memory if there is no directory for
files.

Much of what is true of chunks is true of each for itself: a new chunk has it, and it is not lost
when a point of its window comes or when the chunk is frozen. `eachChunk_of_run` makes of these
three facts a fact about every chunk after any run.
-/

namespace TimeSeries

variable {ms more : List Metric} {form : FrozenForm} {start : Int} {d d' : Disk}
  {tags : TagIndex} {m m' : Manager} {c : LiveChunk} {next : Nat}

/-! ## Freezing in memory -/

namespace GrowingStore

variable [BlockCodec] {s : GrowingStore} {dataset : String}

theorem putSeries_memory {compression : Compression} {list : List (SeriesId × Series)}
    {records : RecordTable} {result : Except Error Unit} {records' : RecordMap}
    (h : putSeries compression list (.memory records) d = (result, records', d')) :
    d' = d ∧ ∃ kept, records' = .memory kept := by
  induction list generalizing records with
  | nil =>
    simp only [putSeries, Prod.mk.injEq] at h
    obtain ⟨-, rfl, rfl⟩ := h
    exact ⟨rfl, records, rfl⟩
  | cons x list ih =>
    obtain ⟨id, series⟩ := x
    rw [putSeries] at h
    split at h
    · exact ih h
    · split at h
      · simp only [Prod.mk.injEq] at h
        obtain ⟨-, rfl, rfl⟩ := h
        exact ⟨rfl, records, rfl⟩
      · -- a record in memory is always put
        simp only [RecordMap.put] at h
        exact ih h

/-- Without a directory for files, freezing does not reach the disk. -/
theorem freeze_memory (hform : form.directory = none) {result : Except Error FrozenStore}
    (h : s.freeze d dataset form = (result, d')) :
    d' = d ∧ ∀ frozen, result = .ok frozen → frozen.records.place? = none := by
  unfold GrowingStore.freeze at h
  simp only [FrozenForm.file, hform, Option.map_none, RecordMap.create] at h
  split at h
  · rename_i hput
    obtain ⟨rfl, kept, rfl⟩ := putSeries_memory hput
    simp only [RecordMap.discard, Prod.mk.injEq] at h
    obtain ⟨rfl, rfl⟩ := h
    exact ⟨rfl, by simp⟩
  · rename_i hput
    obtain ⟨rfl, kept, rfl⟩ := putSeries_memory hput
    simp only [Prod.mk.injEq] at h
    obtain ⟨rfl, rfl⟩ := h
    refine ⟨rfl, fun frozen hfrozen => ?_⟩
    obtain rfl := Except.ok.inj hfrozen
    rfl

end GrowingStore

/-! ## Chunks of a manager -/

/-- A store that takes points has them under ids of metrics only, and a frozen store lies in memory
if the form has no directory. -/
def Store.Sound (s : Store GrowingStore) (form : FrozenForm) (ms : List Metric) : Prop :=
  match s with
  | .growing store => ∃ f, store.Holds f ∧ Chunk.Known ms f
  | .frozen store => form.directory = none → store.records.place? = none

theorem Store.Sound.append {s : Store GrowingStore} (h : s.Sound form ms) :
    s.Sound form (ms ++ more) := by
  cases s with
  | growing store =>
    obtain ⟨f, hheld, hknown⟩ := h
    exact ⟨f, hheld, hknown.append⟩
  | frozen store => exact h

namespace Chunk

/-- The chunk at the start of a window, with its store if there is one. -/
structure Sound (c : Chunk GrowingStore) (start : Int) (form : FrozenForm) (ms : List Metric) :
    Prop where
  start : c.info.start = start
  store : ∀ s, c.store = some s → s.Sound form ms

variable {c : Chunk GrowingStore}

theorem Sound.append (h : c.Sound start form ms) : c.Sound start form (ms ++ more) :=
  ⟨h.start, fun s hs => (h.store s hs).append⟩

theorem sound_some {info : ChunkInfo} {s : Store GrowingStore} (hi : info.start = start)
    (hs : s.Sound form ms) : Sound ⟨info, some s⟩ start form ms :=
  ⟨hi, fun _ h => Option.some_inj.mp h ▸ hs⟩

theorem sound_new {info : ChunkInfo} (h : info.start = start) :
    (Chunk.new info).Sound start form ms := by
  refine sound_some h ⟨fun _ => [], GrowingStore.holds_empty, ?_⟩
  intro id hne
  exact absurd rfl hne

/-- An evicted chunk has nothing that could be wrong. -/
theorem sound_evicted {info : ChunkInfo} (h : info.start = start) :
    (Chunk.evicted info).Sound start form ms :=
  ⟨h, fun s hs => absurd hs (by simp [Chunk.evicted])⟩

variable [BlockCodec]

theorem Sound.addPoint (h : c.Sound start form ms) (htags : TagIndex.Indexes tags ms) {m : Metric}
    (hm : m.WellFormed) (p : Point) :
    ∃ more, TagIndex.Indexes (c.addPoint tags m p).2.2 (ms ++ more) ∧
      (c.addPoint tags m p).2.1.Sound start form (ms ++ more) := by
  by_cases hgrowing : c.state = .growing
  · obtain ⟨store, hs⟩ := state_eq_growing.mp hgrowing
    obtain ⟨f, hheld, hknown⟩ := h.store _ hs
    obtain ⟨result, s', tags', more, hadd, htags', hkind, hcases⟩ :=
      addPoint_spec (d := Disk.empty) hs hheld htags hm p
    obtain ⟨store', rfl⟩ : ∃ store', s' = .growing store' := by
      rcases hkind with rfl | hgrowing
      · exact ⟨store, rfl⟩
      · exact hgrowing
    rw [hadd]
    refine ⟨more, htags', sound_some h.start ?_⟩
    rcases hcases with ⟨e, -, hheld'⟩ | ⟨id, n, -, hid, -, hheld'⟩
    · exact ⟨f, hheld', hknown.append⟩
    · refine ⟨Function.update f id (f id ++ [p]), hheld', fun other hother => ?_⟩
      by_cases heq : other = id
      · exact ⟨n, heq ▸ hid⟩
      · rw [Function.update_of_ne heq] at hother
        exact hknown.append other hother
  · rw [addPoint_late hgrowing tags m p]
    exact ⟨[], by simpa using htags, h.append⟩

/-- Freezing in whatever form, as long as it is in memory where the form of the chunk is. -/
theorem Sound.freeze {other : FrozenForm} (h : c.Sound start form ms) (d : Disk)
    (hother : form.directory = none → other.directory = none) :
    (c.freeze d other).state.1.Sound start form ms := by
  by_cases hgrowing : c.state = .growing
  · obtain ⟨store, hs⟩ := state_eq_growing.mp hgrowing
    rcases freeze_growing hs d other with ⟨e, d', -, -, hstate⟩ | ⟨frozen, d', hfreeze, -, hstate⟩
    · rw [hstate]
      exact h
    · rw [hstate]
      refine sound_some h.start fun hform => ?_
      exact (GrowingStore.freeze_memory (hother hform) hfreeze).2 frozen rfl
  · rw [(freeze_late hgrowing d other).2]
    exact h

end Chunk

/-! ## Steps -/

namespace Manager

variable [BlockCodec]

/-- What changes a manager. -/
inductive Step : Manager → Manager → Prop
  | add {m : Manager} (line : String) : Step m (m.addLine line).state
  | window {m : Manager} (t : Int) : Step m (m.chunkAt t).2.1
  | freeze {m : Manager} (cutoff : Int) : Step m (m.freezeUntil cutoff).2.1
  | remove {m : Manager} (cutoff : Int) : Step m (m.removeUntil cutoff).2.1

/-- Any number of steps. -/
abbrev Run : Manager → Manager → Prop := Relation.ReflTransGen Step

theorem step_call (m : Manager) (call : ManagerCall) : Step m (m.call call).1 := by
  cases call with
  | add line => exact .add line
  | freezeUntil cutoff => exact .freeze cutoff
  | removeUntil cutoff => exact .remove cutoff

theorem run_callEach (m : Manager) (calls : List ManagerCall) : Run m (m.callEach calls).1 := by
  induction calls generalizing m with
  | nil => exact .refl
  | cons call calls ih => exact .head (step_call m call) (ih _)

omit [BlockCodec] in
/-- What holds of a manager at any time in its life. -/
structure Sound (m : Manager) (settings : ManagerSettings) (ms : List Metric) : Prop where
  settings_eq : m.settings = settings
  tags : TagIndex.Indexes m.tags ms
  chunks : ∀ start (c : LiveChunk), m.chunks[start]? = some c →
    c.chunk.Sound start settings.form ms

variable {settings : ManagerSettings}

omit [BlockCodec] in
/-- One chunk is put in the place of the one at its start, and metrics may come. -/
theorem Sound.insert (h : m.Sound settings ms) (htags : TagIndex.Indexes tags (ms ++ more))
    (hc : c.chunk.Sound start settings.form (ms ++ more)) :
    Sound ⟨m.settings, tags, d, m.chunks.insert start c, next⟩ settings (ms ++ more) where
  settings_eq := h.settings_eq
  tags := htags
  chunks := by
    intro other c' hc'
    rw [TreeMap.getElem?_insert] at hc'
    split at hc'
    · rename_i heq
      obtain rfl := Option.some_inj.mp hc'
      rw [heq]
      exact hc
    · exact (h.chunks other c' hc').append

omit [BlockCodec] in
theorem Sound.put (h : m.Sound settings ms) (hc : c.chunk.Sound start settings.form ms) :
    Sound ⟨m.settings, m.tags, d, m.chunks.insert start c, next⟩ settings ms := by
  have hnew : Sound ⟨m.settings, m.tags, d, m.chunks.insert start c, next⟩ settings (ms ++ []) :=
    h.insert (by simpa using h.tags) hc.append
  rwa [List.append_nil] at hnew

omit [BlockCodec] in
theorem Sound.chunkAt (h : m.Sound settings ms) (t : Int) :
    (m.chunkAt t).2.1.Sound settings ms ∧
      (m.chunkAt t).2.1.chunks[m.windowStart t]? = some (m.chunkAt t).1 := by
  unfold Manager.chunkAt
  split
  · rename_i hc
    exact ⟨h, hc⟩
  · exact ⟨h.put (Chunk.sound_new rfl), (chunks_create m _ _).trans (if_pos rfl)⟩

theorem Sound.addHeld (h : m.Sound settings ms) (hc : m.chunks[start]? = some c) {metric : Metric}
    (hm : metric.WellFormed) (p : Point) :
    ∃ more, (m.addHeld c.handle metric p).2.Sound settings (ms ++ more) := by
  have hsound := h.chunks start c hc
  obtain ⟨more, htags, hchunk⟩ := hsound.addPoint h.tags hm p
  rw [addHeld_eq hc hsound.start]
  exact ⟨more, h.insert htags hchunk⟩

theorem Sound.addLine (h : m.Sound settings ms) (line : String) :
    ∃ more, (m.addLine line).state.Sound settings (ms ++ more) := by
  have hsame : ∃ more, m.Sound settings (ms ++ more) := ⟨[], by simpa using h⟩
  rw [Manager.addLine]
  cases hparse : PutRecord.parse line with
  | error e => exact hsame
  | ok r =>
    dsimp only
    by_cases hr : PointTime r.point.time
    · have hrecord := addRecord_inRange (m := m) hr
      obtain ⟨hcreated, hc⟩ := h.chunkAt r.point.time
      have hadded := hcreated.addHeld hc (PutRecord.wellFormed_of_parse hparse) r.point
      rw [← hrecord] at hadded
      exact hadded
    · rw [addRecord_outOfRange hr]
      exact hsame

theorem Sound.freezeChunk (h : m.Sound settings ms) (hc : c.chunk.Sound start settings.form ms) :
    (m.freezeChunk start c).2.1.Sound settings ms := by
  have hform : m.settings.form = settings.form := by rw [h.settings_eq]
  rw [freezeChunk_eq, hform]
  exact h.put (hc.freeze m.disk id)

omit [BlockCodec] in
theorem Sound.removeChunk (h : m.Sound settings ms) :
    (m.removeChunk start c).1.Sound settings ms := by
  refine ⟨h.settings_eq, h.tags, fun other c' hc' => ?_⟩
  rw [chunks_removeChunk] at hc'
  split at hc'
  · exact absurd hc' (by simp)
  · exact h.chunks other c' hc'

omit [BlockCodec] in
theorem Sound.of_mem (h : m.Sound settings ms) :
    ∀ x ∈ m.chunks.toList, x.2.chunk.Sound x.1 settings.form ms := by
  intro x hx
  exact h.chunks x.1 x.2 (mem_toList.mp hx)

theorem Sound.freezeUntil (h : m.Sound settings ms) (cutoff : Int) :
    (m.freezeUntil cutoff).2.1.Sound settings ms :=
  freezeUntil_induction (P := fun m _ => m.Sound settings ms)
    (fun _ _ start c h hc _ _ => h.freezeChunk (h.chunks start c hc)) h

omit [BlockCodec] in
theorem Sound.removeUntil (h : m.Sound settings ms) (cutoff : Int) :
    (m.removeUntil cutoff).2.1.Sound settings ms :=
  removeUntil_induction (P := fun m _ => m.Sound settings ms)
    (fun _ _ _ _ h _ _ => h.removeChunk) (fun _ _ h => h) h

/-- **A step keeps a manager sound**, and the metrics that were there. -/
theorem Sound.step (h : m.Sound settings ms) (hs : Step m m') :
    ∃ more, m'.Sound settings (ms ++ more) := by
  cases hs with
  | add line => exact h.addLine line
  | window t => exact ⟨[], by simpa using (h.chunkAt t).1⟩
  | freeze cutoff => exact ⟨[], by simpa using h.freezeUntil cutoff⟩
  | remove cutoff => exact ⟨[], by simpa using h.removeUntil cutoff⟩

theorem Sound.run (h : m.Sound settings ms) (hr : Run m m') :
    ∃ more, m'.Sound settings (ms ++ more) := by
  induction hr with
  | refl => exact ⟨[], by simpa using h⟩
  | tail _ hs ih =>
    obtain ⟨more, hmore⟩ := ih
    obtain ⟨more', hmore'⟩ := hmore.step hs
    exact ⟨more ++ more', by rw [← List.append_assoc]; exact hmore'⟩

omit [BlockCodec] in
/-- A new manager has neither metrics nor chunks. -/
theorem exists_of_new (hnew : Manager.new settings d = .ok m) :
    ∃ made, m = ⟨settings, TagIndex.empty, made, ∅, 0⟩ := by
  rw [Manager.new] at hnew
  obtain ⟨_, -, hnew⟩ := bind_eq_ok.mp hnew
  dsimp only at hnew
  split at hnew
  · exact ⟨d, (pure_eq_ok.mp hnew).symm⟩
  · obtain ⟨made, -, hnew⟩ := bind_eq_ok.mp hnew
    exact ⟨made, (pure_eq_ok.mp hnew).symm⟩

omit [BlockCodec] in
theorem sound_new (hnew : Manager.new settings d = .ok m) : m.Sound settings [] := by
  obtain ⟨made, rfl⟩ := exists_of_new hnew
  refine ⟨rfl, TagIndex.indexes_empty, fun start c hc => ?_⟩
  exact absurd hc (by simp)

/-- Every manager that a run leads to is sound. -/
theorem sound_of_run (hnew : Manager.new settings d = .ok m) (hr : Run m m') :
    ∃ ms, m'.Sound settings ms := by
  obtain ⟨ms, h⟩ := (sound_new hnew).run hr
  exact ⟨_, h⟩

/-! ## What every chunk keeps -/

/-- What holds of the new chunks of a manager, and of a chunk with one more point of its window or
frozen if it held of the chunk before. -/
structure Inherited (m : Manager) (P : Int → Chunk GrowingStore → Prop) : Prop where
  created : ∀ start, P start (Chunk.new (m.chunkInfo start))
  added : ∀ (chunk : Chunk GrowingStore) (tags : TagIndex) (metric : Metric) (p : Point),
    PointTime p.time → P (m.windowStart p.time) chunk →
      P (m.windowStart p.time) (chunk.addPoint tags metric p).2.1
  frozen : ∀ start (chunk : Chunk GrowingStore) (d : Disk) (form : FrozenForm),
    P start chunk → P start (chunk.freeze d form).state.1

variable {P : Int → Chunk GrowingStore → Prop}

/-- What a manager says of its chunks it says by its settings. -/
theorem Inherited.congr (h : m.Inherited P) (hsame : m'.settings = m.settings) :
    m'.Inherited P := by
  have hinfo : m'.chunkInfo = m.chunkInfo := by
    funext start
    rw [chunkInfo, chunkInfo, datasetAt, datasetAt, hsame]
  have hwindow : m'.windowStart = m.windowStart := by
    funext t
    rw [windowStart, windowStart, hsame]
  refine ⟨?_, ?_, h.frozen⟩
  · rw [hinfo]
    exact h.created
  · rw [hwindow]
    exact h.added

omit [BlockCodec] in
/-- Something holds of every chunk, by the start at which it stands. -/
def EachChunk (m : Manager) (P : Int → Chunk GrowingStore → Prop) : Prop :=
  ∀ start (c : LiveChunk), m.chunks[start]? = some c → P start c.chunk

omit [BlockCodec] in
theorem EachChunk.put (h : m.EachChunk P) (hc : P start c.chunk) :
    EachChunk ⟨m.settings, tags, d, m.chunks.insert start c, next⟩ P := by
  intro other c' hc'
  rw [TreeMap.getElem?_insert] at hc'
  split at hc'
  · rename_i heq
    obtain rfl := Option.some_inj.mp hc'
    rw [heq]
    exact hc
  · exact h other c' hc'

theorem EachChunk.chunkAt (h : m.EachChunk P) (hP : m.Inherited P) (t : Int) :
    (m.chunkAt t).2.1.EachChunk P := by
  unfold Manager.chunkAt
  split
  · exact h
  · exact h.put (hP.created _)

theorem EachChunk.addLine (hs : m.Sound settings ms) (h : m.EachChunk P) (hP : m.Inherited P)
    (line : String) : (m.addLine line).state.EachChunk P := by
  rw [Manager.addLine]
  cases PutRecord.parse line with
  | error e => exact h
  | ok r =>
    dsimp only
    by_cases hr : PointTime r.point.time
    · obtain ⟨hcreated, hc⟩ := hs.chunkAt r.point.time
      have heach := h.chunkAt hP r.point.time
      have hstate : (m.addRecord r).state = _ := congrArg Prod.snd (addRecord_inRange hr)
      rw [hstate, addHeld_eq hc (hcreated.chunks _ _ hc).start]
      exact heach.put (hP.added _ _ _ _ hr (heach _ _ hc))
    · rw [addRecord_outOfRange hr]
      exact h

/-- **What every new chunk has, and neither points nor freezing take away, every chunk has** after
any run. -/
theorem eachChunk_of_run (hnew : Manager.new settings d = .ok m) (hP : m.Inherited P)
    (hr : Run m m') : m'.EachChunk P := by
  induction hr with
  | refl =>
    obtain ⟨made, rfl⟩ := exists_of_new hnew
    exact fun start c hc => absurd hc (by simp)
  | tail hrun hstep ih =>
    obtain ⟨ms, hs⟩ := sound_of_run hnew hrun
    have hP' := hP.congr (hs.settings_eq.trans (sound_new hnew).settings_eq.symm)
    cases hstep with
    | add line => exact ih.addLine hs hP' line
    | window t => exact ih.chunkAt hP' t
    | freeze cutoff =>
      refine freezeUntil_induction (P := fun m _ => m.EachChunk P) ?_ ih
      intro m _ start c h hc _ _
      rw [freezeChunk_eq]
      exact h.put (hP.frozen _ _ _ _ (h start c hc))
    | remove cutoff =>
      refine removeUntil_induction (P := fun m _ => m.EachChunk P) ?_ (fun _ _ h => h) ih
      intro m _ start c h _ _ other c' hc'
      rw [chunks_removeChunk] at hc'
      split at hc'
      · exact absurd hc' (by simp)
      · exact h other c' hc'

end Manager

end TimeSeries
