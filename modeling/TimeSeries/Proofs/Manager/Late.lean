import Mathlib
import TimeSeries.Proofs.Manager.Refusal

/-!
# Points that come too late

From the time when the chunk of a window takes no points until the chunk is removed, nothing that a
manager is asked to do touches the chunk: a line for its window is refused, one for another window
goes to another chunk, and it is not frozen again. The manager keeps no record of the chunks that
it has removed. So a window whose chunk is gone is like one that never had a chunk: the next point
of the window begins a new one.
-/

namespace TimeSeries

namespace Manager

variable {settings : ManagerSettings} {ms : List Metric} {m : Manager} {c : LiveChunk}
  {start cutoff t : Int} {r : PutRecord} {line : String} {info : Int → ChunkInfo}

/-! ## What removing chunks leaves -/

theorem chunks_removeAll {list : List (Int × LiveChunk)} :
    (removeAll cutoff list m).2.1.chunks[start]? = some c ↔
      m.chunks[start]? = some c ∧ ∀ x ∈ list, x.1 = start → cutoff < x.2.chunk.info.stop := by
  induction list generalizing m with
  | nil => simp [removeAll]
  | cons x list ih =>
    obtain ⟨other, c'⟩ := x
    rw [removeAll]
    split
    · rename_i hle
      rw [ih, chunks_removeChunk, List.forall_mem_cons]
      by_cases hother : other = start
      · simp [hother, Int.not_lt.mpr hle]
      · simp [hother, Ne.symm hother]
    · rename_i hlt
      rw [ih, List.forall_mem_cons]
      simp [Int.not_le.mp hlt]

/-- The chunks that are left are those that end behind the cutoff. -/
theorem chunks_removeUntil : (m.removeUntil cutoff).2.1.chunks[start]? = some c ↔
    m.chunks[start]? = some c ∧ cutoff < c.chunk.info.stop := by
  have hleft : (m.removeUntil cutoff).2.1.chunks[start]? = some c ↔ _ := chunks_removeAll
  rw [hleft]
  refine and_congr_right fun hc => ⟨fun h => h (start, c) (mem_toList.mpr hc) rfl, ?_⟩
  rintro hlt ⟨_, c'⟩ hx rfl
  obtain rfl := Option.some_inj.mp (hc.symm.trans (mem_toList.mp hx))
  exact hlt

theorem tags_removeAll (list : List (Int × LiveChunk)) :
    (removeAll cutoff list m).2.1.tags = m.tags := by
  induction list generalizing m with
  | nil => rfl
  | cons x list ih =>
    rw [removeAll]
    split
    · exact ih
    · exact ih

/-! ## What a record changes -/

theorem chunkAt_of_existing (hc : m.chunks[m.windowStart t]? = some c) :
    m.chunkAt t = (c, m, []) := by
  have hexisting : m.existing? t = some c := hc
  rw [chunkAt, hexisting]

/-- A chunk that is created takes the place of no other. -/
theorem chunks_chunkAt (hne : start ≠ m.windowStart t) :
    (m.chunkAt t).2.1.chunks[start]? = m.chunks[start]? := by
  rw [chunkAt]
  split
  · rfl
  · exact (chunks_create m _ _).trans (if_neg hne)

theorem info_addPoint (chunk : Chunk GrowingStore) (tags : TagIndex) (metric : Metric) (p : Point) :
    (chunk.addPoint tags metric p).2.1.info = chunk.info := by
  unfold Chunk.addPoint
  split
  · split <;> rfl
  · rfl

/-- After a record there is a chunk for its window, the one that was there or was created, and the
chunks of the other windows are as they were. -/
theorem Sound.chunks_addRecord (h : m.Sound settings ms) (hr : PointTime r.point.time) :
    ∃ c, c.chunk.info = (m.chunkAt r.point.time).1.chunk.info ∧
      ∀ start, (m.addRecord r).state.chunks[start]? =
        if start = m.windowStart r.point.time then some c else m.chunks[start]? := by
  obtain ⟨hcreated, hc⟩ := h.chunkAt r.point.time
  have hstate := congrArg Prod.snd (addRecord_inRange (m := m) hr)
  cases hat : m.chunkAt r.point.time with
  | mk c after =>
    rw [hat] at hcreated hc hstate
    rw [addHeld_eq hc (hcreated.chunks _ _ hc).start] at hstate
    dsimp only at hstate
    refine ⟨{ c with chunk := (c.chunk.addPoint after.1.tags r.metric r.point).2.1 },
      info_addPoint .., fun start => ?_⟩
    rw [hstate]
    dsimp only
    rw [TreeMap.getElem?_insert]
    split
    · rfl
    · rename_i hne
      have hsame := chunks_chunkAt hne
      rwa [hat] at hsame

/-- A record for a chunk that takes no points is refused. -/
theorem Sound.addRecord_late (h : m.Sound settings ms)
    (hc : m.chunks[m.windowStart r.point.time]? = some c)
    (hclosed : c.chunk.isClosedToPoints = true) (hr : PointTime r.point.time) :
    m.addRecord r = ⟨.error (.readOnlyInsertion c.chunk.info.dataset), m, []⟩ := by
  have hrange : 0 ≤ r.point.time ∧ r.point.time ≤ maxTime := hr
  have hlate := Chunk.addPoint_late (bne_iff_ne.mp hclosed) m.tags r.metric r.point
  rw [addRecord, if_pos hrange, chunkAt_of_existing hc]
  dsimp only
  rw [addHeld_eq hc (h.chunks _ c hc).start, hlate, TreeMap.insert_of_getElem? hc]
  rfl

/-- The first point of a window is taken. -/
theorem Sound.addRecord_first (h : m.Sound settings ms) (hroom : m.tags.HasRoom)
    (hm : r.metric.WellFormed) (hr : PointTime r.point.time)
    (hnone : m.chunks[m.windowStart r.point.time]? = none) : (m.addRecord r).result = .ok () := by
  cases hresult : (m.addRecord r).result with
  | ok u => rfl
  | error e =>
    -- a refusal would leave no chunk behind, but there is one now
    obtain ⟨hsame, -⟩ := h.addRecord_refused hroom hm hresult
    obtain ⟨c, -, hchunks⟩ := h.chunks_addRecord hr
    have hc := hchunks (m.windowStart r.point.time)
    rw [hsame, if_pos rfl, hnone] at hc
    exact absurd hc (by simp)

/-- A line does not change a chunk that takes no points. -/
theorem Sound.chunks_addLine (h : m.Sound settings ms) (hc : m.chunks[start]? = some c)
    (hclosed : c.chunk.isClosedToPoints = true) (line : String) :
    (m.addLine line).state.chunks[start]? = some c := by
  rw [Manager.addLine]
  cases PutRecord.parse line with
  | error e => exact hc
  | ok r =>
    dsimp only
    by_cases hr : PointTime r.point.time
    · by_cases hstart : start = m.windowStart r.point.time
      · subst hstart
        rw [h.addRecord_late hc hclosed hr]
        exact hc
      · obtain ⟨_, -, hchunks⟩ := h.chunks_addRecord hr
        rw [hchunks start, if_neg hstart]
        exact hc
    · rw [addRecord_outOfRange hr]
      exact hc

/-! ## The window of a chunk -/

/-- Every chunk has the name and the bounds that belong to its start. -/
def Named (m : Manager) (info : Int → ChunkInfo) : Prop :=
  ∀ start (c : LiveChunk), m.chunks[start]? = some c → c.chunk.info = info start

variable [BlockCodec]

theorem info_freeze (chunk : Chunk GrowingStore) (d : Disk) (form : FrozenForm) :
    (chunk.freeze d form).state.1.info = chunk.info := by
  unfold Chunk.freeze
  split
  · rfl
  · split <;> rfl

theorem Named.freezeChunk (h : m.Named info) (hc : m.chunks[start]? = some c) :
    (m.freezeChunk start c).2.1.Named info := by
  have heach : m.EachChunk fun start chunk => chunk.info = info start := h
  rw [freezeChunk_eq]
  exact heach.put ((info_freeze ..).trans (h start c hc))

/-- After any run, chunks have the names and the bounds that a new manager gives to them. -/
theorem named_of_run {disk : Disk} {fresh : Manager} (hnew : Manager.new settings disk = .ok fresh)
    (hr : Run fresh m) : m.Named fresh.chunkInfo := by
  have hinherited : fresh.Inherited fun start chunk => chunk.info = fresh.chunkInfo start := by
    refine ⟨fun start => rfl, fun chunk tags metric p _ h => ?_, fun start chunk d form h => ?_⟩
    · exact (info_addPoint ..).trans h
    · exact (info_freeze ..).trans h
  exact eachChunk_of_run hnew hinherited hr

/-! ## A chunk that takes no points -/

/-- Freezing passes over the chunks that take no points. -/
theorem chunks_freezeUntil (hc : m.chunks[start]? = some c)
    (hclosed : c.chunk.isClosedToPoints = true) :
    (m.freezeUntil cutoff).2.1.chunks[start]? = some c := by
  refine freezeUntil_induction (P := fun m _ => m.chunks[start]? = some c) ?_ hc
  intro m _ other c' hc hc' _ hopen
  have hne : start ≠ other := by
    rintro rfl
    obtain rfl := Option.some_inj.mp (hc.symm.trans hc')
    exact absurd (hclosed.symm.trans hopen) (by simp)
  rw [chunks_freezeChunk hne]
  exact hc

/-- Until it is removed, a call does not change a chunk that takes no points. -/
theorem Sound.chunks_call (h : m.Sound settings ms) (hc : m.chunks[start]? = some c)
    (hclosed : c.chunk.isClosedToPoints = true) {call : ManagerCall}
    (hleft : ∀ cutoff, call = .removeUntil cutoff → cutoff < c.chunk.info.stop) :
    (m.call call).1.chunks[start]? = some c := by
  cases call with
  | add line => exact h.chunks_addLine hc hclosed line
  | freezeUntil cutoff => exact chunks_freezeUntil hc hclosed
  | removeUntil cutoff => exact chunks_removeUntil.mpr ⟨hc, hleft cutoff rfl⟩

/-- Until it is removed, a chunk that takes no points stays as it is. -/
theorem Sound.chunks_callEach (h : m.Sound settings ms) (hc : m.chunks[start]? = some c)
    (hclosed : c.chunk.isClosedToPoints = true) {calls : List ManagerCall}
    (hleft : ∀ cutoff, .removeUntil cutoff ∈ calls → cutoff < c.chunk.info.stop) :
    (∃ ms, (m.callEach calls).1.Sound settings ms) ∧
      (m.callEach calls).1.chunks[start]? = some c := by
  induction calls generalizing m ms with
  | nil => exact ⟨⟨ms, h⟩, hc⟩
  | cons call calls ih =>
    obtain ⟨more, h'⟩ := h.step (step_call m call)
    have hc' := h.chunks_call hc hclosed fun cutoff heq => hleft cutoff (heq ▸ List.mem_cons_self)
    exact ih h' hc' fun cutoff hmem => hleft cutoff (List.mem_cons_of_mem _ hmem)

/-- **A window whose chunk takes no points takes none until the chunk is removed, and it is open
again when it is.** Up to the removal the chunk stays as it is whatever calls come, and a line for
its window changes nothing: it comes too late, or its time is not one of a point. A removal that
reaches the end of the window leaves no chunk there, whether or not it took points, and it is not
remembered, so the next line for the window is taken. -/
theorem late_until_removed {disk : Disk} {fresh : Manager}
    (hnew : Manager.new settings disk = .ok fresh) (hr : Run fresh m)
    (hparse : PutRecord.parse line = .ok r) (hstart : fresh.windowStart r.point.time = start) :
    (∀ c, m.chunks[start]? = some c → c.chunk.isClosedToPoints = true →
      ∀ calls : List ManagerCall,
      (∀ cutoff, .removeUntil cutoff ∈ calls → cutoff < (fresh.chunkInfo start).stop) →
      let late := (m.callEach calls).1
      late.chunks[start]? = some c ∧
        (PointTime r.point.time → late.addLine line =
          ⟨.error (.readOnlyInsertion (fresh.chunkInfo start).dataset), late, []⟩) ∧
        (¬ PointTime r.point.time → late.addLine line =
          ⟨.error (.invalid (.timeOutsideStore r.point.time)), late, []⟩)) ∧
    ∀ cutoff, (fresh.chunkInfo start).stop ≤ cutoff →
      (m.removeUntil cutoff).2.1.chunks[start]? = none ∧
        (PointTime r.point.time → m.tags.HasRoom →
          ((m.removeUntil cutoff).2.1.addLine line).result = .ok ()) := by
  obtain ⟨ms, h⟩ := sound_of_run hnew hr
  have hnamed := named_of_run hnew hr
  have window {m : Manager} {ms : List Metric} (h : m.Sound settings ms) :
      m.windowStart r.point.time = start := by
    rw [← hstart, windowStart, windowStart, h.settings_eq, (sound_new hnew).settings_eq]
  constructor
  · intro c hc hclosed calls hleft late
    have hinfo := hnamed start c hc
    rw [← hinfo] at hleft ⊢
    obtain ⟨⟨ms', h'⟩, hc'⟩ := h.chunks_callEach hc hclosed hleft
    refine ⟨hc', fun htime => ?_, fun htime => ?_⟩
    · rw [addLine, hparse]
      exact h'.addRecord_late ((window h').symm ▸ hc') hclosed htime
    · rw [addLine, hparse]
      exact addRecord_outOfRange htime
  · intro cutoff hreached
    have hremoved := h.removeUntil cutoff
    have hnone : (m.removeUntil cutoff).2.1.chunks[start]? = none := by
      refine Option.eq_none_iff_forall_ne_some.mpr fun c hc => ?_
      obtain ⟨hold, hlt⟩ := chunks_removeUntil.mp hc
      rw [hnamed start c hold] at hlt
      exact absurd hreached (Int.not_le.mpr hlt)
    refine ⟨hnone, fun htime hroom => ?_⟩
    have htags : (m.removeUntil cutoff).2.1.tags = m.tags := tags_removeAll _
    rw [addLine, hparse]
    exact hremoved.addRecord_first (htags ▸ hroom) (PutRecord.wellFormed_of_parse hparse) htime
      ((window hremoved).symm ▸ hnone)

end Manager

/-- A window is frozen, and two lines come after it. -/
theorem Manager.late_until_removed_sample :
    let fresh : Manager := ⟨{}, TagIndex.empty, Disk.empty, ∅, 0⟩
    let m := (fresh.callEach [.add "put cpu 60 1", .freezeUntil 7200]).1
    let late := (m.callEach [.add "put cpu 8000 1", .removeUntil 7199]).1
    late.addLine "put cpu 61 2" = ⟨.error (.readOnlyInsertion "metrics_0"), late, []⟩ ∧
      ((m.removeUntil 7200).2.1.addLine "put cpu 61 2").result = .ok () := by
  intro fresh m late
  have hnew : Manager.new {} Disk.empty = .ok fresh := rfl
  have run : Run fresh m := .tail (.single (.add "put cpu 60 1")) (.freeze 7200)
  have hinfo : fresh.chunkInfo 0 = ⟨"metrics_0", 0, 7200⟩ := by decide +kernel
  have hfrozen : m.chunks[(0 : Int)]?.map (·.chunk.isClosedToPoints) = some true := by
    decide +kernel
  obtain ⟨c, hc, hclosed⟩ := Option.map_eq_some_iff.mp hfrozen
  have hparse : PutRecord.parse "put cpu 61 2" =
      .ok ⟨⟨"cpu", []⟩, ⟨61, 0x4000000000000000⟩⟩ := by
    decide +kernel
  have hstart : fresh.windowStart 61 = 0 := by decide +kernel
  have hroom : m.tags.names.size + TagIndex.firstId ≤ TagIndex.maxId := by decide +kernel
  have htime : PointTime 61 := ⟨by decide, by decide⟩
  obtain ⟨hlate, hopen⟩ := late_until_removed hnew run hparse hstart
  rw [hinfo] at hlate hopen
  have hrefused := hlate c hc hclosed [.add "put cpu 8000 1", .removeUntil 7199] (by simp)
  exact ⟨hrefused.2.1 htime, (hopen 7200 (by decide)).2 htime hroom⟩

/-- A line that comes too late is taken when the chunk of its window has been removed. -/
theorem Manager.addLine_after_removal :
    let fresh : Manager := ⟨{ dataset := "d" }, TagIndex.empty, Disk.empty, ∅, 0⟩
    let m := (fresh.callEach [.add "put cpu 0 1", .freezeUntil 7200]).1
    Manager.new { dataset := "d" } Disk.empty = .ok fresh ∧
      (m.addLine "put cpu 1 2").result = .error (.readOnlyInsertion "d_0") ∧
      ((m.callEach [.add "put cpu 1 2", .removeUntil 7200]).1.addLine "put cpu 1 2").result =
        .ok () := by
  intro fresh m
  refine ⟨rfl, ?_⟩
  decide +kernel

end TimeSeries
