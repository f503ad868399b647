import Mathlib
import TimeSeries.Proofs.Lifecycle.Sweep

/-!
# Passes

A pass is two sweeps with two cutoffs. It fails just if the first cutoff is refused: valid settings
keep the second from lying before the first, so that nothing is removed in a pass that fails
afterwards.

A sweep looks at each chunk by itself, and so does a pass. What a pass makes of a chunk is what
`passed` says, and two passes come to one because it is so for each chunk: what the earlier pass
removes or freezes, the later one would have removed or frozen in the same way.
-/

namespace TimeSeries

/-! ## Series that can be stored -/

/-- A series that fits into a record: there are four bytes for the number of its points and for the
number of words of each of its two bit streams. -/
structure Series.Fits (s : Series) : Prop where
  count : s.count ≤ maxInt32
  times : s.times.usedWords ≤ maxInt32
  values : s.values.usedWords ≤ maxInt32

/-- A series is serialized just if it fits into a record. -/
theorem Series.toBytes_ok_iff {s : Series} : (∃ bytes, s.toBytes = .ok bytes) ↔ s.Fits := by
  have ok_iff {x : BitStream} : (∃ bytes, x.toBytes = .ok bytes) ↔ x.usedWords ≤ maxInt32 := by
    simp only [BitStream.toBytes_eq_ok, exists_and_left, exists_eq, and_true]
  rw [Series.toBytes]
  split
  · rename_i hcount
    simp only [bind_eq_ok]
    constructor
    · rintro ⟨bytes, times, htimes, values, hvalues, -⟩
      exact ⟨hcount, ok_iff.mp ⟨times, htimes⟩, ok_iff.mp ⟨values, hvalues⟩⟩
    · intro h
      obtain ⟨times, htimes⟩ := ok_iff.mpr h.times
      obtain ⟨values, hvalues⟩ := ok_iff.mpr h.values
      exact ⟨_, times, htimes, values, hvalues, rfl⟩
  · rename_i hcount
    exact iff_of_false (by simp) fun h => hcount h.count

/-- The chunk takes points, and each series with points that it has so far fits into a record. -/
def Chunk.Storable (c : Chunk GrowingStore) : Prop :=
  ∃ s, c.store = some (.growing s) ∧ ∀ x ∈ s.series.toList, x.2.count ≠ 0 → x.2.Fits

theorem Chunk.Storable.growing {c : Chunk GrowingStore} (h : c.Storable) : c.state = .growing := by
  obtain ⟨s, hs, -⟩ := h
  exact state_eq_growing.mpr ⟨s, hs⟩

variable [BlockCodec] {d : Disk} {form : FrozenForm} {tags : TagIndex} {ms : List Metric}
  {start : Int}

/-- In memory, the records are made just if each series with points can be stored. -/
theorem GrowingStore.putSeries_ok_iff {compression : Compression}
    {list : List (SeriesId × Series)} (records : RecordTable) :
    (putSeries compression list (.memory records) d).1 = .ok () ↔ ∀ x ∈ list, x.2.count ≠ 0 →
      ∃ stored, x.2.toBytes >>= compression.encode = .ok stored := by
  induction list generalizing records with
  | nil => simp [putSeries]
  | cons x list ih =>
    obtain ⟨id, series⟩ := x
    rw [putSeries, List.forall_mem_cons]
    split
    · rename_i hzero
      rw [ih]
      exact ⟨fun h => ⟨fun hne => absurd hzero hne, h⟩, And.right⟩
    · rename_i hcount
      cases hstored : series.toBytes >>= compression.encode with
      | error e => exact iff_of_false (by simp) fun h => by simpa [hstored] using h.1 hcount
      | ok stored =>
        simp only [RecordMap.put, ih]
        exact ⟨fun h => ⟨fun _ => ⟨stored, rfl⟩, h⟩, And.right⟩

/-- In memory and with a codec that packs everything, freezing fails just because of a series that
does not fit into a record. -/
theorem GrowingStore.freeze_ok_iff {s : GrowingStore} (hform : form.directory = none)
    (hcodec : ∀ bytes, ∃ stored, form.compression.encode bytes = .ok stored) (dataset : String) :
    (∃ frozen, (s.freeze d dataset form).1 = .ok frozen) ↔
      ∀ x ∈ s.series.toList, x.2.count ≠ 0 → x.2.Fits := by
  have hstored (series : Series) :
      (∃ stored, series.toBytes >>= form.compression.encode = .ok stored) ↔ series.Fits := by
    simp only [bind_eq_ok, ← Series.toBytes_ok_iff]
    constructor
    · rintro ⟨stored, bytes, hbytes, -⟩
      exact ⟨bytes, hbytes⟩
    · rintro ⟨bytes, hbytes⟩
      obtain ⟨stored, hstored⟩ := hcodec bytes
      exact ⟨stored, bytes, hbytes, hstored⟩
  have hput : (putSeries form.compression s.series.toList (.memory ∅) d).1 = .ok () ↔ _ :=
    putSeries_ok_iff ∅
  simp only [hstored] at hput
  rw [← hput, GrowingStore.freeze, FrozenForm.file, hform]
  simp only [Option.map_none, RecordMap.create]
  split
  · rename_i hfail
    rw [hfail]
    exact iff_of_false (by simp) (by simp)
  · rename_i hok
    rw [hok]
    exact iff_of_true ⟨_, rfl⟩ rfl

/-! ## One chunk in a pass -/

namespace LiveChunk

variable {c : LiveChunk} {cutoff stale due : Int}

/-- A chunk that cannot be stored stays as it is. -/
theorem aged_of_not_storable (hform : form.directory = none)
    (hcodec : ∀ bytes, ∃ stored, form.compression.encode bytes = .ok stored)
    (hc : ¬ c.chunk.Storable) : c.aged cutoff d form = c := by
  rcases aged_cases cutoff d form c with hsame | ⟨s, frozen, d', hs, hfreeze, -⟩
  · exact hsame
  · refine absurd ⟨s, hs, ?_⟩ hc
    exact (GrowingStore.freeze_ok_iff hform hcodec _).mp ⟨frozen, congrArg Prod.fst hfreeze⟩

/-- A chunk that can be stored and ends by the cutoff takes no points afterwards. -/
theorem aged_of_storable (hform : form.directory = none)
    (hcodec : ∀ bytes, ∃ stored, form.compression.encode bytes = .ok stored)
    (hc : c.chunk.Storable) (hstop : c.chunk.info.stop ≤ cutoff) :
    (c.aged cutoff d form).chunk.state = .frozen := by
  obtain ⟨s, hs, hfits⟩ := hc
  obtain ⟨frozen, hok⟩ := (GrowingStore.freeze_ok_iff (d := d) hform hcodec
    c.chunk.info.dataset).mpr hfits
  rw [aged_of_le hstop]
  rcases Chunk.freeze_growing hs d form with
    ⟨e, d', hfail, -, -⟩ | ⟨frozen, d', -, -, hstate⟩
  · rw [hfail] at hok
    exact absurd hok (by simp)
  · rw [hstate]
    exact Chunk.state_eq_frozen.mpr ⟨frozen, rfl⟩

/-- Whether or not a chunk was frozen, it answers as before. -/
theorem aged_query [LawfulBlockCodec] (hform : form.directory = none)
    (hc : c.chunk.Sound start form ms) (q : Query) :
    (c.aged cutoff d form).chunk.query d tags q = c.chunk.query d tags q := by
  rcases aged_cases cutoff d form c with hsame | ⟨store, frozen, d', hs, hfreeze, haged⟩
  · rw [hsame]
  · obtain ⟨f, hheld, -⟩ := hc.store _ hs
    obtain ⟨rfl, -⟩ := GrowingStore.freeze_memory hform hfreeze
    have hafter : Store.Holds (.frozen frozen) d' f := hheld.freeze hfreeze
    rw [haged, Chunk.query_eq hs hheld, Chunk.query_eq rfl hafter]

/-- What a pass makes of a chunk. -/
def passed (stale due : Int) (d : Disk) (form : FrozenForm) (c : LiveChunk) : Option LiveChunk :=
  (c.kept stale).bind fun c => some (c.aged due d form)

theorem passed_of_le (h : c.chunk.info.stop ≤ stale) : c.passed stale due d form = none := by
  rw [passed, kept, if_pos h]
  rfl

theorem passed_of_lt (h : stale < c.chunk.info.stop) :
    c.passed stale due d form = some (c.aged due d form) := by
  rw [passed, kept, if_neg (Int.not_le.mpr h)]
  rfl

/-- **Two passes over a chunk come to one.** -/
theorem passed_passed {stale' due' : Int} (hstale : stale ≤ stale') (hdue : due ≤ due') :
    (c.passed stale due d form).bind (passed stale' due' d form) = c.passed stale' due' d form := by
  by_cases hfirst : c.chunk.info.stop ≤ stale
  · rw [passed_of_le hfirst, passed_of_le (hfirst.trans hstale), Option.bind_none]
  · rw [passed_of_lt (Int.not_le.mp hfirst), Option.bind_some]
    by_cases hsecond : c.chunk.info.stop ≤ stale'
    · rw [passed_of_le hsecond, passed_of_le (by rw [aged_info]; exact hsecond)]
    · have hlt := Int.not_le.mp hsecond
      rw [passed_of_lt hlt, passed_of_lt (by rw [aged_info]; exact hlt), aged_aged hdue]

end LiveChunk

/-! ## All chunks in a pass -/

namespace Manager

variable {settings : ManagerSettings} {m m' : Manager}

/-- How many chunks of one manager are not in another. -/
def deletions (m m' : Manager) : Nat :=
  m.chunks.toList.countP fun x => m'.chunks[x.1]? matches none

/-- How many chunks of one manager take points, and are frozen in another. -/
def conversions (m m' : Manager) : Nat :=
  m.chunks.toList.countP fun x =>
    match m'.chunks[x.1]? with
    | none => false
    | some c => x.2.WasFrozen c

omit [BlockCodec] in
/-- What is left after a sweep that keeps some chunks is counted as it was before. -/
theorem Swept.countP_kept {cutoff : Int} (h : Swept (fun _ => (·.kept cutoff)) m m')
    (p : Int × LiveChunk → Bool) :
    m'.chunks.toList.countP p =
      m.chunks.toList.countP fun x => p x && cutoff < x.2.chunk.info.stop := by
  have nodup (m : Manager) : m.chunks.toList.Nodup := (TreeMap.nodup_keys m.chunks).of_map _
  have hperm : m'.chunks.toList.Perm
      (m.chunks.toList.filter fun x => cutoff < x.2.chunk.info.stop) := by
    refine (List.perm_ext_iff_of_nodup (nodup m') ((nodup m).filter _)).mpr fun x => ?_
    rw [List.mem_filter, mem_toList, mem_toList, h.chunks x.1, decide_eq_true_eq]
    cases hx : m.chunks[x.1]? with
    | none => simp
    | some c =>
      by_cases hstop : c.chunk.info.stop ≤ cutoff
      · rw [Option.bind_some, LiveChunk.kept, if_pos hstop]
        refine iff_of_false (by simp) ?_
        rintro ⟨hc, hlt⟩
        obtain rfl := Option.some_inj.mp hc
        exact Int.not_lt.mpr hstop hlt
      · rw [Option.bind_some, LiveChunk.kept, if_neg hstop]
        refine ⟨fun hc => ⟨hc, ?_⟩, fun hc => hc.1⟩
        obtain rfl := Option.some_inj.mp hc
        exact Int.not_le.mp hstop
  rw [hperm.countP_eq, List.countP_filter]

/-- Removing and freezing one after the other, and what they count. -/
theorem Sound.swept (h : m.Sound settings ms) (hform : settings.form.directory = none)
    (stale due : Int) :
    let first := m.removeUntil stale
    let second := first.2.1.freezeUntil due
    Swept (fun _ => LiveChunk.passed stale due m.disk settings.form) m second.2.1 ∧
      first.1 = m.deletions second.2.1 ∧ second.1 = m.conversions second.2.1 := by
  intro first second
  obtain ⟨hremoved, hdeleted⟩ := h.removed hform stale
  obtain ⟨hfrozen, hconverted⟩ := frozen_of_memory (m := first.2.1)
    (by rw [hremoved.settings_eq, h.settings_eq]; exact hform) due
  rw [hremoved.disk_eq, hremoved.settings_eq, h.settings_eq] at hfrozen hconverted
  have hswept : Swept (fun _ => LiveChunk.passed stale due m.disk settings.form) m second.2.1 :=
    hremoved.trans hfrozen
  refine ⟨hswept, ?_, ?_⟩
  · refine hdeleted.trans (List.countP_congr fun x hx => ?_)
    rw [hswept.of_mem (mem_toList.mp hx), decide_eq_true_eq]
    by_cases hstop : x.2.chunk.info.stop ≤ stale
    · simp [LiveChunk.passed_of_le hstop, hstop]
    · simp [LiveChunk.passed_of_lt (Int.not_le.mp hstop), hstop]
  · refine hconverted.trans ?_
    rw [hremoved.countP_kept]
    refine List.countP_congr fun x hx => ?_
    rw [hswept.of_mem (mem_toList.mp hx)]
    by_cases hstop : x.2.chunk.info.stop ≤ stale
    · simp [LiveChunk.passed_of_le hstop, hstop]
    · simp [LiveChunk.passed_of_lt (Int.not_le.mp hstop), Int.not_le.mp hstop]

end Manager

end TimeSeries
