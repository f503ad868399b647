import Mathlib
import TimeSeries.Proofs.Chunk.Size
import TimeSeries.Proofs.Manager.Balance

/-!
# The size of a manager

The size of a manager is added up from its chunks each time it is asked for. `Tallies` ties it to
the history: a chunk counts the records that are left of its window, every record that is left has
a chunk, and the index has the metrics of all records that were ever taken. Nothing is asked of the
codec or of the disk. A frozen chunk counts what it counted before, even if nothing could be read
from it.
-/

namespace TimeSeries

/-! ## Windows one by one -/

/-- The names that stand with the start of a window. -/
def namesIn (pairs : List (Int × String)) (start : Int) : List String :=
  (pairs.filter fun x => x.1 = start).map Prod.snd

variable {pairs : List (Int × String)} {starts : List Int}

/-- Pairs are counted window by window. -/
theorem sum_length_namesIn (hdistinct : starts.Nodup) (hall : ∀ x ∈ pairs, x.1 ∈ starts) :
    (starts.map fun start => (namesIn pairs start).length).sum = pairs.length := by
  have hone (start : Int) : (namesIn pairs start).length = (pairs.map Prod.fst).count start := by
    rw [namesIn, List.length_map, List.count_eq_length_filter, List.filter_map, List.length_map]
    rfl
  simp only [hone]
  rw [sum_count_eq_length hdistinct, List.length_map]
  intro start hstart
  obtain ⟨x, hx, rfl⟩ := List.mem_map.mp hstart
  exact hall x hx

/-- So are different pairs. -/
theorem sum_card_namesIn (hdistinct : starts.Nodup) (hall : ∀ x ∈ pairs, x.1 ∈ starts) :
    (starts.map fun start => (namesIn pairs start).toFinset.card).sum = pairs.toFinset.card := by
  have hone (start : Int) : (namesIn pairs start).toFinset.card =
      (pairs.toFinset.filter fun x => x.1 = start).card := by
    have himage : (namesIn pairs start).toFinset =
        (pairs.toFinset.filter fun x => x.1 = start).image Prod.snd := by
      ext name
      simp [namesIn]
    rw [himage]
    refine Finset.card_image_of_injOn fun x hx y hy heq => ?_
    exact Prod.ext ((Finset.mem_filter.mp hx).2.trans (Finset.mem_filter.mp hy).2.symm) heq
  have hmaps : ∀ x ∈ pairs.toFinset, x.1 ∈ starts.toFinset := fun x hx =>
    List.mem_toFinset.mpr (hall x (List.mem_toFinset.mp hx))
  rw [Finset.card_eq_sum_card_fiberwise hmaps, ← List.sum_toFinset _ hdistinct]
  exact Finset.sum_congr rfl fun start _ => hone start

namespace History

variable {length : Int} {h : History} {r : PutRecord} {cutoff : Int}

/-- The records that were taken. -/
def taken (h : History) : List PutRecord :=
  h.filterMap fun
    | .taken r => some r
    | .removed _ => none

/-- Whether no removal reaches the end of the window of a time. -/
def spares (length : Int) (h : History) (t : Int) : Bool :=
  h.all fun
    | .taken _ => true
    | .removed cutoff => cutoff < Time.floor length t + length

/-- The records that were taken and whose windows have not been removed since. -/
def left (length : Int) : History → List PutRecord
  | [] => []
  | .taken r :: after =>
    if spares length after r.point.time then r :: left length after else left length after
  | .removed _ :: after => left length after

theorem left_snoc_taken : left length (h ++ [.taken r]) = left length h ++ [r] := by
  induction h with
  | nil => rfl
  | cons e h ih =>
    cases e with
    | taken s =>
      have hspares :
          spares length (h ++ [.taken r]) s.point.time = spares length h s.point.time := by
        simp [spares]
      rw [List.cons_append, left, left, hspares, ih]
      split <;> rfl
    | removed cutoff => exact ih

theorem left_snoc_removed : left length (h ++ [.removed cutoff]) =
    (left length h).filter fun r => cutoff < Time.floor length r.point.time + length := by
  induction h with
  | nil => rfl
  | cons e h ih =>
    cases e with
    | taken s =>
      have hspares : spares length (h ++ [.removed cutoff]) s.point.time =
          (spares length h s.point.time &&
            decide (cutoff < Time.floor length s.point.time + length)) := by
        simp [spares]
      rw [List.cons_append, left, left, hspares, ih]
      by_cases hs : spares length h s.point.time = true
      · by_cases hlt : cutoff < Time.floor length s.point.time + length <;> simp [hs, hlt]
      · simp [hs]
    | removed other => exact ih

/-- The windows of the records that are left, with the full names of their metrics. -/
def places (length : Int) (h : History) : List (Int × String) :=
  (left length h).map fun r => (Time.floor length r.point.time, r.metric.fullName)

end History

/-! ## Adding up -/

/-- A chunk that is not evicted counts as one, with what it holds. -/
theorem ManagerStats.add_spec (n : ManagerStats) {c : Chunk GrowingStore}
    (hc : c.state ≠ .evicted) :
    (n.add c).growing + (n.add c).frozen = n.growing + n.frozen + 1 ∧
      (n.add c).metrics = n.metrics ∧
      (n.add c).total.points = n.total.points + c.stats.points ∧
      (n.add c).total.series = n.total.series + c.stats.series := by
  unfold ManagerStats.add
  split
  · exact ⟨Nat.add_right_comm .., rfl, rfl, rfl⟩
  · exact ⟨rfl, rfl, rfl, rfl⟩
  · rename_i hevicted
    exact absurd hevicted hc

theorem ManagerStats.foldl_add (list : List (Chunk GrowingStore)) (n : ManagerStats)
    (hlist : ∀ c ∈ list, c.state ≠ .evicted) :
    (list.foldl ManagerStats.add n).growing + (list.foldl ManagerStats.add n).frozen =
        n.growing + n.frozen + list.length ∧
      (list.foldl ManagerStats.add n).metrics = n.metrics ∧
      (list.foldl ManagerStats.add n).total.points =
        n.total.points + (list.map (·.stats.points)).sum ∧
      (list.foldl ManagerStats.add n).total.series =
        n.total.series + (list.map (·.stats.series)).sum := by
  induction list generalizing n with
  | nil => exact ⟨rfl, rfl, rfl, rfl⟩
  | cons c list ih =>
    obtain ⟨hc, hrest⟩ := List.forall_mem_cons.mp hlist
    obtain ⟨hcount, hmetrics, hpoints, hseries⟩ := n.add_spec hc
    obtain ⟨hcount', hmetrics', hpoints', hseries'⟩ := ih (n.add c) hrest
    rw [hcount] at hcount'
    rw [hmetrics] at hmetrics'
    rw [hpoints] at hpoints'
    rw [hseries] at hseries'
    simp only [List.foldl_cons, List.length_cons, List.map_cons, List.sum_cons]
    exact ⟨by omega, hmetrics', by omega, by omega⟩

namespace Manager

variable {settings : ManagerSettings} {ms more : List Metric} {m : Manager} {h : History}
  {c : LiveChunk} {length start cutoff : Int} {d : Disk} {tags : TagIndex} {next : Nat}

/-- A manager whose history is known counts the records of the history. -/
structure Tallies (m : Manager) (length : Int) (h : History) : Prop where
  /-- Each chunk counts the records of its window that are left. -/
  chunks : ∀ start (c : LiveChunk), m.chunks[start]? = some c →
    c.chunk.Counts m.tags (namesIn (h.places length) start)
  inRange : ∀ r ∈ h.left length, PointTime r.point.time
  /-- Each record that is left has a chunk. -/
  covered : ∀ x ∈ h.places length, ∃ c, m.chunks[x.1]? = some c
  names : ∀ name, name ∈ m.tags.names.toList ↔ name ∈ h.taken.map (·.metric.fullName)

theorem Tallies.mem_starts (ht : m.Tallies length h) :
    ∀ x ∈ h.places length, x.1 ∈ m.chunks.toList.map Prod.fst := by
  intro x hx
  obtain ⟨c, hc⟩ := ht.covered x hx
  exact List.mem_map.mpr ⟨(x.1, c), mem_toList.mpr hc, rfl⟩

/-- What is added up from the chunks. -/
theorem Tallies.sums (ht : m.Tallies length h) (htags : TagIndex.Indexes m.tags ms) :
    (m.chunkList.map (·.stats.points)).sum = (h.places length).length ∧
      (m.chunkList.map (·.stats.series)).sum = (h.places length).toFinset.card := by
  have hstats : ∀ x ∈ m.chunks.toList,
      x.2.chunk.stats.points = (namesIn (h.places length) x.1).length ∧
        x.2.chunk.stats.series = (namesIn (h.places length) x.1).toFinset.card := fun x hx =>
    (ht.chunks x.1 x.2 (mem_toList.mp hx)).stats htags
  have hpoints : m.chunkList.map (·.stats.points) = (m.chunks.toList.map Prod.fst).map
      fun start => (namesIn (h.places length) start).length := by
    rw [chunkList, List.map_map, List.map_map]
    exact List.map_congr_left fun x hx => (hstats x hx).1
  have hseries : m.chunkList.map (·.stats.series) = (m.chunks.toList.map Prod.fst).map
      fun start => (namesIn (h.places length) start).toFinset.card := by
    rw [chunkList, List.map_map, List.map_map]
    exact List.map_congr_left fun x hx => (hstats x hx).2
  have hkeys := TreeMap.nodup_keys m.chunks
  rw [hpoints, hseries]
  exact ⟨sum_length_namesIn hkeys ht.mem_starts, sum_card_namesIn hkeys ht.mem_starts⟩

/-- **The size of a manager.** -/
theorem Tallies.stats_eq (ht : m.Tallies length h) (htags : TagIndex.Indexes m.tags ms) :
    m.stats.growing + m.stats.frozen = m.chunks.size ∧
      m.stats.total.points = (h.left length).length ∧
      m.stats.total.series = (h.places length).toFinset.card ∧
      m.stats.metrics = (h.taken.map (·.metric.fullName)).toFinset.card := by
  have hpresent : ∀ chunk ∈ m.chunkList, chunk.state ≠ .evicted := by
    intro chunk hchunk
    obtain ⟨x, hx, rfl⟩ := List.mem_map.mp hchunk
    exact (ht.chunks x.1 x.2 (mem_toList.mp hx)).state_ne
  obtain ⟨hcount, hmetrics, hpoints, hseries⟩ :=
    ManagerStats.foldl_add m.chunkList { metrics := m.tags.names.size } hpresent
  obtain ⟨hallPoints, hallSeries⟩ := ht.sums htags
  refine ⟨?_, ?_, ?_, ?_⟩
  · rw [stats, hcount, chunkList, List.length_map, Std.TreeMap.length_toList]
    exact Nat.zero_add _
  · rw [stats, hpoints, hallPoints, History.places, List.length_map]
    exact Nat.zero_add _
  · rw [stats, hseries, hallSeries]
    exact Nat.zero_add _
  · have hdistinct : m.tags.names.toList.Nodup := htags.names ▸ htags.distinct
    rw [stats, hmetrics]
    dsimp only
    rw [← Array.length_toList, ← List.toFinset_card_of_nodup hdistinct]
    congr 1
    ext name
    rw [List.mem_toFinset, List.mem_toFinset, ht.names]

/-! ## Adding a point -/

/-- A chunk is put in the place of the one at its start. -/
theorem Tallies.put (ht : m.Tallies length h)
    (hc : c.chunk.Counts m.tags (namesIn (h.places length) start)) :
    Tallies ⟨m.settings, m.tags, d, m.chunks.insert start c, next⟩ length h where
  chunks := by
    intro other c' hc'
    rw [TreeMap.getElem?_insert] at hc'
    split at hc'
    · rename_i heq
      obtain rfl := Option.some_inj.mp hc'
      rwa [heq]
    · exact ht.chunks other c' hc'
  inRange := ht.inRange
  covered := by
    intro x hx
    rw [TreeMap.getElem?_insert]
    split
    · exact ⟨c, rfl⟩
    · exact ht.covered x hx
  names := ht.names

theorem Tallies.chunkAt (ht : m.Tallies length h) (t : Int) :
    (m.chunkAt t).2.1.Tallies length h := by
  unfold Manager.chunkAt
  split
  · exact ht
  · rename_i hnone
    refine ht.put ?_
    -- a window without a chunk has no records
    have hnil : namesIn (h.places length) (m.chunkInfo (m.windowStart t)).start = [] := by
      rw [namesIn, List.map_eq_nil_iff, List.filter_eq_nil_iff]
      intro x hx hstart
      obtain ⟨c, hc⟩ := ht.covered x hx
      rw [of_decide_eq_true hstart] at hc
      exact absurd (hnone.symm.trans hc) (by simp)
    rw [hnil]
    exact Chunk.counts_new _ _

theorem namesIn_places_snoc (r : PutRecord) (start : Int) :
    namesIn ((h ++ [.taken r] : History).places length) start =
      namesIn (h.places length) start ++
        if Time.floor length r.point.time = start then [r.metric.fullName] else [] := by
  rw [namesIn, History.places, History.left_snoc_taken, List.map_append, List.filter_append,
    List.map_append, List.map_singleton, List.filter_singleton]
  by_cases hstart : Time.floor length r.point.time = start
  · simp [hstart, namesIn, History.places]
  · simp [hstart, namesIn, History.places]

/-- A record that is taken is counted by the chunk of its window. -/
theorem Tallies.take {chunk : Chunk GrowingStore} {r : PutRecord} (ht : m.Tallies length h)
    (htags : TagIndex.Indexes m.tags ms) (htags' : TagIndex.Indexes tags (ms ++ more))
    (hnames : ∀ name, name ∈ (ms ++ more).map Metric.fullName ↔
      name ∈ ms.map Metric.fullName ∨ name = r.metric.fullName)
    (hr : PointTime r.point.time) (hstart : Time.floor length r.point.time = start)
    (hc : chunk.Counts tags (namesIn (h.places length) start ++ [r.metric.fullName])) :
    Tallies ⟨m.settings, tags, d, m.chunks.insert start { c with chunk }, next⟩ length
      (h ++ [.taken r]) where
  chunks := by
    intro other c' hc'
    rw [namesIn_places_snoc, hstart]
    rw [TreeMap.getElem?_insert] at hc'
    split at hc'
    · rename_i heq
      obtain rfl := Option.some_inj.mp hc'
      rw [heq, if_pos rfl]
      exact hc
    · rename_i hne
      rw [if_neg (Ne.symm hne), List.append_nil]
      exact (ht.chunks other c' hc').extend (htags'.extends htags)
  inRange := by
    intro s hs
    rw [History.left_snoc_taken] at hs
    rcases List.mem_append.mp hs with hs | hs
    · exact ht.inRange s hs
    · rwa [List.mem_singleton.mp hs]
  covered := by
    intro x hx
    rw [TreeMap.getElem?_insert]
    split
    · exact ⟨_, rfl⟩
    · rename_i hne
      rw [History.places, History.left_snoc_taken, List.map_append, List.map_singleton,
        hstart] at hx
      rcases List.mem_append.mp hx with hx | hx
      · exact ht.covered x hx
      · exact absurd (congrArg Prod.fst (List.mem_singleton.mp hx)) hne
  names := by
    intro name
    rw [htags'.names, hnames, ← htags.names, ht.names, History.taken, History.taken,
      List.filterMap_append, List.map_append, List.mem_append]
    simp

/-- A line is counted if it is taken, and else nothing changes. -/
theorem Tallies.addLine (hs : m.Sound settings ms)
    (ht : m.Tallies settings.windowSeconds h) (line : String) :
    (m.addLine line).state.Tallies settings.windowSeconds (h ++ m.noted line) := by
  rw [noted, Manager.addLine]
  cases hparse : PutRecord.parse line with
  | error e => simpa using ht
  | ok r =>
    dsimp only
    by_cases hr : PointTime r.point.time
    · have hrecord := addRecord_inRange (m := m) hr
      obtain ⟨hcreated, hc⟩ := hs.chunkAt r.point.time
      have ht' := ht.chunkAt r.point.time
      have hstart :
          Time.floor settings.windowSeconds r.point.time = m.windowStart r.point.time := by
        rw [windowStart, hs.settings_eq]
      rw [addHeld_eq hc (hcreated.chunks _ _ hc).start] at hrecord
      obtain ⟨hresult, hstate⟩ := Prod.mk.inj hrecord
      rw [hresult, hstate]
      have hm := PutRecord.wellFormed_of_parse hparse
      rcases (ht'.chunks _ _ hc).addPoint hcreated.tags hm hr with
        ⟨e, he⟩ | ⟨chunk, tags, more, hadd, htags, hnames, hcounts⟩
      · rw [he]
        dsimp only
        rw [TreeMap.insert_of_getElem? hc, List.append_nil]
        exact ht'
      · rw [hadd]
        exact ht'.take hcreated.tags htags hnames hr hstart hcounts
    · rw [addRecord_outOfRange hr]
      simpa using ht

/-! ## Freezing and removing -/

/-- Removing windows removes the records that are theirs. -/
theorem Tallies.removeUntil {fresh : Manager} (hnew : Manager.new settings d = .ok fresh)
    (hn : m.Named fresh.chunkInfo)
    (ht : m.Tallies settings.windowSeconds h) (cutoff : Int) :
    (m.removeUntil cutoff).2.1.Tallies settings.windowSeconds (h ++ [.removed cutoff]) := by
  have htags : (m.removeUntil cutoff).2.1.tags = m.tags := tags_removeAll _
  have hstop {r : PutRecord} {c : LiveChunk} (hr : r ∈ h.left settings.windowSeconds)
      (hc : m.chunks[Time.floor settings.windowSeconds r.point.time]? = some c) :
      c.chunk.info.stop =
        Time.floor settings.windowSeconds r.point.time + settings.windowSeconds := by
    rw [hn _ c hc, chunkInfo, (sound_new hnew).settings_eq]
  refine ⟨fun start c hc => ?_, fun r hr => ?_, fun x hx => ?_, fun name => ?_⟩
  · obtain ⟨hold, hlt⟩ := chunks_removeUntil.mp hc
    rw [htags]
    have hsame : namesIn (History.places settings.windowSeconds (h ++ [.removed cutoff])) start =
        namesIn (h.places settings.windowSeconds) start := by
      rw [History.places, History.left_snoc_removed, History.places, namesIn, namesIn,
        List.filter_map, List.filter_map, List.filter_filter]
      refine congrArg _ (congrArg _ (List.filter_congr fun r hr => ?_))
      by_cases hstart : Time.floor settings.windowSeconds r.point.time = start
      · rw [hstop hr (hstart.symm ▸ hold)] at hlt
        simp [hlt]
      · simp [hstart]
    rw [hsame]
    exact ht.chunks start c hold
  · rw [History.left_snoc_removed] at hr
    exact ht.inRange r (List.mem_of_mem_filter hr)
  · rw [History.places, History.left_snoc_removed] at hx
    obtain ⟨r, hr, rfl⟩ := List.mem_map.mp hx
    obtain ⟨hr, hlt⟩ := List.mem_filter.mp hr
    obtain ⟨c, hc⟩ := ht.covered _ (List.mem_map_of_mem hr)
    exact ⟨c, chunks_removeUntil.mpr ⟨hc, (hstop hr hc).symm ▸ of_decide_eq_true hlt⟩⟩
  · rw [htags, ht.names, History.taken, History.taken, List.filterMap_append]
    simp

variable [BlockCodec]

theorem Tallies.freezeChunk (ht : m.Tallies length h) (hc : m.chunks[start]? = some c) :
    (m.freezeChunk start c).2.1.Tallies length h := by
  rw [freezeChunk_eq]
  exact ht.put ((ht.chunks start c hc).freeze m.disk m.settings.form)

/-- Freezing changes no number. -/
theorem Tallies.freezeUntil (ht : m.Tallies length h) (cutoff : Int) :
    (m.freezeUntil cutoff).2.1.Tallies length h :=
  freezeUntil_induction (P := fun m _ => m.Tallies length h)
    (fun _ _ _ _ ht hc _ _ => ht.freezeChunk hc) ht

/-! ## Runs -/

omit [BlockCodec] in
theorem tallies_new (hnew : Manager.new settings d = .ok m) : m.Tallies length [] := by
  obtain ⟨made, rfl⟩ := exists_of_new hnew
  refine ⟨fun start c hc => absurd hc (by simp), ?_, ?_, ?_⟩
  · exact fun r hr => absurd hr List.not_mem_nil
  · exact fun x hx => absurd hx List.not_mem_nil
  · exact fun name => Iff.rfl

theorem Tallies.call {fresh : Manager} (hnew : Manager.new settings d = .ok fresh)
    (hs : m.Sound settings ms) (hn : m.Named fresh.chunkInfo)
    (ht : m.Tallies settings.windowSeconds h) (call : ManagerCall) :
    (m.call call).1.Tallies settings.windowSeconds (h ++ (m.call call).2) := by
  cases call with
  | add line => exact ht.addLine hs line
  | freezeUntil cutoff =>
    have hfrozen := ht.freezeUntil cutoff
    rwa [← List.append_nil h] at hfrozen
  | removeUntil cutoff => exact ht.removeUntil hnew hn cutoff

theorem Tallies.callEach {fresh : Manager} (hnew : Manager.new settings d = .ok fresh)
    (hr : Run fresh m) (ht : m.Tallies settings.windowSeconds h)
    (calls : List ManagerCall) :
    (m.callEach calls).1.Tallies settings.windowSeconds (h ++ (m.callEach calls).2) := by
  induction calls generalizing m h with
  | nil => simpa [Manager.callEach] using ht
  | cons call calls ih =>
    obtain ⟨ms, hs⟩ := sound_of_run hnew hr
    have hcall := ht.call hnew hs (named_of_run hnew hr) call
    have hrest := ih (hr.tail (step_call m call)) hcall
    rwa [List.append_assoc] at hrest

/-- **The size of a manager is that of its history.** After any calls of a new manager, whether
they succeed or not, the chunks that grow and the chunks that are frozen are all its chunks, and as
many as came and have not gone, according to the signals. There are as many points as records were
taken whose windows have not been removed since, and as many series as there are different windows
and metrics of these records. There are as many metrics as were ever taken. And freezing chunks
changes neither the points nor the series. -/
theorem tally_callEach {disk : Disk} {fresh : Manager}
    (hnew : Manager.new settings disk = .ok fresh) (calls : List ManagerCall) :
    let m := (fresh.callEach calls).1
    let history := (fresh.callEach calls).2
    let left := history.left settings.windowSeconds
    m.stats.growing + m.stats.frozen = m.chunks.size ∧
    m.chunks.size + Signal.deleted (fresh.signalsEach calls) =
      Signal.created (fresh.signalsEach calls) ∧
    m.stats.total.points = left.length ∧
    m.stats.total.series = (left.map fun r =>
      (Time.floor settings.windowSeconds r.point.time, r.metric.fullName)).toFinset.card ∧
    m.stats.metrics = (history.taken.map (·.metric.fullName)).toFinset.card ∧
    ∀ cutoff, (m.freezeUntil cutoff).2.1.stats.total.points = m.stats.total.points ∧
      (m.freezeUntil cutoff).2.1.stats.total.series = m.stats.total.series := by
  intro m history left
  have hrun : Run fresh m := run_callEach fresh calls
  obtain ⟨ms, hs⟩ := sound_of_run hnew hrun
  have ht : m.Tallies settings.windowSeconds history :=
    (tallies_new hnew).callEach hnew .refl calls
  obtain ⟨hchunks, hpoints, hseries, hmetrics⟩ := ht.stats_eq hs.tags
  have hbalanced := (sound_new hnew).balanced_callEach calls
  obtain ⟨made, hfresh⟩ := exists_of_new hnew
  have hnone : fresh.chunks.size = 0 := by
    rw [hfresh]
    rfl
  rw [Signal.Balanced, hnone, Nat.zero_add] at hbalanced
  refine ⟨hchunks, hbalanced, hpoints, hseries, hmetrics, fun cutoff => ?_⟩
  obtain ⟨-, hpoints', hseries', -⟩ :=
    (ht.freezeUntil cutoff).stats_eq (hs.freezeUntil cutoff).tags
  exact ⟨hpoints'.trans hpoints.symm, hseries'.trans hseries.symm⟩

end Manager

/-- A point comes too late for a window that is removed and begun again, beside another window. -/
theorem Manager.tally_callEach_sample :
    let fresh : Manager := ⟨{}, TagIndex.empty, Disk.empty, ∅, 0⟩
    let calls : List ManagerCall := [.add "put cpu 60 1", .add "put cpu 61 2",
      .add "put mem 7300 3", .freezeUntil 7200, .add "put cpu 62 4", .removeUntil 7200,
      .add "put cpu 63 5"]
    (fresh.callEach calls).1.chunks.size = 2 ∧ Signal.deleted (fresh.signalsEach calls) = 1 ∧
      Signal.created (fresh.signalsEach calls) = 3 ∧
      (fresh.callEach calls).1.stats.total.points = 2 ∧
      (fresh.callEach calls).1.stats.total.series = 2 ∧
      (fresh.callEach calls).1.stats.metrics = 2 := by
  intro fresh calls
  have hnew : Manager.new {} Disk.empty = .ok fresh := rfl
  obtain ⟨-, hbalanced, hpoints, hseries, hmetrics, -⟩ := tally_callEach hnew calls
  have hdeleted : Signal.deleted (fresh.signalsEach calls) = 1 := by decide +kernel
  have hcreated : Signal.created (fresh.signalsEach calls) = 3 := by decide +kernel
  have hleft : ((fresh.callEach calls).2.left 7200).length = 2 := by decide +kernel
  have hplaces : (((fresh.callEach calls).2.left 7200).map fun r =>
      (Time.floor 7200 r.point.time, r.metric.fullName)).toFinset.card = 2 := by decide +kernel
  have hnames : ((fresh.callEach calls).2.taken.map (·.metric.fullName)).toFinset.card = 2 := by
    decide +kernel
  rw [hdeleted, hcreated] at hbalanced
  exact ⟨Nat.succ.inj hbalanced, hdeleted, hcreated, hpoints.trans hleft, hseries.trans hplaces,
    hmetrics.trans hnames⟩

end TimeSeries
