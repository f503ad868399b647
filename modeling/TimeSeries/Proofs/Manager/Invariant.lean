import Mathlib
import TimeSeries.Proofs.Manager.History
import TimeSeries.Proofs.Manager.WindowChunk
import TimeSeries.Proofs.Manager.WindowPoints
import TimeSeries.Proofs.TreeMap

/-!
# What a manager holds

`Holds m settings points ms` ties a manager to the metrics `ms` of its tag index and to the points
that there are for each full name: every point has a chunk for its window, and every chunk keeps,
under the id of each metric, just the points of the metric that are in its window, in their order.
Each call makes of `points` what `History.keep` makes of them. That nothing else happens to the
chunks that a call does not touch rests on three things: metrics keep their ids, windows do not
overlap, and the files of different windows are in different places.
-/

namespace TimeSeries

variable [BlockCodec] {settings : ManagerSettings} {points points' : String → List Point}
  {ms ms' : List Metric} {start : Int} {m : Manager} {c : LiveChunk} {d : Disk}
  {tags : TagIndex} {next : Nat}

/-- A manager with the metrics of its index and the points of each metric. -/
structure Manager.Holds (m : Manager) (settings : ManagerSettings) (points : String → List Point)
    (ms : List Metric) : Prop where
  settings_eq : m.settings = settings
  tags : TagIndex.Indexes m.tags ms
  disk : m.disk.WellFormed
  /-- There are points of metrics in the index only. -/
  known : ∀ name, points name ≠ [] → name ∈ ms.map Metric.fullName
  inRange : ∀ name, ∀ p ∈ points name, PointTime p.time
  /-- The chunk of a window keeps the points of the window. -/
  keeps : ∀ start (c : LiveChunk), m.chunks[start]? = some c → c.chunk.Keeps settings start m.disk
    (heldIn settings.windowSeconds points ms start)
  /-- There is a chunk for the window of every point. -/
  covered : ∀ name, ∀ p ∈ points name,
    ∃ c, m.chunks[Time.floor settings.windowSeconds p.time]? = some c

namespace Manager

omit [BlockCodec] in
theorem mem_toList {x : Int × LiveChunk} : x ∈ m.chunks.toList ↔ m.chunks[x.1]? = some x.2 :=
  Std.TreeMap.mem_toList_iff_getElem?_eq_some

/-- **Only the chunk of one window changes.** Its file may change with it, metrics may come, and
points may come into its window. -/
theorem Holds.set (h : m.Holds settings points ms) (htags : TagIndex.Indexes tags ms')
    (hdisk : Disk.Apart (settings.place? start) m.disk d)
    (hknown : ∀ name, points' name ≠ [] → name ∈ ms'.map Metric.fullName)
    (hrange : ∀ name, ∀ p ∈ points' name, PointTime p.time)
    (hothers : ∀ other, other ≠ start → heldIn settings.windowSeconds points' ms' other =
      heldIn settings.windowSeconds points ms other)
    (hcovered : ∀ name, ∀ p ∈ points' name,
      Time.floor settings.windowSeconds p.time = start ∨ p ∈ points name)
    (hc : c.chunk.Keeps settings start d (heldIn settings.windowSeconds points' ms' start)) :
    Holds ⟨m.settings, tags, d, m.chunks.insert start c, next⟩ settings points' ms' where
  settings_eq := h.settings_eq
  tags := htags
  disk := hdisk.wellFormed
  known := hknown
  inRange := hrange
  keeps := by
    intro other c' hc'
    rw [TreeMap.getElem?_insert] at hc'
    split at hc'
    · rename_i heq
      obtain rfl := Option.some_inj.mp hc'
      rw [heq]
      exact hc
    · rename_i hne
      rw [hothers other hne]
      exact (h.keeps other c' hc').apart hdisk hne
  covered := by
    intro name p hp
    dsimp only
    rw [TreeMap.getElem?_insert]
    split
    · exact ⟨c, rfl⟩
    · rename_i hne
      exact h.covered name p ((hcovered name p hp).resolve_left hne)

/-! ## Adding a point -/

theorem Holds.windowStart_eq (h : m.Holds settings points ms) (t : Int) :
    m.windowStart t = Time.floor settings.windowSeconds t := by
  rw [windowStart, h.settings_eq]

/-- The chunk of the time of a point is there, and it is created if need be. -/
theorem Holds.chunkAt (hs : settings.Fits) (h : m.Holds settings points ms) {t : Int}
    (ht : PointTime t) :
    m.chunkAt? t = some (m.chunkAt t) ∧ (m.chunkAt t).2.1.Holds settings points ms ∧
      (m.chunkAt t).2.1.chunks[Time.floor settings.windowSeconds t]? = some (m.chunkAt t).1 := by
  have hfound : m.chunkAt? t = some (m.chunkAt t) :=
    chunkAt?_of_pointTime (by rwa [h.settings_eq]) ht
  have hinfo : m.chunkInfo (Time.floor settings.windowSeconds t) =
      settings.info (Time.floor settings.windowSeconds t) := by
    rw [chunkInfo_eq, h.settings_eq]
  refine ⟨hfound, ?_⟩
  rw [Manager.chunkAt, existing?, h.windowStart_eq]
  cases hc : m.chunks[Time.floor settings.windowSeconds t]? with
  | some c => exact ⟨h, hc⟩
  | none =>
    -- a window without a chunk has no points
    have hnil : heldIn settings.windowSeconds points ms (Time.floor settings.windowSeconds t) =
        fun _ => [] := by
      funext id
      by_contra hne
      obtain ⟨n, hn⟩ := metricAt_of_heldIn hne
      obtain ⟨p, hp⟩ := List.exists_mem_of_ne_nil _ hne
      rw [heldIn_of_metricAt hn, List.mem_filter, decide_eq_true_eq] at hp
      obtain ⟨c, hcover⟩ := h.covered _ p hp.1
      rw [hp.2, hc] at hcover
      exact absurd hcover (by simp)
    have hkeeps : (Chunk.new (settings.info (Time.floor settings.windowSeconds t))).Keeps settings
        (Time.floor settings.windowSeconds t) m.disk
        (heldIn settings.windowSeconds points ms (Time.floor settings.windowSeconds t)) := by
      rw [hnil]
      exact Chunk.keeps_new
    rw [hinfo]
    exact ⟨h.set h.tags (.refl h.disk) h.known h.inRange (fun _ _ => rfl) (fun _ _ => .inr) hkeeps,
      (chunks_create m _ _).trans (if_pos rfl)⟩

omit [BlockCodec] in
/-- The chunk of a handle that was just taken is the chunk of its window. -/
theorem addHeld_eq (hc : m.chunks[start]? = some c) (hi : c.chunk.info.start = start)
    (metric : Metric) (p : Point) :
    m.addHeld c.handle metric p =
      ((c.chunk.addPoint m.tags metric p).1,
        { m with
          chunks := m.chunks.insert start { c with chunk := (c.chunk.addPoint m.tags metric p).2.1 }
          tags := (c.chunk.addPoint m.tags metric p).2.2 }) := by
  have hchunk : m.chunks[c.handle.info.start]? = some c := by
    rw [LiveChunk.handle, hi]
    exact hc
  have hheld : m.held c.handle = c.chunk := by
    rw [held, hchunk]
    exact if_pos rfl
  have hset (chunk : Chunk GrowingStore) : m.setHeld c.handle chunk =
      { m with chunks := m.chunks.insert start { c with chunk } } := by
    rw [setHeld, hchunk]
    simp [LiveChunk.handle, hi]
  rw [addHeld, hheld]
  simp only [hset]

/-- What is there after a point was taken or refused. -/
def pointsAfter (points : String → List Point) (metric : Metric) (p : Point) :
    Except Error Unit → String → List Point
  | .ok () => Function.update points metric.fullName (points metric.fullName ++ [p])
  | .error _ => points

omit [BlockCodec] in
theorem mem_pointsAfter {metric : Metric} {p q : Point} {result : Except Error Unit} {name : String}
    (h : q ∈ pointsAfter points metric p result name) : q ∈ points name ∨ q = p := by
  cases result with
  | error e => exact .inl h
  | ok u =>
    rw [pointsAfter] at h
    by_cases hn : name = metric.fullName
    · rw [hn, Function.update_self] at h
      rw [hn]
      exact (List.mem_append.mp h).imp_right List.mem_singleton.mp
    · rw [Function.update_of_ne hn] at h
      exact .inl h

theorem Holds.addHeld (h : m.Holds settings points ms) {p : Point} (hp : PointTime p.time)
    (hc : m.chunks[Time.floor settings.windowSeconds p.time]? = some c)
    {metric : Metric} (hm : metric.WellFormed) :
    ∃ ms', (m.addHeld c.handle metric p).2.Holds settings
      (pointsAfter points metric p (m.addHeld c.handle metric p).1) ms' := by
  have hkeeps := h.keeps _ c hc
  obtain ⟨result, chunk, tags, more, hadd, htags, hcases⟩ := hkeeps.addPoint h.tags hm p
  have hknown : ∀ name, points name ≠ [] → name ∈ (ms ++ more).map Metric.fullName := by
    intro name hne
    rw [List.map_append]
    exact List.mem_append_left _ (h.known name hne)
  -- the metric may be new, but as far as it is it brings no points
  have hheld (start : Int) : heldIn settings.windowSeconds points (ms ++ more) start =
      heldIn settings.windowSeconds points ms start := heldIn_append h.known htags.distinct start
  rw [addHeld_eq hc (by rw [hkeeps.info]; rfl), hadd]
  dsimp only
  refine ⟨ms ++ more, h.set htags (.refl h.disk) ?_ ?_ ?_ ?_ ?_⟩
  · intro name hne
    rcases hcases with ⟨e, rfl, -⟩ | ⟨id, n, rfl, hid, hname, -⟩
    · exact hknown name hne
    · by_cases hn : name = metric.fullName
      · rw [hn, ← hname]
        exact List.mem_map_of_mem (TagIndex.mem_of_metricAt hid)
      · rw [pointsAfter, Function.update_of_ne hn] at hne
        exact hknown name hne
  · intro name q hq
    rcases mem_pointsAfter hq with hq | rfl
    · exact h.inRange name q hq
    · exact hp
  · intro other hne
    rcases hcases with ⟨e, rfl, -⟩ | ⟨id, n, rfl, hid, hname, -⟩
    · exact hheld other
    · rw [pointsAfter, ← hname, heldIn_update htags hid, if_neg (Ne.symm hne), hheld]
  · intro name q hq
    exact (mem_pointsAfter hq).symm.imp_left fun heq => by rw [heq]
  · rcases hcases with ⟨e, rfl, hkeeps'⟩ | ⟨id, n, rfl, hid, hname, hkeeps'⟩
    · rw [pointsAfter, hheld]
      exact hkeeps'
    · rw [pointsAfter, ← hname, heldIn_update htags hid, if_pos rfl, hheld]
      exact hkeeps'

omit [BlockCodec] in
/-- What becomes of a record whose time is in range. -/
theorem addRecord_inRange {r : PutRecord} (hr : PointTime r.point.time) :
    ((m.addRecord r).result, (m.addRecord r).state) =
      (m.chunkAt r.point.time).2.1.addHeld (m.chunkAt r.point.time).1.handle r.metric r.point := by
  obtain ⟨h0, hmax⟩ := hr
  rw [addRecord, if_pos ⟨h0, hmax⟩]

omit [BlockCodec] in
theorem addRecord_outOfRange {r : PutRecord} (hr : ¬ PointTime r.point.time) :
    m.addRecord r = ⟨.error (.invalid (.timeOutsideStore r.point.time)), m, []⟩ := if_neg hr

theorem Holds.addLine (hs : settings.Fits) (h : m.Holds settings points ms) (line : String) :
    ∃ ms', (m.addLine line).state.Holds settings
      ((m.noted line).foldl (History.keep settings.windowSeconds) points) ms' := by
  rw [noted, Manager.addLine]
  cases hparse : PutRecord.parse line with
  | error e => exact ⟨ms, h⟩
  | ok r =>
    by_cases hr : PointTime r.point.time
    · have hrecord := addRecord_inRange (m := m) hr
      obtain ⟨-, hcreated, hc⟩ := h.chunkAt hs hr
      obtain ⟨ms', h'⟩ := hcreated.addHeld hr hc (PutRecord.wellFormed_of_parse hparse)
      refine ⟨ms', ?_⟩
      rw [← hrecord] at h'
      dsimp only
      cases hok : (m.addRecord r).result with
      | ok u =>
        rw [hok] at h'
        exact h'
      | error e =>
        rw [hok] at h'
        exact h'
    · dsimp only
      rw [addRecord_outOfRange hr]
      exact ⟨ms, h⟩

/-! ## Passing over the chunks -/

/-- What freezing a chunk makes of a manager, whether the chunk was frozen or not. -/
theorem freezeChunk_eq : (m.freezeChunk start c).2.1 = { m with
    chunks := m.chunks.insert start
      { c with chunk := (c.chunk.freeze m.disk m.settings.form).state.1 }
    disk := (c.chunk.freeze m.disk m.settings.form).state.2 } := by
  rw [Manager.freezeChunk]
  dsimp only
  split <;> rfl

theorem chunks_freezeChunk {other : Int} (hne : other ≠ start) :
    (m.freezeChunk start c).2.1.chunks[other]? = m.chunks[other]? := by
  rw [freezeChunk_eq]
  dsimp only
  rw [TreeMap.getElem?_insert, if_neg hne]

omit [BlockCodec] in
theorem chunks_removeChunk (other : Int) : (m.removeChunk start c).1.chunks[other]? =
    if other = start then none else m.chunks[other]? := TreeMap.getElem?_erase m.chunks start other

/-- What holds of a manager and of what it has signalled holds after it has frozen chunks, if each
of them keeps it. A chunk is still as it was when its turn comes, since the others come from other
windows. -/
theorem freezeAll_induction {P : Manager → List Signal → Prop} {cutoff : Int}
    (step : ∀ (m : Manager) signals start c, P m signals → m.chunks[start]? = some c →
      c.chunk.info.stop ≤ cutoff → c.chunk.isClosedToPoints = false →
      P (m.freezeChunk start c).2.1 (signals ++ (m.freezeChunk start c).2.2))
    {list : List (Int × LiveChunk)} (hcurrent : ∀ x ∈ list, m.chunks[x.1]? = some x.2)
    (hdistinct : (list.map Prod.fst).Nodup) {signals : List Signal} (h : P m signals) :
    P (freezeAll cutoff list m).2.1 (signals ++ (freezeAll cutoff list m).2.2) := by
  induction list generalizing m signals with
  | nil => rwa [freezeAll, List.append_nil]
  | cons x list ih =>
    obtain ⟨start, c⟩ := x
    obtain ⟨hc, hrest⟩ := List.forall_mem_cons.mp hcurrent
    obtain ⟨hnew, hdistinct⟩ := List.nodup_cons.mp hdistinct
    rw [freezeAll]
    split
    · exact ih hrest hdistinct h
    · rename_i hskip
      simp only [Bool.or_eq_true, decide_eq_true_eq, not_or, Int.not_lt,
        Bool.not_eq_true] at hskip
      have hlater : ∀ x ∈ list, (m.freezeChunk start c).2.1.chunks[x.1]? = some x.2 := by
        intro x hx
        rw [chunks_freezeChunk fun heq => hnew (List.mem_map.mpr ⟨x, hx, heq⟩)]
        exact hrest x hx
      have hall := ih hlater hdistinct (step m signals start c h hc hskip.1 hskip.2)
      rwa [List.append_assoc] at hall

/-- **What every frozen chunk keeps, freezing keeps.** -/
theorem freezeUntil_induction {P : Manager → List Signal → Prop} {cutoff : Int}
    (step : ∀ (m : Manager) signals start c, P m signals → m.chunks[start]? = some c →
      c.chunk.info.stop ≤ cutoff → c.chunk.isClosedToPoints = false →
      P (m.freezeChunk start c).2.1 (signals ++ (m.freezeChunk start c).2.2)) (h : P m []) :
    P (m.freezeUntil cutoff).2.1 (m.freezeUntil cutoff).2.2 :=
  freezeAll_induction step (fun _ hx => mem_toList.mp hx) (TreeMap.nodup_keys m.chunks) h

omit [BlockCodec] in
/-- The same for chunks that are removed. -/
theorem removeAll_induction {P : Manager → List Signal → Prop} {cutoff : Int}
    (step : ∀ (m : Manager) signals start c, P m signals → m.chunks[start]? = some c →
      c.chunk.info.stop ≤ cutoff →
      P (m.removeChunk start c).1 (signals ++ (m.removeChunk start c).2))
    {list : List (Int × LiveChunk)} (hcurrent : ∀ x ∈ list, m.chunks[x.1]? = some x.2)
    (hdistinct : (list.map Prod.fst).Nodup) {signals : List Signal} (h : P m signals) :
    P (removeAll cutoff list m).2.1 (signals ++ (removeAll cutoff list m).2.2) := by
  induction list generalizing m signals with
  | nil => rwa [removeAll, List.append_nil]
  | cons x list ih =>
    obtain ⟨start, c⟩ := x
    obtain ⟨hc, hrest⟩ := List.forall_mem_cons.mp hcurrent
    obtain ⟨hnew, hdistinct⟩ := List.nodup_cons.mp hdistinct
    rw [removeAll]
    split
    · rename_i hle
      have hlater : ∀ x ∈ list, (m.removeChunk start c).1.chunks[x.1]? = some x.2 := by
        intro x hx
        rw [chunks_removeChunk, if_neg fun heq => hnew (List.mem_map.mpr ⟨x, hx, heq⟩)]
        exact hrest x hx
      have hall := ih hlater hdistinct (step m signals start c h hc hle)
      rwa [List.append_assoc] at hall
    · exact ih hrest hdistinct h

omit [BlockCodec] in
/-- **What every chunk that is removed keeps, removing keeps.** -/
theorem removeUntil_induction {P : Manager → List Signal → Prop} {cutoff : Int}
    (step : ∀ (m : Manager) signals start c, P m signals → m.chunks[start]? = some c →
      c.chunk.info.stop ≤ cutoff →
      P (m.removeChunk start c).1 (signals ++ (m.removeChunk start c).2))
    (last : ∀ (m : Manager) signals, P m signals → P m (signals ++ [m.liveSignal])) (h : P m []) :
    P (m.removeUntil cutoff).2.1 (m.removeUntil cutoff).2.2 :=
  last _ _ (removeAll_induction step (fun _ hx => mem_toList.mp hx) (TreeMap.nodup_keys m.chunks) h)

/-! ## Freezing and removing -/

theorem Holds.freezeChunk [LawfulBlockCodec] (h : m.Holds settings points ms)
    (hc : m.chunks[start]? = some c) :
    (m.freezeChunk start c).2.1.Holds settings points ms := by
  obtain ⟨hkeeps, hapart⟩ := (h.keeps start c hc).freeze h.disk
  have hform : m.settings.form = settings.form := by rw [h.settings_eq]
  rw [freezeChunk_eq, hform]
  exact h.set h.tags hapart h.known h.inRange (fun _ _ => rfl) (fun _ _ => .inr) hkeeps

/-- Removing a chunk removes the points of its window. -/
theorem Holds.removeChunk (h : m.Holds settings points ms) (hc : m.chunks[start]? = some c) :
    (m.removeChunk start c).1.Holds settings (fun name => (points name).filter fun p =>
        decide (Time.floor settings.windowSeconds p.time ≠ start)) ms := by
  have hapart := (h.keeps start c hc).close h.disk
  refine ⟨h.settings_eq, h.tags, hapart.wellFormed, ?_, ?_, ?_, ?_⟩
  · intro name hne
    refine h.known name fun hnil => hne ?_
    rw [hnil]
    rfl
  · intro name p hp
    exact h.inRange name p (List.mem_of_mem_filter hp)
  · intro other c' hc'
    rw [chunks_removeChunk] at hc'
    split at hc'
    · exact absurd hc' (by simp)
    · rename_i hne
      rw [heldIn_filter (fun t => decide (Time.floor settings.windowSeconds t ≠ start))]
      · exact (h.keeps other c' hc').apart hapart hne
      · intro t ht
        rw [ht]
        exact decide_eq_true hne
  · intro name p hp
    obtain ⟨hp, hne⟩ := List.mem_filter.mp hp
    rw [chunks_removeChunk, if_neg (of_decide_eq_true hne)]
    exact h.covered name p hp

/-- Removing chunks removes the points of those windows that end by the cutoff. -/
theorem Holds.removeAll {cutoff : Int} {list : List (Int × LiveChunk)}
    (h : m.Holds settings points ms) (hcurrent : ∀ x ∈ list, m.chunks[x.1]? = some x.2)
    (hdistinct : (list.map Prod.fst).Nodup) :
    (removeAll cutoff list m).2.1.Holds settings (fun name => (points name).filter fun p =>
      decide (Time.floor settings.windowSeconds p.time ∈ list.map Prod.fst →
        cutoff < Time.floor settings.windowSeconds p.time + settings.windowSeconds)) ms := by
  induction list generalizing m points with
  | nil => simpa [Manager.removeAll] using h
  | cons x list ih =>
    obtain ⟨start, c⟩ := x
    obtain ⟨hc, hrest⟩ := List.forall_mem_cons.mp hcurrent
    obtain ⟨hnew, hdistinct⟩ := List.nodup_cons.mp hdistinct
    have hstop : c.chunk.info.stop = start + settings.windowSeconds := by
      rw [(h.keeps start c hc).info]
      rfl
    rw [Manager.removeAll, hstop]
    split
    · rename_i hle
      have h'' := ih (h.removeChunk hc) (fun x hx => by
        rw [chunks_removeChunk, if_neg fun heq => hnew (List.mem_map.mpr ⟨x, hx, heq⟩)]
        exact hrest x hx) hdistinct
      -- a point goes with the window of its own chunk or with one of the others
      simp only [List.filter_filter, ← Bool.decide_and] at h''
      convert h'' using 5 with name p
      rw [List.map_cons, List.mem_cons]
      by_cases hp : Time.floor settings.windowSeconds p.time = start
      · simp [hp, Int.not_lt.mpr hle]
      · simp [hp]
    · rename_i hlt
      convert ih h hrest hdistinct using 5 with name p
      rw [List.map_cons, List.mem_cons]
      by_cases hp : Time.floor settings.windowSeconds p.time = start
      · simp [hp, Int.not_le.mp hlt]
      · simp [hp]

/-- Freezing chunks changes none of the points. -/
theorem Holds.freezeUntil [LawfulBlockCodec] (h : m.Holds settings points ms) (cutoff : Int) :
    (m.freezeUntil cutoff).2.1.Holds settings points ms :=
  freezeUntil_induction (P := fun m _ => m.Holds settings points ms)
    (fun _ _ _ _ h hc _ _ => h.freezeChunk hc) h

theorem Holds.removeUntil (h : m.Holds settings points ms) (cutoff : Int) :
    (m.removeUntil cutoff).2.1.Holds settings
      (History.keep settings.windowSeconds points (.removed cutoff)) ms := by
  have hkeep : History.keep settings.windowSeconds points (.removed cutoff) = fun name =>
      (points name).filter fun p =>
        decide (Time.floor settings.windowSeconds p.time ∈ m.chunks.toList.map Prod.fst →
          cutoff < Time.floor settings.windowSeconds p.time + settings.windowSeconds) := by
    funext name
    refine List.filter_congr fun p hp => ?_
    -- every point has a chunk, so that windows without one do not matter
    obtain ⟨c, hc⟩ := h.covered name p hp
    have hmem : Time.floor settings.windowSeconds p.time ∈ m.chunks.toList.map Prod.fst :=
      List.mem_map.mpr ⟨(Time.floor settings.windowSeconds p.time, c), mem_toList.mpr hc, rfl⟩
    simp only [hmem, true_imp_iff]
  rw [hkeep]
  exact h.removeAll (fun _ hx => mem_toList.mp hx) (TreeMap.nodup_keys m.chunks)

/-! ## Runs -/

/-- A call makes of the points what its history says. -/
theorem Holds.call [LawfulBlockCodec] (hs : settings.Fits) (h : m.Holds settings points ms)
    (c : ManagerCall) :
    ∃ ms', (m.call c).1.Holds settings
      ((m.call c).2.foldl (History.keep settings.windowSeconds) points) ms' := by
  cases c with
  | add line => exact h.addLine hs line
  | freezeUntil cutoff => exact ⟨ms, h.freezeUntil cutoff⟩
  | removeUntil cutoff => exact ⟨ms, h.removeUntil cutoff⟩

theorem Holds.callEach [LawfulBlockCodec] (hs : settings.Fits) (h : m.Holds settings points ms)
    (calls : List ManagerCall) :
    ∃ ms', (m.callEach calls).1.Holds settings
      ((m.callEach calls).2.foldl (History.keep settings.windowSeconds) points) ms' := by
  induction calls generalizing m points ms with
  | nil => exact ⟨ms, h⟩
  | cons c calls ih =>
    obtain ⟨ms', h'⟩ := h.call hs c
    obtain ⟨ms'', h''⟩ := ih h'
    refine ⟨ms'', ?_⟩
    rw [Manager.callEach, List.foldl_append]
    exact h''

omit [BlockCodec] in
/-- A manager takes no settings with windows of no length. -/
theorem pos_of_new (hnew : Manager.new settings d = .ok m) : 0 < settings.windowSeconds := by
  rw [Manager.new] at hnew
  obtain ⟨u, hvalid, -⟩ := bind_eq_ok.mp hnew
  unfold ManagerSettings.validate at hvalid
  split at hvalid
  · exact absurd hvalid (by simp)
  · split at hvalid
    · exact absurd hvalid (by simp)
    · rename_i hlt
      exact Int.not_le.mp hlt

/-- A new manager holds nothing. -/
theorem holds_new (hd : d.WellFormed) (hnew : Manager.new settings d = .ok m) :
    m.Holds settings (fun _ => []) [] ∧ 0 < settings.windowSeconds := by
  have hpos := pos_of_new hnew
  rw [Manager.new] at hnew
  obtain ⟨u, -, hnew⟩ := bind_eq_ok.mp hnew
  have hmade : ∃ made : Disk, made.WellFormed ∧ m = ⟨settings, TagIndex.empty, made, ∅, 0⟩ := by
    dsimp only at hnew
    split at hnew
    · exact ⟨d, hd, (pure_eq_ok.mp hnew).symm⟩
    · obtain ⟨made, hmade, hnew⟩ := bind_eq_ok.mp hnew
      have hapart : Disk.Apart none d made := Disk.apart_makeDirectories hd hmade
      exact ⟨made, hapart.wellFormed, (pure_eq_ok.mp hnew).symm⟩
  obtain ⟨made, hwell, rfl⟩ := hmade
  refine ⟨⟨rfl, TagIndex.indexes_empty, hwell, by simp, by simp, ?_, by simp⟩, hpos⟩
  intro start c hc
  exact absurd hc (by simp)

end Manager

end TimeSeries
