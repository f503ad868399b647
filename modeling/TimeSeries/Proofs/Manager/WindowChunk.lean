import Mathlib
import TimeSeries.Manager.Basic
import TimeSeries.Proofs.Chunk.Answer
import TimeSeries.Proofs.Chunk.Calls
import TimeSeries.Proofs.Manager.Window
import TimeSeries.Proofs.TreeMap

/-!
# The chunk of a window

Seen from its manager a chunk is the chunk of a window: it has the name and the bounds of the
window, and it keeps the points of the window in a store that, if it has a file, has the file of
that window. `Keeps` says so. The manager calls its chunks in a few ways, each of which is followed
here; what is done to the chunk of one window never reaches the file of another.
-/

namespace TimeSeries

namespace ManagerSettings

variable {settings : ManagerSettings} {start other : Int}

/-- The name and the bounds of a window. -/
def info (settings : ManagerSettings) (start : Int) : ChunkInfo :=
  ⟨s!"{settings.dataset}_{start}", start, start + settings.windowSeconds⟩

/-- The steps to the file for the frozen store of a window, if it gets one. -/
def place? (settings : ManagerSettings) (start : Int) : Option (List String) :=
  settings.form.place? (settings.info start).dataset

/-- The windows have a length, which fits into 64 bits. -/
structure Fits (settings : ManagerSettings) : Prop where
  pos : 0 < settings.windowSeconds
  le : settings.windowSeconds ≤ lastTime

end ManagerSettings

namespace Manager

variable {m : Manager} {t : Int}

/-- A manager gives to the chunk of a window the name and the bounds of the window. -/
theorem chunkInfo_eq (m : Manager) (start : Int) : m.chunkInfo start = m.settings.info start := rfl

/-- A chunk is created at the start of its window, and the others are as they were. -/
theorem chunks_create (m : Manager) (info : ChunkInfo) (other : Int) :
    (m.create info).2.1.chunks[other]? =
      if other = info.start then some (m.create info).1 else m.chunks[other]? :=
  TreeMap.getElem?_insert m.chunks info.start other _

/-! ## Windows that fit -/

/-- The start of a window is found if it fits. -/
theorem windowStart?_eq (m : Manager) (t : Int) : m.windowStart? t =
    if Time.Fits (m.windowStart t) then some (m.windowStart t) else none := rfl

theorem existingAt?_eq (m : Manager) (t : Int) : m.existingAt? t =
    if Time.Fits (m.windowStart t) then some (m.existing? t) else none := by
  rw [existingAt?, windowStart?_eq]
  split <;> rfl

theorem chunkInfo?_eq (m : Manager) (start : Int) : m.chunkInfo? start =
    if Time.Fits (m.chunkInfo start).stop then some (m.chunkInfo start) else none := by
  have hstop : (m.chunkInfo start).stop = start + m.settings.windowSeconds := rfl
  rw [chunkInfo?, Time.plus?, Time.ofSeconds?, hstop]
  split <;> rfl

/-- The chunk of a time is found if the start of its window fits, and created if the end fits
too. -/
theorem chunkAt?_eq (m : Manager) (t : Int) : m.chunkAt? t =
    if Time.Fits (m.windowStart t) ∧
        ((m.existing? t).isSome ∨ Time.Fits (m.chunkInfo (m.windowStart t)).stop) then
      some (m.chunkAt t)
    else none := by
  rw [chunkAt?, windowStart?_eq]
  by_cases hbegin : Time.Fits (m.windowStart t)
  · rw [if_pos hbegin, Option.bind_eq_bind, Option.bind_some, chunkAt]
    cases hc : m.existing? t with
    | some c =>
      rw [existing?] at hc
      rw [hc, if_pos ⟨hbegin, .inl rfl⟩]
      rfl
    | none =>
      rw [existing?] at hc
      rw [hc, chunkInfo?_eq]
      by_cases hend : Time.Fits (m.chunkInfo (m.windowStart t)).stop
      · rw [if_pos hend, if_pos ⟨hbegin, .inr hend⟩]
        rfl
      · rw [if_neg hend, if_neg (by simp [hend])]
        rfl
  · rw [if_neg hbegin, if_neg fun h => hbegin h.1]
    rfl

/-- The chunk for the time of a point is always found or created. -/
theorem chunkAt?_of_pointTime (hs : m.settings.Fits) (ht : PointTime t) :
    m.chunkAt? t = some (m.chunkAt t) := by
  obtain ⟨hbegin, hend⟩ := Time.fits_window_of_pointTime hs.pos hs.le ht
  rw [chunkAt?_eq, if_pos ⟨hbegin, .inr hend⟩]

end Manager

namespace Chunk

variable [BlockCodec] {settings : ManagerSettings} {start : Int} {d d' : Disk}
  {f : SeriesId → List Point} {c : Chunk GrowingStore}

/-- A chunk of a window with the points that it keeps. -/
structure Keeps (c : Chunk GrowingStore) (settings : ManagerSettings) (start : Int) (d : Disk)
    (f : SeriesId → List Point) : Prop where
  info : c.info = settings.info start
  store : ∃ s, c.store = some s ∧ s.Holds d f ∧ s.Placed d (settings.place? start)

theorem keeps_new : (Chunk.new (settings.info start)).Keeps settings start d fun _ => [] where
  info := rfl
  store := ⟨_, rfl, GrowingStore.holds_empty, trivial⟩

/-- Work on the file of another window does not reach a chunk. -/
theorem Keeps.apart {other : Int} (h : c.Keeps settings start d f)
    (hd : Disk.Apart (settings.place? other) d d') (hne : start ≠ other) :
    c.Keeps settings start d' f := by
  obtain ⟨s, hs, hheld, hplaced⟩ := h.store
  obtain ⟨hplaced', hsame⟩ := hplaced.apart hd (settings.form.place?_ne settings.dataset hne)
  exact ⟨h.info, s, hs, hheld.congr hsame, hplaced'⟩

theorem Keeps.query_eq (h : c.Keeps settings start d f) (tags : TagIndex) (q : Query) :
    c.query d tags q = (.ok (answer tags f q), []) := by
  obtain ⟨s, hs, hheld, -⟩ := h.store
  exact Chunk.query_eq hs hheld q

theorem Keeps.addPoint {tags : TagIndex} {ms : List Metric} {m : Metric}
    (h : c.Keeps settings start d f) (htags : TagIndex.Indexes tags ms) (hm : m.WellFormed)
    (p : Point) :
    ∃ result c' tags' more, c.addPoint tags m p = (result, c', tags') ∧
      TagIndex.Indexes tags' (ms ++ more) ∧
      ((∃ e, result = .error e ∧ c'.Keeps settings start d f) ∨
        (∃ id n, result = .ok () ∧ TagIndex.metricAt (ms ++ more) id = some n ∧
          n.fullName = m.fullName ∧
          c'.Keeps settings start d (Function.update f id (f id ++ [p])))) := by
  obtain ⟨s, hs, hheld, hplaced⟩ := h.store
  obtain ⟨result, s', tags', more, hadd, htags', hsame, hcases⟩ :=
    addPoint_spec hs hheld htags hm p
  -- a store that took or refused a point is a growing one, which has no file
  have hplaced' : s'.Placed d (settings.place? start) := by
    rcases hsame with rfl | ⟨g, rfl⟩
    · exact hplaced
    · trivial
  refine ⟨result, _, tags', more, hadd, htags', ?_⟩
  rcases hcases with ⟨e, he, hheld'⟩ | ⟨id, n, hok, hid, hname, hheld'⟩
  · exact .inl ⟨e, he, h.info, s', rfl, hheld', hplaced'⟩
  · exact .inr ⟨id, n, hok, hid, hname, h.info, s', rfl, hheld', hplaced'⟩

/-- Freezing keeps the points of a chunk, whether or not it succeeds. -/
theorem Keeps.freeze [LawfulBlockCodec] (h : c.Keeps settings start d f) (hd : d.WellFormed) :
    (c.freeze d settings.form).state.1.Keeps settings start
        (c.freeze d settings.form).state.2 f ∧
      Disk.Apart (settings.place? start) d (c.freeze d settings.form).state.2 := by
  obtain ⟨s, hs, hheld, hplaced⟩ := h.store
  -- the file is named after the dataset of the chunk, which is that of the window
  have hplace : settings.form.place? c.info.dataset = settings.place? start := by
    rw [h.info]
    rfl
  cases s with
  | frozen s =>
    rw [(freeze_late (by simp [Chunk.state, hs, Store.isFrozen]) d settings.form).2]
    exact ⟨h, .refl hd⟩
  | growing s =>
    rcases freeze_growing hs d settings.form with
      ⟨e, d', hfreeze, -, hstate⟩ | ⟨frozen, d', hfreeze, -, hstate⟩
    · rw [hstate, ← hplace]
      exact ⟨⟨h.info, .growing s, hs, hheld, trivial⟩,
        GrowingStore.apart_freeze_error hd hfreeze⟩
    · obtain ⟨hapart, hrecords, howns⟩ := GrowingStore.apart_freeze hd hfreeze
      rw [hplace] at hapart hrecords
      rw [hstate]
      have hheld' : frozen.Holds d' f := GrowingStore.Holds.freeze hheld hfreeze
      exact ⟨⟨h.info, .frozen frozen, rfl, hheld', hrecords, howns⟩, hapart⟩

/-- Closing a chunk works on the file of its window only. -/
theorem Keeps.close (h : c.Keeps settings start d f) (hd : d.WellFormed) :
    Disk.Apart (settings.place? start) d (c.close d).2.2 := by
  obtain ⟨s, hs, -, hplaced⟩ := h.store
  exact apart_close hs hd hplaced

end Chunk

end TimeSeries
