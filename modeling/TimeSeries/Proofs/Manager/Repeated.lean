import Mathlib
import TimeSeries.Proofs.Manager.Acceptance

/-!
# Lines that repeat

As long as its chunk takes points, a line can be sent again and again, and every time it brings one
more point. There is no limit to the points of a series before it is to be stored.
-/

namespace TimeSeries

/-- A chunk takes points and has at least some number of them under an id, and all that it has are
of its window. -/
structure Chunk.HasPoints (c : Chunk GrowingStore) (settings : ManagerSettings) (start : Int)
    (id : SeriesId) (n : Nat) : Prop where
  info : c.info.start = start
  store : ∃ s f, c.store = some (.growing s) ∧ s.Holds f ∧ n ≤ (f id).length ∧
    ∀ id, ∀ p ∈ f id, Time.floor settings.windowSeconds p.time = start

namespace Manager

variable {settings : ManagerSettings} {m : Manager} {start : Int} {r : PutRecord} {metric : Metric}
  {n : Nat}

/-- The chunk at a start has at least some number of points of a metric. -/
structure HasPoints (m : Manager) (settings : ManagerSettings) (start : Int) (metric : Metric)
    (n : Nat) : Prop where
  settings_eq : m.settings = settings
  chunk : ∃ c id, m.chunks[start]? = some c ∧ m.tags.getOrCreate metric = (.ok id, m.tags) ∧
    c.chunk.HasPoints settings start id n

/-- A chunk that takes points has at least none of any metric. -/
theorem hasPoints_of_run [BlockCodec] {disk : Disk} {fresh : Manager} {c : LiveChunk}
    {id : SeriesId} (hnew : Manager.new settings disk = .ok fresh) (hr : Run fresh m)
    (hc : m.chunks[start]? = some c) (hgrowing : c.chunk.state = .growing)
    (hget : m.tags.getOrCreate metric = (.ok id, m.tags)) :
    m.HasPoints settings start metric 0 := by
  obtain ⟨ms, h⟩ := sound_of_run hnew hr
  obtain ⟨s, hs⟩ := Chunk.state_eq_growing.mp hgrowing
  obtain ⟨f, hheld, hwindow⟩ := within_of_run hnew hr start c hc s hs
  exact ⟨h.settings_eq, c, id, hc, hget, (h.chunks start c hc).start, s, f, hs, hheld,
    Nat.zero_le _, hwindow⟩

/-- A record of the window brings one more point. -/
theorem HasPoints.addRecord (h : m.HasPoints settings start r.metric n)
    (hl : 0 < settings.windowSeconds) (hl' : settings.windowSeconds ≤ 2 ^ 30)
    (hr : PointTime r.point.time)
    (hstart : Time.floor settings.windowSeconds r.point.time = start) :
    (m.addRecord r).state.HasPoints settings start r.metric (n + 1) := by
  obtain ⟨rfl, c, id, hc, hget, hi, s, f, hs, hheld, hcount, hwindow⟩ := h
  have hfit := Series.fit_of_window hl hl' (hwindow id) hr hstart
  obtain ⟨series, hseries⟩ := (hheld.series id).append_of_fit hfit
  obtain ⟨s', hadd⟩ : ∃ s', s.add id r.point = (.ok (), s') := by
    simp [GrowingStore.add, hheld.opened, hseries]
  have hpoint : c.chunk.addPoint m.tags r.metric r.point =
      (.ok (), { c.chunk with store := some (.growing s') }, m.tags) := by
    simp [Chunk.addPoint, hs, hget, PointStore.add, hadd]
  have hstate : (m.addRecord r).state = _ := congrArg Prod.snd (addRecord_inRange hr)
  rw [chunkAt_of_existing (hstart ▸ hc), addHeld_eq hc hi, hpoint] at hstate
  rw [hstate]
  refine ⟨rfl, { c with chunk := { c.chunk with store := some (.growing s') } }, id, ?_, hget, hi,
    s', Function.update f id (f id ++ [r.point]), rfl, hheld.add hadd, ?_, fun other q hq => ?_⟩
  · dsimp only
    rw [TreeMap.getElem?_insert, if_pos rfl]
  · rw [Function.update_self, List.length_append]
    exact Nat.succ_le_succ hcount
  · -- the new point is of the window, as the others are
    by_cases hother : other = id
    · rw [hother, Function.update_self] at hq
      rcases List.mem_append.mp hq with hq | hq
      · exact hwindow id q hq
      · rwa [List.mem_singleton.mp hq]
    · rw [Function.update_of_ne hother] at hq
      exact hwindow other q hq

/-- A line that is sent over and over again is taken every time. -/
theorem HasPoints.callEach [BlockCodec] {line : String} {k : Nat}
    (h : m.HasPoints settings start r.metric k) (hl : 0 < settings.windowSeconds)
    (hl' : settings.windowSeconds ≤ 2 ^ 30) (hparse : PutRecord.parse line = .ok r)
    (hr : PointTime r.point.time)
    (hstart : Time.floor settings.windowSeconds r.point.time = start) (n : Nat) :
    (m.callEach (List.replicate n (.add line))).1.HasPoints settings start r.metric (k + n) := by
  induction n generalizing m k with
  | zero => exact h
  | succ n ih =>
    have hstate : (m.call (.add line)).1 = (m.addRecord r).state := by
      rw [Manager.call, addLine, hparse]
    have hrest := ih (h.addRecord hl hl' hr hstart)
    rw [List.replicate_succ, Manager.callEach]
    dsimp only
    rw [hstate, Nat.add_comm n 1, ← Nat.add_assoc]
    exact hrest

end Manager

end TimeSeries
