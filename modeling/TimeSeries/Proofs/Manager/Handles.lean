import Mathlib
import TimeSeries.Proofs.Manager.Run

/-!
# Handles

Beside its own calls a manager is changed through the handles that it gives out: whoever holds a
chunk may add points to it, freeze it or close it, at any time and in any order. So a manager that
is *used* can hold an evicted chunk, which no run leads to. It is sound all the same, since `Sound`
asks nothing of a chunk without a store.

A handle of a chunk that has been removed stands for an evicted one, and what is done with it does
not reach the manager.
-/

namespace TimeSeries

variable {ms more : List Metric} {form : FrozenForm} {start : Int} {d : Disk} {tags : TagIndex}
  {settings : ManagerSettings} {m m' : Manager}

theorem Chunk.Sound.close {c : Chunk GrowingStore} (h : c.Sound start form ms) (d : Disk) :
    (c.close d).2.1.Sound start form ms := by
  unfold Chunk.close
  split
  · exact h
  · exact Chunk.sound_evicted h.start

namespace Manager

/-! ## The chunk of a handle -/

/-- A handle means a chunk that is still there, or none that could be changed. -/
theorem held_cases (m : Manager) (handle : ChunkHandle) :
    (m.held handle = .evicted handle.info ∧ ∀ chunk, m.setHeld handle chunk = m) ∨
      ∃ c, m.chunks[handle.info.start]? = some c ∧ m.held handle = c.chunk ∧
        ∀ chunk, m.setHeld handle chunk =
          { m with chunks := m.chunks.insert handle.info.start { c with chunk } } := by
  cases hc : m.chunks[handle.info.start]? with
  | none => exact .inl ⟨by rw [held, hc], fun chunk => by rw [setHeld, hc]⟩
  | some c =>
    by_cases hserial : c.serial = handle.serial
    · exact .inr ⟨c, rfl, by simp [held, hc, hserial], fun chunk => by simp [setHeld, hc, hserial]⟩
    · exact .inl ⟨by simp [held, hc, hserial], fun chunk => by simp [setHeld, hc, hserial]⟩

theorem Sound.chunk_held (h : m.Sound settings ms) (handle : ChunkHandle) :
    (m.held handle).Sound handle.info.start settings.form ms := by
  rcases m.held_cases handle with ⟨hgone, -⟩ | ⟨c, hc, hheld, -⟩
  · rw [hgone]
    exact Chunk.sound_evicted rfl
  · rw [hheld]
    exact h.chunks _ c hc

theorem Sound.setHeld (h : m.Sound settings ms) {handle : ChunkHandle} {chunk : Chunk GrowingStore}
    (hchunk : chunk.Sound handle.info.start settings.form ms) :
    Sound { m.setHeld handle chunk with disk := d } settings ms := by
  rcases m.held_cases handle with ⟨-, hset⟩ | ⟨c, -, -, hset⟩
  · rw [hset]
    exact ⟨h.settings_eq, h.tags, h.chunks⟩
  · rw [hset]
    exact h.put hchunk

/-- The same when metrics may have come. -/
theorem Sound.setHeld_tags (h : m.Sound settings ms)
    (htags : TagIndex.Indexes tags (ms ++ more)) {handle : ChunkHandle}
    {chunk : Chunk GrowingStore}
    (hchunk : chunk.Sound handle.info.start settings.form (ms ++ more)) :
    Sound { m.setHeld handle chunk with tags } settings (ms ++ more) := by
  rcases m.held_cases handle with ⟨-, hset⟩ | ⟨c, -, -, hset⟩
  · rw [hset]
    exact ⟨h.settings_eq, htags, fun start c hc => (h.chunks start c hc).append⟩
  · rw [hset]
    exact h.insert htags hchunk

variable [BlockCodec]

/-- What changes a manager, by its own calls or through a handle. Where the manager freezes its
chunks in memory, so do the holders of a chunk. -/
inductive Use : Manager → Manager → Prop
  | step {m m' : Manager} : Step m m' → Use m m'
  | add {m : Manager} (handle : ChunkHandle) {metric : Metric} (p : Point) :
      (∃ name tags, Metric.new name tags = .ok metric) → Use m (m.addHeld handle metric p).2
  | freeze {m : Manager} (handle : ChunkHandle) {form : FrozenForm} :
      (m.settings.form.directory = none → form.directory = none) →
        Use m (m.freezeHeld handle form).state
  | close {m : Manager} (handle : ChunkHandle) : Use m (m.closeHeld handle).2

/-- Any number of uses. -/
abbrev Uses : Manager → Manager → Prop := Relation.ReflTransGen Use

theorem uses_of_run (h : Run m m') : Uses m m' :=
  Relation.ReflTransGen.mono (fun _ _ hs => Use.step hs) _ _ h

/-- **A use keeps a manager sound.** -/
theorem Sound.use (h : m.Sound settings ms) (hu : Use m m') :
    ∃ more, m'.Sound settings (ms ++ more) := by
  cases hu with
  | step hs => exact h.step hs
  | add handle p hbuilt =>
    obtain ⟨name, tags, hnew⟩ := hbuilt
    obtain ⟨more, htags, hchunk⟩ :=
      (h.chunk_held handle).addPoint h.tags (Metric.wellFormed_of_new hnew) p
    exact ⟨more, h.setHeld_tags htags hchunk⟩
  | freeze handle hmemory =>
    rw [h.settings_eq] at hmemory
    refine ⟨[], ?_⟩
    rw [List.append_nil]
    exact h.setHeld ((h.chunk_held handle).freeze m.disk hmemory)
  | close handle =>
    refine ⟨[], ?_⟩
    rw [List.append_nil]
    exact h.setHeld ((h.chunk_held handle).close m.disk)

/-- Every manager that uses lead to is sound. -/
theorem sound_of_uses (hnew : Manager.new settings d = .ok m) (hu : Uses m m') :
    ∃ ms, m'.Sound settings ms := by
  induction hu with
  | refl => exact ⟨[], sound_new hnew⟩
  | tail _ hu ih =>
    obtain ⟨ms, h⟩ := ih
    obtain ⟨more, h'⟩ := h.use hu
    exact ⟨ms ++ more, h'⟩

end Manager

end TimeSeries
