import Mathlib
import TimeSeries.Proofs.Lifecycle.Pass
import TimeSeries.Proofs.Manager.Handles
import TimeSeries.Proofs.Manager.Repeated

/-!
# Passes over the chunks of a manager

What can be relied on when passes are made over a manager whose frozen stores are in memory: a pass
does all of its work or none, it does what it reports, it changes no answer of a chunk that is left,
and an earlier pass makes no difference to what a later one leaves behind.

Not every chunk that is left is frozen when its time has come. A chunk that was closed through a
handle stays evicted, and a chunk with a series that does not fit into a record goes on to take
points. Either stays as it was.
-/

namespace TimeSeries

namespace LifecycleSettings

/-- A time at which a pass can be made: not before the year 1970, and in 64 bits. -/
def PassTime (t : Int) : Prop := 0 ≤ t ∧ t ≤ lastTime

/-- Delays that fit into 64 bits, the one for freezing not longer than the other. -/
structure Ordered (s : LifecycleSettings) : Prop where
  nonneg : 0 ≤ s.metricsDelay
  le : s.metricsDelay ≤ s.staleDelay
  fits : s.staleDelay ≤ lastTime

variable {s : LifecycleSettings}

theorem ordered_of_validate (h : s.validate = .ok ()) (hfits : s.staleDelay ≤ lastTime) :
    s.Ordered := by
  unfold validate at h
  split at h
  · exact absurd h (by simp)
  · split at h
    · exact absurd h (by simp)
    · rename_i hneg hlt
      exact ⟨Int.not_lt.mp hneg, Int.not_lt.mp hlt, hfits⟩

/-- The cutoffs of a pass are times. -/
theorem Ordered.fits_cutoffs (hs : s.Ordered) {now : Int} (ht : PassTime now) :
    Time.Fits (now - s.staleDelay) ∧ Time.Fits (now - s.metricsDelay) :=
  ⟨Time.fits_sub_of_mem ht.1 ht.2 (hs.nonneg.trans hs.le) hs.fits,
    Time.fits_sub_of_mem ht.1 ht.2 hs.nonneg (hs.le.trans hs.fits)⟩

/-! ## What is relied on -/

variable [BlockCodec]

/-- A pass is made: it gives a report and leaves a manager behind. -/
def Makes (s : LifecycleSettings) (m : Manager) (now : Int) (r : LifecycleReport) (m' : Manager) :
    Prop :=
  ∃ signals, s.runAt m now = some ⟨.ok r, m', signals⟩

/-- A chunk before and after a pass that has left it. -/
structure Survives (s : LifecycleSettings) (now : Int) (m m' : Manager) (c c' : LiveChunk) :
    Prop where
  /-- It is still the same chunk. -/
  serial : c'.serial = c.serial
  info : c'.chunk.info = c.chunk.info
  /-- If its time has come, it is frozen unless it cannot be stored or was closed. -/
  frozen_iff : c.chunk.info.stop ≤ now - s.metricsDelay →
    (c'.chunk.state = .frozen ↔ c.chunk.state = .frozen ∨ c.chunk.Storable)
  /-- It is unchanged if its time has not come, or if there was nothing that could be frozen. -/
  unchanged : now - s.metricsDelay < c.chunk.info.stop ∨ ¬ c.chunk.Storable → c' = c
  answers : ∀ q, c'.chunk.query m'.disk m'.tags q = c.chunk.query m.disk m.tags q

/-- A manager before and after a pass that was made, with the report of the pass. -/
structure Passed (s : LifecycleSettings) (now : Int) (m : Manager) (r : LifecycleReport)
    (m' : Manager) : Prop where
  /-- The stale chunks are gone, the others are left, and there are no new ones. -/
  gone : ∀ start : Int, m'.chunks[start]? = none ↔
    ∀ c : LiveChunk, m.chunks[start]? = some c → c.chunk.info.stop ≤ now - s.staleDelay
  survives : ∀ (start : Int) c c', m.chunks[start]? = some c → m'.chunks[start]? = some c' →
    s.Survives now m m' c c'
  settings : m'.settings = m.settings
  tags : m'.tags = m.tags
  disk : m'.disk = m.disk
  nextSerial : m'.nextSerial = m.nextSerial
  report : r = ⟨m.deletions m', m.conversions m'⟩

/-- What two passes come to, of which the later one by itself leaves `m₂` behind. -/
structure Coalesces (s : LifecycleSettings) (m : Manager) (t₁ t₂ : Int) (m₂ : Manager) : Prop where
  /-- The later pass is made, and the earlier one makes no difference to the chunks. -/
  both : ∃ x r m', s.runAt m t₁ = some x ∧ s.Makes x.state t₂ r m' ∧
    ∀ start : Int, m'.chunks[start]? = m₂.chunks[start]?
  /-- Once made, the pass finds nothing more to do. -/
  again : ∃ m', s.Makes m₂ t₂ ⟨0, 0⟩ m'

/-- What can be relied on when passes are made over a manager. -/
structure Orderly (s : LifecycleSettings) (m : Manager) : Prop where
  /-- A pass is made, or it is refused and has done nothing. -/
  made_or_refused : ∀ now, PassTime now →
    (∃ r m', s.Makes m now r m') ∨ ∃ e, s.runAt m now = some ⟨.error e, m, []⟩
  /-- A pass is made just if something could be stale. -/
  made_iff : ∀ now, PassTime now → ((∃ r m', s.Makes m now r m') ↔ s.staleDelay < now)
  passed : ∀ now, PassTime now → ∀ r m', s.Makes m now r m' → s.Passed now m r m'
  coalesces : ∀ t₁ t₂, PassTime t₁ → PassTime t₂ → t₁ ≤ t₂ → ∀ r m₂, s.Makes m t₂ r m₂ →
    s.Coalesces m t₁ t₂ m₂

/-! ## One pass -/

variable {settings : ManagerSettings} {m m' m₂ : Manager} {ms : List Metric} {now : Int}
  {r r₂ : LifecycleReport}

theorem Makes.unique (h : s.Makes m now r m') (h' : s.Makes m now r₂ m₂) : r = r₂ ∧ m' = m₂ := by
  obtain ⟨_, h⟩ := h
  obtain ⟨_, h'⟩ := h'
  have heq := Option.some_inj.mp (h.symm.trans h')
  simp only [Effect.mk.injEq, Except.ok.injEq] at heq
  exact ⟨heq.1, heq.2.1⟩

theorem freezeAt_of_fits (h : Time.Fits (now - s.metricsDelay)) (m : Manager) :
    s.freezeAt m now = some (m.freezePast (now - s.metricsDelay)) := by
  rw [freezeAt, Time.minus?_of_fits h]
  rfl

omit [BlockCodec] in
theorem removeAt_of_fits (h : Time.Fits (now - s.staleDelay)) (m : Manager) :
    s.removeAt m now = some (m.removePast (now - s.staleDelay)) := by
  rw [removeAt, Time.minus?_of_fits h]
  rfl

theorem runAt_early (hs : s.Ordered) (ht : PassTime now) (h : now ≤ s.staleDelay) :
    ∃ e, s.runAt m now = some ⟨.error e, m, []⟩ := by
  refine ⟨.invalid (.staleCutoff (now - s.staleDelay)), ?_⟩
  rw [runAt, removeAt_of_fits (hs.fits_cutoffs ht).1, Manager.removePast,
    if_pos (Int.sub_nonpos_of_le h)]
  rfl

/-- Once something can be stale, neither of the two cutoffs is refused. -/
theorem runAt_late (hs : s.Ordered) (ht : PassTime now) (h : s.staleDelay < now) :
    let first := m.removeUntil (now - s.staleDelay)
    let second := first.2.1.freezeUntil (now - s.metricsDelay)
    s.Makes m now ⟨first.1, second.1⟩ second.2.1 := by
  intro first second
  obtain ⟨hstale, hdue⟩ := hs.fits_cutoffs ht
  have hpos : ¬ now - s.staleDelay ≤ 0 := Int.not_le.mpr (Int.sub_pos_of_lt h)
  have hpos' : ¬ now - s.metricsDelay ≤ 0 :=
    Int.not_le.mpr (Int.sub_pos_of_lt (Int.lt_of_le_of_lt hs.le h))
  have hremove : s.removeAt m now = some ⟨.ok first.1, first.2.1, first.2.2⟩ := by
    rw [removeAt_of_fits hstale, Manager.removePast, if_neg hpos]
  have hfreeze : s.freezeAt first.2.1 now = some ⟨.ok second.1, second.2.1, second.2.2⟩ := by
    rw [freezeAt_of_fits hdue, Manager.freezePast, if_neg hpos']
  refine ⟨first.2.2 ++ (second.2.2 ++ []), ?_⟩
  rw [runAt, hremove]
  simp only [Option.bind_eq_bind, Option.bind_some, Effect.andThen?, hfreeze, Effect.andThen,
    Effect.after, Option.pure_def, Option.map_some]

/-- A pass that is made is a sweep, and it reports what the sweep has done. -/
theorem swept_runAt (hs : s.Ordered) (ht : PassTime now) (hlate : s.staleDelay < now)
    (h : m.Sound settings ms) (hform : settings.form.directory = none) :
    ∃ m', s.Makes m now ⟨m.deletions m', m.conversions m'⟩ m' ∧ m'.Sound settings ms ∧
      m.Swept (fun _ => LiveChunk.passed (now - s.staleDelay) (now - s.metricsDelay) m.disk
        settings.form) m' := by
  have hmade := runAt_late (m := m) hs ht hlate
  obtain ⟨hswept, hdeleted, hconverted⟩ :=
    h.swept hform (now - s.staleDelay) (now - s.metricsDelay)
  dsimp only at hmade
  rw [hdeleted, hconverted] at hmade
  exact ⟨_, hmade, (h.removeUntil _).freezeUntil _, hswept⟩

theorem passed_runAt [LawfulBlockCodec] (hs : s.Ordered) (ht : PassTime now)
    (hlate : s.staleDelay < now) (h : m.Sound settings ms)
    (hform : settings.form.directory = none)
    (hcodec : ∀ bytes, ∃ stored, settings.form.compression.encode bytes = .ok stored)
    (hmade : s.Makes m now r m') : s.Passed now m r m' := by
  obtain ⟨_, hmade', -, hswept⟩ := swept_runAt hs ht hlate h hform
  obtain ⟨hreport, rfl⟩ := hmade.unique hmade'
  refine ⟨fun start => ?_, fun start c c' hc hc' => ?_, hswept.settings_eq, hswept.tags_eq,
    hswept.disk_eq, hswept.serial_eq, hreport⟩
  · cases hc : m.chunks[start]? with
    | none => simp [hswept.chunks start, hc]
    | some c =>
      rw [hswept.of_mem hc]
      by_cases hstop : c.chunk.info.stop ≤ now - s.staleDelay
      · simp [LiveChunk.passed_of_le hstop, hstop]
      · simp [LiveChunk.passed_of_lt (Int.not_le.mp hstop), Int.not_le.mp hstop]
  · rw [hswept.of_mem hc] at hc'
    have hlive : now - s.staleDelay < c.chunk.info.stop := by
      refine Int.not_le.mp fun hstop => ?_
      rw [LiveChunk.passed_of_le hstop] at hc'
      exact absurd hc' (by simp)
    rw [LiveChunk.passed_of_lt hlive] at hc'
    obtain rfl := Option.some_inj.mp hc'
    refine ⟨LiveChunk.aged_serial, LiveChunk.aged_info, fun hstop => ?_, ?_, fun q => ?_⟩
    · by_cases hstorable : c.chunk.Storable
      · exact iff_of_true (LiveChunk.aged_of_storable hform hcodec hstorable hstop)
          (.inr hstorable)
      · rw [LiveChunk.aged_of_not_storable hform hcodec hstorable]
        simp [hstorable]
    · rintro (hlt | hnot)
      · exact LiveChunk.aged_of_lt hlt
      · exact LiveChunk.aged_of_not_storable hform hcodec hnot
    · rw [hswept.disk_eq, hswept.tags_eq]
      exact LiveChunk.aged_query hform (h.chunks start c hc) q

/-! ## Two passes -/

/-- What a pass leaves behind gives the same pass nothing to do. -/
theorem runAt_again (hs : s.Ordered) (ht : PassTime now) (hlate : s.staleDelay < now)
    (h : m.Sound settings ms) (hform : settings.form.directory = none)
    (hmade : s.Makes m now r m') : ∃ m₂, s.Makes m' now ⟨0, 0⟩ m₂ := by
  obtain ⟨_, hmade', h', hswept⟩ := swept_runAt hs ht hlate h hform
  obtain ⟨-, rfl⟩ := hmade.unique hmade'
  obtain ⟨m₂, hagain, -, hswept₂⟩ := swept_runAt hs ht hlate h' hform
  rw [hswept.disk_eq] at hswept₂
  -- a chunk that is left by a pass is left as it is by the next
  have hsame : ∀ x ∈ m'.chunks.toList, m₂.chunks[x.1]? = some x.2 := by
    intro x hx
    have hx := Manager.mem_toList.mp hx
    rw [hswept₂.of_mem hx]
    rw [hswept.chunks x.1] at hx
    cases hc : m.chunks[x.1]? with
    | none =>
      rw [hc] at hx
      exact absurd hx (by simp)
    | some c =>
      rw [hc, Option.bind_some] at hx
      have htwice : (c.passed (now - s.staleDelay) (now - s.metricsDelay) m.disk settings.form).bind
          (LiveChunk.passed (now - s.staleDelay) (now - s.metricsDelay) m.disk settings.form) =
            c.passed (now - s.staleDelay) (now - s.metricsDelay) m.disk settings.form :=
        LiveChunk.passed_passed le_rfl le_rfl
      rw [hx, Option.bind_some] at htwice
      exact htwice
  have hdeletions : m'.deletions m₂ = 0 := by
    refine List.countP_eq_zero.mpr fun x hx => ?_
    simp [hsame x hx]
  have hconversions : m'.conversions m₂ = 0 := by
    refine List.countP_eq_zero.mpr fun x hx => ?_
    simp only [hsame x hx, decide_eq_true_eq]
    exact x.2.not_wasFrozen_self
  rw [hdeletions, hconversions] at hagain
  exact ⟨m₂, hagain⟩

theorem coalesces_runAt {t₁ t₂ : Int} (hs : s.Ordered) (ht₁ : PassTime t₁) (ht₂ : PassTime t₂)
    (hle : t₁ ≤ t₂) (hlate : s.staleDelay < t₂) (h : m.Sound settings ms)
    (hform : settings.form.directory = none) (hmade : s.Makes m t₂ r m₂) :
    s.Coalesces m t₁ t₂ m₂ := by
  refine ⟨?_, runAt_again hs ht₂ hlate h hform hmade⟩
  by_cases hearly : t₁ ≤ s.staleDelay
  · -- the earlier pass is not made
    obtain ⟨e, hrun⟩ := runAt_early (m := m) hs ht₁ hearly
    exact ⟨_, r, m₂, hrun, hmade, fun _ => rfl⟩
  · obtain ⟨_, hmade₂, -, hone⟩ := swept_runAt hs ht₂ hlate h hform
    obtain ⟨-, rfl⟩ := hmade.unique hmade₂
    obtain ⟨m₁, ⟨signals, hrun⟩, h₁, hfirst⟩ :=
      swept_runAt hs ht₁ (Int.not_le.mp hearly) h hform
    obtain ⟨m', hsecond, -, htwo⟩ := swept_runAt hs ht₂ hlate h₁ hform
    refine ⟨_, _, m', hrun, hsecond, fun start => ?_⟩
    rw [hfirst.disk_eq] at htwo
    rw [(hfirst.trans htwo).chunks start, hone.chunks start]
    cases m.chunks[start]? with
    | none => rfl
    | some c =>
      rw [Option.bind_some, Option.bind_some]
      exact LiveChunk.passed_passed (Int.sub_le_sub_right hle _) (Int.sub_le_sub_right hle _)

end LifecycleSettings

/-- A chunk with too many points of a metric cannot be stored. -/
theorem Manager.HasPoints.not_storable {settings : ManagerSettings} {m : Manager} {start : Int}
    {metric : Metric} {n : Nat} (h : m.HasPoints settings start metric n) (hn : maxInt32 < n) :
    ∃ c, m.chunks[start]? = some c ∧ c.chunk.state = .growing ∧ ¬ c.chunk.Storable := by
  obtain ⟨-, c, id, hc, -, -, s, f, hs, hheld, hcount, -⟩ := h
  refine ⟨c, hc, Chunk.state_eq_growing.mpr ⟨s, hs⟩, ?_⟩
  rintro ⟨s', hs', hfits⟩
  obtain rfl := Store.growing.inj (Option.some_inj.mp (hs.symm.trans hs'))
  cases hseries : s.series[id]? with
  | none =>
    rw [hheld.of_none hseries] at hcount
    exact absurd (hn.trans_le hcount) (by simp)
  | some series =>
    have hlength := (hheld.of_some hseries).count_eq
    have hfit := hfits (id, series) (Std.TreeMap.mem_toList_iff_getElem?_eq_some.mpr hseries)
      (by dsimp only; omega)
    have hmax := hfit.count
    dsimp only at hmax
    omega

/-- A pass leaves a chunk as it is that is not stale and cannot be stored. -/
theorem LifecycleSettings.makes_of_not_storable [BlockCodec] {s : LifecycleSettings}
    {settings : ManagerSettings} {m : Manager} {ms : List Metric} {now start : Int} {c : LiveChunk}
    (hs : s.Ordered) (ht : PassTime now) (hlate : s.staleDelay < now) (h : m.Sound settings ms)
    (hform : settings.form.directory = none)
    (hcodec : ∀ bytes, ∃ stored, settings.form.compression.encode bytes = .ok stored)
    (hc : m.chunks[start]? = some c) (hlive : now - s.staleDelay < c.chunk.info.stop)
    (hnot : ¬ c.chunk.Storable) :
    ∃ r m', s.Makes m now r m' ∧ m'.chunks[start]? = some c := by
  obtain ⟨m', hmade, -, hswept⟩ := swept_runAt hs ht hlate h hform
  refine ⟨_, m', hmade, ?_⟩
  rw [hswept.of_mem hc, LiveChunk.passed_of_lt hlive,
    LiveChunk.aged_of_not_storable hform hcodec hnot]

end TimeSeries
