import Mathlib
import TimeSeries.Proofs.Lifecycle.Orderly
import TimeSeries.Proofs.Manager.Late

/-!
# Where windows and cutoffs overflow

A manager calculates with times in two places only: it looks for the window of a time, and it counts
back from the time of a pass. Either stops where a result does not fit into 64 bits; all else that
is done with times is to compare them. So it is known for each time what stops there: what needs the
start of a window that begins before all times, what needs the end of one that ends behind them, and
what needs a cutoff that lies before them. Wherever nothing stops, the window of a time has the set
length and the time in it, and a cutoff is the exact difference.

None of this happens at the times of points, or in passes from the year 1970 on.
-/

namespace TimeSeries

/-! ## What a manager does -/

namespace Manager

variable {settings : ManagerSettings} {m : Manager} {t : Int}

/-- What a manager makes of a time. `windowStart`, `existing?` and `chunkAt` are what it would be if
every number were a time. -/
structure CutsAt (m : Manager) (t : Int) : Prop where
  /-- The start of the window is found if it fits. -/
  windowStart : m.windowStart? t =
    if Time.Fits (m.windowStart t) then some (m.windowStart t) else none
  existing : m.existingAt? t =
    if Time.Fits (m.windowStart t) then some (m.existing? t) else none
  /-- The end is needed only if the chunk is not there. -/
  chunkAt : m.chunkAt? t =
    if Time.Fits (m.windowStart t) ∧
        ((m.existing? t).isSome ∨ Time.Fits (m.windowStart t + m.settings.windowSeconds)) then
      some (m.chunkAt t)
    else none
  /-- The chunk has a window of the set length around the time. -/
  window :
    let info := (m.chunkAt t).1.chunk.info
    info.start = m.windowStart t ∧ info.stop = info.start + m.settings.windowSeconds ∧
      info.start ≤ t ∧ t < info.stop
  /-- The chunk for the time of a point is always found or created. -/
  points : PointTime t → m.chunkAt? t = some (m.chunkAt t)

variable [BlockCodec]

/-- The chunk for a time has the name and the bounds that belong to the window of the time. -/
theorem info_chunkAt_of_run {disk : Disk} {fresh : Manager}
    (hnew : Manager.new settings disk = .ok fresh) (hr : Run fresh m) (t : Int) :
    (m.chunkAt t).1.chunk.info = m.chunkInfo (m.windowStart t) := by
  obtain ⟨ms, h⟩ := sound_of_run hnew hr
  obtain ⟨-, hc⟩ := h.chunkAt t
  rw [named_of_run hnew (hr.tail (.window t)) _ _ hc, chunkInfo_eq, chunkInfo_eq, h.settings_eq,
    (sound_new hnew).settings_eq]

theorem cutsAt_of_run {disk : Disk} {fresh : Manager}
    (hnew : Manager.new settings disk = .ok fresh) (hwindow : settings.windowSeconds ≤ lastTime)
    (hr : Run fresh m) (t : Int) : m.CutsAt t := by
  obtain ⟨ms, h⟩ := sound_of_run hnew hr
  have hs : m.settings.Fits := by
    rw [h.settings_eq]
    exact ⟨pos_of_new hnew, hwindow⟩
  refine ⟨windowStart?_eq m t, existingAt?_eq m t, chunkAt?_eq m t, ?_, chunkAt?_of_pointTime hs⟩
  rw [info_chunkAt_of_run hnew hr t]
  exact ⟨rfl, rfl, Time.floor_le hs.pos t, Time.lt_floor_add hs.pos t⟩

end Manager

/-! ## What a pass does -/

namespace LifecycleSettings

variable [BlockCodec] {s : LifecycleSettings} {now : Int}

/-- What comes of counting back from a time. -/
structure CountsAt (s : LifecycleSettings) (m : Manager) (now : Int) : Prop where
  freezeAt : s.freezeAt m now =
    if Time.Fits (now - s.metricsDelay) then some (m.freezePast (now - s.metricsDelay)) else none
  removeAt : s.removeAt m now =
    if Time.Fits (now - s.staleDelay) then some (m.removePast (now - s.staleDelay)) else none
  /-- The second cutoff does not lie before the first. -/
  runAt : s.runAt m now =
    if Time.Fits (now - s.staleDelay) then
      some ((m.removePast (now - s.staleDelay)).andThen fun deleted m =>
        (m.freezePast (now - s.metricsDelay)).andThen fun frozen m => ⟨.ok ⟨deleted, frozen⟩, m, []⟩)
    else none
  /-- What does not stop is refused just if its cutoff is not positive. -/
  freezes : ∀ x, s.freezeAt m now = some x →
    ((∃ e, x.result = .error e) ↔ now ≤ s.metricsDelay)
  removes : ∀ x, s.removeAt m now = some x → ((∃ e, x.result = .error e) ↔ now ≤ s.staleDelay)
  runs : ∀ x, s.runAt m now = some x → ((∃ e, x.result = .error e) ↔ now ≤ s.staleDelay)
  /-- A pass from the year 1970 on does not stop. -/
  passes : PassTime now → (s.runAt m now).isSome

omit [BlockCodec] in
/-- What is refused if a cutoff is not positive and gives a number otherwise. -/
theorem refused_iff {cutoff : Int} {e : Error} {m : Manager} {x : Effect Manager Nat}
    (hx : ∃ n, x.result = .ok n) :
    (∃ e', (if cutoff ≤ 0 then ⟨.error e, m, []⟩ else x : Effect Manager Nat).result = .error e') ↔
      cutoff ≤ 0 := by
  split
  · rename_i hle
    exact iff_of_true ⟨e, rfl⟩ hle
  · rename_i hlt
    obtain ⟨n, hn⟩ := hx
    exact iff_of_false (by simp [hn]) hlt

omit [BlockCodec] in
theorem removePast_refuses (m : Manager) (cutoff : Int) :
    (∃ e, (m.removePast cutoff).result = .error e) ↔ cutoff ≤ 0 :=
  refused_iff ⟨_, rfl⟩

theorem freezePast_refuses (m : Manager) (cutoff : Int) :
    (∃ e, (m.freezePast cutoff).result = .error e) ↔ cutoff ≤ 0 :=
  refused_iff ⟨_, rfl⟩

theorem freezeAt_eq (s : LifecycleSettings) (m : Manager) (now : Int) : s.freezeAt m now =
    if Time.Fits (now - s.metricsDelay) then some (m.freezePast (now - s.metricsDelay))
    else none := by
  rw [freezeAt, Time.minus?, Time.ofSeconds?]
  split <;> rfl

omit [BlockCodec] in
theorem removeAt_eq (s : LifecycleSettings) (m : Manager) (now : Int) : s.removeAt m now =
    if Time.Fits (now - s.staleDelay) then some (m.removePast (now - s.staleDelay)) else none := by
  rw [removeAt, Time.minus?, Time.ofSeconds?]
  split <;> rfl

theorem runAt_eq (hs : s.Ordered) (ht : Time.Fits now) (m : Manager) : s.runAt m now =
    if Time.Fits (now - s.staleDelay) then
      some ((m.removePast (now - s.staleDelay)).andThen fun deleted m =>
        (m.freezePast (now - s.metricsDelay)).andThen fun frozen m => ⟨.ok ⟨deleted, frozen⟩, m, []⟩)
    else none := by
  rw [runAt, removeAt_eq]
  by_cases hstale : Time.Fits (now - s.staleDelay)
  · have hdue : Time.Fits (now - s.metricsDelay) :=
      ⟨hstale.1.trans (Int.sub_le_sub_left hs.le now),
        (Int.sub_le_self now hs.nonneg).trans ht.2⟩
    rw [if_pos hstale, if_pos hstale, Option.bind_eq_bind, Option.bind_some, Effect.andThen?,
      Effect.andThen]
    cases (m.removePast (now - s.staleDelay)).result with
    | error e => rfl
    | ok deleted =>
      dsimp only
      rw [freezeAt_of_fits hdue]
      rfl
  · rw [if_neg hstale, if_neg hstale]
    rfl

/-- A pass is refused with its first cutoff: the second is then positive too. -/
theorem runAt_refused_iff (hs : s.Ordered) (ht : Time.Fits now) {m : Manager}
    {x : Effect Manager LifecycleReport} (hx : s.runAt m now = some x) :
    (∃ e, x.result = .error e) ↔ now ≤ s.staleDelay := by
  rw [runAt_eq hs ht] at hx
  split at hx
  · obtain rfl := Option.some_inj.mp hx
    have hrefused := removePast_refuses m (now - s.staleDelay)
    rw [Effect.andThen]
    cases hresult : (m.removePast (now - s.staleDelay)).result with
    | error e =>
      rw [hresult] at hrefused
      exact iff_of_true ⟨e, rfl⟩ (sub_nonpos.mp (hrefused.mp ⟨e, rfl⟩))
    | ok deleted =>
      rw [hresult] at hrefused
      have hlate : s.staleDelay < now := by
        refine Int.not_le.mp fun hle => ?_
        obtain ⟨e, he⟩ := hrefused.mpr (sub_nonpos.mpr hle)
        exact absurd he (by simp)
      have hpos : ¬ now - s.metricsDelay ≤ 0 :=
        Int.not_le.mpr (Int.sub_pos_of_lt (Int.lt_of_le_of_lt hs.le hlate))
      refine iff_of_false ?_ (Int.not_le.mpr hlate)
      simp only [Manager.freezePast, if_neg hpos, Effect.andThen, Effect.after]
      simp
  · exact absurd hx (by simp)

theorem countsAt (hs : s.Ordered) (ht : Time.Fits now) (m : Manager) : s.CountsAt m now where
  freezeAt := freezeAt_eq s m now
  removeAt := removeAt_eq s m now
  runAt := runAt_eq hs ht m
  freezes x hx := by
    rw [freezeAt_eq] at hx
    split at hx
    · obtain rfl := Option.some_inj.mp hx
      rw [freezePast_refuses, sub_nonpos]
    · exact absurd hx (by simp)
  removes x hx := by
    rw [removeAt_eq] at hx
    split at hx
    · obtain rfl := Option.some_inj.mp hx
      rw [removePast_refuses, sub_nonpos]
    · exact absurd hx (by simp)
  runs x hx := runAt_refused_iff hs ht hx
  passes hpass := by
    rw [runAt_eq hs ht, if_pos (hs.fits_cutoffs hpass).1]
    rfl

/-- **Where windows and cutoffs overflow.** With valid settings of any size, at any time of 64 bits
and after any run: the window of the time is found if its start fits, and its chunk is created if
its end fits too; the chunk then has a window of the set length around the time. A pass stops just
if its first cutoff lies before all times, and otherwise it is refused just if that cutoff is not
positive. -/
theorem overflow_of_run {settings : ManagerSettings} {disk : Disk} {fresh m : Manager}
    (hnew : Manager.new settings disk = .ok fresh) (hwindow : settings.windowSeconds ≤ lastTime)
    (hr : Manager.Run fresh m) (hs : s.validate = .ok ()) (hdelay : s.staleDelay ≤ lastTime)
    {t : Int} (ht : Time.Fits t) : m.CutsAt t ∧ s.CountsAt m t :=
  ⟨Manager.cutsAt_of_run hnew hwindow hr t, countsAt (ordered_of_validate hs hdelay) ht m⟩

end LifecycleSettings

/-- One chunk, and a pass before all times, which stops instead of being refused. -/
theorem LifecycleSettings.overflow_of_run_sample :
    let fresh : Manager := ⟨{}, TagIndex.empty, Disk.empty, ∅, 0⟩
    let m := (fresh.addLine "put cpu 60 1").state
    let s : LifecycleSettings := {}
    m.CutsAt Text.minInt64 ∧ s.CountsAt m Text.minInt64 ∧ s.runAt m Text.minInt64 = none ∧
      m.windowStart? Text.minInt64 = none := by
  intro fresh m s
  have hnew : Manager.new {} Disk.empty = .ok fresh := rfl
  have run : Manager.Run fresh m := .single (.add "put cpu 60 1")
  have hfits : Time.Fits Text.minInt64 := by decide
  have hover : ¬ Time.Fits (Text.minInt64 - s.staleDelay) := by decide
  have hbegin : ¬ Time.Fits (m.windowStart Text.minInt64) := by decide +kernel
  obtain ⟨hcuts, hcounts⟩ := overflow_of_run (s := s) hnew (by decide) run rfl (by decide) hfits
  exact ⟨hcuts, hcounts, hcounts.runAt.trans (if_neg hover), hcuts.windowStart.trans (if_neg hbegin)⟩

/-- Before all times no pass is made or refused and no window is found, and behind all times no
chunk is created. -/
theorem LifecycleSettings.runAt_before_all_times :
    let fresh : Manager := ⟨{ dataset := "d" }, TagIndex.empty, Disk.empty, ∅, 0⟩
    let m := (fresh.addLine "put cpu 0 1").state
    let s : LifecycleSettings := {}
    Manager.new { dataset := "d" } Disk.empty = .ok fresh ∧ s.validate = .ok () ∧
      (s.runAt m Text.minInt64).isNone ∧ (s.removeAt m Text.minInt64).isNone ∧
      (s.freezeAt m Text.minInt64).isNone ∧ (m.windowStart? Text.minInt64).isNone ∧
      (m.existingAt? Text.minInt64).isNone ∧ (m.chunkAt? lastTime).isNone := by
  intro fresh m s
  refine ⟨rfl, rfl, ?_⟩
  decide +kernel

end TimeSeries
