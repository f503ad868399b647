import Mathlib
import TimeSeries.Proofs.Manager.Late

/-!
# Which lines a manager takes

A series refuses a point that changes the distance between its points by too much. In a manager
whose windows are at most `2 ^ 30` seconds long no point is ever refused for that. A point reaches
a series only in the chunk of its own window, so the points of a series lie less than a window
apart, in whatever order they come, and two distances differ by less than two windows. The first
distance is not one between two points, but it is shorter still, as a block is shorter than the
longest window.

So what is left to decide about a record is its time, and whether the chunk of its window still
takes points.
-/

namespace TimeSeries

variable {length start t u : Int} {ps : List Point} {p : Point}

/-! ## Points of one window -/

/-- Two times of one window are less than a window apart. -/
theorem Time.sub_lt_of_floor_eq (hl : 0 < length) (h : floor length t = floor length u) :
    t - u < length := by
  have hlt := lt_floor_add hl t
  have hle := floor_le hl u
  omega

namespace Series

/-- No distance between points of a window reaches the length of the longest window, and the
distance of the first point to its block does not either. -/
theorem lastDistance_bounds (hl : 0 < length) (hl' : length ≤ 2 ^ 30)
    (hps : ∀ q ∈ ps, Time.floor length q.time = start) :
    -(2 ^ 30) < lastDistance ps ∧ lastDistance ps < 2 ^ 30 := by
  rcases List.eq_nil_or_concat ps with rfl | ⟨before, last, rfl⟩
  · have hnone : lastDistance [] = 0 := rfl
    omega
  · rw [List.concat_eq_append] at hps ⊢
    rw [lastDistance_concat]
    have hlast := hps last (List.mem_append_right _ List.mem_cons_self)
    cases hbefore : before.getLast? with
    | none =>
      dsimp only
      rw [blockSeconds]
      omega
    | some q =>
      have hq := hps q (List.mem_append_left _ (List.mem_of_getLast? hbefore))
      have hforth := Time.sub_lt_of_floor_eq hl (hlast.trans hq.symm)
      have hback := Time.sub_lt_of_floor_eq hl (hq.trans hlast.symm)
      dsimp only
      omega

/-- **A point always fits the other points of its window**, in whatever order they came. -/
theorem fit_of_window (hl : 0 < length) (hl' : length ≤ 2 ^ 30)
    (hps : ∀ q ∈ ps, Time.floor length q.time = start) (hp : PointTime p.time)
    (hstart : Time.floor length p.time = start) : ¬ Unfit ps p := by
  intro hunfit
  rcases hunfit with hrange | ⟨last, hlast, hfar⟩
  · exact hrange hp
  · obtain ⟨hlow, hhigh⟩ := lastDistance_bounds hl hl' hps
    have hsame := hps last (List.mem_of_getLast? hlast)
    have hforth := Time.sub_lt_of_floor_eq hl (hstart.trans hsame.symm)
    have hback := Time.sub_lt_of_floor_eq hl (hsame.trans hstart.symm)
    omega

end Series

/-! ## Chunks -/

/-- A store that holds points of one window only. -/
def GrowingStore.Within (s : GrowingStore) (length start : Int) : Prop :=
  ∃ f, s.Holds f ∧ ∀ id, ∀ p ∈ f id, Time.floor length p.time = start

namespace Chunk

variable {c : Chunk GrowingStore} {tags : TagIndex} {m : Metric}

/-- As long as it takes points, a chunk holds points of one window only. -/
def Within (length start : Int) (c : Chunk GrowingStore) : Prop :=
  ∀ s, c.store = some (.growing s) → s.Within length start

theorem within_new (info : ChunkInfo) : (Chunk.new info).Within length start := by
  intro s hs
  obtain rfl := Store.growing.inj (Option.some_inj.mp hs)
  exact ⟨fun _ => [], GrowingStore.holds_empty, fun id p hp => absurd hp (by simp)⟩

theorem Within.addPoint (h : c.Within length start) (hstart : Time.floor length p.time = start) :
    (c.addPoint tags m p).2.1.Within length start := by
  unfold Chunk.addPoint
  split
  · rename_i store hstore
    obtain ⟨f, hheld, hf⟩ := h store hstore
    split
    · exact h
    · rename_i id tags' hget
      cases hadd : store.add id p with
      | mk result store' =>
        intro s hs
        simp only [PointStore.add, hadd, Option.some_inj, Store.growing.injEq] at hs
        subst hs
        cases result with
        | error e => exact ⟨f, hheld.add_error hadd, hf⟩
        | ok u =>
          refine ⟨_, hheld.add hadd, fun other q hq => ?_⟩
          by_cases hother : other = id
          · rw [hother, Function.update_self] at hq
            rcases List.mem_append.mp hq with hq | hq
            · exact hf id q hq
            · rwa [List.mem_singleton.mp hq]
          · rw [Function.update_of_ne hother] at hq
            exact hf other q hq
  · exact h

theorem Within.freeze [BlockCodec] (h : c.Within length start) (d : Disk) (form : FrozenForm) :
    (c.freeze d form).state.1.Within length start := by
  by_cases hstate : c.state = .growing
  · obtain ⟨store, hstore⟩ := state_eq_growing.mp hstate
    rcases freeze_growing hstore d form with ⟨e, d', -, -, hsame⟩ | ⟨frozen, d', -, -, hfrozen⟩
    · rw [hsame]
      exact h
    · rw [hfrozen]
      intro s hs
      exact absurd hs (by simp)
  · rw [(freeze_late hstate d form).2]
    exact h

/-- A chunk that takes points takes every point of its window. -/
theorem Within.addPoint_ok {ms : List Metric} (h : c.Within length start) (hl : 0 < length)
    (hl' : length ≤ 2 ^ 30) (hgrowing : c.state = .growing) (htags : TagIndex.Indexes tags ms)
    (hroom : tags.HasRoom) (hp : PointTime p.time) (hstart : Time.floor length p.time = start) :
    (c.addPoint tags m p).1 = .ok () := by
  obtain ⟨store, hstore⟩ := state_eq_growing.mp hgrowing
  obtain ⟨f, hheld, hf⟩ := h store hstore
  cases hget : tags.getOrCreate m with
  | mk given tags' =>
    cases given with
    | error e => exact absurd hget (TagIndex.getOrCreate_of_hasRoom htags hroom m)
    | ok id =>
      have hfit := Series.fit_of_window hl hl' (hf id) hp hstart
      obtain ⟨series, hseries⟩ := (hheld.series id).append_of_fit hfit
      simp [Chunk.addPoint, hstore, hget, PointStore.add, GrowingStore.add, hheld.opened, hseries]

end Chunk

/-! ## Managers -/

namespace Manager

variable {settings : ManagerSettings} {ms : List Metric} {m : Manager} {r : PutRecord}
  [BlockCodec]

/-- After any run, a chunk that takes points holds points of its window only. -/
theorem within_of_run {disk : Disk} {fresh : Manager}
    (hnew : Manager.new settings disk = .ok fresh) (hr : Run fresh m) :
    m.EachChunk (Chunk.Within settings.windowSeconds) := by
  refine eachChunk_of_run hnew ⟨fun start => Chunk.within_new _, ?_, ?_⟩ hr
  · intro chunk tags metric p hp h
    refine h.addPoint ?_
    rw [windowStart, (sound_new hnew).settings_eq]
  · intro start chunk d form h
    exact h.freeze d form

omit [BlockCodec] in
/-- A record is taken if there is no chunk for its window, or one that takes points. -/
theorem Sound.addRecord_ok (h : m.Sound settings ms)
    (hwithin : m.EachChunk (Chunk.Within settings.windowSeconds))
    (hl : 0 < settings.windowSeconds) (hl' : settings.windowSeconds ≤ 2 ^ 30)
    (hroom : m.tags.HasRoom) (hm : r.metric.WellFormed) (hr : PointTime r.point.time)
    (hopen : ∀ c, m.existing? r.point.time = some c → c.chunk.state = .growing) :
    (m.addRecord r).result = .ok () := by
  cases hc : m.chunks[m.windowStart r.point.time]? with
  | none => exact h.addRecord_first hroom hm hr hc
  | some c =>
    have hresult := congrArg Prod.fst (addRecord_inRange (m := m) hr)
    rw [chunkAt_of_existing hc, addHeld_eq hc (h.chunks _ c hc).start] at hresult
    refine hresult.trans ?_
    refine (hwithin _ c hc).addPoint_ok hl hl' (hopen c hc) h.tags hroom hr ?_
    rw [windowStart, h.settings_eq]

omit [BlockCodec] in
/-- A record that is not taken has a time that no point has, or comes too late. -/
theorem Sound.addRecord_cases (h : m.Sound settings ms)
    (hwithin : m.EachChunk (Chunk.Within settings.windowSeconds))
    (hl : 0 < settings.windowSeconds) (hl' : settings.windowSeconds ≤ 2 ^ 30)
    (hroom : m.tags.HasRoom) (hm : r.metric.WellFormed) :
    ((m.addRecord r).result = .ok () ∧ PointTime r.point.time ∧
      ∀ c, m.existing? r.point.time = some c → c.chunk.state = .growing) ∨
    ((m.addRecord r).result = .error (.invalid (.timeOutsideStore r.point.time)) ∧
      ¬ PointTime r.point.time) ∨
    ∃ c, (m.addRecord r).result = .error (.readOnlyInsertion c.chunk.info.dataset) ∧
      m.existing? r.point.time = some c ∧ c.chunk.state ≠ .growing := by
  by_cases hr : PointTime r.point.time
  · by_cases hopen : ∀ c, m.existing? r.point.time = some c → c.chunk.state = .growing
    · exact .inl ⟨h.addRecord_ok hwithin hl hl' hroom hm hr hopen, hr, hopen⟩
    · rw [not_forall] at hopen
      obtain ⟨c, hopen⟩ := hopen
      rw [Classical.not_imp] at hopen
      obtain ⟨hc, hstate⟩ := hopen
      refine .inr (.inr ⟨c, ?_, hc, hstate⟩)
      rw [h.addRecord_late hc (bne_iff_ne.mpr hstate) hr]
  · refine .inr (.inl ⟨?_, hr⟩)
    rw [addRecord_outOfRange hr]

/-- **A line is taken just if it is a record, its time is one of a point, and the chunk of its
window is absent or takes points.** That is so after any run of a manager with windows of at most
`2 ^ 30` seconds, as long as there is an id left. No record is refused for the distance of its
point to others, whatever the order in which the points of a window come. -/
theorem addLine_ok_iff {disk : Disk} {fresh : Manager}
    (hnew : Manager.new settings disk = .ok fresh) (hlength : settings.windowSeconds ≤ 2 ^ 30)
    (hr : Run fresh m) (hroom : m.tags.HasRoom) (line : String) :
    ((m.addLine line).result = .ok () ↔
      ∃ r, PutRecord.parse line = .ok r ∧ (0 ≤ r.point.time ∧ r.point.time ≤ maxTime) ∧
        ∀ c, m.existing? r.point.time = some c → c.chunk.state = .growing) ∧
    ∀ r change, PutRecord.parse line = .ok r →
      (m.addLine line).result ≠ .error (.invalid (.deltaOfDelta change)) := by
  obtain ⟨ms, h⟩ := sound_of_run hnew hr
  have hwithin := within_of_run hnew hr
  rw [addLine]
  cases hparse : PutRecord.parse line with
  | error e =>
    refine ⟨⟨fun hok => absurd hok (by simp), ?_⟩, fun r change hr => absurd hr (by simp)⟩
    intro hrecord
    obtain ⟨r, hr, -⟩ := hrecord
    exact absurd hr (by simp)
  | ok r =>
    dsimp only
    rcases h.addRecord_cases hwithin (pos_of_new hnew) hlength hroom
        (PutRecord.wellFormed_of_parse hparse) with
      ⟨hok, htime, hopen⟩ | ⟨herror, htime⟩ | ⟨c, herror, hc, hstate⟩
    · rw [hok]
      exact ⟨⟨fun _ => ⟨r, rfl, htime, hopen⟩, fun _ => rfl⟩, fun _ _ _ => by simp⟩
    · rw [herror]
      refine ⟨⟨fun hok => absurd hok (by simp), ?_⟩, fun _ _ _ => by simp⟩
      intro hrecord
      obtain ⟨r', hr', htime', -⟩ := hrecord
      obtain rfl := Except.ok.inj hr'
      exact absurd htime' htime
    · rw [herror]
      refine ⟨⟨fun hok => absurd hok (by simp), ?_⟩, fun _ _ _ => by simp⟩
      intro hrecord
      obtain ⟨r', hr', -, hopen⟩ := hrecord
      obtain rfl := Except.ok.inj hr'
      exact absurd (hopen c hc) hstate

end Manager

/-- The longest windows for which this holds, and points at both ends of one of them. What the third
point changes is one less than the code holds. -/
theorem Manager.addLine_ok_iff_sample :
    let fresh : Manager := ⟨{ windowSeconds := 1073741824 }, TagIndex.empty, Disk.empty, ∅, 0⟩
    let m := ((fresh.addLine "put cpu 0 1").state.addLine "put cpu 1073741823 2").state
    Run fresh m ∧ (m.addLine "put cpu 0 3").result = .ok () := by
  intro fresh m
  have hnew : Manager.new { windowSeconds := 1073741824 } Disk.empty = .ok fresh := rfl
  have run : Run fresh m := .tail (.single (.add "put cpu 0 1")) (.add "put cpu 1073741823 2")
  have hroom : m.tags.names.size + TagIndex.firstId ≤ TagIndex.maxId := by decide +kernel
  have hparse : PutRecord.parse "put cpu 0 3" = .ok ⟨⟨"cpu", []⟩, ⟨0, 0x4008000000000000⟩⟩ := by
    decide +kernel
  have hstate : (m.existing? 0).map (·.chunk.state) = some .growing := by decide +kernel
  refine ⟨run, (addLine_ok_iff hnew (by decide) run hroom "put cpu 0 3").1.mpr ?_⟩
  refine ⟨_, hparse, by decide, fun c hc => ?_⟩
  rw [hc] at hstate
  exact Option.some_inj.mp hstate

/-- In windows that are one second longer, the third point can be too far from the two before. -/
example :
    let fresh : Manager := ⟨{ windowSeconds := 1073741825 }, TagIndex.empty, Disk.empty, ∅, 0⟩
    let m := ((fresh.addLine "put cpu 0 1").state.addLine "put cpu 1073741824 2").state
    (m.addLine "put cpu 0 3").result = .error (.invalid (.deltaOfDelta (-2147483648))) := by
  decide +kernel

end TimeSeries
