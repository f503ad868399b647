import Mathlib
import TimeSeries.Proofs.IngestLine
import TimeSeries.Proofs.Manager.Run
import TimeSeries.Proofs.Series.Acceptance

/-!
# What a refused line leaves behind

Before a line can be refused, adding it may have created a chunk, given an id to a metric and
started a series, and none of this is undone. Nothing needs to be: each of these things is a
beginning, and what has just begun refuses nothing. A new chunk takes points, a metric that has just
come has no points in any chunk, and the first point of a series fits every code. So a line is
refused by what was there before, which is left as it was.

The argument goes from the inside out, from series to stores, chunks and managers. The two kinds of
refusals are the two in `Refused`.
-/

namespace TimeSeries

/-- The input is wrong, or it comes too late. -/
def Error.Refused (e : Error) : Prop := e.Invalidated ∨ ∃ dataset, e = .readOnlyInsertion dataset

variable {e : Error}

/-! ## Points that a store refuses -/

/-- A store refuses a point only for a series with points, and stays as it was. -/
theorem GrowingStore.add_refused {s s' : GrowingStore} {f : SeriesId → List Point} {id : SeriesId}
    {p : Point} (hs : s.Holds f) (hp : PointTime p.time) (h : s.add id p = (.error e, s')) :
    s' = s ∧ e.Invalidated ∧ f id ≠ [] := by
  unfold GrowingStore.add at h
  rw [hs.opened, if_neg Bool.false_ne_true] at h
  cases happend : (s.series.getD id Series.empty).append p with
  | mk result series =>
    simp only [happend, Prod.mk.injEq] at h
    obtain ⟨rfl, rfl⟩ := h
    obtain ⟨rfl, hinvalid, hunfit⟩ := (hs.series id).append_eq_error happend
    have hne : f id ≠ [] := by
      intro hnil
      rw [hnil] at hunfit
      exact Series.not_unfit_nil hp hunfit
    refine ⟨?_, hinvalid, hne⟩
    -- a series with points is in the store, and it is put back
    cases hseries : s.series[id]? with
    | none => exact absurd (hs.of_none hseries) hne
    | some series =>
      rw [Std.TreeMap.getD_eq_getD_getElem?, hseries, Option.getD_some,
        TreeMap.insert_of_getElem? hseries, ← hs.opened]

/-! ## Points that a chunk refuses -/

/-- A chunk refuses a point if it takes none, or if it has points of the metric already. In either
case it stays as it was, and so does the index. -/
theorem Chunk.addPoint_refused {c : Chunk GrowingStore} {start : Int} {form : FrozenForm}
    {tags : TagIndex} {ms : List Metric} (hc : c.Sound start form ms)
    (htags : TagIndex.Indexes tags ms) (hroom : tags.HasRoom) {m : Metric} (hm : m.WellFormed)
    {p : Point} (hp : PointTime p.time) (h : (c.addPoint tags m p).1 = .error e) :
    (c.addPoint tags m p).2 = (c, tags) ∧ e.Refused ∧
      c.store ≠ some (.growing GrowingStore.empty) := by
  by_cases hgrowing : c.state = .growing
  · obtain ⟨store, hs⟩ := state_eq_growing.mp hgrowing
    obtain ⟨f, hheld, hknown⟩ := hc.store _ hs
    cases hget : tags.getOrCreate m with
    | mk given tags' =>
      cases given with
      | error e' => exact absurd hget (TagIndex.getOrCreate_of_hasRoom htags hroom m)
      | ok id =>
        cases hadd : store.add id p with
        | mk result store' =>
          have hresult : c.addPoint tags m p =
              (result, { c with store := some (.growing store') }, tags') := by
            simp [Chunk.addPoint, hs, hget, PointStore.add, hadd]
          rw [hresult] at h ⊢
          obtain rfl : result = .error e := h
          obtain ⟨rfl, hinvalid, hne⟩ := GrowingStore.add_refused hheld hp hadd
          have hsame : tags' = tags := by
            rcases TagIndex.getOrCreate_cases htags hm with
              ⟨e', he⟩ | ⟨id', n, hid, -, -⟩ | ⟨index', hid, -⟩
            · exact absurd (hget.symm.trans he) (by simp)
            · exact (Prod.mk.inj (hget.symm.trans hid)).2
            · -- a metric that has just come has no points
              obtain rfl := Except.ok.inj (Prod.mk.inj (hget.symm.trans hid)).1
              obtain ⟨n, hn⟩ := hknown _ hne
              exact absurd (TagIndex.lt_of_metricAt hn) (Nat.lt_irrefl _)
          refine ⟨by rw [hsame, ← hs], .inl hinvalid, ?_⟩
          rw [hs]
          intro hempty
          obtain rfl := Store.growing.inj (Option.some_inj.mp hempty)
          have hzero := (hheld.series id).count_eq
          rw [show GrowingStore.empty.series.getD id Series.empty = Series.empty from
            Std.TreeMap.getD_emptyc] at hzero
          exact hne (List.eq_nil_of_length_eq_zero hzero.symm)
  · rw [addPoint_late hgrowing tags m p] at h ⊢
    refine ⟨rfl, .inr ⟨_, (Except.error.inj h).symm⟩, fun hempty => hgrowing ?_⟩
    exact state_eq_growing.mpr ⟨_, hempty⟩

/-! ## Lines that a manager refuses -/

namespace Manager

variable {settings : ManagerSettings} {m : Manager} {ms : List Metric} {line : String}

/-- A chunk that was just created takes every point. -/
theorem chunkAt_of_store_ne {t : Int}
    (h : (m.chunkAt t).1.chunk.store ≠ some (.growing GrowingStore.empty)) :
    (m.chunkAt t).2 = (m, []) := by
  unfold chunkAt at h ⊢
  split at h
  · rfl
  · exact absurd rfl h

/-- A record is refused by a chunk that was there before, or because of its time. -/
theorem Sound.addRecord_refused (h : m.Sound settings ms) (hroom : m.tags.HasRoom) {r : PutRecord}
    (hm : r.metric.WellFormed) (he : (m.addRecord r).result = .error e) :
    m.addRecord r = ⟨.error e, m, []⟩ ∧ e.Refused := by
  by_cases hr : PointTime r.point.time
  · obtain ⟨hcreated, hc⟩ := h.chunkAt r.point.time
    have htags : (m.chunkAt r.point.time).2.1.tags = m.tags := by
      unfold Manager.chunkAt
      split <;> rfl
    have hleave := chunkAt_of_store_ne (m := m) (t := r.point.time)
    have hrange : 0 ≤ r.point.time ∧ r.point.time ≤ maxTime := hr
    have hrecord : m.addRecord r = _ := if_pos hrange
    rw [hrecord] at he ⊢
    cases hat : m.chunkAt r.point.time with
    | mk c after =>
      obtain ⟨m₁, signals⟩ := after
      rw [hat] at hcreated hc htags hleave he
      dsimp only at hcreated hc htags hleave he ⊢
      have hsound := hcreated.chunks _ _ hc
      rw [addHeld_eq hc hsound.start] at he ⊢
      dsimp only at he ⊢
      obtain ⟨hleft, hkind, hstore⟩ := Chunk.addPoint_refused hsound hcreated.tags
        (by rw [htags]; exact hroom) hm hr he
      -- so the chunk was not created for the record, and is put back as it is
      obtain ⟨rfl, rfl⟩ := Prod.mk.inj (hleave hstore)
      rw [he, hleft, TreeMap.insert_of_getElem? hc]
      exact ⟨rfl, hkind⟩
  · rw [addRecord_outOfRange hr] at he ⊢
    obtain rfl := Except.error.inj he
    exact ⟨rfl, .inl ⟨_, rfl⟩⟩

variable [BlockCodec]

/-- **A line that is refused leaves everything as it was**: the chunks and what they hold, the
index, the disk, and with them the answer to every query. There is no signal of a chunk that was
created either. The line is wrong or comes too late; what is asked is only that there is an id left
for its metric. -/
theorem addLine_refused {disk : Disk} {fresh : Manager}
    (hnew : Manager.new settings disk = .ok fresh) (hr : Run fresh m) (hroom : m.tags.HasRoom)
    (he : (m.addLine line).result = .error e) :
    m.addLine line = ⟨.error e, m, []⟩ ∧ (e.isInvalid = true ∨ e.isReadOnlyInsertion = true) := by
  obtain ⟨ms, h⟩ := sound_of_run hnew hr
  have hrefused : m.addLine line = ⟨.error e, m, []⟩ ∧ e.Refused := by
    rw [addLine] at he ⊢
    cases hparse : PutRecord.parse line with
    | error e' =>
      rw [hparse] at he
      obtain rfl := Except.error.inj he
      exact ⟨rfl, .inl (PutRecord.failsOnly_parse line _ hparse)⟩
    | ok r =>
      rw [hparse] at he
      exact h.addRecord_refused hroom (PutRecord.wellFormed_of_parse hparse) he
  refine ⟨hrefused.1, ?_⟩
  rcases hrefused.2 with ⟨why, rfl⟩ | ⟨dataset, rfl⟩
  · exact .inl rfl
  · exact .inr rfl

end Manager

/-- In one long window, a time that is too far from the two before. -/
theorem Manager.addLine_refused_far :
    let fresh : Manager := ⟨{ windowSeconds := 4294967296 }, TagIndex.empty, Disk.empty, ∅, 0⟩
    let m := ((fresh.addLine "put cpu 0 1").state.addLine "put cpu 2147483647 2").state
    m.addLine "put cpu 0 3" = ⟨.error (.invalid (.deltaOfDelta (-4294967294))), m, []⟩ ∧
      (Error.invalid (.deltaOfDelta (-4294967294))).isInvalid = true := by
  intro fresh m
  have run : Run fresh m := .tail (.single (.add "put cpu 0 1")) (.add "put cpu 2147483647 2")
  have hnew : Manager.new { windowSeconds := 4294967296 } Disk.empty = .ok fresh := rfl
  have hroom : m.tags.names.size + TagIndex.firstId ≤ TagIndex.maxId := by decide +kernel
  have he : (m.addLine "put cpu 0 3").result = .error (.invalid (.deltaOfDelta (-4294967294))) := by
    decide +kernel
  exact ⟨(addLine_refused hnew run hroom he).1, rfl⟩

end TimeSeries
