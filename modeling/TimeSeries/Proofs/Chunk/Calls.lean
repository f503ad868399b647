import Mathlib
import TimeSeries.Chunk
import TimeSeries.Proofs.Store
import TimeSeries.Proofs.TagIndex.Invariant
import TimeSeries.Store.Failing

/-!
# What the calls of a chunk do

What becomes of a chunk when it is called, whatever it is shared with. A chunk that takes no points
refuses them, and there is nothing in it to freeze. A point that a growing chunk is given ends up
behind the points of its metric or nowhere, and freezing puts the frozen copy in the place of the
store or leaves the chunk as it was.
-/

namespace TimeSeries

/-- The file of a store, if it has one, is in the place where it should be. -/
def Store.Placed (s : Store GrowingStore) (d : Disk) (place : Option (List String)) : Prop :=
  match s with
  | .growing _ => True
  | .frozen store => store.records.place? = place ∧ store.records.Owns d

/-- Work in another place leaves the file of a store alone. -/
theorem Store.Placed.apart {s : Store GrowingStore} {d d' : Disk}
    {place other : Option (List String)} (h : s.Placed d place) (hd : Disk.Apart other d d')
    (hne : place = none ∨ place ≠ other) : s.Placed d' place ∧ s.SameFile d d' := by
  cases s with
  | growing store => exact ⟨trivial, trivial⟩
  | frozen store =>
    obtain ⟨rfl, howns⟩ := h
    obtain ⟨howns', hsame⟩ := howns.apart hd hne
    exact ⟨⟨rfl, howns'⟩, hsame⟩

namespace Chunk

variable {c : Chunk GrowingStore} {d : Disk} {tags : TagIndex} {ms : List Metric}
  {f : SeriesId → List Point}

theorem state_eq_growing : c.state = .growing ↔ ∃ s, c.store = some (.growing s) := by
  unfold Chunk.state
  split
  · rename_i h
    simp [h]
  · rename_i s h
    cases s <;> simp [h, Store.isFrozen]

theorem state_eq_frozen : c.state = .frozen ↔ ∃ s, c.store = some (.frozen s) := by
  unfold Chunk.state
  split
  · rename_i h
    simp [h]
  · rename_i s h
    cases s <;> simp [h, Store.isFrozen]

theorem state_eq_evicted : c.state = .evicted ↔ c.store = none := by
  unfold Chunk.state
  split
  · rename_i h
    simp [h]
  · rename_i s h
    cases s <;> simp [h, Store.isFrozen]

/-! ## Adding a point -/

/-- A chunk that takes no points refuses them and changes nothing. -/
theorem addPoint_late (h : c.state ≠ .growing) (tags : TagIndex) (m : Metric) (p : Point) :
    c.addPoint tags m p = (.error (.readOnlyInsertion c.info.dataset), c, tags) := by
  unfold Chunk.addPoint
  split
  · rename_i s hs
    exact absurd (state_eq_growing.mpr ⟨s, hs⟩) h
  · rfl

/-- A point whose metric has an id is taken or refused by the store. -/
theorem addPoint_of_id {s : GrowingStore} {tags' : TagIndex} {m : Metric} {id : SeriesId}
    (hs : c.store = some (.growing s)) (hheld : s.Holds f)
    (hget : tags.getOrCreate m = (.ok id, tags')) (p : Point) :
    ∃ result s', c.addPoint tags m p = (result, { c with store := some (.growing s') }, tags') ∧
      ((∃ e, result = .error e ∧ s'.Holds f) ∨
        (result = .ok () ∧ s'.Holds (Function.update f id (f id ++ [p])))) := by
  cases hadd : s.add id p with
  | mk result s' =>
    refine ⟨result, s', by simp [Chunk.addPoint, hs, hget, PointStore.add, hadd], ?_⟩
    cases result with
    | ok u => exact .inr ⟨rfl, hheld.add hadd⟩
    | error e => exact .inl ⟨e, rfl, hheld.add_error hadd⟩

variable [BlockCodec]

/-- **A point is put behind the points of its metric or nowhere.** In either case the index may have
taken the metric. -/
theorem addPoint_spec {s : Store GrowingStore} {m : Metric} (hs : c.store = some s)
    (hheld : s.Holds d f) (htags : TagIndex.Indexes tags ms) (hm : m.WellFormed) (p : Point) :
    ∃ result s' tags' more,
      c.addPoint tags m p = (result, { c with store := some s' }, tags') ∧
      TagIndex.Indexes tags' (ms ++ more) ∧ (s' = s ∨ ∃ g, s' = .growing g) ∧
      ((∃ e, result = .error e ∧ s'.Holds d f) ∨
        (∃ id n, result = .ok () ∧ TagIndex.metricAt (ms ++ more) id = some n ∧
          n.fullName = m.fullName ∧ s'.Holds d (Function.update f id (f id ++ [p])))) := by
  have same : { c with store := some s } = c := by rw [← hs]
  have htags₀ : TagIndex.Indexes tags (ms ++ []) := by rwa [List.append_nil]
  cases s with
  | frozen s =>
    have hlate := addPoint_late (c := c) (by simp [Chunk.state, hs, Store.isFrozen]) tags m p
    exact ⟨_, _, tags, [], by rw [hlate, same], htags₀, .inl rfl, .inl ⟨_, rfl, hheld⟩⟩
  | growing s =>
    rcases TagIndex.getOrCreate_cases htags hm with
      ⟨e, he⟩ | ⟨id, n, hget, hid, hname⟩ | ⟨tags', hget, htags'⟩
    · refine ⟨.error e, _, tags, [], ?_, htags₀, .inl rfl, .inl ⟨e, rfl, hheld⟩⟩
      simp [Chunk.addPoint, hs, he, same]
    · obtain ⟨result, s', hadd, hcases⟩ := addPoint_of_id hs hheld hget p
      refine ⟨result, _, tags, [], hadd, htags₀, .inr ⟨s', rfl⟩,
        hcases.imp_right fun ⟨hok, h⟩ => ?_⟩
      exact ⟨id, n, hok, by rwa [List.append_nil], hname, h⟩
    · obtain ⟨result, s', hadd, hcases⟩ := addPoint_of_id hs hheld hget p
      refine ⟨result, _, tags', [m], hadd, htags', .inr ⟨s', rfl⟩,
        hcases.imp_right fun ⟨hok, h⟩ => ?_⟩
      exact ⟨_, m, hok, TagIndex.metricAt_snoc.mpr (.inr ⟨rfl, rfl⟩), rfl, h⟩

/-! ## Freezing and closing -/

section AnyStore

variable {σ : Type} [PointStore σ] {c : Chunk σ}

/-- **What freezing a growing chunk comes to, whatever its store does.** A store that fails or has no
frozen form leaves the chunk as it was. A frozen copy takes the place of the store even if the store
cannot be closed, which is reported. -/
theorem freeze_cases {s : σ} (h : c.store = some (.growing s)) (d : Disk) (form : FrozenForm) :
    (∃ e d', PointStore.freeze s d c.info.dataset form = (.error e, d') ∧
      c.freeze d form = ⟨.error e, (c, d'), []⟩) ∨
    (∃ d', PointStore.freeze s d c.info.dataset form = (.ok none, d') ∧
      c.freeze d form = ⟨.ok false, (c, d'), []⟩) ∨
    (∃ frozen d', PointStore.freeze s d c.info.dataset form = (.ok (some frozen), d') ∧
      (c.freeze d form).result = .ok true ∧
      (c.freeze d form).state = ({ c with store := some (.frozen frozen) }, d') ∧
      ∀ e, (PointStore.close s).1 = .error e →
        .event (.chunkCloseFailed c.info.dataset e.message) ∈ (c.freeze d form).signals) := by
  cases hfreeze : PointStore.freeze s d c.info.dataset form with
  | mk result d' =>
    match result with
    | .error e => exact .inl ⟨e, d', rfl, by simp [Chunk.freeze, h, Store.freeze, hfreeze]⟩
    | .ok none =>
      exact .inr (.inl ⟨d', rfl, by simp [Chunk.freeze, h, Store.freeze, hfreeze]⟩)
    | .ok (some frozen) =>
      refine .inr (.inr ⟨frozen, d', rfl, ?_, ?_, fun e he => ?_⟩)
      · simp [Chunk.freeze, h, Store.freeze, hfreeze]
      · simp [Chunk.freeze, h, Store.freeze, hfreeze, Store.close]
      · simp [Chunk.freeze, h, Store.freeze, hfreeze, Store.close, he]

/-- Freezing leaves every chunk as it was unless it answers that it was frozen. -/
theorem freeze_unless_frozen (d : Disk) (form : FrozenForm)
    (h : (c.freeze d form).result ≠ .ok true) :
    (c.freeze d form).state.1 = c ∧ (c.freeze d form).signals = [] := by
  cases hs : c.store with
  | none => constructor <;> simp [Chunk.freeze, hs]
  | some s =>
    cases s with
    | frozen s => constructor <;> simp [Chunk.freeze, hs, Store.freeze]
    | growing s =>
      rcases freeze_cases hs d form with ⟨e, d', -, heq⟩ | ⟨d', -, heq⟩ | ⟨frozen, d', -, hok, -⟩
      · rw [heq]
        exact ⟨rfl, rfl⟩
      · rw [heq]
        exact ⟨rfl, rfl⟩
      · exact absurd hok h

end AnyStore

/-- **A store that fails to be frozen stays in its chunk**, and so does one without a frozen form. A
store without these faults is frozen like a growing store, whatever becomes of closing it. -/
theorem freeze_failing {c : Chunk FailingStore} {s : FailingStore}
    (h : c.store = some (.growing s)) (d : Disk) (form : FrozenForm) :
    match s.faults.freezing with
    | some (.fails e) => c.freeze d form = ⟨.error e, (c, d), []⟩
    | some .noForm => c.freeze d form = ⟨.ok false, (c, d), []⟩
    | none =>
      match s.store.freeze d c.info.dataset form with
      | (.error e, d') => c.freeze d form = ⟨.error e, (c, d'), []⟩
      | (.ok frozen, d') => (c.freeze d form).result = .ok true ∧
          (c.freeze d form).state = ({ c with store := some (.frozen frozen) }, d') ∧
          ∀ e, s.faults.closing = some e →
            .event (.chunkCloseFailed c.info.dataset e.message) ∈ (c.freeze d form).signals := by
  have hcases := freeze_cases h d form
  simp only [PointStore.freeze, FailingStore.freeze, PointStore.close, FailingStore.close] at hcases
  cases hfault : s.faults.freezing with
  | some fault => cases fault <;> simpa [hfault] using hcases
  | none =>
    cases hfreeze : s.store.freeze d c.info.dataset form with
    | mk result d' =>
      cases result with
      | error e => simpa [hfault, hfreeze] using hcases
      | ok frozen =>
        simp only [hfault, hfreeze] at hcases
        rcases hcases with ⟨_, _, hno, -⟩ | ⟨_, hno, -⟩ | ⟨_, _, hyes, hok, hstate, hclose⟩
        · cases hno
        · cases hno
        · cases hyes
          exact ⟨hok, hstate, fun e he => hclose e (by rw [he])⟩

/-- What freezing a chunk with a growing store comes to: a failure that leaves the chunk as it was,
or a frozen copy in the place of the store. -/
theorem freeze_growing {s : GrowingStore} (h : c.store = some (.growing s)) (d : Disk)
    (form : FrozenForm) :
    (∃ e d', s.freeze d c.info.dataset form = (.error e, d') ∧
      (c.freeze d form).result = .error e ∧ (c.freeze d form).state = (c, d')) ∨
    (∃ frozen d', s.freeze d c.info.dataset form = (.ok frozen, d') ∧
      (c.freeze d form).result = .ok true ∧
      (c.freeze d form).state = ({ c with store := some (.frozen frozen) }, d')) := by
  have hcases := freeze_cases h d form
  cases hfreeze : s.freeze d c.info.dataset form with
  | mk result d' =>
    cases result with
    | error e =>
      have heq : c.freeze d form = ⟨.error e, (c, d'), []⟩ := by
        simpa [PointStore.freeze, hfreeze] using hcases
      exact .inl ⟨e, d', rfl, by rw [heq], by rw [heq]⟩
    | ok frozen =>
      simp only [PointStore.freeze, hfreeze] at hcases
      rcases hcases with ⟨_, _, hno, -⟩ | ⟨_, hno, -⟩ | ⟨_, _, hyes, hok, hstate, -⟩
      · cases hno
      · cases hno
      · cases hyes
        exact .inr ⟨frozen, d', rfl, hok, hstate⟩

/-- There is nothing to freeze in a chunk that takes no points. -/
theorem freeze_late (h : c.state ≠ .growing) (d : Disk) (form : FrozenForm) :
    (c.freeze d form).result = .ok false ∧ (c.freeze d form).state = (c, d) := by
  cases hs : c.store with
  | none => constructor <;> simp [Chunk.freeze, hs]
  | some s =>
    cases s with
    | growing s => exact absurd (state_eq_growing.mpr ⟨s, hs⟩) h
    | frozen s => constructor <;> simp [Chunk.freeze, hs, Store.freeze]

omit [BlockCodec] in
/-- Closing evicts every chunk, also one whose store cannot be closed. -/
theorem store_close {σ : Type} [PointStore σ] (c : Chunk σ) (d : Disk) :
    (c.close d).2.1.store = none := by
  unfold Chunk.close
  split
  · rename_i h
    exact h
  · rfl

omit [BlockCodec] in
/-- Closing works on the file of the store only. -/
theorem apart_close {s : Store GrowingStore} {place : Option (List String)}
    (hs : c.store = some s) (hd : d.WellFormed) (hp : s.Placed d place) :
    Disk.Apart place d (c.close d).2.2 := by
  rw [Chunk.close, hs]
  cases s with
  | growing s => exact .refl hd
  | frozen s =>
    obtain ⟨rfl, -⟩ := hp
    exact RecordMap.apart_close hd

end Chunk

end TimeSeries
