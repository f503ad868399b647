import Mathlib
import TimeSeries.Proofs.Chunk.Answer
import TimeSeries.Proofs.Chunk.Calls

/-!
# The life of a chunk

A chunk lives in a world with a tag index, into which other chunks put metrics, and a disk, on
which others work too. A step of the world is one call of the chunk or anything that the others
do, as long as they leave the content of the file alone in which the chunk keeps its frozen store.

What holds in all worlds that are reached from a new chunk is `Holds w ms f`: the index holds the
metrics `ms` and the store, while there is one, the points `f`. Freezing keeps `f`, whether or not
it succeeds, and from then on nothing but closing changes it. Since an answer depends only on `f`
and on metrics that are in the index already, it does not change either.
-/

namespace TimeSeries

/-- How far a chunk has come. -/
def ChunkState.rank : ChunkState → Nat
  | growing => 0
  | frozen => 1
  | evicted => 2

/-- A chunk with what it shares with others. -/
structure ChunkWorld where
  chunk : Chunk GrowingStore
  tags : TagIndex
  disk : Disk

namespace ChunkWorld

/-- The world of a new chunk, whose tag index has taken some metrics. -/
def start (info : ChunkInfo) (calls : List Metric) (disk : Disk) : ChunkWorld :=
  ⟨Chunk.new info, (TagIndex.empty.takeEach calls).2, disk⟩

/-- The world after a point was added. -/
def add (w : ChunkWorld) (m : Metric) (p : Point) : ChunkWorld :=
  let after := (w.chunk.addPoint w.tags m p).2
  { w with chunk := after.1, tags := after.2 }

/-- The world after the chunk was closed. -/
def close (w : ChunkWorld) : ChunkWorld :=
  let after := (w.chunk.close w.disk).2
  { w with chunk := after.1, disk := after.2 }

/-- The content of the file of the frozen store, if there is one, is the same on another disk. -/
def Untouched (w : ChunkWorld) (disk : Disk) : Prop :=
  ∀ s, w.chunk.store = some s → s.SameFile w.disk disk

variable [BlockCodec]

/-- The world after the chunk was to be frozen. -/
def freeze (w : ChunkWorld) (form : FrozenForm) : ChunkWorld :=
  let after := (w.chunk.freeze w.disk form).state
  { w with chunk := after.1, disk := after.2 }

/-- The answer to a query, with what is reported beside it. -/
def answer (w : ChunkWorld) (q : Query) : Except Error (List MetricPoints) × List Signal :=
  w.chunk.query w.disk w.tags q

/-- One call of the chunk, or anything that the others do. -/
inductive Step : ChunkWorld → ChunkWorld → Prop
  | add {w : ChunkWorld} {m : Metric} (p : Point) :
      (∃ name tags, Metric.new name tags = .ok m) → Step w (w.add m p)
  | freeze {w : ChunkWorld} (form : FrozenForm) : Step w (w.freeze form)
  | query {w : ChunkWorld} (q : Query) : Step w w
  | close {w : ChunkWorld} : Step w w.close
  | others {w : ChunkWorld} {calls : List Metric} {disk : Disk} :
      (∀ m ∈ calls, ∃ name tags, Metric.new name tags = .ok m) → w.Untouched disk →
        Step w { w with tags := (w.tags.takeEach calls).2, disk }

/-- Any number of steps. -/
abbrev Run : ChunkWorld → ChunkWorld → Prop := Relation.ReflTransGen Step

variable {w w' : ChunkWorld} {ms : List Metric} {f : SeriesId → List Point} {form : FrozenForm}

/-! ## What the calls do -/

/-- What freezing a growing chunk comes to in its world. -/
theorem freeze_growing {s : GrowingStore} (h : w.chunk.store = some (.growing s))
    (form : FrozenForm) :
    (∃ e disk, s.freeze w.disk w.chunk.info.dataset form = (.error e, disk) ∧
      (w.chunk.freeze w.disk form).result = .error e ∧ w.freeze form = { w with disk }) ∨
    (∃ frozen disk, s.freeze w.disk w.chunk.info.dataset form = (.ok frozen, disk) ∧
      (w.chunk.freeze w.disk form).result = .ok true ∧
      w.freeze form =
        { w with chunk := { w.chunk with store := some (.frozen frozen) }, disk }) := by
  rcases Chunk.freeze_growing h w.disk form with
    ⟨e, disk, hfreeze, hresult, hstate⟩ | ⟨frozen, disk, hfreeze, hresult, hstate⟩
  · exact .inl ⟨e, disk, hfreeze, hresult, by rw [ChunkWorld.freeze, hstate]⟩
  · exact .inr ⟨frozen, disk, hfreeze, hresult, by rw [ChunkWorld.freeze, hstate]⟩

theorem freeze_late (h : w.chunk.state ≠ .growing) (form : FrozenForm) :
    (w.chunk.freeze w.disk form).result = .ok false ∧ w.freeze form = w := by
  obtain ⟨hresult, hstate⟩ := Chunk.freeze_late h w.disk form
  exact ⟨hresult, by rw [ChunkWorld.freeze, hstate]⟩

omit [BlockCodec] in
theorem store_close : w.close.chunk.store = none := Chunk.store_close _ _

/-! ## What a world holds -/

/-- The index holds some metrics, and the store, while there is one, some points of them. -/
structure Holds (w : ChunkWorld) (ms : List Metric) (f : SeriesId → List Point) : Prop where
  tags : TagIndex.Indexes w.tags ms
  known : Chunk.Known ms f
  store : ∀ s, w.chunk.store = some s → s.Holds w.disk f

theorem Holds.answer_eq (h : w.Holds ms f) (hs : w.chunk.state ≠ .evicted) (q : Query) :
    w.answer q = (.ok (Chunk.answer w.tags f q), []) := by
  cases hstore : w.chunk.store with
  | none => exact absurd (Chunk.state_eq_evicted.mpr hstore) hs
  | some s => exact Chunk.query_eq hstore (h.store s hstore) q

theorem answer_evicted (h : w.chunk.state = .evicted) (q : Query) : w.answer q = (.ok [], []) := by
  rw [answer, Chunk.query, Chunk.state_eq_evicted.mp h]

/-- Adding a point keeps the metrics, and may put one more behind them and one more point into the
store. -/
theorem Holds.add (h : w.Holds ms f) {m : Metric} (hm : m.WellFormed) (p : Point) :
    ∃ ms' f', (w.add m p).Holds ms' f' := by
  cases hs : w.chunk.store with
  | none =>
    have hlate := Chunk.addPoint_late (c := w.chunk) (by simp [Chunk.state, hs]) w.tags m p
    refine ⟨ms, f, ?_⟩
    simpa only [ChunkWorld.add, hlate] using h
  | some s =>
    obtain ⟨result, s', tags, more, hadd, htags, -, hcases⟩ :=
      Chunk.addPoint_spec hs (h.store s hs) h.tags hm p
    have hw : w.add m p = { w with chunk := { w.chunk with store := some s' }, tags } := by
      rw [ChunkWorld.add, hadd]
    rw [hw]
    rcases hcases with ⟨e, -, hheld⟩ | ⟨id, n, -, hid, -, hheld⟩
    · refine ⟨_, f, htags, h.known.append, fun t ht => ?_⟩
      obtain rfl := Option.some_inj.mp ht
      exact hheld
    · refine ⟨_, Function.update f id (f id ++ [p]), htags, fun other ho => ?_, fun t ht => ?_⟩
      · by_cases heq : other = id
        · exact ⟨n, heq ▸ hid⟩
        · rw [Function.update_of_ne heq] at ho
          exact h.known.append other ho
      · obtain rfl := Option.some_inj.mp ht
        exact hheld

/-- Freezing keeps what is held, whether or not it succeeds. -/
theorem Holds.freeze [LawfulBlockCodec] (h : w.Holds ms f) (form : FrozenForm) :
    (w.freeze form).Holds ms f := by
  by_cases hs : w.chunk.state = .growing
  · obtain ⟨s, hs⟩ := Chunk.state_eq_growing.mp hs
    have hheld : s.Holds f := h.store _ hs
    rcases freeze_growing hs form with ⟨e, disk, -, -, hw⟩ | ⟨frozen, disk, hfreeze, -, hw⟩
    · rw [hw]
      refine ⟨h.tags, h.known, fun s' hs' => ?_⟩
      obtain rfl := Option.some_inj.mp (hs.symm.trans hs')
      exact hheld
    · rw [hw]
      refine ⟨h.tags, h.known, fun s' hs' => ?_⟩
      obtain rfl := Option.some_inj.mp hs'
      exact hheld.freeze hfreeze
  · rw [(freeze_late hs form).2]
    exact h

theorem Holds.close (h : w.Holds ms f) : w.close.Holds ms f where
  tags := h.tags
  known := h.known
  store := fun s hs => by
    rw [store_close] at hs
    exact absurd hs (by simp)

theorem Holds.others {calls : List Metric} {disk : Disk} (h : w.Holds ms f)
    (hc : ∀ m ∈ calls, m.WellFormed) (hd : w.Untouched disk) :
    ∃ more, Holds { w with tags := (w.tags.takeEach calls).2, disk } (ms ++ more) f := by
  obtain ⟨more, hmore, -, -⟩ := TagIndex.indexes_takeEach h.tags hc
  exact ⟨more, hmore, h.known.append, fun s hs => (h.store s hs).congr (hd s hs)⟩

/-! ## Runs -/

theorem holds_start {info : ChunkInfo} {calls : List Metric} {disk : Disk}
    (hc : ∀ m ∈ calls, ∃ name tags, Metric.new name tags = .ok m) :
    ∃ ms, (start info calls disk).Holds ms fun _ => [] := by
  obtain ⟨ms, hms, -, -⟩ := TagIndex.indexes_takeEach TagIndex.indexes_empty fun m hm => by
    obtain ⟨name, tags, hnew⟩ := hc m hm
    exact Metric.wellFormed_of_new hnew
  refine ⟨_, hms, fun id hid => absurd rfl hid, fun s hs => ?_⟩
  obtain rfl := Option.some_inj.mp hs
  exact GrowingStore.holds_empty

variable [LawfulBlockCodec]

theorem Holds.step (h : w.Holds ms f) (hs : Step w w') : ∃ ms' f', w'.Holds ms' f' := by
  cases hs with
  | add p hbuilt =>
    obtain ⟨name, tags, hnew⟩ := hbuilt
    exact h.add (Metric.wellFormed_of_new hnew) p
  | freeze form => exact ⟨ms, f, h.freeze form⟩
  | query q => exact ⟨ms, f, h⟩
  | close => exact ⟨ms, f, h.close⟩
  | others hbuilt hdisk =>
    obtain ⟨more, hmore⟩ := h.others (fun m hm => by
      obtain ⟨name, tags, hnew⟩ := hbuilt m hm
      exact Metric.wellFormed_of_new hnew) hdisk
    exact ⟨ms ++ more, f, hmore⟩

theorem Holds.run (h : w.Holds ms f) (hr : Run w w') : ∃ ms' f', w'.Holds ms' f' := by
  induction hr with
  | refl => exact ⟨ms, f, h⟩
  | tail _ hs ih =>
    obtain ⟨ms', f', h'⟩ := ih
    exact h'.step hs

omit [LawfulBlockCodec] in
/-- A chunk never goes back. -/
theorem rank_step (hs : Step w w') : w.chunk.state.rank ≤ w'.chunk.state.rank := by
  cases hs with
  | @add m p hbuilt =>
    by_cases hg : w.chunk.state = .growing
    · rw [hg]
      exact Nat.zero_le _
    · simp only [ChunkWorld.add, Chunk.addPoint_late hg]
      exact le_rfl
  | freeze form =>
    by_cases hg : w.chunk.state = .growing
    · rw [hg]
      exact Nat.zero_le _
    · rw [(freeze_late hg form).2]
  | query q => exact le_rfl
  | close =>
    rw [Chunk.state_eq_evicted.mpr store_close]
    cases w.chunk.state <;> decide
  | others => exact le_rfl

omit [LawfulBlockCodec] in
theorem rank_run (hr : Run w w') : w.chunk.state.rank ≤ w'.chunk.state.rank := by
  induction hr with
  | refl => exact le_rfl
  | tail _ hs ih => exact ih.trans (rank_step hs)

omit [LawfulBlockCodec] in
/-- A step from a frozen chunk to a frozen chunk keeps the points, and the metrics that were there
before. -/
theorem Holds.step_frozen (h : w.Holds ms f) (hs : Step w w') (hf : w.chunk.state = .frozen)
    (hf' : w'.chunk.state = .frozen) : ∃ more, w'.Holds (ms ++ more) f := by
  have hlate : w.chunk.state ≠ .growing := by rw [hf]; simp
  cases hs with
  | @add m p hbuilt =>
    refine ⟨[], ?_⟩
    rw [List.append_nil]
    simpa only [ChunkWorld.add, Chunk.addPoint_late hlate] using h
  | freeze form =>
    refine ⟨[], ?_⟩
    rw [List.append_nil, (freeze_late hlate form).2]
    exact h
  | query q => exact ⟨[], by rw [List.append_nil]; exact h⟩
  | close =>
    rw [Chunk.state_eq_evicted.mpr store_close] at hf'
    exact absurd hf' (by simp)
  | others hbuilt hdisk =>
    exact h.others (fun m hm => by
      obtain ⟨name, tags, hnew⟩ := hbuilt m hm
      exact Metric.wellFormed_of_new hnew) hdisk

omit [LawfulBlockCodec] in
theorem Holds.run_frozen (h : w.Holds ms f) (hr : Run w w') (hf : w.chunk.state = .frozen)
    (hf' : w'.chunk.state = .frozen) : ∃ more, w'.Holds (ms ++ more) f := by
  induction hr with
  | refl => exact ⟨[], by rw [List.append_nil]; exact h⟩
  | @tail mid last hr hs ih =>
    -- a chunk that is frozen before and after has been frozen all the time
    have hlow := rank_run hr
    have hhigh := rank_step hs
    rw [hf] at hlow
    rw [hf'] at hhigh
    have hmid : mid.chunk.state = .frozen := by
      cases hm : mid.chunk.state <;> rw [hm] at hlow hhigh <;> simp_all [ChunkState.rank]
    obtain ⟨more, hmore⟩ := ih hmid
    obtain ⟨more', hmore'⟩ := hmore.step_frozen hs hmid hf'
    exact ⟨more ++ more', by rw [← List.append_assoc]; exact hmore'⟩

/-- What can be relied on in a world. -/
structure Lawful (w : ChunkWorld) : Prop where
  /-- The chunk only goes from growing to frozen to evicted. -/
  forward : ∀ w', Run w w' → w.chunk.state.rank ≤ w'.chunk.state.rank
  /-- A chunk that takes no points says so, and neither it nor the index changes. -/
  late : w.chunk.state ≠ .growing → ∀ m p, w.chunk.addPoint w.tags m p =
    (.error (.readOnlyInsertion w.chunk.info.dataset), w.chunk, w.tags)
  /-- A failure to freeze leaves a growing chunk as it was, with the same answers. -/
  unfrozen : ∀ form e, (w.chunk.freeze w.disk form).result = .error e →
    w.chunk.state = .growing ∧ (w.freeze form).chunk = w.chunk ∧ (w.freeze form).tags = w.tags ∧
      ∀ q, (w.freeze form).answer q = w.answer q
  /-- Freezing changes no answer. -/
  frozen : ∀ form, (w.chunk.freeze w.disk form).result = .ok true →
    (w.freeze form).chunk.state = .frozen ∧ ∀ q, (w.freeze form).answer q = w.answer q
  /-- The answers of a frozen chunk stay as they are until it is closed. -/
  constant : w.chunk.state = .frozen → ∀ w', Run w w' → w'.chunk.state = .frozen →
    ∀ q, w'.answer q = w.answer q
  /-- Closing evicts. -/
  closed : w.close.chunk.state = .evicted
  /-- An evicted chunk answers with nothing and has nothing to freeze. -/
  empty : w.chunk.state = .evicted → (∀ q, w.answer q = (.ok [], [])) ∧
    ∀ form, (w.chunk.freeze w.disk form).result = .ok false ∧ w.freeze form = w

theorem Holds.lawful (h : w.Holds ms f) : w.Lawful where
  forward := fun w' hr => rank_run hr
  late := fun hg => Chunk.addPoint_late hg w.tags
  unfrozen := by
    intro form e he
    by_cases hg : w.chunk.state = .growing
    · obtain ⟨s, hs⟩ := Chunk.state_eq_growing.mp hg
      -- only an attempt to copy the store can fail
      rcases freeze_growing hs form with ⟨e', disk, -, -, hw⟩ | ⟨frozen, disk, -, hok, -⟩
      · refine ⟨hg, by rw [hw], by rw [hw], fun q => ?_⟩
        rw [h.answer_eq (by rw [hg]; simp), (h.freeze form).answer_eq (by rw [hw]; simp [hg])]
        rw [hw]
      · rw [hok] at he
        exact absurd he (by simp)
    · rw [(freeze_late hg form).1] at he
      exact absurd he (by simp)
  frozen := by
    intro form hok
    by_cases hg : w.chunk.state = .growing
    · obtain ⟨s, hs⟩ := Chunk.state_eq_growing.mp hg
      rcases freeze_growing hs form with ⟨e, disk, -, he, -⟩ | ⟨frozen, disk, -, -, hw⟩
      · rw [he] at hok
        exact absurd hok (by simp)
      · have hf : (w.freeze form).chunk.state = .frozen :=
          Chunk.state_eq_frozen.mpr ⟨frozen, by rw [hw]⟩
        refine ⟨hf, fun q => ?_⟩
        rw [h.answer_eq (by rw [hg]; simp), (h.freeze form).answer_eq (by rw [hf]; simp)]
        rw [hw]
    · rw [(freeze_late hg form).1] at hok
      exact absurd hok (by simp)
  constant := by
    intro hf w' hr hf' q
    obtain ⟨more, hmore⟩ := h.run_frozen hr hf hf'
    rw [h.answer_eq (by rw [hf]; simp), hmore.answer_eq (by rw [hf']; simp),
      Chunk.answer_append h.tags hmore.tags h.known]
  closed := Chunk.state_eq_evicted.mpr store_close
  empty := fun he => ⟨answer_evicted he, freeze_late (by rw [he]; simp)⟩

/-- **Whatever happens to a chunk and around it, its world can be relied on**, from the new chunk
on and as long as nobody else touches the file of its frozen store. -/
theorem lawful_of_run {info : ChunkInfo} {calls : List Metric} {disk : Disk}
    (hc : ∀ m ∈ calls, ∃ name tags, Metric.new name tags = .ok m)
    (hr : Run (start info calls disk) w) : w.Lawful := by
  obtain ⟨ms, hms⟩ := holds_start hc
  obtain ⟨ms', f', h⟩ := hms.run hr
  exact h.lawful

end ChunkWorld

/-- A chunk that takes a point and is then frozen. -/
theorem ChunkWorld.lawful_of_run_sample :
    let taken := (start ⟨"metrics_0", 0, 7200⟩ [] Disk.empty).add ⟨"cpu", []⟩ ⟨60, 7⟩
    (taken.freeze {}).Lawful ∧ (taken.freeze {}).chunk.state = .frozen ∧
      (taken.freeze {}).answer ⟨"cpu", []⟩ = taken.answer ⟨"cpu", []⟩ := by
  intro taken
  have built : ∃ name tags, Metric.new name tags = .ok ⟨"cpu", []⟩ := ⟨"cpu", [], rfl⟩
  have run : Run (start ⟨"metrics_0", 0, 7200⟩ [] Disk.empty) taken :=
    .single (.add ⟨60, 7⟩ built)
  have done : (taken.chunk.freeze taken.disk {}).result = .ok true := by cbv
  have frozen := (lawful_of_run (by simp) run).frozen {} done
  exact ⟨lawful_of_run (by simp) (run.tail (.freeze {})), frozen.1, frozen.2 _⟩

end TimeSeries
