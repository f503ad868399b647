import Mathlib
import TimeSeries.Lifecycle
import TimeSeries.Proofs.Manager.Run

/-!
# Sweeps

Freezing and removing go through a list of the chunks and change the map on the way. `Swept g m m'`
says what comes of that without the list: each chunk of `m` has become what `g` makes of it, or is
gone, and nothing else of the manager has changed. One round of the loop is a sweep over one start,
and sweeps are put together one after the other.

The frozen stores are in memory here, so that the disk stays the same throughout.
-/

namespace TimeSeries

/-! ## One chunk -/

namespace LiveChunk

/-- The chunk, unless it ends by a cutoff. -/
def kept (cutoff : Int) (c : LiveChunk) : Option LiveChunk :=
  if c.chunk.info.stop ≤ cutoff then none else some c

/-- The chunk after it was to be frozen if it ends by a cutoff. -/
def aged [BlockCodec] (cutoff : Int) (d : Disk) (form : FrozenForm) (c : LiveChunk) : LiveChunk :=
  if cutoff < c.chunk.info.stop then c
  else { c with chunk := (c.chunk.freeze d form).state.1 }

/-- The chunk was frozen between two times at which it is seen. -/
def WasFrozen (before after : LiveChunk) : Prop :=
  before.chunk.state = .growing ∧ after.chunk.state = .frozen

instance (before after : LiveChunk) : Decidable (before.WasFrozen after) :=
  inferInstanceAs (Decidable (_ ∧ _))

theorem not_wasFrozen_self (c : LiveChunk) : ¬ c.WasFrozen c := by
  rintro ⟨hgrowing, hfrozen⟩
  rw [hgrowing] at hfrozen
  exact absurd hfrozen (by simp)

variable [BlockCodec] {cutoff : Int} {d : Disk} {form : FrozenForm} {c : LiveChunk}

theorem aged_of_lt (h : cutoff < c.chunk.info.stop) : c.aged cutoff d form = c := if_pos h

theorem aged_of_le (h : c.chunk.info.stop ≤ cutoff) :
    c.aged cutoff d form = { c with chunk := (c.chunk.freeze d form).state.1 } :=
  if_neg (Int.not_lt.mpr h)

theorem aged_late (h : c.chunk.state ≠ .growing) : c.aged cutoff d form = c := by
  rw [aged]
  split
  · rfl
  · rw [(Chunk.freeze_late h d form).2]

/-- Freezing comes to one of two things: nothing, or a frozen store in the place of the old one. -/
theorem aged_cases (cutoff : Int) (d : Disk) (form : FrozenForm) (c : LiveChunk) :
    c.aged cutoff d form = c ∨ ∃ s frozen d', c.chunk.store = some (.growing s) ∧
      s.freeze d c.chunk.info.dataset form = (.ok frozen, d') ∧
      c.aged cutoff d form =
        { c with chunk := { c.chunk with store := some (.frozen frozen) } } := by
  by_cases hlt : cutoff < c.chunk.info.stop
  · exact .inl (aged_of_lt hlt)
  by_cases hgrowing : c.chunk.state = .growing
  · obtain ⟨s, hs⟩ := Chunk.state_eq_growing.mp hgrowing
    rcases Chunk.freeze_growing hs d form with
      ⟨e, d', -, -, hstate⟩ | ⟨frozen, d', hfreeze, -, hstate⟩
    · left
      rw [aged, if_neg hlt, hstate]
    · right
      refine ⟨s, frozen, d', hs, hfreeze, ?_⟩
      rw [aged, if_neg hlt, hstate]
  · exact .inl (aged_late hgrowing)

theorem aged_serial : (c.aged cutoff d form).serial = c.serial := by
  rcases aged_cases cutoff d form c with h | ⟨_, _, _, -, -, h⟩ <;> rw [h]

theorem aged_info : (c.aged cutoff d form).chunk.info = c.chunk.info := by
  rcases aged_cases cutoff d form c with h | ⟨_, _, _, -, -, h⟩ <;> rw [h]

/-- Freezing says whether the chunk was frozen by it. -/
theorem freeze_eq_true_iff (c : LiveChunk) (d : Disk) (form : FrozenForm)
    (h : c.chunk.info.stop ≤ cutoff) :
    (c.chunk.freeze d form).result = .ok true ↔ c.WasFrozen (c.aged cutoff d form) := by
  rw [aged_of_le h]
  by_cases hgrowing : c.chunk.state = .growing
  · obtain ⟨s, hs⟩ := Chunk.state_eq_growing.mp hgrowing
    rcases Chunk.freeze_growing hs d form with
      ⟨e, d', -, hresult, hstate⟩ | ⟨frozen, d', -, hresult, hstate⟩
    · rw [hstate, hresult]
      exact iff_of_false (by simp) c.not_wasFrozen_self
    · rw [hstate, hresult]
      exact iff_of_true rfl ⟨hgrowing, Chunk.state_eq_frozen.mpr ⟨frozen, rfl⟩⟩
  · rw [(Chunk.freeze_late hgrowing d form).1]
    exact iff_of_false (by simp) fun hwas => hgrowing hwas.1

/-- In memory, freezing leaves the disk alone. -/
theorem disk_freeze (c : LiveChunk) (d : Disk) (hform : form.directory = none) :
    (c.chunk.freeze d form).state.2 = d := by
  by_cases hgrowing : c.chunk.state = .growing
  · obtain ⟨s, hs⟩ := Chunk.state_eq_growing.mp hgrowing
    rcases Chunk.freeze_growing hs d form with
      ⟨e, d', hfreeze, -, hstate⟩ | ⟨frozen, d', hfreeze, -, hstate⟩
    · rw [hstate]
      exact (GrowingStore.freeze_memory hform hfreeze).1
    · rw [hstate]
      exact (GrowingStore.freeze_memory hform hfreeze).1
  · rw [(Chunk.freeze_late hgrowing d form).2]

/-- Freezing again changes nothing: what could not be frozen cannot be frozen now either. -/
theorem aged_aged {earlier : Int} (h : earlier ≤ cutoff) :
    (c.aged earlier d form).aged cutoff d form = c.aged cutoff d form := by
  rcases aged_cases earlier d form c with hsame | ⟨s, frozen, d', hs, hfreeze, hfrozen⟩
  · rw [hsame]
  · have hstop : c.chunk.info.stop ≤ earlier := by
      refine Int.not_lt.mp fun hlt => ?_
      have hsame : c.aged earlier d form = c := aged_of_lt hlt
      have hstore : some (Store.frozen frozen) = some (.growing s) := by
        rw [← hs, ← hsame, hfrozen]
      exact absurd hstore (by simp)
    have hagain : c.aged cutoff d form = c.aged earlier d form := by
      rw [aged_of_le hstop, aged_of_le (hstop.trans h)]
    rw [hagain]
    refine aged_late ?_
    rw [hfrozen]
    simp [Chunk.state, Store.isFrozen]

end LiveChunk

/-! ## All chunks -/

namespace Manager

variable {m m' m₁ : Manager} {g k : Int → LiveChunk → Option LiveChunk}

/-- Each chunk has become what `g` makes of it, and nothing else has changed. -/
structure Swept (g : Int → LiveChunk → Option LiveChunk) (m m' : Manager) : Prop where
  settings_eq : m'.settings = m.settings
  tags_eq : m'.tags = m.tags
  disk_eq : m'.disk = m.disk
  serial_eq : m'.nextSerial = m.nextSerial
  chunks : ∀ start, m'.chunks[start]? = m.chunks[start]?.bind (g start)

theorem Swept.of_mem (h : m.Swept g m') {start : Int} {c : LiveChunk}
    (hc : m.chunks[start]? = some c) : m'.chunks[start]? = g start c := by
  rw [h.chunks start, hc, Option.bind_some]

theorem swept_refl (h : ∀ start c, m.chunks[start]? = some c → g start c = some c) :
    Swept g m m where
  settings_eq := rfl
  tags_eq := rfl
  disk_eq := rfl
  serial_eq := rfl
  chunks := fun start => by
    cases hc : m.chunks[start]? with
    | none => rfl
    | some c => exact (h start c hc).symm

theorem Swept.congr (h : Swept g m m')
    (hg : ∀ start c, m.chunks[start]? = some c → g start c = k start c) : Swept k m m' where
  settings_eq := h.settings_eq
  tags_eq := h.tags_eq
  disk_eq := h.disk_eq
  serial_eq := h.serial_eq
  chunks := fun start => by
    rw [h.chunks start]
    cases hc : m.chunks[start]? with
    | none => rfl
    | some c => exact hg start c hc

theorem Swept.trans (h : Swept g m m₁) (h' : Swept k m₁ m') :
    Swept (fun start c => (g start c).bind (k start)) m m' where
  settings_eq := h'.settings_eq.trans h.settings_eq
  tags_eq := h'.tags_eq.trans h.tags_eq
  disk_eq := h'.disk_eq.trans h.disk_eq
  serial_eq := h'.serial_eq.trans h.serial_eq
  chunks := fun start => by rw [h'.chunks start, h.chunks start, Option.bind_assoc]

/-! ### Sweeps over a list -/

/-- What is done at some starts only. -/
def within (starts : List Int) (g : LiveChunk → Option LiveChunk) (start : Int) (c : LiveChunk) :
    Option LiveChunk :=
  if start ∈ starts then g c else some c

variable {f : LiveChunk → Option LiveChunk} {start : Int} {starts : List Int}

theorem Swept.cons (hnew : start ∉ starts) (h : Swept (within [start] f) m m₁)
    (h' : Swept (within starts f) m₁ m') : Swept (within (start :: starts) f) m m' := by
  refine (h.trans h').congr fun other c _ => ?_
  by_cases ho : other = start
  · subst ho
    have hrest : within starts f other = some := funext fun c => if_neg hnew
    simp [within, hrest]
  · simp [within, ho]

/-- The chunk at one start has become what `f` makes of it. -/
theorem swept_entry {c : LiveChunk} (hc : m.chunks[start]? = some c)
    (hsettings : m'.settings = m.settings) (htags : m'.tags = m.tags) (hdisk : m'.disk = m.disk)
    (hserial : m'.nextSerial = m.nextSerial)
    (hchunks : ∀ other, m'.chunks[other]? = if other = start then f c else m.chunks[other]?) :
    Swept (within [start] f) m m' := by
  refine ⟨hsettings, htags, hdisk, hserial, fun other => ?_⟩
  rw [hchunks other]
  by_cases ho : other = start
  · subst ho
    simp [hc, within]
  · cases m.chunks[other]? <;> simp [within, ho]

/-- A start at which nothing happens. -/
theorem swept_skip {c : LiveChunk} (hc : m.chunks[start]? = some c) (hf : f c = some c) :
    Swept (within [start] f) m m := by
  refine swept_entry hc rfl rfl rfl rfl fun other => ?_
  by_cases ho : other = start
  · rw [if_pos ho, ho, hc, hf]
  · rw [if_neg ho]

/-- Entries that were there before are there after a sweep over another start. -/
theorem Swept.current {list : List (Int × LiveChunk)} (h : Swept (within [start] f) m m₁)
    (hnew : start ∉ list.map Prod.fst) (hlist : ∀ x ∈ list, m.chunks[x.1]? = some x.2) :
    ∀ x ∈ list, m₁.chunks[x.1]? = some x.2 := by
  intro x hx
  have hne : x.1 ≠ start := fun heq => hnew (List.mem_map.mpr ⟨x, hx, heq⟩)
  rw [h.of_mem (hlist x hx), within, if_neg (by simpa using hne)]

/-- A sweep over all starts. -/
theorem Swept.all (h : Swept (within (m.chunks.toList.map Prod.fst) f) m m') :
    Swept (fun _ => f) m m' := by
  refine h.congr fun start c hc => ?_
  have hmem : start ∈ m.chunks.toList.map Prod.fst :=
    List.mem_map.mpr ⟨(start, c), mem_toList.mpr hc, rfl⟩
  rw [within, if_pos hmem]

/-! ### Removing -/

theorem swept_removeChunk {settings : ManagerSettings} {ms : List Metric} {c : LiveChunk}
    {cutoff : Int} (hform : settings.form.directory = none)
    (hsound : c.chunk.Sound start settings.form ms) (hc : m.chunks[start]? = some c)
    (hstop : c.chunk.info.stop ≤ cutoff) :
    Swept (within [start] (·.kept cutoff)) m (m.removeChunk start c).1 := by
  have hdisk : (c.chunk.close m.disk).2.2 = m.disk := by
    rw [Chunk.close]
    cases hs : c.chunk.store with
    | none => rfl
    | some s =>
      have hmemory := hsound.store s hs
      cases s with
      | growing store => rfl
      | frozen store =>
        have hmemory := hmemory hform
        simp only [Store.close, FrozenStore.close]
        cases hrecords : store.records with
        | memory records => rfl
        | file r =>
          rw [hrecords] at hmemory
          exact absurd hmemory (by simp [RecordMap.place?])
  have hkept : c.kept cutoff = none := if_pos hstop
  refine swept_entry hc rfl rfl hdisk rfl fun other => ?_
  rw [hkept]
  exact TreeMap.getElem?_erase m.chunks start other

/-- Removing keeps the chunks that end behind the cutoff, and counts the others. -/
theorem swept_removeAll {settings : ManagerSettings} {ms : List Metric} {cutoff : Int}
    (hform : settings.form.directory = none) {list : List (Int × LiveChunk)}
    (hsound : ∀ x ∈ list, x.2.chunk.Sound x.1 settings.form ms)
    (hlist : ∀ x ∈ list, m.chunks[x.1]? = some x.2) (hdistinct : (list.map Prod.fst).Nodup) :
    Swept (within (list.map Prod.fst) (·.kept cutoff)) m (removeAll cutoff list m).2.1 ∧
      (removeAll cutoff list m).1 = list.countP fun x => x.2.chunk.info.stop ≤ cutoff := by
  induction list generalizing m with
  | nil => exact ⟨swept_refl fun _ _ _ => rfl, rfl⟩
  | cons x list ih =>
    obtain ⟨start, c⟩ := x
    obtain ⟨hchunk, hsound⟩ := List.forall_mem_cons.mp hsound
    obtain ⟨hc, hrest⟩ := List.forall_mem_cons.mp hlist
    obtain ⟨hnew, hdistinct⟩ := List.nodup_cons.mp hdistinct
    rw [removeAll, List.map_cons, List.countP_cons]
    split
    · rename_i hstop
      have hone := swept_removeChunk hform hchunk hc hstop
      obtain ⟨hswept, hcount⟩ := ih hsound (hone.current hnew hrest) hdistinct
      refine ⟨hone.cons hnew hswept, ?_⟩
      rw [if_pos (decide_eq_true hstop), ← hcount]
    · rename_i hstop
      have hone : Swept (within [start] (·.kept cutoff)) m m := swept_skip hc (if_neg hstop)
      obtain ⟨hswept, hcount⟩ := ih hsound hrest hdistinct
      refine ⟨hone.cons hnew hswept, ?_⟩
      rw [if_neg (by simpa using hstop), ← hcount, Nat.add_zero]

theorem Sound.removed {settings : ManagerSettings} {ms : List Metric} (h : m.Sound settings ms)
    (hform : settings.form.directory = none) (cutoff : Int) :
    Swept (fun _ => (·.kept cutoff)) m (m.removeUntil cutoff).2.1 ∧
      (m.removeUntil cutoff).1 = m.chunks.toList.countP fun x => x.2.chunk.info.stop ≤ cutoff := by
  obtain ⟨hswept, hcount⟩ := swept_removeAll hform h.of_mem (fun _ hx => mem_toList.mp hx)
    (TreeMap.nodup_keys m.chunks)
  exact ⟨hswept.all, hcount⟩

/-! ### Freezing -/

variable [BlockCodec] {cutoff : Int} {d : Disk} {form : FrozenForm}

theorem swept_freezeChunk {c : LiveChunk} (hform : m.settings.form.directory = none)
    (hc : m.chunks[start]? = some c) (hstop : c.chunk.info.stop ≤ cutoff) :
    Swept (within [start] fun c => some (c.aged cutoff m.disk m.settings.form)) m
        (m.freezeChunk start c).2.1 ∧
      ((m.freezeChunk start c).1 = true ↔
        c.WasFrozen (c.aged cutoff m.disk m.settings.form)) := by
  have haged : c.aged cutoff m.disk m.settings.form =
      { c with chunk := (c.chunk.freeze m.disk m.settings.form).state.1 } :=
    LiveChunk.aged_of_le hstop
  have hdisk := c.disk_freeze m.disk hform
  have hdone := c.freeze_eq_true_iff m.disk m.settings.form hstop
  have hafter : (m.freezeChunk start c).2.1 = { m with
      chunks := m.chunks.insert start (c.aged cutoff m.disk m.settings.form) } := by
    rw [freezeChunk_eq, haged, hdisk]
  have hsaid : (m.freezeChunk start c).1 = true ↔
      (c.chunk.freeze m.disk m.settings.form).result = .ok true := by
    rw [Manager.freezeChunk]
    dsimp only
    split <;> rename_i hresult <;> simp [hresult]
  refine ⟨?_, hsaid.trans hdone⟩
  rw [hafter]
  exact swept_entry hc rfl rfl rfl rfl fun other => TreeMap.getElem?_insert m.chunks start other _

/-- Freezing ages each chunk, and counts those that were frozen. -/
theorem swept_freezeAll (hform : form.directory = none) (hm : m.settings.form = form)
    (hd : m.disk = d) {list : List (Int × LiveChunk)}
    (hlist : ∀ x ∈ list, m.chunks[x.1]? = some x.2) (hdistinct : (list.map Prod.fst).Nodup) :
    Swept (within (list.map Prod.fst) fun c => some (c.aged cutoff d form)) m
        (freezeAll cutoff list m).2.1 ∧
      (freezeAll cutoff list m).1 =
        list.countP fun x => x.2.WasFrozen (x.2.aged cutoff d form) := by
  induction list generalizing m with
  | nil => exact ⟨swept_refl fun _ _ _ => rfl, rfl⟩
  | cons x list ih =>
    obtain ⟨start, c⟩ := x
    obtain ⟨hc, hrest⟩ := List.forall_mem_cons.mp hlist
    obtain ⟨hnew, hdistinct⟩ := List.nodup_cons.mp hdistinct
    rw [freezeAll, List.map_cons, List.countP_cons]
    split
    · -- the chunk is not touched, and it is as if it had been
      rename_i hskip
      have haged : c.aged cutoff d form = c := by
        rcases Bool.or_eq_true_iff.mp hskip with hlt | hclosed
        · exact LiveChunk.aged_of_lt (of_decide_eq_true hlt)
        · exact LiveChunk.aged_late (by simpa [Chunk.isClosedToPoints] using hclosed)
      have hone : Swept (within [start] fun c => some (c.aged cutoff d form)) m m :=
        swept_skip hc (by rw [haged])
      obtain ⟨hswept, hcount⟩ := ih hm hd hrest hdistinct
      refine ⟨hone.cons hnew hswept, ?_⟩
      have hnot := c.not_wasFrozen_self
      rw [haged, if_neg (by simpa using hnot), ← hcount, Nat.add_zero]
    · rename_i hgo
      have hstop : c.chunk.info.stop ≤ cutoff := by
        simp only [Bool.or_eq_true, decide_eq_true_eq, not_or, not_lt] at hgo
        exact hgo.1
      obtain ⟨hone, hdone⟩ := swept_freezeChunk (by rw [hm]; exact hform) hc hstop
      rw [hm, hd] at hone hdone
      obtain ⟨hswept, hcount⟩ := ih (hone.settings_eq ▸ hm) (hone.disk_eq.trans hd)
        (hone.current hnew hrest) hdistinct
      refine ⟨hone.cons hnew hswept, ?_⟩
      dsimp only
      rw [hcount]
      congr 1
      by_cases hwas : c.WasFrozen (c.aged cutoff d form)
      · rw [hdone.mpr hwas, if_pos (decide_eq_true hwas)]
        rfl
      · rw [Bool.eq_false_iff.mpr (mt hdone.mp hwas), if_neg (by simpa using hwas)]
        rfl

theorem frozen_of_memory (hform : m.settings.form.directory = none) (cutoff : Int) :
    Swept (fun _ c => some (c.aged cutoff m.disk m.settings.form)) m (m.freezeUntil cutoff).2.1 ∧
      (m.freezeUntil cutoff).1 = m.chunks.toList.countP fun x =>
        x.2.WasFrozen (x.2.aged cutoff m.disk m.settings.form) := by
  obtain ⟨hswept, hcount⟩ := swept_freezeAll hform rfl rfl (fun _ hx => mem_toList.mp hx)
    (TreeMap.nodup_keys m.chunks)
  exact ⟨hswept.all, hcount⟩

end Manager

end TimeSeries
