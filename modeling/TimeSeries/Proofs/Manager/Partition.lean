import Mathlib
import TimeSeries.Proofs.Manager.Late

/-!
# How chunks divide time

The chunks of a manager stand at the starts of windows, and each has the window that belongs to its
start. So the windows of two chunks have no time in common, and two times get the same chunk just
if they have the same window. Chunks are told apart by their serial numbers, which are never given
twice: `Numbered` says so, and every call keeps it.

`Touched` says of a run of calls which windows there are chunks of: those for which a chunk was
asked or a point came since they were removed. A point that is refused counts, if its time is one
of a point, since the chunk is there before the point is looked at.
-/

namespace TimeSeries

/-- A call that may touch the chunks of a manager. -/
inductive WindowCall where
  /-- Asks for the chunk of a time. -/
  | visit (t : Int)
  /-- Adds a line, freezes or removes. -/
  | call (c : ManagerCall)
  deriving DecidableEq, Repr

namespace WindowCall

/-- Chunks are asked for only at times that a point can have. -/
def InRange : WindowCall → Prop
  | .visit t => PointTime t
  | .call _ => True

/-- A call asks for the chunk of the window with a start, or brings a point for it. -/
def Touches (length start : Int) : WindowCall → Prop
  | .visit t => Time.floor length t = start
  | .call (.add line) => ∃ r, PutRecord.parse line = .ok r ∧ PointTime r.point.time ∧
      Time.floor length r.point.time = start
  | .call _ => False

/-- A call removes the window with a start. -/
def Removes (length start : Int) : WindowCall → Prop
  | .call (.removeUntil cutoff) => start + length ≤ cutoff
  | _ => False

end WindowCall

/-- Some of the calls touched the window with a start, and it has not been removed since. -/
def Touched (length : Int) (calls : List WindowCall) (start : Int) : Prop :=
  ∃ before c after, calls = before ++ c :: after ∧ c.Touches length start ∧
    ∀ later ∈ after, ¬ later.Removes length start

theorem touched_snoc {length start : Int} {calls : List WindowCall} {c : WindowCall} :
    Touched length (calls ++ [c]) start ↔
      c.Touches length start ∨ (Touched length calls start ∧ ¬ c.Removes length start) := by
  constructor
  · rintro ⟨before, x, after, heq, htouch, hleft⟩
    rcases snoc_eq_append_cons.mp heq with ⟨-, rfl, -⟩ | ⟨rest, rfl, rfl⟩
    · exact .inl htouch
    · refine .inr ⟨⟨before, x, rest, rfl, htouch, fun later hlater => ?_⟩, hleft c (by simp)⟩
      exact hleft later (List.mem_append_left _ hlater)
  · rintro (htouch | ⟨⟨before, x, after, rfl, htouch, hleft⟩, hkeep⟩)
    · exact ⟨calls, c, [], rfl, htouch, by simp⟩
    · refine ⟨before, x, after ++ [c], by simp, htouch, fun later hlater => ?_⟩
      rcases List.mem_append.mp hlater with hlater | hlater
      · exact hleft later hlater
      · exact List.mem_singleton.mp hlater ▸ hkeep

/-- A window that was touched starts at a multiple of the length. -/
theorem Touched.dvd {length start : Int} {calls : List WindowCall}
    (h : Touched length calls start) : length ∣ start := by
  have hfloor : ∀ t, Time.floor length t = start → length ∣ start := by
    rintro t rfl
    exact Int.dvd_self_sub_emod
  obtain ⟨-, c, -, -, htouch, -⟩ := h
  cases c with
  | visit t => exact hfloor t htouch
  | call c =>
    cases c with
    | add line =>
      obtain ⟨r, -, -, hstart⟩ := htouch
      exact hfloor _ hstart
    | freezeUntil cutoff => exact htouch.elim
    | removeUntil cutoff => exact htouch.elim

namespace Manager

variable {settings : ManagerSettings} {points : String → List Point} {ms : List Metric}
  {m m' m'' : Manager} {c : LiveChunk} {start cutoff t t' : Int} {d : Disk} {tags : TagIndex}

/-! ## Serial numbers -/

/-- The serial number of the chunk at a start. -/
def serial? (m : Manager) (start : Int) : Option Nat := m.chunks[start]?.map LiveChunk.serial

/-- Two managers have the same chunks, whatever they hold. -/
structure SameChunks (m m' : Manager) : Prop where
  serials : ∀ start, m'.serial? start = m.serial? start
  next : m'.nextSerial = m.nextSerial

theorem SameChunks.refl (m : Manager) : m.SameChunks m := ⟨fun _ => rfl, rfl⟩

theorem SameChunks.trans (h : m.SameChunks m') (h' : m'.SameChunks m'') : m.SameChunks m'' :=
  ⟨fun start => (h'.serials start).trans (h.serials start), h'.next.trans h.next⟩

theorem serial?_eq_some {n : Nat} :
    m.serial? start = some n ↔ ∃ c, m.chunks[start]? = some c ∧ c.serial = n :=
  Option.map_eq_some_iff

/-- A chunk is put in the place of an earlier state of the same chunk. -/
theorem sameChunks_insert (hc : m.serial? start = some c.serial) :
    m.SameChunks ⟨m.settings, tags, d, m.chunks.insert start c, m.nextSerial⟩ := by
  refine ⟨fun other => ?_, rfl⟩
  rw [serial?]
  dsimp only
  rw [TreeMap.getElem?_insert]
  split
  · rename_i heq
    rw [heq, hc]
    rfl
  · rfl

theorem sameChunks_addHeld (hc : m.chunks[start]? = some c) (hi : c.chunk.info.start = start)
    (metric : Metric) (p : Point) : m.SameChunks (m.addHeld c.handle metric p).2 := by
  rw [addHeld_eq hc hi]
  exact sameChunks_insert (serial?_eq_some.mpr ⟨c, hc, rfl⟩)

theorem sameChunks_freezeUntil [BlockCodec] (m : Manager) (cutoff : Int) :
    m.SameChunks (m.freezeUntil cutoff).2.1 := by
  refine freezeUntil_induction (P := fun m' _ => m.SameChunks m') ?_ (.refl m)
  intro m' _ start c h hc _ _
  have hfreeze : m'.SameChunks (m'.freezeChunk start c).2.1 := by
    rw [freezeChunk_eq]
    exact sameChunks_insert (serial?_eq_some.mpr ⟨c, hc, rfl⟩)
  exact h.trans hfreeze

theorem nextSerial_removeAll (list : List (Int × LiveChunk)) :
    (removeAll cutoff list m).2.1.nextSerial = m.nextSerial := by
  induction list generalizing m with
  | nil => rfl
  | cons x list ih =>
    rw [removeAll]
    split
    · exact ih
    · exact ih

/-- Serial numbers tell chunks apart, and the next one has not been given. -/
structure Numbered (m : Manager) : Prop where
  below : ∀ start n, m.serial? start = some n → n < m.nextSerial
  apart : ∀ start other n, m.serial? start = some n → m.serial? other = some n → start = other

/-- When chunks are left out, the others are told apart as before. -/
theorem Numbered.of_left (h : m.Numbered)
    (hleft : ∀ start n, m'.serial? start = some n → m.serial? start = some n)
    (hnext : m'.nextSerial = m.nextSerial) : m'.Numbered where
  below := fun start n hn => hnext ▸ h.below start n (hleft start n hn)
  apart := fun start other n hn ho => h.apart start other n (hleft start n hn) (hleft other n ho)

theorem Numbered.same (h : m.Numbered) (hs : m.SameChunks m') : m'.Numbered :=
  h.of_left (fun start _ hn => hs.serials start ▸ hn) hs.next

theorem numbered_new (hnew : Manager.new settings d = .ok m) : m.Numbered := by
  obtain ⟨made, rfl⟩ := exists_of_new hnew
  have hnone : ∀ start n, serial? ⟨settings, TagIndex.empty, made, ∅, 0⟩ start ≠ some n := by
    intro start n
    simp [serial?]
  exact ⟨fun start n hn => absurd hn (hnone start n), fun start _ n hn => absurd hn (hnone start n)⟩

/-- After a chunk was asked for, it is there, and the others are the same as before. -/
theorem serial?_chunkAt (m : Manager) (t start : Int) :
    (m.chunkAt t).2.1.serial? start =
      if start = m.windowStart t then some (m.chunkAt t).1.serial else m.serial? start := by
  by_cases hstart : start = m.windowStart t
  · subst hstart
    rw [if_pos rfl, serial?, chunkAt]
    split
    · rename_i c hc
      have hthere : m.chunks[m.windowStart t]? = some c := hc
      rw [hthere]
      rfl
    · rw [chunks_create, chunkInfo_eq]
      exact congrArg (Option.map LiveChunk.serial) (if_pos rfl)
  · rw [if_neg hstart, serial?, chunks_chunkAt hstart, serial?]

theorem Numbered.chunkAt (h : m.Numbered) (t : Int) : (m.chunkAt t).2.1.Numbered := by
  have hserial := m.serial?_chunkAt t
  unfold Manager.chunkAt at hserial ⊢
  split at hserial
  · exact h
  · -- the new chunk has a number that is greater than all others
    dsimp only [create] at hserial ⊢
    refine ⟨fun start n hn => ?_, fun start other n hn ho => ?_⟩
    · rw [hserial] at hn
      split at hn
      · obtain rfl := Option.some_inj.mp hn
        exact Nat.lt_succ_self _
      · exact Nat.lt_succ_of_lt (h.below start n hn)
    · rw [hserial] at hn ho
      split at hn
      · rename_i hstart
        split at ho
        · rename_i hother
          rw [hstart, hother]
        · obtain rfl := Option.some_inj.mp hn
          exact absurd (h.below other _ ho) (Nat.lt_irrefl _)
      · split at ho
        · obtain rfl := Option.some_inj.mp ho
          exact absurd (h.below start _ hn) (Nat.lt_irrefl _)
        · exact h.apart start other n hn ho

/-- Two times get the same chunk just if they are in the same window. -/
theorem Numbered.serial_chunkAt_eq_iff (h : m.Numbered) (t t' : Int) :
    (m.chunkAt t).1.serial = ((m.chunkAt t).2.1.chunkAt t').1.serial ↔
      m.windowStart t = m.windowStart t' := by
  have hsame : (m.chunkAt t).2.1.windowStart t' = m.windowStart t' := by
    rw [Manager.chunkAt]
    split <;> rfl
  have hfirst : (m.chunkAt t).2.1.serial? (m.windowStart t) = some (m.chunkAt t).1.serial := by
    rw [serial?_chunkAt, if_pos rfl]
  have hsecond (start : Int) : ((m.chunkAt t).2.1.chunkAt t').2.1.serial? start =
      if start = m.windowStart t' then some ((m.chunkAt t).2.1.chunkAt t').1.serial
      else (m.chunkAt t).2.1.serial? start := by
    rw [serial?_chunkAt, hsame]
  constructor
  · intro heq
    by_contra hne
    -- both chunks would be there under one number
    have hold := hsecond (m.windowStart t)
    have hnew := hsecond (m.windowStart t')
    rw [if_neg hne, hfirst, heq] at hold
    rw [if_pos rfl] at hnew
    exact hne (((h.chunkAt t).chunkAt t').apart _ _ _ hold hnew)
  · intro heq
    rw [heq, ← hsame] at hfirst
    obtain ⟨c, hc, hserial⟩ := serial?_eq_some.mp hfirst
    rw [chunkAt_of_existing hc, hserial]

/-! ## Calls -/

variable [BlockCodec]

/-- The manager after a call. -/
def perform (m : Manager) : WindowCall → Manager
  | .visit t => (m.chunkAt t).2.1
  | .call c => (m.call c).1

/-- The manager after some calls. -/
def performEach (m : Manager) (calls : List WindowCall) : Manager := calls.foldl perform m

/-- A record leaves the same chunks as asking for the chunk of its time. -/
theorem Holds.sameChunks_addRecord (hs : settings.Fits) (h : m.Holds settings points ms)
    {r : PutRecord} (hr : PointTime r.point.time) :
    (m.chunkAt r.point.time).2.1.SameChunks (m.addRecord r).state := by
  obtain ⟨-, hcreated, hc⟩ := h.chunkAt hs hr
  have hstart : (m.chunkAt r.point.time).1.chunk.info.start =
      Time.floor settings.windowSeconds r.point.time := by
    rw [(hcreated.keeps _ _ hc).info]
    rfl
  have hstate := congrArg Prod.snd (addRecord_inRange (m := m) hr)
  dsimp only at hstate
  rw [hstate]
  exact sameChunks_addHeld hc hstart r.metric r.point

theorem Holds.perform [LawfulBlockCodec] (hs : settings.Fits) (h : m.Holds settings points ms)
    {c : WindowCall} (hc : c.InRange) :
    ∃ points ms, (m.perform c).Holds settings points ms := by
  cases c with
  | visit t => exact ⟨points, ms, (h.chunkAt hs hc).2.1⟩
  | call c =>
    obtain ⟨ms', h'⟩ := h.call hs c
    exact ⟨_, ms', h'⟩

/-- No call makes two chunks alike. -/
theorem Numbered.perform (hs : settings.Fits) (h : m.Holds settings points ms) (hn : m.Numbered)
    (c : WindowCall) : (m.perform c).Numbered := by
  cases c with
  | visit t => exact hn.chunkAt t
  | call c =>
    cases c with
    | add line =>
      simp only [Manager.perform, Manager.call, Manager.addLine]
      cases PutRecord.parse line with
      | error e => exact hn
      | ok r =>
        dsimp only
        by_cases hr : PointTime r.point.time
        · exact (hn.chunkAt r.point.time).same (h.sameChunks_addRecord hs hr)
        · rw [addRecord_outOfRange hr]
          exact hn
    | freezeUntil cutoff => exact hn.same (sameChunks_freezeUntil m cutoff)
    | removeUntil cutoff =>
      refine hn.of_left (fun start n hleft => ?_) (nextSerial_removeAll _)
      obtain ⟨c, hc, hserial⟩ := serial?_eq_some.mp hleft
      exact serial?_eq_some.mpr ⟨c, (chunks_removeUntil.mp hc).1, hserial⟩

/-- **One call.** There is a chunk at a start if the call touches its window, or if there was one
and the call does not remove it. -/
theorem Holds.exists_perform_iff (hs : settings.Fits) (h : m.Holds settings points ms)
    {c : WindowCall} (hc : c.InRange) (start : Int) :
    (∃ n, (m.perform c).serial? start = some n) ↔
      c.Touches settings.windowSeconds start ∨
        ((∃ n, m.serial? start = some n) ∧ ¬ c.Removes settings.windowSeconds start) := by
  have hvisit : ∀ t, PointTime t → ((∃ n, (m.chunkAt t).2.1.serial? start = some n) ↔
      Time.floor settings.windowSeconds t = start ∨ ∃ n, m.serial? start = some n) := by
    intro t ht
    rw [serial?_chunkAt, h.windowStart_eq]
    by_cases hstart : start = Time.floor settings.windowSeconds t
    · simp [hstart]
    · simp [hstart, Ne.symm hstart]
  cases c with
  | visit t => simpa [Manager.perform, WindowCall.Touches, WindowCall.Removes] using hvisit t hc
  | call c =>
    cases c with
    | add line =>
      simp only [Manager.perform, Manager.call, Manager.addLine, WindowCall.Touches,
        WindowCall.Removes, not_false_eq_true, and_true]
      cases PutRecord.parse line with
      | error e => simp
      | ok r =>
        dsimp only
        by_cases hr : PointTime r.point.time
        · rw [(h.sameChunks_addRecord hs hr).serials, hvisit r.point.time hr]
          simp [hr]
        · rw [addRecord_outOfRange hr]
          simp [hr]
    | freezeUntil cutoff =>
      have hsame := (m.sameChunks_freezeUntil cutoff).serials start
      simp only [Manager.perform, Manager.call, hsame, WindowCall.Touches, WindowCall.Removes,
        not_false_eq_true, and_true, false_or]
    | removeUntil cutoff =>
      simp only [Manager.perform, Manager.call, WindowCall.Touches, WindowCall.Removes, false_or,
        serial?_eq_some]
      constructor
      · rintro ⟨n, c, hleft, hserial⟩
        obtain ⟨hc, hlt⟩ := chunks_removeUntil.mp hleft
        rw [(h.keeps start c hc).info] at hlt
        exact ⟨⟨n, c, hc, hserial⟩, Int.not_le.mpr hlt⟩
      · rintro ⟨⟨n, c, hc, hserial⟩, hkeep⟩
        refine ⟨n, c, chunks_removeUntil.mpr ⟨hc, ?_⟩, hserial⟩
        rw [(h.keeps start c hc).info]
        exact Int.not_le.mp hkeep

/-- **A run of calls.** -/
theorem holds_performEach [LawfulBlockCodec] (hs : settings.Fits) (h : m.Holds settings points ms)
    (hn : m.Numbered) (hempty : ∀ start, m.serial? start = none) {calls : List WindowCall}
    (hcalls : ∀ c ∈ calls, c.InRange) :
    ∃ points ms, (m.performEach calls).Holds settings points ms ∧
      (m.performEach calls).Numbered ∧
      ∀ start, (∃ n, (m.performEach calls).serial? start = some n) ↔
        Touched settings.windowSeconds calls start := by
  induction calls using List.reverseRecOn with
  | nil =>
    refine ⟨points, ms, h, hn, fun start => ?_⟩
    simp [performEach, hempty, Touched]
  | append_singleton calls c ih =>
    obtain ⟨hearlier, hc⟩ := List.forall_mem_append.mp hcalls
    obtain ⟨points, ms, h', hn', hexists⟩ := ih hearlier
    have hc := hc c List.mem_cons_self
    obtain ⟨points', ms', h''⟩ := h'.perform hs hc
    have hsnoc : m.performEach (calls ++ [c]) = (m.performEach calls).perform c := by
      rw [performEach, List.foldl_append]
      rfl
    rw [hsnoc]
    refine ⟨points', ms', h'', hn'.perform hs h' c, fun start => ?_⟩
    rw [h'.exists_perform_iff hs hc, hexists, touched_snoc]

/-! ## Windows and their chunks -/

omit [BlockCodec] in
/-- There are as many chunks as starts with a chunk. -/
theorem size_chunks (m : Manager) {starts : Set Int}
    (h : ∀ start, (∃ n, m.serial? start = some n) ↔ start ∈ starts) :
    m.chunks.size = starts.ncard := by
  have hstarts : starts = ↑m.chunks.keys.toFinset := by
    ext start
    rw [← h, Finset.mem_coe, List.mem_toFinset, Std.TreeMap.mem_keys,
      ← Std.TreeMap.isSome_getElem?_iff_mem, ← Option.isSome_map (f := LiveChunk.serial),
      Option.isSome_iff_exists, serial?]
  rw [hstarts, Set.ncard_coe_finset, TreeMap.card_keys]

end Manager

/-- The chunk of the window with a start: it has the name and the bounds of the window, it is not
evicted, and all the points that can be read from its store are in the window and under ids that
the index has given to metrics. -/
structure Chunk.OfWindow [BlockCodec] (c : Chunk GrowingStore) (settings : ManagerSettings)
    (start : Int) (tags : TagIndex) (d : Disk) : Prop where
  aligned : settings.windowSeconds ∣ start
  info : c.info = ⟨s!"{settings.dataset}_{start}", start, start + settings.windowSeconds⟩
  present : c.state ≠ .evicted
  points : ∃ s, c.store = some s ∧ ∀ id, ∃ found, s.get d id = .ok found ∧
    ∀ ps, found = some ps → (∃ name, tags.fullName? id = some name) ∧
      ∀ p ∈ ps, start ≤ p.time ∧ p.time < start + settings.windowSeconds

namespace Manager

theorem Holds.ofWindow [BlockCodec] {settings : ManagerSettings} {points : String → List Point}
    {ms : List Metric} {m : Manager} {c : LiveChunk} {start : Int} (hs : settings.Fits)
    (h : m.Holds settings points ms) (hc : m.chunks[start]? = some c)
    (haligned : settings.windowSeconds ∣ start) :
    c.chunk.OfWindow settings start m.tags m.disk := by
  have hkeeps := h.keeps start c hc
  obtain ⟨s, hstore, hheld, -⟩ := hkeeps.store
  refine ⟨haligned, hkeeps.info, ?_, s, hstore, fun id => ⟨_, hheld.get id, fun ps hps => ?_⟩⟩
  · rw [Chunk.state, hstore]
    dsimp only
    split <;> simp
  · obtain ⟨hne, rfl⟩ : heldIn settings.windowSeconds points ms start id ≠ [] ∧
        heldIn settings.windowSeconds points ms start id = ps := by
      rw [present] at hps
      split at hps
      · exact absurd hps (by simp)
      · rename_i hne
        exact ⟨hne, Option.some_inj.mp hps⟩
    obtain ⟨metric, hmetric⟩ := metricAt_of_heldIn hne
    refine ⟨⟨metric.fullName, by rw [h.tags.fullName?_eq, hmetric]; rfl⟩, fun p hp => ?_⟩
    rw [heldIn_of_metricAt hmetric, List.mem_filter, decide_eq_true_eq] at hp
    have hfirst := Time.floor_le hs.pos p.time
    have hlast := Time.lt_floor_add hs.pos p.time
    rw [hp.2] at hfirst hlast
    exact ⟨hfirst, hlast⟩

/-- **Chunks divide time into windows.** Whatever calls are made of a new manager, each of its
chunks is the chunk of the window at whose start it stands. So the windows of two chunks have no
time in common. Every time of a point gets a chunk, and two get the same one just if they are in the
same window. There are as many chunks as windows that were touched since they were removed last. -/
theorem partition_performEach [BlockCodec] [LawfulBlockCodec] {settings : ManagerSettings}
    {disk : Disk} {fresh : Manager} (hdisk : disk.WellFormed)
    (hlength : settings.windowSeconds ≤ lastTime) (hnew : Manager.new settings disk = .ok fresh)
    {calls : List WindowCall} (hcalls : ∀ c ∈ calls, c.InRange) :
    let m := fresh.performEach calls
    (∀ start (c : LiveChunk), m.chunks[start]? = some c →
      c.chunk.OfWindow settings start m.tags m.disk) ∧
    (∀ (start start' : Int) (c c' : LiveChunk), m.chunks[start]? = some c → m.chunks[start']? = some c' →
      start ≠ start' → Disjoint (Set.Ico c.chunk.info.start c.chunk.info.stop)
        (Set.Ico c'.chunk.info.start c'.chunk.info.stop)) ∧
    (∀ t, PointTime t → m.chunkAt? t = some (m.chunkAt t)) ∧
    (∀ t t', PointTime t → PointTime t' →
      ((m.chunkAt t).1.serial = ((m.chunkAt t).2.1.chunkAt t').1.serial ↔
        Time.floor settings.windowSeconds t = Time.floor settings.windowSeconds t')) ∧
    (∀ start, (∃ c, m.chunks[start]? = some c) ↔ Touched settings.windowSeconds calls start) ∧
    m.chunks.size = {start | Touched settings.windowSeconds calls start}.ncard := by
  intro m
  obtain ⟨hfresh, hpos⟩ := holds_new hdisk hnew
  have hs : settings.Fits := ⟨hpos, hlength⟩
  have hempty : ∀ start, fresh.serial? start = none := by
    obtain ⟨made, rfl⟩ := exists_of_new hnew
    intro start
    simp [serial?]
  obtain ⟨points, ms, h, hn, hexists⟩ :=
    holds_performEach hs hfresh (numbered_new hnew) hempty hcalls
  have hof : ∀ start (c : LiveChunk), m.chunks[start]? = some c →
      c.chunk.OfWindow settings start m.tags m.disk := by
    intro start c hc
    have htouched := (hexists start).mp ⟨c.serial, serial?_eq_some.mpr ⟨c, hc, rfl⟩⟩
    exact h.ofWindow hs hc htouched.dvd
  refine ⟨hof, fun start start' c c' hc hc' hne => ?_, fun t ht => (h.chunkAt hs ht).1,
    fun t t' _ _ => ?_, fun start => ?_, size_chunks m hexists⟩
  · have hwindow := hof start c hc
    have hwindow' := hof start' c' hc'
    rw [hwindow.info, hwindow'.info, Set.disjoint_left]
    rintro t ⟨hfirst, hlast⟩ ⟨hfirst', hlast'⟩
    have hstart := Time.floor_eq hwindow.aligned hfirst hlast
    have hstart' := Time.floor_eq hwindow'.aligned hfirst' hlast'
    exact hne (hstart.symm.trans hstart')
  · rw [hn.serial_chunkAt_eq_iff, h.windowStart_eq, h.windowStart_eq]
  · rw [← hexists start]
    constructor
    · rintro ⟨c, hc⟩
      exact ⟨c.serial, serial?_eq_some.mpr ⟨c, hc, rfl⟩⟩
    · rintro ⟨n, hserial⟩
      obtain ⟨c, hc, -⟩ := serial?_eq_some.mp hserial
      exact ⟨c, hc⟩

end Manager

/-- One window is frozen and removed, another one is frozen, and a chunk without points is asked
for. -/
theorem Manager.partition_performEach_sample :
    let fresh : Manager := ⟨{}, TagIndex.empty, Disk.empty, ∅, 0⟩
    let calls : List WindowCall := [.visit 60, .call (.add "put cpu 61 1 host=a"),
      .call (.add "put cpu 8000 2"), .call (.freezeUntil 14400), .call (.removeUntil 7200),
      .call (.add "put cpu 8001 3"), .visit 20000]
    let m := fresh.performEach calls
    {start | Touched 7200 calls start}.ncard = 2 ∧
      (m.chunkAt 14399).1.serial = ((m.chunkAt 14399).2.1.chunkAt 7200).1.serial ∧
      ∃ c, m.chunks[(7200 : Int)]? = some c ∧ c.chunk.state = .frozen ∧
        c.chunk.OfWindow {} 7200 m.tags m.disk := by
  intro fresh calls m
  subst m
  have hnew : Manager.new {} Disk.empty = .ok fresh := rfl
  have hcalls : ∀ c ∈ calls, c.InRange := by
    simp only [calls, List.forall_mem_cons, WindowCall.InRange, PointTime, maxTime]
    simp
  obtain ⟨hof, -, -, hserial, -, hsize⟩ :=
    partition_performEach Disk.wellFormed_empty (by decide) hnew hcalls
  have htwo : (fresh.performEach calls).chunks.size = 2 := by decide +kernel
  have hfrozen : (fresh.performEach calls).chunks[(7200 : Int)]?.map (·.chunk.state) =
      some .frozen := by
    decide +kernel
  obtain ⟨c, hc, hstate⟩ := Option.map_eq_some_iff.mp hfrozen
  refine ⟨hsize.symm.trans htwo, ?_, c, hc, hstate, hof 7200 c hc⟩
  exact (hserial 14399 7200 ⟨by decide, by decide⟩ ⟨by decide, by decide⟩).mpr (by decide)

end TimeSeries
