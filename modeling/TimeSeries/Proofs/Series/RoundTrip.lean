import Mathlib
import TimeSeries.Proofs.BitStream.Bytes
import TimeSeries.Proofs.Failing
import TimeSeries.Proofs.Series.Code

/-!
# What was appended to a series is read from it

A decoder and the encoder each carry the last time, the last distance, the last value and a
window. The statement that runs through this module is that they stay **in step**: a decoder that
is in step with a series, and has ahead of it the bits that the series gains with one more point,
reads that point and is in step with the series after it. From there an induction on the points
gives all of a series, and the list of points that it holds, `Series.Encodes`, is what the rest
of the library needs to know about a series.

Windows are the one thing that may differ. The encoder begins with no window and the decoder with
the whole word; neither uses it before the encoder wrote one.
-/

namespace TimeSeries

open BitStream

namespace Series

/-- What every series that was built by appending is like. -/
structure WellFormed (s : Series) : Prop where
  times : s.times.Clean
  values : s.values.Clean
  lastTime : 0 ≤ s.lastTime ∧ s.lastTime ≤ maxTime

theorem wellFormed_empty : empty.WellFormed where
  times := clean_withCapacity 1
  values := clean_withCapacity 1
  lastTime := by decide

/-! ## Writing a point -/

theorem writable_timeFields {s : Series} {time delta : Int} {fields : List BitField}
    (h : s.timeFields time = .ok (fields, delta)) : ∀ f ∈ fields, f.Writable := by
  unfold timeFields at h
  split at h
  · simp only [Except.ok.injEq, Prod.mk.injEq] at h
    obtain ⟨rfl, -⟩ := h
    simp [BitField.Writable]
  · obtain ⟨changed, hchanged, h⟩ := bind_eq_ok.mp h
    obtain ⟨rfl, -⟩ := Prod.mk.inj (pure_eq_ok.mp h)
    exact writable_changeFields hchanged

theorem writable_bitsFields (s : Series) (bits : UInt64) :
    ∀ f ∈ (s.bitsFields bits).1, f.Writable := by
  unfold bitsFields
  split
  · simp [BitField.Writable]
  · exact writable_valueFields _ _ _

/-- An append is refused and leaves the series as it was, or writes all the fields of the point. -/
theorem append_cases {s : Series} (hs : s.WellFormed) (p : Point) :
    (∃ e, s.append p = (.error e, s)) ∨
    ∃ fields delta times values, (0 ≤ p.time ∧ p.time ≤ maxTime) ∧
      s.timeFields p.time = .ok (fields, delta) ∧
      times.Clean ∧ times.toList = s.times.toList ++ bitsOf fields ∧
      values.Clean ∧ values.toList = s.values.toList ++ bitsOf (s.bitsFields p.bits).1 ∧
      s.append p = (.ok (), {
        times := times, values := values, count := s.count + 1, lastTime := p.time,
        lastDelta := delta, lastBits := p.bits, window := (s.bitsFields p.bits).2 }) := by
  unfold append
  split
  · rename_i hrange
    cases ht : s.timeFields p.time with
    | error e => exact .inl ⟨e, rfl⟩
    | ok coded =>
      obtain ⟨fields, delta⟩ := coded
      obtain ⟨times, hw, hclean, hlist⟩ := writeAll_ok (writable_timeFields ht) hs.times
      obtain ⟨values, hw', hclean', hlist'⟩ :=
        writeAll_ok (s.writable_bitsFields p.bits) hs.values
      refine .inr ⟨fields, delta, times, values, hrange, rfl, hclean, hlist, hclean', hlist', ?_⟩
      simp only [hw, hw']
  · exact .inl ⟨_, rfl⟩

theorem append_error {s s' : Series} (hs : s.WellFormed) {p : Point} {e : Error}
    (h : s.append p = (.error e, s')) : s' = s := by
  rcases append_cases hs p with ⟨e', he⟩ | ⟨_, _, _, _, _, _, _, _, _, _, hok⟩
  · rw [he] at h
    exact (Prod.mk.inj h).2.symm
  · rw [hok] at h
    exact absurd (Prod.mk.inj h).1 (by simp)

theorem wellFormed_append {s s' : Series} (hs : s.WellFormed) {p : Point}
    (h : s.append p = (.ok (), s')) : s'.WellFormed := by
  rcases append_cases hs p with ⟨e', he⟩ | ⟨_, _, _, _, hrange, _, hclean, _, hclean', _, hok⟩
  · rw [he] at h
    exact absurd (Prod.mk.inj h).1 (by simp)
  · rw [hok] at h
    obtain rfl := (Prod.mk.inj h).2
    exact ⟨hclean, hclean', hrange⟩

theorem count_append {s s' : Series} (hs : s.WellFormed) {p : Point}
    (h : s.append p = (.ok (), s')) : s'.count = s.count + 1 := by
  rcases append_cases hs p with ⟨e', he⟩ | ⟨_, _, _, _, _, _, _, _, _, _, hok⟩
  · rw [he] at h
    exact absurd (Prod.mk.inj h).1 (by simp)
  · rw [hok] at h
    obtain rfl := (Prod.mk.inj h).2
    rfl

end Series

/-! ## Reading it back -/

namespace SeriesReader

/-- A decoder that knows what the encoder of a series knows. -/
structure InStep (r : SeriesReader) (s : Series) : Prop where
  decoded : r.decoded = s.count
  lastTime : r.lastTime = s.lastTime
  lastDelta : r.lastDelta = s.lastDelta
  lastBits : r.lastBits = s.lastBits
  window : s.window = .none ∨ r.window = s.window

theorem inStep_start (count : Nat) (times values : BitStream) :
    (start count times values).InStep Series.empty := ⟨rfl, rfl, rfl, rfl, .inl rfl⟩

variable {r : SeriesReader} {s s' : Series} {bits : BitReader} {tail : List Bool}

/-- The first time is read from its header and its offset. -/
theorem readTime_first (hz : r.decoded = 0) {time : Int} (hrange : 0 ≤ time ∧ time ≤ maxTime)
    (hb : bits.rest = bitsOf [⟨32, UInt64.ofNat (time - time % blockSeconds).toNat⟩,
      ⟨14, UInt64.ofNat (time % blockSeconds).toNat⟩] ++ tail) :
    ∃ next, r.readTime bits = .ok ((time, time % blockSeconds), next) ∧ next.rest = tail := by
  have hmax : time ≤ 2147483647 := hrange.2
  simp only [bitsOf_cons, bitsOf_nil, List.append_nil, List.append_assoc] at hb
  have hoff : 0 ≤ time % blockSeconds ∧ time % blockSeconds < 7200 ∧
      time % blockSeconds ≤ time := by
    rw [blockSeconds]
    omega
  generalize time % blockSeconds = offset at hb hoff ⊢
  have word {n : Nat} (hn : n ≤ 2147483647) : (UInt64.ofNat n).toNat = n := by
    rw [UInt64.toNat_ofNat', Nat.mod_eq_of_lt (by omega)]
  obtain ⟨headed, hhead, hrest⟩ := BitReader.read_field hb (by dsimp only; omega)
    (by dsimp only; rw [word (by omega)]; omega)
  obtain ⟨next, hread, ht⟩ := BitReader.read_field hrest (by dsimp only; omega)
    (by dsimp only; rw [word (by omega)]; omega)
  refine ⟨next, ?_, ht⟩
  simp only at hhead hread
  have same : Int.ofNat (UInt64.ofNat offset.toNat).toNat = offset := by
    rw [word (by omega)]
    exact Int.toNat_of_nonneg hoff.1
  have sum : Int.ofNat (UInt64.ofNat (time - offset).toNat).toNat + offset = time := by
    rw [word (by omega), Int.ofNat_eq_natCast]
    omega
  simp only [readTime, hz, bind, StateT.bind, Except.bind, pure, StateT.pure, Except.pure, hhead,
    hread, if_true, same, sum]
  rw [if_pos hrange]
  rfl

/-- A further time is read from the change of its distance. -/
theorem readTime_further (hz : r.decoded ≠ 0) {time : Int}
    (hlast : 0 ≤ r.lastTime ∧ r.lastTime ≤ maxTime) (hrange : 0 ≤ time ∧ time ≤ maxTime)
    {fields : List BitField} (h : changeFields (time - r.lastTime - r.lastDelta) = .ok fields)
    (hb : bits.rest = bitsOf fields ++ tail) :
    ∃ next, r.readTime bits = .ok ((time, time - r.lastTime), next) ∧ next.rest = tail := by
  have hmax : time ≤ 2147483647 := hrange.2
  have hlast' : r.lastTime ≤ 2147483647 := hlast.2
  obtain ⟨next, hread, ht⟩ := readChange_changeFields h hb
  have hdelta : r.lastDelta + (time - r.lastTime - r.lastDelta) = time - r.lastTime := by omega
  have htime : r.lastTime + (time - r.lastTime) = time := by omega
  -- neither the distance nor the time leaves the range of 64 bits
  have hfits : (fitsInt64 (time - r.lastTime) && fitsInt64 time) = true := by
    unfold fitsInt64 Text.minInt64 Text.maxInt64
    simp only [Bool.and_eq_true, decide_eq_true_eq]
    omega
  refine ⟨next, ?_, ht⟩
  simp only [readTime, hz, bind, StateT.bind, Except.bind, pure, StateT.pure, Except.pure, hread,
    if_false, hdelta, htime, hfits, if_true]
  rw [if_pos hrange]
  rfl

theorem readTime_timeFields (hs : s.WellFormed) (hr : r.InStep s) {time delta : Int}
    (hrange : 0 ≤ time ∧ time ≤ maxTime) {fields : List BitField}
    (h : s.timeFields time = .ok (fields, delta)) (hb : bits.rest = bitsOf fields ++ tail) :
    ∃ next, r.readTime bits = .ok ((time, delta), next) ∧ next.rest = tail := by
  unfold Series.timeFields at h
  split at h
  · rename_i hz
    simp only [Except.ok.injEq, Prod.mk.injEq] at h
    obtain ⟨rfl, rfl⟩ := h
    exact readTime_first (hr.decoded.trans hz) hrange hb
  · rename_i hz
    obtain ⟨changed, hchanged, h⟩ := bind_eq_ok.mp h
    obtain ⟨rfl, rfl⟩ := Prod.mk.inj (pure_eq_ok.mp h)
    have hlast := hs.lastTime
    rw [← hr.lastTime] at hlast hchanged ⊢
    rw [← hr.lastDelta] at hchanged
    exact readTime_further (by rw [hr.decoded]; exact hz) hlast hrange hchanged hb

theorem readBits_bitsFields (hr : r.InStep s) {value : UInt64}
    (hb : bits.rest = bitsOf (s.bitsFields value).1 ++ tail) :
    ∃ window next, r.readBits bits = .ok ((value, window), next) ∧ next.rest = tail ∧
      ((s.bitsFields value).2 = .none ∨ window = (s.bitsFields value).2) := by
  unfold Series.bitsFields at hb ⊢
  split at hb
  · rename_i hz
    rw [if_pos hz]
    simp only [bitsOf_cons, bitsOf_nil, List.append_nil] at hb
    obtain ⟨next, hread, ht⟩ := BitReader.read_field hb (by dsimp only; omega) value.toNat_lt
    refine ⟨r.window, next, ?_, ht, .inl rfl⟩
    simp only at hread
    simp [readBits, hr.decoded, hz, bind, StateT.bind, Except.bind, pure, StateT.pure,
      Except.pure, hread]
  · rename_i hz
    rw [if_neg hz, ← hr.lastBits]
    rw [← hr.lastBits] at hb
    exact readBits_valueFields (by rw [hr.decoded]; exact hz) hr.window hb

/-- **One point further, decoder and encoder are still in step.** The bits that a series gains
with a point are read as that point. -/
theorem readPoint_append {p : Point} (hs : s.WellFormed) (h : s.append p = (.ok (), s')) :
    ∃ timeBits valueBits, s'.times.toList = s.times.toList ++ timeBits ∧
      s'.values.toList = s.values.toList ++ valueBits ∧
      ∀ r timeTail valueTail, InStep r s →
        r.times.rest = timeBits ++ timeTail → r.values.rest = valueBits ++ valueTail →
        ∃ next, r.readPoint = .ok (p, next) ∧ next.InStep s' ∧
          next.times.rest = timeTail ∧ next.values.rest = valueTail := by
  rcases Series.append_cases hs p with ⟨e, he⟩ |
    ⟨fields, delta, times, values, hrange, hfields, _, htimes, _, hvalues, hok⟩
  · rw [he] at h
    exact absurd (Prod.mk.inj h).1 (by simp)
  · rw [hok] at h
    obtain rfl := (Prod.mk.inj h).2
    refine ⟨_, _, htimes, hvalues, fun r timeTail valueTail hr ht hv => ?_⟩
    obtain ⟨timed, htime, hrest⟩ := readTime_timeFields hs hr hrange hfields ht
    obtain ⟨window, valued, hvalue, hrest', hwindow⟩ := readBits_bitsFields hr hv
    refine ⟨{ r with
        decoded := r.decoded + 1, times := timed, values := valued, lastTime := p.time,
        lastDelta := delta, lastBits := p.bits, window := window },
      ?_, ⟨?_, rfl, rfl, rfl, hwindow⟩, hrest, hrest'⟩
    · simp only [readPoint, bind, Except.bind, htime, hvalue, pure, Except.pure]
    · exact congrArg (· + 1) hr.decoded

/-! ## Whole series -/

/-- From one decoder to another, these points are read. -/
inductive Reads : SeriesReader → List Point → SeriesReader → Prop
  | nil (r : SeriesReader) : Reads r [] r
  | cons {r next last : SeriesReader} {p : Point} {ps : List Point} :
      r.readPoint = .ok (p, next) → Reads next ps last → Reads r (p :: ps) last

/-- The points that one after another were appended to a series are read one after another, and what
is behind their bits is left. -/
theorem reads_appendAll {ps : List Point} (hs : s.WellFormed)
    (h : s.appendAll ps = (.ok (), s')) :
    s'.count = s.count + ps.length ∧
    ∃ timeBits valueBits, s'.times.toList = s.times.toList ++ timeBits ∧
      s'.values.toList = s.values.toList ++ valueBits ∧
      ∀ r timeTail valueTail, InStep r s →
        r.times.rest = timeBits ++ timeTail → r.values.rest = valueBits ++ valueTail →
        ∃ last, Reads r ps last ∧ last.times.rest = timeTail ∧ last.values.rest = valueTail := by
  induction ps generalizing s with
  | nil =>
    obtain rfl := (Prod.mk.inj h).2
    exact ⟨rfl, [], [], by simp, by simp, fun r _ _ _ ht hv => ⟨r, .nil r, ht, hv⟩⟩
  | cons p ps ih =>
    rw [Series.appendAll] at h
    split at h
    · rename_i mid hmid
      obtain ⟨timeBits, valueBits, htimes, hvalues, step⟩ := readPoint_append hs hmid
      obtain ⟨hcount, timeBits', valueBits', htimes', hvalues', run⟩ :=
        ih (Series.wellFormed_append hs hmid) h
      have hlength : s'.count = s.count + (p :: ps).length := by
        rw [hcount, Series.count_append hs hmid, List.length_cons]
        omega
      -- the bits of the first point come before those of the others
      refine ⟨hlength, timeBits ++ timeBits', valueBits ++ valueBits',
        by rw [htimes', htimes, List.append_assoc],
        by rw [hvalues', hvalues, List.append_assoc], fun r _ _ hr ht hv => ?_⟩
      rw [List.append_assoc] at ht hv
      obtain ⟨next, hread, hstep, hrest, hrest'⟩ := step _ _ _ hr ht hv
      obtain ⟨last, hlast, htail⟩ := run _ _ _ hstep hrest hrest'
      exact ⟨last, .cons hread hlast, htail⟩
    · exact absurd (Prod.mk.inj h).1 (by simp)

/-- Reading a point changes neither what is announced nor whether the reader has failed. -/
theorem readPoint_frame {r next : SeriesReader} {p : Point} (h : r.readPoint = .ok (p, next)) :
    next.count = r.count ∧ next.failed = r.failed ∧ next.decoded = r.decoded + 1 := by
  unfold readPoint at h
  obtain ⟨timed, -, h⟩ := bind_eq_ok.mp h
  obtain ⟨valued, -, h⟩ := bind_eq_ok.mp h
  obtain ⟨-, rfl⟩ := Prod.mk.inj (pure_eq_ok.mp h)
  exact ⟨rfl, rfl, rfl⟩

theorem drain_go_of_reads {r last : SeriesReader} {ps : List Point} (h : Reads r ps last)
    (hf : r.failed = false) (hcount : r.decoded + ps.length ≤ r.count) :
    (drain.go ps.length r).1 = ps.map .ok := by
  induction h with
  | nil r => rfl
  | @cons r next last p ps hread _ ih =>
    rw [List.length_cons] at hcount
    obtain ⟨hcount', hf', hdec⟩ := readPoint_frame hread
    have hnext : r.next = (some (.ok p), next) := by
      rw [SeriesReader.next, if_neg (by simp [hf]; omega), hread]
    simp only [List.length_cons, drain.go, hnext, List.map_cons]
    rw [ih (hf'.trans hf) (by omega)]

theorem points_of_reads {r last : SeriesReader} {ps : List Point} (h : Reads r ps last)
    (hf : r.failed = false) (hcount : r.count = r.decoded + ps.length) :
    r.points = .ok ps := by
  have hrem : r.remaining = ps.length := by
    rw [remaining, hf, hcount]
    simp
  rw [points, drain, hrem, drain_go_of_reads h hf (by omega), List.mapM_map]
  exact (List.mapM_pure (m := Except Error) (l := ps) (f := id)).trans (by rw [List.map_id]; rfl)

end SeriesReader

namespace Series

/-- The series holds these points: it is what appending them to the empty one gives. -/
def Encodes (s : Series) (ps : List Point) : Prop := empty.appendAll ps = (.ok (), s)

theorem encodes_empty : empty.Encodes [] := rfl

theorem appendAll_append {s s' : Series} {ps : List Point} (h : s.appendAll ps = (.ok (), s'))
    (more : List Point) : s.appendAll (ps ++ more) = s'.appendAll more := by
  induction ps generalizing s with
  | nil => rw [List.nil_append, (Prod.mk.inj h).2]
  | cons p ps ih =>
    rw [appendAll] at h
    split at h
    · rename_i mid hmid
      rw [List.cons_append, appendAll, hmid]
      exact ih h
    · exact absurd (Prod.mk.inj h).1 (by simp)

theorem Encodes.append {s s' : Series} {ps : List Point} {p : Point} (h : s.Encodes ps)
    (hp : s.append p = (.ok (), s')) : s'.Encodes (ps ++ [p]) := by
  rw [Encodes, appendAll_append h, appendAll, hp]
  rfl

theorem wellFormed_appendAll {s s' : Series} (hs : s.WellFormed) {ps : List Point}
    (h : s.appendAll ps = (.ok (), s')) : s'.WellFormed := by
  induction ps generalizing s with
  | nil => exact (Prod.mk.inj h).2 ▸ hs
  | cons p ps ih =>
    rw [appendAll] at h
    split at h
    · rename_i mid hmid
      exact ih (wellFormed_append hs hmid) h
    · exact absurd (Prod.mk.inj h).1 (by simp)

theorem Encodes.wellFormed {s : Series} {ps : List Point} (h : s.Encodes ps) : s.WellFormed :=
  wellFormed_appendAll wellFormed_empty h

theorem Encodes.count_eq {s : Series} {ps : List Point} (h : s.Encodes ps) :
    s.count = ps.length := by
  have hcount := (SeriesReader.reads_appendAll wellFormed_empty h).1
  rw [hcount]
  exact Nat.zero_add _

/-- A refused append leaves the series as it was. -/
theorem Encodes.append_error {s s' : Series} {ps : List Point} {p : Point} {e : Error}
    (h : s.Encodes ps) (hp : s.append p = (.error e, s')) : s' = s :=
  Series.append_error h.wellFormed hp

/-- From streams with the bits of a series its points are read, whatever number of points is
announced, and then there are no more bits. -/
theorem Encodes.reads_start {s : Series} {ps : List Point} (h : s.Encodes ps)
    {times values : BitStream} (ht : times.toList = s.times.toList)
    (hv : values.toList = s.values.toList) (count : Nat) :
    ∃ last, SeriesReader.Reads (SeriesReader.start count times values) ps last ∧
      last.times.rest = [] ∧ last.values.rest = [] := by
  obtain ⟨-, timeBits, valueBits, htimes, hvalues, run⟩ :=
    SeriesReader.reads_appendAll wellFormed_empty h
  -- the empty series has no bits, so all bits of a series came with its points
  have start : empty.times.toList = [] ∧ empty.values.toList = [] :=
    ⟨toList_withCapacity 1, toList_withCapacity 1⟩
  rw [start.1, List.nil_append] at htimes
  rw [start.2, List.nil_append] at hvalues
  exact run _ [] [] (SeriesReader.inStep_start count times values)
    (by rw [List.append_nil, ← htimes, ← ht]; rfl) (by rw [List.append_nil, ← hvalues, ← hv]; rfl)

/-- Reading streams with the bits of a series gives its points. -/
theorem Encodes.points_start {s : Series} {ps : List Point} (h : s.Encodes ps)
    {times values : BitStream} (ht : times.toList = s.times.toList)
    (hv : values.toList = s.values.toList) :
    (SeriesReader.start s.count times values).points = .ok ps := by
  obtain ⟨last, hreads, -⟩ := h.reads_start ht hv s.count
  have hcount : s.count = 0 + ps.length := by rw [h.count_eq, Nat.zero_add]
  exact SeriesReader.points_of_reads hreads rfl hcount

theorem Encodes.points_read {s : Series} {ps : List Point} (h : s.Encodes ps) :
    s.read.points = .ok ps := h.points_start rfl rfl

/-- A serialized series is the number of its points and a body. From the body the bits of its
streams are read back, whatever number of points stands before it. -/
theorem exists_body {s : Series} {bytes : Bytes} (h : s.toBytes = .ok bytes) :
    ∃ body times values, bytes = Bytes.ofNat 4 s.count ++ body ∧ s.count ≤ maxInt32 ∧
      times.toList = s.times.toList ∧ values.toList = s.values.toList ∧
      ∀ count ≤ maxInt32, SeriesReader.ofBytes (Bytes.ofNat 4 count ++ body) =
        .ok (SeriesReader.start count times values) := by
  unfold toBytes at h
  split at h
  · rename_i hcount
    obtain ⟨timeBytes, ht, h⟩ := bind_eq_ok.mp h
    obtain ⟨valueBytes, hv, h⟩ := bind_eq_ok.mp h
    obtain rfl := pure_eq_ok.mp h
    obtain ⟨times, htimes, sameTimes⟩ := BitStream.ofBytes_toBytes ht valueBytes
    obtain ⟨values, hvalues, sameValues⟩ := BitStream.ofBytes_toBytes hv []
    rw [List.append_nil] at hvalues
    refine ⟨timeBytes ++ valueBytes, times, values, List.append_assoc _ _ _, hcount, sameTimes,
      sameValues, fun count hmax => ?_⟩
    rw [SeriesReader.ofBytes, Bytes.splitInt32_ofNat hmax]
    simp only [bind, Except.bind]
    rw [if_neg (by omega), htimes]
    simp only [pure, Except.pure]
    rw [hvalues]
    simp only [ne_eq, not_true, if_false]
    rw [Int.toNat_natCast]
  · exact absurd h (by simp)

/-- **A series that was serialized gives its points.** -/
theorem Encodes.points_ofBytes {s : Series} {ps : List Point} (h : s.Encodes ps) {bytes : Bytes}
    (hb : s.toBytes = .ok bytes) :
    ∃ r, SeriesReader.ofBytes bytes = .ok r ∧ r.points = .ok ps := by
  obtain ⟨body, times, values, rfl, hcount, ht, hv, hr⟩ := exists_body hb
  exact ⟨_, hr s.count hcount, h.points_start ht hv⟩

/-! ## Calls of which some are refused -/

/-- Appends points one by one, whatever happens to the ones before, and gives those that were
accepted. -/
def appendEach (s : Series) : List Point → List Point × Series
  | [] => ([], s)
  | p :: rest =>
    match s.append p with
    | (.ok (), s) =>
      let (accepted, s) := s.appendEach rest
      (p :: accepted, s)
    | (.error _, s) => s.appendEach rest

theorem encodes_appendEach {s : Series} {ps : List Point} (h : s.Encodes ps)
    (calls : List Point) :
    (s.appendEach calls).2.Encodes (ps ++ (s.appendEach calls).1) := by
  induction calls generalizing s ps with
  | nil => simpa [appendEach] using h
  | cons p calls ih =>
    rw [appendEach]
    split
    · rename_i s' hp
      simpa using ih (h.append hp)
    · rename_i e s' hp
      obtain rfl := h.append_error hp
      exact ih h

/-- **What was accepted is what is read**, from the series itself and from its bytes, in the order
of the calls, with the times and the bits of the values as they were. -/
theorem points_appendEach (calls : List Point) :
    (empty.appendEach calls).2.read.points = .ok (empty.appendEach calls).1 ∧
    ∀ bytes, (empty.appendEach calls).2.toBytes = .ok bytes →
      ∃ r, SeriesReader.ofBytes bytes = .ok r ∧ r.points = .ok (empty.appendEach calls).1 := by
  have h := encodes_appendEach encodes_empty calls
  rw [List.nil_append] at h
  exact ⟨h.points_read, fun bytes hb => h.points_ofBytes hb⟩

/-- A point that goes back in time, a not-a-number and a negative zero among the accepted ones,
and a time before the epoch that is refused. -/
theorem points_appendEach_sample :
    ∃ bytes, (empty.appendEach [⟨7300, 0x3FF0000000000000⟩, ⟨-5, 0⟩,
        ⟨7260, 0x7FF8000000000001⟩, ⟨7260, 0x8000000000000000⟩]).2.toBytes = .ok bytes ∧
      ∃ r, SeriesReader.ofBytes bytes = .ok r ∧
        r.points = .ok [⟨7300, 0x3FF0000000000000⟩, ⟨7260, 0x7FF8000000000001⟩,
          ⟨7260, 0x8000000000000000⟩] :=
  ⟨_, rfl, (points_appendEach [⟨7300, 0x3FF0000000000000⟩, ⟨-5, 0⟩,
    ⟨7260, 0x7FF8000000000001⟩, ⟨7260, 0x8000000000000000⟩]).2 _ rfl⟩

end Series

end TimeSeries
