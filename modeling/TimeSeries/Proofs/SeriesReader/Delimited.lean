import Mathlib
import TimeSeries.Proofs.BitStream.Inverse
import TimeSeries.Proofs.Series.RoundTrip
import TimeSeries.Proofs.SeriesReader.Decode

/-!
# Where a serialized series ends

A serialized series says for itself where it ends. Bytes from which a series can be read cannot be
read with anything behind them, because what is behind a series is refused, and so no two such
lists of bytes begin alike unless they are the same: `eq_of_front`. Cutting a series short leaves
nothing that can be read, wherever the cut is.

The number of points stands before the streams and is not needed to find their ends. A number that
is too large is noticed when the points have come: then a reader is behind the last bit of either
stream, which need not be the last bit of a word, and the next point is missing.
-/

namespace TimeSeries

namespace SeriesReader

variable {bytes : Bytes} {r : SeriesReader}

/-! ## Bytes that can be read -/

/-- A series is read from the number of its points and two streams, and nothing is left. -/
theorem ofBytes_eq_ok (h : ofBytes bytes = .ok r) :
    ∃ count afterCount times afterTimes values, bytes.splitInt32 = .ok (count, afterCount) ∧
      ¬ count < 0 ∧ BitStream.ofBytes afterCount = .ok (times, afterTimes) ∧
      BitStream.ofBytes afterTimes = .ok (values, []) ∧ r = start count.toNat times values := by
  obtain ⟨⟨count, afterCount⟩, hcount, h⟩ := bind_eq_ok.mp h
  obtain ⟨hsign, h⟩ := guard_eq_ok.mp h
  obtain ⟨⟨times, afterTimes⟩, htimes, h⟩ := bind_eq_ok.mp h
  obtain ⟨⟨values, rest⟩, hvalues, h⟩ := bind_eq_ok.mp h
  obtain ⟨hrest, h⟩ := guard_eq_ok.mp h
  obtain rfl := not_not.mp hrest
  exact ⟨count, afterCount, times, afterTimes, values, hcount, hsign, htimes, hvalues,
    (pure_eq_ok.mp h).symm⟩

/-- What is behind a series is refused. -/
theorem ofBytes_append (h : ofBytes bytes = .ok r) {more : Bytes} (hmore : more ≠ []) :
    ofBytes (bytes ++ more) = .error (.malformed (.trailingBytes more.length)) := by
  obtain ⟨count, afterCount, times, afterTimes, values, hcount, hsign, htimes, hvalues, -⟩ :=
    ofBytes_eq_ok h
  have hvalues' := BitStream.ofBytes_append hvalues more
  rw [List.nil_append] at hvalues'
  rw [ofBytes, Bytes.splitInt32_append hcount more, ok_bind]
  dsimp only
  rw [if_neg hsign, BitStream.ofBytes_append htimes more, ok_bind]
  dsimp only
  rw [hvalues', ok_bind]
  dsimp only
  rw [if_pos hmore]
  rfl

/-- Of two lists of bytes that can be read, neither is a part at the front of the other. -/
theorem eq_of_front {front : Bytes} {r' : SeriesReader} (hfront : ofBytes front = .ok r')
    (h : ofBytes bytes = .ok r) (hpart : front <+: bytes) : front = bytes := by
  obtain ⟨more, rfl⟩ := hpart
  by_contra hne
  have hmore : more ≠ [] := fun hnil => hne (by rw [hnil, List.append_nil])
  rw [ofBytes_append hfront hmore] at h
  exact absurd h (by simp)

/-- Bytes that can be read are malformed when some are missing at the end. -/
theorem ofBytes_of_front {front : Bytes} (h : ofBytes bytes = .ok r) (hpart : front <+: bytes)
    (hne : front ≠ bytes) : ∃ why, ofBytes front = .error (.malformed why) := by
  cases hfront : ofBytes front with
  | ok r' => exact absurd (eq_of_front hfront h hpart) hne
  | error e =>
    obtain ⟨why, rfl⟩ := failsOnly_ofBytes front e hfront
    exact ⟨why, rfl⟩

/-! ## Points that are missing -/

/-- Where no bits of the times are ahead, there is no point. -/
theorem readPoint_end (h : r.times.InRange) (hrest : r.times.rest = []) :
    ∃ width length, r.readPoint = .error (.malformed (.readPastEnd width length length)) := by
  rw [readPoint, readTime]
  by_cases hfirst : r.decoded = 0
  · refine ⟨32, r.times.stream.length, ?_⟩
    simp only [if_pos hfirst, bind, StateT.bind, h.read_end hrest (by decide : 1 ≤ 32 ∧ 32 ≤ 64),
      Except.bind]
  · refine ⟨1, r.times.stream.length, ?_⟩
    simp only [if_neg hfirst, readChange, BitReader.tryRead, bind, StateT.bind,
      h.read_end hrest (by decide : 1 ≤ 1 ∧ 1 ≤ 64), Except.bind]

/-- The reader behind some points is as sound as the one before them. -/
theorem Reads.sound {last : SeriesReader} {ps : List Point} (h : Reads r ps last)
    (hsound : r.Sound) (hcount : r.decoded + ps.length ≤ r.count) :
    last.Sound ∧ last.failed = r.failed ∧ last.count = r.count ∧
      last.decoded = r.decoded + ps.length := by
  induction h with
  | nil r => exact ⟨hsound, rfl, rfl, rfl⟩
  | @cons r next last p ps hread _ ih =>
    rw [List.length_cons] at hcount ⊢
    obtain ⟨-, hnext, hcount', hdecoded, hfailed⟩ := readPoint_ok hsound (by omega) hread
    obtain ⟨hlast, hfailed', hcount'', hdecoded'⟩ := ih hnext (by omega)
    exact ⟨hlast, hfailed'.trans hfailed, hcount''.trans hcount', by omega⟩

/-- Points that are read come before what the reader behind them gives. -/
theorem Reads.gives {last : SeriesReader} {ps points : List Point} {stop : Option Malformed}
    (h : Reads r ps last) (hsound : r.Sound) (hf : r.failed = false)
    (hcount : r.decoded + ps.length ≤ r.count) (hlast : last.Gives points stop) :
    r.Gives (ps ++ points) stop := by
  induction h with
  | nil r => exact hlast
  | @cons r next last p ps hread _ ih =>
    rw [List.length_cons] at hcount
    obtain ⟨htime, hsound', hcount', hdecoded, hfailed⟩ := readPoint_ok hsound (by omega) hread
    have hnext : r.next = (some (.ok p), next) := by
      rw [SeriesReader.next, if_neg (by simp [hf]; omega), hread]
    have hleft : r.remaining = next.remaining + 1 := by
      rw [remaining, remaining, hfailed, hf, if_neg Bool.false_ne_true, if_neg Bool.false_ne_true,
        hcount', hdecoded]
      omega
    exact (ih hsound' (hfailed.trans hf) (by omega) hlast).cons hnext htime hleft

/-- When the times are used up and more points are announced, the next one fails and then nothing
comes. -/
theorem gives_end (h : r.Sound) (hf : r.failed = false) (hmore : r.decoded < r.count)
    (hrest : r.times.rest = []) :
    ∃ width length, r.Gives [] (some (.readPastEnd width length length)) := by
  obtain ⟨width, length, hpoint⟩ := readPoint_end h.times hrest
  refine ⟨width, length, gives_failure ?_ ?_⟩
  · rw [SeriesReader.next, if_neg (by simp [hf]; omega), hpoint]
  · rw [remaining, hf, if_neg Bool.false_ne_true]
    omega

end SeriesReader

namespace Series

variable {s : Series} {bytes : Bytes} {points : List Point}

/-- A serialized series is as long as the series says. -/
theorem length_of_toBytes (h : s.toBytes = .ok bytes) : bytes.length = s.byteSize := by
  unfold toBytes at h
  split at h
  · obtain ⟨times, htimes, h⟩ := bind_eq_ok.mp h
    obtain ⟨values, hvalues, h⟩ := bind_eq_ok.mp h
    obtain rfl := pure_eq_ok.mp h
    rw [List.length_append, List.length_append, Bytes.length_ofNat,
      BitStream.length_of_toBytes htimes, BitStream.length_of_toBytes hvalues, byteSize]
  · exact absurd h (by simp)

/-- A series that announces more points than it has gives those that it has and then fails. -/
theorem Encodes.gives_of_count (h : s.Encodes points) (hbytes : s.toBytes = .ok bytes)
    {count : Nat} (hcount : points.length < count) (hmax : count ≤ maxInt32) :
    ∃ r width length, SeriesReader.ofBytes (Bytes.ofNat 4 count ++ bytes.drop 4) = .ok r ∧
      r.Gives points (some (.readPastEnd width length length)) := by
  obtain ⟨body, times, values, rfl, -, ht, hv, hread⟩ := exists_body hbytes
  obtain ⟨last, hreads, hrest, -⟩ := h.reads_start ht hv count
  have hsound := SeriesReader.sound_start count times values
  have hroom : 0 + points.length ≤ count := by omega
  obtain ⟨hlast, hfailed, hcount', hdecoded⟩ := hreads.sound hsound hroom
  have hmore : last.decoded < last.count := by
    rw [hdecoded, hcount']
    exact (Nat.zero_add _).trans_lt hcount
  obtain ⟨width, length, hend⟩ := SeriesReader.gives_end hlast hfailed hmore hrest
  have hgives := hreads.gives hsound rfl hroom hend
  rw [List.append_nil] at hgives
  refine ⟨_, width, length, ?_, hgives⟩
  rw [List.drop_left' (Bytes.length_ofNat 4 s.count)]
  exact hread count hmax

/-- **A serialized series ends where it says, and has as many points as it says.** It is as long as
the series says. Nothing can be read when bytes are missing at its end or others are behind it. When
it announces more points than it has, the ones that it has come, then a failure to read past the end
of a stream, and then nothing. -/
theorem toBytes_delimited (calls : List Point) {bytes : Bytes}
    (h : (empty.appendEach calls).2.toBytes = .ok bytes) :
    let points := (empty.appendEach calls).1
    bytes.length = (empty.appendEach calls).2.byteSize ∧
    (∀ front, front <+: bytes → front ≠ bytes →
      ∃ why, SeriesReader.ofBytes front = .error (.malformed why)) ∧
    (∀ more, more ≠ [] → ∃ why, SeriesReader.ofBytes (bytes ++ more) = .error (.malformed why)) ∧
    ∀ count, points.length < count → count ≤ maxInt32 →
      ∃ r width length, SeriesReader.ofBytes (Bytes.ofNat 4 count ++ bytes.drop 4) = .ok r ∧
        r.Gives points (some (.readPastEnd width length length)) := by
  intro points
  have hpoints : (empty.appendEach calls).2.Encodes points := encodes_appendEach encodes_empty calls
  obtain ⟨r, hread, -⟩ := hpoints.points_ofBytes h
  refine ⟨length_of_toBytes h, fun front hpart hne => ?_, fun more hmore => ?_,
    fun count hcount hmax => hpoints.gives_of_count h hcount hmax⟩
  · exact SeriesReader.ofBytes_of_front hread hpart hne
  · exact ⟨_, SeriesReader.ofBytes_append hread hmore⟩

/-- A cut inside the last word, a byte behind the series, and a thousand points announced where
there are two. The points end in the middle of a word in both streams. -/
theorem toBytes_delimited_sample :
    ∃ bytes, (empty.appendEach [⟨10, 0x3FF8000000000000⟩, ⟨20, 0x4004000000000000⟩]).2.toBytes =
        .ok bytes ∧ bytes.length = 38 ∧
      (∃ why, SeriesReader.ofBytes (bytes.take 37) = .error (.malformed why)) ∧
      (∃ why, SeriesReader.ofBytes (bytes ++ [0]) = .error (.malformed why)) ∧
      ∃ r width length, SeriesReader.ofBytes (Bytes.ofNat 4 1000 ++ bytes.drop 4) = .ok r ∧
        r.Gives [⟨10, 0x3FF8000000000000⟩, ⟨20, 0x4004000000000000⟩]
          (some (.readPastEnd width length length)) := by
  have hbytes : ∃ bytes, (empty.appendEach [⟨10, 0x3FF8000000000000⟩,
      ⟨20, 0x4004000000000000⟩]).2.toBytes = .ok bytes := ⟨_, rfl⟩
  obtain ⟨bytes, hbytes⟩ := hbytes
  obtain ⟨hlength, hfront, hmore, hcount⟩ := toBytes_delimited _ hbytes
  have hsize : bytes.length = 38 := hlength
  have hshorter : bytes.take 37 ≠ bytes := by
    intro heq
    have hsame := congrArg List.length heq
    rw [List.length_take, hsize] at hsame
    exact absurd hsame (by decide)
  exact ⟨bytes, hbytes, hsize, hfront _ ⟨_, List.take_append_drop 37 bytes⟩ hshorter,
    hmore [0] (by simp), hcount 1000 (by decide) (by decide)⟩

end Series

end TimeSeries
