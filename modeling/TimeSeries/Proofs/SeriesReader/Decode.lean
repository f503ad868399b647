import Mathlib
import TimeSeries.Proofs.SeriesReader.Safety

/-!
# Decoding any bytes

A series is decoded from bytes that may have been damaged in any way. Either they are refused, or
there is a reader. What comes of the reader is as with a series that was written: some points, no
more than there should be, with times that a point can have. What can be different is that there is
a failure in the place of the next point, which says that the bytes are malformed and is the last
that comes. On the way there is no trap.
-/

namespace TimeSeries

/-! ## Readers of points -/

namespace SeriesReader

/-- The reader after it has been asked some times. -/
def after (r : SeriesReader) : Nat → SeriesReader
  | 0 => r
  | k + 1 => r.next.2.after k

/-- Points, and a failure behind them if there is one. -/
def items (points : List Point) (stop : Option Malformed) : List (Except Error Point) :=
  points.map .ok ++ (stop.map fun why => .error (.malformed why)).toList

/-- What comes of a reader: points, perhaps a failure, and then nothing. -/
structure Gives (r : SeriesReader) (points : List Point) (stop : Option Malformed) : Prop where
  answers : ∀ k, (r.after k).next.1 = (items points stop)[k]?
  times : ∀ p ∈ points, PointTime p.time
  /-- There are no more points than the series announces. -/
  count : points.length ≤ r.count
  /-- No more is still to come than the reader says. -/
  remaining : ∀ k, (items points stop).length - k ≤ (r.after k).remaining

/-- A reader that can be asked for the next point and for what is left, and does not trap. -/
structure Trapless (r : SeriesReader) : Prop where
  next : Trap.next r = some r.next
  pointsLeft : Trap.pointsLeft r = some r.remaining
  timeBits : Trap.bitsLeft r.times = some r.times.remaining
  valueBits : Trap.bitsLeft r.values = some r.values.remaining

/-- What holds of a reader at any time. -/
structure Sound (r : SeriesReader) : Prop where
  decoded : r.decoded ≤ r.count
  times : r.times.InRange
  values : r.values.InRange
  window : Trap.Fits r.window

theorem sound_start (count : Nat) (times values : BitStream) :
    (start count times values).Sound where
  decoded := Nat.zero_le _
  times := BitReader.inRange_start times
  values := BitReader.inRange_start values
  window := ⟨Nat.two_pow_pos 5, Nat.two_pow_pos 6⟩

variable {r : SeriesReader}

theorem readPoint_safe (h : r.Sound) :
    Trap.readPoint r = (some r.readPoint : Option (Except Error (Point × SeriesReader))) ∧
      FailsOnly Error.Damaged r.readPoint := by
  have htime := Trap.safe_readTime r
  have hbits := Trap.safe_readBits h.window
  constructor
  · show (Trap.readTime r r.times >>= fun x => Trap.readBits r r.values >>= fun y => _ :
      ExceptT Error Option (Point × SeriesReader)) = _
    rw [htime.same r.times h.times, hbits.same r.values h.values, readPoint]
    cases r.readTime r.times with
    | error e => rfl
    | ok x => cases r.readBits r.values <;> rfl
  · refine failsOnly_bind (htime.fails r.times h.times) fun x _ => ?_
    exact failsOnly_bind (hbits.fails r.values h.values) fun y _ => failsOnly_ok _

/-- A point that was decoded, and the reader after it. -/
theorem readPoint_ok (h : r.Sound) (hmore : r.decoded < r.count) {p : Point} {next : SeriesReader}
    (hp : r.readPoint = .ok (p, next)) :
    PointTime p.time ∧ next.Sound ∧ next.count = r.count ∧ next.decoded = r.decoded + 1 ∧
      next.failed = r.failed := by
  obtain ⟨x, hx, hp⟩ := bind_eq_ok.mp hp
  obtain ⟨y, hy, hp⟩ := bind_eq_ok.mp hp
  obtain ⟨htime, htimes⟩ := (Trap.safe_readTime r).result r.times x.1 x.2 h.times hx
  obtain ⟨hwindow, hvalues⟩ := (Trap.safe_readBits h.window).result r.values y.1 y.2 h.values hy
  obtain ⟨rfl, rfl⟩ := Prod.mk.inj (Except.ok.inj hp)
  exact ⟨htime, ⟨hmore, htimes, hvalues, hwindow⟩, rfl, rfl, rfl⟩

/-- What the next answer can be. -/
theorem next_cases (h : r.Sound) :
    (r.next = (none, r) ∧ r.remaining = 0) ∨
    (∃ p after, r.next = (some (.ok p), after) ∧ PointTime p.time ∧ after.Sound ∧
      r.remaining = after.remaining + 1) ∨
    (∃ why, r.next = (some (.error (.malformed why)), { r with failed := true }) ∧
      0 < r.remaining) := by
  by_cases hdone : r.failed || r.count ≤ r.decoded
  · refine .inl ⟨if_pos hdone, ?_⟩
    rw [remaining]
    rcases Bool.or_eq_true_iff.mp hdone with hfailed | hcount
    · rw [if_pos hfailed]
    · rw [Nat.sub_eq_zero_of_le (of_decide_eq_true hcount), ite_self]
  · right
    have hnext : r.next = _ := if_neg hdone
    rw [hnext]
    simp only [Bool.or_eq_true, decide_eq_true_eq, not_or, Bool.not_eq_true, Nat.not_le] at hdone
    obtain ⟨hfailed, hmore⟩ := hdone
    have hleft : r.remaining = r.count - r.decoded := by
      rw [remaining, hfailed, if_neg Bool.false_ne_true]
    cases hpoint : r.readPoint with
    | ok x =>
      obtain ⟨p, after⟩ := x
      obtain ⟨htime, hsound, hcount, hdecoded, hsame⟩ := readPoint_ok h hmore hpoint
      refine .inl ⟨p, after, rfl, htime, hsound, ?_⟩
      rw [hleft, remaining, hsame, hfailed, if_neg Bool.false_ne_true, hcount, hdecoded]
      omega
    | error e =>
      obtain ⟨why, rfl⟩ := (readPoint_safe h).2 e hpoint
      exact .inr ⟨why, rfl, by omega⟩

theorem sound_fail (h : r.Sound) : Sound { r with failed := true } :=
  ⟨h.decoded, h.times, h.values, h.window⟩

theorem Sound.next (h : r.Sound) : r.next.2.Sound := by
  rcases next_cases h with ⟨hnext, -⟩ | ⟨p, after, hnext, -, hsound, -⟩ | ⟨why, hnext, -⟩
  · rw [hnext]
    exact h
  · rw [hnext]
    exact hsound
  · rw [hnext]
    exact sound_fail h

theorem Sound.after (h : r.Sound) (k : Nat) : (r.after k).Sound := by
  induction k generalizing r with
  | zero => exact h
  | succ k ih => exact ih h.next

theorem Sound.trapless (h : r.Sound) : r.Trapless where
  next := by
    rw [Trap.next, SeriesReader.next]
    split
    · rfl
    · have hpoint : (Trap.readPoint r).run = some r.readPoint := (readPoint_safe h).1
      rw [hpoint]
      cases r.readPoint <;> rfl
  pointsLeft := by
    rw [Trap.pointsLeft, remaining]
    split
    · rfl
    · exact Trap.minus_of_le h.decoded
  timeBits := Trap.minus_of_le h.times
  valueBits := Trap.minus_of_le h.values

/-! ## What comes of a reader -/

theorem length_items (points : List Point) (stop : Option Malformed) :
    points.length ≤ (items points stop).length := by
  rw [items, List.length_append, List.length_map]
  exact Nat.le_add_right _ _

theorem remaining_le (r : SeriesReader) : r.remaining ≤ r.count := by
  rw [remaining]
  split
  · exact Nat.zero_le _
  · exact Nat.sub_le _ _

variable {points : List Point} {stop : Option Malformed}

theorem Gives.length_le (h : r.Gives points stop) : (items points stop).length ≤ r.remaining :=
  h.remaining 0

/-- A reader with nothing left gives nothing, however often it is asked. -/
theorem gives_nothing (hnext : r.next = (none, r)) : r.Gives [] none := by
  have hsame (k : Nat) : r.after k = r := by
    induction k with
    | zero => rfl
    | succ k ih => rw [after, hnext, ih]
  refine ⟨fun k => ?_, by simp, Nat.zero_le _, fun k => ?_⟩
  · rw [hsame k, hnext]
    rfl
  · rw [items, List.map_nil, Option.map_none, Option.toList_none, List.append_nil, List.length_nil,
      Nat.zero_sub]
    exact Nat.zero_le _

/-- A point comes before what the reader gives after it. -/
theorem Gives.cons {p : Point} {next : SeriesReader} (h : next.Gives points stop)
    (hnext : r.next = (some (.ok p), next)) (hp : PointTime p.time)
    (hleft : r.remaining = next.remaining + 1) : r.Gives (p :: points) stop := by
  have hitems : items (p :: points) stop = .ok p :: items points stop := rfl
  have hlength : (items (p :: points) stop).length ≤ r.remaining := by
    rw [hitems, List.length_cons, hleft]
    exact Nat.succ_le_succ h.length_le
  refine ⟨fun k => ?_, List.forall_mem_cons.mpr ⟨hp, h.times⟩, ?_, fun k => ?_⟩
  · cases k with
    | zero => rw [after, hnext, hitems, List.getElem?_cons_zero]
    | succ k => rw [after, hnext, hitems, List.getElem?_cons_succ, h.answers k]
  · exact ((length_items _ stop).trans hlength).trans r.remaining_le
  · cases k with
    | zero => exact hlength
    | succ k =>
      rw [after, hnext, hitems, List.length_cons, Nat.add_sub_add_right]
      exact h.remaining k

/-- A failure is the last that a reader gives. -/
theorem gives_failure {why : Malformed}
    (hnext : r.next = (some (.error (.malformed why)), { r with failed := true }))
    (hleft : 0 < r.remaining) : r.Gives [] (some why) := by
  have hrest : Gives { r with failed := true } [] none := gives_nothing rfl
  refine ⟨fun k => ?_, by simp, Nat.zero_le _, fun k => ?_⟩
  · cases k with
    | zero => rw [after, hnext]; rfl
    | succ k => rw [after, hnext, hrest.answers k]; rfl
  · cases k with
    | zero => exact hleft
    | succ k =>
      have hlength : (items [] (some why)).length = 1 := rfl
      rw [hlength, Nat.sub_eq_zero_of_le (Nat.le_add_left 1 k)]
      exact Nat.zero_le _

theorem exists_gives (h : r.Sound) : ∃ points stop, r.Gives points stop := by
  -- an answer leaves less behind than there was, so that the answers come to an end
  induction hn : r.remaining generalizing r with
  | zero =>
    rcases next_cases h with ⟨hnext, -⟩ | ⟨_, _, -, -, -, hleft⟩ | ⟨_, -, hleft⟩
    · exact ⟨[], none, gives_nothing hnext⟩
    · omega
    · omega
  | succ n ih =>
    rcases next_cases h with
      ⟨-, hleft⟩ | ⟨p, next, hnext, htime, hsound, hleft⟩ | ⟨why, hnext, hleft⟩
    · omega
    · obtain ⟨points, stop, hgives⟩ := ih hsound (by omega)
      exact ⟨p :: points, stop, hgives.cons hnext htime hleft⟩
    · exact ⟨[], some why, gives_failure hnext hleft⟩

theorem failsOnly_go (n : Nat) (h : r.Sound) :
    ∀ item ∈ (drain.go n r).1, FailsOnly Error.Damaged item := by
  induction n generalizing r with
  | zero => simp [drain.go]
  | succ n ih =>
    intro item hitem
    rw [drain.go] at hitem
    rcases next_cases h with ⟨hnext, -⟩ | ⟨p, after, hnext, -, hsound, -⟩ | ⟨why, hnext, -⟩
    · rw [hnext] at hitem
      exact absurd hitem (by simp)
    · rw [hnext] at hitem
      rcases List.mem_cons.mp hitem with rfl | hitem
      · exact failsOnly_ok p
      · exact ih hsound item hitem
    · rw [hnext] at hitem
      rcases List.mem_cons.mp hitem with rfl | hitem
      · exact failsOnly_error ⟨why, rfl⟩
      · exact ih (sound_fail h) item hitem

/-- Only because the bytes are wrong do the points not come. -/
theorem failsOnly_points (h : r.Sound) : FailsOnly Error.Damaged r.points :=
  failsOnly_mapM (failsOnly_go r.remaining h)

end SeriesReader

/-! ## Bytes -/

namespace Bytes

theorem failsOnly_split (bytes : Bytes) (n : Nat) : FailsOnly Error.Damaged (bytes.split n) := by
  rw [split]
  split
  · exact failsOnly_error ⟨_, rfl⟩
  · exact failsOnly_ok _

theorem failsOnly_splitInt32 (bytes : Bytes) : FailsOnly Error.Damaged bytes.splitInt32 :=
  failsOnly_bind (failsOnly_split bytes 4) fun _ _ => failsOnly_ok _

theorem failsOnly_splitByte (bytes : Bytes) : FailsOnly Error.Damaged bytes.splitByte :=
  failsOnly_bind (failsOnly_split bytes 1) fun _ _ => failsOnly_ok _

end Bytes

theorem BitStream.failsOnly_ofBytes (bytes : Bytes) : FailsOnly Error.Damaged (ofBytes bytes) := by
  unfold BitStream.ofBytes
  refine failsOnly_bind (Bytes.failsOnly_splitInt32 bytes) fun _ _ => ?_
  refine failsOnly_bind (Bytes.failsOnly_splitByte _) fun _ _ => ?_
  refine failsOnly_guard ⟨_, rfl⟩ ?_
  split
  · refine failsOnly_guard ⟨_, rfl⟩ ?_
    exact failsOnly_bind (Bytes.failsOnly_split _ _) fun _ _ => failsOnly_ok _
  · exact failsOnly_error ⟨_, rfl⟩

namespace SeriesReader

theorem failsOnly_ofBytes (bytes : Bytes) : FailsOnly Error.Damaged (ofBytes bytes) := by
  unfold SeriesReader.ofBytes
  refine failsOnly_bind (Bytes.failsOnly_splitInt32 bytes) fun _ _ => ?_
  refine failsOnly_guard ⟨_, rfl⟩ ?_
  refine failsOnly_bind (BitStream.failsOnly_ofBytes _) fun _ _ => ?_
  refine failsOnly_bind (BitStream.failsOnly_ofBytes _) fun _ _ => ?_
  exact failsOnly_guard ⟨_, rfl⟩ (failsOnly_ok _)

theorem sound_ofBytes {bytes : Bytes} {r : SeriesReader} (h : ofBytes bytes = .ok r) : r.Sound := by
  obtain ⟨_, -, h⟩ := bind_eq_ok.mp h
  obtain ⟨-, h⟩ := guard_eq_ok.mp h
  obtain ⟨_, -, h⟩ := bind_eq_ok.mp h
  obtain ⟨_, -, h⟩ := bind_eq_ok.mp h
  obtain ⟨-, h⟩ := guard_eq_ok.mp h
  obtain rfl := pure_eq_ok.mp h
  exact sound_start _ _ _

/-- **Any bytes are refused or decoded without harm.** They are refused as malformed bytes. What is
decoded are points with times that a point can have, no more of them than announced, and then
perhaps one failure, which says that the bytes are malformed, and then nothing. However far this has
gone, what is left is no more than the reader says, and the next step does not trap. -/
theorem ofBytes_harmless (bytes : Bytes) :
    (∃ why, ofBytes bytes = .error (.malformed why)) ∨
      ∃ r points stop, ofBytes bytes = .ok r ∧ r.Gives points stop ∧
        ∀ k, (r.after k).Trapless := by
  cases hmade : ofBytes bytes with
  | error e =>
    obtain ⟨why, rfl⟩ := failsOnly_ofBytes bytes e hmade
    exact .inl ⟨why, rfl⟩
  | ok r =>
    have hsound := sound_ofBytes hmade
    obtain ⟨points, stop, hgives⟩ := exists_gives hsound
    exact .inr ⟨r, points, stop, rfl, hgives, fun k => (hsound.after k).trapless⟩

end SeriesReader

end TimeSeries
