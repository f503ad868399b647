import Mathlib
import TimeSeries.Proofs.BitStream.Read

/-!
# A stream and its readers at work

A stream is written to while readers that were made of it at different times go through it. What
that should mean can be said without words and shifts: the stream is a list of bits that grows at
its end, and a reader is a position in the list of the bits that there were when it was made. This
is the medium `listed`; the medium `packed` is the one in use.

The main statement is `packed_callEach`: from an empty stream on, the two give the same answers to
all calls, and `view` of the packed state is always the listed one.
-/

namespace TimeSeries

/-! ## Media -/

/-- A way to write bits and to read them. -/
structure BitMedium (σ ρ : Type) where
  write : σ → Nat → UInt64 → Outcome σ Unit
  /-- A reader before the first bit. -/
  start : σ → ρ
  read : Nat → ρ → Except Error (Nat × ρ)
  tryRead : Nat → UInt64 → ρ → Except Error (Bool × ρ)

/-- A position among bits. -/
structure ListReader where
  bits : List Bool
  position : Nat

/-- The number that the next `n` bits spell. -/
def ListReader.read (n : Nat) (r : ListReader) : Except Error (Nat × ListReader) :=
  if 64 < n then .error (.invalid (.readWidth n))
  else if r.bits.length < r.position + n then
    .error (.malformed (.readPastEnd n r.position r.bits.length))
  else .ok (spell ((r.bits.drop r.position).take n), { r with position := r.position + n })

/-- Whether the next `n` bits spell a number. If they do not, the reader stays where it is. -/
def ListReader.tryRead (n : Nat) (expected : UInt64) (r : ListReader) :
    Except Error (Bool × ListReader) :=
  (r.read n).map fun (found, next) =>
    if found = expected.toNat then (true, next) else (false, r)

namespace BitMedium

/-- Bits in words. -/
def packed : BitMedium BitStream BitReader where
  write := BitStream.write
  start := BitReader.start
  read n r := (BitReader.read n r).map fun (found, next) => (found.toNat, next)
  tryRead := BitReader.tryRead

/-- Bits in lists. A field of 1 to 64 bits is put behind the others, the highest bit first. -/
def listed : BitMedium (List Bool) ListReader where
  write bits n value :=
    if 1 ≤ n ∧ n ≤ 64 then (.ok (), bits ++ BitField.bits ⟨n, value⟩)
    else (.error (.invalid (.writeWidth n)), bits)
  start bits := ⟨bits, 0⟩
  read := ListReader.read
  tryRead := ListReader.tryRead

end BitMedium

/-! ## Sessions -/

/-- What is asked of a stream, or of the reader with a number. -/
inductive BitCall where
  | write (n : Nat) (value : UInt64)
  /-- Makes a reader, which gets the next number. -/
  | take
  | read (reader n : Nat)
  | tryRead (reader n : Nat) (expected : UInt64)

/-- What is answered. -/
inductive BitAnswer where
  | done
  | number (n : Nat)
  | found (same : Bool)
  /-- There is no reader with the number. -/
  | absent
  deriving DecidableEq, Repr

/-- A stream with the readers that were made of it. -/
structure BitSession (σ ρ : Type) where
  stream : σ
  readers : List ρ

namespace BitMedium

variable {σ ρ : Type}

/-- One reader makes a step; the others and the stream stay as they are. -/
def step {α : Type} (s : BitSession σ ρ) (i : Nat) (f : ρ → Except Error (α × ρ))
    (answer : α → BitAnswer) : Except Error BitAnswer × BitSession σ ρ :=
  match s.readers[i]? with
  | none => (.ok .absent, s)
  | some r =>
    match f r with
    | .error e => (.error e, s)
    | .ok (a, next) => (.ok (answer a), { s with readers := s.readers.set i next })

/-- The answer to a call, and the session after it. -/
def call (b : BitMedium σ ρ) (s : BitSession σ ρ) :
    BitCall → Except Error BitAnswer × BitSession σ ρ
  | .write n value =>
    let (result, stream) := b.write s.stream n value
    (result.map fun _ => .done, { s with stream })
  | .take => (.ok .done, { s with readers := s.readers ++ [b.start s.stream] })
  | .read i n => step s i (b.read n) .number
  | .tryRead i n expected => step s i (b.tryRead n expected) .found

/-- The answers to some calls, and the session after them. -/
def callEach (b : BitMedium σ ρ) (s : BitSession σ ρ) :
    List BitCall → List (Except Error BitAnswer) × BitSession σ ρ
  | [] => ([], s)
  | c :: calls =>
    let (answer, s) := b.call s c
    let (answers, s) := b.callEach s calls
    (answer :: answers, s)

end BitMedium

/-! ## Packed readers -/

namespace BitReader

/-- The position of a reader and the bits that it is in. -/
def view (r : BitReader) : ListReader := ⟨r.stream.toList, r.position⟩

theorem read_view {r : BitReader} (hr : r.InRange) (n : Nat) :
    r.view.read n = (read n r).map fun (found, next) => (found.toNat, next.view) := by
  simp only [ListReader.read, view, BitStream.length_toList]
  by_cases hwide : 64 < n
  · rw [if_pos hwide, read, if_pos hwide]
    rfl
  rw [if_neg hwide]
  by_cases hend : r.stream.length < r.position + n
  · have hn : n ≠ 0 := by
      rintro rfl
      exact Nat.not_lt.mpr hr hend
    rw [if_pos hend, read, if_neg hwide, if_neg hn, if_pos hend]
    rfl
  rw [if_neg hend]
  by_cases hn : n = 0
  · subst hn
    rw [read, if_neg hwide, if_pos rfl]
    rfl
  have hnumber := (toNat_fieldAt (by omega) (Nat.not_lt.mp hend)).1
  rw [read, if_neg hwide, if_neg hn, if_neg hend, Except.map, hnumber]
  rfl

theorem tryRead_view {r : BitReader} (hr : r.InRange) (n : Nat) (expected : UInt64) :
    r.view.tryRead n expected =
      (tryRead n expected r).map fun (same, next) => (same, next.view) := by
  rw [ListReader.tryRead, read_view hr, tryRead]
  cases read n r with
  | error e => rfl
  | ok found =>
    obtain ⟨found, next⟩ := found
    by_cases hsame : found = expected
    · simp [hsame, Except.map, bind, Except.bind, pure, Except.pure]
    · have hne : found.toNat ≠ expected.toNat := fun heq => hsame (UInt64.toNat_inj.mp heq)
      simp [hsame, hne, Except.map, bind, Except.bind, pure, Except.pure]

end BitReader

/-! ## Packed sessions -/

namespace BitSession

/-- A session of lists for one of words. -/
def view (s : BitSession BitStream BitReader) : BitSession (List Bool) ListReader :=
  ⟨s.stream.toList, s.readers.map BitReader.view⟩

/-- Nothing is set after the end of the stream, and no reader is past the end of its own. -/
structure Sound (s : BitSession BitStream BitReader) : Prop where
  clean : s.stream.Clean
  inRange : ∀ r ∈ s.readers, r.InRange

variable {s : BitSession BitStream BitReader}

/-- A step of a reader that looks the same in both media. -/
theorem Sound.step {α : Type} {f : BitReader → Except Error (α × BitReader)}
    {g : ListReader → Except Error (α × ListReader)} (h : s.Sound) (i : Nat)
    (answer : α → BitAnswer)
    (hview : ∀ r, r.InRange → g r.view = (f r).map fun (a, next) => (a, next.view))
    (hrange : ∀ r a next, r.InRange → f r = .ok (a, next) → next.InRange) :
    let after := BitMedium.step s i f answer
    BitMedium.step s.view i g answer = (after.1, after.2.view) ∧ after.2.Sound := by
  intro after
  have hnow : s.view.readers[i]? = s.readers[i]?.map BitReader.view := List.getElem?_map
  simp only [after, BitMedium.step, hnow]
  cases hi : s.readers[i]? with
  | none => exact ⟨rfl, h⟩
  | some r =>
    have hr := h.inRange r (List.mem_of_getElem? hi)
    simp only [Option.map_some, hview r hr]
    cases hf : f r with
    | error e => exact ⟨rfl, h⟩
    | ok found =>
      obtain ⟨a, next⟩ := found
      refine ⟨?_, h.clean, fun other ho => ?_⟩
      · simp only [Except.map, BitSession.view, List.map_set]
      · rcases List.mem_or_eq_of_mem_set ho with hold | rfl
        · exact h.inRange other hold
        · exact hrange r a other hr hf

/-- **One call.** -/
theorem Sound.call (h : s.Sound) (c : BitCall) :
    let after := BitMedium.packed.call s c
    BitMedium.listed.call s.view c = (after.1, after.2.view) ∧ after.2.Sound := by
  cases c with
  | write n value =>
    by_cases hn : 1 ≤ n ∧ n ≤ 64
    · have hpacked : BitMedium.packed.write s.stream n value =
          (.ok (), s.stream.append n value hn.2) := dif_pos hn
      have hlisted : BitMedium.listed.write s.view.stream n value =
          (.ok (), s.view.stream ++ BitField.bits ⟨n, value⟩) := if_pos hn
      simp only [BitMedium.call, hpacked, hlisted]
      refine ⟨?_, BitStream.clean_append h.clean value hn, h.inRange⟩
      simp only [BitSession.view, BitStream.toList_append h.clean value hn]
    · have hpacked : BitMedium.packed.write s.stream n value =
          (.error (.invalid (.writeWidth n)), s.stream) := dif_neg hn
      have hlisted : BitMedium.listed.write s.view.stream n value =
          (.error (.invalid (.writeWidth n)), s.view.stream) := if_neg hn
      simp only [BitMedium.call, hpacked, hlisted]
      exact ⟨trivial, h⟩
  | take =>
    refine ⟨?_, h.clean, fun r hr => ?_⟩
    · simp only [BitMedium.call, BitSession.view, List.map_append, List.map_cons, List.map_nil]
      rfl
    · rcases List.mem_append.mp hr with hold | hnew
      · exact h.inRange r hold
      · obtain rfl := List.mem_singleton.mp hnew
        exact BitReader.inRange_start s.stream
  | read i n =>
    refine h.step i _ (fun r hr => ?_) (fun r a next hr hf => ?_)
    · refine (BitReader.read_view hr n).trans ?_
      simp only [BitMedium.packed]
      cases BitReader.read n r <;> rfl
    · simp only [BitMedium.packed] at hf
      cases hread : BitReader.read n r with
      | error e =>
        rw [hread] at hf
        exact absurd hf (by simp [Except.map])
      | ok found =>
        rw [hread] at hf
        obtain ⟨-, rfl⟩ := Prod.mk.inj (Except.ok.inj hf)
        exact hr.read hread
  | tryRead i n expected =>
    refine h.step i _ (fun r hr => BitReader.tryRead_view hr n expected) ?_
    intro r a next hr hf
    exact hr.tryRead hf

theorem Sound.callEach (h : s.Sound) (calls : List BitCall) :
    let after := BitMedium.packed.callEach s calls
    BitMedium.listed.callEach s.view calls = (after.1, after.2.view) := by
  induction calls generalizing s with
  | nil => rfl
  | cons c calls ih =>
    obtain ⟨hcall, hsound⟩ := h.call c
    have hrest := ih hsound
    simp only [BitMedium.callEach, hcall, hrest]

end BitSession

/-- **Words and shifts come to lists of bits.** Whatever is written to a stream that began with any
room, and whatever is read meanwhile by readers that were made of it at any time, every answer is
the one that lists of bits give, and so are the bits and positions in the end. -/
theorem BitMedium.packed_callEach (words : Nat) (calls : List BitCall) :
    let after := packed.callEach ⟨BitStream.withCapacity words, []⟩ calls
    listed.callEach ⟨[], []⟩ calls = (after.1, after.2.view) := by
  have hsound : BitSession.Sound ⟨BitStream.withCapacity words, []⟩ := by
    refine ⟨BitStream.clean_withCapacity words, fun r hr => ?_⟩
    exact absurd hr (by simp)
  have hview : BitSession.view ⟨BitStream.withCapacity words, []⟩ = ⟨[], []⟩ := by
    rw [BitSession.view, BitStream.toList_withCapacity, List.map_nil]
  rw [← hview]
  exact hsound.callEach calls

/-- A reader does not see what is written after it was made. -/
example : (BitMedium.packed.callEach ⟨BitStream.withCapacity 1, []⟩
    [.write 3 13, .take, .write 64 0, .read 0 3, .read 0 1]).1 =
    [.ok .done, .ok .done, .ok .done, .ok (.number 5), .error (.malformed (.readPastEnd 1 3 3))] :=
  by decide +kernel

end TimeSeries
