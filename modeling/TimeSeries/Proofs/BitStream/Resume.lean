import Mathlib
import TimeSeries.Proofs.BitStream.Inverse
import TimeSeries.Proofs.BitStream.Read

/-!
# Writing to a stream that was read from bytes

A write sets bits and clears none. What it leaves in the words is its field, joined with what the
words held in the place of the field. Streams that were only written to hold zeros there. A stream
that was read from bytes can hold anything in the rest of its last word, and what is set there comes
up in the fields that are written over it.

So what is read back of a stream that was written to is always what `joined` says. It is what was
written just if nothing is set where a field has a zero, and it is so for all fields just if the rest
of the last word is zero.
-/

namespace TimeSeries

/-! ## Fields -/

instance : DecidablePred BitField.Writable := fun f =>
  inferInstanceAs (Decidable (1 ≤ f.width ∧ f.width ≤ 64))

namespace BitField

/-- The low bits of the value of a field, which are what is written of it. -/
def low (f : BitField) : UInt64 := UInt64.ofNat (f.value.toNat % 2 ^ f.width)

theorem testBit_low (f : BitField) (j : Nat) :
    f.low.toNat.testBit j = (decide (j < f.width) && f.value.toNat.testBit j) := by
  have hlt : f.value.toNat % 2 ^ f.width < 2 ^ 64 :=
    Nat.lt_of_le_of_lt (Nat.mod_le _ _) f.value.toNat_lt
  rw [low, UInt64.toNat_ofNat', Nat.mod_eq_of_lt hlt, Nat.testBit_mod_two_pow]

theorem getElem?_bits (f : BitField) (i : Nat) : f.bits[i]? =
    if i < f.width then some (f.value.toNat.testBit (f.width - 1 - i)) else none := by
  by_cases hi : i < f.width
  · rw [bits, List.getElem?_map, List.getElem?_range hi, if_pos hi]
    rfl
  · rw [List.getElem?_eq_none (by simpa using hi), if_neg hi]

end BitField

/-- Whatever holds of the places of an element in two lists, one behind the other. -/
theorem forall_getElem?_append {α : Type} {front back : List α} {x : α} {P : Nat → Prop} :
    (∀ i, (front ++ back)[i]? = some x → P i) ↔
      (∀ i, front[i]? = some x → P i) ∧ ∀ i, back[i]? = some x → P (front.length + i) := by
  constructor
  · refine fun h => ⟨fun i hi => h i ?_, fun i hi => h _ ?_⟩
    · obtain ⟨hlt, -⟩ := List.getElem?_eq_some_iff.mp hi
      rw [List.getElem?_append_left hlt, hi]
    · rw [List.getElem?_append_right (Nat.le_add_right _ _), Nat.add_sub_cancel_left, hi]
  · rintro ⟨hfront, hback⟩ i hi
    rcases Nat.lt_or_ge i front.length with hlt | hge
    · rw [List.getElem?_append_left hlt] at hi
      exact hfront i hi
    · rw [List.getElem?_append_right hge] at hi
      have hplace := hback _ hi
      rwa [Nat.add_sub_cancel' hge] at hplace

namespace BitStream

/-! ## Bits after writes -/

/-- The fields that are not refused. -/
def written (fields : List BitField) : List BitField := fields.filter (·.Writable)

theorem writable_of_mem_written {fields : List BitField} :
    ∀ f ∈ written fields, f.Writable := fun _ hf => of_decide_eq_true (List.mem_filter.mp hf).2

/-- Each field that is not refused joins its bits with those that are in its place. -/
theorem writeEach_spec (s : BitStream) (fields : List BitField) :
    (s.writeEach fields).length = s.length + (bitsOf (written fields)).length ∧
      ∀ i, (s.writeEach fields).bit i = (s.bit i ||
        (decide (s.length ≤ i) && (bitsOf (written fields))[i - s.length]?.getD false)) := by
  induction fields generalizing s with
  | nil => simp [writeEach, written]
  | cons f fields ih =>
    by_cases hf : f.Writable
    · have hwrite : s.writeEach (f :: fields) =
          (s.append f.width f.value hf.2).writeEach fields := by
        rw [writeEach, List.foldl_cons, write, dif_pos (show 1 ≤ f.width ∧ f.width ≤ 64 from hf)]
        rfl
      have hfields : written (f :: fields) = f :: written fields :=
        List.filter_cons_of_pos (decide_eq_true hf)
      obtain ⟨hlength, hbit⟩ := ih (s.append f.width f.value hf.2)
      have hend : (s.append f.width f.value hf.2).length = s.length + f.width := rfl
      rw [hwrite, hfields, bitsOf_cons, hlength, hend, List.length_append, BitField.length_bits,
        Nat.add_assoc]
      refine ⟨rfl, fun i => ?_⟩
      rw [hbit, hend, bit_append s f.value hf, Bool.or_assoc]
      congr 1
      -- the position is before the field, in it, or behind it
      rcases Nat.lt_or_ge i s.length with hi | hi
      · simp [show ¬ s.length ≤ i by omega, show ¬ s.length + f.width ≤ i by omega]
      rcases Nat.lt_or_ge i (s.length + f.width) with hi' | hi'
      · rw [List.getElem?_append_left (by rw [BitField.length_bits]; omega),
          BitField.getElem?_bits, if_pos (by omega)]
        simp [hi, hi', show ¬ s.length + f.width ≤ i by omega,
          show s.length + f.width - 1 - i = f.width - 1 - (i - s.length) by omega]
      · rw [List.getElem?_append_right (by rw [BitField.length_bits]; omega),
          BitField.length_bits]
        simp [hi, hi', show ¬ i < s.length + f.width by omega, Nat.sub_sub]
    · have hwrite : s.writeEach (f :: fields) = s.writeEach fields := by
        rw [writeEach, List.foldl_cons, write,
          dif_neg (show ¬ (1 ≤ f.width ∧ f.width ≤ 64) from hf)]
        rfl
      have hfields : written (f :: fields) = written fields :=
        List.filter_cons_of_neg (by simpa using hf)
      rw [hwrite, hfields]
      exact ih s

end BitStream

namespace BitReader

open BitStream

/-! ## Reading fields one after the other -/

/-- Reads fields of some widths. -/
def readEach : List Nat → Step (List UInt64)
  | [] => return []
  | n :: widths => do
    let found ← read n
    let more ← readEach widths
    return found :: more

/-- The fields of some widths from a position on. -/
def fieldsAt (words : Array UInt64) : Nat → List Nat → List UInt64
  | _, [] => []
  | p, n :: widths => fieldAt words p n :: fieldsAt words (p + n) widths

theorem readEach_eq {s : BitStream} {widths : List Nat} (hw : ∀ n ∈ widths, 1 ≤ n ∧ n ≤ 64)
    {p : Nat} (hend : p + widths.sum ≤ s.length) :
    readEach widths ⟨s, p⟩ = .ok (fieldsAt s.words p widths, ⟨s, p + widths.sum⟩) := by
  induction widths generalizing p with
  | nil => rfl
  | cons n widths ih =>
    obtain ⟨hn, hwidths⟩ := List.forall_mem_cons.mp hw
    rw [List.sum_cons, ← Nat.add_assoc] at hend
    have hread : read n ⟨s, p⟩ = .ok (fieldAt s.words p n, ⟨s, p + n⟩) := by
      rw [read, if_neg (by omega), if_neg (by omega), if_neg (by dsimp only; omega)]
    show (read n ⟨s, p⟩ >>= fun x => readEach widths x.2 >>= fun y => pure (x.1 :: y.1, y.2)) = _
    rw [hread, ok_bind, ih hwidths hend, ok_bind, List.sum_cons, ← Nat.add_assoc]
    rfl

theorem fieldsAt_append (words : Array UInt64) (p : Nat) (widths more : List Nat) :
    fieldsAt words p (widths ++ more) =
      fieldsAt words p widths ++ fieldsAt words (p + widths.sum) more := by
  induction widths generalizing p with
  | nil => rfl
  | cons n widths ih =>
    rw [List.cons_append, fieldsAt, ih, List.sum_cons, ← Nat.add_assoc]
    rfl

/-- Fields of one bit are bits. -/
theorem fieldsAt_replicate (words : Array UInt64) (p count : Nat) :
    fieldsAt words p (List.replicate count 1) =
      (List.range count).map fun i => (bitIn words (p + i)).toUInt64 := by
  have hone : ∀ p, fieldAt words p 1 = (bitIn words p).toUInt64 := by
    intro p
    refine UInt64.toNat_inj.mp (Nat.eq_of_testBit_eq fun j => ?_)
    rw [testBit_fieldAt (by omega)]
    cases j with
    | zero => cases hbit : bitIn words p <;> simp [hbit, Bool.toUInt64]
    | succ j => cases bitIn words p <;> simp [Bool.toUInt64, Nat.testBit_add_one]
  induction count generalizing p with
  | zero => rfl
  | succ count ih =>
    rw [List.replicate_succ, fieldsAt, ih, hone, List.range_succ_eq_map, List.map_cons,
      List.map_map]
    simp [Function.comp_def, Nat.add_assoc, Nat.add_comm 1]

end BitReader

namespace BitStream

open BitReader

/-! ## Fields over other bits -/

/-- What is read of fields that were written over words from a position on. -/
def joined (words : Array UInt64) : Nat → List BitField → List UInt64
  | _, [] => []
  | p, f :: fields => (f.low ||| fieldAt words p f.width) :: joined words (p + f.width) fields

/-- Where words hold the bits of fields joined with those of other words, the fields are read
joined. -/
theorem fieldsAt_eq_joined {words words' : Array UInt64} {fields : List BitField}
    (hf : ∀ f ∈ fields, f.Writable) {p : Nat} (h : ∀ i b, (bitsOf fields)[i]? = some b →
      bitIn words' (p + i) = (bitIn words (p + i) || b)) :
    fieldsAt words' p (fields.map BitField.width) = joined words p fields := by
  induction fields generalizing p with
  | nil => rfl
  | cons f fields ih =>
    obtain ⟨hwritable, hfields⟩ := List.forall_mem_cons.mp hf
    rw [List.map_cons, fieldsAt, joined]
    congr 1
    · refine UInt64.toNat_inj.mp (Nat.eq_of_testBit_eq fun j => ?_)
      rw [testBit_fieldAt hwritable, UInt64.toNat_or, Nat.testBit_or, BitField.testBit_low,
        testBit_fieldAt hwritable]
      by_cases hj : j < f.width
      · -- the bit `j` of a number is the one that stands so far from the end of the field
        have hplace := h (f.width - 1 - j) (f.value.toNat.testBit j) (by
          rw [bitsOf_cons, List.getElem?_append_left (by rw [BitField.length_bits]; omega),
            BitField.getElem?_bits, if_pos (by omega),
            show f.width - 1 - (f.width - 1 - j) = j by omega])
        rw [show p + (f.width - 1 - j) = p + f.width - 1 - j by omega] at hplace
        simp [hj, hplace, Bool.or_comm]
      · simp [hj]
    · refine ih hfields fun i b hb => ?_
      have hplace := h (f.width + i) b (by
        rwa [bitsOf_cons, List.getElem?_append_right (by rw [BitField.length_bits]; omega),
          BitField.length_bits, Nat.add_sub_cancel_left])
      rwa [← Nat.add_assoc] at hplace

/-- A field is not changed by bits that are set where it has a one. -/
theorem low_or_eq_iff {words : Array UInt64} {f : BitField} (hf : f.Writable) (p : Nat) :
    f.low ||| fieldAt words p f.width = f.low ↔
      ∀ i, f.bits[i]? = some false → bitIn words (p + i) = false := by
  constructor
  · intro h i hi
    rw [BitField.getElem?_bits] at hi
    split at hi
    · rename_i hlt
      have hbit := congrArg (fun w => w.toNat.testBit (f.width - 1 - i)) h
      simp only [UInt64.toNat_or, Nat.testBit_or, BitField.testBit_low, Option.some_inj.mp hi,
        testBit_fieldAt hf, Bool.and_false, Bool.false_or] at hbit
      rwa [decide_eq_true (by omega), Bool.true_and,
        show p + f.width - 1 - (f.width - 1 - i) = p + i by omega] at hbit
    · exact absurd hi (by simp)
  · intro h
    refine UInt64.toNat_inj.mp (Nat.eq_of_testBit_eq fun j => ?_)
    rw [UInt64.toNat_or, Nat.testBit_or, BitField.testBit_low, testBit_fieldAt hf]
    by_cases hj : j < f.width
    · cases hbit : f.value.toNat.testBit j with
      | true => simp [hj]
      | false =>
        have hclear := h (f.width - 1 - j) (by
          rw [BitField.getElem?_bits, if_pos (by omega),
            show f.width - 1 - (f.width - 1 - j) = j by omega, hbit])
        rw [show p + (f.width - 1 - j) = p + f.width - 1 - j by omega] at hclear
        simp [hclear]
    · simp [hj]

/-- Fields are not changed by bits that are set where they have ones. -/
theorem joined_eq_low_iff {words : Array UInt64} {fields : List BitField}
    (hf : ∀ f ∈ fields, f.Writable) (p : Nat) :
    joined words p fields = fields.map BitField.low ↔
      ∀ i, (bitsOf fields)[i]? = some false → bitIn words (p + i) = false := by
  induction fields generalizing p with
  | nil => simp [joined]
  | cons f fields ih =>
    obtain ⟨hwritable, hfields⟩ := List.forall_mem_cons.mp hf
    rw [joined, List.map_cons, List.cons.injEq, low_or_eq_iff hwritable, ih hfields, bitsOf_cons,
      forall_getElem?_append, BitField.length_bits]
    simp only [Nat.add_assoc]

/-! ## Reading back -/

/-- **A stream that was written to is read back**, bit by bit as far as it was there before, and then
field by field. -/
theorem readEach_writeEach (s : BitStream) (fields : List BitField) :
    readEach (List.replicate s.length 1 ++ (written fields).map BitField.width)
        (start (s.writeEach fields)) =
      .ok (s.toList.map Bool.toUInt64 ++ joined s.words s.length (written fields),
        ⟨s.writeEach fields, (s.writeEach fields).length⟩) := by
  obtain ⟨hlength, hbit⟩ := s.writeEach_spec fields
  have hsum : ((written fields).map BitField.width).sum = (bitsOf (written fields)).length := by
    rw [bitsOf, List.length_flatMap]
    simp only [BitField.length_bits]
  have hwidths : ∀ n ∈ List.replicate s.length 1 ++ (written fields).map BitField.width,
      1 ≤ n ∧ n ≤ 64 := by
    intro n hn
    rcases List.mem_append.mp hn with hn | hn
    · rw [List.eq_of_mem_replicate hn]
      exact ⟨le_rfl, by omega⟩
    · obtain ⟨f, hf, rfl⟩ := List.mem_map.mp hn
      exact writable_of_mem_written f hf
  have hend : 0 + (List.replicate s.length 1 ++ (written fields).map BitField.width).sum =
      (s.writeEach fields).length := by
    rw [List.sum_append, List.sum_replicate, hsum, hlength]
    simp
  rw [start, readEach_eq hwidths hend.le, hend, fieldsAt_append, fieldsAt_replicate,
    List.sum_replicate, smul_eq_mul, mul_one, Nat.zero_add]
  congr 3
  · rw [toList, List.map_map]
    refine List.map_congr_left fun i hi => ?_
    have hi := List.mem_range.mp hi
    rw [Nat.zero_add, ← bit_eq, hbit, decide_eq_false (by omega), Bool.false_and, Bool.or_false]
    rfl
  · refine fieldsAt_eq_joined writable_of_mem_written fun i b hb => ?_
    rw [← bit_eq, ← bit_eq, hbit, decide_eq_true (Nat.le_add_right _ _),
      Nat.add_sub_cancel_left, hb]
    rfl

/-- What is written to a stream comes back behind the bits that it had: of each field that is not
refused, the low bits of the value. -/
def Resumes (s : BitStream) (fields : List BitField) : Prop :=
  readEach (List.replicate s.length 1 ++ (written fields).map BitField.width)
      (start (s.writeEach fields)) =
    .ok (s.toList.map Bool.toUInt64 ++ (written fields).map BitField.low,
      ⟨s.writeEach fields, (s.writeEach fields).length⟩)

theorem resumes_iff_joined {s : BitStream} {fields : List BitField} :
    s.Resumes fields ↔
      joined s.words s.length (written fields) = (written fields).map BitField.low := by
  rw [Resumes, readEach_writeEach, Except.ok.injEq, Prod.mk.injEq, List.append_cancel_left_eq]
  exact and_iff_left rfl

/-- Nothing may be set where a field has a zero. -/
theorem resumes_iff {s : BitStream} {fields : List BitField} :
    s.Resumes fields ↔
      ∀ i, (bitsOf (written fields))[i]? = some false → s.bit (s.length + i) = false :=
  resumes_iff_joined.trans (joined_eq_low_iff writable_of_mem_written s.length)

/-- Whatever is written comes back just if the stream is clean. -/
theorem forall_resumes_iff {s : BitStream} : (∀ fields, s.Resumes fields) ↔ s.Clean := by
  constructor
  · intro h i hi
    -- zeros are written until the position is reached
    let zeros : List BitField := List.replicate (i - s.length + 1) ⟨1, 0⟩
    have hwritten : written zeros = zeros :=
      List.filter_eq_self.mpr fun f hf => by rw [List.eq_of_mem_replicate hf]; rfl
    have hbits : bitsOf (written zeros) = List.replicate (i - s.length + 1) false := by
      rw [hwritten, bitsOf, List.flatMap_replicate, show BitField.bits ⟨1, 0⟩ = [false] from rfl,
        List.flatten_replicate_singleton]
    have hbit := resumes_iff.mp (h zeros) (i - s.length) (by
      rw [hbits, List.getElem?_replicate, if_pos (Nat.lt_succ_self _)])
    rwa [Nat.add_sub_cancel' hi] at hbit
  · intro h fields
    exact resumes_iff.mpr fun i _ => h _ (Nat.le_add_right _ _)

theorem Vacant.clean_iff {s : BitStream} (h : s.Vacant) :
    s.Clean ↔ ∀ i, s.length ≤ i → i < 64 * s.usedWords → s.bit i = false := by
  refine ⟨fun hclean i hi _ => hclean i hi, fun hlast i hi => ?_⟩
  rcases Nat.lt_or_ge i (64 * s.usedWords) with hlt | hge
  · exact hlast i hi hlt
  · exact h i hge

/-- **What is written behind bytes joins with their last word.** A stream that was read from bytes
and then written to has first the bits that it had, and then the fields, each joined with what the
last word held in its place. The fields come back just if nothing was set where they have a zero,
and all fields do just if the rest of the last word was zero. -/
theorem resumed_joins {bytes rest : Bytes} {s : BitStream} (h : ofBytes bytes = .ok (s, rest)) :
    (∀ fields, readEach (List.replicate s.length 1 ++ (written fields).map BitField.width)
        (start (s.writeEach fields)) =
      .ok (s.toList.map Bool.toUInt64 ++ joined s.words s.length (written fields),
        ⟨s.writeEach fields, (s.writeEach fields).length⟩)) ∧
    (∀ fields, s.Resumes fields ↔
      ∀ i, (bitsOf (written fields))[i]? = some false → s.bit (s.length + i) = false) ∧
    ((∀ fields, s.Resumes fields) ↔
      ∀ i, s.length ≤ i → i < 64 * s.usedWords → s.bit i = false) :=
  ⟨s.readEach_writeEach, fun _ => resumes_iff,
    forall_resumes_iff.trans (Made.read h).vacant.clean_iff⟩

/-- Three bits in a word with another bit set behind them. Of the three fields that are written the
second is refused; a bit comes up in the first one, and none in the last. -/
theorem resumed_joins_sample :
    let bytes : Bytes := [0, 0, 0, 1, 3, 0xA8, 0, 0, 0, 0, 0, 0, 0]
    let fields : List BitField := [⟨4, 1⟩, ⟨65, 7⟩, ⟨64, 5⟩]
    ∃ s, ofBytes (bytes ++ [7]) = .ok (s, [7]) ∧
      readEach [1, 1, 1, 4, 64] (start (s.writeEach fields)) =
        .ok ([1, 0, 1, 5, 5], ⟨s.writeEach fields, 71⟩) ∧
      ¬ s.Resumes fields ∧ s.Resumes [⟨2, 1⟩, ⟨64, 5⟩] := by
  intro bytes fields
  let s : BitStream := ofWords [0xA800000000000000] 3 (by decide)
  have hframe : frame [0xA800000000000000] 3 = bytes := by decide +kernel
  have hs : ofBytes (bytes ++ [7]) = .ok (s, [7]) := by
    rw [← hframe]
    exact ofBytes_frame (by decide) (by decide) (by decide) [7]
  obtain ⟨hread, hresumes, -⟩ := resumed_joins hs
  have hwidths : List.replicate s.length 1 ++ (written fields).map BitField.width =
      [1, 1, 1, 4, 64] := by decide +kernel
  have hfound : s.toList.map Bool.toUInt64 ++ joined s.words s.length (written fields) =
      [1, 0, 1, 5, 5] := by decide +kernel
  have hend : (s.writeEach fields).length = 71 := by decide +kernel
  have hback := hread fields
  rw [hwidths, hfound, hend] at hback
  refine ⟨s, hs, hback, fun h => ?_, (hresumes _).mpr fun i hi => ?_⟩
  · exact absurd ((hresumes fields).mp h 1 (by decide +kernel)) (by decide +kernel)
  · have hclear : ∀ i < 66, (bitsOf (written [⟨2, 1⟩, ⟨64, 5⟩]))[i]? = some false →
        s.bit (s.length + i) = false := by decide +kernel
    exact hclear i (List.getElem?_eq_some_iff.mp hi).1 hi

/-- A bit is set behind the one bit of a stream: the zero that is written is read as a one. -/
theorem resumed_zero_lost :
    let bytes : Bytes := [0, 0, 0, 1, 1, 0xC0, 0, 0, 0, 0, 0, 0, 0]
    ∃ s, ofBytes bytes = .ok (s, []) ∧ s.toList = [true] ∧
      readEach [1, 1] (start (s.writeEach [⟨1, 0⟩])) = .ok ([1, 1], ⟨s.writeEach [⟨1, 0⟩], 2⟩) ∧
      ¬ s.Resumes [⟨1, 0⟩] := by
  intro bytes
  let s : BitStream := ofWords [0xC000000000000000] 1 (by decide)
  have hframe : frame [0xC000000000000000] 1 = bytes := by decide +kernel
  have hs : ofBytes (bytes ++ []) = .ok (s, []) := by
    rw [← hframe]
    exact ofBytes_frame (by decide) (by decide) (by decide) []
  rw [List.append_nil] at hs
  have hback := s.readEach_writeEach [⟨1, 0⟩]
  have hwidths : List.replicate s.length 1 ++ (written [⟨1, 0⟩]).map BitField.width = [1, 1] := by
    decide +kernel
  have hfound : s.toList.map Bool.toUInt64 ++ joined s.words s.length (written [⟨1, 0⟩]) =
      [1, 1] := by decide +kernel
  have hend : (s.writeEach [⟨1, 0⟩]).length = 2 := by decide +kernel
  rw [hwidths, hfound, hend] at hback
  refine ⟨s, hs, by decide +kernel, hback, fun h => ?_⟩
  exact absurd (resumes_iff.mp h 0 (by decide +kernel)) (by decide +kernel)

end BitStream

end TimeSeries
