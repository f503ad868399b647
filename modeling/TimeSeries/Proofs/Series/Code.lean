import Mathlib
import TimeSeries.SeriesReader
import TimeSeries.Proofs.BitStream.Read
import TimeSeries.Proofs.Series.Window

/-!
# The codes of times and values

What is written for the difference of two distances, and for a value after another, is read back
by a reader that has the bits ahead of it, whatever comes behind them. The reader finds the code
of a difference by its mark, and none of the marks begins with another.
-/

namespace TimeSeries

open BitReader

/-! ## Times -/

namespace ChangeCode

/-- The differences of a code fit into its fields. -/
structure WellFormed (c : ChangeCode) : Prop where
  mark : 1 ≤ c.markWidth ∧ c.markWidth ≤ 64
  mark_fits : c.mark.toNat < 2 ^ c.markWidth
  width : 1 ≤ c.width ∧ c.width ≤ 64
  bias_fits : 2 * c.bias + 1 < 2 ^ c.width

theorem wellFormed_of_mem {c : ChangeCode} (h : c ∈ smallChanges) : c.WellFormed := by
  simp only [smallChanges, List.mem_cons, List.not_mem_nil, or_false] at h
  rcases h with rfl | rfl | rfl <;> constructor <;> decide

theorem wellFormed_large : largeChange.WellFormed := by constructor <;> decide

variable {c : ChangeCode} {change : Int}

theorem writable_fields (hc : c.WellFormed) : ∀ f ∈ c.fields change, f.Writable := by
  intro f hf
  simp only [fields, List.mem_cons, List.not_mem_nil, or_false] at hf
  rcases hf with rfl | rfl
  · exact hc.mark
  · exact hc.width

/-- The bits of the mark of a code. -/
def markBits (c : ChangeCode) : List Bool := (BitField.mk c.markWidth c.mark).bits

@[simp] theorem length_markBits : c.markBits.length = c.markWidth := BitField.length_bits _

/-- The bits that stand behind the mark of a code. -/
def shiftBits (c : ChangeCode) (change : Int) : List Bool :=
  (BitField.mk c.width (UInt64.ofNat (change + c.bias).toNat)).bits

theorem bitsOf_fields : bitsOf (c.fields change) = c.markBits ++ c.shiftBits change := by
  simp [fields, markBits, shiftBits]

theorem toNat_shift (hc : c.WellFormed) (h : c.holds change = true) :
    (UInt64.ofNat (change + c.bias).toNat).toNat = (change + c.bias).toNat ∧
      (change + c.bias).toNat < 2 ^ c.width := by
  simp only [holds, Bool.and_eq_true, decide_eq_true_eq] at h
  have hlt : (change + c.bias).toNat < 2 ^ c.width := by
    have := hc.bias_fits
    zify
    omega
  refine ⟨?_, hlt⟩
  rw [UInt64.toNat_ofNat', Nat.mod_eq_of_lt]
  exact Nat.lt_of_lt_of_le hlt (Nat.pow_le_pow_right (by omega) hc.width.2)

/-- Behind the mark of a code stands the difference. -/
theorem read_shift (hc : c.WellFormed) (h : c.holds change = true) {r : BitReader}
    {tail : List Bool} (hr : r.rest = c.shiftBits change ++ tail) :
    ∃ v next, read c.width r = .ok (v, next) ∧ Int.ofNat v.toNat - c.bias = change ∧
      next.rest = tail := by
  obtain ⟨same, fits⟩ := toNat_shift hc h
  obtain ⟨next, hread, ht⟩ := read_field hr hc.width.2 (by rw [same]; exact fits)
  refine ⟨_, next, hread, ?_, ht⟩
  simp only [holds, Bool.and_eq_true, decide_eq_true_eq] at h
  rw [same]
  simp only [Int.ofNat_eq_natCast]
  omega

end ChangeCode

namespace SeriesReader

/-- A code whose mark is not ahead is passed over. -/
theorem readChangeBy_miss {c : ChangeCode} {codes : List ChangeCode} {r : BitReader}
    (bits : List Bool) {tail : List Bool} (hr : r.rest = bits ++ tail)
    (hl : bits.length = c.markWidth) (hn : c.markWidth ≤ 64)
    (other : UInt64.ofNat (spell bits) ≠ c.mark) :
    readChangeBy (c :: codes) r = readChangeBy codes r := by
  have hmiss := tryRead_miss bits hr (by omega) other
  rw [hl] at hmiss
  simp [readChangeBy, bind, StateT.bind, Except.bind, hmiss]

/-- A code whose mark is ahead gives the difference behind the mark. -/
theorem readChangeBy_hit {c : ChangeCode} {codes : List ChangeCode} {change : Int} {r : BitReader}
    {tail : List Bool} (hc : c.WellFormed) (h : c.holds change = true)
    (hr : r.rest = bitsOf (c.fields change) ++ tail) :
    ∃ next, readChangeBy (c :: codes) r = .ok (change, next) ∧ next.rest = tail := by
  rw [ChangeCode.bitsOf_fields, List.append_assoc] at hr
  have same : UInt64.ofNat (spell c.markBits) = c.mark := by
    rw [ChangeCode.markBits, spell_bits, Nat.mod_eq_of_lt hc.mark_fits, UInt64.ofNat_toNat]
  obtain ⟨marked, hmark, hrest⟩ := tryRead_hit hr (by simpa using hc.mark.2) same
  obtain ⟨v, next, hread, hv, ht⟩ := ChangeCode.read_shift hc h hrest
  rw [ChangeCode.length_markBits] at hmark
  refine ⟨next, ?_, ht⟩
  simp [readChangeBy, bind, StateT.bind, Except.bind, pure, StateT.pure, Except.pure, hmark,
    hread]
  exact hv

/-- When none of the marks is ahead, the difference is in the large code. -/
theorem readChangeBy_large {change : Int} {r : BitReader} {tail : List Bool}
    (h : largeChange.holds change = true)
    (hr : r.rest = bitsOf (largeChange.fields change) ++ tail) :
    ∃ next, readChangeBy [] r = .ok (change, next) ∧ next.rest = tail := by
  have hc := ChangeCode.wellFormed_large
  rw [ChangeCode.bitsOf_fields, List.append_assoc] at hr
  obtain ⟨marked, hmark, hrest⟩ := read_field hr hc.mark.2 hc.mark_fits
  obtain ⟨v, next, hread, hv, ht⟩ := ChangeCode.read_shift hc h hrest
  refine ⟨next, ?_, ht⟩
  simp only at hmark
  simp [readChangeBy, bind, StateT.bind, Except.bind, pure, StateT.pure, Except.pure, hmark,
    hread]
  exact hv

end SeriesReader

theorem writable_changeFields {change : Int} {fields : List BitField}
    (h : changeFields change = .ok fields) : ∀ f ∈ fields, f.Writable := by
  unfold changeFields at h
  split at h
  · obtain rfl := Except.ok.inj h
    simp [BitField.Writable]
  · split at h
    · rename_i code hcode
      obtain rfl := Except.ok.inj h
      have hmem := List.mem_of_find?_eq_some hcode
      exact ChangeCode.writable_fields (ChangeCode.wellFormed_of_mem hmem)
    · split at h
      · obtain rfl := Except.ok.inj h
        exact ChangeCode.writable_fields ChangeCode.wellFormed_large
      · exact absurd h (by simp)

namespace SeriesReader

/-- A mark of small differences or the large mark begins with a one, unlike no difference. -/
theorem readChange_mark {tail : List Bool} {r : BitReader} (hr : r.rest = [true] ++ tail) :
    readChange r = readChangeBy smallChanges r := by
  have hmiss : tryRead 1 0 r = .ok (false, r) := tryRead_miss [true] hr (by decide) (by decide)
  simp [readChange, bind, StateT.bind, Except.bind, hmiss]

/-- **The fields of a difference are read back as the difference.** -/
theorem readChange_changeFields {change : Int} {fields : List BitField}
    (h : changeFields change = .ok fields) {r : BitReader} {tail : List Bool}
    (hr : r.rest = bitsOf fields ++ tail) :
    ∃ next, readChange r = .ok (change, next) ∧ next.rest = tail := by
  unfold changeFields at h
  split at h
  · rename_i hz
    obtain rfl := Except.ok.inj h
    obtain ⟨next, hread, ht⟩ : ∃ next, tryRead 1 0 r = .ok (true, next) ∧ next.rest = tail :=
      tryRead_hit hr (by decide) (by decide)
    refine ⟨next, ?_, ht⟩
    simp [readChange, bind, StateT.bind, Except.bind, pure, StateT.pure, Except.pure, hread, hz]
  · split at h
    · rename_i code hcode
      obtain rfl := Except.ok.inj h
      have hmem := List.mem_of_find?_eq_some hcode
      have hholds := List.find?_some hcode
      simp only [smallChanges, List.mem_cons, List.not_mem_nil, or_false] at hmem
      have hw := ChangeCode.wellFormed_of_mem (List.mem_of_find?_eq_some hcode)
      have hit (codes : List ChangeCode) :
          ∃ next, readChangeBy (code :: codes) r = .ok (change, next) ∧ next.rest = tail :=
        readChangeBy_hit hw hholds hr
      rw [ChangeCode.bitsOf_fields, List.append_assoc] at hr
      -- the marks before the one that was written are not ahead, and are passed over
      rcases hmem with rfl | rfl | rfl
      · rw [readChange_mark hr]
        exact hit _
      · rw [readChange_mark hr, smallChanges,
          readChangeBy_miss [true, true] hr rfl (by decide) (by decide)]
        exact hit _
      · rw [readChange_mark hr, smallChanges,
          readChangeBy_miss [true, true] hr rfl (by decide) (by decide),
          readChangeBy_miss [true, true, true] hr rfl (by decide) (by decide)]
        exact hit _
    · split at h
      · rename_i hholds
        obtain rfl := Except.ok.inj h
        have large := readChangeBy_large hholds hr
        rw [ChangeCode.bitsOf_fields, List.append_assoc] at hr
        rw [readChange_mark hr, smallChanges,
          readChangeBy_miss [true, true] hr rfl (by decide) (by decide),
          readChangeBy_miss [true, true, true] hr rfl (by decide) (by decide),
          readChangeBy_miss [true, true, true, true] hr rfl (by decide) (by decide)]
        exact large
      · exact absurd h (by simp)

end SeriesReader

/-! ## Values -/

theorem writable_valueFields (before bits : UInt64) (window : BitWindow) :
    ∀ f ∈ (valueFields before bits window).1, f.Writable := by
  have covers := BitWindow.covers_of (bits ^^^ before)
  unfold valueFields
  dsimp only
  split
  · simp [BitField.Writable]
  · rename_i hne
    split
    · rename_i wider
      have room := (covers.mono wider.1 wider.2).room hne
      simp [BitField.Writable, BitWindow.width]
      omega
    · have room := covers.room hne
      simp [BitField.Writable, BitWindow.width]
      omega

namespace SeriesReader

variable {sr : SeriesReader} {r : BitReader} {tail : List Bool}

/-- A value that is the one before. -/
theorem readBits_same (started : sr.decoded ≠ 0) (hr : r.rest = bitsOf [⟨1, 0⟩] ++ tail) :
    ∃ next, sr.readBits r = .ok ((sr.lastBits, sr.window), next) ∧ next.rest = tail := by
  obtain ⟨next, hread, ht⟩ : ∃ next, tryRead 1 0 r = .ok (true, next) ∧ next.rest = tail :=
    tryRead_hit hr (by decide) (by decide)
  refine ⟨next, ?_, ht⟩
  simp [readBits, bind, StateT.bind, Except.bind, pure, StateT.pure, Except.pure, hread, started]

/-- A value whose changed bits lie in the window in force. -/
theorem readBits_within {changed : UInt64} (started : sr.decoded ≠ 0) (hne : changed ≠ 0)
    (covers : sr.window.Covers changed)
    (hr : r.rest = bitsOf [⟨2, 0b10⟩,
      ⟨sr.window.width, changed >>> UInt64.ofNat sr.window.trailing⟩] ++ tail) :
    ∃ next, sr.readBits r = .ok ((sr.lastBits ^^^ changed, sr.window), next) ∧
      next.rest = tail := by
  have room := covers.room hne
  simp only [bitsOf_cons, bitsOf_nil, List.append_nil, List.append_assoc] at hr
  have hmiss : tryRead 1 0 r = .ok (false, r) :=
    tryRead_miss [true] hr (by decide) (by decide)
  obtain ⟨marked, hmark, hrest⟩ := read_field hr (by decide) (by decide)
  obtain ⟨next, hread, ht⟩ := read_field hrest (by simp only [BitWindow.width]; omega)
    (covers.shiftRight_lt hne)
  refine ⟨next, ?_, ht⟩
  simp only at hmark hread
  simp [readBits, bind, StateT.bind, Except.bind, pure, StateT.pure, Except.pure, hmiss, hmark,
    hread, started, covers.shiftLeft_shiftRight hne, Nat.not_lt_of_lt room]

/-- A value that brings its own window. -/
theorem readBits_fresh {changed : UInt64} (started : sr.decoded ≠ 0) (hne : changed ≠ 0)
    (hr : r.rest = bitsOf [⟨2, 0b11⟩, ⟨5, UInt64.ofNat (BitWindow.of changed).leading⟩,
      ⟨6, UInt64.ofNat (BitWindow.of changed).trailing⟩,
      ⟨(BitWindow.of changed).width,
        changed >>> UInt64.ofNat (BitWindow.of changed).trailing⟩] ++ tail) :
    ∃ next, sr.readBits r = .ok ((sr.lastBits ^^^ changed, BitWindow.of changed), next) ∧
      next.rest = tail := by
  have covers := BitWindow.covers_of changed
  have room := covers.room hne
  have small {n : Nat} (hn : n < 64) : (UInt64.ofNat n).toNat = n := by
    rw [UInt64.toNat_ofNat', Nat.mod_eq_of_lt (by omega)]
  have hlead := BitWindow.leading_of_le changed
  have htrail := BitWindow.trailing_of_le changed
  simp only [bitsOf_cons, bitsOf_nil, List.append_nil, List.append_assoc] at hr
  have hmiss : tryRead 1 0 r = .ok (false, r) :=
    tryRead_miss [true] hr (by decide) (by decide)
  obtain ⟨marked, hmark, h⟩ := read_field hr (by decide) (by decide)
  -- the counts of the window come first, and then as many bits as they leave
  obtain ⟨counted, hleading, h⟩ := read_field h (by dsimp only; omega)
    (by dsimp only; rw [small (by omega)]; omega)
  obtain ⟨opened, htrailing, h⟩ := read_field h (by dsimp only; omega)
    (by dsimp only; rw [small (by omega)]; omega)
  obtain ⟨next, hread, ht⟩ := read_field h (by simp only [BitWindow.width]; omega)
    (covers.shiftRight_lt hne)
  refine ⟨next, ?_, ht⟩
  simp only at hmark hleading htrailing hread
  have own : (⟨(UInt64.ofNat (BitWindow.of changed).leading).toNat,
      (UInt64.ofNat (BitWindow.of changed).trailing).toNat⟩ : BitWindow) =
        BitWindow.of changed := by
    rw [small (by omega), small (by omega)]
  simp only [readBits, bind, StateT.bind, Except.bind, pure, StateT.pure, Except.pure, hmiss,
    hmark, hleading, htrailing, started, if_false, if_true, own, Bool.false_eq_true]
  rw [if_neg (Nat.not_lt_of_lt room)]
  simp only [StateT.bind, hread, covers.shiftLeft_shiftRight hne, bind, Except.bind]
  rfl

/-- **The fields of a value after another are read back as the value.** The reader needs to know
the window in force only where there is one. -/
theorem readBits_valueFields {bits : UInt64} {window : BitWindow} (started : sr.decoded ≠ 0)
    (known : window = .none ∨ sr.window = window)
    (hr : r.rest = bitsOf (valueFields sr.lastBits bits window).1 ++ tail) :
    ∃ readWindow next, sr.readBits r = .ok ((bits, readWindow), next) ∧ next.rest = tail ∧
      ((valueFields sr.lastBits bits window).2 = .none ∨
        readWindow = (valueFields sr.lastBits bits window).2) := by
  have covers := BitWindow.covers_of (bits ^^^ sr.lastBits)
  have back : sr.lastBits ^^^ (bits ^^^ sr.lastBits) = bits := by
    rw [UInt64.xor_comm bits, ← UInt64.xor_assoc, UInt64.xor_self, UInt64.zero_xor]
  unfold valueFields at hr ⊢
  dsimp only at hr ⊢
  split at hr
  · rename_i hz
    obtain ⟨next, hread, ht⟩ := readBits_same started hr
    obtain rfl : sr.lastBits = bits := by rw [← back, hz, UInt64.xor_zero]
    rw [if_pos hz]
    exact ⟨_, next, hread, ht, known⟩
  · rename_i hne
    rw [if_neg hne]
    split at hr
    · rename_i wider
      rw [if_pos wider]
      have hcov := covers.mono wider.1 wider.2
      rcases known with rfl | rfl
      · -- nothing fits into no window
        have room := hcov.room hne
        simp only [BitWindow.none] at room
        omega
      · obtain ⟨next, hread, ht⟩ := readBits_within started hne hcov hr
        rw [back] at hread
        exact ⟨_, next, hread, ht, .inr rfl⟩
    · rename_i narrow
      rw [if_neg narrow]
      obtain ⟨next, hread, ht⟩ := readBits_fresh started hne hr
      rw [back] at hread
      exact ⟨_, next, hread, ht, .inr rfl⟩

end SeriesReader

end TimeSeries
