import Mathlib
import TimeSeries.BitStream

/-!
# What a write does to the bits of a stream

A stream denotes the list of its bits, `BitStream.toList`, and a field denotes the list of the bits
that it asks for, `BitField.bits`. A write sets bits and never clears one, so it appends the bits
of its field exactly when the words hold zeros after the end of the stream. This is `Clean`. An
empty stream is clean, and every write keeps it so.

The main statement is `writeAll_ok`: on a clean stream, fields of 1 to 64 bits arrive as they are.
-/

namespace TimeSeries

/-! ## Fields as lists of bits -/

/-- The number that bits spell, the highest bit first. -/
def spell (bits : List Bool) : Nat := bits.foldl (fun n b => 2 * n + b.toNat) 0

/-- The bits of a field, the highest one first. -/
def BitField.bits (f : BitField) : List Bool :=
  (List.range f.width).map fun i => f.value.toNat.testBit (f.width - 1 - i)

/-- A width that can be written. -/
def BitField.Writable (f : BitField) : Prop := 1 ≤ f.width ∧ f.width ≤ 64

/-- The bits of some fields, one after the other. -/
def bitsOf (fields : List BitField) : List Bool := fields.flatMap BitField.bits

@[simp] theorem bitsOf_nil : bitsOf [] = [] := rfl

@[simp] theorem bitsOf_cons (f : BitField) (fields : List BitField) :
    bitsOf (f :: fields) = f.bits ++ bitsOf fields := rfl

@[simp] theorem BitField.length_bits (f : BitField) : f.bits.length = f.width := by
  simp [BitField.bits]

theorem spell_snoc (bits : List Bool) (b : Bool) :
    spell (bits ++ [b]) = 2 * spell bits + b.toNat := by
  simp [spell]

/-- The bits of a spelled number, the lowest one first, are the list from its end. -/
theorem testBit_spell (bits : List Bool) (j : Nat) :
    (spell bits).testBit j = bits.reverse[j]?.getD false := by
  induction bits using List.reverseRecOn generalizing j with
  | nil => simp [spell]
  | append_singleton bits b ih =>
    -- the bit at the end of the list is the lowest one of the number
    rw [spell_snoc]
    cases j with
    | zero => cases b <;> simp [Nat.testBit_zero, Nat.add_mod]
    | succ j =>
      have half : (2 * spell bits + b.toNat) / 2 = spell bits := by
        have := b.toNat_lt
        omega
      rw [Nat.testBit_add_one, half, ih j]
      simp

theorem spell_lt (bits : List Bool) : spell bits < 2 ^ bits.length := by
  refine Nat.lt_pow_two_of_testBit _ fun j hj => ?_
  rw [testBit_spell, List.getElem?_eq_none (by simpa using hj)]
  rfl

/-- A field spells the low bits of its value. -/
theorem spell_bits (f : BitField) : spell f.bits = f.value.toNat % 2 ^ f.width := by
  refine Nat.eq_of_testBit_eq fun j => ?_
  rw [testBit_spell, Nat.testBit_mod_two_pow]
  by_cases hj : j < f.width
  · rw [List.getElem?_reverse (by simpa using hj), BitField.length_bits, BitField.bits,
      List.getElem?_map, List.getElem?_range (by omega)]
    simp [hj, show f.width - 1 - (f.width - 1 - j) = j by omega]
  · rw [List.getElem?_eq_none (by simp; omega)]
    simp [hj]

namespace BitStream

/-! ## Single bits -/

theorem testBit_shiftLeft (w : UInt64) {k : Nat} (hk : k < 64) (j : Nat) :
    (w <<< UInt64.ofNat k).toNat.testBit j =
      (decide (j < 64 ∧ k ≤ j) && w.toNat.testBit (j - k)) := by
  rw [UInt64.toNat_shiftLeft, UInt64.toNat_ofNat', Nat.mod_mod_of_dvd _ (by decide),
    Nat.mod_eq_of_lt hk, Nat.testBit_mod_two_pow, Nat.testBit_shiftLeft, Bool.decide_and,
    Bool.and_assoc]

theorem testBit_shiftRight (w : UInt64) {k : Nat} (hk : k < 64) (j : Nat) :
    (w >>> UInt64.ofNat k).toNat.testBit j = w.toNat.testBit (k + j) := by
  rw [UInt64.toNat_shiftRight, UInt64.toNat_ofNat', Nat.mod_mod_of_dvd _ (by decide),
    Nat.mod_eq_of_lt hk, Nat.testBit_shiftRight]

theorem testBit_of_le (w : UInt64) {j : Nat} (hj : 64 ≤ j) : w.toNat.testBit j = false :=
  Nat.testBit_lt_two_pow
    (Nat.lt_of_lt_of_le w.toNat_lt (Nat.pow_le_pow_right (by omega) hj))

/-- The bit at a position of some words. -/
def bitIn (words : Array UInt64) (i : Nat) : Bool :=
  (words[i / 64]?.getD 0).toNat.testBit (63 - i % 64)

theorem bit_eq (s : BitStream) (i : Nat) : s.bit i = bitIn s.words i := rfl

/-- Setting bits of a word joins them with those that are there. -/
theorem bitIn_setBits {words : Array UInt64} {k : Nat} (bits : UInt64) (i : Nat)
    (hk : k < words.size) :
    bitIn (setBits words k bits) i =
      (bitIn words i || (decide (i / 64 = k) && bits.toNat.testBit (63 - i % 64))) := by
  rw [bitIn, bitIn, setBits, Array.getElem?_modify]
  by_cases h : k = i / 64
  · subst h
    simp [Array.getElem?_eq_getElem hk]
  · simp [h, Ne.symm h]

/-- The head of a field, put at `shift` bits after the start of a word. -/
theorem testBit_head (v : UInt64) {n shift r : Nat} (hn : 1 ≤ n ∧ n ≤ 64) (hs : shift < 64)
    (hr : r < 64) :
    ((v <<< UInt64.ofNat (64 - n)) >>> UInt64.ofNat shift).toNat.testBit (63 - r) =
      (decide (shift ≤ r ∧ r < shift + n) && v.toNat.testBit (shift + n - 1 - r)) := by
  rw [testBit_shiftRight _ hs, testBit_shiftLeft _ (by omega)]
  by_cases h : shift ≤ r ∧ r < shift + n
  · simp only [h, show shift + (63 - r) < 64 by omega, show 64 - n ≤ shift + (63 - r) by omega,
      decide_true, Bool.true_and, and_self]
    congr 1
    omega
  · rw [decide_eq_false h, decide_eq_false (by omega)]
    simp

/-- The tail of a field, of which `c` bits run over the end of a word. -/
theorem testBit_tail (v : UInt64) {c r : Nat} (hc : 1 ≤ c ∧ c < 64) (hr : r < 64) :
    (v <<< UInt64.ofNat (64 - c)).toNat.testBit (63 - r) =
      (decide (r < c) && v.toNat.testBit (c - 1 - r)) := by
  rw [testBit_shiftLeft _ (by omega)]
  by_cases h : r < c
  · simp only [h, show 63 - r < 64 by omega, show 64 - c ≤ 63 - r by omega, decide_true,
      Bool.true_and, and_self]
    congr 1
    omega
  · rw [decide_eq_false h, decide_eq_false (by omega)]
    simp

/-- Putting a field joins its bits with those that are there, and touches no other position. -/
theorem bitIn_putField {words : Array UInt64} {p n : Nat} (v : UInt64) (i : Nat)
    (hn : 1 ≤ n ∧ n ≤ 64) (room : p + n ≤ 64 * words.size) :
    bitIn (putField words p n v) i =
      (bitIn words i || (decide (p ≤ i ∧ i < p + n) && v.toNat.testBit (p + n - 1 - i))) := by
  have hs : p % 64 < 64 := Nat.mod_lt _ (by omega)
  have hr : i % 64 < 64 := Nat.mod_lt _ (by omega)
  have hp := Nat.div_add_mod p 64
  have hi := Nat.div_add_mod i 64
  have headed := bitIn_setBits ((v <<< UInt64.ofNat (64 - n)) >>> UInt64.ofNat (p % 64)) i
    (show p / 64 < words.size by omega)
  rw [testBit_head v hn hs hr] at headed
  unfold putField
  dsimp only
  split
  · -- the field runs over the end of the word
    rename_i hover
    rw [bitIn_setBits _ _ (by rw [size_setBits]; omega), testBit_tail v (by omega) hr, headed,
      Bool.or_assoc]
    congr 1
    -- the position is in the word of the head, in that of the tail, or in another one
    by_cases h0 : i / 64 = p / 64
    · rw [show p % 64 + n - 1 - i % 64 = p + n - 1 - i by omega,
        show decide (i / 64 = p / 64 + 1) = false by simp; omega]
      simp only [h0, decide_true, Bool.true_and, Bool.false_and, Bool.or_false]
      congr 1
      exact decide_eq_decide.mpr (by omega)
    · by_cases h1 : i / 64 = p / 64 + 1
      · rw [show p % 64 + n - 64 - 1 - i % 64 = p + n - 1 - i by omega]
        simp only [h1, decide_true, Bool.true_and, show ¬ (p / 64 + 1 = p / 64) by omega,
          decide_false, Bool.false_and, Bool.false_or]
        congr 1
        exact decide_eq_decide.mpr (by omega)
      · have away : ¬ (p ≤ i ∧ i < p + n) := by omega
        simp [h0, h1, away]
  · rename_i hover
    rw [headed]
    congr 1
    by_cases h0 : i / 64 = p / 64
    · rw [show p % 64 + n - 1 - i % 64 = p + n - 1 - i by omega]
      simp only [h0, decide_true, Bool.true_and]
      congr 1
      exact decide_eq_decide.mpr (by omega)
    · have away : ¬ (p ≤ i ∧ i < p + n) := by omega
      simp [h0, away]

theorem bit_reserve (s : BitStream) (n i : Nat) : (s.reserve n).bit i = s.bit i := by
  unfold reserve
  split
  · simp only [bit]
    -- a word that is not there counts as zero, as the words do that are added
    by_cases h : i / 64 < s.words.size
    · rw [Array.getElem?_append_left h]
    · rw [Array.getElem?_append_right (by omega), Array.getElem?_replicate,
        Array.getElem?_eq_none (show s.words.size ≤ i / 64 by omega)]
      split <;> rfl
  · rfl

theorem bit_append (s : BitStream) {n : Nat} (v : UInt64) (hn : 1 ≤ n ∧ n ≤ 64) (i : Nat) :
    (s.append n v hn.2).bit i =
      (s.bit i || (decide (s.length ≤ i ∧ i < s.length + n) &&
        v.toNat.testBit (s.length + n - 1 - i))) := by
  rw [bit_eq, append, bitIn_putField v i hn (s.room_reserve hn.2), ← bit_eq, bit_reserve]

/-! ## Clean streams -/

/-- The words hold zeros after the end of the stream. -/
def Clean (s : BitStream) : Prop := ∀ i, s.length ≤ i → s.bit i = false

theorem clean_withCapacity (words : Nat) : (withCapacity words).Clean := by
  intro i _
  rw [bit, withCapacity, Array.getElem?_replicate]
  split <;> simp

@[simp] theorem length_toList (s : BitStream) : s.toList.length = s.length := by
  simp [toList]

@[simp] theorem toList_withCapacity (words : Nat) : (withCapacity words).toList = [] := by
  simp [toList, withCapacity]

theorem getElem?_toList (s : BitStream) (i : Nat) :
    s.toList[i]? = if i < s.length then some (s.bit i) else none := by
  by_cases h : i < s.length
  · rw [toList, List.getElem?_map, List.getElem?_range h, if_pos h]
    rfl
  · rw [if_neg h, List.getElem?_eq_none (by simpa using h)]

theorem clean_append {s : BitStream} (h : s.Clean) {n : Nat} (v : UInt64) (hn : 1 ≤ n ∧ n ≤ 64) :
    (s.append n v hn.2).Clean := by
  intro i hi
  have hi' : s.length + n ≤ i := hi
  rw [bit_append s v hn, h i (by omega)]
  simp [show ¬ i < s.length + n by omega]

/-- **A write appends its field.** -/
theorem toList_append {s : BitStream} (h : s.Clean) {n : Nat} (v : UInt64)
    (hn : 1 ≤ n ∧ n ≤ 64) :
    (s.append n v hn.2).toList = s.toList ++ BitField.bits ⟨n, v⟩ := by
  refine List.ext_getElem? fun i => ?_
  rw [getElem?_toList, bit_append s v hn i, show (s.append n v hn.2).length = s.length + n from rfl]
  -- nothing changes before the old end, and behind it there were only zeros
  rcases Nat.lt_or_ge i s.length with hi | hi
  · rw [List.getElem?_append_left (by simpa using hi), getElem?_toList]
    simp [hi, show i < s.length + n by omega, show ¬ s.length ≤ i by omega]
  · rw [List.getElem?_append_right (by simpa using hi), length_toList, h i hi, BitField.bits,
      List.getElem?_map]
    by_cases hn' : i < s.length + n
    · rw [List.getElem?_range (by dsimp only; omega)]
      simp [hn', hi, show s.length + n - 1 - i = n - 1 - (i - s.length) by omega]
    · rw [List.getElem?_eq_none (by simp; omega)]
      simp [hn']

/-- Fields that can all be written are all written, and arrive as they are. -/
theorem writeAll_ok {fields : List BitField} (hf : ∀ f ∈ fields, f.Writable) {s : BitStream}
    (h : s.Clean) :
    ∃ s', s.writeAll fields = (.ok (), s') ∧ s'.Clean ∧ s'.toList = s.toList ++ bitsOf fields := by
  induction fields generalizing s with
  | nil => exact ⟨s, rfl, h, by simp⟩
  | cons f fields ih =>
    have hw : f.Writable := hf f List.mem_cons_self
    obtain ⟨s', hs', hc, hl⟩ := ih (fun g hg => hf g (List.mem_cons_of_mem _ hg))
      (clean_append h f.value hw)
    refine ⟨s', ?_, hc, ?_⟩
    · rw [writeAll, write, dif_pos (show 1 ≤ f.width ∧ f.width ≤ 64 from hw)]
      exact hs'
    · rw [hl, toList_append h f.value hw, bitsOf_cons, List.append_assoc]

end BitStream

end TimeSeries
