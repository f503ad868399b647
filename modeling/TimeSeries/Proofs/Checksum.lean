import Mathlib
import TimeSeries.Checksum

/-!
# Bursts change the checksum

The register forgets nothing: of the polynomial only its highest bit matters, which is set, so a
bit that is shifted out of the low end shows at the high end, and what was in the register before a
shift or a byte can be told from what is in it after. Four bytes fill the register. To take them in
one after the other is to add all of them at once and to shift afterwards, and so different bytes
leave different registers behind them. The bytes that follow cannot make up for that.
-/

namespace TimeSeries.Checksum

variable {a b w : BitVec 32} {n : Nat}

/-! ## Shifting loses nothing -/

/-- A bit after a shift is the one above it, changed if a bit of the polynomial came there. -/
theorem getLsbD_shift (a : BitVec 32) (i : Nat) :
    (shift a).getLsbD i = ((a.getLsbD (i + 1)).xor (a.getLsbD 0 && polynomial.getLsbD i)) := by
  unfold shift
  split
  · rename_i h
    rw [BitVec.getLsbD_xor, BitVec.getLsbD_ushiftRight, h, Bool.true_and, Nat.add_comm]
  · rename_i h
    rw [Bool.not_eq_true] at h
    rw [BitVec.getLsbD_ushiftRight, h, Bool.false_and, Bool.xor_false, Nat.add_comm]

theorem shift_xor (a b : BitVec 32) : shift (a ^^^ b) = shift a ^^^ shift b := by
  refine BitVec.eq_of_getLsbD_eq fun i _ => ?_
  simp only [getLsbD_shift, BitVec.getLsbD_xor, Bool.and_xor_distrib_right]
  rw [Bool.xor_assoc, Bool.xor_assoc, Bool.xor_left_comm (b.getLsbD (i + 1))]

/-- The highest bit after a shift is the lowest one before it. -/
theorem shift_injective : Function.Injective shift := by
  intro a b h
  have hbit (i : Nat) := congrArg (fun w : BitVec 32 => w.getLsbD i) h
  simp only [getLsbD_shift] at hbit
  have hlow : a.getLsbD 0 = b.getLsbD 0 := by
    have htop : polynomial.getLsbD 31 = true := by decide
    have hhigh := hbit 31
    rwa [htop, BitVec.getLsbD_of_ge a 32 le_rfl, BitVec.getLsbD_of_ge b 32 le_rfl,
      Bool.and_true, Bool.and_true, Bool.false_xor, Bool.false_xor] at hhigh
  refine BitVec.eq_of_getLsbD_eq fun i _ => ?_
  cases i with
  | zero => exact hlow
  | succ i =>
    have hnext := hbit i
    rw [hlow] at hnext
    exact Bool.xor_left_inj.mp hnext

theorem shiftBy_add (m n : Nat) (a : BitVec 32) : shiftBy (m + n) a = shiftBy n (shiftBy m a) := by
  induction m generalizing a with
  | zero => rw [Nat.zero_add, shiftBy]
  | succ m ih => rw [Nat.succ_add, shiftBy, shiftBy, ih]

theorem shiftBy_xor (n : Nat) (a b : BitVec 32) :
    shiftBy n (a ^^^ b) = shiftBy n a ^^^ shiftBy n b := by
  induction n generalizing a b with
  | zero => rfl
  | succ n ih => rw [shiftBy, shiftBy, shiftBy, shift_xor, ih]

theorem shiftBy_injective (n : Nat) : Function.Injective (shiftBy n) := by
  induction n with
  | zero => exact fun a b h => h
  | succ n ih => exact fun a b h => shift_injective (ih h)

theorem addByte_injective (byte : UInt8) : Function.Injective (addByte · byte) := by
  intro a b h
  exact (BitVec.xor_left_inj _).mp (shiftBy_injective 8 h)

/-! ## Four bytes at once -/

/-- A word whose bits are zero from one on. -/
def ClearFrom (n : Nat) (w : BitVec 32) : Prop := ∀ i, n ≤ i → w.getLsbD i = false

/-- Bits that were moved up without loss are moved down again by shifts. -/
theorem shiftBy_shiftLeft (hn : n ≤ 32) (h : ClearFrom (32 - n) w) : shiftBy n (w <<< n) = w := by
  induction n with
  | zero => rw [shiftBy, BitVec.shiftLeft_zero]
  | succ n ih =>
    have hstep : shift (w <<< (n + 1)) = w <<< n := by
      refine BitVec.eq_of_getLsbD_eq fun i hi => ?_
      rw [getLsbD_shift, BitVec.getLsbD_shiftLeft, BitVec.getLsbD_shiftLeft,
        BitVec.getLsbD_shiftLeft, Nat.add_sub_add_right]
      by_cases hlast : i + 1 < 32
      · simp [hlast, hi]
      · -- the bit that was moved out at the top was zero
        simp [hlast, h (i - n) (by omega)]
    rw [shiftBy, hstep]
    exact ih (by omega) fun i hi => h i (by omega)

/-- Up to four bytes in a word, the first one at the low end. -/
def word : Bytes → BitVec 32
  | [] => 0#32
  | byte :: rest => byte.toBitVec.setWidth 32 ^^^ (word rest <<< 8)

theorem clearFrom_word (bytes : Bytes) : ClearFrom (8 * bytes.length) (word bytes) := by
  induction bytes with
  | nil =>
    intro i _
    rw [word, BitVec.getLsbD_zero]
  | cons byte bytes ih =>
    intro i hi
    rw [List.length_cons] at hi
    rw [word, BitVec.getLsbD_xor, BitVec.getLsbD_setWidth, BitVec.getLsbD_shiftLeft,
      BitVec.getLsbD_of_ge byte.toBitVec i (by omega), ih (i - 8) (by omega)]
    simp

/-- **To take in up to four bytes is to add them to the register and to shift afterwards.** -/
theorem foldl_addByte {bytes : Bytes} (h : bytes.length ≤ 4) (a : BitVec 32) :
    bytes.foldl addByte a = shiftBy (8 * bytes.length) (a ^^^ word bytes) := by
  induction bytes generalizing a with
  | nil => rw [word, BitVec.xor_zero]; rfl
  | cons byte bytes ih =>
    rw [List.length_cons] at h
    have hclear : ClearFrom (32 - 8) (word bytes) := fun i hi => clearFrom_word bytes i (by omega)
    have hrest := shiftBy_shiftLeft (by omega) hclear
    rw [List.foldl_cons, ih (by omega), addByte, List.length_cons, Nat.mul_succ, Nat.add_comm,
      shiftBy_add, word, ← BitVec.xor_assoc, shiftBy_xor 8 _ (word bytes <<< 8), hrest]

/-- A word says which bytes are in it. -/
theorem word_injective {x y : Bytes} (hlength : x.length = y.length) (hx : x.length ≤ 4)
    (h : word x = word y) : x = y := by
  induction x generalizing y with
  | nil => exact (List.eq_nil_of_length_eq_zero hlength.symm).symm
  | cons byte x ih =>
    obtain _ | ⟨byte', y⟩ := y
    · exact absurd hlength (by simp)
    · simp only [List.length_cons, Nat.add_right_cancel_iff] at hlength hx
      have hbit (i : Nat) := congrArg (fun w : BitVec 32 => w.getLsbD i) h
      simp only [word, BitVec.getLsbD_xor, BitVec.getLsbD_setWidth, BitVec.getLsbD_shiftLeft]
        at hbit
      have hbyte : byte = byte' := by
        refine UInt8.toBitVec_inj.mp (BitVec.eq_of_getLsbD_eq fun i hi => ?_)
        have hlow := hbit i
        simpa [hi, show i < 32 by omega] using hlow
      have hrest : word x = word y := by
        refine BitVec.eq_of_getLsbD_eq fun i hi => ?_
        by_cases hfits : i + 8 < 32
        · have hhigh := hbit (i + 8)
          simpa [hfits, hbyte] using hhigh
        · rw [clearFrom_word x i (by omega), clearFrom_word y i (by omega)]
      rw [hbyte, ih hlength (by omega) hrest]

/-! ## Bursts -/

/-- What is in the register before some bytes can be told from what is in it after them. -/
theorem foldl_addByte_injective (bytes : Bytes) :
    Function.Injective fun a => bytes.foldl addByte a := by
  induction bytes with
  | nil => exact fun a b h => h
  | cons byte bytes ih => exact fun a b h => addByte_injective byte (ih h)

/-- **Texts that differ in up to four bytes have different checksums**, whatever there is before
and behind these bytes. -/
theorem ofBytes_ne {x y : Bytes} (hlength : x.length = y.length) (hx : x.length ≤ 4) (hne : x ≠ y)
    (before after : Bytes) : ofBytes (before ++ x ++ after) ≠ ofBytes (before ++ y ++ after) := by
  intro h
  have hregister := BitVec.not_inj.mp h
  rw [register, register, List.foldl_append, List.foldl_append, List.foldl_append,
    List.foldl_append] at hregister
  have hmiddle : x.foldl addByte (register before) = y.foldl addByte (register before) :=
    foldl_addByte_injective after hregister
  have hy : y.length ≤ 4 := by rwa [← hlength]
  rw [foldl_addByte hx, foldl_addByte hy, hlength] at hmiddle
  have hword := (BitVec.xor_right_inj _).mp (shiftBy_injective _ hmiddle)
  exact hne (word_injective hlength hx hword)

/-- Two texts of one length that differ at most in four bytes in a row. -/
def Burst (old new : Bytes) : Prop :=
  new.length = old.length ∧ ∃ first, ∀ i : Nat, new[i]? ≠ old[i]? → first ≤ i ∧ i < first + 4

/-- A part of the texts differs at most in the bytes of the burst that it has. -/
theorem Burst.part {old new : Bytes} (h : Burst old new) (start length : Nat) :
    Burst ((old.drop start).take length) ((new.drop start).take length) := by
  obtain ⟨hlength, first, hfirst⟩ := h
  refine ⟨by rw [List.length_take, List.length_take, List.length_drop, List.length_drop, hlength],
    first - start, fun i hi => ?_⟩
  rw [List.getElem?_take, List.getElem?_take] at hi
  split at hi
  · rw [List.getElem?_drop, List.getElem?_drop] at hi
    have hbounds := hfirst _ hi
    omega
  · exact absurd rfl hi

/-- **A burst that changes anything changes the checksum.** -/
theorem Burst.ofBytes_ne {old new : Bytes} (h : Burst old new) (hne : new ≠ old) :
    ofBytes new ≠ ofBytes old := by
  obtain ⟨hlength, first, hfirst⟩ := h
  have same {i : Nat} (hi : i < first ∨ first + 4 ≤ i) : new[i]? = old[i]? := by
    by_contra hdiffers
    have hbounds := hfirst i hdiffers
    omega
  have hbefore : new.take first = old.take first := by
    refine List.ext_getElem? fun i => ?_
    rw [List.getElem?_take, List.getElem?_take]
    split
    · rename_i hi
      exact same (.inl hi)
    · rfl
  have hafter : new.drop (first + 4) = old.drop (first + 4) := by
    refine List.ext_getElem? fun i => ?_
    rw [List.getElem?_drop, List.getElem?_drop]
    exact same (.inr (Nat.le_add_right _ _))
  have split (bytes : Bytes) : bytes =
      bytes.take first ++ (bytes.drop first).take 4 ++ bytes.drop (first + 4) := by
    rw [List.append_assoc, ← List.drop_drop, List.take_append_drop, List.take_append_drop]
  have hmiddle : (new.drop first).take 4 ≠ (old.drop first).take 4 := by
    intro hsame
    exact hne (by rw [split new, split old, hbefore, hsame, hafter])
  rw [split new, split old, hbefore, hafter]
  refine Checksum.ofBytes_ne ?_ (List.length_take_le 4 _) hmiddle _ _
  rw [List.length_take, List.length_take, List.length_drop, List.length_drop, hlength]

end TimeSeries.Checksum
