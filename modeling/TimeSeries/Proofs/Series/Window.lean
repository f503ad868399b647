import Mathlib
import TimeSeries.Series
import TimeSeries.Proofs.BitStream.Write

/-!
# Windows of words

A window covers a word when all the bits that are set in the word lie between the leading and the
trailing zeros that the window promises. Then the bits in the window are all there is to write:
shifting them back gives the word. The window that a word gets covers it, although its counts are
cut off at 31 and 63, and so does every window that is wider.
-/

namespace TimeSeries

open BitStream

namespace BitWindow

/-- All the set bits of a word lie in the window. -/
def Covers (window : BitWindow) (w : UInt64) : Prop :=
  ∀ j, w.toNat.testBit j = true → window.trailing ≤ j ∧ j + window.leading < 64

theorem exists_testBit {w : UInt64} (hw : w ≠ 0) : ∃ j, w.toNat.testBit j = true :=
  ⟨_, Nat.testBit_log2 fun h => hw (UInt64.toNat_inj.mp h)⟩

theorem le_leadingZeros {w : UInt64} {j : Nat} (hj : w.toNat.testBit j = true) :
    j + leadingZeros w < 64 := by
  have hw : w.toNat ≠ 0 := by
    intro h
    simp [h] at hj
  -- no bit is set above the highest one
  have top : j ≤ w.toNat.log2 := by
    by_contra hlt
    have := Nat.testBit_lt_two_pow ((Nat.log2_lt hw).mp (Nat.lt_of_not_le hlt))
    simp [this] at hj
  have word : w.toNat.log2 < 64 := (Nat.log2_lt hw).mpr w.toNat_lt
  rw [leadingZeros, if_neg fun h => hw (by simp [h])]
  omega

theorem trailingZeros_le {w : UInt64} {j : Nat} (hj : w.toNat.testBit j = true) :
    trailingZeros w ≤ j := by
  have hlt : j < 64 := by
    have := le_leadingZeros hj
    omega
  unfold trailingZeros
  cases hf : (List.range 64).find? fun i => w.toNat.testBit i with
  | none => exact absurd hj (List.find?_eq_none.mp hf j (List.mem_range.mpr hlt))
  | some i =>
    obtain ⟨-, -, first⟩ := List.find?_range_eq_some.mp hf
    by_contra h
    exact absurd (first j (Nat.lt_of_not_le h)) (by simp [hj])

/-- The window of a word covers it. -/
theorem covers_of (w : UInt64) : (BitWindow.of w).Covers w := fun j hj => by
  have := le_leadingZeros hj
  have := trailingZeros_le hj
  simp only [BitWindow.of]
  omega

theorem Covers.mono {window wider : BitWindow} {w : UInt64} (h : window.Covers w)
    (leading : wider.leading ≤ window.leading) (trailing : wider.trailing ≤ window.trailing) :
    wider.Covers w := fun j hj => by
  have := h j hj
  omega

/-- A window with a word in it that is not zero has room for a bit. -/
theorem Covers.room {window : BitWindow} {w : UInt64} (h : window.Covers w) (hw : w ≠ 0) :
    window.leading + window.trailing < 64 := by
  obtain ⟨j, hj⟩ := exists_testBit hw
  have := h j hj
  omega

/-- What a window shows of a word fits into the width of the window. -/
theorem Covers.shiftRight_lt {window : BitWindow} {w : UInt64} (h : window.Covers w)
    (hw : w ≠ 0) : (w >>> UInt64.ofNat window.trailing).toNat < 2 ^ window.width := by
  have room := h.room hw
  refine Nat.lt_pow_two_of_testBit _ fun j hj => ?_
  rw [testBit_shiftRight _ (by omega)]
  by_contra hset
  have := h _ (Bool.not_eq_false _ ▸ hset)
  rw [width] at hj
  omega

/-- What a window shows of a word gives the word back. -/
theorem Covers.shiftLeft_shiftRight {window : BitWindow} {w : UInt64} (h : window.Covers w)
    (hw : w ≠ 0) :
    (w >>> UInt64.ofNat window.trailing) <<< UInt64.ofNat window.trailing = w := by
  have room := h.room hw
  refine UInt64.toNat_inj.mp (Nat.eq_of_testBit_eq fun j => ?_)
  rw [testBit_shiftLeft _ (by omega), testBit_shiftRight _ (by omega)]
  -- a bit that is set lies in the window, and below the window there is none
  cases hset : w.toNat.testBit j with
  | true =>
    have := h j hset
    simp [hset, show window.trailing + (j - window.trailing) = j by omega,
      show j < 64 by omega, this.1]
  | false =>
    by_cases hj : window.trailing ≤ j
    · simp [hset, show window.trailing + (j - window.trailing) = j by omega]
    · simp [hj]

theorem leading_of_le (w : UInt64) : (BitWindow.of w).leading ≤ 31 := Nat.min_le_right _ _

theorem trailing_of_le (w : UInt64) : (BitWindow.of w).trailing ≤ 63 := Nat.min_le_right _ _

end BitWindow

end TimeSeries
