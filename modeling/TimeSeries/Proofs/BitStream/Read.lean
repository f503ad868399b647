import Mathlib
import TimeSeries.BitReader
import TimeSeries.Proofs.BitStream.Write
import TimeSeries.Proofs.Failing

/-!
# What a reader sees of the bits of a stream

What is still ahead of a reader is a list of bits, `BitReader.rest`. All that a read does can be
said of this list: it takes bits from its front and answers with the number that they spell. No
later proof has to look into the words of a stream again.
-/

namespace TimeSeries

namespace BitReader

open BitStream

/-- The bits ahead of a reader. -/
def rest (r : BitReader) : List Bool := r.stream.toList.drop r.position

/-- Shifting up and down again clears the bits before a position. -/
theorem testBit_cleared (w : UInt64) {k : Nat} (hk : k < 64) (j : Nat) :
    ((w <<< UInt64.ofNat k) >>> UInt64.ofNat k).toNat.testBit j =
      (decide (k + j < 64) && w.toNat.testBit j) := by
  rw [testBit_shiftRight _ hk, testBit_shiftLeft _ hk]
  simp

/-- The bits of the field at a position, the lowest one first. -/
theorem testBit_fieldAt {words : Array UInt64} {p n : Nat} (hn : 1 ≤ n ∧ n ≤ 64) (j : Nat) :
    (fieldAt words p n).toNat.testBit j = (decide (j < n) && bitIn words (p + n - 1 - j)) := by
  have hs : p % 64 < 64 := Nat.mod_lt _ (by omega)
  have hp := Nat.div_add_mod p 64
  have hw (k i : Nat) : k = i / 64 → words[k]?.getD 0 = words[i / 64]?.getD 0 := fun h => h ▸ rfl
  unfold fieldAt bitIn
  dsimp only
  split
  · -- the field ends inside the word
    rename_i hin
    rw [testBit_shiftRight _ (by omega), testBit_shiftLeft _ hs]
    by_cases hj : j < n
    · rw [hw (p / 64) (p + n - 1 - j) (by omega)]
      simp only [hj, show 64 - n + j < 64 by omega, show p % 64 ≤ 64 - n + j by omega, decide_true,
        Bool.true_and, and_self]
      congr 1
      omega
    · simp [hj, show ¬ 64 - n + j < 64 by omega]
  · rename_i hin
    split
    · -- it ends with the word
      rename_i hc
      rw [testBit_cleared _ hs]
      by_cases hj : j < n
      · rw [hw (p / 64) (p + n - 1 - j) (by omega)]
        simp only [hj, show p % 64 + j < 64 by omega, decide_true, Bool.true_and]
        congr 1
        omega
      · simp [hj, show ¬ p % 64 + j < 64 by omega]
    · -- it goes on in the next word
      rename_i hc
      rw [UInt64.toNat_or, Nat.testBit_or, testBit_shiftLeft _ (by omega),
        testBit_cleared _ hs, testBit_shiftRight _ (by omega)]
      rcases Nat.lt_or_ge j (p % 64 + n - 64) with hj | hj
      · rw [hw (p / 64 + 1) (p + n - 1 - j) (by omega)]
        simp only [show ¬ p % 64 + n - 64 ≤ j by omega, show j < n by omega, decide_true,
          decide_false, and_false, Bool.false_and, Bool.false_or, Bool.true_and]
        congr 1
        omega
      · rw [testBit_of_le (words[p / 64 + 1]?.getD 0) (by omega), Bool.or_false]
        by_cases hjn : j < n
        · rw [hw (p / 64) (p + n - 1 - j) (by omega)]
          simp only [hjn, hj, show j < 64 by omega, decide_true, Bool.true_and, and_self,
            show p % 64 + (j - (p % 64 + n - 64)) < 64 by omega]
          congr 1
          omega
        · simp [hjn, show ¬ p % 64 + (j - (p % 64 + n - 64)) < 64 by omega]

/-- The field at the position of a reader spells the bits ahead of it. -/
theorem fieldAt_eq {r : BitReader} {bits tail : List Bool} (h : r.rest = bits ++ tail)
    (hn : 1 ≤ bits.length ∧ bits.length ≤ 64) :
    fieldAt r.stream.words r.position bits.length = UInt64.ofNat (spell bits) := by
  have ahead (k : Nat) (hk : k < bits.length) :
      bits[k]? = some (bitIn r.stream.words (r.position + k)) := by
    have hk' : r.rest[k]? = bits[k]? := by rw [h, List.getElem?_append_left hk]
    rw [rest, List.getElem?_drop, getElem?_toList] at hk'
    split at hk'
    · exact hk'.symm
    · rw [List.getElem?_eq_getElem hk] at hk'
      exact absurd hk' (by simp)
  -- two words are the same when their bits are, counted from the lowest one
  refine UInt64.toNat_inj.mp (Nat.eq_of_testBit_eq fun j => ?_)
  have small : spell bits < 2 ^ 64 :=
    Nat.lt_of_lt_of_le (spell_lt bits) (Nat.pow_le_pow_right (by omega) hn.2)
  rw [testBit_fieldAt hn, UInt64.toNat_ofNat', Nat.mod_eq_of_lt small, testBit_spell]
  by_cases hj : j < bits.length
  · rw [List.getElem?_reverse hj, ahead _ (by omega),
      show r.position + (bits.length - 1 - j) = r.position + bits.length - 1 - j by omega]
    simp [hj]
  · rw [List.getElem?_eq_none (by simpa using hj)]
    simp [hj]

/-- The next bits of a stream, as the number that they spell. -/
theorem toNat_fieldAt {r : BitReader} {n : Nat} (hn : 1 ≤ n ∧ n ≤ 64)
    (hend : r.position + n ≤ r.stream.length) :
    (fieldAt r.stream.words r.position n).toNat = spell (r.rest.take n) ∧
      spell (r.rest.take n) < 2 ^ n := by
  have hlength : (r.rest.take n).length = n := by
    rw [List.length_take, rest, List.length_drop, length_toList]
    omega
  have hfield := fieldAt_eq (List.take_append_drop n r.rest).symm (by omega)
  have hsmall := spell_lt (r.rest.take n)
  rw [hlength] at hfield hsmall
  have hword : spell (r.rest.take n) < 2 ^ 64 :=
    Nat.lt_of_lt_of_le hsmall (Nat.pow_le_pow_right (by omega) hn.2)
  rw [hfield, UInt64.toNat_ofNat', Nat.mod_eq_of_lt hword]
  exact ⟨rfl, hsmall⟩

/-- **A read takes bits from the front and answers with the number that they spell.** -/
theorem read_of_rest {r : BitReader} {bits tail : List Bool} (h : r.rest = bits ++ tail)
    (hn : bits.length ≤ 64) :
    ∃ next, read bits.length r = .ok (UInt64.ofNat (spell bits), next) ∧ next.rest = tail := by
  have hlen := congrArg List.length h
  rw [rest, List.length_drop, length_toList, List.length_append] at hlen
  rw [read, if_neg (by omega)]
  by_cases h0 : bits.length = 0
  · obtain rfl := List.eq_nil_of_length_eq_zero h0
    exact ⟨r, by simp [spell], h⟩
  · rw [if_neg h0, if_neg (by omega), fieldAt_eq h (by omega)]
    refine ⟨_, rfl, ?_⟩
    rw [rest, ← List.drop_drop, show r.stream.toList.drop r.position = bits ++ tail from h,
      List.drop_left]

/-- Reading back a field whose value fits into its width. -/
theorem read_field {r : BitReader} {f : BitField} {tail : List Bool} (h : r.rest = f.bits ++ tail)
    (hn : f.width ≤ 64) (fits : f.value.toNat < 2 ^ f.width) :
    ∃ next, read f.width r = .ok (f.value, next) ∧ next.rest = tail := by
  obtain ⟨next, hr, ht⟩ := read_of_rest h (by simpa using hn)
  rw [BitField.length_bits, spell_bits, Nat.mod_eq_of_lt fits, UInt64.ofNat_toNat] at hr
  exact ⟨next, hr, ht⟩

/-- What is expected is there, and the reader goes past it. -/
theorem tryRead_hit {r : BitReader} {bits tail : List Bool} {expected : UInt64}
    (h : r.rest = bits ++ tail) (hn : bits.length ≤ 64)
    (same : UInt64.ofNat (spell bits) = expected) :
    ∃ next, tryRead bits.length expected r = .ok (true, next) ∧ next.rest = tail := by
  obtain ⟨next, hr, ht⟩ := read_of_rest h hn
  refine ⟨next, ?_, ht⟩
  rw [tryRead, hr]
  simp [bind, Except.bind, pure, Except.pure, same]

/-- Something else is there, and the reader stays. -/
theorem tryRead_miss {r : BitReader} (bits : List Bool) {tail : List Bool} {expected : UInt64}
    (h : r.rest = bits ++ tail) (hn : bits.length ≤ 64)
    (other : UInt64.ofNat (spell bits) ≠ expected) :
    tryRead bits.length expected r = .ok (false, r) := by
  obtain ⟨next, hr, _⟩ := read_of_rest h hn
  rw [tryRead, hr]
  simp [bind, Except.bind, pure, Except.pure, other]

/-! ## Positions -/

/-- The reader is not past the end of its stream. -/
def InRange (r : BitReader) : Prop := r.position ≤ r.stream.length

theorem inRange_start (s : BitStream) : (start s).InRange := Nat.zero_le _

theorem InRange.read {r next : BitReader} {n : Nat} {found : UInt64} (hr : r.InRange)
    (h : BitReader.read n r = .ok (found, next)) : next.InRange := by
  unfold BitReader.read at h
  split at h
  · exact absurd h (by simp)
  · split at h
    · obtain ⟨-, rfl⟩ := Prod.mk.inj (Except.ok.inj h)
      exact hr
    · split at h
      · exact absurd h (by simp)
      · rename_i hend
        obtain ⟨-, rfl⟩ := Prod.mk.inj (Except.ok.inj h)
        exact Nat.not_lt.mp hend

/-- Where no bits are ahead, none are read. -/
theorem InRange.read_end {r : BitReader} {n : Nat} (hr : r.InRange) (h : r.rest = [])
    (hn : 1 ≤ n ∧ n ≤ 64) :
    BitReader.read n r =
      .error (.malformed (.readPastEnd n r.stream.length r.stream.length)) := by
  have hlength := congrArg List.length h
  rw [rest, List.length_drop, length_toList, List.length_nil] at hlength
  have hend : r.position = r.stream.length := Nat.le_antisymm hr (Nat.le_of_sub_eq_zero hlength)
  rw [BitReader.read, if_neg (by omega), if_neg (by omega), if_pos (by omega), hend]

theorem InRange.tryRead {r next : BitReader} {n : Nat} {expected : UInt64} {same : Bool}
    (hr : r.InRange) (h : BitReader.tryRead n expected r = .ok (same, next)) : next.InRange := by
  obtain ⟨⟨found, after⟩, hread, h⟩ := bind_eq_ok.mp h
  have hafter := hr.read hread
  have h := pure_eq_ok.mp h
  split at h
  · obtain ⟨-, rfl⟩ := Prod.mk.inj h
    exact hafter
  · obtain ⟨-, rfl⟩ := Prod.mk.inj h
    exact hr

end BitReader

end TimeSeries
