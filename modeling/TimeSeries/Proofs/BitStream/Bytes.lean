import Mathlib
import TimeSeries.Proofs.BitStream.Write

/-!
# Serialized bit streams

A stream that was serialized is read back with the same bits, whatever bytes follow it, and the
bytes that follow are handed on. The stream that comes back may have room for fewer words.
-/

namespace TimeSeries

namespace Bytes

theorem toNat_snoc (bytes : Bytes) (b : UInt8) :
    toNat (bytes ++ [b]) = 256 * toNat bytes + b.toNat := by
  simp [toNat]

theorem toNat_ofNat (count n : Nat) : toNat (ofNat count n) = n % 256 ^ count := by
  induction count generalizing n with
  | zero => simp [ofNat, toNat, Nat.mod_one]
  | succ count ih =>
    have low : (UInt8.ofNat n).toNat = n % 256 := UInt8.toNat_ofNat'
    rw [ofNat, toNat_snoc, ih, low, pow_succ', Nat.mod_mul, Nat.add_comm]

theorem split_append (head rest : Bytes) : split (head ++ rest) head.length = .ok (head, rest) := by
  simp [split]

theorem toInt32_ofNat {n : Nat} (hn : n ≤ maxInt32) : toInt32 (ofNat 4 n) = n := by
  have hmax : n ≤ 2147483647 := hn
  have hlt : n < 256 ^ 4 := by
    have : 256 ^ 4 = 4294967296 := by norm_num
    omega
  unfold toInt32
  rw [toNat_ofNat, Nat.mod_eq_of_lt hlt, Int.bmod]
  omega

theorem splitInt32_ofNat {n : Nat} (hn : n ≤ maxInt32) (rest : Bytes) :
    splitInt32 (ofNat 4 n ++ rest) = .ok ((n : Int), rest) := by
  have hs := split_append (ofNat 4 n) rest
  rw [length_ofNat] at hs
  simp only [splitInt32, hs, toInt32_ofNat hn, bind, Except.bind, pure, Except.pure]

theorem splitByte_cons (b : UInt8) (rest : Bytes) :
    splitByte (b :: rest) = .ok (b.toNat, rest) := by
  have hs := split_append [b] rest
  simp only [List.singleton_append, List.length_singleton] at hs
  simp [splitByte, hs, toNat, bind, Except.bind, pure, Except.pure]

end Bytes

namespace BitStream

@[simp] theorem length_wordsToBytes (words : List UInt64) :
    (wordsToBytes words).length = 8 * words.length := by
  induction words with
  | nil => rfl
  | cons w words ih =>
    rw [wordsToBytes, List.flatMap_cons, List.length_append, Bytes.length_ofNat]
    rw [wordsToBytes] at ih
    rw [ih, List.length_cons]
    omega

theorem wordsOfBytes_ofNat (w : UInt64) (rest : Bytes) :
    wordsOfBytes (Bytes.ofNat 8 w.toNat ++ rest) = w :: wordsOfBytes rest := by
  have spelled := Bytes.toNat_ofNat 8 w.toNat
  rw [Nat.mod_eq_of_lt (lt_of_lt_of_eq w.toNat_lt (by norm_num))] at spelled
  -- words are cut off eight bytes at a time, so the bytes are named
  obtain ⟨a, b, c, d, e, f, g, h, hb⟩ : ∃ a b c d e f g h,
      Bytes.ofNat 8 w.toNat = [a, b, c, d, e, f, g, h] := ⟨_, _, _, _, _, _, _, _, rfl⟩
  rw [hb] at spelled ⊢
  rw [List.cons_append, List.cons_append, List.cons_append, List.cons_append, List.cons_append,
    List.cons_append, List.cons_append, List.cons_append, List.nil_append, wordsOfBytes, spelled,
    UInt64.ofNat_toNat]

theorem wordsOfBytes_wordsToBytes (words : List UInt64) :
    wordsOfBytes (wordsToBytes words) = words := by
  induction words with
  | nil => rfl
  | cons w words ih =>
    rw [wordsToBytes, List.flatMap_cons, wordsOfBytes_ofNat]
    exact congrArg (w :: ·) ih

/-! ## Words and bytes -/

/-- The bytes of some words, of which the last one holds `offset` bits, or 64 if `offset` is zero:
their number, the offset, and the words. -/
def frame (words : List UInt64) (offset : Nat) : Bytes :=
  Bytes.ofNat 4 words.length ++ UInt8.ofNat offset :: wordsToBytes words

theorem length_frame (words : List UInt64) (offset : Nat) :
    (frame words offset).length = 5 + 8 * words.length := by
  rw [frame, List.length_append, Bytes.length_ofNat, List.length_cons, length_wordsToBytes]
  omega

/-- What is framed is read, and the bytes behind it are left. -/
theorem ofBytes_frame {words : List UInt64} {offset : Nat} (hcount : words.length ≤ maxInt32)
    (hoffset : offset < 64) (hempty : words = [] → offset = 0) (rest : Bytes) :
    ofBytes (frame words offset ++ rest) = .ok (ofWords words offset hoffset, rest) := by
  have hbyte : (UInt8.ofNat offset).toNat = offset := by
    rw [UInt8.toNat_ofNat', Nat.mod_eq_of_lt (by omega)]
  -- without words there is no last word to use in part
  have hnone : ¬ ((words.length : Int) = 0 ∧ offset ≠ 0) := by
    rintro ⟨hzero, hne⟩
    exact hne (hempty (List.eq_nil_of_length_eq_zero (by omega)))
  have hbody := Bytes.split_append (wordsToBytes words) rest
  rw [length_wordsToBytes] at hbody
  rw [frame, List.append_assoc, List.cons_append, ofBytes, Bytes.splitInt32_ofNat hcount]
  simp only [bind, Except.bind]
  rw [Bytes.splitByte_cons, hbyte]
  simp only [pure, Except.pure, throw, throwThe, MonadExceptOf.throw]
  rw [if_neg (by omega), dif_pos hoffset, if_neg hnone, Int.toNat_natCast, hbody]
  simp only [wordsOfBytes_wordsToBytes]

/-- The words that hold a bit of a stream. -/
def used (s : BitStream) : List UInt64 := s.words.toList.take s.usedWords

@[simp] theorem length_used (s : BitStream) : s.used.length = s.usedWords := by
  have room := s.length_le
  rw [used, List.length_take, Array.length_toList, Nat.min_eq_left]
  rw [usedWords]
  omega

/-- A stream without words has no last word that is used in part. -/
theorem offset_of_used_eq_nil {s : BitStream} (h : s.used = []) : s.length % 64 = 0 := by
  have hzero := s.length_used
  rw [h, List.length_nil, usedWords] at hzero
  omega

theorem toBytes_eq_ok {s : BitStream} {bytes : Bytes} :
    s.toBytes = .ok bytes ↔ s.usedWords ≤ maxInt32 ∧ bytes = frame s.used (s.length % 64) := by
  rw [toBytes, frame, length_used, used]
  split
  · rename_i hu
    simp [hu, eq_comm]
  · rename_i hu
    simp [hu]

/-- A serialized stream is as long as the stream says. -/
theorem length_of_toBytes {s : BitStream} {bytes : Bytes} (h : s.toBytes = .ok bytes) :
    bytes.length = s.byteSize := by
  obtain ⟨-, rfl⟩ := toBytes_eq_ok.mp h
  rw [length_frame, length_used, byteSize]

theorem bit_ofWords (words : List UInt64) {offset : Nat} (h : offset < 64) (i : Nat) :
    (ofWords words offset h).bit i = (words[i / 64]?.getD 0).toNat.testBit (63 - i % 64) := by
  cases words with
  | nil =>
    -- the one word that is there is zero, like the words that are not
    rw [bit, ofWords]
    cases i / 64 <;> simp
  | cons first rest => simp [bit, ofWords]

theorem length_ofWords {words : List UInt64} {offset : Nat} (h : offset < 64)
    (hempty : words = [] → offset = 0) :
    (ofWords words offset h).usedWords = words.length ∧
      (ofWords words offset h).length % 64 = offset := by
  rw [usedWords]
  cases words with
  | nil => simp [ofWords, hempty rfl]
  | cons first rest =>
    simp only [ofWords, List.length_cons]
    split <;> omega

/-- A stream is as long as its words and the offset say. -/
theorem length_eq_of_usedWords {s s' : BitStream} (hused : s.usedWords = s'.usedWords)
    (hoffset : s.length % 64 = s'.length % 64) : s.length = s'.length := by
  rw [usedWords, usedWords] at hused
  omega

/-- The words of a stream, read as a stream of their own, are as long as the stream. -/
theorem length_ofWords_used (s : BitStream) (h : s.length % 64 < 64) :
    (ofWords s.used (s.length % 64) h).length = s.length := by
  obtain ⟨hused, hoffset⟩ := length_ofWords h offset_of_used_eq_nil
  exact length_eq_of_usedWords (hused.trans s.length_used) hoffset

/-- The bits of the used words of a stream, read as a stream of their own. -/
theorem toList_ofWords (s : BitStream) (h : s.length % 64 < 64) :
    (ofWords s.used (s.length % 64) h).toList = s.toList := by
  refine List.ext_getElem? fun i => ?_
  rw [getElem?_toList, getElem?_toList, length_ofWords_used, bit_ofWords, bit, used]
  by_cases hi : i < s.length
  · rw [if_pos hi, if_pos hi, List.getElem?_take_of_lt (by rw [usedWords]; omega),
      Array.getElem?_toList]
  · rw [if_neg hi, if_neg hi]

/-- **A serialized stream is read back with the same bits.** -/
theorem ofBytes_toBytes {s : BitStream} {bytes : Bytes} (h : s.toBytes = .ok bytes)
    (rest : Bytes) :
    ∃ s', ofBytes (bytes ++ rest) = .ok (s', rest) ∧ s'.toList = s.toList := by
  obtain ⟨hu, rfl⟩ := toBytes_eq_ok.mp h
  have hoffset : s.length % 64 < 64 := Nat.mod_lt _ (by omega)
  refine ⟨ofWords s.used (s.length % 64) hoffset, ?_, toList_ofWords s hoffset⟩
  exact ofBytes_frame (by rwa [length_used]) hoffset offset_of_used_eq_nil rest

end BitStream

end TimeSeries
