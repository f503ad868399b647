import Mathlib
import TimeSeries.Proofs.BitStream.Bytes
import TimeSeries.Proofs.Failing

/-!
# Streams and their bytes

Serializing a stream and reading it back undo each other, in either order.

A stream that is read back has the bits of the one that was serialized, and it stays as good as
that one: whatever is written to both of them from then on, they serialize alike. Having the same
bits would not be enough for this. A write joins with what a word holds after the end of the
stream, and in a stream that came from bytes this can be anything. So two streams are compared by
`Alike`, which looks beyond their ends. The bytes have the whole last word, and behind it there are
only zeros in every stream that was `Made`.

In the other direction, `Framed` says when a stream can be read from the front of some bytes. What
was read is serialized to just the bytes that it was read from.
-/

namespace TimeSeries

/-! ## Numbers and bytes -/

namespace Bytes

theorem toNat_lt (bytes : Bytes) : toNat bytes < 256 ^ bytes.length := by
  induction bytes using List.reverseRecOn with
  | nil => simp [toNat]
  | append_singleton bytes b ih =>
    have hb := b.toNat_lt
    rw [toNat_snoc, List.length_append, List.length_singleton, pow_succ]
    omega

/-- Bytes are those of the number that they spell. -/
theorem ofNat_toNat (bytes : Bytes) : ofNat bytes.length (toNat bytes) = bytes := by
  induction bytes using List.reverseRecOn with
  | nil => rfl
  | append_singleton bytes b ih =>
    have hb := b.toNat_lt
    have hdiv : (256 * toNat bytes + b.toNat) / 256 = toNat bytes := by omega
    have hlast : UInt8.ofNat (256 * toNat bytes + b.toNat) = b := by
      refine UInt8.toNat_inj.mp ?_
      rw [UInt8.toNat_ofNat']
      omega
    rw [toNat_snoc, List.length_append, List.length_singleton, ofNat, hdiv, ih, hlast]

/-- Four bytes that spell a number which is not negative are the bytes of that number. -/
theorem eq_ofNat_of_toInt32 {bytes : Bytes} (hlength : bytes.length = 4)
    (h : 0 ≤ toInt32 bytes) :
    (toInt32 bytes).toNat ≤ maxInt32 ∧ ofNat 4 (toInt32 bytes).toNat = bytes := by
  have hlt := toNat_lt bytes
  have hsame := ofNat_toNat bytes
  rw [hlength] at hlt hsame
  have hspelled : (toInt32 bytes).toNat = toNat bytes ∧ toNat bytes ≤ maxInt32 := by
    have hpow : (256 : Nat) ^ 4 = 4294967296 := by norm_num
    rw [hpow] at hlt
    unfold toInt32 at h ⊢
    rw [Int.bmod] at h ⊢
    rw [maxInt32]
    omega
  rw [hspelled.1]
  exact ⟨hspelled.2, hsame⟩

theorem split_eq_ok {bytes head rest : Bytes} {n : Nat} (h : split bytes n = .ok (head, rest)) :
    n ≤ bytes.length ∧ head = bytes.take n ∧ rest = bytes.drop n := by
  unfold split at h
  split at h
  · exact absurd h (by simp)
  · rename_i hlength
    obtain ⟨rfl, rfl⟩ := Prod.mk.inj (Except.ok.inj h)
    exact ⟨Nat.not_lt.mp hlength, rfl, rfl⟩

theorem splitInt32_eq_ok {bytes rest : Bytes} {n : Int} (h : splitInt32 bytes = .ok (n, rest)) :
    4 ≤ bytes.length ∧ n = toInt32 (bytes.take 4) ∧ rest = bytes.drop 4 := by
  obtain ⟨⟨head, tail⟩, hhead, hpure⟩ := bind_eq_ok.mp h
  obtain ⟨hlength, rfl, rfl⟩ := split_eq_ok hhead
  obtain ⟨rfl, rfl⟩ := Prod.mk.inj (pure_eq_ok.mp hpure)
  exact ⟨hlength, rfl, rfl⟩

/-- A number that is at the front of some bytes is there with others behind them, too. -/
theorem splitInt32_append {bytes rest : Bytes} {n : Int} (h : splitInt32 bytes = .ok (n, rest))
    (more : Bytes) : splitInt32 (bytes ++ more) = .ok (n, rest ++ more) := by
  obtain ⟨hlength, hn, hrest⟩ := splitInt32_eq_ok h
  have hlonger : ¬ (bytes ++ more).length < 4 := by rw [List.length_append]; omega
  rw [hn, hrest, splitInt32, split, if_neg hlonger, List.take_append_of_le_length hlength,
    List.drop_append_of_le_length hlength, ok_bind]
  rfl

theorem splitByte_eq_ok {bytes rest : Bytes} {n : Nat} (h : splitByte bytes = .ok (n, rest)) :
    ∃ b : UInt8, n = b.toNat ∧ bytes = b :: rest := by
  obtain ⟨⟨head, tail⟩, hhead, hpure⟩ := bind_eq_ok.mp h
  obtain ⟨hlength, rfl, rfl⟩ := split_eq_ok hhead
  obtain ⟨rfl, rfl⟩ := Prod.mk.inj (pure_eq_ok.mp hpure)
  cases bytes with
  | nil => exact absurd hlength (by simp)
  | cons b bytes => exact ⟨b, by simp [toNat], rfl⟩

end Bytes

namespace BitStream

/-- Bytes in groups of eight are those of some words. -/
theorem exists_wordsToBytes {n : Nat} {bytes : Bytes} (h : bytes.length = 8 * n) :
    ∃ words, words.length = n ∧ wordsToBytes words = bytes := by
  induction n generalizing bytes with
  | zero =>
    obtain rfl := List.eq_nil_of_length_eq_zero h
    exact ⟨[], rfl, rfl⟩
  | succ n ih =>
    have hshorter : (bytes.drop 8).length = 8 * n := by rw [List.length_drop]; omega
    obtain ⟨words, hwords, hrest⟩ := ih hshorter
    have hlength : (bytes.take 8).length = 8 := by rw [List.length_take]; omega
    have hlt := Bytes.toNat_lt (bytes.take 8)
    have hsame := Bytes.ofNat_toNat (bytes.take 8)
    rw [hlength] at hlt hsame
    have hword : (UInt64.ofNat (Bytes.toNat (bytes.take 8))).toNat =
        Bytes.toNat (bytes.take 8) := by
      rw [UInt64.toNat_ofNat', Nat.mod_eq_of_lt (lt_of_lt_of_eq hlt (by norm_num))]
    refine ⟨UInt64.ofNat (Bytes.toNat (bytes.take 8)) :: words, by rw [List.length_cons, hwords], ?_⟩
    rw [wordsToBytes, List.flatMap_cons, hword, hsame]
    rw [wordsToBytes] at hrest
    rw [hrest, List.take_append_drop]

/-! ## Bytes from which a stream can be read -/

/-- The number of words that bytes announce. -/
def announcedWords (bytes : Bytes) : Int := Bytes.toInt32 (bytes.take 4)

/-- The number of bits in a last word that is not full, as bytes announce it. -/
def announcedOffset (bytes : Bytes) : Nat := (bytes[4]?.getD 0).toNat

/-- The number of bytes that a stream takes up at the front of some bytes. -/
def framedLength (bytes : Bytes) : Nat := 5 + 8 * (announcedWords bytes).toNat

/-- A stream is at the front of some bytes: they announce so many words and bits as a stream can
have, and all the words are there. -/
structure Framed (bytes : Bytes) : Prop where
  header : 5 ≤ bytes.length
  words : 0 ≤ announcedWords bytes
  offset : announcedOffset bytes < 64
  /-- Without words there is no last word. -/
  empty : announcedWords bytes = 0 → announcedOffset bytes = 0
  body : 8 * (announcedWords bytes).toNat ≤ (bytes.drop 5).length

theorem announced_frame {words : List UInt64} {offset : Nat} (hcount : words.length ≤ maxInt32)
    (hoffset : offset < 64) (rest : Bytes) :
    announcedWords (frame words offset ++ rest) = words.length ∧
      announcedOffset (frame words offset ++ rest) = offset := by
  have hbyte : (UInt8.ofNat offset).toNat = offset := by
    rw [UInt8.toNat_ofNat', Nat.mod_eq_of_lt (by omega)]
  have hlength := Bytes.length_ofNat 4 words.length
  constructor
  · rw [announcedWords, frame, List.append_assoc, List.take_left' hlength,
      Bytes.toInt32_ofNat hcount]
  · rw [announcedOffset, frame, List.append_assoc, List.getElem?_append_right (by omega), hlength]
    simpa using hbyte

/-- The byte behind the number of words, and what is behind it. -/
theorem drop_header {bytes body : Bytes} {b : UInt8} (h : bytes.drop 4 = b :: body) :
    5 ≤ bytes.length ∧ announcedOffset bytes = b.toNat ∧ bytes.drop 5 = body := by
  have hfirst : (bytes.drop 4)[0]? = some b := by rw [h]; rfl
  have hbody : (bytes.drop 4).drop 1 = body := by rw [h]; rfl
  have hlength : (bytes.drop 4).length = body.length + 1 := by rw [h]; rfl
  rw [List.getElem?_drop] at hfirst
  rw [List.drop_drop] at hbody
  rw [List.length_drop] at hlength
  refine ⟨by omega, ?_, hbody⟩
  rw [announcedOffset, hfirst, Option.getD_some]

/-- Only what is framed can be read. -/
theorem framed_of_ofBytes {bytes rest : Bytes} {s : BitStream} (h : ofBytes bytes = .ok (s, rest)) :
    Framed bytes := by
  obtain ⟨⟨count, afterCount⟩, hcount, h⟩ := bind_eq_ok.mp h
  obtain ⟨-, hwords, rfl⟩ := Bytes.splitInt32_eq_ok hcount
  obtain ⟨⟨offset, afterOffset⟩, hoffset, h⟩ := bind_eq_ok.mp h
  obtain ⟨b, rfl, hbytes⟩ := Bytes.splitByte_eq_ok hoffset
  obtain ⟨hheader, hannounced, hbehind⟩ := drop_header hbytes
  obtain ⟨hnegative, h⟩ := guard_eq_ok.mp h
  split at h
  · rename_i hlast
    obtain ⟨hempty, h⟩ := guard_eq_ok.mp h
    obtain ⟨⟨body, afterBody⟩, hbody, -⟩ := bind_eq_ok.mp h
    obtain ⟨hroom, -, -⟩ := Bytes.split_eq_ok hbody
    rw [← hannounced] at hlast hempty
    rw [hwords, ← announcedWords] at hnegative hempty hroom
    refine ⟨hheader, Int.not_lt.mp hnegative, hlast, fun hzero => ?_, by rwa [hbehind]⟩
    by_contra hne
    exact hempty ⟨hzero, hne⟩
  · exact absurd h throw_ne_ok

/-- What is framed are the bytes of some words, with others behind them. -/
theorem Framed.exists_frame {bytes : Bytes} (h : Framed bytes) :
    ∃ words offset rest, words.length ≤ maxInt32 ∧ offset < 64 ∧ (words = [] → offset = 0) ∧
      bytes = frame words offset ++ rest := by
  obtain ⟨count, hcount⟩ := Int.eq_ofNat_of_zero_le h.words
  have hheader := h.header
  have hfour : (bytes.take 4).length = 4 := by rw [List.length_take]; omega
  obtain ⟨hmax, hspelled⟩ := Bytes.eq_ofNat_of_toInt32 hfour h.words
  have hbody := h.body
  rw [← announcedWords, hcount, Int.toNat_natCast] at hmax hspelled
  rw [hcount, Int.toNat_natCast] at hbody
  have hgroups : ((bytes.drop 5).take (8 * count)).length = 8 * count := by
    rw [List.length_take, Nat.min_eq_left hbody]
  obtain ⟨words, hlength, hwords⟩ := exists_wordsToBytes hgroups
  obtain ⟨b, body, hbytes⟩ : ∃ b body, bytes.drop 4 = b :: body :=
    List.exists_cons_of_length_pos (by rw [List.length_drop]; omega)
  obtain ⟨-, hoffset, hbehind⟩ := drop_header hbytes
  refine ⟨words, b.toNat, body.drop (8 * count), hlength ▸ hmax, hoffset ▸ h.offset, ?_, ?_⟩
  · intro hnil
    rw [hnil, List.length_nil] at hlength
    rw [← hoffset]
    exact h.empty (by rw [hcount, ← hlength]; rfl)
  · rw [frame, hlength, hspelled, UInt8.ofNat_toNat, hwords, hbehind, List.append_assoc,
      List.cons_append, List.take_append_drop, ← hbytes, List.take_append_drop]

/-- A stream can be read just if one is framed. -/
theorem ofBytes_isOk_iff (bytes : Bytes) :
    (∃ s rest, ofBytes bytes = .ok (s, rest)) ↔ Framed bytes := by
  constructor
  · rintro ⟨s, rest, h⟩
    exact framed_of_ofBytes h
  · intro h
    obtain ⟨words, offset, rest, hcount, hoffset, hempty, rfl⟩ := h.exists_frame
    exact ⟨ofWords words offset hoffset, rest, ofBytes_frame hcount hoffset hempty rest⟩

/-- What is read is a stream of the words that are framed. -/
theorem eq_ofWords_of_ofBytes {bytes rest : Bytes} {s : BitStream}
    (h : ofBytes bytes = .ok (s, rest)) :
    ∃ words offset, ∃ hoffset : offset < 64, words.length ≤ maxInt32 ∧
      (words = [] → offset = 0) ∧ s = ofWords words offset hoffset ∧
      bytes = frame words offset ++ rest := by
  obtain ⟨words, offset, behind, hcount, hoffset, hempty, rfl⟩ :=
    (framed_of_ofBytes h).exists_frame
  rw [ofBytes_frame hcount hoffset hempty behind] at h
  obtain ⟨rfl, rfl⟩ := Prod.mk.inj (Except.ok.inj h)
  exact ⟨words, offset, hoffset, hcount, hempty, rfl, rfl⟩

/-- What can be read from some bytes can be read with others behind them, which are left. -/
theorem ofBytes_append {bytes rest : Bytes} {s : BitStream} (h : ofBytes bytes = .ok (s, rest))
    (more : Bytes) : ofBytes (bytes ++ more) = .ok (s, rest ++ more) := by
  obtain ⟨words, offset, hoffset, hcount, hempty, rfl, rfl⟩ := eq_ofWords_of_ofBytes h
  rw [List.append_assoc]
  exact ofBytes_frame hcount hoffset hempty (rest ++ more)

/-- The words of a stream are those that it was made of. -/
theorem used_ofWords {words : List UInt64} {offset : Nat} (h : offset < 64)
    (hempty : words = [] → offset = 0) : (ofWords words offset h).used = words := by
  rw [used, (length_ofWords h hempty).1]
  cases words with
  | nil => rfl
  | cons first rest => simp [ofWords]

/-- What was read is serialized to the bytes that it was read from. -/
theorem toBytes_of_ofBytes {bytes rest : Bytes} {s : BitStream}
    (h : ofBytes bytes = .ok (s, rest)) :
    ∃ taken, bytes = taken ++ rest ∧ taken.length = framedLength bytes ∧ s.toBytes = .ok taken := by
  obtain ⟨words, offset, hoffset, hcount, hempty, rfl, rfl⟩ := eq_ofWords_of_ofBytes h
  obtain ⟨hused, hlast⟩ := length_ofWords hoffset hempty
  refine ⟨frame words offset, rfl, ?_, toBytes_eq_ok.mpr ⟨hused ▸ hcount, ?_⟩⟩
  · rw [framedLength, (announced_frame hcount hoffset rest).1, Int.toNat_natCast, length_frame]
  · rw [used_ofWords hoffset hempty, hlast]

/-! ## Streams that can be made -/

/-- A stream that was empty or read from bytes, and then written to in some way. -/
inductive Made : BitStream → Prop
  | empty (words : Nat) : Made (withCapacity words)
  | read {bytes rest : Bytes} {s : BitStream} (h : ofBytes bytes = .ok (s, rest)) : Made s
  | write {s : BitStream} (h : Made s) (n : Nat) (value : UInt64) : Made (s.write n value).2

/-- Writes all fields. One that is refused changes nothing. -/
def writeEach (s : BitStream) (fields : List BitField) : BitStream :=
  fields.foldl (fun s field => (s.write field.width field.value).2) s

/-- The words that hold no bit of the stream are zero. Its last word may hold more than it. -/
def Vacant (s : BitStream) : Prop := ∀ i, 64 * s.usedWords ≤ i → s.bit i = false

theorem vacant_ofWords {words : List UInt64} {offset : Nat} (h : offset < 64)
    (hempty : words = [] → offset = 0) : (ofWords words offset h).Vacant := by
  intro i hi
  rw [(length_ofWords h hempty).1] at hi
  rw [bit_ofWords, List.getElem?_eq_none (by omega)]
  simp

theorem Vacant.append {s : BitStream} (h : s.Vacant) {n : Nat} (value : UInt64)
    (hn : 1 ≤ n ∧ n ≤ 64) : (s.append n value hn.2).Vacant := by
  intro i hi
  have hlength : (s.append n value hn.2).length = s.length + n := rfl
  rw [usedWords, hlength] at hi
  have hold : s.bit i = false := h i (by rw [usedWords]; omega)
  rw [bit_append s value hn, hold]
  simp [show ¬ i < s.length + n by omega]

/-- In every stream that can be made, there are only zeros behind the last word. -/
theorem Made.vacant {s : BitStream} (h : s.Made) : s.Vacant := by
  induction h with
  | empty words =>
    intro i hi
    exact clean_withCapacity words i (Nat.zero_le i)
  | read h =>
    obtain ⟨words, offset, hoffset, -, hempty, rfl, -⟩ := eq_ofWords_of_ofBytes h
    exact vacant_ofWords hoffset hempty
  | write h n value ih =>
    unfold BitStream.write
    split
    · rename_i hn
      exact ih.append value hn
    · exact ih

/-! ## Streams that stay alike -/

/-- Two streams have the same length and the same bits, also after their ends. -/
structure Alike (s s' : BitStream) : Prop where
  length : s.length = s'.length
  bit : ∀ i, s.bit i = s'.bit i

theorem Alike.write {s s' : BitStream} (h : s.Alike s') (n : Nat) (value : UInt64) :
    (s.write n value).2.Alike (s'.write n value).2 := by
  unfold BitStream.write
  split
  · rename_i hn
    refine ⟨congrArg (· + n) h.length, fun i => ?_⟩
    rw [bit_append s value hn, bit_append s' value hn, h.length, h.bit]
  · exact h

/-- Streams that are alike stay so, whatever is written to both. -/
theorem Alike.writeEach {s s' : BitStream} (h : s.Alike s') (fields : List BitField) :
    (s.writeEach fields).Alike (s'.writeEach fields) := by
  induction fields generalizing s s' with
  | nil => exact h
  | cons field fields ih => exact ih (h.write field.width field.value)

/-- Words with the same bits are the same words. -/
theorem Alike.used {s s' : BitStream} (h : s.Alike s') : s.used = s'.used := by
  have hcount : s.usedWords = s'.usedWords := by rw [usedWords, usedWords, h.length]
  have hword : ∀ k : Nat, s.words[k]?.getD 0 = s'.words[k]?.getD 0 := by
    intro k
    refine UInt64.toNat_inj.mp (Nat.eq_of_testBit_eq fun j => ?_)
    by_cases hj : j < 64
    · have hbit := h.bit (64 * k + (63 - j))
      rwa [BitStream.bit, BitStream.bit, show (64 * k + (63 - j)) / 64 = k by omega,
        show 63 - (64 * k + (63 - j)) % 64 = j by omega] at hbit
    · rw [testBit_of_le _ (Nat.not_lt.mp hj), testBit_of_le _ (Nat.not_lt.mp hj)]
  have hroom := s.length_le
  have hroom' := s'.length_le
  refine List.ext_getElem (by rw [length_used, length_used, hcount]) fun k hk hk' => ?_
  rw [length_used, usedWords] at hk hk'
  have hthere : k < s.words.size := by omega
  have hthere' : k < s'.words.size := by omega
  have hsame := hword k
  rw [Array.getElem?_eq_getElem hthere, Array.getElem?_eq_getElem hthere'] at hsame
  simpa [BitStream.used] using hsame

theorem Alike.toBytes {s s' : BitStream} (h : s.Alike s') : s.toBytes = s'.toBytes := by
  have hcount : s.usedWords = s'.usedWords := by rw [usedWords, usedWords, h.length]
  have hused := h.used
  rw [BitStream.used, BitStream.used] at hused
  rw [BitStream.toBytes, BitStream.toBytes, hcount, h.length, ← hused, hcount]

/-- A stream and the one that is made of its used words are alike. -/
theorem Vacant.alike_ofWords {s : BitStream} (h : s.Vacant) (hoffset : s.length % 64 < 64) :
    (ofWords s.used (s.length % 64) hoffset).Alike s := by
  refine ⟨length_ofWords_used s hoffset, fun i => ?_⟩
  rw [bit_ofWords, bit, BitStream.used]
  by_cases hi : i / 64 < s.usedWords
  · rw [List.getElem?_take_of_lt hi, Array.getElem?_toList]
  · have hnone : s.bit i = false := h i (by omega)
    rw [bit] at hnone
    rw [List.getElem?_eq_none (by rw [List.length_take]; omega), hnone]
    simp

/-- **A stream and its bytes stand for each other.** What is serialized is as long as it should be,
and it is read back with the same bits, whatever follows it. The stream that is read serializes
like the other one also after the same writes to both. In turn, a stream is read from just those
bytes that have one framed at their front; it takes as many as they announce, and is serialized to
these. -/
theorem toBytes_inverse :
    (∀ s bytes, Made s → s.toBytes = .ok bytes →
      bytes.length = s.byteSize ∧
      ∀ rest, ∃ s', ofBytes (bytes ++ rest) = .ok (s', rest) ∧ s'.toList = s.toList ∧
        ∀ fields, (s'.writeEach fields).toBytes = (s.writeEach fields).toBytes) ∧
    (∀ bytes, (∃ s rest, ofBytes bytes = .ok (s, rest)) ↔ Framed bytes) ∧
    ∀ bytes s rest, ofBytes bytes = .ok (s, rest) →
      ∃ taken, bytes = taken ++ rest ∧ taken.length = framedLength bytes ∧
        s.toBytes = .ok taken := by
  refine ⟨fun s bytes hmade h => ?_, ofBytes_isOk_iff, fun bytes s rest => toBytes_of_ofBytes⟩
  obtain ⟨hcount, rfl⟩ := toBytes_eq_ok.mp h
  have hoffset : s.length % 64 < 64 := Nat.mod_lt _ (by omega)
  refine ⟨by rw [length_frame, length_used, byteSize], fun rest => ?_⟩
  have halike := hmade.vacant.alike_ofWords hoffset
  refine ⟨ofWords s.used (s.length % 64) hoffset, ?_, toList_ofWords s hoffset, fun fields => ?_⟩
  · exact ofBytes_frame (by rwa [length_used]) hoffset offset_of_used_eq_nil rest
  · exact (halike.writeEach fields).toBytes

/-- A stream of three bits in a word with all bits set: what is written joins with these, in the
stream and in the one that is read back alike. -/
theorem toBytes_inverse_joined :
    let bytes : Bytes := [0, 0, 0, 1, 3, 255, 255, 255, 255, 255, 255, 255, 255]
    ∃ s s' : BitStream, ofBytes (bytes ++ [7]) = .ok (s, [7]) ∧ s.toBytes = .ok bytes ∧
      ofBytes (bytes ++ [8, 9]) = .ok (s', [8, 9]) ∧ s'.toList = s.toList ∧
      (s'.writeEach [⟨62, 0⟩]).toBytes = (s.writeEach [⟨62, 0⟩]).toBytes ∧
      (s.writeEach [⟨62, 0⟩]).toBytes =
        .ok [0, 0, 0, 2, 1, 255, 255, 255, 255, 255, 255, 255, 255, 0, 0, 0, 0, 0, 0, 0, 0] := by
  intro bytes
  obtain ⟨hwrite, haccepts, hread⟩ := toBytes_inverse
  let s : BitStream := ofWords [0xFFFFFFFFFFFFFFFF] 3 (by decide)
  have hframe : frame [0xFFFFFFFFFFFFFFFF] 3 = bytes := by decide +kernel
  have hs : ofBytes (bytes ++ [7]) = .ok (s, [7]) := by
    rw [← hframe]
    exact ofBytes_frame (by decide) (by decide) (by decide) [7]
  have hbytes : s.toBytes = .ok bytes := by decide +kernel
  obtain ⟨-, hback⟩ := hwrite s bytes (.read hs) hbytes
  obtain ⟨s', hs', hsame, hlater⟩ := hback [8, 9]
  exact ⟨s, s', hs, hbytes, hs', hsame, hlater [⟨62, 0⟩], by decide +kernel⟩

end BitStream

end TimeSeries
