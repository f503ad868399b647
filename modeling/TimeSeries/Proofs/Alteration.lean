import Mathlib
import TimeSeries.Proofs.Checksum
import TimeSeries.Proofs.Chunk.Damage

/-!
# Records in an altered file

A file of records is altered in up to four bytes in a row. What has one of these bytes in its
record is refused, however long the record is and whatever the bytes are now, since the checksum of
the record cannot be what it was. Everything else is read as it was put. In particular nobody
notices that a record was altered that had been replaced before: it lies in the file as waste.
-/

namespace TimeSeries

namespace RecordFile

open Checksum (Burst)

variable {r : RecordFile} {d : Disk} {id : SeriesId} {records : SeriesId → Option Bytes}
  {altered : Bytes}

/-! ## Which records are hit -/

/-- A byte of the record of a series is another than before. -/
def Hit (r : RecordFile) (old new : Bytes) (id : SeriesId) : Prop :=
  ∃ place ∈ r.places[id]?, ∃ i < place.length,
    new[place.offset + i]? ≠ old[place.offset + i]?

instance (old new : Bytes) : Decidable (r.Hit old new id) :=
  inferInstanceAs (Decidable (∃ place ∈ r.places[id]?, _))

theorem take_drop_ne_iff {old new : Bytes} {start length : Nat} :
    (new.drop start).take length ≠ (old.drop start).take length ↔
      ∃ i < length, new[start + i]? ≠ old[start + i]? := by
  constructor
  · intro hne
    by_contra hsame
    refine hne (List.ext_getElem? fun i => ?_)
    rw [List.getElem?_take, List.getElem?_take, List.getElem?_drop, List.getElem?_drop]
    split
    · rename_i hi
      by_contra hdiffers
      exact hsame ⟨i, hi, hdiffers⟩
    · rfl
  · intro hdiffer hsame
    obtain ⟨i, hi, hdiffers⟩ := hdiffer
    have hat := congrArg (·[i]?) hsame
    simp only [List.getElem?_take, if_pos hi, List.getElem?_drop] at hat
    exact hdiffers hat

/-- The bytes at a place of a file that was given another content. -/
theorem bytesAt_setContent (place : RecordPlace) :
    r.bytesAt (d.setContent r.file altered) place =
      (altered.drop place.offset).take place.length := by
  rw [bytesAt, Disk.content_setContent_self]

/-- A record that is not hit has its bytes in place. -/
theorem inPlace_of_not_hit (h : ¬ r.Hit (d.content r.file) altered id) :
    r.InPlace d (d.setContent r.file altered) id := by
  intro place hplace
  by_contra hne
  rw [bytesAt_setContent, bytesAt] at hne
  exact h ⟨place, hplace, take_drop_ne_iff.mp hne⟩

/-- At its place a record lies with the length and the checksum that are remembered. -/
theorem Holds.bytesAt_eq (h : r.Holds d records) {place : RecordPlace}
    (hplace : place ∈ r.places[id]?) :
    (r.bytesAt d place).length = place.length ∧
      Checksum.ofBytes (r.bytesAt d place) = place.checksum := by
  have hmarks := h.places id
  rw [hplace] at hmarks
  cases hrecord : records id with
  | none =>
    rw [hrecord] at hmarks
    exact absurd hmarks (by simp)
  | some bytes =>
    rw [hrecord, Option.rel_some_some] at hmarks
    obtain ⟨before, after, hcontent, rfl⟩ := hmarks
    rw [bytesAt, hcontent, List.append_assoc, List.drop_left, List.take_left]
    exact ⟨rfl, rfl⟩

/-- **A record that was hit by a burst is refused.** -/
theorem Holds.get_of_hit (h : r.Holds d records) (hburst : Burst (d.content r.file) altered)
    (hhit : r.Hit (d.content r.file) altered id) :
    ∃ expected found, r.get (d.setContent r.file altered) id =
      .error (.corrupt (.checksum r.path.text expected found) (some id)) := by
  obtain ⟨place, hplace, hdiffers⟩ := hhit
  obtain ⟨hlength, hchecksum⟩ := h.bytesAt_eq hplace
  have hpart := hburst.part place.offset place.length
  have hne := hpart.ofBytes_ne (take_drop_ne_iff.mpr hdiffers)
  have hlength' := hpart.1
  rw [← bytesAt_setContent (r := r) (d := d), ← bytesAt] at hne hlength'
  rw [RecordFile.get, h.opened, if_neg Bool.false_ne_true, hplace]
  dsimp only
  rw [readPlace, readAt_eq, if_pos (hlength'.trans hlength), ok_bind, ← hchecksum]
  dsimp only
  rw [if_neg hne]
  exact ⟨_, _, rfl⟩

/-- What was not hit is read as it was put. -/
theorem Holds.get_of_not_hit (h : r.Holds d records)
    (hmiss : ¬ r.Hit (d.content r.file) altered id) :
    r.get (d.setContent r.file altered) id = .ok (records id) := by
  rw [get_of_inPlace (inPlace_of_not_hit hmiss), h.get id]

/-! ## Files that were filled by putting records -/

/-- Puts records one after another, whatever happens to the ones before. -/
def putEach (r : RecordFile) (d : Disk) : List (SeriesId × Bytes) → RecordFile × Disk
  | [] => (r, d)
  | (id, bytes) :: rest =>
    let (_, r, d) := r.put d id bytes
    r.putEach d rest

/-- The bytes that were put last for a series. Those that are too long for a record do not count. -/
def lastPut (puts : List (SeriesId × Bytes)) (id : SeriesId) : Option Bytes :=
  (puts.reverse.find? fun put => put.1 = id ∧ put.2.length < lengthLimit).map Prod.snd

theorem lastPut_concat (puts : List (SeriesId × Bytes)) (id : SeriesId) (bytes : Bytes) :
    lastPut (puts ++ [(id, bytes)]) =
      if bytes.length < lengthLimit then Function.update (lastPut puts) id (some bytes)
      else lastPut puts := by
  funext other
  rw [lastPut, List.reverse_append, List.reverse_singleton, List.singleton_append]
  by_cases hlength : bytes.length < lengthLimit
  · rw [if_pos hlength]
    by_cases hother : other = id
    · rw [hother, Function.update_self, List.find?_cons_of_pos (by simpa using hlength)]
      rfl
    · rw [Function.update_of_ne hother, List.find?_cons_of_neg (by simp [Ne.symm hother]), lastPut]
  · rw [if_neg hlength, List.find?_cons_of_neg (by simp [hlength]), lastPut]

theorem Holds.put_last {puts : List (SeriesId × Bytes)} (h : r.Holds d (lastPut puts))
    (id : SeriesId) (bytes : Bytes) :
    (r.put d id bytes).2.1.Holds (r.put d id bytes).2.2 (lastPut (puts ++ [(id, bytes)])) := by
  rw [lastPut_concat]
  by_cases hlength : bytes.length < lengthLimit
  · rw [if_pos hlength]
    have hok : (r.put d id bytes).1 = .ok () := by
      rw [RecordFile.put, h.opened, if_neg Bool.false_ne_true, if_neg (Nat.not_le.mpr hlength)]
    exact h.put (Prod.ext hok rfl)
  · rw [if_neg hlength, RecordFile.put, h.opened, if_neg Bool.false_ne_true,
      if_pos (Nat.not_lt.mp hlength)]
    exact h

/-- After any puts, a file holds what was put last. -/
theorem Holds.putEach {before : List (SeriesId × Bytes)} (h : r.Holds d (lastPut before))
    (puts : List (SeriesId × Bytes)) :
    (r.putEach d puts).1.Holds (r.putEach d puts).2 (lastPut (before ++ puts)) := by
  induction puts generalizing r d before with
  | nil => rwa [List.append_nil]
  | cons x puts ih =>
    obtain ⟨id, bytes⟩ := x
    have hrest := ih (h.put_last id bytes)
    rw [List.append_assoc, List.singleton_append] at hrest
    exact hrest

/-- **A burst is found in the records that it hits and changes no other.** A file that records were
put into is altered in up to four bytes in a row. A series is refused if one of the bytes of its
record is another now, and any other gives what was put last for it. -/
theorem get_altered {path : Path} {disk made : Disk} {fresh : RecordFile}
    (hcreate : create path disk = (.ok fresh, made)) (puts : List (SeriesId × Bytes)) :
    let r := (fresh.putEach made puts).1
    let d := (fresh.putEach made puts).2
    ∀ altered, Burst (d.content r.file) altered → ∀ id,
      (r.Hit (d.content r.file) altered id →
        ∃ expected found, r.get (d.setContent r.file altered) id =
          .error (.corrupt (.checksum r.path.text expected found) (some id))) ∧
      (¬ r.Hit (d.content r.file) altered id →
        r.get (d.setContent r.file altered) id = .ok (lastPut puts id)) := by
  intro r d altered hburst id
  have hfresh : fresh.Holds made (lastPut []) := holds_create hcreate
  have h : r.Holds d (lastPut puts) := hfresh.putEach puts
  exact ⟨fun hhit => h.get_of_hit hburst hhit, fun hmiss => h.get_of_not_hit hmiss⟩

/-- The first record of series 2 is waste. Two of its bytes are altered, and one of series 5 behind
it. -/
theorem get_altered_sample :
    let path : Path := ⟨"d.series", ["d.series"]⟩
    let fresh : RecordFile := ⟨path, 0, ∅, 0, false⟩
    let made := (create path Disk.empty).2
    let puts : List (SeriesId × Bytes) := [(2, [1, 2, 3]), (5, [7, 8]), (2, [4, 5, 6]), (9, [9])]
    let r := (fresh.putEach made puts).1
    let d := (fresh.putEach made puts).2
    let after := d.setContent r.file [1, 0, 0, 0, 8, 4, 5, 6, 9]
    d.content r.file = [1, 2, 3, 7, 8, 4, 5, 6, 9] ∧
    (∃ expected found, r.get after 5 =
      .error (.corrupt (.checksum "d.series" expected found) (some 5))) ∧
    r.get after 2 = .ok (some [4, 5, 6]) ∧ r.get after 3 = .ok none := by
  intro path fresh made puts r d after
  have hcreate : create path Disk.empty = (.ok fresh, made) := rfl
  have hcontent : d.content r.file = [1, 2, 3, 7, 8, 4, 5, 6, 9] := by decide +kernel
  have hburst : Burst (d.content r.file) [1, 0, 0, 0, 8, 4, 5, 6, 9] := by
    rw [hcontent]
    refine ⟨rfl, 0, fun i hi => ⟨Nat.zero_le i, ?_⟩⟩
    by_contra hlate
    obtain ⟨k, rfl⟩ := Nat.exists_eq_add_of_le' (Nat.not_lt.mp hlate)
    exact hi rfl
  have hhit : r.Hit (d.content r.file) [1, 0, 0, 0, 8, 4, 5, 6, 9] 5 := by decide +kernel
  have hmiss : ¬ r.Hit (d.content r.file) [1, 0, 0, 0, 8, 4, 5, 6, 9] 2 ∧
      ¬ r.Hit (d.content r.file) [1, 0, 0, 0, 8, 4, 5, 6, 9] 3 := by
    decide +kernel
  have hget := get_altered hcreate puts _ hburst
  exact ⟨hcontent, (hget 5).1 hhit, (hget 2).2 hmiss.1, (hget 3).2 hmiss.2⟩

end RecordFile

end TimeSeries
