import Mathlib
import TimeSeries.Proofs.Chunk.Life
import TimeSeries.Proofs.SeriesReader.Decode

/-!
# A file that was damaged

Others may change the file in which a chunk keeps its frozen store: they may alter bytes, or cut
the file short. What becomes of a series depends on the bytes at the place of its record alone. As
long as these are what they were, it is read as before. If some of them were altered, that shows in
their checksum, or in what they decode to, or not at all, and a query passes over the series and
reports it. But if some of them are gone, it is the reading of the file that fails. A query takes
this for a failure of the disk and gives it as its answer, so that the other series are lost to it.
-/

namespace TimeSeries

/-! ## Records -/

namespace RecordFile

variable {r : RecordFile} {disk disk' : Disk} {id : SeriesId}

/-- The bytes at a place, as far as the file goes. -/
def bytesAt (r : RecordFile) (disk : Disk) (place : RecordPlace) : Bytes :=
  ((disk.content r.file).drop place.offset).take place.length

/-- The bytes of a record are the same on two disks. -/
def InPlace (r : RecordFile) (disk disk' : Disk) (id : SeriesId) : Prop :=
  ∀ place ∈ r.places[id]?, r.bytesAt disk' place = r.bytesAt disk place

/-- There is a record, but not all of its bytes are there. -/
def Cut (r : RecordFile) (disk : Disk) (id : SeriesId) : Prop :=
  ∃ place ∈ r.places[id]?, (r.bytesAt disk place).length ≠ place.length

instance : Decidable (r.InPlace disk disk' id) :=
  inferInstanceAs (Decidable (∀ place ∈ r.places[id]?, _))

instance : Decidable (r.Cut disk id) := inferInstanceAs (Decidable (∃ place ∈ r.places[id]?, _))

theorem readAt_eq (r : RecordFile) (disk : Disk) (place : RecordPlace) :
    disk.readAt r.file place.offset place.length =
      if (r.bytesAt disk place).length = place.length then .ok (r.bytesAt disk place)
      else .error (.io .shortRead) := rfl

theorem get_of_inPlace (h : r.InPlace disk disk' id) : r.get disk' id = r.get disk id := by
  rw [RecordFile.get, RecordFile.get]
  cases hplace : r.places[id]? with
  | none => rfl
  | some place =>
    have hread : disk'.readAt r.file place.offset place.length =
        disk.readAt r.file place.offset place.length := by
      rw [readAt_eq, readAt_eq, h place hplace]
    simp only [readPlace, hread]

theorem get_of_cut (hopened : r.closed = false) (h : r.Cut disk id) :
    r.get disk id = .error (.io .shortRead) := by
  obtain ⟨place, hplace, hshort⟩ := h
  rw [RecordFile.get, hopened, if_neg Bool.false_ne_true, hplace]
  dsimp only
  rw [readPlace, readAt_eq, if_neg hshort]
  rfl

/-- A record that is all there is given, or its checksum is another. -/
theorem failsOnly_get (hopened : r.closed = false) (h : ¬ r.Cut disk id) :
    FailsOnly (Chunk.isDamage · = true) (r.get disk id) := by
  rw [RecordFile.get, hopened, if_neg Bool.false_ne_true]
  cases hplace : r.places[id]? with
  | none => exact failsOnly_ok none
  | some place =>
    have hthere : (r.bytesAt disk place).length = place.length := by
      by_contra hshort
      exact h ⟨place, hplace, hshort⟩
    dsimp only
    rw [readPlace, readAt_eq, if_pos hthere, ok_bind]
    dsimp only
    split
    · exact failsOnly_ok _
    · exact failsOnly_error rfl

end RecordFile

/-! ## Series -/

theorem Compression.failsOnly_decode [BlockCodec] (c : Compression) (stored : Bytes) :
    FailsOnly Error.Damaged (c.decode stored) := by
  unfold decode
  split
  · exact failsOnly_ok stored
  · split
    · exact failsOnly_ok _
    · exact failsOnly_error ⟨_, rfl⟩
  · split
    · exact failsOnly_ok _
    · exact failsOnly_error ⟨_, rfl⟩

namespace FrozenStore

variable [BlockCodec] {s : FrozenStore} {r : RecordFile} {disk disk' : Disk} {id : SeriesId}

theorem get_of_inPlace (hfile : s.records = .file r) (h : r.InPlace disk disk' id) :
    s.get disk' id = s.get disk id := by
  have hrecord : s.records.get disk' id = s.records.get disk id := by
    rw [hfile]
    exact RecordFile.get_of_inPlace h
  rw [FrozenStore.get, FrozenStore.get, hrecord]

theorem get_of_cut (hfile : s.records = .file r) (hopened : r.closed = false)
    (h : r.Cut disk id) : s.get disk id = .error (.io .shortRead) := by
  have hrecord : s.records.get disk id = .error (.io .shortRead) := by
    rw [hfile]
    exact RecordFile.get_of_cut hopened h
  rw [FrozenStore.get, hrecord]
  rfl

/-- A series of which all bytes are there is given, or its bytes are wrong. -/
theorem failsOnly_get (hfile : s.records = .file r) (hopened : r.closed = false)
    (h : ¬ r.Cut disk id) : FailsOnly (Chunk.isDamage · = true) (s.get disk id) := by
  have hdamaged : ∀ {α : Type} {x : Except Error α}, FailsOnly Error.Damaged x →
      FailsOnly (Chunk.isDamage · = true) x := by
    intro α x hx e he
    obtain ⟨why, rfl⟩ := hx e he
    rfl
  rw [FrozenStore.get, hfile]
  refine failsOnly_bind (RecordFile.failsOnly_get hopened h) fun record _ => ?_
  cases record with
  | none => exact failsOnly_ok none
  | some stored =>
    refine failsOnly_bind (hdamaged (Compression.failsOnly_decode _ stored)) fun bytes _ => ?_
    refine failsOnly_bind (hdamaged (SeriesReader.failsOnly_ofBytes bytes)) fun reader hr => ?_
    have hpoints := SeriesReader.failsOnly_points (SeriesReader.sound_ofBytes hr)
    exact failsOnly_bind (hdamaged hpoints) fun points _ => failsOnly_ok (some points)

end FrozenStore

/-! ## Queries -/

namespace Chunk

variable [BlockCodec] {c : Chunk GrowingStore} {s : Store GrowingStore} {disk : Disk}
  {tags : TagIndex} {id : SeriesId} {ids : List SeriesId}

/-- What an answer has for an id: its series, if it can be read. -/
def readable? (s : Store GrowingStore) (disk : Disk) (tags : TagIndex) (id : SeriesId) :
    Option MetricPoints :=
  match s.get disk id with
  | .ok (some points) => some ⟨tags.fullName id, points⟩
  | _ => none

/-- What is reported of an id: why its series cannot be read. -/
def report? (c : Chunk GrowingStore) (s : Store GrowingStore) (disk : Disk) (id : SeriesId) :
    Option Signal :=
  match s.get disk id with
  | .ok _ => none
  | .error e => some (.event (.seriesDecodeFailed c.info.dataset id e.message))

/-- If all that cannot be read is damaged, the rest is the answer. -/
theorem readSeries_of_damage
    (h : ∀ id ∈ ids, FailsOnly (isDamage · = true) (s.get disk id)) :
    c.readSeries s disk tags ids =
      (.ok (ids.filterMap (readable? s disk tags)), ids.filterMap (report? c s disk)) := by
  induction ids with
  | nil => rfl
  | cons id ids ih =>
    obtain ⟨hid, hids⟩ := List.forall_mem_cons.mp h
    have hrest := ih hids
    rw [readSeries]
    cases hget : s.get disk id with
    | ok found =>
      have hreport : report? c s disk id = none := by rw [report?, hget]
      rw [List.filterMap_cons_none hreport]
      cases found with
      | none =>
        have hnone : readable? s disk tags id = none := by rw [readable?, hget]
        rw [List.filterMap_cons_none hnone]
        exact hrest
      | some points =>
        have hsome : readable? s disk tags id = some ⟨tags.fullName id, points⟩ := by
          rw [readable?, hget]
        rw [List.filterMap_cons_some hsome]
        dsimp only
        rw [hrest]
        rfl
    | error e =>
      have hnone : readable? s disk tags id = none := by rw [readable?, hget]
      have hreport : report? c s disk id =
          some (.event (.seriesDecodeFailed c.info.dataset id e.message)) := by
        rw [report?, hget]
      rw [List.filterMap_cons_none hnone, List.filterMap_cons_some hreport]
      dsimp only
      rw [if_pos (hid e hget), hrest]

/-- If something fails for another reason, always the same, that is the answer. -/
theorem readSeries_error {e : Error} (he : isDamage e = false)
    (hfails : ∃ id ∈ ids, s.get disk id = .error e)
    (hothers : ∀ id ∈ ids, s.get disk id = .error e ∨
      FailsOnly (isDamage · = true) (s.get disk id)) :
    (c.readSeries s disk tags ids).1 = .error e := by
  induction ids with
  | nil => exact absurd hfails (by simp)
  | cons id ids ih =>
    obtain ⟨hid, hids⟩ := List.forall_mem_cons.mp hothers
    rw [readSeries]
    by_cases hnow : s.get disk id = .error e
    · rw [hnow]
      dsimp only
      rw [he, if_neg Bool.false_ne_true]
    · have hlater : ∃ id ∈ ids, s.get disk id = .error e := by
        obtain ⟨other, hmem, hother⟩ := hfails
        rcases List.mem_cons.mp hmem with rfl | hmem
        · exact absurd hother hnow
        · exact ⟨other, hmem, hother⟩
      have hrest := ih hlater hids
      cases hget : s.get disk id with
      | ok found =>
        cases found with
        | none => exact hrest
        | some points =>
          dsimp only
          rw [hrest]
          rfl
      | error e' =>
        have hdamage := (hid.resolve_left hnow) e' hget
        dsimp only
        rw [if_pos hdamage]
        exact hrest

end Chunk

namespace ChunkWorld

/-- The frozen store of a chunk with the file of its records, if they lie in one. -/
def spilled? (w : ChunkWorld) : Option (FrozenStore × RecordFile) :=
  match w.chunk.store with
  | some (.frozen ⟨.file r, compression, points⟩) => some (⟨.file r, compression, points⟩, r)
  | _ => none

theorem of_spilled? {w : ChunkWorld} {s : FrozenStore} {r : RecordFile}
    (h : w.spilled? = some (s, r)) :
    w.chunk.store = some (.frozen s) ∧ s.records = .file r := by
  unfold spilled? at h
  split at h
  · rename_i hstore
    obtain ⟨rfl, rfl⟩ := Prod.mk.inj (Option.some_inj.mp h)
    exact ⟨hstore, rfl⟩
  · exact absurd h (by simp)

variable [BlockCodec] [LawfulBlockCodec] {w : ChunkWorld} {s : FrozenStore} {r : RecordFile}

/-- **What a query answers when the file was changed.** Let the file of a frozen chunk have any
content. A series of which the record is in place is read as before. If all bytes of the records
that a query asks for are there, it is answered with the series that can be read, in their order,
and of each other one it is reported once that it cannot. But one record of which bytes are gone is
enough to fail the whole query. -/
theorem query_changed {info : ChunkInfo} {calls : List Metric} {disk : Disk}
    (hc : ∀ m ∈ calls, ∃ name tags, Metric.new name tags = .ok m)
    (hr : Run (start info calls disk) w) (hs : w.spilled? = some (s, r)) (changed : Disk)
    (q : Query) :
    let ids := w.tags.lookup q
    (∀ id, r.InPlace w.disk changed id →
      ∃ found, s.get w.disk id = .ok found ∧ s.get changed id = .ok found) ∧
    (∀ id, r.Cut changed id → s.get changed id = .error (.io .shortRead)) ∧
    ((∀ id ∈ ids, ¬ r.Cut changed id) → w.chunk.query changed w.tags q =
      (.ok (ids.filterMap (Chunk.readable? (.frozen s) changed w.tags)),
        ids.filterMap (Chunk.report? w.chunk (.frozen s) changed))) ∧
    ((∃ id ∈ ids, r.Cut changed id) →
      (w.chunk.query changed w.tags q).1 = .error (.io .shortRead)) := by
  intro ids
  obtain ⟨ms, hms⟩ := holds_start hc
  obtain ⟨ms', f, h⟩ := hms.run hr
  obtain ⟨hstore, hfile⟩ := of_spilled? hs
  have hheld : s.Holds w.disk f := h.store _ hstore
  have hopened : r.closed = false := by
    obtain ⟨records, hrecords, -⟩ := hheld
    rw [hfile] at hrecords
    exact RecordFile.Holds.opened hrecords
  have hquery : w.chunk.query changed w.tags q =
      w.chunk.readSeries (.frozen s) changed w.tags ids := by
    rw [Chunk.query, hstore]
  refine ⟨fun id hplace => ?_, fun id hcut => FrozenStore.get_of_cut hfile hopened hcut,
    fun hthere => ?_, fun hcut => ?_⟩
  · have hget := hheld.get id
    exact ⟨_, hget, (FrozenStore.get_of_inPlace hfile hplace).trans hget⟩
  · rw [hquery]
    exact Chunk.readSeries_of_damage fun id hid =>
      FrozenStore.failsOnly_get hfile hopened (hthere id hid)
  · obtain ⟨id, hid, hcut⟩ := hcut
    rw [hquery]
    refine Chunk.readSeries_error rfl
      ⟨id, hid, FrozenStore.get_of_cut hfile hopened hcut⟩ fun other _ => ?_
    by_cases hother : r.Cut changed other
    · exact .inl (FrozenStore.get_of_cut hfile hopened hother)
    · exact .inr (FrozenStore.failsOnly_get hfile hopened hother)

end ChunkWorld

/-- A chunk that was frozen with two series, each of which has a record of 30 bytes in the file. -/
def ChunkWorld.twoSpilled : ChunkWorld :=
  (((start ⟨"c_0", 0, 7200⟩ [] Disk.empty).add ⟨"cpu", [⟨"host", "a"⟩]⟩
    ⟨60, 0x3FF0000000000000⟩).add ⟨"cpu", [⟨"host", "b"⟩]⟩ ⟨61, 0x4000000000000000⟩).freeze
      { directory := some ⟨"/spill", ["spill"]⟩ }

/-- When a byte of the second record is altered, the first series is still answered; when the file
is cut in the second record, nothing is. -/
theorem ChunkWorld.query_changed_sample :
    let w := twoSpilled
    let altered := w.disk.setContent 0 ((w.disk.content 0).set 38 0)
    let cut := w.disk.setContent 0 ((w.disk.content 0).take 40)
    w.chunk.query altered w.tags ⟨"cpu", []⟩ =
        (.ok [⟨"cpu host=a", [⟨60, 0x3FF0000000000000⟩]⟩],
          [.event (.seriesDecodeFailed "c_0" 3 ("Corruption detected: CRC mismatch in " ++
            "/spill/c_0.series (expected 27239ada, got 640e7499)"))]) ∧
      (w.chunk.query cut w.tags ⟨"cpu", []⟩).1 = .error (.io .shortRead) := by
  intro w altered cut
  have built : (∃ name tags, Metric.new name tags = .ok ⟨"cpu", [⟨"host", "a"⟩]⟩) ∧
      ∃ name tags, Metric.new name tags = .ok ⟨"cpu", [⟨"host", "b"⟩]⟩ :=
    ⟨⟨"cpu", ["host=a"], by decide +kernel⟩, "cpu", ["host=b"], by decide +kernel⟩
  have run : Run (start ⟨"c_0", 0, 7200⟩ [] Disk.empty) w :=
    ((Relation.ReflTransGen.single (.add _ built.1)).tail (.add _ built.2)).tail (.freeze _)
  have hplaces : ∃ x ∈ w.spilled?,
      (∀ id ∈ w.tags.lookup ⟨"cpu", []⟩, ¬ x.2.Cut altered id) ∧
      (∃ id ∈ w.tags.lookup ⟨"cpu", []⟩, x.2.Cut cut id) ∧
      (w.tags.lookup ⟨"cpu", []⟩).filterMap (Chunk.readable? (.frozen x.1) altered w.tags) =
        [⟨"cpu host=a", [⟨60, 0x3FF0000000000000⟩]⟩] ∧
      (w.tags.lookup ⟨"cpu", []⟩).filterMap (Chunk.report? w.chunk (.frozen x.1) altered) =
        [.event (.seriesDecodeFailed "c_0" 3 ("Corruption detected: CRC mismatch in " ++
          "/spill/c_0.series (expected 27239ada, got 640e7499)"))] := by
    decide +kernel
  obtain ⟨⟨s, r⟩, hs, hthere, hcut, hreadable, hreport⟩ := hplaces
  obtain ⟨-, -, hanswer, -⟩ := query_changed (by simp) run hs altered ⟨"cpu", []⟩
  obtain ⟨-, -, -, hfails⟩ := query_changed (by simp) run hs cut ⟨"cpu", []⟩
  rw [hanswer hthere, hreadable, hreport]
  exact ⟨rfl, hfails hcut⟩

/-- The record of the first series is in place, and still the series is not in the answer. -/
theorem ChunkWorld.query_cut_loses :
    let cut := twoSpilled.disk.setContent 0 ((twoSpilled.disk.content 0).take 40)
    twoSpilled.answer ⟨"cpu", []⟩ = (.ok [⟨"cpu host=a", [⟨60, 0x3FF0000000000000⟩]⟩,
        ⟨"cpu host=b", [⟨61, 0x4000000000000000⟩]⟩], []) ∧
      (∃ x ∈ twoSpilled.spilled?, x.2.file = 0 ∧ x.2.InPlace twoSpilled.disk cut 2) ∧
      twoSpilled.chunk.query cut twoSpilled.tags ⟨"cpu", []⟩ = (.error (.io .shortRead), []) := by
  decide +kernel

end TimeSeries
