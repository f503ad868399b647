import Mathlib
import TimeSeries.RecordMap
import TimeSeries.Proofs.Disk

/-!
# What maps of records hold

`RecordMap.Holds m d g` says that a map holds the records `g` on a disk. A map in a file holds a
record when its bytes lie in the file at the place that the map remembers, and since records are
only ever put at the end, the places of the others stay good. What a map holds depends on nothing
of a disk but the content of the one file that it `Owns`.
-/

namespace TimeSeries

variable {d d' : Disk} {id : SeriesId} {bytes : Bytes} {records : SeriesId → Option Bytes}

/-- A place at which some bytes lie in the content of a file, with their checksum. -/
def RecordPlace.Marks (place : RecordPlace) (content bytes : Bytes) : Prop :=
  ∃ before after, content = before ++ bytes ++ after ∧
    place = ⟨before.length, bytes.length, Checksum.ofBytes bytes⟩

theorem RecordPlace.Marks.append {place : RecordPlace} {content : Bytes}
    (h : place.Marks content bytes) (more : Bytes) : place.Marks (content ++ more) bytes := by
  obtain ⟨before, after, rfl, rfl⟩ := h
  exact ⟨before, after ++ more, by simp, rfl⟩

namespace RecordFile

/-- A file of records that is open, with its records. -/
structure Holds (r : RecordFile) (d : Disk) (records : SeriesId → Option Bytes) : Prop where
  opened : r.closed = false
  stop : (d.content r.file).length = r.stop
  places : ∀ id, Option.Rel (fun place bytes => place.Marks (d.content r.file) bytes)
    r.places[id]? (records id)

variable {r r' : RecordFile}

theorem Holds.congr (h : r.Holds d records) (hc : d'.content r.file = d.content r.file) :
    r.Holds d' records where
  opened := h.opened
  stop := by rw [hc, h.stop]
  places := by rw [hc]; exact h.places

/-- A record at its place is read and passes the check. -/
theorem readPlace_of_marks {place : RecordPlace} (h : place.Marks (d.content r.file) bytes) :
    r.readPlace d id place = .ok bytes := by
  obtain ⟨before, after, hc, rfl⟩ := h
  have hread : d.readAt r.file before.length bytes.length = .ok bytes := by
    rw [Disk.readAt, hc, List.append_assoc, List.drop_left, List.take_left, if_pos rfl]
  rw [readPlace, hread, ok_bind]
  dsimp only
  rw [if_pos rfl]
  rfl

theorem Holds.get (h : r.Holds d records) (id : SeriesId) : r.get d id = .ok (records id) := by
  have hplace := h.places id
  rw [RecordFile.get, h.opened, if_neg Bool.false_ne_true]
  -- a place is remembered just for the ids with a record
  generalize r.places[id]? = place, records id = record at hplace
  cases hplace with
  | none => rfl
  | some hmarks =>
    dsimp only
    rw [readPlace_of_marks hmarks]
    rfl

theorem holds_create {path : Path} (h : create path d = (.ok r, d')) :
    r.Holds d' fun _ => none := by
  unfold create at h
  split at h
  · exact absurd (Prod.mk.inj h).1 (by simp)
  · split at h
    · exact absurd (Prod.mk.inj h).1 (by simp)
    · rename_i file made hfile
      simp only [Prod.mk.injEq, Except.ok.injEq] at h
      obtain ⟨rfl, rfl⟩ := h
      have hempty := Disk.content_createFile hfile
      refine ⟨rfl, by rw [hempty]; rfl, fun id => ?_⟩
      simp only [Std.TreeMap.getElem?_emptyc]
      exact .none

theorem Holds.put (h : r.Holds d records) (hput : r.put d id bytes = (.ok (), r', d')) :
    r'.Holds d' (Function.update records id (some bytes)) := by
  unfold RecordFile.put at hput
  rw [h.opened, if_neg Bool.false_ne_true] at hput
  split at hput
  · exact absurd (Prod.mk.inj hput).1 (by simp)
  · simp only [Prod.mk.injEq, true_and] at hput
    obtain ⟨rfl, rfl⟩ := hput
    -- the map stops at the end of the file, so the record comes behind all others
    have hend : (d.writeAt r.file r.stop bytes).content r.file = d.content r.file ++ bytes :=
      Disk.content_writeAt_end h.stop
    refine ⟨rfl, ?_, fun other => ?_⟩
    · rw [hend, List.length_append, h.stop]
    · dsimp only
      rw [hend]
      by_cases ho : other = id
      · subst ho
        rw [Function.update_self, Std.TreeMap.getElem?_insert_self]
        exact .some ⟨d.content r.file, [], by simp, by rw [h.stop]⟩
      · rw [Function.update_of_ne ho, TreeMap.getElem?_insert, if_neg ho]
        have hplace := h.places other
        generalize r.places[other]? = place, records other = record at hplace
        cases hplace with
        | none => exact .none
        | some hmarks => exact .some (hmarks.append bytes)

/-- What is done to a map in a file is done at the end of its path only. -/
theorem apart_create {path : Path} (hd : d.WellFormed) (h : create path d = (.ok r, d')) :
    Disk.Apart (some path.steps) d d' ∧ r.path = path ∧
      d'.node? path.steps = some (.file r.file) := by
  unfold create at h
  split at h
  · exact absurd (Prod.mk.inj h).1 (by simp)
  · rename_i made hmade
    have hdirs : Disk.Apart (some path.steps) d made := Disk.apart_makeDirectories hd hmade
    split at h
    · exact absurd (Prod.mk.inj h).1 (by simp)
    · rename_i file made' hfile
      simp only [Prod.mk.injEq, Except.ok.injEq] at h
      obtain ⟨rfl, rfl⟩ := h
      obtain ⟨hcreated, hnode⟩ := Disk.apart_createFile hdirs.wellFormed hfile
      exact ⟨hdirs.trans hcreated, rfl, hnode⟩

theorem apart_create_error {path : Path} {e : Error} (hd : d.WellFormed)
    (h : create path d = (.error e, d')) : Disk.Apart (some path.steps) d d' := by
  unfold create at h
  split at h
  · obtain ⟨-, rfl⟩ := Prod.mk.inj h
    exact .refl hd
  · rename_i made hmade
    split at h
    · obtain ⟨-, rfl⟩ := Prod.mk.inj h
      exact Disk.apart_makeDirectories hd hmade
    · exact absurd (Prod.mk.inj h).1 (by simp)

theorem apart_put {result : Except Error Unit} (hd : d.WellFormed)
    (hnode : d.node? r.path.steps = some (.file r.file))
    (h : r.put d id bytes = (result, r', d')) :
    Disk.Apart (some r.path.steps) d d' ∧ r'.path = r.path ∧ r'.file = r.file ∧
      d'.node? r.path.steps = some (.file r.file) := by
  unfold RecordFile.put at h
  split at h
  · simp only [Prod.mk.injEq] at h
    obtain ⟨-, rfl, rfl⟩ := h
    exact ⟨.refl hd, rfl, rfl, hnode⟩
  · split at h
    · simp only [Prod.mk.injEq] at h
      obtain ⟨-, rfl, rfl⟩ := h
      exact ⟨.refl hd, rfl, rfl, hnode⟩
    · simp only [Prod.mk.injEq] at h
      obtain ⟨-, rfl, rfl⟩ := h
      exact ⟨Disk.apart_writeAt hd hnode, rfl, rfl, hnode⟩

theorem apart_close (hd : d.WellFormed) :
    Disk.Apart (some r.path.steps) d (r.close d).2.2 := by
  unfold RecordFile.close
  split
  · exact .refl hd
  · dsimp only
    split
    · rename_i hremove
      exact Disk.apart_removeFile hd hremove
    · exact .refl hd
    · exact .refl hd

end RecordFile

namespace RecordMap

variable {m m' : RecordMap}

/-- A map with its records. -/
def Holds (m : RecordMap) (d : Disk) (records : SeriesId → Option Bytes) : Prop :=
  match m with
  | .memory t => ∀ id, t.records[id]? = records id
  | .file r => r.Holds d records

/-- The content of the file of a map, if it has one, is the same on two disks. -/
def SameFile (m : RecordMap) (d d' : Disk) : Prop :=
  match m with
  | .memory _ => True
  | .file r => d'.content r.file = d.content r.file

theorem SameFile.refl : m.SameFile d d := by
  cases m with
  | memory t => trivial
  | file r => exact rfl

theorem Holds.congr (h : m.Holds d records) (hs : m.SameFile d d') : m.Holds d' records := by
  cases m with
  | memory t => exact h
  | file r => exact RecordFile.Holds.congr h hs

theorem Holds.get (h : m.Holds d records) (id : SeriesId) : m.get d id = .ok (records id) := by
  cases m with
  | memory t => exact congrArg Except.ok (h id)
  | file r => exact RecordFile.Holds.get h id

/-- A map that was made at a path is one in a file. -/
theorem create_some_eq_ok {path : Path} (h : create (some path) d = (.ok m, d')) :
    ∃ r, m = .file r ∧ RecordFile.create path d = (.ok r, d') := by
  unfold create at h
  dsimp only at h
  split at h
  · rename_i r made hr
    simp only [Prod.mk.injEq, Except.ok.injEq] at h
    obtain ⟨rfl, rfl⟩ := h
    exact ⟨r, rfl, hr⟩
  · exact absurd (Prod.mk.inj h).1 (by simp)

/-- A new map holds no records. -/
theorem holds_create {path : Option Path} (h : create path d = (.ok m, d')) :
    m.Holds d' fun _ => none := by
  cases path with
  | none =>
    simp only [create, Prod.mk.injEq, Except.ok.injEq] at h
    obtain ⟨rfl, rfl⟩ := h
    exact fun id => Std.TreeMap.getElem?_emptyc
  | some path =>
    obtain ⟨r, rfl, hr⟩ := create_some_eq_ok h
    exact RecordFile.holds_create hr

/-- A record that was put is there, and the others stay. -/
theorem Holds.put (h : m.Holds d records) (hput : m.put d id bytes = (.ok (), m', d')) :
    m'.Holds d' (Function.update records id (some bytes)) := by
  cases m with
  | memory t =>
    simp only [RecordMap.put, Prod.mk.injEq, true_and] at hput
    obtain ⟨rfl, rfl⟩ := hput
    intro other
    rw [RecordTable.put]
    by_cases ho : other = id
    · subst ho
      rw [Function.update_self, Std.TreeMap.getElem?_insert_self]
    · rw [Function.update_of_ne ho, TreeMap.getElem?_insert, if_neg ho]
      exact h other
  | file r =>
    cases hr : r.put d id bytes with
    | mk result after =>
      obtain ⟨r', made⟩ := after
      simp only [RecordMap.put, hr, Prod.mk.injEq] at hput
      obtain ⟨rfl, rfl, rfl⟩ := hput
      exact RecordFile.Holds.put h hr

/-- The ids of a map are those with a record. -/
theorem Holds.mem_ids (h : m.Holds d records) : id ∈ m.ids ↔ ∃ bytes, records id = some bytes := by
  rw [← Option.isSome_iff_exists]
  cases m with
  | memory t => rw [ids, Std.TreeMap.mem_keys, ← h id, Std.TreeMap.isSome_getElem?_iff_mem]
  | file r =>
    have hplace := RecordFile.Holds.places h id
    rw [ids, Std.TreeMap.mem_keys, ← Std.TreeMap.isSome_getElem?_iff_mem]
    generalize r.places[id]? = place, records id = record at hplace
    cases hplace <;> simp

theorem pairwise_ids (m : RecordMap) : m.ids.Pairwise (· < ·) := by
  cases m with
  | memory t => exact Std.TreeMap.ordered_keys.imp Nat.compare_eq_lt.mp
  | file r => exact Std.TreeMap.ordered_keys.imp Nat.compare_eq_lt.mp

/-! ## Where the file of a map is -/

/-- The steps to the file of a map, if it has one. -/
def place? : RecordMap → Option (List String)
  | .memory _ => none
  | .file r => some r.path.steps

/-- The path of the file of a map leads to it. -/
def Owns (m : RecordMap) (d : Disk) : Prop :=
  match m with
  | .memory _ => True
  | .file r => d.node? r.path.steps = some (.file r.file)

/-- Work in another place leaves the file of a map alone. -/
theorem Owns.apart {place : Option (List String)} (h : m.Owns d) (ha : Disk.Apart place d d')
    (hne : m.place? = none ∨ m.place? ≠ place) : m.Owns d' ∧ m.SameFile d d' := by
  cases m with
  | memory t => exact ⟨trivial, trivial⟩
  | file r =>
    have hplace : place ≠ some r.path.steps := by
      rcases hne with hne | hne
      · exact absurd hne (by simp [place?])
      · exact Ne.symm hne
    exact ⟨ha.node? hplace h, ha.content hplace h⟩

theorem apart_create {path : Option Path} (hd : d.WellFormed) (h : create path d = (.ok m, d')) :
    Disk.Apart (path.map (·.steps)) d d' ∧ m.place? = path.map (·.steps) ∧ m.Owns d' := by
  cases path with
  | none =>
    simp only [create, Prod.mk.injEq, Except.ok.injEq] at h
    obtain ⟨rfl, rfl⟩ := h
    exact ⟨.refl hd, rfl, trivial⟩
  | some path =>
    obtain ⟨r, rfl, hr⟩ := create_some_eq_ok h
    obtain ⟨hapart, rfl, hnode⟩ := RecordFile.apart_create hd hr
    exact ⟨hapart, rfl, hnode⟩

theorem apart_create_error {path : Option Path} {e : Error} (hd : d.WellFormed)
    (h : create path d = (.error e, d')) : Disk.Apart (path.map (·.steps)) d d' := by
  cases path with
  | none => exact absurd (Prod.mk.inj h).1 (by simp)
  | some path =>
    unfold create at h
    dsimp only at h
    split at h
    · exact absurd (Prod.mk.inj h).1 (by simp)
    · rename_i e' made hr
      obtain ⟨-, rfl⟩ := Prod.mk.inj h
      exact RecordFile.apart_create_error hd hr

theorem apart_put {result : Except Error Unit} (hd : d.WellFormed) (ho : m.Owns d)
    (h : m.put d id bytes = (result, m', d')) :
    Disk.Apart m.place? d d' ∧ m'.place? = m.place? ∧ m'.Owns d' := by
  cases m with
  | memory t =>
    simp only [RecordMap.put, Prod.mk.injEq] at h
    obtain ⟨-, rfl, rfl⟩ := h
    exact ⟨.refl hd, rfl, trivial⟩
  | file r =>
    cases hr : r.put d id bytes with
    | mk result after =>
      obtain ⟨r', made⟩ := after
      simp only [RecordMap.put, hr, Prod.mk.injEq] at h
      obtain ⟨-, rfl, rfl⟩ := h
      obtain ⟨hapart, hpath, hfile, hnode⟩ := RecordFile.apart_put hd ho hr
      refine ⟨hapart, by rw [place?, hpath]; rfl, ?_⟩
      rw [Owns, hpath, hfile]
      exact hnode

theorem apart_close (hd : d.WellFormed) : Disk.Apart m.place? d (m.close d).2.2 := by
  cases m with
  | memory t => exact .refl hd
  | file r => exact RecordFile.apart_close hd

theorem apart_discard (hd : d.WellFormed) : Disk.Apart m.place? d (m.discard d) := by
  cases m with
  | memory t => exact .refl hd
  | file r => exact RecordFile.apart_close hd

end RecordMap

end TimeSeries
