import Mathlib
import TimeSeries.Proofs.RecordMap

/-!
# Maps of records at work

Whatever is put and asked, a map of records gives the answers of a finite map from series to the
bytes that were put last, and so a map in a file and one in memory cannot be told from each other.
They go different ways about it. The file only ever grows, and the map finds in it what has not
been replaced; the table in memory counts the bytes as they come and go.

Others may work on the disk between the calls, as long as they leave the file of the map alone.
-/

namespace TimeSeries

/-! ## Calls and answers -/

/-- What is asked of a map. -/
inductive RecordCall where
  | put (id : SeriesId) (bytes : Bytes)
  | get (id : SeriesId)
  | ids
  | size
  | byteSize

/-- What is answered. -/
inductive RecordAnswer where
  | done
  | record (found : Option Bytes)
  | ids (ids : List SeriesId)
  | number (n : Nat)
  deriving DecidableEq, Repr

/-- A call, or work of others on the disk. -/
inductive RecordStep where
  | call (c : RecordCall)
  | others (work : Disk → Disk)

namespace RecordMap

/-- The answer to a call, and the map and the disk after it. -/
def call (m : RecordMap) (disk : Disk) : RecordCall → Except Error RecordAnswer × RecordMap × Disk
  | .put id bytes =>
    let (result, m, disk) := m.put disk id bytes
    (result.map fun _ => .done, m, disk)
  | .get id => ((m.get disk id).map .record, m, disk)
  | .ids => (.ok (.ids m.ids), m, disk)
  | .size => (.ok (.number m.size), m, disk)
  | .byteSize => (.ok (.number m.byteSize), m, disk)

/-- The answers to the calls among some steps. -/
def answers (m : RecordMap) (disk : Disk) : List RecordStep → List (Except Error RecordAnswer)
  | [] => []
  | .call c :: steps =>
    let (answer, m, disk) := m.call disk c
    answer :: m.answers disk steps
  | .others work :: steps => m.answers (work disk) steps

end RecordMap

/-! ## Finite maps -/

/-- A finite map from series to bytes. -/
abbrev FiniteRecords := Finmap fun _ : SeriesId => Bytes

namespace FiniteRecords

/-- The number of bytes of a series. -/
def lengthAt (g : FiniteRecords) (id : SeriesId) : Nat := (g.lookup id).elim 0 List.length

/-- The number of bytes in all. -/
def total (g : FiniteRecords) : Nat := ∑ id ∈ g.keys, g.lengthAt id

/-- The answer to a call, and the finite map after it. -/
def call (g : FiniteRecords) : RecordCall → RecordAnswer × FiniteRecords
  | .put id bytes => (.done, g.insert id bytes)
  | .get id => (.record (g.lookup id), g)
  | .ids => (.ids g.keys.sort, g)
  | .size => (.number g.keys.card, g)
  | .byteSize => (.number g.total, g)

/-- The answers to the calls among some steps. Work on a disk is nothing to a finite map. -/
def answers (g : FiniteRecords) : List RecordStep → List RecordAnswer
  | [] => []
  | .call c :: steps =>
    let (answer, g) := g.call c
    answer :: g.answers steps
  | .others _ :: steps => g.answers steps

variable {g : FiniteRecords} {id : SeriesId} {bytes : Bytes}

theorem lookup_insert (other : SeriesId) :
    (g.insert id bytes).lookup other = Function.update (g.lookup ·) id (some bytes) other := by
  by_cases ho : other = id
  · rw [ho, Function.update_self, Finmap.lookup_insert]
  · rw [Function.update_of_ne ho, Finmap.lookup_insert_of_ne g ho]

theorem keys_insert : (g.insert id bytes).keys = insert id g.keys := by
  ext other
  rw [Finset.mem_insert, Finmap.mem_keys, Finmap.mem_keys, Finmap.mem_insert]

theorem mem_keys : id ∈ g.keys ↔ ∃ bytes, g.lookup id = some bytes := by
  rw [Finmap.mem_keys, Finmap.mem_iff]

/-- The bytes of one series and those of the others. -/
theorem total_eq (g : FiniteRecords) (id : SeriesId) :
    g.total = g.lengthAt id + ∑ other ∈ g.keys.erase id, g.lengthAt other := by
  by_cases hid : id ∈ g.keys
  · exact (Finset.add_sum_erase g.keys g.lengthAt hid).symm
  · have hnone : g.lookup id = none := Finmap.lookup_eq_none.mpr (mt Finmap.mem_keys.mpr hid)
    rw [total, lengthAt, hnone, Finset.erase_eq_of_notMem hid]
    simp

/-- New bytes of a series count in the place of its old ones. -/
theorem total_insert (g : FiniteRecords) (id : SeriesId) (bytes : Bytes) :
    FiniteRecords.total (g.insert id bytes) = g.total - g.lengthAt id + bytes.length := by
  have hothers : ∑ other ∈ g.keys.erase id, lengthAt (g.insert id bytes) other =
      ∑ other ∈ g.keys.erase id, g.lengthAt other := by
    refine Finset.sum_congr rfl fun other ho => ?_
    rw [lengthAt, Finmap.lookup_insert_of_ne g (Finset.ne_of_mem_erase ho), lengthAt]
  have hnew : lengthAt (g.insert id bytes) id = bytes.length := by
    rw [lengthAt, Finmap.lookup_insert]
    rfl
  have hbefore := total_eq g id
  have hafter := total_eq (g.insert id bytes) id
  rw [keys_insert, Finset.erase_insert_eq_erase, hothers, hnew] at hafter
  omega

end FiniteRecords

/-! ## One map stands for the other -/

namespace RecordMap

variable {m m' : RecordMap} {d d' : Disk} {g : FiniteRecords}

/-- A map holds the records of a finite map and knows how many bytes they have. -/
structure Mirrors (m : RecordMap) (d : Disk) (g : FiniteRecords) : Prop where
  holds : m.Holds d (g.lookup ·)
  bytes : m.byteSize = g.total

/-- Work that leaves the file of a map alone, if it has one. -/
def Untouched (m : RecordMap) (work : Disk → Disk) : Prop := ∀ d, m.SameFile d (work d)

theorem Holds.ids_eq (h : m.Holds d (g.lookup ·)) : m.ids = g.keys.sort := by
  have hsorted := m.pairwise_ids
  have hkeys : m.ids.toFinset = g.keys := by
    ext id
    rw [List.mem_toFinset, h.mem_ids, FiniteRecords.mem_keys]
  rw [← hkeys]
  exact ((List.toFinset_sort (· ≤ ·) (hsorted.imp Nat.ne_of_lt)).mpr
    (hsorted.imp Nat.le_of_lt)).symm

theorem length_ids (m : RecordMap) : m.ids.length = m.size := by
  cases m with
  | memory t => exact Std.TreeMap.length_keys
  | file r => exact Std.TreeMap.length_keys

theorem Holds.size_eq (h : m.Holds d (g.lookup ·)) : m.size = g.keys.card := by
  rw [← length_ids, h.ids_eq, Finset.length_sort]

/-- The places in a file have the lengths of the records. -/
theorem byteSize_file {r : RecordFile} (h : r.Holds d (g.lookup ·)) :
    (RecordMap.file r).byteSize = g.total := by
  have hlength : ∀ x ∈ r.places.toList, x.2.length = g.lengthAt x.1 := by
    intro x hx
    have hplace := h.places x.1
    rw [Std.TreeMap.mem_toList_iff_getElem?_eq_some.mp hx] at hplace
    rw [FiniteRecords.lengthAt]
    generalize g.lookup x.1 = record at hplace
    cases hplace with
    | some hmarks =>
      obtain ⟨before, after, -, hplace⟩ := hmarks
      rw [hplace]
      rfl
  have hkeys : r.places.toList.map Prod.fst = g.keys.sort :=
    Std.TreeMap.map_fst_toList_eq_keys.trans (Holds.ids_eq (m := .file r) h)
  calc (RecordMap.file r).byteSize
      = (r.places.toList.map (·.2.length)).sum := by
        rw [byteSize, Std.TreeMap.foldl_eq_foldl_toList, List.sum_eq_foldl, List.foldl_map]
    _ = ((r.places.toList.map Prod.fst).map g.lengthAt).sum := by
        rw [List.map_map, List.map_congr_left hlength]
        rfl
    _ = g.total := by
        rw [hkeys, FiniteRecords.total, ← List.sum_toFinset _ (g.keys.sort_nodup (· ≤ ·)),
          Finset.sort_toFinset]

/-- A new map mirrors the empty finite map. -/
theorem mirrors_create {path : Option Path} (h : create path d = (.ok m, d')) :
    m.Mirrors d' ∅ := by
  have hholds : m.Holds d' ((∅ : FiniteRecords).lookup ·) := holds_create h
  cases path with
  | none =>
    simp only [create, Prod.mk.injEq, Except.ok.injEq] at h
    obtain ⟨rfl, rfl⟩ := h
    exact ⟨hholds, rfl⟩
  | some path =>
    obtain ⟨r, rfl, -⟩ := create_some_eq_ok h
    exact ⟨hholds, byteSize_file hholds⟩

theorem Mirrors.congr (h : m.Mirrors d g) (hs : m.SameFile d d') : m.Mirrors d' g :=
  ⟨h.holds.congr hs, h.bytes⟩

theorem Mirrors.put (h : m.Mirrors d g) {id : SeriesId} {bytes : Bytes}
    (hput : m.put d id bytes = (.ok (), m', d')) : m'.Mirrors d' (g.insert id bytes) := by
  have hlookup : (Finmap.lookup · (g.insert id bytes)) =
      Function.update (g.lookup ·) id (some bytes) := funext FiniteRecords.lookup_insert
  have hholds : m'.Holds d' (Finmap.lookup · (g.insert id bytes)) := by
    rw [hlookup]
    exact h.holds.put hput
  refine ⟨hholds, ?_⟩
  cases m with
  | memory t =>
    have hold : t.records[id]? = g.lookup id := h.holds id
    have htotal : t.total = g.total := h.bytes
    simp only [RecordMap.put, Prod.mk.injEq, true_and] at hput
    obtain ⟨rfl, -⟩ := hput
    rw [byteSize, RecordTable.put, FiniteRecords.total_insert, FiniteRecords.lengthAt, hold, htotal]
  | file r =>
    simp only [RecordMap.put, Prod.mk.injEq] at hput
    obtain ⟨-, rfl, -⟩ := hput
    exact byteSize_file hholds

/-- A record that is not too long is put, and the file of the map stays the same one. -/
theorem Holds.exists_put {records : SeriesId → Option Bytes} (h : m.Holds d records)
    {bytes : Bytes} (hlength : bytes.length < RecordFile.lengthLimit) (id : SeriesId) :
    ∃ m' d', m.put d id bytes = (.ok (), m', d') ∧
      ∀ work, m.Untouched work → m'.Untouched work := by
  cases m with
  | memory t => exact ⟨_, _, rfl, fun work hwork => hwork⟩
  | file r =>
    have hopened := RecordFile.Holds.opened h
    have hput : ∃ r' d', r.put d id bytes = (.ok (), r', d') ∧ r'.file = r.file := by
      rw [RecordFile.put, hopened, if_neg Bool.false_ne_true, if_neg (Nat.not_le.mpr hlength)]
      exact ⟨_, _, rfl, rfl⟩
    obtain ⟨r', d', hput, hfile⟩ := hput
    refine ⟨.file r', d', by rw [RecordMap.put, hput], fun work hwork made => ?_⟩
    rw [SameFile, hfile]
    exact hwork made

/-- **One call.** A map that mirrors a finite map answers as it does, and goes on mirroring it. -/
theorem Mirrors.call (h : m.Mirrors d g) {c : RecordCall}
    (hlength : ∀ id bytes, c = .put id bytes → bytes.length < RecordFile.lengthLimit) :
    ∃ m' d', m.call d c = (.ok (g.call c).1, m', d') ∧ m'.Mirrors d' (g.call c).2 ∧
      ∀ work, m.Untouched work → m'.Untouched work := by
  cases c with
  | put id bytes =>
    obtain ⟨m', d', hput, hwork⟩ := h.holds.exists_put (hlength id bytes rfl) id
    refine ⟨m', d', ?_, h.put hput, hwork⟩
    rw [RecordMap.call, hput]
    rfl
  | get id =>
    refine ⟨m, d, ?_, h, fun work hwork => hwork⟩
    rw [RecordMap.call, h.holds.get id]
    rfl
  | ids =>
    refine ⟨m, d, ?_, h, fun work hwork => hwork⟩
    rw [RecordMap.call, h.holds.ids_eq, FiniteRecords.call]
  | size =>
    refine ⟨m, d, ?_, h, fun work hwork => hwork⟩
    rw [RecordMap.call, h.holds.size_eq, FiniteRecords.call]
  | byteSize =>
    refine ⟨m, d, ?_, h, fun work hwork => hwork⟩
    rw [RecordMap.call, h.bytes, FiniteRecords.call]

/-- All calls, with the work of others between them. -/
theorem Mirrors.answers (h : m.Mirrors d g) {steps : List RecordStep}
    (hlength : ∀ id bytes, .call (.put id bytes) ∈ steps → bytes.length < RecordFile.lengthLimit)
    (hwork : ∀ work, .others work ∈ steps → m.Untouched work) :
    m.answers d steps = (g.answers steps).map .ok := by
  induction steps generalizing m d g with
  | nil => rfl
  | cons step steps ih =>
    have hlater : ∀ id bytes, .call (.put id bytes) ∈ steps →
        bytes.length < RecordFile.lengthLimit :=
      fun id bytes hmem => hlength id bytes (List.mem_cons_of_mem step hmem)
    cases step with
    | call c =>
      have hnow : ∀ id bytes, c = .put id bytes → bytes.length < RecordFile.lengthLimit := by
        rintro id bytes rfl
        exact hlength id bytes List.mem_cons_self
      obtain ⟨m', d', hcall, hmirrors, hsame⟩ := h.call hnow
      have hrest := ih hmirrors hlater fun work hmem =>
        hsame work (hwork work (List.mem_cons_of_mem _ hmem))
      simp only [RecordMap.answers, FiniteRecords.answers, hcall, hrest, List.map_cons]
    | others work =>
      have hcongr := h.congr (hwork work List.mem_cons_self d)
      have hrest := ih hcongr hlater fun work hmem => hwork work (List.mem_cons_of_mem _ hmem)
      simp only [RecordMap.answers, FiniteRecords.answers, hrest]

/-- **Maps in files and in memory are finite maps.** On a file that nobody else touches, whatever
is put and asked is answered as by a finite map that remembers for each series what was put last,
and a map in memory gives the same answers. -/
theorem answers_create {path : Path} {made : Disk} (hcreate : create (some path) d = (.ok m, made))
    {steps : List RecordStep}
    (hlength : ∀ id bytes, .call (.put id bytes) ∈ steps → bytes.length < RecordFile.lengthLimit)
    (hwork : ∀ work, .others work ∈ steps → m.Untouched work) (elsewhere : Disk) :
    m.answers made steps = (FiniteRecords.answers ∅ steps).map .ok ∧
      (RecordMap.memory ∅).answers elsewhere steps = m.answers made steps := by
  have hfile : m.answers made steps = (FiniteRecords.answers ∅ steps).map .ok :=
    (mirrors_create hcreate).answers hlength hwork
  have hmade : create none elsewhere = (.ok (.memory ∅), elsewhere) := rfl
  have hempty := mirrors_create hmade
  refine ⟨hfile, ?_⟩
  rw [hfile]
  exact hempty.answers hlength fun work hmem disk => trivial

/-- A record is replaced by a shorter one and another by an empty one, while a file is written that
is not that of the map. -/
theorem answers_create_replaced :
    let steps : List RecordStep := [.call (.put 5 [1, 2, 3]), .call (.put 2 [7]),
      .call (.put 5 [4]), .others (·.setContent 1 [0]), .call .byteSize, .call (.put 2 []),
      .call (.get 5), .call (.get 2), .call (.get 3), .call .ids, .call .size, .call .byteSize]
    let expected : List (Except Error RecordAnswer) := [.ok .done, .ok .done, .ok .done,
      .ok (.number 2), .ok .done, .ok (.record (some [4])), .ok (.record (some [])),
      .ok (.record none), .ok (.ids [2, 5]), .ok (.number 2), .ok (.number 1)]
    ∃ m made, create (some ⟨"d.series", ["d.series"]⟩) Disk.empty = (.ok m, made) ∧
      m.answers made steps = expected ∧ (FiniteRecords.answers ∅ steps).map .ok = expected := by
  intro steps expected
  obtain ⟨made, hcreate⟩ : ∃ made, create (some ⟨"d.series", ["d.series"]⟩) Disk.empty =
      (.ok (.file ⟨⟨"d.series", ["d.series"]⟩, 0, ∅, 0, false⟩), made) := ⟨_, rfl⟩
  have hlength : ∀ id bytes, .call (.put id bytes) ∈ steps →
      bytes.length < RecordFile.lengthLimit := by
    intro id bytes hmem
    simp only [steps, List.mem_cons, RecordStep.call.injEq, RecordCall.put.injEq, reduceCtorEq,
      List.not_mem_nil, or_false, false_or] at hmem
    rcases hmem with ⟨-, rfl⟩ | ⟨-, rfl⟩ | ⟨-, rfl⟩ | ⟨-, rfl⟩ <;> decide
  have hwork : ∀ work, .others work ∈ steps →
      Untouched (.file ⟨⟨"d.series", ["d.series"]⟩, 0, ∅, 0, false⟩) work := by
    intro work hmem disk
    simp only [steps, List.mem_cons, RecordStep.others.injEq, reduceCtorEq, List.not_mem_nil,
      or_false, false_or] at hmem
    rw [hmem]
    exact Disk.content_setContent_ne (by decide)
  have hmemory : (RecordMap.memory ∅).answers Disk.empty steps = expected := rfl
  obtain ⟨hfile, hsame⟩ := answers_create hcreate hlength hwork Disk.empty
  rw [hmemory] at hsame
  exact ⟨_, made, hcreate, hsame.symm, by rw [← hfile, hsame]⟩

end RecordMap

end TimeSeries
