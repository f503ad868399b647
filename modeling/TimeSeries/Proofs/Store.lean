import Mathlib
import TimeSeries.Store.Basic
import TimeSeries.Proofs.Path
import TimeSeries.Proofs.RecordMap
import TimeSeries.Proofs.Series.RoundTrip
import TimeSeries.Proofs.TreeMap

/-!
# What stores hold

A store holds a list of points for each id, which is empty for all but finitely many. `Holds` says
so of a growing store, of a frozen one and of either, and reading a store gives back just these
lists. A point that is taken goes to the end of its list, a point that is refused changes nothing,
and a frozen copy holds what was copied: this is where the round trip of the code and the one of
the codec are used, and nothing above a store has to know of either again.
-/

namespace TimeSeries

variable {d d' : Disk} {id : SeriesId} {p : Point} {f : SeriesId → List Point}

/-- The points of a series as a store gives them: a series without points is none. -/
def present (ps : List Point) : Option (List Point) := if ps = [] then none else some ps

/-! ## Growing stores -/

namespace GrowingStore

/-- A growing store that takes points, with the points that it holds. -/
structure Holds (s : GrowingStore) (f : SeriesId → List Point) : Prop where
  opened : s.closed = false
  series : ∀ id, (s.series.getD id Series.empty).Encodes (f id)

variable {s s' : GrowingStore}

theorem holds_empty : empty.Holds fun _ => [] where
  opened := rfl
  series := fun id => by
    simp only [empty, Std.TreeMap.getD_emptyc]
    exact Series.encodes_empty

/-- A point that is taken goes to the end of its series. -/
theorem Holds.add (h : s.Holds f) (hadd : s.add id p = (.ok (), s')) :
    s'.Holds (Function.update f id (f id ++ [p])) := by
  unfold GrowingStore.add at hadd
  rw [h.opened, if_neg Bool.false_ne_true] at hadd
  cases happend : (s.series.getD id Series.empty).append p with
  | mk result series =>
    simp only [happend, Prod.mk.injEq] at hadd
    obtain ⟨rfl, rfl⟩ := hadd
    refine ⟨rfl, fun other => ?_⟩
    rw [TreeMap.getD_insert]
    split
    · rename_i ho
      rw [ho, Function.update_self]
      exact (h.series id).append happend
    · rename_i ho
      rw [Function.update_of_ne ho]
      exact h.series other

/-- A point that is refused changes nothing of what is held. -/
theorem Holds.add_error {e : Error} (h : s.Holds f) (hadd : s.add id p = (.error e, s')) :
    s'.Holds f := by
  unfold GrowingStore.add at hadd
  rw [h.opened, if_neg Bool.false_ne_true] at hadd
  cases happend : (s.series.getD id Series.empty).append p with
  | mk result series =>
    simp only [happend, Prod.mk.injEq] at hadd
    obtain ⟨rfl, rfl⟩ := hadd
    refine ⟨rfl, fun other => ?_⟩
    rw [TreeMap.getD_insert]
    split
    · rename_i ho
      rw [ho, (h.series id).append_error happend]
      exact h.series id
    · exact h.series other

theorem Holds.of_some {series : Series} (h : s.Holds f) (hs : s.series[id]? = some series) :
    series.Encodes (f id) := by
  have hseries := h.series id
  rwa [Std.TreeMap.getD_eq_getD_getElem?, hs, Option.getD_some] at hseries

theorem Holds.of_none (h : s.Holds f) (hs : s.series[id]? = none) : f id = [] := by
  have hseries := h.series id
  rw [Std.TreeMap.getD_eq_getD_getElem?, hs, Option.getD_none] at hseries
  exact List.eq_nil_of_length_eq_zero hseries.count_eq.symm

theorem Holds.get (h : s.Holds f) (id : SeriesId) : s.get id = .ok (present (f id)) := by
  rw [GrowingStore.get]
  cases hs : s.series[id]? with
  | none => simp [present, h.of_none hs]
  | some series =>
    have hseries := h.of_some hs
    dsimp only
    by_cases hnil : f id = []
    · rw [if_pos (by rw [hseries.count_eq, hnil]; rfl), present, if_pos hnil]
    · have hcount : series.count ≠ 0 := by
        rw [hseries.count_eq]
        exact fun hz => hnil (List.eq_nil_of_length_eq_zero hz)
      rw [if_neg hcount, present, if_neg hnil, hseries.points_read]
      rfl

end GrowingStore

/-! ## Frozen stores -/

variable [BlockCodec]

/-- A record from which the points of a series can be read, or no record where there are none. -/
def Compression.Stores (c : Compression) : Option Bytes → List Point → Prop
  | .none, ps => ps = []
  | .some stored, ps => ps ≠ [] ∧ ∃ bytes reader, c.decode stored = .ok bytes ∧
      SeriesReader.ofBytes bytes = .ok reader ∧ reader.points = .ok ps

namespace FrozenStore

/-- A frozen store with the points that it holds. -/
def Holds (s : FrozenStore) (d : Disk) (f : SeriesId → List Point) : Prop :=
  ∃ records, s.records.Holds d records ∧ ∀ id, s.compression.Stores (records id) (f id)

variable {s : FrozenStore}

theorem Holds.congr (h : s.Holds d f) (hs : s.records.SameFile d d') : s.Holds d' f := by
  obtain ⟨records, hr, hstores⟩ := h
  exact ⟨records, hr.congr hs, hstores⟩

theorem Holds.get (h : s.Holds d f) (id : SeriesId) : s.get d id = .ok (present (f id)) := by
  obtain ⟨records, hr, hstores⟩ := h
  have hid := hstores id
  rw [FrozenStore.get, hr.get id, ok_bind]
  cases hrec : records id with
  | none =>
    rw [hrec] at hid
    simp only [Compression.Stores] at hid
    simp [present, hid, pure, Except.pure]
  | some stored =>
    rw [hrec] at hid
    obtain ⟨hne, bytes, reader, hdecode, hreader, hpoints⟩ := hid
    dsimp only
    rw [hdecode, ok_bind, hreader, ok_bind, hpoints, ok_bind, present, if_neg hne]
    rfl

end FrozenStore

/-! ## Freezing -/

/-- The record that is made of a series: its encoded bytes, or none where there are no points. -/
def Compression.RecordOf (c : Compression) (series : Series) : Option Bytes → Prop
  | .none => series.count = 0
  | .some stored => series.count ≠ 0 ∧ series.toBytes >>= c.encode = .ok stored

/-- The points of a series can be read from its record. -/
theorem Compression.RecordOf.stores [LawfulBlockCodec] {c : Compression} {series : Series}
    {ps : List Point} {record : Option Bytes} (h : c.RecordOf series record)
    (hseries : series.Encodes ps) : c.Stores record ps := by
  cases record with
  | none => exact List.eq_nil_of_length_eq_zero (hseries.count_eq.symm.trans h)
  | some stored =>
    obtain ⟨hcount, hstored⟩ := h
    obtain ⟨bytes, hbytes, hencode⟩ := bind_eq_ok.mp hstored
    obtain ⟨reader, hreader, hpoints⟩ := hseries.points_ofBytes hbytes
    have hne : ps ≠ [] := by
      intro hnil
      rw [hseries.count_eq, hnil] at hcount
      exact hcount rfl
    exact ⟨hne, bytes, reader, Compression.decode_of_encode hencode, hreader, hpoints⟩

namespace GrowingStore

/-- Every series is made into its record, and no other id gets one. -/
theorem holds_putSeries {c : Compression} {list : List (SeriesId × Series)}
    (hdistinct : (list.map Prod.fst).Nodup)
    {m m' : RecordMap} {records : SeriesId → Option Bytes} (hm : m.Holds d records)
    (hnone : ∀ x ∈ list, records x.1 = none) (hput : putSeries c list m d = (.ok (), m', d')) :
    ∃ records' : SeriesId → Option Bytes, m'.Holds d' records' ∧
      (∀ x ∈ list, c.RecordOf x.2 (records' x.1)) ∧
      ∀ id, id ∉ list.map Prod.fst → records' id = records id := by
  induction list generalizing m d records with
  | nil =>
    simp only [putSeries, Prod.mk.injEq, true_and] at hput
    obtain ⟨rfl, rfl⟩ := hput
    exact ⟨records, hm, by simp, fun _ _ => rfl⟩
  | cons x list ih =>
    obtain ⟨id, series⟩ := x
    obtain ⟨hid, hnone⟩ := List.forall_mem_cons.mp hnone
    obtain ⟨hnew, hdistinct⟩ := List.nodup_cons.mp hdistinct
    rw [putSeries] at hput
    split at hput
    · -- no points, no record
      rename_i hzero
      obtain ⟨records', hm', hmade, hsame⟩ := ih hdistinct hm hnone hput
      refine ⟨records', hm', List.forall_mem_cons.mpr ⟨?_, hmade⟩, fun other ho => ?_⟩
      · rw [hsame id hnew, hid]
        exact hzero
      · exact hsame other fun hmem => ho (List.mem_cons_of_mem _ hmem)
    · rename_i hcount
      split at hput
      · exact absurd (Prod.mk.inj hput).1 (by simp)
      · rename_i stored hstored
        split at hput
        · exact absurd (Prod.mk.inj hput).1 (by simp)
        · rename_i made d₁ hmade
          -- the ids that are still to come are other ones, which have no record yet
          have hnone₁ : ∀ x ∈ list, Function.update records id (some stored) x.1 = none := by
            intro x hx
            have hne : x.1 ≠ id := fun heq => hnew (List.mem_map.mpr ⟨x, hx, heq⟩)
            rw [Function.update_of_ne hne, hnone x hx]
          obtain ⟨records', hm', hrest, hsame⟩ := ih hdistinct (hm.put hmade) hnone₁ hput
          refine ⟨records', hm', List.forall_mem_cons.mpr ⟨?_, hrest⟩, fun other ho => ?_⟩
          · rw [hsame id hnew, Function.update_self]
            exact ⟨hcount, hstored⟩
          · obtain ⟨hne, ho⟩ := not_or.mp (mt List.mem_cons.mpr ho)
            rw [hsame other ho, Function.update_of_ne hne]

/-- A frozen copy has the records of the series of a store, and their number of points. -/
theorem records_freeze {s : GrowingStore} {dataset : String} {form : FrozenForm}
    {frozen : FrozenStore} (hfreeze : s.freeze d dataset form = (.ok frozen, d')) :
    frozen.compression = form.compression ∧ frozen.points = s.stats.points ∧
      ∃ records, frozen.records.Holds d' records ∧
        ∀ id, form.compression.RecordOf (s.series.getD id Series.empty) (records id) := by
  unfold GrowingStore.freeze at hfreeze
  split at hfreeze
  · exact absurd (Prod.mk.inj hfreeze).1 (by simp)
  · rename_i m made hmade
    split at hfreeze
    · exact absurd (Prod.mk.inj hfreeze).1 (by simp)
    · rename_i m' d₁ hput
      simp only [Prod.mk.injEq, Except.ok.injEq] at hfreeze
      obtain ⟨rfl, rfl⟩ := hfreeze
      obtain ⟨records, hm', hrecords, hsame⟩ := holds_putSeries
        (TreeMap.nodup_keys s.series) (RecordMap.holds_create hmade) (fun _ _ => rfl) hput
      refine ⟨rfl, rfl, records, hm', fun id => ?_⟩
      -- the list that is copied is the whole of the store
      rw [Std.TreeMap.getD_eq_getD_getElem?]
      cases hs : s.series[id]? with
      | some series =>
        exact hrecords (id, series) (Std.TreeMap.mem_toList_iff_getElem?_eq_some.mpr hs)
      | none =>
        have hid : id ∉ s.series.toList.map Prod.fst := by
          intro hmem
          obtain ⟨x, hx, rfl⟩ := List.mem_map.mp hmem
          rw [Std.TreeMap.mem_toList_iff_getElem?_eq_some.mp hx] at hs
          exact absurd hs (by simp)
        rw [hsame id hid]
        rfl

/-- **A frozen copy holds what was copied.** -/
theorem Holds.freeze [LawfulBlockCodec] {s : GrowingStore} (h : s.Holds f) {dataset : String}
    {form : FrozenForm} {frozen : FrozenStore}
    (hfreeze : s.freeze d dataset form = (.ok frozen, d')) : frozen.Holds d' f := by
  obtain ⟨hcompression, -, records, hm, hrecords⟩ := records_freeze hfreeze
  refine ⟨records, hm, fun id => ?_⟩
  rw [hcompression]
  exact (hrecords id).stores (h.series id)

end GrowingStore

/-! ## Files of frozen stores -/

namespace GrowingStore

theorem apart_putSeries {c : Compression} {list : List (SeriesId × Series)} {m m' : RecordMap}
    {result : Except Error Unit} (hd : d.WellFormed) (ho : m.Owns d)
    (h : putSeries c list m d = (result, m', d')) :
    Disk.Apart m.place? d d' ∧ m'.place? = m.place? ∧ m'.Owns d' := by
  have stay : Disk.Apart m.place? d d ∧ m.place? = m.place? ∧ m.Owns d := ⟨.refl hd, rfl, ho⟩
  induction list generalizing m d with
  | nil =>
    simp only [putSeries, Prod.mk.injEq] at h
    obtain ⟨-, rfl, rfl⟩ := h
    exact stay
  | cons x list ih =>
    obtain ⟨id, series⟩ := x
    rw [putSeries] at h
    split at h
    · exact ih hd ho h stay
    · split at h
      · simp only [Prod.mk.injEq] at h
        obtain ⟨-, rfl, rfl⟩ := h
        exact stay
      · split at h
        · rename_i hput
          simp only [Prod.mk.injEq] at h
          obtain ⟨-, rfl, rfl⟩ := h
          exact RecordMap.apart_put hd ho hput
        · rename_i hput
          obtain ⟨hapart, hplace, howns⟩ := RecordMap.apart_put hd ho hput
          obtain ⟨hapart', hplace', howns'⟩ :=
            ih hapart.wellFormed howns h ⟨.refl hapart.wellFormed, rfl, howns⟩
          rw [hplace] at hapart' hplace'
          exact ⟨hapart.trans hapart', hplace', howns'⟩

/-- **Freezing works on the file of the frozen store only**, and leaves that file to it. -/
theorem apart_freeze {s : GrowingStore} {dataset : String} {form : FrozenForm}
    {frozen : FrozenStore} (hd : d.WellFormed)
    (h : s.freeze d dataset form = (.ok frozen, d')) :
    Disk.Apart (form.place? dataset) d d' ∧ frozen.records.place? = form.place? dataset ∧
      frozen.records.Owns d' := by
  unfold GrowingStore.freeze at h
  split at h
  · exact absurd (Prod.mk.inj h).1 (by simp)
  · rename_i m made hmade
    obtain ⟨hapart, hplace, howns⟩ := RecordMap.apart_create hd hmade
    split at h
    · exact absurd (Prod.mk.inj h).1 (by simp)
    · rename_i m' d₁ hput
      simp only [Prod.mk.injEq, Except.ok.injEq] at h
      obtain ⟨rfl, rfl⟩ := h
      obtain ⟨hapart', hplace', howns'⟩ := apart_putSeries hapart.wellFormed howns hput
      rw [hplace] at hapart' hplace'
      exact ⟨hapart.trans hapart', hplace', howns'⟩

theorem apart_freeze_error {s : GrowingStore} {dataset : String} {form : FrozenForm} {e : Error}
    (hd : d.WellFormed) (h : s.freeze d dataset form = (.error e, d')) :
    Disk.Apart (form.place? dataset) d d' := by
  unfold GrowingStore.freeze at h
  split at h
  · rename_i hmade
    obtain ⟨-, rfl⟩ := Prod.mk.inj h
    exact RecordMap.apart_create_error hd hmade
  · rename_i m made hmade
    obtain ⟨hapart, hplace, howns⟩ := RecordMap.apart_create hd hmade
    split at h
    · rename_i m' d₁ hput
      obtain ⟨-, rfl⟩ := Prod.mk.inj h
      obtain ⟨hapart', hplace', howns'⟩ := apart_putSeries hapart.wellFormed howns hput
      have hdiscard := RecordMap.apart_discard (m := m') hapart'.wellFormed
      rw [hplace', hplace] at hdiscard
      rw [hplace] at hapart'
      exact (hapart.trans hapart').trans hdiscard
    · exact absurd (Prod.mk.inj h).1 (by simp)

end GrowingStore

/-! ## Either kind of store -/

namespace Store

variable {s : Store GrowingStore}

/-- A store of a chunk with the points that it holds. -/
def Holds (s : Store GrowingStore) (d : Disk) (f : SeriesId → List Point) : Prop :=
  match s with
  | .growing store => store.Holds f
  | .frozen store => store.Holds d f

/-- The content of the file of a store, if it has one, is the same on two disks. -/
def SameFile (s : Store GrowingStore) (d d' : Disk) : Prop :=
  match s with
  | .growing _ => True
  | .frozen store => store.records.SameFile d d'

theorem Holds.congr (h : s.Holds d f) (hs : s.SameFile d d') : s.Holds d' f := by
  cases s with
  | growing store => exact h
  | frozen store => exact FrozenStore.Holds.congr h hs

theorem Holds.get (h : s.Holds d f) (id : SeriesId) : s.get d id = .ok (present (f id)) := by
  cases s with
  | growing store => exact GrowingStore.Holds.get h id
  | frozen store => exact FrozenStore.Holds.get h id

end Store

end TimeSeries
