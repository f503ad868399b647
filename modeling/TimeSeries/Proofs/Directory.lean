import Mathlib
import TimeSeries.Proofs.Store

/-!
# What is in a directory

A map of records comes and goes with its file. Whether it leaves anything else behind is a question
about all paths, those that lead to a directory or to nothing included: `SameElsewhere place d d'`
says that no path but one leads anywhere else than before. This holds of all work on the file of a
map, as long as the directory for the file is there; then no directory is made either. A map that
is closed, and one that could not be filled, takes its file with it.
-/

namespace TimeSeries

namespace Disk

variable {d d' d'' : Disk} {steps place p above : List String} {name : String} {id : FileId}

/-! ## Paths elsewhere -/

/-- All paths but one lead where they led before. -/
def SameElsewhere (place : List String) (d d' : Disk) : Prop :=
  ∀ p, p ≠ place → d'.node? p = d.node? p

theorem SameElsewhere.refl : SameElsewhere place d d := fun _ _ => rfl

theorem SameElsewhere.trans (h : SameElsewhere place d d') (h' : SameElsewhere place d' d'') :
    SameElsewhere place d d'' := by
  intro p hp
  rw [h' p hp, h p hp]

theorem sameElsewhere_createFile (h : d.createFile steps = .ok (id, d')) :
    SameElsewhere steps d d' := by
  intro p hp
  unfold createFile at h
  split at h
  · exact absurd h (by simp)
  · simp only [Except.ok.injEq, Prod.mk.injEq] at h
    obtain ⟨-, rfl⟩ := h
    rfl
  · rename_i hnone
    split at h
    · simp only [Except.ok.injEq, Prod.mk.injEq] at h
      obtain ⟨-, rfl⟩ := h
      have hsteps : steps ≠ [] := by
        rintro rfl
        simp [node?] at hnone
      rw [node?_insert hsteps, if_neg hp]
      rfl
    · exact absurd h (by simp)

/-- A path to a file can be removed, and afterwards it leads nowhere. -/
theorem removeFile_of_file (h : d.node? steps = some (.file id)) :
    ∃ d', d.removeFile steps = .ok d' ∧ d'.node? steps = none ∧ SameElsewhere steps d d' := by
  have hsteps : steps ≠ [] := by
    rintro rfl
    simp [node?] at h
  have hnode (p : List String) : node? { d with nodes := d.nodes.erase steps } p =
      if p = steps then none else d.node? p := by
    unfold node?
    by_cases hp : p = []
    · rw [if_pos hp, hp, if_neg (Ne.symm hsteps), if_pos rfl]
    · rw [if_neg hp, if_neg hp, TreeMap.getElem?_erase]
  refine ⟨{ d with nodes := d.nodes.erase steps }, ?_, ?_, fun p hp => ?_⟩
  · rw [removeFile, find, h]
    rfl
  · rw [hnode, if_pos rfl]
  · rw [hnode, if_neg hp]

/-! ## Directories -/

/-- A path and all those above it lead to directories. -/
def HasDirectories (d : Disk) (steps : List String) : Prop :=
  ∀ above, above <+: steps → d.node? above = some .directory

theorem HasDirectories.self (h : d.HasDirectories steps) : d.node? steps = some .directory :=
  h steps List.prefix_rfl

/-- Work at the end of a longer path leaves the directories. -/
theorem HasDirectories.elsewhere (h : d.HasDirectories steps)
    (hd : SameElsewhere (steps ++ [name]) d d') : d'.HasDirectories steps := by
  intro above habove
  rw [hd above, h above habove]
  rintro rfl
  have hlength := habove.length_le
  rw [List.length_append, List.length_singleton] at hlength
  exact absurd hlength (Nat.not_succ_le_self _)

/-- Where the directories are, none are made. -/
theorem makeDirectoriesFrom_of_has {rest : List String}
    (h : ∀ more, more <+: rest → d.node? (above ++ more) = some .directory) :
    d.makeDirectoriesFrom above rest = .ok d := by
  induction rest generalizing above with
  | nil => rfl
  | cons step rest ih =>
    have hstep := h [step] (List.prefix_append [step] rest)
    rw [makeDirectoriesFrom, hstep]
    refine ih fun more hmore => ?_
    have hlonger := h (step :: more) (List.prefix_cons_inj step |>.mpr hmore)
    rwa [List.append_assoc, List.singleton_append]

theorem makeDirectories_of_has (h : d.HasDirectories steps) : d.makeDirectories steps = .ok d :=
  makeDirectoriesFrom_of_has h

/-- Directories that were made are there, and paths that are longer lead where they led before. -/
theorem makeDirectoriesFrom_spec {rest : List String} (habove : d.HasDirectories above)
    (h : d.makeDirectoriesFrom above rest = .ok d') :
    d'.HasDirectories (above ++ rest) ∧
      ∀ p, (above ++ rest).length < p.length → d'.node? p = d.node? p := by
  induction rest generalizing d above with
  | nil =>
    obtain rfl := Except.ok.inj h
    rw [List.append_nil]
    exact ⟨habove, fun _ _ => rfl⟩
  | cons step rest ih =>
    have hsplit : above ++ step :: rest = (above ++ [step]) ++ rest := by simp
    have hextend {d : Disk} (habove : d.HasDirectories above)
        (hstep : d.node? (above ++ [step]) = some .directory) :
        d.HasDirectories (above ++ [step]) := by
      intro p hp
      rcases List.prefix_concat_iff.mp hp with rfl | hp
      · exact hstep
      · exact habove p hp
    rw [makeDirectoriesFrom] at h
    rw [hsplit]
    split at h
    · rename_i hstep
      exact ih (hextend habove hstep) h
    · exact absurd h (by simp)
    · -- the new directory is at the end of a path that is not longer than the whole
      have hne : above ++ [step] ≠ [] := by simp
      have hnode (p : List String) :
          node? { d with nodes := d.nodes.insert (above ++ [step]) .directory } p =
            if p = above ++ [step] then some .directory else d.node? p := node?_insert hne
      have hsame : SameElsewhere (above ++ [step]) d
          { d with nodes := d.nodes.insert (above ++ [step]) .directory } := by
        intro p hp
        rw [hnode, if_neg hp]
      have hmade : HasDirectories { d with nodes := d.nodes.insert (above ++ [step]) .directory }
          (above ++ [step]) := by
        refine hextend (habove.elsewhere hsame) ?_
        rw [hnode, if_pos rfl]
      obtain ⟨hhas, hlonger⟩ := ih hmade h
      refine ⟨hhas, fun p hp => ?_⟩
      have hne : p ≠ above ++ [step] := by
        intro heq
        rw [heq, List.length_append] at hp
        exact absurd hp (Nat.not_lt.mpr (Nat.le_add_right _ _))
      rw [hlonger p hp, hnode, if_neg hne]

theorem makeDirectories_spec (h : d.makeDirectories steps = .ok d') :
    d'.HasDirectories steps ∧ ∀ p, steps.length < p.length → d'.node? p = d.node? p := by
  have htop : d.HasDirectories [] := by
    intro p hp
    rw [List.prefix_nil.mp hp]
    rfl
  exact makeDirectoriesFrom_spec htop h

/-! ## Names in a directory -/

theorem mem_list : name ∈ d.list steps ↔ d.node? (steps ++ [name]) ≠ none := by
  have hnode : d.node? (steps ++ [name]) = d.nodes[steps ++ [name]]? := if_neg (by simp)
  rw [hnode, list, List.mem_filterMap, ← Option.isSome_iff_ne_none,
    Std.TreeMap.isSome_getElem?_iff_mem, ← Std.TreeMap.mem_keys]
  constructor
  · rintro ⟨path, hpath, hname⟩
    split at hname
    · rename_i hsteps
      obtain ⟨front, rfl⟩ := List.getLast?_eq_some_iff.mp hname
      rw [List.dropLast_concat] at hsteps
      rwa [hsteps] at hpath
    · exact absurd hname (by simp)
  · intro hmem
    exact ⟨_, hmem, by simp⟩

theorem nodup_list (d : Disk) (steps : List String) : (d.list steps).Nodup := by
  have hkeys : d.nodes.keys.Nodup := by
    rw [← Std.TreeMap.map_fst_toList_eq_keys]
    exact TreeMap.nodup_keys d.nodes
  refine hkeys.filterMap fun path path' name hname hname' => ?_
  -- a name comes from the path that it ends
  have hpath {path : List String}
      (h : name ∈ if path.dropLast = steps then path.getLast? else none) :
      path = steps ++ [name] := by
    split at h
    · rename_i hsteps
      obtain ⟨front, rfl⟩ := List.getLast?_eq_some_iff.mp (Option.mem_def.mp h)
      rw [List.dropLast_concat] at hsteps
      rw [hsteps]
    · exact absurd h (by simp)
  rw [hpath hname, hpath hname']

end Disk

variable {d d' : Disk} {place : List String}

/-! ## The file of a map -/

namespace RecordFile

variable {r r' : RecordFile}

/-- An open map whose path leads to its file. -/
structure Open (r : RecordFile) (d : Disk) (place : List String) : Prop where
  opened : r.closed = false
  place_eq : r.path.steps = place
  node : d.node? place = some (.file r.file)

theorem open_create {path : Path} (hd : d.WellFormed) (habove : d.HasDirectories path.parentSteps)
    (h : create path d = (.ok r, d')) :
    r.Open d' path.steps ∧ Disk.SameElsewhere path.steps d d' := by
  obtain ⟨-, -, hnode⟩ := apart_create hd h
  unfold create at h
  rw [Disk.makeDirectories_of_has habove] at h
  dsimp only at h
  split at h
  · exact absurd (Prod.mk.inj h).1 (by simp)
  · rename_i file made hfile
    simp only [Prod.mk.injEq, Except.ok.injEq] at h
    obtain ⟨rfl, rfl⟩ := h
    exact ⟨⟨rfl, rfl, hnode⟩, Disk.sameElsewhere_createFile hfile⟩

/-- Where the directory is there, a map that cannot be made leaves everything as it was. -/
theorem create_error {path : Path} {e : Error} (habove : d.HasDirectories path.parentSteps)
    (h : create path d = (.error e, d')) : d' = d := by
  unfold create at h
  rw [Disk.makeDirectories_of_has habove] at h
  dsimp only at h
  split at h
  · exact (Prod.mk.inj h).2.symm
  · exact absurd (Prod.mk.inj h).1 (by simp)

/-- Records are put into the file that is there. -/
theorem Open.put {id : SeriesId} {bytes : Bytes} {result : Except Error Unit}
    (ho : r.Open d place) (h : r.put d id bytes = (result, r', d')) :
    r'.Open d' place ∧ d'.node? = d.node? := by
  unfold RecordFile.put at h
  rw [ho.opened, if_neg Bool.false_ne_true] at h
  split at h
  · simp only [Prod.mk.injEq] at h
    obtain ⟨-, rfl, rfl⟩ := h
    exact ⟨ho, rfl⟩
  · simp only [Prod.mk.injEq] at h
    obtain ⟨-, rfl, rfl⟩ := h
    exact ⟨⟨rfl, ho.place_eq, ho.node⟩, rfl⟩

/-- A map that is closed takes its file with it. -/
theorem Open.close (ho : r.Open d place) :
    (r.close d).2.2.node? place = none ∧ Disk.SameElsewhere place d (r.close d).2.2 := by
  obtain ⟨hopened, rfl, hnode⟩ := ho
  obtain ⟨d', hremove, hnone, hsame⟩ := Disk.removeFile_of_file hnode
  rw [RecordFile.close, hopened, if_neg Bool.false_ne_true, hremove]
  exact ⟨hnone, hsame⟩

end RecordFile

/-! ## The file of a frozen store -/

/-- A map of records in an open file at the end of some steps. -/
def RecordMap.InFile (m : RecordMap) (d : Disk) (place : List String) : Prop :=
  ∃ r, m = .file r ∧ r.Open d place

theorem RecordMap.InFile.congr {m : RecordMap} (h : m.InFile d place)
    (hnode : d'.node? place = d.node? place) : m.InFile d' place := by
  obtain ⟨r, rfl, ho⟩ := h
  exact ⟨r, rfl, ho.opened, ho.place_eq, hnode ▸ ho.node⟩

namespace GrowingStore

variable [BlockCodec]

theorem open_putSeries {c : Compression} {list : List (SeriesId × Series)} {r : RecordFile}
    {m' : RecordMap} {result : Except Error Unit} (ho : r.Open d place)
    (h : putSeries c list (.file r) d = (result, m', d')) :
    m'.InFile d' place ∧ d'.node? = d.node? := by
  induction list generalizing r d with
  | nil =>
    simp only [putSeries, Prod.mk.injEq] at h
    obtain ⟨-, rfl, rfl⟩ := h
    exact ⟨⟨r, rfl, ho⟩, rfl⟩
  | cons x list ih =>
    obtain ⟨id, series⟩ := x
    rw [putSeries] at h
    split at h
    · exact ih ho h
    · split at h
      · simp only [Prod.mk.injEq] at h
        obtain ⟨-, rfl, rfl⟩ := h
        exact ⟨⟨r, rfl, ho⟩, rfl⟩
      · rename_i stored _
        cases hput : r.put d id stored with
        | mk put after =>
          obtain ⟨r', made⟩ := after
          obtain ⟨ho', hnode⟩ := ho.put hput
          rw [RecordMap.put, hput] at h
          cases put with
          | error e =>
            simp only [Prod.mk.injEq] at h
            obtain ⟨-, rfl, rfl⟩ := h
            exact ⟨⟨r', rfl, ho'⟩, hnode⟩
          | ok u =>
            obtain ⟨hin, hnode'⟩ := ih ho' h
            exact ⟨hin, hnode'.trans hnode⟩

variable {s : GrowingStore} {dataset : String} {form : FrozenForm} {path : Path}

/-- **A frozen copy has a file in its place, and a copy that failed has none.** No other path is
touched. -/
theorem freeze_inFile (hd : d.WellFormed) (hpath : form.file dataset = some path)
    (habove : d.HasDirectories path.parentSteps) {result : Except Error FrozenStore}
    (h : s.freeze d dataset form = (result, d')) :
    Disk.SameElsewhere path.steps d d' ∧
      (∀ frozen, result = .ok frozen → frozen.records.InFile d' path.steps) ∧
      ∀ e, result = .error e → d' = d ∨ d'.node? path.steps = none := by
  unfold GrowingStore.freeze RecordMap.create at h
  rw [hpath] at h
  dsimp only at h
  cases hcreate : RecordFile.create path d with
  | mk created made =>
    rw [hcreate] at h
    cases created with
    | error e =>
      obtain rfl := RecordFile.create_error habove hcreate
      simp only [Prod.mk.injEq] at h
      obtain ⟨rfl, rfl⟩ := h
      exact ⟨.refl, by simp, fun _ _ => .inl rfl⟩
    | ok r =>
      obtain ⟨ho, hsame⟩ := RecordFile.open_create hd habove hcreate
      dsimp only at h
      cases hput : putSeries form.compression s.series.toList (.file r) made with
      | mk put after =>
        obtain ⟨m', made'⟩ := after
        obtain ⟨⟨r', rfl, ho'⟩, hnode⟩ := open_putSeries ho hput
        have hfilled : Disk.SameElsewhere path.steps d made' := by
          intro p hp
          rw [hnode, hsame p hp]
        rw [hput] at h
        cases put with
        | error e =>
          -- the file that was begun is removed again
          obtain ⟨hnone, hclosed⟩ := ho'.close
          simp only [Prod.mk.injEq] at h
          obtain ⟨rfl, rfl⟩ := h
          exact ⟨hfilled.trans hclosed, by simp, fun _ _ => .inr hnone⟩
        | ok u =>
          simp only [Prod.mk.injEq] at h
          obtain ⟨rfl, rfl⟩ := h
          refine ⟨hfilled, fun frozen hfrozen => ?_, by simp⟩
          obtain rfl := Except.ok.inj hfrozen
          exact ⟨r', rfl, ho'⟩

end GrowingStore

/-! ## Names of files -/

namespace Path

/-- A text without slashes is one step more. -/
theorem steps_join_of_plain (dir : Path) {text : String} (h : '/' ∉ text.toList)
    (hlong : 2 < text.toList.length) : (dir.join text).steps = dir.steps ++ [text] := by
  have hwalk : walkText dir.steps text = dir.steps ++ [text] := by
    rw [walkText, Text.pieces_of_not_mem h, List.map_singleton, List.foldl_cons, List.foldl_nil,
      String.ofList_toList, walk_of_long hlong]
  have hstart : startsAtTop text = false := by
    rw [startsAtTop, beq_eq_false_iff_ne]
    exact fun hhead => h (List.mem_of_mem_head? hhead)
  rw [join, hstart, if_neg Bool.false_ne_true, ← hwalk]
  split <;> rfl

end Path

end TimeSeries
