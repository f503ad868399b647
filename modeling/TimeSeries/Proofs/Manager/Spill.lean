import Mathlib
import TimeSeries.Proofs.Directory
import TimeSeries.Proofs.Manager.Late

/-!
# The files of a manager

A manager with a directory for files keeps in it the files of its frozen chunks and nothing else. A
file is made when a chunk is frozen. It goes when the freezing fails, and it goes with the chunk, so
that a new chunk for the same window finds its place empty. `Spills` says this of a manager between
any two steps: each frozen chunk has a file of its own in the place of its window, and whatever is
in the directory is the file of a frozen chunk. No two places are the same as long as the dataset
holds no slash, and one step never works in more than one place at a time.
-/

namespace TimeSeries

namespace ManagerSettings

variable {settings : ManagerSettings} {dir : Path} {start other : Int}

/-- The name of the file for the frozen chunk of a window. -/
def fileName (settings : ManagerSettings) (start : Int) : String :=
  s!"{settings.dataset}_{start}" ++ ".series"

/-- The steps to this file in a directory. -/
def placeIn (settings : ManagerSettings) (dir : Path) (start : Int) : List String :=
  dir.steps ++ [settings.fileName start]

theorem fileName_injective (settings : ManagerSettings) : Function.Injective settings.fileName := by
  intro start other h
  -- what differs is the number between the underscore and the extension
  have hnumber := String.toList_inj.mpr h
  simp only [fileName, String.toList_append, List.append_cancel_right_eq,
    List.append_cancel_left_eq] at hnumber
  rw [Int.toString_eq_repr, Int.toString_eq_repr] at hnumber
  exact Int.repr_injective (String.toList_inj.mp hnumber)

theorem placeIn_inj : settings.placeIn dir start = settings.placeIn dir other ↔ start = other := by
  rw [placeIn, placeIn, List.append_cancel_left_eq, List.singleton_inj]
  exact settings.fileName_injective.eq_iff

/-- The frozen form puts the file into this place. -/
theorem file_eq (hform : settings.form.directory = some dir)
    (hslash : '/' ∉ settings.dataset.toList) (start : Int) :
    ∃ path, settings.form.file s!"{settings.dataset}_{start}" = some path ∧
      path.steps = settings.placeIn dir start := by
  refine ⟨dir.join (settings.fileName start), ?_, dir.steps_join_of_plain ?_ ?_⟩
  · rw [FrozenForm.file, hform]
    rfl
  · have hdataset : '/' ∉ (s!"{settings.dataset}_{start}").toList := by
      have htext : (toString settings.dataset ++ toString "_" ++ toString start).toList =
          settings.dataset.toList ++ ['_'] ++ (toString start).toList := by
        rw [String.toList_append, String.toList_append]
        rfl
      change '/' ∉ (toString settings.dataset ++ toString "_" ++ toString start).toList
      rw [htext, List.mem_append, List.mem_append]
      exact not_or.mpr ⟨not_or.mpr ⟨hslash, by decide⟩, Text.slash_not_mem_toString start⟩
    rw [fileName, String.toList_append, List.mem_append]
    exact not_or.mpr ⟨hdataset, by decide⟩
  · rw [fileName, String.toList_append, List.length_append]
    exact Nat.lt_of_lt_of_le (by decide : 2 < ".series".toList.length) (Nat.le_add_left _ _)

end ManagerSettings

/-! ## Chunks with files -/

/-- A store that is frozen has an open file in a place. -/
def Store.Spilled (s : Store GrowingStore) (d : Disk) (place : List String) : Prop :=
  match s with
  | .growing _ => True
  | .frozen store => store.records.InFile d place

namespace Chunk

variable {c : Chunk GrowingStore} {d d' : Disk} {place : List String}

/-- A chunk has a store, and a file in a place if it is frozen. -/
def Spilled (c : Chunk GrowingStore) (d : Disk) (place : List String) : Prop :=
  ∃ s, c.store = some s ∧ s.Spilled d place

theorem Spilled.congr (h : c.Spilled d place) (hnode : d'.node? place = d.node? place) :
    c.Spilled d' place := by
  obtain ⟨s, hs, hspilled⟩ := h
  refine ⟨s, hs, ?_⟩
  cases s with
  | growing store => trivial
  | frozen store => exact RecordMap.InFile.congr hspilled hnode

/-- The records of a frozen chunk, if they are in a file. -/
def recordFile? (c : Chunk GrowingStore) : Option RecordFile :=
  match c.store with
  | some (.frozen ⟨.file r, _, _⟩) => some r
  | _ => none

theorem Spilled.open_recordFile (h : c.Spilled d place) (hstate : c.state = .frozen) :
    ∃ r, c.recordFile? = some r ∧ r.Open d place := by
  obtain ⟨s, hs, hspilled⟩ := h
  obtain ⟨⟨records, compression, points⟩, hfrozen⟩ := state_eq_frozen.mp hstate
  obtain rfl := Option.some_inj.mp (hs.symm.trans hfrozen)
  obtain ⟨r, hrecords, ho⟩ := hspilled
  obtain rfl : records = .file r := hrecords
  exact ⟨r, by rw [recordFile?, hfrozen], ho⟩

/-- A point leaves the file of a chunk alone, and does not freeze a chunk. -/
theorem Spilled.addPoint (h : c.Spilled d place) (tags : TagIndex) (m : Metric) (p : Point) :
    (c.addPoint tags m p).2.1.Spilled d place ∧
      (c.state = .frozen → (c.addPoint tags m p).2.1.state = .frozen) := by
  by_cases hstate : c.state = .growing
  · obtain ⟨g, hg⟩ := state_eq_growing.mp hstate
    refine ⟨?_, fun hfrozen => absurd (hstate.symm.trans hfrozen) (by simp)⟩
    have hgrowing : ∃ g', (c.addPoint tags m p).2.1.store = some (.growing g') := by
      simp only [Chunk.addPoint, hg]
      split
      · exact ⟨g, hg⟩
      · exact ⟨_, rfl⟩
    obtain ⟨g', hg'⟩ := hgrowing
    exact ⟨.growing g', hg', trivial⟩
  · rw [addPoint_late hstate]
    exact ⟨h, id⟩

variable [BlockCodec] {form : FrozenForm} {path : Path}

/-- Freezing works in the place of the file only. Afterwards there is a file just if the chunk is
frozen, provided that there was none for a chunk that was not. -/
theorem Spilled.freeze (h : c.Spilled d path.steps) (hd : d.WellFormed)
    (hpath : form.file c.info.dataset = some path) (habove : d.HasDirectories path.parentSteps)
    (hnone : d.node? path.steps ≠ none → c.state = .frozen) :
    (c.freeze d form).state.2.WellFormed ∧
      Disk.SameElsewhere path.steps d (c.freeze d form).state.2 ∧
      (c.freeze d form).state.1.Spilled (c.freeze d form).state.2 path.steps ∧
      ((c.freeze d form).state.2.node? path.steps ≠ none →
        (c.freeze d form).state.1.state = .frozen) := by
  obtain ⟨s, hs, hspilled⟩ := h
  cases s with
  | frozen store =>
    rw [(freeze_late (by simp [Chunk.state, hs, Store.isFrozen]) d form).2]
    exact ⟨hd, .refl, ⟨_, hs, hspilled⟩, hnone⟩
  | growing store =>
    rcases freeze_growing hs d form with
      ⟨e, d', hfreeze, -, hstate⟩ | ⟨frozen, d', hfreeze, -, hstate⟩
    · obtain ⟨hsame, -, herror⟩ := GrowingStore.freeze_inFile hd hpath habove hfreeze
      rw [hstate]
      refine ⟨(GrowingStore.apart_freeze_error hd hfreeze).wellFormed, hsame, ⟨_, hs, trivial⟩, ?_⟩
      intro hfile
      rcases herror e rfl with rfl | hgone
      · exact hnone hfile
      · exact absurd hgone hfile
    · obtain ⟨hsame, hfrozen, -⟩ := GrowingStore.freeze_inFile hd hpath habove hfreeze
      rw [hstate]
      refine ⟨(GrowingStore.apart_freeze hd hfreeze).1.wellFormed, hsame,
        ⟨.frozen frozen, rfl, hfrozen frozen rfl⟩, fun _ => ?_⟩
      exact state_eq_frozen.mpr ⟨frozen, rfl⟩

omit [BlockCodec] in
/-- A chunk that is closed leaves no file behind. -/
theorem Spilled.close (h : c.Spilled d place) (hd : d.WellFormed)
    (hnone : d.node? place ≠ none → c.state = .frozen) :
    (c.close d).2.2.WellFormed ∧ Disk.SameElsewhere place d (c.close d).2.2 ∧
      (c.close d).2.2.node? place = none := by
  obtain ⟨s, hs, hspilled⟩ := h
  rw [Chunk.close, hs]
  cases s with
  | growing store =>
    refine ⟨hd, .refl, ?_⟩
    by_contra hfile
    exact absurd (hnone hfile) (by simp [Chunk.state, hs, Store.isFrozen])
  | frozen store =>
    obtain ⟨r, hrecords, ho⟩ := hspilled
    obtain ⟨hgone, hsame⟩ := ho.close
    have hclose : ((Store.frozen store : Store GrowingStore).close d).2.2 = (r.close d).2.2 := by
      rw [Store.close, FrozenStore.close, hrecords]
      rfl
    dsimp only
    rw [hclose]
    exact ⟨(RecordFile.apart_close hd).wellFormed, hsame, hgone⟩

end Chunk

/-! ## Managers with files -/

namespace Manager

variable {settings : ManagerSettings} {dir : Path} {m m' : Manager} {ms : List Metric}
  {c : LiveChunk} {start : Int} {d : Disk} {tags : TagIndex} {next : Nat}

/-- The directory of a manager holds the files of its frozen chunks and nothing else. -/
structure Spills (m : Manager) (settings : ManagerSettings) (dir : Path) : Prop where
  disk : m.disk.WellFormed
  above : m.disk.HasDirectories dir.steps
  /-- A frozen chunk has its file in the place of its window. -/
  chunks : ∀ start (c : LiveChunk), m.chunks[start]? = some c →
    c.chunk.Spilled m.disk (settings.placeIn dir start)
  /-- What is in the directory is the file of a frozen chunk. -/
  files : ∀ name, m.disk.node? (dir.steps ++ [name]) ≠ none → ∃ start c,
    m.chunks[start]? = some c ∧ c.chunk.state = .frozen ∧ name = settings.fileName start

/-- If there is something in the place of a window, then there is a frozen chunk. -/
theorem Spills.exists_frozen (h : m.Spills settings dir)
    (hfile : m.disk.node? (settings.placeIn dir start) ≠ none) :
    ∃ c, m.chunks[start]? = some c ∧ c.chunk.state = .frozen := by
  obtain ⟨other, c, hc, hstate, hname⟩ := h.files _ hfile
  obtain rfl := settings.fileName_injective hname
  exact ⟨c, hc, hstate⟩

theorem Spills.state_of_file (h : m.Spills settings dir) (hc : m.chunks[start]? = some c)
    (hfile : m.disk.node? (settings.placeIn dir start) ≠ none) : c.chunk.state = .frozen := by
  obtain ⟨c', hc', hstate⟩ := h.exists_frozen hfile
  obtain rfl := Option.some_inj.mp (hc.symm.trans hc')
  exact hstate

/-- Work in the place of one window leaves the chunks and the files of the others. -/
theorem Spills.others {chunks : Std.TreeMap Int LiveChunk} (h : m.Spills settings dir)
    (hd : d.WellFormed) (hsame : Disk.SameElsewhere (settings.placeIn dir start) m.disk d)
    (hchunks : ∀ other, other ≠ start → chunks[other]? = m.chunks[other]?)
    (hchunk : ∀ c, chunks[start]? = some c → c.chunk.Spilled d (settings.placeIn dir start))
    (hfile : d.node? (settings.placeIn dir start) ≠ none →
      ∃ c, chunks[start]? = some c ∧ c.chunk.state = .frozen) :
    Spills ⟨m.settings, tags, d, chunks, next⟩ settings dir where
  disk := hd
  above := h.above.elsewhere hsame
  chunks := by
    intro other c hc
    by_cases heq : other = start
    · subst heq
      exact hchunk c hc
    · have hold : m.chunks[other]? = some c := hchunks other heq ▸ hc
      exact (h.chunks other c hold).congr (hsame _ (mt ManagerSettings.placeIn_inj.mp heq))
  files := by
    intro name hname
    by_cases heq : name = settings.fileName start
    · subst heq
      obtain ⟨c, hc, hstate⟩ := hfile hname
      exact ⟨start, c, hc, hstate, rfl⟩
    · have hplace : dir.steps ++ [name] ≠ settings.placeIn dir start := by
        rw [ManagerSettings.placeIn, ne_eq, List.append_cancel_left_eq, List.singleton_inj]
        exact heq
      have hold : m.disk.node? (dir.steps ++ [name]) ≠ none := hsame _ hplace ▸ hname
      obtain ⟨other, c, hc, hstate, rfl⟩ := h.files name hold
      have hother : other ≠ start := fun hs => heq (hs ▸ rfl)
      exact ⟨other, c, (hchunks other hother).trans hc, hstate, rfl⟩

/-- A chunk is put in the place of the one at its start, and its file may change with it. -/
theorem Spills.put (h : m.Spills settings dir) (hd : d.WellFormed)
    (hsame : Disk.SameElsewhere (settings.placeIn dir start) m.disk d)
    (hchunk : c.chunk.Spilled d (settings.placeIn dir start))
    (hfile : d.node? (settings.placeIn dir start) ≠ none → c.chunk.state = .frozen) :
    Spills ⟨m.settings, tags, d, m.chunks.insert start c, next⟩ settings dir := by
  have hself : (m.chunks.insert start c)[start]? = some c := by
    rw [TreeMap.getElem?_insert, if_pos rfl]
  refine h.others hd hsame (fun other hne => ?_) (fun c' hc' => ?_) fun hnode => ?_
  · rw [TreeMap.getElem?_insert, if_neg hne]
  · obtain rfl := Option.some_inj.mp (hself.symm.trans hc')
    exact hchunk
  · exact ⟨c, hself, hfile hnode⟩

/-! ## Adding a point -/

theorem Spills.chunkAt (h : m.Spills settings dir) (t : Int) :
    (m.chunkAt t).2.1.Spills settings dir := by
  unfold Manager.chunkAt
  split
  · exact h
  · rename_i hnone
    -- a new chunk is created only where there is neither a chunk nor a file
    refine h.put h.disk .refl ⟨_, rfl, trivial⟩ fun hfile => ?_
    obtain ⟨c, hc, -⟩ := h.exists_frozen hfile
    exact absurd (hnone.symm.trans hc) (by simp)

theorem Spills.addHeld (h : m.Spills settings dir) (hc : m.chunks[start]? = some c)
    (hi : c.chunk.info.start = start) (metric : Metric) (p : Point) :
    (m.addHeld c.handle metric p).2.Spills settings dir := by
  obtain ⟨hchunk, hstate⟩ := (h.chunks start c hc).addPoint m.tags metric p
  rw [addHeld_eq hc hi]
  exact h.put h.disk .refl hchunk fun hfile => hstate (h.state_of_file hc hfile)

theorem Spills.addLine (hs : m.Sound settings ms) (h : m.Spills settings dir) (line : String) :
    (m.addLine line).state.Spills settings dir := by
  rw [Manager.addLine]
  cases PutRecord.parse line with
  | error e => exact h
  | ok r =>
    dsimp only
    by_cases hr : PointTime r.point.time
    · have hrecord := congrArg Prod.snd (addRecord_inRange (m := m) hr)
      obtain ⟨hcreated, hc⟩ := hs.chunkAt r.point.time
      dsimp only at hrecord
      rw [hrecord]
      exact (h.chunkAt r.point.time).addHeld hc (hcreated.chunks _ _ hc).start r.metric r.point
    · rw [addRecord_outOfRange hr]
      exact h

/-! ## Freezing and removing -/

theorem Spills.removeChunk (h : m.Spills settings dir) (hc : m.chunks[start]? = some c) :
    (m.removeChunk start c).1.Spills settings dir := by
  obtain ⟨hd, hsame, hgone⟩ :=
    (h.chunks start c hc).close h.disk fun hfile => h.state_of_file hc hfile
  refine h.others hd hsame (fun other hne => ?_) (fun c' hc' => ?_) fun hfile => absurd hgone hfile
  · exact (chunks_removeChunk (c := c) other).trans (if_neg hne)
  · have hnone : (m.removeChunk start c).1.chunks[start]? = none := by
      rw [chunks_removeChunk, if_pos rfl]
    exact absurd (hnone.symm.trans hc') (by simp)

theorem Spills.removeUntil (h : m.Spills settings dir) (cutoff : Int) :
    (m.removeUntil cutoff).2.1.Spills settings dir :=
  removeUntil_induction (P := fun m _ => m.Spills settings dir)
    (fun _ _ _ _ h hc _ => h.removeChunk hc) (fun _ _ h => h) h

variable [BlockCodec]

theorem Spills.freezeChunk (hform : settings.form.directory = some dir)
    (hslash : '/' ∉ settings.dataset.toList) (h : m.Spills settings dir)
    (hsettings : m.settings = settings) (hc : m.chunks[start]? = some c)
    (hinfo : c.chunk.info.dataset = s!"{settings.dataset}_{start}") :
    (m.freezeChunk start c).2.1.Spills settings dir := by
  obtain ⟨path, hpath, hsteps⟩ := ManagerSettings.file_eq hform hslash start
  have hplace := h.chunks start c hc
  have hfile : m.disk.node? path.steps ≠ none → c.chunk.state = .frozen := by
    rw [hsteps]
    exact h.state_of_file hc
  have habove : m.disk.HasDirectories path.parentSteps := by
    rw [Path.parentSteps, hsteps, ManagerSettings.placeIn, List.dropLast_concat]
    exact h.above
  rw [← hsteps] at hplace
  have hown : m.settings.form.file c.chunk.info.dataset = some path := by
    rw [hsettings, hinfo, hpath]
  obtain ⟨hd, hsame, hchunk, hstate⟩ := hplace.freeze h.disk hown habove hfile
  rw [hsteps] at hsame hchunk hstate
  rw [freezeChunk_eq]
  exact h.put hd hsame hchunk hstate

omit [BlockCodec] in
/-- The chunks of a manager are named after their starts. -/
theorem Named.dataset_eq {fresh : Manager} (hnew : Manager.new settings d = .ok fresh)
    (h : m.Named fresh.chunkInfo) (hc : m.chunks[start]? = some c) :
    c.chunk.info.dataset = s!"{settings.dataset}_{start}" := by
  obtain ⟨made, rfl⟩ := exists_of_new hnew
  rw [h start c hc]
  rfl

theorem Spills.freezeUntil {fresh : Manager} (hnew : Manager.new settings d = .ok fresh)
    (hform : settings.form.directory = some dir) (hslash : '/' ∉ settings.dataset.toList)
    (hs : m.Sound settings ms) (hn : m.Named fresh.chunkInfo) (h : m.Spills settings dir)
    (cutoff : Int) : (m.freezeUntil cutoff).2.1.Spills settings dir := by
  -- the file of a chunk is found by the settings and by the name, which freezing keeps
  have hall : (m.freezeUntil cutoff).2.1.Spills settings dir ∧
      (m.freezeUntil cutoff).2.1.Sound settings ms ∧
      (m.freezeUntil cutoff).2.1.Named fresh.chunkInfo := by
    refine freezeUntil_induction (P := fun m _ =>
      m.Spills settings dir ∧ m.Sound settings ms ∧ m.Named fresh.chunkInfo) ?_ ⟨h, hs, hn⟩
    rintro m _ start c ⟨h, hs, hn⟩ hc _ _
    exact ⟨h.freezeChunk hform hslash hs.settings_eq hc (hn.dataset_eq hnew hc),
      hs.freezeChunk (hs.chunks start c hc), hn.freezeChunk hc⟩
  exact hall.1

/-! ## Runs -/

/-- One step. -/
theorem Spills.step {fresh : Manager} (hnew : Manager.new settings d = .ok fresh)
    (hform : settings.form.directory = some dir) (hslash : '/' ∉ settings.dataset.toList)
    (hs : m.Sound settings ms) (hn : m.Named fresh.chunkInfo) (h : m.Spills settings dir)
    (hstep : Step m m') : m'.Spills settings dir := by
  cases hstep with
  | add line => exact h.addLine hs line
  | window t => exact h.chunkAt t
  | freeze cutoff => exact h.freezeUntil hnew hform hslash hs hn cutoff
  | remove cutoff => exact h.removeUntil cutoff

omit [BlockCodec] in
/-- A new manager has made its directory, which is empty if nothing was there before. -/
theorem spills_new (hd : d.WellFormed) (hform : settings.form.directory = some dir)
    (hempty : d.list dir.steps = []) (hnew : Manager.new settings d = .ok m) :
    m.Spills settings dir := by
  rw [Manager.new] at hnew
  obtain ⟨_, -, hnew⟩ := bind_eq_ok.mp hnew
  rw [hform] at hnew
  obtain ⟨made, hmade, hnew⟩ := bind_eq_ok.mp hnew
  obtain rfl := pure_eq_ok.mp hnew
  obtain ⟨habove, hlonger⟩ := Disk.makeDirectories_spec hmade
  have hwell : Disk.Apart none d made := Disk.apart_makeDirectories hd hmade
  refine ⟨hwell.wellFormed, habove, fun start c hc => absurd hc (by simp), fun name hname => ?_⟩
  -- what is in the directory has been there before
  have hold : d.node? (dir.steps ++ [name]) ≠ none := by
    rwa [← hlonger _ (by simp)]
  rw [← Disk.mem_list, hempty] at hold
  exact absurd hold List.not_mem_nil

theorem spills_of_run {fresh : Manager} (hd : d.WellFormed)
    (hform : settings.form.directory = some dir) (hslash : '/' ∉ settings.dataset.toList)
    (hempty : d.list dir.steps = []) (hnew : Manager.new settings d = .ok fresh)
    (hr : Run fresh m) : m.Spills settings dir := by
  induction hr with
  | refl => exact spills_new hd hform hempty hnew
  | tail hrun hstep ih =>
    obtain ⟨ms, hs⟩ := sound_of_run hnew hrun
    exact ih.step hnew hform hslash hs (named_of_run hnew hrun) hstep

/-! ## The frozen chunks -/

section

omit [BlockCodec]

/-- The frozen chunks with the starts of their windows. -/
def frozenEntries (m : Manager) : List (Int × LiveChunk) :=
  m.chunks.toList.filter fun x => x.2.chunk.state = .frozen

variable {x : Int × LiveChunk}

theorem mem_frozenEntries :
    x ∈ m.frozenEntries ↔ m.chunks[x.1]? = some x.2 ∧ x.2.chunk.state = .frozen := by
  rw [frozenEntries, List.mem_filter, mem_toList, decide_eq_true_eq]

theorem nodup_frozenEntries (m : Manager) : (m.frozenEntries.map Prod.fst).Nodup :=
  (TreeMap.nodup_keys m.chunks).sublist (List.filter_sublist.map _)

theorem filter_frozen (m : Manager) :
    m.chunkList.filter (·.state = .frozen) = m.frozenEntries.map (·.2.chunk) := List.filter_map

theorem Spills.open_of_mem (h : m.Spills settings dir) (hx : x ∈ m.frozenEntries) :
    ∃ r, x.2.chunk.recordFile? = some r ∧ r.Open m.disk (settings.placeIn dir x.1) := by
  obtain ⟨hc, hstate⟩ := mem_frozenEntries.mp hx
  exact (h.chunks x.1 x.2 hc).open_recordFile hstate

theorem nodup_fileNames (settings : ManagerSettings) (m : Manager) :
    (m.frozenEntries.map fun x => settings.fileName x.1).Nodup := by
  have hnames := (nodup_frozenEntries m).map settings.fileName_injective
  rwa [List.map_map] at hnames

/-- The names in the directory are those of the frozen chunks, each once. -/
theorem Spills.list_perm (h : m.Spills settings dir) :
    (m.disk.list dir.steps).Perm (m.frozenEntries.map fun x => settings.fileName x.1) := by
  refine (List.perm_ext_iff_of_nodup (Disk.nodup_list _ _) (nodup_fileNames settings m)).mpr ?_
  intro name
  rw [Disk.mem_list, List.mem_map]
  constructor
  · intro hnode
    obtain ⟨start, c, hc, hstate, rfl⟩ := h.files name hnode
    exact ⟨(start, c), mem_frozenEntries.mpr ⟨hc, hstate⟩, rfl⟩
  · rintro ⟨x, hx, rfl⟩
    obtain ⟨r, -, ho⟩ := h.open_of_mem hx
    have hnode : m.disk.node? (dir.steps ++ [settings.fileName x.1]) = some (.file r.file) :=
      ho.node
    rw [hnode]
    simp

/-- No two frozen chunks share a file, since no two places lead to one file. -/
theorem Spills.nodup_files (h : m.Spills settings dir) :
    (m.frozenEntries.map fun x => x.2.chunk.recordFile?.map (·.file)).Nodup := by
  refine (nodup_frozenEntries m).of_map.map_on fun x hx y hy hsame => ?_
  obtain ⟨r, hrx, hox⟩ := h.open_of_mem hx
  obtain ⟨r', hry, hoy⟩ := h.open_of_mem hy
  rw [hrx, hry, Option.map_some, Option.map_some, Option.some_inj] at hsame
  have hplace := h.disk.unshared hox.node (hsame ▸ hoy.node)
  have hstart : x.1 = y.1 := ManagerSettings.placeIn_inj.mp hplace
  have hchunk := (mem_frozenEntries.mp hx).1
  rw [hstart, (mem_frozenEntries.mp hy).1] at hchunk
  exact Prod.ext hstart (Option.some_inj.mp hchunk).symm

end

/-- **The directory holds the files of the frozen chunks and nothing else.** Let a manager start
with a directory that is empty or not yet there, and with a dataset that holds no slash. After any
run the names in the directory are those of the frozen chunks, each once. Behind each name is the
file from which the chunk of this name reads its records, and no two chunks share a file. -/
theorem list_of_run {disk : Disk} {fresh : Manager} (hdisk : disk.WellFormed)
    (hform : settings.form.directory = some dir) (hslash : '/' ∉ settings.dataset.toList)
    (hempty : disk.list dir.steps = []) (hnew : Manager.new settings disk = .ok fresh)
    (hr : Run fresh m) :
    let frozen := m.chunkList.filter (·.state = .frozen)
    (m.disk.list dir.steps).Perm (frozen.map fun c => c.info.dataset ++ ".series") ∧
    (frozen.map (·.info.dataset)).Nodup ∧
    (∀ c ∈ frozen, ∃ r, c.recordFile? = some r ∧ r.closed = false ∧
      r.path.steps = dir.steps ++ [c.info.dataset ++ ".series"] ∧
      m.disk.node? r.path.steps = some (.file r.file)) ∧
    (frozen.map fun c => c.recordFile?.map (·.file)).Nodup := by
  intro frozen
  have h := spills_of_run hdisk hform hslash hempty hnew hr
  have hn := named_of_run hnew hr
  have hfrozen : frozen = m.frozenEntries.map (·.2.chunk) := filter_frozen m
  have hname : ∀ x ∈ m.frozenEntries,
      x.2.chunk.info.dataset ++ ".series" = settings.fileName x.1 := by
    intro x hx
    rw [hn.dataset_eq hnew (mem_frozenEntries.mp hx).1]
    rfl
  have hnames : frozen.map (fun c => c.info.dataset ++ ".series") =
      m.frozenEntries.map fun x => settings.fileName x.1 := by
    rw [hfrozen, List.map_map]
    exact List.map_congr_left hname
  refine ⟨?_, ?_, fun c hc => ?_, ?_⟩
  · rw [hnames]
    exact h.list_perm
  · have hdistinct := nodup_fileNames settings m
    have hmapped : frozen.map (fun c => c.info.dataset ++ ".series") =
        (frozen.map (·.info.dataset)).map (· ++ ".series") := by
      rw [List.map_map]
      rfl
    rw [← hnames, hmapped] at hdistinct
    exact hdistinct.of_map
  · rw [hfrozen] at hc
    obtain ⟨x, hx, rfl⟩ := List.mem_map.mp hc
    obtain ⟨r, hrecords, ho⟩ := h.open_of_mem hx
    refine ⟨r, hrecords, ho.opened, ?_, ho.place_eq ▸ ho.node⟩
    rw [ho.place_eq, hname x hx]
    rfl
  · rw [hfrozen, List.map_map]
    exact h.nodup_files

end Manager

/-- A window is frozen, removed, begun again and frozen again, beside one that takes points. -/
theorem Manager.list_of_run_sample :
    ∃ fresh, Manager.new { dataset := "d", form := { directory := some ⟨"/spill", ["spill"]⟩ } }
        Disk.empty = .ok fresh ∧
      let m := (fresh.callEach [.add "put cpu 60 1", .freezeUntil 7200, .removeUntil 7200,
        .add "put cpu 61 2", .add "put cpu 8000 3", .freezeUntil 7200]).1
      (m.disk.list ["spill"]).Perm ((m.chunkList.filter (·.state = .frozen)).map
        fun c => c.info.dataset ++ ".series") ∧
      (m.chunkList.filter (·.state = .frozen)).map (·.info.dataset) = ["d_0"] := by
  have hnew : ∃ fresh, Manager.new
      { dataset := "d", form := { directory := some ⟨"/spill", ["spill"]⟩ } } Disk.empty =
        .ok fresh ∧
      ((fresh.callEach [.add "put cpu 60 1", .freezeUntil 7200, .removeUntil 7200,
        .add "put cpu 61 2", .add "put cpu 8000 3", .freezeUntil 7200]).1.chunkList.filter
          (·.state = .frozen)).map (·.info.dataset) = ["d_0"] := ⟨_, rfl, by decide +kernel⟩
  obtain ⟨fresh, hnew, names⟩ := hnew
  refine ⟨fresh, hnew, ?_⟩
  intro m
  have hform : ({ dataset := "d", form := { directory := some ⟨"/spill", ["spill"]⟩ } } :
      ManagerSettings).form.directory = some ⟨"/spill", ["spill"]⟩ := rfl
  have run : Run fresh m := run_callEach fresh _
  have listed := list_of_run Disk.wellFormed_empty hform (by decide) (by decide) hnew run
  exact ⟨listed.1, names⟩

end TimeSeries
