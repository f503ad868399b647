import Mathlib
import TimeSeries.Disk
import TimeSeries.Proofs.Failing
import TimeSeries.Proofs.TreeMap

/-!
# Files that are left alone

Two paths never lead to one file, and a file that is yet to be created has none. On such a disk
whatever is done at one path leaves all other paths alone: `Apart (some steps) d d'` says that `d'`
came out of `d` by work at the end of `steps` only, so that every other path that led to a file
still leads to that file, and the file has the content that it had. `Apart none d d'` says so of
all files.
-/

namespace TimeSeries

namespace Disk

variable {d d' d'' : Disk} {steps p q : List String} {file id : FileId} {bytes : Bytes}

/-! ## Contents -/

@[simp] theorem content_setContent_self : (d.setContent id bytes).content id = bytes := by
  simp [content, setContent]

theorem content_setContent_ne (h : id ≠ file) :
    (d.setContent id bytes).content file = d.content file := by
  simp [content, setContent, Std.TreeMap.getD_insert, h]

/-- Bytes that are written at the end of a file come behind what is there. -/
theorem content_writeAt_end {offset : Nat} (h : (d.content id).length = offset) :
    (d.writeAt id offset bytes).content id = d.content id ++ bytes := by
  rw [writeAt, content_setContent_self, ← h, List.take_length, Nat.sub_self, List.replicate_zero,
    List.append_nil, List.drop_eq_nil_of_le (by omega), List.append_nil]

/-! ## Paths and files -/

/-- Two paths do not lead to one file, and files get new identities. -/
structure WellFormed (d : Disk) : Prop where
  unshared : ∀ {p q id}, d.node? p = some (.file id) → d.node? q = some (.file id) → p = q
  fresh : ∀ {p id}, d.node? p = some (.file id) → id < d.nextFile

theorem wellFormed_empty : empty.WellFormed where
  unshared := by
    intro p q id h
    unfold node? at h
    split at h <;> simp [empty] at h
  fresh := by
    intro p id h
    unfold node? at h
    split at h <;> simp [empty] at h

/-- What became of a disk by work at the end of some steps only, if at any. -/
structure Apart (place : Option (List String)) (d d' : Disk) : Prop where
  wellFormed : d'.WellFormed
  node? : ∀ {p id}, place ≠ some p → d.node? p = some (.file id) → d'.node? p = some (.file id)
  content : ∀ {p id}, place ≠ some p → d.node? p = some (.file id) → d'.content id = d.content id

variable {place : Option (List String)}

theorem Apart.refl (h : d.WellFormed) : Apart place d d := ⟨h, fun _ h => h, fun _ _ => rfl⟩

theorem Apart.trans (h : Apart place d d') (h' : Apart place d' d'') : Apart place d d'' where
  wellFormed := h'.wellFormed
  node? := fun hne hp => h'.node? hne (h.node? hne hp)
  content := fun hne hp => (h'.content hne (h.node? hne hp)).trans (h.content hne hp)

theorem node?_insert {nodes : Std.TreeMap (List String) DiskNode} {node : DiskNode}
    {contents : Std.TreeMap FileId Bytes} {next : FileId} (hs : steps ≠ []) :
    node? ⟨nodes.insert steps node, contents, next⟩ p =
      if p = steps then some node else node? ⟨nodes, contents, next⟩ p := by
  unfold node?
  by_cases hp : p = []
  · rw [if_pos hp, if_neg (by rw [hp]; exact Ne.symm hs), if_pos hp]
  · rw [if_neg hp, if_neg hp, TreeMap.getElem?_insert]

/-- Making directories leaves every file alone. -/
theorem makeDirectoriesFrom_frame {above rest : List String} (h : d.WellFormed)
    (hd : d.makeDirectoriesFrom above rest = .ok d') : Apart place d d' := by
  induction rest generalizing d above with
  | nil =>
    obtain rfl := Except.ok.inj hd
    exact .refl h
  | cons step rest ih =>
    rw [makeDirectoriesFrom] at hd
    split at hd
    · exact ih h hd
    · exact absurd hd (by simp)
    · rename_i hnone
      have hne : above ++ [step] ≠ [] := by simp
      -- the new directory takes a place at which there was nothing
      have keeps {p id} : d.node? p = some (.file id) ↔ node?
          { d with nodes := d.nodes.insert (above ++ [step]) .directory } p = some (.file id) := by
        rw [node?_insert hne]
        by_cases hp : p = above ++ [step]
        · rw [if_pos hp, hp, hnone]
          simp
        · rw [if_neg hp]
      have hmade : Apart place d
          { d with nodes := d.nodes.insert (above ++ [step]) .directory } :=
        ⟨⟨fun hp hq => h.unshared (keeps.mpr hp) (keeps.mpr hq), fun hp => h.fresh (keeps.mpr hp)⟩,
          fun _ hp => keeps.mp hp, fun _ _ => rfl⟩
      exact hmade.trans (ih hmade.wellFormed hd)

theorem apart_makeDirectories {path : List String} (h : d.WellFormed)
    (hd : d.makeDirectories path = .ok d') : Apart place d d' :=
  makeDirectoriesFrom_frame h hd

/-- A file that is given another content leaves the files at other paths alone. -/
theorem apart_setContent (h : d.WellFormed) (hfile : d.node? steps = some (.file id)) :
    Apart (some steps) d (d.setContent id bytes) where
  wellFormed := ⟨fun hp hq => h.unshared hp hq, fun hp => h.fresh hp⟩
  node? := fun _ hp => hp
  content := fun hne hp => content_setContent_ne fun heq =>
    hne (congrArg some (h.unshared (heq ▸ hfile) hp))

theorem apart_writeAt {offset : Nat} (h : d.WellFormed)
    (hfile : d.node? steps = some (.file id)) : Apart (some steps) d (d.writeAt id offset bytes) :=
  apart_setContent h hfile

/-- A file that was created is empty. -/
theorem content_createFile (hd : d.createFile steps = .ok (id, d')) : d'.content id = [] := by
  unfold createFile at hd
  split at hd
  · exact absurd hd (by simp)
  · simp only [Except.ok.injEq, Prod.mk.injEq] at hd
    obtain ⟨rfl, rfl⟩ := hd
    exact content_setContent_self
  · split at hd
    · simp only [Except.ok.injEq, Prod.mk.injEq] at hd
      obtain ⟨rfl, rfl⟩ := hd
      simp [content]
    · exact absurd hd (by simp)

/-- A new file is put where there was nothing, under an identity that no other file has. -/
theorem apart_newFile (h : d.WellFormed) (hnone : d.node? steps = none) {made : Disk}
    (hmade : made = ⟨d.nodes.insert steps (.file d.nextFile), d.contents.insert d.nextFile [],
      d.nextFile + 1⟩) :
    Apart (some steps) d made ∧ made.node? steps = some (.file d.nextFile) := by
  have hsteps : steps ≠ [] := by
    rintro rfl
    simp [node?] at hnone
  have hnode (p : List String) :
      made.node? p = if p = steps then some (.file d.nextFile) else d.node? p := by
    rw [hmade]
    exact node?_insert hsteps
  have hcases {p : List String} {id : FileId} (hp : made.node? p = some (.file id)) :
      (p = steps ∧ id = d.nextFile) ∨ d.node? p = some (.file id) := by
    rw [hnode] at hp
    split at hp
    · rename_i heq
      rw [Option.some_inj, DiskNode.file.injEq] at hp
      exact .inl ⟨heq, hp.symm⟩
    · exact .inr hp
  -- the next identity has been given to no file
  have hfresh {p : List String} : d.node? p ≠ some (.file d.nextFile) := fun hp =>
    Nat.lt_irrefl _ (h.fresh hp)
  refine ⟨⟨⟨fun hp hq => ?_, fun hp => ?_⟩, fun hne hp => ?_, fun _ hp => ?_⟩, ?_⟩
  · rcases hcases hp with ⟨rfl, rfl⟩ | hp
    · rcases hcases hq with ⟨rfl, -⟩ | hq
      · rfl
      · exact absurd hq hfresh
    · rcases hcases hq with ⟨-, rfl⟩ | hq
      · exact absurd hp hfresh
      · exact h.unshared hp hq
  · rw [hmade]
    rcases hcases hp with ⟨-, rfl⟩ | hp
    · exact Nat.lt_succ_self _
    · exact Nat.lt_succ_of_lt (h.fresh hp)
  · rw [hnode, if_neg fun heq => hne (congrArg some heq.symm)]
    exact hp
  · rw [hmade, content, content, TreeMap.getD_insert, if_neg (Nat.ne_of_lt (h.fresh hp))]
  · rw [hnode, if_pos rfl]

/-- The path at which a file was created leads to it, and all other paths are left alone. -/
theorem apart_createFile (h : d.WellFormed) (hd : d.createFile steps = .ok (id, d')) :
    Apart (some steps) d d' ∧ d'.node? steps = some (.file id) := by
  unfold createFile at hd
  split at hd
  · exact absurd hd (by simp)
  · -- the content of the file that is there is dropped
    rename_i old hfile
    simp only [Except.ok.injEq, Prod.mk.injEq] at hd
    obtain ⟨rfl, rfl⟩ := hd
    exact ⟨apart_setContent h hfile, hfile⟩
  · rename_i hnone
    split at hd
    · simp only [Except.ok.injEq, Prod.mk.injEq] at hd
      obtain ⟨rfl, hmade⟩ := hd
      exact apart_newFile h hnone hmade.symm
    · exact absurd hd (by simp)

/-- A path that was removed leads nowhere, and all other paths are left alone. -/
theorem apart_removeFile (h : d.WellFormed) (hd : d.removeFile steps = .ok d') :
    Apart (some steps) d d' := by
  unfold removeFile at hd
  obtain ⟨node, -, hd⟩ := bind_eq_ok.mp hd
  cases node with
  | directory => exact absurd hd throw_ne_ok
  | file id =>
    obtain rfl := pure_eq_ok.mp hd
    have hnode (p : List String) : node? { d with nodes := d.nodes.erase steps } p =
        if p ≠ [] ∧ p = steps then none else d.node? p := by
      unfold node?
      by_cases hp : p = []
      · simp [hp]
      · by_cases hq : p = steps
        · subst hq
          simp [hp]
        · simp [hp, hq, Ne.symm hq, Std.TreeMap.getElem?_erase]
    -- what still leads to a file did so before
    have back {p id} (hp : node? { d with nodes := d.nodes.erase steps } p = some (.file id)) :
        d.node? p = some (.file id) := by
      rw [hnode] at hp
      split at hp
      · exact absurd hp (by simp)
      · exact hp
    refine ⟨⟨fun hp hq => h.unshared (back hp) (back hq), fun hp => h.fresh (back hp)⟩,
      fun hne hp => ?_, fun _ _ => rfl⟩
    rw [hnode, if_neg (fun hboth => hne (congrArg some hboth.2.symm))]
    exact hp

end Disk

end TimeSeries
