import Mathlib
import TimeSeries.Proofs.Manager.Late

/-!
# Chunks that come and go

Whoever listens to a manager can tell how many chunks it has: every chunk that comes is announced,
and so is every one that goes. `Balanced` states this of what is sent between two moments, without
a subtraction: the chunks at the end and those that went in between are as many as the chunks at
the beginning and those that came.
-/

namespace TimeSeries

namespace StoreEvent

/-- Whether an event is that of a new chunk. -/
def isCreation : StoreEvent → Bool
  | chunkCreated .. => true
  | _ => false

/-- Whether an event is that of a chunk that was removed. -/
def isDeletion : StoreEvent → Bool
  | chunkDeleted .. => true
  | _ => false

end StoreEvent

namespace Signal

/-- How many chunks came. -/
def created (signals : List Signal) : Nat := (events signals).countP (·.isCreation)

/-- How many chunks went. -/
def deleted (signals : List Signal) : Nat := (events signals).countP (·.isDeletion)

theorem created_append (signals more : List Signal) :
    created (signals ++ more) = created signals + created more := by
  rw [created, events_append, List.countP_append]
  rfl

theorem deleted_append (signals more : List Signal) :
    deleted (signals ++ more) = deleted signals + deleted more := by
  rw [deleted, events_append, List.countP_append]
  rfl

/-- The signals account for the change of the number of chunks. -/
def Balanced (before : Nat) (signals : List Signal) (after : Nat) : Prop :=
  after + deleted signals = before + created signals

variable {before middle after : Nat} {signals more : List Signal}

theorem Balanced.append (h : Balanced before signals middle) (h' : Balanced middle more after) :
    Balanced before (signals ++ more) after := by
  rw [Balanced] at *
  rw [created_append, deleted_append]
  omega

/-- Signals of no chunk that came or went. -/
def Quiet (signals : List Signal) : Prop := created signals = 0 ∧ deleted signals = 0

theorem Quiet.append (h : Quiet signals) (h' : Quiet more) : Quiet (signals ++ more) := by
  rw [Quiet, created_append, deleted_append, h.1, h.2, h'.1, h'.2]
  exact ⟨rfl, rfl⟩

theorem Quiet.balanced (h : Quiet signals) : Balanced before signals before := by
  rw [Balanced, h.1, h.2]

end Signal

namespace Manager

variable {settings : ManagerSettings} {ms : List Metric} {m : Manager} {c : LiveChunk}
  {start cutoff : Int}

/-! ## What the calls signal -/

theorem balanced_chunkAt (m : Manager) (t : Int) :
    Signal.Balanced m.chunks.size (m.chunkAt t).2.2 (m.chunkAt t).2.1.chunks.size := by
  unfold Manager.chunkAt
  split
  · rfl
  · rename_i hnone
    rw [Signal.Balanced]
    exact TreeMap.size_insert_of_none hnone _

theorem Sound.balanced_addLine (h : m.Sound settings ms) (line : String) :
    Signal.Balanced m.chunks.size (m.addLine line).signals (m.addLine line).state.chunks.size := by
  rw [Manager.addLine]
  cases PutRecord.parse line with
  | error e => rfl
  | ok r =>
    dsimp only
    by_cases hr : PointTime r.point.time
    · have hrange : 0 ≤ r.point.time ∧ r.point.time ≤ maxTime := hr
      obtain ⟨hcreated, hc⟩ := h.chunkAt r.point.time
      have hbalanced := balanced_chunkAt m r.point.time
      rw [addRecord, if_pos hrange]
      dsimp only
      rw [addHeld_eq hc (hcreated.chunks _ _ hc).start]
      refine hbalanced.append ?_
      dsimp only
      rw [TreeMap.size_insert_of_getElem? hc]
      split <;> rfl
    · rw [addRecord_outOfRange hr]
      rfl

theorem balanced_removeChunk (hc : m.chunks[start]? = some c) :
    Signal.Balanced m.chunks.size (m.removeChunk start c).2
      (m.removeChunk start c).1.chunks.size := by
  have hsize := TreeMap.size_erase_of_getElem? hc
  rw [removeChunk]
  dsimp only
  split <;> exact hsize

theorem balanced_removeUntil (m : Manager) (cutoff : Int) :
    Signal.Balanced m.chunks.size (m.removeUntil cutoff).2.2
      (m.removeUntil cutoff).2.1.chunks.size := by
  refine removeUntil_induction
    (P := fun m' signals => Signal.Balanced m.chunks.size signals m'.chunks.size) ?_ ?_ rfl
  · intro m' signals start c h hc _
    exact h.append (balanced_removeChunk hc)
  · intro m' signals h
    exact h.append rfl

variable [BlockCodec]

theorem quiet_freeze (chunk : Chunk GrowingStore) (d : Disk) (form : FrozenForm) :
    Signal.Quiet (chunk.freeze d form).signals := by
  unfold Chunk.freeze
  split
  · exact ⟨rfl, rfl⟩
  · split
    · exact ⟨rfl, rfl⟩
    · exact ⟨rfl, rfl⟩
    · dsimp only
      split <;> exact ⟨rfl, rfl⟩

theorem quiet_freezeChunk (m : Manager) (start : Int) (c : LiveChunk) :
    Signal.Quiet (m.freezeChunk start c).2.2 := by
  have hquiet := quiet_freeze c.chunk m.disk m.settings.form
  rw [freezeChunk]
  dsimp only
  split
  · exact hquiet
  · exact hquiet.append ⟨rfl, rfl⟩

theorem balanced_freezeUntil (m : Manager) (cutoff : Int) :
    Signal.Balanced m.chunks.size (m.freezeUntil cutoff).2.2
      (m.freezeUntil cutoff).2.1.chunks.size := by
  refine freezeUntil_induction
    (P := fun m' signals => Signal.Balanced m.chunks.size signals m'.chunks.size) ?_ rfl
  intro m' signals start c h hc _ _
  have hsize : (m'.freezeChunk start c).2.1.chunks.size = m'.chunks.size := by
    rw [freezeChunk_eq]
    exact TreeMap.size_insert_of_getElem? hc _
  rw [hsize]
  exact h.append (quiet_freezeChunk m' start c).balanced

/-! ## Runs -/

/-- The signals of a call. -/
def signalsOf (m : Manager) : ManagerCall → List Signal
  | .add line => (m.addLine line).signals
  | .freezeUntil cutoff => (m.freezeUntil cutoff).2.2
  | .removeUntil cutoff => (m.removeUntil cutoff).2.2

/-- The signals of some calls. -/
def signalsEach (m : Manager) : List ManagerCall → List Signal
  | [] => []
  | c :: rest => m.signalsOf c ++ (m.call c).1.signalsEach rest

theorem Sound.balanced_call (h : m.Sound settings ms) (call : ManagerCall) :
    Signal.Balanced m.chunks.size (m.signalsOf call) (m.call call).1.chunks.size := by
  cases call with
  | add line => exact h.balanced_addLine line
  | freezeUntil cutoff => exact balanced_freezeUntil m cutoff
  | removeUntil cutoff => exact balanced_removeUntil m cutoff

theorem Sound.balanced_callEach (h : m.Sound settings ms) (calls : List ManagerCall) :
    Signal.Balanced m.chunks.size (m.signalsEach calls) (m.callEach calls).1.chunks.size := by
  induction calls generalizing m ms with
  | nil => rfl
  | cons call calls ih =>
    obtain ⟨more, h'⟩ := h.step (step_call m call)
    exact (h.balanced_call call).append (ih h')

end Manager

end TimeSeries
