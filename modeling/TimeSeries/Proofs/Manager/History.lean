import Mathlib
import TimeSeries.Manager.Basic
import TimeSeries.Proofs.Dedup
import TimeSeries.Proofs.Manager.Window

/-!
# The history of a manager

Three calls change what a manager holds. What there is to know of a run of such calls is its
*history*: the records that were taken and the cutoffs up to which windows were removed, in the
order of the calls. Calls that fail and calls that freeze leave no trace in it.

`Survives` and `Latest` say directly what the history has to say about a metric and a time. `kept`
says it step by step, as the list of the points that are left, which is what the chunks of a
manager are compared with.
-/

namespace TimeSeries

/-- A call that may change what a manager holds. -/
inductive ManagerCall where
  /-- Adds the point of an ingest line. -/
  | add (line : String)
  /-- Freezes the chunks that end by a cutoff. -/
  | freezeUntil (cutoff : Int)
  /-- Removes the chunks that end by a cutoff. -/
  | removeUntil (cutoff : Int)
  deriving DecidableEq, Repr

/-- What became of a call. -/
inductive ManagerEvent where
  /-- A record was taken. -/
  | taken (r : PutRecord)
  /-- The windows that end by a cutoff were removed. -/
  | removed (cutoff : Int)
  deriving DecidableEq, Repr

/-- Events in their order. -/
abbrev History := List ManagerEvent

namespace Manager

/-- What is noted of adding the point of a line. -/
def noted (m : Manager) (line : String) : History :=
  match PutRecord.parse line, (m.addLine line).result with
  | .ok r, .ok () => [.taken r]
  | _, _ => []

variable [BlockCodec]

/-- The manager after a call, and what is noted of the call. -/
def call (m : Manager) : ManagerCall → Manager × History
  | .add line => ((m.addLine line).state, m.noted line)
  | .freezeUntil cutoff => ((m.freezeUntil cutoff).2.1, [])
  | .removeUntil cutoff => ((m.removeUntil cutoff).2.1, [.removed cutoff])

/-- The manager after some calls, and their history. -/
def callEach (m : Manager) : List ManagerCall → Manager × History
  | [] => (m, [])
  | c :: rest =>
    let (m, noted) := m.call c
    let (m, more) := m.callEach rest
    (m, noted ++ more)

end Manager

namespace History

variable {length t : Int} {h : History} {metric : String} {p : Point} {e : ManagerEvent}

/-- A record of a metric at a time was taken, and its window has not been removed since. -/
def Survives (length : Int) (h : History) (metric : String) (t : Int) : Prop :=
  ∃ before r after, h = before ++ .taken r :: after ∧ r.metric.fullName = metric ∧
    r.point.time = t ∧
    ∀ cutoff, .removed cutoff ∈ after → cutoff < Time.floor length t + length

/-- A point is the one that was taken last for a metric and a time. -/
def Latest (h : History) (metric : String) (p : Point) : Prop :=
  ∃ before r after, h = before ++ .taken r :: after ∧ r.metric.fullName = metric ∧ r.point = p ∧
    ∀ s, .taken s ∈ after → s.metric.fullName = metric → s.point.time ≠ p.time

theorem survives_snoc_taken {r : PutRecord} : Survives length (h ++ [.taken r]) metric t ↔
    (r.metric.fullName = metric ∧ r.point.time = t) ∨ Survives length h metric t := by
  constructor
  · rintro ⟨before, s, after, heq, hname, htime, hleft⟩
    rcases snoc_eq_append_cons.mp heq with ⟨-, hrs, -⟩ | ⟨rest, rfl, hh⟩
    · cases hrs
      exact .inl ⟨hname, htime⟩
    · exact .inr ⟨before, s, rest, hh, hname, htime,
        fun cutoff hc => hleft cutoff (List.mem_append_left _ hc)⟩
  · rintro (⟨hname, htime⟩ | ⟨before, s, after, rfl, hname, htime, hleft⟩)
    · exact ⟨h, r, [], rfl, hname, htime, by simp⟩
    · refine ⟨before, s, after ++ [.taken r], by simp, hname, htime, fun cutoff hc => ?_⟩
      exact hleft cutoff (by simpa using hc)

theorem survives_snoc_removed {cutoff : Int} :
    Survives length (h ++ [.removed cutoff]) metric t ↔
      Survives length h metric t ∧ cutoff < Time.floor length t + length := by
  constructor
  · rintro ⟨before, s, after, heq, hname, htime, hleft⟩
    rcases snoc_eq_append_cons.mp heq with ⟨-, hrs, -⟩ | ⟨rest, rfl, hh⟩
    · cases hrs
    · exact ⟨⟨before, s, rest, hh, hname, htime,
        fun other hc => hleft other (List.mem_append_left _ hc)⟩, hleft cutoff (by simp)⟩
  · rintro ⟨⟨before, s, after, rfl, hname, htime, hleft⟩, hlt⟩
    refine ⟨before, s, after ++ [.removed cutoff], by simp, hname, htime, fun other hc => ?_⟩
    rcases List.mem_append.mp hc with hc | hc
    · exact hleft other hc
    · cases List.mem_singleton.mp hc
      exact hlt

/-- A point stays the latest until another one is taken for its metric and time. -/
theorem Latest.snoc (hl : Latest h metric p)
    (he : ∀ s, e = .taken s → s.metric.fullName = metric → s.point.time ≠ p.time) :
    Latest (h ++ [e]) metric p := by
  obtain ⟨before, r, after, rfl, hname, hp, hlast⟩ := hl
  refine ⟨before, r, after ++ [e], by simp, hname, hp, fun s hs => ?_⟩
  rcases List.mem_append.mp hs with hs | hs
  · exact hlast s hs
  · exact he s (List.mem_singleton.mp hs).symm

theorem latest_taken (r : PutRecord) :
    Latest (h ++ [.taken r]) r.metric.fullName r.point :=
  ⟨h, r, [], rfl, rfl, rfl, by simp⟩

/-! ## The points that are left -/

/-- What an event makes of the points of each metric. -/
def keep (length : Int) (points : String → List Point) : ManagerEvent → String → List Point
  | .taken r => Function.update points r.metric.fullName (points r.metric.fullName ++ [r.point])
  | .removed cutoff => fun metric =>
    (points metric).filter fun p => cutoff < Time.floor length p.time + length

/-- The points of each metric that are left, in the order in which they were taken. -/
def kept (length : Int) (h : History) : String → List Point := h.foldl (keep length) fun _ => []

theorem kept_snoc : kept length (h ++ [e]) = keep length (kept length h) e := by
  rw [kept, List.foldl_append]
  rfl

theorem exists_mem_kept :
    (∃ p ∈ kept length h metric, p.time = t) ↔ Survives length h metric t := by
  induction h using List.reverseRecOn with
  | nil => simp [kept, Survives]
  | append_singleton h e ih =>
    rw [kept_snoc]
    cases e with
    | taken r =>
      rw [survives_snoc_taken, ← ih, keep]
      by_cases hname : metric = r.metric.fullName
      · rw [hname, Function.update_self]
        constructor
        · rintro ⟨p, hp, htime⟩
          rcases List.mem_append.mp hp with hp | hp
          · exact .inr ⟨p, hp, htime⟩
          · exact .inl ⟨rfl, List.mem_singleton.mp hp ▸ htime⟩
        · rintro (⟨-, htime⟩ | ⟨p, hp, htime⟩)
          · exact ⟨r.point, by simp, htime⟩
          · exact ⟨p, List.mem_append_left _ hp, htime⟩
      · rw [Function.update_of_ne hname]
        exact ⟨.inr, fun hor => hor.resolve_left fun hr => hname hr.1.symm⟩
    | removed cutoff =>
      rw [survives_snoc_removed, ← ih, keep]
      constructor
      · rintro ⟨p, hp, rfl⟩
        obtain ⟨hp, hlt⟩ := List.mem_filter.mp hp
        exact ⟨⟨p, hp, rfl⟩, by simpa using hlt⟩
      · rintro ⟨⟨p, hp, rfl⟩, hlt⟩
        exact ⟨p, List.mem_filter.mpr ⟨hp, by simpa using hlt⟩, rfl⟩

/-- Of the points that are left, the last one of each time is the latest. -/
theorem latest_of_lastAt (hp : Point.LastAt (kept length h metric) p) : Latest h metric p := by
  -- an event decides which point of a time is the last one only if it takes one at that time
  induction h using List.reverseRecOn generalizing p with
  | nil => exact absurd hp Point.not_lastAt_nil
  | append_singleton h e ih =>
    rw [kept_snoc] at hp
    cases e with
    | taken r =>
      rw [keep] at hp
      by_cases hname : metric = r.metric.fullName
      · rw [hname, Function.update_self] at hp
        rw [hname] at ih ⊢
        rcases Point.lastAt_snoc.mp hp with rfl | ⟨hp, hne⟩
        · exact latest_taken r
        · refine (ih hp).snoc fun s hs _ => ?_
          cases hs
          exact hne
      · rw [Function.update_of_ne hname] at hp
        refine (ih hp).snoc fun s hs hsn => ?_
        cases hs
        exact absurd hsn.symm hname
    | removed cutoff =>
      rw [keep] at hp
      have hlast := (Point.lastAt_filter fun t =>
        decide (cutoff < Time.floor length t + length)).mp hp
      exact (ih hlast.2).snoc fun s hs => by cases hs

end History

end TimeSeries
