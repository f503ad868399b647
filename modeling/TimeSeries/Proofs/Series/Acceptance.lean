import Mathlib
import TimeSeries.Proofs.Series.RoundTrip

/-!
# Which points a series takes

A series takes a point or leaves everything as it was. What decides is the time alone: it has to
be in the range of its code, and so has the change that it brings to the distance between points.
A series does not keep its points, but the two numbers it keeps, its last time and its last
distance, are functions of the points that it took, and so the rule can be said of those: `Unfit`
does not mention any state. The first point has no point before it. Its distance is counted from
the block in which it lies, and it brings no change.
-/

namespace TimeSeries

/-! ## Changes that have a code -/

variable {change : Int}

theorem ChangeCode.holds_iff {c : ChangeCode} :
    c.holds change = true ↔ -c.bias ≤ change ∧ change ≤ c.bias + 1 := by
  simp only [holds, Bool.and_eq_true, decide_eq_true_eq]

theorem holds_largeChange_iff :
    largeChange.holds change = true ↔ -(2 ^ 31 - 1) ≤ change ∧ change ≤ 2 ^ 31 := by
  have hbias : largeChange.bias = 2 ^ 31 - 1 := rfl
  rw [ChangeCode.holds_iff, hbias]
  omega

/-- A code for smaller changes holds nothing that the code for all others does not hold. -/
theorem holds_largeChange {code : ChangeCode} (hcode : code ∈ smallChanges)
    (h : code.holds change = true) : largeChange.holds change = true := by
  have hbias : ∀ c ∈ smallChanges, c.bias ≤ 2047 := by decide
  have hsmall := hbias code hcode
  rw [ChangeCode.holds_iff] at h
  rw [holds_largeChange_iff]
  omega

theorem changeFields_of_not_holds (h : largeChange.holds change = false) :
    changeFields change = .error (.invalid (.deltaOfDelta change)) := by
  have hzero : change ≠ 0 := by
    intro hzero
    rw [hzero] at h
    exact absurd h (by decide)
  have hsmall : smallChanges.find? (·.holds change) = none := by
    rw [List.find?_eq_none]
    intro code hcode hholds
    rw [holds_largeChange hcode hholds] at h
    exact absurd h (by simp)
  rw [changeFields, if_neg hzero, hsmall, h]
  rfl

theorem exists_changeFields (h : largeChange.holds change = true) :
    ∃ fields, changeFields change = .ok fields := by
  rw [changeFields, h]
  split
  · exact ⟨_, rfl⟩
  · split
    · exact ⟨_, rfl⟩
    · exact ⟨_, rfl⟩

namespace Series

variable {s s' : Series} {ps : List Point} {p : Point}

/-! ## What a series knows of its points -/

/-- The distance to which the distance of the next point is compared: from the last point but one
to the last, and from its block to the first point as long as that is alone. -/
def lastDistance (ps : List Point) : Int :=
  match ps.reverse with
  | [] => 0
  | [p] => p.time % blockSeconds
  | last :: before :: _ => last.time - before.time

theorem lastDistance_concat (ps : List Point) (p : Point) :
    lastDistance (ps ++ [p]) =
      match ps.getLast? with
      | none => p.time % blockSeconds
      | some last => p.time - last.time := by
  rw [List.getLast?_eq_head?_reverse, lastDistance, List.reverse_append]
  cases ps.reverse with
  | nil => rfl
  | cons last rest => rfl

/-- The points of a series are the points it had before the last one, and the last one. -/
theorem Encodes.exists_before (h : s.Encodes (ps ++ [p])) :
    ∃ before : Series, before.Encodes ps ∧ before.append p = (.ok (), s) := by
  suffices hsplit : ∀ start : Series, start.appendAll (ps ++ [p]) = (.ok (), s) →
      ∃ before, start.appendAll ps = (.ok (), before) ∧ before.append p = (.ok (), s) from
    hsplit empty h
  clear h
  intro start hall
  induction ps generalizing start with
  | nil =>
    rw [List.nil_append, appendAll] at hall
    split at hall
    · rename_i after hafter
      obtain rfl : after = s := (Prod.mk.inj hall).2
      exact ⟨start, rfl, hafter⟩
    · exact absurd (Prod.mk.inj hall).1 (by simp)
  | cons q ps ih =>
    rw [List.cons_append, appendAll] at hall
    split at hall
    · rename_i after hafter
      obtain ⟨before, hbefore, happend⟩ := ih after hall
      refine ⟨before, ?_, happend⟩
      rw [appendAll, hafter]
      exact hbefore
    · exact absurd (Prod.mk.inj hall).1 (by simp)

/-- With a point, a series knows its time and how far it is from the point before. -/
theorem last_append (hs : s.WellFormed) (h : s.append p = (.ok (), s')) :
    s'.lastTime = p.time ∧
    s'.lastDelta = if s.count = 0 then p.time % blockSeconds else p.time - s.lastTime := by
  rcases append_cases hs p with ⟨e, he⟩ | ⟨fields, delta, _, _, _, hfields, _, _, _, _, hok⟩
  · rw [he] at h
    exact absurd (Prod.mk.inj h).1 (by simp)
  · rw [hok] at h
    obtain rfl := (Prod.mk.inj h).2
    refine ⟨rfl, ?_⟩
    unfold timeFields at hfields
    split at hfields
    · rename_i hcount
      rw [if_pos hcount]
      exact (Prod.mk.inj (Except.ok.inj hfields)).2.symm
    · rename_i hcount
      obtain ⟨changed, -, hfields⟩ := bind_eq_ok.mp hfields
      rw [if_neg hcount]
      exact (Prod.mk.inj (pure_eq_ok.mp hfields)).2.symm

theorem Encodes.lastTime_eq (h : s.Encodes ps) {last : Point} (hlast : last ∈ ps.getLast?) :
    s.lastTime = last.time := by
  induction ps using List.reverseRecOn with
  | nil => exact absurd hlast (by simp)
  | append_singleton ps p =>
    obtain ⟨before, hbefore, happend⟩ := h.exists_before
    rw [List.getLast?_concat, Option.mem_some_iff] at hlast
    rw [(last_append hbefore.wellFormed happend).1, hlast]

theorem Encodes.lastDelta_eq (h : s.Encodes ps) : s.lastDelta = lastDistance ps := by
  induction ps using List.reverseRecOn with
  | nil =>
    obtain rfl : empty = s := (Prod.mk.inj h).2
    rfl
  | append_singleton ps p =>
    obtain ⟨before, hbefore, happend⟩ := h.exists_before
    rw [(last_append hbefore.wellFormed happend).2, lastDistance_concat, hbefore.count_eq]
    cases hps : ps.getLast? with
    | none =>
      rw [List.getLast?_eq_none_iff.mp hps]
      rfl
    | some last =>
      have hne : ps ≠ [] := by
        intro hnil
        rw [hnil] at hps
        exact absurd hps (by simp)
      rw [if_neg (by rwa [List.length_eq_zero_iff]), hbefore.lastTime_eq hps]

/-! ## Refused points -/

/-- A point that cannot come after these: its time is out of the range of the code, or it changes
the distance between points by more than the code of the changes holds. -/
def Unfit (ps : List Point) (p : Point) : Prop :=
  ¬ (0 ≤ p.time ∧ p.time ≤ maxTime) ∨
  ∃ last ∈ ps.getLast?,
    ¬ (-(2 ^ 31 - 1) ≤ p.time - last.time - lastDistance ps ∧
      p.time - last.time - lastDistance ps ≤ 2 ^ 31)

instance (ps : List Point) (p : Point) : Decidable (Unfit ps p) :=
  inferInstanceAs (Decidable (_ ∨ _))

/-- The first point brings no change, and a further one the change that the points before say. -/
theorem Encodes.timeFields_eq (h : s.Encodes ps) (time : Int) :
    s.timeFields time =
      match ps.getLast? with
      | none => empty.timeFields time
      | some last => do
        let fields ← changeFields (time - last.time - lastDistance ps)
        return (fields, time - last.time) := by
  cases hps : ps.getLast? with
  | none =>
    rw [List.getLast?_eq_none_iff] at hps
    have hcount : s.count = 0 := by rw [h.count_eq, hps, List.length_nil]
    rw [timeFields, if_pos hcount]
    rfl
  | some last =>
    have hcount : s.count ≠ 0 := by
      intro hcount
      rw [h.count_eq, List.length_eq_zero_iff] at hcount
      rw [hcount] at hps
      exact absurd hps (by simp)
    rw [timeFields, if_neg hcount, h.lastTime_eq hps, h.lastDelta_eq]

theorem Encodes.append_of_unfit (h : s.Encodes ps) (hp : Unfit ps p) :
    ∃ why, s.append p = (.error (.invalid why), s) := by
  by_cases hrange : 0 ≤ p.time ∧ p.time ≤ maxTime
  · rcases hp with houtside | ⟨last, hlast, hfar⟩
    · exact absurd hrange houtside
    · rw [← holds_largeChange_iff, Bool.not_eq_true] at hfar
      have hfields := h.timeFields_eq p.time
      rw [hlast] at hfields
      simp only [changeFields_of_not_holds hfar] at hfields
      rw [Series.append, if_pos hrange, hfields]
      exact ⟨_, rfl⟩
  · rw [Series.append, if_neg hrange]
    exact ⟨_, rfl⟩

/-- A point whose fields are known is taken: they are all written. -/
theorem exists_append (hs : s.WellFormed) (hrange : 0 ≤ p.time ∧ p.time ≤ maxTime)
    {coded : List BitField × Int} (hfields : s.timeFields p.time = .ok coded) :
    ∃ s', s.append p = (.ok (), s') := by
  obtain ⟨fields, delta⟩ := coded
  obtain ⟨times, hwrite, -, -⟩ := BitStream.writeAll_ok (writable_timeFields hfields) hs.times
  obtain ⟨values, hwrite', -, -⟩ :=
    BitStream.writeAll_ok (s.writable_bitsFields p.bits) hs.values
  rw [append, if_pos hrange, hfields]
  simp only [hwrite, hwrite']
  exact ⟨_, rfl⟩

theorem Encodes.append_of_fit (h : s.Encodes ps) (hp : ¬ Unfit ps p) :
    ∃ s', s.append p = (.ok (), s') := by
  rw [Unfit, not_or, not_not] at hp
  obtain ⟨hrange, hnear⟩ := hp
  have hfields := h.timeFields_eq p.time
  cases hps : ps.getLast? with
  | none =>
    rw [hps] at hfields
    exact exists_append h.wellFormed hrange hfields
  | some last =>
    obtain ⟨fields, hchange⟩ := exists_changeFields (holds_largeChange_iff.mpr
      (not_not.mp fun hfar => hnear ⟨last, hps, hfar⟩))
    simp only [hps, hchange] at hfields
    exact exists_append h.wellFormed hrange hfields

/-- A refusal says that the point is unfit, and it changes nothing. -/
theorem Encodes.append_eq_error (h : s.Encodes ps) {e : Error} (hp : s.append p = (.error e, s')) :
    s' = s ∧ (∃ why, e = .invalid why) ∧ Unfit ps p := by
  by_cases hunfit : Unfit ps p
  · obtain ⟨why, hwhy⟩ := h.append_of_unfit hunfit
    obtain ⟨hresult, hstate⟩ := Prod.mk.inj (hp.symm.trans hwhy)
    exact ⟨hstate, ⟨why, Except.error.inj hresult⟩, hunfit⟩
  · obtain ⟨after, hok⟩ := h.append_of_fit hunfit
    exact absurd (Prod.mk.inj (hp.symm.trans hok)).1 (by simp)

/-- The first point fits wherever it is. -/
theorem not_unfit_nil (hrange : 0 ≤ p.time ∧ p.time ≤ maxTime) : ¬ Unfit [] p := by
  intro hunfit
  rcases hunfit with houtside | ⟨last, hlast, -⟩
  · exact houtside hrange
  · exact absurd hlast (by simp)

theorem appendEach_append (s : Series) (calls more : List Point) :
    s.appendEach (calls ++ more) =
      ((s.appendEach calls).1 ++ ((s.appendEach calls).2.appendEach more).1,
        ((s.appendEach calls).2.appendEach more).2) := by
  induction calls generalizing s with
  | nil => rfl
  | cons p calls ih =>
    rw [List.cons_append, appendEach, appendEach]
    split
    · simp only [ih, List.cons_append]
    · exact ih _

/-- **A series refuses the unfit points, and nothing comes of them.** After any calls, a point is
taken just if it is fit after the points that were taken before. One that is not is wrong input,
the series is left as it was, and whatever is called from then on goes as without that call. -/
theorem append_refuses_unfit (calls : List Point) (p : Point) :
    let taken := (empty.appendEach calls).1
    let s := (empty.appendEach calls).2
    ((∃ s', s.append p = (.ok (), s')) ↔ ¬ Unfit taken p) ∧
    ((∃ why, s.append p = (.error (.invalid why), s)) ↔ Unfit taken p) ∧
    (Unfit taken p → ∀ more,
      empty.appendEach (calls ++ p :: more) = empty.appendEach (calls ++ more)) := by
  intro taken s
  have h : s.Encodes taken := encodes_appendEach encodes_empty calls
  refine ⟨⟨?_, h.append_of_fit⟩, ⟨?_, h.append_of_unfit⟩, ?_⟩
  · intro htaken hunfit
    obtain ⟨s', hok⟩ := htaken
    obtain ⟨why, hwhy⟩ := h.append_of_unfit hunfit
    exact absurd (Prod.mk.inj (hwhy.symm.trans hok)).1 (by simp)
  · intro hrefused
    obtain ⟨why, hwhy⟩ := hrefused
    exact (h.append_eq_error hwhy).2.2
  · intro hunfit more
    obtain ⟨why, hwhy⟩ := h.append_of_unfit hunfit
    have hskip : s.appendEach (p :: more) = s.appendEach more := by
      rw [appendEach, hwhy]
    rw [appendEach_append, appendEach_append empty calls more, hskip]

/-- From zero to half of the range and back to zero is too much of a change by one, and so nothing
comes of it, nor of the time before the epoch. Back to one is within the code. -/
theorem append_refuses_unfit_sample :
    let calls : List Point := [⟨0, 0⟩, ⟨-1, 0⟩, ⟨1073741824, 0⟩]
    let s := (empty.appendEach calls).2
    (empty.appendEach calls).1 = [⟨0, 0⟩, ⟨1073741824, 0⟩] ∧
    (∃ s', s.append ⟨1, 0⟩ = (.ok (), s')) ∧
    (∃ why, s.append ⟨0, 0⟩ = (.error (.invalid why), s)) ∧
    empty.appendEach (calls ++ [⟨0, 0⟩, ⟨2147483647, 1⟩]) =
      empty.appendEach (calls ++ [⟨2147483647, 1⟩]) := by
  intro calls s
  have htaken : (empty.appendEach calls).1 = [⟨0, 0⟩, ⟨1073741824, 0⟩] := by rfl
  have hfit : ¬ Unfit (empty.appendEach calls).1 ⟨1, 0⟩ := by
    rw [htaken]
    decide
  have hunfit : Unfit (empty.appendEach calls).1 ⟨0, 0⟩ := by
    rw [htaken]
    decide
  obtain ⟨-, hrefuse, hskip⟩ := append_refuses_unfit calls ⟨0, 0⟩
  exact ⟨htaken, (append_refuses_unfit calls ⟨1, 0⟩).1.mpr hfit, hrefuse.mpr hunfit,
    hskip hunfit [⟨2147483647, 1⟩]⟩

end Series

end TimeSeries
