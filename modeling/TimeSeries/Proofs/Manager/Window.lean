import Mathlib
import TimeSeries.Chunk
import TimeSeries.Series
import TimeSeries.Time

/-!
# Windows

A window that begins at a multiple of its length is the window of each of its times. As long as the
times of points are in the range that a series can take, the window of a time fits into 64 bits for
any length: a length that is greater than a time has its window start at 0, and any other is in that
range itself.
-/

namespace TimeSeries

/-- A time that a point in a series can have. -/
def PointTime (t : Int) : Prop := 0 ≤ t ∧ t ≤ maxTime

namespace Time

variable {n a b length t : Int}

theorem ofSeconds?_of_fits (h : Fits n) : ofSeconds? n = some n := if_pos h

theorem fits_of_mem (h : 0 ≤ n) (h' : n ≤ lastTime) : Fits n := by
  have hmin : Text.minInt64 ≤ 0 := by decide
  exact ⟨hmin.trans h, h'⟩

theorem minus?_of_fits (h : Fits (a - b)) : minus? a b = some (a - b) := ofSeconds?_of_fits h

/-- Counting back from a time that is not negative leads to no time that does not fit. -/
theorem fits_sub_of_mem (ha : 0 ≤ a) (ha' : a ≤ lastTime) (hb : 0 ≤ b) (hb' : b ≤ lastTime) :
    Fits (a - b) := by
  have hmin : Text.minInt64 ≤ -lastTime := by decide
  exact ⟨by omega, by omega⟩

theorem floor_le (hl : 0 < length) (t : Int) : floor length t ≤ t :=
  Int.sub_le_self t (Int.emod_nonneg t (Int.ne_of_gt hl))

theorem lt_floor_add (hl : 0 < length) (t : Int) : t < floor length t + length := by
  have hmod := Int.emod_lt_of_pos t hl
  rw [floor]
  omega

/-- A window that begins at a multiple of the length is the window of each of its times. -/
theorem floor_eq {start : Int} (hdvd : length ∣ start) (h : start ≤ t) (h' : t < start + length) :
    floor length t = start := by
  have hrest : t % length = t - start := by
    obtain ⟨k, rfl⟩ := hdvd
    rw [← Int.sub_mul_emod_self_left t length k]
    exact Int.emod_eq_of_lt (by omega) (by omega)
  rw [floor, hrest]
  omega

theorem floor_nonneg (hl : 0 < length) (h : 0 ≤ t) : 0 ≤ floor length t := by
  rw [floor]
  rcases Int.lt_or_le t length with hlt | hle
  · rw [Int.emod_eq_of_lt h hlt, Int.sub_self]
  · have hmod := Int.emod_lt_of_pos t hl
    omega

/-- A window ends in the range of times. -/
theorem floor_add_le (hl : 0 < length) (hl' : length ≤ lastTime) (ht : PointTime t) :
    floor length t + length ≤ lastTime := by
  obtain ⟨h0, hmax⟩ := ht
  rw [lastTime] at *
  rw [maxTime] at hmax
  rcases Int.lt_or_le t length with hlt | hle
  · rw [floor, Int.emod_eq_of_lt h0 hlt]
    omega
  · have hfloor := floor_le hl t
    omega

/-- The window of the time of a point fits. -/
theorem fits_window_of_pointTime (hl : 0 < length) (hl' : length ≤ lastTime) (ht : PointTime t) :
    Fits (floor length t) ∧ Fits (floor length t + length) := by
  have hnonneg := floor_nonneg hl ht.1
  have hstop := floor_add_le hl hl' ht
  exact ⟨fits_of_mem hnonneg (by omega), fits_of_mem (by omega) hstop⟩

end Time

/-- A window with its end meets a range just if neither lies behind the other. -/
theorem ChunkInfo.overlaps_iff {info : ChunkInfo} {first last : Int} (hi : info.start ≤ info.stop)
    (h : first ≤ last) :
    info.overlaps first last = true ↔ info.start ≤ last ∧ first ≤ info.stop := by
  simp only [overlaps, Bool.or_eq_true, Bool.and_eq_true, decide_eq_true_eq]
  omega

end TimeSeries
