import Mathlib
import TimeSeries.Error

/-!
# Computations that can fail

A result of a chain of steps comes from results of its steps. These lemmas take a chain apart, so
that no later proof has to look into the binds of the monad of errors.
-/

namespace TimeSeries

variable {α β ε : Type} {kind : Error → Prop}

/-- A chain gives a result just if its first step gives one and the rest gives it from there. -/
theorem bind_eq_ok {x : Except ε α} {f : α → Except ε β} {b : β} :
    x >>= f = .ok b ↔ ∃ a, x = .ok a ∧ f a = .ok b := by
  cases x with
  | error e => simp [bind, Except.bind]
  | ok a => simp [bind, Except.bind]

theorem ok_bind (a : α) (f : α → Except Error β) : (Except.ok a >>= f) = f a := rfl

theorem pure_eq_ok {a b : α} : (pure a : Except ε α) = .ok b ↔ a = b := by
  simp [pure, Except.pure]

theorem throw_ne_ok {e : ε} {a : α} : (throw e : Except ε α) ≠ .ok a := by
  simp [throw, throwThe, MonadExceptOf.throw]

/-- A chain that goes on only if a check does not fail. -/
theorem guard_eq_ok {c : Prop} [Decidable c] {e : Error} {f : β → Except Error α}
    {x : Except Error α} {a : α} : (if c then throw e >>= f else x) = .ok a ↔ ¬ c ∧ x = .ok a := by
  by_cases hc : c
  · simp [hc, throw, throwThe, MonadExceptOf.throw, bind, Except.bind]
  · simp [hc]

/-- Each result of a pass through a list comes from an element of the list. -/
theorem exists_of_mem_mapM {f : α → Except Error β} {xs : List α} {ys : List β}
    (h : xs.mapM f = .ok ys) {y : β} (hy : y ∈ ys) : ∃ x ∈ xs, f x = .ok y := by
  induction xs generalizing ys with
  | nil =>
    obtain rfl := pure_eq_ok.mp h
    exact absurd hy (by simp)
  | cons x xs ih =>
    rw [List.mapM_cons] at h
    obtain ⟨z, hz, h⟩ := bind_eq_ok.mp h
    obtain ⟨zs, hzs, h⟩ := bind_eq_ok.mp h
    obtain rfl := pure_eq_ok.mp h
    rcases List.mem_cons.mp hy with rfl | hy
    · exact ⟨x, List.mem_cons_self, hz⟩
    · obtain ⟨w, hw, hok⟩ := ih hzs hy
      exact ⟨w, List.mem_cons_of_mem _ hw, hok⟩

/-- A pass through a list gives a list just if each step gives its element. -/
theorem mapM_eq_ok_iff {f : α → Except Error β} {xs : List α} {ys : List β} :
    xs.mapM f = .ok ys ↔ List.Forall₂ (fun x y => f x = .ok y) xs ys := by
  induction xs generalizing ys with
  | nil => rw [List.mapM_nil, pure_eq_ok, List.forall₂_nil_left_iff, eq_comm]
  | cons x xs ih =>
    rw [List.mapM_cons, List.forall₂_cons_left_iff, bind_eq_ok]
    simp only [bind_eq_ok, pure_eq_ok, ih]
    constructor
    · rintro ⟨y, hy, rest, hrest, rfl⟩
      exact ⟨y, rest, hy, hrest, rfl⟩
    · rintro ⟨y, rest, hy, hrest, rfl⟩
      exact ⟨y, hy, rest, hrest, rfl⟩

/-! ## Kinds of failures -/

/-- Every failure of a computation is of one kind. -/
def FailsOnly (kind : Error → Prop) (x : Except Error α) : Prop := ∀ e, x = .error e → kind e

theorem failsOnly_ok (a : α) : FailsOnly kind (.ok a : Except Error α) := by
  intro e h
  exact absurd h (by simp)

theorem failsOnly_error {e : Error} (h : kind e) : FailsOnly kind (.error e : Except Error α) := by
  intro e' he
  obtain rfl := Except.error.inj he
  exact h

/-- A chain fails in its first step or in the rest. -/
theorem failsOnly_bind {x : Except Error α} {f : α → Except Error β} (hx : FailsOnly kind x)
    (hf : ∀ a, x = .ok a → FailsOnly kind (f a)) : FailsOnly kind (x >>= f) := by
  intro e he
  cases x with
  | error e' =>
    obtain rfl : e' = e := Except.error.inj he
    exact hx e' rfl
  | ok a => exact hf a rfl e he

/-- A chain with a check fails in the check or in the rest. -/
theorem failsOnly_guard {c : Prop} [Decidable c] {e : Error} {f : β → Except Error α}
    {x : Except Error α} (he : kind e) (hx : FailsOnly kind x) :
    FailsOnly kind (if c then throw e >>= f else x) := by
  split
  · exact failsOnly_error he
  · exact hx

/-- A pass through a list fails at one of its elements. -/
theorem failsOnly_mapM {f : α → Except Error β} {xs : List α}
    (hf : ∀ x ∈ xs, FailsOnly kind (f x)) : FailsOnly kind (xs.mapM f) := by
  induction xs with
  | nil => exact failsOnly_ok []
  | cons x xs ih =>
    obtain ⟨hx, hxs⟩ := List.forall_mem_cons.mp hf
    rw [List.mapM_cons]
    refine failsOnly_bind hx fun y _ => ?_
    refine failsOnly_bind (ih hxs) fun ys _ => ?_
    exact failsOnly_ok (y :: ys)

end TimeSeries
