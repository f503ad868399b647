import Mathlib
import TimeSeries.Daemon.CommandLine
import TimeSeries.Proofs.Document

/-!
# Options and their variables

Two options can be given by variables of the environment. The command line in force is the one that
was given, and where it leaves such an option out, the text of the variable. Everything else about
the environment is of no consequence to it.
-/

namespace TimeSeries

namespace CommandLine

variable {args : List String} {env : List (String × String)}
  {line line' flags : CommandLine} {o : ValueOption}

/-- The text of the variable that stands in for an option. -/
def standIn? (env : List (String × String)) (o : ValueOption) : Option String :=
  o.variableName?.bind fun name => env.lookup name

theorem addValue_eq_some {text : String} (h : line.addValue o text = some line') :
    line'.switches = line.switches ∧
      ∀ o', line'.value? o' = if o' = o then some text else line.value? o' := by
  rw [addValue] at h
  split at h
  · cases h
  · obtain rfl := Option.some_inj.mp h
    refine ⟨rfl, fun o' => ?_⟩
    rw [value?, lookup_cons_eq]
    rfl

/-- An option that is absent gets the text of its variable, and nothing else changes. -/
theorem addVariable_eq_some (h : addVariable env line o = some line') :
    line'.switches = line.switches ∧
      ∀ o', line'.value? o' =
        if o' = o then line.value? o <|> standIn? env o else line.value? o' := by
  have hsame (hvalue : (line.value? o <|> standIn? env o) = line.value? o) (o' : ValueOption) :
      line.value? o' = if o' = o then line.value? o <|> standIn? env o else line.value? o' := by
    split
    · next ho => rw [ho, hvalue]
    · rfl
  rw [addVariable] at h
  split at h
  · next hsome =>
    obtain rfl := Option.some_inj.mp h
    obtain ⟨text, htext⟩ := Option.isSome_iff_exists.mp hsome
    exact ⟨rfl, hsame (by rw [htext]; rfl)⟩
  · next hnone =>
    have habsent : line.value? o = none := by simpa using hnone
    split at h
    · next hvariable =>
      obtain rfl := Option.some_inj.mp h
      have hvariable' : standIn? env o = none := hvariable
      exact ⟨rfl, hsame (by rw [habsent, hvariable']; rfl)⟩
    · next text hvariable =>
      have hvariable' : standIn? env o = some text := hvariable
      obtain ⟨hswitches, hvalue⟩ := addValue_eq_some h
      refine ⟨hswitches, fun o' => ?_⟩
      rw [hvalue, habsent, hvariable']
      rfl

/-- The options in force are those that were given and the variables that stand in for others. -/
theorem parse?_eq_run (h : parse? args env = some (.run line)) :
    ∃ flags, parseFrom {} none args = some (.run flags) ∧ line.switches = flags.switches ∧
      ∀ o, line.value? o = (flags.value? o <|> standIn? env o) := by
  rw [parse?, Option.bind_eq_bind, Option.bind_eq_some_iff] at h
  obtain ⟨invocation, hparse, h⟩ := h
  cases invocation with
  | version => cases h
  | run flags =>
    simp only [Option.bind_eq_bind, Option.bind_eq_some_iff] at h
    obtain ⟨line₁, h₁, line₂, h₂, h⟩ := h
    cases h
    obtain ⟨hswitches₁, hvalue₁⟩ := addVariable_eq_some h₁
    obtain ⟨hswitches₂, hvalue₂⟩ := addVariable_eq_some h₂
    refine ⟨flags, hparse, hswitches₂.trans hswitches₁, fun o => ?_⟩
    rw [hvalue₂, hvalue₁, hvalue₁]
    cases o <;> simp [standIn?, ValueOption.variableName?]

/-- A variable that is empty is no value for an option that names a file. -/
theorem addVariable_empty (hpath : o.isPath = true) (habsent : line.value? o = none)
    (hempty : standIn? env o = some "") : addVariable env line o = none := by
  have hvariable : (o.variableName?.bind fun name => env.lookup name) = some "" := hempty
  rw [addVariable, hvariable, habsent]
  simp [addValue, hpath]

theorem addVariable_congr {env' : List (String × String)}
    (h : line.value? o = none → standIn? env o = standIn? env' o) :
    addVariable env line o = addVariable env' line o := by
  cases hvalue : line.value? o with
  | some text => rw [addVariable, addVariable, hvalue]; rfl
  | none =>
    have hsame : (o.variableName?.bind fun name => env.lookup name) =
        o.variableName?.bind fun name => env'.lookup name := h hvalue
    rw [addVariable, addVariable, hsame]

/-- The environment counts only where a variable stands in for an option that is absent. -/
theorem parse?_congr {env' : List (String × String)}
    (h : ∀ flags o, parseFrom {} none args = some (.run flags) → flags.value? o = none →
      standIn? env o = standIn? env' o) :
    parse? args env = parse? args env' := by
  rw [parse?, parse?]
  refine Option.bind_congr fun invocation hparse => ?_
  cases invocation with
  | version => rfl
  | run flags =>
    dsimp only
    rw [addVariable_congr (h flags .config hparse)]
    refine Option.bind_congr fun line hline => ?_
    have hvalue : line.value? .httpBind = flags.value? .httpBind :=
      (addVariable_eq_some hline).2 .httpBind
    rw [addVariable_congr fun habsent => h flags .httpBind hparse (hvalue ▸ habsent)]

end CommandLine

end TimeSeries
