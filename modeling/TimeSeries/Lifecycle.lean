import TimeSeries.Manager.Basic

/-!
# The lifecycle of chunks

A pass of the lifecycle removes the chunks that have become stale and then freezes those that ended
long enough ago. Both are counted back from the time of the pass. The worker makes passes on
demand and reports each of them.

A cutoff is a time. A pass so early that there is no time for one of its cutoffs stops and gives
`none`.
-/

namespace TimeSeries

/-- How long after its end a chunk is frozen and removed, and how often passes are made. -/
structure LifecycleSettings where
  metricsDelay : Int := 900
  staleDelay : Int := 21600
  intervalMillis : Nat := 60000
  deriving DecidableEq, Repr

/-- What a pass did. -/
structure LifecycleReport where
  deleted : Nat
  frozen : Nat
  deriving DecidableEq, Repr

namespace LifecycleSettings

/-- Accepts an interval between passes. -/
def validateInterval (millis : Nat) : Except Error Unit :=
  if millis = 0 then .error (.misconfigured .lifecycleInterval) else .ok ()

/-- Accepts settings in which no chunk is stale before it is frozen. -/
def validate (s : LifecycleSettings) : Except Error Unit :=
  if s.metricsDelay < 0 then .error (.misconfigured (.metricsDelay s.metricsDelay))
  else if s.staleDelay < s.metricsDelay then
    .error (.misconfigured (.staleDelay s.staleDelay s.metricsDelay))
  else validateInterval s.intervalMillis

end LifecycleSettings

namespace Manager

/-- Freezes the chunks that end by a cutoff, which has to be positive. -/
def freezePast [BlockCodec] (m : Manager) (cutoff : Int) : Effect Manager Nat :=
  if cutoff ≤ 0 then ⟨.error (.invalid (.readOnlyCutoff cutoff)), m, []⟩
  else
    let (count, m, signals) := m.freezeUntil cutoff
    ⟨.ok count, m, signals⟩

/-- Removes the chunks that end by a cutoff, which has to be positive. -/
def removePast (m : Manager) (cutoff : Int) : Effect Manager Nat :=
  if cutoff ≤ 0 then ⟨.error (.invalid (.staleCutoff cutoff)), m, []⟩
  else
    let (count, m, signals) := m.removeUntil cutoff
    ⟨.ok count, m, signals⟩

end Manager

namespace LifecycleSettings

/-- Freezes the chunks that ended long enough before a time. -/
def freezeAt [BlockCodec] (s : LifecycleSettings) (m : Manager) (now : Int) :
    Option (Effect Manager Nat) :=
  (Time.minus? now s.metricsDelay).map m.freezePast

/-- Removes the chunks that are stale at a time. -/
def removeAt (s : LifecycleSettings) (m : Manager) (now : Int) : Option (Effect Manager Nat) :=
  (Time.minus? now s.staleDelay).map m.removePast

/-- Makes a pass at a time. Removing comes first, so that no chunk is frozen only to be removed. -/
def runAt [BlockCodec] (s : LifecycleSettings) (m : Manager) (now : Int) :
    Option (Effect Manager LifecycleReport) := do
  (← s.removeAt m now).andThen? fun deleted m => do
    return (← s.freezeAt m now).andThen fun frozen m => ⟨.ok ⟨deleted, frozen⟩, m, []⟩

/-- The signals of a pass that was made. Nothing done is not counted. -/
def reportSignals (now : Int) (r : LifecycleReport) : List Signal :=
  [.measured (.time .lifecycleTime)] ++
    (if 0 < r.deleted then [.measured (.number .deletedChunks r.deleted)] else []) ++
    (if 0 < r.frozen then [.measured (.number .frozenChunks r.frozen)] else []) ++
    [.event (.lifecycleRunCompleted now r.deleted r.frozen)]

/-- Makes a pass at a time and reports it. -/
def runReported [BlockCodec] (s : LifecycleSettings) (m : Manager) (now : Int) :
    Option (Effect Manager LifecycleReport) := do
  let x ← s.runAt m now
  let report := match x.result with
    | .ok r => reportSignals now r
    | .error e => [.event (.lifecycleRunFailed now e.message)]
  return { x with signals := x.signals ++ report }

/-- Makes passes at some times and reports them. -/
def runAll [BlockCodec] (s : LifecycleSettings) :
    List Int → Manager → Option (List (Except Error LifecycleReport) × Manager × List Signal)
  | [], m => some ([], m, [])
  | now :: rest, m => do
    let x ← s.runReported m now
    let (results, m, signals) ← s.runAll rest x.state
    return (x.result :: results, m, x.signals ++ signals)

/-- The life of a worker that is asked for passes at some times and then stopped. -/
def work [BlockCodec] (s : LifecycleSettings) (intervalMillis : Nat) (times : List Int)
    (m : Manager) : Option (Effect Manager (List (Except Error LifecycleReport))) :=
  match validateInterval intervalMillis with
  | .error e => some ⟨.error e, m, []⟩
  | .ok () => do
    let (results, m, signals) ← s.runAll times m
    return ⟨.ok results, m, [.event .lifecycleStarted] ++ signals ++ [.event .lifecycleStopping]⟩

end LifecycleSettings

end TimeSeries
