import TimeSeries.Error
import TimeSeries.Telemetry.Event
import TimeSeries.Telemetry.Meter

/-!
# Effects

An operation of the store answers or fails, leaves a state behind in either case, and sends
signals on the way: events and measurements.
-/

namespace TimeSeries

/-- What an operation tells the outside while it works. -/
inductive Signal where
  | event (e : StoreEvent)
  | measured (m : Measurement)
  deriving DecidableEq, Repr

/-- The events among signals. -/
def Signal.events (signals : List Signal) : List StoreEvent :=
  signals.filterMap fun
    | .event e => some e
    | .measured _ => none

theorem Signal.events_append (signals more : List Signal) :
    events (signals ++ more) = events signals ++ events more := List.filterMap_append

/-- The measurements among signals. -/
def Signal.measurements (signals : List Signal) : List Measurement :=
  signals.filterMap fun
    | .event _ => none
    | .measured m => some m

/-- What becomes of an operation: its result, the state after it, and its signals in order. -/
structure Effect (σ α : Type) where
  result : Except Error α
  state : σ
  signals : List Signal := []

namespace Effect

variable {σ α β : Type}

/-- Sends further signals before those of an effect. -/
def after (signals : List Signal) (x : Effect σ α) : Effect σ α :=
  { x with signals := signals ++ x.signals }

/-- Goes on with the answer, unless there is none. -/
def andThen (x : Effect σ α) (f : α → σ → Effect σ β) : Effect σ β :=
  match x.result with
  | .ok a => (f a x.state).after x.signals
  | .error e => ⟨.error e, x.state, x.signals⟩

/-- Goes on with the answer, unless there is none. What follows may stop. -/
def andThen? (x : Effect σ α) (f : α → σ → Option (Effect σ β)) : Option (Effect σ β) :=
  match x.result with
  | .ok a => (f a x.state).map (·.after x.signals)
  | .error e => some ⟨.error e, x.state, x.signals⟩

end Effect

end TimeSeries
