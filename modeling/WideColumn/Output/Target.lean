import WideColumn.Output.Event

/-!
# Targets of output

A target receives the events of a session one after the other. It remembers whether anything could
not be written. `Recording` is the target that keeps the events themselves.
-/

namespace WideColumn

/-- What can receive output. -/
class OutputTarget (ω : Type) where
  receive : Event → ω → ω
  /-- Whether something could not be written. -/
  isBroken : ω → Bool

namespace OutputTarget

variable {ω : Type} [OutputTarget ω]

/-- The target after several events. -/
def receiveAll (events : List Event) (target : ω) : ω :=
  events.foldl (fun target event => receive event target) target

end OutputTarget

/-- The events received, earliest first. -/
structure Recording where
  events : List Event := []
  deriving DecidableEq, Inhabited

instance : OutputTarget Recording where
  receive event recording := ⟨recording.events ++ [event]⟩
  isBroken _ := false

end WideColumn
