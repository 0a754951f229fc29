import WideColumn.Error

/-!
# Steps that may fail

An `Action σ α` is a step on a state that either returns a value or fails with an `Error`; in both
cases it says which state it has reached, so a failing step keeps what it did before it failed.
Actions form a monad in which the first failure ends the sequence.
-/

namespace WideColumn

/-- A step on a state that may fail and keeps the state it has reached. -/
def Action (σ α : Type) : Type :=
  σ → Except Error α × σ

namespace Action

variable {σ τ α β : Type}

/-- The step that returns a value and changes nothing. -/
protected def pure (value : α) : Action σ α :=
  fun state => (.ok value, state)

/-- One step after another; a failure of the first is the failure of both. -/
protected def bind (first : Action σ α) (next : α → Action σ β) : Action σ β :=
  fun state =>
    match first state with
    | (.ok value, reached) => next value reached
    | (.error error, reached) => (.error error, reached)

instance : Monad (Action σ) where
  pure := Action.pure
  bind := Action.bind

/-- The step that fails and changes nothing. -/
def fail (error : Error) : Action σ α :=
  fun state => (.error error, state)

/-- The step that returns what is given, or fails with what is given. -/
def ofExcept (result : Except Error α) : Action σ α :=
  fun state => (result, state)

/-- The step that returns a reading of the state. -/
def read (view : σ → α) : Action σ α :=
  fun state => (.ok (view state), state)

/-- The step that returns a reading of the state, or fails where there is none. -/
def check (view : σ → Except Error α) : Action σ α :=
  fun state => (view state, state)

/-- The step that fails unless a condition holds. -/
def require (condition : Bool) (error : Error) : Action σ Unit :=
  fun state => (if condition then .ok () else .error error, state)

/-- The step that changes the state. -/
def modify (change : σ → σ) : Action σ Unit :=
  fun state => (.ok (), change state)

/-- The step that changes the state and returns what the change gives. -/
def advance (change : σ → α × σ) : Action σ α :=
  fun state => (.ok (change state).1, (change state).2)

/-- A step on a part of a larger state. -/
def within (part : τ → σ) (replace : τ → σ → τ) (step : Action σ α) : Action τ α :=
  fun state =>
    let result := step (part state)
    (result.1, replace state result.2)

end Action

end WideColumn
