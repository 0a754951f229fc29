import WideColumn.Action

/-!
# Outcomes of steps that may fail

A sequence of steps returns a value exactly when all its parts do (`WideColumn.Action.bind_ok_iff`),
and for each kind of first part it is known what it hands to the rest and in which state. These
equivalences take a client call apart into its checks and its changes.

Nothing undoes what a failing sequence did before it failed. A sequence that only looks at the state
until its last check has succeeded leaves the state alone when it fails
(`WideColumn.Action.Atomic.bind_of_looks`, `WideColumn.Action.Sure.atomic`).
-/

namespace WideColumn

/-- A sequence of results is a value exactly when both are. -/
theorem except_bind_ok_iff {ε α β : Type} {first : Except ε α} {next : α → Except ε β} {value : β} :
    (first >>= next) = .ok value ↔ ∃ middle, first = .ok middle ∧ next middle = .ok value := by
  cases first with
  | error error => simp [bind, Except.bind]
  | ok middle => simp [bind, Except.bind]

/-- A sequence of results fails when the first does, or else the second. -/
theorem except_bind_error_iff {ε α β : Type} {first : Except ε α} {next : α → Except ε β}
    {error : ε} :
    (first >>= next) = .error error ↔
      first = .error error ∨ ∃ middle, first = .ok middle ∧ next middle = .error error := by
  cases first with
  | error error => simp [bind, Except.bind]
  | ok middle => simp [bind, Except.bind]

/-- A result is a success exactly if it has a value. -/
theorem except_isOk_iff {ε α : Type} {result : Except ε α} :
    result.isOk = true ↔ ∃ value, result = .ok value := by
  cases result with
  | error error => simp [Except.isOk, Except.toBool]
  | ok value => simp [Except.isOk, Except.toBool]

instance decidableEqExcept {ε α : Type} [DecidableEq ε] [DecidableEq α] : DecidableEq (Except ε α)
  | .ok first, .ok second => decidable_of_iff (first = second) (by simp)
  | .error first, .error second => decidable_of_iff (first = second) (by simp)
  | .ok _, .error _ => isFalse nofun
  | .error _, .ok _ => isFalse nofun

namespace Action

variable {σ α β : Type}

/-- A sequence returns a value exactly when its first step returns one and the rest does from the
state reached. -/
theorem bind_ok_iff {first : Action σ α} {next : α → Action σ β} {state reached : σ} {value : β} :
    (first >>= next) state = (.ok value, reached) ↔
      ∃ middle between, first state = (.ok middle, between) ∧
        next middle between = (.ok value, reached) := by
  change Action.bind first next state = _ ↔ _
  unfold Action.bind
  constructor
  · intro done
    split at done
    next middle between found => exact ⟨middle, between, found, done⟩
    next => cases done
  · rintro ⟨middle, between, found, done⟩
    rw [found]
    exact done

/-- A step that only returns leaves the state. -/
theorem pure_ok_iff {given value : α} {state reached : σ} :
    (Pure.pure given : Action σ α) state = (.ok value, reached) ↔
      value = given ∧ reached = state := by
  change ((Except.ok given, state) : Except Error α × σ) = _ ↔ _
  simp only [Prod.mk.injEq, Except.ok.injEq, eq_comm]

/-- A check succeeds with what it sees and leaves the state. -/
theorem check_ok_iff {view : σ → Except Error α} {value : α} {state reached : σ} :
    check view state = (.ok value, reached) ↔ view state = .ok value ∧ reached = state := by
  simp only [check, Prod.mk.injEq, eq_comm]

theorem modify_ok_iff {change : σ → σ} {value : Unit} {state reached : σ} :
    modify change state = (.ok value, reached) ↔ reached = change state := by
  simp only [modify, Prod.mk.injEq, true_and, eq_comm]

section Bind

variable {next : α → Action σ β} {state reached : σ} {value : β}

/-- A result in front of a sequence has to be a success. -/
theorem ofExcept_bind_ok_iff {result : Except Error α} :
    (ofExcept result >>= next) state = (.ok value, reached) ↔
      ∃ middle, result = .ok middle ∧ next middle state = (.ok value, reached) := by
  simp only [bind_ok_iff, ofExcept, Prod.mk.injEq, and_assoc, exists_and_left, exists_eq_left']

/-- A check in front of a sequence has to succeed. -/
theorem check_bind_ok_iff {view : σ → Except Error α} :
    (check view >>= next) state = (.ok value, reached) ↔
      ∃ middle, view state = .ok middle ∧ next middle state = (.ok value, reached) := by
  simp only [bind_ok_iff, check, Prod.mk.injEq, and_assoc, exists_and_left, exists_eq_left']

/-- A look in front of a sequence passes on what it sees. -/
theorem read_bind_ok_iff {view : σ → α} :
    (read view >>= next) state = (.ok value, reached) ↔
      next (view state) state = (.ok value, reached) :=
  Iff.rfl

/-- A requirement in front of a sequence has to hold. -/
theorem require_bind_ok_iff {next : Unit → Action σ β} {condition : Bool} {error : Error} :
    (require condition error >>= next) state = (.ok value, reached) ↔
      condition = true ∧ next () state = (.ok value, reached) := by
  cases condition with
  | false => simp [bind_ok_iff, require]
  | true => exact (and_iff_right rfl).symm

/-- A change in front of a sequence is what the rest starts from. -/
theorem modify_bind_ok_iff {next : Unit → Action σ β} {change : σ → σ} :
    (modify change >>= next) state = (.ok value, reached) ↔
      next () (change state) = (.ok value, reached) :=
  Iff.rfl

/-- An advance in front of a sequence passes on its value and its state. -/
theorem advance_bind_ok_iff {change : σ → α × σ} :
    (advance change >>= next) state = (.ok value, reached) ↔
      next (change state).1 (change state).2 = (.ok value, reached) :=
  Iff.rfl

end Bind

section Outcome

variable {first : Action σ α} {next : α → Action σ β} {state between : σ}

/-- Behind a success a sequence goes on. -/
theorem bind_of_ok {value : α} (done : first state = (.ok value, between)) :
    (first >>= next) state = next value between := by
  change Action.bind first next state = _
  unfold Action.bind
  rw [done]

/-- Behind a failure a sequence stops. -/
theorem bind_of_error {error : Error} (failed : first state = (.error error, between)) :
    (first >>= next) state = (.error error, between) := by
  change Action.bind first next state = _
  unfold Action.bind
  rw [failed]

/-- Behind a check that succeeds a sequence goes on from the same state. -/
theorem check_bind_of_ok (view : σ → Except Error α) {value : α} (passed : view state = .ok value) :
    (check view >>= next) state = next value state :=
  bind_of_ok (by rw [check, passed])

/-- Behind a requirement that holds a sequence goes on from the same state. -/
theorem require_bind_of_true {next : Unit → Action σ β} {condition : Bool} {error : Error}
    (holds : condition = true) : (require condition error >>= next) state = next () state := by
  rw [holds]
  rfl

/-- At a requirement that does not hold a sequence stops. -/
theorem require_bind_of_false {next : Unit → Action σ β} {condition : Bool} {error : Error}
    (fails : condition = false) :
    (require condition error >>= next) state = (.error error, state) := by
  rw [fails]
  rfl

end Outcome

section Result

variable {next : α → Action σ β} {state : σ}

/-- What a sequence returns after a step that only looks. -/
theorem check_bind_result {view : σ → Except Error α} :
    ((check view >>= next) state).1 = view state >>= fun value => (next value state).1 := by
  change (Action.bind (check view) next state).1 = _
  unfold Action.bind check
  cases view state <;> rfl

/-- A result in front of a sequence decides with the rest what comes out. -/
theorem ofExcept_bind_result {result : Except Error α} :
    ((ofExcept result >>= next) state).1 = result >>= fun value => (next value state).1 :=
  check_bind_result

end Result

/-- Whether a step leaves every state as it is. -/
def Looks (step : Action σ α) : Prop :=
  ∀ state, (step state).2 = state

/-- Whether a step never fails. -/
def Sure (step : Action σ α) : Prop :=
  ∀ state error, (step state).1 ≠ .error error

/-- Whether a step leaves the state as it is when it fails. -/
def Atomic (step : Action σ α) : Prop :=
  ∀ state error, (step state).1 = .error error → (step state).2 = state

/-- The outcome of a sequence is that of its first step when it fails, and otherwise that of the
rest. -/
theorem bind_cases (first : Action σ α) (next : α → Action σ β) (state : σ) :
    (∃ error, (first state).1 = .error error ∧
        (first >>= next) state = (.error error, (first state).2)) ∨
      ∃ value, (first state).1 = .ok value ∧
        (first >>= next) state = next value (first state).2 := by
  change (∃ error, _ ∧ Action.bind first next state = _) ∨
    ∃ value, _ ∧ Action.bind first next state = _
  unfold Action.bind
  cases found : first state with
  | mk result reached =>
      cases result with
      | ok value => exact Or.inr ⟨value, rfl, rfl⟩
      | error error => exact Or.inl ⟨error, rfl, rfl⟩

theorem ofExcept_looks (result : Except Error α) : (ofExcept result : Action σ α).Looks :=
  fun _ => rfl

theorem read_looks (view : σ → α) : (read view).Looks :=
  fun _ => rfl

theorem check_looks (view : σ → Except Error α) : (check view).Looks :=
  fun _ => rfl

theorem require_looks (condition : Bool) (error : Error) :
    (require condition error : Action σ Unit).Looks :=
  fun _ => rfl

theorem Looks.atomic {step : Action σ α} (looks : step.Looks) : step.Atomic :=
  fun state _ _ => looks state

theorem pure_sure (value : α) : (Pure.pure value : Action σ α).Sure :=
  fun _ _ failed => nomatch failed

theorem read_sure (view : σ → α) : (read view).Sure :=
  fun _ _ failed => nomatch failed

theorem modify_sure (change : σ → σ) : (modify change).Sure :=
  fun _ _ failed => nomatch failed

theorem advance_sure (change : σ → α × σ) : (advance change).Sure :=
  fun _ _ failed => nomatch failed

/-- A sequence of steps that cannot fail cannot fail. -/
theorem Sure.bind {first : Action σ α} {next : α → Action σ β} (sure : first.Sure)
    (later : ∀ value, (next value).Sure) : (first >>= next).Sure := by
  intro state error failed
  rcases bind_cases first next state with ⟨cause, stopped, _⟩ | ⟨value, _, same⟩
  · exact sure state cause stopped
  · rw [same] at failed
    exact later value _ error failed

theorem Sure.atomic {step : Action σ α} (sure : step.Sure) : step.Atomic :=
  fun state error failed => (sure state error failed).elim

/-- After a step that only looks, a sequence leaves the state alone on failure if its rest does. -/
theorem Atomic.bind_of_looks {first : Action σ α} {next : α → Action σ β} (looks : first.Looks)
    (later : ∀ value, (next value).Atomic) : (first >>= next).Atomic := by
  intro state error failed
  rcases bind_cases first next state with ⟨cause, _, same⟩ | ⟨value, _, same⟩
  · rw [same]
    exact looks state
  · rw [same] at failed ⊢
    rw [looks state] at failed ⊢
    exact later value state error failed

/-- Whether every failure of a step from a state is of one kind. -/
def FailsOnly (kind : Error → Prop) (step : Action σ α) (state : σ) : Prop :=
  ∀ error, (step state).1 = .error error → kind error

/-- A sequence fails only as its parts do. -/
theorem FailsOnly.bind {kind : Error → Prop} {first : Action σ α} {next : α → Action σ β}
    {state : σ} (failure : first.FailsOnly kind state)
    (later : ∀ value reached, first state = (.ok value, reached) →
      (next value).FailsOnly kind reached) : (first >>= next).FailsOnly kind state := by
  intro error failed
  rcases bind_cases first next state with ⟨cause, stopped, same⟩ | ⟨value, passed, same⟩
  · rw [same] at failed
    cases failed
    exact failure error stopped
  · rw [same] at failed
    exact later value _ (Prod.ext passed rfl) error failed

section FailsOnly

variable {kind : Error → Prop} {state : σ} {next : α → Action σ β}

/-- A step that takes what is given may hand it on or fail with it. -/
theorem FailsOnly.ofExcept_bind {result : Except Error α}
    (failure : ∀ error, result = .error error → kind error)
    (later : ∀ value, result = .ok value → (next value).FailsOnly kind state) :
    (ofExcept result >>= next).FailsOnly kind state :=
  FailsOnly.bind failure fun value _ passed => by
    obtain ⟨found, rfl⟩ := Prod.mk.inj passed
    exact later value found

/-- A check in front of a sequence may fail as well. -/
theorem FailsOnly.check_bind {view : σ → Except Error α}
    (failure : ∀ error, view state = .error error → kind error)
    (later : ∀ value, view state = .ok value → (next value).FailsOnly kind state) :
    (check view >>= next).FailsOnly kind state :=
  FailsOnly.bind failure fun value _ passed => by
    obtain ⟨found, rfl⟩ := Prod.mk.inj passed
    exact later value found

/-- A requirement in front of a sequence may fail as well. -/
theorem FailsOnly.require_bind {condition : Bool} {error : Error} {next : Unit → Action σ β}
    (failure : kind error) (later : condition = true → (next ()).FailsOnly kind state) :
    (require condition error >>= next).FailsOnly kind state := by
  cases condition with
  | false =>
      rintro _ ⟨⟩
      exact failure
  | true => exact later rfl

end FailsOnly

/-- Whether every value that a step returns has a property. -/
def Gives (property : α → Prop) (step : Action σ α) : Prop :=
  ∀ state value, (step state).1 = .ok value → property value

section Gives

variable {property : α → Prop}

theorem gives_pure {value : α} (holds : property value) :
    (Pure.pure value : Action σ α).Gives property := by
  rintro state _ ⟨⟩
  exact holds

/-- A sequence gives what its last step gives. -/
theorem Gives.bind {earlier : β → Prop} {first : Action σ β} {next : β → Action σ α}
    (starts : first.Gives earlier) (later : ∀ value, earlier value → (next value).Gives property) :
    (first >>= next).Gives property := by
  intro state value given
  rcases bind_cases first next state with ⟨cause, _, same⟩ | ⟨middle, found, same⟩
  · rw [same] at given
    cases given
  · rw [same] at given
    exact later middle (starts state middle found) _ value given

/-- What a sequence returns is what its last step returns. -/
theorem gives_bind {first : Action σ β} {next : β → Action σ α}
    (later : ∀ value, (next value).Gives property) : (first >>= next).Gives property := by
  have starts : first.Gives fun _ => True := fun _ _ _ => trivial
  exact starts.bind fun value _ => later value

/-- A step on a part of the state gives the same. -/
theorem Gives.within {τ : Type} {part : τ → σ} {replace : τ → σ → τ} {step : Action σ α}
    (gives : step.Gives property) : (step.within part replace).Gives property :=
  fun state => gives (part state)

end Gives

/-- A step that cannot fail does not fail in any other way. -/
theorem Sure.failsOnly {kind : Error → Prop} {step : Action σ α} (sure : step.Sure) (state : σ) :
    step.FailsOnly kind state :=
  fun error failed => (sure state error failed).elim

end Action

end WideColumn
