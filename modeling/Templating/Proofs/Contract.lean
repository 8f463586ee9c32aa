/-!
# Contracts of computations

A computation works on a state and gives a value or fails; the state stays as it is at the failure.
`Meets` is a contract for it: a state that `holds` before the computation still holds after it,
values are `good` and errors are `allowed`.

Results:
1. `run_bind`, `bind_eq_ok`, `bind_eq_error`: the second of two computations runs where the first
   one succeeds.
2. `Meets.bind`: a contract of a sequence from the contracts of its parts, where the second part may
   use that the value of the first one is good.
-/

namespace Templating

variable {ε σ α β : Type}

/-! ## 1. Runs -/

/-- The second of two computations runs in the state that the first one leaves, if it succeeds. -/
theorem run_bind (computation : ExceptT ε (StateM σ) α) (next : α → ExceptT ε (StateM σ) β)
    (state : σ) :
    (computation >>= next).run.run state =
      match computation.run.run state with
      | (.ok value, after) => (next value).run.run after
      | (.error error, after) => (.error error, after) := by
  have hrun : (computation >>= next).run.run state =
      (ExceptT.bindCont next (computation.run.run state).1).run (computation.run.run state).2 := rfl
  rw [hrun]
  obtain ⟨result, after⟩ := computation.run.run state
  cases result with
  | ok value => rfl
  | error error => rfl

/-- A step that cannot fail. -/
theorem run_liftM (action : StateM σ α) (state : σ) :
    (liftM action : ExceptT ε (StateM σ) α).run.run state =
      (.ok (action.run state).1, (action.run state).2) := rfl

theorem bind_eq_ok {result : Except ε α} {next : α → Except ε β} {value : β} :
    result >>= next = .ok value ↔ ∃ first, result = .ok first ∧ next first = .ok value := by
  cases result with
  | ok first =>
    constructor
    · intro h
      exact ⟨first, rfl, h⟩
    · rintro ⟨other, hfirst, h⟩
      cases hfirst
      exact h
  | error error =>
    constructor
    · intro h
      cases h
    · rintro ⟨first, hfirst, -⟩
      cases hfirst

/-- A sequence of results fails in its first part or in its second one. -/
theorem bind_eq_error {result : Except ε α} {next : α → Except ε β} {error : ε} :
    result >>= next = .error error ↔
      result = .error error ∨ ∃ value, result = .ok value ∧ next value = .error error := by
  cases result with
  | ok value =>
    constructor
    · intro h
      exact Or.inr ⟨value, rfl, h⟩
    · rintro (h | ⟨other, hvalue, h⟩)
      · cases h
      · cases hvalue
        exact h
  | error other =>
    constructor
    · intro h
      cases h
      exact Or.inl rfl
    · rintro (h | ⟨value, hvalue, -⟩)
      · cases h
        rfl
      · cases hvalue

/-! ## 2. Contracts -/

/-- Run in a state that `holds`, the computation leaves such a state behind and gives a `good` value
or an `allowed` error. -/
def Meets (holds : σ → Prop) (allowed : ε → Prop) (good : α → Prop)
    (computation : ExceptT ε (StateM σ) α) : Prop :=
  ∀ state, holds state →
    holds (computation.run.run state).2 ∧
      match (computation.run.run state).1 with
      | .ok value => good value
      | .error error => allowed error

namespace Meets

variable {holds : σ → Prop} {allowed : ε → Prop} {good : α → Prop}
  {computation : ExceptT ε (StateM σ) α}

theorem pure {value : α} (h : good value) :
    Meets holds allowed good (Pure.pure value : ExceptT ε (StateM σ) α) :=
  fun _ hstate => ⟨hstate, h⟩

theorem throw {error : ε} (h : allowed error) :
    Meets holds allowed good (MonadExcept.throw error : ExceptT ε (StateM σ) α) :=
  fun _ hstate => ⟨hstate, h⟩

/-- A result that does not depend on the state. -/
theorem ofExcept {result : Except ε α} (hgood : ∀ value, result = .ok value → good value)
    (hallowed : ∀ error, result = .error error → allowed error) :
    Meets holds allowed good (ExceptT.mk (Pure.pure result) : ExceptT ε (StateM σ) α) := by
  intro state hstate
  refine ⟨hstate, ?_⟩
  cases result with
  | ok value => exact hgood value rfl
  | error error => exact hallowed error rfl

theorem bind {good' : β → Prop} {next : α → ExceptT ε (StateM σ) β}
    (hfirst : Meets holds allowed good computation)
    (hnext : ∀ value, good value → Meets holds allowed good' (next value)) :
    Meets holds allowed good' (computation >>= next) := by
  intro state hstate
  rw [run_bind]
  obtain ⟨hafter, hresult⟩ := hfirst state hstate
  generalize computation.run.run state = run at hafter hresult ⊢
  obtain ⟨result, after⟩ := run
  cases result with
  | ok value => exact hnext value hresult after hafter
  | error error => exact ⟨hafter, hresult⟩

/-- A step that cannot fail. -/
theorem lift {action : StateM σ α} (h : ∀ state, holds state → holds (action.run state).2) :
    Meets holds allowed (fun _ => True) (ExceptT.lift action : ExceptT ε (StateM σ) α) :=
  fun state hstate => ⟨h state hstate, trivial⟩

theorem map {good' : β → Prop} {f : α → β} (h : Meets holds allowed good computation)
    (hf : ∀ value, good value → good' (f value)) :
    Meets holds allowed good' (f <$> computation) := by
  rw [map_eq_pure_bind]
  exact h.bind fun value hvalue => Meets.pure (hf value hvalue)

/-- A sequence whose second part does not depend on what the first one gives. -/
theorem seq {good' : β → Prop} {next : α → ExceptT ε (StateM σ) β}
    (hfirst : Meets holds allowed (fun _ => True) computation)
    (hnext : ∀ value, Meets holds allowed good' (next value)) :
    Meets holds allowed good' (computation >>= next) :=
  hfirst.bind fun value _ => hnext value

theorem mono {allowed' : ε → Prop} {good' : α → Prop} (h : Meets holds allowed good computation)
    (hallowed : ∀ error, allowed error → allowed' error)
    (hgood : ∀ value, good value → good' value) : Meets holds allowed' good' computation := by
  intro state hstate
  obtain ⟨hafter, hresult⟩ := h state hstate
  refine ⟨hafter, ?_⟩
  generalize (computation.run.run state).1 = result at hresult ⊢
  cases result with
  | ok value => exact hgood value hresult
  | error error => exact hallowed error hresult

theorem error {state : σ} {error : ε} (h : Meets holds allowed good computation)
    (hstate : holds state) (hfails : (computation.run.run state).1 = .error error) :
    allowed error := by
  have hresult := (h state hstate).2
  rw [hfails] at hresult
  exact hresult

theorem value {state : σ} {value : α} (h : Meets holds allowed good computation)
    (hstate : holds state) (hsucceeds : (computation.run.run state).1 = .ok value) :
    good value := by
  have hresult := (h state hstate).2
  rw [hsucceeds] at hresult
  exact hresult

theorem after {state : σ} (h : Meets holds allowed good computation) (hstate : holds state) :
    holds (computation.run.run state).2 := (h state hstate).1

theorem after_run {state after : σ} {result : Except ε α}
    (h : Meets holds allowed good computation) (hstate : holds state)
    (hrun : computation.run.run state = (result, after)) : holds after := by
  have hafter := h.after hstate
  rw [hrun] at hafter
  exact hafter

end Meets

end Templating
