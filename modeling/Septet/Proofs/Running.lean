/-!
# Running operations that can fail

Streams, files, stores and whole programs are worked on by operations that answer with a
value or with a cause, and leave a state in either case.  What an operation comes to is
known from how its first part ends: a value goes on to what comes next (`EStateM.bind_ok`),
a cause skips it (`EStateM.bind_error`) or is handled (`EStateM.tryCatch_error`).  What reads
settings leaves no state: there a value at the end says that no step has failed
(`Except.bind_eq_ok`).
-/

set_option autoImplicit false

namespace Septet

variable {ε σ α β : Type} {action : EStateM ε σ α} {next : α → EStateM ε σ β}
  {handle : ε → EStateM ε σ α} {state after : σ} {value : α} {cause : ε}

theorem EStateM.get_bind (next : σ → EStateM ε σ β) (state : σ) :
    (get >>= next) state = next state state := rfl

theorem EStateM.set_bind (next : PUnit → EStateM ε σ β) (state after : σ) :
    (set after >>= next) state = next .unit after := rfl

theorem EStateM.bind_ok (run : action state = .ok value after) :
    (action >>= next) state = next value after := by
  simp only [bind, EStateM.bind, run]

theorem EStateM.bind_error (run : action state = .error cause after) :
    (action >>= next) state = .error cause after := by
  simp only [bind, EStateM.bind, run]

/-- What runs through two steps runs through both. -/
theorem EStateM.bind_eq_ok {last : β} (run : (action >>= next) state = .ok last after) :
    ∃ middle between, action state = .ok middle between ∧ next middle between = .ok last after := by
  cases step : action state with
  | ok middle between =>
      rw [bind_ok step] at run
      exact ⟨middle, between, rfl, run⟩
  | error cause between =>
      rw [bind_error step] at run
      cases run

theorem EStateM.tryCatch_run (action : EStateM ε σ α) (handle : ε → EStateM ε σ α) (state : σ) :
    tryCatch action handle state =
      match action state with
      | .error cause after => handle cause after
      | .ok value after => .ok value after := by
  have fixed : ∀ result : EStateM.Result ε σ α,
      tryCatch (fun _ => result : EStateM ε σ α) handle state =
        match result with
        | .error cause after => handle cause after
        | .ok value after => .ok value after := fun result => by cases result <;> rfl
  exact fixed (action state)

theorem EStateM.tryCatch_ok (run : action state = .ok value after) :
    tryCatch action handle state = .ok value after := by
  rw [tryCatch_run, run]

theorem EStateM.tryCatch_error (run : action state = .error cause after) :
    tryCatch action handle state = handle cause after := by
  rw [tryCatch_run, run]

theorem Except.bind_eq_ok {reading : Except ε α} {further : α → Except ε β} {last : β}
    (run : reading >>= further = .ok last) :
    ∃ middle, reading = .ok middle ∧ further middle = .ok last := by
  cases reading with
  | ok middle => exact ⟨middle, rfl, run⟩
  | error cause => cases run

theorem Except.map_eq_ok {reading : Except ε α} {change : α → β} {last : β}
    (run : reading.map change = .ok last) : ∃ middle, reading = .ok middle ∧ change middle = last := by
  cases reading with
  | ok middle => exact ⟨middle, rfl, Except.ok.inj run⟩
  | error cause => cases run

end Septet
