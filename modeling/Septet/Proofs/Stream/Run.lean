import Mathlib.Data.List.Forall2
import Septet.Stream.Basic

/-!
# Runs of operations on a stream

An operation that fails leaves a stream that can be used further, so a run goes on
after a failure.  What it meets at each step is kept: the state before, the answer and
the state after (`StreamM.visits`).

Two runs of the same steps on different streams go side by side if related states give
visits that agree and leave related states (`StreamM.forall₂_visits`).
-/

set_option autoImplicit false

namespace Septet

namespace StreamM

variable {ι σ τ α β : Type}

/-- What an operation answers, without what it leaves. -/
def outcome (action : StreamM σ α) (stream : σ) : Except StreamError α :=
  match action stream with
  | .ok value _ => .ok value
  | .error cause _ => .error cause

/-- What an operation leaves, whatever it answers. -/
def left (action : StreamM σ α) (stream : σ) : σ :=
  match action stream with
  | .ok _ after => after
  | .error _ after => after

section Running

variable {action : StreamM σ α} {value : α} {cause : StreamError} {stream after : σ}

theorem outcome_ok (run : action stream = .ok value after) : action.outcome stream = .ok value := by
  rw [outcome, run]

theorem outcome_error (run : action stream = .error cause after) :
    action.outcome stream = .error cause := by
  rw [outcome, run]

theorem left_ok (run : action stream = .ok value after) : action.left stream = after := by
  rw [left, run]

theorem left_error (run : action stream = .error cause after) : action.left stream = after := by
  rw [left, run]

/-- An answer that is a value, and what is left, are the result. -/
theorem eq_ok_of_outcome (answer : action.outcome stream = .ok value) :
    action stream = .ok value (action.left stream) := by
  cases run : action stream with
  | ok other after =>
      rw [outcome_ok run] at answer
      rw [left_ok run, Except.ok.inj answer]
  | error cause after =>
      rw [outcome_error run] at answer
      cases answer

end Running

/-- The second of two operations is done if the first gives a value. -/
theorem outcome_bind (first : StreamM σ α) (second : α → StreamM σ β) (stream : σ) :
    (first >>= second).outcome stream =
      match first.outcome stream with
      | .ok value => (second value).outcome (first.left stream)
      | .error cause => .error cause := by
  cases run : first stream with
  | ok value after => simp only [outcome, left, bind, EStateM.bind, run]
  | error cause after => simp only [outcome, bind, EStateM.bind, run]

theorem left_bind (first : StreamM σ α) (second : α → StreamM σ β) (stream : σ) :
    (first >>= second).left stream =
      match first.outcome stream with
      | .ok value => (second value).left (first.left stream)
      | .error _ => first.left stream := by
  cases run : first stream with
  | ok value after => simp only [outcome, left, bind, EStateM.bind, run]
  | error cause after => simp only [outcome, left, bind, EStateM.bind, run]

/-! ## Visits -/

/-- What a run meets at one of its steps. -/
structure Visit (ι σ α : Type) where
  step : ι
  before : σ
  outcome : Except StreamError α
  after : σ

/-- The visit of one step. -/
def visit (perform : ι → StreamM σ α) (step : ι) (stream : σ) : Visit ι σ α where
  step := step
  before := stream
  outcome := (perform step).outcome stream
  after := (perform step).left stream

/-- What a run meets at its steps, one after the other; it goes on after a failure. -/
def visits (perform : ι → StreamM σ α) : List ι → σ → List (Visit ι σ α)
  | [], _ => []
  | step :: steps, stream =>
      visit perform step stream :: visits perform steps (visit perform step stream).after

/-- What a run leaves at its end. -/
def finish (perform : ι → StreamM σ α) (steps : List ι) (stream : σ) : σ :=
  steps.foldl (fun stream step => (perform step).left stream) stream

theorem visits_cons (perform : ι → StreamM σ α) (step : ι) (steps : List ι) (stream : σ) :
    visits perform (step :: steps) stream =
      visit perform step stream :: visits perform steps ((perform step).left stream) := rfl

theorem finish_cons (perform : ι → StreamM σ α) (step : ι) (steps : List ι) (stream : σ) :
    finish perform (step :: steps) stream = finish perform steps ((perform step).left stream) := rfl

/-- A run visits all of its steps. -/
theorem map_step_visits (perform : ι → StreamM σ α) (steps : List ι) :
    ∀ stream, (visits perform steps stream).map Visit.step = steps := by
  induction steps with
  | nil =>
      intro stream
      rfl
  | cons step steps ih =>
      intro stream
      rw [visits, List.map_cons, ih]
      rfl

/-- **Runs of the same steps go side by side** if each step of related states does. -/
theorem forall₂_visits {Related : σ → τ → Prop} {Agree : Visit ι σ α → Visit ι τ β → Prop}
    {perform : ι → StreamM σ α} {perform' : ι → StreamM τ β}
    (one : ∀ (step : ι) {stream : σ} {stream' : τ}, Related stream stream' →
      Agree (visit perform step stream) (visit perform' step stream') ∧
        Related (visit perform step stream).after (visit perform' step stream').after)
    (steps : List ι) : ∀ {stream : σ} {stream' : τ}, Related stream stream' →
      List.Forall₂ Agree (visits perform steps stream) (visits perform' steps stream') := by
  induction steps with
  | nil =>
      intro stream stream' _
      exact .nil
  | cons step steps ih =>
      intro stream stream' related
      obtain ⟨agree, after⟩ := one step related
      exact .cons agree (ih after)

end StreamM

end Septet
