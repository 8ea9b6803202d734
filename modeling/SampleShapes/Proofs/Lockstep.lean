/-
**Runs in lockstep.**

Two steps of an observation run in lockstep if they leave the same behind whatever was seen before:
both fail alike, or both succeed with results that stand in some relation to each other. Where the
results are equal the steps are one step.

* `Tracks.bind`: runs that follow each other stay in lockstep;
* `Lockstep.bind`: so do steps;
* `Lockstep.bind_eq`: **steps in lockstep are alike to whatever cannot tell their results apart.**
-/

import SampleShapes.Proofs.Observation

namespace SampleShapes.Observing

variable {α β γ δ : Type} {observer : Observer}

/-- The runs leave the same behind, and fail alike or come back with related results. -/
inductive Tracks (related : α → β → Prop) :
    Except Failure α × Observer → Except Failure β × Observer → Prop where
  /-- Both fail alike. -/
  | failed (failure : Failure) (later : Observer) :
      Tracks related (.error failure, later) (.error failure, later)
  /-- Both succeed. -/
  | done {result : α} {result' : β} {later : Observer} (holds : related result result') :
      Tracks related (.ok result, later) (.ok result', later)

/-- From every observer, the runs of the steps leave the same behind. -/
def Lockstep (related : α → β → Prop) (step : Observing α) (step' : Observing β) : Prop :=
  ∀ observer, Tracks related (step.run.run observer) (step'.run.run observer)

variable {related : α → β → Prop} {best : γ → δ → Prop} {step : Observing α} {step' : Observing β}

/-- Runs that follow each other stay in lockstep. -/
theorem Tracks.bind {next : α → Observing γ} {next' : β → Observing δ}
    (tracks : Tracks related (step.run.run observer) (step'.run.run observer))
    (onward : ∀ result result' later, related result result' →
      Tracks best ((next result).run.run later) ((next' result').run.run later)) :
    Tracks best ((step >>= next).run.run observer) ((step' >>= next').run.run observer) := by
  rw [run_bind, run_bind]
  generalize step.run.run observer = run, step'.run.run observer = run' at tracks ⊢
  cases tracks with
  | failed failure later => exact .failed failure later
  | done holds => exact onward _ _ _ holds

/-- Two runs in lockstep with a third one are in lockstep with each other. -/
theorem Tracks.of_common {other : α → γ → Prop} {common : β → γ → Prop}
    {run : Except Failure α × Observer} {run' : Except Failure β × Observer}
    {run'' : Except Failure γ × Observer} (tracks : Tracks related run run')
    (tracks' : Tracks other run run'')
    (leads : ∀ result first second, related result first → other result second →
      common first second) : Tracks common run' run'' := by
  cases tracks with
  | failed failure later =>
    cases tracks'
    exact .failed failure later
  | done holds =>
    cases tracks' with
    | done holds' => exact .done (leads _ _ _ holds holds')

/-- Runs in lockstep with equal results are one run. -/
theorem Tracks.eq {run run' : Except Failure α × Observer} (tracks : Tracks Eq run run') :
    run = run' := by
  cases tracks with
  | failed => rfl
  | done same => rw [same]

namespace Lockstep

theorem pure {result : α} {result' : β} (holds : related result result') :
    Lockstep related (Pure.pure result) (Pure.pure result') := fun _ => .done holds

/-- Every step is in lockstep with itself. -/
theorem refl (step : Observing α) : Lockstep Eq step step := by
  intro observer
  rcases step.run.run observer with ⟨failure | result, later⟩
  · exact .failed failure later
  · exact .done rfl

/-- **Steps that follow each other.** -/
theorem bind {next : α → Observing γ} {next' : β → Observing δ}
    (lockstep : Lockstep related step step')
    (onward : ∀ result result', related result result' →
      Lockstep best (next result) (next' result')) :
    Lockstep best (step >>= next) (step' >>= next') :=
  fun observer => (lockstep observer).bind fun result result' later holds =>
    onward result result' holds later

/-- Steps in lockstep with equal results are one step. -/
theorem eq {step step' : Observing α} (lockstep : Lockstep Eq step step') : step = step' :=
  funext fun observer => (lockstep observer).eq

/-- **Steps in lockstep are alike to whatever cannot tell their results apart.** -/
theorem bind_eq {next : α → Observing γ} {next' : β → Observing γ}
    (lockstep : Lockstep related step step')
    (onward : ∀ result result', related result result' → next result = next' result') :
    step >>= next = step' >>= next' :=
  (lockstep.bind fun result result' holds => onward result result' holds ▸ refl _).eq

end Lockstep

end SampleShapes.Observing
