import Mathlib.Logic.Basic

/-! # Labelled runs, invariants and simulations

A run of a labelled transition relation with the trace of its labels and
outputs, latest first. A predicate kept by every step holds after every run
(`Transition.Run.invariant`), and a map of states that carries steps to steps carries runs
to runs with the same trace (`Transition.Run.simulate`). A system whose steps are a
function answers a list of labels with a list of outputs (`Transition.exec`).
-/

namespace Transition

variable {State Abstract Label Output : Type*}

/-- The runs of a transition relation from a start state. -/
inductive Run (Step : State → Label → Output → State → Prop) (start : State) :
    List (Label × Output) → State → Prop
  | nil : Run Step start [] start
  | cons {trace : List (Label × Output)} {state next : State} {label : Label} {output : Output} :
      Run Step start trace state → Step state label output next →
        Run Step start ((label, output) :: trace) next

namespace Run

variable {Step : State → Label → Output → State → Prop} {start state : State}
  {trace : List (Label × Output)}

/-- A predicate of trace and state kept by every step of a run holds at its end. -/
theorem trace_invariant (Invariant : List (Label × Output) → State → Prop)
    (initially : Invariant [] start)
    (kept : ∀ trace state label output next, Invariant trace state →
      Step state label output next → Invariant ((label, output) :: trace) next)
    (run : Run Step start trace state) : Invariant trace state := by
  induction run with
  | nil => exact initially
  | cons _ step ih => exact kept _ _ _ _ _ ih step

/-- A predicate of states kept by every step of a run holds at its end. -/
theorem invariant (Invariant : State → Prop) (initially : Invariant start)
    (kept : ∀ state label output next, Invariant state →
      Step state label output next → Invariant next)
    (run : Run Step start trace state) : Invariant state :=
  run.trace_invariant (fun _ => Invariant) initially
    fun _ state label output next => kept state label output next

/-- A map of states that carries every step from an invariant state to a step
carries every run to a run with the same trace. -/
theorem simulate {AbstractStep : Abstract → Label → Output → Abstract → Prop}
    (abstraction : State → Abstract) (Invariant : State → Prop) (initially : Invariant start)
    (kept : ∀ state label output next, Invariant state → Step state label output next →
      Invariant next ∧ AbstractStep (abstraction state) label output (abstraction next))
    (run : Run Step start trace state) :
    Invariant state ∧ Run AbstractStep (abstraction start) trace (abstraction state) := by
  induction run with
  | nil => exact ⟨initially, .nil⟩
  | cons _ step ih =>
      obtain ⟨valid, carried⟩ := kept _ _ _ _ ih.1 step
      exact ⟨valid, .cons ih.2 carried⟩

end Run

/-- The outputs and the last state of a system whose steps are a function. -/
def exec (step : State → Label → Output × State) (state : State) :
    List Label → List Output × State
  | [] => ([], state)
  | label :: labels =>
      let (output, next) := step state label
      let (outputs, last) := exec step next labels
      (output :: outputs, last)

/-- A map of states that carries every step to a step with the same output
carries every execution to one with the same outputs. -/
theorem exec_simulate {step : State → Label → Output × State}
    {abstractStep : Abstract → Label → Output × Abstract} {start : State}
    (abstraction : State → Abstract) (Invariant : State → Prop) (initially : Invariant start)
    (kept : ∀ state label, Invariant state → Invariant (step state label).2 ∧
      abstractStep (abstraction state) label =
        ((step state label).1, abstraction (step state label).2))
    (labels : List Label) :
    Invariant (exec step start labels).2 ∧
      exec abstractStep (abstraction start) labels =
        ((exec step start labels).1, abstraction (exec step start labels).2) := by
  induction labels generalizing start with
  | nil => exact ⟨initially, rfl⟩
  | cons label labels ih =>
      obtain ⟨valid, carried⟩ := kept start label initially
      obtain ⟨last, outputs⟩ := ih valid
      refine ⟨last, ?_⟩
      simp only [exec, carried, outputs]

end Transition
