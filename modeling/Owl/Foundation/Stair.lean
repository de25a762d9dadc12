import Owl.Foundation.Run

/-! # Convergence in rounds

A step of a system may refresh some of its cells. If a refreshed cell has a property and
every step keeps it, then all cells have it after a run that has refreshed each of them
(`Transition.Run.established`). A round is a run whose trace covers what it has to, in
any order and with anything else in between. When every round leads from one level to
the next, as many rounds lead as many levels up (`Transition.Rounds.climb`). So a property
that each cell gets from cells of less depth reaches one more depth with every round
(`Transition.Rounds.spread`).
-/

namespace Transition

variable {State Label Output Cell : Type*} {Step : State → Label → Output → State → Prop}
  {start state : State} {trace : List (Label × Output)}

/-- Runs one after the other are a run. -/
theorem Run.append {middle : State} {later : List (Label × Output)}
    (first : Run Step start trace middle) (second : Run Step middle later state) :
    Run Step start (later ++ trace) state := by
  induction second with
  | nil => exact first
  | cons _ step ih => exact .cons ih step

/-- A run can be cut at any place of its trace. -/
theorem Run.split {later : List (Label × Output)} (run : Run Step start (later ++ trace) state) :
    ∃ middle, Run Step start trace middle ∧ Run Step middle later state := by
  induction later generalizing state with
  | nil => exact ⟨state, run, .nil⟩
  | cons entry later ih =>
      cases run with
      | cons run step =>
          obtain ⟨middle, first, second⟩ := ih run
          exact ⟨middle, first, .cons second step⟩

/-- Labels that can be taken from every state of an invariant can be taken one after the
other. -/
theorem Run.exists_of_enabled (Invariant : State → Prop)
    (enabled : ∀ entry ∈ trace, ∀ state, Invariant state →
      ∃ next, Step state entry.1 entry.2 next ∧ Invariant next) (initially : Invariant start) :
    ∃ state, Run Step start trace state ∧ Invariant state := by
  induction trace with
  | nil => exact ⟨start, .nil, initially⟩
  | cons entry trace ih =>
      obtain ⟨state, run, valid⟩ := ih fun earlier member =>
        enabled earlier (List.mem_cons_of_mem entry member)
      obtain ⟨next, step, kept⟩ := enabled entry List.mem_cons_self state valid
      exact ⟨next, run.cons step, kept⟩

/-- **A run that refreshes every cell establishes the property of all cells.** -/
theorem Run.established (Refreshes : Label × Output → Cell → Prop) (Invariant : State → Prop)
    (Holds : Cell → State → Prop) (initially : Invariant start)
    (invariant : ∀ state label output next, Invariant state → Step state label output next →
      Invariant next)
    (kept : ∀ state label output next cell, Invariant state → Holds cell state →
      Step state label output next → Holds cell next)
    (refreshed : ∀ state label output next cell, Invariant state →
      Step state label output next → Refreshes (label, output) cell → Holds cell next)
    (run : Run Step start trace state)
    (covers : ∀ cell, ∃ entry ∈ trace, Refreshes entry cell) (cell : Cell) :
    Holds cell state := by
  have along : Invariant state ∧
      ∀ cell, (∃ entry ∈ trace, Refreshes entry cell) → Holds cell state := by
    refine run.trace_invariant (fun trace state => Invariant state ∧
      ∀ cell, (∃ entry ∈ trace, Refreshes entry cell) → Holds cell state) ⟨initially, ?_⟩ ?_
    · rintro cell ⟨entry, member, _⟩
      exact absurd member List.not_mem_nil
    · intro trace state label output next ⟨valid, sofar⟩ step
      refine ⟨invariant state label output next valid step, ?_⟩
      rintro cell ⟨entry, member, refreshes⟩
      rcases List.mem_cons.mp member with rfl | earlier
      · exact refreshed state label output next cell valid step refreshes
      · exact kept state label output next cell valid (sofar cell ⟨entry, earlier, refreshes⟩) step
  exact along.2 cell (covers cell)

/-- A number of rounds one after the other, each of them a run with a trace that counts
as a round. -/
inductive Rounds (Step : State → Label → Output → State → Prop)
    (IsRound : List (Label × Output) → Prop) (start : State) : Nat → State → Prop
  | zero : Rounds Step IsRound start 0 start
  | succ {count : Nat} {middle state : State} {trace : List (Label × Output)}
      (before : Rounds Step IsRound start count middle) (run : Run Step middle trace state)
      (round : IsRound trace) : Rounds Step IsRound start (count + 1) state

/-- **Every round climbs one level.** -/
theorem Rounds.climb {IsRound : List (Label × Output) → Prop} (Level : Nat → State → Prop)
    (ground : Level 0 start)
    (climbs : ∀ level state trace next, Level level state → Run Step state trace next →
      IsRound trace → Level (level + 1) next)
    {count : Nat} (rounds : Rounds Step IsRound start count state) : Level count state := by
  induction rounds with
  | zero => exact ground
  | succ _ run round ih => exact climbs _ _ _ _ ih run round

/-- Rounds can be cut after any number of them. -/
theorem Rounds.split {IsRound : List (Label × Output) → Prop} {first second : Nat}
    (rounds : Rounds Step IsRound start (first + second) state) :
    ∃ middle, Rounds Step IsRound start first middle ∧
      Rounds Step IsRound middle second state := by
  induction second generalizing state with
  | zero => exact ⟨state, rounds, .zero⟩
  | succ second ih =>
      cases rounds with
      | succ before run round =>
          obtain ⟨middle, early, late⟩ := ih before
          exact ⟨middle, early, late.succ run round⟩

/-- **A round spreads a property one depth further.** Cells of no depth have the property
from the start. Another one gets it when it is refreshed and keeps it with every step,
provided that all cells of less depth have it. -/
theorem Rounds.spread {IsRound : List (Label × Output) → Prop}
    (Refreshes : Label × Output → Cell → Prop) (Invariant : State → Prop)
    (Holds : Cell → State → Prop) (depth : Cell → Nat) (initially : Invariant start)
    (invariant : ∀ state label output next, Invariant state → Step state label output next →
      Invariant next)
    (ground : ∀ state cell, Invariant state → depth cell = 0 → Holds cell state)
    (kept : ∀ state label output next cell, Invariant state →
      (∀ above, depth above < depth cell → Holds above state) → Holds cell state →
        Step state label output next → Holds cell next)
    (refreshed : ∀ state label output next cell, Invariant state →
      (∀ above, depth above < depth cell → Holds above state) →
        Step state label output next → Refreshes (label, output) cell → Holds cell next)
    (covers : ∀ trace, IsRound trace → ∀ cell, depth cell ≠ 0 →
      ∃ entry ∈ trace, Refreshes entry cell)
    {count : Nat} (rounds : Rounds Step IsRound start count state) :
    Invariant state ∧ ∀ cell, depth cell ≤ count → Holds cell state := by
  refine rounds.climb (fun level state => Invariant state ∧
    ∀ cell, depth cell ≤ level → Holds cell state) ⟨initially, ?_⟩ ?_
  · exact fun cell low => ground start cell initially (Nat.le_zero.mp low)
  rintro level state trace next ⟨valid, lower⟩ run round
  have keeps : ∀ state label output next,
      (Invariant state ∧ ∀ cell, depth cell ≤ level → Holds cell state) →
        Step state label output next →
          Invariant next ∧ ∀ cell, depth cell ≤ level → Holds cell next := by
    rintro state label output next ⟨valid, lower⟩ step
    refine ⟨invariant state label output next valid step, fun cell low => ?_⟩
    exact kept state label output next cell valid (fun above less => lower above (by omega))
      (lower cell low) step
  refine ⟨(run.invariant _ ⟨valid, lower⟩ keeps).1, fun cell low => ?_⟩
  by_cases bottom : depth cell = 0
  · exact ground next cell (run.invariant _ ⟨valid, lower⟩ keeps).1 bottom
  · refine run.established (fun entry (cell : {cell // depth cell ≠ 0 ∧ depth cell ≤ level + 1}) =>
      Refreshes entry cell) _ (fun cell state => Holds cell.1 state) ⟨valid, lower⟩ keeps ?_ ?_ ?_
      ⟨cell, bottom, low⟩
    · rintro state label output next cell ⟨valid, lower⟩ holds step
      exact kept state label output next cell valid
        (fun above less => lower above (by have := cell.2.2; omega)) holds step
    · rintro state label output next cell ⟨valid, lower⟩ step refreshes
      exact refreshed state label output next cell valid
        (fun above less => lower above (by have := cell.2.2; omega)) step refreshes
    · exact fun cell => covers trace round cell cell.2.1

/-- Rounds of one kind whose steps are steps of another relation. -/
theorem Rounds.mono {Other : State → Label → Output → State → Prop}
    {IsRound IsOther : List (Label × Output) → Prop}
    (steps : ∀ state label output next, Step state label output next →
      Other state label output next)
    (weaker : ∀ trace, IsRound trace → IsOther trace) {count : Nat}
    (rounds : Rounds Step IsRound start count state) : Rounds Other IsOther start count state := by
  induction rounds with
  | zero => exact .zero
  | succ _ run round ih =>
      refine .succ ih ?_ (weaker _ round)
      clear ih round
      induction run with
      | nil => exact .nil
      | cons _ step ih => exact .cons ih (steps _ _ _ _ step)

end Transition
