/-!
Runs of anything whose state is changed by operations. A run remembers its
operations, so that a statement about a state can speak of its history.
-/

namespace ProgramIndex

/-- States that are changed by operations. An operation that fails has a result
as well, the state that it leaves behind. `fits` says which operations have a
result at all. -/
structure Transitions (State Operation : Type) where
  perform : State → Operation → State
  fits : State → Operation → Prop

namespace Transitions

variable {State Operation : Type} {transitions : Transitions State Operation}

/-- The operations of a run, newest first, between the states where it starts
and ends. Every state that an operation leads to is `allowed`; nothing is asked
of the state where the run starts. -/
inductive RunWithin (transitions : Transitions State Operation) (allowed : State → Prop)
    (start : State) : List Operation → State → Prop where
  | refl : RunWithin transitions allowed start [] start
  | step {ops : List Operation} {s : State} (prior : RunWithin transitions allowed start ops s)
      (op : Operation) (hFits : transitions.fits s op)
      (hAllowed : allowed (transitions.perform s op)) :
      RunWithin transitions allowed start (op :: ops) (transitions.perform s op)

/-- The operations of a run, newest first, between any two states. -/
abbrev Run (transitions : Transitions State Operation) (start : State) :
    List Operation → State → Prop :=
  transitions.RunWithin (fun _ => True) start

/-- Forget which states a run was confined to. -/
theorem RunWithin.toRun {allowed : State → Prop} {start s : State} {ops : List Operation}
    (run : transitions.RunWithin allowed start ops s) : transitions.Run start ops s := by
  induction run with
  | refl => exact RunWithin.refl
  | step prior op hFits hAllowed ih => exact ih.step op hFits trivial

/-- A run stays one where more operations have a result. -/
theorem RunWithin.weaken {perform : State → Operation → State}
    {fits more : State → Operation → Prop} (hMore : ∀ s op, fits s op → more s op)
    {allowed : State → Prop} {start s : State} {ops : List Operation}
    (run : RunWithin ⟨perform, fits⟩ allowed start ops s) :
    RunWithin ⟨perform, more⟩ allowed start ops s := by
  induction run with
  | refl => exact RunWithin.refl
  | step prior op hFits hAllowed ih => exact ih.step op (hMore _ op hFits) hAllowed

/-- One operation makes a run. -/
theorem run_perform {s : State} {op : Operation} (hFits : transitions.fits s op) :
    transitions.Run s [op] (transitions.perform s op) :=
  RunWithin.refl.step op hFits trivial

/-- What holds at the start and is kept by every operation into an allowed
state holds at the end. -/
theorem RunWithin.invariant {allowed : State → Prop} {start s : State} {ops : List Operation}
    (run : transitions.RunWithin allowed start ops s) (kept : State → Prop) (hStart : kept start)
    (hStep : ∀ s op, kept s → transitions.fits s op → allowed (transitions.perform s op) →
      kept (transitions.perform s op)) : kept s := by
  induction run with
  | refl => exact hStart
  | step prior op hFits hAllowed ih => exact hStep _ op ih hFits hAllowed

/-- Concatenate two runs, the later operations in front. -/
theorem RunWithin.append {start middle s : State} {earlier later : List Operation}
    (first : transitions.Run start earlier middle) (second : transitions.Run middle later s) :
    transitions.Run start (later ++ earlier) s := by
  induction second with
  | refl => exact first
  | step prior op hFits hAllowed ih => exact ih.step op hFits trivial

end Transitions

end ProgramIndex
