import Mathlib.Logic.Basic

/-!
# Machines that cannot be told apart

A machine with outputs is a partial function `step : State → Action → Option (State × Output)`;
`none` says that it does not come back from the action.  `runOutputs` runs it on a
list of actions and collects the outputs up to the first action from which it does not
come back.

Two machines that step alike in related states (`StepsAlike`) have the same outputs on
every run whose actions are allowed where they are taken (`AllowedRun`), and end in related
states (`runOutputs_alike`).
-/

namespace AislabVP
namespace Foundation

variable {State Other Action Output : Type*}

/-- The outputs of a run and the state in which it ends. -/
def runOutputs (step : State → Action → Option (State × Output)) :
    State → List Action → List Output × State
  | state, [] => ([], state)
  | state, action :: rest =>
      match step state action with
      | none => ([], state)
      | some (next, output) =>
          let later := runOutputs step next rest
          (output :: later.1, later.2)

/-- Every action of a run is allowed in the state in which it is taken. -/
def AllowedRun (step : State → Action → Option (State × Output))
    (allowed : State → Action → Prop) : State → List Action → Prop
  | _, [] => True
  | state, action :: rest =>
      allowed state action ∧
        ∀ next output, step state action = some (next, output) →
          AllowedRun step allowed next rest

/-- A condition on the actions alone. -/
theorem allowedRun_of_forall {step : State → Action → Option (State × Output)}
    {allowed : State → Action → Prop} {actions : List Action}
    (hallowed : ∀ action ∈ actions, ∀ state, allowed state action) (state : State) :
    AllowedRun step allowed state actions := by
  induction actions generalizing state with
  | nil => trivial
  | cons action rest ih =>
      rw [List.forall_mem_cons] at hallowed
      exact ⟨hallowed.1 state, fun next _ _ => ih hallowed.2 next⟩

/-- Both machines stop, or both have the same output and their states are related again. -/
def AlikeAt (related : State → Other → Prop)
    (first : State → Action → Option (State × Output))
    (second : Other → Action → Option (Other × Output)) (state : State) (other : Other)
    (action : Action) : Prop :=
  (first state action = none ∧ second other action = none) ∨
    ∃ next next' output, first state action = some (next, output) ∧
      second other action = some (next', output) ∧ related next next'

/-- The machines are alike in related states; the second one says which actions are allowed. -/
def StepsAlike (related : State → Other → Prop) (allowed : Other → Action → Prop)
    (first : State → Action → Option (State × Output))
    (second : Other → Action → Option (Other × Output)) : Prop :=
  ∀ state other action, related state other → allowed other action →
    AlikeAt related first second state other action

/-- Machines that step alike run alike. -/
theorem runOutputs_alike {related : State → Other → Prop} {allowed : Other → Action → Prop}
    {first : State → Action → Option (State × Output)}
    {second : Other → Action → Option (Other × Output)}
    (halike : StepsAlike related allowed first second) {state : State} {other : Other}
    (hrelated : related state other) {actions : List Action}
    (hallowed : AllowedRun second allowed other actions) :
    (runOutputs first state actions).1 = (runOutputs second other actions).1 ∧
      related (runOutputs first state actions).2 (runOutputs second other actions).2 := by
  induction actions generalizing state other with
  | nil => exact ⟨rfl, hrelated⟩
  | cons action rest ih =>
      obtain ⟨haction, hrest⟩ := hallowed
      rw [runOutputs, runOutputs]
      rcases halike state other action hrelated haction with
        ⟨hfirst, hsecond⟩ | ⟨next, next', output, hfirst, hsecond, hnext⟩
      · rw [hfirst, hsecond]
        exact ⟨rfl, hrelated⟩
      · rw [hfirst, hsecond]
        obtain ⟨houtputs, hfinal⟩ := ih hnext (hrest next' output hsecond)
        exact ⟨congrArg (output :: ·) houtputs, hfinal⟩

end Foundation
end AislabVP
