import Mathlib.Logic.Basic

/-!
# Runs of a partial step function

A system is a function `step : State → Action → Option State`; `none` says
that the action is not enabled.  A run is a list of actions.  This module
packages the inductions that a verification over runs needs:

* `invariant_runFrom`: an invariant kept by every *guarded* step holds at the
  end of every run whose steps all meet the guard;
* `holdsAlong_iff_guardedRun`: when the guard says exactly which steps keep a
  property, the property holds after every step of a run if and only if every
  step of the run meets the guard;
* `traceFrom_eq_iff_guardedRun`: when the guard says exactly which steps of two
  machines have equal outputs, the machines have equal outputs along a run if
  and only if every step of the run meets the guard.
-/

namespace AislabVP
namespace Foundation

variable {State Action : Type*}

/-- The state after a list of actions, when each of them is enabled. -/
def runFrom (step : State → Action → Option State) :
    State → List Action → Option State
  | state, [] => some state
  | state, action :: rest =>
      match step state action with
      | none => none
      | some next => runFrom step next rest

/-- Every action of the run is taken in a state in which the guard allows it. -/
def GuardedRun (step : State → Action → Option State)
    (guard : State → Action → Prop) : State → List Action → Prop
  | _, [] => True
  | state, action :: rest =>
      guard state action ∧
        ∀ next, step state action = some next → GuardedRun step guard next rest

instance GuardedRun.decide (step : State → Action → Option State)
    (guard : State → Action → Prop) [∀ state action, Decidable (guard state action)] :
    (state : State) → (actions : List Action) → Decidable (GuardedRun step guard state actions)
  | _, [] => isTrue trivial
  | state, action :: rest =>
      match hstep : step state action with
      | none =>
          decidable_of_iff (guard state action)
            ⟨fun hguard => ⟨hguard, fun next hnext => by rw [hstep] at hnext; cases hnext⟩,
              fun hrun => hrun.1⟩
      | some next =>
          have := GuardedRun.decide step guard next rest
          decidable_of_iff (guard state action ∧ GuardedRun step guard next rest)
            ⟨fun hrun => ⟨hrun.1, fun other hother => by
                rw [hstep] at hother
                obtain rfl := Option.some.inj hother
                exact hrun.2⟩,
              fun hrun => ⟨hrun.1, hrun.2 next hstep⟩⟩

/-- The property holds in every state that the run reaches by a step. -/
def HoldsAlong (step : State → Action → Option State)
    (property : State → Prop) : State → List Action → Prop
  | _, [] => True
  | state, action :: rest =>
      ∀ next, step state action = some next →
        property next ∧ HoldsAlong step property next rest

/-- The states at the end of the guarded runs from an initial state. -/
def ReachableUnder (step : State → Action → Option State)
    (guard : State → Action → Prop) (initial state : State) : Prop :=
  ∃ actions, GuardedRun step guard initial actions ∧
    runFrom step initial actions = some state

/-- Whatever states two runs begin in and whatever they do, if they end in equal
contexts then the next action has the same output in both. -/
def HistoryIndependent {Context Output : Type*} (step : State → Action → Option State)
    (context : State → Context) (output : State → Output) (action : Action) : Prop :=
  ∀ (first second : State) (earlier others : List Action) (left right leftNext rightNext : State),
    runFrom step first earlier = some left → runFrom step second others = some right →
    context left = context right → step left action = some leftNext →
    step right action = some rightNext → output leftNext = output rightNext

/-- The outputs of a machine along a list of actions.  After an output from which it does
not resume, the machine has stopped. -/
def traceFrom {Output : Type*} (act : State → Action → Output) (resume : Output → Option State) :
    State → List Action → List Output
  | _, [] => []
  | state, action :: rest =>
      act state action ::
        match resume (act state action) with
        | none => []
        | some next => traceFrom act resume next rest

/-- The states at the end of the runs from an initial state. -/
def Reachable (step : State → Action → Option State) (initial state : State) : Prop :=
  ∃ actions, runFrom step initial actions = some state

section Laws

variable {step : State → Action → Option State}
variable {guard : State → Action → Prop} {property invariant : State → Prop}

@[simp] theorem runFrom_nil (state : State) : runFrom step state [] = some state := rfl

theorem runFrom_cons_eq_some {state final : State} {action : Action} {rest : List Action} :
    runFrom step state (action :: rest) = some final ↔
      ∃ next, step state action = some next ∧ runFrom step next rest = some final := by
  rw [runFrom]
  cases hstep : step state action with
  | none => simp
  | some next => simp

/-- An invariant of the guarded steps is an invariant of the guarded runs. -/
theorem invariant_runFrom
    (hstep : ∀ state action next, invariant state → guard state action →
      step state action = some next → invariant next)
    {state final : State} {actions : List Action} (hstart : invariant state)
    (hguard : GuardedRun step guard state actions)
    (hrun : runFrom step state actions = some final) : invariant final := by
  induction actions generalizing state with
  | nil =>
      obtain rfl := Option.some.inj hrun
      exact hstart
  | cons action rest ih =>
      obtain ⟨next, hnext, hrest⟩ := runFrom_cons_eq_some.mp hrun
      exact ih (hstep state action next hstart hguard.1 hnext) (hguard.2 next hnext) hrest

theorem guardedRun_cons {state next : State} {action : Action} {rest : List Action}
    (hguard : guard state action) (hstep : step state action = some next)
    (hrest : GuardedRun step guard next rest) :
    GuardedRun step guard state (action :: rest) := by
  refine ⟨hguard, fun other hother => ?_⟩
  obtain rfl := Option.some.inj (hstep.symm.trans hother)
  exact hrest

/-- Two guards, the second of which only looks at the actions. -/
theorem GuardedRun.and_forall_mem {other : State → Action → Prop} {state : State}
    {actions : List Action} (hrun : GuardedRun step guard state actions)
    (hother : ∀ action ∈ actions, ∀ state, other state action) :
    GuardedRun step (fun state action => guard state action ∧ other state action)
      state actions := by
  induction actions generalizing state with
  | nil => trivial
  | cons action rest ih =>
      rw [List.forall_mem_cons] at hother
      exact ⟨⟨hrun.1, hother.1 state⟩, fun next hnext => ih (hrun.2 next hnext) hother.2⟩

/-- Guards that agree at every step agree on runs. -/
theorem guardedRun_congr {other : State → Action → Prop}
    (hagree : ∀ state action, guard state action ↔ other state action)
    (state : State) (actions : List Action) :
    GuardedRun step guard state actions ↔ GuardedRun step other state actions := by
  induction actions generalizing state with
  | nil => exact Iff.rfl
  | cons action rest ih =>
      exact and_congr (hagree state action) (forall₂_congr fun next _ => ih next)

/-- A guard may be replaced by another one that an invariant makes weaker. -/
theorem GuardedRun.weaken {other : State → Action → Prop}
    (hstep : ∀ state action next, invariant state → guard state action →
      step state action = some next → invariant next)
    (hguard : ∀ state action, invariant state → guard state action → other state action)
    {state : State} {actions : List Action} (hstart : invariant state)
    (hrun : GuardedRun step guard state actions) : GuardedRun step other state actions := by
  induction actions generalizing state with
  | nil => trivial
  | cons action rest ih =>
      exact ⟨hguard state action hstart hrun.1,
        fun next hnext => ih (hstep state action next hstart hrun.1 hnext) (hrun.2 next hnext)⟩

/-- A run of actions that the guard allows in every state. -/
theorem guardedRun_of_forall_mem {actions : List Action}
    (hguard : ∀ action ∈ actions, ∀ state, guard state action) (state : State) :
    GuardedRun step guard state actions := by
  induction actions generalizing state with
  | nil => trivial
  | cons action rest ih =>
      rw [List.forall_mem_cons] at hguard
      exact ⟨hguard.1 state, fun next _ => ih hguard.2 next⟩

/-- An invariant of the steps that implies the guard. -/
theorem guardedRun_of_invariant
    (hstep : ∀ state action next, invariant state →
      step state action = some next → invariant next)
    (hguard : ∀ state action, invariant state → guard state action)
    {state : State} (hstart : invariant state) (actions : List Action) :
    GuardedRun step guard state actions := by
  induction actions generalizing state with
  | nil => trivial
  | cons action rest ih =>
      exact ⟨hguard state action hstart,
        fun next hnext => ih (hstep state action next hstart hnext)⟩

/-- Where an invariant makes the guard a property of the actions, and every guarded step of a
total machine keeps the invariant, a run is guarded if all of its actions are allowed, and
only then. -/
theorem guardedRun_iff_forall_mem {next : State → Action → State} {allowed : Action → Prop}
    (hguard : ∀ state action, invariant state → (guard state action ↔ allowed action))
    (hstep : ∀ state action, invariant state → guard state action →
      invariant (next state action))
    {state : State} (hstart : invariant state) (actions : List Action) :
    GuardedRun (fun state action => some (next state action)) guard state actions ↔
      ∀ action ∈ actions, allowed action := by
  induction actions generalizing state with
  | nil => simp [GuardedRun]
  | cons action rest ih =>
      rw [GuardedRun, List.forall_mem_cons, ← hguard state action hstart]
      refine and_congr_right fun hallowed => ?_
      rw [← ih (hstep state action hstart hallowed)]
      exact ⟨fun hrun => hrun _ rfl, fun hrun other hother => Option.some.inj hother ▸ hrun⟩

/-- When the guard says exactly which single outputs of two machines are equal, the machines
have equal traces exactly along the guarded runs. -/
theorem traceFrom_eq_iff_guardedRun {Output : Type*} {first second : State → Action → Output}
    {resume : Output → Option State}
    (hexact : ∀ state action, first state action = second state action ↔ guard state action)
    (state : State) (actions : List Action) :
    traceFrom first resume state actions = traceFrom second resume state actions ↔
      GuardedRun (fun state action => resume (second state action)) guard state actions := by
  induction actions generalizing state with
  | nil => exact iff_of_true rfl trivial
  | cons action rest ih =>
      rw [traceFrom, traceFrom, GuardedRun, List.cons.injEq, hexact]
      refine and_congr_right fun hguard => ?_
      rw [(hexact state action).mpr hguard]
      cases resume (second state action) with
      | none => exact iff_of_true rfl nofun
      | some next =>
          -- Both machines are in the same state again.
          exact (ih next).trans ⟨fun hrun other hother => Option.some.inj hother ▸ hrun,
            fun hrun => hrun next rfl⟩

/-- Since the runs may begin anywhere, histories can be left out. -/
theorem historyIndependent_iff {Context Output : Type*} {context : State → Context}
    {output : State → Output} {action : Action} :
    HistoryIndependent step context output action ↔
      ∀ left right leftNext rightNext, context left = context right →
        step left action = some leftNext → step right action = some rightNext →
        output leftNext = output rightNext := by
  constructor
  · intro hindependent left right leftNext rightNext
    exact hindependent left right [] [] left right leftNext rightNext rfl rfl
  · intro hstates first second earlier others left right leftNext rightNext _ _
    exact hstates left right leftNext rightNext

/-- An invariant of the initial state and of every step holds in every
reachable state. -/
theorem invariant_reachable
    (hstep : ∀ state action next, invariant state →
      step state action = some next → invariant next)
    {initial state : State} (hinitial : invariant initial)
    (hreach : Reachable step initial state) : invariant state := by
  rcases hreach with ⟨actions, hrun⟩
  have hguard : GuardedRun step (fun _ _ => True) initial actions :=
    guardedRun_of_forall_mem (fun _ _ _ => trivial) initial
  exact invariant_runFrom
    (fun state action next hstate _ hnext => hstep state action next hstate hnext)
    hinitial hguard hrun

/-- The guarded form of `invariant_reachable`. -/
theorem invariant_reachableUnder
    (hstep : ∀ state action next, invariant state → guard state action →
      step state action = some next → invariant next)
    {initial state : State} (hinitial : invariant initial)
    (hreach : ReachableUnder step guard initial state) : invariant state := by
  rcases hreach with ⟨actions, hguard, hrun⟩
  exact invariant_runFrom hstep hinitial hguard hrun

/-- Bookkeeping: where a step takes one from a balance when it pays, and adds the price when it is
charged, a run does. -/
theorem balance_runFrom {balance : State → Nat} {paid charged : Action → Bool} {price : Nat}
    (hkeep : ∀ state action next, invariant state → guard state action →
      step state action = some next → invariant next)
    (hstep : ∀ state action next, invariant state → guard state action →
      step state action = some next →
        balance next + (if paid action then 1 else 0) =
          balance state + (if charged action then price else 0))
    {state final : State} {actions : List Action} (hstart : invariant state)
    (hguard : GuardedRun step guard state actions)
    (hrun : runFrom step state actions = some final) :
    balance final + actions.countP paid = balance state + price * actions.countP charged := by
  induction actions generalizing state with
  | nil =>
      obtain rfl := Option.some.inj hrun
      rfl
  | cons action rest ih =>
      obtain ⟨next, hnext, hrest⟩ := runFrom_cons_eq_some.mp hrun
      have hfirst := hstep state action next hstart hguard.1 hnext
      have hlater := ih (hkeep state action next hstart hguard.1 hnext) (hguard.2 next hnext) hrest
      have hprice : price * (if charged action then 1 else 0) =
          if charged action then price else 0 := by
        split <;> simp
      rw [List.countP_cons, List.countP_cons, Nat.mul_add, hprice]
      omega

/-- When a step keeps the property exactly when it meets the guard, a run keeps
it throughout exactly when all its steps meet the guard. -/
theorem holdsAlong_iff_guardedRun
    (hkeep : ∀ state action next, invariant state →
      step state action = some next → invariant next)
    (hexact : ∀ state action next, invariant state → property state →
      step state action = some next → (property next ↔ guard state action))
    {state final : State} {actions : List Action}
    (hinvariant : invariant state) (hproperty : property state)
    (hrun : runFrom step state actions = some final) :
    HoldsAlong step property state actions ↔ GuardedRun step guard state actions := by
  induction actions generalizing state with
  | nil => exact Iff.rfl
  | cons action rest ih =>
      obtain ⟨next, hnext, hrest⟩ := runFrom_cons_eq_some.mp hrun
      have hinvariantNext := hkeep state action next hinvariant hnext
      have hlocal := hexact state action next hinvariant hproperty hnext
      constructor
      · intro hholds
        obtain ⟨hpropertyNext, hrestHolds⟩ := hholds next hnext
        refine ⟨hlocal.mp hpropertyNext, fun other hother => ?_⟩
        obtain rfl := Option.some.inj (hnext.symm.trans hother)
        exact (ih hinvariantNext hpropertyNext hrest).mp hrestHolds
      · rintro ⟨hguard, hrestGuard⟩ other hother
        obtain rfl := Option.some.inj (hnext.symm.trans hother)
        have hpropertyNext := hlocal.mpr hguard
        exact ⟨hpropertyNext,
          (ih hinvariantNext hpropertyNext hrest).mpr (hrestGuard next hnext)⟩

end Laws

end Foundation
end AislabVP
