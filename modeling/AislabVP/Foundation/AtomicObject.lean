import AislabVP.Foundation.Runs
import Mathlib.Data.List.Basic
import Mathlib.Logic.Function.Basic

/-!
# Atomic objects

An object is a partial function `run : Object → Input → Option (Object × Output)`: one
operation at a time.  Its *atomic* version has any number of processes.  A process
invokes an operation, at some later moment the operation takes effect at once, and
later still the process gets the output.  A system whose invocations and responses
are those of the atomic version is linearizable: every run has a sequential order of
its operations that the object allows and that agrees with real time.

* `atomic_of_simulation`: a relation that every step of a system keeps, with the events
  of the step on the side of the object, shows it for all runs.
* `Atomic.refine`: a related object under the same operations has the same histories.
* `Atomic.left`: linearizability is local; what the history of two objects says about
  the first is a history of the first.
* `Atomic.linearizable`: the sequential order, as a log that has the operations of every
  process once each, in the order in which the process made them.
* `Linearizable.alone`: a process whose part of the object no other process changes gets what
  it would get alone.
-/

namespace AislabVP
namespace Foundation

variable {ι Object Other Input Output : Type*}

/-- What a process is doing with an object. -/
inductive ProcessStatus (Input Output : Type*) where
  | idle
  | pending (input : Input)
  | done (output : Output)

/-- The object and its processes. -/
structure AtomicState (ι Object Input Output : Type*) where
  object : Object
  status : ι → ProcessStatus Input Output

/-- What a process waits for. -/
def ProcessStatus.input : ProcessStatus Input Output → Option Input
  | .pending input => some input
  | .idle | .done _ => none

/-- What a process has not yet got. -/
def ProcessStatus.output : ProcessStatus Input Output → Option Output
  | .done output => some output
  | .idle | .pending _ => none

/-- One process moves on. -/
def AtomicState.move [DecidableEq ι] (now : AtomicState ι Object Input Output) (i : ι)
    (status : ProcessStatus Input Output) : AtomicState ι Object Input Output where
  object := now.object
  status := Function.update now.status i status

/-- The operation of a process takes effect. -/
def AtomicState.effect [DecidableEq ι] (now : AtomicState ι Object Input Output) (i : ι)
    (object : Object) (output : Output) : AtomicState ι Object Input Output where
  object := object
  status := (now.move i (.done output)).status

/-- What is seen of an operation from outside. -/
inductive ObjectEvent (ι Input Output : Type*) where
  | invoke (process : ι) (input : Input)
  | respond (process : ι) (output : Output)
  deriving DecidableEq

/-- Nobody has called. -/
def AtomicState.quiet (object : Object) : AtomicState ι Object Input Output where
  object := object
  status := fun _ => .idle

/-- The atomic version of an object: from one state to another with these events. -/
inductive Atomic [DecidableEq ι] (run : Object → Input → Option (Object × Output)) :
    AtomicState ι Object Input Output → List (ObjectEvent ι Input Output) →
      AtomicState ι Object Input Output → Prop
  | refl (start : AtomicState ι Object Input Output) : Atomic run start [] start
  | invoke {start now : AtomicState ι Object Input Output}
      {history : List (ObjectEvent ι Input Output)} (hbefore : Atomic run start history now)
      (i : ι) (input : Input) (hidle : now.status i = .idle) :
      Atomic run start (history ++ [.invoke i input]) (now.move i (.pending input))
  | perform {start now : AtomicState ι Object Input Output}
      {history : List (ObjectEvent ι Input Output)} (hbefore : Atomic run start history now)
      (i : ι) (input : Input) (object : Object) (output : Output)
      (hpending : now.status i = .pending input)
      (hrun : run now.object input = some (object, output)) :
      Atomic run start history (now.effect i object output)
  | respond {start now : AtomicState ι Object Input Output}
      {history : List (ObjectEvent ι Input Output)} (hbefore : Atomic run start history now)
      (i : ι) (output : Output) (hdone : now.status i = .done output) :
      Atomic run start (history ++ [.respond i output]) (now.move i .idle)

/-- The operations that a process has invoked. -/
def invocations [DecidableEq ι] (i : ι) (history : List (ObjectEvent ι Input Output)) :
    List Input :=
  history.filterMap fun event =>
    match event with
    | .invoke j input => if j = i then some input else none
    | .respond _ _ => none

/-- The outputs that a process has got. -/
def responses [DecidableEq ι] (i : ι) (history : List (ObjectEvent ι Input Output)) :
    List Output :=
  history.filterMap fun event =>
    match event with
    | .invoke _ _ => none
    | .respond j output => if j = i then some output else none

/-- The operations of a process in a log. -/
def operationsOf [DecidableEq ι] (i : ι) (log : List (ι × Input × Output)) :
    List (Input × Output) :=
  log.filterMap fun operation => if operation.1 = i then some operation.2 else none

/-- The events of a run. -/
def historyFrom {State Action Event : Type*} (step : State → Action → Option State)
    (events : State → Action → List Event) : State → List Action → List Event
  | _, [] => []
  | state, action :: rest =>
      match step state action with
      | none => []
      | some next => events state action ++ historyFrom step events next rest

/-- An object that is two objects side by side. -/
def runBoth {Left Right In₁ In₂ Out₁ Out₂ : Type*}
    (left : Left → In₁ → Option (Left × Out₁)) (right : Right → In₂ → Option (Right × Out₂)) :
    Left × Right → In₁ ⊕ In₂ → Option ((Left × Right) × (Out₁ ⊕ Out₂))
  | both, .inl input => (left both.1 input).map fun next => ((next.1, both.2), .inl next.2)
  | both, .inr input => (right both.2 input).map fun next => ((both.1, next.1), .inr next.2)

/-- A log of operations, one after the other. -/
def Replays (run : Object → Input → Option (Object × Output)) :
    Object → List (Input × Output) → Object → Prop
  | object, [], final => final = object
  | object, (input, output) :: rest, final =>
      ∃ next, run object input = some (next, output) ∧ Replays run next rest final

/-! ## Logs -/

section Logs

variable {run : Object → Input → Option (Object × Output)}

theorem replays_append {start final : Object} {earlier later : List (Input × Output)} :
    Replays run start (earlier ++ later) final ↔
      ∃ middle, Replays run start earlier middle ∧ Replays run middle later final := by
  induction earlier generalizing start with
  | nil =>
      constructor
      · intro hlater
        exact ⟨start, rfl, hlater⟩
      · rintro ⟨middle, rfl, hlater⟩
        exact hlater
  | cons operation rest ih =>
      constructor
      · rintro ⟨next, hrun, hrest⟩
        obtain ⟨middle, hearlier, hlater⟩ := ih.mp hrest
        exact ⟨middle, ⟨next, hrun, hearlier⟩, hlater⟩
      · rintro ⟨middle, ⟨next, hrun, hearlier⟩, hlater⟩
        exact ⟨next, hrun, ih.mpr ⟨middle, hearlier, hlater⟩⟩

/-- One more operation at the end. -/
theorem Replays.snoc {start now next : Object} {log : List (Input × Output)} {input : Input}
    {output : Output} (hlog : Replays run start log now)
    (hrun : run now input = some (next, output)) :
    Replays run start (log ++ [(input, output)]) next :=
  replays_append.mpr ⟨now, hlog, next, hrun, rfl⟩

/-- A log has one outcome. -/
theorem Replays.unique {start final other : Object} {log : List (Input × Output)}
    (hfinal : Replays run start log final) (hother : Replays run start log other) :
    final = other := by
  induction log generalizing start with
  | nil => exact hfinal.trans hother.symm
  | cons operation rest ih =>
      obtain ⟨next, hrun, hrest⟩ := hfinal
      obtain ⟨next', hrun', hrest'⟩ := hother
      obtain ⟨rfl, -⟩ := Prod.mk.inj (Option.some.inj (hrun.symm.trans hrun'))
      exact ih hrest hrest'

/-- Of two logs from one object, the one that makes the first operations of the other has its
outputs. -/
theorem Replays.prefix_of_inputs {start middle final : Object} {log whole : List (Input × Output)}
    (hlog : Replays run start log middle) (hwhole : Replays run start whole final)
    (hinputs : log.map Prod.fst <+: whole.map Prod.fst) : log <+: whole := by
  induction log generalizing start whole with
  | nil => exact List.nil_prefix
  | cons operation rest ih =>
      obtain ⟨input, output⟩ := operation
      cases whole with
      | nil => exact absurd (List.prefix_nil.mp hinputs) (by simp)
      | cons other others =>
          obtain ⟨input', output'⟩ := other
          obtain ⟨hsame, hrestInputs⟩ := List.cons_prefix_cons.mp hinputs
          obtain rfl : input = input' := hsame
          obtain ⟨next, hrun, hrest⟩ := hlog
          obtain ⟨next', hrun', hrest'⟩ := hwhole
          obtain ⟨rfl, rfl⟩ := Prod.mk.inj (Option.some.inj (hrun.symm.trans hrun'))
          exact List.cons_prefix_cons.mpr ⟨rfl, ih hrest hrest' hrestInputs⟩

end Logs

/-! ## Histories -/

section Histories

variable [DecidableEq ι] {run : Object → Input → Option (Object × Output)}

@[simp] theorem move_object (now : AtomicState ι Object Input Output) (i : ι)
    (status : ProcessStatus Input Output) : (now.move i status).object = now.object := rfl

@[simp] theorem move_status_self (now : AtomicState ι Object Input Output) (i : ι)
    (status : ProcessStatus Input Output) : (now.move i status).status i = status := by
  simp [AtomicState.move]

theorem move_status_of_ne {now : AtomicState ι Object Input Output} {i j : ι}
    {status : ProcessStatus Input Output} (hne : j ≠ i) :
    (now.move i status).status j = now.status j := by
  simp [AtomicState.move, hne]

@[simp] theorem effect_status_self (now : AtomicState ι Object Input Output) (i : ι)
    (object : Object) (output : Output) :
    (now.effect i object output).status i = .done output :=
  move_status_self ..

theorem effect_status_of_ne {now : AtomicState ι Object Input Output} {i j : ι}
    {object : Object} {output : Output} (hne : j ≠ i) :
    (now.effect i object output).status j = now.status j :=
  move_status_of_ne hne

theorem Atomic.trans {start middle final : AtomicState ι Object Input Output}
    {earlier later : List (ObjectEvent ι Input Output)} (hearlier : Atomic run start earlier middle)
    (hlater : Atomic run middle later final) : Atomic run start (earlier ++ later) final := by
  induction hlater with
  | refl =>
      rw [List.append_nil]
      exact hearlier
  | invoke _ i input hidle ih =>
      rw [← List.append_assoc]
      exact ih.invoke i input hidle
  | perform _ i input object output hpending hrun ih =>
      exact ih.perform i input object output hpending hrun
  | respond _ i output hdone ih =>
      rw [← List.append_assoc]
      exact ih.respond i output hdone

/-- Forward simulation: when every guarded step of a system is a part of a history of the
object, with the events of the step, every guarded run is one. -/
theorem atomic_of_simulation {State Action : Type*} {step : State → Action → Option State}
    {guard : State → Action → Prop}
    {events : State → Action → List (ObjectEvent ι Input Output)}
    {related : State → AtomicState ι Object Input Output → Prop}
    (hstep : ∀ state action next now, related state now → guard state action →
      step state action = some next →
        ∃ after, Atomic run now (events state action) after ∧ related next after)
    {state final : State} {actions : List Action} {now : AtomicState ι Object Input Output}
    (hstart : related state now) (hguard : GuardedRun step guard state actions)
    (hrun : runFrom step state actions = some final) :
    ∃ after, Atomic run now (historyFrom step events state actions) after ∧
      related final after := by
  induction actions generalizing state now with
  | nil =>
      obtain rfl := Option.some.inj hrun
      exact ⟨now, .refl now, hstart⟩
  | cons action rest ih =>
      obtain ⟨next, hnext, hrest⟩ := runFrom_cons_eq_some.mp hrun
      obtain ⟨middle, hfirst, hmiddle⟩ := hstep state action next now hstart hguard.1 hnext
      obtain ⟨after, hlater, hafter⟩ := ih hmiddle (hguard.2 next hnext) hrest
      refine ⟨after, ?_, hafter⟩
      rw [historyFrom, hnext]
      exact hfirst.trans hlater

/-- The events of a run are those of its actions. -/
theorem exists_action_of_mem_historyFrom {State Action Event : Type*}
    {step : State → Action → Option State} {events : State → Action → List Event}
    {state : State} {actions : List Action} {event : Event}
    (hmem : event ∈ historyFrom step events state actions) :
    ∃ before, ∃ action ∈ actions, event ∈ events before action := by
  induction actions generalizing state with
  | nil => exact absurd hmem List.not_mem_nil
  | cons action rest ih =>
      rw [historyFrom] at hmem
      split at hmem
      · exact absurd hmem List.not_mem_nil
      · rw [List.mem_append] at hmem
        rcases hmem with hfirst | hrest
        · exact ⟨state, action, List.mem_cons_self, hfirst⟩
        · obtain ⟨before, other, hother, hevent⟩ := ih hrest
          exact ⟨before, other, List.mem_cons_of_mem _ hother, hevent⟩

/-! ## The sequential order -/

theorem mem_invocations {i : ι} {input : Input}
    {history : List (ObjectEvent ι Input Output)} :
    input ∈ invocations i history ↔ .invoke i input ∈ history := by
  rw [invocations, List.mem_filterMap]
  constructor
  · rintro ⟨event, hmem, hevent⟩
    cases event with
    | invoke j other =>
        obtain ⟨rfl, hother⟩ := Option.ite_none_right_eq_some.mp hevent
        obtain rfl := Option.some.inj hother
        exact hmem
    | respond j output => cases hevent
  · intro hmem
    exact ⟨_, hmem, if_pos rfl⟩

theorem invocations_append (i : ι) (earlier later : List (ObjectEvent ι Input Output)) :
    invocations i (earlier ++ later) = invocations i earlier ++ invocations i later :=
  List.filterMap_append ..

theorem responses_append (i : ι) (earlier later : List (ObjectEvent ι Input Output)) :
    responses i (earlier ++ later) = responses i earlier ++ responses i later :=
  List.filterMap_append ..

theorem operationsOf_append (i : ι) (earlier later : List (ι × Input × Output)) :
    operationsOf i (earlier ++ later) = operationsOf i earlier ++ operationsOf i later :=
  List.filterMap_append ..

/-- A log is a sequential order of a history: it has the operations of every process, those
that have taken effect, with the outputs that the process got. -/
structure Linearizes (log : List (ι × Input × Output))
    (history : List (ObjectEvent ι Input Output)) (now : AtomicState ι Object Input Output) :
    Prop where
  invoked : ∀ i, invocations i history =
    (operationsOf i log).map Prod.fst ++ (now.status i).input.toList
  answered : ∀ i, (operationsOf i log).map Prod.snd =
    responses i history ++ (now.status i).output.toList

theorem Linearizes.invoke {log : List (ι × Input × Output)}
    {history : List (ObjectEvent ι Input Output)} {now : AtomicState ι Object Input Output}
    (hlog : Linearizes log history now) {i : ι} (input : Input) (hidle : now.status i = .idle) :
    Linearizes log (history ++ [.invoke i input]) (now.move i (.pending input)) := by
  constructor
  · intro j
    rw [invocations_append, hlog.invoked j]
    by_cases hsame : i = j
    · subst hsame
      simp [hidle, invocations, ProcessStatus.input]
    · rw [move_status_of_ne (Ne.symm hsame)]
      simp [hsame, invocations]
  · intro j
    rw [responses_append, hlog.answered j]
    by_cases hsame : i = j
    · subst hsame
      simp [hidle, responses, ProcessStatus.output]
    · rw [move_status_of_ne (Ne.symm hsame)]
      simp [responses]

theorem Linearizes.perform {log : List (ι × Input × Output)}
    {history : List (ObjectEvent ι Input Output)} {now : AtomicState ι Object Input Output}
    (hlog : Linearizes log history now) {i : ι} {input : Input} (object : Object)
    (output : Output) (hpending : now.status i = .pending input) :
    Linearizes (log ++ [(i, input, output)]) history (now.effect i object output) := by
  constructor
  · intro j
    rw [operationsOf_append, hlog.invoked j]
    by_cases hsame : i = j
    · subst hsame
      simp [hpending, operationsOf, ProcessStatus.input]
    · rw [effect_status_of_ne (Ne.symm hsame)]
      simp [hsame, operationsOf]
  · intro j
    rw [operationsOf_append, List.map_append, hlog.answered j]
    by_cases hsame : i = j
    · subst hsame
      simp [hpending, operationsOf, ProcessStatus.output]
    · rw [effect_status_of_ne (Ne.symm hsame)]
      simp [hsame, operationsOf]

theorem Linearizes.respond {log : List (ι × Input × Output)}
    {history : List (ObjectEvent ι Input Output)} {now : AtomicState ι Object Input Output}
    (hlog : Linearizes log history now) {i : ι} {output : Output}
    (hdone : now.status i = .done output) :
    Linearizes log (history ++ [.respond i output]) (now.move i .idle) := by
  constructor
  · intro j
    rw [invocations_append, hlog.invoked j]
    by_cases hsame : i = j
    · subst hsame
      simp [hdone, invocations, ProcessStatus.input]
    · rw [move_status_of_ne (Ne.symm hsame)]
      simp [invocations]
  · intro j
    rw [responses_append, hlog.answered j]
    by_cases hsame : i = j
    · subst hsame
      simp [hdone, responses, ProcessStatus.output]
    · rw [move_status_of_ne (Ne.symm hsame)]
      simp [hsame, responses]

/-- A history of the atomic version that ends in the object `final`, with a sequential order
that the object allows. -/
def Linearizable (run : Object → Input → Option (Object × Output)) (start : Object)
    (history : List (ObjectEvent ι Input Output)) (final : Object) : Prop :=
  ∃ status log, Atomic run (AtomicState.quiet start) history { object := final, status := status } ∧
    Linearizes log history { object := final, status := status } ∧
    Replays run start (log.map Prod.snd) final

/-- Every history has a sequential order. -/
theorem Atomic.replays {object : Object} {now : AtomicState ι Object Input Output}
    {history : List (ObjectEvent ι Input Output)}
    (hhistory : Atomic run (AtomicState.quiet object) history now) :
    ∃ log, Replays run object (log.map Prod.snd) now.object ∧ Linearizes log history now := by
  induction hhistory with
  | refl =>
      exact ⟨[], rfl, fun _ => rfl, fun _ => rfl⟩
  | invoke _ i input hidle ih =>
      obtain ⟨log, hreplays, hlog⟩ := ih
      exact ⟨log, hreplays, hlog.invoke input hidle⟩
  | perform _ i input next output hpending hrun ih =>
      obtain ⟨log, hreplays, hlog⟩ := ih
      refine ⟨log ++ [(i, input, output)], ?_, hlog.perform next output hpending⟩
      rw [List.map_append]
      exact hreplays.snoc hrun
  | respond _ i output hdone ih =>
      obtain ⟨log, hreplays, hlog⟩ := ih
      exact ⟨log, hreplays, hlog.respond hdone⟩

theorem Atomic.linearizable {object : Object} {now : AtomicState ι Object Input Output}
    {history : List (ObjectEvent ι Input Output)}
    (hhistory : Atomic run (AtomicState.quiet object) history now) :
    Linearizable run object history now.object := by
  obtain ⟨log, hreplays, hlog⟩ := hhistory.replays
  exact ⟨now.status, log, hhistory, hlog, hreplays⟩

/-! ## A process that has a part of the object for itself -/

section Alone

variable {agree : Object → Object → Prop} {own foreign : Input → Prop} {i : ι}

theorem operationsOf_cons_self (operation : ι × Input × Output)
    (rest : List (ι × Input × Output)) (hsame : operation.1 = i) :
    operationsOf i (operation :: rest) = operation.2 :: operationsOf i rest :=
  List.filterMap_cons_some (if_pos hsame)

theorem operationsOf_cons_of_ne (operation : ι × Input × Output)
    (rest : List (ι × Input × Output)) (hother : operation.1 ≠ i) :
    operationsOf i (operation :: rest) = operationsOf i rest :=
  List.filterMap_cons_none (if_neg hother)

/-- In a log the operations of a process have the outputs that they have without the others,
when the others leave its part of the object alone. -/
theorem replays_operationsOf
    (hown : ∀ object alone input next output, agree object alone → own input →
      run object input = some (next, output) →
        ∃ after, run alone input = some (after, output) ∧ agree next after)
    (hforeign : ∀ object alone input next output, agree object alone → foreign input →
      run object input = some (next, output) → agree next alone)
    {log : List (ι × Input × Output)} (hlogOwn : ∀ operation ∈ log, operation.1 = i →
      own operation.2.1)
    (hlogForeign : ∀ operation ∈ log, operation.1 ≠ i → foreign operation.2.1)
    {start final alone : Object} (hstart : agree start alone)
    (hreplays : Replays run start (log.map Prod.snd) final) :
    ∃ after, Replays run alone (operationsOf i log) after ∧ agree final after := by
  induction log generalizing start alone with
  | nil =>
      obtain rfl := hreplays
      exact ⟨alone, rfl, hstart⟩
  | cons operation rest ih =>
      obtain ⟨j, input, output⟩ := operation
      obtain ⟨next, hrun, hrest⟩ := hreplays
      obtain ⟨hfirstOwn, hrestOwn⟩ := List.forall_mem_cons.mp hlogOwn
      obtain ⟨hfirstForeign, hrestForeign⟩ := List.forall_mem_cons.mp hlogForeign
      by_cases hsame : j = i
      · obtain ⟨middle, halone, hmiddle⟩ := hown _ _ _ _ _ hstart (hfirstOwn hsame) hrun
        obtain ⟨after, hlater, hafter⟩ := ih hrestOwn hrestForeign hmiddle hrest
        refine ⟨after, ?_, hafter⟩
        rw [operationsOf_cons_self _ _ hsame]
        exact ⟨middle, halone, hlater⟩
      · have hmiddle := hforeign _ _ _ _ _ hstart (hfirstForeign hsame) hrun
        obtain ⟨after, hlater, hafter⟩ := ih hrestOwn hrestForeign hmiddle hrest
        refine ⟨after, ?_, hafter⟩
        rw [operationsOf_cons_of_ne _ _ hsame]
        exact hlater

/-- What is in the log was invoked. -/
theorem Linearizes.mem_invocations {log : List (ι × Input × Output)}
    {history : List (ObjectEvent ι Input Output)} {now : AtomicState ι Object Input Output}
    (hlog : Linearizes log history now) {operation : ι × Input × Output} (hmem : operation ∈ log) :
    operation.2.1 ∈ invocations operation.1 history := by
  rw [hlog.invoked operation.1]
  refine List.mem_append_left _ (List.mem_map_of_mem ?_)
  exact List.mem_filterMap.mpr ⟨operation, hmem, if_pos rfl⟩

/-- What a process sees of its operations: a log of them that the object allows when nobody
else uses it.  Of the operations invoked the last one may not have taken effect, and the last
output may not have arrived. -/
structure SeenAlone (run : Object → Input → Option (Object × Output)) (start : Object)
    (invoked : List Input) (answered : List Output) (log : List (Input × Output))
    (after : Object) : Prop where
  replays : Replays run start log after
  invoked : ∃ waiting, invoked = log.map Prod.fst ++ waiting ∧ waiting.length ≤ 1
  answered : ∃ unread, log.map Prod.snd = answered ++ unread ∧ unread.length ≤ 1

theorem length_toList_le {Item : Type*} (item : Option Item) : item.toList.length ≤ 1 := by
  cases item with
  | none => exact Nat.zero_le 1
  | some item => exact Nat.le_refl 1

theorem Linearizable.alone
    (hown : ∀ object alone input next output, agree object alone → own input →
      run object input = some (next, output) →
        ∃ after, run alone input = some (after, output) ∧ agree next after)
    (hforeign : ∀ object alone input next output, agree object alone → foreign input →
      run object input = some (next, output) → agree next alone)
    {start final : Object} {history : List (ObjectEvent ι Input Output)}
    (hhistory : Linearizable run start history final)
    (hinvokesOwn : ∀ input ∈ invocations i history, own input)
    (hinvokesForeign : ∀ j, j ≠ i → ∀ input ∈ invocations j history, foreign input)
    (hstart : agree start start) :
    ∃ log after, SeenAlone run start (invocations i history) (responses i history) log after ∧
      agree final after := by
  obtain ⟨status, log, -, hlog, hreplays⟩ := hhistory
  have hlogOwn : ∀ operation ∈ log, operation.1 = i → own operation.2.1 := by
    intro operation hmem hsame
    have hinvoked := hlog.mem_invocations hmem
    rw [hsame] at hinvoked
    exact hinvokesOwn _ hinvoked
  have hlogForeign : ∀ operation ∈ log, operation.1 ≠ i → foreign operation.2.1 :=
    fun operation hmem hother => hinvokesForeign _ hother _ (hlog.mem_invocations hmem)
  obtain ⟨after, halone, hafter⟩ :=
    replays_operationsOf hown hforeign hlogOwn hlogForeign hstart hreplays
  exact ⟨operationsOf i log, after,
    ⟨halone, ⟨_, hlog.invoked i, length_toList_le _⟩, ⟨_, hlog.answered i, length_toList_le _⟩⟩,
    hafter⟩

end Alone

/-! ## Refinement -/

/-- The operations that an object is asked for. -/
def InvokesOnly (allowed : Input → Prop) (history : List (ObjectEvent ι Input Output)) : Prop :=
  ∀ i, ∀ input ∈ invocations i history, allowed input

theorem InvokesOnly.of_append {allowed : Input → Prop}
    {earlier later : List (ObjectEvent ι Input Output)}
    (hall : InvokesOnly allowed (earlier ++ later)) : InvokesOnly allowed earlier := by
  intro i input hmem
  refine hall i input ?_
  rw [invocations_append]
  exact List.mem_append_left _ hmem

/-- What is pending was invoked. -/
theorem Atomic.pending_allowed {allowed : Input → Prop} {object : Object}
    {now : AtomicState ι Object Input Output} {history : List (ObjectEvent ι Input Output)}
    (hhistory : Atomic run (AtomicState.quiet object) history now)
    (hallowed : InvokesOnly allowed history) {i : ι} {input : Input}
    (hpending : now.status i = .pending input) : allowed input := by
  obtain ⟨log, -, hlog⟩ := hhistory.replays
  refine hallowed i input ?_
  rw [hlog.invoked i, hpending]
  exact List.mem_append_right _ (List.mem_singleton_self _)

/-- An object that answers as another one, on the operations that occur, has its histories. -/
theorem Atomic.refine {other : Other → Input → Option (Other × Output)}
    {related : Object → Other → Prop} {allowed : Input → Prop}
    (hrefines : ∀ object abstract input next output, related object abstract → allowed input →
      run object input = some (next, output) →
        ∃ after, other abstract input = some (after, output) ∧ related next after)
    {object : Object} {abstract : Other} (hstart : related object abstract)
    {now : AtomicState ι Object Input Output} {history : List (ObjectEvent ι Input Output)}
    (hhistory : Atomic run (AtomicState.quiet object) history now)
    (hallowed : InvokesOnly allowed history) :
    ∃ after, related now.object after ∧ Atomic other (AtomicState.quiet abstract) history
      { object := after, status := now.status } := by
  induction hhistory with
  | refl =>
      exact ⟨abstract, hstart, .refl _⟩
  | invoke _ i input hidle ih =>
      obtain ⟨after, hrelated, hbefore⟩ := ih hallowed.of_append
      exact ⟨after, hrelated, hbefore.invoke i input hidle⟩
  | perform hpast i input next output hpending hrun ih =>
      obtain ⟨middle, hrelated, hbefore⟩ := ih hallowed
      have hinput : allowed input := hpast.pending_allowed hallowed hpending
      obtain ⟨after, hother, hnext⟩ := hrefines _ _ _ _ _ hrelated hinput hrun
      exact ⟨after, hnext, hbefore.perform i input after output hpending hother⟩
  | respond _ i output hdone ih =>
      obtain ⟨after, hrelated, hbefore⟩ := ih hallowed.of_append
      exact ⟨after, hrelated, hbefore.respond i output hdone⟩

end Histories

/-! ## Two objects -/

section Both

variable {Left Right In₁ In₂ Out₁ Out₂ : Type*}

/-- An operation of the first object. -/
def ProcessStatus.left : ProcessStatus (In₁ ⊕ In₂) (Out₁ ⊕ Out₂) → ProcessStatus In₁ Out₁
  | .pending (.inl input) => .pending input
  | .done (.inl output) => .done output
  | .idle | .pending (.inr _) | .done (.inr _) => .idle

/-- The first object and its operations. -/
def AtomicState.left (now : AtomicState ι (Left × Right) (In₁ ⊕ In₂) (Out₁ ⊕ Out₂)) :
    AtomicState ι Left In₁ Out₁ where
  object := now.object.1
  status := fun i => (now.status i).left

/-- The events of the first object. -/
def leftHistory (history : List (ObjectEvent ι (In₁ ⊕ In₂) (Out₁ ⊕ Out₂))) :
    List (ObjectEvent ι In₁ Out₁) :=
  history.filterMap fun event =>
    match event with
    | .invoke i (.inl input) => some (.invoke i input)
    | .respond i (.inl output) => some (.respond i output)
    | .invoke _ (.inr _) | .respond _ (.inr _) => none

theorem invoke_mem_leftHistory {i : ι} {input : In₁}
    {history : List (ObjectEvent ι (In₁ ⊕ In₂) (Out₁ ⊕ Out₂))}
    (hmem : .invoke i input ∈ leftHistory history) : .invoke i (.inl input) ∈ history := by
  rw [leftHistory, List.mem_filterMap] at hmem
  obtain ⟨event, hevent, hleft⟩ := hmem
  cases event with
  | invoke j other =>
      cases other with
      | inl first =>
          cases hleft
          exact hevent
      | inr second => cases hleft
  | respond j output => cases output <;> cases hleft

variable [DecidableEq ι]

theorem left_move (now : AtomicState ι (Left × Right) (In₁ ⊕ In₂) (Out₁ ⊕ Out₂)) (i : ι)
    (status : ProcessStatus (In₁ ⊕ In₂) (Out₁ ⊕ Out₂)) :
    (now.move i status).left = now.left.move i status.left := by
  refine congrArg (AtomicState.mk now.object.1) (funext fun j => ?_)
  by_cases hsame : j = i
  · subst hsame
    simp
  · rw [move_status_of_ne hsame]
    simp [AtomicState.left, hsame]

/-- A process that is idle for the first object stays so. -/
theorem move_idle {now : AtomicState ι Object Input Output} {i : ι}
    (hidle : now.status i = .idle) : now.move i .idle = now := by
  refine congrArg (AtomicState.mk now.object) (funext fun j => ?_)
  by_cases hsame : j = i
  · subst hsame
    simp [hidle]
  · simp [hsame]

/-- Locality: the first of two objects has the history that its events make. -/
theorem Atomic.left {left : Left → In₁ → Option (Left × Out₁)}
    {right : Right → In₂ → Option (Right × Out₂)}
    {start now : AtomicState ι (Left × Right) (In₁ ⊕ In₂) (Out₁ ⊕ Out₂)}
    {history : List (ObjectEvent ι (In₁ ⊕ In₂) (Out₁ ⊕ Out₂))}
    (hhistory : Atomic (runBoth left right) start history now) :
    Atomic left start.left (leftHistory history) now.left := by
  induction hhistory with
  | refl => exact .refl _
  | @invoke before history _ i input hidle ih =>
      have hstatus : before.left.status i = .idle := congrArg ProcessStatus.left hidle
      rw [left_move, leftHistory, List.filterMap_append]
      cases input with
      | inl input => exact ih.invoke i input hstatus
      | inr input =>
          rw [show (ProcessStatus.pending (Sum.inr input)).left = .idle from rfl,
            move_idle hstatus]
          exact (List.append_nil _).symm ▸ ih
  | @perform before history _ i input object output hpending hrun ih =>
      cases input with
      | inl input =>
          obtain ⟨⟨next, result⟩, hleft, hnext⟩ := Option.map_eq_some_iff.mp hrun
          obtain ⟨rfl, rfl⟩ := Prod.mk.inj hnext
          have hstatus : before.left.status i = .pending input :=
            congrArg ProcessStatus.left hpending
          have hmoved : (before.effect i (next, before.object.2) (.inl result)).left =
              before.left.effect i next result :=
            congrArg (AtomicState.mk next) (congrArg AtomicState.status (left_move before i _))
          rw [hmoved]
          exact ih.perform i input next result hstatus hleft
      | inr input =>
          obtain ⟨⟨next, result⟩, hright, hnext⟩ := Option.map_eq_some_iff.mp hrun
          obtain ⟨rfl, rfl⟩ := Prod.mk.inj hnext
          have hstatus : before.left.status i = .idle := congrArg ProcessStatus.left hpending
          have hmoved : (before.effect i (before.object.1, next) (.inr result)).left =
              before.left := (left_move before i _).trans (move_idle hstatus)
          rw [hmoved]
          exact ih
  | @respond before history _ i output hdone ih =>
      rw [left_move, leftHistory, List.filterMap_append]
      cases output with
      | inl output =>
          have hstatus : before.left.status i = .done output :=
            congrArg ProcessStatus.left hdone
          exact ih.respond i output hstatus
      | inr output =>
          have hstatus : before.left.status i = .idle := congrArg ProcessStatus.left hdone
          rw [show (ProcessStatus.idle : ProcessStatus (In₁ ⊕ In₂) (Out₁ ⊕ Out₂)).left = .idle
            from rfl, move_idle hstatus]
          exact (List.append_nil _).symm ▸ ih

end Both

end Foundation
end AislabVP
