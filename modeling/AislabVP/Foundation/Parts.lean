import AislabVP.Foundation.AtomicObject

/-!
# Operations in parts

A client may carry out an operation of its own as several operations of an object, one after the
other, and put the answer together from the answers of these parts.  When every operation does
what its parts do (`MadeOf`), a client that sees the object as if it were alone sees its own
operations as if each were one step: those that are complete are the first ones of its program,
with the answers of whole operations (`SeenAlone.joined`).
-/

namespace AislabVP
namespace Foundation

section Parts

variable {Object Input Output Whole Answer : Type*}

/-- The answers of the first operations, as far as all their parts are answered. -/
def joinedAnswers (parts : Whole → List Input) (join : Whole → List Output → Answer) :
    List Whole → List Output → List Answer
  | [], _ => []
  | operation :: rest, outputs =>
      if (parts operation).length ≤ outputs.length then
        join operation (outputs.take (parts operation).length) ::
          joinedAnswers parts join rest (outputs.drop (parts operation).length)
      else []

/-- The operation does what its parts do one after the other. -/
def MadeOf (run : Object → Input → Option (Object × Output))
    (whole : Object → Whole → Option (Object × Answer)) (parts : Whole → List Input)
    (join : Whole → List Output → Answer) (operation : Whole) : Prop :=
  ∀ start log next, log.map Prod.fst = parts operation → Replays run start log next →
    whole start operation = some (next, join operation (log.map Prod.snd))

variable {run : Object → Input → Option (Object × Output)}
  {whole : Object → Whole → Option (Object × Answer)} {parts : Whole → List Input}
  {join : Whole → List Output → Answer}

/-- The first operation of a log. -/
theorem Replays.uncons {start after : Object} {log : List (Input × Output)} {input : Input}
    {inputs : List Input} (hlog : Replays run start log after)
    (hinputs : log.map Prod.fst = input :: inputs) :
    ∃ output next later, log.map Prod.snd = output :: later.map Prod.snd ∧
      run start input = some (next, output) ∧ Replays run next later after ∧
      later.map Prod.fst = inputs := by
  obtain ⟨operation, later, rfl, rfl, hlater⟩ := List.map_eq_cons_iff.mp hinputs
  obtain ⟨next, hrun, hrest⟩ := hlog
  exact ⟨operation.2, next, later, rfl, hrun, hrest, hlater⟩

/-- The answers of one operation stand before those of the rest. -/
theorem joinedAnswers_append {operation : Whole} {front : List Output}
    (hfront : front.length = (parts operation).length) (rest : List Whole)
    (outputs : List Output) :
    joinedAnswers parts join (operation :: rest) (front ++ outputs) =
      join operation front :: joinedAnswers parts join rest outputs := by
  rw [joinedAnswers, if_pos (by rw [List.length_append]; omega), ← hfront, List.take_left,
    List.drop_left]

/-- When all parts are answered, every operation is. -/
theorem length_joinedAnswers {program : List Whole} {outputs : List Output}
    (hall : (program.flatMap parts).length ≤ outputs.length) :
    (joinedAnswers parts join program outputs).length = program.length := by
  induction program generalizing outputs with
  | nil => rfl
  | cons operation rest ih =>
      rw [List.flatMap_cons, List.length_append] at hall
      rw [joinedAnswers, if_pos (by omega), List.length_cons, List.length_cons, ih]
      rw [List.length_drop]
      omega

/-- A prefix that is longer than the first part contains it. -/
theorem exists_of_prefix_append {Item : Type*} {items front back : List Item}
    (hitems : items <+: front ++ back) (hlong : front.length ≤ items.length) :
    ∃ rest, items = front ++ rest ∧ rest <+: back := by
  obtain ⟨rest, rfl⟩ :=
    List.prefix_of_prefix_length_le (List.prefix_append front back) hitems hlong
  exact ⟨rest, rfl, (List.prefix_append_right_inj front).mp hitems⟩

/-- A log of the parts begins with the operations that are complete.  The induction is on the
program. -/
theorem Replays.joined {program : List Whole}
    (hmade : ∀ operation ∈ program, MadeOf run whole parts join operation)
    {start after : Object} {log : List (Input × Output)} {answered : List Output}
    (hlog : Replays run start log after) (hanswered : answered <+: log.map Prod.snd)
    (hinputs : log.map Prod.fst <+: program.flatMap parts) :
    ∃ steps middle later,
      steps.map Prod.fst = program.take (joinedAnswers parts join program answered).length ∧
      steps.map Prod.snd = joinedAnswers parts join program answered ∧
      Replays whole start steps middle ∧ Replays run middle later after ∧
      later.map Prod.fst <+:
        (program.drop (joinedAnswers parts join program answered).length).flatMap parts := by
  induction program generalizing start log answered with
  | nil => exact ⟨[], start, log, rfl, rfl, rfl, hlog, hinputs⟩
  | cons operation rest ih =>
      obtain ⟨hfirst, hrest⟩ := List.forall_mem_cons.mp hmade
      by_cases hall : (parts operation).length ≤ answered.length
      · have hlong : (parts operation).length ≤ (log.map Prod.fst).length := by
          have hcount := hanswered.length_le
          rw [List.length_map] at hcount ⊢
          omega
        rw [List.flatMap_cons] at hinputs
        obtain ⟨inputs, hsplit, hlater⟩ := exists_of_prefix_append hinputs hlong
        obtain ⟨front, back, rfl, hfront, hback⟩ := List.map_eq_append_iff.mp hsplit
        have hlength : (front.map Prod.snd).length = (parts operation).length := by
          rw [← hfront, List.length_map, List.length_map]
        rw [List.map_append] at hanswered
        obtain ⟨outputs, rfl, houtputs⟩ :=
          exists_of_prefix_append hanswered (by rw [hlength]; exact hall)
        obtain ⟨between, hreplaysFront, hreplaysBack⟩ := replays_append.mp hlog
        obtain ⟨steps, middle, later, hprogram, hanswers, hsteps, hrun, hparts⟩ :=
          ih hrest hreplaysBack houtputs (hback ▸ hlater)
        rw [joinedAnswers_append hlength]
        refine ⟨(operation, join operation (front.map Prod.snd)) :: steps, middle, later, ?_, ?_,
          ⟨between, hfirst start front between hfront hreplaysFront, hsteps⟩, hrun, hparts⟩
        · rw [List.map_cons, hprogram, List.length_cons, List.take_succ_cons]
        · rw [List.map_cons, hanswers]
      · have hnone : joinedAnswers parts join (operation :: rest) answered = [] := by
          rw [joinedAnswers, if_neg hall]
        rw [hnone]
        exact ⟨[], start, log, rfl, rfl, rfl, hlog, hinputs⟩

/-- A client alone with the object that runs a program of operations, part by part.  The parts
that it has made after the last complete operation belong to operations that are not complete. -/
theorem SeenAlone.joined {program : List Whole}
    (hmade : ∀ operation ∈ program, MadeOf run whole parts join operation)
    {start after : Object} {invoked : List Input} {answered : List Output}
    {log : List (Input × Output)} (hseen : SeenAlone run start invoked answered log after)
    (hprogram : invoked <+: program.flatMap parts) :
    ∃ steps middle later,
      steps.map Prod.fst = program.take (joinedAnswers parts join program answered).length ∧
      steps.map Prod.snd = joinedAnswers parts join program answered ∧
      Replays whole start steps middle ∧ Replays run middle later after ∧
      later.map Prod.fst <+:
        (program.drop (joinedAnswers parts join program answered).length).flatMap parts := by
  obtain ⟨waiting, hinvoked, -⟩ := hseen.invoked
  obtain ⟨unread, hanswered, -⟩ := hseen.answered
  apply hseen.replays.joined hmade
  · rw [hanswered]
    exact List.prefix_append _ unread
  · exact (List.prefix_append _ waiting).trans (hinvoked ▸ hprogram)

end Parts

end Foundation
end AislabVP
