import Mathlib.Data.List.Basic

/-!
# Arrays that are filled downwards

A program fills an array from its upper end and reads what it has filled.  The log of its
accesses shows whether it does this properly: `FilledFrom low high log` says that the log
touches only slots from `low` to `high`, and that each of these is written once, before it is
read.

Reads of filled slots and the write of the next slot keep this, so it holds of a program
when it holds of every single access.
-/

namespace AislabVP
namespace Foundation

/-- An access to the slot with an index. -/
inductive SlotAccess where
  | write (index : Int)
  | read (index : Int)
  deriving DecidableEq, Repr

/-- The slot that is accessed. -/
def SlotAccess.index : SlotAccess → Int
  | .write index => index
  | .read index => index

/-- One entry of the log writes the slot, and all others that touch it come later and
read. -/
def WrittenOnce (log : List SlotAccess) (index : Int) : Prop :=
  ∃ before after, log = before ++ .write index :: after ∧
    (∀ access ∈ before, access.index ≠ index) ∧ .write index ∉ after

/-- The slots from `low` to `high` are filled, and no others are touched. -/
structure FilledFrom (low high : Int) (log : List SlotAccess) : Prop where
  inside : ∀ access ∈ log, low ≤ access.index ∧ access.index < high
  written : ∀ index, low ≤ index → index < high → WrittenOnce log index

section Laws

variable {low high : Int} {log : List SlotAccess}

theorem filledFrom_nil (high : Int) : FilledFrom high high [] where
  inside := nofun
  written := fun _ hlow hhigh => absurd hhigh (Int.not_lt.mpr hlow)

/-- What follows later and does not write the slot does not matter. -/
theorem WrittenOnce.append {index : Int} (hwritten : WrittenOnce log index)
    {later : List SlotAccess} (hlater : .write index ∉ later) :
    WrittenOnce (log ++ later) index := by
  obtain ⟨before, after, rfl, hbefore, hafter⟩ := hwritten
  refine ⟨before, after ++ later, by simp, hbefore, fun hmem => ?_⟩
  rcases List.mem_append.mp hmem with hmem | hmem
  · exact hafter hmem
  · exact hlater hmem

/-- Reads of filled slots. -/
theorem FilledFrom.reads (hfilled : FilledFrom low high log) {indices : List Int}
    (hindices : ∀ index ∈ indices, low ≤ index ∧ index < high) :
    FilledFrom low high (log ++ indices.map .read) where
  inside := by
    intro access hmem
    rcases List.mem_append.mp hmem with hmem | hmem
    · exact hfilled.inside access hmem
    · obtain ⟨index, hindex, rfl⟩ := List.mem_map.mp hmem
      exact hindices index hindex
  written := fun index hlow hhigh =>
    (hfilled.written index hlow hhigh).append (by simp)

/-- The write of the next slot. -/
theorem FilledFrom.write {next : Int} (hfilled : FilledFrom (next + 1) high log)
    (hnext : next < high) : FilledFrom next high (log ++ [.write next]) where
  inside := by
    intro access hmem
    rcases List.mem_append.mp hmem with hmem | hmem
    · have hinside := hfilled.inside access hmem
      omega
    · rw [List.mem_singleton.mp hmem]
      exact ⟨Int.le_refl next, hnext⟩
  written := by
    intro index hlow hhigh
    by_cases hfirst : index = next
    · subst hfirst
      refine ⟨log, [], rfl, fun access hmem => ?_, List.not_mem_nil⟩
      have hinside := hfilled.inside access hmem
      omega
    · refine (hfilled.written index (by omega) hhigh).append fun hmem => ?_
      exact hfirst (SlotAccess.write.inj (List.mem_singleton.mp hmem))

end Laws

end Foundation
end AislabVP
