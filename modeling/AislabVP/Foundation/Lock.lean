import Mathlib.Logic.Basic

/-!
# A lock with one owner

Parties take a lock that is not recursive, and are inside their critical section while
they own it.  `HeldBy` states this for an owner and the set of parties that are inside; so
two parties are never inside together (`HeldBy.unique`).

A step moves one party.  It stays on its side of the lock (`HeldBy.move`), takes the free
lock (`HeldBy.acquire`), or gives the lock up (`HeldBy.release`).
-/

namespace AislabVP
namespace Foundation

section Lock

variable {Who : Type*}

/-- The owner of the lock is the party inside. -/
def HeldBy (owner : Option Who) (inside : Who → Prop) : Prop :=
  ∀ who, inside who ↔ owner = some who

/-- All other parties are where they were. -/
def OthersStay (who : Who) (before after : Who → Prop) : Prop :=
  ∀ other, other ≠ who → (after other ↔ before other)

variable {owner : Option Who} {inside before after : Who → Prop} {who other : Who}

theorem heldBy_none (hnobody : ∀ who, ¬inside who) : HeldBy none inside :=
  fun who => iff_of_false (hnobody who) nofun

/-- Nobody is inside while the lock is free. -/
theorem HeldBy.not_inside (h : HeldBy none inside) : ¬inside who := by
  intro hinside
  cases (h who).mp hinside

/-- Two parties are never inside together. -/
theorem HeldBy.unique (h : HeldBy owner inside) (hwho : inside who) (hother : inside other) :
    who = other := by
  have howner := (h who).mp hwho
  rw [(h other).mp hother] at howner
  exact (Option.some.inj howner).symm

/-- A party moves on its side of the lock. -/
theorem HeldBy.move (h : HeldBy owner before) (hothers : OthersStay who before after)
    (hsame : after who ↔ before who) : HeldBy owner after := by
  intro other
  by_cases hother : other = who
  · rw [hother, hsame]
    exact h who
  · rw [hothers other hother]
    exact h other

/-- A party takes the free lock. -/
theorem HeldBy.acquire (h : HeldBy none before) (hothers : OthersStay who before after)
    (hinside : after who) : HeldBy (some who) after := by
  intro other
  by_cases hother : other = who
  · rw [hother]
    exact iff_of_true hinside rfl
  · rw [hothers other hother]
    exact iff_of_false h.not_inside fun hsame => hother (Option.some.inj hsame).symm

/-- The party inside gives the lock up. -/
theorem HeldBy.release (h : HeldBy owner before) (hothers : OthersStay who before after)
    (hinside : before who) (houtside : ¬after who) : HeldBy none after := by
  intro other
  by_cases hother : other = who
  · rw [hother]
    exact iff_of_false houtside nofun
  · rw [hothers other hother]
    exact iff_of_false (fun hboth => hother (h.unique hboth hinside)) nofun

end Lock

end Foundation
end AislabVP
