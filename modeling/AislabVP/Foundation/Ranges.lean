import Mathlib.Data.List.Pairwise

/-!
# Address ranges

Ranges of addresses, when two of them share no address, and ranges that are repeated at a
stride.  A `Bank` is a group of ranges with one instance for every index, each inside a
window of its own; the instances of several banks are apart from each other when the
zones that the banks may take are (`pairwise_apart_instances`), so a layout with any
number of instances is checked on its zones.
-/

namespace AislabVP
namespace Foundation

/-- The addresses from `base` to `base + size - 1`. -/
structure AddressRange where
  base : Nat
  size : Nat
  deriving DecidableEq, Repr

namespace AddressRange

/-- The first address behind the range. -/
def stop (range : AddressRange) : Nat := range.base + range.size

/-- The address is one of the range. -/
def Contains (range : AddressRange) (cell : Nat) : Prop :=
  range.base ≤ cell ∧ cell < range.stop

/-- The ranges share no address. -/
def Apart (left right : AddressRange) : Prop :=
  ∀ cell, left.Contains cell → ¬right.Contains cell

/-- Every address of the first range is one of the second. -/
def Inside (inner outer : AddressRange) : Prop :=
  ∀ cell, inner.Contains cell → outer.Contains cell

theorem apart_iff (left right : AddressRange) :
    left.Apart right ↔
      left.size = 0 ∨ right.size = 0 ∨ left.stop ≤ right.base ∨ right.stop ≤ left.base := by
  constructor
  · intro hapart
    by_contra hmeet
    simp only [not_or, Nat.not_le] at hmeet
    obtain ⟨hleft, hright, hbelow, habove⟩ := hmeet
    -- The larger one of the two bases is in both ranges.
    refine hapart (max left.base right.base) ⟨by omega, ?_⟩ ⟨by omega, ?_⟩
    · unfold stop at *
      omega
    · unfold stop at *
      omega
  · rintro hsides cell ⟨hlow, hhigh⟩ ⟨hlow', hhigh'⟩
    unfold stop at *
    omega

instance (left right : AddressRange) : Decidable (left.Apart right) :=
  decidable_of_iff _ (apart_iff left right).symm

theorem Apart.symm {left right : AddressRange} (hapart : left.Apart right) :
    right.Apart left :=
  fun cell hright hleft => hapart cell hleft hright

instance : Std.Symm Apart := ⟨fun _ _ => Apart.symm⟩

theorem apart_of_le {left right : AddressRange} (hle : left.stop ≤ right.base) :
    left.Apart right :=
  (apart_iff left right).mpr (Or.inr (Or.inr (Or.inl hle)))

/-- Ranges that are parts of ranges that are apart. -/
theorem Apart.mono {left right outer other : AddressRange} (hapart : outer.Apart other)
    (hleft : left.Inside outer) (hright : right.Inside other) : left.Apart right :=
  fun cell hcell hcell' => hapart cell (hleft cell hcell) (hright cell hcell')

theorem inside_of_le {inner outer : AddressRange} (hbase : outer.base ≤ inner.base)
    (hstop : inner.stop ≤ outer.stop) : inner.Inside outer :=
  fun _ hcell => ⟨Nat.le_trans hbase hcell.1, Nat.lt_of_lt_of_le hcell.2 hstop⟩

theorem Inside.trans {inner middle outer : AddressRange} (hinner : inner.Inside middle)
    (houter : middle.Inside outer) : inner.Inside outer :=
  fun cell hcell => houter cell (hinner cell hcell)

end AddressRange

open AddressRange

/-- Parts of windows at a stride that overlap are parts of one window. -/
theorem index_eq_of_overlap {stride size index other offset otherOffset : Nat}
    (hoffset : offset + size ≤ stride) (hother : otherOffset + size ≤ stride)
    (hbelow : index * stride + offset < other * stride + otherOffset + size)
    (habove : other * stride + otherOffset < index * stride + offset + size) :
    index = other := by
  by_contra hne
  rcases Nat.lt_or_gt_of_ne hne with hless | hmore
  · have hnext : (index + 1) * stride ≤ other * stride := Nat.mul_le_mul_right _ hless
    rw [Nat.succ_mul] at hnext
    omega
  · have hnext : (other + 1) * stride ≤ index * stride := Nat.mul_le_mul_right _ hmore
    rw [Nat.succ_mul] at hnext
    omega

/-! ## Banks -/

/-- A group of ranges with an instance for every index, each in the window of its
index. -/
structure Bank where
  base : Nat
  stride : Nat
  instances : Nat → List AddressRange
  inWindow : ∀ index, ∀ range ∈ instances index,
    range.Inside { base := base + index * stride, size := stride }
  apart : ∀ index, (instances index).Pairwise Apart

namespace Bank

/-- Where the instance of an index is. -/
def window (bank : Bank) (index : Nat) : AddressRange where
  base := bank.base + index * bank.stride
  size := bank.stride

/-- Where the instances with the indices below `limit` are. -/
def zone (bank : Bank) (limit : Nat) : AddressRange where
  base := bank.base
  size := limit * bank.stride

theorem window_apart (bank : Bank) {index other : Nat} (hless : index < other) :
    (bank.window index).Apart (bank.window other) := by
  apply apart_of_le
  have hnext : (index + 1) * bank.stride ≤ other * bank.stride :=
    Nat.mul_le_mul_right _ hless
  rw [Nat.succ_mul] at hnext
  show bank.base + index * bank.stride + bank.stride ≤ bank.base + other * bank.stride
  omega

theorem window_inside_zone (bank : Bank) {index limit : Nat} (hindex : index < limit) :
    (bank.window index).Inside (bank.zone limit) := by
  have hnext : (index + 1) * bank.stride ≤ limit * bank.stride :=
    Nat.mul_le_mul_right _ hindex
  rw [Nat.succ_mul] at hnext
  apply inside_of_le
  · exact Nat.le_add_right _ _
  · show bank.base + index * bank.stride + bank.stride ≤ bank.base + limit * bank.stride
    omega

theorem inside_zone (bank : Bank) {index limit : Nat} (hindex : index < limit)
    {range : AddressRange} (hrange : range ∈ bank.instances index) :
    range.Inside (bank.zone limit) :=
  (bank.inWindow index range hrange).trans (bank.window_inside_zone hindex)

end Bank

variable {banks : List Bank} {limit : Nat}

/-- The instances of one index of several banks. -/
def instancesAt (banks : List Bank) (index : Nat) : List AddressRange :=
  banks.flatMap fun bank => bank.instances index

theorem instancesAt_inside_zone {index : Nat} (hindex : index < limit) {range : AddressRange}
    (hrange : range ∈ instancesAt banks index) :
    ∃ bank ∈ banks, range.Inside (bank.zone limit) := by
  rcases List.mem_flatMap.mp hrange with ⟨bank, hbank, hmem⟩
  exact ⟨bank, hbank, bank.inside_zone hindex hmem⟩

/-- Two banks of the list are the same or have zones that are apart. -/
theorem zones_apart (hzones : banks.Pairwise fun bank other =>
      (bank.zone limit).Apart (other.zone limit))
    {bank other : Bank} (hbank : bank ∈ banks) (hother : other ∈ banks) :
    bank = other ∨ (bank.zone limit).Apart (other.zone limit) := by
  have hsymm : Std.Symm fun bank other : Bank => (bank.zone limit).Apart (other.zone limit) :=
    ⟨fun _ _ => Apart.symm⟩
  by_cases hsame : bank = other
  · exact Or.inl hsame
  · exact Or.inr (hzones.forall hbank hother hsame)

/-- Instances of banks whose zones are apart are apart. -/
theorem pairwise_apart_instances
    (hzones : banks.Pairwise fun bank other => (bank.zone limit).Apart (other.zone limit))
    {indices : List Nat} (hindices : indices.Pairwise (· < ·))
    (hlimit : ∀ index ∈ indices, index < limit) :
    (indices.flatMap (instancesAt banks)).Pairwise Apart := by
  rw [List.pairwise_flatMap]
  constructor
  · -- The instances of one index: inside a bank, and of different banks.
    intro index hindex
    rw [instancesAt, List.pairwise_flatMap]
    refine ⟨fun bank _ => bank.apart index, ?_⟩
    refine hzones.imp fun {bank other} hapart left hleft right hright => ?_
    exact hapart.mono (bank.inside_zone (hlimit index hindex) hleft)
      (other.inside_zone (hlimit index hindex) hright)
  · refine hindices.imp_of_mem fun {index later} hindex hlater hless left hleft right hright => ?_
    rcases List.mem_flatMap.mp hleft with ⟨bank, hbank, hleft⟩
    rcases List.mem_flatMap.mp hright with ⟨other, hother, hright⟩
    rcases zones_apart hzones hbank hother with hsame | hapart
    · subst hsame
      exact (bank.window_apart hless).mono (bank.inWindow index left hleft)
        (bank.inWindow later right hright)
    · exact hapart.mono (bank.inside_zone (hlimit index hindex) hleft)
        (other.inside_zone (hlimit later hlater) hright)

/-- Ranges beside the banks are apart from the instances when they are from the zones. -/
theorem pairwise_apart_instances_append {others : List AddressRange}
    (hall : (banks.map (fun bank => bank.zone limit) ++ others).Pairwise Apart)
    {indices : List Nat} (hindices : indices.Pairwise (· < ·))
    (hlimit : ∀ index ∈ indices, index < limit) :
    (indices.flatMap (instancesAt banks) ++ others).Pairwise Apart := by
  rw [List.pairwise_append] at hall ⊢
  obtain ⟨hzones, hothers, hcross⟩ := hall
  refine ⟨pairwise_apart_instances (List.pairwise_map.mp hzones) hindices hlimit, hothers, ?_⟩
  intro range hrange other hother
  rcases List.mem_flatMap.mp hrange with ⟨index, hindex, hmem⟩
  obtain ⟨bank, hbank, hinside⟩ := instancesAt_inside_zone (hlimit index hindex) hmem
  exact (hcross _ (List.mem_map_of_mem hbank) other hother).mono hinside fun _ hcell => hcell

/-- Every instance is in a zone. -/
theorem instances_append_inside {others : List AddressRange} {indices : List Nat}
    (hlimit : ∀ index ∈ indices, index < limit) {range : AddressRange}
    (hrange : range ∈ indices.flatMap (instancesAt banks) ++ others) :
    ∃ outer ∈ banks.map (fun bank => bank.zone limit) ++ others, range.Inside outer := by
  rcases List.mem_append.mp hrange with hinstance | hother
  · obtain ⟨index, hindex, hmem⟩ := List.mem_flatMap.mp hinstance
    obtain ⟨bank, hbank, hinside⟩ := instancesAt_inside_zone (hlimit index hindex) hmem
    exact ⟨_, List.mem_append_left _ (List.mem_map_of_mem hbank), hinside⟩
  · exact ⟨range, List.mem_append_right _ hother, fun _ hcell => hcell⟩

end Foundation
end AislabVP
