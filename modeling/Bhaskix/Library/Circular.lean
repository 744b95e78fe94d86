import Mathlib

namespace Bhaskix.Library

variable {β : Type} {store : Nat → β} {place : Nat → Nat} {first : Nat}

def Holds (store : Nat → β) (place : Nat → Nat) (first : Nat) (items : List β) : Prop :=
  ∀ (index : Nat) (inside : index < items.length),
    store (place (first + index)) = items.get ⟨index, inside⟩

theorem holds_nil : Holds store place first [] :=
  fun _ inside => absurd inside (Nat.not_lt_zero _)

theorem holds_append : Holds store place first (items ++ more) ↔
      Holds store place first items ∧ Holds store place (first + items.length) more := by
  constructor
  · intro holds
    refine ⟨fun index inside => ?_, fun index inside => ?_⟩
    · rw [holds index (by rw [List.length_append]; omega)]
      exact List.getElem_append_left inside
    · rw [Nat.add_assoc, holds (items.length + index) (by rw [List.length_append]; omega)]
      simp [List.getElem_append_right]
  · rintro ⟨early, late⟩ index inside
    rw [List.length_append] at inside
    by_cases here : index < items.length
    · rw [early index here]
      exact (List.getElem_append_left here).symm
    have split : first + index = first + items.length + (index - items.length) := by omega
    rw [split, late (index - items.length) (by omega)]
    simp only [List.get_eq_getElem]
    rw [List.getElem_append_right (by omega)]

theorem holds_singleton : Holds store place first [item] ↔ store (place first) = item := by
  constructor
  · exact fun holds => holds 0 Nat.zero_lt_one
  intro here index inside
  obtain rfl : index = 0 := Nat.lt_one_iff.mp inside
  exact here

theorem Holds.update (holds : Holds store place first items)
    (apart : ∀ index < items.length, place (first + index) ≠ at_) :
    Holds (Function.update store at_ item) place first items := by
  intro index inside
  rw [Function.update_of_ne (apart index inside)]
  exact holds index inside

end Bhaskix.Library
