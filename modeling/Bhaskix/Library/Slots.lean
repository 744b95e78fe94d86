import Mathlib

namespace Bhaskix.Library.Slots

variable {α : Type}

def takeFirst : List (Option α) → Option (α × List (Option α))
  | [] => none
  | some value :: rest => some (value, none :: rest)
  | none :: rest => (takeFirst rest).map fun taken => (taken.1, none :: taken.2)

def putFirst (value : α) : List (Option α) → Option (List (Option α))
  | [] => none
  | none :: rest => some (some value :: rest)
  | some other :: rest => (putFirst value rest).map (some other :: ·)

def clear (which : α → Bool) (slots : List (Option α)) : List (Option α) :=
  slots.map (Option.filter fun value => !which value)

theorem reduceOption_takeFirst (taken : takeFirst slots = some (value, left)) :
    slots.reduceOption = value :: left.reduceOption := by
  induction slots generalizing left with
  | nil => contradiction
  | cons first rest ih =>
    cases first with
    | some held =>
      cases taken
      simp
    | none =>
      obtain ⟨found, more, same⟩ := Option.map_eq_some_iff.mp taken
      cases same
      simp [ih more]

theorem reduceOption_putFirst (put : putFirst value slots = some filled) :
    filled.reduceOption.Perm (value :: slots.reduceOption) := by
  induction slots generalizing filled with
  | nil => contradiction
  | cons first rest ih =>
    cases first with
    | none =>
      cases put
      simp
    | some held =>
      obtain ⟨found, more, same⟩ := Option.map_eq_some_iff.mp put
      subst same
      rw [List.reduceOption_cons_of_some, List.reduceOption_cons_of_some]
      exact ((ih more).cons held).trans (.swap ..)

theorem reduceOption_clear (which : α → Bool) (slots : List (Option α)) :
    (clear which slots).reduceOption = slots.reduceOption.filter fun value => !which value := by
  induction slots with
  | nil => rfl
  | cons first rest ih =>
    rw [clear, List.map_cons, ← clear]
    cases first with
    | none => simpa using ih
    | some held =>
      cases picked : which held with
      | true => simp [Option.filter_some, picked, ih]
      | false => simp [Option.filter_some, picked, ih]

end Bhaskix.Library.Slots
