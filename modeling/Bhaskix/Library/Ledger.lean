import Mathlib

/-!
A ledger of things taken and given back, newest entry first. Who has a thing is read off the
ledger, and a ledger is lawful when nothing is taken that somebody has and nothing is given back
by anyone but the one who has it.
-/

namespace Bhaskix.Library

inductive Entry (H T : Type)
  | took (holder : H) (thing : T)
  | gave (holder : H) (thing : T)
deriving DecidableEq

abbrev Ledger (H T : Type) := List (Entry H T)

namespace Ledger

variable {H T : Type} [DecidableEq H] [DecidableEq T]

def holder : Ledger H T → T → Option H
  | [], _ => none
  | .took holder thing :: rest, wanted =>
    if thing = wanted then some holder else Ledger.holder rest wanted
  | .gave _ thing :: rest, wanted => if thing = wanted then none else Ledger.holder rest wanted

def Lawful : Ledger H T → Prop
  | [] => True
  | .took _ thing :: rest => Ledger.holder rest thing = none ∧ Ledger.Lawful rest
  | .gave holder thing :: rest =>
    Ledger.holder rest thing = some holder ∧ Ledger.Lawful rest

omit [DecidableEq H] in
@[simp] theorem holder_took (ledger : Ledger H T) (who : H) (thing wanted : T) :
    holder (.took who thing :: ledger) wanted =
      if thing = wanted then some who else holder ledger wanted :=
  rfl

omit [DecidableEq H] in
@[simp] theorem holder_gave (ledger : Ledger H T) (who : H) (thing wanted : T) :
    holder (.gave who thing :: ledger) wanted =
      if thing = wanted then none else holder ledger wanted :=
  rfl

omit [DecidableEq H] in
theorem held_of_gave {thing : T} (lawful : Lawful (later ++ Entry.gave who thing :: earlier)) :
    holder earlier thing = some who := by
  induction later with
  | nil => exact lawful.1
  | cons entry rest induction =>
    cases entry with
    | took _ _ => exact induction lawful.2
    | gave _ _ => exact induction lawful.2

theorem count_took {ledger : Ledger H T} (lawful : ledger.Lawful) (who : H) (thing : T) :
    ledger.count (.took who thing) =
      ledger.count (.gave who thing) + if ledger.holder thing = some who then 1 else 0 := by
  induction ledger with
  | nil => rfl
  | cons entry rest induction =>
    cases entry with
    | took other held =>
      obtain ⟨free, before⟩ := lawful
      have counted := induction before
      by_cases same : held = thing
      · subst same
        simp only [holder_took, if_true, Option.some.injEq, free, reduceCtorEq, if_false,
          Nat.add_zero] at counted ⊢
        by_cases who' : other = who
        · subst who'
          simp [counted]
        · simp [counted, who']
      · simp [counted, same]
    | gave other held =>
      obtain ⟨had, before⟩ := lawful
      have counted := induction before
      by_cases same : held = thing
      · subst same
        simp only [had, Option.some.injEq] at counted
        by_cases who' : other = who
        · subst who'
          simp [counted]
        · simp [counted, who']
      · simp [counted, same]

end Ledger

end Bhaskix.Library
