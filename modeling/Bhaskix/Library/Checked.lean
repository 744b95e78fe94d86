import Mathlib

namespace Bhaskix.Library

inductive Overflow
  | overflow
  deriving DecidableEq, Repr

abbrev Checked (α : Type) : Type :=
  Except Overflow α

namespace Checked

def provided (fits : Prop) [Decidable fits] (value : Nat) : Checked Nat :=
  if fits then .ok value else .error .overflow

def add (left right : Nat) : Checked Nat :=
  provided (left + right < 2 ^ 64) (left + right)

def sub (left right : Nat) : Checked Nat :=
  provided (right ≤ left) (left - right)

def mul (left right : Nat) : Checked Nat :=
  provided (left * right < 2 ^ 64) (left * right)

theorem provided_eq_ok {fits : Prop} [Decidable fits] :
    provided fits value = .ok result ↔ fits ∧ result = value := by
  unfold provided
  split
  · rename_i holds
    exact ⟨fun same => ⟨holds, by cases same; rfl⟩, fun same => by rw [same.2]⟩
  · rename_i fails
    exact ⟨fun ran => (nomatch ran), fun same => absurd same.1 fails⟩

theorem add_eq_ok : add left right = .ok result ↔ left + right < 2 ^ 64 ∧ result = left + right :=
  provided_eq_ok

theorem sub_eq_ok : sub left right = .ok result ↔ right ≤ left ∧ result = left - right :=
  provided_eq_ok

theorem mul_eq_ok : mul left right = .ok result ↔ left * right < 2 ^ 64 ∧ result = left * right :=
  provided_eq_ok

theorem add_of_lt (fits : left + right < 2 ^ 64) : add left right = .ok (left + right) :=
  if_pos fits

theorem add_of_le (exceeds : 2 ^ 64 ≤ left + right) : add left right = .error .overflow :=
  if_neg (Nat.not_lt.mpr exceeds)

theorem sub_of_le (fits : right ≤ left) : sub left right = .ok (left - right) :=
  if_pos fits

variable {ε α β : Type}

@[simp] theorem ok_bind (value : α) (next : α → Except ε β) :
    Except.ok value >>= next = next value :=
  rfl

@[simp] theorem error_bind (stop : Overflow) (next : α → Checked β) :
    (Except.error stop >>= next : Checked β) = .error stop :=
  rfl

theorem bind_eq_ok {first : Except ε α} {next : α → Except ε β} {result : β} :
    first >>= next = .ok result ↔ ∃ value, first = .ok value ∧ next value = .ok result := by
  cases first with
  | error stop => exact ⟨fun ran => (nomatch ran), fun ⟨_, ran, _⟩ => (nomatch ran)⟩
  | ok value => exact ⟨fun ran => ⟨value, rfl, ran⟩, fun ⟨_, same, ran⟩ => by cases same; exact ran⟩

end Checked

end Bhaskix.Library
