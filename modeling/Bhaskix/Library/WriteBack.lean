import Mathlib

/-!
Requests to a store of blocks, what they come to over a plain array of blocks, and what a disk
holds after a list of writes.
-/

namespace Bhaskix.Library

open Function

abbrev Handler (I : Type) (R : I → Type) (σ : Type) : Type :=
  (request : I) → σ → R request × σ

inductive Access (β : Type)
  | page (block : Nat)
  | edit (block : Nat) (change : β → β)
  | put (block : Nat) (value : β)
  | copy (source target : Nat)
  | flush

abbrev Access.Reply (ε β : Type) : Access β → Type
  | .page _ | .edit _ _ => Except ε β
  | .put _ _ | .copy _ _ | .flush => Except ε Unit

namespace Access

variable {ε β : Type}

def flat (size : Nat) (outside : ε) : Handler (Access β) (Reply ε β) (Nat → β)
  | .page block, pages =>
    if block < size then (.ok (pages block), pages) else (.error outside, pages)
  | .edit block change, pages =>
    if block < size then (.ok (pages block), update pages block (change (pages block)))
    else (.error outside, pages)
  | .put block value, pages =>
    if block < size then (.ok (), update pages block value)
    else (.error outside, pages)
  | .copy source target, pages =>
    if source = target then (.ok (), pages)
    else if source < size ∧ target < size then
      (.ok (), update pages target (pages source))
    else (.error outside, pages)
  | .flush, pages => (.ok (), pages)

def refusal : (request : Access β) → ε → Reply ε β request
  | .page _, error | .edit _ _, error => .error error
  | .put _ _, error | .copy _ _, error | .flush, error => .error error

def outcome : (request : Access β) → Reply ε β request → Except ε Unit
  | .page _, reply | .edit _ _, reply => reply.map fun _ => ()
  | .put _ _, reply | .copy _ _, reply | .flush, reply => reply

def apply : Access β → (Nat → β) → Nat → β
  | .edit block change, pages => update pages block (change (pages block))
  | .put block value, pages => update pages block value
  | .copy source target, pages => update pages target (pages source)
  | .page _, pages | .flush, pages => pages

theorem outcome_refusal (request : Access β) (error : ε) :
    outcome request (refusal request error) = .error error := by
  cases request <;> rfl

theorem flat_apply (went : outcome request (flat size outside request pages).1 = .ok ()) :
    (flat size outside request pages).2 = request.apply pages := by
  cases request with
  | page block => simp only [flat, apply]; split <;> rfl
  | edit block change | put block value =>
    simp only [flat, apply] at went ⊢
    split
    · rfl
    rename_i far
    rw [if_neg far] at went
    exact nomatch went
  | copy source target =>
    simp only [flat, apply] at went ⊢
    split
    · rename_i same
      rw [same, update_eq_self]
    rename_i differ
    rw [if_neg differ] at went
    split
    · rfl
    rename_i far
    rw [if_neg far] at went
    exact nomatch went
  | flush => rfl

def Touches : Access β → Nat → Prop
  | .edit block _, touched | .put block _, touched => touched = block
  | .copy source target, touched => source ≠ target ∧ touched = target
  | .page _, _ | .flush, _ => False

end Access

def replay {β : Type} (disk : Nat → β) (writes : List (Nat × β)) : Nat → β :=
  writes.foldl (fun held write => update held write.1 write.2) disk

end Bhaskix.Library
