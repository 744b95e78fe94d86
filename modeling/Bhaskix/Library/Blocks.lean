import Mathlib

/-! A list cut into blocks of one size, without what is left over at its end. -/

namespace Bhaskix.Library

open List

variable {α : Type} {size : Nat} {items first rest : List α}

def blocks (size : Nat) (items : List α) : List (List α) :=
  (range (items.length / size)).map fun index => (items.drop (size * index)).take size

theorem blocks_of_short (short : items.length < size) : blocks size items = [] := by
  rw [blocks, Nat.div_eq_of_lt short]
  rfl

theorem blocks_cons (positive : 0 < size) (whole : first.length = size) :
    blocks size (first ++ rest) = first :: blocks size rest := by
  have count : (first ++ rest).length / size = rest.length / size + 1 := by
    rw [length_append, whole, Nat.add_div_left _ positive]
  rw [blocks, count, range_succ_eq_map, map_cons, map_map, Nat.mul_zero, drop_zero,
    take_left' whole]
  refine congrArg (first :: ·) (map_congr_left fun index _ => ?_)
  rw [Function.comp, Nat.mul_succ, Nat.add_comm, ← drop_drop, drop_left' whole]

theorem blocks_append (positive : 0 < size) (whole : size ∣ first.length) :
    blocks size (first ++ rest) = blocks size first ++ blocks size rest := by
  obtain ⟨count, length⟩ := whole
  induction count generalizing first with
  | zero =>
    rw [length_eq_zero_iff.mp length, nil_append, @blocks_of_short _ size [] positive, nil_append]
  | succ count ih =>
    rw [Nat.mul_succ] at length
    have block : (first.take size).length = size := by
      rw [length_take]
      omega
    have tail := @ih (first.drop size) (by rw [length_drop]; omega)
    rw [← take_append_drop size first, append_assoc, blocks_cons positive block,
      blocks_cons positive block, tail]
    rfl

theorem foldl_blocks_append {β : Type} (act : β → List α → β) (start : β) (positive : 0 < size)
    (whole : size ∣ first.length) (last : rest.length = size) :
    (blocks size (first ++ rest)).foldl act start =
      act ((blocks size first).foldl act start) rest := by
  have single : blocks size rest = [rest] := by
    simpa [@blocks_of_short _ size [] positive] using @blocks_cons _ size rest [] positive last
  rw [blocks_append positive whole, single, foldl_append]
  rfl

end Bhaskix.Library
