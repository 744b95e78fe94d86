import Mathlib

namespace Bhaskix.Library

open List

def leBytes : Nat → Nat → List UInt8
  | 0, _ => []
  | width + 1, value => UInt8.ofNat value :: leBytes width (value / 256)

def leValue : List UInt8 → Nat
  | [] => 0
  | byte :: rest => byte.toNat + 256 * leValue rest

@[simp] theorem length_leBytes (width value : Nat) : (leBytes width value).length = width := by
  induction width generalizing value with
  | zero => rfl
  | succ width ih => simp [leBytes, ih]

variable {width : Nat}

theorem leValue_leBytes (fits : value < 256 ^ width) : leValue (leBytes width value) = value := by
  induction width generalizing value with
  | zero => simp only [pow_zero] at fits; simp only [leBytes, leValue]; omega
  | succ width ih =>
    have rest : value / 256 < 256 ^ width := by
      rw [Nat.div_lt_iff_lt_mul (by omega), ← Nat.pow_succ]; exact fits
    simp only [leBytes, leValue, ih rest, UInt8.toNat_ofNat']
    omega

def field (bytes : List UInt8) (start width : Nat) : Option Nat :=
  if start + width ≤ bytes.length then some (leValue ((bytes.drop start).take width)) else none

theorem field_skip {before : List UInt8} (past : before.length ≤ start) :
    field (before ++ rest) start width = field rest (start - before.length) width := by
  have sameBound : start + width ≤ (before ++ rest).length ↔
      start - before.length + width ≤ rest.length := by
    rw [length_append]; omega
  have sameBytes : (before ++ rest).drop start = rest.drop (start - before.length) := by
    rw [drop_append, drop_eq_nil_of_le past, nil_append]
  simp only [field, sameBound, sameBytes]

theorem field_head (fits : value < 256 ^ width) :
    field (leBytes width value ++ rest) 0 width = some value := by
  have room : 0 + width ≤ (leBytes width value ++ rest).length := by simp
  rw [field, if_pos room, drop_zero, take_append_of_le_length (by simp),
    take_of_length_le (by simp), leValue_leBytes fits]

theorem field_flatMap {γ : Type} {value : γ → Nat} (rest : List UInt8) :
    ∀ (items : List γ) (_ : ∀ item ∈ items, value item < 256 ^ width) (which : Nat)
      (inside : which < items.length),
      field (items.flatMap (fun item => leBytes width (value item)) ++ rest) (which * width) width =
        some (value (items.get ⟨which, inside⟩))
  | item :: items, fits, 0, _ => by
      rw [flatMap_cons, append_assoc, Nat.zero_mul,
        field_head (fits item mem_cons_self)]
      rfl
  | item :: items, fits, which + 1, inside => by
      have fitsRest := fun other member => fits other (mem_cons_of_mem _ member)
      rw [flatMap_cons, append_assoc,
        field_skip (by rw [length_leBytes, Nat.succ_mul]; omega), length_leBytes, Nat.succ_mul,
        Nat.add_sub_cancel,
        field_flatMap rest items fitsRest which (Nat.lt_of_succ_lt_succ inside)]
      rfl

def Page (size : Nat) : Type :=
  Fin size → UInt8

namespace Page

variable {size : Nat}

def zero : Page size :=
  fun _ => 0

variable (page : Page size)

def byteAt (offset : Nat) : UInt8 :=
  if inside : offset < size then page ⟨offset, inside⟩ else 0

def slice (start width : Nat) : Option (List UInt8) :=
  if start + width ≤ size then
    some ((List.range width).map fun offset => page.byteAt (start + offset))
  else none

def splice (start : Nat) (bytes : List UInt8) : Page size := fun offset =>
  if start ≤ offset.val ∧ offset.val < start + bytes.length then bytes.getD (offset.val - start) 0
  else page offset

variable {bytes : List UInt8}

theorem byteAt_splice_inside {page : Page size}
    (room : start + bytes.length ≤ size) (inside : offset < bytes.length) :
    (page.splice start bytes).byteAt (start + offset) = bytes.getD offset 0 := by
  rw [byteAt, dif_pos (by omega), splice, if_pos ⟨by simp, by simp [inside]⟩]
  simp

theorem byteAt_splice_outside {page : Page size}
    (outside : offset < start ∨ start + bytes.length ≤ offset) :
    (page.splice start bytes).byteAt offset = page.byteAt offset := by
  unfold byteAt
  split
  · rw [splice, if_neg (by simp only []; omega)]
  · rfl

end Page

end Bhaskix.Library
