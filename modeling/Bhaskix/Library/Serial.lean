import Mathlib

namespace Bhaskix.Library

abbrev Serial : Type := UInt32

namespace Serial

variable (number start stop : Serial)

def after (count : Nat) : Serial :=
  number + UInt32.ofNat count

def gap : Nat :=
  (stop - start).toNat

def precedes (other : Serial) : Bool :=
  decide (2 ^ 31 ≤ (number - other).toNat)

def follows (other : Serial) : Bool :=
  precedes other number

variable {base number other : Serial}

theorem gap_eq : gap start stop = (2 ^ 32 - start.toNat + stop.toNat) % 2 ^ 32 :=
  UInt32.toNat_sub ..

theorem gap_lt : gap start stop < 2 ^ 32 :=
  (stop - start).toNat_lt

@[simp] theorem gap_self (number : Serial) : gap number number = 0 := by
  have := number.toNat_lt
  rw [gap_eq]
  omega

theorem gap_eq_zero : gap number other = 0 ↔ number = other := by
  constructor
  · intro none
    have := number.toNat_lt
    have := other.toNat_lt
    rw [gap_eq] at none
    apply UInt32.toNat_inj.mp
    omega
  · rintro rfl
    exact gap_self number

theorem gap_after (base number : Serial) (count : Nat) :
    gap base (number.after count) = (gap base number + count) % 2 ^ 32 := by
  have := base.toNat_lt
  have := number.toNat_lt
  rw [gap_eq, gap_eq, after, UInt32.toNat_add, UInt32.toNat_ofNat']
  omega

variable {count : Nat}

theorem gap_after_of_lt (fits : gap base number + count < 2 ^ 32) :
    gap base (number.after count) = gap base number + count := by
  rw [gap_after, Nat.mod_eq_of_lt fits]

theorem gap_self_after {count : Nat} (fits : count < 2 ^ 32) :
    gap base (base.after count) = count := by
  rw [gap_after_of_lt (by rw [gap_self]; omega), gap_self, Nat.zero_add]

theorem gap_inj (same : gap base number = gap base other) : number = other := by
  have := base.toNat_lt
  have := number.toNat_lt
  have := other.toNat_lt
  rw [gap_eq, gap_eq] at same
  apply UInt32.toNat_inj.mp
  omega

theorem after_gap (base number : Serial) : base.after (gap base number) = number :=
  gap_inj (gap_self_after (gap_lt ..))

theorem after_zero (number : Serial) : number.after 0 = number := by
  rw [← gap_self number, after_gap]

theorem gap_of_le (before : gap base number ≤ gap base other) :
    gap number other = gap base other - gap base number := by
  have := base.toNat_lt
  have := number.toNat_lt
  have := other.toNat_lt
  rw [gap_eq, gap_eq] at before
  rw [gap_eq, gap_eq, gap_eq]
  omega

theorem gap_of_lt (past : gap base other < gap base number) :
    gap number other = 2 ^ 32 - (gap base number - gap base other) := by
  have := base.toNat_lt
  have := number.toNat_lt
  have := other.toNat_lt
  rw [gap_eq, gap_eq] at past
  rw [gap_eq, gap_eq, gap_eq]
  omega

theorem follows_iff : follows number other = true ↔ 2 ^ 31 ≤ gap number other := by
  rw [follows, precedes, decide_eq_true_iff]
  rfl

theorem follows_self (number : Serial) : follows number number = false := by
  rw [Bool.eq_false_iff, ne_eq, follows_iff, gap_self]
  omega

theorem follows_iff_lt (near : gap base number ≤ 2 ^ 31) (close : gap base other < 2 ^ 31) :
    follows number other = true ↔ gap base other < gap base number := by
  rw [follows_iff]
  rcases Nat.lt_or_ge (gap base other) (gap base number) with less | least
  · rw [gap_of_lt less]
    omega
  · rw [gap_of_le least]
    omega

theorem follows_base_iff :
    follows number base = true ↔ 0 < gap base number ∧ gap base number ≤ 2 ^ 31 := by
  rw [follows_iff]
  have bounded := gap_lt base number
  rcases Nat.eq_zero_or_pos (gap base number) with none | some_
  · rw [gap_eq_zero.mp none, gap_self]
    omega
  have back : gap number base = 2 ^ 32 - gap base number := by
    rw [@gap_of_lt base number base (by rw [gap_self]; exact some_), gap_self, Nat.sub_zero]
  rw [back]
  omega

theorem after_follows (some_ : 0 < count) (near : count ≤ 2 ^ 31) :
    follows (base.after count) base = true := by
  rw [follows_base_iff, gap_self_after (by omega)]
  exact ⟨some_, near⟩

theorem not_follows_after (near : count < 2 ^ 31) : follows base (base.after count) = false := by
  rw [Bool.eq_false_iff, ne_eq, follows_iff, gap_self_after (by omega)]
  omega

theorem ne_after (some_ : 0 < count) (fits : count < 2 ^ 32) : base ≠ base.after count := by
  intro same
  have far := @gap_self_after base count fits
  rw [← same, gap_self] at far
  omega

theorem gap_le_of_not_follows {stop : Serial} (past : follows number base = true)
    (within : follows number stop = false) :
    0 < gap base number ∧ gap base number ≤ gap base stop := by
  obtain ⟨some_, half⟩ := follows_base_iff.mp past
  refine ⟨some_, ?_⟩
  by_contra beyond
  rw [not_le] at beyond
  rw [Bool.eq_false_iff, ne_eq, follows_iff, gap_of_lt beyond] at within
  omega

theorem gap_getD_le {stop : Serial} {numbers : Option Serial} (fits : ∀ {number},
      numbers = some number → follows number base = true ∧ follows number stop = false) :
    gap base (numbers.getD base) ≤ gap base stop := by
  cases numbers with
  | none => exact (gap_self _).trans_le (Nat.zero_le _)
  | some number =>
    obtain ⟨past, within⟩ := fits rfl
    exact (gap_le_of_not_follows past within).2

theorem after_after (number : Serial) (first second : Nat) :
    (number.after first).after second = number.after (first + second) := by
  apply @gap_inj number
  rw [gap_after, gap_after, gap_after]
  omega

theorem gap_after_after {near far : Nat} (order : near ≤ far) (fits : far < near + 2 ^ 32) :
    gap (base.after near) (base.after far) = far - near := by
  have split : base.after far = (base.after near).after (far - near) := by
    rw [after_after, Nat.add_sub_cancel' order]
  rw [split, gap_self_after (by omega)]

theorem after_inj {near far : Nat} (same : base.after near = base.after far)
    (order : near ≤ far) (fits : far < near + 2 ^ 32) : near = far := by
  have none := @gap_after_after base near far order fits
  rw [same, gap_self] at none
  omega

section

variable {place other : Nat} (near : place < other + 2 ^ 31) (close : other < place + 2 ^ 31)
include near close

theorem follows_after_iff :
    follows (base.after place) (base.after other) = true ↔ other < place := by
  rw [follows_iff]
  rcases Nat.lt_or_ge other place with less | least
  · have whole : base.after other = (base.after place).after (2 ^ 32 - (place - other)) := by
      apply @gap_inj base
      rw [after_after, gap_after, gap_after]
      omega
    rw [whole, gap_self_after (by omega)]
    omega
  · rw [gap_after_after least (by omega)]
    omega

theorem precedes_after_iff :
    precedes (base.after place) (base.after other) = true ↔ place < other :=
  follows_after_iff close near

end

end Serial

end Bhaskix.Library
