import Mathlib

namespace Bhaskix.Library

def wordSum : List UInt8 → Nat
  | [] => 0
  | [high] => high.toNat * 256
  | high :: low :: rest => high.toNat * 256 + low.toNat + wordSum rest

theorem wordSum_le : ∀ bytes : List UInt8, wordSum bytes ≤ 65535 * ((bytes.length + 1) / 2)
  | [] => Nat.zero_le _
  | [high] => by
      have small := high.toNat_lt
      simp only [wordSum, List.length_singleton]
      omega
  | high :: low :: rest => by
      have smallHigh := high.toNat_lt
      have smallLow := low.toNat_lt
      have tail := wordSum_le rest
      simp only [wordSum, List.length_cons]
      omega

def endAround (sum : Nat) : Nat :=
  if sum < 2 ^ 16 then sum else endAround (sum % 2 ^ 16 + sum / 2 ^ 16)
termination_by sum

end Bhaskix.Library
