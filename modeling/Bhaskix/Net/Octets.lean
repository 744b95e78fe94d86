import Bhaskix.Library.Checked
import Bhaskix.Library.OnesComplement

/-!
What every header of the network stack is read and written with: numbers in network order, the
checksum over several spans, the ways a packet is refused.
-/

namespace Bhaskix.Net

open Library
open Checked (ok_bind)

inductive NetError
  | truncated (need have_ : Nat)
  | lengthBeyondBuffer (stated have_ : Nat)
  | badHeaderLength (words : UInt8) (total : Nat)
  | badVersion (version : UInt8)
  | badChecksum (computed carried : UInt16)
  | unsupported (field : String) (value : UInt32)
  | exhausted (table : String)
  | badOptionLength (kind length : UInt8)
  deriving DecidableEq, Repr

/-- Why a call does not return a value: an addition of it overflowed, or it refused its input. -/
inductive Stop
  | overflow
  | refused (error : NetError)
  deriving DecidableEq, Repr

abbrev Outcome (α : Type) : Type :=
  Except Stop α

def refuse {α : Type} (error : NetError) : Outcome α :=
  .error (.refused error)

def require (holds : Prop) [Decidable holds] (otherwise : NetError) : Outcome Unit :=
  if holds then .ok () else refuse otherwise

namespace Outcome

variable {α β : Type} {holds : Prop} [Decidable holds]

theorem require_bind (met : holds) (next : Unit → Outcome β) :
    (require holds otherwise >>= next) = next () := by
  rw [require, if_pos met, ok_bind]

theorem require_bind_eq_ok :
    (require holds otherwise >>= next) = .ok result ↔ holds ∧ next () = .ok result := by
  unfold require
  split
  · rename_i met
    exact ⟨fun ran => ⟨met, ran⟩, fun ran => ran.2⟩
  · rename_i failed
    exact ⟨fun ran => (nomatch ran), fun ran => absurd ran.1 failed⟩

theorem require_bind_ne_overflow (rest : holds → next () ≠ .error .overflow) :
    (require holds otherwise >>= next) ≠ .error .overflow := by
  unfold require
  split
  · exact rest ‹_›
  · exact nofun

theorem bind_ne_overflow {next : α → Outcome β} (here : first ≠ .error .overflow)
    (rest : ∀ value, first = .ok value → next value ≠ .error .overflow) :
    first >>= next ≠ .error .overflow := by
  cases first with
  | error stop => exact fun same => here (congrArg _ (Except.error.inj same))
  | ok value => exact rest value rfl

end Outcome

def fromBe16 (high low : UInt8) : UInt16 :=
  UInt16.ofNat (high.toNat * 256 + low.toNat)

def toBe16 (value : UInt16) : List UInt8 :=
  [UInt8.ofNat (value.toNat / 256), UInt8.ofNat value.toNat]

def fromBe32 (first second third fourth : UInt8) : UInt32 :=
  UInt32.ofNat (((first.toNat * 256 + second.toNat) * 256 + third.toNat) * 256 + fourth.toNat)

def toBe32 (value : UInt32) : List UInt8 :=
  [UInt8.ofNat (value.toNat / 2 ^ 24), UInt8.ofNat (value.toNat / 2 ^ 16),
    UInt8.ofNat (value.toNat / 2 ^ 8), UInt8.ofNat value.toNat]

def be16 (bytes : List UInt8) (offset : Nat) : Option UInt16 :=
  match bytes.drop offset with
  | high :: low :: _ => some (fromBe16 high low)
  | _ => none

def be32 (bytes : List UInt8) (offset : Nat) : Option UInt32 :=
  match bytes.drop offset with
  | first :: second :: third :: fourth :: _ => some (fromBe32 first second third fourth)
  | _ => none

theorem fromBe16_toBe16 (value : UInt16) :
    fromBe16 (UInt8.ofNat (value.toNat / 256)) (UInt8.ofNat value.toNat) = value := by
  have small := value.toNat_lt
  apply UInt16.toNat_inj.mp
  simp only [fromBe16, UInt16.toNat_ofNat', UInt8.toNat_ofNat']
  omega

theorem fromBe32_toBe32 (value : UInt32) :
    fromBe32 (UInt8.ofNat (value.toNat / 2 ^ 24)) (UInt8.ofNat (value.toNat / 2 ^ 16))
      (UInt8.ofNat (value.toNat / 2 ^ 8)) (UInt8.ofNat value.toNat) = value := by
  have small := value.toNat_lt
  apply UInt32.toNat_inj.mp
  simp only [fromBe32, UInt32.toNat_ofNat', UInt8.toNat_ofNat']
  omega

def add32 (sum word : Nat) : Outcome Nat :=
  if sum + word < 2 ^ 32 then .ok (sum + word) else .error .overflow

def addPairs : Nat → List UInt8 → Outcome (Nat × Option UInt8)
  | sum, [] => .ok (sum, none)
  | sum, [odd] => .ok (sum, some odd)
  | sum, high :: low :: rest => do
      let sum ← add32 sum (high.toNat * 256 + low.toNat)
      addPairs sum rest

def addSpan : Nat × Option UInt8 → List UInt8 → Outcome (Nat × Option UInt8)
  | (sum, none), span => addPairs sum span
  | (sum, some high), [] => .ok (sum, some high)
  | (sum, some high), low :: rest => do
      let sum ← add32 sum (high.toNat * 256 + low.toNat)
      addPairs sum rest

def addSpans : Nat × Option UInt8 → List (List UInt8) → Outcome (Nat × Option UInt8)
  | held, [] => .ok held
  | held, span :: spans => do
      let held ← addSpan held span
      addSpans held spans

def addPending : Nat × Option UInt8 → Outcome Nat
  | (sum, none) => .ok sum
  | (sum, some high) => add32 sum (high.toNat * 256)

def checksum (spans : List (List UInt8)) : Outcome UInt16 := do
  let held ← addSpans (0, none) spans
  let sum ← addPending held
  return ~~~ UInt16.ofNat (endAround sum)

def outstanding (held : Nat × Option UInt8) (rest : List UInt8) : Nat :=
  held.1 + wordSum (held.2.toList ++ rest)

theorem add32_of_lt (fits : sum + word < 2 ^ 32) : add32 sum word = .ok (sum + word) :=
  if_pos fits

theorem addPairs_spec (rest : List UInt8) :
    ∀ (span : List UInt8) (sum : Nat), sum + wordSum (span ++ rest) < 2 ^ 32 →
      ∃ held, addPairs sum span = .ok held ∧ outstanding held rest = sum + wordSum (span ++ rest)
  | [], sum, _ => ⟨(sum, none), rfl, rfl⟩
  | [odd], sum, _ => ⟨(sum, some odd), rfl, rfl⟩
  | high :: low :: span, sum, fits => by
      simp only [List.cons_append, wordSum, ← Nat.add_assoc] at fits ⊢
      have here : sum + (high.toNat * 256 + low.toNat) < 2 ^ 32 := by omega
      rw [addPairs, add32_of_lt here, ok_bind, ← Nat.add_assoc]
      exact addPairs_spec rest span _ fits

theorem addSpan_spec (rest span : List UInt8) (held : Nat × Option UInt8)
    (fits : outstanding held (span ++ rest) < 2 ^ 32) : ∃ after, addSpan held span = .ok after ∧
      outstanding after rest = outstanding held (span ++ rest) := by
  match held, span with
  | (sum, none), span => exact addPairs_spec rest span sum fits
  | (sum, some high), [] => exact ⟨(sum, some high), rfl, rfl⟩
  | (sum, some high), low :: span =>
    exact addPairs_spec rest (high :: low :: span) sum fits

theorem addSpans_spec : ∀ (spans : List (List UInt8)) (held : Nat × Option UInt8),
      outstanding held spans.flatten < 2 ^ 32 → ∃ after, addSpans held spans = .ok after ∧
        outstanding after [] = outstanding held spans.flatten
  | [], held, _ => ⟨held, rfl, rfl⟩
  | span :: spans, held, fits => by
      obtain ⟨between, first, same⟩ := addSpan_spec spans.flatten span held fits
      rw [addSpans, first, ok_bind]
      obtain ⟨after, later, total⟩ := addSpans_spec spans between (same.trans_lt fits)
      exact ⟨after, later, total.trans same⟩

theorem checksum_eq {spans : List (List UInt8)} (fits : wordSum spans.flatten < 2 ^ 32) :
    checksum spans = .ok (~~~ UInt16.ofNat (endAround (wordSum spans.flatten))) := by
  have start : outstanding (0, none) spans.flatten = wordSum spans.flatten :=
    Nat.zero_add _
  obtain ⟨after, ran, total⟩ := addSpans_spec spans (0, none) (start.trans_lt fits)
  rw [start] at total
  rw [checksum, ran, ok_bind]
  match after with
  | (sum, none) =>
    rw [← total]
    rfl
  | (sum, some high) =>
    have last : sum + high.toNat * 256 = wordSum spans.flatten := total
    rw [addPending, add32_of_lt (last.trans_lt fits), last]
    rfl

theorem checksum_congr {spans others : List (List UInt8)} (same : spans.flatten = others.flatten)
    (fits : wordSum others.flatten < 2 ^ 32) : checksum spans = checksum others := by
  have fitsToo : wordSum spans.flatten < 2 ^ 32 := by
    rw [same]
    exact fits
  rw [checksum_eq fitsToo, checksum_eq fits, same]

theorem wordSum_lt {bytes : List UInt8} (short : bytes.length < 2 ^ 16 + 2 ^ 8) :
    wordSum bytes < 2 ^ 32 := by
  have bound := wordSum_le bytes
  omega

end Bhaskix.Net
