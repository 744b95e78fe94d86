import Mathlib

/-!
Signal masks: what is held back while a handler runs, and the sets the program is shown. A set of
the adapter's has bit `n` for signal `n`.
-/

namespace Bhaskix.Hosted

def sigkill : Nat := 9

def sigstop : Nat := 19

structure Handler where
  entry : BitVec 64
  flags : BitVec 64
  mask : BitVec 64
  restorer : BitVec 64

/-- From the words of the program's `struct sigaction`. -/
def Handler.fromWords (words : Vector (BitVec 64) 4) : Handler where
  entry := words[0]
  flags := words[1]
  restorer := words[2]
  mask := words[3]

structure Dispositions where
  blocked : BitVec 64

namespace Dispositions

variable (state : Dispositions)

def setBlocked (blocked : BitVec 64) : BitVec 64 × Dispositions :=
  (state.blocked, ⟨blocked &&& ~~~.twoPow 64 sigkill⟩)

/-- The answer is the frame's `uc_sigmask`. -/
def blockForDelivery (signal : Nat) (mask : BitVec 64) : BitVec 64 × Dispositions :=
  let bit := if signal < 64 then .twoPow 64 signal else 0
  (state.blocked, (state.setBlocked (state.blocked ||| bit ||| mask)).2)

/-- What is written where `old` points, if anywhere; the new set is not looked at. -/
def rtSigprocmask (old size : Nat) : Except Int (Option (BitVec 64)) :=
  if size ≠ 8 then .error (-22) else .ok (if old ≠ 0 then some state.blocked else none)

end Dispositions

/-- Linux gives signal `n` bit `n - 1`. -/
def inSigset (set : BitVec 64) (signal : Nat) : Bool :=
  set.getLsbD (signal - 1)

/-- A program and the adapter read the set alike at this signal. -/
def Agrees (set : BitVec 64) (signal : Nat) : Prop :=
  inSigset set signal = set.getLsbD signal

/-- What a program reads in `set` is what the adapter blocks. -/
def Shows (set blocked : BitVec 64) : Prop :=
  ∀ signal, 0 < signal → signal ≤ 64 → inSigset set signal = blocked.getLsbD signal

variable {signal other : Nat}

theorem getLsbD_without (set : BitVec 64) (signal other : Nat) :
    (set &&& ~~~.twoPow 64 signal).getLsbD other =
      (set.getLsbD other && decide (other ≠ signal)) := by
  rcases Nat.lt_or_ge other 64 with inside | outside
  · simp [inside, eq_comm]
  · simp [BitVec.getLsbD_of_ge set other outside]

/-- Every signal's bit is the next one's, and there is none behind the last. -/
theorem shows_self_iff (set : BitVec 64) : Shows set set ↔ set = 0 := by
  refine ⟨fun shows => ?_, fun empty => ?_⟩
  · have clear (left : Nat) : ∀ signal, signal + left = 64 → set.getLsbD signal = false := by
      induction left with
      | zero =>
        intro signal last
        exact set.getLsbD_of_ge signal last.ge
      | succ left earlier =>
        intro signal place
        exact (shows (signal + 1) (by omega) (by omega)).trans (earlier (signal + 1) (by omega))
    apply BitVec.eq_of_getLsbD_eq
    intro signal inside
    rw [clear (64 - signal) signal (by omega)]
    exact BitVec.getLsbD_zero.symm
  · subst empty
    intro signal _ _
    exact BitVec.getLsbD_zero.trans BitVec.getLsbD_zero.symm

theorem getLsbD_blockForDelivery (state : Dispositions) (known : signal < 64) (mask : BitVec 64)
    (caught : other ≠ sigkill) :
    (state.blockForDelivery signal mask).2.blocked.getLsbD other = true ↔
      state.blocked.getLsbD other = true ∨ other = signal ∨ mask.getLsbD other = true := by
  simp only [Dispositions.blockForDelivery, Dispositions.setBlocked, if_pos known, getLsbD_without,
    BitVec.getLsbD_or, BitVec.getLsbD_twoPow]
  simp [known, caught, or_assoc, @eq_comm _ signal]

theorem masks_of_agrees (state : Dispositions) (words : Vector (BitVec 64) 4) (signal other : Nat)
    (known : signal < 64) (spared : other ≠ sigkill ∧ other ≠ sigstop) :
    let (frame, after) := state.blockForDelivery signal (Handler.fromWords words).mask
    ((after.blocked.getLsbD other = true ↔ state.blocked.getLsbD other = true ∨ other = signal ∨
        inSigset words[3] other = true) ↔
      state.blocked.getLsbD other = true ∨ other = signal ∨ Agrees words[3] other) ∧
    (Shows frame state.blocked ↔ state.blocked = 0) ∧
    ∀ old, old ≠ 0 → ∃ set, state.rtSigprocmask old 8 = .ok (some set) ∧
      (Shows set state.blocked ↔ state.blocked = 0) := by
  refine ⟨?_, shows_self_iff _, fun old asked => ?_⟩
  · change ((state.blockForDelivery signal words[3]).2.blocked.getLsbD other = true ↔ _) ↔ _
    rw [getLsbD_blockForDelivery state known _ spared.1, Agrees]
    by_cases held : state.blocked.getLsbD other = true
    · simp [held]
    by_cases own : other = signal
    · simp [own]
    simp only [held, own, Bool.false_eq_true, false_or]
    exact ⟨fun alike => (Bool.eq_iff_iff.mpr alike).symm, fun agrees => by rw [agrees]⟩
  · exact ⟨state.blocked, by simp [Dispositions.rtSigprocmask, asked], shows_self_iff _⟩

theorem masks_of_agrees_two : let handler := Handler.fromWords #v[4096, 0, 0, 0xc000#64]
    let after := ((⟨0⟩ : Dispositions).blockForDelivery 10 handler.mask).2
    after.blocked.getLsbD 15 = true ∧ ¬ Shows after.blocked after.blocked ∧
      Shows ((⟨0⟩ : Dispositions).blockForDelivery 10 handler.mask).1 0 := by
  have held := masks_of_agrees ⟨0⟩ #v[4096, 0, 0, 0xc000#64] 10 15 (by decide) (by decide)
  have nested := masks_of_agrees ((⟨0⟩ : Dispositions).blockForDelivery 10 0xc000#64).2
    #v[4096, 0, 0, 0] 12 15 (by decide) (by decide)
  exact ⟨(held.1.mpr (.inr (.inr rfl))).mpr (.inr (.inr rfl)),
    fun shows => absurd (nested.2.1.mp shows) (by decide), held.2.1.mpr rfl⟩

/-- The mask names 15 and 14 is held back; the next frame has 11 for 10. -/
theorem masks_shifted :
    let handler := Handler.fromWords #v[4096, 0, 0, .twoPow 64 14]
    let after := ((⟨0⟩ : Dispositions).blockForDelivery 10 handler.mask).2
    let frame := (after.blockForDelivery 12 0).1
    inSigset handler.mask 15 = true ∧ after.blocked.getLsbD 15 = false ∧
      after.blocked.getLsbD 14 = true ∧ after.blocked.getLsbD 10 = true ∧
      inSigset frame 10 = false ∧ inSigset frame 11 = true ∧
      after.rtSigprocmask 8192 8 = .ok (some frame) := by
  refine ⟨?_, ?_, ?_, ?_, ?_, ?_, rfl⟩ <;> decide

end Bhaskix.Hosted
