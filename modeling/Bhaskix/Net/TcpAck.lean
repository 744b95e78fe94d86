import Bhaskix.Library.Run
import Bhaskix.Net.TcpFrame

namespace Bhaskix.Net

open Library

def Emit.occupied (emit : Emit) : Nat :=
  emit.length + emit.flags.syn.toNat + emit.flags.fin.toNat

def Emit.stop (emit : Emit) : Sequence :=
  emit.sequence.after emit.occupied

/-- A control block, and the number past the last one it has sent in its connection. -/
structure Traced where
  tcb : Tcb
  highest : Sequence

namespace Traced

def new : Traced :=
  { tcb := .new, highest := 0 }

def startsAt (traced : Traced) (event : Event) : Sequence :=
  match traced.tcb.state, event with
  | .closed, .connect iss _ | .closed, .listen iss _ => iss
  | _, _ => traced.highest

def raise (highest : Sequence) (emit : Emit) : Sequence :=
  if 0 < emit.occupied ∧ emit.stop.follows highest then emit.stop else highest

def take (input : Event × Nat) (traced : Traced) : Traced :=
  let turn := step traced.tcb input.1 input.2
  { tcb := turn.tcb, highest := turn.actions.emits.foldl raise (traced.startsAt input.1) }

def Reached (traced : Traced) : Prop :=
  Library.Reached take (fun _ _ => True) new traced

theorem Reached.synOwed {traced : Traced} (reached : traced.Reached) : traced.tcb.SynOwed :=
  Library.Reached.invariant (motive := fun traced : Traced => traced.tcb.SynOwed) (by nofun)
    (fun input owed _ => (takes_step _ input.1 input.2).synOwed owed) reached

/-- A segment that is taken acknowledges something that was sent and was not acknowledged yet. -/
structure Acknowledges (traced : Traced) (segment : Segment) (ack : Sequence) : Prop where
  synchronised : traced.tcb.state ∉ [.closed, .listen, .synSent]
  inside : acceptable traced.tcb segment = true
  plain : segment.flags.rst = false ∧ segment.flags.syn = false
  acks : segment.acknowledgement = some ack
  newer : ack.follows traced.tcb.snd.una = true
  sent : ack.follows traced.highest = false

end Traced

namespace Turn

open Tcb

variable {turn : Turn} {now : Nat} {segment : Segment} {ack : Sequence}

theorem processAck_una (owed : turn.tcb.SynOwed) (newer : ack.follows turn.tcb.snd.una = true)
    (sent : ack.follows turn.tcb.snd.nxt = false) :
    ∃ acked, turn.processAck segment ack now = (acked, true) ∧ acked.tcb.snd.una = ack := by
  generalize went : turn.processAck segment ack now = result
  cases processAck_outcome went with
  | unsent beyond =>
    rw [sent] at beyond
    contradiction
  | synUnacknowledged _ opening old =>
    rw [← owed (by rw [opening]; rfl), newer] at old
    contradiction
  | established _ _ _ =>
    exact ⟨_, rfl, (still_takeWindow _ _).carries.una.trans
      (turn.still_establish now ack).carries.una⟩
  | acknowledged _ _ _ =>
    exact ⟨_, rfl, (still_takeWindow _ _).carries.una.trans
      (turn.still_acknowledge now ack).carries.una⟩
  | old _ _ old =>
    rw [newer] at old
    contradiction

theorem processAck_of_unsent (beyond : ack.follows turn.tcb.snd.nxt = true) :
    turn.processAck segment ack now = (turn.acknowledgeNow, false) := by
  rw [processAck, if_pos beyond]

end Turn

namespace Traced

variable {traced : Traced} {segment : Segment} {ack : Sequence}

theorem Acknowledges.arrives (acknowledges : traced.Acknowledges segment ack) (now : Nat) :
    step traced.tcb (.arrived segment) now =
      (⟨traced.tcb, .new⟩ : Turn).synchronisedArrival segment now := by
  have synchronised := acknowledges.synchronised
  simp only [List.mem_cons, List.not_mem_nil, or_false, not_or] at synchronised
  rw [step, Turn.arrived]
  split
  · exact absurd ‹_› synchronised.1
  · exact absurd ‹_› synchronised.2.1
  · exact absurd ‹_› synchronised.2.2
  · rfl

theorem Acknowledges.step_eq (acknowledges : traced.Acknowledges segment ack)
    (outcome : (⟨traced.tcb, .new⟩ : Turn).processAck segment ack now = (acked, continues)) :
    step traced.tcb (.arrived segment) now =
      if continues then (acked.receive segment now).sendWhatWeCan now else acked := by
  rw [acknowledges.arrives, Turn.synchronisedArrival,
    if_neg (by simp [acknowledges.inside]),
    if_neg (by rw [acknowledges.plain.1]; exact Bool.false_ne_true),
    if_neg (by rw [acknowledges.plain.2]; simp), acknowledges.acks]
  dsimp only
  rw [outcome]

/-- The oldest unacknowledged number moves exactly where no retransmission pulled the next number
back below it. -/
theorem acknowledgement_honoured_iff (reached : traced.Reached)
    (acknowledges : traced.Acknowledges segment ack) (now : Nat) :
    (step traced.tcb (.arrived segment) now).tcb.snd.una = ack ↔
      ack.follows traced.tcb.snd.nxt = false := by
  cases beyond : ack.follows traced.tcb.snd.nxt with
  | true =>
    rw [acknowledges.step_eq (Turn.processAck_of_unsent beyond)]
    refine iff_of_false (fun same => ?_) nofun
    have newer := acknowledges.newer
    rw [show traced.tcb.snd.una = ack from same, Serial.follows_self] at newer
    contradiction
  | false =>
    obtain ⟨acked, continues, una⟩ := @Turn.processAck_una ⟨traced.tcb, .new⟩ now segment ack
      reached.synOwed acknowledges.newer beyond
    rw [acknowledges.step_eq continues]
    have rest := (acked.passes_receive now segment).carries.trans
      (Turn.still_sendWhatWeCan _ now).carries
    exact iff_of_true (rest.una.trans una) rfl

def synAck : Segment :=
  { sequence := 100, acknowledgement := some 1, flags := { syn := true }, window := 8000,
    mss := none, payload := [] }

def plainAck (ack : Sequence) : Segment :=
  { sequence := 101, acknowledgement := some ack, flags := {}, window := 8000, mss := none,
    payload := [] }

/-- Two segments go out, and the first is sent again before they are acknowledged. -/
def resentFlight : List (Event × Nat) :=
  [(.connect 0 1000, 0), (.arrived synAck, 0), (.wrote 2920, 0),
    (.expired .retransmit, 1000000000)]

theorem resentFlight_acknowledged (ack : Sequence)
    (inside : acceptable (run take resentFlight new).tcb (plainAck ack) = true)
    (newer : ack.follows (run take resentFlight new).tcb.snd.una = true)
    (sent : ack.follows (run take resentFlight new).highest = false) :
    (run take resentFlight new).Acknowledges (plainAck ack) ack where
  synchronised := by decide +kernel
  inside := inside
  plain := ⟨rfl, rfl⟩
  acks := rfl
  newer := newer
  sent := sent

theorem acknowledgement_honoured_first :
    (step (run take resentFlight new).tcb (.arrived (plainAck 1461)) 0).tcb.snd.una = 1461 :=
  (acknowledgement_honoured_iff (Library.Reached.start.run resentFlight)
    (resentFlight_acknowledged 1461 (by decide +kernel) (by decide +kernel) (by decide +kernel))
    0).mpr (by decide +kernel)

theorem not_acknowledgement_honoured :
    ¬∀ traced : Traced, traced.Reached → ∀ segment ack, traced.Acknowledges segment ack → ∀ now,
      (step traced.tcb (.arrived segment) now).tcb.snd.una = ack := by
  intro honoured
  have moved := honoured (run take resentFlight new) (Library.Reached.start.run resentFlight)
    (plainAck 2921) 2921
    (resentFlight_acknowledged 2921 (by decide +kernel) (by decide +kernel) (by decide +kernel)) 0
  have stays :
      (step (run take resentFlight new).tcb (.arrived (plainAck 2921)) 0).tcb.snd.una ≠ 2921 := by
    decide +kernel
  exact stays moved

end Traced

end Bhaskix.Net
