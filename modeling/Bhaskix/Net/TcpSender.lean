import Bhaskix.Net.TcpTurn

namespace Bhaskix.Net

open Library Serial

namespace Sender

structure InOrder (snd : Sender) : Prop where
  sent : snd.una.gap snd.nxt ≤ snd.una.gap snd.avail
  few : snd.una.gap snd.avail < 2 ^ 31 - 1

structure Finished (snd : Sender) : Prop where
  fin : snd.finSeq = some snd.avail
  nxt : snd.nxt = snd.avail.after 1
  few : snd.una.gap snd.avail < 2 ^ 31 - 1

variable {snd : Sender}

theorem allowed_eq (near : snd.una.gap snd.nxt < 2 ^ 31) :
    snd.allowed = snd.wnd.toNat - snd.una.gap snd.nxt := by
  have small : snd.wnd.toNat < 2 ^ 16 := snd.wnd.toNat_lt
  have reach : snd.una.gap (snd.una.after snd.wnd.toNat) = snd.wnd.toNat :=
    gap_self_after (by omega)
  have order := @follows_iff_lt snd.una (snd.una.after snd.wnd.toNat) snd.nxt
    (by rw [reach]; omega) near
  rw [reach] at order
  rw [allowed]
  split
  · rename_i past
    rw [@gap_of_le snd.una _ _ (by rw [reach]; exact (order.mp past).le), reach]
  · rename_i short
    rw [order] at short
    omega

namespace InOrder

variable (ordered : snd.InOrder)
include ordered

theorem near : snd.una.gap snd.nxt < 2 ^ 31 := by
  have := ordered.sent
  have := ordered.few
  omega

theorem unsent_eq : snd.unsent = snd.una.gap snd.avail - snd.una.gap snd.nxt := by
  have few := ordered.few
  have sent := ordered.sent
  have order := @follows_iff_lt snd.una snd.avail snd.nxt (by omega) ordered.near
  rw [unsent]
  split
  · exact gap_of_le sent
  rename_i all
  rw [order] at all
  omega

theorem segmentLength_eq : snd.segmentLength =
      min (min (snd.una.gap snd.avail - snd.una.gap snd.nxt)
        (snd.wnd.toNat - snd.una.gap snd.nxt)) snd.mss.toNat := by
  have small : snd.mss.toNat < 2 ^ 16 := snd.mss.toNat_lt
  rw [segmentLength, ordered.unsent_eq, allowed_eq ordered.near]
  omega

theorem gap_nxt_segment :
    snd.una.gap (snd.nxt.after snd.segmentLength) = snd.una.gap snd.nxt + snd.segmentLength ∧
      snd.una.gap snd.nxt + snd.segmentLength ≤ snd.una.gap snd.avail := by
  have few := ordered.few
  have sent := ordered.sent
  have length := ordered.segmentLength_eq
  have fits : snd.una.gap snd.nxt + snd.segmentLength ≤ snd.una.gap snd.avail := by omega
  exact ⟨gap_after_of_lt (by omega), fits⟩

theorem advance : { snd with nxt := snd.nxt.after snd.segmentLength }.InOrder := by
  obtain ⟨moved, fits⟩ := ordered.gap_nxt_segment
  exact ⟨by rw [moved]; exact fits, ordered.few⟩

theorem goBack : { snd with nxt := snd.una }.InOrder :=
  ⟨by simp only [gap_self]; exact Nat.zero_le _, ordered.few⟩

theorem avail_pos (awaits : snd.una ≠ snd.nxt) : 0 < snd.una.gap snd.avail := by
  have sent := ordered.sent
  have some_ : snd.una.gap snd.nxt ≠ 0 := fun none => awaits (gap_eq_zero.mp none)
  omega

theorem goBack_after_one (awaits : snd.una ≠ snd.nxt) :
    { snd with nxt := snd.una.after 1 }.InOrder := by
  refine ⟨?_, ordered.few⟩
  simp only [gap_self_after (show 1 < 2 ^ 32 by decide)]
  exact ordered.avail_pos awaits

theorem nxt_after_eq (all : snd.segmentLength = snd.unsent) :
    snd.nxt.after snd.segmentLength = snd.avail := by
  have sent := ordered.sent
  apply @gap_inj snd.una
  rw [ordered.gap_nxt_segment.1, all, ordered.unsent_eq]
  omega

end InOrder

theorem segmentLength_eq_of_finNow (fin : snd.finNow retransmission = true) :
    snd.finQueued = true ∧ snd.finSeq = none ∧ snd.segmentLength = snd.unsent := by
  simp only [finNow, Bool.and_eq_true, decide_eq_true_eq, Option.isNone_iff_eq_none] at fin
  exact ⟨fin.1.1.1, fin.1.1.2, fin.1.2⟩

theorem InOrder.sentSegment (ordered : snd.InOrder) (retransmission : Bool) :
    (snd.finNow retransmission = false ∧
      snd.sentSegment retransmission = { snd with nxt := snd.nxt.after snd.segmentLength } ∧
      (snd.sentSegment retransmission).InOrder) ∨
    (snd.finNow retransmission = true ∧ (snd.sentSegment retransmission).Finished) := by
  rw [Sender.sentSegment]
  cases fin : snd.finNow retransmission with
  | false => exact .inl ⟨rfl, rfl, ordered.advance⟩
  | true =>
    have all := ordered.nxt_after_eq (segmentLength_eq_of_finNow fin).2.2
    refine .inr ⟨rfl, ?_⟩
    rw [if_pos rfl, all]
    exact ⟨rfl, rfl, ordered.few⟩

namespace Finished

variable (finished : snd.Finished)
include finished

theorem gap_nxt : snd.una.gap snd.nxt = snd.una.gap snd.avail + 1 := by
  have few := finished.few
  rw [finished.nxt, gap_after_of_lt (by omega)]

theorem unsent_eq : snd.unsent = 0 := by
  have few := finished.few
  have past := finished.gap_nxt
  rw [unsent, if_neg]
  rw [@follows_iff_lt snd.una snd.avail snd.nxt (by omega) (by omega)]
  omega

theorem finNow_eq (retransmission : Bool) : snd.finNow retransmission = false := by
  simp [finNow, finished.fin]

theorem sentSegment (retransmission : Bool) : snd.sentSegment retransmission = snd := by
  refine snd.sentSegment_of_nothing retransmission ?_ (finished.finNow_eq retransmission)
  rw [segmentLength, finished.unsent_eq]
  omega

theorem awaitingAck : snd.una ≠ snd.nxt := by
  intro same
  have past := finished.gap_nxt
  rw [← same, gap_self] at past
  omega

end Finished

section

variable {ack : Sequence}

theorem InOrder.acknowledge (ordered : snd.InOrder)
    (past : snd.una.gap ack ≤ snd.una.gap snd.nxt) : { snd with una := ack }.InOrder := by
  have sent := ordered.sent
  have few := ordered.few
  have nxt := @gap_of_le snd.una ack snd.nxt past
  have avail := @gap_of_le snd.una ack snd.avail (past.trans sent)
  constructor
  · exact nxt.trans_le ((by omega : _ ≤ _).trans_eq avail.symm)
  · exact avail.trans_lt (by omega)

theorem Finished.acknowledge (finished : snd.Finished)
    (past : snd.una.gap ack ≤ snd.una.gap snd.nxt) :
    (ack.follows snd.avail = false ∧ { snd with una := ack }.Finished) ∨
      (ack.follows snd.avail = true ∧ ack = snd.avail.after 1) := by
  have few := finished.few
  have last := finished.gap_nxt
  have order := @follows_iff_lt snd.una ack snd.avail (by omega) (by omega)
  rcases Nat.lt_or_ge (snd.una.gap snd.avail) (snd.una.gap ack) with all | short
  · refine .inr ⟨order.mpr all, ?_⟩
    rw [← finished.nxt]
    exact @gap_inj snd.una _ _ (by omega)
  · refine .inl ⟨Bool.eq_false_iff.mpr fun past => absurd (order.mp past) (by omega), ?_⟩
    have avail := @gap_of_le snd.una ack snd.avail short
    exact ⟨finished.fin, finished.nxt, avail.trans_lt (by omega)⟩

end

/-- Once a sender has had two segments' worth of sending, its `FIN` is out or a closed window kept
everything back. -/
structure Spent (before after : Sender) : Prop where
  ordered : after.InOrder
  fin : after.finSeq = before.finSeq
  further : before.una.gap before.nxt ≤ before.una.gap after.nxt
  stuck : 0 < before.mss → after.una = after.nxt →
    (before.una = before.avail ∧ (before.finQueued = true → before.finSeq ≠ none)) ∨
      (before.una ≠ before.avail ∧ before.wnd = 0)

theorem InOrder.stuck (ordered : snd.InOrder) (positive : 0 < snd.mss)
    (none : snd.segmentLength = 0) (stays : snd.finNow false = false) (all : snd.una = snd.nxt) :
    (snd.una = snd.avail ∧ (snd.finQueued = true → snd.finSeq ≠ Option.none)) ∨
      (snd.una ≠ snd.avail ∧ snd.wnd = 0) := by
  have some_ : 0 < snd.mss.toNat := UInt16.lt_iff_toNat_lt.mp positive
  have length := ordered.segmentLength_eq
  rw [none, ← all, gap_self] at length
  by_cases empty : snd.una = snd.avail
  · refine .inl ⟨empty, fun queued unsent => ?_⟩
    have nothing : snd.unsent = 0 := by
      rw [ordered.unsent_eq, ← empty, gap_self, Nat.zero_sub]
    simp [finNow, queued, unsent, none, nothing] at stays
  · refine .inr ⟨empty, ?_⟩
    have owed : 0 < snd.una.gap snd.avail :=
      Nat.pos_of_ne_zero fun zero => empty (gap_eq_zero.mp zero)
    apply UInt16.toNat_inj.mp
    rw [show (0 : UInt16).toNat = 0 from rfl]
    omega

theorem InOrder.spent_once (ordered : snd.InOrder) (stays : snd.finNow false = false) :
    Spent snd (snd.sentSegment false) := by
  obtain ⟨moved, fits⟩ := ordered.gap_nxt_segment
  rcases ordered.sentSegment false with ⟨_, sent, ordered'⟩ | ⟨fin, _⟩
  · rw [sent] at ordered' ⊢
    refine ⟨ordered', rfl, by rw [moved]; exact Nat.le_add_right .., fun positive all => ?_⟩
    have none : snd.una.gap snd.nxt + snd.segmentLength = 0 := by
      rw [← moved]
      exact gap_eq_zero.mpr all
    exact ordered.stuck positive (by omega) stays (gap_eq_zero.mp (by omega))
  · rw [stays] at fin
    contradiction

theorem Spent.trans (one : Spent first second)
    (two : Spent second third) (una : second.una = first.una) (una' : third.una = second.una) :
    Spent first third := by
  have further := two.further
  rw [una] at further
  refine ⟨two.ordered, two.fin.trans one.fin, one.further.trans further, fun positive all => ?_⟩
  refine one.stuck positive (gap_eq_zero.mp ?_)
  rw [← all, una', una, gap_self] at further
  rw [una]
  omega

end Sender

namespace Turn

variable {turn : Turn}

theorem sendSegments_spec (ordered : turn.tcb.snd.InOrder) :
    (turn.tcb.snd.Spent turn.sendSegments.1.tcb.snd ∧
      turn.sendSegments.1.tcb.state = turn.tcb.state) ∨ (turn.sendSegments.1.tcb.snd.Finished ∧
      turn.sendSegments.1.tcb.state = turn.tcb.state.afterFin) := by
  rw [sendSegments_snd, sendSegments_fst_tcb, sendSegment_state, sendSegment_state, sendSegment_snd]
  rcases ordered.sentSegment false with ⟨stays, _, ordered'⟩ | ⟨fin, finished⟩
  · rw [stays, if_neg Bool.false_ne_true]
    have once := ordered.spent_once stays
    rcases ordered'.sentSegment false with ⟨stays', _, _⟩ | ⟨fin, finished⟩
    · rw [stays', if_neg Bool.false_ne_true]
      exact .inl ⟨once.trans (ordered'.spent_once stays') (by simp) (by simp), rfl⟩
    · rw [fin, if_pos rfl]
      exact .inr ⟨finished, rfl⟩
  · rw [fin, finished.finNow_eq, finished.sentSegment]
    exact .inr ⟨finished, rfl⟩

end Turn

end Bhaskix.Net
