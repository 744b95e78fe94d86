import Bhaskix.Library.Run
import Bhaskix.Net.TcpFrame
import Bhaskix.Net.TcpSender

namespace Bhaskix.Net

open Library Serial

def Tcb.Owes (tcb : Tcb) : Prop :=
  tcb.state = .synSent ∨ tcb.state = .synReceived ∨
    tcb.snd.avail.follows tcb.snd.una = true ∨
    (tcb.snd.finQueued = true ∧ tcb.snd.finSeq = none) ∨
    ∃ fin, tcb.snd.finSeq = some fin ∧ tcb.snd.una.follows fin = false

/-- A retransmission reaches up to the `FIN`, if that is out, and a closed window does not keep it
back unless it is being probed. -/
structure Tcb.Recoverable (tcb : Tcb) (probe : Bool) : Prop where
  fin : ∀ fin, tcb.snd.finSeq = some fin →
    tcb.snd.una.gap fin ≤ tcb.snd.wnd.toNat ∧ tcb.snd.una.gap fin ≤ tcb.snd.mss.toNat
  window : tcb.state.canSend = true → tcb.snd.wnd ≠ 0 ∨ probe = true

inductive Covered (state : State) (snd : Sender) (retransmit probe : Bool) : Prop
  | closed (state_eq : state = .closed)
  | listen (state_eq : state = .listen) (una : snd.una = snd.iss) (nxt : snd.nxt = snd.iss)
      (fin : snd.finSeq = none)
  | synSent (state_eq : state = .synSent) (una : snd.una = snd.iss)
      (nxt : snd.nxt = snd.iss.after 1) (ordered : snd.InOrder) (fin : snd.finSeq = none)
      (armed : retransmit = true)
  | synReceived (state_eq : state = .synReceived) (una : snd.una = snd.iss)
      (awaits : snd.una ≠ snd.nxt) (ordered : snd.InOrder) (fin : snd.finSeq = none)
      (armed : retransmit = true)
  | sending (can : state.canSend = true) (ordered : snd.InOrder) (fin : snd.finSeq = none)
      (armed : snd.una ≠ snd.nxt → retransmit = true)
      (stuck : snd.una = snd.nxt → (snd.una = snd.avail ∧ snd.finQueued = false) ∨
        (snd.una ≠ snd.avail ∧ snd.wnd = 0 ∧ probe = true))
  | finishing (waits : state.finishing = true) (finished : snd.Finished)
      (armed : retransmit = true)
  | finished (ended : state.finished = true) (fin : snd.finSeq = some snd.avail)
      (una : snd.una = snd.avail.after 1) (nxt : snd.nxt = snd.una)

namespace Covered

variable {tcb : Tcb} {retransmit probe : Bool}

theorem armed_of_owes (covered : Covered tcb.state tcb.snd retransmit probe)
    (running : tcb.state ∉ [.closed, .listen, .timeWait]) (owes : tcb.Owes) :
    retransmit = true ∨ probe = true := by
  cases covered with
  | closed state | listen state _ _ _ => simp [state] at running
  | synSent _ _ _ _ _ armed | synReceived _ _ _ _ _ armed | finishing _ _ armed => exact .inl armed
  | sending can _ fin armed stuck =>
    by_cases all : tcb.snd.una = tcb.snd.nxt
    · rcases stuck all with ⟨empty, unqueued⟩ | ⟨_, _, armed⟩
      · rcases owes with sent | received | byte | queued | ⟨number, sent, _⟩
        · rw [sent] at can
          contradiction
        · rw [received] at can
          contradiction
        · rw [← empty, follows_self] at byte
          contradiction
        · rw [unqueued] at queued
          exact absurd queued.1 Bool.false_ne_true
        · rw [fin] at sent
          contradiction
      · exact .inr armed
    · exact .inl (armed all)
  | finished ended fin una nxt =>
    rcases owes with sent | received | byte | queued | ⟨number, sent, unacknowledged⟩
    · rw [sent] at ended
      contradiction
    · rw [received] at ended
      contradiction
    · rw [una, not_follows_after (by decide)] at byte
      contradiction
    · rw [fin] at queued
      exact absurd queued.2 nofun
    · obtain rfl : tcb.snd.avail = number := Option.some.inj (fin.symm.trans sent)
      rw [una, after_follows (by decide) (by decide)] at unacknowledged
      contradiction

variable {state : State} {snd : Sender}

section

variable (covered : Covered state snd retransmit probe)
include covered

theorem idle (nothing : state = .closed ∨ snd.una = snd.nxt) (other : Bool) :
    Covered state snd other probe := by
  rcases nothing with closed | all
  · exact .closed closed
  cases covered with
  | closed state => exact .closed state
  | listen state una nxt fin => exact .listen state una nxt fin
  | synSent _ una nxt _ _ _ =>
    have next := @gap_self_after snd.iss 1 (by decide)
    rw [← nxt, ← all, una, gap_self] at next
    contradiction
  | synReceived _ _ awaits _ _ _ => exact absurd all awaits
  | sending can ordered fin _ stuck =>
    exact .sending can ordered fin (fun awaits => absurd all awaits) stuck
  | finishing _ finished _ => exact absurd all finished.awaitingAck
  | finished ended fin una nxt => exact .finished ended fin una nxt

theorem of_canSend (can : state.canSend = true) :
    snd.InOrder ∧ snd.finSeq = none ∧ (snd.una ≠ snd.nxt → retransmit = true) := by
  cases covered with
  | sending _ ordered fin armed _ => exact ⟨ordered, fin, armed⟩
  | finishing waits _ _ => cases state <;> simp_all [State.canSend, State.finishing]
  | finished ended _ _ _ => cases state <;> simp_all [State.canSend, State.finished]
  | closed state | listen state _ _ _ | synSent state _ _ _ _ _ | synReceived state _ _ _ _ _ =>
    simp [state, State.canSend] at can

theorem unprobed (nothing : state.canSend = false ∨ snd.wnd ≠ 0 ∨ snd.unsent = 0) (other : Bool) :
    Covered state snd retransmit other := by
  cases covered with
  | closed state => exact .closed state
  | listen state una nxt fin => exact .listen state una nxt fin
  | synSent state una nxt ordered fin armed => exact .synSent state una nxt ordered fin armed
  | synReceived state una awaits ordered fin armed =>
    exact .synReceived state una awaits ordered fin armed
  | sending can ordered fin armed stuck =>
    refine .sending can ordered fin armed fun all => ?_
    rcases stuck all with empty | ⟨some_, closed, _⟩
    · exact .inl empty
    rcases nothing with cannot | open_ | none
    · rw [can] at cannot
      contradiction
    · exact absurd closed open_
    · rw [ordered.unsent_eq, ← all, gap_self, Nat.sub_zero] at none
      exact absurd (gap_eq_zero.mp none) some_
  | finishing waits finished armed => exact .finishing waits finished armed
  | finished ended fin una nxt => exact .finished ended fin una nxt

end

end Covered

namespace Turn

variable {turn : Turn} {before : Timer → Bool} {now : Nat}

def CoveredBy (turn : Turn) (before : Timer → Bool) : Prop :=
  Covered turn.tcb.state turn.tcb.snd (turn.armed before .retransmit) (turn.armed before .probe)

section

variable (may : turn.maySend)
include may

theorem armed_retransmit_sendWhatWeCan
    (armed : turn.tcb.snd.una ≠ turn.tcb.snd.nxt → turn.armed before .retransmit = true)
    (awaits : (turn.sendWhatWeCan now).tcb.snd.una ≠ (turn.sendWhatWeCan now).tcb.snd.nxt) :
    (turn.sendWhatWeCan now).armed before .retransmit = true := by
  rw [(turn.sendWhatWeCan_tcb_of_may now may).1] at awaits
  rw [armed_sendWhatWeCan turn now before _ may]
  cases some_ : turn.sendSegments.2 with
  | true =>
    rw [if_pos ⟨rfl, rfl⟩]
    exact decide_eq_true awaits
  | false =>
    rw [turn.sendSegments_eq_of_none some_] at awaits
    rw [if_neg nofun, if_neg nofun]
    exact armed awaits

theorem armed_probe_sendWhatWeCan (closed : (turn.sendWhatWeCan now).tcb.snd.wnd = 0)
    (waiting : 0 < (turn.sendWhatWeCan now).tcb.snd.unsent) :
    (turn.sendWhatWeCan now).armed before .probe = true := by
  rw [(turn.sendWhatWeCan_tcb_of_may now may).1] at closed waiting
  rw [armed_sendWhatWeCan turn now before _ may, if_neg nofun, if_pos ⟨rfl, closed, waiting⟩]

theorem covered_sendWhatWeCan (positive : 0 < turn.tcb.snd.mss) (ordered : turn.tcb.snd.InOrder)
    (fin : turn.tcb.snd.finSeq = none)
    (armed : turn.tcb.snd.una ≠ turn.tcb.snd.nxt → turn.armed before .retransmit = true)
    (opening : turn.tcb.state = .synReceived →
      turn.tcb.snd.una = turn.tcb.snd.iss ∧ turn.tcb.snd.una ≠ turn.tcb.snd.nxt) :
    (turn.sendWhatWeCan now).CoveredBy before := by
  obtain ⟨snd, _, state⟩ := turn.sendWhatWeCan_tcb_of_may now may
  have una : (turn.sendWhatWeCan now).tcb.snd.una = turn.tcb.snd.una := by simp [snd]
  have armed' := @armed_retransmit_sendWhatWeCan turn before now may armed
  have spec := sendSegments_spec ordered
  rw [← snd, ← state] at spec
  rcases spec with ⟨spent, same⟩ | ⟨finished, closes⟩
  · by_cases received : turn.tcb.state = .synReceived
    · have awaits : (turn.sendWhatWeCan now).tcb.snd.una ≠
        (turn.sendWhatWeCan now).tcb.snd.nxt := by
        intro all
        have further := spent.further
        rw [← una, ← all, gap_self, una, Nat.le_zero] at further
        exact (opening received).2 (gap_eq_zero.mp further)
      exact .synReceived (same.trans received) (by simp [snd, (opening received).1]) awaits
        spent.ordered (spent.fin.trans fin) (armed' awaits)
    refine .sending (same ▸ may.resolve_right received) spent.ordered (spent.fin.trans fin) armed'
      fun all => ?_
    rcases spent.stuck positive all with ⟨empty, unqueued⟩ | ⟨some_, closed⟩
    · refine .inl ⟨by simp [snd, empty], ?_⟩
      rw [show (turn.sendWhatWeCan now).tcb.snd.finQueued = turn.tcb.snd.finQueued by simp [snd]]
      exact Bool.eq_false_iff.mpr fun queued => unqueued queued fin
    have closed' : (turn.sendWhatWeCan now).tcb.snd.wnd = 0 := by simp [snd, closed]
    have some' : (turn.sendWhatWeCan now).tcb.snd.una ≠ (turn.sendWhatWeCan now).tcb.snd.avail := by
      simp [snd, some_]
    refine .inr ⟨some', closed', armed_probe_sendWhatWeCan may closed' ?_⟩
    rw [spent.ordered.unsent_eq, ← all, gap_self]
    exact Nat.pos_of_ne_zero fun none => some' (gap_eq_zero.mp none)
  · exact .finishing (closes ▸ State.finishing_afterFin may) finished (armed' finished.awaitingAck)

end

theorem CoveredBy.of_same {other : Turn} (covered : turn.CoveredBy before)
    (state : other.tcb.state = turn.tcb.state) (snd : other.tcb.snd = turn.tcb.snd)
    (retransmit : other.armed before .retransmit = turn.armed before .retransmit)
    (probe : other.armed before .probe = turn.armed before .probe) : other.CoveredBy before := by
  rw [CoveredBy, state, snd, retransmit, probe]
  exact covered

theorem CoveredBy.acknowledgeNow (covered : turn.CoveredBy before) :
    turn.acknowledgeNow.CoveredBy before :=
  covered.of_same rfl rfl (armed_acknowledgeNow _ _ _ nofun) (armed_acknowledgeNow _ _ _ nofun)

theorem CoveredBy.emit (covered : turn.CoveredBy before) (emit : Emit) :
    (turn.push (.emit emit)).CoveredBy before :=
  covered.of_same rfl rfl (armed_push ..) (armed_push ..)

theorem covered_close (ended : Ended) : (turn.close ended).CoveredBy before :=
  .closed rfl

theorem covered_abort : turn.abort.CoveredBy before := by
  rw [abort]
  split
  · exact covered_close _
  · exact covered_close _
  · exact covered_close _

theorem CoveredBy.reopenWindow (covered : turn.CoveredBy before) (bytes : Nat) :
    (turn.reopenWindow bytes).CoveredBy before := by
  have moved : (turn.setWindow (turn.tcb.rcv.reopened bytes)).CoveredBy before := covered
  rw [Turn.reopenWindow]
  split
  · exact moved.acknowledgeNow
  · exact moved

theorem covered_armRetransmit_finishing (waits : turn.tcb.state.finishing = true)
    (finished : turn.tcb.snd.Finished) : (turn.armRetransmit now).CoveredBy before := by
  rw [CoveredBy, armRetransmit_tcb, armed_armRetransmit, if_pos rfl]
  exact .finishing waits finished (decide_eq_true finished.awaitingAck)

theorem covered_armRetransmit_sending (can : turn.tcb.state.canSend = true)
    (ordered : turn.tcb.snd.InOrder) (fin : turn.tcb.snd.finSeq = none)
    (stuck : turn.tcb.snd.una = turn.tcb.snd.nxt →
      (turn.tcb.snd.una = turn.tcb.snd.avail ∧ turn.tcb.snd.finQueued = false) ∨
        (turn.tcb.snd.una ≠ turn.tcb.snd.avail ∧ turn.tcb.snd.wnd = 0 ∧
          turn.armed before .probe = true)) : (turn.armRetransmit now).CoveredBy before := by
  rw [CoveredBy, armRetransmit_tcb, armed_armRetransmit, armed_armRetransmit, if_pos rfl,
    if_neg nofun]
  exact .sending can ordered fin (fun awaits => decide_eq_true awaits) stuck

theorem covered_resendSyn
    (ordered : turn.tcb.snd.InOrder) (awaits : turn.tcb.snd.una ≠ turn.tcb.snd.nxt)
    (una : turn.tcb.snd.una = turn.tcb.snd.iss) (fin : turn.tcb.snd.finSeq = none)
    (state : turn.tcb.state = .synSent ∨ turn.tcb.state = .synReceived) :
    ((turn.goBack.resendSyn acknowledgement).armRetransmit now).CoveredBy before := by
  have next : turn.tcb.snd.una ≠ turn.tcb.snd.una.after 1 := by
    intro same
    have one := @gap_self_after turn.tcb.snd.una 1 (by decide)
    rw [← same, gap_self] at one
    contradiction
  have armed : ((turn.goBack.resendSyn acknowledgement).armRetransmit now).armed before
      .retransmit = true := by
    rw [armed_armRetransmit, if_pos rfl]
    exact decide_eq_true next
  have ordered' : (turn.goBack.resendSyn acknowledgement).tcb.snd.InOrder :=
    ordered.goBack_after_one awaits
  rw [CoveredBy, armed, armRetransmit_tcb]
  rcases state with sent | received
  · exact .synSent sent una (congrArg (after · 1) una) ordered' fin rfl
  · exact .synReceived received una next ordered' fin rfl

theorem resend_of_open (can : turn.tcb.state.canSend = true ∨ turn.tcb.state.finishing = true) :
    turn.resend = (turn.sendSegment true).1.resendFin := by
  refine turn.resend_of_synchronised (fun sent => ?_) fun received => ?_
  · rw [sent] at can
    exact absurd can (by decide)
  · rw [received] at can
    exact absurd can (by decide)

theorem resendFin_of_none (none : turn.tcb.snd.finSeq = none) : turn.resendFin = turn := by
  rw [resendFin, none]

theorem resendFin_of_finished (finished : turn.tcb.snd.Finished) : turn.resendFin = turn := by
  rw [resendFin, finished.fin]
  dsimp only
  rw [if_neg]
  rintro ⟨_, same⟩
  have past := finished.gap_nxt
  rw [same] at past
  omega

theorem resendFin_of_reached (fin : turn.tcb.snd.finSeq = some turn.tcb.snd.avail)
    (nxt : turn.tcb.snd.nxt = turn.tcb.snd.avail)
    (few : turn.tcb.snd.una.gap turn.tcb.snd.avail < 2 ^ 31 - 1) :
    turn.resendFin.tcb.snd.Finished ∧ turn.resendFin.tcb.state = turn.tcb.state := by
  have old : turn.tcb.snd.una.follows turn.tcb.snd.avail = false := by
    rw [Bool.eq_false_iff, ne_eq, follows_iff]
    omega
  rw [resendFin, fin]
  dsimp only
  rw [if_pos ⟨old, nxt⟩]
  exact ⟨⟨fin, rfl, few⟩, rfl⟩

section

variable (start : turn.tcb.snd.una.gap turn.tcb.snd.nxt = 0) (ordered : turn.tcb.snd.InOrder)
include start ordered

theorem closed_of_nothing_sent
    (owed : 0 < turn.tcb.snd.una.gap turn.tcb.snd.avail) (positive : 0 < turn.tcb.snd.mss)
    (none : turn.tcb.snd.segmentLength = 0) : turn.tcb.snd.wnd = 0 := by
  have length := ordered.segmentLength_eq
  have some_ : 0 < turn.tcb.snd.mss.toNat := UInt16.lt_iff_toNat_lt.mp positive
  apply UInt16.toNat_inj.mp
  rw [show (0 : UInt16).toNat = 0 from rfl]
  omega

theorem covered_resend_sending (can : turn.tcb.state.canSend = true)
    (fin : turn.tcb.snd.finSeq = none)
    (owed : 0 < turn.tcb.snd.una.gap turn.tcb.snd.avail) (positive : 0 < turn.tcb.snd.mss)
    (window : turn.tcb.snd.wnd ≠ 0 ∨ turn.armed before .probe = true) :
    (turn.resend.armRetransmit now).CoveredBy before := by
  rw [resend_of_open (.inl can)]
  have state := turn.sendSegment_state true
  rcases ordered.sentSegment true with ⟨stays, sent, ordered'⟩ | ⟨closes, finished⟩
  · rw [stays, if_neg Bool.false_ne_true] at state
    rw [← sendSegment_snd] at sent ordered'
    rw [resendFin_of_none (by rw [sent]; exact fin)]
    refine covered_armRetransmit_sending (state ▸ can) ordered' (by rw [sent]; exact fin)
      fun all => .inr ?_
    rw [sent] at all ⊢
    have none : turn.tcb.snd.segmentLength = 0 := by
      have moved := ordered.gap_nxt_segment.1
      rw [gap_eq_zero.mpr all] at moved
      omega
    have closed := closed_of_nothing_sent start ordered owed positive none
    refine ⟨fun empty => ?_, closed, ?_⟩
    · rw [gap_eq_zero.mpr empty] at owed
      contradiction
    · rw [armed_sendSegment]
      exact window.resolve_left fun open_ => open_ closed
  · rw [closes, if_pos rfl] at state
    rw [← sendSegment_snd] at finished
    rw [resendFin_of_finished finished]
    exact covered_armRetransmit_finishing (state ▸ State.finishing_afterFin (.inl can)) finished

theorem covered_resend_finishing (waits : turn.tcb.state.finishing = true)
    (fin : turn.tcb.snd.finSeq = some turn.tcb.snd.avail)
    (inWindow : turn.tcb.snd.una.gap turn.tcb.snd.avail ≤ turn.tcb.snd.wnd.toNat)
    (inSegment : turn.tcb.snd.una.gap turn.tcb.snd.avail ≤ turn.tcb.snd.mss.toNat) :
    (turn.resend.armRetransmit now).CoveredBy before := by
  have all : turn.tcb.snd.segmentLength = turn.tcb.snd.unsent := by
    rw [ordered.segmentLength_eq, ordered.unsent_eq]
    omega
  have stays : turn.tcb.snd.finNow true = false := by
    simp [Sender.finNow, fin]
  rw [resend_of_open (.inr waits)]
  have state := turn.sendSegment_state true
  have sent := turn.sendSegment_snd true
  rw [stays, if_neg Bool.false_ne_true] at state
  rw [Sender.sentSegment, stays, if_neg Bool.false_ne_true, ordered.nxt_after_eq all] at sent
  obtain ⟨again, same⟩ := @resendFin_of_reached (turn.sendSegment true).1
    (by rw [sent]; exact fin) (by rw [sent]) (by rw [sent]; exact ordered.few)
  exact covered_armRetransmit_finishing (by rw [same, state]; exact waits) again

end

theorem covered_retransmit {retransmit : Bool} (positive : 0 < turn.tcb.snd.mss)
    (covered : Covered turn.tcb.state turn.tcb.snd retransmit (turn.armed before .probe))
    (recoverable : turn.tcb.state ≠ .closed → turn.tcb.snd.una ≠ turn.tcb.snd.nxt →
      turn.tcb.Recoverable (turn.armed before .probe)) :
    (turn.retransmit now).CoveredBy before := by
  rw [Turn.retransmit]
  split
  · rename_i nothing
    rw [Sender.awaitingAck, decide_eq_false_iff_not, not_not] at nothing
    exact covered.idle nothing _
  rename_i running
  rw [not_or, Sender.awaitingAck, decide_eq_false_iff_not, not_not] at running
  obtain ⟨open_, awaits⟩ := running
  split
  · exact covered_close _
  have start : turn.goBack.tcb.snd.una.gap turn.goBack.tcb.snd.nxt = 0 := gap_self _
  cases covered with
  | closed state => exact absurd state open_
  | listen _ una nxt _ => exact absurd (una.trans nxt.symm) awaits
  | synSent state una _ ordered fin _ =>
    rw [show turn.goBack.resend = turn.goBack.resendSyn none by
      rw [resend, show turn.goBack.tcb.state = .synSent from state]]
    exact covered_resendSyn ordered awaits una fin (.inl state)
  | synReceived state una _ ordered fin _ =>
    rw [show turn.goBack.resend = turn.goBack.resendSyn (some turn.tcb.rcv.nxt) by
      rw [resend, show turn.goBack.tcb.state = .synReceived from state]
      rfl]
    exact covered_resendSyn ordered awaits una fin (.inr state)
  | sending can ordered fin _ _ =>
    exact covered_resend_sending start ordered.goBack can fin (ordered.avail_pos awaits)
      positive ((recoverable open_ awaits).window can)
  | finishing waits finished _ =>
    obtain ⟨inWindow, inSegment⟩ := (recoverable open_ awaits).fin _ finished.fin
    refine covered_resend_finishing start ⟨?_, finished.few⟩ waits finished.fin inWindow inSegment
    rw [start]
    exact Nat.zero_le _
  | finished _ _ una nxt => exact absurd nxt.symm awaits

theorem covered_probe {probe : Bool}
    (covered : Covered turn.tcb.state turn.tcb.snd (turn.armed before .retransmit) probe) :
    (turn.probe now).CoveredBy before := by
  rw [Turn.probe]
  split
  · rename_i nothing
    exact covered.unprobed nothing _
  rename_i something
  rw [not_or, not_or, not_not, Bool.not_eq_false] at something
  obtain ⟨can, closed, some_⟩ := something
  obtain ⟨ordered, fin, _⟩ := covered.of_canSend can
  have near := ordered.near
  have one : turn.tcb.snd.una.gap (turn.tcb.snd.nxt.after 1) =
      turn.tcb.snd.una.gap turn.tcb.snd.nxt + 1 :=
    gap_after_of_lt (by omega)
  rw [ordered.unsent_eq] at some_
  have fits : turn.tcb.snd.una.gap (turn.tcb.snd.nxt.after 1) ≤
      turn.tcb.snd.una.gap turn.tcb.snd.avail := by omega
  refine covered_armRetransmit_sending can ⟨fits, ordered.few⟩ fin fun all => ?_
  have none : turn.tcb.snd.una.gap (turn.tcb.snd.nxt.after 1) = 0 := gap_eq_zero.mpr all
  omega

end Turn

/-- What the retransmission timer covers once an acknowledgement is dealt with, and before anything
more is sent. -/
inductive Ready (state : State) (snd : Sender) (retransmit : Bool) : Prop
  | closed (state_eq : state = .closed)
  | sending (can : state.canSend = true) (ordered : snd.InOrder) (fin : snd.finSeq = none)
      (armed : snd.una ≠ snd.nxt → retransmit = true)
  | finishing (waits : state.finishing = true) (finished : snd.Finished)
      (armed : retransmit = true)
  | finished (ended : state.finished = true) (fin : snd.finSeq = some snd.avail)
      (una : snd.una = snd.avail.after 1) (nxt : snd.nxt = snd.una)

variable {retransmit : Bool}

theorem Covered.ready
    (covered : Covered state snd retransmit probe) (open_ : state.opening = false) :
    Ready state snd retransmit := by
  cases covered with
  | closed state => exact .closed state
  | sending can ordered fin armed _ => exact .sending can ordered fin armed
  | finishing waits finished armed => exact .finishing waits finished armed
  | finished ended fin una nxt => exact .finished ended fin una nxt
  | listen state _ _ _ | synSent state _ _ _ _ _ | synReceived state _ _ _ _ _ =>
    simp [state, State.opening] at open_

theorem Covered.of_synReceived (covered : Covered .synReceived snd retransmit probe) :
    snd.una = snd.iss ∧ snd.una ≠ snd.nxt ∧ snd.InOrder ∧ snd.finSeq = none ∧
      retransmit = true := by
  cases covered with
  | synReceived _ una awaits ordered fin armed => exact ⟨una, awaits, ordered, fin, armed⟩
  | _ => contradiction

theorem Ready.setWindow (ready : Ready state snd retransmit) (window : UInt16) :
    Ready state { snd with wnd := window } retransmit := by
  cases ready with
  | closed state => exact .closed state
  | sending can ordered fin armed => exact .sending can ⟨ordered.sent, ordered.few⟩ fin armed
  | finishing waits finished armed =>
    exact .finishing waits { finished with } armed
  | finished ended fin una nxt => exact .finished ended fin una nxt

theorem Ready.afterPeerFin (ready : Ready state snd retransmit) :
    Ready state.afterPeerFin snd (if state = .finWait2 then false else retransmit) := by
  cases ready with
  | closed closed =>
    subst closed
    exact .closed rfl
  | sending can ordered fin armed =>
    cases state with
    | established | closeWait => exact .sending rfl ordered fin armed
    | _ => contradiction
  | finishing waits finished armed =>
    cases state with
    | finWait1 | closing | lastAck => exact .finishing rfl finished armed
    | _ => contradiction
  | finished ended fin una nxt =>
    cases state with
    | finWait2 | timeWait => exact .finished rfl fin una nxt
    | _ => contradiction

namespace Turn

variable {turn : Turn} {before : Timer → Bool} {now : Nat}

def ReadyFor (turn : Turn) (before : Timer → Bool) : Prop :=
  Ready turn.tcb.state turn.tcb.snd (turn.armed before .retransmit)

theorem ReadyFor.of_same {other : Turn} (ready : turn.ReadyFor before)
    (state : other.tcb.state = turn.tcb.state) (snd : other.tcb.snd = turn.tcb.snd)
    (retransmit : other.armed before .retransmit = turn.armed before .retransmit) :
    other.ReadyFor before := by
  rw [ReadyFor, state, snd, retransmit]
  exact ready

section

variable (ready : turn.ReadyFor before)
include ready

theorem ReadyFor.acknowledgeNow :
    turn.acknowledgeNow.ReadyFor before :=
  ready.of_same rfl rfl (armed_acknowledgeNow _ _ _ nofun)

theorem ReadyFor.sendWhatWeCan (positive : 0 < turn.tcb.snd.mss) :
    (turn.sendWhatWeCan now).CoveredBy before := by
  have silent (cannot : turn.tcb.state.canSend = false) (other : turn.tcb.state ≠ .synReceived)
      (covered : turn.CoveredBy before) : (turn.sendWhatWeCan now).CoveredBy before := by
    rw [sendWhatWeCan_of_not]
    · exact covered
    rintro (can | received)
    · rw [can] at cannot
      contradiction
    · exact other received
  cases ready with
  | closed state => exact silent (by rw [state]; rfl) (by rw [state]; nofun) (.closed state)
  | sending can ordered fin armed =>
    refine covered_sendWhatWeCan (.inl can) positive ordered fin armed fun received => ?_
    rw [received] at can
    contradiction
  | finishing waits finished armed =>
    refine silent ?_ ?_ (.finishing waits finished armed)
    all_goals cases state : turn.tcb.state <;> simp_all [State.finishing, State.canSend]
  | finished ended fin una nxt =>
    refine silent ?_ ?_ (.finished ended fin una nxt)
    all_goals cases state : turn.tcb.state <;> simp_all [State.finished, State.canSend]

theorem ReadyFor.deliver (segment : Segment) :
    (turn.deliver segment).1.ReadyFor before := by
  rw [Turn.deliver]
  split
  · exact ready
  split
  · exact ready
  split
  · exact ready
  · exact ready.of_same rfl rfl (armed_push ..)

theorem ReadyFor.peerClosed :
    (turn.peerClosed now).ReadyFor before := by
  rw [ReadyFor, peerClosed_state, peerClosed_snd, armed_peerClosed_retransmit]
  exact ready.afterPeerFin

theorem ReadyFor.acknowledgeOrDelay :
    (turn.acknowledgeOrDelay now).ReadyFor before := by
  have counted : turn.countSegment.ReadyFor before := ready
  rw [Turn.acknowledgeOrDelay]
  split
  · exact counted.acknowledgeNow
  · exact counted.of_same rfl rfl (armed_push ..)

theorem ReadyFor.receive (segment : Segment) :
    (turn.receive segment now).ReadyFor before := by
  have taken := ready.deliver segment
  unfold Turn.receive
  dsimp only
  split
  · exact ReadyFor.peerClosed (show (turn.deliver segment).1.takeFin.ReadyFor before from taken)
  split
  · exact taken.acknowledgeOrDelay
  · exact taken

theorem ReadyFor.takeWindow (window : UInt16) :
    (turn.takeWindow window).ReadyFor before := by
  have noted : (turn.noteWindow window).ReadyFor before := Ready.setWindow ready window
  rw [Turn.takeWindow]
  split
  · exact noted.of_same rfl rfl (armed_push ..)
  · exact noted

end

section

variable {ack : Sequence}

theorem armed_freeAcknowledged :
    (turn.freeAcknowledged ack now).armed before .retransmit = decide (ack ≠ turn.tcb.snd.nxt) := by
  rw [freeAcknowledged, armed_armRetransmit, if_pos rfl, finishTiming_snd, tellAcknowledged_tcb]
  rfl

theorem ready_acknowledge_sending (can : turn.tcb.state.canSend = true)
    (ordered : turn.tcb.snd.InOrder) (fin : turn.tcb.snd.finSeq = none)
    (past : turn.tcb.snd.una.gap ack ≤ turn.tcb.snd.una.gap turn.tcb.snd.nxt) :
    (turn.acknowledge ack now).ReadyFor before := by
  rw [acknowledge, advanceAfterAck_of_not _ _ (by simp [Sender.finAcked, fin]), ReadyFor,
    freeAcknowledged_state, freeAcknowledged_snd, armed_freeAcknowledged]
  exact .sending can (ordered.acknowledge past) fin fun awaits => decide_eq_true awaits

theorem ready_acknowledge_finishing (waits : turn.tcb.state.finishing = true)
    (finished : turn.tcb.snd.Finished)
    (past : turn.tcb.snd.una.gap ack ≤ turn.tcb.snd.una.gap turn.tcb.snd.nxt) :
    (turn.acknowledge ack now).ReadyFor before := by
  have acked : (turn.freeAcknowledged ack now).tcb.snd.finAcked =
    ack.follows turn.tcb.snd.avail := by
    simp [Sender.finAcked, finished.fin]
  rw [acknowledge]
  rcases finished.acknowledge past with ⟨short, finished'⟩ | ⟨all, rfl⟩
  · rw [advanceAfterAck_of_not _ _ (acked.trans short), ReadyFor, freeAcknowledged_state,
      freeAcknowledged_snd, armed_freeAcknowledged]
    exact .finishing waits finished' (decide_eq_true finished'.awaitingAck)
  rw [ReadyFor, advanceAfterAck_state _ _ (acked.trans all), advanceAfterAck_snd,
    freeAcknowledged_state, freeAcknowledged_snd]
  cases state : turn.tcb.state with
  | finWait1 | closing => exact .finished rfl finished.fin rfl finished.nxt
  | lastAck => exact .closed rfl
  | _ =>
    rw [state] at waits
    contradiction

variable {segment : Segment} (covered : turn.CoveredBy before) (live : turn.tcb.state ≠ .closed)
  (synchronised : turn.tcb.state.opening = true → turn.tcb.state = .synReceived)
include covered live synchronised

theorem ready_acknowledge (open_ : turn.tcb.state ≠ .synReceived)
    (newer : ack.follows turn.tcb.snd.una = true) (sent : ack.follows turn.tcb.snd.nxt = false) :
    (turn.acknowledge ack now).ReadyFor before := by
  have ready := covered.ready (Bool.eq_false_iff.mpr fun opening => open_ (synchronised opening))
  cases ready with
  | closed state => exact absurd state live
  | sending can ordered fin _ =>
    exact ready_acknowledge_sending can ordered fin (gap_le_of_not_follows newer sent).2
  | finishing waits finished _ =>
    exact ready_acknowledge_finishing waits finished (gap_le_of_not_follows newer sent).2
  | finished _ _ _ nxt =>
    rw [nxt, newer] at sent
    contradiction

theorem ready_processAck
    (outcome : turn.processAck segment ack now = (acked, true)) : acked.ReadyFor before := by
  cases processAck_outcome outcome with
  | established sent received newer =>
    rw [CoveredBy, received] at covered
    obtain ⟨una, _, ordered, fin, _⟩ := covered.of_synReceived
    rw [← una] at newer
    have past := (gap_le_of_not_follows newer sent).2
    refine ReadyFor.takeWindow ?_ _
    rw [ReadyFor, establish_state, establish_snd]
    refine .sending rfl (ordered.acknowledge past) fin fun awaits => ?_
    rw [establish, armed_armRetransmit, if_pos rfl]
    exact decide_eq_true awaits
  | acknowledged sent open_ newer =>
    exact (ready_acknowledge covered live synchronised open_ newer sent).takeWindow _
  | old _ open_ _ =>
    exact ReadyFor.takeWindow (covered.ready
      (Bool.eq_false_iff.mpr fun opening => open_ (synchronised opening))) _

theorem CoveredBy.synchronisedArrival (positive : 0 < turn.tcb.snd.mss) :
    (turn.synchronisedArrival segment now).CoveredBy before := by
  generalize went : turn.synchronisedArrival segment now = result
  cases synchronisedArrival_outcome went with
  | duplicate _ _ _ => exact covered.acknowledgeNow
  | dropped _ _ | silent _ _ _ => exact covered
  | reset _ _ ended => exact covered_close ended
  | synAgain _ _ _ _ => exact covered_abort
  | @stopped ack _ _ _ _ outcome =>
    cases processAck_outcome outcome with
    | unsent _ => exact covered.acknowledgeNow
    | synUnacknowledged _ _ _ => exact covered
  | @taken ack acked _ _ _ _ outcome =>
    have acks := @takes_processAck turn now segment ack True synchronised
    rw [outcome] at acks
    have ready := ready_processAck covered live synchronised outcome
    refine (ready.receive segment).sendWhatWeCan ?_
    rw [(acked.passes_receive now segment).carries.mss]
    exact acks.mss trivial positive

end

variable {segment : Segment}

theorem covered_answerSyn (una : turn.tcb.snd.una = turn.tcb.snd.iss)
    (fin : turn.tcb.snd.finSeq = none) (some_ : 0 < turn.tcb.snd.una.gap turn.tcb.snd.avail)
    (few : turn.tcb.snd.una.gap turn.tcb.snd.avail < 2 ^ 31 - 1)
    (nxt : turn.tcb.snd.nxt = turn.tcb.snd.iss.after 1) (state : turn.tcb.state = .synReceived) :
    (turn.armRetransmit now).CoveredBy before := by
  have one : turn.tcb.snd.una.gap turn.tcb.snd.nxt = 1 := by
    rw [una, nxt, gap_self_after (by decide)]
  have awaits : turn.tcb.snd.una ≠ turn.tcb.snd.nxt := by
    intro same
    rw [gap_eq_zero.mpr same] at one
    contradiction
  rw [CoveredBy, armRetransmit_tcb, armed_armRetransmit, if_pos rfl]
  exact .synReceived state una awaits ⟨by omega, few⟩ fin (decide_eq_true awaits)

section

variable (covered : turn.CoveredBy before)
include covered

theorem CoveredBy.listenArrival
    (listens : turn.tcb.state = .listen) : (turn.listenArrival segment now).CoveredBy before := by
  generalize went : turn.listenArrival segment now = result
  cases listenArrival_outcome went with
  | ignored => exact covered
  | refused emit _ => exact covered.emit emit
  | answered _ _ _ =>
    rw [CoveredBy, listens] at covered
    cases covered with
    | listen _ una nxt fin =>
      have one : turn.tcb.snd.una.gap (turn.tcb.snd.iss.after 1) = 1 := by
        rw [una, gap_self_after (by decide)]
      refine covered_answerSyn una fin ?_ ?_ rfl rfl
      · exact one.symm ▸ Nat.one_pos
      · exact one.trans_lt (by decide)
    | _ => contradiction

theorem CoveredBy.synSentArrival
    (sent : turn.tcb.state = .synSent) (announced : segment.mss ≠ some 0)
    (positive : 0 < turn.tcb.snd.mss) : (turn.synSentArrival segment now).CoveredBy before := by
  generalize went : turn.synSentArrival segment now = result
  cases synSentArrival_outcome went with
  | stray _ _ => exact covered.emit _
  | ignored => exact covered
  | refused _ => exact covered_close _
  | opened _ _ fits newer =>
    rw [CoveredBy, sent] at covered
    cases covered with
    | synSent _ una nxt ordered fin _ =>
      rw [← una] at fits
      have ordered' := ordered.acknowledge (gap_getD_le fits)
      refine ReadyFor.sendWhatWeCan ?_ ?_
      · rw [ReadyFor, armRetransmit_tcb, armed_armRetransmit, if_pos rfl]
        exact .sending rfl ⟨ordered'.sent, ordered'.few⟩ fin fun awaits => decide_eq_true awaits
      · rw [armRetransmit_tcb]
        exact announcedMss_pos announced positive
    | _ => contradiction
  | crossed _ _ _ _ =>
    rw [CoveredBy, sent] at covered
    cases covered with
    | synSent _ una nxt ordered fin _ =>
      have awaits : turn.tcb.snd.una ≠ turn.tcb.snd.nxt := by
        rw [una, nxt]
        exact ne_after (by decide) (by decide)
      exact covered_answerSyn una fin (ordered.avail_pos awaits) ordered.few rfl rfl
    | _ => contradiction

theorem CoveredBy.arrived (positive : 0 < turn.tcb.snd.mss)
    (announced : turn.tcb.state ∈ [.listen, .synSent] → segment.mss ≠ some 0) :
    (turn.arrived segment now).CoveredBy before := by
  rw [Turn.arrived]
  split
  · rw [closedArrival]
    split
    · exact covered.emit _
    · exact covered
  · exact covered.listenArrival ‹_›
  · rename_i sent
    exact covered.synSentArrival sent (announced (by simp [sent])) positive
  · rename_i live notListen notSynSent
    exact covered.synchronisedArrival live (State.synReceived_of_opening notListen notSynSent)
      positive

theorem CoveredBy.openWith (fin : turn.tcb.state = .closed → turn.tcb.snd.finSeq = none) :
    (turn.openWith iss window passive now).CoveredBy before := by
  rw [Turn.openWith]
  split
  · exact covered
  rename_i closed
  rw [not_not] at closed
  split
  · exact .listen rfl rfl rfl (fin closed)
  have one : iss.gap (iss.after 1) = 1 := gap_self_after (by decide)
  rw [CoveredBy, armRetransmit_tcb, armed_armRetransmit, if_pos rfl]
  refine .synSent rfl rfl rfl ⟨Nat.le_refl _, one.trans_lt (by decide)⟩ (fin closed)
    (decide_eq_true ?_)
  exact ne_after (by decide) (by decide)

theorem CoveredBy.sends (may : turn.maySend) : turn.tcb.snd.InOrder ∧ turn.tcb.snd.finSeq = none ∧
      (turn.tcb.snd.una ≠ turn.tcb.snd.nxt → turn.armed before .retransmit = true) ∧
      (turn.tcb.state = .synReceived →
        turn.tcb.snd.una = turn.tcb.snd.iss ∧ turn.tcb.snd.una ≠ turn.tcb.snd.nxt) := by
  rcases may with can | received
  · obtain ⟨ordered, fin, armed⟩ := Covered.of_canSend covered can
    refine ⟨ordered, fin, armed, fun received => ?_⟩
    rw [received] at can
    contradiction
  · rw [CoveredBy, received] at covered
    obtain ⟨una, awaits, ordered, fin, armed⟩ := covered.of_synReceived
    exact ⟨ordered, fin, fun _ => armed, fun _ => ⟨una, awaits⟩⟩

theorem CoveredBy.shutdown (positive : 0 < turn.tcb.snd.mss) :
    (turn.shutdown now).CoveredBy before := by
  have queued (may : turn.maySend) : (turn.queueFin.sendWhatWeCan now).CoveredBy before := by
    obtain ⟨ordered, fin, armed, opening⟩ := covered.sends may
    have may' : turn.queueFin.maySend := may
    exact covered_sendWhatWeCan may' positive ⟨ordered.sent, ordered.few⟩ fin armed opening
  rw [Turn.shutdown]
  split <;> rename_i state
  case h_1 | h_2 => exact queued (.inl (by rw [state]; rfl))
  case h_3 => exact queued (.inr state)
  case h_4 | h_5 => exact covered_close _
  case h_6 => exact covered

end

theorem CoveredBy.wrote (covered : turn.CoveredBy before) (positive : 0 < turn.tcb.snd.mss)
    {bytes : Nat} (open_ : turn.tcb.state ∉ [.closed, .listen] → turn.tcb.snd.finSeq = none ∧
      turn.tcb.snd.una.gap turn.tcb.snd.avail + bytes < 2 ^ 31 - 1) :
    ((turn.makeAvailable bytes).sendWhatWeCan now).CoveredBy before := by
  have grows (few : turn.tcb.snd.una.gap turn.tcb.snd.avail + bytes < 2 ^ 31 - 1)
      (ordered : turn.tcb.snd.InOrder) : (turn.makeAvailable bytes).tcb.snd.InOrder := by
    have sent := ordered.sent
    have more : turn.tcb.snd.una.gap (turn.tcb.snd.avail.after bytes) =
        turn.tcb.snd.una.gap turn.tcb.snd.avail + bytes := gap_after_of_lt (by omega)
    exact ⟨sent.trans ((Nat.le_add_right _ _).trans_eq more.symm), more.trans_lt few⟩
  by_cases may : turn.maySend
  · have live : turn.tcb.state ∉ [.closed, .listen] := by
      rcases may with can | received
      · cases state : turn.tcb.state <;> simp_all [State.canSend]
      · simp [received]
    obtain ⟨ordered, fin, armed, opening⟩ := covered.sends may
    exact covered_sendWhatWeCan (show (turn.makeAvailable bytes).maySend from may) positive
      (grows (open_ live).2 ordered) fin armed opening
  rw [sendWhatWeCan_of_not _ now (show ¬(turn.makeAvailable bytes).maySend from may)]
  cases covered with
  | closed state => exact .closed state
  | listen state una nxt fin => exact .listen state una nxt fin
  | synSent state una nxt ordered fin armed =>
    exact .synSent state una nxt (grows (open_ (by simp [state])).2 ordered) fin armed
  | synReceived state _ _ _ _ _ => exact absurd (.inr state) may
  | sending can _ _ _ _ => exact absurd (.inl can) may
  | finishing waits finished _ =>
    have live : turn.tcb.state ∉ [.closed, .listen] := by
      cases state : turn.tcb.state <;> simp_all [State.finishing]
    rw [finished.fin] at open_
    cases (open_ live).1
  | finished ended fin _ _ =>
    have live : turn.tcb.state ∉ [.closed, .listen] := by
      cases state : turn.tcb.state <;> simp_all [State.finished]
    rw [fin] at open_
    cases (open_ live).1

end Turn

structure Watched where
  tcb : Tcb
  armed : Timer → Bool

namespace Watched

def new : Watched :=
  { tcb := .new, armed := fun _ => false }

def left (watched : Watched) (event : Event) (timer : Timer) : Bool :=
  if event = .expired timer then false else watched.armed timer

def take (input : Event × Nat) (watched : Watched) : Watched :=
  let turn := step watched.tcb input.1 input.2
  { tcb := turn.tcb, armed := turn.armed (watched.left input.1) }

def Careful (watched : Watched) (input : Event × Nat) : Prop :=
  match input.1 with
  | .connect _ _ | .listen _ _ => watched.tcb.state = .closed → watched.tcb.snd.finSeq = none
  | .wrote bytes => watched.tcb.state ∉ [.closed, .listen] → watched.tcb.snd.finSeq = none ∧
      watched.tcb.snd.una.gap watched.tcb.snd.avail + bytes.toNat < 2 ^ 31 - 1
  | .arrived segment => watched.tcb.state ∈ [.listen, .synSent] → segment.mss ≠ some 0
  | .expired .retransmit => watched.tcb.state ≠ .closed →
      watched.tcb.snd.una ≠ watched.tcb.snd.nxt →
      watched.tcb.Recoverable (watched.armed .probe)
  | _ => True

structure Sound (watched : Watched) : Prop where
  mss : 0 < watched.tcb.snd.mss
  covered : Covered watched.tcb.state watched.tcb.snd (watched.armed .retransmit)
    (watched.armed .probe)

variable {watched : Watched}

theorem Sound.covered_step (sound : watched.Sound)
    (careful : watched.Careful (event, now)) :
    (step watched.tcb event now).CoveredBy (watched.left event) := by
  have start (kept : ∀ timer, event ≠ .expired timer) :
      (⟨watched.tcb, .new⟩ : Turn).CoveredBy (watched.left event) := by
    have same (timer : Timer) : watched.left event timer = watched.armed timer :=
      if_neg (kept timer)
    rw [Turn.CoveredBy, Turn.armed, Turn.armed, Actions.armed_new, Actions.armed_new, same, same]
    exact sound.covered
  cases event with
  | connect iss window | listen iss window => exact (start nofun).openWith careful
  | wrote bytes => exact (start nofun).wrote sound.mss careful
  | read bytes => exact (start nofun).reopenWindow bytes.toNat
  | shutdown => exact (start nofun).shutdown sound.mss
  | abort => exact Turn.covered_abort
  | arrived segment => exact (start nofun).arrived sound.mss careful
  | expired timer =>
    cases timer with
    | retransmit => exact Turn.covered_retransmit sound.mss sound.covered careful
    | delayedAck =>
      have kept : (⟨watched.tcb, .new⟩ : Turn).CoveredBy (watched.left (.expired .delayedAck)) :=
        sound.covered
      rw [step, Turn.expired]
      split
      · exact kept.acknowledgeNow
      · exact kept
    | probe => exact Turn.covered_probe sound.covered
    | timeWait =>
      rw [step, Turn.expired]
      split
      · exact Turn.covered_close _
      · exact sound.covered

theorem Sound.take (sound : watched.Sound) (careful : watched.Careful input) :
    (watched.take input).Sound :=
  ⟨(takes_step ..).mss (fun _ same => by rw [Careful, same] at careful; exact careful) sound.mss,
    sound.covered_step careful⟩

theorem new_sound : new.Sound :=
  ⟨by decide, .closed rfl⟩

/-- Along every run of careful events a connection that owes its peer something has a timer
running. -/
theorem owed_has_timer (reached : Reached take Careful new watched)
    (running : watched.tcb.state ∉ [.closed, .listen, .timeWait]) (owes : watched.tcb.Owes) :
    watched.armed .retransmit = true ∨ watched.armed .probe = true := by
  have sound := reached.invariant (motive := Sound) new_sound
    fun _ sound careful => sound.take careful
  exact sound.covered.armed_of_owes running owes

def handshake : Segment :=
  { sequence := 100, acknowledgement := some 1, flags := { syn := true }, window := 8000,
    mss := none, payload := [] }

theorem owed_has_timer_after_write :
    let watched := (((new.take (.connect 0 1000, 0)).take (.arrived handshake, 0)).take
      (.wrote 100, 0))
    watched.tcb.Owes ∧ (watched.armed .retransmit = true ∨ watched.armed .probe = true) := by
  have opened : Reached take Careful new (new.take (.connect 0 1000, 0)) :=
    .next _ .start fun _ => rfl
  have shaken : Reached take Careful new
      ((new.take (.connect 0 1000, 0)).take (.arrived handshake, 0)) :=
    .next _ opened fun _ => nofun
  have written : Reached take Careful new (((new.take (.connect 0 1000, 0)).take
      (.arrived handshake, 0)).take (.wrote 100, 0)) :=
    .next _ shaken fun _ => ⟨by decide +kernel, by decide +kernel⟩
  have owes : Tcb.Owes (((new.take (.connect 0 1000, 0)).take (.arrived handshake, 0)).take
      (.wrote 100, 0)).tcb :=
    .inr (.inr (.inl (by decide +kernel)))
  exact ⟨owes, owed_has_timer written (by decide +kernel) owes⟩

/-- Two segments and the `FIN` go out, the first is sent again, and it alone is acknowledged. -/
def cutShort : List (Event × Nat) :=
  [(.connect 0 1000, 0), (.arrived handshake, 0), (.wrote 2920, 0), (.shutdown, 0),
    (.expired .retransmit, 1000000000),
    (.arrived { handshake with sequence := 101, acknowledgement := some 1461, flags := {} }, 0)]

theorem not_owed_has_timer : ¬∀ watched, Reached take (fun _ _ => True) new watched →
      watched.tcb.state ∉ [.closed, .listen, .timeWait] → watched.tcb.Owes →
      watched.armed .retransmit = true ∨ watched.armed .probe = true := by
  intro always
  have owes : (run take cutShort new).tcb.Owes := .inr (.inr (.inl (by decide +kernel)))
  have stuck : ¬((run take cutShort new).armed .retransmit = true ∨
      (run take cutShort new).armed .probe = true) := by
    decide +kernel
  exact stuck (always _ (Reached.start.run cutShort) (by decide +kernel) owes)

end Watched

end Bhaskix.Net
