import Bhaskix.Net.Tcp

namespace Bhaskix.Net

open Library

def emitOf : Action → Option Emit
  | .emit emit => some emit
  | _ => none

def deliveredOf : Action → Option Nat
  | .delivered bytes => some bytes
  | _ => none

theorem filterMap_pushTo {β : Type} {part : Action → Option β}
    (plain : ∀ action, timerOf action ≠ none → part action = none) (items : List Action)
    (action : Action) :
    (pushTo items action).filterMap part = items.filterMap part ++ (part action).toList := by
  induction items with
  | nil => rw [pushTo]; cases found : part action <;> simp [found]
  | cons first rest ih =>
    rw [pushTo]
    split
    · rename_i replaced
      have here := plain action replaced.1
      have there := plain first (replaced.2 ▸ replaced.1)
      simp [here, there]
    · cases found : part first <;> simp [ih, found]

namespace Actions

variable (actions : Actions)

def emits : List Emit :=
  actions.items.filterMap emitOf

def taken (actions : Actions) : List Nat :=
  actions.items.filterMap deliveredOf

@[simp] theorem emits_push (action : Action) :
    (actions.push action).emits = actions.emits ++ (emitOf action).toList := by
  refine filterMap_pushTo (fun action timed => ?_) actions.items action
  cases action <;> first | rfl | exact absurd rfl timed

@[simp] theorem taken_push (action : Action) :
    (actions.push action).taken = actions.taken ++ (deliveredOf action).toList := by
  refine filterMap_pushTo (fun action timed => ?_) actions.items action
  cases action <;> first | rfl | exact absurd rfl timed

end Actions

def isArm : Action → Bool
  | .arm _ _ => true
  | _ => false

def armedBy (timer : Timer) (before : Bool) (items : List Action) : Bool :=
  items.foldl (fun running action => if timerOf action = some timer then isArm action else running)
    before

theorem armedBy_of_uninstructed
    (none : ∀ action ∈ items, timerOf action ≠ some timer) (before : Bool) :
    armedBy timer before items = before := by
  induction items with
  | nil => rfl
  | cons first rest ih =>
    rw [armedBy, List.foldl_cons, if_neg (none first List.mem_cons_self)]
    exact ih fun other member => none other (List.mem_cons_of_mem _ member)

theorem armedBy_pushTo (one : OneEach items) (timer : Timer) (before : Bool) (action : Action) :
    armedBy timer before (pushTo items action) =
      if timerOf action = some timer then isArm action else armedBy timer before items := by
  induction items generalizing before with
  | nil => rfl
  | cons first rest ih =>
    obtain ⟨apart, restOne⟩ := List.pairwise_cons.mp one
    rw [pushTo]
    split
    · rename_i replaced
      -- No later instruction is for the timer of the one that was replaced.
      rw [armedBy, armedBy, List.foldl_cons, List.foldl_cons, replaced.2]
      by_cases its : timerOf action = some timer
      · rw [if_pos its, if_pos its]
        refine armedBy_of_uninstructed (fun other member => ?_) _
        rw [← its, ← replaced.2]
        exact (apart other member (replaced.2 ▸ replaced.1)).symm
      · rw [if_neg its, if_neg its, if_neg its]
    · rw [armedBy, armedBy, List.foldl_cons, List.foldl_cons]
      exact ih restOne _

namespace Actions

def armed (actions : Actions) (timer : Timer) (before : Bool) : Bool :=
  armedBy timer before actions.items

@[simp] theorem armed_new (timer : Timer) (before : Bool) : new.armed timer before = before :=
  rfl

@[simp] theorem armed_push (actions : Actions) (timer : Timer) (before : Bool) (action : Action) :
    (actions.push action).armed timer before =
      if timerOf action = some timer then isArm action else actions.armed timer before :=
  armedBy_pushTo actions.oneEach timer before action

end Actions

def State.afterPeerFin : State → State
  | .established | .synReceived => .closeWait
  | .finWait1 => .closing
  | .finWait2 => .timeWait
  | state => state

def State.afterFinAcked : State → State
  | .finWait1 => .finWait2
  | .closing => .timeWait
  | .lastAck => .closed
  | state => state

namespace Sender

variable (snd : Sender) (retransmission : Bool)

def sentSegment : Sender :=
  if snd.finNow retransmission then
    { snd with
      finSeq := some (snd.nxt.after snd.segmentLength),
      nxt := (snd.nxt.after snd.segmentLength).after 1 }
  else { snd with nxt := snd.nxt.after snd.segmentLength }

theorem sentSegment_of_nothing (none : snd.segmentLength = 0)
    (stays : snd.finNow retransmission = false) : snd.sentSegment retransmission = snd := by
  rw [sentSegment, if_neg (by rw [stays]; exact Bool.false_ne_true), none, Serial.after_zero]

@[simp] theorem sentSegment_una : (snd.sentSegment retransmission).una = snd.una := by
  rw [sentSegment]
  split <;> rfl

@[simp] theorem sentSegment_avail : (snd.sentSegment retransmission).avail = snd.avail := by
  rw [sentSegment]
  split <;> rfl

@[simp] theorem sentSegment_wnd : (snd.sentSegment retransmission).wnd = snd.wnd := by
  rw [sentSegment]
  split <;> rfl

@[simp] theorem sentSegment_iss : (snd.sentSegment retransmission).iss = snd.iss := by
  rw [sentSegment]
  split <;> rfl

@[simp] theorem sentSegment_finQueued :
    (snd.sentSegment retransmission).finQueued = snd.finQueued := by
  rw [sentSegment]
  split <;> rfl

@[simp] theorem sentSegment_mss : (snd.sentSegment retransmission).mss = snd.mss := by
  rw [sentSegment]
  split <;> rfl

end Sender

namespace Turn

variable (turn : Turn) (now : Nat) (ack : Sequence) (retransmission : Bool)

@[simp] theorem push_tcb (action : Action) : (turn.push action).tcb = turn.tcb :=
  rfl

@[simp] theorem armRetransmit_tcb : (turn.armRetransmit now).tcb = turn.tcb := by
  rw [armRetransmit]
  split <;> rfl

@[simp] theorem armProbe_tcb : (turn.armProbe now).tcb = turn.tcb :=
  rfl

@[simp] theorem armProbeIfClosed_tcb : (turn.armProbeIfClosed now).tcb = turn.tcb := by
  rw [armProbeIfClosed]
  split <;> rfl

@[simp] theorem tellAcknowledged_tcb (bytes : Nat) :
    (turn.tellAcknowledged bytes).tcb = turn.tcb := by
  rw [tellAcknowledged]
  split <;> rfl

@[simp] theorem finishTiming_state : (turn.finishTiming ack now).tcb.state = turn.tcb.state :=
  rfl

@[simp] theorem finishTiming_snd : (turn.finishTiming ack now).tcb.snd = turn.tcb.snd :=
  rfl

@[simp] theorem freeAcknowledged_state :
    (turn.freeAcknowledged ack now).tcb.state = turn.tcb.state := by
  rw [freeAcknowledged, armRetransmit_tcb, finishTiming_state, tellAcknowledged_tcb]
  rfl

@[simp] theorem freeAcknowledged_snd :
    (turn.freeAcknowledged ack now).tcb.snd = { turn.tcb.snd with una := ack } := by
  rw [freeAcknowledged, armRetransmit_tcb, finishTiming_snd, tellAcknowledged_tcb]
  rfl

@[simp] theorem establish_state : (turn.establish ack now).tcb.state = .established := by
  rw [establish, armRetransmit_tcb]
  rfl

@[simp] theorem establish_snd :
    (turn.establish ack now).tcb.snd = { turn.tcb.snd with una := ack } := by
  rw [establish, armRetransmit_tcb]
  rfl

@[simp] theorem establish_rcv : (turn.establish ack now).tcb.rcv = turn.tcb.rcv := by
  rw [establish, armRetransmit_tcb]
  rfl

@[simp] theorem coverSent_state : (turn.coverSent now).tcb.state = turn.tcb.state := by
  rw [coverSent, armRetransmit_tcb]
  split <;> rfl

@[simp] theorem coverSent_snd : (turn.coverSent now).tcb.snd = turn.tcb.snd := by
  rw [coverSent, armRetransmit_tcb]
  split <;> rfl

@[simp] theorem coverSent_rcv : (turn.coverSent now).tcb.rcv = turn.tcb.rcv := by
  rw [coverSent, armRetransmit_tcb]
  split <;> rfl

@[simp] theorem acknowledgeNow_tcb : turn.acknowledgeNow.tcb = { turn.tcb with sinceAck := 0 } :=
  rfl

theorem advanceAfterAck_of_not (open_ : turn.tcb.snd.finAcked = false) :
    turn.advanceAfterAck now = turn := by
  rw [advanceAfterAck, if_neg (by rw [open_]; exact Bool.false_ne_true)]

theorem advanceAfterAck_state (acked : turn.tcb.snd.finAcked = true) :
    (turn.advanceAfterAck now).tcb.state = turn.tcb.state.afterFinAcked := by
  rw [advanceAfterAck, if_pos acked]
  split <;> rename_i state
  case h_4 other => cases state : turn.tcb.state <;> simp_all [State.afterFinAcked]
  all_goals
    rw [state]
    rfl

@[simp] theorem advanceAfterAck_snd : (turn.advanceAfterAck now).tcb.snd = turn.tcb.snd := by
  rw [advanceAfterAck]
  split
  · split <;> rfl
  · rfl

@[simp] theorem deliver_state (segment : Segment) :
    (turn.deliver segment).1.tcb.state = turn.tcb.state := by
  rw [deliver]
  split
  · rfl
  split
  · rfl
  · split <;> rfl

@[simp] theorem deliver_snd (segment : Segment) :
    (turn.deliver segment).1.tcb.snd = turn.tcb.snd := by
  rw [deliver]
  split
  · rfl
  split
  · rfl
  · split <;> rfl

@[simp] theorem takeWindow_tcb (window : UInt16) :
    (turn.takeWindow window).tcb = { turn.tcb with snd.wnd := window } := by
  rw [takeWindow]
  split <;> rfl

@[simp] theorem peerClosed_state :
    (turn.peerClosed now).tcb.state = turn.tcb.state.afterPeerFin := by
  rw [peerClosed]
  split <;> rename_i state
  case h_5 other => cases state : turn.tcb.state <;> simp_all [State.afterPeerFin]
  all_goals
    rw [show turn.tcb.state = _ from state]
    rfl

@[simp] theorem peerClosed_snd : (turn.peerClosed now).tcb.snd = turn.tcb.snd := by
  rw [peerClosed]
  split <;> rfl

@[simp] theorem peerClosed_rcv : (turn.peerClosed now).tcb.rcv = turn.tcb.rcv := by
  rw [peerClosed]
  split <;> rfl

theorem sendSegment_cases :
    (turn.tcb.snd.segmentLength = 0 ∧ turn.tcb.snd.finNow retransmission = false ∧
      turn.sendSegment retransmission = (turn, false)) ∨
    (0 < turn.tcb.snd.segmentLength ∧ turn.tcb.snd.finNow retransmission = false ∧
      turn.sendSegment retransmission = (turn.sendData false, true)) ∨
    (turn.tcb.snd.finNow retransmission = true ∧
      turn.sendSegment retransmission = ((turn.sendData true).sendFin, true)) := by
  rw [sendSegment]
  cases fin : turn.tcb.snd.finNow retransmission with
  | true => exact .inr (.inr ⟨rfl, by simp⟩)
  | false =>
    rcases Nat.eq_zero_or_pos turn.tcb.snd.segmentLength with none | some_
    · exact .inl ⟨none, rfl, by simp [none]⟩
    · exact .inr (.inl ⟨some_, rfl, by simp; omega⟩)

@[elab_as_elim] theorem sendSegment_rec {motive : Turn → Prop} (stays : motive turn)
    (data : motive (turn.sendData false)) (fin : motive (turn.sendData true).sendFin) :
    motive (turn.sendSegment retransmission).1 := by
  rcases turn.sendSegment_cases retransmission with ⟨_, _, sent⟩ | ⟨_, _, sent⟩ | ⟨_, sent⟩
  · rwa [sent]
  · rwa [sent]
  · rwa [sent]

@[simp] theorem sendSegment_snd :
    (turn.sendSegment retransmission).1.tcb.snd = turn.tcb.snd.sentSegment retransmission := by
  rcases turn.sendSegment_cases retransmission with ⟨none, stays, sent⟩ | ⟨_, stays, sent⟩ |
    ⟨fin, sent⟩
  · rw [sent, Sender.sentSegment_of_nothing _ _ none stays]
  · rw [sent, Sender.sentSegment, if_neg (by rw [stays]; exact Bool.false_ne_true)]
    rfl
  · rw [sent, Sender.sentSegment, if_pos fin]
    rfl

@[simp] theorem sendSegment_rcv : (turn.sendSegment retransmission).1.tcb.rcv = turn.tcb.rcv :=
  sendSegment_rec turn retransmission rfl rfl rfl

theorem sendSegment_state : (turn.sendSegment retransmission).1.tcb.state =
      if turn.tcb.snd.finNow retransmission then turn.tcb.state.afterFin else turn.tcb.state := by
  rcases turn.sendSegment_cases retransmission with ⟨_, stays, sent⟩ | ⟨_, stays, sent⟩ |
    ⟨fin, sent⟩
  · rw [sent, stays]
    rfl
  · rw [sent, stays]
    rfl
  · rw [sent, fin]
    rfl

theorem sendSegments_fst : turn.sendSegments.1 = (turn.sendSegment false).1 ∨
      turn.sendSegments.1 = ((turn.sendSegment false).1.sendSegment false).1 := by
  rw [sendSegments]
  cases sent : (turn.sendSegment false).2 with
  | true => exact .inr (by simp only [if_true])
  | false => exact .inl (by simp only [Bool.false_eq_true, if_false])

theorem sendSegments_fst_tcb :
    turn.sendSegments.1.tcb = ((turn.sendSegment false).1.sendSegment false).1.tcb := by
  rw [sendSegments]
  rcases turn.sendSegment_cases false with ⟨_, _, sent⟩ | ⟨_, _, sent⟩ | ⟨_, sent⟩
  · simp only [sent, Bool.false_eq_true, if_false]
  · simp only [sent, if_true]
  · simp only [sent, if_true]

@[simp] theorem sendSegments_snd :
    turn.sendSegments.1.tcb.snd = (turn.tcb.snd.sentSegment false).sentSegment false := by
  rw [sendSegments_fst_tcb, sendSegment_snd, sendSegment_snd]

@[simp] theorem sendSegments_rcv : turn.sendSegments.1.tcb.rcv = turn.tcb.rcv := by
  rw [sendSegments_fst_tcb, sendSegment_rcv, sendSegment_rcv]

def maySend : Prop :=
  turn.tcb.state.canSend = true ∨ turn.tcb.state = .synReceived

instance : Decidable turn.maySend :=
  inferInstanceAs (Decidable (_ ∨ _))

theorem sendWhatWeCan_of_not (stays : ¬turn.maySend) : turn.sendWhatWeCan now = turn := by
  rw [maySend, not_or, Bool.not_eq_true] at stays
  rw [sendWhatWeCan, if_pos stays]

theorem sendWhatWeCan_of_may (may : turn.maySend) : turn.sendWhatWeCan now =
      if turn.sendSegments.2 then (turn.sendSegments.1.armProbeIfClosed now).coverSent now
      else turn.sendSegments.1.armProbeIfClosed now := by
  rw [sendWhatWeCan, if_neg]
  rintro ⟨cannot, other⟩
  rcases may with can | its
  · rw [can] at cannot
    contradiction
  · exact other its

theorem sendWhatWeCan_tcb_of_may (may : turn.maySend) :
    (turn.sendWhatWeCan now).tcb.snd = turn.sendSegments.1.tcb.snd ∧
      (turn.sendWhatWeCan now).tcb.rcv = turn.sendSegments.1.tcb.rcv ∧
      (turn.sendWhatWeCan now).tcb.state = turn.sendSegments.1.tcb.state := by
  rw [sendWhatWeCan_of_may turn now may]
  split
  · simp
  · simp

theorem sendSegments_eq_of_none (none : turn.sendSegments.2 = false) :
    turn.sendSegments = (turn, false) := by
  rw [sendSegments] at none ⊢
  rcases turn.sendSegment_cases false with ⟨_, _, sent⟩ | ⟨_, _, sent⟩ | ⟨_, sent⟩
  · rw [sent, if_neg Bool.false_ne_true]
  · rw [sent, if_pos rfl] at none
    contradiction
  · rw [sent, if_pos rfl] at none
    contradiction

theorem resend_of_synchronised (notSent : turn.tcb.state ≠ .synSent)
    (notReceived : turn.tcb.state ≠ .synReceived) :
    turn.resend = (turn.sendSegment true).1.resendFin := by
  rw [resend]
  split
  · exact absurd ‹_› notSent
  · exact absurd ‹_› notReceived
  · rfl

theorem resetFor_bare {segment : Segment} (answer : resetFor segment = some emit) :
    emit.flags.syn = false ∧ emit.flags.fin = false ∧ emit.length = 0 := by
  unfold resetFor at answer
  split at answer
  · contradiction
  · obtain rfl := Option.some.inj answer
    exact ⟨rfl, rfl, rfl⟩

variable (before : Timer → Bool) (timer : Timer)

def armed : Bool :=
  turn.actions.armed timer (before timer)

@[simp] theorem armed_push (action : Action) : (turn.push action).armed before timer =
      if timerOf action = some timer then isArm action else turn.armed before timer :=
  Actions.armed_push ..

theorem armed_acknowledgeNow (other : timer ≠ .delayedAck) :
    turn.acknowledgeNow.armed before timer = turn.armed before timer := by
  have sent : turn.acknowledgeNow.armed before timer =
      ((turn.push (.emit _)).push (.cancel .delayedAck)).armed before timer :=
    rfl
  rw [sent, armed_push, armed_push]
  cases timer with
  | delayedAck => exact absurd rfl other
  | _ => rfl

@[simp] theorem armed_sendSegment :
    (turn.sendSegment retransmission).1.armed before timer = turn.armed before timer :=
  have pushed {sent : Emit} := armed_push turn before timer (.emit sent)
  sendSegment_rec turn retransmission rfl pushed pushed

@[simp] theorem armed_sendSegments :
    turn.sendSegments.1.armed before timer = turn.armed before timer := by
  rw [sendSegments]
  split
  · rw [armed_sendSegment, armed_sendSegment]
  · rw [armed_sendSegment]

theorem armed_armRetransmit : (turn.armRetransmit now).armed before timer =
      if timer = .retransmit then turn.tcb.snd.awaitingAck else turn.armed before timer := by
  rw [armRetransmit]
  split
  · rename_i awaiting
    rw [armed_push, awaiting]
    cases timer <;> rfl
  · rename_i idle
    rw [armed_push, Bool.eq_false_iff.mpr idle]
    cases timer <;> rfl

theorem armed_peerClosed_retransmit : (turn.peerClosed now).armed before .retransmit =
      if turn.tcb.state = .finWait2 then false else turn.armed before .retransmit := by
  have acked := turn.armed_acknowledgeNow before .retransmit nofun
  rw [← acked, peerClosed]
  split <;> rename_i state
  case h_4 =>
    rw [if_pos (show turn.tcb.state = _ from state)]
    exact (armed_push ..).trans (if_neg nofun |>.trans (armed_push ..))
  case h_5 other => rw [if_neg (show ¬turn.tcb.state = _ from state)]
  all_goals
    rw [if_neg (by rw [show turn.tcb.state = _ from state]; nofun)]
    rfl

theorem armed_coverSent : (turn.coverSent now).armed before timer =
      if timer = .retransmit then turn.tcb.snd.awaitingAck else turn.armed before timer := by
  rw [coverSent, armed_armRetransmit]
  cases turn.tcb.clock.timing <;> rfl

theorem armed_armProbe : (turn.armProbe now).armed before timer =
      if timer = .probe then true else turn.armed before timer := by
  rw [armProbe, armed_push]
  cases timer <;> rfl

theorem armed_armProbeIfClosed : (turn.armProbeIfClosed now).armed before timer =
      if timer = .probe ∧ turn.tcb.snd.wnd = 0 ∧ 0 < turn.tcb.snd.unsent then true
      else turn.armed before timer := by
  rw [armProbeIfClosed]
  split
  · rename_i closed
    simp only [armed_armProbe, closed, and_self, and_true]
  · rename_i open_
    rw [if_neg fun both => open_ both.2]

theorem armed_sendWhatWeCan (may : turn.maySend) : (turn.sendWhatWeCan now).armed before timer =
      if timer = .retransmit ∧ turn.sendSegments.2 = true then
        turn.sendSegments.1.tcb.snd.awaitingAck
      else if timer = .probe ∧ turn.sendSegments.1.tcb.snd.wnd = 0 ∧
          0 < turn.sendSegments.1.tcb.snd.unsent then true else turn.armed before timer := by
  rw [sendWhatWeCan_of_may turn now may]
  split
  · rename_i some_
    rw [armed_coverSent, armProbeIfClosed_tcb, armed_armProbeIfClosed, armed_sendSegments, some_]
    simp only [and_true]
  · rename_i none
    simp only [armed_armProbeIfClosed, armed_sendSegments, none, Bool.false_eq_true, and_false,
      if_false]

theorem emits_enterTimeWait : (turn.enterTimeWait now).actions.emits = turn.actions.emits := by
  have pushed : (turn.enterTimeWait now).actions =
      (turn.actions.push (.cancel .retransmit)).push (.arm .timeWait _) := rfl
  simp only [pushed, Actions.emits_push, emitOf, Option.toList_none, List.append_nil]

variable (segment : Segment)

/-- What becomes of an acknowledgement; and whether the segment is looked at further. -/
inductive AckOutcome : Turn × Bool → Prop
  | unsent (beyond : ack.follows turn.tcb.snd.nxt = true) : AckOutcome (turn.acknowledgeNow, false)
  | synUnacknowledged (sent : ack.follows turn.tcb.snd.nxt = false)
      (opening : turn.tcb.state = .synReceived) (old : ack.follows turn.tcb.snd.iss = false) :
      AckOutcome (turn, false)
  | established (sent : ack.follows turn.tcb.snd.nxt = false)
      (opening : turn.tcb.state = .synReceived) (newer : ack.follows turn.tcb.snd.iss = true) :
      AckOutcome ((turn.establish ack now).takeWindow segment.window, true)
  | acknowledged (sent : ack.follows turn.tcb.snd.nxt = false)
      (open_ : turn.tcb.state ≠ .synReceived) (newer : ack.follows turn.tcb.snd.una = true) :
      AckOutcome ((turn.acknowledge ack now).takeWindow segment.window, true)
  | old (sent : ack.follows turn.tcb.snd.nxt = false) (open_ : turn.tcb.state ≠ .synReceived)
      (old : ack.follows turn.tcb.snd.una = false) :
      AckOutcome (turn.takeWindow segment.window, true)

variable {turn now ack segment} in
theorem processAck_outcome (went : turn.processAck segment ack now = result) :
    turn.AckOutcome now ack segment result := by
  subst went
  rw [processAck]
  cases beyond : ack.follows turn.tcb.snd.nxt with
  | true => exact .unsent beyond
  | false =>
    by_cases opening : turn.tcb.state = .synReceived
    · cases newer : ack.follows turn.tcb.snd.iss with
      | false =>
        simp only [opening]
        exact .synUnacknowledged beyond opening newer
      | true =>
        have itself : ack.follows (turn.establish ack now).tcb.snd.una = false := by
          rw [establish, armRetransmit_tcb]
          exact Serial.follows_self ack
        simp only [opening, itself, Bool.false_eq_true, Bool.true_eq_false, and_false, if_true,
          if_false]
        exact .established beyond opening newer
    · cases newer : ack.follows turn.tcb.snd.una with
      | false =>
        simp only [opening, newer, Bool.false_eq_true, false_and, if_false]
        exact .old beyond opening newer
      | true =>
        simp only [opening, newer, Bool.false_eq_true, false_and, if_true, if_false]
        exact .acknowledged beyond opening newer

inductive ArrivalOutcome : Turn → Prop
  | duplicate (outside : acceptable turn.tcb segment = false) (plain : segment.flags.rst = false)
      (old : segment.sequence.precedes turn.tcb.rcv.nxt = true) : ArrivalOutcome turn.acknowledgeNow
  | dropped (outside : acceptable turn.tcb segment = false)
      (silent : segment.flags.rst = true ∨ segment.sequence.precedes turn.tcb.rcv.nxt = false) :
      ArrivalOutcome turn
  | reset (inside : acceptable turn.tcb segment = true) (rst : segment.flags.rst = true)
      (ended : Ended) : ArrivalOutcome (turn.close ended)
  | synAgain (inside : acceptable turn.tcb segment = true) (plain : segment.flags.rst = false)
      (syn : segment.flags.syn = true) (other : segment.sequence ≠ turn.tcb.rcv.irs) :
      ArrivalOutcome turn.abort
  | silent (inside : acceptable turn.tcb segment = true) (plain : segment.flags.rst = false)
      (none : segment.acknowledgement = none) : ArrivalOutcome turn
  | stopped {ack : Sequence} {acked : Turn} (inside : acceptable turn.tcb segment = true)
      (plain : segment.flags.rst = false) (acks : segment.acknowledgement = some ack)
      (outcome : turn.processAck segment ack now = (acked, false)) : ArrivalOutcome acked
  | taken {ack : Sequence} {acked : Turn} (inside : acceptable turn.tcb segment = true)
      (plain : segment.flags.rst = false)
      (syn : segment.flags.syn = true → segment.sequence = turn.tcb.rcv.irs)
      (acks : segment.acknowledgement = some ack)
      (outcome : turn.processAck segment ack now = (acked, true)) :
      ArrivalOutcome ((acked.receive segment now).sendWhatWeCan now)

variable {turn now segment} in
theorem synchronisedArrival_outcome (went : turn.synchronisedArrival segment now = result) :
    turn.ArrivalOutcome now segment result := by
  subst went
  rw [synchronisedArrival]
  cases inside : acceptable turn.tcb segment with
  | false =>
    rw [if_pos rfl]
    split
    · rename_i old
      exact .duplicate inside old.1 old.2
    · rename_i silent
      refine .dropped inside ?_
      rwa [Classical.not_and_iff_not_or_not, Bool.not_eq_false, Bool.not_eq_true] at silent
  | true =>
    rw [if_neg (by decide)]
    cases plain : segment.flags.rst with
    | true => exact .reset inside plain _
    | false =>
      rw [if_neg (by decide)]
      split
      · rename_i again
        exact .synAgain inside plain again.1 again.2
      rename_i synOnce
      rw [not_and, ne_eq, not_not] at synOnce
      split
      · rename_i none
        exact .silent inside plain none
      rename_i ack acks
      cases outcome : turn.processAck segment ack now with
      | mk acked continues =>
        cases continues with
        | false => exact .stopped inside plain acks outcome
        | true => exact .taken inside plain synOnce acks outcome

inductive SynSentOutcome : Turn → Prop
  | stray {ack : Sequence} (acks : segment.acknowledgement = some ack)
      (plain : segment.flags.rst = false) :
      SynSentOutcome (turn.push (.emit
        { flags := { rst := true }, sequence := ack, acknowledgement := none, window := 0,
          length := 0, mss := none }))
  | ignored : SynSentOutcome turn
  | refused (rst : segment.flags.rst = true) : SynSentOutcome (turn.close .refused)
  | opened (plain : segment.flags.rst = false) (syn : segment.flags.syn = true)
      (fits : ∀ {ack}, segment.acknowledgement = some ack →
        ack.follows turn.tcb.snd.iss = true ∧ ack.follows turn.tcb.snd.nxt = false)
      (newer : (segment.acknowledgement.getD turn.tcb.snd.una).follows turn.tcb.snd.iss = true) :
      SynSentOutcome ((((((turn.synchronise segment).takeAck
        segment.acknowledgement).becomeEstablished now).acknowledgeNow).armRetransmit
        now).sendWhatWeCan now)
  | crossed (plain : segment.flags.rst = false) (syn : segment.flags.syn = true)
      (bare : segment.acknowledgement = none)
      (old : turn.tcb.snd.una.follows turn.tcb.snd.iss = false) :
      SynSentOutcome (((turn.synchronise segment).takeAck none).answerSyn.armRetransmit now)

variable {turn now segment} in
theorem synSentArrival_outcome (went : turn.synSentArrival segment now = result) :
    turn.SynSentOutcome now segment result := by
  subst went
  unfold synSentArrival
  dsimp only
  split
  · rename_i ack stray
    have acks := (Option.filter_eq_some_iff.mp stray).1
    split
    · exact .ignored
    · exact .stray acks (Bool.eq_false_iff.mpr ‹_›)
  rename_i close
  have fits : ∀ {ack}, segment.acknowledgement = some ack →
      ack.follows turn.tcb.snd.iss = true ∧ ack.follows turn.tcb.snd.nxt = false := by
    intro ack acks
    have kept := Option.filter_eq_none_iff.mp close ack acks
    simpa using kept
  split
  · rename_i rst
    split
    · exact .refused rst
    · exact .ignored
  rename_i plain
  rw [Bool.not_eq_true] at plain
  split
  · exact .ignored
  rename_i syn
  rw [Bool.not_eq_false] at syn
  split
  · rename_i newer
    exact .opened plain syn fits newer
  rename_i old
  rw [Bool.not_eq_true] at old
  cases acks : segment.acknowledgement with
  | none =>
    rw [acks] at old
    exact .crossed plain syn acks old
  | some ack =>
    rw [acks] at old
    have newer := (fits acks).1
    rw [show ack.follows turn.tcb.snd.iss = false from old] at newer
    contradiction

inductive ListenOutcome : Turn → Prop
  | ignored : ListenOutcome turn
  | refused (emit : Emit) (answer : resetFor segment = some emit) :
      ListenOutcome (turn.push (.emit emit))
  | answered (plain : segment.flags.rst = false) (syn : segment.flags.syn = true)
      (bare : segment.acknowledgement = none) :
      ListenOutcome
        (((((turn.synchronise segment).answerSyn).dropUnsent).startTiming now).armRetransmit now)

variable {turn now segment} in
theorem listenArrival_outcome (went : turn.listenArrival segment now = result) :
    turn.ListenOutcome now segment result := by
  subst went
  rw [listenArrival]
  split
  · exact .ignored
  rename_i plain
  split
  · rw [closedArrival]
    split
    · exact .refused _ ‹_›
    · exact .ignored
  · rename_i bare
    split
    · exact .ignored
    · rename_i syn
      exact .answered (Bool.eq_false_iff.mpr plain) (by simpa using syn) (by simpa using bare)

end Turn

end Bhaskix.Net
