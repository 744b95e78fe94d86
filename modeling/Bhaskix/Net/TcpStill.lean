import Bhaskix.Net.TcpPushes

namespace Bhaskix.Net

open Library

def State.opening : State → Bool
  | .listen | .synSent | .synReceived => true
  | _ => false

/-- The states that nothing of the peer's stream leads out of, since it has ended. -/
def State.peerDone : State → Bool
  | .closed | .closeWait | .closing | .lastAck | .timeWait => true
  | _ => false

def State.unsynchronised : State → Bool
  | .closed | .listen | .synSent => true
  | _ => false

def State.starting : State → Bool
  | .listen | .synSent => true
  | _ => false

variable {state : State}

theorem State.opening_of_afterFin (opening : state.afterFin.opening = true) :
    state.opening = true := by
  cases state <;> first | rfl | exact opening

namespace Tcb

structure Carries (before after : Tcb) : Prop where
  una : after.snd.una = before.snd.una
  iss : after.snd.iss = before.snd.iss
  mss : after.snd.mss = before.snd.mss
  opening : after.state.opening = true → before.state.opening = true

theorem Carries.refl (tcb : Tcb) : Carries tcb tcb :=
  ⟨rfl, rfl, rfl, id⟩

theorem Carries.trans (one : Carries first second)
    (two : Carries second third) : Carries first third :=
  ⟨two.una.trans one.una, two.iss.trans one.iss, two.mss.trans one.mss, one.opening ∘ two.opening⟩

structure Limited (tcb : Tcb) : Prop where
  window : tcb.rcv.wnd ≤ tcb.rcv.capacity
  least : minRtoUs ≤ tcb.clock.rtoUs
  most : tcb.clock.rtoUs ≤ maxRtoUs
  retransmits : tcb.retransmits ≤ maxRetransmits

end Tcb

theorem Receiver.reopened_le (rcv : Receiver) (bytes : Nat) :
    rcv.reopened bytes ≤ rcv.capacity := by
  have small : rcv.capacity.toNat < 2 ^ 16 := rcv.capacity.toNat_lt
  rw [Receiver.reopened, UInt16.le_iff_toNat_le, UInt16.toNat_ofNat']
  exact (Nat.mod_le _ _).trans (Nat.min_le_left _ _)

namespace Clock

variable {clock : Clock}

theorem measure_bounds (sampleUs : Nat) :
    minRtoUs ≤ (clock.measure sampleUs).rtoUs ∧ (clock.measure sampleUs).rtoUs ≤ maxRtoUs := by
  unfold measure
  dsimp only
  split
  · exact ⟨Nat.le_max_left _ _, Nat.max_le.mpr ⟨by decide, Nat.min_le_left _ _⟩⟩
  · exact ⟨Nat.le_max_left _ _, Nat.max_le.mpr ⟨by decide, Nat.min_le_left _ _⟩⟩

theorem finishTiming_bounds (least : minRtoUs ≤ clock.rtoUs) (most : clock.rtoUs ≤ maxRtoUs)
    (ack : Sequence) (now : Nat) : minRtoUs ≤ (clock.finishTiming ack now).rtoUs ∧
      (clock.finishTiming ack now).rtoUs ≤ maxRtoUs := by
  rw [finishTiming]
  split
  · exact ⟨least, most⟩
  split
  · exact measure_bounds _
  · exact ⟨least, most⟩

end Clock

namespace Turn

open Net.Action (Plain Withheld Bare)

structure Quiet (before after : Turn) : Prop where
  nxt : after.tcb.rcv.nxt = before.tcb.rcv.nxt
  fin : after.tcb.rcv.finReceived = before.tcb.rcv.finReceived
  done : before.tcb.state.peerDone = true → after.tcb.state.peerDone = true
  fresh : before.tcb.state.unsynchronised = true → after.tcb.state.unsynchronised = true
  starting : after.tcb.state.starting = true → before.tcb.state.starting = true
  taken : after.actions.taken = before.actions.taken

theorem Quiet.refl (turn : Turn) : Quiet turn turn :=
  ⟨rfl, rfl, id, id, id, rfl⟩

theorem Quiet.trans (one : Quiet first second) (two : Quiet second third) :
    Quiet first third :=
  ⟨two.nxt.trans one.nxt, two.fin.trans one.fin, two.done ∘ one.done, two.fresh ∘ one.fresh,
    one.starting ∘ two.starting, two.taken.trans one.taken⟩

theorem Quiet.push (turn : Turn) (plain : deliveredOf action = none) :
    Quiet turn (turn.push action) := by
  refine ⟨rfl, rfl, id, id, id, ?_⟩
  have pushed : (turn.push action).actions.taken = (turn.actions.push action).taken := rfl
  rw [pushed, Actions.taken_push, plain, Option.toList_none, List.append_nil]

/-- Between two points of a step nothing new is acknowledged or taken, the limits stay, and so many
actions at most are pushed, all of one kind. -/
structure Still (kind : Action → Prop) (count : Nat) (before after : Turn) : Prop where
  quiet : Quiet before after
  carries : before.tcb.Carries after.tcb
  limited : before.tcb.Limited → after.tcb.Limited
  pushes : Pushes kind count before after

namespace Still

variable {kind : Action → Prop} {count : Nat} {before after : Turn}

theorem refl (turn : Turn) : Still kind count turn turn :=
  ⟨.refl turn, .refl turn.tcb, id, .refl turn⟩

theorem trans (first : Still kind count before after) (second : Still kind more after last) :
    Still kind (count + more) before last :=
  ⟨first.quiet.trans second.quiet, first.carries.trans second.carries,
    second.limited ∘ first.limited, first.pushes.trans second.pushes⟩

theorem weaken (still : Still kind count before after) (fewer : count ≤ more) :
    Still kind more before after :=
  { still with pushes := still.pushes.weaken fewer }

theorem withheld (still : Still Plain count before after) : Still Withheld count before after :=
  { still with pushes := still.pushes.withheld }

theorem bare (still : Still Plain count before after) : Still Bare count before after :=
  { still with pushes := still.pushes.bare }

end Still

/-- The part of a control block that sending does not change. -/
def held (tcb : Tcb) : State × Receiver × Sequence × Sequence × UInt16 × Nat × Nat :=
  (tcb.state, tcb.rcv, tcb.snd.una, tcb.snd.iss, tcb.snd.mss, tcb.clock.rtoUs, tcb.retransmits)

variable {kind : Action → Prop} (turn : Turn) (now : Nat) (ack : Sequence)

theorem still_push (plain : deliveredOf action = none) (its : kind action) :
    Still kind 1 turn (turn.push action) :=
  ⟨.push turn plain, .refl _, id, .one rfl its⟩

theorem still_move {tcb : Tcb} (same : held tcb = held turn.tcb) :
    Still kind 0 turn ⟨tcb, turn.actions⟩ := by
  simp only [held, Prod.mk.injEq] at same
  obtain ⟨state, rcv, una, iss, mss, rto, retransmits⟩ := same
  refine ⟨⟨congrArg _ rcv, congrArg _ rcv, ?_, ?_, ?_, rfl⟩, ⟨una, iss, mss, ?_⟩, ?_, .of_same rfl⟩
  · exact fun done => state.symm ▸ done
  · exact fun fresh => state.symm ▸ fresh
  · exact fun starting => state ▸ starting
  · exact fun opening => state ▸ opening
  · rintro ⟨window, least, most, few⟩
    exact ⟨rcv.symm ▸ window, rto.symm ▸ least, rto.symm ▸ most, retransmits.symm ▸ few⟩

theorem still_emit {tcb : Tcb} (its : kind (.emit emit)) (same : held tcb = held turn.tcb) :
    Still kind 1 turn ⟨tcb, turn.actions.push (.emit emit)⟩ :=
  (turn.still_push rfl its).trans (still_move _ same)

theorem still_finishTiming : Still kind 0 turn (turn.finishTiming ack now) := by
  refine ⟨⟨rfl, rfl, id, id, id, rfl⟩, ⟨rfl, rfl, rfl, id⟩, fun limited => ?_, .of_same rfl⟩
  obtain ⟨least, most⟩ := Clock.finishTiming_bounds limited.least limited.most ack now
  exact ⟨limited.window, least, most, limited.retransmits⟩

theorem still_armRetransmit : Still Plain 1 turn (turn.armRetransmit now) := by
  rw [armRetransmit]
  split
  · exact turn.still_push rfl (plain_of_untold rfl rfl)
  · exact turn.still_push rfl (plain_of_untold rfl rfl)

theorem still_armProbe : Still Plain 1 turn (turn.armProbe now) :=
  turn.still_push rfl (plain_of_untold rfl rfl)

theorem still_armProbeIfClosed : Still Plain 1 turn (turn.armProbeIfClosed now) := by
  rw [armProbeIfClosed]
  split
  · exact turn.still_armProbe now
  · exact .refl turn

theorem still_coverSent : Still Plain 1 turn (turn.coverSent now) := by
  have timed : Still Plain 0 turn (turn.startTiming now) := turn.still_move rfl
  rw [coverSent]
  split
  · exact timed.trans (still_armRetransmit _ now)
  · exact turn.still_armRetransmit now

theorem still_acknowledgeNow : Still Plain 2 turn turn.acknowledgeNow := by
  refine .trans ?_ (still_push _ rfl (plain_of_untold rfl rfl))
  exact turn.still_emit (.of_emit rfl) rfl

theorem still_close (ended : Ended) : Still Plain 1 turn (turn.close ended) := by
  have closed : Still Plain 0 turn ⟨{ turn.tcb with state := .closed }, turn.actions⟩ :=
    ⟨⟨rfl, rfl, fun _ => rfl, fun _ => rfl, nofun, rfl⟩, ⟨rfl, rfl, rfl, nofun⟩,
      fun limited => { limited with }, .of_same rfl⟩
  exact closed.trans (still_push _ rfl (plain_of_untold rfl rfl))

theorem still_abort : Still Plain 2 turn turn.abort := by
  rw [abort]
  split
  · exact (turn.still_close _).weaken (by decide)
  · exact (turn.still_close _).weaken (by decide)
  · exact (turn.still_push rfl (.of_emit rfl)).trans (still_close _ _)

theorem still_sendData (finNow : Bool) : Still Withheld 1 turn (turn.sendData finNow) :=
  turn.still_emit rfl rfl

theorem still_sendFin : Still kind 0 turn turn.sendFin := by
  have state : turn.sendFin.tcb.state = turn.tcb.state.afterFin := rfl
  refine ⟨⟨rfl, rfl, fun done => ?_, fun fresh => ?_, fun starting => ?_, rfl⟩,
    ⟨rfl, rfl, rfl, State.opening_of_afterFin⟩, fun limited => { limited with }, .of_same rfl⟩
  · rw [state]
    cases at_ : turn.tcb.state <;> simp_all [State.peerDone, State.afterFin]
  · rw [state]
    cases at_ : turn.tcb.state <;> simp_all [State.unsynchronised, State.afterFin]
  · rw [state] at starting
    cases at_ : turn.tcb.state <;> simp_all [State.starting, State.afterFin]

theorem still_sendSegment (retransmission : Bool) :
    Still Withheld 1 turn (turn.sendSegment retransmission).1 :=
  sendSegment_rec turn retransmission (.refl turn) (turn.still_sendData false)
    ((turn.still_sendData true).trans (still_sendFin _))

theorem still_sendSegments : Still Withheld 2 turn turn.sendSegments.1 := by
  have once := turn.still_sendSegment false
  rcases turn.sendSegments_fst with same | same
  · rw [same]
    exact once.weaken (by decide)
  · rw [same]
    exact once.trans (still_sendSegment _ false)

theorem still_sendWhatWeCan : Still Withheld 4 turn (turn.sendWhatWeCan now) := by
  by_cases may : turn.maySend
  · have probed := turn.still_sendSegments.trans (still_armProbeIfClosed _ now).withheld
    rw [sendWhatWeCan_of_may turn now may]
    split
    · exact probed.trans (still_coverSent _ now).withheld
    · exact probed.weaken (by decide)
  · rw [sendWhatWeCan_of_not turn now may]
    exact .refl turn

theorem still_wrote (bytes : Nat) :
    Still Withheld 4 turn ((turn.makeAvailable bytes).sendWhatWeCan now) := by
  have made : Still Withheld 0 turn (turn.makeAvailable bytes) := turn.still_move rfl
  exact made.trans (still_sendWhatWeCan _ now)

theorem still_reopenWindow (bytes : Nat) : Still Plain 2 turn (turn.reopenWindow bytes) := by
  have moved : Still Plain 0 turn (turn.setWindow (turn.tcb.rcv.reopened bytes)) :=
    ⟨⟨rfl, rfl, id, id, id, rfl⟩, ⟨rfl, rfl, rfl, id⟩,
      fun limited => { limited with window := turn.tcb.rcv.reopened_le bytes }, .of_same rfl⟩
  rw [reopenWindow]
  split
  · exact moved.trans (still_acknowledgeNow _)
  · exact moved.weaken (by decide)

theorem still_shutdown : Still Withheld 4 turn (turn.shutdown now) := by
  have queued : Still Withheld 0 turn turn.queueFin := turn.still_move rfl
  rw [shutdown]
  split
  case h_1 | h_2 | h_3 => exact queued.trans (still_sendWhatWeCan _ now)
  case h_4 | h_5 => exact (turn.still_close _).withheld.weaken (by decide)
  case h_6 => exact .refl turn

theorem still_resendSyn (acknowledgement : Option Sequence) :
    Still Plain 1 turn (turn.resendSyn acknowledgement) :=
  turn.still_emit (.of_emit rfl) rfl

theorem still_resendFin : Still Plain 1 turn turn.resendFin := by
  rw [resendFin]
  split
  · exact .refl turn
  split
  · exact turn.still_emit (.of_emit rfl) rfl
  · exact .refl turn

theorem still_resend : Still Withheld 2 turn turn.resend := by
  rw [resend]
  split
  · exact (turn.still_resendSyn _).withheld.weaken (by decide)
  · exact (turn.still_resendSyn _).withheld.weaken (by decide)
  · exact (turn.still_sendSegment true).trans (still_resendFin _).withheld

theorem still_retransmit : Still Withheld 3 turn (turn.retransmit now) := by
  rw [retransmit]
  split
  · exact .refl turn
  split
  · exact (turn.still_close _).withheld.weaken (by decide)
  rename_i patience
  have few : turn.tcb.retransmitLimit ≤ maxRetransmits := by
    rw [Tcb.retransmitLimit]
    split <;> decide
  have back : Still Withheld 0 turn turn.goBack := by
    refine ⟨⟨rfl, rfl, id, id, id, rfl⟩, ⟨rfl, rfl, rfl, id⟩, fun limited => ?_, .of_same rfl⟩
    have least := limited.least
    have doubled : minRtoUs ≤ min (saturate64 (turn.tcb.clock.rtoUs * 2)) maxRtoUs := by
      refine Nat.le_min.mpr ⟨Nat.le_min.mpr ⟨?_, by decide⟩, by decide⟩
      exact least.trans (Nat.le_mul_of_pos_right _ (by decide))
    exact ⟨limited.window, doubled, Nat.min_le_right _ _, by simp only [goBack]; omega⟩
  exact (back.trans turn.goBack.still_resend).trans (still_armRetransmit _ now).withheld

theorem still_probe : Still Withheld 3 turn (turn.probe now) := by
  rw [probe]
  split
  · exact .refl turn
  · refine .trans (.trans ?_ (still_armProbe _ now).withheld) (still_armRetransmit _ now).withheld
    exact turn.still_emit rfl rfl

theorem still_expired (timer : Timer) : Still Withheld 3 turn (turn.expired timer now) := by
  cases timer with
  | retransmit => exact turn.still_retransmit now
  | delayedAck =>
    rw [expired]
    split
    · exact turn.still_acknowledgeNow.withheld.weaken (by decide)
    · exact .refl turn
  | probe => exact turn.still_probe now
  | timeWait =>
    rw [expired]
    split
    · exact (turn.still_close _).withheld.weaken (by decide)
    · exact .refl turn

theorem carries_enterTimeWait : turn.tcb.Carries (turn.enterTimeWait now).tcb :=
  ⟨rfl, rfl, rfl, nofun⟩

theorem pushes_enterTimeWait : Pushes Plain 2 turn (turn.enterTimeWait now) :=
  .two rfl (plain_of_untold rfl rfl) (plain_of_untold rfl rfl)

theorem still_advanceAfterAck : Still Plain 2 turn (turn.advanceAfterAck now) := by
  rw [advanceAfterAck]
  split
  · split <;> rename_i state
    · exact ⟨⟨rfl, rfl, fun done => by simp [state, State.peerDone] at done,
        fun fresh => by simp [state, State.unsynchronised] at fresh, by simp [State.starting],
        rfl⟩, ⟨rfl, rfl, rfl, by simp [State.opening]⟩, fun limited => { limited with },
        .of_same rfl⟩
    · have waits : Still Plain 0 turn ⟨{ turn.tcb with state := .timeWait }, turn.actions⟩ :=
        ⟨⟨rfl, rfl, fun _ => rfl, fun fresh => by simp [state, State.unsynchronised] at fresh,
          by simp [State.starting], rfl⟩, ⟨rfl, rfl, rfl, by simp [State.opening]⟩,
          fun limited => { limited with }, .of_same rfl⟩
      exact (waits.trans (still_push _ rfl (plain_of_untold rfl rfl))).trans
        (still_push _ rfl (plain_of_untold rfl rfl))
    · exact (turn.still_close _).weaken (by decide)
    · exact .refl turn
  · exact .refl turn

theorem still_takeWindow (window : UInt16) : Still Plain 1 turn (turn.takeWindow window) := by
  have noted : Still Plain 0 turn (turn.noteWindow window) := turn.still_move rfl
  rw [takeWindow]
  split
  · exact noted.trans (still_push _ rfl (plain_of_untold rfl rfl))
  · exact noted.weaken (by decide)

theorem still_acknowledgeOrDelay : Still Plain 2 turn (turn.acknowledgeOrDelay now) := by
  have counted : Still Plain 0 turn turn.countSegment := turn.still_move rfl
  rw [acknowledgeOrDelay]
  split
  · exact counted.trans (still_acknowledgeNow _)
  · exact (counted.trans (still_push _ rfl (plain_of_untold rfl rfl))).weaken (by decide)

theorem still_closedArrival (segment : Segment) :
    Still Plain 1 turn (turn.closedArrival segment) := by
  rw [closedArrival]
  split
  · rename_i answer
    exact turn.still_push rfl (.of_emit (resetFor_bare answer).2.2)
  · exact .refl turn

theorem still_acknowledge : Still Bare 4 (turn.advanceUna ack) (turn.acknowledge ack now) := by
  have told : Still Bare 1 (turn.advanceUna ack)
      ((turn.advanceUna ack).tellAcknowledged (turn.tcb.snd.bytesFreed ack)) := by
    rw [tellAcknowledged]
    split
    · exact still_push _ rfl fun _ emits => by cases emits
    · exact .refl _
  have armed := (told.trans (still_finishTiming _ now ack)).trans (still_armRetransmit _ now).bare
  exact armed.trans (still_advanceAfterAck _ now).bare

theorem still_establish : Still Plain 1
    ⟨{ turn.tcb with state := .established, snd.una := ack }, turn.actions⟩
    (turn.establish ack now) :=
  (still_finishTiming _ now ack).trans (still_armRetransmit _ now)

end Turn

end Bhaskix.Net
