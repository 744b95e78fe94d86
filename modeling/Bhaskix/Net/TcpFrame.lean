import Bhaskix.Net.TcpStill

namespace Bhaskix.Net

variable {state : State}

def State.finishing : State → Bool
  | .finWait1 | .closing | .lastAck => true
  | _ => false

def State.finished : State → Bool
  | .finWait2 | .timeWait => true
  | _ => false

theorem State.finishing_afterFin
    (may : state.canSend = true ∨ state = .synReceived) : state.afterFin.finishing = true := by
  cases state <;> simp_all [State.canSend, State.afterFin, State.finishing]

theorem State.synReceived_of_opening (notListen : state ≠ .listen)
    (notSynSent : state ≠ .synSent) (opening : state.opening = true) : state = .synReceived := by
  cases state with
  | listen | synSent => contradiction
  | synReceived => rfl
  | _ => contradiction

theorem Receiver.wnd_sub_le {rcv : Receiver} (window : rcv.wnd ≤ rcv.capacity)
    (fits : count ≤ rcv.wnd.toNat) : rcv.wnd - UInt16.ofNat count ≤ rcv.capacity := by
  have small : rcv.wnd.toNat < 2 ^ 16 := rcv.wnd.toNat_lt
  have number : (UInt16.ofNat count).toNat = count := by
    rw [UInt16.toNat_ofNat']
    exact Nat.mod_eq_of_lt (by omega)
  have within : UInt16.ofNat count ≤ rcv.wnd := by
    rw [UInt16.le_iff_toNat_le, number]
    exact fits
  rw [UInt16.le_iff_toNat_le] at window ⊢
  rw [UInt16.toNat_sub_of_le _ _ within]
  exact (Nat.sub_le _ _).trans window

namespace Tcb

def SynOwed (tcb : Tcb) : Prop :=
  tcb.state.opening = true → tcb.snd.una = tcb.snd.iss

theorem Carries.synOwed (carries : Carries before after)
    (owed : before.SynOwed) : after.SynOwed := by
  intro opening
  rw [carries.una, carries.iss]
  exact owed (carries.opening opening)

theorem SynOwed.of_not_opening {tcb : Tcb} (open_ : tcb.state.opening = false) : tcb.SynOwed := by
  intro opening
  rw [open_] at opening
  contradiction

end Tcb

namespace Turn

open Tcb Pushes
open Net.Action (Plain Withheld Bare Any)

/-- As `Still`, but the peer's data may be taken. -/
structure Passes (kind : Action → Prop) (count : Nat) (before after : Turn) : Prop where
  carries : before.tcb.Carries after.tcb
  limited : before.tcb.Limited → after.tcb.Limited
  pushes : Pushes kind count before after

/-- What a step may change: the initial number only if it does not stay in its connection, and the
segment size only to one to send by, if one is announced. -/
structure Takes (stays announced : Prop) (kind : Action → Prop) (count : Nat)
    (before after : Turn) : Prop where
  iss : stays → after.tcb.snd.iss = before.tcb.snd.iss
  mss : announced → 0 < before.tcb.snd.mss → 0 < after.tcb.snd.mss
  synOwed : before.tcb.SynOwed → after.tcb.SynOwed
  limited : before.tcb.Limited → after.tcb.Limited
  pushes : Pushes kind count before after

section

variable {stays announced : Prop} {kind : Action → Prop} {count : Nat} {before after : Turn}

theorem Still.passes (still : Still kind count before after) : Passes kind count before after :=
  ⟨still.carries, still.limited, still.pushes⟩

theorem Passes.trans (first : Passes kind count before after)
    (second : Passes kind more after last) :
    Passes kind (count + more) before last :=
  ⟨first.carries.trans second.carries, second.limited ∘ first.limited,
    first.pushes.trans second.pushes⟩

theorem Passes.takes (passes : Passes kind count before after) :
    Takes stays announced kind count before after :=
  ⟨fun _ => passes.carries.iss, fun _ positive => passes.carries.mss ▸ positive,
    passes.carries.synOwed,
    passes.limited, passes.pushes⟩

theorem Takes.trans (first : Takes stays announced kind count before after)
    (second : Takes stays announced kind more after last) :
    Takes stays announced kind (count + more) before last :=
  ⟨fun open_ => (second.iss open_).trans (first.iss open_),
    fun told => second.mss told ∘ first.mss told,
    second.synOwed ∘ first.synOwed, second.limited ∘ first.limited,
    first.pushes.trans second.pushes⟩

theorem Takes.any (takes : Takes stays announced kind count before after) (fewer : count ≤ more)
    (tells : told → announced) : Takes stays told Any more before after :=
  ⟨takes.iss, takes.mss ∘ tells, takes.synOwed, takes.limited, takes.pushes.any.weaken fewer⟩

end

variable (turn : Turn) (now : Nat)

theorem takes_openWith (iss : Sequence) (window : UInt16) (passive : Bool) :
    Takes (turn.tcb.state ≠ .closed) True Plain 2 turn
      (turn.openWith iss window passive now) := by
  rw [openWith]
  split
  · exact (Still.refl _).passes.takes
  next closed =>
  split
  · exact ⟨(absurd · closed), fun _ => id, fun _ _ => rfl,
      fun limited => { limited with window := UInt16.le_refl _ }, of_same rfl⟩
  refine .trans (?_ : Takes _ _ Plain 1 turn _) (still_armRetransmit _ now).passes.takes
  exact ⟨(absurd · closed), fun _ => id, fun _ _ => rfl,
    fun limited => { limited with window := UInt16.le_refl _ }, one rfl (.of_emit rfl)⟩

variable (segment : Segment) (ack : Sequence)

theorem passes_deliver : Passes Plain 1 turn (turn.deliver segment).1 := by
  rw [deliver]
  split
  · exact (Still.refl _).passes
  split
  · exact (Still.refl _).passes
  split
  · exact (Still.refl _).passes
  · refine ⟨⟨rfl, rfl, rfl, id⟩, fun limited => { limited with window := ?_ },
      one rfl (plain_of_untold rfl rfl)⟩
    exact Receiver.wnd_sub_le limited.window (Nat.min_le_right _ _)

theorem passes_peerClosed : Passes Plain 4 turn (turn.peerClosed now) := by
  have acked := turn.still_acknowledgeNow
  rw [peerClosed]
  split
  case h_1 | h_2 | h_3 =>
    exact ⟨⟨rfl, rfl, rfl, by simp [State.opening]⟩, fun limited => { limited with },
      acked.pushes.weaken (by decide)⟩
  case h_4 =>
    exact ⟨acked.carries.trans (carries_enterTimeWait _ now), fun limited => { limited with },
      acked.pushes.trans (pushes_enterTimeWait _ now)⟩
  case h_5 => exact (acked.weaken (by decide)).passes

theorem passes_receive : Passes Plain 5 turn (turn.receive segment now) := by
  have taken := turn.passes_deliver segment
  unfold receive
  dsimp only
  split
  · have fin : Passes Plain 0 (turn.deliver segment).1 (turn.deliver segment).1.takeFin :=
      ⟨⟨rfl, rfl, rfl, id⟩, fun limited => { limited with }, of_same rfl⟩
    exact (taken.trans fin).trans (passes_peerClosed _ now)
  · split
    · exact taken.trans ((still_acknowledgeOrDelay _ now).weaken (by decide : 2 ≤ 4)).passes
    · exact { taken with pushes := taken.pushes.weaken (by decide) }

theorem announcedMss_pos {turn : Turn} {segment : Segment} (announced : segment.mss ≠ some 0)
    (positive : 0 < turn.tcb.snd.mss) :
    0 < turn.announcedMss segment := by
  rw [announcedMss]
  split
  · rename_i mss given
    rw [given] at announced
    have some_ : mss ≠ 0 := fun none => announced (congrArg some none)
    rcases Std.min_eq_or (a := mss) (b := defaultMss) with same | same
    · rw [same]
      exact UInt16.pos_iff_ne_zero.mpr some_
    · rw [same]
      decide
  · exact positive

theorem takes_listenArrival (listens : turn.tcb.state = .listen) :
    Takes True (segment.mss ≠ some 0) Plain 2 turn (turn.listenArrival segment now) := by
  generalize went : turn.listenArrival segment now = result
  cases listenArrival_outcome went with
  | ignored => exact (Still.refl _).passes.takes
  | refused emit answer =>
    exact ⟨fun _ => rfl, fun _ => id, id, id,
      (one rfl (.of_emit (resetFor_bare answer).2.2)).weaken (by decide)⟩
  | answered _ _ _ =>
    refine .trans (?_ : Takes _ _ Plain 1 turn _) (still_armRetransmit _ now).passes.takes
    exact ⟨fun _ => rfl, announcedMss_pos, fun owed _ => owed (by rw [listens]; rfl),
      fun limited => { limited with }, one rfl (.of_emit rfl)⟩

theorem takes_synSentArrival (sent : turn.tcb.state = .synSent) :
    Takes True (segment.mss ≠ some 0) Withheld 7 turn (turn.synSentArrival segment now) := by
  generalize went : turn.synSentArrival segment now = result
  cases synSentArrival_outcome went with
  | stray _ _ =>
    refine ⟨fun _ => rfl, fun _ => id, id, id, weaken (?_ : Pushes _ 1 _ _) (by decide)⟩
    exact one rfl rfl
  | ignored => exact (Still.refl _).passes.takes
  | refused _ => exact ((turn.still_close _).withheld.weaken (by decide)).passes.takes
  | opened _ _ _ _ =>
    have noted : Takes True (segment.mss ≠ some 0) Withheld 0 turn
        ⟨{ ((turn.synchronise segment).takeAck segment.acknowledgement).tcb with
          state := .established }, turn.actions⟩ :=
      ⟨fun _ => rfl, announcedMss_pos, fun _ => .of_not_opening rfl,
        fun limited => { limited with },
        of_same rfl⟩
    have opened := noted.trans (still_finishTiming _ now
      (segment.acknowledgement.getD turn.tcb.snd.una)).passes.takes
    have answered := (still_acknowledgeNow
      (((turn.synchronise segment).takeAck segment.acknowledgement).becomeEstablished now)).trans
      (still_armRetransmit _ now)
    exact opened.trans (answered.withheld.trans (still_sendWhatWeCan _ now)).passes.takes
  | crossed _ _ _ _ =>
    refine .trans (?_ : Takes _ _ Withheld 1 turn _)
      ((still_armRetransmit _ now).withheld.weaken (by decide : 1 ≤ 6)).passes.takes
    exact ⟨fun _ => rfl, announcedMss_pos, fun owed _ => owed (by rw [sent]; rfl),
      fun limited => { limited with }, withheld (one rfl (.of_emit rfl))⟩

theorem freed_tellAcknowledged (bytes : Nat) :
    (turn.tellAcknowledged bytes).actions.freed.sum = turn.actions.freed.sum + bytes := by
  rw [tellAcknowledged]
  split
  · have pushed : (turn.push (.acknowledged bytes)).actions.freed = turn.actions.freed ++ [bytes] :=
      Actions.freed_push ..
    rw [pushed, List.sum_append, List.sum_singleton]
  · omega

theorem freed_acknowledge : (turn.acknowledge ack now).actions.freed.sum =
      turn.actions.freed.sum + turn.tcb.snd.bytesFreed ack := by
  have told := freed_tellAcknowledged (turn.advanceUna ack) (turn.tcb.snd.bytesFreed ack)
  have armed := (still_armRetransmit (((turn.advanceUna ack).tellAcknowledged
    (turn.tcb.snd.bytesFreed ack)).finishTiming ack now) now).pushes.withheld.freed
  have advanced := (still_advanceAfterAck (turn.freeAcknowledged ack now) now).pushes.withheld.freed
  rw [acknowledge, advanced, freeAcknowledged, armed]
  exact told

theorem takes_processAck {announced : Prop}
    (synchronised : turn.tcb.state.opening = true → turn.tcb.state = .synReceived) :
    Takes True announced Bare 5 turn (turn.processAck segment ack now).1 := by
  generalize went : turn.processAck segment ack now = result
  cases processAck_outcome went with
  | unsent _ => exact (turn.still_acknowledgeNow.bare.weaken (by decide)).passes.takes
  | synUnacknowledged _ _ _ => exact (Still.refl _).passes.takes
  | established _ _ _ =>
    have opened : Takes True announced Bare 0 turn
        ⟨{ turn.tcb with state := .established, snd.una := ack }, turn.actions⟩ :=
      ⟨fun _ => rfl, fun _ => id, fun _ => .of_not_opening rfl, fun limited => { limited with },
        of_same rfl⟩
    exact opened.trans (((turn.still_establish now ack).trans
      (still_takeWindow _ segment.window)).bare.weaken (by decide : 2 ≤ 5)).passes.takes
  | acknowledged _ open_ _ =>
    have moved : Takes True announced Bare 0 turn (turn.advanceUna ack) :=
      ⟨fun _ => rfl, fun _ => id, fun _ opening => absurd (synchronised opening) open_,
        fun limited => { limited with retransmits := Nat.zero_le _ }, of_same rfl⟩
    exact moved.trans ((turn.still_acknowledge now ack).trans
      (still_takeWindow _ segment.window).bare).passes.takes
  | old _ _ _ => exact ((turn.still_takeWindow segment.window).bare.weaken (by decide)).passes.takes

theorem takes_synchronisedArrival {announced : Prop}
    (synchronised : turn.tcb.state.opening = true → turn.tcb.state = .synReceived) :
    Takes True announced Any 14 turn (turn.synchronisedArrival segment now) := by
  generalize went : turn.synchronisedArrival segment now = result
  cases synchronisedArrival_outcome went with
  | duplicate _ _ _ => exact turn.still_acknowledgeNow.passes.takes.any (by decide) id
  | dropped _ _ | silent _ _ _ => exact (Still.refl _).passes.takes
  | reset _ _ ended => exact (turn.still_close ended).passes.takes.any (by decide) id
  | synAgain _ _ _ _ => exact turn.still_abort.passes.takes.any (by decide) id
  | @stopped ack acked _ _ _ outcome =>
    have acks := @takes_processAck turn now segment ack announced synchronised
    rw [outcome] at acks
    exact acks.any (by decide) id
  | @taken ack acked _ _ _ _ outcome =>
    have acks := @takes_processAck turn now segment ack announced synchronised
    rw [outcome] at acks
    exact ((acks.any le_rfl id).trans
      ((acked.passes_receive now segment).takes.any le_rfl id)).trans
      ((still_sendWhatWeCan _ now).passes.takes.any le_rfl id)

theorem takes_arrived : Takes True (turn.tcb.state ∈ [.listen, .synSent] → segment.mss ≠ some 0)
    Any 14 turn (turn.arrived segment now) := by
  rw [arrived]
  split
  · exact (turn.still_closedArrival segment).passes.takes.any (by decide) id
  · next listens =>
    exact (turn.takes_listenArrival now segment listens).any (by decide) fun told =>
      told (by simp [listens])
  · next sent =>
    exact (turn.takes_synSentArrival now segment sent).any (by decide) fun told =>
      told (by simp [sent])
  · next notListen notSynSent =>
    exact turn.takes_synchronisedArrival now segment
      (State.synReceived_of_opening notListen notSynSent)

theorem processAck_not_opening {turn : Turn} {segment : Segment} {now : Nat} {ack : Sequence}
    {acked : Turn} (synchronised : turn.tcb.state.opening = true → turn.tcb.state = .synReceived)
    (outcome : turn.processAck segment ack now = (acked, true)) :
    acked.tcb.state.opening = false := by
  rw [Bool.eq_false_iff]
  intro opening
  cases processAck_outcome outcome with
  | established _ _ _ =>
    have before := (turn.still_establish now ack).carries.opening
      ((still_takeWindow _ segment.window).carries.opening opening)
    contradiction
  | acknowledged _ open_ _ =>
    have before := (turn.still_acknowledge now ack).carries.opening
      ((still_takeWindow _ segment.window).carries.opening opening)
    exact open_ (synchronised before)
  | old _ open_ _ =>
    exact open_ (synchronised ((turn.still_takeWindow segment.window).carries.opening opening))

end Turn

def Tcb.opens (tcb : Tcb) : Event → Bool
  | .connect _ _ | .listen _ _ => decide (tcb.state = .closed)
  | _ => false

open Turn in
theorem takes_step (tcb : Tcb) (event : Event) (now : Nat) :
    Takes (tcb.opens event = false) (∀ segment, event = .arrived segment →
        tcb.state ∈ [.listen, .synSent] → segment.mss ≠ some 0)
      Action.Any maxActions ⟨tcb, .new⟩ (step tcb event now) := by
  have opened {stays announced : Prop} (iss : Sequence) (window : UInt16) (passive : Bool)
      (open_ : stays → tcb.state ≠ .closed) :
      Takes stays announced Action.Any maxActions ⟨tcb, .new⟩
        (openWith ⟨tcb, .new⟩ iss window passive now) := by
    have takes := takes_openWith ⟨tcb, .new⟩ now iss window passive
    exact { takes.any (by decide) fun _ => trivial with iss := takes.iss ∘ open_ }
  cases event with
  | connect iss window => exact opened iss window false of_decide_eq_false
  | listen iss window => exact opened iss window true of_decide_eq_false
  | wrote bytes => exact (still_wrote _ now bytes.toNat).passes.takes.any (by decide) id
  | read bytes => exact (still_reopenWindow _ bytes.toNat).passes.takes.any (by decide) id
  | shutdown => exact (still_shutdown _ now).passes.takes.any (by decide) id
  | abort => exact (still_abort _).passes.takes.any (by decide) id
  | arrived segment =>
    have takes := takes_arrived ⟨tcb, .new⟩ now segment
    exact { takes.any (by decide) fun announced => announced segment rfl with
      iss := fun _ => takes.iss trivial }
  | expired timer => exact (still_expired _ now timer).passes.takes.any (by decide) id

theorem length_step (tcb : Tcb) (event : Event) (now : Nat) :
    (step tcb event now).actions.items.length ≤ maxActions :=
  (takes_step tcb event now).pushes.length_le.trans_eq (Nat.zero_add _)

end Bhaskix.Net
