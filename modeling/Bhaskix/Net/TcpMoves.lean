import Bhaskix.Net.TcpPlaces

namespace Bhaskix.Net

open Library Serial
open Net.Action (Bare Withheld Plain)

namespace Places

/-- A step in which the program wrote and was told of so many bytes; `alone`: with the `SYN` nothing
else is acknowledged. -/
structure Moves (before after : Places) (written freed : Nat) (alone : Prop) : Prop where
  una : before.una ≤ after.una
  sent : after.una ≤ before.nxt
  avail : after.avail ≤ before.avail + written ∨ after.avail ≤ 1
  tally : 1 ≤ before.una → before.una + freed + after.covered = after.una + before.covered
  silent : before.una = 0 → freed = 0 ∧ after.covered = 0
  first : alone → before.una = 0 → after.una ≤ 1

variable {first before after : Places} {snd : Sender} {written freed : Nat} {alone : Prop}

theorem covered_of_start (start : before.una = 0) : before.covered = 0 := by
  rcases Option.eq_none_or_eq_some before.fin with none | ⟨fin, some_⟩
  · exact covered_of_none none
  · rw [covered_of_some some_, if_neg (by omega)]

variable (stands : snd.Stands before)
include stands

theorem Sends.covered (sends : Sends before after) : after.covered = before.covered := by
  rcases sends.fin with same | ⟨none, assigned⟩
  · rw [Places.covered, Places.covered, same, sends.una]
  have last := stands.nxt_le_of_none none
  have order := stands.order
  have una := sends.una
  rw [covered_of_none none, covered_of_some assigned, if_neg (by omega)]

theorem Moves.refl : Moves before before written 0 alone :=
  ⟨le_rfl, stands.order, .inl (Nat.le_add_right _ _), fun _ => rfl,
    fun start => ⟨rfl, covered_of_start start⟩, fun _ start => start.trans_le (Nat.zero_le _)⟩

theorem Moves.wrote :
    Moves before { before with avail := before.avail + written } written 0 alone :=
  ⟨le_rfl, stands.order, .inl le_rfl, fun _ => rfl, fun start => ⟨rfl, covered_of_start start⟩,
    fun _ start => start.trans_le (Nat.zero_le _)⟩

theorem Moves.sends (moves : Moves first before written freed alone)
    (sends : Sends before after) : Moves first after written freed alone := by
  have una := sends.una
  have covered := sends.covered stands
  refine ⟨by rw [una]; exact moves.una, by rw [una]; exact moves.sent,
    by rw [sends.avail]; exact moves.avail, ?_, ?_, by rw [una]; exact moves.first⟩
  · rw [covered, una]
    exact moves.tally
  · rw [covered]
    exact moves.silent

end Places

open Places (Moves)

/-- A connection in the middle of a step that started at other places, and what it has sent. -/
structure Turn.Advances (turn : Turn) (late : Bool) (start last : Places) (written : Nat)
    (alone probe : Prop) : Prop where
  placed : turn.tcb.Placed late last
  moves : start.Moves last written turn.actions.freed.sum alone
  emits : ∀ emit ∈ turn.actions.emits, 0 < emit.length → emit.Inside probe turn.tcb.snd last

namespace Turn.Advances

variable {start : Turn} {alone probe : Prop}

theorem of_sent (fresh : start.actions = .new) (bare : Pushes Bare count start before)
    (stands : before.tcb.snd.Stands middle)
    (moves : Moves places middle written before.actions.freed.sum alone)
    (sent : Sent probe before turn middle last) (placed : turn.tcb.Placed late last)
    (pushes : Pushes Withheld more before turn) :
    turn.Advances late places last written alone probe := by
  refine ⟨placed, ?_, fun emit member data => ?_⟩
  · rw [pushes.freed]
    exact moves.sends stands sent.sends
  rcases sent.emits emit member data with old | inside
  · have none := bare.mem_emits data old
    rw [fresh] at none
    exact absurd none List.not_mem_nil
  · exact inside

theorem of_plain (fresh : start.actions = .new) (plain : Pushes Plain count start turn)
    (placed : turn.tcb.Placed late last) (moves : Moves places last written 0 alone) :
    turn.Advances late places last written alone probe := by
  have silent : turn.actions.freed.sum = 0 := by
    rw [plain.withheld.freed, fresh]
    rfl
  refine of_sent fresh plain.bare placed.stands ?_ (.refl placed.stands) placed
    (.refl turn : Pushes _ 0 _ _)
  rw [silent]
  exact moves

end Turn.Advances

namespace Turn

variable {turn : Turn} {now : Nat} {late : Bool} {places : Places} {segment : Segment}
  {ack : Sequence}

section

variable (placed : turn.tcb.Placed late places) (newer : places.una < place)
  (sent : place ≤ places.nxt)
include placed newer sent

theorem placed_acknowledge (flowing : Flowing late turn.tcb.state turn.tcb.snd.finQueued places)
    (opened : turn.tcb.state ≠ .synReceived) :
    (turn.acknowledge (turn.tcb.snd.iss.after place) now).tcb.Placed late
      { places with una := place } := by
  have stands := placed.stands.acknowledge newer.le sent
  have later : 1 ≤ place := Nat.one_le_of_lt newer
  have acked := stands.finAcked_eq
  have snd : (turn.acknowledge (turn.tcb.snd.iss.after place) now).tcb.snd =
      { turn.tcb.snd with una := turn.tcb.snd.iss.after place } := by
    rw [acknowledge, advanceAfterAck_snd, freeAcknowledged_snd]
  refine ⟨by rw [snd]; exact stands, ?_⟩
  rw [snd, acknowledge]
  cases flowing with
  | synReceived state _ _ _ _ => exact absurd state opened
  | sending can _ none =>
    rw [advanceAfterAck_of_not _ now (by rw [freeAcknowledged_snd, acked, none]; rfl),
      freeAcknowledged_state]
    exact .flowing (.sending can later none)
  | @finishing ends _ fin some_ last =>
    cases covers : Sender.finAcked { turn.tcb.snd with una := turn.tcb.snd.iss.after place } with
    | false =>
      rw [advanceAfterAck_of_not _ now (by rw [freeAcknowledged_snd]; exact covers),
        freeAcknowledged_state]
      exact .flowing (.finishing ends later some_ last)
    | true =>
      rw [advanceAfterAck_state _ now (by rw [freeAcknowledged_snd]; exact covers),
        freeAcknowledged_state]
      have next (ends : turn.tcb.state.afterFinAcked.finished = true) :
          Phase late turn.tcb.state.afterFinAcked turn.tcb.snd.finQueued
            { places with una := place } :=
        .flowing (.finishing (.inr ends) later some_ last)
      cases state : turn.tcb.state with
      | finWait1 | closing | finWait2 | timeWait =>
        rw [state] at next
        exact next rfl
      | lastAck => exact .closed rfl placed.phase.last
      | _ => simp [state, State.finishing, State.finished] at ends

theorem placed_establish (received : turn.tcb.state = .synReceived) :
    (turn.establish (turn.tcb.snd.iss.after place) now).tcb.Placed late
      { places with una := place } := by
  have stands := placed.stands.acknowledge newer.le sent
  refine ⟨by rw [establish_snd]; exact stands, .flowing ?_⟩
  rw [establish_state]
  have flowing := placed.phase.flowing_of_may (.inr received)
  exact .sending rfl (Nat.one_le_of_lt newer) (flowing.of_received received).2

end

theorem placed_takeWindow (placed : turn.tcb.Placed late places) (window : UInt16) :
    (turn.takeWindow window).tcb.Placed late places := by
  rw [takeWindow_tcb]
  exact placed.setWindow window

theorem freed_takeWindow (window : UInt16) :
    (turn.takeWindow window).actions.freed = turn.actions.freed :=
  (turn.still_takeWindow window).pushes.withheld.freed

theorem placed_processAck (placed : turn.tcb.Placed late places)
    (flowing : Flowing late turn.tcb.state turn.tcb.snd.finQueued places) {alone : Prop}
    (only : alone → turn.tcb.state = .synReceived → ack.follows (turn.tcb.snd.iss.after 1) = false)
    (outcome : turn.processAck segment ack now = (acked, true)) :
    ∃ after freed, acked.tcb.Placed late after ∧
      acked.actions.freed.sum = turn.actions.freed.sum + freed ∧
      Moves places after 0 freed alone := by
  have stands := placed.stands
  have room := stands.room
  have last := stands.nxt_le
  cases processAck_outcome outcome with
  | established sent received newer =>
    have una := placed.phase.una_of_opening (by rw [received]; rfl)
    have start : turn.tcb.snd.una = turn.tcb.snd.iss := by
      rw [stands.una, una, after_zero]
    obtain ⟨place, rfl, past, within⟩ := stands.place_of_ack (start ▸ newer) sent
    refine ⟨_, 0, placed_takeWindow (placed_establish placed past within received) _, ?_, ?_⟩
    · rw [freed_takeWindow, (turn.still_establish now _).pushes.withheld.freed, Nat.add_zero]
    have covered : { places with una := place }.covered = 0 :=
      Places.covered_of_none (flowing.of_received received).2
    refine ⟨past.le, within, .inl (Nat.le_add_right _ _), fun some_ => by omega,
      fun _ => ⟨rfl, covered⟩, fun single _ => ?_⟩
    have short := only single received
    have order := @follows_after_iff turn.tcb.snd.iss place 1 (by omega) (by omega)
    exact Nat.le_of_not_lt fun beyond => by
      rw [order.mpr beyond] at short
      contradiction
  | acknowledged sent opened newer =>
    obtain ⟨place, rfl, past, within⟩ := stands.place_of_ack newer sent
    have counted := stands.bytesFreed_eq past within
    have started : 1 ≤ places.una := by
      cases flowing with
      | synReceived state _ _ _ _ => exact absurd state opened
      | sending _ una _ | finishing _ una _ _ => exact una
    refine ⟨_, turn.tcb.snd.bytesFreed (turn.tcb.snd.iss.after place),
      placed_takeWindow (placed_acknowledge placed past within flowing opened) _, ?_, ?_⟩
    · rw [freed_takeWindow, freed_acknowledge]
    · exact ⟨past.le, within, .inl (Nat.le_add_right _ _), fun _ => counted,
        fun none => by omega, fun _ none => by omega⟩
  | old sent opened older =>
    refine ⟨places, 0, placed_takeWindow placed _, ?_, .refl stands⟩
    rw [freed_takeWindow, Nat.add_zero]

theorem receive_state (turn : Turn) (segment : Segment) (now : Nat) :
    (turn.receive segment now).tcb.snd = turn.tcb.snd ∧
      ((turn.receive segment now).tcb.state = turn.tcb.state ∨
        (turn.receive segment now).tcb.state = turn.tcb.state.afterPeerFin) := by
  unfold receive
  dsimp only
  split
  · refine ⟨?_, .inr ?_⟩
    · rw [peerClosed_snd]
      exact deliver_snd turn segment
    · rw [peerClosed_state]
      exact congrArg State.afterPeerFin (deliver_state turn segment)
  · split
    · rw [acknowledgeOrDelay]
      split
      · exact ⟨deliver_snd turn segment, .inl (deliver_state turn segment)⟩
      · exact ⟨deliver_snd turn segment, .inl (deliver_state turn segment)⟩
    · exact ⟨deliver_snd turn segment, .inl (deliver_state turn segment)⟩

theorem placed_receive (placed : turn.tcb.Placed late places)
    (synchronised : turn.tcb.state.opening = false) :
    (turn.receive segment now).tcb.Placed late places := by
  obtain ⟨snd, same | closed⟩ := turn.receive_state segment now
  · exact placed.of_same same snd
  refine ⟨by rw [snd]; exact placed.stands, ?_⟩
  rw [snd, closed]
  cases placed.phase with
  | closed state last => exact .closed (by rw [state]; rfl) last
  | listen state _ _ _ _ | synSent state _ _ _ _ => simp [state, State.opening] at synchronised
  | flowing flowing =>
    refine .flowing ?_
    cases flowing with
    | synReceived state _ _ _ _ => simp [state, State.opening] at synchronised
    | sending can una none =>
      refine .sending ?_ una none
      cases state : turn.tcb.state <;> simp_all [State.canSend, State.afterPeerFin]
    | finishing ends una fin last =>
      refine .finishing ?_ una fin last
      cases state : turn.tcb.state <;>
        simp_all [State.finishing, State.finished, State.afterPeerFin]

variable {alone probe : Prop} (fresh : turn.actions = .new)
include fresh

section

variable (placed : turn.tcb.Placed late places)
include placed

theorem advances_synchronisedArrival
    (flowing : Flowing late turn.tcb.state turn.tcb.snd.finQueued places)
    (only : ∀ {ack}, alone → turn.tcb.state = .synReceived → segment.acknowledgement = some ack →
      ack.follows (turn.tcb.snd.iss.after 1) = false) :
    ∃ last, (turn.synchronisedArrival segment now).Advances late places last 0 alone probe := by
  generalize went : turn.synchronisedArrival segment now = result
  have still {result : Turn} {count : Nat} (plain : Pushes Plain count turn result)
      (placed : result.tcb.Placed late places) :
      ∃ last, result.Advances late places last 0 alone probe :=
    ⟨places, .of_plain fresh plain placed (.refl placed.stands)⟩
  have answered : ∃ last, turn.acknowledgeNow.Advances late places last 0 alone probe :=
    still turn.still_acknowledgeNow.pushes (placed.of_same rfl rfl)
  have dropped : ∃ last, turn.Advances late places last 0 alone probe :=
    still (.refl turn : Pushes _ 0 _ _) placed
  cases synchronisedArrival_outcome went with
  | duplicate _ _ _ => exact answered
  | dropped _ _ | silent _ _ _ => exact dropped
  | reset _ _ ended => exact still (turn.still_close ended).pushes placed.close
  | synAgain _ _ _ _ => exact still turn.still_abort.pushes (placed_abort placed)
  | @stopped ack acked _ _ _ outcome =>
    cases processAck_outcome outcome with
    | unsent _ => exact answered
    | synUnacknowledged _ _ _ => exact dropped
  | @taken ack acked _ _ _ acks outcome =>
    have synchronised := processAck_not_opening flowing.synReceived_of_opening outcome
    obtain ⟨middle, freed, taken, told, moves⟩ := placed_processAck placed flowing
      (fun single received => only single received acks) outcome
    have pushed := (@takes_processAck turn now segment ack True
      flowing.synReceived_of_opening).pushes
    rw [outcome] at pushed
    have received := @placed_receive acked now late middle segment taken synchronised
    have receives := (acked.passes_receive now segment).pushes
    obtain ⟨last, sent, placed'⟩ := @sent_sendWhatWeCan _ now late middle probe received
    refine ⟨last, .of_sent fresh (pushed.trans receives.bare) received.stands ?_ sent placed'
      (still_sendWhatWeCan _ now).pushes⟩
    rw [receives.withheld.freed, told, fresh]
    have none : Actions.new.freed.sum + freed = freed := Nat.zero_add freed
    rw [none]
    exact moves

theorem advances_listenArrival (listens : turn.tcb.state = .listen) :
    ∃ last, (turn.listenArrival segment now).Advances late places last 0 alone probe := by
  have plain := (turn.takes_listenArrival now segment listens).pushes
  generalize went : turn.listenArrival segment now = result at plain ⊢
  cases listenArrival_outcome went with
  | ignored => exact ⟨places, .of_plain fresh plain placed (.refl placed.stands)⟩
  | refused emit _ =>
    exact ⟨places, .of_plain fresh plain (placed.of_same rfl rfl) (.refl placed.stands)⟩
  | answered _ _ _ =>
    have una := placed.phase.una_of_opening (by rw [listens]; rfl)
    have stands := placed.stands
    obtain ⟨nxt, none, unqueued⟩ : places.nxt = 0 ∧ places.fin = none ∧
        turn.tcb.snd.finQueued = false := by
      cases placed.phase with
      | listen _ _ nxt none unqueued => exact ⟨nxt, none, unqueued⟩
      | closed state _ | synSent state _ _ _ _ => simp [listens] at state
      | flowing flowing =>
        have other := flowing.synReceived_of_opening (by rw [listens]; rfl)
        simp [listens] at other
    refine ⟨⟨0, 1, 1, Option.none⟩, .of_plain fresh plain ?_ ?_⟩
    · rw [armRetransmit_tcb]
      refine ⟨⟨?_, rfl, rfl, stands.fin_of_none none, Nat.zero_le _, .inl le_rfl, nofun, by simp⟩,
        .flowing (.synReceived rfl rfl le_rfl rfl unqueued)⟩
      rw [← una]
      exact stands.una
    · exact ⟨una.le, Nat.zero_le _, .inr le_rfl, fun some_ => by omega,
        fun _ => ⟨rfl, rfl⟩, fun _ _ => Nat.zero_le _⟩

theorem advances_synSentArrival (sent : turn.tcb.state = .synSent) :
    ∃ last, (turn.synSentArrival segment now).Advances late places last 0 alone probe := by
  generalize went : turn.synSentArrival segment now = result
  have una := placed.phase.una_of_opening (by rw [sent]; rfl)
  have stands := placed.stands
  obtain ⟨nxt, none, unqueued⟩ : places.nxt = 1 ∧ places.fin = none ∧
      turn.tcb.snd.finQueued = false := by
    cases placed.phase with
    | listen state _ _ _ _ | closed state _ => simp [sent] at state
    | synSent _ _ nxt none unqueued => exact ⟨nxt, none, unqueued⟩
    | flowing flowing =>
      have other := flowing.synReceived_of_opening (by rw [sent]; rfl)
      simp [sent] at other
  have start : turn.tcb.snd.una = turn.tcb.snd.iss := by
    rw [stands.una, una, after_zero]
  cases synSentArrival_outcome went with
  | stray _ _ =>
    exact ⟨places, .of_plain fresh (.one rfl (.of_emit rfl)) (placed.of_same rfl rfl)
      (.refl stands)⟩
  | ignored =>
    exact ⟨places, .of_plain fresh (.refl turn : Pushes _ 0 _ _) placed (.refl stands)⟩
  | refused _ =>
    exact ⟨places, .of_plain fresh (turn.still_close _).pushes placed.close (.refl stands)⟩
  | opened _ _ fits newer =>
    cases acks : segment.acknowledgement with
    | none =>
      rw [acks, start] at newer
      exact absurd newer (by simp [follows_self])
    | some ack =>
      obtain ⟨past, within⟩ := fits acks
      obtain ⟨place, rfl, less, most⟩ := stands.place_of_ack (start ▸ past) within
      have acked := stands.acknowledge less.le most
      let opened := ((((turn.synchronise segment).takeAck
        (some (turn.tcb.snd.iss.after place))).becomeEstablished
        now).acknowledgeNow).armRetransmit now
      have plain : Pushes Plain 3 turn opened :=
        (still_acknowledgeNow (((turn.synchronise segment).takeAck
          (some (turn.tcb.snd.iss.after place))).becomeEstablished now)).pushes.trans
          (still_armRetransmit _ now).pushes
      have placed' : opened.tcb.Placed late { places with una := place } := by
        rw [armRetransmit_tcb]
        exact ⟨{ acked with }, .flowing (.sending rfl (Nat.one_le_of_lt less) none)⟩
      have moves : Moves places { places with una := place } 0 0 alone :=
        ⟨less.le, most, .inl (Nat.le_add_right _ _), fun some_ => by omega,
          fun _ => ⟨rfl, Places.covered_of_none none⟩, fun _ _ => most.trans_eq nxt⟩
      obtain ⟨last, sent, placed''⟩ := @sent_sendWhatWeCan opened now late _ probe placed'
      refine ⟨last, .of_sent fresh plain.bare placed'.stands ?_ sent placed''
        (still_sendWhatWeCan _ now).pushes⟩
      rw [plain.withheld.freed, fresh]
      exact moves
  | crossed _ _ _ _ =>
    have last := stands.nxt_le_of_none none
    have answered := stands.sendSyn (by omega)
    have next : turn.tcb.snd.iss.after 1 = turn.tcb.snd.iss.after (places.una + 1) := by
      rw [una]
    have plain : Pushes Plain 2 turn
        (((turn.synchronise segment).takeAck Option.none).answerSyn.armRetransmit now) :=
      (@Pushes.one Plain turn _ _ rfl (.of_emit rfl)).trans (still_armRetransmit _ now).pushes
    refine ⟨{ places with nxt := places.una + 1 }, .of_plain fresh plain ?_
      ((Moves.refl stands).sends stands ⟨rfl, rfl, .inl rfl⟩)⟩
    rw [armRetransmit_tcb]
    exact ⟨⟨stands.una, next, stands.avail, stands.finSeq, answered.order, answered.sent,
      stands.fin, stands.room⟩, .flowing (.synReceived rfl una (by simp) none unqueued)⟩

theorem advances_arrived (only : ∀ {ack}, alone → turn.tcb.state = .synReceived →
    segment.acknowledgement = some ack →
      ack.follows (turn.tcb.snd.iss.after 1) = false) :
    ∃ last, (turn.arrived segment now).Advances late places last 0 alone probe := by
  rw [arrived]
  split
  · refine ⟨places, .of_plain fresh (turn.still_closedArrival segment).pushes ?_
      (.refl placed.stands)⟩
    rw [closedArrival]
    split
    · exact placed.of_same rfl rfl
    · exact placed
  · exact advances_listenArrival fresh placed ‹_›
  · exact advances_synSentArrival fresh placed ‹_›
  · exact advances_synchronisedArrival fresh placed (placed.phase.flowing_of ‹_› ‹_› ‹_›) only

end

end Turn

def Event.written : Event → Nat
  | .wrote bytes => bytes.toNat
  | _ => 0

/-- What is written and not acknowledged, with the `SYN` as long as that is not either. -/
def Sender.backlog (snd : Sender) : Nat :=
  if snd.avail.precedes snd.una then 0 else snd.una.gap snd.avail

/-- No `FIN` of an earlier connection is left, its own waits for the handshake, and less than half a
circle waits. -/
def Tcb.Prudent (tcb : Tcb) (late : Bool) : Event → Prop
  | .connect _ _ | .listen _ _ =>
    tcb.state = .closed → tcb.snd.finSeq = none ∧ tcb.snd.finQueued = false
  | .wrote bytes =>
    tcb.snd.backlog + bytes.toNat < 2 ^ 31 - 1 ∧
      ∀ fin, tcb.snd.finSeq = some fin →
        late = true ∧ fin.gap tcb.snd.avail + bytes.toNat < 2 ^ 31 - 1
  | .shutdown => tcb.state ≠ .synReceived
  | _ => True

/-- A segment that completes the handshake acknowledges the `SYN` and nothing else. -/
def Tcb.Alone (tcb : Tcb) : Event → Prop
  | .arrived segment => tcb.state = .synReceived → ∀ ack, segment.acknowledgement = some ack →
      ack.follows (tcb.snd.iss.after 1) = false
  | _ => True

namespace Tcb.Placed

variable {tcb : Tcb} {late : Bool} {places : Places} {now : Nat}

theorem write (placed : tcb.Placed late places)
    (prudent : tcb.Prudent late (.wrote bytes)) :
    { tcb with snd.avail := tcb.snd.avail.after bytes.toNat }.Placed late
      { places with avail := places.avail + bytes.toNat } := by
  obtain ⟨few, after⟩ := prudent
  have stands := placed.stands
  have room := stands.room
  have order := stands.order
  have last := stands.nxt_le
  have behind := @precedes_after_iff tcb.snd.iss places.avail places.una (by omega)
    (by omega)
  have waits : tcb.snd.backlog = places.avail - places.una := by
    rw [Sender.backlog, stands.avail, stands.una]
    split
    · rename_i less
      rw [behind] at less
      omega
    · rename_i least
      rw [behind] at least
      exact gap_after_after (by omega) (by omega)
  have late_ (fin : Nat) (some_ : places.fin = some fin) :
      late = true ∧ places.avail + bytes.toNat + 1 < fin + 2 ^ 31 := by
    obtain ⟨least, most⟩ := stands.fin fin some_
    obtain ⟨may, few⟩ := after _ (stands.fin_of_some some_)
    rw [stands.avail, gap_after_after least (by omega)] at few
    exact ⟨may, by omega⟩
  refine ⟨stands.write (by omega) fun fin some_ => (late_ fin some_).2, ?_⟩
  cases placed.phase with
  | closed state _ =>
    refine .closed state fun early fin some_ => ?_
    rw [(late_ fin some_).1] at early
    contradiction
  | listen state una nxt none unqueued => exact .listen state una nxt none unqueued
  | synSent state una nxt none unqueued => exact .synSent state una nxt none unqueued
  | flowing flowing =>
    refine .flowing ?_
    cases flowing with
    | synReceived state una sent none unqueued =>
      exact .synReceived state una sent none unqueued
    | sending can una none => exact .sending can una none
    | finishing ends una some_ _ =>
      refine .finishing ends una some_ fun early => ?_
      rw [(late_ _ some_).1] at early
      contradiction

theorem opens (_ : tcb.Placed late places) {event : Event} (opens : tcb.opens event = true)
    (prudent : tcb.Prudent late event) :
    ∃ after, (step tcb event now).tcb.Placed late after ∧ after.una = 0 ∧ after.avail ≤ 1 ∧
      (step tcb event now).actions.freed = [] := by
  cases event with
  | connect iss window =>
    have closed : tcb.state = .closed := of_decide_eq_true opens
    obtain ⟨none, unqueued⟩ := prudent closed
    have stays := (Turn.takes_openWith ⟨tcb, .new⟩ now iss window false).pushes.withheld.freed
    refine ⟨⟨0, 1, 1, Option.none⟩, ?_, rfl, le_rfl, stays⟩
    rw [step, Turn.openWith, if_neg (not_not.mpr closed), if_neg Bool.false_ne_true,
      Turn.armRetransmit_tcb]
    exact ⟨⟨(after_zero iss).symm, rfl, rfl, none, Nat.zero_le _, .inl le_rfl, by simp,
      by simp⟩, .synSent rfl rfl rfl rfl unqueued⟩
  | listen iss window =>
    have closed : tcb.state = .closed := of_decide_eq_true opens
    obtain ⟨none, unqueued⟩ := prudent closed
    have stays := (Turn.takes_openWith ⟨tcb, .new⟩ now iss window true).pushes.withheld.freed
    refine ⟨⟨0, 0, 0, Option.none⟩, ?_, rfl, Nat.zero_le _, stays⟩
    rw [step, Turn.openWith, if_neg (not_not.mpr closed), if_pos rfl]
    have start := (after_zero iss).symm
    exact ⟨⟨start, start, start, none, le_rfl, .inl le_rfl, by simp, by simp⟩,
      .listen rfl rfl rfl rfl unqueued⟩
  | wrote _ | read _ | shutdown | abort | arrived _ | expired _ => contradiction

theorem step (placed : tcb.Placed late places) {event : Event} (stays : tcb.opens event = false)
    (prudent : tcb.Prudent late event) :
    ∃ last, (step tcb event now).Advances late places last event.written (tcb.Alone event)
      (event = .expired .probe) := by
  let start : Turn := ⟨tcb, .new⟩
  have fresh : start.actions = .new := rfl
  have still {turn : Turn} {count : Nat} {alone probe : Prop}
      (plain : Turn.Pushes Plain count start turn) (placed : turn.tcb.Placed late places) :
      ∃ last, turn.Advances late places last 0 alone probe :=
    ⟨places, .of_plain fresh plain placed (.refl placed.stands)⟩
  have sends {turn : Turn} {count : Nat} {alone probe : Prop}
      (sent : ∃ last, Turn.Sent probe start turn places last ∧ turn.tcb.Placed late last)
      (pushes : Turn.Pushes Withheld count start turn) :
      ∃ last, turn.Advances late places last 0 alone probe := by
    obtain ⟨last, sent, placed'⟩ := sent
    exact ⟨last, .of_sent fresh (.refl start : Turn.Pushes _ 0 _ _) placed.stands
      (.refl placed.stands) sent placed' pushes⟩
  cases event with
  | connect iss window | listen iss window =>
    have open_ : tcb.state ≠ .closed := of_decide_eq_false stays
    rw [Net.step, Turn.openWith, if_pos open_]
    exact still (.refl start : Turn.Pushes _ 0 _ _) placed
  | wrote bytes =>
    have available : (start.makeAvailable bytes.toNat).tcb.Placed late
        { places with avail := places.avail + bytes.toNat } :=
      placed.write prudent
    have made : Turn.Pushes Bare 0 start (start.makeAvailable bytes.toNat) := .of_same rfl
    obtain ⟨last, sent, placed'⟩ := @Turn.sent_sendWhatWeCan _ now late _
      (Event.wrote bytes = .expired .probe) available
    exact ⟨last, .of_sent fresh made available.stands (Moves.wrote placed.stands) sent placed'
      (Turn.still_sendWhatWeCan _ now).pushes⟩
  | read bytes =>
    exact still (start.still_reopenWindow bytes.toNat).pushes
      (@Turn.placed_reopenWindow start late places placed bytes.toNat)
  | shutdown =>
    exact sends (@Turn.sent_shutdown start now late places _ placed prudent)
      (start.still_shutdown now).pushes
  | abort => exact still start.still_abort.pushes (@Turn.placed_abort start late places placed)
  | arrived segment =>
    exact @Turn.advances_arrived start now late places segment _ _ fresh placed
      fun alone received acks => alone received _ acks
  | expired timer =>
    obtain ⟨last, sent, placed'⟩ := @Turn.sent_expired start now late places placed timer
    have named : (timer = .probe) = (Event.expired timer = .expired .probe) := by simp
    exact sends ⟨last, named ▸ sent, placed'⟩ (start.still_expired now timer).pushes

end Tcb.Placed

end Bhaskix.Net
