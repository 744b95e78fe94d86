import Bhaskix.Net.TcpFrame

namespace Bhaskix.Net

open Library

namespace Turn

theorem Quiet.processAck (turn : Turn) (now : Nat) (segment : Segment) (ack : Sequence) :
    Quiet turn (turn.processAck segment ack now).1 := by
  generalize went : turn.processAck segment ack now = result
  cases processAck_outcome went with
  | unsent _ => exact turn.still_acknowledgeNow.quiet
  | synUnacknowledged _ _ _ => exact .refl turn
  | established _ received _ =>
    have opened : Quiet turn ⟨{ turn.tcb with state := .established, snd.una := ack },
      turn.actions⟩ :=
      ⟨rfl, rfl, fun done => by simp [received, State.peerDone] at done,
        fun fresh => by simp [received, State.unsynchronised] at fresh, nofun, rfl⟩
    exact opened.trans ((turn.still_establish now ack).trans (still_takeWindow _ _)).quiet
  | acknowledged _ _ _ =>
    have moved : Quiet turn (turn.advanceUna ack) := ⟨rfl, rfl, id, id, id, rfl⟩
    exact moved.trans ((turn.still_acknowledge now ack).quiet.trans (still_takeWindow _ _).quiet)
  | old _ _ _ => exact (turn.still_takeWindow _).quiet

theorem taken_peerClosed (turn : Turn) (now : Nat) :
    (turn.peerClosed now).actions.taken = turn.actions.taken := by
  have acked := turn.still_acknowledgeNow.quiet.taken
  rw [Turn.peerClosed]
  split
  · exact acked
  · exact acked
  · exact acked
  · exact (((Quiet.push ⟨_, turn.acknowledgeNow.actions⟩ rfl).trans (Quiet.push _ rfl)).taken).trans
      acked
  · exact acked

theorem openWith_unsynchronised (turn : Turn) (now : Nat) (iss : Sequence) (window : UInt16)
    (passive : Bool) (fresh : turn.tcb.state.unsynchronised = true) :
    (turn.openWith iss window passive now).tcb.state.unsynchronised = true ∧
      (turn.openWith iss window passive now).tcb.rcv.finReceived = turn.tcb.rcv.finReceived ∧
      (turn.openWith iss window passive now).actions.taken = turn.actions.taken := by
  rw [openWith]
  split
  · exact ⟨fresh, rfl, rfl⟩
  split
  · exact ⟨rfl, rfl, rfl⟩
  have sent : (turn.startFrom iss window).sendSyn.actions.taken = turn.actions.taken :=
    (Quiet.push (turn.startFrom iss window) rfl).taken
  have armed := (still_armRetransmit
    (((turn.startFrom iss window).sendSyn).startTiming now) now).quiet
  exact ⟨armed.fresh rfl, armed.fin, armed.taken.trans sent⟩

end Turn

structure Segment.Truthful (segment : Segment) (iss : Sequence) (written : List UInt8)
    (shut : Option Nat) : Prop where
  syn : segment.flags.syn = true → segment.sequence = iss
  data : segment.payload ≠ [] → 0 < iss.gap segment.sequence →
    segment.payload <+: written.drop (iss.gap segment.sequence - 1)
  fin : segment.flags.fin = true →
    iss.gap segment.sequence + segment.payload.length ≤ written.length + 1 ∧
    ∃ count, shut = some count ∧
      count + 1 ≤ iss.gap segment.sequence + segment.payload.length

/-- What has been taken of the peer's stream, up to its end if that has been seen. -/
structure Synchronised (tcb : Tcb) (delivered : List UInt8) (iss : Sequence) (written : List UInt8)
    (shut : Option Nat) : Prop where
  live : tcb.state.starting = false
  stream : delivered <+: written
  nxt : iss.gap tcb.rcv.nxt = 1 + delivered.length + tcb.rcv.finReceived.toNat
  fin : tcb.rcv.finReceived = true → tcb.state.peerDone = true ∧
    ∃ count, shut = some count ∧ count ≤ delivered.length

inductive Receiving (tcb : Tcb) (delivered : List UInt8) (iss : Sequence) (written : List UInt8)
    (shut : Option Nat) : Prop
  | fresh (unsynchronised : tcb.state.unsynchronised = true) (none : delivered = [])
      (fin : tcb.rcv.finReceived = false)
  | synchronised (synchronised : Synchronised tcb delivered iss written shut)

namespace Turn

def handed (turn : Turn) (payload : List UInt8) : List UInt8 :=
  turn.actions.taken.flatMap fun count => payload.take count

variable {turn after : Turn} {payload delivered written : List UInt8} {iss : Sequence}
  {shut : Option Nat}

theorem Quiet.handed (quiet : Quiet turn after) (payload : List UInt8) :
    after.handed payload = turn.handed payload := by
  rw [Turn.handed, Turn.handed, quiet.taken]

theorem Quiet.synchronised (quiet : Quiet turn after)
    (synchronised : Synchronised turn.tcb (delivered ++ turn.handed payload) iss written shut) :
    Synchronised after.tcb (delivered ++ after.handed payload) iss written shut := by
  rw [quiet.handed]
  refine ⟨Bool.eq_false_iff.mpr fun starting => ?_, synchronised.stream, ?_, fun fin => ?_⟩
  · exact absurd (synchronised.live.symm.trans (quiet.starting starting)) nofun
  · rw [quiet.nxt, quiet.fin]
    exact synchronised.nxt
  · rw [quiet.fin] at fin
    exact ⟨quiet.done (synchronised.fin fin).1, (synchronised.fin fin).2⟩

theorem Quiet.receiving (quiet : Quiet turn after)
    (receiving : Receiving turn.tcb (delivered ++ turn.handed payload) iss written shut) :
    Receiving after.tcb (delivered ++ after.handed payload) iss written shut := by
  cases receiving with
  | fresh unsynchronised none fin =>
    exact .fresh (quiet.fresh unsynchronised) (quiet.handed payload ▸ none) (quiet.fin.trans fin)
  | synchronised synchronised => exact .synchronised (quiet.synchronised synchronised)

variable {segment : Segment} {now : Nat}

theorem stream_take {tcb : Tcb} {bytes : List UInt8} {count : Nat}
    (synchronised : Synchronised tcb bytes iss written shut)
    (truthful : segment.Truthful iss written shut) (open_ : tcb.rcv.finReceived = false)
    (some_ : segment.payload ≠ []) (expected : segment.sequence = tcb.rcv.nxt) :
    bytes ++ segment.payload.take count <+: written := by
  have nxt := synchronised.nxt
  rw [open_, Bool.toNat_false, Nat.add_zero, ← expected] at nxt
  obtain ⟨rest, whole⟩ := synchronised.stream
  have more := truthful.data some_ (by omega)
  rw [nxt, Nat.add_sub_cancel_left, ← whole, List.drop_left] at more
  rw [← whole, List.prefix_append_right_inj]
  exact (List.take_prefix _ _).trans more

theorem handed_take (count : Nat) :
    (turn.take count).handed payload = turn.handed payload ++ payload.take count := by
  have pushed : (turn.take count).actions.taken = (turn.actions.push (.delivered count)).taken :=
    rfl
  rw [handed, handed, pushed, Actions.taken_push]
  simp [deliveredOf]

theorem synchronised_deliver
    (synchronised : Synchronised turn.tcb (delivered ++ turn.handed segment.payload) iss written
      shut) (truthful : segment.Truthful iss written shut) (few : written.length < 2 ^ 31) :
    Synchronised (turn.deliver segment).1.tcb
      (delivered ++ (turn.deliver segment).1.handed segment.payload) iss written shut := by
  rw [deliver]
  split
  · exact synchronised
  rename_i takes
  rw [not_or, Bool.not_eq_false] at takes
  split
  · exact synchronised
  rename_i expected
  rw [not_not] at expected
  split
  · exact synchronised
  have open_ : turn.tcb.rcv.finReceived = false := by
    rw [Bool.eq_false_iff]
    intro fin
    have done := (synchronised.fin fin).1
    cases state : turn.tcb.state <;> simp_all [State.canReceive, State.peerDone]
  have stream := @stream_take _ _ _ segment turn.tcb _
    (turn.tcb.rcv.taken segment.payload.length) synchronised truthful open_ takes.2 expected
  have fits : turn.tcb.rcv.taken segment.payload.length ≤ segment.payload.length := by
    rw [Receiver.taken]
    omega
  have short := stream.length_le
  have nxt := synchronised.nxt
  dsimp only
  rw [handed_take, ← List.append_assoc]
  refine ⟨synchronised.live, stream, ?_, fun fin => by cases open_.symm.trans fin⟩
  rw [List.length_append, List.length_take, Nat.min_eq_left fits] at short ⊢
  have moved : iss.gap (turn.tcb.rcv.nxt.after (turn.tcb.rcv.taken segment.payload.length)) =
      iss.gap turn.tcb.rcv.nxt + turn.tcb.rcv.taken segment.payload.length := by
    rw [open_, Bool.toNat_false] at nxt
    exact Serial.gap_after_of_lt (by omega)
  have same : (turn.take (turn.tcb.rcv.taken segment.payload.length)).tcb.rcv.finReceived =
    turn.tcb.rcv.finReceived := rfl
  rw [same]
  exact moved.trans (by omega)

theorem synchronised_takeFin
    (synchronised : Synchronised turn.tcb bytes iss written shut)
    (truthful : segment.Truthful iss written shut) (few : written.length < 2 ^ 31)
    (next : turn.tcb.rcv.finNext segment count = true)
    (open_ : turn.tcb.rcv.finReceived = false) (live : turn.tcb.state.opening = false) :
    Synchronised (turn.takeFin.peerClosed now).tcb bytes iss written shut := by
  simp only [Receiver.finNext, Bool.and_eq_true, decide_eq_true_eq] at next
  obtain ⟨⟨flag, rfl⟩, ends⟩ := next
  obtain ⟨within, count, shutAt, least⟩ := truthful.fin flag
  have nxt := synchronised.nxt
  rw [open_, Bool.toNat_false, Nat.add_zero] at nxt
  have last : iss.gap turn.tcb.rcv.nxt = iss.gap segment.sequence + segment.payload.length := by
    rw [← ends, Serial.gap_after_of_lt (by omega)]
  have state : (turn.takeFin.peerClosed now).tcb.state = turn.tcb.state.afterPeerFin :=
    peerClosed_state ..
  refine ⟨?_, synchronised.stream, ?_, fun _ => ⟨?_, count, shutAt, by omega⟩⟩
  · rw [state]
    cases at_ : turn.tcb.state <;> simp_all [State.opening, State.afterPeerFin, State.starting]
  · rw [peerClosed_rcv]
    have fin : turn.takeFin.tcb.rcv.finReceived = true := rfl
    have moved : iss.gap (turn.tcb.rcv.nxt.after 1) = iss.gap turn.tcb.rcv.nxt + 1 :=
      Serial.gap_after_of_lt (by omega)
    rw [fin, Bool.toNat_true]
    exact moved.trans (by omega)
  · rw [state]
    cases at_ : turn.tcb.state <;> simp_all [State.opening, State.afterPeerFin, State.peerDone]

section

variable
  (synchronised : Synchronised turn.tcb (delivered ++ turn.handed segment.payload) iss written shut)
  (truthful : segment.Truthful iss written shut) (few : written.length < 2 ^ 31)
include synchronised truthful few

theorem synchronised_receive (live : turn.tcb.state.opening = false) :
    Synchronised (turn.receive segment now).tcb
      (delivered ++ (turn.receive segment now).handed segment.payload) iss written shut := by
  have taken := synchronised_deliver synchronised truthful few
  unfold receive
  dsimp only
  split
  · rename_i fin
    have handed : ((turn.deliver segment).1.takeFin.peerClosed now).handed segment.payload =
        (turn.deliver segment).1.handed segment.payload := by
      rw [Turn.handed, Turn.handed, taken_peerClosed]
      rfl
    rw [handed]
    exact synchronised_takeFin taken truthful few fin.1 fin.2 (by rw [deliver_state]; exact live)
  · split
    · exact (still_acknowledgeOrDelay _ now).quiet.synchronised taken
    · exact taken

theorem receiving_synchronisedArrival (opening : turn.tcb.state.opening = true →
    turn.tcb.state = .synReceived) :
    Synchronised (turn.synchronisedArrival segment now).tcb
      (delivered ++ (turn.synchronisedArrival segment now).handed segment.payload) iss written
      shut := by
  generalize went : turn.synchronisedArrival segment now = result
  cases synchronisedArrival_outcome went with
  | duplicate _ _ _ => exact turn.still_acknowledgeNow.quiet.synchronised synchronised
  | dropped _ _ | silent _ _ _ => exact synchronised
  | reset _ _ ended => exact (turn.still_close ended).quiet.synchronised synchronised
  | synAgain _ _ _ _ => exact turn.still_abort.quiet.synchronised synchronised
  | @stopped ack _ _ _ _ outcome =>
    have quiet := Quiet.processAck turn now segment ack
    rw [outcome] at quiet
    exact quiet.synchronised synchronised
  | @taken ack acked _ _ _ _ outcome =>
    have quiet := Quiet.processAck turn now segment ack
    rw [outcome] at quiet
    have received := @synchronised_receive acked delivered written iss shut segment now
      (quiet.synchronised synchronised) truthful few (processAck_not_opening opening outcome)
    exact (still_sendWhatWeCan _ now).quiet.synchronised received

end

theorem synchronised_of_syn {tcb : Tcb} (syn : segment.sequence = iss)
    (nxt : tcb.rcv.nxt = segment.sequence.after 1) (open_ : tcb.rcv.finReceived = false)
    (live : tcb.state.starting = false) : Synchronised tcb [] iss written shut := by
  refine ⟨live, List.nil_prefix, ?_, fun fin => by cases open_.symm.trans fin⟩
  rw [nxt, syn, Serial.gap_self_after (by decide), open_]
  rfl

theorem Receiving.of_starting {tcb : Tcb}
    (receiving : Receiving tcb bytes iss written shut) (starting : tcb.state.starting = true) :
    bytes = [] ∧ tcb.rcv.finReceived = false := by
  cases receiving with
  | fresh _ none fin => exact ⟨none, fin⟩
  | synchronised synchronised => exact absurd (synchronised.live.symm.trans starting) nofun

section

variable
  (receiving : Receiving turn.tcb (delivered ++ turn.handed segment.payload) iss written shut)
  (truthful : segment.Truthful iss written shut)
include receiving truthful

theorem receiving_listenArrival (listens : turn.tcb.state = .listen) :
    Receiving (turn.listenArrival segment now).tcb
      (delivered ++ (turn.listenArrival segment now).handed segment.payload) iss written shut := by
  obtain ⟨none, fin⟩ := Receiving.of_starting receiving (by rw [listens]; rfl)
  generalize went : turn.listenArrival segment now = result
  cases listenArrival_outcome went with
  | ignored => exact receiving
  | refused emit _ => exact (Quiet.push turn rfl).receiving receiving
  | answered _ syn _ =>
    have answered : ((((turn.synchronise segment).answerSyn).dropUnsent).startTiming now).handed
        segment.payload = turn.handed segment.payload :=
      (Quiet.push (turn.synchronise segment) rfl).handed segment.payload
    refine .synchronised ((still_armRetransmit _ now).quiet.synchronised ?_)
    rw [answered, none]
    exact synchronised_of_syn (truthful.syn syn) rfl fin rfl

theorem receiving_synSentArrival (sent : turn.tcb.state = .synSent) :
    Receiving (turn.synSentArrival segment now).tcb
      (delivered ++ (turn.synSentArrival segment now).handed segment.payload) iss written shut := by
  obtain ⟨none, fin⟩ := Receiving.of_starting receiving (by rw [sent]; rfl)
  generalize went : turn.synSentArrival segment now = result
  cases synSentArrival_outcome went with
  | stray _ _ => exact (Quiet.push turn rfl).receiving receiving
  | ignored => exact receiving
  | refused _ => exact (turn.still_close _).quiet.receiving receiving
  | opened _ syn _ _ =>
    have opened : Synchronised (((turn.synchronise segment).takeAck
        segment.acknowledgement).becomeEstablished now).tcb
        (delivered ++ turn.handed segment.payload) iss written shut := by
      rw [none]
      exact synchronised_of_syn (truthful.syn syn) rfl fin rfl
    exact .synchronised ((((still_acknowledgeNow _).trans
      (still_armRetransmit _ now)).withheld.trans (still_sendWhatWeCan _ now)).quiet.synchronised
        opened)
  | crossed _ syn _ _ =>
    have answered : (((turn.synchronise segment).takeAck Option.none).answerSyn).handed
        segment.payload = turn.handed segment.payload :=
      (Quiet.push ((turn.synchronise segment).takeAck Option.none) rfl).handed segment.payload
    refine .synchronised ((still_armRetransmit _ now).quiet.synchronised ?_)
    rw [answered, none]
    exact synchronised_of_syn (truthful.syn syn) rfl fin rfl

end

theorem receiving_arrived (first : turn.actions.taken = [])
    (receiving : Receiving turn.tcb delivered iss written shut)
    (truthful : segment.Truthful iss written shut) (few : written.length < 2 ^ 31) :
    Receiving (turn.arrived segment now).tcb
      (delivered ++ (turn.arrived segment now).handed segment.payload) iss written shut := by
  have start : turn.handed segment.payload = [] := by
    rw [handed, first]
    rfl
  rw [show delivered = delivered ++ turn.handed segment.payload by rw [start, List.append_nil]]
    at receiving
  rw [arrived]
  split
  · exact (turn.still_closedArrival segment).quiet.receiving receiving
  · exact receiving_listenArrival receiving truthful ‹_›
  · exact receiving_synSentArrival receiving truthful ‹_›
  rename_i live notListen notSynSent
  cases receiving with
  | fresh unsynchronised _ _ =>
    cases state : turn.tcb.state <;> simp_all [State.unsynchronised]
  | synchronised synchronised =>
    exact .synchronised (receiving_synchronisedArrival synchronised truthful few
      (State.synReceived_of_opening notListen notSynSent))

end Turn

end Bhaskix.Net
