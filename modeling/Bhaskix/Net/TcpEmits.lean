import Bhaskix.Net.TcpFrame

namespace Bhaskix.Net

open Library Serial

/-- A segment stays within the `total` bytes, byte `k` at `iss + 1 + k`, and ends them with a `FIN`
only once the program had. -/
structure Emit.Fits (emit : Emit) (iss : Sequence) (total : Nat) (shut : Option Nat) : Prop where
  syn : emit.flags.syn = true → emit.sequence = iss
  data : 0 < emit.length → 0 < iss.gap emit.sequence →
    iss.gap emit.sequence + emit.length ≤ total + 1
  fin : emit.flags.fin = true → 0 < iss.gap emit.sequence ∧
    iss.gap emit.sequence + emit.length ≤ total + 1 ∧
    ∃ count, shut = some count ∧ count + 1 ≤ iss.gap emit.sequence + emit.length

theorem Emit.Fits.of_bare {emit : Emit} {iss : Sequence} {total : Nat} {shut : Option Nat}
    (syn : emit.flags.syn = false) (fin : emit.flags.fin = false) (length : emit.length = 0) :
    emit.Fits iss total shut :=
  ⟨fun flag => absurd (syn.symm.trans flag) nofun, fun some_ => absurd length (by omega),
    fun flag => absurd (fin.symm.trans flag) nofun⟩

namespace Sender

/-- What is acknowledged, what is sent and what is available come in this order, counted from the
initial number. -/
structure Within (snd : Sender) (total : Nat) (shut : Option Nat) : Prop where
  few : total < 2 ^ 31
  avail : snd.iss.gap snd.avail = total + 1
  una : snd.iss.gap snd.una ≤ snd.iss.gap snd.nxt
  nxt : snd.iss.gap snd.nxt ≤ total + 2
  unfinished : snd.finSeq = none → snd.iss.gap snd.nxt ≤ total + 1
  fin : ∀ fin, snd.finSeq = some fin → 0 < snd.iss.gap fin ∧ snd.iss.gap fin ≤ total + 1 ∧
    ∃ count, shut = some count ∧ count + 1 ≤ snd.iss.gap fin
  queued : snd.finQueued = true → ∃ count, shut = some count ∧ count ≤ total

namespace Within

variable {snd : Sender} {total : Nat} {shut : Option Nat}

section

variable (within : snd.Within total shut)
include within

theorem unsent_eq : snd.unsent = total + 1 - snd.iss.gap snd.nxt := by
  have few := within.few
  have avail := within.avail
  have nxt := within.nxt
  rw [unsent]
  rcases Nat.lt_or_ge (total + 1) (snd.iss.gap snd.nxt) with past | ahead
  · have back : snd.nxt.gap snd.avail = 2 ^ 32 - 1 := by
      rw [@gap_of_lt snd.iss _ _ (by omega)]
      omega
    rw [if_neg]
    · omega
    · rw [follows_base_iff]
      omega
  · have left : snd.nxt.gap snd.avail = total + 1 - snd.iss.gap snd.nxt := by
      rw [@gap_of_le snd.iss _ _ (by omega), avail]
    split
    · exact left
    rename_i none
    rw [follows_base_iff, left] at none
    omega

theorem segmentLength_le : snd.segmentLength ≤ total + 1 - snd.iss.gap snd.nxt := by
  have unsent := within.unsent_eq
  rw [segmentLength]
  omega

theorem gap_nxt_segment :
    snd.iss.gap (snd.nxt.after snd.segmentLength) = snd.iss.gap snd.nxt + snd.segmentLength := by
  have few := within.few
  have nxt := within.nxt
  have length := within.segmentLength_le
  exact gap_after_of_lt (by omega)

theorem sendData : { snd with nxt := snd.nxt.after snd.segmentLength }.Within total shut := by
  have moved := within.gap_nxt_segment
  have length := within.segmentLength_le
  have una := within.una
  have nxt := within.nxt
  refine { within with una := ?_, nxt := ?_, unfinished := fun none => ?_ }
  · exact una.trans ((Nat.le_add_right _ _).trans_eq moved.symm)
  · exact moved.trans_le (by omega)
  · have open_ := within.unfinished none
    exact moved.trans_le (by omega)

theorem gap_of_finNow (fin : snd.finNow retransmission = true) :
    snd.iss.gap snd.nxt + snd.segmentLength = total + 1 ∧
      ∃ count, shut = some count ∧ count ≤ total := by
  simp only [finNow, Bool.and_eq_true, decide_eq_true_eq, Option.isNone_iff_eq_none] at fin
  have open_ := within.unfinished fin.1.1.2
  have unsent := within.unsent_eq
  refine ⟨?_, within.queued fin.1.1.1⟩
  rw [fin.1.2, unsent]
  omega

theorem sentSegment (retransmission : Bool) :
    (snd.sentSegment retransmission).Within total shut := by
  rw [Sender.sentSegment]
  split
  · rename_i fin
    obtain ⟨last, count, shutAt, least⟩ := within.gap_of_finNow fin
    have few := within.few
    have una := within.una
    have moved := within.gap_nxt_segment
    have next : snd.iss.gap ((snd.nxt.after snd.segmentLength).after 1) = total + 2 := by
      rw [gap_after_of_lt (by omega), moved, last]
    refine ⟨few, within.avail, ?_, next.le, by simp, ?_, within.queued⟩
    · have acknowledged : snd.iss.gap snd.una ≤ total + 2 := by omega
      exact acknowledged.trans_eq next.symm
    rintro number same
    obtain rfl := Option.some.inj same
    rw [moved, last]
    exact ⟨Nat.succ_pos _, le_rfl, count, shutAt, by omega⟩
  · exact within.sendData

theorem acknowledge {ack : Sequence} (past : snd.una.gap ack ≤ snd.una.gap snd.nxt) :
    { snd with una := ack }.Within total shut ∧ snd.iss.gap snd.una ≤ snd.iss.gap ack := by
  have few := within.few
  have nxt := within.nxt
  have order := @gap_of_le snd.iss _ _ within.una
  have una := within.una
  have moved : snd.iss.gap ack = snd.iss.gap snd.una + snd.una.gap ack := by
    have whole := gap_after snd.iss snd.una (snd.una.gap ack)
    rw [after_gap] at whole
    rw [whole]
    omega
  have sent : snd.iss.gap ack ≤ snd.iss.gap snd.nxt := by omega
  exact ⟨{ within with few := few, una := sent, nxt := nxt }, by omega⟩

theorem goBack : { snd with nxt := snd.una }.Within total shut := by
  have una := within.una
  exact ⟨within.few, within.avail, le_rfl, una.trans within.nxt,
    fun none => una.trans (within.unfinished none), within.fin, within.queued⟩

theorem setWindow (window : UInt16) : { snd with wnd := window }.Within total shut :=
  { within with }

end

end Within

end Sender

inductive Active (state : State) (snd : Sender) (total : Nat) (shut : Option Nat) : Prop
  | received (state_eq : state = .synReceived) (within : snd.Within total shut)
      (una : snd.una = snd.iss) (sent : 0 < snd.iss.gap snd.nxt) (fin : snd.finSeq = none)
  | sending (can : state.canSend = true) (within : snd.Within total shut)
      (una : 0 < snd.iss.gap snd.una) (fin : snd.finSeq = none)
  | finishing (ends : state.finishing = true ∨ state.finished = true)
      (within : snd.Within total shut) (fin : snd.finSeq ≠ none)

inductive Streams (state : State) (snd : Sender) (total : Nat) (shut : Option Nat) : Prop
  | closed (state_eq : state = .closed)
  | listen (state_eq : state = .listen) (una : snd.una = snd.iss) (nxt : snd.nxt = snd.iss)
      (fin : snd.finSeq = none) (queued : snd.finQueued = false) (none : total = 0)
  | synSent (state_eq : state = .synSent) (within : snd.Within total shut)
      (una : snd.una = snd.iss) (sent : 0 < snd.iss.gap snd.nxt) (fin : snd.finSeq = none)
  | active (active : Active state snd total shut)

theorem Streams.active_of
    (streams : Streams state snd total shut) (notClosed : state ≠ .closed)
    (notListen : state ≠ .listen) (notSynSent : state ≠ .synSent) :
    Active state snd total shut := by
  cases streams with
  | closed state => exact absurd state notClosed
  | listen state _ _ _ _ _ => exact absurd state notListen
  | synSent state _ _ _ _ => exact absurd state notSynSent
  | active active => exact active

namespace Active

variable {state : State} {snd : Sender} {total : Nat} {shut : Option Nat}
  (active : Active state snd total shut)
include active

theorem within : snd.Within total shut := by
  cases active with
  | received _ within _ _ _ | sending _ within _ _ | finishing _ within _ => exact within

theorem synchronised (opening : state.opening = true) : state = .synReceived := by
  cases active with
  | received state _ _ _ _ => exact state
  | sending can _ _ _ => cases state <;> simp_all [State.canSend, State.opening]
  | finishing ends _ _ =>
    cases state <;> simp_all [State.finishing, State.finished, State.opening]

theorem finNow (fin : snd.finNow retransmission = true) :
    0 < snd.iss.gap snd.nxt ∧ (state.canSend = true ∨ state = .synReceived) := by
  cases active with
  | received state _ _ sent _ => exact ⟨sent, .inr state⟩
  | sending can within una _ => exact ⟨una.trans_le within.una, .inl can⟩
  | finishing _ _ already => simp [Sender.finNow, already] at fin

theorem sentSegment (retransmission : Bool) :
    Active (if snd.finNow retransmission then state.afterFin else state)
      (snd.sentSegment retransmission) total shut := by
  have sent := active.within.sentSegment retransmission
  cases fin : snd.finNow retransmission with
  | true =>
    refine .finishing (.inl (State.finishing_afterFin (active.finNow fin).2)) sent ?_
    rw [Sender.sentSegment, if_pos fin]
    simp
  | false =>
    have stays : snd.sentSegment retransmission =
        { snd with nxt := snd.nxt.after snd.segmentLength } := by
      rw [Sender.sentSegment, if_neg (by rw [fin]; exact Bool.false_ne_true)]
    rw [stays] at sent ⊢
    cases active with
    | received state within una some_ none =>
      have moved := within.gap_nxt_segment
      exact .received state sent una (moved.symm ▸ Nat.add_pos_left some_ _) none
    | sending can _ una none => exact .sending can sent una none
    | finishing ends _ already => exact .finishing ends sent already

end Active

namespace Turn

structure Streaming (turn : Turn) (total : Nat) (shut : Option Nat) : Prop where
  streams : Streams turn.tcb.state turn.tcb.snd total shut
  emits : ∀ emit ∈ turn.actions.emits, emit.Fits turn.tcb.snd.iss total shut

namespace Streaming

variable {turn : Turn} {total : Nat} {shut : Option Nat} {now : Nat}

theorem emit {emit : Emit} (streaming : turn.Streaming total shut)
    (fits : emit.Fits turn.tcb.snd.iss total shut) :
    (turn.push (.emit emit)).Streaming total shut := by
  refine ⟨streaming.streams, fun other member => ?_⟩
  have member' : other ∈ (turn.actions.push (.emit emit)).emits := member
  rw [Actions.emits_push] at member'
  rcases List.mem_append.mp member' with old | new
  · exact streaming.emits other old
  · obtain rfl : other = emit := List.mem_singleton.mp new
    exact fits

theorem silent (streaming : turn.Streaming total shut)
    (plain : emitOf action = none) : (turn.push action).Streaming total shut := by
  refine ⟨streaming.streams, fun other member => ?_⟩
  have member' : other ∈ (turn.actions.push action).emits := member
  rw [Actions.emits_push, plain, Option.toList_none, List.append_nil] at member'
  exact streaming.emits other member'

section

variable (streaming : turn.Streaming total shut)
include streaming

theorem move (tcb : Tcb)
    (streams : Streams tcb.state tcb.snd total shut) (iss : tcb.snd.iss = turn.tcb.snd.iss) :
    (⟨tcb, turn.actions⟩ : Turn).Streaming total shut :=
  ⟨streams, fun emit member => iss ▸ streaming.emits emit member⟩

theorem armRetransmit : (turn.armRetransmit now).Streaming total shut := by
  rw [Turn.armRetransmit]
  split
  · exact streaming.silent rfl
  · exact streaming.silent rfl

theorem armProbeIfClosed : (turn.armProbeIfClosed now).Streaming total shut := by
  rw [Turn.armProbeIfClosed]
  split
  · exact streaming.silent rfl
  · exact streaming

theorem coverSent : (turn.coverSent now).Streaming total shut := by
  have timed : (turn.startTiming now).Streaming total shut := streaming.move _ streaming.streams rfl
  rw [Turn.coverSent]
  split
  · exact timed.armRetransmit
  · exact streaming.armRetransmit

theorem acknowledgeNow : turn.acknowledgeNow.Streaming total shut := by
  have sent := streaming.emit (@Emit.Fits.of_bare
    { flags := {}, sequence := turn.tcb.snd.nxt, acknowledgement := some turn.tcb.rcv.nxt,
      window := turn.tcb.rcv.wnd, length := 0, mss := none } _ _ _ rfl rfl rfl)
  have counted : Streaming _ total shut :=
    sent.move { turn.tcb with sinceAck := 0 } streaming.streams rfl
  exact counted.silent rfl

theorem close (ended : Ended) : (turn.close ended).Streaming total shut :=
  (streaming.move { turn.tcb with state := .closed } (.closed rfl) rfl).silent rfl

theorem abort : turn.abort.Streaming total shut := by
  rw [Turn.abort]
  split
  · exact streaming.close _
  · exact streaming.close _
  · exact (streaming.emit (.of_bare rfl rfl rfl)).close _

end

theorem fits_sendSegment {snd : Sender} {retransmission : Bool} (within : snd.Within total shut)
    (sent : snd.finNow retransmission = true → 0 < snd.iss.gap snd.nxt) {emit : Emit}
    (sequence : emit.sequence = snd.nxt) (length : emit.length = snd.segmentLength)
    (syn : emit.flags.syn = false) (fin : emit.flags.fin = snd.finNow retransmission) :
    emit.Fits snd.iss total shut := by
  have least := within.segmentLength_le
  refine ⟨fun flag => absurd (syn.symm.trans flag) nofun, fun some_ _ => ?_, fun flag => ?_⟩
  · rw [sequence, length]
    rw [length] at some_
    omega
  · rw [fin] at flag
    obtain ⟨last, count, shutAt, ended⟩ := within.gap_of_finNow flag
    rw [sequence, length, last]
    exact ⟨sent flag, le_rfl, count, shutAt, by omega⟩

section

variable (streaming : turn.Streaming total shut)
  (active : Active turn.tcb.state turn.tcb.snd total shut)
include streaming active

theorem sendSegment (retransmission : Bool) :
    (turn.sendSegment retransmission).1.Streaming total shut ∧
      Active (turn.sendSegment retransmission).1.tcb.state
        (turn.sendSegment retransmission).1.tcb.snd total shut := by
  have active' := active.sentSegment retransmission
  rw [← sendSegment_state, ← sendSegment_snd] at active'
  refine ⟨⟨.active active', ?_⟩, active'⟩
  rw [sendSegment_snd, Sender.sentSegment_iss]
  have fits := @fits_sendSegment total shut _ retransmission active.within
    fun fin => (active.finNow fin).1
  rcases turn.sendSegment_cases retransmission with ⟨_, _, same⟩ | ⟨_, stays, same⟩ | ⟨fin, same⟩
  · rw [same]
    exact streaming.emits
  · rw [same]
    exact (streaming.emit (fits rfl rfl rfl stays.symm)).emits
  · rw [same]
    exact (streaming.emit (fits rfl rfl rfl fin.symm)).emits

theorem sendSegments :
    turn.sendSegments.1.Streaming total shut := by
  obtain ⟨once, active'⟩ := streaming.sendSegment active false
  rcases turn.sendSegments_fst with same | same
  · rw [same]
    exact once
  · rw [same]
    exact (once.sendSegment active' false).1

end

theorem sendWhatWeCan (streaming : turn.Streaming total shut) :
    (turn.sendWhatWeCan now).Streaming total shut := by
  by_cases may : turn.maySend
  · have active : Active turn.tcb.state turn.tcb.snd total shut := by
      refine streaming.streams.active_of ?_ ?_ ?_
      all_goals
        intro state
        simp [maySend, state, State.canSend] at may
    have probed : (turn.sendSegments.1.armProbeIfClosed now).Streaming total shut :=
      (streaming.sendSegments active).armProbeIfClosed
    rw [sendWhatWeCan_of_may turn now may]
    split
    · exact probed.coverSent
    · exact probed
  · rw [sendWhatWeCan_of_not turn now may]
    exact streaming

variable {iss : Sequence} {snd : Sender}

theorem fits_syn {emit : Emit} (sequence : emit.sequence = iss)
    (fin : emit.flags.fin = false) (length : emit.length = 0) : emit.Fits iss total shut :=
  ⟨fun _ => sequence, fun some_ => absurd length (by omega),
    fun flag => absurd (fin.symm.trans flag) nofun⟩

theorem fits_fin {emit : Emit} (sequence : emit.sequence = number)
    (syn : emit.flags.syn = false) (length : emit.length = 0) (some_ : 0 < iss.gap number)
    (least : iss.gap number ≤ total + 1)
    (ended : ∃ count, shut = some count ∧ count + 1 ≤ iss.gap number) :
    emit.Fits iss total shut := by
  refine ⟨fun flag => absurd (syn.symm.trans flag) nofun, fun more => absurd length (by omega),
    fun _ => ?_⟩
  rw [sequence, length]
  exact ⟨some_, least, ended⟩

theorem fits_data {emit : Emit}
    (sequence : emit.sequence = number) (bytes : emit.length = length)
    (syn : emit.flags.syn = false) (fin : emit.flags.fin = false)
    (fits : iss.gap number + length ≤ total + 1) : emit.Fits iss total shut := by
  refine ⟨fun flag => absurd (syn.symm.trans flag) nofun, fun _ _ => ?_,
    fun flag => absurd (fin.symm.trans flag) nofun⟩
  rw [sequence, bytes]
  exact fits

theorem within_synSent (within : snd.Within total shut) (una : snd.una = snd.iss) :
    { snd with nxt := snd.una.after 1 }.Within total shut ∧ snd.iss.gap (snd.una.after 1) = 1 := by
  have one : snd.iss.gap (snd.una.after 1) = 1 := by
    rw [una, gap_self_after (by decide)]
  have start : snd.iss.gap snd.una = 0 := by
    rw [una, gap_self]
  refine ⟨{ within with una := ?_, nxt := ?_, unfinished := fun _ => ?_ }, one⟩
  · exact start.trans_le (Nat.zero_le _)
  · exact one.trans_le (by omega)
  · exact one.trans_le (by omega)

section

variable (streaming : turn.Streaming total shut)
include streaming

theorem resendSyn
    (within : turn.tcb.snd.Within total shut) (una : turn.tcb.snd.una = turn.tcb.snd.iss)
    (fin : turn.tcb.snd.finSeq = none)
    (state : turn.tcb.state = .synSent ∨ turn.tcb.state = .synReceived) :
    (turn.goBack.resendSyn acknowledgement).Streaming total shut := by
  obtain ⟨within', one⟩ := within_synSent within una
  refine (streaming.emit (fits_syn una rfl rfl)).move _ ?_ rfl
  rcases state with sent | received
  · exact .synSent sent within' una (one.symm ▸ Nat.one_pos) fin
  · exact .active (.received received within' una (one.symm ▸ Nat.one_pos) fin)

theorem resendFin (active : Active turn.tcb.state turn.tcb.snd total shut) :
    turn.resendFin.Streaming total shut := by
  rw [Turn.resendFin]
  split
  · exact streaming
  rename_i number fin
  split
  · rename_i next
    have within := active.within
    obtain ⟨some_, least, ended⟩ := within.fin _ fin
    have few := within.few
    have una := within.una
    have moved : turn.tcb.snd.iss.gap (number.after 1) = turn.tcb.snd.iss.gap number + 1 :=
      gap_after_of_lt (by omega)
    have set (none : turn.tcb.snd.finSeq = none) : False := by cases fin.symm.trans none
    rw [next.2] at una
    refine (streaming.emit ?_).move _ (.active ?_) rfl
    · exact fits_fin rfl rfl rfl some_ least ended
    refine .finishing ?_ ⟨few, within.avail, una.trans ((Nat.le_succ _).trans_eq moved.symm),
      moved.trans_le (by omega), fun none => (set none).elim, within.fin, within.queued⟩ set
    cases active with
    | received _ _ _ _ none | sending _ _ _ none => exact (set none).elim
    | finishing ends _ _ => exact ends
  · exact streaming

theorem resend_active (active : Active turn.tcb.state turn.tcb.snd total shut)
    (notReceived : turn.tcb.state ≠ .synReceived) : turn.resend.Streaming total shut := by
  have notSent : turn.tcb.state ≠ .synSent := by
    intro sent
    cases active with
    | received state _ _ _ _ => exact notReceived state
    | sending can _ _ _ => rw [sent] at can; contradiction
    | finishing ends _ _ => simp [sent, State.finishing, State.finished] at ends
  obtain ⟨once, active'⟩ := streaming.sendSegment active true
  rw [turn.resend_of_synchronised notSent notReceived]
  exact once.resendFin active'

theorem retransmit : (turn.retransmit now).Streaming total shut := by
  rw [Turn.retransmit]
  split
  · exact streaming
  rename_i running
  rw [not_or, Sender.awaitingAck, decide_eq_false_iff_not, not_not] at running
  obtain ⟨open_, awaits⟩ := running
  split
  · exact streaming.close _
  refine armRetransmit ?_
  cases streaming.streams with
  | closed state => exact absurd state open_
  | listen _ una nxt _ _ _ => exact absurd (una.trans nxt.symm) awaits
  | synSent state within una _ fin =>
    rw [Turn.resend, show turn.goBack.tcb.state = .synSent from state]
    exact streaming.resendSyn within una fin (.inl state)
  | active active =>
    cases active with
    | received state within una _ fin =>
      rw [Turn.resend, show turn.goBack.tcb.state = .synReceived from state]
      exact streaming.resendSyn within una fin (.inr state)
    | sending can within una fin =>
      have active : Active turn.goBack.tcb.state turn.goBack.tcb.snd total shut :=
        .sending can within.goBack una fin
      refine (streaming.move turn.goBack.tcb (.active active) rfl).resend_active active ?_
      rintro received
      rw [show turn.tcb.state = _ from received] at can
      contradiction
    | finishing ends within fin =>
      have active : Active turn.goBack.tcb.state turn.goBack.tcb.snd total shut :=
        .finishing ends within.goBack fin
      refine (streaming.move turn.goBack.tcb (.active active) rfl).resend_active active ?_
      rintro received
      rw [show turn.tcb.state = _ from received] at ends
      simp [State.finishing, State.finished] at ends

theorem sends_of_can (can : turn.tcb.state.canSend = true) :
    turn.tcb.snd.Within total shut ∧ 0 < turn.tcb.snd.iss.gap turn.tcb.snd.una ∧
      turn.tcb.snd.finSeq = none := by
  cases streaming.streams with
  | closed state | listen state _ _ _ _ _ | synSent state _ _ _ _ =>
    simp [state, State.canSend] at can
  | active active =>
    cases active with
    | received state _ _ _ _ => simp [state, State.canSend] at can
    | sending _ within una fin => exact ⟨within, una, fin⟩
    | finishing ends _ _ =>
      cases state : turn.tcb.state <;> simp_all [State.canSend, State.finishing, State.finished]

theorem probe : (turn.probe now).Streaming total shut := by
  rw [Turn.probe]
  split
  · exact streaming
  rename_i something
  rw [not_or, not_or, Bool.not_eq_false] at something
  obtain ⟨can, _, some_⟩ := something
  obtain ⟨within, una, fin⟩ := streaming.sends_of_can can
  have few := within.few
  have unsent := within.unsent_eq
  have moved : turn.tcb.snd.iss.gap (turn.tcb.snd.nxt.after 1) =
      turn.tcb.snd.iss.gap turn.tcb.snd.nxt + 1 :=
    gap_after_of_lt (by omega)
  have sent : { turn.tcb.snd with nxt := turn.tcb.snd.nxt.after 1 }.Within total shut :=
    ⟨few, within.avail, within.una.trans ((Nat.le_succ _).trans_eq moved.symm),
      moved.trans_le (by omega), fun _ => moved.trans_le (by omega), within.fin, within.queued⟩
  have fits : turn.tcb.snd.iss.gap turn.tcb.snd.nxt + 1 ≤ total + 1 := by omega
  refine armRetransmit (silent (move (streaming.emit ?_) _ (.active ?_) rfl) rfl)
  · exact fits_data rfl rfl rfl rfl fits
  · exact .sending can sent una fin

theorem expired (timer : Timer) : (turn.expired timer now).Streaming total shut := by
  cases timer with
  | retransmit => exact streaming.retransmit
  | delayedAck =>
    rw [Turn.expired]
    split
    · exact streaming.acknowledgeNow
    · exact streaming
  | probe => exact streaming.probe
  | timeWait =>
    rw [Turn.expired]
    split
    · exact streaming.close _
    · exact streaming

variable {ack : Sequence}

theorem establish
    (received : turn.tcb.state = .synReceived) (newer : ack.follows turn.tcb.snd.iss = true)
    (sent : ack.follows turn.tcb.snd.nxt = false) :
    (turn.establish ack now).Streaming total shut := by
  have active := streaming.streams.active_of (by rw [received]; nofun) (by rw [received]; nofun)
    (by rw [received]; nofun)
  cases active with
  | received _ within una _ fin =>
    rw [← una] at newer
    obtain ⟨some_, past⟩ := gap_le_of_not_follows newer sent
    obtain ⟨within', _⟩ := within.acknowledge past
    rw [una] at some_
    exact armRetransmit (streaming.move _ (.active (.sending rfl within' some_ fin)) rfl)
  | sending can _ _ _ => rw [received] at can; contradiction
  | finishing ends _ _ => simp [received, State.finishing, State.finished] at ends

theorem advanceAfterAck (active : Active turn.tcb.state turn.tcb.snd total shut) :
    (turn.advanceAfterAck now).Streaming total shut := by
  rw [Turn.advanceAfterAck]
  split
  · rename_i acked
    have fin : turn.tcb.snd.finSeq ≠ none := by
      intro none
      simp [Sender.finAcked, none] at acked
    split
    · exact streaming.move _ (.active (.finishing (.inr rfl) active.within fin)) rfl
    · have moved : Turn.Streaming { turn with tcb.state := .timeWait } total shut :=
        streaming.move _ (.active (.finishing (.inr rfl) active.within fin)) rfl
      exact (moved.silent rfl).silent rfl
    · exact streaming.close _
    · exact streaming
  · exact streaming

theorem acknowledge (active : Active turn.tcb.state turn.tcb.snd total shut)
    (open_ : turn.tcb.state ≠ .synReceived) (newer : ack.follows turn.tcb.snd.una = true)
    (sent : ack.follows turn.tcb.snd.nxt = false) :
    (turn.acknowledge ack now).Streaming total shut := by
  have past := (gap_le_of_not_follows newer sent).2
  obtain ⟨within', further⟩ := active.within.acknowledge past
  have active' : Active turn.tcb.state { turn.tcb.snd with una := ack } total shut := by
    cases active with
    | received state _ _ _ _ => exact absurd state open_
    | sending can _ una fin => exact .sending can within' (una.trans_le further) fin
    | finishing ends _ fin => exact .finishing ends within' fin
  have moved : (turn.advanceUna ack).Streaming total shut :=
    streaming.move _ (.active active') rfl
  have told : ((turn.advanceUna ack).tellAcknowledged (turn.tcb.snd.bytesFreed ack)).Streaming
      total shut := by
    rw [tellAcknowledged]
    split
    · exact moved.silent rfl
    · exact moved
  have timed : (turn.freeAcknowledged ack now).Streaming total shut :=
    armRetransmit (told.move _ told.streams rfl)
  refine timed.advanceAfterAck ?_
  rw [freeAcknowledged_state, freeAcknowledged_snd]
  exact active'

theorem takeWindow (window : UInt16) : (turn.takeWindow window).Streaming total shut := by
  have noted : (turn.noteWindow window).Streaming total shut := by
    refine streaming.move _ ?_ rfl
    cases streaming.streams with
    | closed state => exact .closed state
    | listen state una nxt fin queued none => exact .listen state una nxt fin queued none
    | synSent state within una sent fin =>
      exact .synSent state (within.setWindow window) una sent fin
    | active active =>
      cases active with
      | received state within una sent fin =>
        exact .active (.received state (within.setWindow window) una sent fin)
      | sending can within una fin => exact .active (.sending can (within.setWindow window) una fin)
      | finishing ends within fin => exact .active (.finishing ends (within.setWindow window) fin)
  rw [Turn.takeWindow]
  split
  · exact noted.silent rfl
  · exact noted

end

theorem processAck (streaming : turn.Streaming total shut) {ack : Sequence} {segment : Segment}
    (active : Active turn.tcb.state turn.tcb.snd total shut) :
    (turn.processAck segment ack now).1.Streaming total shut := by
  generalize went : turn.processAck segment ack now = result
  cases processAck_outcome went with
  | unsent _ => exact streaming.acknowledgeNow
  | synUnacknowledged _ _ _ => exact streaming
  | established sent received newer => exact (streaming.establish received newer sent).takeWindow _
  | acknowledged sent open_ newer =>
    exact (streaming.acknowledge active open_ newer sent).takeWindow _
  | old _ _ _ => exact streaming.takeWindow _

theorem take (streaming : turn.Streaming total shut) (count : Nat) :
    (turn.take count).Streaming total shut := by
  rw [Turn.take]
  exact silent (streaming.move _ streaming.streams rfl) rfl

theorem deliver (streaming : turn.Streaming total shut) (segment : Segment) :
    (turn.deliver segment).1.Streaming total shut := by
  rw [Turn.deliver]
  split
  · exact streaming
  split
  · exact streaming
  split
  · exact streaming
  · exact streaming.take _

theorem streams_afterPeerFin (streams : Streams state snd total shut)
    (open_ : state ≠ .synReceived) : Streams state.afterPeerFin snd total shut := by
  cases streams with
  | closed closed => exact .closed (by rw [closed]; rfl)
  | listen listen una nxt fin queued none =>
    exact .listen (by rw [listen]; rfl) una nxt fin queued none
  | synSent sent within una some_ fin => exact .synSent (by rw [sent]; rfl) within una some_ fin
  | active active =>
    cases active with
    | received received _ _ _ _ => exact absurd received open_
    | sending can within una fin =>
      refine .active (.sending ?_ within una fin)
      cases state <;> first | rfl | contradiction
    | finishing ends within fin =>
      refine .active (.finishing ?_ within fin)
      cases state <;> simp_all [State.finishing, State.finished, State.afterPeerFin]

section

variable (streaming : turn.Streaming total shut)
include streaming

theorem peerClosed (open_ : turn.tcb.state ≠ .synReceived) :
    (turn.peerClosed now).Streaming total shut := by
  refine ⟨?_, ?_⟩
  · rw [peerClosed_state, peerClosed_snd]
    exact streams_afterPeerFin streaming.streams open_
  rw [peerClosed_snd]
  have acked := streaming.acknowledgeNow
  rw [Turn.peerClosed]
  split
  · exact acked.emits
  · exact acked.emits
  · exact acked.emits
  · rw [emits_enterTimeWait]
    exact acked.emits
  · exact acked.emits

theorem acknowledgeOrDelay : (turn.acknowledgeOrDelay now).Streaming total shut := by
  have counted : turn.countSegment.Streaming total shut := streaming.move _ streaming.streams rfl
  rw [Turn.acknowledgeOrDelay]
  split
  · exact counted.acknowledgeNow
  · exact counted.silent rfl

theorem receive (segment : Segment)
    (open_ : turn.tcb.state ≠ .synReceived) : (turn.receive segment now).Streaming total shut := by
  have taken := streaming.deliver segment
  unfold Turn.receive
  dsimp only
  split
  · have fin : (turn.deliver segment).1.takeFin.Streaming total shut :=
      taken.move _ taken.streams rfl
    refine fin.peerClosed fun received => open_ ?_
    exact (turn.deliver_state segment).symm.trans received
  · split
    · exact taken.acknowledgeOrDelay
    · exact taken

theorem synchronisedArrival (segment : Segment)
    (active : Active turn.tcb.state turn.tcb.snd total shut) :
    (turn.synchronisedArrival segment now).Streaming total shut := by
  generalize went : turn.synchronisedArrival segment now = result
  cases synchronisedArrival_outcome went with
  | duplicate _ _ _ => exact streaming.acknowledgeNow
  | dropped _ _ | silent _ _ _ => exact streaming
  | reset _ _ ended => exact streaming.close ended
  | synAgain _ _ _ _ => exact streaming.abort
  | @stopped ack _ _ _ _ outcome =>
    have acked := @processAck turn total shut now streaming ack segment active
    rwa [outcome] at acked
  | @taken ack acked _ _ _ _ outcome =>
    have streaming' := @processAck turn total shut now streaming ack segment active
    rw [outcome] at streaming'
    have open_ := processAck_not_opening active.synchronised outcome
    refine (streaming'.receive segment fun received => ?_).sendWhatWeCan
    rw [received] at open_
    contradiction

end

theorem within_restart (within : snd.Within total shut)
    (una : snd.una = snd.iss) (next : nxt = snd.una.after 1) (window mss : UInt16) :
    { snd with nxt := nxt, wnd := window, mss := mss }.Within total shut := by
  obtain ⟨within', _⟩ := within_synSent within una
  rw [next]
  exact { within' with }

section

variable (streaming : turn.Streaming total shut)
include streaming

theorem listenArrival (segment : Segment) (listens : turn.tcb.state = .listen) :
    (turn.listenArrival segment now).Streaming total shut := by
  generalize went : turn.listenArrival segment now = result
  cases listenArrival_outcome went with
  | ignored => exact streaming
  | refused emit answer =>
    obtain ⟨syn, fin, length⟩ := resetFor_bare answer
    exact streaming.emit (.of_bare syn fin length)
  | answered _ _ _ =>
    have streams := streaming.streams
    rw [listens] at streams
    cases streams with
    | listen _ una nxt fin queued none =>
      subst none
      have one : turn.tcb.snd.iss.gap (turn.tcb.snd.iss.after 1) = 1 :=
        gap_self_after (by decide)
      have start : turn.tcb.snd.iss.gap turn.tcb.snd.una = 0 := by rw [una, gap_self]
      refine armRetransmit ((streaming.emit (fits_syn rfl rfl rfl)).move _ (.active
        (.received rfl ⟨by decide, one, start.trans_le (Nat.zero_le _), one.trans_le (by decide),
          fun _ => one.le, fun _ set => absurd (fin.symm.trans set) nofun,
          fun set => absurd (queued.symm.trans set) nofun⟩ una
          (one.symm ▸ Nat.one_pos) fin)) rfl)
    | active active => exact absurd active.synchronised (by simp [State.opening])
    | _ => contradiction

theorem synSentArrival (segment : Segment) (sent : turn.tcb.state = .synSent) :
    (turn.synSentArrival segment now).Streaming total shut := by
  generalize went : turn.synSentArrival segment now = result
  have streams := streaming.streams
  rw [sent] at streams
  cases synSentArrival_outcome went with
  | stray _ _ => exact streaming.emit (.of_bare rfl rfl rfl)
  | ignored => exact streaming
  | refused _ => exact streaming.close _
  | opened _ _ fits newer =>
    cases streams with
    | synSent _ within una _ fin =>
      rw [← una] at fits
      have within' := (within.acknowledge (gap_getD_le fits)).1
      have some_ := (follows_base_iff.mp newer).1
      have moved : (((turn.synchronise segment).takeAck
          segment.acknowledgement).becomeEstablished now).Streaming total shut :=
        streaming.move _ (.active (.sending rfl { within' with } some_ fin)) rfl
      exact moved.acknowledgeNow.armRetransmit.sendWhatWeCan
    | active active => exact absurd active.synchronised (by simp [State.opening])
    | _ => contradiction
  | crossed _ _ _ _ =>
    cases streams with
    | synSent _ within una _ fin =>
      have one : turn.tcb.snd.iss.gap (turn.tcb.snd.iss.after 1) = 1 :=
        gap_self_after (by decide)
      exact armRetransmit ((streaming.emit (fits_syn rfl rfl rfl)).move _ (.active (.received rfl
        (within_restart within una (congrArg (after · 1) una.symm) _ _) una
        (one.symm ▸ Nat.one_pos) fin)) rfl)
    | active active => exact absurd active.synchronised (by simp [State.opening])
    | _ => contradiction

theorem arrived (segment : Segment) : (turn.arrived segment now).Streaming total shut := by
  rw [Turn.arrived]
  split
  · rw [closedArrival]
    split
    · rename_i emit answer
      obtain ⟨syn, fin, length⟩ := resetFor_bare answer
      exact streaming.emit (.of_bare syn fin length)
    · exact streaming
  · exact streaming.listenArrival segment ‹_›
  · exact streaming.synSentArrival segment ‹_›
  · rename_i live notListen notSynSent
    exact streaming.synchronisedArrival segment
      (streaming.streams.active_of live notListen notSynSent)

theorem openWith (fresh : turn.tcb.snd.finSeq = none ∧ turn.tcb.snd.finQueued = false)
    (none : total = 0) (first : turn.actions.emits = []) :
    (turn.openWith iss window passive now).Streaming total shut := by
  subst none
  have started (tcb : Tcb) (streams : Streams tcb.state tcb.snd 0 shut) :
      (⟨tcb, turn.actions⟩ : Turn).Streaming 0 shut := by
    refine ⟨streams, fun emit member => ?_⟩
    rw [first] at member
    contradiction
  rw [Turn.openWith]
  split
  · exact streaming
  rename_i closed
  rw [not_not] at closed
  split
  · exact started _ (.listen rfl rfl rfl fresh.1 fresh.2 rfl)
  have one : iss.gap (iss.after 1) = 1 := gap_self_after (by decide)
  have within : Sender.Within { (turn.startFrom iss window).tcb.snd with
      nxt := iss.after 1, avail := iss.after 1 } 0 shut :=
    ⟨by decide, one, (gap_self iss).trans_le (Nat.zero_le _), one.trans_le (by decide),
      fun _ => one.le, fun _ set => (by cases fresh.1.symm.trans set),
      fun set => by cases fresh.2.symm.trans set⟩
  have start : (turn.startFrom iss window).Streaming 0 shut := started _ (.closed closed)
  exact armRetransmit ((start.emit (fits_syn rfl rfl rfl)).move _
    (.synSent rfl within rfl (one.symm ▸ Nat.one_pos) fresh.1) rfl)

end

theorem within_wrote (within : snd.Within total shut) (few : total + bytes < 2 ^ 31) :
    { snd with avail := snd.avail.after bytes }.Within (total + bytes) shut := by
  have avail := within.avail
  have nxt := within.nxt
  have more : snd.iss.gap (snd.avail.after bytes) = total + 1 + bytes := by
    rw [gap_after_of_lt (by omega), avail]
  refine ⟨few, more.trans (by omega), within.una, nxt.trans (by omega), fun none => ?_,
    fun number fin => ?_, fun queued => ?_⟩
  · exact (within.unfinished none).trans (by omega)
  · obtain ⟨some_, least, ended⟩ := within.fin number fin
    exact ⟨some_, least.trans (by omega), ended⟩
  · obtain ⟨count, shutAt, least⟩ := within.queued queued
    exact ⟨count, shutAt, least.trans (Nat.le_add_right _ _)⟩

theorem streams_wrote
    (streams : Streams state snd total shut) (notListen : state ≠ .listen)
    (few : total + bytes < 2 ^ 31) :
    Streams state { snd with avail := snd.avail.after bytes } (total + bytes) shut := by
  cases streams with
  | closed state => exact .closed state
  | listen state _ _ _ _ _ => exact absurd state notListen
  | synSent state within una sent fin =>
    exact .synSent state (within_wrote within few) una sent fin
  | active active =>
    cases active with
    | received state within una sent fin =>
      exact .active (.received state (within_wrote within few) una sent fin)
    | sending can within una fin =>
      exact .active (.sending can (within_wrote within few) una fin)
    | finishing ends within fin =>
      exact .active (.finishing ends (within_wrote within few) fin)

theorem wrote (streaming : turn.Streaming total shut) {bytes : Nat}
    (notListen : turn.tcb.state ≠ .listen) (few : total + bytes < 2 ^ 31)
    (first : turn.actions.emits = []) :
    ((turn.makeAvailable bytes).sendWhatWeCan now).Streaming (total + bytes) shut := by
  have available : (turn.makeAvailable bytes).Streaming (total + bytes) shut := by
    refine ⟨streams_wrote streaming.streams notListen few, fun emit member => ?_⟩
    have member' : emit ∈ turn.actions.emits := member
    rw [first] at member'
    contradiction
  exact available.sendWhatWeCan

theorem reopenWindow (streaming : turn.Streaming total shut) (bytes : Nat) :
    (turn.reopenWindow bytes).Streaming total shut := by
  have opened : (turn.setWindow (turn.tcb.rcv.reopened bytes)).Streaming total shut :=
    streaming.move _ streaming.streams rfl
  rw [Turn.reopenWindow]
  split
  · exact opened.acknowledgeNow
  · exact opened

def ended (shut : Option Nat) (total : Nat) : Option Nat :=
  some (shut.getD total)

variable (least : ∀ count, shut = some count → count ≤ total)
include least

theorem within_ended (within : snd.Within total shut) :
    { snd with finQueued := queued }.Within total (ended shut total) := by
  have kept {count : Nat} (shutAt : shut = some count) : ended shut total = some count := by
    rw [ended, shutAt]
    rfl
  refine { within with fin := fun number fin => ?_, queued := fun _ => ⟨_, rfl, ?_⟩ }
  · obtain ⟨some_, last, count, shutAt, before⟩ := within.fin number fin
    exact ⟨some_, last, count, kept shutAt, before⟩
  · cases shut with
    | none => exact le_rfl
    | some count => exact least count rfl

theorem active_ended (active : Active state snd total shut) :
    Active state { snd with finQueued := queued } total (ended shut total) := by
  cases active with
  | received state within una sent fin =>
    exact .received state (within_ended least within) una sent fin
  | sending can within una fin => exact .sending can (within_ended least within) una fin
  | finishing ends within fin => exact .finishing ends (within_ended least within) fin

theorem shutdown (streaming : turn.Streaming total shut) (first : turn.actions.emits = []) :
    (turn.shutdown now).Streaming total (ended shut total) := by
  have started (tcb : Tcb) (streams : Streams tcb.state tcb.snd total (ended shut total)) :
      (⟨tcb, turn.actions⟩ : Turn).Streaming total (ended shut total) := by
    refine ⟨streams, fun emit member => ?_⟩
    rw [first] at member
    contradiction
  have queued (notClosed : turn.tcb.state ≠ .closed) (notListen : turn.tcb.state ≠ .listen)
      (notSent : turn.tcb.state ≠ .synSent) :
      (turn.queueFin.sendWhatWeCan now).Streaming total (ended shut total) := by
    have active := streaming.streams.active_of notClosed notListen notSent
    exact (started turn.queueFin.tcb (.active (active_ended least active))).sendWhatWeCan
  rw [Turn.shutdown]
  split <;> rename_i state
  case h_1 | h_2 | h_3 =>
    exact queued (by simp [state]) (by simp [state]) (by simp [state])
  case h_4 | h_5 =>
    exact ((started { turn.tcb with state := .closed } (.closed rfl)).silent rfl)
  case h_6 notListen notSent =>
    refine started turn.tcb ?_
    cases streaming.streams with
    | closed state => exact .closed state
    | listen state _ _ _ _ _ | synSent state _ _ _ _ => exact absurd state ‹_›
    | active active => exact .active (active_ended least active)

end Streaming

end Turn

end Bhaskix.Net
