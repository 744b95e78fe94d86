import Bhaskix.Library.Run
import Bhaskix.Net.TcpEmits
import Bhaskix.Net.TcpDelivers
import Bhaskix.Net.TcpMoves

/-!
Two connections, and a network that loses, repeats, delays and reorders what they send.
-/

namespace Bhaskix.Net

open Library Function List

/-- What may happen at one end. A write names the bytes the program put in its ring. -/
inductive Move
  | connect (iss : Sequence) (window : UInt16)
  | listen (iss : Sequence) (window : UInt16)
  | write (bytes : List UInt8)
  | read (bytes : UInt32)
  | shutdown
  | abort
  | arrive (segment : Segment)
  | expire (timer : Timer)
  deriving DecidableEq, Repr

namespace Move

def event : Move → Event
  | .connect iss window => .connect iss window
  | .listen iss window => .listen iss window
  | .write bytes => .wrote (UInt32.ofNat bytes.length)
  | .read bytes => .read bytes
  | .shutdown => .shutdown
  | .abort => .abort
  | .arrive segment => .arrived segment
  | .expire timer => .expired timer

def opens : Move → Bool
  | .connect _ _ | .listen _ _ => true
  | _ => false

def bytes : Move → List UInt8
  | .write bytes => bytes
  | _ => []

def payload : Move → List UInt8
  | .arrive segment => segment.payload
  | _ => []

def ends (move : Move) (shut : Option Nat) (total : Nat) : Option Nat :=
  match move with
  | .shutdown => Turn.Streaming.ended shut total
  | _ => shut

theorem ends_kept (move : Move) (total count : Nat)
    (shutAt : shut = some count) : move.ends shut total = some count := by
  subst shutAt
  cases move <;> rfl

theorem ends_le (move : Move) (least : ∀ count, shut = some count → count ≤ total) (count : Nat)
    (shutAt : move.ends shut total = some count) : count ≤ total := by
  cases move with
  | shutdown =>
    cases shut with
    | none => exact (Option.some.inj shutAt).symm.le
    | some ended => exact least count shutAt
  | _ => exact least count shutAt

end Move

namespace Emit

/-- The bytes a range of the stream names: byte `k` has the number `iss + 1 + k`. -/
def payload (emit : Emit) (iss : Sequence) (written : List UInt8) : List UInt8 :=
  (List.range emit.length).map fun index =>
    written.getD ((iss.after 1).gap emit.sequence + index) 0

def segment (emit : Emit) (payload : List UInt8) : Segment :=
  { sequence := emit.sequence, acknowledgement := emit.acknowledgement, flags := emit.flags,
    window := emit.window, mss := emit.mss, payload }

variable {emit : Emit} {iss : Sequence} {written : List UInt8}

theorem length_payload : (emit.payload iss written).length = emit.length := by
  rw [payload, length_map, length_range]

theorem payload_of_empty (none : emit.length = 0) : emit.payload iss written = [] := by
  rw [← length_eq_zero_iff, length_payload, none]

theorem payload_isPrefix (some_ : 0 < iss.gap emit.sequence)
    (fits : iss.gap emit.sequence + emit.length ≤ written.length + 1) :
    emit.payload iss written <+: written.drop (iss.gap emit.sequence - 1) := by
  have one : iss.gap (iss.after 1) = 1 := Serial.gap_self_after (by decide)
  have offset : (iss.after 1).gap emit.sequence = iss.gap emit.sequence - 1 := by
    rw [Serial.gap_of_le (one.trans_le some_), one]
  rw [prefix_iff_eq_take, length_payload]
  refine List.ext_getElem ?_ fun index inside _ => ?_
  · rw [length_payload, length_take, length_drop]
    omega
  rw [length_payload] at inside
  rw [List.getElem_take, List.getElem_drop]
  simp only [payload, offset, List.getElem_map, List.getElem_range]
  exact (List.getElem_eq_getD 0).symm

theorem Fits.truthful (fits : emit.Fits iss written.length shut) :
    (emit.segment (emit.payload iss written)).Truthful iss written shut := by
  refine ⟨fits.syn, fun bytes some_ => ?_, fun flag => ?_⟩
  · have some' : 0 < emit.length := by
      rw [← @length_payload emit iss written]
      exact length_pos_iff.mpr bytes
    exact payload_isPrefix some_ (fits.data some' some_)
  · obtain ⟨_, least, ended⟩ := fits.fin flag
    have length : (emit.segment (emit.payload iss written)).payload.length = emit.length :=
      length_payload
    rw [length]
    exact ⟨least, ended⟩

end Emit

section

theorem Segment.Truthful.extend {segment : Segment} (truthful : segment.Truthful iss written shut)
    (more : List UInt8) (kept : ∀ count, shut = some count → later = some count) :
    segment.Truthful iss (written ++ more) later := by
  refine ⟨truthful.syn, fun bytes some_ => ?_, fun flag => ?_⟩
  · have before := truthful.data bytes some_
    rw [drop_append]
    exact before.trans (prefix_append _ _)
  · obtain ⟨least, count, shutAt, past⟩ := truthful.fin flag
    rw [length_append]
    exact ⟨least.trans (by omega), count, kept count shutAt, past⟩

theorem Receiving.extend (receiving : Receiving tcb delivered iss written shut)
    (more : List UInt8) (kept : ∀ count, shut = some count → later = some count) :
    Receiving tcb delivered iss (written ++ more) later := by
  cases receiving with
  | fresh unsynchronised none fin => exact .fresh unsynchronised none fin
  | synchronised synchronised =>
    refine .synchronised ⟨synchronised.live,
      synchronised.stream.trans (prefix_append _ _), synchronised.nxt, fun fin => ?_⟩
    obtain ⟨done, count, shutAt, past⟩ := synchronised.fin fin
    exact ⟨done, count, kept count shutAt, past⟩

end

/-- A control block with what its program wrote, was handed, and every segment sent. -/
structure Party where
  tcb : Tcb
  opened : Bool
  written : List UInt8
  shut : Option Nat
  sent : List Segment
  delivered : List UInt8

namespace Party

def new : Party :=
  { tcb := .new, opened := false, written := [], shut := none, sent := [], delivered := [] }

variable (party : Party)

def take (move : Move) (now : Nat) : Party :=
  let turn := step party.tcb move.event now
  let written := party.written ++ move.bytes
  { tcb := turn.tcb
    opened := party.opened || move.opens
    written
    shut := move.ends party.shut party.written.length
    sent := party.sent ++
      turn.actions.emits.map fun emit => emit.segment (emit.payload turn.tcb.snd.iss written)
    delivered := party.delivered ++ turn.handed move.payload }

/-- A connection is opened once, and the network delivers only what `peer` has sent. -/
def Allows (peer : Party) : Move → Prop
  | .connect _ _ | .listen _ _ => party.opened = false
  | .write bytes => party.opened = true ∧ party.written.length + bytes.length < 2 ^ 31
  | .read _ | .shutdown | .abort => party.opened = true
  | .arrive segment => segment ∈ peer.sent
  | .expire _ => True

instance (party peer : Party) : DecidablePred (party.Allows peer)
  | .connect _ _ | .listen _ _ => inferInstanceAs (Decidable (_ = _))
  | .write _ => inferInstanceAs (Decidable (_ ∧ _))
  | .read _ | .shutdown | .abort => inferInstanceAs (Decidable (_ = _))
  | .arrive _ => inferInstanceAs (Decidable (_ ∈ _))
  | .expire _ => inferInstanceAs (Decidable True)

def Careful : Move → Prop
  | .write _ => party.tcb.state ≠ .listen
  | _ => True

instance (party : Party) : DecidablePred party.Careful := fun move =>
  match move with
  | .write _ => inferInstanceAs (Decidable (_ ≠ _))
  | .connect _ _ | .listen _ _ | .read _ | .shutdown | .abort | .arrive _ | .expire _ =>
    inferInstanceAs (Decidable True)

def Starts (iss : Sequence) : Prop :=
  party.opened = true → iss = party.tcb.snd.iss

structure Unopened (party : Party) : Prop where
  state : party.tcb.state = .closed
  finSeq : party.tcb.snd.finSeq = none
  finQueued : party.tcb.snd.finQueued = false
  written : party.written = []
  delivered : party.delivered = []
  finReceived : party.tcb.rcv.finReceived = false

structure Sending (party : Party) : Prop where
  few : party.written.length < 2 ^ 31
  shut : ∀ count, party.shut = some count → count ≤ party.written.length
  streams : Streams party.tcb.state party.tcb.snd party.written.length party.shut
  unopened : party.opened = false → party.Unopened
  truthful : ∀ iss, party.Starts iss →
    ∀ segment ∈ party.sent, segment.Truthful iss party.written party.shut

def Hears (peer : Party) : Prop :=
  ∀ iss, peer.Starts iss → Receiving party.tcb party.delivered iss peer.written peer.shut

variable {party peer : Party} {move : Move} {now : Nat}

theorem Allows.length_written (allowed : party.Allows peer move)
    (few : party.written.length < 2 ^ 31) : party.written.length + move.bytes.length < 2 ^ 31 := by
  cases move with
  | write bytes => exact allowed.2
  | _ => exact few

theorem streaming_take (sending : party.Sending) (allowed : party.Allows peer move)
    (careful : party.Careful move) :
    (step party.tcb move.event now).Streaming (party.written ++ move.bytes).length
      (move.ends party.shut party.written.length) := by
  have start : (⟨party.tcb, .new⟩ : Turn).Streaming party.written.length party.shut :=
    ⟨sending.streams, nofun⟩
  have none : party.written.length + ([] : List UInt8).length = party.written.length := rfl
  rw [length_append]
  cases move with
  | connect iss window | listen iss window =>
    have unopened := sending.unopened allowed
    exact start.openWith ⟨unopened.finSeq, unopened.finQueued⟩
      (length_eq_zero_iff.mpr unopened.written) rfl
  | write bytes =>
    have few := allowed.2
    have length : party.written.length + (UInt32.ofNat bytes.length).toNat =
        party.written.length + bytes.length := by
      rw [UInt32.toNat_ofNat_of_lt' (by rw [UInt32.size]; omega)]
    have sent := @Turn.Streaming.wrote _ _ _ now start (UInt32.ofNat bytes.length).toNat careful
      (length.trans_lt few) rfl
    rw [length] at sent
    exact sent
  | read bytes => exact start.reopenWindow bytes.toNat
  | shutdown => exact start.shutdown sending.shut rfl
  | abort => exact start.abort
  | arrive segment => exact start.arrived segment
  | expire timer => exact start.expired timer

theorem step_closed {tcb : Tcb} (closed : tcb.state = .closed)
    (plain : (∃ segment, move = .arrive segment) ∨ ∃ timer, move = .expire timer) :
    (step tcb move.event now).tcb = tcb ∧ (step tcb move.event now).actions.taken = [] ∧
      ∀ emit ∈ (step tcb move.event now).actions.emits, emit.flags.syn = false ∧
        emit.flags.fin = false ∧ emit.length = 0 := by
  rcases plain with ⟨segment, rfl⟩ | ⟨timer, rfl⟩
  · have arrives : step tcb (Move.arrive segment).event now =
        (⟨tcb, .new⟩ : Turn).closedArrival segment := by
      rw [Move.event, step, Turn.arrived]
      split <;> simp_all
    have taken := (Turn.still_closedArrival ⟨tcb, .new⟩ segment).quiet.taken
    rw [arrives]
    refine ⟨?_, taken, ?_⟩
    · rw [Turn.closedArrival]
      split <;> rfl
    rw [Turn.closedArrival]
    split
    · rename_i emit answer
      intro other member
      have member' : other ∈ (Actions.new.push (.emit emit)).emits := member
      rw [Actions.emits_push] at member'
      have same : other = emit := mem_singleton.mp member'
      rw [same]
      exact Turn.resetFor_bare answer
    · simp [Actions.emits, Actions.new]
  · have expires : step tcb (Move.expire timer).event now = ⟨tcb, .new⟩ := by
      cases timer <;> simp [Move.event, step, Turn.expired, closed, Turn.retransmit, Turn.probe,
        State.canSend]
    rw [expires]
    exact ⟨rfl, rfl, by simp [Actions.emits, Actions.new]⟩

section

variable (allowed : party.Allows peer move)
include allowed

theorem iss_take (opened : party.opened = true) :
    (step party.tcb move.event now).tcb.snd.iss = party.tcb.snd.iss := by
  cases move with
  | connect iss window | listen iss window => exact absurd (opened.symm.trans allowed) nofun
  | write _ | read _ | shutdown | abort | arrive _ | expire _ => exact (takes_step _ _ now).iss rfl

theorem Starts.before (starts : (party.take move now).Starts iss) : party.Starts iss := by
  intro opened
  have same : iss = (step party.tcb move.event now).tcb.snd.iss :=
    starts (by rw [take, opened, Bool.true_or])
  exact same.trans (iss_take allowed opened)

theorem Allows.of_unopened (unopened : (party.opened || move.opens) = false) :
    (∃ segment, move = .arrive segment) ∨ ∃ timer, move = .expire timer := by
  rw [Bool.or_eq_false_iff] at unopened
  cases move with
  | arrive segment => exact .inl ⟨segment, rfl⟩
  | expire timer => exact .inr ⟨timer, rfl⟩
  | connect _ _ | listen _ _ => exact absurd unopened.2 nofun
  | write _ => exact absurd (unopened.1.symm.trans allowed.1) nofun
  | read _ | shutdown | abort => exact absurd (unopened.1.symm.trans allowed) nofun

theorem Sending.take (sending : party.Sending)
    (careful : party.Careful move) : (party.take move now).Sending := by
  have streaming := @streaming_take party peer move now sending allowed careful
  have few := allowed.length_written sending.few
  refine ⟨?_, fun count shutAt => ?_, streaming.streams, fun unopened => ?_,
    fun iss starts segment member => ?_⟩
  · exact length_append.trans_lt few
  · have least := move.ends_le sending.shut count shutAt
    exact least.trans (length_append.symm ▸ Nat.le_add_right _ _)
  · have fresh := sending.unopened (Bool.or_eq_false_iff.mp unopened).1
    obtain ⟨same, taken, _⟩ := step_closed fresh.state (allowed.of_unopened unopened)
    have handed : (step party.tcb move.event now).handed move.payload = [] := by
      rw [Turn.handed, taken]
      rfl
    have none : move.bytes = [] := by
      rcases allowed.of_unopened unopened with ⟨_, rfl⟩ | ⟨_, rfl⟩ <;> rfl
    have tcb : (party.take move now).tcb = party.tcb := same
    refine ⟨tcb ▸ fresh.state, tcb ▸ fresh.finSeq, tcb ▸ fresh.finQueued, ?_, ?_,
      tcb ▸ fresh.finReceived⟩
    · rw [Party.take, fresh.written, none, nil_append]
    · rw [Party.take, fresh.delivered, handed, nil_append]
  · rcases mem_append.mp member with old | new
    · have before := sending.truthful iss (starts.before allowed) segment old
      exact before.extend move.bytes (move.ends_kept party.written.length)
    obtain ⟨emit, emitted, rfl⟩ := mem_map.mp new
    cases opened : party.opened || move.opens with
    | true =>
      have same : iss = (step party.tcb move.event now).tcb.snd.iss := starts opened
      rw [same]
      exact (streaming.emits emit emitted).truthful
    | false =>
      have fresh := sending.unopened (Bool.or_eq_false_iff.mp opened).1
      obtain ⟨_, _, bare⟩ := step_closed fresh.state (allowed.of_unopened opened)
      obtain ⟨syn, fin, length⟩ := bare emit emitted
      have fits : emit.Fits iss (party.written ++ move.bytes).length
        (move.ends party.shut party.written.length) := .of_bare syn fin length
      have truthful := fits.truthful
      rw [Emit.payload_of_empty length] at truthful ⊢
      exact truthful

end

theorem quiet_take (open_ : move.opens = false) (plain : ∀ segment, move ≠ .arrive segment) :
    Turn.Quiet ⟨party.tcb, .new⟩ (step party.tcb move.event now) := by
  cases move with
  | connect _ _ | listen _ _ => contradiction
  | write bytes => exact (Turn.still_wrote _ now _).quiet
  | read bytes => exact (Turn.still_reopenWindow _ _).quiet
  | shutdown => exact (Turn.still_shutdown _ now).quiet
  | abort => exact (Turn.still_abort _).quiet
  | arrive segment => exact absurd rfl (plain segment)
  | expire timer => exact (Turn.still_expired _ now timer).quiet

theorem Allows.of_opens (allowed : party.Allows peer move) (opens : move.opens = true) :
    party.opened = false := by
  cases move with
  | connect _ _ | listen _ _ => exact allowed
  | _ => contradiction

theorem Unopened.receiving_opens (unopened : party.Unopened) (opens : move.opens = true)
    {written : List UInt8} {shut : Option Nat} :
    Receiving (party.take move now).tcb (party.take move now).delivered iss written shut := by
  have fresh : party.tcb.state.unsynchronised = true := by
    rw [unopened.state]
    rfl
  have opened (number : Sequence) (window : UInt16) (passive : Bool)
      (same : step party.tcb move.event now =
        (⟨party.tcb, .new⟩ : Turn).openWith number window passive now) :
      Receiving (party.take move now).tcb (party.take move now).delivered iss written shut := by
    obtain ⟨state, fin, taken⟩ :=
      Turn.openWith_unsynchronised ⟨party.tcb, .new⟩ now number window passive fresh
    rw [← same] at state fin taken
    refine .fresh state ?_ (fin.trans unopened.finReceived)
    rw [take, unopened.delivered, Turn.handed, taken]
    rfl
  cases move with
  | connect number window => exact opened number window false rfl
  | listen number window => exact opened number window true rfl
  | _ => contradiction

theorem Hears.take (hears : party.Hears peer) (sending : party.Sending) (truthful : peer.Sending)
    (allowed : party.Allows peer move) : (party.take move now).Hears peer := by
  intro iss starts
  have receiving := hears iss starts
  cases opens : move.opens with
  | true =>
    have fresh := sending.unopened (allowed.of_opens opens)
    exact fresh.receiving_opens opens
  | false =>
    by_cases arrival : ∃ segment, move = .arrive segment
    · obtain ⟨segment, rfl⟩ := arrival
      exact Turn.receiving_arrived rfl receiving (truthful.truthful iss starts segment allowed)
        truthful.few
    rw [not_exists] at arrival
    have quiet := @quiet_take party move now opens arrival
    have start : Receiving (⟨party.tcb, .new⟩ : Turn).tcb
        (party.delivered ++ (⟨party.tcb, .new⟩ : Turn).handed move.payload) iss peer.written
        peer.shut := by
      rw [show (⟨party.tcb, .new⟩ : Turn).handed move.payload = [] from rfl, append_nil]
      exact receiving
    exact quiet.receiving start

theorem Hears.peer_take (hears : party.Hears peer) (allowed : peer.Allows party move) :
    party.Hears (peer.take move now) := by
  intro iss starts
  exact (hears iss (starts.before allowed)).extend move.bytes (move.ends_kept peer.written.length)

end Party

abbrev World : Type :=
  Bool → Party

namespace World

def new : World :=
  fun _ => .new

def take (input : Bool × Move × Nat) (world : World) : World :=
  update world input.1 ((world input.1).take input.2.1 input.2.2)

def Allows (world : World) (input : Bool × Move × Nat) : Prop :=
  (world input.1).Allows (world !input.1) input.2.1

def Careful (world : World) (input : Bool × Move × Nat) : Prop :=
  (world input.1).Careful input.2.1

/-- One end was handed what the other wrote, in order, and sees the end only behind all of it. -/
def InOrder (world : World) (receiver : Bool) : Prop :=
  (world receiver).delivered <+: (world !receiver).written ∧
    ((world receiver).tcb.rcv.finReceived = true →
      ∃ count, (world !receiver).shut = some count ∧ count ≤ (world receiver).delivered.length)

structure Faithful (world : World) : Prop where
  sending : ∀ who, (world who).Sending
  hears : ∀ who, (world who).Hears (world !who)

variable {world : World}

theorem Faithful.take (faithful : world.Faithful)
    (allowed : world.Allows input) (careful : world.Careful input) :
    (World.take input world).Faithful := by
  obtain ⟨actor, move, now⟩ := input
  have moved : World.take (actor, move, now) world actor = (world actor).take move now :=
    update_self ..
  have stays {other : Bool} (apart : other ≠ actor) :
      World.take (actor, move, now) world other = world other := update_of_ne apart ..
  have peer : World.take (actor, move, now) world (!actor) = world !actor :=
    stays (by cases actor <;> nofun)
  constructor
  · intro who
    by_cases acts : who = actor
    · rw [acts, moved]
      exact (faithful.sending actor).take allowed careful
    · rw [stays acts]
      exact faithful.sending who
  intro who
  by_cases acts : who = actor
  · rw [acts, moved, peer]
    exact (faithful.hears actor).take (faithful.sending actor) (faithful.sending !actor) allowed
  have other : actor = !who := by
    cases who <;> cases actor <;> simp_all
  subst other
  rw [stays acts, moved]
  have allowed' : (world !who).Allows (world who) move := by
    have given := allowed
    rw [Allows, Bool.not_not] at given
    exact given
  exact (faithful.hears who).peer_take allowed'

theorem faithful_new : new.Faithful where
  sending _ := ⟨Nat.two_pow_pos 31, nofun, .closed rfl, fun _ => ⟨rfl, rfl, rfl, rfl, rfl, rfl⟩,
    nofun⟩
  hears _ _ _ := .fresh rfl rfl rfl

theorem Faithful.inOrder (faithful : world.Faithful) (receiver : Bool) :
    world.InOrder receiver := by
  have receiving := faithful.hears receiver (world !receiver).tcb.snd.iss fun _ => rfl
  cases receiving with
  | fresh _ none fin =>
    rw [InOrder, none]
    exact ⟨List.nil_prefix, fun seen => absurd (fin.symm.trans seen) nofun⟩
  | synchronised synchronised => exact ⟨synchronised.stream, fun fin => (synchronised.fin fin).2⟩

instance (world : World) : DecidablePred world.Allows := fun input =>
  inferInstanceAs (Decidable ((world input.1).Allows (world !input.1) input.2.1))

instance (world : World) : DecidablePred world.Careful := fun input =>
  inferInstanceAs (Decidable ((world input.1).Careful input.2.1))

/-- Whatever the network does, where no program writes before its end has a peer. -/
theorem delivered_inOrder
    (reached : Reached take (fun world input => world.Allows input ∧ world.Careful input) new world)
    (receiver : Bool) : world.InOrder receiver :=
  Faithful.inOrder (reached.invariant (motive := Faithful) faithful_new
    fun _ faithful meets => faithful.take meets.1 meets.2) receiver

def arrives (sequence : Sequence) (acknowledgement : Option Sequence) (flags : Flags)
    (payload : List UInt8) : Move :=
  let mss := if flags.syn then some defaultMss else none
  .arrive { sequence, acknowledgement, flags, window := 1000, mss, payload }

/-- One end listens and the other connects; the first makes some moves before it has a peer and some
after. -/
def opening (early late : List Move) : List (Bool × Move × Nat) :=
  (false, .listen 500 1000, 0) :: early.map (fun move => (false, move, 0)) ++
    [(true, .connect 100 1000, 0), (false, arrives 100 none { syn := true } [], 0),
      (true, arrives 500 (some 101) { syn := true } [], 0),
      (false, arrives 101 (some 501) {} [], 0)] ++
    late.map (fun move => (false, move, 0))

def writesLate : List (Bool × Move × Nat) :=
  opening [] [.write [7, 8]] ++ [(true, arrives 501 (some 101) { psh := true } [7, 8], 0)]

def writesEarly : List (Bool × Move × Nat) :=
  opening [.write [7]] [.shutdown] ++ [(true, arrives 501 (some 101) { fin := true } [], 0)]

theorem delivered_inOrder_writesLate :
    (run take writesLate new true).delivered = [7, 8] ∧ (run take writesLate new).InOrder true :=
  ⟨by decide +kernel,
    delivered_inOrder (Reached.start.run_of_meet writesLate (by decide +kernel)) true⟩

theorem not_delivered_inOrder :
    ¬∀ world, Reached take Allows new world → ∀ receiver, world.InOrder receiver := by
  intro always
  have ordered := always _ (Reached.start.run_of_meet writesEarly (by decide +kernel)) true
  obtain ⟨count, ended, behind⟩ := ordered.2 (by decide +kernel)
  have shut : (run take writesEarly new (!true)).shut = some 1 := by decide +kernel
  have delivered : (run take writesEarly new true).delivered.length = 0 := by decide +kernel
  have one : count = 1 := Option.some.inj (ended.symm.trans shut)
  omega

end World

end Bhaskix.Net
