import Bhaskix.Library.Serial

/-!
A TCP connection as a function from a control block and an event to a control block and the actions
its owner has to take.
-/

namespace Bhaskix.Net

open Library

abbrev Sequence : Type := Serial

inductive State
  | closed
  | listen
  | synSent
  | synReceived
  | established
  | finWait1
  | finWait2
  | closeWait
  | closing
  | lastAck
  | timeWait
  deriving DecidableEq, Repr

namespace State

def canSend : State → Bool
  | .established | .closeWait => true
  | _ => false

def canReceive : State → Bool
  | .established | .finWait1 | .finWait2 => true
  | _ => false

def afterFin : State → State
  | .established | .synReceived => .finWait1
  | .closeWait => .lastAck
  | state => state

end State

inductive Timer
  | retransmit
  | delayedAck
  | probe
  | timeWait
  deriving DecidableEq, Repr

inductive Ended
  | orderly
  | reset
  | refused
  | unreachable
  | aborted
  deriving DecidableEq, Repr

abbrev defaultMss : UInt16 := 1460

abbrev initialRtoUs : Nat := 1000000

abbrev minRtoUs : Nat := 10000

abbrev maxRtoUs : Nat := 60000000

abbrev delayedAckUs : Nat := 200000

abbrev mslUs : Nat := 30000000

abbrev maxRetransmits : Nat := 8

abbrev maxSynackRetransmits : Nat := 3

abbrev maxActions : Nat := 16

structure Flags where
  fin : Bool := false
  syn : Bool := false
  rst : Bool := false
  psh : Bool := false
  deriving DecidableEq, Repr

structure Segment where
  sequence : Sequence
  acknowledgement : Option Sequence
  flags : Flags
  window : UInt16
  mss : Option UInt16
  payload : List UInt8
  deriving DecidableEq, Repr

def saturate32 (value : Nat) : Nat :=
  min value (2 ^ 32 - 1)

def saturate64 (value : Nat) : Nat :=
  min value (2 ^ 64 - 1)

def Segment.sequenceLength (segment : Segment) : Nat :=
  saturate32 (saturate32 segment.payload.length +
    (segment.flags.syn.toNat + segment.flags.fin.toNat))

inductive Event
  | connect (iss : Sequence) (window : UInt16)
  | listen (iss : Sequence) (window : UInt16)
  | wrote (bytes : UInt32)
  | read (bytes : UInt32)
  | shutdown
  | abort
  | arrived (segment : Segment)
  | expired (timer : Timer)
  deriving DecidableEq, Repr

structure Emit where
  flags : Flags
  sequence : Sequence
  acknowledgement : Option Sequence
  window : UInt16
  length : Nat
  mss : Option UInt16
  deriving DecidableEq, Repr

inductive Action
  | emit (emit : Emit)
  | arm (timer : Timer) (time : Nat)
  | cancel (timer : Timer)
  | delivered (bytes : Nat)
  | acknowledged (bytes : Nat)
  | closed (ended : Ended)
  deriving DecidableEq, Repr

def timerOf : Action → Option Timer
  | .arm timer _ | .cancel timer => some timer
  | _ => none

def pushTo : List Action → Action → List Action
  | [], action => [action]
  | earlier :: rest, action =>
    if timerOf action ≠ none ∧ timerOf earlier = timerOf action then action :: rest
    else earlier :: pushTo rest action

def OneEach (items : List Action) : Prop :=
  items.Pairwise fun action later => timerOf action ≠ none → timerOf action ≠ timerOf later

variable {items : List Action}

theorem mem_pushTo (member : other ∈ pushTo items action) : other = action ∨ other ∈ items := by
  induction items with
  | nil => exact .inl (List.mem_singleton.mp member)
  | cons first rest ih =>
    rw [pushTo] at member
    split at member
    · rcases List.mem_cons.mp member with same | later
      · exact .inl same
      · exact .inr (List.mem_cons_of_mem _ later)
    · rcases List.mem_cons.mp member with same | later
      · exact .inr (same ▸ List.mem_cons_self)
      · exact (ih later).imp_right (List.mem_cons_of_mem _)

theorem OneEach.pushTo (one : OneEach items) (action : Action) : OneEach (pushTo items action) := by
  induction items with
  | nil => exact List.pairwise_singleton ..
  | cons first rest ih =>
    obtain ⟨apart, restOne⟩ := List.pairwise_cons.mp one
    rw [Net.pushTo]
    split
    · rename_i replaced
      refine List.pairwise_cons.mpr ⟨fun other member timed => ?_, restOne⟩
      rw [← replaced.2]
      exact apart other member (replaced.2 ▸ timed)
    · rename_i kept
      refine List.pairwise_cons.mpr ⟨fun other member timed => ?_, ih restOne⟩
      rcases mem_pushTo member with rfl | old
      · exact fun same => kept ⟨same ▸ timed, same⟩
      · exact apart other old timed

structure Actions where
  items : List Action
  oneEach : OneEach items

namespace Actions

def new : Actions :=
  ⟨[], .nil⟩

def push (actions : Actions) (action : Action) : Actions :=
  ⟨pushTo actions.items action, actions.oneEach.pushTo action⟩

end Actions

structure Sender where
  una : Sequence
  nxt : Sequence
  /-- One past the last byte the program has made available. -/
  avail : Sequence
  wnd : UInt16
  iss : Sequence
  finSeq : Option Sequence
  finQueued : Bool
  mss : UInt16
  deriving DecidableEq, Repr

structure Receiver where
  nxt : Sequence
  wnd : UInt16
  capacity : UInt16
  irs : Sequence
  finReceived : Bool
  deriving DecidableEq, Repr

structure Clock where
  srttUs : Option Nat
  rttvarUs : Nat
  rtoUs : Nat
  timing : Option (Sequence × Nat)
  deriving DecidableEq, Repr

structure Tcb where
  state : State
  snd : Sender
  rcv : Receiver
  clock : Clock
  retransmits : Nat
  /-- Segments taken since the last acknowledgement went out. -/
  sinceAck : Nat
  deriving DecidableEq, Repr

def Tcb.new : Tcb :=
  { state := .closed
    snd :=
      { una := 0, nxt := 0, avail := 0, wnd := 0, iss := 0, finSeq := none, finQueued := false,
        mss := defaultMss }
    rcv := { nxt := 0, wnd := 0, capacity := 0, irs := 0, finReceived := false }
    clock := { srttUs := none, rttvarUs := 0, rtoUs := initialRtoUs, timing := none }
    retransmits := 0
    sinceAck := 0 }

/-- An established control block, rebuilt from what an acknowledged cookie stands for. -/
def Tcb.fromCookie (cookie irs : Sequence) (peerWindow capacity mss : UInt16) : Tcb :=
  { state := .established
    snd :=
      { una := cookie.after 1, nxt := cookie.after 1, avail := cookie.after 1, wnd := peerWindow,
        iss := cookie, finSeq := none, finQueued := false, mss }
    rcv := { nxt := irs.after 1, wnd := capacity, capacity, irs, finReceived := false }
    clock := { srttUs := none, rttvarUs := 0, rtoUs := initialRtoUs, timing := none }
    retransmits := 0
    sinceAck := 0 }

namespace Sender

variable (snd : Sender)

def unsent : Nat :=
  if snd.avail.follows snd.nxt then snd.nxt.gap snd.avail else 0

def awaitingAck : Bool :=
  snd.una ≠ snd.nxt

def allowed : Nat :=
  let windowEnd := snd.una.after snd.wnd.toNat
  if windowEnd.follows snd.nxt then snd.nxt.gap windowEnd else 0

def segmentLength : Nat :=
  min (min (min snd.unsent snd.allowed) snd.mss.toNat) (2 ^ 16 - 1)

/-- Whether the `FIN` rides along: only when everything before it is in the segment. -/
def finNow (retransmission : Bool) : Bool :=
  snd.finQueued && snd.finSeq.isNone && decide (snd.segmentLength = snd.unsent) &&
    (retransmission || decide (snd.unsent ≤ snd.allowed))

def finAcked : Bool :=
  snd.finSeq.any fun fin => snd.una.follows fin

/-- What an acknowledgement frees of the program's ring, of which a `FIN` is not a byte. -/
def bytesFreed (ack : Sequence) : Nat :=
  let finIncluded :=
    match snd.finSeq with
    | some fin => !fin.precedes snd.una && fin.precedes ack
    | none => false
  snd.una.gap ack - finIncluded.toNat

end Sender

/-- The window after the program has consumed some bytes; never more than the ring. -/
def Receiver.reopened (rcv : Receiver) (bytes : Nat) : UInt16 :=
  UInt16.ofNat (min rcv.capacity.toNat (saturate32 (rcv.wnd.toNat + bytes)))

def Receiver.taken (rcv : Receiver) (length : Nat) : Nat :=
  min (min length (2 ^ 16 - 1)) rcv.wnd.toNat

/-- Whether the `FIN` of a segment, of which so many bytes were delivered, is what comes next. -/
def Receiver.finNext (rcv : Receiver) (segment : Segment) (delivered : Nat) : Bool :=
  segment.flags.fin && decide (delivered = segment.payload.length) &&
    decide (segment.sequence.after delivered = rcv.nxt)

namespace Clock

variable (clock : Clock)

def measure (sampleUs : Nat) : Clock :=
  let (srtt, rttvar) :=
    match clock.srttUs with
    | none => (sampleUs, sampleUs / 2)
    | some srtt =>
      let difference := max srtt sampleUs - min srtt sampleUs
      ((srtt * 7 + sampleUs) / 8, (clock.rttvarUs * 3 + difference) / 4)
  { clock with
    srttUs := some srtt, rttvarUs := rttvar,
    rtoUs := max minRtoUs (min maxRtoUs (saturate64 (srtt + saturate64 (rttvar * 4)))) }

def finishTiming (ack : Sequence) (now : Nat) : Clock :=
  match clock.timing with
  | none => clock
  | some (sequence, sentAt) =>
    if ack.follows sequence then { clock with timing := none }.measure ((now - sentAt) / 1000)
    else clock

end Clock

def Tcb.retransmitLimit (tcb : Tcb) : Nat :=
  if tcb.state = .synReceived then maxSynackRetransmits else maxRetransmits

structure Turn where
  tcb : Tcb
  actions : Actions

namespace Turn

variable (turn : Turn)

def push (action : Action) : Turn :=
  { turn with actions := turn.actions.push action }

variable (now : Nat)

def armRetransmit : Turn :=
  if turn.tcb.snd.awaitingAck then
    turn.push (.arm .retransmit (saturate64 (now + saturate64 (turn.tcb.clock.rtoUs * 1000))))
  else turn.push (.cancel .retransmit)

def armProbe : Turn :=
  turn.push (.arm .probe (saturate64 (now + saturate64 (turn.tcb.clock.rtoUs * 1000))))

def startTiming : Turn :=
  { turn with tcb.clock.timing := some (turn.tcb.snd.nxt.after (2 ^ 32 - 1), now) }

def finishTiming (ack : Sequence) (now : Nat) : Turn :=
  { turn with tcb.clock := turn.tcb.clock.finishTiming ack now }

def acknowledgeNow : Turn :=
  let sent := turn.push (.emit
    { flags := {}, sequence := turn.tcb.snd.nxt, acknowledgement := some turn.tcb.rcv.nxt,
      window := turn.tcb.rcv.wnd, length := 0, mss := none })
  { sent with tcb.sinceAck := 0 }.push (.cancel .delayedAck)

def advanceCloseState : Turn :=
  { turn with tcb.state := turn.tcb.state.afterFin }

def sendFin : Turn :=
  { turn with
    tcb.snd.finSeq := some turn.tcb.snd.nxt,
    tcb.snd.nxt := turn.tcb.snd.nxt.after 1 }.advanceCloseState

def sendData (finNow : Bool) : Turn :=
  let snd := turn.tcb.snd
  let sent := turn.push (.emit
    { flags := { psh := decide (0 < snd.segmentLength), fin := finNow }, sequence := snd.nxt,
      acknowledgement := some turn.tcb.rcv.nxt, window := turn.tcb.rcv.wnd,
      length := snd.segmentLength, mss := none })
  { sent with tcb.sinceAck := 0, tcb.snd.nxt := snd.nxt.after snd.segmentLength }

/-- One segment of data, a `FIN`, or both; and whether there was anything to send. -/
def sendSegment (retransmission : Bool) : Turn × Bool :=
  let finNow := turn.tcb.snd.finNow retransmission
  if turn.tcb.snd.segmentLength = 0 ∧ finNow = false then (turn, false)
  else if finNow then ((turn.sendData true).sendFin, true)
  else (turn.sendData false, true)

def sendSegments : Turn × Bool :=
  let once := turn.sendSegment false
  if once.2 then ((once.1.sendSegment false).1, true) else (once.1, false)

def armProbeIfClosed : Turn :=
  if turn.tcb.snd.wnd = 0 ∧ 0 < turn.tcb.snd.unsent then turn.armProbe now else turn

def coverSent : Turn :=
  let timed := if turn.tcb.clock.timing.isNone then turn.startTiming now else turn
  timed.armRetransmit now

def sendWhatWeCan : Turn :=
  if turn.tcb.state.canSend = false ∧ turn.tcb.state ≠ .synReceived then turn
  else
    let sent := turn.sendSegments
    let probed := sent.1.armProbeIfClosed now
    if sent.2 then probed.coverSent now else probed

def sendSyn : Turn :=
  let sent := { turn with tcb.state := .synSent }.push (.emit
    { flags := { syn := true }, sequence := turn.tcb.snd.nxt, acknowledgement := none,
      window := turn.tcb.rcv.wnd, length := 0, mss := some turn.tcb.snd.mss })
  { sent with
    tcb.snd.nxt := turn.tcb.snd.nxt.after 1, tcb.snd.avail := turn.tcb.snd.nxt.after 1 }

def startFrom (iss : Sequence) (window : UInt16) : Turn :=
  { turn with
    tcb.snd.iss := iss, tcb.snd.una := iss, tcb.snd.nxt := iss, tcb.snd.avail := iss,
    tcb.rcv.wnd := window, tcb.rcv.capacity := window }

def openWith (iss : Sequence) (window : UInt16) (passive : Bool) (now : Nat) : Turn :=
  if turn.tcb.state ≠ .closed then turn
  else if passive then { turn.startFrom iss window with tcb.state := .listen }
  else (((turn.startFrom iss window).sendSyn).startTiming now).armRetransmit now

def makeAvailable (bytes : Nat) : Turn :=
  { turn with tcb.snd.avail := turn.tcb.snd.avail.after bytes }

def setWindow (window : UInt16) : Turn :=
  { turn with tcb.rcv.wnd := window }

def reopenWindow (bytes : Nat) : Turn :=
  let window := turn.tcb.rcv.reopened bytes
  if turn.tcb.rcv.wnd = 0 ∧ 0 < window ∧ turn.tcb.state.canReceive then
    (turn.setWindow window).acknowledgeNow
  else turn.setWindow window

def close (ended : Ended) : Turn :=
  { turn with tcb.state := .closed }.push (.closed ended)

def queueFin : Turn :=
  { turn with tcb.snd.finQueued := true }

def shutdown : Turn :=
  match turn.tcb.state with
  | .established | .closeWait | .synReceived => turn.queueFin.sendWhatWeCan now
  | .listen | .synSent => turn.close .aborted
  | _ => turn

def abort : Turn :=
  match turn.tcb.state with
  | .closed | .listen => turn.close .aborted
  | _ =>
    (turn.push (.emit
      { flags := { rst := true }, sequence := turn.tcb.snd.nxt, acknowledgement := none,
        window := 0, length := 0, mss := none })).close .aborted

def resendSyn (acknowledgement : Option Sequence) : Turn :=
  let sent := turn.push (.emit
    { flags := { syn := true }, sequence := turn.tcb.snd.una, acknowledgement,
      window := turn.tcb.rcv.wnd, length := 0, mss := some turn.tcb.snd.mss })
  { sent with tcb.snd.nxt := turn.tcb.snd.una.after 1 }

/-- The `FIN` under the number it was given, once everything before it is sent again. -/
def resendFin : Turn :=
  match turn.tcb.snd.finSeq with
  | none => turn
  | some fin =>
    if turn.tcb.snd.una.follows fin = false ∧ turn.tcb.snd.nxt = fin then
      let again := turn.push (.emit
        { flags := { fin := true }, sequence := fin, acknowledgement := some turn.tcb.rcv.nxt,
          window := turn.tcb.rcv.wnd, length := 0, mss := none })
      { again with tcb.snd.nxt := fin.after 1 }
    else turn

def resend : Turn :=
  match turn.tcb.state with
  | .synSent => turn.resendSyn none
  | .synReceived => turn.resendSyn (some turn.tcb.rcv.nxt)
  | _ => (turn.sendSegment true).1.resendFin

/-- Back to the first byte that was not acknowledged. The measurement in flight is abandoned. -/
def goBack : Turn :=
  { turn with
    tcb.retransmits := turn.tcb.retransmits + 1,
    tcb.clock.rtoUs := min (saturate64 (turn.tcb.clock.rtoUs * 2)) maxRtoUs,
    tcb.clock.timing := none,
    tcb.snd.nxt := turn.tcb.snd.una }

def retransmit : Turn :=
  if turn.tcb.state = .closed ∨ turn.tcb.snd.awaitingAck = false then turn
  else
    if turn.tcb.retransmitLimit ≤ turn.tcb.retransmits then turn.close .unreachable
    else (turn.goBack.resend).armRetransmit now

def probe : Turn :=
  if turn.tcb.state.canSend = false ∨ turn.tcb.snd.wnd ≠ 0 ∨ turn.tcb.snd.unsent = 0 then turn
  else
    let sent := turn.push (.emit
      { flags := { psh := true }, sequence := turn.tcb.snd.nxt,
        acknowledgement := some turn.tcb.rcv.nxt, window := turn.tcb.rcv.wnd, length := 1,
        mss := none })
    let moved : Turn := { sent with tcb.snd.nxt := turn.tcb.snd.nxt.after 1 }
    (moved.armProbe now).armRetransmit now

def expired (timer : Timer) (now : Nat) : Turn :=
  match timer with
  | .retransmit => turn.retransmit now
  | .delayedAck => if turn.tcb.state ≠ .closed then turn.acknowledgeNow else turn
  | .probe => turn.probe now
  | .timeWait => if turn.tcb.state = .timeWait then turn.close .orderly else turn

end Turn

def resetFor (segment : Segment) : Option Emit :=
  if segment.flags.rst then none
  else
    let (sequence, acknowledgement) : Sequence × Option Sequence :=
      match segment.acknowledgement with
      | some ack => (ack, none)
      | none => (0, some (segment.sequence.after segment.sequenceLength))
    some
      { flags := { rst := true }, sequence, acknowledgement, window := 0, length := 0, mss := none }

def acceptable (tcb : Tcb) (segment : Segment) : Bool :=
  let length := segment.sequenceLength
  let windowEnd := tcb.rcv.nxt.after tcb.rcv.wnd.toNat
  let inWindow (sequence : Sequence) : Bool :=
    !sequence.precedes tcb.rcv.nxt && sequence.precedes windowEnd
  if length = 0 then
    if tcb.rcv.wnd = 0 then decide (segment.sequence = tcb.rcv.nxt) else inWindow segment.sequence
  else if tcb.rcv.wnd = 0 then false
  else inWindow segment.sequence || inWindow (segment.sequence.after (length - 1))

namespace Turn

variable (turn : Turn) (segment : Segment) (now : Nat) (ack : Sequence)

def closedArrival : Turn :=
  match resetFor segment with
  | some emit => turn.push (.emit emit)
  | none => turn

def announcedMss : UInt16 :=
  match segment.mss with
  | some mss => min mss defaultMss
  | none => turn.tcb.snd.mss

def synchronise : Turn :=
  { turn with
    tcb.rcv.irs := segment.sequence, tcb.rcv.nxt := segment.sequence.after 1,
    tcb.snd.wnd := segment.window, tcb.snd.mss := turn.announcedMss segment }

def answerSyn : Turn :=
  let sent := { turn with tcb.state := .synReceived }.push (.emit
    { flags := { syn := true }, sequence := turn.tcb.snd.iss,
      acknowledgement := some turn.tcb.rcv.nxt, window := turn.tcb.rcv.wnd, length := 0,
      mss := some turn.tcb.snd.mss })
  { sent with tcb.snd.nxt := turn.tcb.snd.iss.after 1 }

def dropUnsent : Turn :=
  { turn with tcb.snd.avail := turn.tcb.snd.nxt }

def listenArrival : Turn :=
  if segment.flags.rst then turn
  else if segment.acknowledgement.isSome then turn.closedArrival segment
  else if segment.flags.syn = false then turn
  else
    ((((turn.synchronise segment).answerSyn).dropUnsent).startTiming now).armRetransmit now

def takeAck (acknowledgement : Option Sequence) : Turn :=
  { turn with tcb.snd.una := acknowledgement.getD turn.tcb.snd.una }

def becomeEstablished : Turn :=
  { turn with tcb.state := .established }.finishTiming turn.tcb.snd.una now

def synSentArrival : Turn :=
  let stray : Option Sequence :=
    segment.acknowledgement.filter fun ack =>
      !ack.follows turn.tcb.snd.iss || ack.follows turn.tcb.snd.nxt
  match stray with
  | some ack =>
    if segment.flags.rst then turn
    else
      turn.push (.emit
        { flags := { rst := true }, sequence := ack, acknowledgement := none, window := 0,
          length := 0, mss := none })
  | none =>
    if segment.flags.rst then
      if segment.acknowledgement.isSome then turn.close .refused else turn
    else if segment.flags.syn = false then turn
    else
      let acked := (turn.synchronise segment).takeAck segment.acknowledgement
      if acked.tcb.snd.una.follows acked.tcb.snd.iss then
        (((acked.becomeEstablished now).acknowledgeNow).armRetransmit now).sendWhatWeCan now
      else acked.answerSyn.armRetransmit now

def enterTimeWait : Turn :=
  ({ turn with tcb.state := .timeWait }.push (.cancel .retransmit)).push
    (.arm .timeWait (saturate64 (now + saturate64 (mslUs * 2000))))

def advanceAfterAck : Turn :=
  if turn.tcb.snd.finAcked then
    match turn.tcb.state with
    | .finWait1 => { turn with tcb.state := .finWait2 }
    | .closing => turn.enterTimeWait now
    | .lastAck => turn.close .orderly
    | _ => turn
  else turn

def advanceUna : Turn :=
  { turn with tcb.snd.una := ack, tcb.retransmits := 0 }

def tellAcknowledged (bytes : Nat) : Turn :=
  if 0 < bytes then turn.push (.acknowledged bytes) else turn

def freeAcknowledged (now : Nat) : Turn :=
  let told := (turn.advanceUna ack).tellAcknowledged (turn.tcb.snd.bytesFreed ack)
  (told.finishTiming ack now).armRetransmit now

def acknowledge (now : Nat) : Turn :=
  (turn.freeAcknowledged ack now).advanceAfterAck now

def establish (now : Nat) : Turn :=
  ((turn.takeAck (some ack)).becomeEstablished now).armRetransmit now

def noteWindow (window : UInt16) : Turn :=
  { turn with tcb.snd.wnd := window }

def takeWindow (window : UInt16) : Turn :=
  if turn.tcb.snd.wnd = 0 ∧ 0 < window then (turn.noteWindow window).push (.cancel .probe)
  else turn.noteWindow window

/-- Takes note of the acknowledgement; and whether the segment is looked at further. -/
def processAck (segment : Segment) (ack : Sequence) (now : Nat) : Turn × Bool :=
  if ack.follows turn.tcb.snd.nxt then (turn.acknowledgeNow, false)
  else if turn.tcb.state = .synReceived ∧ ack.follows turn.tcb.snd.iss = false then (turn, false)
  else
    let opened : Turn := if turn.tcb.state = .synReceived then turn.establish ack now else turn
    let acked := if ack.follows opened.tcb.snd.una then opened.acknowledge ack now else opened
    (acked.takeWindow segment.window, true)

def take (count : Nat) : Turn :=
  { turn with
    tcb.rcv.nxt := turn.tcb.rcv.nxt.after count,
    tcb.rcv.wnd := turn.tcb.rcv.wnd - UInt16.ofNat count }.push (.delivered count)

def deliver (segment : Segment) : Turn × Nat :=
  if turn.tcb.state.canReceive = false ∨ segment.payload = [] then (turn, 0)
  else if segment.sequence ≠ turn.tcb.rcv.nxt then (turn, 0)
  else if turn.tcb.rcv.taken segment.payload.length = 0 then (turn, 0)
  else
    (turn.take (turn.tcb.rcv.taken segment.payload.length),
      turn.tcb.rcv.taken segment.payload.length)

def countSegment : Turn :=
  { turn with tcb.sinceAck := min (turn.tcb.sinceAck + 1) (2 ^ 8 - 1) }

/-- Every second segment is acknowledged at once; so is one that closes the window. -/
def acknowledgeOrDelay : Turn :=
  let counted := turn.countSegment
  if 2 ≤ counted.tcb.sinceAck ∨ counted.tcb.rcv.wnd = 0 then counted.acknowledgeNow
  else counted.push (.arm .delayedAck (saturate64 (now + saturate64 (delayedAckUs * 1000))))

def takeFin : Turn :=
  { turn with tcb.rcv.finReceived := true, tcb.rcv.nxt := turn.tcb.rcv.nxt.after 1 }

def peerClosed : Turn :=
  let acked := turn.acknowledgeNow
  match acked.tcb.state with
  | .established | .synReceived => { acked with tcb.state := .closeWait }
  | .finWait1 => { acked with tcb.state := .closing }
  | .finWait2 => acked.enterTimeWait now
  | _ => acked

def receive : Turn :=
  let taken := (turn.deliver segment).1
  let delivered := (turn.deliver segment).2
  if taken.tcb.rcv.finNext segment delivered ∧ taken.tcb.rcv.finReceived = false then
    taken.takeFin.peerClosed now
  else if 0 < delivered then taken.acknowledgeOrDelay now
  else taken

def synchronisedArrival : Turn :=
  if acceptable turn.tcb segment = false then
    if segment.flags.rst = false ∧ segment.sequence.precedes turn.tcb.rcv.nxt then
      turn.acknowledgeNow
    else turn
  else if segment.flags.rst then
    turn.close (if turn.tcb.state = .synReceived then .refused else .reset)
  else if segment.flags.syn ∧ segment.sequence ≠ turn.tcb.rcv.irs then turn.abort
  else
    match segment.acknowledgement with
    | none => turn
    | some ack =>
      let (acked, continues) := turn.processAck segment ack now
      if continues then (acked.receive segment now).sendWhatWeCan now else acked

def arrived : Turn :=
  match turn.tcb.state with
  | .closed => turn.closedArrival segment
  | .listen => turn.listenArrival segment now
  | .synSent => turn.synSentArrival segment now
  | _ => turn.synchronisedArrival segment now

end Turn

def step (tcb : Tcb) (event : Event) (now : Nat) : Turn :=
  let turn : Turn := { tcb, actions := .new }
  match event with
  | .connect iss window => turn.openWith iss window false now
  | .listen iss window => turn.openWith iss window true now
  | .wrote bytes => (turn.makeAvailable bytes.toNat).sendWhatWeCan now
  | .read bytes => turn.reopenWindow bytes.toNat
  | .shutdown => turn.shutdown now
  | .abort => turn.abort
  | .arrived segment => turn.arrived segment now
  | .expired timer => turn.expired timer now

end Bhaskix.Net
