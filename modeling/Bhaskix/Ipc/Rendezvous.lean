import Bhaskix.Library.Run
import Bhaskix.Library.Slots

/-!
Synchronous calls: threads that meet at endpoints, with one mailbox and one obligation to answer
each. A step is what a thread does while it holds one lock, so a thread that waits may look again
at any time.

Calls are numbered. No function reads a number: they say which call a message, an obligation or a
refusal is about.
-/

namespace Bhaskix.Rendezvous

open Library

abbrev maxEndpoints : Nat := 32

abbrev maxQueued : Nat := 16

abbrev ThreadId : Type := UInt32

structure Message where
  method : UInt64
  args : Vector UInt64 4
  badge : UInt64
  deriving DecidableEq, Repr

inductive IpcError
  | noSuchEndpoint
  | congested
  | exhausted
  | serverGone
  | callerDying
  | refused (status : UInt32)
  deriving DecidableEq, Repr

structure PendingSend where
  thread : ThreadId
  message : Message
  call : Nat
  deriving DecidableEq, Repr

structure Endpoint where
  generation : UInt32
  senders : List (Option PendingSend)
  receivers : List (Option ThreadId)
  live : Bool

namespace Endpoint

def empty : Endpoint :=
  { generation := 0, senders := .replicate maxQueued none, receivers := .replicate maxQueued none,
    live := false }

def remove (endpoint : Endpoint) (thread : ThreadId) : Endpoint :=
  { endpoint with
    senders := Slots.clear (fun pending => decide (pending.thread = thread)) endpoint.senders,
    receivers := Slots.clear (fun receiver => decide (receiver = thread)) endpoint.receivers }

end Endpoint

structure Letter where
  message : Message
  sender : ThreadId
  call : Nat
  answer : Bool
  deriving DecidableEq, Repr

inductive Doing
  | idle
  /-- `call` has met a receiver and is to deliver to it. -/
  | handing (id : Nat) (partner : ThreadId) (message : Message) (call : Nat)
  /-- `call` waits for its answer. -/
  | awaiting (id : Nat) (call : Nat)
  | meeting (id : Nat)
  /-- `recv_either` has a message and is to complete what came with it. -/
  | taking (id : Nat) (partner : ThreadId) (message : Message) (call : Nat)
  | waiting (id : Nat)
  /-- `recv_either` found no message and is to look at its notification. -/
  | checking (id : Nat)
  | abandoning (id : Nat)
  | answering (caller : ThreadId) (message : Message) (call : Nat)
  | restoring (owed : ThreadId) (call : Nat)
  | settling
  | releasing (caller : ThreadId) (call : Nat)
  | finishing
  | finished
  deriving DecidableEq, Repr

structure Thread where
  mailbox : Option Letter
  answerLost : Option Nat
  callRefused : Option (UInt32 × Nat)
  replyTo : Option (ThreadId × Nat)
  dying : Bool
  /-- A thread that has finished stays in its queue until it is reaped. -/
  present : Bool
  doing : Doing

def Thread.new : Thread :=
  { mailbox := none, answerLost := none, callRefused := none, replyTo := none, dying := false,
    present := true, doing := .idle }

inductive Event
  | called (caller : ThreadId) (call : Nat) (message : Message)
  | took (server caller : ThreadId) (call : Nat) (message : Message)
  | answered (server caller : ThreadId) (call : Nat) (message : Message)
  | refused (server caller : ThreadId) (call : Nat) (status : UInt32)
  | abandoned (server caller : ThreadId) (call : Nat)
  | returned (caller : ThreadId) (call : Nat) (outcome : Except IpcError Message)

structure World where
  endpoints : Nat → Endpoint
  threads : ThreadId → Thread
  calls : Nat
  history : List Event

namespace World

def start : World :=
  { endpoints := fun _ => .empty, threads := fun _ => .new, calls := 0, history := [] }

variable (world : World)

def setEndpoint (id : Nat) (endpoint : Endpoint) : World :=
  { world with endpoints := Function.update world.endpoints id endpoint }

variable (self : ThreadId) (id : Nat) (thread : ThreadId) (bits : UInt64)

def modify (change : Thread → Thread) : World :=
  { world with
    threads := Function.update world.threads thread (change (world.threads thread)) }

def goOn (thread : ThreadId) (doing : Doing) : World :=
  world.modify thread fun self => { self with doing }

def record (event : Event) : World :=
  { world with history := event :: world.history }

def vacant : Option Nat :=
  (List.range maxEndpoints).find? fun index => !(world.endpoints index).live

def create : Except IpcError Nat × World :=
  match world.vacant with
  | none => (.error .exhausted, world)
  | some index =>
    (.ok index, world.setEndpoint index
      { Endpoint.empty with generation := (world.endpoints index).generation, live := true })

def destroy : Nat × World :=
  let endpoint := world.endpoints id
  if endpoint.live then
    (endpoint.senders.reduceOption.length + endpoint.receivers.reduceOption.length,
      world.setEndpoint id { Endpoint.empty with generation := endpoint.generation + 1 })
  else (0, world)

inductive Met (α : Type)
  | matched (partner : α)
  | queued

def rendezvousSend (pending : PendingSend) : Except IpcError (Met ThreadId) × World :=
  let endpoint := world.endpoints id
  if endpoint.live then
    match Slots.takeFirst endpoint.receivers with
    | some (receiver, receivers) =>
      (.ok (.matched receiver), world.setEndpoint id { endpoint with receivers })
    | none =>
      match Slots.putFirst pending endpoint.senders with
      | some senders => (.ok .queued, world.setEndpoint id { endpoint with senders })
      | none => (.error .congested, world)
  else (.error .noSuchEndpoint, world)

def rendezvousRecv (self : ThreadId) : Except IpcError (Met PendingSend) × World :=
  let endpoint := world.endpoints id
  if endpoint.live then
    match Slots.takeFirst endpoint.senders with
    | some (sender, senders) =>
      (.ok (.matched sender), world.setEndpoint id { endpoint with senders })
    | none =>
      match Slots.putFirst self endpoint.receivers with
      | some receivers => (.ok .queued, world.setEndpoint id { endpoint with receivers })
      | none => (.error .congested, world)
  else (.error .noSuchEndpoint, world)

def cancel : World :=
  if (world.endpoints id).live then world.setEndpoint id ((world.endpoints id).remove thread)
  else world

def cancelAll : World :=
  { world with
    endpoints := fun id =>
      if (world.endpoints id).live then (world.endpoints id).remove thread
      else world.endpoints id }

def deliver (thread : ThreadId) (letter : Letter) : Bool × World :=
  let target := world.threads thread
  if target.present ∧ target.mailbox = none then
    (true, world.modify thread fun target => { target with mailbox := some letter })
  else (false, world)

inductive Waited
  | dying
  | blocked
  | abandoned

def waited (dying stillWaiting : Bool) : Waited :=
  if dying then .dying else if stillWaiting then .blocked else .abandoned

inductive Delivery
  | message (letter : Letter)
  | blocked
  | abandoned
  | dying
  | revoked
  | refused (status : UInt32)

def takeMessageOrBlock (stillWaiting : Bool) : Delivery × World :=
  let target := world.threads thread
  match target.mailbox, target.answerLost, target.callRefused with
  | some letter, _, _ =>
    (.message letter, world.modify thread fun target => { target with mailbox := none })
  | none, some _, _ =>
    (.revoked, world.modify thread fun target => { target with answerLost := none })
  | none, none, some (status, _) =>
    (.refused status, world.modify thread fun target => { target with callRefused := none })
  | none, none, none =>
    match waited target.dying stillWaiting with
    | .dying => (.dying, world)
    | .blocked => (.blocked, world)
    | .abandoned => (.abandoned, world)

def setReplyTarget (caller : ThreadId) (call : Nat) : World :=
  world.modify thread fun target => { target with replyTo := some (caller, call) }

def takeReplyTarget : Option (ThreadId × Nat) × World :=
  ((world.threads thread).replyTo, world.modify thread fun target =>
    { target with replyTo := none })

def refuseCall (thread : ThreadId) (status : UInt32) (call : Nat) : World :=
  if (world.threads thread).present then
    world.modify thread fun target => { target with callRefused := some (status, call) }
  else world

def abandonCaller (caller : ThreadId) (call : Nat) : World :=
  if (world.threads caller).present then
    world.modify caller fun target => { target with answerLost := some call }
  else world

def call (self : ThreadId) (id : Nat) (message : Message) : World :=
  let number := world.calls
  let begun := { world with calls := number + 1 }.record (.called self number message)
  match begun.rendezvousSend id { thread := self, message, call := number } with
  | (.ok (.matched partner), met) => met.goOn self (.handing id partner message number)
  | (.ok .queued, met) => met.goOn self (.awaiting id number)
  | (.error error, met) => met.record (.returned self number (.error error))

def await (call : Nat) : World :=
  let returns (outcome : Except IpcError Message) (looked : World) : World :=
    (looked.goOn self .idle).record (.returned self call outcome)
  match world.takeMessageOrBlock self (world.endpoints id).live with
  | (.message letter, looked) => returns (.ok letter.message) looked
  | (.revoked, looked) => returns (.error .serverGone) looked
  | (.abandoned, looked) => returns (.error .noSuchEndpoint) looked
  | (.dying, looked) => returns (.error .callerDying) looked
  | (.refused status, looked) => returns (.error (.refused status)) looked
  | (.blocked, looked) => looked

def recvEither : World :=
  if bits ≠ 0 then world else world.goOn self (.meeting id)

def meet : World :=
  match world.rendezvousRecv id self with
  | (.ok (.matched sender), met) =>
    met.goOn self (.taking id sender.thread sender.message sender.call)
  | (.ok .queued, met) => met.goOn self (.waiting id)
  | (.error _, met) => met.goOn self .idle

/-- What came with the message could be completed, or its caller is refused and this thread has to
go back to being a receiver. -/
def complete (partner : ThreadId) (message : Message) (call : Nat)
    (refusal : Option UInt32) : World :=
  match refusal with
  | some status =>
    ((world.refuseCall partner status call).goOn self (.meeting id)).record
      (.refused self partner call status)
  | none =>
    ((world.setReplyTarget self partner call).goOn self .idle).record
      (.took self partner call message)

def look : World :=
  match world.takeMessageOrBlock self (world.endpoints id).live with
  | (.message letter, looked) =>
    looked.goOn self (.taking id letter.sender letter.message letter.call)
  | (.blocked, looked) => looked.goOn self (.checking id)
  | (_, looked) => looked.goOn self (.abandoning id)

def check : World :=
  if bits ≠ 0 then (world.cancel id self).goOn self .idle else world.goOn self (.waiting id)

def reply (caller : ThreadId) (message : Message) : World :=
  match world.takeReplyTarget self with
  | (some (owed, call), taken) =>
    if owed = caller then taken.goOn self (.answering caller message call)
    else taken.goOn self (.restoring owed call)
  | (none, _) => world

def answer (self caller : ThreadId) (message : Message) (call : Nat) : World :=
  match world.deliver caller { message, sender := self, call, answer := true } with
  | (true, delivered) =>
    (delivered.goOn self .idle).record (.answered self caller call message)
  | (false, refused) => refused.goOn self (.restoring caller call)

def settle : World :=
  match world.takeReplyTarget self with
  | (some (caller, call), taken) => taken.goOn self (.releasing caller call)
  | (none, _) => world.goOn self .finishing

def advance (refusal : Option UInt32) : World :=
  match (world.threads self).doing with
  | .idle => world
  | .handing id partner message call =>
    (world.deliver partner { message, sender := self, call, answer := false }).2.goOn self
      (.awaiting id call)
  | .awaiting id call => world.await self id call
  | .meeting id => world.meet self id
  | .taking id partner message call => world.complete self id partner message call refusal
  | .waiting id => world.look self id
  | .checking id => world.check self id bits
  | .abandoning id => (world.cancel id self).goOn self .idle
  | .answering caller message call => world.answer self caller message call
  | .restoring owed call => (world.setReplyTarget self owed call).goOn self .idle
  | .settling => world.settle self
  | .releasing caller call =>
    ((world.abandonCaller caller call).goOn self .finishing).record
      (.abandoned self caller call)
  | .finishing => world.goOn self .finished
  | .finished => world

end World

inductive Input
  | create
  | destroy (id : Nat)
  | call (self : ThreadId) (id : Nat) (badge method : UInt64) (args : Vector UInt64 4)
  | recvEither (self : ThreadId) (id : Nat) (bits : UInt64)
  | reply (self caller : ThreadId) (message : Message)
  | exit (self : ThreadId)
  | kill (thread : ThreadId)
  | reap (thread : ThreadId)
  | advance (self : ThreadId) (bits : UInt64) (refusal : Option UInt32)

def World.take (input : Input) (world : World) : World :=
  let ifIdle (self : ThreadId) (after : World) : World :=
    if (world.threads self).doing = .idle then after else world
  match input with
  | .create => world.create.2
  | .destroy id => (world.destroy id).2
  | .call self id badge method args => ifIdle self (world.call self id { method, args, badge })
  | .recvEither self id bits => ifIdle self (world.recvEither self id bits)
  | .reply self caller message => ifIdle self (world.reply self caller message)
  | .exit self => ifIdle self ((world.cancelAll self).goOn self .settling)
  | .kill thread => world.modify thread fun target => { target with dying := true }
  | .reap thread =>
    if (world.threads thread).doing = .finished then
      world.modify thread fun target => { target with present := false }
    else world
  | .advance self bits refusal => world.advance self bits refusal

end Bhaskix.Rendezvous
