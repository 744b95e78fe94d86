import Bhaskix.Sched.Scan
import Bhaskix.Syscall.Failure

namespace Bhaskix

open Cap Function
open Sched (StagedGift)

/-! A capability that rides a call or an answer, from the thread that gives it to the slot the
receiving thread declared. -/

namespace System

/-- As both `complete_gift` and `hand` do. `none`: the giver's domain is gone. -/
def passGift (sys : System) (gift : StagedGift) (recipient destination giver : Nat) :
    Option (Except Status Unit × System) :=
  (sys.liveSlot giver).map fun owner =>
    match (sys.domains owner).cspace.get gift.fromSlot with
    | none => (.error .noSuchCapability, sys)
    | some slot =>
    match sys.arena.lookup slot with
    | none => (.error .revoked, sys)
    | some (_, held) =>
    if !held.contains .grant then (.error .insufficientRights, sys)
    else
    let made := sys.arena.deriveOwned slot (Rights.fromBits gift.rights) gift.badge recipient
    let derivedSys := { sys with arena := made.2 }
    match made.1 with
    | .error error => (.error (deriveStatus error), derivedSys)
    | .ok derived =>
    match derivedSys.liveSlot recipient with
    | none => (.error .noDomain, derivedSys.withdraw derived)
    | some target =>
    let placed := placeGrant destination derived (derivedSys.domains target)
    match placed.1 with
    | .ok () => (.ok (), derivedSys.setDomain target placed.2)
    | .error status => (.error status, (derivedSys.setDomain target placed.2).withdraw derived)

theorem SameAuthority.refl (sys : System) : SameAuthority sys sys :=
  sameAuthority_of_restores rfl (.refl _)

/-- One capability more: made from the one the giver named, and put where the recipient asked. -/
def Passed (before after : System) (giver recipient : Nat) (gift : StagedGift) (destination : Nat) :
    Prop :=
  ∃ owner target source above free, ∃ inside : destination < cspaceSlots,
    before.liveSlot giver = some owner ∧ before.liveSlot recipient = some target ∧
    (before.domains owner).cspace.get gift.fromSlot = some source ∧
    before.arena.resolve source = some above ∧
    (before.arena.nodes above).rights.contains .grant = true ∧
    Narrows (before.arena.nodes above) (after.arena.nodes free) ∧
    (before.arena.nodes free).live = false ∧
    after.arena.nodes = update before.arena.nodes free (before.arena.occupant free
      (before.arena.nodes above).object (Rights.fromBits gift.rights) gift.badge (some above)
      recipient) ∧
    (before.domains target).cspace.get destination = none ∧
    after.domains = update before.domains target
      { before.domains target with
        cspace := ⟨update (before.domains target).cspace.slots ⟨destination, inside⟩
          (some ⟨free, (before.arena.nodes free).generation⟩)⟩
        heldCapabilities := (before.domains target).heldCapabilities + 1 }

end System

structure Thread where
  domain : Nat
  replyTo : Option Nat
  receiveSlot : Option (Nat × Nat)
  stagedGift : Option StagedGift

structure Exchange where
  sys : System
  threads : Nat → Option Thread

namespace Exchange

variable (now : Exchange) (thread caller endpoint server : Nat) (frame : SyscallFrame)

def read {α : Type} (part : Thread → Option α) : Option α :=
  (now.threads thread).bind part

def changing (threads : Nat → Option Thread) (change : Thread → Thread) : Nat → Option Thread :=
  update threads thread ((threads thread).map change)

def withThread (change : Thread → Thread) : Exchange :=
  { now with threads := changing thread now.threads change }

/-- Takes what the thread holds for the endpoint. -/
def take {α : Type} (part : Thread → Option α) (endpointOf : α → Nat) (clear : Thread → Thread) :
    Option (α × Exchange) :=
  match now.read thread part with
  | some held =>
    if endpointOf held = endpoint then some (held, now.withThread thread clear) else none
  | none => none

def setReceiveSlot (slot : Nat × Nat) : Exchange :=
  now.withThread thread ({ · with receiveSlot := some slot })

def takeReceiveSlot : Option ((Nat × Nat) × Exchange) :=
  now.take thread endpoint (·.receiveSlot) (·.2) ({ · with receiveSlot := none })

def stageGift (gift : StagedGift) : Exchange :=
  now.withThread thread ({ · with stagedGift := some gift })

def takeStagedGift : Option (StagedGift × Exchange) :=
  now.take thread endpoint (·.stagedGift) (·.endpoint) ({ · with stagedGift := none })

def domainOf : Option Nat :=
  now.read thread fun thread => if thread.domain = u32Max then none else some thread.domain

def completeGift (auditRoom : Bool) : Except Status Bool × Exchange :=
  match now.takeStagedGift caller endpoint with
  | none => (.ok false, now)
  | some (gift, staged) =>
    if !auditRoom then (.error .auditFull, staged.stageGift caller gift)
    else
    match staged.takeReceiveSlot server endpoint with
    | none => (.error .slotUnavailable, staged.stageGift caller gift)
    | some ((destination, _), taken) =>
      let restore (later : Exchange) :=
        (later.stageGift caller gift).setReceiveSlot server (destination, endpoint)
      match taken.domainOf caller, taken.domainOf server with
      | some giver, some recipient =>
        match taken.sys.passGift gift recipient destination giver with
        | none => (.error .noDomain, restore taken)
        | some (.error status, sys) => (.error status, restore { taken with sys })
        | some (.ok (), sys) => (.ok true, { taken with sys })
      | _, _ => (.error .noDomain, restore taken)

def resolveForIpc (index : Nat) (expected : ObjectKind) : Except Status ObjectRef :=
  match (now.domainOf thread).bind now.sys.liveSlot with
  | none => .error .noDomain
  | some owner =>
    match (now.sys.domains owner).cspace.get index with
    | none => .error .noSuchCapability
    | some slot =>
      match now.sys.arena.lookup slot with
      | none => .error .revoked
      | some (object, _) => if object.kind ≠ expected then .error .wrongObject else .ok object

/-- Whom a hand answers. `none`: it stages a gift for the thread's next call. -/
def answering : Option Nat :=
  if frame.arg3 &&& 1 ≠ 0 then none else now.read server (·.replyTo)

def offered : StagedGift :=
  ⟨frame.arg0.toNat, frame.arg1.toUInt8, frame.arg2, endpoint⟩

/-- What `hand` does once it has its endpoint. -/
def handOn (auditRoom : Bool) : Outcome × Exchange :=
  let gift := offered endpoint frame
  match now.answering server frame with
  | none =>
    if u32Max < gift.fromSlot then (.err .slotUnavailable, now)
    else if (now.threads server).isNone then (.err .noDomain, now)
    else (.ok frame.arg0, now.stageGift server gift)
  | some caller =>
    match now.domainOf caller, now.domainOf server with
    | some recipient, some serverDomain =>
      if !auditRoom then (.err .auditFull, now)
      else
      match now.takeReceiveSlot caller endpoint with
      | none => (.err .slotUnavailable, now)
      | some ((destination, _), taken) =>
        match taken.sys.passGift gift recipient destination serverDomain with
        -- Only here is the declaration not put back.
        | none => (.err .noDomain, taken)
        | some (.error status, sys) => (.err status,
            { taken with sys }.setReceiveSlot caller (destination, endpoint))
        | some (.ok (), sys) => (.ok (UInt64.ofNat destination), { taken with sys })
    | _, _ => (.err .noDomain, now)

/-- The endpoint is resolved under a lock of its own, so by the time the hand goes on the other
processors have brought things from `now` to `later`. -/
def hand (later : Exchange) (auditRoom : Bool) : Outcome × Exchange :=
  match now.resolveForIpc server frame.capability.toNat .endpoint with
  | .error _ => (.err .wrongObject, later)
  | .ok object => later.handOn (object.id % 2 ^ 32) server frame auditRoom

variable {now thread caller endpoint server frame} {α : Type}

inductive Deed where
  | act (action : System.Action)
  /-- Anything else the scheduler does to the threads. -/
  | schedule (threads : Nat → Option Thread)
  | completeGift (auditRoom : Bool) (caller endpoint server : Nat)
  /-- A hand that goes on with an endpoint it has resolved. -/
  | handOn (auditRoom : Bool) (endpoint server : Nat) (frame : SyscallFrame)

def perform (now : Exchange) : Deed → Exchange
  | .act action => { now with sys := now.sys.act action }
  | .schedule threads => { now with threads }
  | .completeGift auditRoom caller endpoint server =>
    (now.completeGift caller endpoint server auditRoom).2
  | .handOn auditRoom endpoint server frame =>
    (now.handOn endpoint server frame auditRoom).2

def start : Exchange := ⟨System.new Arena.new, fun _ => none⟩

end Exchange

end Bhaskix
