import Bhaskix.Domain.Lifecycle

namespace Bhaskix

open Cap

inductive Status where
  | ok
  | badSyscall
  | noSuchCapability
  | revoked
  | wrongObject
  | insufficientRights
  | notImplemented
  | noDomain
  | congested
  | noSuchCaller
  | noSuchMethod
  | slotUnavailable
  | quotaExceeded
  | exhausted
  | notified
  | auditFull
  deriving DecidableEq, Repr

structure Outcome where
  status : Status
  value : UInt64
  deriving DecidableEq, Repr

namespace Outcome

def ok (value : UInt64) : Outcome := ⟨.ok, value⟩

def err (status : Status) : Outcome := ⟨status, 0⟩

end Outcome

structure SyscallFrame where
  capability : UInt64
  method : UInt64
  arg0 : UInt64
  arg1 : UInt64
  arg2 : UInt64
  arg3 : UInt64

namespace Method

def derive : UInt64 := 0
def revoke : UInt64 := 1
def delete : UInt64 := 2
def grant : UInt64 := 16

end Method

structure Unmapping where
  object : Nat
  named : ObjectRef
  tallied : Fin maxOwners → Bool

/-- Whether the audit log has room, and which memory object an identity names if it is still there.
-/
structure Surroundings where
  auditRoom : Bool
  fromIdentity : Nat → Option Nat

structure Invoked where
  outcome : Outcome
  cspace : CSpace
  arena : Arena
  revoked : Tally
  unmapping : Option Unmapping

namespace Invoked

def refused (status : Status) (cspace : CSpace) (arena : Arena) (revoked : Tally) : Invoked :=
  ⟨.err status, cspace, arena, revoked, none⟩

end Invoked

def deriveStatus : CapError → Status
  | .rightsNotMonotone => .insufficientRights
  | .deriveNotPermitted => .insufficientRights
  | .badgeNotMonotone => .insufficientRights
  | _ => .quotaExceeded

variable (around : Surroundings) (frame : SyscallFrame)

def invokeDerive (owner : Nat)
    (slot : SlotRef) (cspace : CSpace) (arena : Arena) (revoked : Tally) : Invoked :=
  let rights := Rights.fromBits frame.arg0.toUInt8
  let destination := frame.arg2.toNat
  if (cspace.get destination).isSome then
    .refused .slotUnavailable cspace arena revoked
  else if !around.auditRoom then .refused .auditFull cspace arena revoked
  else
    let made := arena.deriveOwned slot rights frame.arg1 owner
    match made.1 with
    | .ok derived =>
      let installed := cspace.installAt destination derived
      match installed.1 with
      | .ok () => ⟨.ok frame.arg2, installed.2, made.2, revoked, none⟩
      | .error _ =>
        .refused .slotUnavailable installed.2 (made.2.revokeUnchecked derived).2 revoked
    | .error error => .refused (deriveStatus error) cspace made.2 revoked

def unmappingOf (named : ObjectRef) (before revoked : Tally) : Option Unmapping :=
  if named.kind = .memory then
    (around.fromIdentity named.id).bind fun memory =>
      let tallied : Fin maxOwners → Bool := fun owner =>
        0 < (revoked owner).toNat - (before owner).toNat
      if (List.finRange maxOwners).any tallied then some ⟨memory, named, tallied⟩ else none
  else none

def invokeRevoke (index : Nat) (slot : SlotRef)
    (named : ObjectRef) (cspace : CSpace) (arena : Arena) (revoked : Tally) : Invoked :=
  let swept := arena.revokeTallied slot revoked
  match swept.1 with
  | .ok destroyed =>
    ⟨.ok (UInt64.ofNat destroyed), cspace.remove index, swept.2.2, swept.2.1,
      unmappingOf around named revoked swept.2.1⟩
  | .error .revokeNotPermitted =>
    .refused .insufficientRights cspace swept.2.2 swept.2.1
  | .error _ => .refused .noSuchCapability cspace swept.2.2 swept.2.1

def invokeCapability (owner : Nat) (cspace : CSpace) (arena : Arena) (revoked : Tally) : Invoked :=
  let index := frame.capability.toNat
  match cspace.get index with
  | none =>
    if frame.method = Method.delete then ⟨.ok 0, cspace, arena, revoked, none⟩
    else .refused .noSuchCapability cspace arena revoked
  | some slot =>
    match arena.lookup slot with
    | none =>
      if frame.method = Method.delete then
        ⟨.ok 0, cspace.remove index, arena, revoked, none⟩
      else .refused .revoked cspace arena revoked
    | some (object, _) =>
      if frame.method = Method.derive then
        invokeDerive around frame owner slot cspace arena revoked
      else if frame.method = Method.revoke then
        invokeRevoke around index slot object cspace arena revoked
      else if frame.method = Method.delete then
        ⟨.ok 0, cspace.remove index, arena, revoked, none⟩
      else if frame.method = Method.grant ∧ object.kind = .domain then
        .refused .notImplemented cspace arena revoked
      else .refused .noSuchMethod cspace arena revoked

namespace System

variable (around : Surroundings) (sys : System) (id : Nat) (frame : SyscallFrame)

def spaceRootOf : Option Nat :=
  ((sys.liveSlot id).map fun slot => (sys.domains slot).spaceRoot).filter (· != 0)

/-- The domains, with their address spaces, that lost their last name for the
object and so lose its mappings. -/
def unmapHolders (plan : Unmapping) : List (Nat × Option Nat) :=
  ((List.finRange maxOwners).filter fun owner =>
    plan.tallied owner &&
      !((sys.liveSlot owner.val).any fun slot =>
        (sys.domains slot).cspace.names plan.named sys.arena)).map
    fun owner => (owner.val, sys.spaceRootOf owner.val)

structure Reply where
  outcome : Outcome
  unmapped : List (Nat × Option Nat)

/-- The quota follows the change in occupied slots. `none`: a slot was gained and
the envelope is full. -/
def settleQuota (domain : Domain) (before after : Nat) : Option Domain :=
  if after > before then
    match domain.chargeCapability with
    | (.ok (), charged) => some charged
    | (.error _, _) => none
  else some (domain.releaseCapabilities (before - after))

/-- The CSpace is out of the domain meanwhile, and a refusal to charge returns without putting it
back. -/
def closeInvoke (domain : Domain) (slot : Fin maxDomains) (done : Invoked) :
    Outcome × Domain × Tally :=
  let taken := { domain with cspace := CSpace.new }
  let before := domain.cspace.occupied
  let after := done.cspace.occupied
  match settleQuota taken before after with
  | none => (.err .quotaExceeded, taken, done.revoked)
  | some settled =>
    let counted := (done.revoked (ownerSlot slot)).toNat
    let released := settled.releaseCapabilities (counted - (before - after))
    (done.outcome, { released with cspace := done.cspace },
      Function.update done.revoked (ownerSlot slot) 0)

def invokeOwn (slot : Fin maxDomains) (frame : SyscallFrame) : Reply × System :=
  let domain := sys.domains slot
  let done := invokeCapability around frame slot.val domain.cspace sys.arena fun _ => 0
  let closed := closeInvoke domain slot done
  let final := ({ sys with arena := done.arena }.setDomain slot closed.2.1).releaseTally
    slot.val closed.2.2
  (⟨closed.1, (done.unmapping.map final.unmapHolders).getD []⟩, final)

def deriveGrant (cspace : CSpace) (arena : Arena) : Except Status (Nat × SlotRef) × Arena :=
  match cspace.get frame.capability.toNat with
  | none => (.error .noSuchCapability, arena)
  | some targetSlot =>
  match arena.lookup targetSlot with
  | none => (.error .revoked, arena)
  | some (target, targetRights) =>
  if target.kind ≠ .domain then (.error .wrongObject, arena)
  else if !targetRights.contains .write then (.error .insufficientRights, arena)
  else
  match cspace.get frame.arg0.toNat with
  | none => (.error .noSuchCapability, arena)
  | some sourceSlot =>
  match arena.lookup sourceSlot with
  | none => (.error .revoked, arena)
  | some (_, sourceRights) =>
  if !sourceRights.contains .grant then (.error .insufficientRights, arena)
  else if u32Max < target.id then (.error .wrongObject, arena)
  else
    let rights := Rights.fromBits frame.arg1.toUInt8
    let made := arena.deriveOwned sourceSlot rights frame.arg2 target.id
    match made.1 with
    | .ok derived => (.ok (target.id, derived), made.2)
    | .error error => (.error (deriveStatus error), made.2)

/-- The second stage: charge the recipient and put the capability into its CSpace. -/
def placeGrant (destination : Nat) (derived : SlotRef) (target : Domain) :
    Except Status Unit × Domain :=
  match target.chargeCapability with
  | (.error _, _) => (.error .quotaExceeded, target)
  | (.ok (), charged) =>
    let installed := charged.cspace.installAt destination derived
    match installed.1 with
    | .ok () => (.ok (), { charged with cspace := installed.2 })
    | .error _ => (.error .slotUnavailable, charged.releaseCapability)

def withdraw (derived : SlotRef) : System :=
  { sys with arena := (sys.arena.revokeUnchecked derived).2 }

def grant : Outcome × System :=
  if !around.auditRoom then (.err .auditFull, sys)
  else
    match sys.liveSlot id with
    | none => (.err .noDomain, sys)
    | some giver =>
      let made := deriveGrant frame (sys.domains giver).cspace sys.arena
      let derivedSys := { sys with arena := made.2 }
      match made.1 with
      | .error status => (.err status, derivedSys)
      | .ok (recipient, derived) =>
        match derivedSys.liveSlot recipient with
        | none => (.err .noSuchCapability, derivedSys.withdraw derived)
        | some target =>
          let placed := placeGrant frame.arg3.toNat derived (derivedSys.domains target)
          match placed.1 with
          | .ok () => (.ok frame.arg3, derivedSys.setDomain target placed.2)
          | .error status =>
            (.err status, (derivedSys.setDomain target placed.2).withdraw derived)

def invoke : Reply × System :=
  if frame.method = Method.grant then
    (⟨(sys.grant around id frame).1, []⟩, (sys.grant around id frame).2)
  else
    match sys.liveSlot id with
    | none => (⟨.err .noDomain, []⟩, sys)
    | some slot => invokeOwn around sys slot frame

end System

end Bhaskix
