import Bhaskix.Domain.Table

namespace Bhaskix

open Cap

namespace Domain

/-- What a slot holds once its domain has ended. The ending is kept only when a
parent is there to ask for it. -/
def buried (domain : Domain) (watched : Bool) (reason : Ending) : Domain :=
  { domain with
    root := none
    ended := if watched then some reason else none
    personality := .native
    notify := none
    parent := u32Max
    live := false
    generation := domain.generation + 1
    heldCapabilities := 0
    threads := 0
    cspace := CSpace.new
    pendingStart := none }

end Domain

namespace System

variable (sys : System) (id owner : Nat) (identities : List Nat) (parent : Option Nat)

def slotAt : Option (Fin maxDomains) :=
  if inside : id < maxDomains then some ⟨id, inside⟩ else none

/-! Creation. The room left in the audit log and the threads still counted in a
slot belong to other subsystems, which answer through `auditRoom` and
`threadsCountedIn`. -/

def checkParent : Option Nat → Except DomainError Unit
  | none => .ok ()
  | some parent =>
    match sys.liveSlot parent with
    | none => .error .noSuchDomain
    | some owner =>
      let domain := sys.domains owner
      if domain.children ≥ domain.envelope.maxChildDomains then
        .error (.childEnvelopeExceeded domain.children domain.envelope.maxChildDomains)
      else .ok ()

/-- The first slot with no live domain, no ending waiting to be reaped and no
thread of its last domain still running. -/
def freeSlot (threadsCountedIn : Nat → Nat) : Option (Fin maxDomains) :=
  (List.finRange maxDomains).find? fun slot =>
    !(sys.domains slot).live && (sys.domains slot).ended.isNone &&
      threadsCountedIn slot.val == 0

def parentGenerationOf : UInt32 :=
  ((parent.bind slotAt).map fun owner => (sys.domains owner).generation).getD 0

def created (index : Fin maxDomains) (parent : Option Nat)
    (name : List UInt8) (envelope : ResourceEnvelope) (root : SlotRef) : Domain where
  id := index.val
  generation := (sys.domains index).generation
  name := name.take maxName
  parent := parent.getD u32Max
  parentGeneration := sys.parentGenerationOf parent
  children := 0
  ended := none
  notify := none
  pendingStart := none
  pendingClone := none
  cspace := CSpace.new
  envelope := envelope
  heldCapabilities := 0
  threads := 0
  personality := .native
  root := some root
  spaceRoot := 0
  live := true

def chargeChild : System :=
  match parent.bind slotAt with
  | none => sys
  | some owner =>
    let domain := sys.domains owner
    sys.setDomain owner { domain with children := min (domain.children + 1) u32Max }

def createUnder (auditRoom : Bool) (threadsCountedIn : Nat → Nat)
    (parent : Option Nat) (name : List UInt8) (envelope : ResourceEnvelope) :
    Except DomainError Nat × System :=
  match sys.checkParent parent with
  | .error refusal => (.error refusal, sys)
  | .ok () =>
    if !auditRoom then (.error .auditFull, sys)
    else
      match sys.freeSlot threadsCountedIn with
      | none => (.error .tooManyDomains, sys)
      | some index =>
        let inserted := sys.arena.insertRoot ⟨.domain, index.val⟩ Rights.all
          (UInt64.ofNat index.val)
        match inserted.1 with
        | .error _ => (.error .capabilityExhausted, { sys with arena := inserted.2 })
        | .ok root =>
          let occupied := { sys with arena := inserted.2 }.setDomain index
            (sys.created index parent name envelope root)
          (.ok index.val, occupied.chargeChild parent)

/-- Gives quota back to the live domains a revocation was charged to, `owner`
apart. -/
def releaseTally (tally : Tally) : System :=
  (List.finRange maxOwners).foldl
    (fun sys charged =>
      if 0 < (tally charged).toNat ∧ charged.val ≠ owner then
        sys.withDomain charged.val fun domain =>
          domain.releaseCapabilities (tally charged).toNat
      else sys)
    sys

def destroyMemory (sys : System) (identity : Nat) : System :=
  let swept := sys.arena.revokeRootsNaming ⟨.memory, identity⟩ fun _ => 0
  { sys with arena := swept.2.2 }.releaseTally owner swept.2.1

def destroyOwnedBy : System :=
  identities.foldl (destroyMemory owner) sys

def releaseOwned : System :=
  (sys.destroyOwnedBy id identities).withDomain id fun domain =>
    { domain with spaceRoot := 0 }

def watched (domain : Domain) : Bool :=
  domain.parent != u32Max &&
    (slotAt domain.parent).any fun owner => (sys.domains owner).live

def refundParent (parent : Nat) (parentGeneration : UInt32) : System :=
  match slotAt parent with
  | none => sys
  | some owner =>
    let domain := sys.domains owner
    if parent ≠ u32Max ∧ domain.live = true ∧ domain.generation = parentGeneration then
      sys.setDomain owner { domain with children := domain.children - 1 }
    else sys

def bury (slot : Fin maxDomains) (reason : Ending) : System :=
  let domain := sys.domains slot
  (sys.setDomain slot (domain.buried (sys.watched domain) reason)).refundParent
    domain.parent domain.parentGeneration

def childrenOf (mine : UInt32) : List Nat :=
  ((List.finRange maxDomains).filter fun slot =>
    (sys.domains slot).live && (sys.domains slot).parent == id &&
      (sys.domains slot).parentGeneration == mine).map fun slot => (sys.domains slot).id

def revokeRoot : Option SlotRef → System
  | none => sys
  | some root => { sys with arena := (sys.arena.revokeUnchecked root).2 }

def endDepth (ownedMemory : Nat → List Nat) : Nat → System → Nat → Ending → Option (Bool × System)
  | 0, _, _, _ => none
  | depth + 1, sys, id, reason =>
    let cleared := sys.releaseOwned id (ownedMemory id)
    match cleared.liveSlot id with
    | none => some (false, cleared)
    | some slot =>
      let buried := cleared.bury slot reason
      let children := buried.childrenOf id (cleared.domains slot).generation
      let emptied := children.foldlM
        (fun sys child => (endDepth ownedMemory depth sys child .killed).map Prod.snd)
        buried
      emptied.map fun sys => (true, sys.revokeRoot (cleared.domains slot).root)

/-- The recursion goes down at most one level for each live domain, so that
`maxDomains + 1` levels are enough. -/
def endDomain (ownedMemory : Nat → List Nat) (id : Nat) (reason : Ending) : Bool × System :=
  (endDepth ownedMemory (maxDomains + 1) sys id reason).getD (false, sys)

def reap : Bool × System :=
  match slotAt id with
  | none => (false, sys)
  | some slot =>
    let domain := sys.domains slot
    if domain.live || domain.ended.isNone then (false, sys)
    else
      (true, sys.setDomain slot
        { domain with ended := none, notify := none, parent := u32Max, children := 0 })

end System

end Bhaskix
