import Bhaskix.Cap.Derivation
import Bhaskix.Cap.CSpace

namespace Bhaskix

open Cap

def maxDomains : Nat := 64

def ownerSlot (slot : Fin maxDomains) : Fin maxOwners := ⟨slot.val, slot.isLt⟩

@[simp] theorem ownerSlot_val (slot : Fin maxDomains) : (ownerSlot slot).val = slot.val := rfl

def maxName : Nat := 16

inductive Ending where
  | exited
  | faulted
  | killed
  | envelope
  deriving DecidableEq, Repr

inductive Personality where
  | native
  | linux
  deriving DecidableEq, Repr

structure ResourceEnvelope where
  maxCapabilities : Nat
  maxChildDomains : Nat
  deriving DecidableEq, Repr

def ResourceEnvelope.new : ResourceEnvelope := ⟨64, 0⟩

inductive DomainError where
  | tooManyDomains
  | noSuchDomain
  | capabilityEnvelopeExceeded (held limit : Nat)
  | capabilityExhausted
  | childEnvelopeExceeded (held limit : Nat)
  | auditFull
  deriving DecidableEq, Repr

/-- One slot of the domain table. `parent` is a slot number, or `u32Max` for a
domain the kernel made. -/
structure Domain where
  id : Nat
  generation : UInt32
  name : List UInt8
  parent : Nat
  parentGeneration : UInt32
  children : Nat
  ended : Option Ending
  notify : Option (Nat × UInt64)
  pendingStart : Option (Nat × Nat × UInt64)
  pendingClone : Option (UInt64 × UInt64 × UInt64)
  cspace : CSpace
  envelope : ResourceEnvelope
  heldCapabilities : Nat
  threads : Nat
  personality : Personality
  root : Option SlotRef
  spaceRoot : Nat
  live : Bool

namespace Domain

def empty : Domain where
  id := 0
  generation := 0
  name := []
  parent := u32Max
  parentGeneration := 0
  children := 0
  ended := none
  notify := none
  pendingStart := none
  pendingClone := none
  cspace := CSpace.new
  envelope := .new
  heldCapabilities := 0
  threads := 0
  personality := .native
  root := none
  spaceRoot := 0
  live := false

variable (domain : Domain)

def chargeCapability : Except DomainError Unit × Domain :=
  if domain.heldCapabilities ≥ domain.envelope.maxCapabilities then
    (.error (.capabilityEnvelopeExceeded domain.heldCapabilities
      domain.envelope.maxCapabilities), domain)
  else (.ok (), { domain with heldCapabilities := domain.heldCapabilities + 1 })

def releaseCapability : Domain :=
  { domain with heldCapabilities := domain.heldCapabilities - 1 }

def releaseCapabilities (count : Nat) : Domain :=
  Nat.repeat releaseCapability count domain

theorem releaseCapabilities_eq (count : Nat) : domain.releaseCapabilities count =
      { domain with heldCapabilities := domain.heldCapabilities - count } := by
  induction count with
  | zero => rfl
  | succ count previous =>
    have step : domain.releaseCapabilities (count + 1) =
        (domain.releaseCapabilities count).releaseCapability := rfl
    rw [step, previous, releaseCapability, Nat.sub_sub]

end Domain

structure System where
  arena : Arena
  domains : Fin maxDomains → Domain

namespace System

def new (arena : Arena) : System := ⟨arena, fun _ => .empty⟩

variable (sys : System) (slot : Fin maxDomains) (id : Nat) (change : Domain → Domain)
  (domain : Domain)

def setDomain : System :=
  { sys with domains := Function.update sys.domains slot domain }

def liveSlot : Option (Fin maxDomains) :=
  if inside : id < maxDomains then
    if (sys.domains ⟨id, inside⟩).live then some ⟨id, inside⟩ else none
  else none

def withDomain : System :=
  match sys.liveSlot id with
  | none => sys
  | some slot => sys.setDomain slot (change (sys.domains slot))

theorem liveSlot_eq_some_iff (slot : Fin maxDomains) :
    sys.liveSlot id = some slot ↔ slot.val = id ∧ (sys.domains slot).live = true := by
  unfold liveSlot
  split
  · next inside =>
      split
      · next isLive =>
          constructor
          · intro same
            cases same
            exact ⟨rfl, isLive⟩
          · rintro ⟨rfl, _⟩
            rfl
      · next isDead =>
          constructor
          · intro impossible
            cases impossible
          · rintro ⟨rfl, isLive⟩
            exact absurd isLive isDead
  · next outside =>
      constructor
      · intro impossible
        cases impossible
      · rintro ⟨rfl, _⟩
        exact absurd slot.isLt outside

@[simp] theorem setDomain_arena : (sys.setDomain slot domain).arena = sys.arena := rfl

theorem setDomain_domains (other : Fin maxDomains) : (sys.setDomain slot domain).domains other =
      if other = slot then domain else sys.domains other := by
  simp [setDomain, Function.update_apply]

theorem withDomain_domains (slot : Fin maxDomains) : (sys.withDomain id change).domains slot =
      if slot.val = id ∧ (sys.domains slot).live = true then change (sys.domains slot)
      else sys.domains slot := by
  unfold withDomain
  cases found : sys.liveSlot id with
  | none =>
    rw [if_neg]
    intro here
    rw [(liveSlot_eq_some_iff sys id slot).mpr here] at found
    cases found
  | some updated =>
    obtain ⟨isUpdated, isLive⟩ := (liveSlot_eq_some_iff _ _ _).mp found
    simp only [setDomain_domains]
    by_cases same : slot = updated
    · subst slot
      rw [if_pos rfl, if_pos ⟨isUpdated, isLive⟩]
    · rw [if_neg same, if_neg fun here => same (Fin.ext (here.1.trans isUpdated.symm))]

theorem withDomain_keeps {α : Type} (part : Domain → α) (change : Domain → Domain)
    (keeps : ∀ domain, part (change domain) = part domain) (sys : System) (id : Nat)
    (slot : Fin maxDomains) :
    part ((sys.withDomain id change).domains slot) = part (sys.domains slot) := by
  rw [withDomain_domains]
  split
  · exact keeps _
  · rfl

theorem withDomain_arena : (sys.withDomain id change).arena = sys.arena := by
  unfold withDomain
  cases sys.liveSlot id <;> rfl

end System

end Bhaskix
