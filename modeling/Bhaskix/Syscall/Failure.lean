import Bhaskix.Syscall.Machine

namespace Bhaskix

open Cap

namespace System

structure SameAuthority (before after : System) : Prop where
  cspaces : ∀ slot, (after.domains slot).cspace.slots = (before.domains slot).cspace.slots
  quotas : ∀ slot, (after.domains slot).heldCapabilities =
    (before.domains slot).heldCapabilities
  nodes : ∀ index, (before.arena.nodes index).live = true ∨
    (after.arena.nodes index).live = true →
    after.arena.nodes index = before.arena.nodes index

structure QuotaTrap (around : Surroundings) (sys : System) (frame : SyscallFrame)
    (slot : Fin maxDomains) (source made : SlotRef) : Prop
    extends Accepted around sys frame slot source made where
  full : (sys.domains slot).heldCapabilities ≥ (sys.domains slot).envelope.maxCapabilities

variable {around : Surroundings} {sys : System} {frame : SyscallFrame} {after : System}

theorem QuotaTrap.invoke (trap : QuotaTrap around sys frame slot source made) :
    (sys.invoke around slot.val frame).1.outcome.status = .quotaExceeded ∧
      (sys.invoke around slot.val frame).2 =
        (sys.afterDerive source (Rights.fromBits frame.arg0.toUInt8) frame.arg1
          slot.val).setDomain slot { sys.domains slot with cspace := CSpace.new } := by
  have answer := trap.toAccepted.invoke
  rw [if_pos trap.full, if_pos trap.full] at answer
  exact answer

theorem QuotaTrap.changes (trap : QuotaTrap around sys frame slot source made) :
    ¬ SameAuthority sys (sys.invoke around slot.val frame).2 := by
  intro same
  obtain ⟨_, holds⟩ := CSpace.get_eq_some trap.holds
  have kept := same.cspaces slot
  rw [trap.invoke.2, setDomain_domains, if_pos rfl] at kept
  rw [← kept] at holds
  cases holds

theorem sameAuthority_of_restores {before : System} (sameDomains : after.domains = before.domains)
    (restored : Arena.Restores before.arena after.arena) : SameAuthority before after := by
  refine ⟨fun slot => by rw [sameDomains], fun slot => by rw [sameDomains], ?_⟩
  intro index alive
  rcases restored index with same | ⟨dead, deadAfter, _⟩
  · exact same
  · rw [dead, deadAfter] at alive
    simp at alive

theorem Effect.sameAuthority {id : Nat}
    (effect : Effect around sys id frame status after) (failed : status ≠ .ok)
    (noTrap : ¬ ∃ slot source made, slot.val = id ∧
      QuotaTrap around sys frame slot source made) : SameAuthority sys after := by
  cases effect with
  | refused _ _ sameDomains restored => exact sameAuthority_of_restores sameDomains restored
  | trapped caller accepted full =>
    exact (noTrap ⟨_, _, _, caller, accepted, full⟩).elim
  | nothing | deleted | derived | revoked | granted => exact absurd rfl failed

/-- A capability call that fails leaves all authority as it was, unless it is a derivation refused
only by the quota. -/
theorem failed_call_keeps_authority_iff (actions : List Action) (around : Surroundings)
    (id : Nat) (frame : SyscallFrame) : let sys := (new Arena.new).actAll actions
    ((sys.invoke around id frame).1.outcome.status ≠ .ok →
      SameAuthority sys (sys.invoke around id frame).2) ↔
    ¬ ∃ slot source made, slot.val = id ∧ QuotaTrap around sys frame slot source made := by
  intro sys
  have formed : sys.arena.WellFormed := reached_formed actions
  constructor
  · rintro keeps ⟨slot, source, made, rfl, trap⟩
    refine trap.changes (keeps ?_)
    rw [trap.invoke.1]
    decide
  · intro noTrap failed
    exact (invoke_effect formed around id frame).sameAuthority failed noTrap

def fullDomain : List Action :=
  [.manage (.createUnder true (fun _ => 0) none [] ⟨0, 0⟩), .install 0 0 ⟨0, 0⟩]

def copyRoot : SyscallFrame := ⟨0, Method.derive, 63, 0, 1, 0⟩

theorem refused_copy_empties_cspace : let sys := (new Arena.new).actAll fullDomain
    let around : Surroundings := ⟨true, fun _ => none⟩
    (sys.invoke around 0 copyRoot).1.outcome.status = .quotaExceeded ∧
      (sys.domains ⟨0, by decide⟩).cspace.get 0 = some ⟨0, 0⟩ ∧
      ((sys.invoke around 0 copyRoot).2.domains ⟨0, by decide⟩).cspace.get 0 = none ∧
      (sys.arena.nodes ⟨1, by decide +kernel⟩).live = false ∧
      ((sys.invoke around 0 copyRoot).2.arena.nodes ⟨1, by decide +kernel⟩).live = true := by
  decide +kernel

end System

end Bhaskix
