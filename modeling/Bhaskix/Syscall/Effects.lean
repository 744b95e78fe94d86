import Bhaskix.Cap.RevokeExact
import Bhaskix.Syscall.Invoke

namespace Bhaskix

open Cap Function
open Rights (fromBits)

namespace System

variable (sys : System) (root : Index) (owner : Nat)

theorem releaseTally_arena (tally : Tally) : (sys.releaseTally owner tally).arena = sys.arena := by
  unfold releaseTally
  generalize List.finRange maxOwners = owners
  induction owners generalizing sys with
  | nil => rfl
  | cons charged rest induction =>
    rw [List.foldl_cons, induction]
    split
    · exact withDomain_arena _ _ _
    · rfl

theorem releaseTally_foldl (owner : Nat) (tally : Tally) (slot : Fin maxDomains) :
    ∀ (owners : List (Fin maxOwners)), (owners.map Fin.val).Nodup → ∀ (sys : System),
      (owners.foldl (fun sys charged =>
        if 0 < (tally charged).toNat ∧ charged.val ≠ owner then
          sys.withDomain charged.val fun domain =>
            domain.releaseCapabilities (tally charged).toNat else sys) sys).domains slot =
      if slot.val ∈ owners.map Fin.val ∧ (sys.domains slot).live = true ∧
          slot.val ≠ owner then
        (sys.domains slot).releaseCapabilities (tally (ownerSlot slot)).toNat else sys.domains slot
  | [], _, sys => by simp
  | charged :: rest, distinct, sys => by
      rw [List.map_cons, List.nodup_cons] at distinct
      rw [List.foldl_cons, releaseTally_foldl owner tally slot rest distinct.2]
      by_cases here : slot.val = charged.val
      · have same : charged = ownerSlot slot := Fin.ext here.symm
        have notAgain : slot.val ∉ rest.map Fin.val := here ▸ distinct.1
        have member : slot.val ∈ (charged :: rest).map Fin.val := by simp [here]
        simp only [notAgain, member, false_and, if_false, true_and]
        rw [same]
        by_cases mine : slot.val = owner
        · simp [mine]
        by_cases none : 0 < (tally (ownerSlot slot)).toNat
        · rw [if_pos ⟨none, mine⟩, withDomain_domains]
          simp [mine]
        · have zero : (tally (ownerSlot slot)).toNat = 0 := Nat.eq_zero_of_not_pos none
          simp [mine, zero, Domain.releaseCapabilities_eq]
      · have untouched : (if 0 < (tally charged).toNat ∧ charged.val ≠ owner then
            sys.withDomain charged.val fun domain =>
              domain.releaseCapabilities (tally charged).toNat
            else sys).domains slot = sys.domains slot := by
          split
          · simp [withDomain_domains, here]
          · rfl
        rw [untouched]
        simp [here]

theorem releaseTally_domains (tally : Tally) (slot : Fin maxDomains) :
    (sys.releaseTally owner tally).domains slot =
      if (sys.domains slot).live = true ∧ slot.val ≠ owner then
        (sys.domains slot).releaseCapabilities (tally (ownerSlot slot)).toNat
      else sys.domains slot := by
  have distinct : ((List.finRange maxOwners).map Fin.val).Nodup :=
    (List.nodup_finRange maxOwners).map Fin.val_injective
  have member : slot.val ∈ (List.finRange maxOwners).map Fin.val :=
    List.mem_map.mpr ⟨ownerSlot slot, List.mem_finRange _, rfl⟩
  rw [releaseTally, releaseTally_foldl owner tally slot _ distinct]
  simp only [member, true_and]

theorem releaseTally_zero {tally : Tally}
    (empty : ∀ charged, tally charged = 0) : sys.releaseTally owner tally = sys := by
  have sameDomains : (sys.releaseTally owner tally).domains = sys.domains := by
    funext slot
    rw [releaseTally_domains, Domain.releaseCapabilities_eq, empty]
    split <;> rfl
  calc
    sys.releaseTally owner tally =
        ⟨(sys.releaseTally owner tally).arena, (sys.releaseTally owner tally).domains⟩ := rfl
    _ = sys := by rw [releaseTally_arena, sameDomains]

inductive Worked (around : Surroundings) (frame : SyscallFrame) (owner : Nat)
    (cspace : CSpace) (arena : Arena) (revoked : Tally) : Invoked → Prop
  | refused {status after} (failed : status ≠ .ok)
      (formed : after.WellFormed) (restored : Arena.Restores arena after) :
      Worked around frame owner cspace arena revoked
        (.refused status cspace after revoked)
  | nothing (isDelete : frame.method = Method.delete) :
      Worked around frame owner cspace arena revoked ⟨.ok 0, cspace, arena, revoked, none⟩
  | deleted {held} (isDelete : frame.method = Method.delete)
      (holds : cspace.get frame.capability.toNat = some held) :
      Worked around frame owner cspace arena revoked
        ⟨.ok 0, cspace.remove frame.capability.toNat, arena, revoked, none⟩
  | derived {source made} (inside : frame.arg2.toNat < cspaceSlots)
      (isDerive : frame.method = Method.derive) (room : around.auditRoom = true)
      (holds : cspace.get frame.capability.toNat = some source)
      (empty : cspace.get frame.arg2.toNat = none)
      (isMade : (arena.deriveOwned source (fromBits frame.arg0.toUInt8)
        frame.arg1 owner).1 = .ok made) :
      Worked around frame owner cspace arena revoked
        ⟨.ok frame.arg2,
          ⟨update cspace.slots ⟨frame.arg2.toNat, inside⟩ (some made)⟩,
          (arena.deriveOwned source (fromBits frame.arg0.toUInt8) frame.arg1 owner).2,
          revoked, none⟩
  | revoked {held root value unmapping} (isRevoke : frame.method = Method.revoke)
      (holds : cspace.get frame.capability.toNat = some held)
      (found : arena.resolve held = some root)
      (permitted : (arena.nodes root).rights.contains .revoke = true) :
      Worked around frame owner cspace arena revoked
        ⟨.ok value, cspace.remove frame.capability.toNat,
          (arena.revokeTallied held revoked).2.2, (arena.revokeTallied held revoked).2.1,
          unmapping⟩

theorem deriveStatus_ne_ok (error : CapError) : deriveStatus error ≠ .ok := by
  cases error <;> decide

theorem deriveOwned_error {arena : Arena} {parent : SlotRef} {rights : Rights}
    {badge : UInt64} {owner : Nat} {error : CapError}
    (refused : (arena.deriveOwned parent rights badge owner).1 = .error error) :
    (arena.deriveOwned parent rights badge owner).2 = arena := by
  rcases arena.deriveOwned_cases parent rights badge owner with
    ⟨_, same⟩ | ⟨_, _, _, _, _, placed⟩
  · rw [same]
  · rw [placed] at refused
    cases refused

section

variable {around : Surroundings} {frame : SyscallFrame} {owner : Nat}
  {cspace : CSpace} {arena : Arena} {revoked : Tally}

theorem invokeDerive_worked (formed : arena.WellFormed)
    (isDerive : frame.method = Method.derive) {source : SlotRef}
    (holds : cspace.get frame.capability.toNat = some source) :
    Worked around frame owner cspace arena revoked
      (invokeDerive around frame owner source cspace arena revoked) := by
  unfold invokeDerive
  dsimp only
  split
  · exact .refused (by decide) formed (.refl arena)
  next empty =>
  split
  · exact .refused (by decide) formed (.refl arena)
  next room =>
  split
  · next made isMade =>
      rcases cspace.installAt_cases frame.arg2.toNat made with
        ⟨full, _⟩ | ⟨inside, vacant, stored⟩
      · rw [full]
        exact .refused (by decide) ((formed.deriveOwned _ _ _ _).revokeUnchecked made)
          (Arena.restores_withdrawn formed isMade)
      · rw [stored]
        exact .derived inside isDerive (by simpa using room) holds vacant isMade
  · next error refused =>
      rw [deriveOwned_error refused]
      exact .refused (deriveStatus_ne_ok error) formed (.refl arena)

theorem invokeRevoke_worked (formed : arena.WellFormed) (isRevoke : frame.method = Method.revoke)
    (holds : cspace.get frame.capability.toNat = some held) (named : ObjectRef) :
    Worked around frame owner cspace arena revoked
      (invokeRevoke around frame.capability.toNat held named cspace arena revoked) := by
  unfold invokeRevoke
  dsimp only
  rcases arena.revokeTallied_cases held revoked with
    ⟨error, refused⟩ | ⟨root, found, permitted, destroyed⟩
  · rw [refused]
    cases error <;> exact .refused (by decide) formed (.refl arena)
  have accepted : (arena.revokeTallied held revoked).1 =
      .ok ({ arena with tally := some revoked }.destroySubtree root).1 := by
    rw [destroyed]
  rw [accepted]
  exact .revoked isRevoke holds found permitted

theorem invokeCapability_worked (formed : arena.WellFormed) :
    Worked around frame owner cspace arena revoked
      (invokeCapability around frame owner cspace arena revoked) := by
  unfold invokeCapability
  dsimp only
  split
  · split
    · next isDelete => exact .nothing isDelete
    · exact .refused (by decide) formed (.refl arena)
  next held holds =>
  split
  · split
    · next isDelete => exact .deleted isDelete holds
    · exact .refused (by decide) formed (.refl arena)
  next named _ _ =>
  split
  · next isDerive => exact invokeDerive_worked formed isDerive holds
  split
  · next isRevoke => exact invokeRevoke_worked formed isRevoke holds named
  split
  · next isDelete => exact .deleted isDelete holds
  split
  · exact .refused (by decide) formed (.refl arena)
  · exact .refused (by decide) formed (.refl arena)

end

section

variable {domain : Domain} {slot : Fin maxDomains} {done : Invoked}

theorem closeInvoke_kept (same : done.cspace.occupied = domain.cspace.occupied)
    (none : done.revoked (ownerSlot slot) = 0) :
    closeInvoke domain slot done = (done.outcome, { domain with cspace := done.cspace },
      update done.revoked (ownerSlot slot) 0) := by
  simp [closeInvoke, settleQuota, same, none, Domain.releaseCapabilities_eq]

theorem closeInvoke_lost (lost : done.cspace.occupied + 1 = domain.cspace.occupied) :
    closeInvoke domain slot done = (done.outcome,
        { domain with
          cspace := done.cspace
          heldCapabilities :=
            domain.heldCapabilities - max 1 (done.revoked (ownerSlot slot)).toNat },
        update done.revoked (ownerSlot slot) 0) := by
  have shrunk : ¬ done.cspace.occupied > domain.cspace.occupied := by omega
  have one : domain.cspace.occupied - done.cspace.occupied = 1 := by omega
  have total : domain.heldCapabilities - 1 - ((done.revoked (ownerSlot slot)).toNat - 1) =
      domain.heldCapabilities - max 1 (done.revoked (ownerSlot slot)).toNat := by omega
  simp [closeInvoke, settleQuota, shrunk, one, Domain.releaseCapabilities_eq, total]

theorem closeInvoke_gained (gained : done.cspace.occupied = domain.cspace.occupied + 1)
    (none : done.revoked (ownerSlot slot) = 0) : closeInvoke domain slot done =
      if domain.heldCapabilities ≥ domain.envelope.maxCapabilities then
        (.err .quotaExceeded, { domain with cspace := CSpace.new }, done.revoked)
      else
        (done.outcome,
          { domain with
            cspace := done.cspace
            heldCapabilities := domain.heldCapabilities + 1 },
          update done.revoked (ownerSlot slot) 0) := by
  have grown : done.cspace.occupied > domain.cspace.occupied := by omega
  by_cases full : domain.heldCapabilities ≥ domain.envelope.maxCapabilities
  · simp [closeInvoke, settleQuota, grown, full, Domain.chargeCapability]
  · simp [closeInvoke, settleQuota, grown, full, Domain.chargeCapability, none,
      Domain.releaseCapabilities_eq]

end

/-- The state after a derivation by `slot` for `owner`, with the caller's domain
as given. -/
def afterDerive (source : SlotRef) (rights : Rights) (badge : UInt64) (owner : Nat) : System :=
  { sys with arena := (sys.arena.deriveOwned source rights badge owner).2 }

/-- How many nodes a domain gets back when everything below `root` is destroyed. -/
noncomputable def refund : Nat :=
  (sys.arena.chargedTo (sys.arena.subtree root) owner).card

structure Accepted (around : Surroundings) (sys : System) (frame : SyscallFrame)
    (slot : Fin maxDomains) (source made : SlotRef) : Prop where
  isLive : (sys.domains slot).live = true
  isDerive : frame.method = Method.derive
  room : around.auditRoom = true
  inside : frame.arg2.toNat < cspaceSlots
  holds : (sys.domains slot).cspace.get frame.capability.toNat = some source
  empty : (sys.domains slot).cspace.get frame.arg2.toNat = none
  isMade : (sys.arena.deriveOwned source (fromBits frame.arg0.toUInt8)
    frame.arg1 slot.val).1 = .ok made

inductive Effect (around : Surroundings) (sys : System) (id : Nat) (frame : SyscallFrame) :
    Status → System → Prop
  | refused {status after} (failed : status ≠ .ok)
      (formed : after.arena.WellFormed) (sameDomains : after.domains = sys.domains)
      (restored : Arena.Restores sys.arena after.arena) :
      Effect around sys id frame status after
  | nothing (isDelete : frame.method = Method.delete) : Effect around sys id frame .ok sys
  | deleted {slot held} (caller : sys.liveSlot id = some slot)
      (isDelete : frame.method = Method.delete)
      (holds : (sys.domains slot).cspace.get frame.capability.toNat = some held) :
      Effect around sys id frame .ok (sys.setDomain slot
        { sys.domains slot with
          cspace := (sys.domains slot).cspace.remove frame.capability.toNat
          heldCapabilities := (sys.domains slot).heldCapabilities - 1 })
  | derived {slot source made} (caller : slot.val = id)
      (accepted : Accepted around sys frame slot source made)
      (quota : (sys.domains slot).heldCapabilities <
        (sys.domains slot).envelope.maxCapabilities) :
      Effect around sys id frame .ok
        ((sys.afterDerive source (fromBits frame.arg0.toUInt8) frame.arg1
            slot.val).setDomain slot
          { sys.domains slot with
            cspace := ⟨update (sys.domains slot).cspace.slots
              ⟨frame.arg2.toNat, accepted.inside⟩ (some made)⟩
            heldCapabilities := (sys.domains slot).heldCapabilities + 1 })
  | trapped {slot source made} (caller : slot.val = id)
      (accepted : Accepted around sys frame slot source made)
      (full : (sys.domains slot).heldCapabilities ≥
        (sys.domains slot).envelope.maxCapabilities) :
      Effect around sys id frame .quotaExceeded
        ((sys.afterDerive source (fromBits frame.arg0.toUInt8) frame.arg1
            slot.val).setDomain slot { sys.domains slot with cspace := CSpace.new })
  | revoked {slot held root after} (caller : sys.liveSlot id = some slot)
      (isRevoke : frame.method = Method.revoke)
      (holds : (sys.domains slot).cspace.get frame.capability.toNat = some held)
      (found : sys.arena.resolve held = some root)
      (permitted : (sys.arena.nodes root).rights.contains .revoke = true)
      (formed : after.arena.WellFormed)
      (killed : after.arena.nodes = (sys.arena.killAll (sys.arena.subtree root)).nodes)
      (own : after.domains slot =
        { sys.domains slot with
          cspace := (sys.domains slot).cspace.remove frame.capability.toNat
          heldCapabilities := (sys.domains slot).heldCapabilities -
            max 1 (sys.refund root id) })
      (others : ∀ other, other ≠ slot → after.domains other =
        if (sys.domains other).live = true then
          { sys.domains other with
            heldCapabilities := (sys.domains other).heldCapabilities -
              sys.refund root other.val }
        else sys.domains other) :
      Effect around sys id frame .ok after
  | granted {giver target targetRef source made targetRights sourceRights object}
      (caller : sys.liveSlot id = some giver) (isGrant : frame.method = Method.grant)
      (inside : frame.arg3.toNat < cspaceSlots)
      (names : (sys.domains giver).cspace.get frame.capability.toNat = some targetRef)
      (isTarget : sys.arena.lookup targetRef = some (⟨.domain, target.val⟩, targetRights))
      (mayWrite : targetRights.contains .write = true)
      (holds : (sys.domains giver).cspace.get frame.arg0.toNat = some source)
      (isSource : sys.arena.lookup source = some (object, sourceRights))
      (mayGrant : sourceRights.contains .grant = true)
      (isMade : (sys.arena.deriveOwned source (fromBits frame.arg1.toUInt8)
        frame.arg2 target.val).1 = .ok made)
      (targetLive : (sys.domains target).live = true)
      (empty : (sys.domains target).cspace.get frame.arg3.toNat = none)
      (quota : (sys.domains target).heldCapabilities <
        (sys.domains target).envelope.maxCapabilities) :
      Effect around sys id frame .ok
        ((sys.afterDerive source (fromBits frame.arg1.toUInt8) frame.arg2
            target.val).setDomain target
          { sys.domains target with
            cspace := ⟨update (sys.domains target).cspace.slots
              ⟨frame.arg3.toNat, inside⟩ (some made)⟩
            heldCapabilities := (sys.domains target).heldCapabilities + 1 })

theorem refund_toNat (owner : Fin maxOwners) : (Tally.addAll (fun _ => 0)
      (fun charged => (sys.arena.chargedTo (sys.arena.subtree root) charged).card)
      owner).toNat = sys.refund root owner.val := by
  have few : sys.refund root owner.val ≤ maxCapabilities :=
    (Finset.card_le_univ _).trans_eq (Fintype.card_fin _)
  rw [Tally.addAll_apply, toNat_saturatingAdd, ← refund]
  simp only [maxCapabilities] at few
  simp only [u32Max, UInt32.toNat_zero]
  omega

theorem setDomain_self (slot : Fin maxDomains) : sys.setDomain slot (sys.domains slot) = sys := by
  simp [setDomain]

variable {sys : System} {slot : Fin maxDomains} {made : SlotRef}

theorem invokeOwn_effect (formed : sys.arena.WellFormed) (around : Surroundings) {id : Nat}
    (caller : sys.liveSlot id = some slot) (frame : SyscallFrame) :
    Effect around sys id frame (sys.invokeOwn around slot frame).1.outcome.status
      (sys.invokeOwn around slot frame).2 := by
  obtain ⟨isSlot, isLive⟩ := (liveSlot_eq_some_iff _ _ _).mp caller
  have worked : Worked around frame slot.val (sys.domains slot).cspace sys.arena (fun _ => 0)
      (invokeCapability around frame slot.val (sys.domains slot).cspace sys.arena
        fun _ => 0) := invokeCapability_worked formed
  unfold invokeOwn
  dsimp only
  generalize invokeCapability around frame slot.val (sys.domains slot).cspace sys.arena
    (fun _ => 0) = done at worked
  cases worked with
  | refused failed formedAfter restored =>
    rw [closeInvoke_kept rfl rfl, releaseTally_zero _ _ (by simp [Invoked.refused])]
    exact .refused failed formedAfter (update_eq_self slot sys.domains) restored
  | nothing isDelete =>
    rw [closeInvoke_kept rfl rfl, releaseTally_zero _ _ (by simp), setDomain_self]
    exact .nothing isDelete
  | deleted isDelete holds =>
    obtain ⟨_, _, lost⟩ := CSpace.remove_of_held holds
    rw [closeInvoke_lost, releaseTally_zero]
    · exact .deleted caller isDelete holds
    · simp
    · exact lost
  | derived inside isDerive room holds empty isMade =>
    have vacant : (sys.domains slot).cspace.slots ⟨frame.arg2.toNat, inside⟩ = none := by
      simpa [CSpace.get, inside] using empty
    subst id
    rw [closeInvoke_gained]
    · have accepted : Accepted around sys frame slot _ _ :=
        ⟨isLive, isDerive, room, inside, holds, empty, isMade⟩
      split
      · next full =>
          rw [releaseTally_zero _ _ (by simp)]
          exact .trapped rfl accepted full
      · next quota =>
          rw [releaseTally_zero _ _ (by simp)]
          exact .derived rfl accepted (Nat.lt_of_not_ge quota)
    · exact CSpace.occupied_update_some vacant _
    · rfl
  | @revoked held root _ _ isRevoke holds found permitted =>
    obtain ⟨_, _, lost⟩ := CSpace.remove_of_held holds
    subst id
    rw [closeInvoke_lost, Arena.revokeTallied_eq formed found permitted]
    · refine .revoked caller isRevoke holds found permitted ?_ ?_ ?_ ?_
      · rw [releaseTally_arena]
        exact Arena.revokeTallied_eq formed found permitted (fun _ => 0) ▸
          formed.revokeTallied held fun _ => 0
      · rw [releaseTally_arena]
        rfl
      · rw [releaseTally_domains, if_neg (by simp), setDomain_domains, if_pos rfl]
        dsimp only
        rw [refund_toNat, ownerSlot_val]
      intro other isOther
      have isOwner : ownerSlot other ≠ ownerSlot slot := fun same =>
        isOther (Fin.ext (congrArg Fin.val same))
      have notCaller : other.val ≠ slot.val := fun same => isOther (Fin.ext same)
      rw [releaseTally_domains, setDomain_domains, if_neg isOther]
      dsimp only
      rw [update_of_ne isOwner, refund_toNat, ownerSlot_val, Domain.releaseCapabilities_eq]
      simp only [notCaller, ne_eq, not_false_eq_true, and_true]
    · exact lost

theorem deriveGrant_cases (frame : SyscallFrame) (cspace : CSpace) (arena : Arena) :
    (∃ status, status ≠ .ok ∧ deriveGrant frame cspace arena = (.error status, arena)) ∨
      ∃ targetRef targetRights source sourceRights object recipient made,
        cspace.get frame.capability.toNat = some targetRef ∧
        arena.lookup targetRef = some (⟨.domain, recipient⟩, targetRights) ∧
        targetRights.contains .write = true ∧ cspace.get frame.arg0.toNat = some source ∧
        arena.lookup source = some (object, sourceRights) ∧ sourceRights.contains .grant = true ∧
        (arena.deriveOwned source (fromBits frame.arg1.toUInt8) frame.arg2
          recipient).1 = .ok made ∧ deriveGrant frame cspace arena =
          (.ok (recipient, made), (arena.deriveOwned source
            (fromBits frame.arg1.toUInt8) frame.arg2 recipient).2) := by
  unfold deriveGrant
  split
  · exact .inl ⟨_, by decide, rfl⟩
  next targetRef names =>
  split
  · exact .inl ⟨_, by decide, rfl⟩
  next target targetRights isTarget =>
  split
  · exact .inl ⟨_, by decide, rfl⟩
  next isDomain =>
  split
  · exact .inl ⟨_, by decide, rfl⟩
  next mayWrite =>
  split
  · exact .inl ⟨_, by decide, rfl⟩
  next source holds =>
  split
  · exact .inl ⟨_, by decide, rfl⟩
  next object sourceRights isSource =>
  split
  · exact .inl ⟨_, by decide, rfl⟩
  next mayGrant =>
  split
  · exact .inl ⟨_, by decide, rfl⟩
  dsimp only
  split
  · next made isMade =>
      have isDomain' : target.kind = .domain := by simpa using isDomain
      have target_eq : target = ⟨.domain, target.id⟩ := by rw [← isDomain']
      exact .inr ⟨targetRef, targetRights, source, sourceRights, object, target.id, made,
        names, target_eq ▸ isTarget, by simpa using mayWrite, holds, isSource,
        by simpa using mayGrant, isMade, rfl⟩
  · next error refused =>
      rw [deriveOwned_error refused]
      exact .inl ⟨_, deriveStatus_ne_ok error, rfl⟩

theorem placeGrant_cases (destination : Nat) (derived : SlotRef) (target : Domain) :
    (∃ status, status ≠ .ok ∧ placeGrant destination derived target = (.error status, target)) ∨
      ∃ inside : destination < cspaceSlots, target.cspace.get destination = none ∧
        target.heldCapabilities < target.envelope.maxCapabilities ∧
        placeGrant destination derived target =
          (.ok (), { target with
            cspace := ⟨update target.cspace.slots ⟨destination, inside⟩ (some derived)⟩
            heldCapabilities := target.heldCapabilities + 1 }) := by
  by_cases full : target.heldCapabilities ≥ target.envelope.maxCapabilities
  · exact .inl ⟨.quotaExceeded, by decide, by
      simp [placeGrant, Domain.chargeCapability, full]⟩
  rcases target.cspace.installAt_cases destination derived with
    ⟨taken, _⟩ | ⟨inside, empty, stored⟩
  · refine .inl ⟨.slotUnavailable, by decide, ?_⟩
    simp [placeGrant, Domain.chargeCapability, full, taken, Domain.releaseCapability]
  · refine .inr ⟨inside, empty, Nat.lt_of_not_ge full, ?_⟩
    simp [placeGrant, Domain.chargeCapability, full, stored]

variable {frame : SyscallFrame} {source : SlotRef}

theorem grant_effect (formed : sys.arena.WellFormed) (around : Surroundings) (id : Nat)
    (isGrant : frame.method = Method.grant) :
    Effect around sys id frame (sys.grant around id frame).1.status
      (sys.grant around id frame).2 := by
  unfold grant
  split
  · exact .refused nofun formed rfl (.refl sys.arena)
  split
  · exact .refused nofun formed rfl (.refl sys.arena)
  next giver caller =>
  dsimp only
  rcases deriveGrant_cases frame (sys.domains giver).cspace sys.arena with
    ⟨status, failed, refused⟩ | ⟨targetRef, targetRights, source, sourceRights, object,
      recipient, made, names, isTarget, mayWrite, holds, isSource, mayGrant, isMade, given⟩
  · rw [refused]
    exact .refused failed formed rfl (.refl sys.arena)
  rw [given]
  dsimp only
  have formedAfter := (formed.deriveOwned source (fromBits frame.arg1.toUInt8)
    frame.arg2 recipient).revokeUnchecked made
  have restored := Arena.restores_withdrawn formed isMade
  split
  · exact .refused nofun formedAfter rfl restored
  next target found =>
  obtain ⟨rfl, targetLive⟩ := (liveSlot_eq_some_iff _ _ _).mp found
  rcases placeGrant_cases frame.arg3.toNat made (sys.domains target) with
    ⟨status, failed, refused⟩ | ⟨inside, empty, quota, placed⟩
  · rw [refused]
    exact .refused failed formedAfter (update_eq_self target sys.domains) restored
  · rw [placed]
    exact .granted caller isGrant inside names isTarget mayWrite holds isSource mayGrant
      isMade targetLive empty quota

theorem invoke_effect (formed : sys.arena.WellFormed)
    (around : Surroundings) (id : Nat) (frame : SyscallFrame) :
    Effect around sys id frame (sys.invoke around id frame).1.outcome.status
      (sys.invoke around id frame).2 := by
  unfold invoke
  split
  · next isGrant => exact grant_effect formed around id isGrant
  split
  · exact .refused nofun formed rfl (.refl sys.arena)
  · next caller => exact invokeOwn_effect formed around caller frame

theorem lookup_of_derived {arena : Arena} {rights : Rights} {badge : UInt64} {owner : Nat}
    (isMade : (arena.deriveOwned source rights badge owner).1 = .ok made) :
    ∃ object held, arena.lookup source = some (object, held) := by
  obtain ⟨above, _, found, _⟩ := Arena.deriveOwned_ok isMade
  exact ⟨_, _, by rw [Arena.lookup, found]; rfl⟩

theorem Accepted.invoke {around : Surroundings}
    (accepted : Accepted around sys frame slot source made) :
    (sys.invoke around slot.val frame).1.outcome.status = (if (sys.domains slot).heldCapabilities ≥
            (sys.domains slot).envelope.maxCapabilities then .quotaExceeded else .ok) ∧
      (sys.invoke around slot.val frame).2 =
        (sys.afterDerive source (fromBits frame.arg0.toUInt8) frame.arg1
          slot.val).setDomain slot (if (sys.domains slot).heldCapabilities ≥
              (sys.domains slot).envelope.maxCapabilities then
            { sys.domains slot with cspace := CSpace.new }
          else
            { sys.domains slot with
              cspace := ⟨update (sys.domains slot).cspace.slots
                ⟨frame.arg2.toNat, accepted.inside⟩ (some made)⟩
              heldCapabilities := (sys.domains slot).heldCapabilities + 1 }) := by
  obtain ⟨isLive, isDerive, room, inside, holds, empty, isMade⟩ := accepted
  have caller : sys.liveSlot slot.val = some slot :=
    (liveSlot_eq_some_iff _ _ _).mpr ⟨rfl, isLive⟩
  have vacant : (sys.domains slot).cspace.slots ⟨frame.arg2.toNat, inside⟩ = none := by
    simpa [CSpace.get, inside] using empty
  obtain ⟨object, held, isObject⟩ := lookup_of_derived isMade
  have stored : (sys.domains slot).cspace.installAt frame.arg2.toNat made =
      (.ok (), ⟨update (sys.domains slot).cspace.slots ⟨frame.arg2.toNat, inside⟩
        (some made)⟩) := by
    simp [CSpace.installAt, inside, vacant]
  have notGrant : ¬ frame.method = Method.grant := by
    rw [isDerive]
    decide
  have done : invokeCapability around frame slot.val (sys.domains slot).cspace sys.arena
      (fun _ => 0) =
      ⟨.ok frame.arg2, ⟨update (sys.domains slot).cspace.slots
          ⟨frame.arg2.toNat, inside⟩ (some made)⟩,
        (sys.arena.deriveOwned source (fromBits frame.arg0.toUInt8) frame.arg1
          slot.val).2, fun _ => 0, none⟩ := by
    simp [invokeCapability, holds, isObject, isDerive, invokeDerive, empty, room, isMade, stored]
  rw [System.invoke, if_neg notGrant, caller]
  dsimp only [invokeOwn]
  rw [done, closeInvoke_gained]
  · by_cases full : (sys.domains slot).heldCapabilities ≥
        (sys.domains slot).envelope.maxCapabilities
    · simp only [if_pos full]
      rw [releaseTally_zero _ _ fun _ => rfl]
      exact ⟨rfl, rfl⟩
    · simp only [if_neg full]
      rw [releaseTally_zero _ _ (by simp)]
      exact ⟨rfl, rfl⟩
  · exact CSpace.occupied_update_some vacant made
  · rfl

end System

end Bhaskix
