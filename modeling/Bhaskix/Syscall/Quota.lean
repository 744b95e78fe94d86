import Bhaskix.Syscall.Failure

namespace Bhaskix

open Cap

namespace Cap.Arena

variable {after arena : Arena}

theorem chargedTo_restores (restored : Restores before after) (owner : Nat) :
    after.chargedTo after.liveNodes owner = before.chargedTo before.liveNodes owner := by
  ext index
  simp only [chargedTo, Finset.mem_filter, mem_liveNodes]
  rcases restored index with same | ⟨dead, deadAfter, _⟩
  · rw [same]
  · simp [dead, deadAfter]

theorem card_chargedTo_occupy
    (dead : (arena.nodes free).live = false) (object : ObjectRef) (rights : Rights)
    (badge : UInt64) (parent : Option Index) (charged owner : Nat) :
    let after := (arena.occupy free object rights badge parent charged).2
    (after.chargedTo after.liveNodes owner).card =
      (arena.chargedTo arena.liveNodes owner).card + if owner = charged then 1 else 0 := by
  intro after
  have fresh : free ∉ arena.chargedTo arena.liveNodes owner := by
    simp [chargedTo, dead]
  have others : ∀ index, index ≠ free → (index ∈ after.chargedTo after.liveNodes owner ↔
      index ∈ arena.chargedTo arena.liveNodes owner) := by
    intro index differs
    simp only [chargedTo, Finset.mem_filter, mem_liveNodes]
    rw [occupy_nodes_ne differs]
  have newcomer : free ∈ after.chargedTo after.liveNodes owner ↔ charged = owner := by
    simp only [chargedTo, Finset.mem_filter, mem_liveNodes]
    rw [occupy_nodes_self]
    simp [occupant]
  by_cases mine : owner = charged
  · have grown : after.chargedTo after.liveNodes owner =
        insert free (arena.chargedTo arena.liveNodes owner) := by
      ext index
      by_cases same : index = free
      · subst index
        exact iff_of_true (newcomer.mpr mine.symm) (Finset.mem_insert_self _ _)
      · simp [others index same, same]
    rw [grown, Finset.card_insert_of_notMem fresh, if_pos mine]
  · have kept : after.chargedTo after.liveNodes owner = arena.chargedTo arena.liveNodes owner := by
      ext index
      by_cases same : index = free
      · subst index
        simp only [newcomer, fresh, iff_false]
        exact Ne.symm mine
      · exact others index same
    rw [kept, if_neg mine, Nat.add_zero]

theorem card_chargedTo_killAll
    (alive : killed ⊆ arena.liveNodes) (dies : after.nodes = (arena.killAll killed).nodes)
    (owner : Nat) :
    (after.chargedTo after.liveNodes owner).card + (arena.chargedTo killed owner).card =
      (arena.chargedTo arena.liveNodes owner).card := by
  have shrunk : after.chargedTo after.liveNodes owner =
      arena.chargedTo arena.liveNodes owner \ arena.chargedTo killed owner := by
    ext index
    simp only [chargedTo, Finset.mem_filter, mem_liveNodes, Finset.mem_sdiff, dies]
    by_cases member : index ∈ killed
    · simp [killAll_nodes_mem member, member]
    · simp [killAll_nodes_not_mem member, member]
  have within : arena.chargedTo killed owner ⊆ arena.chargedTo arena.liveNodes owner :=
    Finset.filter_subset_filter _ alive
  rw [shrunk, Finset.card_sdiff_add_card_eq_card within]

end Cap.Arena

namespace System

def charged (sys : System) (slot : Fin maxDomains) : Nat :=
  (sys.arena.chargedTo sys.arena.liveNodes slot.val).card

/-- No live domain is charged for more nodes than its quota counts, nor its quota
above its envelope. -/
def Within (sys : System) : Prop :=
  ∀ slot, (sys.domains slot).live = true →
    sys.charged slot ≤ (sys.domains slot).heldCapabilities ∧
    (sys.domains slot).heldCapabilities ≤ (sys.domains slot).envelope.maxCapabilities

structure Balanced (around : Surroundings) (sys : System) (id : Nat)
    (frame : SyscallFrame) : Prop where
  derive : ∀ slot source made, slot.val = id → QuotaTrap around sys frame slot source made →
    sys.charged slot < (sys.domains slot).heldCapabilities
  delete : ∀ slot ref, sys.liveSlot id = some slot → frame.method = Method.delete →
    (sys.domains slot).cspace.get frame.capability.toNat = some ref →
    sys.charged slot < (sys.domains slot).heldCapabilities ∨
      (sys.domains slot).heldCapabilities = 0
  revoke : ∀ slot ref root, sys.liveSlot id = some slot → frame.method = Method.revoke →
    (sys.domains slot).cspace.get frame.capability.toNat = some ref →
    sys.arena.resolve ref = some root →
    (sys.arena.nodes root).rights.contains .revoke = true →
    0 < sys.refund root id ∨ sys.charged slot < (sys.domains slot).heldCapabilities ∨
      (sys.domains slot).heldCapabilities = 0

variable {sys : System} {slot : Fin maxDomains}

theorem charged_afterDerive
    (isMade : (sys.arena.deriveOwned source rights badge owner).1 = .ok made)
    (slot : Fin maxDomains) : (sys.afterDerive source rights badge owner).charged slot =
      sys.charged slot + if slot.val = owner then 1 else 0 := by
  obtain ⟨above, free, _, room, _, _, placed⟩ := Arena.deriveOwned_ok isMade
  rw [charged, afterDerive]
  dsimp only
  rw [placed]
  exact Arena.card_chargedTo_occupy (Arena.freeIndex_dead room) _ _ _ _ owner slot.val

theorem Within.derive (within : sys.Within)
    (isMade : (sys.arena.deriveOwned source rights badge slot.val).1 = .ok made)
    {domain : Domain} (covered : sys.charged slot + 1 ≤ domain.heldCapabilities)
    (bounded : domain.heldCapabilities ≤ domain.envelope.maxCapabilities) :
    ((sys.afterDerive source rights badge slot.val).setDomain slot domain).Within := by
  intro other isLive
  have grown := charged_afterDerive isMade other
  by_cases same : other = slot
  · subst other
    rw [if_pos rfl] at grown
    rw [charged, setDomain_arena, ← charged, grown, setDomain_domains, if_pos rfl]
    exact ⟨covered, bounded⟩
  · have notOwner : other.val ≠ slot.val := fun equal => same (Fin.ext equal)
    rw [setDomain_domains, if_neg same] at isLive ⊢
    rw [if_neg notOwner] at grown
    rw [charged, setDomain_arena, ← charged, grown]
    exact within other isLive

theorem Within.delete (within : sys.Within) (isLive : (sys.domains slot).live = true)
    (spare : sys.charged slot < (sys.domains slot).heldCapabilities ∨
      (sys.domains slot).heldCapabilities = 0) (cspace : CSpace) : (sys.setDomain slot
      { sys.domains slot with
        cspace, heldCapabilities := (sys.domains slot).heldCapabilities - 1 }).Within := by
  intro other otherLive
  by_cases same : other = slot
  · subst other
    have before := within slot isLive
    rw [charged, setDomain_arena, ← charged, setDomain_domains, if_pos rfl]
    dsimp only
    omega
  · rw [setDomain_domains, if_neg same] at otherLive ⊢
    exact within other otherLive

theorem Within.effect {id : Nat} (within : sys.Within) (balanced : Balanced around sys id frame)
    (effect : Effect around sys id frame status after) : after.Within := by
  cases effect with
  | refused _ _ sameDomains restored =>
    intro slot isLive
    rw [sameDomains] at isLive ⊢
    rw [charged, Arena.chargedTo_restores restored, ← charged]
    exact within slot isLive
  | nothing => exact within
  | deleted caller isDelete holds =>
    exact within.delete ((liveSlot_eq_some_iff _ _ _).mp caller).2
      (balanced.delete _ _ caller isDelete holds) _
  | @derived slot source made caller accepted quota =>
    have before := within slot accepted.isLive
    exact within.derive accepted.isMade (Nat.succ_le_succ before.1) (Nat.succ_le_of_lt quota)
  | @trapped slot source made caller accepted full =>
    have spare := balanced.derive slot source made caller ⟨accepted, full⟩
    exact within.derive accepted.isMade (Nat.succ_le_of_lt spare)
      (within slot accepted.isLive).2
  | @revoked slot ref root _ caller isRevoke holds found permitted _ killed own others =>
    obtain ⟨rfl, isLive⟩ := (liveSlot_eq_some_iff _ _ _).mp caller
    have spare := balanced.revoke slot ref root caller isRevoke holds found permitted
    have alive := Arena.subtree_subset_liveNodes (Arena.resolve_live found)
    intro other otherLive
    have balance : after.charged other + sys.refund root other.val = sys.charged other :=
      Arena.card_chargedTo_killAll alive killed other.val
    by_cases same : other = slot
    · subst other
      have before := within slot isLive
      rw [own]
      dsimp only
      omega
    rw [others other same] at otherLive ⊢
    split at otherLive
    · next wasLive =>
        have before := within other wasLive
        rw [if_pos wasLive]
        dsimp only
        omega
    · next wasDead => exact absurd otherLive wasDead
  | @granted giver target _ _ _ _ _ _ caller isGrant inside names isTarget mayWrite holds
      isSource mayGrant isMade targetLive empty quota =>
      have before := within target targetLive
      exact within.derive isMade (Nat.succ_le_succ before.1) (Nat.succ_le_of_lt quota)

structure CapabilityCall where
  around : Surroundings
  id : Nat
  frame : SyscallFrame

def callAll (sys : System) (calls : List CapabilityCall) : System :=
  calls.foldl (fun sys call => (sys.invoke call.around call.id call.frame).2) sys

def BalancedRun (sys : System) : List CapabilityCall → Prop
  | [] => True
  | call :: rest => Balanced call.around sys call.id call.frame ∧
      BalancedRun (sys.invoke call.around call.id call.frame).2 rest

theorem within_callAll (formed : sys.arena.WellFormed) (within : sys.Within)
    (balanced : sys.BalancedRun calls) (reached : earlier <+: calls) :
    (sys.callAll earlier).Within := by
  induction earlier generalizing sys calls with
  | nil => exact within
  | cons call rest induction =>
    obtain ⟨later, rfl⟩ := reached
    have effect := invoke_effect formed call.around call.id call.frame
    exact induction (effect.moves formed).formed (within.effect balanced.1 effect)
      balanced.2 ⟨later, rfl⟩

/-- A run of balanced calls never takes a domain above its envelope. -/
theorem balanced_run_within_envelope (actions : List Action) (calls : List CapabilityCall)
    (started : ∀ slot, (((new Arena.new).actAll actions).domains slot).live = true →
      ((new Arena.new).actAll actions).charged slot = 0 ∧
      (((new Arena.new).actAll actions).domains slot).heldCapabilities ≤
        (((new Arena.new).actAll actions).domains slot).envelope.maxCapabilities)
    (balanced : ((new Arena.new).actAll actions).BalancedRun calls) : ∀ earlier, earlier <+: calls →
      let sys := ((new Arena.new).actAll actions).callAll earlier
      ∀ slot, (sys.domains slot).live = true →
        sys.charged slot ≤ (sys.domains slot).envelope.maxCapabilities := by
  intro earlier reached sys slot isLive
  have formed := reached_formed actions
  have within : ((new Arena.new).actAll actions).Within := by
    intro slot isLive
    obtain ⟨none, bounded⟩ := started slot isLive
    exact ⟨none ▸ Nat.zero_le _, bounded⟩
  obtain ⟨covered, bounded⟩ := within_callAll formed within balanced reached slot isLive
  exact covered.trans bounded

def oneCapability : List Action :=
  [.manage (.createUnder true (fun _ => 0) none [] ⟨1, 0⟩), .install 0 0 ⟨0, 0⟩]

def quiet : Surroundings := ⟨true, fun _ => none⟩

def copyCall : CapabilityCall := ⟨quiet, 0, ⟨0, Method.derive, 63, 0, 1, 0⟩⟩

def forgetCall : CapabilityCall := ⟨quiet, 0, ⟨1, Method.delete, 0, 0, 0, 0⟩⟩

theorem balanced_one_copy : ((new Arena.new).actAll oneCapability).BalancedRun [copyCall] := by
  refine ⟨⟨?_, ?_, ?_⟩, trivial⟩
  · rintro slot source made isCaller trap
    have room : ∀ slot : Fin maxDomains, slot.val = 0 →
        ¬ (((new Arena.new).actAll oneCapability).domains slot).heldCapabilities ≥
          (((new Arena.new).actAll oneCapability).domains slot).envelope.maxCapabilities := by
      decide +kernel
    exact absurd trap.full (room slot isCaller)
  · intro _ _ _ isDelete
    cases isDelete
  · intro _ _ _ _ isRevoke
    cases isRevoke

theorem one_copy_within_envelope :
    let sys := ((new Arena.new).actAll oneCapability).callAll [copyCall]
    (sys.domains ⟨0, by decide⟩).live = true ∧
      sys.charged ⟨0, by decide⟩ ≤ (sys.domains ⟨0, by decide⟩).envelope.maxCapabilities :=
  ⟨by decide +kernel, balanced_run_within_envelope oneCapability [copyCall] (by decide +kernel)
      balanced_one_copy [copyCall] List.prefix_rfl ⟨0, by decide⟩ (by decide +kernel)⟩

theorem copy_forget_copy_exceeds_envelope : let start := (new Arena.new).actAll oneCapability
    let sys := start.callAll [copyCall, forgetCall, copyCall]
    (∀ slot, (start.domains slot).live = true → start.charged slot = 0 ∧
      (start.domains slot).heldCapabilities ≤ (start.domains slot).envelope.maxCapabilities) ∧
    (sys.domains ⟨0, by decide⟩).live = true ∧
    (sys.domains ⟨0, by decide⟩).envelope.maxCapabilities < sys.charged ⟨0, by decide⟩ := by
  decide +kernel

end System

end Bhaskix
