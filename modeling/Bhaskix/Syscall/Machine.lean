import Bhaskix.Cap.Generation
import Bhaskix.Domain.Family
import Bhaskix.Syscall.Effects

namespace Bhaskix

open Cap Function

namespace System

/-! The machine as a whole: capability calls interleaved with everything else the
kernel does to the arena and to the domains' CSpaces. -/

inductive Action where
  /-- The kernel's own use of the arena. -/
  | arena (op : Arena.Op)
  /-- The kernel puts a reference to a live capability into a domain's CSpace. -/
  | install (id index : Nat) (slot : SlotRef)
  /-- Another subsystem charges or releases a domain's quota. -/
  | account (id held : Nat)
  | manage (call : Call)
  | invoke (around : Surroundings) (id : Nat) (frame : SyscallFrame)

def act (sys : System) : Action → System
  | .arena op => { sys with arena := sys.arena.apply op }
  | .install id index slot =>
    if sys.arena.isLive slot then
      sys.withDomain id fun domain =>
        { domain with cspace := (domain.cspace.installAt index slot).2 }
    else sys
  | .account id held =>
    sys.withDomain id fun domain => { domain with heldCapabilities := held }
  | .manage call => sys.perform call
  | .invoke around id frame => (sys.invoke around id frame).2

def actAll (sys : System) (actions : List Action) : System :=
  actions.foldl act sys

theorem actAll_append (sys : System) (earlier later : List Action) :
    sys.actAll (earlier ++ later) = (sys.actAll earlier).actAll later :=
  List.foldl_append

structure Sheds (before after : System) : Prop where
  formed : before.arena.WellFormed → after.arena.WellFormed
  fades : before.arena.WellFormed → ∀ index, Arena.Fades before.arena after.arena index
  cspaces : ∀ slot index ref, (after.domains slot).cspace.slots index = some ref →
    (before.domains slot).cspace.slots index = some ref

theorem Sheds.refl (sys : System) : Sheds sys sys :=
  ⟨id, fun _ index => .refl sys.arena index, fun _ _ _ held => held⟩

theorem Sheds.trans (earlier : Sheds first second)
    (later : Sheds second third) : Sheds first third where
  formed := fun formed => later.formed (earlier.formed formed)
  fades := fun formed index =>
    (earlier.fades formed index).trans (later.fades (earlier.formed formed) index)
  cspaces := fun slot index ref held =>
    earlier.cspaces slot index ref (later.cspaces slot index ref held)

variable {before after sys : System}

theorem Sheds.ofDomains (sameArena : after.arena = before.arena)
    (cspaces : ∀ slot index ref, (after.domains slot).cspace.slots index = some ref →
      (before.domains slot).cspace.slots index = some ref) : Sheds before after where
  formed := fun formed => sameArena ▸ formed
  fades := fun _ index => sameArena ▸ .refl before.arena index
  cspaces := cspaces

section

variable (sys : System)

theorem Sheds.setDomain (slot : Fin maxDomains) (domain : Domain)
    (fewer : ∀ index ref, domain.cspace.slots index = some ref →
      (sys.domains slot).cspace.slots index = some ref) :
    Sheds sys (sys.setDomain slot domain) := by
  refine .ofDomains rfl ?_
  intro other index ref held
  rw [setDomain_domains] at held
  split at held
  · next same => exact same ▸ fewer index ref held
  · exact held

theorem Sheds.withDomain (id : Nat) (change : Domain → Domain)
    (keeps : ∀ domain, (change domain).cspace = domain.cspace) :
    Sheds sys (sys.withDomain id change) := by
  refine .ofDomains (withDomain_arena sys id change) ?_
  intro slot index ref held
  rw [withDomain_keeps Domain.cspace change keeps] at held
  exact held

theorem sheds_releaseTally (owner : Nat) (tally : Tally) :
    Sheds sys (sys.releaseTally owner tally) := by
  refine .ofDomains (releaseTally_arena sys owner tally) ?_
  intro slot index ref held
  rw [releaseTally_domains, Domain.releaseCapabilities_eq] at held
  split at held <;> exact held

theorem sheds_destroyMemory (owner : Nat) (sys : System) (identity : Nat) :
    Sheds sys (destroyMemory owner sys identity) := by
  have swept : Sheds sys
      { sys with arena :=
        (sys.arena.revokeRootsNaming ⟨.memory, identity⟩ fun _ => 0).2.2 } :=
    { formed := fun formed => formed.revokeRootsNaming _ _
      fades := fun formed index => Arena.fades_revokeRootsNaming formed _ _ index
      cspaces := fun _ _ _ held => held }
  rw [destroyMemory]
  exact swept.trans (sheds_releaseTally _ owner _)

theorem sheds_releaseOwned (id : Nat) (identities : List Nat) :
    Sheds sys (sys.releaseOwned id identities) := by
  have destroyed : Sheds sys (sys.destroyOwnedBy id identities) := by
    unfold destroyOwnedBy
    induction identities generalizing sys with
    | nil => exact .refl sys
    | cons identity rest induction =>
      rw [List.foldl_cons]
      exact (sheds_destroyMemory id sys identity).trans (induction _)
  exact destroyed.trans (.withDomain _ id _ fun _ => rfl)

theorem sheds_refundParent (parent : Nat) (parentGeneration : UInt32) :
    Sheds sys (sys.refundParent parent parentGeneration) := by
  unfold refundParent
  split
  · exact .refl sys
  dsimp only
  split
  · exact .setDomain sys _ _ fun _ _ held => held
  · exact .refl sys

theorem sheds_bury (slot : Fin maxDomains) (reason : Ending) :
    Sheds sys (sys.bury slot reason) := by
  have marked : Sheds sys (sys.setDomain slot
      ((sys.domains slot).buried (sys.watched (sys.domains slot)) reason)) :=
    .setDomain sys slot _ fun _ _ impossible => by cases impossible
  exact marked.trans (sheds_refundParent _ _ _)

theorem sheds_revokeRoot (root : Option SlotRef) :
    Sheds sys (sys.revokeRoot root) := by
  cases root with
  | none => exact .refl sys
  | some root =>
    exact ⟨fun formed => formed.revokeUnchecked root,
      fun formed index => Arena.fades_revokeUnchecked formed root index,
      fun _ _ _ held => held⟩

end

theorem sheds_endAll (depth : Nat) (endOne : ∀ sys id reason {found : Bool} {after : System},
      endDepth ownedMemory depth sys id reason = some (found, after) → Sheds sys after) :
    ∀ (children : List Nat) (sys : System) {after : System}, children.foldlM (fun sys child =>
        (endDepth ownedMemory depth sys child .killed).map Prod.snd) sys = some after →
      Sheds sys after
  | [], sys, _, ended => by
      cases ended
      exact .refl sys
  | child :: rest, sys, after, ended => by
      rw [List.foldlM_cons] at ended
      obtain ⟨middle, first, others⟩ := Option.bind_eq_some_iff.mp ended
      obtain ⟨⟨found, _⟩, one, isMiddle⟩ := Option.map_eq_some_iff.mp first
      cases isMiddle
      exact (endOne sys child .killed one).trans (sheds_endAll depth endOne rest _ others)

theorem sheds_endDepth (ownedMemory : Nat → List Nat) :
    ∀ (depth : Nat) (sys : System) (id : Nat) (reason : Ending) {found : Bool}
      {after : System}, endDepth ownedMemory depth sys id reason = some (found, after) →
      Sheds sys after
  | 0, _, _, _, _, _, ended => by cases ended
  | depth + 1, sys, id, reason, found, after, ended => by
      have released := sheds_releaseOwned sys id (ownedMemory id)
      rw [endDepth] at ended
      generalize sys.releaseOwned id (ownedMemory id) = cleared at released ended
      dsimp only at ended
      split at ended
      · cases ended
        exact released
      next slot _ =>
      obtain ⟨emptied, children, isAfter⟩ := Option.map_eq_some_iff.mp ended
      cases isAfter
      have childrenShed := sheds_endAll depth
        (fun sys id reason => sheds_endDepth ownedMemory depth sys id reason) _ _ children
      exact ((released.trans (sheds_bury cleared slot reason)).trans childrenShed).trans
        (sheds_revokeRoot emptied _)

theorem sheds_endDomain (sys : System) (ownedMemory : Nat → List Nat) (id : Nat)
    (reason : Ending) : Sheds sys (sys.endDomain ownedMemory id reason).2 := by
  unfold endDomain
  cases ended : endDepth ownedMemory (maxDomains + 1) sys id reason with
  | none => exact .refl sys
  | some result => exact sheds_endDepth ownedMemory _ sys id reason ended

theorem sheds_reap (sys : System) (id : Nat) : Sheds sys (sys.reap id).2 := by
  unfold reap
  split
  · exact .refl sys
  dsimp only
  split
  · exact .refl sys
  · exact .setDomain sys _ _ fun _ _ held => held

def Spent (before after : Arena) (index : Index) : Prop :=
  (before.nodes index).live = false ∧ (after.nodes index).live = false ∧
    (after.nodes index).generation = (before.nodes index).generation + 1

structure Moves (before after : System) : Prop where
  formed : after.arena.WellFormed
  entries : ∀ index, Arena.Fades before.arena after.arena index ∨
    Arena.Rises before.arena after.arena index ∨ Spent before.arena after.arena index
  cspaces : ∀ slot index ref, (after.domains slot).cspace.slots index = some ref →
    (before.domains slot).cspace.slots index = some ref ∨ after.arena.isLive ref = true

theorem Sheds.moves (sheds : Sheds before after)
    (formed : before.arena.WellFormed) : Moves before after where
  formed := sheds.formed formed
  entries := fun index => .inl (sheds.fades formed index)
  cspaces := fun slot index ref held => .inl (sheds.cspaces slot index ref held)

theorem Moves.thenSheds (moves : Moves before middle)
    (sheds : Sheds middle after) (sameArena : after.arena = middle.arena) : Moves before after where
  formed := sameArena ▸ moves.formed
  entries := sameArena ▸ moves.entries
  cspaces := fun slot index ref held =>
    sameArena ▸ moves.cspaces slot index ref (sheds.cspaces slot index ref held)

theorem moves_apply (formed : sys.arena.WellFormed) (op : Arena.Op) :
    Moves sys { sys with arena := sys.arena.apply op } where
  formed := formed.apply op
  entries := fun index =>
    (Arena.apply_fades_or_rises formed op index).elim .inl fun rises => .inr (.inl rises)
  cspaces := fun _ _ _ held => .inl held

theorem sheds_chargeChild (sys : System) (parent : Option Nat) :
    Sheds sys (sys.chargeChild parent) ∧ (sys.chargeChild parent).arena = sys.arena := by
  unfold chargeChild
  split
  · exact ⟨.refl sys, rfl⟩
  · exact ⟨.setDomain sys _ _ fun _ _ held => held, rfl⟩

theorem moves_createUnder (formed : sys.arena.WellFormed)
    (auditRoom : Bool) (threadsCountedIn : Nat → Nat) (parent : Option Nat)
    (name : List UInt8) (envelope : ResourceEnvelope) :
    Moves sys (sys.createUnder auditRoom threadsCountedIn parent name envelope).2 := by
  have still : Moves sys sys := (Sheds.refl sys).moves formed
  unfold createUnder
  split
  · exact still
  split
  · exact still
  split
  · exact still
  next index found =>
  dsimp only
  have inserted := moves_apply formed
    (.insertRoot ⟨.domain, index.val⟩ Rights.all (UInt64.ofNat index.val))
  split
  · exact inserted
  next root _ =>
  obtain ⟨charged, sameArena⟩ := sheds_chargeChild
    (({ sys with arena := (sys.arena.insertRoot ⟨.domain, index.val⟩ Rights.all
        (UInt64.ofNat index.val)).2 } : System).setDomain index
      (sys.created index parent name envelope root)) parent
  refine inserted.thenSheds (.trans (.setDomain _ index _ ?_) charged) sameArena
  exact fun _ _ impossible => by cases impossible

theorem Moves.installed (moves : Moves before middle) (slot : Fin maxDomains) {domain : Domain}
    (gained : domain.cspace.slots = update (middle.domains slot).cspace.slots index (some made))
    (isLive : middle.arena.isLive made = true) : Moves before (middle.setDomain slot domain) where
  formed := moves.formed
  entries := moves.entries
  cspaces := by
    intro other position ref held
    rw [setDomain_domains] at held
    split at held
    · next same =>
        subst other
        rw [gained, update_apply] at held
        split at held
        · cases held
          exact .inr isLive
        · exact moves.cspaces slot position ref held
    · exact moves.cspaces other position ref held

theorem isLive_made {arena : Arena}
    (isMade : (arena.deriveOwned source rights badge owner).1 = .ok made) :
    (arena.deriveOwned source rights badge owner).2.isLive made = true := by
  obtain ⟨above, free, _, _, _, rfl, placed⟩ := Arena.deriveOwned_ok isMade
  rw [placed, Arena.isLive, Arena.resolve_occupy]
  rfl

theorem remove_slots_of_some {cspace : CSpace}
    (held : (cspace.remove removed).slots index = some ref) : cspace.slots index = some ref := by
  unfold CSpace.remove at held
  split at held
  · dsimp only at held
    rw [update_apply] at held
    split at held
    · cases held
    · exact held
  · exact held

theorem Effect.moves {id : Nat} (formed : sys.arena.WellFormed)
    (effect : Effect around sys id frame status after) : Moves sys after := by
  cases effect with
  | refused _ formedAfter sameDomains restored =>
    refine ⟨formedAfter, ?_, ?_⟩
    · intro index
      exact (restored index).elim (fun same => .inl (.inl same)) fun spent => .inr (.inr spent)
    · intro slot index ref held
      rw [sameDomains] at held
      exact .inl held
  | nothing => exact (Sheds.refl _).moves formed
  | deleted =>
    exact (Sheds.setDomain sys _ _ fun _ _ held => remove_slots_of_some held).moves formed
  | derived _ accepted =>
    exact (moves_apply formed (.deriveOwned _ _ _ _)).installed _ rfl (isLive_made accepted.isMade)
  | trapped =>
    exact (moves_apply formed (.deriveOwned _ _ _ _)).thenSheds
      (.setDomain _ _ _ fun _ _ impossible => by cases impossible) rfl
  | @revoked slot held root _ caller isRevoke holds found permitted formedAfter killed own
      others =>
      refine ⟨formedAfter, ?_, ?_⟩
      · intro index
        left
        have fades := Arena.fades_destroySubtree formed (Arena.resolve_live found) index
        rw [Arena.destroySubtree_eq formed.parentsLive (Arena.resolve_live found)] at fades
        rw [Arena.Fades, killed]
        exact fades
      · intro other index ref inSlot
        left
        by_cases same : other = slot
        · subst other
          rw [own] at inSlot
          exact remove_slots_of_some inSlot
        · rw [others other same] at inSlot
          split at inSlot <;> exact inSlot
  | granted caller isGrant inside names isTarget mayWrite holds isSource mayGrant isMade
      targetLive empty quota =>
      exact (moves_apply formed (.deriveOwned _ _ _ _)).installed _ rfl (isLive_made isMade)

theorem act_install_arena (sys : System) (id index : Nat) (slot : SlotRef) :
    (sys.act (.install id index slot)).arena = sys.arena := by
  rw [act]
  split
  · exact withDomain_arena _ _ _
  · rfl

theorem act_moves (formed : sys.arena.WellFormed) (action : Action) :
    Moves sys (sys.act action) := by
  have still : Moves sys sys := (Sheds.refl sys).moves formed
  cases action with
  | arena op => exact moves_apply formed op
  | install id index slot =>
    rw [act]
    split
    · next isLive =>
        refine ⟨?_, ?_, ?_⟩
        · rw [withDomain_arena]
          exact formed
        · rw [withDomain_arena]
          exact still.entries
        intro other position ref held
        rw [withDomain_arena]
        rw [withDomain_domains] at held
        split at held
        · rcases (sys.domains other).cspace.installAt_cases index slot with
            ⟨full, _⟩ | ⟨inside, _, stored⟩
          · rw [full] at held
            exact .inl held
          rw [stored] at held
          dsimp only at held
          rw [update_apply] at held
          split at held
          · cases held
            exact .inr isLive
          · exact .inl held
        · exact .inl held
    · exact still
  | account id held =>
    exact (Sheds.withDomain sys id (fun domain => { domain with heldCapabilities := held })
      fun _ => rfl).moves formed
  | manage call =>
    cases call with
    | createUnder auditRoom threadsCountedIn parent name envelope =>
      exact moves_createUnder formed auditRoom threadsCountedIn parent name envelope
    | endDomain ownedMemory id reason =>
      exact (sheds_endDomain sys ownedMemory id reason).moves formed
    | reap id => exact (sheds_reap sys id).moves formed
  | invoke around id frame => exact (invoke_effect formed around id frame).moves formed

theorem actAll_formed (formed : sys.arena.WellFormed)
    (actions : List Action) : (sys.actAll actions).arena.WellFormed := by
  induction actions generalizing sys with
  | nil => exact formed
  | cons action rest induction => exact induction (act_moves formed action).formed

theorem reached_formed (actions : List Action) :
    ((new Arena.new).actAll actions).arena.WellFormed :=
  have formed : (new Arena.new).arena.WellFormed := Arena.wellFormed_new
  actAll_formed formed actions

end System

end Bhaskix
