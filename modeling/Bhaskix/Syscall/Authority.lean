import Bhaskix.Library.Run
import Bhaskix.Syscall.Machine

namespace Bhaskix

open Cap

namespace System

/-! Who can come to hold what. A reference in a CSpace is only a name: what it gives
depends on the node it resolves to, so a reference to a free entry must never carry
the generation the entry will be reused under. -/

/-- How often the entry is killed along a run. Its generation moves at each death. -/
def kills (sys : System) (index : Index) : List Action → Nat
  | [] => 0
  | action :: rest =>
    (if ((sys.act action).arena.nodes index).generation =
        (sys.arena.nodes index).generation then 0 else 1) +
      (sys.act action).kills index rest

/-- `deaths` counts the deaths of each entry; a held reference was issued before the latest if its
entry is free. -/
structure Counted (sys : System) (deaths : Index → Nat) : Prop where
  generation : ∀ index, (sys.arena.nodes index).generation = UInt32.ofNat (deaths index)
  refs : ∀ slot position ref index, (sys.domains slot).cspace.slots position = some ref →
    ref.node = index.val → ∃ issued, ref.generation = UInt32.ofNat issued ∧
      issued ≤ deaths index ∧
      ((sys.arena.nodes index).live = false → issued < deaths index)

theorem counted_new (arena : Arena) (fresh : ∀ index, (arena.nodes index).generation = 0) :
    (new arena).Counted fun _ => 0 := by
  refine ⟨fresh, ?_⟩
  intro slot position ref index held
  cases held

variable {before after sys : System} {ref source : SlotRef} {object : ObjectRef}
  {right rights : Rights} {badge : UInt64} {arena : Arena}

theorem Moves.entry (moves : Moves before after) (index : Index) :
    ((after.arena.nodes index).generation = (before.arena.nodes index).generation ∧
      ((after.arena.nodes index).live = false → (before.arena.nodes index).live = false)) ∨
    (after.arena.nodes index).generation = (before.arena.nodes index).generation + 1 := by
  rcases moves.entries index with (same | ⟨_, died⟩) | ⟨_, alive, kept⟩ | ⟨_, _, next⟩
  · exact .inl ⟨by rw [same], by rw [same]; exact id⟩
  · exact .inr (by rw [died]; rfl)
  · exact .inl ⟨kept, fun dead => by rw [dead] at alive; cases alive⟩
  · exact .inr next

def deathsAfter (before after : System) (deaths : Index → Nat)
    (index : Index) : Nat :=
  deaths index +
    if (after.arena.nodes index).generation = (before.arena.nodes index).generation
    then 0 else 1

variable {slot : Fin maxDomains} {position : Fin cspaceSlots}

theorem Counted.moves (counted : before.Counted deaths) (moves : Moves before after) :
    after.Counted (deathsAfter before after deaths) := by
  have step : ∀ index, (deathsAfter before after deaths index = deaths index ∧
        (after.arena.nodes index).generation = UInt32.ofNat (deaths index) ∧
        ((after.arena.nodes index).live = false → (before.arena.nodes index).live = false)) ∨
      (deathsAfter before after deaths index = deaths index + 1 ∧
        (after.arena.nodes index).generation = UInt32.ofNat (deaths index + 1)) := by
    intro index
    have earlier := counted.generation index
    rcases moves.entry index with ⟨same, freed⟩ | moved
    · exact .inl ⟨by simp [deathsAfter, same], same.trans earlier, freed⟩
    refine .inr ⟨by simp [deathsAfter, moved], ?_⟩
    rw [moved, earlier, UInt32.ofNat_add]
    rfl
  have generations : ∀ index, (after.arena.nodes index).generation =
      UInt32.ofNat (deathsAfter before after deaths index) := by
    intro index
    rcases step index with ⟨kept, now, _⟩ | ⟨more, now⟩
    · rw [now, kept]
    · rw [now, more]
  refine ⟨generations, ?_⟩
  intro slot position ref index held names
  rcases moves.cspaces slot position ref held with old | isLive
  · obtain ⟨issued, isIssued, bound, strict⟩ := counted.refs slot position ref index old names
    refine ⟨issued, isIssued, ?_⟩
    rcases step index with ⟨kept, _, freed⟩ | ⟨more, _⟩
    · rw [kept]
      exact ⟨bound, fun dead => strict (freed dead)⟩
    · rw [more]
      exact ⟨Nat.le_succ_of_le bound, fun _ => Nat.lt_succ_of_le bound⟩
  · obtain ⟨found, resolved⟩ := Option.isSome_iff_exists.mp isLive
    obtain ⟨isFound, alive, current⟩ := Arena.resolve_eq_some_iff.mp resolved
    have same : found = index := Fin.ext (isFound.symm.trans names)
    subst found
    refine ⟨_, current.symm.trans (generations index), Nat.le_refl _, ?_⟩
    intro dead
    rw [dead] at alive
    cases alive

theorem counted_actAll (formed : sys.arena.WellFormed)
    (counted : sys.Counted deaths) (actions : List Action) :
    (sys.actAll actions).Counted fun index => deaths index + sys.kills index actions := by
  induction actions generalizing sys deaths with
  | nil => simpa [actAll, kills] using counted
  | cons action rest induction =>
    have moves := act_moves formed action
    have later := induction moves.formed (counted.moves moves)
    have total : ∀ index, deathsAfter sys (sys.act action) deaths index +
        (sys.act action).kills index rest = deaths index + sys.kills index (action :: rest) := by
      intro index
      rw [kills, deathsAfter, Nat.add_assoc]
    simp only [total] at later
    exact later

def NoRevenant (sys : System) : Prop :=
  ∀ slot position ref index, (sys.domains slot).cspace.slots position = some ref →
    ref.node = index.val → (sys.arena.nodes index).live = false →
    (sys.arena.nodes index).generation ≠ ref.generation

theorem Counted.noRevenant
    (counted : sys.Counted deaths) (few : ∀ index, deaths index < 2 ^ 32) : sys.NoRevenant := by
  intro slot position ref index held names dead same
  obtain ⟨issued, isIssued, _, strict⟩ := counted.refs slot position ref index held names
  have earlier := strict dead
  have bound := few index
  rw [counted.generation index, isIssued] at same
  have equal := congrArg UInt32.toNat same
  simp only [UInt32.toNat_ofNat'] at equal
  rw [Nat.mod_eq_of_lt bound, Nat.mod_eq_of_lt (earlier.trans bound)] at equal
  omega

theorem noRevenant_of_few_kills (actions : List Action)
    (few : ∀ index, (new Arena.new).kills index actions < 2 ^ 32) :
    ((new Arena.new).actAll actions).NoRevenant := by
  have formed : (new Arena.new).arena.WellFormed := Arena.wellFormed_new
  have counted := counted_actAll formed (counted_new Arena.new fun _ => rfl) actions
  refine counted.noRevenant fun index => ?_
  rw [Nat.zero_add]
  exact few index

/-- Some slot of the domain's CSpace holds a live capability that names `object` and
carries `right`. -/
def Gives (sys : System) (slot : Fin maxDomains) (object : ObjectRef) (right : Rights) : Prop :=
  ∃ position ref rights, (sys.domains slot).cspace.slots position = some ref ∧
    sys.arena.lookup ref = some (object, rights) ∧ rights.contains right = true

/-- The references of one CSpace find after the change only nodes that were there
before it. -/
def Finds (before after : System) (ref : SlotRef) : Prop :=
  ∀ index, after.arena.resolve ref = some index →
    after.arena.nodes index = before.arena.nodes index

theorem Finds.lookup (finds : Finds before after ref)
    (found : after.arena.lookup ref = some result) : before.arena.lookup ref = some result := by
  obtain ⟨index, resolved, isResult⟩ := Option.map_eq_some_iff.mp found
  have same := finds index resolved
  have earlier : before.arena.resolve ref = some index := by
    rw [Arena.resolve_eq_some_iff] at resolved ⊢
    rw [← same]
    exact resolved
  rw [Arena.lookup, earlier, Option.map_some, ← same, isResult]

theorem Gives.back (gives : after.Gives slot object right)
    (fewer : ∀ position ref, (after.domains slot).cspace.slots position = some ref →
      (before.domains slot).cspace.slots position = some ref)
    (finds : ∀ position ref, (before.domains slot).cspace.slots position = some ref →
      Finds before after ref) : before.Gives slot object right := by
  obtain ⟨position, ref, rights, held, found, carries⟩ := gives
  have earlier := fewer position ref held
  exact ⟨position, ref, rights, earlier, (finds position ref earlier).lookup found, carries⟩

theorem finds_restores (restored : Arena.Restores before.arena after.arena) (ref : SlotRef) :
    Finds before after ref := by
  intro index resolved
  rcases restored index with same | ⟨_, dead, _⟩
  · exact same
  have alive := Arena.resolve_live resolved
  rw [dead] at alive
  cases alive

theorem finds_killed
    (dies : after.arena.nodes = (before.arena.killAll killed).nodes) (ref : SlotRef) :
    Finds before after ref := by
  intro index resolved
  have alive := Arena.resolve_live resolved
  rw [dies] at alive ⊢
  by_cases member : index ∈ killed
  · rw [Arena.killAll_nodes_mem member] at alive
    cases alive
  · exact Arena.killAll_nodes_not_mem member

variable {generation : UInt32}

theorem finds_derived (sound : sys.NoRevenant)
    (isMade : (sys.arena.deriveOwned source rights badge owner).1 = .ok made)
    (sameArena : after.arena = (sys.arena.deriveOwned source rights badge owner).2)
    (held : (sys.domains slot).cspace.slots position = some ref) : Finds sys after ref := by
  obtain ⟨above, free, _, room, _, _, placed⟩ := Arena.deriveOwned_ok isMade
  intro index resolved
  obtain ⟨names, alive, current⟩ := Arena.resolve_eq_some_iff.mp resolved
  rw [sameArena, placed] at current ⊢
  by_cases same : index = free
  · subst index
    rw [Arena.occupy_nodes_self] at current
    exact absurd current (sound slot position ref free held names (Arena.freeIndex_dead room))
  · exact Arena.occupy_nodes_ne same

theorem lookup_made (isMade : (arena.deriveOwned source rights badge owner).1 = .ok made) :
    ∃ object held, arena.lookup source = some (object, held) ∧
      held.contains .derive = true ∧ held.contains rights = true ∧
      (arena.deriveOwned source rights badge owner).2.lookup made = some (object, rights) ∧
      (arena.badgeOf source ≠ some 0 →
        (arena.deriveOwned source rights badge owner).2.badgeOf made = arena.badgeOf source) := by
  obtain ⟨above, free, found, _, narrows, rfl, placed⟩ := Arena.deriveOwned_ok isMade
  refine ⟨(arena.nodes above).object, (arena.nodes above).rights, ?_, narrows.derive,
    narrows.rights, ?_, ?_⟩
  · rw [Arena.lookup, found]
    rfl
  · rw [placed, Arena.lookup, Arena.resolve_occupy, Option.map_some, Arena.occupy_nodes_self]
    rfl
  have sourceBadge : arena.badgeOf source = some (arena.nodes above).badge := by
    rw [Arena.badgeOf, found]
    rfl
  intro badged
  rw [sourceBadge] at badged ⊢
  rw [placed, Arena.badgeOf, Arena.resolve_occupy, Option.map_some, Arena.occupy_nodes_self]
  rcases narrows.badge with unbadged | same
  · exact absurd (congrArg some unbadged) badged
  · exact congrArg some same

/-- A grant by somebody who may write to the domain in `slot` and holds what is given. -/
structure GrantedBy (sys after : System) (id : Nat) (frame : SyscallFrame)
    (slot : Fin maxDomains) (object : ObjectRef) (right : Rights) : Prop where
  isGrant : frame.method = Method.grant
  held : ∃ giver targetRef targetRights source sourceRights,
    sys.liveSlot id = some giver ∧
    (sys.domains giver).cspace.get frame.capability.toNat = some targetRef ∧
    sys.arena.lookup targetRef = some (⟨.domain, slot.val⟩, targetRights) ∧
    targetRights.contains .write = true ∧
    (sys.domains giver).cspace.get frame.arg0.toNat = some source ∧
    sys.arena.lookup source = some (object, sourceRights) ∧
    sourceRights.contains .grant = true ∧ sourceRights.contains .derive = true ∧
    sourceRights.contains right = true ∧
    ∀ position ref rights, (after.domains slot).cspace.slots position = some ref →
      after.arena.lookup ref = some (object, rights) → rights.contains right = true →
      sys.arena.badgeOf source ≠ some 0 →
      after.arena.badgeOf ref = sys.arena.badgeOf source

theorem Gives.installed (sound : sys.NoRevenant)
    (isMade : (sys.arena.deriveOwned source rights badge owner).1 = .ok made) {domain : Domain}
    (gained : domain.cspace.slots =
      Function.update (sys.domains target).cspace.slots index (some made))
    (before : ¬ sys.Gives slot object right)
    (held : (((sys.afterDerive source rights badge owner).setDomain target domain).domains
      slot).cspace.slots position = some ref)
    (found : (sys.afterDerive source rights badge owner).arena.lookup ref =
      some (object, carried)) (carries : carried.contains right = true) :
    slot = target ∧ ref = made := by
  have old : ∀ {earlier : SlotRef},
      (sys.domains slot).cspace.slots position = some earlier → ref = earlier → False := by
    rintro earlier was rfl
    have finds : Finds sys (sys.afterDerive source rights badge owner) ref :=
      finds_derived sound isMade rfl was
    exact before ⟨position, ref, carried, was, finds.lookup found, carries⟩
  rw [setDomain_domains] at held
  split at held
  · next same =>
      subst slot
      rw [gained, Function.update_apply] at held
      split at held
      · exact ⟨rfl, (Option.some.inj held).symm⟩
      · exact (old held rfl).elim
  · exact (old held rfl).elim

theorem Effect.spreads {id : Nat} (sound : sys.NoRevenant)
    (effect : Effect around sys id frame status after)
    (gives : after.Gives slot object right) (before : ¬ sys.Gives slot object right) :
    GrantedBy sys after id frame slot object right := by
  cases effect with
  | refused _ _ sameDomains restored =>
    refine (before (gives.back ?_ fun _ ref _ => finds_restores restored ref)).elim
    intro position ref held
    rw [sameDomains] at held
    exact held
  | nothing => exact absurd gives before
  | deleted =>
    refine (before (gives.back ?_ fun _ _ _ _ _ => rfl)).elim
    exact (Sheds.setDomain sys _ _ fun _ _ inSlot => remove_slots_of_some inSlot).cspaces slot
  | @derived caller source made isCaller accepted quota =>
    obtain ⟨position, ref, carried, held, found, carries⟩ := gives
    obtain ⟨rfl, rfl⟩ := Gives.installed sound accepted.isMade rfl before held found carries
    obtain ⟨named, sourceRights, isSource, _, narrower, isNew, _⟩ :=
      lookup_made accepted.isMade
    obtain ⟨sourceInside, inSlot⟩ := CSpace.get_eq_some accepted.holds
    cases isNew.symm.trans found
    exact absurd ⟨_, source, sourceRights, inSlot, isSource,
      Rights.contains_trans narrower carries⟩ before
  | trapped _ accepted =>
    refine (before (gives.back ?_ fun _ _ held =>
      finds_derived sound accepted.isMade rfl held)).elim
    exact (Sheds.setDomain sys _ _ fun _ _ impossible => by cases impossible).cspaces slot
  | @revoked caller _ root _ isCaller isRevoke holds found permitted _ killed own others =>
    refine (before (gives.back ?_ fun _ ref _ => finds_killed killed ref)).elim
    intro position ref held
    by_cases same : slot = caller
    · rw [same, own] at held
      rw [same]
      exact remove_slots_of_some held
    · rw [others slot same] at held
      split at held <;> exact held
  | @granted giver target targetRef source made targetRights sourceRights named isCaller
      isGrant inside names isTarget mayWrite holds isSource mayGrant isMade targetLive empty
      quota =>
      obtain ⟨position, ref, carried, held, found, carries⟩ := gives
      obtain ⟨rfl, rfl⟩ := Gives.installed sound isMade rfl before held found carries
      obtain ⟨_, _, isSource', mayDerive, narrower, isGiven, keepsBadge⟩ := lookup_made isMade
      cases isSource.symm.trans isSource'
      cases isGiven.symm.trans found
      refine ⟨isGrant, giver, targetRef, targetRights, source, sourceRights, isCaller, names,
        isTarget, mayWrite, holds, isSource, mayGrant, mayDerive,
        Rights.contains_trans narrower carries, ?_⟩
      intro position other rights held found carries badged
      obtain ⟨_, rfl⟩ := Gives.installed sound isMade rfl before held found carries
      exact keepsBadge badged

/-- Until an entry was killed 2^32 times, a call makes a domain hold something new only by a
holder's grant. -/
theorem only_holders_spread_authority (actions : List Action)
    (few : ∀ index, (new Arena.new).kills index actions < 2 ^ 32)
    (around : Surroundings) (id : Nat) (frame : SyscallFrame) :
    let sys := (new Arena.new).actAll actions
    let after := (sys.invoke around id frame).2
    ∀ slot object right, after.Gives slot object right → ¬ sys.Gives slot object right →
      GrantedBy sys after id frame slot object right := by
  intro sys after slot object right gives before
  exact (invoke_effect (reached_formed actions) around id frame).spreads
    (noRevenant_of_few_kills actions few) gives before

theorem kills_le_length (sys : System) (index : Index)
    (actions : List Action) : sys.kills index actions ≤ actions.length := by
  induction actions generalizing sys with
  | nil => exact Nat.le_refl 0
  | cons action rest induction =>
    have later := induction (sys.act action)
    rw [kills, List.length_cons]
    split <;> omega

/-- Two domains. The first holds the root of the second in slot 0 and a frame, badged,
in slot 1. -/
def giverAndReceiver : List Action :=
  [.manage (.createUnder true (fun _ => 0) none [] ⟨8, 0⟩),
    .manage (.createUnder true (fun _ => 0) none [] ⟨8, 0⟩),
    .arena (.insertRoot ⟨.frame, 7⟩ Rights.all 5),
    .install 0 0 ⟨1, 0⟩, .install 0 1 ⟨2, 0⟩]

def giveFrame : SyscallFrame := ⟨0, Method.grant, 1, 1, 5, 0⟩

theorem given_frame_granted_by_holder : let sys := (new Arena.new).actAll giverAndReceiver
    GrantedBy sys (sys.invoke ⟨true, fun _ => none⟩ 0 giveFrame).2 0 giveFrame
      ⟨1, by decide⟩ ⟨.frame, 7⟩ Rights.read := by
  have empty : ∀ position, (((new Arena.new).actAll giverAndReceiver).domains
      ⟨1, by decide⟩).cspace.slots position = none := by decide +kernel
  refine only_holders_spread_authority giverAndReceiver
    (fun index => (kills_le_length _ index _).trans_lt (by decide)) ⟨true, fun _ => none⟩ 0
    giveFrame ⟨1, by decide⟩ ⟨.frame, 7⟩ Rights.read
    ⟨⟨0, by decide⟩, ⟨3, 0⟩, ⟨1⟩, by decide +kernel, by decide +kernel, by decide⟩ ?_
  rintro ⟨position, ref, rights, held, _⟩
  rw [empty position] at held
  cases held

theorem GrantedBy.giver {after : System} {id : Nat} {frame : SyscallFrame}
    (granted : GrantedBy sys after id frame slot object right) :
    ∃ giver, sys.Gives giver object right := by
  obtain ⟨giver, _, _, source, rights, _, _, _, _, held, found, _, _, carries, _⟩ := granted.held
  obtain ⟨inside, held⟩ := CSpace.get_eq_some held
  exact ⟨giver, _, source, rights, held, found, carries⟩

/-- Calls only move authority: what a domain holds after any number of them, whoever made them,
some domain held before them. -/
theorem authority_conserved {actions : List Action}
    (reached : Library.Reached (fun (call : Surroundings × Nat × SyscallFrame) sys =>
      (invoke call.1 sys call.2.1 call.2.2).2) (fun sys _ => sys.NoRevenant)
      ((new Arena.new).actAll actions) sys) (gives : sys.Gives slot object right) :
    ∃ holder, ((new Arena.new).actAll actions).Gives holder object right := by
  induction reached generalizing slot with
  | start => exact ⟨slot, gives⟩
  | @next sys call earlier sound sofar =>
    have formed := earlier.invariant (motive := fun sys : System => sys.arena.WellFormed)
      (reached_formed actions) fun call formed _ =>
        (act_moves formed (.invoke call.1 call.2.1 call.2.2)).formed
    by_cases before : sys.Gives slot object right
    · exact sofar before
    -- a new holder has it by a grant, and the giver held it
    have granted := (invoke_effect formed call.1 call.2.1 call.2.2).spreads sound gives before
    obtain ⟨giver, held⟩ := granted.giver
    exact sofar held

theorem authority_conserved_giveFrame :
    ∃ holder, ((new Arena.new).actAll giverAndReceiver).Gives holder ⟨.frame, 7⟩ .read := by
  have sound := noRevenant_of_few_kills giverAndReceiver fun index =>
    (kills_le_length _ index _).trans_lt (by decide)
  exact authority_conserved (.next (⟨true, fun _ => none⟩, 0, giveFrame) .start sound)
    (show Gives _ ⟨1, by decide⟩ _ _ from
      ⟨⟨0, by decide⟩, ⟨3, 0⟩, ⟨1⟩, by decide +kernel, by decide +kernel, by decide⟩)

/-! The generation is 32 bits wide. A reference left in a CSpace comes back to life when
its entry has been killed 2^32 times and is used again, whoever uses it. -/

def sourceEntry : Index := ⟨2, by decide +kernel⟩

def loanedEntry : Index := ⟨3, by decide +kernel⟩

def lender : List Action :=
  [.manage (.createUnder true (fun _ => 0) none [] ⟨8, 0⟩),
    .manage (.createUnder true (fun _ => 0) none [] ⟨8, 0⟩),
    .arena (.insertRoot ⟨.frame, 7⟩ Rights.all 0), .install 0 0 ⟨2, 0⟩]

def loan : List Action :=
  [.arena (.derive ⟨2, 0⟩ Rights.all 0), .install 1 0 ⟨3, 0⟩]

def reuse (turn : Nat) : List Action :=
  [.arena (.derive ⟨2, 0⟩ Rights.all 0), .arena (.revokeUnchecked ⟨3, UInt32.ofNat turn⟩)]

def reuses : Nat → List Action
  | 0 => []
  | turn + 1 => reuses turn ++ reuse (turn + 1)

def wrapAround (turns : Nat) : List Action :=
  (lender ++ loan) ++ (.arena (.revokeUnchecked ⟨3, 0⟩) :: reuses turns)

structure Reusable (arena : Arena) (generation : UInt32) : Prop where
  formed : arena.WellFormed
  free : arena.freeIndex = some loanedEntry
  current : (arena.nodes loanedEntry).generation = generation
  resolved : arena.resolve ⟨2, 0⟩ = some sourceEntry
  object : (arena.nodes sourceEntry).object = ⟨.frame, 7⟩
  rights : (arena.nodes sourceEntry).rights = Rights.all
  badge : (arena.nodes sourceEntry).badge = 0

theorem Reusable.made (reusable : Reusable arena generation) (owner : Nat) :
    (arena.deriveOwned ⟨2, 0⟩ Rights.all 0 owner).1 = .ok ⟨3, generation⟩ := by
  have derivable : Rights.all.contains .derive = true := by decide
  have named : (⟨3, generation⟩ : SlotRef) =
      ⟨loanedEntry.val, (arena.nodes loanedEntry).generation⟩ := by
    rw [reusable.current]
    rfl
  rw [named]
  simp [Arena.deriveOwned, reusable.resolved, reusable.rights, reusable.badge, derivable,
    Rights.contains_refl, reusable.free, Arena.occupy]

theorem Reusable.again (reusable : Reusable arena generation) (owner : Nat) :
    Reusable ((arena.deriveOwned ⟨2, 0⟩ Rights.all 0 owner).2.revokeUnchecked
      ⟨3, generation⟩).2 (generation + 1) := by
  have made := reusable.made owner
  have restored := Arena.restores_withdrawn reusable.formed made
  obtain ⟨free, room, _, moved, others⟩ := Arena.nodes_withdrawn reusable.formed made
  cases reusable.free.symm.trans room
  have source : _ = arena.nodes sourceEntry := others sourceEntry (by decide)
  constructor
  case formed => exact (reusable.formed.deriveOwned _ _ _ _).revokeUnchecked _
  case free => rw [Arena.freeIndex_restores restored, reusable.free]
  case current => rw [moved, reusable.current]
  case resolved =>
    rw [Arena.resolve_eq_some_iff, source]
    exact Arena.resolve_eq_some_iff.mp reusable.resolved
  case object => rw [source, reusable.object]
  case rights => rw [source, reusable.rights]
  case badge => rw [source, reusable.badge]

theorem reusable_lender : Reusable ((new Arena.new).actAll lender).arena 0 :=
  ⟨reached_formed lender, by decide +kernel, by decide +kernel, by decide +kernel,
    by decide +kernel, by decide +kernel, by decide +kernel⟩

theorem reusable_reuses (reusable : Reusable sys.arena 1) (turns : Nat) :
    Reusable (sys.actAll (reuses turns)).arena (UInt32.ofNat (turns + 1)) ∧
      (sys.actAll (reuses turns)).domains = sys.domains := by
  induction turns with
  | zero => exact ⟨reusable, rfl⟩
  | succ turns induction =>
    obtain ⟨earlier, sameDomains⟩ := induction
    have next := earlier.again ownerKernel
    have moved : UInt32.ofNat (turns + 1) + 1 = UInt32.ofNat (turns + 1 + 1) := by
      rw [UInt32.ofNat_add (turns + 1) 1]
      rfl
    rw [reuses, actAll, List.foldl_append]
    rw [moved] at next
    exact ⟨next, sameDomains⟩

def lenderSlot : Fin maxDomains := ⟨0, by decide⟩

def borrowerSlot : Fin maxDomains := ⟨1, by decide⟩

/-- The two domains as the loan leaves them: the borrower's slot 0 names the lent entry,
and will go on naming it. -/
structure Lent (sys : System) : Prop where
  isLive : (sys.domains lenderSlot).live = true
  holds : (sys.domains lenderSlot).cspace.get 0 = some ⟨2, 0⟩
  empty : (sys.domains lenderSlot).cspace.get 1 = none
  lent : (sys.domains borrowerSlot).cspace.slots ⟨0, by decide⟩ = some ⟨3, 0⟩
  onlyLent : ∀ position, (sys.domains borrowerSlot).cspace.slots position = none ∨
    (sys.domains borrowerSlot).cspace.slots position = some ⟨3, 0⟩

theorem lent_loan : Lent ((new Arena.new).actAll (lender ++ loan)) :=
  ⟨by decide +kernel, by decide +kernel, by decide +kernel, by decide +kernel, by decide +kernel⟩

theorem Lent.ofDomains (lent : Lent before)
    (same : after.domains = before.domains) : Lent after := by
  obtain ⟨isLive, holds, empty, held, onlyLent⟩ := lent
  rw [← same] at isLive holds empty held onlyLent
  exact ⟨isLive, holds, empty, held, onlyLent⟩

theorem loan_arena (sys : System) : (sys.actAll loan).arena =
      (sys.arena.deriveOwned ⟨2, 0⟩ Rights.all 0 ownerKernel).2 :=
  act_install_arena _ 1 0 ⟨3, 0⟩

theorem takenAndReused (reusable : Reusable sys.arena 0) (turns : Nat) :
    Reusable ((sys.actAll loan).actAll (.arena (.revokeUnchecked ⟨3, 0⟩) :: reuses turns)).arena
        (UInt32.ofNat (turns + 1)) ∧
      ((sys.actAll loan).actAll (.arena (.revokeUnchecked ⟨3, 0⟩) :: reuses turns)).domains =
        (sys.actAll loan).domains := by
  have taken : Reusable ((sys.actAll loan).act (.arena (.revokeUnchecked ⟨3, 0⟩))).arena 1 := by
    have again := reusable.again ownerKernel
    rw [← loan_arena] at again
    exact again
  exact reusable_reuses taken turns

theorem wrapAround_state (turns : Nat) :
    Reusable ((new Arena.new).actAll (wrapAround turns)).arena (UInt32.ofNat (turns + 1)) ∧
      ((new Arena.new).actAll (wrapAround turns)).domains =
        ((new Arena.new).actAll (lender ++ loan)).domains := by
  rw [wrapAround, actAll_append, actAll_append]
  exact takenAndReused reusable_lender turns

def copyFrame : SyscallFrame := ⟨0, Method.derive, 63, 0, 1, 0⟩

section

variable {sys : System} (lent : Lent sys) (reusable : Reusable sys.arena 0)
include lent reusable

theorem Lent.accepted :
    Accepted ⟨true, fun _ => none⟩ sys copyFrame lenderSlot ⟨2, 0⟩ ⟨3, 0⟩ where
  isLive := lent.isLive
  isDerive := rfl
  room := rfl
  inside := by decide
  holds := lent.holds
  empty := lent.empty
  isMade := reusable.made lenderSlot.val

theorem Lent.revives :
    (sys.invoke ⟨true, fun _ => none⟩ lenderSlot.val copyFrame).2.Gives borrowerSlot
      ⟨.frame, 7⟩ Rights.read := by
  have accepted := lent.accepted reusable
  have isBorrower : borrowerSlot ≠ lenderSlot := by decide
  obtain ⟨object, held, isSource, _, _, isMade, _⟩ := lookup_made accepted.isMade
  have isFrame : object = ⟨.frame, 7⟩ := by
    rw [Arena.lookup, reusable.resolved, Option.map_some, reusable.object] at isSource
    exact (congrArg Prod.fst (Option.some.inj isSource)).symm
  have answer := accepted.invoke.2
  refine ⟨⟨0, by decide⟩, ⟨3, 0⟩, Rights.all, ?_, ?_, by decide⟩
  · rw [answer, setDomain_domains, if_neg isBorrower]
    exact lent.lent
  · rw [answer, setDomain_arena, ← isFrame]
    exact isMade

theorem Lent.lost (object : ObjectRef) (right : Rights) :
    ¬ sys.Gives borrowerSlot object right := by
  rintro ⟨position, ref, rights, held, found, _⟩
  have dead := Arena.freeIndex_dead reusable.free
  rcases lent.onlyLent position with empty | same
  · rw [empty] at held
    cases held
  rw [same] at held
  cases held
  rw [Arena.lookup, Arena.resolve_dead rfl dead] at found
  cases found

end

/-- A `DERIVE` of the lender, after the entry it lent and took back has been killed 2^32
times, gives the borrower the frame again. -/
theorem copy_revives_taken_loan : let sys := (new Arena.new).actAll (wrapAround (2 ^ 32 - 1))
    let after := (sys.invoke ⟨true, fun _ => none⟩ lenderSlot.val copyFrame).2
    after.Gives borrowerSlot ⟨.frame, 7⟩ Rights.read ∧
      ¬ sys.Gives borrowerSlot ⟨.frame, 7⟩ Rights.read ∧
      copyFrame.method ≠ Method.grant := by
  obtain ⟨reusable, sameDomains⟩ := wrapAround_state (2 ^ 32 - 1)
  have wrapped : UInt32.ofNat (2 ^ 32 - 1 + 1) = 0 := by decide
  rw [wrapped] at reusable
  have lent := lent_loan.ofDomains sameDomains
  exact ⟨lent.revives reusable, lent.lost reusable _ _, by decide⟩

end System

end Bhaskix
