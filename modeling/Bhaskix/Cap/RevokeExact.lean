import Bhaskix.Cap.Derivation

namespace Bhaskix.Cap.Arena

/-- After the change, every entry of `killed` is dead to every reference, and
every other entry is as it was. -/
structure Removes (before after : Arena) (killed : Index → Prop) :
    Prop where
  dead : ∀ index, killed index →
    (before.nodes index).live = true ∧ (after.nodes index).live = false
  silent : ∀ index, killed index → ∀ slot : SlotRef, slot.node = index.val →
    after.lookup slot = none ∧ after.badgeOf slot = none ∧
      after.isLive slot = false ∧ after.serialOf slot = none
  unchanged : ∀ index, ¬ killed index → after.nodes index = before.nodes index

variable {arena : Arena} {slot : SlotRef} {index : Index}

theorem resolve_dead (names : slot.node = index.val) (dead : (arena.nodes index).live = false) :
    arena.resolve slot = none := by
  cases found : arena.resolve slot with
  | none => rfl
  | some other =>
    obtain ⟨otherNames, isLive, -⟩ := resolve_eq_some_iff.mp found
    have same : other = index := Fin.ext (otherNames.symm.trans names)
    subst other
    simp [dead] at isLive

theorem removes_killAll_subtree
    (rootLive : (arena.nodes root).live = true) (tally : Option Tally) (final : Option Tally) :
    Removes arena { ({ arena with tally }.killAll (arena.subtree root)) with tally := final }
      (arena.Derived root) := by
  have buried : ∀ index, arena.Derived root index →
      (({ arena with tally }.killAll (arena.subtree root)).nodes index).live = false := by
    intro index derived
    rw [killAll_nodes_mem (mem_subtree.mpr derived)]
    rfl
  constructor
  · intro index derived
    have member := subtree_subset_liveNodes rootLive (mem_subtree.mpr derived)
    exact ⟨mem_liveNodes.mp member, buried index derived⟩
  · intro index derived slot names
    have unresolved : Arena.resolve
        { ({ arena with tally }.killAll (arena.subtree root)) with tally := final }
        slot = none := resolve_dead names (buried index derived)
    simp [lookup, badgeOf, isLive, serialOf, unresolved]
  · intro index spared
    have survives : index ∉ arena.subtree root := fun member =>
      spared (mem_subtree.mp member)
    exact killAll_nodes_not_mem survives

section

variable (formed : arena.WellFormed) (found : arena.resolve slot = some root)
include formed found

theorem revoke_eq (permitted : (arena.nodes root).rights.contains .revoke = true) :
    arena.revoke slot =
      (.ok (arena.subtree root).card, arena.killAll (arena.subtree root)) := by
  have swept := destroySubtree_eq formed.parentsLive (resolve_live found)
  simp [revoke, found, permitted, swept]

theorem revokeTallied_eq (permitted : (arena.nodes root).rights.contains .revoke = true)
    (tally : Tally) :
    arena.revokeTallied slot tally = (.ok (arena.subtree root).card,
        tally.addAll fun owner => (arena.chargedTo (arena.subtree root) owner).card,
        { ({ arena with tally := some tally }.killAll (arena.subtree root)) with
          tally := none }) := by
  have swept := destroySubtree_eq (formed.withTally (some tally)).parentsLive (resolve_live found)
  simp only [revokeTallied, found, permitted, swept, Bool.not_true,
    Bool.false_eq_true, ↓reduceIte, takeTally]
  rfl

theorem revokeUnchecked_eq :
    arena.revokeUnchecked slot =
      ((arena.subtree root).card, arena.killAll (arena.subtree root)) := by
  have swept := destroySubtree_eq formed.parentsLive (resolve_live found)
  simp [revokeUnchecked, found, swept]

end

theorem revoke_error (failed : (arena.revoke slot).1 = .error error) :
    (arena.revoke slot).2 = arena := by
  rcases revoke_cases arena slot with ⟨_, refused⟩ | ⟨_, _, _, destroyed⟩
  · rw [refused]
  · simp [destroyed] at failed

theorem revokeTallied_error {tally : Tally}
    (failed : (arena.revokeTallied slot tally).1 = .error error) :
    (arena.revokeTallied slot tally).2 = (tally, arena) := by
  rcases revokeTallied_cases arena slot tally with ⟨_, refused⟩ | ⟨_, _, _, destroyed⟩
  · rw [refused]
  · simp [destroyed] at failed

/-- Revoking a live node that carries `REVOKE` destroys it and what was derived from it, and nothing
else. -/
theorem revoke_total_and_exact (ops : List Op) (slot : SlotRef) (tally : Tally) :
    let arena := Arena.new.run ops
    (∀ root, arena.resolve slot = some root → (arena.nodes root).rights.contains .revoke = true →
      (∃ count, (arena.revoke slot).1 = .ok count ∧ (arena.revokeTallied slot tally).1 = .ok count ∧
        count = (arena.subtree root).card) ∧
      Removes arena (arena.revoke slot).2 (arena.Derived root) ∧
      Removes arena (arena.revokeTallied slot tally).2.2 (arena.Derived root) ∧
      ∀ owner : Fin maxOwners, (arena.revokeTallied slot tally).2.1 owner =
        saturatingAdd (tally owner) ((arena.subtree root).filter fun index =>
            (arena.nodes index).owner = owner.val).card) ∧
    (∀ error, (arena.revoke slot).1 = .error error → (arena.revoke slot).2 = arena) ∧
    (∀ error, (arena.revokeTallied slot tally).1 = .error error →
      (arena.revokeTallied slot tally).2 = (tally, arena)) := by
  intro arena
  have formed : arena.WellFormed := wellFormed_new.run ops
  refine ⟨?_, fun _ failed => revoke_error failed, fun _ failed => revokeTallied_error failed⟩
  intro root found permitted
  have rootLive := resolve_live found
  rw [revoke_eq formed found permitted, revokeTallied_eq formed found permitted]
  refine ⟨⟨_, rfl, rfl, rfl⟩, ?_, ?_, fun owner => rfl⟩
  · exact removes_killAll_subtree rootLive arena.tally (arena.killAll (arena.subtree root)).tally
  · exact removes_killAll_subtree rootLive (some tally) none

/-- Every live node is as it was; a free entry may have been used and freed again. -/
def Restores (before after : Arena) : Prop :=
  ∀ index, after.nodes index = before.nodes index ∨
    ((before.nodes index).live = false ∧ (after.nodes index).live = false ∧
      (after.nodes index).generation = (before.nodes index).generation + 1)

theorem Restores.refl (arena : Arena) : Restores arena arena := fun _ => .inl rfl

theorem derived_occupy_free (formed : arena.WellFormed)
    {free : Index} (dead : (arena.nodes free).live = false) {object : ObjectRef}
    {parent : Option Index}
    (derived : Derived (arena.occupy free object rights badge parent owner).2 free index) :
    index = free := by
  induction derived with
  | root => rfl
  | @child node above isAlive link _ isFree =>
    by_contra differs
    rw [Alive, occupy_nodes_ne differs] at isAlive
    rw [parentOf, occupy_nodes_ne differs, isFree] at link
    have freeLive := formed.parentsLive node free isAlive link
    rw [Alive, dead] at freeLive
    cases freeLive

theorem deriveOwned_ok (made : (arena.deriveOwned parent rights badge owner).1 = .ok derived) :
    ∃ above free, arena.resolve parent = some above ∧ arena.freeIndex = some free ∧
      Narrows (arena.nodes above) (arena.occupant free (arena.nodes above).object
        rights badge (some above) owner) ∧ derived = ⟨free.val, (arena.nodes free).generation⟩ ∧
      (arena.deriveOwned parent rights badge owner).2 =
        (arena.occupy free (arena.nodes above).object rights badge (some above) owner).2 := by
  rcases deriveOwned_cases arena parent rights badge owner with
    ⟨error, refused⟩ | ⟨above, free, found, room, narrows, placed⟩
  · rw [refused] at made
    cases made
  · rw [placed] at made ⊢
    exact ⟨above, free, found, room, narrows, (Except.ok.inj made).symm, rfl⟩

section

variable (formed : arena.WellFormed)
  (made : (arena.deriveOwned parent rights badge owner).1 = .ok derived)
include formed made

theorem nodes_withdrawn :
    let after := ((arena.deriveOwned parent rights badge owner).2.revokeUnchecked derived).2
    ∃ free, arena.freeIndex = some free ∧ (after.nodes free).live = false ∧
      (after.nodes free).generation = (arena.nodes free).generation + 1 ∧
      ∀ index, index ≠ free → after.nodes index = arena.nodes index := by
  intro after
  have formedAfter := formed.deriveOwned parent rights badge owner
  obtain ⟨above, free, _, room, _, isDerived, placed⟩ := deriveOwned_ok made
  have swept : after = (arena.occupy free (arena.nodes above).object rights badge
      (some above) owner).2.killAll ((arena.occupy free (arena.nodes above).object rights
        badge (some above) owner).2.subtree free) := by
    rw [placed] at formedAfter
    simp only [after]
    rw [placed, isDerived, revokeUnchecked_eq formedAfter resolve_occupy]
  refine ⟨free, room, ?_, ?_, ?_⟩
  · rw [swept, killAll_nodes_mem (mem_subtree.mpr .root)]
    rfl
  · rw [swept, killAll_nodes_mem (mem_subtree.mpr .root), occupy_nodes_self]
    rfl
  intro index differs
  rw [swept, killAll_nodes_not_mem, occupy_nodes_ne differs]
  exact fun member =>
    differs (derived_occupy_free formed (freeIndex_dead room) (mem_subtree.mp member))

theorem restores_withdrawn : Restores arena
      ((arena.deriveOwned parent rights badge owner).2.revokeUnchecked derived).2 := by
  obtain ⟨free, room, dead, moved, others⟩ := nodes_withdrawn formed made
  intro index
  by_cases same : index = free
  · subst index
    exact .inr ⟨freeIndex_dead room, dead, moved⟩
  · exact .inl (others index same)

end

theorem freeIndex_restores (restored : Restores before after) :
    after.freeIndex = before.freeIndex := by
  have sameLive : (fun index => !(after.nodes index).live) =
      fun index => !(before.nodes index).live := by
    funext index
    rcases restored index with same | ⟨dead, deadAfter, _⟩
    · rw [same]
    · rw [dead, deadAfter]
  rw [freeIndex, freeIndex, sameLive]

/-- The death of an object reaches every live node that names it and no other entry. -/
theorem object_death_exact (ops : List Op) (object : ObjectRef) (tally : Tally) :
    let arena := Arena.new.run ops
    let after := arena.revokeRootsNaming object tally
    let killed := arena.liveNodes \ after.2.2.liveNodes
    (∀ index, (after.2.2.nodes index).live = true → (after.2.2.nodes index).object ≠ object) ∧
    (∀ index, (arena.nodes index).object ≠ object → after.2.2.nodes index = arena.nodes index) ∧
    after.1 = killed.card ∧
    ∀ owner : Fin maxOwners, (after.2.1 owner).toNat = min ((tally owner).toNat +
      (killed.filter fun index => (arena.nodes index).owner = owner.val).card) u32Max := by
  intro arena after killed
  have swept : after = _ := revokeRootsNaming_eq (wellFormed_new.run ops) object tally
  have exact : killed = arena.naming object := by
    have left : after.2.2.liveNodes = arena.liveNodes \ arena.naming object := by
      rw [swept]
      exact liveNodes_killAll arena _
    simp only [killed]
    rw [left]
    exact Finset.sdiff_sdiff_eq_self (Finset.filter_subset ..)
  rw [exact, swept]
  refine ⟨fun index isLive names => ?_, fun index other => ?_, rfl, fun owner => ?_⟩
  · obtain ⟨named, spared⟩ := mem_naming_killAll.mp (mem_naming.mpr ⟨isLive, names⟩)
    exact spared named
  · exact killAll_nodes_not_mem fun named => other (mem_naming.mp named).2
  · exact toNat_saturatingAdd ..

theorem object_death_uncounted :
    let arena := Arena.new.run [.insertRootOwned ⟨.frame, 7⟩ .all 0 3]
    let tally : Tally := fun _ => 0xffffffff
    let after := arena.revokeRootsNaming ⟨.frame, 7⟩ tally
    ∃ index, ∃ owner : Fin maxOwners, (arena.nodes index).live = true ∧
      (arena.nodes index).owner = owner.val ∧ (after.2.2.nodes index).live = false ∧
      after.2.1 owner = tally owner := by
  intro arena tally after
  have swept : after = _ := revokeRootsNaming_eq (wellFormed_new.run _) _ _
  have here : (⟨0, by decide +kernel⟩ : Index) ∈ arena.naming ⟨.frame, 7⟩ := by
    rw [mem_naming]
    decide +kernel
  refine ⟨⟨0, by decide +kernel⟩, ⟨3, by decide⟩, by decide +kernel, by decide +kernel, ?_, ?_⟩
  · rw [swept]
    exact congrArg CapNode.live (killAll_nodes_mem here)
  · rw [swept]
    refine UInt32.toNat_inj.mp ((toNat_saturatingAdd ..).trans ?_)
    exact Nat.min_eq_right (Nat.le_add_right ..)

end Bhaskix.Cap.Arena
