import Bhaskix.Cap.Revocation

namespace Bhaskix.Cap

open Library.Forest

structure Narrows (parent child : CapNode) : Prop where
  object : child.object = parent.object
  rights : parent.rights.contains child.rights = true
  derive : parent.rights.contains .derive = true
  badge : parent.badge = 0 ∨ child.badge = parent.badge

namespace Arena

/-- The serial order rules out cycles: a node is drawn after its parent, and an entry is reused only
once nothing live hangs on it. -/
structure WellFormed (arena : Arena) : Prop where
  parentsLive : arena.ParentsLive
  narrows : ∀ index parent, (arena.nodes index).live = true →
    (arena.nodes index).parent = some parent →
    Narrows (arena.nodes parent) (arena.nodes index)
  serialLower : ∀ index parent, (arena.nodes index).live = true →
    (arena.nodes index).parent = some parent →
    (arena.nodes parent).serial < (arena.nodes index).serial
  liveCount : arena.live = arena.liveNodes.card
  serialPositive : ∀ index, (arena.nodes index).live = true →
    0 < (arena.nodes index).serial
  serialDrawn : ∀ index, (arena.nodes index).live = true →
    (arena.nodes index).serial ≤ arena.serials
  serialUnique : ∀ first second, (arena.nodes first).live = true →
    (arena.nodes second).live = true →
    (arena.nodes first).serial = (arena.nodes second).serial → first = second

theorem wellFormed_new : Arena.new.WellFormed := by
  constructor
  all_goals simp [Arena.new, ParentsLive, Closed, Alive, liveNodes]

variable {arena : Arena}

theorem WellFormed.withTally (formed : arena.WellFormed)
    (tally : Option Tally) : { arena with tally }.WellFormed := { formed with }

theorem freeIndex_dead
    (found : arena.freeIndex = some index) : (arena.nodes index).live = false := by
  have dead := List.find?_some found
  simpa using dead

section Occupy

variable {arena : Arena} {index : Index} {object : ObjectRef}
  {rights : Rights} {badge : UInt64} {parent : Option Index}
  {owner : Nat}

def occupant (arena : Arena) (index : Index) (object : ObjectRef)
    (rights : Rights) (badge : UInt64) (parent : Option Index)
    (owner : Nat) : CapNode :=
  { object, rights, badge, parent, generation := (arena.nodes index).generation,
    owner, serial := arena.serials + 1, live := true }

theorem occupy_nodes_self : (arena.occupy index object rights badge parent owner).2.nodes index =
      arena.occupant index object rights badge parent owner := by
  simp [occupy, occupant]

theorem occupy_nodes_ne (differs : other ≠ index) :
    (arena.occupy index object rights badge parent owner).2.nodes other = arena.nodes other := by
  simp [occupy, differs]

theorem occupy_liveNodes : (arena.occupy index object rights badge parent owner).2.liveNodes =
      insert index arena.liveNodes := by
  ext other
  by_cases same : other = index
  · subst other
    simp [occupy_nodes_self, occupant]
  · simp [occupy_nodes_ne same, same]

theorem WellFormed.occupy (formed : arena.WellFormed) (dead : (arena.nodes index).live = false)
    (under : ∀ above, parent = some above → (arena.nodes above).live = true ∧
      Narrows (arena.nodes above) (arena.occupant index object rights badge parent owner)) :
    (arena.occupy index object rights badge parent owner).2.WellFormed := by
  set after := (arena.occupy index object rights badge parent owner).2
  have here : after.nodes index = arena.occupant index object rights badge parent owner :=
    occupy_nodes_self
  have kept {other : Index} (wasLive : (arena.nodes other).live = true) :
      after.nodes other = arena.nodes other := by
    apply occupy_nodes_ne
    rintro rfl
    simp [dead] at wasLive
  -- A live node of the new arena is the newcomer or a live node of the old one.
  have split {other : Index} (isLive : (after.nodes other).live = true) :
      other = index ∨ (arena.nodes other).live = true := by
    by_cases same : other = index
    · exact .inl same
    · exact .inr (occupy_nodes_ne same ▸ isLive)
  have parentOf {other above : Index} (isLive : (after.nodes other).live = true)
      (link : (after.nodes other).parent = some above) : (arena.nodes above).live = true := by
    rcases split isLive with rfl | wasLive
    · rw [here] at link
      exact (under above link).1
    · rw [kept wasLive] at link
      exact formed.parentsLive other above wasLive link
  constructor
  · intro other above isLive link
    have aboveLive := parentOf isLive link
    rw [Alive, kept aboveLive]
    exact aboveLive
  · intro other above isLive link
    rw [kept (parentOf isLive link)]
    rcases split isLive with rfl | wasLive
    · rw [here] at link ⊢
      exact (under above link).2
    · rw [kept wasLive] at link ⊢
      exact formed.narrows other above wasLive link
  · intro other above isLive link
    have aboveLive := parentOf isLive link
    rw [kept aboveLive]
    rcases split isLive with rfl | wasLive
    · rw [here]
      have drawn := formed.serialDrawn above aboveLive
      simp only [occupant]
      omega
    · rw [kept wasLive] at link ⊢
      exact formed.serialLower other above wasLive link
  · have fresh : index ∉ arena.liveNodes := by simp [dead]
    rw [occupy_liveNodes, Finset.card_insert_of_notMem fresh, ← formed.liveCount]
    rfl
  · intro other isLive
    rcases split isLive with rfl | wasLive
    · simp [here, occupant]
    · rw [kept wasLive]
      exact formed.serialPositive other wasLive
  · intro other isLive
    have grows : after.serials = arena.serials + 1 := rfl
    rcases split isLive with rfl | wasLive
    · simp [here, occupant, grows]
    rw [kept wasLive]
    have drawn := formed.serialDrawn other wasLive
    omega
  · intro first second firstLive secondLive same
    rcases split firstLive with rfl | firstWas <;>
      rcases split secondLive with rfl | secondWas
    · rfl
    · rw [here, kept secondWas] at same
      have drawn := formed.serialDrawn second secondWas
      simp only [occupant] at same
      omega
    · rw [here, kept firstWas] at same
      have drawn := formed.serialDrawn first firstWas
      simp only [occupant] at same
      omega
    · rw [kept firstWas, kept secondWas] at same
      exact formed.serialUnique first second firstWas secondWas same

end Occupy

theorem liveNodes_killAll (arena : Arena) (killed : Finset Index) :
    (arena.killAll killed).liveNodes = arena.liveNodes \ killed := by
  ext index
  rw [mem_liveNodes, killAll_live_iff, Finset.mem_sdiff, mem_liveNodes]

variable {arena : Arena}

theorem WellFormed.killAll (formed : arena.WellFormed)
    (live : killed ⊆ arena.liveNodes) (closed : ∀ index parent, (arena.nodes index).live = true →
      (arena.nodes index).parent = some parent → parent ∈ killed → index ∈ killed) :
    (arena.killAll killed).WellFormed := by
  set after := arena.killAll killed
  have survivor {index : Index} (isLive : (after.nodes index).live = true) :
      (arena.nodes index).live = true ∧ after.nodes index = arena.nodes index := by
    have spared := (killAll_live_iff arena killed index).mp isLive
    exact ⟨spared.1, killAll_nodes_not_mem spared.2⟩
  have parentOf {index parent : Index} (isLive : (after.nodes index).live = true)
      (link : (after.nodes index).parent = some parent) : (arena.nodes index).live = true ∧
      (arena.nodes index).parent = some parent ∧ (after.nodes parent).live = true := by
    have spared := (killAll_live_iff arena killed index).mp isLive
    rw [killAll_parent] at link
    refine ⟨spared.1, link, (killAll_live_iff arena killed parent).mpr
      ⟨formed.parentsLive index parent spared.1 link, ?_⟩⟩
    exact fun dead => spared.2 (closed index parent spared.1 link dead)
  constructor
  · intro index parent isLive link
    exact (parentOf isLive link).2.2
  · intro index parent isLive link
    obtain ⟨wasLive, wasLink, parentLive⟩ := parentOf isLive link
    rw [(survivor isLive).2, (survivor parentLive).2]
    exact formed.narrows index parent wasLive wasLink
  · intro index parent isLive link
    obtain ⟨wasLive, wasLink, parentLive⟩ := parentOf isLive link
    rw [(survivor isLive).2, (survivor parentLive).2]
    exact formed.serialLower index parent wasLive wasLink
  · rw [liveNodes_killAll, Finset.card_sdiff_of_subset live, ← formed.liveCount]
    rfl
  · intro index isLive
    rw [(survivor isLive).2]
    exact formed.serialPositive index (survivor isLive).1
  · intro index isLive
    rw [(survivor isLive).2]
    exact formed.serialDrawn index (survivor isLive).1
  · intro first second firstLive secondLive same
    rw [(survivor firstLive).2, (survivor secondLive).2] at same
    exact formed.serialUnique first second (survivor firstLive).1 (survivor secondLive).1 same

variable {slot : SlotRef}

theorem subtree_subset_liveNodes
    (rootLive : (arena.nodes root).live = true) : arena.subtree root ⊆ arena.liveNodes := by
  intro index member
  have derived : arena.Derived root index := mem_subtree.mp member
  have alive : arena.Alive index := Below.alive rootLive derived
  exact mem_liveNodes.mpr alive

theorem WellFormed.destroySubtree (formed : arena.WellFormed)
    (rootLive : (arena.nodes root).live = true) : (arena.destroySubtree root).2.WellFormed := by
  rw [destroySubtree_eq formed.parentsLive rootLive]
  apply formed.killAll (subtree_subset_liveNodes rootLive)
  intro index parent isLive link parentKilled
  exact mem_subtree.mpr (.child isLive link (mem_subtree.mp parentKilled))

theorem resolve_eq_some_iff :
    arena.resolve slot = some index ↔ slot.node = index.val ∧ (arena.nodes index).live = true ∧
        (arena.nodes index).generation = slot.generation := by
  unfold resolve
  by_cases inside : slot.node < maxCapabilities
  · simp only [inside, ↓reduceDIte, Bool.and_eq_true, beq_iff_eq]
    constructor
    · intro found
      split at found
      · next named =>
          cases found
          exact ⟨rfl, named⟩
      · cases found
    · rintro ⟨same, isLive, generation⟩
      have indexEq : (⟨slot.node, inside⟩ : Index) = index := Fin.ext same
      simp [indexEq, isLive, generation]
  · simp only [inside, ↓reduceDIte, reduceCtorEq, false_iff]
    rintro ⟨same, -⟩
    exact inside (same ▸ index.isLt)

theorem resolve_live (found : arena.resolve slot = some index) : (arena.nodes index).live = true :=
  (resolve_eq_some_iff.mp found).2.1

variable {object : ObjectRef}

theorem resolve_occupy : (arena.occupy free object rights badge parent owner).2.resolve
      ⟨free.val, (arena.nodes free).generation⟩ = some free := by
  rw [resolve_eq_some_iff, occupy_nodes_self]
  exact ⟨rfl, rfl, rfl⟩

theorem deriveOwned_cases (arena : Arena) (parent : SlotRef) (rights : Rights)
    (badge : UInt64) (owner : Nat) :
    (∃ error, arena.deriveOwned parent rights badge owner = (.error error, arena)) ∨
      ∃ above free, arena.resolve parent = some above ∧ arena.freeIndex = some free ∧
        Narrows (arena.nodes above) (arena.occupant free (arena.nodes above).object
          rights badge (some above) owner) ∧ arena.deriveOwned parent rights badge owner =
          (.ok { node := free.val, generation := (arena.nodes free).generation },
            (arena.occupy free (arena.nodes above).object rights badge (some above) owner).2) := by
  unfold deriveOwned
  cases found : arena.resolve parent with
  | none => exact .inl ⟨_, rfl⟩
  | some above =>
    dsimp only
    split
    · exact .inl ⟨_, rfl⟩
    next mayDerive =>
    split
    · exact .inl ⟨_, rfl⟩
    next monotone =>
    split
    · exact .inl ⟨_, rfl⟩
    next sameBadge =>
    cases room : arena.freeIndex with
    | none => exact .inl ⟨_, rfl⟩
    | some free =>
      refine .inr ⟨above, free, rfl, rfl, ⟨rfl, ?_, ?_, ?_⟩, rfl⟩
      · simpa [occupant] using monotone
      · simpa using mayDerive
      by_cases unbadged : (arena.nodes above).badge = 0
      · exact .inl unbadged
      · exact .inr (by simpa [occupant, unbadged] using sameBadge)

theorem insertRootOwned_cases (arena : Arena) (object : ObjectRef) (rights : Rights)
    (badge : UInt64) (owner : Nat) :
    (arena.insertRootOwned object rights badge owner = (.error .exhausted, arena)) ∨
      ∃ free, arena.freeIndex = some free ∧ arena.insertRootOwned object rights badge owner =
          (.ok { node := free.val, generation := (arena.nodes free).generation },
            (arena.occupy free object rights badge none owner).2) := by
  unfold insertRootOwned
  cases room : arena.freeIndex with
  | none => exact .inl rfl
  | some free => exact .inr ⟨free, rfl, rfl⟩

theorem WellFormed.insertRootOwned (formed : arena.WellFormed)
    (object : ObjectRef) (rights : Rights) (badge : UInt64) (owner : Nat) :
    (arena.insertRootOwned object rights badge owner).2.WellFormed := by
  rcases insertRootOwned_cases arena object rights badge owner with
    refused | ⟨free, room, placed⟩
  · rw [refused]
    exact formed
  · rw [placed]
    exact formed.occupy (freeIndex_dead room) (by simp)

theorem WellFormed.deriveOwned (formed : arena.WellFormed)
    (parent : SlotRef) (rights : Rights) (badge : UInt64) (owner : Nat) :
    (arena.deriveOwned parent rights badge owner).2.WellFormed := by
  rcases deriveOwned_cases arena parent rights badge owner with
    ⟨error, refused⟩ | ⟨above, free, found, room, narrows, placed⟩
  · rw [refused]
    exact formed
  rw [placed]
  apply formed.occupy (freeIndex_dead room)
  intro other same
  cases same
  exact ⟨resolve_live found, narrows⟩

theorem revokeUnchecked_cases (arena : Arena) (slot : SlotRef) :
    (arena.resolve slot = none ∧ arena.revokeUnchecked slot = (0, arena)) ∨
      ∃ index, arena.resolve slot = some index ∧
        arena.revokeUnchecked slot = arena.destroySubtree index := by
  unfold revokeUnchecked
  cases found : arena.resolve slot with
  | none => exact .inl ⟨rfl, rfl⟩
  | some index => exact .inr ⟨index, rfl, rfl⟩

theorem revoke_cases (arena : Arena) (slot : SlotRef) :
    (∃ error, arena.revoke slot = (.error error, arena)) ∨
      ∃ index, arena.resolve slot = some index ∧
        (arena.nodes index).rights.contains .revoke = true ∧ arena.revoke slot =
          (.ok (arena.destroySubtree index).1, (arena.destroySubtree index).2) := by
  unfold revoke
  cases found : arena.resolve slot with
  | none => exact .inl ⟨_, rfl⟩
  | some index =>
    dsimp only
    split
    · exact .inl ⟨_, rfl⟩
    · next permitted => exact .inr ⟨index, rfl, by simpa using permitted, rfl⟩

theorem revokeTallied_cases (arena : Arena) (slot : SlotRef) (tally : Tally) :
    (∃ error, arena.revokeTallied slot tally = (.error error, tally, arena)) ∨
      ∃ index, arena.resolve slot = some index ∧
        (arena.nodes index).rights.contains .revoke = true ∧ arena.revokeTallied slot tally =
          (.ok ({ arena with tally := some tally }.destroySubtree index).1,
            ({ arena with tally := some tally }.destroySubtree index).2.takeTally
              tally) := by
  unfold revokeTallied
  cases found : arena.resolve slot with
  | none => exact .inl ⟨_, rfl⟩
  | some index =>
    dsimp only
    split
    · exact .inl ⟨_, rfl⟩
    · next permitted => exact .inr ⟨index, rfl, by simpa using permitted, rfl⟩

theorem WellFormed.revoke (formed : arena.WellFormed) (slot : SlotRef) :
    (arena.revoke slot).2.WellFormed := by
  rcases revoke_cases arena slot with ⟨error, refused⟩ | ⟨index, found, -, destroyed⟩
  · rw [refused]
    exact formed
  · rw [destroyed]
    exact formed.destroySubtree (resolve_live found)

theorem WellFormed.revokeUnchecked (formed : arena.WellFormed)
    (slot : SlotRef) : (arena.revokeUnchecked slot).2.WellFormed := by
  rcases revokeUnchecked_cases arena slot with ⟨-, missing⟩ | ⟨index, found, destroyed⟩
  · rw [missing]
    exact formed
  · rw [destroyed]
    exact formed.destroySubtree (resolve_live found)

theorem WellFormed.revokeTallied (formed : arena.WellFormed) (slot : SlotRef) (tally : Tally) :
    (arena.revokeTallied slot tally).2.2.WellFormed := by
  rcases revokeTallied_cases arena slot tally with
    ⟨error, refused⟩ | ⟨index, found, -, destroyed⟩
  · rw [refused]
    exact formed
  · rw [destroyed]
    have collecting := formed.withTally (some tally)
    exact (collecting.destroySubtree (resolve_live found)).withTally none

theorem killAll_killAll (live : more ⊆ (arena.killAll killed).liveNodes) :
    (arena.killAll killed).killAll more = arena.killAll (killed ∪ more) := by
  induction more using Finset.induction_on with
  | empty => rw [killAll_empty, Finset.union_empty]
  | insert index rest fresh induction =>
    have isLive := mem_liveNodes.mp (live (Finset.mem_insert_self index rest))
    obtain ⟨wasLive, spared⟩ := (killAll_live_iff arena killed index).mp isLive
    rw [← kill_killAll _ fresh isLive, induction ((Finset.subset_insert _ _).trans live),
      kill_killAll arena (by simp [spared, fresh]) wasLive, Finset.union_insert]

def naming (arena : Arena) (object : ObjectRef) : Finset Index :=
  arena.liveNodes.filter fun index => (arena.nodes index).object = object

theorem mem_naming : index ∈ arena.naming object ↔
    (arena.nodes index).live = true ∧ (arena.nodes index).object = object := by
  rw [naming, Finset.mem_filter, mem_liveNodes]

theorem mem_naming_killAll : index ∈ (arena.killAll killed).naming object ↔
    index ∈ arena.naming object ∧ index ∉ killed := by
  by_cases dead : index ∈ killed
  · simp [mem_naming, killAll_nodes_mem dead, dead]
  · simp [mem_naming, killAll_nodes_not_mem dead, dead]

section

variable (formed : arena.WellFormed)
include formed

theorem WellFormed.naming_iff (isLive : (arena.nodes index).live = true)
    (link : (arena.nodes index).parent = some above) :
    index ∈ arena.naming object ↔ above ∈ arena.naming object := by
  have aboveLive : (arena.nodes above).live = true := formed.parentsLive index above isLive link
  simp [mem_naming, isLive, aboveLive, (formed.narrows index above isLive link).object]

theorem WellFormed.subtree_subset_naming (names : root ∈ arena.naming object) :
    arena.subtree root ⊆ arena.naming object := by
  intro index member
  induction mem_subtree.mp member with
  | root => exact names
  | child isLive link derived named =>
    exact (formed.naming_iff isLive link).mpr (named (mem_subtree.mpr derived))

end

/-- A set that may have been killed when the entries of `passed` have been looked at. -/
structure Felled (arena : Arena) (object : ObjectRef) (passed : List Index)
    (killed : Finset Index) : Prop where
  named : killed ⊆ arena.naming object
  below : ∀ index parent, (arena.nodes index).live = true →
    (arena.nodes index).parent = some parent → parent ∈ killed → index ∈ killed
  roots : ∀ index ∈ passed, index ∈ arena.naming object →
    (arena.nodes index).parent = none → index ∈ killed

theorem Felled.step (felled : arena.Felled object passed killed) (formed : arena.WellFormed)
    (index : Index) : ∃ more, arena.Felled object (passed ++ [index]) more ∧
      revokeRootNaming object (killed.card, arena.killAll killed) index =
        (more.card, arena.killAll more) := by
  have soFar := formed.killAll (felled.named.trans (Finset.filter_subset ..)) felled.below
  by_cases root : index ∈ (arena.killAll killed).naming object ∧ (arena.nodes index).parent = none
  · obtain ⟨isLive, names⟩ := mem_naming.mp root.1
    have fresh {node} (member : node ∈ (arena.killAll killed).subtree index) :
        node ∈ arena.naming object ∧ node ∉ killed :=
      mem_naming_killAll.mp (soFar.subtree_subset_naming root.1 member)
    have apart : Disjoint killed ((arena.killAll killed).subtree index) :=
      Finset.disjoint_right.mpr fun _ member => (fresh member).2
    refine ⟨killed ∪ (arena.killAll killed).subtree index, ⟨?_, ?_, ?_⟩, ?_⟩
    · exact Finset.union_subset felled.named fun _ member => (fresh member).1
    · intro node above nodeLive link dead
      by_cases already : node ∈ killed
      · exact Finset.mem_union_left _ already
      rcases Finset.mem_union.mp dead with old | new
      · exact absurd (felled.below node above nodeLive link old) already
      · exact Finset.mem_union_right _ (mem_subtree.mpr (.child
          ((killAll_live_iff ..).mpr ⟨nodeLive, already⟩) ((killAll_parent ..).trans link)
          (mem_subtree.mp new)))
    · refine List.forall_mem_append.mpr ⟨fun other earlier named isRoot => ?_, ?_⟩
      · exact Finset.mem_union_left _ (felled.roots other earlier named isRoot)
      · exact List.forall_mem_singleton.mpr fun _ _ =>
          Finset.mem_union_right _ (mem_subtree.mpr .root)
    · simp [revokeRootNaming, isLive, names, root.2, destroySubtree_eq soFar.parentsLive isLive,
        killAll_killAll (subtree_subset_liveNodes isLive), Finset.card_union_of_disjoint apart]
  · refine ⟨killed, ⟨felled.named, felled.below, List.forall_mem_append.mpr ⟨felled.roots, ?_⟩⟩, ?_⟩
    · refine List.forall_mem_singleton.mpr fun named isRoot => ?_
      by_contra spared
      exact root ⟨mem_naming_killAll.mpr ⟨named, spared⟩, isRoot⟩
    · rw [revokeRootNaming]
      refine if_neg fun found => root ?_
      simpa [mem_naming, and_right_comm] using found

theorem foldl_revokeRootNaming (formed : arena.WellFormed) (entries : List Index) :
    ∃ killed, arena.Felled object entries killed ∧
      entries.foldl (revokeRootNaming object) (0, arena) = (killed.card, arena.killAll killed) := by
  induction entries using List.reverseRecOn with
  | nil => exact ⟨∅, ⟨nofun, nofun, nofun⟩, by rw [killAll_empty]; rfl⟩
  | append_singleton passed index induction =>
    obtain ⟨killed, felled, result⟩ := induction
    rw [List.foldl_concat, result]
    exact felled.step formed index

theorem revokeRootsNaming_eq (formed : arena.WellFormed) (object : ObjectRef) (tally : Tally) :
    arena.revokeRootsNaming object tally = ((arena.naming object).card,
      tally.addAll fun owner => (arena.chargedTo (arena.naming object) owner).card,
      { arena.killAll (arena.naming object) with tally := none }) := by
  obtain ⟨killed, felled, result⟩ := @foldl_revokeRootNaming _ object
    (formed.withTally (some tally)) (List.finRange maxCapabilities)
  -- What names the object hangs below a root that does.
  have all : ∀ index, index ∈ arena.naming object → index ∈ killed := by
    intro index
    induction rank : (arena.nodes index).serial using Nat.strong_induction_on
      generalizing index with
    | _ serial induction =>
      intro names
      have isLive := (mem_naming.mp names).1
      cases link : (arena.nodes index).parent with
      | none => exact felled.roots index (List.mem_finRange index) names link
      | some above =>
        refine felled.below index above isLive link (induction _ ?_ above rfl ?_)
        · exact rank ▸ formed.serialLower index above isLive link
        · exact (formed.naming_iff isLive link).mp names
  rw [revokeRootsNaming, result, Finset.Subset.antisymm felled.named all]
  rfl

theorem WellFormed.revokeRootsNaming (formed : arena.WellFormed)
    (object : ObjectRef) (tally : Tally) :
    (arena.revokeRootsNaming object tally).2.2.WellFormed := by
  rw [revokeRootsNaming_eq formed]
  refine (formed.killAll (Finset.filter_subset ..) ?_).withTally none
  exact fun index above isLive link => (formed.naming_iff isLive link).mpr

inductive Op where
  | insertRoot (object : ObjectRef) (rights : Rights) (badge : UInt64)
  | insertRootOwned (object : ObjectRef) (rights : Rights) (badge : UInt64)
      (owner : Nat)
  | derive (parent : SlotRef) (rights : Rights) (badge : UInt64)
  | deriveOwned (parent : SlotRef) (rights : Rights) (badge : UInt64) (owner : Nat)
  | revoke (slot : SlotRef)
  | revokeUnchecked (slot : SlotRef)
  | revokeTallied (slot : SlotRef) (tally : Tally)
  | revokeRootsNaming (object : ObjectRef) (tally : Tally)

def apply (arena : Arena) : Op → Arena
  | .insertRoot object rights badge => (arena.insertRoot object rights badge).2
  | .insertRootOwned object rights badge owner =>
    (arena.insertRootOwned object rights badge owner).2
  | .derive parent rights badge => (arena.derive parent rights badge).2
  | .deriveOwned parent rights badge owner =>
    (arena.deriveOwned parent rights badge owner).2
  | .revoke slot => (arena.revoke slot).2
  | .revokeUnchecked slot => (arena.revokeUnchecked slot).2
  | .revokeTallied slot tally => (arena.revokeTallied slot tally).2.2
  | .revokeRootsNaming object tally => (arena.revokeRootsNaming object tally).2.2

def run (arena : Arena) (ops : List Op) : Arena :=
  ops.foldl apply arena

theorem WellFormed.apply (formed : arena.WellFormed) (op : Op) : (arena.apply op).WellFormed := by
  cases op with
  | insertRoot object rights badge =>
    exact formed.insertRootOwned object rights badge ownerKernel
  | insertRootOwned object rights badge owner =>
    exact formed.insertRootOwned object rights badge owner
  | derive parent rights badge =>
    exact formed.deriveOwned parent rights badge ownerKernel
  | deriveOwned parent rights badge owner =>
    exact formed.deriveOwned parent rights badge owner
  | revoke slot => exact formed.revoke slot
  | revokeUnchecked slot => exact formed.revokeUnchecked slot
  | revokeTallied slot tally => exact formed.revokeTallied slot tally
  | revokeRootsNaming object tally => exact formed.revokeRootsNaming object tally

theorem WellFormed.run (formed : arena.WellFormed) (ops : List Op) :
    (arena.run ops).WellFormed := by
  induction ops generalizing arena with
  | nil => exact formed
  | cons op rest induction => exact induction (formed.apply op)

/-- Along any run from the empty arena the live nodes form a forest in which
authority never grows, counted and serialled exactly. -/
theorem run_forest (ops : List Op) : let arena := Arena.new.run ops
    (∀ index parent, (arena.nodes index).live = true → (arena.nodes index).parent = some parent →
      (arena.nodes parent).live = true ∧ (arena.nodes index).object = (arena.nodes parent).object ∧
        (arena.nodes parent).rights.contains (arena.nodes index).rights = true ∧
        (arena.nodes parent).rights.contains .derive = true ∧
        ((arena.nodes parent).badge = 0 ∨ (arena.nodes index).badge = (arena.nodes parent).badge)) ∧
    (∀ index, (arena.nodes index).live = true →
      ∃ steps root, climb (fun node => (arena.nodes node).parent) steps index = some root ∧
        (arena.nodes root).live = true ∧ (arena.nodes root).parent = none) ∧
    arena.live = (Finset.univ.filter fun index => (arena.nodes index).live).card ∧
    (∀ first second, (arena.nodes first).live = true → (arena.nodes second).live = true →
      (arena.nodes first).serial = (arena.nodes second).serial → first = second) ∧
    (∀ index, (arena.nodes index).live = true →
      (arena.nodes index).serial ≠ 0 ∧ (arena.nodes index).serial ≤ arena.serials) := by
  intro arena
  have formed : arena.WellFormed := wellFormed_new.run ops
  refine ⟨?_, ?_, formed.liveCount, formed.serialUnique, ?_⟩
  · intro index parent isLive link
    have narrows := formed.narrows index parent isLive link
    exact ⟨formed.parentsLive index parent isLive link, narrows.object,
      narrows.rights, narrows.derive, narrows.badge⟩
  · intro index isLive
    exact climb_reaches_root (fun index => (arena.nodes index).serial)
      formed.parentsLive formed.serialLower isLive
  · intro index isLive
    exact ⟨(formed.serialPositive index isLive).ne', formed.serialDrawn index isLive⟩

end Arena

end Bhaskix.Cap
