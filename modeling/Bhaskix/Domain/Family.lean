import Bhaskix.Domain.Lifecycle

namespace Bhaskix

open Cap

structure Kin where
  id : Nat
  generation : UInt32
  parent : Nat
  parentGeneration : UInt32
  children : Nat
  limit : Nat
  live : Bool

def Domain.kin (domain : Domain) : Kin where
  id := domain.id
  generation := domain.generation
  parent := domain.parent
  parentGeneration := domain.parentGeneration
  children := domain.children
  limit := domain.envelope.maxChildDomains
  live := domain.live

/-- They differ at most in the number of their children. -/
def Kin.Same (before after : Kin) : Prop :=
  after.live = before.live ∧ after.id = before.id ∧ after.generation = before.generation ∧
    after.parent = before.parent ∧ after.parentGeneration = before.parentGeneration ∧
    after.limit = before.limit

abbrev Kinship := Fin maxDomains → Kin

def System.kin (sys : System) : Kinship :=
  fun slot => (sys.domains slot).kin

theorem slot_ne_u32Max (slot : Fin maxDomains) : slot.val ≠ u32Max := by
  have bound := slot.isLt
  simp only [maxDomains, u32Max] at bound ⊢
  omega

namespace Kinship

variable (table : Kinship)

/-- `child` is live and records the domain now in slot `owner`, this very
incarnation of it, as its creator. -/
def Records (child owner : Fin maxDomains) : Prop :=
  (table child).live = true ∧ (table child).parent = owner.val ∧
    (table child).parentGeneration = (table owner).generation

instance (table : Kinship) (child owner : Fin maxDomains) :
    Decidable (table.Records child owner) :=
  inferInstanceAs (Decidable (_ ∧ _ ∧ _))

def recordedBy (owner : Fin maxDomains) : Finset (Fin maxDomains) :=
  Finset.univ.filter fun child => table.Records child owner

def liveSlots : Finset (Fin maxDomains) :=
  Finset.univ.filter fun slot => (table slot).live

variable {table before after : Kinship} {owner slot : Fin maxDomains}

@[simp] theorem mem_recordedBy : child ∈ table.recordedBy owner ↔ table.Records child owner := by
  simp [recordedBy]

@[simp] theorem mem_liveSlots : slot ∈ table.liveSlots ↔ (table slot).live = true := by
  simp [liveSlots]

/-- While a domain is being ended its children are `orphans`: still live under a dead creator. -/
structure Family (table : Kinship) (orphans : Finset (Fin maxDomains)) : Prop where
  named : ∀ slot, (table slot).live = true → (table slot).id = slot.val
  parentLive : ∀ slot, (table slot).live = true → (table slot).parent ≠ u32Max →
    ∃ owner : Fin maxDomains, owner.val = (table slot).parent ∧
      (((table owner).live = true ∧
          (table owner).generation = (table slot).parentGeneration) ∨
        (slot ∈ orphans ∧ (table owner).live = false))
  counted : ∀ slot, (table slot).live = true →
    (table slot).children = (table.recordedBy slot).card
  bounded : ∀ slot, (table slot).live = true →
    (table slot).children ≤ (table slot).limit

def Shrinks (before after : Kinship) : Prop :=
  ∀ slot, (after slot).live = true → (before slot).live = true ∧
    (after slot).parent = (before slot).parent ∧
    (after slot).parentGeneration = (before slot).parentGeneration ∧
    (after slot).generation = (before slot).generation

theorem Shrinks.refl (table : Kinship) : table.Shrinks table :=
  fun _ isLive => ⟨isLive, rfl, rfl, rfl⟩

theorem Shrinks.trans {first : Kinship} (earlier : first.Shrinks second)
    (later : second.Shrinks third) : first.Shrinks third := by
  intro slot isLive
  obtain ⟨liveSecond, parentSecond, recordedSecond, generationSecond⟩ := later slot isLive
  obtain ⟨liveFirst, parentFirst, recordedFirst, generationFirst⟩ := earlier slot liveSecond
  exact ⟨liveFirst, parentSecond.trans parentFirst, recordedSecond.trans recordedFirst,
    generationSecond.trans generationFirst⟩

theorem Shrinks.dead (shrinks : before.Shrinks after)
    (isDead : (before slot).live = false) : (after slot).live = false := by
  cases isLive : (after slot).live with
  | false => rfl
  | true =>
    have impossible := (shrinks slot isLive).1
    rw [isDead] at impossible
    cases impossible

theorem Shrinks.card_le (shrinks : before.Shrinks after) :
    after.liveSlots.card ≤ before.liveSlots.card := by
  apply Finset.card_le_card
  intro slot isLive
  rw [mem_liveSlots] at isLive ⊢
  exact (shrinks slot isLive).1

theorem Family.settle (family : table.Family (orphans ∪ ended))
    (isDead : ∀ slot ∈ ended, (table slot).live = false) : table.Family orphans := by
  refine { family with parentLive := ?_ }
  intro slot isLive recorded
  obtain ⟨owner, isOwner, alive | ⟨orphan, gone⟩⟩ := family.parentLive slot isLive recorded
  · exact ⟨owner, isOwner, .inl alive⟩
  rcases Finset.mem_union.mp orphan with kept | inEnded
  · exact ⟨owner, isOwner, .inr ⟨kept, gone⟩⟩
  · rw [isDead slot inEnded] at isLive
    cases isLive

theorem Family.child_dead (family : after.Family ∅) (shrinks : before.Shrinks after)
    (link : before.Records child owner) (ownerDead : (after owner).live = false) :
    (after child).live = false := by
  cases isLive : (after child).live with
  | false => rfl
  | true =>
    obtain ⟨_, sameParent, _, _⟩ := shrinks child isLive
    have recorded : (after child).parent = owner.val := sameParent.trans link.2.1
    have notRoot : (after child).parent ≠ u32Max := recorded ▸ slot_ne_u32Max owner
    obtain ⟨found, isFound, ⟨alive, _⟩ | ⟨orphan, _⟩⟩ :=
      family.parentLive child isLive notRoot
    · have same : found = owner := Fin.ext (isFound.trans recorded)
      rw [same, ownerDead] at alive
      cases alive
    · simp at orphan

theorem Family.descendants_dead (family : after.Family ∅) (shrinks : before.Shrinks after)
    (isDead : (after ancestor).live = false)
    (descends : Relation.TransGen before.Records slot ancestor) : (after slot).live = false := by
  -- Downwards from the ancestor: each child is dead because its creator is.
  induction descends using Relation.TransGen.head_induction_on with
  | single link => exact family.child_dead shrinks link isDead
  | head link _ ownerDead => exact family.child_dead shrinks link ownerDead

structure Buries (before after : Kinship) (slot : Fin maxDomains) : Prop where
  wasLive : (before slot).live = true
  dead : (after slot).live = false
  others : ∀ other, other ≠ slot → after other =
    if (before other).live = true ∧ before.Records slot other then
      { before other with children := (before other).children - 1 }
    else before other

section Buries

variable {before after : Kinship} {slot : Fin maxDomains} (buries : before.Buries after slot)

include buries

theorem Buries.keeps (isOther : other ≠ slot) : (before other).Same (after other) := by
  rw [buries.others other isOther]
  split <;> exact ⟨rfl, rfl, rfl, rfl, rfl, rfl⟩

theorem Buries.ne_of_live (isLive : (after other).live = true) : other ≠ slot := by
  rintro rfl
  rw [buries.dead] at isLive
  cases isLive

theorem Buries.shrinks : before.Shrinks after := by
  intro other isLive
  obtain ⟨sameLive, _, sameGeneration, sameParent, sameRecorded, _⟩ :=
    buries.keeps (buries.ne_of_live isLive)
  exact ⟨sameLive ▸ isLive, sameParent, sameRecorded, sameGeneration⟩

theorem Buries.liveSlots_card : after.liveSlots.card + 1 = before.liveSlots.card := by
  have erased : after.liveSlots = before.liveSlots.erase slot := by
    ext other
    rw [Finset.mem_erase, mem_liveSlots, mem_liveSlots]
    constructor
    · intro isLive
      exact ⟨buries.ne_of_live isLive, (buries.shrinks other isLive).1⟩
    · rintro ⟨isOther, isLive⟩
      rw [(buries.keeps isOther).1]
      exact isLive
  rw [erased]
  exact Finset.card_erase_add_one (mem_liveSlots.mpr buries.wasLive)

theorem Buries.recordedBy (isOther : other ≠ slot) :
    after.recordedBy other = (before.recordedBy other).erase slot := by
  ext child
  rw [Finset.mem_erase, mem_recordedBy, mem_recordedBy]
  by_cases isSlot : child = slot
  · subst child
    simp [Records, buries.dead]
  · obtain ⟨sameLive, _, _, sameParent, sameRecorded, _⟩ := buries.keeps isSlot
    obtain ⟨_, _, sameGeneration, _⟩ := buries.keeps isOther
    simp [Records, isSlot, sameLive, sameParent, sameRecorded, sameGeneration]

theorem Buries.children (isOther : other ≠ slot) (isLive : (before other).live = true)
    (counted : (before other).children = (before.recordedBy other).card) :
    (after other).children = (after.recordedBy other).card := by
  rw [buries.recordedBy isOther, buries.others other isOther]
  by_cases records : before.Records slot other
  · rw [if_pos ⟨isLive, records⟩, Finset.card_erase_of_mem (mem_recordedBy.mpr records), counted]
  · rw [if_neg (fun both => records both.2),
      Finset.erase_eq_of_notMem (fun member => records (mem_recordedBy.mp member)), counted]

theorem Family.bury (family : before.Family orphans) :
    after.Family (orphans ∪ before.recordedBy slot) := by
  constructor
  case named =>
    intro other isLive
    have kept := buries.keeps (buries.ne_of_live isLive)
    rw [kept.2.1]
    exact family.named other (kept.1 ▸ isLive)
  case parentLive =>
    intro other isLive recorded
    have isOther := buries.ne_of_live isLive
    obtain ⟨sameLive, _, _, sameParent, sameRecorded, _⟩ := buries.keeps isOther
    rw [sameLive] at isLive
    rw [sameParent] at recorded ⊢
    rw [sameRecorded]
    obtain ⟨owner, isOwner, standing⟩ := family.parentLive other isLive recorded
    refine ⟨owner, isOwner, ?_⟩
    by_cases own : owner = slot
    · subst owner
      rcases standing with ⟨_, sameGeneration⟩ | ⟨_, gone⟩
      · have child : before.Records other slot := ⟨isLive, isOwner.symm, sameGeneration.symm⟩
        exact .inr ⟨Finset.mem_union_right _ (mem_recordedBy.mpr child), buries.dead⟩
      · rw [buries.wasLive] at gone
        cases gone
    · obtain ⟨ownerLive, _, ownerGeneration, _⟩ := buries.keeps own
      rw [ownerLive, ownerGeneration]
      rcases standing with alive | ⟨orphan, gone⟩
      · exact .inl alive
      · exact .inr ⟨Finset.mem_union_left _ orphan, gone⟩
  case counted =>
    intro other isLive
    have isOther := buries.ne_of_live isLive
    have wasLive := (buries.shrinks other isLive).1
    exact buries.children isOther wasLive (family.counted other wasLive)
  case bounded =>
    intro other isLive
    have isOther := buries.ne_of_live isLive
    have wasLive := (buries.shrinks other isLive).1
    have bound := family.bounded other wasLive
    rw [buries.others other isOther]
    split
    · exact (Nat.sub_le _ _).trans bound
    · exact bound

end Buries

structure Admits (before after : Kinship) (slot : Fin maxDomains)
    (owner : Option (Fin maxDomains)) : Prop where
  wasDead : (before slot).live = false
  owned : ∀ parent ∈ owner, (before parent).live = true ∧
    (before parent).children < (before parent).limit
  entered : (after slot).live = true ∧ (after slot).id = slot.val ∧
    (after slot).generation = (before slot).generation ∧ (after slot).children = 0 ∧
    (after slot).parent = (owner.map Fin.val).getD u32Max ∧
    ∀ parent ∈ owner, (after slot).parentGeneration = (before parent).generation
  others : ∀ other, other ≠ slot → after other =
    if owner = some other then
      { before other with children := min ((before other).children + 1) u32Max }
    else before other

section Admits

variable {before after : Kinship} {slot : Fin maxDomains} {owner : Option (Fin maxDomains)}
  (admits : before.Admits after slot owner)

include admits

theorem Admits.keeps (isOther : other ≠ slot) : (before other).Same (after other) := by
  rw [admits.others other isOther]
  split <;> exact ⟨rfl, rfl, rfl, rfl, rfl, rfl⟩

theorem Admits.generation (other : Fin maxDomains) :
    (after other).generation = (before other).generation := by
  by_cases same : other = slot
  · subst other
    exact admits.entered.2.2.1
  · exact (admits.keeps same).2.2.1

theorem Admits.recordedBy_slot (family : before.Family ∅) : after.recordedBy slot = ∅ := by
  apply Finset.eq_empty_of_forall_notMem
  intro child member
  obtain ⟨isLive, recorded, _⟩ := mem_recordedBy.mp member
  by_cases same : child = slot
  · subst child
    rw [admits.entered.2.2.2.2.1] at recorded
    cases own : owner with
    | none =>
      rw [own] at recorded
      exact slot_ne_u32Max slot recorded.symm
    | some parent =>
      have ownerLive := (admits.owned parent (by simp [own])).1
      rw [own] at recorded
      have isSlot : parent = slot := Fin.ext recorded
      rw [isSlot, admits.wasDead] at ownerLive
      cases ownerLive
  · obtain ⟨sameLive, _, _, sameParent, _⟩ := admits.keeps same
    rw [sameLive] at isLive
    rw [sameParent] at recorded
    obtain ⟨found, isFound, ⟨alive, _⟩ | ⟨orphan, _⟩⟩ :=
      family.parentLive child isLive (recorded ▸ slot_ne_u32Max slot)
    · have isSlot : found = slot := Fin.ext (isFound.trans recorded)
      rw [isSlot, admits.wasDead] at alive
      cases alive
    · simp at orphan

theorem Admits.records_iff : after.Records slot other ↔ owner = some other := by
  obtain ⟨isLive, _, _, _, sameParent, sameGeneration⟩ := admits.entered
  constructor
  · rintro ⟨_, recorded, _⟩
    rw [sameParent] at recorded
    cases own : owner with
    | none =>
      rw [own] at recorded
      exact absurd recorded.symm (slot_ne_u32Max other)
    | some parent =>
      rw [own] at recorded
      exact congrArg some (Fin.ext recorded)
  · intro own
    refine ⟨isLive, by rw [sameParent, own]; rfl, ?_⟩
    rw [admits.generation other]
    exact sameGeneration other own

theorem Admits.recordedBy_other : other ≠ slot → after.recordedBy other =
      if owner = some other then insert slot (before.recordedBy other)
      else before.recordedBy other := by
  intro isOther
  have unchanged : ∀ child, child ≠ slot →
      (after.Records child other ↔ before.Records child other) := by
    intro child isChild
    obtain ⟨sameLive, _, _, sameParent, sameRecorded, _⟩ := admits.keeps isChild
    simp [Records, sameLive, sameParent, sameRecorded, admits.generation other]
  have fresh : ¬ before.Records slot other := by
    rintro ⟨isLive, _⟩
    rw [admits.wasDead] at isLive
    cases isLive
  ext child
  by_cases same : child = slot
  · subst child
    rw [mem_recordedBy, admits.records_iff]
    split
    · next own => simp [own]
    · next own => simp [own, fresh]
  · rw [mem_recordedBy, unchanged child same]
    split <;> simp [same]

theorem Admits.children_other (family : before.Family ∅)
    (isOther : other ≠ slot) (isLive : (before other).live = true) :
    (after other).children = (after.recordedBy other).card ∧
      (after other).children ≤ (after other).limit := by
  have counted := family.counted other isLive
  have bounded := family.bounded other isLive
  rw [admits.recordedBy_other isOther, admits.others other isOther]
  by_cases own : owner = some other
  · have room := (admits.owned other own).2
    have fresh : slot ∉ before.recordedBy other := by
      intro member
      have wasLive := (mem_recordedBy.mp member).1
      rw [admits.wasDead] at wasLive
      cases wasLive
    have slots : (before.recordedBy other).card ≤ maxDomains :=
      (Finset.card_le_univ _).trans_eq (Fintype.card_fin _)
    rw [if_pos own, if_pos own, Finset.card_insert_of_notMem fresh, ← counted]
    rw [← counted] at slots
    simp only [maxDomains] at slots
    simp only [u32Max]
    omega
  · rw [if_neg own, if_neg own]
    exact ⟨counted, bounded⟩

theorem Family.enter (family : before.Family ∅) : after.Family ∅ := by
  obtain ⟨_, newId, _, newChildren, newParent, newGeneration⟩ := admits.entered
  constructor
  case named =>
    intro other isLive
    by_cases same : other = slot
    · rw [same, newId]
    have kept := admits.keeps same
    rw [kept.2.1]
    exact family.named other (kept.1 ▸ isLive)
  case parentLive =>
    intro other isLive recorded
    by_cases same : other = slot
    · subst other
      cases own : owner with
      | none => exact absurd (by simp [newParent, own]) recorded
      | some parent =>
        have ownerLive := (admits.owned parent own).1
        have isOther : parent ≠ slot := by
          rintro rfl
          rw [admits.wasDead] at ownerLive
          cases ownerLive
        refine ⟨parent, by simp [newParent, own], .inl ⟨?_, ?_⟩⟩
        · rw [(admits.keeps isOther).1]
          exact ownerLive
        · rw [admits.generation parent, newGeneration parent own]
    · obtain ⟨sameLive, _, _, sameParent, sameRecorded, _⟩ := admits.keeps same
      rw [sameLive] at isLive
      rw [sameParent] at recorded ⊢
      obtain ⟨found, isFound, ⟨alive, sameGeneration⟩ | ⟨orphan, _⟩⟩ :=
        family.parentLive other isLive recorded
      · have isOther : found ≠ slot := by
          rintro rfl
          rw [admits.wasDead] at alive
          cases alive
        refine ⟨found, isFound, .inl ⟨?_, ?_⟩⟩
        · rw [(admits.keeps isOther).1]
          exact alive
        · rw [admits.generation found, sameRecorded]
          exact sameGeneration
      · simp at orphan
  case counted =>
    intro other isLive
    by_cases same : other = slot
    · rw [same, newChildren, admits.recordedBy_slot family, Finset.card_empty]
    · exact (admits.children_other family same ((admits.keeps same).1 ▸ isLive)).1
  case bounded =>
    intro other isLive
    by_cases same : other = slot
    · rw [same, newChildren]
      exact Nat.zero_le _
    · exact (admits.children_other family same ((admits.keeps same).1 ▸ isLive)).2

end Admits

end Kinship

namespace System

open Kinship

theorem slotAt_eq_some_iff (id : Nat) (slot : Fin maxDomains) :
    slotAt id = some slot ↔ slot.val = id := by
  unfold slotAt
  split
  · next inside =>
      constructor
      · intro same
        cases same
        rfl
      · rintro rfl
        rfl
  · next outside =>
      constructor
      · intro impossible
        cases impossible
      · rintro rfl
        exact absurd slot.isLt outside

variable (sys : System) (slot : Fin maxDomains) (owner : Nat)

theorem slotAt_val : slotAt slot.val = some slot :=
  (slotAt_eq_some_iff slot.val slot).mpr rfl

theorem kin_releaseTally (tally : Tally) : (sys.releaseTally owner tally).kin = sys.kin := by
  unfold releaseTally
  generalize List.finRange maxOwners = owners
  induction owners generalizing sys with
  | nil => rfl
  | cons charged rest induction =>
    rw [List.foldl_cons, induction]
    split
    · funext slot
      refine withDomain_keeps Domain.kin _ ?_ sys charged.val slot
      intro domain
      rw [Domain.releaseCapabilities_eq]
      rfl
    · rfl

theorem kin_withArena (arena : Arena) : ({ sys with arena } : System).kin = sys.kin := rfl

theorem kin_destroyMemory (sys : System) (identity : Nat) :
    (destroyMemory owner sys identity).kin = sys.kin := by
  rw [destroyMemory, kin_releaseTally, kin_withArena]

theorem kin_destroyOwnedBy (identities : List Nat) :
    (sys.destroyOwnedBy owner identities).kin = sys.kin := by
  unfold destroyOwnedBy
  induction identities generalizing sys with
  | nil => rfl
  | cons identity rest induction => rw [List.foldl_cons, induction, kin_destroyMemory]

theorem kin_releaseOwned (id : Nat) (identities : List Nat) :
    (sys.releaseOwned id identities).kin = sys.kin := by
  rw [← kin_destroyOwnedBy sys id identities]
  funext slot
  exact withDomain_keeps Domain.kin (fun domain => { domain with spaceRoot := 0 })
    (fun _ => rfl) _ id slot

theorem kin_revokeRoot (root : Option SlotRef) : (sys.revokeRoot root).kin = sys.kin := by
  cases root <;> rfl

theorem refundParent_kin (parent : Nat) (parentGeneration : UInt32) (slot : Fin maxDomains) :
    (sys.refundParent parent parentGeneration).kin slot =
      if (sys.kin slot).live = true ∧ parent = slot.val ∧
          parentGeneration = (sys.kin slot).generation then
        { sys.kin slot with children := (sys.kin slot).children - 1 }
      else sys.kin slot := by
  unfold refundParent
  cases found : slotAt parent with
  | none =>
    rw [if_neg]
    rintro ⟨_, recorded, _⟩
    rw [recorded, slotAt_val] at found
    cases found
  | some owner =>
    have isOwner := (slotAt_eq_some_iff _ _).mp found
    have notRoot : parent ≠ u32Max := isOwner ▸ slot_ne_u32Max owner
    dsimp only
    by_cases refunded : (sys.domains owner).live = true ∧
        (sys.domains owner).generation = parentGeneration
    · rw [if_pos ⟨notRoot, refunded⟩]
      by_cases same : slot = owner
      · subst slot
        rw [if_pos ⟨refunded.1, isOwner.symm, refunded.2.symm⟩]
        simp [kin, setDomain_domains, Domain.kin]
      · rw [if_neg fun both => same (Fin.ext (both.2.1.symm.trans isOwner.symm))]
        simp [kin, setDomain_domains, same]
    · rw [if_neg fun both => refunded both.2, if_neg]
      rintro ⟨isLive, recorded, sameGeneration⟩
      have same : slot = owner := Fin.ext (recorded.symm.trans isOwner.symm)
      subst slot
      exact refunded ⟨isLive, sameGeneration.symm⟩

theorem bury_buries (reason : Ending) (isLive : (sys.kin slot).live = true) :
    sys.kin.Buries (sys.bury slot reason).kin slot := by
  have marked : ∀ other, (sys.setDomain slot
      ((sys.domains slot).buried (sys.watched (sys.domains slot)) reason)).kin other =
      if other = slot then
        ((sys.domains slot).buried (sys.watched (sys.domains slot)) reason).kin
      else sys.kin other := by
    intro other
    simp only [kin, setDomain_domains]
    split <;> rfl
  refine ⟨isLive, ?_, ?_⟩
  · rw [bury, refundParent_kin, marked slot, if_pos rfl, if_neg]
    · rfl
    · rintro ⟨impossible, _⟩
      cases impossible
  · intro other isOther
    rw [bury, refundParent_kin, marked other, if_neg isOther]
    refine if_congr ?_ rfl rfl
    simp only [Records, isLive, true_and]
    rfl

variable {orphans : Finset (Fin maxDomains)}

theorem childrenOf_bury (reason : Ending) (family : sys.kin.Family orphans)
    (isLive : (sys.kin slot).live = true)
    (recorded : sys.kin.Records child slot) (isOther : child ≠ slot) :
    child.val ∈ (sys.bury slot reason).childrenOf slot.val (sys.domains slot).generation := by
  obtain ⟨sameLive, sameId, _, sameParent, sameRecorded, _⟩ :=
    (bury_buries sys slot reason isLive).keeps isOther
  obtain ⟨childLive, childParent, childGeneration⟩ := recorded
  refine List.mem_map.mpr ⟨child, List.mem_filter.mpr ⟨List.mem_finRange child, ?_⟩, ?_⟩
  · have isChild : ((sys.bury slot reason).domains child).live = true ∧
        ((sys.bury slot reason).domains child).parent = slot.val ∧
        ((sys.bury slot reason).domains child).parentGeneration = (sys.domains slot).generation :=
      ⟨sameLive.trans childLive, sameParent.trans childParent, sameRecorded.trans childGeneration⟩
    simp [isChild]
  · exact sameId.trans (family.named child childLive)

/-- What an ending leaves behind: the tree it found, less some domains, `id` among
them. -/
structure Ends (before after : System) (orphans : Finset (Fin maxDomains)) (id : Nat) :
    Prop where
  family : after.kin.Family orphans
  shrinks : before.kin.Shrinks after.kin
  dead : ∀ slot : Fin maxDomains, slot.val = id → (after.kin slot).live = false

theorem endAll_spec (endOne : ∀ sys id, sys.kin.Family orphans → sys.kin.liveSlots.card < depth →
      ∃ found after, endDepth ownedMemory depth sys id .killed = some (found, after) ∧
        Ends sys after orphans id) :
    ∀ (children : List Nat) (sys : System), sys.kin.Family orphans →
      sys.kin.liveSlots.card < depth → ∃ after, children.foldlM (fun sys child =>
          (endDepth ownedMemory depth sys child .killed).map Prod.snd) sys = some after ∧
        after.kin.Family orphans ∧ sys.kin.Shrinks after.kin ∧
        ∀ slot : Fin maxDomains, slot.val ∈ children → (after.kin slot).live = false
  | [], sys, family, _ => ⟨sys, rfl, family, .refl _, by simp⟩
  | child :: rest, sys, family, deep => by
      obtain ⟨found, middle, ended, ends⟩ := endOne sys child family deep
      obtain ⟨after, restEnded, afterFamily, shrinks, restDead⟩ :=
        endAll_spec endOne rest middle ends.family (ends.shrinks.card_le.trans_lt deep)
      refine ⟨after, ?_, afterFamily, ends.shrinks.trans shrinks, ?_⟩
      · rw [List.foldlM_cons, ended]
        exact restEnded
      intro slot member
      rcases List.mem_cons.mp member with isChild | inRest
      · exact shrinks.dead (ends.dead slot isChild)
      · exact restDead slot inRest

theorem endDepth_spec (ownedMemory : Nat → List Nat) :
    ∀ (depth : Nat) (sys : System) (id : Nat) (reason : Ending)
      (orphans : Finset (Fin maxDomains)), sys.kin.Family orphans → sys.kin.liveSlots.card < depth →
      ∃ found after, endDepth ownedMemory depth sys id reason = some (found, after) ∧
        Ends sys after orphans id
  | 0, _, _, _, _, _, deep => absurd deep (Nat.not_lt_zero _)
  | depth + 1, sys, id, reason, orphans, family, deep => by
      have same := kin_releaseOwned sys id (ownedMemory id)
      rw [endDepth]
      generalize sys.releaseOwned id (ownedMemory id) = cleared at same
      rw [← same] at family deep
      cases found : cleared.liveSlot id with
      | none =>
        refine ⟨false, cleared, rfl, family, same ▸ .refl _, ?_⟩
        intro slot isSlot
        by_contra isLive
        have alive : cleared.liveSlot id = some slot :=
          (liveSlot_eq_some_iff _ _ _).mpr ⟨isSlot, Bool.eq_true_of_not_eq_false isLive⟩
        rw [found] at alive
        cases alive
      | some slot =>
        obtain ⟨isSlot, isLive⟩ := (liveSlot_eq_some_iff _ _ _).mp found
        have buries := bury_buries cleared slot reason isLive
        have left : (cleared.bury slot reason).kin.liveSlots.card < depth := by
          have counted := buries.liveSlots_card
          omega
        obtain ⟨after, ended, afterFamily, shrinks, childrenDead⟩ :=
          endAll_spec (fun sys id => endDepth_spec ownedMemory depth sys id .killed _)
            ((cleared.bury slot reason).childrenOf id (cleared.domains slot).generation)
            (cleared.bury slot reason) (Family.bury buries family) left
        refine ⟨true, after.revokeRoot (cleared.domains slot).root, ?_, ?_⟩
        · simp only [ended, Option.map_some]
        have slotDead : (after.kin slot).live = false := shrinks.dead buries.dead
        constructor
        · rw [kin_revokeRoot]
          refine afterFamily.settle fun child recorded => ?_
          by_cases isSlot' : child = slot
          · rw [isSlot']
            exact slotDead
          · exact childrenDead child (isSlot ▸ childrenOf_bury cleared slot reason family
              isLive (mem_recordedBy.mp recorded) isSlot')
        · rw [kin_revokeRoot, ← same]
          exact buries.shrinks.trans shrinks
        · intro other isOther
          rw [kin_revokeRoot, show other = slot from Fin.ext (isOther.trans isSlot.symm)]
          exact slotDead

variable {sys : System} {parent : Option Nat}

theorem endDomain_spec (family : sys.kin.Family ∅)
    (ownedMemory : Nat → List Nat) (id : Nat) (reason : Ending) :
    (endDepth ownedMemory (maxDomains + 1) sys id reason).isSome = true ∧
      Ends sys (sys.endDomain ownedMemory id reason).2 ∅ id := by
  have deep : sys.kin.liveSlots.card < maxDomains + 1 :=
    Nat.lt_succ_of_le ((Finset.card_le_univ _).trans_eq (Fintype.card_fin _))
  obtain ⟨found, after, ended, ends⟩ :=
    endDepth_spec ownedMemory (maxDomains + 1) sys id reason ∅ family deep
  rw [endDomain, ended]
  exact ⟨rfl, ends⟩

theorem checkParent_ok (accepted : sys.checkParent parent = .ok ()) :
    parent = (parent.bind slotAt).map Fin.val ∧
      ∀ owner ∈ parent.bind slotAt, (sys.kin owner).live = true ∧
        (sys.kin owner).children < (sys.kin owner).limit := by
  cases parent with
  | none => simp
  | some parent =>
    simp only [checkParent] at accepted
    split at accepted
    · cases accepted
    next owner found =>
    obtain ⟨rfl, isLive⟩ := (liveSlot_eq_some_iff _ _ _).mp found
    split at accepted
    · cases accepted
    next room =>
    simp only [Option.bind_some, slotAt_val, Option.map_some, true_and]
    rintro other ⟨⟩
    exact ⟨isLive, Nat.lt_of_not_le room⟩

theorem freeSlot_free (found : sys.freeSlot threadsCountedIn = some index) :
    (sys.domains index).live = false ∧ (sys.domains index).ended = none := by
  have free := List.find?_some found
  simp only [Bool.and_eq_true, Bool.not_eq_true', Option.isNone_iff_eq_none] at free
  exact free.1

theorem created_kin (isOther : parent.bind slotAt ≠ some index) (arena : Arena) (domain : Domain)
    (other : Fin maxDomains) :
    ((({ sys with arena } : System).setDomain index domain).chargeChild parent).kin other =
      if other = index then domain.kin
      else if parent.bind slotAt = some other then
        { sys.kin other with children := min ((sys.kin other).children + 1) u32Max }
      else sys.kin other := by
  have entered : ∀ other, (({ sys with arena } : System).setDomain index domain).domains
      other = if other = index then domain else sys.domains other :=
    setDomain_domains _ _ _
  unfold chargeChild
  cases found : parent.bind slotAt with
  | none =>
    simp only [kin, entered, reduceCtorEq, if_false]
    split <;> rfl
  | some owner =>
    have notIndex : owner ≠ index := fun same => isOther (same ▸ found)
    simp only [kin, setDomain_domains _ owner, entered, notIndex, if_false, Option.some.injEq]
    by_cases same : other = owner
    · subst other
      rw [if_pos rfl, if_neg notIndex, if_pos rfl]
      rfl
    · rw [if_neg same, if_neg (Ne.symm same)]
      split <;> rfl

theorem created_admits (accepted : sys.checkParent parent = .ok ())
    (free : (sys.domains index).live = false) (arena : Arena) (name : List UInt8)
    (envelope : ResourceEnvelope) (root : SlotRef) : sys.kin.Admits
      ((({ sys with arena } : System).setDomain index
        (sys.created index parent name envelope root)).chargeChild parent).kin
      index (parent.bind slotAt) := by
  obtain ⟨recorded, owned⟩ := checkParent_ok accepted
  have isOther : parent.bind slotAt ≠ some index := by
    intro own
    have isLive : (sys.domains index).live = true := (owned index own).1
    rw [free] at isLive
    cases isLive
  refine ⟨free, owned, ?_, ?_⟩
  · rw [created_kin isOther, if_pos rfl]
    refine ⟨rfl, rfl, rfl, rfl, congrArg (Option.getD · u32Max) recorded, ?_⟩
    intro owner own
    have generation : sys.parentGenerationOf parent = (sys.domains owner).generation := by
      rw [parentGenerationOf, own]
      rfl
    exact generation
  · intro other notIndex
    rw [created_kin isOther, if_neg notIndex]

theorem createUnder_cases (sys : System) (auditRoom : Bool) (threadsCountedIn : Nat → Nat)
    (parent : Option Nat) (name : List UInt8) (envelope : ResourceEnvelope) :
    (∃ refusal arena, sys.createUnder auditRoom threadsCountedIn parent name envelope =
        (.error refusal, { sys with arena })) ∨
      ∃ index after, sys.createUnder auditRoom threadsCountedIn parent name envelope =
          (.ok index.val, after) ∧ (sys.domains index).ended = none ∧
        sys.kin.Admits after.kin index (parent.bind slotAt) := by
  unfold createUnder
  split
  · exact .inl ⟨_, sys.arena, rfl⟩
  next accepted =>
  split
  · exact .inl ⟨_, sys.arena, rfl⟩
  split
  · exact .inl ⟨_, sys.arena, rfl⟩
  next index found =>
  obtain ⟨free, noEnding⟩ := freeSlot_free found
  dsimp only
  split
  · exact .inl ⟨_, _, rfl⟩
  next root inserted =>
    exact .inr ⟨index, _, rfl, noEnding, created_admits accepted free _ name envelope root⟩

theorem reap_kin (sys : System) (id : Nat) (slot : Fin maxDomains) :
    ((sys.reap id).2.kin slot).live = (sys.kin slot).live ∧
      ((sys.kin slot).live = true → (sys.reap id).2.kin slot = sys.kin slot) ∧
      ((sys.reap id).2.kin slot).generation = (sys.kin slot).generation := by
  unfold reap
  cases slotAt id with
  | none => exact ⟨rfl, fun _ => rfl, rfl⟩
  | some reaped =>
    dsimp only
    split
    · exact ⟨rfl, fun _ => rfl, rfl⟩
    next ended =>
    have isDead : (sys.domains reaped).live = false := by
      simp only [Bool.or_eq_true, not_or, Bool.not_eq_true] at ended
      exact ended.1
    by_cases same : slot = reaped
    · subst slot
      simp [kin, setDomain_domains, Domain.kin, isDead]
    · simp [kin, setDomain_domains, same]

end System

namespace Kinship

theorem Family.rewriteDead {before after : Kinship} (family : before.Family ∅)
    (sameLive : ∀ slot, (after slot).live = (before slot).live)
    (sameKin : ∀ slot, (before slot).live = true → after slot = before slot)
    (sameGeneration : ∀ slot, (after slot).generation = (before slot).generation) :
    after.Family ∅ := by
  have sameRecorded : ∀ owner, after.recordedBy owner = before.recordedBy owner := by
    intro owner
    ext child
    rw [mem_recordedBy, mem_recordedBy, Records, Records, sameLive, sameGeneration]
    refine and_congr_right fun isLive => ?_
    rw [sameKin child isLive]
  constructor
  case named =>
    intro slot isLive
    rw [sameLive] at isLive
    rw [sameKin slot isLive]
    exact family.named slot isLive
  case parentLive =>
    intro slot isLive recorded
    rw [sameLive] at isLive
    rw [sameKin slot isLive] at recorded ⊢
    obtain ⟨owner, isOwner, standing⟩ := family.parentLive slot isLive recorded
    refine ⟨owner, isOwner, ?_⟩
    rw [sameLive, sameGeneration]
    exact standing
  case counted =>
    intro slot isLive
    rw [sameLive] at isLive
    rw [sameKin slot isLive, sameRecorded]
    exact family.counted slot isLive
  case bounded =>
    intro slot isLive
    rw [sameLive] at isLive
    rw [sameKin slot isLive]
    exact family.bounded slot isLive

end Kinship

namespace System

open Kinship

inductive Call where
  | createUnder (auditRoom : Bool) (threadsCountedIn : Nat → Nat) (parent : Option Nat)
      (name : List UInt8) (envelope : ResourceEnvelope)
  | endDomain (ownedMemory : Nat → List Nat) (id : Nat) (reason : Ending)
  | reap (id : Nat)

variable (sys : System)

def perform : Call → System
  | .createUnder auditRoom threadsCountedIn parent name envelope =>
    (sys.createUnder auditRoom threadsCountedIn parent name envelope).2
  | .endDomain ownedMemory id reason => (sys.endDomain ownedMemory id reason).2
  | .reap id => (sys.reap id).2

def performAll (calls : List Call) : System :=
  calls.foldl perform sys

theorem family_new (arena : Arena) : (new arena).kin.Family ∅ := by
  have dead : ∀ slot, ((new arena).kin slot).live = true → False := by
    intro slot isLive
    cases isLive
  exact ⟨fun slot isLive => (dead slot isLive).elim, fun slot isLive => (dead slot isLive).elim,
    fun slot isLive => (dead slot isLive).elim,
    fun slot isLive => (dead slot isLive).elim⟩

theorem family_perform {sys : System} (family : sys.kin.Family ∅) (call : Call) :
    (sys.perform call).kin.Family ∅ := by
  cases call with
  | createUnder auditRoom threadsCountedIn parent name envelope =>
    rw [perform]
    obtain ⟨refusal, arena, refused⟩ | ⟨index, after, accepted, _, admits⟩ :=
      sys.createUnder_cases auditRoom threadsCountedIn parent name envelope
    · rw [refused]
      exact family
    · rw [accepted]
      exact Family.enter admits family
  | endDomain ownedMemory id reason =>
    exact (endDomain_spec family ownedMemory id reason).2.family
  | reap id =>
    exact family.rewriteDead (fun slot => (sys.reap_kin id slot).1)
      (fun slot => (sys.reap_kin id slot).2.1) (fun slot => (sys.reap_kin id slot).2.2)

theorem family_performAll {sys : System} (family : sys.kin.Family ∅) (calls : List Call) :
    (sys.performAll calls).kin.Family ∅ := by
  induction calls generalizing sys with
  | nil => exact family
  | cons call rest induction => exact induction (family_perform family call)

/-- `slot` is a transitive child of `ancestor`: a chain of live domains, each
recording the next by slot and generation. -/
def Descends : Fin maxDomains → Fin maxDomains → Prop :=
  Relation.TransGen sys.kin.Records

def recordedChildren (slot : Fin maxDomains) : Finset (Fin maxDomains) :=
  Finset.univ.filter fun child =>
    (sys.domains child).live = true ∧ (sys.domains child).parent = slot.val ∧
      (sys.domains child).parentGeneration = (sys.domains slot).generation

/-- After any sequence of creations, endings and reapings the family tree is
exact. -/
theorem performAll_family (arena : Arena) (calls : List Call) :
    let sys := (new arena).performAll calls
    (∀ slot, (sys.domains slot).live = true → (sys.domains slot).parent ≠ u32Max →
      ∃ owner : Fin maxDomains, owner.val = (sys.domains slot).parent ∧
        (sys.domains owner).live = true ∧
        (sys.domains owner).generation = (sys.domains slot).parentGeneration) ∧
    (∀ slot, (sys.domains slot).live = true →
      (sys.domains slot).children = (sys.recordedChildren slot).card ∧
      (sys.domains slot).children ≤ (sys.domains slot).envelope.maxChildDomains) ∧
    (∀ ownedMemory id reason, (endDepth ownedMemory (maxDomains + 1) sys id reason).isSome = true ∧
      ((sys.endDomain ownedMemory id reason).1 = true →
        ∀ ancestor : Fin maxDomains, ancestor.val = id →
          ∀ slot, slot = ancestor ∨ sys.Descends slot ancestor →
            ((sys.endDomain ownedMemory id reason).2.domains slot).live = false)) ∧
    (∀ auditRoom threadsCountedIn parent name envelope refusal,
      (sys.createUnder auditRoom threadsCountedIn parent name envelope).1 = .error refusal →
      (sys.createUnder auditRoom threadsCountedIn parent name envelope).2.domains = sys.domains) ∧
    (∀ auditRoom threadsCountedIn parent name envelope id,
      (sys.createUnder auditRoom threadsCountedIn parent name envelope).1 = .ok id →
      ∃ slot : Fin maxDomains, slot.val = id ∧ (sys.domains slot).ended = none) := by
  intro sys
  have family : sys.kin.Family ∅ := family_performAll (family_new arena) calls
  refine ⟨?_, ?_, ?_, ?_, ?_⟩
  · intro slot isLive recorded
    obtain ⟨owner, isOwner, alive | ⟨orphan, _⟩⟩ := family.parentLive slot isLive recorded
    · exact ⟨owner, isOwner, alive⟩
    · simp at orphan
  · intro slot isLive
    exact ⟨family.counted slot isLive, family.bounded slot isLive⟩
  · intro ownedMemory id reason
    obtain ⟨returns, ends⟩ := endDomain_spec family ownedMemory id reason
    refine ⟨returns, ?_⟩
    rintro _ ancestor isAncestor slot (rfl | descends)
    · exact ends.dead slot isAncestor
    · exact ends.family.descendants_dead ends.shrinks (ends.dead ancestor isAncestor) descends
  · intro auditRoom threadsCountedIn parent name envelope refusal refused
    obtain ⟨_, _, same⟩ | ⟨index, after, accepted, _⟩ :=
      sys.createUnder_cases auditRoom threadsCountedIn parent name envelope
    · rw [same]
    · rw [accepted] at refused
      cases refused
  · intro auditRoom threadsCountedIn parent name envelope id accepted
    obtain ⟨_, _, refused⟩ | ⟨index, after, same, noEnding, _⟩ :=
      sys.createUnder_cases auditRoom threadsCountedIn parent name envelope
    · rw [refused] at accepted
      cases accepted
    · rw [same] at accepted
      exact ⟨index, Except.ok.inj accepted, noEnding⟩

end System

end Bhaskix
