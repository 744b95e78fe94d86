import Bhaskix.Vm.Custody

/-!
Revoking an object takes its pages out of every space that has them, and nothing else. What is
under a shared region is what some object has recorded there.
-/

namespace Bhaskix.Vm

open Library Mm Function
open VirtRange (mem_pagesIter fromPages_eq_some)
open List hiding after length map next range replace

def SharedBy (map : RangeMap) (page object : Nat) : Prop :=
  ∃ policy, map.policyAt page = some policy ∧ policy.backing = .shared object

namespace State

variable {state before after : State}

/-- Nothing is copied on write, and every entry is under a region that is shared, or anonymous and
accessible. -/
structure Tidy (state : State) : Prop where
  plain : ∀ page policy, state.space.regions.policyAt page = some policy →
    policy.flags.copyOnWrite = false ∧
      (policy.backing = .anonymous ∨ ∃ object, policy.backing = .shared object)
  covered : ∀ slot leaf, slot < lowerSlots → state.space.leaves slot = some leaf →
    ∃ policy, state.space.regions.policyAt slot = some policy ∧
      (Freeable policy ∨ ∃ object, policy.backing = .shared object)

/-- A step that leaves the pages of shared regions, and their entries, as they are. -/
structure Quiet (before after : State) : Prop where
  tidy : after.Tidy
  stays : ∀ slot object leaf, slot < lowerSlots → SharedBy before.space.regions slot object →
    before.space.leaves slot = some leaf →
      SharedBy after.space.regions slot object ∧ after.space.leaves slot = some leaf
  new : ∀ slot object leaf, slot < lowerSlots → SharedBy after.space.regions slot object →
    after.space.leaves slot = some leaf →
      SharedBy before.space.regions slot object ∧ before.space.leaves slot = some leaf

def Lent (state : State) : Prop :=
  ∀ slot object leaf, slot < lowerSlots → SharedBy state.space.regions slot object →
    state.space.leaves slot = some leaf → state.holder leaf.frame ≠ none

variable {regions : RangeMap} {range : VirtRange} {region : VmRegion}

section

variable (tidy : before.Tidy)
include tidy

theorem Tidy.bare_of_insert (lower : Lower region.range)
    (inserted : before.space.regions.insert region true = .ok regions) :
    before.Bare region.range := by
  intro page inside
  cases found : before.space.leaves page with
  | none => rfl
  | some leaf =>
    obtain ⟨policy, covered, _⟩ := tidy.covered page leaf (lt_of_lt_of_le inside.2 lower) found
    rw [RangeMap.policyAt_of_insert inserted inside] at covered
    cases covered

/-- A slot that is not as it was had no entry of shared memory, and has none. -/
theorem Tidy.quiet (each : ∀ slot,
    after.space.regions.policyAt slot = before.space.regions.policyAt slot ∧
        after.space.leaves slot = before.space.leaves slot ∨
      (∀ object leaf, slot < lowerSlots → SharedBy before.space.regions slot object →
        before.space.leaves slot ≠ some leaf) ∧
      (∀ policy, after.space.regions.policyAt slot = some policy →
        before.space.regions.policyAt slot = some policy ∨
          policy.flags.copyOnWrite = false ∧ policy.backing = .anonymous) ∧
      ∀ leaf, slot < lowerSlots → after.space.leaves slot = some leaf →
        ∃ policy, after.space.regions.policyAt slot = some policy ∧ Freeable policy) :
    Quiet before after := by
  refine ⟨⟨?_, ?_⟩, ?_, ?_⟩
  · intro page policy found
    rcases each page with ⟨same, _⟩ | ⟨_, plain, _⟩
    · exact tidy.plain page policy (same ▸ found)
    · exact (plain policy found).elim (tidy.plain page policy) fun plain => ⟨plain.1, .inl plain.2⟩
  · intro slot leaf low found
    rcases each slot with ⟨same, kept⟩ | ⟨_, _, covered⟩
    · exact same ▸ tidy.covered slot leaf low (kept ▸ found)
    · obtain ⟨policy, located, freeable⟩ := covered leaf low found
      exact ⟨policy, located, .inl freeable⟩
  · intro slot object leaf low shared found
    rcases each slot with ⟨same, kept⟩ | ⟨unshared, _⟩
    · exact ⟨by rwa [SharedBy, same], kept.trans found⟩
    · exact absurd found (unshared object leaf low shared)
  · intro slot object leaf low shared found
    rcases each slot with ⟨same, kept⟩ | ⟨_, _, covered⟩
    · exact ⟨by rwa [SharedBy, ← same], kept ▸ found⟩
    · obtain ⟨policy, located, backing⟩ := shared
      obtain ⟨policy', located', freeable⟩ := covered leaf low found
      cases located.symm.trans located'
      cases backing.symm.trans freeable.1

theorem Tidy.same (lent : before.Lent)
    (same : after.space.regions = before.space.regions)
    (leaves : ∀ slot, after.space.leaves slot = before.space.leaves slot ∨
      after.space.leaves slot = none ∧
        ∃ leaf, before.space.leaves slot = some leaf ∧ before.holder leaf.frame = none) :
    Quiet before after := by
  refine tidy.quiet fun slot => ?_
  rw [same]
  rcases leaves slot with kept | ⟨gone, old, was, free⟩
  · exact .inl ⟨rfl, kept⟩
  refine .inr ⟨?_, fun _ => .inl, fun leaf _ found => by cases gone.symm.trans found⟩
  intro object leaf low shared found
  cases was.symm.trans found
  exact lent slot object _ low shared was free

theorem Idle.quiet (idle : Idle before after) (lent : before.Lent) :
    Quiet before after :=
  tidy.same lent idle.regions idle.still.leaves

theorem Tidy.insert
    (inserted : before.space.regions.insert region true = .ok regions)
    (same : after.space.regions = regions)
    (plain : region.flags.copyOnWrite = false ∧ region.backing = .anonymous)
    (outside : ∀ slot, slot ∉ region.range → after.space.leaves slot = before.space.leaves slot)
    (inside : ∀ slot ∈ region.range, ∀ leaf, slot < lowerSlots →
      after.space.leaves slot = some leaf → Freeable region.toPolicy) : Quiet before after := by
  refine tidy.quiet fun slot => ?_
  rw [same, RangeMap.policyAt_insert inserted]
  split
  · next covered =>
    refine .inr ⟨?_, ?_, fun leaf low found => ⟨_, rfl, inside slot covered leaf low found⟩⟩
    · rintro object leaf _ ⟨policy, found, _⟩
      rw [RangeMap.policyAt_of_insert inserted covered] at found
      cases found
    · rintro _ ⟨⟩
      exact .inr plain
  · next out => exact .inl ⟨rfl, outside slot out⟩

theorem Covers.quiet
    (covers : Covers (.new range protection .anonymous) before after)
    (lower : Lower range) : Quiet before after := by
  obtain ⟨regions, inserted, supplied⟩ := covers
  refine tidy.insert inserted supplied.regions_eq ⟨rfl, rfl⟩
    (fun slot _ => congrFun supplied.leaves slot) ?_
  intro slot covered leaf _ found
  rw [supplied.leaves] at found
  cases (tidy.bare_of_insert lower inserted slot covered).symm.trans found

theorem Fills.quiet
    (fills : Fills range protection before after) : Quiet before after := by
  obtain ⟨present, regions, inserted, filled⟩ := fills
  refine tidy.insert inserted filled.regions_eq ⟨rfl, rfl⟩
    (fun slot out => filled.outside slot fun member => out (mem_pagesIter.mp member)) ?_
  exact fun _ _ _ _ _ => ⟨rfl, present⟩

theorem Tidy.cut
    (cut : Cut range before.space.regions regions) (same : after.space.regions = regions)
    (unshared : ∀ slot ∈ range, ∀ object leaf, SharedBy before.space.regions slot object →
      before.space.leaves slot ≠ some leaf)
    (inside : ∀ slot ∈ range, after.space.leaves slot = none)
    (outside : ∀ slot, slot ∉ range → after.space.leaves slot = before.space.leaves slot) :
    Quiet before after := by
  refine tidy.quiet fun slot => ?_
  rw [same, cut.policy]
  split
  · next covered =>
    refine .inr ⟨fun object leaf _ => unshared slot covered object leaf, nofun, ?_⟩
    intro leaf _ found
    cases (inside slot covered).symm.trans found
  · next out => exact .inl ⟨rfl, outside slot out⟩

theorem Unmaps.quiet (unmaps : Unmaps range before after) : Quiet before after := by
  obtain ⟨policies, regions, cut, dropped⟩ := unmaps
  refine tidy.cut cut dropped.regions_eq ?_
    (fun slot covered => dropped.inside slot (mem_pagesIter.mpr covered))
    (fun slot out => dropped.outside slot fun member => out (mem_pagesIter.mp member))
  rintro slot covered object leaf ⟨policy, found, backing⟩ _
  obtain ⟨policy', found', freeable⟩ := policies slot covered
  cases found.symm.trans found'
  cases backing.symm.trans freeable.1

theorem Uncovers.quiet (uncovers : Uncovers range before after) (lower : Lower range)
    (unshared : ∀ slot ∈ range, ∀ object, SharedBy before.space.regions slot object →
      before.space.leaves slot = none) : Quiet before after := by
  obtain ⟨policies, regions, cut, supplied⟩ := uncovers
  have leaves : ∀ slot, after.space.leaves slot = before.space.leaves slot :=
    fun slot => congrFun supplied.leaves slot
  refine tidy.cut cut supplied.regions_eq ?_ ?_ fun slot _ => leaves slot
  · intro slot covered object leaf shared found
    cases (unshared slot covered object shared).symm.trans found
  intro slot covered
  rw [leaves]
  cases found : before.space.leaves slot with
  | none => rfl
  | some leaf =>
    -- An entry there would be in memory that is unmapped with its frames.
    obtain ⟨policy, located, kept⟩ := policies slot covered
    obtain ⟨policy', located', freeable | ⟨object, backing⟩⟩ := tidy.covered slot leaf
      (lt_of_lt_of_le covered.2 lower) found
    · cases located.symm.trans located'
      exact absurd freeable kept
    · cases (unshared slot covered object ⟨policy', located', backing⟩).symm.trans found

theorem Faults.quiet (faults : Faults page before after) :
    Quiet before after := by
  have same := faults.regions
  obtain ⟨_, vacant, policy, covered, present, unshared, filled⟩ := faults
  refine tidy.quiet fun slot => ?_
  rw [same]
  by_cases here : slot = page
  · subst here
    refine .inr ⟨?_, fun _ => .inl, fun leaf _ _ => ⟨policy, covered, ?_, present⟩⟩
    · rintro object leaf _ ⟨policy', found, backing⟩
      cases covered.symm.trans found
      exact absurd backing (unshared object)
    · exact (tidy.plain slot policy covered).2.resolve_right fun ⟨object, backing⟩ =>
        unshared object backing
  · exact .inl ⟨rfl, filled.outside _ fun member => here (mem_singleton.mp member)⟩

end

def Unlent (state : State) (start pages : Nat) : Prop :=
  ∀ range, VirtRange.fromPages start pages = some range → ∀ slot ∈ range,
    ∀ object, SharedBy state.space.regions slot object → state.space.leaves slot = none

theorem unmapRange_quiet (clean : state.Clean) (tidy : state.Tidy) (lent : state.Lent)
    (unlent : state.Unlent start pages) : Quiet state (state.unmapRange start pages).2 := by
  rcases unmapRange_spec clean.low start pages with
    ⟨_, after, done, idle⟩ | ⟨range, after, extent, lower, done, unmaps | uncovers⟩
  all_goals rw [done]
  · exact idle.quiet tidy lent
  · exact unmaps.quiet tidy
  · exact uncovers.quiet tidy lower (unlent range extent)

theorem Covers.orderly
    (covers : Covers (.new range protection .anonymous) before after) (clean : before.Clean)
    (tidy : before.Tidy) (lower : Lower range) : Proper before after ∧ Quiet before after := by
  refine ⟨covers.proper clean lower nofun ?_, covers.quiet tidy lower⟩
  obtain ⟨regions, inserted, _⟩ := covers
  exact tidy.bare_of_insert lower inserted

section

variable (clean : state.Clean) (tidy : state.Tidy) (lent : state.Lent) (lower : Lower range)
  (protection : Protection)
include clean tidy lent lower protection

theorem mapAnonymous_orderly :
    Proper state (state.mapAnonymous range protection).2 ∧
      Quiet state (state.mapAnonymous range protection).2 := by
  rcases mapAnonymous_spec lower protection state with
    ⟨_, after, done, idle⟩ | ⟨after, done, _, covers⟩ | ⟨after, done, fills⟩
  all_goals rw [done]
  · exact ⟨idle.proper clean, idle.quiet tidy lent⟩
  · exact covers.orderly clean tidy lower
  · exact ⟨fills.proper clean lower, fills.quiet tidy⟩

theorem mapAnonymousLazy_orderly :
    Proper state (state.mapAnonymousLazy range protection).2 ∧
      Quiet state (state.mapAnonymousLazy range protection).2 := by
  rcases mapAnonymousLazy_spec state range protection with
    ⟨_, after, done, idle⟩ | ⟨after, done, covers⟩
  all_goals rw [done]
  · exact ⟨idle.proper clean, idle.quiet tidy lent⟩
  · exact covers.orderly clean tidy lower

end

theorem own_same (state : State) (domain : Nat) :
    (state.own domain).space.regions = state.space.regions ∧
      (state.own domain).space.leaves = state.space.leaves := by
  unfold own
  split <;> exact ⟨rfl, rfl⟩

theorem handleFault_quiet (clean : state.Clean) (tidy : state.Tidy) (lent : state.Lent)
    (address : Nat) (write notPresent : Bool) :
    Quiet state (state.handleFault address write notPresent).2 := by
  rcases handleFault_spec clean.low address write notPresent with
    idle | faults | ⟨_, _, policy, _, covered, marked, _⟩
  · exact idle.quiet tidy lent
  · exact faults.quiet tidy
  · rw [(tidy.plain _ policy covered).1] at marked
    cases marked

end State

namespace World

variable {world : World}

/-- The space is there, and every page of the mapping is shared memory of the object, naming the
object's frame. -/
def Placed (world : World) (index : Nat) (mapping : Mapping) : Prop :=
  ∃ space range, world.spaces mapping.root = some space ∧
    VirtRange.fromPages mapping.address mapping.pages = some range ∧ State.Lower range ∧
    ∀ page ∈ range, SharedBy space.regions page index ∧
      ∃ leaf, space.leaves page = some leaf ∧
        (world.objects index).frames[page - range.first]? = some leaf.frame

structure Mapped (world : World) : Prop where
  sound : world.Sound
  tidy : ∀ root space, world.spaces root = some space → (State.mk space world.machine).Tidy
  placed : ∀ index, (world.objects index).live = true →
    ∀ mapping, some mapping ∈ (world.objects index).mappings → world.Placed index mapping
  listed : ∀ root space slot object leaf, world.spaces root = some space → slot < lowerSlots →
    SharedBy space.regions slot object → space.leaves slot = some leaf →
      (world.objects object).live = true ∧ ∃ mapping,
        some mapping ∈ (world.objects object).mappings ∧ mapping.root = root ∧
          slot ∈ mapping.pagesIter

variable {mapping : Mapping} {slot : Nat}

theorem pagesIter_eq (extent : VirtRange.fromPages mapping.address mapping.pages = some range) :
    mapping.pagesIter = range.pagesIter := by
  obtain ⟨starts, pages⟩ := fromPages_eq_some.mp extent
  rw [Mapping.pagesIter, VirtRange.pagesIter, ← starts, ← pages, VirtRange.start,
    Nat.mul_div_cancel _ (by decide)]

variable {space : AddressSpace} {mappings : List (Option Mapping)}

theorem Placed.frame
    (placed : world.Placed index mapping) (there : world.spaces mapping.root = some space)
    (listed : slot ∈ mapping.pagesIter) (found : space.leaves slot = some leaf) :
    slot < lowerSlots ∧ leaf.frame ∈ (world.objects index).frames := by
  obtain ⟨space', range, there', extent, lower, pages⟩ := placed
  cases there.symm.trans there'
  rw [pagesIter_eq extent] at listed
  obtain ⟨_, leaf', found', names⟩ := pages slot (mem_pagesIter.mp listed)
  cases found.symm.trans found'
  exact ⟨lower.page listed, mem_of_getElem? names⟩

theorem Mapped.lent (mapped : world.Mapped) (there : world.spaces root = some space)
    (low : slot < lowerSlots)
    (shared : SharedBy space.regions slot object) (found : space.leaves slot = some leaf) :
    world.machine.holder leaf.frame = some (.object object) := by
  obtain ⟨live, mapping, member, rfl, listed⟩ :=
    mapped.listed root space slot object leaf there low shared found
  have placed := mapped.placed object live mapping member
  exact (mapped.sound.objects object live).2 _ (placed.frame there listed found).2

section

variable {root : Nat} {act : State → State} (mapped : world.Mapped)
  (step : ∀ space, world.spaces root = some space → (State.mk space world.machine).Clean →
    (State.mk space world.machine).Tidy → (State.mk space world.machine).Lent →
    State.Proper ⟨space, world.machine⟩ (act ⟨space, world.machine⟩) ∧
      State.Quiet ⟨space, world.machine⟩ (act ⟨space, world.machine⟩))
include mapped step

theorem Mapped.withRoot :
    (world.withRoot root act).Mapped := by
  have lent : ∀ space, world.spaces root = some space → (State.mk space world.machine).Lent := by
    intro space there slot object leaf low shared found free
    cases (mapped.lent there low shared found).symm.trans free
  have sound := (mapped.sound.withRoot fun space there clean =>
    (step space there clean (mapped.tidy root space there) (lent space there)).1).1
  unfold World.withRoot at sound ⊢
  cases there : world.spaces root with
  | none => exact mapped
  | some space =>
    rw [there] at sound
    have quiet := (step space there (mapped.sound.spaces root space there).2.2
      (mapped.tidy root space there) (lent space there)).2
    refine ⟨sound, ?_, ?_, ?_⟩
    · intro other held found
      rcases put_spaces world root _ found with ⟨_, rfl⟩ | ⟨_, found⟩
      · exact quiet.tidy
      · exact ⟨(mapped.tidy other held found).plain, (mapped.tidy other held found).covered⟩
    · intro index live mapping member
      obtain ⟨held, range, found, extent, lower, pages⟩ := mapped.placed index live mapping member
      by_cases here : mapping.root = root
      · rw [here] at found
        cases there.symm.trans found
        refine ⟨(act ⟨space, world.machine⟩).space, range, ?_, extent, lower, ?_⟩
        · rw [here]
          exact update_self _ _ _
        intro page inside
        obtain ⟨shared, leaf, entry, names⟩ := pages page inside
        obtain ⟨shared', entry'⟩ := quiet.stays page index leaf
          (lt_of_lt_of_le inside.2 lower) shared entry
        exact ⟨shared', leaf, entry', names⟩
      · exact ⟨held, range, (update_of_ne here _ _).trans found, extent, lower, pages⟩
    · intro other held slot object leaf found low shared entry
      rcases put_spaces world root _ found with ⟨rfl, rfl⟩ | ⟨_, found⟩
      · obtain ⟨shared', entry'⟩ := quiet.new slot object leaf low shared entry
        exact mapped.listed other space slot object leaf there low shared' entry'
      · exact mapped.listed other held slot object leaf found low shared entry

theorem Mapped.withSpace :
    (world.withSpace root act).Mapped := by
  unfold World.withSpace
  split
  · exact mapped.withRoot step
  · exact mapped

end

theorem Mapped.of_same {after : World} (mapped : world.Mapped) (sound : after.Sound)
    (spaces : after.spaces = world.spaces) (objects : ∀ index, (world.objects index).live = true →
      after.objects index = world.objects index)
    (fresh : ∀ index, (after.objects index).live = true → (world.objects index).live = false →
      ∀ mapping, some mapping ∉ (after.objects index).mappings) : after.Mapped := by
  refine ⟨sound, ?_, ?_, ?_⟩
  · intro root space found
    rw [spaces] at found
    exact ⟨(mapped.tidy root space found).plain, (mapped.tidy root space found).covered⟩
  · intro index live mapping member
    cases old : (world.objects index).live with
    | false => exact absurd member (fresh index live old mapping)
    | true =>
      unfold Placed
      rw [objects index old] at member ⊢
      rw [spaces]
      exact mapped.placed index old mapping member
  · intro root space slot object leaf found low shared entry
    rw [spaces] at found
    obtain ⟨live, listed⟩ := mapped.listed root space slot object leaf found low shared entry
    rw [objects object live]
    exact ⟨live, listed⟩

theorem Mapped.newSpace (mapped : world.Mapped) : world.newSpace.Mapped := by
  have sound := mapped.sound.newSpace
  unfold World.newSpace at sound ⊢
  cases made : AddressSpace.new world.machine world.made with
  | mk outcome machine =>
    rw [made] at sound
    cases outcome with
    | error error =>
      exact mapped.of_same sound rfl (fun _ _ => rfl) fun _ live dead => by
        cases live.symm.trans dead
    | ok space =>
      have fresh := State.new_made made
      -- The root was nobody's, so no space had it.
      have vacant : world.spaces space.root = none := by
        cases there : world.spaces space.root with
        | none => rfl
        | some old =>
          obtain ⟨rooted, _, clean⟩ := mapped.sound.spaces space.root old there
          have held : world.machine.holder old.root = some (.table old.name) :=
            clean.tabled.root
          rw [rooted, fresh.free] at held
          cases held
      have placed {root : Nat} {held : AddressSpace} :=
        @put_spaces held root world space.root ⟨space, machine⟩
      refine ⟨sound, ?_, ?_, ?_⟩
      · intro root held found
        rcases placed found with ⟨_, rfl⟩ | ⟨_, found⟩
        · refine ⟨?_, ?_⟩
          · rw [fresh.regions]
            nofun
          · intro slot leaf low entry
            cases (fresh.leaves slot low).symm.trans entry
        · exact ⟨(mapped.tidy root held found).plain, (mapped.tidy root held found).covered⟩
      · intro index live mapping member
        obtain ⟨held, range, found, rest⟩ := mapped.placed index live mapping member
        refine ⟨held, range, ?_, rest⟩
        have different : mapping.root ≠ space.root := by
          intro same
          rw [same, vacant] at found
          cases found
        exact (update_of_ne different _ _).trans found
      · intro root held slot object leaf found low shared entry
        rcases placed found with ⟨_, rfl⟩ | ⟨_, found⟩
        · cases (fresh.leaves slot low).symm.trans entry
        · exact mapped.listed root held slot object leaf found low shared entry

theorem vacant_dead (slot : world.vacant = some index) : (world.objects index).live = false := by
  have free := List.find?_some slot
  simpa using free

theorem Mapped.create (mapped : world.Mapped) (owner length : Nat) :
    (world.create owner length).2.Mapped := by
  have sound := mapped.sound.create owner length
  rcases create_spec mapped.sound.lawful owner length with
    ⟨_, machine, done, _⟩ | ⟨index, frames, machine, slot, done, _⟩
  · rw [done] at sound ⊢
    exact mapped.of_same sound rfl (fun _ _ => rfl) fun _ live dead => by
      cases live.symm.trans dead
  rw [done] at sound ⊢
  have dead := vacant_dead slot
  refine mapped.of_same sound rfl ?_ ?_
  · intro other live
    have different : other ≠ index := by
      rintro rfl
      cases dead.symm.trans live
    exact update_of_ne different _ _
  intro other live old mapping member
  by_cases here : other = index
  · subst here
    rw [show World.objects (World.setObject _ other _) other = _ from
      update_self _ _ _] at member
    cases eq_of_mem_replicate member
  · rw [show World.objects (World.setObject _ index _) other = _ from
      update_of_ne here _ _] at live
    cases live.symm.trans old

theorem mem_set_iff {new : Mapping} (free : mappings.findIdx? Option.isNone = some slot) :
    some mapping ∈ mappings.set slot (some new) ↔ mapping = new ∨ some mapping ∈ mappings := by
  obtain ⟨bound, none, _⟩ := List.findIdx?_eq_some_iff_getElem.mp free
  refine ⟨fun member => ?_, ?_⟩
  · exact (mem_or_eq_of_mem_set member).symm.imp_left Option.some.inj
  rintro (rfl | member)
  · exact mem_set bound _
  obtain ⟨place, inside, found⟩ := mem_iff_getElem.mp member
  have different : slot ≠ place := by
    rintro rfl
    rw [found] at none
    cases none
  refine mem_iff_getElem.mpr ⟨place, by rwa [length_set], ?_⟩
  rw [getElem_set_ne different]
  exact found

theorem Mapped.mapInto {id : MemoryId}
    (mapped : world.Mapped) (sparing : world.SparingInto id root address protection) :
    (world.mapInto id root address protection).2.Mapped := by
  have sound := mapped.sound.mapInto sparing
  rcases mapInto_spec sparing with
    same | ⟨space, state, there, idle, done⟩ | ⟨object, space, range, state, slot, into⟩
  · rw [same]
    exact mapped
  · rw [done]
    have step := @Mapped.withRoot world root (fun _ => state) mapped
      fun space' there' clean tidy lent => by
        cases there.symm.trans there'
        exact ⟨idle.proper clean, idle.quiet tidy lent⟩
    unfold World.withRoot at step
    rw [there] at step
    exact step
  rw [into.after] at sound ⊢
  obtain ⟨here, live⟩ := resolve_eq_some into.resolved
  subst here
  have there := into.there
  have lower := into.lower
  obtain ⟨regions, inserted, named⟩ := into.lends
  have same : state.space.regions = regions := named.regions_eq
  have tidy := mapped.tidy root space there
  have policies : ∀ page, state.space.regions.policyAt page =
      if page ∈ range then some (VmRegion.new range protection (.shared id.index)).toPolicy
      else space.regions.policyAt page := by
    intro page
    rw [same]
    exact RangeMap.policyAt_insert inserted page
  have outside : ∀ slot, slot ∉ range → state.space.leaves slot = space.leaves slot :=
    fun slot out => named.outside slot fun member => out (mem_pagesIter.mp member)
  have apart : ∀ {page index}, SharedBy space.regions page index → page ∉ range := by
    rintro page index ⟨policy, found, _⟩ inside
    rw [RangeMap.policyAt_of_insert inserted inside] at found
    cases found
  have kept : ∀ {page index}, page ∉ range →
      (SharedBy state.space.regions page index ↔ SharedBy space.regions page index) := by
    intro page index out
    unfold SharedBy
    rw [policies, if_neg out]
  let recorded : Object :=
    { world.objects id.index with
      mappings := (world.objects id.index).mappings.set slot
        (some ⟨root, address, (world.objects id.index).frames.length⟩) }
  set next := (world.put root state).setObject id.index recorded
  have objects (index : Nat) : (next.objects index).frames = (world.objects index).frames ∧
      (next.objects index).live = (world.objects index).live ∧ ∀ mapping,
        some mapping ∈ (next.objects index).mappings ↔
          index = id.index ∧ mapping = ⟨root, address, (world.objects id.index).frames.length⟩ ∨
            some mapping ∈ (world.objects index).mappings := by
    by_cases mine : index = id.index
    · subst mine
      rw [show next.objects id.index = recorded from update_self _ _ _]
      exact ⟨rfl, rfl, fun _ => (mem_set_iff into.free).trans
        (or_congr_left (and_iff_right rfl).symm)⟩
    · rw [show next.objects index = world.objects index from update_of_ne mine _ _]
      exact ⟨rfl, rfl, fun _ => (or_iff_right fun new => mine new.1).symm⟩
  refine ⟨sound, ?_, ?_, ?_⟩
  · intro root' held found
    rcases put_spaces world root state found with ⟨_, rfl⟩ | ⟨_, found⟩
    · refine ⟨?_, ?_⟩
      · intro page policy found
        change state.space.regions.policyAt page = some policy at found
        rw [policies] at found
        split at found
        · cases found
          exact ⟨rfl, .inr ⟨_, rfl⟩⟩
        · exact tidy.plain page policy found
      · intro slot' leaf low entry
        change ∃ policy, state.space.regions.policyAt slot' = some policy ∧ _
        rw [policies]
        split
        · exact ⟨_, rfl, .inr ⟨_, rfl⟩⟩
        · next out => exact tidy.covered slot' leaf low ((outside slot' out).symm.trans entry)
    · exact ⟨(mapped.tidy root' held found).plain, (mapped.tidy root' held found).covered⟩
  · intro index live' mapping member
    rw [(objects index).2.1] at live'
    rcases ((objects index).2.2 _).mp member with ⟨rfl, rfl⟩ | old
    rotate_left
    · obtain ⟨held, extent, found, begins, low, pages⟩ := mapped.placed index live' mapping old
      by_cases at_root : mapping.root = root
      · rw [at_root] at found
        cases there.symm.trans found
        refine ⟨state.space, extent, ?_, begins, low, ?_⟩
        · rw [at_root]
          exact update_self _ _ _
        intro page inside
        obtain ⟨shared, leaf, entry, names⟩ := pages page inside
        have out := apart shared
        rw [(objects _).1]
        exact ⟨(kept out).mpr shared, leaf, (outside page out).trans entry, names⟩
      · refine ⟨held, extent, (update_of_ne at_root _ _).trans found, begins, low, ?_⟩
        rw [(objects _).1]
        exact pages
    · refine ⟨state.space, range, update_self _ _ _, into.extent, lower, ?_⟩
      obtain ⟨_, size⟩ := fromPages_eq_some.mp into.extent
      intro page inside
      obtain ⟨leaf, entry, names, _⟩ := named.inside page (mem_pagesIter.mpr inside)
      refine ⟨⟨_, by rw [policies, if_pos inside], rfl⟩, leaf, entry, ?_⟩
      have bound : page - range.first < (world.objects id.index).frames.length := by
        rw [← size]
        have low := inside.1
        have high := inside.2
        change page < range.first + range.pages at high
        omega
      rw [(objects _).1, List.getElem?_eq_getElem bound, names]
      change some _ = some ((world.objects id.index).frames.getD (page - range.first) 0)
      rw [getD_eq_getElem?_getD, List.getElem?_eq_getElem bound, Option.getD_some]
  · intro root' held slot' object leaf found low shared entry
    rcases put_spaces world root state found with ⟨rfl, rfl⟩ | ⟨_, found⟩
    · by_cases inside : slot' ∈ range
      · obtain ⟨policy, covered, backing⟩ := shared
        rw [policies, if_pos inside] at covered
        cases covered
        cases backing
        refine ⟨(objects _).2.1.trans live, _, ((objects _).2.2 _).mpr (.inl ⟨rfl, rfl⟩), rfl, ?_⟩
        rw [pagesIter_eq into.extent]
        exact mem_pagesIter.mpr inside
      · obtain ⟨live', mapping, member, rest⟩ := mapped.listed root' space slot' object leaf
          there low ((kept inside).mp shared) ((outside slot' inside).symm.trans entry)
        exact ⟨(objects _).2.1.trans live', mapping, ((objects _).2.2 _).mpr (.inr member), rest⟩
    · obtain ⟨live', mapping, member, rest⟩ := mapped.listed root' held slot' object leaf
        found low shared entry
      exact ⟨(objects _).2.1.trans live', mapping, ((objects _).2.2 _).mpr (.inr member), rest⟩

end World

/-- The pages that are gone have no entry, and may have no region or a region of the space's own;
the others are as they were. -/
structure Retracts (gone : Nat → Prop) (before after : AddressSpace) : Prop where
  inside : ∀ page, gone page → after.leaves page = none
  outside : ∀ slot, ¬ gone slot → after.leaves slot = before.leaves slot
  policy : ∀ page, ¬ gone page → after.regions.policyAt page = before.regions.policyAt page
  plain : ∀ page policy, gone page → after.regions.policyAt page = some policy →
    before.regions.policyAt page = some policy ∨
      policy.flags.copyOnWrite = false ∧ policy.backing = .anonymous

variable {gone more : Nat → Prop} {before after : AddressSpace}

theorem Retracts.trans (first : Retracts gone before middle) (second : Retracts more middle after) :
    Retracts (fun page => gone page ∨ more page) before after where
  inside := by
    intro page either
    by_cases late : more page
    · exact second.inside page late
    · rw [second.outside page late]
      exact first.inside page (either.resolve_right late)
  outside := by
    intro slot neither
    rw [not_or] at neither
    rw [second.outside slot neither.2, first.outside slot neither.1]
  policy := by
    intro page neither
    rw [not_or] at neither
    rw [second.policy page neither.2, first.policy page neither.1]
  plain := by
    intro page policy either found
    have middle : middle.regions.policyAt page = some policy ∨
        policy.flags.copyOnWrite = false ∧ policy.backing = .anonymous := by
      by_cases late : more page
      · exact second.plain page policy late found
      · exact .inl ((second.policy page late).symm.trans found)
    rcases middle with found | own
    · by_cases early : gone page
      · exact first.plain page policy early found
      · exact .inl ((first.policy page early).symm.trans found)
    · exact .inr own

theorem Retracts.congr
    (retracts : Retracts gone before after) (same : ∀ page, gone page ↔ more page) :
    Retracts more before after :=
  (funext fun page => propext (same page) : gone = more) ▸ retracts

namespace State

variable {state before after : State} {mapping : Mapping}

theorem Cleared.retracts {regions : RangeMap}
    (cleared : Cleared mapping.pagesIter (before.setRegions regions) after)
    (lower : ∀ page ∈ mapping.pagesIter, page < lowerSlots)
    (policy : ∀ page, page ∉ mapping.pagesIter →
      regions.policyAt page = before.space.regions.policyAt page)
    (plain : ∀ page policy, page ∈ mapping.pagesIter → regions.policyAt page = some policy →
      before.space.regions.policyAt page = some policy ∨
        policy.flags.copyOnWrite = false ∧ policy.backing = .anonymous) :
    Retracts (fun page => page ∈ mapping.pagesIter) before.space after.space := by
  have same : after.space.regions = regions := cleared.regions_eq
  refine ⟨?_, ?_, ?_, ?_⟩
  · intro page listed
    have gone := cleared.inside page listed
    rw [slotOf_lower (lower page listed)] at gone
    exact gone
  · intro slot unlisted
    refine cleared.outside slot fun page listed here => ?_
    rw [slotOf_lower (lower page listed)] at here
    exact unlisted (here ▸ listed)
  · rw [same]
    exact policy
  · rw [same]
    exact plain

theorem clearPages_retracts
    (lower : ∀ page ∈ mapping.pagesIter, page < lowerSlots) (state : State) :
    Retracts (fun page => page ∈ mapping.pagesIter) state.space
      (clearPages mapping.pagesIter state).space :=
  (clearPages_spec mapping.pagesIter state).retracts lower (fun _ _ => rfl)
    fun _ _ _ found => .inl found

section

variable {mapping : Mapping} {object : Nat} (lower : ∀ page ∈ mapping.pagesIter, page < lowerSlots)
  (fits : Fits state.space.regions object mapping)
include lower fits

theorem scratch_retracts :
    Retracts (fun page => page ∈ mapping.pagesIter) state.space (clearPages mapping.pagesIter
        (state.revokedToScratch mapping.address object).2).space := by
  unfold revokedToScratch
  split
  · exact clearPages_retracts lower state
  cases turned : state.space.regions.orphanShared mapping.address object with
  | error error => exact clearPages_retracts lower state
  | ok regions =>
    obtain ⟨region, member, starts, backing, changed⟩ := RangeMap.orphanShared_spec turned
    have policies : ∀ page, (state.space.regions.repolicy region
        (RangeMap.Policy.orphaned region.toPolicy)).policyAt page = _ :=
      RangeMap.policyAt_repolicy member
    refine (clearPages_spec mapping.pagesIter (state.setRegions regions)).retracts lower ?_ ?_
    · intro page unlisted
      rw [changed, policies, if_neg]
      exact fun inside => unlisted (fits.listed member starts backing inside)
    intro page policy _ found
    rw [changed, policies] at found
    split at found
    · cases found
      exact .inr ⟨rfl, rfl⟩
    · exact .inl found

theorem unmap_retracts (shared : ∀ policy,
    state.space.regions.policyAt (mapping.address / pageSize) = some policy →
      policy.backing = .shared object) : Retracts (fun page => page ∈ mapping.pagesIter) state.space
      (clearPages mapping.pagesIter (state.unmap mapping.address).2).space ∧
    (clearPages mapping.pagesIter (state.unmap mapping.address).2).machine = state.machine ∧
    ∀ page policy, (clearPages mapping.pagesIter
      (state.unmap mapping.address).2).space.regions.policyAt page = some policy →
        state.space.regions.policyAt page = some policy := by
  unfold unmap
  cases removed : state.space.regions.remove mapping.address with
  | error error =>
    have cleared := clearPages_spec mapping.pagesIter state
    refine ⟨clearPages_retracts lower state, cleared.machine, fun page policy found => ?_⟩
    rw [show (clearPages mapping.pagesIter state).space.regions = _ from
      cleared.regions_eq] at found
    exact found
  | ok taken =>
    obtain ⟨region, regions⟩ := taken
    obtain ⟨member, starts⟩ := RangeMap.remove_found removed
    have backing : region.backing = .shared object := by
      refine shared region.toPolicy ?_
      rw [first_of_start starts]
      exact RangeMap.policyAt_of_mem member region.range.first_mem
    simp only
    rw [if_neg (by rw [backing]; nofun)]
    have policies := RangeMap.policyAt_remove removed
    have cleared := clearPages_spec mapping.pagesIter (state.setRegions regions)
    have fewer : ∀ page policy, regions.policyAt page = some policy →
        state.space.regions.policyAt page = some policy := by
      intro page policy found
      rw [policies] at found
      split at found
      · cases found
      · exact found
    refine ⟨cleared.retracts lower ?_ ?_, cleared.machine, ?_⟩
    · intro page unlisted
      rw [policies, if_neg]
      exact fun inside => unlisted (fits.listed member starts backing inside)
    · exact fun page policy _ found => .inl (fewer page policy found)
    · intro page policy found
      rw [show (clearPages mapping.pagesIter (state.setRegions regions)).space.regions = _ from
        cleared.regions_eq] at found
      exact fewer page policy found

end

theorem revokedToScratch_machine (state : State) (address object : Nat) :
    (state.revokedToScratch address object).2.machine = state.machine := by
  unfold revokedToScratch
  split
  · rfl
  · split <;> rfl

end State

namespace World

variable {world before after : World}

def Taken (taken : List Mapping) (root page : Nat) : Prop :=
  ∃ mapping ∈ taken, mapping.root = root ∧ page ∈ mapping.pagesIter

structure Withdrawn (taken : List Mapping) (before after : World) : Prop where
  objects : after.objects = before.objects
  log : after.machine.log = before.machine.log
  kept : ∀ root space, before.spaces root = some space →
    ∃ space', after.spaces root = some space' ∧ Retracts (Taken taken root) space space'
  back : ∀ root, before.spaces root = none → after.spaces root = none

theorem withdrawn_nil (world : World) : Withdrawn [] world world :=
  ⟨rfl, rfl, fun _ space found => ⟨space, found, ⟨nofun, fun _ _ => rfl, fun _ _ => rfl, nofun⟩⟩,
    fun _ none => none⟩

variable {mapping : Mapping}

theorem Withdrawn.cons
    (first : Withdrawn [mapping] before middle) (later : Withdrawn rest middle after) :
    Withdrawn (mapping :: rest) before after where
  objects := later.objects.trans first.objects
  log := later.log.trans first.log
  kept := by
    intro root space found
    obtain ⟨space', found', early⟩ := first.kept root space found
    obtain ⟨space'', found'', late⟩ := later.kept root space' found'
    refine ⟨space'', found'', (early.trans late).congr fun page => ?_⟩
    constructor
    · rintro (⟨other, member, rest⟩ | ⟨other, member, rest⟩)
      · exact ⟨other, mem_cons.mpr (.inl (mem_singleton.mp member)), rest⟩
      · exact ⟨other, mem_cons_of_mem _ member, rest⟩
    · rintro ⟨other, member, rest⟩
      rcases mem_cons.mp member with rfl | member
      · exact .inl ⟨other, mem_singleton_self _, rest⟩
      · exact .inr ⟨other, member, rest⟩
  back := fun root none => later.back root (first.back root none)

theorem withdrawn_withRoot (step : ∀ space, world.spaces mapping.root = some space →
      Retracts (fun page => page ∈ mapping.pagesIter) space (act ⟨space, world.machine⟩).space ∧
      (act ⟨space, world.machine⟩).machine.log = world.machine.log) :
    Withdrawn [mapping] world (world.withRoot mapping.root act) := by
  have one : ∀ root page, Taken [mapping] root page ↔
      mapping.root = root ∧ page ∈ mapping.pagesIter := by
    intro root page
    unfold Taken
    simp only [mem_singleton, exists_eq_left]
  have untouched : ∀ root space, mapping.root ≠ root →
      Retracts (Taken [mapping] root) space space := by
    intro root space different
    refine ⟨fun page gone => ?_, fun _ _ => rfl, fun _ _ => rfl, fun page _ gone => ?_⟩
    · exact absurd ((one root page).mp gone).1 different
    · exact absurd ((one root page).mp gone).1 different
  unfold World.withRoot
  cases there : world.spaces mapping.root with
  | none =>
    refine ⟨rfl, rfl, fun root space found => ⟨space, found, untouched root space ?_⟩,
      fun _ none => none⟩
    rintro rfl
    cases there.symm.trans found
  | some space =>
    obtain ⟨retracts, log⟩ := step space there
    refine ⟨rfl, log, fun root held found => ?_, fun root none => ?_⟩
    · by_cases here : mapping.root = root
      · subst here
        cases there.symm.trans found
        refine ⟨_, update_self _ _ _, retracts.congr fun page => ?_⟩
        rw [one]
        exact ⟨fun listed => ⟨rfl, listed⟩, And.right⟩
      · exact ⟨held, (update_of_ne (Ne.symm here) _ _).trans found,
          untouched root held here⟩
    · have different : root ≠ mapping.root := by
        rintro rfl
        cases there.symm.trans none
      exact (update_of_ne different _ _).trans none

section

variable {index : Nat} {taken : List Mapping} (sound : world.Sound)
  (recorded : ∀ mapping ∈ taken, world.Recorded index mapping)
  (lower : ∀ mapping ∈ taken, ∀ page ∈ mapping.pagesIter, page < lowerSlots)
include sound recorded lower

theorem withdrawn_revoke :
    Withdrawn taken world (taken.foldl (revokeMapping index) world) := by
  induction taken generalizing world with
  | nil => exact withdrawn_nil world
  | cons mapping rest induction =>
    have here := recorded mapping mem_cons_self
    obtain ⟨sound', _, kept⟩ := sound.revokeMapping here
    refine Withdrawn.cons ?_ (induction sound'
      (fun other member => kept index other (recorded other (mem_cons_of_mem _ member)))
      fun other member => lower other (mem_cons_of_mem _ member))
    unfold revokeMapping
    simp only [withSpace_withRoot]
    refine withdrawn_withRoot fun space there => ?_
    have low := lower mapping mem_cons_self
    split
    · refine ⟨@State.scratch_retracts ⟨space, world.machine⟩ mapping index low
        (here.2 space there), ?_⟩
      rw [(State.clearPages_spec _ _).machine, State.revokedToScratch_machine]
    · refine ⟨State.clearPages_retracts low ⟨space, world.machine⟩, ?_⟩
      rw [(State.clearPages_spec _ _).machine]

theorem withdrawn_unmap (shared : ∀ mapping ∈ taken, ∀ space,
    world.spaces mapping.root = some space →
      ∀ policy, space.regions.policyAt (mapping.address / pageSize) = some policy →
        policy.backing = .shared index) :
    Withdrawn taken world (taken.foldl unmapMapping world) := by
  induction taken generalizing world with
  | nil => exact withdrawn_nil world
  | cons mapping rest induction =>
    obtain ⟨sound', _, kept⟩ := sound.unmapMapping mapping
    have low := lower mapping mem_cons_self
    let act : State → State := fun state =>
      State.clearPages mapping.pagesIter
        (if world.installed mapping.root then (state.unmap mapping.address).2 else state)
    have stepped : world.unmapMapping mapping = world.withRoot mapping.root act := by
      unfold unmapMapping
      simp only [withSpace_withRoot]
      rfl
    have acts : ∀ space, world.spaces mapping.root = some space →
        Retracts (fun page => page ∈ mapping.pagesIter) space (act ⟨space, world.machine⟩).space ∧
        (act ⟨space, world.machine⟩).machine = world.machine ∧
        ∀ page policy, (act ⟨space, world.machine⟩).space.regions.policyAt page = some policy →
          space.regions.policyAt page = some policy := by
      intro space there
      simp only [act]
      split
      · exact @State.unmap_retracts ⟨space, world.machine⟩ mapping index low
          ((recorded mapping mem_cons_self).2 space there)
          (shared mapping mem_cons_self space there)
      have cleared := State.clearPages_spec mapping.pagesIter ⟨space, world.machine⟩
      have same : (State.clearPages mapping.pagesIter
          ⟨space, world.machine⟩).space.regions = space.regions := cleared.regions_eq
      refine ⟨State.clearPages_retracts low ⟨space, world.machine⟩, cleared.machine, ?_⟩
      rw [same]
      exact fun page policy found => found
    refine Withdrawn.cons ?_ (induction sound'
      (fun other member => kept index other (recorded other (mem_cons_of_mem _ member)))
      (fun other member => lower other (mem_cons_of_mem _ member)) ?_)
    · rw [stepped]
      exact withdrawn_withRoot fun space there =>
        ⟨(acts space there).1, congrArg Machine.log (acts space there).2.1⟩
    intro other member space' found policy covered
    have before := shared other (mem_cons_of_mem _ member)
    rw [stepped] at found
    unfold World.withRoot at found
    cases there : world.spaces mapping.root with
    | none =>
      rw [there] at found
      exact before space' found policy covered
    | some space =>
      rw [there] at found
      rcases put_spaces world mapping.root _ found with ⟨here, rfl⟩ | ⟨_, found⟩
      · exact before space (here ▸ there) policy ((acts space there).2.2 _ policy covered)
      · exact before space' found policy covered

end

theorem Mapped.withdraw (mapped : world.Mapped) (live : (world.objects index).live = true)
    (mine : ∀ mapping ∈ taken, some mapping ∈ (world.objects index).mappings) (sound : after.Sound)
    (kept : ∀ root space, world.spaces root = some space →
      ∃ space', after.spaces root = some space' ∧ Retracts (Taken taken root) space space')
    (back : ∀ root, world.spaces root = none → after.spaces root = none)
    (others : ∀ other, other ≠ index → after.objects other = world.objects other)
    (left : (after.objects index).live = true →
      (after.objects index).frames = (world.objects index).frames ∧
      ∀ mapping, some mapping ∈ (after.objects index).mappings →
        some mapping ∈ (world.objects index).mappings ∧ ∀ gone ∈ taken, gone.root ≠ mapping.root)
    (gone : ∀ mapping, some mapping ∈ (world.objects index).mappings → mapping ∈ taken ∨
      (after.objects index).live = true ∧ some mapping ∈ (after.objects index).mappings) :
    after.Mapped := by
  have was : ∀ {root space'}, after.spaces root = some space' →
      ∃ space, world.spaces root = some space ∧ Retracts (Taken taken root) space space' := by
    intro root space' found
    cases there : world.spaces root with
    | none => cases (back root there).symm.trans found
    | some space =>
      obtain ⟨space'', found', retracts⟩ := kept root space there
      cases found.symm.trans found'
      exact ⟨space, rfl, retracts⟩
  have outside : ∀ {root slot leaf} {space space' : AddressSpace},
      Retracts (Taken taken root) space space' → space'.leaves slot = some leaf →
      ¬ Taken taken root slot := by
    intro root slot leaf space space' retracts found taken
    cases (retracts.inside slot taken).symm.trans found
  refine ⟨sound, ?_, ?_, ?_⟩
  · intro root space' found
    obtain ⟨space, there, retracts⟩ := was found
    have tidy := mapped.tidy root space there
    refine ⟨?_, ?_⟩
    · intro page policy covered
      by_cases withdrawn : Taken taken root page
      · rcases retracts.plain page policy withdrawn covered with old | ⟨uncopied, anonymous⟩
        · exact tidy.plain page policy old
        · exact ⟨uncopied, .inl anonymous⟩
      · exact tidy.plain page policy ((retracts.policy page withdrawn).symm.trans covered)
    · intro slot leaf low entry
      have untaken := outside retracts entry
      obtain ⟨policy, covered, kind⟩ := tidy.covered slot leaf low
        ((retracts.outside slot untaken).symm.trans entry)
      exact ⟨policy, (retracts.policy slot untaken).trans covered, kind⟩
  · intro other live' mapping member
    -- The record is an old one, and the pages it is for are not among those withdrawn.
    obtain ⟨old, alive, frames, apart⟩ : some mapping ∈ (world.objects other).mappings ∧
        (world.objects other).live = true ∧
        (after.objects other).frames = (world.objects other).frames ∧
        ∀ page leaf space, world.spaces mapping.root = some space →
          page ∈ mapping.pagesIter → space.leaves page = some leaf →
            ¬ Taken taken mapping.root page := by
      by_cases same : other = index
      · subst same
        obtain ⟨frames, old⟩ := left live'
        obtain ⟨member, roots⟩ := old mapping member
        exact ⟨member, live, frames, fun _ _ _ _ _ _ ⟨withdrawn, listed, here, _⟩ =>
          roots withdrawn listed here⟩
      rw [others other same] at member live' ⊢
      refine ⟨member, live', rfl, ?_⟩
      rintro page leaf space there listed entry ⟨withdrawn, taken_mem, here, listed'⟩
      have first := ((mapped.placed other live' mapping member).frame there listed entry).2
      have second := ((mapped.placed index live withdrawn (mine withdrawn taken_mem)).frame
        (here ▸ there) listed' entry).2
      have held := (mapped.sound.objects other live').2 _ first
      rw [(mapped.sound.objects index live).2 _ second] at held
      exact same (Holder.object.inj (Option.some.inj held)).symm
    obtain ⟨space, range, there, extent, lower, pages⟩ := mapped.placed other alive mapping old
    obtain ⟨space', found, retracts⟩ := kept mapping.root space there
    refine ⟨space', range, found, extent, lower, fun page inside => ?_⟩
    obtain ⟨⟨policy, covered, backing⟩, leaf, entry, names⟩ := pages page inside
    have untaken := apart page leaf space there
      (by rw [pagesIter_eq extent]; exact mem_pagesIter.mpr inside) entry
    rw [frames]
    exact ⟨⟨policy, (retracts.policy page untaken).trans covered, backing⟩, leaf,
      (retracts.outside page untaken).trans entry, names⟩
  · rintro root space' slot object leaf found low ⟨policy, covered, backing⟩ entry
    obtain ⟨space, there, retracts⟩ := was found
    have untaken := outside retracts entry
    obtain ⟨live', mapping, member, here, listed⟩ := mapped.listed root space slot object leaf
      there low ⟨policy, (retracts.policy slot untaken).symm.trans covered, backing⟩
      ((retracts.outside slot untaken).symm.trans entry)
    by_cases same : object = index
    · subst same
      rcases gone mapping member with withdrawn | ⟨alive, remains⟩
      · exact absurd ⟨mapping, withdrawn, here, listed⟩ untaken
      · exact ⟨alive, mapping, remains, here, listed⟩
    · rw [others object same]
      exact ⟨live', mapping, member, here, listed⟩

theorem Mapped.lower (mapped : world.Mapped) (live : (world.objects index).live = true)
    (member : some mapping ∈ (world.objects index).mappings) :
    ∀ page ∈ mapping.pagesIter, page < lowerSlots := by
  obtain ⟨_, range, _, extent, lower, _⟩ := mapped.placed index live mapping member
  rw [pagesIter_eq extent]
  exact fun page listed => lower.page listed

theorem Mapped.unmapRoots (mapped : world.Mapped) (id : MemoryId) (roots : List (Option Nat)) :
    (world.unmapRoots id roots).2.Mapped := by
  have sound := mapped.sound.unmapRoots id roots
  unfold World.unmapRoots at sound ⊢
  cases found : world.resolve id with
  | none => exact mapped
  | some object =>
    obtain ⟨rfl, live⟩ := resolve_eq_some found
    rw [found] at sound
    simp only at sound ⊢
    generalize chosen_eq : selectedByRoot (roots.take maxOwners) = chosen at sound ⊢
    have mine : ∀ mapping ∈ ((world.objects id.index).mappings.filter chosen).reduceOption,
        some mapping ∈ (world.objects id.index).mappings ∧ chosen (some mapping) = true := by
      intro mapping member
      exact mem_filter.mp (reduceOption_mem_iff.mp member)
    let struck : Object :=
      { world.objects id.index with
        mappings := (world.objects id.index).mappings.map fun mapping =>
          if chosen mapping then none else mapping }
    have own : (world.setObject id.index struck).objects id.index = struck :=
      update_self _ _ _
    have forgotten : (world.setObject id.index struck).Sound := by
      refine mapped.sound.setObject (fun _ => mapped.sound.objects id.index live)
        fun _ mapping member => ?_
      obtain ⟨old, kept, same⟩ := mem_map.mp member
      split at same
      · cases same
      · subst same
        exact mapped.sound.recorded id.index live mapping kept
    have withdrawn := @withdrawn_unmap _ id.index _ forgotten
      (fun mapping member => by
        unfold Recorded
        rw [own]
        exact mapped.sound.recorded id.index live mapping (mine mapping member).1)
      (fun mapping member => mapped.lower live (mine mapping member).1)
      (fun mapping member space there policy covered => by
        obtain ⟨space', range, there', extent, _, pages⟩ :=
          mapped.placed id.index live mapping (mine mapping member).1
        cases there.symm.trans there'
        obtain ⟨⟨policy', covered', backing⟩, _⟩ := pages range.first range.first_mem
        have first : mapping.address / pageSize = range.first := by
          rw [← (fromPages_eq_some.mp extent).1, VirtRange.start,
            Nat.mul_div_cancel _ (by decide)]
        rw [first] at covered
        cases covered.symm.trans covered'
        exact backing)
    refine mapped.withdraw live (fun mapping member => (mine mapping member).1) sound
      withdrawn.kept withdrawn.back ?_ ?_ ?_
    · intro other different
      rw [withdrawn.objects]
      exact update_of_ne different _ _
    · rw [withdrawn.objects, own]
      refine fun _ => ⟨rfl, fun mapping member => ?_⟩
      obtain ⟨old, kept, same⟩ := mem_map.mp member
      split at same
      · cases same
      next unchosen =>
      subst same
      refine ⟨kept, fun gone taken root => unchosen ?_⟩
      have selected := (mine gone taken).2
      rw [← chosen_eq] at selected ⊢
      change (roots.take maxOwners).contains (some mapping.root) = true
      rw [← root]
      exact selected
    · intro mapping member
      by_cases selected : chosen (some mapping) = true
      · exact .inl (reduceOption_mem_iff.mpr (mem_filter.mpr ⟨member, selected⟩))
      · rw [withdrawn.objects, own]
        exact .inr ⟨live, mem_map.mpr ⟨some mapping, member, if_neg selected⟩⟩

theorem freeFrames_log (machine : Machine) (who : Holder) (frames : List Nat) :
    (machine.freeFrames who frames).log = (frames.map (Entry.gave who)).reverse ++ machine.log := by
  unfold Machine.freeFrames
  induction frames generalizing machine with
  | nil => rfl
  | cons frame rest induction =>
    rw [foldl_cons, induction, map_cons, reverse_cons, append_assoc]
    rfl

theorem Mapped.revoke_spec (mapped : world.Mapped) {id : MemoryId}
    (found : world.resolve id = some object) : (∀ root space, world.spaces root = some space →
      ∃ space', (world.revoke id).2.spaces root = some space' ∧
        Retracts (Taken object.mappings.reduceOption root) space space') ∧
    (∀ root, world.spaces root = none → (world.revoke id).2.spaces root = none) ∧
    (∀ other, other ≠ id.index → (world.revoke id).2.objects other = world.objects other) ∧
    ((world.revoke id).2.objects id.index).live = false ∧ (world.revoke id).2.machine.log =
      (object.frames.map (Entry.gave (.object id.index))).reverse ++ world.machine.log := by
  obtain ⟨here, live⟩ := resolve_eq_some found
  subst here
  unfold World.revoke
  rw [found]
  simp only
  let bare : Object := { world.objects id.index with mappings := .replicate maxMappings none }
  have own : (world.setObject id.index bare).objects id.index = bare := update_self _ _ _
  have forgotten : (world.setObject id.index bare).Sound := by
    refine mapped.sound.setObject (fun _ => mapped.sound.objects id.index live)
      fun _ mapping member => ?_
    cases eq_of_mem_replicate member
  have withdrawn := @withdrawn_revoke _ id.index _ forgotten
    (fun mapping (member : mapping ∈ (world.objects id.index).mappings.reduceOption) => by
      unfold Recorded
      rw [own]
      exact mapped.sound.recorded id.index live mapping (reduceOption_mem_iff.mp member))
    (fun mapping member => mapped.lower live (reduceOption_mem_iff.mp member))
  generalize (world.objects id.index).mappings.reduceOption.foldl (revokeMapping id.index)
    (world.setObject id.index bare) = emptied at withdrawn
  have resolved : emptied.resolve id = some bare := by
    have valid : id.index < maxObjects ∧ (world.objects id.index).live = true ∧
        (world.objects id.index).generation = id.generation := by
      unfold World.resolve at found
      simp only at found
      split at found
      · next valid => exact valid
      · cases found
    unfold World.resolve
    simp only
    rw [withdrawn.objects, own]
    exact if_pos valid
  unfold World.destroy
  rw [resolved]
  simp only
  refine ⟨withdrawn.kept, withdrawn.back, ?_, ?_, ?_⟩
  · intro other different
    change update emptied.objects id.index _ other = _
    rw [update_of_ne different, withdrawn.objects]
    exact update_of_ne different _ _
  · change (update emptied.objects id.index _ id.index).live = false
    rw [update_self]
  · change (Machine.freeFrames _ _ _).log = _
    rw [freeFrames_log, withdrawn.log]
    rfl

theorem Mapped.revoke (mapped : world.Mapped) (id : MemoryId) : (world.revoke id).2.Mapped := by
  have sound := mapped.sound.revoke id
  cases found : world.resolve id with
  | none =>
    unfold World.revoke
    rw [found]
    exact mapped
  | some object =>
    obtain ⟨kept, back, others, dead, _⟩ := mapped.revoke_spec found
    obtain ⟨rfl, live⟩ := resolve_eq_some found
    refine mapped.withdraw live (fun mapping member => reduceOption_mem_iff.mp member) sound
      kept back others ?_ ?_
    · intro alive
      cases dead.symm.trans alive
    · exact fun mapping member => .inl (reduceOption_mem_iff.mpr member)

/-- Ranges lie in the lower half; `map_into` does not stop part of the way; nobody unmaps shared
memory whose entries are still there. -/
def Orderly (world : World) : Call → Prop
  | .operate _ (.mapAnonymous range _) | .operate _ (.mapAnonymousLazy range _) =>
    State.Lower range
  | .operate root (.unmapRange start pages) => ∀ space, world.spaces root = some space →
      (State.mk space world.machine).Unlent start pages
  | .operate _ (.fault _ _ _) => True
  | .unmapAt root start pages => ∀ space, world.spaces root = some space →
      (State.mk space world.machine).Unlent start
        ((State.mk space world.machine).unmapAtPages start pages)
  | .mapInto id root address protection => world.SparingInto id root address protection
  | .newSpace | .own _ _ | .keepRevokedAsScratch _ | .install _ | .forget _ | .create _ _ |
    .revoke _ | .unmapRoots _ _ | .elsewhere _ => True
  | .operate _ _ | .mapAt _ _ _ _ _ _ | .destroySpace _ | .destroy _ => False

theorem Mapped.perform (mapped : world.Mapped) (call : Call) (orderly : world.Orderly call) :
    (call.perform world).Mapped := by
  cases call with
  | newSpace => exact mapped.newSpace
  | destroySpace root | mapAt root address pages protection lazy replace | destroy id =>
    exact orderly.elim
  | own root domain =>
    refine @Mapped.withRoot world root (fun state => state.own domain) mapped
      fun space there clean tidy lent => ⟨State.own_proper clean domain, ?_⟩
    obtain ⟨regions, leaves⟩ := State.own_same ⟨space, world.machine⟩ domain
    exact tidy.same lent regions fun slot => .inl (congrFun leaves slot)
  | keepRevokedAsScratch root =>
    exact @Mapped.withRoot world root
      (fun state => { state with space := state.space.keepRevokedAsScratch }) mapped
      fun space there clean tidy lent =>
        ⟨State.proper_of_same clean rfl rfl rfl rfl rfl rfl, tidy.same lent rfl fun _ => .inl rfl⟩
  | install root => exact { mapped with sound := mapped.sound.perform (.install root) trivial }
  | forget root => exact { mapped with sound := mapped.sound.perform (.forget root) trivial }
  | operate root operation =>
    cases operation with
    | mapAnonymous range protection =>
      exact @Mapped.withRoot world root (fun state => (state.mapAnonymous range protection).2)
        mapped fun space there clean tidy lent =>
          State.mapAnonymous_orderly clean tidy lent orderly protection
    | mapAnonymousLazy range protection =>
      exact @Mapped.withRoot world root
        (fun state => (state.mapAnonymousLazy range protection).2) mapped
        fun space there clean tidy lent =>
          State.mapAnonymousLazy_orderly clean tidy lent orderly protection
    | unmapRange start pages =>
      exact @Mapped.withRoot world root (fun state => (state.unmapRange start pages).2) mapped
        fun space there clean tidy lent =>
          ⟨State.unmapRange_proper clean start pages,
            State.unmapRange_quiet clean tidy lent (orderly space there)⟩
    | fault address write notPresent =>
      exact @Mapped.withRoot world root
        (fun state => (state.handleFault address write notPresent).2) mapped
        fun space there clean tidy lent =>
          ⟨State.perform_proper clean (.fault address write notPresent) trivial,
            State.handleFault_quiet clean tidy lent address write notPresent⟩
    | mapShared range object frames protection | mapDevice range physical protection
    | protect start pages protection | replaceUntouched start pages protection | unmap start
    | discard start pages | makeCopyOnWrite start => exact orderly.elim
  | unmapAt root start pages =>
    exact @Mapped.withSpace world root (fun state => (state.unmapAt start pages).2) mapped
      fun space there clean tidy lent =>
        ⟨State.unmapRange_proper clean start _,
          State.unmapRange_quiet clean tidy lent (orderly space there)⟩
  | create owner length => exact mapped.create owner length
  | mapInto id root address protection => exact mapped.mapInto orderly
  | revoke id => exact mapped.revoke id
  | unmapRoots id roots => exact mapped.unmapRoots id roots
  | elsewhere machine =>
    exact mapped.of_same (mapped.sound.perform (.elsewhere machine) trivial) rfl
      (fun _ _ => rfl) fun _ live dead => by cases live.symm.trans dead

theorem boot_mapped (machine : Machine) : (boot machine).Mapped :=
  ⟨boot_sound machine, nofun, nofun, nofun⟩

/-- No entry names a frame it had, the frames have been handed back once each, and every other entry
is where it was. -/
structure RevokesExactly (world : World) (id : MemoryId) (object : Object) : Prop where
  unmapped : ∀ root space slot leaf, (world.revoke id).2.spaces root = some space →
    slot < lowerSlots → space.leaves slot = some leaf → leaf.frame ∉ object.frames
  once : object.frames.Nodup
  returned : (world.revoke id).2.machine.log =
    (object.frames.map (Entry.gave (.object id.index))).reverse ++ world.machine.log
  kept : ∀ root space slot leaf, world.spaces root = some space → space.leaves slot = some leaf →
    leaf.frame ∉ object.frames →
      ∃ space', (world.revoke id).2.spaces root = some space' ∧ space'.leaves slot = some leaf

/-- After every orderly run, revoking any live object removes exactly its mappings. -/
theorem revokes_exactly {machine : Machine} {id : MemoryId} {object : Object}
    (reached : Reached Call.perform Orderly (boot machine) world)
    (found : world.resolve id = some object) : world.RevokesExactly id object := by
  have mapped : world.Mapped :=
    reached.invariant (boot_mapped machine) fun call mapped orderly => mapped.perform call orderly
  obtain ⟨kept, back, _, _, log⟩ := mapped.revoke_spec found
  obtain ⟨here, live⟩ := resolve_eq_some found
  subst here
  obtain ⟨nodup, held⟩ := mapped.sound.objects id.index live
  refine ⟨?_, nodup, log, ?_⟩
  · intro root space' slot leaf found' low entry names
    cases there : world.spaces root with
    | none => cases (back root there).symm.trans found'
    | some space =>
      obtain ⟨space'', found'', retracts⟩ := kept root space there
      cases found'.symm.trans found''
      have untaken : ¬ Taken (world.objects id.index).mappings.reduceOption root slot := by
        intro taken
        cases (retracts.inside slot taken).symm.trans entry
      have before := (retracts.outside slot untaken).symm.trans entry
      have holder := held leaf.frame names
      obtain ⟨policy, covered, freeable | ⟨object, backing⟩⟩ :=
        (mapped.tidy root space there).covered slot leaf low before
      · -- An entry of the space's own would name a frame of the space's own.
        have own := (mapped.sound.spaces root space there).2.2.owned.held slot leaf low
          ⟨policy, covered, freeable.1⟩ before
        cases own.symm.trans holder
      · have lent := mapped.lent there low ⟨policy, covered, backing⟩ before
        cases lent.symm.trans holder
        obtain ⟨_, mapping, member, at_root, listed⟩ := mapped.listed root space slot id.index
          leaf there low ⟨policy, covered, backing⟩ before
        exact untaken ⟨mapping, reduceOption_mem_iff.mpr member, at_root, listed⟩
  · intro root space slot leaf there entry foreign
    obtain ⟨space', found', retracts⟩ := kept root space there
    refine ⟨space', found', (retracts.outside slot ?_).trans entry⟩
    rintro ⟨mapping, member, at_root, listed⟩
    have placed := mapped.placed id.index live mapping (reduceOption_mem_iff.mp member)
    exact foreign (placed.frame (at_root ▸ there) listed entry).2

def oneObject : World :=
  (Call.create 0 4096).perform (Call.newSpace.perform (boot Machine.counting))

theorem oneObject_sparing : oneObject.SparingInto ⟨0, 0⟩ 0 (16 * pageSize) .readWrite := by
  intro object space range resolved there extent
  have frames : object.frames = [1] := by
    have found : (oneObject.resolve ⟨0, 0⟩).map Object.frames = some [1] := by decide
    rw [resolved] at found
    exact Option.some.inj found
  rw [frames] at extent ⊢
  have range_eq : range = onePage := Option.some.inj (extent.symm.trans (by decide))
  subst range_eq
  refine ⟨by decide, fun regions _ => .inr (.inr ?_)⟩
  cases there
  refine ⟨rfl, fun page inside leaf found => ?_⟩
  have low : slotOf page < lowerSlots := by
    rw [slotOf_lower (lt_of_lt_of_le inside.2 (by decide))]
    exact lt_of_lt_of_le inside.2 (by decide)
  change (if slotOf page < lowerSlots then none else none) = some leaf at found
  rw [if_pos low] at found
  cases found

theorem revokes_exactly_one :
    ((Call.mapInto ⟨0, 0⟩ 0 (16 * pageSize) .readWrite).perform oneObject).resolve ⟨0, 0⟩ =
        some { frames := [1], owner := 0, generation := 0, live := true,
               mappings := some ⟨0, 16 * pageSize, 1⟩ :: .replicate 7 none } ∧
      ((Call.mapInto ⟨0, 0⟩ 0 (16 * pageSize) .readWrite).perform oneObject).RevokesExactly ⟨0, 0⟩
        { frames := [1], owner := 0, generation := 0, live := true,
          mappings := some ⟨0, 16 * pageSize, 1⟩ :: .replicate 7 none } :=
  ⟨by decide, revokes_exactly
    (.next _ (.next _ (.next Call.newSpace .start trivial) trivial) oneObject_sparing) (by decide)⟩

def reuse : List Call :=
  [.newSpace, .install 0, .create 0 4096, .mapInto ⟨0, 0⟩ 0 (16 * pageSize) .readWrite,
    .unmapAt 0 (16 * pageSize) 1, .operate 0 (.mapAnonymousLazy onePage .readWrite),
    .unmapAt 0 (16 * pageSize) 1, .operate 0 (.mapAnonymous onePage .readWrite)]

/-- Revoking the object then takes away the page that is there now. -/
theorem not_revokes_exactly : ¬ ∀ calls : List Call, ∀ object,
      (calls.foldl (fun world call => call.perform world)
        (boot Machine.counting)).resolve ⟨0, 0⟩ = some object →
      (calls.foldl (fun world call => call.perform world)
        (boot Machine.counting)).RevokesExactly ⟨0, 0⟩ object := by
  intro always
  have exact := always reuse
    { frames := [1], owner := 0, generation := 0, live := true,
      mappings := some ⟨0, 16 * pageSize, 1⟩ :: .replicate 7 none } (by decide)
  have entry : ((reuse.foldl (fun world call => call.perform world)
      (boot Machine.counting)).spaces 0).map (fun space => space.leaves 16) =
        some (some ⟨8, entryFlags .readWrite 16⟩) := by decide
  obtain ⟨space, there, found⟩ := Option.map_eq_some_iff.mp entry
  obtain ⟨space', there', found'⟩ := exact.kept 0 space 16 _ there found (by decide)
  have gone : (((reuse.foldl (fun world call => call.perform world)
      (boot Machine.counting)).revoke ⟨0, 0⟩).2.spaces 0).map (fun space => space.leaves 16) =
        some none := by decide
  rw [there', Option.map_some, found'] at gone
  cases gone

end World

end Bhaskix.Vm
