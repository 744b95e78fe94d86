import Bhaskix.Vm.Operations

namespace Bhaskix.Vm

open Library Mm Function
open VirtRange (mem_pagesIter)

inductive Operation
  | mapAnonymous (range : VirtRange) (protection : Protection)
  | mapAnonymousLazy (range : VirtRange) (protection : Protection)
  | mapShared (range : VirtRange) (object : Nat) (frames : List Nat) (protection : Protection)
  | mapDevice (range : VirtRange) (physical : Nat) (protection : Protection)
  | protect (start pages : Nat) (protection : Protection)
  | replaceUntouched (start pages : Nat) (protection : Protection)
  | unmap (start : Nat)
  | unmapRange (start pages : Nat)
  | discard (start pages : Nat)
  | makeCopyOnWrite (start : Nat)
  | fault (address : Nat) (write notPresent : Bool)

def Operation.perform : Operation → State → State
  | .mapAnonymous range protection, state => (state.mapAnonymous range protection).2
  | .mapAnonymousLazy range protection, state => (state.mapAnonymousLazy range protection).2
  | .mapShared range object frames protection, state =>
    (state.mapShared range object frames protection).2
  | .mapDevice range physical protection, state => (state.mapDevice range physical protection).2
  | .protect start pages protection, state => (state.protect start pages protection).2
  | .replaceUntouched start pages protection, state =>
    (state.replaceUntouched start pages protection).2
  | .unmap start, state => (state.unmap start).2
  | .unmapRange start pages, state => (state.unmapRange start pages).2
  | .discard start pages, state => (state.discard start pages).2
  | .makeCopyOnWrite start, state => (state.makeCopyOnWrite start).2
  | .fault address write notPresent, state => (state.handleFault address write notPresent).2

namespace State

variable {state before after : State}

/-- `others` says what the rest of the kernel may do to the machine between two operations. -/
inductive Reaches (meets : State → Operation → Prop) (others : Machine → Machine → Prop)
    (start : State) : State → Prop
  | start : Reaches meets others start start
  | step {state : State} (operation : Operation) : Reaches meets others start state →
      meets state operation → Reaches meets others start (operation.perform state)
  | elsewhere {state : State} (machine : Machine) : Reaches meets others start state →
      others state.machine machine → Reaches meets others start (state.setMachine machine)

def Allows (policy : Policy) (leaf : Leaf) : Prop :=
  policy.protection.present = true ∧
    (leaf.flags.writable = true → policy.protection.writable = true) ∧
    (leaf.flags.noExecute = false → policy.protection.executable = true)

def Permits (state : State) : Prop :=
  ∀ slot leaf, slot < lowerSlots → state.space.leaves slot = some leaf →
    ∃ policy, state.space.regions.policyAt slot = some policy ∧ Allows policy leaf

/-- No page that has an entry becomes inaccessible or loses its region while its entry stays, and a
copy on write is of a page its region lets be written. -/
def Careful (state : State) : Operation → Prop
  | .mapAnonymous range _ | .mapAnonymousLazy range _ => Lower range
  | .mapShared range _ _ protection | .mapDevice range _ protection =>
    Lower range ∧ protection.present = true
  | .protect start pages protection =>
    protection.present = true ∨ ∀ range, VirtRange.fromPages start pages = some range →
      ∀ page ∈ range, state.space.leaves page = none
  | .unmap start =>
    ∀ region ∈ state.space.regions.regions, region.range.start = start →
      Freeable region.toPolicy ∨ ∀ page ∈ region.range, state.space.leaves page = none
  | .unmapRange start pages =>
    ∀ range, VirtRange.fromPages start pages = some range → ∀ page ∈ range, ∀ policy,
      state.space.regions.policyAt page = some policy →
        Freeable policy ∨ state.space.leaves page = none
  | .fault address write _ =>
    write = true → ∀ policy, state.space.regions.policyAt (address / pageSize) = some policy →
      policy.flags.copyOnWrite = true → state.space.leaves (address / pageSize) ≠ none →
        policy.protection.writable = true
  | .replaceUntouched _ _ _ | .discard _ _ | .makeCopyOnWrite _ => True

theorem Permits.vacant (permits : state.Permits) (low : slot < lowerSlots)
    (bare : state.space.regions.policyAt slot = none) : state.space.leaves slot = none := by
  cases found : state.space.leaves slot with
  | none => rfl
  | some leaf =>
    obtain ⟨policy, covered, _⟩ := permits slot leaf low found
    rw [bare] at covered
    cases covered

theorem Permits.shrink (permits : before.Permits)
    (same : after.space.regions = before.space.regions)
    (leaves : ∀ slot, after.space.leaves slot = before.space.leaves slot ∨
      after.space.leaves slot = none) : after.Permits := by
  intro slot leaf low found
  rw [same]
  rcases leaves slot with kept | gone
  · exact permits slot leaf low (kept.symm.trans found)
  · rw [gone] at found
    cases found

variable {protection : Protection} {region : VmRegion}

theorem allows_entryFlags {policy : Policy} {leaf : Leaf}
    (present : protection.present = true) (same : policy.protection = protection)
    (flags : leaf.flags = entryFlags protection page) : Allows policy leaf := by
  refine ⟨same ▸ present, ?_, ?_⟩
  · intro writable
    rw [flags] at writable
    exact same ▸ writable
  · intro executable
    rw [flags] at executable
    rw [same]
    simpa [entryFlags] using executable

section

variable (legal : before.Permits)
include legal

theorem Permits.insert (inserted : before.space.regions.insert region true = .ok regions)
    (same : after.space.regions = regions) (outside : ∀ slot, slot ∉ region.range →
      after.space.leaves slot = before.space.leaves slot)
    (inside : ∀ slot ∈ region.range, ∀ leaf, before.space.leaves slot = none →
      after.space.leaves slot = some leaf → Allows region.toPolicy leaf) : after.Permits := by
  intro slot leaf low found
  rw [same, RangeMap.policyAt_insert inserted]
  split
  · next covered =>
      have bare := legal.vacant low (RangeMap.policyAt_of_insert inserted covered)
      exact ⟨_, rfl, inside slot covered leaf bare found⟩
  · next uncovered => exact legal slot leaf low ((outside slot uncovered).symm.trans found)

theorem Covers.permits (covers : Covers region before after) : after.Permits := by
  obtain ⟨regions, inserted, supplied⟩ := covers
  refine legal.insert inserted supplied.regions_eq
    (fun slot _ => congrFun supplied.leaves slot) ?_
  intro slot _ leaf vacant found
  rw [supplied.leaves] at found
  cases vacant.symm.trans found

theorem Fills.permits (fills : Fills range protection before after) : after.Permits := by
  obtain ⟨present, regions, inserted, filled⟩ := fills
  refine legal.insert inserted filled.regions_eq
    (fun slot uncovered => filled.outside slot fun member =>
      uncovered (mem_pagesIter.mp member)) ?_
  intro slot covered leaf vacant found
  rcases (filled.entry (mem_pagesIter.mpr covered) found).1 with new | old
  · exact allows_entryFlags present rfl new.2
  · cases vacant.symm.trans old

theorem Lends.permits (lends : Lends region frames flags before after)
    (allowed : ∀ frame page, Allows region.toPolicy ⟨frame, flags page⟩) : after.Permits := by
  obtain ⟨regions, inserted, named⟩ := lends
  refine legal.insert inserted named.regions_eq
    (fun slot uncovered => named.outside slot fun member =>
      uncovered (mem_pagesIter.mp member)) ?_
  intro slot covered leaf vacant found
  obtain ⟨entry, entered, _, was⟩ := named.inside slot (mem_pagesIter.mpr covered)
  cases entered.symm.trans found
  rcases was with new | old
  · have allows := allowed leaf.frame slot
    rw [← new.2] at allows
    exact allows
  · cases vacant.symm.trans old

theorem Permits.cut
    (cut : Cut range before.space.regions regions) (same : after.space.regions = regions)
    (inside : ∀ slot ∈ range, after.space.leaves slot = none)
    (outside : ∀ slot, slot ∉ range → after.space.leaves slot = before.space.leaves slot) :
    after.Permits := by
  intro slot leaf low found
  rw [same, cut.policy]
  split
  · next covered =>
      rw [inside slot covered] at found
      cases found
  · next uncovered => exact legal slot leaf low ((outside slot uncovered).symm.trans found)

theorem Unmaps.permits (unmaps : Unmaps range before after) : after.Permits := by
  obtain ⟨_, regions, cut, dropped⟩ := unmaps
  exact legal.cut cut dropped.regions_eq
    (fun slot covered => dropped.inside slot (mem_pagesIter.mpr covered))
    (fun slot uncovered => dropped.outside slot fun member =>
      uncovered (mem_pagesIter.mp member))

theorem Uncovers.permits (uncovers : Uncovers range before after)
    (bare : ∀ page ∈ range, ∀ policy, before.space.regions.policyAt page = some policy →
      Freeable policy ∨ before.space.leaves page = none) : after.Permits := by
  obtain ⟨policies, regions, cut, supplied⟩ := uncovers
  refine legal.cut cut supplied.regions_eq ?_
    (fun slot _ => congrFun supplied.leaves slot)
  intro slot covered
  obtain ⟨policy, found, other⟩ := policies slot covered
  exact (congrFun supplied.leaves slot).trans ((bare slot covered policy found).resolve_left other)

theorem Discards.permits (discards : Discards before after) : after.Permits := by
  have same := discards.regions
  obtain ⟨pages, _, _, dropped⟩ := discards
  refine legal.shrink same fun slot => ?_
  by_cases member : slot ∈ pages
  · exact .inr (dropped.inside slot member)
  · exact .inl (dropped.outside slot member)

theorem Reprotects.permits (moved : Reprotects range protection before after)
    (bare : protection.present = true ∨ ∀ page ∈ range, before.space.leaves page = none) :
    after.Permits := by
  obtain ⟨region, regions, cut, flagged⟩ := moved
  have same : after.space.regions = regions := flagged.regions_eq
  intro slot leaf low found
  rw [same, cut.policyAt]
  split
  · next covered =>
      rw [flagged.inside slot (mem_pagesIter.mpr covered)] at found
      obtain ⟨entry, was, rfl⟩ := Option.map_eq_some_iff.mp found
      rcases bare with present | vacant
      · exact ⟨_, rfl, allows_entryFlags present rfl rfl⟩
      · cases was.symm.trans (vacant slot covered)
  · next uncovered =>
      rw [flagged.outside slot fun member => uncovered (mem_pagesIter.mp member)] at found
      exact legal slot leaf low found

theorem Marks.permits (marks : Marks region before after) : after.Permits := by
  obtain ⟨member, regions, page, policy, _, flagged⟩ := marks
  have same : after.space.regions = regions := flagged.regions_eq
  intro slot leaf low found
  rw [same, policy]
  split
  · next covered =>
      rw [flagged.inside slot (mem_pagesIter.mpr covered)] at found
      obtain ⟨entry, was, rfl⟩ := Option.map_eq_some_iff.mp found
      obtain ⟨old, held, present, _⟩ := legal slot entry low was
      rw [RangeMap.policyAt_of_mem member covered] at held
      cases held
      exact ⟨_, rfl, present, nofun, nofun⟩
  · next uncovered =>
      rw [flagged.outside slot fun member => uncovered (mem_pagesIter.mp member)] at found
      exact legal slot leaf low found

theorem Faults.permits (faults : Faults page before after) : after.Permits := by
  have same := faults.regions
  obtain ⟨_, vacant, policy, covered, present, _, filled⟩ := faults
  intro slot leaf low found
  rw [same]
  by_cases here : slot = page
  · subst here
    rcases (filled.entry (List.mem_singleton_self _) found).1 with new | old
    · exact ⟨policy, covered, allows_entryFlags present rfl new.2⟩
    · cases vacant.symm.trans old
  · exact legal slot leaf low
      ((filled.outside slot fun member => here (List.mem_singleton.mp member)).symm.trans found)

theorem Copies.permits (copies : Copies page before after)
    (writable : ∀ policy, before.space.regions.policyAt page = some policy →
      policy.flags.copyOnWrite = true → before.space.leaves page ≠ none →
        policy.protection.writable = true) : after.Permits := by
  have same := copies.regions
  obtain ⟨_, policy, entry, covered, marked, present, filled | idle⟩ := copies
  · have allowed := writable policy covered marked (by rw [present]; nofun)
    intro slot leaf low found
    rw [same]
    by_cases here : slot = page
    · subst here
      have emptied : ((before.paid 1).setLeaf slot none).space.leaves slot = none :=
        update_self _ _ _
      rcases (filled.entry (List.mem_singleton_self _) found).1 with new | old
      · refine ⟨policy, covered, Protection.present_of_writable allowed, fun _ => allowed, ?_⟩
        rw [new.2]
        nofun
      · cases emptied.symm.trans old
    · rw [filled.outside slot fun member => here (List.mem_singleton.mp member)] at found
      exact legal slot leaf low ((update_of_ne here _ _).symm.trans found)
  · refine legal.shrink same fun slot => ?_
    have emptied : (before.setLeaf page none).space.leaves slot = before.space.leaves slot ∨
        (before.setLeaf page none).space.leaves slot = none := by
      by_cases here : slot = page
      · subst here
        exact .inr (update_self _ _ _)
      · exact .inl (update_of_ne here _ _)
    rcases idle.still.leaves slot with kept | gone
    · rw [kept]
      exact emptied
    · exact .inr gone.1

end

structure Guarded (state : State) : Prop where
  low : state.Low
  permits : state.Permits

theorem Idle.guarded (idle : Idle before after) (guarded : before.Guarded) : after.Guarded :=
  ⟨low_of_regions guarded.low idle.regions, guarded.permits.shrink idle.regions fun slot =>
    (idle.still.leaves slot).imp_right And.left⟩

theorem RolledBack.guarded (rolled : RolledBack before after) (guarded : before.Guarded) :
    after.Guarded :=
  ⟨low_of_regions guarded.low rolled.regions, guarded.permits.shrink rolled.regions rolled.leaves⟩

theorem perform_guarded (guarded : state.Guarded) (operation : Operation)
    (careful : state.Careful operation) : (operation.perform state).Guarded := by
  cases operation with
  | mapAnonymous range protection =>
    rcases mapAnonymous_spec careful protection state with
      ⟨_, after, done, idle⟩ | ⟨after, done, _, covers⟩ | ⟨after, done, fills⟩
    all_goals rw [Operation.perform, done]
    · exact idle.guarded guarded
    · exact ⟨covers.low guarded.low careful, covers.permits guarded.permits⟩
    · exact ⟨fills.low guarded.low careful, fills.permits guarded.permits⟩
  | mapAnonymousLazy range protection =>
    rcases mapAnonymousLazy_spec state range protection with
      ⟨_, after, done, idle⟩ | ⟨after, done, covers⟩
    all_goals rw [Operation.perform, done]
    · exact idle.guarded guarded
    · exact ⟨covers.low guarded.low careful, covers.permits guarded.permits⟩
  | mapShared range object frames protection =>
    rcases mapShared_spec careful.1 object frames protection state with
      ⟨_, after, done, idle⟩ | ⟨after, done, data, _, lends⟩ | ⟨_, after, done, _, rolled⟩
    all_goals rw [Operation.perform, done]
    · exact idle.guarded guarded
    · exact ⟨lends.low guarded.low careful.1, lends.permits guarded.permits fun _ _ =>
        allows_entryFlags careful.2 rfl rfl⟩
    · exact rolled.guarded guarded
  | mapDevice range physical protection =>
    rcases mapDevice_spec careful.1 physical protection state with
      idle | ⟨_, lends⟩ | ⟨_, rolled⟩
    · exact idle.guarded guarded
    · exact ⟨lends.low guarded.low careful.1, lends.permits guarded.permits fun _ _ =>
        ⟨careful.2, id, nofun⟩⟩
    · exact rolled.guarded guarded
  | protect start pages protection =>
    rcases protect_spec guarded.low start pages protection with
      idle | ⟨range, asked, _, moved⟩
    · exact idle.guarded guarded
    · exact ⟨moved.low guarded.low, moved.permits guarded.permits
        (careful.imp_right fun bare => bare range asked)⟩
  | replaceUntouched start pages protection =>
    rcases replaceUntouched_spec guarded.low start pages protection with
      idle | ⟨range, _, bare, moved⟩
    · exact idle.guarded guarded
    · exact ⟨moved.low guarded.low, moved.permits guarded.permits (.inr bare)⟩
  | unmap start =>
    rcases unmap_cases guarded.low start with same | ⟨region, member, starts, unmaps | uncovers⟩
    · rw [Operation.perform, same]
      exact guarded
    · exact ⟨unmaps.low guarded.low, unmaps.permits guarded.permits⟩
    refine ⟨uncovers.low guarded.low, uncovers.permits guarded.permits ?_⟩
    intro page inside policy covered
    rw [RangeMap.policyAt_of_mem member inside] at covered
    cases covered
    exact (careful region member starts).imp_right fun bare => bare page inside
  | unmapRange start pages =>
    rcases unmapRange_spec guarded.low start pages with
      ⟨_, after, done, idle⟩ | ⟨range, after, asked, _, done, unmaps | uncovers⟩
    all_goals rw [Operation.perform, done]
    · exact idle.guarded guarded
    · exact ⟨unmaps.low guarded.low, unmaps.permits guarded.permits⟩
    · exact ⟨uncovers.low guarded.low, uncovers.permits guarded.permits (careful range asked)⟩
  | discard start pages =>
    rcases discard_spec guarded.low start pages with idle | discards
    · exact idle.guarded guarded
    · exact ⟨low_of_regions guarded.low discards.regions, discards.permits guarded.permits⟩
  | makeCopyOnWrite start =>
    rcases makeCopyOnWrite_spec guarded.low start with idle | ⟨region, marks⟩
    · exact idle.guarded guarded
    · exact ⟨marks.low guarded.low, marks.permits guarded.permits⟩
  | fault address write notPresent =>
    rcases handleFault_spec guarded.low address write notPresent with
      idle | faults | ⟨written, copies⟩
    · exact idle.guarded guarded
    · exact ⟨low_of_regions guarded.low faults.regions, faults.permits guarded.permits⟩
    · exact ⟨low_of_regions guarded.low copies.regions,
        copies.permits guarded.permits (careful written)⟩

theorem new_guarded {machine : Machine} {space : AddressSpace}
    (made : AddressSpace.new machine name = (.ok space, next)) : (State.mk space next).Guarded := by
  unfold AddressSpace.new at made
  split at made
  · cases made
  cases made
  refine ⟨nofun, ?_⟩
  intro slot leaf low found
  simp only [if_pos low] at found
  cases found

/-- Every present entry of the lower half is in a region that permits what it permits, and none is
writable and executable. -/
def TableWithinRegions (state : State) : Prop :=
  ∀ slot leaf, slot < lowerSlots → state.space.leaves slot = some leaf →
    ∃ region ∈ state.space.regions.regions, slot ∈ region.range ∧ region.protection ≠ .none ∧
      (leaf.flags.writable = true → region.protection.writable = true) ∧
      (leaf.flags.noExecute = false → region.protection.executable = true) ∧
      ¬ (leaf.flags.writable = true ∧ leaf.flags.noExecute = false)

/-- The page table never permits what the region map refuses, whatever the rest of the kernel does
meanwhile. -/
theorem table_within_regions {machine next : Machine} {name : Nat} {space : AddressSpace}
    {state : State} (made : AddressSpace.new machine name = (.ok space, next))
    (reached : Reaches Careful (fun _ _ => True) ⟨space, next⟩ state) :
    state.TableWithinRegions := by
  have guarded : state.Guarded := by
    induction reached with
    | start => exact new_guarded made
    | step operation _ careful induction => exact perform_guarded induction operation careful
    | elsewhere machine _ _ induction => exact ⟨induction.low, induction.permits⟩
  intro slot leaf low found
  obtain ⟨policy, covered, present, writable, executable⟩ :=
    guarded.permits slot leaf low found
  obtain ⟨region, located, rfl⟩ := Option.map_eq_some_iff.mp covered
  refine ⟨region, RangeMap.find_mem located, RangeMap.mem_find located, ?_, writable, executable,
    ?_⟩
  · intro none
    rw [none] at present
    cases present
  · rintro ⟨writes, executes⟩
    have clash := Protection.not_writable_of_executable (executable executes)
    rw [writable writes] at clash
    cases clash

end State

def Machine.counting : Machine :=
  { answers := some
    clock := 0
    log := []
    contents := fun _ => Page.zero
    budgets := fun _ => { charged := 0, cap := 16, occupied := true }
    template := fun _ => none }

def State.fresh : State :=
  { space :=
      { name := 0
        root := 0
        regions := .new
        tables := []
        leaves := fun slot => if slot < lowerSlots then none else none
        owner := none
        charged := 0
        scratchOnRevoke := false }
    machine := { Machine.counting.tick with log := [.took (.table 0) 0] } }

def onePage : VirtRange :=
  ⟨16, 1, by decide, by decide⟩

namespace State

theorem new_counting : AddressSpace.new Machine.counting 0 = (.ok fresh.space, fresh.machine) :=
  rfl

theorem table_within_regions_one :
    ((Operation.mapAnonymous onePage .readWrite).perform fresh).translate 16 ≠ none ∧
      ((Operation.mapAnonymous onePage .readWrite).perform fresh).TableWithinRegions :=
  ⟨by decide, table_within_regions new_counting
    (.step _ .start (show Lower onePage from by decide))⟩

/-- A page that has a frame keeps its entry when its region becomes inaccessible. -/
theorem not_table_within_regions : ¬ ∀ operations : List Operation,
      (operations.foldl (fun state operation => operation.perform state)
        fresh).TableWithinRegions := by
  intro always
  have within := always [.mapAnonymous onePage .readWrite, .protect (16 * pageSize) 1 .none]
  have entry : ([Operation.mapAnonymous onePage .readWrite,
      .protect (16 * pageSize) 1 .none].foldl (fun state operation => operation.perform state)
        fresh).space.leaves 16 = some ⟨2, entryFlags .none 16⟩ := by decide
  have regions : ([Operation.mapAnonymous onePage .readWrite,
      .protect (16 * pageSize) 1 .none].foldl (fun state operation => operation.perform state)
        fresh).space.regions.regions = [.new onePage .none .anonymous] := by decide
  obtain ⟨region, member, _, accessible, _⟩ := within 16 _ (by decide) entry
  rw [regions, List.mem_singleton] at member
  subst member
  exact accessible rfl

end State

end Bhaskix.Vm
