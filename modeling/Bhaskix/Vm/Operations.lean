import Bhaskix.Vm.Effect

/-!
What each operation can do to a space, said once: it refuses and leaves things as they were, or it
makes one of a few moves on the region map, the entries and the envelope. What an operation keeps
is read off its move.
-/

namespace Bhaskix.Vm

open Library Mm
open RangeMap (remove_of_mem policyAt_remove mem_remove policyAt_of_mem find_mem mem_insert)

namespace State

variable {state before after next : State}

/-- No frame changed hands except to become a table. An entry may be gone if nobody had its frame.
-/
structure Still (before after : State) : Prop where
  leaves : ∀ slot, after.space.leaves slot = before.space.leaves slot ∨
    after.space.leaves slot = none ∧
      ∃ leaf, before.space.leaves slot = some leaf ∧ before.holder leaf.frame = none
  held : ∀ frame, after.holder frame = before.holder frame ∨
    before.holder frame = none ∧ after.holder frame = some (.table before.space.name)
  contents : ∀ frame, before.holder frame ≠ none →
    after.machine.contents frame = before.machine.contents frame
  lawful : before.Lawful → after.Lawful
  tabled : before.Tabled → after.Tabled

structure Idle (before after : State) : Prop where
  still : Still before after
  record : after.record = before.record
  budgets : after.machine.budgets = before.machine.budgets

variable {flags : Nat → EntryFlags} {pages : List Nat} {frames page : Nat} {region : VmRegion}
  {range : VirtRange} {protection : Protection}

theorem Filled.still (filled : Filled [] flags before after) : Still before after where
  leaves := fun slot => .inl (filled.outside slot List.not_mem_nil)
  held := by
    intro frame
    rcases filled.held frame with same | ⟨free, table | ⟨_, slot, member, _⟩⟩
    · exact .inl same
    · exact .inr ⟨free, table⟩
    · cases member
  contents := filled.contents
  lawful := filled.lawful
  tabled := filled.tabled

theorem Filled.idle (filled : Filled [] flags before after) : Idle before after :=
  ⟨filled.still, filled.record, filled.budgets⟩

theorem Supplied.still (supplied : Supplied before after) : Still before after where
  leaves := fun slot => .inl (by rw [supplied.leaves])
  held := supplied.held
  contents := fun frame _ => by rw [supplied.contents]
  lawful := supplied.lawful
  tabled := supplied.tabled

theorem Supplied.idle (supplied : Supplied before after) : Idle before after :=
  ⟨supplied.still, supplied.record, supplied.budgets⟩

theorem Idle.refl (state : State) : Idle state state :=
  (Supplied.refl state).idle

theorem Filled.owns (filled : Filled pages flags before after) : after.Owns pages where
  held := by
    intro slot member leaf found
    rw [filled.name]
    exact (filled.entry member found).2.2
  distinct := filled.distinct

theorem Dropped.tabled (dropped : Dropped pages frames before after) (owns : before.Owns pages)
    (tabled : before.Tabled) : after.Tabled := by
  have name : after.space.name = before.space.name := congrArg Record.name dropped.record
  have root : after.space.root = before.space.root := congrArg Record.root dropped.record
  have kept : ∀ frame, before.holder frame = some (.table before.space.name) →
      after.holder frame = some (.table before.space.name) := by
    intro frame had
    rw [dropped.kept frame, had]
    rintro ⟨slot, member, leaf, found, rfl⟩
    rw [owns.held slot member leaf found] at had
    cases had
  unfold Tabled
  rw [name, root, dropped.tables]
  exact ⟨kept _ tabled.root, fun table member => kept _ (tabled.held table member),
    tabled.distinct, tabled.lower⟩

theorem Filled.undo
    (filled : Filled pages flags before after) (dropped : Dropped pages frames after next) :
    Still before next where
  leaves := by
    intro slot
    by_cases member : slot ∈ pages
    · obtain ⟨leaf, _, was, free, _⟩ := filled.inside slot member
      rw [dropped.inside slot member]
      rcases was with vacant | same
      · exact .inl vacant.1.symm
      · exact .inr ⟨rfl, leaf, same, free⟩
    · exact .inl ((dropped.outside slot member).trans (filled.outside slot member))
  held := by
    intro frame
    by_cases named : after.Names pages frame
    · obtain ⟨slot, member, leaf, found, names⟩ := named
      obtain ⟨_, entry, _, free, _⟩ := filled.inside slot member
      cases entry.symm.trans found
      exact .inl ((dropped.given frame ⟨slot, member, leaf, found, names⟩).trans
        (names ▸ free.symm))
    · rw [dropped.kept frame named]
      rcases filled.held frame with same | ⟨free, table | ⟨_, entry⟩⟩
      · exact .inl same
      · exact .inr ⟨free, table⟩
      · exact absurd entry named
  contents := fun frame had => by rw [dropped.contents, filled.contents frame had]
  lawful := fun lawful => dropped.lawful filled.owns (filled.lawful lawful)
  tabled := fun tabled => dropped.tabled filled.owns (filled.tabled tabled)

theorem insertRegion_spec (state : State) (region : VmRegion) :
    (∃ error after, state.insertRegion region = (.error error, after) ∧ Supplied state after) ∨
    ∃ regions, state.space.regions.insert region true = .ok regions ∧ state.insertRegion region =
        (.ok (), (state.setRegions regions).setMachine state.machine.tick) := by
  unfold insertRegion
  simp only [reserve, Machine.reserve]
  split
  · exact .inl ⟨_, _, rfl, supplied_tick state⟩
  · next regions inserted =>
      exact .inr ⟨regions, (RangeMap.insert_eq_ok inserted).1 ▸ inserted, rfl⟩

theorem removeRegion_insert (inserted : state.space.regions.insert region true = .ok regions)
    (extent : region.range = range) (same : after.space.regions = regions) :
    after.removeRegion range.start = after.setRegions state.space.regions := by
  unfold removeRegion
  rw [same, ← extent, RangeMap.remove_insert inserted]

def Covers (region : VmRegion) (before after : State) : Prop :=
  ∃ regions, before.space.regions.insert region true = .ok regions ∧
    Supplied (before.setRegions regions) after

/-- An anonymous region has been added with a frame for every page, and charged for. -/
def Fills (range : VirtRange) (protection : Protection) (before after : State) : Prop :=
  protection.present = true ∧
    ∃ regions, before.space.regions.insert (.new range protection .anonymous) true = .ok regions ∧
      Filled range.pagesIter (entryFlags protection) ((before.setRegions regions).paid range.pages)
        after

theorem mapAnonymousLazy_spec (state : State) (range : VirtRange) (protection : Protection) :
    (∃ error after, state.mapAnonymousLazy range protection = (.error error, after) ∧
      Idle state after) ∨ ∃ after, state.mapAnonymousLazy range protection = (.ok (), after) ∧
      Covers (.new range protection .anonymous) state after := by
  rcases insertRegion_spec state (.new range protection .anonymous) with
    ⟨error, after, done, supplied⟩ | ⟨regions, inserted, done⟩
  · exact .inl ⟨error, after, done, supplied.idle⟩
  · exact .inr ⟨_, done, regions, inserted, supplied_tick (state.setRegions regions)⟩

theorem present_of_filled
    (filled : Filled pages flags before after) : after.present pages = pages := by
  rw [present, List.filter_eq_self]
  intro page member
  obtain ⟨leaf, found, _⟩ := filled.inside page member
  rw [found]
  rfl

theorem rollBack_idle (low : Lower range)
    (inserted : state.space.regions.insert (.new range protection .anonymous) true = .ok regions)
    (fewer : count < range.pages)
    (filled : Filled (range.pagesIter.take count) (entryFlags protection)
      ((state.setRegions regions).paid range.pages) after) :
    Idle state (((after.unmapPages range count).2.release
      (range.pages - (after.unmapPages range count).1)).removeRegion range.start) := by
  obtain ⟨freed, dropped⟩ := unmapPages_spec low count after
  rw [present_of_filled filled, List.length_take, VirtRange.pagesIter, List.length_range'] at freed
  have whole := dropped.release (range.pages - (after.unmapPages range count).1)
  rw [Nat.add_sub_cancel' (by omega)] at whole
  generalize State.release _ _ = undone at whole ⊢
  have kept : undone.space.regions = regions := whole.regions_eq.trans filled.regions_eq
  have owner : after.space.owner = state.space.owner := congrArg Record.owner filled.record
  have charged : after.space.charged = state.space.charged + range.pages :=
    congrArg Record.charged filled.record
  rw [removeRegion_insert inserted (VmRegion.range_new _ _ _) kept]
  have still := filled.undo whole
  refine ⟨{ still with }, ?_, ?_⟩
  · have restored : undone.record = { state.record with regions := regions } := by
      rw [whole.record, filled.record, charged, Nat.add_sub_cancel]
      rfl
    have put := congrArg (fun record : Record => { record with regions := state.space.regions })
      restored
    exact put
  · change undone.machine.budgets = _
    rw [whole.budgets, filled.budgets, owner]
    exact payBack_payFor _ _ _

theorem mapAnonymous_spec (low : Lower range) (protection : Protection) (state : State) :
    (∃ error after, state.mapAnonymous range protection = (.error error, after) ∧
      Idle state after) ∨ (∃ after, state.mapAnonymous range protection = (.ok (), after) ∧
      protection.present = false ∧ Covers (.new range protection .anonymous) state after) ∨
    ∃ after, state.mapAnonymous range protection = (.ok (), after) ∧
      Fills range protection state after := by
  unfold mapAnonymous
  rcases insertRegion_spec state (.new range protection .anonymous) with
    ⟨error, after, done, supplied⟩ | ⟨regions, inserted, done⟩
  · rw [done]
    exact .inl ⟨error, after, rfl, supplied.idle⟩
  rw [done]
  simp only
  let covered := state.setRegions regions
  let ticked := covered.setMachine state.machine.tick
  by_cases guard : protection.present = true
  · rw [if_neg (by simp [guard])]
    have removed : ∀ {last : State}, last.space.regions = regions →
        last.removeRegion range.start = last.setRegions state.space.regions :=
      fun same => removeRegion_insert inserted (VmRegion.range_new _ _ _) same
    cases paid : ticked.charge range.pages with
    | error error =>
      refine .inl ⟨_, _, rfl, ?_⟩
      rw [removed rfl]
      exact (supplied_tick state).idle
    | ok charged =>
      obtain rfl := charge_eq_ok paid
      simp only
      rcases mapFreshEach_spec low protection (ticked.paid range.pages) with
        ⟨after, mapped, filled⟩ | ⟨error, count, after, mapped, fewer, filled⟩
      · rw [mapped]
        exact .inr (.inr ⟨after, rfl, guard, regions, inserted,
          (supplied_tick (covered.paid range.pages)).filled.trans filled nofun⟩)
      · rw [mapped]
        have filled' := (supplied_tick (covered.paid range.pages)).filled.trans filled nofun
        exact .inl ⟨error, _, rfl, rollBack_idle low inserted fewer filled'⟩
  · rw [if_pos (by simp [guard])]
    exact .inr (.inl ⟨_, rfl, by simpa using guard, regions, inserted, supplied_tick covered⟩)

def Lends (region : VmRegion) (frames : Nat → Nat) (flags : Nat → EntryFlags)
    (before after : State) : Prop :=
  ∃ regions, before.space.regions.insert region true = .ok regions ∧
    Named (fun slot => frames (slot - region.range.first)) flags region.range.pagesIter
      (before.setRegions regions) after

/-- A mapping of given frames stopped after its first page: the loop that enters the pages, from
the state it starts in. -/
def Partway (range : VirtRange) (frames : Nat → Nat) (flags : Nat → EntryFlags)
    (state : State) : Prop :=
  ∃ error count last, 0 < count ∧
    mapEach (mapGiven frames flags) 0 range.pagesIter state = (.error (error, count), last)

/-- Such a mapping has been undone: the entries it made are gone, and so are the frames. -/
structure RolledBack (before after : State) : Prop where
  record : after.record = { before.record with charged := after.space.charged }
  leaves : ∀ slot, after.space.leaves slot = before.space.leaves slot ∨
    after.space.leaves slot = none

theorem mapOver_spec (region : VmRegion) (low : Lower region.range) (frames : Nat → Nat)
    (flags : Nat → EntryFlags) (state : State) :
    (∃ error after, state.mapOver region frames flags = (.error error, after) ∧ Idle state after) ∨
    (∃ after, state.mapOver region frames flags = (.ok (), after) ∧
      Lends region frames flags state after) ∨
    ∃ error after, state.mapOver region frames flags = (.error error, after) ∧
      (∃ regions, state.space.regions.insert region true = .ok regions ∧
        Partway region.range frames flags
          ((state.setRegions regions).setMachine state.machine.tick)) ∧ RolledBack state after := by
  unfold mapOver
  rcases insertRegion_spec state region with
    ⟨error, after, done, supplied⟩ | ⟨regions, inserted, done⟩
  · rw [done]
    exact .inl ⟨error, after, rfl, supplied.idle⟩
  rw [done]
  simp only
  let covered := state.setRegions regions
  let ticked := covered.setMachine state.machine.tick
  rcases mapGivenEach_spec low frames flags ticked with
    ⟨after, mapped, named⟩ | ⟨error, count, after, mapped, named⟩
  · rw [mapped]
    exact .inr (.inl ⟨after, rfl, regions, inserted,
      (supplied_tick covered).named.trans named nofun⟩)
  rw [mapped]
  obtain ⟨freed, dropped⟩ := unmapPages_spec low count after
  simp only
  generalize after.unmapPages region.range count = undone at freed dropped ⊢
  have kept : undone.2.space.regions = regions := dropped.regions_eq.trans named.regions_eq
  rw [removeRegion_insert inserted rfl kept]
  have restored : (undone.2.setRegions state.space.regions).record =
      { state.record with charged := state.space.charged - undone.1 } := by
    have charged : after.space.charged = state.space.charged :=
      congrArg Record.charged named.record
    have put := congrArg
      (fun record : Record => { record with regions := state.space.regions }) dropped.record
    rw [named.record, charged] at put
    exact put
  rcases Nat.eq_zero_or_pos count with rfl | some
  · -- Nothing was mapped, so nothing is undone.
    refine .inl ⟨error, _, rfl, ⟨?_, ?_, ?_, ?_, ?_⟩, ?_, ?_⟩
    · intro slot
      exact .inl ((dropped.outside slot List.not_mem_nil).trans
        (named.outside slot List.not_mem_nil))
    · intro frame
      have same := dropped.kept frame nofun
      exact (named.held frame).imp (fun held => same.trans held)
        fun ⟨free, table⟩ => ⟨free, same.trans table⟩
    · intro frame _
      exact congrFun (dropped.contents.trans named.contents) frame
    · exact fun lawful => dropped.lawful ⟨nofun, nofun⟩ (named.lawful lawful)
    · exact fun tabled => dropped.tabled ⟨nofun, nofun⟩ (named.tabled tabled)
    · rw [restored, freed]
      rfl
    · have budgets := dropped.budgets
      rw [freed, named.budgets] at budgets
      exact budgets.trans (payBack_zero _ _)
  · refine .inr (.inr ⟨error, _, rfl, ⟨regions, inserted, error, count, after, some, mapped⟩,
      ?_, ?_⟩)
    · have charged : (undone.2.setRegions state.space.regions).space.charged =
          state.space.charged - undone.1 := congrArg Record.charged restored
      rw [charged]
      exact restored
    · intro slot
      by_cases member : slot ∈ region.range.pagesIter.take count
      · exact .inr (dropped.inside slot member)
      · exact .inl ((dropped.outside slot member).trans (named.outside slot member))

/-- The pages of a range are no longer covered; what covers the others lies inside what did. -/
structure Cut (range : VirtRange) (map next : RangeMap) : Prop where
  policy : ∀ page, next.policyAt page = if page ∈ range then none else map.policyAt page
  within : ∀ held ∈ next.regions, ∃ whole ∈ map.regions,
    whole.range.first ≤ held.range.first ∧ held.range.stop ≤ whole.range.stop ∧
      held.backing = whole.backing

def Freeable (policy : Policy) : Prop :=
  policy.backing = .anonymous ∧ policy.protection.present = true

def Unmaps (range : VirtRange) (before after : State) : Prop :=
  (∀ page ∈ range, ∃ policy, before.space.regions.policyAt page = some policy ∧
    Freeable policy) ∧
  ∃ regions, Cut range before.space.regions regions ∧
    Dropped range.pagesIter (before.present range.pagesIter).length (before.setRegions regions)
      after

/-- Pages of other memory are gone from the region map, and their entries are not. -/
def Uncovers (range : VirtRange) (before after : State) : Prop :=
  (∀ page ∈ range, ∃ policy, before.space.regions.policyAt page = some policy ∧
    ¬ Freeable policy) ∧
  ∃ regions, Cut range before.space.regions regions ∧
    Supplied (before.setRegions regions) after

def Low (state : State) : Prop :=
  ∀ region ∈ state.space.regions.regions, Lower region.range

theorem unmap_spec (member : region ∈ state.space.regions.regions) (low : Lower region.range) :
    ∃ after, state.unmap region.range.start = (.ok (), after) ∧
      (Unmaps region.range state after ∨ Uncovers region.range state after) := by
  obtain ⟨regions, removed⟩ := remove_of_mem member
  have cut : Cut region.range state.space.regions regions := by
    refine ⟨policyAt_remove removed, fun held kept => ?_⟩
    exact ⟨held, ((mem_remove removed held).mp kept).2, le_refl _, le_refl _, rfl⟩
  have policy : ∀ page ∈ region.range,
      state.space.regions.policyAt page = some region.toPolicy := fun page inside =>
    policyAt_of_mem member inside
  unfold unmap
  rw [removed]
  simp only
  split
  · next freeable =>
      obtain ⟨freed, dropped⟩ := unmapPages_spec low region.range.pages (state.setRegions regions)
      have all : region.range.pagesIter.take region.range.pages = region.range.pagesIter :=
        List.take_of_length_le (by rw [VirtRange.pagesIter, List.length_range'])
      rw [all] at freed dropped
      rw [freed] at dropped
      exact ⟨_, rfl, .inl ⟨fun page inside => ⟨_, policy page inside, freeable⟩, regions, cut,
        dropped⟩⟩
  · next other =>
      exact ⟨_, rfl, .inr ⟨fun page inside => ⟨_, policy page inside, other⟩, regions, cut,
        Supplied.refl _⟩⟩

theorem unmap_cases (low : state.Low) (start : Nat) : (state.unmap start).2 = state ∨
    ∃ region ∈ state.space.regions.regions, region.range.start = start ∧
      (Unmaps region.range state (state.unmap start).2 ∨
        Uncovers region.range state (state.unmap start).2) := by
  cases removed : state.space.regions.remove start with
  | error error =>
    rw [unmap, removed]
    exact .inl rfl
  | ok taken =>
    obtain ⟨region, regions⟩ := taken
    obtain ⟨member, starts⟩ := RangeMap.remove_found removed
    obtain ⟨after, done, moved⟩ := unmap_spec member (low region member)
    rw [starts] at done
    rw [done]
    exact .inr ⟨region, member, starts, moved⟩

theorem present_translate (low : Lower range) (state : State) :
    (range.pagesIter.filter fun page => (state.translate page).isSome) =
      state.present range.pagesIter :=
  List.filter_congr fun page member => by
    rw [translate, slotOf_lower (low.page member), Option.isSome_map]

theorem unmapWhole_spec (member : region ∈ state.space.regions.regions)
    (low : Lower region.range) (pages : List Nat) :
    ∃ after, state.unmapWhole region.range.start pages = (.ok pages, after) ∧
      (Unmaps region.range state after ∨ Uncovers region.range state after) := by
  obtain ⟨after, done, moved⟩ := unmap_spec member low
  refine ⟨after, ?_, moved⟩
  rw [unmapWhole, done]

theorem policyAt_split {next : RangeMap}
    (cut : RangeMap.Reprotected map next range region.protection region) (page : Nat) :
    next.policyAt page = map.policyAt page := by
  rw [cut.policyAt page]
  split
  · next inside => exact (cut.policyAt_of_wanted inside).symm
  · rfl

theorem Cut.split {next : RangeMap} (cut : Cut range middle next)
    (split : RangeMap.Reprotected map middle range region.protection region) :
    Cut range map next where
  policy := fun page => by rw [cut.policy, policyAt_split split]
  within := by
    intro held member
    obtain ⟨piece, piece_mem, low, high, backing⟩ := cut.within held member
    obtain ⟨whole, whole_mem, low', high', backing', _⟩ := split.within piece_mem
    exact ⟨whole, whole_mem, le_trans low' low, le_trans high high', backing.trans backing'⟩

theorem unmapRange_spec (low : state.Low) (start pages : Nat) :
    (∃ error after, state.unmapRange start pages = (.error error, after) ∧ Idle state after) ∨
    ∃ range after, VirtRange.fromPages start pages = some range ∧ Lower range ∧
      state.unmapRange start pages = (.ok (state.present range.pagesIter), after) ∧
      (Unmaps range state after ∨ Uncovers range state after) := by
  unfold unmapRange
  split
  · exact .inl ⟨_, _, rfl, Idle.refl state⟩
  next range asked =>
  have starts := (VirtRange.fromPages_eq_some.mp asked).1
  split
  · exact .inl ⟨_, _, rfl, Idle.refl state⟩
  next region found =>
  split
  · exact .inl ⟨_, _, rfl, Idle.refl state⟩
  next inside =>
  have member := find_mem found
  have lower : Lower range := le_trans (Nat.le_of_not_lt inside) (low region member)
  simp only [present_translate lower]
  split
  · next whole =>
      subst whole
      obtain ⟨after, done, moved⟩ := unmapWhole_spec member lower
        (state.present region.range.pagesIter)
      rw [starts] at done
      exact .inr ⟨region.range, after, asked, lower, done, moved⟩
  simp only [reserve, Machine.reserve]
  rcases (state.setMachine state.machine.tick).space.regions.reprotect_cases start pages
    region.protection
    (state.machine.answers state.machine.clock).isSome with
    ⟨error, refused, _⟩ | ⟨range', regions, region', asked', changed, split, _⟩
  · rw [refused]
    exact .inl ⟨_, _, rfl, (supplied_tick state).idle⟩
  cases asked.symm.trans asked'
  cases found.symm.trans split.found
  rw [changed]
  change RangeMap.Reprotected state.space.regions regions range region.protection region at split
  let split' := (state.setMachine state.machine.tick).setRegions regions
  have middle : { region with range := range } ∈ split'.space.regions.regions :=
    (split.members _).mpr (.inr (.inr (.inl rfl)))
  obtain ⟨after, done, moved⟩ := unmapWhole_spec middle lower (state.present range.pagesIter)
  rw [starts] at done
  refine .inr ⟨range, after, asked, lower, done, ?_⟩
  rcases moved with ⟨policy, rest, cut, dropped⟩ | ⟨policy, rest, cut, supplied⟩
  · refine .inl ⟨?_, rest, cut.split split, dropped.record, dropped.budgets,
      dropped.contents, dropped.tables, dropped.inside, dropped.outside,
      dropped.given, dropped.kept,
      fun owns => dropped.lawful ⟨owns.held, owns.distinct⟩⟩
    intro page within
    rw [← policyAt_split split]
    exact policy page within
  · refine .inr ⟨?_, rest, cut.split split, ?_⟩
    · intro page within
      rw [← policyAt_split split]
      exact policy page within
    · exact (supplied_tick (state.setRegions rest)).trans supplied

def Discards (before after : State) : Prop :=
  ∃ pages : List Nat, pages.Nodup ∧
    (∀ page ∈ pages, page < lowerSlots ∧ ∃ policy,
      before.space.regions.policyAt page = some policy ∧ policy.backing = .anonymous) ∧
    Dropped pages (before.present pages).length before after

theorem lower_of_find (low : state.Low)
    (found : state.space.regions.find page = some region) : page < lowerSlots :=
  lt_of_lt_of_le (RangeMap.mem_find found).2 (low region (find_mem found))

theorem discard_spec (low : state.Low) (start pages : Nat) :
    Idle state (state.discard start pages).2 ∨ Discards state (state.discard start pages).2 := by
  unfold discard
  split
  · exact .inl (Idle.refl state)
  next range _ =>
  split
  · exact .inl (Idle.refl state)
  refine .inr ?_
  simp only
  have nodup := (nodup_pagesIter range).filter fun page =>
    (state.space.regions.find page).any (fun region => region.backing = .anonymous) &&
      (state.translate page).isSome
  have anonymous : ∀ page ∈ range.pagesIter.filter (fun page =>
      (state.space.regions.find page).any (fun region => region.backing = .anonymous) &&
        (state.translate page).isSome),
      page < lowerSlots ∧ ∃ policy, state.space.regions.policyAt page = some policy ∧
        policy.backing = .anonymous := by
    intro page member
    have kept := (List.mem_filter.mp member).2
    cases found : state.space.regions.find page with
    | none => simp [found] at kept
    | some region =>
      rw [found, Option.any_some, Bool.and_eq_true] at kept
      refine ⟨lower_of_find low found, region.toPolicy, ?_, of_decide_eq_true kept.1⟩
      rw [RangeMap.policyAt, found, Option.map_some]
  exact ⟨_, nodup, anonymous,
    unmapOneByOne_spec (fun page member => (anonymous page member).1) nodup state⟩

def Reprotects (range : VirtRange) (protection : Protection) (before after : State) : Prop :=
  ∃ region regions,
    RangeMap.Reprotected before.space.regions regions range protection region ∧
    Reflagged (entryFlags protection) range.pagesIter (before.setRegions regions) after

theorem protect_spec (low : state.Low) (start pages : Nat) (protection : Protection) :
    Idle state (state.protect start pages protection).2 ∨
    ∃ range, VirtRange.fromPages start pages = some range ∧ Lower range ∧
      Reprotects range protection state (state.protect start pages protection).2 := by
  unfold protect
  simp only [reserve, Machine.reserve]
  rcases (state.setMachine state.machine.tick).space.regions.reprotect_cases start pages protection
    (state.machine.answers state.machine.clock).isSome with
    ⟨error, refused, _⟩ | ⟨range, regions, region, asked, changed, cut, _⟩
  · rw [refused]
    exact .inl (supplied_tick state).idle
  rw [changed]
  have lower : Lower range := le_trans cut.inside.2 (low region (find_mem cut.found))
  have flagged := protectEach_spec (entryFlags protection) (fun page => lower.page)
    (nodup_pagesIter range) ((state.setMachine state.machine.tick).setRegions regions)
  exact .inr ⟨range, asked, lower, region, regions, cut, flagged.record, flagged.budgets,
    flagged.contents, flagged.log, flagged.tables, flagged.inside, flagged.outside⟩

theorem replaceUntouched_spec (low : state.Low) (start pages : Nat) (protection : Protection) :
    Idle state (state.replaceUntouched start pages protection).2 ∨
    ∃ range, Lower range ∧ (∀ page ∈ range, state.space.leaves page = none) ∧
      Reprotects range protection state (state.replaceUntouched start pages protection).2 := by
  unfold replaceUntouched
  split
  · exact .inl (Idle.refl state)
  next range asked =>
  simp only
  split
  · exact .inl (Idle.refl state)
  next passed =>
  rcases protect_spec low start pages protection with idle | ⟨range', asked', lower, moved⟩
  · exact .inl idle
  cases asked.symm.trans asked'
  refine .inr ⟨range, lower, ?_, moved⟩
  intro page inside
  have member := VirtRange.mem_pagesIter.mpr inside
  simp only [Bool.or_eq_true, not_or, List.any_eq_true, not_exists, not_and] at passed
  have bare := passed.2 page member
  rw [translate, slotOf_lower (lower.page member), Option.isSome_map] at bare
  simpa using bare

def marked (policy : Policy) : Policy :=
  { policy with flags := { policy.flags with copyOnWrite := true } }

def Marks (region : VmRegion) (before after : State) : Prop :=
  region ∈ before.space.regions.regions ∧
    ∃ regions page, (∀ page, regions.policyAt page =
        if page ∈ region.range then some (marked region.toPolicy)
        else before.space.regions.policyAt page) ∧
      (∀ held ∈ regions.regions, ∃ whole ∈ before.space.regions.regions,
        held.range = whole.range ∧ held.backing = whole.backing) ∧
      Reflagged (fun _ => entryFlags .readOnly page) region.range.pagesIter
        (before.setRegions regions) after

theorem makeCopyOnWrite_spec (low : state.Low) (start : Nat) :
    Idle state (state.makeCopyOnWrite start).2 ∨
    ∃ region, Marks region state (state.makeCopyOnWrite start).2 := by
  unfold makeCopyOnWrite
  split
  · exact .inl (Idle.refl state)
  next region found =>
  have member := find_mem found
  have flagged := protectEach_spec (fun _ => entryFlags .readOnly (start / pageSize))
    (fun page => (low region member).page) (nodup_pagesIter region.range) state
  have same : (protectEach (fun _ => entryFlags .readOnly (start / pageSize))
      region.range.pagesIter state).space.regions = state.space.regions := flagged.regions_eq
  obtain ⟨rest, removed⟩ := remove_of_mem member
  obtain ⟨regions, inserted⟩ := RangeMap.insert_of_apart
    { region with flags := { region.flags with copyOnWrite := true } }
    (RangeMap.apart_of_removed removed le_rfl le_rfl)
  refine .inr ⟨region, member, regions, start / pageSize, ?_, ?_, ?_⟩
  · intro page
    rw [RangeMap.policyAt_insert inserted, policyAt_remove removed]
    split
    · rfl
    · next outside => rfl
  · intro held kept
    rcases (mem_insert inserted held).mp kept with rfl | kept
    · exact ⟨region, member, rfl, rfl⟩
    · exact ⟨held, ((mem_remove removed held).mp kept).2, rfl, rfl⟩
  · simp only [same, removed, inserted]
    refine { flagged with record := ?_ }
    exact congrArg (fun record : Record => { record with regions }) flagged.record

theorem Idle.refunded (idle : Idle (before.paid frames) after) :
    Idle before (after.release frames) := by
  have released := dropped_release after frames
  have owner : after.space.owner = before.space.owner := congrArg Record.owner idle.record
  have charged : after.space.charged = before.space.charged + frames :=
    congrArg Record.charged idle.record
  refine ⟨⟨?_, ?_, ?_, ?_, ?_⟩, ?_, ?_⟩
  · exact idle.still.leaves
  · intro frame
    rw [released.kept frame nofun]
    exact idle.still.held frame
  · intro frame had
    rw [released.contents]
    exact idle.still.contents frame had
  · exact fun lawful => released.lawful ⟨nofun, nofun⟩ (idle.still.lawful lawful)
  · exact fun tabled => released.tabled ⟨nofun, nofun⟩ (idle.still.tabled tabled)
  · rw [released.record, idle.record, charged, Nat.add_sub_cancel]
    rfl
  · rw [released.budgets, idle.budgets, owner]
    exact payBack_payFor _ _ _

def Faults (page : Nat) (before after : State) : Prop :=
  page < lowerSlots ∧ before.space.leaves page = none ∧
    ∃ policy, before.space.regions.policyAt page = some policy ∧
      policy.protection.present = true ∧ (∀ object, policy.backing ≠ .shared object) ∧
      Filled [page] (entryFlags policy.protection) (before.paid 1) after

/-- A page of a copy-on-write region has been given a frame of its own, or has lost the one it
had. -/
def Copies (page : Nat) (before after : State) : Prop :=
  page < lowerSlots ∧
    ∃ policy leaf, before.space.regions.policyAt page = some policy ∧
      policy.flags.copyOnWrite = true ∧ before.space.leaves page = some leaf ∧
      (Filled [page] (entryFlags .readWrite) ((before.paid 1).setLeaf page none) after ∨
        Idle (before.setLeaf page none) after)

theorem Took.setLeaf (took : Took frame before after) (slot : Nat)
    (leaf : Option Leaf) : Took frame (before.setLeaf slot leaf) (after.setLeaf slot leaf) where
  space := by
    rw [State.setLeaf, State.setLeaf, took.space]
  budgets := took.budgets
  free := took.free
  log := took.log
  contents := took.contents

section

variable {fresh : Nat} (low : page < lowerSlots) (took : Took fresh (before.paid 1) state)
include low took

theorem demandPage_spec :
    Idle before (state.demandPage page fresh protection true).2 ∨
    Filled [page] (entryFlags protection) (before.paid 1)
      (state.demandPage page fresh protection true).2 := by
  have zeroed := took.fill Page.zero
  unfold demandPage
  rcases mapPage_spec (state.fill fresh Page.zero) fresh (entryFlags protection page) low with
    ⟨error, after, mapped, supplied⟩ | ⟨walked, leaf, supplied, names, was, mapped⟩
  · rw [mapped]
    have back : Filled [] (entryFlags protection) (before.paid 1) (after.freePage fresh) :=
      zeroed.giveBack supplied
    exact .inl back.idle.refunded
  · rw [mapped]
    rw [zeroed.space] at was
    exact .inr (zeroed.entered supplied names was)

theorem copyPage_spec (entry : before.space.leaves page = some leaf) :
    Filled [page] (entryFlags .readWrite) ((before.paid 1).setLeaf page none)
      (state.copyPage page old fresh true).2 ∨
    Idle (before.setLeaf page none) (state.copyPage page old fresh true).2 := by
  have copied := took.fill (state.machine.contents old)
  have found : (state.fill fresh (state.machine.contents old)).space.leaves page = some leaf := by
    rw [copied.space]
    exact entry
  have emptied := copied.setLeaf page none
  unfold copyPage
  simp only [unmapPage, slotOf_lower low, found]
  rcases mapPage_spec ((state.fill fresh (state.machine.contents old)).setLeaf page none) fresh
    (entryFlags .readWrite page) low with
    ⟨error, after, mapped, supplied⟩ | ⟨walked, leaf', supplied, names, was, mapped⟩
  · rw [mapped]
    have back : Filled [] (entryFlags .readWrite) ((before.setLeaf page none).paid 1)
        (after.freePage fresh) := emptied.giveBack supplied
    exact .inr back.idle.refunded
  · rw [mapped]
    rw [emptied.space] at was
    exact .inl (emptied.entered supplied names was)

end

theorem supplyPage_spec (low : page < lowerSlots) (write : Bool)
    (covered : state.space.regions.policyAt page = some policy)
    (present : policy.protection.present = true)
    (unshared : ∀ object, policy.backing ≠ .shared object) :
    Idle state (state.supplyPage page policy write).2 ∨
    Faults page state (state.supplyPage page policy write).2 ∨
    write = true ∧ Copies page state (state.supplyPage page policy write).2 := by
  unfold supplyPage
  rw [translate, slotOf_lower low]
  cases entry : state.space.leaves page with
  | none =>
    simp only [Option.map_none, Option.isNone_none, Bool.true_or, if_true]
    cases paid : state.charge 1 with
    | error error => cases error <;> exact .inl (Idle.refl state)
    | ok charged =>
      obtain rfl := charge_eq_ok paid
      simp only
      rcases allocatePage_spec (state.paid 1) with
        ⟨fresh, taken, step, took⟩ | ⟨after, step, supplied⟩
      · rw [step]
        rcases demandPage_spec low took with idle | filled
        · exact .inl idle
        · exact .inr (.inl ⟨low, entry, policy, covered, present, unshared, filled⟩)
      · rw [step]
        exact .inl supplied.idle.refunded
  | some leaf =>
    by_cases copying : (write && policy.flags.copyOnWrite) = true
    · simp only [Option.map_some, copying, Bool.or_true, if_true]
      cases paid : state.charge 1 with
      | error error => cases error <;> exact .inl (Idle.refl state)
      | ok charged =>
        obtain rfl := charge_eq_ok paid
        simp only
        rcases allocatePage_spec (state.paid 1) with
          ⟨fresh, taken, step, took⟩ | ⟨after, step, supplied⟩
        · rw [step]
          rw [Bool.and_eq_true] at copying
          exact .inr (.inr ⟨copying.1, low, policy, leaf, covered, copying.2, entry,
            copyPage_spec low took entry⟩)
        · rw [step]
          exact .inl supplied.idle.refunded
    · simp only [Option.map_some, Option.isNone_some, Bool.eq_false_of_not_eq_true copying,
        Bool.or_false, Bool.false_eq_true, if_false]
      rcases allocatePage_spec state with
        ⟨fresh, taken, step, took⟩ | ⟨after, step, supplied⟩
      · rw [step]
        have back : Filled [] (entryFlags .readWrite) state (taken.freePage fresh) :=
          took.giveBack (Supplied.refl taken)
        exact .inl back.idle
      · rw [step]
        exact .inl supplied.idle

theorem handleFault_spec (low : state.Low) (address : Nat) (write notPresent : Bool) :
    Idle state (state.handleFault address write notPresent).2 ∨
    Faults (address / pageSize) state (state.handleFault address write notPresent).2 ∨
    write = true ∧
      Copies (address / pageSize) state (state.handleFault address write notPresent).2 := by
  unfold handleFault
  split
  · exact .inl (Idle.refl state)
  unfold serviceFault
  simp only
  split
  · exact .inl (Idle.refl state)
  next region found =>
  have covered : state.space.regions.policyAt (address / pageSize) = some region.toPolicy := by
    rw [RangeMap.policyAt, found, Option.map_some]
  split
  · exact .inl (Idle.refl state)
  next allowed =>
  split
  · exact .inl (Idle.refl state)
  split
  · exact .inl (Idle.refl state)
  next unshared =>
    exact supplyPage_spec (lower_of_find low found) write covered (by simpa using allowed) unshared

theorem mapShared_spec (low : Lower range) (object : Nat) (frames : List Nat)
    (protection : Protection) (state : State) :
    (∃ error after, state.mapShared range object frames protection = (.error error, after) ∧
      Idle state after) ∨
    (∃ after, state.mapShared range object frames protection = (.ok (), after) ∧
      protection.executable = false ∧ frames.length = range.pages ∧
      Lends (.new range protection (.shared object)) (fun index => frames.getD index 0)
        (entryFlags protection) state after) ∨
    ∃ error after, state.mapShared range object frames protection = (.error error, after) ∧
      (∃ regions,
        state.space.regions.insert (.new range protection (.shared object)) true = .ok regions ∧
        Partway range (fun index => frames.getD index 0) (entryFlags protection)
          ((state.setRegions regions).setMachine state.machine.tick)) ∧ RolledBack state after := by
  unfold mapShared
  split
  · exact .inl ⟨_, _, rfl, Idle.refl state⟩
  next data =>
  split
  · exact .inl ⟨_, _, rfl, Idle.refl state⟩
  next length =>
  rcases mapOver_spec (.new range protection (.shared object)) low
    (fun index => frames.getD index 0) (entryFlags protection) state with
    idle | ⟨after, done, lends⟩ | rolled
  · exact .inl idle
  · exact .inr (.inl ⟨after, done, by simpa using data, not_not.mp length, lends⟩)
  · exact .inr (.inr rolled)

theorem mapDevice_spec (low : Lower range) (physical : Nat)
    (protection : Protection) (state : State) :
    Idle state (state.mapDevice range physical protection).2 ∨ protection.executable = false ∧
      Lends (.new range protection (.direct physical)) (fun index => physical / pageSize + index)
        (fun _ => deviceFlags protection range) state
        (state.mapDevice range physical protection).2 ∨ (∃ regions,
      state.space.regions.insert (.new range protection (.direct physical)) true = .ok regions ∧
      Partway range (fun index => physical / pageSize + index)
        (fun _ => deviceFlags protection range)
        ((state.setRegions regions).setMachine state.machine.tick)) ∧
      RolledBack state (state.mapDevice range physical protection).2 := by
  unfold mapDevice
  split
  · exact .inl (Idle.refl state)
  next data =>
  split
  · rcases insertRegion_spec state (.new range protection (.direct physical)) with
      ⟨error, after, done, supplied⟩ | ⟨regions, inserted, done⟩
    · rw [done]
      exact .inl supplied.idle
    rw [done]
    simp only
    rw [removeRegion_insert inserted (VmRegion.range_new _ _ _) rfl]
    exact .inl (supplied_tick state).idle
  · rcases mapOver_spec (.new range protection (.direct physical)) low
      (fun index => physical / pageSize + index) (fun _ => deviceFlags protection range)
      state with ⟨error, after, done, idle⟩ | ⟨after, done, lends⟩ |
        ⟨error, after, done, partway, rolled⟩
    · rw [done]
      exact .inl idle
    · rw [done]
      exact .inr (.inl ⟨by simpa using data, lends⟩)
    · rw [done]
      exact .inr (.inr ⟨partway, rolled⟩)

theorem Idle.regions (idle : Idle before after) : after.space.regions = before.space.regions :=
  congrArg Record.regions idle.record

theorem RolledBack.regions (rolled : RolledBack before after) :
    after.space.regions = before.space.regions :=
  congrArg Record.regions rolled.record

theorem Low.insert (low : before.Low) (lower : Lower region.range)
    (inserted : before.space.regions.insert region true = .ok regions)
    (same : after.space.regions = regions) : after.Low := by
  intro held member
  rw [same] at member
  rcases (mem_insert inserted held).mp member with rfl | kept
  · exact lower
  · exact low held kept

theorem Covers.low (covers : Covers region before after) (low : before.Low)
    (lower : Lower region.range) : after.Low := by
  obtain ⟨regions, inserted, supplied⟩ := covers
  exact low.insert lower inserted supplied.regions_eq

theorem Fills.low
    (fills : Fills range protection before after) (low : before.Low) (lower : Lower range) :
    after.Low := by
  obtain ⟨_, regions, inserted, filled⟩ := fills
  exact low.insert lower inserted filled.regions_eq

theorem Lends.low {frames : Nat → Nat}
    (lends : Lends region frames flags before after) (low : before.Low)
    (lower : Lower region.range) : after.Low := by
  obtain ⟨regions, inserted, named⟩ := lends
  exact low.insert lower inserted named.regions_eq

theorem Cut.low (cut : Cut range before.space.regions regions) (low : before.Low)
    (same : after.space.regions = regions) : after.Low := by
  intro held member
  rw [same] at member
  obtain ⟨whole, whole_mem, _, high, _⟩ := cut.within held member
  exact le_trans high (low whole whole_mem)

theorem Unmaps.low (unmaps : Unmaps range before after) (low : before.Low) : after.Low := by
  obtain ⟨_, regions, cut, dropped⟩ := unmaps
  exact cut.low low dropped.regions_eq

theorem Uncovers.low (uncovers : Uncovers range before after) (low : before.Low) : after.Low := by
  obtain ⟨_, regions, cut, supplied⟩ := uncovers
  exact cut.low low supplied.regions_eq

theorem Discards.regions (discards : Discards before after) :
    after.space.regions = before.space.regions := by
  obtain ⟨_, _, _, dropped⟩ := discards
  exact dropped.regions_eq

theorem Reprotects.low
    (moved : Reprotects range protection before after) (low : before.Low) : after.Low := by
  obtain ⟨region, regions, cut, flagged⟩ := moved
  have same : after.space.regions = regions := flagged.regions_eq
  intro held member
  rw [same] at member
  obtain ⟨whole, whole_mem, _, high, _⟩ := cut.within member
  exact le_trans high (low whole whole_mem)

theorem Marks.low (marks : Marks region before after) (low : before.Low) : after.Low := by
  obtain ⟨_, regions, _, _, within, flagged⟩ := marks
  have same : after.space.regions = regions := flagged.regions_eq
  intro held member
  rw [same] at member
  obtain ⟨whole, whole_mem, extent, _⟩ := within held member
  rw [extent]
  exact low whole whole_mem

theorem Faults.regions (faults : Faults page before after) :
    after.space.regions = before.space.regions := by
  obtain ⟨_, _, _, _, _, _, filled⟩ := faults
  exact filled.regions_eq

theorem Copies.regions (copies : Copies page before after) :
    after.space.regions = before.space.regions := by
  obtain ⟨_, _, _, _, _, _, filled | idle⟩ := copies
  · exact filled.regions_eq
  · exact idle.regions

theorem low_of_regions (low : before.Low) (same : after.space.regions = before.space.regions) :
    after.Low := by
  unfold Low
  rw [same]
  exact low

end State

end Bhaskix.Vm
