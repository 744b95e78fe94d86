import Bhaskix.Vm.Lifetime
import Bhaskix.Vm.Ownership

/-!
Many address spaces and memory objects on one machine. Every frame handed back is handed back by
the one it was handed to, over any run of calls.
-/

namespace Bhaskix.Vm

open Library Mm Function

namespace State

variable {state before after : State}

structure Cleared (pages : List Nat) (before after : State) : Prop where
  record : after.record = before.record
  tables : after.space.tables = before.space.tables
  machine : after.machine = before.machine
  inside : ∀ page ∈ pages, after.space.leaves (slotOf page) = none
  outside : ∀ slot, (∀ page ∈ pages, slotOf page ≠ slot) →
    after.space.leaves slot = before.space.leaves slot
  fewer : ∀ slot, after.space.leaves slot = before.space.leaves slot ∨
    after.space.leaves slot = none

theorem Cleared.regions_eq (cleared : Cleared pages before after) :
    after.space.regions = before.space.regions :=
  congrArg Record.regions cleared.record

theorem unmapPage_cleared (page : Nat) (state : State) :
    Cleared [page] state (state.unmapPage page).2 := by
  unfold unmapPage
  cases found : state.space.leaves (slotOf page) with
  | none =>
    refine ⟨rfl, rfl, rfl, ?_, fun _ _ => rfl, fun _ => .inl rfl⟩
    intro other member
    rw [List.mem_singleton.mp member]
    exact found
  | some leaf =>
    have gone : (state.setLeaf (slotOf page) none).space.leaves (slotOf page) = none :=
      update_self _ _ _
    have kept : ∀ slot, slot ≠ slotOf page →
        (state.setLeaf (slotOf page) none).space.leaves slot = state.space.leaves slot :=
      fun slot different => update_of_ne different _ _
    refine ⟨rfl, rfl, rfl, ?_, ?_, ?_⟩
    · intro other member
      rw [List.mem_singleton.mp member]
      exact gone
    · intro slot apart
      exact kept slot fun here => apart page (List.mem_singleton_self _) here.symm
    intro slot
    by_cases here : slot = slotOf page
    · subst here
      exact .inr gone
    · exact .inl (kept slot here)

theorem clearPages_spec (pages : List Nat) (state : State) :
    Cleared pages state (clearPages pages state) := by
  induction pages generalizing state with
  | nil => exact ⟨rfl, rfl, rfl, nofun, fun _ _ => rfl, fun _ => .inl rfl⟩
  | cons page rest induction =>
    have first := unmapPage_cleared page state
    have later := induction (state.unmapPage page).2
    unfold clearPages
    refine ⟨later.record.trans first.record, later.tables.trans first.tables,
      later.machine.trans first.machine, ?_, ?_, ?_⟩
    · intro other member
      rcases List.mem_cons.mp member with rfl | member
      · have gone := first.inside other (List.mem_singleton_self _)
        exact (later.fewer (slotOf other)).elim (fun same => same.trans gone) id
      · exact later.inside other member
    · intro slot apart
      rw [later.outside slot fun other member => apart other (List.mem_cons_of_mem _ member)]
      refine first.outside slot fun other member => ?_
      rw [List.mem_singleton.mp member]
      exact apart page List.mem_cons_self
    · intro slot
      rcases later.fewer slot with same | gone
      · rw [same]
        exact first.fewer slot
      · exact .inr gone

theorem Cleared.decent
    (cleared : Cleared pages (before.setRegions regions) after) (clean : before.Clean)
    (low : after.Low)
    (covered : ∀ slot leaf, after.space.leaves slot = some leaf → Anonymous regions slot →
      Anonymous before.space.regions slot) : Decent before after := by
  have name : after.space.name = before.space.name := congrArg Record.name cleared.record
  have same : after.space.regions = regions := cleared.regions_eq
  have log : after.machine.log = before.machine.log := congrArg Machine.log cleared.machine
  have held : ∀ frame, after.holder frame = before.holder frame := holder_of_log log
  refine ⟨⟨low, ?_, lawful_of_log log clean.lawful,
    tabled_of_log log cleared.record cleared.tables clean.tabled⟩, name,
    congrArg Record.root cleared.record, fun frame who had _ => (held frame).trans had⟩
  refine clean.owned.shrink name fun slot leaf low anonymous found => ?_
  rw [same] at anonymous
  refine ⟨covered slot leaf found anonymous, leaf, ?_, rfl, fun had => (held _).trans had⟩
  rcases cleared.fewer slot with kept | gone
  · exact kept.symm.trans found
  · cases gone.symm.trans found

theorem clearPages_proper (clean : state.Clean) (pages : List Nat) :
    Proper state (clearPages pages state) := by
  have cleared := clearPages_spec pages state
  have same : (clearPages pages state).space.regions = state.space.regions := cleared.regions_eq
  exact ⟨cleared.decent clean (low_of_regions clean.low same) fun _ _ _ covered => covered,
    sharedWithin_of_eq same⟩

/-- A shared region of the object over the first page of a mapping ends with the mapping. -/
def Fits (map : RangeMap) (object : Nat) (mapping : Mapping) : Prop :=
  ∀ region ∈ map.regions, region.backing = .shared object →
    mapping.address / pageSize ∈ region.range →
      region.range.stop ≤ mapping.address / pageSize + mapping.pages

variable {object : Nat} {mapping : Mapping}

theorem SharedWithin.fits (within : SharedWithin map next)
    (fits : Fits map object mapping) : Fits next object mapping := by
  intro region member backing inside
  obtain ⟨whole, whole_mem, backing', low, high⟩ := within region member object backing
  exact le_trans high (fits whole whole_mem backing'
    ⟨le_trans low inside.1, lt_of_lt_of_le inside.2 high⟩)

variable {region : VmRegion}

theorem first_of_start (starts : region.range.start = address) :
    address / pageSize = region.range.first := by
  rw [← starts, VirtRange.start, Nat.mul_div_cancel _ (by decide)]

theorem Fits.listed (fits : Fits map object mapping) (member : region ∈ map.regions)
    (starts : region.range.start = mapping.address) (backing : region.backing = .shared object)
    (inside : page ∈ region.range) : page ∈ mapping.pagesIter := by
  have first := first_of_start starts
  have ends := fits region member backing (first ▸ region.range.first_mem)
  rw [Mapping.pagesIter, List.mem_range'_1]
  exact ⟨first ▸ inside.1, lt_of_lt_of_le inside.2 ends⟩

theorem scratch_proper (clean : state.Clean) (fits : Fits state.space.regions object mapping) :
    Proper state
      (clearPages mapping.pagesIter (state.revokedToScratch mapping.address object).2) := by
  unfold revokedToScratch
  split
  · exact clearPages_proper clean _
  cases turned : state.space.regions.orphanShared mapping.address object with
  | error error => exact clearPages_proper clean _
  | ok regions =>
    obtain ⟨region, member, starts, backing, changed⟩ := RangeMap.orphanShared_spec turned
    have members : ∀ held ∈ regions.regions, held.range = region.range ∧
        held.backing = .anonymous ∨ held ∈ state.space.regions.regions := by
      intro held kept
      rw [changed] at kept
      rcases (RangeMap.mem_repolicy member held).mp kept with rfl | ⟨_, kept⟩
      · exact .inl ⟨rfl, rfl⟩
      · exact .inr kept
    have cleared := clearPages_spec mapping.pagesIter (state.setRegions regions)
    have same : (clearPages mapping.pagesIter (state.setRegions regions)).space.regions =
        regions := cleared.regions_eq
    have lower := clean.low region member
    refine ⟨cleared.decent clean ?_ ?_, ?_⟩
    · intro held kept
      rw [same] at kept
      rcases members held kept with ⟨extent, _⟩ | kept
      · rw [extent]
        exact lower
      · exact clean.low held kept
    · rintro slot leaf found ⟨policy, covered, anonymous⟩
      rw [changed, RangeMap.policyAt_repolicy member] at covered
      split at covered
      · next inside =>
          have gone := cleared.inside slot (fits.listed member starts backing inside)
          rw [slotOf_lower (lt_of_lt_of_le inside.2 lower)] at gone
          cases gone.symm.trans found
      · exact ⟨policy, covered, anonymous⟩
    · rw [same]
      intro held kept other shared
      rcases members held kept with ⟨_, anonymous⟩ | kept
      · cases anonymous.symm.trans shared
      · exact ⟨held, kept, shared, le_refl _, le_refl _⟩

theorem Clean.destroyed (clean : state.Clean) :
    state.destroy.log.Lawful ∧ ∀ frame who, state.holder frame = some who →
      who ≠ .page state.space.name → who ≠ .table state.space.name →
        state.destroy.holder frame = some who := by
  obtain ⟨pages, _, members, dropped, _⟩ := destroyRegions_spec clean.low
    state.space.regions.sorted (state.setRegions .new)
  have mine : ∀ page ∈ pages, page < lowerSlots ∧ Anonymous state.space.regions page := by
    intro page member
    obtain ⟨region, held, freeable, inside⟩ := (members page).mp member
    exact ⟨lt_of_lt_of_le inside.2 (clean.low region held), region.toPolicy,
      RangeMap.policyAt_of_mem held inside, freeable.1⟩
  let emptied := (destroyRegions state.space.regions.regions (state.setRegions .new)).2
  have none : emptied.space.regions = .new := dropped.regions_eq
  have decent : Decent state emptied := by
    refine dropped.decent clean mine rfl rfl rfl rfl rfl ?_ ?_
    · unfold Low
      rw [none]
      nofun
    · rw [none]
      rintro slot ⟨policy, found, _⟩
      cases found
  obtain ⟨once, tables⟩ := decent.clean.tabled.frames_held
  obtain ⟨lawful, _, _, _, kept⟩ := free_each once tables decent.clean.lawful
  have released := dropped_release (emptied.setMachine emptied.freeTables)
    (destroyRegions state.space.regions.regions (state.setRegions .new)).1
  refine ⟨released.lawful ⟨nofun, nofun⟩ lawful, ?_⟩
  intro frame who had foreign other
  have still := decent.spares frame who had foreign
  have unlisted : frame ∉ emptied.tableFrames := by
    intro member
    rw [tables frame member, decent.name] at still
    exact other (Option.some.inj still).symm
  exact (released.kept frame nofun).trans ((kept frame unlisted).trans still)

theorem Clean.elsewhere {space : AddressSpace} {machine next : Machine}
    (clean : (State.mk space machine).Clean) (lawful : next.log.Lawful)
    (kept : ∀ frame who, machine.holder frame = some who →
      who = .page space.name ∨ who = .table space.name → next.holder frame = some who) :
    (State.mk space next).Clean := by
  refine ⟨clean.low, ⟨?_, clean.owned.distinct⟩, lawful, ⟨?_, ?_, clean.tabled.distinct,
    clean.tabled.lower⟩⟩
  · intro slot leaf low covered found
    exact kept _ _ (clean.owned.held slot leaf low covered found) (.inl rfl)
  · exact kept _ _ clean.tabled.root (.inr rfl)
  · exact fun table member => kept _ _ (clean.tabled.held table member) (.inr rfl)

theorem proper_of_same (clean : before.Clean) (name : after.space.name = before.space.name)
    (root : after.space.root = before.space.root)
    (regions : after.space.regions = before.space.regions)
    (leaves : after.space.leaves = before.space.leaves)
    (tables : after.space.tables = before.space.tables)
    (log : after.machine.log = before.machine.log) : Proper before after := by
  have held := holder_of_log log
  refine ⟨⟨⟨low_of_regions clean.low regions, ?_, ?_, ?_⟩, name, root,
    fun frame who had _ => (held frame).trans had⟩, sharedWithin_of_eq regions⟩
  · refine clean.owned.shrink name fun slot leaf low covered found => ?_
    rw [regions] at covered
    rw [leaves] at found
    exact ⟨covered, leaf, found, rfl, fun had => (held _).trans had⟩
  · unfold Lawful
    rw [log]
    exact clean.lawful
  · unfold Tabled
    rw [log, name, root, tables]
    exact clean.tabled

theorem adoptFrames_log (machine : Machine) (domain frames : Nat) :
    (machine.adoptFrames domain frames).log = machine.log := by
  unfold Machine.adoptFrames
  simp only
  split <;> rfl

theorem own_proper (clean : state.Clean) (domain : Nat) : Proper state (state.own domain) := by
  unfold own
  split
  · exact .refl clean
  refine proper_of_same clean rfl rfl rfl rfl rfl ?_
  change (Machine.adoptFrames _ _ _).log = _
  rw [adoptFrames_log]
  cases state.space.owner <;> rfl

end State

namespace Machine

variable {machine : Machine}

theorem takeFrames_spec (holder : Holder) (count : Nat) (lawful : machine.log.Lawful) :
    let taken := machine.takeFrames holder count
    taken.2.log.Lawful ∧ taken.1.Nodup ∧ (∀ frame ∈ taken.1, machine.holder frame = none) ∧
      (∀ frame ∈ taken.1, taken.2.holder frame = some holder) ∧
      ∀ frame, frame ∉ taken.1 → taken.2.holder frame = machine.holder frame := by
  induction count generalizing machine with
  | zero => exact ⟨lawful, .nil, by simp [takeFrames], by simp [takeFrames], fun _ _ => rfl⟩
  | succ count induction =>
    simp only [takeFrames]
    rcases State.allocate_spec machine holder with ⟨frame, free, done⟩ | refused
    · rw [done]
      simp only
      have taken : ({ machine.tick with log := .took holder frame :: machine.log } :
          Machine).log.Lawful := ⟨free, lawful⟩
      obtain ⟨lawful', nodup, before, after, others⟩ := induction taken
      have fresh : frame ∉ (takeFrames holder count
          { machine.tick with log := .took holder frame :: machine.log }).1 := by
        intro member
        have clash := before frame member
        rw [Machine.holder, Ledger.holder_took, if_pos rfl] at clash
        cases clash
      refine ⟨lawful', List.nodup_cons.mpr ⟨fresh, nodup⟩, ?_, ?_, ?_⟩
      · intro other member
        rcases List.mem_cons.mp member with rfl | member
        · exact free
        have vacant := before other member
        rw [Machine.holder, Ledger.holder_took] at vacant
        split at vacant
        · cases vacant
        · exact vacant
      · intro other member
        rcases List.mem_cons.mp member with rfl | member
        · rw [others other fresh]
          exact if_pos rfl
        · exact after other member
      · intro other out
        rw [List.mem_cons, not_or] at out
        rw [others other out.2]
        exact if_neg fun same => out.1 same.symm
    · rw [refused]
      exact ⟨lawful, .nil, by simp, by simp, fun _ _ => rfl⟩

theorem zeroFrames_log (machine : Machine) (frames : List Nat) :
    (machine.zeroFrames frames).log = machine.log := by
  unfold zeroFrames
  induction frames generalizing machine with
  | nil => rfl
  | cons frame rest induction => exact (induction _).trans rfl

theorem chargeFrames_log
    (charged : machine.chargeFrames domain frames = .ok next) : next.log = machine.log := by
  unfold chargeFrames at charged
  simp only at charged
  split at charged
  · cases charged
  split at charged
  · cases charged
  · cases charged
    rfl

end Machine

namespace World

variable {world : World}

/-- An object's record of a mapping: it has the object's size, and the space's map agrees. -/
def Recorded (world : World) (index : Nat) (mapping : Mapping) : Prop :=
  mapping.pages = (world.objects index).frames.length ∧
    ∀ space, world.spaces mapping.root = some space → State.Fits space.regions index mapping

structure Sound (world : World) : Prop where
  lawful : world.machine.log.Lawful
  spaces : ∀ root space, world.spaces root = some space →
    space.root = root ∧ space.name < world.made ∧ (State.mk space world.machine).Clean
  named : ∀ root root' space space', world.spaces root = some space →
    world.spaces root' = some space' → space.name = space'.name → root = root'
  objects : ∀ index, (world.objects index).live = true →
    (world.objects index).frames.Nodup ∧
      ∀ frame ∈ (world.objects index).frames, world.machine.holder frame = some (.object index)
  recorded : ∀ index, (world.objects index).live = true →
    ∀ mapping, some mapping ∈ (world.objects index).mappings → world.Recorded index mapping

variable {space : AddressSpace} {root index : Nat} {protection : Protection}

theorem put_spaces (world : World) (root : Nat) (state : State)
    (found : (world.put root state).spaces other = some space) :
    other = root ∧ space = state.space ∨ other ≠ root ∧ world.spaces other = some space := by
  by_cases here : other = root
  · subst here
    have placed : (world.put other state).spaces other = some state.space :=
      update_self _ _ _
    exact .inl ⟨rfl, Option.some.inj (found.symm.trans placed)⟩
  · exact .inr ⟨here, (update_of_ne here _ _).symm.trans found⟩

theorem Sound.put (sound : world.Sound) (there : world.spaces root = some space)
    (decent : State.Decent ⟨space, world.machine⟩ state)
    (fits : ∀ index, (world.objects index).live = true →
      ∀ mapping, some mapping ∈ (world.objects index).mappings → mapping.root = root →
        State.Fits state.space.regions index mapping) : (world.put root state).Sound := by
  obtain ⟨rooted, early, clean⟩ := sound.spaces root space there
  have name : state.space.name = space.name := decent.name
  constructor
  · exact decent.clean.lawful
  · intro other held found
    rcases put_spaces world root state found with ⟨rfl, rfl⟩ | ⟨different, found⟩
    · exact ⟨decent.root.trans rooted, name ▸ early, decent.clean⟩
    obtain ⟨rooted', early', clean'⟩ := sound.spaces other held found
    refine ⟨rooted', early', clean'.elsewhere decent.clean.lawful ?_⟩
    intro frame who had mine
    refine decent.spares frame who had ?_
    rcases mine with rfl | rfl
    · intro same
      exact different (sound.named other root held space found there (Holder.page.inj same))
    · nofun
  · intro first second held held' found found' same
    rcases put_spaces world root state found with ⟨rfl, rfl⟩ | ⟨_, was⟩
    · rcases put_spaces world first state found' with ⟨rfl, rfl⟩ | ⟨_, was'⟩
      · rfl
      · exact sound.named first second space held' there was' (name ▸ same)
    · rcases put_spaces world root state found' with ⟨rfl, rfl⟩ | ⟨_, was'⟩
      · exact sound.named first second held space was there (same.trans name)
      · exact sound.named first second held held' was was' same
  · intro index live
    obtain ⟨nodup, held⟩ := sound.objects index live
    exact ⟨nodup, fun frame member => decent.spares frame _ (held frame member) nofun⟩
  · intro index live mapping member
    obtain ⟨sized, fit⟩ := sound.recorded index live mapping member
    refine ⟨sized, fun held found => ?_⟩
    rcases put_spaces world root state found with ⟨same, rfl⟩ | ⟨_, found⟩
    · exact fits index live mapping member same
    · exact fit held found

section

variable {root : Nat} {act : State → State} (sound : world.Sound)
  (proper : ∀ space, world.spaces root = some space → (State.mk space world.machine).Clean →
    State.Proper ⟨space, world.machine⟩ (act ⟨space, world.machine⟩))
include sound proper

theorem Sound.withRoot :
    (world.withRoot root act).Sound ∧ (world.withRoot root act).objects = world.objects ∧
      ∀ index mapping, world.Recorded index mapping →
        (world.withRoot root act).Recorded index mapping := by
  unfold World.withRoot
  cases there : world.spaces root with
  | none => exact ⟨sound, rfl, fun _ _ recorded => recorded⟩
  | some space =>
    have step := proper space there (sound.spaces root space there).2.2
    have within : State.SharedWithin space.regions (act ⟨space, world.machine⟩).space.regions :=
      step.shared
    refine ⟨sound.put there step.toDecent ?_, rfl, ?_⟩
    · intro index live mapping member here
      exact within.fits ((sound.recorded index live mapping member).2 space (here ▸ there))
    intro index mapping ⟨sized, fits⟩
    refine ⟨sized, fun held found => ?_⟩
    rcases put_spaces world root _ found with ⟨same, rfl⟩ | ⟨_, found⟩
    · exact within.fits (fits space (same ▸ there))
    · exact fits held found

theorem Sound.withSpace :
    (world.withSpace root act).Sound ∧ (world.withSpace root act).objects = world.objects ∧
      ∀ index mapping, world.Recorded index mapping →
        (world.withSpace root act).Recorded index mapping := by
  unfold World.withSpace
  split
  · exact sound.withRoot proper
  · exact ⟨sound, rfl, fun _ _ recorded => recorded⟩

end

theorem Sound.setMachine {machine : Machine} (sound : world.Sound) (lawful : machine.log.Lawful)
    (kept : ∀ frame who, world.machine.holder frame = some who →
      (∀ index, who = .object index → (world.objects index).live = true) →
        machine.holder frame = some who) : { world with machine }.Sound where
  lawful := lawful
  spaces := by
    intro root space found
    obtain ⟨rooted, early, clean⟩ := sound.spaces root space found
    refine ⟨rooted, early, clean.elsewhere lawful fun frame who had mine => kept frame who had ?_⟩
    rcases mine with rfl | rfl <;> nofun
  named := sound.named
  objects := by
    intro index live
    obtain ⟨nodup, held⟩ := sound.objects index live
    refine ⟨nodup, fun frame member => kept frame _ (held frame member) fun other same => ?_⟩
    rw [← Holder.object.inj same]
    exact live
  recorded := sound.recorded

variable {object : Object} {address : Nat}

theorem Sound.setObject (sound : world.Sound) (held : object.live = true → object.frames.Nodup ∧
      ∀ frame ∈ object.frames, world.machine.holder frame = some (.object index))
    (recorded : object.live = true → ∀ mapping, some mapping ∈ object.mappings →
      mapping.pages = object.frames.length ∧ ∀ space, world.spaces mapping.root = some space →
        State.Fits space.regions index mapping) : (world.setObject index object).Sound := by
  have here : (world.setObject index object).objects index = object := update_self _ _ _
  have elsewhere : ∀ other, other ≠ index →
      (world.setObject index object).objects other = world.objects other :=
    fun other different => update_of_ne different _ _
  refine ⟨sound.lawful, sound.spaces, sound.named, ?_, ?_⟩
  · intro other live
    by_cases same : other = index
    · subst same
      rw [here] at live ⊢
      exact held live
    · rw [elsewhere other same] at live ⊢
      exact sound.objects other live
  · intro other live mapping member
    by_cases same : other = index
    · subst same
      unfold Recorded
      rw [here] at live member ⊢
      exact recorded live mapping member
    · unfold Recorded
      rw [elsewhere other same] at live member ⊢
      exact sound.recorded other live mapping member

theorem Sound.newSpace (sound : world.Sound) : world.newSpace.Sound := by
  unfold World.newSpace
  cases made : AddressSpace.new world.machine world.made with
  | mk outcome machine =>
    cases outcome with
    | error error =>
      unfold AddressSpace.new at made
      rcases State.allocate_spec world.machine (.table world.made) with
        ⟨root, _, done⟩ | refused
      · rw [done] at made
        cases made
      · rw [refused] at made
        cases made
        exact sound.setMachine sound.lawful fun _ _ had _ => had
    | ok space =>
      have fresh := State.new_made made
      have kept : ∀ frame who, world.machine.holder frame = some who →
          machine.holder frame = some who := by
        intro frame who had
        rw [Machine.holder, fresh.log, Ledger.holder_took, if_neg]
        · exact had
        · rintro rfl
          cases fresh.free.symm.trans had
      have lawful : machine.log.Lawful := by
        rw [fresh.log]
        exact ⟨fresh.free, sound.lawful⟩
      have clean : (State.mk space machine).Clean := by
        refine ⟨?_, ⟨?_, ?_⟩, lawful, ?_⟩
        · unfold State.Low
          rw [fresh.regions]
          simp [RangeMap.new]
        · intro slot leaf low _ found
          cases (fresh.leaves slot low).symm.trans found
        · intro slot _ leaf _ low _ _ _ found
          cases (fresh.leaves slot low).symm.trans found
        · change State.TablesHeld space.name space.root space.tables machine.log
          rw [fresh.tables, fresh.log, fresh.named]
          exact ⟨if_pos rfl, by simp, List.nodup_singleton _, by simp⟩
      have base := sound.setMachine lawful fun frame who had _ => kept frame who had
      have placed {root : Nat} {held : AddressSpace} :=
        @put_spaces held root world space.root ⟨space, machine⟩
      refine ⟨lawful, ?_, ?_, base.objects, ?_⟩
      · intro root held found
        rcases placed found with ⟨rfl, rfl⟩ | ⟨_, found⟩
        · exact ⟨rfl, by rw [fresh.named]; exact Nat.lt_succ_self _, clean⟩
        · obtain ⟨rooted, early, clean⟩ := base.spaces root held found
          exact ⟨rooted, Nat.lt_succ_of_lt early, clean⟩
      · intro root root' held held' found found' same
        rcases placed found with ⟨rfl, rfl⟩ | ⟨_, was⟩
        · rcases placed found' with ⟨rfl, _⟩ | ⟨_, was'⟩
          · rfl
          have early := (sound.spaces root' held' was').2.1
          rw [← same, fresh.named] at early
          exact absurd early (lt_irrefl _)
        · rcases placed found' with ⟨rfl, rfl⟩ | ⟨_, was'⟩
          · have early := (sound.spaces root held was).2.1
            rw [same, fresh.named] at early
            exact absurd early (lt_irrefl _)
          · exact sound.named root root' held held' was was' same
      · intro index live mapping member
        obtain ⟨sized, fits⟩ := sound.recorded index live mapping member
        refine ⟨sized, fun held found => ?_⟩
        rcases placed found with ⟨_, rfl⟩ | ⟨_, found⟩
        · unfold State.Fits
          rw [fresh.regions]
          simp [RangeMap.new]
        · exact fits held found

theorem Sound.destroySpace (sound : world.Sound) (root : Nat) :
    (world.destroySpace root).Sound := by
  unfold World.destroySpace
  cases there : world.spaces root with
  | none => exact sound
  | some space =>
    obtain ⟨lawful, spared⟩ := (sound.spaces root space there).2.2.destroyed
    have left : ∀ {other held}, update world.spaces root none other = some held →
        other ≠ root ∧ world.spaces other = some held := by
      intro other held found
      by_cases here : other = root
      · subst here
        rw [update_self] at found
        cases found
      · exact ⟨here, (update_of_ne here _ _).symm.trans found⟩
    refine ⟨lawful, ?_, ?_, ?_, ?_⟩
    · intro other held found
      obtain ⟨different, found⟩ := left found
      obtain ⟨rooted, early, clean⟩ := sound.spaces other held found
      have apart : held.name ≠ space.name := fun same =>
        different (sound.named other root held space found there same)
      refine ⟨rooted, early, clean.elsewhere lawful ?_⟩
      intro frame who had mine
      refine spared frame who had ?_ ?_
      · rcases mine with rfl | rfl
        · exact fun same => apart (Holder.page.inj same)
        · nofun
      · rcases mine with rfl | rfl
        · nofun
        · exact fun same => apart (Holder.table.inj same)
    · intro first second held held' found found' same
      exact sound.named first second held held' (left found).2 (left found').2 same
    · intro index live
      obtain ⟨nodup, held⟩ := sound.objects index live
      exact ⟨nodup, fun frame member => spared frame _ (held frame member) nofun nofun⟩
    · intro index live mapping member
      obtain ⟨sized, fits⟩ := sound.recorded index live mapping member
      exact ⟨sized, fun held found => fits held (left found).2⟩

variable {id : MemoryId}

theorem resolve_eq_some (found : world.resolve id = some object) :
    world.objects id.index = object ∧ object.live = true := by
  unfold World.resolve at found
  simp only at found
  split at found
  · next valid =>
      cases found
      exact ⟨rfl, valid.2.1⟩
  · cases found

theorem Sound.destroy (sound : world.Sound) (id : MemoryId) : (world.destroy id).2.Sound := by
  unfold World.destroy
  cases found : world.resolve id with
  | none => exact sound
  | some object =>
    obtain ⟨rfl, live⟩ := resolve_eq_some found
    obtain ⟨nodup, held⟩ := sound.objects id.index live
    obtain ⟨lawful, _, _, _, kept⟩ := State.free_each nodup held sound.lawful
    have gone : (world.setObject id.index
        { world.objects id.index with
          frames := []
          generation := ((world.objects id.index).generation + 1) % 2 ^ 32
          live := false }).Sound := sound.setObject nofun nofun
    refine gone.setMachine lawful fun frame who had alive => ?_
    refine (kept frame fun member => ?_).trans had
    rw [show (world.setObject id.index _).machine = world.machine from rfl,
      held frame member] at had
    have live' := alive id.index (Option.some.inj had).symm
    rw [show (world.setObject id.index _).objects id.index = _ from
      update_self _ _ _] at live'
    cases live'

theorem create_spec (lawful : world.machine.log.Lawful) (owner length : Nat) :
    (∃ error machine, world.create owner length = (.error error, { world with machine }) ∧
      machine.log.Lawful ∧ ∀ frame, machine.holder frame = world.machine.holder frame) ∨
    ∃ index frames machine, world.vacant = some index ∧ world.create owner length =
        (.ok ⟨index, (world.objects index).generation⟩, { world with machine }.setObject index
            { frames, owner, mappings := .replicate maxMappings none,
              generation := (world.objects index).generation, live := true }) ∧
      machine.log.Lawful ∧ frames.Nodup ∧
      (∀ frame ∈ frames, world.machine.holder frame = none) ∧
      (∀ frame ∈ frames, machine.holder frame = some (.object index)) ∧
      ∀ frame, frame ∉ frames → machine.holder frame = world.machine.holder frame := by
  unfold World.create
  simp only
  split
  · exact .inl ⟨_, _, rfl, lawful, fun _ => rfl⟩
  generalize (length + pageSize - 1) / pageSize = pages
  cases charged : world.machine.chargeFrames owner pages with
  | error error => exact .inl ⟨_, _, rfl, lawful, fun _ => rfl⟩
  | ok machine =>
    simp only
    have log := Machine.chargeFrames_log charged
    have same : ∀ frame, machine.holder frame = world.machine.holder frame := by
      intro frame
      unfold Machine.holder
      rw [log]
    have spec := Machine.takeFrames_spec (.object (world.vacant.getD maxObjects)) pages
      (log ▸ lawful)
    cases took : machine.takeFrames (.object (world.vacant.getD maxObjects)) pages with
    | mk frames taken =>
      rw [took] at spec
      obtain ⟨lawful', nodup, free, held, others⟩ := spec
      -- Giving the frames back, with or without having zeroed them, undoes it all.
      have undo : ∀ next : Machine, next.log = taken.log →
          (next.freeFrames (.object (world.vacant.getD maxObjects)) frames).log.Lawful ∧
          ∀ frame, (next.freeFrames (.object (world.vacant.getD maxObjects))
            frames).holder frame = world.machine.holder frame := by
        intro next log'
        have held' : ∀ frame, next.holder frame = taken.holder frame := by
          intro frame
          unfold Machine.holder
          rw [log']
        obtain ⟨lawful'', _, _, gone, kept⟩ := State.free_each nodup
          (fun frame member => (held' frame).trans (held frame member)) (log' ▸ lawful')
        refine ⟨lawful'', fun frame => ?_⟩
        by_cases member : frame ∈ frames
        · exact (gone frame member).trans ((same frame).symm.trans (free frame member)).symm
        · exact (kept frame member).trans
            ((held' frame).trans ((others frame member).trans (same frame)))
      simp only
      split
      · exact .inl ⟨_, _, rfl, undo taken rfl⟩
      cases slot : world.vacant with
      | none =>
        have undone := undo (taken.zeroFrames frames) (Machine.zeroFrames_log _ _)
        rw [slot] at undone
        exact .inl ⟨_, _, rfl, undone⟩
      | some index =>
        rw [slot] at held
        have log' := Machine.zeroFrames_log taken frames
        have zeroed : ∀ frame, (taken.zeroFrames frames).holder frame = taken.holder frame := by
          intro frame
          unfold Machine.holder
          rw [log']
        refine .inr ⟨index, frames, taken.zeroFrames frames, rfl, rfl, log' ▸ lawful',
          nodup, ?_, ?_, ?_⟩
        · exact fun frame member => (same frame).symm.trans (free frame member)
        · exact fun frame member => (zeroed frame).trans (held frame member)
        · exact fun frame out =>
            (zeroed frame).trans ((others frame out).trans (same frame))

theorem Sound.create (sound : world.Sound) (owner length : Nat) :
    (world.create owner length).2.Sound := by
  rcases create_spec sound.lawful owner length with
    ⟨_, machine, done, lawful, same⟩ |
      ⟨index, frames, machine, _, done, lawful, nodup, free, held, others⟩
  · rw [done]
    exact sound.setMachine lawful fun frame who had _ => (same frame).trans had
  rw [done]
  refine Sound.setObject (sound.setMachine lawful ?_) ?_ ?_
  · intro frame who had _
    refine (others frame fun member => ?_).trans had
    cases (free frame member).symm.trans had
  · exact fun _ => ⟨nodup, held⟩
  · intro _ mapping member
    cases List.eq_of_mem_replicate member

def SparingInto (world : World) (id : MemoryId) (root address : Nat) (protection : Protection) :
    Prop :=
  ∀ object space range, world.resolve id = some object → world.spaces root = some space →
    VirtRange.fromPages address object.frames.length = some range →
      State.Lower range ∧ ∀ regions,
        space.regions.insert (.new range protection (.shared id.index)) true = .ok regions →
          (((State.mk space world.machine).setRegions regions).setMachine
            world.machine.tick).Whole range fun index => object.frames.getD index 0

structure MappedInto (id : MemoryId) (root address : Nat) (protection : Protection)
    (object : Object) (space : AddressSpace) (range : VirtRange) (state : State) (slot : Nat)
    (before after : World) : Prop where
  resolved : before.resolve id = some object
  there : before.spaces root = some space
  extent : VirtRange.fromPages address object.frames.length = some range
  lower : State.Lower range
  lends : State.Lends (.new range protection (.shared id.index))
    (fun index => object.frames.getD index 0) (entryFlags protection)
    ⟨space, before.machine⟩ state
  free : object.mappings.findIdx? Option.isNone = some slot
  after : after = (before.put root state).setObject id.index
    { object with
      mappings := object.mappings.set slot (some ⟨root, address, object.frames.length⟩) }

theorem mapInto_spec (sparing : world.SparingInto id root address protection) :
    (world.mapInto id root address protection).2 = world ∨
    (∃ space state, world.spaces root = some space ∧ State.Idle ⟨space, world.machine⟩ state ∧
      (world.mapInto id root address protection).2 = world.put root state) ∨
    ∃ object space range state slot, MappedInto id root address protection object space range
      state slot world (world.mapInto id root address protection).2 := by
  unfold World.mapInto
  cases resolved : world.resolve id with
  | none => exact .inl rfl
  | some object =>
    cases there : world.spaces root with
    | none => exact .inl rfl
    | some space =>
      simp only
      split
      · exact .inl rfl
      next room =>
      cases extent : VirtRange.fromPages address object.frames.length with
      | none => exact .inl rfl
      | some range =>
        obtain ⟨lower, whole⟩ := sparing object space range resolved there extent
        rcases State.mapShared_spec lower id.index object.frames protection
          ⟨space, world.machine⟩ with
          ⟨_, state, done, idle⟩ | ⟨state, done, _, _, lends⟩ |
            ⟨_, _, _, ⟨regions, inserted, partway⟩, _⟩
        · simp only [done]
          exact .inr (.inl ⟨space, state, rfl, idle, rfl⟩)
        · simp only [done]
          cases free : object.mappings.findIdx? Option.isNone with
          | none =>
            rw [List.findIdx?_eq_none_iff] at free
            refine absurd (List.all_eq_true.mpr fun mapping member => ?_) room
            have kept := free mapping member
            rw [← Option.not_isSome, Bool.not_eq_false'] at kept
            exact kept
          | some slot =>
            exact .inr (.inr ⟨object, space, range, state, slot, resolved, there,
              extent, lower, lends, free, rfl⟩)
        · exact absurd partway ((whole regions inserted).not_partway lower)

theorem Sound.mapInto
    (sound : world.Sound) (sparing : world.SparingInto id root address protection) :
    (world.mapInto id root address protection).2.Sound := by
  rcases mapInto_spec sparing with
    same | ⟨space, state, there, idle, done⟩ | ⟨object, space, range, state, slot, mapped⟩
  · rw [same]
    exact sound
  · rw [done]
    have proper := idle.proper (sound.spaces root space there).2.2
    refine sound.put there proper.toDecent fun index live mapping member here => ?_
    exact State.SharedWithin.fits proper.shared
      ((sound.recorded index live mapping member).2 space (here ▸ there))
  obtain ⟨here, live⟩ := resolve_eq_some mapped.resolved
  have there := mapped.there
  obtain ⟨starts, pages⟩ := VirtRange.fromPages_eq_some.mp mapped.extent
  have decent := mapped.lends.decent (sound.spaces root space there).2.2 mapped.lower nofun
  obtain ⟨regions, inserted, named⟩ := mapped.lends
  have same : state.space.regions = regions := named.regions_eq
  have first : address / pageSize = range.first := by
    rw [← starts, VirtRange.start, Nat.mul_div_cancel _ (by decide)]
  -- A region of the object over a recorded page is an old one, or the one just made; and every
  -- mapping of the object has its size.
  have fits : ∀ mapping : Mapping, mapping.pages = object.frames.length →
      (mapping.address / pageSize ∉ range → State.Fits space.regions id.index mapping) →
      State.Fits state.space.regions id.index mapping := by
    intro mapping sized old region member backing inside
    rw [same] at member
    rcases (RangeMap.mem_insert inserted region).mp member with rfl | kept
    · have low := inside.1
      change range.first ≤ _ at low
      change range.first + range.pages ≤ _
      omega
    · refine old (fun covered => ?_) region kept backing inside
      have bare := RangeMap.find_of_insert inserted covered
      rw [RangeMap.find_eq_some.mpr ⟨kept, inside⟩] at bare
      cases bare
  have foreign : ∀ index, index ≠ id.index → ∀ mapping,
      State.Fits space.regions index mapping → State.Fits state.space.regions index mapping := by
    intro index different mapping old region member backing inside
    rw [same] at member
    rcases (RangeMap.mem_insert inserted region).mp member with rfl | kept
    · exact absurd (Backing.shared.inj backing).symm different
    · exact old region kept backing inside
  have put : (world.put root state).Sound := by
    refine sound.put there decent fun index live mapping member at_root => ?_
    obtain ⟨sized, fit⟩ := sound.recorded index live mapping member
    have old := fit space (at_root ▸ there)
    by_cases own : index = id.index
    · subst own
      exact fits mapping (here ▸ sized) fun _ => old
    · exact foreign index own mapping old
  rw [mapped.after]
  have live' : ((world.put root state).objects id.index).live = true := by
    change (world.objects id.index).live = true
    rw [here]
    exact live
  have held := put.objects id.index live'
  have recorded := put.recorded id.index live'
  rw [show (world.put root state).objects id.index = object from here] at held recorded
  refine put.setObject (fun _ => held) fun _ mapping member => ?_
  rcases List.mem_or_eq_of_mem_set member with old | new
  · obtain ⟨sized, fit⟩ := recorded mapping old
    rw [show (world.put root state).objects id.index = object from here] at sized
    exact ⟨sized, fit⟩
  cases new
  refine ⟨rfl, fun held found => ?_⟩
  rcases put_spaces world root state found with ⟨_, rfl⟩ | ⟨different, _⟩
  · refine fits _ rfl fun out => ?_
    exact absurd (first ▸ range.first_mem) out
  · exact absurd rfl different

theorem withSpace_withRoot (world : World) (root : Nat) (first second : State → State) :
    (world.withSpace root first).withRoot root second = world.withRoot root fun state =>
        second (if world.installed root then first state else state) := by
  unfold World.withSpace
  split
  · unfold World.withRoot
    cases there : world.spaces root with
    | none => simp only [there]
    | some space =>
      have placed : ∀ state, (world.put root state).spaces root = some state.space :=
        fun state => update_self _ _ _
      simp only [placed]
      unfold World.put
      simp only [update_idem]
  · rfl

theorem Sound.revokeMapping (sound : world.Sound)
    (recorded : world.Recorded index mapping) : (revokeMapping index world mapping).Sound ∧
      (World.revokeMapping index world mapping).objects = world.objects ∧
      ∀ index' mapping', world.Recorded index' mapping' →
        (World.revokeMapping index world mapping).Recorded index' mapping' := by
  unfold World.revokeMapping
  simp only [withSpace_withRoot]
  refine sound.withRoot fun space there clean => ?_
  split
  · exact State.scratch_proper clean (recorded.2 space there)
  · exact State.clearPages_proper clean _

theorem Sound.revokeMappings {taken : List Mapping} (sound : world.Sound)
    (recorded : ∀ mapping ∈ taken, world.Recorded index mapping) :
    (taken.foldl (World.revokeMapping index) world).Sound ∧
      (taken.foldl (World.revokeMapping index) world).objects = world.objects := by
  induction taken generalizing world with
  | nil => exact ⟨sound, rfl⟩
  | cons mapping rest induction =>
    obtain ⟨sound', objects, kept⟩ := sound.revokeMapping (recorded mapping List.mem_cons_self)
    obtain ⟨sound'', objects'⟩ := induction sound' fun other member =>
      kept index other (recorded other (List.mem_cons_of_mem _ member))
    exact ⟨sound'', objects'.trans objects⟩

theorem Sound.revoke (sound : world.Sound) (id : MemoryId) : (world.revoke id).2.Sound := by
  unfold World.revoke
  cases found : world.resolve id with
  | none => exact sound
  | some object =>
    obtain ⟨rfl, live⟩ := resolve_eq_some found
    have forgotten : (world.setObject id.index
        { world.objects id.index with mappings := .replicate maxMappings none }).Sound := by
      refine sound.setObject (fun _ => sound.objects id.index live) fun _ mapping member => ?_
      cases List.eq_of_mem_replicate member
    refine Sound.destroy (forgotten.revokeMappings fun mapping member => ?_).1 id
    obtain ⟨sized, fits⟩ := sound.recorded id.index live mapping
      (List.reduceOption_mem_iff.mp member)
    refine ⟨?_, fits⟩
    rw [show (world.setObject id.index _).objects id.index = _ from update_self _ _ _]
    exact sized

theorem Sound.unmapMapping (sound : world.Sound) (mapping : Mapping) :
    (world.unmapMapping mapping).Sound ∧ (world.unmapMapping mapping).objects = world.objects ∧
      ∀ index mapping', world.Recorded index mapping' →
        (world.unmapMapping mapping).Recorded index mapping' := by
  unfold World.unmapMapping
  obtain ⟨sound', objects, kept⟩ := @Sound.withSpace world mapping.root
    (fun state => (state.unmap mapping.address).2) sound
    fun space there clean => State.unmap_proper clean _
  obtain ⟨sound'', objects', kept'⟩ := @Sound.withRoot _ mapping.root
    (State.clearPages mapping.pagesIter) sound'
    fun space there clean => State.clearPages_proper clean _
  exact ⟨sound'', objects'.trans objects, fun index mapping' recorded =>
    kept' index mapping' (kept index mapping' recorded)⟩

theorem Sound.unmapRoots (sound : world.Sound) (id : MemoryId) (roots : List (Option Nat)) :
    (world.unmapRoots id roots).2.Sound := by
  unfold World.unmapRoots
  cases found : world.resolve id with
  | none => exact sound
  | some object =>
    obtain ⟨rfl, live⟩ := resolve_eq_some found
    simp only
    have forgotten : (world.setObject id.index
        { world.objects id.index with
          mappings := (world.objects id.index).mappings.map fun mapping =>
            if selectedByRoot (roots.take maxOwners) mapping then none else mapping }).Sound := by
      refine sound.setObject (fun _ => sound.objects id.index live) fun _ mapping member => ?_
      obtain ⟨old, kept, same⟩ := List.mem_map.mp member
      split at same
      · cases same
      · subst same
        exact sound.recorded id.index live mapping kept
    have each : ∀ taken : List Mapping, ∀ start : World, start.Sound →
        (taken.foldl World.unmapMapping start).Sound := by
      intro taken
      induction taken with
      | nil => exact fun start sound => sound
      | cons mapping rest induction =>
        exact fun start sound => induction _ (sound.unmapMapping mapping).1
    exact each _ _ forgotten

/-- Mappings lie in the lower half; one of given frames does not stop part of the way, memory that
becomes anonymous has no entries left under it, and a space is destroyed only once no object records
a mapping in it. -/
def Sparing (world : World) : Call → Prop
  | .operate root operation => ∀ space, world.spaces root = some space →
      (State.mk space world.machine).Sparing operation
  | .mapAt root address pages protection lazy replace => ∀ space range,
      world.spaces root = some space → VirtRange.fromPages address pages = some range →
        (State.mk space world.machine).SparingAt range protection lazy replace
  | .mapInto id root address protection => world.SparingInto id root address protection
  | .destroySpace root => ∀ index, (world.objects index).live = true →
      ∀ mapping, some mapping ∈ (world.objects index).mappings → mapping.root ≠ root
  | .newSpace | .own _ _ | .keepRevokedAsScratch _ | .install _ | .forget _ | .unmapAt _ _ _ |
    .create _ _ | .revoke _ | .unmapRoots _ _ | .destroy _ | .elsewhere _ => True

theorem Sound.perform (sound : world.Sound) (call : Call) (sparing : world.Sparing call) :
    (call.perform world).Sound := by
  cases call with
  | newSpace => exact sound.newSpace
  | destroySpace root => exact sound.destroySpace root
  | own root domain =>
    exact (@Sound.withRoot world root (fun state => state.own domain) sound
      fun space there clean => State.own_proper clean domain).1
  | keepRevokedAsScratch root =>
    exact (@Sound.withRoot world root
      (fun state => { state with space := state.space.keepRevokedAsScratch }) sound
      fun space there clean => State.proper_of_same clean rfl rfl rfl rfl rfl rfl).1
  | install root | forget root => exact { sound with }
  | operate root operation =>
    exact (sound.withRoot fun space there clean =>
      State.perform_proper clean operation (sparing space there)).1
  | mapAt root address pages protection lazy replace =>
    change (world.mapAt root address pages protection lazy replace).Sound
    unfold World.mapAt
    split
    · exact sound
    split
    · exact sound
    next range extent =>
    exact (@Sound.withSpace world root
      (fun state => (state.mapAt range protection lazy replace).2) sound
      fun space there clean =>
        State.mapAt_proper clean (sparing space range there extent)).1
  | unmapAt root start pages =>
    exact (@Sound.withSpace world root (fun state => (state.unmapAt start pages).2) sound
      fun space there clean => State.unmapRange_proper clean start _).1
  | create owner length => exact sound.create owner length
  | mapInto id root address protection => exact sound.mapInto sparing
  | revoke id => exact sound.revoke id
  | unmapRoots id roots => exact sound.unmapRoots id roots
  | destroy id => exact sound.destroy id
  | elsewhere machine => exact sound.setMachine sound.lawful fun _ _ had _ => had

theorem boot_sound (machine : Machine) : (boot machine).Sound :=
  ⟨trivial, nofun, nofun, nofun, nofun⟩

/-- A space hands back what it took for its own pages and tables and had not handed back since; a
live object still has its frames. -/
structure FreesOwn (world : World) : Prop where
  own : ∀ later who frame earlier,
    world.machine.log = later ++ Entry.gave who frame :: earlier →
      Ledger.holder earlier frame = some who
  objects : ∀ index, (world.objects index).live = true →
    ∀ frame ∈ (world.objects index).frames, world.machine.holder frame = some (.object index)

/-- Over every run of calls that are sparing where they start, a space frees only what it owns. -/
theorem frees_own {machine : Machine}
    (reached : Reached Call.perform Sparing (boot machine) world) : world.FreesOwn := by
  have sound : world.Sound :=
    reached.invariant (boot_sound machine) fun call sound sparing => sound.perform call sparing
  refine ⟨?_, fun index live => (sound.objects index live).2⟩
  intro later who frame earlier log
  have lawful := sound.lawful
  rw [log] at lawful
  exact Ledger.held_of_gave lawful

theorem frees_own_page : ((Call.operate 0 (.unmap (16 * pageSize))).perform
      ((Call.operate 0 (.mapAnonymous onePage .readWrite)).perform
        (Call.newSpace.perform (boot Machine.counting)))).machine.log.head? =
          some (.gave (.page 0) 2) ∧ ((Call.operate 0 (.unmap (16 * pageSize))).perform
        ((Call.operate 0 (.mapAnonymous onePage .readWrite)).perform
          (Call.newSpace.perform (boot Machine.counting)))).FreesOwn :=
  ⟨by decide, frees_own (.next _ (.next _ (.next _ .start trivial)
    fun _ _ => ⟨by decide, .inl rfl⟩) fun _ _ => trivial)⟩

/-- An anonymous page has its frame to itself, whichever spaces, tables and objects there are. -/
theorem spaces_isolated {machine : Machine}
    (reached : Reached Call.perform Sparing (boot machine) world) {root slot : Nat}
    {space : AddressSpace} {leaf : Leaf} (there : world.spaces root = some space)
    (low : slot < lowerSlots) (own : Anonymous space.regions slot)
    (entry : space.leaves slot = some leaf) :
    (∀ root' space', world.spaces root' = some space' →
      leaf.frame ≠ space'.root ∧ (∀ table ∈ space'.tables, leaf.frame ≠ table.frame) ∧
      ∀ slot' leaf', slot' < lowerSlots → Anonymous space'.regions slot' →
        space'.leaves slot' = some leaf' → leaf.frame = leaf'.frame →
          root = root' ∧ slot = slot') ∧
    ∀ index, (world.objects index).live = true → leaf.frame ∉ (world.objects index).frames := by
  have sound : world.Sound :=
    reached.invariant (boot_sound machine) fun call sound sparing => sound.perform call sparing
  have mine := (sound.spaces root space there).2.2.owned
  have held := mine.held slot leaf low own entry
  constructor
  · intro root' space' there'
    have clean := (sound.spaces root' space' there').2.2
    refine ⟨?_, ?_, ?_⟩
    · intro same
      cases held.symm.trans (same ▸ clean.tabled.root)
    · intro table member same
      cases held.symm.trans (same ▸ clean.tabled.held table member)
    · intro slot' leaf' low' own' entry' same
      have name := held.symm.trans (same ▸ clean.owned.held slot' leaf' low' own' entry')
      cases sound.named root root' space space' there there'
        (Holder.page.inj (Option.some.inj name))
      cases there.symm.trans there'
      exact ⟨rfl, mine.distinct slot slot' leaf leaf' low low' own own' entry entry' same⟩
  · intro index live member
    cases held.symm.trans ((sound.objects index live).2 _ member)

theorem spaces_isolated_object :
    let world := (Call.operate 0 (.mapAnonymous onePage .readWrite)).perform
      ((Call.create 0 4096).perform (Call.newSpace.perform (boot Machine.counting)))
    (world.objects 0).frames = [1] ∧ 3 ∉ (world.objects 0).frames := by
  intro world
  have reached : Reached Call.perform Sparing (boot Machine.counting) world :=
    .next _ (.next _ (.next _ .start trivial) trivial) fun _ _ => ⟨by decide, .inl rfl⟩
  exact ⟨by decide, (spaces_isolated reached (show world.spaces 0 = some _ from rfl)
    (show 16 < lowerSlots by decide) ⟨_, rfl, rfl⟩ rfl).2 0 (by decide)⟩

end World

def Machine.refusing (time : Nat) : Machine :=
  { Machine.counting with answers := fun now => if now = time then none else some now }

namespace World

/-- An object is mapped across the end of a table, and the second table is refused: the space frees
the object's first frame. -/
theorem not_frees_own : ¬ ∀ calls : List Call, (calls.foldl (fun world call => call.perform world)
        (boot (Machine.refusing 7))).FreesOwn := by
  intro always
  have freed := always [.newSpace, .create 0 8192, .mapInto ⟨0, 0⟩ 0 (511 * pageSize) .readWrite]
  have held := freed.objects 0 (by decide) 1 (by decide)
  revert held
  decide

end World

end Bhaskix.Vm
