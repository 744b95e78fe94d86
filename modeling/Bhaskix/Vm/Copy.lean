import Bhaskix.Vm.Accounting
import Bhaskix.Vm.Ownership

/-!
`copy_space`: a new space for another domain, region by region and page by page from one there is.
What is refused part of the way is torn down again.
-/

namespace Bhaskix.Vm

open Library Mm Function
open VirtRange (mem_pagesIter)
open Option (isSome_iff_exists map_none map_some bind_some)
open List hiding Disjoint after map next range

abbrev maxSpaces : Nat := 32

structure Copied where
  regions : Nat
  frames : Nat
  skipped : Nat
deriving DecidableEq

namespace State

/-- The pages of one region: those the source has a frame for get one here, with what is in it. -/
def copyPages (source : AddressSpace) (protection : Protection) :
    List Nat → Copied → State → Except VmError Copied × State
  | [], done, state => (.ok done, state)
  | page :: rest, done, state =>
    match (State.mk source state.machine).translate page with
    | none => copyPages source protection rest done state
    | some old =>
      match state.populatePage page protection with
      | (.error error, state) => (.error error, state)
      | (.ok fresh, state) =>
        copyPages source protection rest { done with frames := done.frames + 1 }
          (state.fill fresh (state.machine.contents old))

end State

/-- The table of spaces, by the roots in its `maxSpaces` slots, and the root the domain table has
for each domain. -/
structure SpaceTable where
  world : World
  slots : List (Option Nat)
  roots : Nat → Option Nat

namespace SpaceTable

variable (table : SpaceTable)

end SpaceTable

namespace State

variable {state before after : State}

/-- What a step takes comes from the allocator, and what it takes for a table is listed as one. -/
structure Draws (before after : State) : Prop where
  answers : after.machine.answers = before.machine.answers
  clock : before.machine.clock ≤ after.machine.clock
  drawn : ∀ frame, after.holder frame ≠ none → before.holder frame ≠ none ∨
    ∃ time < after.machine.clock, before.machine.answers time = some frame
  listed : ∀ frame name, after.holder frame = some (.table name) →
    before.holder frame = some (.table name) ∨ ∃ table ∈ after.space.tables, table.frame = frame
  fresh : ∀ table ∈ after.space.tables,
    table ∈ before.space.tables ∨ before.holder table.frame = none
  kept : ∀ table ∈ before.space.tables, table ∈ after.space.tables
  held : ∀ frame, before.holder frame ≠ none → after.holder frame ≠ none

theorem draws_of_same (answers : after.machine.answers = before.machine.answers)
    (log : after.machine.log = before.machine.log)
    (tables : after.space.tables = before.space.tables)
    (clock : before.machine.clock ≤ after.machine.clock) : Draws before after := by
  have same := holder_of_log log
  refine ⟨answers, clock, ?_, ?_, ?_, ?_, ?_⟩
  · exact fun frame had => .inl (same frame ▸ had)
  · exact fun frame name had => .inl ((same frame).symm.trans had)
  · exact fun table member => .inl (tables ▸ member)
  · exact fun table member => tables ▸ member
  · exact fun frame had => (same frame).symm ▸ had

theorem Draws.trans (first : Draws before after) (second : Draws after next) :
    Draws before next where
  answers := second.answers.trans first.answers
  clock := first.clock.trans second.clock
  drawn := by
    intro frame had
    rcases second.drawn frame had with earlier | ⟨time, passed, answer⟩
    · exact (first.drawn frame earlier).imp_right fun ⟨time, passed, answer⟩ =>
        ⟨time, passed.trans_le second.clock, answer⟩
    · exact .inr ⟨time, passed, first.answers ▸ answer⟩
  listed := by
    intro frame name had
    rcases second.listed frame name had with earlier | listed
    · exact (first.listed frame name earlier).imp_right fun ⟨table, member, names⟩ =>
        ⟨table, second.kept table member, names⟩
    · exact .inr listed
  fresh := by
    intro table member
    rcases second.fresh table member with earlier | free
    · exact first.fresh table earlier
    · refine .inr (by_contra fun had => ?_)
      exact first.held table.frame had free
  kept := fun table member => second.kept table (first.kept table member)
  held := fun frame had => second.held frame (first.held frame had)

variable {frame : Nat}

theorem draws_took (free : state.holder frame = none)
    (answer : state.machine.answers state.machine.clock = some frame)
    (log : after.machine.log = .took who frame :: state.machine.log)
    (answers : after.machine.answers = state.machine.answers)
    (clock : after.machine.clock = state.machine.clock + 1)
    (tables : after.space.tables = state.space.tables ∧ (∀ name, who ≠ .table name) ∨
      ∃ level index, after.space.tables = ⟨level, index, frame⟩ :: state.space.tables) :
    Draws state after := by
  have holder : ∀ other, after.holder other =
      if frame = other then some who else state.holder other := by
    intro other
    unfold State.holder Machine.holder
    rw [log, Ledger.holder_took]
  refine ⟨answers, clock ▸ Nat.le_succ _, ?_, ?_, ?_, ?_, ?_⟩
  · intro other had
    rw [holder] at had
    split at had
    · next same => exact .inr ⟨_, clock ▸ Nat.lt_succ_self _, same ▸ answer⟩
    · exact .inl had
  · intro other name had
    rw [holder] at had
    split at had
    · next same =>
        cases had
        rcases tables with ⟨_, page⟩ | ⟨level, index, listed⟩
        · exact absurd rfl (page name)
        · exact .inr ⟨_, listed ▸ mem_cons_self, same⟩
    · exact .inl had
  · intro table member
    rcases tables with ⟨same, _⟩ | ⟨level, index, listed⟩
    · exact .inl (same ▸ member)
    rw [listed] at member
    rcases mem_cons.mp member with rfl | old
    · exact .inr free
    · exact .inl old
  · intro table member
    rcases tables with ⟨same, _⟩ | ⟨level, index, listed⟩
    · exact same ▸ member
    · exact listed ▸ mem_cons_of_mem _ member
  · intro other had
    rw [holder]
    split
    · nofun
    · exact had

variable {machine : Machine}

theorem answer_of_allocate {next : Machine}
    (done : machine.allocate who = (some frame, next)) :
    machine.answers machine.clock = some frame := by
  unfold Machine.allocate at done
  split at done
  · cases done
  next answer =>
  split at done
  · cases done
    exact answer
  · cases done

theorem allocatePage_draws (state : State) : Draws state state.allocatePage.2 := by
  unfold allocatePage
  rcases allocate_spec state.machine (.page state.space.name) with ⟨frame, free, done⟩ | refused
  · have answer := answer_of_allocate done
    rw [done]
    exact draws_took free answer rfl rfl rfl (.inl ⟨rfl, nofun⟩)
  · rw [refused]
    exact draws_of_same rfl rfl rfl (Nat.le_succ _)

theorem ensureTable_draws (state : State) (level slot : Nat) :
    Draws state (state.ensureTable level slot).2 := by
  unfold ensureTable
  simp only
  split
  · exact draws_of_same rfl rfl rfl le_rfl
  rcases allocate_spec state.machine (.table state.space.name) with
    ⟨frame, free, done⟩ | refused
  · have answer := answer_of_allocate done
    rw [done]
    exact draws_took free answer rfl rfl rfl (.inr ⟨level, _, rfl⟩)
  · rw [refused]
    exact draws_of_same rfl rfl rfl (Nat.le_succ _)

theorem walk_draws (state : State) (slot : Nat) : Draws state (state.walk slot).2 := by
  unfold walk
  have third := ensureTable_draws state 3 slot
  split
  · next step => exact step ▸ third
  next upper step =>
  rw [step] at third
  have second := ensureTable_draws upper 2 slot
  split
  · next step => exact third.trans (step ▸ second)
  next middle step =>
    rw [step] at second
    exact (third.trans second).trans (ensureTable_draws middle 1 slot)

theorem mapPage_draws (state : State) (page frame : Nat) (flags : EntryFlags) :
    Draws state (state.mapPage page frame flags).2 := by
  unfold mapPage
  have walked := walk_draws state (slotOf page)
  split
  · next step => exact step ▸ walked
  next step =>
  rw [step] at walked
  split
  · split
    · exact walked
    · exact walked
  · exact walked.trans (draws_of_same rfl rfl rfl le_rfl)

theorem Draws.giveBack (draws : Draws before after)
    (free : before.holder frame = none) : Draws before (after.freePage frame) := by
  have holder : ∀ other, (after.freePage frame).holder other =
      if frame = other then none else after.holder other := fun other => rfl
  refine ⟨draws.answers, draws.clock, ?_, ?_, draws.fresh, draws.kept, ?_⟩
  · intro other had
    rw [holder] at had
    split at had
    · exact absurd rfl had
    · exact draws.drawn other had
  · intro other name had
    rw [holder] at had
    split at had
    · cases had
    · exact draws.listed other name had
  · intro other had
    rw [holder, if_neg fun same : frame = other => had (same ▸ free)]
    exact draws.held other had

theorem release_draws (state : State) (frames : Nat) : Draws state (state.release frames) := by
  unfold release
  cases state.space.owner with
  | none | some owner => exact draws_of_same rfl rfl rfl le_rfl

theorem populatePage_spec (low : page < lowerSlots) (protection : Protection)
    (state : State) : (∃ error after, state.populatePage page protection = (.error error, after) ∧
      Idle state after ∧ Draws state after) ∨
    ∃ leaf after, state.populatePage page protection = (.ok leaf.frame, after) ∧
      after.space.leaves page = some leaf ∧ (∃ paid, state.charge 1 = .ok paid) ∧
      Filled [page] (entryFlags protection) (state.paid 1) after ∧ Draws state after := by
  unfold populatePage
  cases charged : state.charge 1 with
  | error error => exact .inl ⟨_, _, rfl, Idle.refl state, draws_of_same rfl rfl rfl le_rfl⟩
  | ok paid =>
    obtain rfl := charge_eq_ok charged
    have pays : Draws state (state.paid 1) := draws_of_same rfl rfl rfl le_rfl
    have draws := allocatePage_draws (state.paid 1)
    rcases allocatePage_spec (state.paid 1) with
      ⟨fresh, taken, step, took⟩ | ⟨refused, step, supplied⟩
    · rw [step] at draws
      have mapped := mapPage_draws taken page fresh (entryFlags protection page)
      simp only [step]
      rcases mapPage_spec taken fresh (entryFlags protection page) low with
        ⟨error, after, done, supplied⟩ | ⟨walked, leaf, supplied, names, was, done⟩
      · rw [done] at mapped ⊢
        have back : Filled [] (entryFlags protection) (state.paid 1) (after.freePage fresh) :=
          took.giveBack supplied
        refine .inl ⟨_, _, rfl, back.idle.refunded, ?_⟩
        exact ((pays.trans (draws.trans mapped)).giveBack took.free).trans (release_draws _ 1)
      · rw [done] at mapped ⊢
        rw [took.space] at was
        subst names
        exact .inr ⟨leaf, _, rfl, update_self _ _ _, ⟨_, rfl⟩, took.entered supplied rfl was,
          pays.trans (draws.trans mapped)⟩
    · rw [step] at draws
      simp only [step]
      exact .inl ⟨_, _, rfl, supplied.idle.refunded, (pays.trans draws).trans (release_draws _ 1)⟩

/-- The envelope takes that many frames more. For none it is not asked. -/
def Affords (budget : FrameBudget) (frames : Nat) : Prop :=
  frames = 0 ∨ budget.occupied = true ∧ budget.charged + frames ≤ budget.cap

theorem Affords.mono (fits : Affords budget more) (fewer : frames ≤ more) :
    Affords budget frames := by
  rcases fits with rfl | ⟨occupied, room⟩
  · exact .inl (Nat.le_zero.mp fewer)
  · exact .inr ⟨occupied, (Nat.add_le_add_left fewer _).trans room⟩

/-- Its books are balanced, nobody had what it has, and nothing else has changed hands. -/
structure Grown (start : Machine) (state : State) : Prop extends
    Balanced start.budgets state where
  taken : ∀ frame, state.Frames frame → start.holder frame = none
  others : ∀ frame, ¬ state.Frames frame → state.holder frame = start.holder frame
  drawn : ∀ frame, state.Frames frame →
    ∃ time < state.machine.clock, start.answers time = some frame
  answers : state.machine.answers = start.answers
  fits : ∀ domain, state.space.owner = some domain →
    Affords (start.budgets domain) state.space.charged
  tabled : state.Tabled
  contents : ∀ frame, start.holder frame ≠ none →
    state.machine.contents frame = start.contents frame

variable {start : Machine}

theorem Grown.free_of_free (grown : state.Grown start)
    (free : state.holder frame = none) : start.holder frame = none := by
  by_cases mine : state.Frames frame
  · exact grown.taken frame mine
  · exact (grown.others frame mine).symm.trans free

theorem Grown.charge_iff (grown : state.Grown start) (owner : state.space.owner = some domain) :
    (∃ paid, state.charge 1 = .ok paid) ↔
      Affords (start.budgets domain) (state.space.charged + 1) := by
  have budget : state.machine.budgets domain = { start.budgets domain with
      charged := (start.budgets domain).charged + state.space.charged } := by
    rw [grown.budgets, payFor, if_pos owner]
  simp only [charge, owner, Machine.chargeFrames, budget, Affords, ← Nat.add_assoc]
  cases (start.budgets domain).occupied with
  | false => simp
  | true =>
    rcases Nat.lt_or_ge (start.budgets domain).cap
      ((start.budgets domain).charged + state.space.charged + 1) with excess | room
    · simp [excess, Nat.lt_succ_iff.mp excess]
    · simp [room, Nat.not_lt.mpr room]

theorem Grown.fits_of_same (grown : state.Grown start)
    (owner : after.space.owner = state.space.owner)
    (charged : after.space.charged = state.space.charged) (domain : Nat)
    (owned : after.space.owner = some domain) :
    Affords (start.budgets domain) after.space.charged :=
  charged ▸ grown.fits domain (owner.symm.trans owned)

section

variable (draws : Draws before after) (grew : before.Grown start)
include draws grew

theorem Grown.step
    (balanced : after.Balanced start.budgets) (root : after.space.root = before.space.root)
    (held : ∀ frame, after.holder frame = before.holder frame ∨ before.holder frame = none ∧
      ((∃ name, after.holder frame = some (.table name)) ∨
        ∃ slot leaf, slot < lowerSlots ∧ after.space.leaves slot = some leaf ∧ leaf.frame = frame))
    (entries : ∀ slot leaf, slot < lowerSlots → after.space.leaves slot = some leaf →
      before.space.leaves slot = some leaf ∨ before.holder leaf.frame = none)
    (persist : ∀ slot leaf, slot < lowerSlots → before.space.leaves slot = some leaf →
      after.space.leaves slot = some leaf) (tabled : after.Tabled)
    (contents : ∀ frame, before.holder frame ≠ none →
      after.machine.contents frame = before.machine.contents frame)
    (fits : ∀ domain, after.space.owner = some domain →
      Affords (start.budgets domain) after.space.charged) : after.Grown start := by
  have listed : ∀ table ∈ after.space.tables, after.Frames table.frame := fun table member =>
    .inl (mem_append_left _ (mem_map_of_mem
      (mem_filter.mpr ⟨member, tabled.lower table member⟩)))
  have more : ∀ frame, before.Frames frame → after.Frames frame := by
    rintro frame (tables | ⟨slot, leaf, low, found, names⟩)
    · rcases mem_append.mp tables with lower | last
      · obtain ⟨table, member, rfl⟩ := mem_map.mp lower
        exact listed table (draws.kept table (mem_filter.mp member).1)
      · rw [mem_singleton.mp last, ← root]
        exact .inl (mem_append_right _ (mem_singleton_self _))
    · exact .inr ⟨slot, leaf, low, persist slot leaf low found, names⟩
  -- A frame of the space is one it had, or one nobody had.
  have old : ∀ frame, after.Frames frame → before.Frames frame ∨ before.holder frame = none := by
    rintro frame (tables | ⟨slot, leaf, low, found, rfl⟩)
    · rcases mem_append.mp tables with lower | last
      · obtain ⟨table, member, rfl⟩ := mem_map.mp lower
        exact (draws.fresh table (mem_filter.mp member).1).imp_left fun was =>
          .inl (mem_append_left _ (mem_map_of_mem
            (mem_filter.mpr ⟨was, grew.tabled.lower table was⟩)))
      · rw [mem_singleton.mp last, root]
        exact .inl (.inl (mem_append_right _ (mem_singleton_self _)))
    · exact (entries slot leaf low found).imp_left fun was => .inr ⟨slot, leaf, low, was, rfl⟩
  refine ⟨balanced, ?_, ?_, ?_, draws.answers.trans grew.answers, fits, tabled, ?_⟩
  · intro frame mine
    rcases old frame mine with was | free
    · exact grew.taken frame was
    · exact grew.free_of_free free
  · intro frame other
    have was := grew.others frame fun mine => other (more frame mine)
    rcases held frame with same | ⟨free, ⟨name, taken⟩ | named⟩
    · exact same.trans was
    · rcases draws.listed frame name taken with had | ⟨table, member, rfl⟩
      · cases free.symm.trans had
      · exact absurd (listed table member) other
    · exact absurd (.inr named) other
  · intro frame mine
    by_cases was : before.Frames frame
    · obtain ⟨time, passed, answer⟩ := grew.drawn frame was
      exact ⟨time, passed.trans_le draws.clock, answer⟩
    have free := (old frame mine).resolve_left was
    have had : after.holder frame ≠ none := by
      rcases mine with table | ⟨slot, leaf, low, found, rfl⟩
      · rw [tabled.frames_held.2 frame table]
        nofun
      · rw [balanced.held slot leaf low found]
        nofun
    obtain ⟨time, passed, answer⟩ := (draws.drawn frame had).resolve_left fun had => had free
    exact ⟨time, passed, grew.answers ▸ answer⟩
  · intro frame had
    rw [contents frame fun free => had (grew.free_of_free free), grew.contents frame had]

theorem Idle.grown (idle : Idle before after) : after.Grown start := by
  have leaves {slot : Nat} (lower : slot < lowerSlots) := idle.leaves_lower grew.toBalanced lower
  refine grew.step draws (idle.balanced grew.toBalanced) (congrArg Record.root idle.record) ?_ ?_
    ?_ (idle.still.tabled grew.tabled) idle.still.contents
    (grew.fits_of_same (congrArg Record.owner idle.record) (congrArg Record.charged idle.record))
  · exact fun frame => (idle.still.held frame).imp_right fun ⟨free, table⟩ =>
      ⟨free, .inl ⟨_, table⟩⟩
  · exact fun slot leaf lower found => .inl ((leaves lower).symm.trans found)
  · exact fun slot leaf lower found => (leaves lower).trans found

theorem Covers.grown (covers : Covers region before after) (lower : Lower region.range) :
    after.Grown start := by
  have balanced := covers.balanced grew.toBalanced lower
  obtain ⟨regions, inserted, supplied⟩ := covers
  have leaves : after.space.leaves = before.space.leaves := supplied.leaves
  refine grew.step draws balanced (congrArg Record.root supplied.record) ?_ ?_ ?_
    (supplied.tabled grew.tabled) ?_
    (grew.fits_of_same (congrArg Record.owner supplied.record)
      (congrArg Record.charged supplied.record))
  · exact fun frame => (supplied.held frame).imp_right fun ⟨free, table⟩ => ⟨free, .inl ⟨_, table⟩⟩
  · exact fun slot leaf lower found => .inl (leaves ▸ found)
  · exact fun slot leaf lower found => leaves ▸ found
  intro frame _
  rw [supplied.contents]
  rfl

theorem Filled.grown
    (filled : Filled [page] flags (before.paid 1) after) (lower : page < lowerSlots)
    (paid : ∃ paid, before.charge 1 = .ok paid)
    (vacant : before.space.leaves page = none)
    (covered : ∃ policy, before.space.regions.policyAt page = some policy ∧ Freeable policy) :
    after.Grown start := by
  have only : ∀ other ∈ [page], other = page := fun other => mem_singleton.mp
  have same : after.space.regions = before.space.regions := filled.regions_eq
  have filled' : Filled [page] flags
      ((before.setRegions before.space.regions).paid [page].length) after := filled
  have balanced : after.Balanced start.budgets :=
    grew.toBalanced.fill filled' (fun other member => only other member ▸ lower)
      (nodup_singleton page) (fun other member => only other member ▸ vacant)
      (low_of_regions grew.low same) (fun _ _ found => found)
      (fun other member => only other member ▸ covered)
  refine grew.step draws balanced (congrArg Record.root filled.record) ?_ ?_ ?_
    (filled.tabled grew.tabled) filled.contents ?_
  · intro frame
    refine (filled.held frame).imp_right fun ⟨free, taken⟩ => ⟨free, ?_⟩
    rcases taken with table | ⟨_, slot, member, leaf, found, names⟩
    · exact .inl ⟨_, table⟩
    · exact .inr ⟨slot, leaf, only slot member ▸ lower, found, names⟩
  · intro slot leaf low found
    by_cases here : slot ∈ [page]
    · exact .inr (filled.entry here found).2.1
    · exact .inl ((filled.outside slot here).symm.trans found)
  · intro slot leaf low found
    refine (filled.outside slot fun member => ?_).trans found
    rw [only slot member] at found
    cases vacant.symm.trans found
  · intro domain owner
    have owned : after.space.owner = before.space.owner := congrArg Record.owner filled.record
    rw [show after.space.charged = before.space.charged + 1 from
      congrArg Record.charged filled.record]
    exact (grew.charge_iff (owned.symm.trans owner)).mp paid

end

theorem Grown.write (grown : state.Grown start) (mine : state.Frames frame)
    (page : Page) : (state.fill frame page).Grown start where
  low := grown.low
  covered := grown.covered
  held := grown.held
  distinct := grown.distinct
  charged := grown.charged
  budgets := grown.budgets
  taken := grown.taken
  others := grown.others
  drawn := grown.drawn
  answers := grown.answers
  fits := grown.fits
  tabled := { grown.tabled with }
  contents := by
    intro other had
    have different : other ≠ frame := fun same => had (same ▸ grown.taken frame mine)
    exact (update_of_ne different _ _).trans (grown.contents other had)

/-- Every request is answered with a frame that nobody has and that is not offered again. -/
structure Plenty (machine : Machine) : Prop where
  answers : ∀ time, ∃ frame, machine.answers time = some frame ∧ machine.holder frame = none
  once : ∀ time later frame, machine.answers time = some frame →
    machine.answers later = some frame → time = later

section

variable (grown : state.Grown start) (plenty : Plenty start) (draws : Draws state after)
include grown plenty draws

theorem Grown.allocate_ok (who : Holder) :
    ∃ frame next, after.machine.allocate who = (some frame, next) := by
  obtain ⟨frame, answer, free⟩ := plenty.answers after.machine.clock
  have same : after.machine.answers = start.answers := draws.answers.trans grown.answers
  have free' : after.machine.holder frame = none := by
    by_contra held
    obtain ⟨time, passed, drawn⟩ :
        ∃ time < after.machine.clock, start.answers time = some frame := by
      rcases draws.drawn frame held with had | ⟨time, passed, drawn⟩
      · have mine : state.Frames frame := by_contra fun other =>
          had ((grown.others frame other).trans free)
        obtain ⟨time, passed, drawn⟩ := grown.drawn frame mine
        exact ⟨time, passed.trans_le draws.clock, drawn⟩
      · exact ⟨time, passed, grown.answers ▸ drawn⟩
    exact absurd (plenty.once _ _ frame drawn answer) passed.ne
  simp only [Machine.allocate, same, answer, if_pos free']
  exact ⟨frame, _, rfl⟩

theorem Grown.ensureTable_ok (level slot : Nat) :
    ∃ next, after.ensureTable level slot = (.ok (), next) ∧ Draws state next := by
  have more := draws.trans (ensureTable_draws after level slot)
  unfold ensureTable at more ⊢
  simp only at more ⊢
  split at more
  · next there => exact ⟨_, if_pos there, more⟩
  · next there =>
    obtain ⟨frame, next, done⟩ := grown.allocate_ok plenty draws (.table after.space.name)
    rw [done] at more
    exact ⟨_, by rw [if_neg there, done], more⟩

theorem Grown.walk_ok (slot : Nat) : ∃ next, after.walk slot = (.ok (), next) := by
  obtain ⟨upper, third, draws⟩ := grown.ensureTable_ok plenty draws 3 slot
  obtain ⟨middle, second, draws⟩ := grown.ensureTable_ok plenty draws 2 slot
  obtain ⟨next, first, _⟩ := grown.ensureTable_ok plenty draws 1 slot
  exact ⟨next, by simp only [walk, third, second, first]⟩

end

theorem Grown.populatePage_ok (grown : state.Grown start) (plenty : Plenty start)
    (owner : state.space.owner = some domain)
    (fits : Affords (start.budgets domain) (state.space.charged + 1)) (low : page < lowerSlots)
    (bare : state.space.leaves page = none) (protection : Protection) :
    ∃ frame after, state.populatePage page protection = (.ok frame, after) := by
  obtain ⟨paid, charged⟩ := (grown.charge_iff owner).mpr fits
  obtain rfl := charge_eq_ok charged
  have pays : Draws state (state.paid 1) := draws_of_same rfl rfl rfl le_rfl
  obtain ⟨fresh, next, done⟩ := grown.allocate_ok plenty pays (.page (state.paid 1).space.name)
  have took : (state.paid 1).allocatePage = (some fresh, (state.paid 1).setMachine next) := by
    rw [allocatePage, done]
  have draws := allocatePage_draws (state.paid 1)
  rw [took] at draws
  obtain ⟨walked, step⟩ := grown.walk_ok plenty (pays.trans draws) page
  have supplied := walk_supplied ((state.paid 1).setMachine next) low
  rw [step] at supplied
  have vacant : walked.space.leaves page = none := supplied.leaves ▸ bare
  simp only [populatePage, charged, took, mapPage, slotOf_lower low, step, vacant]
  exact ⟨fresh, _, rfl⟩

theorem Grown.destroyed (grown : state.Grown start) : state.destroy.budgets = start.budgets ∧
      ∀ frame, state.destroy.holder frame = start.holder frame := by
  obtain ⟨budgets, gone, kept, _⟩ := grown.toBalanced.destroyed
  refine ⟨budgets, fun frame => ?_⟩
  by_cases mine : state.Frames frame
  · exact (gone frame mine).trans (grown.taken frame mine).symm
  · exact (kept frame mine).trans (grown.others frame mine)

end State

def AddressSpace.read (space : AddressSpace) (machine : Machine) (page : Nat) : Page :=
  match (State.mk space machine).translate page with
  | none => Page.zero
  | some frame => machine.contents frame

variable {space : AddressSpace} {machine : Machine}

theorem AddressSpace.read_of_none (low : page < lowerSlots) (bare : space.leaves page = none) :
    space.read machine page = Page.zero := by
  unfold AddressSpace.read State.translate
  simp only [slotOf_lower low, bare, map_none]

theorem AddressSpace.read_of_some (low : page < lowerSlots)
    (found : space.leaves page = some leaf) :
    space.read machine page = machine.contents leaf.frame := by
  unfold AddressSpace.read State.translate
  simp only [slotOf_lower low, found, map_some]

open AddressSpace (read_of_none read_of_some)

namespace State

variable {state before after : State} {start : Machine} {source : AddressSpace}

/-- The space is the same one, and off the pages touched nothing has been mapped or written. -/
structure Kept (touched : Nat → Prop) (before after : State) : Prop where
  name : after.space.name = before.space.name
  owner : after.space.owner = before.space.owner
  outside : ∀ slot, slot < lowerSlots → ¬ touched slot →
    after.space.leaves slot = before.space.leaves slot
  held : ∀ frame, before.holder frame ≠ none → after.holder frame ≠ none
  contents : ∀ frame, before.holder frame ≠ none →
    after.machine.contents frame = before.machine.contents frame

theorem Kept.refl (touched : Nat → Prop) (state : State) : Kept touched state state :=
  ⟨rfl, rfl, fun _ _ _ => rfl, fun _ had => had, fun _ _ => rfl⟩

variable {touched : Nat → Prop} {region : VmRegion}

theorem Kept.trans (first : Kept touched before after)
    (second : Kept touched after next) : Kept touched before next where
  name := second.name.trans first.name
  owner := second.owner.trans first.owner
  outside := fun slot low out => (second.outside slot low out).trans (first.outside slot low out)
  held := fun frame had => second.held frame (first.held frame had)
  contents := fun frame had =>
    (second.contents frame (first.held frame had)).trans (first.contents frame had)

theorem Kept.mono {more : Nat → Prop} (kept : Kept touched before after)
    (within : ∀ slot, touched slot → more slot) : Kept more before after :=
  { kept with outside := fun slot low out =>
      kept.outside slot low fun here => out (within slot here) }

theorem Kept.read (kept : Kept touched before after)
    (grown : before.Grown start) (low : page < lowerSlots) (out : ¬ touched page) :
    after.space.read after.machine page = before.space.read before.machine page := by
  have same := kept.outside page low out
  cases found : before.space.leaves page with
  | none =>
    rw [read_of_none low (same.trans found), read_of_none low found]
  | some leaf =>
    rw [read_of_some low (same.trans found), read_of_some low found]
    refine kept.contents leaf.frame ?_
    rw [grown.held page leaf low found]
    nofun

theorem Covers.charged (covers : Covers region before after) :
    after.space.charged = before.space.charged := by
  obtain ⟨regions, _, supplied⟩ := covers
  exact congrArg Record.charged supplied.record

theorem Covers.kept (covers : Covers region before after) : Kept (fun _ => False) before after := by
  obtain ⟨regions, _, supplied⟩ := covers
  refine ⟨supplied.name, congrArg Record.owner supplied.record, ?_, ?_, ?_⟩
  · intro slot _ _
    rw [supplied.leaves]
    rfl
  · intro frame had
    obtain ⟨who, had⟩ := Option.ne_none_iff_exists'.mp had
    rw [supplied.held_of_some had]
    nofun
  · intro frame _
    rw [supplied.contents]
    rfl

theorem Filled.kept (filled : Filled [page] flags (before.paid 1) after)
    (found : after.space.leaves page = some leaf) (bytes : Page) :
    Kept (fun slot => slot = page) before (after.fill leaf.frame bytes) := by
  have free := (filled.entry (mem_singleton_self page) found).2.1
  refine ⟨filled.name, congrArg Record.owner filled.record, ?_, ?_, ?_⟩
  · exact fun slot _ out => filled.outside slot fun member => out (mem_singleton.mp member)
  · intro frame had
    obtain ⟨who, had⟩ := Option.ne_none_iff_exists'.mp had
    have still : after.holder frame = some who := filled.held_of_some had
    change after.holder frame ≠ none
    rw [still]
    nofun
  · intro frame had
    have different : frame ≠ leaf.frame := fun same => had (same ▸ free)
    exact (update_of_ne different _ _).trans (filled.contents frame had)

/-- The pages listed that have a frame. -/
def wanted (source : AddressSpace) (pages : List Nat) : Nat :=
  pages.countP fun page => (source.leaves page).isSome

/-- The envelope has no room for so many frames more, or the allocator did not answer. -/
def Short (start : Machine) (state : State) (frames : Nat) : Prop :=
  Plenty start → ∀ domain, state.space.owner = some domain →
    ¬ Affords (start.budgets domain) (state.space.charged + frames)

theorem Short.earlier (short : Short start after frames)
    (owner : after.space.owner = state.space.owner)
    (charged : after.space.charged = state.space.charged + spent)
    (enough : spent + frames ≤ more) : Short start state more := by
  intro plenty domain owned fits
  exact short plenty domain (owner.trans owned) (fits.mono (by omega))

theorem copyPages_spec {protection : Protection} {pages : List Nat} (nodup : pages.Nodup)
    (grown : state.Grown start) (lower : ∀ page ∈ pages, page < lowerSlots)
    (covered : ∀ page ∈ pages, ∃ policy, state.space.regions.policyAt page = some policy ∧
      Freeable policy) (vacant : ∀ page ∈ pages, state.space.leaves page = none)
    (anchored : ∀ page ∈ pages, ∀ leaf, source.leaves page = some leaf →
      start.holder leaf.frame ≠ none) (done : Copied) :
    (∃ error after, copyPages source protection pages done state = (.error error, after) ∧
      after.Grown start ∧ Short start state (wanted source pages)) ∨
    ∃ done' after, copyPages source protection pages done state = (.ok done', after) ∧
      after.Grown start ∧ after.space.charged = state.space.charged + wanted source pages ∧
      after.space.regions = state.space.regions ∧
      Kept (fun slot => slot ∈ pages) state after ∧
      ∀ page ∈ pages, after.space.read after.machine page = source.read start page := by
  induction pages generalizing state done with
  | nil => exact .inr ⟨_, _, rfl, grown, rfl, rfl, .refl _ _, nofun⟩
  | cons page rest induction =>
    obtain ⟨fresh, nodup⟩ := nodup_cons.mp nodup
    have low := lower page mem_cons_self
    have bare := vacant page mem_cons_self
    have lower' : ∀ other ∈ rest, other < lowerSlots := fun other member =>
      lower other (mem_cons_of_mem _ member)
    have anchored' : ∀ other ∈ rest, ∀ leaf, source.leaves other = some leaf →
        start.holder leaf.frame ≠ none := fun other member =>
      anchored other (mem_cons_of_mem _ member)
    unfold copyPages
    rw [translate, slotOf_lower low]
    cases entry : source.leaves page with
    | none =>
      have count : wanted source (page :: rest) = wanted source rest := by
        rw [wanted, countP_cons_of_neg (by simp [entry]), wanted]
      simp only [map_none, count]
      refine (induction nodup grown lower'
        (fun other member => covered other (mem_cons_of_mem _ member))
        (fun other member => vacant other (mem_cons_of_mem _ member)) anchored'
        done).imp_right ?_
      rintro ⟨done', after, step, grown', charged, regions, kept, copied⟩
      refine ⟨done', after, step, grown', charged, regions,
        kept.mono fun slot => mem_cons_of_mem _, ?_⟩
      intro other member
      rcases mem_cons.mp member with rfl | later
      · rw [kept.read grown low fresh, read_of_none low bare, read_of_none low entry]
      · exact copied other later
    | some old =>
      have count : wanted source (page :: rest) = 1 + wanted source rest := by
        rw [wanted, countP_cons_of_pos (by simp [entry]), Nat.add_comm, wanted]
      simp only [map_some, count]
      rcases populatePage_spec low protection state with
        ⟨error, after, step, idle, draws⟩ | ⟨leaf, filled, step, found, paid, fills, draws⟩
      · simp only [step]
        refine .inl ⟨error, after, rfl, idle.grown draws grown, fun plenty domain owner fits => ?_⟩
        obtain ⟨frame, filled, done⟩ := grown.populatePage_ok plenty owner
          (fits.mono (by omega)) low bare protection
        cases step.symm.trans done
      simp only [step]
      have charged : filled.space.charged = state.space.charged + 1 :=
        congrArg Record.charged fills.record
      have grown' := fills.grown draws grown low paid bare (covered page mem_cons_self)
      have mine : filled.Frames leaf.frame := .inr ⟨page, leaf, low, found, rfl⟩
      have kept := fills.kept found (filled.machine.contents old.frame)
      have had := anchored page mem_cons_self old entry
      have bytes : filled.machine.contents old.frame = start.contents old.frame :=
        grown'.contents old.frame had
      have regions : filled.space.regions = state.space.regions :=
        congrArg Record.regions fills.record
      have off : ∀ other ∈ rest, other ≠ page := fun other member same =>
        fresh (same ▸ member)
      refine (induction nodup (grown'.write mine (filled.machine.contents old.frame)) lower' ?_ ?_
        anchored' { done with frames := done.frames + 1 }).imp ?_ ?_
      · intro other member
        change ∃ policy, filled.space.regions.policyAt other = some policy ∧ _
        rw [regions]
        exact covered other (mem_cons_of_mem _ member)
      · intro other member
        exact (kept.outside other (lower' other member) (off other member)).trans
          (vacant other (mem_cons_of_mem _ member))
      · rintro ⟨error, after, step', grown'', short⟩
        exact ⟨error, after, step', grown'', short.earlier kept.owner charged le_rfl⟩
      rintro ⟨done', after, step', grown'', charged', regions', kept', copied⟩
      refine ⟨done', after, step', grown'', ?_, regions'.trans regions,
        (kept.mono ?_).trans (kept'.mono ?_), ?_⟩
      · rw [charged', show (filled.fill _ _).space.charged = _ from charged, Nat.add_assoc]
      · exact fun slot same => same ▸ mem_cons_self
      · exact fun slot => mem_cons_of_mem _
      intro other member
      rcases mem_cons.mp member with rfl | later
      · calc after.space.read after.machine other
          _ = _ := kept'.read (grown'.write mine _) low fresh
          _ = (filled.fill leaf.frame _).machine.contents leaf.frame :=
            read_of_some low found
          _ = filled.machine.contents old.frame := update_self _ _ _
          _ = start.contents old.frame := bytes
          _ = source.read start other := (read_of_some low entry).symm
      · exact copied other later

def copied (region : VmRegion) : Bool :=
  match region.backing with
  | .shared _ | .direct _ => false
  | .reserved | .anonymous => true

def replica (region : VmRegion) : VmRegion :=
  .new region.range region.protection region.backing

/-- The pages of accessible anonymous regions that have a frame. -/
def demand (source : AddressSpace) (regions : List VmRegion) : Nat :=
  (regions.map fun region =>
    if region.backing = .anonymous ∧ region.protection.present then
      wanted source region.range.pagesIter
    else 0).sum

theorem demand_cons (source : AddressSpace) (region : VmRegion) (rest : List VmRegion) :
    demand source (region :: rest) = demand source [region] + demand source rest := rfl

theorem demand_of_freeable (freeable : Freeable region.toPolicy) :
    demand source [region] = wanted source region.range.pagesIter :=
  if_pos freeable

theorem demand_of_bare (bare : ¬ Freeable region.toPolicy) : demand source [region] = 0 :=
  if_neg bare

/-- The copy so far has the regions listed, and the accessible anonymous ones read as they do in
the source. -/
structure Replicated (source : AddressSpace) (start : Machine) (plan : List VmRegion)
    (before after : State) : Prop where
  grown : after.Grown start
  kept : Kept (fun slot => ∃ region ∈ plan, slot ∈ region.range) before after
  regions : after.space.regions.regions =
    before.space.regions.regions ++ (plan.filter copied).map replica
  read : ∀ region ∈ plan, Freeable region.toPolicy → ∀ page ∈ region.range,
    after.space.read after.machine page = source.read start page
  charged : after.space.charged = before.space.charged + demand source plan

theorem Replicated.cons (first : Replicated source start [region] before after)
    (second : Replicated source start rest after next) (lower : Lower region.range)
    (apart : ∀ later ∈ rest, region.range.stop ≤ later.range.first) :
    Replicated source start (region :: rest) before next where
  grown := second.grown
  kept := by
    refine (first.kept.mono ?_).trans (second.kept.mono ?_)
    · rintro slot ⟨other, member, inside⟩
      rw [mem_singleton.mp member] at inside
      exact ⟨region, mem_cons_self, inside⟩
    · rintro slot ⟨other, member, inside⟩
      exact ⟨other, mem_cons_of_mem _ member, inside⟩
  regions := by
    rw [second.regions, first.regions, append_assoc, ← map_append, ← filter_append]
    rfl
  read := by
    intro other member freeable page inside
    rcases mem_cons.mp member with rfl | later
    · have out : ¬ ∃ later ∈ rest, page ∈ later.range := by
        rintro ⟨later, member, inside'⟩
        exact absurd (le_trans (apart later member) inside'.1) (Nat.not_le.mpr inside.2)
      rw [second.kept.read first.grown (lower.page (mem_pagesIter.mpr inside)) out]
      exact first.read other (mem_singleton_self _) freeable page inside
    · exact second.read other later freeable page inside
  charged := by rw [second.charged, first.charged, Nat.add_assoc, ← demand_cons]

theorem Replicated.skip (grown : state.Grown start)
    (skipped : copied region = false) : Replicated source start [region] state state := by
  have bare : ¬ Freeable region.toPolicy := by
    intro freeable
    unfold copied at skipped
    rw [freeable.1] at skipped
    cases skipped
  refine ⟨grown, .refl _ state, ?_, ?_, ?_⟩
  · simp only [filter_cons, skipped, Bool.false_eq_true, if_false, filter_nil, map_nil, append_nil]
  · intro other member freeable
    rw [mem_singleton.mp member] at freeable
    exact absurd freeable bare
  · rw [demand_of_bare bare, Nat.add_zero]

def Backed (source : AddressSpace) (start : Machine) (region : VmRegion) : Prop :=
  region.backing = .anonymous → ∀ page ∈ region.range, ∀ leaf, source.leaves page = some leaf →
    start.holder leaf.frame ≠ none

section

variable (covers : Covers (replica region) before middle) (grown : middle.Grown start)
  (copies : copied region = true)
  (past : ∀ held ∈ before.space.regions.regions, held.range.stop ≤ region.range.first)
include covers copies past

theorem Covers.regions_replica : middle.space.regions.regions =
    before.space.regions.regions ++ ([region].filter copied).map replica := by
  obtain ⟨regions, inserted, supplied⟩ := covers
  have same : middle.space.regions = regions := supplied.regions_eq
  rw [same, RangeMap.insert_last inserted past]
  simp only [filter_cons, copies, if_true, filter_nil, map_cons, map_nil]

include grown

theorem Covers.copyPages (had : before.Grown start) (lower : Lower region.range)
    (freeable : Freeable region.toPolicy) (backed : Backed source start region) (done : Copied) :
    (∃ error after, copyPages source region.protection region.range.pagesIter done middle =
        (.error error, after) ∧ after.Grown start ∧
      Short start before (demand source [region])) ∨
    ∃ done' after, copyPages source region.protection region.range.pagesIter done middle =
        (.ok done', after) ∧ Replicated source start [region] before after := by
  obtain ⟨map, inserted, supplied⟩ := id covers
  have same : middle.space.regions = map := supplied.regions_eq
  have covered : ∀ page ∈ region.range.pagesIter, ∃ policy,
      middle.space.regions.policyAt page = some policy ∧ Freeable policy := by
    intro page member
    refine ⟨(replica region).toPolicy, ?_, freeable⟩
    rw [same, RangeMap.policyAt_insert inserted]
    exact if_pos (mem_pagesIter.mp member)
  have vacant : ∀ page ∈ region.range.pagesIter, middle.space.leaves page = none := by
    intro page member
    rw [supplied.leaves]
    exact had.toBalanced.vacant (lower.page member)
      (RangeMap.policyAt_of_insert inserted (mem_pagesIter.mp member))
  have anchored := fun page member => backed freeable.1 page (mem_pagesIter.mp member)
  refine (@copyPages_spec middle start source region.protection _ (nodup_pagesIter _) grown
    (fun page => lower.page) covered vacant anchored done).imp ?_ ?_
  · rintro ⟨error, after, step, grown', short⟩
    refine ⟨error, after, step, grown', short.earlier covers.kept.owner
      (covers.charged.trans (Nat.add_zero _).symm) ?_⟩
    rw [demand_of_freeable freeable, Nat.zero_add]
  rintro ⟨done', after, step, grown', charged, regions, kept, read⟩
  refine ⟨done', after, step, grown', ?_, ?_, ?_, ?_⟩
  · refine (covers.kept.mono fun _ => False.elim).trans (kept.mono fun slot member => ?_)
    exact ⟨region, mem_singleton_self _, mem_pagesIter.mp member⟩
  · rw [regions, covers.regions_replica copies past]
  · intro other member _ page inside
    rw [mem_singleton.mp member] at inside
    exact read page (mem_pagesIter.mpr inside)
  · rw [charged, covers.charged, demand_of_freeable freeable]

end

end State

namespace SpaceTable

variable {world : World} {table : SpaceTable} {source domain : Nat} {space : AddressSpace}

def mappedFrames (space : AddressSpace) : Set Nat :=
  { frame | ∃ slot leaf, slot < lowerSlots ∧ space.leaves slot = some leaf ∧ leaf.frame = frame }

/-- Anonymous pages read the same, the regions are the source's but for shared and device ones, no
frame is in both, and the envelope grew by the target's frames. -/
structure Faithful (before : World) (source : AddressSpace) (domain : Nat) (after : World)
    (target : AddressSpace) : Prop where
  read : ∀ page, Anonymous source.regions page →
    target.read after.machine page = source.read before.machine page
  regions : target.regions.regions = source.regions.regions.filter State.copied
  apart : Disjoint (mappedFrames source) (mappedFrames target)
  charged : (after.machine.budgets domain).charged =
    (before.machine.budgets domain).charged + (mappedFrames target).ncard

/-- The same table over an allocator that answers so. -/
def supplied (table : SpaceTable) (answers : Nat → Option Nat) : SpaceTable :=
  { table with world := { table.world with machine := { table.world.machine with answers } } }

variable {state : State}

section

variable (there : table.world.spaces source = some space)
  (lower : (State.mk space table.world.machine).Low)
  (backed : ∀ region ∈ space.regions.regions, State.Backed space table.world.machine region)
include there lower backed

end

def reached (calls : List Call) (roots : List Nat) : SpaceTable :=
  { world := calls.foldl (fun world call => call.perform world) (World.boot Machine.counting)
    slots := roots.map some ++ .replicate (maxSpaces - roots.length) none
    roots := fun _ => none }

def plain : SpaceTable :=
  reached [.newSpace, .operate 0 (.mapAnonymous onePage .readWrite)] [0]

def hidden : SpaceTable :=
  reached [.newSpace, .operate 0 (.mapAnonymous onePage .readWrite),
    .elsewhere { Machine.counting with clock := 6, contents := fun _ _ => 1 },
    .operate 0 (.protect (16 * pageSize) 1 .none)] [0]

def marked : SpaceTable :=
  reached [.newSpace, .operate 0 (.mapAnonymous onePage .readWrite),
    .operate 0 (.makeCopyOnWrite (16 * pageSize))] [0]

def full : SpaceTable :=
  reached (.replicate maxSpaces .newSpace) (List.range maxSpaces)

end SpaceTable

end Bhaskix.Vm
