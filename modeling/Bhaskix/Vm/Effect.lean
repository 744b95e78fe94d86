import Bhaskix.Vm.AddressSpace

/-!
What the pieces of an operation do to a space, slot by slot: walks add tables, pages are filled
with fresh frames or with given ones, pages are dropped and their frames given back. Every piece
says what it leaves alone.
-/

namespace Bhaskix.Vm

open Library Mm Function List

structure Record where
  name : Nat
  root : Nat
  regions : RangeMap
  owner : Option Nat
  charged : Nat
  scratchOnRevoke : Bool

def AddressSpace.record (space : AddressSpace) : Record :=
  { name := space.name, root := space.root, regions := space.regions, owner := space.owner,
    charged := space.charged, scratchOnRevoke := space.scratchOnRevoke }

namespace State

variable {state before after next : State}

def record (state : State) : Record :=
  state.space.record

def holder (state : State) (frame : Nat) : Option Holder :=
  state.machine.holder frame

def Lawful (state : State) : Prop :=
  state.machine.log.Lawful

/-- The tables of a space are its own, each frame in one place, and all in the lower half. -/
structure TablesHeld (name top : Nat) (tables : List Table) (log : Ledger Holder Nat) :
    Prop where
  root : log.holder top = some (.table name)
  held : ∀ table ∈ tables, log.holder table.frame = some (.table name)
  distinct : (top :: tables.map Table.frame).Nodup
  lower : ∀ table ∈ tables, table.lower = true

def Tabled (state : State) : Prop :=
  TablesHeld state.space.name state.space.root state.space.tables state.machine.log

structure Supplied (before after : State) : Prop where
  record : after.record = before.record
  leaves : after.space.leaves = before.space.leaves
  budgets : after.machine.budgets = before.machine.budgets
  contents : after.machine.contents = before.machine.contents
  held : ∀ frame, after.holder frame = before.holder frame ∨
    before.holder frame = none ∧ after.holder frame = some (.table before.space.name)
  lawful : before.Lawful → after.Lawful
  tabled : before.Tabled → after.Tabled

theorem Supplied.refl (state : State) : Supplied state state where
  record := rfl
  leaves := rfl
  budgets := rfl
  contents := rfl
  held := fun _ => .inl rfl
  lawful := id
  tabled := id

theorem Supplied.name (supplied : Supplied before after) : after.space.name = before.space.name :=
  congrArg Record.name supplied.record

theorem Supplied.regions_eq (supplied : Supplied before after) :
    after.space.regions = before.space.regions :=
  congrArg Record.regions supplied.record

theorem held_trans
    (first : after.holder frame = before.holder frame ∨
      before.holder frame = none ∧ after.holder frame = some who)
    (second : next.holder frame = after.holder frame ∨
      after.holder frame = none ∧ next.holder frame = some who) :
    next.holder frame = before.holder frame ∨
      before.holder frame = none ∧ next.holder frame = some who := by
  rcases first with same | ⟨free, taken⟩
  · rwa [same] at second
  · rcases second with same | ⟨free', _⟩
    · exact .inr ⟨free, same.trans taken⟩
    · cases free'.symm.trans taken

theorem Supplied.trans (first : Supplied before after) (second : Supplied after next) :
    Supplied before next where
  record := second.record.trans first.record
  leaves := second.leaves.trans first.leaves
  budgets := second.budgets.trans first.budgets
  contents := second.contents.trans first.contents
  held := fun frame => held_trans (first.held frame) (first.name ▸ second.held frame)
  lawful := second.lawful ∘ first.lawful
  tabled := second.tabled ∘ first.tabled

variable {frame : Nat} {flags : Nat → EntryFlags} {pages more : List Nat} {frames : Nat → Nat}
  {range : VirtRange}

theorem holder_kept {new : Prop}
    (held : after.holder frame = before.holder frame ∨ before.holder frame = none ∧ new)
    (had : before.holder frame = some who) : after.holder frame = some who := by
  rcases held with same | ⟨free, _⟩
  · exact same.trans had
  · cases had.symm.trans free

section

variable (log : after.machine.log = before.machine.log)
include log

theorem holder_of_log (frame : Nat) : after.holder frame = before.holder frame := by
  unfold State.holder Machine.holder
  rw [log]

theorem lawful_of_log (lawful : before.Lawful) : after.Lawful := by
  rwa [State.Lawful, log]

theorem tabled_of_log (record : after.space.record = { before.space.record with regions })
    (tables : after.space.tables = before.space.tables) (tabled : before.Tabled) :
    after.Tabled := by
  have name : after.space.name = before.space.name := congrArg Record.name record
  have root : after.space.root = before.space.root := congrArg Record.root record
  rwa [State.Tabled, log, tables, name, root]

end

theorem Supplied.held_of_some (supplied : Supplied before after)
    (had : before.holder frame = some who) : after.holder frame = some who :=
  holder_kept (supplied.held frame) had

theorem allocate_spec (machine : Machine) (who : Holder) : (∃ frame, machine.holder frame = none ∧
      machine.allocate who =
        (some frame, { machine.tick with log := .took who frame :: machine.log })) ∨
    machine.allocate who = (none, machine.tick) := by
  unfold Machine.allocate
  cases machine.answers machine.clock with
  | none => exact .inr rfl
  | some frame =>
    by_cases free : machine.holder frame = none
    · exact .inl ⟨frame, free, by simp only [if_pos free]⟩
    · exact .inr (by simp only [if_neg free])

theorem supplied_tick (state : State) : Supplied state (state.setMachine state.machine.tick) :=
  { Supplied.refl state with
    tabled := fun tabled => { tabled with } }

theorem ensureTable_supplied (state : State) (level : Nat) (low : slot < lowerSlots) :
    Supplied state (state.ensureTable level slot).2 := by
  unfold ensureTable
  simp only
  split
  · exact Supplied.refl state
  rcases allocate_spec state.machine (.table state.space.name) with
    ⟨frame, free, done⟩ | refused
  · rw [done]
    have taken : ∀ wanted who, state.holder wanted = some who → frame ≠ wanted := by
      rintro wanted who had rfl
      cases had.symm.trans free
    have kept : ∀ wanted who, state.holder wanted = some who →
        Ledger.holder (.took (.table state.space.name) frame :: state.machine.log) wanted =
          some who := by
      intro wanted who had
      rw [Ledger.holder_took, if_neg (taken wanted who had)]
      exact had
    refine ⟨rfl, rfl, rfl, rfl, ?_, fun lawful => ⟨free, lawful⟩, fun tabled => ⟨?_, ?_, ?_, ?_⟩⟩
    · intro wanted
      by_cases same : frame = wanted
      · subst same
        exact .inr ⟨free, if_pos rfl⟩
      · exact .inl (if_neg same)
    · exact kept _ _ tabled.root
    · intro table member
      rcases mem_cons.mp member with rfl | member
      · exact if_pos rfl
      · exact kept _ _ (tabled.held table member)
    · have fresh : frame ∉ state.space.root :: state.space.tables.map Table.frame := by
        intro member
        rcases mem_cons.mp member with same | member
        · exact taken _ _ tabled.root same
        · obtain ⟨table, listed, same⟩ := mem_map.mp member
          exact taken _ _ (tabled.held table listed) same.symm
      have distinct := nodup_cons.mp tabled.distinct
      rw [mem_cons, not_or] at fresh
      refine nodup_cons.mpr ⟨?_, nodup_cons.mpr ⟨fresh.2, distinct.2⟩⟩
      intro member
      rcases mem_cons.mp member with same | member
      · exact fresh.1 same.symm
      · exact distinct.1 member
    · intro table member
      rcases mem_cons.mp member with rfl | member
      · exact decide_eq_true (lt_of_le_of_lt (Nat.div_mul_le_self _ _) low)
      · exact tabled.lower table member
  · rw [refused]
    exact supplied_tick state

theorem walk_supplied (state : State) (low : slot < lowerSlots) :
    Supplied state (state.walk slot).2 := by
  have third := ensureTable_supplied state 3 low
  unfold walk
  split
  · next step => exact step ▸ third
  next top step =>
  rw [step] at third
  have second := ensureTable_supplied top 2 low
  split
  · next step' => exact third.trans (step' ▸ second)
  next middle step' =>
    rw [step'] at second
    exact (third.trans second).trans (ensureTable_supplied middle 1 low)

theorem mapPage_spec (state : State) (frame : Nat) (flags : EntryFlags) (low : page < lowerSlots) :
    (∃ error after, state.mapPage page frame flags = (.error error, after) ∧ Supplied state after) ∨
    ∃ walked leaf, Supplied state walked ∧ leaf.frame = frame ∧
      (state.space.leaves page = none ∧ leaf.flags = flags ∨ state.space.leaves page = some leaf) ∧
      state.mapPage page frame flags = (.ok (), walked.setLeaf page (some leaf)) := by
  have supplied := walk_supplied state low
  unfold mapPage
  rw [slotOf_lower low]
  split
  · next error after step =>
      rw [step] at supplied
      exact .inl ⟨error, after, rfl, supplied⟩
  next walked step =>
  rw [step] at supplied
  split
  · next leaf found =>
      split
      · next same =>
          refine .inr ⟨walked, leaf, supplied, same, .inr (supplied.leaves ▸ found), ?_⟩
          rw [setLeaf, ← found, update_eq_self]
      · exact .inl ⟨_, _, rfl, supplied⟩
  · next vacant =>
      exact .inr ⟨walked, ⟨frame, flags⟩, supplied, rfl, .inl ⟨supplied.leaves ▸ vacant, rfl⟩, rfl⟩

/-- The pages listed have been given frames nobody had. A slot that already named the frame keeps
its entry. -/
structure Filled (pages : List Nat) (flags : Nat → EntryFlags) (before after : State) : Prop where
  record : after.record = before.record
  budgets : after.machine.budgets = before.machine.budgets
  outside : ∀ slot, slot ∉ pages → after.space.leaves slot = before.space.leaves slot
  inside : ∀ slot ∈ pages, ∃ leaf, after.space.leaves slot = some leaf ∧
    (before.space.leaves slot = none ∧ leaf.flags = flags slot ∨
      before.space.leaves slot = some leaf) ∧
    before.holder leaf.frame = none ∧ after.holder leaf.frame = some (.page before.space.name)
  distinct : ∀ slot ∈ pages, ∀ other ∈ pages, ∀ leaf leaf', after.space.leaves slot = some leaf →
    after.space.leaves other = some leaf' → leaf.frame = leaf'.frame → slot = other
  held : ∀ frame, after.holder frame = before.holder frame ∨ before.holder frame = none ∧
    (after.holder frame = some (.table before.space.name) ∨
      after.holder frame = some (.page before.space.name) ∧
        ∃ slot ∈ pages, ∃ leaf, after.space.leaves slot = some leaf ∧ leaf.frame = frame)
  contents : ∀ frame, before.holder frame ≠ none →
    after.machine.contents frame = before.machine.contents frame
  lawful : before.Lawful → after.Lawful
  tabled : before.Tabled → after.Tabled

theorem Supplied.filled (supplied : Supplied before after) : Filled [] flags before after where
  record := supplied.record
  budgets := supplied.budgets
  outside := fun slot _ => by rw [supplied.leaves]
  inside := nofun
  distinct := nofun
  held := fun frame => (supplied.held frame).imp_right fun ⟨free, taken⟩ => ⟨free, .inl taken⟩
  contents := fun frame _ => by rw [supplied.contents]
  lawful := supplied.lawful
  tabled := supplied.tabled

section

variable (filled : Filled pages flags before after)
include filled

theorem Filled.name : after.space.name = before.space.name :=
  congrArg Record.name filled.record

theorem Filled.regions_eq : after.space.regions = before.space.regions :=
  congrArg Record.regions filled.record

theorem Filled.held_of_some
    (had : before.holder frame = some who) : after.holder frame = some who :=
  holder_kept (filled.held frame) had

theorem Filled.entry (member : slot ∈ pages) (found : after.space.leaves slot = some leaf) :
    (before.space.leaves slot = none ∧ leaf.flags = flags slot ∨
      before.space.leaves slot = some leaf) ∧ before.holder leaf.frame = none ∧
      after.holder leaf.frame = some (.page before.space.name) := by
  obtain ⟨_, named, entry⟩ := filled.inside slot member
  cases named.symm.trans found
  exact entry

end

theorem Filled.trans
    (first : Filled pages flags before after) (second : Filled more flags after next)
    (apart : ∀ page ∈ pages, page ∉ more) : Filled (pages ++ more) flags before next where
  record := second.record.trans first.record
  budgets := second.budgets.trans first.budgets
  outside := by
    intro slot out
    rw [mem_append, not_or] at out
    rw [second.outside slot out.2, first.outside slot out.1]
  inside := by
    intro slot member
    rcases mem_append.mp member with early | late
    · obtain ⟨leaf, found, was, free, taken⟩ := first.inside slot early
      exact ⟨leaf, (second.outside slot (apart slot early)).trans found, was, free,
        second.held_of_some taken⟩
    obtain ⟨leaf, found, was, free, taken⟩ := second.inside slot late
    have untouched := first.outside slot fun early => apart slot early late
    rw [untouched] at was
    rw [first.name] at taken
    refine ⟨leaf, found, was, ?_, taken⟩
    rcases first.held leaf.frame with same | ⟨free', _⟩
    · exact same ▸ free
    · exact free'
  distinct := by
    -- A frame of the first lot was somebody's by the time the second lot was taken.
    have crossed : ∀ slot ∈ pages, ∀ other ∈ more, ∀ leaf leaf',
        next.space.leaves slot = some leaf →
        next.space.leaves other = some leaf' → leaf.frame ≠ leaf'.frame := by
      intro slot early other late leaf leaf' found found' same
      rw [second.outside slot (apart slot early)] at found
      have free := (second.entry late found').2.1
      rw [← same, (first.entry early found).2.2] at free
      cases free
    intro slot member other member' leaf leaf' found found' same
    rcases mem_append.mp member with early | late
    · rcases mem_append.mp member' with early' | late'
      · rw [second.outside _ (apart _ early)] at found
        rw [second.outside _ (apart _ early')] at found'
        exact first.distinct slot early other early' leaf leaf' found found' same
      · exact absurd same (crossed slot early other late' leaf leaf' found found')
    · rcases mem_append.mp member' with early' | late'
      · exact absurd same.symm (crossed other early' slot late leaf' leaf found' found)
      · exact second.distinct slot late other late' leaf leaf' found found' same
  held := by
    intro frame
    rcases first.held frame with same | ⟨free, taken⟩
    · rcases second.held frame with same' | ⟨free', taken'⟩
      · exact .inl (same'.trans same)
      rw [first.name] at taken'
      exact .inr ⟨same ▸ free', taken'.imp_right fun ⟨mine, slot, late, named⟩ =>
        ⟨mine, slot, mem_append_right _ late, named⟩⟩
    rcases second.held frame with same' | ⟨free', _⟩
    · rw [same']
      exact .inr ⟨free, taken.imp_right fun ⟨mine, slot, early, leaf, found, names⟩ =>
        ⟨mine, slot, mem_append_left _ early, leaf,
          (second.outside slot (apart slot early)).trans found, names⟩⟩
    · rcases taken with table | page
      · rw [table] at free'
        cases free'
      · rw [page.1] at free'
        cases free'
  contents := by
    intro frame had
    have had' : after.holder frame ≠ none := by
      obtain ⟨who, some⟩ := Option.ne_none_iff_exists'.mp had
      rw [first.held_of_some some]
      nofun
    rw [second.contents frame had', first.contents frame had]
  lawful := second.lawful ∘ first.lawful
  tabled := second.tabled ∘ first.tabled

structure Took (frame : Nat) (before after : State) : Prop where
  space : after.space = before.space
  budgets : after.machine.budgets = before.machine.budgets
  free : before.holder frame = none
  log : after.machine.log = .took (.page before.space.name) frame :: before.machine.log
  contents : ∀ other, other ≠ frame →
    after.machine.contents other = before.machine.contents other

theorem allocatePage_spec (state : State) :
    (∃ frame after, state.allocatePage = (some frame, after) ∧ Took frame state after) ∨
    ∃ after, state.allocatePage = (none, after) ∧ Supplied state after := by
  unfold allocatePage
  rcases allocate_spec state.machine (.page state.space.name) with
    ⟨frame, free, done⟩ | refused
  · rw [done]
    exact .inl ⟨frame, _, rfl, rfl, rfl, free, rfl, fun _ _ => rfl⟩
  · rw [refused]
    exact .inr ⟨_, rfl, supplied_tick state⟩

theorem Took.fill (took : Took frame before after) (page : Page) :
    Took frame before (after.fill frame page) :=
  { took with
    contents := fun other different =>
      (update_of_ne different _ _).trans (took.contents other different) }

theorem Took.holder (took : Took frame before after) (other : Nat) : after.holder other =
      if frame = other then some (.page before.space.name) else before.holder other := by
  rw [State.holder, Machine.holder, took.log, Ledger.holder_took]
  rfl

theorem Took.tabled (took : Took frame before after) (tabled : before.Tabled) : after.Tabled := by
  have kept : ∀ other who, before.holder other = some who → after.holder other = some who := by
    intro other who had
    have different : frame ≠ other := by
      rintro rfl
      rw [took.free] at had
      cases had
    rw [took.holder, if_neg different, had]
  constructor
  · rw [took.space]
    exact kept _ _ tabled.root
  · rw [took.space]
    exact fun table member => kept _ _ (tabled.held table member)
  · rw [took.space]
    exact tabled.distinct
  · rw [took.space]
    exact tabled.lower

section

variable (took : Took frame before taken)
include took

theorem Took.mine : taken.holder frame = some (.page before.space.name) := by
  rw [took.holder, if_pos rfl]

theorem Took.held_other (supplied : Supplied taken after)
    (different : frame ≠ other) : after.holder other = before.holder other ∨
      before.holder other = none ∧ after.holder other = some (.table before.space.name) := by
  have held := supplied.held other
  rwa [took.holder, if_neg different, took.space] at held

theorem Took.giveBack (supplied : Supplied taken after) :
    Filled [] flags before (after.freePage frame) where
  record := supplied.record.trans (congrArg AddressSpace.record took.space)
  budgets := supplied.budgets.trans took.budgets
  outside := by
    intro slot _
    change after.space.leaves slot = _
    rw [supplied.leaves, took.space]
  inside := nofun
  distinct := nofun
  held := by
    intro other
    have given : (after.freePage frame).holder other =
        if frame = other then none else after.holder other := rfl
    rw [given]
    by_cases same : frame = other
    · rw [if_pos same]
      exact .inl (same ▸ took.free.symm)
    rw [if_neg same]
    exact (took.held_other supplied same).imp_right (And.imp_right .inl)
  contents := by
    intro other had
    have different : other ≠ frame := by
      rintro rfl
      exact had took.free
    change after.machine.contents other = _
    rw [supplied.contents, took.contents other different]
  lawful := by
    intro lawful
    have before' : taken.Lawful := by
      rw [State.Lawful, took.log]
      exact ⟨took.free, lawful⟩
    refine ⟨?_, supplied.lawful before'⟩
    rw [supplied.name, took.space]
    exact supplied.held_of_some took.mine
  tabled := by
    intro tabled
    have kept := supplied.tabled (took.tabled tabled)
    have mine : after.holder frame = some (.page before.space.name) :=
      supplied.held_of_some took.mine
    -- The frame in hand is a page's, so no table's.
    have other : ∀ wanted, after.holder wanted = some (.table after.space.name) →
        (after.freePage frame).holder wanted = some (.table after.space.name) := by
      intro wanted had
      have different : frame ≠ wanted := by
        rintro rfl
        rw [mine] at had
        cases had
      exact (if_neg different).trans had
    exact ⟨other _ kept.root, fun table member => other _ (kept.held table member),
      kept.distinct, kept.lower⟩

theorem Took.entered {leaf : Leaf} (supplied : Supplied taken walked) (names : leaf.frame = frame)
    (was : before.space.leaves page = none ∧ leaf.flags = flags page ∨
      before.space.leaves page = some leaf) :
    Filled [page] flags before (walked.setLeaf page (some leaf)) where
  record := supplied.record.trans (congrArg AddressSpace.record took.space)
  budgets := supplied.budgets.trans took.budgets
  outside := by
    intro slot out
    rw [mem_singleton] at out
    change update walked.space.leaves page (some leaf) slot = _
    rw [update_of_ne out, supplied.leaves, took.space]
  inside := by
    intro slot member
    cases mem_singleton.mp member
    exact ⟨leaf, update_self _ _ _, was, names ▸ took.free,
      names ▸ supplied.held_of_some took.mine⟩
  distinct := by
    intro slot member other member' _ _ _ _ _
    rw [mem_singleton.mp member, mem_singleton.mp member']
  held := by
    intro other
    by_cases same : frame = other
    · subst same
      exact .inr ⟨took.free, .inr ⟨supplied.held_of_some took.mine, page, mem_singleton_self _,
        leaf, update_self _ _ _, names⟩⟩
    · exact (took.held_other supplied same).imp_right (And.imp_right .inl)
  contents := by
    intro other had
    have different : other ≠ frame := by
      rintro rfl
      exact had took.free
    change walked.machine.contents other = _
    rw [supplied.contents, took.contents other different]
  lawful := by
    intro lawful
    apply supplied.lawful
    rw [State.Lawful, took.log]
    exact ⟨took.free, lawful⟩
  tabled := by
    intro tabled
    have kept := supplied.tabled (took.tabled tabled)
    exact { kept with }

end

theorem mapFresh_spec (protection : Protection) (index : Nat)
    (low : page < lowerSlots) (state : State) :
    (∃ error after, mapFresh protection index page state = (.error error, after) ∧
      Filled [] (entryFlags protection) state after) ∨
    ∃ after, mapFresh protection index page state = (.ok (), after) ∧
      Filled [page] (entryFlags protection) state after := by
  unfold mapFresh
  rcases allocatePage_spec state with ⟨frame, taken, step, took⟩ | ⟨refused, step, supplied⟩
  · rw [step]
    have zeroed := took.fill Page.zero
    simp only
    rcases mapPage_spec (taken.fill frame Page.zero) frame (entryFlags protection page) low with
      ⟨error, after, mapped, supplied⟩ | ⟨walked, leaf, supplied, names, was, mapped⟩
    · rw [mapped]
      exact .inl ⟨_, _, rfl, zeroed.giveBack supplied⟩
    · rw [mapped]
      rw [zeroed.space] at was
      exact .inr ⟨_, rfl, zeroed.entered supplied names was⟩
  · rw [step]
    exact .inl ⟨_, _, rfl, supplied.filled⟩

/-- The pages listed name the frames `frames` has for them, and nothing else has moved. -/
structure Named (frames : Nat → Nat) (flags : Nat → EntryFlags) (pages : List Nat)
    (before after : State) : Prop where
  record : after.record = before.record
  budgets : after.machine.budgets = before.machine.budgets
  contents : after.machine.contents = before.machine.contents
  outside : ∀ slot, slot ∉ pages → after.space.leaves slot = before.space.leaves slot
  inside : ∀ slot ∈ pages, ∃ leaf, after.space.leaves slot = some leaf ∧
    leaf.frame = frames slot ∧
    (before.space.leaves slot = none ∧ leaf.flags = flags slot ∨
      before.space.leaves slot = some leaf)
  held : ∀ frame, after.holder frame = before.holder frame ∨
    before.holder frame = none ∧ after.holder frame = some (.table before.space.name)
  lawful : before.Lawful → after.Lawful
  tabled : before.Tabled → after.Tabled

theorem Supplied.named (supplied : Supplied before after) : Named frames flags [] before after where
  record := supplied.record
  budgets := supplied.budgets
  contents := supplied.contents
  outside := fun slot _ => by rw [supplied.leaves]
  inside := nofun
  held := supplied.held
  lawful := supplied.lawful
  tabled := supplied.tabled

theorem Named.regions_eq (named : Named frames flags pages before after) :
    after.space.regions = before.space.regions :=
  congrArg Record.regions named.record

theorem Named.trans
    (first : Named frames flags pages before after) (second : Named frames flags more after next)
    (apart : ∀ page ∈ pages, page ∉ more) : Named frames flags (pages ++ more) before next where
  record := second.record.trans first.record
  budgets := second.budgets.trans first.budgets
  contents := second.contents.trans first.contents
  outside := by
    intro slot out
    rw [mem_append, not_or] at out
    rw [second.outside slot out.2, first.outside slot out.1]
  inside := by
    intro slot member
    rcases mem_append.mp member with early | late
    · obtain ⟨leaf, found, names, was⟩ := first.inside slot early
      exact ⟨leaf, (second.outside slot (apart slot early)).trans found, names, was⟩
    · obtain ⟨leaf, found, names, was⟩ := second.inside slot late
      rw [first.outside slot fun early => apart slot early late] at was
      exact ⟨leaf, found, names, was⟩
  held := by
    have name : after.space.name = before.space.name := congrArg Record.name first.record
    exact fun frame => held_trans (first.held frame) (name ▸ second.held frame)
  lawful := second.lawful ∘ first.lawful
  tabled := second.tabled ∘ first.tabled

theorem mapGiven_spec (low : page < lowerSlots) (same : given index = frames page) (state : State) :
    (∃ error after, mapGiven given flags index page state = (.error error, after) ∧
      Named frames flags [] state after) ∨
    ∃ after, mapGiven given flags index page state = (.ok (), after) ∧
      Named frames flags [page] state after := by
  unfold mapGiven
  rcases mapPage_spec state (given index) (flags page) low with
    ⟨error, after, mapped, supplied⟩ | ⟨walked, leaf, supplied, names, was, mapped⟩
  · rw [mapped]
    exact .inl ⟨_, _, rfl, supplied.named⟩
  rw [mapped]
  refine .inr ⟨_, rfl, supplied.record, supplied.budgets, supplied.contents, ?_, ?_,
    supplied.held, supplied.lawful, ?_⟩
  · intro slot out
    rw [mem_singleton] at out
    change update walked.space.leaves page (some leaf) slot = _
    rw [update_of_ne out, supplied.leaves]
  · intro slot member
    cases mem_singleton.mp member
    exact ⟨leaf, update_self _ _ _, names.trans same, was⟩
  · intro tabled
    have kept := supplied.tabled tabled
    exact { kept with }

theorem mapEach_spec {R : List Nat → State → State → Prop}
    {map : Nat → Nat → State → Except VmError Unit × State} (refl : ∀ state, R [] state state)
    (trans : ∀ {pages more before after next}, R pages before after → R more after next →
      (∀ page ∈ pages, page ∉ more) → R (pages ++ more) before next) :
    ∀ {pages : List Nat} {index : Nat}, pages.Nodup →
      (∀ place page, pages[place]? = some page → ∀ state,
        (∃ error after, map (index + place) page state = (.error error, after) ∧ R [] state after) ∨
        ∃ after, map (index + place) page state = (.ok (), after) ∧ R [page] state after) → ∀ state,
        (∃ after, mapEach map index pages state = (.ok (), after) ∧ R pages state after) ∨
        ∃ error count after, mapEach map index pages state =
          (.error (error, index + count), after) ∧
          count < pages.length ∧ R (pages.take count) state after := by
  intro pages
  induction pages with
  | nil => exact fun _ _ state => .inl ⟨state, rfl, refl state⟩
  | cons page rest induction =>
    intro index nodup step state
    obtain ⟨fresh, nodup⟩ := nodup_cons.mp nodup
    rcases step 0 page rfl state with ⟨error, after, done, moved⟩ | ⟨after, done, moved⟩
    · refine .inr ⟨error, 0, after, ?_, Nat.succ_pos _, moved⟩
      rw [mapEach, ← Nat.add_zero index, done]
    have apart : ∀ other ∈ [page], other ∉ rest := forall_mem_singleton.mpr fresh
    have unfolded : mapEach map index (page :: rest) state =
        mapEach map (index + 1) rest after := by
      rw [mapEach, ← Nat.add_zero index, done]
    have later := fun place other found => step (place + 1) other found
    simp only [← Nat.add_assoc, Nat.add_right_comm index _ 1] at later
    rw [unfolded]
    rcases induction nodup later after with ⟨final, done', moved'⟩ |
      ⟨error, count, final, done', fewer, moved'⟩
    · exact .inl ⟨final, done', trans moved moved' apart⟩
    refine .inr ⟨error, count + 1, final, ?_, Nat.succ_lt_succ fewer, ?_⟩
    · rw [done', Nat.add_right_comm, Nat.add_assoc]
    · exact trans moved moved' fun other member early =>
        apart other member (mem_of_mem_take early)

variable (owner : Option Nat)

def payBack (frames : Nat) (budgets : Nat → FrameBudget) : Nat → FrameBudget :=
  fun domain =>
    if owner = some domain then
      { budgets domain with charged := (budgets domain).charged - frames }
    else budgets domain

def payFor (frames : Nat) (budgets : Nat → FrameBudget) : Nat → FrameBudget :=
  fun domain =>
    if owner = some domain then
      { budgets domain with charged := (budgets domain).charged + frames }
    else budgets domain

section

variable (budgets : Nat → FrameBudget)
include budgets

theorem payBack_payBack (first second : Nat) :
    payBack owner second (payBack owner first budgets) =
      payBack owner (first + second) budgets := by
  funext domain
  simp only [payBack]
  split <;> simp [Nat.sub_sub]

theorem payBack_zero : payBack owner 0 budgets = budgets := by
  funext domain
  simp [payBack]

theorem payBack_payFor (frames : Nat) :
    payBack owner frames (payFor owner frames budgets) = budgets := by
  funext domain
  simp only [payBack, payFor]
  split <;> simp

theorem payBack_some (domain frames : Nat) :
    payBack (some domain) frames budgets = update budgets domain
      { budgets domain with charged := (budgets domain).charged - frames } := by
  funext other
  by_cases same : domain = other
  · subst same
    simp [payBack]
  · have different : other ≠ domain := fun equal => same equal.symm
    simp [payBack, same, update_of_ne different]

theorem payFor_some (domain frames : Nat) :
    payFor (some domain) frames budgets = update budgets domain
      { budgets domain with charged := (budgets domain).charged + frames } := by
  funext other
  by_cases same : domain = other
  · subst same
    simp [payFor]
  · have different : other ≠ domain := fun equal => same equal.symm
    simp [payFor, same, update_of_ne different]

end

theorem release_budgets (state : State) (frames : Nat) : (state.release frames).machine.budgets =
      payBack state.space.owner frames state.machine.budgets := by
  unfold release
  cases state.space.owner with
  | none => rfl
  | some domain => rw [payBack_some]; rfl

def paid (state : State) (frames : Nat) : State :=
  { space := { state.space with charged := state.space.charged + frames }
    machine := { state.machine with
      budgets := payFor state.space.owner frames state.machine.budgets } }

theorem charge_eq_ok {frames : Nat} (paid : state.charge frames = .ok after) :
    after = state.paid frames := by
  unfold State.paid
  unfold charge at paid
  split at paid
  · next owner =>
      cases paid
      rw [owner]
      rfl
  next domain owner =>
  split at paid
  · cases paid
  next charged =>
  cases paid
  unfold Machine.chargeFrames at charged
  simp only at charged
  split at charged
  · cases charged
  split at charged
  · cases charged
  · cases charged
    rw [owner, payFor_some]

/-- The entries of the pages listed name frames the space took for pages, no two the same. -/
structure Owns (pages : List Nat) (state : State) : Prop where
  held : ∀ slot ∈ pages, ∀ leaf, state.space.leaves slot = some leaf →
    state.holder leaf.frame = some (.page state.space.name)
  distinct : ∀ slot ∈ pages, ∀ other ∈ pages, ∀ leaf leaf', state.space.leaves slot = some leaf →
    state.space.leaves other = some leaf' → leaf.frame = leaf'.frame → slot = other

def Names (state : State) (pages : List Nat) (frame : Nat) : Prop :=
  ∃ slot ∈ pages, ∃ leaf, state.space.leaves slot = some leaf ∧ leaf.frame = frame

/-- What the entries named has been given back, and `frames` have been returned to the envelope. -/
structure Dropped (pages : List Nat) (frames : Nat) (before after : State) : Prop where
  record : after.record = { before.record with charged := before.space.charged - frames }
  budgets : after.machine.budgets = payBack before.space.owner frames before.machine.budgets
  contents : after.machine.contents = before.machine.contents
  tables : after.space.tables = before.space.tables
  inside : ∀ slot ∈ pages, after.space.leaves slot = none
  outside : ∀ slot, slot ∉ pages → after.space.leaves slot = before.space.leaves slot
  given : ∀ frame, before.Names pages frame → after.holder frame = none
  kept : ∀ frame, ¬ before.Names pages frame → after.holder frame = before.holder frame
  lawful : before.Owns pages → before.Lawful → after.Lawful

theorem Dropped.regions_eq (dropped : Dropped pages freed before after) :
    after.space.regions = before.space.regions :=
  congrArg Record.regions dropped.record

theorem Dropped.refl (state : State) : Dropped [] 0 state state where
  record := rfl
  budgets := (payBack_zero _ _).symm
  contents := rfl
  tables := rfl
  inside := nofun
  outside := fun _ _ => rfl
  given := nofun
  kept := fun _ _ => rfl
  lawful := fun _ lawful => lawful

theorem Owns.mono (owns : state.Owns more)
    (subset : ∀ page ∈ pages, page ∈ more) : state.Owns pages where
  held := fun slot member => owns.held slot (subset slot member)
  distinct := fun slot member other member' =>
    owns.distinct slot (subset slot member) other (subset other member')

theorem Dropped.trans
    (early : Dropped pages first before after) (late : Dropped more second after next)
    (apart : ∀ page ∈ pages, page ∉ more) :
    Dropped (pages ++ more) (first + second) before next where
  record := by
    have charged : after.space.charged = before.space.charged - first :=
      congrArg Record.charged early.record
    rw [late.record, early.record, charged, Nat.sub_sub]
  budgets := by
    have owner : after.space.owner = before.space.owner := congrArg Record.owner early.record
    rw [late.budgets, early.budgets, owner, payBack_payBack]
  contents := late.contents.trans early.contents
  tables := late.tables.trans early.tables
  inside := by
    intro slot member
    by_cases last : slot ∈ more
    · exact late.inside slot last
    · rw [late.outside slot last]
      exact early.inside slot ((mem_append.mp member).resolve_right last)
  outside := by
    intro slot out
    rw [mem_append, not_or] at out
    rw [late.outside slot out.2, early.outside slot out.1]
  given := by
    rintro frame ⟨slot, member, leaf, found, names⟩
    by_cases again : after.Names more frame
    · exact late.given frame again
    rw [late.kept frame again]
    rcases mem_append.mp member with first | last
    · exact early.given frame ⟨slot, first, leaf, found, names⟩
    · have here := early.outside slot fun first => apart slot first last
      exact absurd ⟨slot, last, leaf, here.trans found, names⟩ again
  kept := by
    intro frame unnamed
    have first : ¬ before.Names pages frame := fun ⟨slot, member, named⟩ =>
      unnamed ⟨slot, mem_append_left _ member, named⟩
    have last : ¬ after.Names more frame := by
      rintro ⟨slot, member, leaf, found, names⟩
      rw [early.outside slot fun first => apart slot first member] at found
      exact unnamed ⟨slot, mem_append_right _ member, leaf, found, names⟩
    rw [late.kept frame last, early.kept frame first]
  lawful := by
    intro owns lawful
    refine late.lawful ?_ (early.lawful (owns.mono fun _ => mem_append_left _) lawful)
    have name : after.space.name = before.space.name := congrArg Record.name early.record
    have untouched : ∀ slot ∈ more, after.space.leaves slot = before.space.leaves slot :=
      fun slot member => early.outside slot fun first => apart slot first member
    constructor
    · intro slot member leaf found
      rw [untouched slot member] at found
      -- An entry of the first lot naming the same frame would be the same entry.
      have unnamed : ¬ before.Names pages leaf.frame := by
        rintro ⟨other, first, leaf', found', names⟩
        have same := owns.distinct other (mem_append_left _ first) slot
          (mem_append_right _ member) leaf' leaf found' found names
        exact apart other first (same ▸ member)
      rw [early.kept _ unnamed, name]
      exact owns.held slot (mem_append_right _ member) leaf found
    · intro slot member other member' leaf leaf' found found'
      rw [untouched slot member] at found
      rw [untouched other member'] at found'
      exact owns.distinct slot (mem_append_right _ member) other
        (mem_append_right _ member') leaf leaf' found found'

def present (state : State) (pages : List Nat) : List Nat :=
  pages.filter fun page => (state.space.leaves page).isSome

theorem unmapEach_spec (low : ∀ page ∈ pages, page < lowerSlots)
    (nodup : pages.Nodup) (state : State) : Dropped pages 0 state (unmapEach pages state).2 ∧
      (unmapEach pages state).1 = (state.present pages).length := by
  induction pages generalizing state with
  | nil => exact ⟨Dropped.refl state, rfl⟩
  | cons page rest induction =>
    obtain ⟨fresh, nodup⟩ := nodup_cons.mp nodup
    have low' : ∀ other ∈ rest, other < lowerSlots := fun other member =>
      low other (mem_cons_of_mem _ member)
    have apart : ∀ other ∈ [page], other ∉ rest := forall_mem_singleton.mpr fresh
    unfold unmapEach unmapPage
    rw [slotOf_lower (low page mem_cons_self)]
    cases found : state.space.leaves page with
    | none =>
      obtain ⟨dropped, count⟩ := induction low' nodup state
      have none : Dropped [page] 0 state state :=
        { Dropped.refl state with
          inside := fun slot member => by rw [mem_singleton.mp member, found]
          outside := fun _ _ => rfl
          given := fun frame ⟨slot, member, leaf, entry, _⟩ => by
            rw [mem_singleton.mp member, found] at entry
            cases entry
          kept := fun _ _ => rfl
          lawful := fun _ lawful => lawful }
      refine ⟨none.trans dropped apart, ?_⟩
      simp only [count, present, filter_cons, found, Option.isSome_none,
        Bool.false_eq_true, if_false]
    | some leaf =>
      let gone := (state.setLeaf page none).freePage leaf.frame
      obtain ⟨dropped, count⟩ := induction low' nodup gone
      have untouched : ∀ other, other ≠ page → gone.space.leaves other = state.space.leaves other :=
        fun other different => update_of_ne different _ _
      have one : Dropped [page] 0 state gone :=
        { record := rfl
          budgets := (payBack_zero _ _).symm
          contents := rfl
          tables := rfl
          inside := fun slot member => by
            rw [mem_singleton.mp member]
            exact update_self _ _ _
          outside := fun slot out => untouched slot fun same => out (same ▸ mem_singleton_self _)
          given := fun frame ⟨slot, member, leaf', entry, names⟩ => by
            rw [mem_singleton.mp member, found] at entry
            cases entry
            exact if_pos names
          kept := fun frame unnamed => if_neg fun names =>
            unnamed ⟨page, mem_singleton_self _, leaf, found, names⟩
          lawful := fun owns lawful =>
            ⟨owns.held page (mem_singleton_self _) leaf found, lawful⟩ }
      refine ⟨one.trans dropped apart, ?_⟩
      have same : gone.present rest = state.present rest :=
        filter_congr fun other member => by
          rw [untouched other fun equal => fresh (equal ▸ member)]
      simp only [present, filter_cons, found, Option.isSome_some, if_true, length_cons]
      rw [show (unmapEach rest gone).1 = _ from count, same, present]

theorem dropped_release (state : State) (frames : Nat) :
    Dropped [] frames state (state.release frames) where
  record := rfl
  budgets := release_budgets state frames
  contents := by
    unfold release
    cases state.space.owner <;> rfl
  tables := rfl
  inside := nofun
  outside := fun _ _ => rfl
  given := nofun
  kept := by
    intro frame _
    unfold release State.holder
    cases state.space.owner <;> rfl
  lawful := by
    intro _ lawful
    unfold release State.Lawful
    cases state.space.owner <;> exact lawful

theorem Dropped.release {frames : Nat} (dropped : Dropped pages frames before after)
    (more : Nat) : Dropped pages (frames + more) before (after.release more) := by
  have both := dropped.trans (dropped_release after more) fun _ _ => not_mem_nil
  rwa [append_nil] at both

def Lower (range : VirtRange) : Prop :=
  range.stop ≤ lowerSlots

instance (range : VirtRange) : Decidable (Lower range) :=
  inferInstanceAs (Decidable (_ ≤ _))

theorem Lower.page (low : Lower range) {page : Nat}
    (member : page ∈ range.pagesIter) : page < lowerSlots :=
  lt_of_lt_of_le (VirtRange.mem_pagesIter.mp member).2 low

theorem nodup_pagesIter (range : VirtRange) : range.pagesIter.Nodup :=
  nodup_range'

theorem unmapPages_spec (low : Lower range) (count : Nat) (state : State) :
    (state.unmapPages range count).1 = (state.present (range.pagesIter.take count)).length ∧
      Dropped (range.pagesIter.take count) (state.unmapPages range count).1 state
        (state.unmapPages range count).2 := by
  obtain ⟨dropped, freed⟩ := unmapEach_spec
    (fun page member => low.page (mem_of_mem_take member))
    ((nodup_pagesIter range).sublist (take_sublist count _)) state
  refine ⟨freed, ?_⟩
  have released := dropped.release (unmapEach (range.pagesIter.take count) state).1
  rwa [Nat.zero_add] at released

theorem unmapOneByOne_spec (low : ∀ page ∈ pages, page < lowerSlots)
    (nodup : pages.Nodup) (state : State) :
    Dropped pages (state.present pages).length state (unmapOneByOne pages state) := by
  induction pages generalizing state with
  | nil => exact Dropped.refl state
  | cons page rest induction =>
    obtain ⟨fresh, nodup⟩ := nodup_cons.mp nodup
    have apart : ∀ other ∈ [page], other ∉ rest := forall_mem_singleton.mpr fresh
    obtain ⟨one, freed⟩ := unmapEach_spec
      (fun other member => low other (mem_singleton.mp member ▸ mem_cons_self))
      (nodup_singleton page) state
    set went := unmapEach [page] state
    have first := one.release went.1
    rw [Nat.zero_add] at first
    have later := induction (fun other member => low other (mem_cons_of_mem _ member)) nodup
      (went.2.release went.1)
    have both := first.trans later apart
    have same : (went.2.release went.1).present rest = state.present rest :=
      filter_congr fun other member => by
        rw [first.outside other fun equal => fresh (mem_singleton.mp equal ▸ member)]
    have total : went.1 + ((went.2.release went.1).present rest).length =
        (state.present (page :: rest)).length := by
      rw [same, freed, ← length_append, present, present, ← filter_append]
      rfl
    rw [total] at both
    exact both

/-- The entries of the pages listed have the flags given, and nothing else has moved. -/
structure Reflagged (flags : Nat → EntryFlags) (pages : List Nat) (before after : State) :
    Prop where
  record : after.record = before.record
  budgets : after.machine.budgets = before.machine.budgets
  contents : after.machine.contents = before.machine.contents
  log : after.machine.log = before.machine.log
  tables : after.space.tables = before.space.tables
  inside : ∀ slot ∈ pages, after.space.leaves slot =
    (before.space.leaves slot).map fun leaf => { leaf with flags := flags slot }
  outside : ∀ slot, slot ∉ pages → after.space.leaves slot = before.space.leaves slot

theorem Reflagged.regions_eq (flagged : Reflagged flags pages before after) :
    after.space.regions = before.space.regions :=
  congrArg Record.regions flagged.record

theorem protectPage_spec (state : State) (flags : Nat → EntryFlags) (low : page < lowerSlots) :
    Reflagged flags [page] state (state.protectPage page (flags page)) := by
  unfold protectPage
  rw [slotOf_lower low]
  cases found : state.space.leaves page with
  | none =>
    refine ⟨rfl, rfl, rfl, rfl, rfl, ?_, fun _ _ => rfl⟩
    intro slot member
    rw [mem_singleton.mp member, found]
    rfl
  | some leaf =>
    refine ⟨rfl, rfl, rfl, rfl, rfl, ?_, ?_⟩
    · intro slot member
      rw [mem_singleton.mp member, found]
      exact update_self _ _ _
    · intro slot out
      exact update_of_ne (fun same => out (mem_singleton.mpr same)) _ _

theorem protectEach_spec (flags : Nat → EntryFlags)
    (low : ∀ page ∈ pages, page < lowerSlots) (nodup : pages.Nodup) (state : State) :
    Reflagged flags pages state (protectEach flags pages state) := by
  induction pages generalizing state with
  | nil => exact ⟨rfl, rfl, rfl, rfl, rfl, nofun, fun _ _ => rfl⟩
  | cons page rest induction =>
    obtain ⟨fresh, nodup⟩ := nodup_cons.mp nodup
    have one := protectPage_spec state flags (low page mem_cons_self)
    have later := induction (fun other member => low other (mem_cons_of_mem _ member)) nodup
      (state.protectPage page (flags page))
    refine ⟨later.record.trans one.record, later.budgets.trans one.budgets,
      later.contents.trans one.contents, later.log.trans one.log,
      later.tables.trans one.tables, ?_, ?_⟩
    · intro slot member
      rcases mem_cons.mp member with rfl | member
      · rw [protectEach, later.outside _ fresh, one.inside _ (mem_singleton_self _)]
      have different : slot ∉ [page] := fun same =>
        fresh (mem_singleton.mp same ▸ member)
      rw [protectEach, later.inside slot member, one.outside slot different]
    · intro slot out
      rw [mem_cons, not_or] at out
      rw [protectEach, later.outside slot out.2,
        one.outside slot fun same => out.1 (mem_singleton.mp same)]

theorem mapFreshEach_spec (low : Lower range) (protection : Protection) (state : State) :
    (∃ after, mapEach (mapFresh protection) 0 range.pagesIter state = (.ok (), after) ∧
      Filled range.pagesIter (entryFlags protection) state after) ∨ ∃ error count after,
      mapEach (mapFresh protection) 0 range.pagesIter state = (.error (error, count), after) ∧
        count < range.pages ∧
        Filled (range.pagesIter.take count) (entryFlags protection) state after := by
  have step := @mapEach_spec (fun pages => Filled pages (entryFlags protection))
    (mapFresh protection) (fun state => (Supplied.refl state).filled)
    (fun first second apart => first.trans second apart) range.pagesIter 0 (nodup_pagesIter range)
    (fun place page found state => mapFresh_spec protection _
      (low.page (mem_of_getElem? found)) state) state
  rcases step with done | ⟨error, count, after, done, fewer, filled⟩
  · exact .inl done
  rw [Nat.zero_add] at done
  rw [VirtRange.pagesIter, length_range'] at fewer
  exact .inr ⟨error, count, after, done, fewer, filled⟩

theorem getElem?_pagesIter
    (found : range.pagesIter[place]? = some page) : page = range.first + place := by
  rw [VirtRange.pagesIter, List.getElem?_eq_some_iff] at found
  obtain ⟨_, rfl⟩ := found
  rw [getElem_range', Nat.one_mul]

theorem mapGivenEach_spec (low : Lower range) (frames : Nat → Nat)
    (flags : Nat → EntryFlags) (state : State) :
    (∃ after, mapEach (mapGiven frames flags) 0 range.pagesIter state = (.ok (), after) ∧
      Named (fun slot => frames (slot - range.first)) flags range.pagesIter state after) ∨
    ∃ error count after,
      mapEach (mapGiven frames flags) 0 range.pagesIter state = (.error (error, count), after) ∧
        Named (fun slot => frames (slot - range.first)) flags (range.pagesIter.take count)
          state after := by
  have step := @mapEach_spec (Named (fun slot => frames (slot - range.first)) flags)
    (mapGiven frames flags) (fun state => (Supplied.refl state).named)
    (fun first second apart => first.trans second apart) range.pagesIter 0 (nodup_pagesIter range)
    (fun place page found state => mapGiven_spec (low.page (mem_of_getElem? found))
      (by rw [getElem?_pagesIter found, Nat.zero_add, Nat.add_sub_cancel_left]) state) state
  rcases step with done | ⟨error, count, after, done, _, named⟩
  · exact .inl done
  · rw [Nat.zero_add] at done
    exact .inr ⟨error, count, after, done, named⟩

end State

end Bhaskix.Vm
