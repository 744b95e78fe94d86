import Bhaskix.Vm.Lifetime
import Bhaskix.Vm.Permission

/-!
The envelope against the entries: an address space that maps only anonymous memory is charged for
exactly the pages that have a frame, gives the charge back with the frames, and leaves nothing
behind when it is destroyed.
-/

namespace Bhaskix.Vm

open Library Mm
open List
open VirtRange (mem_pagesIter)

namespace State

variable {state before after : State}

def entries (state : State) : Finset Nat :=
  (Finset.range lowerSlots).filter fun slot => (state.space.leaves slot).isSome

variable {slot : Nat}

theorem mem_entries :
    slot ∈ state.entries ↔ slot < lowerSlots ∧ (state.space.leaves slot).isSome = true := by
  rw [entries, Finset.mem_filter, Finset.mem_range]

variable {pages : List Nat} {base : Nat → FrameBudget} {page : Nat} {range : VirtRange}
  {protection : Protection}

section

variable (filled : Filled pages flags before after) (low : ∀ page ∈ pages, page < lowerSlots)
include filled low

theorem entries_filled :
    after.entries = before.entries ∪ pages.toFinset := by
  ext slot
  rw [Finset.mem_union, mem_toFinset, mem_entries, mem_entries]
  by_cases member : slot ∈ pages
  · obtain ⟨leaf, found, _⟩ := filled.inside slot member
    rw [found]
    exact ⟨fun _ => .inr member, fun _ => ⟨low slot member, rfl⟩⟩
  · rw [filled.outside slot member]
    exact ⟨.inl, fun entry => entry.resolve_right member⟩

theorem card_entries_filled (nodup : pages.Nodup)
    (vacant : ∀ page ∈ pages, before.space.leaves page = none) :
    after.entries.card = before.entries.card + pages.length := by
  have apart : Disjoint before.entries pages.toFinset := by
    rw [Finset.disjoint_left]
    intro slot entry member
    have some := (mem_entries.mp entry).2
    rw [vacant slot (mem_toFinset.mp member)] at some
    cases some
  rw [entries_filled filled low, Finset.card_union_of_disjoint apart,
    toFinset_card_of_nodup nodup]

end

variable {map next : RangeMap}

theorem entries_dropped (dropped : Dropped pages frames before after) :
    after.entries = before.entries \ pages.toFinset := by
  ext slot
  rw [Finset.mem_sdiff, mem_toFinset, mem_entries, mem_entries]
  by_cases member : slot ∈ pages
  · rw [dropped.inside slot member]
    exact ⟨fun entry => (nomatch entry.2), fun entry => absurd member entry.2⟩
  · rw [dropped.outside slot member]
    exact ⟨fun entry => ⟨entry, member⟩, And.left⟩

theorem card_entries_dropped
    (dropped : Dropped pages frames before after) (low : ∀ page ∈ pages, page < lowerSlots)
    (nodup : pages.Nodup) :
    after.entries.card + (before.present pages).length = before.entries.card := by
  have shared : before.entries ∩ pages.toFinset = (before.present pages).toFinset := by
    ext slot
    rw [Finset.mem_inter, mem_toFinset, mem_toFinset, mem_entries, present,
      mem_filter]
    exact ⟨fun here => ⟨here.2, here.1.2⟩, fun here => ⟨⟨low slot here.1, here.2⟩, here.1⟩⟩
  have once : (before.present pages).Nodup := nodup.filter _
  have length : (before.present pages).length = (before.entries ∩ pages.toFinset).card := by
    rw [shared, toFinset_card_of_nodup once]
  rw [entries_dropped dropped, length, Finset.card_sdiff_add_card_inter]

theorem payFor_payFor (owner : Option Nat) (first second : Nat) (budgets : Nat → FrameBudget) :
    payFor owner second (payFor owner first budgets) = payFor owner (first + second) budgets := by
  funext domain
  simp only [payFor]
  split <;> simp [Nat.add_assoc]

/-- The books of a space whose entries are all its own, against the envelopes as they were. -/
structure Balanced (base : Nat → FrameBudget) (state : State) : Prop where
  low : state.Low
  covered : ∀ slot leaf, slot < lowerSlots → state.space.leaves slot = some leaf →
    ∃ policy, state.space.regions.policyAt slot = some policy ∧ Freeable policy
  held : ∀ slot leaf, slot < lowerSlots → state.space.leaves slot = some leaf →
    state.holder leaf.frame = some (.page state.space.name)
  distinct : ∀ slot other leaf leaf', slot < lowerSlots → other < lowerSlots →
    state.space.leaves slot = some leaf → state.space.leaves other = some leaf' →
    leaf.frame = leaf'.frame → slot = other
  charged : state.space.charged = state.entries.card
  budgets : state.machine.budgets = payFor state.space.owner state.space.charged base

/-- The books of a space that maps only anonymous memory, against the envelopes as they were. -/
structure Settled (base : Nat → FrameBudget) (state : State) : Prop extends
    Balanced base state where
  plain : ∀ page policy, state.space.regions.policyAt page = some policy →
    policy.backing = .anonymous ∧ policy.flags.copyOnWrite = false
  named : ∀ frame, state.holder frame = some (.page state.space.name) →
    ∃ slot leaf, slot < lowerSlots ∧ state.space.leaves slot = some leaf ∧ leaf.frame = frame
  lawful : state.Lawful
  tabled : state.Tabled

theorem Balanced.owns (balanced : state.Balanced base)
    (low : ∀ page ∈ pages, page < lowerSlots) : state.Owns pages where
  held := fun slot member leaf found => balanced.held slot leaf (low slot member) found
  distinct := fun slot member other member' leaf leaf' =>
    balanced.distinct slot other leaf leaf' (low slot member) (low other member')

def PlainMap (map : RangeMap) : Prop :=
  ∀ page policy, map.policyAt page = some policy →
    policy.backing = .anonymous ∧ policy.flags.copyOnWrite = false

def SameFrames (before after : State) : Prop :=
  ∀ slot, slot < lowerSlots →
    (after.space.leaves slot).map Leaf.frame = (before.space.leaves slot).map Leaf.frame

theorem leaf_of_frames (frames : SameFrames before after) (lower : slot < lowerSlots)
    (found : after.space.leaves slot = some leaf) :
    ∃ old, before.space.leaves slot = some old ∧ old.frame = leaf.frame := by
  have same := frames slot lower
  rw [found, Option.map_some, eq_comm, Option.map_eq_some_iff] at same
  exact same

theorem Balanced.same (balanced : before.Balanced base)
    (record : after.space.record = { before.space.record with regions })
    (budgets : after.machine.budgets = before.machine.budgets) (frames : SameFrames before after)
    (kept : ∀ frame who, before.holder frame = some who → after.holder frame = some who)
    (low : after.Low)
    (covered : ∀ slot leaf, slot < lowerSlots → after.space.leaves slot = some leaf →
      ∃ policy, after.space.regions.policyAt slot = some policy ∧ Freeable policy) :
    after.Balanced base := by
  have charged : after.space.charged = before.space.charged := congrArg Record.charged record
  constructor
  case low => exact low
  case covered => exact covered
  case held =>
    intro slot leaf lower found
    obtain ⟨old, was, names⟩ := leaf_of_frames frames lower found
    rw [show after.space.name = before.space.name from congrArg Record.name record]
    exact kept leaf.frame _ (names ▸ balanced.held slot old lower was)
  case distinct =>
    intro slot other leaf leaf' lower lower' found found' same
    obtain ⟨old, was, names⟩ := leaf_of_frames frames lower found
    obtain ⟨old', was', names'⟩ := leaf_of_frames frames lower' found'
    exact balanced.distinct slot other old old' lower lower' was was'
      (names.trans (same.trans names'.symm))
  case charged =>
    have entries : after.entries = before.entries := by
      ext slot
      rw [mem_entries, mem_entries]
      refine and_congr_right fun lower => ?_
      rw [← Option.isSome_map (f := Leaf.frame), frames slot lower, Option.isSome_map]
    rw [charged, balanced.charged, entries]
  case budgets =>
    rw [budgets, balanced.budgets, charged]
    exact congrArg (payFor · _ _) (congrArg Record.owner record).symm

theorem Settled.same (settled : before.Settled base) (balanced : after.Balanced base)
    (record : after.space.record = { before.space.record with regions })
    (frames : SameFrames before after)
    (held : ∀ frame, after.holder frame = before.holder frame ∨
      before.holder frame = none ∧ after.holder frame = some (.table before.space.name))
    (lawful : after.Lawful) (tabled : after.Tabled) (plain : PlainMap after.space.regions) :
    after.Settled base := by
  refine { balanced with plain, lawful, tabled, named := ?_ }
  intro frame mine
  rw [show after.space.name = before.space.name from congrArg Record.name record] at mine
  rcases held frame with same | ⟨_, table⟩
  · obtain ⟨slot, leaf, lower, found, names⟩ := settled.named frame (same.symm.trans mine)
    obtain ⟨leaf', found', names'⟩ :=
      leaf_of_frames (fun slot lower => (frames slot lower).symm) lower found
    exact ⟨slot, leaf', lower, found', names'.trans names⟩
  · cases mine.symm.trans table

theorem Idle.leaves_lower (idle : Idle before after) (balanced : before.Balanced base)
    (lower : slot < lowerSlots) : after.space.leaves slot = before.space.leaves slot := by
  rcases idle.still.leaves slot with same | ⟨_, leaf, found, free⟩
  · exact same
  · cases (balanced.held slot leaf lower found).symm.trans free

theorem Idle.balanced (idle : Idle before after) (balanced : before.Balanced base) :
    after.Balanced base := by
  refine balanced.same idle.record idle.budgets ?_
    (fun frame _ => holder_kept (idle.still.held frame))
      (low_of_regions balanced.low idle.regions) ?_
  · intro slot lower
    rw [idle.leaves_lower balanced lower]
  · intro slot leaf lower found
    rw [idle.regions]
    exact balanced.covered slot leaf lower ((idle.leaves_lower balanced lower).symm.trans found)

theorem Idle.settled (idle : Idle before after)
    (settled : before.Settled base) : after.Settled base := by
  refine settled.same (idle.balanced settled.toBalanced) idle.record ?_ idle.still.held
    (idle.still.lawful settled.lawful) (idle.still.tabled settled.tabled) ?_
  · intro slot lower
    rw [idle.leaves_lower settled.toBalanced lower]
  · rw [idle.regions]
    exact settled.plain

theorem Balanced.vacant (balanced : state.Balanced base)
    (low : slot < lowerSlots) (bare : state.space.regions.policyAt slot = none) :
    state.space.leaves slot = none := by
  cases found : state.space.leaves slot with
  | none => rfl
  | some leaf =>
    obtain ⟨policy, covered, _⟩ := balanced.covered slot leaf low found
    cases bare.symm.trans covered

theorem policyAt_kept (inserted : map.insert region true = .ok next)
    (found : map.policyAt page = some policy) : next.policyAt page = some policy := by
  rw [RangeMap.policyAt_insert inserted, if_neg, found]
  intro inside
  cases (RangeMap.policyAt_of_insert inserted inside).symm.trans found

theorem plain_insert (settled : before.Settled base)
    (inserted : before.space.regions.insert (.new range protection .anonymous) true = .ok regions) :
    PlainMap regions := by
  intro page policy found
  rw [RangeMap.policyAt_insert inserted] at found
  split at found
  · cases found
    exact ⟨rfl, rfl⟩
  · exact settled.plain page policy found

theorem Covers.balanced (covers : Covers region before after) (balanced : before.Balanced base)
    (lower : Lower region.range) : after.Balanced base := by
  have low := covers.low balanced.low lower
  obtain ⟨regions, inserted, supplied⟩ := covers
  have same : after.space.regions = regions := supplied.regions_eq
  have leaves : after.space.leaves = before.space.leaves := supplied.leaves
  refine balanced.same supplied.record supplied.budgets (fun slot _ => by rw [leaves])
    (fun frame who had => supplied.held_of_some had) low ?_
  intro slot leaf lower found
  obtain ⟨policy, covered, freeable⟩ := balanced.covered slot leaf lower (leaves ▸ found)
  exact ⟨policy, same ▸ policyAt_kept inserted covered, freeable⟩

theorem Covers.settled (covers : Covers (.new range protection .anonymous) before after)
    (settled : before.Settled base) (lower : Lower range) : after.Settled base := by
  have balanced := covers.balanced settled.toBalanced lower
  obtain ⟨regions, inserted, supplied⟩ := covers
  refine settled.same balanced supplied.record ?_ supplied.held (supplied.lawful settled.lawful)
    (supplied.tabled settled.tabled) ?_
  · intro slot _
    rw [supplied.leaves]
    rfl
  · rw [show after.space.regions = regions from supplied.regions_eq]
    exact plain_insert settled inserted

section

variable (filled : Filled pages flags ((before.setRegions regions).paid pages.length) after)
  (lower : ∀ page ∈ pages, page < lowerSlots) (nodup : pages.Nodup)
  (vacant : ∀ page ∈ pages, before.space.leaves page = none) (low : after.Low)
  (kept : ∀ page policy, before.space.regions.policyAt page = some policy →
      regions.policyAt page = some policy)
  (covered : ∀ page ∈ pages, ∃ policy, regions.policyAt page = some policy ∧ Freeable policy)
include filled lower nodup vacant low kept covered

theorem Balanced.fill (balanced : before.Balanced base) : after.Balanced base := by
  have same : after.space.regions = regions := filled.regions_eq
  have name : after.space.name = before.space.name := filled.name
  have owner : after.space.owner = before.space.owner := congrArg Record.owner filled.record
  have charged : after.space.charged = before.space.charged + pages.length :=
    congrArg Record.charged filled.record
  have old : ∀ {slot leaf}, slot ∉ pages → after.space.leaves slot = some leaf →
      before.space.leaves slot = some leaf := fun out found =>
    (filled.outside _ out).symm.trans found
  constructor
  case low => exact low
  case covered =>
    intro slot leaf lower found
    rw [same]
    by_cases member : slot ∈ pages
    · exact covered slot member
    · obtain ⟨policy, was, freeable⟩ := balanced.covered slot leaf lower (old member found)
      exact ⟨policy, kept slot policy was, freeable⟩
  case held =>
    intro slot leaf lower found
    rw [name]
    by_cases member : slot ∈ pages
    · exact (filled.entry member found).2.2
    · exact filled.held_of_some (balanced.held slot leaf lower (old member found))
  case distinct =>
    intro slot other leaf leaf' lower lower' found found' names
    by_cases member : slot ∈ pages
    · by_cases member' : other ∈ pages
      · exact filled.distinct slot member other member' leaf leaf' found found' names
      -- A frame that was free cannot be one an old entry names.
      have mine := balanced.held other leaf' lower' (old member' found')
      rw [← names] at mine
      cases (filled.entry member found).2.1.symm.trans mine
    · by_cases member' : other ∈ pages
      · have mine := balanced.held slot leaf lower (old member found)
        rw [names] at mine
        cases (filled.entry member' found').2.1.symm.trans mine
      · exact balanced.distinct slot other leaf leaf' lower lower' (old member found)
          (old member' found') names
  case charged =>
    have counted := card_entries_filled filled lower nodup vacant
    rw [charged, balanced.charged]
    exact counted.symm
  case budgets =>
    rw [filled.budgets, owner, charged, ← payFor_payFor, ← balanced.budgets]
    rfl

theorem Settled.fill (settled : before.Settled base) (plain : PlainMap regions) :
    after.Settled base := by
  have same : after.space.regions = regions := filled.regions_eq
  have balanced := settled.toBalanced.fill filled lower nodup vacant low kept covered
  refine { balanced with
    plain := same ▸ plain, named := ?_, lawful := filled.lawful settled.lawful,
    tabled := filled.tabled settled.tabled }
  intro frame mine
  rw [show after.space.name = before.space.name from filled.name] at mine
  rcases filled.held frame with kept | ⟨_, table | ⟨_, slot, member, leaf, found, names⟩⟩
  · obtain ⟨slot, leaf, lower, found, names⟩ := settled.named frame (kept.symm.trans mine)
    have out : slot ∉ pages := by
      intro member
      cases (vacant slot member).symm.trans found
    exact ⟨slot, leaf, lower, (filled.outside slot out).trans found, names⟩
  · cases mine.symm.trans table
  · exact ⟨slot, leaf, lower slot member, found, names⟩

end

section

variable (steady : before.Settled base)
include steady

theorem Fills.settled (fills : Fills range protection before after)
    (lower : Lower range) : after.Settled base := by
  have low := fills.low steady.low lower
  obtain ⟨present, regions, inserted, filled⟩ := fills
  have length : range.pagesIter.length = range.pages := by
    rw [VirtRange.pagesIter, length_range']
  rw [← length] at filled
  refine steady.fill filled (fun page => lower.page) (nodup_pagesIter range) ?_ low
    (fun page policy => policyAt_kept inserted) ?_ (plain_insert steady inserted)
  · intro page member
    exact steady.toBalanced.vacant (lower.page member)
      (RangeMap.policyAt_of_insert inserted (mem_pagesIter.mp member))
  · intro page member
    refine ⟨(VmRegion.new range protection .anonymous).toPolicy, ?_, rfl, present⟩
    rw [RangeMap.policyAt_insert inserted]
    exact if_pos (mem_pagesIter.mp member)

theorem Faults.settled (faults : Faults page before after) : after.Settled base := by
  have low := low_of_regions steady.low faults.regions
  obtain ⟨lower, vacant, policy, covered, present, _, filled⟩ := faults
  have only : ∀ other ∈ [page], other = page := fun other => mem_singleton.mp
  have filled' : Filled [page] (entryFlags policy.protection)
      ((before.setRegions before.space.regions).paid [page].length) after := filled
  refine steady.fill filled'
    (fun other member => only other member ▸ lower) (nodup_singleton page)
    (fun other member => only other member ▸ vacant) low (fun _ _ found => found) ?_ steady.plain
  intro other member
  rw [only other member]
  exact ⟨policy, covered, (steady.plain page policy covered).1, present⟩

theorem Settled.drop
    (dropped : Dropped pages (before.present pages).length (before.setRegions regions) after)
    (lower : ∀ page ∈ pages, page < lowerSlots) (nodup : pages.Nodup) (low : after.Low)
    (plain : PlainMap regions)
    (kept : ∀ page policy, page ∉ pages → before.space.regions.policyAt page = some policy →
      regions.policyAt page = some policy) : after.Settled base := by
  have same : after.space.regions = regions := dropped.regions_eq
  have name : after.space.name = before.space.name := congrArg Record.name dropped.record
  have owner : after.space.owner = before.space.owner := congrArg Record.owner dropped.record
  have charged : after.space.charged = before.space.charged - (before.present pages).length :=
    congrArg Record.charged dropped.record
  have counted : after.entries.card + ((before.setRegions regions).present pages).length =
      (before.setRegions regions).entries.card := card_entries_dropped dropped lower nodup
  change after.entries.card + (before.present pages).length = before.entries.card at counted
  have owns : (before.setRegions regions).Owns pages :=
    ⟨(steady.toBalanced.owns lower).held, (steady.toBalanced.owns lower).distinct⟩
  have old : ∀ {slot leaf}, after.space.leaves slot = some leaf →
      slot ∉ pages ∧ before.space.leaves slot = some leaf := by
    intro slot leaf found
    have out : slot ∉ pages := by
      intro member
      cases (dropped.inside slot member).symm.trans found
    exact ⟨out, (dropped.outside slot out).symm.trans found⟩
  refine ⟨⟨low, ?covered, ?held, ?distinct, ?charged, ?budgets⟩, same ▸ plain, ?named,
    dropped.lawful owns steady.lawful, dropped.tabled owns steady.tabled⟩
  case covered =>
    intro slot leaf lower found
    obtain ⟨out, was⟩ := old found
    obtain ⟨policy, covered, freeable⟩ := steady.covered slot leaf lower was
    rw [same]
    exact ⟨policy, kept slot policy out covered, freeable⟩
  case held =>
    intro slot leaf lower' found
    obtain ⟨out, was⟩ := old found
    have unnamed : ¬ (before.setRegions regions).Names pages leaf.frame := by
      rintro ⟨other, member, leaf', found', names⟩
      have equal := steady.distinct other slot leaf' leaf (lower other member) lower' found' was
        names
      exact out (equal ▸ member)
    rw [dropped.kept leaf.frame unnamed, name]
    exact steady.held slot leaf lower' was
  case distinct =>
    intro slot other leaf leaf' lower lower' found found'
    exact steady.distinct slot other leaf leaf' lower lower' (old found).2 (old found').2
  case named =>
    intro frame mine
    by_cases gone : (before.setRegions regions).Names pages frame
    · cases (dropped.given frame gone).symm.trans mine
    rw [dropped.kept frame gone, name] at mine
    obtain ⟨slot, leaf, lower', found, names⟩ := steady.named frame mine
    have out : slot ∉ pages := fun member => gone ⟨slot, member, leaf, found, names⟩
    exact ⟨slot, leaf, lower', (dropped.outside slot out).trans found, names⟩
  case charged =>
    rw [charged, steady.charged]
    omega
  case budgets =>
    have split : before.space.charged = after.space.charged + (before.present pages).length := by
      rw [charged, steady.charged]
      omega
    rw [dropped.budgets, owner]
    change payBack before.space.owner _ before.machine.budgets = _
    rw [steady.budgets, split, ← payFor_payFor, payBack_payFor]

theorem plain_cut (cut : Cut range before.space.regions regions) : PlainMap regions := by
  intro page policy found
  rw [cut.policy] at found
  split at found
  · cases found
  · exact steady.plain page policy found

theorem Unmaps.settled (unmaps : Unmaps range before after) (lower : Lower range) :
    after.Settled base := by
  have low := unmaps.low steady.low
  obtain ⟨_, regions, cut, dropped⟩ := unmaps
  refine steady.drop dropped (fun page => lower.page) (nodup_pagesIter range) low
    (plain_cut steady cut) ?_
  intro page policy out found
  rw [cut.policy, if_neg fun inside => out (mem_pagesIter.mpr inside), found]

theorem Discards.settled (discards : Discards before after) : after.Settled base := by
  have low := low_of_regions steady.low discards.regions
  obtain ⟨pages, nodup, anonymous, dropped⟩ := discards
  have dropped' : Dropped pages (before.present pages).length
      (before.setRegions before.space.regions) after := dropped
  exact steady.drop dropped' (fun page member => (anonymous page member).1) nodup low steady.plain
    (fun _ _ _ found => found)

theorem Uncovers.vacant (uncovers : Uncovers range before after) (lower : Lower range)
    (inside : page ∈ range) : before.space.leaves page = none := by
  cases found : before.space.leaves page with
  | none => rfl
  | some leaf =>
    obtain ⟨policy, covered, other⟩ := uncovers.1 page inside
    obtain ⟨policy', covered', freeable⟩ := steady.covered page leaf
      (lower.page (mem_pagesIter.mpr inside)) found
    cases covered.symm.trans covered'
    exact absurd freeable other

theorem Uncovers.settled (uncovers : Uncovers range before after)
    (lower : Lower range) : after.Settled base := by
  have low := uncovers.low steady.low
  have vacant : ∀ page ∈ range, before.space.leaves page = none := fun page inside =>
    uncovers.vacant steady lower inside
  obtain ⟨_, regions, cut, supplied⟩ := uncovers
  have same : after.space.regions = regions := supplied.regions_eq
  have leaves : after.space.leaves = before.space.leaves := supplied.leaves
  refine steady.same (steady.toBalanced.same supplied.record supplied.budgets ?_
    (fun frame who had => supplied.held_of_some had) low ?_) supplied.record ?_ supplied.held
    (supplied.lawful steady.lawful) (supplied.tabled steady.tabled) ?_
  · exact fun slot _ => by rw [leaves]
  · intro slot leaf lower' found
    rw [leaves] at found
    have outside : slot ∉ range := by
      intro inside
      cases (vacant slot inside).symm.trans found
    rw [same, cut.policy, if_neg outside]
    exact steady.covered slot leaf lower' found
  · exact fun slot _ => by rw [leaves]
  · rw [same]
    exact plain_cut steady cut

theorem Reprotects.settled (moved : Reprotects range protection before after)
    (bare : protection.present = true ∨ ∀ page ∈ range, before.space.leaves page = none) :
    after.Settled base := by
  have low := moved.low steady.low
  obtain ⟨region, regions, cut, flagged⟩ := moved
  have same : after.space.regions = regions := flagged.regions_eq
  have anonymous := steady.plain _ _ (cut.policyAt_of_wanted range.first_mem)
  have held : ∀ frame, after.holder frame = before.holder frame := holder_of_log flagged.log
  have frames : SameFrames before after := by
    intro slot _
    by_cases inside : slot ∈ range.pagesIter
    · rw [flagged.inside slot inside, Option.map_map]
      rfl
    · rw [flagged.outside slot inside]
      rfl
  refine steady.same (steady.toBalanced.same flagged.record flagged.budgets frames
    (fun frame who had => (held frame).trans had) low ?_) flagged.record frames
    (fun frame => .inl (held frame)) (lawful_of_log flagged.log steady.lawful)
    (tabled_of_log flagged.log flagged.record flagged.tables steady.tabled) ?_
  · intro slot leaf lower found
    rw [same, cut.policyAt]
    split
    · next inside =>
        rcases bare with present | vacant
        · exact ⟨_, rfl, anonymous.1, present⟩
        rw [flagged.inside slot (mem_pagesIter.mpr inside)] at found
        obtain ⟨entry, was, _⟩ := Option.map_eq_some_iff.mp found
        cases was.symm.trans (vacant slot inside)
    · next outside =>
        rw [flagged.outside slot fun member => outside (mem_pagesIter.mp member)] at found
        exact steady.covered slot leaf lower found
  · intro page policy found
    rw [same, cut.policyAt] at found
    split at found
    · cases found
      exact anonymous
    · exact steady.plain page policy found

end

/-- Copy on write apart; no page that has a frame is made inaccessible, and every range lies in the
lower half. -/
def Frugal (state : State) : Operation → Prop
  | .mapAnonymous range _ | .mapAnonymousLazy range _ => Lower range
  | .protect start pages protection =>
    protection.present = true ∨ ∀ range, VirtRange.fromPages start pages = some range →
      ∀ page ∈ range, state.space.leaves page = none
  | .replaceUntouched _ _ _ | .unmapRange _ _ | .discard _ _ | .fault _ _ _ => True
  | .mapShared _ _ _ _ | .mapDevice _ _ _ | .unmap _ | .makeCopyOnWrite _ => False

theorem perform_settled (settled : state.Settled base)
    (operation : Operation) (frugal : state.Frugal operation) :
    (operation.perform state).Settled base := by
  cases operation with
  | mapAnonymous range protection =>
    rcases mapAnonymous_spec frugal protection state with
      ⟨_, after, done, idle⟩ | ⟨after, done, _, covers⟩ | ⟨after, done, fills⟩
    all_goals rw [Operation.perform, done]
    · exact idle.settled settled
    · exact covers.settled settled frugal
    · exact fills.settled settled frugal
  | mapAnonymousLazy range protection =>
    rcases mapAnonymousLazy_spec state range protection with
      ⟨_, after, done, idle⟩ | ⟨after, done, covers⟩
    all_goals rw [Operation.perform, done]
    · exact idle.settled settled
    · exact covers.settled settled frugal
  | protect start pages protection =>
    rcases protect_spec settled.low start pages protection with
      idle | ⟨range, asked, _, moved⟩
    · exact idle.settled settled
    · exact moved.settled settled (frugal.imp_right fun bare => bare range asked)
  | replaceUntouched start pages protection =>
    rcases replaceUntouched_spec settled.low start pages protection with
      idle | ⟨range, _, bare, moved⟩
    · exact idle.settled settled
    · exact moved.settled settled (.inr bare)
  | unmapRange start pages =>
    rcases unmapRange_spec settled.low start pages with
      ⟨_, after, done, idle⟩ | ⟨range, after, _, lower, done, unmaps | uncovers⟩
    all_goals rw [Operation.perform, done]
    · exact idle.settled settled
    · exact unmaps.settled settled lower
    · exact uncovers.settled settled lower
  | discard start pages =>
    rcases discard_spec settled.low start pages with idle | discards
    · exact idle.settled settled
    · exact discards.settled settled
  | fault address write notPresent =>
    rcases handleFault_spec settled.low address write notPresent with
      idle | faults | ⟨_, _, policy, _, covered, marked, _⟩
    · exact idle.settled settled
    · exact faults.settled settled
    · rw [(settled.plain _ policy covered).2] at marked
      cases marked
  | mapShared range object frames protection | mapDevice range physical protection | unmap start
  | makeCopyOnWrite start => exact frugal.elim

def Frames (state : State) (frame : Nat) : Prop :=
  frame ∈ state.tableFrames ∨
    ∃ slot leaf, slot < lowerSlots ∧ state.space.leaves slot = some leaf ∧ leaf.frame = frame

theorem Balanced.destroyed (balanced : state.Balanced base) : state.destroy.budgets = base ∧
      (∀ frame, state.Frames frame → state.destroy.holder frame = none) ∧
      (∀ frame, ¬ state.Frames frame → state.destroy.holder frame = state.holder frame) ∧
      (state.Lawful → state.Tabled → state.destroy.log.Lawful) := by
  obtain ⟨pages, nodup, members, dropped, freed⟩ := destroyRegions_spec balanced.low
    state.space.regions.sorted (state.setRegions .new)
  have lower : ∀ page ∈ pages, page < lowerSlots := by
    intro page member
    obtain ⟨region, held, _, inside⟩ := (members page).mp member
    exact lt_of_lt_of_le inside.2 (balanced.low region held)
  have owns : (state.setRegions .new).Owns pages :=
    ⟨(balanced.owns lower).held, (balanced.owns lower).distinct⟩
  let went := destroyRegions state.space.regions.regions (state.setRegions .new)
  let emptied := went.2
  -- Every entry lies in a region that is freed, so every one is counted.
  have every : (state.present pages).toFinset = state.entries := by
    ext slot
    rw [mem_toFinset, present, mem_filter, mem_entries]
    constructor
    · exact fun here => ⟨lower slot here.1, here.2⟩
    rintro ⟨low, entry⟩
    obtain ⟨leaf, found⟩ := Option.isSome_iff_exists.mp entry
    obtain ⟨policy, covered, freeable⟩ := balanced.covered slot leaf low found
    obtain ⟨region, located, rfl⟩ := Option.map_eq_some_iff.mp covered
    exact ⟨(members slot).mpr ⟨region, RangeMap.find_mem located, freeable,
      RangeMap.mem_find located⟩, entry⟩
  have unique : (state.present pages).Nodup := nodup.filter _
  have count : (state.present pages).length = state.space.charged := by
    rw [balanced.charged, ← every, toFinset_card_of_nodup unique]
  have named : ∀ frame, (state.setRegions .new).Names pages frame ↔
      ∃ slot leaf, slot < lowerSlots ∧ state.space.leaves slot = some leaf ∧
        leaf.frame = frame := by
    intro frame
    constructor
    · rintro ⟨slot, member, leaf, found, names⟩
      exact ⟨slot, leaf, lower slot member, found, names⟩
    rintro ⟨slot, leaf, low, found, names⟩
    have entry : slot ∈ state.entries := mem_entries.mpr ⟨low, found ▸ rfl⟩
    rw [← every, mem_toFinset, present, mem_filter] at entry
    exact ⟨slot, entry.1, leaf, found, names⟩
  have released := dropped_release (emptied.setMachine emptied.freeTables) went.1
  have owner : emptied.space.owner = state.space.owner := congrArg Record.owner dropped.record
  have tables : emptied.tableFrames = state.tableFrames := by
    have root : emptied.space.root = state.space.root := congrArg Record.root dropped.record
    rw [tableFrames, root, dropped.tables]
    rfl
  have held : ∀ frame, state.destroy.holder frame = emptied.freeTables.holder frame :=
    fun frame => released.kept frame (by simp [Names])
  obtain ⟨budgets, gone, kept⟩ := free_all (.table emptied.space.name) emptied.tableFrames
    emptied.machine
  refine ⟨?_, ?_, ?_, ?_⟩
  · have back : state.destroy.budgets =
        payBack emptied.space.owner went.1 emptied.freeTables.budgets := released.budgets
    have untouched : emptied.freeTables.budgets = emptied.machine.budgets := budgets
    rw [back, untouched, dropped.budgets, payBack_zero, freed, owner]
    change payBack state.space.owner (state.present pages).length state.machine.budgets = base
    rw [count, balanced.budgets, payBack_payFor]
  · intro frame mine
    rw [held frame]
    by_cases table : frame ∈ emptied.tableFrames
    · exact gone frame table
    · refine (kept frame table).trans (dropped.given frame ((named frame).mpr ?_))
      exact mine.resolve_left (tables ▸ table)
  · intro frame other
    rw [Frames, not_or] at other
    rw [held frame]
    exact (kept frame (tables ▸ other.1)).trans
      (dropped.kept frame fun mine => other.2 ((named frame).mp mine))
  · intro lawful tabled
    obtain ⟨once, mine⟩ := (dropped.tabled owns tabled).frames_held
    exact released.lawful ⟨by simp, by simp⟩ (free_each once mine (dropped.lawful owns lawful)).1

theorem Settled.destroyed (settled : state.Settled base) :
    state.destroy.log.Lawful ∧ state.destroy.budgets = base ∧
      ∀ frame, state.destroy.holder frame ≠ some (.page state.space.name) := by
  obtain ⟨budgets, gone, kept, lawful⟩ := settled.toBalanced.destroyed
  refine ⟨lawful settled.lawful settled.tabled, budgets, fun frame mine => ?_⟩
  by_cases own : state.Frames frame
  · cases (gone frame own).symm.trans mine
  · exact own (.inr (settled.named frame ((kept frame own).symm.trans mine)))

def ownedBy (state : State) : Option Nat → State
  | none => state
  | some owner => state.own owner

theorem adoptFrames_zero (machine : Machine) (domain : Nat) :
    machine.adoptFrames domain 0 = machine := by
  simp only [Machine.adoptFrames, Nat.add_zero, Function.update_eq_self, ite_self]

theorem ownedBy_eq (nobody : state.space.owner = none) (nothing : state.space.charged = 0)
    (owner : Option Nat) :
    state.ownedBy owner = { state with space := { state.space with owner } } := by
  cases owner with
  | none => simp only [ownedBy, ← nobody]
  | some domain =>
    have other : ¬ state.space.owner = some domain := by
      rw [nobody]
      nofun
    simp only [ownedBy, own, if_neg other, nothing, adoptFrames_zero]
    rw [nobody]

theorem Made.balanced {machine next : Machine} {space : AddressSpace}
    (fresh : Made machine name space next) (owner : Option Nat) :
    (State.mk { space with owner } next).Balanced machine.budgets := by
  have bare : ∀ {slot leaf}, slot < lowerSlots → space.leaves slot = some leaf → False := by
    intro slot leaf low found
    cases (fresh.leaves slot low).symm.trans found
  constructor
  case low =>
    intro region member
    change region ∈ space.regions.regions at member
    rw [fresh.regions] at member
    cases member
  case covered => exact fun slot leaf low found => (bare low found).elim
  case held => exact fun slot leaf low found => (bare low found).elim
  case distinct => exact fun slot _ leaf _ low _ found => (bare low found).elim
  case charged =>
    refine fresh.charged.trans (Finset.card_eq_zero.mpr ?_).symm
    rw [Finset.eq_empty_iff_forall_notMem]
    intro slot entry
    obtain ⟨low, some⟩ := mem_entries.mp entry
    obtain ⟨leaf, found⟩ := Option.isSome_iff_exists.mp some
    exact bare low found
  case budgets =>
    change next.budgets = payFor owner space.charged machine.budgets
    rw [fresh.budgets, fresh.charged]
    funext domain
    simp [payFor]

theorem new_settled {machine next : Machine} {space : AddressSpace} (ledger : machine.log = [])
    (made : AddressSpace.new machine name = (.ok space, next)) (owner : Option Nat) :
    ((State.mk space next).ownedBy owner).Settled machine.budgets := by
  have fresh := new_made made
  rw [ownedBy_eq fresh.owner fresh.charged owner]
  refine { fresh.balanced owner with plain := ?_, named := ?_, lawful := ?_, tabled := ?_ }
  · intro page policy covered
    change space.regions.policyAt page = some policy at covered
    rw [fresh.regions] at covered
    cases covered
  · intro frame mine
    change next.log.holder frame = some (.page space.name) at mine
    rw [fresh.log, ledger, Ledger.holder_took] at mine
    split at mine
    · cases mine
    · cases mine
  · change next.log.Lawful
    rw [fresh.log, ledger]
    exact ⟨rfl, trivial⟩
  · change TablesHeld space.name space.root space.tables next.log
    rw [fresh.tables, fresh.log, fresh.named]
    exact ⟨if_pos rfl, by simp, nodup_singleton _, by simp⟩

def framedPages (state : State) : Set Nat :=
  { page | (∃ policy, state.space.regions.policyAt page = some policy ∧
      policy.backing = .anonymous) ∧ (state.translate page).isSome = true }

def framedIn (state : State) (start pages : Nat) : List Nat :=
  (range' (start / pageSize) pages).filter fun page => (state.translate page).isSome

/-- The charge is for the pages that have a frame, an unmapped range has none left, and a destroyed
space has given back every frame as often as it took it. -/
structure Exact (base : Nat → FrameBudget) (state : State) : Prop where
  charged : state.space.charged = state.framedPages.ncard
  unmapped : ∀ start pages present after,
    state.unmapRange start pages = (.ok present, after) →
      (∀ page ∈ range' (start / pageSize) pages, after.translate page = none) ∧
      ∀ domain, state.space.owner = some domain →
        (after.machine.budgets domain).charged + (state.framedIn start pages).length =
          (state.machine.budgets domain).charged
  destroyed : state.destroy.log.Lawful ∧ state.destroy.budgets = base ∧
    ∀ frame, state.destroy.log.count (.took (.page state.space.name) frame) =
      state.destroy.log.count (.gave (.page state.space.name) frame)

theorem Settled.framedPages_eq (settled : state.Settled base) :
    state.framedPages = ↑state.entries := by
  ext page
  rw [framedPages, Set.mem_ofPred_eq, Finset.mem_coe, mem_entries]
  constructor
  · rintro ⟨⟨policy, covered, _⟩, framed⟩
    obtain ⟨region, located, _⟩ := Option.map_eq_some_iff.mp covered
    have lower := lower_of_find settled.low located
    rw [translate, slotOf_lower lower, Option.isSome_map] at framed
    exact ⟨lower, framed⟩
  · rintro ⟨lower, entry⟩
    obtain ⟨leaf, found⟩ := Option.isSome_iff_exists.mp entry
    obtain ⟨policy, covered, freeable⟩ := settled.covered page leaf lower found
    refine ⟨⟨policy, covered, freeable.1⟩, ?_⟩
    rw [translate, slotOf_lower lower, Option.isSome_map]
    exact entry

theorem Settled.unmapped (settled : state.Settled base) {pages : Nat} {present : List Nat}
    (done : state.unmapRange start pages = (.ok present, after)) :
    (∀ page ∈ range' (start / pageSize) pages, after.translate page = none) ∧
      ∀ domain, state.space.owner = some domain →
        (after.machine.budgets domain).charged + (state.framedIn start pages).length =
          (state.machine.budgets domain).charged := by
  rcases unmapRange_spec settled.low start pages with
    ⟨_, _, refused, _⟩ | ⟨range, after', asked, lower, done', moved⟩
  · cases done.symm.trans refused
  cases done.symm.trans done'
  obtain ⟨starts, length⟩ := VirtRange.fromPages_eq_some.mp asked
  have first : start / pageSize = range.first := by
    rw [← starts, VirtRange.start, Nat.mul_div_cancel _ (by decide)]
  have framed : state.framedIn start pages = state.present range.pagesIter := by
    rw [framedIn, first, ← length]
    exact present_translate lower state
  have pagesIter : range' (start / pageSize) pages = range.pagesIter := by
    rw [first, ← length, VirtRange.pagesIter]
  rw [framed, pagesIter]
  have charge : ∀ domain, state.space.owner = some domain → (state.machine.budgets domain).charged =
        (base domain).charged + state.space.charged := by
    intro domain owner
    rw [settled.budgets, payFor, if_pos owner]
  rcases moved with unmaps | uncovers
  · obtain ⟨_, regions, _, dropped⟩ := unmaps
    have counted := card_entries_dropped dropped (fun page => lower.page) (nodup_pagesIter range)
    change after.entries.card + (state.present range.pagesIter).length = state.entries.card
      at counted
    constructor
    · intro page member
      rw [translate, slotOf_lower (lower.page member), dropped.inside page member, Option.map_none]
    intro domain owner
    have back : (after.machine.budgets domain).charged =
        (state.machine.budgets domain).charged - (state.present range.pagesIter).length := by
      rw [dropped.budgets, payBack]
      exact congrArg FrameBudget.charged (if_pos owner)
    rw [back, charge domain owner, settled.charged]
    omega
  · have vacant : ∀ page ∈ range.pagesIter, state.space.leaves page = none := fun page member =>
      uncovers.vacant settled lower (mem_pagesIter.mp member)
    have none : state.present range.pagesIter = [] := by
      rw [present, filter_eq_nil_iff]
      intro page member
      simp [vacant page member]
    obtain ⟨_, regions, _, supplied⟩ := uncovers
    constructor
    · intro page member
      rw [translate, slotOf_lower (lower.page member), supplied.leaves]
      exact congrArg (Option.map Leaf.frame) (vacant page member)
    · intro domain owner
      rw [none, supplied.budgets]
      rfl

/-- The accounts are exact while no page with a frame is made inaccessible. -/
theorem accounts_exact {machine next : Machine} {name : Nat} {space : AddressSpace}
    {owner : Option Nat} {state : State} (ledger : machine.log = [])
    (made : AddressSpace.new machine name = (.ok space, next))
    (reached : Reaches Frugal (fun _ _ => False) ((State.mk space next).ownedBy owner) state) :
    state.Exact machine.budgets := by
  have settled : state.Settled machine.budgets := by
    induction reached with
    | start => exact new_settled ledger made owner
    | step operation _ frugal induction => exact perform_settled induction operation frugal
    | elsewhere machine _ never => exact never.elim
  obtain ⟨lawful, budgets, released⟩ := settled.destroyed
  refine ⟨?_, fun _ _ _ _ => settled.unmapped, lawful, budgets, ?_⟩
  · rw [settled.framedPages_eq, Set.ncard_coe_finset]
    exact settled.charged
  intro frame
  rw [Ledger.count_took lawful, if_neg (show ¬ state.destroy.log.holder frame = _ from
    released frame)]
  rfl

theorem accounts_exact_one : ((Operation.mapAnonymous onePage .readWrite).perform
      (fresh.ownedBy (some 0))).space.charged = 1 ∧
    ((Operation.mapAnonymous onePage .readWrite).perform (fresh.ownedBy (some 0))).Exact
      Machine.counting.budgets :=
  ⟨by decide, accounts_exact rfl new_counting (.step _ .start (show Lower onePage from by decide))⟩

def onAnonymous : Operation → Bool
  | .mapAnonymous _ _ | .mapAnonymousLazy _ _ | .protect _ _ _ | .replaceUntouched _ _ _
  | .unmapRange _ _ | .discard _ _ | .fault _ _ _ => true
  | .mapShared _ _ _ _ | .mapDevice _ _ _ | .unmap _ | .makeCopyOnWrite _ => false

/-- A page with a frame that is made inaccessible keeps the frame when it is unmapped. -/
theorem not_accounts_exact : ¬ ∀ operations : List Operation, operations.all onAnonymous = true →
      (operations.foldl (fun state operation => operation.perform state)
        (fresh.ownedBy (some 0))).Exact Machine.counting.budgets := by
  intro always
  let hidden := [Operation.mapAnonymous onePage .readWrite, .protect (16 * pageSize) 1 .none].foldl
    (fun state operation => operation.perform state) (fresh.ownedBy (some 0))
  have exact : hidden.Exact Machine.counting.budgets := always
    [.mapAnonymous onePage .readWrite, .protect (16 * pageSize) 1 .none] rfl
  have done : (hidden.unmapRange (16 * pageSize) 1).1 = .ok [16] := by decide
  have left : (hidden.unmapRange (16 * pageSize) 1).2.translate 16 = some 2 := by decide
  have result : hidden.unmapRange (16 * pageSize) 1 =
      (.ok [16], (hidden.unmapRange (16 * pageSize) 1).2) := by rw [← done]
  have gone := (exact.unmapped (16 * pageSize) 1 [16] _ result).1 16 mem_cons_self
  cases left.symm.trans gone

end State

end Bhaskix.Vm
