import Bhaskix.Vm.Shared

/-!
What a space frees is its own: the entries under its anonymous regions name frames it took for
pages, each once, and nothing else is ever handed back through it.
-/

namespace Bhaskix.Vm

open Library Mm Function

def Anonymous (map : RangeMap) (page : Nat) : Prop :=
  ∃ policy, map.policyAt page = some policy ∧ policy.backing = .anonymous

theorem anonymous_insert {map : RangeMap}
    (inserted : map.insert region true = .ok next) (covered : Anonymous next page) :
    page ∈ region.range ∧ region.backing = .anonymous ∨
      page ∉ region.range ∧ Anonymous map page := by
  obtain ⟨policy, found, backing⟩ := covered
  rw [RangeMap.policyAt_insert inserted] at found
  split at found
  · next inside =>
      cases found
      exact .inl ⟨inside, backing⟩
  · next outside => exact .inr ⟨outside, policy, found, backing⟩

namespace State

variable {state before after next : State}

/-- The pages of anonymous memory name frames the space took for pages, each once. -/
structure Owned (state : State) : Prop where
  held : ∀ slot leaf, slot < lowerSlots → Anonymous state.space.regions slot →
    state.space.leaves slot = some leaf → state.holder leaf.frame = some (.page state.space.name)
  distinct : ∀ slot other leaf leaf', slot < lowerSlots → other < lowerSlots →
    Anonymous state.space.regions slot → Anonymous state.space.regions other →
    state.space.leaves slot = some leaf → state.space.leaves other = some leaf' →
    leaf.frame = leaf'.frame → slot = other

variable {map : RangeMap} {region : VmRegion}
  {range : VirtRange} {protection : Protection} {frames : Nat → Nat} {page : Nat}

theorem Owned.owns (owned : state.Owned)
    (mine : ∀ page ∈ pages, page < lowerSlots ∧ Anonymous state.space.regions page) :
    state.Owns pages where
  held := fun slot member leaf found =>
    owned.held slot leaf (mine slot member).1 (mine slot member).2 found
  distinct := fun slot member other member' leaf leaf' =>
    owned.distinct slot other leaf leaf' (mine slot member).1 (mine other member').1
      (mine slot member).2 (mine other member').2

theorem Owned.shrink (owned : before.Owned) (name : after.space.name = before.space.name)
    (back : ∀ slot leaf, slot < lowerSlots → Anonymous after.space.regions slot →
      after.space.leaves slot = some leaf → Anonymous before.space.regions slot ∧
        ∃ old, before.space.leaves slot = some old ∧ old.frame = leaf.frame ∧
          (before.holder leaf.frame = some (.page before.space.name) →
            after.holder leaf.frame = some (.page before.space.name))) : after.Owned where
  held := by
    intro slot leaf low covered found
    obtain ⟨covered', old, was, names, kept⟩ := back slot leaf low covered found
    rw [name]
    exact kept (names ▸ owned.held slot old low covered' was)
  distinct := by
    intro slot other leaf leaf' low low' covered covered' found found' same
    obtain ⟨first, old, was, names, _⟩ := back slot leaf low covered found
    obtain ⟨second, old', was', names', _⟩ := back other leaf' low' covered' found'
    exact owned.distinct slot other old old' low low' first second was was'
      (names.trans (same.trans names'.symm))

theorem Owned.fill (owned : before.Owned) (filled : Filled pages flags middle after)
    (name : middle.space.name = before.space.name)
    (held : ∀ frame, middle.holder frame = before.holder frame)
    (leaves : ∀ slot, slot ∉ pages → middle.space.leaves slot = before.space.leaves slot)
    (covered : ∀ slot, slot ∉ pages → Anonymous after.space.regions slot →
      Anonymous before.space.regions slot) : after.Owned := by
  have old : ∀ {slot leaf}, slot < lowerSlots → slot ∉ pages →
      Anonymous after.space.regions slot → after.space.leaves slot = some leaf →
      before.space.leaves slot = some leaf ∧
        before.holder leaf.frame = some (.page before.space.name) := by
    intro slot leaf low out anonymous found
    have was := (leaves slot out).symm.trans ((filled.outside slot out).symm.trans found)
    exact ⟨was, owned.held slot leaf low (covered slot out anonymous) was⟩
  have new : ∀ {slot leaf}, slot ∈ pages → after.space.leaves slot = some leaf →
      before.holder leaf.frame = none ∧
        after.holder leaf.frame = some (.page before.space.name) := by
    intro slot leaf member found
    obtain ⟨_, free, mine⟩ := filled.entry member found
    exact ⟨(held _).symm.trans free, name ▸ mine⟩
  constructor
  · intro slot leaf low anonymous found
    rw [filled.name, name]
    by_cases member : slot ∈ pages
    · exact (new member found).2
    · exact filled.held_of_some ((held _).trans (old low member anonymous found).2)
  intro slot other leaf leaf' low low' anonymous anonymous' found found' names
  by_cases member : slot ∈ pages
  · by_cases member' : other ∈ pages
    · exact filled.distinct slot member other member' leaf leaf' found found' names
    -- A frame that was free cannot be one an old entry names.
    have mine := (old low' member' anonymous' found').2
    rw [← names] at mine
    cases (new member found).1.symm.trans mine
  · by_cases member' : other ∈ pages
    · have mine := (old low member anonymous found).2
      rw [names] at mine
      cases (new member' found').1.symm.trans mine
    · exact owned.distinct slot other leaf leaf' low low' (covered slot member anonymous)
        (covered other member' anonymous') (old low member anonymous found).1
        (old low' member' anonymous' found').1 names

structure Clean (state : State) : Prop where
  low : state.Low
  owned : state.Owned
  lawful : state.Lawful
  tabled : state.Tabled

structure Decent (before after : State) : Prop where
  clean : after.Clean
  name : after.space.name = before.space.name
  root : after.space.root = before.space.root
  spares : ∀ frame who, before.holder frame = some who → who ≠ .page before.space.name →
    after.holder frame = some who

def SharedWithin (map next : RangeMap) : Prop :=
  ∀ held ∈ next.regions, ∀ object, held.backing = .shared object → ∃ whole ∈ map.regions,
    whole.backing = .shared object ∧ whole.range.first ≤ held.range.first ∧
      held.range.stop ≤ whole.range.stop

theorem SharedWithin.refl (map : RangeMap) : SharedWithin map map :=
  fun held member _ backing => ⟨held, member, backing, le_refl _, le_refl _⟩

theorem SharedWithin.trans (early : SharedWithin first second)
    (late : SharedWithin second third) : SharedWithin first third := by
  intro held member object backing
  obtain ⟨middle, middle_mem, backing', low, high⟩ := late held member object backing
  obtain ⟨whole, whole_mem, backing'', low', high'⟩ := early middle middle_mem object backing'
  exact ⟨whole, whole_mem, backing'', le_trans low' low, le_trans high high'⟩

theorem sharedWithin_of_eq {next : RangeMap} (same : next = map) : SharedWithin map next :=
  same ▸ .refl map

theorem sharedWithin_insert {next : RangeMap} (inserted : map.insert region true = .ok next)
    (plain : ∀ object, region.backing ≠ .shared object) : SharedWithin map next := by
  intro held member object backing
  rcases (RangeMap.mem_insert inserted held).mp member with rfl | kept
  · exact absurd backing (plain object)
  · exact SharedWithin.refl map held kept object backing

theorem Cut.sharedWithin {next : RangeMap} (cut : Cut range map next) : SharedWithin map next := by
  intro held member object backing
  obtain ⟨whole, whole_mem, low, high, same⟩ := cut.within held member
  exact ⟨whole, whole_mem, same ▸ backing, low, high⟩

structure Proper (before after : State) : Prop extends Decent before after where
  shared : SharedWithin before.space.regions after.space.regions

theorem Decent.trans (first : Decent before after) (second : Decent after next) :
    Decent before next where
  clean := second.clean
  name := second.name.trans first.name
  root := second.root.trans first.root
  spares := fun frame who had other =>
    second.spares frame who (first.spares frame who had other) (first.name ▸ other)

theorem Proper.trans (first : Proper before after) (second : Proper after next) :
    Proper before next :=
  ⟨first.toDecent.trans second.toDecent, first.shared.trans second.shared⟩

theorem Proper.refl (clean : state.Clean) : Proper state state :=
  ⟨⟨clean, rfl, rfl, fun _ _ had _ => had⟩, .refl _⟩

section

variable (clean : before.Clean)
include clean

theorem Idle.proper (idle : Idle before after) : Proper before after := by
  have name : after.space.name = before.space.name := congrArg Record.name idle.record
  have held : ∀ {frame who}, before.holder frame = some who → after.holder frame = some who :=
    holder_kept (idle.still.held _)
  refine ⟨⟨⟨low_of_regions clean.low idle.regions, ?_, idle.still.lawful clean.lawful,
    idle.still.tabled clean.tabled⟩, name, congrArg Record.root idle.record,
    fun frame who had _ => held had⟩, sharedWithin_of_eq idle.regions⟩
  refine clean.owned.shrink name fun slot leaf low covered found => ?_
  rw [idle.regions] at covered
  rcases idle.still.leaves slot with same | ⟨gone, _⟩
  · exact ⟨covered, leaf, same.symm.trans found, rfl, held⟩
  · cases gone.symm.trans found

theorem Supplied.decent (supplied : Supplied (before.setRegions regions) after) (low : after.Low)
    (covered : ∀ slot leaf, before.space.leaves slot = some leaf → Anonymous regions slot →
      Anonymous before.space.regions slot) : Decent before after := by
  have held : ∀ {frame who}, before.holder frame = some who → after.holder frame = some who :=
    fun had => supplied.held_of_some had
  refine ⟨⟨low, ?_, supplied.lawful clean.lawful, supplied.tabled clean.tabled⟩, supplied.name,
    congrArg Record.root supplied.record, fun frame who had _ => held had⟩
  refine clean.owned.shrink supplied.name fun slot leaf low anonymous found => ?_
  rw [show after.space.regions = regions from supplied.regions_eq] at anonymous
  rw [supplied.leaves] at found
  exact ⟨covered slot leaf found anonymous, leaf, found, rfl, held⟩

theorem Covers.proper (covers : Covers region before after) (lower : Lower region.range)
    (plain : ∀ object, region.backing ≠ .shared object)
    (bare : ∀ page ∈ region.range, before.space.leaves page = none) : Proper before after := by
  have low := covers.low clean.low lower
  obtain ⟨regions, inserted, supplied⟩ := covers
  refine ⟨supplied.decent clean low fun slot leaf found covered => ?_, ?_⟩
  · rcases anonymous_insert inserted covered with ⟨inside, _⟩ | ⟨_, covered⟩
    · cases (bare slot inside).symm.trans found
    · exact covered
  · rw [show after.space.regions = regions from supplied.regions_eq]
    exact sharedWithin_insert inserted plain

theorem Fills.proper (fills : Fills range protection before after) (lower : Lower range) :
    Proper before after := by
  have low := fills.low clean.low lower
  obtain ⟨_, regions, inserted, filled⟩ := fills
  have same : after.space.regions = regions := filled.regions_eq
  refine ⟨⟨⟨low, ?_, filled.lawful clean.lawful, filled.tabled clean.tabled⟩, filled.name,
    congrArg Record.root filled.record, fun frame who had _ => filled.held_of_some had⟩, ?_⟩
  · refine clean.owned.fill filled rfl (fun _ => rfl) (fun _ _ => rfl) fun slot out covered => ?_
    rw [same] at covered
    rcases anonymous_insert inserted covered with ⟨inside, _⟩ | ⟨_, covered⟩
    · exact absurd (VirtRange.mem_pagesIter.mpr inside) out
    · exact covered
  · rw [same]
    exact sharedWithin_insert inserted nofun

theorem Lends.decent (lends : Lends region frames flags before after)
    (lower : Lower region.range) (other : region.backing ≠ .anonymous) : Decent before after := by
  have low := lends.low clean.low lower
  obtain ⟨regions, inserted, named⟩ := lends
  have same : after.space.regions = regions := named.regions_eq
  have name : after.space.name = before.space.name := congrArg Record.name named.record
  have held : ∀ {frame who}, before.holder frame = some who → after.holder frame = some who :=
    holder_kept (named.held _)
  refine ⟨⟨low, ?_, named.lawful clean.lawful, named.tabled clean.tabled⟩, name,
    congrArg Record.root named.record, fun frame who had _ => held had⟩
  refine clean.owned.shrink name fun slot leaf low covered found => ?_
  rw [same] at covered
  rcases anonymous_insert inserted covered with ⟨_, anonymous⟩ | ⟨out, covered⟩
  · exact absurd anonymous other
  · have was := named.outside slot fun member => out (VirtRange.mem_pagesIter.mp member)
    exact ⟨covered, leaf, was.symm.trans found, rfl, held⟩

theorem Dropped.decent {frames : Nat} (dropped : Dropped pages frames middle after)
    (mine : ∀ page ∈ pages, page < lowerSlots ∧ Anonymous before.space.regions page)
    (name : middle.space.name = before.space.name) (root : middle.space.root = before.space.root)
    (leaves : middle.space.leaves = before.space.leaves)
    (tables : middle.space.tables = before.space.tables)
    (log : middle.machine.log = before.machine.log) (low : after.Low)
    (covered : ∀ slot, Anonymous after.space.regions slot → Anonymous before.space.regions slot) :
    Decent before after := by
  have name' : after.space.name = before.space.name :=
    (congrArg Record.name dropped.record).trans name
  have same := holder_of_log log
  have owns : middle.Owns pages := by
    have owns := clean.owned.owns mine
    constructor
    · rw [leaves, name]
      intro slot member leaf found
      exact (same _).trans (owns.held slot member leaf found)
    · rw [leaves]
      exact owns.distinct
  have lawful : middle.Lawful := by
    unfold Lawful
    rw [log]
    exact clean.lawful
  have tabled : middle.Tabled := by
    unfold Tabled
    rw [log, name, root, tables]
    exact clean.tabled
  refine ⟨⟨low, ?_, dropped.lawful owns lawful, dropped.tabled owns tabled⟩, name',
    (congrArg Record.root dropped.record).trans root, ?_⟩
  · refine clean.owned.shrink name' fun slot leaf lower covered' found => ?_
    have before' := covered slot covered'
    by_cases member : slot ∈ pages
    · cases (dropped.inside slot member).symm.trans found
    have was : before.space.leaves slot = some leaf := by
      rw [← leaves]
      exact (dropped.outside slot member).symm.trans found
    refine ⟨before', leaf, was, rfl, fun had => ?_⟩
    -- The frame is not one of those dropped: an entry that names it is at another page.
    rw [dropped.kept leaf.frame, same, had]
    rintro ⟨other, member', leaf', found', names⟩
    rw [leaves] at found'
    have here := clean.owned.distinct other slot leaf' leaf (mine other member').1 lower
      (mine other member').2 before' found' was names
    exact member (here ▸ member')
  · intro frame who had foreign
    rw [dropped.kept frame, same, had]
    rintro ⟨slot, member, leaf, found, rfl⟩
    have taken := owns.held slot member leaf found
    rw [same, had, name] at taken
    exact foreign (Option.some.inj taken)

end

theorem Cut.anonymous {next : RangeMap} (cut : Cut range map next)
    (covered : Anonymous next page) : Anonymous map page := by
  obtain ⟨policy, found, backing⟩ := covered
  rw [cut.policy] at found
  split at found
  · cases found
  · exact ⟨policy, found, backing⟩

section

variable (clean : before.Clean)
include clean

theorem Unmaps.proper (unmaps : Unmaps range before after) (lower : Lower range) :
    Proper before after := by
  have low := unmaps.low clean.low
  obtain ⟨policies, regions, cut, dropped⟩ := unmaps
  have same : after.space.regions = regions := dropped.regions_eq
  refine ⟨dropped.decent clean ?_ rfl rfl rfl rfl rfl low ?_, same ▸ cut.sharedWithin⟩
  · intro page member
    obtain ⟨policy, found, freeable⟩ := policies page (VirtRange.mem_pagesIter.mp member)
    exact ⟨lower.page member, policy, found, freeable.1⟩
  · intro slot covered
    rw [same] at covered
    exact cut.anonymous covered

theorem Uncovers.proper (uncovers : Uncovers range before after) : Proper before after := by
  have low := uncovers.low clean.low
  obtain ⟨_, regions, cut, supplied⟩ := uncovers
  have same : after.space.regions = regions := supplied.regions_eq
  exact ⟨supplied.decent clean low fun _ _ _ => cut.anonymous, same ▸ cut.sharedWithin⟩

theorem Discards.proper (discards : Discards before after) :
    Proper before after := by
  have same := discards.regions
  obtain ⟨pages, _, anonymous, dropped⟩ := discards
  refine ⟨dropped.decent clean anonymous rfl rfl rfl rfl rfl (low_of_regions clean.low same) ?_,
    sharedWithin_of_eq same⟩
  intro slot covered
  rw [same] at covered
  exact covered

theorem Reflagged.decent
    (flagged : Reflagged flags pages (before.setRegions regions) after)
    (low : after.Low)
    (covered : ∀ slot, Anonymous regions slot → Anonymous before.space.regions slot) :
    Decent before after := by
  have name : after.space.name = before.space.name := congrArg Record.name flagged.record
  have same : after.space.regions = regions := flagged.regions_eq
  have held : ∀ {frame who}, before.holder frame = some who → after.holder frame = some who :=
    (holder_of_log flagged.log _).trans
  refine ⟨⟨low, ?_, lawful_of_log flagged.log clean.lawful,
    tabled_of_log flagged.log flagged.record flagged.tables clean.tabled⟩, name,
    congrArg Record.root flagged.record, fun frame who had _ => held had⟩
  refine clean.owned.shrink name fun slot leaf low anonymous found => ?_
  rw [same] at anonymous
  refine ⟨covered slot anonymous, ?_⟩
  by_cases member : slot ∈ pages
  · rw [flagged.inside slot member] at found
    obtain ⟨old, was, rfl⟩ := Option.map_eq_some_iff.mp found
    exact ⟨old, was, rfl, held⟩
  · rw [flagged.outside slot member] at found
    exact ⟨leaf, found, rfl, held⟩

theorem Reprotects.proper
    (moved : Reprotects range protection before after) :
    Proper before after := by
  have low := moved.low clean.low
  obtain ⟨region, regions, cut, flagged⟩ := moved
  have same : after.space.regions = regions := flagged.regions_eq
  refine ⟨flagged.decent clean low ?_, ?_⟩
  · rintro slot ⟨policy, found, backing⟩
    rw [cut.policyAt] at found
    split at found
    · next inside =>
        cases found
        exact ⟨region.toPolicy, cut.policyAt_of_wanted inside, backing⟩
    · exact ⟨policy, found, backing⟩
  · rw [same]
    intro held member object backing
    obtain ⟨whole, whole_mem, low, high, same, _⟩ := cut.within member
    exact ⟨whole, whole_mem, same ▸ backing, low, high⟩

theorem Marks.proper (marks : Marks region before after) : Proper before after := by
  have low := marks.low clean.low
  obtain ⟨member, regions, page, policies, within, flagged⟩ := marks
  have same : after.space.regions = regions := flagged.regions_eq
  refine ⟨flagged.decent clean low ?_, ?_⟩
  · rintro slot ⟨policy, found, backing⟩
    rw [policies] at found
    split at found
    · next inside =>
        cases found
        exact ⟨region.toPolicy, RangeMap.policyAt_of_mem member inside, backing⟩
    · exact ⟨policy, found, backing⟩
  · rw [same]
    intro held kept object backing
    obtain ⟨whole, whole_mem, extent, same⟩ := within held kept
    rw [extent]
    exact ⟨whole, whole_mem, same ▸ backing, le_refl _, le_refl _⟩

theorem Faults.proper (faults : Faults page before after) :
    Proper before after := by
  have same := faults.regions
  obtain ⟨_, _, _, _, _, _, filled⟩ := faults
  refine ⟨⟨⟨low_of_regions clean.low same, ?_, filled.lawful clean.lawful,
    filled.tabled clean.tabled⟩, filled.name, congrArg Record.root filled.record,
    fun frame who had _ => filled.held_of_some had⟩, sharedWithin_of_eq same⟩
  refine clean.owned.fill filled rfl (fun _ => rfl) (fun _ _ => rfl) fun slot _ covered => ?_
  rw [same] at covered
  exact covered

theorem Copies.proper (copies : Copies page before after) :
    Proper before after := by
  have same := copies.regions
  have low := low_of_regions clean.low same
  obtain ⟨_, _, _, _, _, _, filled | idle⟩ := copies
  · refine ⟨⟨⟨low, ?_, filled.lawful clean.lawful, filled.tabled clean.tabled⟩, filled.name,
      congrArg Record.root filled.record, fun frame who had _ => filled.held_of_some had⟩,
      sharedWithin_of_eq same⟩
    refine clean.owned.fill filled rfl (fun _ => rfl) ?_ fun slot _ covered => same ▸ covered
    intro slot out
    exact update_of_ne (fun here => out (List.mem_singleton.mpr here)) _ _
  have emptied : (before.setLeaf page none).Clean := by
    refine { clean with owned := ?_ }
    refine clean.owned.shrink rfl fun slot leaf lower covered found => ?_
    by_cases here : slot = page
    · subst here
      have gone : (before.setLeaf slot none).space.leaves slot = none :=
        update_self _ _ _
      cases gone.symm.trans found
    · exact ⟨covered, leaf, (update_of_ne here _ _).symm.trans found, rfl, id⟩
  have moved := idle.proper emptied
  exact ⟨{ moved with }, moved.shared⟩

end

def walkEach : List Nat → State → Except MapError Unit × State
  | [], state => (.ok (), state)
  | page :: rest, state =>
    match state.walk (slotOf page) with
    | (.error error, state) => (.error error, state)
    | (.ok (), state) => walkEach rest state

/-- Either the first page cannot be entered, or every page can: its slot is empty or names the frame
it is to name. -/
def Whole (range : VirtRange) (frames : Nat → Nat) (state : State) : Prop :=
  (∃ error, (state.walk (slotOf range.first)).1 = .error error) ∨
  (∃ leaf, state.space.leaves (slotOf range.first) = some leaf ∧ leaf.frame ≠ frames 0) ∨
  (walkEach range.pagesIter state).1 = .ok () ∧
    ∀ page ∈ range, ∀ leaf, state.space.leaves (slotOf page) = some leaf →
      leaf.frame = frames (page - range.first)

theorem ensureTable_setLeaf (level slot place : Nat) (leaf : Option Leaf) (state : State) :
    (state.setLeaf place leaf).ensureTable level slot =
      ((state.ensureTable level slot).1, (state.ensureTable level slot).2.setLeaf place leaf) := by
  unfold ensureTable
  simp only
  by_cases there : state.hasTable level (slot / 2 ^ (9 * level)) = true
  · have there' : (state.setLeaf place leaf).hasTable level (slot / 2 ^ (9 * level)) = true := there
    rw [if_pos there, if_pos there']
  have there' : ¬ (state.setLeaf place leaf).hasTable level (slot / 2 ^ (9 * level)) = true :=
    there
  rw [if_neg there, if_neg there']
  have same : (state.setLeaf place leaf).machine.allocate
      (.table (state.setLeaf place leaf).space.name) =
      state.machine.allocate (.table state.space.name) := rfl
  rw [same]
  cases state.machine.allocate (.table state.space.name) with
  | mk frame machine => cases frame <;> rfl

theorem walk_setLeaf (slot place : Nat) (leaf : Option Leaf) (state : State) :
    (state.setLeaf place leaf).walk slot =
      ((state.walk slot).1, (state.walk slot).2.setLeaf place leaf) := by
  unfold walk
  rw [ensureTable_setLeaf]
  cases first : state.ensureTable 3 slot with
  | mk done top =>
    cases done with
    | error error => rfl
    | ok _ =>
      simp only
      rw [ensureTable_setLeaf]
      cases second : top.ensureTable 2 slot with
      | mk done middle =>
        cases done with
        | error error => rfl
        | ok _ => exact ensureTable_setLeaf 1 slot place leaf middle

theorem walkEach_setLeaf (pages : List Nat) (place : Nat) (leaf : Option Leaf) (state : State) :
    walkEach pages (state.setLeaf place leaf) =
      ((walkEach pages state).1, (walkEach pages state).2.setLeaf place leaf) := by
  induction pages generalizing state with
  | nil => rfl
  | cons page rest induction =>
    unfold walkEach
    rw [walk_setLeaf]
    cases walked : state.walk (slotOf page) with
    | mk done last =>
      cases done with
      | error error => rfl
      | ok _ => exact induction last

theorem mapEach_whole (low : ∀ page ∈ pages, page < lowerSlots) (nodup : pages.Nodup) (index : Nat)
    (state : State) (walks : (walkEach pages state).1 = .ok ())
    (clear : ∀ place page, pages[place]? = some page → ∀ leaf,
      state.space.leaves page = some leaf → leaf.frame = frames (index + place)) :
    (mapEach (mapGiven frames flags) index pages state).1 = .ok () := by
  induction pages generalizing index state with
  | nil => rfl
  | cons page rest induction =>
    obtain ⟨fresh, nodup⟩ := List.nodup_cons.mp nodup
    have lower := low page List.mem_cons_self
    have low' : ∀ page ∈ rest, page < lowerSlots := fun page member =>
      low page (List.mem_cons_of_mem _ member)
    unfold walkEach at walks
    unfold mapEach mapGiven mapPage
    rw [slotOf_lower lower] at walks ⊢
    have supplied := walk_supplied state lower
    cases walked : state.walk page with
    | mk done last =>
      rw [walked] at walks supplied
      cases done with
      | error error => cases walks
      | ok _ =>
        simp only at walks ⊢
        have later : ∀ place page, rest[place]? = some page → ∀ leaf,
            last.space.leaves page = some leaf → leaf.frame = frames (index + 1 + place) := by
          intro place page here leaf found
          rw [supplied.leaves] at found
          have names := clear (place + 1) page here leaf found
          rw [names]
          congr 1
          omega
        cases entry : last.space.leaves page with
        | some leaf =>
          have names : leaf.frame = frames index :=
            clear 0 page rfl leaf (by rw [← supplied.leaves]; exact entry)
          simp only [if_pos names]
          exact induction low' nodup (index + 1) last walks later
        | none =>
          refine induction low' nodup (index + 1) _ ?_ ?_
          · rw [walkEach_setLeaf]
            exact walks
          intro place other here leaf found
          have different : other ≠ page := by
            rintro rfl
            exact fresh (List.mem_of_getElem? here)
          exact later place other here leaf ((update_of_ne different _ _).symm.trans found)

theorem mapEach_refused
    (refused : mapGiven frames flags 0 page state = (.error error, last)) :
    mapEach (mapGiven frames flags) 0 (page :: rest) state = (.error (error, 0), last) := by
  unfold mapEach
  rw [refused]

theorem pagesIter_cons (range : VirtRange) : ∃ rest, range.pagesIter = range.first :: rest := by
  obtain ⟨first, pages, nonempty, fits⟩ := range
  cases pages with
  | zero => cases nonempty
  | succ more => exact ⟨_, List.range'_succ⟩

theorem Whole.not_partway (low : Lower range) (whole : state.Whole range frames) :
    ¬ Partway range frames flags state := by
  rintro ⟨error, count, last, positive, stopped⟩
  obtain ⟨rest, pages⟩ := pagesIter_cons range
  have lower : range.first < lowerSlots := low.page (VirtRange.mem_pagesIter.mpr range.first_mem)
  rcases whole with ⟨refusal, walked⟩ | ⟨leaf, entry, names⟩ | ⟨walks, clear⟩
  · have refused : mapGiven frames flags 0 range.first state =
        (.error (.paging refusal), (state.walk (slotOf range.first)).2) := by
      unfold mapGiven mapPage
      cases walk : state.walk (slotOf range.first) with
      | mk done last =>
        rw [walk] at walked
        subst walked
        rfl
    rw [pages, mapEach_refused refused] at stopped
    cases stopped
    cases positive
  · have supplied := walk_supplied state lower
    have refused : ∃ error last,
        mapGiven frames flags 0 range.first state = (.error error, last) := by
      unfold mapGiven mapPage
      rw [slotOf_lower lower] at entry ⊢
      cases walk : state.walk range.first with
      | mk done last =>
        rw [walk] at supplied
        cases done with
        | error error => exact ⟨_, _, rfl⟩
        | ok _ =>
          have entry' : last.space.leaves range.first = some leaf := by
            rw [supplied.leaves]
            exact entry
          simp only [entry', if_neg names]
          exact ⟨_, _, rfl⟩
    obtain ⟨error', last', refused⟩ := refused
    rw [pages, mapEach_refused refused] at stopped
    cases stopped
    cases positive
  · have named : ∀ place page, range.pagesIter[place]? = some page → ∀ leaf,
        state.space.leaves page = some leaf → leaf.frame = frames (0 + place) := by
      intro place page here leaf found
      have member := List.mem_of_getElem? here
      have names := clear page (VirtRange.mem_pagesIter.mp member) leaf
        (by rw [slotOf_lower (low.page member)]; exact found)
      rw [names, getElem?_pagesIter here, Nat.zero_add, Nat.add_sub_cancel_left]
    have done : (mapEach (mapGiven frames flags) 0 range.pagesIter state).1 = .ok () :=
      mapEach_whole (fun page => low.page) (nodup_pagesIter range) 0 state walks named
    rw [stopped] at done
    cases done

def Bare (state : State) (range : VirtRange) : Prop :=
  ∀ page ∈ range, state.space.leaves page = none

/-- Mappings lie in the lower half. Memory that becomes anonymous without being filled has no
entries left under it; a device mapping does not stop part of the way. -/
def Sparing (state : State) : Operation → Prop
  | .mapAnonymous range protection =>
    Lower range ∧ (protection.present = true ∨ state.Bare range)
  | .mapAnonymousLazy range _ => Lower range ∧ state.Bare range
  -- `map_shared` is reached through `map_into` only.
  | .mapShared _ _ _ _ => False
  | .mapDevice range physical protection =>
    Lower range ∧ ∀ regions,
      state.space.regions.insert (.new range protection (.direct physical)) true = .ok regions →
        ((state.setRegions regions).setMachine state.machine.tick).Whole range
          fun index => physical / pageSize + index
  | .protect _ _ _ | .replaceUntouched _ _ _ | .unmap _ | .unmapRange _ _ | .discard _ _ |
    .makeCopyOnWrite _ | .fault _ _ _ => True

section

variable (clean : state.Clean)
include clean

theorem mapAnonymous_proper
    (low : Lower range) (bare : protection.present = true ∨ state.Bare range) :
    Proper state (state.mapAnonymous range protection).2 := by
  rcases mapAnonymous_spec low protection state with
    ⟨_, after, done, idle⟩ | ⟨after, done, hidden, covers⟩ | ⟨after, done, fills⟩
  all_goals rw [done]
  · exact idle.proper clean
  · refine covers.proper clean low nofun (bare.resolve_left ?_)
    rw [hidden]
    nofun
  · exact fills.proper clean low

theorem mapAnonymousLazy_proper (low : Lower range) (bare : state.Bare range) :
    Proper state (state.mapAnonymousLazy range protection).2 := by
  rcases mapAnonymousLazy_spec state range protection with
    ⟨_, after, done, idle⟩ | ⟨after, done, covers⟩
  all_goals rw [done]
  · exact idle.proper clean
  · exact covers.proper clean low nofun bare

theorem unmap_proper (start : Nat) : Proper state (state.unmap start).2 := by
  rcases unmap_cases clean.low start with same | ⟨region, member, _, unmaps | uncovers⟩
  · rw [same]
    exact .refl clean
  · exact unmaps.proper clean (clean.low region member)
  · exact uncovers.proper clean

theorem unmapRange_proper (start pages : Nat) : Proper state (state.unmapRange start pages).2 := by
  rcases unmapRange_spec clean.low start pages with
    ⟨_, after, done, idle⟩ | ⟨range, after, _, lower, done, unmaps | uncovers⟩
  all_goals rw [done]
  · exact idle.proper clean
  · exact unmaps.proper clean lower
  · exact uncovers.proper clean

theorem perform_proper (operation : Operation)
    (sparing : state.Sparing operation) : Proper state (operation.perform state) := by
  cases operation with
  | mapAnonymous range protection => exact mapAnonymous_proper clean sparing.1 sparing.2
  | mapAnonymousLazy range protection => exact mapAnonymousLazy_proper clean sparing.1 sparing.2
  | mapShared range object frames protection => exact sparing.elim
  | mapDevice range physical protection =>
    obtain ⟨low, whole⟩ := sparing
    rcases mapDevice_spec low physical protection state with
      idle | ⟨_, lends⟩ | ⟨⟨regions, inserted, partway⟩, _⟩
    · exact idle.proper clean
    · refine ⟨lends.decent clean low nofun, ?_⟩
      obtain ⟨regions, inserted, named⟩ := lends
      have same : ((Operation.mapDevice range physical protection).perform
          state).space.regions = regions := named.regions_eq
      rw [same]
      exact sharedWithin_insert inserted nofun
    · exact absurd partway ((whole regions inserted).not_partway low)
  | protect start pages protection =>
    rcases protect_spec clean.low start pages protection with idle | ⟨_, _, _, moved⟩
    · exact idle.proper clean
    · exact moved.proper clean
  | replaceUntouched start pages protection =>
    rcases replaceUntouched_spec clean.low start pages protection with idle | ⟨_, _, _, moved⟩
    · exact idle.proper clean
    · exact moved.proper clean
  | unmap start => exact unmap_proper clean start
  | unmapRange start pages => exact unmapRange_proper clean start pages
  | discard start pages =>
    rcases discard_spec clean.low start pages with idle | discards
    · exact idle.proper clean
    · exact discards.proper clean
  | makeCopyOnWrite start =>
    rcases makeCopyOnWrite_spec clean.low start with idle | ⟨_, marks⟩
    · exact idle.proper clean
    · exact marks.proper clean
  | fault address write notPresent =>
    rcases handleFault_spec clean.low address write notPresent with
      idle | faults | ⟨_, copies⟩
    · exact idle.proper clean
    · exact faults.proper clean
    · exact copies.proper clean

end

/-- Either every page gets a frame, or none of them has an entry, or the replaced region's entries
go with it. -/
def SparingAt (state : State) (range : VirtRange) (protection : Protection)
    (lazy replace : Bool) : Prop :=
  Lower range ∧
    (lazy = false ∧ protection.present = true ∨ state.Bare range ∨
      replace = true ∧ ∃ region ∈ state.space.regions.regions, region.range = range ∧
        Freeable region.toPolicy)

theorem mapFrom_proper (clean : state.Clean) (low : Lower range)
    (bare : lazy = false ∧ protection.present = true ∨ state.Bare range) : Proper state
      (if lazy then state.mapAnonymousLazy range protection
        else state.mapAnonymous range protection).2 := by
  cases lazy with
  | true => exact mapAnonymousLazy_proper clean low (bare.resolve_left nofun)
  | false => exact mapAnonymous_proper clean low (bare.imp_left And.right)

theorem bare_of_leaves (bare : before.Bare range)
    (gone : ∀ slot, before.space.leaves slot = none → after.space.leaves slot = none) :
    after.Bare range :=
  fun page inside => gone page (bare page inside)

theorem mapAt_proper
    (clean : state.Clean) (sparing : state.SparingAt range protection lazy replace) :
    Proper state (state.mapAt range protection lazy replace).2 := by
  obtain ⟨low, bare⟩ := sparing
  unfold mapAt
  simp only
  cases replace with
  | false =>
    refine mapFrom_proper clean low (bare.imp_right fun rest => rest.resolve_right ?_)
    nofun
  | true =>
    simp only [Bool.not_true, Bool.false_eq_true, if_false]
    split
    · next exact =>
        obtain ⟨region, located, same⟩ := (Option.any_eq_true _ _).mp exact
        obtain rfl := of_decide_eq_true same
        have member := RangeMap.find_mem located
        obtain ⟨after, done, moved⟩ := unmap_spec member low
        rw [done]
        have first : Proper state after := by
          have proper := unmap_proper clean region.range.start
          rw [done] at proper
          exact proper
        refine first.trans (mapFrom_proper first.clean low (bare.imp_right fun rest => ?_))
        rcases moved with ⟨_, _, _, dropped⟩ | ⟨policies, _, _, supplied⟩
        · exact fun page inside => dropped.inside page (VirtRange.mem_pagesIter.mpr inside)
        have untouched : after.space.leaves = state.space.leaves := supplied.leaves
        rcases rest with bare | ⟨_, other, other_mem, extent, freeable⟩
        · exact bare_of_leaves bare fun slot vacant => by rw [untouched, vacant]
        -- The region that is replaced is the one whose entries go.
        obtain ⟨policy, found, kept⟩ := policies region.range.first region.range.first_mem
        rw [RangeMap.policyAt_of_mem other_mem (extent ▸ region.range.first_mem)] at found
        cases found
        exact absurd freeable kept
    next inexact =>
    have bare' : lazy = false ∧ protection.present = true ∨ state.Bare range := by
      refine bare.imp_right fun rest => rest.resolve_right ?_
      rintro ⟨_, region, member, rfl, _⟩
      rw [RangeMap.find_eq_some.mpr ⟨member, region.range.first_mem⟩] at inexact
      simp at inexact
    cases lazy with
    | false => exact mapFrom_proper clean low bare'
    | true =>
      have bare := bare'.resolve_left nofun
      simp only [if_true]
      have touched : Proper state (state.replaceUntouched range.start range.pages protection).2 ∧
          (state.replaceUntouched range.start range.pages protection).2.Bare range := by
        rcases replaceUntouched_spec clean.low range.start range.pages protection with
          idle | ⟨changed, _, _, moved⟩
        · refine ⟨idle.proper clean, bare_of_leaves bare fun slot vacant => ?_⟩
          rcases idle.still.leaves slot with same | gone
          · rw [same, vacant]
          · exact gone.1
        · refine ⟨moved.proper clean, bare_of_leaves bare fun slot vacant => ?_⟩
          obtain ⟨_, regions, _, flagged⟩ := moved
          have vacant' : (state.setRegions regions).space.leaves slot = none := vacant
          by_cases member : slot ∈ changed.pagesIter
          · rw [flagged.inside slot member, vacant', Option.map_none]
          · rw [flagged.outside slot member, vacant']
      cases result : state.replaceUntouched range.start range.pages protection with
      | mk outcome after =>
        rw [result] at touched
        cases outcome with
        | ok _ => exact touched.1
        | error error =>
          exact touched.1.trans (mapAnonymousLazy_proper touched.1.clean low touched.2)

end State

end Bhaskix.Vm
