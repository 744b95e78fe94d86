import Bhaskix.Mm.Buddy

namespace Bhaskix.Mm

open Library

/-- The allocator, what it has been given to manage, and the blocks that are out. -/
structure Machine where
  pmm : Pmm
  managed : Set Nat
  taken : List Extent

namespace Machine

def new (count : Nat) : Machine :=
  { pmm := .new count, managed := ∅, taken := [] }

/-- Ranges are added next to what is managed already, and only what is out is given back. -/
inductive Step : Machine → Machine → Prop
  | addFreeRange {pmm after managed taken} (start stop : Nat)
      (apart : Disjoint (Set.Ico start stop) managed)
      (went : pmm.addFreeRange start stop = some after) :
      Step ⟨pmm, managed, taken⟩ ⟨after, pmm.range start stop ∪ managed, taken⟩
  | allocate {pmm after managed taken pfn} (order : Nat)
      (zone : Zone) (went : pmm.allocate order zone = (.ok pfn, after)) :
      Step ⟨pmm, managed, taken⟩ ⟨after, managed, ⟨pfn, order⟩ :: taken⟩
  | refuse {pmm after managed taken error}
      (order : Nat) (zone : Zone) (went : pmm.allocate order zone = (.error error, after)) :
      Step ⟨pmm, managed, taken⟩ ⟨after, managed, taken⟩
  | free {pmm after managed taken block result} (out : block ∈ taken)
      (went : pmm.free block.start block.order = (result, after)) :
      Step ⟨pmm, managed, taken⟩ ⟨after, managed, taken.erase block⟩

/-- The free blocks tile `area`, and the blocks that are out tile the rest of what is managed. -/
structure Balanced (machine : Machine) (area : Set Nat) : Prop where
  sound : machine.pmm.Sound area
  inside : area ⊆ machine.managed
  out : Tiles { block | block ∈ machine.taken } (machine.managed \ area)
  nodup : machine.taken.Nodup
  small {block : Extent} : block ∈ machine.taken → block.order ≤ maxOrder
  aligned {block : Extent} : block ∈ machine.taken → block.Aligned
  marked {block : Extent} : block ∈ machine.taken →
    (machine.pmm.frames block.start).state = .allocated
  within {pfn : Nat} : pfn ∈ machine.managed → pfn < machine.pmm.lastPfn

theorem sound_new (count : Nat) : (Pmm.new count).Sound ∅ := by
  have none (pfn order : Nat) : ¬ (Pmm.new count).Heads pfn order := fun heads => nomatch heads.1
  have empty : (Pmm.new count).freeBlocks = ∅ := by
    ext block
    exact iff_of_false (none _ _) id
  refine ⟨⟨fun _ => [], fun _ _ => rfl, fun _ => List.nodup_nil, ?_, ?_, ?_, fun _ => by simp; rfl⟩,
    by rw [empty]; exact Tiles.empty, ?_, nofun⟩
  · intro zone order pfn
    exact iff_of_false (by simp) fun both => none _ _ both.2
  · exact fun heads => absurd heads (none _ _)
  · exact fun heads => absurd heads (none _ _)
  · exact fun member => absurd member (none _ _)

theorem balanced_new (count : Nat) : (Machine.new count).Balanced ∅ where
  sound := sound_new count
  inside := le_rfl
  out := by
    have empty : { block | block ∈ (Machine.new count).taken } = ∅ := by
      ext block
      exact iff_of_false (by simp [new]) id
    rw [empty, show (Machine.new count).managed \ ∅ = ∅ from Set.empty_sdiff ∅]
    exact Tiles.empty
  nodup := List.nodup_nil
  small := nofun
  aligned := nofun
  marked := nofun
  within := nofun

variable {machine next : Machine} {area : Set Nat}

theorem Balanced.disjoint (balanced : machine.Balanced area)
    (member : block ∈ machine.taken) : Disjoint block.span area :=
  Set.disjoint_sdiff_left.mono_left (balanced.out.subset member)

theorem Balanced.step (balanced : machine.Balanced area) (step : Step machine next) :
    ∃ area, next.Balanced area := by
  cases step with
  | @addFreeRange pmm after managed taken start stop apart went =>
    have outside : Disjoint (pmm.range start stop) managed :=
      apart.mono_left (Set.Ico_subset_Ico_right (Nat.min_le_left ..))
    have outArea := outside.mono_right balanced.inside
    obtain ⟨sound, leaves⟩ := balanced.sound.addFreeRange outArea went
    refine ⟨_, sound, Set.union_subset_union_right _ balanced.inside, ?_, balanced.nodup,
      balanced.small, balanced.aligned, ?_, ?_⟩
    · have rest : (pmm.range start stop ∪ managed) \ (pmm.range start stop ∪ area) =
          managed \ area := by
        ext pfn
        have away : pfn ∈ pmm.range start stop → pfn ∉ managed :=
          fun member => Set.disjoint_left.mp outside member
        simp only [Set.mem_sdiff, Set.mem_union]
        tauto
      rw [rest]
      exact balanced.out
    · intro block member
      rw [leaves.2 _ fun inside => ?_]
      · exact balanced.marked member
      · exact Set.disjoint_left.mp outside inside ((balanced.out.subset member) block.start_mem).1
    · intro pfn member
      rw [leaves.lastPfn]
      rcases member with fresh | old
      · exact fresh.2.trans_le (Nat.min_le_right ..)
      · exact balanced.within old
  | @allocate pmm after managed taken pfn order zone went =>
    obtain ⟨small, _, hands⟩ := balanced.sound.allocate went
    have fresh : (⟨pfn, order⟩ : Extent) ∉ taken := fun member =>
      Set.disjoint_left.mp (balanced.disjoint member) (Extent.start_mem _)
        (hands.inside (Extent.start_mem _))
    refine ⟨_, hands.sound, Set.sdiff_subset.trans balanced.inside, ?_,
      List.nodup_cons.mpr ⟨fresh, balanced.nodup⟩, ?_, ?_, ?_, ?_⟩
    · have apart : Disjoint (Extent.span ⟨pfn, order⟩) (managed \ area) :=
        Set.disjoint_sdiff_right.mono_left hands.inside
      have blocks : { block | block ∈ (⟨pfn, order⟩ : Extent) :: taken } =
          insert ⟨pfn, order⟩ { block | block ∈ taken } := by
        ext block
        exact List.mem_cons
      have rest : managed \ (area \ Extent.span ⟨pfn, order⟩) =
          Extent.span ⟨pfn, order⟩ ∪ managed \ area := by
        ext frame
        have within : frame ∈ area → frame ∈ managed := fun member => balanced.inside member
        have part : frame ∈ Extent.span ⟨pfn, order⟩ → frame ∈ area :=
          fun member => hands.inside member
        simp only [Set.mem_sdiff, Set.mem_union]
        tauto
      rw [blocks, rest]
      exact balanced.out.insert apart
    · intro block member
      rcases List.mem_cons.mp member with rfl | old
      · exact small
      · exact balanced.small old
    · intro block member
      rcases List.mem_cons.mp member with rfl | old
      · exact hands.aligned
      · exact balanced.aligned old
    · intro block member
      rcases List.mem_cons.mp member with rfl | old
      · exact hands.marked
      · rw [hands.leaves.2 _ (Set.disjoint_left.mp (balanced.disjoint old) block.start_mem)]
        exact balanced.marked old
    · intro frame member
      rw [hands.leaves.lastPfn]
      exact balanced.within member
  | @refuse pmm after managed taken error order zone went =>
    obtain rfl := Pmm.eq_of_refused went
    exact ⟨area, balanced⟩
  | @free pmm after managed taken block result out went =>
    have inside := balanced.out.subset out
    obtain ⟨after', done, sound, leaves⟩ := balanced.sound.free (balanced.small out)
      (balanced.aligned out) (balanced.disjoint out)
      (fun frame member => balanced.within (inside member).1) (balanced.marked out)
    rw [done] at went
    obtain ⟨_, rfl⟩ := Prod.mk.inj went
    have kept {other : Extent} (member : other ∈ taken.erase block) :
        other ∈ taken ∧ other ≠ block :=
      ((balanced.nodup.mem_erase_iff).mp member).symm
    refine ⟨_, sound, Set.union_subset (inside.trans Set.sdiff_subset) balanced.inside, ?_,
      balanced.nodup.erase _, fun member => balanced.small (kept member).1,
      fun member => balanced.aligned (kept member).1, ?_, ?_⟩
    · have blocks : { other | other ∈ taken.erase block } =
          { other | other ∈ taken } \ {block} := by
        ext other
        exact balanced.nodup.mem_erase_iff.trans and_comm
      have rest : managed \ (block.span ∪ area) = (managed \ area) \ block.span := by
        rw [Set.union_comm, Set.sdiff_sdiff]
      rw [blocks, rest]
      exact balanced.out.remove out
    · intro other member
      obtain ⟨old, differs⟩ := kept member
      rw [leaves.2 _ ?_]
      · exact balanced.marked old
      rintro (here | here)
      · exact differs (balanced.out.eq_of_mem old out other.start_mem here)
      · exact Set.disjoint_left.mp (balanced.disjoint old) other.start_mem here
    · intro frame member
      rw [leaves.lastPfn]
      exact balanced.within member

end Machine

namespace Pmm

variable {pmm : Pmm}

theorem walkList_linked (list : List Nat) (linked : Linked pmm.next pmm.prev previous head list)
    (heads : ∀ pfn ∈ list, pmm.Heads pfn order ∧ (pmm.frames pfn).state = .free ∧
      pfn % 2 ^ order = 0) (fits : list.length ≤ room) :
    pmm.walkList order room head previous counted = .ok (counted + list.length * 2 ^ order) := by
  induction list generalizing room counted head previous with
  | nil =>
    rw [linked.head_eq]
    cases room <;> simp [walkList]
  | cons pfn rest ih =>
    obtain ⟨rfl, back, tail⟩ := linked
    obtain ⟨⟨isHead, orders⟩, state, aligned⟩ := heads pfn List.mem_cons_self
    have link : (pmm.frames pfn).prev = previous := back
    cases room with
    | zero => exact absurd fits (by simp)
    | succ room =>
      rw [walkList]
      simp only [state, isHead, orders, aligned, link, ne_eq, not_true_eq_false, if_false,
        Bool.true_eq_false]
      refine (ih tail (fun other member => heads other (List.mem_cons_of_mem _ member))
        (Nat.le_of_succ_le_succ fits)).trans ?_
      rw [List.length_cons]
      congr 1
      ring

section

variable (sound : pmm.Sound area) (threaded : pmm.Threaded lists) (zone : Zone)
include sound threaded zone

theorem Sound.length_le (order : Nat) : (lists (zone, order)).length ≤ pmm.count := by
  rw [← List.toFinset_card_of_nodup (threaded.nodup (zone, order)), ← Finset.card_range pmm.count]
  refine Finset.card_le_card fun pfn member => Finset.mem_range.mpr ?_
  have heads := (threaded.member.mp (List.mem_toFinset.mp member)).2
  have inside := sound.tiles.subset (show (⟨pfn, order⟩ : Extent) ∈ pmm.freeBlocks from heads)
    (Extent.start_mem ⟨pfn, order⟩)
  exact (sound.inside inside).trans_le (Nat.mod_le ..)

theorem Sound.walkList (order counted : Nat) :
    pmm.walkList order pmm.count ((pmm.zones zone).freeLists order) none counted =
      .ok (counted + (lists (zone, order)).length * 2 ^ order) := by
  refine walkList_linked _ (threaded.linked zone order) (fun pfn member => ?_)
    (sound.length_le threaded zone order)
  have heads := (threaded.member.mp member).2
  have aligned := sound.aligned (show (⟨pfn, order⟩ : Extent) ∈ pmm.freeBlocks from heads)
  exact ⟨heads, threaded.free heads, Nat.mod_eq_zero_of_dvd aligned⟩

theorem Sound.walkLists (orders : Nat) : (List.range orders).foldlM (fun counted order =>
        pmm.walkList order pmm.count ((pmm.zones zone).freeLists order) none counted) 0 =
      .ok (∑ order ∈ Finset.range orders, (lists (zone, order)).length * 2 ^ order) := by
  induction orders with
  | zero => rfl
  | succ orders ih =>
    rw [List.range_succ, List.foldlM_append, ih, Finset.sum_range_succ]
    simp only [List.foldlM_cons, List.foldlM_nil]
    refine (congrArg (· >>= pure) (sound.walkList threaded zone orders _)).trans ?_
    rfl

end

theorem Sound.checkInvariants (sound : pmm.Sound area) : pmm.checkInvariants = .ok () := by
  obtain ⟨lists, threaded⟩ := sound.threaded
  have zone (zone : Zone) : pmm.checkZone zone = .ok () := by
    rw [checkZone, sound.walkLists threaded zone orderCount]
    refine (if_neg ?_)
    rw [not_not, threaded.counted]
  rw [Pmm.checkInvariants, zone .dma32, zone .normal]
  rfl

variable {after : Pmm} {frame : Nat}

/-- `frame` keeps its state unless it now begins a free block. -/
def Spares (frame : Nat) (pmm after : Pmm) : Prop :=
  (after.frames frame).state = (pmm.frames frame).state ∨
    (after.frames frame).state = .free ∧ (after.frames frame).isHead = true

theorem Spares.marked (spares : Spares frame pmm after)
    (marked : (after.frames frame).state = .allocated) :
    (pmm.frames frame).state = .allocated := by
  rcases spares with same | ⟨free, _⟩
  · exact same.symm.trans marked
  · cases free.symm.trans marked

theorem Spares.push (spares : Spares frame pmm after) (pfn order : Nat) :
    Spares frame pmm (after.pushBlock pfn order) := by
  by_cases same : frame = pfn
  · subst same
    obtain ⟨state, rest⟩ := Prod.mk.inj (mark_here (mark_pushBlock after frame order))
    exact .inr ⟨state, (Prod.mk.inj rest).2⟩
  · obtain ⟨state, rest⟩ := Prod.mk.inj (mark_away (mark_pushBlock after pfn order) same)
    rw [Spares, state, (Prod.mk.inj rest).2]
    exact spares

theorem Spares.splitDown (current : Nat) (spares : Spares frame pmm after) :
    Spares frame pmm (after.splitDown pfn order current) := by
  induction current generalizing after with
  | zero => exact spares
  | succ current ih =>
    rw [Pmm.splitDown]
    split
    · exact ih (spares.push _ _)
    · exact spares

theorem spares_coalesce (turns pfn order : Nat)
    (same : (after.frames frame).state = (pmm.frames frame).state) :
    Spares frame pmm (after.coalesce turns pfn order) := by
  have pushed : Spares frame pmm (after.pushBlock pfn order) := .push (.inl same) pfn order
  induction turns generalizing after pfn order with
  | zero => exact pushed
  | succ turns ih =>
    rw [coalesce]
    simp only
    split
    · exact pushed
    split
    · exact pushed
    split
    · exact pushed
    · have removed := (state_removeBlock after (pfn ^^^ 2 ^ order) order frame).trans same
      exact ih _ _ removed (.push (.inl removed) _ _)

theorem Spares.release (turns : Nat) (spares : Spares frame pmm middle)
    (went : middle.release stop turns pfn = some after) : Spares frame pmm after := by
  induction turns generalizing middle pfn with
  | zero =>
    cases went
    exact spares
  | succ turns ih =>
    rw [Pmm.release] at went
    split at went
    · split at went
      · cases went
      · exact ih (spares.push _ _) went
    · cases went
      exact spares

theorem unmarked_addFreeRange (went : pmm.addFreeRange start stop = some after)
    (marked : (after.frames frame).state = .allocated) :
    (pmm.frames frame).state = .allocated := by
  have marks (pfns : List Nat)
      (marked : ((pfns.foldl markFree pmm).frames frame).state = .allocated) :
      (pmm.frames frame).state = .allocated := by
    induction pfns using List.reverseRecOn with
    | nil => exact marked
    | append_singleton rest pfn ih =>
      rw [List.foldl_concat] at marked
      by_cases same : frame = pfn
      · simp [same, markFree, setFrame] at marked
      · rw [(leaves_markFree _ pfn).2 frame same] at marked
        exact ih marked
  rw [addFreeRange] at went
  split at went
  · cases went
    exact marked
  · exact marks _ ((Spares.release _ (.inl rfl) went).marked marked)

theorem spares_allocate (went : pmm.allocate order zone = (.ok pfn, after))
    (differs : frame ≠ pfn) : Spares frame pmm after := by
  rcases pmm.allocate_cases order zone with ⟨_, failed⟩ | ⟨_, found, _, done, _⟩
  · rw [failed] at went
    exact nomatch went
  rw [done] at went
  cases went
  have removed : Spares frame pmm (pmm.removeBlock pfn found) := .inl (state_removeBlock ..)
  have split : Spares frame pmm ((pmm.removeBlock pfn found).splitDown pfn order found) :=
    removed.splitDown found
  rw [Spares, handOut, setFrame]
  dsimp only
  rwa [Function.update_of_ne differs]

theorem spares_free (pmm : Pmm) (pfn order : Nat) : Spares frame pmm (pmm.free pfn order).2 := by
  rw [free]
  split
  · exact .inl rfl
  split
  · exact .inl rfl
  split
  · exact .inl rfl
  split
  · exact .inl rfl
  refine spares_coalesce _ _ _ ?_
  by_cases same : frame = pfn
  · simp [same, setFrame]
  · exact (leaves_setFrame ..).2 frame same

theorem free_refused_iff (pmm : Pmm) (pfn order : Nat) :
    (∃ error, pmm.free pfn order = (.error error, pmm)) ↔ maxOrder < order ∨
      pmm.count < pfn + 2 ^ order ∨ ¬ 2 ^ order ∣ pfn ∨ (pmm.frames pfn).state ≠ .allocated := by
  rw [free, Nat.dvd_iff_mod_eq_zero]
  split
  · simp [*]
  split
  · simp [*]
  split
  · simp [*]
  split
  · simp [*]
  · simp [*]

end Pmm

namespace Machine

variable {machine next : Machine} {pfn : Nat}

theorem balanced_run (run : Relation.ReflTransGen Step (Machine.new count) machine) :
    ∃ area, machine.Balanced area := by
  induction run with
  | refl => exact ⟨∅, balanced_new count⟩
  | tail _ step ih =>
    obtain ⟨area, balanced⟩ := ih
    exact balanced.step step

/-- No frame is handed out twice and none is lost. -/
theorem exact_run {count : Nat} (run : Relation.ReflTransGen Step (Machine.new count) machine) :
    Tiles (machine.pmm.freeBlocks ∪ { block | block ∈ machine.taken }) machine.managed ∧
      Disjoint machine.pmm.freeBlocks { block | block ∈ machine.taken } ∧ machine.taken.Nodup ∧
      (∀ block ∈ machine.pmm.freeBlocks ∪ { block | block ∈ machine.taken },
        block.Aligned ∧ (block.start + 2 ^ block.order ≤ dma32LimitPfn ∨
          dma32LimitPfn ≤ block.start)) ∧
      (∀ order pfn after, machine.pmm.allocate order .dma32 = (.ok pfn, after) →
        pfn + 2 ^ order ≤ dma32LimitPfn) ∧
      (∃ lists, machine.pmm.Threaded lists) ∧ machine.pmm.checkInvariants = .ok () ∧
      (∀ block ∈ machine.taken, (machine.pmm.free block.start block.order).1 = .ok ()) ∧
      (machine.pmm.count + 2 ^ maxOrder ≤ 2 ^ 32 → ∀ start stop,
        (machine.pmm.addFreeRange start stop).isSome) := by
  obtain ⟨area, balanced⟩ := balanced_run run
  obtain ⟨lists, threaded⟩ := balanced.sound.threaded
  have sides {block : Extent} (aligned : block.Aligned) (small : block.order ≤ maxOrder) :
      block.start + 2 ^ block.order ≤ dma32LimitPfn ∨ dma32LimitPfn ≤ block.start := by
    have whole := Pmm.not_crosses aligned (small.trans (Nat.le_succ _))
    omega
  refine ⟨?_, ?_, balanced.nodup, ?_, ?_, ⟨lists, threaded⟩, balanced.sound.checkInvariants, ?_, ?_⟩
  · have tiles := balanced.sound.tiles.union balanced.out Set.disjoint_sdiff_right
    rwa [Set.union_sdiff_cancel balanced.inside] at tiles
  · refine Set.disjoint_left.mpr fun block free out => ?_
    exact Set.disjoint_left.mp (balanced.disjoint out) block.start_mem
      (balanced.sound.tiles.subset free block.start_mem)
  · rintro block (free | out)
    · exact ⟨balanced.sound.aligned free, sides (balanced.sound.aligned free) (threaded.small free)⟩
    · exact ⟨balanced.aligned out, sides (balanced.aligned out) (balanced.small out)⟩
  · intro order pfn after went
    obtain ⟨small, zones, hands⟩ := balanced.sound.allocate went
    rcases sides hands.aligned small with low | high
    · exact low
    have zone := zones rfl
    rw [zoneOf, if_neg (Nat.not_lt.mpr high)] at zone
    exact nomatch zone
  · intro block out
    obtain ⟨after, done, _⟩ := balanced.sound.free (balanced.small out) (balanced.aligned out)
      (balanced.disjoint out)
      (fun frame member => balanced.within (balanced.out.subset out member).1)
      (balanced.marked out)
    rw [done]
  · intro room start stop
    have cut : machine.pmm.lastPfn ≤ machine.pmm.count := Nat.mod_le ..
    exact Pmm.isSome_addFreeRange start stop (by omega)

/-- Four frames, of which two are handed out and come back. -/
theorem exact_run_four :
    ∃ pmm, Relation.ReflTransGen Step (Machine.new 4) ⟨pmm, Set.Ico 0 4 ∪ ∅, []⟩ ∧
      Tiles (pmm.freeBlocks ∪ { block | block ∈ ([] : List Extent) }) (Set.Ico 0 4 ∪ ∅) := by
  have added := (Relation.ReflTransGen.refl (a := Machine.new 4) (r := Step)).tail
    (.addFreeRange 0 4 (Set.disjoint_empty _) rfl)
  have run := (added.tail (.allocate 1 .dma32 rfl)).tail (.free List.mem_cons_self rfl)
  exact ⟨_, run, (exact_run run).1⟩

theorem Step.unmarked (step : Step machine next) (spared : ∀ block ∈ next.taken, block.start ≠ pfn)
    (unmarked : (machine.pmm.frames pfn).state ≠ .allocated) :
    (next.pmm.frames pfn).state ≠ .allocated := by
  cases step with
  | addFreeRange _ _ _ went => exact fun marked => unmarked (Pmm.unmarked_addFreeRange went marked)
  | allocate _ _ went =>
    have differs := (spared _ List.mem_cons_self).symm
    exact fun marked => unmarked ((Pmm.spares_allocate went differs).marked marked)
  | refuse _ _ went =>
    obtain rfl := Pmm.eq_of_refused went
    exact unmarked
  | @free pmm after _ _ block _ _ went =>
    have spares := @Pmm.spares_free pfn pmm block.start block.order
    rw [went] at spares
    exact fun marked => unmarked (spares.marked marked)

theorem Step.stays_marked (step : Step machine next) (balanced : machine.Balanced area)
    (inside : pfn ∈ machine.managed) (marked : (machine.pmm.frames pfn).state = .allocated)
    (headless : ∀ order, ⟨pfn, order⟩ ∉ next.pmm.freeBlocks) :
    pfn ∈ next.managed ∧ (next.pmm.frames pfn).state = .allocated := by
  have keeps (spares : Pmm.Spares pfn machine.pmm next.pmm) :
      (next.pmm.frames pfn).state = .allocated := by
    rcases spares with same | ⟨_, heads⟩
    · exact same.trans marked
    · exact absurd (And.intro heads rfl) (headless (next.pmm.frames pfn).order)
  cases step with
  | @addFreeRange pmm after managed taken start stop apart went =>
    have outside : Disjoint (pmm.range start stop) managed :=
      apart.mono_left (Set.Ico_subset_Ico_right (Nat.min_le_left ..))
    obtain ⟨_, leaves⟩ := balanced.sound.addFreeRange (outside.mono_right balanced.inside) went
    exact ⟨.inr inside, keeps (.inl (leaves.2 _ fun fresh =>
      Set.disjoint_left.mp outside fresh inside))⟩
  | @allocate _ _ _ _ handed _ _ went =>
    refine ⟨inside, ?_⟩
    by_cases same : pfn = handed
    · exact same ▸ (balanced.sound.allocate went).2.2.marked
    · exact keeps (Pmm.spares_allocate went same)
  | refuse _ _ went =>
    obtain rfl := Pmm.eq_of_refused went
    exact ⟨inside, marked⟩
  | @free pmm after _ _ block _ _ went =>
    have spares := @Pmm.spares_free pfn pmm block.start block.order
    rw [went] at spares
    exact ⟨inside, keeps spares⟩

/-- A block that begins at `pfn` was out at some time, and no free block has begun there since. -/
def Stale (count : Nat) (machine : Machine) (pfn : Nat) : Prop :=
  ∃ out, Relation.ReflTransGen Step (Machine.new count) out ∧
    (∃ block ∈ out.taken, block.start = pfn) ∧
    Relation.ReflTransGen (fun before after => Step before after ∧
      ∀ order, ⟨pfn, order⟩ ∉ after.pmm.freeBlocks) out machine

theorem marked_iff_stale {count : Nat}
    (run : Relation.ReflTransGen Step (Machine.new count) machine) :
    (machine.pmm.frames pfn).state = .allocated ↔ Stale count machine pfn := by
  constructor
  · intro marked
    induction run with
    | refl => cases marked
    | @tail before after run step ih =>
      by_cases already : (before.pmm.frames pfn).state = .allocated
      · obtain ⟨out, reached, began, since⟩ := ih already
        refine ⟨out, reached, began, since.tail ⟨step, fun order heads => ?_⟩⟩
        obtain ⟨area, balanced⟩ := balanced_run (run.tail step)
        obtain ⟨lists, threaded⟩ := balanced.sound.threaded
        cases marked.symm.trans (threaded.free heads)
      · refine ⟨after, run.tail step, ?_, .refl⟩
        by_contra spared
        exact step.unmarked (fun block out here => spared ⟨block, out, here⟩) already marked
  · rintro ⟨out, reached, ⟨block, member, rfl⟩, since⟩
    suffices kept : block.start ∈ machine.managed ∧
        (machine.pmm.frames block.start).state = .allocated from kept.2
    clear run
    induction since with
    | refl =>
      obtain ⟨area, balanced⟩ := balanced_run reached
      exact ⟨(balanced.out.subset member block.start_mem).1, balanced.marked member⟩
    | @tail before after earlier step ih =>
      obtain ⟨area, balanced⟩ := balanced_run
        (reached.trans (earlier.lift id fun _ _ both => both.1))
      exact step.1.stays_marked balanced ih.1 ih.2 step.2

/-- A frame that was merged into its buddy stays marked, so freeing it twice may pass. -/
theorem bad_free_refused {count : Nat}
    (run : Relation.ReflTransGen Step (Machine.new count) machine) (pfn order : Nat) :
    (∃ error, machine.pmm.free pfn order = (.error error, machine.pmm)) ↔ maxOrder < order ∨
      machine.pmm.count < pfn + 2 ^ order ∨ ¬ 2 ^ order ∣ pfn ∨ ¬ Stale count machine pfn := by
  rw [Pmm.free_refused_iff, ← marked_iff_stale run]

theorem bad_free_refused_two : ∃ pmm, Relation.ReflTransGen Step (Machine.new 2)
      ⟨pmm, Set.Ico 0 2 ∪ ∅, [⟨1, 0⟩, ⟨0, 0⟩]⟩ ∧ ∃ error, pmm.free 1 1 = (.error error, pmm) := by
  have added := (Relation.ReflTransGen.refl (a := Machine.new 2) (r := Step)).tail
    (.addFreeRange 0 2 (Set.disjoint_empty _) rfl)
  have out := (added.tail (.allocate 0 .dma32 rfl)).tail (.allocate 0 .dma32 rfl)
  exact ⟨_, out, (bad_free_refused out 1 1).mpr (.inr (.inr (.inl (by decide))))⟩

/-- Two frames go out and come back; the upper one is then accepted once more. -/
theorem bad_free_accepted : ∃ machine, Relation.ReflTransGen Step (Machine.new 2) machine ∧
    machine.taken = [] ∧ (machine.pmm.free 1 0).1 = .ok () := by
  have added := (Relation.ReflTransGen.refl (a := Machine.new 2) (r := Step)).tail
    (.addFreeRange 0 2 (Set.disjoint_empty _) rfl)
  have out := (added.tail (.allocate 0 .dma32 rfl)).tail (.allocate 0 .dma32 rfl)
  have lower : (⟨0, 0⟩ : Extent) ∈ [⟨1, 0⟩, ⟨0, 0⟩] := by simp
  exact ⟨_, (out.tail (.free lower rfl)).tail (.free List.mem_cons_self rfl), rfl, rfl⟩

end Machine

end Bhaskix.Mm
