import Bhaskix.Mm.FreeLists

/-!
Splitting and coalescing. The free blocks tile a set of frames, and every operation moves blocks
in or out of that set.
-/

namespace Bhaskix.Mm

open Library Extent Function Set

namespace Pmm

variable {pmm after : Pmm} {area : Set Nat} {pfn order : Nat} {zone : Zone}
  {lists : Zone × Nat → List Nat}

def freeBlocks (pmm : Pmm) : Set Extent :=
  { block | pmm.Heads block.start block.order }

structure Sound (pmm : Pmm) (area : Set Nat) : Prop where
  threaded : ∃ lists, pmm.Threaded lists
  tiles : Tiles pmm.freeBlocks area
  aligned {block : Extent} : block ∈ pmm.freeBlocks → block.Aligned
  inside {pfn : Nat} : pfn ∈ area → pfn < pmm.lastPfn

section

variable (sound : pmm.Sound area)
include sound

theorem Sound.not_heads (outside : pfn ∉ area) (order : Nat) : ¬ pmm.Heads pfn order := by
  intro heads
  exact outside (sound.tiles.subset (show (⟨pfn, order⟩ : Extent) ∈ pmm.freeBlocks from heads)
    (start_mem ⟨pfn, order⟩))

theorem Sound.push (small : order ≤ maxOrder)
    (aligned : Extent.Aligned ⟨pfn, order⟩) (apart : Disjoint (span ⟨pfn, order⟩) area)
    (inside : ∀ frame ∈ span ⟨pfn, order⟩, frame < pmm.lastPfn) :
    (pmm.pushBlock pfn order).Sound (span ⟨pfn, order⟩ ∪ area) := by
  have outside : pfn ∉ area :=
    disjoint_left.mp apart (start_mem ⟨pfn, order⟩)
  have fresh := sound.not_heads outside
  have blocks : (pmm.pushBlock pfn order).freeBlocks = insert ⟨pfn, order⟩ pmm.freeBlocks := by
    ext ⟨start, size⟩
    simp only [freeBlocks, mem_ofPred_eq, heads_pushBlock, mem_insert_iff, Extent.mk.injEq]
    by_cases same : start = pfn
    · subst same
      simp [fresh]
    · simp [same]
  refine ⟨?_, ?_, ?_, ?_⟩
  · obtain ⟨lists, threaded⟩ := sound.threaded
    exact ⟨_, threaded.push small fresh⟩
  · rw [blocks]
    exact sound.tiles.insert apart
  · intro block member
    rw [blocks] at member
    rcases member with rfl | old
    · exact aligned
    · exact sound.aligned old
  · intro frame member
    rw [lastPfn, count_pushBlock]
    exact member.elim (inside frame) sound.inside

theorem Sound.remove (heads : pmm.Heads pfn order) :
    (pmm.removeBlock pfn order).Sound (area \ span ⟨pfn, order⟩) := by
  have blocks : (pmm.removeBlock pfn order).freeBlocks = pmm.freeBlocks \ {⟨pfn, order⟩} := by
    ext ⟨start, size⟩
    simp only [freeBlocks, mem_ofPred_eq, heads_removeBlock, mem_sdiff,
      mem_singleton_iff, Extent.mk.injEq]
    refine ⟨fun ⟨differs, still⟩ => ⟨still, fun same => differs same.1⟩,
      fun ⟨still, differs⟩ => ⟨?_, still⟩⟩
    rintro rfl
    exact differs ⟨rfl, still.2.symm.trans heads.2⟩
  refine ⟨?_, ?_, ?_, ?_⟩
  · obtain ⟨lists, threaded⟩ := sound.threaded
    exact ⟨_, threaded.remove heads⟩
  · rw [blocks]
    exact sound.tiles.remove heads
  · intro block member
    rw [blocks] at member
    exact sound.aligned member.1
  · intro frame member
    rw [lastPfn, count_removeBlock]
    exact sound.inside member.1

theorem Sound.congr (next : after.next = pmm.next) (prev : after.prev = pmm.prev)
    (heads : ∀ {pfn order}, after.Heads pfn order ↔ pmm.Heads pfn order)
    (states : ∀ {pfn order}, pmm.Heads pfn order → (after.frames pfn).state = .free)
    (freeLists : ∀ zone, (after.zones zone).freeLists = (pmm.zones zone).freeLists)
    (freeFrames : ∀ zone, (after.zones zone).freeFrames = (pmm.zones zone).freeFrames)
    (count : after.count = pmm.count) : after.Sound area := by
  have blocks : after.freeBlocks = pmm.freeBlocks := by
    ext block
    exact heads
  obtain ⟨lists, threaded⟩ := sound.threaded
  refine ⟨⟨lists, ?_, threaded.nodup, ?_, ?_, ?_, ?_⟩, by rw [blocks]; exact sound.tiles, ?_, ?_⟩
  · intro zone order
    rw [next, prev, freeLists]
    exact threaded.linked zone order
  · intro zone order pfn
    rw [heads]
    exact threaded.member
  · exact fun now => states (heads.mp now)
  · exact fun now => threaded.small (heads.mp now)
  · intro zone
    rw [freeFrames]
    exact threaded.counted zone
  · rw [blocks]
    exact sound.aligned
  · rw [lastPfn, count]
    exact sound.inside

theorem Sound.setFrame (outside : pfn ∉ area) (next : ∀ frame, (change frame).next = frame.next)
    (prev : ∀ frame, (change frame).prev = frame.prev)
    (head : ∀ frame, frame.isHead = false → (change frame).isHead = false) :
    (pmm.setFrame pfn change).Sound area := by
  have fresh : (pmm.frames pfn).isHead = false :=
    Bool.eq_false_iff.mpr fun heads => sound.not_heads outside _ ⟨heads, rfl⟩
  have away {other : Nat} (differs : other ≠ pfn) :
      (pmm.setFrame pfn change).frames other = pmm.frames other := update_of_ne differs ..
  have here : (pmm.setFrame pfn change).frames pfn = change (pmm.frames pfn) :=
    update_self ..
  have heads {start size : Nat} : (pmm.setFrame pfn change).Heads start size ↔
      pmm.Heads start size := by
    by_cases same : start = pfn
    · rw [same, Heads, Heads, here, head _ fresh, fresh]
      simp
    · rw [Heads, Heads, away same]
  obtain ⟨lists, threaded⟩ := sound.threaded
  refine sound.congr ?_ ?_ heads ?_ (fun _ => rfl) (fun _ => rfl) rfl
  · refine (comp_setFrame Frame.next pmm pfn change).trans ?_
    rw [next]
    exact update_eq_self ..
  · refine (comp_setFrame Frame.prev pmm pfn change).trans ?_
    rw [prev]
    exact update_eq_self ..
  · intro start size now
    have differs : start ≠ pfn := fun same => sound.not_heads outside size (same ▸ now)
    rw [away differs]
    exact threaded.free now

end

def Leaves (pmm : Pmm) (touched : Set Nat) (after : Pmm) : Prop :=
  after.count = pmm.count ∧
    ∀ pfn, pfn ∉ touched → (after.frames pfn).state = (pmm.frames pfn).state

theorem Leaves.trans (first : pmm.Leaves touched after)
    (second : after.Leaves touched last) : pmm.Leaves touched last :=
  ⟨second.1.trans first.1, fun pfn outside => (second.2 pfn outside).trans (first.2 pfn outside)⟩

theorem Leaves.mono (leaves : pmm.Leaves touched after)
    (wide : touched ⊆ wider) : pmm.Leaves wider after :=
  ⟨leaves.1, fun pfn outside => leaves.2 pfn fun inside => outside (wide inside)⟩

theorem leaves_pushBlock (pmm : Pmm) (pfn order : Nat) : pmm.Leaves {pfn}
    (pmm.pushBlock pfn order) :=
  ⟨count_pushBlock .., fun _ differs => state_pushBlock pmm order differs⟩

theorem leaves_setFrame (pmm : Pmm) (pfn : Nat) (change : Frame → Frame) :
    pmm.Leaves {pfn} (pmm.setFrame pfn change) := by
  refine ⟨rfl, fun other differs => ?_⟩
  have away : (pmm.setFrame pfn change).frames other = pmm.frames other :=
    update_of_ne differs ..
  rw [away]

theorem Leaves.lastPfn (leaves : pmm.Leaves touched after) : after.lastPfn = pmm.lastPfn := by
  rw [Pmm.lastPfn, Pmm.lastPfn, leaves.1]

theorem span_mono (least : small ≤ large) : span ⟨pfn, small⟩ ⊆ span ⟨pfn, large⟩ := by
  rintro frame ⟨low, high⟩
  exact ⟨low, high.trans_le (Nat.add_le_add_left (Nat.pow_le_pow_right Nat.two_pos least) _)⟩

theorem Sound.splitDown (current : Nat) (sound : pmm.Sound area)
    (small : current ≤ maxOrder) (least : order ≤ current) (aligned : Extent.Aligned ⟨pfn, current⟩)
    (apart : Disjoint (span ⟨pfn, current⟩) area)
    (inside : ∀ frame ∈ span ⟨pfn, current⟩, frame < pmm.lastPfn) :
    (pmm.splitDown pfn order current).Sound (area ∪ span ⟨pfn, current⟩ \ span ⟨pfn, order⟩) ∧
      pmm.Leaves (span ⟨pfn, current⟩) (pmm.splitDown pfn order current) := by
  induction current generalizing pmm area with
  | zero =>
    rw [Nat.le_zero.mp least, sdiff_self, union_empty]
    exact ⟨sound, rfl, fun _ _ => rfl⟩
  | succ current ih =>
    rw [Pmm.splitDown]
    by_cases whole : order = current + 1
    · rw [if_neg (by omega), whole, sdiff_self, union_empty]
      exact ⟨sound, rfl, fun _ _ => rfl⟩
    have halves := span_halves pfn current
    have least' : order ≤ current := by omega
    rw [halves] at apart inside ⊢
    rw [if_pos (by omega)]
    have pushed := sound.push (by omega : current ≤ maxOrder) aligned.half.2
      (apart.mono_left subset_union_right) (fun frame member => inside frame (.inr member))
    have leaves := leaves_pushBlock pmm (pfn + 2 ^ current) current
    obtain ⟨soundAfter, leavesAfter⟩ := ih pushed (by omega) least' aligned.half.1
      (Disjoint.union_right (disjoint_halves pfn current)
        (apart.mono_left subset_union_left))
      (fun frame member => by rw [leaves.lastPfn]; exact inside frame (.inl member))
    refine ⟨?_, (leaves.mono ?_).trans (leavesAfter.mono subset_union_left)⟩
    · -- the upper half has nothing of the block that is handed out
      have high : Disjoint (span ⟨pfn + 2 ^ current, current⟩) (span ⟨pfn, order⟩) :=
        (disjoint_halves pfn current).symm.mono_right (span_mono least')
      rw [union_sdiff_distrib, high.sdiff_eq_left]
      rwa [union_comm (span ⟨pfn + 2 ^ current, current⟩) area,
        union_assoc, union_comm (span ⟨pfn + 2 ^ current, current⟩)] at soundAfter
    · exact singleton_subset_iff.mpr (.inr (start_mem ⟨pfn + 2 ^ current, current⟩))

structure Hands (pmm : Pmm) (area : Set Nat) (block : Extent) (after : Pmm) : Prop where
  aligned : block.Aligned
  inside : block.span ⊆ area
  sound : after.Sound (area \ block.span)
  marked : (after.frames block.start).state = .allocated
  leaves : pmm.Leaves area after

/-- What `allocateFrom` leaves when the list of order `found` begins with `pfn`. -/
def handOut (pmm : Pmm) (pfn order found : Nat) : Pmm :=
  (splitDown pfn order found (pmm.removeBlock pfn found)).setFrame pfn fun frame =>
    { frame with state := .allocated, order, isHead := false, refcount := 1 }

theorem allocateFrom_cases (pmm : Pmm) (order : Nat) (zone : Zone) :
    pmm.allocateFrom order zone = (none, pmm) ∨
      ∃ pfn found, pmm.allocateFrom order zone = (some pfn, pmm.handOut pfn order found) ∧
        order ≤ found ∧ (pmm.zones zone).freeLists found = some pfn := by
  unfold Pmm.allocateFrom
  simp only
  split
  · exact .inl rfl
  rename_i found search
  split
  · exact .inl rfl
  rename_i pfn first
  have member := List.mem_range'_1.mp (List.mem_of_find?_eq_some search)
  exact .inr ⟨pfn, found, rfl, member.1, first⟩

theorem allocate_cases (pmm : Pmm) (order : Nat) (zone : Zone) :
    (∃ error, pmm.allocate order zone = (.error error, pmm)) ∨
      ∃ pfn found used, pmm.allocate order zone = (.ok pfn, pmm.handOut pfn order found) ∧
        order ≤ maxOrder ∧ order ≤ found ∧ (zone = .dma32 → used = .dma32) ∧
        (pmm.zones used).freeLists found = some pfn := by
  unfold Pmm.allocate
  by_cases large : maxOrder < order
  · rw [if_pos large]
    exact .inl ⟨_, rfl⟩
  rw [if_neg large]
  have small := Nat.le_of_not_lt large
  rcases pmm.allocateFrom_cases order zone with none | ⟨pfn, found, some, least, first⟩
  · simp only [none]
    cases zone with
    | dma32 => exact .inl ⟨_, rfl⟩
    | normal =>
      rw [if_pos rfl]
      rcases pmm.allocateFrom_cases order .dma32 with none | ⟨pfn, found, some, least, first⟩
      · simp only [none]
        exact .inl ⟨_, rfl⟩
      · simp only [some]
        exact .inr ⟨pfn, found, .dma32, rfl, small, least, nofun, first⟩
  · simp only [some]
    exact .inr ⟨pfn, found, zone, rfl, small, least, id, first⟩

theorem Sound.handOut (sound : pmm.Sound area) (least : order ≤ found)
    (first : (pmm.zones zone).freeLists found = some pfn) :
    zoneOf pfn = zone ∧ pmm.Hands area ⟨pfn, order⟩ (pmm.handOut pfn order found) := by
  obtain ⟨lists, threaded⟩ := sound.threaded
  have listed : pfn ∈ lists (zone, found) := by
    have linked := threaded.linked zone found
    rw [first] at linked
    exact List.mem_of_head? linked.head_eq.symm
  obtain ⟨zones, heads⟩ := threaded.member.mp listed
  have block : (⟨pfn, found⟩ : Extent) ∈ pmm.freeBlocks := heads
  have whole := sound.tiles.subset block
  have removed := sound.remove heads
  have count : (pmm.removeBlock pfn found).lastPfn = pmm.lastPfn := by
    rw [Pmm.lastPfn, Pmm.lastPfn, count_removeBlock]
  obtain ⟨split, leaves⟩ := removed.splitDown found (threaded.small heads) least
    (sound.aligned block) disjoint_sdiff_right
    (fun frame member => by rw [count]; exact sound.inside (whole member))
  have part : span ⟨pfn, order⟩ ⊆ span ⟨pfn, found⟩ := span_mono least
  have rest : area \ span ⟨pfn, found⟩ ∪ span ⟨pfn, found⟩ \ span ⟨pfn, order⟩ =
      area \ span ⟨pfn, order⟩ :=
    sdiff_union_sdiff_cancel whole part
  rw [rest] at split
  refine ⟨zones, ?_, part.trans whole, ?_, ?_, ?_⟩
  · exact (pow_dvd_pow 2 least).trans (sound.aligned block)
  · refine split.setFrame (fun member => member.2 (start_mem ⟨pfn, order⟩))
      (fun _ => rfl) (fun _ => rfl) (fun _ _ => rfl)
  · simp [Pmm.handOut, Pmm.setFrame]
  refine ⟨?_, fun other outside => ?_⟩
  · exact leaves.1.trans (count_removeBlock ..)
  have differs : other ≠ pfn := fun same =>
    outside (same ▸ whole (start_mem ⟨pfn, found⟩))
  rw [Pmm.handOut, (leaves_setFrame _ pfn _).2 other differs,
    leaves.2 other fun member => outside (whole member), state_removeBlock]

theorem Sound.allocate (sound : pmm.Sound area)
    (went : pmm.allocate order zone = (.ok pfn, after)) :
    order ≤ maxOrder ∧ (zone = .dma32 → zoneOf pfn = .dma32) ∧
      pmm.Hands area ⟨pfn, order⟩ after := by
  rcases pmm.allocate_cases order zone with
    ⟨_, failed⟩ | ⟨_, _, used, done, small, least, low, first⟩
  · rw [failed] at went
    exact nomatch went
  · rw [done] at went
    cases went
    have hands := sound.handOut least first
    exact ⟨small, fun dma => hands.1.trans (low dma), hands.2⟩

theorem eq_of_refused (went : pmm.allocate order zone = (.error error, after)) : after = pmm := by
  rcases pmm.allocate_cases order zone with ⟨_, failed⟩ | ⟨_, _, _, done, _⟩
  · rw [failed] at went
    exact (Prod.mk.inj went).2.symm
  · rw [done] at went
    exact nomatch went

theorem not_crosses {block : Extent} (aligned : block.Aligned)
    (small : block.order ≤ maxOrder + 1) :
    ¬ (block.start < dma32LimitPfn ∧ dma32LimitPfn < block.start + 2 ^ block.order) := by
  rintro ⟨low, high⟩
  have below := aligned.below (pow_dvd_pow 2 (small.trans (by decide : maxOrder + 1 ≤ 20))) low
  exact absurd high (Nat.not_lt.mpr below)

theorem Sound.coalesce (turns : Nat) (sound : pmm.Sound area) (left : order + turns = maxOrder)
    (aligned : Extent.Aligned ⟨pfn, order⟩) (apart : Disjoint (span ⟨pfn, order⟩) area)
    (inside : ∀ frame ∈ span ⟨pfn, order⟩, frame < pmm.lastPfn) :
    (pmm.coalesce turns pfn order).Sound (span ⟨pfn, order⟩ ∪ area) ∧
      pmm.Leaves (span ⟨pfn, order⟩ ∪ area) (pmm.coalesce turns pfn order) := by
  have pushed := sound.push (by omega) aligned apart inside
  have leaves := (leaves_pushBlock pmm pfn order).mono (singleton_subset_iff.mpr
    (mem_union_left area (start_mem ⟨pfn, order⟩)))
  induction turns generalizing pmm area pfn order with
  | zero => exact ⟨pushed, leaves⟩
  | succ turns ih =>
    rw [Pmm.coalesce]
    simp only
    split
    · exact ⟨pushed, leaves⟩
    split
    · exact ⟨pushed, leaves⟩
    rename_i merges
    rw [not_not] at merges
    split
    · exact ⟨pushed, leaves⟩
    have heads : pmm.Heads (pfn ^^^ 2 ^ order) order := merges.2
    have free : buddy ⟨pfn, order⟩ ∈ pmm.freeBlocks := heads
    have whole := sound.tiles.subset free
    have both := aligned.span_merged
    have removed := sound.remove heads
    have count : (pmm.removeBlock (pfn ^^^ 2 ^ order) order).lastPfn = pmm.lastPfn := by
      rw [Pmm.lastPfn, Pmm.lastPfn, count_removeBlock]
    have apartMerged : Disjoint (merged ⟨pfn, order⟩).span
        (area \ (buddy ⟨pfn, order⟩).span) := by
      rw [both]
      exact (apart.mono_right sdiff_subset).union_left disjoint_sdiff_right
    have insideMerged : ∀ frame ∈ (merged ⟨pfn, order⟩).span,
        frame < (pmm.removeBlock (pfn ^^^ 2 ^ order) order).lastPfn := by
      intro frame member
      rw [both] at member
      rw [count]
      exact member.elim (inside frame) fun other => sound.inside (whole other)
    have all : (merged ⟨pfn, order⟩).span ∪ area \ (buddy ⟨pfn, order⟩).span =
        span ⟨pfn, order⟩ ∪ area := by
      rw [both, union_assoc, union_sdiff_cancel whole]
    have left' : order + 1 + turns = maxOrder := by omega
    have step : (Pmm.coalesce turns (min pfn (pfn ^^^ 2 ^ order)) (order + 1)
          (pmm.removeBlock (pfn ^^^ 2 ^ order) order)).Sound
            ((merged ⟨pfn, order⟩).span ∪ area \ (buddy ⟨pfn, order⟩).span) ∧
        Leaves _ ((merged ⟨pfn, order⟩).span ∪ area \ (buddy ⟨pfn, order⟩).span) _ :=
      ih removed left' aligned.merged apartMerged insideMerged
        (removed.push (by omega) aligned.merged apartMerged insideMerged)
        ((leaves_pushBlock _ _ _).mono (singleton_subset_iff.mpr
          (mem_union_left _ (start_mem (merged ⟨pfn, order⟩)))))
    rw [all] at step
    refine ⟨step.1, step.2.1.trans (count_removeBlock ..), fun other outside => ?_⟩
    exact (step.2.2 other outside).trans (state_removeBlock ..)

theorem Sound.free (sound : pmm.Sound area) {block : Extent} (small : block.order ≤ maxOrder)
    (aligned : block.Aligned) (apart : Disjoint block.span area)
    (inside : ∀ frame ∈ block.span, frame < pmm.lastPfn)
    (marked : (pmm.frames block.start).state = .allocated) :
    ∃ after, pmm.free block.start block.order = (.ok (), after) ∧
      after.Sound (block.span ∪ area) ∧ pmm.Leaves (block.span ∪ area) after := by
  have room : ¬ pmm.count < block.start + 2 ^ block.order := by
    have last := inside (block.start + 2 ^ block.order - 1)
      ⟨by have := Nat.two_pow_pos block.order; omega, by have := Nat.two_pow_pos block.order; omega⟩
    have low : pmm.lastPfn ≤ pmm.count := Nat.mod_le ..
    omega
  have outside : block.start ∉ area := disjoint_left.mp apart block.start_mem
  rw [Pmm.free, if_neg (Nat.not_lt.mpr small), if_neg room,
    if_neg (by rw [not_not]; exact Nat.mod_eq_zero_of_dvd aligned),
    if_neg (by rw [not_not]; exact marked)]
  have reset : (pmm.setFrame block.start fun frame =>
      { frame with refcount := 0, owner := noOwner }).Sound area :=
    sound.setFrame outside (fun _ => rfl) (fun _ => rfl) (fun _ => id)
  obtain ⟨soundAfter, leaves⟩ := reset.coalesce (maxOrder - block.order) (by omega) aligned apart
    inside
  refine ⟨_, rfl, soundAfter, leaves.1, fun other away => ?_⟩
  rw [leaves.2 other away]
  have differs : other ≠ block.start := fun same => away (same ▸ .inl block.start_mem)
  exact (leaves_setFrame ..).2 other differs

variable {stop : Nat}

theorem fitting_spec (low : pfn < stop) (found : fitting pfn stop limit = some order) :
    order ≤ limit ∧ Extent.Aligned ⟨pfn, order⟩ ∧ pfn + 2 ^ order ≤ stop := by
  induction limit with
  | zero =>
    rw [fitting, Option.some.injEq] at found
    subst found
    exact ⟨le_rfl, one_dvd _, low⟩
  | succ limit ih =>
    rw [fitting] at found
    split at found
    · exact (ih found).imp_left fun small => small.trans (Nat.le_succ _)
    rename_i multiple
    rw [not_not] at multiple
    split at found
    · exact nomatch found
    split at found
    · rename_i fits
      rw [Option.some.injEq] at found
      subst found
      exact ⟨le_rfl, Nat.dvd_of_mod_eq_zero multiple, fits⟩
    · exact (ih found).imp_left fun small => small.trans (Nat.le_succ _)

theorem uncrossed_eq (aligned : Extent.Aligned ⟨pfn, order⟩) (small : order ≤ maxOrder) :
    uncrossed pfn order = order := by
  cases order with
  | zero => rfl
  | succ order =>
    rw [uncrossed, if_neg]
    exact not_crosses aligned (small.trans (Nat.le_succ _))

theorem Sound.release (turns : Nat)
    (sound : pmm.Sound area) (enough : stop ≤ pfn + turns) (within : stop ≤ pmm.lastPfn)
    (apart : Disjoint (Set.Ico pfn stop) area) (went : pmm.release stop turns pfn = some after) :
    after.Sound (Set.Ico pfn stop ∪ area) ∧ pmm.Leaves (Set.Ico pfn stop) after := by
  induction turns generalizing pmm area pfn with
  | zero =>
    rw [Pmm.release, Option.some.injEq] at went
    subst went
    rw [Set.Ico_eq_empty (by omega : ¬ pfn < stop), empty_union]
    exact ⟨sound, rfl, fun _ _ => rfl⟩
  | succ turns ih =>
    rw [Pmm.release] at went
    split at went
    · rename_i low
      split at went
      · exact nomatch went
      rename_i order fits
      obtain ⟨small, aligned, room⟩ := fitting_spec low fits
      simp only [uncrossed_eq aligned small] at went
      have pow := Nat.two_pow_pos order
      have parts : Set.Ico pfn stop =
          span ⟨pfn, order⟩ ∪ Set.Ico (pfn + 2 ^ order) stop := by
        ext frame
        simp only [span, mem_union, mem_Ico]
        omega
      have split : Disjoint (Set.Ico (pfn + 2 ^ order) stop) (span ⟨pfn, order⟩) := by
        rw [disjoint_left]
        rintro frame ⟨high, _⟩ ⟨_, low⟩
        exact absurd low (Nat.not_lt.mpr high)
      rw [parts] at apart ⊢
      have pushed := sound.push small aligned (apart.mono_left subset_union_left)
        (fun frame member => (member.2.trans_le room).trans_le within)
      have leaves := leaves_pushBlock pmm pfn order
      obtain ⟨soundAfter, leavesAfter⟩ := ih pushed (by omega)
        (by rw [leaves.lastPfn]; exact within)
        (split.union_right (apart.mono_left subset_union_right)) went
      refine ⟨?_, (leaves.mono ?_).trans (leavesAfter.mono subset_union_right)⟩
      · rwa [← union_assoc, union_comm (Set.Ico (pfn + 2 ^ order) stop)] at soundAfter
      · exact singleton_subset_iff.mpr (.inl (start_mem ⟨pfn, order⟩))
    · rename_i done
      rw [Option.some.injEq] at went
      subst went
      rw [Set.Ico_eq_empty done, empty_union]
      exact ⟨sound, rfl, fun _ _ => rfl⟩

theorem Sound.markFree (sound : pmm.Sound area) (pfn : Nat) : (pmm.markFree pfn).Sound area := by
  have frames : (pmm.markFree pfn).frames = (pmm.setFrame pfn fun frame =>
    { frame with state := .free, refcount := 0 }).frames := rfl
  have heads {start size : Nat} : (pmm.markFree pfn).Heads start size ↔ pmm.Heads start size := by
    rw [Heads, Heads, frames, Pmm.setFrame]
    by_cases same : start = pfn
    · simp [same]
    · simp [same]
  obtain ⟨lists, threaded⟩ := sound.threaded
  refine sound.congr ?_ ?_ heads ?_ ?_ ?_ rfl
  · rw [next, frames, comp_setFrame]
    exact update_eq_self ..
  · rw [prev, frames, comp_setFrame]
    exact update_eq_self ..
  · intro start size now
    rw [frames, Pmm.setFrame]
    by_cases same : start = pfn
    · simp [same]
    · simp [same, threaded.free now]
  · intro zone
    simp only [Pmm.markFree, setZone]
    by_cases same : zone = zoneOf pfn
    · simp [same]
    · simp [same]
  · intro zone
    simp only [Pmm.markFree, setZone]
    by_cases same : zone = zoneOf pfn
    · simp [same]
    · simp [same]

theorem leaves_markFree (pmm : Pmm) (pfn : Nat) : pmm.Leaves {pfn} (pmm.markFree pfn) :=
  leaves_setFrame pmm pfn fun frame => { frame with state := .free, refcount := 0 }

theorem Sound.marked (pfns : List Nat) (sound : pmm.Sound area) :
    (pfns.foldl Pmm.markFree pmm).Sound area ∧
      pmm.Leaves { pfn | pfn ∈ pfns } (pfns.foldl Pmm.markFree pmm) := by
  induction pfns generalizing pmm with
  | nil => exact ⟨sound, rfl, fun _ _ => rfl⟩
  | cons pfn rest ih =>
    obtain ⟨soundAfter, leaves⟩ := ih (sound.markFree pfn)
    refine ⟨soundAfter, leaves.1, fun other outside => ?_⟩
    simp only [mem_ofPred_eq, List.mem_cons, not_or] at outside
    rw [List.foldl_cons, leaves.2 other outside.2]
    exact (leaves_markFree pmm pfn).2 other outside.1

def range (pmm : Pmm) (start stop : Nat) : Set Nat :=
  Set.Ico start (min stop pmm.lastPfn)

theorem Sound.addFreeRange (sound : pmm.Sound area) {start stop : Nat}
    (apart : Disjoint (pmm.range start stop) area)
    (went : pmm.addFreeRange start stop = some after) :
    after.Sound (pmm.range start stop ∪ area) ∧ pmm.Leaves (pmm.range start stop) after := by
  rw [Pmm.addFreeRange] at went
  rw [range] at apart ⊢
  split at went
  · rename_i empty
    rw [Option.some.injEq] at went
    subst went
    rw [Set.Ico_eq_empty (Nat.not_lt.mpr empty), empty_union]
    exact ⟨sound, rfl, fun _ _ => rfl⟩
  rename_i some
  obtain ⟨marked, leaves⟩ := sound.marked (List.range' start (min stop pmm.lastPfn - start))
  have last := leaves.lastPfn
  obtain ⟨soundAfter, leavesAfter⟩ := marked.release _ (by omega)
    (by rw [last]; exact Nat.min_le_right ..) apart went
  refine ⟨soundAfter, (leaves.mono fun pfn member => ?_).trans leavesAfter⟩
  have inside := List.mem_range'_1.mp member
  exact ⟨inside.1, by omega⟩

theorem isSome_fitting (low : pfn < stop) (room : stop + 2 ^ maxOrder ≤ 2 ^ 32)
    (small : limit ≤ maxOrder) : (fitting pfn stop limit).isSome := by
  induction limit with
  | zero => rfl
  | succ limit ih =>
    have fits : pfn + 2 ^ (limit + 1) < 2 ^ 32 := by
      have size := Nat.pow_le_pow_right Nat.two_pos small
      omega
    rw [fitting, if_neg (Nat.not_le.mpr fits)]
    split
    · exact ih (by omega)
    split
    · rfl
    · exact ih (by omega)

theorem isSome_addFreeRange (start stop : Nat) (room : pmm.lastPfn + 2 ^ maxOrder ≤ 2 ^ 32) :
    (pmm.addFreeRange start stop).isSome := by
  have released (turns : Nat) : ∀ (pmm : Pmm) (pfn limit : Nat), limit + 2 ^ maxOrder ≤ 2 ^ 32 →
      (pmm.release limit turns pfn).isSome := by
    induction turns with
    | zero => exact fun _ _ _ _ => rfl
    | succ turns ih =>
      intro pmm pfn limit small
      rw [release]
      split
      · rename_i low
        obtain ⟨order, fits⟩ := Option.isSome_iff_exists.mp (isSome_fitting low small le_rfl)
        rw [fits]
        exact ih _ _ _ small
      · rfl
  rw [addFreeRange]
  split
  · rfl
  refine released _ _ _ _ ?_
  have least : min stop pmm.lastPfn ≤ pmm.lastPfn := Nat.min_le_right ..
  omega

end Pmm

end Bhaskix.Mm
