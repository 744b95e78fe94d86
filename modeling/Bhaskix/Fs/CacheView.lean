import Bhaskix.Fs.Cache

namespace Bhaskix.Fs.Cache

open Library Function
open List
open Access (flat)

variable (cache : Cache)

def Holds (slot block : Nat) : Prop :=
  slot < cache.count ∧ (cache.slots slot).block = some block

def view (block : Nat) : Block :=
  match cache.resident block with
  | some slot => (cache.slots slot).frame
  | none => cache.store.bytes block

def Dirty (block : Nat) : Prop :=
  ∃ slot, cache.Holds slot block ∧ (cache.slots slot).dirty = true

structure Sound (cache : Cache) : Prop where
  frames : minFrames ≤ cache.count
  bounded : cache.count ≤ maxFrames
  free : cache.store.limit = none
  distinct {slot other block : Nat} :
    cache.Holds slot block → cache.Holds other block → slot = other
  inside {slot block : Nat} : cache.Holds slot block → block < cache.store.blocks
  clean {slot block : Nat} : cache.Holds slot block → (cache.slots slot).dirty = false →
    (cache.slots slot).frame = cache.store.bytes block
  blank {slot : Nat} : slot < cache.count → (cache.slots slot).block = none →
    (cache.slots slot).dirty = false
  recent {slot : Nat} : slot < cache.count → (cache.slots slot).used ≤ cache.clock
  lent {slot : Nat} : slot < cache.count → (cache.slots slot).block = none →
    (cache.slots slot).pinned = false

def Unlent : Prop :=
  ∀ slot < cache.count, (cache.slots slot).pinned = false

/-- The frames that are held by somebody outside are still held, with the same blocks in them. -/
structure Keeps (cache after : Cache) : Prop where
  count : after.count = cache.count
  pinned {slot : Nat} : slot < cache.count →
    (after.slots slot).pinned = (cache.slots slot).pinned
  block {slot : Nat} : slot < cache.count → (cache.slots slot).pinned = true →
    (after.slots slot).block = (cache.slots slot).block

variable {cache after next : Cache} {slot block : Nat}

theorem Keeps.refl (cache : Cache) : cache.Keeps cache :=
  ⟨rfl, fun _ => rfl, fun _ _ => rfl⟩

variable {target : Nat}

theorem Keeps.trans (first : cache.Keeps after) (second : after.Keeps next) : cache.Keeps next where
  count := second.count.trans first.count
  pinned low := (second.pinned (first.count ▸ low)).trans (first.pinned low)
  block low held :=
    (second.block (first.count ▸ low) ((first.pinned low).trans held)).trans (first.block low held)

theorem Keeps.unlent (keeps : cache.Keeps after) (unlent : cache.Unlent) : after.Unlent := by
  intro slot low
  rw [keeps.count] at low
  rw [keeps.pinned low, unlent slot low]

theorem holds_of_resident (found : cache.resident block = some slot) : cache.Holds slot block := by
  have member := mem_of_find?_eq_some found
  have holds := find?_some found
  exact ⟨mem_range.mp member, by simpa using holds⟩

theorem absent_of_resident (missing : cache.resident block = none) (slot : Nat) :
    ¬ cache.Holds slot block := by
  intro holds
  have refused := find?_eq_none.mp missing slot (mem_range.mpr holds.1)
  simp [holds.2] at refused

theorem Sound.resident (sound : cache.Sound) (holds : cache.Holds slot block) :
    cache.resident block = some slot := by
  cases found : cache.resident block with
  | none => exact absurd holds (absent_of_resident found slot)
  | some other => rw [sound.distinct (holds_of_resident found) holds]

theorem Sound.view_held (sound : cache.Sound) (holds : cache.Holds slot block) :
    cache.view block = (cache.slots slot).frame := by
  rw [view, sound.resident holds]

theorem view_absent (absent : ∀ slot, ¬ cache.Holds slot block) :
    cache.view block = cache.store.bytes block := by
  rw [view]
  cases found : cache.resident block with
  | none => rfl
  | some slot => exact absurd (holds_of_resident found) (absent slot)

theorem Sound.view_clean (sound : cache.Sound) (settled : ¬ cache.Dirty block) :
    cache.view block = cache.store.bytes block := by
  cases found : cache.resident block with
  | none => exact view_absent (absent_of_resident found)
  | some slot =>
    have holds := holds_of_resident found
    rw [sound.view_held holds]
    refine sound.clean holds (Bool.eq_false_iff.mpr fun dirty => settled ⟨slot, holds, dirty⟩)

/-- The frame held `block` already, or what it holds is on the device and nobody else's, and no
other frame holds `block`. -/
def Ready (cache : Cache) (slot block : Nat) : Prop :=
  (cache.slots slot).block = some block ∨
    (cache.slots slot).pinned = false ∧ (cache.slots slot).dirty = false ∧
      ∀ other, ¬ cache.Holds other block

variable {clock : Nat}

structure Settles (cache after : Cache) : Prop where
  sound : after.Sound
  keeps : cache.Keeps after
  blocks : after.store.blocks = cache.store.blocks
  view : after.view = cache.view
  dirty (block : Nat) : after.Dirty block → cache.Dirty block
  writes : ∃ writes, after.store.trace = cache.store.trace ++ writes ∧
    ∀ write ∈ writes, cache.Dirty write.1 ∧ write.2 = cache.view write.1

section

variable (sound : cache.Sound) (low : slot < cache.count)
  (ready : cache.Ready slot block) (inside : block < cache.store.blocks) (content : Slot)
  (holding : content.block = some block)
  (lent : content.pinned = (cache.slots slot).pinned) (recent : content.used ≤ clock)
  (later : cache.clock ≤ clock)
  (settled : content.dirty = false → content.frame = cache.store.bytes block)
  (same : after = { cache with slots := update cache.slots slot content, clock })
include sound low ready inside holding lent recent later settled same

theorem Sound.replace :
    after.Sound ∧ cache.Keeps after ∧ after.view = update cache.view block content.frame ∧
      ∀ other, after.Dirty other → cache.Dirty other ∨ other = block ∧ content.dirty = true := by
  have here : after.slots slot = content := by rw [same]; exact update_self ..
  have away {other : Nat} (differs : other ≠ slot) : after.slots other = cache.slots other := by
    rw [same]; exact update_of_ne differs ..
  have count : after.count = cache.count := by rw [same]
  have store : after.store = cache.store := by rw [same]
  have now : after.clock = clock := by rw [same]
  have vacant {one : Nat} (empty : (after.slots one).block = none) :
      after.slots one = cache.slots one := by
    by_cases differs : one = slot
    · rw [differs, here, holding] at empty
      exact nomatch empty
    · exact away differs
  have held {other page : Nat} (holds : after.Holds other page) :
      other = slot ∧ page = block ∨ other ≠ slot ∧ page ≠ block ∧ cache.Holds other page := by
    obtain ⟨within, holds⟩ := holds
    rw [count] at within
    by_cases differs : other = slot
    · rw [differs, here, holding] at holds
      exact .inl ⟨differs, (Option.some.inj holds).symm⟩
    rw [away differs] at holds
    refine .inr ⟨differs, ?_, within, holds⟩
    rintro rfl
    rcases ready with already | ⟨_, _, absent⟩
    · exact differs (sound.distinct ⟨within, holds⟩ ⟨low, already⟩)
    · exact absent other ⟨within, holds⟩
  have soundAfter : after.Sound := by
    refine ⟨count ▸ sound.frames, count ▸ sound.bounded, store ▸ sound.free, ?_, ?_, ?_, ?_, ?_, ?_⟩
    · intro one two page first second
      rcases held first with ⟨rfl, rfl⟩ | ⟨_, other, firstOld⟩
      · rcases held second with ⟨rfl, _⟩ | ⟨_, other, _⟩
        · rfl
        · exact absurd rfl other
      · rcases held second with ⟨_, rfl⟩ | ⟨_, _, secondOld⟩
        · exact absurd rfl other
        · exact sound.distinct firstOld secondOld
    · intro one page holds
      rw [store]
      rcases held holds with ⟨_, rfl⟩ | ⟨_, _, old⟩
      · exact inside
      · exact sound.inside old
    · intro one page holds clean
      rw [store]
      rcases held holds with ⟨rfl, rfl⟩ | ⟨differs, _, old⟩
      · rw [here] at clean ⊢
        exact settled clean
      · rw [away differs] at clean ⊢
        exact sound.clean old clean
    · intro one within empty
      have same := vacant empty
      rw [same] at empty ⊢
      exact sound.blank (count ▸ within) empty
    · intro one within
      rw [count] at within
      rw [now]
      by_cases differs : one = slot
      · rw [differs, here]; exact recent
      · rw [away differs]; exact (sound.recent within).trans later
    · intro one within empty
      have same := vacant empty
      rw [same] at empty ⊢
      exact sound.lent (count ▸ within) empty
  have keeps : cache.Keeps after := by
    refine ⟨count, fun {one} _ => ?_, fun {one} _ kept => ?_⟩
    · by_cases differs : one = slot
      · rw [differs, here, lent]
      · rw [away differs]
    by_cases differs : one = slot
    · rw [differs] at kept ⊢
      rcases ready with already | ⟨idle, _⟩
      · rw [here, holding, already]
      · rw [idle] at kept
        exact nomatch kept
    · rw [away differs]
  refine ⟨soundAfter, keeps, ?_, ?_⟩
  · funext page
    by_cases target : page = block
    · subst target
      rw [soundAfter.view_held ⟨count ▸ low, here ▸ holding⟩, update_self, here]
    rw [update_of_ne target]
    cases found : cache.resident page with
    | some other =>
      have old := holds_of_resident found
      rw [sound.view_held old]
      by_cases evicted : other = slot
      · -- the block that was in the frame now reads as the device has it
        subst evicted
        have clean : (cache.slots other).dirty = false := by
          rcases ready with already | ⟨_, clean, _⟩
          · exact absurd (Option.some.inj (old.2.symm.trans already)) target
          · exact clean
        rw [view_absent, sound.clean old clean, store]
        intro one holds
        rcases held holds with ⟨_, rfl⟩ | ⟨differs, _, still⟩
        · exact target rfl
        · exact differs (sound.distinct still old)
      · rw [soundAfter.view_held ⟨count ▸ old.1, away evicted ▸ old.2⟩, away evicted]
    | none =>
      rw [view_absent (absent_of_resident found), view_absent, store]
      intro one holds
      rcases held holds with ⟨_, rfl⟩ | ⟨_, _, old⟩
      · exact target rfl
      · exact absent_of_resident found one old
  · rintro page ⟨other, holds, dirty⟩
    rcases held holds with ⟨rfl, rfl⟩ | ⟨differs, _, old⟩
    · exact .inr ⟨rfl, here ▸ dirty⟩
    · exact .inl ⟨other, old, away differs ▸ dirty⟩

theorem Sound.settles_replace (frame : content.frame = cache.view block)
    (dirty : content.dirty = true → cache.Dirty block) :
    cache.Settles after := by
  obtain ⟨soundAfter, keeps, viewAfter, dirtied⟩ := sound.replace low ready inside content holding
    lent recent later settled same
  refine ⟨soundAfter, keeps, by rw [same], by rw [viewAfter, frame, update_eq_self], ?_, [],
    by simp [same], by simp⟩
  intro other held
  rcases dirtied other held with old | ⟨rfl, now⟩
  · exact old
  · exact dirty now

end

theorem Settles.refl (sound : cache.Sound) : cache.Settles cache :=
  ⟨sound, .refl cache, rfl, rfl, fun _ dirty => dirty, [], by simp, by simp⟩

theorem Settles.trans (first : cache.Settles after) (second : after.Settles next) :
    cache.Settles next := by
  refine ⟨second.sound, first.keeps.trans second.keeps, second.blocks.trans first.blocks,
    second.view.trans first.view, fun block dirty => first.dirty block (second.dirty block dirty),
      ?_⟩
  obtain ⟨early, logged, fromDirty⟩ := first.writes
  obtain ⟨late, loggedMore, fromDirtyMore⟩ := second.writes
  refine ⟨early ++ late, by rw [loggedMore, logged, append_assoc], ?_⟩
  intro write member
  rcases mem_append.mp member with old | new
  · exact fromDirty write old
  · obtain ⟨dirty, value⟩ := fromDirtyMore write new
    exact ⟨first.dirty _ dirty, by rw [value, first.view]⟩

structure WrittenBack (cache : Cache) (slot : Nat) (after : Cache) : Prop where
  count : after.count = cache.count
  clock : after.clock = cache.clock
  away {other : Nat} : other ≠ slot → after.slots other = cache.slots other
  here : after.slots slot = { cache.slots slot with dirty := false }

theorem WrittenBack.holds (written : cache.WrittenBack slot after) {other : Nat} :
    after.Holds other block ↔ cache.Holds other block := by
  unfold Holds
  rw [written.count]
  by_cases same : other = slot
  · rw [same, written.here]
  · rw [written.away same]

theorem Sound.writeBack_dirty (sound : cache.Sound) (holds : cache.Holds slot block)
    (written : cache.WrittenBack slot after)
    (blocks : after.store.blocks = cache.store.blocks) (free : after.store.limit = none)
    (image : after.store.image = cache.store.image)
    (trace : after.store.trace = cache.store.trace ++ [(block, (cache.slots slot).frame)])
    (dirty : (cache.slots slot).dirty = true) : cache.Settles after := by
  have bytes : after.store.bytes =
      update cache.store.bytes block (cache.slots slot).frame := by
    rw [Device.bytes, image, trace, replay, List.foldl_append]; rfl
  have field (other : Nat) : (after.slots other).used = (cache.slots other).used ∧
      (after.slots other).pinned = (cache.slots other).pinned ∧
      (after.slots other).frame = (cache.slots other).frame ∧
      (after.slots other).block = (cache.slots other).block ∧
      ((cache.slots other).dirty = false → (after.slots other).dirty = false) := by
    by_cases same : other = slot
    · rw [same, written.here]; simp
    · rw [written.away same]; simp
  have soundAfter : after.Sound := by
    refine ⟨written.count ▸ sound.frames, written.count ▸ sound.bounded, free, ?_, ?_, ?_, ?_, ?_,
      ?_⟩
    · intro one two page first second
      exact sound.distinct (written.holds.mp first) (written.holds.mp second)
    · intro one page held
      rw [blocks]
      exact sound.inside (written.holds.mp held)
    · intro one page held clean
      have old := written.holds.mp held
      rw [(field one).2.2.1, bytes]
      by_cases same : one = slot
      · rw [same] at old ⊢
        rw [Option.some.inj (old.2.symm.trans holds.2), update_self]
      have other : page ≠ block := by rintro rfl; exact same (sound.distinct old holds)
      rw [update_of_ne other]
      rw [written.away same] at clean
      exact sound.clean old clean
    · intro one within empty
      rw [written.count] at within
      rw [(field one).2.2.2.1] at empty
      exact (field one).2.2.2.2 (sound.blank within empty)
    · intro one within
      rw [(field one).1, written.clock]
      exact sound.recent (written.count ▸ within)
    · intro one within empty
      rw [(field one).2.2.2.1] at empty
      rw [(field one).2.1]
      exact sound.lent (written.count ▸ within) empty
  refine ⟨soundAfter, ⟨written.count, fun {one} _ => (field one).2.1,
    fun {one} _ _ => (field one).2.2.2.1⟩, blocks, ?_, ?_, [(block, (cache.slots slot).frame)],
      trace, ?_⟩
  · funext page
    cases found : cache.resident page with
    | some other =>
      have old := holds_of_resident found
      rw [sound.view_held old, soundAfter.view_held (written.holds.mpr old), (field other).2.2.1]
    | none =>
      have absent := absent_of_resident found
      have other : page ≠ block := by rintro rfl; exact absent slot holds
      rw [view_absent absent, view_absent (fun one held => absent one (written.holds.mp held)),
        bytes, update_of_ne other]
  · rintro page ⟨other, held, stillDirty⟩
    refine ⟨other, written.holds.mp held, ?_⟩
    by_contra clean
    rw [(field other).2.2.2.2 (Bool.eq_false_iff.mpr clean)] at stillDirty
    exact nomatch stillDirty
  · intro write member
    rw [mem_singleton.mp member]
    exact ⟨⟨slot, holds, dirty⟩, (sound.view_held holds).symm⟩

theorem Sound.writeBack (sound : cache.Sound) (low : slot < cache.count) :
    ∃ after, cache.writeBack slot = (.ok (), after) ∧ cache.Settles after ∧
      cache.WrittenBack slot after := by
  unfold Cache.writeBack
  by_cases clean : (cache.slots slot).dirty = false
  · rw [if_pos clean]
    refine ⟨cache, rfl, Settles.refl sound, rfl, rfl, fun _ => rfl, ?_⟩
    rw [← clean]
  rw [if_neg clean]
  cases held : (cache.slots slot).block with
  | none => exact absurd (sound.blank low held) clean
  | some block =>
    have holds : cache.Holds slot block := ⟨low, held⟩
    have accepted : cache.store.write block (cache.slots slot).frame =
        (.ok (), { cache.store with
          trace := cache.store.trace ++ [(block, (cache.slots slot).frame)] }) := by
      rw [Device.write, if_neg (by rw [sound.free]; exact nofun),
        if_neg (Nat.not_le.mpr (sound.inside holds))]
    simp only [storeWrite, accepted, andThen]
    have written : cache.WrittenBack slot
        (({ cache with store := { cache.store with
          trace := cache.store.trace ++ [(block, (cache.slots slot).frame)] } } : Cache).setSlot
            slot { cache.slots slot with dirty := false }) :=
      ⟨rfl, rfl, fun differs => update_of_ne differs .., update_self ..⟩
    refine ⟨_, rfl, ?_, written⟩
    exact sound.writeBack_dirty holds written rfl sound.free rfl rfl (by simpa using clean)

def Oldest (cache : Cache) (seen : List Nat) : Option Nat → Prop
  | none => ∀ slot ∈ seen, (cache.slots slot).pinned = true
  | some best => best ∈ seen ∧ (cache.slots best).pinned = false ∧
      ∀ slot ∈ seen, (cache.slots slot).pinned = false →
        (cache.slots best).used ≤ (cache.slots slot).used

theorem Oldest.older {seen : List Nat} {oldest : Option Nat} (found : cache.Oldest seen oldest)
    (slot : Nat) : cache.Oldest (seen ++ [slot]) (cache.older oldest slot) := by
  unfold Cache.older
  cases held : (cache.slots slot).pinned with
  | true =>
    rw [if_pos rfl]
    cases oldest with
    | none =>
      intro other member
      rcases mem_append.mp member with old | new
      · exact found other old
      · rw [mem_singleton.mp new, held]
    | some best =>
      refine ⟨mem_append_left _ found.1, found.2.1, fun other member idle => ?_⟩
      rcases mem_append.mp member with old | new
      · exact found.2.2 other old idle
      · rw [mem_singleton.mp new, held] at idle
        exact nomatch idle
  | false =>
    rw [if_neg (by simp)]
    have last : slot ∈ seen ++ [slot] := mem_append_right _ (mem_singleton.mpr rfl)
    cases oldest with
    | none =>
      refine ⟨last, held, fun other member idle => ?_⟩
      rcases mem_append.mp member with old | new
      · rw [found other old] at idle
        exact nomatch idle
      · rw [mem_singleton.mp new]
    | some best =>
      simp only
      split
      · rename_i before
        refine ⟨mem_append_left _ found.1, found.2.1, fun other member idle => ?_⟩
        rcases mem_append.mp member with old | new
        · exact found.2.2 other old idle
        · rw [mem_singleton.mp new]
          exact before
      · rename_i before
        refine ⟨last, held, fun other member idle => ?_⟩
        rcases mem_append.mp member with old | new
        · exact (Nat.le_of_not_le before).trans (found.2.2 other old idle)
        · rw [mem_singleton.mp new]

theorem Oldest.foldl (slots : List Nat) {seen : List Nat} {oldest : Option Nat}
    (found : cache.Oldest seen oldest) :
    cache.Oldest (seen ++ slots) (slots.foldl cache.older oldest) := by
  induction slots generalizing seen oldest with
  | nil => rw [append_nil]; exact found
  | cons slot rest ih =>
    rw [append_cons]
    exact ih (found.older slot)

theorem Sound.victim (sound : cache.Sound) : (cache.victim = none ∧ ¬ cache.Unlent) ∨
      ∃ slot, cache.victim = some slot ∧ slot < cache.count ∧ (cache.slots slot).pinned = false ∧
        ((cache.slots slot).block = none ∨ ∀ other < cache.count,
          (cache.slots other).pinned = false →
            (cache.slots slot).used ≤ (cache.slots other).used) := by
  unfold Cache.victim
  cases found : (range cache.count).find? fun slot => (cache.slots slot).block = none with
  | some free =>
    have empty : (cache.slots free).block = none := by simpa using find?_some found
    have low := mem_range.mp (mem_of_find?_eq_some found)
    exact .inr ⟨free, rfl, low, sound.lent low empty, .inl empty⟩
  | none =>
    have oldest : cache.Oldest (range cache.count)
        ((range cache.count).foldl cache.older none) :=
      Oldest.foldl _ (show cache.Oldest [] none from fun _ member => nomatch member)
    have frames := sound.frames
    simp only [minFrames] at frames
    simp only
    cases chosen : (range cache.count).foldl cache.older none with
    | none =>
      rw [chosen] at oldest
      refine .inl ⟨rfl, fun unlent => ?_⟩
      have held := oldest 0 (mem_range.mpr (by omega))
      rw [unlent 0 (by omega)] at held
      exact nomatch held
    | some best =>
      rw [chosen] at oldest
      refine .inr ⟨best, rfl, mem_range.mp oldest.1, oldest.2.1, .inr ?_⟩
      intro other low
      exact oldest.2.2 other (mem_range.mpr low)

structure Admitted (cache : Cache) (block slot : Nat) (after : Cache) : Prop where
  settles : cache.Settles after
  holds : after.Holds slot block
  newest : (after.slots slot).used = after.clock
  older {other : Nat} : other < cache.count → other ≠ slot →
    (after.slots other).used < after.clock
  away {other : Nat} : other ≠ slot → after.slots other = cache.slots other
  choice : (cache.slots slot).block = some block ∨ (cache.slots slot).block = none ∨
    ∀ other < cache.count, (cache.slots other).pinned = false →
      (cache.slots slot).used ≤ (cache.slots other).used

/-- The cache would not do it, for somebody outside holds its frames; it reads as before. -/
def Balks {α : Type} (cache : Cache) (result : Except FsError α × Cache) : Prop :=
  ¬ cache.Unlent ∧ ∃ error after, result = (.error error, after) ∧ cache.Settles after

theorem Balks.andThen {α β : Type} {result : Except FsError α × Cache} (balks : cache.Balks result)
    (next : α → Cache → Except FsError β × Cache) : cache.Balks (Cache.andThen result next) := by
  obtain ⟨held, error, after, rfl, settles⟩ := balks
  exact ⟨held, error, after, rfl, settles⟩

theorem Settles.balks {α : Type} {result : Except FsError α × Cache}
    (settles : cache.Settles after) (balks : after.Balks result) : cache.Balks result := by
  obtain ⟨held, error, last, failed, more⟩ := balks
  exact ⟨fun unlent => held (settles.keeps.unlent unlent), error, last, failed, settles.trans more⟩

theorem Sound.touch (sound : cache.Sound) (holds : cache.Holds slot block) :
    cache.Admitted block slot (cache.touch slot) := by
  have settles : cache.Settles (cache.touch slot) :=
    sound.settles_replace holds.1 (.inl holds.2) (sound.inside holds)
      { cache.slots slot with used := cache.clock + 1 } holds.2 rfl le_rfl (Nat.le_succ _)
      (fun clean => sound.clean holds clean) rfl (sound.view_held holds).symm
      (fun dirty => ⟨slot, holds, dirty⟩)
  have away {other : Nat} (differs : other ≠ slot) :
      (cache.touch slot).slots other = cache.slots other := update_of_ne differs ..
  have here : (cache.touch slot).slots slot = { cache.slots slot with used := cache.clock + 1 } :=
    update_self ..
  refine ⟨settles, ⟨holds.1, by rw [here]; exact holds.2⟩, by rw [here]; rfl, ?_, away,
    .inl holds.2⟩
  intro other within differs
  rw [away differs]
  exact Nat.lt_succ_of_le (sound.recent within)

theorem Sound.admitBlock (sound : cache.Sound) (inside : block < cache.store.blocks) :
    cache.Balks (cache.admitBlock block) ∨
      ∃ slot after, cache.admitBlock block = (.ok slot, after) ∧
        cache.Admitted block slot after := by
  unfold Cache.admitBlock
  rw [if_neg (Nat.not_le.mpr inside)]
  cases found : cache.resident block with
  | some slot => exact .inr ⟨slot, _, rfl, sound.touch (holds_of_resident found)⟩
  | none =>
    have absent := absent_of_resident found
    rcases sound.victim with ⟨none, held⟩ | ⟨slot, chosen, low, idle, choice⟩
    · simp only [none]
      exact .inl ⟨held, _, _, rfl, Settles.refl sound⟩
    obtain ⟨written, went, settles, back⟩ := sound.writeBack low
    have stillAbsent (other : Nat) : ¬ written.Holds other block :=
      fun holds => absent other (back.holds.mp holds)
    have read : written.store.read block = .ok (written.store.bytes block) := by
      rw [Device.read, if_pos (by rw [settles.blocks]; exact inside)]
    have stillIdle : (written.slots slot).pinned = false := by rw [back.here]; exact idle
    simp only [chosen, went, Cache.andThen, load, read]
    refine .inr ⟨slot, _, rfl, ?_⟩
    have loaded := settles.sound.settles_replace (back.count ▸ low)
      (.inr ⟨stillIdle, by rw [back.here], stillAbsent⟩) (settles.blocks ▸ inside)
      { block := some block, dirty := false, used := written.clock + 1, pinned := false, frame :=
          written.store.bytes block } rfl stillIdle.symm le_rfl (Nat.le_succ _) (fun _ => rfl) rfl
      (view_absent stillAbsent).symm nofun
    refine ⟨settles.trans loaded, ⟨back.count ▸ low, ?_⟩, ?_, ?_, ?_, ?_⟩
    · simp
    · simp
    · intro other within differs
      simp only [update_of_ne differs, back.away differs, back.clock]
      exact Nat.lt_succ_of_le (sound.recent within)
    · intro other differs
      simp only [update_of_ne differs, back.away differs]
    · exact .inr choice

/-- The request was answered: the cache reads as `pages`, and only what `touched` allows is newly
dirty. -/
structure Serves (cache : Cache) (touched : Nat → Prop) (pages : Pages) (after : Cache) : Prop where
  sound : after.Sound
  keeps : cache.Keeps after
  blocks : after.store.blocks = cache.store.blocks
  view : after.view = pages
  dirty (block : Nat) : after.Dirty block → cache.Dirty block ∨ touched block
  writes : ∃ writes, after.store.trace = cache.store.trace ++ writes ∧
    ∀ write ∈ writes, cache.Dirty write.1 ∧ write.2 = cache.view write.1

theorem Settles.serves (settles : cache.Settles after) (touched : Nat → Prop) :
    cache.Serves touched cache.view after :=
  { settles with dirty := fun block dirty => .inl (settles.dirty block dirty) }

theorem Settles.change {made : Cache} (settles : cache.Settles made) (low : slot < made.count)
    (ready : made.Ready slot block) (inside : block < cache.store.blocks) (content : Slot)
    (holding : content.block = some block)
    (lent : content.pinned = (made.slots slot).pinned) (recent : content.used ≤ clock)
    (later : made.clock ≤ clock) (dirty : content.dirty = true)
    (same : after = { made with slots := update made.slots slot content, clock }) :
    cache.Serves (· = block) (update cache.view block content.frame) after := by
  obtain ⟨sound, keeps, view, dirtied⟩ := settles.sound.replace low ready (settles.blocks ▸ inside)
    content holding lent recent later
      (fun clean => by rw [dirty] at clean; exact nomatch clean) same
  refine ⟨sound, settles.keeps.trans keeps, by rw [same]; exact settles.blocks,
    by rw [view, settles.view], ?_, ?_⟩
  · intro other held
    rcases dirtied other held with old | ⟨here, _⟩
    · exact .inl (settles.dirty other old)
    · exact .inr here
  · obtain ⟨writes, logged, fromDirty⟩ := settles.writes
    exact ⟨writes, by rw [same]; exact logged, fromDirty⟩

section

variable (sound : cache.Sound) (inside : block < cache.store.blocks)
include sound inside

theorem Sound.page :
    cache.Balks (cache.page block) ∨
      ∃ after, cache.page block = (.ok (cache.view block), after) ∧ cache.Settles after := by
  rcases sound.admitBlock inside with balks | ⟨slot, after, went, admitted⟩
  · exact .inl (balks.andThen _)
  refine .inr ⟨after, ?_, admitted.settles⟩
  rw [Cache.page, went, ← admitted.settles.view, admitted.settles.sound.view_held admitted.holds]
  rfl

theorem Sound.edit (change : Block → Block) : cache.Balks (cache.edit block change) ∨
      ∃ after, cache.edit block change = (.ok (cache.view block), after) ∧ cache.Serves (· = block)
          (update cache.view block (change (cache.view block))) after := by
  rcases sound.admitBlock inside with balks | ⟨slot, made, went, admitted⟩
  · exact .inl (balks.andThen _)
  have frame : (made.slots slot).frame = cache.view block := by
    rw [← admitted.settles.view, admitted.settles.sound.view_held admitted.holds]
  rw [Cache.edit, went]
  simp only [Cache.andThen, frame]
  refine .inr ⟨_, rfl, ?_⟩
  have served := admitted.settles.change admitted.holds.1 (.inl admitted.holds.2) inside
    { made.slots slot with dirty := true, frame := change (cache.view block) } admitted.holds.2 rfl
    (admitted.settles.sound.recent admitted.holds.1) le_rfl rfl rfl
  exact served

theorem Sound.put (content : Block) :
    cache.Balks (cache.put block content) ∨ ∃ after, cache.put block content = (.ok (), after) ∧
        cache.Serves (· = block) (update cache.view block content) after := by
  unfold Cache.put
  rw [if_neg (Nat.not_le.mpr inside)]
  cases found : cache.resident block with
  | some slot =>
    have holds := holds_of_resident found
    refine .inr ⟨_, rfl, ?_⟩
    exact (Settles.refl sound).change holds.1 (.inl holds.2) inside
      { block := some block, dirty := true, used := cache.clock + 1,
        pinned := (cache.slots slot).pinned, frame := content }
      rfl rfl le_rfl (Nat.le_succ _) rfl rfl
  | none =>
    have absent := absent_of_resident found
    rcases sound.victim with ⟨none, held⟩ | ⟨slot, chosen, low, idle, _⟩
    · simp only [none]
      exact .inl ⟨held, _, _, rfl, Settles.refl sound⟩
    obtain ⟨written, went, settles, back⟩ := sound.writeBack low
    simp only [chosen, went, Cache.andThen]
    refine .inr ⟨_, rfl, ?_⟩
    exact settles.change (back.count ▸ low) (.inr ⟨by rw [back.here]; exact idle, by rw [back.here],
        fun other holds => absent other (back.holds.mp holds)⟩) inside
      { block := some block, dirty := true, used := written.clock + 1,
        pinned := (written.slots slot).pinned, frame := content }
      rfl rfl le_rfl (Nat.le_succ _) rfl rfl

end

theorem Admitted.differs {found : Nat} {last : Cache} (sound : after.Sound)
    (admitted : after.Admitted target found last) (newest : (after.slots slot).used = after.clock)
    (holds : after.Holds slot block) (other : block ≠ target) (unlent : after.Unlent)
    (older : ∀ other < after.count, other ≠ slot → (after.slots other).used < after.clock) :
    found ≠ slot := by
  rintro rfl
  rcases admitted.choice with same | empty | oldest
  · exact other (Option.some.inj (holds.2.symm.trans same))
  · rw [holds.2] at empty
    exact nomatch empty
  have frames := sound.frames
  simp only [minFrames] at frames
  obtain ⟨another, low, differs⟩ : ∃ another < after.count, another ≠ found := by
    by_cases zero : found = 0
    · exact ⟨1, by omega, by omega⟩
    · exact ⟨0, by omega, Ne.symm zero⟩
  have before := older another low differs
  have after_ := oldest another low (unlent another low)
  omega

theorem Sound.copy (sound : cache.Sound) {source : Nat} (differ : source ≠ target)
    (from_ : source < cache.store.blocks) (to_ : target < cache.store.blocks) :
    cache.Balks (cache.copy source target) ∨ ∃ after, cache.copy source target = (.ok (), after) ∧
        cache.Serves (· = target) (update cache.view target (cache.view source)) after := by
  unfold Cache.copy
  rw [if_neg differ]
  rcases sound.admitBlock from_ with balks | ⟨low, first, wentFirst, admitted⟩
  · exact .inl (balks.andThen _)
  have touched := admitted.settles.sound.touch admitted.holds
  have early := admitted.settles.trans touched.settles
  have toInside : target < (first.touch low).store.blocks := by rw [early.blocks]; exact to_
  rw [wentFirst]
  simp only [Cache.andThen]
  rcases touched.settles.sound.admitBlock toInside with
    balks | ⟨high, second, wentSecond, admittedTo⟩
  · exact .inl (early.balks (balks.andThen _))
  have settles := early.trans admittedTo.settles
  simp only [wentSecond, overwrite]
  by_cases conflict : low = high
  · -- only a frame that is held outside can make the source the frame to give up
    rw [if_pos conflict]
    refine .inl ⟨fun unlent => ?_, _, _, rfl, settles⟩
    exact admittedTo.differs touched.settles.sound touched.newest touched.holds differ
      (early.keeps.unlent unlent) (fun other within differs => touched.older within differs)
      conflict.symm
  rw [if_neg conflict]
  have stillHolds : second.Holds low source := by
    refine ⟨admittedTo.settles.keeps.count ▸ touched.holds.1, ?_⟩
    rw [admittedTo.away conflict]
    exact touched.holds.2
  have frame : (second.slots low).frame = cache.view source := by
    rw [← settles.view, settles.sound.view_held stillHolds]
  refine .inr ⟨_, rfl, ?_⟩
  rw [← frame]
  exact settles.change admittedTo.holds.1 (.inl admittedTo.holds.2) to_
    { second.slots high with dirty := true, frame := (second.slots low).frame } admittedTo.holds.2
    rfl (settles.sound.recent admittedTo.holds.1) le_rfl rfl rfl

theorem Sound.flushSlots (slots : List Nat) : ∀ {cache : Cache}, cache.Sound →
    (∀ slot ∈ slots, slot < cache.count) →
    ∃ after, cache.flushSlots slots = (.ok (), after) ∧ cache.Settles after ∧
      (∀ slot, (cache.slots slot).dirty = false → (after.slots slot).dirty = false) ∧
      ∀ slot ∈ slots, (after.slots slot).dirty = false := by
  induction slots with
  | nil =>
    intro cache sound _
    exact ⟨cache, rfl, Settles.refl sound, fun _ clean => clean, by simp⟩
  | cons slot rest ih =>
    intro cache sound inside
    obtain ⟨written, went, settles, back⟩ := sound.writeBack (inside slot mem_cons_self)
    obtain ⟨after, flushed, settlesRest, kept, clean⟩ := ih settles.sound
      (fun other member => back.count ▸ inside other (mem_cons_of_mem _ member))
    have cleaned (other : Nat) (was : (cache.slots other).dirty = false ∨ other = slot) :
        (written.slots other).dirty = false := by
      by_cases same : other = slot
      · rw [same, back.here]
      · rw [back.away same]
        exact was.resolve_right same
    refine ⟨after, ?_, settles.trans settlesRest, ?_, ?_⟩
    · rw [Cache.flushSlots, went]
      exact flushed
    · intro other was
      exact kept other (cleaned other (.inl was))
    intro other member
    rcases mem_cons.mp member with rfl | later
    · exact kept _ (cleaned _ (.inr rfl))
    · exact clean other later

theorem Sound.flush (sound : cache.Sound) : ∃ after, cache.flush =
    (.ok (), after) ∧ cache.Settles after ∧ ∀ block, ¬ after.Dirty block := by
  obtain ⟨after, went, settles, _, clean⟩ := Sound.flushSlots (range cache.count) sound
    (fun slot member => mem_range.mp member)
  refine ⟨after, went, settles, ?_⟩
  rintro block ⟨slot, holds, dirty⟩
  rw [clean slot (mem_range.mpr (settles.keeps.count ▸ holds.1))] at dirty
  exact nomatch dirty

theorem Serves.mono {touched wider : Nat → Prop}
    (serves : cache.Serves touched pages after) (wide : ∀ block, touched block → wider block) :
    cache.Serves wider pages after :=
  { serves with dirty := fun block dirty => (serves.dirty block dirty).imp_right (wide block) }

theorem refused (outside : cache.store.blocks ≤ block) :
    cache.admitBlock block = (.error .outOfRange, cache) := by
  rw [Cache.admitBlock, if_pos outside]

theorem Sound.serve (sound : cache.Sound) (request : Access Block) :
    (¬ cache.Unlent ∧ ∃ error after,
        cache.handler request = (Access.refusal request error, after) ∧ cache.Settles after) ∨
      ∃ after, cache.handler request =
          ((flat cache.store.blocks FsError.outOfRange request cache.view).1, after) ∧
        cache.Serves (fun block => request.Touches block ∧ block < cache.store.blocks)
          (flat cache.store.blocks FsError.outOfRange request cache.view).2 after := by
  have unmoved := (Settles.refl sound).serves
    (fun block => request.Touches block ∧ block < cache.store.blocks)
  cases request with
  | page block =>
    by_cases inside : block < cache.store.blocks
    · simp only [flat, if_pos inside]
      refine (sound.page inside).imp_right ?_
      rintro ⟨after, went, settles⟩
      exact ⟨after, went, settles.serves _⟩
    simp only [flat, if_neg inside]
    refine .inr ⟨cache, ?_, unmoved⟩
    show Cache.page block cache = _
    rw [Cache.page, refused (Nat.le_of_not_lt inside)]
    rfl
  | edit block change =>
    by_cases inside : block < cache.store.blocks
    · simp only [flat, if_pos inside]
      refine (sound.edit inside change).imp_right ?_
      rintro ⟨after, went, serves⟩
      exact ⟨after, went, serves.mono fun other same => ⟨same, same ▸ inside⟩⟩
    simp only [flat, if_neg inside]
    refine .inr ⟨cache, ?_, unmoved⟩
    show Cache.edit block change cache = _
    rw [Cache.edit, refused (Nat.le_of_not_lt inside)]
    rfl
  | put block content =>
    by_cases inside : block < cache.store.blocks
    · simp only [flat, if_pos inside]
      refine (sound.put inside content).imp_right ?_
      rintro ⟨after, went, serves⟩
      exact ⟨after, went, serves.mono fun other same => ⟨same, same ▸ inside⟩⟩
    · simp only [flat, if_neg inside]
      refine .inr ⟨cache, ?_, unmoved⟩
      show Cache.put block content cache = _
      rw [Cache.put, if_pos (Nat.le_of_not_lt inside)]
  | copy source target =>
    by_cases same : source = target
    · simp only [flat, if_pos same]
      refine .inr ⟨cache, ?_, unmoved⟩
      show Cache.copy source target cache = _
      rw [Cache.copy, if_pos same]
    by_cases inside : source < cache.store.blocks ∧ target < cache.store.blocks
    · simp only [flat, if_neg same, if_pos inside]
      refine (sound.copy same inside.1 inside.2).imp_right ?_
      rintro ⟨after, went, serves⟩
      exact ⟨after, went, serves.mono fun other here => ⟨⟨same, here⟩, here ▸ inside.2⟩⟩
    simp only [flat, if_neg same, if_neg inside]
    have unfolded : cache.handler (.copy source target) = Cache.andThen
        (cache.admitBlock source) fun from_ cache =>
          Cache.andThen ((cache.touch from_).admitBlock target) fun to_ cache =>
            cache.overwrite from_ to_ := if_neg same
    rw [unfolded]
    by_cases low : source < cache.store.blocks
    · rcases sound.admitBlock low with balks | ⟨slot, first, went, admitted⟩
      · exact .inl (balks.andThen _)
      have touched := admitted.settles.sound.touch admitted.holds
      have settles := admitted.settles.trans touched.settles
      have high : ¬ target < (first.touch slot).store.blocks := by
        rw [settles.blocks]; exact fun high => inside ⟨low, high⟩
      refine .inr ⟨first.touch slot, ?_, settles.serves _⟩
      rw [went]
      simp only [Cache.andThen, refused (Nat.le_of_not_lt high)]
    · refine .inr ⟨cache, ?_, unmoved⟩
      rw [refused (Nat.le_of_not_lt low)]
      rfl
  | flush =>
    obtain ⟨after, went, settles, _⟩ := sound.flush
    exact .inr ⟨after, went, settles.serves _⟩

theorem sound_new {store : Device} (made : Cache.new frames store = .ok cache)
    (free : store.limit = none) : cache.Sound ∧ cache.Unlent := by
  unfold Cache.new at made
  simp only at made
  split at made
  · exact nomatch made
  rename_i enough
  have blank (slot : Nat) : cache.slots slot = .empty := by rw [← Except.ok.inj made]
  have empty (slot block : Nat) : ¬ cache.Holds slot block := by
    rintro ⟨_, holds⟩
    rw [blank] at holds
    exact nomatch holds
  refine ⟨⟨?_, ?_, by rw [← Except.ok.inj made]; exact free, ?_, ?_, ?_, ?_, ?_, ?_⟩, ?_⟩
  · rw [← Except.ok.inj made]; exact Nat.le_of_not_lt enough
  · rw [← Except.ok.inj made]; exact Nat.min_le_right _ _
  · intro slot other block holds
    exact absurd holds (empty slot block)
  · intro slot block holds
    exact absurd holds (empty slot block)
  · intro slot block holds
    exact absurd holds (empty slot block)
  all_goals intro slot _; simp [blank, Slot.empty]

end Bhaskix.Fs.Cache
