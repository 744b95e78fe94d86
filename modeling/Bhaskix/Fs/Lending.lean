import Bhaskix.Fs.CacheView

namespace Bhaskix.Fs.Cache

open Library

inductive Operation
  | access (request : Access Block)
  | pin (block : Nat)
  | unpin (slot : Nat)

def perform : Operation → Cache → Except FsError Unit × Cache
  | .access request, cache =>
    let result := cache.handler request
    (Access.outcome request result.1, result.2)
  | .pin block, cache => andThen (cache.pin block) fun _ cache => (.ok (), cache)
  | .unpin slot, cache => (.ok (), cache.unpin slot)

def performAll : List Operation → Cache → Except FsError Unit × Cache
  | [], cache => (.ok (), cache)
  | operation :: rest, cache =>
    andThen (cache.perform operation) fun _ cache => cache.performAll rest

def Operation.apply : Operation → Pages → Pages
  | .access request, pages => request.apply pages
  | .pin _, pages | .unpin _, pages => pages

variable {cache after : Cache} {slot block : Nat}

theorem Sound.repin (sound : cache.Sound)
    (held : flag = true → (cache.slots slot).block ≠ none)
    (same : after = cache.setSlot slot { cache.slots slot with pinned := flag }) :
    after.Sound ∧ after.view = cache.view := by
  have slots (other : Nat) : (after.slots other).block = (cache.slots other).block ∧
      (after.slots other).dirty = (cache.slots other).dirty ∧
      (after.slots other).used = (cache.slots other).used ∧
      (after.slots other).frame = (cache.slots other).frame := by
    rw [same]
    by_cases differs : other = slot
    · rw [differs, slots_setSlot]
      exact ⟨rfl, rfl, rfl, rfl⟩
    · rw [slots_setSlot_of_ne _ _ differs]
      exact ⟨rfl, rfl, rfl, rfl⟩
  have store : after.store = cache.store := by rw [same]; rfl
  have count : after.count = cache.count := by rw [same]; rfl
  have clock : after.clock = cache.clock := by rw [same]; rfl
  have holds {other page : Nat} : after.Holds other page ↔ cache.Holds other page := by
    rw [Holds, Holds, count, (slots other).1]
  have resident (page : Nat) : after.resident page = cache.resident page := by
    simp only [Cache.resident, count, (slots _).1]
  refine ⟨⟨count ▸ sound.frames, count ▸ sound.bounded, store ▸ sound.free, ?_, ?_, ?_, ?_, ?_, ?_⟩,
    ?_⟩
  · intro one two page first second
    exact sound.distinct (holds.mp first) (holds.mp second)
  · intro one page first
    rw [store]
    exact sound.inside (holds.mp first)
  · intro one page first clean
    rw [(slots one).2.1] at clean
    rw [(slots one).2.2.2, store]
    exact sound.clean (holds.mp first) clean
  · intro one low empty
    rw [(slots one).1] at empty
    rw [(slots one).2.1]
    exact sound.blank (count ▸ low) empty
  · intro one low
    rw [(slots one).2.2.1, clock]
    exact sound.recent (count ▸ low)
  · intro one low empty
    rw [(slots one).1] at empty
    by_cases differs : one = slot
    · rw [same, differs, slots_setSlot]
      rw [differs] at empty
      exact Bool.eq_false_iff.mpr fun set => held set empty
    · rw [same, slots_setSlot_of_ne _ _ differs]
      exact sound.lent (count ▸ low) empty
  · funext page
    simp only [view, resident, store, (slots _).2.2.2]

def Lent (cache : Cache) (slot block : Nat) : Prop :=
  cache.Holds slot block ∧ (cache.slots slot).pinned = true

theorem Keeps.lent (keeps : cache.Keeps after) (lent : cache.Lent slot block) :
    after.Lent slot block :=
  ⟨⟨keeps.count ▸ lent.1.1, (keeps.block lent.1.1 lent.2).trans lent.1.2⟩,
    (keeps.pinned lent.1.1).trans lent.2⟩

theorem Sound.pin (sound : cache.Sound) (went : cache.pin block = (.ok slot, after)) :
    after.Sound ∧ after.view = cache.view ∧ after.Lent slot block ∧
      ∀ other page, cache.Lent other page → after.Lent other page := by
  rw [Cache.pin] at went
  by_cases inside : block < cache.store.blocks
  · rcases sound.admitBlock inside with ⟨_, _, _, failed, _⟩ | ⟨found, made, admitted, holds⟩
    · rw [failed] at went
      cases went
    rw [admitted] at went
    simp only [andThen, Prod.mk.injEq, Except.ok.injEq] at went
    obtain ⟨rfl, same⟩ := went
    have present : (made.slots found).block ≠ none := by rw [holds.holds.2]; simp
    obtain ⟨soundAfter, viewAfter⟩ := holds.settles.sound.repin (fun _ => present) same.symm
    have here : after.slots found = { made.slots found with pinned := true } := by
      rw [← same, slots_setSlot]
    have count : after.count = made.count := by rw [← same]; rfl
    refine ⟨soundAfter, viewAfter.trans holds.settles.view, ?_, ?_⟩
    · exact ⟨⟨count ▸ holds.holds.1, by rw [here]; exact holds.holds.2⟩, by rw [here]⟩
    intro other page lent
    have still := holds.settles.keeps.lent lent
    by_cases differs : other = found
    · rw [differs] at still ⊢
      exact ⟨⟨count ▸ still.1.1, by rw [here]; exact still.1.2⟩, by rw [here]⟩
    · have away : after.slots other = made.slots other := by
        rw [← same, slots_setSlot_of_ne _ _ differs]
      exact ⟨⟨count ▸ still.1.1, by rw [away]; exact still.1.2⟩, by rw [away]; exact still.2⟩
  · rw [refused (Nat.le_of_not_lt inside)] at went
    cases went

theorem Sound.unpin (sound : cache.Sound) (slot : Nat) :
    (cache.unpin slot).Sound ∧ (cache.unpin slot).view = cache.view ∧
      ∀ other page, other ≠ slot → cache.Lent other page → (cache.unpin slot).Lent other page := by
  unfold Cache.unpin
  split
  · have idle : false = true → (cache.slots slot).block ≠ none := nofun
    obtain ⟨soundAfter, viewAfter⟩ := sound.repin idle rfl
    refine ⟨soundAfter, viewAfter, fun other page differs lent => ?_⟩
    have away : (cache.setSlot slot { cache.slots slot with pinned := false }).slots other =
        cache.slots other := slots_setSlot_of_ne _ _ differs
    exact ⟨⟨lent.1.1, by rw [away]; exact lent.1.2⟩, by rw [away]; exact lent.2⟩
  · exact ⟨sound, rfl, fun _ _ _ lent => lent⟩

theorem Sound.perform (sound : cache.Sound)
    (went : cache.perform operation = (.ok (), after)) :
    after.Sound ∧ after.view = operation.apply cache.view ∧
      ∀ other page, operation ≠ .unpin other → cache.Lent other page → after.Lent other page := by
  cases operation with
  | access request =>
    simp only [Cache.perform, Prod.mk.injEq] at went
    rcases sound.serve request with ⟨_, error, made, failed, _⟩ | ⟨made, answered, serves⟩
    · rw [failed, Access.outcome_refusal] at went
      exact nomatch went.1
    rw [answered] at went
    obtain ⟨fine, rfl⟩ := went
    refine ⟨serves.sound, ?_, fun other page _ lent => serves.keeps.lent lent⟩
    rw [serves.view]
    exact Access.flat_apply fine
  | pin block =>
    rw [Cache.perform] at went
    cases pinned : cache.pin block with
    | mk result made =>
      rw [pinned] at went
      cases result with
      | error error => exact nomatch went
      | ok slot =>
        simp only [andThen, Prod.mk.injEq, true_and] at went
        rw [← went]
        obtain ⟨soundAfter, viewAfter, _, kept⟩ := sound.pin pinned
        exact ⟨soundAfter, viewAfter, fun other page _ => kept other page⟩
  | unpin slot =>
    simp only [Cache.perform, Prod.mk.injEq, true_and] at went
    rw [← went]
    obtain ⟨soundAfter, viewAfter, kept⟩ := sound.unpin slot
    refine ⟨soundAfter, viewAfter, fun other page differs => kept other page ?_⟩
    exact fun same => differs (by rw [same])

theorem performAll_append (first rest : List Operation) (cache : Cache) :
    cache.performAll (first ++ rest) =
      andThen (cache.performAll first) fun _ cache => cache.performAll rest := by
  induction first generalizing cache with
  | nil => rfl
  | cons operation first ih =>
    simp only [List.cons_append, performAll]
    cases cache.perform operation with
    | mk result made =>
      cases result with
      | error error => rfl
      | ok value => exact ih made

theorem Sound.performAll (operations : List Operation) (sound : cache.Sound)
    (went : cache.performAll operations = (.ok (), after)) : after.Sound ∧
      after.view = operations.foldl (fun pages operation => operation.apply pages) cache.view ∧
      ∀ other page, Operation.unpin other ∉ operations → cache.Lent other page →
        after.Lent other page := by
  induction operations generalizing cache with
  | nil =>
    simp only [Cache.performAll, Prod.mk.injEq, true_and] at went
    rw [← went]
    exact ⟨sound, rfl, fun _ _ _ lent => lent⟩
  | cons operation rest ih =>
    rw [Cache.performAll] at went
    cases step : cache.perform operation with
    | mk result made =>
      rw [step] at went
      cases result with
      | error error => exact nomatch went
      | ok value =>
        obtain ⟨soundMade, viewMade, keptMade⟩ := sound.perform step
        obtain ⟨soundAfter, viewAfter, kept⟩ := ih soundMade went
        refine ⟨soundAfter, by rw [viewAfter, viewMade]; rfl, fun other page never lent => ?_⟩
        rw [List.mem_cons, not_or] at never
        exact kept other page never.2 (keptMade other page (Ne.symm never.1) lent)

theorem view_new {store : Device} (made : Cache.new frames store = .ok cache) :
    cache.view = store.bytes := by
  unfold Cache.new at made
  simp only at made
  split at made
  · exact nomatch made
  funext block
  rw [← Except.ok.inj made]
  refine view_absent ?_
  rintro slot ⟨_, holds⟩
  exact nomatch holds

theorem blockIn_eq (sound : cache.Sound) (low : slot < cache.count) :
    cache.blockIn slot = (cache.slots slot).block :=
  if_pos (low.trans_le sound.bounded)

/-- Whatever is asked of the cache, it is an array of blocks. -/
theorem invisible {frames : Nat} {store : Device} (never : store.limit = none)
    (made : Cache.new frames store = .ok cache) {operations : List Operation}
    (went : cache.performAll operations = (.ok (), after)) :
    let array := operations.foldl (fun pages operation => operation.apply pages) store.bytes
    (∀ block content last, after.page block = (.ok content, last) → content = array block) ∧
      (∃ last, after.flush = (.ok (), last) ∧ last.store.bytes = array) ∧
      (∀ slot other block, slot < after.count → other < after.count →
        after.blockIn slot = some block → after.blockIn other = some block → slot = other) ∧
      ∀ first block slot between last rest, operations = first ++ .pin block :: rest →
        cache.performAll first = (.ok (), between) → between.pin block = (.ok slot, last) →
        Operation.unpin slot ∉ rest →
        after.pinned slot = true ∧ after.blockIn slot = some block := by
  obtain ⟨sound, _⟩ := sound_new made never
  obtain ⟨soundAfter, viewAfter, _⟩ := sound.performAll operations went
  rw [view_new made] at viewAfter
  refine ⟨?_, ?_, ?_, ?_⟩
  · intro block content last read
    rw [← viewAfter]
    by_cases inside : block < after.store.blocks
    · rcases soundAfter.page inside with ⟨_, _, _, failed, _⟩ | ⟨_, answered, _⟩
      · rw [failed] at read
        cases read
      · rw [answered] at read
        exact (Except.ok.inj (Prod.mk.inj read).1).symm
    · rw [Cache.page, refused (Nat.le_of_not_lt inside)] at read
      cases read
  · obtain ⟨last, flushed, settles, clean⟩ := soundAfter.flush
    refine ⟨last, flushed, ?_⟩
    rw [← viewAfter, ← settles.view]
    exact funext fun block => (settles.sound.view_clean (clean block)).symm
  · intro slot other block low high here there
    rw [blockIn_eq soundAfter low] at here
    rw [blockIn_eq soundAfter high] at there
    exact soundAfter.distinct ⟨low, here⟩ ⟨high, there⟩
  · intro first block slot between last rest split early pinned kept
    obtain ⟨soundBetween, _, _⟩ := sound.performAll first early
    obtain ⟨soundLast, _, lent, _⟩ := soundBetween.pin pinned
    have later : last.performAll rest = (.ok (), after) := by
      rw [split, performAll_append, early] at went
      simpa only [andThen, Cache.performAll, Cache.perform, pinned] using went
    obtain ⟨_, _, keeps⟩ := soundLast.performAll rest later
    have still := keeps slot block kept lent
    refine ⟨?_, (blockIn_eq soundAfter still.1.1).trans still.1.2⟩
    rw [Cache.pinned, still.2, Bool.and_true, decide_eq_true_eq]
    exact still.1.1.trans_le soundAfter.bounded

/-- Two frames, one of them lent: the other still serves every block. -/
theorem invisible_lent : ∃ cache after, Cache.new 2 (.blank 3) = .ok cache ∧
      cache.performAll [.pin 0, .access (.page 1), .access (.edit 2 fun _ _ => 7)] =
        (.ok (), after) ∧ after.blockIn 0 = some 0 ∧
      (∀ content last, after.page 2 = (.ok content, last) → content = fun _ => 7) ∧
      ∃ last, after.flush = (.ok (), last) ∧
        last.store.bytes = Function.update (Device.blank 3).bytes 2 fun _ => 7 := by
  have made : Cache.new 2 (.blank 3) = .ok ⟨fun _ => .empty, 2, 0, .blank 3⟩ := rfl
  have went : performAll [.pin 0, .access (.page 1), .access (.edit 2 fun _ _ => 7)]
      ⟨fun _ => .empty, 2, 0, .blank 3⟩ = (.ok (), _) := rfl
  obtain ⟨read, flushed, _, kept⟩ := invisible rfl made went
  exact ⟨_, _, made, went, (kept [] 0 0 _ _ _ rfl rfl rfl (by simp)).2, read 2, flushed⟩

end Bhaskix.Fs.Cache
