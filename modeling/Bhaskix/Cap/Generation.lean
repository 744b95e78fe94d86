import Bhaskix.Cap.RevokeExact

namespace Bhaskix.Cap.Arena

/-! An entry's generation counts its deaths. A reference carries the generation
it was issued under, so it stops resolving at the first death and comes back
only after 2^32 of them. -/

def Fades (before after : Arena) (index : Index) : Prop :=
  after.nodes index = before.nodes index ∨
    ((before.nodes index).live = true ∧
      after.nodes index = (before.nodes index).buried)

theorem Fades.refl (arena : Arena) (index : Index) :
    Fades arena arena index := .inl rfl

variable {index : Index} {rights : Rights} {badge : UInt64}

theorem Fades.trans (earlier : Fades first second index) (later : Fades second third index) :
    Fades first third index := by
  rcases earlier with same | ⟨wasLive, died⟩
  · rw [Fades, ← same]
    exact later
  · rcases later with kept | ⟨isLive, -⟩
    · exact .inr ⟨wasLive, kept.trans died⟩
    · simp [died] at isLive

variable {arena : Arena} {slot : SlotRef}

theorem fades_killAll (live : killed ⊆ arena.liveNodes) (index : Index) :
    Fades arena (arena.killAll killed) index := by
  by_cases member : index ∈ killed
  · exact .inr ⟨mem_liveNodes.mp (live member), killAll_nodes_mem member⟩
  · exact .inl (killAll_nodes_not_mem member)

theorem fades_destroySubtree (formed : arena.WellFormed) (rootLive : (arena.nodes root).live = true)
    (index : Index) : Fades arena (arena.destroySubtree root).2 index := by
  rw [destroySubtree_eq formed.parentsLive rootLive]
  exact fades_killAll (subtree_subset_liveNodes rootLive) index

theorem fades_revokeUnchecked (formed : arena.WellFormed)
    (slot : SlotRef) (index : Index) :
    Fades arena (arena.revokeUnchecked slot).2 index := by
  rcases revokeUnchecked_cases arena slot with ⟨-, missing⟩ | ⟨root, found, swept⟩
  · rw [missing]
    exact Fades.refl arena index
  · rw [swept]
    exact fades_destroySubtree formed (resolve_live found) index

theorem fades_withTally (later : Option Tally)
    (fades : Fades { before with tally := earlier } after index) :
    Fades before { after with tally := later } index := fades

theorem fades_revokeRootsNaming (formed : arena.WellFormed)
    (object : ObjectRef) (tally : Tally) (index : Index) :
    Fades arena (arena.revokeRootsNaming object tally).2.2 index := by
  rw [revokeRootsNaming_eq formed]
  exact fades_withTally none (fades_killAll (Finset.filter_subset ..) index)

def Rises (before after : Arena) (index : Index) : Prop :=
  (before.nodes index).live = false ∧ (after.nodes index).live = true ∧
    (after.nodes index).generation = (before.nodes index).generation

section

variable (rights : Rights) (badge : UInt64) (owner : Nat) (index : Index)

theorem occupy_fades_or_rises (room : arena.freeIndex = some free) (object : ObjectRef)
    (parent : Option Index) :
    Fades arena (arena.occupy free object rights badge parent owner).2 index ∨
      Rises arena (arena.occupy free object rights badge parent owner).2 index := by
  by_cases same : index = free
  · subst index
    refine .inr ⟨freeIndex_dead room, ?_, ?_⟩ <;> rw [occupy_nodes_self] <;> rfl
  · exact .inl (.inl (occupy_nodes_ne same))

theorem insertRootOwned_fades_or_rises (arena : Arena) (object : ObjectRef) :
    Fades arena (arena.insertRootOwned object rights badge owner).2 index ∨
      Rises arena (arena.insertRootOwned object rights badge owner).2 index := by
  rcases insertRootOwned_cases arena object rights badge owner with
    refused | ⟨free, room, placed⟩
  · rw [refused]
    exact .inl (Fades.refl arena index)
  · rw [placed]
    exact occupy_fades_or_rises rights badge owner index room object none

theorem deriveOwned_fades_or_rises (arena : Arena) (parent : SlotRef) :
    Fades arena (arena.deriveOwned parent rights badge owner).2 index ∨
      Rises arena (arena.deriveOwned parent rights badge owner).2 index := by
  rcases deriveOwned_cases arena parent rights badge owner with
    ⟨error, refused⟩ | ⟨above, free, found, room, -, placed⟩
  · rw [refused]
    exact .inl (Fades.refl arena index)
  · rw [placed]
    exact occupy_fades_or_rises rights badge owner index room _ (some above)

end

theorem apply_fades_or_rises (formed : arena.WellFormed) (op : Op) (index : Index) :
    Fades arena (arena.apply op) index ∨ Rises arena (arena.apply op) index := by
  cases op with
  | insertRoot object rights badge =>
    exact insertRootOwned_fades_or_rises rights badge ownerKernel index arena object
  | insertRootOwned object rights badge owner =>
    exact insertRootOwned_fades_or_rises rights badge owner index arena object
  | derive parent rights badge =>
    exact deriveOwned_fades_or_rises rights badge ownerKernel index arena parent
  | deriveOwned parent rights badge owner =>
    exact deriveOwned_fades_or_rises rights badge owner index arena parent
  | revoke slot =>
    left
    rcases revoke_cases arena slot with ⟨error, refused⟩ | ⟨root, found, -, swept⟩
    · simpa only [apply, refused] using Fades.refl arena index
    · simpa only [apply, swept] using fades_destroySubtree formed (resolve_live found) index
  | revokeUnchecked slot => exact .inl (fades_revokeUnchecked formed slot index)
  | revokeTallied slot tally =>
    left
    rcases revokeTallied_cases arena slot tally with
      ⟨error, refused⟩ | ⟨root, found, -, swept⟩
    · simpa only [apply, refused] using Fades.refl arena index
    simp only [apply, swept]
    exact fades_destroySubtree (formed.withTally (some tally)) (resolve_live found) index
  | revokeRootsNaming object tally =>
    exact .inl (fades_revokeRootsNaming formed object tally index)

/-- How often the entry is killed along a run: the calls before which it is live
and after which it is not. -/
def killsAlong (arena : Arena) (index : Index) : List Op → Nat
  | [] => 0
  | op :: rest =>
    (if (arena.nodes index).live && !((arena.apply op).nodes index).live then 1 else 0) +
      (arena.apply op).killsAlong index rest

theorem run_generation (formed : arena.WellFormed) (index : Index) (ops : List Op) :
    ((arena.run ops).nodes index).generation =
      (arena.nodes index).generation + UInt32.ofNat (arena.killsAlong index ops) := by
  induction ops generalizing arena with
  | nil => simp [run, killsAlong]
  | cons op rest induction =>
    have later := induction (formed.apply op)
    change (((arena.apply op).run rest).nodes index).generation = _
    rw [later, killsAlong]
    rcases apply_fades_or_rises formed op index with (same | ⟨wasLive, died⟩) | ⟨dead, -, kept⟩
    · simp [same]
    · simp [wasLive, died, UInt32.ofNat_add, UInt32.add_assoc]
    · simp [dead, kept]

theorem run_nodes_of_no_kill (formed : arena.WellFormed) (isLive : (arena.nodes index).live = true)
    (ops : List Op) (spared : arena.killsAlong index ops = 0) :
    (arena.run ops).nodes index = arena.nodes index := by
  induction ops generalizing arena with
  | nil => rfl
  | cons op rest induction =>
    rw [killsAlong] at spared
    rcases apply_fades_or_rises formed op index with (same | ⟨-, died⟩) | ⟨dead, -, -⟩
    · have later := induction (formed.apply op) (same ▸ isLive) (by omega)
      exact later.trans same
    · simp [isLive, died] at spared
    · simp [dead] at isLive

def issued (arena : Arena) : Op → Option SlotRef
  | .insertRoot object rights badge => (arena.insertRoot object rights badge).1.toOption
  | .insertRootOwned object rights badge owner =>
    (arena.insertRootOwned object rights badge owner).1.toOption
  | .derive parent rights badge => (arena.derive parent rights badge).1.toOption
  | .deriveOwned parent rights badge owner =>
    (arena.deriveOwned parent rights badge owner).1.toOption
  | _ => none

def Fresh (arena : Arena) (slot : SlotRef) : Prop :=
  ∃ index, arena.resolve slot = some index ∧
    (arena.nodes index).serial = arena.serials

theorem fresh_occupy (arena : Arena) (free : Index) (object : ObjectRef)
    (rights : Rights) (badge : UInt64) (parent : Option Index) (owner : Nat) :
    Fresh (arena.occupy free object rights badge parent owner).2
      { node := free.val, generation := (arena.nodes free).generation } := by
  refine ⟨free, resolve_eq_some_iff.mpr ⟨rfl, ?_, ?_⟩, ?_⟩ <;>
    rw [occupy_nodes_self] <;> rfl

theorem fresh_insertRootOwned
    (gives : (arena.insertRootOwned object rights badge owner).1.toOption = some slot) :
    Fresh (arena.insertRootOwned object rights badge owner).2 slot := by
  rcases insertRootOwned_cases arena object rights badge owner with
    refused | ⟨free, -, placed⟩
  · simp [refused, Except.toOption] at gives
  rw [placed] at gives ⊢
  cases gives
  exact fresh_occupy arena free object rights badge none owner

theorem fresh_deriveOwned
    (gives : (arena.deriveOwned parent rights badge owner).1.toOption = some slot) :
    Fresh (arena.deriveOwned parent rights badge owner).2 slot := by
  rcases deriveOwned_cases arena parent rights badge owner with
    ⟨error, refused⟩ | ⟨above, free, -, -, -, placed⟩
  · simp [refused, Except.toOption] at gives
  rw [placed] at gives ⊢
  cases gives
  exact fresh_occupy arena free _ rights badge (some above) owner

theorem fresh_of_issued (gives : arena.issued op = some slot) : Fresh (arena.apply op) slot := by
  cases op with
  | insertRoot object rights badge | insertRootOwned object rights badge owner =>
    exact fresh_insertRootOwned gives
  | derive parent rights badge | deriveOwned parent rights badge owner =>
    exact fresh_deriveOwned gives
  | revoke slot | revokeUnchecked slot | revokeTallied slot tally
  | revokeRootsNaming object tally => cases gives

theorem ofNat_ne_zero_of_lt (positive : 0 < count)
    (bound : count < 2 ^ 32) : UInt32.ofNat count ≠ 0 := by
  intro zero
  have value := congrArg UInt32.toNat zero
  simp [UInt32.toNat_ofNat'] at value
  omega

/-- A reference that outlived its node resolves to nothing until the entry has died 2^32 times. -/
theorem stale_reference_never_resolves (earlier : List Op) (op : Op)
    (slot : SlotRef) (gives : (Arena.new.run earlier).issued op = some slot) :
    let start := (Arena.new.run earlier).apply op
    ∃ index : Index, slot.node = index.val ∧ (start.nodes index).live = true ∧
      (start.nodes index).serial = start.serials ∧
      ∀ later, start.killsAlong index later < 2 ^ 32 →
        (∀ found, (start.run later).resolve slot = some found →
          found = index ∧ start.killsAlong index later = 0 ∧
            ((start.run later).nodes index).live = true ∧
            ((start.run later).nodes index).serial = start.serials) ∧
        (0 < start.killsAlong index later → (start.run later).resolve slot = none) := by
  intro start
  have formed : start.WellFormed := (wellFormed_new.run earlier).apply op
  obtain ⟨index, found, serial⟩ := fresh_of_issued gives
  obtain ⟨names, isLive, generation⟩ := resolve_eq_some_iff.mp found
  refine ⟨index, names, isLive, serial, ?_⟩
  intro later bound
  have dead : 0 < start.killsAlong index later → (start.run later).resolve slot = none := by
    intro killed
    cases resolved : (start.run later).resolve slot with
    | none => rfl
    | some other =>
      obtain ⟨otherNames, -, otherGeneration⟩ := resolve_eq_some_iff.mp resolved
      have same : other = index := Fin.ext (otherNames.symm.trans names)
      subst other
      rw [run_generation formed, generation] at otherGeneration
      have wrapped : UInt32.ofNat (start.killsAlong index later) = 0 := by
        simpa using otherGeneration
      exact absurd wrapped (ofNat_ne_zero_of_lt killed bound)
  refine ⟨?_, dead⟩
  intro other resolved
  have spared : start.killsAlong index later = 0 := by
    by_contra killed
    simp [dead (Nat.pos_of_ne_zero killed)] at resolved
  have same : other = index :=
    Fin.ext ((resolve_eq_some_iff.mp resolved).1.symm.trans names)
  have kept := run_nodes_of_no_kill formed isLive later spared
  exact ⟨same, spared, kept ▸ isLive, kept ▸ serial⟩

/-- The first root of an arena, revoked and its entry reused any number of times
short of 2^32. -/
theorem first_root_never_resolves_again : let op := Op.insertRoot ⟨.frame, 7⟩ .all 0
    let start := (Arena.new.run []).apply op
    (Arena.new.run []).issued op = some ⟨0, 0⟩ ∧
      ∃ index : Index, (start.nodes index).live = true ∧
        ∀ later, start.killsAlong index later < 2 ^ 32 → 0 < start.killsAlong index later →
          (start.run later).resolve ⟨0, 0⟩ = none := by
  intro op start
  have gives : (Arena.new.run []).issued op = some ⟨0, 0⟩ := by decide +kernel
  obtain ⟨index, -, isLive, -, stale⟩ :=
    stale_reference_never_resolves [] op ⟨0, 0⟩ gives
  exact ⟨gives, index, isLive, fun later bound killed => (stale later bound).2 killed⟩

end Bhaskix.Cap.Arena
