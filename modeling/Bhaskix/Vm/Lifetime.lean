import Bhaskix.Vm.Operations

namespace Bhaskix.Vm

open Library Mm
open List hiding after all next

namespace State

variable {state : State}

structure Made (machine : Machine) (name : Nat) (space : AddressSpace) (next : Machine) :
    Prop where
  named : space.name = name
  free : machine.holder space.root = none
  regions : space.regions = .new
  tables : space.tables = []
  leaves : ∀ slot, slot < lowerSlots → space.leaves slot = none
  owner : space.owner = none
  charged : space.charged = 0
  log : next.log = .took (.table name) space.root :: machine.log
  budgets : next.budgets = machine.budgets
  contents : next.contents = machine.contents

theorem new_made {machine : Machine} {space : AddressSpace}
    (made : AddressSpace.new machine name = (.ok space, next)) : Made machine name space next := by
  unfold AddressSpace.new at made
  rcases allocate_spec machine (.table name) with ⟨root, free, done⟩ | refused
  · rw [done] at made
    cases made
    exact ⟨rfl, free, rfl, rfl, fun slot low => if_pos low, rfl, rfl, rfl, rfl, rfl⟩
  · rw [refused] at made
    cases made

theorem destroyRegions_spec (low : ∀ region ∈ regions, Lower region.range)
    (sorted : regions.Pairwise fun earlier later => earlier.range.stop ≤ later.range.first)
    (state : State) : ∃ pages : List Nat, pages.Nodup ∧
      (∀ page, page ∈ pages ↔ ∃ region ∈ regions, Freeable region.toPolicy ∧ page ∈ region.range) ∧
      Dropped pages 0 state (destroyRegions regions state).2 ∧
      (destroyRegions regions state).1 = (state.present pages).length := by
  induction regions generalizing state with
  | nil => exact ⟨[], .nil, by simp, Dropped.refl state, rfl⟩
  | cons region rest induction =>
    obtain ⟨apart, sorted⟩ := pairwise_cons.mp sorted
    have low' : ∀ other ∈ rest, Lower other.range := fun other member =>
      low other (mem_cons_of_mem _ member)
    unfold destroyRegions
    by_cases freeable : Freeable region.toPolicy
    · have skip : ¬ (region.backing ≠ .anonymous ∨ (!region.protection.present) = true) := by
        simp [freeable.1, freeable.2]
      rw [if_neg skip]
      obtain ⟨first, freed⟩ := unmapEach_spec
        (fun page => (low region mem_cons_self).page) (nodup_pagesIter region.range) state
      obtain ⟨pages, nodup, members, later, more⟩ := induction low' sorted
        (unmapEach region.range.pagesIter state).2
      have disjoint : ∀ page ∈ region.range.pagesIter, page ∉ pages := by
        intro page early late
        obtain ⟨other, member, _, inside⟩ := (members page).mp late
        have after := apart other member
        have bounds := (VirtRange.mem_pagesIter.mp early).2
        have start := inside.1
        omega
      refine ⟨region.range.pagesIter ++ pages, ?_, ?_, first.trans later disjoint, ?_⟩
      · exact nodup_append.mpr ⟨nodup_pagesIter region.range, nodup,
          fun page early other late same =>
          disjoint page early (same ▸ late)⟩
      · intro page
        rw [mem_append, members page, VirtRange.mem_pagesIter]
        constructor
        · rintro (inside | ⟨other, member, rest⟩)
          · exact ⟨region, mem_cons_self, freeable, inside⟩
          · exact ⟨other, mem_cons_of_mem _ member, rest⟩
        · rintro ⟨other, member, rest⟩
          rcases mem_cons.mp member with rfl | member
          · exact .inl rest.2
          · exact .inr ⟨other, member, rest⟩
      · have same : (unmapEach region.range.pagesIter state).2.present pages =
            state.present pages :=
          filter_congr fun page member => by
            rw [first.outside page fun early => disjoint page early member]
        simp only [freed, more, same]
        rw [← length_append, present, present, ← filter_append, present]
    · have skip : region.backing ≠ .anonymous ∨ (!region.protection.present) = true := by
        by_contra both
        simp only [not_or, not_not, Bool.not_eq_true', Bool.not_eq_false] at both
        exact freeable both
      rw [if_pos skip]
      obtain ⟨pages, nodup, members, dropped, freed⟩ := induction low' sorted state
      refine ⟨pages, nodup, ?_, dropped, freed⟩
      intro page
      rw [members page]
      constructor
      · rintro ⟨other, member, rest⟩
        exact ⟨other, mem_cons_of_mem _ member, rest⟩
      rintro ⟨other, member, free, inside⟩
      rcases mem_cons.mp member with rfl | member
      · exact absurd free freeable
      · exact ⟨other, member, free, inside⟩

theorem free_all (who : Holder) (frames : List Nat) (machine : Machine) :
    let freed := frames.foldl (fun machine frame => machine.free who frame) machine
    freed.budgets = machine.budgets ∧ (∀ frame ∈ frames, freed.holder frame = none) ∧
      ∀ frame, frame ∉ frames → freed.holder frame = machine.holder frame := by
  induction frames generalizing machine with
  | nil => exact ⟨rfl, nofun, fun _ _ => rfl⟩
  | cons first rest induction =>
    obtain ⟨budgets, inside, outside⟩ := induction (machine.free who first)
    refine ⟨budgets, ?_, ?_⟩
    · intro frame member
      by_cases later : frame ∈ rest
      · exact inside frame later
      · rw [foldl_cons, outside frame later]
        exact if_pos ((mem_cons.mp member).resolve_right later).symm
    · intro frame out
      rw [mem_cons, not_or] at out
      rw [foldl_cons, outside frame out.2]
      exact if_neg fun same => out.1 same.symm

theorem free_each {machine : Machine} {frames : List Nat} (nodup : frames.Nodup)
    (held : ∀ frame ∈ frames, machine.holder frame = some who) (lawful : machine.log.Lawful) :
    let freed := frames.foldl (fun machine frame => machine.free who frame) machine
    freed.log.Lawful ∧ freed.budgets = machine.budgets ∧ freed.contents = machine.contents ∧
      (∀ frame ∈ frames, freed.holder frame = none) ∧
      ∀ frame, frame ∉ frames → freed.holder frame = machine.holder frame := by
  intro freed
  obtain ⟨budgets, inside, outside⟩ := free_all who frames machine
  suffices freed.log.Lawful ∧ freed.contents = machine.contents from
    ⟨this.1, budgets, this.2, inside, outside⟩
  clear budgets inside outside
  induction frames generalizing machine with
  | nil => exact ⟨lawful, rfl⟩
  | cons first rest induction =>
    obtain ⟨fresh, nodup⟩ := nodup_cons.mp nodup
    refine induction nodup ?_ ⟨held first mem_cons_self, lawful⟩
    intro frame member
    refine (if_neg ?_).trans (held frame (mem_cons_of_mem _ member))
    exact fun same => fresh (same ▸ member)

def tableFrames (state : State) : List Nat :=
  (state.space.tables.filter Table.lower).map Table.frame ++ [state.space.root]

theorem Tabled.frames_held (tabled : state.Tabled) : state.tableFrames.Nodup ∧
      ∀ frame ∈ state.tableFrames, state.holder frame = some (.table state.space.name) := by
  have all : state.space.tables.filter Table.lower = state.space.tables :=
    filter_eq_self.mpr tabled.lower
  obtain ⟨fresh, nodup⟩ := nodup_cons.mp tabled.distinct
  rw [tableFrames, all]
  constructor
  · refine nodup_append.mpr ⟨nodup, nodup_singleton _, ?_⟩
    intro frame member other last same
    exact fresh (mem_singleton.mp last ▸ same ▸ member)
  intro frame member
  rcases mem_append.mp member with listed | last
  · obtain ⟨table, held, rfl⟩ := mem_map.mp listed
    exact tabled.held table held
  · rw [mem_singleton.mp last]
    exact tabled.root

end State

end Bhaskix.Vm
