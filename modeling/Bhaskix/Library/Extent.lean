import Mathlib

namespace Bhaskix.Library

structure Extent where
  start : Nat
  order : Nat
deriving DecidableEq

namespace Extent

variable (block : Extent)

def span : Set Nat :=
  Set.Ico block.start (block.start + 2 ^ block.order)

def Aligned : Prop :=
  2 ^ block.order ∣ block.start

theorem start_mem : block.start ∈ block.span :=
  ⟨le_rfl, Nat.lt_add_of_pos_right (Nat.two_pow_pos _)⟩

theorem span_halves (start order : Nat) :
    span ⟨start, order + 1⟩ = span ⟨start, order⟩ ∪ span ⟨start + 2 ^ order, order⟩ := by
  ext number
  simp only [span, Set.mem_union, Set.mem_Ico, pow_succ]
  omega

theorem disjoint_halves (start order : Nat) :
    Disjoint (span ⟨start, order⟩) (span ⟨start + 2 ^ order, order⟩) := by
  rw [Set.disjoint_left]
  rintro number ⟨_, low⟩ ⟨high, _⟩
  exact absurd low (Nat.not_lt.mpr high)

theorem Aligned.half {start order : Nat} (aligned : Aligned ⟨start, order + 1⟩) :
    Aligned ⟨start, order⟩ ∧ Aligned ⟨start + 2 ^ order, order⟩ := by
  have whole : 2 ^ order ∣ start := (pow_dvd_pow 2 (Nat.le_succ order)).trans aligned
  exact ⟨whole, Nat.dvd_add whole dvd_rfl⟩

variable {block : Extent}

theorem Aligned.below (aligned : block.Aligned)
    (multiple : 2 ^ block.order ∣ limit) (low : block.start < limit) :
    block.start + 2 ^ block.order ≤ limit := by
  obtain ⟨first, same⟩ := aligned
  obtain ⟨last, rfl⟩ := multiple
  rw [same] at low ⊢
  have before : first < last := Nat.lt_of_mul_lt_mul_left low
  calc 2 ^ block.order * first + 2 ^ block.order = 2 ^ block.order * (first + 1) := by ring
    _ ≤ 2 ^ block.order * last := Nat.mul_le_mul_left _ before

def buddy (block : Extent) : Extent :=
  ⟨block.start ^^^ 2 ^ block.order, block.order⟩

def merged (block : Extent) : Extent :=
  ⟨min block.start block.buddy.start, block.order + 1⟩

theorem Aligned.buddy_cases (aligned : block.Aligned) :
    (2 ^ (block.order + 1) ∣ block.start ∧ block.buddy.start = block.start + 2 ^ block.order) ∨
      2 ^ (block.order + 1) ∣ block.buddy.start ∧
        block.start = block.buddy.start + 2 ^ block.order := by
  obtain ⟨index, same⟩ := aligned
  have flipped : block.buddy.start = 2 ^ block.order * (index ^^^ 1) := by
    have shifted : (index ^^^ 1) <<< block.order = index <<< block.order ^^^ 1 <<< block.order :=
      Nat.shiftLeft_xor_distrib
    simp only [Nat.shiftLeft_eq, one_mul] at shifted
    rw [buddy, same, Nat.mul_comm, ← shifted, Nat.mul_comm]
  rcases Nat.even_or_odd' index with ⟨half, even | odd⟩
  · left
    have up : index ^^^ 1 = index + 1 := Nat.xor_one_of_even ⟨half, by omega⟩
    refine ⟨⟨half, by rw [same, even, pow_succ]; ring⟩, ?_⟩
    rw [flipped, up, same]
    ring
  · right
    have down : index ^^^ 1 = 2 * half := by
      rw [Nat.xor_one_of_odd ⟨half, odd⟩, odd, Nat.add_sub_cancel]
    refine ⟨⟨half, by rw [flipped, down, pow_succ]; ring⟩, ?_⟩
    rw [flipped, down, same, odd]
    ring

theorem Aligned.merged (aligned : block.Aligned) : block.merged.Aligned := by
  show 2 ^ (block.order + 1) ∣ min block.start block.buddy.start
  rcases aligned.buddy_cases with ⟨multiple, next⟩ | ⟨multiple, next⟩
  · rwa [Nat.min_eq_left (by omega)]
  · rwa [Nat.min_eq_right (by omega)]

theorem Aligned.span_merged (aligned : block.Aligned) :
    block.merged.span = block.span ∪ block.buddy.span := by
  have order : block.buddy.order = block.order := rfl
  ext number
  simp only [Extent.merged, span, Set.mem_union, Set.mem_Ico, order, pow_succ]
  rcases aligned.buddy_cases with ⟨_, next⟩ | ⟨_, next⟩ <;> omega

end Extent

structure Tiles (blocks : Set Extent) (area : Set Nat) : Prop where
  disjoint : blocks.PairwiseDisjoint Extent.span
  covers : ⋃ block ∈ blocks, block.span = area

namespace Tiles

variable {blocks : Set Extent} {area : Set Nat} {block : Extent}

theorem empty : Tiles ∅ ∅ :=
  ⟨Set.pairwiseDisjoint_empty, by simp⟩

section

variable (tiles : Tiles blocks area)
include tiles

theorem subset (member : block ∈ blocks) : block.span ⊆ area := by
  rw [← tiles.covers]
  exact Set.subset_biUnion_of_mem member

theorem eq_of_mem (one : block ∈ blocks) (two : other ∈ blocks) (first : number ∈ block.span)
    (second : number ∈ other.span) : block = other :=
  tiles.disjoint.elim_set one two number first second

theorem insert (apart : Disjoint block.span area) :
    Tiles (insert block blocks) (block.span ∪ area) where
  disjoint := by
    refine tiles.disjoint.insert fun other member _ => ?_
    exact apart.mono_right (tiles.subset member)
  covers := by rw [Set.biUnion_insert, tiles.covers]

theorem remove (member : block ∈ blocks) : Tiles (blocks \ {block}) (area \ block.span) where
  disjoint := tiles.disjoint.subset Set.sdiff_subset
  covers := by
    ext number
    simp only [Set.mem_iUnion, Set.mem_sdiff, Set.mem_singleton_iff, exists_prop]
    constructor
    · rintro ⟨other, ⟨inside, differs⟩, here⟩
      refine ⟨tiles.subset inside here, fun there => differs ?_⟩
      exact tiles.eq_of_mem inside member here there
    rintro ⟨here, away⟩
    rw [← tiles.covers] at here
    simp only [Set.mem_iUnion, exists_prop] at here
    obtain ⟨other, inside, here⟩ := here
    exact ⟨other, ⟨inside, fun same => away (same ▸ here)⟩, here⟩

end

theorem union (tiles : Tiles blocks area) (others : Tiles more rest) (apart : Disjoint area rest) :
    Tiles (blocks ∪ more) (area ∪ rest) where
  disjoint := by
    refine Set.pairwiseDisjoint_union.mpr ⟨tiles.disjoint, others.disjoint, ?_⟩
    exact fun one first two second _ => apart.mono (tiles.subset first) (others.subset second)
  covers := by rw [Set.biUnion_union, tiles.covers, others.covers]

end Tiles

end Bhaskix.Library
