import Mathlib

/-!
Chains of steps that know their place, binary hash trees with the paths that lead from a leaf to
the root, and loops that put blocks of one size after one another.
-/

namespace Bhaskix.Library

variable {α σ : Type}

def chainFrom (step : Nat → α → α) : Nat → Nat → α → α
  | _, 0, value => value
  | start, steps + 1, value => chainFrom step (start + 1) steps (step start value)

theorem chainFrom_add (step : Nat → α → α) (start first second : Nat) (value : α) :
    chainFrom step (start + first) second (chainFrom step start first value) =
      chainFrom step start (first + second) value := by
  induction first generalizing start value with
  | zero => rw [Nat.zero_add]; rfl
  | succ first ih =>
    rw [Nat.succ_add, chainFrom, chainFrom, ← ih]
    congr 1
    omega

namespace Merkle

variable (leaf : Nat → α) (join : Nat → Nat → α → α → α)

def node : Nat → Nat → α
  | 0, index => leaf index
  | height + 1, index =>
    join (height + 1) index (node height (2 * index)) (node height (2 * index + 1))

/-- One step up from the node of height `level` on the way from the leaf `index`. -/
def up (index : Nat) (siblings : Nat → α) (value : α) (level : Nat) : α :=
  if (index >>> level) % 2 = 0 then join (level + 1) (index >>> (level + 1)) value (siblings level)
  else join (level + 1) (index >>> (level + 1)) (siblings level) value

theorem shiftRight_succ_eq (index level : Nat) : index >>> (level + 1) = (index >>> level) / 2 := by
  rw [Nat.shiftRight_succ]

theorem foldl_up (height : Nat)
    (path : ∀ level < height, siblings level = node leaf join level ((index >>> level) ^^^ 1)) :
    (List.range height).foldl (up join index siblings) (leaf index) =
      node leaf join height (index >>> height) := by
  induction height with
  | zero => rfl
  | succ height ih =>
    rw [List.range_succ, List.foldl_concat, ih fun level below => path level (by omega), up,
      path height (Nat.lt_succ_self height), node, shiftRight_succ_eq]
    split
    case isTrue even =>
      have left : 2 * ((index >>> height) / 2) = index >>> height := by omega
      have right : (index >>> height) ^^^ 1 = index >>> height + 1 := by
        rw [Nat.xor_one_of_even (Nat.even_iff.mpr even)]
      rw [left, right]
    case isFalse odd =>
      have right : 2 * ((index >>> height) / 2) + 1 = index >>> height := by omega
      have left : (index >>> height) ^^^ 1 = 2 * ((index >>> height) / 2) := by
        rw [Nat.xor_one_of_odd (Nat.odd_iff.mpr (by omega))]
        omega
      rw [left, right]

end Merkle

def collect (body : Nat → σ → List α × σ) : Nat → σ → List α × σ
  | 0, state => ([], state)
  | count + 1, state =>
    let (done, state) := collect body count state
    let (next, state) := body count state
    (done ++ next, state)

theorem collect_succ (body : Nat → σ → List α × σ) (count : Nat) (state : σ) :
    (collect body (count + 1) state).2 = (body count (collect body count state).2).2 :=
  rfl

theorem collect_eq {body : Nat → σ → List α × σ} {holds : σ → Prop} {block : Nat → List α}
    {state : σ} (start : holds state) (count : Nat)
    (each : ∀ index < count, ∀ {state}, holds state →
      (body index state).1 = block index ∧ holds (body index state).2) :
    (collect body count state).1 = (List.range count).flatMap block ∧
      holds (collect body count state).2 := by
  induction count with
  | zero => exact ⟨rfl, start⟩
  | succ count ih =>
    obtain ⟨done, held⟩ := ih fun index below => each index (by omega)
    obtain ⟨next, after⟩ := each count (Nat.lt_succ_self count) held
    rw [List.range_succ, List.flatMap_append, List.flatMap_singleton]
    exact ⟨congrArg₂ _ done next, after⟩

theorem length_flatMap_blocks {block : Nat → List α}
    (sized : ∀ index, (block index).length = width) (count : Nat) :
    ((List.range count).flatMap block).length = count * width := by
  induction count with
  | zero => simp
  | succ count ih =>
    rw [List.range_succ, List.flatMap_append, List.length_append, ih, List.flatMap_singleton,
      sized, Nat.succ_mul]

def slice (values : List α) (start stop : Nat) : List α := (values.drop start).take (stop - start)

theorem slice_append_left {left : List α} (inside : stop ≤ left.length) :
    slice (left ++ right) start stop = slice left start stop := by
  rw [slice, slice, List.drop_append, List.take_append_of_le_length]
  rw [List.length_drop]
  omega

theorem slice_append_right {left : List α} (after : left.length ≤ start) :
    slice (left ++ right) start stop = slice right (start - left.length) (stop - left.length) := by
  rw [slice, slice, List.drop_append, List.drop_eq_nil_of_le after, List.nil_append]
  congr 1
  omega

theorem slice_all (values : List α) : slice values 0 values.length = values := by
  rw [slice, List.drop_zero, Nat.sub_zero, List.take_length]

theorem slice_at {before part : List α} (place : before.length = start)
    (sized : stop - start = part.length) : slice (before ++ (part ++ after)) start stop = part := by
  rw [slice_append_right place.le, place, Nat.sub_self, sized, slice_append_left (Nat.le_refl _),
    slice_all]

theorem slice_flatMap {block : Nat → List α}
    (sized : ∀ index, (block index).length = width) (inside : index < count) :
    slice ((List.range count).flatMap block) (index * width) ((index + 1) * width) =
      block index := by
  induction count with
  | zero => omega
  | succ count ih =>
    have before := length_flatMap_blocks sized count
    rw [List.range_succ, List.flatMap_append, List.flatMap_singleton]
    by_cases last : index = count
    · subst last
      rw [slice_append_right (Nat.le_of_eq before), before, Nat.sub_self, Nat.succ_mul,
        Nat.add_sub_cancel_left, ← sized index, slice_all]
    · rw [slice_append_left, ih (by omega)]
      rw [before]
      exact Nat.mul_le_mul_right width (by omega)

section

variable {body : Nat → σ → List α × σ} {width : Nat}

theorem collect_flatMap (body : Nat → σ → List α × σ) (count : Nat) (state : σ) :
    (collect body count state).1 =
      (List.range count).flatMap fun index => (body index (collect body index state).2).1 := by
  induction count with
  | zero => rfl
  | succ count ih => simp [collect, List.range_succ, ih]

end

end Bhaskix.Library
