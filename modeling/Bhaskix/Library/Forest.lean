import Mathlib

namespace Bhaskix.Library.Forest

/-! Forests given by parent links. A node records its parent and nothing records
its children, so everything here is read upwards along the links. -/

variable {ι : Type}

/-- `Below parent alive root node`: the node is the root, or an alive node
whose parent is below the root. -/
inductive Below (parent : ι → Option ι) (alive : ι → Prop) (root : ι) : ι → Prop
  | root : Below parent alive root root
  | child {node above : ι} (isAlive : alive node)
      (link : parent node = some above)
      (rest : Below parent alive root above) :
      Below parent alive root node

def climb (parent : ι → Option ι) : Nat → ι → Option ι
  | 0, node => some node
  | steps + 1, node => (parent node).bind (climb parent steps)

def Closed (parent : ι → Option ι) (alive : ι → Prop) : Prop :=
  ∀ node above, alive node → parent node = some above → alive above

theorem Below.alive {alive : ι → Prop} {root : ι} (rootAlive : alive root)
    (below : Below parent alive root node) : alive node := by
  cases below with
  | root => exact rootAlive
  | child isAlive _ _ => exact isAlive

theorem climb_reaches_root {alive : ι → Prop} (rank : ι → Nat) (closed : Closed parent alive)
    (lowers : ∀ node above, alive node → parent node = some above → rank above < rank node)
    (isAlive : alive node) :
    ∃ steps root, climb parent steps node = some root ∧ alive root ∧ parent root = none := by
  induction bound : rank node using Nat.strong_induction_on generalizing node with
  | _ value induction =>
    cases link : parent node with
    | none => exact ⟨0, node, rfl, isAlive, link⟩
    | some above =>
      have lower : rank above < value := bound ▸ lowers node above isAlive link
      obtain ⟨steps, root, reached, rootAlive, isRoot⟩ :=
        induction (rank above) lower (closed node above isAlive link) rfl
      refine ⟨steps + 1, root, ?_, rootAlive, isRoot⟩
      simpa [climb, link] using reached

theorem mem_killed_iff_below {alive : ι → Prop} (killed : ι → Prop) (rootKilled : killed root)
    (onlyBelow : ∀ node, killed node → Below parent alive root node)
    (survivors : ∀ node above, alive node → ¬ killed node →
      parent node = some above → ¬ killed above)
    (node : ι) : killed node ↔ Below parent alive root node := by
  constructor
  · exact onlyBelow node
  intro below
  induction below with
  | root => exact rootKilled
  | child isAlive link _ induction =>
    by_contra survives
    exact survivors _ _ isAlive survives link induction

end Bhaskix.Library.Forest
