import Bhaskix.Cap.Arena
import Bhaskix.Library.Forest

namespace Bhaskix.Cap

open Library.Forest

/-! What a revocation destroys, as one set. The sweep kills entries one at a time
in an order the array decides; its effect is that of killing a set at once. -/

variable (node : CapNode) (tally : Tally) (counts : Nat → Nat)

def CapNode.buried : CapNode :=
  { node with live := false, generation := node.generation + 1 }

@[simp] theorem CapNode.buried_live : node.buried.live = false := rfl

@[simp] theorem CapNode.buried_generation : node.buried.generation = node.generation + 1 := rfl

@[simp] theorem CapNode.buried_parent : node.buried.parent = node.parent := rfl

def Tally.addAll : Tally :=
  fun owner => saturatingAdd (tally owner) (counts owner.val)

@[simp] theorem Tally.addAll_apply (owner : Fin maxOwners) :
    tally.addAll counts owner = saturatingAdd (tally owner) (counts owner.val) := rfl

theorem Tally.addAll_zero : (tally.addAll fun _ => 0) = tally := by
  funext owner
  simp

namespace Arena

def chargedTo (arena : Arena) (killed : Finset Index) (owner : Nat) :
    Finset Index :=
  killed.filter fun index => (arena.nodes index).owner = owner

def killAll (arena : Arena) (killed : Finset Index) : Arena where
  nodes := fun index =>
    if index ∈ killed then (arena.nodes index).buried else arena.nodes index
  live := arena.live - killed.card
  tally := arena.tally.map fun tally =>
    tally.addAll fun owner => (arena.chargedTo killed owner).card
  serials := arena.serials

variable {arena : Arena} {killed : Finset Index} {index root : Index}

theorem killAll_nodes_mem (dead : index ∈ killed) :
    (arena.killAll killed).nodes index = (arena.nodes index).buried := by
  simp [killAll, dead]

theorem killAll_nodes_not_mem
    (spared : index ∉ killed) : (arena.killAll killed).nodes index = arena.nodes index := by
  simp [killAll, spared]

@[simp] theorem killAll_parent (arena : Arena)
    (killed : Finset Index) (index : Index) :
    ((arena.killAll killed).nodes index).parent = (arena.nodes index).parent := by
  by_cases dead : index ∈ killed
  · rw [killAll_nodes_mem dead, CapNode.buried_parent]
  · rw [killAll_nodes_not_mem dead]

theorem killAll_live_iff (arena : Arena) (killed : Finset Index)
    (index : Index) : ((arena.killAll killed).nodes index).live = true ↔
      (arena.nodes index).live = true ∧ index ∉ killed := by
  by_cases dead : index ∈ killed
  · simp [killAll_nodes_mem dead, dead]
  · simp [killAll_nodes_not_mem dead, dead]

theorem killAll_empty (arena : Arena) : arena.killAll ∅ = arena := by
  obtain ⟨nodes, live, tally, serials⟩ := arena
  cases tally with
  | none => simp [killAll]
  | some tally => simp [killAll, chargedTo, Tally.addAll_zero]

theorem chargedTo_insert (arena : Arena) (spared : index ∉ killed) (owner : Nat) :
    (arena.chargedTo (insert index killed) owner).card = (arena.chargedTo killed owner).card +
        if (arena.nodes index).owner = owner then 1 else 0 := by
  unfold chargedTo
  rw [Finset.filter_insert]
  split
  · rw [Finset.card_insert_of_notMem]
    simp [spared]
  · rfl

theorem tally_addAll_insert (arena : Arena) (tally : Tally) (spared : index ∉ killed) :
    (tally.addAll fun owner => (arena.chargedTo (insert index killed) owner).card) =
      (tally.addAll fun owner => (arena.chargedTo killed owner).card).add
        (arena.nodes index).owner := by
  funext owner
  simp only [Tally.addAll_apply, chargedTo_insert arena spared]
  by_cases same : (arena.nodes index).owner = owner.val
  · simp [Tally.add, same, saturatingAdd_saturatingAdd]
  by_cases inside : (arena.nodes index).owner < maxOwners
  · have differs : owner ≠ ⟨(arena.nodes index).owner, inside⟩ := by
      intro equal
      exact same (congrArg Fin.val equal).symm
    simp [Tally.add, inside, same, differs]
  · simp [Tally.add, inside, same]

theorem kill_killAll (arena : Arena) (spared : index ∉ killed)
    (isLive : (arena.nodes index).live = true) :
    (arena.killAll killed).kill index = arena.killAll (insert index killed) := by
  have node : (arena.killAll killed).nodes index = arena.nodes index :=
    killAll_nodes_not_mem spared
  have nodesEq : Function.update (arena.killAll killed).nodes index
      { arena.nodes index with
        live := false, generation := (arena.nodes index).generation + 1 } =
      (arena.killAll (insert index killed)).nodes := by
    funext other
    by_cases same : other = index
    · subst other
      simp [killAll, CapNode.buried]
    · simp [killAll, same]
  have liveEq : (arena.killAll killed).live - 1 = (arena.killAll (insert index killed)).live := by
    simp only [killAll, Finset.card_insert_of_notMem spared]
    omega
  have tallyEq : (arena.killAll killed).tally.map
      (fun tally => tally.add (arena.nodes index).owner) =
      (arena.killAll (insert index killed)).tally := by
    cases collected : arena.tally with
    | none => simp [killAll, collected]
    | some tally => simp [killAll, collected, tally_addAll_insert arena tally spared]
  simp only [kill, node, isLive, Bool.not_true, Bool.false_eq_true, ↓reduceIte,
    nodesEq, liveEq, tallyEq]
  rfl

def parentOf (arena : Arena) (index : Index) : Option Index :=
  (arena.nodes index).parent

def Alive (arena : Arena) (index : Index) : Prop :=
  (arena.nodes index).live = true

/-- `Derived arena root index`: the entry is the root, or a live node derived
through live nodes from it. -/
def Derived (arena : Arena) (root index : Index) : Prop :=
  Below arena.parentOf arena.Alive root index

def ParentsLive (arena : Arena) : Prop :=
  Closed arena.parentOf arena.Alive

/-- A set a sweep below `root` may have killed: the root, and live nodes
derived from it. -/
structure Marked (arena : Arena) (root : Index)
    (killed : Finset Index) : Prop where
  root_mem : root ∈ killed
  live : ∀ index ∈ killed, (arena.nodes index).live = true
  derived : ∀ index ∈ killed, arena.Derived root index

theorem orphaned_killAll_iff (closed : arena.ParentsLive)
    (killed : Finset Index) (index : Index) :
    (arena.killAll killed).orphaned index = true ↔
      (arena.nodes index).live = true ∧ index ∉ killed ∧
        ∃ parent, (arena.nodes index).parent = some parent ∧ parent ∈ killed := by
  simp only [orphaned, Bool.and_eq_true, killAll_live_iff, killAll_parent]
  constructor
  · rintro ⟨⟨isLive, spared⟩, orphan⟩
    cases link : (arena.nodes index).parent with
    | none => simp [link] at orphan
    | some parent =>
      have parentLive := closed index parent isLive link
      refine ⟨isLive, spared, parent, rfl, ?_⟩
      by_contra parentSpared
      have survives := (killAll_live_iff arena killed parent).mpr ⟨parentLive, parentSpared⟩
      simp [link, survives] at orphan
  · rintro ⟨isLive, spared, parent, link, parentKilled⟩
    refine ⟨⟨isLive, spared⟩, ?_⟩
    simp [link, killAll_nodes_mem parentKilled]

theorem foldl_sweepEntry (closed : arena.ParentsLive)
    (root : Index) (entries : List Index) :
    ∀ (count : Nat) (killed : Finset Index), arena.Marked root killed →
      ∃ more, killed ⊆ more ∧ arena.Marked root more ∧
        entries.foldl sweepEntry (count, arena.killAll killed) =
          (count + (more.card - killed.card), arena.killAll more) ∧
        (more = killed → ∀ index ∈ entries, (arena.killAll killed).orphaned index = false) := by
  induction entries with
  | nil =>
    intro count killed marked
    exact ⟨killed, Finset.Subset.refl _, marked, by simp, by simp⟩
  | cons index rest induction =>
    intro count killed marked
    rw [List.foldl_cons, sweepEntry_eq]
    by_cases orphan : (arena.killAll killed).orphaned index = true
    · obtain ⟨isLive, spared, parent, link, parentKilled⟩ :=
        (orphaned_killAll_iff closed killed index).mp orphan
      have markedMore : arena.Marked root (insert index killed) := by
        constructor
        · exact Finset.mem_insert_of_mem marked.root_mem
        · intro other member
          rcases Finset.mem_insert.mp member with rfl | earlier
          · exact isLive
          · exact marked.live other earlier
        · intro other member
          rcases Finset.mem_insert.mp member with rfl | earlier
          · exact .child isLive link (marked.derived parent parentKilled)
          · exact marked.derived other earlier
      obtain ⟨more, subset, markedFinal, result, -⟩ :=
        induction (count + 1) (insert index killed) markedMore
      have grows : killed.card + 1 ≤ more.card := by
        rw [← Finset.card_insert_of_notMem spared]
        exact Finset.card_le_card subset
      refine ⟨more, (Finset.subset_insert _ _).trans subset, markedFinal, ?_, ?_⟩
      · rw [if_pos orphan, kill_killAll arena spared isLive, result,
          Finset.card_insert_of_notMem spared]
        congr 1
        omega
      · intro equal
        subst more
        omega
    · obtain ⟨more, subset, markedFinal, result, stable⟩ :=
        induction count killed marked
      refine ⟨more, subset, markedFinal, ?_, ?_⟩
      · rw [if_neg orphan, result]
      intro equal other member
      rcases List.mem_cons.mp member with rfl | later
      · simpa using orphan
      · exact stable equal other later

theorem sweepUntilStable_killAll (closed : arena.ParentsLive)
    (root : Index) (killed : Finset Index)
    (destroyed : Nat) (marked : arena.Marked root killed) :
    ∃ more, killed ⊆ more ∧ arena.Marked root more ∧
      (arena.killAll killed).sweepUntilStable destroyed =
        (destroyed + (more.card - killed.card), arena.killAll more) ∧
      ∀ index, (arena.killAll more).orphaned index = false := by
  induction measure : (arena.killAll killed).liveNodes.card using
      Nat.strong_induction_on generalizing killed destroyed with
  | _ left induction =>
    obtain ⟨swept, subset, markedSwept, result, stable⟩ :=
      foldl_sweepEntry closed root (List.finRange maxCapabilities) 0 killed marked
    have sweepEq : (arena.killAll killed).sweep =
        (swept.card - killed.card, arena.killAll swept) := by
      rw [sweep, result, Nat.zero_add]
    have balance := sweep_card (arena.killAll killed)
    rw [sweepEq, measure] at balance
    rw [sweepUntilStable, sweepEq]
    by_cases quiet : swept.card - killed.card = 0
    · have same : swept = killed :=
        (Finset.eq_of_subset_of_card_le subset (by omega)).symm
      refine ⟨killed, Finset.Subset.refl _, marked, ?_, ?_⟩
      · simp [same]
      · intro index
        exact stable same index (List.mem_finRange index)
    have fewer : (arena.killAll swept).liveNodes.card < left := by
      dsimp only at balance
      omega
    obtain ⟨more, further, markedMore, final, calm⟩ :=
      induction _ fewer swept (destroyed + (swept.card - killed.card)) markedSwept rfl
    have first := Finset.card_le_card subset
    have second := Finset.card_le_card further
    refine ⟨more, subset.trans further, markedMore, ?_, calm⟩
    simp only [quiet, ↓reduceIte, final]
    congr 1
    omega

open Classical in
noncomputable def subtree (arena : Arena) (root : Index) :
    Finset Index :=
  Finset.univ.filter fun index => arena.Derived root index

@[simp] theorem mem_subtree : index ∈ arena.subtree root ↔ arena.Derived root index := by
  simp [subtree]

theorem destroySubtree_eq (closed : arena.ParentsLive) (rootLive : (arena.nodes root).live = true) :
    arena.destroySubtree root =
      ((arena.subtree root).card, arena.killAll (arena.subtree root)) := by
  have markedRoot : arena.Marked root {root} := by
    refine ⟨by simp, ?_, ?_⟩
    · simpa using rootLive
    intro index member
    rw [Finset.mem_singleton.mp member]
    exact .root
  have first : arena.kill root = arena.killAll {root} := by
    have step := kill_killAll arena (Finset.notMem_empty root) rootLive
    simpa [killAll_empty] using step
  obtain ⟨killed, -, marked, result, stable⟩ :=
    sweepUntilStable_killAll closed root {root} 1 markedRoot
  have exact : killed = arena.subtree root := by
    ext index
    rw [mem_subtree]
    apply mem_killed_iff_below (fun index => index ∈ killed) marked.root_mem marked.derived
    intro node above isLive spared link aboveKilled
    have orphan := (orphaned_killAll_iff closed killed node).mpr
      ⟨isLive, spared, above, link, aboveKilled⟩
    simp [stable node] at orphan
  have positive : 0 < killed.card := Finset.card_pos.mpr ⟨root, marked.root_mem⟩
  rw [destroySubtree, first, result, ← exact]
  congr 1
  simp
  omega

end Arena

end Bhaskix.Cap
