import Mathlib

/-!
Doubly linked lists threaded through an array. The nodes are indices, and the links of every list
live in the same two arrays, so each rule also says which nodes it leaves alone.
-/

namespace Bhaskix.Library

open Function List

variable {α : Type} {next prev : α → Option α} {before head : Option α} {node : α}
  {front back list : List α}

/-- The nodes from `head` on are `list`, and each points back to the one before it. -/
def Linked (next prev : α → Option α) : Option α → Option α → List α → Prop
  | _, head, [] => head = none
  | before, head, node :: rest =>
    head = some node ∧ prev node = before ∧ Linked next prev (some node) (next node) rest

def relink [DecidableEq α] (links : α → Option α) : Option α → Option α → α → Option α
  | none, _ => links
  | some node, link => update links node link

theorem relink_of_ne [DecidableEq α] {other : α}
    (differs : at_ ≠ some other) : relink links at_ link other = links other := by
  cases at_ with
  | none => rfl
  | some node =>
    exact update_of_ne (fun same => differs (congrArg some same.symm)) ..

theorem Linked.congr (linked : Linked next prev before head list)
    (forth : ∀ node ∈ list, next' node = next node)
    (back : ∀ node ∈ list, prev' node = prev node) : Linked next' prev' before head list := by
  induction list generalizing before head with
  | nil => exact linked
  | cons first rest ih =>
    obtain ⟨here, points, tail⟩ := linked
    refine ⟨here, (back first mem_cons_self).trans points, ?_⟩
    rw [forth first mem_cons_self]
    exact ih tail (fun node member => forth node (mem_cons_of_mem _ member))
      (fun node member => back node (mem_cons_of_mem _ member))

theorem Linked.head_eq (linked : Linked next prev before head list) : head = list.head? := by
  cases list with
  | nil => exact linked
  | cons first rest => exact linked.1

theorem Linked.next_eq (linked : Linked next prev before head (front ++ node :: back)) :
    next node = back.head? := by
  induction front generalizing before head with
  | nil => exact linked.2.2.head_eq
  | cons first rest ih => exact ih linked.2.2

theorem Linked.prev_eq (linked : Linked next prev before head (front ++ node :: back)) :
    prev node = front.getLast?.or before := by
  induction front generalizing before head with
  | nil => exact linked.2.1
  | cons first rest ih =>
    rw [ih linked.2.2, List.getLast?_cons]
    cases rest.getLast? <;> rfl

section Changes

variable [DecidableEq α]

theorem Linked.rebase {first : Option α} (linked : Linked next prev first head list)
    (nodup : list.Nodup) (before : Option α) :
    Linked next (relink prev head before) before head list := by
  cases list with
  | nil => exact linked
  | cons node rest =>
    obtain ⟨rfl, _, tail⟩ := linked
    refine ⟨rfl, update_self .., tail.congr (fun _ _ => rfl) fun other member => ?_⟩
    refine relink_of_ne fun same => ?_
    exact (nodup_cons.mp nodup).1 (Option.some.inj same ▸ member)

theorem Linked.push (linked : Linked next prev none head list) (nodup : list.Nodup)
    (fresh : node ∉ list) :
    Linked (update next node head) (relink (update prev node none) head (some node))
      none (some node) (node :: list) := by
  have away {other : α} (member : other ∈ list) : other ≠ node := fun same => fresh (same ▸ member)
  have apart : head ≠ some node := by
    rw [linked.head_eq]
    exact fun same => fresh (mem_of_head? same)
  refine ⟨rfl, ?_, ?_⟩
  · rw [relink_of_ne apart, update_self]
  rw [update_self]
  have kept : Linked (update next node head) (update prev node none) none head
      list :=
    linked.congr (fun _ member => update_of_ne (away member) ..)
      (fun _ member => update_of_ne (away member) ..)
  exact kept.rebase nodup (some node)

theorem Linked.unlink (linked : Linked next prev before head (front ++ node :: back))
    (nodup : (front ++ node :: back).Nodup)
    (outside : ∀ other, before = some other → other ∉ front ++ node :: back) :
    Linked (relink next (prev node) (next node)) (relink prev (next node) (prev node)) before
      (if front = [] then next node else head) (front ++ back) := by
  have after := linked.next_eq
  have ahead := linked.prev_eq
  induction front generalizing before head with
  | nil =>
    obtain ⟨_, points, tail⟩ := linked
    have single := nodup_cons.mp nodup
    rw [if_pos rfl, points]
    refine (tail.rebase single.2 before).congr (fun other member => ?_) fun _ _ => rfl
    exact relink_of_ne fun same => outside other same (mem_cons_of_mem _ member)
  | cons first rest ih =>
    obtain ⟨here, points, tail⟩ := linked
    have single := nodup_cons.mp nodup
    have apart : first ∉ rest ++ node :: back := single.1
    rw [if_neg (cons_ne_nil first rest)]
    refine ⟨here, ?_, ?_⟩
    · rw [relink_of_ne, points]
      intro same
      rw [after] at same
      exact apart (mem_append_right _ (mem_cons_of_mem _ (mem_of_head? same)))
    have forward : relink next (prev node) (next node) first =
        if rest = [] then next node else next first := by
      by_cases last : rest = []
      · subst last
        rw [if_pos rfl, ahead]
        exact update_self ..
      rw [if_neg last, relink_of_ne]
      intro same
      have tailPrev := tail.prev_eq
      rw [same] at tailPrev
      cases found : rest.getLast? with
      | none => exact last (List.getLast?_eq_none_iff.mp found)
      | some final =>
        rw [found] at tailPrev
        have equal : first = final := Option.some.inj tailPrev
        exact apart (mem_append_left _ (equal ▸ mem_of_getLast? found))
    rw [forward]
    exact ih tail single.2 (fun other same member => apart (Option.some.inj same ▸ member))
      tail.prev_eq

theorem Linked.remove (linked : Linked next prev none head list) (nodup : list.Nodup)
    (member : node ∈ list) : Linked (update (relink next (prev node) (next node)) node none)
      (update (relink prev (next node) (prev node)) node none) none
      (if prev node = none then next node else head) (list.erase node) := by
  obtain ⟨front, back, rfl⟩ := append_of_mem member
  have early : node ∉ front := fun early =>
    (nodup_append.mp nodup).2.2 _ early _ mem_cons_self rfl
  have gone : (front ++ node :: back).erase node = front ++ back := by
    rw [erase_append_right _ early, erase_cons_head]
  have absent : node ∉ front ++ back := by
    rw [← gone, nodup.mem_erase_iff]
    exact fun here => here.1 rfl
  have start : (if prev node = none then next node else head) =
      if front = [] then next node else head := by
    rw [linked.prev_eq, Option.or_none]
    simp only [List.getLast?_eq_none_iff]
  rw [gone, start]
  have away {other : α} (inside : other ∈ front ++ back) : other ≠ node :=
    fun same => absent (same ▸ inside)
  exact (linked.unlink nodup nofun).congr (fun _ inside => update_of_ne (away inside) ..)
    (fun _ inside => update_of_ne (away inside) ..)

theorem Linked.other {links : α → Option α}
    (apart : node ∉ list) (far : ∀ other, at_ = some other → other ∉ list) :
    ∀ other ∈ list, update (relink links at_ link) node value other = links other := by
  intro other member
  have differs : other ≠ node := fun same => apart (same ▸ member)
  rw [update_of_ne differs, relink_of_ne]
  exact fun same => far other same member

end Changes

end Bhaskix.Library
