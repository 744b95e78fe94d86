import Bhaskix.Mm.Pmm

/-!
The free lists. Every block that is free is on the list of its zone and order and nowhere else,
and putting one on a list or taking one off keeps that so.
-/

namespace Bhaskix.Mm

open Library Function

namespace Pmm

variable {pmm after : Pmm} {pfn order : Nat} {zone : Zone} {β : Type}

def next (pmm : Pmm) : Nat → Option Nat :=
  Frame.next ∘ pmm.frames

def prev (pmm : Pmm) : Nat → Option Nat :=
  Frame.prev ∘ pmm.frames

def mark (frame : Frame) : FrameState × Nat × Bool :=
  (frame.state, frame.order, frame.isHead)

variable (view : Frame → β)

theorem comp_setFrame (pmm : Pmm) (pfn : Nat) (change : Frame → Frame) :
    view ∘ (pmm.setFrame pfn change).frames =
      update (view ∘ pmm.frames) pfn (view (change (pmm.frames pfn))) :=
  Function.comp_update ..

theorem comp_setPrev (same : ∀ frame link, view { frame with prev := link } = view frame)
    (pmm : Pmm) (at_ link : Option Nat) :
    view ∘ (pmm.setPrev at_ link).frames = view ∘ pmm.frames := by
  cases at_ with
  | none => rfl
  | some pfn => exact (comp_setFrame ..).trans (by rw [same]; exact update_eq_self ..)

theorem comp_skip (same : ∀ frame link, view { frame with next := link } = view frame)
    (pmm : Pmm) (pfn order : Nat) : view ∘ (pmm.skip pfn order).frames = view ∘ pmm.frames := by
  unfold skip
  cases (pmm.frames pfn).prev with
  | none => rfl
  | some before => exact (comp_setFrame ..).trans (by rw [same]; exact update_eq_self ..)

theorem prev_setPrev (pmm : Pmm) (at_ link : Option Nat) :
    (pmm.setPrev at_ link).prev = relink pmm.prev at_ link := by
  cases at_ with
  | none => rfl
  | some pfn => exact comp_setFrame ..

theorem next_skip (pmm : Pmm) (pfn order : Nat) :
    (pmm.skip pfn order).next = relink pmm.next (pmm.prev pfn) (pmm.next pfn) := by
  have link : (pmm.frames pfn).prev = pmm.prev pfn := rfl
  rw [skip, link]
  cases pmm.prev pfn with
  | none => rfl
  | some before => exact comp_setFrame ..

@[simp] theorem zones_setFrame (pmm : Pmm) (pfn : Nat) (change : Frame → Frame) :
    (pmm.setFrame pfn change).zones = pmm.zones := rfl

@[simp] theorem zones_setPrev (pmm : Pmm) (at_ link : Option Nat) :
    (pmm.setPrev at_ link).zones = pmm.zones := by
  cases at_ <;> rfl

@[simp] theorem frames_setZone (pmm : Pmm) (zone : Zone) (change : ZoneState → ZoneState) :
    (pmm.setZone zone change).frames = pmm.frames := rfl

@[simp] theorem count_setFrame (pmm : Pmm) (pfn : Nat) (change : Frame → Frame) :
    (pmm.setFrame pfn change).count = pmm.count := rfl

@[simp] theorem count_setZone (pmm : Pmm) (zone : Zone) (change : ZoneState → ZoneState) :
    (pmm.setZone zone change).count = pmm.count := rfl

@[simp] theorem count_setPrev (pmm : Pmm) (at_ link : Option Nat) :
    (pmm.setPrev at_ link).count = pmm.count := by
  cases at_ <;> rfl

section

variable (pmm pfn order)

@[simp] theorem count_skip :
    (pmm.skip pfn order).count = pmm.count := by
  unfold skip
  cases (pmm.frames pfn).prev <;> rfl

theorem next_pushBlock : (pmm.pushBlock pfn order).next =
      update pmm.next pfn ((pmm.zones (zoneOf pfn)).freeLists order) := by
  rw [next, pushBlock, frames_setZone, comp_setPrev Frame.next (fun _ _ => rfl), comp_setFrame]
  rfl

theorem prev_pushBlock : (pmm.pushBlock pfn order).prev =
      relink (update pmm.prev pfn none) ((pmm.zones (zoneOf pfn)).freeLists order) (some pfn) := by
  rw [prev, pushBlock, frames_setZone]
  refine (prev_setPrev ..).trans ?_
  rw [prev, comp_setFrame]
  rfl

theorem mark_pushBlock : mark ∘ (pmm.pushBlock pfn order).frames =
      update (mark ∘ pmm.frames) pfn (.free, order, true) := by
  rw [pushBlock, frames_setZone, comp_setPrev mark (fun _ _ => rfl), comp_setFrame]
  rfl

theorem zones_pushBlock :
    (pmm.pushBlock pfn order).zones = update pmm.zones (zoneOf pfn)
      { pmm.zones (zoneOf pfn) with
        freeLists := update (pmm.zones (zoneOf pfn)).freeLists order (some pfn)
        freeFrames := (pmm.zones (zoneOf pfn)).freeFrames + 2 ^ order } := by
  simp only [pushBlock, setZone, zones_setPrev, zones_setFrame]

theorem freeLists_pushBlock (zone : Zone) (size : Nat) :
    ((pmm.pushBlock pfn order).zones zone).freeLists size =
      if (zone, size) = (zoneOf pfn, order) then some pfn else (pmm.zones zone).freeLists size := by
  rw [zones_pushBlock]
  by_cases here : zone = zoneOf pfn
  · subst here
    by_cases same : size = order
    · simp [same]
    · simp [same]
  · simp [here]

theorem freeFrames_pushBlock (zone : Zone) :
    ((pmm.pushBlock pfn order).zones zone).freeFrames =
      if zone = zoneOf pfn then (pmm.zones zone).freeFrames + 2 ^ order
      else (pmm.zones zone).freeFrames := by
  rw [zones_pushBlock]
  by_cases here : zone = zoneOf pfn
  · simp [here]
  · simp [here]

@[simp] theorem count_pushBlock :
    (pmm.pushBlock pfn order).count = pmm.count := by
  simp only [pushBlock, count_setZone, count_setPrev, count_setFrame]

theorem next_removeBlock : (pmm.removeBlock pfn order).next =
      update (relink pmm.next (pmm.prev pfn) (pmm.next pfn)) pfn none := by
  rw [next, removeBlock, frames_setZone, comp_setFrame, comp_setPrev Frame.next (fun _ _ => rfl)]
  exact congrArg (update · pfn none) (next_skip ..)

theorem prev_removeBlock : (pmm.removeBlock pfn order).prev =
      update (relink pmm.prev (pmm.next pfn) (pmm.prev pfn)) pfn none := by
  rw [prev, removeBlock, frames_setZone, comp_setFrame]
  refine congrArg (update · pfn none) ((prev_setPrev ..).trans ?_)
  exact congrArg (relink · _ _) (comp_skip Frame.prev (fun _ _ => rfl) ..)

theorem mark_removeBlock : mark ∘ (pmm.removeBlock pfn order).frames =
      update (mark ∘ pmm.frames) pfn ((pmm.frames pfn).state, (pmm.frames pfn).order, false) := by
  have kept : mark ∘ ((pmm.skip pfn order).setPrev (pmm.frames pfn).next
      (pmm.frames pfn).prev).frames = mark ∘ pmm.frames := by
    rw [comp_setPrev mark (fun _ _ => rfl), comp_skip mark (fun _ _ => rfl)]
  have here := Prod.mk.inj (congrFun kept pfn)
  rw [removeBlock, frames_setZone, comp_setFrame, kept]
  exact congrArg (update _ pfn) (Prod.ext here.1 (Prod.ext (Prod.mk.inj here.2).1 rfl))

theorem zones_removeBlock :
    (pmm.removeBlock pfn order).zones = update pmm.zones (zoneOf pfn)
      { pmm.zones (zoneOf pfn) with
        freeLists :=
          if pmm.prev pfn = none then
            update (pmm.zones (zoneOf pfn)).freeLists order (pmm.next pfn)
          else (pmm.zones (zoneOf pfn)).freeLists
        freeFrames := (pmm.zones (zoneOf pfn)).freeFrames - 2 ^ order } := by
  have link : (pmm.frames pfn).prev = pmm.prev pfn := rfl
  have onward : (pmm.frames pfn).next = pmm.next pfn := rfl
  simp only [removeBlock, setZone, zones_setFrame, zones_setPrev, skip, link, onward]
  cases pmm.prev pfn with
  | none => simp
  | some before => simp [setNext]

theorem freeLists_removeBlock (zone : Zone) (size : Nat) :
    ((pmm.removeBlock pfn order).zones zone).freeLists size =
      if (zone, size) = (zoneOf pfn, order) then
        if pmm.prev pfn = none then pmm.next pfn else (pmm.zones zone).freeLists size
      else (pmm.zones zone).freeLists size := by
  rw [zones_removeBlock]
  by_cases here : zone = zoneOf pfn
  · subst here
    by_cases same : size = order
    · subst same
      simp only [update_self, if_true]
      split <;> simp
    · simp only [update_self, Prod.mk.injEq, same, and_false, if_false]
      split <;> simp [same]
  · simp [here]

theorem freeFrames_removeBlock (zone : Zone) :
    ((pmm.removeBlock pfn order).zones zone).freeFrames =
      if zone = zoneOf pfn then (pmm.zones zone).freeFrames - 2 ^ order
      else (pmm.zones zone).freeFrames := by
  rw [zones_removeBlock]
  by_cases here : zone = zoneOf pfn
  · simp [here]
  · simp [here]

@[simp] theorem count_removeBlock :
    (pmm.removeBlock pfn order).count = pmm.count := by
  simp only [removeBlock, count_setZone, count_setPrev, count_setFrame, count_skip]

end

def Heads (pmm : Pmm) (pfn order : Nat) : Prop :=
  (pmm.frames pfn).isHead = true ∧ (pmm.frames pfn).order = order

variable {value : FrameState × Nat × Bool} {list : Zone × Nat}

section

variable (marks : mark ∘ after.frames = update (mark ∘ pmm.frames) pfn value)
include marks

theorem mark_away (differs : other ≠ pfn) : mark (after.frames other) = mark (pmm.frames other) :=
  (congrFun marks other).trans (update_of_ne differs ..)

theorem mark_here : mark (after.frames pfn) = value :=
  (congrFun marks pfn).trans (update_self ..)

end

theorem heads_of_mark (same : mark (after.frames pfn) = mark (pmm.frames pfn)) :
    after.Heads pfn order ↔ pmm.Heads pfn order := by
  obtain ⟨_, rest⟩ := Prod.mk.inj same
  obtain ⟨orders, heads⟩ := Prod.mk.inj rest
  rw [Heads, Heads, orders, heads]

theorem state_pushBlock (pmm : Pmm) (order : Nat) (differs : other ≠ pfn) :
    ((pmm.pushBlock pfn order).frames other).state = (pmm.frames other).state :=
  (Prod.mk.inj (mark_away (mark_pushBlock pmm pfn order) differs)).1

theorem state_removeBlock (pmm : Pmm) (pfn order other : Nat) :
    ((pmm.removeBlock pfn order).frames other).state = (pmm.frames other).state := by
  by_cases same : other = pfn
  · rw [same]
    exact (Prod.mk.inj (mark_here (mark_removeBlock pmm pfn order))).1
  · exact (Prod.mk.inj (mark_away (mark_removeBlock pmm pfn order) same)).1

theorem heads_pushBlock : (pmm.pushBlock pfn order).Heads start size ↔
      start = pfn ∧ size = order ∨ start ≠ pfn ∧ pmm.Heads start size := by
  by_cases same : start = pfn
  · subst same
    obtain ⟨_, rest⟩ := Prod.mk.inj (mark_here (mark_pushBlock pmm start order))
    obtain ⟨orders, heads⟩ := Prod.mk.inj rest
    rw [Heads, orders, heads]
    simp [eq_comm]
  · rw [heads_of_mark (mark_away (mark_pushBlock pmm pfn order) same)]
    simp [same]

theorem heads_removeBlock :
    (pmm.removeBlock pfn order).Heads start size ↔ start ≠ pfn ∧ pmm.Heads start size := by
  by_cases same : start = pfn
  · subst same
    obtain ⟨_, rest⟩ := Prod.mk.inj (mark_here (mark_removeBlock pmm start order))
    rw [Heads, (Prod.mk.inj rest).2]
    simp
  · rw [heads_of_mark (mark_away (mark_removeBlock pmm pfn order) same)]
    simp [same]

structure Threaded (pmm : Pmm) (lists : Zone × Nat → List Nat) : Prop where
  linked (zone : Zone) (order : Nat) :
    Linked pmm.next pmm.prev none ((pmm.zones zone).freeLists order) (lists (zone, order))
  nodup (list : Zone × Nat) : (lists list).Nodup
  member {zone : Zone} {order pfn : Nat} :
    pfn ∈ lists (zone, order) ↔ zoneOf pfn = zone ∧ pmm.Heads pfn order
  free {order pfn : Nat} : pmm.Heads pfn order → (pmm.frames pfn).state = .free
  small {order pfn : Nat} : pmm.Heads pfn order → order ≤ maxOrder
  counted (zone : Zone) : (pmm.zones zone).freeFrames =
    ∑ order ∈ Finset.range orderCount, (lists (zone, order)).length * 2 ^ order

theorem Threaded.apart (threaded : pmm.Threaded lists)
    (member : pfn ∈ lists list) (heads : pmm.Heads pfn order) : list = (zoneOf pfn, order) := by
  obtain ⟨zone, size⟩ := list
  obtain ⟨rfl, _, rfl⟩ := threaded.member.mp member
  rw [heads.2]

theorem Threaded.head_apart (threaded : pmm.Threaded lists) {other : Zone × Nat}
    {head node : Nat} (first : head ∈ lists list) (inside : node ∈ lists other)
    (differ : other ≠ list) : node ≠ head := by
  rintro rfl
  obtain ⟨zone, size⟩ := list
  obtain ⟨rfl, heads⟩ := threaded.member.mp first
  exact differ (threaded.apart inside heads)

theorem sum_update (lists : Zone × Nat → List Nat) (list : List Nat) (zone : Zone)
    (small : order ≤ maxOrder) : (∑ size ∈ Finset.range orderCount,
        (update lists (zone, order) list (zone, size)).length * 2 ^ size) +
        (lists (zone, order)).length * 2 ^ order =
      (∑ size ∈ Finset.range orderCount, (lists (zone, size)).length * 2 ^ size) +
        list.length * 2 ^ order := by
  have inside : order ∈ Finset.range orderCount := Finset.mem_range.mpr (Nat.lt_succ_of_le small)
  rw [← Finset.add_sum_erase _ _ inside, ← Finset.add_sum_erase _ (fun size =>
    (lists (zone, size)).length * 2 ^ size) inside, update_self]
  have rest : ∑ size ∈ (Finset.range orderCount).erase order,
      (update lists (zone, order) list (zone, size)).length * 2 ^ size =
      ∑ size ∈ (Finset.range orderCount).erase order, (lists (zone, size)).length * 2 ^ size := by
    refine Finset.sum_congr rfl fun size member => ?_
    rw [update_of_ne]
    intro same
    exact Finset.ne_of_mem_erase member (Prod.mk.inj same).2
  rw [rest]
  omega

theorem sum_update_other (lists : Zone × Nat → List Nat) (list : List Nat) {other : Zone}
    (order : Nat) (differ : other ≠ zone) : ∑ size ∈ Finset.range orderCount,
        (update lists (zone, order) list (other, size)).length * 2 ^ size =
      ∑ size ∈ Finset.range orderCount, (lists (other, size)).length * 2 ^ size := by
  refine Finset.sum_congr rfl fun size _ => ?_
  rw [update_of_ne]
  exact fun same => differ (Prod.mk.inj same).1

theorem Threaded.push (threaded : pmm.Threaded lists) (small : order ≤ maxOrder)
    (fresh : ∀ size, ¬ pmm.Heads pfn size) : (pmm.pushBlock pfn order).Threaded
      (update lists (zoneOf pfn, order) (pfn :: lists (zoneOf pfn, order))) := by
  have absent (list : Zone × Nat) : pfn ∉ lists list := fun member =>
    fresh list.2 (threaded.member.mp member).2
  refine ⟨?_, ?_, ?_, ?_, ?_, ?_⟩
  · intro zone size
    rw [next_pushBlock, prev_pushBlock, freeLists_pushBlock]
    have first := threaded.linked (zoneOf pfn) order
    by_cases here : (zone, size) = (zoneOf pfn, order)
    · rw [if_pos here, here, update_self]
      exact first.push (threaded.nodup _) (absent _)
    rw [if_neg here, update_of_ne here]
    have differs {node : Nat} (inside : node ∈ lists (zone, size)) : node ≠ pfn :=
      fun same => absent _ (same ▸ inside)
    refine (threaded.linked zone size).congr
      (fun node inside => update_of_ne (differs inside) ..) fun node inside => ?_
    rw [relink_of_ne, update_of_ne (differs inside)]
    intro same
    rw [first.head_eq] at same
    exact threaded.head_apart (List.mem_of_head? same) inside here rfl
  · intro list
    by_cases here : list = (zoneOf pfn, order)
    · rw [here, update_self]
      exact List.nodup_cons.mpr ⟨absent _, threaded.nodup _⟩
    · rw [update_of_ne here]
      exact threaded.nodup _
  · intro zone size node
    rw [heads_pushBlock]
    by_cases here : (zone, size) = (zoneOf pfn, order)
    · obtain ⟨rfl, rfl⟩ := Prod.mk.inj here
      rw [update_self, List.mem_cons, threaded.member]
      by_cases same : node = pfn
      · simp [same]
      · simp [same]
    · rw [update_of_ne here, threaded.member]
      by_cases same : node = pfn
      · subst same
        simp only [fresh, and_false, ne_eq, not_true_eq_false, or_false, true_and, false_iff,
          not_and]
        exact fun zones sizes => here (by rw [zones, sizes])
      · simp [same]
  · intro size node heads
    rcases heads_pushBlock.mp heads with ⟨rfl, rfl⟩ | ⟨differs, heads⟩
    · exact (Prod.mk.inj (mark_here (mark_pushBlock pmm node size))).1
    · rw [state_pushBlock pmm order differs]
      exact threaded.free heads
  · intro size node heads
    rcases heads_pushBlock.mp heads with ⟨_, rfl⟩ | ⟨_, heads⟩
    · exact small
    · exact threaded.small heads
  · intro zone
    rw [freeFrames_pushBlock]
    by_cases same : zone = zoneOf pfn
    · subst same
      have sums := sum_update lists (pfn :: lists (zoneOf pfn, order)) (zoneOf pfn) small
      rw [List.length_cons, Nat.add_mul, Nat.one_mul] at sums
      rw [if_pos rfl, threaded.counted]
      omega
    · rw [if_neg same, sum_update_other lists _ order same]
      exact threaded.counted zone

theorem Threaded.remove (threaded : pmm.Threaded lists) (heads : pmm.Heads pfn order) :
    (pmm.removeBlock pfn order).Threaded
      (update lists (zoneOf pfn, order) ((lists (zoneOf pfn, order)).erase pfn)) := by
  have present : pfn ∈ lists (zoneOf pfn, order) := threaded.member.mpr ⟨rfl, heads⟩
  have first := threaded.linked (zoneOf pfn) order
  refine ⟨?_, ?_, ?_, ?_, ?_, ?_⟩
  · intro zone size
    rw [next_removeBlock, prev_removeBlock, freeLists_removeBlock]
    by_cases here : (zone, size) = (zoneOf pfn, order)
    · obtain ⟨rfl, rfl⟩ := Prod.mk.inj here
      rw [if_pos rfl, update_self]
      exact first.remove (threaded.nodup _) present
    rw [if_neg here, update_of_ne here]
    have apart : pfn ∉ lists (zone, size) := fun inside =>
      threaded.head_apart present inside here rfl
    obtain ⟨front, back, split⟩ := List.append_of_mem present
    rw [split] at first
    have around (node : Nat) (near : node ∈ front ++ pfn :: back) : node ∉ lists (zone, size) :=
      fun inside => threaded.head_apart (split ▸ near) inside here rfl
    refine (threaded.linked zone size).congr (Linked.other apart fun node same => ?_)
      (Linked.other apart fun node same => ?_)
    · rw [first.prev_eq, Option.or_none] at same
      exact around node (List.mem_append_left _ (List.mem_of_getLast? same))
    · rw [first.next_eq] at same
      exact around node (List.mem_append_right _ (List.mem_cons_of_mem _ (List.mem_of_head? same)))
  · intro list
    by_cases here : list = (zoneOf pfn, order)
    · rw [here, update_self]
      exact (threaded.nodup _).erase _
    · rw [update_of_ne here]
      exact threaded.nodup _
  · intro zone size node
    rw [heads_removeBlock]
    by_cases here : (zone, size) = (zoneOf pfn, order)
    · obtain ⟨rfl, rfl⟩ := Prod.mk.inj here
      rw [update_self, (threaded.nodup _).mem_erase_iff, threaded.member]
      exact and_left_comm
    · rw [update_of_ne here, threaded.member]
      refine ⟨fun ⟨zones, still⟩ => ⟨zones, ?_, still⟩, fun ⟨zones, _, still⟩ => ⟨zones, still⟩⟩
      rintro rfl
      exact here (threaded.apart (threaded.member.mpr ⟨zones, still⟩) heads)
  · intro size node still
    rw [state_removeBlock]
    exact threaded.free (heads_removeBlock.mp still).2
  · intro size node still
    exact threaded.small (heads_removeBlock.mp still).2
  · intro zone
    rw [freeFrames_removeBlock]
    by_cases same : zone = zoneOf pfn
    · subst same
      have sums := sum_update lists ((lists (zoneOf pfn, order)).erase pfn) (zoneOf pfn)
        (threaded.small heads)
      have shorter := List.length_erase_of_mem present
      have longer := List.length_pos_of_mem present
      have whole : (lists (zoneOf pfn, order)).length =
          ((lists (zoneOf pfn, order)).erase pfn).length + 1 := by omega
      rw [whole, Nat.add_mul, Nat.one_mul] at sums
      rw [if_pos rfl, threaded.counted]
      omega
    · rw [if_neg same, sum_update_other lists _ order same]
      exact threaded.counted zone

end Pmm

end Bhaskix.Mm
