import Bhaskix.Library.Run

/-!
Notifications: one word of pending bits in a table of slots that are reused under a generation,
and at most one thread bound to each.
-/

namespace Bhaskix.Ipc

open Library

abbrev maxNotifications : Nat := 64

abbrev Word : Type := BitVec 64

structure NotificationId where
  index : Nat
  generation : UInt32
  deriving DecidableEq, Repr

inductive NotifyError
  | exhausted
  | gone
  | emptyBadge
  deriving DecidableEq, Repr

structure Slot where
  pending : Word
  waiter : UInt32
  bound : UInt32
  generation : UInt32
  live : Bool
  deriving DecidableEq, Repr

def Slot.new : Slot :=
  { pending := 0, waiter := 0, bound := 0, generation := 0, live := false }

abbrev Slots : Type := Fin maxNotifications → Slot

namespace Slots

variable (slots : Slots)

def update (index : Fin maxNotifications) (slot : Slot) : Slots :=
  Function.update slots index slot

variable (id : NotificationId)

def resolve : Option (Fin maxNotifications) :=
  if inside : id.index < maxNotifications then
    let index : Fin maxNotifications := ⟨id.index, inside⟩
    if (slots index).live ∧ (slots index).generation = id.generation then some index else none
  else none

def vacant : Option (Fin maxNotifications) :=
  (List.finRange maxNotifications).find? fun index => !(slots index).live

def nameOf (index : Fin maxNotifications) : NotificationId :=
  { index := index.val, generation := (slots index).generation }

def create : Except NotifyError NotificationId × Slots :=
  match slots.vacant with
  | none => (.error .exhausted, slots)
  | some index =>
    (.ok (slots.nameOf index),
      slots.update index { slots index with pending := 0, waiter := 0, live := true })

def destroy : Bool × Slots :=
  match slots.resolve id with
  | none => (false, slots)
  | some index =>
    (decide ((slots index).waiter ≠ 0),
      slots.update index
        { slots index with
          live := false, generation := (slots index).generation + 1, pending := 0, waiter := 0 })

def signal (badge : Word) : Except NotifyError (List UInt32) × Slots :=
  if badge = 0 then (.error .emptyBadge, slots)
  else
    match slots.resolve id with
    | none => (.error .gone, slots)
    | some index =>
      (.ok ([(slots index).bound, (slots index).waiter].filter (· ≠ 0)),
        slots.update index { slots index with pending := (slots index).pending ||| badge })

def bindTo (thread : UInt32) : Bool × Slots :=
  if thread = 0 then (false, slots)
  else
    match slots.resolve id with
    | none => (false, slots)
    | some index =>
      if (slots index).bound = 0 then
        (true, slots.update index { slots index with bound := thread })
      else (decide ((slots index).bound = thread), slots)

def unbindThread (thread : UInt32) : Slots :=
  if thread = 0 then slots
  else fun index =>
    if (slots index).bound = thread then { slots index with bound := 0 } else slots index

def boundTo (thread : UInt32) : Option (Fin maxNotifications) :=
  (List.finRange maxNotifications).find? fun index =>
    (slots index).live && decide ((slots index).bound = thread)

def takeBound (thread : UInt32) : Word × Slots :=
  if thread = 0 then (0, slots)
  else
    match slots.boundTo thread with
    | none => (0, slots)
    | some index => ((slots index).pending, slots.update index { slots index with pending := 0 })

def poll : Word × Slots :=
  match slots.resolve id with
  | none => (0, slots)
  | some index => ((slots index).pending, slots.update index { slots index with pending := 0 })

end Slots

inductive Event
  | create (answer : Except NotifyError NotificationId)
  | destroy (id : NotificationId) (stranded : Bool)
  | bindTo (id : NotificationId) (thread : UInt32) (bound : Bool)
  | unbindThread (thread : UInt32)
  | signal (id : NotificationId) (badge : Word) (answer : Except NotifyError (List UInt32))
  | poll (id : NotificationId) (word : Word)
  | takeBound (thread : UInt32) (word : Word)

inductive Call
  | create
  | destroy (id : NotificationId)
  | bindTo (id : NotificationId) (thread : UInt32)
  | unbindThread (thread : UInt32)
  | signal (id : NotificationId) (badge : Word)
  | poll (id : NotificationId)
  | takeBound (thread : UInt32)

def Slots.perform (slots : Slots) : Call → Event × Slots
  | .create => (.create slots.create.1, slots.create.2)
  | .destroy id => (.destroy id (slots.destroy id).1, (slots.destroy id).2)
  | .bindTo id thread => (.bindTo id thread (slots.bindTo id thread).1, (slots.bindTo id thread).2)
  | .unbindThread thread => (.unbindThread thread, slots.unbindThread thread)
  | .signal id badge => (.signal id badge (slots.signal id badge).1, (slots.signal id badge).2)
  | .poll id => (.poll id (slots.poll id).1, (slots.poll id).2)
  | .takeBound thread => (.takeBound thread (slots.takeBound thread).1, (slots.takeBound thread).2)

/-- `thread` was bound to this very notification and has not been unbound. The latest event is
the first of the list. -/
def Bound : List Event → UInt32 → NotificationId → Prop
  | [], _, _ => False
  | .bindTo other one true :: earlier, thread, id =>
    other = id ∧ one = thread ∨ Bound earlier thread id
  | .unbindThread one :: earlier, thread, id => one ≠ thread ∧ Bound earlier thread id
  | .destroy other _ :: earlier, thread, id => other ≠ id ∧ Bound earlier thread id
  | .create (.ok other) :: earlier, thread, id => other ≠ id ∧ Bound earlier thread id
  | _ :: earlier, thread, id => Bound earlier thread id

/-- `bit` was signalled on this very notification, and nothing has taken it since. -/
def Owed : List Event → NotificationId → Nat → Prop
  | [], _, _ => False
  | .signal other badge (.ok _) :: earlier, id, bit =>
    other = id ∧ badge.getLsbD bit ∨ Owed earlier id bit
  | .poll other _ :: earlier, id, bit => other ≠ id ∧ Owed earlier id bit
  | .takeBound thread _ :: earlier, id, bit => ¬ Bound earlier thread id ∧ Owed earlier id bit
  | .destroy other _ :: earlier, id, bit => other ≠ id ∧ Owed earlier id bit
  | .create (.ok other) :: earlier, id, bit => other ≠ id ∧ Owed earlier id bit
  | _ :: earlier, id, bit => Owed earlier id bit

/-- A word holds the bits that are owed to whoever asks for it, and a new notification is nobody's.
-/
def Faithful (after : Slots) (earlier : List Event) : Event → Prop
  | .poll id word => ∀ bit, word.getLsbD bit ↔ Owed earlier id bit
  | .takeBound thread word =>
    ∀ bit, word.getLsbD bit ↔ ∃ id, Bound earlier thread id ∧ Owed earlier id bit
  | .create (.ok id) => ∀ index, after.resolve id = some index → (after index).bound = 0
  | _ => True

structure Desk where
  slots : Slots
  past : List Event

namespace Desk

def start : Desk :=
  { slots := fun _ => .new, past := [] }

def step (call : Call) (desk : Desk) : Desk :=
  { slots := (desk.slots.perform call).2, past := (desk.slots.perform call).1 :: desk.past }

/-- The created slot has no thread left over, and the bits asked for lie in the first slot bound. -/
def Orderly (desk : Desk) : Call → Prop
  | .create => ∀ index, desk.slots.vacant = some index → (desk.slots index).bound = 0
  | .takeBound thread =>
    thread ≠ 0 → ∀ index, (desk.slots index).live → (desk.slots index).bound = thread →
      (desk.slots index).pending ≠ 0 → desk.slots.boundTo thread = some index
  | _ => True

end Desk

namespace Slots

variable {slots : Slots} {id : NotificationId} {index : Fin maxNotifications}

theorem resolve_eq_some :
    slots.resolve id = some index ↔ (slots index).live = true ∧ slots.nameOf index = id := by
  unfold resolve
  constructor
  · intro found
    split at found
    · dsimp only at found
      split at found
      · rename_i checked
        cases found
        refine ⟨checked.1, ?_⟩
        simp only [nameOf]
        rw [checked.2]
      · exact nomatch found
    · exact nomatch found
  · rintro ⟨live, rfl⟩
    have inside : (slots.nameOf index).index < maxNotifications := index.isLt
    rw [dif_pos inside]
    exact if_pos ⟨live, rfl⟩

theorem resolve_inj (found : slots.resolve id = some index)
    (found' : slots.resolve other = some index) : id = other :=
  (resolve_eq_some.mp found).2.symm.trans (resolve_eq_some.mp found').2

theorem vacant_some (found : slots.vacant = some index) : (slots index).live = false := by
  have dead := List.find?_some found
  simpa using dead

theorem boundTo_some {thread : UInt32} (found : slots.boundTo thread = some index) :
    (slots index).live = true ∧ (slots index).bound = thread := by
  have holds := List.find?_some found
  simpa using holds

theorem boundTo_none {thread : UInt32} (missing : slots.boundTo thread = none)
    (live : (slots index).live = true) : (slots index).bound ≠ thread := by
  have fails := List.find?_eq_none.mp missing index (List.mem_finRange index)
  simpa [live] using fails

def word (slots : Slots) (id : NotificationId) : Word :=
  match slots.resolve id with
  | none => 0
  | some index => (slots index).pending

def thread (slots : Slots) (id : NotificationId) : UInt32 :=
  match slots.resolve id with
  | none => 0
  | some index => (slots index).bound

theorem word_of_none (gone : slots.resolve id = none) : slots.word id = 0 := by
  rw [word, gone]

theorem thread_of_none (gone : slots.resolve id = none) : slots.thread id = 0 := by
  rw [thread, gone]

theorem word_of_some (found : slots.resolve id = some index) :
    slots.word id = (slots index).pending := by
  rw [word, found]

theorem thread_of_some (found : slots.resolve id = some index) :
    slots.thread id = (slots index).bound := by
  rw [thread, found]

@[simp] theorem update_same (slot : Slot) : slots.update index slot index = slot :=
  Function.update_self ..

variable {slot : Slot}

theorem update_other (differs : other ≠ index) : slots.update index slot other = slots other :=
  Function.update_of_ne differs ..

theorem resolve_update (live : slot.live = (slots index).live)
    (generation : slot.generation = (slots index).generation) (id : NotificationId) :
    (slots.update index slot).resolve id = slots.resolve id := by
  have same (other : Fin maxNotifications) :
      (slots.update index slot other).live = (slots other).live ∧
        (slots.update index slot other).generation = (slots other).generation := by
    by_cases here : other = index
    · subst here
      simp [live, generation]
    · rw [update_other here]
      exact ⟨rfl, rfl⟩
  unfold resolve
  split
  · simp only [same]
  · rfl

section

variable {slot : Slot} (live : slot.live = (slots index).live)
  (generation : slot.generation = (slots index).generation)
include live generation

theorem read_update (id : NotificationId) :
    (slots.update index slot).word id =
        (if slots.resolve id = some index then slot.pending else slots.word id) ∧
      (slots.update index slot).thread id =
        if slots.resolve id = some index then slot.bound else slots.thread id := by
  unfold word thread
  rw [resolve_update live generation]
  cases found : slots.resolve id with
  | none => simp
  | some other =>
    by_cases here : other = index
    · simp [here]
    · simp [here, update_other here]

theorem word_kept (pending : slot.pending = (slots index).pending) (id : NotificationId) :
    (slots.update index slot).word id = slots.word id := by
  rw [(read_update live generation id).1]
  split
  · rename_i here
    rw [pending, word_of_some here]
  · rfl

theorem thread_kept (bound : slot.bound = (slots index).bound) (id : NotificationId) :
    (slots.update index slot).thread id = slots.thread id := by
  rw [(read_update live generation id).2]
  split
  · rename_i here
    rw [bound, thread_of_some here]
  · rfl

end

theorem resolve_born (dead : (slots index).live = false) (live : slot.live = true)
    (generation : slot.generation = (slots index).generation) (id : NotificationId) :
    (slots.update index slot).resolve id =
      if id = slots.nameOf index then some index else slots.resolve id := by
  split
  · rename_i same
    subst same
    refine resolve_eq_some.mpr ⟨by rw [update_same, live], ?_⟩
    rw [nameOf, update_same, generation, nameOf]
  rename_i differs
  apply Option.ext
  intro other
  rw [resolve_eq_some, resolve_eq_some]
  by_cases here : other = index
  · subst here
    simp only [update_same, live, dead, nameOf, generation, Bool.false_eq_true, false_and,
      true_and, iff_false]
    exact fun same => differs same.symm
  · rw [nameOf, update_other here, nameOf]

theorem resolve_died (live : (slots index).live = true) (dead : slot.live = false)
    (id : NotificationId) : (slots.update index slot).resolve id =
      if id = slots.nameOf index then none else slots.resolve id := by
  apply Option.ext
  intro other
  rw [resolve_eq_some]
  by_cases here : other = index
  · subst here
    rw [update_same, dead]
    split
    · simp
    rename_i differs
    rw [resolve_eq_some]
    simp only [Bool.false_eq_true, false_and, live, true_and, false_iff]
    exact fun same => differs same.symm
  · rw [nameOf, update_other here]
    split
    · rename_i same
      subst same
      simp only [nameOf, NotificationId.mk.injEq, reduceCtorEq, iff_false, not_and]
      exact fun _ same _ => here (Fin.ext same)
    · rw [resolve_eq_some, nameOf]

theorem resolve_dead (dead : (slots index).live = false) :
    slots.resolve (slots.nameOf index) = none := by
  cases resolved : slots.resolve (slots.nameOf index) with
  | none => rfl
  | some other =>
    obtain ⟨live, same⟩ := resolve_eq_some.mp resolved
    have here : other = index := Fin.ext (congrArg NotificationId.index same)
    rw [here, dead] at live
    exact nomatch live

theorem read_other (differs : id ≠ slots.nameOf index)
    (same : (slots.update index slot).resolve id = slots.resolve id) :
    (slots.update index slot).word id = slots.word id ∧
      (slots.update index slot).thread id = slots.thread id := by
  unfold word thread
  rw [same]
  cases resolved : slots.resolve id with
  | none => exact ⟨rfl, rfl⟩
  | some other =>
    have apart : other ≠ index := fun here => by
      rw [here] at resolved
      exact differs (resolve_eq_some.mp resolved).2.symm
    simp only [update_other apart, and_self]

theorem read_born {slot : Slot} (dead : (slots index).live = false) (live : slot.live = true)
    (generation : slot.generation = (slots index).generation) (id : NotificationId) :
    (slots.update index slot).word id =
        (if id = slots.nameOf index then slot.pending else slots.word id) ∧
      (slots.update index slot).thread id =
        if id = slots.nameOf index then slot.bound else slots.thread id := by
  have born := resolve_born dead live generation id
  by_cases new : id = slots.nameOf index
  · rw [if_pos new] at born ⊢
    rw [if_pos new, word_of_some born, thread_of_some born, update_same]
    exact ⟨rfl, rfl⟩
  · rw [if_neg new] at born ⊢
    rw [if_neg new]
    exact read_other new born

theorem read_died {slot : Slot} (live : (slots index).live = true) (dead : slot.live = false)
    (id : NotificationId) : (slots.update index slot).word id =
        (if id = slots.nameOf index then 0 else slots.word id) ∧
      (slots.update index slot).thread id =
        if id = slots.nameOf index then 0 else slots.thread id := by
  have died := resolve_died live dead id
  by_cases old : id = slots.nameOf index
  · rw [if_pos old] at died ⊢
    rw [if_pos old, word_of_none died, thread_of_none died]
    exact ⟨rfl, rfl⟩
  · rw [if_neg old] at died ⊢
    rw [if_neg old]
    exact read_other old died

theorem read_unbindThread (thread : UInt32) (id : NotificationId) :
    (slots.unbindThread thread).word id = slots.word id ∧ (slots.unbindThread thread).thread id =
        if slots.thread id = thread then 0 else slots.thread id := by
  unfold Slots.unbindThread
  split
  · rename_i nobody
    subst nobody
    refine ⟨rfl, ?_⟩
    split <;> rename_i same
    · exact same
    · rfl
  have slot (index : Fin maxNotifications) :
      (if (slots index).bound = thread then { slots index with bound := 0 }
        else slots index).live = (slots index).live ∧
      (if (slots index).bound = thread then { slots index with bound := 0 }
        else slots index).generation = (slots index).generation ∧
      (if (slots index).bound = thread then { slots index with bound := 0 }
        else slots index).pending = (slots index).pending := by
    split <;> exact ⟨rfl, rfl, rfl⟩
  have found : resolve (fun index => if (slots index).bound = thread
      then { slots index with bound := 0 } else slots index) id = slots.resolve id := by
    simp only [resolve, slot]
  rw [word, Slots.thread, found]
  cases resolved : slots.resolve id with
  | none =>
    rw [word_of_none resolved, thread_of_none resolved]
    simp
  | some index =>
    rw [word_of_some resolved, thread_of_some resolved]
    refine ⟨(slot index).2.2, ?_⟩
    dsimp only
    split <;> rfl

end Slots

open Slots

structure Agrees (slots : Slots) (past : List Event) : Prop where
  pending (id : NotificationId) (bit : Nat) : (slots.word id).getLsbD bit ↔ Owed past id bit
  bound (id : NotificationId) (thread : UInt32) :
    thread ≠ 0 ∧ slots.thread id = thread ↔ Bound past thread id

namespace Agrees

variable {slots : Slots} {past : List Event} (agrees : Agrees slots past)

include agrees

variable {id : NotificationId}

theorem not_owed (gone : slots.resolve id = none) (bit : Nat) : ¬ Owed past id bit := by
  rw [← agrees.pending, word_of_none gone]
  simp

theorem not_bound (gone : slots.resolve id = none) (thread : UInt32) : ¬ Bound past thread id := by
  rw [← agrees.bound, thread_of_none gone]
  rintro ⟨some_, none⟩
  exact some_ none.symm

theorem create (unbound : ∀ index, slots.vacant = some index → (slots index).bound = 0) :
    Agrees slots.create.2 (.create slots.create.1 :: past) := by
  unfold Slots.create
  cases found : slots.vacant with
  | none => exact ⟨agrees.pending, agrees.bound⟩
  | some index =>
    have dead := vacant_some found
    have gone := resolve_dead dead
    have read := @read_born slots index
      { slots index with pending := 0, waiter := 0, live := true } dead rfl rfl
    have word (id : NotificationId) : (slots.update index
        { slots index with pending := 0, waiter := 0, live := true }).word id = slots.word id := by
      rw [(read id).1]
      split
      · rename_i new
        rw [new, word_of_none gone]
      · rfl
    have thread (id : NotificationId) : (slots.update index
        { slots index with pending := 0, waiter := 0, live := true }).thread id =
          slots.thread id := by
      rw [(read id).2]
      split
      · rename_i new
        rw [new, thread_of_none gone]
        exact unbound index found
      · rfl
    refine ⟨?_, ?_⟩
    · intro id bit
      rw [word, agrees.pending, Owed]
      exact ⟨fun owed => ⟨fun same => agrees.not_owed gone bit (same ▸ owed), owed⟩, And.right⟩
    · intro id one
      rw [thread, agrees.bound, Bound]
      exact ⟨fun bound => ⟨fun same => agrees.not_bound gone one (same ▸ bound), bound⟩, And.right⟩

omit agrees in
theorem faithful_create (unbound : ∀ index, slots.vacant = some index → (slots index).bound = 0) :
    Faithful slots.create.2 past (.create slots.create.1) := by
  unfold Slots.create
  cases found : slots.vacant with
  | none => trivial
  | some index =>
    intro other resolved
    have here : other = index :=
      Fin.ext (congrArg NotificationId.index (resolve_eq_some.mp resolved).2)
    dsimp only
    rw [here, update_same]
    exact unbound index found

theorem destroy (id : NotificationId) :
    Agrees (slots.destroy id).2 (.destroy id (slots.destroy id).1 :: past) := by
  unfold Slots.destroy
  cases found : slots.resolve id with
  | none =>
    refine ⟨?_, ?_⟩
    · intro other bit
      rw [agrees.pending, Owed]
      exact ⟨fun owed => ⟨fun same => agrees.not_owed found bit (same ▸ owed), owed⟩, And.right⟩
    · intro other thread
      rw [agrees.bound, Bound]
      exact ⟨fun bound => ⟨fun same => agrees.not_bound found thread (same ▸ bound), bound⟩,
        And.right⟩
  | some index =>
    obtain ⟨live, rfl⟩ := resolve_eq_some.mp found
    have read := @read_died slots index
      { slots index with
        live := false, generation := (slots index).generation + 1, pending := 0, waiter := 0 }
      live rfl
    refine ⟨?_, ?_⟩
    · intro other bit
      rw [(read other).1, Owed, ← agrees.pending]
      split
      · rename_i same
        simp [same]
      · rename_i differs
        exact ⟨fun holds => ⟨Ne.symm differs, holds⟩, And.right⟩
    · intro other thread
      rw [(read other).2, Bound, ← agrees.bound]
      split
      · rename_i same
        exact ⟨fun holds => absurd holds.2.symm holds.1, fun holds => absurd same.symm holds.1⟩
      · rename_i differs
        exact ⟨fun holds => ⟨Ne.symm differs, holds⟩, And.right⟩

theorem signal (id : NotificationId) (badge : Word) :
    Agrees (slots.signal id badge).2 (.signal id badge (slots.signal id badge).1 :: past) := by
  unfold Slots.signal
  split
  · exact ⟨agrees.pending, agrees.bound⟩
  cases found : slots.resolve id with
  | none => exact ⟨agrees.pending, agrees.bound⟩
  | some index =>
    have read := @read_update slots index
      { slots index with pending := (slots index).pending ||| badge } rfl rfl
    have thread := @thread_kept slots index
      { slots index with pending := (slots index).pending ||| badge } rfl rfl rfl
    refine ⟨?_, ?_⟩
    · intro other bit
      rw [(read other).1, Owed, ← agrees.pending]
      by_cases here : slots.resolve other = some index
      · have named := resolve_inj found here
        rw [if_pos here, word_of_some here, BitVec.getLsbD_or, Bool.or_eq_true]
        exact ⟨fun holds => holds.symm.imp_left fun set => ⟨named, set⟩,
          fun holds => (holds.imp_left And.right).symm⟩
      · rw [if_neg here]
        exact ⟨.inr, fun holds => holds.resolve_left fun now => here (now.1 ▸ found)⟩
    · intro other one
      rw [thread]
      exact agrees.bound other one

theorem poll (id : NotificationId) : Agrees (slots.poll id).2 (.poll id (slots.poll id).1 :: past) ∧
      ∀ bit, (slots.poll id).1.getLsbD bit ↔ Owed past id bit := by
  unfold Slots.poll
  cases found : slots.resolve id with
  | none =>
    refine ⟨⟨?_, agrees.bound⟩, fun bit => ?_⟩
    · intro other bit
      rw [agrees.pending, Owed]
      exact ⟨fun owed => ⟨fun same => agrees.not_owed found bit (same ▸ owed), owed⟩, And.right⟩
    · rw [← agrees.pending, word_of_none found]
  | some index =>
    have read := @read_update slots index { slots index with pending := 0 } rfl rfl
    have thread := @thread_kept slots index { slots index with pending := 0 } rfl rfl rfl
    refine ⟨⟨?_, ?_⟩, fun bit => ?_⟩
    · intro other bit
      rw [(read other).1, Owed, ← agrees.pending]
      by_cases here : slots.resolve other = some index
      · have named := resolve_inj found here
        rw [if_pos here]
        simp [named]
      · rw [if_neg here]
        exact ⟨fun holds => ⟨fun same => here (same ▸ found), holds⟩, And.right⟩
    · intro other one
      rw [thread]
      exact agrees.bound other one
    · rw [← agrees.pending, word_of_some found]

theorem bindTo (id : NotificationId) (thread : UInt32) :
    Agrees (slots.bindTo id thread).2 (.bindTo id thread (slots.bindTo id thread).1 :: past) := by
  unfold Slots.bindTo
  split
  · exact ⟨agrees.pending, agrees.bound⟩
  rename_i someone
  cases found : slots.resolve id with
  | none => exact ⟨agrees.pending, agrees.bound⟩
  | some index =>
    dsimp only
    split
    · rename_i free
      have word := @word_kept slots index { slots index with bound := thread } rfl rfl rfl
      refine ⟨?_, ?_⟩
      · intro other bit
        rw [word]
        exact agrees.pending other bit
      intro other one
      rw [(@read_update slots index { slots index with bound := thread } rfl rfl other).2, Bound,
        ← agrees.bound]
      by_cases here : slots.resolve other = some index
      · have named := resolve_inj found here
        rw [if_pos here, thread_of_some here, free]
        exact ⟨fun holds => .inl ⟨named, holds.2⟩, fun holds => holds.elim
          (fun now => ⟨now.2 ▸ someone, now.2⟩) fun past => absurd past.2.symm past.1⟩
      · rw [if_neg here]
        exact ⟨.inr, fun holds => holds.resolve_left fun now => here (now.1 ▸ found)⟩
    · by_cases mine : (slots index).bound = thread
      · rw [decide_eq_true mine]
        refine ⟨agrees.pending, fun other one => ?_⟩
        rw [Bound, ← agrees.bound]
        refine ⟨.inr, fun holds => holds.elim (fun now => ?_) fun before => before⟩
        rw [← now.1, ← now.2, thread_of_some found]
        exact ⟨someone, mine⟩
      · rw [decide_eq_false mine]
        exact ⟨agrees.pending, agrees.bound⟩

theorem unbindThread (thread : UInt32) :
    Agrees (slots.unbindThread thread) (.unbindThread thread :: past) := by
  have named (id : NotificationId) : (slots.unbindThread thread).word id = slots.word id ∧
        (slots.unbindThread thread).thread id =
          if slots.thread id = thread then 0 else slots.thread id :=
    read_unbindThread thread id
  refine ⟨?_, ?_⟩
  · intro id bit
    rw [(named id).1]
    exact agrees.pending id bit
  intro id one
  rw [(named id).2, Bound, ← agrees.bound]
  split
  · rename_i same
    rw [same]
    exact ⟨fun holds => absurd holds.2.symm holds.1, fun holds => absurd holds.2.2 holds.1⟩
  · rename_i differs
    exact ⟨fun holds => ⟨fun same => differs (holds.2.trans same.symm), holds⟩, And.right⟩

theorem resolve_of_bound {thread : UInt32} (bound : Bound past thread id) :
    thread ≠ 0 ∧ ∃ index, slots.resolve id = some index ∧ (slots index).live = true ∧
      (slots index).bound = thread := by
  obtain ⟨someone, mine⟩ := (agrees.bound id thread).mpr bound
  cases found : slots.resolve id with
  | none =>
    rw [thread_of_none found] at mine
    exact absurd mine.symm someone
  | some index =>
    rw [thread_of_some found] at mine
    exact ⟨someone, index, rfl, (resolve_eq_some.mp found).1, mine⟩

theorem takeBound_nothing {thread : UInt32} (unbound : ∀ id, ¬ Bound past thread id) :
    Agrees slots (.takeBound thread 0 :: past) ∧
      ∀ bit, (0 : Word).getLsbD bit ↔ ∃ id, Bound past thread id ∧ Owed past id bit := by
  refine ⟨⟨fun id bit => ?_, agrees.bound⟩, fun bit => ?_⟩
  · rw [Owed, ← agrees.pending]
    exact ⟨fun set => ⟨unbound id, set⟩, And.right⟩
  · simp [unbound]

theorem takeBound (thread : UInt32)
    (first : thread ≠ 0 → ∀ index, (slots index).live → (slots index).bound = thread →
      (slots index).pending ≠ 0 → slots.boundTo thread = some index) :
    Agrees (slots.takeBound thread).2 (.takeBound thread (slots.takeBound thread).1 :: past) ∧
      ∀ bit, (slots.takeBound thread).1.getLsbD bit ↔
        ∃ id, Bound past thread id ∧ Owed past id bit := by
  unfold Slots.takeBound
  split
  · rename_i nobody
    exact agrees.takeBound_nothing fun id bound => (agrees.resolve_of_bound bound).1 nobody
  rename_i someone
  cases found : slots.boundTo thread with
  | none =>
    refine agrees.takeBound_nothing fun id bound => ?_
    obtain ⟨_, index, _, live, mine⟩ := agrees.resolve_of_bound bound
    exact boundTo_none found live mine
  | some index =>
    obtain ⟨live, mine⟩ := boundTo_some found
    have here : slots.resolve (slots.nameOf index) = some index :=
      resolve_eq_some.mpr ⟨live, rfl⟩
    have named (id : NotificationId) (resolved : slots.resolve id = some index) :
        Bound past thread id :=
      (agrees.bound id thread).mp ⟨someone, (thread_of_some resolved).trans mine⟩
    -- A bit that is owed to the thread lies in the slot the scan stops at.
    have only (id : NotificationId) (bit : Nat) (bound : Bound past thread id)
        (set : (slots.word id).getLsbD bit) : slots.resolve id = some index := by
      obtain ⟨_, other, resolved, alive, its⟩ := agrees.resolve_of_bound bound
      rw [word_of_some resolved] at set
      have some_ : (slots other).pending ≠ 0 := fun none => by
        rw [none] at set
        simp at set
      have stops := first someone other alive its some_
      rw [found] at stops
      rw [resolved, stops]
    have read := @read_update slots index { slots index with pending := 0 } rfl rfl
    have same := @thread_kept slots index { slots index with pending := 0 } rfl rfl rfl
    refine ⟨⟨fun id bit => ?_, fun id one => ?_⟩, fun bit => ?_⟩
    · rw [(read id).1, Owed, ← agrees.pending]
      by_cases resolved : slots.resolve id = some index
      · rw [if_pos resolved]
        simp [named id resolved]
      · rw [if_neg resolved]
        exact ⟨fun set => ⟨fun bound => resolved (only id bit bound set), set⟩, And.right⟩
    · rw [same]
      exact agrees.bound id one
    · simp only [← agrees.pending]
      constructor
      · intro set
        refine ⟨slots.nameOf index, named _ here, ?_⟩
        rw [word_of_some here]
        exact set
      · rintro ⟨id, bound, set⟩
        rw [word_of_some (only id bit bound set)] at set
        exact set

theorem perform (orderly : Desk.Orderly { slots := slots, past := past } call) :
    Agrees (slots.perform call).2 ((slots.perform call).1 :: past) ∧
      Faithful (slots.perform call).2 past (slots.perform call).1 := by
  cases call with
  | create => exact ⟨agrees.create orderly, faithful_create orderly⟩
  | destroy id => exact ⟨agrees.destroy id, trivial⟩
  | bindTo id thread => exact ⟨agrees.bindTo id thread, trivial⟩
  | unbindThread thread => exact ⟨agrees.unbindThread thread, trivial⟩
  | signal id badge => exact ⟨agrees.signal id badge, trivial⟩
  | poll id => exact agrees.poll id
  | takeBound thread => exact agrees.takeBound thread orderly

end Agrees

namespace Desk

theorem agrees_start : Agrees start.slots start.past := by
  have nothing (id : NotificationId) : start.slots.resolve id = none := by
    cases found : start.slots.resolve id with
    | none => rfl
    | some index => exact absurd (resolve_eq_some.mp found).1 Bool.false_ne_true
  refine ⟨fun id bit => ?_, fun id thread => ?_⟩
  · rw [word_of_none (nothing id)]
    simp [start, Owed]
  · rw [thread_of_none (nothing id)]
    exact ⟨fun holds => absurd holds.2.symm holds.1, False.elim⟩

/-- Where no slot is reused with a thread left in it, bits go to whoever named the notification,
once. -/
theorem bits_reach_their_readers {desk : Desk} (reached : Reached step Orderly start desk)
    (call : Call) (orderly : desk.Orderly call) :
    Faithful (desk.slots.perform call).2 desk.past (desk.slots.perform call).1 := by
  have agrees := reached.invariant (motive := fun desk : Desk => Agrees desk.slots desk.past)
    agrees_start fun _ agrees orderly => (agrees.perform orderly).1
  exact (agrees.perform orderly).2

/-- Thread 7 is bound to the first notification, which is then signalled. -/
theorem bits_reach_thread_seven :
    Faithful (step (.signal ⟨0, 0⟩ 1) (step (.bindTo ⟨0, 0⟩ 7) (step .create start))).slots
      (step (.signal ⟨0, 0⟩ 1) (step (.bindTo ⟨0, 0⟩ 7) (step .create start))).past
      (.takeBound 7 1) := by
  have reached : Reached step Orderly start
      (step (.signal ⟨0, 0⟩ 1) (step (.bindTo ⟨0, 0⟩ 7) (step .create start))) :=
    .next _ (.next _ (.next _ .start fun _ _ => rfl) trivial) trivial
  exact bits_reach_their_readers reached (.takeBound 7) (by
    unfold Orderly
    decide)

/-- A binding outlives its notification: thread 7 is found bound to the successor in the slot. -/
theorem not_bits_reach_their_readers : ¬ Faithful ((step (.destroy ⟨0, 0⟩)
        (step (.bindTo ⟨0, 0⟩ 7) (step .create start))).slots.perform .create).2
      (step (.destroy ⟨0, 0⟩) (step (.bindTo ⟨0, 0⟩ 7) (step .create start))).past
      ((step (.destroy ⟨0, 0⟩)
        (step (.bindTo ⟨0, 0⟩ 7) (step .create start))).slots.perform .create).1 := by
  intro faithful
  exact absurd (faithful 0 (by decide)) (by decide)

-- A thread bound to two notifications is given what the first one holds, and that is nothing.
example :
    ((step (.signal ⟨1, 0⟩ 1) (step (.bindTo ⟨1, 0⟩ 7) (step (.bindTo ⟨0, 0⟩ 7)
      (step .create (step .create start))))).slots.takeBound 7).1 = 0 := by
  decide

end Desk

end Bhaskix.Ipc
