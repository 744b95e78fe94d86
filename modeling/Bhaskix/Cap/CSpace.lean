import Bhaskix.Cap.Arena

namespace Bhaskix.Cap

open Function

structure CSpace where
  slots : Fin cspaceSlots → Option SlotRef

namespace CSpace

def new : CSpace := ⟨fun _ => none⟩

variable (cspace : CSpace) (index : Nat)

def install (slot : SlotRef) : Except CapError Nat × CSpace :=
  match (List.finRange cspaceSlots).find? fun index => (cspace.slots index).isNone with
  | none => (.error .exhausted, cspace)
  | some index => (.ok index.val, ⟨update cspace.slots index (some slot)⟩)

def installAt (slot : SlotRef) : Except CapError Unit × CSpace :=
  if inside : index < cspaceSlots then
    if (cspace.slots ⟨index, inside⟩).isSome then (.error .exhausted, cspace)
    else (.ok (), ⟨update cspace.slots ⟨index, inside⟩ (some slot)⟩)
  else (.error .exhausted, cspace)

def get : Option SlotRef :=
  if inside : index < cspaceSlots then cspace.slots ⟨index, inside⟩ else none

def names (object : ObjectRef) (arena : Arena) : Bool :=
  (List.finRange cspaceSlots).any fun index =>
    ((cspace.slots index).bind arena.lookup).any fun found => found.1 == object

def remove : CSpace :=
  if inside : index < cspaceSlots then
    ⟨update cspace.slots ⟨index, inside⟩ none⟩
  else cspace

def occupied : Nat :=
  (Finset.univ.filter fun index => (cspace.slots index).isSome).card

variable {cspace : CSpace} {slot : SlotRef}

theorem get_eq_some {index : Nat} (held : cspace.get index = some slot) :
    ∃ inside : index < cspaceSlots, cspace.slots ⟨index, inside⟩ = some slot := by
  unfold get at held
  split at held
  · next inside => exact ⟨inside, held⟩
  · cases held

theorem installAt_cases (cspace : CSpace) (index : Nat) (slot : SlotRef) :
    (cspace.installAt index slot = (.error .exhausted, cspace) ∧
      (index < cspaceSlots → (cspace.get index).isSome = true)) ∨
    ∃ inside : index < cspaceSlots, cspace.get index = none ∧ cspace.installAt index slot =
        (.ok (), ⟨update cspace.slots ⟨index, inside⟩ (some slot)⟩) := by
  unfold installAt get
  split
  · next inside =>
      split
      · next taken => exact .inl ⟨rfl, fun _ => taken⟩
      · next empty => exact .inr ⟨inside, by simpa using empty, rfl⟩
  · next outside => exact .inl ⟨rfl, fun inside => absurd inside outside⟩

theorem occupied_update_some {index : Fin cspaceSlots}
    (empty : cspace.slots index = none) (slot : SlotRef) :
    (CSpace.mk (update cspace.slots index (some slot))).occupied = cspace.occupied + 1 := by
  have grown : (Finset.univ.filter fun other =>
      ((update cspace.slots index (some slot)) other).isSome) =
      insert index (Finset.univ.filter fun other => (cspace.slots other).isSome) := by
    ext other
    by_cases same : other = index
    · simp [same]
    · simp [same]
  unfold occupied
  rw [grown, Finset.card_insert_of_notMem]
  simp [empty]

theorem occupied_update_none {index : Fin cspaceSlots} (held : cspace.slots index = some slot) :
    (CSpace.mk (update cspace.slots index none)).occupied + 1 = cspace.occupied := by
  have refilled := @occupied_update_some ⟨update cspace.slots index none⟩ index
    (update_self ..) slot
  rw [update_idem, ← held, update_eq_self] at refilled
  exact refilled.symm

theorem remove_of_held {index : Nat} (held : cspace.get index = some slot) :
    ∃ inside : index < cspaceSlots,
      cspace.remove index = ⟨update cspace.slots ⟨index, inside⟩ none⟩ ∧
        (cspace.remove index).occupied + 1 = cspace.occupied := by
  obtain ⟨inside, holds⟩ := get_eq_some held
  have removed : cspace.remove index = ⟨update cspace.slots ⟨index, inside⟩ none⟩ := by
    simp [remove, inside]
  refine ⟨inside, removed, ?_⟩
  rw [removed]
  exact occupied_update_none holds

end CSpace

end Bhaskix.Cap
