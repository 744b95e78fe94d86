import Bhaskix.Net.TcpTurn

namespace Bhaskix.Net

def acknowledgedOf : Action → Option Nat
  | .acknowledged bytes => some bytes
  | _ => none

variable (action : Action)

def Action.Withheld : Prop :=
  acknowledgedOf action = none

def Action.Bare : Prop :=
  ∀ emit, emitOf action = some emit → emit.length = 0

def Action.Plain : Prop :=
  action.Withheld ∧ action.Bare

def Action.Any (_ : Action) : Prop :=
  True

theorem Action.Plain.withheld {action : Action} (plain : action.Plain) : action.Withheld :=
  plain.1

theorem Action.Plain.bare {action : Action} (plain : action.Plain) : action.Bare :=
  plain.2

theorem Action.Plain.of_emit {emit : Emit} (bare : emit.length = 0) : (Action.emit emit).Plain :=
  ⟨rfl, fun _ same => Option.some.inj same ▸ bare⟩

theorem length_pushTo (items : List Action) (action : Action) :
    (pushTo items action).length ≤ items.length + 1 := by
  induction items with
  | nil => rfl
  | cons first rest ih =>
    rw [pushTo]
    split
    · exact Nat.le_succ _
    · exact Nat.succ_le_succ ih

namespace Actions

variable (actions : Actions)

def freed : List Nat :=
  actions.items.filterMap acknowledgedOf

@[simp] theorem freed_push (action : Action) :
    (actions.push action).freed = actions.freed ++ (acknowledgedOf action).toList := by
  refine filterMap_pushTo (fun action timed => ?_) actions.items action
  cases action <;> first | rfl | exact absurd rfl timed

def pushAll (pushed : List Action) : Actions :=
  pushed.foldl push actions

variable {actions : Actions}

theorem length_pushAll :
    (actions.pushAll pushed).items.length ≤ actions.items.length + pushed.length := by
  induction pushed generalizing actions with
  | nil => rfl
  | cons first rest ih =>
    have one : (actions.push first).items.length ≤ actions.items.length + 1 :=
      length_pushTo actions.items first
    have others := @ih (actions.push first)
    rw [List.length_cons]
    exact others.trans (by omega)

theorem freed_pushAll (withheld : ∀ action ∈ pushed, action.Withheld) :
    (actions.pushAll pushed).freed = actions.freed := by
  induction pushed generalizing actions with
  | nil => rfl
  | cons first rest ih =>
    have others := @ih (actions.push first) fun action member =>
      withheld action (List.mem_cons_of_mem _ member)
    refine others.trans ?_
    rw [freed_push, show acknowledgedOf first = none from withheld first List.mem_cons_self,
      Option.toList_none, List.append_nil]

theorem mem_emits_pushAll (member : emit ∈ (actions.pushAll pushed).emits) :
    emit ∈ actions.emits ∨ ∃ action ∈ pushed, emitOf action = some emit := by
  induction pushed generalizing actions with
  | nil => exact .inl member
  | cons first rest ih =>
    rcases @ih (actions.push first) member with here | ⟨action, later, emits⟩
    · rw [emits_push] at here
      rcases List.mem_append.mp here with old | new
      · exact .inl old
      · exact .inr ⟨first, List.mem_cons_self, Option.mem_toList.mp new⟩
    · exact .inr ⟨action, List.mem_cons_of_mem _ later, emits⟩

end Actions

namespace Turn

open Net.Action (Plain Withheld Bare Any)

/-- So many actions at most are pushed between two points of a step, all of one kind. -/
def Pushes (kind : Action → Prop) (count : Nat) (before after : Turn) : Prop :=
  ∃ pushed, pushed.length ≤ count ∧ (∀ action ∈ pushed, kind action) ∧
    after.actions = before.actions.pushAll pushed

namespace Pushes

variable {kind other : Action → Prop} {count : Nat} {before after : Turn}

theorem of_same (same : after.actions = before.actions) : Pushes kind count before after :=
  ⟨[], Nat.zero_le _, nofun, same⟩

theorem refl (turn : Turn) : Pushes kind count turn turn :=
  of_same rfl

theorem trans (first : Pushes kind count before after) (second : Pushes kind more after last) :
    Pushes kind (count + more) before last := by
  obtain ⟨pushed, few, kinds, same⟩ := first
  obtain ⟨pushed', few', kinds', same'⟩ := second
  refine ⟨pushed ++ pushed', ?_, fun action member => ?_, ?_⟩
  · rw [List.length_append]
    omega
  · exact (List.mem_append.mp member).elim (kinds action) (kinds' action)
  · rw [same', same, Actions.pushAll, Actions.pushAll, Actions.pushAll, List.foldl_append]

theorem one {action : Action} (pushed : after.actions = before.actions.push action)
    (its : kind action) : Pushes kind 1 before after :=
  ⟨[action], le_rfl, fun _ member => List.mem_singleton.mp member ▸ its, pushed⟩

theorem two {action action' : Action}
    (pushed : after.actions = (before.actions.push action).push action') (its : kind action)
    (its' : kind action') : Pushes kind 2 before after := by
  refine ⟨[action, action'], le_rfl, fun entry member => ?_, pushed⟩
  rcases List.mem_cons.mp member with rfl | later
  · exact its
  · exact List.mem_singleton.mp later ▸ its'

section

variable (pushes : Pushes kind count before after)
include pushes

theorem mono (fewer : count ≤ more)
    (kinds : ∀ {action}, kind action → other action) : Pushes other more before after := by
  obtain ⟨pushed, few, its, same⟩ := pushes
  exact ⟨pushed, few.trans fewer, fun action member => kinds (its action member), same⟩

theorem weaken (fewer : count ≤ more) : Pushes kind more before after :=
  pushes.mono fewer id

theorem any : Pushes Any count before after :=
  pushes.mono le_rfl fun _ => trivial

end

theorem withheld (pushes : Pushes Plain count before after) :
    Pushes Withheld count before after :=
  pushes.mono le_rfl Plain.withheld

theorem bare (pushes : Pushes Plain count before after) :
    Pushes Bare count before after :=
  pushes.mono le_rfl Plain.bare

theorem length_le (pushes : Pushes kind count before after) :
    after.actions.items.length ≤ before.actions.items.length + count := by
  obtain ⟨pushed, few, _, same⟩ := pushes
  rw [same]
  exact Actions.length_pushAll.trans (by omega)

theorem freed (pushes : Pushes Withheld count before after) :
    after.actions.freed = before.actions.freed := by
  obtain ⟨_, _, withheld, same⟩ := pushes
  rw [same, Actions.freed_pushAll withheld]

theorem mem_emits (pushes : Pushes Bare count before after) {emit : Emit}
    (data : 0 < emit.length) (member : emit ∈ after.actions.emits) :
    emit ∈ before.actions.emits := by
  obtain ⟨_, _, bare, same⟩ := pushes
  rw [same] at member
  rcases Actions.mem_emits_pushAll member with old | ⟨action, new, emits⟩
  · exact old
  · exact absurd (bare action new emit emits) (by omega)

end Pushes

open Pushes

variable (turn : Turn) (now : Nat)

theorem plain_of_untold {action : Action} (withheld : acknowledgedOf action = none)
    (silent : emitOf action = none) : action.Plain :=
  ⟨withheld, fun _ emits => absurd (silent.symm.trans emits) nofun⟩

end Turn

end Bhaskix.Net
