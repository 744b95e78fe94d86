import Bhaskix.Library.Run

/-!
The adapter's serving loop: a call that is answered while a signal is pending has its answer kept
until the thread's register frame has come.
-/

namespace Bhaskix.Hosted

open Library Function

namespace Serving

abbrev maxDomains : Nat := 64

abbrev nothingAwaiting : UInt64 := UInt64.ofNat (2 ^ 64 - 1)

abbrev eintr : UInt64 := UInt64.ofNat (2 ^ 64 - 4)
abbrev enosys : UInt64 := UInt64.ofNat (2 ^ 64 - 38)

structure Caller where
  domain : Nat
  thread : Nat
  deriving DecidableEq, Repr

/-- The caller's place in the adapter's table. -/
def Caller.key (caller : Caller) : Nat := caller.domain % maxDomains

inductive Reply
  | value (value : UInt64)
  | park
  | other
  deriving DecidableEq, Repr

/-- A call split over two messages: its arguments are still to be read, or its answer is to be
carried through a signal's frame. -/
inductive Stage
  | running
  | wanting
  | done (value : UInt64)
  deriving DecidableEq, Repr

/-- The adapter's table, and of each thread its call, the results its dispatched calls came to and
the values it went on with. -/
structure Desk where
  awaiting : Nat → UInt64
  stage : Caller → Stage
  results : Caller → List UInt64
  resumes : Caller → List UInt64

def Desk.start : Desk where
  awaiting _ := nothingAwaiting
  stage _ := .running
  results _ := []
  resumes _ := []

/-- `wantsFrame` is a call whose arguments are in its frame, `unstaged` a frame the kernel has no
slot for, `gone` the end of a domain. -/
inductive Input
  | call (caller : Caller) (reply : Reply) (pending : Bool)
  | wantsFrame (caller : Caller)
  | frame (caller : Caller) (reply : Reply)
  | unstaged (caller : Caller)
  | gone (domain : Nat)

def clearDomain {α : Type} (domain : Nat) (blank : α) (table : Caller → α) (caller : Caller) : α :=
  if caller.domain = domain then blank else table caller

namespace Desk

variable (caller : Caller) (value : UInt64) (desk : Desk)

def resume : Desk :=
  { desk with
    stage := update desk.stage caller .running
    resumes := update desk.resumes caller (desk.resumes caller ++ [value]) }

def result : Desk :=
  { desk with results := update desk.results caller (desk.results caller ++ [value]) }

def keep (slot : Nat) (value : UInt64) (desk : Desk) : Desk :=
  { desk with awaiting := update desk.awaiting slot value }

def setStage (stage : Stage) (desk : Desk) : Desk :=
  { desk with stage := update desk.stage caller stage }

def awaitFrameForSignal : Desk :=
  ((desk.result caller value).keep caller.key value).setStage caller (.done value)

/-- A dispatched call, which is interrupted rather than parked when a signal is pending. -/
def dispatch (reply : Reply) (pending : Bool) (desk : Desk) : Desk :=
  match reply, pending with
  | .value value, true => desk.awaitFrameForSignal caller value
  | .value value, false => (desk.result caller value).resume caller value
  | .park, true => desk.awaitFrameForSignal caller eintr
  | _, _ => desk.setStage caller .running

def answerWithFrame (reply : Reply) (desk : Desk) : Desk :=
  let value := desk.awaiting caller.key
  let taken := desk.keep caller.key nothingAwaiting
  if value ≠ nothingAwaiting then taken.resume caller value
  else taken.dispatch caller reply false

def step (input : Input) (desk : Desk) : Desk :=
  match input with
  | .call caller reply pending =>
    if desk.stage caller = .running then desk.dispatch caller reply pending else desk
  | .wantsFrame caller =>
    if desk.stage caller = .running then desk.setStage caller .wanting else desk
  | .frame caller reply =>
    if desk.stage caller = .running then desk else desk.answerWithFrame caller reply
  | .unstaged caller =>
    if desk.stage caller = .running then desk else desk.resume caller enosys
  | .gone domain =>
    { desk with
      stage := clearDomain domain .running desk.stage
      results := clearDomain domain [] desk.results
      resumes := clearDomain domain [] desk.resumes }

end Desk

/-- What a call comes to when it is carried out; `none` as long as it is parked. -/
def Reply.outcome (pending : Bool) : Reply → Option UInt64
  | value answer => some answer
  | park => if pending then some eintr else none
  | other => none

/-- The desk, and beside it what the messages alone tell: how far each thread's call is, and what
the calls it has made came to. -/
structure Watched where
  desk : Desk
  stage : Caller → Stage
  made : Caller → List UInt64

namespace Watched

def start : Watched where
  desk := .start
  stage _ := .running
  made _ := []

def follow (stage : Caller → Stage) : Input → Caller → Stage
  | .call caller reply pending =>
    if stage caller = .running then
      -- An answer goes through the frame of the signal that is pending.
      update stage caller (if pending then (reply.outcome true).elim .running .done else .running)
    else stage
  | .wantsFrame caller =>
    if stage caller = .running then update stage caller .wanting else stage
  | .frame caller _ | .unstaged caller => update stage caller .running
  | .gone domain => clearDomain domain .running stage

def tell (stage : Caller → Stage) (made : Caller → List UInt64) : Input → Caller → List UInt64
  | .call caller reply pending =>
    if stage caller = .running then
      update made caller (made caller ++ (reply.outcome pending).toList)
    else made
  | .frame caller reply =>
    -- Of a call whose answer is on its way nothing more is carried out.
    if stage caller = .wanting then
      update made caller (made caller ++ (reply.outcome false).toList)
    else made
  | .gone domain => clearDomain domain [] made
  | .wantsFrame _ | .unstaged _ => made

def step (input : Input) (watched : Watched) : Watched where
  desk := watched.desk.step input
  stage := follow watched.stage input
  made := tell watched.stage watched.made input

end Watched

def Stage.owed : Stage → List UInt64
  | done answer => [answer]
  | _ => []

/-- Every thread has gone on with the results of its own calls, one for one and in order, but for
one that may still be owed. -/
def Desk.Exact (desk : Desk) : Prop :=
  ∀ caller, desk.results caller = desk.resumes caller ++ (desk.stage caller).owed

def Desk.Free (desk : Desk) (slot : Nat) : Prop :=
  ∀ caller : Caller, caller.key = slot → (desk.stage caller).owed = []

/-- A kept answer is not the marker and is alone in its slot until its frame comes, before its
domain ends. -/
def Apart (desk : Desk) : Input → Prop
  | .call caller reply pending => ∀ value, pending = true → reply.outcome true = some value →
      value ≠ nothingAwaiting ∧ desk.Free caller.key
  | .wantsFrame _ => True
  | .frame caller _ => desk.stage caller = .wanting → desk.Free caller.key
  | .unstaged _ => False
  | .gone domain => ∀ caller : Caller, caller.domain = domain → (desk.stage caller).owed = []

/-- The table holds what is owed to the one thread of its slot that has an answer coming. -/
structure Desk.Sound (desk : Desk) : Prop where
  exact : desk.Exact
  held : ∀ {caller value}, (desk.stage caller).owed = [value] →
    desk.awaiting caller.key = value ∧ value ≠ nothingAwaiting
  alone : ∀ {caller other : Caller}, (desk.stage caller).owed ≠ [] →
    (desk.stage other).owed ≠ [] → other.key = caller.key → other = caller
  idle : ∀ {slot}, desk.Free slot → desk.awaiting slot = nothingAwaiting

namespace Desk.Sound

variable {desk : Desk} {caller : Caller}

theorem start : Desk.start.Sound where
  exact _ := rfl
  held owed := by cases owed
  alone owed := absurd rfl owed
  idle _ := rfl

theorem same {after : Desk} (sound : desk.Sound) (awaiting : after.awaiting = desk.awaiting)
    (owed : ∀ caller, (after.stage caller).owed = (desk.stage caller).owed)
    (exact : after.Exact) : after.Sound where
  exact := exact
  held := by
    intro caller value
    rw [owed, awaiting]
    exact sound.held
  alone := by
    intro caller other
    rw [owed, owed]
    exact sound.alone
  idle := by
    intro slot free
    rw [awaiting]
    exact sound.idle fun caller at' => (owed caller).symm.trans (free caller at')

variable {stage : Stage}

theorem owed_update (none : (desk.stage caller).owed = []) (none' : stage.owed = [])
    (other : Caller) : (update desk.stage caller stage other).owed = (desk.stage other).owed := by
  by_cases here : other = caller
  · rw [here, update_self, none, none']
  · rw [update_of_ne here]

section

variable (sound : desk.Sound) (none : (desk.stage caller).owed = [])
include sound none

theorem setStage (none' : stage.owed = []) : (desk.setStage caller stage).Sound := by
  refine sound.same rfl (owed_update none none') fun other => ?_
  exact (sound.exact other).trans (congrArg (_ ++ ·) (owed_update none none' other).symm)

theorem finish (value : UInt64) : ((desk.result caller value).resume caller value).Sound := by
  refine sound.same rfl (owed_update none rfl) fun other => ?_
  have before := sound.exact other
  change update desk.results caller _ other = update desk.resumes caller _ other ++
    (update desk.stage caller .running other).owed
  by_cases here : other = caller
  · subst here
    rw [none] at before
    rw [update_self, update_self, update_self, before]
    simp [Stage.owed, Desk.result]
  · rw [update_of_ne here, update_of_ne here, update_of_ne here, before]

theorem await (real : value ≠ nothingAwaiting) (free : desk.Free caller.key) :
    (desk.awaitFrameForSignal caller value).Sound := by
  set after := desk.awaitFrameForSignal caller value
  have stage : ∀ other ≠ caller, after.stage other = desk.stage other := fun _ =>
    (update_of_ne · _ _)
  have here : after.stage caller = .done value := update_self ..
  -- Another thread with an answer coming has another slot.
  have elsewhere : ∀ other ≠ caller, (after.stage other).owed ≠ [] → other.key ≠ caller.key := by
    intro other differs owed same
    rw [stage _ differs] at owed
    exact owed (free other same)
  refine ⟨?_, ?_, ?_, ?_⟩
  · intro other
    have before := sound.exact other
    by_cases at' : other = caller
    · subst at'
      rw [here]
      change update desk.results other _ other = _
      rw [update_self, before, none, List.append_nil]
      rfl
    · rw [stage _ at']
      exact (update_of_ne at' _ _).trans before
  · intro other value' owed
    by_cases at' : other = caller
    · subst at'
      rw [here] at owed
      cases owed
      exact ⟨update_self .., real⟩
    · have apart := elsewhere _ at' (by rw [owed]; nofun)
      rw [stage _ at'] at owed
      exact ⟨(update_of_ne apart _ _).trans (sound.held owed).1, (sound.held owed).2⟩
  · intro first second owed owed' same
    by_cases at₁ : first = caller
    · by_contra at₂
      exact elsewhere _ (at₁ ▸ at₂) owed' (at₁ ▸ same)
    by_cases at₂ : second = caller
    · exact absurd (at₂ ▸ same.symm) (elsewhere _ at₁ owed)
    rw [stage _ at₁] at owed
    rw [stage _ at₂] at owed'
    exact sound.alone owed owed' same
  · intro slot empty
    by_cases at' : slot = caller.key
    · have owed := empty caller at'.symm
      rw [here] at owed
      cases owed
    · refine (update_of_ne at' _ _).trans (sound.idle fun other in' => ?_)
      rw [← stage other fun same => at' (same ▸ in'.symm)]
      exact empty other in'

theorem dispatch {reply : Reply}
    (apart : ∀ value, pending = true → reply.outcome true = some value →
      value ≠ nothingAwaiting ∧ desk.Free caller.key) :
    (desk.dispatch caller reply pending).Sound := by
  cases pending with
  | true =>
    cases reply with
    | value value => exact sound.await none (apart value rfl rfl).1 (apart value rfl rfl).2
    | park => exact sound.await none (apart eintr rfl rfl).1 (apart eintr rfl rfl).2
    | other => exact sound.setStage none rfl
  | false =>
    cases reply with
    | value value => exact sound.finish none value
    | park | other => exact sound.setStage none rfl

end

theorem deliver (sound : desk.Sound) {value : UInt64} (owed : (desk.stage caller).owed = [value]) :
    ((desk.keep caller.key nothingAwaiting).resume caller value).Sound := by
  have some' : (desk.stage caller).owed ≠ [] := by
    rw [owed]
    nofun
  have stage : ∀ other, (update desk.stage caller .running other).owed ≠ [] →
      other ≠ caller ∧ (desk.stage other).owed ≠ [] := by
    intro other owed'
    by_cases here : other = caller
    · rw [here, update_self] at owed'
      exact absurd rfl owed'
    · rw [update_of_ne here] at owed'
      exact ⟨here, owed'⟩
  refine ⟨?_, ?_, ?_, ?_⟩
  · intro other
    have before := sound.exact other
    change desk.results other = update desk.resumes caller _ other ++
      (update desk.stage caller .running other).owed
    by_cases here : other = caller
    · subst here
      rw [update_self, update_self, before, owed]
      exact (List.append_nil _).symm
    · rw [update_of_ne here, update_of_ne here, before]
  · intro other value' (owed' : (update desk.stage caller .running other).owed = _)
    obtain ⟨here, still⟩ := stage other (by rw [owed']; nofun)
    rw [update_of_ne here] at owed'
    have apart : other.key ≠ caller.key := fun same => here (sound.alone some' still same)
    exact ⟨(update_of_ne apart _ _).trans (sound.held owed').1, (sound.held owed').2⟩
  · intro first second owed' owed''
    exact sound.alone (stage first owed').2 (stage second owed'').2
  · intro slot free
    by_cases here : slot = caller.key
    · exact here ▸ update_self ..
    refine (update_of_ne here _ _).trans (sound.idle fun other in' => ?_)
    have owed' : (update desk.stage caller .running other).owed = [] := free other in'
    have differs : other ≠ caller := fun same => here (same ▸ in'.symm)
    rwa [update_of_ne differs] at owed'

theorem gone (sound : desk.Sound)
    (apart : ∀ caller : Caller, caller.domain = domain → (desk.stage caller).owed = []) :
    (desk.step (.gone domain)).Sound := by
  refine sound.same rfl (fun other => ?_) fun other => ?_
  · change (clearDomain domain .running desk.stage other).owed = _
    rw [clearDomain]
    split
    case isTrue here => exact (apart other here).symm
    case isFalse => rfl
  · change clearDomain domain [] desk.results other = clearDomain domain [] desk.resumes other ++
      (clearDomain domain .running desk.stage other).owed
    simp only [clearDomain]
    split
    case isTrue => rfl
    case isFalse => exact sound.exact other

theorem step (sound : desk.Sound) {input : Input} (apart : Apart desk input) :
    (desk.step input).Sound := by
  cases input with
  | call caller reply pending =>
    rw [Desk.step]
    split
    case isTrue running => exact sound.dispatch (by rw [running]; rfl) apart
    case isFalse => exact sound
  | wantsFrame caller =>
    rw [Desk.step]
    split
    case isTrue running => exact sound.setStage (by rw [running]; rfl) rfl
    case isFalse => exact sound
  | frame caller reply =>
    rw [Desk.step]
    cases stage : desk.stage caller with
    | running => exact sound
    | wanting =>
      have marker := sound.idle (apart stage)
      have untouched : desk.keep caller.key nothingAwaiting = desk := by
        rw [Desk.keep, ← marker, update_eq_self]
      rw [if_neg nofun, Desk.answerWithFrame, marker, if_neg (not_not_intro rfl), untouched]
      exact sound.dispatch (by rw [stage]; rfl) nofun
    | done value =>
      have owed : (desk.stage caller).owed = [value] := by
        rw [stage]
        rfl
      obtain ⟨held, real⟩ := sound.held owed
      rw [if_neg nofun, Desk.answerWithFrame, held, if_pos real]
      exact sound.deliver owed
  | unstaged caller => exact apart.elim
  | gone domain => exact sound.gone apart

end Desk.Sound

namespace Watched

variable {watched : Watched} {input : Input}

section

variable (desk : Desk) (caller : Caller) (reply : Reply) (pending : Bool)

theorem results_dispatch : (desk.dispatch caller reply pending).results =
    update desk.results caller (desk.results caller ++ (reply.outcome pending).toList) := by
  have same : update desk.results caller (desk.results caller ++ []) = desk.results := by
    rw [List.append_nil, update_eq_self]
  cases reply <;> cases pending <;> first | rfl | exact same.symm

theorem stage_dispatch : (desk.dispatch caller reply pending).stage = update desk.stage caller
    (if pending then (reply.outcome true).elim .running .done else .running) := by
  cases reply <;> cases pending <;> rfl

end

theorem stage_step (desk : Desk) (input : Input) :
    (desk.step input).stage = follow desk.stage input := by
  cases input with
  | call caller reply pending =>
    rw [Desk.step, follow]
    split
    case isTrue => exact stage_dispatch ..
    case isFalse => rfl
  | wantsFrame caller =>
    rw [Desk.step, follow]
    split <;> rfl
  | frame caller reply =>
    rw [Desk.step, follow]
    split
    case isTrue running => rw [← running, update_eq_self]
    case isFalse =>
      rw [Desk.answerWithFrame]
      split
      · rfl
      · exact stage_dispatch ..
  | unstaged caller =>
    rw [Desk.step, follow]
    split
    case isTrue running => rw [← running, update_eq_self]
    case isFalse => rfl
  | gone domain => rfl

/-- A call is carried out in the step that its outcome is told of, and in no other. -/
theorem results_step (sound : watched.desk.Sound) (apart : Apart watched.desk input)
    (told : watched.desk.results = watched.made) :
    (watched.desk.step input).results = tell watched.desk.stage watched.made input := by
  rw [← told]
  cases input with
  | call caller reply pending =>
    rw [Desk.step, tell]
    split
    case isTrue => exact results_dispatch ..
    case isFalse => rfl
  | wantsFrame caller =>
    rw [Desk.step]
    split <;> rfl
  | frame caller reply =>
    rw [Desk.step, tell]
    cases stage : watched.desk.stage caller with
    | running => rfl
    | wanting =>
      rw [if_neg nofun, if_pos rfl, Desk.answerWithFrame, sound.idle (apart stage),
        if_neg (not_not_intro rfl)]
      exact results_dispatch ..
    | done value =>
      obtain ⟨held, real⟩ := sound.held (by rw [stage]; rfl)
      rw [if_neg nofun, if_neg nofun, Desk.answerWithFrame, held, if_pos real]
      rfl
  | unstaged caller => exact apart.elim
  | gone domain => rfl

/-- However messages interleave, every call is carried out once and its caller goes on with its
result. -/
theorem calls_answered_to_callers
    (reached : Reached step (fun watched => Apart watched.desk) start watched) :
    watched.desk.results = watched.made ∧ watched.desk.stage = watched.stage ∧
      watched.desk.Exact := by
  have kept := reached.invariant (motive := fun watched : Watched => watched.desk.Sound ∧
      watched.desk.results = watched.made ∧ watched.desk.stage = watched.stage)
    ⟨.start, rfl, rfl⟩ fun {watched} input ⟨sound, told, stage⟩ apart => by
      refine ⟨sound.step apart, ?_, ?_⟩
      · rw [Watched.step, ← stage]
        exact results_step sound apart told
      · rw [Watched.step, ← stage]
        exact stage_step watched.desk input
  exact ⟨kept.2.1, kept.2.2, kept.1.exact⟩

/-- A call of one thread is interrupted while another thread's call finishes. -/
theorem calls_answered_to_callers_interleaved :
    let inputs : List Input := [.call ⟨1, 0⟩ (.value 5) true, .call ⟨1, 2⟩ (.value 6) false,
      .frame ⟨1, 0⟩ .park]
    let after := run step inputs start
    AllMeet step (fun watched => Apart watched.desk) inputs start ∧
      after.desk.results = after.made ∧ after.desk.stage = after.stage ∧ after.desk.Exact ∧
      after.desk.resumes ⟨1, 0⟩ = [5] := by
  intro inputs after
  have meets : AllMeet step (fun watched => Apart watched.desk) inputs start := by
    refine ⟨?_, nofun, nofun, trivial⟩
    rintro value _ kept
    cases kept
    exact ⟨by decide, fun _ _ => rfl⟩
  have answered := calls_answered_to_callers (Reached.run_of_meet inputs .start meets)
  exact ⟨meets, answered.1, answered.2.1, answered.2.2, by decide⟩

end Watched

/-- A call that answers `-1` with a signal pending is carried out twice; of two such calls in a
domain, one gets the other's result. -/
theorem calls_confused : let marked := run Desk.step [.call ⟨1, 0⟩ (.value nothingAwaiting) true,
      .frame ⟨1, 0⟩ (.value nothingAwaiting)] .start
    let threads := run Desk.step [.call ⟨1, 0⟩ (.value 5) true, .call ⟨1, 2⟩ (.value 6) true,
      .frame ⟨1, 0⟩ .park] .start
    (marked.results ⟨1, 0⟩ = [nothingAwaiting, nothingAwaiting] ∧
        marked.resumes ⟨1, 0⟩ = [nothingAwaiting] ∧ ¬marked.Exact) ∧
      threads.results ⟨1, 0⟩ = [5] ∧ threads.resumes ⟨1, 0⟩ = [6] ∧ ¬threads.Exact := by
  intro marked threads
  refine ⟨⟨by decide, by decide, ?_⟩, by decide, by decide, ?_⟩
  · intro exact
    exact absurd (exact ⟨1, 0⟩) (by decide)
  · intro exact
    exact absurd (exact ⟨1, 0⟩) (by decide)

end Serving

end Bhaskix.Hosted
