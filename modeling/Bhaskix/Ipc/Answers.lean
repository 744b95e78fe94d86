import Bhaskix.Ipc.Outcomes

namespace Bhaskix.Rendezvous

open Library Function
open List (mem_of_mem_filter mem_cons_self mem_cons_of_mem mem_cons mem_singleton)

/-- Something on its way: the call of a thread that will be answered or refused, or a request for a
thread that receives. -/
inductive Item
  | about (caller : ThreadId) (call : Nat)
  | aimed (receiver : ThreadId)
  deriving DecidableEq, Repr

def Letter.items (letter : Letter) (holder : ThreadId) : List Item :=
  if letter.answer then [.about holder letter.call]
  else [.about letter.sender letter.call, .aimed holder]

def Doing.items (doing : Doing) (self : ThreadId) : List Item :=
  match doing with
  | .handing _ partner _ call => [.about self call, .aimed partner]
  | .taking _ partner _ call => [.about partner call]
  | .answering caller _ call | .restoring caller call | .releasing caller call =>
    [.about caller call]
  | _ => []

theorem Doing.Plain.items {before : Doing} (plain : before.Plain after) (self : ThreadId) :
    after.items self = [] := by
  cases plain <;> rfl

inductive Thread.Holds (thread : Thread) (self : ThreadId) : Item → Prop
  | mailbox {letter item} (letterAt : thread.mailbox = some letter)
      (member : item ∈ letter.items self) : thread.Holds self item
  | lost {call} (lostAt : thread.answerLost = some call) :
      thread.Holds self (.about self call)
  | refused {status call} (refusedAt : thread.callRefused = some (status, call)) :
      thread.Holds self (.about self call)
  | owed {caller call} (owedAt : thread.replyTo = some (caller, call)) :
      thread.Holds self (.about caller call)
  | doing {item} (member : item ∈ thread.doing.items self) : thread.Holds self item

structure Thread.Fewer (before after : Thread) : Prop where
  mailbox : ∀ letter, after.mailbox = some letter → before.mailbox = some letter
  lost : ∀ call, after.answerLost = some call → before.answerLost = some call
  refused : ∀ told, after.callRefused = some told → before.callRefused = some told
  owed : ∀ owed, after.replyTo = some owed → before.replyTo = some owed
  doing : after.doing = before.doing

theorem Thread.Fewer.holds {before : Thread} (fewer : before.Fewer after)
    (holds : after.Holds self item) : before.Holds self item := by
  cases holds with
  | mailbox letterAt member => exact .mailbox (fewer.mailbox _ letterAt) member
  | lost lostAt => exact .lost (fewer.lost _ lostAt)
  | refused refusedAt => exact .refused (fewer.refused _ refusedAt)
  | owed owedAt => exact .owed (fewer.owed _ owedAt)
  | doing member => exact .doing (fewer.doing ▸ member)

variable (thread : Thread) (history : List Event)

theorem Thread.fewer_mailbox : thread.Fewer { thread with mailbox := none } :=
  ⟨nofun, fun _ => id, fun _ => id, fun _ => id, rfl⟩

theorem Thread.fewer_lost : thread.Fewer { thread with answerLost := none } :=
  ⟨fun _ => id, nofun, fun _ => id, fun _ => id, rfl⟩

theorem Thread.fewer_refused : thread.Fewer { thread with callRefused := none } :=
  ⟨fun _ => id, fun _ => id, nofun, fun _ => id, rfl⟩

theorem Thread.fewer_owed : thread.Fewer { thread with replyTo := none } :=
  ⟨fun _ => id, fun _ => id, fun _ => id, nofun, rfl⟩

inductive Endpoint.Holds (endpoint : Endpoint) : Item → Prop
  | sender {pending : PendingSend} (member : pending ∈ endpoint.senders.reduceOption) :
      endpoint.Holds (.about pending.thread pending.call)
  | receiver {receiver : ThreadId} (member : receiver ∈ endpoint.receivers.reduceOption) :
      endpoint.Holds (.aimed receiver)

inductive World.Outstanding (world : World) (item : Item) : Prop
  | queued (id : Nat) (holds : (world.endpoints id).Holds item)
  | held (thread : ThreadId) (holds : (world.threads thread).Holds thread item)

/-- What a step brings that was not there. A thread that takes an answer for a request will answer
whoever sent it. -/
inductive World.Created (world : World) : Input → Item → Prop
  | call {self id badge method args} (idle : (world.threads self).doing = .idle) :
      world.Created (.call self id badge method args) (.about self world.calls)
  | queue {self id bits refusal} (meets : (world.threads self).doing = .meeting id) :
      world.Created (.advance self bits refusal) (.aimed self)
  | mistake {self id bits refusal letter} (waits : (world.threads self).doing = .waiting id)
      (letterAt : (world.threads self).mailbox = some letter) (answer : letter.answer = true) :
      world.Created (.advance self bits refusal) (.about letter.sender letter.call)

namespace World

variable {world : World} {item : Item} {thread : ThreadId} {endpoint : Endpoint}
  {change : Thread → Thread} {id call : Nat} {doing : Doing} {caller : ThreadId}

theorem outstanding_modify (after : (world.modify thread change).Outstanding item) :
    world.Outstanding item ∨ (change (world.threads thread)).Holds thread item := by
  cases after with
  | queued id holds => exact .inl (.queued id holds)
  | held other holds =>
    by_cases same : other = thread
    · subst same
      rw [modify_self] at holds
      exact .inr holds
    · rw [modify_other same] at holds
      exact .inl (.held other holds)

theorem outstanding_fewer (after : (world.modify thread change).Outstanding item)
    (fewer : ∀ before : Thread, before.Fewer (change before)) : world.Outstanding item := by
  rcases outstanding_modify after with before | holds
  · exact before
  · exact .held thread ((fewer _).holds holds)

theorem outstanding_setEndpoint (after : (world.setEndpoint id endpoint).Outstanding item) :
    world.Outstanding item ∨ endpoint.Holds item := by
  cases after with
  | held thread holds => exact .inl (.held thread holds)
  | queued other holds =>
    by_cases same : other = id
    · subst same
      rw [setEndpoint_self] at holds
      exact .inr holds
    · rw [setEndpoint_other same] at holds
      exact .inl (.queued other holds)

theorem outstanding_goOn (after : (world.goOn thread doing).Outstanding item) :
    world.Outstanding item ∨ item ∈ doing.items thread := by
  rcases outstanding_modify after with before | holds
  · exact .inl before
  cases holds with
  | mailbox letterAt member => exact .inl (.held thread (.mailbox letterAt member))
  | lost lostAt => exact .inl (.held thread (.lost lostAt))
  | refused refusedAt => exact .inl (.held thread (.refused refusedAt))
  | owed owedAt => exact .inl (.held thread (.owed owedAt))
  | doing member => exact .inr member

theorem outstanding_goOn_plain
    (after : (world.goOn thread doing).Outstanding item) (plain : doing.items thread = []) :
    world.Outstanding item := by
  rcases outstanding_goOn after with before | member
  · exact before
  · rw [plain] at member
    contradiction

theorem outstanding_record (after : (world.record event).Outstanding item) :
    world.Outstanding item := by
  cases after with
  | queued id holds => exact .queued id holds
  | held thread holds => exact .held thread holds

theorem outstanding_shrink (fewer : ∀ item, endpoint.Holds item → (world.endpoints id).Holds item)
    (after : (world.setEndpoint id endpoint).Outstanding item) : world.Outstanding item := by
  rcases outstanding_setEndpoint after with before | holds
  · exact before
  · exact .queued id (fewer item holds)

theorem not_holds_empty : ¬({ Endpoint.empty with generation, live } : Endpoint).Holds item := by
  intro holds
  cases holds with
  | sender member | receiver member => simp [Endpoint.empty] at member

theorem holds_of_remove (holds : (endpoint.remove thread).Holds item) : endpoint.Holds item := by
  cases holds with
  | sender member =>
    rw [Endpoint.remove, Slots.reduceOption_clear] at member
    exact .sender (mem_of_mem_filter member)
  | receiver member =>
    rw [Endpoint.remove, Slots.reduceOption_clear] at member
    exact .receiver (mem_of_mem_filter member)

theorem outstanding_cancel
    (after : (world.cancel id thread).Outstanding item) : world.Outstanding item := by
  rw [cancel] at after
  split at after
  · exact outstanding_shrink (fun _ => holds_of_remove) after
  · exact after

theorem outstanding_cancelAll
    (after : (world.cancelAll thread).Outstanding item) : world.Outstanding item := by
  cases after with
  | held other holds => exact .held other holds
  | queued id holds =>
    refine .queued id ?_
    rw [cancelAll] at holds
    dsimp only at holds
    split at holds
    · exact holds_of_remove holds
    · exact holds

variable {letter : Letter}

theorem outstanding_post (after : (world.modify thread fun target =>
      { target with mailbox := some letter }).Outstanding item) :
    world.Outstanding item ∨ item ∈ letter.items thread := by
  rcases outstanding_modify after with before | holds
  · exact .inl before
  cases holds with
  | mailbox letterAt member =>
    cases letterAt
    exact .inr member
  | lost lostAt => exact .inl (.held thread (.lost lostAt))
  | refused refusedAt => exact .inl (.held thread (.refused refusedAt))
  | owed owedAt => exact .inl (.held thread (.owed owedAt))
  | doing member => exact .inl (.held thread (.doing member))

theorem outstanding_deliver (after : (world.deliver thread letter).2.Outstanding item) :
    world.Outstanding item ∨ item ∈ letter.items thread := by
  rw [deliver] at after
  split at after
  · exact outstanding_post after
  · exact .inl after

theorem outstanding_setReplyTarget
    (after : (world.setReplyTarget thread caller call).Outstanding item) :
    world.Outstanding item ∨ item ∈ [.about caller call] := by
  rcases outstanding_modify after with before | holds
  · exact .inl before
  cases holds with
  | mailbox letterAt member => exact .inl (.held thread (.mailbox letterAt member))
  | lost lostAt => exact .inl (.held thread (.lost lostAt))
  | refused refusedAt => exact .inl (.held thread (.refused refusedAt))
  | owed owedAt =>
    cases owedAt
    exact .inr mem_cons_self
  | doing member => exact .inl (.held thread (.doing member))

theorem outstanding_refuseCall (after : (world.refuseCall thread status call).Outstanding item) :
    world.Outstanding item ∨ item ∈ [.about thread call] := by
  rw [refuseCall] at after
  split at after
  · rcases outstanding_modify after with before | holds
    · exact .inl before
    cases holds with
    | mailbox letterAt member => exact .inl (.held thread (.mailbox letterAt member))
    | lost lostAt => exact .inl (.held thread (.lost lostAt))
    | refused refusedAt =>
      cases refusedAt
      exact .inr mem_cons_self
    | owed owedAt => exact .inl (.held thread (.owed owedAt))
    | doing member => exact .inl (.held thread (.doing member))
  · exact .inl after

theorem outstanding_abandonCaller (after : (world.abandonCaller caller call).Outstanding item) :
    world.Outstanding item ∨ item ∈ [.about caller call] := by
  rw [abandonCaller] at after
  split at after
  · rcases outstanding_modify after with before | holds
    · exact .inl before
    cases holds with
    | mailbox letterAt member => exact .inl (.held caller (.mailbox letterAt member))
    | lost lostAt =>
      cases lostAt
      exact .inr mem_cons_self
    | refused refusedAt => exact .inl (.held caller (.refused refusedAt))
    | owed owedAt => exact .inl (.held caller (.owed owedAt))
    | doing member => exact .inl (.held caller (.doing member))
  · exact .inl after

theorem outstanding_begun (after : ({ world with calls := world.calls + 1 }.record
      (.called self world.calls message)).Outstanding item) : world.Outstanding item := by
  cases after with
  | queued id holds => exact .queued id holds
  | held thread holds => exact .held thread holds

theorem doing_outstanding
    (at_ : (world.threads self).doing = doing) (member : item ∈ doing.items self) :
    world.Outstanding item :=
  .held self (.doing (at_ ▸ member))

theorem outstanding_take {input : Input} (after : (world.take input).Outstanding item) :
    world.Outstanding item ∨ world.Created input item := by
  generalize went : world.take input = result at after
  cases take_outcome went with
  | stays => exact .inl after
  | created _ | destroyed _ =>
    rcases outstanding_setEndpoint after with before | holds
    · exact .inl before
    · exact absurd holds not_holds_empty
  | @callMatched self id badge method args receiver receivers idle live first =>
    have taken := Slots.reduceOption_takeFirst first
    rcases outstanding_goOn after with met | member
    · rcases outstanding_setEndpoint met with begun | holds
      · exact .inl (outstanding_begun begun)
      refine .inl (.queued id ?_)
      cases holds with
      | sender member => exact .sender member
      | receiver member => exact .receiver (taken ▸ mem_cons_of_mem _ member)
    · simp only [Doing.items, mem_cons, List.not_mem_nil, or_false] at member
      rcases member with rfl | rfl
      · exact .inr (.call idle)
      · exact .inl (.queued id (.receiver (taken ▸ mem_cons_self)))
  | @callQueued self id badge method args senders idle live room =>
    rcases outstanding_goOn after with met | member
    · rcases outstanding_setEndpoint met with begun | holds
      · exact .inl (outstanding_begun begun)
      cases holds with
      | receiver member => exact .inl (.queued id (.receiver member))
      | sender member =>
        rcases mem_cons.mp ((Slots.reduceOption_putFirst room).mem_iff.mp member) with
          rfl | old
        · exact .inr (.call idle)
        · exact .inl (.queued id (.sender old))
    · contradiction
  | callFailed idle _ => exact .inl (outstanding_begun (outstanding_record after))
  | recvBegun idle | debtFree doing free => exact .inl (outstanding_goOn_plain after rfl)
  | moved plain => exact .inl (outstanding_goOn_plain after (plain.items _))
  | handed doing =>
    have delivered := outstanding_goOn_plain after rfl
    exact .inl ((outstanding_deliver delivered).elim id (doing_outstanding doing))
  | answerTaken doing letterAt =>
    have taken := outstanding_goOn_plain (outstanding_record after) rfl
    exact .inl (outstanding_fewer taken Thread.fewer_mailbox)
  | lossTaken doing lostAt =>
    have taken := outstanding_goOn_plain (outstanding_record after) rfl
    exact .inl (outstanding_fewer taken Thread.fewer_lost)
  | refusalTaken doing refusedAt =>
    have taken := outstanding_goOn_plain (outstanding_record after) rfl
    exact .inl (outstanding_fewer taken Thread.fewer_refused)
  | gaveUp doing _ => exact .inl (outstanding_goOn_plain (outstanding_record after) rfl)
  | @metSender self bits refusal id sender senders doing live first =>
    have taken := Slots.reduceOption_takeFirst first
    rcases outstanding_goOn after with met | member
    · refine .inl (outstanding_shrink (fun _ holds => ?_) met)
      cases holds with
      | sender member => exact .sender (taken ▸ mem_cons_of_mem _ member)
      | receiver member => exact .receiver member
    · cases mem_singleton.mp member
      exact .inl (.queued id (.sender (taken ▸ mem_cons_self)))
  | @metNobody self bits refusal id receivers doing live room =>
    rcases outstanding_goOn after with met | member
    · rcases outstanding_setEndpoint met with before | holds
      · exact .inl before
      cases holds with
      | sender member => exact .inl (.queued id (.sender member))
      | receiver member =>
        rcases mem_cons.mp ((Slots.reduceOption_putFirst room).mem_iff.mp member) with
          rfl | old
        · exact .inr (.queue doing)
        · exact .inl (.queued id (.receiver old))
    · contradiction
  | giftRefused doing =>
    have told := outstanding_goOn_plain (outstanding_record after) rfl
    exact .inl ((outstanding_refuseCall told).elim id (doing_outstanding doing))
  | requestTaken doing =>
    have set := outstanding_goOn_plain (outstanding_record after) rfl
    exact .inl ((outstanding_setReplyTarget set).elim id (doing_outstanding doing))
  | @letterTaken self bits refusal id letter doing letterAt =>
    rcases outstanding_goOn after with taken | member
    · exact .inl (outstanding_fewer taken Thread.fewer_mailbox)
    cases mem_singleton.mp member
    cases answer : letter.answer with
    | true => exact .inr (.mistake doing letterAt answer)
    | false =>
      refine .inl (.held self (.mailbox letterAt ?_))
      rw [Letter.items, if_neg (by rw [answer]; exact Bool.false_ne_true)]
      exact mem_cons_self
  | lossSeen doing lostAt =>
    exact .inl (outstanding_fewer (outstanding_goOn_plain after rfl) Thread.fewer_lost)
  | refusalSeen doing refusedAt =>
    exact .inl (outstanding_fewer (outstanding_goOn_plain after rfl) Thread.fewer_refused)
  | left doing => exact .inl (outstanding_cancel (outstanding_goOn_plain after rfl))
  | answerBegun idle owedAt | answerMisdirected idle owedAt | debtTaken doing owedAt =>
    rcases outstanding_goOn after with taken | member
    · exact .inl (outstanding_fewer taken Thread.fewer_owed)
    · cases mem_singleton.mp member
      exact .inl (.held _ (.owed owedAt))
  | answerDelivered doing present empty =>
    have posted := outstanding_goOn_plain (outstanding_record after) rfl
    exact .inl ((outstanding_post posted).elim id (doing_outstanding doing))
  | answerKept doing =>
    exact .inl ((outstanding_goOn after).elim id fun member => doing_outstanding doing member)
  | restored doing =>
    have set := outstanding_goOn_plain after rfl
    exact .inl ((outstanding_setReplyTarget set).elim id (doing_outstanding doing))
  | exitBegun idle => exact .inl (outstanding_cancelAll (outstanding_goOn_plain after rfl))
  | released doing =>
    have told := outstanding_goOn_plain (outstanding_record after) rfl
    exact .inl ((outstanding_abandonCaller told).elim id (doing_outstanding doing))
  | killed | reaped finished =>
    exact .inl (outstanding_fewer after fun _ =>
      ⟨fun _ => id, fun _ => id, fun _ => id, fun _ => id, rfl⟩)

end World

def Doing.calling : Doing → Option Nat
  | .handing _ _ _ call | .awaiting _ call => some call
  | _ => none

def Doing.receiving : Doing → Bool
  | .meeting _ | .taking _ _ _ _ | .waiting _ | .checking _ | .abandoning _ => true
  | _ => false

variable {before after : Doing}

theorem Doing.Next.calling (next : before.Next after)
    (calls : after.calling = some call) : before.calling = some call := by
  cases next with
  | handed => exact calls
  | plain plain => cases plain <;> contradiction
  | _ => contradiction

theorem Doing.Next.receiving (next : before.Next after)
    (receives : after.receiving = true) : before.receiving = true := by
  cases next with
  | plain plain => cases plain <;> first | rfl | contradiction
  | _ => first | rfl | contradiction

namespace World

variable {world : World} {thread : ThreadId}

theorem calling_take {call : Nat}
    (calls : ((world.take input).threads thread).doing.calling = some call) :
    (world.threads thread).doing.calling = some call ∨
      (world.threads thread).doing = .idle ∧ call = world.calls ∧
        ∃ id badge method args, input = .call thread id badge method args := by
  rcases @turns_take world input thread with same | turns
  · exact .inl (same ▸ calls)
  generalize ((world.take input).threads thread).doing = doing at turns calls
  cases turns with
  | hands idle | awaits idle => exact .inr ⟨idle, (Option.some.inj calls).symm, _, _, _, _, rfl⟩
  | goesOn next => exact .inl (next.calling calls)
  | _ => contradiction

theorem receiving_take (receives : ((world.take input).threads thread).doing.receiving = true) :
    (world.threads thread).doing.receiving = true ∨
      (world.threads thread).doing = .idle ∧ ∃ id bits, input = .recvEither thread id bits := by
  rcases @turns_take world input thread with same | turns
  · exact .inl (same ▸ receives)
  generalize ((world.take input).threads thread).doing = doing at turns receives
  cases turns with
  | receives idle => exact .inr ⟨idle, _, _, rfl⟩
  | goesOn next => exact .inl (next.receiving receives)
  | _ => contradiction

structure Settled (world : World) (thread : ThreadId) : Prop where
  about : ∀ call, ¬world.Outstanding (.about thread call)
  aimed : ¬world.Outstanding (.aimed thread)

/-- A thread calls and receives only when nothing of what it did before is outstanding. -/
def Careful (world : World) : Input → Prop
  | .call self _ _ _ _ | .recvEither self _ _ => world.Settled self
  | _ => True

structure Tidy (world : World) : Prop where
  own : ∀ thread call, (world.threads thread).doing.calling = some call →
    ∀ other, world.Outstanding (.about thread other) → other = call
  unaimed : ∀ thread call, (world.threads thread).doing.calling = some call →
    ¬world.Outstanding (.aimed thread)
  silent : ∀ thread, (world.threads thread).doing.receiving = true →
    ∀ call, ¬world.Outstanding (.about thread call)

theorem Tidy.request (tidy : world.Tidy) (receives : (world.threads thread).doing.receiving = true)
    (letterAt : (world.threads thread).mailbox = some letter) : letter.answer = false := by
  rw [Bool.eq_false_iff]
  intro answer
  refine tidy.silent thread receives letter.call (.held thread (.mailbox letterAt ?_))
  rw [Letter.items, if_pos answer]
  exact List.mem_singleton_self _

theorem Tidy.answer (tidy : world.Tidy) {id call : Nat}
    (awaits : (world.threads thread).doing = .awaiting id call)
    (letterAt : (world.threads thread).mailbox = some letter) :
    letter.answer = true ∧ letter.call = call := by
  have calls : (world.threads thread).doing.calling = some call := by
    rw [awaits]
    rfl
  cases answer : letter.answer with
  | false =>
    refine absurd (.held thread (.mailbox letterAt ?_)) (tidy.unaimed thread call calls)
    rw [Letter.items, if_neg (by rw [answer]; exact Bool.false_ne_true)]
    exact mem_cons_of_mem _ (List.mem_singleton_self _)
  | true =>
    refine ⟨rfl, tidy.own thread call calls letter.call (.held thread (.mailbox letterAt ?_))⟩
    rw [Letter.items, if_pos answer]
    exact List.mem_singleton_self _

theorem Tidy.created (tidy : world.Tidy) (created : world.Created input item) :
    (∃ self, item = .about self world.calls ∧ (world.threads self).doing = .idle ∧
      ∃ id badge method args, input = .call self id badge method args) ∨
    ∃ self id, item = .aimed self ∧ (world.threads self).doing = .meeting id := by
  cases created with
  | call idle => exact .inl ⟨_, rfl, idle, _, _, _, _, rfl⟩
  | queue meets => exact .inr ⟨_, _, rfl, meets⟩
  | mistake waits letterAt answer =>
    have request := tidy.request (by rw [waits]; rfl) letterAt
    rw [answer] at request
    contradiction

theorem Tidy.take (tidy : world.Tidy) (careful : world.Careful input) :
    (world.take input).Tidy := by
  constructor
  · intro thread call calls other after
    rcases outstanding_take after with before | created
    · rcases calling_take calls with already | ⟨_, _, _, _, _, _, rfl⟩
      · exact tidy.own thread call already other before
      · exact absurd before (careful.about other)
    rcases tidy.created created with ⟨self, same, idle, id, badge, method, args, rfl⟩ |
      ⟨_, _, same, _⟩
    · cases same
      rcases calling_take calls with already | ⟨_, now, _⟩
      · rw [idle] at already
        contradiction
      · exact now.symm
    · contradiction
  · intro thread call calls after
    rcases outstanding_take after with before | created
    · rcases calling_take calls with already | ⟨_, _, _, _, _, _, rfl⟩
      · exact tidy.unaimed thread call already before
      · exact careful.aimed before
    rcases tidy.created created with ⟨_, same, _⟩ | ⟨self, id, same, meets⟩
    · contradiction
    cases same
    rcases calling_take calls with already | ⟨idle, _⟩
    · rw [meets] at already
      contradiction
    · rw [meets] at idle
      contradiction
  · intro thread receives call after
    rcases outstanding_take after with before | created
    · rcases receiving_take receives with already | ⟨_, _, _, rfl⟩
      · exact tidy.silent thread already call before
      · exact careful.about call before
    rcases tidy.created created with ⟨self, same, idle, id, badge, method, args, rfl⟩ |
      ⟨_, _, same, _⟩
    · cases same
      rcases receiving_take receives with already | ⟨_, _, _, same⟩
      · rw [idle] at already
        contradiction
      · contradiction
    · contradiction

theorem not_outstanding_start : ¬start.Outstanding item := by
  intro outstanding
  cases outstanding with
  | queued id holds => exact not_holds_empty holds
  | held thread holds => cases holds <;> contradiction

theorem tidy_start : start.Tidy :=
  ⟨fun _ _ _ _ some_ => absurd some_ not_outstanding_start, fun _ _ _ => not_outstanding_start,
    fun _ _ _ => not_outstanding_start⟩

end World

def Event.Taken (server caller : ThreadId) (call : Nat) : Prop :=
  ∃ message, .took server caller call message ∈ history

def Doing.Recorded (self : ThreadId) : Doing → Prop
  | .handing _ _ message call => .called self call message ∈ history
  | .taking _ partner message call => .called partner call message ∈ history
  | .answering caller _ call | .restoring caller call | .releasing caller call =>
    Event.Taken history self caller call
  | _ => True

structure Thread.Recorded (history : List Event) (owner : ThreadId) (thread : Thread) : Prop where
  request : ∀ letter, thread.mailbox = some letter → letter.answer = false →
    .called letter.sender letter.call letter.message ∈ history
  answer : ∀ letter, thread.mailbox = some letter → letter.answer = true →
    .answered letter.sender owner letter.call letter.message ∈ history
  lost : ∀ call, thread.answerLost = some call → ∃ server, .abandoned server owner call ∈ history
  refused : ∀ status call, thread.callRefused = some (status, call) →
    ∃ server, .refused server owner call status ∈ history
  owed : ∀ caller call, thread.replyTo = some (caller, call) → Event.Taken history owner caller call
  doing : thread.doing.Recorded history owner

structure World.Recorded (world : World) : Prop where
  numbered : ∀ caller call message, .called caller call message ∈ world.history →
    call < world.calls
  queued : ∀ id, ∀ pending ∈ (world.endpoints id).senders.reduceOption,
    .called pending.thread pending.call pending.message ∈ world.history
  threads : ∀ thread, (world.threads thread).Recorded world.history thread

def Event.Caused (earlier : List Event) : Event → Prop
  | .called _ call _ => ∀ other message, .called other call message ∉ earlier
  | .took _ caller call message => .called caller call message ∈ earlier
  | .answered server caller call _ | .abandoned server caller call =>
    Event.Taken earlier server caller call
  | .refused _ caller call _ => ∃ message, .called caller call message ∈ earlier
  | .returned caller call (.ok message) => ∃ server, .answered server caller call message ∈ earlier
  | .returned caller call (.error .serverGone) => ∃ server, .abandoned server caller call ∈ earlier
  | .returned caller call (.error (.refused status)) =>
    ∃ server, .refused server caller call status ∈ earlier
  | .returned _ _ (.error _) => True

def Event.AllCaused : List Event → Prop
  | [] => True
  | event :: earlier => event.Caused earlier ∧ AllCaused earlier

theorem Event.AllCaused.of_append
    (all : Event.AllCaused (newer ++ event :: earlier)) : event.Caused earlier := by
  induction newer with
  | nil => exact all.1
  | cons _ _ ih => exact ih all.2

section

variable {history : List Event} {self : ThreadId}

theorem Event.Taken.mono (taken : Event.Taken history server caller call) (more : history ⊆ later) :
    Event.Taken later server caller call :=
  taken.imp fun _ member => more member

theorem Doing.Recorded.mono {doing : Doing} (recorded : doing.Recorded history self)
    (more : history ⊆ later) : doing.Recorded later self := by
  cases doing with
  | handing id partner message call | taking id partner message call => exact more recorded
  | answering caller message call | restoring owed call | releasing caller call =>
    exact Event.Taken.mono recorded more
  | _ => trivial

theorem Thread.Recorded.mono {thread : Thread} (recorded : thread.Recorded history self)
    (more : history ⊆ later) : thread.Recorded later self where
  request letter letterAt request := more (recorded.request letter letterAt request)
  answer letter letterAt answer := more (recorded.answer letter letterAt answer)
  lost call lostAt := (recorded.lost call lostAt).imp fun _ member => more member
  refused status call refusedAt :=
    (recorded.refused status call refusedAt).imp fun _ member => more member
  owed caller call owedAt := (recorded.owed caller call owedAt).mono more
  doing := recorded.doing.mono more

theorem Thread.Recorded.fewer {before after : Thread} (recorded : before.Recorded history self)
    (fewer : before.Fewer after) : after.Recorded history self where
  request letter letterAt := recorded.request letter (fewer.mailbox letter letterAt)
  answer letter letterAt := recorded.answer letter (fewer.mailbox letter letterAt)
  lost call lostAt := recorded.lost call (fewer.lost call lostAt)
  refused status call refusedAt := recorded.refused status call (fewer.refused _ refusedAt)
  owed caller call owedAt := recorded.owed caller call (fewer.owed _ owedAt)
  doing := fewer.doing ▸ recorded.doing

end

namespace World.Recorded

variable {world : World} (recorded : world.Recorded)
include recorded

variable {thread : ThreadId}

theorem modify (changed : (change (world.threads thread)).Recorded world.history thread) :
    (world.modify thread change).Recorded := by
  refine { recorded with threads := fun other => ?_ }
  by_cases same : other = thread
  · subst same
    rw [modify_self]
    exact changed
  · rw [modify_other same]
    exact recorded.threads other

theorem fewer {thread : ThreadId} {change : Thread → Thread}
    (fewer : ∀ before : Thread, before.Fewer (change before)) :
    (world.modify thread change).Recorded :=
  recorded.modify ((recorded.threads thread).fewer (fewer _))

theorem goOn {thread : ThreadId} (doing : Doing) (known : doing.Recorded world.history thread) :
    (world.goOn thread doing).Recorded := by
  have before := recorded.threads thread
  exact recorded.modify { before with doing := known }

theorem setEndpoint {id : Nat} {endpoint : Endpoint}
    (known : ∀ pending ∈ endpoint.senders.reduceOption,
      .called pending.thread pending.call pending.message ∈ world.history) :
    (world.setEndpoint id endpoint).Recorded := by
  refine { recorded with queued := fun other pending member => ?_ }
  by_cases same : other = id
  · subst same
    rw [setEndpoint_self] at member
    exact known pending member
  · rw [setEndpoint_other same] at member
    exact recorded.queued other pending member

theorem record (plain : ∀ caller call message, event ≠ .called caller call message) :
    (world.record event).Recorded := by
  refine ⟨fun caller call message member => ?_, fun id pending member => ?_, fun thread => ?_⟩
  · rcases mem_cons.mp member with new | old
    · exact absurd new.symm (plain caller call message)
    · exact recorded.numbered caller call message old
  · exact mem_cons_of_mem _ (recorded.queued id pending member)
  · exact (recorded.threads thread).mono (List.subset_cons_self _ _)

theorem begun (self : ThreadId) (message : Message) :
    ({ world with calls := world.calls + 1 }.record
      (.called self world.calls message)).Recorded := by
  refine ⟨fun caller call request member => ?_, fun id pending member => ?_, fun thread => ?_⟩
  · rcases mem_cons.mp member with new | old
    · cases new
      exact Nat.lt_succ_self _
    · exact Nat.lt_succ_of_lt (recorded.numbered caller call request old)
  · exact mem_cons_of_mem _ (recorded.queued id pending member)
  · exact (recorded.threads thread).mono (List.subset_cons_self _ _)

theorem post {thread : ThreadId} {letter : Letter} (request : letter.answer = false →
      .called letter.sender letter.call letter.message ∈ world.history)
    (answer : letter.answer = true →
      .answered letter.sender thread letter.call letter.message ∈ world.history) :
    (world.modify thread fun target => { target with mailbox := some letter }).Recorded := by
  have before := recorded.threads thread
  refine recorded.modify ⟨fun other letterAt => ?_, fun other letterAt => ?_, before.lost,
    before.refused, before.owed, before.doing⟩
  · cases letterAt
    exact request
  · cases letterAt
    exact answer

theorem owe {thread caller : ThreadId} {call : Nat}
    (taken : Event.Taken world.history thread caller call) :
    (world.setReplyTarget thread caller call).Recorded := by
  have before := recorded.threads thread
  refine recorded.modify { before with owed := fun other number owedAt => ?_ }
  cases owedAt
  exact taken

theorem deliver {thread : ThreadId} {letter : Letter} (request : letter.answer = false)
    (known : .called letter.sender letter.call letter.message ∈ world.history) :
    (world.deliver thread letter).2.Recorded := by
  rw [World.deliver]
  split
  · exact recorded.post (fun _ => known) fun answer => by cases request.symm.trans answer
  · exact recorded

theorem refuseCall {thread : ThreadId} {status : UInt32} {call : Nat} {server : ThreadId}
    (told : .refused server thread call status ∈ world.history) :
    (world.refuseCall thread status call).Recorded := by
  rw [World.refuseCall]
  split
  · have before := recorded.threads thread
    refine recorded.modify { before with refused := fun code about at_ => ?_ }
    cases at_
    exact ⟨server, told⟩
  · exact recorded

theorem abandonCaller {caller : ThreadId} {call : Nat} {server : ThreadId}
    (told : .abandoned server caller call ∈ world.history) :
    (world.abandonCaller caller call).Recorded := by
  rw [World.abandonCaller]
  split
  · have before := recorded.threads caller
    refine recorded.modify { before with lost := fun about at_ => ?_ }
    cases at_
    exact ⟨server, told⟩
  · exact recorded

theorem cancel {id : Nat} : (world.cancel id thread).Recorded := by
  rw [World.cancel]
  split
  · refine recorded.setEndpoint fun pending member => ?_
    rw [Endpoint.remove, Slots.reduceOption_clear] at member
    exact recorded.queued id pending (mem_of_mem_filter member)
  · exact recorded

theorem cancelAll : (world.cancelAll thread).Recorded := by
  refine { recorded with queued := fun id pending member => ?_ }
  rw [World.cancelAll] at member
  dsimp only at member
  split at member
  · rw [Endpoint.remove, Slots.reduceOption_clear] at member
    exact recorded.queued id pending (mem_of_mem_filter member)
  · exact recorded.queued id pending member

theorem doing_of
    (at_ : (world.threads thread).doing = doing) : doing.Recorded world.history thread :=
  at_ ▸ (recorded.threads thread).doing

end World.Recorded

namespace World

variable {world : World}

theorem refuseCall_record (event : Event) (thread : ThreadId) (status : UInt32) (call : Nat) :
    (world.record event).refuseCall thread status call =
      (world.refuseCall thread status call).record event := by
  rw [refuseCall, refuseCall, apply_ite (record · event)]
  rfl

theorem abandonCaller_record (event : Event) (caller : ThreadId) (call : Nat) :
    (world.record event).abandonCaller caller call =
      (world.abandonCaller caller call).record event := by
  rw [abandonCaller, abandonCaller, apply_ite (record · event)]
  rfl

theorem Recorded.take (recorded : world.Recorded) (tidy : world.Tidy) (input : Input) :
    (world.take input).Recorded := by
  generalize went : world.take input = result
  cases take_outcome went with
  | stays => exact recorded
  | created _ | destroyed _ => exact recorded.setEndpoint (by simp [Endpoint.empty])
  | @callMatched self id badge method args receiver receivers idle live first =>
    have begun := recorded.begun self { method, args, badge }
    have met := @Recorded.setEndpoint _ begun id { world.endpoints id with receivers }
      (begun.queued id)
    exact met.goOn (.handing id receiver { method, args, badge } world.calls) mem_cons_self
  | @callQueued self id badge method args senders idle live room =>
    have begun := recorded.begun self { method, args, badge }
    refine (begun.setEndpoint fun pending member => ?_).goOn (.awaiting id world.calls) trivial
    rcases mem_cons.mp ((Slots.reduceOption_putFirst room).mem_iff.mp member) with rfl | old
    · exact mem_cons_self
    · exact begun.queued id pending old
  | callFailed _ _ => exact (recorded.begun _ _).record nofun
  | recvBegun _ => exact recorded.goOn (.meeting _) trivial
  | @moved self bits refusal doing plain =>
    refine recorded.goOn doing ?_
    generalize (world.threads self).doing = before at plain
    cases plain <;> trivial
  | @handed self bits refusal id partner message call doing =>
    have known : .called self call message ∈ world.history := recorded.doing_of doing
    exact (@Recorded.deliver _ recorded partner
      { message, sender := self, call, answer := false } rfl known).goOn (.awaiting id call)
      trivial
  | answerTaken _ _ => exact ((recorded.fewer Thread.fewer_mailbox).goOn .idle trivial).record nofun
  | lossTaken _ _ => exact ((recorded.fewer Thread.fewer_lost).goOn .idle trivial).record nofun
  | refusalTaken _ _ =>
    exact ((recorded.fewer Thread.fewer_refused).goOn .idle trivial).record nofun
  | gaveUp _ _ => exact (recorded.goOn .idle trivial).record nofun
  | @metSender self bits refusal id sender senders doing live first =>
    have taken := Slots.reduceOption_takeFirst first
    have met := @Recorded.setEndpoint _ recorded id { world.endpoints id with senders }
      fun pending member => recorded.queued id pending (taken ▸ mem_cons_of_mem _ member)
    exact met.goOn (.taking id sender.thread sender.message sender.call)
      (recorded.queued id sender (taken ▸ mem_cons_self))
  | @metNobody self bits refusal id receivers _ _ _ =>
    have met := @Recorded.setEndpoint _ recorded id { world.endpoints id with receivers }
      (recorded.queued id)
    exact met.goOn (.waiting id) trivial
  | @giftRefused self bits status id partner message call doing =>
    have told : (world.record (.refused self partner call status)).Recorded :=
      recorded.record nofun
    have refused := @Recorded.refuseCall _ told partner status call self mem_cons_self
    rw [refuseCall_record] at refused
    have again := @Recorded.goOn _ refused self (.meeting id) trivial
    exact again
  | @requestTaken self bits id partner message call doing =>
    have told : (world.record (.took self partner call message)).Recorded := recorded.record nofun
    have owed := @Recorded.owe _ told self partner call ⟨message, mem_cons_self⟩
    have returned := @Recorded.goOn _ owed self .idle trivial
    exact returned
  | @letterTaken self bits refusal id letter doing letterAt =>
    have request := tidy.request (by rw [doing]; rfl) letterAt
    have known := (recorded.threads self).request letter letterAt request
    have taken := @Recorded.fewer _ recorded self _ Thread.fewer_mailbox
    exact taken.goOn (.taking id letter.sender letter.message letter.call) known
  | lossSeen _ _ => exact (recorded.fewer Thread.fewer_lost).goOn (.abandoning _) trivial
  | refusalSeen _ _ => exact (recorded.fewer Thread.fewer_refused).goOn (.abandoning _) trivial
  | left _ => exact recorded.cancel.goOn .idle trivial
  | @answerBegun self caller message call _ owedAt =>
    exact (recorded.fewer Thread.fewer_owed).goOn (.answering caller message call)
      ((recorded.threads self).owed _ _ owedAt)
  | @answerMisdirected self caller owed message call _ owedAt =>
    exact (recorded.fewer Thread.fewer_owed).goOn (.restoring owed call)
      ((recorded.threads self).owed _ _ owedAt)
  | @answerDelivered self bits refusal caller message call doing present empty =>
    have told : (world.record (.answered self caller call message)).Recorded :=
      recorded.record nofun
    have posted := @Recorded.post _ told caller
      { message, sender := self, call, answer := true } nofun fun _ => mem_cons_self
    have returned := @Recorded.goOn _ posted self .idle trivial
    exact returned
  | @answerKept self bits refusal caller message call doing =>
    have taken : Event.Taken world.history self caller call := recorded.doing_of doing
    exact recorded.goOn (.restoring caller call) taken
  | @restored self bits refusal owed call doing =>
    have taken : Event.Taken world.history self owed call := recorded.doing_of doing
    exact (recorded.owe taken).goOn .idle trivial
  | exitBegun _ => exact recorded.cancelAll.goOn .settling trivial
  | debtFree _ _ => exact recorded.goOn .finishing trivial
  | @debtTaken self bits refusal caller call doing owedAt =>
    exact (recorded.fewer Thread.fewer_owed).goOn (.releasing caller call)
      ((recorded.threads self).owed _ _ owedAt)
  | @released self bits refusal caller call doing =>
    have told : (world.record (.abandoned self caller call)).Recorded := recorded.record nofun
    have lost := @Recorded.abandonCaller _ told caller call self mem_cons_self
    rw [abandonCaller_record] at lost
    have gone := @Recorded.goOn _ lost self .finishing trivial
    exact gone
  | killed | reaped _ =>
    refine recorded.fewer ?_
    exact fun _ => ⟨fun _ => id, fun _ => id, fun _ => id, fun _ => id, rfl⟩

theorem history_deliver (thread : ThreadId) (letter : Letter) :
    (world.deliver thread letter).2.history = world.history := by
  rw [deliver]
  split <;> rfl

theorem history_refuseCall (thread : ThreadId) (status : UInt32) (call : Nat) :
    (world.refuseCall thread status call).history = world.history := by
  rw [refuseCall]
  split <;> rfl

theorem history_abandonCaller (caller : ThreadId) (call : Nat) :
    (world.abandonCaller caller call).history = world.history := by
  rw [abandonCaller]
  split <;> rfl

theorem history_cancel (id : Nat) (thread : ThreadId) :
    (world.cancel id thread).history = world.history := by
  rw [cancel]
  split <;> rfl

theorem recorded_start : start.Recorded where
  numbered _ _ _ member := absurd member List.not_mem_nil
  queued _ _ member := by simp [start, Endpoint.empty] at member
  threads _ := ⟨nofun, nofun, nofun, nofun, nofun, trivial⟩

theorem allCaused_take (recorded : world.Recorded) (tidy : world.Tidy)
    (caused : Event.AllCaused world.history) (input : Input) :
    Event.AllCaused (world.take input).history := by
  generalize went : world.take input = result
  have fresh (self : ThreadId) (message : Message) :
      Event.AllCaused (.called self world.calls message :: world.history) :=
    ⟨fun other request member => absurd (recorded.numbered _ _ _ member) (Nat.lt_irrefl _), caused⟩
  cases take_outcome went with
  | callMatched _ _ _ | callQueued _ _ _ => exact fresh _ _
  | callFailed _ plain =>
    refine ⟨?_, fresh _ _⟩
    rcases plain with rfl | rfl <;> trivial
  | @handed self _ _ id partner message call doing =>
    have same := world.history_deliver partner { message, sender := self, call, answer := false }
    exact same.symm ▸ caused
  | @answerTaken self bits refusal id call letter doing letterAt =>
    obtain ⟨answer, rfl⟩ := tidy.answer doing letterAt
    exact ⟨⟨letter.sender, (recorded.threads self).answer letter letterAt answer⟩, caused⟩
  | @lossTaken self bits refusal id call lost doing lostAt =>
    have own := tidy.own self call (by rw [doing]; rfl) lost (.held self (.lost lostAt))
    subst own
    exact ⟨(recorded.threads self).lost lost lostAt, caused⟩
  | @refusalTaken self bits refusal id call about status doing refusedAt =>
    have own := tidy.own self call (by rw [doing]; rfl) about (.held self (.refused refusedAt))
    subst own
    exact ⟨(recorded.threads self).refused status about refusedAt, caused⟩
  | gaveUp _ quiet => exact ⟨by cases quiet <;> trivial, caused⟩
  | @giftRefused self bits status id partner message call doing =>
    have same := world.history_refuseCall partner status call
    have called : .called partner call message ∈ world.history := recorded.doing_of doing
    exact ⟨⟨message, same.symm ▸ called⟩, same.symm ▸ caused⟩
  | requestTaken doing | answerDelivered doing _ _ => exact ⟨recorded.doing_of doing, caused⟩
  | @left self bits refusal id _ =>
    have same := world.history_cancel id self
    exact same.symm ▸ caused
  | @released self bits refusal caller call doing =>
    have same := world.history_abandonCaller caller call
    have taken : Event.Taken world.history self caller call := recorded.doing_of doing
    exact ⟨same.symm ▸ taken, same.symm ▸ caused⟩
  | _ => exact caused

structure Sound (world : World) : Prop where
  recorded : world.Recorded
  tidy : world.Tidy
  caused : Event.AllCaused world.history

theorem sound_start : start.Sound :=
  ⟨recorded_start, tidy_start, trivial⟩

theorem Sound.take (sound : world.Sound) (careful : world.Careful input) :
    (world.take input).Sound where
  recorded := sound.recorded.take sound.tidy input
  tidy := sound.tidy.take careful
  caused := allCaused_take sound.recorded sound.tidy sound.caused input

/-- Each call returns what is its own: an answer passed to `reply` by a server that received its
message, or news of this very call. -/
theorem returned_own {newer earlier : List Event} {event : Event}
    (reached : Reached take Careful start world)
    (happened : world.history = newer ++ event :: earlier) : event.Caused earlier := by
  have sound := reached.invariant (motive := Sound) sound_start
    fun _ sound careful => sound.take careful
  exact Event.AllCaused.of_append (happened ▸ sound.caused)

def question : Message :=
  { method := 7, args := .replicate 4 0, badge := 0 }

def served : List Input :=
  [.create, .recvEither 2 0 0, .advance 2 0 none]

def roundTrip : List Input :=
  [.call 1 0 0 7 (.replicate 4 0), .advance 1 0 none, .advance 2 0 none, .advance 2 0 none,
    .reply 2 1 question, .advance 2 0 none, .advance 1 0 none]

theorem not_outstanding_created : ¬(start.take .create).Outstanding item := by
  intro outstanding
  rcases outstanding_take outstanding with before | created
  · exact not_outstanding_start before
  · cases created

theorem served_outstanding (some_ : (run take served start).Outstanding item) :
    item = .aimed 2 := by
  rcases @outstanding_take ((start.take .create).take (.recvEither 2 0 0)) item (.advance 2 0 none)
    some_ with before | created
  · rcases outstanding_take before with before | created
    · exact absurd before not_outstanding_created
    · cases created
  · cases created with
    | queue _ => rfl
    | mistake _ letterAt _ => cases letterAt

theorem served_careful : AllMeet take Careful served start :=
  ⟨trivial, ⟨fun _ => not_outstanding_created, not_outstanding_created⟩, trivial, trivial⟩

theorem roundTrip_careful : AllMeet take Careful roundTrip (run take served start) := by
  refine ⟨⟨fun call some_ => ?_, fun some_ => ?_⟩, trivial, trivial, trivial, trivial, trivial,
    trivial, trivial⟩
  · exact absurd (served_outstanding some_) nofun
  · exact absurd (served_outstanding some_) nofun

theorem returned_own_roundTrip :
    Event.Caused (run take roundTrip (run take served start)).history.tail
      (.returned 1 0 (.ok question)) :=
  @returned_own _ [] _ _ ((Reached.start.run_of_meet served served_careful).run_of_meet roundTrip
    roundTrip_careful) rfl

/-- A receiver that leaves with a notification while a caller is about to deliver to it, and then
calls. -/
def misread : List Input :=
  [.create, .create, .recvEither 2 0 0, .advance 2 0 none, .call 1 0 0 7 (.replicate 4 0),
    .advance 2 0 none, .advance 2 1 none, .advance 1 0 none, .call 2 1 0 8 (.replicate 4 0),
    .advance 2 0 none]

theorem not_returned_own : ¬∀ world : World, Reached take (fun _ _ => True) start world →
      ∀ newer event earlier, world.history = newer ++ event :: earlier → event.Caused earlier := by
  intro always
  have caused := always _ (Reached.start.run misread) [] (.returned 2 1 (.ok question))
    [.called 2 1 { question with method := 8 }, .called 1 0 question] rfl
  obtain ⟨server, member⟩ := caused
  simp at member

end World

end Bhaskix.Rendezvous
