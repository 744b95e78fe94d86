import Bhaskix.Ipc.Rendezvous

namespace Bhaskix.Rendezvous

open Library Function

inductive Doing.Plain : Doing → Doing → Prop
  | unserved {id} : Plain (.meeting id) .idle
  | blocked {id} : Plain (.waiting id) (.checking id)
  | abandoned {id} : Plain (.waiting id) (.abandoning id)
  | quiet {id} : Plain (.checking id) (.waiting id)
  | finished : Plain .finishing .finished

inductive IpcError.Quiet : IpcError → Prop
  | dying : Quiet .callerDying
  | gone : Quiet .noSuchEndpoint

namespace World

inductive Outcome (world : World) : Input → World → Prop
  | stays {input} : world.Outcome input world
  | created {index} (vacant : world.vacant = some index) :
      world.Outcome .create (world.setEndpoint index
        { Endpoint.empty with generation := (world.endpoints index).generation, live := true })
  | destroyed {id} (live : (world.endpoints id).live = true) :
      world.Outcome (.destroy id) (world.setEndpoint id
        { Endpoint.empty with generation := (world.endpoints id).generation + 1 })
  | callMatched {self id badge method args receiver receivers}
      (idle : (world.threads self).doing = .idle) (live : (world.endpoints id).live = true)
      (first : Slots.takeFirst (world.endpoints id).receivers = some (receiver, receivers)) :
      world.Outcome (.call self id badge method args)
        ((({ world with calls := world.calls + 1 }.record
          (.called self world.calls { method, args, badge })).setEndpoint id
            { world.endpoints id with receivers }).goOn self
              (.handing id receiver { method, args, badge } world.calls))
  | callQueued {self id badge method args senders}
      (idle : (world.threads self).doing = .idle) (live : (world.endpoints id).live = true)
      (room : Slots.putFirst
        { thread := self, message := { method, args, badge }, call := world.calls }
        (world.endpoints id).senders = some senders) :
      world.Outcome (.call self id badge method args)
        ((({ world with calls := world.calls + 1 }.record
          (.called self world.calls { method, args, badge })).setEndpoint id
            { world.endpoints id with senders }).goOn self (.awaiting id world.calls))
  | callFailed {self id badge method args error} (idle : (world.threads self).doing = .idle)
      (plain : error = .noSuchEndpoint ∨ error = .congested) :
      world.Outcome (.call self id badge method args)
        (({ world with calls := world.calls + 1 }.record
          (.called self world.calls { method, args, badge })).record
            (.returned self world.calls (.error error)))
  | recvBegun {self id bits} (idle : (world.threads self).doing = .idle) :
      world.Outcome (.recvEither self id bits) (world.goOn self (.meeting id))
  | moved {self bits refusal doing} (plain : (world.threads self).doing.Plain doing) :
      world.Outcome (.advance self bits refusal) (world.goOn self doing)
  | handed {self bits refusal id partner message call}
      (doing : (world.threads self).doing = .handing id partner message call) :
      world.Outcome (.advance self bits refusal)
        ((world.deliver partner { message, sender := self, call, answer := false }).2.goOn self
          (.awaiting id call))
  | answerTaken {self bits refusal id call letter}
      (doing : (world.threads self).doing = .awaiting id call)
      (letterAt : (world.threads self).mailbox = some letter) :
      world.Outcome (.advance self bits refusal)
        (((world.modify self fun target => { target with mailbox := none }).goOn self .idle).record
          (.returned self call (.ok letter.message)))
  | lossTaken {self bits refusal id call lost}
      (doing : (world.threads self).doing = .awaiting id call)
      (lostAt : (world.threads self).answerLost = some lost) :
      world.Outcome (.advance self bits refusal)
        (((world.modify self fun target => { target with answerLost := none }).goOn self
          .idle).record (.returned self call (.error .serverGone)))
  | refusalTaken {self bits refusal id call about status}
      (doing : (world.threads self).doing = .awaiting id call)
      (refusedAt : (world.threads self).callRefused = some (status, about)) :
      world.Outcome (.advance self bits refusal)
        (((world.modify self fun target => { target with callRefused := none }).goOn self
          .idle).record (.returned self call (.error (.refused status))))
  | gaveUp {self bits refusal id call error}
      (doing : (world.threads self).doing = .awaiting id call)
      (quiet : error.Quiet) :
      world.Outcome (.advance self bits refusal)
        ((world.goOn self .idle).record (.returned self call (.error error)))
  | metSender {self bits refusal id sender senders}
      (doing : (world.threads self).doing = .meeting id)
      (live : (world.endpoints id).live = true)
      (first : Slots.takeFirst (world.endpoints id).senders = some (sender, senders)) :
      world.Outcome (.advance self bits refusal)
        ((world.setEndpoint id { world.endpoints id with senders }).goOn self
          (.taking id sender.thread sender.message sender.call))
  | metNobody {self bits refusal id receivers} (doing : (world.threads self).doing = .meeting id)
      (live : (world.endpoints id).live = true)
      (room : Slots.putFirst self (world.endpoints id).receivers = some receivers) :
      world.Outcome (.advance self bits refusal)
        ((world.setEndpoint id { world.endpoints id with receivers }).goOn self (.waiting id))
  | giftRefused {self bits status id partner message call}
      (doing : (world.threads self).doing = .taking id partner message call) :
      world.Outcome (.advance self bits (some status))
        (((world.refuseCall partner status call).goOn self (.meeting id)).record
          (.refused self partner call status))
  | requestTaken {self bits id partner message call}
      (doing : (world.threads self).doing = .taking id partner message call) :
      world.Outcome (.advance self bits none)
        (((world.setReplyTarget self partner call).goOn self .idle).record
          (.took self partner call message))
  | letterTaken {self bits refusal id letter} (doing : (world.threads self).doing = .waiting id)
      (letterAt : (world.threads self).mailbox = some letter) :
      world.Outcome (.advance self bits refusal)
        ((world.modify self fun target => { target with mailbox := none }).goOn self
          (.taking id letter.sender letter.message letter.call))
  | lossSeen {self bits refusal id lost} (doing : (world.threads self).doing = .waiting id)
      (lostAt : (world.threads self).answerLost = some lost) :
      world.Outcome (.advance self bits refusal)
        ((world.modify self fun target => { target with answerLost := none }).goOn self
          (.abandoning id))
  | refusalSeen {self bits refusal id about status}
      (doing : (world.threads self).doing = .waiting id)
      (refusedAt : (world.threads self).callRefused = some (status, about)) :
      world.Outcome (.advance self bits refusal)
        ((world.modify self fun target => { target with callRefused := none }).goOn self
          (.abandoning id))
  | left {self bits refusal id} (doing : (world.threads self).doing = .checking id ∨
        (world.threads self).doing = .abandoning id) :
      world.Outcome (.advance self bits refusal) ((world.cancel id self).goOn self .idle)
  | answerBegun {self caller message call} (idle : (world.threads self).doing = .idle)
      (owedAt : (world.threads self).replyTo = some (caller, call)) :
      world.Outcome (.reply self caller message)
        ((world.modify self fun target => { target with replyTo := none }).goOn self
          (.answering caller message call))
  | answerMisdirected {self caller owed message call} (idle : (world.threads self).doing = .idle)
      (owedAt : (world.threads self).replyTo = some (owed, call)) :
      world.Outcome (.reply self caller message)
        ((world.modify self fun target => { target with replyTo := none }).goOn self
          (.restoring owed call))
  | answerDelivered {self bits refusal caller message call}
      (doing : (world.threads self).doing = .answering caller message call)
      (present : (world.threads caller).present = true)
      (empty : (world.threads caller).mailbox = none) :
      world.Outcome (.advance self bits refusal)
        (((world.modify caller fun target =>
          { target with mailbox := some { message, sender := self, call, answer := true } }).goOn
            self .idle).record (.answered self caller call message))
  | answerKept {self bits refusal caller message call}
      (doing : (world.threads self).doing = .answering caller message call) :
      world.Outcome (.advance self bits refusal) (world.goOn self (.restoring caller call))
  | restored {self bits refusal owed call}
      (doing : (world.threads self).doing = .restoring owed call) :
      world.Outcome (.advance self bits refusal)
        ((world.setReplyTarget self owed call).goOn self .idle)
  | exitBegun {self} (idle : (world.threads self).doing = .idle) :
      world.Outcome (.exit self) ((world.cancelAll self).goOn self .settling)
  | debtFree {self bits refusal} (doing : (world.threads self).doing = .settling)
      (free : (world.threads self).replyTo = none) :
      world.Outcome (.advance self bits refusal) (world.goOn self .finishing)
  | debtTaken {self bits refusal caller call} (doing : (world.threads self).doing = .settling)
      (owedAt : (world.threads self).replyTo = some (caller, call)) :
      world.Outcome (.advance self bits refusal)
        ((world.modify self fun target => { target with replyTo := none }).goOn self
          (.releasing caller call))
  | released {self bits refusal caller call}
      (doing : (world.threads self).doing = .releasing caller call) :
      world.Outcome (.advance self bits refusal)
        (((world.abandonCaller caller call).goOn self .finishing).record
          (.abandoned self caller call))
  | killed {thread} :
      world.Outcome (.kill thread) (world.modify thread fun target => { target with dying := true })
  | reaped {thread} (finished : (world.threads thread).doing = .finished) :
      world.Outcome (.reap thread)
        (world.modify thread fun target => { target with present := false })

variable {world : World} {id : Nat}

theorem call_outcome
    (idle : (world.threads self).doing = .idle) : world.Outcome (.call self id badge method args)
      (world.call self id { method, args, badge }) := by
  unfold call rendezvousSend
  dsimp only [record]
  by_cases live : (world.endpoints id).live = true
  · rw [if_pos live]
    cases first : Slots.takeFirst (world.endpoints id).receivers with
    | some taken => exact .callMatched idle live first
    | none =>
      dsimp only
      cases room : Slots.putFirst
          { thread := self, message := { method, args, badge }, call := world.calls }
          (world.endpoints id).senders with
      | some senders => exact .callQueued idle live room
      | none => exact .callFailed idle (.inr rfl)
  · rw [if_neg live]
    exact .callFailed idle (.inl rfl)

theorem await_outcome {call : Nat} (doing : (world.threads self).doing = .awaiting id call) :
    world.Outcome (.advance self bits refusal) (world.await self id call) := by
  unfold await takeMessageOrBlock
  dsimp only
  cases letterAt : (world.threads self).mailbox with
  | some letter => exact .answerTaken doing letterAt
  | none =>
    cases lostAt : (world.threads self).answerLost with
    | some lost => exact .lossTaken doing lostAt
    | none =>
      cases refusedAt : (world.threads self).callRefused with
      | some told => exact .refusalTaken doing refusedAt
      | none =>
        dsimp only
        cases waited (world.threads self).dying (world.endpoints id).live with
        | dying => exact .gaveUp doing .dying
        | blocked => exact .stays
        | abandoned => exact .gaveUp doing .gone

theorem look_outcome (doing : (world.threads self).doing = .waiting id) :
    world.Outcome (.advance self bits refusal) (world.look self id) := by
  unfold look takeMessageOrBlock
  dsimp only
  cases letterAt : (world.threads self).mailbox with
  | some letter => exact .letterTaken doing letterAt
  | none =>
    cases lostAt : (world.threads self).answerLost with
    | some lost => exact .lossSeen doing lostAt
    | none =>
      cases refusedAt : (world.threads self).callRefused with
      | some told => exact .refusalSeen doing refusedAt
      | none =>
        dsimp only
        cases waited (world.threads self).dying (world.endpoints id).live with
        | dying | abandoned => exact .moved (doing ▸ .abandoned)
        | blocked => exact .moved (doing ▸ .blocked)

theorem meet_outcome (doing : (world.threads self).doing = .meeting id) :
    world.Outcome (.advance self bits refusal) (world.meet self id) := by
  unfold meet rendezvousRecv
  dsimp only
  by_cases live : (world.endpoints id).live = true
  · rw [if_pos live]
    cases first : Slots.takeFirst (world.endpoints id).senders with
    | some taken => exact .metSender doing live first
    | none =>
      dsimp only
      cases room : Slots.putFirst self (world.endpoints id).receivers with
      | some receivers => exact .metNobody doing live room
      | none => exact .moved (doing ▸ .unserved)
  · rw [if_neg live]
    exact .moved (doing ▸ .unserved)

theorem answer_outcome {call : Nat}
    (doing : (world.threads self).doing = .answering caller message call) :
    world.Outcome (.advance self bits refusal) (world.answer self caller message call) := by
  unfold answer deliver
  dsimp only
  split <;> rename_i delivered same
  · split at same
    · rename_i open_
      cases same
      exact .answerDelivered doing open_.1 open_.2
    · cases same
  · split at same
    · cases same
    · cases same
      exact .answerKept doing

theorem reply_outcome (idle : (world.threads self).doing = .idle) :
    world.Outcome (.reply self caller message) (world.reply self caller message) := by
  unfold reply takeReplyTarget
  cases owedAt : (world.threads self).replyTo with
  | none => exact .stays
  | some owed =>
    obtain ⟨target, call⟩ := owed
    dsimp only
    split
    · rename_i same
      subst same
      exact .answerBegun idle owedAt
    · exact .answerMisdirected idle owedAt

theorem settle_outcome (doing : (world.threads self).doing = .settling) :
    world.Outcome (.advance self bits refusal) (world.settle self) := by
  unfold settle takeReplyTarget
  cases owedAt : (world.threads self).replyTo with
  | none => exact .debtFree doing owedAt
  | some owed => exact .debtTaken doing owedAt

theorem advance_outcome :
    world.Outcome (.advance self bits refusal) (world.advance self bits refusal) := by
  rw [advance]
  cases doing : (world.threads self).doing with
  | idle | finished => exact .stays
  | handing id partner message call => exact .handed doing
  | awaiting id call => exact await_outcome doing
  | meeting id => exact meet_outcome doing
  | taking id partner message call =>
    cases refusal with
    | some status => exact .giftRefused doing
    | none => exact .requestTaken doing
  | waiting id => exact look_outcome doing
  | checking id =>
    dsimp only
    rw [check]
    split
    · exact .left (.inl doing)
    · exact .moved (doing ▸ .quiet)
  | abandoning id => exact .left (.inr doing)
  | answering caller message call => exact answer_outcome doing
  | restoring owed call => exact .restored doing
  | settling => exact settle_outcome doing
  | releasing caller call => exact .released doing
  | finishing => exact .moved (doing ▸ .finished)

theorem take_outcome {input : Input} (went : world.take input = result) :
    world.Outcome input result := by
  subst went
  have ifIdle {self : ThreadId} {after : World}
      (outcome : (world.threads self).doing = .idle → world.Outcome input after) :
      world.Outcome input (if (world.threads self).doing = .idle then after else world) := by
    split
    · exact outcome ‹_›
    · exact .stays
  cases input with
  | create =>
    rw [take, create]
    cases vacant : world.vacant with
    | none => exact .stays
    | some index => exact .created vacant
  | destroy id =>
    rw [take, destroy]
    split
    · exact .destroyed ‹_›
    · exact .stays
  | call self id badge method args => exact ifIdle call_outcome
  | recvEither self id bits =>
    refine ifIdle fun idle => ?_
    rw [recvEither]
    split
    · exact .stays
    · exact .recvBegun idle
  | reply self caller message => exact ifIdle reply_outcome
  | exit self => exact ifIdle .exitBegun
  | kill thread => exact .killed
  | reap thread =>
    rw [take]
    split
    · exact .reaped ‹_›
    · exact .stays
  | advance self bits refusal => exact advance_outcome

end World

inductive Doing.Next : Doing → Doing → Prop
  | plain {before after} (plain : before.Plain after) : Next before after
  | handed {id call partner message} :
      Next (.handing id partner message call) (.awaiting id call)
  | returned {id call} : Next (.awaiting id call) .idle
  | met {id call sender message} :
      Next (.meeting id) (.taking id sender message call)
  | queued {id} : Next (.meeting id) (.waiting id)
  | again {id call partner message} :
      Next (.taking id partner message call) (.meeting id)
  | took {id call partner message} :
      Next (.taking id partner message call) .idle
  | found {id call sender message} :
      Next (.waiting id) (.taking id sender message call)
  | informed {id} : Next (.waiting id) (.abandoning id)
  | notified {id} : Next (.checking id) .idle
  | left {id} : Next (.abandoning id) .idle
  | answered {call caller message} :
      Next (.answering caller message call) .idle
  | kept {call caller message} :
      Next (.answering caller message call) (.restoring caller call)
  | restored {call owed} : Next (.restoring owed call) .idle
  | free : Next .settling .finishing
  | indebted {call caller} : Next .settling (.releasing caller call)
  | released {call caller} : Next (.releasing caller call) .finishing

inductive World.Turns (world : World) (self : ThreadId) : Input → Doing → Prop
  | hands {id badge method args partner message} (idle : (world.threads self).doing = .idle) :
      world.Turns self (.call self id badge method args) (.handing id partner message world.calls)
  | awaits {id badge method args} (idle : (world.threads self).doing = .idle) :
      world.Turns self (.call self id badge method args) (.awaiting id world.calls)
  | receives {id bits} (idle : (world.threads self).doing = .idle) :
      world.Turns self (.recvEither self id bits) (.meeting id)
  | answers {caller message call} (idle : (world.threads self).doing = .idle)
      (owedAt : (world.threads self).replyTo = some (caller, call)) :
      world.Turns self (.reply self caller message) (.answering caller message call)
  | misdirects {caller owed message call} (idle : (world.threads self).doing = .idle)
      (owedAt : (world.threads self).replyTo = some (owed, call)) :
      world.Turns self (.reply self caller message) (.restoring owed call)
  | exits (idle : (world.threads self).doing = .idle) : world.Turns self (.exit self) .settling
  | goesOn {bits refusal doing} (next : (world.threads self).doing.Next doing) :
      world.Turns self (.advance self bits refusal) doing

namespace World

variable {world : World}

def SameDoing (before after : World) : Prop :=
  ∀ thread, (after.threads thread).doing = (before.threads thread).doing

variable {thread : ThreadId}

theorem modify_self :
    (world.modify thread change).threads thread = change (world.threads thread) :=
  update_self ..

theorem modify_other (other : thread' ≠ thread) :
    (world.modify thread change).threads thread' = world.threads thread' :=
  update_of_ne other ..

theorem setEndpoint_self : (world.setEndpoint at_ endpoint).endpoints at_ = endpoint :=
  update_self ..

theorem setEndpoint_other {id : Nat} (other : id ≠ at_) :
    (world.setEndpoint at_ endpoint).endpoints id = world.endpoints id :=
  update_of_ne other ..

theorem sameDoing_modify (same : ∀ before : Thread, (change before).doing = before.doing) :
    world.SameDoing (world.modify thread change) := by
  intro other
  by_cases self : other = thread
  · rw [self, modify_self, same]
  · rw [modify_other self]

theorem sameDoing_deliver : world.SameDoing (world.deliver thread letter).2 := by
  rw [deliver]
  split
  · dsimp only
    exact sameDoing_modify fun _ => rfl
  · exact fun _ => rfl

theorem sameDoing_refuseCall {call : Nat} :
    world.SameDoing (world.refuseCall thread status call) := by
  rw [refuseCall]
  split
  · exact sameDoing_modify fun _ => rfl
  · exact fun _ => rfl

theorem sameDoing_abandonCaller {call : Nat} :
    world.SameDoing (world.abandonCaller caller call) := by
  rw [abandonCaller]
  split
  · exact sameDoing_modify fun _ => rfl
  · exact fun _ => rfl

theorem sameDoing_cancel {id : Nat} : world.SameDoing (world.cancel id thread) := by
  rw [cancel]
  split <;> exact fun _ => rfl

theorem SameDoing.goOn {mid : World} (same : world.SameDoing mid) (self : ThreadId) (doing : Doing)
    (thread : ThreadId) :
    ((mid.goOn self doing).threads thread).doing = (world.threads thread).doing ∨
      thread = self ∧ ((mid.goOn self doing).threads thread).doing = doing := by
  by_cases own : thread = self
  · rw [own, World.goOn, modify_self]
    exact .inr ⟨rfl, rfl⟩
  · rw [World.goOn, modify_other own]
    exact .inl (same thread)

theorem turns_take (input : Input) (thread : ThreadId) :
    ((world.take input).threads thread).doing = (world.threads thread).doing ∨
      world.Turns thread input ((world.take input).threads thread).doing := by
  generalize went : world.take input = result
  -- Where the thread is the one that moves, its next doing is read off the outcome.
  have goes {mid : World} {self : ThreadId} {doing : Doing} (same : world.SameDoing mid)
      (turns : world.Turns self input doing) :
      ((mid.goOn self doing).threads thread).doing = (world.threads thread).doing ∨
        world.Turns thread input ((mid.goOn self doing).threads thread).doing := by
    rcases same.goOn self doing thread with kept | ⟨own, now⟩
    · exact .inl kept
    subst own
    rw [now]
    exact .inr turns
  cases take_outcome went with
  | stays | created _ | destroyed _ | callFailed _ _ => exact .inl rfl
  | callMatched idle _ _ => exact goes (fun _ => rfl) (.hands idle)
  | callQueued idle _ _ => exact goes (fun _ => rfl) (.awaits idle)
  | recvBegun idle => exact goes (fun _ => rfl) (.receives idle)
  | moved plain => exact goes (fun _ => rfl) (.goesOn (.plain plain))
  | handed doing => exact goes sameDoing_deliver (.goesOn (doing ▸ .handed))
  | answerTaken doing _ | lossTaken doing _ | refusalTaken doing _ =>
    exact goes (sameDoing_modify fun _ => rfl) (.goesOn (doing ▸ .returned))
  | gaveUp doing _ => exact goes (fun _ => rfl) (.goesOn (doing ▸ .returned))
  | metSender doing _ _ => exact goes (fun _ => rfl) (.goesOn (doing ▸ .met))
  | metNobody doing _ _ => exact goes (fun _ => rfl) (.goesOn (doing ▸ .queued))
  | giftRefused doing => exact goes sameDoing_refuseCall (.goesOn (doing ▸ .again))
  | requestTaken doing => exact goes (sameDoing_modify fun _ => rfl) (.goesOn (doing ▸ .took))
  | letterTaken doing _ => exact goes (sameDoing_modify fun _ => rfl) (.goesOn (doing ▸ .found))
  | lossSeen doing _ | refusalSeen doing _ =>
    exact goes (sameDoing_modify fun _ => rfl) (.goesOn (doing ▸ .informed))
  | left doing =>
    rcases doing with checks | abandons
    · exact goes sameDoing_cancel (.goesOn (checks ▸ .notified))
    · exact goes sameDoing_cancel (.goesOn (abandons ▸ .left))
  | answerBegun idle owedAt => exact goes (sameDoing_modify fun _ => rfl) (.answers idle owedAt)
  | answerMisdirected idle owedAt =>
    exact goes (sameDoing_modify fun _ => rfl) (.misdirects idle owedAt)
  | answerDelivered doing _ _ =>
    exact goes (sameDoing_modify fun _ => rfl) (.goesOn (doing ▸ .answered))
  | answerKept doing => exact goes (fun _ => rfl) (.goesOn (doing ▸ .kept))
  | restored doing => exact goes (sameDoing_modify fun _ => rfl) (.goesOn (doing ▸ .restored))
  | exitBegun idle => exact goes (fun _ => rfl) (.exits idle)
  | debtFree doing _ => exact goes (fun _ => rfl) (.goesOn (doing ▸ .free))
  | debtTaken doing _ => exact goes (sameDoing_modify fun _ => rfl) (.goesOn (doing ▸ .indebted))
  | released doing => exact goes sameDoing_abandonCaller (.goesOn (doing ▸ .released))
  | killed | reaped _ =>
    refine .inl (sameDoing_modify ?_ thread)
    exact fun _ => rfl

end World

end Bhaskix.Rendezvous
