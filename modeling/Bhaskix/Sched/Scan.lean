import Bhaskix.Library.Run

/-! Threads on the queues of several CPUs, and the calls that look for them one queue at a time. A
step is one section under a queue's lock; a steal is one, for the thief's queue stays locked. -/

namespace Bhaskix.Sched

open Library

inductive State
  | ready
  | running
  | blocked
  | finished
  deriving DecidableEq, Repr

/-- A capability a thread has put by for its next call to one endpoint. -/
structure StagedGift where
  fromSlot : Nat
  rights : UInt8
  badge : UInt64
  endpoint : Nat
  deriving DecidableEq, Repr

/-- `current` says that its CPU executes it. A message goes by a number, with the sender's; a slot
to receive in goes with the endpoint invited. -/
structure Thread where
  id : Nat
  cpu : Nat
  domain : Nat
  state : State
  current : Bool
  pinned : Bool := false
  realTime : Bool := false
  dying : Bool := false
  mailbox : Option (Nat × Nat) := none
  receiveSlot : Option (Nat × Nat) := none
  stagedGift : Option StagedGift := none
  callRefused : Option Nat := none
  deriving DecidableEq, Repr

structure Machine where
  online : Nat
  threads : List Thread
  switching : Nat → Bool

inductive Deed
  | spawn (thread : Thread)
  | become (id : Nat) (state : State)
  | turn (cpu id : Nat) (switching : Bool)
  | leave (id : Nat)
  | steal (id thief : Nat)
  deriving DecidableEq, Repr

namespace Machine

def runnable (machine : Machine) (cpu : Nat) : Nat :=
  machine.threads.countP fun thread =>
    thread.cpu = cpu ∧ (thread.state = .ready ∨ thread.state = .running)

/-- The rules of `steal_candidate`, with `STEAL_IMBALANCE` and the eight slots of a queue. -/
def candidate (machine : Machine) (thief : Nat) (thread : Thread) : Bool :=
  thief < machine.online && !machine.switching thread.cpu &&
    machine.runnable thief + 2 ≤ machine.runnable thread.cpu &&
    machine.threads.countP (·.cpu = thief) < 8 &&
    thread.state = .ready && !thread.current && !thread.pinned && !thread.realTime

theorem candidate_spec {machine : Machine} (candidate : machine.candidate thief thread) :
    thief < machine.online ∧ thread.state = .ready := by
  simp only [Machine.candidate, Bool.and_eq_true, decide_eq_true_eq] at candidate
  exact ⟨candidate.1.1.1.1.1.1.1, candidate.1.1.1.2⟩

def change (machine : Machine) (alter : Thread → Thread) : Machine :=
  { machine with threads := machine.threads.map alter }

/-- A thread marked dying is never put to sleep, and `NEXT_THREAD` gives no number twice. -/
def step (deed : Deed) (machine : Machine) : Machine :=
  match deed with
  | .spawn thread =>
    let started : Thread := { thread with
      state := .ready, current := false, dying := false, mailbox := none, receiveSlot := none,
      stagedGift := none, callRefused := none }
    if thread.cpu < machine.online ∧ ∀ other ∈ machine.threads, other.id ≠ thread.id then
      { machine with threads := started :: machine.threads }
    else machine
  | .become id state => machine.change fun thread =>
    if thread.id = id ∧ ¬(state = .blocked ∧ thread.dying = true) then { thread with state }
    else thread
  | .turn cpu id switching =>
    { machine with
      switching := fun other => if other = cpu then switching else machine.switching other }.change
      fun thread => if thread.cpu = cpu then { thread with current := thread.id = id } else thread
  | .leave id => { machine with threads := machine.threads.filter (·.id ≠ id) }
  | .steal id thief => machine.change fun thread =>
    if thread.id = id ∧ machine.candidate thief thread then { thread with cpu := thief } else thread

end Machine

/-- The calls that look for a thread by its number, with what they bring. -/
inductive Call
  | deliver (message sender : Nat)
  | setReceiveSlot (slot : Option (Nat × Nat))
  | takeReceiveSlot (endpoint : Nat)
  | takeStagedGift (endpoint : Nat)
  | refuseCall (status : Nat)
  | domainOf
  deriving DecidableEq, Repr

inductive Answer
  | done (done : Bool)
  | slot (slot : Option Nat)
  | gift (gift : Option StagedGift)
  | domain (domain : Option Nat)
  deriving DecidableEq, Repr

namespace Thread

def deliver (message sender : Nat) (thread : Thread) : Answer × Thread :=
  if thread.mailbox.isSome then (.done false, thread)
  else (.done true, { thread with mailbox := some (message, sender) })

def setReceiveSlot (slot : Option (Nat × Nat)) (thread : Thread) : Answer × Thread :=
  (.done true, { thread with receiveSlot := slot })

def takeReceiveSlot (endpoint : Nat) (thread : Thread) : Answer × Thread :=
  match thread.receiveSlot with
  | some (slot, invited) =>
    if invited = endpoint then (.slot (some slot), { thread with receiveSlot := none })
    else (.slot none, thread)
  | none => (.slot none, thread)

def takeGiftFor (endpoint : Nat) (thread : Thread) : Answer × Thread :=
  match thread.stagedGift with
  | some gift =>
    if gift.endpoint = endpoint then (.gift (some gift), { thread with stagedGift := none })
    else (.gift none, thread)
  | none => (.gift none, thread)

def refuseCall (status : Nat) (thread : Thread) : Answer × Thread :=
  (.done true, { thread with callRefused := some status })

def domainOf (thread : Thread) : Answer × Thread :=
  (.domain (if thread.domain = 2 ^ 32 - 1 then none else some thread.domain), thread)

end Thread

/-- What a call does with the thread it finds. The wake that follows a refused call is one of the
other deeds. -/
def Call.act : Call → Thread → Answer × Thread
  | .deliver message sender => Thread.deliver message sender
  | .setReceiveSlot slot => Thread.setReceiveSlot slot
  | .takeReceiveSlot endpoint => Thread.takeReceiveSlot endpoint
  | .takeStagedGift endpoint => Thread.takeGiftFor endpoint
  | .refuseCall status => Thread.refuseCall status
  | .domainOf => Thread.domainOf

/-- What it answers when no queue has the thread. -/
def Call.missing : Call → Answer
  | .deliver _ _ | .setReceiveSlot _ | .refuseCall _ => .done false
  | .takeReceiveSlot _ => .slot none
  | .takeStagedGift _ => .gift none
  | .domainOf => .domain none

inductive Scan
  | looking (next : Nat)
  | found (target : Thread)
  deriving DecidableEq, Repr

structure Search where
  machine : Machine
  scan : Scan

namespace Search

/-- One queue's part of a call. -/
def visit (id : Nat) (call : Call) (search : Search) : Search :=
  match search.scan with
  | .found _ => search
  | .looking next =>
    match search.machine.threads.find? fun thread => thread.id = id ∧ thread.cpu = next with
    | none => { search with scan := .looking (next + 1) }
    | some target =>
      { machine := search.machine.change fun thread =>
          if thread.id = id ∧ thread.cpu = next then (call.act thread).2 else thread
        scan := .found target }

/-- `none` is a section of the call itself. -/
def step (id : Nat) (call : Call) (input : Option Deed) (search : Search) : Search :=
  match input with
  | none => search.visit id call
  | some deed => { search with machine := search.machine.step deed }

def answer (call : Call) (search : Search) : Answer :=
  match search.scan with
  | .looking _ => call.missing
  | .found target => (call.act target).1

/-- The thread stays, and is not taken from a queue still to be visited to one that has been. -/
def Stays (id : Nat) (search : Search) (input : Option Deed) : Prop :=
  match input, search.scan with
  | some (.leave other), _ => other ≠ id
  | some (.steal other thief), .looking next => other = id → next ≤ thief
  | _, _ => True

/-- What was found is the thread, and until then it is on a queue still to be visited. -/
def Ahead (id : Nat) (search : Search) : Prop :=
  match search.scan with
  | .found target => target.id = id
  | .looking next => ∃ thread ∈ search.machine.threads,
      thread.id = id ∧ next ≤ thread.cpu ∧ thread.cpu < search.machine.online

variable {id : Nat} {search : Search} {call : Call}

theorem Ahead.visit (ahead : search.Ahead id) : (search.visit id call).Ahead id := by
  obtain ⟨machine, scan⟩ := search
  cases scan with
  | found target => exact ahead
  | looking next =>
    obtain ⟨thread, member, same, low, high⟩ := ahead
    simp only [Search.visit]
    split
    · next missed =>
      -- It was not on the queue just searched, so it is on a later one.
      have elsewhere := List.find?_eq_none.mp missed thread member
      simp only [same, true_and, decide_eq_true_eq] at elsewhere
      exact ⟨thread, member, same, by omega, high⟩
    · next target found =>
      have here := List.find?_some found
      simp only [Bool.decide_and, Bool.and_eq_true, decide_eq_true_eq] at here
      exact here.1

theorem Ahead.change (ahead : search.Ahead id) {alter : Thread → Thread}
    (keeps : ∀ thread, (alter thread).id = thread.id ∧ ((alter thread).cpu = thread.cpu ∨
      (thread.id = id → (alter thread).cpu < search.machine.online ∧
        ∀ next, search.scan = .looking next → next ≤ (alter thread).cpu))) :
    Ahead id { search with machine := search.machine.change alter } := by
  obtain ⟨machine, scan⟩ := search
  cases scan with
  | found target => exact ahead
  | looking next =>
    obtain ⟨thread, member, same, low, high⟩ := ahead
    have kept := List.mem_map_of_mem (f := alter) member
    obtain ⟨number, place | moved⟩ := keeps thread
    · exact ⟨alter thread, kept, number.trans same, place ▸ low, place ▸ high⟩
    · exact ⟨alter thread, kept, number.trans same, (moved same).2 next rfl, (moved same).1⟩

theorem Ahead.step (ahead : search.Ahead id) (stays : search.Stays id input) :
    (search.step id call input).Ahead id := by
  cases input with
  | none => exact ahead.visit
  | some deed =>
    cases deed with
    | become other state | turn cpu other switching =>
      refine ahead.change fun thread => ?_
      split <;> exact ⟨rfl, .inl rfl⟩
    | spawn started =>
      simp only [Search.step, Machine.step]
      split
      · obtain ⟨machine, scan⟩ := search
        cases scan with
        | found target => exact ahead
        | looking next =>
          obtain ⟨thread, member, rest⟩ := ahead
          exact ⟨thread, List.mem_cons_of_mem _ member, rest⟩
      · exact ahead
    | leave other =>
      obtain ⟨machine, scan⟩ := search
      cases scan with
      | found target => exact ahead
      | looking next =>
        obtain ⟨thread, member, same, rest⟩ := ahead
        refine ⟨thread, List.mem_filter.mpr ⟨member, ?_⟩, same, rest⟩
        simpa [same] using Ne.symm stays
    | steal other thief =>
      refine ahead.change fun thread => ?_
      split
      · next taken =>
        -- The only step that moves it: the thief's queue is one the scan has still to visit.
        refine ⟨rfl, .inr fun same => ⟨?_, fun next looking => ?_⟩⟩
        · exact (Machine.candidate_spec taken.2).1
        · simp only [Stays, looking] at stays
          exact stays (taken.1.symm.trans same)
      · exact ⟨rfl, .inl rfl⟩

/-- Every call finds a thread that stays, unless a steal carries it past the scan; what it answers
is then the thread's answer, for `deliver` that its mailbox is full or that it was not. -/
theorem scan_finds {machine : Machine} {thread : Thread} (member : thread ∈ machine.threads)
    (online : thread.cpu < machine.online) {call : Call} {search : Search}
    (reached : Reached (step thread.id call) (Stays thread.id) ⟨machine, .looking 0⟩ search)
    (ended : ∀ next, search.scan = .looking next → search.machine.online ≤ next) :
    ∃ target, search.scan = .found target ∧ target.id = thread.id ∧
      search.answer call = (call.act target).1 ∧ ∀ message sender,
        call = .deliver message sender → search.answer call = .done false →
          target.mailbox.isSome := by
  have initially : Ahead thread.id ⟨machine, .looking 0⟩ :=
    ⟨thread, member, rfl, Nat.zero_le _, online⟩
  have ahead := reached.invariant initially fun _ => Ahead.step
  unfold Ahead at ahead
  unfold answer
  split at ahead
  · next target found =>
    refine ⟨target, found, ahead, by rw [found], ?_⟩
    rintro message sender rfl refused
    rw [found] at refused
    simp only [Call.act, Thread.deliver] at refused
    split at refused
    · assumption
    · cases refused
  · next next looking =>
    obtain ⟨thread, _, _, low, high⟩ := ahead
    have := ended next looking
    omega

/-- Thread 7 is on the second of two queues, with two more. -/
def pair : Machine where
  online := 2
  threads := [{ id := 6, cpu := 1, domain := 0, state := .running, current := true },
    { id := 7, cpu := 1, domain := 0, state := .ready, current := false },
    { id := 8, cpu := 1, domain := 0, state := .ready, current := false }]
  switching := fun _ => false

theorem scan_finds_pair : ∃ target, (run (step 7 (.deliver 5 6)) [none,
    some (Deed.become 8 .running), none] ⟨pair, .looking 0⟩).scan = .found target ∧
      target.id = 7 := by
  obtain ⟨target, found, same, _⟩ := @scan_finds pair
    { id := 7, cpu := 1, domain := 0, state := .ready, current := false } (by decide) (by decide)
    (.deliver 5 6) _ (Reached.run_of_meet [none, some (Deed.become 8 .running), none] .start
      ⟨trivial, trivial, trivial, trivial⟩) nofun
  exact ⟨target, found, same⟩

/-- CPU 0 takes thread 7 after its own queue has been visited: the call has then looked at both
queues, and answers as if there were no such thread. -/
theorem scan_misses : [Call.deliver 5 6, .setReceiveSlot none, .takeReceiveSlot 5,
    .takeStagedGift 5, .refuseCall 1, .domainOf].Forall fun call =>
      let missed := run (step 7 call) [none, some (.steal 7 0), none] ⟨pair, .looking 0⟩
      missed.scan = .looking 2 ∧ ∃ thread ∈ missed.machine.threads,
        thread.id = 7 ∧ thread.state = .ready ∧ thread.mailbox = none := by
  refine List.forall_iff_forall_mem.mpr fun call _ => ⟨rfl, ?_⟩
  exact ⟨{ id := 7, cpu := 0, domain := 0, state := .ready, current := false },
    .tail _ (.head _), rfl, rfl, rfl⟩

end Search

end Bhaskix.Sched
