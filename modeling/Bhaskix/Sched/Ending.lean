import Bhaskix.Sched.Scan

namespace Bhaskix.Sched

open Library List

/-- `mark_domain_dying`: the queues are marked one after the other, and then every sleeper that was
found is looked for on all of them. -/
inductive Phase
  | marking (next : Nat) (asleep : List Nat)
  | waking (next : Nat) (asleep : List Nat)
  deriving DecidableEq, Repr

structure Ending where
  machine : Machine
  phase : Phase

namespace Ending

def mark (domain next : Nat) (thread : Thread) : Thread :=
  if thread.cpu = next ∧ thread.domain = domain then { thread with dying := true } else thread

def wake (id next : Nat) (thread : Thread) : Thread :=
  if thread.id = id ∧ thread.cpu = next ∧ thread.state = .blocked then
    { thread with state := .ready }
  else thread

def visit (domain : Nat) (ending : Ending) : Ending :=
  let machine := ending.machine
  match ending.phase with
  | .marking next asleep =>
    if next < machine.online then
      let found := machine.threads.filter fun thread => thread.cpu = next ∧
        thread.domain = domain ∧ thread.dying = false ∧ thread.state = .blocked
      ⟨machine.change (mark domain next), .marking (next + 1) (asleep ++ found.map (·.id))⟩
    else { ending with phase := .waking 0 asleep }
  | .waking _ [] => ending
  | .waking next (id :: rest) =>
    if next < machine.online then
      if machine.threads.any fun thread =>
          thread.id = id ∧ thread.cpu = next ∧ thread.state = .blocked then
        ⟨machine.change (wake id next), .waking 0 rest⟩
      else { ending with phase := .waking (next + 1) (id :: rest) }
    else { ending with phase := .waking 0 rest }

def step (domain : Nat) (input : Option Deed) (ending : Ending) : Ending :=
  match input with
  | none => ending.visit domain
  | some deed => { ending with machine := ending.machine.step deed }

end Ending

def Phase.Visited (cpu : Nat) : Phase → Prop
  | .marking next _ => cpu < next
  | .waking _ _ => True

def Phase.Pending (id cpu : Nat) : Phase → Prop
  | .marking _ asleep => id ∈ asleep
  | .waking _ [] => False
  | .waking next (first :: rest) => id ∈ rest ∨ id = first ∧ next ≤ cpu

/-- A thread of the domain that sleeps with its mark is still to be woken. -/
structure Thread.Tended (domain online : Nat) (phase : Phase) (thread : Thread) : Prop where
  online : thread.cpu < online
  marked : thread.domain = domain → phase.Visited thread.cpu → thread.dying = true
  pending : thread.domain = domain → thread.dying = true → thread.state = .blocked →
    phase.Pending thread.id thread.cpu

namespace Ending

/-- No thread of the domain that is not marked comes to a queue that has been visited. -/
def Kept (domain : Nat) (ending : Ending) (input : Option Deed) : Prop :=
  match input with
  | some (.spawn thread) => thread.domain = domain → ¬ending.phase.Visited thread.cpu
  | some (.steal id thief) => ending.phase.Visited thief → ∀ thread ∈ ending.machine.threads,
    thread.id = id → thread.domain = domain → thread.dying = true
  | _ => True

structure Sound (domain : Nat) (ending : Ending) : Prop where
  unique : (ending.machine.threads.map (·.id)).Nodup
  tended : ∀ thread ∈ ending.machine.threads,
    thread.Tended domain ending.machine.online ending.phase

theorem pending_waking (cpu : Nat) (member : sleeper ∈ asleep) :
    (Phase.waking 0 asleep).Pending sleeper cpu := by
  cases member with
  | head => exact .inr ⟨rfl, Nat.zero_le _⟩
  | tail _ member => exact .inl member

section

variable {domain : Nat} {ending : Ending} (sound : ending.Sound domain)
include sound

theorem Sound.alter {alter : Thread → Thread} {after : Ending}
    (threads : after.machine.threads = ending.machine.threads.map alter)
    (same : ∀ thread, (alter thread).id = thread.id)
    (tended : ∀ thread ∈ ending.machine.threads,
      thread.Tended domain ending.machine.online ending.phase →
        (alter thread).Tended domain after.machine.online after.phase) : after.Sound domain := by
  constructor <;> rw [threads]
  · have numbers : (·.id) ∘ alter = (·.id) := funext same
    rw [map_map, numbers]
    exact sound.unique
  · intro _ member
    obtain ⟨thread, member, rfl⟩ := mem_map.mp member
    exact tended thread ‹_› (sound.tended thread ‹_›)

theorem Sound.visit : (ending.visit domain).Sound domain := by
  obtain ⟨machine, phase⟩ := ending
  cases phase with
  | marking next asleep =>
    unfold Ending.visit
    dsimp only
    split
    · refine sound.alter rfl (fun thread => by unfold mark; split <;> rfl) ?_
      intro thread member tended
      unfold mark
      split
      · next here =>
        refine ⟨tended.online, fun _ _ => rfl, fun mine _ blocked => mem_append.mpr ?_⟩
        cases dying : thread.dying with
        | true => exact .inl (tended.pending mine dying blocked)
        | false =>
          exact .inr (mem_map.mpr ⟨thread, mem_filter.mpr ⟨member, by simp_all⟩, rfl⟩)
      · next elsewhere =>
        refine ⟨tended.online, fun mine visited => tended.marked mine ?_,
          fun mine dying blocked => mem_append_left _ (tended.pending mine dying blocked)⟩
        have different : thread.cpu ≠ next := fun same => elsewhere ⟨same, mine⟩
        exact Nat.lt_of_le_of_ne (Nat.le_of_lt_succ visited) different
    · next last =>
      refine ⟨sound.unique, fun thread member => ?_⟩
      have tended := sound.tended thread member
      exact ⟨tended.online, fun mine _ => tended.marked mine
        (Nat.lt_of_lt_of_le tended.online (Nat.le_of_not_lt last)),
        fun mine dying blocked => pending_waking _ (tended.pending mine dying blocked)⟩
  | waking next asleep =>
    cases asleep with
    | nil => exact sound
    | cons first rest =>
      unfold Ending.visit
      dsimp only
      split
      · split
        · next woken =>
          obtain ⟨sleeper, there, number, place, _⟩ := by simpa using woken
          refine sound.alter rfl (fun thread => by unfold wake; split <;> rfl) ?_
          intro thread member tended
          unfold wake
          split
          · exact ⟨tended.online, tended.marked, nofun⟩
          · next other =>
            refine ⟨tended.online, tended.marked, fun mine dying blocked => pending_waking _ ?_⟩
            -- Numbers are unique: one that has the sleeper's number is the one just woken.
            refine (tended.pending mine dying blocked).resolve_right fun ⟨same, _⟩ => ?_
            have one := inj_on_of_nodup_map sound.unique member there (same.trans number.symm)
            exact other ⟨same, one ▸ place, blocked⟩
        · next missed =>
          refine ⟨sound.unique, fun thread member => ?_⟩
          have tended := sound.tended thread member
          refine ⟨tended.online, tended.marked, fun mine dying blocked => ?_⟩
          refine (tended.pending mine dying blocked).imp_right fun ⟨same, low⟩ => ⟨same, ?_⟩
          refine Nat.lt_of_le_of_ne low fun here => missed ?_
          simpa using ⟨thread, member, same, here.symm, blocked⟩
      · next last =>
        refine ⟨sound.unique, fun thread member => ?_⟩
        have tended := sound.tended thread member
        refine ⟨tended.online, tended.marked, fun mine dying blocked => pending_waking _ ?_⟩
        refine (tended.pending mine dying blocked).resolve_right fun ⟨_, low⟩ => ?_
        exact last (Nat.lt_of_le_of_lt low tended.online)

theorem Sound.step (kept : ending.Kept domain input) :
    (ending.step domain input).Sound domain := by
  cases input with
  | none => exact sound.visit
  | some deed =>
    cases deed with
    | spawn started =>
      simp only [Ending.step, Machine.step]
      split
      · next fresh =>
        constructor
        · refine nodup_cons.mpr ⟨fun member => ?_, sound.unique⟩
          obtain ⟨other, old, same⟩ := mem_map.mp member
          exact fresh.2 other old same
        · intro thread member
          rcases mem_cons.mp member with rfl | old
          · exact ⟨fresh.1, fun mine visited => absurd visited (kept mine), by simp⟩
          · exact sound.tended thread old
      · exact sound
    | become id state =>
      refine sound.alter rfl (fun thread => by split <;> rfl) fun thread _ tended => ?_
      split
      · next free =>
        refine ⟨tended.online, tended.marked, fun _ dying blocked => ?_⟩
        -- Whoever carries the mark is not put to sleep.
        exact absurd ⟨blocked, dying⟩ free.2
      · exact tended
    | turn cpu id switching =>
      refine sound.alter rfl (fun thread => by split <;> rfl) fun thread _ tended => ?_
      split
      · exact { tended with }
      · exact tended
    | leave id =>
      refine ⟨sound.unique.sublist (filter_sublist.map _), fun thread member => ?_⟩
      exact sound.tended thread (mem_filter.mp member).1
    | steal id thief =>
      refine sound.alter rfl (fun thread => by split <;> rfl) fun thread member tended => ?_
      split
      · next taken =>
        obtain ⟨online, ready⟩ := Machine.candidate_spec taken.2
        refine ⟨online, fun mine visited => ?_, fun _ _ blocked => ?_⟩
        · exact kept visited thread member taken.1 mine
        -- What is stolen is ready, so no wake is owed to it.
        · cases ready.symm.trans blocked
      · exact tended

end

/-- When `mark_domain_dying` returns, the domain's threads are marked and none of them sleeps, if no
unmarked one came to a queue after it was visited. -/
theorem ending_reaches_all {domain : Nat} {ending : Ending} {machine : Machine}
    (unique : (machine.threads.map (·.id)).Nodup)
    (awake : ∀ thread ∈ machine.threads, thread.cpu < machine.online ∧
      (thread.domain = domain → thread.dying = true → thread.state ≠ .blocked))
    (reached : Reached (step domain) (Kept domain) ⟨machine, .marking 0 []⟩ ending)
    {next : Nat} (ended : ending.phase = .waking next []) :
    ∀ thread ∈ ending.machine.threads, thread.domain = domain →
      thread.dying = true ∧ thread.state ≠ .blocked := by
  have initially : Sound domain ⟨machine, .marking 0 []⟩ := by
    refine ⟨unique, fun thread member => ⟨(awake thread member).1, nofun, ?_⟩⟩
    intro mine dying blocked
    exact absurd blocked ((awake thread member).2 mine dying)
  have sound := reached.invariant initially fun _ sound kept => sound.step kept
  intro thread member mine
  have tended := sound.tended thread member
  rw [ended] at tended
  have dying := tended.marked mine trivial
  exact ⟨dying, tended.pending mine dying⟩

theorem ending_reaches_all_pair : (run (step 0) [none, some (.become 8 .blocked), none, none, none,
    none] ⟨Search.pair, .marking 0 []⟩).phase = .waking 0 [] ∧
      ∀ thread ∈ (run (step 0) [none, some (.become 8 .blocked), none, none, none, none]
        ⟨Search.pair, .marking 0 []⟩).machine.threads, thread.domain = 0 →
          thread.dying = true ∧ thread.state ≠ .blocked :=
  ⟨rfl, @ending_reaches_all 0 _ Search.pair (by decide) (by decide) (Reached.run_of_meet _ .start
    ⟨trivial, trivial, trivial, trivial, trivial, trivial, trivial⟩) 0 rfl⟩

/-- CPU 0 takes thread 7 after its own queue has been visited, and it runs on unmarked. -/
theorem ending_misses : (run (step 0) [none, some (.steal 7 0), none, none]
    ⟨Search.pair, .marking 0 []⟩).phase = .waking 0 [] ∧
      ∃ thread ∈ (run (step 0) [none, some (.steal 7 0), none, none]
        ⟨Search.pair, .marking 0 []⟩).machine.threads,
          thread.id = 7 ∧ thread.domain = 0 ∧ thread.state = .ready ∧ thread.dying = false := by
  decide

end Ending

end Bhaskix.Sched
