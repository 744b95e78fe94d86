import Bhaskix.Library.Run
import Bhaskix.Net.TcpMoves

namespace Bhaskix.Net

open Library

/-- A control block, and what its program has been told of and has written since the connection
was opened. -/
structure Tally where
  tcb : Tcb
  acknowledged : Nat
  written : Nat
  deriving DecidableEq

namespace Tally

def start (tcb : Tcb) : Tally :=
  { tcb, acknowledged := 0, written := 0 }

def take (input : Event × Nat) (tally : Tally) : Tally :=
  let turn := step tally.tcb input.1 input.2
  if tally.tcb.opens input.1 then
    { tcb := turn.tcb, acknowledged := turn.actions.freed.sum, written := 0 }
  else
    { tcb := turn.tcb
      acknowledged := tally.acknowledged + turn.actions.freed.sum
      written := tally.written + input.1.written }

def Synchronised (tally : Tally) : Prop :=
  tally.tcb.state ≠ .closed ∧ tally.tcb.state.opening = false

instance (tally : Tally) : Decidable tally.Synchronised :=
  inferInstanceAs (Decidable (_ ∧ _))

/-- The program was told of what is acknowledged, `SYN` and `FIN` apart, and never of more than it
wrote. -/
structure Exact (tally : Tally) : Prop where
  synchronised : tally.Synchronised →
    (tally.tcb.snd.iss.after 1).gap tally.tcb.snd.una =
      (tally.acknowledged + tally.tcb.snd.finAcked.toNat) % 2 ^ 32
  opening : tally.tcb.state.opening = true → tally.acknowledged = 0
  most : tally.acknowledged ≤ tally.written

def Prudent (tally : Tally) (input : Event × Nat) : Prop :=
  tally.tcb.Prudent true input.1 ∧ tally.tcb.Alone input.1

def Starts (tally : Tally) : Prop :=
  tally = start .new ∨ ∃ cookie irs peerWindow capacity mss,
    tally = start (.fromCookie cookie irs peerWindow capacity mss)

structure Counts (tally : Tally) (places : Places) : Prop where
  placed : tally.tcb.Placed true places
  none : places.una = 0 → tally.acknowledged = 0
  some_ : 1 ≤ places.una → places.una = 1 + tally.acknowledged + places.covered
  avail : places.avail ≤ 1 + tally.written

variable {tally : Tally}

namespace Counts

theorem most (counts : tally.Counts places) : tally.acknowledged ≤ tally.written := by
  have stands := counts.placed.stands
  have avail := counts.avail
  have order := stands.order
  have last := stands.nxt_le
  rcases Nat.eq_zero_or_pos places.una with start | started
  · rw [counts.none start]
    exact Nat.zero_le _
  have count := counts.some_ started
  rcases Option.eq_none_or_eq_some places.fin with none | ⟨fin, fin_eq⟩
  · have short := stands.nxt_le_of_none none
    omega
  · have least := (stands.fin fin fin_eq).1
    rw [Places.covered_of_some fin_eq] at count
    split at count <;> omega

theorem exact (counts : tally.Counts places) : tally.Exact where
  synchronised := fun both => by
    have stands := counts.placed.stands
    have started := counts.placed.phase.started_of_synchronised both.1 both.2
    have count := counts.some_ started
    rw [stands.finAcked_eq, ← Places.covered, stands.una, count, Nat.add_assoc,
      ← Serial.after_after, Serial.gap_after, Serial.gap_self, Nat.zero_add]
  opening := fun opening => counts.none (counts.placed.phase.una_of_opening opening)
  most := counts.most

theorem take (counts : tally.Counts places)
    (prudent : tally.Prudent input) : ∃ after, (tally.take input).Counts after := by
  obtain ⟨event, now⟩ := input
  obtain ⟨careful, alone⟩ := prudent
  rw [Tally.take]
  cases opens : tally.tcb.opens event with
  | true =>
    obtain ⟨after, placed, una, avail, freed⟩ :=
      @Tcb.Placed.opens _ _ _ now counts.placed event opens careful
    dsimp only
    rw [if_pos rfl, freed]
    exact ⟨after, placed, fun _ => rfl, fun started => by omega, avail⟩
  | false =>
    obtain ⟨after, placed, moves, _⟩ :=
      @Tcb.Placed.step _ _ _ now counts.placed event opens careful
    dsimp only
    rw [if_neg Bool.false_ne_true]
    have first := moves.first alone
    have written := counts.avail
    refine ⟨after, placed, fun start => ?_, fun started => ?_, ?_⟩
    · have same : places.una = 0 := Nat.le_zero.mp (start ▸ moves.una)
      exact (congrArg₂ (· + ·) (counts.none same) (moves.silent same).1)
    · dsimp only
      rcases Nat.eq_zero_or_pos places.una with same | before
      · obtain ⟨silent, covered⟩ := moves.silent same
        have told := counts.none same
        have only := first same
        omega
      · have count := counts.some_ before
        have tally := moves.tally before
        omega
    · dsimp only
      rcases moves.avail with grown | few
      · omega
      · omega

end Counts

theorem Starts.counts (starts : tally.Starts) : ∃ places, tally.Counts places := by
  rcases starts with rfl | ⟨cookie, irs, peerWindow, capacity, mss, rfl⟩
  · exact ⟨⟨0, 0, 0, none⟩, ⟨⟨rfl, rfl, rfl, rfl, le_rfl, .inl le_rfl, nofun, by simp⟩,
      .closed rfl nofun⟩, fun _ => rfl, nofun, by simp⟩
  · exact ⟨⟨1, 1, 1, none⟩, ⟨⟨rfl, rfl, rfl, rfl, le_rfl, .inl le_rfl, nofun, by simp⟩,
      .flowing (.sending rfl le_rfl rfl)⟩, nofun, fun _ => rfl, by simp⟩

/-- Along every run of prudent events the program is told of exactly its own bytes. -/
theorem acknowledged_exact {first : Tally} (starts : first.Starts)
    (reached : Reached take Prudent first tally) : tally.Exact := by
  obtain ⟨places, counts⟩ := reached.invariant
    (motive := fun tally => ∃ places, Counts tally places)
    starts.counts fun _ ⟨_, counts⟩ prudent => counts.take prudent
  exact counts.exact

def hello : Segment :=
  { sequence := 100, acknowledgement := none, flags := { syn := true }, window := 8000,
    mss := none, payload := [] }

def acks (ack : Sequence) : Segment :=
  { sequence := 101, acknowledgement := some ack, flags := {}, window := 8000, mss := none,
    payload := [] }

def writesEarly (ack : Sequence) : List (Event × Nat) :=
  [(.listen 0 1000, 0), (.arrived hello, 0), (.wrote 3, 0), (.arrived (acks ack), 0)]

theorem acknowledged_exact_alone :
    (run take (writesEarly 1 ++ [(.arrived (acks 4), 0)]) (start .new)).acknowledged = 3 ∧
      (run take (writesEarly 1 ++ [(.arrived (acks 4), 0)]) (start .new)).Exact := by
  have reached : Reached take Prudent (start .new)
      (run take (writesEarly 1 ++ [(.arrived (acks 4), 0)]) (start .new)) := by
    refine Reached.run_of_meet _ .start ⟨⟨fun _ => ⟨rfl, rfl⟩, trivial⟩,
      ⟨trivial, nofun⟩, ⟨⟨by decide +kernel, nofun⟩, trivial⟩, ⟨trivial, fun _ ack same => ?_⟩,
      ⟨trivial, fun opening => absurd opening (by decide +kernel)⟩, trivial⟩
    obtain rfl : 1 = ack := Option.some.inj same
    decide +kernel
  exact ⟨by decide +kernel, acknowledged_exact (.inl rfl) reached⟩

/-- The same acknowledgement covers the `SYN` and what was written: nobody is told. -/
theorem not_acknowledged_exact :
    ¬∀ tally, Reached take (fun _ _ => True) (start .new) tally → tally.Exact := by
  intro always
  have missed := (always _ (Reached.start.run (writesEarly 4))).synchronised (by decide +kernel)
  revert missed
  decide +kernel

end Tally

end Bhaskix.Net
