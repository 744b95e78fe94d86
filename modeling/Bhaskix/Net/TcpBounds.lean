import Bhaskix.Net.TcpMoves
import Bhaskix.Net.TcpTimers

namespace Bhaskix.Net

open Library Serial

/-- What is acknowledged, sent and available comes in the order of the sequence numbers. -/
structure Tcb.InBounds (tcb : Tcb) : Prop where
  una : tcb.snd.una.follows tcb.snd.nxt = false
  nxt : tcb.snd.nxt.follows (tcb.snd.avail.after 1) = false
  limited : tcb.Limited

/-- The number of a byte is behind the `SYN` and what is acknowledged, and before the end of what is
available and the `FIN`. -/
structure Sender.Names (snd : Sender) (synAcknowledged : Bool) (number : Sequence) : Prop where
  una : number.precedes snd.una = false
  syn : synAcknowledged = false → number ≠ snd.iss
  avail : number.precedes snd.avail = true
  fin : ∀ fin, snd.finSeq = some fin → number.precedes fin = true

/-- What the data of a segment may be. Only a probe of one byte leaves the peer's window. -/
structure Emit.InBounds (emit : Emit) (event : Event) (snd : Sender) (synAcknowledged : Bool) :
    Prop where
  names : ∀ offset < emit.length, snd.Names synAcknowledged (emit.sequence.after offset)
  mss : emit.length ≤ snd.mss.toNat
  window : (∀ offset < emit.length,
      (emit.sequence.after offset).precedes (snd.una.after snd.wnd.toNat) = true) ∨
    emit.length = 1 ∧ event = .expired .probe

/-- A control block, and how far from its initial number everything is acknowledged. -/
structure Tracked where
  tcb : Tcb
  una : Nat

namespace Tracked

def new : Tracked :=
  { tcb := .new, una := 0 }

def take (input : Event × Nat) (tracked : Tracked) : Tracked :=
  let turn := step tracked.tcb input.1 input.2
  { tcb := turn.tcb
    una :=
      if tracked.tcb.opens input.1 then 0
      else tracked.una + tracked.tcb.snd.una.gap turn.tcb.snd.una }

structure Prudent (tracked : Tracked) (input : Event × Nat) : Prop where
  prudent : tracked.tcb.Prudent false input.1
  mss : ∀ segment, input.1 = .arrived segment → tracked.tcb.state ∈ [.listen, .synSent] →
    segment.mss ≠ some 0

structure Keeps (tracked : Tracked) (input : Event × Nat) : Prop where
  inBounds : (tracked.take input).tcb.InBounds
  fits : (step tracked.tcb input.1 input.2).actions.items.length ≤ maxActions
  timers : OneEach (step tracked.tcb input.1 input.2).actions.items
  emits : ∀ emit ∈ (step tracked.tcb input.1 input.2).actions.emits, 0 < emit.length →
    emit.InBounds input.1 (tracked.take input).tcb.snd (decide (0 < (tracked.take input).una))
  closed : tracked.tcb.state = .closed → tracked.tcb.opens input.1 = false →
    ∀ emit ∈ (step tracked.tcb input.1 input.2).actions.emits,
      ∃ segment, input.1 = .arrived segment ∧ resetFor segment = some emit

structure Sound (tracked : Tracked) (places : Places) : Prop where
  placed : tracked.tcb.Placed false places
  una : places.una = tracked.una
  limited : tracked.tcb.Limited
  mss : 0 < tracked.tcb.snd.mss

end Tracked

variable {tcb : Tcb} {places : Places}

theorem Sender.Stands.inBounds (stands : tcb.snd.Stands places)
    (limited : tcb.Limited) : tcb.InBounds := by
  have order := stands.order
  have last := stands.nxt_le
  have room := stands.room
  have first := @follows_after_iff tcb.snd.iss places.una places.nxt (by omega) (by omega)
  have second := @follows_after_iff tcb.snd.iss places.nxt (places.avail + 1) (by omega)
    (by omega)
  refine ⟨Bool.eq_false_iff.mpr ?_, Bool.eq_false_iff.mpr ?_, limited⟩
  · rw [stands.una, stands.nxt, ne_eq, first]
    omega
  · rw [stands.nxt, stands.avail, after_after, ne_eq, second]
    omega

variable {emit : Emit}

theorem Emit.Inside.inBounds (inside : emit.Inside (event = .expired .probe) tcb.snd places)
    (placed : tcb.Placed false places) (positive : 0 < tcb.snd.mss) :
    emit.InBounds event tcb.snd (decide (0 < places.una)) := by
  obtain ⟨first, sequence, started, behind, within, bounded⟩ := inside
  have stands := placed.stands
  have room := stands.room
  have number (offset : Nat) : emit.sequence.after offset = tcb.snd.iss.after (first + offset) := by
    rw [sequence, after_after]
  refine ⟨fun offset inside => ?_, ?_, ?_⟩
  · rw [number]
    have una := @precedes_after_iff tcb.snd.iss (first + offset) places.una (by omega)
      (by omega)
    have avail := @precedes_after_iff tcb.snd.iss (first + offset) places.avail (by omega)
      (by omega)
    refine ⟨Bool.eq_false_iff.mpr ?_, fun start same => ?_, ?_, fun fin assigned => ?_⟩
    · rw [stands.una, ne_eq, una]
      omega
    · have none : places.una = 0 := by simpa using start
      have zero := @after_inj tcb.snd.iss 0 (first + offset)
        (by rw [after_zero]; exact same.symm) (Nat.zero_le _) (by omega)
      omega
    · rw [stands.avail, avail]
      omega
    · rw [stands.finSeq] at assigned
      obtain ⟨place, some_, rfl⟩ := Option.map_eq_some_iff.mp assigned
      rw [← placed.phase.last rfl place some_, avail]
      omega
  · have least : 0 < tcb.snd.mss.toNat := UInt16.lt_iff_toNat_lt.mp positive
    rcases bounded with ⟨_, small⟩ | ⟨single, _⟩
    · exact small
    · omega
  · refine bounded.imp_left fun ⟨reach, _⟩ offset inside => ?_
    have small : tcb.snd.wnd.toNat < 2 ^ 16 := tcb.snd.wnd.toNat_lt
    rw [number, stands.una, after_after, precedes_after_iff (by omega) (by omega)]
    omega

theorem emits_of_closed (closed : tcb.state = .closed) (stays : tcb.opens event = false)
    (member : emit ∈ (step tcb event now).actions.emits) :
    ∃ segment, event = .arrived segment ∧ resetFor segment = some emit := by
  have silent {actions : Actions} {other : Prop} (same : actions.emits = [])
      (member : emit ∈ actions.emits) : other := by
    rw [same] at member
    exact absurd member List.not_mem_nil
  cases event with
  | connect iss window | listen iss window => exact absurd closed (of_decide_eq_false stays)
  | wrote bytes =>
    have may : ¬((⟨tcb, .new⟩ : Turn).makeAvailable bytes.toNat).maySend := by
      simp [Turn.maySend, Turn.makeAvailable, closed, State.canSend]
    rw [step, Turn.sendWhatWeCan_of_not _ now may] at member
    exact silent rfl member
  | read bytes =>
    rw [step, Turn.reopenWindow, if_neg (by simp [closed, State.canReceive])] at member
    exact silent rfl member
  | shutdown =>
    rw [step, Turn.shutdown] at member
    simp only [closed] at member
    exact silent rfl member
  | abort =>
    rw [step, Turn.abort] at member
    simp only [closed] at member
    exact silent rfl member
  | arrived segment =>
    refine ⟨segment, rfl, ?_⟩
    rw [step, Turn.arrived] at member
    simp only [closed, Turn.closedArrival] at member
    cases answer : resetFor segment with
    | none =>
      rw [answer] at member
      exact silent rfl member
    | some sent =>
      rw [answer] at member
      exact congrArg some (List.mem_singleton.mp member).symm
  | expired timer =>
    cases timer with
    | retransmit =>
      rw [step, Turn.expired, Turn.retransmit, if_pos (.inl closed)] at member
      exact silent rfl member
    | delayedAck =>
      rw [step, Turn.expired] at member
      simp only [closed, ne_eq, not_true_eq_false, if_false] at member
      exact silent rfl member
    | probe =>
      rw [step, Turn.expired, Turn.probe, if_pos (.inl (by rw [closed]; rfl))] at member
      exact silent rfl member
    | timeWait =>
      rw [step, Turn.expired] at member
      simp only [closed, reduceCtorEq, if_false] at member
      exact silent rfl member

theorem length_of_opens (opens : tcb.opens event = true)
    (member : emit ∈ (step tcb event now).actions.emits) : emit.length = 0 := by
  have none {iss : Sequence} {window : UInt16} {passive : Bool} (member : emit ∈
        ((⟨tcb, .new⟩ : Turn).openWith iss window passive now).actions.emits) :
      emit.length = 0 := by
    by_contra data
    exact List.not_mem_nil
      ((Turn.takes_openWith ⟨tcb, .new⟩ now iss window passive).pushes.bare.mem_emits
      (Nat.pos_of_ne_zero data) member)
  cases event with
  | connect iss window | listen iss window => exact none member
  | wrote _ | read _ | shutdown | abort | arrived _ | expired _ => contradiction

namespace Tracked

variable {tracked : Tracked}

theorem Sound.take (sound : tracked.Sound places)
    (prudent : tracked.Prudent input) : ∃ last, (tracked.take input).Sound last ∧ ∀ emit ∈
      (step tracked.tcb input.1 input.2).actions.emits, 0 < emit.length →
        emit.Inside (input.1 = .expired .probe) (tracked.take input).tcb.snd last := by
  obtain ⟨event, now⟩ := input
  have takes := takes_step tracked.tcb event now
  have limited := takes.limited sound.limited
  have mss := takes.mss prudent.mss sound.mss
  cases opens : tracked.tcb.opens event with
  | true =>
    obtain ⟨last, placed, una, _⟩ := @Tcb.Placed.opens _ _ _ now sound.placed event opens
      prudent.prudent
    refine ⟨last, ⟨placed, ?_, limited, mss⟩, fun emit member data => ?_⟩
    · rw [Tracked.take, una]
      exact (if_pos opens).symm
    · exact absurd (length_of_opens opens member) (Nat.ne_of_gt data)
  | false =>
    obtain ⟨last, placed, moves, emits⟩ := @Tcb.Placed.step _ _ _ now sound.placed event opens
      prudent.prudent
    refine ⟨last, ⟨placed, ?_, limited, mss⟩, emits⟩
    have stands := sound.placed.stands
    have room := stands.room
    have sent := stands.nxt_le
    have least := moves.una
    have most := moves.sent
    have gap : tracked.tcb.snd.una.gap (step tracked.tcb event now).tcb.snd.una =
        last.una - places.una := by
      rw [placed.stands.una, takes.iss opens, stands.una]
      exact gap_after_after least (by omega)
    have moved : (tracked.take (event, now)).una = tracked.una + (last.una - places.una) := by
      rw [← gap, Tracked.take]
      exact if_neg (by rw [opens]; exact Bool.false_ne_true)
    rw [moved, ← sound.una]
    omega

theorem sound_new : new.Sound ⟨0, 0, 0, none⟩ where
  placed := ⟨⟨rfl, rfl, rfl, rfl, le_rfl, .inl le_rfl, nofun, by simp⟩, .closed rfl nofun⟩
  una := rfl
  limited := ⟨by decide, by decide, by decide, by decide⟩
  mss := by decide

/-- Along every run of prudent events each further one keeps the control block, and what it asks
for, in bounds. -/
theorem kept_inBounds (reached : Reached take Prudent new tracked) {input : Event × Nat}
    (prudent : tracked.Prudent input) : tracked.Keeps input := by
  obtain ⟨places, sound⟩ := reached.invariant
    (motive := fun tracked => ∃ places, Sound tracked places)
    ⟨_, sound_new⟩ fun _ ⟨_, sound⟩ prudent => (sound.take prudent).imp fun _ both => both.1
  obtain ⟨last, after, inside⟩ := sound.take prudent
  refine ⟨after.placed.stands.inBounds after.limited, length_step .., Actions.oneEach _,
    fun emit member data => ?_, fun closed stays emit member => emits_of_closed closed stays member⟩
  rw [← after.una]
  exact (inside emit member data).inBounds after.placed after.mss

def handshake : Segment :=
  { sequence := 100, acknowledgement := some 1, flags := { syn := true }, window := 8000,
    mss := some 1200, payload := [] }

def writes : List (Event × Nat) :=
  [(.connect 0 1000, 0), (.arrived handshake, 0), (.wrote 5, 0)]

/-- Five bytes are sent, and sent again when they are not acknowledged. -/
theorem kept_inBounds_handshake :
    (run take writes new).tcb.snd.backlog = 5 ∧
      Keeps (run take writes new) (.expired .retransmit, 0) := by
  have sent : Reached take Prudent new (run take writes new) := by
    refine Reached.run_of_meet writes .start
      ⟨⟨fun _ => ⟨rfl, rfl⟩, nofun⟩, ⟨trivial, fun segment same _ => ?_⟩,
        ⟨⟨by decide +kernel, nofun⟩, nofun⟩, trivial⟩
    obtain rfl := Event.arrived.inj same
    exact nofun
  exact ⟨by decide +kernel, kept_inBounds sent ⟨trivial, nofun⟩⟩

def Few (tracked : Tracked) (input : Event × Nat) : Prop :=
  tracked.tcb.snd.backlog + input.1.written ≤ 2 ^ 30

instance (tracked : Tracked) (input : Event × Nat) : Decidable (tracked.Few input) :=
  inferInstanceAs (Decidable (_ ≤ _))

def writesLate : List (Event × Nat) :=
  [(.connect 0 1000, 0), (.arrived handshake, 0), (.shutdown, 0), (.wrote 5, 0)]

/-- A retransmission sends what was written after the `FIN` in its place. -/
theorem not_kept_inBounds :
    ¬∀ tracked, Reached take Few new tracked → ∀ input, tracked.Few input →
      tracked.Keeps input := by
  intro always
  have reached : Reached take Few new (run take writesLate new) :=
    Reached.run_of_meet writesLate .start (by decide +kernel)
  have keeps := always _ reached (.expired .retransmit, 0) (by decide +kernel)
  let sent : Emit :=
    { flags := { psh := true }, sequence := 1, acknowledgement := some 101, window := 1000,
      length := 5, mss := none }
  have member : sent ∈
      (step (run take writesLate new).tcb (.expired .retransmit) 0).actions.emits := by
    decide +kernel
  have before := ((keeps.emits sent member (by decide)).names 0 (by decide)).fin 1
    (by decide +kernel)
  exact absurd before (by decide +kernel)

end Tracked

end Bhaskix.Net
