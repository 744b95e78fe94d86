import Bhaskix.Net.TcpFrame
import Bhaskix.Net.TcpSender

/-!
A sender's numbers as places on a line that starts at the initial number, however often the circle
has been gone round.
-/

namespace Bhaskix.Net

open Library Serial

structure Places where
  una : Nat
  nxt : Nat
  avail : Nat
  fin : Option Nat

namespace Places

def covered (places : Places) : Nat :=
  (places.fin.any fun fin => decide (fin < places.una)).toNat

theorem covered_of_none {places : Places} (none : places.fin = none) : places.covered = 0 := by
  rw [covered, none]
  rfl

theorem covered_of_some {places : Places} {fin : Nat} (some_ : places.fin = some fin) :
    places.covered = if fin < places.una then 1 else 0 := by
  rw [covered, some_, Option.any_some]
  split
  · rename_i past
    rw [decide_eq_true past]
    rfl
  · rename_i short
    rw [decide_eq_false short]
    rfl

structure Sends (before after : Places) : Prop where
  una : after.una = before.una
  avail : after.avail = before.avail
  fin : after.fin = before.fin ∨ before.fin = none ∧ after.fin = some before.avail

theorem Sends.refl (places : Places) : Sends places places :=
  ⟨rfl, rfl, .inl rfl⟩

theorem Sends.trans (one : Sends first second)
    (two : Sends second third) : Sends first third := by
  refine ⟨two.una.trans one.una, two.avail.trans one.avail, ?_⟩
  rcases two.fin with same | ⟨none, assigned⟩
  · rw [same]
    exact one.fin
  rcases one.fin with same | ⟨_, already⟩
  · exact .inr ⟨same ▸ none, one.avail ▸ assigned⟩
  · rw [already] at none
    contradiction

end Places

namespace Sender

/-- The numbers are those of the places, which come in their order and are less than half a circle
apart. -/
structure Stands (snd : Sender) (places : Places) : Prop where
  una : snd.una = snd.iss.after places.una
  nxt : snd.nxt = snd.iss.after places.nxt
  avail : snd.avail = snd.iss.after places.avail
  finSeq : snd.finSeq = places.fin.map snd.iss.after
  order : places.una ≤ places.nxt
  sent : places.nxt ≤ places.avail ∨ ∃ fin, places.fin = some fin ∧ places.nxt ≤ fin + 1
  fin : ∀ fin, places.fin = some fin → fin ≤ places.avail ∧ places.avail + 1 < fin + 2 ^ 31
  room : places.avail + 1 < places.una + 2 ^ 31

namespace Stands

variable {snd : Sender} {places : Places}

section

variable (stands : snd.Stands places)
include stands

theorem nxt_le : places.nxt ≤ places.avail + 1 := by
  rcases stands.sent with short | ⟨fin, some_, last⟩
  · exact short.trans (Nat.le_succ _)
  · exact last.trans (Nat.succ_le_succ (stands.fin fin some_).1)

theorem nxt_le_of_none (none : places.fin = none) : places.nxt ≤ places.avail := by
  rcases stands.sent with short | ⟨fin, some_, _⟩
  · exact short
  · rw [none] at some_
    contradiction

theorem fin_of_none (absent : places.fin = none) : snd.finSeq = none := by
  rw [stands.finSeq, absent]
  rfl

theorem fin_of_some {fin : Nat} (some_ : places.fin = some fin) :
    snd.finSeq = some (snd.iss.after fin) := by
  rw [stands.finSeq, some_]
  rfl

theorem none_of_finSeq (absent : snd.finSeq = none) : places.fin = none := by
  rw [stands.finSeq] at absent
  exact Option.map_eq_none_iff.mp absent

theorem unsent_eq : snd.unsent = places.avail - places.nxt := by
  have order := stands.order
  have room := stands.room
  have last := stands.nxt_le
  have past := @follows_after_iff snd.iss places.avail places.nxt (by omega) (by omega)
  rw [unsent, stands.avail, stands.nxt]
  split
  · rename_i ahead
    rw [past] at ahead
    exact gap_after_after ahead.le (by omega)
  · rename_i behind
    rw [past] at behind
    omega

theorem segmentLength_le : snd.segmentLength ≤ places.avail - places.nxt := by
  have unsent := stands.unsent_eq
  rw [segmentLength]
  omega

theorem gap_nxt : snd.una.gap snd.nxt = places.nxt - places.una := by
  have order := stands.order
  have room := stands.room
  have last := stands.nxt_le
  rw [stands.una, stands.nxt]
  exact gap_after_after order (by omega)

theorem place_of_ack {ack : Sequence} (newer : ack.follows snd.una = true)
    (sent : ack.follows snd.nxt = false) :
    ∃ place, ack = snd.iss.after place ∧ places.una < place ∧ place ≤ places.nxt := by
  have order := stands.order
  obtain ⟨some_, within⟩ := gap_le_of_not_follows newer sent
  rw [stands.gap_nxt] at within
  refine ⟨places.una + snd.una.gap ack, ?_, by omega, by omega⟩
  rw [← after_after, ← stands.una, after_gap]

theorem finAcked_eq : snd.finAcked = places.fin.any fun fin => decide (fin < places.una) := by
  rw [finAcked, stands.finSeq]
  cases some_ : places.fin with
  | none => rfl
  | some fin =>
    have order := stands.order
    have room := stands.room
    have last := stands.nxt_le
    obtain ⟨least, most⟩ := stands.fin fin some_
    have past := @follows_after_iff snd.iss places.una fin (by omega) (by omega)
    rw [Option.map_some, Option.any_some, Option.any_some, stands.una, Bool.eq_iff_iff, past,
      decide_eq_true_iff]

theorem bytesFreed_eq (newer : places.una < place) (sent : place ≤ places.nxt) :
    places.una + snd.bytesFreed (snd.iss.after place) + { places with una := place }.covered =
      place + places.covered := by
  have room := stands.room
  have last := stands.nxt_le
  have order := stands.order
  have gap : snd.una.gap (snd.iss.after place) = place - places.una := by
    rw [stands.una]
    exact gap_after_after newer.le (by omega)
  rw [bytesFreed, gap]
  rcases Option.eq_none_or_eq_some places.fin with none | ⟨fin, some_⟩
  · rw [Places.covered_of_none none, @Places.covered_of_none { places with una := place } none,
      stands.fin_of_none none]
    simp only [Bool.toNat_false]
    omega
  rw [stands.fin_of_some some_]
  obtain ⟨least, most⟩ := stands.fin fin some_
  have before : (snd.iss.after fin).precedes snd.una = decide (fin < places.una) := by
    rw [Bool.eq_iff_iff, decide_eq_true_iff, stands.una]
    exact precedes_after_iff (by omega) (by omega)
  have after : (snd.iss.after fin).precedes (snd.iss.after place) = decide (fin < place) := by
    rw [Bool.eq_iff_iff, decide_eq_true_iff]
    exact precedes_after_iff (by omega) (by omega)
  rw [Places.covered_of_some some_, @Places.covered_of_some { places with una := place } _ some_]
  simp only [before, after]
  rcases Nat.lt_or_ge fin places.una with acked | open_
  · rw [decide_eq_true acked, if_pos acked, if_pos (acked.trans newer)]
    simp only [Bool.not_true, Bool.false_and, Bool.toNat_false]
    omega
  rw [decide_eq_false (Nat.not_lt.mpr open_), if_neg (Nat.not_lt.mpr open_)]
  rcases Nat.lt_or_ge fin place with covers | short
  · rw [decide_eq_true covers, if_pos covers]
    simp only [Bool.not_false, Bool.true_and, Bool.toNat_true]
    omega
  · rw [decide_eq_false (Nat.not_lt.mpr short), if_neg (Nat.not_lt.mpr short)]
    simp only [Bool.not_false, Bool.true_and, Bool.toNat_false]
    omega

theorem advance (fits : count ≤ places.avail - places.nxt) :
    { snd with nxt := snd.nxt.after count }.Stands { places with nxt := places.nxt + count } := by
  refine { stands with nxt := ?_, order := ?_, sent := ?_ }
  · simp only [stands.nxt, after_after]
  · exact stands.order.trans (Nat.le_add_right _ _)
  rcases stands.sent with short | ⟨fin, some_, last⟩
  · exact .inl (by simp only; omega)
  rcases Nat.eq_zero_or_pos count with rfl | some'
  · exact .inr ⟨fin, some_, last⟩
  · exact .inl (by simp only; omega)

theorem finish (all : places.nxt + count = places.avail) :
    { snd with
      finSeq := some (snd.nxt.after count), nxt := (snd.nxt.after count).after 1 }.Stands
      { places with nxt := places.avail + 1, fin := some places.avail } := by
  have number : snd.nxt.after count = snd.iss.after places.avail := by
    rw [stands.nxt, after_after, all]
  have order := stands.order
  refine ⟨stands.una, ?_, stands.avail, ?_, ?_, .inr ⟨_, rfl, le_rfl⟩, ?_, stands.room⟩
  · simp only [number, after_after]
  · simp only [number, Option.map_some]
  · simp only
    omega
  rintro fin same
  obtain rfl := Option.some.inj same
  simp only
  omega

theorem goBack : { snd with nxt := snd.una }.Stands { places with nxt := places.una } := by
  refine ⟨stands.una, stands.una, stands.avail, stands.finSeq, le_rfl, ?_, stands.fin, stands.room⟩
  rcases stands.sent with short | ⟨fin, some_, last⟩
  · exact .inl (stands.order.trans short)
  · exact .inr ⟨fin, some_, stands.order.trans last⟩

theorem sendSyn (fits : places.una + 1 ≤ places.avail) :
    { snd with nxt := snd.una.after 1 }.Stands { places with nxt := places.una + 1 } := by
  refine { stands with nxt := ?_, order := Nat.le_succ _, sent := .inl fits }
  simp only [stands.una, after_after]

theorem resendFin {fin : Nat} (some_ : places.fin = some fin) (short : places.una ≤ fin) :
    { snd with nxt := (snd.iss.after fin).after 1 }.Stands { places with nxt := fin + 1 } := by
  refine { stands with nxt := after_after .., order := ?_, sent := .inr ⟨fin, some_, le_rfl⟩ }
  exact short.trans (Nat.le_succ _)

theorem acknowledge (newer : places.una ≤ place) (sent : place ≤ places.nxt) :
    { snd with una := snd.iss.after place }.Stands { places with una := place } := by
  have room := stands.room
  refine { stands with una := rfl, order := sent, room := ?_ }
  simp only
  omega

theorem write (few : places.avail + bytes + 1 < places.una + 2 ^ 31)
    (late : ∀ fin, places.fin = some fin → places.avail + bytes + 1 < fin + 2 ^ 31) :
    { snd with avail := snd.avail.after bytes }.Stands
      { places with avail := places.avail + bytes } := by
  refine ⟨stands.una, stands.nxt, ?_, stands.finSeq, stands.order, ?_, fun fin some_ => ?_, few⟩
  · simp only [stands.avail, after_after]
  · rcases stands.sent with short | last
    · exact .inl (short.trans (Nat.le_add_right _ _))
    · exact .inr last
  · exact ⟨(stands.fin fin some_).1.trans (Nat.le_add_right _ _), late fin some_⟩

theorem nxt_of_finNow (fin : snd.finNow retransmission = true) :
    snd.finQueued = true ∧ places.fin = none ∧ places.nxt + snd.segmentLength = places.avail := by
  simp only [finNow, Bool.and_eq_true, decide_eq_true_eq, Option.isNone_iff_eq_none] at fin
  have none := stands.none_of_finSeq fin.1.1.2
  have unsent := stands.unsent_eq
  have last := stands.nxt_le_of_none none
  refine ⟨fin.1.1.1, none, ?_⟩
  rw [fin.1.2, unsent]
  omega

theorem sentSegment (retransmission : Bool) :
    (snd.finNow retransmission = false ∧ (snd.sentSegment retransmission).Stands
        { places with nxt := places.nxt + snd.segmentLength }) ∨
      (snd.finNow retransmission = true ∧ snd.finQueued = true ∧ places.fin = none ∧
        (snd.sentSegment retransmission).Stands
          { places with nxt := places.avail + 1, fin := some places.avail }) := by
  rw [Sender.sentSegment]
  cases fin : snd.finNow retransmission with
  | false => exact .inl ⟨rfl, stands.advance stands.segmentLength_le⟩
  | true =>
    obtain ⟨queued, none, all⟩ := stands.nxt_of_finNow fin
    exact .inr ⟨rfl, queued, none, stands.finish all⟩

end

end Stands

end Sender

/-- The states in which data goes out. A program may write after its `FIN` has a place only if
that is `late`. -/
inductive Flowing (late : Bool) (state : State) (queued : Bool) (places : Places) : Prop
  | synReceived (state_eq : state = .synReceived) (una : places.una = 0) (sent : 1 ≤ places.nxt)
      (fin : places.fin = none) (unqueued : queued = false)
  | sending (can : state.canSend = true) (una : 1 ≤ places.una) (fin : places.fin = none)
  | finishing (ends : state.finishing = true ∨ state.finished = true) (una : 1 ≤ places.una)
      {fin : Nat} (fin_eq : places.fin = some fin) (last : late = false → places.avail = fin)

inductive Phase (late : Bool) (state : State) (queued : Bool) (places : Places) : Prop
  | closed (state_eq : state = .closed)
      (last : late = false → ∀ fin, places.fin = some fin → places.avail = fin)
  | listen (state_eq : state = .listen) (una : places.una = 0) (nxt : places.nxt = 0)
      (fin : places.fin = none) (unqueued : queued = false)
  | synSent (state_eq : state = .synSent) (una : places.una = 0) (nxt : places.nxt = 1)
      (fin : places.fin = none) (unqueued : queued = false)
  | flowing (flowing : Flowing late state queued places)

structure Tcb.Placed (tcb : Tcb) (late : Bool) (places : Places) : Prop where
  stands : tcb.snd.Stands places
  phase : Phase late tcb.state tcb.snd.finQueued places

namespace Flowing

variable {late queued : Bool} {state : State} {places : Places}
  (flowing : Flowing late state queued places)
include flowing

theorem synReceived_of_opening (opening : state.opening = true) : state = .synReceived := by
  cases flowing with
  | synReceived state _ _ _ _ => exact state
  | sending can _ _ => cases state <;> simp_all [State.canSend, State.opening]
  | finishing ends _ _ _ =>
    cases state <;> simp_all [State.finishing, State.finished, State.opening]

theorem of_received (received : state = .synReceived) : places.una = 0 ∧ places.fin = none := by
  cases flowing with
  | synReceived _ una _ none _ => exact ⟨una, none⟩
  | sending can _ _ => simp [received, State.canSend] at can
  | finishing ends _ _ _ => simp [received, State.finishing, State.finished] at ends

theorem started {snd : Sender} (stands : snd.Stands places) : 1 ≤ places.nxt := by
  cases flowing with
  | synReceived _ _ sent _ _ => exact sent
  | sending _ una _ | finishing _ una _ _ => exact una.trans stands.order

end Flowing

namespace Phase

variable {late queued : Bool} {state : State} {places : Places}
  (phase : Phase late state queued places)
include phase

theorem flowing_of (open_ : state ≠ .closed) (notListen : state ≠ .listen)
    (notSent : state ≠ .synSent) : Flowing late state queued places := by
  cases phase with
  | closed state _ => exact absurd state open_
  | listen state _ _ _ _ => exact absurd state notListen
  | synSent state _ _ _ _ => exact absurd state notSent
  | flowing flowing => exact flowing

theorem last (early : late = false) (fin : Nat) (some_ : places.fin = some fin) :
    places.avail = fin := by
  cases phase with
  | closed _ last => exact last early fin some_
  | listen _ _ _ none _ | synSent _ _ _ none _ => simp [none] at some_
  | flowing flowing =>
    cases flowing with
    | synReceived _ _ _ none _ | sending _ _ none => simp [none] at some_
    | finishing _ _ its last =>
      rw [its] at some_
      exact Option.some.inj some_ ▸ last early

theorem flowing_of_may (may : state.canSend = true ∨ state = .synReceived) :
    Flowing late state queued places := by
  refine phase.flowing_of ?_ ?_ ?_ <;> rintro rfl <;> simp [State.canSend] at may

theorem started_of_synchronised (open_ : state ≠ .closed) (synchronised : state.opening = false) :
    1 ≤ places.una := by
  cases phase with
  | closed state _ => exact absurd state open_
  | listen state _ _ _ _ | synSent state _ _ _ _ => simp [state, State.opening] at synchronised
  | flowing flowing =>
    cases flowing with
    | synReceived state _ _ _ _ => simp [state, State.opening] at synchronised
    | sending _ una _ | finishing _ una _ _ => exact una

theorem una_of_opening (opening : state.opening = true) : places.una = 0 := by
  cases phase with
  | closed state _ => simp [state, State.opening] at opening
  | listen _ una _ _ _ | synSent _ una _ _ _ => exact una
  | flowing flowing => exact (flowing.of_received (flowing.synReceived_of_opening opening)).1

end Phase

theorem Flowing.sentSegment {snd : Sender}
    (flowing : Flowing late state snd.finQueued places) (stands : snd.Stands places)
    (retransmission : Bool) :
    ∃ after, places.Sends after ∧ (snd.sentSegment retransmission).Stands after ∧
      Flowing late (if snd.finNow retransmission then state.afterFin else state)
        (snd.sentSegment retransmission).finQueued after := by
  rw [Sender.sentSegment_finQueued]
  rcases stands.sentSegment retransmission with ⟨stays, sent⟩ | ⟨fin, queued, none, sent⟩
  · refine ⟨{ places with nxt := places.nxt + snd.segmentLength }, ⟨rfl, rfl, .inl rfl⟩, sent, ?_⟩
    rw [stays, if_neg Bool.false_ne_true]
    cases flowing with
    | synReceived state una some_ none unqueued =>
      exact .synReceived state una (some_.trans (Nat.le_add_right _ _)) none unqueued
    | sending can una none => exact .sending can una none
    | finishing ends una fin last => exact .finishing ends una fin last
  refine ⟨{ places with nxt := places.avail + 1, fin := some places.avail },
    ⟨rfl, rfl, .inr ⟨none, rfl⟩⟩, sent, ?_⟩
  rw [fin, if_pos rfl]
  cases flowing with
  | synReceived _ _ _ _ unqueued =>
    rw [queued] at unqueued
    contradiction
  | sending can una _ =>
    exact .finishing (.inl (State.finishing_afterFin (.inl can))) una rfl fun _ => rfl
  | finishing _ _ already _ =>
    rw [none] at already
    contradiction

namespace Tcb.Placed

variable {tcb : Tcb}

theorem of_same {other : Tcb} (placed : tcb.Placed late places) (state : other.state = tcb.state)
    (snd : other.snd = tcb.snd) : other.Placed late places := by
  obtain ⟨stands, phase⟩ := placed
  exact ⟨snd ▸ stands, state ▸ snd ▸ phase⟩

theorem close (placed : tcb.Placed late places) :
    { tcb with state := .closed }.Placed late places :=
  ⟨placed.stands, .closed rfl placed.phase.last⟩

theorem setWindow (placed : tcb.Placed late places) (window : UInt16) :
    { tcb with snd.wnd := window }.Placed late places := by
  have stands := placed.stands
  exact ⟨{ stands with }, placed.phase⟩

end Tcb.Placed

/-- Data has its place behind the `SYN` and what is acknowledged, within the peer's window unless it
is a `probe` of one byte. -/
def Emit.Inside (emit : Emit) (probe : Prop) (snd : Sender) (places : Places) : Prop :=
  ∃ first, emit.sequence = snd.iss.after first ∧ 1 ≤ first ∧ places.una ≤ first ∧
    first + emit.length ≤ places.avail ∧
    (first + emit.length ≤ places.una + snd.wnd.toNat ∧ emit.length ≤ snd.mss.toNat ∨
      emit.length = 1 ∧ probe)

theorem Emit.inside_of_segment (probe : Prop) {emit : Emit} {snd : Sender}
    (stands : snd.Stands places) (started : 1 ≤ places.nxt) (sequence : emit.sequence = snd.nxt)
    (length : emit.length = snd.segmentLength) (data : 0 < emit.length) :
    emit.Inside probe snd places := by
  have order := stands.order
  have room := stands.room
  have last := stands.nxt_le
  have gap := stands.gap_nxt
  have unsent := stands.unsent_eq
  have allowed := @Sender.allowed_eq snd (by omega)
  rw [Sender.segmentLength] at length
  exact ⟨places.nxt, sequence.trans stands.nxt, started, order, by omega, .inl ⟨by omega, by omega⟩⟩

/-- Between two points of a step segments go out, and nothing else about the sender changes. -/
structure Turn.Sent (probe : Prop) (before after : Turn) (places last : Places) : Prop where
  sends : places.Sends last
  stands : after.tcb.snd.Stands last
  iss : after.tcb.snd.iss = before.tcb.snd.iss
  wnd : after.tcb.snd.wnd = before.tcb.snd.wnd
  mss : after.tcb.snd.mss = before.tcb.snd.mss
  emits : ∀ emit ∈ after.actions.emits, 0 < emit.length →
    emit ∈ before.actions.emits ∨ emit.Inside probe after.tcb.snd last

namespace Turn.Sent

variable {probe : Prop} {first second : Turn} {places last : Places}

theorem trans (one : Sent probe first second places middle)
    (two : Sent probe second third middle last) : Sent probe first third places last := by
  refine ⟨one.sends.trans two.sends, two.stands, two.iss.trans one.iss, two.wnd.trans one.wnd,
    two.mss.trans one.mss, fun emit member data => ?_⟩
  rcases two.emits emit member data with old | new
  · refine (one.emits emit old data).imp_right fun inside => ?_
    rw [Emit.Inside, ← two.iss, ← two.wnd, ← two.mss, ← two.sends.una, ← two.sends.avail] at inside
    exact inside
  · exact .inr new

theorem of_bare {count : Nat} (pushes : Pushes Action.Bare count first second)
    (sends : places.Sends last) (stands : second.tcb.snd.Stands last)
    (iss : second.tcb.snd.iss = first.tcb.snd.iss) (wnd : second.tcb.snd.wnd = first.tcb.snd.wnd)
    (mss : second.tcb.snd.mss = first.tcb.snd.mss) : Sent probe first second places last :=
  ⟨sends, stands, iss, wnd, mss, fun _ member data => .inl (pushes.mem_emits data member)⟩

theorem of_same (stands : first.tcb.snd.Stands places)
    (pushes : Pushes Action.Plain count first second) (snd : second.tcb.snd = first.tcb.snd) :
    Sent probe first second places places := by
  refine of_bare pushes.bare (.refl places) (by rw [snd]; exact stands) ?_ ?_ ?_
  · rw [snd]
  · rw [snd]
  · rw [snd]

theorem refl (stands : first.tcb.snd.Stands places) : Sent probe first first places places :=
  of_same stands (.refl first : Pushes _ 0 _ _) rfl

end Turn.Sent

namespace Turn

variable {turn : Turn} {now : Nat} {late : Bool} {places : Places} (probe : Prop)

section

variable (stands : turn.tcb.snd.Stands places)
  (flowing : Flowing late turn.tcb.state turn.tcb.snd.finQueued places)
include stands flowing

theorem sent_sendSegment (retransmission : Bool) :
    ∃ last, Sent probe turn (turn.sendSegment retransmission).1 places last ∧
      Flowing late (turn.sendSegment retransmission).1.tcb.state
        (turn.sendSegment retransmission).1.tcb.snd.finQueued last := by
  obtain ⟨last, sends, stands', flows⟩ := flowing.sentSegment stands retransmission
  refine ⟨last, ⟨sends, by rw [sendSegment_snd]; exact stands', by simp, by simp, by simp,
    fun emit member data => ?_⟩, by rw [sendSegment_snd, sendSegment_state]; exact flows⟩
  have inside (sequence : emit.sequence = turn.tcb.snd.nxt)
      (length : emit.length = turn.tcb.snd.segmentLength) :
      emit.Inside probe (turn.sendSegment retransmission).1.tcb.snd last := by
    have here := Emit.inside_of_segment probe stands (flowing.started stands) sequence length data
    rw [Emit.Inside, ← sends.una, ← sends.avail] at here
    rw [Emit.Inside, sendSegment_snd, Sender.sentSegment_iss, Sender.sentSegment_wnd,
      Sender.sentSegment_mss]
    exact here
  have pushed {sent : Emit} (sequence : sent.sequence = turn.tcb.snd.nxt)
      (length : sent.length = turn.tcb.snd.segmentLength)
      (member : emit ∈ (turn.actions.push (.emit sent)).emits) :
      emit ∈ turn.actions.emits ∨
        emit.Inside probe (turn.sendSegment retransmission).1.tcb.snd last := by
    rw [Actions.emits_push] at member
    rcases List.mem_append.mp member with old | new
    · exact .inl old
    · obtain rfl : emit = sent := List.mem_singleton.mp new
      exact .inr (inside sequence length)
  rcases turn.sendSegment_cases retransmission with ⟨_, _, sent⟩ | ⟨_, _, sent⟩ | ⟨_, sent⟩
  · rw [sent] at member
    exact .inl member
  · rw [congrArg Prod.fst sent] at member
    exact pushed rfl rfl member
  · rw [congrArg Prod.fst sent] at member
    exact pushed rfl rfl member

theorem sent_sendSegments :
    ∃ last, Sent probe turn turn.sendSegments.1 places last ∧
      Flowing late turn.sendSegments.1.tcb.state turn.sendSegments.1.tcb.snd.finQueued last := by
  obtain ⟨once, sent, flows⟩ := sent_sendSegment probe stands flowing false
  rcases turn.sendSegments_fst with same | same
  · rw [same]
    exact ⟨once, sent, flows⟩
  · obtain ⟨twice, sent', flows'⟩ := sent_sendSegment probe sent.stands flows false
    rw [same]
    exact ⟨twice, sent.trans sent', flows'⟩

end

section

variable (placed : turn.tcb.Placed late places)
include placed

theorem sent_sendWhatWeCan :
    ∃ last, Sent probe turn (turn.sendWhatWeCan now) places last ∧
      (turn.sendWhatWeCan now).tcb.Placed late last := by
  by_cases may : turn.maySend
  · obtain ⟨last, sent, flows⟩ :=
      sent_sendSegments probe placed.stands (placed.phase.flowing_of_may may)
    have armed : Pushes Action.Plain 2 turn.sendSegments.1 (turn.sendWhatWeCan now) := by
      have probed := (turn.sendSegments.1.still_armProbeIfClosed now).pushes
      rw [sendWhatWeCan_of_may turn now may]
      split
      · exact probed.trans (still_coverSent _ now).pushes
      · exact probed.weaken (by decide)
    obtain ⟨snd, _, state⟩ := turn.sendWhatWeCan_tcb_of_may now may
    refine ⟨last, sent.trans (.of_same sent.stands armed snd), ?_⟩
    exact Tcb.Placed.of_same ⟨sent.stands, .flowing flows⟩ state snd
  · rw [sendWhatWeCan_of_not turn now may]
    exact ⟨places, .refl placed.stands, placed⟩

theorem sent_shutdown (opened : turn.tcb.state ≠ .synReceived) :
    ∃ last, Sent probe turn (turn.shutdown now) places last ∧
      (turn.shutdown now).tcb.Placed late last := by
  have stands := placed.stands
  have queued (can : turn.tcb.state.canSend = true) :
      ∃ last, Sent probe turn (turn.queueFin.sendWhatWeCan now) places last ∧
        (turn.queueFin.sendWhatWeCan now).tcb.Placed late last := by
    have stands' : turn.queueFin.tcb.snd.Stands places := { stands with }
    have flows : Flowing late turn.queueFin.tcb.state turn.queueFin.tcb.snd.finQueued places := by
      cases placed.phase.flowing_of_may (.inl can) with
      | synReceived state _ _ _ _ => exact absurd state opened
      | sending _ una none => exact .sending can una none
      | finishing ends una fin last => exact .finishing ends una fin last
    have queue : Sent probe turn turn.queueFin places places :=
      .of_bare (.of_same rfl : Pushes _ 0 _ _) (.refl places) stands' rfl rfl rfl
    obtain ⟨last, sent, placed'⟩ :=
      @sent_sendWhatWeCan turn.queueFin now late places probe ⟨stands', .flowing flows⟩
    exact ⟨last, queue.trans sent, placed'⟩
  rw [shutdown]
  split
  case h_1 state => exact queued (by rw [state]; rfl)
  case h_2 state => exact queued (by rw [state]; rfl)
  case h_3 state => exact absurd state opened
  case h_4 | h_5 => exact ⟨places, .of_same stands (turn.still_close _).pushes rfl, placed.close⟩
  case h_6 => exact ⟨places, .refl stands, placed⟩

theorem placed_abort :
    turn.abort.tcb.Placed late places := by
  rw [abort]
  split
  · exact placed.close
  · exact placed.close
  · exact placed.close

theorem placed_reopenWindow (bytes : Nat) :
    (turn.reopenWindow bytes).tcb.Placed late places := by
  rw [reopenWindow]
  split
  · exact placed.of_same rfl rfl
  · exact placed.of_same rfl rfl

end

theorem sent_resendFin (stands : turn.tcb.snd.Stands places)
    (flowing : Flowing late turn.tcb.state turn.tcb.snd.finQueued places) :
    ∃ last, Sent probe turn turn.resendFin places last ∧
      Flowing late turn.resendFin.tcb.state turn.resendFin.tcb.snd.finQueued last := by
  have pushes := turn.still_resendFin.pushes.bare
  have unmoved (same : turn.resendFin = turn) : ∃ last, Sent probe turn turn.resendFin places last ∧
        Flowing late turn.resendFin.tcb.state turn.resendFin.tcb.snd.finQueued last := by
    rw [same]
    exact ⟨places, .refl stands, flowing⟩
  cases flowing with
  | synReceived _ _ _ none _ | sending _ _ none =>
    exact unmoved (by rw [resendFin, stands.fin_of_none none])
  | @finishing ends una fin some_ last =>
    rw [resendFin, stands.fin_of_some some_] at pushes unmoved ⊢
    dsimp only at pushes unmoved ⊢
    split
    · rename_i again
      rw [if_pos again] at pushes
      have acked := stands.finAcked_eq
      rw [Sender.finAcked, stands.fin_of_some some_, some_, Option.any_some, Option.any_some,
        again.1] at acked
      have short : places.una ≤ fin := Nat.le_of_not_lt (of_decide_eq_false acked.symm)
      refine ⟨{ places with nxt := fin + 1 }, ?_, .finishing ends una some_ last⟩
      exact .of_bare pushes ⟨rfl, rfl, .inl rfl⟩ (stands.resendFin some_ short) rfl rfl rfl
    · rename_i done
      rw [if_neg done] at unmoved
      exact unmoved rfl

theorem sent_goBack (stands : turn.tcb.snd.Stands places) :
    Sent probe turn turn.goBack places { places with nxt := places.una } :=
  .of_bare (.of_same rfl : Pushes _ 0 _ _) ⟨rfl, rfl, .inl rfl⟩ stands.goBack rfl rfl rfl

theorem sent_resendSyn (stands : turn.tcb.snd.Stands places)
    (fits : places.una + 1 ≤ places.avail) (acknowledgement : Option Sequence) :
    Sent probe turn (turn.resendSyn acknowledgement) places { places with nxt := places.una + 1 } :=
  .of_bare (turn.still_resendSyn acknowledgement).pushes.bare ⟨rfl, rfl, .inl rfl⟩
    (stands.sendSyn fits)
    rfl rfl rfl

section

variable (placed : turn.tcb.Placed late places)
include placed

theorem sent_resend (flowing : Flowing late turn.tcb.state turn.tcb.snd.finQueued places) :
    ∃ last, Sent probe turn turn.goBack.resend places last ∧
      turn.goBack.resend.tcb.Placed late last := by
  have back := sent_goBack probe placed.stands
  have restart (opened : turn.tcb.state ≠ .synReceived)
      (flows : Flowing late turn.goBack.tcb.state turn.goBack.tcb.snd.finQueued
        { places with nxt := places.una }) :
      ∃ last, Sent probe turn turn.goBack.resend places last ∧
        turn.goBack.resend.tcb.Placed late last := by
    have notSent : turn.goBack.tcb.state ≠ .synSent := fun state =>
      opened (flowing.synReceived_of_opening (by rw [show turn.tcb.state = _ from state]; rfl))
    rw [resend_of_synchronised turn.goBack notSent opened]
    obtain ⟨once, sent, flows⟩ := sent_sendSegment probe back.stands flows true
    obtain ⟨twice, sent', flows⟩ := sent_resendFin probe sent.stands flows
    exact ⟨twice, (back.trans sent).trans sent', sent'.stands, .flowing flows⟩
  cases flowing with
  | synReceived state una sent none unqueued =>
    have fits := placed.stands.nxt_le_of_none none
    have resends : turn.goBack.resend = turn.goBack.resendSyn (some turn.goBack.tcb.rcv.nxt) := by
      rw [resend, show turn.goBack.tcb.state = _ from state]
    have sent := back.trans (sent_resendSyn probe back.stands (by simp only; omega)
      (some turn.goBack.tcb.rcv.nxt))
    rw [resends]
    exact ⟨_, sent, sent.stands, .flowing (.synReceived state una (by simp) none unqueued)⟩
  | sending can una none =>
    refine restart (fun state => ?_) (.sending can una none)
    simp [state, State.canSend] at can
  | finishing ends una fin last =>
    refine restart (fun state => ?_) (.finishing ends una fin last)
    simp [state, State.finishing, State.finished] at ends

theorem sent_retransmit :
    ∃ last, Sent probe turn (turn.retransmit now) places last ∧
      (turn.retransmit now).tcb.Placed late last := by
  have stands := placed.stands
  rw [retransmit]
  split
  · exact ⟨places, .refl stands, placed⟩
  rename_i owed
  rw [not_or, Bool.not_eq_false] at owed
  obtain ⟨open_, awaits⟩ := owed
  split
  · exact ⟨places, .of_same stands (turn.still_close _).pushes rfl, placed.close⟩
  have armed {last : Places} (sent : Sent probe turn turn.goBack.resend places last)
      (placed : turn.goBack.resend.tcb.Placed late last) :
      ∃ last, Sent probe turn (turn.goBack.resend.armRetransmit now) places last ∧
        (turn.goBack.resend.armRetransmit now).tcb.Placed late last := by
    refine ⟨last, sent.trans (.of_same sent.stands (still_armRetransmit _ now).pushes ?_), ?_⟩
    · rw [armRetransmit_tcb]
    · rw [armRetransmit_tcb]
      exact placed
  cases placed.phase with
  | closed state _ => exact absurd state open_
  | listen state una nxt _ _ =>
    have same : turn.tcb.snd.una = turn.tcb.snd.nxt := by
      rw [stands.una, stands.nxt, una, nxt]
    simp [Sender.awaitingAck, same] at awaits
  | synSent state una nxt none unqueued =>
    have resends : turn.goBack.resend = turn.goBack.resendSyn Option.none := by
      rw [resend, show turn.goBack.tcb.state = _ from state]
    have fits := stands.nxt_le_of_none none
    have back := sent_goBack probe stands
    have sent := back.trans (sent_resendSyn probe back.stands (by simp only; omega) Option.none)
    rw [← resends] at sent
    refine armed sent ⟨sent.stands, ?_⟩
    rw [resends]
    exact .synSent state una (by simp [una]) none unqueued
  | flowing flowing =>
    obtain ⟨last, sent, placed⟩ := sent_resend probe placed flowing
    exact armed sent placed

theorem sent_probe (its : probe) :
    ∃ last, Sent probe turn (turn.probe now) places last ∧
      (turn.probe now).tcb.Placed late last := by
  rw [Turn.probe]
  split
  · exact ⟨places, .refl placed.stands, placed⟩
  rename_i probes
  rw [not_or, not_or, Bool.not_eq_false] at probes
  obtain ⟨can, _, unsent⟩ := probes
  have flowing := placed.phase.flowing_of_may (.inl can)
  rw [placed.stands.unsent_eq] at unsent
  have stands := placed.stands.advance (Nat.one_le_iff_ne_zero.mpr unsent)
  let byte : Emit :=
    { flags := { psh := true }, sequence := turn.tcb.snd.nxt,
      acknowledgement := some turn.tcb.rcv.nxt, window := turn.tcb.rcv.wnd, length := 1,
      mss := none }
  let moved : Turn :=
    { tcb := { turn.tcb with snd.nxt := turn.tcb.snd.nxt.after 1 }
      actions := turn.actions.push (.emit byte) }
  have sent : Sent probe turn moved places { places with nxt := places.nxt + 1 } := by
    refine ⟨⟨rfl, rfl, .inl rfl⟩, stands, rfl, rfl, rfl, fun emit member data => ?_⟩
    have pushed : emit ∈ (turn.actions.push (.emit byte)).emits := member
    rw [Actions.emits_push] at pushed
    rcases List.mem_append.mp pushed with old | new
    · exact .inl old
    obtain rfl : emit = byte := List.mem_singleton.mp new
    exact .inr ⟨places.nxt, placed.stands.nxt, flowing.started placed.stands,
      placed.stands.order, by simp only [byte]; omega, .inr ⟨rfl, its⟩⟩
  have armed : Pushes Action.Plain 2 moved ((moved.armProbe now).armRetransmit now) :=
    (moved.still_armProbe now).pushes.trans (still_armRetransmit _ now).pushes
  refine ⟨{ places with nxt := places.nxt + 1 },
    sent.trans (.of_same sent.stands armed (by rw [armRetransmit_tcb]; rfl)), ?_⟩
  rw [armRetransmit_tcb]
  refine ⟨stands, .flowing ?_⟩
  cases flowing with
  | synReceived state _ _ _ _ => simp [state, State.canSend] at can
  | sending _ una none => exact .sending can una none
  | finishing ends una fin last => exact .finishing ends una fin last

theorem sent_expired (timer : Timer) :
    ∃ last, Sent (timer = .probe) turn (turn.expired timer now) places last ∧
      (turn.expired timer now).tcb.Placed late last := by
  cases timer with
  | retransmit => exact sent_retransmit _ placed
  | delayedAck =>
    rw [expired]
    split
    · exact ⟨places, .of_same placed.stands turn.still_acknowledgeNow.pushes rfl,
        placed.of_same rfl rfl⟩
    · exact ⟨places, .refl placed.stands, placed⟩
  | probe => exact sent_probe _ placed rfl
  | timeWait =>
    rw [expired]
    split
    · exact ⟨places, .of_same placed.stands (turn.still_close _).pushes rfl, placed.close⟩
    · exact ⟨places, .refl placed.stands, placed⟩

end

end Turn

end Bhaskix.Net
