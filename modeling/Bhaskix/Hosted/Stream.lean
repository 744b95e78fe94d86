import Bhaskix.Library.Run

/-!
The receive side of a hosted stream: the service that delivers into the program's ring, the adapter
that reads out of it, and the status word between them.
-/

namespace Bhaskix.Hosted

open Library Function
open List hiding after all count length min sum take

abbrev streamRingBytes : Nat := 4 * 4096
abbrev chunk : Nat := 4096

inductive Ending
  | refused
  | unreachable
  | reset
  | orderly
  | aborted
  deriving DecidableEq, Repr

def peerMaySend (state : Nat) : Bool := decide (4 ≤ state ∧ state ≤ 6)

/-- `taken` is how far the machine is in the peer's stream, `rcv_nxt - (irs + 1)`, and `delivered`
how many bytes have been put in the ring. `told` is all that was ever reported as consumed, `closed`
that the peer has closed or reset it. -/
structure Service where
  ring : Nat → UInt8
  taken : Nat
  delivered : Nat
  window : Nat
  state : Fin 11
  ended : Option Ending
  told : Nat
  closed : Bool

def writeRing (ring : Nat → UInt8) (place : Nat) : List UInt8 → Nat → UInt8
  | [] => ring
  | byte :: bytes => writeRing (update ring (place % streamRingBytes) byte) (place + 1) bytes

namespace Service

def take (bytes : List UInt8) (service : Service) : Service :=
  { service with
    taken := service.taken + bytes.length
    window := service.window - bytes.length }

def put (bytes : List UInt8) (service : Service) : Service :=
  { service.take bytes with
    ring := writeRing service.ring (service.taken % 2 ^ 32) bytes
    delivered := service.delivered + bytes.length }

/-- A segment that is acceptable. Whether the connection can receive is asked before the machine is
driven, so what comes with the segment that completes an open is taken and not put in the ring. -/
def deliver (payload : List UInt8) (service : Service) : Service :=
  let bytes := payload.take service.window
  if service.state = 3 then { service.take bytes with state := 4 }
  else if peerMaySend service.state then service.put bytes
  else service

/-- What the machine takes of such a segment into the peer's stream. -/
def admits (payload : List UInt8) (service : Service) : List UInt8 :=
  if service.state = 3 ∨ peerMaySend service.state then payload.take service.window else []

def change (state : Fin 11) (ended : Option Ending) (byPeer : Bool) (service : Service) : Service :=
  { service with state := state, ended := ended, closed := service.closed || byPeer }

def packed (service : Service) : Nat := (service.state.val <<< 32 ||| service.delivered) % 2 ^ 64

def recv (consumed : Nat) (service : Service) : Service :=
  { service with
    window := min streamRingBytes (service.window + consumed % 2 ^ 32)
    told := service.told + consumed }

end Service

/-- How the adapter has a dial: `failed` with whether its error is still to be told. -/
inductive Dial
  | waiting
  | established
  | failed (pending : Bool)
  deriving DecidableEq, Repr

def dialProgress (state : Nat) : Option Ending → Dial
  | none =>
    if state = 2 ∨ state = 3 then .waiting
    else if 4 ≤ state then .established
    else .failed true
  | some .reset | some .orderly => .established
  | some _ => .failed true

structure Connection where
  dial : Dial
  consumed : Nat
  told : Nat
  resetTold : Bool

inductive Errno
  | connRefused
  | timedOut
  | connReset
  | connAborted
  | again
  | fault
  deriving DecidableEq, Repr

def endingErrno : Option Ending → Errno
  | some .refused => .connRefused
  | some .unreachable => .timedOut
  | some .reset => .connReset
  | _ => .connAborted

inductive Answer
  | value (count : Nat)
  | error (code : Errno)
  | park (slot : Nat)
  deriving DecidableEq, Repr

/-- `stream` is all that was taken of the segments that came, `returned` what the calls gave. -/
structure Link where
  service : Service
  connection : Connection
  stream : List UInt8
  returned : List UInt8

namespace Link

/-- An accepted connection is open from the start; a dialled one has its `SYN` out. -/
def opened (ring : Nat → UInt8) (accepted : Bool) : Link where
  service := ⟨ring, 0, 0, streamRingBytes, if accepted then 4 else 2, none, 0, false⟩
  connection := ⟨if accepted then .established else .waiting, 0, 0, false⟩
  stream := []
  returned := []

variable (link : Link) (nonblocking : Bool) (count : Nat) (copies : Bool) (park : Option Nat)

def poll : Link :=
  { link with
    service := link.service.recv (link.connection.consumed - link.connection.told)
    connection := { link.connection with told := link.connection.consumed } }

def state : Nat := link.service.packed >>> 32

def available : Nat := (link.service.packed &&& 0xffffffff) - link.connection.consumed

def noteReset : Link :=
  { link with connection := { link.connection with resetTold := true } }

def bytesAt (take : Nat) : List UInt8 :=
  (List.range take).map fun offset =>
    link.service.ring ((link.connection.consumed + offset) % streamRingBytes)

def consume (take : Nat) (link : Link) : Link :=
  { link with
    connection := { link.connection with consumed := link.connection.consumed + take }
    returned := link.returned ++ link.bytesAt take }

/-- `copies` says that the program's buffer can be written; `park` is the slot a call that has to
wait is parked on. -/
def settle (link : Link) : Answer × Link :=
  if link.available = 0 then
    if link.service.ended = some .reset ∧ link.connection.resetTold = false then
      (.error .connReset, link.noteReset)
    else if peerMaySend link.state = false then (.value 0, link)
    else if nonblocking then (.error .again, link)
    else (park.elim (.error .again) .park, link)
  else
    let take := min (min link.available count) chunk
    if copies then (.value take, link.consume take) else (.error .fault, link)

def withDial (dial : Dial) (link : Link) : Link :=
  { link with connection := { link.connection with dial } }

def settleDial (link : Link) : Link :=
  match link.connection.dial with
  | .waiting => link.withDial (dialProgress link.state link.service.ended)
  | _ => link

def read (link : Link) : Answer × Link :=
  let link := link.settleDial
  match link.connection.dial with
  | .waiting => (if nonblocking then .error .again else park.elim (.error .again) .park, link)
  | .failed true => (.error (endingErrno link.service.ended), link.withDial (.failed false))
  | .failed false => (.value 0, link)
  | .established => link.poll.settle nonblocking count copies park

def recvfrom (link : Link) : Answer × Link :=
  match link.read nonblocking count copies park with
  | (.park slot, after) => (.value slot, after)
  | done => done

end Link

inductive Input
  | deliver (payload : List UInt8)
  | change (state : Fin 11) (ended : Option Ending) (byPeer : Bool)
  | poll
  | read (nonblocking : Bool) (count : Nat) (copies : Bool) (park : Option Nat)
  | recvfrom (nonblocking : Bool) (count : Nat) (copies : Bool) (park : Option Nat)

namespace Link

def act : Input → Link → Option Answer × Link
  | .deliver payload, link => (none, { link with
      service := link.service.deliver payload
      stream := link.stream ++ link.service.admits payload })
  | .change state ended byPeer, link =>
    (none, { link with service := link.service.change state ended byPeer })
  | .poll, link => (none, link.poll)
  | .read nonblocking count copies park, link =>
    (link.read nonblocking count copies park).map some id
  | .recvfrom nonblocking count copies park, link =>
    (link.recvfrom nonblocking count copies park).map some id

def step (input : Input) (link : Link) : Link := (link.act input).2

end Link

def Input.polls : Input → Bool
  | deliver _ => false
  | change _ _ _ => false
  | _ => true

/-- The bytes given are the stream's, from its start; nothing is the answer only at its end; no call
waits with a byte unread. -/
structure Whole (before : Link) (input : Input) : Prop where
  within : (before.act input).2.returned <+: (before.act input).2.stream
  counted : ∀ count, (before.act input).1 = some (.value count) →
    (before.act input).2.returned.length = before.returned.length + count
  atEnd : (before.act input).1 = some (.value 0) →
    (before.act input).2.returned = (before.act input).2.stream ∧
      (before.act input).2.service.closed = true
  waits : ∀ slot, (before.act input).1 = some (.park slot) →
    (before.act input).2.returned = (before.act input).2.stream
  told : input.polls = true → (before.act input).2.service.told = before.returned.length

/-- A dial that has failed was ended by the peer, before any byte came. -/
def Link.Opens (link : Link) : Prop :=
  ∀ pending, link.settleDial.connection.dial = .failed pending →
    link.service.closed = true ∧ link.stream = []

/-- Fewer than `2 ^ 32` bytes come, none with the segment that completes an open; only the peer ends
the connection; calls ask for something, of a dial that has not failed by itself; a `recvfrom` need
not wait. -/
def Fair (link : Link) : Input → Prop
  | .deliver payload => link.stream.length + payload.length < 2 ^ 32 ∧
      (link.service.state = 3 → payload = [])
  | .change state ended byPeer => state = 3 ∧ link.service.state = 2 ∧ ended = none ∨
      (state ≠ 2 ∧ state ≠ 3) ∧
        (peerMaySend state = true ∨ link.service.closed = true ∨ byPeer = true)
  | .poll => True
  | .read _ count _ _ => 0 < count ∧ link.Opens
  | .recvfrom nonblocking count _ _ => 0 < count ∧ link.Opens ∧ (nonblocking = true ∨
      link.returned.length < link.stream.length ∨
      peerMaySend link.service.state = false ∧ link.service.state ≠ 2 ∧ link.service.state ≠ 3)

/-- The counters of the two sides stand for one stream, of which the ring holds what is unread. -/
structure Link.Sound (link : Link) : Prop where
  small : link.stream.length < 2 ^ 32
  taken : link.service.taken = link.stream.length
  delivered : link.service.delivered = link.stream.length
  returned : link.returned = link.stream.take link.connection.consumed
  within : link.connection.consumed ≤ link.stream.length
  told : link.connection.told = link.service.told
  spent : link.service.told ≤ link.connection.consumed
  window : link.service.window + link.stream.length = streamRingBytes + link.service.told
  ring : ∀ place (inside : place < link.stream.length), link.connection.consumed ≤ place →
    link.service.ring (place % streamRingBytes) = link.stream.get ⟨place, inside⟩
  opening : link.service.state = 2 ∨ link.service.state = 3 →
    link.connection.dial = .waiting ∧ link.service.ended = none ∧ link.stream = []
  closed : peerMaySend link.service.state = false →
    link.service.closed = true ∨ link.service.state = 2 ∨ link.service.state = 3

variable {bytes : List UInt8}

theorem writeRing_outside : ∀ {ring : Nat → UInt8} {place : Nat},
      (∀ offset < bytes.length, slot ≠ (place + offset) % streamRingBytes) →
        writeRing ring place bytes slot = ring slot := by
  induction bytes with
  | nil =>
    intro ring place _
    rfl
  | cons byte bytes later =>
    intro ring place apart
    rw [writeRing, later]
    · exact update_of_ne (apart 0 (Nat.zero_lt_succ _)) _ _
    intro offset inside
    have other := apart (offset + 1) (Nat.succ_lt_succ inside)
    rwa [Nat.add_comm offset, ← Nat.add_assoc] at other

theorem writeRing_inside : ∀ {ring : Nat → UInt8} {place : Nat}, bytes.length ≤ streamRingBytes →
      ∀ offset (inside : offset < bytes.length),
        writeRing ring place bytes ((place + offset) % streamRingBytes) =
          bytes.get ⟨offset, inside⟩ := by
  induction bytes with
  | nil =>
    intro ring place _ offset inside
    cases inside
  | cons byte bytes later =>
    intro ring place few offset inside
    rw [length_cons] at few
    rw [writeRing]
    cases offset with
    | zero =>
      rw [writeRing_outside]
      · exact update_self _ _ _
      intro other short
      dsimp only [streamRingBytes] at few ⊢
      omega
    | succ offset =>
      have rest := @later (update ring (place % streamRingBytes) byte) (place + 1)
        (by omega) offset (Nat.lt_of_succ_lt_succ inside)
      rw [show place + (offset + 1) = place + 1 + offset by omega]
      exact rest

namespace Link

theorem sound_opened (ring : Nat → UInt8) (accepted : Bool) : (opened ring accepted).Sound where
  small := Nat.two_pow_pos 32
  taken := rfl
  delivered := rfl
  returned := rfl
  within := Nat.le_refl _
  told := rfl
  spent := Nat.le_refl _
  window := rfl
  ring _ inside := absurd inside (Nat.not_lt_zero _)
  opening := by cases accepted <;> simp [opened]
  closed := by cases accepted <;> simp [opened, peerMaySend]

variable {link : Link}

section

variable (sound : link.Sound)
include sound

theorem Sound.put (may : peerMaySend link.service.state = true)
    (few : bytes.length ≤ link.service.window)
    (room : link.stream.length + bytes.length < 2 ^ 32) :
    Sound { link with service := link.service.put bytes, stream := link.stream ++ bytes } := by
  have small := sound.small
  have within := sound.within
  have spent := sound.spent
  have window := sound.window
  dsimp only [streamRingBytes] at window
  have place : link.service.taken % 2 ^ 32 = link.stream.length := by
    rw [sound.taken, Nat.mod_eq_of_lt small]
  have length : (link.stream ++ bytes).length = link.stream.length + bytes.length :=
    length_append
  refine ⟨length.trans_lt room, ?_, ?_, ?_, ?_, sound.told, spent, ?_, ?_, ?_, sound.closed⟩
  · exact (congrArg (· + bytes.length) sound.taken).trans length.symm
  · exact (congrArg (· + bytes.length) sound.delivered).trans length.symm
  · exact sound.returned.trans (take_append_of_le_length within).symm
  · exact within.trans (by rw [length]; omega)
  · change link.service.window - bytes.length + (link.stream ++ bytes).length =
      streamRingBytes + link.service.told
    rw [length]
    dsimp only [streamRingBytes]
    omega
  swap
  · rintro (opening | opening) <;>
      rw [show link.service.state = _ from opening] at may <;> cases may
  intro at' inside (unread : link.connection.consumed ≤ at')
  have inside' : at' < link.stream.length + bytes.length := length ▸ inside
  change writeRing link.service.ring (link.service.taken % 2 ^ 32) bytes
    (at' % streamRingBytes) = (link.stream ++ bytes).get ⟨at', inside⟩
  rw [place]
  by_cases old : at' < link.stream.length
  · -- An unread byte and the new ones span less than the ring.
    rw [writeRing_outside]
    · rw [sound.ring at' old unread]
      exact (getElem_append_left old).symm
    · intro offset near
      dsimp only [streamRingBytes]
      omega
  · obtain ⟨offset, rfl⟩ := Nat.exists_eq_add_of_le (Nat.not_lt.mp old)
    rw [writeRing_inside (by dsimp only [streamRingBytes]; omega) offset (by omega)]
    simp

theorem Sound.deliver {payload : List UInt8}
    (room : link.stream.length + payload.length < 2 ^ 32)
    (bare : link.service.state = 3 → payload = []) : (link.step (.deliver payload)).Sound := by
  rw [step, act, Service.deliver, Service.admits]
  dsimp only
  split
  · next completes =>
    have same : link.service.take [] = link.service := by simp [Service.take]
    rw [bare completes, take_nil, same, ite_self, append_nil]
    exact { sound with opening := by simp, closed := nofun }
  next opened =>
  split
  · next may =>
    have fewer := length_take_le' link.service.window payload
    rw [if_pos (.inr may)]
    exact sound.put may (length_take_le _ _) (by omega)
  · next stopped =>
    rw [if_neg (not_or.mpr ⟨opened, stopped⟩), append_nil]
    exact sound

theorem Sound.change {state : Fin 11} {ended : Option Ending}
    (fair : Fair link (.change state ended byPeer)) :
    Sound { link with service := link.service.change state ended byPeer } := by
  refine { sound with opening := ?_, closed := ?_ }
  · intro opening
    rcases fair with ⟨_, before, rfl⟩ | ⟨⟨neither, nor⟩, _⟩
    · obtain ⟨dial, _, empty⟩ := sound.opening (.inl before)
      exact ⟨dial, rfl, empty⟩
    · exact absurd opening (not_or.mpr ⟨neither, nor⟩)
  · intro stopped
    rcases fair with ⟨next, _⟩ | ⟨_, may | closed | byPeer⟩
    · exact .inr (.inr next)
    · cases may.symm.trans stopped
    · exact .inl (Bool.or_eq_true_iff.mpr (.inl closed))
    · exact .inl (Bool.or_eq_true_iff.mpr (.inr byPeer))

theorem Sound.poll :
    link.poll.Sound ∧ link.poll.service.told = link.returned.length := by
  have small := sound.small
  have within := sound.within
  have spent := sound.spent
  have window := sound.window
  have told : link.poll.service.told = link.connection.consumed := by
    have same := sound.told
    change link.service.told + (link.connection.consumed - link.connection.told) = _
    omega
  have length : link.returned.length = link.connection.consumed := by
    rw [sound.returned, length_take, Nat.min_eq_left within]
  refine ⟨⟨small, sound.taken, sound.delivered, sound.returned, within, told.symm, told.le, ?_,
    sound.ring, sound.opening, sound.closed⟩, told.trans length.symm⟩
  rw [told]
  have same := sound.told
  change min streamRingBytes (link.service.window +
    (link.connection.consumed - link.connection.told) % 2 ^ 32) + link.stream.length = _
  rw [Nat.mod_eq_of_lt (by omega)]
  dsimp only [streamRingBytes] at window ⊢
  omega

theorem Sound.packed : link.state = link.service.state ∧
      link.available = link.stream.length - link.connection.consumed := by
  have small := sound.small
  have state := link.service.state.isLt
  have sum : link.service.packed = link.service.state * 2 ^ 32 + link.stream.length := by
    rw [Service.packed, sound.delivered, ← Nat.shiftLeft_add_eq_or_of_lt small, Nat.shiftLeft_eq,
      Nat.mod_eq_of_lt (by omega)]
  have low : link.service.packed &&& 0xffffffff = link.stream.length := by
    rw [sum, show 0xffffffff = 2 ^ 32 - 1 by rfl, Nat.and_two_pow_sub_one_eq_mod,
      Nat.mul_add_mod_self_right, Nat.mod_eq_of_lt small]
  constructor
  · rw [Link.state, sum, Nat.shiftRight_eq_div_pow]
    omega
  · rw [available, low]

end

/-- A call that was made with the bytes of `before` given. -/
structure Serves (before : List UInt8) (done : Answer × Link) : Prop where
  sound : done.2.Sound
  counted : ∀ count, done.1 = .value count → done.2.returned.length = before.length + count
  atEnd : done.1 = .value 0 →
    done.2.returned = done.2.stream ∧ done.2.service.closed = true
  waits : ∀ slot, done.1 = .park slot → done.2.returned = done.2.stream

section

variable (sound : link.Sound) (few : link.connection.consumed + take ≤ link.stream.length)
include sound few

theorem Sound.bytesAt :
    link.bytesAt take = (link.stream.drop link.connection.consumed).take take := by
  apply ext_getElem
  · simp only [Link.bytesAt, length_map, length_range, length_take, length_drop]
    omega
  intro offset inside _
  simp only [Link.bytesAt, length_map, length_range] at inside
  simp only [Link.bytesAt, getElem_map, getElem_range, getElem_take,
    getElem_drop]
  exact sound.ring _ (by omega) (by omega)

theorem Sound.consume :
    (link.consume take).Sound ∧ (link.consume take).returned.length =
      link.returned.length + take := by
  have more := sound.bytesAt few
  constructor
  · refine { sound with returned := ?_, within := few, spent := ?_, ring := ?_ }
    · change link.returned ++ link.bytesAt take = _
      rw [more, sound.returned]
      exact take_add.symm
    · exact sound.spent.trans (Nat.le_add_right _ _)
    · intro place inside unread
      exact sound.ring place inside ((Nat.le_add_right _ _).trans unread)
  · change (link.returned ++ link.bytesAt take).length = _
    simp [Link.bytesAt]

end

theorem Sound.settle (sound : link.Sound) (connected : link.connection.dial = .established)
    (asks : 0 < count) (nonblocking copies : Bool) (park : Option Nat) :
    Serves link.returned (link.settle nonblocking count copies park) ∧
      (link.settle nonblocking count copies park).2.service = link.service := by
  obtain ⟨state, available⟩ := sound.packed
  have within := sound.within
  rw [Link.settle]
  split
  case isTrue none =>
    have all : link.returned = link.stream := by
      rw [sound.returned]
      exact take_of_length_le (by omega)
    split
    · exact ⟨⟨{ sound with within := within }, nofun, nofun, nofun⟩, rfl⟩
    split
    case isTrue stopped =>
      rw [state] at stopped
      have closed := (sound.closed stopped).resolve_right fun opening => by
        cases connected.symm.trans (sound.opening opening).1
      refine ⟨⟨sound, ?_, fun _ => ⟨all, closed⟩, nofun⟩, rfl⟩
      intro other same
      cases same
      rfl
    case isFalse =>
      split
      · exact ⟨⟨sound, nofun, nofun, nofun⟩, rfl⟩
      cases park with
      | none => exact ⟨⟨sound, nofun, nofun, nofun⟩, rfl⟩
      | some slot => exact ⟨⟨sound, nofun, nofun, fun _ _ => all⟩, rfl⟩
  case isFalse some =>
    have few : link.connection.consumed + min (min link.available count) chunk ≤
        link.stream.length := by omega
    dsimp only
    split
    · obtain ⟨after, length⟩ := sound.consume few
      refine ⟨⟨after, ?_, ?_, nofun⟩, rfl⟩
      · intro other same
        cases same
        exact length
      · intro same
        have zero := Answer.value.inj same
        dsimp only [chunk] at zero
        omega
    · exact ⟨⟨sound, nofun, nofun, nofun⟩, rfl⟩

theorem settle_ne_park (sound : link.Sound) (answers : nonblocking = true ∨
      link.returned.length < link.stream.length ∨ peerMaySend link.service.state = false)
    (slot : Nat) : (link.settle nonblocking count copies park).1 ≠ .park slot := by
  obtain ⟨state, available⟩ := sound.packed
  have length : link.returned.length = link.connection.consumed := by
    rw [sound.returned, length_take, Nat.min_eq_left sound.within]
  rw [Link.settle]
  split
  case isTrue none =>
    split
    · nofun
    rw [state]
    split
    · nofun
    case isFalse may =>
      rcases answers with quick | unread | stopped
      · rw [if_pos quick]
        nofun
      · omega
      · exact absurd stopped may
  case isFalse =>
    dsimp only
    split
    · nofun
    · nofun

theorem recvfrom_eq_read
    (answers : ∀ slot, (link.read nonblocking count copies park).1 ≠ .park slot) :
    link.recvfrom nonblocking count copies park = link.read nonblocking count copies park := by
  rw [recvfrom]
  split
  case h_1 slot after same => exact absurd (congrArg Prod.fst same) (answers slot)
  case h_2 => rfl

theorem dialProgress_eq_waiting {state : Fin 11}
    (waiting : dialProgress state ended = .waiting) : state = 2 ∨ state = 3 := by
  unfold dialProgress at waiting
  split at waiting
  · split at waiting
    · next opening => exact opening.imp Fin.ext Fin.ext
    · split at waiting <;> cases waiting
  all_goals cases waiting

/-- A dial that is still waited for has brought nothing. -/
theorem Sound.settleDial (sound : link.Sound) : link.settleDial.Sound ∧
    link.settleDial.service = link.service ∧ link.settleDial.stream = link.stream ∧
    link.settleDial.returned = link.returned ∧
    (link.settleDial.connection.dial = .waiting →
      (link.service.state = 2 ∨ link.service.state = 3) ∧ link.stream = []) := by
  unfold Link.settleDial
  split
  · next waits =>
    rw [sound.packed.1]
    refine ⟨{ sound with opening := fun opening => ?_ }, rfl, rfl, rfl, fun waiting => ?_⟩
    · obtain ⟨_, ended, empty⟩ := sound.opening opening
      refine ⟨?_, ended, empty⟩
      have number : (link.service.state : Nat) = 2 ∨ (link.service.state : Nat) = 3 :=
        opening.imp (congrArg Fin.val) (congrArg Fin.val)
      change dialProgress link.service.state link.service.ended = _
      rw [ended, dialProgress, if_pos number]
    · have opening := dialProgress_eq_waiting waiting
      exact ⟨opening, (sound.opening opening).2.2⟩
  · next past =>
    exact ⟨sound, rfl, rfl, rfl, fun waiting => absurd waiting past⟩

theorem Sound.returned_within (sound : link.Sound) : link.returned <+: link.stream := by
  rw [sound.returned]
  exact take_prefix _ _

theorem Sound.silent (done : link.act input = (none, after))
    (sound : after.Sound) (told : input.polls = true → after.service.told = link.returned.length) :
    Whole link input ∧ (link.step input).Sound := by
  refine ⟨⟨?_, ?_, ?_, ?_, ?_⟩, ?_⟩
  · rw [done]
    exact sound.returned_within
  · rw [done]
    nofun
  · rw [done]
    nofun
  · rw [done]
    nofun
  · rw [done]
    exact told
  · rw [step, done]
    exact sound

theorem Sound.served (told : done.2.service.told = link.returned.length)
    (serves : Serves link.returned done) (same : link.act input = (some done.1, done.2)) :
    Whole link input ∧ (link.step input).Sound := by
  refine ⟨⟨?_, ?_, ?_, ?_, ?_⟩, ?_⟩
  · rw [same]
    exact serves.sound.returned_within
  · intro count answer
    rw [same] at answer ⊢
    exact serves.counted count (Option.some.inj answer)
  · intro answer
    rw [same] at answer ⊢
    exact serves.atEnd (Option.some.inj answer)
  · intro slot answer
    rw [same] at answer ⊢
    exact serves.waits slot (Option.some.inj answer)
  · intro _
    rw [same]
    exact told
  · rw [step, same]
    exact serves.sound

/-- With nothing to read yet nothing has been told either. -/
theorem Sound.empty (sound : link.Sound) (empty : link.stream = []) :
    link.returned = [] ∧ link.service.told = 0 := by
  have within := sound.within
  have spent := sound.spent
  rw [empty, length_nil] at within
  exact ⟨by rw [sound.returned, empty, take_nil], by omega⟩

theorem Sound.read (sound : link.Sound) (asks : 0 < count) (opens : link.Opens)
    (nonblocking copies : Bool) (park : Option Nat) :
    Serves link.returned (link.read nonblocking count copies park) ∧
      (link.read nonblocking count copies park).2.service.told = link.returned.length := by
  obtain ⟨settled, service, stream, returned, waiting⟩ := sound.settleDial
  unfold Opens at opens
  rw [Link.read]
  generalize link.settleDial = next at *
  rw [← service, ← stream] at waiting opens
  rw [← returned]
  split
  · next waits =>
    obtain ⟨none, told⟩ := settled.empty (waiting waits).2
    have all := none.trans (waiting waits).2.symm
    refine ⟨⟨settled, ?_, ?_, ?_⟩, by rw [told, none]; rfl⟩
    all_goals cases nonblocking <;> cases park <;> simp [all]
  · next failed =>
    obtain ⟨_, empty⟩ := opens _ failed
    obtain ⟨none, told⟩ := settled.empty empty
    refine ⟨⟨{ settled with opening := fun opening => ?_ }, nofun, nofun, nofun⟩,
      told.trans (by rw [none]; rfl)⟩
    cases failed.symm.trans (settled.opening opening).1
  · next failed =>
    obtain ⟨closed, empty⟩ := opens _ failed
    obtain ⟨none, told⟩ := settled.empty empty
    refine ⟨⟨settled, ?_, fun _ => ⟨none.trans empty.symm, closed⟩, nofun⟩, by rw [told, none]; rfl⟩
    intro count same
    cases same
    rfl
  · next connected =>
    obtain ⟨polled, told⟩ := settled.poll
    obtain ⟨serves, kept⟩ := polled.settle connected asks nonblocking copies park
    exact ⟨serves, (congrArg Service.told kept).trans told⟩

theorem read_ne_park (sound : link.Sound) (answers : nonblocking = true ∨
      link.returned.length < link.stream.length ∨
      peerMaySend link.service.state = false ∧ link.service.state ≠ 2 ∧ link.service.state ≠ 3)
    (slot : Nat) : (link.read nonblocking count copies park).1 ≠ .park slot := by
  obtain ⟨settled, service, stream, returned, waiting⟩ := sound.settleDial
  rw [Link.read]
  generalize link.settleDial = next at *
  rw [← service, ← stream] at waiting answers
  rw [← returned] at answers
  split
  · next waits =>
    obtain ⟨opening, empty⟩ := waiting waits
    rcases answers with quick | unread | ⟨_, neither, nor⟩
    · rw [if_pos quick]
      nofun
    · rw [empty] at unread
      cases unread
    · exact absurd opening (not_or.mpr ⟨neither, nor⟩)
  · nofun
  · nofun
  · exact settle_ne_park settled.poll.1 (answers.imp_right (Or.imp_right And.left)) slot

theorem Sound.whole (sound : link.Sound) (fair : Fair link input) :
    Whole link input ∧ (link.step input).Sound := by
  cases input with
  | deliver payload => exact silent rfl (sound.deliver fair.1 fair.2) nofun
  | change state ended byPeer => exact silent rfl (sound.change fair) nofun
  | poll => exact silent rfl sound.poll.1 fun _ => sound.poll.2
  | read nonblocking count copies park =>
    obtain ⟨serves, told⟩ := sound.read fair.1 fair.2 nonblocking copies park
    exact served told serves rfl
  | recvfrom nonblocking count copies park =>
    obtain ⟨serves, told⟩ := sound.read fair.1 fair.2.1 nonblocking copies park
    refine served told serves ?_
    rw [act, recvfrom_eq_read (read_ne_park sound fair.2.2)]
    rfl

end Link

/-- In every run whose inputs are fair, the program reads the peer's stream whole. -/
theorem stream_read_whole (ring : Nat → UInt8) (accepted : Bool) {link : Link}
    (reached : Reached Link.step Fair (.opened ring accepted) link) {input : Input}
    (fair : Fair link input) : Whole link input := by
  have sound := reached.invariant (motive := Link.Sound) (Link.sound_opened ring accepted)
    fun input held allowed => (held.whole allowed).2
  exact (sound.whole fair).1

/-- Both ends dial at once. Two bytes are delivered once that is through, and a read of one is
followed by a read of more. -/
theorem stream_read_whole_short : let dialled := Link.opened (fun _ => 0) false
    let inputs : List Input := [.change 3 none false, .deliver [], .deliver [7, 8],
      .read false 1 true none]
    AllMeet Link.step Fair inputs dialled ∧
      Whole (run Link.step inputs dialled) (.read false 10 true none) ∧
      (run Link.step inputs dialled).returned = [7] := by
  intro dialled inputs
  have meets : AllMeet Link.step Fair inputs dialled := by
    refine ⟨.inl ⟨rfl, rfl, rfl⟩, ⟨by decide, fun _ => rfl⟩, ⟨by decide, nofun⟩,
      ⟨Nat.one_pos, ?_⟩, trivial⟩
    unfold Link.Opens
    decide +kernel
  refine ⟨meets, stream_read_whole _ false (Reached.run_of_meet inputs .start meets)
    ⟨by decide, ?_⟩, by decide +kernel⟩
  unfold Link.Opens
  decide +kernel

structure Link.Drained (link : Link) (length : Nat) : Prop where
  sound : link.Sound
  stream : link.stream.length = length
  consumed : link.connection.consumed = length
  told : length ≤ link.service.told + 1
  state : link.service.state = 4
  ended : link.service.ended = none
  dial : link.connection.dial = .established

theorem Link.Drained.deliver {link : Link} {length : Nat} (drained : link.Drained length)
    (byte : UInt8) : link.step (.deliver [byte]) =
      { link with service := link.service.put [byte], stream := link.stream ++ [byte] } := by
  have window := drained.sound.window
  have stream := drained.stream
  have told := drained.told
  dsimp only [streamRingBytes] at window
  have fits : [byte].take link.service.window = [byte] :=
    take_of_length_le (by rw [length_singleton]; omega)
  rw [step, act, Service.deliver, Service.admits, fits, drained.state]
  rfl

theorem Link.Drained.next {link : Link} {length : Nat} (drained : link.Drained length)
    (small : length + 1 < 2 ^ 32) :
    ((link.step (.deliver [0])).step (.read false 1 true none)).Drained (length + 1) := by
  have stream := drained.stream
  set next := link.step (.deliver [0])
  have put : next = _ := drained.deliver 0
  have fair : Fair link (.deliver [0]) :=
    ⟨show link.stream.length + 1 < 2 ^ 32 by omega, by simp [drained.state]⟩
  have sound := (drained.sound.whole fair).2
  have length' : next.stream.length = length + 1 := by
    rw [put, length_append, stream]
    rfl
  have available := sound.poll.1.packed.2
  have one : next.poll.available = 1 := by
    rw [available]
    change next.stream.length - link.connection.consumed = 1
    rw [length', drained.consumed]
    omega
  have done : next.step (.read false 1 true none) =
      next.poll.consume 1 := by
    have connected : next.connection.dial = .established := drained.dial
    simp only [Link.step, Link.act, Link.read, Link.settleDial, connected, Link.settle, one]
    rfl
  rw [done]
  refine ⟨(sound.poll.1.consume ?_).1, length', ?_, ?_, ?_, ?_, drained.dial⟩
  · change link.connection.consumed + 1 ≤ next.stream.length
    rw [length', drained.consumed]
  · exact congrArg (· + 1) drained.consumed
  · have told : next.poll.service.told = link.returned.length :=
      sound.poll.2
    rw [drained.sound.returned, length_take, drained.consumed, stream, Nat.min_self] at told
    exact (congrArg (· + 1) told).ge
  · exact (congrArg (·.service.state) put).trans drained.state
  · exact (congrArg (·.service.ended) put).trans drained.ended

theorem exists_drained (ring : Nat → UInt8) (small : length < 2 ^ 32) :
    ∃ link, Reached Link.step Fair (.opened ring true) link ∧ link.Drained length := by
  induction length with
  | zero => exact ⟨_, .start, Link.sound_opened ring true, rfl, rfl, Nat.zero_le _, rfl, rfl, rfl⟩
  | succ length before =>
    obtain ⟨link, reached, drained⟩ := before (by omega)
    have stream := drained.stream
    refine ⟨_, .next (.read false 1 true none) (.next (.deliver [0]) reached ?_) ?_,
      drained.next small⟩
    · exact ⟨show link.stream.length + 1 < 2 ^ 32 by omega, by simp [drained.state]⟩
    · refine ⟨Nat.one_pos, fun pending failed => ?_⟩
      have connected : (link.step (.deliver [0])).connection.dial = .established := drained.dial
      simp [Link.settleDial, connected] at failed

/-- After `2 ^ 32` bytes a read waits with a byte unread. A `recvfrom` that finds nothing answers
with the number of a slot. And of the bytes that came with the segment that completes a simultaneous
open none is in the ring, so that the next ones are read from where they are not. -/
theorem stream_read_broken : (∃ link, Reached Link.step Fair (.opened (fun _ => 0) true) link ∧
        ((link.step (.deliver [1])).act (.read false 1 true (some 9))).1 = some (.park 9) ∧
        ¬Whole (link.step (.deliver [1])) (.read false 1 true (some 9))) ∧
      (((Link.opened (fun _ => 0) true).act (.recvfrom false 1 true (some 9))).1 = some (.value 9) ∧
        ¬Whole (.opened (fun _ => 0) true) (.recvfrom false 1 true (some 9))) ∧
      ¬Whole (run Link.step [.change 3 none false, .deliver [7, 8], .deliver [9]]
        (.opened (fun _ => 0) false)) (.read false 1 true none) := by
  have slot : ((Link.opened (fun _ => 0) true).act (.recvfrom false 1 true (some 9))).1 =
      some (.value 9) := by decide +kernel
  refine ⟨?_, ⟨slot, ?_⟩, ?_⟩
  · obtain ⟨link, reached, drained⟩ :=
      exists_drained (fun _ => 0) (show 2 ^ 32 - 1 < 2 ^ 32 by decide)
    set next := link.step (.deliver [1]) with stepped
    have put : next = _ := drained.deliver 1
    have delivered : next.service.delivered = 2 ^ 32 := by
      rw [put, Service.put, drained.sound.delivered, drained.stream]
      rfl
    have state : next.service.state = 4 :=
      (congrArg (·.service.state) put).trans drained.state
    have packed : next.poll.service.packed = 5 * 2 ^ 32 := by
      change (next.service.state.val <<< 32 |||
        next.service.delivered) % 2 ^ 64 = _
      rw [state, delivered]
      decide
    have none : next.poll.available = 0 := by
      rw [Link.available, packed]
      exact Nat.zero_sub _
    have parks : (next.poll.settle false 1 true (some 9)) =
        (.park 9, next.poll) := by
      have ended : next.poll.service.ended ≠ some .reset := by
        change next.service.ended ≠ some .reset
        rw [put, Service.put, Service.take, drained.ended]
        nofun
      rw [Link.settle, if_pos none, if_neg (fun both => ended both.1), Link.state, packed]
      rfl
    have done : next.act (.read false 1 true (some 9)) =
        (some (.park 9), next.poll) := by
      have connected : next.connection.dial = .established := drained.dial
      simp only [Link.act, Link.read, Link.settleDial, connected, parks]
      rfl
    refine ⟨link, reached, by rw [← stepped, done], ?_⟩
    intro whole
    have length := congrArg List.length (whole.waits 9 (by rw [done]))
    rw [done] at length
    change link.returned.length = next.stream.length at length
    rw [put, length_append, drained.sound.returned, length_take,
      drained.consumed, drained.stream, length_singleton] at length
    omega
  · intro whole
    have nothing : ((Link.opened (fun _ => 0) true).act
        (.recvfrom false 1 true (some 9))).2.returned = [] := by decide +kernel
    have counted := whole.counted 9 slot
    cases (congrArg List.length nothing).symm.trans counted
  · intro whole
    exact absurd whole.within (by decide +kernel)

end Bhaskix.Hosted
