import Bhaskix.Library.Bytes
import Bhaskix.Net.Segment
import Bhaskix.Net.TcpTurn

/-!
A handshake that keeps nothing until the peer answers: the number this end opens with is a keyed
hash of the connection, and the acknowledgement that returns it builds the control block.
-/

namespace Bhaskix.Net

open Library

namespace Sip

structure Key where
  k0 : UInt64
  k1 : UInt64
  deriving DecidableEq, Repr

structure State where
  v0 : UInt64
  v1 : UInt64
  v2 : UInt64
  v3 : UInt64
  deriving DecidableEq, Repr

def rotateLeft (word count : UInt64) : UInt64 :=
  word <<< count ||| word >>> (64 - count)

def State.round (state : State) : State :=
  let v0 := state.v0 + state.v1
  let v1 := rotateLeft state.v1 13 ^^^ v0
  let v0 := rotateLeft v0 32
  let v2 := state.v2 + state.v3
  let v3 := rotateLeft state.v3 16 ^^^ v2
  let v0 := v0 + v3
  let v3 := rotateLeft v3 21 ^^^ v0
  let v2 := v2 + v1
  let v1 := rotateLeft v1 17 ^^^ v2
  let v2 := rotateLeft v2 32
  { v0, v1, v2, v3 }

def State.absorb (state : State) (word : UInt64) : State :=
  let state := { state with v3 := state.v3 ^^^ word }.round.round
  { state with v0 := state.v0 ^^^ word }

def le64 (bytes : List UInt8) : UInt64 :=
  UInt64.ofNat (leValue (bytes.take 8))

def initial (key : Key) : State where
  v0 := key.k0 ^^^ 0x736f6d6570736575
  v1 := key.k1 ^^^ 0x646f72616e646f6d
  v2 := key.k0 ^^^ 0x6c7967656e657261
  v3 := key.k1 ^^^ 0x7465646279746573

def hash (key : Key) (message : List UInt8) : UInt64 :=
  let blocks := message.length / 8
  let state := (List.range blocks).foldl
    (fun state block => state.absorb (le64 (message.drop (8 * block)))) (initial key)
  let length := UInt64.ofNat (message.length % 256)
  let state := state.absorb (le64 (message.drop (8 * blocks)) ||| length <<< 56)
  let state := { state with v2 := state.v2 ^^^ 0xff }.round.round.round.round
  state.v0 ^^^ state.v1 ^^^ state.v2 ^^^ state.v3

end Sip

structure FourTuple where
  local_ : Wire.Address
  localPort : UInt16
  remote : Wire.Address
  remotePort : UInt16
  deriving DecidableEq, Repr

namespace Isn

def encodeEnd (address : Wire.Address) (port : UInt16) : List UInt8 :=
  match address with
  | .v4 address => [4] ++ toBe32 address ++ List.replicate 12 0 ++ toBe16 port
  | .v6 octets => [6] ++ octets.toList ++ toBe16 port

def encode (connection : FourTuple) : List UInt8 :=
  encodeEnd connection.local_ connection.localPort ++
    encodeEnd connection.remote connection.remotePort

end Isn

namespace Cookie

abbrev tickNanos : Nat := 64000000000

abbrev maxAgeTicks : UInt8 := 2

def mssTable : List UInt16 :=
  [536, 1024, 1220, 1280, 1360, 1400, 1440, 1460]

variable (cookie : UInt32) (key : Sip.Key) (connection : FourTuple) (counter : UInt8)
  (announced : UInt16) (mss : UInt8)

def mssIndex : UInt8 :=
  (List.range 8).foldl
    (fun index entry => if mssTable.getD entry 0 ≤ announced then UInt8.ofNat entry else index) 0

def mssOf (index : UInt8) : UInt16 :=
  mssTable.getD (index &&& 7).toNat 0

def hashMask : UInt32 :=
  ((1 : UInt32) <<< 21) - 1

def mac : UInt32 :=
  (Sip.hash key (Isn.encode connection ++ [counter, mss &&& 7])).toUInt32 &&& hashMask

def counterAt (now : Nat) : UInt8 :=
  UInt8.ofNat (now / tickNanos)

def pack (hash : UInt32) : UInt32 :=
  counter.toUInt32 <<< 24 ||| mss.toUInt32 <<< 21 ||| hash

def counterOf : UInt8 :=
  (cookie >>> 24).toUInt8

def indexOf : UInt8 :=
  (cookie >>> 21 &&& 7).toUInt8

def mint (now : Nat) : Sequence :=
  let counter := counterAt now
  let mss := mssIndex announced
  pack counter mss (mac key connection counter mss)

structure Accepted where
  mss : UInt16
  sequence : Sequence
  deriving DecidableEq, Repr

def verify (acknowledgement : Sequence) (now : Nat) : Option Accepted :=
  let cookie := acknowledgement - 1
  let counter := counterOf cookie
  let mss := indexOf cookie
  if maxAgeTicks < counterAt now - counter then none
  else if cookie &&& hashMask ≠ mac key connection counter mss then none
  else some { mss := mssOf mss, sequence := cookie }

theorem toNat_pack {counter mss : UInt8} {hash : UInt32} (low : mss.toNat < 8)
    (small : hash.toNat < 2 ^ 21) : (pack counter mss hash).toNat =
      counter.toNat * 2 ^ 24 + mss.toNat * 2 ^ 21 + hash.toNat := by
  have byte := counter.toNat_lt
  have first : (counter.toUInt32 <<< 24).toNat = counter.toNat <<< 24 := by
    rw [UInt32.toNat_shiftLeft, UInt8.toNat_toUInt32, Nat.shiftLeft_eq]
    simp
    omega
  have second : (mss.toUInt32 <<< 21).toNat = mss.toNat <<< 21 := by
    rw [UInt32.toNat_shiftLeft, UInt8.toNat_toUInt32, Nat.shiftLeft_eq]
    simp
    omega
  have below : mss.toNat <<< 21 ||| hash.toNat < 2 ^ 24 := by
    rw [← Nat.shiftLeft_add_eq_or_of_lt small, Nat.shiftLeft_eq]
    omega
  rw [pack, UInt32.toNat_or, UInt32.toNat_or, first, second, Nat.or_assoc,
    ← Nat.shiftLeft_add_eq_or_of_lt below, ← Nat.shiftLeft_add_eq_or_of_lt small, Nat.shiftLeft_eq,
    Nat.shiftLeft_eq, Nat.add_assoc]

theorem toNat_and_hashMask (word : UInt32) : (word &&& hashMask).toNat = word.toNat % 2 ^ 21 := by
  rw [UInt32.toNat_and, show hashMask.toNat = 2 ^ 21 - 1 from rfl, Nat.and_two_pow_sub_one_eq_mod]

theorem toNat_mac_lt : (mac key connection counter mss).toNat < 2 ^ 21 := by
  rw [mac, toNat_and_hashMask]
  exact Nat.mod_lt _ (by decide)

theorem toNat_counterOf : (counterOf cookie).toNat = cookie.toNat / 2 ^ 24 := by
  have word := cookie.toNat_lt
  rw [counterOf, UInt32.toNat_toUInt8, UInt32.toNat_shiftRight, Nat.shiftRight_eq_div_pow]
  simp
  omega

theorem toNat_indexOf : (indexOf cookie).toNat = cookie.toNat / 2 ^ 21 % 8 := by
  rw [indexOf, UInt32.toNat_toUInt8, UInt32.toNat_and, UInt32.toNat_shiftRight,
    Nat.shiftRight_eq_div_pow, show UInt32.toNat 7 = 2 ^ 3 - 1 from rfl,
    Nat.and_two_pow_sub_one_eq_mod]
  simp
  omega

theorem pack_fields : pack (counterOf cookie) (indexOf cookie) (cookie &&& hashMask) = cookie := by
  have index := toNat_indexOf cookie
  have hash := toNat_and_hashMask cookie
  apply UInt32.toNat_inj.mp
  rw [toNat_pack (by omega) (by omega), toNat_counterOf, index, hash]
  omega

section Fields

variable {counter mss : UInt8} {hash : UInt32} (low : mss.toNat < 8) (small : hash.toNat < 2 ^ 21)

include low small

theorem counterOf_pack : counterOf (pack counter mss hash) = counter := by
  apply UInt8.toNat_inj.mp
  rw [toNat_counterOf, toNat_pack low small]
  omega

theorem indexOf_pack : indexOf (pack counter mss hash) = mss := by
  apply UInt8.toNat_inj.mp
  rw [toNat_indexOf, toNat_pack low small]
  omega

theorem hash_pack : pack counter mss hash &&& hashMask = hash := by
  apply UInt32.toNat_inj.mp
  rw [toNat_and_hashMask, toNat_pack low small]
  omega

end Fields

theorem mssIndex_lt : (mssIndex announced).toNat < 8 := by
  have walked (entries : List Nat) (index : UInt8) (most : ∀ entry ∈ entries, entry < 8)
      (low : index.toNat < 8) : (entries.foldl (fun index entry =>
        if mssTable.getD entry 0 ≤ announced then UInt8.ofNat entry else index) index).toNat <
          8 := by
    induction entries generalizing index with
    | nil => exact low
    | cons entry entries ih =>
      have here := most entry List.mem_cons_self
      refine ih _ (fun other member => most other (List.mem_cons_of_mem _ member)) ?_
      dsimp only
      split
      · rw [UInt8.toNat_ofNat']
        omega
      · exact low
  exact walked _ 0 (fun entry member => List.mem_range.mp member) (by decide)

theorem mssIndex_mssOf {index : UInt8} (low : index.toNat < 8) : mssIndex
    (mssOf index) = index := by
  have table : ∀ entry : Fin 8, mssIndex (mssOf (UInt8.ofNat entry)) = UInt8.ofNat entry := by
    decide
  have here := table ⟨index.toNat, low⟩
  rwa [UInt8.ofNat_toNat] at here

theorem counterAt_ticks : counterAt (counter.toNat * tickNanos) = counter := by
  rw [counterAt, Nat.mul_div_cancel _ (by decide)]
  exact UInt8.ofNat_toNat

variable {connection : FourTuple} {key : Sip.Key}

theorem verify_mint {announced : UInt16} {minted now : Nat}
    (young : counterAt now - counterAt minted ≤ maxAgeTicks) :
    verify key connection ((mint key connection announced minted).after 1) now =
      some ⟨mssOf (mssIndex announced), mint key connection announced minted⟩ := by
  have low := mssIndex_lt announced
  have small := toNat_mac_lt key connection (counterAt minted) (mssIndex announced)
  have back : (mint key connection announced minted).after 1 - 1 =
      mint key connection announced minted :=
    UInt32.add_sub_cancel ..
  unfold verify
  dsimp only
  rw [back, mint, counterOf_pack low small, indexOf_pack low small, hash_pack low small]
  rw [if_neg (UInt8.not_lt.mpr young), if_neg (not_not.mpr rfl)]

theorem verify_isSome_iff : (verify key connection acknowledgement now).isSome ↔
      ∃ announced minted, minted < 2 ^ 64 ∧ counterAt now - counterAt minted ≤ maxAgeTicks ∧
        acknowledgement = (mint key connection announced minted).after 1 := by
  constructor
  · intro accepted
    unfold verify at accepted
    dsimp only at accepted
    split at accepted
    · cases accepted
    rename_i young
    split at accepted
    · cases accepted
    rename_i same
    have low : (indexOf (acknowledgement - 1)).toNat < 8 := by
      rw [toNat_indexOf]
      exact Nat.mod_lt _ (by decide)
    have byte := (counterOf (acknowledgement - 1)).toNat_lt
    refine ⟨mssOf (indexOf (acknowledgement - 1)),
      (counterOf (acknowledgement - 1)).toNat * tickNanos, by unfold tickNanos; omega, ?_, ?_⟩
    · rw [counterAt_ticks]
      exact UInt8.not_lt.mp young
    · rw [mint, counterAt_ticks, mssIndex_mssOf low, ← of_not_not same, pack_fields]
      exact (UInt32.sub_add_cancel ..).symm
  · rintro ⟨announced, minted, _, young, rfl⟩
    rw [verify_mint young]
    rfl

end Cookie

abbrev streamWindow : UInt16 := 4 * 4096

def Wire.Address.isLoopback : Wire.Address → Bool
  | .v4 address => address >>> 24 = 127
  | .v6 octets => octets.toList = List.replicate 15 0 ++ [1]

structure Service where
  key : Sip.Key
  me : UInt32
  /-- The ports a listener that is not closing holds. -/
  listens : UInt16 → Bool
  /-- Whether the listener of a port has a registered pair of rings armed and a slot is free. -/
  room : UInt16 → Bool

namespace Service

variable (service : Service) (segment : Wire.Segment) (source destination : Wire.Address)

def isOurs : Bool :=
  destination = .v4 service.me || destination.isLoopback

def connectionOf : FourTuple where
  local_ := destination
  localPort := segment.destination
  remote := source
  remotePort := segment.source

def acceptSyn (now : Nat) : Option Sequence :=
  if ¬ segment.flags.contains .syn ∨ segment.acknowledgement.isSome ∨
      ¬ service.isOurs destination then none
  else if ¬ service.listens segment.destination then none
  else if segment.flags.contains .rst then none
  else
    some (Cookie.mint service.key (connectionOf segment source destination)
      (segment.options.mss.getD defaultMss) now)

def acceptCookie (now : Nat) : Option Tcb :=
  if segment.flags.contains .syn ∨ segment.flags.contains .rst then none
  else
    match segment.acknowledgement with
    | none => none
    | some acknowledgement =>
      if ¬ service.isOurs destination then none
      else if ¬ service.listens segment.destination then none
      else
        match Cookie.verify service.key (connectionOf segment source destination)
            acknowledgement now with
        | none => none
        | some accepted =>
          if ¬ service.room segment.destination then none
          else
            some (Tcb.fromCookie accepted.sequence (segment.sequence - 1) segment.window
              streamWindow accepted.mss)

end Service

def seen (segment : Wire.Segment) : Segment where
  sequence := segment.sequence
  acknowledgement := segment.acknowledgement
  flags :=
    { fin := segment.flags.contains .fin, syn := segment.flags.contains .syn,
      rst := segment.flags.contains .rst, psh := segment.flags.contains .psh }
  window := segment.window
  mss := segment.options.mss
  payload := segment.payload

def handshakeAck (irs iss : Sequence) (window : UInt16) : Segment where
  sequence := irs.after 1
  acknowledgement := some (iss.after 1)
  flags := {}
  window := window
  mss := none
  payload := []

variable (iss sequence : Sequence)

def listening (now : Nat) : Tcb :=
  (step .new (.listen iss streamWindow) now).tcb

def halfOpen (syn : Segment) (listened now : Nat) : Tcb :=
  (step (listening iss listened) (.arrived syn) now).tcb

def ordinaryHandshake (syn : Segment) (window : UInt16) (listened asked answered : Nat) : Tcb :=
  (step (halfOpen iss syn listened asked) (.arrived (handshakeAck syn.sequence iss window))
    answered).tcb

section Ordinary

variable {iss : Sequence} {syn : Segment} {window : UInt16} {listened asked answered : Nat}

def requestedMss (syn : Segment) : UInt16 :=
  match syn.mss with
  | some mss => min mss defaultMss
  | none => defaultMss

/-- The same state and the same send and receive variables; nothing of the timing. -/
def Tcb.Agrees (tcb other : Tcb) : Prop :=
  tcb.state = other.state ∧ tcb.snd = other.snd ∧ tcb.rcv = other.rcv

theorem halfOpen_agrees (asks : syn.flags.syn = true) (notReset : syn.flags.rst = false)
    (bare : syn.acknowledgement = none) : (halfOpen iss syn listened asked).Agrees
      { Tcb.fromCookie iss syn.sequence syn.window streamWindow (requestedMss syn) with
        state := .synReceived, snd.una := iss } := by
  have same : (halfOpen iss syn listened asked) = (Turn.listenArrival _ syn asked).tcb :=
    rfl
  rw [same, Turn.listenArrival, if_neg (by rw [notReset]; decide), if_neg (by rw [bare]; decide),
    if_neg (by rw [asks]; decide), Turn.armRetransmit_tcb]
  exact ⟨rfl, rfl, rfl⟩

variable {now : Nat}

theorem sendWhatWeCan_nothing {turn : Turn}
    (sent : turn.tcb.snd.avail = turn.tcb.snd.nxt) (open_ : turn.tcb.snd.finQueued = false) :
    (turn.sendWhatWeCan now).tcb = turn.tcb := by
  have unsent : turn.tcb.snd.unsent = 0 := by
    rw [Sender.unsent, sent, Serial.follows_self]
    rfl
  have none : turn.tcb.snd.segmentLength = 0 := by
    rw [Sender.segmentLength, unsent]
    simp
  have stays : turn.tcb.snd.finNow false = false := by
    rw [Sender.finNow, open_]
    rfl
  have nothing : turn.sendSegment false = (turn, false) := by
    rw [Turn.sendSegment, stays, none]
    rfl
  rw [Turn.sendWhatWeCan]
  split
  · rfl
  · simp [Turn.sendSegments, nothing]

theorem receive_bare {turn : Turn} {segment : Segment} (empty : segment.payload = [])
    (open_ : segment.flags.fin = false) : turn.receive segment now = turn := by
  have nothing : turn.deliver segment = (turn, 0) := by
    rw [Turn.deliver, if_pos (.inr empty)]
  have stays : turn.tcb.rcv.finNext segment 0 = false := by
    rw [Receiver.finNext, open_]
    rfl
  rw [Turn.receive, nothing, stays]
  simp

theorem handshakeAck_arrived {tcb : Tcb}
    (half : tcb.Agrees { Tcb.fromCookie iss irs before streamWindow mss with
      state := .synReceived, snd.una := iss }) :
    (step tcb (.arrived (handshakeAck irs iss window)) now).tcb.Agrees
      (Tcb.fromCookie iss irs window streamWindow mss) := by
  obtain ⟨state, snd, rcv⟩ := half
  generalize ack : handshakeAck irs iss window = segment
  have nxt : tcb.rcv.nxt = irs.after 1 := by rw [rcv]; rfl
  have wnd : tcb.rcv.wnd = streamWindow := by rw [rcv]; rfl
  have inside : acceptable tcb segment = true := by
    have empty : segment.sequenceLength = 0 := by rw [← ack]; rfl
    have here : segment.sequence = tcb.rcv.nxt := by rw [← ack, nxt]; rfl
    have notBefore : segment.sequence.precedes tcb.rcv.nxt = false := by
      rw [here]
      exact Serial.follows_self _
    have before : segment.sequence.precedes (tcb.rcv.nxt.after tcb.rcv.wnd.toNat) = true := by
      rw [here, wnd]
      exact Serial.after_follows (by decide) (by decide)
    rw [acceptable]
    simp only [empty, if_true, wnd, notBefore]
    rw [← wnd, before, wnd, if_neg (by decide)]
    rfl
  have plain : segment.flags.rst = false ∧ segment.flags.syn = false := by
    rw [← ack]
    exact ⟨rfl, rfl⟩
  have acks : segment.acknowledgement = some (iss.after 1) := by rw [← ack]; rfl
  have carries : segment.payload = [] ∧ segment.flags.fin = false ∧ segment.window = window := by
    rw [← ack]
    exact ⟨rfl, rfl, rfl⟩
  have notBeyond : (iss.after 1).follows tcb.snd.nxt = false := by
    rw [snd]
    exact Serial.follows_self _
  have answers : (iss.after 1).follows tcb.snd.iss = true := by
    rw [snd]
    exact Serial.after_follows (by decide) (by decide)
  have processed : Turn.processAck ⟨tcb, .new⟩ segment (iss.after 1) now =
      ((Turn.establish ⟨tcb, .new⟩ (iss.after 1) now).takeWindow window, true) := by
    rw [Turn.processAck, notBeyond, state, answers, carries.2.2]
    simp [Serial.follows_self]
  have arrives : step tcb (.arrived segment) now =
      ((Turn.establish ⟨tcb, .new⟩ (iss.after 1) now).takeWindow window).sendWhatWeCan now := by
    change Turn.arrived _ segment now = _
    rw [Turn.arrived]
    simp only [state]
    rw [Turn.synchronisedArrival, if_neg (by rw [inside]; decide), if_neg (by rw [plain.1]; decide),
      if_neg (by rw [plain.2]; exact fun both => Bool.false_ne_true both.1)]
    simp only [acks, processed, if_true, receive_bare carries.1 carries.2.1]
  rw [arrives, Tcb.Agrees, sendWhatWeCan_nothing (by simp [snd]; rfl) (by simp [snd]; rfl)]
  simp only [Turn.takeWindow_tcb, Turn.establish_state, Turn.establish_snd, Turn.establish_rcv, snd,
    rcv]
  exact ⟨rfl, rfl, rfl⟩

theorem ordinaryHandshake_agrees (asks : syn.flags.syn = true) (notReset : syn.flags.rst = false)
    (bare : syn.acknowledgement = none) :
    (ordinaryHandshake iss syn window listened asked answered).Agrees
      (Tcb.fromCookie iss syn.sequence window streamWindow (requestedMss syn)) :=
  handshakeAck_arrived (halfOpen_agrees asks notReset bare)

end Ordinary

structure Returns (first syn : Wire.Segment) (cookie : Sequence) : Prop where
  ports : first.source = syn.source ∧ first.destination = syn.destination
  plain : first.flags.contains .syn = false ∧ first.flags.contains .rst = false
  acknowledges : first.acknowledgement = some (cookie.after 1)

structure Service.Ready (service : Service) (destination : Wire.Address) (port : UInt16) :
    Prop where
  ours : service.isOurs destination = true
  listens : service.listens port = true
  room : service.room port = true

/-- The control block is the one an ordinary handshake would have built, but for the segment size
and the timing. -/
def Tcb.AsHandshake (tcb : Tcb) (cookie : Sequence) (syn first : Wire.Segment)
    (listened asked answered : Nat) : Prop :=
  tcb.rcv.irs = syn.sequence ∧ tcb.rcv.nxt = syn.sequence + 1 ∧
    tcb.Agrees { ordinaryHandshake cookie (seen syn) first.window listened asked answered with
      snd.mss := tcb.snd.mss }

variable {service later : Service} {syn first : Wire.Segment} {source destination : Wire.Address}
  {cookie : Sequence} {minted now : Nat}

theorem acceptSyn_spec (answered : service.acceptSyn syn source destination minted = some cookie) :
    (seen syn).flags.syn = true ∧ (seen syn).flags.rst = false ∧ (seen syn).acknowledgement = none ∧
      cookie = Cookie.mint service.key (Service.connectionOf syn source destination)
        (syn.options.mss.getD defaultMss) minted := by
  unfold Service.acceptSyn at answered
  split at answered
  · cases answered
  rename_i asks
  rw [not_or, not_or, not_not, Bool.not_eq_true, Option.isSome_eq_false_iff,
    Option.isNone_iff_eq_none] at asks
  split at answered
  · cases answered
  split at answered
  · cases answered
  · rename_i notReset
    exact ⟨asks.1, Bool.not_eq_true _ ▸ notReset, asks.2.1, (Option.some.inj answered).symm⟩

theorem acceptCookie_minted (key : later.key = service.key)
    (ready : later.Ready destination first.destination)
    (answered : service.acceptSyn syn source destination minted = some cookie)
    (returns : Returns first syn cookie)
    (young : Cookie.counterAt now - Cookie.counterAt minted ≤ Cookie.maxAgeTicks) :
    later.acceptCookie first source destination now =
      some (Tcb.fromCookie cookie (first.sequence - 1) first.window streamWindow
        (Cookie.mssOf (Cookie.mssIndex (syn.options.mss.getD defaultMss)))) := by
  obtain ⟨_, _, _, same⟩ := acceptSyn_spec answered
  have connection : Service.connectionOf first source destination =
      Service.connectionOf syn source destination := by
    rw [Service.connectionOf, Service.connectionOf, returns.ports.1, returns.ports.2]
  rw [Service.acceptCookie, returns.plain.1, returns.plain.2, returns.acknowledges, connection, key]
  simp [ready.ours, ready.listens, ready.room, same, Cookie.verify_mint young]

/-- An acknowledgement is accepted exactly when it answers a cookie of the last three ticks; what is
built is an ordinary handshake's when the next segment follows the request. -/
theorem cookie_handshake_iff (now : Nat) :
    (∀ (key : Sip.Key) (connection : FourTuple) (acknowledgement : Sequence),
      (Cookie.verify key connection acknowledgement now).isSome ↔
        ∃ announced minted, minted < 2 ^ 64 ∧
          Cookie.counterAt now - Cookie.counterAt minted ≤ Cookie.maxAgeTicks ∧
          acknowledgement = (Cookie.mint key connection announced minted).after 1) ∧
    ∀ (service later : Service) (syn first : Wire.Segment) (source destination : Wire.Address)
      (cookie : Sequence) (minted listened asked answered : Nat),
      service.acceptSyn syn source destination minted = some cookie →
      later.key = service.key → later.Ready destination first.destination →
      Returns first syn cookie →
      Cookie.counterAt now - Cookie.counterAt minted ≤ Cookie.maxAgeTicks →
      ∃ tcb, later.acceptCookie first source destination now = some tcb ∧
        tcb.snd.mss = Cookie.mssOf (Cookie.mssIndex (syn.options.mss.getD defaultMss)) ∧
        (tcb.AsHandshake cookie syn first listened asked answered ↔
          first.sequence = syn.sequence + 1) := by
  refine ⟨fun _ _ _ => Cookie.verify_isSome_iff, ?_⟩
  intro service later syn first source destination cookie minted listened asked answered
    took key ready returns young
  refine ⟨_, acceptCookie_minted key ready took returns young, rfl, ?_⟩
  obtain ⟨asks, notReset, bare, _⟩ := acceptSyn_spec took
  obtain ⟨state, snd, rcv⟩ := @ordinaryHandshake_agrees cookie
    (seen syn) first.window listened asked
    answered asks notReset bare
  constructor
  · rintro ⟨irs, -, -⟩
    have back : first.sequence - 1 = syn.sequence := irs
    rw [← back]
    exact (UInt32.sub_add_cancel ..).symm
  intro next
  have back : first.sequence - 1 = syn.sequence := by
    rw [next]
    exact UInt32.add_sub_cancel ..
  rw [back]
  refine ⟨rfl, rfl, state.symm, ?_, rcv.symm⟩
  dsimp only
  rw [snd]
  rfl

def webService : Service where
  key := { k0 := 1, k1 := 2 }
  me := 10
  listens port := port = 80
  room _ := true

def request : Wire.Segment where
  source := 49152
  destination := 80
  sequence := 100
  acknowledgement := none
  flags := .syn
  window := 65535
  options := { mss := some 1460 }
  payload := []

def requestCookie : Sequence :=
  Cookie.mint webService.key (Service.connectionOf request (.v4 20) (.v4 10)) 1460 0

/-- A segment of the connection asked for by `request` that starts at `sequence`. -/
def answerAt : Wire.Segment where
  source := 49152
  destination := 80
  sequence := sequence
  acknowledgement := some (requestCookie.after 1)
  flags := .ack
  window := 65535
  options := {}
  payload := [1, 2, 3]

theorem request_answered : webService.acceptSyn request (.v4 20) (.v4 10) 0 = some requestCookie :=
  rfl

theorem webService_ready : webService.Ready (.v4 10) 80 :=
  ⟨rfl, rfl, rfl⟩

theorem answerAt_returns : Returns (answerAt sequence) request requestCookie := by
  have plain : Wire.Flags.ack.contains .syn = false ∧ Wire.Flags.ack.contains .rst = false := by
    decide
  exact ⟨⟨rfl, rfl⟩, plain, rfl⟩

theorem cookie_handshake_iff_next :
    ∃ tcb, webService.acceptCookie (answerAt 101) (.v4 20) (.v4 10) 0 = some tcb ∧
      tcb.AsHandshake requestCookie request (answerAt 101) 0 0 0 := by
  obtain ⟨tcb, built, _, same⟩ := (cookie_handshake_iff 0).2 webService webService request
    (answerAt 101) (.v4 20) (.v4 10) requestCookie 0 0 0 0 request_answered rfl webService_ready
    (answerAt_returns 101) (by decide)
  exact ⟨tcb, built, same.mpr rfl⟩

/-- The first segment is lost and the next, five bytes on, comes first: the connection is built as
if the peer had started there. -/
theorem not_cookie_handshake :
    webService.acceptSyn request (.v4 20) (.v4 10) 0 = some requestCookie ∧
      Returns (answerAt 106) request requestCookie ∧
      ∃ tcb, webService.acceptCookie (answerAt 106) (.v4 20) (.v4 10) 0 = some tcb ∧
        tcb.rcv.irs = 105 ∧ ¬ tcb.AsHandshake requestCookie request (answerAt 106) 0 0 0 := by
  refine ⟨request_answered, answerAt_returns 106, _, acceptCookie_minted rfl webService_ready
    request_answered (answerAt_returns 106) (by decide), rfl, fun same => ?_⟩
  have irs : (105 : UInt32) = 100 := same.1
  contradiction

end Bhaskix.Net
