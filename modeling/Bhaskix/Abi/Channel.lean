import Bhaskix.Abi.Ring
import Bhaskix.Library.Bytes
import Bhaskix.Library.Circular
import Bhaskix.Library.Run

/-!
A producer and a consumer on one ring. Every load and every store of shared memory is a step of its
own, so that a run is any interleaving of the two.
-/

namespace Bhaskix.Abi

open Library List

structure Parcel where
  bytes : List UInt8
  member : Option UInt8
  uplink : Bool

namespace Parcel

variable (parcel : Parcel)

def word : UInt32 :=
  mark (UInt32.ofNat parcel.bytes.length) parcel.member parcel.uplink

def encoded : List UInt8 :=
  leBytes prefixBytes parcel.word.toNat ++ parcel.bytes

@[simp] theorem length_encoded : parcel.encoded.length = prefixBytes + parcel.bytes.length := by
  simp [encoded]

theorem measured (short : parcel.bytes.length < 2 ^ 24) :
    (marked (UInt32.ofNat (leValue (leBytes prefixBytes parcel.word.toNat)))).1 =
      parcel.bytes.length := by
  have length : (UInt32.ofNat parcel.bytes.length).toNat = parcel.bytes.length :=
    UInt32.toNat_ofNat_of_lt' (short.trans (by decide))
  have read : leValue (leBytes prefixBytes parcel.word.toNat) = parcel.word.toNat :=
    leValue_leBytes parcel.word.toNat_lt
  rw [read, UInt32.ofNat_toNat, word, marked_mark (by rw [length]; exact short), length]

end Parcel

inductive Producer
  | idle
  | writing (parcel : Parcel) (next : UInt64) (stores : List (Nat × UInt8))

inductive Consumer
  | idle
  | measuring (cursor : Cursor) (loads : List Nat) (bytes : List UInt8)
  | reading (next : UInt64) (loads : List Nat) (bytes : List UInt8)

/-- The region, what each side is in the middle of, and what either has done so far. -/
structure Channel where
  layout : Layout
  memory : Nat → UInt8
  head : UInt64
  tail : UInt64
  producer : Producer
  consumer : Consumer
  accepted : List Parcel
  taken : List (List UInt8)

inductive Action
  | offer (parcel : Parcel)
  | store
  | publish
  | look
  | load
  | measure
  | take

namespace Channel

def start (layout : Layout) (memory : Nat → UInt8) (index : UInt64) : Channel :=
  { layout, memory, head := index, tail := index, producer := .idle, consumer := .idle,
    accepted := [], taken := [] }

variable (channel : Channel)

def offer (parcel : Parcel) : Checked Channel :=
  match channel.producer, Cursor.new channel.layout channel.head channel.tail with
  | .idle, some cursor => do
      match ← frameToWrite channel.layout cursor parcel.bytes.length with
      | none => .ok channel
      | some framed =>
        .ok
          { channel with
            producer := .writing parcel framed.next
              ((offsets framed.prefixRuns).zip (leBytes prefixBytes parcel.word.toNat) ++
                (offsets framed.payload).zip parcel.bytes)
            accepted := channel.accepted ++ [parcel] }
  | _, _ => .ok channel

def store : Channel :=
  match channel.producer with
  | .writing parcel next ((offset, byte) :: stores) =>
    { channel with
      memory := Function.update channel.memory offset byte
      producer := .writing parcel next stores }
  | _ => channel

def publish : Channel :=
  match channel.producer with
  | .writing _ next [] => { channel with head := next, producer := .idle }
  | _ => channel

def look : Checked Channel :=
  match channel.consumer, Cursor.new channel.layout channel.head channel.tail with
  | .idle, some cursor => do
      match ← lengthToRead channel.layout cursor with
      | none => .ok channel
      | some runs => .ok { channel with consumer := .measuring cursor (offsets runs) [] }
  | _, _ => .ok channel

def load : Channel :=
  match channel.consumer with
  | .measuring cursor (offset :: loads) bytes =>
    { channel with consumer := .measuring cursor loads (bytes ++ [channel.memory offset]) }
  | .reading next (offset :: loads) bytes =>
    { channel with consumer := .reading next loads (bytes ++ [channel.memory offset]) }
  | _ => channel

def measure : Checked Channel :=
  match channel.consumer with
  | .measuring cursor [] bytes => do
      match ← frameToRead channel.layout cursor (marked (UInt32.ofNat (leValue bytes))).1 with
      | none => .ok { channel with consumer := .idle }
      | some framed =>
        .ok { channel with consumer := .reading framed.next (offsets framed.payload) [] }
  | _ => .ok channel

def take : Channel :=
  match channel.consumer with
  | .reading next [] bytes =>
    { channel with tail := next, consumer := .idle, taken := channel.taken ++ [bytes] }
  | _ => channel

def step (channel : Channel) : Action → Checked Channel
  | .offer parcel => channel.offer parcel
  | .store => .ok channel.store
  | .publish => .ok channel.publish
  | .look => channel.look
  | .load => .ok channel.load
  | .measure => channel.measure
  | .take => .ok channel.take

def next (action : Action) (state : Checked Channel) : Checked Channel :=
  state >>= fun channel => channel.step action

def outstanding : Nat :=
  ((channel.accepted.drop channel.taken.length).map Parcel.encoded).flatten.length

/-- Frames come out as they went in, and one is refused where there is no room for it. -/
structure Fifo (channel : Channel) : Prop where
  inOrder : channel.taken <+: channel.accepted.map Parcel.bytes
  refuses : channel.producer = .idle →
    ∃ cursor, Cursor.new channel.layout channel.head channel.tail = some cursor ∧
      ∀ length ≠ 0, frameToWrite channel.layout cursor length = .ok none ↔
        channel.layout.capacity - channel.outstanding < prefixBytes + length

/-- A frame there is room for has a length that fits its field and ends before the indices come
round. -/
def Within : Checked Channel → Action → Prop
  | .ok channel, .offer parcel =>
    prefixBytes + parcel.bytes.length ≤
        channel.layout.capacity - (channel.head - channel.tail).toNat →
      parcel.bytes.length < 2 ^ 24 ∧
        channel.head.toNat + prefixBytes + parcel.bytes.length < 2 ^ 64
  | _, _ => True

end Channel

namespace Layout

variable (layout : Layout)

theorem places_succ (start count : Nat) :
    layout.places start (count + 1) = layout.place start :: layout.places (start + 1) count := by
  rw [places, range_succ_eq_map, map_cons, map_map, places]
  refine congrArg _ (map_congr_left fun index _ => ?_)
  exact congrArg layout.place (by simp only [Nat.succ_eq_add_one]; omega)

theorem places_add (start count more : Nat) : layout.places start (count + more) =
      layout.places start count ++ layout.places (start + count) more := by
  rw [places, range_add, map_append, map_map, places, places]
  refine congrArg _ (map_congr_left fun index _ => ?_)
  exact congrArg layout.place (Nat.add_assoc ..).symm

@[simp] theorem length_places (start count : Nat) : (layout.places start count).length = count := by
  simp [places]

theorem eq_nil_of_places {layout : Layout} {rest : List UInt8}
    (none : [] = layout.places start rest.length) : rest = [] := by
  have length := congrArg List.length none
  rw [length_places] at length
  exact length_eq_zero_iff.mp length.symm

end Layout

def stream (parcels : List Parcel) : List UInt8 :=
  (parcels.map Parcel.encoded).flatten

@[simp] theorem stream_nil : stream [] = [] := rfl

@[simp] theorem stream_append (parcels more : List Parcel) :
    stream (parcels ++ more) = stream parcels ++ stream more := by
  simp [stream]

@[simp] theorem stream_cons (parcel : Parcel) (parcels : List Parcel) :
    stream (parcel :: parcels) = parcel.encoded ++ stream parcels := by
  simp [stream]

namespace Channel

variable {channel : Channel}

def inflight (channel : Channel) : List Parcel :=
  match channel.producer with
  | .idle => []
  | .writing parcel _ _ => [parcel]

/-- The producer's frame lies past the published bytes, within a turn of the consumer's index. -/
def Producing (channel : Channel) : Prop :=
  match channel.producer with
  | .idle => True
  | .writing parcel next stores =>
    next.toNat = channel.head.toNat + parcel.encoded.length ∧
    next.toNat ≤ channel.tail.toNat + channel.layout.capacity ∧
    ∃ written rest, parcel.encoded = written ++ rest ∧
      Holds channel.memory channel.layout.place channel.head.toNat written ∧
      stores =
        (channel.layout.places (channel.head.toNat + written.length) rest.length).zip rest

def Consuming (channel : Channel) (unread : List Parcel) : Prop :=
  match channel.consumer with
  | .idle => True
  | .measuring cursor loads bytes =>
    cursor.capacity = channel.layout.capacity ∧ cursor.tail = channel.tail ∧
    ∃ parcel later rest, unread = parcel :: later ∧ parcel.encoded.length ≤ cursor.readable ∧
      leBytes prefixBytes parcel.word.toNat = bytes ++ rest ∧
      loads = channel.layout.places (channel.tail.toNat + bytes.length) rest.length
  | .reading next loads bytes =>
    ∃ parcel later rest, unread = parcel :: later ∧
      next.toNat = channel.tail.toNat + parcel.encoded.length ∧ parcel.bytes = bytes ++ rest ∧
      loads =
        channel.layout.places (channel.tail.toNat + prefixBytes + bytes.length) rest.length

structure Sound (channel : Channel) (finished unread : List Parcel) : Prop where
  accepted : channel.accepted = finished ++ unread ++ channel.inflight
  taken : channel.taken = finished.map Parcel.bytes
  lawful : ∀ parcel ∈ channel.accepted, parcel.bytes ≠ [] ∧ parcel.bytes.length < 2 ^ 24
  head : channel.head.toNat = channel.tail.toNat + (stream unread).length
  bounded : (stream unread).length ≤ channel.layout.capacity
  holds : Holds channel.memory channel.layout.place channel.tail.toNat (stream unread)
  producing : channel.Producing
  consuming : channel.Consuming unread

namespace Sound

variable {finished unread : List Parcel} (sound : channel.Sound finished unread)

include sound

theorem used : (channel.head - channel.tail).toNat = (stream unread).length := by
  have head := sound.head
  have := channel.head.toNat_lt
  rw [UInt64.toNat_sub]
  omega

theorem cursor : ∃ cursor, Cursor.new channel.layout channel.head channel.tail = some cursor ∧
      cursor.capacity = channel.layout.capacity ∧ cursor.head = channel.head ∧
      cursor.tail = channel.tail ∧ cursor.readable = (stream unread).length := by
  have believable : (channel.head - channel.tail).toNat ≤ channel.layout.capacity :=
    sound.used.trans_le sound.bounded
  exact ⟨⟨_, _, _, believable⟩, dif_pos believable, rfl, rfl, rfl, sound.used⟩

theorem offer (within : Within (.ok channel) (.offer parcel)) :
    ∃ after, channel.offer parcel = .ok after ∧ after.Sound finished unread := by
  obtain ⟨cursor, made, own, head, tail, readable⟩ := sound.cursor
  unfold Channel.offer
  rw [made]
  cases producing : channel.producer with
  | writing other next stores => exact ⟨channel, rfl, sound⟩
  | idle =>
    dsimp only
    by_cases refused : parcel.bytes.length = 0 ∨
        channel.layout.capacity - cursor.readable < prefixBytes + parcel.bytes.length
    · rw [frameToWrite_refused own refused]
      exact ⟨channel, rfl, sound⟩
    rw [not_or, not_lt] at refused
    have bounds := within (by rw [sound.used, ← readable]; exact refused.2)
    obtain ⟨framed, placed, its⟩ := (frameToWrite_room own refused.1 refused.2).1 (head ▸ bounds.2)
    rw [placed]
    refine ⟨_, rfl, ?_⟩
    have prefixOffsets := its.prefixOffsets
    have payloadOffsets := its.payloadOffsets
    have next := its.next
    have fits := refused.2
    have most := readable_le own
    have behind := sound.head
    rw [head] at prefixOffsets payloadOffsets next
    have nothing : channel.inflight = [] := by
      rw [inflight, producing]
    have accepted := sound.accepted
    rw [nothing, append_nil] at accepted
    refine { sound with accepted := ?_, lawful := ?_, producing := ?_ }
    · rw [accepted]
      rfl
    · intro one member
      rcases mem_append.mp member with old | new
      · exact sound.lawful one old
      · rw [mem_singleton.mp new]
        exact ⟨length_pos_iff.mp (Nat.pos_of_ne_zero refused.1), bounds.1⟩
    · refine ⟨by rw [next, Parcel.length_encoded, Nat.add_assoc], ?_, [], parcel.encoded, rfl,
        holds_nil, ?_⟩
      · dsimp only
        omega
      · dsimp only
        rw [prefixOffsets, payloadOffsets, Parcel.length_encoded, length_nil, Nat.add_zero,
          Layout.places_add, Parcel.encoded, zip_append (by simp)]

theorem store : channel.store.Sound finished unread := by
  have soFar := sound.producing
  unfold Channel.store
  unfold Producing at soFar
  split
  · rename_i parcel next offset byte stores producing
    rw [producing] at soFar
    obtain ⟨ends, near, written, rest, is, holds, pending⟩ := soFar
    cases rest with
    | nil => simp at pending
    | cons first rest =>
      rw [length_cons, Layout.places_succ, zip_cons_cons, List.cons.injEq,
        Prod.mk.injEq] at pending
      obtain ⟨⟨rfl, rfl⟩, rfl⟩ := pending
      have length := congrArg List.length is
      have behind := sound.head
      rw [length_append, length_cons] at length
      have accepted := sound.accepted
      have lone : channel.inflight = [parcel] := by
        rw [inflight, producing]
      rw [lone] at accepted
      refine { sound with accepted := accepted, holds := ?_, producing := ?_ }
      · refine sound.holds.update fun index inside => ?_
        exact channel.layout.place_ne (by omega) (by omega)
      refine ⟨ends, near, written ++ [byte], rest, by simp [is], ?_, ?_⟩
      · refine holds_append.mpr ⟨holds.update fun index inside => ?_, ?_⟩
        · exact channel.layout.place_ne (by omega) (by omega)
        · exact holds_singleton.mpr (Function.update_self ..)
      · simp [Nat.add_assoc]
  · exact sound

theorem publish : ∃ unread, channel.publish.Sound finished unread := by
  have soFar := sound.producing
  unfold Channel.publish
  unfold Producing at soFar
  split
  · rename_i parcel next producing
    rw [producing] at soFar
    obtain ⟨ends, near, written, rest, is, holds, pending⟩ := soFar
    have done : rest = [] := by
      cases rest with
      | nil => rfl
      | cons first rest =>
        rw [length_cons, Layout.places_succ, zip_cons_cons] at pending
        exact nomatch pending
    rw [done, append_nil] at is
    rw [← is] at holds
    have behind := sound.head
    have length : (stream (unread ++ [parcel])).length =
        (stream unread).length + parcel.encoded.length := by
      simp
    have accepted := sound.accepted
    have lone : channel.inflight = [parcel] := by
      rw [inflight, producing]
    rw [lone] at accepted
    refine ⟨unread ++ [parcel], ?_, sound.taken, sound.lawful, ?_, ?_, ?_, trivial, ?_⟩
    · rw [accepted]
      simp [inflight]
    · dsimp only
      omega
    · dsimp only
      omega
    · rw [stream_append]
      refine holds_append.mpr ⟨sound.holds, ?_⟩
      rw [← behind]
      simpa using holds
    have consuming := sound.consuming
    unfold Consuming at consuming ⊢
    dsimp only
    split
    · trivial
    · rename_i cursor loads bytes working
      rw [working] at consuming
      obtain ⟨own, tail, first, later, rest, rfl, more⟩ := consuming
      exact ⟨own, tail, first, later ++ [parcel], rest, rfl, more⟩
    · rename_i next loads bytes working
      rw [working] at consuming
      obtain ⟨first, later, rest, rfl, more⟩ := consuming
      exact ⟨first, later ++ [parcel], rest, rfl, more⟩
  · exact ⟨unread, sound⟩

theorem look : ∃ after, channel.look = .ok after ∧ after.Sound finished unread := by
  obtain ⟨cursor, made, own, head, tail, readable⟩ := sound.cursor
  unfold Channel.look
  rw [made]
  cases working : channel.consumer with
  | measuring other loads bytes | reading next loads bytes => exact ⟨channel, rfl, sound⟩
  | idle =>
    dsimp only
    rcases Nat.lt_or_ge cursor.readable prefixBytes with short | filled
    · rw [(lengthToRead_spec own).2 short]
      exact ⟨channel, rfl, sound⟩
    obtain ⟨runs, ran, _, its⟩ := (lengthToRead_spec own).1 filled
    rw [ran]
    refine ⟨_, rfl, sound.accepted, sound.taken, sound.lawful, sound.head, sound.bounded,
      sound.holds, sound.producing, ?_⟩
    -- Indices move by whole frames, so a byte to read is a frame to read.
    cases unread with
    | nil =>
      rw [readable] at filled
      exact absurd filled (by decide)
    | cons parcel later =>
      refine ⟨own, tail, parcel, later, _, rfl, ?_, (nil_append _).symm, ?_⟩
      · rw [readable, stream_cons, length_append]
        exact Nat.le_add_right ..
      · rw [its, tail, length_leBytes]
        rfl

theorem load : channel.load.Sound finished unread := by
  have consuming := sound.consuming
  unfold Channel.load
  unfold Consuming at consuming
  split
  · rename_i cursor offset loads bytes working
    rw [working] at consuming
    obtain ⟨own, tail, parcel, later, rest, rfl, whole, is, pending⟩ := consuming
    cases rest with
    | nil => exact nomatch pending
    | cons byte rest =>
      rw [length_cons, Layout.places_succ, List.cons.injEq] at pending
      obtain ⟨rfl, rfl⟩ := pending
      have there := sound.holds
      rw [stream_cons, Parcel.encoded, is, append_assoc, append_assoc, holds_append,
        cons_append, ← singleton_append, holds_append, holds_singleton] at there
      refine ⟨sound.accepted, sound.taken, sound.lawful, sound.head, sound.bounded, sound.holds,
        sound.producing, own, tail, parcel, later, rest, rfl, whole, ?_, ?_⟩
      · rw [there.2.1, is]
        simp
      · simp [Nat.add_assoc]
  · rename_i next offset loads bytes working
    rw [working] at consuming
    obtain ⟨parcel, later, rest, rfl, ends, is, pending⟩ := consuming
    cases rest with
    | nil => exact nomatch pending
    | cons byte rest =>
      rw [length_cons, Layout.places_succ, List.cons.injEq] at pending
      obtain ⟨rfl, rfl⟩ := pending
      have there := sound.holds
      rw [stream_cons, Parcel.encoded, is, append_assoc, holds_append, length_leBytes,
        append_assoc, holds_append, cons_append, ← singleton_append, holds_append,
        holds_singleton] at there
      refine ⟨sound.accepted, sound.taken, sound.lawful, sound.head, sound.bounded, sound.holds,
        sound.producing, parcel, later, rest, rfl, ends, ?_, ?_⟩
      · rw [there.2.2.1, is]
        simp
      · simp [Nat.add_assoc]
  · exact sound

theorem lawful_unread (member : parcel ∈ unread) :
    parcel.bytes ≠ [] ∧ parcel.bytes.length < 2 ^ 24 :=
  sound.lawful parcel (by
    rw [sound.accepted]
    exact mem_append_left _ (mem_append_right _ member))

theorem measure : ∃ after, channel.measure = .ok after ∧ after.Sound finished unread := by
  have consuming := sound.consuming
  unfold Channel.measure
  unfold Consuming at consuming
  split
  · rename_i cursor bytes working
    rw [working] at consuming
    obtain ⟨own, tail, parcel, later, rest, rfl, whole, is, pending⟩ := consuming
    have done := Layout.eq_nil_of_places pending
    obtain ⟨some_, short⟩ := sound.lawful_unread mem_cons_self
    rw [done, append_nil] at is
    rw [← is, parcel.measured short]
    have behind := sound.head
    have most := channel.head.toNat_lt
    rw [Parcel.length_encoded] at whole
    rw [stream_cons, length_append, Parcel.length_encoded] at behind
    obtain ⟨framed, placed, its⟩ := (frameToRead_filled own
      (length_pos_iff.mpr some_).ne' whole).1 (by rw [tail]; omega)
    rw [placed]
    refine ⟨_, rfl, sound.accepted, sound.taken, sound.lawful, sound.head, sound.bounded,
      sound.holds, sound.producing, parcel, later, parcel.bytes, rfl, ?_, rfl, ?_⟩
    · rw [its.next, tail, Parcel.length_encoded, Nat.add_assoc]
    · rw [its.payloadOffsets, tail]
      rfl
  · exact ⟨channel, rfl, sound⟩

theorem take : ∃ finished unread, channel.take.Sound finished unread := by
  have consuming := sound.consuming
  unfold Channel.take
  unfold Consuming at consuming
  split
  · rename_i next bytes working
    rw [working] at consuming
    obtain ⟨parcel, later, rest, rfl, ends, is, pending⟩ := consuming
    have done := Layout.eq_nil_of_places pending
    rw [done, append_nil] at is
    have behind := sound.head
    have bounded := sound.bounded
    have holds := sound.holds
    rw [stream_cons, length_append] at behind bounded
    rw [stream_cons, holds_append, ← ends] at holds
    refine ⟨finished ++ [parcel], later, ?_, ?_, sound.lawful, ?_, ?_, holds.2, ?_, trivial⟩
    · rw [sound.accepted]
      simp [inflight]
    · rw [sound.taken, map_append, ← is]
      rfl
    · dsimp only
      omega
    · dsimp only
      omega
    have producing := sound.producing
    unfold Producing at producing ⊢
    dsimp only
    split
    · trivial
    rename_i writing
    rw [writing] at producing
    exact ⟨producing.1, by omega, producing.2.2⟩
  · exact ⟨finished, unread, sound⟩

theorem step {action : Action} (within : Within (.ok channel) action) :
    ∃ after, channel.step action = .ok after ∧ ∃ finished unread, after.Sound finished unread := by
  cases action with
  | offer parcel =>
    obtain ⟨after, ran, kept⟩ := sound.offer within
    exact ⟨after, ran, finished, unread, kept⟩
  | store => exact ⟨_, rfl, finished, unread, sound.store⟩
  | publish => exact ⟨_, rfl, finished, sound.publish⟩
  | look =>
    obtain ⟨after, ran, kept⟩ := sound.look
    exact ⟨after, ran, finished, unread, kept⟩
  | load => exact ⟨_, rfl, finished, unread, sound.load⟩
  | measure =>
    obtain ⟨after, ran, kept⟩ := sound.measure
    exact ⟨after, ran, finished, unread, kept⟩
  | take => exact ⟨_, rfl, sound.take⟩

theorem fifo : channel.Fifo := by
  have accepted := sound.accepted
  refine ⟨?_, fun idle => ?_⟩
  · rw [sound.taken, accepted, append_assoc, map_append]
    exact prefix_append ..
  have nothing : channel.inflight = [] := by
    rw [inflight, idle]
  rw [nothing, append_nil] at accepted
  have waiting : channel.outstanding = (stream unread).length := by
    rw [outstanding, accepted, sound.taken, length_map, drop_left]
    rfl
  obtain ⟨cursor, made, own, head, tail, readable⟩ := sound.cursor
  refine ⟨cursor, made, fun length some_ => ?_⟩
  rw [waiting, ← readable]
  constructor
  · intro refused
    by_contra room
    rcases Nat.lt_or_ge (cursor.head.toNat + prefixBytes + length) (2 ^ 64) with fits | exceeds
    · obtain ⟨framed, placed, _⟩ :=
        (frameToWrite_room own some_ (Nat.le_of_not_lt room)).1 fits
      rw [placed] at refused
      exact nomatch refused
    · rw [(frameToWrite_room own some_ (Nat.le_of_not_lt room)).2 exceeds] at refused
      exact nomatch refused
  · exact fun full => frameToWrite_refused own (.inr full)

end Sound

theorem sound_start (layout : Layout) (memory : Nat → UInt8) (index : UInt64) :
    (start layout memory index).Sound [] [] :=
  ⟨rfl, rfl, fun _ member => absurd member List.not_mem_nil, rfl, Nat.zero_le _, holds_nil, trivial,
    trivial⟩

end Channel

/-- With these indices in the region no operation stops, and none names a byte outside the ring. -/
structure Harmless (layout : Layout) (cursor : Cursor) (length : Nat) : Prop where
  readRuns : ∃ runs, readRuns layout cursor length = .ok runs ∧ Inside layout runs
  writeRuns : ∃ runs, writeRuns layout cursor length = .ok runs ∧ Inside layout runs
  lengthToRead : ∃ answer, lengthToRead layout cursor = .ok answer ∧
    ∀ runs ∈ answer, Inside layout runs
  frameToRead : ∃ answer, frameToRead layout cursor length = .ok answer ∧
    ∀ framed ∈ answer, Inside layout framed.prefixRuns ∧ Inside layout framed.payload
  frameToWrite : ∃ answer, frameToWrite layout cursor length = .ok answer ∧
    ∀ framed ∈ answer, Inside layout framed.prefixRuns ∧ Inside layout framed.payload

def Unwrapped (layout : Layout) (head tail : UInt64) (length : Nat) : Prop :=
  length ≠ 0 → (head - tail).toNat ≤ layout.capacity →
    (prefixBytes + length ≤ layout.capacity - (head - tail).toNat →
      head.toNat + prefixBytes + length < 2 ^ 64) ∧
    (prefixBytes + length ≤ (head - tail).toNat → tail.toNat + prefixBytes + length < 2 ^ 64)

section

variable {layout : Layout} {cursor : Cursor} (own : cursor.capacity = layout.capacity)
  (length : Nat)

include own

omit own in
theorem harmless_of_places {start room : Nat} {answer : Checked (Option Framed)}
    (refused : length = 0 ∨ room < prefixBytes + length → answer = .ok none)
    (places : length ≠ 0 → prefixBytes + length ≤ room → Places layout start length answer) :
    (∃ given, answer = .ok given ∧
      ∀ framed ∈ given, Inside layout framed.prefixRuns ∧ Inside layout framed.payload) ↔
    (length ≠ 0 → prefixBytes + length ≤ room → start + prefixBytes + length < 2 ^ 64) := by
  constructor
  · rintro ⟨given, ran, _⟩ some_ fits
    by_contra exceeds
    rw [(places some_ fits).2 (Nat.le_of_not_lt exceeds)] at ran
    exact nomatch ran
  intro below
  by_cases none_ : length = 0 ∨ room < prefixBytes + length
  · exact ⟨none, refused none_, fun _ member => nomatch member⟩
  rw [not_or, not_lt] at none_
  obtain ⟨framed, placed, its⟩ := (places none_.1 none_.2).1 (below none_.1 none_.2)
  refine ⟨some framed, placed, fun one member => ?_⟩
  cases member
  exact ⟨its.prefixInside, its.payloadInside⟩

theorem harmless_iff :
    Harmless layout cursor length ↔ Unwrapped layout cursor.head cursor.tail length := by
  have writes := harmless_of_places length (frameToWrite_refused own) (frameToWrite_room own)
  have reads := harmless_of_places length frameToRead_refused (frameToRead_filled own)
  constructor
  · intro harmless some_ _
    exact ⟨writes.mp harmless.frameToWrite some_, reads.mp harmless.frameToRead some_⟩
  intro unwrapped
  have most := readable_le own
  refine ⟨?_, ?_, ?_, ?_, ?_⟩
  · obtain ⟨runs, ran, inside, _⟩ := readRuns_spec own length
    exact ⟨runs, ran, inside⟩
  · obtain ⟨runs, ran, inside, _⟩ := writeRuns_spec own length
    exact ⟨runs, ran, inside⟩
  · rcases Nat.lt_or_ge cursor.readable prefixBytes with short | filled
    · exact ⟨none, (lengthToRead_spec own).2 short, fun _ member => nomatch member⟩
    obtain ⟨runs, ran, inside, _⟩ := (lengthToRead_spec own).1 filled
    refine ⟨some runs, ran, fun one member => ?_⟩
    cases member
    exact inside
  · exact reads.mpr fun some_ => (unwrapped some_ most).2
  · exact writes.mpr fun some_ => (unwrapped some_ most).1

end

namespace Channel

/-- Frames come out in order and whole while the indices stay below the end of their word; indices
do no harm exactly where no frame they allow would pass it. -/
theorem frames_in_order (layout : Layout) (memory : Nat → UInt8) (index : UInt64) :
    (∀ state, Reached next Within (.ok (start layout memory index)) state →
      ∃ channel, state = .ok channel ∧ channel.Fifo) ∧ ∀ head tail length,
      (∀ cursor, Cursor.new layout head tail = some cursor → Harmless layout cursor length) ↔
        Unwrapped layout head tail length := by
  constructor
  · intro state reached
    have sound : ∃ channel, state = .ok channel ∧ ∃ finished unread,
        channel.Sound finished unread := by
      refine reached.invariant (motive := fun state => ∃ channel, state = .ok channel ∧
        ∃ finished unread, channel.Sound finished unread)
        ⟨_, rfl, [], [], sound_start layout memory index⟩ ?_
      rintro _ action ⟨channel, rfl, finished, unread, sound⟩ within
      exact sound.step within
    obtain ⟨channel, is, finished, unread, sound⟩ := sound
    exact ⟨channel, is, sound.fifo⟩
  · intro head tail length
    by_cases believable : (head - tail).toNat ≤ layout.capacity
    · have made : Cursor.new layout head tail = some ⟨head, tail, layout.capacity, believable⟩ :=
        dif_pos believable
      rw [made]
      rw [← @harmless_iff layout ⟨head, tail, layout.capacity, believable⟩ rfl]
      exact ⟨fun harmless => harmless _ rfl,
        fun harmless cursor same => by cases same; exact harmless⟩
    · have made : Cursor.new layout head tail = none := dif_neg believable
      rw [made]
      exact ⟨fun _ _ within => absurd within believable, fun _ _ none => nomatch none⟩

def wholeFrame : List Action :=
  .offer ⟨[7], none, false⟩ :: replicate 5 .store ++ [.publish, .look] ++ replicate 4 .load ++
    [.measure, .load, .take]

theorem one_frame_in_order : (∃ channel, run next wholeFrame
      (.ok (start ⟨64, 6, by decide, rfl⟩ (fun _ => 0) 0)) = .ok channel ∧
        channel.taken = [[7]] ∧ channel.Fifo) ∧
    ∀ cursor, Cursor.new ⟨64, 6, by decide, rfl⟩ 5 0 = some cursor →
      Harmless ⟨64, 6, by decide, rfl⟩ cursor 1 := by
  have ordered := frames_in_order ⟨64, 6, by decide, rfl⟩ (fun _ => 0) 0
  constructor
  · obtain ⟨channel, ran, fifo⟩ := ordered.1 _ (Reached.run_of_meet wholeFrame .start
      ⟨fun _ => ⟨by decide, by decide⟩, trivial, trivial, trivial, trivial, trivial, trivial,
        trivial, trivial, trivial, trivial, trivial, trivial, trivial, trivial, trivial⟩)
    have taken : (run next wholeFrame (.ok (start ⟨64, 6, by decide, rfl⟩ (fun _ => 0) 0))).map
        Channel.taken = .ok [[7]] := rfl
    rw [ran] at taken
    exact ⟨channel, ran, Except.ok.inj taken, fifo⟩
  · exact (ordered.2 5 0 1).mpr fun _ _ => ⟨fun _ => by decide, fun _ => by decide⟩

/-- Two bytes before the end of the index word, a frame there is room for stops the producer. -/
theorem not_frames_in_order : Layout.forRegion 128 = some ⟨64, 6, by decide, rfl⟩ ∧
    ¬ (∃ channel, next (.offer ⟨[7], none, false⟩)
      (.ok (start ⟨64, 6, by decide, rfl⟩ (fun _ => 0) 0xfffffffffffffffe)) = .ok channel ∧
        channel.Fifo) := by
  refine ⟨rfl, ?_⟩
  rintro ⟨channel, ran, _⟩
  have stopped : next (.offer ⟨[7], none, false⟩)
      (.ok (start ⟨64, 6, by decide, rfl⟩ (fun _ => 0) 0xfffffffffffffffe)) = .error .overflow := by
    rfl
  rw [stopped] at ran
  exact nomatch ran

end Channel

end Bhaskix.Abi
