import Bhaskix.Library.Checked

/-!
Where the bytes of a ring in shared memory go. Indices count bytes and run freely; they are masked
into the region only when an offset is needed.
-/

namespace Bhaskix.Abi

open Library
open Checked (sub_of_le ok_bind add_of_lt add_of_le error_bind)

abbrev headerBytes : Nat := 64

abbrev dataOffset : Nat := headerBytes

structure Layout where
  capacity : Nat
  power : ∃ exponent < 64, capacity = 2 ^ exponent

def Layout.forRegion (length : UInt64) : Option Layout :=
  if length.toNat ≤ headerBytes then none
  else
    let usable := length.toNat - headerBytes
    let capacity := 2 ^ usable.log2
    if capacity = 0 then none
    else
      some
        { capacity := capacity
          power := ⟨usable.log2, by
            have bounded : usable < 2 ^ 64 := by
              have := length.toNat_lt
              omega
            by_cases none : usable = 0
            · rw [none]
              decide
            · exact (Nat.log2_lt none).mpr bounded, rfl⟩ }

variable (layout : Layout) (cursor : Cursor)

def Layout.offsetOf (index : UInt64) : Checked Nat := do
  let mask ← Checked.sub layout.capacity 1
  Checked.add dataOffset (index.toNat &&& mask)

structure Cursor where
  head : UInt64
  tail : UInt64
  capacity : Nat
  believable : (head - tail).toNat ≤ capacity

namespace Cursor

def new (layout : Layout) (head tail : UInt64) : Option Cursor :=
  if believable : (head - tail).toNat ≤ layout.capacity then
    some { head, tail, capacity := layout.capacity, believable }
  else none

variable (cursor : Cursor)

def readable : Nat :=
  (cursor.head - cursor.tail).toNat

def writable : Checked Nat :=
  Checked.sub cursor.capacity cursor.readable

end Cursor

structure Run where
  offset : Nat
  length : Nat
  deriving DecidableEq, Repr

def runsFrom (start : UInt64) (count : Nat) : Checked (Run × Run) :=
  if count = 0 then .ok (⟨dataOffset, 0⟩, ⟨dataOffset, 0⟩)
  else do
    let offset ← layout.offsetOf start
    let stop ← Checked.add dataOffset layout.capacity
    let toEnd ← Checked.sub stop offset
    let first := min count toEnd
    let rest ← Checked.sub count first
    .ok (⟨offset, first⟩, ⟨dataOffset, rest⟩)

def readRuns (count : Nat) : Checked (Run × Run) :=
  runsFrom layout cursor.tail (min count cursor.readable)

def writeRuns (count : Nat) : Checked (Run × Run) := do
  let writable ← cursor.writable
  runsFrom layout cursor.head (min count writable)

abbrev prefixBytes : Nat := 4

abbrev memberShift : UInt32 := 24

abbrev memberMask : UInt32 := 0xf <<< memberShift

abbrev uplinkBit : UInt32 := (1 : UInt32) <<< 28

abbrev lengthMask : UInt32 := (1 <<< memberShift) - 1

def mark (length : UInt32) (member : Option UInt8) (uplink : Bool) : UInt32 :=
  let named :=
    match member with
    | some index => (length &&& lengthMask) ||| ((index.toUInt32 + 1) <<< memberShift)
    | none => length &&& lengthMask
  if uplink then named ||| uplinkBit else named

def marked (word : UInt32) : Nat × Option UInt8 × Bool :=
  let member := (word &&& memberMask) >>> memberShift
  let which := if member = 0 then none else some (member - 1).toUInt8
  ((word &&& lengthMask).toNat, which, decide (word &&& uplinkBit ≠ 0))

structure Framed where
  prefixRuns : Run × Run
  payload : Run × Run
  next : UInt64
  deriving DecidableEq

def frameToWrite (length : Nat) : Checked (Option Framed) := do
  let total := prefixBytes + length
  if 2 ^ 64 ≤ total then return none
  let writable ← cursor.writable
  if length = 0 ∨ writable < total then return none
  let prefixRuns ← writeRuns layout cursor prefixBytes
  let middle ← Checked.add cursor.head.toNat prefixBytes
  match Cursor.new layout (UInt64.ofNat middle) cursor.tail with
  | none => return none
  | some afterPrefix =>
    let payload ← writeRuns layout afterPrefix length
    let next ← Checked.add cursor.head.toNat total
    return some { prefixRuns, payload, next := UInt64.ofNat next }

def lengthToRead : Checked (Option (Run × Run)) :=
  if prefixBytes ≤ cursor.readable then some <$> readRuns layout cursor prefixBytes else return none

def frameToRead (length : Nat) : Checked (Option Framed) := do
  let total := prefixBytes + length
  if 2 ^ 64 ≤ total then return none
  if length = 0 ∨ cursor.readable < total then return none
  let prefixRuns ← readRuns layout cursor prefixBytes
  let middle ← Checked.add cursor.tail.toNat prefixBytes
  match Cursor.new layout cursor.head (UInt64.ofNat middle) with
  | none => return none
  | some afterPrefix =>
    let payload ← readRuns layout afterPrefix length
    let next ← Checked.add cursor.tail.toNat total
    return some { prefixRuns, payload, next := UInt64.ofNat next }

namespace Layout

variable (layout : Layout)

theorem capacity_pos : 0 < layout.capacity := by
  obtain ⟨exponent, _, is⟩ := layout.power
  rw [is]
  exact Nat.two_pow_pos exponent

theorem capacity_le : layout.capacity ≤ 2 ^ 63 := by
  obtain ⟨exponent, small, is⟩ := layout.power
  rw [is]
  exact Nat.pow_le_pow_right (by decide) (by omega)

def place (index : Nat) : Nat :=
  dataOffset + index % layout.capacity

theorem offsetOf_eq (index : UInt64) : layout.offsetOf index = .ok (layout.place index.toNat) := by
  have masked : index.toNat &&& (layout.capacity - 1) = index.toNat % layout.capacity := by
    obtain ⟨exponent, _, is⟩ := layout.power
    rw [is]
    exact Nat.and_two_pow_sub_one_eq_mod ..
  have inside := Nat.mod_lt index.toNat layout.capacity_pos
  have bounded := layout.capacity_le
  have header : dataOffset = 64 := rfl
  rw [offsetOf, sub_of_le layout.capacity_pos, ok_bind, masked,
    add_of_lt (by omega)]
  rfl

theorem place_lt (index : Nat) : layout.place index < dataOffset + layout.capacity :=
  Nat.add_lt_add_left (Nat.mod_lt index layout.capacity_pos) dataOffset

theorem place_ne (before : index < other)
    (near : other < index + layout.capacity) : layout.place index ≠ layout.place other := by
  intro same
  have equal : index % layout.capacity = other % layout.capacity := Nat.add_left_cancel same
  have turns : layout.capacity ∣ other - index :=
    Nat.dvd_of_mod_eq_zero (Nat.sub_mod_eq_zero_of_mod_eq equal.symm)
  have far := Nat.le_of_dvd (by omega) turns
  omega

theorem place_add (ahead : start % layout.capacity + index < layout.capacity) :
    layout.place (start + index) = layout.place start + index := by
  rw [place, place, ← Nat.mod_add_mod, Nat.mod_eq_of_lt ahead, Nat.add_assoc]

theorem place_wrap (short : index < layout.capacity)
    (past : layout.capacity ≤ start % layout.capacity + index) : layout.place (start + index) =
      dataOffset + (start % layout.capacity + index - layout.capacity) := by
  have inside := Nat.mod_lt start layout.capacity_pos
  rw [place, ← Nat.mod_add_mod, Nat.mod_eq_sub_mod past, Nat.mod_eq_of_lt (by omega)]

end Layout

def Run.offsets (run : Run) : List Nat :=
  List.range' run.offset run.length

def offsets (runs : Run × Run) : List Nat :=
  runs.1.offsets ++ runs.2.offsets

def Run.Inside (run : Run) : Prop :=
  dataOffset ≤ run.offset ∧ run.offset < dataOffset + layout.capacity ∧
    run.offset + run.length ≤ dataOffset + layout.capacity

def Inside (layout : Layout) (runs : Run × Run) : Prop :=
  runs.1.Inside layout ∧ runs.2.Inside layout

def Layout.places (start count : Nat) : List Nat :=
  (List.range count).map fun index => layout.place (start + index)

theorem offsets_runs (start : Nat) (fits : count ≤ layout.capacity) :
    offsets (⟨layout.place start, min count (dataOffset + layout.capacity - layout.place start)⟩,
      ⟨dataOffset, count - min count (dataOffset + layout.capacity - layout.place start)⟩) =
      layout.places start count := by
  have inside := Nat.mod_lt start layout.capacity_pos
  have room : dataOffset + layout.capacity - layout.place start =
      layout.capacity - start % layout.capacity := by
    rw [Layout.place]
    omega
  rw [room]
  apply List.ext_getElem
  · simp only [offsets, Run.offsets, Layout.places, List.length_append, List.length_range',
      List.length_map, List.length_range]
    omega
  intro index inRuns inPlaces
  simp only [Layout.places, List.length_map, List.length_range] at inPlaces
  simp only [offsets, Run.offsets, Layout.places, List.getElem_map, List.getElem_range]
  rw [List.getElem_append]
  split
  · rename_i early
    simp only [List.length_range'] at early
    rw [List.getElem_range', layout.place_add (by omega)]
    omega
  · rename_i late
    simp only [List.length_range'] at late
    rw [List.getElem_range', layout.place_wrap (by omega) (by omega)]
    simp only [List.length_range']
    omega

theorem runsFrom_spec (start : UInt64) (fits : count ≤ layout.capacity) :
    ∃ runs, runsFrom layout start count = .ok runs ∧ Inside layout runs ∧
      offsets runs = layout.places start.toNat count := by
  have positive := layout.capacity_pos
  have bounded := layout.capacity_le
  have header : dataOffset = 64 := rfl
  unfold runsFrom
  split
  · rename_i none
    subst none
    refine ⟨_, rfl, ⟨?_, ?_⟩, rfl⟩ <;>
    · simp only [Run.Inside]
      omega
  have inside := layout.place_lt start.toNat
  have above : dataOffset ≤ layout.place start.toNat := Nat.le_add_right ..
  rw [layout.offsetOf_eq, ok_bind, add_of_lt (by omega), ok_bind,
    sub_of_le inside.le, ok_bind]
  dsimp only
  rw [sub_of_le (Nat.min_le_left ..), ok_bind]
  refine ⟨_, rfl, ⟨?_, ?_⟩, ?_⟩
  · simp only [Run.Inside]
    omega
  · simp only [Run.Inside]
    omega
  · exact offsets_runs layout start.toNat fits

section Transfers

structure Framed.At (layout : Layout) (start length : Nat) (framed : Framed) : Prop where
  prefixInside : Inside layout framed.prefixRuns
  payloadInside : Inside layout framed.payload
  prefixOffsets : offsets framed.prefixRuns = layout.places start prefixBytes
  payloadOffsets : offsets framed.payload = layout.places (start + prefixBytes) length
  next : framed.next.toNat = start + prefixBytes + length

/-- A frame there is room for is placed, unless the index behind it passes the end of its word. -/
def Places (layout : Layout) (start length : Nat) (answer : Checked (Option Framed)) : Prop :=
  (start + prefixBytes + length < 2 ^ 64 →
    ∃ framed, answer = .ok (some framed) ∧ framed.At layout start length) ∧
  (2 ^ 64 ≤ start + prefixBytes + length → answer = .error .overflow)

variable {layout : Layout} {cursor : Cursor} (own : cursor.capacity = layout.capacity)

include own

theorem readable_le : cursor.readable ≤ layout.capacity :=
  own ▸ cursor.believable

theorem writable_eq : cursor.writable = .ok (layout.capacity - cursor.readable) := by
  rw [Cursor.writable, own, sub_of_le (readable_le own)]

theorem readRuns_spec (count : Nat) :
    ∃ runs, readRuns layout cursor count = .ok runs ∧ Inside layout runs ∧
      offsets runs = layout.places cursor.tail.toNat (min count cursor.readable) :=
  runsFrom_spec layout cursor.tail ((Nat.min_le_right ..).trans (readable_le own))

theorem writeRuns_spec (count : Nat) :
    ∃ runs, writeRuns layout cursor count = .ok runs ∧ Inside layout runs ∧ offsets runs =
        layout.places cursor.head.toNat (min count (layout.capacity - cursor.readable)) := by
  rw [writeRuns, writable_eq own]
  exact runsFrom_spec layout cursor.head ((Nat.min_le_right ..).trans (Nat.sub_le ..))

theorem new_headMoved {count : Nat} (fits : cursor.head.toNat + count < 2 ^ 64)
    (room : cursor.readable + count ≤ layout.capacity) :
    ∃ moved, Cursor.new layout (UInt64.ofNat (cursor.head.toNat + count)) cursor.tail =
        some moved ∧ moved.capacity = layout.capacity ∧
      moved.head.toNat = cursor.head.toNat + count ∧ moved.readable = cursor.readable + count := by
  have bounded := layout.capacity_le
  have more : (UInt64.ofNat (cursor.head.toNat + count) - cursor.tail).toNat =
      cursor.readable + count := by
    rw [Cursor.readable, UInt64.toNat_sub] at room ⊢
    rw [UInt64.toNat_sub, UInt64.toNat_ofNat_of_lt' fits]
    have := cursor.tail.toNat_lt
    omega
  refine ⟨⟨_, _, layout.capacity, more.trans_le room⟩, dif_pos _, rfl, ?_, more⟩
  exact UInt64.toNat_ofNat_of_lt' fits

theorem new_tailMoved {count : Nat} (fits : cursor.tail.toNat + count < 2 ^ 64)
    (filled : count ≤ cursor.readable) :
    ∃ moved, Cursor.new layout cursor.head (UInt64.ofNat (cursor.tail.toNat + count)) =
        some moved ∧ moved.capacity = layout.capacity ∧
      moved.tail.toNat = cursor.tail.toNat + count ∧ moved.readable = cursor.readable - count := by
  have most := readable_le own
  have fewer : (cursor.head - UInt64.ofNat (cursor.tail.toNat + count)).toNat =
      cursor.readable - count := by
    rw [Cursor.readable, UInt64.toNat_sub] at filled ⊢
    rw [UInt64.toNat_sub, UInt64.toNat_ofNat_of_lt' fits]
    have := cursor.head.toNat_lt
    omega
  refine ⟨⟨_, _, layout.capacity, fewer.trans_le ((Nat.sub_le ..).trans most)⟩, dif_pos _, rfl, ?_,
    fewer⟩
  exact UInt64.toNat_ofNat_of_lt' fits

theorem frameToWrite_refused
    (refused : length = 0 ∨ layout.capacity - cursor.readable < prefixBytes + length) :
    frameToWrite layout cursor length = .ok none := by
  rw [frameToWrite, writable_eq own]
  split
  · rfl
  · rw [ok_bind, if_pos refused]
    rfl

theorem frameToWrite_room (some_ : length ≠ 0)
    (room : prefixBytes + length ≤ layout.capacity - cursor.readable) :
    Places layout cursor.head.toNat length (frameToWrite layout cursor length) := by
  have bounded := layout.capacity_le
  have width : prefixBytes = 4 := rfl
  obtain ⟨prefixRuns, ranPrefix, prefixInside, prefixOffsets⟩ := writeRuns_spec own prefixBytes
  rw [Nat.min_eq_left (by omega)] at prefixOffsets
  have short : ¬ 2 ^ 64 ≤ prefixBytes + length := by omega
  have taken : ¬ (length = 0 ∨ layout.capacity - cursor.readable < prefixBytes + length) := by
    omega
  rw [frameToWrite, writable_eq own]
  rw [if_neg short, ok_bind, if_neg taken, ranPrefix, ok_bind]
  by_cases middle : cursor.head.toNat + prefixBytes < 2 ^ 64
  · obtain ⟨moved, made, same, head, readable⟩ :=
      @new_headMoved layout cursor own prefixBytes middle (by omega)
    obtain ⟨payload, ran, inside, itsOffsets⟩ := writeRuns_spec same length
    rw [head, Nat.min_eq_left (by omega)] at itsOffsets
    rw [add_of_lt middle, ok_bind, made]
    dsimp only
    rw [ran, ok_bind]
    constructor
    · intro fits
      rw [add_of_lt (by omega), ok_bind]
      refine ⟨_, rfl, prefixInside, inside, prefixOffsets, itsOffsets, ?_⟩
      rw [← Nat.add_assoc]
      exact UInt64.toNat_ofNat_of_lt' fits
    · intro exceeds
      rw [add_of_le (by omega), error_bind]
  · constructor
    · omega
    · intro _
      rw [add_of_le (by omega), error_bind]

omit own in
theorem frameToRead_refused (refused : length = 0 ∨ cursor.readable < prefixBytes + length) :
    frameToRead layout cursor length = .ok none := by
  rw [frameToRead, if_pos refused]
  split <;> rfl

theorem frameToRead_filled (some_ : length ≠ 0) (filled : prefixBytes + length ≤ cursor.readable) :
    Places layout cursor.tail.toNat length (frameToRead layout cursor length) := by
  have bounded := layout.capacity_le
  have most := readable_le own
  have width : prefixBytes = 4 := rfl
  obtain ⟨prefixRuns, ranPrefix, prefixInside, prefixOffsets⟩ := readRuns_spec own prefixBytes
  rw [Nat.min_eq_left (by omega)] at prefixOffsets
  have short : ¬ 2 ^ 64 ≤ prefixBytes + length := by omega
  have taken : ¬ (length = 0 ∨ cursor.readable < prefixBytes + length) := by omega
  rw [frameToRead]
  rw [if_neg short, if_neg taken, ranPrefix, ok_bind]
  by_cases middle : cursor.tail.toNat + prefixBytes < 2 ^ 64
  · obtain ⟨moved, made, same, tail, readable⟩ :=
      @new_tailMoved layout cursor own prefixBytes middle (by omega)
    obtain ⟨payload, ran, inside, itsOffsets⟩ := readRuns_spec same length
    rw [tail, Nat.min_eq_left (by omega)] at itsOffsets
    rw [add_of_lt middle, ok_bind, made]
    dsimp only
    rw [ran, ok_bind]
    constructor
    · intro fits
      rw [add_of_lt (by omega), ok_bind]
      refine ⟨_, rfl, prefixInside, inside, prefixOffsets, itsOffsets, ?_⟩
      rw [← Nat.add_assoc]
      exact UInt64.toNat_ofNat_of_lt' fits
    · intro exceeds
      rw [add_of_le (by omega), error_bind]
  · constructor
    · omega
    · intro _
      rw [add_of_le (by omega), error_bind]

theorem lengthToRead_spec :
    (prefixBytes ≤ cursor.readable → ∃ runs, lengthToRead layout cursor = .ok (some runs) ∧
      Inside layout runs ∧ offsets runs = layout.places cursor.tail.toNat prefixBytes) ∧
    (cursor.readable < prefixBytes → lengthToRead layout cursor = .ok none) := by
  rw [lengthToRead]
  constructor
  · intro filled
    obtain ⟨runs, ran, inside, its⟩ := readRuns_spec own prefixBytes
    rw [Nat.min_eq_left filled] at its
    rw [if_pos filled, ran]
    exact ⟨runs, rfl, inside, its⟩
  · intro short
    rw [if_neg (by omega)]
    rfl

end Transfers

theorem marked_mark {length : UInt32} (short : length.toNat < 2 ^ 24) (member : Option UInt8)
    (uplink : Bool) : (marked (mark length member uplink)).1 = length.toNat := by
  have mask (word : UInt32) : (word &&& lengthMask).toNat = word.toNat % 2 ^ 24 := by
    have ones : lengthMask.toNat = 2 ^ 24 - 1 := by decide
    rw [UInt32.toNat_and, ones, Nat.and_two_pow_sub_one_eq_mod]
  have kept : (length &&& lengthMask).toNat = length.toNat := by
    rw [mask, Nat.mod_eq_of_lt short]
  have beside (word : UInt32) :
      (length &&& lengthMask ||| word <<< memberShift).toNat % 2 ^ 24 = length.toNat := by
    have high : (word <<< memberShift).toNat % 2 ^ 24 = 0 := by
      rw [UInt32.toNat_shiftLeft, show memberShift.toNat % 32 = 24 from rfl, Nat.shiftLeft_eq]
      omega
    rw [UInt32.toNat_or, Nat.or_mod_two_pow, high, Nat.or_zero, kept, Nat.mod_eq_of_lt short]
  have named : (match member with
      | some index => (length &&& lengthMask) ||| ((index.toUInt32 + 1) <<< memberShift)
      | none => length &&& lengthMask).toNat % 2 ^ 24 = length.toNat := by
    cases member with
    | none => rw [kept, Nat.mod_eq_of_lt short]
    | some index => exact beside _
  rw [marked, mask]
  unfold mark
  dsimp only
  split
  · rw [UInt32.toNat_or, Nat.or_mod_two_pow, named]
    exact Nat.or_zero _
  · exact named

end Bhaskix.Abi
