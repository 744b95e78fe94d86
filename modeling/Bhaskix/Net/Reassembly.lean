import Bhaskix.Library.Bytes
import Bhaskix.Library.Run
import Bhaskix.Net.Octets

/-!
The table in which the fragments of a datagram are put together, block by block and each block from
the first fragment that brings it.
-/

namespace Bhaskix.Net

open Library

structure Ipv4Header where
  source : UInt32
  destination : UInt32
  protocol : UInt8
  identification : UInt16
  moreFragments : Bool
  /-- In bytes. -/
  fragmentOffset : Nat
  deriving DecidableEq, Repr

structure Key where
  source : UInt32
  destination : UInt32
  identification : UInt16
  protocol : UInt8
  deriving DecidableEq, Repr

def Ipv4Header.key (header : Ipv4Header) : Key where
  source := header.source
  destination := header.destination
  identification := header.identification
  protocol := header.protocol

structure Fragment where
  header : Ipv4Header
  payload : List UInt8
  time : Nat
  deriving DecidableEq, Repr

namespace Fragment

variable (fragment : Fragment)

def stop : Nat :=
  fragment.header.fragmentOffset + fragment.payload.length

def first : Nat :=
  fragment.header.fragmentOffset / 8

def blocks : Nat :=
  (fragment.payload.length + 7) / 8

def chunk (block : Nat) : List UInt8 :=
  (fragment.payload.drop (8 * block)).take 8

def covers (block : Nat) : Bool :=
  fragment.first ≤ block ∧ block < fragment.first + fragment.blocks

end Fragment

abbrev maxBlocks : Nat := 65535 / 8

abbrev bitmapWords : Nat := (maxBlocks + 63) / 64

abbrev u64Max : Nat := 2 ^ 64 - 1

abbrev Bitmap : Type := Finset Nat

def Bitmap.held (bitmap : Bitmap) (block : Nat) : Bool :=
  block ∈ bitmap

theorem Bitmap.held_iff {bitmap : Bitmap} : bitmap.held block ↔ block ∈ bitmap :=
  decide_eq_true_iff

def Bitmap.hold (bitmap : Bitmap) (block : Nat) : Bitmap :=
  if block / 64 < bitmapWords then insert block bitmap else bitmap

structure Pending (max : Nat) where
  key : Key
  data : Page max
  received : Bitmap
  total : Option Nat
  deadline : Nat

namespace Pending

variable {max : Nat}

def fixTotal (pending : Pending max) (more : Bool) (stop : Nat) : Except NetError (Pending max) :=
  match more, pending.total with
  | false, some known =>
    if known ≠ stop then .error (.lengthBeyondBuffer stop known)
    else .ok { pending with total := some stop }
  | false, none => .ok { pending with total := some stop }
  | true, some known =>
    if known < stop then .error (.lengthBeyondBuffer stop known) else .ok pending
  | true, none => .ok pending

def writeBlock (pending : Pending max) (place : Nat) (chunk : List UInt8) : Pending max :=
  if maxBlocks ≤ place ∨ pending.received.held place then pending
  else if place * 8 + chunk.length ≤ max then
    { pending with
      data := pending.data.splice (place * 8) chunk
      received := pending.received.hold place }
  else pending

def writeBlocks (pending : Pending max) (fragment : Fragment) (count : Nat) : Pending max :=
  (List.range count).foldl
    (fun pending block =>
      pending.writeBlock (fragment.first + block) (fragment.chunk block)) pending

def accept (pending : Pending max) (fragment : Fragment) : Except NetError (Pending max) := do
  let pending ← pending.fixTotal fragment.header.moreFragments fragment.stop
  return pending.writeBlocks fragment fragment.blocks

def complete (pending : Pending max) : Bool :=
  match pending.total with
  | none => false
  | some total => (List.range ((total + 7) / 8)).all fun block => pending.received.held block

end Pending

structure Reassembly (max : Nat) where
  entries : List (Option (Pending max))
  lifetime : Nat

namespace Reassembly

variable {max : Nat}

def new (max entries lifetime : Nat) : Reassembly max where
  entries := List.replicate entries none
  lifetime := lifetime

def expire (table : Reassembly max) (now : Nat) : Reassembly max :=
  { table with entries := table.entries.map (Option.filter fun held => now < held.deadline) }

def release (table : Reassembly max) (index : Nat) : Reassembly max :=
  { table with entries := table.entries.set index none }

def position (table : Reassembly max) (key : Key) : Option Nat :=
  table.entries.findIdx? fun slot => slot.any fun held => held.key = key

def started (table : Reassembly max) (key : Key) (now : Nat) : Pending max where
  key := key
  data := Page.zero
  received := ∅
  total := none
  deadline := min (now + table.lifetime) u64Max

def findOrStart (table : Reassembly max) (key : Key) (now : Nat) :
    Except NetError Nat × Reassembly max :=
  match table.position key with
  | some index => (.ok index, table)
  | none =>
    let table := table.expire now
    match table.entries.findIdx? Option.isNone with
    | none => (.error (.exhausted "ipv4 reassembly"), table)
    | some index =>
      (.ok index, { table with entries := table.entries.set index (table.started key now) })

def offer (table : Reassembly max) (header : Ipv4Header) (payload : List UInt8) (now : Nat) :
    Except NetError (Option Nat) × Reassembly max :=
  let fragment : Fragment := { header, payload, time := now }
  if 2 ^ 64 ≤ fragment.stop then
    (.error (.lengthBeyondBuffer header.fragmentOffset max), table)
  else if max < fragment.stop then (.error (.lengthBeyondBuffer fragment.stop max), table)
  else if header.moreFragments ∧ payload.length % 8 ≠ 0 then
    (.error (.unsupported "non-final fragment not a multiple of 8 bytes"
      (UInt32.ofNat payload.length)), table)
  else
    match table.findOrStart header.key now with
    | (.error error, table) => (.error error, table)
    | (.ok index, table) =>
      match table.entries[index]?.join with
      | none => (.ok none, table)
      | some pending =>
        match pending.accept fragment with
        | .error error => (.error error, table)
        | .ok pending =>
          (.ok (if pending.complete then some index else none),
            { table with entries := table.entries.set index pending })

def assembled (table : Reassembly max) (index : Nat) : Option (List UInt8) := do
  let pending ← table.entries[index]?.join
  let total ← pending.total
  if pending.complete then pending.data.slice 0 total else none

end Reassembly

namespace Fragment

variable {fragment : Fragment} {max : Nat}

/-- A fragment that passes the checks made before the table is looked at, at a block's boundary. -/
structure Fits (fragment : Fragment) (max : Nat) : Prop where
  aligned : fragment.header.fragmentOffset % 8 = 0
  inside : fragment.stop ≤ max
  whole : fragment.header.moreFragments = true → fragment.payload.length % 8 = 0

theorem length_chunk (block : Nat) :
    (fragment.chunk block).length = min 8 (fragment.payload.length - 8 * block) := by
  rw [chunk, List.length_take, List.length_drop]

theorem getD_chunk (inside : offset < 8) :
    (fragment.chunk block).getD offset 0 = fragment.payload.getD (8 * block + offset) 0 := by
  rw [chunk, List.getD_eq_getElem?_getD, List.getElem?_take_of_lt inside, List.getElem?_drop,
    List.getD_eq_getElem?_getD]

theorem covers_iff :
    fragment.covers block ↔ fragment.first ≤ block ∧ block < fragment.first + fragment.blocks := by
  rw [covers, decide_eq_true_iff]

theorem covers_of_find {fragments : List Fragment}
    (found : fragments.find? (fun fragment => fragment.covers block) = some fragment) :
    fragment ∈ fragments ∧ fragment.covers block :=
  ⟨List.mem_of_find?_eq_some found, by simpa using List.find?_some found⟩

theorem Fits.lt_stop (fits : fragment.Fits max) (covers : fragment.covers (place / 8))
    (last : fragment.header.moreFragments = false → place < fragment.stop) :
    fragment.header.fragmentOffset ≤ place ∧ place < fragment.stop := by
  have aligned := fits.aligned
  obtain ⟨low, high⟩ := covers_iff.mp covers
  unfold first at low high
  unfold blocks at high
  refine ⟨by omega, ?_⟩
  cases more : fragment.header.moreFragments with
  | false => exact last more
  | true =>
    have whole := fits.whole more
    unfold stop
    omega

end Fragment

namespace Pending

variable {max : Nat} {pending : Pending max} {fragment : Fragment}

theorem writeBlock_of_held (passed : maxBlocks ≤ place ∨ place ∈ pending.received) :
    pending.writeBlock place chunk = pending := by
  rw [writeBlock, if_pos (passed.imp_right Bitmap.held_iff.mpr)]

theorem writeBlock_of_free {chunk : List UInt8} (low : place < maxBlocks)
    (free : place ∉ pending.received) (room : place * 8 + chunk.length ≤ max) :
    pending.writeBlock place chunk = { pending with
      data := pending.data.splice (place * 8) chunk
      received := insert place pending.received } := by
  have clear : ¬ (maxBlocks ≤ place ∨ pending.received.held place = true) := by
    rintro (past | held)
    · omega
    · exact free (Bitmap.held_iff.mp held)
  have inMap : place / 64 < bitmapWords := by
    unfold bitmapWords
    unfold maxBlocks at low
    omega
  rw [writeBlock, if_neg clear, if_pos room, Bitmap.hold, if_pos inMap]

/-- Blocks below the bound that a run of `count` blocks brings and that were not there. -/
def Brings (pending : Pending max) (fragment : Fragment) (count block : Nat) : Prop :=
  block ∉ pending.received ∧ block < maxBlocks ∧ fragment.first ≤ block ∧
    block < fragment.first + count

structure Written (pending : Pending max) (fragment : Fragment) (count : Nat)
    (after : Pending max) : Prop where
  received : ∀ block, block ∈ after.received ↔
    block ∈ pending.received ∨ pending.Brings fragment count block
  brought : ∀ place, pending.Brings fragment count (place / 8) → place < fragment.stop →
    after.data.byteAt place = fragment.payload.getD (place - fragment.header.fragmentOffset) 0
  kept : ∀ place, ¬ pending.Brings fragment count (place / 8) →
    after.data.byteAt place = pending.data.byteAt place
  rest : after = { pending with data := after.data, received := after.received }

theorem writeBlocks_succ (count : Nat) : pending.writeBlocks fragment (count + 1) =
      (pending.writeBlocks fragment count).writeBlock (fragment.first + count)
        (fragment.chunk count) := by
  rw [writeBlocks, List.range_succ, List.foldl_append]
  rfl

variable {count : Nat}

theorem Brings.succ :
    pending.Brings fragment (count + 1) block ↔ pending.Brings fragment count block ∨
      block = fragment.first + count ∧ block ∉ pending.received ∧ block < maxBlocks := by
  unfold Brings
  constructor
  · rintro ⟨free, low, above, below⟩
    rcases Nat.lt_or_ge block (fragment.first + count) with less | more
    · exact .inl ⟨free, low, above, less⟩
    · exact .inr ⟨by omega, free, low⟩
  · rintro (⟨free, low, above, below⟩ | ⟨same, free, low⟩)
    · exact ⟨free, low, above, by omega⟩
    · exact ⟨free, low, by omega, by omega⟩

theorem Written.congr (written : pending.Written fragment count after)
    (same : ∀ block, pending.Brings fragment count' block ↔ pending.Brings fragment count block) :
    pending.Written fragment count' after where
  received block := (written.received block).trans (or_congr_right (same block).symm)
  brought place brings := written.brought place ((same _).mp brings)
  kept place spared := written.kept place fun brings => spared ((same _).mpr brings)
  rest := written.rest

theorem Written.block (fits : fragment.Fits max)
    (more : count < fragment.blocks) (written : pending.Written fragment count mid)
    (low : fragment.first + count < maxBlocks) (free : fragment.first + count ∉ mid.received) :
    pending.Written fragment (count + 1)
      (mid.writeBlock (fragment.first + count) (fragment.chunk count)) := by
  have aligned := fits.aligned
  have inside := fits.inside
  have long := @Fragment.length_chunk fragment count
  have start : (fragment.first + count) * 8 = fragment.header.fragmentOffset + 8 * count := by
    unfold Fragment.first
    omega
  unfold Fragment.blocks at more
  unfold Fragment.stop at inside
  have room : (fragment.first + count) * 8 + (fragment.chunk count).length ≤ max := by omega
  have missing : fragment.first + count ∉ pending.received := fun held =>
    free ((written.received _).mpr (.inl held))
  rw [writeBlock_of_free low free room]
  have elsewhere {place : Nat} (other : place / 8 ≠ fragment.first + count) :
      place < (fragment.first + count) * 8 ∨
        (fragment.first + count) * 8 + (fragment.chunk count).length ≤ place := by
    omega
  constructor
  case received =>
    intro block
    rw [Finset.mem_insert, written.received, Brings.succ]
    constructor
    · rintro (rfl | held | brings)
      · exact .inr (.inr ⟨rfl, missing, low⟩)
      · exact .inl held
      · exact .inr (.inl brings)
    · rintro (held | brings | ⟨same, _⟩)
      · exact .inr (.inl held)
      · exact .inr (.inr brings)
      · exact .inl same
  case brought =>
    intro place brings before
    unfold Fragment.stop at before
    by_cases here : place / 8 = fragment.first + count
    · have within : place - (fragment.first + count) * 8 < (fragment.chunk count).length := by omega
      have there : (mid.data.splice _ (fragment.chunk count)).byteAt _ = _ :=
        Page.byteAt_splice_inside room within
      rw [Nat.add_sub_cancel' (by omega), Fragment.getD_chunk (by omega)] at there
      refine there.trans ?_
      congr 1
      omega
    · rw [← written.brought place ((Brings.succ.mp brings).resolve_right fun last => here last.1)
        before]
      exact Page.byteAt_splice_outside (elsewhere here)
  case kept =>
    intro place spared
    have other : place / 8 ≠ fragment.first + count := fun same =>
      spared (Brings.succ.mpr (.inr ⟨same, same ▸ missing, same ▸ low⟩))
    rw [← written.kept place fun brings => spared (Brings.succ.mpr (.inl brings))]
    exact Page.byteAt_splice_outside (elsewhere other)
  case rest =>
    exact congrArg (fun before : Pending max => { before with
      data := mid.data.splice ((fragment.first + count) * 8) (fragment.chunk count)
      received := insert (fragment.first + count) mid.received }) written.rest

theorem writeBlocks_written (fits : fragment.Fits max) {count : Nat}
    (most : count ≤ fragment.blocks) :
    pending.Written fragment count (pending.writeBlocks fragment count) := by
  induction count with
  | zero =>
    have nothing {block : Nat} : ¬ pending.Brings fragment 0 block := by
      rintro ⟨_, _, above, below⟩
      omega
    exact ⟨fun block => ⟨.inl, fun held => held.resolve_right nothing⟩,
      fun place brings => absurd brings nothing, fun place _ => rfl, rfl⟩
  | succ count ih =>
    have written := ih (Nat.le_of_succ_le most)
    rw [writeBlocks_succ]
    by_cases passed : maxBlocks ≤ fragment.first + count ∨
        fragment.first + count ∈ (pending.writeBlocks fragment count).received
    · rw [writeBlock_of_held passed]
      refine written.congr fun block => ⟨fun brings => ?_, fun brings =>
        Brings.succ.mpr (.inl brings)⟩
      refine (Brings.succ.mp brings).resolve_right fun ⟨same, missing, low⟩ => ?_
      subst same
      rcases passed with past | held
      · omega
      rcases (written.received _).mp held with held | ⟨_, _, _, below⟩
      · exact missing held
      · omega
    · exact written.block fits most (by omega) fun held => passed (.inr held)

/-- An entry started at `start` that was offered `fragments` and refused none of them. -/
structure Sound (pending : Pending max) (lifetime start : Nat) (fragments : List Fragment) :
    Prop where
  deadline : pending.deadline = min (start + lifetime) u64Max
  fits : ∀ fragment ∈ fragments, fragment.Fits max
  keyed : ∀ fragment ∈ fragments, fragment.header.key = pending.key
  timely : ∀ fragment ∈ fragments, fragment.time < pending.deadline
  ended : ∀ total, pending.total = some total →
    ∃ fragment ∈ fragments, fragment.header.moreFragments = false ∧ fragment.stop = total
  agreed : ∀ fragment ∈ fragments, fragment.header.moreFragments = false →
    pending.total = some fragment.stop
  received : ∀ block, block ∈ pending.received ↔
    block < maxBlocks ∧ ∃ fragment ∈ fragments, fragment.covers block
  data : ∀ (place : Nat) (fragment : Fragment),
    fragments.find? (fun fragment => fragment.covers (place / 8)) = some fragment →
    place / 8 < maxBlocks → place < fragment.stop →
    pending.data.byteAt place = fragment.payload.getD (place - fragment.header.fragmentOffset) 0

theorem fixTotal_spec (fixed : pending.fixTotal more stop = .ok after) :
    ∃ total, after = { pending with total } ∧ (more = true → total = pending.total) ∧
      (more = false → total = some stop ∧ ∀ known, pending.total = some known → known = stop) := by
  unfold fixTotal at fixed
  split at fixed
  case h_1 known total =>
    split at fixed
    · cases fixed
    cases fixed
    rename_i same
    refine ⟨_, rfl, nofun, fun _ => ⟨rfl, fun other held => ?_⟩⟩
    rw [total] at held
    cases held
    exact of_not_not same
  case h_2 total =>
    cases fixed
    refine ⟨_, rfl, nofun, fun _ => ⟨rfl, fun known held => ?_⟩⟩
    rw [total] at held
    cases held
  case h_3 =>
    split at fixed
    · cases fixed
    · cases fixed
      exact ⟨_, rfl, fun _ => rfl, nofun⟩
  case h_4 =>
    cases fixed
    exact ⟨_, rfl, fun _ => rfl, nofun⟩

structure Accepted (pending : Pending max) (fragment : Fragment) (after : Pending max) : Prop where
  key : after.key = pending.key
  deadline : after.deadline = pending.deadline
  more : fragment.header.moreFragments = true → after.total = pending.total
  last : fragment.header.moreFragments = false →
    after.total = some fragment.stop ∧ ∀ known, pending.total = some known → known = fragment.stop
  written : pending.Written fragment fragment.blocks { after with total := pending.total }

theorem accept_spec (fits : fragment.Fits max)
    (accepted : pending.accept fragment = .ok after) : pending.Accepted fragment after := by
  unfold accept at accepted
  cases fixed : pending.fixTotal fragment.header.moreFragments fragment.stop with
  | error error =>
    rw [fixed] at accepted
    cases accepted
  | ok mid =>
    rw [fixed] at accepted
    cases accepted
    obtain ⟨total, rfl, more, last⟩ := fixTotal_spec fixed
    have written := @writeBlocks_written max { pending with total } fragment fits _ (Nat.le_refl _)
    obtain ⟨data, received, same⟩ : ∃ data received,
        writeBlocks { pending with total } fragment fragment.blocks =
          { pending with total, data, received } :=
      ⟨_, _, written.rest⟩
    rw [same] at written ⊢
    exact ⟨rfl, rfl, more, last, { written with rest := rfl }⟩

variable {fragments : List Fragment}

theorem Sound.accept (sound : pending.Sound lifetime start fragments)
    (fits : fragment.Fits max) (keyed : fragment.header.key = pending.key)
    (timely : fragment.time < pending.deadline) (accepted : pending.accept fragment = .ok after) :
    after.Sound lifetime start (fragments ++ [fragment]) := by
  have spec := accept_spec fits accepted
  have written := spec.written
  have member {other : Fragment} :
      other ∈ fragments ++ [fragment] ↔ other ∈ fragments ∨ other = fragment := by
    rw [List.mem_append, List.mem_singleton]
  have brings {block : Nat} : pending.Brings fragment fragment.blocks block ↔
      block ∉ pending.received ∧ block < maxBlocks ∧ fragment.covers block := by
    rw [Brings, Fragment.covers_iff]
  constructor
  case deadline => rw [spec.deadline, sound.deadline]
  case fits =>
    intro other held
    rcases member.mp held with old | rfl
    · exact sound.fits other old
    · exact fits
  case keyed =>
    intro other held
    rw [spec.key]
    rcases member.mp held with old | rfl
    · exact sound.keyed other old
    · exact keyed
  case timely =>
    intro other held
    rw [spec.deadline]
    rcases member.mp held with old | rfl
    · exact sound.timely other old
    · exact timely
  case ended =>
    intro total known
    cases more : fragment.header.moreFragments with
    | true =>
      rw [spec.more more] at known
      obtain ⟨other, old, last⟩ := sound.ended total known
      exact ⟨other, member.mpr (.inl old), last⟩
    | false =>
      rw [(spec.last more).1] at known
      exact ⟨fragment, member.mpr (.inr rfl), more, Option.some.inj known⟩
  case agreed =>
    intro other held last
    rcases member.mp held with old | rfl
    · have known := sound.agreed other old last
      cases more : fragment.header.moreFragments with
      | true => rw [spec.more more, known]
      | false => rw [(spec.last more).1, (spec.last more).2 _ known]
    · exact (spec.last last).1
  case received =>
    intro block
    have after : block ∈ after.received ↔ _ := written.received block
    rw [after, brings, sound.received]
    constructor
    · rintro (⟨low, other, old, covers⟩ | ⟨_, low, covers⟩)
      · exact ⟨low, other, member.mpr (.inl old), covers⟩
      · exact ⟨low, fragment, member.mpr (.inr rfl), covers⟩
    rintro ⟨low, other, held, covers⟩
    rcases member.mp held with old | rfl
    · exact .inl ⟨low, other, old, covers⟩
    by_cases before : ∃ older ∈ fragments, older.covers block = true
    · exact .inl ⟨low, before⟩
    · exact .inr ⟨fun both => before both.2, low, covers⟩
  case data =>
    intro place other found low before
    rw [List.find?_append] at found
    cases earlier : fragments.find? fun fragment => fragment.covers (place / 8) with
    | some first =>
      rw [earlier] at found
      obtain rfl : first = other := by simpa using found
      have held : place / 8 ∈ pending.received :=
        (sound.received _).mpr ⟨low, first, Fragment.covers_of_find earlier⟩
      rw [← sound.data place first earlier low before]
      exact written.kept place fun brought => brought.1 held
    | none =>
      rw [earlier] at found
      obtain ⟨covers, same⟩ : fragment.covers (place / 8) ∧ fragment = other := by
        simpa [List.find?_singleton] using found
      subst same
      refine written.brought place (brings.mpr ⟨fun held => ?_, low, covers⟩) before
      obtain ⟨_, older, old, coversToo⟩ := (sound.received _).mp held
      exact List.find?_eq_none.mp earlier older old coversToo

theorem Sound.complete (sound : pending.Sound lifetime start fragments)
    (complete : pending.complete) :
    ∃ total bytes, pending.total = some total ∧ pending.data.slice 0 total = some bytes ∧
      bytes.length = total ∧ ∀ place < total, ∃ fragment,
        fragments.find? (fun fragment => fragment.covers (place / 8)) = some fragment ∧
        fragment.header.fragmentOffset ≤ place ∧ place < fragment.stop ∧
        bytes[place]? = fragment.payload[place - fragment.header.fragmentOffset]? := by
  cases known : pending.total with
  | none => simp [Pending.complete, known] at complete
  | some total =>
    have all : ∀ block < (total + 7) / 8, block ∈ pending.received := by
      simpa [Pending.complete, known, List.all_eq_true, Bitmap.held_iff] using complete
    obtain ⟨final, finalOld, finalLast, finalStop⟩ := sound.ended total known
    have room : 0 + total ≤ max := by
      rw [Nat.zero_add, ← finalStop]
      exact (sound.fits final finalOld).inside
    refine ⟨total, _, rfl, if_pos room, by simp, fun place before => ?_⟩
    obtain ⟨low, other, old, covers⟩ := (sound.received _).mp (all (place / 8) (by omega))
    have some : (fragments.find? fun fragment => fragment.covers (place / 8)).isSome :=
      List.find?_isSome.mpr ⟨other, old, covers⟩
    obtain ⟨first, found⟩ := Option.isSome_iff_exists.mp some
    obtain ⟨member, coversToo⟩ := Fragment.covers_of_find found
    obtain ⟨above, below⟩ := (sound.fits first member).lt_stop coversToo fun last => by
      have agreed := (sound.agreed first member last).symm.trans known
      rw [Option.some.inj agreed]
      exact before
    have inside : place - first.header.fragmentOffset < first.payload.length := by
      unfold Fragment.stop at below
      omega
    refine ⟨first, found, above, below, ?_⟩
    rw [List.getElem?_map, List.getElem?_range before, Option.map_some, Nat.zero_add,
      sound.data place first found low below, List.getD_eq_getElem?_getD,
      List.getElem?_eq_getElem inside, Option.getD_some]

end Pending

namespace Reassembly

inductive Input
  | offer (header : Ipv4Header) (payload : List UInt8) (now : Nat)
  | release (index : Nat)
  | expire (now : Nat)
  deriving DecidableEq, Repr

variable {max : Nat} {table : Reassembly max} {fragment : Fragment} {key : Key} {now index : Nat}

def step (input : Input) (table : Reassembly max) : Reassembly max :=
  match input with
  | .offer header payload now => (table.offer header payload now).2
  | .release index => table.release index
  | .expire now => table.expire now

/-- A fragment comes at a block's boundary and while its entry, or one started for it, still has
time. -/
def Timely (table : Reassembly max) : Input → Prop
  | .offer header _ now =>
    header.fragmentOffset % 8 = 0 ∧ 0 < table.lifetime ∧ now < u64Max ∧
      ∀ slot ∈ table.entries, ∀ held ∈ slot, held.key = header.key → now < held.deadline
  | _ => True

instance (table : Reassembly max) : (input : Input) → Decidable (table.Timely input)
  | .offer _ _ _ => inferInstanceAs (Decidable (_ ∧ _))
  | .release _ => inferInstanceAs (Decidable True)
  | .expire _ => inferInstanceAs (Decidable True)

theorem position_spec (found : table.position key = some index) :
    ∃ held, table.entries[index]?.join = some held ∧ held.key = key := by
  obtain ⟨inside, holds, _⟩ := List.findIdx?_eq_some_iff_getElem.mp found
  cases slot : table.entries[index] with
  | none => simp [slot] at holds
  | some held =>
    refine ⟨held, ?_, ?_⟩
    · rw [List.getElem?_eq_getElem inside, slot]
      rfl
    · simpa [slot] using holds

theorem expire_of_full (full : (table.expire now).entries.findIdx? Option.isNone = none) :
    table.expire now = table := by
  have kept : ∀ slot ∈ table.entries, slot.filter (fun held => now < held.deadline) = slot := by
    intro slot member
    have filled := List.findIdx?_eq_none_iff.mp full _ (List.mem_map_of_mem member)
    cases slot with
    | none => rfl
    | some held =>
      rw [Option.filter_some] at filled ⊢
      split
      · rfl
      · simp_all
  rw [expire, List.map_congr_left kept, List.map_id']

inductive Base (table : Reassembly max) (fragment : Fragment) (index : Nat) :
    Pending max → List (Option (Pending max)) → Prop
  | found {before : Pending max} (seen : table.position fragment.header.key = some index)
      (held : table.entries[index]?.join = some before)
      (keyed : before.key = fragment.header.key) : Base table fragment index before table.entries
  | begun (absent : table.position fragment.header.key = none)
      (room : index < (table.expire fragment.time).entries.length) :
      Base table fragment index (table.started fragment.header.key fragment.time)
        ((table.expire fragment.time).entries.set index
          (table.started fragment.header.key fragment.time))

inductive Offered (table : Reassembly max) (fragment : Fragment) :
    Except NetError (Option Nat) × Reassembly max → Prop
  | refused (error : NetError) : Offered table fragment (.error error, table)
  | accepted {index : Nat} {before after : Pending max} {entries : List (Option (Pending max))}
      (inside : fragment.stop ≤ max)
      (whole : fragment.header.moreFragments = true → fragment.payload.length % 8 = 0)
      (base : Base table fragment index before entries)
      (ran : before.accept fragment = .ok after) :
      Offered table fragment (.ok (if after.complete then some index else none),
        { table with entries := entries.set index after })

theorem accept_started : ∃ after,
    (table.started fragment.header.key fragment.time).accept fragment = .ok after := by
  unfold Pending.accept Pending.fixTotal
  cases fragment.header.moreFragments with
  | true | false => exact ⟨_, rfl⟩

theorem offer_offered (header : Ipv4Header) (payload : List UInt8) :
    table.Offered { header, payload, time := now } (table.offer header payload now) := by
  unfold offer
  dsimp only
  split
  · exact .refused _
  split
  · exact .refused _
  rename_i inside
  split
  · exact .refused _
  rename_i whole
  have whole : header.moreFragments = true → payload.length % 8 = 0 := fun more =>
    of_not_not fun odd => whole ⟨more, odd⟩
  cases found : table.position header.key with
  | some index =>
    obtain ⟨before, held, keyed⟩ := position_spec found
    simp only [findOrStart, found, held]
    cases ran : before.accept { header, payload, time := now } with
    | error error => exact .refused _
    | ok after => exact .accepted (Nat.not_lt.mp inside) whole (.found found held keyed) ran
  | none =>
    cases free : (table.expire now).entries.findIdx? Option.isNone with
    | none =>
      simp only [findOrStart, found, free]
      rw [expire_of_full free]
      exact .refused _
    | some index =>
      obtain ⟨room, _⟩ := List.findIdx?_eq_some_iff_getElem.mp free
      obtain ⟨after, ran⟩ := @accept_started max table { header, payload, time := now }
      have first : ((table.expire now).entries.set index
          (some (table.started header.key now)))[index]?.join =
          some (table.started header.key now) := by
        rw [List.getElem?_set_self room]
        rfl
      have same : (table.expire now).started header.key now = table.started header.key now :=
        rfl
      simp only [findOrStart, found, free, same, first, ran]
      exact .accepted (Nat.not_lt.mp inside) whole (.begun found room) ran

theorem sound_started : (table.started key now).Sound table.lifetime now [] where
  deadline := rfl
  fits := nofun
  keyed := nofun
  timely := nofun
  ended := nofun
  agreed := nofun
  received _ := ⟨nofun, fun ⟨_, _, member, _⟩ => nomatch member⟩
  data := nofun

theorem mem_expire (held : (table.expire now).entries[index]?.join = some pending) :
    table.entries[index]?.join = some pending := by
  rw [expire, List.getElem?_map] at held
  cases slot : table.entries[index]? with
  | none => simp [slot] at held
  | some slot =>
    rw [slot, Option.map_some, Option.join_some, Option.filter_eq_some_iff] at held
    exact held.1

theorem position_ne_none (held : table.entries[index]?.join = some pending) :
    table.position pending.key ≠ none := by
  intro absent
  have member := List.mem_of_getElem? (Option.join_eq_some_iff.mp held)
  simpa using List.findIdx?_eq_none_iff.mp absent _ member

end Reassembly

/-- A table, and beside it the fragments that were offered under each key since the key's entry was
started and that were not refused. -/
structure History (max : Nat) where
  table : Reassembly max
  offered : Key → List Fragment

namespace History

open Reassembly (Input)

variable {max : Nat}

def new (max entries lifetime : Nat) : History max where
  table := .new max entries lifetime
  offered _ := []

/-- The offers for a fragment's entry, if it has one, and the fragment. -/
def since (history : History max) (fragment : Fragment) : List Fragment :=
  (if (history.table.position fragment.header.key).isSome then
    history.offered fragment.header.key else []) ++ [fragment]

def step (input : Input) (history : History max) : History max where
  table := history.table.step input
  offered := match input with
    | .offer header payload now =>
      match (history.table.offer header payload now).1 with
      | .error _ => history.offered
      | .ok _ =>
        Function.update history.offered header.key (history.since ⟨header, payload, now⟩)
    | .release _ | .expire _ => history.offered

def Timely (history : History max) (input : Input) : Prop :=
  history.table.Timely input

instance (history : History max) (input : Input) : Decidable (history.Timely input) :=
  inferInstanceAs (Decidable (history.table.Timely input))

/-- A key has one entry, and its entry has what was offered. -/
structure Sound (history : History max) : Prop where
  distinct : ∀ (place place' : Nat) (held held' : Pending max),
    history.table.entries[place]?.join = some held →
    history.table.entries[place']?.join = some held' → held.key = held'.key → place = place'
  held : ∀ (place : Nat) (held : Pending max), history.table.entries[place]?.join = some held →
    ∃ first rest, history.offered held.key = first :: rest ∧
      held.Sound history.table.lifetime first.time (first :: rest)

variable {history : History max} {fragment : Fragment}

theorem sound_new (max entries lifetime : Nat) : (new max entries lifetime).Sound := by
  have empty (place : Nat) (held : Pending max) :
      (new max entries lifetime).table.entries[place]?.join ≠ some held := by
    intro found
    cases List.eq_of_mem_replicate (List.mem_of_getElem? (Option.join_eq_some_iff.mp found))
  exact ⟨fun place _ held _ found => absurd found (empty place held),
    fun place held found => absurd found (empty place held)⟩

section Kept

variable (sound : history.Sound)

include sound

theorem Sound.fewer {entries : List (Option (Pending max))}
    (fewer : ∀ (place : Nat) held, entries[place]?.join = some held →
      history.table.entries[place]?.join = some held) :
    Sound { history with table := { history.table with entries } } where
  distinct _ _ _ _ found found' := sound.distinct _ _ _ _ (fewer _ _ found) (fewer _ _ found')
  held _ _ found := sound.held _ _ (fewer _ _ found)

/-- The entry of `key` moves on with what was offered under it, and no other entry has that key. -/
theorem Sound.set {pending : Pending max} (room : index < history.table.entries.length)
    (alone : ∀ (place : Nat) (held : Pending max), history.table.entries[place]?.join = some held →
      held.key = pending.key → place = index)
    (good : pending.Sound history.table.lifetime first.time (first :: rest)) :
    Sound ⟨{ history.table with entries := history.table.entries.set index pending },
      Function.update history.offered pending.key (first :: rest)⟩ := by
  have entry {place : Nat} {held : Pending max}
      (found : (history.table.entries.set index (some pending))[place]?.join = some held) :
      place = index ∧ held = pending ∨ place ≠ index ∧ held.key ≠ pending.key ∧
        history.table.entries[place]?.join = some held := by
    by_cases here : place = index
    · subst here
      rw [List.getElem?_set_self room] at found
      exact .inl ⟨rfl, (Option.some.inj found).symm⟩
    · rw [List.getElem?_set_ne (Ne.symm here)] at found
      exact .inr ⟨here, fun same => here (alone place held found same), found⟩
  constructor
  case distinct =>
    intro place place' held held' found found' same
    rcases entry found with ⟨rfl, rfl⟩ | ⟨_, other, old⟩ <;>
      rcases entry found' with ⟨rfl, rfl⟩ | ⟨_, other', old'⟩
    · rfl
    · exact absurd same.symm other'
    · exact absurd same other
    · exact sound.distinct _ _ _ _ old old' same
  case held =>
    intro place held found
    rcases entry found with ⟨rfl, rfl⟩ | ⟨_, other, old⟩
    · exact ⟨first, rest, Function.update_self .., good⟩
    · obtain ⟨first', rest', log, kept⟩ := sound.held place held old
      exact ⟨first', rest', (Function.update_of_ne other ..).trans log, kept⟩

theorem Sound.accepted {before after : Pending max} {entries : List (Option (Pending max))}
    (timely : history.Timely (.offer fragment.header fragment.payload fragment.time))
    (inside : fragment.stop ≤ max)
    (whole : fragment.header.moreFragments = true → fragment.payload.length % 8 = 0)
    (base : history.table.Base fragment index before entries)
    (ran : before.accept fragment = .ok after) :
    (∃ first rest, history.since fragment = first :: rest ∧
      after.Sound history.table.lifetime first.time (first :: rest)) ∧
    after.key = fragment.header.key ∧ index < entries.length ∧
    Sound ⟨{ history.table with entries := entries.set index after },
      Function.update history.offered fragment.header.key (history.since fragment)⟩ := by
  obtain ⟨aligned, lasts, early, alive⟩ := timely
  have fits : fragment.Fits max := ⟨aligned, inside, whole⟩
  have key := (Pending.accept_spec fits ran).key
  cases base with
  | found seen found keyed =>
    obtain ⟨first, rest, log, good⟩ := sound.held index before found
    obtain ⟨room, slot⟩ := List.getElem?_eq_some_iff.mp (Option.join_eq_some_iff.mp found)
    have member : some before ∈ history.table.entries := slot ▸ List.getElem_mem room
    have good := good.accept fits keyed.symm (alive _ member before rfl keyed) ran
    have since : history.since fragment = first :: (rest ++ [fragment]) := by
      rw [History.since, seen, Option.isSome_some, if_pos rfl, ← keyed, log, List.cons_append]
    have next := sound.set room (fun place held there same =>
      sound.distinct _ _ _ _ there found (same.trans key)) good
    rw [key.trans keyed] at next
    rw [since]
    exact ⟨⟨first, _, rfl, good⟩, key.trans keyed, room, next⟩
  | begun absent room =>
    have deadline : fragment.time < min (fragment.time + history.table.lifetime) u64Max := by omega
    have good := Reassembly.sound_started.accept fits rfl deadline ran
    have since : history.since fragment = [fragment] := by
      rw [History.since, absent, Option.isSome_none, if_neg Bool.false_ne_true, List.nil_append]
    have next := (sound.fewer fun _ _ => Reassembly.mem_expire).set room (by
      intro place held there same
      have seen := Reassembly.position_ne_none (Reassembly.mem_expire there)
      rw [same.trans key] at seen
      exact absurd absent seen) good
    rw [key] at next
    rw [since, List.set_set]
    exact ⟨⟨fragment, _, rfl, good⟩, key, by rwa [List.length_set], next⟩

theorem Sound.step {input : Input} (timely : history.Timely input) :
    (history.step input).Sound := by
  cases input with
  | release index =>
    refine sound.fewer fun place held found => ?_
    by_cases here : index = place
    · subst here
      rw [List.getElem?_set, if_pos rfl] at found
      split at found <;> cases found
    · rwa [List.getElem?_set_ne here] at found
  | expire now => exact sound.fewer fun _ _ => Reassembly.mem_expire
  | offer header payload now =>
    have offered := @Reassembly.offer_offered max history.table now header payload
    simp only [History.step, Reassembly.step]
    generalize history.table.offer header payload now = result at offered ⊢
    cases offered with
    | refused error => exact sound
    | accepted inside whole base ran => exact (sound.accepted timely inside whole base ran).2.2.2

end Kept

/-- A completed datagram is of one key, in time, each block from the first of the offered fragments
that brought it; a refusal changes nothing. -/
def Faithful (history : History max) (header : Ipv4Header) (payload : List UInt8) (now : Nat) :
    Prop :=
  let (answer, table) := history.table.offer header payload now
  (∀ index, answer = .ok (some index) → ∃ first rest bytes,
    (history.step (.offer header payload now)).offered header.key = first :: rest ∧
      table.assembled index = some bytes ∧
      (∃ last ∈ first :: rest, last.header.moreFragments = false) ∧
      (∀ last ∈ first :: rest, last.header.moreFragments = false → bytes.length = last.stop) ∧
      (∀ fragment ∈ first :: rest, fragment.header.key = header.key ∧
        fragment.time < first.time + table.lifetime) ∧
      ∀ place < bytes.length, ∃ fragment,
        (first :: rest).find? (fun fragment => fragment.covers (place / 8)) = some fragment ∧
        fragment.header.fragmentOffset ≤ place ∧ place < fragment.stop ∧
        bytes[place]? = fragment.payload[place - fragment.header.fragmentOffset]?) ∧
  ∀ error, answer = .error error → table = history.table

theorem Sound.faithful (sound : history.Sound)
    (timely : history.Timely (.offer header payload now)) :
    history.Faithful header payload now := by
  have offered := @Reassembly.offer_offered max history.table now header payload
  simp only [Faithful, History.step]
  generalize history.table.offer header payload now = result at offered ⊢
  cases offered with
  | refused error => exact ⟨nofun, fun _ _ => rfl⟩
  | @accepted index before after entries inside whole base ran =>
    refine ⟨fun place same => ?_, nofun⟩
    obtain ⟨⟨first, rest, since, good⟩, keyed, room, _⟩ :=
      sound.accepted timely inside whole base ran
    split at same
    · rename_i complete
      cases same
      obtain ⟨total, bytes, known, slice, long, each⟩ := good.complete complete
      have here : (entries.set index (some after))[index]? = some (some after) :=
        List.getElem?_set_self room
      obtain ⟨last, member, ends, _⟩ := good.ended total known
      refine ⟨first, rest, bytes, (Function.update_self ..).trans since, ?_, ⟨last, member, ends⟩,
        fun last member ends => ?_, fun fragment member => ⟨(good.keyed _ member).trans keyed, ?_⟩,
        long ▸ each⟩
      · simp only [Reassembly.assembled, here, Option.join_some, Option.bind_eq_bind,
          Option.bind_some, known, complete, if_true, slice]
      · rw [long]
        exact Option.some.inj (known.symm.trans (good.agreed last member ends))
      · have early := good.timely fragment member
        rw [good.deadline] at early
        simp only
        omega
    · cases same

/-- In every run whose fragments come in time. -/
theorem reached_faithful {entries lifetime : Nat}
    (reached : Reached step Timely (new max entries lifetime) history)
    {header : Ipv4Header} {payload : List UInt8}
    (timely : history.Timely (.offer header payload now)) :
    history.Faithful header payload now := by
  have sound := reached.invariant (motive := Sound) (sound_new max entries lifetime)
    fun _ sound timely => sound.step timely
  exact sound.faithful timely

def fragmentHeader (more : Bool) (offset : Nat) : Ipv4Header where
  source := 1
  destination := 2
  protocol := 17
  identification := 7
  moreFragments := more
  fragmentOffset := offset

def firstHalf : Input :=
  .offer (fragmentHeader true 0) [1, 2, 3, 4, 5, 6, 7, 8] 0

theorem reached_faithful_inTime :
    ((new 16 1 10).step firstHalf).Faithful (fragmentHeader false 8) [9] 9 := by
  have reached : Reached step Timely (new 16 1 10) ((new 16 1 10).step firstHalf) :=
    .next firstHalf .start (by decide)
  exact reached_faithful reached (by decide)

/-- The second half comes long after the entry's time and still completes it. -/
theorem not_reached_faithful :
    ¬ ((new 16 1 10).step firstHalf).Faithful (fragmentHeader false 8) [9] 100 := by
  intro faithful
  obtain ⟨first, rest, _, log, _, _, _, timely, _⟩ := faithful.1 0 (by decide)
  cases log
  have early := (timely ⟨fragmentHeader false 8, [9], 100⟩ (by decide)).2
  contradiction

end History

end Bhaskix.Net
