import Bhaskix.Library.Bytes
import Bhaskix.Library.Checked
import Bhaskix.Library.Merkle

/-!
The slot disk: a GPT disk with a record of which slot boots and two slots, each a boot set behind a
header. Every structure is parsed from bytes the loader did not write.
-/

namespace Bhaskix.Loader

open Library

abbrev Bytes := List UInt8

abbrev blockBytes : Nat := 512

def word (bytes : Bytes) (start width : Nat) : Nat := leValue (slice bytes start (start + width))

def crcBit (crc : UInt32) : UInt32 := (crc >>> 1) ^^^ (0xEDB88320 &&& (0 - (crc &&& 1)))

def crcByte (crc : UInt32) (byte : UInt8) : UInt32 := Nat.iterate crcBit 8 (crc ^^^ byte.toUInt32)

def crc32 (bytes : Bytes) : Nat := (~~~(bytes.foldl crcByte 0xFFFFFFFF)).toNat

inductive Refusal
  | short
  | notGpt
  | shape
  | headerCrc
  | entriesCrc
  | missing
  | range
  | record
  | setHeader
  deriving DecidableEq, Repr

structure Header where
  firstUsable : Nat
  lastUsable : Nat
  entriesAt : Nat
  entries : Nat
  entrySize : Nat
  entriesCrc : Nat
  deriving DecidableEq, Repr

abbrev maxEntries : Nat := 128

def gptSignature : Bytes := [0x45, 0x46, 0x49, 0x20, 0x50, 0x41, 0x52, 0x54]

def withoutCrc (block : Bytes) (size : Nat) : Bytes :=
  slice block 0 16 ++ List.replicate 4 0 ++ slice block 20 size

def Header.parse (block : Bytes) : Except Refusal Header :=
  if block.length < blockBytes then .error .short
  else if slice block 0 8 ≠ gptSignature then .error .notGpt
  else
    let size := word block 12 4
    if ¬(92 ≤ size ∧ size ≤ blockBytes) then .error .shape
    else if crc32 (withoutCrc block size) ≠ word block 16 4 then .error .headerCrc
    else
      let header : Header := {
        firstUsable := word block 40 8
        lastUsable := word block 48 8
        entriesAt := word block 72 8
        entries := word block 80 4
        entrySize := word block 84 4
        entriesCrc := word block 88 4 }
      if word block 24 8 ≠ 1 ∨ header.entries = 0 ∨ maxEntries < header.entries ∨
          header.entrySize < 128 ∨ 512 < header.entrySize ∨ header.entrySize % 8 ≠ 0 ∨
          header.lastUsable < header.firstUsable then .error .shape
      else .ok header

def Header.entriesBytes (header : Header) : Checked Nat :=
  Checked.mul header.entries header.entrySize

structure Partition where
  first : Nat
  last : Nat
  deriving DecidableEq, Repr

namespace Partition

def bytes (partition : Partition) : Checked Nat := do
  let span ← Checked.sub partition.last partition.first
  let blocks ← Checked.add span 1
  Checked.mul blocks blockBytes

def Holds (partition : Partition) (block : Nat) : Prop :=
  partition.first ≤ block ∧ block ≤ partition.last

instance (partition : Partition) (block : Nat) : Decidable (partition.Holds block) :=
  inferInstanceAs (Decidable (_ ∧ _))

end Partition

inductive Part
  | record
  | slotA
  | slotB
  deriving DecidableEq, Repr

def Part.guid : Part → Bytes
  | record => [0xe0, 0xac, 0x9c, 0x96, 0x9f, 0x87, 0xd7, 0x45,
      0x83, 0x93, 0x08, 0xb4, 0xce, 0x7c, 0xbf, 0x36]
  | slotA => [0x16, 0x69, 0x2f, 0xce, 0xfe, 0xf0, 0xc5, 0x4d,
      0x96, 0x83, 0xce, 0x83, 0x9d, 0x80, 0x0a, 0x72]
  | slotB => [0x91, 0x64, 0x9e, 0x66, 0x24, 0xb8, 0x83, 0x49,
      0xaf, 0x23, 0xa7, 0xc5, 0xd7, 0xf6, 0x94, 0x82]

def Part.ofGuid (kind : Bytes) : Option Part :=
  if kind = Part.record.guid then some .record
  else if kind = Part.slotA.guid then some .slotA
  else if kind = Part.slotB.guid then some .slotB
  else none

inductive Slot
  | a
  | b
  deriving DecidableEq, Repr

def Slot.other : Slot → Slot
  | a => b
  | b => a

structure Layout where
  record : Partition
  a : Partition
  b : Partition
  deriving DecidableEq, Repr

def Layout.slot (layout : Layout) : Slot → Partition
  | .a => layout.a
  | .b => layout.b

namespace Layout

abbrev Found := Part → Option Partition

def Found.set (found : Found) (part : Part) (partition : Partition) : Found :=
  fun other => if other = part then some partition else found other

def partitionOf (entry : Bytes) : Partition := ⟨word entry 32 8, word entry 40 8⟩

def scan (header : Header) : List Bytes → Found → Except Refusal Found
  | [], found => .ok found
  | entry :: entries, found =>
    match Part.ofGuid (slice entry 0 16) with
    | none => scan header entries found
    | some part =>
      let partition := partitionOf entry
      if (found part).isSome then .error .missing
      else if partition.last < partition.first ∨ partition.first < header.firstUsable ∨
          header.lastUsable < partition.last then .error .range
      else scan header entries (found.set part partition)

def entriesOf (header : Header) (bytes : Bytes) : List Bytes :=
  (List.range header.entries).map fun index =>
    slice bytes (index * header.entrySize) ((index + 1) * header.entrySize)

def find (header : Header) (bytes : Bytes) : Except Refusal Layout := do
  if crc32 bytes ≠ header.entriesCrc then .error .entriesCrc
  else
    let found ← scan header (entriesOf header bytes) fun _ => none
    match found .record, found .slotA, found .slotB with
    | some record, some a, some b => return ⟨record, a, b⟩
    | _, _, _ => .error .missing

end Layout

def Slot.byte : Slot → UInt8
  | a => 0x41
  | b => 0x42

def Slot.fromByte (byte : UInt8) : Option Slot :=
  if byte = 0x41 then some .a else if byte = 0x42 then some .b else none

def recordMagic : Bytes := [0x42, 0x48, 0x58, 0x53, 0x4c, 0x4f, 0x54, 0x31]

structure Record where
  active : Slot
  trial : Option (Slot × UInt8)
  writes : UInt64
  deriving DecidableEq, Repr

namespace Record

def body (record : Record) : Bytes :=
  recordMagic ++ [record.active.byte, (record.trial.elim 0 fun trial => trial.1.byte),
    (record.trial.elim 0 fun trial => trial.2)] ++ List.replicate 5 0 ++
    leBytes 8 record.writes.toNat

def toBlock (record : Record) : Bytes :=
  record.body ++ leBytes 4 (crc32 record.body) ++ List.replicate (blockBytes - 28) 0

def parse (block : Bytes) : Except Refusal Record := do
  if block.length < 28 then .error .short
  else if slice block 0 8 ≠ recordMagic ∨ crc32 (slice block 0 24) ≠ word block 24 4 then
    .error .record
  else
    let active ← (Slot.fromByte (block.getD 8 0)).elim (.error .record) Except.ok
    let trial ← if block.getD 9 0 = 0 then .ok none
      else (Slot.fromByte (block.getD 9 0)).elim (.error .record) fun slot =>
        .ok (some (slot, block.getD 10 0))
    return ⟨active, trial, UInt64.ofNat (word block 16 8)⟩

end Record

inductive Why
  | noRecord
  | active
  | trial (left : UInt8)
  | trialOver
  deriving DecidableEq, Repr

structure Plan where
  first : Slot
  next : Slot
  write : Option Record
  why : Why
  deriving DecidableEq, Repr

def plan : Option Record → Plan
  | none => ⟨.a, .b, none, .noRecord⟩
  | some record =>
    match record.trial with
    | some (slot, tries) =>
      if tries > 0 then
        ⟨slot, record.active,
          some { record with trial := some (slot, tries - 1), writes := record.writes + 1 },
          .trial (tries - 1)⟩
      else
        ⟨record.active, record.active.other,
          some { record with trial := none, writes := record.writes + 1 }, .trialOver⟩
    | none => ⟨record.active, record.active.other, none, .active⟩

inductive File
  | kernel
  | initrd
  | conf
  | sig
  deriving DecidableEq, Repr

def File.index : File → Nat
  | kernel => 0
  | initrd => 1
  | conf => 2
  | sig => 3

def setMagic : Bytes := [0x42, 0x48, 0x58, 0x53, 0x45, 0x54, 0x30, 0x31]

structure SetHeader where
  files : File → Nat × Nat

namespace SetHeader

def all : List File := [.kernel, .initrd, .conf, .sig]

variable (header : SetHeader)

def words : List Nat :=
  all.flatMap fun file => [(header.files file).1, (header.files file).2]

def toBlock : Bytes :=
  setMagic ++ (header.words.flatMap (leBytes 8) ++ List.replicate (blockBytes - 72) 0)

def Fits (slotBytes : Nat) (file : Nat × Nat) : Prop :=
  file.1 + file.2 < 2 ^ 64 ∧ blockBytes ≤ file.1 ∧ file.1 % blockBytes = 0 ∧
    file.1 + file.2 ≤ slotBytes

instance (slotBytes : Nat) (file : Nat × Nat) : Decidable (Fits slotBytes file) :=
  inferInstanceAs (Decidable (_ ∧ _ ∧ _ ∧ _))

def fileAt (block : Bytes) (file : File) : Nat × Nat :=
  (word block (8 + file.index * 16) 8, word block (16 + file.index * 16) 8)

def parse (block : Bytes) (slotBytes : Nat) : Except Refusal SetHeader :=
  if block.length < 72 then .error .short
  else if slice block 0 8 ≠ setMagic then .error .setHeader
  else if ∀ file ∈ all, Fits slotBytes (fileAt block file) then .ok ⟨fileAt block⟩
  else .error .setHeader

def locate (file : File) : Nat × Nat :=
  ((header.files file).1 / blockBytes, (header.files file).2)

end SetHeader

abbrev scratchBytes : Nat := 5 * 4096

/-- A disk as the firmware answers for it: its last block, and what a read of whole blocks gives. -/
structure Disk where
  lastBlock : Nat
  read : (lba length : Nat) → Option { bytes : Bytes // bytes.length = length }

def Disk.table (disk : Disk) : Checked (Option (Header × Bytes)) :=
  match disk.read 1 blockBytes with
  | none => .ok none
  | some block =>
    match Header.parse block.val with
    | .error _ => .ok none
    | .ok header => do
        let bytes ← header.entriesBytes
        let whole ← Checked.mul ((bytes + (blockBytes - 1)) / blockBytes) blockBytes
        if scratchBytes < bytes then return none
        else return (disk.read header.entriesAt whole).map fun table =>
          (header, table.val.take bytes)

def Disk.accept (disk : Disk) : Checked (Option Layout) := do
  match ← disk.table with
  | none => return none
  | some (header, bytes) =>
    match Layout.find header bytes with
    | .error _ => return none
    | .ok layout => return if layout.b.last ≤ disk.lastBlock then some layout else none

def stride (direct : Bool) : Nat := if direct then 2 ^ 20 else scratchBytes

theorem stride_pos (direct : Bool) : 0 < stride direct := by cases direct <;> decide

/-- The transfers that read `whole` bytes from a block of a slot on, `done` of them read. -/
def transfers (slot : Partition) (first whole : Nat) (direct : Bool) (done : Nat) :
    Checked (List (Nat × Nat)) :=
  if _ : done < whole then do
    let take := min (whole - done) (stride direct)
    let start ← Checked.add slot.first first
    let lba ← Checked.add start (done / blockBytes)
    let rest ← transfers slot first whole direct (done + take)
    return (lba, take) :: rest
  else .ok []
termination_by whole - done
decreasing_by
  have positive := stride_pos direct
  omega

def bufferBytes : File → Nat
  | .kernel | .initrd => 4096 * 4096
  | .conf => 4096
  | .sig => 8192

/-- None for a file longer than its buffer. `aligned` says whether the buffer starts on a page. -/
def SetHeader.reads (header : SetHeader) (slot : Partition) (file : File) (aligned : Bool) :
    Checked (List (Nat × Nat)) :=
  let (first, length) := header.locate file
  if bufferBytes file < length then .ok []
  else
    let whole := (length + (blockBytes - 1)) / blockBytes * blockBytes
    transfers slot first whole (aligned && decide (whole ≤ bufferBytes file)) 0

end Bhaskix.Loader
