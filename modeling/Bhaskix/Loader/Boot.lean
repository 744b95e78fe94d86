import Bhaskix.Loader.Statement
import Bhaskix.Library.Run

/-!
One boot of the native loader, as far as it decides what to start: the record is read and a trial's
boot is spent, the rollback counter is read, up to three sets are read and checked, the counter
moves and is locked, and a set is handed over or the boot is refused.
-/

namespace Bhaskix.Loader

open Library Sig

abbrev nvIndex : Nat := 0x01844858
abbrev tpmAlgSha256 : Nat := 0x000B
abbrev nvAttributes : Nat := 0x02044024
abbrev nvDataSize : Nat := 8
abbrev maxVersion : Nat := 64

/-- An index's public area. `attributes` are those the TPM does not set as the index is used. -/
structure Public where
  index : Nat
  nameAlg : Nat
  attributes : Nat
  policyLen : Nat
  dataSize : Nat
  written : Bool
  locked : Bool
  deriving DecidableEq, Repr

def Public.isOurs (public' : Public) : Bool :=
  public'.index == nvIndex && public'.nameAlg == tpmAlgSha256 && public'.policyLen == 0 &&
    public'.dataSize == nvDataSize && public'.attributes == nvAttributes

def Public.defined : Public := ⟨nvIndex, tpmAlgSha256, nvAttributes, 0, nvDataSize, false, false⟩

/-- What the TPM keeps at the counter's handle: nothing, or a public area and the bits set. -/
structure Tpm where
  index : Option (Public × Nat)
  deriving DecidableEq, Repr

def floor (bits : Nat) : Nat := bits.size

def bitFor (version : Nat) : Option Nat :=
  if version = 0 ∨ maxVersion < version then none else some (1 <<< (version - 1))

structure Booted where
  version : Nat
  verified : Bool
  markedGood : Bool
  deriving DecidableEq, Repr

def advance (floor : Nat) (booted : Booted) : Option Nat :=
  if !booted.verified || !booted.markedGood || decide (booted.version ≤ floor) then none
  else bitFor booted.version

inductive Counter
  | here (bits : Nat)
  | absent
  deriving DecidableEq, Repr

def Counter.floor : Counter → Nat
  | here bits => Loader.floor bits
  | absent => 0

namespace Tpm

def held (index : Public × Nat) : Nat := if index.1.written then index.2 else 0

/-- Creates the counter on a boot that found a slot disk. `defines`: the TPM creates it when asked.
-/
def openCounter (slotDisk defines : Bool) (tpm : Tpm) : Counter × Tpm :=
  match tpm.index with
  | some index => if index.1.isOurs then (.here (held index), tpm) else (.absent, tpm)
  | none =>
    if slotDisk && defines then (.here 0, ⟨some (.defined, 0)⟩) else (.absent, tpm)

def setBits (bits : Nat) (tpm : Tpm) : Tpm :=
  match tpm.index with
  | some (public', old) =>
    if public'.locked then tpm
    else ⟨some ({ public' with written := true }, held (public', old) ||| bits)⟩
  | none => tpm

def writeLock (tpm : Tpm) : Tpm :=
  ⟨tpm.index.map fun index => ({ index.1 with locked := true }, index.2)⟩

def restart (tpm : Tpm) : Tpm :=
  ⟨tpm.index.map fun index => ({ index.1 with locked := false }, index.2)⟩

def advanceAndLock (counter : Counter) (booted : Booted) (advances : Bool) (tpm : Tpm) : Tpm :=
  match counter with
  | .absent => tpm
  | .here bits =>
    let moved := match advance (Loader.floor bits) booted with
      | some bit => if advances then tpm.setBits bit else tpm
      | none => tpm
    moved.writeLock

end Tpm

/-- A set as it lies in the loader's buffers. There is no signature when it would not read. -/
structure SetRead where
  kernel : Bytes
  initrd : Bytes
  conf : Bytes
  confUnreadable : Bool
  sig : Option Bytes
  deriving DecidableEq, Repr

inductive SecureBoot
  | on
  | off
  | absent
  | unreadable
  deriving DecidableEq, Repr

section

variable (sha : Sha) (keys : List Bytes)

def SetRead.digests (set : SetRead) : Digests where
  kernel := digest sha set.kernel
  initrd := digest sha set.initrd
  bootConf := digest sha set.conf

def judge (floor : Nat) (set : SetRead) : Option Nat :=
  match set.sig with
  | none => none
  | some sig =>
    if set.confUnreadable then none
    else match check sha sig keys (set.digests sha) floor with
    | .ok verified => some verified.version
    | .error _ => none

/-- The set the attempts end with, its version if it verified, and the slot it is from. -/
structure Chosen where
  set : SetRead
  version : Option Nat
  slot : Option Slot
  deriving DecidableEq, Repr

def Plan.attempt (plan : Plan) : Nat → Slot
  | 1 => plan.next
  | _ => plan.first

/-- The attempts from one on. `none` is a boot refused because no set could be read. -/
def attempts (floor : Nat) (secureBoot : SecureBoot) (read : Nat → Slot → Option SetRead)
    (plan : Plan) (attempt : Nat) : Nat → Option Chosen
  | 0 => none
  | left + 1 =>
    let slot := plan.attempt attempt
    match read attempt slot with
    | none =>
      if attempt = 0 then attempts floor secureBoot read plan 1 left else none
    | some set =>
      let version := judge sha keys floor set
      if version.isSome ∨ attempt = 2 then some ⟨set, version, some slot⟩
      else if attempt = 0 then attempts floor secureBoot read plan 1 left
      else if secureBoot = .on then some ⟨set, version, some slot⟩
      else attempts floor secureBoot read plan 2 left

/-- Where the power fails: before the record is written, before the counter moves, or before the
set is started. -/
inductive Cut
  | planning
  | attempts
  | handing
  deriving DecidableEq, Repr

/-- A slot disk, on which the record is written or not, or the ESP, from which a set that will not
read refuses the boot. -/
inductive Source
  | slots (read : Nat → Slot → Option SetRead) (writes : Bool)
  | esp (set : Option SetRead)

structure Boot where
  source : Source
  secureBoot : SecureBoot
  cut : Option Cut
  defines : Bool
  advances : Bool

/-- What a machine keeps from one boot to the next: the record's block, and the TPM. -/
structure Machine where
  record : Bytes
  tpm : Tpm

variable (boot : Boot) (block : Bytes)

def Record.read : Option Record := (Record.parse block).toOption

/-- The plan a boot acts on: a trial whose boot would not be recorded is not taken. -/
def planSlots (record : Option Record) (writes : Bool) : Plan :=
  let plan := plan record
  if plan.write.isNone || writes then plan
  else
    let active := record.elim Slot.a Record.active
    ⟨active, active.other, none, .active⟩

def recordAfter (writes : Bool) : Bytes :=
  match (plan (Record.read block)).write with
  | some record => if writes then record.toBlock else block
  | none => block

/-- What a boot did, and the record's block as it lay on the disk when the first set was read. -/
structure Report where
  plan : Option Plan
  onDisk : Bytes
  floor : Nat
  chosen : Option Chosen
  handed : Option Chosen

def handOver (secureBoot : SecureBoot) (chosen : Option Chosen) : Option Chosen :=
  chosen.filter fun chosen => secureBoot ≠ .on || chosen.version.isSome

def markedGood (record : Option Record) (chosen : Chosen) : Bool :=
  match chosen.slot, record with
  | some slot, some record => record.active == slot
  | _, _ => false

/-- The counter after a boot that came to a set; a boot no set could be read in stops before. -/
def settle (record : Option Record) (chosen : Option Chosen) (counter : Counter) (advances : Bool)
    (tpm : Tpm) : Tpm :=
  match chosen with
  | none => tpm
  | some chosen => tpm.advanceAndLock counter
      ⟨chosen.version.getD 0, chosen.version.isSome, markedGood record chosen⟩ advances

def choose (record : Option Record) (floor : Nat) : Option Chosen :=
  match boot.source with
  | .slots read writes =>
    attempts sha keys floor boot.secureBoot read (planSlots record writes) 0 3
  | .esp set => set.map fun set => ⟨set, judge sha keys floor set, none⟩

def Boot.plan (record : Option Record) : Option Plan :=
  match boot.source with
  | .slots _ writes => some (planSlots record writes)
  | .esp _ => none

def Boot.record : Option Record :=
  match boot.source with
  | .slots _ _ => Record.read block
  | .esp _ => none

def Boot.written : Bytes :=
  match boot.source with
  | .slots _ writes => recordAfter block writes
  | .esp _ => block

def Boot.hasSlots : Bool :=
  match boot.source with
  | .slots _ _ => true
  | .esp _ => false

def Boot.run (machine : Machine) : Report × Machine :=
  let tpm := machine.tpm.restart
  if boot.cut = some .planning then
    (⟨none, machine.record, 0, none, none⟩, ⟨machine.record, tpm⟩)
  else
    let record := boot.record machine.record
    let onDisk := boot.written machine.record
    let (counter, opened) := tpm.openCounter boot.hasSlots boot.defines
    if boot.cut = some .attempts then
      (⟨boot.plan record, onDisk, counter.floor, none, none⟩, ⟨onDisk, opened⟩)
    else
      let chosen := choose sha keys boot record counter.floor
      let settled := settle record chosen counter boot.advances opened
      (⟨boot.plan record, onDisk, counter.floor, chosen,
        if boot.cut = some .handing then none else handOver boot.secureBoot chosen⟩,
        ⟨onDisk, settled⟩)

end

end Bhaskix.Loader
