import Bhaskix.Library.Bytes
import Bhaskix.Library.WriteBack

/-!
The device and the write-back cache in front of it. A device accepts writes until its limit, and
what it holds is what it held at first with the accepted writes on top.
-/

namespace Bhaskix.Fs

open Library Function

@[simp] abbrev blockSize : Nat := 4096

abbrev Block : Type := Page blockSize

abbrev Pages : Type := Nat → Block

/-- The errors of the device and the cache. The others are the format's. -/
inductive FsError
  | outOfRange
  | full
  | interrupted
  deriving DecidableEq, Repr

abbrev maxFrames : Nat := 64
abbrev minFrames : Nat := 2

structure Device where
  blocks : Nat
  image : Pages
  trace : List (Nat × Block)
  limit : Option Nat

namespace Device

def blank (blocks : Nat) : Device :=
  { blocks, image := fun _ => Page.zero, trace := [], limit := none }

variable (device : Device)

def bytes : Pages :=
  replay device.image device.trace

def read (block : Nat) : Except FsError Block :=
  if block < device.blocks then .ok (device.bytes block) else .error .outOfRange

def write (block : Nat) (content : Block) : Except FsError Unit × Device :=
  if device.limit = some device.trace.length then (.error .interrupted, device)
  else if device.blocks ≤ block then (.error .outOfRange, device)
  else (.ok (), { device with trace := device.trace ++ [(block, content)] })

end Device

structure Slot where
  block : Option Nat
  dirty : Bool
  used : Nat
  pinned : Bool
  frame : Block

def Slot.empty : Slot :=
  { block := none, dirty := false, used := 0, pinned := false, frame := Page.zero }

structure Cache where
  slots : Nat → Slot
  count : Nat
  clock : Nat
  store : Device

namespace Cache

def andThen {α β : Type} (result : Except FsError α × Cache)
    (next : α → Cache → Except FsError β × Cache) : Except FsError β × Cache :=
  match result with
  | (.ok value, cache) => next value cache
  | (.error error, cache) => (.error error, cache)

def new (frames : Nat) (store : Device) : Except FsError Cache :=
  let count := min frames maxFrames
  if count < minFrames then .error .outOfRange
  else .ok { slots := fun _ => .empty, count, clock := 0, store }

variable (cache : Cache) (block slot : Nat) (content : Block)

def setSlot (content : Slot) : Cache :=
  { cache with slots := update cache.slots slot content }

@[simp] theorem slots_setSlot (content : Slot) :
    (cache.setSlot slot content).slots slot = content :=
  update_self ..

theorem slots_setSlot_of_ne (content : Slot) {slot other : Nat}
    (differs : other ≠ slot) : (cache.setSlot slot content).slots other = cache.slots other :=
  update_of_ne differs ..

def resident : Option Nat :=
  (List.range cache.count).find? fun slot => (cache.slots slot).block = some block

def older (oldest : Option Nat) (slot : Nat) : Option Nat :=
  if (cache.slots slot).pinned then oldest
  else
    match oldest with
    | some best => if (cache.slots best).used ≤ (cache.slots slot).used then oldest else some slot
    | none => some slot

def victim : Option Nat :=
  match (List.range cache.count).find? fun slot => (cache.slots slot).block = none with
  | some free => some free
  | none => (List.range cache.count).foldl cache.older none

def storeWrite (cache : Cache) : Except FsError Unit × Cache :=
  let result := cache.store.write block content
  (result.1, { cache with store := result.2 })

def writeBack (cache : Cache) : Except FsError Unit × Cache :=
  if (cache.slots slot).dirty = false then (.ok (), cache)
  else
    match (cache.slots slot).block with
    | none => (.ok (), cache)
    | some block =>
      andThen (storeWrite block (cache.slots slot).frame cache) fun _ cache =>
        (.ok (), cache.setSlot slot { cache.slots slot with dirty := false })

def touch : Cache :=
  { cache with
    clock := cache.clock + 1
    slots := update cache.slots slot
      { cache.slots slot with used := cache.clock + 1 } }

def load (cache : Cache) : Except FsError Nat × Cache :=
  match cache.store.read block with
  | .error error => (.error error, cache)
  | .ok frame =>
    (.ok slot,
      { cache with
        clock := cache.clock + 1
        slots := update cache.slots slot
          { block := some block, dirty := false, used := cache.clock + 1, pinned := false,
            frame } })

/-- The source's `admit`: the frame that holds `block`, reading it in if it is not there. -/
def admitBlock (cache : Cache) : Except FsError Nat × Cache :=
  if cache.store.blocks ≤ block then (.error .outOfRange, cache)
  else
    match cache.resident block with
    | some slot => (.ok slot, cache.touch slot)
    | none =>
      match cache.victim with
      | none => (.error .full, cache)
      | some slot => andThen (cache.writeBack slot) fun _ cache => cache.load block slot

def page (cache : Cache) : Except FsError Block × Cache :=
  andThen (cache.admitBlock block) fun slot cache => (.ok (cache.slots slot).frame, cache)

def fill (cache : Cache) : Cache :=
  { cache with
    clock := cache.clock + 1
    slots := update cache.slots slot
      { block := some block, dirty := true, used := cache.clock + 1,
        pinned := (cache.slots slot).pinned, frame := content } }

def put (cache : Cache) : Except FsError Unit × Cache :=
  if cache.store.blocks ≤ block then (.error .outOfRange, cache)
  else
    match cache.resident block with
    | some slot => (.ok (), cache.fill block slot content)
    | none =>
      match cache.victim with
      | none => (.error .full, cache)
      | some slot =>
        andThen (cache.writeBack slot) fun _ cache => (.ok (), cache.fill block slot content)

/-- The frame's bytes are handed out to be changed, and `change` is what is done to them. -/
def edit (change : Block → Block) (cache : Cache) : Except FsError Block × Cache :=
  andThen (cache.admitBlock block) fun slot cache =>
    (.ok (cache.slots slot).frame,
      cache.setSlot slot
        { cache.slots slot with dirty := true, frame := change (cache.slots slot).frame })

def overwrite (source destination : Nat) (cache : Cache) : Except FsError Unit × Cache :=
  if source = destination then (.error .outOfRange, cache)
  else
    (.ok (), cache.setSlot destination
      { cache.slots destination with dirty := true, frame := (cache.slots source).frame })

def copy (source target : Nat) (cache : Cache) : Except FsError Unit × Cache :=
  if source = target then (.ok (), cache)
  else
    andThen (cache.admitBlock source) fun from_ cache =>
      andThen ((cache.touch from_).admitBlock target) fun to_ cache => cache.overwrite from_ to_

def flushSlots : List Nat → Cache → Except FsError Unit × Cache
  | [], cache => (.ok (), cache)
  | slot :: rest, cache => andThen (cache.writeBack slot) fun _ cache => flushSlots rest cache

def flush : Except FsError Unit × Cache :=
  flushSlots (List.range cache.count) cache

def handler : Handler (Access Block) (Access.Reply FsError Block) Cache
  | .page block => page block
  | .edit block change => edit block change
  | .put block content => put block content
  | .copy source target => copy source target
  | .flush => flush

def pin (cache : Cache) : Except FsError Nat × Cache :=
  andThen (cache.admitBlock block) fun slot cache =>
    (.ok slot, cache.setSlot slot { cache.slots slot with pinned := true })

def unpin (cache : Cache) : Cache :=
  if slot < maxFrames then cache.setSlot slot { cache.slots slot with pinned := false } else cache

def pinned (cache : Cache) (slot : Nat) : Bool :=
  slot < maxFrames && (cache.slots slot).pinned

def blockIn : Option Nat :=
  if slot < maxFrames then (cache.slots slot).block else none

end Cache

end Bhaskix.Fs
