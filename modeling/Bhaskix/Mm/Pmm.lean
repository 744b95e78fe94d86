import Bhaskix.Library.Extent
import Bhaskix.Library.Linked

/-!
The physical memory manager: a buddy allocator whose free lists are threaded through the frame
database. Sums that overflow 32 bits stop the machine, and `none` says so.
-/

namespace Bhaskix.Mm

open Library Function

abbrev maxOrder : Nat := 10
abbrev orderCount : Nat := maxOrder + 1

abbrev dma32LimitPfn : Nat := 2 ^ 20

abbrev noOwner : Nat := 2 ^ 32 - 1

inductive FrameState
  | reserved
  | free
  | allocated
deriving DecidableEq

/-- An entry of the frame database. The source's `NONE`, the frame number of 16 TiB, is `none`. -/
structure Frame where
  state : FrameState
  order : Nat
  isHead : Bool
  refcount : Nat
  owner : Nat
  next : Option Nat
  prev : Option Nat

def Frame.reserved : Frame :=
  { state := .reserved, order := 0, isHead := false, refcount := 0, owner := noOwner, next := none,
    prev := none }

inductive Zone
  | dma32
  | normal
deriving DecidableEq

structure ZoneState where
  freeLists : Nat → Option Nat
  freeFrames : Nat
  managedFrames : Nat

def ZoneState.new : ZoneState :=
  { freeLists := fun _ => none, freeFrames := 0, managedFrames := 0 }

inductive PmmError
  | outOfMemory
  | orderTooLarge (order : Nat)
  | outOfRange (pfn : Nat)
  | notAllocated (pfn : Nat)
  | misaligned (pfn order : Nat)
deriving DecidableEq

structure Pmm where
  frames : Nat → Frame
  count : Nat
  zones : Zone → ZoneState

def zoneOf (pfn : Nat) : Zone :=
  if pfn < dma32LimitPfn then .dma32 else .normal

namespace Pmm

def new (count : Nat) : Pmm :=
  { frames := fun _ => .reserved, count, zones := fun _ => .new }

variable (pmm : Pmm) (pfn order : Nat) (zone : Zone)

def setFrame (change : Frame → Frame) : Pmm :=
  { pmm with frames := update pmm.frames pfn (change (pmm.frames pfn)) }

def setZone (change : ZoneState → ZoneState) : Pmm :=
  { pmm with zones := update pmm.zones zone (change (pmm.zones zone)) }

def setNext : Option Nat → Option Nat → Pmm
  | none, _ => pmm
  | some pfn, link => pmm.setFrame pfn fun frame => { frame with next := link }

def setPrev : Option Nat → Option Nat → Pmm
  | none, _ => pmm
  | some pfn, link => pmm.setFrame pfn fun frame => { frame with prev := link }

def pushBlock : Pmm :=
  let zone := zoneOf pfn
  let head := (pmm.zones zone).freeLists order
  let first := pmm.setFrame pfn fun frame =>
    { frame with state := .free, order, isHead := true, next := head, prev := none }
  (first.setPrev head (some pfn)).setZone zone fun lists =>
    { lists with
      freeLists := update lists.freeLists order (some pfn)
      freeFrames := lists.freeFrames + 2 ^ order }

/-- Whatever comes before a block skips it: the list itself, or the block before. -/
def skip : Pmm :=
  let next := (pmm.frames pfn).next
  match (pmm.frames pfn).prev with
  | none => pmm.setZone (zoneOf pfn) fun lists =>
    { lists with freeLists := update lists.freeLists order next }
  | some before => pmm.setNext (some before) next

def removeBlock : Pmm :=
  let next := (pmm.frames pfn).next
  let prev := (pmm.frames pfn).prev
  let alone := ((pmm.skip pfn order).setPrev next prev).setFrame pfn fun frame =>
    { frame with next := none, prev := none, isHead := false }
  alone.setZone (zoneOf pfn) fun lists => { lists with freeFrames := lists.freeFrames - 2 ^ order }

def markFree : Pmm :=
  (pmm.setFrame pfn fun frame => { frame with state := .free, refcount := 0 }).setZone (zoneOf pfn)
    fun lists => { lists with managedFrames := lists.managedFrames + 1 }

def fitting (pfn stop : Nat) : Nat → Option Nat
  | 0 => some 0
  | order + 1 =>
    if pfn % 2 ^ (order + 1) ≠ 0 then fitting pfn stop order
    else if 2 ^ 32 ≤ pfn + 2 ^ (order + 1) then none
    else if pfn + 2 ^ (order + 1) ≤ stop then some (order + 1)
    else fitting pfn stop order

def uncrossed (pfn : Nat) : Nat → Nat
  | 0 => 0
  | order + 1 =>
    if pfn < dma32LimitPfn ∧ dma32LimitPfn < pfn + 2 ^ (order + 1) then uncrossed pfn order
    else order + 1

/-- Releases `[pfn, stop)` block by block; every turn advances, so `stop - pfn` turns are enough. -/
def release (stop : Nat) : Nat → Nat → Pmm → Option Pmm
  | 0, _, pmm => some pmm
  | turns + 1, pfn, pmm =>
    if pfn < stop then
      match fitting pfn stop maxOrder with
      | none => none
      | some order =>
        let order := uncrossed pfn order
        release stop turns (pfn + 2 ^ order) (pmm.pushBlock pfn order)
    else some pmm

def lastPfn : Nat :=
  pmm.count % 2 ^ 32

def addFreeRange (pmm : Pmm) (start stop : Nat) : Option Pmm :=
  let stop := min stop pmm.lastPfn
  if stop ≤ start then some pmm
  else
    release stop (stop - start) start
      ((List.range' start (stop - start)).foldl markFree pmm)

/-- Returns the unused upper halves of a block of order `current` to their lists. -/
def splitDown (pfn order : Nat) : Nat → Pmm → Pmm
  | 0, pmm => pmm
  | current + 1, pmm =>
    if order < current + 1 then
      splitDown pfn order current (pmm.pushBlock (pfn + 2 ^ current) current)
    else pmm

def allocateFrom : Option Nat × Pmm :=
  let lists := (pmm.zones zone).freeLists
  match (List.range' order (orderCount - order)).find? fun found => (lists found).isSome with
  | none => (none, pmm)
  | some found =>
    match lists found with
    | none => (none, pmm)
    | some pfn =>
      let rest := splitDown pfn order found (pmm.removeBlock pfn found)
      (some pfn, rest.setFrame pfn fun frame =>
        { frame with state := .allocated, order, isHead := false, refcount := 1 })

def allocate (pmm : Pmm) (order : Nat) (zone : Zone) : Except PmmError Nat × Pmm :=
  if maxOrder < order then (.error (.orderTooLarge order), pmm)
  else
    match pmm.allocateFrom order zone with
    | (some pfn, after) => (.ok pfn, after)
    | (none, after) =>
      if zone = .normal then
        match after.allocateFrom order .dma32 with
        | (some pfn, last) => (.ok pfn, last)
        | (none, last) => (.error .outOfMemory, last)
      else (.error .outOfMemory, after)

def mergeable (buddy order : Nat) : Prop :=
  (pmm.frames buddy).state = .free ∧ (pmm.frames buddy).isHead = true ∧
    (pmm.frames buddy).order = order

instance (pmm : Pmm) (buddy order : Nat) : Decidable (pmm.mergeable buddy order) :=
  inferInstanceAs (Decidable (_ ∧ _ ∧ _))

def coalesce : Nat → Nat → Nat → Pmm → Pmm
  | 0, pfn, order, pmm => pmm.pushBlock pfn order
  | turns + 1, pfn, order, pmm =>
    let buddy := pfn ^^^ 2 ^ order
    if pmm.count ≤ buddy then pmm.pushBlock pfn order
    else if ¬ pmm.mergeable buddy order then pmm.pushBlock pfn order
    else
      let merged := min pfn buddy
      if merged < dma32LimitPfn ∧ dma32LimitPfn < merged + 2 * 2 ^ order then
        pmm.pushBlock pfn order
      else coalesce turns merged (order + 1) (pmm.removeBlock buddy order)

def free (pmm : Pmm) (pfn order : Nat) : Except PmmError Unit × Pmm :=
  if maxOrder < order then (.error (.orderTooLarge order), pmm)
  else if pmm.count < pfn + 2 ^ order then (.error (.outOfRange pfn), pmm)
  else if pfn % 2 ^ order ≠ 0 then (.error (.misaligned pfn order), pmm)
  else if (pmm.frames pfn).state ≠ .allocated then (.error (.notAllocated pfn), pmm)
  else
    (.ok (), coalesce (maxOrder - order) pfn order
      (pmm.setFrame pfn fun frame => { frame with refcount := 0, owner := noOwner }))

/-- Walks one list; `room` is how many more frames it may have before it must be a cycle. -/
def walkList (pmm : Pmm) (order : Nat) : Nat → Option Nat → Option Nat → Nat → Except String Nat
  | _, none, _, counted => .ok counted
  | room, some pfn, previous, counted =>
    let frame := pmm.frames pfn
    if frame.state ≠ .free then .error "a frame on a free list is not free"
    else if frame.isHead = false then .error "a frame on a free list is not a block head"
    else if frame.order ≠ order then .error "a block is on the free list of the wrong order"
    else if pfn % 2 ^ order ≠ 0 then .error "a free block is not naturally aligned"
    else if frame.prev ≠ previous then .error "free list back-link is inconsistent"
    else
      match room with
      | 0 => .error "a free list contains a cycle"
      | room + 1 => walkList pmm order room frame.next (some pfn) (counted + 2 ^ order)

def checkZone : Except String Unit := do
  let counted ← (List.range orderCount).foldlM (fun counted order =>
    pmm.walkList order pmm.count ((pmm.zones zone).freeLists order) none counted) 0
  if counted ≠ (pmm.zones zone).freeFrames then
    .error "accounted free frames do not match the free lists"
  else .ok ()

def checkInvariants : Except String Unit := do
  pmm.checkZone .dma32
  pmm.checkZone .normal

end Pmm

end Bhaskix.Mm
