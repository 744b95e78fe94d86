import Bhaskix.Library.Ledger
import Bhaskix.Mm.RangeMap

/-!
The machine under an address space, and its page tables. The frame allocator is a stream of
answers: a request is served when the next answer is a frame nobody has, so any request may fail
and every allocator is some stream.
-/

namespace Bhaskix.Vm

open Library Mm Function

/-- Whom a frame was handed to: an anonymous page or a page table of the space with that name, or
a memory object. -/
inductive Holder
  | page (space : Nat)
  | table (space : Nat)
  | object (index : Nat)
deriving DecidableEq

abbrev Page := Fin pageSize → UInt8

def Page.zero : Page :=
  fun _ => 0

inductive DomainError
  | noSuchDomain
  | memoryEnvelopeExceeded (charged requested limit : Nat)
deriving DecidableEq

structure FrameBudget where
  charged : Nat
  cap : Nat
  occupied : Bool
deriving DecidableEq

structure EntryFlags where
  writable : Bool
  noExecute : Bool
  user : Bool
  device : Bool
deriving DecidableEq

structure Leaf where
  frame : Nat
  flags : EntryFlags
deriving DecidableEq

structure Machine where
  answers : Nat → Option Nat
  clock : Nat
  log : Ledger Holder Nat
  contents : Nat → Page
  budgets : Nat → FrameBudget
  /-- The kernel half of the tables a new space is copied from. -/
  template : Nat → Option Leaf

namespace Machine

def holder (machine : Machine) (frame : Nat) : Option Holder :=
  machine.log.holder frame

variable (machine : Machine) (domain frames : Nat)

def tick : Machine :=
  { machine with clock := machine.clock + 1 }

def allocate (machine : Machine) (holder : Holder) : Option Nat × Machine :=
  match machine.answers machine.clock with
  | none => (none, machine.tick)
  | some frame =>
    if machine.holder frame = none then
      (some frame, { machine.tick with log := .took holder frame :: machine.log })
    else (none, machine.tick)

def reserve : Bool × Machine :=
  ((machine.answers machine.clock).isSome, machine.tick)

def free (machine : Machine) (holder : Holder) (frame : Nat) : Machine :=
  { machine with log := .gave holder frame :: machine.log }

def fill (frame : Nat) (page : Page) : Machine :=
  { machine with contents := update machine.contents frame page }

def chargeFrames : Except DomainError Machine :=
  let budget := machine.budgets domain
  if !budget.occupied then .error .noSuchDomain
  else if budget.cap < budget.charged + frames then
    .error (.memoryEnvelopeExceeded budget.charged frames budget.cap)
  else
    .ok { machine with
      budgets := update machine.budgets domain
        { budget with charged := budget.charged + frames } }

def adoptFrames : Machine :=
  let budget := machine.budgets domain
  if budget.occupied then
    { machine with
      budgets := update machine.budgets domain
        { budget with charged := budget.charged + frames } }
  else machine

def releaseFrames : Machine :=
  let budget := machine.budgets domain
  { machine with
    budgets := update machine.budgets domain
      { budget with charged := budget.charged - frames } }

end Machine

/-! A walk reads bits 12 to 47 of an address, so a page is looked up by its number modulo `2 ^ 36`
and the lower half of the tables is the first `2 ^ 35` of those. -/

abbrev slotCount : Nat := 2 ^ 36
abbrev lowerSlots : Nat := 2 ^ 35

def slotOf (page : Nat) : Nat :=
  page % slotCount

theorem slotOf_lower (lower : page < lowerSlots) : slotOf page = page :=
  Nat.mod_eq_of_lt (lt_trans lower (by decide))

abbrev kernelHalf : Nat := 0xffff800000000

def entryFlags (protection : Protection) (page : Nat) : EntryFlags :=
  { writable := protection.writable, noExecute := !protection.executable,
    user := decide (page < kernelHalf), device := false }

inductive MapError
  | misaligned
  | alreadyMapped
  | outOfMemory
  | notMapped
deriving DecidableEq

/-- A table that is not the root: `index` is the number its entries' slots share above the low
`9 * level` bits. -/
structure Table where
  level : Nat
  index : Nat
  frame : Nat
deriving DecidableEq

def Table.lower (table : Table) : Bool :=
  table.index * 2 ^ (9 * table.level) < lowerSlots

/-- `name` tells a space from every other there has been; a root is a frame, and serves another
space later. -/
structure AddressSpace where
  name : Nat
  root : Nat
  regions : RangeMap
  tables : List Table
  leaves : Nat → Option Leaf
  owner : Option Nat
  charged : Nat
  scratchOnRevoke : Bool

structure State where
  space : AddressSpace
  machine : Machine

namespace State

variable (state : State) (page : Nat)

def setLeaf (slot : Nat) (leaf : Option Leaf) : State :=
  { state with
    space := { state.space with leaves := update state.space.leaves slot leaf } }

def setRegions (regions : RangeMap) : State :=
  { state with space := { state.space with regions } }

def setMachine (machine : Machine) : State :=
  { state with machine }

def allocatePage : Option Nat × State :=
  let (frame, machine) := state.machine.allocate (.page state.space.name)
  (frame, state.setMachine machine)

def freePage (frame : Nat) : State :=
  state.setMachine (state.machine.free (.page state.space.name) frame)

def fill (state : State) (frame : Nat) (page : Page) : State :=
  state.setMachine (state.machine.fill frame page)

def reserve (state : State) : Bool × State :=
  let (room, machine) := state.machine.reserve
  (room, state.setMachine machine)

def hasTable (level index : Nat) : Bool :=
  state.space.tables.any fun table => table.level = level && table.index = index

def ensureTable (level slot : Nat) : Except MapError Unit × State :=
  let index := slot / 2 ^ (9 * level)
  if state.hasTable level index then (.ok (), state)
  else
    match state.machine.allocate (.table state.space.name) with
    | (none, machine) => (.error .outOfMemory, state.setMachine machine)
    | (some frame, machine) =>
      (.ok (), {
        machine
        space := { state.space with tables := ⟨level, index, frame⟩ :: state.space.tables } })

def walk (slot : Nat) : Except MapError Unit × State :=
  match state.ensureTable 3 slot with
  | (.error error, state) => (.error error, state)
  | (.ok (), state) =>
    match state.ensureTable 2 slot with
    | (.error error, state) => (.error error, state)
    | (.ok (), state) => state.ensureTable 1 slot

def mapPage (frame : Nat) (flags : EntryFlags) : Except MapError Unit × State :=
  match state.walk (slotOf page) with
  | (.error error, state) => (.error error, state)
  | (.ok (), state) =>
    match state.space.leaves (slotOf page) with
    | some leaf =>
      -- The flags of an entry that already names the frame are left as they are.
      if leaf.frame = frame then (.ok (), state) else (.error .alreadyMapped, state)
    | none => (.ok (), state.setLeaf (slotOf page) (some ⟨frame, flags⟩))

def unmapPage : Except MapError Nat × State :=
  match state.space.leaves (slotOf page) with
  | none => (.error .notMapped, state)
  | some leaf => (.ok leaf.frame, state.setLeaf (slotOf page) none)

def protectPage (flags : EntryFlags) : State :=
  match state.space.leaves (slotOf page) with
  | none => state
  | some leaf => state.setLeaf (slotOf page) (some { leaf with flags })

def translate : Option Nat :=
  (state.space.leaves (slotOf page)).map Leaf.frame

end State

end Bhaskix.Vm
