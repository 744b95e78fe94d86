import Bhaskix.Vm.Paging

/-!
The operations of an address space. Each keeps the order of the source: the region map first, then
the envelope, then the tables, and what it undoes when a later part is refused.
-/

namespace Bhaskix.Vm

open Mm

inductive VmError
  | outOfMemory
  | region (error : RangeMapError)
  | paging (error : MapError)
  | refused
  | memoryEnvelopeExceeded
deriving DecidableEq

def AddressSpace.new (machine : Machine) (name : Nat) : Except VmError AddressSpace × Machine :=
  match machine.allocate (.table name) with
  | (none, machine) => (.error (.paging .outOfMemory), machine)
  | (some root, machine) =>
    (.ok {
      name
      root
      regions := .new
      tables := []
      leaves := fun slot => if slot < lowerSlots then none else machine.template slot
      owner := none
      charged := 0
      scratchOnRevoke := false }, machine)

def AddressSpace.keepRevokedAsScratch (space : AddressSpace) : AddressSpace :=
  { space with scratchOnRevoke := true }

namespace State

variable (state : State) (start : Nat) (range : VirtRange) (protection : Protection) (pages : Nat)

def own (owner : Nat) : State :=
  if state.space.owner = some owner then state
  else
    let machine :=
      match state.space.owner with
      | some previous => state.machine.releaseFrames previous state.space.charged
      | none => state.machine
    { space := { state.space with owner := some owner }
      machine := machine.adoptFrames owner state.space.charged }

def charge (frames : Nat) : Except DomainError State :=
  match state.space.owner with
  | none => .ok { state with space := { state.space with charged := state.space.charged + frames } }
  | some owner =>
    match state.machine.chargeFrames owner frames with
    | .error error => .error error
    | .ok machine =>
      .ok {
        machine
        space := { state.space with charged := state.space.charged + frames } }

def release (frames : Nat) : State :=
  { space := { state.space with charged := state.space.charged - frames }
    machine :=
      match state.space.owner with
      | none => state.machine
      | some owner => state.machine.releaseFrames owner frames }

def insertRegion (region : VmRegion) : Except VmError Unit × State :=
  let (room, state) := state.reserve
  match state.space.regions.insert region room with
  | .error error => (.error (.region error), state)
  | .ok regions => (.ok (), state.setRegions regions)

def removeRegion : State :=
  match state.space.regions.remove start with
  | .error _ => state
  | .ok (_, regions) => state.setRegions regions

def unmapEach : List Nat → State → Nat × State
  | [], state => (0, state)
  | page :: rest, state =>
    match state.unmapPage page with
    | (.error _, state) => unmapEach rest state
    | (.ok frame, state) =>
      let (freed, state) := unmapEach rest (state.freePage frame)
      (freed + 1, state)

def unmapPages (count : Nat) : Nat × State :=
  let (freed, state) := unmapEach (range.pagesIter.take count) state
  (freed, state.release freed)

/-- The loop the three mapping operations share: it stops at the first page that cannot be mapped
and says how many were. -/
def mapEach (map : Nat → Nat → State → Except VmError Unit × State) :
    Nat → List Nat → State → Except (VmError × Nat) Unit × State
  | _, [], state => (.ok (), state)
  | index, page :: rest, state =>
    match map index page state with
    | (.error error, state) => (.error (error, index), state)
    | (.ok (), state) => mapEach map (index + 1) rest state

def mapFresh (_index page : Nat) (state : State) : Except VmError Unit × State :=
  match state.allocatePage with
  | (none, state) => (.error .outOfMemory, state)
  | (some frame, state) =>
    match (state.fill frame Page.zero).mapPage page frame (entryFlags protection page) with
    | (.error error, state) => (.error (.paging error), state.freePage frame)
    | (.ok (), state) => (.ok (), state)

def mapAnonymous : Except VmError Unit × State :=
  match state.insertRegion (.new range protection .anonymous) with
  | (.error error, state) => (.error error, state)
  | (.ok (), state) =>
    if !protection.present then (.ok (), state)
    else
      match state.charge range.pages with
      | .error _ => (.error .memoryEnvelopeExceeded, state.removeRegion range.start)
      | .ok state =>
        match mapEach (mapFresh protection) 0 range.pagesIter state with
        | (.ok (), state) => (.ok (), state)
        | (.error (error, mapped), state) =>
          let (freed, state) := state.unmapPages range mapped
          let state := state.release (range.pages - freed)
          (.error error, state.removeRegion range.start)

def mapGiven (frames : Nat → Nat) (flags : Nat → EntryFlags) (index page : Nat) (state : State) :
    Except VmError Unit × State :=
  match state.mapPage page (frames index) (flags page) with
  | (.error error, state) => (.error (.paging error), state)
  | (.ok (), state) => (.ok (), state)

/-- On a refusal the entries made so far go through `unmap_pages`, which frees what they name. -/
def mapOver (region : VmRegion) (frames : Nat → Nat) (flags : Nat → EntryFlags) :
    Except VmError Unit × State :=
  match state.insertRegion region with
  | (.error error, state) => (.error error, state)
  | (.ok (), state) =>
    match mapEach (mapGiven frames flags) 0 region.range.pagesIter state with
    | (.ok (), state) => (.ok (), state)
    | (.error (error, mapped), state) =>
      let (_, state) := state.unmapPages region.range mapped
      (.error error, state.removeRegion region.range.start)

def mapShared (object : Nat) (frames : List Nat)
    (protection : Protection) : Except VmError Unit × State :=
  if protection.executable then (.error .refused, state)
  else if frames.length ≠ range.pages then (.error .refused, state)
  else
    state.mapOver (.new range protection (.shared object)) (fun index => frames.getD index 0)
      (entryFlags protection)

def deviceFlags (range : VirtRange) : EntryFlags :=
  { writable := protection.writable, noExecute := true,
    user := decide (range.first < kernelHalf), device := true }

def mapDevice (physical : Nat) (protection : Protection) : Except VmError Unit × State :=
  if protection.executable then (.error .refused, state)
  else if physical % pageSize ≠ 0 then
    -- The first page is refused before anything is mapped, and so before anything is undone.
    match state.insertRegion (.new range protection (.direct physical)) with
    | (.error error, state) => (.error error, state)
    | (.ok (), state) => (.error (.paging .misaligned), state.removeRegion range.start)
  else
    state.mapOver (.new range protection (.direct physical))
      (fun index => physical / pageSize + index) fun _ => deviceFlags protection range

def unmap : Except VmError Unit × State :=
  match state.space.regions.remove start with
  | .error error => (.error (.region error), state)
  | .ok (region, regions) =>
    let state := state.setRegions regions
    if region.backing = .anonymous ∧ region.protection.present then
      (.ok (), (state.unmapPages region.range region.range.pages).2)
    else (.ok (), state)

def unmapOneByOne : List Nat → State → State
  | [], state => state
  | page :: rest, state =>
    let (freed, state) := unmapEach [page] state
    unmapOneByOne rest (state.release freed)

def discard : Except VmError (List Nat) × State :=
  match VirtRange.fromPages start pages with
  | none => (.error (.region .notFound), state)
  | some range =>
    if range.pagesIter.any fun page => (state.space.regions.find page).isNone then
      (.error (.region .notFound), state)
    else
      let present := range.pagesIter.filter fun page =>
        (state.space.regions.find page).any (fun region => region.backing = .anonymous) &&
          (state.translate page).isSome
      (.ok present, unmapOneByOne present state)

def unmapWhole (present : List Nat) : Except VmError (List Nat) × State :=
  match state.unmap start with
  | (.error error, state) => (.error error, state)
  | (.ok (), state) => (.ok present, state)

def unmapRange : Except VmError (List Nat) × State :=
  match VirtRange.fromPages start pages with
  | none => (.error (.region .notFound), state)
  | some range =>
    match state.space.regions.find range.first with
    | none => (.error (.region .notFound), state)
    | some region =>
      if region.range.stop < range.stop then (.error (.region .notFound), state)
      else
        let present := range.pagesIter.filter fun page => (state.translate page).isSome
        if region.range = range then state.unmapWhole start present
        else
          let (room, state) := state.reserve
          match state.space.regions.reprotect start pages region.protection room with
          | (.error error, regions) => (.error (.region error), state.setRegions regions)
          | (.ok _, regions) => (state.setRegions regions).unmapWhole start present

def freeTables : Machine :=
  let frames := (state.space.tables.filter Table.lower).map Table.frame ++ [state.space.root]
  frames.foldl (fun machine frame => machine.free (.table state.space.name) frame) state.machine

def destroyRegions : List VmRegion → State → Nat × State
  | [], state => (0, state)
  | region :: rest, state =>
    if region.backing ≠ .anonymous ∨ !region.protection.present then destroyRegions rest state
    else
      let (freed, state) := unmapEach region.range.pagesIter state
      let (more, state) := destroyRegions rest state
      (freed + more, state)

def destroy : Machine :=
  let (freed, state) := destroyRegions state.space.regions.regions (state.setRegions .new)
  ((state.setMachine state.freeTables).release freed).machine

def mapAnonymousLazy : Except VmError Unit × State :=
  state.insertRegion (.new range protection .anonymous)

def populatePage (page : Nat) (protection : Protection) : Except VmError Nat × State :=
  match state.charge 1 with
  | .error _ => (.error .memoryEnvelopeExceeded, state)
  | .ok state =>
    match state.allocatePage with
    | (none, state) => (.error .outOfMemory, state.release 1)
    | (some frame, state) =>
      match state.mapPage page frame (entryFlags protection page) with
      | (.error error, state) => (.error (.paging error), (state.freePage frame).release 1)
      | (.ok (), state) => (.ok frame, state)

def protectEach (flags : Nat → EntryFlags) : List Nat → State → State
  | [], state => state
  | page :: rest, state => protectEach flags rest (state.protectPage page (flags page))

def protect (protection : Protection) : Except VmError Unit × State :=
  let (room, state) := state.reserve
  match state.space.regions.reprotect start pages protection room with
  | (.error error, regions) => (.error (.region error), state.setRegions regions)
  | (.ok changed, regions) =>
    (.ok (), protectEach (entryFlags protection) changed.pagesIter (state.setRegions regions))

def replaceUntouched (protection : Protection) : Except VmError Unit × State :=
  match VirtRange.fromPages start pages with
  | none => (.error (.region .notFound), state)
  | some range =>
    let whole := (state.space.regions.find range.first).any fun region =>
      region.backing = .anonymous && region.range.first ≤ range.first &&
        range.stop ≤ region.range.stop
    if !whole || range.pagesIter.any (fun page => (state.translate page).isSome) then
      (.error (.region .notFound), state)
    else state.protect start pages protection

def makeCopyOnWrite : Except VmError Unit × State :=
  match state.space.regions.find (start / pageSize) with
  | none => (.error (.region .notFound), state)
  | some region =>
    let readOnly := entryFlags .readOnly (start / pageSize)
    let state := protectEach (fun _ => readOnly) region.range.pagesIter state
    match state.space.regions.remove region.range.start with
    | .error error => (.error (.region error), state)
    | .ok (_, regions) =>
      -- The vector has room for what was just taken out of it.
      match regions.insert { region with flags := { region.flags with copyOnWrite := true } }
        true with
      | .error error => (.error (.region error), state.setRegions regions)
      | .ok regions => (.ok (), state.setRegions regions)

def revokedToScratch (object : Nat) : Bool × State :=
  if !state.space.scratchOnRevoke then (false, state)
  else
    match state.space.regions.orphanShared start object with
    | .error _ => (false, state)
    | .ok regions => (true, state.setRegions regions)

end State

inductive FaultOutcome
  | handled
  | notOurs
  | refused (why : String)
  | unserviceable (why : String)
  | retry
deriving DecidableEq

namespace State

variable (state : State) (page : Nat)

def refund (charged : Bool) : State :=
  if charged then state.release 1 else state

/-- The arm of `service_fault` that gives a copy-on-write page a frame of its own. -/
def copyPage (old fresh : Nat) (charged : Bool) : FaultOutcome × State :=
  let refused (state : State) : FaultOutcome × State :=
    (.unserviceable "could not remap the copied page", (state.freePage fresh).refund charged)
  match (state.fill fresh (state.machine.contents old)).unmapPage page with
  | (.error _, state) => refused state
  | (.ok _, state) =>
    match state.mapPage page fresh (entryFlags .readWrite page) with
    | (.error _, state) => refused state
    | (.ok (), state) => (.handled, state)

def demandPage (fresh : Nat) (protection : Protection) (charged : Bool) : FaultOutcome × State :=
  match (state.fill fresh Page.zero).mapPage page fresh (entryFlags protection page) with
  | (.error _, state) =>
    (.unserviceable "could not map the demanded page", (state.freePage fresh).refund charged)
  | (.ok (), state) => (.handled, state)

/-- The part after the refusals: a frame is charged for and taken, then used or given back. -/
def supplyPage (policy : Policy) (write : Bool) : FaultOutcome × State :=
  let existing := state.translate page
  let copying := write && policy.flags.copyOnWrite
  let charged := existing.isNone || copying
  match if charged then state.charge 1 else .ok state with
  | .error .noSuchDomain => (.refused "the domain that owns this address space has ended", state)
  | .error _ => (.refused "the domain's memory envelope is full", state)
  | .ok state =>
    match state.allocatePage with
    | (none, state) => (.unserviceable "no frame in this cpu's reserve", state.refund charged)
    | (some fresh, state) =>
      match existing with
      | some old =>
        if copying then state.copyPage page old fresh charged
        else (.notOurs, (state.freePage fresh).refund charged)
      | none => state.demandPage page fresh policy.protection charged

def serviceFault (address : Nat) (write : Bool) : FaultOutcome × State :=
  let page := address / pageSize
  match state.space.regions.find page with
  | none => (.notOurs, state)
  | some region =>
    if !region.protection.present then (.refused "access to a guard page", state)
    else if write && !region.protection.writable && !region.flags.copyOnWrite then
      (.refused "write to a read-only mapping", state)
    else
      match region.backing with
      | .shared _ => (.refused "a shared region was revoked, or never mapped", state)
      | _ => state.supplyPage page region.toPolicy write

def handleFault (address : Nat) (write notPresent : Bool) : FaultOutcome × State :=
  if notPresent && (state.translate (address / pageSize)).isSome then (.handled, state)
  else state.serviceFault address write

end State

end Bhaskix.Vm
