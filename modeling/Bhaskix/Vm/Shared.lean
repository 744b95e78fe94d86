import Bhaskix.Library.Run
import Bhaskix.Vm.Permission

/-!
Memory objects, and the calls that reach across address spaces. An object remembers where it is
mapped by the root of the page table, and revocation works on the tables.
-/

namespace Bhaskix.Vm

open Library Mm Function

abbrev maxObjects : Nat := 128
abbrev maxMappings : Nat := 8
abbrev maxFrames : Nat := 16
abbrev maxOwners : Nat := 64
abbrev maxSupervisedPages : Nat := 64

inductive MemoryError
  | exhausted
  | badLength
  | quotaExceeded
  | outOfMemory
  | gone
  | noSuchDomain
  | tooManyMappings
deriving DecidableEq

structure MemoryId where
  index : Nat
  generation : Nat
deriving DecidableEq

structure Mapping where
  root : Nat
  address : Nat
  pages : Nat
deriving DecidableEq

def Mapping.pagesIter (mapping : Mapping) : List Nat :=
  List.range' (mapping.address / pageSize) mapping.pages

structure Object where
  frames : List Nat
  owner : Nat
  mappings : List (Option Mapping)
  generation : Nat
  live : Bool
deriving DecidableEq

def Object.empty : Object :=
  { frames := [], owner := 0, mappings := .replicate maxMappings none, generation := 0,
    live := false }

/-- `spaces` holds every page table there is, by its root, and `installed` says which of them the
table of spaces lists. -/
structure World where
  machine : Machine
  spaces : Nat → Option AddressSpace
  installed : Nat → Bool
  objects : Nat → Object
  made : Nat

namespace Machine

def takeFrames (holder : Holder) : Nat → Machine → List Nat × Machine
  | 0, machine => ([], machine)
  | more + 1, machine =>
    match machine.allocate holder with
    | (none, machine) => ([], machine)
    | (some frame, machine) =>
      let (rest, machine) := takeFrames holder more machine
      (frame :: rest, machine)

def freeFrames (machine : Machine) (holder : Holder) (frames : List Nat) : Machine :=
  frames.foldl (fun machine frame => machine.free holder frame) machine

def zeroFrames (machine : Machine) (frames : List Nat) : Machine :=
  frames.foldl (fun machine frame => machine.fill frame Page.zero) machine

end Machine

namespace State

def clearPages : List Nat → State → State
  | [], state => state
  | page :: rest, state => clearPages rest (state.unmapPage page).2

variable (state : State)

def mapAt (range : VirtRange) (protection : Protection) (lazy replace : Bool) : Bool × State :=
  let fresh (state : State) : Bool × State :=
    let (mapped, state) :=
      if lazy then state.mapAnonymousLazy range protection
      else state.mapAnonymous range protection
    (mapped.isOk, state)
  if !replace then fresh state
  else if (state.space.regions.find range.first).any fun region => region.range = range then
    fresh (state.unmap range.start).2
  else if lazy then
    match state.replaceUntouched range.start range.pages protection with
    | (.ok (), state) => (true, state)
    | (.error _, state) => fresh state
  else fresh state

def unmapAtPages (start pages : Nat) : Nat :=
  if pages = 0 then
    ((state.space.regions.find (start / pageSize)).map fun region => region.range.pages).getD 0
  else pages

def unmapAt (start pages : Nat) : Except VmError (List Nat) × State :=
  state.unmapRange start (state.unmapAtPages start pages)

end State

namespace World

variable (world : World) (id : MemoryId) (roots : List (Option Nat)) (root : Nat)

def put (state : State) : World :=
  { world with
    machine := state.machine
    spaces := update world.spaces root (some state.space) }

def withRoot (world : World) (root : Nat) (act : State → State) : World :=
  match world.spaces root with
  | none => world
  | some space => world.put root (act ⟨space, world.machine⟩)

def withSpace (world : World) (root : Nat) (act : State → State) : World :=
  if world.installed root then world.withRoot root act else world

def setObject (index : Nat) (object : Object) : World :=
  { world with objects := update world.objects index object }

def resolve : Option Object :=
  let object := world.objects id.index
  if id.index < maxObjects ∧ object.live ∧ object.generation = id.generation then some object
  else none

def vacant : Option Nat :=
  (List.range maxObjects).find? fun index => !(world.objects index).live

def newSpace : World :=
  match AddressSpace.new world.machine world.made with
  | (.error _, machine) => { world with machine }
  | (.ok space, machine) =>
    { world with
      machine
      spaces := update world.spaces space.root (some space)
      made := world.made + 1 }

def destroySpace : World :=
  match world.spaces root with
  | none => world
  | some space =>
    { world with
      machine := (State.mk space world.machine).destroy
      spaces := update world.spaces root none
      installed := update world.installed root false }

def create (owner length : Nat) : Except MemoryError MemoryId × World :=
  let pages := (length + pageSize - 1) / pageSize
  if length = 0 ∨ maxFrames < pages then (.error .badLength, world)
  else
    match world.machine.chargeFrames owner pages with
    | .error _ => (.error .quotaExceeded, world)
    | .ok machine =>
      let holder := Holder.object (world.vacant.getD maxObjects)
      let (frames, machine) := machine.takeFrames holder pages
      let undone := (machine.freeFrames holder frames).releaseFrames owner pages
      if frames.length < pages then (.error .outOfMemory, { world with machine := undone })
      else
        match world.vacant with
        | none =>
          (.error .exhausted,
            { world with
              machine :=
                ((machine.zeroFrames frames).freeFrames holder frames).releaseFrames owner
                  pages })
        | some index =>
          let generation := (world.objects index).generation
          (.ok ⟨index, generation⟩,
            { world with machine := machine.zeroFrames frames }.setObject index
              { frames, owner, mappings := .replicate maxMappings none, generation,
                live := true })

def destroy : Bool × World :=
  match world.resolve id with
  | none => (false, world)
  | some object =>
    let machine := (world.machine.freeFrames (.object id.index) object.frames).releaseFrames
      object.owner object.frames.length
    (true, { world with machine }.setObject id.index
      { object with frames := [], generation := (object.generation + 1) % 2 ^ 32, live := false })

def mapInto (address : Nat) (protection : Protection) : Except MemoryError Unit × World :=
  match world.resolve id, world.spaces root with
  | none, _ => (.error .gone, world)
  -- The caller's space exists.
  | _, none => (.error .gone, world)
  | some object, some space =>
    if object.mappings.all Option.isSome then (.error .tooManyMappings, world)
    else
      match VirtRange.fromPages address object.frames.length with
      | none => (.error .badLength, world)
      | some range =>
        match (State.mk space world.machine).mapShared range id.index object.frames
          protection with
        | (.error _, state) => (.error .badLength, world.put root state)
        | (.ok (), state) =>
          match object.mappings.findIdx? Option.isNone with
          | none => (.error .tooManyMappings, world.put root (state.unmap address).2)
          | some slot =>
            let mapping := Mapping.mk root address object.frames.length
            (.ok (), (world.put root state).setObject id.index
              { object with mappings := object.mappings.set slot (some mapping) })

def revokeMapping (index : Nat) (world : World) (mapping : Mapping) : World :=
  let world := world.withSpace mapping.root fun state =>
    (state.revokedToScratch mapping.address index).2
  world.withRoot mapping.root (State.clearPages mapping.pagesIter)

def revoke : Nat × World :=
  match world.resolve id with
  | none => (0, world)
  | some object =>
    let taken := object.mappings.reduceOption
    let world := world.setObject id.index
      { object with mappings := .replicate maxMappings none }
    let world := taken.foldl (revokeMapping id.index) world
    (taken.length, (world.destroy id).2)

def selectedByRoot : Option Mapping → Bool
  | none => false
  | some mapping => roots.contains (some mapping.root)

def unmapMapping (mapping : Mapping) : World :=
  let world := world.withSpace mapping.root fun state => (state.unmap mapping.address).2
  world.withRoot mapping.root (State.clearPages mapping.pagesIter)

def unmapRoots : Nat × World :=
  match world.resolve id with
  | none => (0, world)
  | some object =>
    let chosen := selectedByRoot (roots.take maxOwners)
    let taken := (object.mappings.filter chosen).reduceOption
    let world := world.setObject id.index
      { object with
        mappings := object.mappings.map fun mapping => if chosen mapping then none else mapping }
    (taken.length, taken.foldl unmapMapping world)

def mapAt (world : World) (root address pages : Nat) (protection : Protection)
    (lazy replace : Bool) : World :=
  if pages = 0 ∨ !lazy ∧ maxSupervisedPages < pages then world
  else
    match VirtRange.fromPages address pages with
    | none => world
    | some range => world.withSpace root fun state => (state.mapAt range protection lazy replace).2

end World

inductive Call
  | newSpace
  | destroySpace (root : Nat)
  | own (root domain : Nat)
  | keepRevokedAsScratch (root : Nat)
  | install (root : Nat)
  | forget (root : Nat)
  | operate (root : Nat) (operation : Operation)
  | mapAt (root address pages : Nat) (protection : Protection) (lazy replace : Bool)
  | unmapAt (root start pages : Nat)
  | create (owner length : Nat)
  | mapInto (id : MemoryId) (root address : Nat) (protection : Protection)
  | revoke (id : MemoryId)
  | unmapRoots (id : MemoryId) (roots : List (Option Nat))
  | destroy (id : MemoryId)
  /-- The rest of the kernel and the programs: anything but handing frames out and back. -/
  | elsewhere (machine : Machine)

def Call.perform : Call → World → World
  | .newSpace, world => world.newSpace
  | .destroySpace root, world => world.destroySpace root
  | .own root domain, world => world.withRoot root fun state => state.own domain
  | .keepRevokedAsScratch root, world =>
    world.withRoot root fun state => { state with space := state.space.keepRevokedAsScratch }
  | .install root, world =>
    { world with installed := update world.installed root true }
  | .forget root, world =>
    { world with installed := update world.installed root false }
  | .operate root operation, world => world.withRoot root operation.perform
  | .mapAt root address pages protection lazy replace, world =>
    world.mapAt root address pages protection lazy replace
  | .unmapAt root start pages, world =>
    world.withSpace root fun state => (state.unmapAt start pages).2
  | .create owner length, world => (world.create owner length).2
  | .mapInto id root address protection, world => (world.mapInto id root address protection).2
  | .revoke id, world => (world.revoke id).2
  | .unmapRoots id roots, world => (world.unmapRoots id roots).2
  | .destroy id, world => (world.destroy id).2
  | .elsewhere machine, world =>
    { world with machine := { machine with log := world.machine.log } }

def World.boot (machine : Machine) : World :=
  { machine := { machine with log := [] }
    spaces := fun _ => none
    installed := fun _ => false
    objects := fun _ => Object.empty
    made := 0 }

end Bhaskix.Vm
