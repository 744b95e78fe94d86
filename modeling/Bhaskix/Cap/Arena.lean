import Mathlib

namespace Bhaskix.Cap

open Function

@[irreducible] def maxCapabilities : Nat := 4096

abbrev Index : Type := Fin maxCapabilities

def cspaceSlots : Nat := 256

def maxOwners : Nat := 64

def u32Max : Nat := 2 ^ 32 - 1

def ownerKernel : Nat := u32Max

structure Rights where
  bits : UInt8
  deriving DecidableEq, Repr

namespace Rights

def none : Rights := ⟨0⟩
def read : Rights := ⟨1⟩
def write : Rights := ⟨2⟩
def grant : Rights := ⟨8⟩
def revoke : Rights := ⟨16⟩
def derive : Rights := ⟨32⟩
def all : Rights := ⟨63⟩

def fromBits (bits : UInt8) : Rights := ⟨bits &&& all.bits⟩

def contains (self other : Rights) : Bool :=
  self.bits &&& other.bits == other.bits

theorem contains_iff {self : Rights} :
    self.contains other = true ↔ self.bits &&& other.bits = other.bits := by
  simp [contains]

theorem contains_refl (self : Rights) : self.contains self = true := by
  simp [contains]

theorem contains_trans {upper : Rights} (first : upper.contains middle = true)
    (second : middle.contains lower = true) : upper.contains lower = true := by
  rw [contains_iff] at *
  rw [← second, ← UInt8.and_assoc, first]

end Rights

inductive ObjectKind where
  | frame
  | memory
  | addressSpace
  | thread
  | domain
  | endpoint
  | reply
  | notification
  | irqHandler
  | dmaWindow
  | console
  | domainControl
  deriving DecidableEq, Repr

structure ObjectRef where
  kind : ObjectKind
  id : Nat
  deriving DecidableEq, Repr

structure SlotRef where
  node : Nat
  generation : UInt32
  deriving DecidableEq, Repr

structure CapNode where
  object : ObjectRef
  rights : Rights
  badge : UInt64
  parent : Option Index
  generation : UInt32
  owner : Nat
  serial : Nat
  live : Bool
  deriving DecidableEq, Repr

inductive CapError where
  | notFound
  | rightsNotMonotone
  | deriveNotPermitted
  | badgeNotMonotone
  | revokeNotPermitted
  | grantNotPermitted
  | exhausted
  deriving DecidableEq, Repr

variable (count : UInt32)

def saturatingAdd (more : Nat) : UInt32 :=
  UInt32.ofNat (min (count.toNat + more) u32Max)

theorem toNat_saturatingAdd (more : Nat) :
    (saturatingAdd count more).toNat = min (count.toNat + more) u32Max := by
  have bound : min (count.toNat + more) u32Max < 2 ^ 32 := by
    simp only [u32Max]
    omega
  simp only [saturatingAdd, UInt32.toNat_ofNat']
  exact Nat.mod_eq_of_lt bound

@[simp] theorem saturatingAdd_zero : saturatingAdd count 0 = count := by
  apply UInt32.toNat_inj.mp
  have bound := count.toNat_lt
  rw [toNat_saturatingAdd]
  simp only [u32Max]
  omega

theorem saturatingAdd_saturatingAdd (first second : Nat) :
    saturatingAdd (saturatingAdd count first) second = saturatingAdd count (first + second) := by
  apply UInt32.toNat_inj.mp
  simp only [toNat_saturatingAdd]
  omega

abbrev Tally := Fin maxOwners → UInt32

def Tally.add (tally : Tally) (owner : Nat) : Tally :=
  if inside : owner < maxOwners then
    update tally ⟨owner, inside⟩ (saturatingAdd (tally ⟨owner, inside⟩) 1)
  else tally

structure Arena where
  nodes : Index → CapNode
  live : Nat
  tally : Option Tally
  serials : Nat

namespace Arena

def new : Arena where
  nodes := fun _ =>
    { object := ⟨.frame, 0⟩, rights := .none, badge := 0, parent := none,
      generation := 0, owner := ownerKernel, serial := 0, live := false }
  live := 0
  tally := none
  serials := 0

variable (arena : Arena) (slot : SlotRef) (index : Index) (object : ObjectRef)
  (state : Nat × Arena) (rights : Rights) (badge : UInt64) (tally : Tally)

def freeIndex : Option Index :=
  (List.finRange maxCapabilities).find? fun index => !(arena.nodes index).live

/-- Puts a new live node into a free entry. The entry keeps the generation its
last death left it. -/
def occupy (parent : Option Index) (owner : Nat) : SlotRef × Arena :=
  let generation := (arena.nodes index).generation
  let serials := arena.serials + 1
  ({ node := index.val, generation },
    { arena with
      nodes := update arena.nodes index
        { object, rights, badge, parent, generation, owner,
          serial := serials, live := true }
      live := arena.live + 1
      serials })

def insertRootOwned (owner : Nat) : Except CapError SlotRef × Arena :=
  match arena.freeIndex with
  | none => (.error .exhausted, arena)
  | some index =>
    let (slot, arena) := arena.occupy index object rights badge none owner
    (.ok slot, arena)

def insertRoot : Except CapError SlotRef × Arena :=
  arena.insertRootOwned object rights badge ownerKernel

def resolve : Option Index :=
  if inside : slot.node < maxCapabilities then
    let index : Index := ⟨slot.node, inside⟩
    if (arena.nodes index).live && (arena.nodes index).generation == slot.generation
    then some index else none
  else none

def serialOf : Option Nat :=
  (arena.resolve slot).map fun index => (arena.nodes index).serial

def isLive : Bool :=
  (arena.resolve slot).isSome

def lookup : Option (ObjectRef × Rights) :=
  (arena.resolve slot).map fun index =>
    ((arena.nodes index).object, (arena.nodes index).rights)

def badgeOf : Option UInt64 :=
  (arena.resolve slot).map fun index => (arena.nodes index).badge

def deriveOwned (parent : SlotRef) (rights : Rights)
    (badge : UInt64) (owner : Nat) : Except CapError SlotRef × Arena :=
  match arena.resolve parent with
  | none => (.error .notFound, arena)
  | some index =>
    let parentNode := arena.nodes index
    if !parentNode.rights.contains .derive then
      (.error .deriveNotPermitted, arena)
    else if !parentNode.rights.contains rights then
      (.error .rightsNotMonotone, arena)
    else if parentNode.badge != 0 && badge != parentNode.badge then
      (.error .badgeNotMonotone, arena)
    else
      match arena.freeIndex with
      | none => (.error .exhausted, arena)
      | some free =>
        let (slot, arena) :=
          arena.occupy free parentNode.object rights badge (some index) owner
        (.ok slot, arena)

def derive (parent : SlotRef) (rights : Rights)
    (badge : UInt64) : Except CapError SlotRef × Arena :=
  arena.deriveOwned parent rights badge ownerKernel

def kill : Arena :=
  let node := arena.nodes index
  if !node.live then arena
  else
    { arena with
      tally := arena.tally.map fun tally => tally.add node.owner
      nodes := update arena.nodes index
        { node with live := false, generation := node.generation + 1 }
      live := arena.live - 1 }

def liveNodes : Finset Index :=
  Finset.univ.filter fun index => (arena.nodes index).live

@[simp] theorem mem_liveNodes {arena : Arena} {index : Index} :
    index ∈ arena.liveNodes ↔ (arena.nodes index).live = true := by
  simp [liveNodes]

theorem liveNodes_kill : (arena.kill index).liveNodes = arena.liveNodes.erase index := by
  ext other
  by_cases dead : (arena.nodes index).live = true
  · by_cases same : other = index
    · subst other
      simp [kill, dead]
    · simp [kill, dead, same]
  have isDead : (arena.nodes index).live = false := by simpa using dead
  have unchanged : arena.kill index = arena := by simp [kill, isDead]
  rw [unchanged, Finset.mem_erase, mem_liveNodes]
  constructor
  · intro isLive
    exact ⟨fun same => by simp [same, isDead] at isLive, isLive⟩
  · exact fun both => both.2

def sweepEntry (index : Index) : Nat × Arena :=
  let (killedThisPass, arena) := state
  if !(arena.nodes index).live then state
  else
    match (arena.nodes index).parent with
    | none => state
    | some parent =>
      if !(arena.nodes parent).live then (killedThisPass + 1, arena.kill index)
      else state

def sweep : Nat × Arena :=
  (List.finRange maxCapabilities).foldl sweepEntry (0, arena)

def orphaned : Bool :=
  (arena.nodes index).live &&
    (arena.nodes index).parent.any fun parent => !(arena.nodes parent).live

theorem sweepEntry_eq (killed : Nat) (arena : Arena) (index : Index) :
    sweepEntry (killed, arena) index = if arena.orphaned index then (killed + 1, arena.kill index)
      else (killed, arena) := by
  cases isLive : (arena.nodes index).live with
  | false => simp [sweepEntry, orphaned, isLive]
  | true =>
    cases link : (arena.nodes index).parent with
    | none => simp [sweepEntry, orphaned, isLive, link]
    | some parent => simp [sweepEntry, orphaned, isLive, link]

theorem sweepEntry_card (index : Index) :
    (sweepEntry state index).1 + (sweepEntry state index).2.liveNodes.card =
      state.1 + state.2.liveNodes.card := by
  obtain ⟨killed, arena⟩ := state
  rw [sweepEntry_eq]
  split
  · next orphan =>
      have isLive : index ∈ arena.liveNodes := by
        simp only [orphaned, Bool.and_eq_true] at orphan
        exact mem_liveNodes.mpr orphan.1
      have positive : 0 < arena.liveNodes.card := Finset.card_pos.mpr ⟨index, isLive⟩
      simp only [liveNodes_kill, Finset.card_erase_of_mem isLive]
      omega
  · rfl

theorem sweep_card : arena.sweep.1 + arena.sweep.2.liveNodes.card = arena.liveNodes.card := by
  have general : ∀ (entries : List Index) (state : Nat × Arena),
      (entries.foldl sweepEntry state).1 + (entries.foldl sweepEntry state).2.liveNodes.card =
      state.1 + state.2.liveNodes.card := by
    intro entries
    induction entries with
    | nil => intro state; rfl
    | cons index rest induction =>
      intro state
      rw [List.foldl_cons, induction, sweepEntry_card]
  simpa [sweep] using general (List.finRange maxCapabilities) (0, arena)

/-- Sweep again and again until a pass kills nothing. Each pass that does not
stop the loop leaves fewer live nodes. -/
def sweepUntilStable (arena : Arena) (destroyed : Nat) : Nat × Arena :=
  if arena.sweep.1 = 0 then (destroyed, arena.sweep.2)
  else sweepUntilStable arena.sweep.2 (destroyed + arena.sweep.1)
termination_by arena.liveNodes.card
decreasing_by
  have balance := sweep_card arena
  omega

def destroySubtree (root : Index) : Nat × Arena :=
  sweepUntilStable (arena.kill root) 1

def revoke (arena : Arena) (slot : SlotRef) : Except CapError Nat × Arena :=
  match arena.resolve slot with
  | none => (.error .notFound, arena)
  | some index =>
    if !(arena.nodes index).rights.contains .revoke then
      (.error .revokeNotPermitted, arena)
    else
      let swept := arena.destroySubtree index
      (.ok swept.1, swept.2)

def revokeUnchecked : Nat × Arena :=
  match arena.resolve slot with
  | some index => arena.destroySubtree index
  | none => (0, arena)

def takeTally : Tally × Arena :=
  (arena.tally.getD tally, { arena with tally := none })

def revokeTallied : Except CapError Nat × Tally × Arena :=
  match arena.resolve slot with
  | none => (.error .notFound, tally, arena)
  | some index =>
    if !(arena.nodes index).rights.contains .revoke then
      (.error .revokeNotPermitted, tally, arena)
    else
      let swept := { arena with tally := some tally }.destroySubtree index
      (.ok swept.1, swept.2.takeTally tally)

def revokeRootNaming (index : Index) : Nat × Arena :=
  let (destroyed, arena) := state
  let node := arena.nodes index
  if node.live && node.parent.isNone && node.object == object then
    let swept := arena.destroySubtree index
    (destroyed + swept.1, swept.2)
  else state

def revokeRootsNaming : Nat × Tally × Arena :=
  let swept := (List.finRange maxCapabilities).foldl (revokeRootNaming object)
    (0, { arena with tally := some tally })
  (swept.1, swept.2.takeTally tally)

end Arena

end Bhaskix.Cap
