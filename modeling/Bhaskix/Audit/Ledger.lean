import Bhaskix.Library.Run

/-!
The audit ring's ledger: room is reserved before an operation, and a record, a count or nothing is
left after it.
-/

namespace Bhaskix.Audit

open Library
open List hiding after attach count head min sum tail

structure Record where
  sequence : Nat
  timestamp : UInt64
  kind : UInt8
  objectKind : UInt8
  rights : UInt8
  actor : UInt32 × UInt32
  target : UInt32 × UInt32
  count : Nat
  subject : UInt64
  source : UInt64
  object : UInt64
  deriving DecidableEq, Repr, Inhabited

abbrev attachKind : UInt8 := 1
abbrev gapKind : UInt8 := 2
abbrev kindLimit : Nat := 8
abbrev u32Max : Nat := 2 ^ 32 - 1

inductive Admission
  | refusable
  | unrefusable
  deriving DecidableEq, Repr

inductive Verdict
  | record (gapFirst : Bool)
  | refuse
  | gap
  deriving DecidableEq, Repr

def verdict (admission : Admission) (used slots headroom : Nat) (gapPending : Bool) : Verdict :=
  let free := slots - used
  let need := if gapPending then 2 else 1
  match admission with
  | .refusable => if need + headroom ≤ free then .record gapPending else .refuse
  | .unrefusable => if need ≤ free then .record gapPending else .gap

inductive Ticket
  | inactive
  | slots (gap : Nat)
  | gap
  deriving DecidableEq, Repr

structure Ledger where
  slots : Nat
  headroom : Nat
  active : Bool
  head : Nat
  reserved : Nat
  pendingGaps : Nat
  gaps : Nat
  refused : Nat
  before : Fin kindLimit → Nat

def clampTail (head claim slots : Nat) : Nat :=
  if head < claim then head else if slots < head - claim then head - slots else claim

namespace Ledger

def new (slots headroom : Nat) : Ledger := ⟨slots, headroom, false, 0, 0, 0, 0, 0, fun _ => 0⟩

variable (ledger : Ledger)

def used (tailClaim : Nat) : Nat :=
  ledger.head - clampTail ledger.head tailClaim ledger.slots + ledger.reserved

def reserve (admission : Admission) (tailClaim : Nat) : Option Ticket × Ledger :=
  if ledger.active = false then (some .inactive, ledger)
  else
    match verdict admission (ledger.used tailClaim) ledger.slots ledger.headroom
      (0 < ledger.pendingGaps) with
    | .record true => (some (.slots ledger.pendingGaps),
        { ledger with pendingGaps := 0, reserved := ledger.reserved + 2 })
    | .record false => (some (.slots 0), { ledger with reserved := ledger.reserved + 1 })
    | .refuse => (none, { ledger with refused := ledger.refused + 1 })
    | .gap => (some .gap, ledger)

def commit (ticket : Ticket) (record : Record) : List Record × Ledger :=
  match ticket with
  | .inactive =>
    if known : record.kind.toNat < kindLimit then
      ([], { ledger with
        before := Function.update ledger.before ⟨_, known⟩ (ledger.before ⟨_, known⟩ + 1) })
    else ([], ledger)
  | .gap => ([], { ledger with pendingGaps := ledger.pendingGaps + 1, gaps := ledger.gaps + 1 })
  | .slots gap =>
    if 0 < gap then
      ([{ (default : Record) with
          sequence := ledger.head, timestamp := record.timestamp, kind := gapKind,
          count := min gap u32Max },
        { record with sequence := ledger.head + 1 }],
        { ledger with reserved := ledger.reserved - 1 - 1, head := ledger.head + 1 + 1 })
    else
      ([{ record with sequence := ledger.head }],
        { ledger with reserved := ledger.reserved - 1, head := ledger.head + 1 })

def cancel : Ticket → Ledger
  | .slots gap => { ledger with
      reserved := ledger.reserved - if 0 < gap then 2 else 1
      pendingGaps := ledger.pendingGaps + gap }
  | _ => ledger

def attach (boot : UInt64 × UInt64) (timestamp : UInt64) : List Record × Ledger :=
  if ledger.active ∨ ledger.slots = 0 then ([], ledger)
  else
    ([{ (default : Record) with
        sequence := ledger.head, timestamp, kind := attachKind,
        count := min (∑ kind, ledger.before kind) u32Max, subject := boot.1, source := boot.2 }],
      { ledger with active := true, head := ledger.head + 1 })

end Ledger

/-- Operations are numbered as they are committed; beside a ticket, a record or a count stand those
it answers for. -/
structure Books where
  ledger : Ledger
  tail : Nat
  operations : List Record
  tickets : List (Ticket × List Nat)
  log : List (Record × List Nat)
  early : List Nat
  waiting : List Nat

inductive Input
  | reserve (admission : Admission)
  | commit (ticket : Nat) (record : Record)
  | cancel (ticket : Nat)
  | attach (boot : UInt64 × UInt64) (timestamp : UInt64)
  | consume (tail : Nat)

namespace Books

def start (slots headroom : Nat) : Books := ⟨.new slots headroom, 0, [], [], [], [], []⟩

variable (books : Books)

def reserve (admission : Admission) : Books :=
  match books.ledger.reserve admission books.tail with
  | (none, ledger) => { books with ledger }
  | (some (.slots gap), ledger) =>
    if 0 < gap then
      { books with ledger, waiting := [], tickets := (.slots gap, books.waiting) :: books.tickets }
    else { books with ledger, tickets := (.slots gap, []) :: books.tickets }
  | (some ticket, ledger) => { books with ledger, tickets := (ticket, []) :: books.tickets }

def commit (index : Nat) (record : Record) : Books :=
  match books.tickets[index]? with
  | none => books
  | some (ticket, group) =>
    let number := books.operations.length
    let wrote := books.ledger.commit ticket record
    let left := { books with
      ledger := wrote.2
      operations := books.operations ++ [record]
      tickets := books.tickets.eraseIdx index }
    match ticket with
    | .inactive => { left with early := number :: books.early }
    | .gap => { left with waiting := number :: books.waiting }
    | .slots gap => { left with
        log := books.log ++ wrote.1.zip (if 0 < gap then [group, [number]] else [[number]]) }

def cancel (index : Nat) : Books :=
  match books.tickets[index]? with
  | none => books
  | some (ticket, group) => { books with
      ledger := books.ledger.cancel ticket
      tickets := books.tickets.eraseIdx index
      waiting := group ++ books.waiting }

def attach (boot : UInt64 × UInt64) (timestamp : UInt64) : Books :=
  let wrote := books.ledger.attach boot timestamp
  { books with ledger := wrote.2, log := books.log ++ wrote.1.zip [books.early] }

def consume (tail : Nat) : Books :=
  if books.tail ≤ tail ∧ tail ≤ books.ledger.head then { books with tail } else books

end Books

def step : Input → Books → Books
  | .reserve admission, books => books.reserve admission
  | .commit ticket record, books => books.commit ticket record
  | .cancel ticket, books => books.cancel ticket
  | .attach boot timestamp, books => books.attach boot timestamp
  | .consume tail, books => books.consume tail

/-- An operation that was admitted before the reader attached is committed before it, with a kind
there is. -/
def Timely (books : Books) : Input → Prop
  | .commit ticket record => ∀ group, books.tickets[ticket]? = some (.inactive, group) →
      books.ledger.active = false ∧ record.kind.toNat < kindLimit
  | _ => True

inductive States (operations : List Record) (sequence : Nat) : Record × List Nat → Prop
  | own {number : Nat} {record : Record} (given : operations[number]? = some record) :
      States operations sequence ({ record with sequence }, [number])
  | gap {record : Record} {group : List Nat} (kind : record.kind = gapKind)
      (here : record.sequence = sequence) (count : record.count = min group.length u32Max) :
      States operations sequence (record, group)
  | attach {record : Record} {group : List Nat} (kind : record.kind = attachKind)
      (here : record.sequence = sequence) (count : record.count = min group.length u32Max) :
      States operations sequence (record, group)

def Ticket.need : Ticket → Nat
  | .slots stated => if 0 < stated then 2 else 1
  | _ => 0

def Ticket.Takes (ticket : Ticket) (group : List Nat) : Prop :=
  match ticket with
  | .slots stated => stated = group.length
  | _ => group = []

namespace Books

def times (books : Books) (number : Nat) : Nat :=
  (books.log.map (·.2.count number)).sum +
    (if books.ledger.active then 0 else books.early.count number) +
    books.waiting.count number + (books.tickets.map (·.2.count number)).sum

structure Kept (books : Books) : Prop where
  once : ∀ number < books.operations.length, books.times number = 1
  never : ∀ number, books.operations.length ≤ number → books.times number = 0
  states : ∀ sequence entry, books.log[sequence]? = some entry →
    States books.operations sequence entry
  gaps : books.ledger.pendingGaps = books.waiting.length
  takes : ∀ ticket ∈ books.tickets, ticket.1.Takes ticket.2
  before : books.ledger.active = false →
    (∑ kind, books.ledger.before kind) = books.early.length ∧ books.ledger.head = 0 ∧
      ∀ ticket ∈ books.tickets, ticket.1 = .inactive
  head : books.log.length = books.ledger.head
  reserved : books.ledger.reserved = (books.tickets.map (·.1.need)).sum
  tail : books.tail ≤ books.ledger.head
  room : books.ledger.head + books.ledger.reserved ≤ books.tail + books.ledger.slots

variable {books : Books}

theorem kept_start (slots headroom : Nat) : (start slots headroom).Kept where
  once := nofun
  never _ _ := rfl
  states := nofun
  gaps := rfl
  takes := nofun
  before _ := ⟨Finset.sum_const_zero, rfl, nofun⟩
  head := rfl
  reserved := rfl
  tail := Nat.le_refl 0
  room := Nat.zero_le _

theorem sum_eraseIdx {α : Type} (weight : α → Nat) {list : List α} : ∀ {index : Nat} {item : α},
    list[index]? = some item →
      ((list.eraseIdx index).map weight).sum + weight item = (list.map weight).sum := by
  induction list with
  | nil => nofun
  | cons first rest later =>
    intro index item found
    cases index with
    | zero =>
      cases found
      exact Nat.add_comm _ _
    | succ index =>
      have sum := @later index item found
      simp only [eraseIdx_cons_succ, map_cons, sum_cons]
      omega

theorem Kept.free (kept : books.Kept) :
    clampTail books.ledger.head books.tail books.ledger.slots = books.tail := by
  have tail := kept.tail
  have room := kept.room
  rw [clampTail, if_neg (by omega), if_neg (by omega)]

theorem Kept.hand (kept : books.Kept) {ledger : Ledger} {waiting : List Nat}
    (same : ledger = { books.ledger with
      reserved := ledger.reserved, pendingGaps := ledger.pendingGaps })
    (idle : books.ledger.active = false → ticket = .inactive) (takes : ticket.Takes group)
    (gaps : ledger.pendingGaps = waiting.length)
    (moved : ∀ number, group.count number + waiting.count number = books.waiting.count number)
    (reserved : ledger.reserved = books.ledger.reserved + ticket.need)
    (room : books.ledger.head + ledger.reserved ≤ books.tail + books.ledger.slots) :
    Kept { books with ledger, waiting, tickets := (ticket, group) :: books.tickets } := by
  have times : ∀ number,
      times { books with ledger, waiting, tickets := (ticket, group) :: books.tickets } number =
        books.times number := by
    intro number
    have move := moved number
    rw [same]
    simp only [Books.times, map_cons, sum_cons]
    omega
  refine ⟨fun number known => (times number).trans (kept.once number known),
    fun number known => (times number).trans (kept.never number known), kept.states, gaps, ?_, ?_,
      ?_,
    ?_, ?_, ?_⟩
  · intro other among
    rcases mem_cons.mp among with rfl | old
    · exact takes
    · exact kept.takes other old
  · intro inactive
    rw [same] at inactive ⊢
    obtain ⟨sum, empty, tickets⟩ := kept.before inactive
    refine ⟨sum, empty, ?_⟩
    intro other among
    rcases mem_cons.mp among with rfl | old
    · exact idle inactive
    · exact tickets other old
  · rw [same]
    exact kept.head
  · rw [map_cons, sum_cons, ← kept.reserved]
    exact reserved.trans (Nat.add_comm _ _)
  · rw [same]
    exact kept.tail
  · rw [same]
    exact room

theorem verdict_record (decided : verdict admission used slots headroom pending = .record first) :
    first = pending ∧ (if pending then 2 else 1) ≤ slots - used := by
  unfold verdict at decided
  generalize (if pending then 2 else 1) = need at decided ⊢
  cases admission with
  | refusable | unrefusable =>
    dsimp only at decided
    split at decided
    · cases decided
      exact ⟨rfl, by omega⟩
    · cases decided

theorem Kept.reserve (kept : books.Kept) (admission : Admission) :
    (books.reserve admission).Kept := by
  have tail := kept.tail
  have room := kept.room
  have gaps := kept.gaps
  rw [Books.reserve, Ledger.reserve]
  by_cases active : books.ledger.active = false
  · rw [if_pos active]
    exact kept.hand rfl (fun _ => rfl) rfl gaps (fun _ => Nat.zero_add _) rfl room
  rw [if_neg active]
  have running {ticket : Ticket} : books.ledger.active = false → ticket = .inactive :=
    fun inactive => absurd inactive active
  have used : books.ledger.used books.tail =
      books.ledger.head - books.tail + books.ledger.reserved := by
    rw [Ledger.used, kept.free]
  cases decided : verdict admission (books.ledger.used books.tail) books.ledger.slots
    books.ledger.headroom (0 < books.ledger.pendingGaps) with
  | refuse => exact { kept with gaps := gaps, tail := tail, room := room }
  | gap => exact kept.hand rfl running rfl gaps (fun _ => Nat.zero_add _) rfl room
  | record gapFirst =>
    obtain ⟨same, fits⟩ := verdict_record decided
    rw [← same] at fits
    rw [used] at fits
    cases gapFirst with
    | true =>
      have some : 0 < books.ledger.pendingGaps := of_decide_eq_true same.symm
      dsimp only
      rw [if_pos some]
      exact kept.hand rfl running gaps rfl (fun _ => rfl) (by rw [Ticket.need, if_pos some])
        (by rw [if_pos rfl] at fits; dsimp only; omega)
    | false =>
      dsimp only
      rw [if_neg (Nat.lt_irrefl 0)]
      exact kept.hand rfl running rfl gaps (fun _ => Nat.zero_add _) rfl
        (by rw [if_neg Bool.false_ne_true] at fits; dsimp only; omega)

variable {operations : List Record}

theorem States.mono {sequence : Nat} (states : States operations sequence entry) (record : Record) :
    States (operations ++ [record]) sequence entry := by
  cases states with
  | own given => exact .own (List.getElem?_append_left
      (List.getElem?_eq_some_iff.mp given).1 ▸ given)
  | gap kind here count => exact .gap kind here count
  | attach kind here count => exact .attach kind here count

theorem states_append {log : List (Record × List Nat)}
    (before : ∀ sequence entry, log[sequence]? = some entry → States operations sequence entry)
    (new : ∀ offset entry, wrote[offset]? = some entry →
      States operations (log.length + offset) entry) : ∀ sequence entry,
    (log ++ wrote)[sequence]? = some entry → States operations sequence entry := by
  intro sequence entry found
  by_cases old : sequence < log.length
  · exact before sequence entry (List.getElem?_append_left old ▸ found)
  have after := new (sequence - log.length) entry
    (List.getElem?_append_right (Nat.le_of_not_lt old) ▸ found)
  rwa [Nat.add_sub_cancel' (Nat.le_of_not_lt old)] at after

section

variable (kept : books.Kept)
include kept

theorem Kept.spend {index : Nat} {ticket : Ticket} {group : List Nat}
    (found : books.tickets[index]? = some (ticket, group)) {after : Books} {fresh : List Nat}
    (tickets : after.tickets = books.tickets.eraseIdx index)
    (once : ∀ number, (after.log.map (·.2.count number)).sum +
      (if after.ledger.active then 0 else after.early.count number) + after.waiting.count number =
        (books.log.map (·.2.count number)).sum +
          (if books.ledger.active then 0 else books.early.count number) +
            books.waiting.count number + group.count number + fresh.count number)
    (grows : fresh = [] ∧ after.operations = books.operations ∨
      fresh = [books.operations.length] ∧ ∃ record, after.operations = books.operations ++ [record])
    (states : ∀ sequence entry, after.log[sequence]? = some entry →
      States after.operations sequence entry)
    (gaps : after.ledger.pendingGaps = after.waiting.length)
    (before : after.ledger.active = false → books.ledger.active = false ∧
      (∑ kind, after.ledger.before kind) = after.early.length ∧ after.ledger.head = 0)
    (head : after.log.length = after.ledger.head)
    (reserved : after.ledger.reserved = books.ledger.reserved - ticket.need)
    (tail : after.tail = books.tail) (slots : after.ledger.slots = books.ledger.slots)
    (moved : books.ledger.head ≤ after.ledger.head ∧
      after.ledger.head ≤ books.ledger.head + ticket.need) : after.Kept := by
  have need := sum_eraseIdx (fun ticket : Ticket × List Nat => ticket.1.need) found
  have held := kept.reserved
  have room := kept.room
  have behind := kept.tail
  dsimp only at need
  have times : ∀ number, after.times number = books.times number + fresh.count number := by
    intro number
    have sum := sum_eraseIdx (fun ticket : Ticket × List Nat => ticket.2.count number) found
    have now := once number
    rw [Books.times, Books.times, tickets]
    dsimp only at sum
    omega
  have counts : (∀ number < after.operations.length, after.times number = 1) ∧
      ∀ number, after.operations.length ≤ number → after.times number = 0 := by
    rcases grows with ⟨rfl, same⟩ | ⟨rfl, record, same⟩
    · rw [same]
      exact ⟨fun number known => (times number).trans (kept.once number known),
        fun number known => (times number).trans (kept.never number known)⟩
    rw [same, length_append, length_singleton]
    constructor
    · intro number known
      rw [times]
      by_cases last : number = books.operations.length
      · rw [last, kept.never _ (Nat.le_refl _), count_singleton_self]
      · rw [kept.once number (by omega), count_eq_zero.mpr (by simpa using last)]
    · intro number past
      rw [times, kept.never number (by omega), count_eq_zero.mpr (by simp; omega)]
  refine ⟨counts.1, counts.2, states, gaps, ?_, ?_, head, ?_, by omega, by omega⟩
  · rw [tickets]
    exact fun other among => kept.takes other (mem_of_mem_eraseIdx among)
  · intro inactive
    obtain ⟨was, sum, empty⟩ := before inactive
    rw [tickets]
    exact ⟨sum, empty, fun other among => (kept.before was).2.2 other (mem_of_mem_eraseIdx among)⟩
  · rw [tickets]
    omega

theorem Kept.cancel (index : Nat) : (books.cancel index).Kept := by
  rw [Books.cancel]
  cases found : books.tickets[index]? with
  | none => exact kept
  | some entry =>
    obtain ⟨ticket, group⟩ := entry
    have takes := kept.takes _ (mem_of_getElem? found)
    have gaps := kept.gaps
    have given : (books.ledger.cancel ticket).pendingGaps =
      books.ledger.pendingGaps + group.length := by
      cases ticket with
      | slots stated => exact congrArg (books.ledger.pendingGaps + ·) takes
      | inactive | gap =>
        exact congrArg (fun group => books.ledger.pendingGaps + group.length) takes.symm
    obtain ⟨active, early, head, slots, reserved⟩ :
        (books.ledger.cancel ticket).active = books.ledger.active ∧
        (books.ledger.cancel ticket).before = books.ledger.before ∧
        (books.ledger.cancel ticket).head = books.ledger.head ∧
        (books.ledger.cancel ticket).slots = books.ledger.slots ∧
        (books.ledger.cancel ticket).reserved = books.ledger.reserved - ticket.need := by
      cases ticket <;> exact ⟨rfl, rfl, rfl, rfl, rfl⟩
    dsimp only
    refine @Kept.spend books kept index ticket group found _ [] rfl ?_
      (.inl ⟨rfl, rfl⟩) kept.states ?_ ?_
      (kept.head.trans head.symm) reserved rfl slots (by rw [head]; omega)
    · intro number
      dsimp only
      rw [active, count_append, count_nil]
      omega
    · dsimp only
      rw [given, length_append]
      omega
    · intro inactive
      rw [active] at inactive
      dsimp only
      rw [early, head]
      exact ⟨inactive, (kept.before inactive).1, (kept.before inactive).2.1⟩

theorem Kept.commit (index : Nat) (record : Record)
    (timely : Timely books (.commit index record)) : (books.commit index record).Kept := by
  rw [Books.commit]
  cases found : books.tickets[index]? with
  | none => exact kept
  | some entry =>
    obtain ⟨ticket, group⟩ := entry
    have takes := kept.takes _ (mem_of_getElem? found)
    have gaps := kept.gaps
    have head := kept.head
    have states := fun sequence entry found =>
      States.mono (kept.states sequence entry found) record
    dsimp only
    cases ticket with
    | inactive =>
      obtain ⟨inactive, known⟩ := timely group found
      obtain ⟨sum, empty, _⟩ := kept.before inactive
      cases (takes : group = [])
      rw [Ledger.commit, dif_pos known]
      refine @Kept.spend books kept index .inactive [] found _ [books.operations.length] rfl ?_
        (.inr ⟨rfl, record, rfl⟩) states gaps ?_ head rfl rfl rfl ⟨Nat.le_refl _, Nat.le_refl _⟩
      · intro number
        dsimp only
        rw [inactive, if_neg Bool.false_ne_true, if_neg Bool.false_ne_true, count_nil,
          count_cons, count_singleton]
        omega
      intro _
      refine ⟨inactive, ?_, empty⟩
      dsimp only
      have old := Finset.sum_update_of_mem (Finset.mem_univ ⟨_, known⟩) books.ledger.before
        (books.ledger.before ⟨_, known⟩)
      rw [Function.update_eq_self] at old
      rw [Finset.sum_update_of_mem (Finset.mem_univ _), length_cons, ← sum, old]
      omega
    | gap =>
      cases (takes : group = [])
      refine @Kept.spend books kept index .gap [] found _ [books.operations.length] rfl ?_
        (.inr ⟨rfl, record, rfl⟩) states (congrArg (· + 1) gaps) ?_ head rfl rfl rfl
        ⟨Nat.le_refl _, Nat.le_refl _⟩
      · intro number
        change (books.log.map (·.2.count number)).sum +
          (if books.ledger.active then 0 else books.early.count number) +
          (books.operations.length :: books.waiting).count number = _
        rw [count_nil, count_cons, count_singleton]
        omega
      · intro inactive
        exact ⟨inactive, (kept.before inactive).1, (kept.before inactive).2.1⟩
    | slots stated =>
      obtain rfl : stated = group.length := takes
      have own : States (books.operations ++ [record])
        (books.log.length + (if 0 < group.length then 1 else 0))
          ({ record with
            sequence := books.ledger.head + if 0 < group.length then 1 else 0 },
              [books.operations.length]) := by
        rw [head]
        exact .own List.getElem?_concat_length
      have active := kept.before
      by_cases some : 0 < group.length
      · rw [if_pos some] at own
        dsimp only
        rw [Ledger.commit, if_pos some, if_pos some]
        refine @Kept.spend books kept index (.slots group.length) group found _
          [books.operations.length]
          rfl ?_ (.inr ⟨rfl, record, rfl⟩) (states_append states ?_) gaps ?_ ?_ ?_ rfl rfl ?_
        · intro number
          simp only [zip_cons_cons, zip_nil_right, map_append, map_cons, map_nil,
            sum_append, sum_cons, sum_nil]
          omega
        · intro offset entry at'
          match offset, at' with
          | 0, at' =>
            cases at'
            exact .gap rfl head.symm rfl
          | 1, at' =>
            cases at'
            exact own
        · intro inactive
          cases (active inactive).2.2 _ (mem_of_getElem? found)
        · simp only [zip_cons_cons, zip_nil_right, length_append, length_cons,
            length_nil, head]
        · rw [Ticket.need, if_pos some]
          rfl
        · rw [Ticket.need, if_pos some]
          dsimp only
          omega
      · rw [if_neg some] at own
        cases eq_nil_of_length_eq_zero (Nat.eq_zero_of_not_pos some)
        refine @Kept.spend books kept index (.slots 0) [] found _ [books.operations.length]
          rfl ?_ (.inr ⟨rfl, record, rfl⟩) (states_append states ?_) gaps ?_ ?_ rfl rfl rfl
          ⟨Nat.le_succ _, Nat.le_refl _⟩
        · intro number
          simp only [Ledger.commit, length_nil, Nat.lt_irrefl, if_false, zip_cons_cons,
            zip_nil_right, map_append, map_cons, map_nil, sum_append, sum_cons,
            sum_nil, count_nil]
          omega
        · intro offset entry at'
          match offset, at' with
          | 0, at' =>
            cases at'
            exact own
        · intro inactive
          cases (active inactive).2.2 _ (mem_of_getElem? found)
        · exact (length_append).trans (congrArg (· + 1) head)

theorem Kept.attach (boot : UInt64 × UInt64) (timestamp : UInt64) :
    (books.attach boot timestamp).Kept := by
  rw [Books.attach, Ledger.attach]
  by_cases idle : books.ledger.active ∨ books.ledger.slots = 0
  · rw [if_pos idle]
    dsimp only
    rw [zip_nil_left, append_nil]
    exact kept
  obtain ⟨inactive, slots⟩ := not_or.mp idle
  obtain ⟨sum, empty, tickets⟩ := kept.before (Bool.eq_false_iff.mpr inactive)
  have head := kept.head
  have tail := kept.tail
  rw [if_neg idle, sum]
  have none : books.ledger.reserved = 0 := by
    rw [kept.reserved, List.sum_eq_zero_iff_forall_eq_nat]
    intro need among
    obtain ⟨ticket, member, rfl⟩ := mem_map.mp among
    rw [tickets ticket member]
    rfl
  have times : ∀ number, times { books with
      ledger := { books.ledger with active := true, head := books.ledger.head + 1 }
      log := books.log ++ [({ (default : Record) with
        sequence := books.ledger.head, timestamp, kind := attachKind,
        count := min books.early.length u32Max, subject := boot.1, source := boot.2 },
          books.early)] }
      number = books.times number := by
    intro number
    simp only [Books.times, map_append, sum_append, map_cons, map_nil, sum_cons,
      sum_nil, if_pos, if_neg inactive]
    omega
  refine ⟨fun number known => (times number).trans (kept.once number known),
    fun number known => (times number).trans (kept.never number known),
    states_append kept.states ?_, kept.gaps, kept.takes, nofun,
    length_append.trans (congrArg (· + 1) head), kept.reserved, ?_, ?_⟩
  · intro offset entry at'
    match offset, at' with
    | 0, at' =>
      cases at'
      exact .attach rfl head.symm rfl
  · exact Nat.le_succ_of_le tail
  · dsimp only
    omega

theorem Kept.consume (tail : Nat) : (books.consume tail).Kept := by
  have room := kept.room
  rw [Books.consume]
  split
  · exact ⟨kept.once, kept.never, kept.states, kept.gaps, kept.takes, kept.before, kept.head,
      kept.reserved, by dsimp only; omega, by dsimp only; omega⟩
  · exact kept

theorem Kept.step (input : Input) (timely : Timely books input) :
    (step input books).Kept := by
  cases input with
  | reserve admission => exact kept.reserve admission
  | commit ticket record => exact kept.commit ticket record timely
  | cancel ticket => exact kept.cancel ticket
  | attach boot timestamp => exact kept.attach boot timestamp
  | consume tail => exact kept.consume tail

end

/-- Each committed operation is accounted for once: by its own record, by a count in one, or among
the gaps waiting. What is not free is unread or promised to a ticket that is still out. -/
structure Complete (books : Books) : Prop where
  once : ∀ number < books.operations.length, books.times number = 1
  states : ∀ sequence entry, books.log[sequence]? = some entry →
    States books.operations sequence entry
  waiting : books.ledger.pendingGaps = books.waiting.length
  room : books.log.length ≤ books.tail + books.ledger.slots
  unrefused : ∀ tail, (books.ledger.reserve .unrefusable tail).1 ≠ none
  refused : (books.ledger.reserve .refusable books.tail).1 = none →
    books.ledger.slots - (books.log.length - books.tail + (books.tickets.map (·.1.need)).sum) <
      (if 0 < books.waiting.length then 2 else 1) + books.ledger.headroom

end Books

theorem Ledger.reserve_unrefusable (ledger : Ledger) (tail : Nat) :
    (ledger.reserve .unrefusable tail).1 ≠ none := by
  rw [Ledger.reserve]
  split
  · nofun
  dsimp only [verdict]
  by_cases fits : (if decide (0 < ledger.pendingGaps) then 2 else 1) ≤
    ledger.slots - ledger.used tail
  · rw [if_pos fits]
    cases decide (0 < ledger.pendingGaps) <;> nofun
  · rw [if_neg fits]
    nofun

theorem Ledger.reserve_refused {ledger : Ledger}
    (refused : (ledger.reserve .refusable tail).1 = none) : ledger.slots - ledger.used tail <
    (if 0 < ledger.pendingGaps then 2 else 1) + ledger.headroom := by
  rw [Ledger.reserve] at refused
  split at refused
  · cases refused
  dsimp only [verdict] at refused
  simp only [decide_eq_true_eq] at refused
  by_contra fits
  rw [if_pos (Nat.le_of_not_lt fits)] at refused
  generalize decide (0 < ledger.pendingGaps) = pending at refused
  cases pending <;> cases refused

/-- No committed operation is absent from the log of a run whose early operations are timely. -/
theorem operations_accounted {slots headroom : Nat} {books : Books}
    (reached : Reached step Timely (.start slots headroom) books) : books.Complete := by
  have kept : books.Kept := reached.invariant (motive := Books.Kept)
    (Books.kept_start slots headroom)
    fun input held timely => held.step input timely
  refine ⟨kept.once, kept.states, kept.gaps, ?_, books.ledger.reserve_unrefusable,
    fun refused => ?_⟩
  · have room := kept.room
    rw [kept.head]
    omega
  · have full := Ledger.reserve_refused refused
    rwa [Ledger.used, kept.free, kept.reserved, kept.gaps, ← kept.head] at full

theorem operations_accounted_early : (run step [.reserve .refusable, .commit 0 default,
    .attach (1, 2) 3, .reserve .unrefusable, .commit 0 default] (.start 4 1)).Complete := by
  refine operations_accounted (.run_of_meet _ .start ?_)
  refine ⟨trivial, fun _ _ => ⟨rfl, by decide⟩, trivial, trivial, ?_, trivial⟩
  intro group found
  cases found

/-- An operation admitted before the reader attached and committed after it is in no count. -/
theorem operation_unaccounted : (run step [.reserve .refusable, .attach (1, 2) 3,
    .commit 0 default] (.start 4 1)).operations.length = 1 ∧
    (run step [.reserve .refusable, .attach (1, 2) 3, .commit 0 default] (.start 4 1)).times 0 =
      0 := by
  decide

end Bhaskix.Audit
