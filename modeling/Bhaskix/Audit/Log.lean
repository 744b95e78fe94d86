import Bhaskix.Library.Bytes
import Bhaskix.Audit.Ledger
import Bhaskix.Sig.Sha256

/-!
The log as it is kept, each record linked to the one before it, and the check that names the entry
where it breaks.
-/

namespace Bhaskix.Audit

open Library List

abbrev Octets (count : Nat) : Type :=
  { bytes : List UInt8 // bytes.length = count }

abbrev recordBytes : Nat := 64
abbrev linkBytes : Nat := 32
abbrev entryBytes : Nat := recordBytes + 2 * linkBytes

abbrev Linking : Type := Octets linkBytes → Octets recordBytes → Octets linkBytes

/-- `BHXAUDIT`. -/
def label : List UInt8 := [0x42, 0x48, 0x58, 0x41, 0x55, 0x44, 0x49, 0x54]

/-- The linking of the log. What is proved here is proved of any. -/
def link : Linking := fun previous record =>
  Sig.sha256.finish ([label, previous.val, record.val].foldl Sig.sha256.update Sig.sha256.new)

theorem link_eq (previous : Octets linkBytes) (record : Octets recordBytes) :
    (link previous record).val = Sig.digest (label ++ previous.val ++ record.val) := by
  rw [link, Sig.sha256_finish]
  · simp
  · simp [label, previous.property, record.property, linkBytes, recordBytes]

def genesis : Octets linkBytes := ⟨List.replicate linkBytes 0, length_replicate⟩

def Record.fromBytes (bytes : Octets recordBytes) : Record :=
  let word (start width : Nat) := leValue ((bytes.val.drop start).take width)
  { sequence := word 0 8, timestamp := .ofNat (word 8 8), kind := bytes.val.getD 16 0
    objectKind := bytes.val.getD 17 0, rights := bytes.val.getD 18 0
    actor := (.ofNat (word 20 4), .ofNat (word 24 4))
    target := (.ofNat (word 28 4), .ofNat (word 32 4)), count := word 36 4
    subject := .ofNat (word 40 8), source := .ofNat (word 48 8), object := .ofNat (word 56 8) }

structure Entry where
  record : Octets recordBytes
  previous : Octets linkBytes
  link : Octets linkBytes
  deriving DecidableEq

def Entry.toBytes (entry : Entry) : Octets entryBytes :=
  ⟨entry.record.val ++ (entry.previous.val ++ entry.link.val), by
    rw [length_append, length_append, entry.record.property, entry.previous.property,
      entry.link.property]
    rfl⟩

variable (blocks : List (Octets entryBytes)) (bytes : Octets entryBytes)

def Entry.fromBytes : Entry where
  record := ⟨bytes.val.take recordBytes, by rw [length_take, bytes.property]; rfl⟩
  previous := ⟨(bytes.val.drop recordBytes).take linkBytes, by
    rw [length_take, length_drop, bytes.property]; rfl⟩
  link := ⟨(bytes.val.drop recordBytes).drop linkBytes, by
    rw [length_drop, length_drop, bytes.property]; rfl⟩

theorem Entry.fromBytes_toBytes (entry : Entry) : fromBytes entry.toBytes = entry := by
  obtain ⟨⟨record, sized⟩, ⟨previous, sized'⟩, link⟩ := entry
  simp only [fromBytes, toBytes, take_left' sized, drop_left' sized,
    take_left' sized', drop_left' sized']

theorem Entry.toBytes_fromBytes : (fromBytes bytes).toBytes = bytes := by
  apply Subtype.ext
  simp only [fromBytes, toBytes, take_append_drop]

structure Chain where
  head : Octets linkBytes
  records : Nat

def Chain.new : Chain := ⟨genesis, 0⟩

inductive Break
  | torn (bytes : Nat)
  | previous (index : Nat)
  | link (index : Nat)
  | sequence (index found : Nat)
  | noAttach
  deriving DecidableEq, Repr

def Break.entry : Break → Option Nat
  | .torn _ => none
  | .previous index | .link index | .sequence index _ => some index
  | .noAttach => some 0

structure Verified where
  records : Nat
  head : Octets linkBytes
  boot : UInt64 × UInt64
  gaps : Nat
  before : Nat

def Verified.note (verified : Verified) (index : Nat) (record : Record) : Verified :=
  if index = 0 then
    { verified with boot := (record.subject, record.source), before := record.count }
  else if record.kind = gapKind then
    { verified with gaps := verified.gaps + record.count }
  else verified

section

variable (link : Linking)

def Chain.append (chain : Chain) (record : Octets recordBytes) : Entry × Chain :=
  let head := link chain.head record
  (⟨record, chain.head, head⟩, ⟨head, chain.records + 1⟩)

def Chain.appendAll (chain : Chain) : List (Octets recordBytes) → List Entry × Chain
  | [] => ([], chain)
  | record :: rest =>
    let (entry, chain) := chain.append link record
    let (entries, chain) := chain.appendAll rest
    (entry :: entries, chain)

def verifyEntry (index : Nat) (chain : Chain) (verified : Verified) (entry : Entry) :
    Except Break (Chain × Verified) :=
  if entry.previous ≠ chain.head then .error (.previous index)
  else if link entry.previous entry.record ≠ entry.link then .error (.link index)
  else
    let record := Record.fromBytes entry.record
    if record.sequence ≠ index then .error (.sequence index record.sequence)
    else if index = 0 ∧ record.kind ≠ attachKind then .error .noAttach
    else .ok ((chain.append link entry.record).2, verified.note index record)

def verifyFrom (index : Nat) (chain : Chain) (verified : Verified) :
    List Entry → Except Break (Chain × Verified)
  | [] => .ok (chain, verified)
  | entry :: rest =>
    match verifyEntry link index chain verified entry with
    | .error broken => .error broken
    | .ok (chain, verified) => verifyFrom (index + 1) chain verified rest

def wholeEntries (bytes : List UInt8) : List (Octets entryBytes) :=
  if whole : entryBytes ≤ bytes.length then
    ⟨bytes.take entryBytes, length_take_of_le whole⟩ :: wholeEntries (bytes.drop entryBytes)
  else []
termination_by bytes.length
decreasing_by
  rw [length_drop]
  exact Nat.sub_lt (Nat.lt_of_lt_of_le (by decide) whole) (by decide)

def entriesOf (bytes : List UInt8) : List Entry :=
  (wholeEntries bytes).map Entry.fromBytes

def verify (bytes : List UInt8) : Except Break Verified :=
  match verifyFrom link 0 .new ⟨0, genesis, (0, 0), 0, 0⟩ (entriesOf bytes) with
  | .error broken => .error broken
  | .ok (chain, verified) =>
    if bytes.length % entryBytes ≠ 0 then .error (.torn (bytes.length % entryBytes))
    else .ok { verified with records := chain.records, head := chain.head }

end

def bytesOf : List UInt8 :=
  (blocks.map Subtype.val).flatten

theorem bytesOf_cons (block : Octets entryBytes) (rest : List (Octets entryBytes)) :
    bytesOf (block :: rest) = block.val ++ bytesOf rest :=
  rfl

theorem length_bytesOf : (bytesOf blocks).length = entryBytes * blocks.length := by
  induction blocks with
  | nil => rfl
  | cons block rest ih =>
    rw [bytesOf_cons, length_append, block.property, ih, length_cons, Nat.mul_succ,
      Nat.add_comm]

theorem wholeEntries_bytesOf : wholeEntries (bytesOf blocks) = blocks := by
  induction blocks with
  | nil =>
    rw [wholeEntries]
    rfl
  | cons block rest ih =>
    have whole : entryBytes ≤ (bytesOf (block :: rest)).length := by
      rw [length_bytesOf, length_cons, Nat.mul_succ]
      exact Nat.le_add_left _ _
    rw [wholeEntries, dif_pos whole]
    congr 1
    · exact Subtype.ext (take_left' block.property)
    · rw [bytesOf_cons, drop_left' block.property, ih]

theorem bytesOf_wholeEntries (bytes : List UInt8) (whole : bytes.length % entryBytes = 0) :
    bytesOf (wholeEntries bytes) = bytes := by
  fun_induction wholeEntries bytes with
  | case1 bytes enough ih =>
    rw [bytesOf_cons, ih (by rwa [length_drop, ← Nat.mod_eq_sub_mod enough])]
    exact take_append_drop _ _
  | case2 bytes short =>
    rw [Nat.mod_eq_of_lt (Nat.lt_of_not_le short)] at whole
    rw [eq_nil_of_length_eq_zero whole]
    rfl

theorem entriesOf_bytesOf : entriesOf (bytesOf blocks) = blocks.map Entry.fromBytes := by
  rw [entriesOf, wholeEntries_bytesOf]

structure Passes (link : Linking) (index : Nat)
    (head : Octets linkBytes) (entry : Entry) : Prop where
  previous : entry.previous = head
  linked : link entry.previous entry.record = entry.link
  sequence : (Record.fromBytes entry.record).sequence = index
  attach : index = 0 → (Record.fromBytes entry.record).kind = attachKind

def Linked (link : Linking) (index : Nat) (head : Octets linkBytes) : List Entry → Prop
  | [] => True
  | entry :: rest => Passes link index head entry ∧ Linked link (index + 1) entry.link rest

def ending (head : Octets linkBytes) (entries : List Entry) : Octets linkBytes :=
  entries.foldl (fun _ entry => entry.link) head

def noteAll (index : Nat) (verified : Verified) : List Entry → Verified
  | [] => verified
  | entry :: rest =>
    noteAll (index + 1) (verified.note index (Record.fromBytes entry.record)) rest

def gapCount (record : Octets recordBytes) : Nat :=
  if (Record.fromBytes record).kind = gapKind then (Record.fromBytes record).count else 0

variable {link : Linking} {index : Nat}
  {head : Octets linkBytes} {chain : Chain} {verified : Verified} {entry : Entry}
  {entries first rest : List Entry}

theorem verifyEntry_cases (link : Linking)
    (index : Nat) (chain : Chain) (verified : Verified) (entry : Entry) :
    (∃ broken, verifyEntry link index chain verified entry = .error broken ∧
      broken.entry = some index) ∨
    Passes link index chain.head entry ∧ verifyEntry link index chain verified entry =
      .ok (⟨entry.link, chain.records + 1⟩,
        verified.note index (Record.fromBytes entry.record)) := by
  unfold verifyEntry
  by_cases previous : entry.previous = chain.head
  swap
  · exact .inl ⟨_, if_pos previous, rfl⟩
  rw [if_neg (not_not_intro previous)]
  by_cases linked : link entry.previous entry.record = entry.link
  swap
  · exact .inl ⟨_, if_pos linked, rfl⟩
  rw [if_neg (not_not_intro linked)]
  dsimp only
  by_cases sequence : (Record.fromBytes entry.record).sequence = index
  swap
  · exact .inl ⟨_, if_pos sequence, rfl⟩
  rw [if_neg (not_not_intro sequence)]
  by_cases attach : index = 0 ∧ (Record.fromBytes entry.record).kind ≠ attachKind
  · exact .inl ⟨_, if_pos attach, attach.1 ▸ rfl⟩
  refine .inr ⟨⟨previous, linked, sequence, fun zero => ?_⟩, ?_⟩
  · exact not_not.mp fun other => attach ⟨zero, other⟩
  · rw [if_neg attach, Chain.append, ← previous, linked]

theorem Passes.verifyEntry (passes : Passes link index chain.head entry) :
    verifyEntry link index chain verified entry =
      .ok (⟨entry.link, chain.records + 1⟩,
        verified.note index (Record.fromBytes entry.record)) := by
  rcases verifyEntry_cases link index chain verified entry with ⟨broken, failed, _⟩ | ⟨_, passed⟩
  · unfold Audit.verifyEntry at failed
    rw [if_neg (not_not_intro passes.previous), if_neg (not_not_intro passes.linked)] at failed
    dsimp only at failed
    rw [if_neg (not_not_intro passes.sequence),
      if_neg fun attach => attach.2 (passes.attach attach.1)] at failed
    cases failed
  · exact passed

theorem Linked.verifyFrom (linked : Linked link index chain.head first) (rest : List Entry) :
    verifyFrom link index chain verified (first ++ rest) =
      Audit.verifyFrom link (index + first.length) ⟨ending chain.head first,
        chain.records + first.length⟩ (noteAll index verified first) rest := by
  induction first generalizing index chain verified with
  | nil => rfl
  | cons entry more ih =>
    rw [cons_append, Audit.verifyFrom, linked.1.verifyEntry]
    have later := @ih (index + 1) ⟨entry.link, chain.records + 1⟩
      (verified.note index (Record.fromBytes entry.record)) linked.2
    dsimp only at later ⊢
    rw [later, length_cons, Nat.add_right_comm index, Nat.add_right_comm chain.records]
    rfl

theorem linked_of_verifyFrom {result : Chain × Verified}
    (accepted : verifyFrom link index chain verified entries = .ok result) :
    Linked link index chain.head entries := by
  induction entries generalizing index chain verified with
  | nil => trivial
  | cons entry rest ih =>
    rw [verifyFrom] at accepted
    rcases verifyEntry_cases link index chain verified entry with
      ⟨broken, failed, _⟩ | ⟨passes, passed⟩
    · rw [failed] at accepted
      cases accepted
    · rw [passed] at accepted
      exact ⟨passes, ih accepted⟩

theorem linked_append : Linked link index head (first ++ rest) ↔
    Linked link index head first ∧ Linked link (index + first.length) (ending head first) rest := by
  induction first generalizing index head with
  | nil => exact (iff_of_eq (true_and _)).symm
  | cons entry more ih =>
    rw [cons_append, Linked, Linked, ih, and_assoc, length_cons, Nat.add_right_comm]
    rfl

theorem Linked.gaps (linked : Linked link index head entries) :
    (noteAll index verified entries).gaps =
      verified.gaps + (entries.map (gapCount ·.record)).sum := by
  induction entries generalizing index head verified with
  | nil => rfl
  | cons entry rest ih =>
    have note : (verified.note index (Record.fromBytes entry.record)).gaps =
        verified.gaps + gapCount entry.record := by
      rw [Verified.note, gapCount]
      by_cases zero : index = 0
      · rw [if_pos zero, linked.1.attach zero]
        rfl
      rw [if_neg zero]
      split
      · rfl
      · rfl
    rw [noteAll, ih linked.2, note, map_cons, sum_cons, Nat.add_assoc]

def Numbered (index : Nat) : List (Octets recordBytes) → Prop
  | [] => True
  | record :: rest => (Record.fromBytes record).sequence = index ∧
      (index = 0 → (Record.fromBytes record).kind = attachKind) ∧ Numbered (index + 1) rest

theorem linked_appendAll {records : List (Octets recordBytes)} (numbered : Numbered index records) :
    Linked link index chain.head (chain.appendAll link records).1 := by
  induction records generalizing index chain with
  | nil => trivial
  | cons record rest ih =>
    exact ⟨⟨rfl, rfl, numbered.1, numbered.2.1⟩, @ih _ (chain.append link record).2 numbered.2.2⟩

theorem appendAll_spec (link : Linking) (chain : Chain) (records : List (Octets recordBytes)) :
    (chain.appendAll link records).1.map Entry.record = records ∧
      (chain.appendAll link records).2.head =
        ending chain.head (chain.appendAll link records).1 := by
  induction records generalizing chain with
  | nil => exact ⟨rfl, rfl⟩
  | cons record rest ih =>
    obtain ⟨same, head⟩ := ih (chain.append link record).2
    exact ⟨congrArg (record :: ·) same, head⟩

def kept (entries : List Entry) : List UInt8 :=
  bytesOf (entries.map Entry.toBytes)

theorem map_fromBytes_toBytes (entries : List Entry) :
    (entries.map Entry.toBytes).map Entry.fromBytes = entries := by
  rw [map_map]
  exact (map_congr_left fun entry _ => entry.fromBytes_toBytes).trans (map_id _)

theorem entriesOf_kept (entries : List Entry) : entriesOf (kept entries) = entries := by
  rw [kept, entriesOf_bytesOf, map_fromBytes_toBytes]

theorem Linked.verify (linked : Linked link 0 genesis entries) : ∃ verified,
    verify link (kept entries) = .ok verified ∧ verified.records = entries.length ∧
      verified.gaps = (entries.map (gapCount ·.record)).sum ∧
      verified.head = ending genesis entries := by
  have loop := @Linked.verifyFrom link 0 .new ⟨0, genesis, (0, 0), 0, 0⟩ _ linked []
  rw [append_nil, Audit.verifyFrom] at loop
  have whole : (kept entries).length % entryBytes = 0 := by
    rw [kept, length_bytesOf, Nat.mul_mod_right]
  rw [Audit.verify, entriesOf_kept, loop]
  dsimp only
  rw [if_neg (not_not_intro whole)]
  refine ⟨_, rfl, Nat.zero_add _, ?_, rfl⟩
  exact linked.gaps.trans (Nat.zero_add _)

def hashed (entries : List Entry) : List (Octets linkBytes × Octets recordBytes) :=
  entries.map fun entry => (entry.previous, entry.record)

def CollisionFree (link : Linking) (pairs : List (Octets linkBytes × Octets recordBytes)) : Prop :=
  ∀ one ∈ pairs, ∀ other ∈ pairs, link one.1 one.2 = link other.1 other.2 → one = other

variable {other next : Entry}

theorem Entry.eq_of_link (linked : link entry.previous entry.record = entry.link)
    (linked' : link other.previous other.record = other.link) (same : entry.link = other.link)
    (free : CollisionFree link [(entry.previous, entry.record), (other.previous, other.record)]) :
    entry = other := by
  have pair := free _ mem_cons_self _ (mem_cons_of_mem _ mem_cons_self)
    (linked.trans (same.trans linked'.symm))
  obtain ⟨record, previous, own⟩ := entry
  obtain ⟨record', previous', own'⟩ := other
  cases pair
  cases same
  rfl

theorem CollisionFree.mono
    (free : CollisionFree link pairs) (among : ∀ pair ∈ fewer, pair ∈ pairs) :
    CollisionFree link fewer :=
  fun one member other member' => free one (among one member) other (among other member')

theorem Linked.last (linked : Linked link 0 genesis (first ++ [entry])) :
    Linked link 0 genesis first ∧ Passes link first.length (ending genesis first) entry := by
  obtain ⟨before, passes, _⟩ := linked_append.mp linked
  exact ⟨before, Nat.zero_add first.length ▸ passes⟩

theorem ending_concat : ending head (first ++ [entry]) = entry.link :=
  foldl_concat ..

theorem Linked.eq_of_last (linked : Linked link 0 genesis (first ++ [entry]))
    (linked' : Linked link 0 genesis (first' ++ [other])) (same : entry.link = other.link)
    (free : CollisionFree link (hashed (first ++ [entry]) ++ hashed (first' ++ [other]))) :
    entry = other := by
  refine Entry.eq_of_link linked.last.2.linked linked'.last.2.linked same (free.mono ?_)
  intro pair member
  rcases mem_pair.mp member with rfl | rfl <;> simp [hashed]

variable {bytes : List UInt8}

section

variable (linked : Linked link 0 genesis entries) (linked' : Linked link 0 genesis entries')
  (same : ending genesis entries = ending genesis entries')
  (free : CollisionFree link (hashed entries ++ hashed entries'))
include linked linked' same free

theorem Linked.eq_of_ending (length : entries.length = entries'.length) : entries = entries' := by
  -- From the last entry back: equal links are of equal entries, whose links before are equal.
  induction entries using reverseRecOn generalizing entries' with
  | nil => exact (eq_nil_of_length_eq_zero length.symm).symm
  | append_singleton first entry ih =>
    rcases eq_nil_or_concat' entries' with rfl | ⟨first', entry', rfl⟩
    · simp at length
    rw [ending_concat, ending_concat] at same
    have last := linked.eq_of_last linked' same free
    obtain ⟨before, passes⟩ := linked.last
    obtain ⟨before', passes'⟩ := linked'.last
    subst last
    rw [ih before before' (passes.previous.symm.trans passes'.previous)
      (free.mono fun pair member => ?_) (by simpa using length)]
    rw [mem_append] at member ⊢
    simp only [hashed, map_append, mem_append] at member ⊢
    exact member.imp .inl .inl

theorem Linked.length_eq (some_ : ending genesis entries ≠ genesis) :
    entries.length = entries'.length := by
  rcases eq_nil_or_concat' entries with rfl | ⟨first, entry, rfl⟩
  · exact absurd rfl some_
  rcases eq_nil_or_concat' entries' with rfl | ⟨first', entry', rfl⟩
  · exact absurd same some_
  rw [ending_concat, ending_concat] at same
  have last := linked.eq_of_last linked' same free
  subst last
  rw [length_append, length_append, ← linked.last.2.sequence, linked'.last.2.sequence]

end

theorem linked_of_verify (accepted : verify link bytes = .ok verified) :
    Linked link 0 genesis (entriesOf bytes) ∧ ending genesis (entriesOf bytes) = verified.head ∧
      bytes.length % entryBytes = 0 := by
  rw [verify] at accepted
  split at accepted
  · cases accepted
  rename_i chain noted checked
  have linked : Linked link 0 genesis (entriesOf bytes) :=
    @linked_of_verifyFrom _ _ .new _ _ _ checked
  have loop := @Linked.verifyFrom link 0 .new ⟨0, genesis, (0, 0), 0, 0⟩ _ linked []
  rw [append_nil, checked, verifyFrom] at loop
  cases loop
  split at accepted
  · cases accepted
  rename_i whole
  cases accepted
  exact ⟨linked, rfl, not_not.mp whole⟩

theorem entriesOf_injective {bytes' : List UInt8} (whole : bytes.length % entryBytes = 0)
    (whole' : bytes'.length % entryBytes = 0) (same : entriesOf bytes = entriesOf bytes') :
    bytes = bytes' := by
  have blocks := congrArg (List.map Entry.toBytes) same
  simp only [entriesOf, map_map, Function.comp_def, Entry.toBytes_fromBytes,
    map_id'] at blocks
  rw [← bytesOf_wholeEntries bytes whole, blocks, bytesOf_wholeEntries bytes' whole']

def BreaksAt (link : Linking) (bytes : List UInt8) (place : Nat) : Prop :=
  ∃ broken, verify link bytes = .error broken ∧ broken.entry = some place

theorem breaksAt_of_verifyEntry {blocks : List (Octets entryBytes)}
    (linked : Linked link 0 genesis first)
    (same : blocks.map Entry.fromBytes = first ++ entry :: rest)
    (fails : ¬Passes link first.length (ending genesis first) entry) :
    BreaksAt link (bytesOf blocks) first.length := by
  rw [BreaksAt, verify, entriesOf_bytesOf, same, @Linked.verifyFrom _ _ .new _ _ linked, verifyFrom,
    Nat.zero_add]
  rcases verifyEntry_cases link first.length ⟨ending genesis first, 0 + first.length⟩
    (noteAll 0 ⟨0, genesis, (0, 0), 0, 0⟩ first) entry with ⟨broken, failed, place⟩ | ⟨passes, _⟩
  · exact ⟨broken, by rw [show Chain.new = ⟨genesis, 0⟩ from rfl, failed], place⟩
  · exact absurd passes fails

theorem not_passes_moved (linked : Linked link 0 genesis (first ++ entry :: next :: rest)) :
    ¬Passes link first.length (ending genesis first) next := by
  obtain ⟨_, _, passes, _⟩ := linked_append.mp linked
  intro moved
  have sequence := passes.sequence.symm.trans moved.sequence
  omega

theorem breaksAt_replaced {other : Octets entryBytes}
    (linked : Linked link 0 genesis (first ++ entry :: next :: rest))
    (differs : other ≠ entry.toBytes)
    (free : CollisionFree link (hashed (first ++ entry :: next :: rest) ++
      hashed (entriesOf (bytesOf (first.map Entry.toBytes ++ other ::
        (next :: rest).map Entry.toBytes))))) :
    let edited := bytesOf (first.map Entry.toBytes ++ other :: (next :: rest).map Entry.toBytes)
    BreaksAt link edited first.length ∨ BreaksAt link edited (first.length + 1) := by
  have same : (first.map Entry.toBytes ++ other :: (next :: rest).map Entry.toBytes).map
      Entry.fromBytes = first ++ Entry.fromBytes other :: next :: rest := by
    rw [map_append, map_cons, map_fromBytes_toBytes, map_fromBytes_toBytes]
  obtain ⟨before, passes, follows, _⟩ := linked_append.mp linked
  by_cases changed : Passes link first.length (ending genesis first) (Entry.fromBytes other)
  swap
  · exact .inl (breaksAt_of_verifyEntry before same changed)
  -- The changed entry passes, so its link is not the one the entry after it was written with.
  have linked' : Linked link 0 genesis (first ++ [Entry.fromBytes other]) :=
    linked_append.mpr ⟨before, (Nat.zero_add first.length).symm ▸ changed, trivial⟩
  have breaks := @breaksAt_of_verifyEntry link next
    (first ++ [Entry.fromBytes other]) rest _ linked'
    (same.trans (append_cons ..)) ?_
  · rw [length_append, length_singleton] at breaks
    exact .inr breaks
  intro moved
  rw [ending_concat] at moved
  refine differs (Entry.toBytes_fromBytes other ▸ congrArg Entry.toBytes ?_)
  refine Entry.eq_of_link changed.linked passes.linked (moved.previous.symm.trans follows.previous)
    (free.mono fun pair member => ?_)
  rw [entriesOf_bytesOf, same]
  rcases mem_pair.mp member with rfl | rfl <;> simp [hashed]

/-- A written log is accepted for what it is, and a change is found where it was made or at the next
entry. -/
theorem head_pins_log (link : Linking) :
    (∀ bytes bytes' verified verified', verify link bytes = .ok verified →
      verify link bytes' = .ok verified' → verified.head = verified'.head →
      verified.head ≠ genesis →
      CollisionFree link (hashed (entriesOf bytes) ++ hashed (entriesOf bytes')) → bytes = bytes') ∧
    ∀ records, records ≠ [] → Numbered 0 records →
      (∃ verified, verify link (kept (Chain.new.appendAll link records).1) = .ok verified ∧
        verified.records = records.length ∧ verified.gaps = (records.map gapCount).sum ∧
        verified.head = (Chain.new.appendAll link records).2.head) ∧ ∀ first entry next rest,
        (Chain.new.appendAll link records).1 = first ++ entry :: next :: rest →
        (∀ other, other ≠ entry.toBytes →
          let edited := bytesOf (first.map Entry.toBytes ++
            other :: (next :: rest).map Entry.toBytes)
          CollisionFree link
            (hashed (first ++ entry :: next :: rest) ++ hashed (entriesOf edited)) →
          BreaksAt link edited first.length ∨ BreaksAt link edited (first.length + 1)) ∧
        BreaksAt link (kept (first ++ next :: rest)) first.length ∧
        BreaksAt link (kept (first ++ next :: entry :: rest)) first.length := by
  refine ⟨?_, ?_⟩
  · intro bytes bytes' verified verified' accepted accepted' same some_ free
    obtain ⟨linked, head, whole⟩ := linked_of_verify accepted
    obtain ⟨linked', head', whole'⟩ := linked_of_verify accepted'
    have ends := head.trans (same.trans head'.symm)
    have length := linked.length_eq linked' ends free (head.symm ▸ some_)
    exact entriesOf_injective whole whole' (linked.eq_of_ending linked' ends free length)
  intro records _ numbered
  have linked : Linked link 0 genesis (Chain.new.appendAll link records).1 :=
    @linked_appendAll _ _ .new _ numbered
  obtain ⟨own, head⟩ := appendAll_spec link .new records
  refine ⟨?_, ?_⟩
  · obtain ⟨verified, accepted, count, gaps, ends⟩ := linked.verify
    refine ⟨verified, accepted, ?_, ?_, ends.trans head.symm⟩
    · rw [count, ← congrArg List.length own, length_map]
    · rw [gaps, ← congrArg (List.map gapCount) own, map_map]
      rfl
  · intro first entry next rest same
    rw [same] at linked
    have moved := not_passes_moved linked
    have before := (linked_append.mp linked).1
    refine ⟨fun other differs => breaksAt_replaced linked differs, ?_, ?_⟩
    · exact breaksAt_of_verifyEntry before (map_fromBytes_toBytes _) moved
    · exact breaksAt_of_verifyEntry before (map_fromBytes_toBytes _) moved

def halfLink : Linking :=
  fun _ record => ⟨record.val.take linkBytes, by rw [length_take, record.property]; rfl⟩

def twoRecords : List (Octets recordBytes) :=
  [⟨List.replicate 16 0 ++ 1 :: List.replicate 47 0, rfl⟩, ⟨1 :: List.replicate 63 0, rfl⟩]

def twoEntries : List Entry :=
  (Chain.new.appendAll halfLink twoRecords).1

def zeroEntry : Octets entryBytes := ⟨List.replicate entryBytes 0, length_replicate⟩

theorem head_pins_log_two :
    (∃ verified, verify halfLink (kept twoEntries) = .ok verified ∧ verified.head ≠ genesis ∧
      CollisionFree halfLink (hashed twoEntries ++ hashed twoEntries) ∧
      kept twoEntries = kept twoEntries) ∧
    (BreaksAt halfLink (bytesOf (zeroEntry :: [twoEntries[1]].map Entry.toBytes)) 0 ∨
      BreaksAt halfLink (bytesOf (zeroEntry :: [twoEntries[1]].map Entry.toBytes)) 1) := by
  obtain ⟨pins, written⟩ := head_pins_log halfLink
  obtain ⟨⟨verified, accepted, _, _, head⟩, edits⟩ := written twoRecords nofun
    ⟨rfl, fun _ => rfl, rfl, nofun, trivial⟩
  have free : CollisionFree halfLink (hashed twoEntries ++ hashed twoEntries) := by
    unfold CollisionFree
    decide
  refine ⟨⟨verified, accepted, ?_, free, ?_⟩, ?_⟩
  · rw [head]
    decide
  · refine pins _ _ verified verified accepted accepted rfl (by rw [head]; decide) ?_
    rw [entriesOf_kept]
    exact free
  · refine (edits [] twoEntries[0] twoEntries[1] [] rfl).1 zeroEntry (by decide) ?_
    rw [entriesOf_bytesOf]
    unfold CollisionFree
    decide

end Bhaskix.Audit
