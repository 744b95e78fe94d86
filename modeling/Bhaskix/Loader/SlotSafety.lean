import Bhaskix.Loader.SlotDisk

namespace Bhaskix.Loader

open Library
open Checked (bind_eq_ok ok_bind add_of_lt add_eq_ok)

theorem leValue_lt (bytes : Bytes) : leValue bytes < 256 ^ bytes.length := by
  induction bytes with
  | nil => decide
  | cons byte rest ih =>
    have small := byte.toNat_lt
    rw [leValue, List.length_cons, Nat.pow_succ]
    omega

theorem word_lt (bytes : Bytes) (start width : Nat) : word bytes start width < 256 ^ width := by
  refine Nat.lt_of_lt_of_le (leValue_lt _) (Nat.pow_le_pow_right (by decide) ?_)
  rw [slice, List.length_take]
  omega

theorem word_at {before : Bytes} (place : before.length = start) (fits : value < 256 ^ width) :
    word (before ++ (leBytes width value ++ after)) start width = value := by
  rw [word, slice_append_right (Nat.le_of_eq place), place, Nat.sub_self, Nat.add_sub_cancel_left,
    slice_append_left (by rw [length_leBytes]), slice, List.drop_zero, Nat.sub_zero,
    List.take_of_length_le (by rw [length_leBytes]), leValue_leBytes fits]

theorem word_append_right {before : Bytes} (past : before.length ≤ start) :
    word (before ++ rest) start width = word rest (start - before.length) width := by
  rw [word, word, slice_append_right past]
  congr 2
  omega

theorem word_of_field
    (found : field bytes start width = some value) : word bytes start width = value := by
  rw [field] at found
  split at found
  · rw [word, slice, Nat.add_sub_cancel_left]
    exact Option.some.inj found
  · contradiction

namespace Layout

variable {header : Header} {entries : List Bytes} {found after : Found}

theorem scan_cons (scanned : scan header (entry :: entries) found = .ok after) :
    (Part.ofGuid (slice entry 0 16) = none ∧ scan header entries found = .ok after) ∨
      ∃ part, Part.ofGuid (slice entry 0 16) = some part ∧ found part = none ∧
        (partitionOf entry).first ≤ (partitionOf entry).last ∧
        scan header entries (found.set part (partitionOf entry)) = .ok after := by
  rw [scan] at scanned
  split at scanned
  case h_1 kind => exact .inl ⟨kind, scanned⟩
  case h_2 part kind =>
    dsimp only at scanned
    split at scanned
    · contradiction
    case isFalse fresh =>
      split at scanned
      · contradiction
      case isFalse inside =>
        refine .inr ⟨part, kind, by simpa using fresh, ?_, scanned⟩
        exact Nat.not_lt.mp fun wrong => inside (.inl wrong)

section

variable (scanned : scan header entries found = .ok after)
include scanned

theorem scan_keeps {part : Part}
    (held : found part = some partition) : after part = some partition := by
  induction entries generalizing found with
  | nil =>
    cases scanned
    exact held
  | cons entry entries ih =>
    rcases scan_cons scanned with ⟨_, rest⟩ | ⟨other, _, fresh, _, rest⟩
    · exact ih rest held
    refine ih rest ((if_neg ?_).trans held)
    intro same
    subst same
    rw [held] at fresh
    contradiction

theorem scan_lists (member : entry ∈ entries)
    {part : Part} (kind : Part.ofGuid (slice entry 0 16) = some part) :
    after part = some (partitionOf entry) := by
  induction entries generalizing found with
  | nil => cases member
  | cons other entries ih =>
    rcases scan_cons scanned with ⟨none, rest⟩ | ⟨which, named, _, _, rest⟩
    · rcases List.mem_cons.mp member with rfl | later
      · rw [kind] at none
        contradiction
      · exact ih rest later
    · rcases List.mem_cons.mp member with rfl | later
      · cases kind.symm.trans named
        exact scan_keeps rest (if_pos rfl)
      · exact ih rest later

theorem scan_found {part : Part} (here : after part = some partition) :
    found part = some partition ∨ ∃ entry ∈ entries, Part.ofGuid (slice entry 0 16) = some part ∧
      partition = partitionOf entry ∧ partition.first ≤ partition.last := by
  induction entries generalizing found with
  | nil =>
    cases scanned
    exact .inl here
  | cons entry entries ih =>
    rcases scan_cons scanned with ⟨_, rest⟩ | ⟨which, named, _, ordered, rest⟩
    · rcases ih rest with before | ⟨other, member, listed⟩
      · exact .inl before
      · exact .inr ⟨other, List.mem_cons_of_mem _ member, listed⟩
    rcases ih rest with before | ⟨other, member, listed⟩
    · by_cases same : part = which
      · subst same
        cases (if_pos rfl).symm.trans before
        exact .inr ⟨entry, List.mem_cons_self, named, rfl, ordered⟩
      · exact .inl ((if_neg same).symm.trans before)
    · exact .inr ⟨other, List.mem_cons_of_mem _ member, listed⟩

end

def part (layout : Layout) : Part → Partition
  | .record => layout.record
  | .slotA => layout.a
  | .slotB => layout.b

theorem find_eq_ok (found : find header bytes = .ok layout) :
    ∃ after, scan header (entriesOf header bytes) (fun _ => none) = .ok after ∧
      ∀ part, after part = some (layout.part part) := by
  rw [find] at found
  split at found
  · contradiction
  cases scanned : scan header (entriesOf header bytes) fun _ => none with
  | error refusal =>
    rw [scanned] at found
    contradiction
  | ok after =>
    rw [scanned, ok_bind] at found
    split at found
    case h_1 record a b one two three =>
      cases found
      refine ⟨after, rfl, fun part => ?_⟩
      cases part with
      | record => exact one
      | slotA => exact two
      | slotB => exact three
    case h_2 => contradiction

end Layout

def Disk.Lists (disk : Disk) (part : Part) (partition : Partition) : Prop :=
  ∃ header bytes, disk.table = .ok (some (header, bytes)) ∧
    ∃ entry ∈ Layout.entriesOf header bytes, Part.ofGuid (slice entry 0 16) = some part ∧
      Layout.partitionOf entry = partition

variable {layout : Layout} {disk : Disk} {partition : Partition}

section

variable (accepted : disk.accept = .ok (some layout))
include accepted

theorem Disk.accept_eq_some : ∃ header bytes, disk.table = .ok (some (header, bytes)) ∧
      Layout.find header bytes = .ok layout ∧ layout.b.last ≤ disk.lastBlock := by
  rw [accept] at accepted
  obtain ⟨table, read, accepted⟩ := bind_eq_ok.mp accepted
  split at accepted
  · cases accepted
  case h_2 header bytes =>
    split at accepted
    · cases accepted
    case h_2 other found =>
      by_cases inside : other.b.last ≤ disk.lastBlock
      · rw [if_pos inside] at accepted
        cases accepted
        exact ⟨header, bytes, read, found, inside⟩
      · rw [if_neg inside] at accepted
        cases accepted

theorem Disk.lists_iff (part : Part) (partition : Partition) :
    disk.Lists part partition ↔ partition = layout.part part := by
  obtain ⟨header, bytes, table, found, _⟩ := accept_eq_some accepted
  obtain ⟨after, scanned, parts⟩ := Layout.find_eq_ok found
  constructor
  · rintro ⟨header', bytes', table', entry, member, kind, rfl⟩
    cases table.symm.trans table'
    exact Option.some.inj ((Layout.scan_lists scanned member kind).symm.trans (parts part))
  · rintro rfl
    rcases Layout.scan_found scanned (parts part) with none | ⟨entry, member, kind, same, _⟩
    · contradiction
    · exact ⟨header, bytes, table, entry, member, kind, same.symm⟩

theorem Disk.accept_ordered (part : Part) :
    (layout.part part).first ≤ (layout.part part).last ∧ (layout.part part).last < 2 ^ 64 := by
  obtain ⟨header, bytes, _, found, _⟩ := accept_eq_some accepted
  obtain ⟨after, scanned, parts⟩ := Layout.find_eq_ok found
  rcases Layout.scan_found scanned (parts part) with none | ⟨entry, _, _, same, ordered⟩
  · contradiction
  refine ⟨ordered, ?_⟩
  rw [same]
  exact word_lt entry 40 8

end

theorem Partition.bytes_eq (ordered : partition.first ≤ partition.last)
    (small : partition.last - partition.first + 1 < 2 ^ 55) :
    partition.bytes = .ok ((partition.last - partition.first + 1) * blockBytes) := by
  rw [Partition.bytes, Checked.sub_of_le ordered, ok_bind, add_of_lt (by omega),
    ok_bind]
  exact if_pos (by rw [blockBytes]; omega)

theorem Partition.bytes_eq_ok (counted : partition.bytes = .ok size) :
    partition.last - partition.first + 1 < 2 ^ 55 ∧
      size = (partition.last - partition.first + 1) * blockBytes := by
  obtain ⟨span, spanned, counted⟩ := bind_eq_ok.mp counted
  obtain ⟨blocks, added, counted⟩ := bind_eq_ok.mp counted
  obtain ⟨_, rfl⟩ := Checked.sub_eq_ok.mp spanned
  obtain ⟨_, rfl⟩ := add_eq_ok.mp added
  obtain ⟨fits, rfl⟩ := Checked.mul_eq_ok.mp counted
  refine ⟨?_, rfl⟩
  rw [blockBytes] at fits
  omega

theorem transfers_within (slot : Partition) (first whole : Nat) (direct : Bool) (done : Nat)
    (aligned : done % blockBytes = 0) (rounded : whole % blockBytes = 0)
    (fits : slot.first + first + whole / blockBytes ≤ 2 ^ 64) :
    ∃ reads, transfers slot first whole direct done = .ok reads ∧ ∀ read ∈ reads,
      slot.first + first ≤ read.1 ∧
        read.1 + read.2 / blockBytes ≤ slot.first + first + whole / blockBytes := by
  have even : stride direct % blockBytes = 0 := by cases direct <;> decide
  have positive := stride_pos direct
  rw [blockBytes] at aligned rounded fits even
  generalize step : stride direct = size at even positive
  induction left : whole - done using Nat.strong_induction_on generalizing done with
  | _ left ih =>
    rw [transfers]
    split
    case isFalse => exact ⟨[], rfl, by simp⟩
    case isTrue more =>
      rw [step]
      obtain ⟨reads, later, within⟩ := ih (whole - (done + min (whole - done) size)) (by omega)
        (done + min (whole - done) size) (by omega) rfl
      rw [add_of_lt (by omega), ok_bind, blockBytes,
        add_of_lt (by omega), ok_bind, later]
      refine ⟨_, rfl, ?_⟩
      intro read member
      rcases List.mem_cons.mp member with rfl | rest
      · dsimp only
        omega
      · exact within read rest

theorem transfers_start (direct : Bool) (some : 0 < whole)
    (read : transfers slot first whole direct 0 = .ok reads) :
    ∃ size, (slot.first + first, size) ∈ reads ∧ size = min whole (stride direct) := by
  rw [transfers, dif_pos some] at read
  obtain ⟨start, added, read⟩ := bind_eq_ok.mp read
  obtain ⟨lba, moved, read⟩ := bind_eq_ok.mp read
  obtain ⟨rest, _, read⟩ := bind_eq_ok.mp read
  obtain ⟨_, rfl⟩ := add_eq_ok.mp added
  obtain ⟨_, rfl⟩ := add_eq_ok.mp moved
  cases read
  exact ⟨_, List.mem_cons_self, rfl⟩

namespace SetHeader

variable {header : SetHeader}

theorem parse_eq_ok (parsed : parse block slotBytes = .ok header) (file : File) :
    Fits slotBytes (header.files file) := by
  rw [parse] at parsed
  split at parsed
  · contradiction
  split at parsed
  · contradiction
  split at parsed
  case isTrue fits =>
    cases parsed
    refine fits file ?_
    cases file <;> decide
  case isFalse => contradiction

theorem length_toBlock (header : SetHeader) : header.toBlock.length = blockBytes := by
  have numbers : (header.words.flatMap (leBytes 8)).length = 64 := by simp [words, all]
  rw [toBlock, List.length_append, List.length_append, List.length_replicate, numbers]
  rfl

theorem word_toBlock (small : ∀ number ∈ header.words, number < 256 ^ 8)
    (which : Fin 8) : word header.toBlock (8 + which.val * 8) 8 = header.words.get which := by
  rw [toBlock, word_append_right (Nat.le_add_right 8 _)]
  refine word_of_field ?_
  rw [show 8 + which.val * 8 - setMagic.length = which.val * 8 from Nat.add_sub_cancel_left ..]
  exact field_flatMap _ header.words small which.val which.isLt

theorem parse_toBlock {header : SetHeader} {slotBytes : Nat}
    (fits : ∀ file, Fits slotBytes (header.files file)) :
    parse header.toBlock slotBytes = .ok header := by
  have magic : slice header.toBlock 0 8 = setMagic := by
    rw [toBlock, slice_append_left (by decide)]
    rfl
  have small : ∀ number ∈ header.words, number < 256 ^ 8 := by
    intro number member
    obtain ⟨file, _, one⟩ := List.mem_flatMap.mp member
    have bound := (fits file).1
    rcases List.mem_cons.mp one with rfl | other
    · omega
    · rw [List.mem_singleton.mp other]
      omega
  have files : fileAt header.toBlock = header.files := by
    funext file
    cases file with
    | kernel => exact Prod.ext (word_toBlock small 0) (word_toBlock small 1)
    | initrd => exact Prod.ext (word_toBlock small 2) (word_toBlock small 3)
    | conf => exact Prod.ext (word_toBlock small 4) (word_toBlock small 5)
    | sig => exact Prod.ext (word_toBlock small 6) (word_toBlock small 7)
  rw [parse, if_neg (by rw [length_toBlock]; decide), if_neg (not_not_intro magic), files,
    if_pos fun file _ => fits file]

end SetHeader

/-- The block a slot's header is read from, the blocks its files are read from, and the record. -/
structure Safe (lastBlock : Nat) (layout : Layout) : Prop where
  header : ∀ slot, (layout.slot slot).Holds (layout.slot slot).first ∧
    (layout.slot slot).first ≤ lastBlock
  files : ∀ slot, ∃ size, (layout.slot slot).bytes = .ok size ∧
    ∀ block set, SetHeader.parse block size = .ok set → ∀ file aligned,
      ∃ reads, set.reads (layout.slot slot) file aligned = .ok reads ∧
        ∀ read ∈ reads, ∀ block, read.1 ≤ block → block < read.1 + read.2 / blockBytes →
          (layout.slot slot).Holds block ∧ block ≤ lastBlock
  record : layout.record.Holds layout.record.first ∧ layout.record.first ≤ lastBlock ∧
    ∀ slot, ¬(layout.slot slot).Holds layout.record.first

/-- The listed partitions lie on the disk and apart, and no slot's size in bytes exceeds a word. -/
def Disk.Contained (disk : Disk) : Prop :=
  ∀ record a b, disk.Lists .record record → disk.Lists .slotA a → disk.Lists .slotB b →
    record.first ≤ disk.lastBlock ∧ a.last ≤ disk.lastBlock ∧
      ¬a.Holds record.first ∧ ¬b.Holds record.first ∧
      a.last - a.first + 1 < 2 ^ 55 ∧ b.last - b.first + 1 < 2 ^ 55

theorem Disk.contained_iff (accepted : disk.accept = .ok (some layout)) :
    disk.Contained ↔ layout.record.first ≤ disk.lastBlock ∧ layout.a.last ≤ disk.lastBlock ∧
      ¬layout.a.Holds layout.record.first ∧ ¬layout.b.Holds layout.record.first ∧
      layout.a.last - layout.a.first + 1 < 2 ^ 55 ∧
        layout.b.last - layout.b.first + 1 < 2 ^ 55 := by
  have listed := lists_iff accepted
  constructor
  · intro contained
    exact contained _ _ _ ((listed .record _).mpr rfl) ((listed .slotA _).mpr rfl)
      ((listed .slotB _).mpr rfl)
  intro held record a b isRecord isA isB
  cases (listed ..).mp isRecord
  cases (listed ..).mp isA
  cases (listed ..).mp isB
  exact held

variable {slot : Partition}

theorem reads_within (ordered : slot.first ≤ slot.last)
    (word : slot.last < 2 ^ 64) (inside : slot.last ≤ lastBlock) (counted : slot.bytes = .ok size)
    {set : SetHeader} (parsed : SetHeader.parse block size = .ok set) (file : File)
    (aligned : Bool) : ∃ reads, set.reads slot file aligned = .ok reads ∧
      ∀ read ∈ reads, ∀ block, read.1 ≤ block → block < read.1 + read.2 / blockBytes →
        slot.Holds block ∧ block ≤ lastBlock := by
  obtain ⟨_, rfl⟩ := Partition.bytes_eq_ok counted
  obtain ⟨_, behind, even, ends⟩ := SetHeader.parse_eq_ok parsed file
  rw [SetHeader.reads]
  dsimp only [SetHeader.locate]
  split
  · exact ⟨[], rfl, by simp⟩
  rw [blockBytes] at behind even ends
  generalize whole : ((set.files file).2 + (blockBytes - 1)) / blockBytes * blockBytes = bytes
  have rounded : bytes % blockBytes = 0 := whole ▸ Nat.mul_mod_left ..
  have blocks : (set.files file).1 / blockBytes + bytes / blockBytes ≤
      slot.last - slot.first + 1 := by
    rw [blockBytes] at whole ⊢
    omega
  obtain ⟨reads, read, within⟩ := transfers_within slot ((set.files file).1 / blockBytes) bytes
    (aligned && decide (bytes ≤ bufferBytes file)) 0 (Nat.zero_mod _) rounded (by omega)
  refine ⟨reads, read, ?_⟩
  intro transfer member block low high
  obtain ⟨starts, stops⟩ := within transfer member
  have stay : slot.first ≤ block ∧ block ≤ slot.last :=
    ⟨Nat.le_trans (Nat.le_trans (Nat.le_add_right ..) starts) low, by omega⟩
  exact ⟨stay, Nat.le_trans stay.2 inside⟩

def lastBlockSet (slot : Partition) : SetHeader where
  files
    | .conf => ((slot.last - slot.first) * blockBytes, 1)
    | _ => (blockBytes, 0)

theorem last_le_of_reads (more : slot.first < slot.last) (counted : slot.bytes = .ok size)
    (within : ∀ block set, SetHeader.parse block size = .ok set → ∀ file aligned,
      ∃ reads, set.reads slot file aligned = .ok reads ∧
        ∀ read ∈ reads, ∀ block, read.1 ≤ block → block < read.1 + read.2 / blockBytes →
          slot.Holds block ∧ block ≤ lastBlock) : slot.last ≤ lastBlock := by
  obtain ⟨small, rfl⟩ := Partition.bytes_eq_ok counted
  have parsed := @SetHeader.parse_toBlock (lastBlockSet slot)
    ((slot.last - slot.first + 1) * blockBytes) (by
      intro file
      rw [SetHeader.Fits, lastBlockSet]
      cases file <;> dsimp only [blockBytes] <;> omega)
  obtain ⟨reads, read, each⟩ := within _ _ parsed .conf false
  rw [SetHeader.reads] at read
  dsimp only [SetHeader.locate, lastBlockSet] at read
  rw [if_neg (by decide)] at read
  obtain ⟨length, member, sized⟩ := transfers_start _ (by decide) read
  have place : slot.first + (slot.last - slot.first) * blockBytes / blockBytes = slot.last := by
    rw [blockBytes]
    omega
  have one : length / blockBytes = 1 := by
    rw [sized, Bool.false_and]
    decide
  rw [place] at member
  exact (each _ member slot.last (Nat.le_refl _) (by rw [one]; omega)).2

/-- The loader's arithmetic fits and it stays in its partitions exactly when the listed partitions
lie on the disk and apart. -/
theorem accepted_safe_iff {disk : Disk} {layout : Layout}
    (accepted : disk.accept = .ok (some layout)) : Safe disk.lastBlock layout ↔ disk.Contained := by
  obtain ⟨_, _, _, _, behind⟩ := Disk.accept_eq_some accepted
  rw [Disk.contained_iff accepted]
  obtain ⟨orderedRecord, _⟩ := Disk.accept_ordered accepted .record
  obtain ⟨orderedA, wordA⟩ := Disk.accept_ordered accepted .slotA
  obtain ⟨orderedB, wordB⟩ := Disk.accept_ordered accepted .slotB
  constructor
  · intro safe
    obtain ⟨sizeA, countedA, withinA⟩ := safe.files .a
    obtain ⟨sizeB, countedB, _⟩ := safe.files .b
    refine ⟨safe.record.2.1, ?_, safe.record.2.2 .a, safe.record.2.2 .b,
      (Partition.bytes_eq_ok countedA).1, (Partition.bytes_eq_ok countedB).1⟩
    rcases Nat.lt_or_ge layout.a.first layout.a.last with more | one
    · exact last_le_of_reads more countedA withinA
    · exact Nat.le_trans one (safe.header .a).2
  rintro ⟨recordInside, insideA, apartA, apartB, smallA, smallB⟩
  refine ⟨?_, ?_, ⟨⟨Nat.le_refl _, orderedRecord⟩, recordInside, ?_⟩⟩
  · intro slot
    cases slot with
    | a => exact ⟨⟨Nat.le_refl _, orderedA⟩, Nat.le_trans orderedA insideA⟩
    | b => exact ⟨⟨Nat.le_refl _, orderedB⟩, Nat.le_trans orderedB behind⟩
  · intro slot
    cases slot with
    | a =>
      refine ⟨_, Partition.bytes_eq orderedA smallA, fun block set parsed file aligned => ?_⟩
      exact reads_within orderedA wordA insideA (Partition.bytes_eq orderedA smallA) parsed
        file aligned
    | b =>
      refine ⟨_, Partition.bytes_eq orderedB smallB, fun block set parsed file aligned => ?_⟩
      exact reads_within orderedB wordB behind (Partition.bytes_eq orderedB smallB) parsed
        file aligned
  · intro slot
    cases slot with
    | a => exact apartA
    | b => exact apartB

def gptEntry (part : Part) (partition : Partition) : Bytes :=
  part.guid ++ List.replicate 16 0 ++ leBytes 8 partition.first ++ leBytes 8 partition.last ++
    List.replicate 80 0

def gptEntries (layout : Layout) : Bytes :=
  gptEntry .record layout.record ++ gptEntry .slotA layout.a ++ gptEntry .slotB layout.b

def gptHead : Bytes := gptSignature ++ leBytes 4 0x10000 ++ leBytes 4 92

def gptTail (layout : Layout) (lastUsable : Nat) : Bytes :=
  List.replicate 4 0 ++ leBytes 8 1 ++ List.replicate 8 0 ++ leBytes 8 34 ++ leBytes 8 lastUsable ++
    List.replicate 16 0 ++ leBytes 8 2 ++ leBytes 4 3 ++ leBytes 4 128 ++
    leBytes 4 (crc32 (gptEntries layout))

def gptBlock (layout : Layout) (lastUsable : Nat) : Bytes :=
  gptHead ++ leBytes 4 (crc32 (gptHead ++ List.replicate 4 0 ++ gptTail layout lastUsable)) ++
    gptTail layout lastUsable

def gptDisk (lastBlock : Nat) (layout : Layout) (lastUsable : Nat) : Disk where
  lastBlock := lastBlock
  read lba length :=
    let written := if lba = 1 then gptBlock layout lastUsable
      else if lba = 2 then gptEntries layout else []
    some ⟨(written ++ List.replicate length 0).take length, by
      rw [List.length_take, List.length_append, List.length_replicate]
      omega⟩

theorem accepted_safe_apart : let layout : Layout := ⟨⟨64, 71⟩, ⟨128, 1023⟩, ⟨1024, 2047⟩⟩
    (gptDisk 4095 layout 4062).accept = .ok (some layout) ∧ Safe 4095 layout := by
  have accepted : (gptDisk 4095 ⟨⟨64, 71⟩, ⟨128, 1023⟩, ⟨1024, 2047⟩⟩ 4062).accept =
      .ok (some ⟨⟨64, 71⟩, ⟨128, 1023⟩, ⟨1024, 2047⟩⟩) := by decide +kernel
  exact ⟨accepted, (accepted_safe_iff accepted).mpr ((Disk.contained_iff accepted).mpr (by decide))⟩

/-- A record that is the first block of slot A, a slot A past the end of the disk, and a slot A with
a size that is not a word. -/
def recordInSlot : Layout := ⟨⟨128, 128⟩, ⟨128, 1023⟩, ⟨1024, 2047⟩⟩

def slotPastEnd : Layout := ⟨⟨64, 71⟩, ⟨4096, 5000⟩, ⟨1024, 2047⟩⟩

def slotTooLarge : Layout := ⟨⟨64, 71⟩, ⟨128, 2 ^ 56⟩, ⟨1024, 2047⟩⟩

/-- The loader accepts disks laid out in each of these ways. -/
theorem accepted_unsafe : ((gptDisk 4095 recordInSlot 4062).accept = .ok (some recordInSlot) ∧
        recordInSlot.a.Holds recordInSlot.record.first ∧ ¬Safe 4095 recordInSlot) ∧
      ((gptDisk 4095 slotPastEnd 5000).accept = .ok (some slotPastEnd) ∧
        4095 < slotPastEnd.a.first ∧ ¬Safe 4095 slotPastEnd) ∧
      ((gptDisk 4095 slotTooLarge (2 ^ 56)).accept = .ok (some slotTooLarge) ∧
        slotTooLarge.a.bytes = .error .overflow ∧ ¬Safe 4095 slotTooLarge) := by
  have overflow : (slotTooLarge.slot .a).bytes = .error .overflow := by decide
  refine ⟨⟨by decide +kernel, by decide, fun safe => safe.record.2.2 .a (by decide)⟩,
    ⟨by decide +kernel, by decide, fun safe => absurd (safe.header .a).2 (by decide)⟩,
    ⟨by decide +kernel, overflow, fun safe => ?_⟩⟩
  obtain ⟨_, counted, _⟩ := safe.files .a
  rw [overflow] at counted
  contradiction

end Bhaskix.Loader
