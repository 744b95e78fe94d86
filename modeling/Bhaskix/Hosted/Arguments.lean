import Bhaskix.Library.Bytes
import Bhaskix.Library.Merkle

namespace Bhaskix.Hosted.Exec

open Library
open List hiding append below count length min tail

abbrev maxStrings : Nat := 64
abbrev maxBytes : Nat := 2048
abbrev chunk : Nat := 256
abbrev page : Nat := 4096

abbrev Bytes : Type := List UInt8

inductive Errno
  | efault
  | e2big
  deriving DecidableEq, Repr

abbrev Memory : Type := Nat → Option (Nat → UInt8)

namespace Memory

variable (memory : Memory)

def byte (address : Nat) : Option UInt8 :=
  if address < 2 ^ 64 then (memory (address / page)).map (· (address % page)) else none

def fetch (address : Nat) : Nat → Option Bytes
  | 0 => some []
  | count + 1 => (memory.byte address).bind fun byte =>
    (fetch (address + 1) count).map (byte :: ·)

def word (address : Nat) : Option Nat := (memory.fetch address 8).map leValue

end Memory

abbrev Trace : Type := List (Nat × Nat)

def upToNul : Bytes → Option Bytes
  | [] => none
  | byte :: rest => if byte = 0 then some [] else (upToNul rest).map (byte :: ·)

/-- The copy of a string from where `out` has got to. No fetch leaves the page it starts in. -/
def readString (memory : Memory) (at' room : Nat) : Nat → Bytes → Trace × Except Errno Bytes
  | 0, _ => ([], .error .e2big)
  | fuel + 1, out =>
    if out.length = room then ([], .error .e2big)
    else if 2 ^ 64 ≤ at' + out.length then ([], .error .efault)
    else
      let address := at' + out.length
      let want := min (min (room - out.length) chunk) (page - address % page)
      match memory.fetch address want with
      | none => ([(address, want)], .error .efault)
      | some slice =>
        match upToNul slice with
        | some last => ([(address, want)], .ok (out ++ last))
        | none =>
          let rest := readString memory at' room fuel (out ++ slice)
          ((address, want) :: rest.1, rest.2)

structure Arguments where
  bytes : Bytes
  ends : List Nat
  argc : Nat

namespace Arguments

def new : Arguments := ⟨[], [], 0⟩

variable (self : Arguments) (memory : Memory) (room : Nat)

def append (string : Bytes) : Arguments :=
  { self with
    bytes := self.bytes ++ (string ++ [0])
    ends := self.ends ++ [self.bytes.length + string.length] }

def push (at' : Nat) (self : Arguments) : Trace × Except Errno Arguments :=
  if self.ends.length = 2 * maxStrings then ([], .error .e2big)
  else
    let read := readString memory at' (maxBytes - self.bytes.length) (maxBytes + 1) []
    (read.1, read.2.map self.append)

def readFrom (memory : Memory) (vector : Nat) :
    Nat → Nat → Arguments → Trace × Except Errno (Nat × Arguments)
  | 0, _, _ => ([], .error .e2big)
  | fuel + 1, taken, self =>
    let slot := vector + taken * 8
    if 2 ^ 64 ≤ slot then ([], .error .efault)
    else match memory.word slot with
    | none => ([(slot, 8)], .error .efault)
    | some pointer =>
      if pointer = 0 then ([(slot, 8)], .ok (taken, self))
      else if taken = maxStrings then ([(slot, 8)], .error .e2big)
      else match self.push memory pointer with
      | (trace, .error errno) => ((slot, 8) :: trace, .error errno)
      | (trace, .ok pushed) =>
        let rest := readFrom memory vector fuel (taken + 1) pushed
        ((slot, 8) :: (trace ++ rest.1), rest.2)

def readVector (vector : Nat) (self : Arguments) : Trace × Except Errno (Nat × Arguments) :=
  if vector = 0 then ([], .ok (0, self))
  else readFrom memory vector (maxStrings + 1) 0 self

def read (argv envp : Nat) : Trace × Except Errno Arguments :=
  match readVector memory argv new with
  | (trace, .error errno) => (trace, .error errno)
  | (trace, .ok (argc, self)) =>
    let rest := readVector memory envp { self with argc := argc }
    (trace ++ rest.1, rest.2.map Prod.snd)

def string (index : Nat) : Bytes :=
  slice self.bytes (if index = 0 then 0 else self.ends.getD (index - 1) 0 + 1)
    (self.ends.getD index 0)

def fill (start stop : Nat) : Except Errno (List Bytes) :=
  if room < stop - start then .error .e2big
  else .ok ((List.range' start (stop - start)).map self.string)

def arguments : Except Errno (List Bytes) :=
  self.fill room 0 self.argc

def environment : Except Errno (List Bytes) :=
  self.fill room self.argc self.ends.length

end Arguments

def Spells (memory : Memory) (address : Nat) : Bytes → Prop
  | [] => True
  | byte :: rest => memory.byte address = some byte ∧ byte ≠ 0 ∧ Spells memory (address + 1) rest

inductive Spelled (memory : Memory) (address room : Nat) : Except Errno Bytes → Prop
  | whole {string : Bytes} (spells : Spells memory address string)
      (nul : memory.byte (address + string.length) = some 0) (fits : string.length < room) :
      Spelled memory address room (.ok string)
  | long {string : Bytes} (spells : Spells memory address string) (full : string.length = room) :
      Spelled memory address room (.error .e2big)
  | blind {string : Bytes} (spells : Spells memory address string) (fits : string.length < room)
      (none : memory.byte (address + string.length) = none) :
      Spelled memory address room (.error .efault)

/-- What a vector is from a slot on, after `taken` strings and with room for so many bytes. -/
inductive Scan (memory : Memory) : Nat → Nat → Nat → Except Errno (List Bytes) → Prop
  | ends {slot taken room : Nat} (null : memory.word slot = some 0) :
      Scan memory slot taken room (.ok [])
  | blind {slot taken room : Nat} (none : memory.word slot = none) :
      Scan memory slot taken room (.error .efault)
  | many {slot taken room pointer : Nat} (held : memory.word slot = some pointer)
      (real : pointer ≠ 0) (full : taken = maxStrings) : Scan memory slot taken room (.error .e2big)
  | stop {slot taken room pointer : Nat} {errno : Errno} (held : memory.word slot = some pointer)
      (real : pointer ≠ 0) (few : taken ≠ maxStrings)
      (spelled : Spelled memory pointer room (.error errno)) :
      Scan memory slot taken room (.error errno)
  | next {slot taken room pointer : Nat} {string : Bytes} {result : Except Errno (List Bytes)}
      (held : memory.word slot = some pointer) (real : pointer ≠ 0) (few : taken ≠ maxStrings)
      (spelled : Spelled memory pointer room (.ok string))
      (rest : Scan memory (slot + 8) (taken + 1) (room - (string.length + 1)) result) :
      Scan memory slot taken room (result.map (string :: ·))

inductive Named (memory : Memory) : Nat → Nat → Prop
  | entry {slot offset : Nat} (inside : offset < 8) : Named memory slot (slot + offset)
  | string {slot pointer : Nat} {bytes : Bytes} (held : memory.word slot = some pointer)
      (real : pointer ≠ 0) (spells : Spells memory pointer bytes) :
      Named memory slot (pointer + bytes.length)
  | next {slot pointer address : Nat} (held : memory.word slot = some pointer) (real : pointer ≠ 0)
      (named : Named memory (slot + 8) address) : Named memory slot address

section

variable {memory : Memory}

theorem byte_same_page (same : first / page = second / page)
    (absent : memory.byte first = none) : memory.byte second = none := by
  dsimp only [Memory.byte, page] at *
  by_cases low : second < 2 ^ 64
  · rw [if_pos (by omega)] at absent
    rw [if_pos low, ← same, Option.map_eq_none_iff.mp absent]
    rfl
  · exact if_neg low

theorem fetch_eq_none : ∀ {address : Nat}, memory.fetch address count = none →
    ∃ offset < count, memory.byte (address + offset) = none := by
  induction count with
  | zero =>
    intro address none
    cases none
  | succ count later =>
    intro address none
    rw [Memory.fetch] at none
    cases held : memory.byte address with
    | none => exact ⟨0, Nat.zero_lt_succ _, held⟩
    | some byte =>
      rw [held] at none
      obtain ⟨offset, inside, none⟩ := later (Option.map_eq_none_iff.mp none)
      exact ⟨offset + 1, Nat.succ_lt_succ inside, by rw [← none]; congr 1; omega⟩

theorem spells_append : ∀ {address : Nat}, Spells memory address (first ++ second) ↔
      Spells memory address first ∧ Spells memory (address + first.length) second := by
  induction first with
  | nil =>
    intro address
    exact ⟨fun spells => ⟨trivial, spells⟩, And.right⟩
  | cons byte first later =>
    intro address
    rw [cons_append, Spells, Spells, later, length_cons,
      show address + (first.length + 1) = address + 1 + first.length by omega]
    tauto

theorem upToNul_fetch : ∀ {address : Nat} {slice : Bytes},
    memory.fetch address count = some slice → slice.length = count ∧
      match upToNul slice with
      | some last => Spells memory address last ∧ memory.byte (address + last.length) = some 0 ∧
          last.length < count
      | none => Spells memory address slice := by
  induction count with
  | zero =>
    intro address slice got
    cases got
    exact ⟨rfl, trivial⟩
  | succ count later =>
    intro address slice got
    rw [Memory.fetch] at got
    obtain ⟨byte, held, tail⟩ := Option.bind_eq_some_iff.mp got
    obtain ⟨rest, fetched, rfl⟩ := Option.map_eq_some_iff.mp tail
    obtain ⟨length, spelled⟩ := later fetched
    refine ⟨congrArg (· + 1) length, ?_⟩
    rw [upToNul]
    by_cases nul : byte = 0
    · subst nul
      exact ⟨trivial, held, Nat.zero_lt_succ _⟩
    rw [if_neg nul]
    cases last : upToNul rest with
    | none =>
      rw [last] at spelled
      exact ⟨held, nul, spelled⟩
    | some string =>
      rw [last] at spelled
      refine ⟨⟨held, nul, spelled.1⟩, ?_, Nat.succ_lt_succ spelled.2.2⟩
      rw [← spelled.2.1, length_cons]
      congr 1
      omega

theorem Spells.byte : ∀ {address place : Nat}, Spells memory address string →
    place < string.length → ∃ byte, memory.byte (address + place) = some byte ∧ byte ≠ 0 := by
  induction string with
  | nil =>
    intro address place _ inside
    cases inside
  | cons byte rest later =>
    intro address place spells inside
    cases place with
    | zero => exact ⟨byte, spells.1, spells.2.1⟩
    | succ place =>
      rw [show address + (place + 1) = address + 1 + place by omega]
      exact later spells.2.2 (Nat.lt_of_succ_lt_succ inside)

theorem Spells.unique : ∀ {second : Bytes} {address : Nat},
    Spells memory address first → Spells memory address second → first.length = second.length →
      first = second := by
  induction first with
  | nil =>
    intro second address _ _ length
    exact (length_eq_zero_iff.mp length.symm).symm
  | cons byte first later =>
    intro second address one two length
    cases second with
    | nil => cases length
    | cons other second =>
      cases one.1.symm.trans two.1
      rw [later one.2.2 two.2.2 (Nat.succ.inj length)]

theorem Spelled.unique
    (one : Spelled memory address room first) (two : Spelled memory address room second) :
    first = second := by
  -- Neither string goes on past where the other stops.
  have stops : ∀ {s t : Bytes}, Spells memory address s → Spells memory address t →
      (memory.byte (address + s.length) = some 0 ∨ memory.byte (address + s.length) = none) →
        t.length ≤ s.length := by
    intro s t _ spells stop
    by_contra longer
    obtain ⟨byte, held, real⟩ := spells.byte (Nat.not_le.mp longer)
    rcases stop with nul | none
    · exact real (Option.some.inj (held.symm.trans nul))
    · cases held.symm.trans none
  cases one with
  | whole spells nul fits =>
    cases two with
    | whole spells' nul' fits' =>
      rw [spells.unique spells' (Nat.le_antisymm (stops spells' spells (.inl nul'))
        (stops spells spells' (.inl nul)))]
    | long spells' full => exact absurd (stops spells spells' (.inl nul)) (by omega)
    | blind spells' fits' none =>
      have same := Nat.le_antisymm (stops spells' spells (.inr none))
        (stops spells spells' (.inl nul))
      rw [same] at nul
      cases nul.symm.trans none
  | long spells full =>
    cases two with
    | whole spells' nul fits => exact absurd (stops spells' spells (.inl nul)) (by omega)
    | long => rfl
    | blind spells' fits none => exact absurd (stops spells' spells (.inr none)) (by omega)
  | blind spells fits none =>
    cases two with
    | whole spells' nul fits' =>
      have same := Nat.le_antisymm (stops spells' spells (.inl nul))
        (stops spells spells' (.inr none))
      rw [same] at none
      cases nul.symm.trans none
    | long spells' full => exact absurd (stops spells spells' (.inr none)) (by omega)
    | blind => rfl

theorem Scan.unique (one : Scan memory slot taken room first) :
    Scan memory slot taken room second → first = second := by
  induction one generalizing second with
  | ends null =>
    intro two
    cases two with
    | ends => rfl
    | blind none => cases null.symm.trans none
    | many held real | stop held real | next held real =>
      exact absurd (Option.some.inj (held.symm.trans null)) real
  | blind none =>
    intro two
    cases two with
    | ends null => cases null.symm.trans none
    | blind => rfl
    | many held | stop held | next held => cases held.symm.trans none
  | many held real full =>
    intro two
    cases two with
    | ends null => exact absurd (Option.some.inj (held.symm.trans null)) real
    | blind none => cases held.symm.trans none
    | many => rfl
    | stop _ _ few | next _ _ few => exact absurd full few
  | stop held real few spelled =>
    intro two
    cases two with
    | ends null => exact absurd (Option.some.inj (held.symm.trans null)) real
    | blind none => cases held.symm.trans none
    | many _ _ full => exact absurd full few
    | stop held' _ _ spelled' =>
      cases held.symm.trans held'
      cases spelled.unique spelled'
      rfl
    | next held' _ _ spelled' =>
      cases held.symm.trans held'
      cases spelled.unique spelled'
  | next held real few spelled _ later =>
    intro two
    cases two with
    | ends null => exact absurd (Option.some.inj (held.symm.trans null)) real
    | blind none => cases held.symm.trans none
    | many _ _ full => exact absurd full few
    | stop held' _ _ spelled' =>
      cases held.symm.trans held'
      cases spelled.unique spelled'
    | next held' _ _ spelled' rest' =>
      cases held.symm.trans held'
      cases spelled.unique spelled'
      rw [later rest']

def Within (names : Nat → Prop) (trace : Trace) : Prop :=
  ∀ fetched ∈ trace, ∀ offset < fetched.2,
    ∃ address, names address ∧ address / page = (fetched.1 + offset) / page

theorem readString_spelled {at' room fuel : Nat} : ∀ {out : Bytes}, Spells memory at' out →
    out.length ≤ room → room < fuel + out.length →
      Spelled memory at' room (readString memory at' room fuel out).2 ∧
        Within (fun address => ∃ bytes, Spells memory at' bytes ∧ address = at' + bytes.length)
          (readString memory at' room fuel out).1 := by
  induction fuel with
  | zero =>
    intro out _ _ enough
    omega
  | succ fuel later =>
    intro out spells short enough
    have here : Within (fun address => ∃ bytes, Spells memory at' bytes ∧
        address = at' + bytes.length) [(at' + out.length,
          min (min (room - out.length) chunk) (page - (at' + out.length) % page))] := by
      intro fetched only offset inside
      cases mem_singleton.mp only
      refine ⟨_, ⟨out, spells, rfl⟩, ?_⟩
      dsimp only [page] at inside ⊢
      omega
    rw [readString]
    split
    case isTrue full => exact ⟨.long spells full, nofun⟩
    case isFalse room' =>
      have fits : out.length < room := by omega
      split
      case isTrue high =>
        exact ⟨.blind spells fits (if_neg (by omega)), nofun⟩
      case isFalse low =>
        dsimp only
        split
        case h_1 none =>
          obtain ⟨offset, inside, none⟩ := fetch_eq_none none
          refine ⟨.blind spells fits (byte_same_page ?_ none), here⟩
          dsimp only [page] at inside ⊢
          omega
        case h_2 slice got =>
          obtain ⟨length, spelled⟩ := upToNul_fetch got
          split
          case h_1 last found =>
            rw [found] at spelled
            refine ⟨.whole (spells_append.mpr ⟨spells, spelled.1⟩) ?_ ?_, here⟩
            · rw [List.length_append, ← Nat.add_assoc]
              exact spelled.2.1
            · rw [List.length_append]
              omega
          case h_2 found =>
            rw [found] at spelled
            have longer : (out ++ slice).length = out.length + slice.length :=
              List.length_append
            obtain ⟨result, within⟩ := later (spells_append.mpr ⟨spells, spelled⟩)
              (by omega) (by dsimp only [page, chunk] at length; omega)
            refine ⟨result, ?_⟩
            intro fetched among
            rcases mem_cons.mp among with rfl | rest
            · exact here _ (mem_singleton_self _)
            · exact within fetched rest

def size (strings : List Bytes) : Nat := (strings.flatMap (· ++ [0])).length

namespace Arguments

theorem length_append (self : Arguments) (string : Bytes) :
    (self.append string).bytes.length = self.bytes.length + (string.length + 1) := by
  simp [append]

theorem readFrom_scan {vector fuel : Nat} : ∀ {taken : Nat} {self : Arguments},
    taken ≤ maxStrings → maxStrings < fuel + taken →
      self.ends.length + maxStrings ≤ 2 * maxStrings + taken →
        (∃ result, Scan memory (vector + taken * 8) taken (maxBytes - self.bytes.length) result ∧
          (readFrom memory vector fuel taken self).2 =
            result.map fun strings => (taken + strings.length, strings.foldl append self)) ∧
          Within (Named memory (vector + taken * 8))
            (readFrom memory vector fuel taken self).1 := by
  induction fuel with
  | zero =>
    intro taken self few enough
    omega
  | succ fuel later =>
    intro taken self few enough held
    have here : Within (Named memory (vector + taken * 8)) [(vector + taken * 8, 8)] := by
      intro fetched only offset inside
      cases mem_singleton.mp only
      exact ⟨_, .entry inside, rfl⟩
    rw [readFrom]
    dsimp only
    split
    case isTrue high =>
      have none : memory.word (vector + taken * 8) = none := by
        rw [Memory.word, Memory.fetch, Memory.byte, if_neg (by omega)]
        rfl
      exact ⟨⟨_, .blind none, rfl⟩, nofun⟩
    case isFalse =>
      split
      case h_1 none => exact ⟨⟨_, .blind none, rfl⟩, here⟩
      case h_2 pointer named =>
        split
        case isTrue null =>
          subst null
          exact ⟨⟨_, .ends named, rfl⟩, here⟩
        case isFalse real =>
          split
          case isTrue full => exact ⟨⟨_, .many named real full, rfl⟩, here⟩
          case isFalse less =>
            obtain ⟨spelled, inside⟩ := @readString_spelled memory pointer
              (maxBytes - self.bytes.length) (maxBytes + 1) [] trivial (Nat.zero_le _)
              (by rw [length_nil]; omega)
            have pages : Within (Named memory (vector + taken * 8))
                (readString memory pointer (maxBytes - self.bytes.length) (maxBytes + 1) []).1 := by
              intro fetched among offset near
              obtain ⟨_, ⟨bytes, spells, rfl⟩, same⟩ := inside fetched among offset near
              exact ⟨_, .string named real spells, same⟩
            rw [push, if_neg (by omega)]
            dsimp only
            cases read : (readString memory pointer (maxBytes - self.bytes.length)
                (maxBytes + 1) []).2 with
            | error errno =>
              rw [read] at spelled
              refine ⟨⟨_, .stop named real less spelled, rfl⟩, ?_⟩
              intro fetched among
              rcases mem_cons.mp among with rfl | rest
              · exact here _ (mem_singleton_self _)
              · exact pages fetched rest
            | ok string =>
              rw [read] at spelled
              have ends : (self.append string).ends.length = self.ends.length + 1 := by
                simp [append]
              obtain ⟨⟨result, scan, done⟩, within⟩ := @later (taken + 1)
                (self.append string) (by omega) (by omega) (by omega)
              rw [length_append, ← Nat.sub_sub,
                show vector + (taken + 1) * 8 = vector + taken * 8 + 8 by omega] at scan
              refine ⟨⟨_, .next named real less spelled scan, ?_⟩, ?_⟩
              · change (readFrom memory vector fuel (taken + 1) (self.append string)).2 = _
                rw [done]
                cases result with
                | error errno => rfl
                | ok strings =>
                  simp only [Except.map, foldl_cons, length_cons]
                  congr 2
                  omega
              · intro fetched among
                rcases mem_cons.mp among with rfl | rest
                · exact here _ (mem_singleton_self _)
                rcases mem_append.mp rest with early | late
                · exact pages fetched early
                intro offset near
                obtain ⟨address, name, same⟩ := within fetched late offset near
                rw [show vector + (taken + 1) * 8 = vector + taken * 8 + 8 by
                  omega] at name
                exact ⟨address, .next named real name, same⟩

def starts (self : Arguments) (index : Nat) : Nat :=
  if index = 0 then 0 else self.ends.getD (index - 1) 0 + 1

structure Holds (table : Arguments) (strings : List Bytes) : Prop where
  count : table.ends.length = strings.length
  bytes : table.bytes = strings.flatMap (· ++ [0])
  last : table.starts strings.length = table.bytes.length
  held : ∀ index (inside : index < strings.length),
    table.string index = strings.get ⟨index, inside⟩ ∧ table.ends.getD index 0 < table.bytes.length

variable {self : Arguments} {strings : List Bytes}

theorem Holds.append (holds : self.Holds strings)
    (string : Bytes) : (self.append string).Holds (strings ++ [string]) := by
  have count := holds.count
  have early : ∀ index < strings.length,
      (self.append string).ends.getD index 0 = self.ends.getD index 0 := by
    intro index inside
    exact getD_append _ _ _ _ (by omega)
  have final : (self.append string).ends.getD strings.length 0 =
      self.bytes.length + string.length := by
    rw [Arguments.append, getD_append_right _ _ _ _ (by omega), count, Nat.sub_self]
    rfl
  have starts : ∀ index ≤ strings.length,
      (self.append string).starts index = self.starts index := by
    intro index inside
    rw [Arguments.starts, Arguments.starts]
    split
    · rfl
    · rw [early _ (by omega)]
  have length := length_append self string
  refine ⟨?_, ?_, ?_, ?_⟩
  · simp [Arguments.append, count]
  · simp [Arguments.append, holds.bytes]
  · rw [List.length_append, length_singleton, Arguments.starts, if_neg (by omega),
      Nat.add_sub_cancel, final, length]
    omega
  intro index inside
  rw [List.length_append, length_singleton] at inside
  change slice (self.append string).bytes ((self.append string).starts index) _ = _ ∧ _
  rw [starts index (by omega)]
  by_cases old : index < strings.length
  · obtain ⟨same, below⟩ := holds.held index old
    rw [early index old]
    refine ⟨?_, by omega⟩
    change slice (self.bytes ++ (string ++ [0])) _ _ = _
    rw [slice_append_left below.le]
    exact same.trans (getElem_append_left old).symm
  · have here : index = strings.length := by omega
    subst here
    rw [final, holds.last]
    refine ⟨?_, by omega⟩
    change slice (self.bytes ++ (string ++ [0])) _ _ = _
    rw [slice_at rfl (Nat.add_sub_cancel_left _ _)]
    simp

theorem Holds.foldl {strings : List Bytes} : ∀ {self : Arguments} {before : List Bytes},
    self.Holds before → (strings.foldl Arguments.append self).Holds (before ++ strings) := by
  induction strings with
  | nil =>
    intro self before holds
    rw [append_nil]
    exact holds
  | cons string strings later =>
    intro self before holds
    rw [append_cons]
    exact later (holds.append string)

theorem Holds.fill (holds : self.Holds strings) (ordered : start ≤ stop)
    (inside : stop ≤ strings.length) (few : stop - start ≤ maxStrings) :
    self.fill maxStrings start stop = .ok (slice strings start stop) := by
  rw [Arguments.fill, if_neg (by omega)]
  congr 1
  apply ext_getElem
  · simp only [slice, length_map, length_range', length_take, length_drop]
    omega
  intro index near _
  rw [length_map, length_range'] at near
  simp only [slice, getElem_map, getElem_range', getElem_take, getElem_drop,
    Nat.one_mul]
  exact (holds.held (start + index) (by omega)).1

end Arguments

def Listed (memory : Memory) (vector room : Nat) (result : Except Errno (List Bytes)) : Prop :=
  if vector = 0 then result = .ok [] else Scan memory vector 0 room result

inductive Passed (memory : Memory) (argv envp : Nat) : Except Errno (List Bytes × List Bytes) → Prop
  | badArguments {errno : Errno} (listed : Listed memory argv maxBytes (.error errno)) :
      Passed memory argv envp (.error errno)
  | badEnvironment {args : List Bytes} {errno : Errno}
      (listed : Listed memory argv maxBytes (.ok args))
      (listed' : Listed memory envp (maxBytes - size args) (.error errno)) :
      Passed memory argv envp (.error errno)
  | both {args env : List Bytes} (listed : Listed memory argv maxBytes (.ok args))
      (listed' : Listed memory envp (maxBytes - size args) (.ok env)) :
      Passed memory argv envp (.ok (args, env))

theorem Listed.unique
    (one : Listed memory vector room first) (two : Listed memory vector room second) :
    first = second := by
  unfold Listed at one two
  split at one
  case isTrue null =>
    rw [if_pos null] at two
    rw [one, two]
  case isFalse real =>
    rw [if_neg real] at two
    exact one.unique two

theorem Passed.unique (one : Passed memory argv envp first) (two : Passed memory argv envp second) :
    first = second := by
  cases one with
  | badArguments listed =>
    cases two with
    | badArguments other =>
      cases listed.unique other
      rfl
    | badEnvironment other _ | both other _ => cases listed.unique other
  | badEnvironment listed listed' =>
    cases two with
    | badArguments other => cases listed.unique other
    | badEnvironment other other' =>
      cases listed.unique other
      cases listed'.unique other'
      rfl
    | both other other' =>
      cases listed.unique other
      cases listed'.unique other'
  | both listed listed' =>
    cases two with
    | badArguments other => cases listed.unique other
    | badEnvironment other other' =>
      cases listed.unique other
      cases listed'.unique other'
    | both other other' =>
      cases listed.unique other
      cases listed'.unique other'
      rfl

def NamedBy (memory : Memory) (vector address : Nat) : Prop :=
  vector ≠ 0 ∧ Named memory vector address

namespace Arguments

theorem readVector_listed {vector : Nat} {self : Arguments} (room : self.ends.length ≤ maxStrings) :
    (∃ result, Listed memory vector (maxBytes - self.bytes.length) result ∧
      (readVector memory vector self).2 =
        result.map fun strings => (strings.length, strings.foldl append self)) ∧
      Within (NamedBy memory vector) (readVector memory vector self).1 := by
  unfold Listed
  rw [readVector]
  by_cases null : vector = 0
  · rw [if_pos null]
    refine ⟨⟨.ok [], ?_, rfl⟩, nofun⟩
    rw [if_pos null]
  rw [if_neg null]
  obtain ⟨⟨result, scan, done⟩, within⟩ := @readFrom_scan memory vector (maxStrings + 1) 0 self
    (Nat.zero_le _) (by decide) (by omega)
  rw [Nat.zero_mul, Nat.add_zero] at scan within
  refine ⟨⟨result, by rwa [if_neg null], ?_⟩, ?_⟩
  · rw [done]
    simp only [Nat.zero_add]
  · intro fetched among offset near
    obtain ⟨address, named, same⟩ := within fetched among offset near
    exact ⟨address, ⟨null, named⟩, same⟩

end Arguments

def Points (memory : Memory) (slot : Nat) : List Bytes → Prop
  | [] => memory.word slot = some 0
  | string :: rest => (∃ pointer, memory.word slot = some pointer ∧ pointer ≠ 0 ∧
      Spells memory pointer string ∧ memory.byte (pointer + string.length) = some 0) ∧
        Points memory (slot + 8) rest

def Pointed (memory : Memory) (vector : Nat) (strings : List Bytes) : Prop :=
  if vector = 0 then strings = [] else Points memory vector strings

theorem size_cons (string : Bytes) (strings : List Bytes) :
    size (string :: strings) = string.length + 1 + size strings := by
  rw [size, flatMap_cons, List.length_append, List.length_append]
  rfl

theorem scan_ok_iff : ∀ {slot taken room : Nat}, taken ≤ maxStrings →
    (Scan memory slot taken room (.ok strings) ↔
      Points memory slot strings ∧ taken + strings.length ≤ maxStrings ∧ size strings ≤ room) := by
  induction strings with
  | nil =>
    intro slot taken room few
    constructor
    · intro scan
      generalize result : (Except.ok [] : Except Errno (List Bytes)) = done at scan
      cases scan with
      | ends null => exact ⟨null, few, Nat.zero_le _⟩
      | @next _ _ _ _ _ rest => cases rest <;> cases result
      | _ => cases result
    · intro points
      exact .ends points.1
  | cons string strings later =>
    intro slot taken room few
    rw [size_cons, length_cons]
    constructor
    · intro scan
      generalize result : (Except.ok (string :: strings) : Except Errno _) = done at scan
      cases scan with
      | @next _ _ _ pointer other rest held real less spelled scan =>
        cases rest with
        | error errno => cases result
        | ok rest =>
          cases result
          obtain ⟨points, count, room'⟩ := (later (by omega)).mp scan
          cases spelled with
          | whole spells nul fits =>
            exact ⟨⟨⟨pointer, held, real, spells, nul⟩, points⟩, by omega, by omega⟩
      | _ => cases result
    · rintro ⟨⟨⟨pointer, held, real, spells, nul⟩, points⟩, count, room'⟩
      exact .next held real (by omega) (.whole spells nul (by omega))
        ((later (by omega)).mpr ⟨points, by omega, by omega⟩)

theorem listed_ok_iff : Listed memory vector room (.ok strings) ↔
      Pointed memory vector strings ∧ strings.length ≤ maxStrings ∧ size strings ≤ room := by
  rw [Listed, Pointed]
  split
  · constructor
    · intro same
      cases same
      exact ⟨rfl, Nat.zero_le _, Nat.zero_le _⟩
    · intro pointed
      rw [pointed.1]
  · rw [scan_ok_iff (Nat.zero_le _), Nat.zero_add]

namespace Arguments

theorem argc_foldl (strings : List Bytes) (self : Arguments) :
    (strings.foldl append self).argc = self.argc := by
  induction strings generalizing self with
  | nil => rfl
  | cons string strings later => exact later _

theorem holds_new : new.Holds [] := ⟨rfl, rfl, rfl, nofun⟩

theorem read_passed (memory : Memory) (argv envp : Nat) :
    (∃ result, Passed memory argv envp result ∧
      match result with
      | .error errno => (read memory argv envp).2 = .error errno
      | .ok (args, env) => ∃ self, (read memory argv envp).2 = .ok self ∧
          self.arguments maxStrings = .ok args ∧ self.environment maxStrings = .ok env) ∧
      Within (fun address => NamedBy memory argv address ∨ NamedBy memory envp address)
        (read memory argv envp).1 := by
  obtain ⟨⟨result, listed, done⟩, within⟩ := @readVector_listed memory argv new (Nat.zero_le _)
  rw [read]
  have first : Within (fun address => NamedBy memory argv address ∨ NamedBy memory envp address)
      (readVector memory argv new).1 := by
    intro fetched among offset near
    obtain ⟨address, named, same⟩ := within fetched among offset near
    exact ⟨address, .inl named, same⟩
  generalize readVector memory argv new = read at done first
  obtain ⟨trace, answer⟩ := read
  cases result with
  | error errno =>
    cases done
    exact ⟨⟨_, .badArguments listed, rfl⟩, first⟩
  | ok args =>
    cases done
    have holds : Holds { args.foldl append new with argc := args.length } args := by
      have before := @Holds.foldl args new [] holds_new
      exact { before with }
    obtain ⟨_, few, _⟩ := listed_ok_iff.mp listed
    obtain ⟨⟨result, listed', done⟩, within'⟩ := @readVector_listed memory envp
      { args.foldl append new with argc := args.length } (by rw [holds.count]; exact few)
    rw [holds.bytes] at listed'
    dsimp only
    refine ⟨?_, ?_⟩
    · cases result with
      | error errno =>
        refine ⟨_, .badEnvironment listed listed', ?_⟩
        rw [done]
        rfl
      | ok env =>
        obtain ⟨_, few', _⟩ := listed_ok_iff.mp listed'
        have total := @Holds.foldl env _ _ holds
        refine ⟨_, .both listed listed', _, by rw [done]; rfl, ?_, ?_⟩
        · have fill := total.fill (Nat.zero_le args.length) (by simp) (by omega)
          rw [arguments, argc_foldl, fill, slice, drop_zero, Nat.sub_zero, take_left]
        have fill := total.fill (show args.length ≤ (args ++ env).length by simp)
          (Nat.le_refl _) (by simp only [List.length_append]; omega)
        rw [environment, argc_foldl, total.count, fill, slice, drop_left, List.length_append,
          Nat.add_sub_cancel_left, take_length]
    · intro fetched among
      rcases mem_append.mp among with early | late
      · exact first fetched early
      intro offset near
      obtain ⟨address, named, same⟩ := within' fetched late offset near
      exact ⟨address, .inr named, same⟩

end Arguments

end

end Bhaskix.Hosted.Exec
