import Bhaskix.Loader.Boots

namespace Bhaskix.Loader

open Library Sig

theorem floor_or_bit (bits place : Nat) :
    floor (bits ||| 1 <<< place) = max (floor bits) (place + 1) := by
  rw [Nat.one_shiftLeft, floor, floor]
  apply Nat.le_antisymm
  · rw [Nat.size_le]
    apply Nat.or_lt_two_pow
    · calc bits < 2 ^ bits.size := Nat.lt_size_self bits
        _ ≤ 2 ^ max bits.size (place + 1) :=
          Nat.pow_le_pow_right (by decide) (Nat.le_max_left _ _)
    · exact Nat.pow_lt_pow_right (by decide)
        (Nat.lt_of_lt_of_le (Nat.lt_succ_self place) (Nat.le_max_right _ _))
  · refine Nat.max_le.mpr ⟨Nat.size_le_size Nat.left_le_or, ?_⟩
    rw [← Nat.size_pow]
    exact Nat.size_le_size Nat.right_le_or

theorem advance_eq_some {floor : Nat} (moves : advance floor booted = some bit) :
    booted.verified = true ∧ booted.markedGood = true ∧ floor < booted.version ∧
      bit = 1 <<< (booted.version - 1) := by
  rw [advance] at moves
  split at moves
  · cases moves
  case isFalse held =>
    simp only [Bool.or_eq_true, Bool.not_eq_true', decide_eq_true_eq, not_or, Bool.not_eq_false,
      Nat.not_le] at held
    rw [bitFor] at moves
    split at moves
    · cases moves
    · exact ⟨held.1.1, held.1.2, held.2, (Option.some.inj moves).symm⟩

namespace Tpm

theorem floor_writeLock (tpm : Tpm) : tpm.writeLock.floor = tpm.floor := by
  obtain ⟨index⟩ := tpm
  cases index with
  | none | some index => rfl

variable {index : Public × Nat}

theorem floor_some (ours : index.1.isOurs = true) :
    floor ⟨some index⟩ = Loader.floor (held index) := if_pos ours

theorem floor_setBits (ours : index.1.isOurs = true) (open' : index.1.locked = false) (bits : Nat) :
    (setBits bits ⟨some index⟩).floor = Loader.floor (held index ||| bits) := by
  obtain ⟨public', old⟩ := index
  have unlocked : ¬public'.locked = true := by
    rw [open']
    decide
  rw [setBits]
  dsimp only
  rw [if_neg unlocked]
  exact if_pos ours

theorem floor_advanceAndLock (ours : index.1.isOurs = true)
    (open' : index.1.locked = false) (booted : Booted) (advances : Bool) :
    (advanceAndLock (.here (held index)) booted advances ⟨some index⟩).floor =
        Loader.floor (held index) ∨ booted.verified = true ∧ booted.markedGood = true ∧
        Loader.floor (held index) < booted.version ∧
        (advanceAndLock (.here (held index)) booted advances ⟨some index⟩).floor =
          booted.version := by
  rw [advanceAndLock, floor_writeLock]
  cases moves : advance (Loader.floor (held index)) booted with
  | none => exact .inl (floor_some ours)
  | some bit =>
    cases advances with
    | false => exact .inl (floor_some ours)
    | true =>
      obtain ⟨verified, good, above, rfl⟩ := advance_eq_some moves
      refine .inr ⟨verified, good, above, ?_⟩
      change (setBits (1 <<< (booted.version - 1)) ⟨some index⟩).floor = _
      rw [floor_setBits ours open', floor_or_bit]
      omega

theorem openCounter_cases (tpm : Tpm) (slotDisk defines : Bool) :
    (∃ index : Public × Nat, index.1.isOurs = true ∧ index.1.locked = false ∧
        tpm.restart.openCounter slotDisk defines = (.here (held index), ⟨some index⟩) ∧
        tpm.floor = Loader.floor (held index)) ∨
      ∃ other : Tpm, tpm.restart.openCounter slotDisk defines = (.absent, other) ∧
        other.floor = tpm.floor := by
  obtain ⟨index⟩ := tpm
  cases index with
  | none =>
    rw [restart, Option.map_none, openCounter]
    dsimp only
    split
    · exact .inl ⟨(.defined, 0), rfl, rfl, rfl, rfl⟩
    · exact .inr ⟨_, rfl, rfl⟩
  | some index =>
    rw [restart, Option.map_some, openCounter, floor]
    dsimp only
    have same : ({ index.1 with locked := false } : Public).isOurs = index.1.isOurs := rfl
    rw [same]
    split
    case isTrue ours => exact .inl ⟨({ index.1 with locked := false }, index.2), ours, rfl, rfl,
      rfl⟩
    case isFalse other => exact .inr ⟨_, rfl, if_neg other⟩

end Tpm

theorem floor_settle (tpm : Tpm) (slotDisk defines advances : Bool) (record : Option Record)
    (chosen : Option Chosen) : let opened := tpm.restart.openCounter slotDisk defines
    let settled := settle record chosen opened.1 advances opened.2
    settled.floor = tpm.floor ∨ ∃ picked, chosen = some picked ∧ markedGood record picked = true ∧
        tpm.floor < settled.floor ∧ picked.version = some settled.floor := by
  intro opened settled
  rcases tpm.openCounter_cases slotDisk defines with
    ⟨index, ours, unlocked, found, before⟩ | ⟨other, found, before⟩
  · cases chosen with
    | none =>
      refine .inl ?_
      change opened.2.floor = tpm.floor
      rw [show opened = _ from found, before]
      exact Tpm.floor_some ours
    | some picked =>
      have after : settled = Tpm.advanceAndLock (.here (Tpm.held index))
          ⟨picked.version.getD 0, picked.version.isSome, markedGood record picked⟩ advances
          ⟨some index⟩ := by
        change Tpm.advanceAndLock opened.1 _ advances opened.2 = _
        rw [show opened = _ from found]
      rw [after, before]
      rcases Tpm.floor_advanceAndLock ours unlocked
          ⟨picked.version.getD 0, picked.version.isSome, markedGood record picked⟩ advances with
        stays | ⟨verified, good, above, moved⟩
      · exact .inl stays
      refine .inr ⟨picked, rfl, good, ?_, ?_⟩
      · rw [moved]
        exact above
      rw [moved]
      obtain ⟨version, held⟩ := Option.isSome_iff_exists.mp verified
      rw [held]
      rfl
  · refine .inl ?_
    cases chosen with
    | none =>
      change opened.2.floor = tpm.floor
      rw [show opened = _ from found]
      exact before
    | some picked =>
      change (Tpm.advanceAndLock opened.1 _ advances opened.2).floor = _
      rw [show opened = _ from found]
      exact before

variable (record : Record) (sha : Sha)

/-- Signed with a key in `keys`, over the version and the digests of the very bytes the set holds.
-/
def Genuine (keys : List Bytes) (set : SetRead) (version : Nat) : Prop :=
  ∃ bytes sig key, set.sig = some bytes ∧ set.confUnreadable = false ∧
    BootSig.parse bytes = .ok sig ∧ sig.digests = set.digests sha ∧ key ∈ keys ∧
    keyId sha key = sig.keyId ∧ verify sha sig.statement sig.signature [] key = .ok () ∧
    sig.securityVersion = version

def Source.Gave (chosen : Chosen) : Source → Prop
  | slots read _ => ∃ attempt slot, chosen.slot = some slot ∧ read attempt slot = some chosen.set
  | esp set => chosen.slot = none ∧ set = some chosen.set

section

variable {sha : Sha} {keys : List Bytes} {floor : Nat}

theorem judge_eq_some {set : SetRead} (judged : judge sha keys floor set = some version) :
    Genuine sha keys set version ∧ floor ≤ version := by
  rw [judge] at judged
  split at judged
  · cases judged
  case h_2 bytes signed =>
    split at judged
    · cases judged
    case isFalse readable =>
      split at judged
      case h_2 => cases judged
      case h_1 verified checked =>
        cases judged
        obtain ⟨sig, key, parsed, digests, known, named, accepted, version, above⟩ :=
          check_eq_ok checked
        exact ⟨⟨bytes, sig, key, signed, eq_false_of_ne_true readable, parsed, digests, known,
          named, accepted, version.symm⟩, above⟩

variable {chosen : Chosen}

theorem attempts_eq_some
    {read : Nat → Slot → Option SetRead} {plan : Plan} : ∀ {left attempt : Nat},
      attempts sha keys floor secureBoot read plan attempt left = some chosen →
      chosen.version = judge sha keys floor chosen.set ∧
        ∃ attempt slot, chosen.slot = some slot ∧ read attempt slot = some chosen.set := by
  intro left
  induction left with
  | zero =>
    intro attempt ended
    cases ended
  | succ left later =>
    intro attempt ended
    rw [attempts] at ended
    dsimp only at ended
    split at ended
    · split at ended
      · exact later ended
      · cases ended
    case h_2 set held =>
      split at ended
      · cases ended
        exact ⟨rfl, attempt, _, rfl, held⟩
      split at ended
      · exact later ended
      split at ended
      · cases ended
        exact ⟨rfl, attempt, _, rfl, held⟩
      · exact later ended

theorem choose_eq_some {record : Option Record}
    (picked : choose sha keys boot record floor = some chosen) :
    chosen.version = judge sha keys floor chosen.set ∧ boot.source.Gave chosen := by
  rw [choose] at picked
  split at picked
  case h_1 read writes source =>
    rw [source]
    exact attempts_eq_some picked
  case h_2 set source =>
    rw [source]
    cases set with
    | none => cases picked
    | some set =>
      cases picked
      exact ⟨rfl, rfl, rfl⟩

end

/-- A boot with Secure Boot on, and the record's block left on the disk before it, if that was
written to. -/
structure Restart where
  tampered : Option Bytes
  source : Source
  cut : Option Cut
  defines : Bool
  advances : Bool

def Restart.boot (restart : Restart) : Boot where
  source := restart.source
  secureBoot := .on
  cut := restart.cut
  defines := restart.defines
  advances := restart.advances

def Restart.found (restart : Restart) (machine : Machine) : Machine :=
  { machine with record := restart.tampered.getD machine.record }

def Record.onTrial (slot : Slot) : Bool :=
  record.trial.any fun trial => trial.1 == slot && decide (0 < trial.2)

structure Outcome where
  before : Machine
  restart : Restart
  report : Report
  after : Machine

section

variable (sha : Sha) (keys : List Bytes)

def Restart.step (restart : Restart) (machine : Machine) : Machine :=
  (restart.boot.run sha keys (restart.found machine)).2

def Restart.outcome (restart : Restart) (machine : Machine) : Outcome where
  before := restart.found machine
  restart := restart
  report := (restart.boot.run sha keys (restart.found machine)).1
  after := (restart.boot.run sha keys (restart.found machine)).2

def outcomes : List Restart → Machine → List Outcome
  | [], _ => []
  | restart :: restarts, machine =>
    restart.outcome sha keys machine :: outcomes restarts (restart.step sha keys machine)

structure Upheld (outcome : Outcome) : Prop where
  /-- A set handed over was read and verified in this boot, at the floor read in it or above. -/
  handed : ∀ chosen, outcome.report.handed = some chosen →
    outcome.restart.source.Gave chosen ∧ outcome.report.floor = outcome.before.tpm.floor ∧
      ∃ version, chosen.version = some version ∧ Genuine sha keys chosen.set version ∧
        outcome.report.floor ≤ version
  /-- The floor never decreases. -/
  kept : outcome.before.tpm.floor ≤ outcome.after.tpm.floor
  /-- It rises to a verified set's version, from the slot marked good; and that is the set handed
  over, unless the power fails. -/
  rises : outcome.before.tpm.floor < outcome.after.tpm.floor →
    ∃ chosen record, outcome.report.chosen = some chosen ∧
      Genuine sha keys chosen.set outcome.after.tpm.floor ∧
      Record.read outcome.before.record = some record ∧ chosen.slot = some record.active ∧
      record.onTrial record.active = false ∧
      (outcome.restart.cut ≠ some .handing → outcome.report.handed = some chosen)

def Restart.Plain (machine : Machine) (restart : Restart) : Prop :=
  ∀ record ∈ restart.boot.record (restart.found machine).record,
    record.onTrial record.active = false

variable {sha keys}

theorem Tpm.floor_restart (tpm : Tpm) : tpm.restart.floor = tpm.floor := by
  obtain ⟨index⟩ := tpm
  cases index with
  | none | some index => rfl

variable {chosen : Option Chosen}

theorem run_through {boot : Boot} (machine : Machine) (planning : boot.cut ≠ some .planning)
    (attempts : boot.cut ≠ some .attempts)
    (picked : choose sha keys boot (boot.record machine.record) machine.tpm.floor = chosen) :
    (boot.run sha keys machine).1.chosen = chosen ∧
      (boot.run sha keys machine).1.floor = machine.tpm.floor ∧
      (boot.run sha keys machine).1.handed =
        (if boot.cut = some .handing then none else handOver boot.secureBoot chosen) ∧
      (boot.run sha keys machine).2.tpm = settle (boot.record machine.record) chosen
          (machine.tpm.restart.openCounter boot.hasSlots boot.defines).1 boot.advances
          (machine.tpm.restart.openCounter boot.hasSlots boot.defines).2 := by
  rw [Boot.run, if_neg planning]
  dsimp only
  rw [if_neg attempts, Tpm.floor_openCounter, picked]
  exact ⟨rfl, rfl, rfl, rfl⟩

theorem run_stopped {boot : Boot} (machine : Machine)
    (early : boot.cut = some .planning ∨ boot.cut = some .attempts) :
    (boot.run sha keys machine).1.handed = none ∧
      (boot.run sha keys machine).2.tpm.floor = machine.tpm.floor := by
  rw [Boot.run]
  split
  · exact ⟨rfl, machine.tpm.floor_restart⟩
  case isFalse planning =>
    dsimp only
    rw [if_pos (early.resolve_left planning)]
    refine ⟨rfl, ?_⟩
    rcases floor_settle machine.tpm boot.hasSlots boot.defines boot.advances none none with
      same | ⟨_, wrong, _⟩
    · exact same
    · cases wrong

theorem handOver_on (given : handOver .on chosen = some handed) :
    chosen = some handed ∧ handed.version.isSome = true := by
  obtain ⟨held, allowed⟩ := Option.filter_eq_some_iff.mp given
  exact ⟨held, by simpa using allowed⟩

theorem markedGood_eq_true {record : Option Record} {chosen : Chosen}
    (good : markedGood record chosen = true) :
    ∃ held, record = some held ∧ chosen.slot = some held.active := by
  cases record with
  | none =>
    unfold markedGood at good
    split at good
    case h_1 nothing => cases nothing
    case h_2 => cases good
  | some held =>
    unfold markedGood at good
    split at good
    case h_1 slot record from' same =>
      cases same
      exact ⟨held, rfl, from'.trans (congrArg some (beq_iff_eq.mp good).symm)⟩
    case h_2 => cases good

theorem Boot.record_eq_some {boot : Boot} {record : Record}
    (held : boot.record block = some record) : Record.read block = some record := by
  rw [Boot.record] at held
  split at held
  · exact held
  · cases held

theorem Restart.Plain.upheld {machine : Machine} {restart : Restart}
    (plain : restart.Plain machine) : Upheld sha keys (restart.outcome sha keys machine) := by
  by_cases early : restart.boot.cut = some .planning ∨ restart.boot.cut = some .attempts
  · obtain ⟨stopped, same⟩ := @run_stopped sha keys _ (restart.found machine) early
    refine ⟨?_, same.ge, ?_⟩
    · intro chosen given
      cases stopped.symm.trans given
    · intro rises
      exact absurd rises (Nat.not_lt.mpr same.le)
  obtain ⟨planning, attempts⟩ := not_or.mp early
  generalize picked : choose sha keys restart.boot
    (restart.boot.record (restart.found machine).record) (restart.found machine).tpm.floor = chosen
  obtain ⟨report, floor, handed, after⟩ :=
    run_through (restart.found machine) planning attempts picked
  have settled := floor_settle (restart.found machine).tpm restart.boot.hasSlots
    restart.boot.defines restart.boot.advances (restart.boot.record (restart.found machine).record)
    chosen
  dsimp only at settled
  rw [← after] at settled
  refine ⟨?_, ?_, ?_⟩
  · intro given hands
    rw [show (restart.outcome sha keys machine).report.handed = _ from handed] at hands
    split at hands
    · cases hands
    obtain ⟨rfl, verified⟩ := handOver_on hands
    obtain ⟨judged, gave⟩ := choose_eq_some picked
    obtain ⟨version, held⟩ := Option.isSome_iff_exists.mp verified
    obtain ⟨genuine, above⟩ := judge_eq_some (judged.symm.trans held)
    exact ⟨gave, floor, version, held, genuine, floor.le.trans above⟩
  · rcases settled with same | ⟨_, _, _, above, _⟩
    · exact same.ge
    · exact above.le
  · intro rises
    rcases settled with same | ⟨given, rfl, good, _, version⟩
    · exact absurd rises (Nat.not_lt.mpr same.le)
    obtain ⟨record, read, slot⟩ := markedGood_eq_true good
    obtain ⟨judged, _⟩ := choose_eq_some picked
    obtain ⟨genuine, _⟩ := judge_eq_some (judged.symm.trans version)
    refine ⟨given, record, report, genuine, Boot.record_eq_some read, slot, plain record read, ?_⟩
    intro (through : restart.cut ≠ some .handing)
    rw [show (restart.outcome sha keys machine).report.handed = _ from handed,
      if_neg (show ¬restart.boot.cut = some .handing from through)]
    exact handOver_some (.inr (by rw [version]; rfl))

end

section

variable {sha : Sha} {keys : List Bytes} {restarts : List Restart}

theorem floor_le_before :
    ∀ {machine : Machine}, AllMeet (Restart.step sha keys) Restart.Plain restarts machine →
      ∀ outcome ∈ outcomes sha keys restarts machine,
        machine.tpm.floor ≤ outcome.before.tpm.floor := by
  induction restarts with
  | nil => exact fun _ => List.forall_mem_nil _
  | cons restart restarts later =>
    intro machine meets outcome among
    rcases List.mem_cons.mp among with rfl | rest
    · exact Nat.le_refl _
    · exact (@Restart.Plain.upheld sha keys _ _ meets.1).kept.trans (later meets.2 outcome rest)

theorem upheld_of_plain :
    ∀ {machine : Machine}, AllMeet (Restart.step sha keys) Restart.Plain restarts machine →
      ∀ outcome ∈ outcomes sha keys restarts machine, Upheld sha keys outcome := by
  induction restarts with
  | nil => exact fun _ => List.forall_mem_nil _
  | cons restart restarts later =>
    intro machine meets outcome among
    rcases List.mem_cons.mp among with rfl | rest
    · exact meets.1.upheld
    · exact later meets.2 outcome rest

theorem floor_pairwise :
    ∀ {machine : Machine}, AllMeet (Restart.step sha keys) Restart.Plain restarts machine →
      (outcomes sha keys restarts machine).Pairwise fun earlier later =>
        earlier.after.tpm.floor ≤ later.before.tpm.floor := by
  induction restarts with
  | nil => exact fun _ => .nil
  | cons restart restarts later =>
    intro machine meets
    exact .cons (floor_le_before meets.2) (later meets.2)

end

/-- What is handed over was verified at the floor or above, and the floor only rises to what was
booted as good. -/
theorem updates_never_go_back (sha : Sha) (keys : List Bytes) (machine : Machine)
    (restarts : List Restart)
    (meets : AllMeet (Restart.step sha keys) Restart.Plain restarts machine) :
    (∀ outcome ∈ outcomes sha keys restarts machine, Upheld sha keys outcome) ∧
      (outcomes sha keys restarts machine).Pairwise fun earlier later =>
        earlier.after.tpm.floor ≤ later.before.tpm.floor :=
  ⟨upheld_of_plain meets, floor_pairwise meets⟩

def signedSet (seed : Node) (version : Nat) : SetRead :=
  let keys := keygenInternal sha seed seed seed
  let held : Digests := ⟨digest sha [1], digest sha [2], digest sha [3]⟩
  let signed := statement (keyId sha keys.2) held version
  ⟨[1], [2], [3], false, some (signed ++ signInternal sha (framed signed []) keys.1 none)⟩

theorem judge_signedSet (seed : Node) {floor : Nat} (small : version < 256 ^ 4)
    (above : floor ≤ version) :
    judge sha [(keygenInternal sha seed seed seed).2] floor (signedSet sha seed version) =
      some version := by
  have sized : Digests.Sized ⟨digest sha [1], digest sha [2], digest sha [3]⟩ :=
    ⟨(sha.finish _).property, (sha.finish _).property, (sha.finish _).property⟩
  have checked := @check_signed sha seed seed seed none _ sized version floor small above
  rw [judge, signedSet]
  dsimp only
  rw [if_neg (by decide)]
  split
  · next given => rw [Except.ok.inj (given.symm.trans checked)]
  · next given => cases given.symm.trans checked

def restartWith (set : SetRead) : Restart where
  tampered := some record.toBlock
  source := .slots (fun _ _ => some set) true
  cut := none
  defines := true
  advances := true

theorem record_restartWith (set : SetRead) (machine : Machine) :
    (restartWith record set).boot.record ((restartWith record set).found machine).record =
      some record := Record.read_toBlock record

/-- A good slot, then a record that was written to put the other slot on trial. -/
theorem updates_never_go_back_tampered :
    let sha := Sha.ofFunction fun _ => ⟨List.replicate 32 0, List.length_replicate⟩
    let seed : Node := ⟨List.replicate N 1, List.length_replicate⟩
    let restarts := [restartWith ⟨.a, none, 1⟩ (signedSet sha seed 5),
      restartWith ⟨.a, some (.b, 2), 2⟩ (signedSet sha seed 3)]
    let keys := [(keygenInternal sha seed seed seed).2]
    AllMeet (Restart.step sha keys) Restart.Plain restarts ⟨[], ⟨none⟩⟩ ∧
      ∀ outcome ∈ outcomes sha keys restarts ⟨[], ⟨none⟩⟩, Upheld sha keys outcome := by
  intro sha seed restarts keys
  have plain : ∀ (record : Record) (set : SetRead) (machine : Machine),
      record.onTrial record.active = false → (restartWith record set).Plain machine := by
    intro record set machine apart other held
    rw [record_restartWith] at held
    cases held
    exact apart
  have meets : AllMeet (Restart.step sha keys) Restart.Plain restarts ⟨[], ⟨none⟩⟩ :=
    ⟨plain _ _ _ rfl, plain _ _ _ rfl, trivial⟩
  exact ⟨meets, (updates_never_go_back sha keys _ restarts meets).1⟩

/-- A record that puts the active slot on trial: the floor rises because of the set on trial. -/
theorem trial_raises_floor :
    let sha := Sha.ofFunction fun _ => ⟨List.replicate 32 0, List.length_replicate⟩
    let seed : Node := ⟨List.replicate N 1, List.length_replicate⟩
    let record : Record := ⟨.a, some (.a, 3), 1⟩
    let restart := restartWith record (signedSet sha seed 5)
    let keys := [(keygenInternal sha seed seed seed).2]
    let outcome := restart.outcome sha keys ⟨[], ⟨none⟩⟩
    record.onTrial .a = true ∧
      outcome.report.chosen = some ⟨signedSet sha seed 5, some 5, some .a⟩ ∧
      outcome.before.tpm.floor = 0 ∧ outcome.after.tpm.floor = 5 ∧ ¬Upheld sha keys outcome := by
  intro sha seed record restart keys outcome
  have picked : choose sha keys restart.boot
      (restart.boot.record (restart.found ⟨[], ⟨none⟩⟩).record) 0 =
        some ⟨signedSet sha seed 5, some 5, some .a⟩ := by
    rw [show restart.boot.record _ = _ from record_restartWith record (signedSet sha seed 5) _]
    change attempts sha keys 0 .on (fun _ _ => some (signedSet sha seed 5))
      (planSlots (some record) true) 0 3 = _
    rw [attempts]
    dsimp only
    rw [judge_signedSet sha seed (by decide) (by decide)]
    rfl
  obtain ⟨chosen, _, _, after⟩ := run_through (restart.found ⟨[], ⟨none⟩⟩)
    (show restart.boot.cut ≠ some .planning by decide)
    (show restart.boot.cut ≠ some .attempts by decide) picked
  have risen : outcome.after.tpm.floor = 5 := by
    rw [show outcome.after.tpm = _ from after,
      show restart.boot.record _ = _ from record_restartWith record (signedSet sha seed 5) _]
    have moves : advance (floor 0) ⟨5, true, true⟩ = some (1 <<< 4) := by
      rw [floor, Nat.size_zero]
      rfl
    change (Tpm.advanceAndLock (.here 0) ⟨5, true, true⟩ true ⟨some (.defined, 0)⟩).floor = 5
    rw [Tpm.advanceAndLock, moves, Tpm.floor_writeLock]
    change (Tpm.setBits (1 <<< 4) ⟨some (.defined, 0)⟩).floor = 5
    rw [Tpm.floor_setBits rfl rfl, floor_or_bit]
    change max (Nat.size 0) 5 = 5
    rw [Nat.size_zero]
    rfl
  refine ⟨rfl, chosen, rfl, risen, ?_⟩
  intro upheld
  obtain ⟨other, held, _, _, read, _, plain, _⟩ := upheld.rises (by rw [risen]; decide)
  have same : Record.read record.toBlock = some held := read
  rw [Record.read_toBlock] at same
  cases same
  cases plain

end Bhaskix.Loader
