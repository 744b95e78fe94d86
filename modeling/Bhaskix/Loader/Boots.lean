import Bhaskix.Loader.Boot

namespace Bhaskix.Loader

open Library Sig
open Option (map_some isSome_iff_exists)

namespace Record

variable (record : Record)

theorem length_body : record.body.length = 24 := by
  rw [body, List.length_append, length_leBytes]
  rfl

theorem slice_toBlock : slice record.toBlock 0 24 = record.body := by
  rw [toBlock, List.append_assoc, slice_append_left (length_body record).ge, slice, List.drop_zero]
  exact List.take_of_length_le (length_body record).le

theorem parse_toBlock (record : Record) : parse record.toBlock = .ok record := by
  have sized : ¬record.toBlock.length < 28 := by
    rw [toBlock, List.length_append, List.length_append, length_body, length_leBytes]
    omega
  have magic : slice record.toBlock 0 8 = recordMagic := rfl
  have sum : word record.toBlock 24 4 = crc32 record.body := by
    rw [toBlock, List.append_assoc]
    exact word_at (length_body record) (UInt32.toNat_lt _)
  have writes : word record.toBlock 16 8 = record.writes.toNat := by
    rw [toBlock, body, List.append_assoc, List.append_assoc]
    exact word_at rfl record.writes.toNat_lt
  rw [parse, if_neg sized, if_neg]
  · rw [writes, UInt64.ofNat_toNat]
    obtain ⟨active, trial, count⟩ := record
    cases active with
    | a | b =>
      cases trial with
      | none => rfl
      | some trial =>
        obtain ⟨slot, tries⟩ := trial
        cases slot with
        | a => rfl
        | b => rfl
  · rw [slice_toBlock, sum]
    exact not_or.mpr ⟨not_not_intro magic, not_not_intro rfl⟩

theorem read_toBlock : Record.read record.toBlock = some record := by
  rw [Record.read, parse_toBlock]
  rfl

def tries : Nat := record.trial.elim 0 fun trial => trial.2.toNat

end Record

open Record (read read_toBlock)

def activeOf (record : Option Record) : Slot := record.elim .a Record.active

theorem planSlots_cases (record : Option Record) (writes : Bool) :
    ((planSlots record writes).first = activeOf record ∧
        (planSlots record writes).next = (activeOf record).other) ∨
      ∃ held slot tries, record = some held ∧ held.trial = some (slot, tries) ∧ 0 < tries ∧
        writes = true ∧ (planSlots record writes).first = slot ∧
        (planSlots record writes).next = held.active := by
  cases record with
  | none => exact .inl ⟨rfl, rfl⟩
  | some held =>
    obtain ⟨active, trial, count⟩ := held
    cases trial with
    | none => exact .inl ⟨rfl, rfl⟩
    | some trial =>
      obtain ⟨slot, tries⟩ := trial
      rw [planSlots, plan]
      by_cases left : tries > 0
      · simp only [left, if_true]
        cases writes with
        | false => exact .inl ⟨rfl, rfl⟩
        | true => exact .inr ⟨_, slot, tries, rfl, rfl, left, rfl, rfl, rfl⟩
      · simp only [left, if_false]
        cases writes with
        | false | true => exact .inl ⟨rfl, rfl⟩

def Record.spend (record : Record) : Record :=
  { record with
    trial := record.trial.map fun trial => (trial.1, trial.2 - 1)
    writes := record.writes + 1 }

def Record.endTrial (record : Record) : Record :=
  { record with trial := none, writes := record.writes + 1 }

variable {record : Record}

theorem recordAfter_cases (held : read block = some record) (writes : Bool) :
    (recordAfter block writes = block ∧ (planSlots (some record) writes).first = record.active) ∨
      (∃ slot tries, record.trial = some (slot, tries) ∧ 0 < tries ∧
        recordAfter block writes = record.spend.toBlock ∧
        (planSlots (some record) writes).first = slot) ∨
      (recordAfter block writes = record.endTrial.toBlock ∧
        (planSlots (some record) writes).first = record.active) := by
  rw [recordAfter, held, planSlots]
  obtain ⟨active, trial, count⟩ := record
  cases trial with
  | none => exact .inl ⟨rfl, rfl⟩
  | some trial =>
    obtain ⟨slot, tries⟩ := trial
    rw [plan]
    by_cases left : tries > 0
    · simp only [left, if_true]
      cases writes with
      | false => exact .inl ⟨rfl, rfl⟩
      | true => exact .inr (.inl ⟨slot, tries, rfl, left, rfl, rfl⟩)
    · simp only [left, if_false]
      cases writes with
      | false => exact .inl ⟨rfl, rfl⟩
      | true => exact .inr (.inr ⟨rfl, rfl⟩)

theorem recordAfter_of_none (damaged : read block = none) (writes : Bool) :
    recordAfter block writes = block := by
  rw [recordAfter, damaged]
  rfl

theorem read_recordAfter (held : read block = some record) (writes : Bool) :
    ∃ after, read (recordAfter block writes) = some after ∧ after.active = record.active ∧
      after.tries + (if (planSlots (some record) writes).first ≠ record.active then 1 else 0) ≤
        record.tries := by
  rcases recordAfter_cases held writes with
    ⟨same, first⟩ | ⟨slot, tries, trial, left, spent, first⟩ | ⟨ended, first⟩
  · rw [same, first, if_neg (not_not_intro rfl)]
    exact ⟨record, held, rfl, Nat.le_refl _⟩
  · refine ⟨record.spend, by rw [spent, read_toBlock], rfl, ?_⟩
    have fewer : (tries - 1).toNat = tries.toNat - 1 := UInt8.toNat_sub_of_le _ _ (by
      rw [UInt8.le_iff_toNat_le]
      exact UInt8.lt_iff_toNat_lt.mp left)
    have positive : 0 < tries.toNat := UInt8.lt_iff_toNat_lt.mp left
    rw [Record.tries, Record.tries, Record.spend, trial]
    simp only [map_some, Option.elim_some, fewer]
    split <;> omega
  · refine ⟨record.endTrial, by rw [ended, read_toBlock], rfl, ?_⟩
    rw [first, if_neg (not_not_intro rfl)]
    exact Nat.zero_le _

section

variable (sha : Sha) (keys : List Bytes)

theorem attempts_stable (floor : Nat) (secureBoot : SecureBoot) (sets : Slot → Option SetRead)
    (plan : Plan) : attempts sha keys floor secureBoot (fun _ => sets) plan 0 3 =
      match (sets plan.first).map fun set => (set, judge sha keys floor set),
        (sets plan.next).map fun set => (set, judge sha keys floor set) with
      | some (set, some version), _ => some ⟨set, some version, some plan.first⟩
      | _, some (set, some version) => some ⟨set, some version, some plan.next⟩
      | some (first, none), some (next, none) =>
        if secureBoot = .on then some ⟨next, none, some plan.next⟩
        else some ⟨first, none, some plan.first⟩
      | none, some (set, none) =>
        if secureBoot = .on then some ⟨set, none, some plan.next⟩ else none
      | _, none => none := by
  cases first : sets plan.first with
  | none =>
    cases next : sets plan.next with
    | none => simp [attempts, Plan.attempt, first, next]
    | some set =>
      cases version : judge sha keys floor set with
      | none | some number => simp [attempts, Plan.attempt, first, next, version]
  | some set =>
    cases version : judge sha keys floor set with
    | some number => simp [attempts, Plan.attempt, first, version]
    | none =>
      cases next : sets plan.next with
      | none => simp [attempts, Plan.attempt, first, next, version]
      | some other =>
        cases second : judge sha keys floor other with
        | none | some number => simp [attempts, Plan.attempt, first, next, version, second]

theorem attempts_verified {floor : Nat} {secureBoot : SecureBoot} {sets : Slot → Option SetRead}
    {plan : Plan} {set : SetRead} (version : (judge sha keys floor set).isSome = true)
    (held : sets plan.first = some set ∨ sets plan.next = some set) :
    ∃ chosen, attempts sha keys floor secureBoot (fun _ => sets) plan 0 3 = some chosen ∧
      chosen.version.isSome = true := by
  obtain ⟨number, verified⟩ := isSome_iff_exists.mp version
  rw [attempts_stable]
  rcases held with first | next
  · rw [first, map_some, verified]
    exact ⟨_, rfl, rfl⟩
  rw [next, map_some, verified]
  cases first : sets plan.first with
  | none => exact ⟨_, rfl, rfl⟩
  | some other =>
    rw [map_some]
    cases judge sha keys floor other with
    | none => exact ⟨_, rfl, rfl⟩
    | some number => exact ⟨_, rfl, rfl⟩

theorem attempts_read {floor : Nat}
    {plan : Plan} (off : secureBoot ≠ .on) (first : (sets plan.first).isSome = true)
    (next : (sets plan.next).isSome = true) :
    (attempts sha keys floor secureBoot (fun _ => sets) plan 0 3).isSome = true := by
  obtain ⟨one, first⟩ := isSome_iff_exists.mp first
  obtain ⟨two, next⟩ := isSome_iff_exists.mp next
  rw [attempts_stable, first, next, map_some, map_some]
  cases judge sha keys floor one with
  | some number => rfl
  | none =>
    cases judge sha keys floor two with
    | some number => rfl
    | none =>
      dsimp only
      rw [if_neg off]
      rfl

end

/-- A boot of such a machine, whose slots read the same each time they are read in it. -/
structure SlotBoot where
  sets : Slot → Option SetRead
  writes : Bool
  secureBoot : SecureBoot
  cut : Option Cut
  defines : Bool
  advances : Bool

def SlotBoot.boot (boot : SlotBoot) : Boot where
  source := .slots (fun _ => boot.sets) boot.writes
  secureBoot := boot.secureBoot
  cut := boot.cut
  defines := boot.defines
  advances := boot.advances

def Tpm.floor (tpm : Tpm) : Nat :=
  match tpm.index with
  | some index => if index.1.isOurs then Loader.floor (Tpm.held index) else 0
  | none => 0

theorem Tpm.floor_openCounter (tpm : Tpm) (slotDisk defines : Bool) :
    (tpm.restart.openCounter slotDisk defines).1.floor = tpm.floor := by
  obtain ⟨index⟩ := tpm
  cases index with
  | none =>
    rw [restart, Option.map_none, openCounter]
    dsimp only
    split
    · rfl
    · rfl
  | some index =>
    rw [restart, map_some, openCounter, floor]
    dsimp only
    have same : ({ index.1 with locked := false } : Public).isOurs = index.1.isOurs := rfl
    rw [same]
    split
    · rfl
    · rfl

/-- One boot of a run: the machine before it, what it did, and the machine after it. -/
structure Episode where
  before : Machine
  boot : SlotBoot
  report : Report
  after : Machine

section

variable (sha : Sha) (keys : List Bytes)

def SlotBoot.step (boot : SlotBoot) (machine : Machine) : Machine :=
  (boot.boot.run sha keys machine).2

def SlotBoot.episode (boot : SlotBoot) (machine : Machine) : Episode where
  before := machine
  boot := boot
  report := (boot.boot.run sha keys machine).1
  after := (boot.boot.run sha keys machine).2

def episodes : List SlotBoot → Machine → List Episode
  | [], _ => []
  | boot :: boots, machine =>
    boot.episode sha keys machine :: episodes boots (boot.step sha keys machine)

def trialBoots (active : Slot) (episodes : List Episode) : Nat :=
  episodes.countP fun episode => episode.report.plan.any fun plan => plan.first ≠ active

/-- Both slots are planned; a slot on trial is first only with its boot spent on the disk; the
active slot stays. -/
structure Promises (episode : Episode) : Prop where
  both : ∀ plan, episode.report.plan = some plan → plan.next = plan.first.other
  spent : ∀ record plan, read episode.before.record = some record →
    episode.report.plan = some plan → plan.first ≠ record.active →
      ∃ tries, record.trial = some (plan.first, tries) ∧ 0 < tries ∧
        read episode.report.onDisk = some record.spend
  active : ∀ record, read episode.before.record = some record →
    ∃ after, read episode.after.record = some after ∧ after.active = record.active
  damaged : read episode.before.record = none →
    episode.after.record = episode.before.record
  verified : episode.boot.cut = none → ∀ slot set, episode.boot.sets slot = some set →
    (judge sha keys episode.report.floor set).isSome = true →
      ∃ chosen, episode.report.handed = some chosen ∧ chosen.version.isSome = true
  started : episode.boot.cut = none → episode.boot.secureBoot ≠ .on →
    ∀ slot, (episode.boot.sets slot).isSome = true → episode.report.handed.isSome = true

/-- The active slot has no boots left to try; without Secure Boot and a verified set, both slots
read or neither. -/
structure SlotBoot.Ordinary (machine : Machine) (boot : SlotBoot) : Prop where
  trial : ∀ record tries, read machine.record = some record →
    record.trial = some (record.active, tries) → tries = 0
  alike : boot.secureBoot ≠ .on → (∀ slot set, boot.sets slot = some set →
    judge sha keys machine.tpm.floor set = none) → (boot.sets .a).isSome = (boot.sets .b).isSome

variable {sha keys} {machine : Machine} {boot : SlotBoot}

theorem SlotBoot.Ordinary.both (ordinary : boot.Ordinary sha keys machine) :
    (planSlots (read machine.record) boot.writes).next =
      (planSlots (read machine.record) boot.writes).first.other := by
  rcases planSlots_cases (read machine.record) boot.writes with
    ⟨first, next⟩ | ⟨record, slot, tries, held, trial, left, _, first, next⟩
  · rw [first, next]
  rw [first, next]
  have apart : slot ≠ record.active := by
    intro same
    subst same
    rw [ordinary.trial record tries held trial] at left
    contradiction
  revert apart
  cases slot with
  | a | b => cases record.active <;> simp [Slot.other]

theorem SlotBoot.Ordinary.named (ordinary : boot.Ordinary sha keys machine) {set : SetRead}
    (held : boot.sets slot = some set) :
    boot.sets (planSlots (read machine.record) boot.writes).first = some set ∨
      boot.sets (planSlots (read machine.record) boot.writes).next = some set := by
  rw [ordinary.both]
  cases (planSlots (read machine.record) boot.writes).first with
  | a =>
    cases slot with
    | a => exact .inl held
    | b => exact .inr held
  | b =>
    cases slot with
    | a => exact .inr held
    | b => exact .inl held

theorem run_planning {boot : SlotBoot} (machine : Machine) (cut : boot.cut = some .planning) :
    (boot.boot.run sha keys machine).1.plan = none ∧
      (boot.boot.run sha keys machine).2.record = machine.record := by
  rw [Boot.run, if_pos (show boot.boot.cut = some .planning from cut)]
  exact ⟨rfl, rfl⟩

theorem run_planned {boot : SlotBoot} (machine : Machine) (cut : boot.cut ≠ some .planning) :
    (boot.boot.run sha keys machine).1.plan =
        some (planSlots (read machine.record) boot.writes) ∧
      (boot.boot.run sha keys machine).1.onDisk = recordAfter machine.record boot.writes ∧
      (boot.boot.run sha keys machine).2.record = recordAfter machine.record boot.writes := by
  rw [Boot.run, if_neg (show ¬boot.boot.cut = some .planning from cut)]
  dsimp only
  split
  · exact ⟨rfl, rfl, rfl⟩
  · exact ⟨rfl, rfl, rfl⟩

theorem run_handed {boot : SlotBoot} (machine : Machine) (cut : boot.cut = none) :
    (boot.boot.run sha keys machine).1.floor = machine.tpm.floor ∧
      (boot.boot.run sha keys machine).1.handed =
        handOver boot.secureBoot (attempts sha keys machine.tpm.floor boot.secureBoot
          (fun _ => boot.sets) (planSlots (read machine.record) boot.writes) 0 3) := by
  have planning : ¬boot.boot.cut = some .planning := by
    intro wrong
    cases cut.symm.trans wrong
  have attempts : ¬boot.boot.cut = some .attempts := by
    intro wrong
    cases cut.symm.trans wrong
  have handing : ¬boot.boot.cut = some .handing := by
    intro wrong
    cases cut.symm.trans wrong
  rw [Boot.run, if_neg planning]
  dsimp only
  rw [if_neg attempts]
  dsimp only
  rw [if_neg handing, Tpm.floor_openCounter]
  exact ⟨rfl, rfl⟩

theorem handOver_some {chosen : Chosen}
    (allowed : secureBoot ≠ .on ∨ chosen.version.isSome = true) :
    handOver secureBoot (some chosen) = some chosen := by
  rw [handOver, Option.filter_some, if_pos]
  rcases allowed with off | verified
  · simp [off]
  · simp [verified]

theorem SlotBoot.Ordinary.chosen
    (ordinary : boot.Ordinary sha keys machine) (off : boot.secureBoot ≠ .on)
    (readable : (boot.sets slot).isSome = true) :
    (attempts sha keys machine.tpm.floor boot.secureBoot (fun _ => boot.sets)
      (planSlots (read machine.record) boot.writes) 0 3).isSome = true := by
  by_cases verified : ∃ slot set, boot.sets slot = some set ∧
      (judge sha keys machine.tpm.floor set).isSome = true
  · obtain ⟨which, set, held, version⟩ := verified
    obtain ⟨chosen, picked, _⟩ := @attempts_verified sha keys _ boot.secureBoot _ _ _ version
      (ordinary.named held)
    rw [picked]
    rfl
  have alike := ordinary.alike off fun which set held => by
    by_contra version
    exact verified ⟨which, set, held, Option.isSome_iff_ne_none.mpr version⟩
  have every : ∀ which, (boot.sets which).isSome = true := by
    intro which
    cases slot with
    | a =>
      cases which with
      | a => exact readable
      | b => exact alike.symm.trans readable
    | b =>
      cases which with
      | a => exact alike.trans readable
      | b => exact readable
  exact attempts_read sha keys off (every _) (every _)

theorem SlotBoot.Ordinary.promises (ordinary : boot.Ordinary sha keys machine) :
    Promises sha keys (boot.episode sha keys machine) := by
  have both := ordinary.both
  by_cases cut : boot.cut = some .planning
  · obtain ⟨plan, record⟩ := @run_planning sha keys boot machine cut
    refine ⟨?_, ?_, ?_, fun _ => record, ?_, ?_⟩
    · intro other made
      cases plan.symm.trans made
    · intro _ other _ made
      cases plan.symm.trans made
    · intro held read
      exact ⟨held, (congrArg Record.read record).trans read, rfl⟩
    · intro none
      cases cut.symm.trans none
    · intro none
      cases cut.symm.trans none
  obtain ⟨plan, onDisk, record⟩ := @run_planned sha keys boot machine cut
  refine ⟨?_, ?_, ?_, ?_, ?_, ?_⟩
  · intro other made
    cases plan.symm.trans made
    exact both
  · intro held other read made apart
    cases plan.symm.trans made
    have first : Record.read machine.record = some held := read
    rw [first] at apart ⊢
    rcases recordAfter_cases read boot.writes with
      ⟨_, first⟩ | ⟨slot, tries, trial, left, spent, first⟩ | ⟨_, first⟩
    · exact absurd first apart
    · refine ⟨tries, by rw [first]; exact trial, left, ?_⟩
      exact (congrArg Record.read (onDisk.trans spent)).trans (read_toBlock _)
    · exact absurd first apart
  · intro held read
    obtain ⟨after, stays, active, _⟩ := read_recordAfter read boot.writes
    exact ⟨after, (congrArg Record.read record).trans stays, active⟩
  · intro damaged
    exact record.trans (recordAfter_of_none damaged boot.writes)
  · intro none slot set held verified
    obtain ⟨floor, handed⟩ := @run_handed sha keys boot machine none
    have version : (judge sha keys machine.tpm.floor set).isSome = true :=
      (congrArg (fun floor => (judge sha keys floor set).isSome) floor).symm.trans verified
    obtain ⟨chosen, picked, some'⟩ := @attempts_verified sha keys _ boot.secureBoot _ _ _ version
      (ordinary.named held)
    exact ⟨chosen, handed.trans (by rw [picked, handOver_some (.inr some')]), some'⟩
  · intro none (off : boot.secureBoot ≠ .on) slot (readable : (boot.sets slot).isSome = true)
    obtain ⟨_, handed⟩ := @run_handed sha keys boot machine none
    obtain ⟨chosen, picked⟩ := isSome_iff_exists.mp (ordinary.chosen off readable)
    rw [picked, handOver_some (.inl off)] at handed
    exact (congrArg Option.isSome handed).trans rfl

theorem step_record {machine : Machine} {record : Record}
    (held : read machine.record = some record) (boot : SlotBoot) :
    ∃ after, read (boot.step sha keys machine).record = some after ∧
      after.active = record.active ∧
      after.tries + trialBoots record.active [boot.episode sha keys machine] ≤ record.tries := by
  by_cases cut : boot.cut = some .planning
  · obtain ⟨plan, same⟩ := @run_planning sha keys boot machine cut
    have none : trialBoots record.active [boot.episode sha keys machine] = 0 := by
      simp [trialBoots, SlotBoot.episode, plan]
    refine ⟨record, (congrArg read same).trans held, rfl, ?_⟩
    rw [none]
    exact Nat.le_refl _
  · obtain ⟨plan, _, same⟩ := @run_planned sha keys boot machine cut
    obtain ⟨after, stays, active, fewer⟩ := read_recordAfter held boot.writes
    refine ⟨after, (congrArg read same).trans stays, active, ?_⟩
    have one : trialBoots record.active [boot.episode sha keys machine] =
        if (planSlots (some record) boot.writes).first ≠ record.active then 1 else 0 := by
      simp [trialBoots, SlotBoot.episode, plan, held, List.countP_cons]
    rw [one]
    exact fewer

theorem trialBoots_le :
    ∀ {machine : Machine} {record : Record}, read machine.record = some record →
      trialBoots record.active (episodes sha keys boots machine) ≤ record.tries := by
  induction boots with
  | nil =>
    intro machine record held
    exact Nat.zero_le _
  | cons boot boots later =>
    intro machine record held
    obtain ⟨after, stays, active, fewer⟩ := @step_record sha keys machine record held boot
    have rest := later stays
    rw [active] at rest
    have split : trialBoots record.active (episodes sha keys (boot :: boots) machine) =
        trialBoots record.active [boot.episode sha keys machine] +
          trialBoots record.active (episodes sha keys boots (boot.step sha keys machine)) := by
      rw [trialBoots, trialBoots, trialBoots, ← List.countP_append]
      rfl
    omega

theorem promises_of_ordinary : ∀ {machine : Machine},
      AllMeet (SlotBoot.step sha keys) (fun machine boot => boot.Ordinary sha keys machine) boots
        machine → ∀ episode ∈ episodes sha keys boots machine, Promises sha keys episode := by
  induction boots with
  | nil => exact fun _ => List.forall_mem_nil _
  | cons boot boots later =>
    intro machine meets episode among
    rcases List.mem_cons.mp among with rfl | rest
    · exact meets.1.promises
    · exact later meets.2 episode rest

end

/-- Wherever each boot loses power, a trial ends and the active slot stays the active one. -/
theorem boots_keep_promises (sha : Sha) (keys : List Bytes) (machine : Machine)
    (boots : List SlotBoot)
    (meets : AllMeet (SlotBoot.step sha keys) (fun machine boot => boot.Ordinary sha keys machine)
      boots machine) : (∀ record, read machine.record = some record →
      trialBoots record.active (episodes sha keys boots machine) ≤ record.tries) ∧
      ∀ episode ∈ episodes sha keys boots machine, Promises sha keys episode :=
  ⟨fun _ held => trialBoots_le held, promises_of_ordinary meets⟩

/-- A disk whose two slots hold a set without a signature, booted with Secure Boot off. -/
def unsignedBoot (cut : Option Cut) : SlotBoot where
  sets _ := some ⟨[], [], [], false, none⟩
  writes := true
  secureBoot := .off
  cut := cut
  defines := true
  advances := true

theorem unsignedBoot_ordinary (sha : Sha) {machine : Machine} {record : Record}
    (held : read machine.record = some record)
    (apart : ∀ trial, record.trial = some trial → trial.1 ≠ record.active) (cut : Option Cut) :
    (unsignedBoot cut).Ordinary sha [] machine where
  trial other tries read trial := by
    cases held.symm.trans read
    exact absurd rfl (apart _ trial)
  alike _ _ := rfl

/-- A trial of slot B with two boots left: one boot that loses power once the record is written,
and one that goes through. -/
theorem boots_keep_promises_on_trial :
    let sha := Sha.ofFunction fun _ => ⟨List.replicate 32 0, List.length_replicate⟩
    let record : Record := ⟨.a, some (.b, 2), 1⟩
    let boots := [unsignedBoot (some .attempts), unsignedBoot none]
    AllMeet (SlotBoot.step sha []) (fun machine boot => boot.Ordinary sha [] machine) boots
        ⟨record.toBlock, ⟨none⟩⟩ ∧
      ∀ episode ∈ episodes sha [] boots ⟨record.toBlock, ⟨none⟩⟩, Promises sha [] episode := by
  intro sha record boots
  have held := read_toBlock record
  have meets : AllMeet (SlotBoot.step sha []) (fun machine boot => boot.Ordinary sha [] machine)
      boots ⟨record.toBlock, ⟨none⟩⟩ := by
    have spent : read ((unsignedBoot (some .attempts)).step sha []
        ⟨record.toBlock, ⟨none⟩⟩).record = some record.spend := by
      obtain ⟨_, _, same⟩ := @run_planned sha [] (unsignedBoot (some .attempts))
        ⟨record.toBlock, ⟨none⟩⟩ (by decide)
      have written : recordAfter record.toBlock true = record.spend.toBlock := by
        rw [recordAfter, held]
        rfl
      exact (congrArg read (same.trans written)).trans (read_toBlock record.spend)
    refine ⟨unsignedBoot_ordinary sha held (by decide) _,
      unsignedBoot_ordinary sha spent (by decide) _, trivial⟩
  exact ⟨meets, (boots_keep_promises sha [] _ boots meets).2⟩

/-- The active slot on trial is planned twice; with Secure Boot off, a set that reads is not started
if the other slot does not read. -/
theorem boots_break_promises :
    let sha := Sha.ofFunction fun _ => ⟨List.replicate 32 0, List.length_replicate⟩
    let onTrial : Machine := ⟨Record.toBlock ⟨.a, some (.a, 3), 1⟩, ⟨none⟩⟩
    let damaged : Machine := ⟨[], ⟨none⟩⟩
    let half : SlotBoot := { unsignedBoot none with
      sets := fun slot => if slot = .a then some ⟨[], [], [], false, none⟩ else none }
    (((unsignedBoot none).boot.run sha [] onTrial).1.plan.map fun plan => (plan.first, plan.next)) =
        some (.a, .a) ∧
      ¬Promises sha [] ((unsignedBoot none).episode sha [] onTrial) ∧
      (half.boot.run sha [] damaged).1.handed = none ∧
      ¬Promises sha [] (half.episode sha [] damaged) := by
  intro sha onTrial damaged half
  have twice : (((unsignedBoot none).boot.run sha [] onTrial).1.plan.map fun plan =>
      (plan.first, plan.next)) = some (.a, .a) := by decide +kernel
  have stopped : (half.boot.run sha [] damaged).1.handed = none := by decide +kernel
  refine ⟨twice, ?_, stopped, ?_⟩
  · intro promises
    obtain ⟨plan, made, named⟩ := Option.map_eq_some_iff.mp twice
    have both := promises.both plan made
    obtain ⟨first, next⟩ := Prod.mk.inj named
    rw [first, next] at both
    cases both
  · intro promises
    have started := promises.started rfl (by decide) .a rfl
    cases (congrArg Option.isSome stopped).symm.trans started

end Bhaskix.Loader
