import Bhaskix.Library.Run

namespace Bhaskix.Sched

open Library

/-- A domain's share of the CPU. `threads` is `Domain::threads`, which only `add_thread` and
`remove_thread` maintain; `weights` are those of its fair threads that have not ended. -/
structure Share where
  cpuShares : Nat
  threads : Nat
  weights : List Nat
  deriving DecidableEq, Repr

/-- `joins` says that the thread `add_thread` is given was not in the domain before. -/
inductive Change
  | start
  | spawnThread
  | addThread (joins : Bool)
  | removeThread
  | ends (index : Nat)
  deriving DecidableEq, Repr

namespace Share

def threadWeight (share : Share) : Nat :=
  let threads := if share.threads = 0 then 1 else share.threads
  let weight := share.cpuShares / threads
  if weight = 0 then 1 else weight

def setDomainWeight (share : Share) (also : List Nat) : Share :=
  { share with weights := (also ++ share.weights).map fun _ => share.threadWeight }

/-- `SpawnOptions::new()` asks for a fair thread of `BASE_WEIGHT`. -/
def spawnOnWith (share : Share) : Share :=
  { share with weights := 1024 :: share.weights }

def step (change : Change) (share : Share) : Share :=
  match change with
  | .start => if share.weights ≠ [] then share else share.spawnOnWith
  | .spawnThread => share.spawnOnWith
  | .addThread joins =>
    { share with threads := share.threads + 1 }.setDomainWeight (if joins then [1024] else [])
  | .removeThread => { share with threads := share.threads - 1 }.setDomainWeight []
  | .ends index => { share with weights := share.weights.eraseIdx index }

/-- A thread of undivided weight is made only while it fits in what is left of the share, and where
the share is divided the counter is not behind the threads there are. -/
def Counted (share : Share) (change : Change) : Prop :=
  match change with
  | .start => share.weights = [] → 1024 ≤ share.cpuShares
  | .spawnThread => share.weights.sum + 1024 ≤ share.cpuShares
  | .addThread joins => share.weights.length + joins.toNat ≤ share.threads + 1
  | .removeThread => share.weights.length ≤ max 1 (share.threads - 1)
  | .ends _ => True

instance (share : Share) : ∀ change, Decidable (share.Counted change)
  | .start => inferInstanceAs (Decidable (_ → _))
  | .spawnThread | .addThread _ | .removeThread => inferInstanceAs (Decidable (_ ≤ _))
  | .ends _ => inferInstanceAs (Decidable True)

/-- The threads are within the share, or each has the least weight there is. -/
def Divided (share : Share) : Prop :=
  share.weights.sum ≤ share.cpuShares ∨ ∀ weight ∈ share.weights, weight ≤ 1

variable {share : Share}

theorem Divided.total (divided : share.Divided) :
    share.weights.sum ≤ max share.cpuShares share.weights.length := by
  rcases divided with within | least
  · exact le_max_of_le_left within
  · exact le_max_of_le_right ((List.sum_le_card_nsmul _ _ least).trans (by simp))

theorem divided_setDomainWeight {also : List Nat}
    (room : also.length + share.weights.length ≤ max 1 share.threads) :
    (share.setDomainWeight also).Divided := by
  have counted : (also ++ share.weights).length ≤
      if share.threads = 0 then 1 else share.threads := by
    rw [List.length_append]
    split <;> omega
  simp only [Divided, setDomainWeight, threadWeight]
  generalize (if share.threads = 0 then 1 else share.threads) = threads at *
  -- A part that would be 0 is rounded up to 1.
  split
  · right
    simp
  · left
    simpa using (Nat.mul_le_mul_right _ counted).trans (Nat.mul_div_le _ _)

theorem Divided.step {change : Change} (divided : share.Divided) (counted : share.Counted change) :
    (share.step change).Divided := by
  cases change with
  | start =>
    by_cases empty : share.weights = []
    · have room := counted empty
      simp only [Share.step, empty, ne_eq, not_true_eq_false, if_false]
      exact .inl (by simpa [spawnOnWith, empty] using room)
    · simpa only [Share.step, if_pos empty] using divided
  | spawnThread => exact .inl ((Nat.add_comm _ _).trans_le counted)
  | addThread joins =>
    refine divided_setDomainWeight ?_
    unfold Counted at counted
    cases joins <;> simp at counted ⊢ <;> omega
  | removeThread => exact divided_setDomainWeight (by simpa [Counted] using counted)
  | ends index =>
    have fewer := share.weights.eraseIdx_sublist index
    refine divided.imp (fun within => ?_) fun least weight member => ?_
    · exact (fewer.sum_le_sum fun _ _ => Nat.zero_le _).trans within
    · exact least weight (fewer.subset member)

/-- A domain's share is divided among its fair threads while its counter keeps up with them. -/
theorem share_divided (cpuShares : Nat) (changes : List Change)
    (counted : AllMeet step Counted changes ⟨cpuShares, 0, []⟩) :
    (run step changes ⟨cpuShares, 0, []⟩).weights.sum ≤
      max (run step changes ⟨cpuShares, 0, []⟩).cpuShares
        (run step changes ⟨cpuShares, 0, []⟩).weights.length := by
  have reached := Reached.run_of_meet changes .start counted
  have initially : (⟨cpuShares, 0, []⟩ : Share).Divided := .inr nofun
  have divided := reached.invariant initially fun _ => Divided.step
  exact divided.total

theorem share_divided_two : (run step [.start, .addThread false, .addThread true, .ends 0]
    ⟨1024, 0, []⟩).weights.sum ≤ 1024 :=
  share_divided 1024 [.start, .addThread false, .addThread true, .ends 0] (by decide)

/-- Two threads made by `SPAWN_THREAD` have twice the domain's share. -/
theorem spawnThread_multiplies :
    max 1024 (run step [.spawnThread, .spawnThread] ⟨1024, 0, []⟩).weights.length <
      (run step [.spawnThread, .spawnThread] ⟨1024, 0, []⟩).weights.sum := by
  decide

end Share

end Bhaskix.Sched
