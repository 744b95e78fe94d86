import Mathlib

/-!
Runs of a machine that takes one step after another, each step meeting a condition on the state it
starts from.
-/

namespace Bhaskix.Library

inductive Reached {σ ι : Type} (step : ι → σ → σ) (meets : σ → ι → Prop) (start : σ) : σ → Prop
  | start : Reached step meets start start
  | next {state : σ} (input : ι) : Reached step meets start state → meets state input →
      Reached step meets start (step input state)

theorem Reached.invariant {σ ι : Type} {step : ι → σ → σ} {meets : σ → ι → Prop} {start state : σ}
    {motive : σ → Prop} (initially : motive start)
    (kept : ∀ {state} (input : ι), motive state → meets state input → motive (step input state))
    (reached : Reached step meets start state) : motive state := by
  induction reached with
  | start => exact initially
  | next input _ allowed held => exact kept input held allowed

def run {σ ι : Type} (step : ι → σ → σ) (inputs : List ι) (state : σ) : σ :=
  inputs.foldl (fun state input => step input state) state

def AllMeet {σ ι : Type} (step : ι → σ → σ) (meets : σ → ι → Prop) : List ι → σ → Prop
  | [], _ => True
  | input :: rest, state => meets state input ∧ AllMeet step meets rest (step input state)

instance AllMeet.decidable {σ ι : Type} (step : ι → σ → σ) (meets : σ → ι → Prop)
    [∀ state input, Decidable (meets state input)] :
    ∀ inputs state, Decidable (AllMeet step meets inputs state)
  | [], _ => inferInstanceAs (Decidable True)
  | input :: rest, state =>
    @instDecidableAnd _ _ inferInstance (AllMeet.decidable step meets rest (step input state))

theorem Reached.run_of_meet {σ ι : Type} {step : ι → σ → σ} {meets : σ → ι → Prop}
    {start state : σ} (inputs : List ι) (reached : Reached step meets start state)
    (all : AllMeet step meets inputs state) : Reached step meets start (run step inputs state) := by
  induction inputs generalizing state with
  | nil => exact reached
  | cons input rest ih => exact ih (.next input reached all.1) all.2

theorem Reached.run {σ ι : Type} {step : ι → σ → σ} {start state : σ} (inputs : List ι)
    (reached : Reached step (fun _ _ => True) start state) :
    Reached step (fun _ _ => True) start (run step inputs state) := by
  refine Reached.run_of_meet inputs reached ?_
  induction inputs generalizing state with
  | nil => trivial
  | cons input rest ih => exact ⟨trivial, ih (.next input reached trivial)⟩

end Bhaskix.Library
