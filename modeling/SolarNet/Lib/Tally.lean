import Mathlib.Algebra.BigOperators.Group.Finset.Basic
import Mathlib.Algebra.Order.BigOperators.Group.Finset
import Mathlib.Tactic

/-!
# Weights of many agents

Where each of a set of agents is, is a function, and each place has a weight.  `tally` is
the sum of the weights.  When one agent moves, the tally changes by what its two places
differ in; the rule is stated with sums on both sides, so that it can be used by `omega`.
-/

namespace SolarNet
namespace Lib

variable {ι π : Type*}

/-- The weights of the places of these agents. -/
def tally (agents : Finset ι) (weight : π → ℕ) (place : ι → π) : ℕ :=
  ∑ agent ∈ agents, weight (place agent)

/-- One agent moves. -/
theorem tally_update [DecidableEq ι] {agents : Finset ι} {mover : ι} (hMover : mover ∈ agents)
    (weight : π → ℕ) (place : ι → π) (target : π) :
    tally agents weight (Function.update place mover target) + weight (place mover) =
      tally agents weight place + weight target := by
  have hRest : ∑ agent ∈ agents.erase mover, weight (Function.update place mover target agent) =
      ∑ agent ∈ agents.erase mover, weight (place agent) := by
    refine Finset.sum_congr rfl fun agent hAgent => ?_
    rw [Function.update_of_ne (Finset.ne_of_mem_erase hAgent)]
  have hNew := Finset.add_sum_erase agents
    (fun agent => weight (Function.update place mover target agent)) hMover
  have hOld := Finset.add_sum_erase agents (fun agent => weight (place agent)) hMover
  rw [Function.update_self] at hNew
  unfold tally
  omega

/-- Every agent moves, and no place gains more than `gain`. -/
theorem tally_le_add {agents : Finset ι} {weight : π → ℕ} {place place' : ι → π} {gain : ℕ}
    (hGain : ∀ agent ∈ agents, weight (place' agent) ≤ weight (place agent) + gain) :
    tally agents weight place' ≤ tally agents weight place + gain * agents.card := by
  calc tally agents weight place'
      ≤ ∑ agent ∈ agents, (weight (place agent) + gain) := Finset.sum_le_sum hGain
    _ = tally agents weight place + gain * agents.card := by
        rw [Finset.sum_add_distrib, Finset.sum_const, smul_eq_mul, mul_comm]
        rfl

theorem tally_eq_zero {agents : Finset ι} {weight : π → ℕ} {place : ι → π}
    (hNone : ∀ agent ∈ agents, weight (place agent) = 0) : tally agents weight place = 0 :=
  Finset.sum_eq_zero hNone

end Lib
end SolarNet
