import Mathlib.Tactic

/-!
# Mutual exclusion

A mutex is held by at most one agent.  `Exclusive mutex holds` says that an agent whose
program is inside its critical section is the one the mutex belongs to; the lemmas are
the rules by which locking, unlocking and all other steps keep that.
-/

namespace SolarNet
namespace Lib

/-- Only the owner of the mutex is in its critical section. -/
def Exclusive {α : Type*} (mutex : Option α) (holds : α → Prop) : Prop :=
  ∀ agent, holds agent → mutex = some agent

namespace Exclusive

variable {α : Type*} {mutex mutex' : Option α} {holds holds' : α → Prop} {agent other : α}

/-- Two agents in their critical sections are one agent. -/
theorem unique (hInv : Exclusive mutex holds) (hAgent : holds agent) (hOther : holds other) :
    agent = other := by
  have hEq := (hInv agent hAgent).symm.trans (hInv other hOther)
  simpa using hEq

/-- A step that does not touch the mutex. -/
theorem keep (hInv : Exclusive mutex holds) (hHolds : ∀ a, holds' a → holds a) :
    Exclusive mutex holds' :=
  fun a hA => hInv a (hHolds a hA)

theorem acquire (hInv : Exclusive mutex holds) (hFree : mutex = none)
    (hHolds : ∀ a, holds' a → a = agent ∨ holds a) : Exclusive (some agent) holds' := by
  intro a hA
  rcases hHolds a hA with rfl | hOld
  · rfl
  · have hTaken := hInv a hOld
    simp [hFree] at hTaken

theorem release (hInv : Exclusive mutex holds) (hHeld : holds agent)
    (hHolds : ∀ a, holds' a → a ≠ agent ∧ holds a) : Exclusive none holds' := by
  intro a hA
  obtain ⟨hOther, hOld⟩ := hHolds a hA
  exact absurd (hInv.unique hOld hHeld) hOther

end Exclusive
end Lib
end SolarNet
