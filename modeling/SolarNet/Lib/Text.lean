import Mathlib.Data.List.Basic
import Mathlib.Tactic

/-!
# Texts with separators

A text in which what follows the last separator is free of that separator can be
taken apart again.  Decimal numbers are free of everything but digits and a minus
sign.
-/

namespace SolarNet
namespace Lib

/-- Two lists that are equal are equal on both sides of the last separator. -/
theorem append_separator_inj {α : Type*} {sep : α} {first second rest rest' : List α}
    (hRest : sep ∉ rest) (hRest' : sep ∉ rest')
    (hEq : first ++ sep :: rest = second ++ sep :: rest') : first = second ∧ rest = rest' := by
  rcases List.append_eq_append_iff.mp hEq with ⟨middle, rfl, hTail⟩ | ⟨middle, rfl, hTail⟩
  · cases middle with
    | nil => simpa using hTail
    | cons head middle =>
        simp only [List.cons_append, List.cons.injEq] at hTail
        exact absurd (hTail.2 ▸ by simp) hRest
  · cases middle with
    | nil => simpa [eq_comm] using hTail
    | cons head middle =>
        simp only [List.cons_append, List.cons.injEq] at hTail
        exact absurd (hTail.2 ▸ by simp) hRest'

theorem not_mem_repr_nat {c : Char} (hDigit : c.isDigit = false) (n : Nat) :
    c ∉ n.repr.toList := by
  intro hMem
  rw [Nat.toList_repr] at hMem
  have hIs := Nat.isDigit_of_mem_toDigits (by decide) (by decide) hMem
  rw [hDigit] at hIs
  cases hIs

/-- The text of an integer has digits and perhaps a minus sign. -/
theorem not_mem_toString_int {c : Char} (hDigit : c.isDigit = false) (hMinus : c ≠ '-')
    (i : Int) : c ∉ (toString i).toList := by
  cases i with
  | ofNat n => exact not_mem_repr_nat hDigit n
  | negSucc n =>
      change c ∉ ("-" ++ n.succ.repr).toList
      rw [String.toList_append, List.mem_append, not_or]
      exact ⟨by simpa using hMinus, not_mem_repr_nat hDigit n.succ⟩

end Lib
end SolarNet
