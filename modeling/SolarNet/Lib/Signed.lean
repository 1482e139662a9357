import Mathlib.Data.Int.Basic
import Mathlib.Tactic

/-!
# Signed integers of fixed width

Signed arithmetic of C++: a result that does not fit into the type is undefined
behaviour, so `checked` has no value there.  A conversion to a narrower type is
defined for every value and reduces it modulo the range of the type.
-/

namespace SolarNet
namespace Lib
namespace Signed

/-- The values of a signed integer type of `bits` bits. -/
def Fits (bits : Nat) (value : Int) : Prop :=
  -2 ^ (bits - 1) ≤ value ∧ value < 2 ^ (bits - 1)

instance decidableFits (bits : Nat) (value : Int) : Decidable (Fits bits value) :=
  inferInstanceAs (Decidable (_ ∧ _))

/-- The result of an arithmetic operation whose exact value is `value`. -/
def checked (bits : Nat) (value : Int) : Option Int :=
  if Fits bits value then some value else none

/-- Conversion to a signed integer type. -/
def convert (bits : Nat) (value : Int) : Int :=
  value.bmod (2 ^ bits)

theorem checked_of_fits {bits : Nat} {value : Int} (hFits : Fits bits value) :
    checked bits value = some value :=
  if_pos hFits

theorem checked_eq_some_iff {bits : Nat} {value result : Int} :
    checked bits value = some result ↔ Fits bits value ∧ result = value := by
  simp [checked, eq_comm]

theorem fits_64_iff {value : Int} :
    Fits 64 value ↔ -9223372036854775808 ≤ value ∧ value < 9223372036854775808 := by
  simp [Fits]

/-- A conversion keeps a non-negative value that the type can hold. -/
theorem convert_32 {value : Int} (hNonneg : 0 ≤ value) (hLe : value ≤ 2147483647) :
    convert 32 value = value := by
  apply Int.bmod_eq_of_le <;> omega

end Signed
end Lib
end SolarNet
