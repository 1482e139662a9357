import Mathlib.Order.UpperLower.CompleteLattice
import Mathlib.Order.WellFounded
import Mathlib.Tactic

/-!
# Words compared up to their first difference

A word is a function on a well-ordered set of places, and only the places of a
lower set belong to it.  `LessOn part x y` says that `x` and `y` differ first at a
place of `part`, and that `x` is the smaller one there.

Words of different lengths are compared on the part that both have.  That relation
is irreflexive and transitive, but two words are incomparable as soon as one of
them continues the other.
-/

namespace SolarNet
namespace Lib

variable {ι α : Type*} [LinearOrder ι] [LinearOrder α]

/-- At the first place where the words differ, which is in `part`, the first word is
smaller. -/
def LessOn (part : LowerSet ι) (x y : ι → α) : Prop :=
  ∃ place ∈ part, (∀ earlier < place, x earlier = y earlier) ∧ x place < y place

theorem LessOn.irrefl (part : LowerSet ι) (x : ι → α) : ¬LessOn part x x := by
  rintro ⟨place, -, -, hLess⟩
  exact lt_irrefl _ hLess

/-- Three words with parts of their own, compared on what two of them have in
common. -/
theorem LessOn.trans {a b c : LowerSet ι} {x y z : ι → α} (hXY : LessOn (a ⊓ b) x y)
    (hYZ : LessOn (b ⊓ c) y z) : LessOn (a ⊓ c) x z := by
  obtain ⟨i, ⟨hIA, hIB⟩, hBeforeI, hLessI⟩ := hXY
  obtain ⟨j, ⟨hJB, hJC⟩, hBeforeJ, hLessJ⟩ := hYZ
  rcases lt_trichotomy i j with hLt | rfl | hGt
  · refine ⟨i, ⟨hIA, c.lower hLt.le hJC⟩, fun k hK => ?_, ?_⟩
    · exact (hBeforeI k hK).trans (hBeforeJ k (hK.trans hLt))
    · rw [← hBeforeJ i hLt]
      exact hLessI
  · refine ⟨i, ⟨hIA, hJC⟩, fun k hK => ?_, hLessI.trans hLessJ⟩
    exact (hBeforeI k hK).trans (hBeforeJ k hK)
  · refine ⟨j, ⟨a.lower hGt.le hIA, hJC⟩, fun k hK => ?_, ?_⟩
    · exact (hBeforeI k (hK.trans hGt)).trans (hBeforeJ k hK)
    · rw [hBeforeI j hGt]
      exact hLessJ

theorem not_lessOn_of_eqOn {part : LowerSet ι} {x y : ι → α}
    (hEq : ∀ place ∈ part, x place = y place) : ¬LessOn part x y := by
  rintro ⟨place, hPlace, -, hLess⟩
  exact hLess.ne (hEq place hPlace)

/-- Words that are not ordered either way agree on the whole part. -/
theorem eqOn_of_not_lessOn [WellFoundedLT ι] {part : LowerSet ι} {x y : ι → α}
    (hXY : ¬LessOn part x y) (hYX : ¬LessOn part y x) :
    ∀ place ∈ part, x place = y place := by
  intro place
  induction place using WellFoundedLT.induction with
  | ind place ih =>
      intro hPlace
      have hBefore : ∀ earlier < place, x earlier = y earlier := fun earlier hLt =>
        ih earlier hLt (part.lower hLt.le hPlace)
      rcases lt_trichotomy (x place) (y place) with hLess | hEq | hGreater
      · exact absurd ⟨place, hPlace, hBefore, hLess⟩ hXY
      · exact hEq
      · exact absurd ⟨place, hPlace, fun earlier hLt => (hBefore earlier hLt).symm, hGreater⟩ hYX

end Lib
end SolarNet
