import SolarNet.Lib.Run
import Mathlib.Data.Stream.Init
import Mathlib.Logic.Hydra
import Mathlib.Order.WellFounded

/-!
# When a run must stop

The labels of a run that may go on for ever are a stream.
`exists_stuck_of_wellFounded` is the rule by which it comes to a state from which
it cannot go on: each step lowers a measure.  The invariant may depend on how many
steps have been taken, so it can speak of the position in the stream.

The measure of a state is often a finite set of weighted elements, and a step
takes an element out and puts elements with smaller weights in.  `Replaces` says
this, and `replaces_wellFounded` is its well-foundedness.  Weights from which a
descending sequence starts may occur; only the element that is taken out must
not have one.
-/

namespace SolarNet
namespace Lib

/-! ## Streams of labels -/

section Streams

variable {σ ι : Type*} {step : σ → ι → Option σ} {Ok : σ → ι → Prop}

/-- A run is one step longer than the run before it. -/
theorem exec_take_succ {s final : σ} {labels : Stream' ι} {n : ℕ} :
    exec step s (labels.take (n + 1)) = some final ↔
      ∃ middle, exec step s (labels.take n) = some middle ∧
        step middle (labels.get n) = some final := by
  rw [Stream'.take_succ']
  constructor
  · intro hRun
    obtain ⟨middle, hFirst, hLast⟩ := exists_of_exec_append hRun
    obtain ⟨next, hNext, hNil⟩ := exec_cons_eq_some.mp hLast
    obtain rfl := Option.some.inj hNil
    exact ⟨middle, hFirst, hNext⟩
  · rintro ⟨middle, hFirst, hLast⟩
    exact exec_append_eq_some hFirst (exec_cons_eq_some.mpr ⟨final, hLast, rfl⟩)

/-- A run has passed through all of its positions. -/
theorem exists_exec_take_of_le {s final : σ} {labels : Stream' ι} {m n : ℕ} (hLe : m ≤ n)
    (hRun : exec step s (labels.take n) = some final) :
    ∃ middle, exec step s (labels.take m) = some middle := by
  induction hLe generalizing final with
  | refl => exact ⟨final, hRun⟩
  | step _ ih =>
      obtain ⟨middle, hMiddle, -⟩ := exec_take_succ.mp hRun
      exact ih hMiddle

/-- The side condition holds at each position that the run reaches. -/
theorem ok_of_meets_take {s middle : σ} {labels : Stream' ι} {n : ℕ}
    (hMeets : ∀ n, Meets step Ok s (labels.take n))
    (hRun : exec step s (labels.take n) = some middle) : Ok middle (labels.get n) := by
  have hLonger := hMeets (n + 1)
  rw [Stream'.take_succ'] at hLonger
  exact hLonger.after hRun

/-- What holds at one position and is kept by every step holds at all later positions. -/
theorem invariant_of_exec_take (Inv : σ → Prop)
    (hStep : ∀ s label next, Inv s → Ok s label → step s label = some next → Inv next)
    {s middle final : σ} {labels : Stream' ι} {m n : ℕ}
    (hMeets : ∀ n, Meets step Ok s (labels.take n)) (hLe : m ≤ n)
    (hMiddle : exec step s (labels.take m) = some middle) (hInv : Inv middle)
    (hFinal : exec step s (labels.take n) = some final) : Inv final := by
  induction hLe generalizing final with
  | refl =>
      obtain rfl := Option.some.inj (hMiddle.symm.trans hFinal)
      exact hInv
  | step _ ih =>
      obtain ⟨before, hBefore, hNext⟩ := exec_take_succ.mp hFinal
      exact hStep before _ final (ih hBefore) (ok_of_meets_take hMeets hBefore) hNext

/-- If each step that meets the side condition keeps the invariant and lowers the
measure, then the run gets stuck. -/
theorem exists_stuck_of_wellFounded {μ : Type*} {r : μ → μ → Prop} (hWf : WellFounded r)
    (measure : σ → μ) (Inv : ℕ → σ → Prop) {s : σ} {labels : Stream' ι} (hInv : Inv 0 s)
    (hStep : ∀ n s next, Inv n s → Ok s (labels.get n) → step s (labels.get n) = some next →
      Inv (n + 1) next ∧ r (measure next) (measure s))
    (hMeets : ∀ n, Meets step Ok s (labels.take n)) :
    ∃ n final, exec step s (labels.take n) = some final ∧ Inv n final ∧
      Ok final (labels.get n) ∧ step final (labels.get n) = none := by
  induction hMeasure : measure s using hWf.induction generalizing s labels Inv with
  | _ m ih =>
      have hOk : Ok s labels.head := (hMeets 1).1
      cases hNext : step s labels.head with
      | none => exact ⟨0, s, rfl, hInv, hOk, hNext⟩
      | some next =>
          obtain ⟨hNextInv, hLower⟩ := hStep 0 s next hInv hOk hNext
          rw [hMeasure] at hLower
          have hRest : ∀ n, Meets step Ok next (labels.tail.take n) :=
            fun n => (hMeets (n + 1)).2 next hNext
          obtain ⟨n, final, hRun, hFinal⟩ := ih _ hLower (fun n => Inv (n + 1)) hNextInv
            (fun n => hStep (n + 1)) hRest rfl
          refine ⟨n + 1, final, ?_, hFinal⟩
          rw [Stream'.take_succ]
          exact exec_cons_eq_some.mpr ⟨next, hNext, hRun⟩

end Streams

/-! ## Sets of weighted elements -/

section Replaces

open Relation

variable {ι ω : Type*} {r : ω → ω → Prop}

/-- Below `a`, and no descending sequence starts at `a`. -/
def Below (r : ω → ω → Prop) (b a : ω) : Prop :=
  r b a ∧ Acc r a

theorem below_wellFounded (r : ω → ω → Prop) : WellFounded (Below r) := by
  constructor
  intro a
  by_cases hAcc : Acc r a
  · induction hAcc with
    | intro a _ ih => exact Acc.intro a fun b hBelow => ih b hBelow.1
  · exact Acc.intro a fun b hBelow => absurd hBelow.2 hAcc

/-- A finite set of elements, each with a weight. -/
structure Weighted (ι ω : Type*) where
  members : Finset ι
  weight : ι → ω

/-- The weights of the members, as often as they occur. -/
def Weighted.weights (s : Weighted ι ω) : Multiset ω :=
  s.members.val.map s.weight

/-- A member is taken out of `s`, and perhaps others, and the members that are
added all weigh less than this one. -/
def Replaces (r : ω → ω → Prop) (s' s : Weighted ι ω) : Prop :=
  ∃ out ∈ s.members, out ∉ s'.members ∧ Acc r (s.weight out) ∧
    (∀ i ∈ s.members, i ∈ s'.members → s'.weight i = s.weight i) ∧
    ∀ i ∈ s'.members, i ∉ s.members → r (s'.weight i) (s.weight out)

/-- Leaving members out is a sequence of cuts that add nothing. -/
theorem cutExpand_of_add (s dropped : Multiset ω) :
    ReflTransGen (CutExpand r) s (s + dropped) := by
  induction dropped using Multiset.induction with
  | empty => simp [ReflTransGen.refl]
  | cons a dropped ih =>
      refine ih.tail ⟨0, a, by simp, ?_⟩
      rw [add_zero, add_assoc, add_comm dropped, Multiset.singleton_add]

/-- The weights of the members inside and outside of a set. -/
theorem Weighted.weights_eq_add [DecidableEq ι] (s : Weighted ι ω) (other : Finset ι) :
    s.weights = (s.members.filter (· ∈ other)).val.map s.weight +
      (s.members.filter (· ∉ other)).val.map s.weight := by
  rw [← Multiset.map_add, Finset.filter_val, Finset.filter_val, Multiset.filter_add_not]
  rfl

theorem Replaces.cutExpand {s' s : Weighted ι ω} (hReplaces : Replaces r s' s) :
    TransGen (CutExpand (Below r)) s'.weights s.weights := by
  classical
  obtain ⟨out, hOut, hGone, hAcc, hKept, hAdded⟩ := hReplaces
  let kept := (s.members.filter (· ∈ s'.members)).val.map s.weight
  let dropped := ((s.members.filter (· ∉ s'.members)).erase out).val.map s.weight
  let added := (s'.members.filter (· ∉ s.members)).val.map s'.weight
  have hSplit : s.weights = kept + (dropped + {s.weight out}) := by
    have hMem : out ∈ (s.members.filter (· ∉ s'.members)).val :=
      Finset.mem_filter.mpr ⟨hOut, hGone⟩
    rw [s.weights_eq_add s'.members, ← Multiset.cons_erase hMem, Multiset.map_cons,
      ← Multiset.singleton_add, add_comm {s.weight out}]
    rfl
  have hSplit' : s'.weights = kept + added := by
    have hSame : s'.members.filter (· ∈ s.members) = s.members.filter (· ∈ s'.members) := by
      ext i
      simp [and_comm]
    rw [s'.weights_eq_add s.members, hSame]
    congr 1
    apply Multiset.map_congr rfl
    intro i hI
    obtain ⟨hOld, hNew⟩ := Finset.mem_filter.mp hI
    exact hKept i hOld hNew
  rw [hSplit, hSplit']
  refine TransGen.tail' (cutExpand_of_add (kept + added) dropped) ⟨added, s.weight out, ?_, ?_⟩
  · intro w hW
    obtain ⟨i, hI, rfl⟩ := Multiset.mem_map.mp hW
    obtain ⟨hNew, hOld⟩ := Finset.mem_filter.mp hI
    exact ⟨hAdded i hNew hOld, hAcc⟩
  · abel

/-- **Replacing members by lighter ones ends.** -/
theorem replaces_wellFounded (r : ω → ω → Prop) :
    WellFounded (Replaces r : Weighted ι ω → Weighted ι ω → Prop) :=
  Subrelation.wf Replaces.cutExpand
    (InvImage.wf Weighted.weights (below_wellFounded r).cutExpand.transGen)

end Replaces

end Lib
end SolarNet
