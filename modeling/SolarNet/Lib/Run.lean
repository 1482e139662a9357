import Mathlib.Data.List.Basic
import Mathlib.Data.Option.Basic
import Mathlib.Tactic

/-!
# Runs of a partial step function

A component is given by a step function `step : σ → ι → Option σ`.  A label of
type `ι` carries every choice the environment makes, so `none` means that the
step is not enabled in that state or that it leaves the defined behaviour of
the program.  A run is a list of labels, and `exec` executes it.

The file contains the rules by which a fact about one step becomes a fact about
every run:

* `exec_invariant` for an inductive invariant;
* `exec_invariant_of_meets` for an invariant that needs a side condition on
  each step taken (`Meets`);
* `exec_total_of_meets` for a run that cannot get stuck;
* `forall_prefix_iff_meets` and `forall_step_iff_meets` for a side condition that is exact;
* `exec_simulation` for a forward simulation by the runs of an abstract machine;
* `execReply_simulation` for one by an abstract machine that also judges the answers of each
  step.

Every prefix of a run is a run, so a statement about the final state of every
run is a statement about every state reached.
-/

namespace SolarNet
namespace Lib

/-- Execute a list of labels from left to right. -/
def exec {σ ι : Type*} (step : σ → ι → Option σ) (s : σ) (labels : List ι) :
    Option σ :=
  labels.foldlM step s

@[simp] theorem exec_nil {σ ι : Type*} (step : σ → ι → Option σ) (s : σ) :
    exec step s [] = some s := rfl

@[simp] theorem exec_cons {σ ι : Type*} (step : σ → ι → Option σ) (s : σ)
    (label : ι) (labels : List ι) :
    exec step s (label :: labels) =
      (step s label).bind fun next => exec step next labels := by
  simp [exec, List.foldlM_cons]

/-- A nonempty run takes its first step and then runs the remaining labels. -/
theorem exec_cons_eq_some {σ ι : Type*} {step : σ → ι → Option σ} {s final : σ}
    {label : ι} {labels : List ι} :
    exec step s (label :: labels) = some final ↔
      ∃ next, step s label = some next ∧ exec step next labels = some final := by
  rw [exec_cons, Option.bind_eq_some_iff]

/-- A run can be continued by a run from the state that it reaches. -/
theorem exec_append_eq_some {σ ι : Type*} {step : σ → ι → Option σ} {s middle final : σ}
    {first second : List ι} (hFirst : exec step s first = some middle)
    (hSecond : exec step middle second = some final) :
    exec step s (first ++ second) = some final := by
  simp only [exec] at hFirst hSecond ⊢
  rw [List.foldlM_append, hFirst]
  exact hSecond

/-- A run stops at the end of each of its parts. -/
theorem exists_of_exec_append {σ ι : Type*} {step : σ → ι → Option σ} {s final : σ}
    {first second : List ι} (hRun : exec step s (first ++ second) = some final) :
    ∃ middle, exec step s first = some middle ∧ exec step middle second = some final := by
  simp only [exec, List.foldlM_append] at hRun ⊢
  exact Option.bind_eq_some_iff.mp hRun

/-- A property that every step preserves holds at the end of every run. -/
theorem exec_invariant {σ ι : Type*} {step : σ → ι → Option σ} (Inv : σ → Prop)
    (hStep : ∀ s label next, Inv s → step s label = some next → Inv next)
    {s final : σ} {labels : List ι} (hInv : Inv s)
    (hRun : exec step s labels = some final) : Inv final := by
  induction labels generalizing s with
  | nil =>
      obtain rfl : s = final := by simpa using hRun
      exact hInv
  | cons label labels ih =>
      obtain ⟨next, hNext, hRest⟩ := exec_cons_eq_some.mp hRun
      exact ih (hStep s label next hInv hNext) hRest

/-- `Meets step Ok s labels`: every step that the run takes satisfies the side
condition `Ok` in the state in which it is taken. -/
def Meets {σ ι : Type*} (step : σ → ι → Option σ) (Ok : σ → ι → Prop) :
    σ → List ι → Prop
  | _, [] => True
  | s, label :: labels =>
      Ok s label ∧ ∀ next, step s label = some next → Meets step Ok next labels

theorem Meets.of_append {σ ι : Type*} {step : σ → ι → Option σ} {Ok : σ → ι → Prop}
    {s : σ} {first second : List ι} (hMeets : Meets step Ok s (first ++ second)) :
    Meets step Ok s first := by
  induction first generalizing s with
  | nil => trivial
  | cons label first ih =>
      exact ⟨hMeets.1, fun next hNext => ih (hMeets.2 next hNext)⟩

theorem Meets.append {σ ι : Type*} {step : σ → ι → Option σ} {Ok : σ → ι → Prop}
    {s middle : σ} {first second : List ι} (hFirst : Meets step Ok s first)
    (hRun : exec step s first = some middle) (hSecond : Meets step Ok middle second) :
    Meets step Ok s (first ++ second) := by
  induction first generalizing s with
  | nil =>
      obtain rfl : s = middle := by simpa using hRun
      exact hSecond
  | cons label first ih =>
      obtain ⟨next, hNext, hRest⟩ := exec_cons_eq_some.mp hRun
      refine ⟨hFirst.1, fun other hOther => ?_⟩
      obtain rfl : next = other := Option.some.inj (hNext.symm.trans hOther)
      exact ih (hFirst.2 next hNext) hRest

/-- A side condition on the labels alone. -/
theorem Meets.of_forall {σ ι : Type*} {step : σ → ι → Option σ} {Ok : ι → Prop} {s : σ}
    {labels : List ι} (hOk : ∀ label ∈ labels, Ok label) :
    Meets step (fun _ label => Ok label) s labels := by
  induction labels generalizing s with
  | nil => trivial
  | cons label labels ih =>
      exact ⟨hOk label (by simp), fun next _ => ih fun other hOther =>
        hOk other (List.mem_cons_of_mem label hOther)⟩

/-- The step after a part of the run meets the side condition as well. -/
theorem Meets.after {σ ι : Type*} {step : σ → ι → Option σ} {Ok : σ → ι → Prop}
    {s t : σ} {first rest : List ι} {label : ι}
    (hMeets : Meets step Ok s (first ++ label :: rest))
    (hRun : exec step s first = some t) : Ok t label := by
  induction first generalizing s with
  | nil =>
      obtain rfl : s = t := by simpa using hRun
      exact hMeets.1
  | cons head first ih =>
      obtain ⟨next, hNext, hRest⟩ := exec_cons_eq_some.mp hRun
      exact ih (hMeets.2 next hNext) hRest

/-- A decidable side condition makes it decidable whether a run meets it. -/
instance decidableMeets {σ ι : Type*} (step : σ → ι → Option σ) (Ok : σ → ι → Prop)
    [∀ s label, Decidable (Ok s label)] :
    (s : σ) → (labels : List ι) → Decidable (Meets step Ok s labels)
  | _, [] => isTrue trivial
  | s, label :: labels =>
      match hStep : step s label with
      | none => decidable_of_iff (Ok s label) (by simp [Meets, hStep])
      | some next =>
          have := decidableMeets step Ok next labels
          decidable_of_iff (Ok s label ∧ Meets step Ok next labels) (by simp [Meets, hStep])

/-- The invariant rule for runs whose steps all meet a side condition. -/
theorem exec_invariant_of_meets {σ ι : Type*} {step : σ → ι → Option σ}
    {Ok : σ → ι → Prop} (Inv : σ → Prop)
    (hStep : ∀ s label next, Inv s → Ok s label → step s label = some next →
      Inv next)
    {s final : σ} {labels : List ι} (hInv : Inv s)
    (hMeets : Meets step Ok s labels)
    (hRun : exec step s labels = some final) : Inv final := by
  induction labels generalizing s with
  | nil =>
      obtain rfl : s = final := by simpa using hRun
      exact hInv
  | cons label labels ih =>
      obtain ⟨next, hNext, hRest⟩ := exec_cons_eq_some.mp hRun
      exact ih (hStep s label next hInv hMeets.1 hNext) (hMeets.2 next hNext) hRest

/-- If the invariant enables every label that meets the side condition, then a
run whose steps all meet it does not get stuck and keeps the invariant. -/
theorem exec_total_of_meets {σ ι : Type*} {step : σ → ι → Option σ}
    {Ok : σ → ι → Prop} (Inv : σ → Prop)
    (hStep : ∀ s label, Inv s → Ok s label →
      ∃ next, step s label = some next ∧ Inv next)
    {s : σ} {labels : List ι} (hInv : Inv s) (hMeets : Meets step Ok s labels) :
    ∃ final, exec step s labels = some final ∧ Inv final := by
  induction labels generalizing s with
  | nil => exact ⟨s, rfl, hInv⟩
  | cons label labels ih =>
      obtain ⟨next, hNext, hNextInv⟩ := hStep s label hInv hMeets.1
      obtain ⟨final, hFinal, hFinalInv⟩ := ih hNextInv (hMeets.2 next hNext)
      exact ⟨final, exec_cons_eq_some.mpr ⟨next, hNext, hFinal⟩, hFinalInv⟩

/-- An exact side condition.  When a step from a state of the invariant keeps the
invariant if it meets the condition, and leads to a bad state if it does not,
then all states of a run are good exactly when its steps meet the condition. -/
theorem forall_prefix_iff_meets {σ ι : Type*} {step : σ → ι → Option σ}
    {Ok : σ → ι → Prop} (Inv Good : σ → Prop) (hGood : ∀ s, Inv s → Good s)
    (hStuck : ∀ s label, Inv s → step s label = none → Ok s label)
    (hKeep : ∀ s label next, Inv s → step s label = some next → Ok s label → Inv next)
    (hBreak : ∀ s label next, Inv s → step s label = some next → Good next → Ok s label)
    {s : σ} (hInv : Inv s) (labels : List ι) :
    (∀ pre final, pre <+: labels → exec step s pre = some final → Good final) ↔
      Meets step Ok s labels := by
  constructor
  · intro hAll
    induction labels generalizing s with
    | nil => trivial
    | cons label labels ih =>
        have hOk : Ok s label := by
          cases hNext : step s label with
          | none => exact hStuck s label hInv hNext
          | some next =>
              refine hBreak s label next hInv hNext (hAll [label] next ?_ ?_)
              · exact ⟨labels, rfl⟩
              · simp [hNext]
        refine ⟨hOk, fun next hNext => ih (hKeep s label next hInv hNext hOk) ?_⟩
        intro pre final hPrefix hRun
        refine hAll (label :: pre) final ?_ (exec_cons_eq_some.mpr ⟨next, hNext, hRun⟩)
        exact (List.prefix_cons_inj label).mpr hPrefix
  · intro hMeets pre final hPrefix hRun
    obtain ⟨rest, rfl⟩ := hPrefix
    exact hGood final (exec_invariant_of_meets Inv
      (fun s label next hInv hOk hNext => hKeep s label next hInv hNext hOk)
      hInv hMeets.of_append hRun)

/-- An exact side condition for a property of steps.  When, in a state of the invariant, a
step meets the condition exactly if whatever it leads to is good, then all steps of a run are
good exactly when they meet the condition. -/
theorem forall_step_iff_meets {σ ι : Type*} {step : σ → ι → Option σ} {Ok : σ → ι → Prop}
    (Inv : σ → Prop) (Good : σ → ι → σ → Prop)
    (hKeep : ∀ s label next, Inv s → step s label = some next → Ok s label → Inv next)
    (hExact : ∀ s label, Inv s →
      (Ok s label ↔ ∀ next, step s label = some next → Good s label next))
    {s : σ} (hInv : Inv s) (labels : List ι) :
    (∀ pre label middle next, pre ++ [label] <+: labels → exec step s pre = some middle →
      step middle label = some next → Good middle label next) ↔ Meets step Ok s labels := by
  constructor
  · intro hAll
    induction labels generalizing s with
    | nil => trivial
    | cons label labels ih =>
        have hOk : Ok s label := (hExact s label hInv).mpr fun next hNext =>
          hAll [] label s next ⟨labels, rfl⟩ rfl hNext
        refine ⟨hOk, fun next hNext => ih (hKeep s label next hInv hNext hOk) ?_⟩
        intro pre other middle final hPart hRun hFinal
        refine hAll (label :: pre) other middle final ?_
          (exec_cons_eq_some.mpr ⟨next, hNext, hRun⟩) hFinal
        exact (List.prefix_cons_inj label).mpr hPart
  · rintro hMeets pre label middle next ⟨rest, rfl⟩ hRun hNext
    rw [List.append_assoc] at hMeets
    have hMiddle : Inv middle := exec_invariant_of_meets Inv
      (fun s label next hInv hOk hStep => hKeep s label next hInv hStep hOk) hInv
      hMeets.of_append hRun
    exact (hExact middle label hMiddle).mp (hMeets.after hRun) next hNext

/-! ## Simulation -/

/-- Forward simulation.  When every concrete step from related states is matched by a run of
abstract steps that leads to related states again, then so is every concrete run.  The
abstract run meets its side condition if the concrete one meets its own. -/
theorem exec_simulation {σ τ ι κ : Type*} {concrete : σ → ι → Option σ}
    {abstract : τ → κ → Option τ} {Ok : σ → ι → Prop} {Ok' : τ → κ → Prop}
    (Rel : σ → τ → Prop)
    (hStep : ∀ s t label next, Rel s t → concrete s label = some next →
      ∃ acts t', exec abstract t acts = some t' ∧ Rel next t' ∧
        (Ok s label → Meets abstract Ok' t acts))
    {s final : σ} {t : τ} (hRel : Rel s t) {labels : List ι}
    (hRun : exec concrete s labels = some final) :
    ∃ acts t', exec abstract t acts = some t' ∧ Rel final t' ∧
      (Meets concrete Ok s labels → Meets abstract Ok' t acts) := by
  induction labels generalizing s t with
  | nil =>
      obtain rfl : s = final := by simpa using hRun
      exact ⟨[], t, rfl, hRel, fun _ => trivial⟩
  | cons label labels ih =>
      obtain ⟨next, hNext, hRest⟩ := exec_cons_eq_some.mp hRun
      obtain ⟨first, middle, hFirst, hMiddle, hFirstMeets⟩ := hStep s t label next hRel hNext
      obtain ⟨second, t', hSecond, hFinal, hSecondMeets⟩ := ih hMiddle hRest
      refine ⟨first ++ second, t', exec_append_eq_some hFirst hSecond, hFinal, fun hMeets => ?_⟩
      exact (hFirstMeets hMeets.1).append hFirst (hSecondMeets (hMeets.2 next hNext))

/-! ## Steps that answer

A step of a sequential component also returns an answer.  Its abstract
counterpart is a relation that accepts or refuses a label together with the
answer that was given. -/

/-- Execute a list of labels and collect the answers in order. -/
def execReply {σ ι ω : Type*} (step : σ → ι → Option (σ × ω)) :
    σ → List ι → Option (σ × List ω)
  | s, [] => some (s, [])
  | s, label :: labels =>
      (step s label).bind fun next =>
        (execReply step next.1 labels).map fun final =>
          (final.1, next.2 :: final.2)

/-- A path of a labelled transition relation. -/
def Path {τ κ : Type*} (Accepts : τ → κ → τ → Prop) : τ → List κ → τ → Prop
  | t, [], final => t = final
  | t, label :: labels, final =>
      ∃ next, Accepts t label next ∧ Path Accepts next labels final

/-- Forward simulation.  When every concrete step is defined, its label and
answer are accepted by the abstract machine, and the relation is kept, then
every concrete run is defined, answers every label, and its trace is a path of
the abstract machine between related states. -/
theorem execReply_simulation {σ τ ι ω : Type*} {step : σ → ι → Option (σ × ω)}
    {Accepts : τ → ι × ω → τ → Prop} (Rel : σ → τ → Prop)
    (hStep : ∀ s t label, Rel s t →
      ∃ next reply t', step s label = some (next, reply) ∧
        Accepts t (label, reply) t' ∧ Rel next t')
    {s : σ} {t : τ} (hRel : Rel s t) (labels : List ι) :
    ∃ final replies t', execReply step s labels = some (final, replies) ∧
      replies.length = labels.length ∧
      Path Accepts t (labels.zip replies) t' ∧ Rel final t' := by
  induction labels generalizing s t with
  | nil => exact ⟨s, [], t, rfl, rfl, rfl, hRel⟩
  | cons label labels ih =>
      obtain ⟨next, reply, middle, hNext, hAccepts, hNextRel⟩ := hStep s t label hRel
      obtain ⟨final, replies, t', hFinal, hLength, hPath, hFinalRel⟩ := ih hNextRel
      refine ⟨final, reply :: replies, t', ?_, ?_, ?_, hFinalRel⟩
      · simp [execReply, hNext, hFinal]
      · simp [hLength]
      · exact ⟨middle, hAccepts, hPath⟩

end Lib
end SolarNet
