import Mathlib.Data.List.Basic
import Mathlib.Logic.Basic

/-! Labelled transition systems and their finite runs. A system is a relation
between a state, an action and the next state; runs record the actions taken,
so a statement can speak about what happened before and after one of them. -/
namespace Transition

universe u v

variable {State : Type u} {Action : Type v}

/-- The relation of an executable step function, `none` where the action is
not enabled. -/
def ofStep (step : State → Action → Option State) :
    State → Action → State → Prop :=
  fun s a t => step s a = some t

/-- The steps of `R` whose state and action meet `Allowed`. -/
def restrict (R : State → Action → State → Prop) (Allowed : State → Action → Prop) :
    State → Action → State → Prop :=
  fun s a t => R s a t ∧ Allowed s a

/-- A finite run, with its actions in the order they were taken. It grows at its end, so that
invariants are proved by what the last step keeps. -/
inductive Run (R : State → Action → State → Prop) :
    State → List Action → State → Prop where
  | nil (s : State) : Run R s [] s
  | snoc {s t u : State} {as : List Action} {a : Action}
      (prior : Run R s as t) (last : R t a u) : Run R s (as ++ [a]) u

variable {R : State → Action → State → Prop} {s t u : State} {as bs : List Action} {a : Action}

theorem Run.single (last : R s a t) : Run R s [a] t :=
  Run.snoc (Run.nil s) last

/-- Two runs that meet are one run. -/
theorem Run.trans (left : Run R s as t) (right : Run R t bs u) :
    Run R s (as ++ bs) u := by
  induction right with
  | nil => simpa using left
  | snoc prior last ih =>
      rw [← List.append_assoc]
      exact Run.snoc ih last

/-- A run may be read from its first action. -/
theorem Run.cons (first : R s a t) (rest : Run R t as u) : Run R s (a :: as) u :=
  (Run.single first).trans rest

theorem Run.mono {Q : State → Action → State → Prop}
    (hLe : ∀ s a t, R s a t → Q s a t) (run : Run R s as t) : Run Q s as t := by
  induction run with
  | nil => exact Run.nil _
  | snoc prior last ih => exact Run.snoc ih (hLe _ _ _ last)

/-- A run under a restriction is a run of the whole system. -/
theorem Run.unrestrict {Allowed : State → Action → Prop}
    (run : Run (restrict R Allowed) s as t) : Run R s as t :=
  run.mono fun _ _ _ h => h.1

/-- A run whose actions are all allowed is a run under the restriction. -/
theorem Run.restrict {Allowed : Action → Prop} (run : Run R s as t) (hAll : ∀ a ∈ as, Allowed a) :
    Run (restrict R fun _ a => Allowed a) s as t := by
  induction run with
  | nil => exact Run.nil _
  | snoc prior last ih =>
      exact Run.snoc (ih fun a ha => hAll a (by simp [ha])) ⟨last, hAll _ (by simp)⟩

/-- Invariant rule: what every step keeps, every run keeps. -/
theorem Run.invariant {P : State → Prop}
    (hStep : ∀ s a t, P s → R s a t → P t)
    (run : Run R s as t) (hStart : P s) : P t := by
  induction run with
  | nil => exact hStart
  | snoc prior last ih => exact hStep _ _ _ ih last

/-- Counting rule: `P n` speaks about a state after `n` of the actions that
`counts` marks. Every step moves it by its own contribution. -/
theorem Run.counted (counts : Action → Bool) {P : Nat → State → Prop}
    (hStep : ∀ n s a t, P n s → R s a t → P (if counts a then n + 1 else n) t)
    (run : Run R s as t) {n : Nat} (hStart : P n s) : P (n + as.countP counts) t := by
  induction run with
  | nil => simpa using hStart
  | @snoc _ _ as a prior last ih =>
      have h := hStep _ _ _ _ ih last
      cases hc : counts a with
      | false => simpa [hc] using h
      | true => simpa [hc, Nat.add_assoc] using h

/-- The states some run from `s` reaches. -/
def Reachable (R : State → Action → State → Prop) (s t : State) : Prop :=
  ∃ as, Run R s as t

theorem Reachable.invariant {P : State → Prop}
    (hStep : ∀ s a t, P s → R s a t → P t)
    (reach : Reachable R s t) (hStart : P s) : P t := by
  obtain ⟨as, run⟩ := reach
  exact run.invariant hStep hStart

/-- Progress rule: while the goal is not met some step keeps `P` and lowers a
rank, so some run meets the goal. -/
theorem exists_run_of_progress {P Goal : State → Prop} (rank : State → Nat)
    (hStep : ∀ s, P s → ¬ Goal s → ∃ a t, R s a t ∧ P t ∧ rank t < rank s) {s : State}
    (hStart : P s) : ∃ as t, Run R s as t ∧ P t ∧ Goal t := by
  induction hRank : rank s using Nat.strongRecOn generalizing s with
  | ind n ih =>
      by_cases hGoal : Goal s
      · exact ⟨[], s, Run.nil s, hStart, hGoal⟩
      · obtain ⟨a, middle, hFirst, hMiddle, hLt⟩ := hStep s hStart hGoal
        obtain ⟨as, t, run, hEnd⟩ := ih _ (by omega) hMiddle rfl
        exact ⟨a :: as, t, Run.cons hFirst run, hEnd⟩

/-- Execute a list of actions with a partial step function. It gives nothing if one of them is
not enabled. -/
def exec (step : State → Action → Option State) : State → List Action → Option State
  | s, [] => some s
  | s, a :: as => (step s a).bind fun t => exec step t as

theorem exec_append (step : State → Action → Option State) (s : State) (as bs : List Action) :
    exec step s (as ++ bs) = (exec step s as).bind fun t => exec step t bs := by
  induction as generalizing s with
  | nil => rfl
  | cons a as ih =>
      rw [List.cons_append, exec, exec]
      cases step s a with
      | none => rfl
      | some t => exact ih t

/-- An execution that succeeds is a run of the step function's relation. -/
theorem run_of_exec {step : State → Action → Option State} {as : List Action} {s t : State}
    (h : exec step s as = some t) : Run (ofStep step) s as t := by
  induction as generalizing s with
  | nil =>
      cases h
      exact Run.nil _
  | cons a as ih =>
      obtain ⟨middle, hFirst, hRest⟩ := Option.bind_eq_some_iff.mp h
      exact Run.cons hFirst (ih hRest)

/-- A step function that is enabled only where a test passes. Its runs are runs of the unguarded
steps that meet the test. -/
def guarded (test : State → Action → Bool) (step : State → Action → Option State) :
    State → Action → Option State :=
  fun s a => if test s a then step s a else none

/-- A run behind a test is a run under every restriction that the test decides. -/
theorem Run.of_guarded {test : State → Action → Bool} {step : State → Action → Option State}
    {Allowed : State → Action → Prop} (hTest : ∀ s a, test s a = true → Allowed s a)
    (run : Run (ofStep (guarded test step)) s as t) :
    Run (Transition.restrict (ofStep step) Allowed) s as t := by
  refine run.mono fun s a t h => ?_
  simp only [ofStep, guarded, Option.ite_none_right_eq_some] at h
  exact ⟨h.2, hTest s a h.1⟩

end Transition
