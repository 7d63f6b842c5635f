import Mathlib

/-!
# Labelled transition systems with guarded runs

A system is a partial step function on states and actions. `Steps step ok s t` says that some
run leads from `s` to `t` in which every action was taken in a state where `ok` allows it; the
guard is how an environment assumption or the condition of a theorem enters a run. `exec` runs
a fixed list of actions and checks the guard on the way, so that a concrete run can be
evaluated.
-/

namespace HotCounter

namespace Foundation

variable {σ α : Type*} {step : σ → α → Option σ} {ok ok' : σ → α → Prop}

/-- The runs of a system whose every action is allowed by `ok`. -/
inductive Steps (step : σ → α → Option σ) (ok : σ → α → Prop) (s : σ) : σ → Prop
  | refl : Steps step ok s s
  | tail {t u : σ} {a : α} : Steps step ok s t → ok t a → step t a = some u → Steps step ok s u

namespace Steps

/-- An invariant of every allowed step is an invariant of every run. -/
theorem invariant {P : σ → Prop} {s t : σ} (h : Steps step ok s t) (h0 : P s)
    (hstep : ∀ t u a, P t → ok t a → step t a = some u → P u) : P t := by
  induction h with
  | refl => exact h0
  | tail _ hok hs ih => exact hstep _ _ _ ih hok hs

/-- A run under a guard is a run under every weaker guard. -/
theorem mono {s t : σ} (h : Steps step ok s t) (hok : ∀ t a, ok t a → ok' t a) :
    Steps step ok' s t := by
  induction h with
  | refl => exact .refl
  | tail _ h hs ih => exact .tail ih (hok _ _ h) hs

theorem trans {s t u : σ} (h₁ : Steps step ok s t) (h₂ : Steps step ok t u) :
    Steps step ok s u := by
  induction h₂ with
  | refl => exact h₁
  | tail _ hok hs ih => exact .tail ih hok hs

end Steps

/-- Run a list of actions, stopping with `none` at one that is not enabled or not allowed. -/
def exec (step : σ → α → Option σ) (ok : σ → α → Prop) [∀ s a, Decidable (ok s a)] (s : σ) :
    List α → Option σ
  | [] => some s
  | a :: as =>
    if ok s a then
      match step s a with
      | none => none
      | some t => exec step ok t as
    else none

/-- An executed list of actions is a run. -/
theorem Steps.of_exec [∀ s a, Decidable (ok s a)] : ∀ {as : List α} {s t : σ},
    exec step ok s as = some t → Steps step ok s t
  | [], s, t, h => by
    obtain rfl : s = t := Option.some.inj h
    exact .refl
  | a :: as, s, t, h => by
    simp only [exec] at h
    split at h
    · rename_i hok
      split at h
      · exact absurd h nofun
      · rename_i u hs
        exact (Steps.refl.tail hok hs).trans (Steps.of_exec h)
    · exact absurd h nofun

/-- Evaluating a list of actions and a decidable property of the state it leads to shows that
a run reaches such a state. -/
theorem Steps.exists_of_exec [∀ s a, Decidable (ok s a)] {P : σ → Prop} [DecidablePred P]
    {as : List α} {s : σ} (h : (exec step ok s as).map (fun t => decide (P t)) = some true) :
    ∃ t, Steps step ok s t ∧ P t := by
  obtain ⟨t, hexec, ht⟩ := Option.map_eq_some_iff.mp h
  exact ⟨t, .of_exec hexec, of_decide_eq_true ht⟩

end Foundation

end HotCounter
