import HotCounter.Counter.Types

/-!
# The strict counter

`StrictCounter` is one atomic value guarded by a compare-and-swap loop. `apply` is the
loop run by a single caller: the first compare-and-swap then succeeds. The interleaved
version, one atomic access at a time, is in `HotCounter.Engine.Threads`.
-/

namespace HotCounter

/-- One atomic value and its hard limit. -/
structure StrictCounter where
  value : ℕ
  limit : ℕ
  deriving DecidableEq, Repr

namespace StrictCounter

/-- The admission test of the compare-and-swap loop. The subtraction is only reached when
`current ≤ limit`, so it does not wrap in the code either. -/
def refuses (limit current delta : ℕ) : Bool :=
  decide (current > limit) || decide (delta > limit - current)

theorem refuses_eq_false {limit current delta : ℕ} :
    refuses limit current delta = false ↔ current + delta ≤ limit := by
  simp only [refuses, Bool.or_eq_false_iff, decide_eq_false_iff_not]
  omega

/-- `StrictCounter::apply`, run without interference. -/
def apply (c : StrictCounter) (delta : ℕ) : Result × StrictCounter :=
  if refuses c.limit c.value delta then (⟨.rejected, c.value, 0⟩, c)
  else (⟨.accepted, (c.value + delta) % 2 ^ 64, 0⟩,
    { c with value := (c.value + delta) % 2 ^ 64 })

/-- `StrictCounter::seed_after_quiescence`. -/
def seedAfterQuiescence (c : StrictCounter) (value : ℕ) : Option StrictCounter :=
  if value > c.limit then none else some { c with value := value }

/-- The two outcomes of `apply`: a refusal that changes nothing, or an exact addition. -/
theorem apply_cases (c : StrictCounter) (delta : ℕ) (hlim : c.limit < 2 ^ 64) :
    (c.limit < c.value + delta ∧ c.apply delta = (⟨.rejected, c.value, 0⟩, c)) ∨
      (c.value + delta ≤ c.limit ∧
        c.apply delta =
          (⟨.accepted, c.value + delta, 0⟩, { c with value := c.value + delta })) := by
  rcases h : refuses c.limit c.value delta with _ | _
  · have hle := refuses_eq_false.mp h
    have hmod : (c.value + delta) % 2 ^ 64 = c.value + delta := Nat.mod_eq_of_lt (by omega)
    exact .inr ⟨hle, by simp only [apply, h, hmod, Bool.false_eq_true, if_false]⟩
  · refine .inl ⟨Nat.not_le.mp fun hle => ?_, by simp [apply, h]⟩
    simp [refuses_eq_false.mpr hle] at h

theorem seedAfterQuiescence_of_le {c : StrictCounter} {value : ℕ} (h : value ≤ c.limit) :
    c.seedAfterQuiescence value = some { c with value := value } :=
  if_neg (Nat.not_lt.mpr h)

end StrictCounter

end HotCounter
