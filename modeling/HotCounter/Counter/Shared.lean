import HotCounter.Counter.Announcement
import HotCounter.Foundation.Transition

/-!
# The reserved counter, shared

`ReservedCounter` under any sequence of calls, one after another, and under threads that
interleave their atomic accesses: the compare-and-swap loop of `apply`, the stores of
`seed_total_after_quiescence` and the loads of `total`.

A shard is never beyond its reserve and the reserves never change, so a sum of loads taken at
different moments stays below the sum of the reserves of the shards it has passed
(`Point.Fits`). No subtraction from the limit can then go below zero.
-/

namespace HotCounter

open Foundation

namespace ReservedCounter

/-! ### One call after another -/

/-- A call that may change the counter. -/
inductive Call
  | apply (id delta : ℕ)
  | markExhaustionIfNew (id : ℕ)
  | seedTotalAfterQuiescence (value : ℕ)

/-- The counter after a call. -/
def run (c : ReservedCounter) : Call → ReservedCounter
  | .apply id delta => (c.apply id delta).2
  | .markExhaustionIfNew id => (c.markExhaustionIfNew id).2
  | .seedTotalAfterQuiescence value => (c.seedTotalAfterQuiescence value).2

/-- The counter after some calls. -/
def after (c : ReservedCounter) (calls : List Call) : ReservedCounter := calls.foldl run c

variable {c : ReservedCounter}

/-- **A seeding succeeds exactly within the limit**, and otherwise changes nothing. -/
theorem Bounded.seed_iff (h : c.Bounded) (value : ℕ) :
    ((c.seedTotalAfterQuiescence value).1 = true ↔ value ≤ c.limit) ∧
      ((c.seedTotalAfterQuiescence value).1 = false →
        (c.seedTotalAfterQuiescence value).2 = c) := by
  by_cases hv : value ≤ c.limit
  · have htrue := (h.seed hv).1
    refine ⟨⟨fun _ => hv, fun _ => htrue⟩, fun hfalse => ?_⟩
    rw [htrue] at hfalse
    exact absurd hfalse Bool.true_eq_false_eq_False
  · have heq : c.seedTotalAfterQuiescence value = (false, c) := by
      rw [seedTotalAfterQuiescence, if_pos (Nat.lt_of_not_le hv)]
    rw [heq]
    exact ⟨⟨fun hfalse => absurd hfalse Bool.false_ne_true, fun hle => absurd hle hv⟩, fun _ => rfl⟩

/-- A call keeps the bound and the limit. -/
theorem Bounded.run (h : c.Bounded) (hlimit : c.limit < 2 ^ 64) (call : Call) :
    (c.run call).Bounded ∧ (c.run call).limit = c.limit := by
  cases call with
  | apply id delta =>
    rcases h.apply_cases hlimit id delta with ⟨observed, heq⟩ | ⟨hfit, heq⟩
    · rw [ReservedCounter.run, heq]
      exact ⟨h, rfl⟩
    · rw [ReservedCounter.run, heq]
      exact ⟨h.setShard id rfl hfit, rfl⟩
  | markExhaustionIfNew id =>
    obtain ⟨hbounded, -, hsame⟩ := h.markExhaustionIfNew id
    exact ⟨hbounded, hsame⟩
  | seedTotalAfterQuiescence value =>
    by_cases hv : value ≤ c.limit
    · obtain ⟨-, hbounded, -, hsame⟩ := h.seed hv
      exact ⟨hbounded, hsame⟩
    · have hsame := (h.seed_iff value).2 (by
        rw [← Bool.not_eq_true, (h.seed_iff value).1]
        exact hv)
      rw [ReservedCounter.run, hsame]
      exact ⟨h, rfl⟩

theorem Bounded.after (h : c.Bounded) (hlimit : c.limit < 2 ^ 64) (calls : List Call) :
    (c.after calls).Bounded ∧ (c.after calls).limit = c.limit := by
  induction calls using List.reverseRecOn with
  | nil => exact ⟨h, rfl⟩
  | append_singleton calls call ih =>
    obtain ⟨hbounded, hsame⟩ := ih
    have hnext := hbounded.run (by rw [hsame]; exact hlimit) call
    rw [ReservedCounter.after, List.foldl_append, List.foldl_cons, List.foldl_nil]
    exact ⟨hnext.1, hnext.2.trans hsame⟩

/-- The reserves of the constructor differ by one at most. -/
theorem reserve_new_le {limit count : ℕ} {s t : Shard} (hs : s ∈ (new limit count).shards)
    (ht : t ∈ (new limit count).shards) : s.reserve ≤ t.reserve + 1 := by
  have hreserve : ∀ s ∈ (new limit count).shards,
      limit / count ≤ s.reserve ∧ s.reserve ≤ limit / count + 1 := by
    intro s hs
    obtain ⟨i, -, rfl⟩ := List.mem_map.mp hs
    dsimp only
    split <;> omega
  have hle := (hreserve s hs).2
  have hge := (hreserve t ht).1
  omega

/-! ### Threads -/

/-- Program points of `apply`, `seed_total_after_quiescence` and `total`; `summed` is a `total`
that has returned. -/
inductive Point
  | idle
  | load (id delta : ℕ)
  | swap (id delta current : ℕ)
  | limitCheck (value : ℕ)
  | seed (index remaining : ℕ)
  | announce (index assigned remaining : ℕ)
  | sum (index total : ℕ)
  | summed (total : ℕ)
  deriving DecidableEq

/-- The shard at an index of a loop over all shards. -/
def lane (c : ReservedCounter) (index : ℕ) : Shard := c.shards.getD index default

/-- Replace the shard at an index of a loop over all shards. -/
def setLane (c : ReservedCounter) (index : ℕ) (s : Shard) : ReservedCounter :=
  { c with shards := c.shards.set index s }

/-- The reserves of all shards, in order. -/
def reserves (c : ReservedCounter) : List ℕ := c.shards.map Shard.reserve

namespace Point

/-- The head of the loop of `apply` on a value just read. -/
def decide (reserve id delta current : ℕ) : Point :=
  if StrictCounter.refuses reserve current delta then .idle else .swap id delta current

/-- The head of the loop of `seed_total_after_quiescence`. -/
def seedNext (c : ReservedCounter) (index remaining : ℕ) : Point :=
  if index < c.shards.length then .seed index remaining else .idle

/-- The head of the loop of `total`. -/
def sumNext (c : ReservedCounter) (index total : ℕ) : Point :=
  if index < c.shards.length then .sum index total else .summed total

/-- One atomic access. -/
def step (c : ReservedCounter) (spurious : Bool) : Point → ReservedCounter × Point
  | .idle => (c, .idle)
  | .load id delta => (c, decide (c.shardAt id).reserve id delta (c.shardAt id).used)
  | .swap id delta current =>
    let shard := c.shardAt id
    if !spurious && shard.used == current then
      (c.setShard id { shard with used := (current + delta) % 2 ^ 64 }, .idle)
    else (c, decide shard.reserve id delta shard.used)
  | .limitCheck value => if value > c.limit then (c, .idle) else (c, seedNext c 0 value)
  | .seed index remaining =>
    let s := c.lane index
    let assigned := if remaining < s.reserve then remaining else s.reserve
    (c.setLane index { s with used := assigned }, .announce index assigned remaining)
  | .announce index assigned remaining =>
    let s := c.lane index
    let c := c.setLane index { s with exhaustionAnnounced := assigned == s.reserve }
    (c, seedNext c (index + 1) (remaining - assigned))
  | .sum index total => (c, sumNext c (index + 1) ((total + (c.lane index).used) % 2 ^ 64))
  | .summed total => (c, .summed total)

end Point

/-- A counter and the threads that use it. -/
structure Shared (ι : Type) where
  counter : ReservedCounter
  points : ι → Point

/-- What can happen next. -/
inductive Shared.Action (ι : Type)
  | apply (i : ι) (id delta : ℕ)
  | seed (i : ι) (value : ℕ)
  | total (i : ι)
  | run (i : ι) (spurious : Bool)

namespace Shared

variable {ι : Type} [DecidableEq ι]

def init (ι : Type) (c : ReservedCounter) : Shared ι := ⟨c, fun _ => .idle⟩

/-- The thread is not in a call. -/
def free (m : Shared ι) (i : ι) : Bool :=
  match m.points i with
  | .idle | .summed _ => true
  | _ => false

/-- One step of one thread. A call needs a thread that is not in one. -/
def step (m : Shared ι) : Action ι → Option (Shared ι)
  | .apply i id delta =>
    if m.free i then some ⟨m.counter, Function.update m.points i (.load id delta)⟩ else none
  | .seed i value =>
    if m.free i then some ⟨m.counter, Function.update m.points i (.limitCheck value)⟩ else none
  | .total i =>
    if m.free i then some ⟨m.counter, Function.update m.points i (Point.sumNext m.counter 0 0)⟩
    else none
  | .run i spurious =>
    let next := (m.points i).step m.counter spurious
    some ⟨next.1, Function.update m.points i next.2⟩

end Shared

/-! ### What the threads keep -/

/-- What a thread knows about the reserves: a compare-and-swap it is about to try would stay
within its shard, and a partial sum is within the shards it has passed. -/
def Point.Fits (reserves : List ℕ) : Point → Prop
  | .swap id delta current => current + delta ≤ reserves.getD (id % reserves.length) 0
  | .sum index total => index < reserves.length ∧ total ≤ (reserves.take index).sum
  | .summed total => total ≤ reserves.sum
  | _ => True

/-- What no access disturbs. -/
structure Keeps (c c' : ReservedCounter) : Prop where
  bounded : c'.Bounded
  reserves : c'.reserves = c.reserves
  limit : c'.limit = c.limit

theorem Keeps.refl (h : c.Bounded) : Keeps c c := ⟨h, rfl, rfl⟩

@[simp]
theorem length_reserves (c : ReservedCounter) : c.reserves.length = c.shards.length :=
  List.length_map _

theorem getD_reserves (c : ReservedCounter) (index : ℕ) :
    c.reserves.getD index 0 = (c.lane index).reserve :=
  List.getD_map c.shards default Shard.reserve

theorem Bounded.lane_le (h : c.Bounded) (index : ℕ) :
    (c.lane index).used ≤ (c.lane index).reserve := by
  by_cases hi : index < c.shards.length
  · refine h.le_reserve _ ?_
    rw [lane, List.getD_eq_getElem _ _ hi]
    exact List.getElem_mem hi
  · rw [lane, List.getD_eq_default _ _ (Nat.not_lt.mp hi)]
    exact Nat.le_refl _

theorem Bounded.setLane (h : c.Bounded) (index : ℕ) {s : Shard}
    (hreserve : s.reserve = (c.lane index).reserve) (hle : s.used ≤ s.reserve) :
    Keeps c (c.setLane index s) where
  bounded := h.set index hreserve hle
  reserves := map_set_of_eq Shard.reserve s default _ index hreserve
  limit := rfl

/-- The next load of a sum does not wrap, and stays within the shards passed. -/
theorem Bounded.sum_step (h : c.Bounded) {index total : ℕ}
    (hfits : (Point.sum index total).Fits c.reserves) :
    total + (c.lane index).used ≤ (c.reserves.take (index + 1)).sum ∧
      total + (c.lane index).used ≤ c.limit := by
  obtain ⟨hindex, htotal⟩ := hfits
  have hnext : (c.reserves.take (index + 1)).sum =
      (c.reserves.take index).sum + (c.lane index).reserve := by
    have hsucc := sum_map_take_succ id 0 c.reserves index hindex
    rwa [List.map_id, List.map_id, id_eq, getD_reserves] at hsucc
  have hlane := h.lane_le index
  have hall : (c.reserves.take (index + 1)).sum ≤ c.limit := by
    rw [← h.sum_reserve]
    exact (List.take_sublist _ _).sum_le_sum fun _ _ => Nat.zero_le _
  omega

private theorem fits_decide (c : ReservedCounter) (id delta current : ℕ) :
    (Point.decide (c.shardAt id).reserve id delta current).Fits c.reserves := by
  unfold Point.decide
  split
  · trivial
  · rename_i hrefuses
    have hle := StrictCounter.refuses_eq_false.mp (Bool.eq_false_iff.mpr hrefuses)
    change current + delta ≤ c.reserves.getD (id % c.reserves.length) 0
    rw [getD_reserves, length_reserves]
    exact hle

private theorem fits_seedNext (c : ReservedCounter) (index remaining : ℕ) (reserves : List ℕ) :
    (Point.seedNext c index remaining).Fits reserves := by
  unfold Point.seedNext
  split <;> trivial

theorem fits_sumNext (c : ReservedCounter) {index total : ℕ}
    (h : total ≤ (c.reserves.take index).sum) : (Point.sumNext c index total).Fits c.reserves := by
  unfold Point.sumNext
  split
  · rename_i hindex
    exact ⟨hindex.trans_eq c.length_reserves.symm, h⟩
  · exact h.trans ((List.take_sublist _ _).sum_le_sum fun _ _ => Nat.zero_le _)

/-- **What one access keeps**, whatever the other threads have done in between. -/
theorem Bounded.step (h : c.Bounded) (hlimit : c.limit < 2 ^ 64) (spurious : Bool) {p : Point}
    (hfits : p.Fits c.reserves) :
    Keeps c (p.step c spurious).1 ∧ (p.step c spurious).2.Fits c.reserves := by
  cases p with
  | idle => exact ⟨.refl h, trivial⟩
  | load id delta => exact ⟨.refl h, fits_decide c id delta _⟩
  | swap id delta current =>
    unfold Point.step
    dsimp only
    split
    · have hreserve : (c.shardAt id).reserve ≤ c.limit :=
        h.sum_reserve ▸ List.single_le_sum (fun _ _ => Nat.zero_le _) _
          (List.mem_map_of_mem (h.shardAt_mem id))
      have hle : current + delta ≤ (c.shardAt id).reserve := by
        have hfits : current + delta ≤ c.reserves.getD (id % c.reserves.length) 0 := hfits
        rwa [getD_reserves, length_reserves] at hfits
      refine ⟨h.setLane (id % c.shards.length) rfl ?_, trivial⟩
      rw [Nat.mod_eq_of_lt (by omega)]
      exact hle
    · exact ⟨.refl h, fits_decide c id delta _⟩
  | limitCheck value =>
    unfold Point.step
    dsimp only
    split
    · exact ⟨.refl h, trivial⟩
    · exact ⟨.refl h, fits_seedNext c _ _ _⟩
  | seed index remaining =>
    refine ⟨h.setLane index rfl ?_, trivial⟩
    dsimp only
    split <;> omega
  | announce index assigned remaining =>
    exact ⟨h.setLane index rfl (h.lane_le index), fits_seedNext _ _ _ _⟩
  | sum index total =>
    obtain ⟨hpassed, hall⟩ := h.sum_step hfits
    refine ⟨.refl h, fits_sumNext c ?_⟩
    rw [Nat.mod_eq_of_lt (by omega)]
    exact hpassed
  | summed total => exact ⟨.refl h, hfits⟩

/-- A compare-and-swap that succeeds does what `apply` does when nobody interferes. -/
theorem step_swap {id delta current : ℕ} (hused : (c.shardAt id).used = current)
    (hfits : (Point.swap id delta current).Fits c.reserves) :
    (Point.step c false (.swap id delta current)).1 = (c.apply id delta).2 := by
  have hle : current + delta ≤ (c.shardAt id).reserve := by
    have hfits : current + delta ≤ c.reserves.getD (id % c.reserves.length) 0 := hfits
    rwa [getD_reserves, length_reserves] at hfits
  obtain rfl := hused
  have hrefuses : StrictCounter.refuses (c.shardAt id).reserve (c.shardAt id).used delta = false :=
    StrictCounter.refuses_eq_false.mpr hle
  simp only [Point.step, Bool.not_false, beq_self_eq_true, Bool.and_self, if_true,
    ReservedCounter.apply, hrefuses, Bool.false_eq_true, if_false]

/-! ### Every run -/

namespace Shared

variable {ι : Type} [DecidableEq ι] {m : Shared ι}

/-- The counter keeps its bound, its limit and its reserves, and every thread fits them. -/
structure Wf (c : ReservedCounter) (m : Shared ι) : Prop where
  keeps : Keeps c m.counter
  fits : ∀ i, (m.points i).Fits c.reserves

theorem Wf.update (h : m.Wf c) (i : ι) {p : Point} (hp : p.Fits c.reserves) :
    Wf c ⟨m.counter, Function.update m.points i p⟩ where
  keeps := h.keeps
  fits := by
    intro j
    by_cases hj : j = i
    · subst hj
      simpa using hp
    · simpa [Function.update_of_ne hj] using h.fits j

theorem Wf.step (h : m.Wf c) (hlimit : c.limit < 2 ^ 64) {a : Action ι} {m' : Shared ι}
    (hstep : m.step a = some m') : m'.Wf c := by
  cases a with
  | apply i id delta =>
    simp only [Shared.step] at hstep
    split at hstep
    · obtain rfl := Option.some.inj hstep
      exact h.update i trivial
    · cases hstep
  | seed i value =>
    simp only [Shared.step] at hstep
    split at hstep
    · obtain rfl := Option.some.inj hstep
      exact h.update i trivial
    · cases hstep
  | total i =>
    simp only [Shared.step] at hstep
    split at hstep
    · obtain rfl := Option.some.inj hstep
      have hfits : (Point.sumNext m.counter 0 0).Fits m.counter.reserves :=
        fits_sumNext m.counter (Nat.zero_le _)
      rw [h.keeps.reserves] at hfits
      exact h.update i hfits
    · cases hstep
  | run i spurious =>
    obtain rfl := Option.some.inj hstep
    have hfits := h.fits i
    rw [← h.keeps.reserves] at hfits
    obtain ⟨hkeeps, hnext⟩ :=
      h.keeps.bounded.step (by rw [h.keeps.limit]; exact hlimit) spurious hfits
    rw [h.keeps.reserves] at hnext
    have hmoved : Wf c ⟨((m.points i).step m.counter spurious).1, m.points⟩ :=
      ⟨⟨hkeeps.bounded, hkeeps.reserves.trans h.keeps.reserves,
        hkeeps.limit.trans h.keeps.limit⟩, h.fits⟩
    exact hmoved.update i hnext

/-- **Every interleaving stays within the reserves.** -/
theorem wf_of_steps (h : c.Bounded) (hlimit : c.limit < 2 ^ 64)
    (hsteps : Steps Shared.step (fun _ _ => True) (init ι c) m) : m.Wf c :=
  hsteps.invariant ⟨.refl h, fun _ => trivial⟩ fun _ _ _ hwf _ hstep => hwf.step hlimit hstep

/-- No sum of loads wraps, and what a `total` returns is at most the limit. -/
theorem sum_le_of_steps (h : c.Bounded) (hlimit : c.limit < 2 ^ 64)
    (hsteps : Steps Shared.step (fun _ _ => True) (init ι c) m) (i : ι) :
    (∀ index total, m.points i = .sum index total →
      total + (m.counter.lane index).used ≤ c.limit) ∧
    ∀ total, m.points i = .summed total → total ≤ c.limit := by
  have hwf := wf_of_steps h hlimit hsteps
  have hfits := hwf.fits i
  refine ⟨fun index total hpoint => ?_, fun total hpoint => ?_⟩
  · rw [hpoint, ← hwf.keeps.reserves] at hfits
    exact (hwf.keeps.bounded.sum_step hfits).2.trans_eq hwf.keeps.limit
  · rw [hpoint] at hfits
    exact hfits.trans_eq h.sum_reserve

end Shared

end ReservedCounter

end HotCounter
