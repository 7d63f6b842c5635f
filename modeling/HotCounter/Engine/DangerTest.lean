import HotCounter.Counter.Shared
import HotCounter.Engine.Gate

/-!
# The danger tests

`control_loop` and `tick` compare the remaining capacity with the danger threshold; both compute
it by an unsigned subtraction from a sum of loads that other threads interfere with. The sum
never passes the limit of the peak counter, so neither subtraction wraps.
-/

namespace HotCounter

open Foundation

/-! ### The loop of the control thread -/

namespace ControlPoint

/-- The sum that `control_loop` has read is within the shards it has passed. -/
def Sums (e : CounterEngine) : ControlPoint → Prop
  | .loopTotal _ _ index total => total ≤ (e.reserves.take index).sum
  | _ => True

variable {e : CounterEngine}

/-- The bound on what a point has summed depends on the reserves alone. -/
theorem Sums.congr {e' : CounterEngine} {p : ControlPoint} (h : p.Sums e)
    (hreserves : e'.reserves = e.reserves) : p.Sums e' := by
  cases p with
  | loopTotal =>
    unfold Sums
    rw [hreserves]
    exact h
  | _ => trivial

/-- A call begins with nothing summed. -/
theorem sums_entry (op : ControlCall) : (entry op).Sums e := by
  cases op <;> trivial

private theorem sums_seedNext (e' : CounterEngine) (index remaining : ℕ) :
    (seedNext e' index remaining).Sums e := by
  unfold seedNext
  split
  · trivial
  · split <;> trivial

private theorem sums_loopNext (mode : RoutingMode) : (loopNext mode).Sums e := by
  cases mode <;> trivial

private theorem sums_commitExhaustion (e' : CounterEngine) (total : ℕ) (strictOwner : Bool) :
    (commitExhaustion e' total strictOwner).Sums e := by
  unfold commitExhaustion
  split
  · split <;> trivial
  · trivial

/-- The loop adds one shard to its sum; no other access produces a sum. -/
theorem Sums.step (hs : e.Sound) {p : ControlPoint} (h : p.Sums e) :
    (p.step e).2.Sums e := by
  cases p with
  | loopTotal has counter index total =>
    unfold ControlPoint.step
    dsimp only
    split
    · rename_i hindex
      have hnext : (e.reserves.take (index + 1)).sum =
          (e.reserves.take index).sum + (shard e index).reserve := by
        have hsucc := sum_map_take_succ id 0 e.reserves index
          (hindex.trans_eq e.length_reserves.symm)
        rwa [List.map_id, List.map_id, id_eq, CounterEngine.getD_reserves] at hsucc
      have hlane := shard_used_le hs index
      have htotal : total ≤ (e.reserves.take index).sum := h
      change (total + (shard e index).used) % 2 ^ 64 ≤ (e.reserves.take (index + 1)).sum
      exact (Nat.mod_le _ _).trans (by omega)
    · split <;> trivial
  | loopCounter mode has =>
    cases mode
    case reservedPeak => exact Nat.zero_le _
    all_goals trivial
  | reservedLoad =>
    simp only [ControlPoint.step]
    split
    · trivial
    · exact sums_seedNext _ _ _
  | reservedAnnounce => exact sums_seedNext _ _ _
  | loopEpoch =>
    simp only [ControlPoint.step]
    split
    · trivial
    · exact sums_loopNext _
  | snapshotPublisher =>
    simp only [ControlPoint.step]
    split
    · trivial
    · exact sums_loopNext _
  | snapshotPublish => exact sums_loopNext _
  | commitRelease => exact sums_commitExhaustion _ _ _
  -- the remaining points lead to fixed points of their own calls
  | _ =>
    simp only [ControlPoint.step]
    repeat' split
    all_goals trivial

end ControlPoint

namespace Machine

variable {R C : Type} [Fintype R] [DecidableEq R] [DecidableEq C] {m : Machine R C}

/-- Every control thread's sum is within the shards it has passed. -/
def Sums (m : Machine R C) : Prop := ∀ c, (m.control c).Sums m.engine

theorem Sums.step (h : m.Sums) (hwf : m.Wf) {a : Action R C} {m' : Machine R C}
    (hstep : m.step a = some m') : m'.Sums := by
  cases a with
  | call r request =>
    simp only [Machine.step] at hstep
    split at hstep
    · obtain rfl := Option.some.inj hstep
      exact h
    · cases hstep
  | run r spurious =>
    have he := hwf.effect r spurious
    obtain rfl := Option.some.inj hstep
    exact fun c => (h c).congr he.reserves
  | invoke c op =>
    simp only [Machine.step] at hstep
    split at hstep
    · obtain rfl := Option.some.inj hstep
      intro c'
      by_cases hc : c' = c
      · subst hc
        simpa using ControlPoint.sums_entry op
      · simpa [Function.update_of_ne hc] using h c'
    · cases hstep
  | advance c =>
    obtain ⟨hk, -⟩ := ControlPoint.step_keeps hwf.sound (hwf.control_fits c)
    obtain rfl := Option.some.inj hstep
    intro c'
    refine ControlPoint.Sums.congr (?_ : (Function.update m.control c _ c').Sums m.engine)
      hk.reserves
    by_cases hc : c' = c
    · subst hc
      simpa using (h c').step hwf.sound
    · simpa [Function.update_of_ne hc] using h c'
  | raisePeakRequest =>
    obtain rfl := Option.some.inj hstep
    exact h

/-- **The sum of `control_loop` stays within the local reservation**, in every interleaving. -/
theorem loopTotal_le (hthreads : Fintype.card R < 2 ^ 32) {config : CounterEngineConfig}
    (hsteps : Steps Machine.step (fun _ _ => True) (init R C config) m) {c : C} {has : Bool}
    {counter index total : ℕ} (hpoint : m.control c = .loopTotal has counter index total) :
    total ≤ m.engine.localPeak := by
  obtain ⟨hwf, hsums⟩ := hsteps.invariant (P := fun m => m.Wf ∧ m.Sums)
    ⟨wf_init config hthreads, fun _ => trivial⟩
    fun _ _ _ h _ hstep => ⟨h.1.step hstep, h.2.step h.1 hstep⟩
  have htotal := hsums c
  rw [hpoint] at htotal
  have hsum : m.engine.reserves.sum = m.engine.localPeak :=
    hwf.sound.bounded.sum_reserve.trans hwf.sound.reserved_limit
  exact (htotal.trans ((List.take_sublist _ _).sum_le_sum fun _ _ => Nat.zero_le _)).trans_eq hsum

end Machine

/-! ### No wrapping subtraction -/

namespace ReservedCounter

/-- The unsigned subtraction of a smaller amount does not wrap. -/
theorem sub_exact {capacity total : ℕ} (hle : total ≤ capacity) (hlt : capacity < 2 ^ 64) :
    (capacity + 2 ^ 64 - total) % 2 ^ 64 = capacity - total := by
  omega

/-- **The arithmetic of the reserved counter is exact.** The reserves sum to the limit and differ
by one at most. After any calls no shard is beyond its reserve, the total is the exact sum and at
most the limit, and a seeding succeeds exactly within the limit, installs exactly its value and
announces exactly the full shards, or changes nothing. A total whose loads are interleaved with
other threads does not wrap and is at most the limit, so neither danger test underflows. -/
theorem reserved_arithmetic_exact (limit count : ℕ) (hlimit : limit < 2 ^ 64) (hcount : 0 < count) :
    ((new limit count).shards.length = count ∧
      ((new limit count).shards.map Shard.reserve).sum = limit ∧
      ∀ s ∈ (new limit count).shards, ∀ t ∈ (new limit count).shards,
        s.reserve ≤ t.reserve + 1) ∧
    (∀ calls c, c = (new limit count).after calls →
      (∀ s ∈ c.shards, s.used ≤ s.reserve) ∧
      c.total = (c.shards.map Shard.used).sum ∧ c.total ≤ limit ∧
      ∀ value,
        ((c.seedTotalAfterQuiescence value).1 = true ↔ value ≤ limit) ∧
        ((c.seedTotalAfterQuiescence value).1 = true →
          (c.seedTotalAfterQuiescence value).2.total = value ∧
          ∀ s ∈ (c.seedTotalAfterQuiescence value).2.shards,
            (s.exhaustionAnnounced = true ↔ s.used = s.reserve)) ∧
        ((c.seedTotalAfterQuiescence value).1 = false →
          (c.seedTotalAfterQuiescence value).2 = c)) ∧
    (∀ (ι : Type) [DecidableEq ι] (m : Shared ι) (i : ι),
      Steps Shared.step (fun _ _ => True) (Shared.init ι (new limit count)) m →
      (∀ index total, m.points i = .sum index total →
        total + (m.counter.lane index).used < 2 ^ 64) ∧
      ∀ total, m.points i = .summed total → total ≤ limit) ∧
    (∀ (R C : Type) [Fintype R] [DecidableEq R] [DecidableEq C] (config : CounterEngineConfig)
      (m : Machine R C) (c : C) (has : Bool) (counter index total : ℕ),
      Fintype.card R < 2 ^ 32 → Steps Machine.step (fun _ _ => True) (Machine.init R C config) m →
      m.control c = .loopTotal has counter index total → m.engine.localPeak = m.engine.limit →
      total ≤ m.engine.limit ∧
        (m.engine.limit + 2 ^ 64 - total) % 2 ^ 64 = m.engine.limit - total) ∧
    ∀ (ι : Type) [DecidableEq ι] (config : CounterEngineConfig) (m : Shared ι) (i : ι)
      (total : ℕ),
      Steps Shared.step (fun _ _ => True) (Shared.init ι (CounterEngine.new config).reserved) m →
      m.points i = .summed total →
      total ≤ (CounterEngine.new config).localPeak ∧
        ((CounterEngine.new config).localPeak + 2 ^ 64 - total) % 2 ^ 64 =
          (CounterEngine.new config).localPeak - total := by
  have hnew := bounded_new limit count hcount
  refine ⟨⟨?_, hnew.sum_reserve, fun s hs t ht => reserve_new_le hs ht⟩, ?_, ?_, ?_, ?_⟩
  · rw [new, List.length_map, List.length_range]
  · -- after any calls
    rintro calls c rfl
    obtain ⟨hbounded, hsame⟩ := hnew.after hlimit calls
    have hsame : ((new limit count).after calls).limit = limit := hsame
    have hlt : ((new limit count).after calls).limit < 2 ^ 64 := hsame.trans_lt hlimit
    have htotal := hbounded.total_eq hlt
    have hle := hbounded.used_le.trans_eq hsame
    refine ⟨hbounded.le_reserve, htotal, htotal.trans_le hle, fun value => ?_⟩
    have hiff := hbounded.seed_iff value
    rw [hsame] at hiff
    refine ⟨hiff.1, fun htrue => ?_, hiff.2⟩
    have hvalue := (hiff.1.mp htrue).trans_eq hsame.symm
    obtain ⟨-, hseeded, hused, hlimit'⟩ := hbounded.seed hvalue
    refine ⟨(hseeded.total_eq (hlimit'.trans_lt hlt)).trans hused, fun s hs => ?_⟩
    rw [seedTotalAfterQuiescence, if_neg (Nat.not_lt.mpr hvalue)] at hs
    rw [distribute_announces _ _ s hs, beq_iff_eq]
  · -- loads interleaved with calls of other threads
    intro ι _ m i hsteps
    obtain ⟨hsum, hsummed⟩ := Shared.sum_le_of_steps hnew hlimit hsteps i
    exact ⟨fun index total hpoint => (hsum index total hpoint).trans_lt hlimit, hsummed⟩
  · -- the danger test of `control_loop`
    intro R C _ _ _ config m c has counter index total hthreads hsteps hpoint hwhole
    have hle := Machine.loopTotal_le hthreads hsteps hpoint
    have hlt := m.engine.config.localPeak_lt
    rw [← hwhole]
    exact ⟨hle, sub_exact hle hlt⟩
  · -- the danger test of `tick`
    intro ι _ config m i total hsteps hpoint
    have hbounded := bounded_new config.localPeak config.shards config.shards_pos
    have hle := (Shared.sum_le_of_steps hbounded config.localPeak_lt hsteps i).2 total hpoint
    exact ⟨hle, sub_exact hle config.localPeak_lt⟩

/-- Ten units on three shards. -/
theorem reserved_arithmetic_exact_three :
    (new 10 3).shards.map Shard.reserve = [4, 3, 3] ∧
      ((new 10 3).seedTotalAfterQuiescence 7).2.total = 7 := by
  have hexact := (reserved_arithmetic_exact 10 3 (by decide) (by decide)).2.1 [] _ rfl
  have hseed := (hexact.2.2.2 7).1.mpr (by decide)
  exact ⟨by decide, ((hexact.2.2.2 7).2.1 hseed).1⟩

end ReservedCounter

end HotCounter
