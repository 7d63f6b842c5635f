import HotCounter.Counter.Announcement
import HotCounter.Engine.Recovery
import HotCounter.Foundation.Transition

/-!
# Strict serving against the reference

`incrnchk` is the operation the README defines. An engine that serves strictly decides by three
paths: the exhausted flag, the gate and the compare-and-swap counter. The flag is honest: along
every orderly run of calls, an exhausted engine that serves strictly stands at its limit
(`Settled`). There the reference refuses every delta but zero, and the flag refuses all of them;
so the engine follows the reference except on zero deltas after exhaustion
(`strict_serving_iff`).
-/

namespace HotCounter

open Foundation

/-- `INCRNCHK(counter, delta, limit)` of the README: the decision and the value after it. -/
def incrnchk (limit current delta : ℕ) : Decision × ℕ :=
  if current + delta ≤ limit then (.accepted, current + delta) else (.rejected, current)

namespace CounterEngine

/-- One call of a sequential history. -/
def step (e : CounterEngine) (call : Call) : Option CounterEngine := some (e.run call)

/-- The calls as the handoff controller makes them: a committed total counts at least what this
component has spent, and a recovery happens at the start of a process, before the limit was
reached. -/
def Orderly (e : CounterEngine) : Call → Prop
  | .commitHandoff total _ => e.reserved.total ≤ total
  | .recoverHandoff _ _ _ => e.exhausted = false
  | _ => True

instance (e : CounterEngine) (call : Call) : Decidable (Orderly e call) :=
  match call with
  | .commitHandoff total _ => inferInstanceAs (Decidable (e.reserved.total ≤ total))
  | .recoverHandoff _ _ _ => inferInstanceAs (Decidable (e.exhausted = false))
  | .apply _ | .enterReservedMode | .enterDangerMode | .controlLoop | .raisePeakRequest
  | .setReplicationPublisher _ | .setLimitReachedPublisher _ | .beginHandoff | .abortHandoff
  | .fence => .isTrue trivial

/-- What the exhausted flag and the announcements mean in each mode. -/
structure Settled (e : CounterEngine) : Prop where
  honest : e.mode = .reservedPeak →
    e.reserved.Honest ∧ e.exhaustedPeakShards ≤ e.reserved.announced
  strict_full : e.exhausted = true → e.mode = .strict ∨ e.mode = .dangerStrict →
    e.strict.value = e.limit
  peak_full : e.exhausted = true → e.mode = .reservedPeak → e.reserved.used = e.limit

theorem settled_new (config : CounterEngineConfig) : (new config).Settled where
  honest := nofun
  strict_full := nofun
  peak_full := nofun

variable {config : CounterEngineConfig} {e e' : CounterEngine}

namespace Settled

/-- Calls that touch none of the fields in question. -/
theorem congr (h : e.Settled) (hstrict : e'.strict = e.strict)
    (hreserved : e'.reserved = e.reserved) (hmode : e'.mode = e.mode)
    (hcount : e'.exhaustedPeakShards = e.exhaustedPeakShards)
    (hexhausted : e'.exhausted = e.exhausted) : e'.Settled where
  honest := by
    rw [hmode, hreserved, hcount]
    exact h.honest
  strict_full := by
    rw [hexhausted, hmode, limit, hstrict]
    exact h.strict_full
  peak_full := by
    rw [hexhausted, hmode, limit, hstrict, hreserved]
    exact h.peak_full

theorem rememberCounter (h : e.Settled) (counter : ℕ) : (e.rememberCounter counter).Settled := by
  unfold CounterEngine.rememberCounter
  split
  · exact h
  · exact h.congr rfl rfl rfl rfl rfl

/-- The limit is announced by an engine that stands at it. -/
theorem publishLimitReached (h : e.Settled) (counter : ℕ) (hfull : e.currentValue = e.limit)
    (htotal : e.reserved.total = e.reserved.used) :
    (e.publishLimitReached counter).Settled := by
  unfold CounterEngine.publishLimitReached
  unfold currentValue at hfull
  split
  · exact h
  · refine ⟨h.honest, fun _ hmode => ?_, fun _ hmode => ?_⟩
    · have hne : e.mode ≠ .reservedPeak := by
        rcases hmode with hmode | hmode
        all_goals
          intro hpeak
          exact absurd (hmode.symm.trans hpeak) nofun
      rwa [if_neg hne] at hfull
    · have hpeak : e.mode = .reservedPeak := hmode
      rw [if_pos hpeak, htotal] at hfull
      exact hfull

/-- The shard that completes the announcements finds everything spent. -/
theorem announceShard (hs : e.Sound) (h : e.Settled) (hmode : e.mode = .reservedPeak)
    (request : Request) (shard : ℕ) : (e.announceShard request shard).Settled := by
  obtain ⟨hhonest, hcount⟩ := h.honest hmode
  unfold CounterEngine.announceShard
  split
  · exact h
  rename_i hwhole
  dsimp only
  rcases hhonest.mark hs.bounded shard with hnone | ⟨hnew, hhonest', hann, hlen⟩
  · rw [hnone]
    exact h
  obtain ⟨hbounded, hused, hlimit⟩ := hs.bounded.markExhaustionIfNew shard
  rw [hnew]
  generalize (e.reserved.markExhaustionIfNew shard).2 = marked at *
  rw [Bool.not_true, if_neg Bool.false_ne_true]
  have hle : (e.exhaustedPeakShards + 1) % 2 ^ 32 ≤ marked.announced :=
    (Nat.mod_le _ _).trans (by omega)
  have hnext : ({ e with
      reserved := marked
      exhaustedPeakShards := (e.exhaustedPeakShards + 1) % 2 ^ 32 } : CounterEngine).Settled :=
    ⟨fun _ => ⟨hhonest', hle⟩, h.strict_full, fun hex hpeak => hused.trans (h.peak_full hex hpeak)⟩
  split
  · rename_i hall
    have hlimit' : marked.limit = e.config.localPeak := hlimit.trans hs.reserved_limit
    have hlt : marked.limit < 2 ^ 64 := hlimit' ▸ e.config.localPeak_lt
    have hfull : marked.used = marked.limit :=
      hbounded.used_eq_of_announced hhonest' (hall ▸ hle)
    refine hnext.publishLimitReached request.counter ?_ (hbounded.total_eq hlt)
    simp only [currentValue, hmode, if_true]
    rw [hbounded.total_eq hlt, hfull, hlimit']
    exact Decidable.not_not.mp hwhole
  · exact hnext

theorem applyStrict (hs : e.Sound) (h : e.Settled) {mode : RoutingMode}
    (hmode : mode = .strict ∨ mode = .dangerStrict) (hserving : e.mode = mode)
    (hfresh : e.exhausted = false) (request : Request) :
    (e.applyStrict mode request).2.Settled := by
  have hne : mode ≠ .reservedPeak := by
    rcases hmode with rfl | rfl
    all_goals exact nofun
  have hne' : e.mode ≠ .reservedPeak := hserving ▸ hne
  unfold CounterEngine.applyStrict
  rcases e.strict.apply_cases request.delta (hs.strict_limit ▸ e.config.limit_lt) with
    ⟨-, heq⟩ | ⟨hfit, heq⟩
  · simp only [heq, reduceCtorEq, if_false]
    exact h
  simp only [heq, if_true]
  unfold CounterEngine.afterAccept
  rw [if_pos hne]
  have hspent : ({ e with strict := ⟨e.strict.value + request.delta, e.strict.limit⟩ } :
      CounterEngine).Settled := by
    refine ⟨fun hpeak => absurd hpeak hne', fun hex => ?_, fun hex => ?_⟩
    all_goals exact absurd (hfresh.symm.trans hex) Bool.false_ne_true
  have hkeep := hspent.rememberCounter request.counter
  have hbook := bookkeeping_rememberCounter
    ({ e with strict := ⟨e.strict.value + request.delta, e.strict.limit⟩ } : CounterEngine)
    request.counter
  split
  · rename_i hreached
    refine hkeep.publishLimitReached request.counter ?_ ?_
    · rw [currentValue, hbook.mode, if_neg hne', hbook.strict]
      exact hreached
    · exact (hbook.sound ⟨hs.strict_limit, hs.reserved_limit, hs.bounded,
        hs.strict_limit ▸ hfit⟩).total_eq
  · exact hkeep

theorem applyReserved (hs : e.Sound) (h : e.Settled) (hmode : e.mode = .reservedPeak)
    (hfresh : e.exhausted = false) (request : Request) :
    (e.applyReserved request).2.Settled := by
  unfold CounterEngine.applyReserved
  set id := shardFor e.config request.routeHash
  rcases hs.bounded.apply_cases (hs.reserved_limit ▸ e.config.localPeak_lt) id request.delta with
    ⟨observed, heq⟩ | ⟨hfit, heq⟩
  · simp only [heq, reduceCtorEq, if_false]
    exact h
  simp only [heq, if_true]
  unfold CounterEngine.afterAccept
  rw [if_neg (not_not.mpr rfl)]
  obtain ⟨hhonest, hcount⟩ := h.honest hmode
  obtain ⟨hhonest', hann⟩ := hhonest.spend hs.bounded hfit
  generalize hspent : e.reserved.setShard id
    { e.reserved.shardAt id with used := (e.reserved.shardAt id).used + request.delta } = spent
    at hhonest' hann
  have hbounded : spent.Bounded := hspent ▸ hs.bounded.setShard id rfl hfit
  have hlimit : spent.limit = e.reserved.limit := hspent ▸ rfl
  have hnext : ({ e with reserved := spent } : CounterEngine).Settled := by
    refine ⟨fun _ => ⟨hhonest', hann ▸ hcount⟩, fun hex => ?_, fun hex => ?_⟩
    all_goals exact absurd (hfresh.symm.trans hex) Bool.false_ne_true
  have hbook := bookkeeping_rememberCounter { e with reserved := spent } request.counter
  exact announceShard
    (hbook.sound ⟨hs.strict_limit, hlimit.trans hs.reserved_limit, hbounded, hs.value_le⟩)
    (hnext.rememberCounter request.counter) (hbook.mode.trans hmode) request _

/-- A request keeps the flag honest. -/
theorem apply (hs : e.Sound) (h : e.Settled) (request : Request) :
    (e.apply request).2.Settled := by
  unfold CounterEngine.apply
  split
  · exact h
  rename_i hex
  have hfresh : e.exhausted = false := Bool.not_eq_true _ ▸ hex
  split
  · exact h
  cases hmode : e.mode with
  | strict => exact h.applyStrict hs (.inl rfl) hmode hfresh request
  | reservedPeak => exact h.applyReserved hs hmode hfresh request
  | dangerStrict => exact h.applyStrict hs (.inr rfl) hmode hfresh request
  | remoteStrict => exact h

/-! ### Transitions -/

/-- Entering peak mode at the limit fills every shard. -/
theorem transitionToReserved (hs : e.Sound) (h : e.Settled) :
    e.transitionToReserved.2.Settled := by
  unfold CounterEngine.transitionToReserved closeAndDrain
  split
  · exact h
  rename_i hmode
  dsimp only
  split
  · exact h.congr rfl rfl rfl rfl rfl
  rename_i hle
  have hfit : e.strict.value ≤ e.reserved.limit := by
    rw [hs.reserved_limit]
    exact Nat.not_lt.mp hle
  obtain ⟨hok, -, hused, -⟩ := hs.bounded.seed hfit
  obtain ⟨hhonest, hcount⟩ := ReservedCounter.seed_announces hfit
  rw [if_neg (by simp [hok])]
  refine ⟨fun _ => ⟨hhonest, hcount.le⟩, fun _ hstrict => absurd hstrict (by simp), fun hex _ => ?_⟩
  exact hused.trans (h.strict_full hex (.inl (Decidable.not_not.mp hmode)))

/-- Leaving peak mode at the limit puts the limit into the strict counter. -/
theorem transitionToDanger (hs : e.Sound) (h : e.Settled) : e.transitionToDanger.2.Settled := by
  unfold CounterEngine.transitionToDanger closeAndDrain StrictCounter.seedAfterQuiescence
  split
  · exact h
  rename_i hmode
  split
  · exact h
  dsimp only
  by_cases hgt : e.reserved.total > e.strict.limit
  · rw [if_pos hgt]
    exact h.congr rfl rfl rfl rfl rfl
  · rw [if_neg hgt]
    refine ⟨fun hpeak => absurd hpeak nofun, fun hex _ => ?_, fun _ hpeak => absurd hpeak nofun⟩
    exact hs.total_eq.trans (h.peak_full hex (Decidable.not_not.mp hmode))

theorem controlLoop (hs : e.Sound) (h : e.Settled) : e.controlLoop.Settled := by
  have hbook := (bookkeeping_requestDanger e e.componentValue).trans
    (bookkeeping_replicate _ e.componentValue)
  have hseen : ((e.requestDanger e.componentValue).replicate e.componentValue).Settled := by
    unfold requestDanger replicate publishSnapshot
    repeat' split
    all_goals exact h.congr rfl rfl rfl rfl rfl
  unfold CounterEngine.controlLoop
  dsimp only
  split
  · exact hseen.transitionToReserved (hbook.sound hs)
  split
  · exact hseen.transitionToDanger (hbook.sound hs)
  · exact hseen

/-- An installed total is the limit whenever the flag is set. -/
private theorem installed {total : ℕ} {owner : Bool} (hs : e.Sound)
    (h : Installed e total owner e') (hexhausted : e'.exhausted = true → total = e.limit) :
    e'.Settled := by
  have hne : e'.mode ≠ .reservedPeak := h.mode ▸ handoffMode_ne_reservedPeak owner
  refine ⟨fun hpeak => absurd hpeak hne, fun hex _ => ?_, fun _ hpeak => absurd hpeak hne⟩
  rw [h.value, hexhausted hex, hs.limit_eq, h.sound.limit_eq, h.config]

/-- **Every orderly call keeps the flag honest.** -/
theorem run (hs : e.Sound) (h : e.Settled) {call : Call} (hok : Orderly e call) :
    (e.run call).Settled := by
  cases call with
  | apply request => exact h.apply hs request
  | enterReservedMode => exact h.transitionToReserved hs
  | enterDangerMode => exact h.transitionToDanger hs
  | controlLoop => exact h.controlLoop hs
  | raisePeakRequest | setReplicationPublisher | setLimitReachedPublisher | fence =>
    exact h.congr rfl rfl rfl rfl rfl
  | beginHandoff =>
    simp only [CounterEngine.run, beginDistributedHandoff]
    repeat' split
    all_goals exact h.congr rfl rfl rfl rfl rfl
  | abortHandoff =>
    simp only [CounterEngine.run, abortDistributedHandoff]
    repeat' split
    all_goals exact h.congr rfl rfl rfl rfl rfl
  | commitHandoff total owner =>
    by_cases hgo : e.distributedHandoffActive = true ∧ e.mode = .reservedPeak ∧ total ≤ e.limit
    · obtain ⟨-, hinst, -, hex⟩ := hs.commit owner hgo.1 hgo.2.1 hgo.2.2
      refine installed hs hinst fun hnow => ?_
      rw [CounterEngine.run, hex, Bool.or_eq_true, decide_eq_true_eq] at hnow
      rcases hnow with hbefore | htotal
      · -- the committed total counts what this engine has spent, and that was the limit
        have hfull := h.peak_full hbefore hgo.2.1
        have hle : e.reserved.total ≤ total := hok
        rw [hs.total_eq, hfull] at hle
        exact le_antisymm hgo.2.2 hle
      · exact htotal
    · have hno : (!e.distributedHandoffActive || decide (e.mode ≠ .reservedPeak) ||
          decide (total > e.limit)) = true := by
        by_contra hcon
        refine hgo ⟨?_, ?_, ?_⟩ <;> simp_all
      simp only [CounterEngine.run, commitDistributedHandoff, if_pos hno]
      exact h
  | recoverHandoff state total owner =>
    by_cases hgo : total ≤ e.limit
    · obtain ⟨-, hinst, -, hex⟩ := hs.recover state owner hgo
      have hfresh : e.exhausted = false := hok
      refine installed hs hinst fun hnow => ?_
      rw [CounterEngine.run, hex, hfresh, Bool.false_or] at hnow
      exact of_decide_eq_true hnow
    · simp only [CounterEngine.run, recoverCommittedHandoff, if_pos (Nat.not_le.mp hgo)]
      exact h

end Settled

/-! ### The engine against the reference -/

theorem reachable_of_steps (h : Steps step Orderly (new config) e) : Reachable config e := by
  induction h with
  | refl => exact ⟨[], rfl⟩
  | tail _ _ hstep ih =>
    obtain ⟨calls, rfl⟩ := ih
    exact ⟨calls ++ [_], by rw [List.foldl_append]; exact Option.some.inj hstep⟩

theorem settled_of_steps (h : Steps step Orderly (new config) e) : e.Settled := by
  induction h with
  | refl => exact settled_new config
  | tail hsteps hok hstep ih =>
    obtain rfl := Option.some.inj hstep
    exact ih.run (reachable_of_steps hsteps).sound.1 hok

/-- A request that neither the flag nor the gate stops is decided as the reference decides. -/
private theorem applyStrict_incrnchk (hs : e.Sound) (mode : RoutingMode) (request : Request) :
    ((e.applyStrict mode request).1.decision, (e.applyStrict mode request).2.strict.value) =
      incrnchk e.limit e.strict.value request.delta := by
  unfold CounterEngine.applyStrict incrnchk CounterEngine.limit
  rcases e.strict.apply_cases request.delta (hs.strict_limit ▸ e.config.limit_lt) with
    ⟨hover, heq⟩ | ⟨hfit, heq⟩
  · simp only [heq, reduceCtorEq, if_false]
    rw [if_neg (Nat.not_le.mpr hover)]
  · simp only [heq, if_true]
    rw [if_pos hfit]
    have hbook := bookkeeping_afterAccept
      { e with strict := { e.strict with value := e.strict.value + request.delta } } mode request
      ⟨.accepted, e.strict.value + request.delta, 0⟩
    rw [hbook.strict]

/-- **Strict serving is `INCRNCHK`, but for zero deltas after exhaustion.** In every orderly run of
calls, a request to an engine in `Strict` or `DangerStrict` mode with an open gate is decided as the
reference decides on the running sum, exactly if it is not a zero delta on an exhausted engine. -/
theorem strict_serving_iff (h : Steps step Orderly (new config) e)
    (hmode : e.mode = .strict ∨ e.mode = .dangerStrict) (hopen : e.gateOpen = true)
    (request : Request) :
    ((e.apply request).1.decision, (e.apply request).2.currentValue) =
        incrnchk config.limit e.currentValue request.delta ↔
      ¬ (e.exhausted = true ∧ request.delta = 0) := by
  obtain ⟨hs, hconfig⟩ := (reachable_of_steps h).sound
  have hlimit : config.limit = e.limit := by rw [hs.limit_eq, hconfig]
  have hpeak : e.mode ≠ .reservedPeak := by
    rcases hmode with hmode | hmode
    all_goals
      rw [hmode]
      exact nofun
  have hvalue : e.currentValue = e.strict.value := if_neg hpeak
  have hafter : (e.apply request).2.currentValue = (e.apply request).2.strict.value :=
    if_neg ((hs.apply request).mode.symm ▸ hpeak)
  rw [hlimit, hvalue, hafter]
  by_cases hex : e.exhausted = true
  · -- the flag refuses; at the limit the reference accepts nothing but a zero delta
    have hfull := (settled_of_steps h).strict_full hex hmode
    have hreply : e.apply request = (⟨.rejected, e.limit, 0⟩, e) := by
      rw [CounterEngine.apply, if_pos hex]
    rw [hreply]
    simp only [incrnchk, hex, true_and]
    constructor
    · intro heq hzero
      rw [if_pos (by omega)] at heq
      exact absurd (Prod.mk.inj heq).1 nofun
    · intro hpos
      rw [if_neg (by omega)]
  · have hreply : e.apply request = e.applyStrict e.mode request := by
      rcases hmode with hm | hm
      all_goals simp [CounterEngine.apply, hex, hopen, hm]
    rw [hreply]
    simp only [hex, Bool.false_eq_true, false_and, not_false_eq_true, iff_true]
    exact applyStrict_incrnchk hs e.mode request

/-- A process that owns a limit of 100. -/
def wholeConfig : CounterEngineConfig where
  limit := 100
  shards := 2
  dangerThreshold := 10
  hotThresholdTps := 1000000
  limit_lt := CounterEngineConfig.hundred_lt
  reservation_lt := CounterEngineConfig.zero_lt

/-- The engine after 100 of 100 units were spent, across a detour through peak mode. -/
def spentEngine : CounterEngine :=
  [Call.apply ⟨17, 50, 0⟩, .enterReservedMode, .apply ⟨17, 0, 3⟩, .enterDangerMode,
    .apply ⟨17, 50, 0⟩].foldl run (new wholeConfig)

theorem steps_spentEngine : Steps step Orderly (new wholeConfig) spentEngine := by
  have hexec : exec step Orderly (new wholeConfig)
      [.apply ⟨17, 50, 0⟩, .enterReservedMode, .apply ⟨17, 0, 3⟩, .enterDangerMode,
        .apply ⟨17, 50, 0⟩] = some spentEngine := rfl
  exact .of_exec hexec

/-- A further unit is refused by the flag as the reference refuses it. -/
theorem strict_serving_iff_spent :
    spentEngine.exhausted = true ∧
      ((spentEngine.apply ⟨17, 1, 0⟩).1.decision, (spentEngine.apply ⟨17, 1, 0⟩).2.currentValue) =
        incrnchk 100 spentEngine.currentValue 1 :=
  ⟨by decide, (strict_serving_iff steps_spentEngine (by decide) (by decide) ⟨17, 1, 0⟩).mpr
    (by decide)⟩

/-- A zero delta at the limit is refused, where the reference accepts it. -/
theorem zero_delta_refused_at_limit :
    Steps step Orderly (new wholeConfig) spentEngine ∧ spentEngine.mode = .dangerStrict ∧
      spentEngine.gateOpen = true ∧ spentEngine.currentValue = 100 ∧
      (spentEngine.apply ⟨17, 0, 0⟩).1.decision = .rejected ∧
      incrnchk 100 spentEngine.currentValue 0 = (.accepted, 100) :=
  ⟨steps_spentEngine, by decide, by decide, by decide, by decide, by decide⟩

end CounterEngine

end HotCounter
