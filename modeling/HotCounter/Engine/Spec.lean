import HotCounter.Engine.Basic

/-!
# What each engine call can do

One lemma per call, stated on the exact sums of the counters. `Sound` is the structural
invariant of an engine: the limits never move, no shard is beyond its reserve and the strict
value is within the limit. `SameControl` says that a call left the control plane alone.
-/

namespace HotCounter

namespace CounterEngine

/-- The structural invariant of an engine. -/
structure Sound (e : CounterEngine) : Prop where
  strict_limit : e.strict.limit = e.config.limit
  reserved_limit : e.reserved.limit = e.config.localPeak
  bounded : e.reserved.Bounded
  value_le : e.strict.value ≤ e.config.limit

/-- Two engines that agree on everything the control plane decides by. -/
structure SameControl (e e' : CounterEngine) : Prop where
  config : e'.config = e.config
  mode : e'.mode = e.mode
  gateOpen : e'.gateOpen = e.gateOpen
  active : e'.distributedHandoffActive = e.distributedHandoffActive
  epoch : e'.replicationEpoch = e.replicationEpoch

namespace SameControl

theorem refl (e : CounterEngine) : SameControl e e := ⟨rfl, rfl, rfl, rfl, rfl⟩

theorem trans {e₁ e₂ e₃ : CounterEngine} (h₁ : SameControl e₁ e₂) (h₂ : SameControl e₂ e₃) :
    SameControl e₁ e₃ :=
  ⟨h₂.config.trans h₁.config, h₂.mode.trans h₁.mode, h₂.gateOpen.trans h₁.gateOpen,
    h₂.active.trans h₁.active, h₂.epoch.trans h₁.epoch⟩

end SameControl

/-- A new engine is sound. -/
theorem sound_new (config : CounterEngineConfig) : (new config).Sound where
  strict_limit := rfl
  reserved_limit := rfl
  bounded := ReservedCounter.bounded_new _ _ config.shards_pos
  value_le := Nat.zero_le _

/-- On a sound engine the wrapping peak total is the exact sum of the shards. -/
theorem Sound.total_eq {e : CounterEngine} (h : e.Sound) : e.reserved.total = e.reserved.used :=
  h.bounded.total_eq (h.reserved_limit ▸ e.config.localPeak_lt)

/-- The shards of a sound engine hold no more than the local reservation. -/
theorem Sound.used_le {e : CounterEngine} (h : e.Sound) : e.reserved.used ≤ e.localPeak :=
  h.bounded.used_le.trans_eq h.reserved_limit

/-- The limit that a sound engine reports is the configured one. -/
theorem Sound.limit_eq {e : CounterEngine} (h : e.Sound) : e.limit = e.config.limit :=
  h.strict_limit

/-! ### Requests -/

/-- A call that leaves the control plane and both counters' contents alone. -/
structure Bookkeeping (e e' : CounterEngine) : Prop extends SameControl e e' where
  strict : e'.strict = e.strict
  bounded : e.reserved.Bounded → e'.reserved.Bounded
  used : e.reserved.Bounded → e'.reserved.used = e.reserved.used
  reserved_limit : e'.reserved.limit = e.reserved.limit

namespace Bookkeeping

theorem refl (e : CounterEngine) : Bookkeeping e e :=
  ⟨.refl e, rfl, id, fun _ => rfl, rfl⟩

theorem trans {e₁ e₂ e₃ : CounterEngine} (h₁ : Bookkeeping e₁ e₂) (h₂ : Bookkeeping e₂ e₃) :
    Bookkeeping e₁ e₃ :=
  ⟨h₁.toSameControl.trans h₂.toSameControl, h₂.strict.trans h₁.strict,
    fun h => h₂.bounded (h₁.bounded h), fun h => (h₂.used (h₁.bounded h)).trans (h₁.used h),
    h₂.reserved_limit.trans h₁.reserved_limit⟩

/-- Bookkeeping keeps an engine sound. -/
theorem sound {e e' : CounterEngine} (h : Bookkeeping e e') (hs : e.Sound) : e'.Sound where
  strict_limit := by rw [h.strict, h.config]; exact hs.strict_limit
  reserved_limit := by rw [h.reserved_limit, h.config]; exact hs.reserved_limit
  bounded := h.bounded hs.bounded
  value_le := by rw [h.strict, h.config]; exact hs.value_le

end Bookkeeping

/-- Remembering the active counter is bookkeeping. -/
theorem bookkeeping_rememberCounter (e : CounterEngine) (counter : ℕ) :
    Bookkeeping e (e.rememberCounter counter) := by
  unfold rememberCounter
  split
  · exact .refl e
  · exact ⟨⟨rfl, rfl, rfl, rfl, rfl⟩, rfl, id, fun _ => rfl, rfl⟩

/-- The announcement of the limit is bookkeeping. -/
theorem bookkeeping_publishLimitReached (e : CounterEngine) (counter : ℕ) :
    Bookkeeping e (e.publishLimitReached counter) := by
  unfold publishLimitReached
  split
  · exact .refl e
  · exact ⟨⟨rfl, rfl, rfl, rfl, rfl⟩, rfl, id, fun _ => rfl, rfl⟩

private theorem reserved_limit_markExhaustionIfNew (c : ReservedCounter) (id : ℕ) :
    (c.markExhaustionIfNew id).2.limit = c.limit := by
  unfold ReservedCounter.markExhaustionIfNew
  dsimp only
  split
  · rfl
  · split <;> rfl

/-- The exhaustion mark of a shard and what it announces are bookkeeping. -/
theorem bookkeeping_announceShard (e : CounterEngine) (request : Request) (shard : ℕ) :
    Bookkeeping e (e.announceShard request shard) := by
  have hmark : Bookkeeping e { e with reserved := (e.reserved.markExhaustionIfNew shard).2 } :=
    ⟨⟨rfl, rfl, rfl, rfl, rfl⟩, rfl, fun h => (h.markExhaustionIfNew shard).1,
      fun h => (h.markExhaustionIfNew shard).2.1, reserved_limit_markExhaustionIfNew _ _⟩
  unfold announceShard
  split
  · exact .refl e
  · dsimp only
    split
    · exact hmark
    · refine hmark.trans ?_
      split
      · refine Bookkeeping.trans ?_ (bookkeeping_publishLimitReached _ _)
        exact ⟨⟨rfl, rfl, rfl, rfl, rfl⟩, rfl, id, fun _ => rfl, rfl⟩
      · exact ⟨⟨rfl, rfl, rfl, rfl, rfl⟩, rfl, id, fun _ => rfl, rfl⟩

/-- All that `apply` does after the counter accepted is bookkeeping. -/
theorem bookkeeping_afterAccept (e : CounterEngine) (mode : RoutingMode) (request : Request)
    (result : Result) : Bookkeeping e (e.afterAccept mode request result) := by
  unfold afterAccept
  refine (bookkeeping_rememberCounter e request.counter).trans ?_
  dsimp only
  split
  · split
    · exact bookkeeping_publishLimitReached _ _
    · exact .refl _
  · exact bookkeeping_announceShard _ _ _

/-- What one request did: it left the control plane alone, and an accepted delta went, once,
to the counter that the mode selects. -/
structure Served (e : CounterEngine) (request : Request) (result : Result)
    (e' : CounterEngine) : Prop extends SameControl e e' where
  sound : e'.Sound
  used : e'.reserved.used =
    e.reserved.used + (if e.mode = .reservedPeak then spentBy request result else 0)
  value : e'.strict.value =
    e.strict.value + (if e.mode = .reservedPeak then 0 else spentBy request result)
  admitted : result.decision = .accepted → e.gateOpen = true ∧ e.mode ≠ .remoteStrict

/-- A request that is not accepted and changes nothing. -/
theorem Served.unchanged {e : CounterEngine} (hs : e.Sound) {request : Request} {result : Result}
    (h : result.decision ≠ .accepted) : Served e request result e where
  toSameControl := .refl e
  sound := hs
  used := by simp [spentBy_of_ne h]
  value := by simp [spentBy_of_ne h]
  admitted := fun hacc => absurd hacc h

/-- The strict branches of `apply` add an accepted delta to the strict value. -/
theorem Sound.applyStrict {e : CounterEngine} (hs : e.Sound) (request : Request)
    (hopen : e.gateOpen = true) (hmode : e.mode ≠ .reservedPeak)
    (hremote : e.mode ≠ .remoteStrict) (mode : RoutingMode) :
    Served e request (e.applyStrict mode request).1 (e.applyStrict mode request).2 := by
  unfold CounterEngine.applyStrict
  rcases e.strict.apply_cases request.delta (hs.strict_limit ▸ e.config.limit_lt) with
    ⟨-, heq⟩ | ⟨hfit, heq⟩
  · simp only [heq, reduceCtorEq, if_false]
    exact .unchanged hs nofun
  · simp only [heq, if_true]
    have hbook := bookkeeping_afterAccept
      { e with strict := { e.strict with value := e.strict.value + request.delta } } mode request
      ⟨.accepted, e.strict.value + request.delta, 0⟩
    refine ⟨⟨hbook.config, hbook.mode, hbook.gateOpen, hbook.active, hbook.epoch⟩,
      hbook.sound ⟨hs.strict_limit, hs.reserved_limit, hs.bounded, hs.strict_limit ▸ hfit⟩,
      ?_, ?_, fun _ => ⟨hopen, hremote⟩⟩
    · rw [hbook.used hs.bounded, if_neg hmode]
      rfl
    · rw [hbook.strict, if_neg hmode, spentBy_accepted]

/-- The peak branch of `apply` adds an accepted delta to one shard. -/
theorem Sound.applyReserved {e : CounterEngine} (hs : e.Sound) (request : Request)
    (hopen : e.gateOpen = true) (hmode : e.mode = .reservedPeak) :
    Served e request (e.applyReserved request).1 (e.applyReserved request).2 := by
  unfold CounterEngine.applyReserved
  set id := shardFor e.config request.routeHash
  rcases hs.bounded.apply_cases (hs.reserved_limit ▸ e.config.localPeak_lt) id request.delta with
    ⟨observed, heq⟩ | ⟨hfit, heq⟩
  · simp only [heq, reduceCtorEq, if_false]
    exact .unchanged hs nofun
  · simp only [heq, if_true]
    set shard : Shard :=
      { e.reserved.shardAt id with used := (e.reserved.shardAt id).used + request.delta }
    have hbound : (e.reserved.setShard id shard).Bounded := hs.bounded.setShard id rfl hfit
    have hbook := bookkeeping_afterAccept { e with reserved := e.reserved.setShard id shard }
      .reservedPeak request
      ⟨.accepted, (e.reserved.shardAt id).used + request.delta, id % e.reserved.shards.length⟩
    refine ⟨⟨hbook.config, hbook.mode, hbook.gateOpen, hbook.active, hbook.epoch⟩,
      hbook.sound ⟨hs.strict_limit, hs.reserved_limit, hbound, hs.value_le⟩, ?_, ?_,
      fun _ => ⟨hopen, by simp [hmode]⟩⟩
    · have hsum := hs.bounded.used_setShard id shard
      have hshard : shard.used = (e.reserved.shardAt id).used + request.delta := rfl
      rw [hbook.used hbound, if_pos hmode, spentBy_accepted]
      change (e.reserved.setShard id shard).used = _
      omega
    · rw [hbook.strict, if_pos hmode]
      rfl

/-- `apply` meets `Served` on every sound engine. -/
theorem Sound.apply {e : CounterEngine} (hs : e.Sound) (request : Request) :
    Served e request (e.apply request).1 (e.apply request).2 := by
  unfold CounterEngine.apply
  by_cases hex : e.exhausted = true
  · rw [if_pos hex]
    exact .unchanged hs nofun
  rw [if_neg hex]
  by_cases hgate : e.gateOpen = true
  swap
  · rw [if_pos (by simpa using hgate)]
    exact .unchanged hs nofun
  rw [if_neg (by simp [hgate])]
  cases hmode : e.mode with
  | strict => exact hs.applyStrict request hgate (by simp [hmode]) (by simp [hmode]) _
  | reservedPeak => exact hs.applyReserved request hgate hmode
  | dangerStrict => exact hs.applyStrict request hgate (by simp [hmode]) (by simp [hmode]) _
  | remoteStrict => exact .unchanged hs nofun

/-! ### The control loop -/

/-- The collapse is refused outside peak mode, under a component reservation and during a
handoff. -/
theorem transitionToDanger_refused {e : CounterEngine}
    (h : e.mode ≠ .reservedPeak ∨ e.localPeak ≠ e.limit ∨ e.distributedHandoffActive = true) :
    e.transitionToDanger = (false, e) := by
  unfold transitionToDanger
  by_cases hmode : e.mode = .reservedPeak
  · have hrest : (decide (e.localPeak ≠ e.limit) || e.distributedHandoffActive) = true := by
      simpa [hmode] using h
    rw [if_neg (not_not.mpr hmode), if_pos hrest]
  · rw [if_pos hmode]

/-- Raising the request for the strict owner is bookkeeping. -/
theorem bookkeeping_requestDanger (e : CounterEngine) (value : ℕ) :
    Bookkeeping e (e.requestDanger value) := by
  unfold requestDanger
  split
  · exact ⟨⟨rfl, rfl, rfl, rfl, rfl⟩, rfl, id, fun _ => rfl, rfl⟩
  · exact .refl e

/-- Publishing a snapshot is bookkeeping. -/
theorem bookkeeping_replicate (e : CounterEngine) (value : ℕ) :
    Bookkeeping e (e.replicate value) := by
  unfold replicate publishSnapshot
  split
  · split <;> exact ⟨⟨rfl, rfl, rfl, rfl, rfl⟩, rfl, id, fun _ => rfl, rfl⟩
  · exact .refl e

/-- A control-loop iteration of a process that holds only a component reservation, or whose
handoff is active, changes nothing but bookkeeping once it has left strict mode. -/
theorem bookkeeping_controlLoop {e : CounterEngine} (hmode : e.mode ≠ .strict)
    (h : e.mode ≠ .reservedPeak ∨ e.localPeak ≠ e.limit ∨ e.distributedHandoffActive = true) :
    Bookkeeping e e.controlLoop := by
  have hseen := (bookkeeping_requestDanger e e.componentValue).trans
    (bookkeeping_replicate _ e.componentValue)
  have hrefused := transitionToDanger_refused
    (e := (e.requestDanger e.componentValue).replicate e.componentValue) (by
      rw [hseen.mode, hseen.active, localPeak, limit, hseen.config, hseen.strict]
      exact h)
  unfold controlLoop
  dsimp only
  rw [if_neg (fun hc => hmode hc.1)]
  split
  · rw [hrefused]
    exact hseen
  · exact hseen

/-! ### Handoff calls -/

/-- A handoff in progress, or an engine outside peak mode, refuses another one. -/
theorem beginDistributedHandoff_none {e : CounterEngine}
    (h : e.distributedHandoffActive = true ∨ e.mode ≠ .reservedPeak) :
    e.beginDistributedHandoff = (none, e) := by
  unfold beginDistributedHandoff
  by_cases hactive : e.distributedHandoffActive = true
  · simp [hactive]
  · have hoff : e.distributedHandoffActive = false := by simpa using hactive
    have hself : { e with distributedHandoffActive := false } = e := by rw [← hoff]
    simp [hoff, h.resolve_left hactive, hself]

/-- A handoff that begins closes the gate, and reports the drained total with the epoch. -/
theorem beginDistributedHandoff_some {e : CounterEngine}
    (hactive : e.distributedHandoffActive = false) (hmode : e.mode = .reservedPeak) :
    e.beginDistributedHandoff =
      (some ⟨e.activeCounter, e.replicationEpoch, e.reserved.total⟩,
        { e with distributedHandoffActive := true, gateOpen := false }) := by
  simp [beginDistributedHandoff, hactive, hmode, closeAndDrain]

/-- An abort of a claimed handoff reopens the gate and leaves the shards. -/
theorem abortDistributedHandoff_peak {e : CounterEngine}
    (hactive : e.distributedHandoffActive = true) (hmode : e.mode = .reservedPeak) :
    e.abortDistributedHandoff =
      { e with distributedHandoffActive := false, gateOpen := true } := by
  simp [abortDistributedHandoff, hactive, hmode]

/-- The engine a committed handoff leaves behind, up to the exhaustion bookkeeping. -/
structure Installed (e : CounterEngine) (total : ℕ) (strictOwner : Bool) (e' : CounterEngine) :
    Prop where
  sound : e'.Sound
  config : e'.config = e.config
  mode : e'.mode = handoffMode strictOwner
  gateOpen : e'.gateOpen = true
  active : e'.distributedHandoffActive = false
  value : e'.strict.value = total
  reserved : e'.reserved = e.reserved

private theorem markHandoffTotal_fields (e : CounterEngine) (counter total : ℕ) (owner : Bool) :
    (e.markHandoffTotal counter total owner).config = e.config ∧
      (e.markHandoffTotal counter total owner).mode = e.mode ∧
      (e.markHandoffTotal counter total owner).distributedHandoffActive =
        e.distributedHandoffActive ∧
      (e.markHandoffTotal counter total owner).strict = e.strict ∧
      (e.markHandoffTotal counter total owner).reserved = e.reserved ∧
      (e.markHandoffTotal counter total owner).replicationEpoch = e.replicationEpoch ∧
      (e.markHandoffTotal counter total owner).exhausted =
        (e.exhausted || decide (total = e.limit)) := by
  unfold markHandoffTotal publishLimitReached
  split
  · split
    · split <;> simp_all
    · simp_all
  · simp_all

/-- **A commit within the limit succeeds and installs the total.** -/
theorem Sound.commit {e : CounterEngine} (hs : e.Sound) {total : ℕ} (owner : Bool)
    (hactive : e.distributedHandoffActive = true) (hmode : e.mode = .reservedPeak)
    (htotal : total ≤ e.limit) :
    (e.commitDistributedHandoff total owner).1 = true ∧
      Installed e total owner (e.commitDistributedHandoff total owner).2 ∧
      (e.commitDistributedHandoff total owner).2.replicationEpoch =
        (e.replicationEpoch + 1) % 2 ^ 64 ∧
      (e.commitDistributedHandoff total owner).2.exhausted =
        (e.exhausted || decide (total = e.limit)) := by
  have hseed := StrictCounter.seedAfterQuiescence_of_le (c := e.strict) htotal
  have hguard : ¬ total > e.limit := Nat.not_lt.mpr htotal
  simp only [commitDistributedHandoff, hactive, hmode, hguard, hseed, Bool.not_true, ne_eq,
    not_true_eq_false, decide_false, Bool.or_false, Bool.false_eq_true, if_false, true_and]
  obtain ⟨h1, h2, h3, h4, h5, h6, h7⟩ := markHandoffTotal_fields _ e.activeCounter total owner
  refine ⟨⟨⟨?_, ?_, ?_, ?_⟩, h1, h2, rfl, h3, by rw [h4], h5⟩, h6, h7⟩
  · rw [h4, h1]; exact hs.strict_limit
  · rw [h5, h1]; exact hs.reserved_limit
  · rw [h5]; exact hs.bounded
  · rw [h4, h1]; exact htotal.trans_eq hs.strict_limit

/-- A total beyond the limit is refused before anything is written. -/
theorem commitDistributedHandoff_refused {e : CounterEngine} {total : ℕ} {owner : Bool}
    (h : total > e.limit) : e.commitDistributedHandoff total owner = (false, e) := by
  simp [commitDistributedHandoff, h]

/-- **Recovery of a total within the limit installs it, with the epoch of the record.** -/
theorem Sound.recover {e : CounterEngine} (hs : e.Sound) (state : DrainedPeakState) {total : ℕ}
    (owner : Bool) (htotal : total ≤ e.limit) :
    (e.recoverCommittedHandoff state total owner).1 = true ∧
      Installed e total owner (e.recoverCommittedHandoff state total owner).2 ∧
      (e.recoverCommittedHandoff state total owner).2.replicationEpoch = state.epoch ∧
      (e.recoverCommittedHandoff state total owner).2.exhausted =
        (e.exhausted || decide (total = e.limit)) := by
  have hseed := StrictCounter.seedAfterQuiescence_of_le (c := e.strict) htotal
  have hguard : ¬ total > e.limit := Nat.not_lt.mpr htotal
  simp only [recoverCommittedHandoff, hguard, closeAndDrain, hseed, if_false, true_and]
  obtain ⟨h1, h2, h3, h4, h5, h6, h7⟩ := markHandoffTotal_fields _ state.counter total owner
  refine ⟨⟨⟨?_, ?_, ?_, ?_⟩, h1, h2, rfl, h3, by rw [h4], h5⟩, h6, h7⟩
  · rw [h4, h1]; exact hs.strict_limit
  · rw [h5, h1]; exact hs.reserved_limit
  · rw [h5]; exact hs.bounded
  · rw [h4, h1]; exact htotal.trans_eq hs.strict_limit

/-! ### Entering peak mode -/

/-- A fresh engine can always enter peak mode, empty. -/
theorem transitionToReserved_new (config : CounterEngineConfig) :
    (new config).transitionToReserved.1 = true ∧
      (new config).transitionToReserved.2.Sound ∧
      (new config).transitionToReserved.2.config = config ∧
      (new config).transitionToReserved.2.mode = .reservedPeak ∧
      (new config).transitionToReserved.2.gateOpen = true ∧
      (new config).transitionToReserved.2.distributedHandoffActive = false ∧
      (new config).transitionToReserved.2.reserved.used = 0 := by
  have hs := sound_new config
  have hle : (new config).strict.value ≤ (new config).reserved.limit := Nat.zero_le _
  obtain ⟨hok, hbound, hused, hlim⟩ := hs.bounded.seed hle
  have hval : ¬ (new config).strict.value > (new config).localPeak := Nat.not_lt.mpr (Nat.zero_le _)
  simp only [transitionToReserved, show (new config).mode = .strict from rfl, ne_eq,
    not_true_eq_false, if_false, closeAndDrain, hok, Bool.not_true, Bool.false_eq_true]
  rw [if_neg (by simpa [localPeak] using hval)]
  exact ⟨rfl, ⟨rfl, hlim, hbound, Nat.zero_le _⟩, rfl, rfl, rfl, rfl, hused⟩

/-- Entering peak mode does not set the exhaustion flag. -/
theorem exhausted_transitionToReserved (e : CounterEngine) :
    e.transitionToReserved.2.exhausted = e.exhausted := by
  unfold transitionToReserved closeAndDrain
  split
  · rfl
  · dsimp only
    split
    · rfl
    · split <;> rfl

end CounterEngine

end HotCounter
