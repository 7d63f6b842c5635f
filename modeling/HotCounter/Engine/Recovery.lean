import HotCounter.Engine.Spec

/-!
# Recovery against live commit

A node that installed a handoff live and a node that was restarted from the journal record
of the same handoff should be the same node. They serve every later request alike
(`serveAlike_recovered`), but their replication epochs always differ: the live commit
advances the epoch of the drained peak, recovery puts that very epoch back.
-/

namespace HotCounter

namespace CounterEngine

/-! ### Sequential histories -/

/-- The public calls of an engine, as a single caller can make them. -/
inductive Call
  | apply (request : Request)
  | enterReservedMode
  | enterDangerMode
  | controlLoop
  | raisePeakRequest
  | setReplicationPublisher (present : Bool)
  | setLimitReachedPublisher (present : Bool)
  | beginHandoff
  | abortHandoff
  | commitHandoff (total : ℕ) (strictOwner : Bool)
  | recoverHandoff (state : DrainedPeakState) (total : ℕ) (strictOwner : Bool)
  | fence

/-- The engine after a call. -/
def run (e : CounterEngine) : Call → CounterEngine
  | .apply request => (e.apply request).2
  | .enterReservedMode => e.transitionToReserved.2
  | .enterDangerMode => e.transitionToDanger.2
  | .controlLoop => e.controlLoop
  | .raisePeakRequest => e.raisePeakRequest
  | .setReplicationPublisher present => { e with replicationPublisher := present }
  | .setLimitReachedPublisher present => { e with limitReachedPublisher := present }
  | .beginHandoff => e.beginDistributedHandoff.2
  | .abortHandoff => e.abortDistributedHandoff
  | .commitHandoff total strictOwner => (e.commitDistributedHandoff total strictOwner).2
  | .recoverHandoff state total strictOwner =>
    (e.recoverCommittedHandoff state total strictOwner).2
  | .fence => e.fenceAfterInterruptedHandoff

/-- An engine of the given configuration after some sequence of calls. -/
def Reachable (config : CounterEngineConfig) (e : CounterEngine) : Prop :=
  ∃ calls : List Call, calls.foldl run (new config) = e

/-- Structural soundness together with the configuration the engine was built with. -/
private def SoundFor (config : CounterEngineConfig) (e : CounterEngine) : Prop :=
  e.Sound ∧ e.config = config

private theorem Sound.transitionToReserved {e : CounterEngine} (hs : e.Sound) :
    e.transitionToReserved.2.Sound ∧ e.transitionToReserved.2.config = e.config := by
  unfold CounterEngine.transitionToReserved closeAndDrain
  split
  · exact ⟨hs, rfl⟩
  · dsimp only
    split
    · exact ⟨⟨hs.strict_limit, hs.reserved_limit, hs.bounded, hs.value_le⟩, rfl⟩
    · rename_i hle
      have hfit : e.strict.value ≤ e.reserved.limit := by
        rw [hs.reserved_limit]
        exact Nat.not_lt.mp hle
      obtain ⟨hok, hbound, -, hlim⟩ := hs.bounded.seed hfit
      rw [if_neg (by simp [hok])]
      exact ⟨⟨hs.strict_limit, hlim.trans hs.reserved_limit, hbound, hs.value_le⟩, rfl⟩

private theorem Sound.transitionToDanger {e : CounterEngine} (hs : e.Sound) :
    e.transitionToDanger.2.Sound ∧ e.transitionToDanger.2.config = e.config := by
  unfold CounterEngine.transitionToDanger closeAndDrain StrictCounter.seedAfterQuiescence
  split
  · exact ⟨hs, rfl⟩
  · split
    · exact ⟨hs, rfl⟩
    · dsimp only
      by_cases hgt : e.reserved.total > e.strict.limit
      · rw [if_pos hgt]
        exact ⟨⟨hs.strict_limit, hs.reserved_limit, hs.bounded, hs.value_le⟩, rfl⟩
      · rw [if_neg hgt]
        exact ⟨⟨hs.strict_limit, hs.reserved_limit, hs.bounded,
          (Nat.not_lt.mp hgt).trans_eq hs.strict_limit⟩, rfl⟩

private theorem Sound.controlLoop {e : CounterEngine} (hs : e.Sound) :
    e.controlLoop.Sound ∧ e.controlLoop.config = e.config := by
  have hseen := (bookkeeping_requestDanger e e.componentValue).trans
    (bookkeeping_replicate _ e.componentValue)
  have hs' := hseen.sound hs
  unfold CounterEngine.controlLoop
  dsimp only
  split
  · exact ⟨hs'.transitionToReserved.1, hs'.transitionToReserved.2.trans hseen.config⟩
  · split
    · exact ⟨hs'.transitionToDanger.1, hs'.transitionToDanger.2.trans hseen.config⟩
    · exact ⟨hs', hseen.config⟩

private theorem soundFor_run {config : CounterEngineConfig} {e : CounterEngine}
    (h : SoundFor config e) (call : Call) : SoundFor config (e.run call) := by
  obtain ⟨hs, hc⟩ := h
  have hkeep : ∀ e', e'.strict = e.strict → e'.reserved = e.reserved → e'.config = e.config →
      SoundFor config e' := by
    intro e' h1 h2 h3
    exact ⟨⟨by rw [h1, h3]; exact hs.strict_limit, by rw [h2, h3]; exact hs.reserved_limit,
      by rw [h2]; exact hs.bounded, by rw [h1, h3]; exact hs.value_le⟩, h3.trans hc⟩
  cases call with
  | apply request => exact ⟨(hs.apply request).sound, (hs.apply request).config.trans hc⟩
  | enterReservedMode => exact ⟨hs.transitionToReserved.1, hs.transitionToReserved.2.trans hc⟩
  | enterDangerMode => exact ⟨hs.transitionToDanger.1, hs.transitionToDanger.2.trans hc⟩
  | controlLoop => exact ⟨hs.controlLoop.1, hs.controlLoop.2.trans hc⟩
  | raisePeakRequest => exact hkeep _ rfl rfl rfl
  | setReplicationPublisher present => exact hkeep _ rfl rfl rfl
  | setLimitReachedPublisher present => exact hkeep _ rfl rfl rfl
  | beginHandoff =>
    simp only [run, beginDistributedHandoff]
    split
    · exact hkeep _ rfl rfl rfl
    · split <;> exact hkeep _ rfl rfl rfl
  | abortHandoff =>
    simp only [run, abortDistributedHandoff]
    split
    · exact hkeep _ rfl rfl rfl
    · split <;> exact hkeep _ rfl rfl rfl
  | commitHandoff total owner =>
    by_cases hgo : e.distributedHandoffActive = true ∧ e.mode = .reservedPeak ∧ total ≤ e.limit
    · have hcommit := (hs.commit owner hgo.1 hgo.2.1 hgo.2.2).2.1
      exact ⟨hcommit.sound, hcommit.config.trans hc⟩
    · have hno : (!e.distributedHandoffActive || decide (e.mode ≠ .reservedPeak) ||
          decide (total > e.limit)) = true := by
        by_contra hcon
        refine hgo ⟨?_, ?_, ?_⟩ <;> simp_all
      simp only [run, commitDistributedHandoff, if_pos hno]
      exact ⟨hs, hc⟩
  | recoverHandoff state total owner =>
    by_cases hgo : total ≤ e.limit
    · have hrec := (hs.recover state owner hgo).2.1
      exact ⟨hrec.sound, hrec.config.trans hc⟩
    · simp only [run, recoverCommittedHandoff, if_pos (Nat.not_le.mp hgo)]
      exact ⟨hs, hc⟩
  | fence => exact hkeep _ rfl rfl rfl

theorem Reachable.sound {config : CounterEngineConfig} {e : CounterEngine}
    (h : Reachable config e) : e.Sound ∧ e.config = config := by
  obtain ⟨calls, rfl⟩ := h
  suffices ∀ e, SoundFor config e → SoundFor config (calls.foldl run e) from
    this _ ⟨sound_new config, rfl⟩
  induction calls with
  | nil => exact fun e he => he
  | cons call calls ih => exact fun e he => ih _ (soundFor_run he call)

/-! ### The two nodes -/

/-- What it means for two engines to be the same node to clients and to replication. -/
structure Agree (e₁ e₂ : CounterEngine) : Prop where
  mode : e₁.mode = e₂.mode
  value : e₁.strict.value = e₂.strict.value
  exhausted : e₁.exhausted = e₂.exhausted
  gateOpen : e₁.gateOpen = e₂.gateOpen
  epoch : e₁.replicationEpoch = e₂.replicationEpoch
  results : ∀ requests, (e₁.applyAll requests).1 = (e₂.applyAll requests).1

/-- The node that commits a begun handoff live. -/
def committedLive (e : CounterEngine) (total : ℕ) (strictOwner : Bool) : CounterEngine :=
  (e.beginDistributedHandoff.2.commitDistributedHandoff total strictOwner).2

/-- The restarted node: a fresh engine that entered peak mode and recovered the record of a
commit, whose `load` sets the component total to the total. -/
def recoveredFrom (config : CounterEngineConfig) (state : DrainedPeakState) (total : ℕ)
    (strictOwner : Bool) : CounterEngine :=
  ((new config).transitionToReserved.2.recoverCommittedHandoff
    ⟨state.counter, state.epoch, total⟩ total strictOwner).2

/-- Two engines in the same post-handoff mode with the same strict counter, gate and
exhaustion flag. -/
structure ServeAlike (e₁ e₂ : CounterEngine) : Prop where
  mode : e₁.mode = e₂.mode
  strict : e₁.strict = e₂.strict
  exhausted : e₁.exhausted = e₂.exhausted
  gateOpen : e₁.gateOpen = e₂.gateOpen
  notPeak : e₁.mode ≠ .reservedPeak

private theorem ServeAlike.publishLimitReached {e₁ e₂ : CounterEngine} (h : ServeAlike e₁ e₂)
    (counter : ℕ) :
    ServeAlike (e₁.publishLimitReached counter) (e₂.publishLimitReached counter) := by
  unfold CounterEngine.publishLimitReached
  by_cases hex : e₂.exhausted = true
  · rw [if_pos (h.exhausted.trans hex), if_pos hex]
    exact h
  · rw [if_neg (h.exhausted ▸ hex), if_neg hex]
    exact ⟨h.mode, h.strict, rfl, h.gateOpen, h.notPeak⟩

private theorem ServeAlike.rememberCounter {e₁ e₂ : CounterEngine} (h : ServeAlike e₁ e₂)
    (counter : ℕ) : ServeAlike (e₁.rememberCounter counter) (e₂.rememberCounter counter) := by
  unfold CounterEngine.rememberCounter
  split <;> split <;> exact ⟨h.mode, h.strict, h.exhausted, h.gateOpen, h.notPeak⟩

/-- Engines that serve alike give one request the same answer and still serve alike. -/
theorem ServeAlike.apply {e₁ e₂ : CounterEngine} (h : ServeAlike e₁ e₂) (request : Request) :
    (e₁.apply request).1 = (e₂.apply request).1 ∧
      ServeAlike (e₁.apply request).2 (e₂.apply request).2 := by
  have hstrict : ∀ mode, mode ≠ .reservedPeak →
      (e₁.applyStrict mode request).1 = (e₂.applyStrict mode request).1 ∧
        ServeAlike (e₁.applyStrict mode request).2 (e₂.applyStrict mode request).2 := by
    intro mode hmode
    have hseed : ServeAlike { e₁ with strict := (e₁.strict.apply request.delta).2 }
        { e₂ with strict := (e₂.strict.apply request.delta).2 } :=
      ⟨h.mode, by rw [h.strict], h.exhausted, h.gateOpen, h.notPeak⟩
    unfold applyStrict afterAccept
    simp only [h.strict, hmode, ne_eq, not_false_eq_true, if_true] at hseed ⊢
    have hkeep := hseed.rememberCounter request.counter
    have hlimit : (({ e₁ with strict := (e₂.strict.apply request.delta).2 } :
        CounterEngine).rememberCounter request.counter).limit =
        (({ e₂ with strict := (e₂.strict.apply request.delta).2 } :
        CounterEngine).rememberCounter request.counter).limit :=
          congrArg StrictCounter.limit hkeep.strict
    rw [hlimit]
    split
    · refine ⟨rfl, ?_⟩
      split
      · exact hkeep.publishLimitReached _
      · exact hkeep
    · exact ⟨rfl, hseed⟩
  unfold CounterEngine.apply
  by_cases hex : e₂.exhausted = true
  · rw [if_pos (h.exhausted.trans hex), if_pos hex]
    exact ⟨by rw [limit, limit, h.strict], h⟩
  rw [if_neg (h.exhausted ▸ hex), if_neg hex, h.gateOpen]
  split
  · exact ⟨rfl, h⟩
  rw [h.mode]
  cases hmode : e₂.mode with
  | strict => exact hstrict _ (by simp)
  | reservedPeak => exact absurd (h.mode.trans hmode) h.notPeak
  | dangerStrict => exact hstrict _ (by simp)
  | remoteStrict => exact ⟨by simp [h.strict], h⟩

theorem ServeAlike.applyAll {e₁ e₂ : CounterEngine} (h : ServeAlike e₁ e₂)
    (requests : List Request) : (e₁.applyAll requests).1 = (e₂.applyAll requests).1 := by
  induction requests generalizing e₁ e₂ with
  | nil => rfl
  | cons request requests ih =>
    obtain ⟨hres, hnext⟩ := h.apply request
    simp only [CounterEngine.applyAll, hres, ih hnext]

/-! ### Recovery serves alike under another epoch -/

section Handoff

variable {config : CounterEngineConfig} {e : CounterEngine} {state : DrainedPeakState}

/-- What a successful `begin_distributed_handoff` found. -/
private theorem begun (hbegin : e.beginDistributedHandoff.1 = some state) :
    e.distributedHandoffActive = false ∧ e.mode = .reservedPeak := by
  by_cases h : e.distributedHandoffActive = true ∨ e.mode ≠ .reservedPeak
  · rw [beginDistributedHandoff_none h] at hbegin
    exact absurd hbegin nofun
  · push Not at h
    exact ⟨by simpa using h.1, h.2⟩

private theorem begun_state (hbegin : e.beginDistributedHandoff.1 = some state) :
    state = ⟨e.activeCounter, e.replicationEpoch, e.reserved.total⟩ := by
  obtain ⟨hactive, hmode⟩ := begun hbegin
  rw [beginDistributedHandoff_some hactive hmode] at hbegin
  exact (Option.some.inj hbegin).symm

/-- The live node after the commit. -/
theorem installed_committedLive (h : Reachable config e)
    (hbegin : e.beginDistributedHandoff.1 = some state) {total : ℕ} (htotal : total ≤ e.limit)
    (strictOwner : Bool) :
    Installed e total strictOwner (committedLive e total strictOwner) ∧
      (committedLive e total strictOwner).replicationEpoch = (state.epoch + 1) % 2 ^ 64 ∧
      (committedLive e total strictOwner).exhausted =
        (e.exhausted || decide (total = e.limit)) := by
  obtain ⟨hactive, hmode⟩ := begun hbegin
  have hs := h.sound.1
  unfold committedLive
  rw [begun_state hbegin, beginDistributedHandoff_some hactive hmode]
  have hs' : ({ e with distributedHandoffActive := true, gateOpen := false } :
      CounterEngine).Sound := ⟨hs.strict_limit, hs.reserved_limit, hs.bounded, hs.value_le⟩
  obtain ⟨-, hinst, hepoch, hexh⟩ := hs'.commit strictOwner rfl hmode htotal
  exact ⟨⟨hinst.sound, hinst.config, hinst.mode, hinst.gateOpen, hinst.active, hinst.value,
    hinst.reserved⟩, hepoch, hexh⟩

/-- The restarted node after the recovery. -/
theorem installed_recoveredFrom (config : CounterEngineConfig) (state : DrainedPeakState)
    {total : ℕ} (htotal : total ≤ config.limit) (strictOwner : Bool) :
    Installed (new config).transitionToReserved.2 total strictOwner
        (recoveredFrom config state total strictOwner) ∧
      (recoveredFrom config state total strictOwner).replicationEpoch = state.epoch ∧
      (recoveredFrom config state total strictOwner).exhausted = decide (total = config.limit) := by
  obtain ⟨-, hs, hconfig, -, -, -, -⟩ := transitionToReserved_new config
  have hlimit : (new config).transitionToReserved.2.limit = config.limit := by
    rw [hs.limit_eq, hconfig]
  obtain ⟨-, hinst, hepoch, hexh⟩ := hs.recover ⟨state.counter, state.epoch, total⟩ strictOwner
    (htotal.trans_eq hlimit.symm)
  refine ⟨hinst, hepoch, ?_⟩
  rw [recoveredFrom, hexh, hlimit, exhausted_transitionToReserved]
  rfl

/-- Apart from the epoch the restarted node is the live one: it answers every later sequence
of requests alike, unless the live node was already exhausted below the committed total. -/
theorem serveAlike_recovered (h : Reachable config e)
    (hbegin : e.beginDistributedHandoff.1 = some state) {total : ℕ} (htotal : total ≤ e.limit)
    (strictOwner : Bool) (hexh : e.exhausted = false) :
    ServeAlike (committedLive e total strictOwner)
      (recoveredFrom config state total strictOwner) := by
  obtain ⟨hs, hconfig⟩ := h.sound
  have hlimit : e.limit = config.limit := hconfig ▸ hs.limit_eq
  obtain ⟨hlive, -, hlx⟩ := installed_committedLive h hbegin htotal strictOwner
  obtain ⟨hrec, -, hrx⟩ := installed_recoveredFrom config state (hlimit ▸ htotal) strictOwner
  refine ⟨hlive.mode.trans hrec.mode.symm, ?_, ?_, hlive.gateOpen.trans hrec.gateOpen.symm, ?_⟩
  · have hl := hlive.sound.strict_limit.trans (congrArg _ (hlive.config.trans hconfig))
    have hr := hrec.sound.strict_limit.trans
      (congrArg _ (hrec.config.trans (transitionToReserved_new config).2.2.1))
    have hv := hlive.value.trans hrec.value.symm
    rcases hlv : (committedLive e total strictOwner).strict with ⟨v, l⟩
    rcases hrv : (recoveredFrom config state total strictOwner).strict with ⟨v', l'⟩
    simp only [hlv, hrv] at hl hr hv
    rw [hv, hl, hr]
  · rw [hlx, hrx, hexh, Bool.false_or, hlimit]
  · rw [hlive.mode]
    exact handoffMode_ne_reservedPeak strictOwner

/-- **Recovery never equals the live commit.** Whatever engine began the handoff, whatever
total and owner flag it commits, the node restarted from the record of that commit runs under
the drained peak epoch while the live node has advanced it. -/
theorem not_agree_recovered (h : Reachable config e)
    (hbegin : e.beginDistributedHandoff.1 = some state) {total : ℕ} (htotal : total ≤ e.limit)
    (strictOwner : Bool) :
    ¬ Agree (committedLive e total strictOwner) (recoveredFrom config state total strictOwner) ∧
      (recoveredFrom config state total strictOwner).replicationEpoch = state.epoch := by
  obtain ⟨hs, hconfig⟩ := h.sound
  have hlimit : e.limit = config.limit := hconfig ▸ hs.limit_eq
  obtain ⟨-, hlive, -⟩ := installed_committedLive h hbegin htotal strictOwner
  obtain ⟨-, hrec, -⟩ := installed_recoveredFrom config state (hlimit ▸ htotal) strictOwner
  refine ⟨fun hagree => ?_, hrec⟩
  have hepoch := hagree.epoch
  rw [hlive, hrec] at hepoch
  -- the increment is taken modulo `2 ^ 64`, where it has no fixed point either
  omega

end Handoff

/-! ### The handoff of the correctness test -/

/-- Component `0` of the test's two-component plan, with 45 of 100 units. -/
def testConfig : CounterEngineConfig where
  limit := 100
  shards := 1
  dangerThreshold := 10
  hotThresholdTps := 1000000
  localPeakReservation := 45

/-- The engine of the test after it entered peak mode and spent 40 units on counter 17. -/
def testEngine : CounterEngine :=
  [Call.enterReservedMode, .apply ⟨17, 40, 0⟩].foldl run (new testConfig)

/-- Committing 90 at the owner moves the live node to epoch 2 and puts the restarted node
back into epoch 1, the epoch of the drained peak. -/
theorem recovered_epoch_differs :
    Reachable testConfig testEngine ∧
      testEngine.beginDistributedHandoff.1 = some ⟨17, 1, 40⟩ ∧ 90 ≤ testEngine.limit ∧
      ¬ Agree (committedLive testEngine 90 true) (recoveredFrom testConfig ⟨17, 1, 40⟩ 90 true) :=
  ⟨⟨_, rfl⟩, by decide, by decide, fun h => absurd h.epoch (by decide)⟩

theorem not_agree_recovered_test :
    ¬ Agree (committedLive testEngine 90 true) (recoveredFrom testConfig ⟨17, 1, 40⟩ 90 true) ∧
      (recoveredFrom testConfig ⟨17, 1, 40⟩ 90 true).replicationEpoch = 1 :=
  not_agree_recovered ⟨_, rfl⟩ (by decide : testEngine.beginDistributedHandoff.1 = _) (by decide)
    true

end CounterEngine

end HotCounter
