import HotCounter.Handoff.Rules

/-!
# The recovery fence

A process that starts on a prepared journal closes its gate and fences its controller. The
fenced controller takes part in nothing, but the control loop of the engine does not know of the
fence: a process whose reservation is the whole limit, and whose danger threshold is at least
that, collapses into `DangerStrict` at its first iteration and reopens the gate
(`recovery_fence_iff`).
-/

namespace HotCounter

open Foundation

namespace Node

/-- One step of a process on its own, whatever arrives. -/
def advance (n : Node) (action : NodeAction) : Option Node := (n.step action).map Prod.fst

/-- A process that has just started. -/
def fresh (engine : CounterEngine) (c : Impl) (journal : Option JournalRecord) : Node :=
  { up := true, engine := engine, control := .ret c (), journal := journal }

/-- The runs of a started process on its own. -/
def Runs (n n' : Node) : Prop := Steps advance (fun _ _ => True) n n'

end Node

/-! ### A fenced controller -/

section Controller

variable {c : Impl}

theorem Impl.handleFrame_fenced (hfence : c.recoveryFenced = true) (frame : Frame)
    (source : Endpoint) : Impl.handleFrame frame source c = .ret c () := by
  unfold Impl.handleFrame
  simp only [Script.bind_apply, Script.get_apply, Script.ite_apply, Prog.ret_bind, hfence, if_true]
  rfl

theorem Impl.tick_fenced (hfence : c.recoveryFenced = true) (hidle : c.state = .idle)
    (now : ℕ) : Impl.tick now c = .ret c () := by
  unfold Impl.tick
  rw [Script.bind_apply, Impl.triggerHandoff_busy (.inl hfence), Prog.ret_bind,
    Impl.retryPhase_idle hidle]

theorem Impl.stop_idle (hidle : c.state = .idle) : Impl.stop c = .ret c () := by
  unfold Impl.stop
  simp only [Script.bind_apply, Script.get_apply, Script.ite_apply, Prog.ret_bind, hidle,
    reduceCtorEq, or_self, if_false]
  rfl

end Controller

/-! ### A fenced engine -/

/-- The whole limit is reserved here and is within the danger threshold. -/
def CounterEngineConfig.collapsesEmpty (config : CounterEngineConfig) : Prop :=
  config.localPeak = config.limit ∧ config.limit ≤ config.dangerThreshold

/-- An engine in peak mode that has spent nothing behind its closed gate. -/
structure CounterEngine.Fenced (config : CounterEngineConfig) (e : CounterEngine) : Prop where
  sound : e.Sound
  config_eq : e.config = config
  mode : e.mode = .reservedPeak
  gate : e.gateOpen = false
  active : e.distributedHandoffActive = false
  used : e.reserved.used = 0
  danger : e.dangerRequested = false
  exhausted : e.exhausted = false

namespace CounterEngine

variable {config : CounterEngineConfig} {e : CounterEngine}

theorem Fenced.apply (h : e.Fenced config) (request : Request) :
    e.apply request = (⟨.rejected, 0, 0⟩, e) := by
  simp [CounterEngine.apply, h.exhausted, h.gate]

theorem Fenced.total (h : e.Fenced config) : e.reserved.total = 0 :=
  h.sound.total_eq.trans h.used

/-- With nothing spent, the limit is near exactly if the threshold reaches it. -/
private theorem Fenced.nearLimit (h : e.Fenced config) :
    e.nearLimit e.componentValue = true ↔ config.collapsesEmpty := by
  have hvalue : e.componentValue = 0 := by
    rw [componentValue, h.mode]
    exact h.total
  have hlt := config.limit_lt
  unfold CounterEngine.nearLimit CounterEngineConfig.collapsesEmpty
  rw [hvalue, localPeak, h.sound.limit_eq, h.config_eq, Nat.sub_zero, Nat.add_mod_right,
    Nat.mod_eq_of_lt hlt]
  simp

/-- The publishing part of an iteration leaves a fenced engine fenced. -/
private theorem Fenced.replicate (h : e.Fenced config) (value : ℕ) :
    (e.replicate value).Fenced config := by
  have hbook := bookkeeping_replicate e value
  have hsame : (e.replicate value).dangerRequested = e.dangerRequested ∧
      (e.replicate value).exhausted = e.exhausted := by
    unfold CounterEngine.replicate publishSnapshot
    split
    · split <;> exact ⟨rfl, rfl⟩
    · exact ⟨rfl, rfl⟩
  exact
    { sound := hbook.sound h.sound
      config_eq := hbook.config.trans h.config_eq
      mode := hbook.mode.trans h.mode
      gate := hbook.gateOpen.trans h.gate
      active := hbook.active.trans h.active
      used := (hbook.used h.sound.bounded).trans h.used
      danger := hsame.1.trans h.danger
      exhausted := hsame.2.trans h.exhausted }

/-- An iteration of the control loop that does not ask for danger mode. -/
private theorem Fenced.controlLoop (h : e.Fenced config) (hconfig : ¬ config.collapsesEmpty) :
    e.controlLoop.Fenced config := by
  have hrequest : e.requestDanger e.componentValue = e :=
    if_neg fun hnear => hconfig (h.nearLimit.mp hnear.2)
  have hseen := h.replicate e.componentValue
  unfold CounterEngine.controlLoop
  dsimp only
  rw [hrequest, if_neg (by simp [h.mode]), if_neg (by simp [hseen.danger])]
  exact hseen

/-- An iteration that asks for danger mode goes there at once and opens the gate. -/
private theorem Fenced.controlLoop_collapse (h : e.Fenced config)
    (hconfig : config.collapsesEmpty) :
    e.controlLoop.mode = .dangerStrict ∧ e.controlLoop.gateOpen = true ∧
      e.controlLoop.exhausted = false ∧ e.controlLoop.strict.value = 0 := by
  have hrequest : e.requestDanger e.componentValue = { e with dangerRequested := true } :=
    if_pos ⟨h.mode, h.nearLimit.mpr hconfig⟩
  have hbook := bookkeeping_replicate { e with dangerRequested := true } e.componentValue
  generalize hseen : CounterEngine.replicate { e with dangerRequested := true } e.componentValue =
    seen at hbook
  have hsame : seen.dangerRequested = true ∧ seen.exhausted = e.exhausted := by
    rw [← hseen]
    unfold CounterEngine.replicate publishSnapshot
    split
    · split <;> exact ⟨rfl, rfl⟩
    · exact ⟨rfl, rfl⟩
  have hmode : seen.mode = .reservedPeak := hbook.mode.trans h.mode
  have hactive : seen.distributedHandoffActive = false := hbook.active.trans h.active
  have hlimit : seen.localPeak = seen.limit := by
    rw [localPeak, limit, hbook.config, hbook.strict]
    change e.config.localPeak = e.strict.limit
    rw [h.sound.strict_limit, h.config_eq]
    exact hconfig.1
  have htotal : seen.reserved.total = 0 := by
    have hsound : seen.Sound := hbook.sound ⟨h.sound.strict_limit, h.sound.reserved_limit,
      h.sound.bounded, h.sound.value_le⟩
    rw [hsound.total_eq, hbook.used h.sound.bounded]
    exact h.used
  unfold CounterEngine.controlLoop
  dsimp only
  rw [hrequest, hseen, if_neg (by simp [h.mode]), if_pos ⟨h.mode, hsame.1⟩]
  simp [transitionToDanger, closeAndDrain, hmode, hactive, hlimit, htotal,
    StrictCounter.seedAfterQuiescence, hsame.2, h.exhausted]

theorem dangerRequested_transitionToReserved (h : e.dangerRequested = false) :
    e.transitionToReserved.2.dangerRequested = false := by
  unfold transitionToReserved closeAndDrain
  split
  · exact h
  · dsimp only
    split
    · exact h
    · split
      · exact h
      · rfl

end CounterEngine

/-! ### Starting on a prepared journal -/

/-- The engine and the controller of a process that started on a prepared journal. -/
theorem fenced_of_start {options : RuntimeLaunchOptions}
    {readFile : String → Option (List UInt8)} {config : CounterRuntimeConfig}
    {handoff : DistributedHandoffConfig} {resolve : String → ℕ → Option Endpoint}
    {record : JournalRecord} {outcome : StoreOutcome} {journal : Option JournalRecord}
    {engine : CounterEngine} {c : Impl}
    (haccepted : options.makeRuntimeConfig readFile = .ok config)
    (hhandoff : config.handoff = some handoff) (hphase : record.phase = .prepared)
    (hstart : config.start resolve handoff (some record) outcome = (journal, .ok (engine, c))) :
    engine.Fenced config.engine ∧ c.recoveryFenced = true ∧ c.state = .idle := by
  have hpeak := (RuntimeLaunchOptions.accepted_of_makeRuntimeConfig haccepted hhandoff).startPeak
  obtain ⟨hok, hsound, hconfig, hmode, hgate, hactive, hused⟩ :=
    CounterEngine.transitionToReserved_new config.engine
  unfold CounterRuntimeConfig.start at hstart
  simp only [hpeak, hok, Bool.not_true, Bool.and_false, Bool.false_eq_true, if_false,
    if_true] at hstart
  split at hstart
  · exact absurd (Prod.mk.inj hstart).2 nofun
  rename_i c' hvalid
  have hfresh := (DistributedHandoffConfig.validated_of_validate hvalid).fresh_eq
  simp only [Impl.recover, hphase] at hstart
  obtain ⟨-, hresult⟩ := Prod.mk.inj hstart
  split at hresult
  · exact absurd hresult nofun
  obtain ⟨rfl, rfl⟩ := Prod.mk.inj (Except.ok.inj hresult)
  refine ⟨⟨⟨hsound.strict_limit, hsound.reserved_limit, hsound.bounded, hsound.value_le⟩, hconfig,
    hmode, rfl, hactive, hused, ?_, ?_⟩, rfl, ?_⟩
  · exact CounterEngine.dangerRequested_transitionToReserved rfl
  · exact CounterEngine.exhausted_transitionToReserved _
  · change c'.state = .idle
    rw [← hfresh]
    rfl

/-- A process behind its fence. -/
structure Node.Fenced (config : CounterEngineConfig) (n : Node) : Prop where
  engine : n.engine.Fenced config
  control : ∃ c : Impl, n.control = .ret c () ∧ c.recoveryFenced = true ∧ c.state = .idle
  served : ∀ entry ∈ n.served, entry.2.2.decision ≠ .accepted

/-- A handler that a fenced controller passes over. -/
private theorem Node.Fenced.handle {config : CounterEngineConfig} {n n' : Node}
    {handler : HandoffM Unit} (h : n.Fenced config) (hn : n.handle handler = some n')
    (hpass : ∀ {c : Impl}, c.recoveryFenced = true → c.state = .idle → handler c = .ret c ()) :
    n'.Fenced config := by
  obtain ⟨c, hcontrol, rfl⟩ := Node.handle_eq_some hn
  obtain ⟨c', hcontrol', hfence, hidle⟩ := h.control
  obtain ⟨rfl, -⟩ := Prog.ret.inj (hcontrol.symm.trans hcontrol')
  exact ⟨h.engine, ⟨c, hpass hfence hidle, hfence, hidle⟩, h.served⟩

/-- No step of the process lifts the fence, unless the engine collapses empty. -/
private theorem Node.Fenced.step {config : CounterEngineConfig} (hconfig : ¬ config.collapsesEmpty)
    {n n' : Node} {action : NodeAction} (h : n.Fenced config)
    (hstep : n.advance action = some n') : n'.Fenced config := by
  obtain ⟨⟨_, packets⟩, hn, rfl⟩ := Option.map_eq_some_iff.mp hstep
  cases action with
  | apply request =>
    simp only [Node.step, h.engine.apply] at hn
    obtain ⟨rfl, rfl⟩ := Prod.mk.inj (Option.some.inj hn)
    refine ⟨h.engine, h.control, fun entry hentry => ?_⟩
    rcases List.mem_cons.mp hentry with rfl | hentry
    · nofun
    · exact h.served entry hentry
  | controlLoop =>
    obtain ⟨rfl, rfl⟩ := Prod.mk.inj (Option.some.inj hn)
    exact ⟨h.engine.controlLoop hconfig, h.control, h.served⟩
  | raisePeakRequest =>
    obtain ⟨rfl, rfl⟩ := Prod.mk.inj (Option.some.inj hn)
    refine ⟨?_, h.control, h.served⟩
    have hsound := h.engine.sound
    exact ⟨⟨hsound.strict_limit, hsound.reserved_limit, hsound.bounded, hsound.value_le⟩,
      h.engine.config_eq, h.engine.mode, h.engine.gate, h.engine.active, h.engine.used,
      h.engine.danger, h.engine.exhausted⟩
  | deliver frame source =>
    obtain ⟨n', hn', heq⟩ := Option.map_eq_some_iff.mp hn
    obtain ⟨rfl, rfl⟩ := Prod.mk.inj heq
    exact h.handle hn' fun hfence _ => Impl.handleFrame_fenced hfence frame source
  | tick now =>
    obtain ⟨n', hn', heq⟩ := Option.map_eq_some_iff.mp hn
    obtain ⟨rfl, rfl⟩ := Prod.mk.inj heq
    exact h.handle hn' fun hfence hidle => Impl.tick_fenced hfence hidle now
  | effect oracle =>
    -- a fenced controller has no effect in hand
    obtain ⟨c, hcontrol, -⟩ := h.control
    simp only [Node.step, hcontrol] at hn
    exact absurd hn nofun
  | stop =>
    obtain ⟨n', hn', heq⟩ := Option.map_eq_some_iff.mp hn
    obtain ⟨rfl, rfl⟩ := Prod.mk.inj heq
    have hstopped := h.handle hn' fun _ hidle => Impl.stop_idle hidle
    exact ⟨hstopped.engine, hstopped.control, hstopped.served⟩

/-- An engine that collapses empty opens at the first iteration and accepts. -/
private theorem accepts_of_collapse {config : CounterEngineConfig} {n : Node}
    (hconfig : config.collapsesEmpty) (h : n.engine.Fenced config) :
    ∃ n', n.Runs n' ∧ ∃ entry ∈ n'.served, entry.2.2.decision = .accepted := by
  obtain ⟨hmode, hgate, hexhausted, hvalue⟩ := h.controlLoop_collapse hconfig
  refine ⟨_, (Steps.refl.tail (a := NodeAction.controlLoop) trivial rfl).tail
    (a := .apply ⟨0, 0, 0⟩) trivial rfl, _, List.mem_cons_self, ?_⟩
  change (n.engine.controlLoop.apply ⟨0, 0, 0⟩).1.decision = .accepted
  have hfits : StrictCounter.refuses n.engine.controlLoop.strict.limit 0 0 = false := by
    simp [StrictCounter.refuses]
  simp [CounterEngine.apply, hexhausted, hgate, hmode, CounterEngine.applyStrict,
    StrictCounter.apply, hvalue, hfits]

/-- **When the recovery fence holds.** Let `make_runtime_config` accept a configuration with a
handoff section and let the process start on a prepared journal record. No request is accepted in
any later run of the process, whatever frames arrive and whatever its threads do, exactly if its
reservation is not the whole limit or the limit is above its danger threshold. -/
theorem recovery_fence_iff {options : RuntimeLaunchOptions}
    {readFile : String → Option (List UInt8)} {config : CounterRuntimeConfig}
    {handoff : DistributedHandoffConfig} {resolve : String → ℕ → Option Endpoint}
    {record : JournalRecord} {outcome : StoreOutcome} {journal : Option JournalRecord}
    {engine : CounterEngine} {c : Impl}
    (haccepted : options.makeRuntimeConfig readFile = .ok config)
    (hhandoff : config.handoff = some handoff) (hphase : record.phase = .prepared)
    (hstart : config.start resolve handoff (some record) outcome = (journal, .ok (engine, c))) :
    (∀ n, (Node.fresh engine c journal).Runs n →
        ∀ entry ∈ n.served, entry.2.2.decision ≠ .accepted) ↔
      ¬ (config.engine.localPeak = config.engine.limit ∧
        config.engine.limit ≤ config.engine.dangerThreshold) := by
  obtain ⟨hengine, hfence, hidle⟩ := fenced_of_start haccepted hhandoff hphase hstart
  constructor
  · intro hnever hcollapse
    obtain ⟨n, hn, entry, hentry, haccept⟩ :=
      accepts_of_collapse (n := Node.fresh engine c journal) hcollapse hengine
    exact hnever n hn entry hentry haccept
  · intro hconfig n hn
    have hinit : (Node.fresh engine c journal).Fenced config.engine :=
      ⟨hengine, ⟨c, rfl, hfence, hidle⟩, nofun⟩
    exact (Steps.invariant hn hinit fun _ _ _ h _ hstep => h.step hconfig hstep).served

/-- A follower that was interrupted between its report and the commit stays fenced. -/
theorem recovery_fence_iff_pair :
    ∃ engine c, (Deployment.pairConfig 1).start (fun _ port => some ⟨2130706433, port⟩)
        (Deployment.pairHandoff 1) (some ⟨.prepared, 1000, ⟨17, 1, 10⟩, 10, 0⟩) .stored =
          (some ⟨.prepared, 1000, ⟨17, 1, 10⟩, 10, 0⟩, .ok (engine, c)) ∧
      ∀ n, (Node.fresh engine c (some ⟨.prepared, 1000, ⟨17, 1, 10⟩, 10, 0⟩)).Runs n →
        ∀ entry ∈ n.served, entry.2.2.decision ≠ .accepted := by
  have haccepted : (Deployment.pairOptions 1).makeRuntimeConfig
      (fun _ => some (List.replicate 16 7)) = .ok (Deployment.pairConfig 1) := rfl
  have hstart : ∃ engine c, (Deployment.pairConfig 1).start
      (fun _ port => some ⟨2130706433, port⟩) (Deployment.pairHandoff 1)
        (some ⟨.prepared, 1000, ⟨17, 1, 10⟩, 10, 0⟩) .stored =
          (some ⟨.prepared, 1000, ⟨17, 1, 10⟩, 10, 0⟩, .ok (engine, c)) := ⟨_, _, rfl⟩
  obtain ⟨engine, c, hstart⟩ := hstart
  exact ⟨engine, c, hstart, (recovery_fence_iff haccepted rfl rfl hstart).mpr (by decide)⟩

/-- The launch options of a process that owns the whole limit and treats all of it as close to
the limit. -/
def soloOptions : RuntimeLaunchOptions where
  limit := 100
  shards := 1
  dangerThreshold := 100
  startPeak := true
  clusterReservations := [⟨0, 100⟩]
  handoffBindPort := 9000
  handoffAuthKeyFile := "key"
  handoffJournalPath := "journal"
  handoffOptionSeen := true
  limit_lt := CounterEngineConfig.hundred_lt

def soloHandoff : DistributedHandoffConfig where
  componentId := 0
  leaderComponentId := 0
  strictOwnerComponentId := 0
  bindPort := 9000
  members := [0]
  authenticationKey := List.replicate 16 7
  journalPath := "journal"

def soloConfig : CounterRuntimeConfig where
  engine :=
    { limit := 100
      shards := 1
      dangerThreshold := 100
      hotThresholdTps := 50000
      localPeakReservation := 100
      limit_lt := CounterEngineConfig.hundred_lt
      reservation_lt := CounterEngineConfig.hundred_lt
      shards_pos := Nat.one_pos }
  startPeak := true
  handoff := some soloHandoff

/-- The fence of a process that owns the whole limit is lifted by the first iteration of its
control loop. -/
theorem recovery_fence_lifted :
    soloOptions.makeRuntimeConfig (fun _ => some (List.replicate 16 7)) = .ok soloConfig ∧
    ∃ engine c, soloConfig.start (fun _ port => some ⟨2130706433, port⟩) soloHandoff
        (some ⟨.prepared, 1000, ⟨17, 1, 10⟩, 10, 0⟩) .stored =
          (some ⟨.prepared, 1000, ⟨17, 1, 10⟩, 10, 0⟩, .ok (engine, c)) ∧
      ∃ n, (Node.fresh engine c (some ⟨.prepared, 1000, ⟨17, 1, 10⟩, 10, 0⟩)).Runs n ∧
        ∃ entry ∈ n.served, entry.2.1 = ⟨17, 1, 0⟩ ∧ entry.2.2.decision = .accepted := by
  refine ⟨rfl, _, _, rfl, _, (Steps.refl.tail (a := NodeAction.controlLoop) trivial rfl).tail
    (a := .apply ⟨17, 1, 0⟩) trivial rfl, _, List.mem_cons_self, rfl, ?_⟩
  decide +kernel

end HotCounter
