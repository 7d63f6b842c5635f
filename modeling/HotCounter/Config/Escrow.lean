import HotCounter.Config.Runtime
import HotCounter.Engine.Spec
import HotCounter.Foundation.Sums
import HotCounter.Foundation.Transition

/-!
# Static escrow

Processes that share a plan serve from their own entries: no message passes between them, and none
of them serves beyond its entry, whatever its shards, its danger threshold and its control loop do
(`escrow_safe`). An empty list of reservations is no plan. The launch options then leave the whole
limit to every process, so two processes may spend it twice (`unplanned_spends_twice`).
-/

namespace HotCounter

open Foundation

namespace CounterRuntimeConfig

/-- `CounterRuntime::start` of a runtime without a handoff section, whose replicator, if it has
one, comes up. -/
def startAlone (config : CounterRuntimeConfig) : Except ConfigError CounterEngine :=
  let entered := (CounterEngine.new config.engine).transitionToReserved
  if config.startPeak && !entered.1 then .error (.runtimeError "cannot enter initial peak mode")
  else
    let engine := if config.startPeak then entered.2 else CounterEngine.new config.engine
    .ok { engine with replicationPublisher := config.replication.isSome }

/-- A start in peak mode succeeds, with empty shards. -/
theorem startAlone_peak {config : CounterRuntimeConfig} (hpeak : config.startPeak = true) :
    ∃ e, config.startAlone = .ok e ∧ e.Sound ∧ e.config = config.engine ∧
      e.mode = .reservedPeak ∧ e.reserved.used = 0 := by
  obtain ⟨hentered, hsound, hconfig, hmode, -, -, hused⟩ :=
    CounterEngine.transitionToReserved_new config.engine
  refine ⟨_, if_neg (by simp [hentered]), ?_⟩
  rw [if_pos hpeak]
  exact ⟨⟨hsound.strict_limit, hsound.reserved_limit, hsound.bounded, hsound.value_le⟩, hconfig,
    hmode, hused⟩

end CounterRuntimeConfig

namespace RuntimeLaunchOptions

/-- What acceptance with a list of reservations guarantees: the process starts in peak mode, with
its own entry of an accepted plan. -/
structure Planned (options : RuntimeLaunchOptions) (config : CounterRuntimeConfig) : Prop where
  plan : ∃ plan, ReservationPlan.new options.limit options.clusterReservations = .ok plan
  reservation : ∃ component ∈ options.clusterReservations,
    component.componentId = options.componentId ∧ component.capacity = config.engine.localPeak
  startPeak : config.startPeak = true

theorem planned_of_makeRuntimeConfig {readFile : String → Option (List UInt8)}
    {options : RuntimeLaunchOptions} {config : CounterRuntimeConfig}
    (h : options.makeRuntimeConfig readFile = .ok config)
    (hne : options.clusterReservations ≠ []) : Planned options config := by
  unfold makeRuntimeConfig at h
  split at h
  · cases h
  split at h
  · cases h
  rename_i reservation hres
  split at h
  · cases h
  split at h
  · cases h
  obtain rfl := Except.ok.inj h
  obtain ⟨⟨plan, hplan, hhas, hcapacity⟩, hpos, hpeak⟩ := localReservation_cluster hres hne
  have haccepts := ReservationPlan.accepts_of_new hplan
  obtain ⟨component, hmem, hid⟩ := haccepts.hasComponent_mem hhas
  refine ⟨⟨plan, hplan⟩, ⟨component, hmem, hid, ?_⟩, hpeak⟩
  -- an entry of zero, which would stand for the whole limit, is refused
  calc component.capacity = plan.capacityFor options.componentId := by
        rw [← hid, haccepts.capacityFor_eq hmem]
    _ = reservation.1 := hcapacity
    _ = _ := (if_neg hpos).symm

end RuntimeLaunchOptions

/-! ### One process -/

namespace CounterEngine

/-- An engine that started in peak mode and has accepted so much since. It has left peak mode only
if it owns the whole limit. -/
structure Spent (config : CounterEngineConfig) (spent : ℕ) (e : CounterEngine) : Prop where
  sound : e.Sound
  mode : e.mode = .reservedPeak ∨ e.mode = .dangerStrict ∧ config.localPeak = config.limit
  config : e.config = config
  value : e.currentValue = spent

namespace Spent

variable {config : CounterEngineConfig} {spent : ℕ} {e e' : CounterEngine}

theorem currentValue_eq (hs : e.Sound) :
    e.currentValue = if e.mode = .reservedPeak then e.reserved.used else e.strict.value := by
  rw [currentValue, hs.total_eq]

/-- An engine accepts at most its reservation. -/
theorem le (h : Spent config spent e) : spent ≤ config.localPeak := by
  rw [← h.value, currentValue_eq h.sound]
  rcases h.mode with hpeak | ⟨hdanger, hwhole⟩
  · rw [if_pos hpeak, ← h.config]
    exact h.sound.used_le
  · rw [if_neg (by simp [hdanger]), hwhole, ← h.config]
    exact h.sound.value_le

theorem bookkeeping (h : Spent config spent e) (hb : Bookkeeping e e') : Spent config spent e' where
  sound := hb.sound h.sound
  mode := by rw [hb.mode]; exact h.mode
  config := hb.config.trans h.config
  value := by
    rw [← h.value, currentValue_eq h.sound, currentValue_eq (hb.sound h.sound), hb.mode, hb.strict,
      hb.used h.sound.bounded]

/-- A request adds what it spends. -/
theorem apply (h : Spent config spent e) (request : Request) :
    Spent config (spentBy request (e.apply request).1 + spent) (e.apply request).2 := by
  have hserved := h.sound.apply request
  refine ⟨hserved.sound, ?_, hserved.config.trans h.config, ?_⟩
  · rw [hserved.mode]
    exact h.mode
  · have hvalue := h.value
    rw [currentValue_eq h.sound] at hvalue
    rw [currentValue_eq hserved.sound, hserved.mode, hserved.used, hserved.value]
    split <;> simp_all [Nat.add_comm]

/-- The local collapse keeps the total, and only the owner of the whole limit makes it. -/
theorem transitionToDanger (h : Spent config spent e) :
    Spent config spent e.transitionToDanger.2 := by
  by_cases hrefused :
      e.mode ≠ .reservedPeak ∨ e.localPeak ≠ e.limit ∨ e.distributedHandoffActive = true
  · rw [transitionToDanger_refused hrefused]
    exact h
  · push Not at hrefused
    obtain ⟨hpeak, hwhole, hactive⟩ := hrefused
    have htotal : e.reserved.total ≤ e.strict.limit := by
      rw [h.sound.total_eq]
      exact h.sound.used_le.trans_eq hwhole
    have hvalue := h.value
    rw [currentValue, if_pos hpeak] at hvalue
    unfold CounterEngine.transitionToDanger closeAndDrain
    rw [if_neg (not_not.mpr hpeak), if_neg (by simp [hwhole, hactive])]
    dsimp only
    rw [StrictCounter.seedAfterQuiescence_of_le htotal]
    refine ⟨⟨h.sound.strict_limit, h.sound.reserved_limit, h.sound.bounded,
      htotal.trans_eq h.sound.strict_limit⟩, .inr ⟨rfl, ?_⟩, h.config, hvalue⟩
    rw [← h.config]
    exact hwhole.trans h.sound.limit_eq

theorem controlLoop (h : Spent config spent e) : Spent config spent e.controlLoop := by
  have hstrict : e.mode ≠ .strict := by
    rcases h.mode with hmode | ⟨hmode, -⟩ <;> simp [hmode]
  have hseen := (h.bookkeeping (bookkeeping_requestDanger e e.componentValue)).bookkeeping
    (bookkeeping_replicate _ e.componentValue)
  unfold CounterEngine.controlLoop
  dsimp only
  rw [if_neg fun hboth => hstrict hboth.1]
  split
  · exact hseen.transitionToDanger
  · exact hseen

theorem raisePeakRequest (h : Spent config spent e) : Spent config spent e.raisePeakRequest :=
  h.bookkeeping ⟨⟨rfl, rfl, rfl, rfl, rfl⟩, rfl, id, fun _ => rfl, rfl⟩

end Spent

end CounterEngine

/-! ### The cluster -/

/-- A cluster without a handoff: processes whose configurations were accepted with the same limit
and the same list of reservations. -/
structure Escrow where
  limit : ℕ
  reservations : List ComponentReservation
  running : Finset ℕ
  options : ℕ → RuntimeLaunchOptions
  config : ℕ → CounterRuntimeConfig
  readFile : ℕ → String → Option (List UInt8)
  component : ∀ i ∈ running, (options i).componentId = i
  same_limit : ∀ i ∈ running, (options i).limit = limit
  same_plan : ∀ i ∈ running, (options i).clusterReservations = reservations
  no_handoff : ∀ i ∈ running, (options i).handoffBindPort = 0
  accepted : ∀ i ∈ running, (options i).makeRuntimeConfig (readFile i) = .ok (config i)

/-- The engines of a cluster and what they answered, newest first. -/
structure EscrowState where
  engine : ℕ → CounterEngine
  served : ℕ → List (Request × Result)

/-- What can happen in a cluster without a handoff. -/
inductive EscrowAction
  | apply (i : ℕ) (request : Request)
  | controlLoop (i : ℕ)
  | raisePeakRequest (i : ℕ)

namespace Escrow

variable (E : Escrow)

/-- Every process has started. -/
def init : EscrowState where
  engine i :=
    match (E.config i).startAlone with
    | .ok e => e
    | .error _ => CounterEngine.new (E.config i).engine
  served _ := []

/-- One step. -/
def step (s : EscrowState) : EscrowAction → Option EscrowState
  | .apply i request =>
    let answer := (s.engine i).apply request
    if i ∈ E.running then
      some
        { engine := Function.update s.engine i answer.2
          served := Function.update s.served i ((request, answer.1) :: s.served i) }
    else none
  | .controlLoop i =>
    if i ∈ E.running then
      some { s with engine := Function.update s.engine i (s.engine i).controlLoop }
    else none
  | .raisePeakRequest i =>
    if i ∈ E.running then
      some { s with engine := Function.update s.engine i (s.engine i).raisePeakRequest }
    else none

variable {E}

theorem planned_of_running (hplan : E.reservations ≠ []) {i : ℕ} (hi : i ∈ E.running) :
    RuntimeLaunchOptions.Planned (E.options i) (E.config i) :=
  RuntimeLaunchOptions.planned_of_makeRuntimeConfig (E.accepted i hi) (E.same_plan i hi ▸ hplan)

/-- The entry of a process in the plan. -/
theorem exists_entry (hplan : E.reservations ≠ []) {i : ℕ} (hi : i ∈ E.running) :
    ∃ component ∈ E.reservations,
      component.componentId = i ∧ component.capacity = (E.config i).engine.localPeak := by
  obtain ⟨component, hmem, hid, hcapacity⟩ := (planned_of_running hplan hi).reservation
  exact ⟨component, E.same_plan i hi ▸ hmem, hid.trans (E.component i hi), hcapacity⟩

/-- The entries of all processes fit the limit together. -/
theorem sum_localPeak_le (hplan : E.reservations ≠ []) :
    ∑ i ∈ E.running, (E.config i).engine.localPeak ≤ E.limit := by
  rcases E.running.eq_empty_or_nonempty with hempty | ⟨j, hj⟩
  · simp [hempty]
  obtain ⟨plan, hnew⟩ := (planned_of_running hplan hj).plan
  rw [E.same_limit j hj, E.same_plan j hj] at hnew
  have haccepts := ReservationPlan.accepts_of_new hnew
  exact (sum_le_of_keys ComponentReservation.componentId ComponentReservation.capacity _
    E.reservations E.running haccepts.nodup fun i hi => exists_entry hplan hi).trans
    haccepts.sum_le

/-- Every process has spent what it answered. -/
def Accounted (E : Escrow) (s : EscrowState) : Prop :=
  ∀ i ∈ E.running, (s.engine i).Spent (E.config i).engine (acceptedSum (s.served i))

theorem accounted_init (hplan : E.reservations ≠ []) : Accounted E E.init := by
  intro i hi
  obtain ⟨e, hstart, hsound, hconfig, hmode, hused⟩ :=
    CounterRuntimeConfig.startAlone_peak (planned_of_running hplan hi).startPeak
  have hengine : E.init.engine i = e := by
    unfold init
    dsimp only
    rw [hstart]
  rw [hengine]
  refine ⟨hsound, .inl hmode, hconfig, ?_⟩
  rw [CounterEngine.currentValue, if_pos hmode, hsound.total_eq, hused]
  rfl

/-- A step at one process keeps the accounts of all. -/
private theorem Accounted.update {s : EscrowState} (h : Accounted E s) (i : ℕ) {e : CounterEngine}
    {log : List (Request × Result)}
    (he : i ∈ E.running → e.Spent (E.config i).engine (acceptedSum log)) :
    Accounted E ⟨Function.update s.engine i e, Function.update s.served i log⟩ := by
  intro j hj
  by_cases hji : j = i
  · subst hji
    simp only [Function.update_self]
    exact he hj
  · simp only [Function.update_of_ne hji]
    exact h j hj

private theorem Accounted.step {s s' : EscrowState} (h : Accounted E s) {action : EscrowAction}
    (hstep : E.step s action = some s') : Accounted E s' := by
  have hkeep : ∀ i e, (i ∈ E.running → e.Spent (E.config i).engine (acceptedSum (s.served i))) →
      Accounted E { s with engine := Function.update s.engine i e } := by
    intro i e he
    have hupdate := h.update i he
    rwa [Function.update_eq_self] at hupdate
  cases action with
  | apply i request =>
    simp only [Escrow.step] at hstep
    split at hstep
    · obtain rfl := Option.some.inj hstep
      refine h.update i fun hi => ?_
      rw [acceptedSum_cons]
      exact (h i hi).apply request
    · cases hstep
  | controlLoop i =>
    simp only [Escrow.step] at hstep
    split at hstep
    · obtain rfl := Option.some.inj hstep
      exact hkeep i _ fun hi => (h i hi).controlLoop
    · cases hstep
  | raisePeakRequest i =>
    simp only [Escrow.step] at hstep
    split at hstep
    · obtain rfl := Option.some.inj hstep
      exact hkeep i _ fun hi => (h i hi).raisePeakRequest
    · cases hstep

/-- **Static escrow is safe.** In every run of a cluster without a handoff whose processes share a
plan, the deltas accepted by all processes together are within the limit, and those accepted by one
process are within its own entry of the plan. -/
theorem escrow_safe (hplan : E.reservations ≠ []) {s : EscrowState}
    (h : Steps E.step (fun _ _ => True) E.init s) :
    ∑ i ∈ E.running, acceptedSum (s.served i) ≤ E.limit ∧
      ∀ i ∈ E.running, ∃ component ∈ E.reservations,
        component.componentId = i ∧ acceptedSum (s.served i) ≤ component.capacity := by
  have haccounted : Accounted E s :=
    Steps.invariant h (accounted_init hplan) fun _ _ _ hs _ hstep => hs.step hstep
  constructor
  · exact (Finset.sum_le_sum fun i hi => (haccounted i hi).le).trans (sum_localPeak_le hplan)
  · intro i hi
    obtain ⟨component, hmem, hid, hcapacity⟩ := exists_entry hplan hi
    exact ⟨component, hmem, hid, (haccounted i hi).le.trans_eq hcapacity.symm⟩

/-! ### With and without a plan -/

/-- The options of two processes that share a limit of 100. -/
def pairOptions (reservations : List ComponentReservation) (startPeak : Bool) (i : ℕ) :
    RuntimeLaunchOptions where
  limit := 100
  shards := 2
  dangerThreshold := 10
  startPeak := startPeak
  componentId := i
  clusterReservations := reservations
  limit_lt := CounterEngineConfig.hundred_lt

/-- What is made of them, with a local reservation. -/
def pairConfig {reservation : ℕ} (hlt : reservation < 2 ^ 64) (startPeak : Bool) (i : ℕ) :
    CounterRuntimeConfig where
  engine :=
    { limit := 100
      shards := 2
      dangerThreshold := 10
      hotThresholdTps := 50000
      componentId := i
      localPeakReservation := reservation
      limit_lt := CounterEngineConfig.hundred_lt
      reservation_lt := hlt
      shards_pos := Nat.two_pos }
  startPeak := startPeak

theorem pairReservation_lt (i : ℕ) : (if i = 0 then 45 else 55) < 2 ^ 64 := by
  split <;> decide

/-- Two processes with the entries 45 and 55. -/
def planned : Escrow where
  limit := 100
  reservations := [⟨0, 45⟩, ⟨1, 55⟩]
  running := {0, 1}
  options := pairOptions [⟨0, 45⟩, ⟨1, 55⟩] true
  config i := pairConfig (pairReservation_lt i) true i
  readFile := fun _ _ => none
  component := fun _ _ => rfl
  same_limit := fun _ _ => rfl
  same_plan := fun _ _ => rfl
  no_handoff := fun _ _ => rfl
  accepted := by
    intro i hi
    rcases Finset.mem_insert.mp hi with rfl | hi
    · rfl
    · obtain rfl := Finset.mem_singleton.mp hi
      rfl

/-- Two processes without a plan. -/
def unplanned : Escrow where
  limit := 100
  reservations := []
  running := {0, 1}
  options := pairOptions [] false
  config i := pairConfig CounterEngineConfig.zero_lt false i
  readFile := fun _ _ => none
  component := fun _ _ => rfl
  same_limit := fun _ _ => rfl
  same_plan := fun _ _ => rfl
  no_handoff := fun _ _ => rfl
  accepted := by
    intro i hi
    rcases Finset.mem_insert.mp hi with rfl | hi
    · rfl
    · obtain rfl := Finset.mem_singleton.mp hi
      rfl

/-- Requests for 60 at process 0 and for 23 and 70 at process 1, and a turn of both loops. -/
def demand : List EscrowAction :=
  [.apply 0 ⟨17, 60, 0⟩, .apply 1 ⟨17, 23, 0⟩, .controlLoop 0, .controlLoop 1,
    .apply 1 ⟨17, 70, 0⟩]

/-- With a plan, only the request for 23 fits a shard. -/
theorem escrow_safe_planned :
    ∃ s, Steps planned.step (fun _ _ => True) planned.init s ∧ acceptedSum (s.served 1) = 23 ∧
      ∑ i ∈ planned.running, acceptedSum (s.served i) ≤ 100 := by
  have hexec : (exec planned.step (fun _ _ => True) planned.init demand).map (fun s =>
      decide (acceptedSum (s.served 1) = 23)) = some true := by decide +kernel
  obtain ⟨s, hrun, hserved⟩ := Steps.exists_of_exec hexec
  exact ⟨s, hrun, hserved, (escrow_safe (List.cons_ne_nil _ _) hrun).1⟩

/-- Without a plan, the two processes spend 153 of 100. -/
theorem unplanned_spends_twice :
    ∃ s, Steps unplanned.step (fun _ _ => True) unplanned.init s ∧
      ∑ i ∈ unplanned.running, acceptedSum (s.served i) = 153 ∧
      ¬ (∑ i ∈ unplanned.running, acceptedSum (s.served i) ≤ unplanned.limit ∧
        ∀ i ∈ unplanned.running, ∃ component ∈ unplanned.reservations,
          component.componentId = i ∧ acceptedSum (s.served i) ≤ component.capacity) := by
  have hexec : (exec unplanned.step (fun _ _ => True) unplanned.init demand).map (fun s =>
      decide (∑ i ∈ unplanned.running, acceptedSum (s.served i) = 153)) = some true := by
    decide +kernel
  obtain ⟨s, hrun, hsum⟩ := Steps.exists_of_exec hexec
  refine ⟨s, hrun, hsum, fun hsafe => ?_⟩
  have hle : 153 ≤ 100 := hsum ▸ hsafe.1
  exact absurd hle (by decide)

end Escrow

end HotCounter
