import HotCounter.Counter.Reserved

/-!
# The counter engine, one call at a time

`CounterEngine` holds both counters, the published routing mode, the admission gate and the
control-plane flags. Every public function of the class is a function on this state, run
without interference: a call that closes the gate finds nobody inside. The same state is
driven one atomic access at a time in `HotCounter.Engine.Threads`.

The hot-key detector is asynchronous and only ever raises `peakRequested`; that is the step
`raisePeakRequest`. Publishers are the two flags that say whether a publisher is set, and
the lists of what was handed to it, newest first.
-/

namespace HotCounter

/-- What `begin_distributed_handoff` reports about the drained peak component. -/
structure DrainedPeakState where
  counter : ℕ := 0
  epoch : ℕ := 0
  componentTotal : ℕ := 0
  deriving DecidableEq, Repr, Inhabited

/-- The constructor arguments of an engine. A reservation of zero means that this process
owns the whole limit in peak mode. -/
structure CounterEngineConfig where
  limit : ℕ
  shards : ℕ
  dangerThreshold : ℕ
  hotThresholdTps : ℕ
  componentId : ℕ := 0
  localPeakReservation : ℕ := 0
  limit_lt : limit < 2 ^ 64 := by decide
  reservation_lt : localPeakReservation < 2 ^ 64 := by decide
  shards_pos : 0 < shards := by decide

/-- A reservation of zero fits an amount. -/
theorem CounterEngineConfig.zero_lt : 0 < 2 ^ 64 := by decide

/-- The limit of the small configurations in the examples below fits an amount. -/
theorem CounterEngineConfig.hundred_lt : 100 < 2 ^ 64 := by decide

/-- The member `local_peak_reservation_` of the engine. -/
def CounterEngineConfig.localPeak (config : CounterEngineConfig) : ℕ :=
  if config.localPeakReservation = 0 then config.limit else config.localPeakReservation

theorem CounterEngineConfig.localPeak_lt (config : CounterEngineConfig) :
    config.localPeak < 2 ^ 64 := by
  unfold localPeak
  split
  · exact config.limit_lt
  · exact config.reservation_lt

/-- All the members of a `CounterEngine`. -/
structure CounterEngine where
  config : CounterEngineConfig
  strict : StrictCounter
  reserved : ReservedCounter
  mode : RoutingMode := .strict
  gateOpen : Bool := true
  inFlight : ℕ := 0
  peakRequested : Bool := false
  dangerRequested : Bool := false
  distributedHandoffActive : Bool := false
  exhaustedPeakShards : ℕ := 0
  exhausted : Bool := false
  activeCounter : ℕ := 0
  hasActiveCounter : Bool := false
  replicationEpoch : ℕ := 0
  lastReplicatedValue : ℕ := 0
  lastReplicatedEpoch : ℕ := 2 ^ 64 - 1
  replicationPublisher : Bool := false
  limitReachedPublisher : Bool := false
  snapshots : List ReplicationUpdate := []
  limitEvents : List LimitReachedEvent := []

namespace CounterEngine

/-- The constructor. -/
def new (config : CounterEngineConfig) : CounterEngine where
  config := config
  strict := ⟨0, config.limit⟩
  reserved := ReservedCounter.new config.localPeak config.shards

/-- `CounterEngine::limit`. -/
def limit (e : CounterEngine) : ℕ := e.strict.limit

/-- `CounterEngine::local_peak_reservation`. -/
def localPeak (e : CounterEngine) : ℕ := e.config.localPeak

/-- `CounterEngine::current_value`. -/
def currentValue (e : CounterEngine) : ℕ :=
  if e.mode = .reservedPeak then e.reserved.total else e.strict.value

/-- `CounterEngine::current_peak_total`. -/
def currentPeakTotal (e : CounterEngine) : ℕ := e.reserved.total

/-- `RoutingMap::shard_for`: Fibonacci hashing of the route. -/
def shardFor (config : CounterEngineConfig) (hash : ℕ) : ℕ :=
  hash * 11400714819323198485 % 2 ^ 64 / 2 ^ 32 % config.shards

/-! ### Requests -/

/-- `CounterEngine::remember_counter`. -/
def rememberCounter (e : CounterEngine) (counter : ℕ) : CounterEngine :=
  if e.hasActiveCounter && e.activeCounter == counter then e
  else { e with activeCounter := counter, hasActiveCounter := true }

/-- `CounterEngine::publish_limit_reached`. -/
def publishLimitReached (e : CounterEngine) (counter : ℕ) : CounterEngine :=
  if e.exhausted then e
  else
    { e with
      exhausted := true
      limitEvents :=
        if e.limitReachedPublisher then ⟨counter, e.limit, e.replicationEpoch⟩ :: e.limitEvents
        else e.limitEvents }

/-- The part of `apply` that announces an exhausted shard and, with the last one, the
exhausted limit. Only a process that owns the whole limit takes part. -/
def announceShard (e : CounterEngine) (request : Request) (shard : ℕ) : CounterEngine :=
  if e.localPeak ≠ e.limit then e
  else
    let marked := e.reserved.markExhaustionIfNew shard
    let e := { e with reserved := marked.2 }
    if !marked.1 then e
    else
      let count := (e.exhaustedPeakShards + 1) % 2 ^ 32
      let e := { e with exhaustedPeakShards := count }
      if count = e.reserved.shards.length then e.publishLimitReached request.counter else e

/-- What `apply` does after an accepting decision taken in `mode`. -/
def afterAccept (e : CounterEngine) (mode : RoutingMode) (request : Request) (result : Result) :
    CounterEngine :=
  let e := e.rememberCounter request.counter
  if mode ≠ .reservedPeak then
    if result.observed = e.limit then e.publishLimitReached request.counter else e
  else e.announceShard request result.shard

/-- The `Strict` and `DangerStrict` branches of `apply`. -/
def applyStrict (e : CounterEngine) (mode : RoutingMode) (request : Request) :
    Result × CounterEngine :=
  let decided := e.strict.apply request.delta
  let e := { e with strict := decided.2 }
  if decided.1.decision = .accepted then (decided.1, e.afterAccept mode request decided.1)
  else (decided.1, e)

/-- The `ReservedPeak` branch of `apply`. -/
def applyReserved (e : CounterEngine) (request : Request) : Result × CounterEngine :=
  let decided := e.reserved.apply (shardFor e.config request.routeHash) request.delta
  let e := { e with reserved := decided.2 }
  if decided.1.decision = .accepted then
    (decided.1, e.afterAccept .reservedPeak request decided.1)
  else (decided.1, e)

/-- `CounterEngine::apply`. The gate is entered and left again within the call. -/
def apply (e : CounterEngine) (request : Request) : Result × CounterEngine :=
  if e.exhausted then (⟨.rejected, e.limit, 0⟩, e)
  else if !e.gateOpen then (⟨.rejected, 0, 0⟩, e)
  else
    match e.mode with
    | .strict => e.applyStrict .strict request
    | .reservedPeak => e.applyReserved request
    | .dangerStrict => e.applyStrict .dangerStrict request
    | .remoteStrict => (⟨.moved, e.strict.value, 0⟩, e)

/-! ### Mode transitions -/

/-- `CounterEngine::close_and_drain`: nobody is inside when a call runs alone. -/
def closeAndDrain (e : CounterEngine) : CounterEngine := { e with gateOpen := false }

/-- `CounterEngine::transition_to_reserved`. -/
def transitionToReserved (e : CounterEngine) : Bool × CounterEngine :=
  if e.mode ≠ .strict then (false, e)
  else
    let e := e.closeAndDrain
    let seeded := e.reserved.seedTotalAfterQuiescence e.strict.value
    if e.strict.value > e.localPeak then (false, { e with gateOpen := true })
    else if !seeded.1 then (false, { e with reserved := seeded.2, gateOpen := true })
    else
      (true, { e with
        reserved := seeded.2
        mode := .reservedPeak
        exhaustedPeakShards := seeded.2.exhaustedShards
        replicationEpoch := (e.replicationEpoch + 1) % 2 ^ 64
        peakRequested := false
        dangerRequested := false
        gateOpen := true })

/-- `CounterEngine::transition_to_danger`. A process with only a component reservation
refuses the local collapse, and so does one whose handoff is active. -/
def transitionToDanger (e : CounterEngine) : Bool × CounterEngine :=
  if e.mode ≠ .reservedPeak then (false, e)
  else if e.localPeak ≠ e.limit || e.distributedHandoffActive then (false, e)
  else
    let e := e.closeAndDrain
    match e.strict.seedAfterQuiescence e.reserved.total with
    | none => (false, { e with gateOpen := true })
    | some strict =>
      (true, { e with
        strict := strict
        mode := .dangerStrict
        exhaustedPeakShards := 0
        replicationEpoch := (e.replicationEpoch + 1) % 2 ^ 64
        dangerRequested := false
        gateOpen := true })

/-- The hot-key detector's callback. -/
def raisePeakRequest (e : CounterEngine) : CounterEngine := { e with peakRequested := true }

/-- `CounterEngine::publish_snapshot`. -/
def publishSnapshot (e : CounterEngine) (counter value : ℕ) : CounterEngine :=
  if !e.replicationPublisher then e
  else
    { e with snapshots :=
      ⟨counter, e.replicationEpoch, e.config.componentId, value⟩ :: e.snapshots }

/-- The danger test of `control_loop` on the peak total it read. -/
def nearLimit (e : CounterEngine) (componentValue : ℕ) : Bool :=
  decide (e.localPeak = e.limit) &&
    (decide (e.config.dangerThreshold ≥ e.limit) ||
      decide ((e.limit + 2 ^ 64 - componentValue) % 2 ^ 64 ≤ e.config.dangerThreshold))

/-- The value `control_loop` reads for replication in the mode it found. -/
def componentValue (e : CounterEngine) : ℕ :=
  match e.mode with
  | .reservedPeak => e.reserved.total
  | .remoteStrict => 0
  | _ => e.strict.value

/-- The part of `control_loop` that asks for the danger transition. -/
def requestDanger (e : CounterEngine) (value : ℕ) : CounterEngine :=
  if e.mode = .reservedPeak ∧ e.nearLimit value then { e with dangerRequested := true } else e

/-- The part of `control_loop` that publishes a changed snapshot. -/
def replicate (e : CounterEngine) (value : ℕ) : CounterEngine :=
  if e.mode ≠ .remoteStrict ∧ e.hasActiveCounter ∧
      (value ≠ e.lastReplicatedValue ∨ e.replicationEpoch ≠ e.lastReplicatedEpoch) then
    { e.publishSnapshot e.activeCounter value with
      lastReplicatedValue := value
      lastReplicatedEpoch := e.replicationEpoch }
  else e

/-- One iteration of `CounterEngine::control_loop`. -/
def controlLoop (e : CounterEngine) : CounterEngine :=
  let seen := (e.requestDanger e.componentValue).replicate e.componentValue
  if e.mode = .strict ∧ seen.peakRequested then seen.transitionToReserved.2
  else if e.mode = .reservedPeak ∧ seen.dangerRequested then seen.transitionToDanger.2
  else seen

/-! ### Distributed handoff -/

/-- `CounterEngine::begin_distributed_handoff`. -/
def beginDistributedHandoff (e : CounterEngine) : Option DrainedPeakState × CounterEngine :=
  if e.distributedHandoffActive then (none, e)
  else if e.mode ≠ .reservedPeak then (none, { e with distributedHandoffActive := false })
  else
    let e := { e with distributedHandoffActive := true }.closeAndDrain
    (some ⟨e.activeCounter, e.replicationEpoch, e.reserved.total⟩, e)

/-- `CounterEngine::abort_distributed_handoff`. -/
def abortDistributedHandoff (e : CounterEngine) : CounterEngine :=
  if !e.distributedHandoffActive then e
  else
    let e := { e with distributedHandoffActive := false }
    if e.mode = .reservedPeak then { e with gateOpen := true } else e

/-- The mode a committed handoff leaves behind. -/
def handoffMode (strictOwner : Bool) : RoutingMode :=
  if strictOwner then .dangerStrict else .remoteStrict

theorem handoffMode_ne_reservedPeak (strictOwner : Bool) :
    handoffMode strictOwner ≠ .reservedPeak := by
  cases strictOwner <;> simp [handoffMode]

theorem handoffMode_ne_strict (strictOwner : Bool) : handoffMode strictOwner ≠ .strict := by
  cases strictOwner <;> simp [handoffMode]

/-- The exhaustion part shared by commit and recovery: the owner announces a total that
already is the limit, the others only remember it. -/
def markHandoffTotal (e : CounterEngine) (counter globalTotal : ℕ) (strictOwner : Bool) :
    CounterEngine :=
  if globalTotal = e.limit then
    if strictOwner then e.publishLimitReached counter else { e with exhausted := true }
  else e

/-- `CounterEngine::commit_distributed_handoff`. -/
def commitDistributedHandoff (e : CounterEngine) (globalTotal : ℕ) (strictOwner : Bool) :
    Bool × CounterEngine :=
  if !e.distributedHandoffActive || e.mode ≠ .reservedPeak || globalTotal > e.limit then
    (false, e)
  else
    match e.strict.seedAfterQuiescence globalTotal with
    | none => (false, e)
    | some strict =>
      let e := { e with
        strict := strict
        mode := handoffMode strictOwner
        exhaustedPeakShards := 0
        replicationEpoch := (e.replicationEpoch + 1) % 2 ^ 64
        dangerRequested := false
        distributedHandoffActive := false }
      (true, { e.markHandoffTotal e.activeCounter globalTotal strictOwner with gateOpen := true })

/-- `CounterEngine::recover_committed_handoff`. -/
def recoverCommittedHandoff (e : CounterEngine) (state : DrainedPeakState) (globalTotal : ℕ)
    (strictOwner : Bool) : Bool × CounterEngine :=
  if globalTotal > e.limit then (false, e)
  else
    let e := e.closeAndDrain
    match e.strict.seedAfterQuiescence globalTotal with
    | none => (false, e)
    | some strict =>
      let e := { e with
        strict := strict
        activeCounter := state.counter
        hasActiveCounter := true
        replicationEpoch := state.epoch
        mode := handoffMode strictOwner
        exhaustedPeakShards := 0
        distributedHandoffActive := false }
      (true, { e.markHandoffTotal state.counter globalTotal strictOwner with gateOpen := true })

/-- `CounterEngine::fence_after_interrupted_handoff`. -/
def fenceAfterInterruptedHandoff (e : CounterEngine) : CounterEngine := e.closeAndDrain

/-- The results of a sequence of `apply` calls and the engine after them. -/
def applyAll (e : CounterEngine) : List Request → List Result × CounterEngine
  | [] => ([], e)
  | request :: requests =>
    let first := e.apply request
    let rest := first.2.applyAll requests
    (first.1 :: rest.1, rest.2)

end CounterEngine

end HotCounter
