import HotCounter.Engine.Basic
import HotCounter.Foundation.Transition

/-!
# The counter engine, one atomic access at a time

The members of `CounterEngine` are shared memory. A request thread runs `apply`, a control
thread runs the control-plane functions; a program point of either stands just before one
atomic load, store or read-modify-write, and a step performs that access together with the
thread-local work up to the next one. Every access is sequentially consistent.

`ApplyPoint.step` and `ControlPoint.step` are the two programs; `Machine.step` interleaves
any number of request threads with any number of control threads. A weak compare-exchange
may fail spuriously, which is the `spurious` flag of a step. The in-flight count is the 32-bit
word of the source and wraps; with fewer than `2 ^ 32` request threads it never does, since each
unit of it is a live thread (`Machine.Wf` in `HotCounter.Engine.Gate`).
-/

namespace HotCounter

/-! ### Request threads -/

/-- `in_flight_.fetch_add(1)` of the gate, on a 32-bit word. -/
def AdmissionGate.fetchAdd (inFlight : ℕ) : ℕ := (inFlight + 1) % 2 ^ 32

/-- `in_flight_.fetch_sub(1)` of the gate, on a 32-bit word. -/
def AdmissionGate.fetchSub (inFlight : ℕ) : ℕ := (2 ^ 32 - 1 + inFlight) % 2 ^ 32

/-- Program points of `CounterEngine::apply`. -/
inductive ApplyPoint
  | idle
  | checkExhausted (request : Request)
  | checkOpen (request : Request)
  | enter (request : Request)
  | recheckOpen (request : Request)
  | backOut (request : Request)
  | loadMode (request : Request)
  | strictLoad (request : Request) (mode : RoutingMode)
  | strictSwap (request : Request) (mode : RoutingMode) (current : ℕ)
  | shardLoad (request : Request)
  | shardSwap (request : Request) (current : ℕ)
  | remoteLoad (request : Request)
  | rememberHas (request : Request) (mode : RoutingMode) (result : Result)
  | rememberCompare (request : Request) (mode : RoutingMode) (result : Result)
  | rememberStore (request : Request) (mode : RoutingMode) (result : Result)
  | rememberFlag (request : Request) (mode : RoutingMode) (result : Result)
  | announceLoad (request : Request) (result : Result)
  | announceSwap (request : Request) (result : Result)
  | countShard (request : Request) (result : Result)
  | markExhausted (request : Request) (result : Result)
  | loadPublisher (request : Request) (result : Result)
  | publishLimit (request : Request) (result : Result)
  | leave (request : Request) (result : Result)
  deriving DecidableEq

namespace ApplyPoint

/-- The head of the compare-and-swap loop of `StrictCounter::apply` on a value just read. -/
def strictDecide (limit : ℕ) (request : Request) (mode : RoutingMode) (current : ℕ) :
    ApplyPoint :=
  if StrictCounter.refuses limit current request.delta then
    .leave request ⟨.rejected, current, 0⟩
  else .strictSwap request mode current

/-- The head of the compare-and-swap loop of `ReservedCounter::apply` on a value just read. -/
def shardDecide (reserve selected : ℕ) (request : Request) (current : ℕ) : ApplyPoint :=
  if StrictCounter.refuses reserve current request.delta then
    .leave request ⟨.rejected, current, selected⟩
  else .shardSwap request current

/-- Where `apply` goes once the accepted counter id is remembered. -/
def afterRemember (e : CounterEngine) (request : Request) (mode : RoutingMode)
    (result : Result) : ApplyPoint :=
  if mode ≠ .reservedPeak then
    if result.observed = e.limit then .markExhausted request result else .leave request result
  else if e.localPeak = e.limit then .announceLoad request result
  else .leave request result

/-- The shard index that a request selects. -/
def selected (e : CounterEngine) (request : Request) : ℕ :=
  CounterEngine.shardFor e.config request.routeHash % e.reserved.shards.length

/-- One atomic access of `apply`: the engine after it, the next program point, and the answer
if the call returned. -/
def step (e : CounterEngine) (spurious : Bool) :
    ApplyPoint → CounterEngine × ApplyPoint × List (Request × Result)
  | .idle => (e, .idle, [])
  -- apply, and AdmissionGate::try_enter
  | .checkExhausted request =>
    if e.exhausted then (e, .idle, [(request, ⟨.rejected, e.limit, 0⟩)])
    else (e, .checkOpen request, [])
  | .checkOpen request =>
    if e.gateOpen then (e, .enter request, [])
    else (e, .idle, [(request, ⟨.rejected, 0, 0⟩)])
  | .enter request =>
    ({ e with inFlight := AdmissionGate.fetchAdd e.inFlight }, .recheckOpen request, [])
  | .recheckOpen request =>
    if e.gateOpen then (e, .loadMode request, []) else (e, .backOut request, [])
  | .backOut request =>
    ({ e with inFlight := AdmissionGate.fetchSub e.inFlight }, .idle,
      [(request, ⟨.rejected, 0, 0⟩)])
  -- the switch over the mode: StrictCounter::apply or ReservedCounter::apply
  | .loadMode request =>
    match e.mode with
    | .strict => (e, .strictLoad request .strict, [])
    | .reservedPeak => (e, .shardLoad request, [])
    | .dangerStrict => (e, .strictLoad request .dangerStrict, [])
    | .remoteStrict => (e, .remoteLoad request, [])
  | .strictLoad request mode =>
    (e, strictDecide e.strict.limit request mode e.strict.value, [])
  | .strictSwap request mode current =>
    if !spurious && e.strict.value == current then
      let next := (current + request.delta) % 2 ^ 64
      ({ e with strict := { e.strict with value := next } },
        .rememberHas request mode ⟨.accepted, next, 0⟩, [])
    else (e, strictDecide e.strict.limit request mode e.strict.value, [])
  | .shardLoad request =>
    let shard := e.reserved.shardAt (CounterEngine.shardFor e.config request.routeHash)
    (e, shardDecide shard.reserve (selected e request) request shard.used, [])
  | .shardSwap request current =>
    let id := CounterEngine.shardFor e.config request.routeHash
    let shard := e.reserved.shardAt id
    if !spurious && shard.used == current then
      let next := (current + request.delta) % 2 ^ 64
      ({ e with reserved := e.reserved.setShard id { shard with used := next } },
        .rememberHas request .reservedPeak ⟨.accepted, next, selected e request⟩, [])
    else (e, shardDecide shard.reserve (selected e request) request shard.used, [])
  | .remoteLoad request => (e, .leave request ⟨.moved, e.strict.value, 0⟩, [])
  -- an accepted delta: remember_counter
  | .rememberHas request mode result =>
    if e.hasActiveCounter then (e, .rememberCompare request mode result, [])
    else (e, .rememberStore request mode result, [])
  | .rememberCompare request mode result =>
    if e.activeCounter = request.counter then (e, afterRemember e request mode result, [])
    else (e, .rememberStore request mode result, [])
  | .rememberStore request mode result =>
    ({ e with activeCounter := request.counter }, .rememberFlag request mode result, [])
  | .rememberFlag request mode result =>
    ({ e with hasActiveCounter := true }, afterRemember e request mode result, [])
  -- mark_exhaustion_if_new, and the count of the shards that have announced
  | .announceLoad request result =>
    let shard := e.reserved.shardAt result.shard
    if shard.used ≠ shard.reserve then (e, .leave request result, [])
    else (e, .announceSwap request result, [])
  | .announceSwap request result =>
    let shard := e.reserved.shardAt result.shard
    if shard.exhaustionAnnounced then (e, .leave request result, [])
    else
      ({ e with reserved :=
          e.reserved.setShard result.shard { shard with exhaustionAnnounced := true } },
        .countShard request result, [])
  | .countShard request result =>
    let count := (e.exhaustedPeakShards + 1) % 2 ^ 32
    let e := { e with exhaustedPeakShards := count }
    if count = e.reserved.shards.length then (e, .markExhausted request result, [])
    else (e, .leave request result, [])
  -- publish_limit_reached
  | .markExhausted request result =>
    if e.exhausted then (e, .leave request result, [])
    else ({ e with exhausted := true }, .loadPublisher request result, [])
  | .loadPublisher request result =>
    if e.limitReachedPublisher then (e, .publishLimit request result, [])
    else (e, .leave request result, [])
  | .publishLimit request result =>
    ({ e with limitEvents := ⟨request.counter, e.limit, e.replicationEpoch⟩ :: e.limitEvents },
      .leave request result, [])
  -- the destructor of the guard
  | .leave request result =>
    ({ e with inFlight := AdmissionGate.fetchSub e.inFlight }, .idle, [(request, result)])

end ApplyPoint

/-! ### Control threads -/

/-- The control-plane calls. `controlLoop` is one iteration of the loop. -/
inductive ControlCall
  | enterReservedMode
  | enterDangerMode
  | controlLoop
  | beginHandoff
  | abortHandoff
  | commitHandoff (total : ℕ) (strictOwner : Bool)
  deriving DecidableEq

/-- Program points of the control-plane functions: `reserved…` of `transition_to_reserved`,
`danger…` of `transition_to_danger`, `loop…` and `snapshot…` of `control_loop`, `begin…`,
`abort…` and `commit…` of the handoff calls. -/
inductive ControlPoint
  | idle
  | reservedMode
  | reservedClose
  | reservedDrain
  | reservedCheck
  | reservedLoad
  | reservedSeed (index remaining : ℕ)
  | reservedAnnounce (index assigned remaining : ℕ)
  | reservedReopen
  | reservedPublish
  | reservedCount (index count : ℕ)
  | reservedStoreCount (count : ℕ)
  | reservedEpoch
  | reservedClearPeak
  | reservedClearDanger
  | reservedOpen
  | dangerMode
  | dangerActive
  | dangerClose
  | dangerDrain
  | dangerTotal (index total : ℕ)
  | dangerSeed (total : ℕ)
  | dangerReopen
  | dangerPublish
  | dangerClearCount
  | dangerEpoch
  | dangerClear
  | dangerOpen
  | loopMode
  | loopHas (mode : RoutingMode)
  | loopCounter (mode : RoutingMode) (has : Bool)
  | loopTotal (has : Bool) (counter index total : ℕ)
  | loopRequest (has : Bool) (counter value : ℕ)
  | loopValue (mode : RoutingMode) (has : Bool) (counter : ℕ)
  | loopEpoch (mode : RoutingMode) (has : Bool) (counter value : ℕ)
  | snapshotPublisher (mode : RoutingMode) (counter value epoch : ℕ)
  | snapshotPublish (mode : RoutingMode) (counter value epoch : ℕ)
  | loopPeak
  | loopDanger
  | beginClaim
  | beginMode
  | beginRelease
  | beginClose
  | beginDrain
  | beginCounter
  | beginEpoch (counter : ℕ)
  | beginTotal (counter epoch index total : ℕ)
  | abortRelease
  | abortMode
  | abortOpen
  | commitActive (total : ℕ) (strictOwner : Bool)
  | commitMode (total : ℕ) (strictOwner : Bool)
  | commitSeed (total : ℕ) (strictOwner : Bool)
  | commitPublish (total : ℕ) (strictOwner : Bool)
  | commitClearCount (total : ℕ) (strictOwner : Bool)
  | commitEpoch (total : ℕ) (strictOwner : Bool)
  | commitClear (total : ℕ) (strictOwner : Bool)
  | commitRelease (total : ℕ) (strictOwner : Bool)
  | commitCounter
  | commitMark (counter : ℕ)
  | commitPublisher (counter : ℕ)
  | commitEvent (counter : ℕ)
  | commitRemember
  | commitOpen
  deriving DecidableEq

namespace ControlPoint

/-- The first program point of a call. -/
def entry : ControlCall → ControlPoint
  | .enterReservedMode => .reservedMode
  | .enterDangerMode => .dangerMode
  | .controlLoop => .loopMode
  | .beginHandoff => .beginClaim
  | .abortHandoff => .abortRelease
  | .commitHandoff total strictOwner => .commitActive total strictOwner

/-- The seeding loop of `seed_total_after_quiescence` at a shard, or past the last one. -/
def seedNext (e : CounterEngine) (index remaining : ℕ) : ControlPoint :=
  if index < e.reserved.shards.length then .reservedSeed index remaining
  else if remaining ≠ 0 then .reservedReopen
  else .reservedPublish

/-- Where `control_loop` goes after its snapshot. -/
def loopNext : RoutingMode → ControlPoint
  | .strict => .loopPeak
  | .reservedPeak => .loopDanger
  | _ => .idle

/-- Where `commit_distributed_handoff` goes after it released the handoff. -/
def commitExhaustion (e : CounterEngine) (total : ℕ) (strictOwner : Bool) : ControlPoint :=
  if total = e.limit then if strictOwner then .commitCounter else .commitRemember
  else .commitOpen

/-- The shard at an index of a loop over all shards. -/
def shard (e : CounterEngine) (index : ℕ) : Shard := e.reserved.shards.getD index default

/-- Replace the shard at an index of a loop over all shards. -/
def setShard (e : CounterEngine) (index : ℕ) (s : Shard) : CounterEngine :=
  { e with reserved := { e.reserved with shards := e.reserved.shards.set index s } }

/-- One atomic access of a control-plane call. -/
def step (e : CounterEngine) : ControlPoint → CounterEngine × ControlPoint
  | .idle => (e, .idle)
  -- transition_to_reserved
  | .reservedMode => if e.mode ≠ .strict then (e, .idle) else (e, .reservedClose)
  | .reservedClose => ({ e with gateOpen := false }, .reservedDrain)
  | .reservedDrain => if e.inFlight = 0 then (e, .reservedCheck) else (e, .reservedDrain)
  | .reservedCheck =>
    if e.strict.value > e.localPeak then (e, .reservedReopen) else (e, .reservedLoad)
  | .reservedLoad =>
    if e.strict.value > e.reserved.limit then (e, .reservedReopen)
    else (e, seedNext e 0 e.strict.value)
  | .reservedSeed index remaining =>
    let s := shard e index
    let assigned := if remaining < s.reserve then remaining else s.reserve
    (setShard e index { s with used := assigned }, .reservedAnnounce index assigned remaining)
  | .reservedAnnounce index assigned remaining =>
    let s := shard e index
    let e := setShard e index { s with exhaustionAnnounced := assigned == s.reserve }
    (e, seedNext e (index + 1) (remaining - assigned))
  | .reservedReopen => ({ e with gateOpen := true }, .idle)
  | .reservedPublish => ({ e with mode := .reservedPeak }, .reservedCount 0 0)
  | .reservedCount index count =>
    if index < e.reserved.shards.length then
      let s := shard e index
      (e, .reservedCount (index + 1) (if s.used = s.reserve then count + 1 else count))
    else (e, .reservedStoreCount count)
  | .reservedStoreCount count => ({ e with exhaustedPeakShards := count }, .reservedEpoch)
  | .reservedEpoch =>
    ({ e with replicationEpoch := (e.replicationEpoch + 1) % 2 ^ 64 }, .reservedClearPeak)
  | .reservedClearPeak => ({ e with peakRequested := false }, .reservedClearDanger)
  | .reservedClearDanger => ({ e with dangerRequested := false }, .reservedOpen)
  | .reservedOpen => ({ e with gateOpen := true }, .idle)
  -- transition_to_danger
  | .dangerMode => if e.mode ≠ .reservedPeak then (e, .idle) else (e, .dangerActive)
  | .dangerActive =>
    if e.localPeak ≠ e.limit || e.distributedHandoffActive then (e, .idle) else (e, .dangerClose)
  | .dangerClose => ({ e with gateOpen := false }, .dangerDrain)
  | .dangerDrain => if e.inFlight = 0 then (e, .dangerTotal 0 0) else (e, .dangerDrain)
  | .dangerTotal index total =>
    if index < e.reserved.shards.length then
      (e, .dangerTotal (index + 1) ((total + (shard e index).used) % 2 ^ 64))
    else (e, .dangerSeed total)
  | .dangerSeed total =>
    if total > e.strict.limit then (e, .dangerReopen)
    else ({ e with strict := { e.strict with value := total } }, .dangerPublish)
  | .dangerReopen => ({ e with gateOpen := true }, .idle)
  | .dangerPublish => ({ e with mode := .dangerStrict }, .dangerClearCount)
  | .dangerClearCount => ({ e with exhaustedPeakShards := 0 }, .dangerEpoch)
  | .dangerEpoch =>
    ({ e with replicationEpoch := (e.replicationEpoch + 1) % 2 ^ 64 }, .dangerClear)
  | .dangerClear => ({ e with dangerRequested := false }, .dangerOpen)
  | .dangerOpen => ({ e with gateOpen := true }, .idle)
  -- control_loop and publish_snapshot
  | .loopMode => (e, .loopHas e.mode)
  | .loopHas mode => (e, .loopCounter mode e.hasActiveCounter)
  | .loopCounter mode has =>
    match mode with
    | .reservedPeak => (e, .loopTotal has e.activeCounter 0 0)
    | .remoteStrict => (e, .loopEpoch .remoteStrict has e.activeCounter 0)
    | mode => (e, .loopValue mode has e.activeCounter)
  | .loopTotal has counter index total =>
    if index < e.reserved.shards.length then
      (e, .loopTotal has counter (index + 1) ((total + (shard e index).used) % 2 ^ 64))
    else if e.nearLimit total then (e, .loopRequest has counter total)
    else (e, .loopEpoch .reservedPeak has counter total)
  | .loopRequest has counter value =>
    ({ e with dangerRequested := true }, .loopEpoch .reservedPeak has counter value)
  | .loopValue mode has counter => (e, .loopEpoch mode has counter e.strict.value)
  | .loopEpoch mode has counter value =>
    if mode ≠ .remoteStrict ∧ has = true ∧
        (value ≠ e.lastReplicatedValue ∨ e.replicationEpoch ≠ e.lastReplicatedEpoch) then
      (e, .snapshotPublisher mode counter value e.replicationEpoch)
    else (e, loopNext mode)
  | .snapshotPublisher mode counter value epoch =>
    if e.replicationPublisher then (e, .snapshotPublish mode counter value epoch)
    else
      ({ e with lastReplicatedValue := value, lastReplicatedEpoch := epoch }, loopNext mode)
  | .snapshotPublish mode counter value epoch =>
    ({ e with
        snapshots := ⟨counter, e.replicationEpoch, e.config.componentId, value⟩ :: e.snapshots
        lastReplicatedValue := value
        lastReplicatedEpoch := epoch }, loopNext mode)
  | .loopPeak => if e.peakRequested then (e, .reservedMode) else (e, .idle)
  | .loopDanger => if e.dangerRequested then (e, .dangerMode) else (e, .idle)
  -- begin_distributed_handoff
  | .beginClaim =>
    if e.distributedHandoffActive then (e, .idle)
    else ({ e with distributedHandoffActive := true }, .beginMode)
  | .beginMode => if e.mode ≠ .reservedPeak then (e, .beginRelease) else (e, .beginClose)
  | .beginRelease => ({ e with distributedHandoffActive := false }, .idle)
  | .beginClose => ({ e with gateOpen := false }, .beginDrain)
  | .beginDrain => if e.inFlight = 0 then (e, .beginCounter) else (e, .beginDrain)
  | .beginCounter => (e, .beginEpoch e.activeCounter)
  | .beginEpoch counter => (e, .beginTotal counter e.replicationEpoch 0 0)
  | .beginTotal counter epoch index total =>
    if index < e.reserved.shards.length then
      (e, .beginTotal counter epoch (index + 1) ((total + (shard e index).used) % 2 ^ 64))
    else (e, .idle)
  -- abort_distributed_handoff
  | .abortRelease =>
    if e.distributedHandoffActive then ({ e with distributedHandoffActive := false }, .abortMode)
    else (e, .idle)
  | .abortMode => if e.mode = .reservedPeak then (e, .abortOpen) else (e, .idle)
  | .abortOpen => ({ e with gateOpen := true }, .idle)
  -- commit_distributed_handoff
  | .commitActive total strictOwner =>
    if e.distributedHandoffActive then (e, .commitMode total strictOwner) else (e, .idle)
  | .commitMode total strictOwner =>
    if e.mode ≠ .reservedPeak || total > e.limit then (e, .idle)
    else (e, .commitSeed total strictOwner)
  | .commitSeed total strictOwner =>
    ({ e with strict := { e.strict with value := total } }, .commitPublish total strictOwner)
  | .commitPublish total strictOwner =>
    ({ e with mode := CounterEngine.handoffMode strictOwner }, .commitClearCount total strictOwner)
  | .commitClearCount total strictOwner =>
    ({ e with exhaustedPeakShards := 0 }, .commitEpoch total strictOwner)
  | .commitEpoch total strictOwner =>
    ({ e with replicationEpoch := (e.replicationEpoch + 1) % 2 ^ 64 },
      .commitClear total strictOwner)
  | .commitClear total strictOwner =>
    ({ e with dangerRequested := false }, .commitRelease total strictOwner)
  | .commitRelease total strictOwner =>
    ({ e with distributedHandoffActive := false }, commitExhaustion e total strictOwner)
  | .commitCounter => (e, .commitMark e.activeCounter)
  | .commitMark counter =>
    if e.exhausted then (e, .commitOpen)
    else ({ e with exhausted := true }, .commitPublisher counter)
  | .commitPublisher counter =>
    if e.limitReachedPublisher then (e, .commitEvent counter) else (e, .commitOpen)
  | .commitEvent counter =>
    ({ e with limitEvents := ⟨counter, e.limit, e.replicationEpoch⟩ :: e.limitEvents }, .commitOpen)
  | .commitRemember => ({ e with exhausted := true }, .commitOpen)
  | .commitOpen => ({ e with gateOpen := true }, .idle)

/-- The handoff that is held after a step: `begin_distributed_handoff` returning `true` starts
to hold the state it reports, releasing it in an abort or publishing it in a commit ends it. -/
def heldAfter (e : CounterEngine) (held : Option DrainedPeakState) :
    ControlPoint → Option DrainedPeakState
  | .beginTotal counter epoch index total =>
    if index < e.reserved.shards.length then held else some ⟨counter, epoch, total⟩
  | .abortRelease => none
  | .commitPublish _ _ => none
  | _ => held

end ControlPoint

/-! ### Interleaving -/

/-- The shared engine and the program points of all threads. `returned` is the log of answers
given to clients, newest first. -/
structure Machine (R C : Type) where
  engine : CounterEngine
  request : R → ApplyPoint
  control : C → ControlPoint
  held : Option DrainedPeakState
  returned : List (Request × Result)

/-- What can happen next: a client calls `apply`, a request thread makes its next access, a
control thread starts a call or makes its next access, the detector asks for peak mode. -/
inductive Action (R C : Type)
  | call (r : R) (request : Request)
  | run (r : R) (spurious : Bool)
  | invoke (c : C) (op : ControlCall)
  | advance (c : C)
  | raisePeakRequest

namespace Machine

variable {R C : Type} [DecidableEq R] [DecidableEq C]

/-- A fresh engine with every thread idle. -/
def init (R C : Type) (config : CounterEngineConfig) : Machine R C where
  engine := CounterEngine.new config
  request := fun _ => .idle
  control := fun _ => .idle
  held := none
  returned := []

/-- One step of one thread. A call needs an idle thread. -/
def step (m : Machine R C) : Action R C → Option (Machine R C)
  | .call r request =>
    if m.request r = .idle then
      some { m with request := Function.update m.request r (.checkExhausted request) }
    else none
  | .run r spurious =>
    let next := (m.request r).step m.engine spurious
    some { m with
      engine := next.1
      request := Function.update m.request r next.2.1
      returned := next.2.2 ++ m.returned }
  | .invoke c op =>
    if m.control c = .idle then
      some { m with control := Function.update m.control c (.entry op) }
    else none
  | .advance c =>
    let next := (m.control c).step m.engine
    some { m with
      engine := next.1
      control := Function.update m.control c next.2
      held := (m.control c).heldAfter m.engine m.held }
  | .raisePeakRequest => some { m with engine := m.engine.raisePeakRequest }

end Machine

end HotCounter
