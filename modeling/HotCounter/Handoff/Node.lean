import HotCounter.Handoff.Controller

/-!
# One process of a cluster

A `Node` is a `CounterRuntime` with a handoff section and the journal file it owns. The engine
calls are atomic here; the control program of the handoff controller makes one effect at a
time, and requests, control-loop iterations and crashes may fall between any two effects. The
journal outlives the process, everything else is lost in a crash.
-/

namespace HotCounter

open Foundation

/-- How a journal store ends. The file is replaced by a rename, so it holds the old record or
the new one; the store may report failure in both cases. -/
inductive StoreOutcome
  | stored
  | failedBefore
  | failedAfter
  deriving DecidableEq, Repr

namespace StoreOutcome

/-- What the store reports. -/
def reported : StoreOutcome → Bool
  | .stored => true
  | .failedBefore | .failedAfter => false

/-- The file afterwards. -/
def file (outcome : StoreOutcome) (old : Option JournalRecord) (new : JournalRecord) :
    Option JournalRecord :=
  match outcome with
  | .failedBefore => old
  | .stored | .failedAfter => some new.onDisk

end StoreOutcome

/-- What the environment decides about an effect: the outcome of a store, a clock reading. -/
structure Oracle where
  store : StoreOutcome := .stored
  now : ℕ := 0
  deriving DecidableEq, Repr

/-- One effect on an engine and a journal file: the reply, both afterwards, and what was sent.
`terminate` has no outcome. -/
def Effect.run (oracle : Oracle) (engine : CounterEngine) (journal : Option JournalRecord) :
    (e : Effect) → Option (Reply e × CounterEngine × Option JournalRecord × List Packet)
  | .beginHandoff =>
    let (reply, engine) := engine.beginDistributedHandoff
    some (reply, engine, journal, [])
  | .abortHandoff => some ((), engine.abortDistributedHandoff, journal, [])
  | .commitHandoff total strictOwner =>
    let (reply, engine) := engine.commitDistributedHandoff total strictOwner
    some (reply, engine, journal, [])
  | .mode => some (engine.mode, engine, journal, [])
  | .peakTotal => some (engine.currentPeakTotal, engine, journal, [])
  | .store record =>
    some (oracle.store.reported, engine, oracle.store.file journal record, [])
  | .send destination frame => some ((), engine, journal, [⟨destination, frame⟩])
  | .clock => some (oracle.now, engine, journal, [])
  | .terminate => none

/-! ### Starting a process -/

namespace DistributedHandoffConfig

/-- The membership loop of `start`. -/
def collectMembers : List ℕ → List ℕ → Except ConfigError (List ℕ)
  | members, [] => .ok members
  | members, member :: rest =>
    if member > 65535 ∨ member ∈ members then
      .error (.invalidArgument "invalid or duplicate handoff member")
    else collectMembers (members ++ [member]) rest

/-- The peer loop of `start`. -/
def collectPeers (resolve : String → ℕ → Option Endpoint) (config : DistributedHandoffConfig)
    (members : List ℕ) : List (ℕ × Endpoint) → List DistributedPeer →
      Except ConfigError (List (ℕ × Endpoint))
  | peers, [] => .ok peers
  | peers, peer :: rest =>
    if peer.componentId > 65535 ∨ peer.port = 0 ∨ peer.componentId = config.componentId ∨
        peer.componentId ∉ members then
      .error (.invalidArgument "invalid handoff peer")
    else
      match resolve peer.host peer.port with
      | none => .error (.invalidArgument "cannot resolve handoff endpoint")
      | some endpoint =>
        if peer.componentId ∈ peers.map Prod.fst then
          .error (.invalidArgument "duplicate handoff peer")
        else collectPeers resolve config members (peers ++ [(peer.componentId, endpoint)]) rest

/-- The checks of `DistributedHandoffController::start` before it opens the journal. -/
def validate (resolve : String → ℕ → Option Endpoint) (config : DistributedHandoffConfig)
    (engine : CounterEngineConfig) : Except ConfigError Impl :=
  if config.bindPort = 0 ∨ config.retryAfter = 0 ∨ config.prepareTimeout ≤ config.retryAfter then
    .error (.invalidArgument "invalid distributed handoff timing or bind port")
  else if config.componentId > 65535 ∨ config.leaderComponentId > 65535 ∨
      config.strictOwnerComponentId > 65535 then
    .error (.invalidArgument "handoff component id exceeds protocol range")
  else if config.authenticationKey.length < 16 then
    .error (.invalidArgument "handoff authentication key must contain at least 16 bytes")
  else if config.journalPath = "" then
    .error (.invalidArgument "handoff journal path is required")
  else
    match collectMembers [] config.members with
    | .error error => .error error
    | .ok members =>
      if config.componentId ∉ members ∨ config.leaderComponentId ∉ members ∨
          config.strictOwnerComponentId ∉ members then
        .error (.invalidArgument "handoff membership omits a required component")
      else
        match collectPeers resolve config members [] config.peers with
        | .error error => .error error
        | .ok peers =>
          if peers.length + 1 ≠ members.length then
            .error (.invalidArgument "handoff peers do not cover fixed membership")
          else .ok { engine := engine, config := config, members := members, peers := peers }

end DistributedHandoffConfig

namespace Impl

/-- The journal part of `DistributedHandoffController::start`: the file afterwards, and the
engine and controller or the exception. -/
def recover (c : Impl) (engine : CounterEngine) (journal : Option JournalRecord)
    (outcome : StoreOutcome) :
    Option JournalRecord × Except ConfigError (CounterEngine × Impl) :=
  match journal with
  | none =>
    (outcome.file none {},
      if outcome.reported then .ok (engine, c)
      else .error (.runtimeError "cannot initialize handoff journal"))
  | some record =>
    (journal,
      if record.strictOwner ≠ c.config.strictOwnerComponentId ∨ record.total > engine.limit then
        .error (.runtimeError "handoff journal conflicts with runtime configuration")
      else
        match record.phase with
        | .idle => .ok (engine, c)
        | .prepared => .ok (engine.fenceAfterInterruptedHandoff, { c with recoveryFenced := true })
        | .committed =>
          let (restored, engine) :=
            engine.recoverCommittedHandoff record.state record.total c.isOwner
          if restored then .ok (engine, { c with lastCommittedTerm := record.term })
          else .error (.runtimeError "cannot restore committed handoff"))

end Impl

namespace CounterRuntimeConfig

/-- `CounterRuntime::start` of a fresh process with a handoff section. -/
def start (resolve : String → ℕ → Option Endpoint) (config : CounterRuntimeConfig)
    (handoff : DistributedHandoffConfig) (journal : Option JournalRecord)
    (outcome : StoreOutcome) :
    Option JournalRecord × Except ConfigError (CounterEngine × Impl) :=
  let entered := (CounterEngine.new config.engine).transitionToReserved
  if config.startPeak && !entered.1 then
    (journal, .error (.runtimeError "cannot enter initial peak mode"))
  else
    let engine := if config.startPeak then entered.2 else CounterEngine.new config.engine
    let engine := { engine with replicationPublisher := config.replication.isSome }
    match handoff.validate resolve config.engine with
    | .error error => (journal, .error error)
    | .ok c => c.recover engine journal outcome

end CounterRuntimeConfig

/-! ### A process and its journal -/

/-- One process and its history. `served` is what the engine answered since the process
started, each answer with the mode it was given in; `performed` are the effects of the
controller, those of earlier processes included; both newest first. `stopped` says that the
controller was stopped. -/
structure Node where
  up : Bool := false
  stopped : Bool := false
  engine : CounterEngine
  control : Prog Impl Reply Unit
  journal : Option JournalRecord := none
  served : List (RoutingMode × Request × Result) := []
  performed : List Effect := []

/-- What can happen inside one process. -/
inductive NodeAction
  | apply (request : Request)
  | controlLoop
  | raisePeakRequest
  | deliver (frame : Frame) (source : Endpoint)
  | tick (now : ℕ)
  | effect (oracle : Oracle)
  | stop

namespace Node

/-- The volatile controller state. -/
def impl (n : Node) : Impl := n.control.state

/-- The controller's worker takes up a handler when it has none in hand. -/
def handle (n : Node) (handler : HandoffM Unit) : Option Node :=
  match n.control with
  | .ret c () => if n.stopped then none else some { n with control := handler c }
  | .op _ _ _ => none

theorem handle_eq_some {n n' : Node} {handler : HandoffM Unit} (h : n.handle handler = some n') :
    ∃ c, n.control = .ret c () ∧ n' = { n with control := handler c } := by
  unfold handle at h
  split at h
  · rename_i c hcontrol
    split at h
    · exact absurd h nofun
    · exact ⟨c, hcontrol, (Option.some.inj h).symm⟩
  · exact absurd h nofun

/-- One step of a running process, and what it sends. -/
def step (n : Node) : NodeAction → Option (Node × List Packet)
  | .apply request =>
    let (result, engine) := n.engine.apply request
    some ({ n with engine := engine, served := (n.engine.mode, request, result) :: n.served }, [])
  | .controlLoop => some ({ n with engine := n.engine.controlLoop }, [])
  | .raisePeakRequest => some ({ n with engine := n.engine.raisePeakRequest }, [])
  | .deliver frame source => (n.handle (Impl.handleFrame frame source)).map (·, [])
  | .tick now => (n.handle (Impl.tick now)).map (·, [])
  | .effect oracle =>
    match n.control with
    | .ret _ _ => none
    | .op _ e k =>
      match e.run oracle n.engine n.journal with
      | none => some ({ n with up := false }, [])
      | some (reply, engine, journal, packets) =>
        some ({ n with
          engine := engine
          journal := journal
          control := k reply
          performed := e :: n.performed }, packets)
  | .stop => (n.handle Impl.stop).map ({ · with stopped := true }, [])

/-- The process ends; only the journal stays. -/
def crash (n : Node) : Node := { n with up := false }

/-- A new process starts on the journal. A start that throws leaves no process. -/
def start (resolve : String → ℕ → Option Endpoint) (config : CounterRuntimeConfig)
    (handoff : DistributedHandoffConfig) (n : Node) (outcome : StoreOutcome) : Node :=
  match config.start resolve handoff n.journal outcome with
  | (journal, .error _) => { n with journal := journal }
  | (journal, .ok (engine, c)) =>
    { n with
      up := true
      stopped := false
      engine := engine
      control := .ret c ()
      journal := journal
      served := [] }

end Node

end HotCounter
