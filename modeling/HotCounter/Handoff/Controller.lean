import HotCounter.Config.Runtime
import HotCounter.Foundation.Interaction

/-!
# The distributed handoff controller

`Impl` is the volatile state of a `DistributedHandoffController`; its member functions are
programs over `Effect`, the calls by which the controller touches anything but its own state:
the engine, the journal, the socket and the clock. A program may be interrupted between any
two effects, by a crash or by requests that the engine serves meanwhile.

Component ids are unbounded here; `start` rejects those beyond the 16 bits of the protocol, so
the narrowing casts of the source change nothing. The counters of `stats` are left out.
-/

namespace HotCounter

open Foundation

/-- An IPv4 address and port. -/
structure Endpoint where
  address : ℕ
  port : ℕ
  deriving DecidableEq, Repr

/-- The frame types. -/
inductive WireType
  | trigger
  | prepare
  | prepared
  | commit
  | commitAck
  | abort
  deriving DecidableEq, Repr

/-- A decoded frame. -/
structure Frame where
  type : WireType
  sender : ℕ
  term : ℕ
  counter : ℕ
  epoch : ℕ
  value : ℕ
  strictOwner : ℕ
  deriving DecidableEq, Repr

/-- A frame on its way to an endpoint. -/
structure Packet where
  destination : Endpoint
  frame : Frame
  deriving DecidableEq, Repr

/-- The phases of a journal record. -/
inductive JournalPhase
  | idle
  | prepared
  | committed
  deriving DecidableEq, Repr

/-- A journal record. -/
structure JournalRecord where
  phase : JournalPhase := .idle
  term : ℕ := 0
  state : DrainedPeakState := {}
  total : ℕ := 0
  strictOwner : ℕ := 0
  deriving DecidableEq, Repr

/-- A record as `load` gives it back: the component total is not part of the file, `load` puts
the total in its place. -/
def JournalRecord.onDisk (record : JournalRecord) : JournalRecord :=
  { record with state := { record.state with componentTotal := record.total } }

/-- The states of a controller. -/
inductive ControllerState
  | idle
  | leaderPreparing
  | followerPrepared
  | followerCommitting
  | leaderCommitBlocked
  | leaderCommitting
  deriving DecidableEq, Repr

/-- The members of `DistributedHandoffController::Impl`. The two maps are association lists,
the sets lists without repetition. -/
structure Impl where
  engine : CounterEngineConfig
  config : DistributedHandoffConfig
  members : List ℕ
  peers : List (ℕ × Endpoint)
  recoveryFenced : Bool := false
  prepared : List (ℕ × DrainedPeakState) := []
  commitAcks : List ℕ := []
  state : ControllerState := .idle
  activeTerm : ℕ := 0
  lastCommittedTerm : ℕ := 0
  committedCounter : ℕ := 0
  committedEpoch : ℕ := 0
  committedTotal : ℕ := 0
  prepareDeadline : ℕ := 0
  nextRetry : ℕ := 0
  nextTrigger : ℕ := 0

/-- What the controller does to the world. `terminate` is the exception of `std::map::at` that
leaves a `noexcept` function. -/
inductive Effect
  | beginHandoff
  | abortHandoff
  | commitHandoff (total : ℕ) (strictOwner : Bool)
  | mode
  | peakTotal
  | store (record : JournalRecord)
  | send (destination : Endpoint) (frame : Frame)
  | clock
  | terminate

/-- What an effect returns. -/
def Reply : Effect → Type
  | .beginHandoff => Option DrainedPeakState
  | .abortHandoff => Unit
  | .commitHandoff _ _ => Bool
  | .mode => RoutingMode
  | .peakTotal => ℕ
  | .store _ => Bool
  | .send _ _ => Unit
  | .clock => ℕ
  | .terminate => Empty

/-- The programs of a controller. -/
abbrev HandoffM := Script Impl Reply

/-! ### The calls a controller makes -/

def beginDistributedHandoff : HandoffM (Option DrainedPeakState) :=
  Script.perform Effect.beginHandoff

def abortDistributedHandoff : HandoffM Unit := Script.perform Effect.abortHandoff

def commitDistributedHandoff (total : ℕ) (strictOwner : Bool) : HandoffM Bool :=
  Script.perform (Effect.commitHandoff total strictOwner)

def engineMode : HandoffM RoutingMode := Script.perform Effect.mode

def currentPeakTotal : HandoffM ℕ := Script.perform Effect.peakTotal

def journalStore (record : JournalRecord) : HandoffM Bool := Script.perform (Effect.store record)

def sendTo (destination : Endpoint) (frame : Frame) : HandoffM Unit :=
  Script.perform (Effect.send destination frame)

def clockNow : HandoffM ℕ := Script.perform Effect.clock

def terminate : HandoffM Empty := Script.perform Effect.terminate

namespace Impl

def isMember (c : Impl) (component : ℕ) : Bool := c.members.contains component

def isLeader (c : Impl) : Bool := c.config.componentId == c.config.leaderComponentId

def isOwner (c : Impl) : Bool := c.config.componentId == c.config.strictOwnerComponentId

def allPrepared (c : Impl) : Bool := c.prepared.length == c.members.length

def allCommitAcked (c : Impl) : Bool := c.commitAcks.length == c.members.length

/-- The frame a controller sends. -/
def frame (c : Impl) (type : WireType) (term counter epoch value : ℕ) : Frame :=
  ⟨type, c.config.componentId, term, counter, epoch, value, c.config.strictOwnerComponentId⟩

/-- `map[key] = value`. -/
def assign (key : ℕ) (value : DrainedPeakState) :
    List (ℕ × DrainedPeakState) → List (ℕ × DrainedPeakState)
  | [] => [(key, value)]
  | entry :: entries =>
    if entry.1 = key then (key, value) :: entries else entry :: assign key value entries

/-- The successor of a term, saturating. -/
def termAfter (term : ℕ) : ℕ := if term = amountMax then term else term + 1

/-- The term `begin_leader_prepare` draws at a clock reading. -/
def nextTerm (c : Impl) (now : ℕ) : ℕ :=
  max (max (termAfter c.activeTerm) (termAfter c.lastCommittedTerm)) now

/-- The summing loop of `try_begin_commit`: none when a report disagrees with the leader or the
sum would wrap. -/
def sumPrepared (leader : DrainedPeakState) : ℕ → List (ℕ × DrainedPeakState) → Option ℕ
  | total, [] => some total
  | total, (_, report) :: reports =>
    if report.epoch ≠ leader.epoch ∨ report.counter ≠ leader.counter ∨
        report.componentTotal > amountMax - total then none
    else sumPrepared leader (total + report.componentTotal) reports

/-! ### Journal and socket -/

/-- `prepared.at(component)`. -/
def preparedAt (component : ℕ) : HandoffM DrainedPeakState := do
  match (← get).prepared.lookup component with
  | some found => pure found
  | none => do
    let never ← terminate
    nomatch never

def persist (phase : JournalPhase) (term : ℕ) (state : DrainedPeakState) (total : ℕ) :
    HandoffM Bool := do
  journalStore ⟨phase, term, state, total, (← get).config.strictOwnerComponentId⟩

def send (type : WireType) (destination : Endpoint) (term counter epoch value : ℕ) :
    HandoffM Unit := do
  sendTo destination ((← get).frame type term counter epoch value)

/-- Send to a list of peers, in order. -/
def sendEach (type : WireType) (term counter epoch value : ℕ) :
    List (ℕ × Endpoint) → HandoffM Unit
  | [] => pure ()
  | peer :: peers => do
    send type peer.2 term counter epoch value
    sendEach type term counter epoch value peers

def broadcast (type : WireType) (term counter epoch value : ℕ) : HandoffM Unit := do
  sendEach type term counter epoch value (← get).peers

def sendToComponent (type : WireType) (component term counter epoch value : ℕ) :
    HandoffM Unit := do
  match (← get).peers.lookup component with
  | some endpoint => send type endpoint term counter epoch value
  | none => pure ()

/-! ### The two phases -/

/-- `begin_leader_prepare`. -/
def beginLeaderPrepare : HandoffM Unit := do
  let c ← get
  if !c.isLeader || c.state ≠ .idle then pure ()
  else
    match ← beginDistributedHandoff with
    | none => pure ()
    | some drained => do
      let now ← clockNow
      modify fun c => { c with activeTerm := c.nextTerm now }
      if ← persist .prepared (c.nextTerm now) drained drained.componentTotal then
        modify fun c => { c with
          prepared := [(c.config.componentId, drained)]
          state := .leaderPreparing }
        let started ← clockNow
        modify fun c => { c with
          prepareDeadline := started + c.config.prepareTimeout
          nextRetry := 0 }
      else
        abortDistributedHandoff
        modify fun c => { c with activeTerm := 0 }

/-- `abort_prepare`. The outcome of the store is ignored. -/
def abortPrepare (broadcastAbort : Bool) : HandoffM Unit := do
  let c ← get
  if c.state = .leaderPreparing ∨ c.state = .followerPrepared then
    abortDistributedHandoff
    let _ ← persist .idle 0 {} 0
    if broadcastAbort && c.isLeader then broadcast .abort c.activeTerm 0 0 0
  modify fun c => { c with prepared := [], state := .idle, activeTerm := 0 }

/-- `try_begin_commit`. -/
def tryBeginCommit : HandoffM Unit := do
  let c ← get
  if c.state ≠ .leaderPreparing || !c.allPrepared then pure ()
  else
    let leaderState ← preparedAt c.config.componentId
    match sumPrepared leaderState 0 c.prepared with
    | none => abortPrepare true
    | some total =>
      if total > c.engine.limit then abortPrepare true
      else if ← persist .committed c.activeTerm leaderState total then
        modify fun c => { c with
          committedTotal := total
          committedCounter := leaderState.counter
          committedEpoch := leaderState.epoch
          commitAcks := [] }
        if ← commitDistributedHandoff total c.isOwner then
          modify fun c => { c with commitAcks := c.commitAcks.insert c.config.componentId }
        modify fun c => { c with state := .leaderCommitting, nextRetry := 0 }
      else modify fun c => { c with state := .leaderCommitBlocked }

/-! ### Frames -/

/-- The `Prepare` branch of `handle_frame`, past its guards: drain, journal, report. -/
def prepareFor (term : ℕ) : HandoffM Unit := do
  match ← beginDistributedHandoff with
  | none => pure ()
  | some drained => do
    modify fun c => { c with activeTerm := term }
    if ← persist .prepared term drained drained.componentTotal then
      modify fun c => { c with
        prepared := [(c.config.componentId, drained)]
        state := .followerPrepared }
      let started ← clockNow
      modify fun c => { c with prepareDeadline := started + c.config.prepareTimeout }
      sendToComponent .prepared (← get).config.leaderComponentId term drained.counter
        drained.epoch drained.componentTotal
    else
      abortDistributedHandoff
      modify fun c => { c with activeTerm := 0 }

/-- The `Prepare` branch of `handle_frame`. -/
def handlePrepare (frame : Frame) : HandoffM Unit := do
  let c ← get
  if frame.sender ≠ c.config.leaderComponentId ∨
      frame.strictOwner ≠ c.config.strictOwnerComponentId then pure ()
  -- once a commit record is being installed the gate is frozen
  else if c.state = .followerCommitting ∨ c.state = .leaderCommitBlocked ∨
      c.state = .leaderCommitting then pure ()
  -- a delayed prepare must not roll a participant back
  else if (c.state = .followerPrepared ∧ frame.term < c.activeTerm) ∨
      frame.term < c.lastCommittedTerm then pure ()
  else if c.state = .followerPrepared ∧ frame.term = c.activeTerm then
    let drained ← preparedAt c.config.componentId
    sendToComponent .prepared c.config.leaderComponentId c.activeTerm drained.counter
      drained.epoch drained.componentTotal
  else
    if c.state ≠ .idle then abortPrepare false
    prepareFor frame.term

/-- The `Prepared` branch of `handle_frame`. -/
def handlePrepared (frame : Frame) : HandoffM Unit := do
  let c ← get
  if !c.isLeader || c.state ≠ .leaderPreparing || frame.term ≠ c.activeTerm then pure ()
  else
    modify fun c => { c with
      prepared := assign frame.sender ⟨frame.counter, frame.epoch, frame.value⟩ c.prepared }
    tryBeginCommit

/-- The `Commit` branch of `handle_frame`. -/
def handleCommit (frame : Frame) : HandoffM Unit := do
  let c ← get
  if frame.sender ≠ c.config.leaderComponentId ∨
      frame.strictOwner ≠ c.config.strictOwnerComponentId then pure ()
  else if frame.term = c.lastCommittedTerm then
    sendToComponent .commitAck c.config.leaderComponentId frame.term frame.counter frame.epoch
      frame.value
  else if (c.state ≠ .followerPrepared ∧ c.state ≠ .followerCommitting) ∨
      frame.term ≠ c.activeTerm then pure ()
  else
    modify fun c => { c with state := .followerCommitting }
    if ← persist .committed frame.term ⟨frame.counter, frame.epoch, frame.value⟩ frame.value then
      if ← commitDistributedHandoff frame.value c.isOwner then
        modify fun c => { c with
          lastCommittedTerm := frame.term
          state := .idle
          activeTerm := 0 }
        sendToComponent .commitAck c.config.leaderComponentId frame.term frame.counter
          frame.epoch frame.value

/-- The `CommitAck` branch of `handle_frame`. -/
def handleCommitAck (frame : Frame) : HandoffM Unit := do
  let c ← get
  if !c.isLeader || c.state ≠ .leaderCommitting || frame.term ≠ c.activeTerm then pure ()
  else
    modify fun c => { c with commitAcks := c.commitAcks.insert frame.sender }
    if (← get).allCommitAcked then
      modify fun c => { c with
        lastCommittedTerm := c.activeTerm
        state := .idle
        activeTerm := 0 }

/-- The `Abort` branch of `handle_frame`. -/
def handleAbort (frame : Frame) : HandoffM Unit := do
  let c ← get
  if frame.sender = c.config.leaderComponentId ∧ frame.term = c.activeTerm ∧
      c.state = .followerPrepared then abortPrepare false

/-- `handle_frame`. -/
def handleFrame (frame : Frame) (source : Endpoint) : HandoffM Unit := do
  let c ← get
  if c.recoveryFenced then pure ()
  else if frame.sender = c.config.componentId ∨ !c.isMember frame.sender then pure ()
  else if c.peers.lookup frame.sender ≠ some source then pure ()
  else
    match frame.type with
    | .trigger => if c.isLeader then beginLeaderPrepare else pure ()
    | .prepare => handlePrepare frame
    | .prepared => handlePrepared frame
    | .commit => handleCommit frame
    | .commitAck => handleCommitAck frame
    | .abort => handleAbort frame

/-! ### Ticks -/

/-- The part of `tick` that starts a handoff when the local capacity runs low. -/
def triggerHandoff (now : ℕ) : HandoffM Unit := do
  let c ← get
  if c.recoveryFenced || c.state ≠ .idle then pure ()
  else if (← engineMode) ≠ .reservedPeak then pure ()
  else if c.engine.localPeak < c.engine.limit then
    let localTotal ← currentPeakTotal
    if (c.engine.localPeak + 2 ^ 64 - localTotal) % 2 ^ 64 ≤ c.engine.dangerThreshold then
      if c.isLeader then beginLeaderPrepare
      else if now ≥ c.nextTrigger then
        sendToComponent .trigger c.config.leaderComponentId 0 0 0 0
        modify fun c => { c with nextTrigger := now + c.config.retryAfter }

/-- The part of `tick` that times out and retries. -/
def retryPhase (now : ℕ) : HandoffM Unit := do
  let c ← get
  if c.state = .leaderPreparing then
    if now ≥ c.prepareDeadline then abortPrepare true
    else if now ≥ c.nextRetry then
      let drained ← preparedAt c.config.componentId
      broadcast .prepare c.activeTerm drained.counter drained.epoch drained.componentTotal
      modify fun c => { c with nextRetry := now + c.config.retryAfter }
  else if c.state = .followerPrepared then
    if now ≥ c.prepareDeadline then abortPrepare false
    else if now ≥ c.nextRetry then
      let drained ← preparedAt c.config.componentId
      sendToComponent .prepared c.config.leaderComponentId c.activeTerm drained.counter
        drained.epoch drained.componentTotal
      modify fun c => { c with nextRetry := now + c.config.retryAfter }
  else if c.state = .leaderCommitting ∧ now ≥ c.nextRetry then
    sendEach .commit c.activeTerm c.committedCounter c.committedEpoch c.committedTotal
      (c.peers.filter fun peer => !c.commitAcks.contains peer.1)
    modify fun c => { c with nextRetry := now + c.config.retryAfter }

/-- `tick` at a clock reading. -/
def tick (now : ℕ) : HandoffM Unit := do
  triggerHandoff now
  retryPhase now

/-- `DistributedHandoffController::stop`, once the worker has been joined. -/
def stop : HandoffM Unit := do
  let c ← get
  if c.state = .leaderPreparing ∨ c.state = .followerPrepared then abortPrepare false

end Impl

end HotCounter
