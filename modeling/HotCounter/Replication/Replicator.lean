import HotCounter.Config.Runtime
import HotCounter.Foundation.Assoc
import HotCounter.Replication.Wire

/-!
# The replicator of one node

`ReliableUdpReplicator::Impl` and the functions its worker thread runs. The hash maps are
association lists with one entry per key; wherever the code iterates over one, the order is a
parameter. Time enters only through which pending snapshots have expired, and sending is the
list of datagrams a function hands to the socket. Of the statistics counters `sent_count` is left
out, which counts what the socket took, and `coalesced`, which is empty whenever `drain_outbound`
is not running, is local to it.
-/

namespace HotCounter

namespace Replication

/-- The address and port of a `sockaddr_in`. -/
structure SockAddr where
  address : ℕ
  port : ℕ
  deriving DecidableEq, Repr

/-- `Impl::ComponentKey`. -/
structure ComponentKey where
  counter : ℕ
  epoch : ℕ
  component : ℕ
  deriving DecidableEq, Repr

/-- `Impl::Pending`, without its clock reading. -/
structure Pending where
  bytes : List UInt8
  peer : SockAddr
  attempts : ℕ
  deriving DecidableEq, Repr

/-- A datagram handed to the socket. -/
structure Datagram where
  destination : SockAddr
  bytes : List UInt8
  deriving DecidableEq, Repr

/-- The exceptions thrown by `ReliableUdpReplicator::start`. -/
inductive ReplicatorError
  | invalidArgument (what : String)
  | runtimeError (what : String)
  | systemError (what : String)
  deriving DecidableEq, Repr

/-- `ReliableUdpReplicator::Impl`. -/
structure Replicator where
  config : UdpReplicationConfig
  outbound : List ReplicationUpdate := []
  peers : List SockAddr := []
  pending : List (ℕ × Pending) := []
  components : List (ComponentKey × ℕ) := []
  nextSequence : ℕ := 1
  running : Bool := false
  queuedCount : ℕ := 0
  droppedCount : ℕ := 0
  acknowledgedCount : ℕ := 0
  retriedCount : ℕ := 0
  receivedCount : ℕ := 0

/-- The answers of the operating system to the calls of `start`. -/
structure SocketAnswers where
  socket : Bool := true
  nonBlocking : Bool := true
  bindAddress : Bool := true
  bind : Bool := true
  getsockname : Bool := true
  resolve : UdpPeer → Option SockAddr

end Replication

/-- The key under which an update is coalesced and merged. -/
def ReplicationUpdate.key (update : ReplicationUpdate) : Replication.ComponentKey :=
  ⟨update.counter, update.epoch, update.component⟩

namespace Replication

open Foundation Foundation.Assoc

/-- The key of a received snapshot. -/
def Frame.key (frame : Frame) : ComponentKey :=
  ⟨frame.counter, frame.epoch, frame.component⟩

namespace Replicator

/-- The capacity of the outbound queue. -/
def outboundCapacity : ℕ := 65536

/-- `ReliableUdpReplicator::publish`. A push may fail when the queue is full or a cell of it is
still being released. -/
def publish (r : Replicator) (update : ReplicationUpdate) (pushed : Bool) : Replicator :=
  if pushed ∧ r.outbound.length < outboundCapacity then
    { r with outbound := r.outbound ++ [update], queuedCount := (r.queuedCount + 1) % 2 ^ 64 }
  else { r with droppedCount := (r.droppedCount + 1) % 2 ^ 64 }

/-! ### Sending -/

/-- One turn of the first loop of `drain_outbound`. -/
def coalesce (coalesced : List (ComponentKey × ReplicationUpdate)) (update : ReplicationUpdate) :
    List (ComponentKey × ReplicationUpdate) :=
  match find coalesced update.key with
  | none => emplace coalesced update.key update
  | some newest =>
    if update.value > newest.value then assign coalesced update.key update else coalesced

/-- The snapshot frame of an update. -/
def snapshotFrame (sequence : ℕ) (newest : ReplicationUpdate) : Frame :=
  ⟨.snapshot, newest.component % 2 ^ 16, sequence, newest.counter, newest.epoch, newest.value⟩

/-- The body of the inner loop of `drain_outbound`. -/
def sendSnapshot (newest : ReplicationUpdate) (peer : SockAddr) (r : Replicator) :
    Replicator × List Datagram :=
  if r.pending.length ≥ r.config.maxPending then
    ({ r with droppedCount := (r.droppedCount + 1) % 2 ^ 64 }, [])
  else
    let sequence := r.nextSequence
    let bytes := encodeFrame (snapshotFrame sequence newest)
    ({ r with
        nextSequence := (sequence + 1) % 2 ^ 64
        pending := emplace r.pending sequence ⟨bytes, peer, 0⟩ },
      [⟨peer, bytes⟩])

/-- The nested loops of `drain_outbound` over the coalesced updates and the peers. -/
def sendSnapshots : List (ReplicationUpdate × SockAddr) → Replicator → Replicator × List Datagram
  | [], r => (r, [])
  | (newest, peer) :: rest, r =>
    let (r', sent) := sendSnapshot newest peer r
    let (r'', sent') := sendSnapshots rest r'
    (r'', sent ++ sent')

/-- `drain_outbound` when `taken` pops succeed and the coalesced updates are visited in the
given order. -/
def drainOutbound (r : Replicator) (taken : ℕ) (order : List ReplicationUpdate) :
    Option (Replicator × List Datagram) :=
  let coalesced := (r.outbound.take taken).foldl coalesce []
  if order.Perm (coalesced.map Prod.snd) then
    some (sendSnapshots (order.product r.peers) { r with outbound := r.outbound.drop taken })
  else none

/-- `retry_expired` on one expired entry. -/
def retryExpired (r : Replicator) (sequence : ℕ) : Replicator × List Datagram :=
  match find r.pending sequence with
  | none => (r, [])
  | some message =>
    if message.attempts ≥ r.config.maxRetries then
      ({ r with
          droppedCount := (r.droppedCount + 1) % 2 ^ 64
          pending := erase r.pending sequence }, [])
    else
      ({ r with
          pending := assign r.pending sequence { message with attempts := message.attempts + 1 }
          retriedCount := (r.retriedCount + 1) % 2 ^ 64 },
        [⟨message.peer, message.bytes⟩])

/-! ### Receiving -/

/-- `components[key]` raised to a value. -/
def observe (components : List (ComponentKey × ℕ)) (key : ComponentKey) (value : ℕ) :
    List (ComponentKey × ℕ) :=
  match find components key with
  | none => components ++ [(key, max 0 value)]
  | some observed => assign components key (max observed value)

/-- The body of `receive_all` on an acknowledgement. -/
def receiveAck (r : Replicator) (frame : Frame) (source : SockAddr) : Replicator :=
  match find r.pending frame.sequence with
  | none => r
  | some message =>
    if message.peer = source then
      { r with
        pending := erase r.pending frame.sequence
        acknowledgedCount := (r.acknowledgedCount + 1) % 2 ^ 64 }
    else r

/-- The body of `receive_all` on a snapshot. -/
def receiveSnapshot (r : Replicator) (frame : Frame) (source : SockAddr) :
    Replicator × List Datagram :=
  ({ r with
      components := observe r.components frame.key frame.value
      receivedCount := (r.receivedCount + 1) % 2 ^ 64 },
    [⟨source, encodeFrame ⟨.ack, r.config.componentId % 2 ^ 16, frame.sequence, 0, 0, 0⟩⟩])

/-- One turn of `receive_all`. The socket buffer has the size of a frame, so a longer datagram
is cut off. -/
def receive (r : Replicator) (bytes : List UInt8) (source : SockAddr) :
    Replicator × List Datagram :=
  match decodeFrame (bytes.take kFrameSize) with
  | none => (r, [])
  | some frame =>
    match frame.type with
    | .ack => (r.receiveAck frame source, [])
    | .snapshot => r.receiveSnapshot frame source

/-! ### Lifecycle and queries -/

/-- The loop of `start` over the configured peers. -/
def resolvePeers (answers : SocketAnswers) :
    List UdpPeer → EStateM ReplicatorError Replicator Unit
  | [] => pure ()
  | peer :: rest =>
    match answers.resolve peer with
    | none => throw (.invalidArgument "cannot resolve UDP peer")
    | some endpoint => do
      modify fun r => { r with peers := r.peers ++ [endpoint] }
      resolvePeers answers rest

/-- Throw unless a check passes. -/
def require (check : Bool) (error : ReplicatorError) : EStateM ReplicatorError Replicator Unit :=
  if check then pure () else throw error

/-- `ReliableUdpReplicator::start` from the creation of the socket on. -/
def openSocket (answers : SocketAnswers) (peers : List UdpPeer) :
    EStateM ReplicatorError Replicator Unit := do
  require answers.socket (.runtimeError "cannot create UDP socket")
  require answers.nonBlocking (.runtimeError "cannot make UDP socket non-blocking")
  require answers.bindAddress (.invalidArgument "cannot resolve UDP bind address")
  require answers.bind (.systemError "cannot bind UDP socket")
  require answers.getsockname (.runtimeError "cannot inspect UDP socket")
  resolvePeers answers peers
  modify fun r => { r with running := true }

/-- `ReliableUdpReplicator::start`. -/
def start (answers : SocketAnswers) : EStateM ReplicatorError Replicator Unit := do
  let r ← get
  if r.running then return
  require (r.config.componentId ≤ 65535)
    (.invalidArgument "UDP component id exceeds protocol range")
  require (r.config.maxPending ≠ 0) (.invalidArgument "UDP max pending must be non-zero")
  set { r with peers := [], pending := [], nextSequence := 1 }
  openSocket answers r.config.peers

/-- `ReliableUdpReplicator::stop`. -/
def stop (r : Replicator) : Replicator :=
  { r with running := false }

/-- `ReliableUdpReplicator::component_value`. -/
def componentValue (r : Replicator) (counter epoch component : ℕ) : ℕ :=
  match find r.components ⟨counter, epoch, component⟩ with
  | none => 0
  | some value => value

/-- The loop of `ReliableUdpReplicator::merged_total` over the entries in some order. -/
def mergedTotalFrom (counter epoch : ℕ) : ℕ → List (ComponentKey × ℕ) → ℕ
  | total, [] => total
  | total, (key, value) :: rest =>
    if key.counter ≠ counter ∨ key.epoch ≠ epoch then mergedTotalFrom counter epoch total rest
    else if value > amountMax - total then amountMax
    else mergedTotalFrom counter epoch (total + value) rest

/-- `ReliableUdpReplicator::merged_total` when the map is visited in the given order. -/
def mergedTotal (order : List (ComponentKey × ℕ)) (counter epoch : ℕ) : ℕ :=
  mergedTotalFrom counter epoch 0 order

end Replicator

end Replication

end HotCounter
