import HotCounter.Foundation.Transition
import HotCounter.Replication.Replicator

/-!
# Replicators on a network

Any number of replicators that exchange datagrams. The network keeps every datagram ever sent:
delivering one at any later time, any number of times, in any order or never is how it loses,
duplicates, delays and reorders them. Beside the replicators the system records what has been
published anywhere, which snapshots each node has received, and how often each node has reset
its sequence numbers: every snapshot is tagged with that count, and an acknowledgement with the
tag of the snapshot it answers. The code sees no tags.
-/

namespace HotCounter

namespace Replication

open Foundation Foundation.Assoc

/-! ### What the functions of a replicator do -/

namespace Replicator

variable {r r' : Replicator}

/-- The value merged under a key, zero if there is none. -/
def merged (r : Replicator) (key : ComponentKey) : ℕ :=
  (find r.components key).getD 0

/-- The value the code reads for a component is the entry of its key. -/
theorem componentValue_eq (r : Replicator) (counter epoch component : ℕ) :
    r.componentValue counter epoch component = r.merged ⟨counter, epoch, component⟩ := by
  unfold componentValue merged
  split <;> simp_all

/-- Observing a value takes the maximum under its own key only. -/
theorem find_observe (m : List (ComponentKey × ℕ)) (key k : ComponentKey) (value : ℕ) :
    (find (observe m key value) k).getD 0 =
      if k = key then max ((find m k).getD 0) value else (find m k).getD 0 := by
  unfold observe
  by_cases hk : k = key
  · subst hk
    cases hfind : find m k with
    | none => simp [find_append_new hfind]
    | some observed => simp [find_assign_self hfind]
  · cases hfind : find m key with
    | none => simp [find_append_new hfind, hk]
    | some observed => simp [find_assign_ne hk, hk]

/-- Observing a value keeps one entry per key. -/
theorem keyed_observe {m : List (ComponentKey × ℕ)} (h : Keyed m) (key : ComponentKey)
    (value : ℕ) : Keyed (observe m key value) := by
  unfold observe
  split
  · rename_i hnone
    exact h.append_new hnone
  · exact h.assign

/-- Observing a value adds no other key. -/
theorem mem_observe {m : List (ComponentKey × ℕ)} {key : ComponentKey} {value : ℕ}
    {entry : ComponentKey × ℕ} (h : entry ∈ observe m key value) :
    entry ∈ m ∨ entry.1 = key := by
  unfold observe at h
  split at h
  · rcases List.mem_append.mp h with h | h
    · exact .inl h
    · rw [List.mem_singleton.mp h]
      exact .inr rfl
  · rcases mem_of_mem_assign h with h | h
    · exact .inl h
    · rw [h]
      exact .inr rfl

/-- Only updates that were popped are coalesced. -/
theorem mem_coalesced {taken : List ReplicationUpdate} : ∀ {start : List (ComponentKey × _)}
    {update : ReplicationUpdate}, update ∈ (taken.foldl coalesce start).map Prod.snd →
      update ∈ start.map Prod.snd ∨ update ∈ taken := by
  induction taken with
  | nil => exact fun h => .inl h
  | cons next taken ih =>
    intro start update h
    rcases ih h with h | h
    · have hcases : ∀ entry ∈ coalesce start next, entry ∈ start ∨ entry = (next.key, next) := by
        intro entry hentry
        unfold coalesce at hentry
        split at hentry
        · exact mem_of_mem_emplace hentry
        · split at hentry
          · exact mem_of_mem_assign hentry
          · exact .inl hentry
      obtain ⟨entry, hentry, rfl⟩ := List.mem_map.mp h
      rcases hcases entry hentry with hentry | rfl
      · exact .inl (List.mem_map_of_mem hentry)
      · exact .inr List.mem_cons_self
    · exact .inr (List.mem_cons_of_mem _ h)

/-- The three things a received datagram can do. -/
theorem receive_cases {bytes : List UInt8} {source : SockAddr} {sent : List Datagram}
    (h : r.receive bytes source = (r', sent)) :
    (decodeFrame (bytes.take kFrameSize) = none ∧ r' = r ∧ sent = []) ∨
    (∃ frame, decodeFrame (bytes.take kFrameSize) = some frame ∧ frame.type = .ack ∧
      r' = r.receiveAck frame source ∧ sent = []) ∨
    (∃ frame, decodeFrame (bytes.take kFrameSize) = some frame ∧ frame.type = .snapshot ∧
      r' = { r with
        components := observe r.components frame.key frame.value
        receivedCount := (r.receivedCount + 1) % 2 ^ 64 } ∧
      sent = [⟨source, encodeFrame ⟨.ack, r.config.componentId % 2 ^ 16, frame.sequence, 0, 0, 0⟩⟩])
    := by
  unfold receive at h
  split at h
  · rename_i hdecode
    obtain ⟨rfl, rfl⟩ := Prod.mk.inj h
    exact .inl ⟨hdecode, rfl, rfl⟩
  · rename_i frame hdecode
    split at h
    · rename_i htype
      obtain ⟨rfl, rfl⟩ := Prod.mk.inj h
      exact .inr (.inl ⟨frame, hdecode, htype, rfl, rfl⟩)
    · rename_i htype
      obtain ⟨rfl, rfl⟩ := Prod.mk.inj h
      exact .inr (.inr ⟨frame, hdecode, htype, rfl, rfl⟩)

/-- An acknowledgement only ever removes a pending snapshot. -/
theorem receiveAck_eq (r : Replicator) (frame : Frame) (source : SockAddr) :
    ∃ pending acknowledgedCount, pending.Sublist r.pending ∧
      r.receiveAck frame source = { r with pending, acknowledgedCount } := by
  unfold receiveAck
  split
  · exact ⟨r.pending, _, .refl _, rfl⟩
  · split
    · exact ⟨_, _, erase_sublist _ _, rfl⟩
    · exact ⟨r.pending, _, .refl _, rfl⟩

/-- `start` gets as far as resetting the sequence numbers. -/
def resets (r : Replicator) : Prop :=
  r.running = false ∧ r.config.componentId ≤ 65535 ∧ r.config.maxPending ≠ 0

instance (r : Replicator) : Decidable r.resets :=
  inferInstanceAs (Decidable (_ ∧ _ ∧ _))

/-- The object after a call, whether it returned or threw. -/
def left (outcome : EStateM.Result ReplicatorError Replicator Unit) : Replicator :=
  match outcome with
  | .ok _ r' => r'
  | .error _ r' => r'

/-- The replicator after a call of `start`. -/
def started (answers : SocketAnswers) (r : Replicator) : Replicator :=
  left ((start answers).run r)

/-- What opening the socket does not change. -/
structure Keeps (r r' : Replicator) : Prop where
  config : r'.config = r.config
  outbound : r'.outbound = r.outbound
  components : r'.components = r.components
  pending : r'.pending = r.pending
  nextSequence : r'.nextSequence = r.nextSequence
  droppedCount : r'.droppedCount = r.droppedCount
  acknowledgedCount : r'.acknowledgedCount = r.acknowledgedCount

/-- A replicator keeps what it has when nothing happens. -/
theorem Keeps.refl (r : Replicator) : Keeps r r := ⟨rfl, rfl, rfl, rfl, rfl, rfl, rfl⟩

/-- Two steps that keep it keep it in sequence. -/
theorem Keeps.trans {r'' : Replicator} (h : Keeps r r') (h' : Keeps r' r'') : Keeps r r'' :=
  ⟨h'.config.trans h.config, h'.outbound.trans h.outbound, h'.components.trans h.components,
    h'.pending.trans h.pending, h'.nextSequence.trans h.nextSequence,
    h'.droppedCount.trans h.droppedCount, h'.acknowledgedCount.trans h.acknowledgedCount⟩

/-- A program keeps what its two parts keep, also when the first one throws. -/
theorem keeps_bind {x y : EStateM ReplicatorError Replicator Unit}
    (hx : ∀ r, Keeps r (left (x.run r))) (hy : ∀ r, Keeps r (left (y.run r))) (r : Replicator) :
    Keeps r (left ((x >>= fun _ => y).run r)) := by
  have hr := hx r
  simp only [EStateM.run, bind, EStateM.bind] at hr ⊢
  cases hrun : x r with
  | ok _ r' =>
    rw [hrun] at hr
    exact hr.trans (hy r')
  | error e r' =>
    rw [hrun] at hr
    exact hr

theorem keeps_require (check : Bool) (error : ReplicatorError) (r : Replicator) :
    Keeps r (left ((require check error).run r)) := by
  cases check with
  | true => exact .refl r
  | false => exact .refl r

theorem keeps_resolvePeers (answers : SocketAnswers) : ∀ (peers : List UdpPeer) (r : Replicator),
    Keeps r (left ((resolvePeers answers peers).run r))
  | [], r => .refl r
  | peer :: rest, r => by
    rw [resolvePeers]
    split
    · exact .refl r
    · exact keeps_bind (fun _ => ⟨rfl, rfl, rfl, rfl, rfl, rfl, rfl⟩)
        (keeps_resolvePeers answers rest) r

/-- Opening the socket touches the peers alone. -/
theorem keeps_openSocket (answers : SocketAnswers) (peers : List UdpPeer) (r : Replicator) :
    Keeps r (left ((openSocket answers peers).run r)) :=
  keeps_bind (keeps_require _ _) (keeps_bind (keeps_require _ _) (keeps_bind (keeps_require _ _)
    (keeps_bind (keeps_require _ _) (keeps_bind (keeps_require _ _)
      (keeps_bind (keeps_resolvePeers answers peers)
        fun _ => ⟨rfl, rfl, rfl, rfl, rfl, rfl, rfl⟩))))) r

/-- A start from rest forgets what was pending and numbers from 1 again. -/
theorem start_run_of_resets (answers : SocketAnswers) (h : r.resets) :
    (start answers).run r =
      (openSocket answers r.config.peers).run
        { r with peers := [], pending := [], nextSequence := 1 } := by
  obtain ⟨hrunning, hid, hmax⟩ := h
  simp [start, EStateM.run, bind, EStateM.bind, get, getThe, MonadStateOf.get, EStateM.get,
    require, set, EStateM.set, pure, EStateM.pure, hrunning, hid, hmax]

/-- A start that is refused changes nothing. -/
theorem started_of_not_resets (answers : SocketAnswers) (h : ¬r.resets) :
    r.started answers = r := by
  unfold started
  by_cases hrunning : r.running = true
  · simp [start, EStateM.run, bind, EStateM.bind, get, getThe, MonadStateOf.get, EStateM.get,
      pure, EStateM.pure, hrunning, left]
  · by_cases hid : r.config.componentId ≤ 65535
    · have hmax : r.config.maxPending = 0 := by
        by_contra hmax
        exact h ⟨by simpa using hrunning, hid, hmax⟩
      simp [start, EStateM.run, bind, EStateM.bind, get, getThe, MonadStateOf.get, EStateM.get,
        require, pure, EStateM.pure, throw, throwThe, MonadExceptOf.throw, EStateM.throw,
        hrunning, hid, hmax, left]
    · simp [start, EStateM.run, bind, EStateM.bind, get, getThe, MonadStateOf.get, EStateM.get,
        require, throw, throwThe, MonadExceptOf.throw, EStateM.throw, hrunning, hid, left]

/-- **What `start` does**: it resets the pending snapshots and the sequence numbers, or it
leaves the replicator alone; the merged components, the outbound queue and the statistics
survive. -/
theorem started_cases (answers : SocketAnswers) (r : Replicator) :
    (r.resets ∧ Keeps { r with peers := [], pending := [], nextSequence := 1 }
      (r.started answers)) ∨ (¬r.resets ∧ r.started answers = r) := by
  by_cases h : r.resets
  · refine .inl ⟨h, ?_⟩
    rw [started, start_run_of_resets answers h]
    exact keeps_openSocket answers _ _
  · exact .inr ⟨h, started_of_not_resets answers h⟩

end Replicator

/-! ### The system -/

/-- A datagram on the network. -/
structure Packet where
  source : SockAddr
  destination : SockAddr
  bytes : List UInt8
  session : ℕ
  deriving DecidableEq, Repr

/-- The snapshot frame that a packet delivers, if it delivers one. -/
def Packet.snapshot (p : Packet) : Option Frame :=
  (decodeFrame (p.bytes.take kFrameSize)).filter fun frame => frame.type = .snapshot

/-- The replicators, the network between them, and what is recorded of a run. -/
structure Network (ι : Type*) where
  nodes : ι → Replicator
  packets : List Packet
  session : ι → ℕ
  published : List ReplicationUpdate
  delivered : ι → List Frame

/-- The steps of a node. A step of its worker names what the environment decides: how many pops
succeed and in which order a map is visited, which datagram arrives, which pending snapshot has
expired. -/
inductive NetworkAction (ι : Type*)
  | publish (i : ι) (update : ReplicationUpdate) (pushed : Bool)
  | drain (i : ι) (taken : ℕ) (order : List ReplicationUpdate)
  | receive (i : ι) (packet : ℕ)
  | retry (i : ι) (sequence : ℕ)
  | start (i : ι) (answers : SocketAnswers)
  | stop (i : ι)

namespace Network

variable {ι : Type*} [DecidableEq ι]

/-- Before anything has happened. -/
def new (config : ι → UdpReplicationConfig) : Network ι where
  nodes i := { config := config i }
  packets := []
  session _ := 0
  published := []
  delivered _ := []

/-- Node `i` becomes `r` and sends datagrams from its address. -/
def advance (address : ι → SockAddr) (w : Network ι) (i : ι) (session : ℕ)
    (result : Replicator × List Datagram) : Network ι :=
  { w with
    nodes := Function.update w.nodes i result.1
    packets := w.packets ++
      result.2.map fun d => ⟨address i, d.destination, d.bytes, session⟩ }

/-- One step of the system in which node `i` is bound to `address i`. -/
def step (address : ι → SockAddr) (w : Network ι) : NetworkAction ι → Option (Network ι)
  | .publish i update pushed => some
      { w with
        nodes := Function.update w.nodes i ((w.nodes i).publish update pushed)
        published := w.published ++ [update] }
  | .drain i taken order =>
    if (w.nodes i).running then
      ((w.nodes i).drainOutbound taken order).map (w.advance address i (w.session i))
    else none
  | .receive i packet =>
    match w.packets[packet]? with
    | none => none
    | some p =>
      if (w.nodes i).running ∧ p.destination = address i then some
        { w.advance address i p.session ((w.nodes i).receive p.bytes p.source) with
          delivered := Function.update w.delivered i
            (w.delivered i ++ p.snapshot.toList) }
      else none
  | .retry i sequence =>
    if (w.nodes i).running then
      some (w.advance address i (w.session i) ((w.nodes i).retryExpired sequence))
    else none
  | .start i answers => some
      { w with
        nodes := Function.update w.nodes i ((w.nodes i).started answers)
        session := Function.update w.session i
          (if (w.nodes i).resets then w.session i + 1 else w.session i) }
  | .stop i => some { w with nodes := Function.update w.nodes i (w.nodes i).stop }

/-! ### Sending one snapshot at a time -/

section Advance

variable {address : ι → SockAddr} {w : Network ι} {i : ι} {session : ℕ}
  {result : Replicator × List Datagram}

@[simp]
theorem advance_nodes :
    (w.advance address i session result).nodes = Function.update w.nodes i result.1 := rfl

@[simp]
theorem advance_packets : (w.advance address i session result).packets = w.packets ++
    result.2.map fun d => ⟨address i, d.destination, d.bytes, session⟩ := rfl

@[simp]
theorem advance_session : (w.advance address i session result).session = w.session := rfl

@[simp]
theorem advance_published : (w.advance address i session result).published = w.published := rfl

@[simp]
theorem advance_delivered : (w.advance address i session result).delivered = w.delivered := rfl

/-- A packet in flight was there before or has just been sent. -/
theorem mem_advance_packets {p : Packet} (h : p ∈ (w.advance address i session result).packets) :
    p ∈ w.packets ∨ ∃ d ∈ result.2, p = ⟨address i, d.destination, d.bytes, session⟩ := by
  rcases List.mem_append.mp h with h | h
  · exact .inl h
  · obtain ⟨d, hd, rfl⟩ := List.mem_map.mp h
    exact .inr ⟨d, hd, rfl⟩

private theorem advance_nil : w.advance address i session (w.nodes i, []) = w := by
  simp [advance]

private theorem advance_sendSnapshots (newest : ReplicationUpdate) (peer : SockAddr)
    (rest : List (ReplicationUpdate × SockAddr)) (r : Replicator) :
    w.advance address i session (Replicator.sendSnapshots ((newest, peer) :: rest) r) =
      (w.advance address i session (Replicator.sendSnapshot newest peer r)).advance address i
        session (Replicator.sendSnapshots rest (Replicator.sendSnapshot newest peer r).1) := by
  simp [advance, Replicator.sendSnapshots]

/-- What holds before the loops of `drain_outbound` and is kept by each of their turns holds
after them; `P k` may count the turns that are left. -/
theorem sendSnapshots_induction {P : ℕ → Network ι → Prop} :
    ∀ (l : List (ReplicationUpdate × SockAddr)) (w : Network ι),
      (∀ k w newest peer, (newest, peer) ∈ l → P (k + 1) w →
        P k (w.advance address i (w.session i) (Replicator.sendSnapshot newest peer (w.nodes i)))) →
      P l.length w →
      P 0 (w.advance address i (w.session i) (Replicator.sendSnapshots l (w.nodes i)))
  | [], w, _, h => by
    rw [Replicator.sendSnapshots, advance_nil]
    exact h
  | (newest, peer) :: rest, w, hstep, h => by
    have hfirst := hstep rest.length w newest peer List.mem_cons_self h
    have hrest := sendSnapshots_induction rest _
      (fun k w newest peer hmem => hstep k w newest peer (List.mem_cons_of_mem _ hmem)) hfirst
    rw [advance_sendSnapshots]
    rwa [advance_session, advance_nodes, Function.update_self] at hrest

/-- Node `i` has popped updates from its queue. -/
def popped (w : Network ι) (i : ι) (taken : ℕ) : Network ι :=
  { w with
    nodes := Function.update w.nodes i
      { w.nodes i with outbound := (w.nodes i).outbound.drop taken } }

/-- The induction over a whole `drain_outbound`: the updates that are sent were popped. -/
theorem drain_induction {P : ℕ → Network ι → Prop} {taken : ℕ} {order : List ReplicationUpdate}
    (hs : (w.nodes i).drainOutbound taken order = some result)
    (hpopped : P (order.product (w.nodes i).peers).length (w.popped i taken))
    (hstep : ∀ k v newest peer, newest ∈ (w.nodes i).outbound → P (k + 1) v →
      P k (v.advance address i (v.session i)
        (Replicator.sendSnapshot newest peer (v.nodes i)))) :
    P 0 (w.advance address i (w.session i) result) := by
  unfold Replicator.drainOutbound at hs
  simp only at hs
  split at hs
  · rename_i hperm
    obtain rfl := Option.some.inj hs
    have hloop := sendSnapshots_induction (order.product (w.nodes i).peers) (w.popped i taken)
      (fun k v newest peer hpair hv => by
        have horder := (List.pair_mem_product.mp hpair).1
        rcases Replicator.mem_coalesced (hperm.mem_iff.mp horder) with hnil | htaken
        · exact absurd hnil List.not_mem_nil
        · exact hstep k v newest peer (List.mem_of_mem_take htaken) hv) hpopped
    have hself : (w.popped i taken).nodes i =
        { w.nodes i with outbound := (w.nodes i).outbound.drop taken } :=
      Function.update_self _ _ _
    have hsame : ∀ result, (w.popped i taken).advance address i (w.session i) result =
        w.advance address i (w.session i) result := fun result => by
      simp [advance, popped]
    rw [hself] at hloop
    exact hsame _ ▸ hloop
  · cases hs

end Advance

/-! ### A sender and a receiver on one host -/

/-- The sender is node 0 and has node 1 as its only peer. -/
def loopbackConfig (i : Fin 2) : UdpReplicationConfig :=
  if i.val = 0 then { bindPort := 31991, peers := [⟨"127.0.0.1", 31992⟩], bindHost := "127.0.0.1" }
  else { componentId := 1, bindPort := 31992, bindHost := "127.0.0.1" }

/-- Two nodes on one host, told apart by their ports. -/
def loopbackAddress (i : Fin 2) : SockAddr :=
  ⟨2130706433, if i.val = 0 then 31991 else 31992⟩

/-- Every call of `start` succeeds. -/
def loopbackAnswers : SocketAnswers where
  resolve peer := some ⟨2130706433, peer.port⟩

end Network

end Replication

end HotCounter
