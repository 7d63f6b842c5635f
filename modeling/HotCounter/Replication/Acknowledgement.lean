import HotCounter.Replication.Network

/-!
# What an acknowledgement means

A sender drops a pending snapshot when an acknowledgement with its sequence number arrives from
the address it was sent to. Within one session sequence numbers are unique, so such an
acknowledgement answers the very snapshot that is dropped, and the peer has merged it. `start`
resets the numbers while acknowledgements of the previous session may still be under way: then
one of them can take the place of an acknowledgement that was never sent.
-/

namespace HotCounter

namespace Replication

open Foundation Foundation.Assoc

/-- The acknowledgement that a packet delivers, if it delivers one. -/
def Packet.ack (p : Packet) : Option Frame :=
  (decodeFrame (p.bytes.take kFrameSize)).filter fun frame => frame.type = .ack

/-- The pending snapshot that a packet acknowledges: the packet comes from its peer and carries
its number. -/
def Replicator.acknowledged (r : Replicator) (p : Packet) : Option (ℕ × Pending) :=
  p.ack.bind fun frame =>
    ((find r.pending frame.sequence).filter fun message => message.peer = p.source).map
      fun message => (frame.sequence, message)

theorem Packet.snapshot_eq_some {p : Packet} {frame : Frame} :
    p.snapshot = some frame ↔
      decodeFrame (p.bytes.take kFrameSize) = some frame ∧ frame.type = .snapshot := by
  rw [Packet.snapshot, Option.filter_eq_some_iff, decide_eq_true_eq]

theorem Packet.ack_eq_some {p : Packet} {frame : Frame} :
    p.ack = some frame ↔
      decodeFrame (p.bytes.take kFrameSize) = some frame ∧ frame.type = .ack := by
  rw [Packet.ack, Option.filter_eq_some_iff, decide_eq_true_eq]

theorem Packet.snapshot_of_ack {p : Packet} {frame : Frame} (h : p.ack = some frame) :
    p.snapshot = none := by
  obtain ⟨hdecode, htype⟩ := Packet.ack_eq_some.mp h
  simp [Packet.snapshot, hdecode, htype]

theorem Packet.ack_of_snapshot {p : Packet} {frame : Frame} (h : p.snapshot = some frame) :
    p.ack = none := by
  obtain ⟨hdecode, htype⟩ := Packet.snapshot_eq_some.mp h
  simp [Packet.ack, hdecode, htype]

namespace Replicator

/-- **`receive_all` erases a pending snapshot exactly when the packet acknowledges it.** -/
theorem acknowledged_eq_some_iff {r : Replicator} (hkeyed : Keyed r.pending) {p : Packet}
    {entry : ℕ × Pending} :
    r.acknowledged p = some entry ↔
      entry ∈ r.pending ∧ entry ∉ (r.receive p.bytes p.source).1.pending := by
  obtain ⟨r', sent, hreceive⟩ : ∃ r' sent, r.receive p.bytes p.source = (r', sent) := ⟨_, _, rfl⟩
  rw [hreceive]
  -- without an acknowledgement the table stays
  have hkept : r.acknowledged p = none → r'.pending = r.pending →
      (r.acknowledged p = some entry ↔ entry ∈ r.pending ∧ entry ∉ r'.pending) := by
    intro hnone hpending
    rw [hnone, hpending]
    exact ⟨fun h => (nomatch h), fun h => absurd h.1 h.2⟩
  rcases receive_cases hreceive with ⟨hdecode, rfl, rfl⟩ | ⟨frame, hdecode, htype, rfl, rfl⟩ |
    ⟨frame, hdecode, htype, rfl, rfl⟩
  · exact hkept (by simp [acknowledged, Packet.ack, hdecode]) rfl
  · have hack : p.ack = some frame := Packet.ack_eq_some.mpr ⟨hdecode, htype⟩
    unfold receiveAck at hkept ⊢
    cases hfind : find r.pending frame.sequence with
    | none =>
      rw [hfind] at hkept
      exact hkept (by simp [acknowledged, hack, hfind]) rfl
    | some message =>
      rw [hfind] at hkept
      dsimp only at hkept ⊢
      by_cases hpeer : message.peer = p.source
      · have hacked : r.acknowledged p = some (frame.sequence, message) := by
          simp [acknowledged, hack, hfind, hpeer]
        rw [if_pos hpeer, hacked, Option.some_inj, mem_erase_iff]
        constructor
        · rintro rfl
          exact ⟨mem_of_find hfind, fun h => h.2 rfl⟩
        · rintro ⟨hmem, herased⟩
          have hnumber : entry.1 = frame.sequence := not_not.mp fun hne => herased ⟨hmem, hne⟩
          have hfound := hkeyed.find_of_mem hmem
          rw [hnumber, hfind] at hfound
          rw [← hnumber, Option.some.inj hfound]
      · rw [if_neg hpeer] at hkept ⊢
        exact hkept (by simp [acknowledged, hack, hfind, hpeer]) rfl
  · refine hkept ?_ rfl
    rw [acknowledged, Packet.ack_of_snapshot (Packet.snapshot_eq_some.mpr ⟨hdecode, htype⟩)]
    rfl

/-- Merging a snapshot only raises what has been merged. -/
theorem merged_le_observe (r : Replicator) (key k : ComponentKey) (value : ℕ) :
    r.merged k ≤
      ({ r with components := observe r.components key value } : Replicator).merged k := by
  rw [merged, merged, find_observe]
  split
  · exact le_max_left _ _
  · exact le_rfl

theorem le_merged_observe (r : Replicator) (key : ComponentKey) (value : ℕ) :
    value ≤ ({ r with components := observe r.components key value } : Replicator).merged key := by
  rw [merged, find_observe, if_pos rfl]
  exact le_max_right _ _

end Replicator

namespace Network

variable {ι : Type*} [DecidableEq ι] {address : ι → SockAddr} {w w' : Network ι}

/-- The steps that keep sequence numbers apart: an acknowledgement left over from an earlier
session of the sender does not match a pending snapshot, and a session does not run out of
sequence numbers. -/
def Fresh (w : Network ι) : NetworkAction ι → Prop
  | .receive i packet =>
    ∀ p ∈ w.packets[packet]?, (w.nodes i).acknowledged p = none ∨ p.session = w.session i
  | .drain i _ order =>
    (w.nodes i).nextSequence + (order.product (w.nodes i).peers).length < 2 ^ 64
  | _ => True

instance (w : Network ι) : ∀ a, Decidable (Fresh w a)
  | .publish _ _ _ => .isTrue trivial
  | .drain _ _ _ => inferInstanceAs (Decidable (_ < _))
  | .receive i packet => inferInstanceAs (Decidable (∀ p ∈ w.packets[packet]?,
      (w.nodes i).acknowledged p = none ∨ p.session = w.session i))
  | .retry _ _ => .isTrue trivial
  | .start _ _ => .isTrue trivial
  | .stop _ => .isTrue trivial

/-! ### The invariant -/

/-- An acknowledgement on the network answers a snapshot that its sender has merged. -/
def Answers (address : ι → SockAddr) (w : Network ι) (p : Packet) (frame : Frame) : Prop :=
  ∃ j, p.source = address j ∧ ∃ q ∈ w.packets, ∃ frame', q.snapshot = some frame' ∧
    frame'.sequence = frame.sequence ∧ q.source = p.destination ∧ q.destination = p.source ∧
    q.session = p.session ∧ frame'.value ≤ (w.nodes j).merged frame'.key

/-- The invariant of every run that keeps sequence numbers apart. -/
structure Numbered (address : ι → SockAddr) (w : Network ι) : Prop where
  keyed : ∀ i, Keyed (w.nodes i).pending
  /-- A snapshot of the current session has a number that was given out. -/
  snapshots : ∀ p ∈ w.packets, ∀ frame, p.snapshot = some frame → ∀ i, p.source = address i →
    p.session ≤ w.session i ∧
      (p.session = w.session i → frame.sequence < (w.nodes i).nextSequence)
  /-- A number is given to one snapshot in a session. -/
  unique : ∀ p ∈ w.packets, ∀ q ∈ w.packets, ∀ frame frame', p.snapshot = some frame →
    q.snapshot = some frame' → p.source = q.source → p.session = q.session →
      frame.sequence = frame'.sequence → p = q
  /-- A pending snapshot was sent in the current session. -/
  pending : ∀ i, ∀ entry ∈ (w.nodes i).pending,
    (⟨address i, entry.2.peer, entry.2.bytes, w.session i⟩ : Packet) ∈ w.packets ∧
      ∃ frame, Packet.snapshot ⟨address i, entry.2.peer, entry.2.bytes, w.session i⟩ =
        some frame ∧ frame.sequence = entry.1
  acks : ∀ p ∈ w.packets, ∀ frame, p.ack = some frame → w.Answers address p frame

omit [DecidableEq ι] in
theorem Numbered.new (config : ι → UdpReplicationConfig) :
    (Network.new config).Numbered address where
  keyed _ := List.nodup_nil
  snapshots _ h := absurd h List.not_mem_nil
  unique _ h := absurd h List.not_mem_nil
  pending _ _ h := absurd h List.not_mem_nil
  acks _ h := absurd h List.not_mem_nil

/-- A node changes without sending and without giving out numbers: pending snapshots may go,
merged values may grow. -/
theorem Numbered.set_node (h : w.Numbered address) {i : ι} {r : Replicator}
    (hnodes : w'.nodes = Function.update w.nodes i r) (hpackets : w'.packets = w.packets)
    (hsession : w'.session = w.session)
    (hnext : r.nextSequence = (w.nodes i).nextSequence)
    (hpending : r.pending.Sublist (w.nodes i).pending)
    (hmerged : ∀ key, (w.nodes i).merged key ≤ r.merged key) : w'.Numbered address where
  keyed j := by
    rw [hnodes]
    by_cases hji : j = i
    · subst hji
      rw [Function.update_self]
      exact (h.keyed j).sublist hpending
    · rw [Function.update_of_ne hji]
      exact h.keyed j
  snapshots p hp frame hframe j hj := by
    rw [hpackets] at hp
    rw [hsession, hnodes]
    have hold := h.snapshots p hp frame hframe j hj
    by_cases hji : j = i
    · subst hji
      rwa [Function.update_self, hnext]
    · rwa [Function.update_of_ne hji]
  unique := hpackets ▸ h.unique
  pending j entry hentry := by
    rw [hpackets, hsession]
    rw [hnodes] at hentry
    by_cases hji : j = i
    · subst hji
      rw [Function.update_self] at hentry
      exact h.pending j entry (hpending.subset hentry)
    · rw [Function.update_of_ne hji] at hentry
      exact h.pending j entry hentry
  acks p hp frame hframe := by
    obtain ⟨j, hj, q, hq, frame', hframe', hsequence, hsource, hdest, htag, hvalue⟩ :=
      h.acks p (hpackets ▸ hp) frame hframe
    refine ⟨j, hj, q, hpackets ▸ hq, frame', hframe', hsequence, hsource, hdest, htag,
      hvalue.trans ?_⟩
    rw [hnodes]
    by_cases hji : j = i
    · subst hji
      rw [Function.update_self]
      exact hmerged _
    · rw [Function.update_of_ne hji]

omit [DecidableEq ι] in
/-- Sending again what has been sent, or an acknowledgement of a snapshot that is merged. -/
theorem Numbered.add_packet (h : w.Numbered address) {p : Packet}
    (hp : p ∈ w.packets ∨ ∃ frame, p.ack = some frame ∧ w.Answers address p frame) :
    ({ w with packets := w.packets ++ [p] } : Network ι).Numbered address := by
  -- a snapshot among the packets is an old one
  have hold : ∀ q ∈ w.packets ++ [p], ∀ frame, q.snapshot = some frame → q ∈ w.packets := by
    intro q hq frame hframe
    rcases List.mem_append.mp hq with hq | hq
    · exact hq
    · rw [List.mem_singleton.mp hq] at hframe ⊢
      rcases hp with hp | ⟨frame', hack, -⟩
      · exact hp
      · cases (Packet.snapshot_of_ack hack).symm.trans hframe
  refine ⟨h.keyed, fun q hq frame hframe => h.snapshots q (hold q hq frame hframe) frame hframe,
    fun q hq q' hq' frame frame' hframe hframe' => h.unique q (hold q hq frame hframe) q'
      (hold q' hq' frame' hframe') frame frame' hframe hframe',
    fun i entry hentry => ?_, fun q hq frame hframe => ?_⟩
  · obtain ⟨hmem, hframe⟩ := h.pending i entry hentry
    exact ⟨List.mem_append_left _ hmem, hframe⟩
  · have hanswers : w.Answers address q frame := by
      rcases List.mem_append.mp hq with hq | hq
      · exact h.acks q hq frame hframe
      · rw [List.mem_singleton.mp hq] at hframe ⊢
        rcases hp with hp | ⟨frame', hack, hanswers⟩
        · exact h.acks p hp frame hframe
        · obtain rfl := Option.some.inj (hframe.symm.trans hack)
          exact hanswers
    obtain ⟨j, hj, q', hq', hrest⟩ := hanswers
    exact ⟨j, hj, q', List.mem_append_left _ hq', hrest⟩

/-! ### One lemma per kind of step -/

theorem snapshot_snapshotFrame (source destination : SockAddr) (session sequence : ℕ)
    (newest : ReplicationUpdate) :
    Packet.snapshot ⟨source, destination,
      encodeFrame (Replicator.snapshotFrame sequence newest), session⟩ =
        some (Replicator.snapshotFrame sequence newest).onWire :=
  Packet.snapshot_eq_some.mpr ⟨decodeFrame_take_encodeFrame _, rfl⟩

/-- A snapshot is sent under a new number. -/
theorem Numbered.sendSnapshot (hinj : Function.Injective address) (h : w.Numbered address) {i : ι}
    (newest : ReplicationUpdate) (peer : SockAddr)
    (hlt : (w.nodes i).nextSequence + 1 < 2 ^ 64) :
    (w.advance address i (w.session i)
      (Replicator.sendSnapshot newest peer (w.nodes i))).Numbered address ∧
    ((w.advance address i (w.session i)
      (Replicator.sendSnapshot newest peer (w.nodes i))).nodes i).nextSequence ≤
        (w.nodes i).nextSequence + 1 := by
  unfold Replicator.sendSnapshot
  split
  · refine ⟨h.set_node rfl (List.append_nil _) rfl rfl (.refl _) fun _ => le_rfl, ?_⟩
    rw [advance_nodes, Function.update_self]
    exact Nat.le_succ _
  · have hmod : ((w.nodes i).nextSequence + 1) % 2 ^ 64 = (w.nodes i).nextSequence + 1 :=
      Nat.mod_eq_of_lt hlt
    have hwire : (w.nodes i).nextSequence % 2 ^ 64 = (w.nodes i).nextSequence :=
      Nat.mod_eq_of_lt (by omega)
    have hnew := snapshot_snapshotFrame (address i) peer (w.session i) (w.nodes i).nextSequence
      newest
    -- no snapshot of the session has the new number yet
    have hfree : ∀ q ∈ w.packets, ∀ frame, q.snapshot = some frame → q.source = address i →
        q.session = w.session i → frame.sequence ≠ (w.nodes i).nextSequence :=
      fun q hq frame hframe hsource hsession =>
        ((h.snapshots q hq frame hframe i hsource).2 hsession).ne
    refine ⟨⟨fun j => ?_, fun q hq frame hframe j hj => ?_, fun q hq q' hq' frame frame' hframe
      hframe' hsource hsession hsequence => ?_, fun j entry hentry => ?_,
      fun q hq frame hframe => ?_⟩, ?_⟩
    · rw [advance_nodes]
      by_cases hji : j = i
      · subst hji
        rw [Function.update_self]
        exact (h.keyed j).emplace
      · rw [Function.update_of_ne hji]
        exact h.keyed j
    · rw [advance_session, advance_nodes]
      rcases mem_advance_packets hq with hq | ⟨d, hd, rfl⟩
      · obtain ⟨hle, hbelow⟩ := h.snapshots q hq frame hframe j hj
        refine ⟨hle, fun hsession => ?_⟩
        by_cases hji : j = i
        · subst hji
          rw [Function.update_self]
          exact (hbelow hsession).trans ((Nat.lt_succ_self _).trans_eq hmod.symm)
        · rw [Function.update_of_ne hji]
          exact hbelow hsession
      · rw [List.mem_singleton.mp hd] at hframe hj
        obtain rfl : i = j := hinj hj
        refine ⟨le_rfl, fun _ => ?_⟩
        obtain rfl := Option.some.inj (hnew.symm.trans hframe)
        rw [Function.update_self]
        show (w.nodes i).nextSequence % 2 ^ 64 < ((w.nodes i).nextSequence + 1) % 2 ^ 64
        rw [hmod, hwire]
        exact Nat.lt_succ_self _
    · rcases mem_advance_packets hq with hq | ⟨d, hd, rfl⟩ <;>
        rcases mem_advance_packets hq' with hq' | ⟨d', hd', rfl⟩
      · exact h.unique q hq q' hq' frame frame' hframe hframe' hsource hsession hsequence
      · rw [List.mem_singleton.mp hd'] at hframe' hsource hsession
        obtain rfl := Option.some.inj (hnew.symm.trans hframe')
        exact absurd (hsequence.trans hwire) (hfree q hq frame hframe hsource hsession)
      · rw [List.mem_singleton.mp hd] at hframe hsource hsession
        obtain rfl := Option.some.inj (hnew.symm.trans hframe)
        exact absurd (hsequence.symm.trans hwire)
          (hfree q' hq' frame' hframe' hsource.symm hsession.symm)
      · rw [List.mem_singleton.mp hd, List.mem_singleton.mp hd']
    · rw [advance_session]
      rw [advance_nodes] at hentry
      have hpending : entry ∈ (w.nodes j).pending → _ := h.pending j entry
      by_cases hji : j = i
      · subst hji
        rw [Function.update_self] at hentry
        rcases mem_of_mem_emplace hentry with hentry | rfl
        · obtain ⟨hmem, hframe⟩ := hpending hentry
          exact ⟨List.mem_append_left _ hmem, hframe⟩
        · exact ⟨List.mem_append_right _ (List.mem_singleton_self _), _, hnew, hwire⟩
      · rw [Function.update_of_ne hji] at hentry
        obtain ⟨hmem, hframe⟩ := hpending hentry
        exact ⟨List.mem_append_left _ hmem, hframe⟩
    · rcases mem_advance_packets hq with hq | ⟨d, hd, rfl⟩
      · obtain ⟨j, hj, q', hq', frame', hframe', hsequence, hsource, hdest, htag, hvalue⟩ :=
          h.acks q hq frame hframe
        refine ⟨j, hj, q', List.mem_append_left _ hq', frame', hframe', hsequence, hsource, hdest,
          htag, hvalue.trans ?_⟩
        rw [advance_nodes]
        by_cases hji : j = i
        · subst hji
          rw [Function.update_self]
          exact le_rfl
        · rw [Function.update_of_ne hji]
      · rw [List.mem_singleton.mp hd] at hframe
        cases (Packet.ack_of_snapshot hnew).symm.trans hframe
    · rw [advance_nodes, Function.update_self]
      exact hmod.le

theorem Numbered.drain (hinj : Function.Injective address) (h : w.Numbered address) {i : ι}
    {taken : ℕ} {order : List ReplicationUpdate} {result : Replicator × List Datagram}
    (hs : (w.nodes i).drainOutbound taken order = some result)
    (hlt : (w.nodes i).nextSequence + (order.product (w.nodes i).peers).length < 2 ^ 64) :
    (w.advance address i (w.session i) result).Numbered address := by
  have hself : ((w.popped i taken).nodes i).nextSequence = (w.nodes i).nextSequence := by
    show (Function.update w.nodes i _ i).nextSequence = _
    rw [Function.update_self]
  have hpopped : (w.popped i taken).Numbered address :=
    h.set_node rfl rfl rfl rfl (.refl _) fun _ => le_rfl
  have hdrained : (w.advance address i (w.session i) result).Numbered address ∧
      ((w.advance address i (w.session i) result).nodes i).nextSequence + 0 < 2 ^ 64 :=
    drain_induction
      (P := fun k v => v.Numbered address ∧ (v.nodes i).nextSequence + k < 2 ^ 64) hs
      ⟨hpopped, by rwa [hself]⟩ fun k v newest peer _ hv => by
        have hroom : (v.nodes i).nextSequence + (k + 1) < 2 ^ 64 := hv.2
        obtain ⟨hnumbered, hnext⟩ := hv.1.sendSnapshot hinj (i := i) newest peer (by omega)
        exact ⟨hnumbered, by omega⟩
  exact hdrained.1

theorem Numbered.retry (h : w.Numbered address) {i : ι} (sequence : ℕ) :
    (w.advance address i (w.session i) ((w.nodes i).retryExpired sequence)).Numbered address := by
  unfold Replicator.retryExpired
  split
  · exact h.set_node (r := w.nodes i) rfl (List.append_nil _) rfl rfl (.refl _) fun _ => le_rfl
  · rename_i message hfind
    obtain ⟨hsent, frame, hframe, hsequence⟩ := h.pending i _ (mem_of_find hfind)
    split
    · exact h.set_node rfl (List.append_nil _) rfl rfl (erase_sublist _ _) fun _ => le_rfl
    · -- the packet is one that has been sent before
      have hagain := h.add_packet (.inl hsent)
      refine ⟨fun j => ?_, fun p hp frame hframe j hj => ?_, hagain.unique,
        fun j entry hentry => ?_, fun p hp frame hframe => ?_⟩
      · rw [advance_nodes]
        by_cases hji : j = i
        · subst hji
          rw [Function.update_self]
          exact (h.keyed j).assign
        · rw [Function.update_of_ne hji]
          exact h.keyed j
      · have hold := hagain.snapshots p hp frame hframe j hj
        rw [advance_nodes, advance_session]
        by_cases hji : j = i
        · subst hji
          rwa [Function.update_self]
        · rwa [Function.update_of_ne hji]
      · rw [advance_nodes] at hentry
        by_cases hji : j = i
        · subst hji
          rw [Function.update_self] at hentry
          rcases mem_of_mem_assign hentry with hentry | rfl
          · exact hagain.pending j entry hentry
          · exact ⟨List.mem_append_left _ hsent, frame, hframe, hsequence⟩
        · rw [Function.update_of_ne hji] at hentry
          exact hagain.pending j entry hentry
      · obtain ⟨j, hj, q, hq, frame', hrest⟩ := hagain.acks p hp frame hframe
        refine ⟨j, hj, q, hq, frame', ?_⟩
        rw [advance_nodes]
        by_cases hji : j = i
        · subst hji
          rw [Function.update_self]
          exact hrest
        · rw [Function.update_of_ne hji]
          exact hrest

theorem Numbered.start (h : w.Numbered address) {i : ι} (answers : SocketAnswers) :
    ({ w with
      nodes := Function.update w.nodes i ((w.nodes i).started answers)
      session := Function.update w.session i
        (if (w.nodes i).resets then w.session i + 1 else w.session i) } :
          Network ι).Numbered address := by
  rcases (w.nodes i).started_cases answers with ⟨hresets, hkeeps⟩ | ⟨hresets, hsame⟩
  · rw [if_pos hresets]
    refine ⟨fun j => ?_, fun p hp frame hframe j hj => ?_, h.unique, fun j entry hentry => ?_,
      fun p hp frame hframe => ?_⟩
    · show Keyed (Function.update w.nodes i _ j).pending
      by_cases hji : j = i
      · subst hji
        rw [Function.update_self, hkeeps.pending]
        exact List.nodup_nil
      · rw [Function.update_of_ne hji]
        exact h.keyed j
    · show p.session ≤ Function.update w.session i (w.session i + 1) j ∧
        (p.session = Function.update w.session i (w.session i + 1) j →
          frame.sequence < (Function.update w.nodes i _ j).nextSequence)
      have hold := h.snapshots p hp frame hframe j hj
      by_cases hji : j = i
      · -- what was sent before belongs to an earlier session
        subst hji
        rw [Function.update_self]
        exact ⟨by omega, fun heq => by omega⟩
      · rwa [Function.update_of_ne hji, Function.update_of_ne hji]
    · replace hentry : entry ∈ (Function.update w.nodes i _ j).pending := hentry
      by_cases hji : j = i
      · subst hji
        rw [Function.update_self, hkeeps.pending] at hentry
        exact absurd hentry List.not_mem_nil
      · rw [Function.update_of_ne hji] at hentry
        have hold := h.pending j entry hentry
        simp only [Function.update_of_ne hji]
        exact hold
    · obtain ⟨j, hj, q, hq, frame', hframe', hsequence, hsource, hdest, htag, hvalue⟩ :=
        h.acks p hp frame hframe
      refine ⟨j, hj, q, hq, frame', hframe', hsequence, hsource, hdest, htag, hvalue.trans ?_⟩
      show _ ≤ (Function.update w.nodes i _ j).merged frame'.key
      by_cases hji : j = i
      · subst hji
        rw [Function.update_self, Replicator.merged, Replicator.merged, hkeeps.components]
      · rw [Function.update_of_ne hji]
  · have hsession : Function.update w.session i (w.session i) = w.session :=
      Function.update_eq_self _ _
    rw [if_neg hresets, hsession, hsame]
    exact h.set_node (r := w.nodes i) rfl rfl rfl rfl (.refl _) fun _ => le_rfl

/-- A datagram arrives. A snapshot is merged before it is acknowledged. -/
theorem Numbered.receive (h : w.Numbered address) {i : ι} {p : Packet} (hp : p ∈ w.packets)
    (hdest : p.destination = address i) (delivered : ι → List Frame) :
    ({ w.advance address i p.session ((w.nodes i).receive p.bytes p.source) with delivered } :
        Network ι).Numbered address := by
  obtain ⟨r', sent, hreceive⟩ : ∃ r' sent, (w.nodes i).receive p.bytes p.source = (r', sent) :=
    ⟨_, _, rfl⟩
  rw [hreceive]
  rcases Replicator.receive_cases hreceive with ⟨-, rfl, rfl⟩ | ⟨frame, -, -, rfl, rfl⟩ |
    ⟨frame, hdecode, htype, rfl, rfl⟩
  · exact h.set_node (r := w.nodes i) rfl (List.append_nil _) rfl rfl (.refl _) fun _ => le_rfl
  · obtain ⟨pending, acknowledgedCount, hsub, heq⟩ := (w.nodes i).receiveAck_eq frame p.source
    rw [heq]
    exact h.set_node rfl (List.append_nil _) rfl rfl hsub fun _ => le_rfl
  · have hsnapshot : p.snapshot = some frame := Packet.snapshot_eq_some.mpr ⟨hdecode, htype⟩
    let r : Replicator := { w.nodes i with
      components := Replicator.observe (w.nodes i).components frame.key frame.value
      receivedCount := ((w.nodes i).receivedCount + 1) % 2 ^ 64 }
    have hmerged : ({ w with nodes := Function.update w.nodes i r } : Network ι).Numbered address :=
      h.set_node rfl rfl rfl rfl (.refl _) fun key =>
        (w.nodes i).merged_le_observe frame.key key frame.value
    have hack : Packet.ack ⟨address i, p.source, encodeFrame
        ⟨.ack, (w.nodes i).config.componentId % 2 ^ 16, frame.sequence, 0, 0, 0⟩, p.session⟩ =
        some (Frame.onWire
          ⟨.ack, (w.nodes i).config.componentId % 2 ^ 16, frame.sequence, 0, 0, 0⟩) :=
      Packet.ack_eq_some.mpr ⟨decodeFrame_take_encodeFrame _, rfl⟩
    have hsequence : frame.sequence = frame.sequence % 2 ^ 64 :=
      (Nat.mod_eq_of_lt (sequence_lt_of_decodeFrame hdecode)).symm
    have hadded := hmerged.add_packet (.inr ⟨_, hack, i, rfl, p, hp, frame, hsnapshot, hsequence,
      rfl, hdest, rfl, by
        show frame.value ≤ (Function.update w.nodes i _ i).merged frame.key
        rw [Function.update_self]
        exact (w.nodes i).le_merged_observe frame.key frame.value⟩)
    exact ⟨hadded.keyed, hadded.snapshots, hadded.unique, hadded.pending, hadded.acks⟩

/-- Every step that keeps sequence numbers apart keeps the invariant. -/
theorem Numbered.step (hinj : Function.Injective address) {a : NetworkAction ι}
    (h : w.Numbered address) (hok : Fresh w a) (hs : w.step address a = some w') :
    w'.Numbered address := by
  cases a with
  | publish i update pushed =>
    obtain rfl := Option.some.inj hs
    unfold Replicator.publish
    split
    · exact h.set_node rfl rfl rfl rfl (.refl _) fun _ => le_rfl
    · exact h.set_node rfl rfl rfl rfl (.refl _) fun _ => le_rfl
  | drain i taken order =>
    simp only [Network.step] at hs
    split at hs
    · obtain ⟨result, hresult, rfl⟩ := Option.map_eq_some_iff.mp hs
      exact h.drain hinj hresult hok
    · cases hs
  | receive i packet =>
    simp only [Network.step] at hs
    split at hs
    · cases hs
    · rename_i p hp
      split at hs
      · rename_i hdelivers
        obtain rfl := Option.some.inj hs
        exact h.receive (List.mem_of_getElem? hp) hdelivers.2 _
      · cases hs
  | retry i sequence =>
    simp only [Network.step] at hs
    split at hs
    · obtain rfl := Option.some.inj hs
      exact h.retry sequence
    · cases hs
  | start i answers =>
    obtain rfl := Option.some.inj hs
    exact h.start answers
  | stop i =>
    obtain rfl := Option.some.inj hs
    exact h.set_node (r := (w.nodes i).stop) rfl rfl rfl rfl (.refl _) fun _ => le_rfl

/-! ### Acknowledged means merged -/

/-- **An acknowledgement means delivery**, in every run in which no acknowledgement of an
earlier session matches a pending snapshot and no session runs out of sequence numbers: when a
received datagram erases a pending snapshot at its sender, the peer it was sent to has merged
that snapshot. -/
theorem ack_means_delivery {config : ι → UdpReplicationConfig}
    (hinj : Function.Injective address)
    (h : Steps (Network.step address) Fresh (Network.new config) w) {i : ι} {packet : ℕ}
    {entry : ℕ × Pending} (hok : Fresh w (.receive i packet))
    (hs : w.step address (.receive i packet) = some w')
    (hpending : entry ∈ (w.nodes i).pending) (herased : entry ∉ (w'.nodes i).pending) :
    ∃ j frame, address j = entry.2.peer ∧
      decodeFrame (entry.2.bytes.take kFrameSize) = some frame ∧ frame.type = .snapshot ∧
      frame.sequence = entry.1 ∧
      frame.value ≤ (w.nodes j).componentValue frame.counter frame.epoch frame.component := by
  have hinv : w.Numbered address :=
    h.invariant (Numbered.new config) fun _ _ _ hinv hok hs => hinv.step hinj hok hs
  obtain ⟨p, hp, hdest, hnode⟩ : ∃ p, w.packets[packet]? = some p ∧ p.destination = address i ∧
      w'.nodes i = ((w.nodes i).receive p.bytes p.source).1 := by
    simp only [Network.step] at hs
    split at hs
    · cases hs
    · rename_i p hp
      split at hs
      · rename_i hdelivers
        obtain rfl := Option.some.inj hs
        exact ⟨p, hp, hdelivers.2, Function.update_self _ _ _⟩
      · cases hs
  rw [hnode] at herased
  -- the packet comes from the peer of the snapshot with its number, in this session
  have hack := (Replicator.acknowledged_eq_some_iff (hinv.keyed i)).mpr ⟨hpending, herased⟩
  obtain ⟨frame, hframe, hmatch⟩ := Option.bind_eq_some_iff.mp hack
  obtain ⟨message, hfilter, rfl⟩ := Option.map_eq_some_iff.mp hmatch
  have hpeer : message.peer = p.source :=
    of_decide_eq_true (Option.filter_eq_some_iff.mp hfilter).2
  have hsession : p.session = w.session i := by
    rcases hok p hp with hnone | hsession
    · cases hnone.symm.trans hack
    · exact hsession
  -- it answers a snapshot with the same number in the same session, so that very snapshot
  obtain ⟨j, hj, q, hq, frame', hframe', hsequence, hsource, -, htag, hvalue⟩ :=
    hinv.acks p (List.mem_of_getElem? hp) frame hframe
  obtain ⟨hsent, sent, hsentFrame, hsentSequence⟩ := hinv.pending i _ hpending
  have hsame := hinv.unique q hq _ hsent frame' sent hframe' hsentFrame (hsource.trans hdest)
    (htag.trans hsession) (hsequence.trans hsentSequence.symm)
  subst hsame
  obtain rfl := Option.some.inj (hframe'.symm.trans hsentFrame)
  obtain ⟨hdecode, htype⟩ := Packet.snapshot_eq_some.mp hframe'
  refine ⟨j, frame', hj.symm.trans hpeer.symm, hdecode, htype, hsequence, ?_⟩
  rw [Replicator.componentValue_eq]
  exact hvalue

/-- A snapshot is merged, acknowledged and then erased. -/
theorem ack_means_delivery_loopback :
    ∃ w w', Steps (Network.step loopbackAddress) Fresh (Network.new loopbackConfig) w ∧
      w.step loopbackAddress (.receive 0 1) = some w' ∧
      ∃ entry, entry ∈ (w.nodes 0).pending ∧ entry ∉ (w'.nodes 0).pending ∧
        ∃ j frame, loopbackAddress j = entry.2.peer ∧
          decodeFrame (entry.2.bytes.take kFrameSize) = some frame ∧ frame.type = .snapshot ∧
          frame.sequence = entry.1 ∧
          frame.value ≤ (w.nodes j).componentValue frame.counter frame.epoch frame.component := by
  have hexec : (exec (Network.step loopbackAddress) Fresh (Network.new loopbackConfig)
      [.start 1 loopbackAnswers, .start 0 loopbackAnswers, .publish 0 ⟨42, 7, 0, 500⟩ true,
        .drain 0 1 [⟨42, 7, 0, 500⟩], .receive 1 0]).map
        (fun w => decide (Fresh w (.receive 0 1) ∧
          (w.nodes 0).pending ≠ [] ∧
          (w.step loopbackAddress (.receive 0 1)).map (fun w' => (w'.nodes 0).pending) =
            some [])) = some true := by
    decide +kernel
  obtain ⟨w, hrun, hok, hpending, hstep⟩ := Steps.exists_of_exec hexec
  obtain ⟨w', hstep, hempty⟩ := Option.map_eq_some_iff.mp hstep
  obtain ⟨entry, hmem⟩ := List.exists_mem_of_ne_nil _ hpending
  have herased : entry ∉ (w'.nodes 0).pending := hempty ▸ List.not_mem_nil
  exact ⟨w, w', hrun, hstep, _, hmem, herased,
    ack_means_delivery (by decide) hrun hok hstep hmem herased⟩

/-- Without the condition: the acknowledgement of snapshot 1 is delayed over a restart of the
sender, whose next snapshot is number 1 again and gets lost. The acknowledgement erases it, and
the peer has merged nothing under its key. -/
theorem stale_ack_erases :
    ∃ w w', Steps (Network.step loopbackAddress) (fun _ _ => True) (Network.new loopbackConfig) w ∧
      w.step loopbackAddress (.receive 0 1) = some w' ∧
      (w.nodes 0).pending =
        [(1, ⟨encodeFrame ⟨.snapshot, 0, 1, 43, 7, 900⟩, loopbackAddress 1, 0⟩)] ∧
      (w'.nodes 0).pending = [] ∧
      (w'.nodes 0).acknowledgedCount = (w.nodes 0).acknowledgedCount + 1 ∧
      (w.nodes 1).componentValue 43 7 0 < 900 := by
  have hexec : (exec (Network.step loopbackAddress) (fun _ _ => True)
      (Network.new loopbackConfig)
      [.start 1 loopbackAnswers, .start 0 loopbackAnswers, .publish 0 ⟨42, 7, 0, 500⟩ true,
        .drain 0 1 [⟨42, 7, 0, 500⟩], .receive 1 0, .stop 0, .start 0 loopbackAnswers,
        .publish 0 ⟨43, 7, 0, 900⟩ true, .drain 0 1 [⟨43, 7, 0, 900⟩]]).map
        (fun w => decide ((w.nodes 0).pending =
            [(1, ⟨encodeFrame ⟨.snapshot, 0, 1, 43, 7, 900⟩, loopbackAddress 1, 0⟩)] ∧
          (w.step loopbackAddress (.receive 0 1)).map (fun w' => ((w'.nodes 0).pending,
            (w'.nodes 0).acknowledgedCount)) = some ([], (w.nodes 0).acknowledgedCount + 1) ∧
          (w.nodes 1).componentValue 43 7 0 < 900)) = some true := by
    decide +kernel
  obtain ⟨w, hrun, hpending, hstep, hvalue⟩ := Steps.exists_of_exec hexec
  obtain ⟨w', hstep, hafter⟩ := Option.map_eq_some_iff.mp hstep
  obtain ⟨hempty, hcounted⟩ := Prod.mk.inj hafter
  exact ⟨w, w', hrun, hstep, hpending, hempty, hcounted, hvalue⟩

end Network

end Replication

end HotCounter
