import HotCounter.Replication.Network

/-!
# Accounting for retries

One session of a replicator, from its `start` on, with a log of the numbers that `receive_all` and
`retry_expired` took out of the table and of every datagram handed to the socket. Every number that
was given out is in exactly one of three places: still pending, acknowledged, or dropped after its
retries (`Accounted`). A
pending snapshot has been handed to the socket once more than it has been retried, so none is
handed over more than `max_retries + 1` times.

Within one `drain_outbound`, every popped key gives each peer one frame with its largest value, or
one dropped count (`drain_offers`). The statistics of the replicator count what the log holds
(`Counted`).
-/

namespace HotCounter

namespace Replication

open Foundation Foundation.Assoc

/-! ### What a drain gives out -/

namespace Replicator

/-- The sequence numbers that the nested loops of `drain_outbound` give to their snapshots, none
where the table is full and the snapshot is dropped. -/
def offered : List (ReplicationUpdate × SockAddr) → Replicator → List (Option ℕ)
  | [], _ => []
  | (newest, peer) :: rest, r =>
    (if r.pending.length ≥ r.config.maxPending then none else some r.nextSequence) ::
      offered rest (r.sendSnapshot newest peer).1

/-- The datagram of an offer. -/
def offerDatagram (offer : (ReplicationUpdate × SockAddr) × Option ℕ) : Option Datagram :=
  offer.2.map fun sequence => ⟨offer.1.2, encodeFrame (snapshotFrame sequence offer.1.1)⟩

variable {r : Replicator}

theorem sendSnapshot_full (h : r.pending.length ≥ r.config.maxPending) (newest : ReplicationUpdate)
    (peer : SockAddr) :
    r.sendSnapshot newest peer = ({ r with droppedCount := (r.droppedCount + 1) % 2 ^ 64 }, []) :=
  if_pos h

theorem sendSnapshot_room (h : ¬r.pending.length ≥ r.config.maxPending)
    (newest : ReplicationUpdate) (peer : SockAddr) :
    r.sendSnapshot newest peer =
      ({ r with
          nextSequence := (r.nextSequence + 1) % 2 ^ 64
          pending := emplace r.pending r.nextSequence
            ⟨encodeFrame (snapshotFrame r.nextSequence newest), peer, 0⟩ },
        [⟨peer, encodeFrame (snapshotFrame r.nextSequence newest)⟩]) := if_neg h

/-- **Each pair of an update and a peer is offered once**: one frame or one dropped count. -/
theorem sendSnapshots_offered : ∀ (pairs : List (ReplicationUpdate × SockAddr)) (r : Replicator),
    (offered pairs r).length = pairs.length ∧
      (sendSnapshots pairs r).2 = (pairs.zip (offered pairs r)).filterMap offerDatagram
  | [], _ => ⟨rfl, rfl⟩
  | (newest, peer) :: rest, r => by
    obtain ⟨hlength, hsent⟩ := sendSnapshots_offered rest (r.sendSnapshot newest peer).1
    refine ⟨by rw [offered, List.length_cons, List.length_cons, hlength], ?_⟩
    rw [sendSnapshots, offered, List.zip_cons_cons, List.filterMap_cons]
    dsimp only
    rw [hsent]
    by_cases hfull : r.pending.length ≥ r.config.maxPending
    · rw [sendSnapshot_full hfull, if_pos hfull]
      rfl
    · rw [if_neg hfull, sendSnapshot_room hfull]
      rfl

/-- The offers without a frame are the ones counted as dropped. -/
theorem sendSnapshots_droppedCount : ∀ (pairs : List (ReplicationUpdate × SockAddr))
    (r : Replicator), (sendSnapshots pairs r).1.droppedCount ≡
      r.droppedCount + (offered pairs r).count none [MOD 2 ^ 64]
  | [], _ => .rfl
  | (newest, peer) :: rest, r => by
    have hrest := sendSnapshots_droppedCount rest (r.sendSnapshot newest peer).1
    rw [sendSnapshots, offered]
    dsimp only
    by_cases hfull : r.pending.length ≥ r.config.maxPending
    · rw [sendSnapshot_full hfull] at hrest ⊢
      rw [if_pos hfull, List.count_cons_self, ← Nat.add_assoc, Nat.add_right_comm]
      exact hrest.trans ((Nat.mod_modEq _ _).add_right _)
    · rw [sendSnapshot_room hfull] at hrest ⊢
      rw [if_neg hfull, List.count_cons_of_ne (by simp)]
      exact hrest

theorem sendSnapshots_acknowledgedCount : ∀ (pairs : List (ReplicationUpdate × SockAddr))
    (r : Replicator), (sendSnapshots pairs r).1.acknowledgedCount = r.acknowledgedCount
  | [], _ => rfl
  | (newest, peer) :: rest, r => by
    have hfirst : (r.sendSnapshot newest peer).1.acknowledgedCount = r.acknowledgedCount := by
      unfold sendSnapshot
      split <;> rfl
    exact (sendSnapshots_acknowledgedCount rest (r.sendSnapshot newest peer).1).trans hfirst

/-- A frame or no frame for each offer. -/
theorem length_filterMap_offers : ∀ (pairs : List (ReplicationUpdate × SockAddr))
    (offers : List (Option ℕ)), offers.length = pairs.length →
      ((pairs.zip offers).filterMap offerDatagram).length + offers.count none = pairs.length
  | [], [], _ => rfl
  | pair :: pairs, offer :: offers, h => by
    have hrest := length_filterMap_offers pairs offers (Nat.succ.inj h)
    rw [List.zip_cons_cons, List.length_cons, ← hrest]
    cases offer with
    | none =>
      rw [List.filterMap_cons_none rfl, List.count_cons_self, Nat.add_assoc]
    | some sequence =>
      have hframe : offerDatagram (pair, some sequence) =
          some ⟨pair.2, encodeFrame (snapshotFrame sequence pair.1)⟩ := rfl
      rw [List.filterMap_cons_some hframe, List.length_cons, List.count_cons_of_ne (by simp)]
      exact Nat.add_right_comm _ _ _

/-! ### Coalescing -/

/-- Some updates, coalesced: one entry for each of their keys, with the largest value. -/
structure Coalesced (taken : List ReplicationUpdate)
    (coalesced : List (ComponentKey × ReplicationUpdate)) : Prop where
  keyed : Keyed coalesced
  key_eq : ∀ entry ∈ coalesced, entry.2.key = entry.1
  mem : ∀ entry ∈ coalesced, entry.2 ∈ taken
  largest : ∀ update ∈ taken, ∃ newest, (update.key, newest) ∈ coalesced ∧
    update.value ≤ newest.value

theorem Coalesced.coalesce {taken : List ReplicationUpdate}
    {coalesced : List (ComponentKey × ReplicationUpdate)} (h : Coalesced taken coalesced)
    (update : ReplicationUpdate) :
    Coalesced (taken ++ [update]) (Replicator.coalesce coalesced update) := by
  have hold : ∀ other ∈ taken, other ∈ taken ++ [update] :=
    fun _ hother => List.mem_append_left _ hother
  have hnew : update ∈ taken ++ [update] := List.mem_append_right _ List.mem_cons_self
  unfold Replicator.coalesce
  split
  · -- the first update of its key
    rename_i hfind
    have hfresh := find_eq_none_iff.mp hfind
    rw [emplace_of_new hfresh]
    refine ⟨h.keyed.append_new hfind, fun entry hentry => ?_, fun entry hentry => ?_,
      fun other hother => ?_⟩
    · rcases List.mem_append.mp hentry with hentry | hentry
      · exact h.key_eq entry hentry
      · rw [List.mem_singleton.mp hentry]
    · rcases List.mem_append.mp hentry with hentry | hentry
      · exact hold _ (h.mem entry hentry)
      · rwa [List.mem_singleton.mp hentry]
    · rcases List.mem_append.mp hother with hother | hother
      · obtain ⟨newest, hnewest, hle⟩ := h.largest other hother
        exact ⟨newest, List.mem_append_left _ hnewest, hle⟩
      · rw [List.mem_singleton.mp hother]
        exact ⟨update, List.mem_append_right _ List.mem_cons_self, le_rfl⟩
  · rename_i newest hfind
    have hnewest := mem_of_find hfind
    split
    · -- a larger value of a known key
      rename_i hlarger
      refine ⟨h.keyed.assign, fun entry hentry => ?_, fun entry hentry => ?_,
        fun other hother => ?_⟩
      · rcases mem_of_mem_assign hentry with hentry | rfl
        · exact h.key_eq entry hentry
        · rfl
      · rcases mem_of_mem_assign hentry with hentry | rfl
        · exact hold _ (h.mem entry hentry)
        · exact hnew
      · have hself := mem_of_find (find_assign_self (v := update) hfind)
        rcases List.mem_append.mp hother with hother | hother
        · obtain ⟨largest, hlargest, hle⟩ := h.largest other hother
          by_cases hkey : other.key = update.key
          · have hsame : largest = newest := by
              have hfound := h.keyed.find_of_mem hlargest
              rw [hkey, hfind] at hfound
              exact (Option.some.inj hfound).symm
            subst hsame
            rw [hkey]
            exact ⟨update, hself, hle.trans hlarger.le⟩
          · refine ⟨largest, ?_, hle⟩
            have hkept := find_assign_ne (m := coalesced) (v := update) hkey
            exact mem_of_find (hkept.trans (h.keyed.find_of_mem hlargest))
        · rw [List.mem_singleton.mp hother]
          exact ⟨update, hself, le_rfl⟩
    · -- a value of a known key that is not larger
      rename_i hle
      refine ⟨h.keyed, h.key_eq, fun entry hentry => hold _ (h.mem entry hentry),
        fun other hother => ?_⟩
      rcases List.mem_append.mp hother with hother | hother
      · exact h.largest other hother
      · rw [List.mem_singleton.mp hother]
        exact ⟨newest, hnewest, Nat.le_of_not_lt hle⟩

theorem coalesced_foldl (taken : List ReplicationUpdate) :
    Coalesced taken (taken.foldl Replicator.coalesce []) := by
  induction taken using List.reverseRecOn with
  | nil =>
    refine ⟨List.nodup_nil, fun entry h => ?_, fun entry h => ?_, fun update h => ?_⟩
    · cases h
    · cases h
    · cases h
  | append_singleton taken update ih =>
    rw [List.foldl_append, List.foldl_cons, List.foldl_nil]
    exact ih.coalesce update

/-- The offers of one `drain_outbound`. -/
def drainOffers (r : Replicator) (taken : ℕ) (order : List ReplicationUpdate) : List (Option ℕ) :=
  offered (order.product r.peers) { r with outbound := r.outbound.drop taken }

/-- **What a drain does**: it visits the popped keys in some order, each once and with the largest
value popped for it, and offers it to every peer. -/
theorem drain_offers {taken : ℕ} {order : List ReplicationUpdate} {r' : Replicator}
    {sent : List Datagram} (h : r.drainOutbound taken order = some (r', sent)) :
    (order.map ReplicationUpdate.key).Nodup ∧
      (∀ newest ∈ order, newest ∈ r.outbound.take taken ∧
        ∀ update ∈ r.outbound.take taken, update.key = newest.key → update.value ≤ newest.value) ∧
      (∀ update ∈ r.outbound.take taken, ∃ newest ∈ order, newest.key = update.key) ∧
      (r.drainOffers taken order).length = (order.product r.peers).length ∧
      sent = ((order.product r.peers).zip (r.drainOffers taken order)).filterMap offerDatagram ∧
      r'.droppedCount ≡ r.droppedCount + (r.drainOffers taken order).count none [MOD 2 ^ 64] ∧
      r'.acknowledgedCount = r.acknowledgedCount := by
  unfold drainOutbound at h
  dsimp only at h
  split at h
  · rename_i hperm
    have hc := coalesced_foldl (r.outbound.take taken)
    -- the order is one of the coalesced updates, so each of them stands under its own key
    have hentry : ∀ newest ∈ order,
        (newest.key, newest) ∈ (r.outbound.take taken).foldl Replicator.coalesce [] := by
      intro newest hnewest
      obtain ⟨⟨key, value⟩, hmem, rfl⟩ := List.mem_map.mp (hperm.mem_iff.mp hnewest)
      obtain rfl : value.key = key := hc.key_eq _ hmem
      exact hmem
    refine ⟨?_, fun newest hnewest => ⟨hc.mem _ (hentry newest hnewest),
      fun update hupdate hkey => ?_⟩, fun update hupdate => ?_, ?_⟩
    · have hkeys : ((r.outbound.take taken).foldl Replicator.coalesce []).map
          (ReplicationUpdate.key ∘ Prod.snd) =
          ((r.outbound.take taken).foldl Replicator.coalesce []).map Prod.fst :=
        List.map_congr_left hc.key_eq
      rw [(hperm.map ReplicationUpdate.key).nodup_iff, List.map_map, hkeys]
      exact hc.keyed
    · obtain ⟨largest, hlargest, hle⟩ := hc.largest update hupdate
      rw [hkey] at hlargest
      have hsame := (hc.keyed.find_of_mem hlargest).symm.trans
        (hc.keyed.find_of_mem (hentry newest hnewest))
      rwa [Option.some.inj hsame] at hle
    · obtain ⟨largest, hlargest, -⟩ := hc.largest update hupdate
      exact ⟨largest, hperm.mem_iff.mpr (List.mem_map_of_mem hlargest), hc.key_eq _ hlargest⟩
    · obtain ⟨hlength, hsent⟩ := sendSnapshots_offered (order.product r.peers)
        { r with outbound := r.outbound.drop taken }
      have hdropped := sendSnapshots_droppedCount (order.product r.peers)
        { r with outbound := r.outbound.drop taken }
      have hacknowledged := sendSnapshots_acknowledgedCount (order.product r.peers)
        { r with outbound := r.outbound.drop taken }
      rw [Option.some.inj h] at hsent hdropped hacknowledged
      exact ⟨hlength, hsent, hdropped, hacknowledged⟩
  · cases h

/-- The map of coalesced updates can be visited. -/
theorem exists_drainOutbound (r : Replicator) (taken : ℕ) :
    ∃ order, (r.drainOutbound taken order).isSome := by
  refine ⟨((r.outbound.take taken).foldl coalesce []).map Prod.snd, ?_⟩
  unfold drainOutbound
  dsimp only
  rw [if_pos (.refl _)]
  rfl

end Replicator

/-! ### A session and its log -/

/-- A datagram carries the snapshot with a sequence number. -/
def Datagram.carries (sequence : ℕ) (d : Datagram) : Bool :=
  (decodeFrame d.bytes).any fun frame => frame.type = .snapshot ∧ frame.sequence = sequence

/-- A session of a replicator: how many sequence numbers it has given out, how many updates found
no room in the queue and how many snapshots none in the table, which numbers `receive_all` and
`retry_expired` erased, and the datagrams handed to the socket. -/
structure Ledger where
  replicator : Replicator
  issued : ℕ := 0
  unqueued : ℕ := 0
  refused : ℕ := 0
  acknowledged : List ℕ := []
  exhausted : List ℕ := []
  handed : List Datagram := []

/-- What can happen during a session. -/
inductive LedgerAction
  | publish (update : ReplicationUpdate) (pushed : Bool)
  | drain (taken : ℕ) (order : List ReplicationUpdate)
  | receive (bytes : List UInt8) (source : SockAddr)
  | retry (sequence : ℕ)

namespace Ledger

/-- One step of the worker thread, or of a publisher. The log is kept from what the step did to the
queue, the table and the socket. -/
def step (l : Ledger) : LedgerAction → Option Ledger
  | .publish update pushed =>
    let r := l.replicator.publish update pushed
    some { l with
      replicator := r
      unqueued := if r.outbound = l.replicator.outbound then l.unqueued + 1 else l.unqueued }
  | .drain taken order =>
    (l.replicator.drainOutbound taken order).map fun (r, sent) =>
      { l with
        replicator := r
        issued := l.issued + sent.length
        refused := l.refused + ((order.product l.replicator.peers).length - sent.length)
        handed := l.handed ++ sent }
  | .receive bytes source =>
    let (r, sent) := l.replicator.receive bytes source
    some { l with
      replicator := r
      acknowledged := l.acknowledged ++ lost l.replicator.pending r.pending
      handed := l.handed ++ sent }
  | .retry sequence =>
    let (r, sent) := l.replicator.retryExpired sequence
    some { l with
      replicator := r
      exhausted := l.exhausted ++ lost l.replicator.pending r.pending
      handed := l.handed ++ sent }

/-- How often the snapshot with a sequence number was handed to the socket. -/
def handovers (l : Ledger) (sequence : ℕ) : ℕ := l.handed.countP (Datagram.carries sequence)

/-- **Every number given out is in exactly one place**, and a pending snapshot was handed over once
more than it was retried. -/
structure Accounted (l : Ledger) : Prop where
  next : l.replicator.nextSequence = l.issued + 1
  places : (l.acknowledged ++ (l.exhausted ++ l.replicator.pending.map Prod.fst)).Perm
    (List.range' 1 l.issued)
  room : l.replicator.pending.length ≤ l.replicator.config.maxPending
  pending : ∀ entry ∈ l.replicator.pending,
    entry.2.attempts ≤ l.replicator.config.maxRetries ∧
      l.handovers entry.1 = entry.2.attempts + 1 ∧
      ∀ sequence, Datagram.carries sequence ⟨entry.2.peer, entry.2.bytes⟩ =
        decide (sequence = entry.1)
  bounded : ∀ sequence, l.handovers sequence ≤ l.replicator.config.maxRetries + 1
  fresh : ∀ sequence, l.issued < sequence → l.handovers sequence = 0

variable {l l' : Ledger}

theorem Accounted.keyed (h : l.Accounted) : Keyed l.replicator.pending := by
  have hnodup : (l.acknowledged ++ (l.exhausted ++ l.replicator.pending.map Prod.fst)).Nodup :=
    h.places.nodup_iff.mpr List.nodup_range'
  exact (List.nodup_append.mp (List.nodup_append.mp hnodup).2.1).2.1

theorem Accounted.mem_range (h : l.Accounted) {sequence : ℕ}
    (hmem : sequence ∈ l.replicator.pending.map Prod.fst) :
    1 ≤ sequence ∧ sequence ≤ l.issued := by
  have hrange := h.places.mem_iff.mp
    (List.mem_append_right _ (List.mem_append_right _ hmem))
  rw [List.mem_range'_1] at hrange
  omega

/-- A snapshot frame carries its own number. -/
theorem carries_snapshotFrame {sequence : ℕ} (hlt : sequence < 2 ^ 64) (newest : ReplicationUpdate)
    (peer : SockAddr) (other : ℕ) :
    Datagram.carries other ⟨peer, encodeFrame (Replicator.snapshotFrame sequence newest)⟩ =
      decide (other = sequence) := by
  have hsequence : (Replicator.snapshotFrame sequence newest).onWire.sequence = sequence :=
    Nat.mod_eq_of_lt hlt
  have htype : (Replicator.snapshotFrame sequence newest).onWire.type = .snapshot := rfl
  rw [Datagram.carries, decodeFrame_encodeFrame, Option.any_some, hsequence, htype]
  simp [eq_comm]

/-- An acknowledgement carries no snapshot. -/
theorem carries_ack {frame : Frame} (h : frame.type = .ack) (peer : SockAddr) (sequence : ℕ) :
    Datagram.carries sequence ⟨peer, encodeFrame frame⟩ = false := by
  have htype : frame.onWire.type = .ack := h
  rw [Datagram.carries, decodeFrame_encodeFrame, Option.any_some, htype]
  rfl

/-! ### Giving out a number -/

/-- One turn of the inner loop of `drain_outbound`. -/
def offer (l : Ledger) (pair : ReplicationUpdate × SockAddr) : Ledger :=
  { l with
    replicator := (l.replicator.sendSnapshot pair.1 pair.2).1
    issued := l.issued + (l.replicator.sendSnapshot pair.1 pair.2).2.length
    handed := l.handed ++ (l.replicator.sendSnapshot pair.1 pair.2).2 }

/-- The loops of `drain_outbound` are one turn after another. -/
theorem foldl_offer : ∀ (pairs : List (ReplicationUpdate × SockAddr)) (l : Ledger),
    pairs.foldl offer l =
      { l with
        replicator := (Replicator.sendSnapshots pairs l.replicator).1
        issued := l.issued + (Replicator.sendSnapshots pairs l.replicator).2.length
        handed := l.handed ++ (Replicator.sendSnapshots pairs l.replicator).2 }
  | [], l => by simp [Replicator.sendSnapshots]
  | pair :: pairs, l => by
    rw [List.foldl_cons, foldl_offer pairs (l.offer pair)]
    simp only [offer, Replicator.sendSnapshots, List.length_append, List.append_assoc,
      Nat.add_assoc]

theorem Accounted.offer (h : l.Accounted) (pair : ReplicationUpdate × SockAddr)
    (hlt : (l.offer pair).issued < 2 ^ 64 - 1) : (l.offer pair).Accounted := by
  unfold Ledger.offer at hlt ⊢
  by_cases hfull : l.replicator.pending.length ≥ l.replicator.config.maxPending
  · rw [Replicator.sendSnapshot_full hfull, List.append_nil]
    exact ⟨h.next, h.places, h.room, h.pending, h.bounded, h.fresh⟩
  · rw [Replicator.sendSnapshot_room hfull] at hlt ⊢
    dsimp only [List.length_singleton] at hlt ⊢
    have hnext := h.next
    have hrange : l.replicator.nextSequence < 2 ^ 64 := by omega
    have hold : ∀ entry ∈ l.replicator.pending, entry.1 ≠ l.replicator.nextSequence := by
      intro entry hentry
      have hle := (h.mem_range (List.mem_map_of_mem hentry)).2
      omega
    have hnew : l.replicator.nextSequence ∉ l.replicator.pending.map Prod.fst := by
      intro hmem
      have hle := (h.mem_range hmem).2
      omega
    have hcarries := carries_snapshotFrame hrange pair.1 pair.2
    rw [emplace_of_new hnew]
    -- only the new number is handed over
    have hcount : ∀ sequence, (l.handed ++ [Datagram.mk pair.2 (encodeFrame
        (Replicator.snapshotFrame l.replicator.nextSequence pair.1))]).countP
          (Datagram.carries sequence) =
        l.handovers sequence + if sequence = l.replicator.nextSequence then 1 else 0 := by
      intro sequence
      rw [List.countP_append, List.countP_singleton, hcarries, handovers]
      simp
    have hzero := h.fresh l.replicator.nextSequence (by omega)
    refine ⟨?_, ?_, ?_, fun entry hentry => ?_, fun sequence => ?_, fun sequence hsequence => ?_⟩
    · dsimp only
      omega
    · dsimp only
      rw [List.range'_concat, List.map_append, ← List.append_assoc, ← List.append_assoc,
        List.append_assoc l.acknowledged]
      have hlast : 1 + 1 * l.issued = l.replicator.nextSequence := by omega
      rw [hlast]
      exact h.places.append_right _
    · dsimp only
      rw [List.length_append, List.length_singleton]
      omega
    · rw [handovers]
      dsimp only at hentry ⊢
      rw [hcount]
      rcases List.mem_append.mp hentry with hentry | hentry
      · obtain ⟨hattempts, hhanded, hbytes⟩ := h.pending entry hentry
        rw [if_neg (hold entry hentry)]
        exact ⟨hattempts, hhanded, hbytes⟩
      · rw [List.mem_singleton.mp hentry]
        dsimp only
        rw [if_pos rfl, hzero]
        exact ⟨Nat.zero_le _, rfl, hcarries⟩
    · rw [handovers]
      dsimp only
      rw [hcount]
      have hle := h.bounded sequence
      split
      · rename_i heq
        rw [heq, hzero]
        omega
      · exact hle
    · rw [handovers]
      dsimp only at hsequence ⊢
      rw [hcount, h.fresh sequence (by omega), if_neg (by omega)]

/-- Numbers are only ever added. -/
theorem issued_le_foldl (pairs : List (ReplicationUpdate × SockAddr)) :
    ∀ l : Ledger, l.issued ≤ (pairs.foldl Ledger.offer l).issued := by
  induction pairs with
  | nil =>
    intro l
    exact le_rfl
  | cons pair pairs ih =>
    intro l
    exact (Nat.le_add_right _ _).trans (ih (l.offer pair))

theorem Accounted.foldl_offer (pairs : List (ReplicationUpdate × SockAddr)) :
    ∀ {l : Ledger}, l.Accounted → (pairs.foldl Ledger.offer l).issued < 2 ^ 64 - 1 →
      (pairs.foldl Ledger.offer l).Accounted := by
  induction pairs with
  | nil =>
    intro l h _
    exact h
  | cons pair pairs ih =>
    intro l h hlt
    exact ih (h.offer pair ((issued_le_foldl pairs _).trans_lt hlt)) hlt

/-! ### Taking a number out of the table -/

/-- A step that hands nothing over and keeps the places of all numbers. -/
theorem Accounted.move (h : l.Accounted) {r : Replicator} {acknowledged exhausted : List ℕ}
    {sent : List Datagram} (hconfig : r.config = l.replicator.config)
    (hnext : r.nextSequence = l.replicator.nextSequence)
    (hpending : ∀ entry ∈ r.pending, entry ∈ l.replicator.pending)
    (hlength : r.pending.length ≤ l.replicator.pending.length)
    (hplaces : (acknowledged ++ (exhausted ++ r.pending.map Prod.fst)).Perm
      (l.acknowledged ++ (l.exhausted ++ l.replicator.pending.map Prod.fst)))
    (hsent : ∀ sequence, sent.countP (Datagram.carries sequence) = 0) :
    (Ledger.mk r l.issued l.unqueued l.refused acknowledged exhausted
      (l.handed ++ sent)).Accounted := by
  have hsame : ∀ sequence, (l.handed ++ sent).countP (Datagram.carries sequence) =
      l.handovers sequence := by
    intro sequence
    rw [List.countP_append, hsent, Nat.add_zero, handovers]
  refine ⟨hnext.trans h.next, hplaces.trans h.places, ?_, fun entry hentry => ?_,
    fun sequence => ?_, fun sequence hsequence => ?_⟩
  · dsimp only
    rw [hconfig]
    exact hlength.trans h.room
  · rw [handovers, hsame, hconfig]
    exact h.pending entry (hpending entry hentry)
  · rw [handovers, hsame, hconfig]
    exact h.bounded sequence
  · rw [handovers, hsame]
    exact h.fresh sequence hsequence

/-- Erasing a pending number takes it out of the table. -/
theorem Accounted.places_erase (h : l.Accounted) {sequence : ℕ} {message : Pending}
    (hfind : find l.replicator.pending sequence = some message) :
    (sequence :: (l.acknowledged ++ (l.exhausted ++
      (erase l.replicator.pending sequence).map Prod.fst))).Perm
      (l.acknowledged ++ (l.exhausted ++ l.replicator.pending.map Prod.fst)) := by
  have hkeys := keys_erase_perm h.keyed (mem_of_find hfind)
  rw [List.perm_iff_count] at hkeys ⊢
  intro a
  have ha := hkeys a
  simp only [List.count_append, List.count_cons] at ha ⊢
  omega

/-- What a received datagram does to the table: nothing, or one entry is acknowledged. -/
theorem receive_effect {r r' : Replicator} {bytes : List UInt8} {source : SockAddr}
    {sent : List Datagram} (h : r.receive bytes source = (r', sent)) :
    r'.config = r.config ∧ r'.nextSequence = r.nextSequence ∧ r'.droppedCount = r.droppedCount ∧
      (∀ sequence, sent.countP (Datagram.carries sequence) = 0) ∧
      ((r'.pending = r.pending ∧ r'.acknowledgedCount = r.acknowledgedCount) ∨
        ∃ sequence message, find r.pending sequence = some message ∧
          r'.pending = erase r.pending sequence ∧
          r'.acknowledgedCount = (r.acknowledgedCount + 1) % 2 ^ 64) := by
  rcases Replicator.receive_cases h with ⟨-, rfl, rfl⟩ | ⟨frame, -, -, rfl, rfl⟩ |
    ⟨frame, -, -, rfl, rfl⟩
  · exact ⟨rfl, rfl, rfl, fun _ => rfl, .inl ⟨rfl, rfl⟩⟩
  · unfold Replicator.receiveAck
    split
    · exact ⟨rfl, rfl, rfl, fun _ => rfl, .inl ⟨rfl, rfl⟩⟩
    · rename_i message hfind
      split
      · exact ⟨rfl, rfl, rfl, fun _ => rfl, .inr ⟨_, message, hfind, rfl, rfl⟩⟩
      · exact ⟨rfl, rfl, rfl, fun _ => rfl, .inl ⟨rfl, rfl⟩⟩
  · refine ⟨rfl, rfl, rfl, fun sequence => ?_, .inl ⟨rfl, rfl⟩⟩
    rw [List.countP_singleton, carries_ack rfl]
    rfl

theorem Accounted.receive (h : l.Accounted) (bytes : List UInt8) (source : SockAddr)
    (hs : l.step (.receive bytes source) = some l') : l'.Accounted := by
  obtain ⟨r, sent, hreceive⟩ : ∃ r sent, l.replicator.receive bytes source = (r, sent) :=
    ⟨_, _, rfl⟩
  simp only [Ledger.step, hreceive] at hs
  obtain rfl := Option.some.inj hs
  obtain ⟨hconfig, hnext, -, hsent, hkept | ⟨sequence, message, hfind, herased, -⟩⟩ :=
    receive_effect hreceive
  · rw [lost_eq_nil (congrArg _ hkept.1), List.append_nil]
    refine h.move hconfig hnext (fun _ he => hkept.1 ▸ he) (congrArg _ hkept.1).le ?_ hsent
    rw [hkept.1]
  · have hplaces := h.places_erase hfind
    rw [herased, lost_erase h.keyed hfind]
    refine h.move hconfig hnext (fun _ he => (erase_sublist _ _).subset (herased ▸ he))
      (herased ▸ (erase_sublist _ _).length_le) ?_ hsent
    rw [herased, List.append_assoc, List.singleton_append]
    exact List.perm_middle.trans hplaces

theorem Accounted.retry (h : l.Accounted) (sequence : ℕ)
    (hs : l.step (.retry sequence) = some l') : l'.Accounted := by
  simp only [Ledger.step] at hs
  obtain rfl := Option.some.inj hs
  rw [Replicator.retryExpired]
  cases hfind : find l.replicator.pending sequence with
  | none =>
    rw [lost_eq_nil rfl, List.append_nil]
    exact h.move rfl rfl (fun _ he => he) le_rfl (.refl _) fun _ => rfl
  | some message =>
    dsimp only
    split
    · -- no retries are left: the number moves from the table to the exhausted ones
      rw [lost_erase h.keyed hfind]
      refine h.move rfl rfl (fun _ he => (erase_sublist _ _).subset he)
        (erase_sublist _ _).length_le ?_ fun _ => rfl
      rw [List.append_assoc, List.singleton_append]
      exact ((List.perm_middle.append_left _).trans List.perm_middle).trans (h.places_erase hfind)
    · -- one more handover, and one more attempt
      rename_i hroom
      obtain ⟨hattempts, hhanded, hbytes⟩ := h.pending _ (mem_of_find hfind)
      have hle := (h.mem_range (List.mem_map_of_mem (mem_of_find hfind))).2
      have hcount : ∀ other, (l.handed ++ [Datagram.mk message.peer message.bytes]).countP
          (Datagram.carries other) = l.handovers other + if other = sequence then 1 else 0 := by
        intro other
        rw [List.countP_append, List.countP_singleton, hbytes, handovers]
        simp
      dsimp only at hattempts hhanded hbytes hle
      refine ⟨h.next, ?_, ?_, fun entry hentry => ?_, fun other => ?_, fun other hother => ?_⟩
      · dsimp only
        rw [lost_eq_nil (keys_assign _ _ _), keys_assign, List.append_nil]
        exact h.places
      · dsimp only
        rw [assign, List.length_map]
        exact h.room
      · rw [handovers]
        dsimp only at hentry ⊢
        rw [hcount]
        rcases mem_assign_cases hentry with ⟨hentry, hne⟩ | rfl
        · rw [if_neg hne]
          exact h.pending entry hentry
        · dsimp only
          rw [if_pos rfl, hhanded]
          exact ⟨by omega, rfl, hbytes⟩
      · rw [handovers]
        dsimp only
        rw [hcount]
        have hbounded := h.bounded other
        split
        · rename_i heq
          rw [heq, hhanded]
          omega
        · exact hbounded
      · rw [handovers]
        dsimp only at hother ⊢
        rw [hcount, h.fresh other hother, if_neg (by omega)]

/-! ### Every step of a session -/

theorem Accounted.step (h : l.Accounted) {a : LedgerAction} (hs : l.step a = some l')
    (hlt : l'.issued < 2 ^ 64 - 1) : l'.Accounted := by
  cases a with
  | publish update pushed =>
    obtain rfl := Option.some.inj hs
    unfold Replicator.publish
    split <;> exact ⟨h.next, h.places, h.room, h.pending, h.bounded, h.fresh⟩
  | drain taken order =>
    simp only [Ledger.step] at hs
    obtain ⟨⟨r, sent⟩, hdrain, rfl⟩ := Option.map_eq_some_iff.mp hs
    unfold Replicator.drainOutbound at hdrain
    dsimp only at hdrain
    split at hdrain
    · have hpopped : Accounted
          { l with
            replicator := { l.replicator with outbound := l.replicator.outbound.drop taken } } :=
        ⟨h.next, h.places, h.room, h.pending, h.bounded, h.fresh⟩
      have hloop := hpopped.foldl_offer (order.product l.replicator.peers)
      rw [Ledger.foldl_offer] at hloop
      dsimp only at hloop
      rw [Option.some.inj hdrain] at hloop
      have hdone := hloop hlt
      exact ⟨hdone.next, hdone.places, hdone.room, hdone.pending, hdone.bounded, hdone.fresh⟩
    · cases hdrain
  | receive bytes source => exact h.receive bytes source hs
  | retry sequence => exact h.retry sequence hs

/-- Numbers are never taken back. -/
theorem issued_le_step {a : LedgerAction} (hs : l.step a = some l') : l.issued ≤ l'.issued := by
  cases a with
  | publish update pushed =>
    obtain rfl := Option.some.inj hs
    exact le_rfl
  | drain taken order =>
    simp only [Ledger.step] at hs
    obtain ⟨⟨r, sent⟩, -, rfl⟩ := Option.map_eq_some_iff.mp hs
    exact Nat.le_add_right _ _
  | receive bytes source =>
    obtain rfl := Option.some.inj hs
    exact le_rfl
  | retry sequence =>
    obtain rfl := Option.some.inj hs
    exact le_rfl

/-! ### The statistics -/

/-- **The statistics count what the log holds**, modulo the width of a counter. -/
structure Counted (r₀ : Replicator) (l : Ledger) : Prop where
  acknowledged : l.replicator.acknowledgedCount ≡
    r₀.acknowledgedCount + l.acknowledged.length [MOD 2 ^ 64]
  dropped : l.replicator.droppedCount ≡
    r₀.droppedCount + (l.unqueued + l.refused + l.exhausted.length) [MOD 2 ^ 64]

/-- One more on both sides. -/
private theorem modEq_succ {count total : ℕ} (h : count ≡ total [MOD 2 ^ 64]) :
    (count + 1) % 2 ^ 64 ≡ total + 1 [MOD 2 ^ 64] :=
  (Nat.mod_modEq _ _).trans (h.add_right 1)

variable {r₀ : Replicator}

theorem Counted.publish (h : Counted r₀ l) (update : ReplicationUpdate) (pushed : Bool)
    (hs : l.step (.publish update pushed) = some l') : Counted r₀ l' := by
  obtain rfl := Option.some.inj hs
  unfold Replicator.publish
  split
  · have hlonger : l.replicator.outbound ++ [update] ≠ l.replicator.outbound := by simp
    rw [if_neg hlonger]
    exact ⟨h.acknowledged, h.dropped⟩
  · rw [if_pos rfl]
    refine ⟨h.acknowledged, (modEq_succ h.dropped).trans (congrArg (· % 2 ^ 64) ?_)⟩
    dsimp only
    omega

theorem Counted.drain (h : Counted r₀ l) {taken : ℕ} {order : List ReplicationUpdate}
    (hs : l.step (.drain taken order) = some l') : Counted r₀ l' := by
  simp only [Ledger.step] at hs
  obtain ⟨⟨r, sent⟩, hdrain, rfl⟩ := Option.map_eq_some_iff.mp hs
  obtain ⟨-, -, -, hlength, hsent, hdropped, hacknowledged⟩ := Replicator.drain_offers hdrain
  have htotal := Replicator.length_filterMap_offers _ _ hlength
  rw [← hsent] at htotal
  refine ⟨?_, ?_⟩
  · dsimp only
    rw [hacknowledged]
    exact h.acknowledged
  · refine hdropped.trans ((h.dropped.add_right _).trans (congrArg (· % 2 ^ 64) ?_))
    dsimp only
    omega

theorem Counted.receive (h : Counted r₀ l) (hkeyed : Keyed l.replicator.pending)
    {bytes : List UInt8} {source : SockAddr} (hs : l.step (.receive bytes source) = some l') :
    Counted r₀ l' := by
  obtain ⟨r, sent, hreceive⟩ : ∃ r sent, l.replicator.receive bytes source = (r, sent) :=
    ⟨_, _, rfl⟩
  simp only [Ledger.step, hreceive] at hs
  obtain rfl := Option.some.inj hs
  obtain ⟨-, -, hdropped, -, ⟨hpending, hcount⟩ | ⟨sequence, message, hfind, herased, hcount⟩⟩ :=
    receive_effect hreceive
  · refine ⟨?_, hdropped ▸ h.dropped⟩
    dsimp only
    rw [hcount, lost_eq_nil (congrArg _ hpending), List.append_nil]
    exact h.acknowledged
  · refine ⟨?_, hdropped ▸ h.dropped⟩
    dsimp only
    rw [hcount, herased, lost_erase hkeyed hfind, List.length_append, List.length_singleton]
    exact modEq_succ h.acknowledged

theorem Counted.retry (h : Counted r₀ l) (hkeyed : Keyed l.replicator.pending) {sequence : ℕ}
    (hs : l.step (.retry sequence) = some l') : Counted r₀ l' := by
  simp only [Ledger.step] at hs
  obtain rfl := Option.some.inj hs
  rw [Replicator.retryExpired]
  cases hfind : find l.replicator.pending sequence with
  | none =>
    rw [lost_eq_nil rfl, List.append_nil]
    exact ⟨h.acknowledged, h.dropped⟩
  | some message =>
    dsimp only
    split
    · rw [lost_erase hkeyed hfind]
      refine ⟨h.acknowledged, (modEq_succ h.dropped).trans (congrArg (· % 2 ^ 64) ?_)⟩
      dsimp only
      rw [List.length_append, List.length_singleton]
      omega
    · rw [lost_eq_nil (keys_assign _ _ _), List.append_nil]
      exact ⟨h.acknowledged, h.dropped⟩

theorem Counted.step (h : Counted r₀ l) (hkeyed : Keyed l.replicator.pending) {a : LedgerAction}
    (hs : l.step a = some l') : Counted r₀ l' := by
  cases a with
  | publish update pushed => exact h.publish update pushed hs
  | drain taken order => exact h.drain hs
  | receive bytes source => exact h.receive hkeyed hs
  | retry sequence => exact h.retry hkeyed hs

/-! ### Every run of a session -/

/-- The ledger of a session that begins. -/
def start (r : Replicator) : Ledger := { replicator := r }

theorem accounted_start {r : Replicator} (hpending : r.pending = []) (hnext : r.nextSequence = 1) :
    (start r).Accounted where
  next := hnext
  places := by
    rw [start, hpending]
    rfl
  room := by
    rw [start, hpending]
    exact Nat.zero_le _
  pending := by
    intro entry hentry
    rw [start, hpending] at hentry
    cases hentry
  bounded := fun _ => Nat.zero_le _
  fresh := fun _ _ => rfl

/-- A session stays accounted for and counted as long as it does not run out of numbers. -/
theorem accounted_of_steps {r : Replicator} (hpending : r.pending = []) (hnext : r.nextSequence = 1)
    (hsteps : Steps Ledger.step (fun _ _ => True) (start r) l) (hlt : l.issued < 2 ^ 64 - 1) :
    l.Accounted ∧ Counted r l := by
  have hrun := hsteps.invariant
    (P := fun l => l.issued < 2 ^ 64 - 1 → l.Accounted ∧ Counted r l)
    (fun _ => ⟨accounted_start hpending hnext, .rfl, .rfl⟩)
    fun _ _ _ hl _ hstep hlt' => by
      obtain ⟨haccounted, hcounted⟩ := hl ((issued_le_step hstep).trans_lt hlt')
      exact ⟨haccounted.step hstep hlt', hcounted.step haccounted.keyed hstep⟩
  exact hrun hlt

/-- A sender with room for one pending snapshot, which it retries once. -/
def smallReplicator : Replicator :=
  { config := { peers := [⟨"127.0.0.1", 31992⟩], maxRetries := 1, maxPending := 1 } }

/-- **Retry work is bounded and accounted for**, in every session that gives out fewer than
`2 ^ 64 - 1` numbers: the table of pending snapshots never holds more than `max_pending` entries,
all with different numbers below the next one; no snapshot is handed to the socket more than
`max_retries + 1` times; and each number given out is in exactly one place. The statistics have
counted every number that was acknowledged, and every drop: of an update without room in the queue,
of a snapshot without room in the table, of a number after its retries. Every drain goes through,
and in it every popped key yields, for each peer, one frame with its largest value or one dropped
count. -/
theorem retry_work_accounted (r₀ : Replicator) (answers : SocketAnswers) (hresets : r₀.resets)
    (l : Ledger) (hlt : l.issued < 2 ^ 64 - 1)
    (hsteps : Steps Ledger.step (fun _ _ => True) (start (r₀.started answers)) l) :
    (l.replicator.pending.length ≤ l.replicator.config.maxPending ∧
      (l.replicator.pending.map Prod.fst).Nodup ∧
      ∀ entry ∈ l.replicator.pending, entry.1 < l.replicator.nextSequence) ∧
    (∀ sequence, l.handed.countP (Datagram.carries sequence) ≤ 1 + l.replicator.config.maxRetries) ∧
    ((l.acknowledged ++ (l.exhausted ++ l.replicator.pending.map Prod.fst)).Nodup ∧
      (∀ sequence, (1 ≤ sequence ∧ sequence < l.replicator.nextSequence ↔
        sequence ∈ l.acknowledged ∨ sequence ∈ l.exhausted ∨
          sequence ∈ l.replicator.pending.map Prod.fst)) ∧
      l.replicator.nextSequence - 1 =
        l.acknowledged.length + l.exhausted.length + l.replicator.pending.length) ∧
    (l.replicator.acknowledgedCount ≡
        r₀.acknowledgedCount + l.acknowledged.length [MOD 2 ^ 64] ∧
      l.replicator.droppedCount ≡
        r₀.droppedCount + (l.unqueued + l.refused + l.exhausted.length) [MOD 2 ^ 64]) ∧
    (∀ taken, ∃ order l', l.step (.drain taken order) = some l') ∧
    ∀ taken order l', l.step (.drain taken order) = some l' →
      (order.map ReplicationUpdate.key).Nodup ∧
      (∀ newest ∈ order, newest ∈ l.replicator.outbound.take taken ∧
        ∀ update ∈ l.replicator.outbound.take taken, update.key = newest.key →
          update.value ≤ newest.value) ∧
      (∀ update ∈ l.replicator.outbound.take taken, ∃ newest ∈ order,
        newest.key = update.key) ∧
      ∃ offers : List (Option ℕ),
        offers.length = (order.product l.replicator.peers).length ∧
        l'.handed = l.handed ++ ((order.product l.replicator.peers).zip offers).filterMap
          Replicator.offerDatagram ∧
        l'.replicator.droppedCount ≡
          l.replicator.droppedCount + offers.count none [MOD 2 ^ 64] := by
  have hkeeps := ((r₀.started_cases answers).resolve_right fun hnot => hnot.1 hresets).2
  obtain ⟨h, hcounted⟩ := accounted_of_steps hkeeps.pending hkeeps.nextSequence hsteps hlt
  have hnext := h.next
  refine ⟨⟨h.room, h.keyed, fun entry hentry => ?_⟩, fun sequence => ?_,
    ⟨?_, fun sequence => ?_, ?_⟩, ⟨?_, ?_⟩, fun taken => ?_, fun taken order l' hs => ?_⟩
  · have hle := (h.mem_range (List.mem_map_of_mem hentry)).2
    omega
  · exact (h.bounded sequence).trans_eq (Nat.add_comm _ _)
  · exact h.places.nodup_iff.mpr List.nodup_range'
  · have hmem := h.places.mem_iff (a := sequence)
    rw [List.mem_append, List.mem_append, List.mem_range'_1] at hmem
    rw [hmem]
    omega
  · have hlength := h.places.length_eq
    rw [List.length_append, List.length_append, List.length_map, List.length_range'] at hlength
    omega
  · rw [← hkeeps.acknowledgedCount]
    exact hcounted.acknowledged
  · rw [← hkeeps.droppedCount]
    exact hcounted.dropped
  · obtain ⟨order, hdrains⟩ := l.replicator.exists_drainOutbound taken
    obtain ⟨result, hdrain⟩ := Option.isSome_iff_exists.mp hdrains
    exact ⟨order, _, congrArg (Option.map _) hdrain⟩
  · simp only [Ledger.step] at hs
    obtain ⟨⟨r, sent⟩, hdrain, rfl⟩ := Option.map_eq_some_iff.mp hs
    obtain ⟨hnodup, hlargest, hall, hlength, hsent, hdropped, -⟩ :=
      Replicator.drain_offers hdrain
    exact ⟨hnodup, hlargest, hall, _, hlength, congrArg (l.handed ++ ·) hsent, hdropped⟩

/-- A table of one entry: the second update is dropped at the drain, the first after one retry. -/
theorem retry_work_accounted_dropped :
    ∃ l : Ledger, Steps Ledger.step (fun _ _ => True)
        (start (smallReplicator.started Network.loopbackAnswers)) l ∧
      l.issued = 1 ∧ l.refused = 1 ∧ l.exhausted = [1] ∧ l.replicator.droppedCount = 2 ∧
      l.handed.countP (Datagram.carries 1) ≤ 2 ∧
      l.replicator.nextSequence - 1 =
        l.acknowledged.length + l.exhausted.length + l.replicator.pending.length ∧
      l.replicator.droppedCount ≡
        smallReplicator.droppedCount + (l.unqueued + l.refused + l.exhausted.length)
        [MOD 2 ^ 64] := by
  have hexec : (exec Ledger.step (fun _ _ => True)
      (start (smallReplicator.started Network.loopbackAnswers))
      [.publish ⟨42, 7, 0, 500⟩ true, .publish ⟨43, 7, 0, 900⟩ true,
        .drain 2 [⟨42, 7, 0, 500⟩, ⟨43, 7, 0, 900⟩], .retry 1, .retry 1]).map
        (fun l => decide (l.issued = 1 ∧ l.refused = 1 ∧ l.exhausted = [1] ∧
          l.replicator.droppedCount = 2 ∧ l.replicator.config.maxRetries = 1)) = some true := by
    decide +kernel
  obtain ⟨l, hrun, hissued, hrefused, hexhausted, hdropped, hretries⟩ := Steps.exists_of_exec hexec
  have h := retry_work_accounted smallReplicator Network.loopbackAnswers (by decide) l
    (by rw [hissued]; decide) hrun
  have hhanded := h.2.1 1
  rw [hretries] at hhanded
  exact ⟨l, hrun, hissued, hrefused, hexhausted, hdropped, hhanded, h.2.2.1.2.2, h.2.2.2.1.2⟩

end Ledger

end Replication

end HotCounter
