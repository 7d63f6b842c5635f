import HotCounter.Replication.Network

/-!
# Replication converges

Every snapshot is cumulative and a receiver keeps the largest one per key, so what it holds is
a function of the set of snapshots delivered to it: neither order, nor repetition, nor the
coalescing at the sender matters, and every value it holds was published for exactly that key.
The last point needs component ids of at most 16 bits, which is what the wire format carries.
-/

namespace HotCounter

/-- An update whose fields have the widths of the code's types and whose component id fits into
a frame. -/
def ReplicationUpdate.Fits (update : ReplicationUpdate) : Prop :=
  update.counter < 2 ^ 64 ∧ update.epoch < 2 ^ 64 ∧ update.component ≤ 65535 ∧
    update.value < 2 ^ 64

instance (update : ReplicationUpdate) : Decidable update.Fits :=
  inferInstanceAs (Decidable (_ ∧ _ ∧ _ ∧ _))

namespace Replication

open Foundation Foundation.Assoc

/-- The largest value under a key in a list of frames, zero if there is none. -/
def maxValue (frames : List Frame) (key : ComponentKey) : ℕ :=
  (frames.filter fun frame => frame.key = key).foldl (fun m frame => max m frame.value) 0

@[simp]
theorem maxValue_nil (key : ComponentKey) : maxValue [] key = 0 := rfl

theorem maxValue_concat (frames : List Frame) (frame : Frame) (key : ComponentKey) :
    maxValue (frames ++ [frame]) key =
      if frame.key = key then max (maxValue frames key) frame.value else maxValue frames key := by
  by_cases h : frame.key = key
  · simp [maxValue, List.filter_append, h]
  · simp [maxValue, List.filter_append, h]

theorem maxValue_le_iff (frames : List Frame) (key : ComponentKey) (n : ℕ) :
    maxValue frames key ≤ n ↔ ∀ frame ∈ frames, frame.key = key → frame.value ≤ n := by
  induction frames using List.reverseRecOn with
  | nil => simp
  | append_singleton frames frame ih =>
    rw [maxValue_concat]
    by_cases h : frame.key = key
    · rw [if_pos h, max_le_iff, ih]
      constructor
      · rintro ⟨hold, hnew⟩ f hf hkey
        rcases List.mem_append.mp hf with hf | hf
        · exact hold f hf hkey
        · rw [List.mem_singleton.mp hf]
          exact hnew
      · intro hall
        exact ⟨fun f hf => hall f (List.mem_append_left _ hf),
          hall frame (List.mem_append_right _ (List.mem_singleton_self _)) h⟩
    · rw [if_neg h, ih]
      constructor
      · intro hold f hf hkey
        rcases List.mem_append.mp hf with hf | hf
        · exact hold f hf hkey
        · rw [List.mem_singleton.mp hf] at hkey
          exact absurd hkey h
      · exact fun hall f hf => hall f (List.mem_append_left _ hf)

/-- The largest value is zero or one of the values. -/
theorem maxValue_mem (frames : List Frame) (key : ComponentKey) :
    maxValue frames key = 0 ∨
      ∃ frame ∈ frames, frame.key = key ∧ frame.value = maxValue frames key := by
  induction frames using List.reverseRecOn with
  | nil => exact .inl rfl
  | append_singleton frames frame ih =>
    have hmem : frame ∈ frames ++ [frame] := List.mem_append_right _ (List.mem_singleton_self _)
    have hold : (∃ f ∈ frames, f.key = key ∧ f.value = maxValue frames key) →
        ∃ f ∈ frames ++ [frame], f.key = key ∧ f.value = maxValue frames key :=
      fun ⟨f, hf, h⟩ => ⟨f, List.mem_append_left _ hf, h⟩
    rw [maxValue_concat]
    by_cases h : frame.key = key
    · rw [if_pos h]
      rcases max_choice (maxValue frames key) frame.value with hmax | hmax
      · rw [hmax]
        exact ih.imp_right hold
      · rw [hmax]
        exact .inr ⟨frame, hmem, h, rfl⟩
    · rw [if_neg h]
      exact ih.imp_right hold

/-- Only the set of keys and values in a list of frames matters. -/
theorem maxValue_congr {frames frames' : List Frame}
    (h : ∀ key value, (∃ f ∈ frames, f.key = key ∧ f.value = value) ↔
      ∃ f ∈ frames', f.key = key ∧ f.value = value) (key : ComponentKey) :
    maxValue frames key = maxValue frames' key := by
  refine le_antisymm ?_ ?_
  · refine (maxValue_le_iff _ _ _).mpr fun f hf hkey => ?_
    obtain ⟨f', hf', hkey', hvalue⟩ := (h key f.value).mp ⟨f, hf, hkey, rfl⟩
    exact hvalue ▸ (maxValue_le_iff _ _ _).mp le_rfl f' hf' hkey'
  · refine (maxValue_le_iff _ _ _).mpr fun f hf hkey => ?_
    obtain ⟨f', hf', hkey', hvalue⟩ := (h key f.value).mpr ⟨f, hf, hkey, rfl⟩
    exact hvalue ▸ (maxValue_le_iff _ _ _).mp le_rfl f' hf' hkey'

/-! ### The saturating total -/

namespace Replicator

/-- The values of the entries of one counter and epoch. -/
def valuesOf (counter epoch : ℕ) (entries : List (ComponentKey × ℕ)) : List ℕ :=
  (entries.filter fun entry => entry.1.counter = counter ∧ entry.1.epoch = epoch).map Prod.snd

/-- The loop returns the sum of the values of the epoch, saturated. -/
theorem mergedTotalFrom_eq (counter epoch : ℕ) : ∀ (entries : List (ComponentKey × ℕ)) (total : ℕ),
    total ≤ amountMax →
      mergedTotalFrom counter epoch total entries =
        min (total + (valuesOf counter epoch entries).sum) amountMax
  | [], total, h => by simp [mergedTotalFrom, valuesOf, h]
  | (key, value) :: rest, total, h => by
    rw [mergedTotalFrom]
    by_cases hkey : key.counter = counter ∧ key.epoch = epoch
    · have hvalues : valuesOf counter epoch ((key, value) :: rest) =
          value :: valuesOf counter epoch rest := by simp [valuesOf, hkey]
      rw [if_neg (by simp [hkey]), hvalues, List.sum_cons]
      by_cases hfit : value > amountMax - total
      · rw [if_pos hfit, min_eq_right (by omega)]
      · rw [if_neg hfit, mergedTotalFrom_eq counter epoch rest _ (by omega), Nat.add_assoc]
    · have hvalues : valuesOf counter epoch ((key, value) :: rest) =
          valuesOf counter epoch rest := by simp [valuesOf, hkey]
      rw [if_pos (by tauto), hvalues, mergedTotalFrom_eq counter epoch rest _ h]

/-- With unique keys the values of an epoch sum to the merged values of all components. -/
theorem sum_valuesOf {entries : List (ComponentKey × ℕ)} (hkeyed : Keyed entries)
    (hsmall : ∀ entry ∈ entries, entry.1.component < 2 ^ 16) (counter epoch : ℕ) :
    (valuesOf counter epoch entries).sum =
      ∑ component ∈ Finset.range (2 ^ 16), (find entries ⟨counter, epoch, component⟩).getD 0 := by
  let selected := entries.filter fun entry => entry.1.counter = counter ∧ entry.1.epoch = epoch
  let value (component : ℕ) := (find entries ⟨counter, epoch, component⟩).getD 0
  have hselected : ∀ entry ∈ selected,
      entry ∈ entries ∧ entry.1 = ⟨counter, epoch, entry.1.component⟩ := by
    rintro ⟨⟨c, e, k⟩, v⟩ hentry
    obtain ⟨hmem, hkey⟩ := List.mem_filter.mp hentry
    obtain ⟨rfl, rfl⟩ : c = counter ∧ e = epoch := by simpa using hkey
    exact ⟨hmem, rfl⟩
  have hvalue : ∀ entry ∈ selected, entry.2 = value entry.1.component := by
    intro entry hentry
    obtain ⟨hmem, hkey⟩ := hselected entry hentry
    show entry.2 = (find entries ⟨counter, epoch, entry.1.component⟩).getD 0
    rw [← hkey, hkeyed.find_of_mem hmem, Option.getD_some]
  have hnodup : (selected.map fun entry => entry.1.component).Nodup := by
    refine List.Nodup.map_on (fun a ha b hb hab => ?_)
      ((List.Nodup.of_map Prod.fst hkeyed).filter _)
    obtain ⟨hmema, hkeya⟩ := hselected a ha
    obtain ⟨hmemb, hkeyb⟩ := hselected b hb
    have hkey : a.1 = b.1 := by rw [hkeya, hkeyb, hab]
    exact List.inj_on_of_nodup_map hkeyed hmema hmemb hkey
  calc (valuesOf counter epoch entries).sum
      = (selected.map fun entry => value entry.1.component).sum := by
        rw [valuesOf, List.map_congr_left hvalue]
    _ = ∑ component ∈ (selected.map fun entry => entry.1.component).toFinset, value component := by
        rw [List.sum_toFinset _ hnodup, List.map_map]
        rfl
    _ = ∑ component ∈ Finset.range (2 ^ 16), value component := by
        refine Finset.sum_subset (fun component h => ?_) fun component _ hnot => ?_
        · obtain ⟨entry, hentry, rfl⟩ := List.mem_map.mp (List.mem_toFinset.mp h)
          exact Finset.mem_range.mpr (hsmall entry (hselected entry hentry).1)
        · -- a component with a value has an entry that is selected
          show (find entries ⟨counter, epoch, component⟩).getD 0 = 0
          cases hfind : find entries ⟨counter, epoch, component⟩ with
          | none => rfl
          | some v =>
            have hentry : ((⟨counter, epoch, component⟩, v) : ComponentKey × ℕ) ∈ selected :=
              List.mem_filter.mpr ⟨mem_of_find hfind, by simp⟩
            exact absurd (List.mem_toFinset.mpr (List.mem_map.mpr ⟨_, hentry, rfl⟩)) hnot

end Replicator

/-! ### The invariant -/

namespace Network

variable {ι : Type*} [DecidableEq ι] {address : ι → SockAddr} {w w' : Network ι}

/-- A frame carries an update that was published. -/
def Genuine (w : Network ι) (frame : Frame) : Prop :=
  ∃ update ∈ w.published, frame.key = update.key ∧ frame.value = update.value

/-- A byte string is not a snapshot or carries an update that was published. -/
def Carries (w : Network ι) (bytes : List UInt8) : Prop :=
  ∀ frame, decodeFrame (bytes.take kFrameSize) = some frame → frame.type = .snapshot →
    w.Genuine frame

/-- Only updates that fit into a frame are published. -/
def publishesFit (_ : Network ι) : NetworkAction ι → Prop
  | .publish _ update _ => update.Fits
  | _ => True

instance (w : Network ι) : ∀ a, Decidable (publishesFit w a)
  | .publish _ update _ => inferInstanceAs (Decidable update.Fits)
  | .drain _ _ _ => .isTrue trivial
  | .receive _ _ => .isTrue trivial
  | .retry _ _ => .isTrue trivial
  | .start _ _ => .isTrue trivial
  | .stop _ => .isTrue trivial

/-- What holds of a node in a run: it only handles published updates, and what it has merged is
what was delivered to it. -/
structure NodeInv (w : Network ι) (delivered : List Frame) (r : Replicator) : Prop where
  outbound : ∀ update ∈ r.outbound, update ∈ w.published
  pending : ∀ entry ∈ r.pending, w.Carries entry.2.bytes
  merged : ∀ key, r.merged key = maxValue delivered key
  keyed : Keyed r.components
  small : ∀ entry ∈ r.components, entry.1.component < 2 ^ 16

/-- The invariant of every run in which only fitting updates are published. -/
structure Inv (w : Network ι) : Prop where
  fits : ∀ update ∈ w.published, update.Fits
  packets : ∀ p ∈ w.packets, w.Carries p.bytes
  genuine : ∀ i, ∀ frame ∈ w.delivered i, w.Genuine frame
  node : ∀ i, w.NodeInv (w.delivered i) (w.nodes i)

omit [DecidableEq ι] in
theorem Inv.new (config : ι → UdpReplicationConfig) : (Network.new config).Inv where
  fits _ h := absurd h List.not_mem_nil
  packets _ h := absurd h List.not_mem_nil
  genuine _ _ h := absurd h List.not_mem_nil
  node _ := ⟨fun _ h => absurd h List.not_mem_nil, fun _ h => absurd h List.not_mem_nil,
    fun _ => rfl, List.nodup_nil, fun _ h => absurd h List.not_mem_nil⟩

omit [DecidableEq ι] in
/-- The snapshot of a published update carries it. -/
theorem Inv.carries_snapshot (h : w.Inv) {newest : ReplicationUpdate}
    (hmem : newest ∈ w.published) (sequence : ℕ) :
    w.Carries (encodeFrame (Replicator.snapshotFrame sequence newest)) := by
  intro frame hdecode _
  rw [decodeFrame_take_encodeFrame] at hdecode
  obtain rfl := Option.some.inj hdecode
  obtain ⟨hcounter, hepoch, hcomponent, hvalue⟩ := h.fits newest hmem
  have hwire : newest.component < 2 ^ 16 := Nat.lt_succ_of_le hcomponent
  refine ⟨newest, hmem, ?_, Nat.mod_eq_of_lt hvalue⟩
  simp only [Frame.key, Frame.onWire, Replicator.snapshotFrame, ReplicationUpdate.key,
    Nat.mod_eq_of_lt hcounter, Nat.mod_eq_of_lt hepoch, Nat.mod_eq_of_lt hwire]

omit [DecidableEq ι] in
/-- An acknowledgement is not a snapshot. -/
theorem carries_ack (w : Network ι) (component sequence : ℕ) :
    w.Carries (encodeFrame ⟨.ack, component, sequence, 0, 0, 0⟩) := by
  intro frame hdecode htype
  rw [decodeFrame_take_encodeFrame] at hdecode
  obtain rfl := Option.some.inj hdecode
  cases htype

/-- A node changes and sends, with everything it now handles genuine. -/
theorem Inv.advance (h : w.Inv) {i : ι} {session : ℕ} {result : Replicator × List Datagram}
    (hnode : w.NodeInv (w.delivered i) result.1) (hsent : ∀ d ∈ result.2, w.Carries d.bytes) :
    (w.advance address i session result).Inv where
  fits := h.fits
  packets p hp := by
    rcases mem_advance_packets hp with hp | ⟨d, hd, rfl⟩
    · exact h.packets p hp
    · exact hsent d hd
  genuine := h.genuine
  node j := by
    rw [advance_nodes, advance_delivered]
    by_cases hj : j = i
    · subst hj
      rw [Function.update_self]
      exact ⟨hnode.outbound, hnode.pending, hnode.merged, hnode.keyed, hnode.small⟩
    · rw [Function.update_of_ne hj]
      have hj := h.node j
      exact ⟨hj.outbound, hj.pending, hj.merged, hj.keyed, hj.small⟩

/-- A node changes without sending. -/
theorem Inv.set_node (h : w.Inv) {i : ι} {r : Replicator} (session : ι → ℕ)
    (hnode : w.NodeInv (w.delivered i) r) :
    ({ w with nodes := Function.update w.nodes i r, session } : Network ι).Inv where
  fits := h.fits
  packets := h.packets
  genuine := h.genuine
  node j := by
    show NodeInv _ (w.delivered j) (Function.update w.nodes i r j)
    by_cases hj : j = i
    · subst hj
      rw [Function.update_self]
      exact ⟨hnode.outbound, hnode.pending, hnode.merged, hnode.keyed, hnode.small⟩
    · rw [Function.update_of_ne hj]
      have hj := h.node j
      exact ⟨hj.outbound, hj.pending, hj.merged, hj.keyed, hj.small⟩

/-! ### One lemma per kind of step -/

theorem Inv.publish (h : w.Inv) {i : ι} {update : ReplicationUpdate} {pushed : Bool}
    (hfits : update.Fits) :
    ({ w with
      nodes := Function.update w.nodes i ((w.nodes i).publish update pushed)
      published := w.published ++ [update] } : Network ι).Inv := by
  have hsub : ∀ u ∈ w.published, u ∈ w.published ++ [update] := fun u hu =>
    List.mem_append_left _ hu
  have hgenuine : ∀ frame, w.Genuine frame → ∃ u ∈ w.published ++ [update],
      frame.key = u.key ∧ frame.value = u.value := fun frame ⟨u, hu, hframe⟩ =>
    ⟨u, hsub u hu, hframe⟩
  refine ⟨fun u hu => ?_, fun p hp frame hdecode htype => ?_, fun j frame hframe => ?_,
    fun j => ?_⟩
  · rcases List.mem_append.mp hu with hu | hu
    · exact h.fits u hu
    · rw [List.mem_singleton.mp hu]
      exact hfits
  · exact hgenuine frame (h.packets p hp frame hdecode htype)
  · exact hgenuine frame (h.genuine j frame hframe)
  · show NodeInv _ (w.delivered j) (Function.update w.nodes i _ j)
    have hnode := h.node j
    have hpending : ∀ entry ∈ (w.nodes j).pending, ∀ frame,
        decodeFrame (entry.2.bytes.take kFrameSize) = some frame → frame.type = .snapshot →
          ∃ u ∈ w.published ++ [update], frame.key = u.key ∧ frame.value = u.value :=
      fun entry hentry frame hdecode htype =>
        hgenuine frame (hnode.pending entry hentry frame hdecode htype)
    by_cases hj : j = i
    · subst hj
      rw [Function.update_self]
      unfold Replicator.publish
      split
      · refine ⟨fun u hu => ?_, hpending, hnode.merged, hnode.keyed, hnode.small⟩
        rcases List.mem_append.mp hu with hu | hu
        · exact hsub u (hnode.outbound u hu)
        · exact List.mem_append_right _ hu
      · exact ⟨fun u hu => hsub u (hnode.outbound u hu), hpending, hnode.merged, hnode.keyed,
          hnode.small⟩
    · rw [Function.update_of_ne hj]
      exact ⟨fun u hu => hsub u (hnode.outbound u hu), hpending, hnode.merged, hnode.keyed,
        hnode.small⟩

theorem Inv.sendSnapshot (h : w.Inv) {i : ι} {newest : ReplicationUpdate} (peer : SockAddr)
    (hmem : newest ∈ w.published) :
    (w.advance address i (w.session i)
      (Replicator.sendSnapshot newest peer (w.nodes i))).Inv := by
  have hnode := h.node i
  unfold Replicator.sendSnapshot
  split
  · exact h.advance ⟨hnode.outbound, hnode.pending, hnode.merged, hnode.keyed, hnode.small⟩
      fun d hd => absurd hd List.not_mem_nil
  · refine h.advance
      ⟨hnode.outbound, fun entry hentry => ?_, hnode.merged, hnode.keyed, hnode.small⟩
      fun d hd => ?_
    · rcases mem_of_mem_emplace hentry with hentry | rfl
      · exact hnode.pending entry hentry
      · exact h.carries_snapshot hmem _
    · rw [List.mem_singleton.mp hd]
      exact h.carries_snapshot hmem _

theorem Inv.drain (h : w.Inv) {i : ι} {taken : ℕ} {order : List ReplicationUpdate}
    {result : Replicator × List Datagram}
    (hs : (w.nodes i).drainOutbound taken order = some result) :
    (w.advance address i (w.session i) result).Inv := by
  have hnode := h.node i
  have hpopped : (w.popped i taken).Inv := h.set_node w.session
    ⟨fun u hu => hnode.outbound u (List.mem_of_mem_drop hu), hnode.pending, hnode.merged,
      hnode.keyed, hnode.small⟩
  have hdrained : (w.advance address i (w.session i) result).published = w.published ∧
      (w.advance address i (w.session i) result).Inv :=
    drain_induction (P := fun _ v => v.published = w.published ∧ v.Inv) hs ⟨rfl, hpopped⟩
      fun _ v newest peer hmem hv =>
        ⟨hv.1, hv.2.sendSnapshot peer (hv.1 ▸ hnode.outbound newest hmem)⟩
  exact hdrained.2

theorem Inv.retry (h : w.Inv) {i : ι} (sequence : ℕ) :
    (w.advance address i (w.session i) ((w.nodes i).retryExpired sequence)).Inv := by
  have hnode := h.node i
  unfold Replicator.retryExpired
  split
  · exact h.advance hnode fun d hd => absurd hd List.not_mem_nil
  · rename_i message hfind
    have hbytes := hnode.pending _ (mem_of_find hfind)
    split
    · exact h.advance ⟨hnode.outbound, fun entry hentry => hnode.pending entry
        ((erase_sublist _ _).subset hentry), hnode.merged, hnode.keyed, hnode.small⟩
        fun d hd => absurd hd List.not_mem_nil
    · refine h.advance ⟨hnode.outbound, fun entry hentry => ?_, hnode.merged, hnode.keyed,
        hnode.small⟩ fun d hd => ?_
      · rcases mem_of_mem_assign hentry with hentry | rfl
        · exact hnode.pending entry hentry
        · exact hbytes
      · rw [List.mem_singleton.mp hd]
        exact hbytes

theorem Inv.start (h : w.Inv) {i : ι} (answers : SocketAnswers) (session : ι → ℕ) :
    ({ w with
      nodes := Function.update w.nodes i ((w.nodes i).started answers), session } :
        Network ι).Inv := by
  have hnode := h.node i
  refine h.set_node session ?_
  rcases (w.nodes i).started_cases answers with ⟨-, hkeeps⟩ | ⟨-, hsame⟩
  · refine ⟨fun u hu => hnode.outbound u (hkeeps.outbound ▸ hu), fun entry hentry => ?_,
      fun key => ?_, hkeeps.components ▸ hnode.keyed, hkeeps.components ▸ hnode.small⟩
    · rw [hkeeps.pending] at hentry
      exact absurd hentry List.not_mem_nil
    · rw [Replicator.merged, hkeeps.components]
      exact hnode.merged key
  · rw [hsame]
    exact hnode

/-- A datagram is delivered. -/
theorem Inv.receive (h : w.Inv) {i : ι} {p : Packet} (hp : p ∈ w.packets) :
    ({ w.advance address i p.session ((w.nodes i).receive p.bytes p.source) with
      delivered := Function.update w.delivered i (w.delivered i ++ p.snapshot.toList) } :
        Network ι).Inv := by
  have hnode := h.node i
  -- what arrives is genuine, so the node keeps its invariant with the frame added
  have hnew : ∀ frame ∈ w.delivered i ++ p.snapshot.toList, w.Genuine frame := by
    intro frame hframe
    rcases List.mem_append.mp hframe with hframe | hframe
    · exact h.genuine i frame hframe
    · obtain ⟨hdecode, htype⟩ := Option.filter_eq_some_iff.mp (Option.mem_toList.mp hframe)
      exact h.packets p hp frame hdecode (of_decide_eq_true htype)
  obtain ⟨r', sent, hreceive⟩ : ∃ r' sent, (w.nodes i).receive p.bytes p.source = (r', sent) :=
    ⟨_, _, rfl⟩
  have hafter : w.NodeInv (w.delivered i ++ p.snapshot.toList) r' ∧
      ∀ d ∈ sent, w.Carries d.bytes := by
    rcases Replicator.receive_cases hreceive with ⟨hdecode, rfl, rfl⟩ |
      ⟨frame, hdecode, htype, rfl, rfl⟩ | ⟨frame, hdecode, htype, rfl, rfl⟩
    · have hnone : p.snapshot = none := by rw [Packet.snapshot, hdecode]; rfl
      rw [hnone, Option.toList_none, List.append_nil]
      exact ⟨hnode, fun d hd => absurd hd List.not_mem_nil⟩
    · have hnone : p.snapshot = none := by simp [Packet.snapshot, hdecode, htype]
      obtain ⟨pending, acknowledgedCount, hsub, heq⟩ :=
        (w.nodes i).receiveAck_eq frame p.source
      rw [hnone, Option.toList_none, List.append_nil, heq]
      exact ⟨⟨hnode.outbound, fun entry hentry => hnode.pending entry (hsub.subset hentry),
        hnode.merged, hnode.keyed, hnode.small⟩, fun d hd => absurd hd List.not_mem_nil⟩
    · have hsome : p.snapshot = some frame := by simp [Packet.snapshot, hdecode, htype]
      rw [hsome, Option.toList_some]
      refine ⟨⟨hnode.outbound, hnode.pending, fun key => ?_,
        Replicator.keyed_observe hnode.keyed _ _, fun entry hentry => ?_⟩, fun d hd => ?_⟩
      · rw [Replicator.merged, Replicator.find_observe, maxValue_concat, ← hnode.merged key]
        simp only [Replicator.merged, eq_comm]
      · rcases Replicator.mem_observe hentry with hentry | hkey
        · exact hnode.small entry hentry
        · rw [hkey]
          exact component_lt_of_decodeFrame hdecode
      · rw [List.mem_singleton.mp hd]
        exact carries_ack w _ _
  rw [hreceive]
  refine ⟨h.fits, fun q hq => ?_, fun j frame hframe => ?_, fun j => ?_⟩
  · rcases mem_advance_packets hq with hq | ⟨d, hd, rfl⟩
    · exact h.packets q hq
    · exact hafter.2 d hd
  · replace hframe : frame ∈ Function.update w.delivered i _ j := hframe
    by_cases hj : j = i
    · subst hj
      rw [Function.update_self] at hframe
      exact hnew frame hframe
    · rw [Function.update_of_ne hj] at hframe
      exact h.genuine j frame hframe
  · show NodeInv _ (Function.update w.delivered i _ j) (Function.update w.nodes i r' j)
    by_cases hj : j = i
    · subst hj
      rw [Function.update_self, Function.update_self]
      have hr := hafter.1
      exact ⟨hr.outbound, hr.pending, hr.merged, hr.keyed, hr.small⟩
    · rw [Function.update_of_ne hj, Function.update_of_ne hj]
      have hj := h.node j
      exact ⟨hj.outbound, hj.pending, hj.merged, hj.keyed, hj.small⟩

/-- Every step keeps the invariant. -/
theorem Inv.step {a : NetworkAction ι} (h : w.Inv) (hok : publishesFit w a)
    (hs : w.step address a = some w') : w'.Inv := by
  cases a with
  | publish i update pushed =>
    obtain rfl := Option.some.inj hs
    exact h.publish hok
  | drain i taken order =>
    simp only [Network.step] at hs
    split at hs
    · obtain ⟨result, hresult, rfl⟩ := Option.map_eq_some_iff.mp hs
      exact h.drain hresult
    · cases hs
  | receive i packet =>
    simp only [Network.step] at hs
    split at hs
    · cases hs
    · rename_i p hp
      split at hs
      · obtain rfl := Option.some.inj hs
        exact h.receive (List.mem_of_getElem? hp)
      · cases hs
  | retry i sequence =>
    simp only [Network.step] at hs
    split at hs
    · obtain rfl := Option.some.inj hs
      exact h.retry sequence
    · cases hs
  | start i answers =>
    obtain rfl := Option.some.inj hs
    exact h.start answers _
  | stop i =>
    obtain rfl := Option.some.inj hs
    have hnode := h.node i
    exact h.set_node w.session
      ⟨hnode.outbound, hnode.pending, hnode.merged, hnode.keyed, hnode.small⟩

theorem Inv.steps {config : ι → UdpReplicationConfig}
    (h : Steps (Network.step address) publishesFit (Network.new config) w) : w.Inv :=
  h.invariant (Inv.new config) fun _ _ _ hinv hok hs => hinv.step hok hs

/-! ### Convergence -/

omit [DecidableEq ι] in
/-- What a node has merged is what was delivered to it. -/
theorem Inv.componentValue_eq (h : w.Inv) (i : ι) (counter epoch component : ℕ) :
    (w.nodes i).componentValue counter epoch component =
      maxValue (w.delivered i) ⟨counter, epoch, component⟩ := by
  rw [Replicator.componentValue_eq]
  exact (h.node i).merged _

omit [DecidableEq ι] in
/-- The total is the saturated sum of the component values, in whatever order the map is
visited. -/
theorem Inv.mergedTotal_eq (h : w.Inv) (i : ι) {order : List (ComponentKey × ℕ)}
    (horder : order.Perm (w.nodes i).components) (counter epoch : ℕ) :
    Replicator.mergedTotal order counter epoch =
      min (∑ component ∈ Finset.range (2 ^ 16),
        (w.nodes i).componentValue counter epoch component) amountMax := by
  have hvalues : (Replicator.valuesOf counter epoch order).sum =
      (Replicator.valuesOf counter epoch (w.nodes i).components).sum :=
    ((horder.filter _).map Prod.snd).sum_eq
  have hnode := h.node i
  rw [Replicator.mergedTotal, Replicator.mergedTotalFrom_eq counter epoch order 0 (Nat.zero_le _),
    Nat.zero_add, hvalues, Replicator.sum_valuesOf hnode.keyed hnode.small]
  simp only [Replicator.componentValue_eq, Replicator.merged]

/-- Frames are only ever added to what was delivered. -/
theorem delivered_step {a : NetworkAction ι} (hs : w.step address a = some w') (i : ι) :
    ∀ frame ∈ w.delivered i, frame ∈ w'.delivered i := by
  intro frame hframe
  cases a with
  | receive j packet =>
    simp only [Network.step] at hs
    split at hs
    · cases hs
    · split at hs
      · obtain rfl := Option.some.inj hs
        show frame ∈ Function.update w.delivered j _ i
        by_cases hij : i = j
        · subst hij
          rw [Function.update_self]
          exact List.mem_append_left _ hframe
        · rwa [Function.update_of_ne hij]
      · cases hs
  | publish j update pushed =>
    obtain rfl := Option.some.inj hs
    exact hframe
  | drain j taken order =>
    simp only [Network.step] at hs
    split at hs
    · obtain ⟨result, -, rfl⟩ := Option.map_eq_some_iff.mp hs
      exact hframe
    · cases hs
  | retry j sequence =>
    simp only [Network.step] at hs
    split at hs
    · obtain rfl := Option.some.inj hs
      exact hframe
    · cases hs
  | start j answers =>
    obtain rfl := Option.some.inj hs
    exact hframe
  | stop j =>
    obtain rfl := Option.some.inj hs
    exact hframe

theorem delivered_steps {ok : Network ι → NetworkAction ι → Prop}
    (h : Steps (Network.step address) ok w w') (i : ι) :
    ∀ frame ∈ w.delivered i, frame ∈ w'.delivered i :=
  h.invariant (P := fun t => ∀ frame ∈ w.delivered i, frame ∈ t.delivered i) (fun _ hf => hf)
    fun _ _ _ hsub _ hs frame hf => delivered_step hs i frame (hsub frame hf)

/-- **Replication converges whatever the network does.** In every run in which the published
component ids fit into a frame: the value a node holds for a key is zero or one that was
published for exactly that key, it is the maximum over the frames delivered for the key, and it
never decreases; the total of an epoch is the sum of its component values saturated at the
largest amount, in whatever order the map is visited; and two receivers that were delivered the
same keys and values, in any orders and multiplicities, agree on every component value and on
every total. -/
theorem replication_converges {config : ι → UdpReplicationConfig}
    (h : Steps (Network.step address) publishesFit (Network.new config) w) :
    (∀ i counter epoch component,
      ((w.nodes i).componentValue counter epoch component = 0 ∨
        ∃ update ∈ w.published, update.key = ⟨counter, epoch, component⟩ ∧
          update.value = (w.nodes i).componentValue counter epoch component) ∧
      (w.nodes i).componentValue counter epoch component =
        maxValue (w.delivered i) ⟨counter, epoch, component⟩ ∧
      ∀ t, Steps (Network.step address) publishesFit w t →
        (w.nodes i).componentValue counter epoch component ≤
          (t.nodes i).componentValue counter epoch component) ∧
    (∀ i counter epoch order, order.Perm (w.nodes i).components →
      Replicator.mergedTotal order counter epoch =
        min (∑ component ∈ Finset.range (2 ^ 16),
          (w.nodes i).componentValue counter epoch component) amountMax) ∧
    (∀ t, Steps (Network.step address) publishesFit (Network.new config) t → ∀ i j,
      (∀ key value, (∃ f ∈ w.delivered i, f.key = key ∧ f.value = value) ↔
        ∃ f ∈ t.delivered j, f.key = key ∧ f.value = value) →
      ∀ counter epoch,
        (∀ component, (w.nodes i).componentValue counter epoch component =
          (t.nodes j).componentValue counter epoch component) ∧
        ∀ order order', order.Perm (w.nodes i).components → order'.Perm (t.nodes j).components →
          Replicator.mergedTotal order counter epoch =
            Replicator.mergedTotal order' counter epoch) := by
  have hinv : w.Inv := Inv.steps h
  refine ⟨fun i counter epoch component => ⟨?_, hinv.componentValue_eq i counter epoch component,
    fun t ht => ?_⟩, fun i counter epoch order horder => hinv.mergedTotal_eq i horder counter epoch,
    fun t ht i j hsame counter epoch => ?_⟩
  · rw [hinv.componentValue_eq]
    refine (maxValue_mem _ _).imp_right fun ⟨frame, hframe, hkey, hvalue⟩ => ?_
    obtain ⟨update, hupdate, hkey', hvalue'⟩ := hinv.genuine i frame hframe
    exact ⟨update, hupdate, hkey'.symm.trans hkey, hvalue'.symm.trans hvalue⟩
  · have hinv' : t.Inv := Inv.steps (h.trans ht)
    rw [hinv.componentValue_eq, hinv'.componentValue_eq]
    refine (maxValue_le_iff _ _ _).mpr fun frame hframe => ?_
    exact (maxValue_le_iff _ _ _).mp le_rfl frame (delivered_steps ht i frame hframe)
  · have hinv' : t.Inv := Inv.steps ht
    have hvalues : ∀ component, (w.nodes i).componentValue counter epoch component =
        (t.nodes j).componentValue counter epoch component := by
      intro component
      rw [hinv.componentValue_eq, hinv'.componentValue_eq, maxValue_congr hsame]
    refine ⟨hvalues, fun order order' horder horder' => ?_⟩
    rw [hinv.mergedTotal_eq i horder, hinv'.mergedTotal_eq j horder']
    simp only [hvalues]

/-- One published update reaches the receiver, twice. -/
theorem replication_converges_loopback :
    ∃ w, Steps (Network.step loopbackAddress) publishesFit (Network.new loopbackConfig) w ∧
      (w.nodes 1).componentValue 42 7 0 = 500 ∧
      ∃ update ∈ w.published, update.key = ⟨42, 7, 0⟩ ∧ update.value = 500 := by
  have hexec : (exec (Network.step loopbackAddress) publishesFit (Network.new loopbackConfig)
      [.start 1 loopbackAnswers, .start 0 loopbackAnswers, .publish 0 ⟨42, 7, 0, 500⟩ true,
        .drain 0 1 [⟨42, 7, 0, 500⟩], .receive 1 0, .retry 0 1, .receive 1 2]).map
        (fun w => decide ((w.nodes 1).componentValue 42 7 0 = 500)) = some true := by
    decide +kernel
  obtain ⟨w, hrun, hvalue⟩ := Steps.exists_of_exec hexec
  refine ⟨w, hrun, hvalue, ?_⟩
  have hfirst := ((replication_converges hrun).1 1 42 7 0).1
  rw [hvalue] at hfirst
  exact hfirst.resolve_left (by decide)

end Network

end Replication

end HotCounter
