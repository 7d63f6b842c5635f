import HotCounter.Handoff.View

/-!
# The invariants of the handoff protocol

`ClusterInvariant` is what holds of every reachable view of a cluster. Its first part needs no
assumption: crashes, restarts, journal failures and stops are all allowed. The fields under `g` hold
in orderly runs only; `g` is a parameter, so that one proof serves both kinds of runs. A theorem
about all runs takes `False` for it, one about orderly runs takes `True`.

The rest of the module is the rely/guarantee setting of one node's controller. `Rely` is what
the other nodes, and the other threads of the node itself, may do while the controller is
between two effects. `follower_guar` and `leader_guar` reduce the guarantee of an effect to
facts about the one node that performs it.
-/

namespace HotCounter

open Foundation

variable (K : Deployment) (g : Prop)

namespace View

/-- A frame was sent. -/
def sent (v : View) (frame : Frame) : Prop := ∃ packet ∈ v.net, packet.frame = frame

/-- The view after node `i` became `n` and sent some packets. -/
def set (v : View) (i : ℕ) (n : NodeView) (packets : List Packet) : View :=
  ⟨Function.update v.nodes i n, packets ++ v.net⟩

variable {v : View} {i j : ℕ} {n : NodeView} {packets : List Packet}

@[simp]
theorem set_nodes_self : (v.set i n packets).nodes i = n := Function.update_self ..

theorem set_nodes_of_ne (h : j ≠ i) : (v.set i n packets).nodes j = v.nodes j :=
  Function.update_of_ne h ..

@[simp]
theorem set_set {n' : NodeView} : (v.set i n packets).set i n' [] = v.set i n' packets := by
  simp [set]

theorem mem_set_net {packet : Packet} :
    packet ∈ (v.set i n packets).net ↔ packet ∈ packets ∨ packet ∈ v.net := List.mem_append

theorem sent_set {frame : Frame} :
    (v.set i n packets).sent frame ↔ (∃ p ∈ packets, p.frame = frame) ∨ v.sent frame := by
  simp only [sent, mem_set_net, or_and_right, exists_or]

/-- What holds of the node that changed and of the others holds of every node. -/
theorem forall_set {P : ℕ → NodeView → Prop} (hself : P i n)
    (hother : ∀ j, j ≠ i → P j (v.nodes j)) (j : ℕ) : P j ((v.set i n packets).nodes j) := by
  by_cases hji : j = i
  · subst hji
    rwa [set_nodes_self]
  · rw [set_nodes_of_ne hji]
    exact hother j hji

/-- What holds of the new frames and of those sent before holds of every frame. -/
theorem forall_sent_set {P : Frame → Prop} (hnew : ∀ p ∈ packets, P p.frame)
    (hold : ∀ frame, v.sent frame → P frame) (frame : Frame)
    (hs : (v.set i n packets).sent frame) : P frame := by
  rcases sent_set.mp hs with ⟨p, hp, rfl⟩ | hs
  · exact hnew p hp
  · exact hold frame hs

end View

/-- The leader committed a record that sums the reports of all members. -/
structure Decided (v : View) (record : JournalRecord) : Prop where
  up : (v.nodes K.leader).up = true
  quiet : ¬ (v.nodes K.leader).servesPeak
  nodup : ((v.nodes K.leader).impl.prepared.map Prod.fst).Nodup
  all : ∀ m, m ∈ (v.nodes K.leader).impl.prepared.map Prod.fst ↔ m ∈ K.ids
  total : record.total = ((v.nodes K.leader).impl.prepared.map (·.2.componentTotal)).sum
  own : ∀ report ∈ (v.nodes K.leader).impl.prepared, report.1 = K.leader →
    report.2.componentTotal = (v.nodes K.leader).engine.reserved.used
  reports : ∀ report ∈ (v.nodes K.leader).impl.prepared, report.1 ≠ K.leader →
    ∃ frame, v.sent frame ∧ frame.type = .prepared ∧ frame.sender = report.1 ∧
      frame.term = record.term ∧ frame.value = report.2.componentTotal

/-- Only the leader and the frames matter. -/
theorem Decided.of_leader {K : Deployment} {v v' : View} {r : JournalRecord} (h : Decided K v r)
    (hL : v'.nodes K.leader = v.nodes K.leader) (hsent : ∀ frame, v.sent frame → v'.sent frame) :
    Decided K v' r := by
  refine ⟨by rw [hL]; exact h.up, by rw [hL]; exact h.quiet, by rw [hL]; exact h.nodup,
    by rw [hL]; exact h.all, by rw [hL]; exact h.total, by rw [hL]; exact h.own, ?_⟩
  rw [hL]
  intro report hreport hne
  obtain ⟨frame, hs, hframe⟩ := h.reports report hreport hne
  exact ⟨frame, hsent frame hs, hframe⟩

/-- The journal of a node that owes a report: prepared with it, or committed. -/
def Reported (n : NodeView) (term value : ℕ) : Prop :=
  ∃ record, n.journal = some record ∧ record.term = term ∧
    (record.phase = .prepared ∧ record.total = value ∨ record.phase = .committed)

/-- The protocol's invariant. -/
structure ClusterInvariant (v : View) : Prop where
  ok : ∀ i, (v.nodes i).up = true → NodeOk K i (v.nodes i)
  /-- every committed record is the leader's -/
  agree : ∀ i r, (v.nodes i).committed r → (v.nodes K.leader).committed r
  record : ∀ r, (v.nodes K.leader).committed r → 1 ≤ r.term ∧ r.total ≤ K.limit ∧
    r.strictOwner = K.owner ∧ r.state.componentTotal = r.total
  /-- a committed node never serves peak requests -/
  frozen : ∀ i r, (v.nodes i).committed r → (v.nodes i).up = true → ¬ (v.nodes i).servesPeak
  /-- a commit frame carries the leader's record -/
  commits : ∀ frame, v.sent frame → frame.type = .commit → ∃ r, (v.nodes K.leader).committed r ∧
    frame.term = r.term ∧ frame.counter = r.state.counter ∧ frame.epoch = r.state.epoch ∧
    frame.value = r.total
  /-- an acknowledgement comes from a node that has installed its record -/
  acks : ∀ frame, v.sent frame → frame.type = .commitAck → frame.sender ≠ K.leader ∧
    (∃ r, (v.nodes frame.sender).committed r ∧ r.term = frame.term) ∧
    ((v.nodes frame.sender).up = true →
      (v.nodes frame.sender).engine.mode ≠ .reservedPeak)
  /-- a node that owes a report has journaled it and serves no peak requests -/
  reported : ∀ i term value, (v.nodes i).outstanding term value →
    i ≠ K.leader ∧ (∃ c, Configured K i c) ∧ Reported (v.nodes i) term value ∧
    ((v.nodes i).up = true → ¬ (v.nodes i).servesPeak)
  preparedSender : ∀ frame, v.sent frame → frame.type = .prepared → frame.sender ≠ K.leader
  /-- no frame is newer than the term the leader holds -/
  newest : g → ∀ term, (v.nodes K.leader).holds term → ∀ p ∈ v.net, p.frame.term ≤ term
  /-- the leader does not hold a term it aborted -/
  aborted : g → ∀ frame, v.sent frame → frame.type = .abort →
    ¬ (v.nodes K.leader).holds frame.term
  /-- a report for the term the leader holds is still owed -/
  barrier : g → ∀ frame, v.sent frame → frame.type = .prepared →
    (v.nodes K.leader).holds frame.term →
    (v.nodes frame.sender).up = true ∧
      (v.nodes frame.sender).outstanding frame.term frame.value
  /-- an owed report is the total of the shards -/
  counted : g → ∀ i term value, (v.nodes i).up = true → (v.nodes i).outstanding term value →
    (v.nodes i).engine.reserved.used = value
  decided : g → ∀ r, (v.nodes K.leader).committed r → Decided K v r
  /-- a process that is not running has not run -/
  started : g → ∀ i, (v.nodes i).up = false →
    (∀ r, (v.nodes i).journal = some r → r.phase = .idle) ∧ (v.nodes i).served = [] ∧
      (v.nodes i).performed = [] ∧ (v.nodes i).impl.state = .idle

/-- A process that has left peak mode was seeded from its committed record. -/
theorem ClusterInvariant.seeded {K : Deployment} {g : Prop} {v : View}
    (hv : ClusterInvariant K g v) {i : ℕ} (hup : (v.nodes i).up = true)
    (hmode : (v.nodes i).engine.mode ≠ .reservedPeak) :
    ∃ r, (v.nodes i).committed r ∧ (v.nodes i).engine.strict.value =
      r.total + spentIn .dangerStrict (v.nodes i).served := by
  obtain hpeak | ⟨r, hr, -, hvalue⟩ := (hv.ok i hup).modes
  · exact absurd hpeak hmode
  · exact ⟨r, hr, hvalue⟩

/-- Only the strict owner serves as such. -/
theorem ClusterInvariant.owner_of_danger {K : Deployment} {g : Prop} {v : View}
    (hv : ClusterInvariant K g v) {i : ℕ} (hup : (v.nodes i).up = true)
    (hmode : (v.nodes i).engine.mode = .dangerStrict) :
    i = K.owner := by
  obtain hpeak | ⟨r, -, howner, -⟩ := (hv.ok i hup).modes
  · cases hpeak.symm.trans hmode
  · rw [hmode, CounterEngine.handoffMode] at howner
    split at howner
    · exact beq_iff_eq.mp ‹_›
    · cases howner

/-! ### Rely -/

/-- The monotone part of what can happen to a view. -/
structure Extends (v v' : View) : Prop where
  net : ∀ p ∈ v.net, p ∈ v'.net
  committed : ∀ r, (v.nodes K.leader).committed r → (v'.nodes K.leader).committed r
  /-- a term that was seen and is not held is never held again -/
  released : g → ∀ term, (∃ p ∈ v.net, p.frame.term = term) →
    ¬ (v.nodes K.leader).holds term → ¬ (v'.nodes K.leader).holds term

/-- What may happen while the controller of node `i` is between two effects. -/
structure Rely (i : ℕ) (v v' : View) : Prop extends Extends K g v v' where
  node : NodeEnv K i (v.nodes i) (v'.nodes i)
  /-- only the leader draws new terms -/
  bounded : i = K.leader → ∀ bound, 0 < bound → (∀ p ∈ v.net, p.frame.term < bound) →
    ∀ p ∈ v'.net, p.frame.term < bound
  cluster : ClusterInvariant K g v → ClusterInvariant K g v'

variable {K g}

namespace Extends

theorem refl (v : View) : Extends K g v v := ⟨fun _ h => h, fun _ h => h, fun _ _ _ h => h⟩

theorem trans {v₁ v₂ v₃ : View} (h : Extends K g v₁ v₂) (h' : Extends K g v₂ v₃) :
    Extends K g v₁ v₃ where
  net := fun p hp => h'.net p (h.net p hp)
  committed := fun r hr => h'.committed r (h.committed r hr)
  released := by
    intro hg term hseen hnot
    obtain ⟨p, hp, hterm⟩ := hseen
    exact h'.released hg term ⟨p, h.net p hp, hterm⟩ (h.released hg term ⟨p, hp, hterm⟩ hnot)

theorem sent {v v' : View} (h : Extends K g v v') {frame : Frame} (hs : v.sent frame) :
    v'.sent frame := by
  obtain ⟨p, hp, hframe⟩ := hs
  exact ⟨p, h.net p hp, hframe⟩

end Extends

namespace Rely

theorem refl (i : ℕ) (v : View) : Rely K g i v v :=
  ⟨.refl v, .refl _, fun _ _ _ h => h, id⟩

theorem trans {i : ℕ} {v₁ v₂ v₃ : View} (h : Rely K g i v₁ v₂) (h' : Rely K g i v₂ v₃) :
    Rely K g i v₁ v₃ :=
  ⟨h.toExtends.trans h'.toExtends, h.node.trans h'.node,
    fun hi bound hpos hv => h'.bounded hi bound hpos (h.bounded hi bound hpos hv),
    fun hg => h'.cluster (h.cluster hg)⟩

end Rely

/-! ### Guarantee -/

/-- What an effect of node `i` must keep to. A leader that is committing goes on until the
acknowledgements are in. -/
structure Guar (K : Deployment) (g : Prop) (i : ℕ) (v v' : View) : Prop where
  cluster : ClusterInvariant K g v'
  rely : ∀ j, j ≠ i → Rely K g j v v'
  keeps : ∀ r, (v.nodes i).committed r → (v'.nodes i).committed r
  committing : i = K.leader → (v.nodes i).impl.state = .leaderCommitting →
    (v'.nodes i).impl.state = .leaderCommitting

theorem Guar.extends {i : ℕ} {v v' : View} (h : Guar K g i v v') : Extends K g v v' :=
  (h.rely (i + 1) (Nat.succ_ne_self i)).toExtends

/-- The controller of node `i` in its cluster. In an orderly run the clock reading from which
the leader draws a term is above every term seen. -/
def setting (K : Deployment) (g : Prop) (i : ℕ) : Setting Impl Reply View where
  step e v r v' := ∃ oracle engine journal packets,
    e.run oracle (v.nodes i).engine (v.nodes i).journal = some (r, engine, journal, packets) ∧
    (g → i = K.leader → e = .clock → (v.nodes i).impl.state = .idle →
      ∀ p ∈ v.net, p.frame.term < oracle.now) ∧
    v' = v.set i { v.nodes i with
      engine := engine
      journal := journal
      performed := e :: (v.nodes i).performed } packets
  fault e := e = .terminate
  expose c v := v.set i { v.nodes i with impl := c } []
  rely := Rely K g i
  guar := Guar K g i
  rely_refl := .refl i
  rely_trans := .trans

/-! ### The two guarantees -/

/-- What an effect does to the node that performs it. -/
structure NodeMove (K : Deployment) (i : ℕ) (e : Effect) (n n' : NodeView) : Prop where
  up : n'.up = true
  performed : n'.performed = e :: n.performed
  ok : NodeOk K i n'
  keeps : ∀ r, n.committed r → n'.committed r
  mode : n.engine.mode ≠ .reservedPeak → n'.engine.mode ≠ .reservedPeak
  used : n'.engine.reserved.used = n.engine.reserved.used
  frozen : ∀ r, n'.committed r → ¬ n'.servesPeak
  /-- unless it aborts, a node that owes a report keeps its journal and stays out of peak mode -/
  owed : e ≠ .abortHandoff → ∀ term value, n.outstanding term value →
    Reported n' term value ∧ ¬ n'.servesPeak

/-- The packets of an effect. -/
def Effect.packets : Effect → List Packet
  | .send destination frame => [⟨destination, frame⟩]
  | _ => []

theorem Effect.mem_packets {e : Effect} {p : Packet} :
    p ∈ e.packets ↔ e = .send p.destination p.frame := by
  cases e with
  | send destination frame =>
    rw [packets, List.mem_singleton]
    constructor
    · rintro rfl
      rfl
    · intro h
      injection h with hdestination hframe
      rw [hdestination, hframe]
  | _ => simp [packets]

/-- What a follower may send. -/
structure FollowerFrame (i : ℕ) (v : View) (n' : NodeView) (frame : Frame) : Prop where
  sender : frame.sender = i
  type : frame.type = .trigger ∨ frame.type = .prepared ∨ frame.type = .commitAck
  seen : frame.term = 0 ∨ ∃ p ∈ v.net, p.frame.term = frame.term
  ack : frame.type = .commitAck →
    (∃ r, n'.committed r ∧ r.term = frame.term) ∧ n'.engine.mode ≠ .reservedPeak
  report : frame.type = .prepared → Reported n' frame.term frame.value ∧ ¬ n'.servesPeak ∧
    n'.engine.reserved.used = frame.value

section Follower

variable {i : ℕ} {e : Effect} {v : View} {n' : NodeView}

/-- What a follower owes after an effect. -/
private theorem owed_of_move (hv : ClusterInvariant K g v) (hup : (v.nodes i).up = true)
    (hm : NodeMove K i e (v.nodes i) n')
    (hframes : ∀ p ∈ e.packets, FollowerFrame i v n' p.frame) {term value : ℕ}
    (h : n'.outstanding term value) :
    Reported n' term value ∧ ¬ n'.servesPeak ∧ (g → n'.engine.reserved.used = value) := by
  rcases (NodeView.outstanding_cons hm.performed).mp h with
    ⟨destination, frame, he, htype, rfl, rfl⟩ | ⟨hne, hold⟩
  · obtain ⟨hjournal, hserve, hused⟩ := (hframes ⟨destination, frame⟩
      (Effect.mem_packets.mpr he)).report htype
    exact ⟨hjournal, hserve, fun _ => hused⟩
  · obtain ⟨hjournal, hserve⟩ := hm.owed hne term value hold
    exact ⟨hjournal, hserve, fun hg => hm.used.trans (hv.counted hg i term value hup hold)⟩

/-- A follower sends no frames of a leader. -/
private theorem FollowerFrame.ne_of_leader {frame : Frame} (h : FollowerFrame i v n' frame) :
    frame.type ≠ .commit ∧ frame.type ≠ .abort := by
  rcases h.type with h | h | h <;> rw [h] <;> exact ⟨nofun, nofun⟩

private theorem follower_acks (hi : i ≠ K.leader) (hv : ClusterInvariant K g v)
    (hup : (v.nodes i).up = true) (hm : NodeMove K i e (v.nodes i) n')
    (hframes : ∀ p ∈ e.packets, FollowerFrame i v n' p.frame) (frame : Frame)
    (hs : (v.set i n' e.packets).sent frame) (htype : frame.type = .commitAck) :
    frame.sender ≠ K.leader ∧
      (∃ r, ((v.set i n' e.packets).nodes frame.sender).committed r ∧ r.term = frame.term) ∧
      (((v.set i n' e.packets).nodes frame.sender).up = true →
        ((v.set i n' e.packets).nodes frame.sender).engine.mode ≠ .reservedPeak) := by
  rcases View.sent_set.mp hs with ⟨p, hp, rfl⟩ | hs
  · obtain ⟨hcommitted, hmode⟩ := (hframes p hp).ack htype
    rw [(hframes p hp).sender, View.set_nodes_self]
    exact ⟨hi, hcommitted, fun _ => hmode⟩
  · obtain ⟨hne, ⟨r, hr, hterm⟩, hmode⟩ := hv.acks frame hs htype
    refine ⟨hne, ?_⟩
    by_cases hji : frame.sender = i
    · rw [hji] at hr hmode ⊢
      rw [View.set_nodes_self]
      exact ⟨⟨r, hm.keeps r hr, hterm⟩, fun _ => hm.mode (hmode hup)⟩
    · rw [View.set_nodes_of_ne hji]
      exact ⟨⟨r, hr, hterm⟩, hmode⟩

private theorem follower_newest (hv : ClusterInvariant K g v)
    (hframes : ∀ p ∈ e.packets, FollowerFrame i v n' p.frame) (hg : g) {term : ℕ}
    (hh : (v.nodes K.leader).holds term) (p : Packet) (hp : p ∈ (v.set i n' e.packets).net) :
    p.frame.term ≤ term := by
  rcases View.mem_set_net.mp hp with hp | hp
  · rcases (hframes p hp).seen with h | ⟨q, hq, h⟩
    · omega
    · exact h ▸ hv.newest hg term hh q hq
  · exact hv.newest hg term hh p hp

private theorem follower_barrier (hv : ClusterInvariant K g v)
    (hm : NodeMove K i e (v.nodes i) n')
    (hframes : ∀ p ∈ e.packets, FollowerFrame i v n' p.frame)
    (habort : e = .abortHandoff → g → ∀ term value, (v.nodes i).outstanding term value →
      ¬ (v.nodes K.leader).holds term)
    (hg : g) (frame : Frame) (hs : (v.set i n' e.packets).sent frame)
    (htype : frame.type = .prepared) (hh : (v.nodes K.leader).holds frame.term) :
    ((v.set i n' e.packets).nodes frame.sender).up = true ∧
      ((v.set i n' e.packets).nodes frame.sender).outstanding frame.term frame.value := by
  rcases View.sent_set.mp hs with ⟨p, hp, rfl⟩ | hs
  · rw [(hframes p hp).sender, View.set_nodes_self]
    refine ⟨hm.up, (NodeView.outstanding_cons hm.performed).mpr (.inl ?_)⟩
    exact ⟨p.destination, p.frame, Effect.mem_packets.mp hp, htype, rfl, rfl⟩
  · obtain ⟨hup', ho⟩ := hv.barrier hg frame hs htype hh
    by_cases hji : frame.sender = i
    · rw [hji] at ho ⊢
      rw [View.set_nodes_self]
      refine ⟨hm.up, (NodeView.outstanding_cons hm.performed).mpr (.inr ⟨fun he => ?_, ho⟩)⟩
      exact habort he hg _ _ ho hh
    · rw [View.set_nodes_of_ne hji]
      exact ⟨hup', ho⟩

/-- **A follower keeps the invariant of the cluster.** -/
private theorem follower_cluster (hi : i ≠ K.leader) (hc : ∃ c, Configured K i c)
    (hv : ClusterInvariant K g v) (hup : (v.nodes i).up = true)
    (hm : NodeMove K i e (v.nodes i) n')
    (hframes : ∀ p ∈ e.packets, FollowerFrame i v n' p.frame)
    (hleader : ∀ r, n'.committed r → (v.nodes K.leader).committed r)
    (habort : e = .abortHandoff → g → ∀ term value, (v.nodes i).outstanding term value →
      ¬ (v.nodes K.leader).holds term) :
    ClusterInvariant K g (v.set i n' e.packets) := by
  have hL : (v.set i n' e.packets).nodes K.leader = v.nodes K.leader :=
    View.set_nodes_of_ne hi.symm
  constructor
  case ok =>
    exact View.forall_set (P := fun j n => n.up = true → NodeOk K j n) (fun _ => hm.ok)
      fun j _ => hv.ok j
  case agree =>
    rw [hL]
    exact View.forall_set (P := fun _ n => ∀ r, n.committed r → (v.nodes K.leader).committed r)
      hleader fun j _ => hv.agree j
  case record =>
    rw [hL]
    exact hv.record
  case frozen =>
    exact View.forall_set (P := fun _ n => ∀ r, n.committed r → n.up = true → ¬ n.servesPeak)
      (fun r hr _ => hm.frozen r hr) fun j _ => hv.frozen j
  case commits =>
    rw [hL]
    exact View.forall_sent_set
      (fun p hp htype => absurd htype (hframes p hp).ne_of_leader.1) hv.commits
  case acks => exact follower_acks hi hv hup hm hframes
  case reported =>
    refine View.forall_set (P := fun j n => ∀ term value, n.outstanding term value →
      j ≠ K.leader ∧ (∃ c, Configured K j c) ∧ Reported n term value ∧
        (n.up = true → ¬ n.servesPeak)) (fun term value ho => ?_) fun j _ => hv.reported j
    obtain ⟨hjournal, hserve, -⟩ := owed_of_move hv hup hm hframes ho
    exact ⟨hi, hc, hjournal, fun _ => hserve⟩
  case preparedSender =>
    exact View.forall_sent_set (fun p hp _ => (hframes p hp).sender.symm ▸ hi) hv.preparedSender
  case newest =>
    rw [hL]
    exact fun hg term hh => follower_newest hv hframes hg hh
  case aborted =>
    rw [hL]
    exact fun hg => View.forall_sent_set
      (fun p hp htype => absurd htype (hframes p hp).ne_of_leader.2) (hv.aborted hg)
  case barrier =>
    rw [hL]
    exact fun hg => follower_barrier hv hm hframes habort hg
  case counted =>
    exact fun hg => View.forall_set (P := fun _ n => ∀ term value, n.up = true →
      n.outstanding term value → n.engine.reserved.used = value)
      (fun term value _ ho => (owed_of_move hv hup hm hframes ho).2.2 hg) fun j _ => hv.counted hg j
  case decided =>
    intro hg r hr
    rw [hL] at hr
    exact (hv.decided hg r hr).of_leader hL fun frame hs => View.sent_set.mpr (.inr hs)
  case started =>
    exact fun hg => View.forall_set (P := fun _ n => n.up = false →
      (∀ r, n.journal = some r → r.phase = .idle) ∧ n.served = [] ∧ n.performed = [] ∧
        n.impl.state = .idle)
      (fun hdown => absurd (hm.up.symm.trans hdown) nofun) fun j _ => hv.started hg j

/-- **The guarantee of a follower.** -/
theorem follower_guar (hi : i ≠ K.leader) (hc : ∃ c, Configured K i c) (hv : ClusterInvariant K g v)
    (hup : (v.nodes i).up = true) (hm : NodeMove K i e (v.nodes i) n')
    (hframes : ∀ p ∈ e.packets, FollowerFrame i v n' p.frame)
    (hleader : ∀ r, n'.committed r → (v.nodes K.leader).committed r)
    (habort : e = .abortHandoff → g → ∀ term value, (v.nodes i).outstanding term value →
      ¬ (v.nodes K.leader).holds term) :
    Guar K g i v (v.set i n' e.packets) := by
  have hcluster := follower_cluster hi hc hv hup hm hframes hleader habort
  have hL : (v.set i n' e.packets).nodes K.leader = v.nodes K.leader :=
    View.set_nodes_of_ne hi.symm
  refine ⟨hcluster, fun j hj => ⟨⟨fun p hp => View.mem_set_net.mpr (.inr hp), ?_, ?_⟩, ?_, ?_,
    fun _ => hcluster⟩, by rw [View.set_nodes_self]; exact hm.keeps, fun h => absurd h hi⟩
  · intro r hr
    rwa [hL]
  · intro _ term _ hnot
    rwa [hL]
  · rw [View.set_nodes_of_ne hj]
    exact .refl _
  · intro _ bound hpos hbound p hp
    rcases View.mem_set_net.mp hp with hp | hp
    · rcases (hframes p hp).seen with h | ⟨q, hq, h⟩
      · omega
      · exact h ▸ hbound q hq
    · exact hbound p hp

end Follower

/-- What the leader may send. -/
structure LeaderFrame (g : Prop) (n' : NodeView) (frame : Frame) : Prop where
  type : frame.type = .prepare ∨ frame.type = .commit ∨ frame.type = .abort
  commit : frame.type = .commit → ∃ r, n'.committed r ∧ frame.term = r.term ∧
    frame.counter = r.state.counter ∧ frame.epoch = r.state.epoch ∧ frame.value = r.total
  abort : g → frame.type = .abort → ¬ n'.holds frame.term
  newest : g → ∀ term, n'.holds term → frame.term ≤ term

section Leader

variable {e : Effect} {v : View} {n' : NodeView}

/-- The leader sends no frames of a follower. -/
private theorem LeaderFrame.ne_of_follower {frame : Frame} (h : LeaderFrame g n' frame) :
    frame.type ≠ .commitAck ∧ frame.type ≠ .prepared := by
  rcases h.type with h | h | h <;> rw [h] <;> exact ⟨nofun, nofun⟩

/-- The leader owes no report. -/
private theorem leader_owes_nothing (hv : ClusterInvariant K g v)
    (hm : NodeMove K K.leader e (v.nodes K.leader) n')
    (hframes : ∀ p ∈ e.packets, LeaderFrame g n' p.frame) {term value : ℕ} :
    ¬ n'.outstanding term value := by
  intro ho
  rcases (NodeView.outstanding_cons hm.performed).mp ho with
    ⟨destination, frame, he, htype, -, -⟩ | ⟨-, hold⟩
  · have hframe := hframes ⟨destination, frame⟩ (Effect.mem_packets.mpr he)
    exact hframe.ne_of_follower.2 htype
  · exact (hv.reported _ _ _ hold).1 rfl

private theorem leader_commits (hv : ClusterInvariant K g v)
    (hm : NodeMove K K.leader e (v.nodes K.leader) n')
    (hframes : ∀ p ∈ e.packets, LeaderFrame g n' p.frame) (frame : Frame)
    (hs : (v.set K.leader n' e.packets).sent frame) (htype : frame.type = .commit) :
    ∃ r, n'.committed r ∧ frame.term = r.term ∧ frame.counter = r.state.counter ∧
      frame.epoch = r.state.epoch ∧ frame.value = r.total := by
  rcases View.sent_set.mp hs with ⟨p, hp, rfl⟩ | hs
  · exact (hframes p hp).commit htype
  · obtain ⟨r, hr, hframe⟩ := hv.commits frame hs htype
    exact ⟨r, hm.keeps r hr, hframe⟩

section Holds

variable (hv : ClusterInvariant K g v) (hframes : ∀ p ∈ e.packets, LeaderFrame g n' p.frame)
  (hholds : g → ∀ term, n'.holds term →
    (v.nodes K.leader).holds term ∨ ∀ p ∈ v.net, p.frame.term < term)

include hv hframes hholds

private theorem leader_newest (hg : g) {term : ℕ} (hh : n'.holds term) (p : Packet)
    (hp : p ∈ (v.set K.leader n' e.packets).net) : p.frame.term ≤ term := by
  rcases View.mem_set_net.mp hp with hp | hp
  · exact (hframes p hp).newest hg term hh
  · rcases hholds hg term hh with hold | hbelow
    · exact hv.newest hg term hold p hp
    · exact (hbelow p hp).le

private theorem leader_aborted (hg : g) (frame : Frame)
    (hs : (v.set K.leader n' e.packets).sent frame) (htype : frame.type = .abort) :
    ¬ n'.holds frame.term := by
  rcases View.sent_set.mp hs with ⟨p, hp, rfl⟩ | ⟨p, hp, rfl⟩
  · exact (hframes p hp).abort hg htype
  · intro hh
    rcases hholds hg _ hh with hold | hbelow
    · exact hv.aborted hg p.frame ⟨p, hp, rfl⟩ htype hold
    · exact absurd (hbelow p hp) (Nat.lt_irrefl _)

private theorem leader_barrier (hg : g) (frame : Frame)
    (hs : (v.set K.leader n' e.packets).sent frame) (htype : frame.type = .prepared)
    (hh : n'.holds frame.term) :
    ((v.set K.leader n' e.packets).nodes frame.sender).up = true ∧
      ((v.set K.leader n' e.packets).nodes frame.sender).outstanding frame.term frame.value := by
  rcases View.sent_set.mp hs with ⟨p, hp, rfl⟩ | hs
  · exact absurd htype (hframes p hp).ne_of_follower.2
  · rw [View.set_nodes_of_ne (hv.preparedSender frame hs htype)]
    rcases hholds hg _ hh with hold | hbelow
    · exact hv.barrier hg frame hs htype hold
    · obtain ⟨p, hp, rfl⟩ := hs
      exact absurd (hbelow p hp) (Nat.lt_irrefl _)

end Holds

/-- **The leader keeps the invariant of the cluster.** -/
private theorem leader_cluster (hv : ClusterInvariant K g v)
    (hm : NodeMove K K.leader e (v.nodes K.leader) n')
    (hframes : ∀ p ∈ e.packets, LeaderFrame g n' p.frame)
    (hrecord : ∀ r, n'.committed r → 1 ≤ r.term ∧ r.total ≤ K.limit ∧ r.strictOwner = K.owner ∧
      r.state.componentTotal = r.total)
    (hholds : g → ∀ term, n'.holds term →
      (v.nodes K.leader).holds term ∨ ∀ p ∈ v.net, p.frame.term < term)
    (hdecided : g → ∀ r, n'.committed r → Decided K (v.set K.leader n' e.packets) r) :
    ClusterInvariant K g (v.set K.leader n' e.packets) := by
  have hself : (v.set K.leader n' e.packets).nodes K.leader = n' := View.set_nodes_self
  constructor
  case ok =>
    exact View.forall_set (P := fun j n => n.up = true → NodeOk K j n) (fun _ => hm.ok)
      fun j _ => hv.ok j
  case agree =>
    rw [hself]
    exact View.forall_set (P := fun _ n => ∀ r, n.committed r → n'.committed r) (fun _ => id)
      fun j _ r hr => hm.keeps r (hv.agree j r hr)
  case record =>
    rw [hself]
    exact hrecord
  case frozen =>
    exact View.forall_set (P := fun _ n => ∀ r, n.committed r → n.up = true → ¬ n.servesPeak)
      (fun r hr _ => hm.frozen r hr) fun j _ => hv.frozen j
  case commits =>
    rw [hself]
    exact leader_commits hv hm hframes
  case acks =>
    refine View.forall_sent_set
      (fun p hp htype => absurd htype (hframes p hp).ne_of_follower.1) fun frame hs htype => ?_
    rw [View.set_nodes_of_ne (hv.acks frame hs htype).1]
    exact hv.acks frame hs htype
  case reported =>
    exact View.forall_set (P := fun j n => ∀ term value, n.outstanding term value →
      j ≠ K.leader ∧ (∃ c, Configured K j c) ∧ Reported n term value ∧
        (n.up = true → ¬ n.servesPeak))
      (fun _ _ ho => absurd ho (leader_owes_nothing hv hm hframes)) fun j _ => hv.reported j
  case preparedSender =>
    exact View.forall_sent_set
      (fun p hp htype => absurd htype (hframes p hp).ne_of_follower.2) hv.preparedSender
  case newest =>
    rw [hself]
    exact fun hg term hh => leader_newest hv hframes hholds hg hh
  case aborted =>
    rw [hself]
    exact leader_aborted hv hframes hholds
  case barrier =>
    rw [hself]
    exact leader_barrier hv hframes hholds
  case counted =>
    exact fun hg => View.forall_set (P := fun _ n => ∀ term value, n.up = true →
      n.outstanding term value → n.engine.reserved.used = value)
      (fun _ _ _ ho => absurd ho (leader_owes_nothing hv hm hframes)) fun j _ => hv.counted hg j
  case decided =>
    rw [hself]
    exact hdecided
  case started =>
    exact fun hg => View.forall_set (P := fun _ n => n.up = false →
      (∀ r, n.journal = some r → r.phase = .idle) ∧ n.served = [] ∧ n.performed = [] ∧
        n.impl.state = .idle)
      (fun hdown => absurd (hm.up.symm.trans hdown) nofun) fun j _ => hv.started hg j

/-- **The guarantee of the leader.** -/
theorem leader_guar (hv : ClusterInvariant K g v) (hm : NodeMove K K.leader e (v.nodes K.leader) n')
    (hframes : ∀ p ∈ e.packets, LeaderFrame g n' p.frame)
    (hrecord : ∀ r, n'.committed r → 1 ≤ r.term ∧ r.total ≤ K.limit ∧ r.strictOwner = K.owner ∧
      r.state.componentTotal = r.total)
    (hholds : g → ∀ term, n'.holds term →
      (v.nodes K.leader).holds term ∨ ∀ p ∈ v.net, p.frame.term < term)
    (hdecided : g → ∀ r, n'.committed r → Decided K (v.set K.leader n' e.packets) r)
    (hcommitting : (v.nodes K.leader).impl.state = .leaderCommitting →
      n'.impl.state = .leaderCommitting) :
    Guar K g K.leader v (v.set K.leader n' e.packets) := by
  have hcluster := leader_cluster hv hm hframes hrecord hholds hdecided
  have hself : (v.set K.leader n' e.packets).nodes K.leader = n' := View.set_nodes_self
  refine ⟨hcluster, fun j hj => ⟨⟨fun p hp => View.mem_set_net.mpr (.inr hp), ?_, ?_⟩, ?_, ?_,
    fun _ => hcluster⟩, by rw [hself]; exact hm.keeps, fun _ => ?_⟩
  · intro r hr
    rw [hself]
    exact hm.keeps r hr
  · intro hg term hseen hnot hh
    rw [hself] at hh
    obtain ⟨p, hp, rfl⟩ := hseen
    exact (hholds hg _ hh).elim hnot fun hbelow => absurd (hbelow p hp) (Nat.lt_irrefl _)
  · rw [View.set_nodes_of_ne hj]
    exact .refl _
  · exact fun h => absurd h hj
  · rw [hself]
    exact hcommitting

end Leader

/-! ### Everything but effects -/

/-- A change of one node that sends nothing and keeps its journal and its history: requests, a new
state of the controller, a crash, a start. -/
structure Swap (K : Deployment) (g : Prop) (i : ℕ) (n n' : NodeView) : Prop where
  ok : n'.up = true → NodeOk K i n'
  committed : ∀ r, n'.committed r ↔ n.committed r
  performed : n'.performed = n.performed
  journal : ∀ term value, Reported n term value → Reported n' term value
  frozen : ∀ r, n.committed r → (n.up = true → ¬ n.servesPeak) → n'.up = true → ¬ n'.servesPeak
  owed : ∀ term value, Reported n term value → (n.up = true → ¬ n.servesPeak) → n'.up = true →
    ¬ n'.servesPeak
  mode : ∀ r, n.committed r → (n.up = true → n.engine.mode ≠ .reservedPeak) → n'.up = true →
    n'.engine.mode ≠ .reservedPeak
  holds : g → i = K.leader → ∀ term, n'.holds term → n.holds term
  stays : g → n.up = true → n'.up = true
  used : g → n.up = true → ¬ n.servesPeak → n'.engine.reserved.used = n.engine.reserved.used
  prepared : g → i = K.leader → ∀ r, n.committed r → n'.impl.prepared = n.impl.prepared
  started : g → n'.up = false → (∀ r, n'.journal = some r → r.phase = .idle) ∧ n'.served = [] ∧
    n'.performed = [] ∧ n'.impl.state = .idle

section Swap

variable {i : ℕ} {v : View} {n' : NodeView}

private theorem Swap.outstanding {n : NodeView} (h : Swap K g i n n') {term value : ℕ} :
    n'.outstanding term value ↔ n.outstanding term value := by
  simp only [NodeView.outstanding, h.performed]

/-- The leader's node after a swap. -/
private theorem Swap.leader (h : Swap K g i (v.nodes i) n') :
    (∀ r, ((v.set i n' []).nodes K.leader).committed r ↔ (v.nodes K.leader).committed r) ∧
      (g → ∀ term, ((v.set i n' []).nodes K.leader).holds term →
        (v.nodes K.leader).holds term) := by
  by_cases hi : i = K.leader
  · subst hi
    rw [View.set_nodes_self]
    exact ⟨h.committed, fun hg => h.holds hg rfl⟩
  · rw [View.set_nodes_of_ne (Ne.symm hi)]
    exact ⟨fun _ => .rfl, fun _ _ hh => hh⟩

private theorem Swap.acks (hv : ClusterInvariant K g v) (h : Swap K g i (v.nodes i) n')
    (frame : Frame) (hs : v.sent frame) (htype : frame.type = .commitAck) :
    frame.sender ≠ K.leader ∧
      (∃ r, ((v.set i n' []).nodes frame.sender).committed r ∧ r.term = frame.term) ∧
      (((v.set i n' []).nodes frame.sender).up = true →
        ((v.set i n' []).nodes frame.sender).engine.mode ≠ .reservedPeak) := by
  obtain ⟨hne, ⟨r, hr, hterm⟩, hmode⟩ := hv.acks frame hs htype
  refine ⟨hne, ?_⟩
  by_cases hji : frame.sender = i
  · rw [hji] at hr hmode ⊢
    rw [View.set_nodes_self]
    exact ⟨⟨r, (h.committed r).mpr hr, hterm⟩, h.mode r hr hmode⟩
  · rw [View.set_nodes_of_ne hji]
    exact ⟨⟨r, hr, hterm⟩, hmode⟩

private theorem Swap.barrier (hv : ClusterInvariant K g v) (h : Swap K g i (v.nodes i) n')
    (hg : g) (frame : Frame) (hs : v.sent frame) (htype : frame.type = .prepared)
    (hh : (v.nodes K.leader).holds frame.term) :
    ((v.set i n' []).nodes frame.sender).up = true ∧
      ((v.set i n' []).nodes frame.sender).outstanding frame.term frame.value := by
  obtain ⟨hup, ho⟩ := hv.barrier hg frame hs htype hh
  by_cases hji : frame.sender = i
  · rw [hji] at hup ho ⊢
    rw [View.set_nodes_self]
    exact ⟨h.stays hg hup, h.outstanding.mpr ho⟩
  · rw [View.set_nodes_of_ne hji]
    exact ⟨hup, ho⟩

private theorem Swap.counted (hv : ClusterInvariant K g v) (h : Swap K g i (v.nodes i) n')
    (hg : g) {term value : ℕ} (ho : n'.outstanding term value) :
    n'.engine.reserved.used = value := by
  have hold := h.outstanding.mp ho
  -- an owed report belongs to a process that was running already
  have hup : (v.nodes i).up = true := by
    by_contra hdown
    have hnew := (hv.started hg i (by simpa using hdown)).2.2.1
    obtain ⟨after, before, _, _, hperformed, -⟩ := hold
    rw [hnew] at hperformed
    simp at hperformed
  have hserve := (hv.reported i term value hold).2.2.2 hup
  exact (h.used hg hup hserve).trans (hv.counted hg i term value hup hold)

private theorem Swap.decided (hv : ClusterInvariant K g v) (h : Swap K g i (v.nodes i) n')
    (hg : g) {r : JournalRecord} (hold : (v.nodes K.leader).committed r) :
    Decided K (v.set i n' []) r := by
  have hd := hv.decided hg r hold
  by_cases hi : i = K.leader
  · subst hi
    have hself : (v.set K.leader n' []).nodes K.leader = n' := View.set_nodes_self
    have hprepared := h.prepared hg rfl r hold
    have hused := h.used hg hd.up hd.quiet
    constructor
    all_goals rw [hself]
    case up => exact h.stays hg hd.up
    case quiet => exact h.frozen r hold (fun _ => hd.quiet) (h.stays hg hd.up)
    all_goals rw [hprepared]
    case nodup => exact hd.nodup
    case all => exact hd.all
    case total => exact hd.total
    case own => rw [hused]; exact hd.own
    case reports => exact hd.reports
  · exact hd.of_leader (View.set_nodes_of_ne (Ne.symm hi)) fun _ hs => hs

/-- **A swap keeps the invariant of the cluster.** -/
theorem ClusterInvariant.swap (hv : ClusterInvariant K g v) (h : Swap K g i (v.nodes i) n') :
    ClusterInvariant K g (v.set i n' []) := by
  obtain ⟨hcommitted, hholds⟩ := h.leader
  constructor
  case ok =>
    exact View.forall_set (P := fun j n => n.up = true → NodeOk K j n) h.ok fun j _ => hv.ok j
  case agree =>
    intro j r hr
    refine (hcommitted r).mpr (View.forall_set (P := fun _ n => n.committed r →
      (v.nodes K.leader).committed r) (fun hr => ?_) (fun j _ => hv.agree j r) j hr)
    exact hv.agree i r ((h.committed r).mp hr)
  case record => exact fun r hr => hv.record r ((hcommitted r).mp hr)
  case frozen =>
    refine View.forall_set (P := fun _ n => ∀ r, n.committed r → n.up = true → ¬ n.servesPeak)
      (fun r hr hup => ?_) fun j _ => hv.frozen j
    have hold := (h.committed r).mp hr
    exact h.frozen r hold (hv.frozen i r hold) hup
  case commits =>
    intro frame hs htype
    obtain ⟨r, hr, hframe⟩ := hv.commits frame hs htype
    exact ⟨r, (hcommitted r).mpr hr, hframe⟩
  case acks => exact h.acks hv
  case reported =>
    refine View.forall_set (P := fun j n => ∀ term value, n.outstanding term value →
      j ≠ K.leader ∧ (∃ c, Configured K j c) ∧ Reported n term value ∧
        (n.up = true → ¬ n.servesPeak)) (fun term value ho => ?_) fun j _ => hv.reported j
    obtain ⟨hne, hc, hjournal, hserve⟩ := hv.reported i term value (h.outstanding.mp ho)
    exact ⟨hne, hc, h.journal term value hjournal, h.owed term value hjournal hserve⟩
  case preparedSender => exact hv.preparedSender
  case newest => exact fun hg term hh => hv.newest hg term (hholds hg term hh)
  case aborted =>
    exact fun hg frame hs htype hh => hv.aborted hg frame hs htype (hholds hg _ hh)
  case barrier => exact fun hg frame hs htype hh => h.barrier hv hg frame hs htype (hholds hg _ hh)
  case counted =>
    exact fun hg => View.forall_set (P := fun _ n => ∀ term value, n.up = true →
      n.outstanding term value → n.engine.reserved.used = value)
      (fun _ _ _ ho => h.counted hv hg ho) fun j _ => hv.counted hg j
  case decided => exact fun hg r hr => h.decided hv hg ((hcommitted r).mp hr)
  case started =>
    exact fun hg => View.forall_set (P := fun _ n => n.up = false →
      (∀ r, n.journal = some r → r.phase = .idle) ∧ n.served = [] ∧ n.performed = [] ∧
        n.impl.state = .idle) (h.started hg) fun j _ => hv.started hg j

/-- What a swap is to a node that it leaves alone, or only serves requests at. -/
theorem Rely.swap (hv : ClusterInvariant K g v) (h : Swap K g i (v.nodes i) n') {j : ℕ}
    (hnode : NodeEnv K j (v.nodes j) ((v.set i n' []).nodes j)) :
    Rely K g j v (v.set i n' []) := by
  obtain ⟨hcommitted, hholds⟩ := h.leader
  exact ⟨⟨fun _ hp => hp, fun r hr => (hcommitted r).mpr hr,
    fun hg term _ hnot hh => hnot (hholds hg term hh)⟩, hnode, fun _ _ _ hb => hb,
    fun _ => hv.swap h⟩

theorem Rely.swap_other (hv : ClusterInvariant K g v) (h : Swap K g i (v.nodes i) n') {j : ℕ}
    (hj : j ≠ i) : Rely K g j v (v.set i n' []) := by
  refine .swap hv h ?_
  rw [View.set_nodes_of_ne hj]
  exact .refl _

end Swap

/-- The view in which the controller of node `i` shows another state. -/
def View.relabel (v : View) (i : ℕ) (c : Impl) : View := v.set i { v.nodes i with impl := c } []

theorem View.relabel_nodes_self {v : View} {i : ℕ} {c : Impl} :
    (v.relabel i c).nodes i = { v.nodes i with impl := c } := set_nodes_self

/-- A controller may show a state in which it holds no other term and, once it has committed, the
same reports. -/
theorem ClusterInvariant.swap_relabel {v : View} {i : ℕ} {c : Impl} (hv : ClusterInvariant K g v)
    (hup : (v.nodes i).up = true)
    (hleader : i = K.leader → (∀ term, ({ v.nodes i with impl := c } : NodeView).holds term →
      (v.nodes i).holds term) ∧ ∀ r, (v.nodes i).committed r →
        c.prepared = (v.nodes i).impl.prepared) :
    Swap K g i (v.nodes i) { v.nodes i with impl := c } where
  ok := fun _ =>
    let ⟨h1, h2, h3, h4, h5, h6, h7⟩ := hv.ok i hup
    ⟨h1, h2, h3, h4, h5, h6, h7⟩
  committed := fun _ => .rfl
  performed := rfl
  journal := fun _ _ h => h
  frozen := fun _ _ h => h
  owed := fun _ _ _ h => h
  mode := fun _ _ h => h
  holds := fun _ hi => (hleader hi).1
  stays := fun _ h => h
  used := fun _ _ _ => rfl
  prepared := fun _ hi => (hleader hi).2
  started := fun _ h => absurd (hup.symm.trans h) nofun

end HotCounter
