import HotCounter.Handoff.Cluster
import HotCounter.Engine.Spec

/-!
# What the protocol's invariants are about

A `View` is a cluster without the text of its running programs: of a program only the volatile
controller state at its current point is left. This module defines the facts about one node
that the protocol is built on, and shows that requests and control-loop iterations respect them
(`NodeEnv`).

* `holds`: the node may still commit a term, or has.
* `outstanding`: the node has reported a total for a term and has not aborted since.
* `NodeOk`: the engine is sound, its counters account for every accepted request, and it has
  left peak mode only with a committed record on disk.
-/

namespace HotCounter

open Foundation

/-! ### The configuration of a controller -/

namespace Impl

/-- A controller as `start` sets it up before it reads the journal. -/
def fresh (c : Impl) : Impl :=
  { engine := c.engine, config := c.config, members := c.members, peers := c.peers }

/-- Two controllers that agree on what the protocol can see of them. -/
structure Same (c c' : Impl) : Prop where
  fresh : c.fresh = c'.fresh
  state : c.state = c'.state
  activeTerm : c.activeTerm = c'.activeTerm
  prepared : c.prepared = c'.prepared

namespace Same

theorem refl (c : Impl) : c.Same c := ⟨rfl, rfl, rfl, rfl⟩

theorem symm {c c' : Impl} (h : c.Same c') : c'.Same c :=
  ⟨h.fresh.symm, h.state.symm, h.activeTerm.symm, h.prepared.symm⟩

theorem trans {c c' c'' : Impl} (h : c.Same c') (h' : c'.Same c'') : c.Same c'' :=
  ⟨h.fresh.trans h'.fresh, h.state.trans h'.state, h.activeTerm.trans h'.activeTerm,
    h.prepared.trans h'.prepared⟩

end Same

end Impl

namespace DistributedHandoffConfig

private theorem collectMembers_ok : ∀ {rest members collected : List ℕ},
    collectMembers members rest = .ok collected → collected = members ++ rest
  | [], members, collected, h => by
    obtain rfl := Except.ok.inj h
    simp
  | member :: rest, members, collected, h => by
    simp only [collectMembers] at h
    split at h
    · exact absurd h nofun
    · rw [collectMembers_ok h]
      simp

private theorem collectPeers_ok {resolve : String → ℕ → Option Endpoint}
    {config : DistributedHandoffConfig} {members : List ℕ} :
    ∀ {rest : List DistributedPeer} {peers collected : List (ℕ × Endpoint)},
      collectPeers resolve config members peers rest = .ok collected →
      (peers.map Prod.fst).Nodup → (∀ p ∈ peers, p.1 ≠ config.componentId ∧ p.1 ∈ members) →
      (collected.map Prod.fst).Nodup ∧
        ∀ p ∈ collected, p.1 ≠ config.componentId ∧ p.1 ∈ members
  | [], peers, collected, h, hnodup, hpeers => by
    obtain rfl := Except.ok.inj h
    exact ⟨hnodup, hpeers⟩
  | peer :: rest, peers, collected, h, hnodup, hpeers => by
    simp only [collectPeers] at h
    split at h
    · exact absurd h nofun
    rename_i hvalid
    push Not at hvalid
    split at h
    · exact absurd h nofun
    split at h
    · exact absurd h nofun
    rename_i hnew
    refine collectPeers_ok h ?_ ?_
    · rw [List.map_append, List.nodup_append]
      refine ⟨hnodup, by simp, ?_⟩
      intro a ha b hb hab
      simp only [List.map_cons, List.map_nil, List.mem_singleton] at hb
      exact hnew (hb ▸ hab ▸ ha)
    · intro p hp
      rcases List.mem_append.mp hp with hp | hp
      · exact hpeers p hp
      · obtain rfl := List.mem_singleton.mp hp
        exact ⟨hvalid.2.2.1, hvalid.2.2.2⟩

/-- What a validated controller knows of its cluster. -/
structure Validated (config : DistributedHandoffConfig) (engine : CounterEngineConfig) (c : Impl) :
    Prop where
  fresh_eq : c.fresh = c
  config_eq : c.config = config
  engine_eq : c.engine = engine
  members : c.members = config.members
  self_mem : config.componentId ∈ c.members
  peers_nodup : (c.peers.map Prod.fst).Nodup
  peers_mem : ∀ p ∈ c.peers, p.1 ≠ config.componentId ∧ p.1 ∈ c.members
  peers_length : c.peers.length + 1 = c.members.length

/-- What `validate` has checked when it accepts. -/
theorem validated_of_validate {resolve : String → ℕ → Option Endpoint}
    {config : DistributedHandoffConfig} {engine : CounterEngineConfig} {c : Impl}
    (h : config.validate resolve engine = .ok c) : Validated config engine c := by
  unfold validate at h
  split at h
  · exact absurd h nofun
  split at h
  · exact absurd h nofun
  split at h
  · exact absurd h nofun
  split at h
  · exact absurd h nofun
  split at h
  · exact absurd h nofun
  rename_i members hmembers
  split at h
  · exact absurd h nofun
  rename_i hself
  split at h
  · exact absurd h nofun
  rename_i peers hpeers
  split at h
  · exact absurd h nofun
  rename_i hlength
  obtain rfl := Except.ok.inj h
  obtain ⟨hnodup, hmem⟩ := collectPeers_ok hpeers (by simp) (by simp)
  have hcollected := collectMembers_ok hmembers
  push Not at hself
  exact ⟨rfl, rfl, rfl, by simpa using hcollected, hself.1, hnodup, hmem, not_not.mp hlength⟩

end DistributedHandoffConfig

/-- The controller belongs to a process of the deployment. -/
structure Configured (K : Deployment) (i : ℕ) (c : Impl) : Prop where
  running : i ∈ K.running
  valid : (K.handoff i).validate (K.resolve i) (K.config i).engine = .ok c.fresh

namespace Configured

variable {K : Deployment} {i : ℕ} {c : Impl}

private theorem validated (h : Configured K i c) :
    (K.handoff i).Validated (K.config i).engine c.fresh :=
  DistributedHandoffConfig.validated_of_validate h.valid

/-- A configured process is a member of the deployment. -/
theorem member (h : Configured K i c) : K.Member i := Deployment.member_of_running h.running

theorem engine (h : Configured K i c) : c.engine = (K.config i).engine := h.validated.engine_eq

theorem componentId (h : Configured K i c) : c.config.componentId = i := by
  rw [show c.config = K.handoff i from h.validated.config_eq, h.member.componentId]

/-- The leader that the controller is configured with is that of the deployment. -/
theorem leader (h : Configured K i c) : c.config.leaderComponentId = K.leader := by
  rw [show c.config = K.handoff i from h.validated.config_eq, h.member.leader]

/-- The strict owner that the controller is configured with is that of the deployment. -/
theorem owner (h : Configured K i c) : c.config.strictOwnerComponentId = K.owner := by
  rw [show c.config = K.handoff i from h.validated.config_eq, h.member.owner]

/-- The controller knows the members of the plan. -/
theorem members (h : Configured K i c) : c.members = K.ids :=
  h.validated.members.trans h.member.members

/-- The controller is one of its own members. -/
theorem self_mem (h : Configured K i c) : i ∈ c.members := by
  have hself : (K.handoff i).componentId ∈ c.members := h.validated.self_mem
  rwa [h.member.componentId] at hself

/-- The controller takes itself for the leader exactly on the leader. -/
theorem isLeader (h : Configured K i c) : c.isLeader = true ↔ i = K.leader := by
  rw [Impl.isLeader, h.componentId, h.leader, beq_iff_eq]

/-- The controller takes itself for the strict owner exactly on the strict owner. -/
theorem isOwner (h : Configured K i c) : c.isOwner = (i == K.owner) := by
  rw [Impl.isOwner, h.componentId, h.owner]

/-- No peer is listed twice. -/
theorem peers_nodup (h : Configured K i c) : (c.peers.map Prod.fst).Nodup :=
  h.validated.peers_nodup

/-- The peers are other members. -/
theorem peers_mem (h : Configured K i c) : ∀ p ∈ c.peers, p.1 ≠ i ∧ p.1 ∈ c.members := by
  intro p hp
  have hmem := h.validated.peers_mem p hp
  rwa [h.member.componentId] at hmem

/-- Every other member is a peer. -/
theorem peers_length (h : Configured K i c) : c.peers.length + 1 = c.members.length :=
  h.validated.peers_length

/-- Only the fields that `start` sets matter. -/
theorem congr (h : Configured K i c) {c' : Impl} (hfresh : c'.fresh = c.fresh) :
    Configured K i c' := ⟨h.running, hfresh ▸ h.valid⟩

end Configured

/-! ### Views -/

/-- The sum of what was accepted in one mode. -/
def spentIn (mode : RoutingMode) (served : List (RoutingMode × Request × Result)) : ℕ :=
  (served.map fun entry => if entry.1 = mode then spentBy entry.2.1 entry.2.2 else 0).sum

@[simp]
theorem spentIn_nil (mode : RoutingMode) : spentIn mode [] = 0 := rfl

@[simp]
theorem spentIn_cons (mode : RoutingMode) (entry : RoutingMode × Request × Result)
    (served : List (RoutingMode × Request × Result)) :
    spentIn mode (entry :: served) =
      (if entry.1 = mode then spentBy entry.2.1 entry.2.2 else 0) + spentIn mode served := by
  simp [spentIn]

/-- A node without the text of its program. -/
structure NodeView where
  up : Bool
  engine : CounterEngine
  journal : Option JournalRecord
  impl : Impl
  served : List (RoutingMode × Request × Result)
  performed : List Effect

/-- A cluster without the text of its programs. -/
structure View where
  nodes : ℕ → NodeView
  net : List Packet

/-- A node without the text of its program. -/
def Node.view (n : Node) : NodeView :=
  ⟨n.up, n.engine, n.journal, n.impl, n.served, n.performed⟩

/-- A cluster without the text of its programs. -/
def Cluster.view (w : Cluster) : View := ⟨fun i => (w.nodes i).view, w.net⟩

namespace NodeView

/-- The node's journal is committed with a record. -/
def committed (n : NodeView) (record : JournalRecord) : Prop :=
  n.journal = some record ∧ record.phase = .committed

/-- The node may admit requests on its peak reservation. -/
def servesPeak (n : NodeView) : Prop :=
  n.engine.mode = .reservedPeak ∧ n.engine.gateOpen = true

/-- The node is preparing, blocked on or committing a term, or its journal is committed with
it. -/
def holds (n : NodeView) (term : ℕ) : Prop :=
  (n.impl.state ≠ .idle ∧ n.impl.activeTerm = term ∧ n.engine.distributedHandoffActive = true) ∨
    ∃ record, n.committed record ∧ record.term = term

/-- The node has sent `PREPARED` for a term with a total and has not aborted since. -/
def outstanding (n : NodeView) (term value : ℕ) : Prop :=
  ∃ after before destination frame, n.performed = after ++ .send destination frame :: before ∧
    frame.type = .prepared ∧ frame.term = term ∧ frame.value = value ∧
    Effect.abortHandoff ∉ after

/-- A further effect owes the report that it sends, and clears all of them when it aborts. -/
theorem outstanding_cons {n n' : NodeView} {e : Effect} (h : n'.performed = e :: n.performed)
    {term value : ℕ} :
    n'.outstanding term value ↔
      (∃ destination frame, e = .send destination frame ∧ frame.type = .prepared ∧
        frame.term = term ∧ frame.value = value) ∨
      (e ≠ .abortHandoff ∧ n.outstanding term value) := by
  constructor
  · rintro ⟨after, before, destination, frame, hperformed, hsent⟩
    rw [h] at hperformed
    cases after with
    | nil =>
      obtain ⟨rfl, -⟩ := List.cons_eq_cons.mp hperformed
      exact .inl ⟨destination, frame, rfl, hsent.1, hsent.2.1, hsent.2.2.1⟩
    | cons last after =>
      obtain ⟨rfl, hold⟩ := List.cons_eq_cons.mp hperformed
      have hnot := List.mem_cons.not.mp hsent.2.2.2
      push Not at hnot
      exact .inr ⟨hnot.1.symm, after, before, destination, frame, hold, hsent.1, hsent.2.1,
        hsent.2.2.1, hnot.2⟩
  · rintro (⟨destination, frame, rfl, hsent⟩ |
      ⟨hne, after, before, destination, frame, hold, hsent⟩)
    · exact ⟨[], n.performed, destination, frame, h, hsent.1, hsent.2.1, hsent.2.2,
        List.not_mem_nil⟩
    · refine ⟨e :: after, before, destination, frame, by rw [h, hold, List.cons_append], hsent.1,
        hsent.2.1, hsent.2.2.1, ?_⟩
      exact List.mem_cons.not.mpr (not_or.mpr ⟨hne.symm, hsent.2.2.2⟩)

/-- The engine is drained under a claimed handoff. -/
structure Shut (n : NodeView) : Prop where
  mode : n.engine.mode = .reservedPeak
  active : n.engine.distributedHandoffActive = true
  gate : n.engine.gateOpen = false

theorem Shut.not_servesPeak {n : NodeView} (h : n.Shut) : ¬ n.servesPeak := by
  rintro ⟨-, hopen⟩
  exact absurd (h.gate.symm.trans hopen) nofun

/-- A journal is committed with one record. -/
theorem committed_unique {n : NodeView} {r r' : JournalRecord} (h : n.committed r)
    (h' : n.committed r') : r = r' := Option.some.inj (h.1.symm.trans h'.1)

end NodeView

/-- The engine of a running node: sound, and accounting for every accepted request. -/
structure NodeOk (K : Deployment) (i : ℕ) (n : NodeView) : Prop where
  sound : n.engine.Sound
  config : n.engine.config = (K.config i).engine
  used : n.engine.reserved.used = spentIn .reservedPeak n.served
  strict : spentIn .strict n.served = 0
  remote : spentIn .remoteStrict n.served = 0
  danger : n.engine.mode ≠ .dangerStrict → spentIn .dangerStrict n.served = 0
  modes : n.engine.mode = .reservedPeak ∨ ∃ record, n.committed record ∧
    n.engine.mode = CounterEngine.handoffMode (i == K.owner) ∧
    n.engine.strict.value = record.total + spentIn .dangerStrict n.served

/-! ### Requests and control-loop iterations -/

/-- What the threads of a process other than the controller's do to it. -/
structure NodeEnv (K : Deployment) (i : ℕ) (n n' : NodeView) : Prop where
  up : n'.up = n.up
  journal : n'.journal = n.journal
  impl : n'.impl.Same n.impl
  performed : n'.performed = n.performed
  ok : NodeOk K i n → NodeOk K i n'
  /-- requests do not touch the control plane and move the shards only through an open gate -/
  control : NodeOk K i n → CounterEngine.SameControl n.engine n'.engine ∧
    (¬ n.servesPeak → n'.engine.reserved.used = n.engine.reserved.used)

namespace NodeEnv

variable {K : Deployment} {i : ℕ} {n n' n'' : NodeView}

theorem refl (n : NodeView) : NodeEnv K i n n :=
  ⟨rfl, rfl, .refl _, rfl, id, fun _ => ⟨.refl _, fun _ => rfl⟩⟩

theorem trans (h : NodeEnv K i n n') (h' : NodeEnv K i n' n'') : NodeEnv K i n n'' where
  up := h'.up.trans h.up
  journal := h'.journal.trans h.journal
  impl := h'.impl.trans h.impl
  performed := h'.performed.trans h.performed
  ok := fun hn => h'.ok (h.ok hn)
  control := by
    intro hn
    obtain ⟨hsame, hused⟩ := h.control hn
    obtain ⟨hsame', hused'⟩ := h'.control (h.ok hn)
    refine ⟨hsame.trans hsame', fun hserve => ?_⟩
    have hserve' : ¬ n'.servesPeak := by
      rwa [NodeView.servesPeak, hsame.mode, hsame.gateOpen]
    exact (hused' hserve').trans (hused hserve)

end NodeEnv

section Requests

variable {K : Deployment} {i : ℕ} {n : NodeView}

/-- One request, whatever the engine answers. -/
theorem NodeEnv.apply (n : NodeView) (request : Request) :
    NodeEnv K i n { n with
      engine := (n.engine.apply request).2
      served := (n.engine.mode, request, (n.engine.apply request).1) :: n.served } where
  up := rfl
  journal := rfl
  impl := .refl _
  performed := rfl
  ok := by
    intro hn
    have hserved := hn.sound.apply request
    have hmodes := hn.modes
    refine ⟨hserved.sound, hserved.config.trans hn.config, ?_, ?_, ?_, ?_, ?_⟩
    · rw [spentIn_cons, ← hn.used]
      exact hserved.used.trans (Nat.add_comm _ _)
    · rw [spentIn_cons, hn.strict]
      rcases hmodes with hmode | ⟨r, -, hmode, -⟩
      · simp [hmode]
      · rw [if_neg]
        rw [hmode]
        exact CounterEngine.handoffMode_ne_strict _
    · rw [spentIn_cons, hn.remote]
      -- a process that serves remotely accepts nothing
      by_cases hremote : n.engine.mode = .remoteStrict
      · rw [if_pos hremote, spentBy_of_ne fun hacc => (hserved.admitted hacc).2 hremote]
      · rw [if_neg hremote]
    · intro hmode
      have hmode' : n.engine.mode ≠ .dangerStrict := fun h => hmode (hserved.mode.trans h)
      rw [spentIn_cons, if_neg hmode', hn.danger hmode']
    · rcases hmodes with hmode | ⟨r, hr, hmode, hvalue⟩
      · exact .inl (hserved.mode.trans hmode)
      · refine .inr ⟨r, hr, hserved.mode.trans hmode, ?_⟩
        have hne : n.engine.mode ≠ .reservedPeak := by
          rw [hmode]
          exact CounterEngine.handoffMode_ne_reservedPeak _
        have hv := hserved.value
        rw [if_neg hne] at hv
        rw [spentIn_cons]
        -- a remote process accepts nothing, a strict owner adds what it accepts
        by_cases hdanger : n.engine.mode = .dangerStrict
        · rw [if_pos hdanger]
          dsimp only at hv ⊢
          omega
        · have hremote : n.engine.mode = .remoteStrict := by
            rw [hmode, CounterEngine.handoffMode] at hdanger ⊢
            split at hdanger
            · exact absurd rfl hdanger
            · rw [if_neg ‹_›]
          rw [spentBy_of_ne fun hacc => (hserved.admitted hacc).2 hremote] at hv
          rw [if_neg hdanger]
          dsimp only at hv ⊢
          omega
  control := by
    intro hn
    have hserved := hn.sound.apply request
    refine ⟨hserved.toSameControl, fun hserve => ?_⟩
    rw [hserved.used]
    by_cases hmode : n.engine.mode = .reservedPeak
    · have hclosed : (n.engine.apply request).1.decision ≠ .accepted := fun hacc =>
        hserve ⟨hmode, (hserved.admitted hacc).1⟩
      rw [if_pos hmode, spentBy_of_ne hclosed, Nat.add_zero]
    · rw [if_neg hmode, Nat.add_zero]

/-- A call that touches nothing but bookkeeping. -/
theorem NodeEnv.bookkeeping {e' : CounterEngine}
    (h : NodeOk K i n → CounterEngine.Bookkeeping n.engine e') :
    NodeEnv K i n { n with engine := e' } where
  up := rfl
  journal := rfl
  impl := .refl _
  performed := rfl
  ok := by
    intro hn
    have hb := h hn
    refine ⟨hb.sound hn.sound, hb.config.trans hn.config, (hb.used hn.sound.bounded).trans hn.used,
      hn.strict, hn.remote, fun hmode => hn.danger fun h => hmode (hb.mode.trans h), ?_⟩
    rcases hn.modes with hmode | ⟨r, hr, hmode, hvalue⟩
    · exact .inl (hb.mode.trans hmode)
    · exact .inr ⟨r, hr, hb.mode.trans hmode, by rw [hb.strict]; exact hvalue⟩
  control := fun hn => ⟨(h hn).toSameControl, fun _ => (h hn).used hn.sound.bounded⟩

/-- One iteration of the control loop: a process with a component reservation never collapses
on its own. -/
theorem NodeEnv.controlLoop (hi : i ∈ K.running) (n : NodeView) :
    NodeEnv K i n { n with engine := n.engine.controlLoop } := by
  refine .bookkeeping fun hn => CounterEngine.bookkeeping_controlLoop ?_ (.inr (.inl ?_))
  · rcases hn.modes with hmode | ⟨r, -, hmode, -⟩
    · simp [hmode]
    · rw [hmode]
      exact CounterEngine.handoffMode_ne_strict _
  · have hlt := Deployment.localPeak_lt hi
    rw [hn.sound.limit_eq, CounterEngine.localPeak, hn.config,
      (Deployment.member_of_running hi).limit]
    omega

/-- A request for the strict owner touches nothing but bookkeeping. -/
theorem NodeEnv.raisePeakRequest (n : NodeView) :
    NodeEnv K i n { n with engine := n.engine.raisePeakRequest } :=
  .bookkeeping fun _ => ⟨⟨rfl, rfl, rfl, rfl, rfl⟩, rfl, id, fun _ => rfl, rfl⟩

end Requests

end HotCounter
