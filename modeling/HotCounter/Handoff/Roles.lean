import HotCounter.Handoff.Datagram
import HotCounter.Handoff.Cluster

/-!
# Who can move a controller

A controller keeps its configuration and stays within the states of its role at every point of
every handler (`keeps_receive`, `keeps_tick`, `keeps_stop`). A follower passes over every
datagram that is not an authentic frame of the leader, sent from the leader's endpoint
(`receive_discarded`): the handler returns at once, in the state it started in. So such
datagrams can be deleted from any sequence of inputs without a trace
(`only_the_leader_moves_a_follower`).
-/

namespace HotCounter

open Foundation

namespace Impl

/-- What no handler changes. -/
structure SameSetup (c₀ c : Impl) : Prop where
  config : c.config = c₀.config
  members : c.members = c₀.members
  peers : c.peers = c₀.peers

/-- The state is one of the states of the controller's role. -/
def SuitsRole (c : Impl) : Prop :=
  match c.state with
  | .idle => True
  | .leaderPreparing | .leaderCommitBlocked | .leaderCommitting => c.isLeader = true
  | .followerPrepared | .followerCommitting => c.isLeader = false

/-- The setup is that of `c₀`, and the state suits the role if `c₀`'s did. -/
structure Within (c₀ c : Impl) : Prop where
  setup : SameSetup c₀ c
  suits : c₀.SuitsRole → c.SuitsRole

variable {c₀ c c' : Impl}

theorem SameSetup.isLeader (h : SameSetup c₀ c) : c.isLeader = c₀.isLeader := by
  rw [Impl.isLeader, Impl.isLeader, h.config]

theorem Within.refl : Within c₀ c₀ := ⟨⟨rfl, rfl, rfl⟩, id⟩

/-- A change to other fields. -/
theorem Within.congr (h : Within c₀ c) (hconfig : c'.config = c.config)
    (hmembers : c'.members = c.members) (hpeers : c'.peers = c.peers)
    (hstate : c'.state = c.state) : Within c₀ c' := by
  refine ⟨⟨hconfig.trans h.setup.config, hmembers.trans h.setup.members,
    hpeers.trans h.setup.peers⟩, fun h₀ => ?_⟩
  have hsuits := h.suits h₀
  unfold SuitsRole Impl.isLeader at hsuits ⊢
  rwa [hstate, hconfig]

/-- A change that also moves the state. -/
theorem Within.moved (h : Within c₀ c) (hconfig : c'.config = c.config)
    (hmembers : c'.members = c.members) (hpeers : c'.peers = c.peers)
    (hstate : c₀.SuitsRole → c'.SuitsRole) : Within c₀ c' :=
  ⟨⟨hconfig.trans h.setup.config, hmembers.trans h.setup.members, hpeers.trans h.setup.peers⟩,
    hstate⟩

/-! ### Scripts that change nothing

They keep every property of the controller. -/

section Unchanging

variable {P : Impl → Prop}

/-- A lookup changes nothing. -/
theorem keeps_preparedAt (component : ℕ) :
    Script.Keeps P (preparedAt component) := by
  refine .get_bind fun c _ => ?_
  cases c.prepared.lookup component with
  | some found => exact .pure found
  | none => exact .bind (.perform _) fun never => nomatch never

/-- Writing the journal leaves the volatile state alone. -/
theorem keeps_persist (phase : JournalPhase) (term : ℕ) (state : DrainedPeakState) (total : ℕ) :
    Script.Keeps P (persist phase term state total) :=
  .get_bind fun _ _ => .perform _

/-- Sending leaves the volatile state alone. -/
theorem keeps_send (type : WireType) (destination : Endpoint) (term counter epoch value : ℕ) :
    Script.Keeps P (send type destination term counter epoch value) :=
  .get_bind fun _ _ => .perform _

theorem keeps_sendEach (type : WireType) (term counter epoch value : ℕ) :
    ∀ peers, Script.Keeps P (sendEach type term counter epoch value peers)
  | [] => .pure ()
  | peer :: peers => .bind (keeps_send type peer.2 term counter epoch value) fun _ =>
    keeps_sendEach type term counter epoch value peers

theorem keeps_broadcast (type : WireType) (term counter epoch value : ℕ) :
    Script.Keeps P (broadcast type term counter epoch value) :=
  .get_bind fun c _ => keeps_sendEach type term counter epoch value c.peers

theorem keeps_sendToComponent (type : WireType) (component term counter epoch value : ℕ) :
    Script.Keeps P (sendToComponent type component term counter epoch value) := by
  refine .get_bind fun c _ => ?_
  cases c.peers.lookup component with
  | some endpoint => exact keeps_send type endpoint term counter epoch value
  | none => exact .pure ()

end Unchanging

/-! ### Handlers stay within the setup and the role -/

/-- The leader that begins to prepare stays within the roles. -/
theorem keeps_beginLeaderPrepare : Script.Keeps (Within c₀) beginLeaderPrepare := by
  refine .get_bind fun c hc => .ite (fun _ => .pure ()) fun hguard => ?_
  have hleader : c₀.isLeader = true := by
    rw [← hc.setup.isLeader]
    by_contra hfalse
    simp [hfalse] at hguard
  refine .bind (.perform _) fun reply => ?_
  cases reply with
  | none => exact .pure ()
  | some drained =>
    refine .bind (.perform _) fun now => .bind (.modify fun c hc => hc.congr rfl rfl rfl rfl)
      fun _ => .bind (keeps_persist _ _ _ _) fun stored => .ite (fun _ => ?_) fun _ => ?_
    · refine .bind (.modify fun c hc => hc.moved rfl rfl rfl fun _ => ?_) fun _ =>
        .bind (.perform _) fun started => .modify fun c hc => hc.congr rfl rfl rfl rfl
      exact hc.setup.isLeader.trans hleader
    · exact .bind (.perform _) fun _ => .modify fun c hc => hc.congr rfl rfl rfl rfl

/-- An abort stays within the roles. -/
theorem keeps_abortPrepare (broadcastAbort : Bool) :
    Script.Keeps (Within c₀) (abortPrepare broadcastAbort) := by
  have hclear : Script.Keeps (Within c₀) (modify fun c : Impl =>
      { c with prepared := [], state := .idle, activeTerm := 0 } : HandoffM PUnit) :=
    .modify fun c hc => hc.moved rfl rfl rfl fun _ => trivial
  refine .get_bind fun c _ => .ite (fun _ => ?_) fun _ => hclear
  refine .bind (.perform _) fun _ => .bind (keeps_persist _ _ _ _) fun _ =>
    .ite (fun _ => ?_) fun _ => hclear
  exact .bind (keeps_broadcast _ _ _ _ _) fun _ => hclear

/-- Only a leader tries to commit. -/
theorem keeps_tryBeginCommit (hleader : c₀.isLeader = true) :
    Script.Keeps (Within c₀) tryBeginCommit := by
  refine .get_bind fun c _ => .ite (fun _ => .pure ()) fun _ =>
    .bind (keeps_preparedAt _) fun leaderState => ?_
  cases sumPrepared leaderState 0 c.prepared with
  | none => exact keeps_abortPrepare true
  | some total =>
    have hcommitting : Script.Keeps (Within c₀) (modify fun c : Impl =>
        { c with state := .leaderCommitting, nextRetry := 0 } : HandoffM PUnit) :=
      .modify fun c hc => hc.moved rfl rfl rfl fun _ => hc.setup.isLeader.trans hleader
    refine .ite (fun _ => keeps_abortPrepare true) fun _ =>
      .bind (keeps_persist _ _ _ _) fun stored => .ite (fun _ => ?_) fun _ => ?_
    · refine .bind (.modify fun c hc => hc.congr rfl rfl rfl rfl) fun _ =>
        .bind (.perform _) fun installed => .ite (fun _ => ?_) fun _ => hcommitting
      exact .bind (.modify fun c hc => hc.congr rfl rfl rfl rfl) fun _ => hcommitting
    · exact .modify fun c hc => hc.moved rfl rfl rfl fun _ => hc.setup.isLeader.trans hleader

/-- Only a follower prepares for a term it was told. -/
theorem keeps_prepareFor (hfollower : c₀.isLeader = false) (term : ℕ) :
    Script.Keeps (Within c₀) (prepareFor term) := by
  refine .bind (.perform _) fun reply => ?_
  cases reply with
  | none => exact .pure ()
  | some drained =>
    refine .bind (.modify fun c hc => hc.congr rfl rfl rfl rfl) fun _ =>
      .bind (keeps_persist _ _ _ _) fun stored => .ite (fun _ => ?_) fun _ => ?_
    · refine .bind (.modify fun c hc => hc.moved rfl rfl rfl fun _ => ?_) fun _ =>
        .bind (.perform _) fun started => .bind (.modify fun c hc => hc.congr rfl rfl rfl rfl)
          fun _ => .get_bind fun c _ => keeps_sendToComponent _ _ _ _ _ _
      exact hc.setup.isLeader.trans hfollower
    · exact .bind (.perform _) fun _ => .modify fun c hc => hc.congr rfl rfl rfl rfl

/-- The leader's own id is no follower's. -/
theorem follower_of_sender {frame : Frame} (hc : Within c₀ c)
    (hsender : frame.sender ≠ c₀.config.componentId)
    (hguard : ¬ (frame.sender ≠ c.config.leaderComponentId ∨
      frame.strictOwner ≠ c.config.strictOwnerComponentId)) : c₀.isLeader = false := by
  have hleader : frame.sender = c.config.leaderComponentId :=
    Decidable.not_not.mp (not_or.mp hguard).1
  rw [hc.setup.config] at hleader
  rw [Impl.isLeader, beq_eq_false_iff_ne]
  exact fun hown => hsender (hleader.trans hown.symm)

/-- A prepare of another component stays within the roles. -/
theorem keeps_handlePrepare {frame : Frame} (hsender : frame.sender ≠ c₀.config.componentId) :
    Script.Keeps (Within c₀) (handlePrepare frame) := by
  refine .get_bind fun c hc => .ite (fun _ => .pure ()) fun hguard => ?_
  have hfollower := follower_of_sender hc hsender hguard
  refine .ite (fun _ => .pure ()) fun _ => .ite (fun _ => .pure ()) fun _ =>
    .ite (fun _ => ?_) fun _ => ?_
  · exact .bind (keeps_preparedAt _) fun drained => keeps_sendToComponent _ _ _ _ _ _
  · refine .ite (fun _ => ?_) fun _ => keeps_prepareFor hfollower frame.term
    exact .bind (keeps_abortPrepare false) fun _ => keeps_prepareFor hfollower frame.term

theorem keeps_handlePrepared (frame : Frame) :
    Script.Keeps (Within c₀) (handlePrepared frame) := by
  refine .get_bind fun c hc => .ite (fun _ => .pure ()) fun hguard => ?_
  have hleader : c₀.isLeader = true := by
    rw [← hc.setup.isLeader]
    by_contra hfalse
    simp [hfalse] at hguard
  exact .bind (.modify fun c hc => hc.congr rfl rfl rfl rfl) fun _ => keeps_tryBeginCommit hleader

/-- A commit of another component stays within the roles. -/
theorem keeps_handleCommit {frame : Frame} (hsender : frame.sender ≠ c₀.config.componentId) :
    Script.Keeps (Within c₀) (handleCommit frame) := by
  refine .get_bind fun c hc => .ite (fun _ => .pure ()) fun hguard => ?_
  have hfollower := follower_of_sender hc hsender hguard
  refine .ite (fun _ => keeps_sendToComponent _ _ _ _ _ _) fun _ => .ite (fun _ => .pure ())
    fun _ => .bind (.modify fun c hc => hc.moved rfl rfl rfl fun _ => ?_) fun _ =>
      .bind (keeps_persist _ _ _ _) fun stored => .ite (fun _ => ?_) fun _ => .pure ()
  · exact hc.setup.isLeader.trans hfollower
  · refine .bind (.perform _) fun installed => .ite (fun _ => ?_) fun _ => .pure ()
    exact .bind (.modify fun c hc => hc.moved rfl rfl rfl fun _ => trivial) fun _ =>
      keeps_sendToComponent _ _ _ _ _ _

theorem keeps_handleCommitAck (frame : Frame) :
    Script.Keeps (Within c₀) (handleCommitAck frame) := by
  refine .get_bind fun c _ => .ite (fun _ => .pure ()) fun _ =>
    .bind (.modify fun c hc => hc.congr rfl rfl rfl rfl) fun _ => .get_bind fun c _ =>
      .ite (fun _ => ?_) fun _ => .pure ()
  exact .modify fun c hc => hc.moved rfl rfl rfl fun _ => trivial

theorem keeps_handleAbort (frame : Frame) : Script.Keeps (Within c₀) (handleAbort frame) :=
  .get_bind fun _ _ => .ite (fun _ => keeps_abortPrepare false) fun _ => .pure ()

/-- Every frame that is not discarded stays within the roles. -/
theorem keeps_handleFrame (frame : Frame) (source : Endpoint) :
    Script.Keeps (Within c₀) (handleFrame frame source) := by
  refine .get_bind fun c hc => .ite (fun _ => .pure ()) fun _ => .ite (fun _ => .pure ())
    fun hsender => .ite (fun _ => .pure ()) fun _ => ?_
  rw [not_or, hc.setup.config] at hsender
  cases frame.type with
  | trigger => exact .ite (fun _ => keeps_beginLeaderPrepare) fun _ => .pure ()
  | prepare => exact keeps_handlePrepare hsender.1
  | prepared => exact keeps_handlePrepared frame
  | commit => exact keeps_handleCommit hsender.1
  | commitAck => exact keeps_handleCommitAck frame
  | abort => exact keeps_handleAbort frame

/-- Every datagram stays within the roles. -/
theorem keeps_receive (datagram : Datagram) : Script.Keeps (Within c₀) (receive datagram) := by
  refine .get_bind fun c _ => ?_
  cases c.decode datagram with
  | none => exact .pure ()
  | some frame => exact keeps_handleFrame frame datagram.source

theorem keeps_triggerHandoff (now : ℕ) : Script.Keeps (Within c₀) (triggerHandoff now) := by
  refine .get_bind fun c _ => .ite (fun _ => .pure ()) fun _ => .bind (.perform _) fun mode =>
    .ite (fun _ => .pure ()) fun _ => .ite (fun _ => ?_) fun _ => .pure ()
  refine .bind (.perform _) fun total => .ite (fun _ => ?_) fun _ => .pure ()
  refine .ite (fun _ => keeps_beginLeaderPrepare) fun _ => .ite (fun _ => ?_) fun _ => .pure ()
  exact .bind (keeps_sendToComponent _ _ _ _ _ _) fun _ =>
    .modify fun c hc => hc.congr rfl rfl rfl rfl

theorem keeps_retryPhase (now : ℕ) : Script.Keeps (Within c₀) (retryPhase now) := by
  have hretry : Script.Keeps (Within c₀) (modify fun c : Impl =>
      { c with nextRetry := now + c.config.retryAfter } : HandoffM PUnit) :=
    .modify fun c hc => hc.congr rfl rfl rfl rfl
  refine .get_bind fun c _ => .ite (fun _ => ?_) fun _ => .ite (fun _ => ?_) fun _ =>
    .ite (fun _ => ?_) fun _ => .pure ()
  · refine .ite (fun _ => keeps_abortPrepare true) fun _ => .ite (fun _ => ?_) fun _ => .pure ()
    exact .bind (keeps_preparedAt _) fun _ => .bind (keeps_broadcast _ _ _ _ _) fun _ => hretry
  · refine .ite (fun _ => keeps_abortPrepare false) fun _ => .ite (fun _ => ?_) fun _ => .pure ()
    exact .bind (keeps_preparedAt _) fun _ => .bind (keeps_sendToComponent _ _ _ _ _ _)
      fun _ => hretry
  · exact .bind (keeps_sendEach _ _ _ _ _ _) fun _ => hretry

/-- The timer stays within the roles. -/
theorem keeps_tick (now : ℕ) : Script.Keeps (Within c₀) (tick now) :=
  .bind (keeps_triggerHandoff now) fun _ => keeps_retryPhase now

theorem keeps_stop : Script.Keeps (Within c₀) stop :=
  .get_bind fun _ _ => .ite (fun _ => keeps_abortPrepare false) fun _ => .pure ()

/-! ### What a follower passes over -/

/-- The datagrams that do not come from the leader: malformed or badly tagged ones, and frames
that name a sender who is no member, who is not configured at the address the datagram came
from, or who is not the leader. -/
def discards (c : Impl) (datagram : Datagram) : Bool :=
  match c.decode datagram with
  | none => true
  | some frame =>
    !c.isMember frame.sender || c.peers.lookup frame.sender != some datagram.source ||
      frame.sender != c.config.leaderComponentId

theorem SameSetup.discards (h : SameSetup c₀ c) (datagram : Datagram) :
    c.discards datagram = c₀.discards datagram := by
  unfold Impl.discards Impl.decode Impl.isMember
  rw [h.config, h.members, h.peers]

/-- A follower passes over a frame that names another sender than the leader. -/
theorem handleFrame_other {frame : Frame} {source : Endpoint} (hfollower : c.isLeader = false)
    (hsender : frame.sender ≠ c.config.leaderComponentId) :
    handleFrame frame source c = .ret c () := by
  unfold handleFrame
  simp only [Script.bind_apply, Script.get_apply, Script.ite_apply, Prog.ret_bind]
  split
  · rfl
  split
  · rfl
  split
  · rfl
  -- each branch asks for the leader's role or for the leader's name
  cases frame.type with
  | trigger => simp [hfollower]
  | prepare => simp [handlePrepare, hsender]
  | prepared => simp [handlePrepared, hfollower]
  | commit => simp [handleCommit, hsender]
  | commitAck => simp [handleCommitAck, hfollower]
  | abort => simp [handleAbort, hsender]

/-- No controller takes notice of a frame from outside the membership or from another address
than the sender's. -/
theorem handleFrame_foreign {frame : Frame} {source : Endpoint}
    (hforeign : c.isMember frame.sender = false ∨ c.peers.lookup frame.sender ≠ some source) :
    handleFrame frame source c = .ret c () := by
  unfold handleFrame
  simp only [Script.bind_apply, Script.get_apply, Script.ite_apply, Prog.ret_bind]
  rcases hforeign with hmember | hsource
  · simp [hmember]
  · simp [hsource]

/-- **A follower passes over every datagram that is not the leader's.** -/
theorem receive_discarded {datagram : Datagram} (hfollower : c.isLeader = false)
    (h : c.discards datagram = true) : receive datagram c = .ret c () := by
  unfold discards at h
  unfold receive
  simp only [Script.bind_apply, Script.get_apply, Prog.ret_bind]
  cases hdecode : c.decode datagram with
  | none => rfl
  | some frame =>
    rw [hdecode] at h
    simp only [Bool.or_eq_true, Bool.not_eq_true', bne_iff_ne, ne_eq] at h
    rcases h with hforeign | hsender
    · exact handleFrame_foreign hforeign
    · exact handleFrame_other hfollower hsender

end Impl

/-! ### Whole runs of a station -/

namespace Station

variable {c : Impl} {w w' : Station} {input : Input}

/-- Every point of the handler in hand stays within the setup of `c`. -/
def Bound (c : Impl) (w : Station) : Prop := w.node.control.Always (Impl.Within c)

/-- One enabled input, taken apart. -/
theorem step_eq_some (h : w.step input = some w') :
    w.node.up = true ∧ ∃ n packets, respond w.node input = some (n, packets) ∧
      w' = ⟨n, w.sent ++ packets⟩ := by
  unfold step at h
  split at h
  · rename_i hup
    obtain ⟨⟨n, packets⟩, hn, rfl⟩ := Option.map_eq_some_iff.mp h
    exact ⟨hup, n, packets, hn, rfl⟩
  · exact absurd h nofun

/-- A handler taken up by the worker. -/
private theorem Bound.handle {n : Node} {handler : HandoffM Unit} {packets : List Packet}
    (h : Bound c w) (hhandler : Script.Keeps (Impl.Within c) handler)
    (hn : w.node.handle handler = some n) : Bound c ⟨n, packets⟩ := by
  obtain ⟨d, hcontrol, rfl⟩ := Node.handle_eq_some hn
  unfold Bound at h
  rw [hcontrol] at h
  exact hhandler d h

/-- One input keeps the roles apart. -/
private theorem Bound.step (h : Bound c w) (hstep : w.step input = some w') : Bound c w' := by
  obtain ⟨-, n, packets, hn, rfl⟩ := step_eq_some hstep
  cases input with
  | receive datagram =>
    obtain ⟨n', hn', heq⟩ := Option.map_eq_some_iff.mp hn
    obtain ⟨rfl, rfl⟩ := Prod.mk.inj heq
    exact h.handle (Impl.keeps_receive datagram) hn'
  | tick now =>
    obtain ⟨n', hn', heq⟩ := Option.map_eq_some_iff.mp hn
    obtain ⟨rfl, rfl⟩ := Prod.mk.inj heq
    exact h.handle (Impl.keeps_tick now) hn'
  | stop =>
    obtain ⟨n', hn', heq⟩ := Option.map_eq_some_iff.mp hn
    obtain ⟨rfl, rfl⟩ := Prod.mk.inj heq
    have hbound : Bound c ⟨n', w.sent⟩ := h.handle Impl.keeps_stop hn'
    exact hbound
  | effect oracle =>
    unfold Bound at h
    simp only [respond, Node.step] at hn
    split at hn
    · exact absurd hn nofun
    · rename_i d e k hcontrol
      rw [hcontrol] at h
      split at hn
      · obtain ⟨rfl, rfl⟩ := Prod.mk.inj (Option.some.inj hn)
        unfold Bound
        rw [hcontrol]
        exact h
      · obtain ⟨rfl, rfl⟩ := Prod.mk.inj (Option.some.inj hn)
        exact h.2 _
  | apply request =>
    obtain ⟨rfl, rfl⟩ := Prod.mk.inj (Option.some.inj hn)
    exact h
  | controlLoop =>
    obtain ⟨rfl, rfl⟩ := Prod.mk.inj (Option.some.inj hn)
    exact h
  | raisePeakRequest =>
    obtain ⟨rfl, rfl⟩ := Prod.mk.inj (Option.some.inj hn)
    exact h

theorem run_cons (w : Station) (input : Input) (inputs : List Input) :
    w.run (input :: inputs) = (w.step input).bind fun w => w.run inputs := rfl

/-- Every sequence of inputs keeps the roles apart. -/
private theorem Bound.run : ∀ {inputs : List Input} {w : Station}, Bound c w →
    w.run inputs = some w' → Bound c w'
  | [], w, h, hrun => by
    obtain rfl : w = w' := Option.some.inj hrun
    exact h
  | input :: inputs, w, h, hrun => by
    rw [run_cons] at hrun
    obtain ⟨u, hstep, hrest⟩ := Option.bind_eq_some_iff.mp hrun
    exact (h.step hstep).run hrest

/-- The inputs that a follower takes notice of. -/
def heeded (c : Impl) : Input → Bool
  | .receive datagram => !c.discards datagram
  | _ => true

/-- An input that is not heeded changes nothing. -/
private theorem step_unheeded (hfollower : c.isLeader = false) (h : Bound c w)
    (hinput : heeded c input = false) (hstep : w.step input = some w') : w' = w := by
  obtain ⟨-, n, packets, hn, rfl⟩ := step_eq_some hstep
  cases input with
  | receive datagram =>
    obtain ⟨n', hn', heq⟩ := Option.map_eq_some_iff.mp hn
    obtain ⟨rfl, rfl⟩ := Prod.mk.inj heq
    obtain ⟨d, hcontrol, rfl⟩ := Node.handle_eq_some hn'
    unfold Bound at h
    rw [hcontrol] at h
    have hsetup : Impl.SameSetup c d := Impl.Within.setup h
    have hdiscard : d.discards datagram = true := by
      rw [hsetup.discards]
      simpa [heeded] using hinput
    have hpass : Impl.receive datagram d = w.node.control := by
      rw [Impl.receive_discarded (hsetup.isLeader.trans hfollower) hdiscard, hcontrol]
    rw [hpass, List.append_nil]
  | _ => exact absurd hinput (by simp [heeded])

/-- The run without the inputs that are not heeded. -/
private theorem run_filter (hfollower : c.isLeader = false) :
    ∀ {inputs : List Input} {w : Station}, Bound c w → w.run inputs = some w' →
      w.run (inputs.filter (heeded c)) = some w'
  | [], _, _, hrun => hrun
  | input :: inputs, w, h, hrun => by
    rw [run_cons] at hrun
    obtain ⟨u, hstep, hrest⟩ := Option.bind_eq_some_iff.mp hrun
    have ih := run_filter hfollower (h.step hstep) hrest
    cases hinput : heeded c input with
    | true => rw [List.filter_cons_of_pos hinput, run_cons, hstep, Option.bind_some, ih]
    | false =>
      obtain rfl := step_unheeded hfollower h hinput hstep
      rw [List.filter_cons_of_neg (by simp [hinput]), ih]

/-- **Only the leader moves a follower.** Let a process run from any controller state `c` under
any inputs, with any outcomes of its journal stores, any clock readings and any use of its engine.
If `c` is not the leader, the datagrams that are malformed, badly tagged, from no member, from
another endpoint than the sender's, or not from the leader can be deleted: the run without them
ends in the same process (controller, engine, journal) and has sent the same frames. Whatever
arrives, the leader enters no follower state and a follower no leader state. -/
theorem only_the_leader_moves_a_follower {c : Impl} {n : Node} {sent : List Packet}
    {inputs : List Input} {w : Station} (hcontrol : n.control = .ret c ())
    (hrun : Station.run ⟨n, sent⟩ inputs = some w) :
    (c.isLeader = false → Station.run ⟨n, sent⟩ (inputs.filter (heeded c)) = some w) ∧
    (c.isLeader = true → c.state ≠ .followerPrepared ∧ c.state ≠ .followerCommitting →
      w.node.impl.state ≠ .followerPrepared ∧ w.node.impl.state ≠ .followerCommitting) ∧
    (c.isLeader = false → c.state ≠ .leaderPreparing ∧ c.state ≠ .leaderCommitBlocked ∧
        c.state ≠ .leaderCommitting →
      w.node.impl.state ≠ .leaderPreparing ∧ w.node.impl.state ≠ .leaderCommitBlocked ∧
        w.node.impl.state ≠ .leaderCommitting) := by
  have hbound : Bound c ⟨n, sent⟩ := by
    unfold Bound
    rw [hcontrol]
    exact Impl.Within.refl
  have hend : Impl.Within c w.node.impl := Prog.Always.state (hbound.run hrun)
  refine ⟨fun hfollower => run_filter hfollower hbound hrun, ?_, ?_⟩
  · rintro hleader ⟨hprepared, hcommitting⟩
    have hsuits : w.node.impl.SuitsRole := hend.suits <| by
      unfold Impl.SuitsRole
      split <;> simp_all
    have hrole := hend.setup.isLeader.trans hleader
    constructor
    all_goals
      intro hstate
      simp [Impl.SuitsRole, hstate, hrole] at hsuits
  · rintro hfollower ⟨hpreparing, hblocked, hcommitting⟩
    have hsuits : w.node.impl.SuitsRole := hend.suits <| by
      unfold Impl.SuitsRole
      split <;> simp_all
    have hrole := hend.setup.isLeader.trans hfollower
    refine ⟨?_, ?_, ?_⟩
    all_goals
      intro hstate
      simp [Impl.SuitsRole, hstate, hrole] at hsuits

/-! ### A follower under forged datagrams -/

/-- The second process of the pair, in peak mode with an idle controller. -/
def pairFollower : Impl where
  engine := (Deployment.pairConfig 1).engine
  config := Deployment.pairHandoff 1
  members := [0, 1]
  peers := [(0, ⟨2130706433, 9000⟩)]

def pairStation (control : Prog Impl Reply Unit) : Station where
  node :=
    { up := true
      engine := (CounterEngine.new (Deployment.pairConfig 1).engine).transitionToReserved.2
      control := control }

/-- A signed `Prepare` in the name of a component, from a port of the pair's host. -/
def signedPrepare (sender port : ℕ) : Datagram :=
  ⟨Handoff.encodeFrame pairFollower.config.authenticationKey
    ⟨.prepare, sender, 1000, 17, 1, 40, 0⟩, ⟨2130706433, port⟩⟩

/-- Noise, the leader's prepare replayed from another port, a prepare in the name of a stranger;
then the leader's prepare, and the effects of handling it. -/
def forgedInputs : List Input :=
  .receive ⟨[1, 2, 3], ⟨2130706433, 9000⟩⟩ :: .receive (signedPrepare 0 9999) ::
    .receive (signedPrepare 7 9000) :: .receive (signedPrepare 0 9000) ::
      List.replicate 4 (.effect ⟨.stored, 1000⟩)

private theorem step_pairStation (datagram : Datagram) :
    (pairStation (.ret pairFollower ())).step (.receive datagram) =
      some (pairStation (Impl.receive datagram pairFollower)) := rfl

private theorem receive_signedPrepare (sender port : ℕ) :
    Impl.receive (signedPrepare sender port) pairFollower =
      Impl.handleFrame (Handoff.onWire ⟨.prepare, sender, 1000, 17, 1, 40, 0⟩)
        ⟨2130706433, port⟩ pairFollower :=
  Impl.receive_encodeFrame pairFollower _ _

/-- The forged datagrams leave no trace: the follower is prepared and has reported once, with
them as without them. -/
theorem only_the_leader_moves_a_follower_forged :
    ∃ w, (pairStation (.ret pairFollower ())).run forgedInputs = some w ∧
      (pairStation (.ret pairFollower ())).run
        (forgedInputs.filter (heeded pairFollower)) = some w ∧
      w.node.impl.state = .followerPrepared ∧ w.sent.length = 1 := by
  have hnoise : Impl.receive ⟨[1, 2, 3], ⟨2130706433, 9000⟩⟩ pairFollower =
      .ret pairFollower () := rfl
  have hreplayed : Impl.receive (signedPrepare 0 9999) pairFollower = .ret pairFollower () :=
    receive_signedPrepare 0 9999
  have hstranger : Impl.receive (signedPrepare 7 9000) pairFollower = .ret pairFollower () :=
    receive_signedPrepare 7 9000
  have hprepare : Impl.receive (signedPrepare 0 9000) pairFollower =
      Impl.handleFrame ⟨.prepare, 0, 1000, 17, 1, 40, 0⟩ ⟨2130706433, 9000⟩ pairFollower :=
    receive_signedPrepare 0 9000
  have hexec : ((pairStation (Impl.handleFrame ⟨.prepare, 0, 1000, 17, 1, 40, 0⟩
      ⟨2130706433, 9000⟩ pairFollower)).run (List.replicate 4 (.effect ⟨.stored, 1000⟩))).map
        (fun w => decide (w.node.impl.state = .followerPrepared ∧ w.sent.length = 1)) =
          some true := by decide +kernel
  obtain ⟨w, hlast, hw⟩ := Option.map_eq_some_iff.mp hexec
  have hrun : (pairStation (.ret pairFollower ())).run forgedInputs = some w := by
    unfold forgedInputs
    rw [run_cons, step_pairStation, hnoise, Option.bind_some, run_cons, step_pairStation,
      hreplayed, Option.bind_some, run_cons, step_pairStation, hstranger, Option.bind_some,
      run_cons, step_pairStation, hprepare, Option.bind_some, hlast]
  obtain ⟨hstate, hsent⟩ := of_decide_eq_true hw
  exact ⟨w, hrun, (only_the_leader_moves_a_follower rfl hrun).1 rfl, hstate, hsent⟩

end Station

end HotCounter
