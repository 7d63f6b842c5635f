import HotCounter.Handoff.Fence
import HotCounter.Handoff.Agreement

/-!
# Commit dissemination and restarts of the leader

A committing leader sends its commit, at every tick whose retry time has passed, to every peer
that has not acknowledged. A leader that restarts on its committed journal comes up idle: it
never sends another frame, so a follower that has not heard of the commit waits forever
(`restart_ends_dissemination`).
-/

namespace HotCounter

open Foundation NodeView

/-- An effect was performed between two states of a process. -/
def Node.PerformedSince (n n' : Node) (e : Effect) : Prop :=
  ∃ new, n'.performed = new ++ n.performed ∧ e ∈ new

/-! ### The live leader -/

/-- Sending to a list of peers runs to its end. -/
private theorem runs_sendEach {type : WireType} {term counter epoch value : ℕ} {c : Impl}
    {f : Impl → Unit → Prog Impl Reply Unit} :
    ∀ {peers : List (ℕ × Endpoint)} {n : Node},
      n.control = (Impl.sendEach type term counter epoch value peers c).bind f →
      ∃ n', n.Runs n' ∧ n'.control = f c () ∧ ∃ new, n'.performed = new ++ n.performed ∧
        ∀ peer ∈ peers, Effect.send peer.2 (c.frame type term counter epoch value) ∈ new
  | [], n, h => ⟨n, .refl, h, [], rfl, nofun⟩
  | peer :: peers, n, h => by
    let e : Effect := .send peer.2 (c.frame type term counter epoch value)
    let next : Node := { n with
      control := (Impl.sendEach type term counter epoch value peers c).bind f
      performed := e :: n.performed }
    have hstep : n.advance (.effect {}) = some next := by
      have hcontrol : n.control = .op c e fun _ =>
          (Impl.sendEach type term counter epoch value peers c).bind f := h
      simp only [Node.advance, Node.step, hcontrol]
      rfl
    obtain ⟨n', hn', hend, new, hnew, hsent⟩ := runs_sendEach (n := next) rfl
    refine ⟨n', (Steps.refl.tail trivial hstep).trans hn', hend, new ++ [e], ?_, ?_⟩
    · rw [hnew, List.append_assoc]
      rfl
    · intro p hp
      rcases List.mem_cons.mp hp with rfl | hp
      · exact List.mem_append_right _ (List.mem_singleton.mpr rfl)
      · exact List.mem_append_left _ (hsent p hp)

/-- A tick of a committing leader whose retry time has passed. -/
private theorem tick_sends {c : Impl} {n : Node} {now : ℕ} (hcontrol : n.control = .ret c ())
    (hrunning : n.stopped = false) (hstate : c.state = .leaderCommitting)
    (hretry : c.nextRetry ≤ now) :
    ∃ n₁ n', n.advance (.tick now) = some n₁ ∧ n₁.Runs n' ∧
      ∀ peer ∈ c.peers, peer.1 ∉ c.commitAcks →
        n.PerformedSince n' (.send peer.2
          (c.frame .commit c.activeTerm c.committedCounter c.committedEpoch c.committedTotal)) := by
  let unacked := c.peers.filter fun peer => !c.commitAcks.contains peer.1
  have htick : Impl.tick now c = (Impl.sendEach .commit c.activeTerm c.committedCounter
      c.committedEpoch c.committedTotal unacked c).bind
        fun c _ => .ret { c with nextRetry := now + c.config.retryAfter } () := by
    unfold Impl.tick
    rw [Script.bind_apply, Impl.triggerHandoff_busy (.inr (by simp [hstate])), Prog.ret_bind]
    unfold Impl.retryPhase
    simp only [Script.bind_apply, Script.get_apply, Script.ite_apply, Prog.ret_bind, hstate,
      reduceCtorEq, if_false, true_and, ge_iff_le, hretry, if_true]
    rfl
  have hstep : n.advance (.tick now) = some { n with control := Impl.tick now c } := by
    simp [Node.advance, Node.step, Node.handle, hcontrol, hrunning]
  obtain ⟨n', hruns, -, new, hnew, hsent⟩ :=
    runs_sendEach (n := { n with control := Impl.tick now c }) htick
  refine ⟨_, n', hstep, hruns, fun peer hpeer hack => ⟨new, hnew, hsent peer ?_⟩⟩
  exact List.mem_filter.mpr ⟨hpeer, by simpa using hack⟩

/-! ### The restarted leader -/

variable {K : Deployment} {w : Cluster}

/-- What the controller of a restarted leader has in hand: nothing, or a question to the engine
that ends where it began. -/
def Idling (c : Impl) (p : Prog Impl Reply Unit) : Prop :=
  p = .ret c () ∨
    (∃ k, p = .op c .mode k ∧ ∀ mode : RoutingMode, mode ≠ .reservedPeak → k mode = .ret c ()) ∨
    ∃ k, p = .op c .beginHandoff k ∧ k none = .ret c ()

/-- A leader that has left peak mode and does not know that it is committing. -/
structure Retired (K : Deployment) (start n : Node) : Prop where
  sound : n.engine.Sound
  mode : n.engine.mode ≠ .reservedPeak ∧ n.engine.mode ≠ .strict
  control : ∃ c, Configured K K.leader c ∧ c.state = .idle ∧ Idling c n.control
  silent : ∃ new, n.performed = new ++ start.performed ∧
    ∀ e ∈ new, ∀ destination frame, e ≠ .send destination frame

private theorem idling_handleFrame {c : Impl} (hc : Configured K K.leader c)
    (hidle : c.state = .idle) (frame : Frame) (source : Endpoint) :
    Idling c (Impl.handleFrame frame source c) := by
  unfold Impl.handleFrame
  simp only [Script.bind_apply, Script.get_apply, Script.ite_apply, Prog.ret_bind]
  split
  · exact .inl rfl
  split
  · exact .inl rfl
  rename_i hguard
  split
  · exact .inl rfl
  rw [hc.componentId] at hguard
  have hsender : frame.sender ≠ K.leader := fun heq => hguard (.inl heq)
  -- an idle leader acts on a trigger only, and for that it has to begin a handoff first
  cases frame.type with
  | trigger =>
    simp only [Script.ite_apply, hc.isLeader.mpr rfl, if_true]
    unfold Impl.beginLeaderPrepare
    simp only [Script.bind_apply, Script.get_apply, Script.ite_apply, Prog.ret_bind,
      hc.isLeader.mpr rfl, hidle]
    exact .inr (.inr ⟨_, rfl, rfl⟩)
  | prepare =>
    dsimp only
    unfold Impl.handlePrepare
    simp only [Script.bind_apply, Script.get_apply, Prog.ret_bind, hc.leader]
    rw [if_pos (.inl hsender)]
    exact .inl rfl
  | prepared =>
    dsimp only
    unfold Impl.handlePrepared
    simp only [Script.bind_apply, Script.get_apply, Script.ite_apply, Prog.ret_bind]
    rw [if_pos (by simp [hidle])]
    exact .inl rfl
  | commit =>
    dsimp only
    unfold Impl.handleCommit
    simp only [Script.bind_apply, Script.get_apply, Prog.ret_bind, hc.leader]
    rw [if_pos (.inl hsender)]
    exact .inl rfl
  | commitAck =>
    dsimp only
    unfold Impl.handleCommitAck
    simp only [Script.bind_apply, Script.get_apply, Script.ite_apply, Prog.ret_bind]
    rw [if_pos (by simp [hidle])]
    exact .inl rfl
  | abort =>
    dsimp only
    unfold Impl.handleAbort
    simp only [Script.bind_apply, Script.get_apply, Prog.ret_bind, hc.leader]
    rw [if_neg fun hguard => hsender hguard.1]
    exact .inl rfl

private theorem idling_tick {c : Impl} (hidle : c.state = .idle) (now : ℕ) :
    Idling c (Impl.tick now c) := by
  unfold Impl.tick
  rw [Script.bind_apply]
  by_cases hfence : c.recoveryFenced = true
  · rw [Impl.triggerHandoff_busy (.inl hfence), Prog.ret_bind, Impl.retryPhase_idle hidle]
    exact .inl rfl
  · rw [Impl.triggerHandoff_idle (by simpa using hfence) hidle]
    refine .inr (.inl ⟨_, rfl, fun mode hmode => ?_⟩)
    dsimp only
    rw [if_pos hmode, Prog.ret_bind, Impl.retryPhase_idle hidle]

private theorem Retired.handle {start n n' : Node} {handler : HandoffM Unit}
    (h : Retired K start n) (hn : n.handle handler = some n')
    (hidling : ∀ {c : Impl}, Configured K K.leader c → c.state = .idle → Idling c (handler c)) :
    Retired K start n' := by
  obtain ⟨c, hcontrol, rfl⟩ := Node.handle_eq_some hn
  obtain ⟨c', hc, hidle, hcontrol' | ⟨k, hk, -⟩ | ⟨k, hk, -⟩⟩ := h.control
  · obtain ⟨rfl, -⟩ := Prog.ret.inj (hcontrol.symm.trans hcontrol')
    exact ⟨h.sound, h.mode, ⟨c, hc, hidle, hidling hc hidle⟩, h.silent⟩
  · exact absurd (hcontrol.symm.trans hk) nofun
  · exact absurd (hcontrol.symm.trans hk) nofun

/-- The leader performs an effect that is not a send. -/
private theorem Retired.performed {start n n' : Node} {e : Effect} (h : Retired K start n)
    (hnew : n'.performed = e :: n.performed)
    (he : ∀ destination frame, e ≠ .send destination frame) :
    ∃ new, n'.performed = new ++ start.performed ∧
      ∀ e ∈ new, ∀ destination frame, e ≠ .send destination frame := by
  obtain ⟨new, hold, hsilent⟩ := h.silent
  refine ⟨e :: new, by rw [hnew, hold, List.cons_append], fun e' he' => ?_⟩
  rcases List.mem_cons.mp he' with rfl | he'
  · exact he
  · exact hsilent e' he'

private theorem Retired.effect {start n n' : Node} {oracle : Oracle} {packets : List Packet}
    (h : Retired K start n) (hn : n.step (.effect oracle) = some (n', packets)) :
    Retired K start n' := by
  obtain ⟨c, hc, hidle, hcontrol | ⟨k, hcontrol, hk⟩ | ⟨k, hcontrol, hk⟩⟩ := h.control
  · simp only [Node.step, hcontrol] at hn
    cases hn
  · simp only [Node.step, hcontrol, Effect.run] at hn
    obtain ⟨rfl, rfl⟩ := Prod.mk.inj (Option.some.inj hn)
    exact ⟨h.sound, h.mode, ⟨c, hc, hidle, .inl (hk _ h.mode.1)⟩, h.performed rfl (by simp)⟩
  · have hnone := CounterEngine.beginDistributedHandoff_none (.inr h.mode.1)
    simp only [Node.step, hcontrol, run_begin, hnone] at hn
    obtain ⟨rfl, rfl⟩ := Prod.mk.inj (Option.some.inj hn)
    exact ⟨h.sound, h.mode, ⟨c, hc, hidle, .inl hk⟩, h.performed rfl (by simp)⟩

private theorem Retired.step {start n n' : Node} {action : NodeAction} (h : Retired K start n)
    (hstep : n.advance action = some n') : Retired K start n' := by
  obtain ⟨⟨_, packets⟩, hn, rfl⟩ := Option.map_eq_some_iff.mp hstep
  cases action with
  | apply request =>
    obtain ⟨rfl, rfl⟩ := Prod.mk.inj (Option.some.inj hn)
    have hserved := h.sound.apply request
    exact ⟨hserved.sound, ⟨fun hmode => h.mode.1 (hserved.mode.symm.trans hmode),
      fun hmode => h.mode.2 (hserved.mode.symm.trans hmode)⟩, h.control, h.silent⟩
  | controlLoop =>
    obtain ⟨rfl, rfl⟩ := Prod.mk.inj (Option.some.inj hn)
    have hbook := CounterEngine.bookkeeping_controlLoop h.mode.2 (.inl h.mode.1)
    exact ⟨hbook.sound h.sound, ⟨fun hmode => h.mode.1 (hbook.mode.symm.trans hmode),
      fun hmode => h.mode.2 (hbook.mode.symm.trans hmode)⟩, h.control, h.silent⟩
  | raisePeakRequest =>
    obtain ⟨rfl, rfl⟩ := Prod.mk.inj (Option.some.inj hn)
    exact ⟨⟨h.sound.strict_limit, h.sound.reserved_limit, h.sound.bounded, h.sound.value_le⟩,
      h.mode, h.control, h.silent⟩
  | deliver frame source =>
    obtain ⟨n', hn', heq⟩ := Option.map_eq_some_iff.mp hn
    obtain ⟨rfl, rfl⟩ := Prod.mk.inj heq
    exact h.handle hn' fun hc hidle => idling_handleFrame hc hidle frame source
  | tick now =>
    obtain ⟨n', hn', heq⟩ := Option.map_eq_some_iff.mp hn
    obtain ⟨rfl, rfl⟩ := Prod.mk.inj heq
    exact h.handle hn' fun _ hidle => idling_tick hidle now
  | effect oracle => exact h.effect hn
  | stop =>
    obtain ⟨n', hn', heq⟩ := Option.map_eq_some_iff.mp hn
    obtain ⟨rfl, rfl⟩ := Prod.mk.inj heq
    have hstopped := h.handle hn' fun _ hidle => .inl (Impl.stop_idle hidle)
    exact ⟨hstopped.sound, hstopped.mode, hstopped.control, hstopped.silent⟩

/-- A leader that starts on a committed journal is retired. -/
private theorem retired_of_start (hrunning : K.leader ∈ K.running) {n : Node} {r : JournalRecord}
    (hjournal : n.journal = some r) (hphase : r.phase = .committed) (outcome : StoreOutcome)
    (hdown : n.up = false)
    (hup : (n.start (K.resolve K.leader) (K.config K.leader) (K.handoff K.leader) outcome).up =
      true) :
    Retired K (n.start (K.resolve K.leader) (K.config K.leader) (K.handoff K.leader) outcome)
      (n.start (K.resolve K.leader) (K.config K.leader) (K.handoff K.leader) outcome) := by
  obtain ⟨journal, -, heq | ⟨e, c, hstarted, heq⟩⟩ := Node.start_cases hrunning n outcome
  · rw [heq] at hup
    cases hdown.symm.trans hup
  · rw [heq]
    have hmode := (hstarted.committed r hjournal hphase).1
    refine ⟨hstarted.sound, ?_, ⟨c, hstarted.configured, hstarted.idle, .inl rfl⟩, [], rfl,
      by simp⟩
    dsimp only
    rw [hmode]
    exact ⟨CounterEngine.handoffMode_ne_reservedPeak _, CounterEngine.handoffMode_ne_strict _⟩

/-- A restarted leader sends nothing. -/
private theorem silent_of_start (hrunning : K.leader ∈ K.running) {n start n' : Node}
    {r : JournalRecord} (hjournal : n.journal = some r) (hphase : r.phase = .committed)
    {outcome : StoreOutcome} (hdown : n.up = false)
    (hstart : n.start (K.resolve K.leader) (K.config K.leader) (K.handoff K.leader) outcome = start)
    (hup : start.up = true) (hruns : start.Runs n') (destination : Endpoint) (frame : Frame) :
    ¬ start.PerformedSince n' (.send destination frame) := by
  subst hstart
  rintro ⟨new, hnew, hmem⟩
  have hretired := retired_of_start hrunning hjournal hphase outcome hdown hup
  obtain ⟨new', hnew', hsilent⟩ :=
    (Steps.invariant hruns hretired fun _ _ _ h _ hstep => h.step hstep).silent
  obtain rfl := List.append_cancel_right (hnew.symm.trans hnew')
  exact hsilent _ hmem destination frame rfl

/-- **A restart of the leader ends the dissemination.** Take any reachable cluster whose leader is
committing, with its committed journal. As long as it runs, every tick whose retry time has passed
sends the commit to every peer that has not acknowledged; but once it has crashed and started
again on its journal, it never sends a frame again, in no run of the new process. -/
theorem restart_ends_dissemination (h : Cluster.Reaches K anyStep w)
    (hup : (w.nodes K.leader).up = true)
    (hcommitting : (w.nodes K.leader).impl.state = .leaderCommitting) {r : JournalRecord}
    (hjournal : (w.nodes K.leader).journal = some r) (hphase : r.phase = .committed) :
    (∀ now c, (w.nodes K.leader).control = .ret c () → (w.nodes K.leader).stopped = false →
      c.nextRetry ≤ now →
      ∃ n₁ n', (w.nodes K.leader).advance (.tick now) = some n₁ ∧ n₁.Runs n' ∧
        ∀ peer ∈ c.peers, peer.1 ∉ c.commitAcks →
          (w.nodes K.leader).PerformedSince n' (.send peer.2
            ⟨.commit, K.leader, r.term, r.state.counter, r.state.epoch, r.total, K.owner⟩)) ∧
    ∀ outcome start, (w.nodes K.leader).crash.start (K.resolve K.leader) (K.config K.leader)
        (K.handoff K.leader) outcome = start → start.up = true →
      ∀ n, start.Runs n → ∀ destination frame,
        ¬ start.PerformedSince n (.send destination frame) := by
  have hinv := inv_of_reaches h
  refine ⟨fun now c hcontrol hrunning hretry => ?_, ?_⟩
  · have hrest : Rest K False K.leader c w.view := by
      have hsafe := hinv.safe K.leader hup
      rw [hcontrol] at hsafe
      exact hsafe.rest
    have hstate : c.state = .leaderCommitting := by
      rw [Node.impl, hcontrol] at hcommitting
      exact hcommitting
    obtain ⟨n₁, n', hstep, hruns, hsent⟩ := tick_sends hcontrol hrunning hstate hretry
    refine ⟨n₁, n', hstep, hruns, fun peer hpeer hack => ?_⟩
    have hframe : c.frame .commit c.activeTerm c.committedCounter c.committedEpoch
        c.committedTotal =
        ⟨.commit, K.leader, r.term, r.state.counter, r.state.epoch, r.total, K.owner⟩ := by
      cases hrest with
      | committing record state leader term counter epoch total nodup members stand =>
        obtain rfl : r = record :=
          committed_unique (n := w.view.nodes K.leader) ⟨hjournal, hphase⟩ stand.stands.2.1
        rw [Impl.frame, stand.configured.componentId, stand.configured.owner, term, counter,
          epoch, total]
      | _ => simp_all
    rw [← hframe]
    exact hsent peer hpeer hack
  · intro outcome start hstart hstarted n hruns destination frame
    exact silent_of_start (hinv.running K.leader hup) (n := (w.nodes K.leader).crash) hjournal
      hphase rfl hstart hstarted hruns destination frame

open ClusterAction in
/-- The leader of the pair has committed and its follower has not heard of it. -/
theorem restart_ends_dissemination_pair :
    ∃ w, Cluster.Reaches .pair anyStep w ∧ (w.nodes 0).impl.state = .leaderCommitting ∧
      ∀ start, (w.nodes 0).crash.start (Deployment.pair.resolve 0) (Deployment.pair.config 0)
          (Deployment.pair.handoff 0) .stored = start → start.up = true →
        ∀ n, start.Runs n → ∀ destination frame,
          ¬ start.PerformedSince n (.send destination frame) := by
  have hrun : (exec (Cluster.step .pair) anyStep (Cluster.init .pair)
      (pairPrepares ++ pairCommits)).map (fun w => decide
        ((w.nodes 0).up = true ∧ (w.nodes 0).impl.state = .leaderCommitting ∧
          (w.nodes 0).journal = some ⟨.committed, 1000, ⟨17, 1, 50⟩, 50, 0⟩)) = some true := by
    decide +kernel
  obtain ⟨w, hw, hup, hstate, hjournal⟩ := Steps.exists_of_exec hrun
  exact ⟨w, hw, hstate, (restart_ends_dissemination hw hup hstate hjournal rfl).2 .stored⟩

open ClusterAction in
/-- The leader of the pair is committing the term 1000 with the total 50, its follower has not
acknowledged, and it crashes. A tick of the new process does not send the commit, whatever its
clock reads. -/
theorem pair_forgets_commit :
    ∃ w, Cluster.Reaches .pair anyStep w ∧ (w.nodes 0).impl.state = .leaderCommitting ∧
      (w.nodes 0).impl.activeTerm = 1000 ∧ (w.nodes 0).impl.committedTotal = 50 ∧
      1 ∉ (w.nodes 0).impl.commitAcks ∧
      ∃ start, (w.nodes 0).crash.start (Deployment.pair.resolve 0) (Deployment.pair.config 0)
          (Deployment.pair.handoff 0) .stored = start ∧ start.up = true ∧
        start.impl.nextRetry ≤ 5000 ∧ ∃ n₁, start.advance (.tick 5000) = some n₁ ∧
          ∀ n, n₁.Runs n → ∀ destination,
            ¬ start.PerformedSince n (.send destination ⟨.commit, 0, 1000, 17, 1, 50, 0⟩) := by
  have hrun : (exec (Cluster.step .pair) anyStep (Cluster.init .pair)
      (pairPrepares ++ pairCommits)).map (fun w => decide
        ((w.nodes 0).impl.state = .leaderCommitting ∧ (w.nodes 0).impl.activeTerm = 1000 ∧
          (w.nodes 0).impl.committedTotal = 50 ∧ 1 ∉ (w.nodes 0).impl.commitAcks ∧
          (w.nodes 0).journal = some ⟨.committed, 1000, ⟨17, 1, 50⟩, 50, 0⟩ ∧
          ((w.nodes 0).crash.start (Deployment.pair.resolve 0) (Deployment.pair.config 0)
            (Deployment.pair.handoff 0) .stored).up = true ∧
          ((w.nodes 0).crash.start (Deployment.pair.resolve 0) (Deployment.pair.config 0)
            (Deployment.pair.handoff 0) .stored).impl.nextRetry ≤ 5000 ∧
          (((w.nodes 0).crash.start (Deployment.pair.resolve 0) (Deployment.pair.config 0)
            (Deployment.pair.handoff 0) .stored).advance (.tick 5000)).isSome = true)) =
      some true := by
    decide +kernel
  obtain ⟨w, hw, hstate, hterm, htotal, hack, hjournal, hup, hretry, htick⟩ :=
    Steps.exists_of_exec hrun
  obtain ⟨n₁, hn₁⟩ := Option.isSome_iff_exists.mp htick
  refine ⟨w, hw, hstate, hterm, htotal, hack, _, rfl, hup, hretry, n₁, hn₁,
    fun n hruns destination => ?_⟩
  exact silent_of_start (K := .pair) (by decide) (n := (w.nodes 0).crash) hjournal rfl rfl rfl hup
    ((Steps.refl.tail trivial hn₁).trans hruns) destination _

end HotCounter
