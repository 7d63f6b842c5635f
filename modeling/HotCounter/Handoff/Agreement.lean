import HotCounter.Handoff.Invariant

/-!
# Agreement and acknowledgements

What the invariant of a cluster says about its committed journals, whatever crashes, restarts,
timeouts, journal failures and deliveries a run contains.

* `handoff_agreement`: all committed records of a run are the same, and every process that has
  left peak mode was seeded from it.
* `journal_write_ahead`: a process that owes a report, or has left peak mode, has it on disk, and a
  restart from there never admits peak requests.
* `commit_acks_sound`: a leader that has collected its acknowledgements goes idle only when every
  member has committed.
-/

namespace HotCounter

open Foundation NodeView

variable {K : Deployment} {w w' : Cluster}

/-- No restriction on the steps of a run. -/
abbrev anyStep (_ : Cluster) (_ : ClusterAction) : Prop := True

/-! ### Agreement -/

/-- A process that does not serve peak requests accepts none. -/
theorem NodeOk.not_accepted {i : ℕ} {n : NodeView} (h : NodeOk K i n) (hpeak : ¬ n.servesPeak)
    (hmode : n.engine.mode = .reservedPeak) (request : Request) :
    n.engine.gateOpen = false ∧ (n.engine.apply request).1.decision ≠ .accepted := by
  have hclosed : n.engine.gateOpen = false := Bool.eq_false_iff.mpr fun hopen =>
    hpeak ⟨hmode, hopen⟩
  refine ⟨hclosed, fun haccepted => ?_⟩
  have hopen := ((h.sound.apply request).admitted haccepted).1
  exact absurd (hclosed.symm.trans hopen) nofun

/-- **Agreement.** Take a committed journal record of a run and one that is present then or
later, anywhere in the cluster: they carry the same term, total and strict owner. A process in
`DangerStrict` or `RemoteStrict` has the total of its committed record in its strict counter, and
on top of it what it accepted since; only the strict owner is ever in `DangerStrict`; and once
its journal is committed, a process in `ReservedPeak` has its gate closed and accepts nothing. -/
theorem handoff_agreement (h : Cluster.Reaches K anyStep w)
    (h' : Steps (Cluster.step K) anyStep w w') :
    (∀ i j r r', (w.nodes i).journal = some r → r.phase = .committed →
      (w'.nodes j).journal = some r' → r'.phase = .committed →
      r.term = r'.term ∧ r.total = r'.total ∧ r.strictOwner = r'.strictOwner) ∧
    (∀ i, (w.nodes i).up = true →
      (w.nodes i).engine.mode = .dangerStrict ∨ (w.nodes i).engine.mode = .remoteStrict →
      ∃ r, (w.nodes i).journal = some r ∧ r.phase = .committed ∧
        (w.nodes i).engine.strict.value =
          r.total + spentIn .dangerStrict (w.nodes i).served) ∧
    (∀ i, (w.nodes i).up = true → (w.nodes i).engine.mode = .dangerStrict → i = K.owner) ∧
    (∀ i r, (w.nodes i).journal = some r → r.phase = .committed → (w'.nodes i).up = true →
      (w'.nodes i).engine.mode = .reservedPeak → ∀ request,
      (w'.nodes i).engine.gateOpen = false ∧
        ((w'.nodes i).engine.apply request).1.decision ≠ .accepted) := by
  have hv := (inv_of_reaches h).cluster
  have hv' := (inv_of_reaches (Steps.trans h h')).cluster
  refine ⟨fun i j r r' hr hc hr' hc' => ?_, fun i hup hmode => ?_, fun i hup hmode => ?_,
    fun i r hr hc hup hmode request => ?_⟩
  · -- both records are the leader's
    have hfirst : (w'.view.nodes K.leader).committed r :=
      hv'.agree i r (committed_of_steps h h' (i := i) ⟨hr, hc⟩)
    obtain rfl := committed_unique hfirst (hv'.agree j r' ⟨hr', hc'⟩)
    exact ⟨rfl, rfl, rfl⟩
  · obtain ⟨r, hr, hvalue⟩ := hv.seeded (i := i) hup fun hpeak => by
      rcases hmode with hmode | hmode <;> cases hmode.symm.trans hpeak
    exact ⟨r, hr.1, hr.2, hvalue⟩
  · exact hv.owner_of_danger (i := i) hup hmode
  · have hr' := committed_of_steps h h' (i := i) ⟨hr, hc⟩
    exact (hv'.ok i hup).not_accepted (hv'.frozen i r hr' hup) hmode request

open ClusterAction in
/-- A committed pair. -/
theorem handoff_agreement_pair :
    ∃ w w', Cluster.Reaches .pair anyStep w ∧ Steps (Cluster.step .pair) anyStep w w' ∧
      ∃ r r', (w.nodes 0).journal = some r ∧ (w'.nodes 1).journal = some r' ∧
        r.total = r'.total := by
  have hrun : (exec (Cluster.step .pair) anyStep (Cluster.init .pair)
      (pairPrepares ++ pairCommits)).map (fun w => decide
        ((w.nodes 0).journal = some ⟨.committed, 1000, ⟨17, 1, 50⟩, 50, 0⟩ ∧
          (exec (Cluster.step .pair) anyStep w pairInstalls).map (fun w' => decide
            ((w'.nodes 1).journal = some ⟨.committed, 1000, ⟨17, 1, 50⟩, 50, 0⟩)) = some true)) =
      some true := by
    decide +kernel
  obtain ⟨w, hw, hr, hrest⟩ := Steps.exists_of_exec hrun
  obtain ⟨w', hw', hr'⟩ := Steps.exists_of_exec hrest
  exact ⟨w, w', hw, hw', _, _, hr, hr',
    ((handoff_agreement hw hw').1 0 1 _ _ hr rfl hr' rfl).2.1⟩

/-! ### The journal is written ahead -/

/-- A process that started on a prepared or committed journal is fenced or committed. -/
private theorem Started.restarted {i : ℕ} {r : JournalRecord} {e : CounterEngine} {c : Impl}
    (h : Started K i (some r) e c) (hphase : r.phase = .prepared ∨ r.phase = .committed) :
    ((c.recoveryFenced = true ∧ e.mode = .reservedPeak ∧ e.gateOpen = false) ∨
        (e.mode = .dangerStrict ∨ e.mode = .remoteStrict) ∧ e.strict.value = r.total) ∧
      ∀ request, e.mode = .reservedPeak → (e.apply request).1.decision ≠ .accepted := by
  rcases hphase with hphase | hphase
  · obtain ⟨hmode, hgate, hfence⟩ := h.fenced hphase
    refine ⟨.inl ⟨hfence, hmode, hgate⟩, fun request _ haccepted => ?_⟩
    have hopen := ((h.sound.apply request).admitted haccepted).1
    cases hgate.symm.trans hopen
  · obtain ⟨hmode, hvalue, -⟩ := h.committed r rfl hphase
    have hleft : e.mode = .dangerStrict ∨ e.mode = .remoteStrict := by
      rw [hmode, CounterEngine.handoffMode]
      split
      · exact .inl rfl
      · exact .inr rfl
    refine ⟨.inr ⟨hleft, hvalue⟩, fun request hpeak => ?_⟩
    rcases hleft with hleft | hleft <;> cases hleft.symm.trans hpeak

/-- **The journal is written ahead.** A process that has sent `PREPARED` for a term and has not
aborted since has a journal that is prepared with the term and the reported total, or committed
with the term; one in `DangerStrict` or `RemoteStrict` has a journal that is committed with the
total it was seeded with. A crash and a start in any such state give a fenced or a committed
process, and never one that admits a peak request. -/
theorem journal_write_ahead (h : Cluster.Reaches K anyStep w) (i : ℕ) :
    (∀ term value, (w.nodes i).view.outstanding term value →
      ∃ r, (w.nodes i).journal = some r ∧ r.term = term ∧
        (r.phase = .prepared ∧ r.total = value ∨ r.phase = .committed)) ∧
    ((w.nodes i).up = true →
      (w.nodes i).engine.mode = .dangerStrict ∨ (w.nodes i).engine.mode = .remoteStrict →
      ∃ r, (w.nodes i).journal = some r ∧ r.phase = .committed ∧
        (w.nodes i).engine.strict.value =
          r.total + spentIn .dangerStrict (w.nodes i).served) ∧
    ∀ outcome n, (∃ term value, (w.nodes i).view.outstanding term value) ∨
        (w.nodes i).up = true ∧ ((w.nodes i).engine.mode = .dangerStrict ∨
          (w.nodes i).engine.mode = .remoteStrict) →
      (w.nodes i).crash.start (K.resolve i) (K.config i) (K.handoff i) outcome = n →
      n.up = true →
      ((n.impl.recoveryFenced = true ∧ n.engine.mode = .reservedPeak ∧
          n.engine.gateOpen = false) ∨
        (n.engine.mode = .dangerStrict ∨ n.engine.mode = .remoteStrict) ∧
          ∃ r, (w.nodes i).journal = some r ∧ n.engine.strict.value = r.total) ∧
      ∀ request, n.engine.mode = .reservedPeak →
        (n.engine.apply request).1.decision ≠ .accepted := by
  have hinv := inv_of_reaches h
  have hseeded : (w.nodes i).up = true →
      (w.nodes i).engine.mode = .dangerStrict ∨ (w.nodes i).engine.mode = .remoteStrict →
      ∃ r, (w.nodes i).journal = some r ∧ r.phase = .committed ∧
        (w.nodes i).engine.strict.value =
          r.total + spentIn .dangerStrict (w.nodes i).served := by
    intro hup hmode
    obtain ⟨r, hr, hvalue⟩ := hinv.cluster.seeded (i := i) hup fun hpeak => by
      rcases hmode with hmode | hmode <;> cases hmode.symm.trans hpeak
    exact ⟨r, hr.1, hr.2, hvalue⟩
  refine ⟨fun term value howed => (hinv.cluster.reported i term value howed).2.2.1, hseeded, ?_⟩
  rintro outcome n hpoint rfl hup
  -- in both cases the process is one of the deployment and its journal is not idle
  obtain ⟨hrunning, r, hr, hphase⟩ : i ∈ K.running ∧ ∃ r, (w.nodes i).journal = some r ∧
      (r.phase = .prepared ∨ r.phase = .committed) := by
    rcases hpoint with ⟨term, value, howed⟩ | ⟨hup, hmode⟩
    · obtain ⟨-, ⟨c, hc⟩, ⟨r, hr, -, hphase⟩, -⟩ := hinv.cluster.reported i term value howed
      exact ⟨hc.running, r, hr, hphase.imp_left And.left⟩
    · obtain ⟨r, hr, hphase, -⟩ := hseeded hup hmode
      exact ⟨hinv.running i hup, r, hr, .inr hphase⟩
  obtain ⟨journal, -, heq | ⟨e, c, hstarted, heq⟩⟩ :=
    Node.start_cases hrunning (w.nodes i).crash outcome
  · rw [heq] at hup
    cases hup
  · rw [heq]
    have hjournal : (w.nodes i).crash.journal = some r := hr
    rw [hjournal] at hstarted
    obtain ⟨hcases, hpeak⟩ := hstarted.restarted hphase
    refine ⟨hcases.imp_right fun hcommitted => ⟨hcommitted.1, r, hr, hcommitted.2⟩, hpeak⟩

/-- The effect sends a report for a term with a total. -/
def Effect.reports (term value : ℕ) : Effect → Bool
  | .send _ frame => decide (frame.type = .prepared ∧ frame.term = term ∧ frame.value = value)
  | _ => false

open ClusterAction in
/-- The follower of the pair has reported and crashes. -/
theorem journal_write_ahead_pair :
    ∃ w, Cluster.Reaches .pair anyStep w ∧ (w.nodes 1).view.outstanding 1000 10 ∧
      ∃ r, (w.nodes 1).journal = some r ∧ r.term = 1000 ∧
        (r.phase = .prepared ∧ r.total = 10 ∨ r.phase = .committed) := by
  have hrun : (exec (Cluster.step .pair) anyStep (Cluster.init .pair)
      (pairPrepares ++ [.crash 1])).map (fun w => decide
        ((w.nodes 1).performed.head?.map (Effect.reports 1000 10) = some true)) = some true := by
    decide +kernel
  obtain ⟨w, hw, hhead⟩ := Steps.exists_of_exec hrun
  have howed : (w.nodes 1).view.outstanding 1000 10 := by
    obtain ⟨e, he, hsend⟩ := Option.map_eq_some_iff.mp hhead
    obtain ⟨before, hperformed⟩ := List.head?_eq_some_iff.mp he
    cases e with
    | send destination frame =>
      obtain ⟨htype, hterm, hvalue⟩ := of_decide_eq_true hsend
      exact ⟨[], before, destination, frame, hperformed, htype, hterm, hvalue,
        List.not_mem_nil⟩
    | _ => exact absurd hsend Bool.false_ne_true
  exact ⟨w, hw, howed, (journal_write_ahead hw 1).1 1000 10 howed⟩

/-! ### Acknowledgements -/

/-- A leader that is committing leaves that state only with the last acknowledgement. -/
private theorem handleFrame_committing {c : Impl} (hc : Configured K K.leader c)
    (hstate : c.state = .leaderCommitting) (frame : Frame) (source : Endpoint) :
    (Impl.handleFrame frame source c).state.state = .leaderCommitting ∨
      (frame.type = .commitAck ∧ frame.term = c.activeTerm ∧ frame.sender ∈ K.ids ∧
        (Impl.handleFrame frame source c).state.commitAcks = c.commitAcks.insert frame.sender ∧
        (c.commitAcks.insert frame.sender).length = K.ids.length) := by
  unfold Impl.handleFrame
  simp only [Script.bind_apply, Script.get_apply, Script.ite_apply, Prog.ret_bind]
  split
  · exact .inl hstate
  split
  · exact .inl hstate
  rename_i hguard
  split
  · exact .inl hstate
  rw [hc.componentId] at hguard
  have hsender : frame.sender ≠ K.leader := fun heq => hguard (.inl heq)
  have hmember : frame.sender ∈ K.ids := by
    rw [← hc.members]
    simpa [Impl.isMember] using fun hnot => hguard (.inr hnot)
  -- in this state only an acknowledgement is taken up
  cases htype : frame.type with
  | trigger =>
    simp only [Script.ite_apply, hc.isLeader.mpr rfl, if_true]
    unfold Impl.beginLeaderPrepare
    simp only [Script.bind_apply, Script.get_apply, Script.ite_apply, Prog.ret_bind]
    rw [if_pos (by simp [hstate])]
    exact .inl hstate
  | prepare =>
    dsimp only
    unfold Impl.handlePrepare
    simp only [Script.bind_apply, Script.get_apply, Prog.ret_bind, hc.leader]
    rw [if_pos (.inl hsender)]
    exact .inl hstate
  | prepared =>
    dsimp only
    unfold Impl.handlePrepared
    simp only [Script.bind_apply, Script.get_apply, Script.ite_apply, Prog.ret_bind]
    rw [if_pos (by simp [hstate])]
    exact .inl hstate
  | commit =>
    dsimp only
    unfold Impl.handleCommit
    simp only [Script.bind_apply, Script.get_apply, Prog.ret_bind, hc.leader]
    rw [if_pos (.inl hsender)]
    exact .inl hstate
  | commitAck =>
    dsimp only
    unfold Impl.handleCommitAck
    simp only [Script.bind_apply, Script.get_apply, Script.ite_apply, Script.modify_apply,
      Prog.ret_bind]
    split
    · exact .inl hstate
    rename_i hterm
    split
    · rename_i hall
      refine .inr ⟨trivial, by simpa [hc.isLeader.mpr rfl, hstate] using hterm, hmember, rfl, ?_⟩
      rw [← hc.members]
      exact beq_iff_eq.mp hall
    · exact .inl hstate
  | abort =>
    dsimp only
    unfold Impl.handleAbort
    simp only [Script.bind_apply, Script.get_apply, Prog.ret_bind, hc.leader]
    rw [if_neg fun hguard => hsender hguard.1]
    exact .inl hstate

/-- A tick does not end a commit. -/
private theorem tick_committing {c : Impl} (hstate : c.state = .leaderCommitting) (now : ℕ) :
    (Impl.tick now c).state.state = .leaderCommitting := by
  unfold Impl.tick
  rw [Script.bind_apply, Impl.triggerHandoff_busy (.inr (by simp [hstate])), Prog.ret_bind]
  unfold Impl.retryPhase
  simp only [Script.bind_apply, Script.get_apply, Script.ite_apply, Prog.ret_bind, hstate,
    reduceCtorEq, if_false, true_and]
  split
  · generalize c.peers.filter _ = peers
    cases peers <;> exact hstate
  · exact hstate

private theorem stop_committing {c : Impl} (hstate : c.state = .leaderCommitting) :
    (Impl.stop c).state.state = .leaderCommitting := by
  unfold Impl.stop
  simp only [Script.bind_apply, Script.get_apply, Script.ite_apply, Prog.ret_bind, hstate,
    reduceCtorEq, or_self, if_false]
  exact hstate

/-- No handler but that of a frame takes a committing leader to another state. -/
private theorem committing_of_handle {n n' : Node} {handler : HandoffM Unit}
    (hn : n.handle handler = some n') (hstate : n.impl.state = .leaderCommitting)
    (hkeeps : ∀ {c : Impl}, c.state = .leaderCommitting →
      (handler c).state.state = .leaderCommitting) : n'.impl.state = .leaderCommitting := by
  obtain ⟨c, hcontrol, rfl⟩ := Node.handle_eq_some hn
  rw [Node.impl, hcontrol] at hstate
  exact hkeeps hstate

/-- A committing leader goes idle only when it takes up a frame. -/
private theorem deliver_of_idle (h : Inv K False w) {a : ClusterAction}
    (hstep : w.step K a = some w') (hup : (w.nodes K.leader).up = true)
    (hcommitting : (w.nodes K.leader).impl.state = .leaderCommitting)
    (hidle : (w'.nodes K.leader).impl.state ≠ .leaderCommitting) :
    ∃ c frame source, (w.nodes K.leader).control = .ret c () ∧ w.view.sent frame ∧
      w' = ⟨Function.update w.nodes K.leader { w.nodes K.leader with
        control := Impl.handleFrame frame source c }, w.net⟩ := by
  have hself : ∀ {n : Node} {net : List Packet},
      w' = ⟨Function.update w.nodes K.leader n, net⟩ → n.impl.state ≠ .leaderCommitting := by
    rintro n net rfl
    simpa using hidle
  have hother : ∀ {i : ℕ} {n : Node} {net : List Packet}, i ≠ K.leader →
      w' ≠ ⟨Function.update w.nodes i n, net⟩ := by
    rintro i n net hi rfl
    simp only [Function.update_of_ne hi.symm] at hidle
    exact hidle hcommitting
  -- a step of another node leaves the leader as it is, and of the leader's own steps only a frame
  -- ends the commit
  cases a with
  | node i action =>
    simp only [Cluster.step] at hstep
    split at hstep
    swap
    · cases hstep
    rename_i hguard
    obtain ⟨-, hauthentic⟩ := Bool.and_eq_true_iff.mp hguard
    obtain ⟨⟨n, packets⟩, hn, hw⟩ := Option.map_eq_some_iff.mp hstep
    by_cases hi : i = K.leader
    swap
    · exact absurd hw.symm (hother hi)
    subst hi
    have hleft := hself hw.symm
    cases action with
    | deliver frame source =>
      obtain ⟨n', hn', heq⟩ := Option.map_eq_some_iff.mp hn
      obtain ⟨rfl, rfl⟩ := Prod.mk.inj heq
      obtain ⟨c, hcontrol, rfl⟩ := Node.handle_eq_some hn'
      obtain ⟨p, hp, hframe⟩ := List.any_eq_true.mp hauthentic
      exact ⟨c, frame, source, hcontrol, ⟨p, hp, by simpa using hframe⟩, hw.symm⟩
    | tick now =>
      obtain ⟨n', hn', heq⟩ := Option.map_eq_some_iff.mp hn
      obtain ⟨rfl, rfl⟩ := Prod.mk.inj heq
      exact absurd (committing_of_handle hn' hcommitting fun hc => tick_committing hc now) hleft
    | stop =>
      obtain ⟨n', hn', heq⟩ := Option.map_eq_some_iff.mp hn
      obtain ⟨rfl, rfl⟩ := Prod.mk.inj heq
      exact absurd (committing_of_handle hn' hcommitting stop_committing) hleft
    | effect oracle =>
      have hguar := (h.effect_guar hup hn False.elim).1.committing rfl hcommitting
      rw [View.set_nodes_self] at hguar
      exact absurd hguar hleft
    | _ =>
      obtain ⟨rfl, rfl⟩ := Prod.mk.inj (Option.some.inj hn)
      exact absurd hcommitting hleft
  | crash i =>
    simp only [Cluster.step] at hstep
    split at hstep
    swap
    · cases hstep
    have hw := Option.some.inj hstep
    by_cases hi : i = K.leader
    swap
    · exact absurd hw.symm (hother hi)
    subst hi
    have hleft := hself hw.symm
    exact absurd hcommitting hleft
  | start i outcome =>
    simp only [Cluster.step] at hstep
    split at hstep
    swap
    · cases hstep
    rename_i hguard
    have hw := Option.some.inj hstep
    by_cases hi : i = K.leader
    swap
    · exact absurd hw.symm (hother hi)
    subst hi
    cases hguard.2.symm.trans hup

/-- The leader takes the frame that ends its commit from a cluster in which every member has
committed, and has an acknowledgement of each. -/
private theorem acked_of_rest {c : Impl} {v : View} (h : Rest K False K.leader c v)
    (hstate : c.state = .leaderCommitting) {frame : Frame} (hsent : v.sent frame)
    (htype : frame.type = .commitAck) (hterm : frame.term = c.activeTerm)
    (hmember : frame.sender ∈ K.ids)
    (hall : (c.commitAcks.insert frame.sender).length = K.ids.length) :
    (c.commitAcks.insert frame.sender).Perm K.ids ∧
      ∀ m ∈ K.ids, (∃ r, (v.nodes m).committed r ∧ r.term = c.activeTerm) ∧
        ((v.nodes m).up = true → (v.nodes m).engine.mode ≠ .reservedPeak) := by
  cases h with
  | committing record state leader term counter epoch total nodup members stand =>
    have hsub : c.commitAcks.insert frame.sender ⊆ K.ids := by
      intro m hm
      rcases List.mem_insert_iff.mp hm with rfl | hm
      · exact hmember
      · exact members m hm
    have hperm : (c.commitAcks.insert frame.sender).Perm K.ids :=
      (List.subperm_of_subset nodup.insert hsub).perm_of_length_le hall.ge
    refine ⟨hperm, fun m hm => ?_⟩
    have hack : ∀ frame : Frame, v.sent frame → frame.type = .commitAck →
        frame.term = c.activeTerm → frame.sender = m →
        (∃ r, (v.nodes m).committed r ∧ r.term = c.activeTerm) ∧
          ((v.nodes m).up = true → (v.nodes m).engine.mode ≠ .reservedPeak) := by
      rintro frame hsent htype hterm rfl
      obtain ⟨-, ⟨r, hr, hrterm⟩, hmode⟩ := stand.cluster.acks frame hsent htype
      exact ⟨⟨r, hr, hrterm.trans hterm⟩, hmode⟩
    rcases List.mem_insert_iff.mp (hperm.mem_iff.mpr hm) with rfl | hacked
    · exact hack frame hsent htype hterm rfl
    · by_cases hm : m = K.leader
      · subst hm
        exact ⟨⟨record, stand.stands.2.1, term.symm⟩, fun _ => stand.stands.2.2⟩
      · obtain ⟨frame, hsent, htype, hsender, hterm⟩ := stand.context m hacked hm
        exact hack frame hsent htype (hterm.trans term.symm) hsender
  | _ => simp_all

/-- **Acknowledgements are sound.** When the leader goes from `LeaderCommitting` of a term to
`Idle`, every member, the leader included, has a committed journal for the term and is down or
has left `ReservedPeak`; and what the size test compared with the number of members is a set of
acknowledgements, one of each member. -/
theorem commit_acks_sound (h : Cluster.Reaches K anyStep w) {a : ClusterAction}
    (hstep : w.step K a = some w') (hup : (w.nodes K.leader).up = true)
    (hcommitting : (w.nodes K.leader).impl.state = .leaderCommitting)
    (hidle : (w'.nodes K.leader).impl.state = .idle) :
    (∀ m ∈ K.ids, (∃ r, (w'.nodes m).journal = some r ∧ r.phase = .committed ∧
        r.term = (w.nodes K.leader).impl.activeTerm) ∧
      ((w'.nodes m).up = false ∨ (w'.nodes m).engine.mode ≠ .reservedPeak)) ∧
    (w'.nodes K.leader).impl.commitAcks.Perm K.ids := by
  have hinv := inv_of_reaches h
  obtain ⟨c, frame, source, hcontrol, hsent, rfl⟩ :=
    deliver_of_idle hinv hstep hup hcommitting (by simp [hidle])
  have himpl : (w.nodes K.leader).impl = c := by
    rw [Node.impl, hcontrol]
    rfl
  rw [himpl] at hcommitting ⊢
  have hrest : Rest K False K.leader c w.view := by
    have hsafe := hinv.safe K.leader hup
    rw [hcontrol] at hsafe
    exact hsafe.rest
  rcases handleFrame_committing hrest.configured hcommitting frame source with
    hstate | ⟨htype, hterm, hmember, hacks, hall⟩
  · simp only [Function.update_self] at hidle
    cases hstate.symm.trans hidle
  obtain ⟨hperm, hmembers⟩ := acked_of_rest hrest hcommitting hsent htype hterm hmember hall
  refine ⟨fun m hm => ?_, ?_⟩
  · obtain ⟨⟨r, hr, hrterm⟩, hmode⟩ := hmembers m hm
    -- taking up a frame leaves journal, engine and process alone
    have hsame : ∀ {α : Type} (f : Node → α), (∀ n p, f { n with control := p } = f n) →
        f (Function.update w.nodes K.leader { w.nodes K.leader with
          control := Impl.handleFrame frame source c } m) = f (w.nodes m) := by
      intro α f hf
      by_cases hm : m = K.leader
      · subst hm
        rw [Function.update_self, hf]
      · rw [Function.update_of_ne hm]
    dsimp only
    rw [hsame Node.journal fun _ _ => rfl, hsame Node.up fun _ _ => rfl,
      hsame (fun n => n.engine.mode) fun _ _ => rfl]
    refine ⟨⟨r, hr.1, hr.2, hrterm⟩, ?_⟩
    by_cases hmup : (w.nodes m).up = true
    · exact .inr (hmode hmup)
    · exact .inl (Bool.eq_false_iff.mpr hmup)
  · simp only [Function.update_self]
    rw [Node.impl, hacks]
    exact hperm

open ClusterAction in
/-- The leader of the pair receives the last acknowledgement. -/
theorem commit_acks_sound_pair :
    ∃ w w', Cluster.Reaches .pair anyStep w ∧
      w.step .pair (arrives 0 ⟨.commitAck, 1, 1000, 17, 1, 50, 0⟩) = some w' ∧
      (w'.nodes 0).impl.commitAcks.Perm (Deployment.ids .pair) := by
  have hrun : (exec (Cluster.step .pair) anyStep (Cluster.init .pair)
      (pairPrepares ++ pairCommits ++ pairInstalls)).map (fun w => decide
        ((w.nodes 0).up = true ∧ (w.nodes 0).impl.state = .leaderCommitting ∧
          (w.step .pair (arrives 0 ⟨.commitAck, 1, 1000, 17, 1, 50, 0⟩)).map (fun w' => decide
            ((w'.nodes 0).impl.state = .idle)) = some true)) = some true := by
    decide +kernel
  obtain ⟨w, hw, hup, hcommitting, hrest⟩ := Steps.exists_of_exec hrun
  obtain ⟨w', hstep, hidle⟩ := Option.map_eq_some_iff.mp hrest
  exact ⟨w, w', hw, hstep,
    (commit_acks_sound hw hstep hup hcommitting (of_decide_eq_true hidle)).2⟩

end HotCounter
