import HotCounter.Handoff.Rules

/-!
# The handlers of a follower

`follower_op` is the rule for one effect of a follower; it is instantiated at the effects a
follower performs, and the handlers are put together from these rules.
-/

namespace HotCounter

open Foundation NodeView

variable {K : Deployment} {g : Prop} {i : ℕ} {c : Impl} {s : Stance} {Γ : View → Prop} {v : View}

section Rules

variable {e : Effect} {next : Impl → Unit → Impl} {Q : Impl → Unit → View → Prop}
  {k : Reply e → Prog Impl Reply Unit}

/-- What a follower has to show of one effect. -/
structure FollowerEffect (K : Deployment) (g : Prop) (i : ℕ) (e : Effect) (v : View)
    (n' : NodeView) (s' : Stance) : Prop where
  move : NodeMove K i e (v.nodes i) n'
  stands : n'.Stands s'
  frames : ∀ p ∈ e.packets, FollowerFrame i v n' p.frame
  leader : ∀ r, n'.committed r → (v.nodes K.leader).committed r
  abort : e = .abortHandoff → g → ∀ term value, (v.nodes i).outstanding term value →
    ¬ (v.nodes K.leader).holds term

/-- **One effect of a follower.** -/
theorem follower_op (hi : i ≠ K.leader) (hΓ : Lasting K g Γ) (h : Stand K g i c s Γ v)
    (hfault : e ≠ .terminate)
    (hstep : ∀ v, Stand K g i c s Γ v → ∀ oracle result,
      e.run oracle (v.nodes i).engine (v.nodes i).journal = some result →
      ∃ s', ((k result.1).stateWith next).fresh = c.fresh ∧
        FollowerEffect K g i e v
          ((v.nodes i).after e result.2.1 result.2.2.1 ((k result.1).stateWith next)) s' ∧
        ∀ v', Stand K g i ((k result.1).stateWith next) s' Γ v' →
          (setting K g i).Safe next Q (k result.1) v') :
    (setting K g i).Safe next Q (.op c e k) v := by
  refine Setting.Safe.op h hfault (fun h hr => h.rely hΓ hr) fun v r v' hv hs => ?_
  obtain ⟨oracle, result, hrun, rfl, -, hset⟩ := setting_step hs
  obtain ⟨s', hfresh, heff, hk⟩ := hstep v hv oracle result hrun
  rw [hset]
  have hguar := follower_guar hi ⟨c, hv.configured⟩ hv.cluster hv.up heff.move heff.frames
    heff.leader heff.abort
  exact ⟨hguar, hk _ (hv.after hΓ heff.move.up rfl hfresh heff.stands hguar)⟩

/-- A follower that aborts or owes nothing new, and whose journal agrees with the leader's. -/
private theorem followerEffect_of_no_frame {s' : Stance} {n' : NodeView}
    (hpackets : e.packets = []) (hmove : NodeMove K i e (v.nodes i) n') (hstands : n'.Stands s')
    (hleader : ∀ r, n'.committed r → (v.nodes K.leader).committed r) (he : e ≠ .abortHandoff) :
    FollowerEffect K g i e v n' s' :=
  ⟨hmove, hstands, by simp [hpackets], hleader, fun h => absurd h he⟩

/-- Reading the clock or the engine. -/
theorem follower_read (he : e = .clock ∨ e = .mode ∨ e = .peakTotal) (hi : i ≠ K.leader)
    (hΓ : Lasting K g Γ) (h : Stand K g i c s Γ v)
    (hk : ∀ r, ∃ c', ((k r).stateWith next).Same c' ∧ c'.fresh = c.fresh ∧
      ∀ v', Stand K g i c' s Γ v' → (setting K g i).Safe next Q (k r) v') :
    (setting K g i).Safe next Q (.op c e k) v := by
  refine follower_op hi hΓ h (by rcases he with rfl | rfl | rfl <;> nofun)
    fun v hv oracle result hrun => ?_
  obtain ⟨c', hsame, hfresh, hsafe⟩ := hk result.1
  refine ⟨s, hsame.fresh.trans hfresh, ?_, fun v' hv' => hsafe v' (hv'.same hsame)⟩
  have hsame : result.2.1 = (v.nodes i).engine ∧ result.2.2.1 = (v.nodes i).journal := by
    rcases he with rfl | rfl | rfl <;> obtain rfl := Option.some.inj hrun <;> exact ⟨rfl, rfl⟩
  rw [hsame.1, hsame.2]
  refine followerEffect_of_no_frame (by rcases he with rfl | rfl | rfl <;> rfl)
    (hv.nodeSafe.quiet e _) (hv.stands.quiet ?_ _) (fun r => hv.cluster.agree i r) ?_
  · rcases he with rfl | rfl | rfl <;> nofun
  · rcases he with rfl | rfl | rfl <;> nofun

/-- Sending a frame that is not a report. -/
theorem follower_send {destination : Endpoint} {frame : Frame}
    {k : Reply (.send destination frame) → Prog Impl Reply Unit} (hi : i ≠ K.leader)
    (hΓ : Lasting K g Γ) (h : Stand K g i c s Γ v) (hsender : frame.sender = i)
    (hframe : frame.type = .trigger ∧ frame.term = 0 ∨
      frame.type = .commitAck ∧ (∃ r, s = .installed r ∧ frame.term = r.term) ∧
        ∀ v, Γ v → ∃ p ∈ v.net, p.frame.term = frame.term)
    (hfresh : ((k ()).stateWith next).fresh = c.fresh)
    (hk : ∀ v', Stand K g i ((k ()).stateWith next) s Γ v' →
      (setting K g i).Safe next Q (k ()) v') :
    (setting K g i).Safe next Q (.op c (.send destination frame) k) v := by
  refine follower_op hi hΓ h nofun fun v hv oracle result hrun => ?_
  obtain rfl := Option.some.inj hrun
  refine ⟨s, hfresh, ⟨hv.nodeSafe.quiet _ _, hv.stands.quiet ?_ _, ?_,
    fun r => hv.cluster.agree i r, nofun⟩, hk⟩
  · rintro d f ⟨⟩
    rcases hframe with ⟨h, -⟩ | ⟨h, -⟩ <;> simp [h]
  · intro p hp
    obtain rfl := List.mem_singleton.mp hp
    rcases hframe with ⟨htype, hterm⟩ | ⟨htype, ⟨r, rfl, hterm⟩, hseen⟩
    · exact ⟨hsender, .inl htype, .inl hterm, by simp [htype], by simp [htype]⟩
    · exact ⟨hsender, .inr (.inr htype), .inr (hseen v hv.context),
        fun _ => ⟨⟨r, hv.stands.2.1, hterm.symm⟩, hv.stands.2.2⟩, by simp [htype]⟩

/-- Sending the report of a vote. -/
theorem follower_report {destination : Endpoint} {frame : Frame} {term total : ℕ}
    {k : Reply (.send destination frame) → Prog Impl Reply Unit} (hi : i ≠ K.leader)
    (hΓ : Lasting K g Γ) (h : Stand K g i c (.voted term total) Γ v) (hsender : frame.sender = i)
    (htype : frame.type = .prepared) (hterm : frame.term = term) (hvalue : frame.value = total)
    (hseen : ∀ v, Γ v → ∃ p ∈ v.net, p.frame.term = term)
    (hfresh : ((k ()).stateWith next).fresh = c.fresh)
    (hk : ∀ v', Stand K g i ((k ()).stateWith next) (.voted term total) Γ v' →
      (setting K g i).Safe next Q (k ()) v') :
    (setting K g i).Safe next Q (.op c (.send destination frame) k) v := by
  refine follower_op hi hΓ h nofun fun v hv oracle result hrun => ?_
  obtain rfl := Option.some.inj hrun
  refine ⟨_, hfresh, ⟨hv.nodeSafe.quiet _ _, hv.stands.report hterm hvalue _, ?_,
    fun r => hv.cluster.agree i r, nofun⟩, hk⟩
  intro p hp
  obtain rfl := List.mem_singleton.mp hp
  subst hterm hvalue
  exact ⟨hsender, .inr (.inl htype), .inr (hseen v hv.context), by simp [htype],
    fun _ => ⟨hv.stands.2.2.2, hv.stands.1.1.not_servesPeak, hv.stands.1.2⟩⟩

/-- Beginning a handoff. -/
theorem follower_begin {k : Reply .beginHandoff → Prog Impl Reply Unit} (hi : i ≠ K.leader)
    (hΓ : Lasting K g Γ) (h : Stand K g i c s Γ v) (hs : s = .peak ∨ ∃ r, s = .installed r)
    (hnone : ((k none).stateWith next).fresh = c.fresh ∧
      ∀ v', Stand K g i ((k none).stateWith next) s Γ v' → (setting K g i).Safe next Q (k none) v')
    (hsome : s = .peak → ∀ drained, ((k (some drained)).stateWith next).fresh = c.fresh ∧
      ∀ v', Stand K g i ((k (some drained)).stateWith next) (.held drained.componentTotal) Γ v' →
        (setting K g i).Safe next Q (k (some drained)) v') :
    (setting K g i).Safe next Q (.op c .beginHandoff k) v := by
  refine follower_op hi hΓ h nofun fun v hv oracle result hrun => ?_
  rcases hs with rfl | ⟨r, rfl⟩
  · obtain ⟨drained, engine, heq, hmove⟩ := hv.nodeSafe.begin_peak hv.stands
    rw [run_begin, heq] at hrun
    obtain rfl := Option.some.inj hrun
    refine ⟨_, (hsome rfl drained).1, ?_, (hsome rfl drained).2⟩
    exact followerEffect_of_no_frame rfl (hmove _).1 (hmove _).2
      (fun r hr => hv.cluster.agree i r hr) nofun
  · rw [run_begin, NodeSafe.begin_installed hv.stands] at hrun
    obtain rfl := Option.some.inj hrun
    refine ⟨_, hnone.1, ?_, hnone.2⟩
    exact followerEffect_of_no_frame rfl (hv.nodeSafe.quiet _ _)
      (hv.stands.quiet (e := .beginHandoff) nofun _) (fun r hr => hv.cluster.agree i r hr) nofun

/-- Aborting before anything is committed; a vote only for a term the leader has given up. -/
theorem follower_abort {k : Reply .abortHandoff → Prog Impl Reply Unit} {total : ℕ}
    (hi : i ≠ K.leader) (hΓ : Lasting K g Γ) (h : Stand K g i c s Γ v)
    (hs : s = .held total ∨ ∃ term, s = .voted term total ∧
      (g → ∀ v, Γ v → ¬ (v.nodes K.leader).holds term))
    (hfresh : ((k ()).stateWith next).fresh = c.fresh)
    (hk : ∀ v', Stand K g i ((k ()).stateWith next) .peak Γ v' →
      (setting K g i).Safe next Q (k ()) v') :
    (setting K g i).Safe next Q (.op c .abortHandoff k) v := by
  refine follower_op hi hΓ h nofun fun v hv oracle result hrun => ?_
  obtain rfl := Option.some.inj hrun
  have hheld : (v.nodes i).Drained total ∧ (v.nodes i).Uncommitted := by
    rcases hs with rfl | ⟨term, rfl, -⟩
    · exact ⟨hv.stands.1, hv.stands.2.1⟩
    · exact ⟨hv.stands.1, hv.stands.2.1⟩
  obtain ⟨hmove, hstands⟩ := hv.nodeSafe.abort hheld.1 hheld.2 ((k ()).stateWith next)
  refine ⟨_, hfresh, ⟨hmove, hstands, nofun, fun r hr => absurd hr (hstands.2.1 r), ?_⟩, hk⟩
  intro _ hg term value ho
  rcases hs with rfl | ⟨term', rfl, hreleased⟩
  · exact absurd ho (hv.stands.2.2 term value)
  · exact (hv.stands.2.2.1 term value ho).1 ▸ hreleased hg v hv.context

/-- Storing a vote. -/
theorem follower_store_prepared {record : JournalRecord}
    {k : Reply (.store record) → Prog Impl Reply Unit} {total : ℕ} (hi : i ≠ K.leader)
    (hΓ : Lasting K g Γ) (h : Stand K g i c (.held total) Γ v) (hphase : record.phase = .prepared)
    (htotal : record.total = total)
    (hfresh : ∀ stored : Bool, ((k stored).stateWith next).fresh = c.fresh)
    (hk : ∀ (stored : Bool) v', Stand K g i ((k stored).stateWith next)
      (if stored then .voted record.term total else .held total) Γ v' →
        (setting K g i).Safe next Q (k stored) v') :
    (setting K g i).Safe next Q (.op c (.store record) k) v := by
  refine follower_op hi hΓ h nofun fun v hv oracle result hrun => ?_
  obtain rfl := Option.some.inj hrun
  obtain ⟨hmove, hstands⟩ := hv.nodeSafe.store_prepared oracle.store hv.stands hphase
    htotal ((k oracle.store.reported).stateWith next)
  refine ⟨_, hfresh _, followerEffect_of_no_frame rfl hmove hstands ?_ nofun, hk _⟩
  intro r hr
  rcases committed_store hr with hold | ⟨-, hcommitted⟩
  · exact hv.cluster.agree i r hold
  · exact absurd (hphase.symm.trans hcommitted) nofun

/-- Clearing the journal. -/
theorem follower_store_idle {record : JournalRecord}
    {k : Reply (.store record) → Prog Impl Reply Unit} (hi : i ≠ K.leader)
    (hΓ : Lasting K g Γ) (h : Stand K g i c .peak Γ v) (hphase : record.phase = .idle)
    (hfresh : ∀ stored : Bool, ((k stored).stateWith next).fresh = c.fresh)
    (hk : ∀ (stored : Bool) v', Stand K g i ((k stored).stateWith next) .peak Γ v' →
      (setting K g i).Safe next Q (k stored) v') :
    (setting K g i).Safe next Q (.op c (.store record) k) v := by
  refine follower_op hi hΓ h nofun fun v hv oracle result hrun => ?_
  obtain rfl := Option.some.inj hrun
  obtain ⟨hmove, hstands⟩ := hv.nodeSafe.store_idle oracle.store hv.stands hphase
    ((k oracle.store.reported).stateWith next)
  exact ⟨_, hfresh _, followerEffect_of_no_frame rfl hmove hstands
    (fun r hr => absurd hr (hstands.2.1 r)) nofun, hk _⟩

/-- Storing the leader's decision. -/
theorem follower_store_committed (record : JournalRecord)
    {k : Reply (.store record) → Prog Impl Reply Unit} {total : ℕ} (hi : i ≠ K.leader)
    (hΓ : Lasting K g Γ) (h : Stand K g i c (.deciding record.term total) Γ v)
    (hphase : record.phase = .committed)
    (hdecision : ∀ v, Γ v → (v.nodes K.leader).committed record.onDisk)
    (hfresh : ∀ stored : Bool, ((k stored).stateWith next).fresh = c.fresh)
    (hk : ∀ (stored : Bool) v', Stand K g i ((k stored).stateWith next)
      (if stored then .decided total record.onDisk else .deciding record.term total) Γ v' →
        (setting K g i).Safe next Q (k stored) v') :
    (setting K g i).Safe next Q (.op c (.store record) k) v := by
  refine follower_op hi hΓ h nofun fun v hv oracle result hrun => ?_
  obtain rfl := Option.some.inj hrun
  have hleader := hdecision v hv.context
  obtain ⟨hmove, hstands⟩ := hv.nodeSafe.store_committed oracle.store hv.stands hphase
    (fun r hr => committed_unique (hv.cluster.agree i r hr) hleader)
    ((k oracle.store.reported).stateWith next)
  refine ⟨_, hfresh _, followerEffect_of_no_frame rfl hmove hstands ?_ nofun, hk _⟩
  intro r hr
  rcases committed_store hr with hold | ⟨rfl, -⟩
  · exact hv.cluster.agree i r hold
  · exact hleader

/-- Installing the decision. -/
theorem follower_commit (record : JournalRecord) {total : ℕ}
    {k : Reply (.commitHandoff record.total (i == K.owner)) → Prog Impl Reply Unit}
    (hi : i ≠ K.leader) (hΓ : Lasting K g Γ) (h : Stand K g i c (.decided total record) Γ v)
    (hfresh : ((k true).stateWith next).fresh = c.fresh)
    (hk : ∀ v', Stand K g i ((k true).stateWith next) (.installed record) Γ v' →
      (setting K g i).Safe next Q (k true) v') :
    (setting K g i).Safe next Q (.op c (.commitHandoff record.total (i == K.owner)) k) v := by
  refine follower_op hi hΓ h nofun fun v hv oracle result hrun => ?_
  have hleader := hv.cluster.agree i record hv.stands.2.2
  obtain ⟨engine, heq, hmove⟩ := hv.nodeSafe.commit hv.configured.running hv.stands
    (hv.cluster.record record hleader).2.1
  rw [run_commit, heq] at hrun
  obtain rfl := Option.some.inj hrun
  exact ⟨_, hfresh, followerEffect_of_no_frame rfl (hmove _).1 (hmove _).2
    (fun r hr => hv.cluster.agree i r hr) nofun, hk⟩

end Rules

/-! ### Sending to the leader -/

section Sends

variable {next : Impl → Unit → Impl} {Q : Impl → Unit → View → Prop} {component : ℕ}
  {term total counter epoch value : ℕ}

/-- A program that goes on to send shows the state it sends from. -/
theorem same_sendToComponent {type : WireType} (hnext : (next c ()).Same c) :
    ((Impl.sendToComponent type component term counter epoch value c).stateWith next).Same c := by
  unfold Impl.sendToComponent
  simp only [Script.bind_apply, Script.get_apply, Prog.ret_bind]
  cases List.lookup component c.peers with
  | some endpoint => exact .refl c
  | none => exact hnext

/-- Sending a report. -/
theorem follower_sendReport (hi : i ≠ K.leader) (hΓ : Lasting K g Γ)
    (h : Stand K g i c (.voted term total) Γ v) (hseen : ∀ v, Γ v → Seen term v)
    (hnext : (next c ()).Same c)
    (hQ : ∀ v', Stand K g i c (.voted term total) Γ v' → Q c () v') :
    (setting K g i).Safe next Q
      (Impl.sendToComponent .prepared component term counter epoch total c) v := by
  unfold Impl.sendToComponent
  simp only [Script.bind_apply, Script.get_apply, Prog.ret_bind]
  cases List.lookup component c.peers with
  | some endpoint =>
    refine follower_report hi hΓ h h.configured.componentId rfl rfl rfl hseen hnext.fresh
      fun v hv => ?_
    exact (hv.same hnext).ret hΓ hQ
  | none => exact h.ret hΓ hQ

/-- Sending a trigger, or the acknowledgement of an installed record. -/
theorem follower_sendOther {type : WireType} (hi : i ≠ K.leader) (hΓ : Lasting K g Γ)
    (h : Stand K g i c s Γ v)
    (htype : type = .trigger ∧ term = 0 ∨
      type = .commitAck ∧ (∃ r, s = .installed r ∧ term = r.term) ∧ ∀ v, Γ v → Seen term v)
    (hnext : (next c ()).Same c) (hQ : ∀ v', Stand K g i c s Γ v' → Q c () v') :
    (setting K g i).Safe next Q
      (Impl.sendToComponent type component term counter epoch value c) v := by
  unfold Impl.sendToComponent
  simp only [Script.bind_apply, Script.get_apply, Prog.ret_bind]
  cases List.lookup component c.peers with
  | some endpoint =>
    refine follower_send hi hΓ h h.configured.componentId htype hnext.fresh fun v hv => ?_
    exact (hv.same hnext).ret hΓ hQ
  | none => exact h.ret hΓ hQ

end Sends

/-! ### Preparing and aborting -/

/-- An abort of a term that the leader has given up. -/
theorem follower_abortPrepare {next : Impl → Unit → Impl} {Q : Impl → Unit → View → Prop}
    {total : ℕ} (hi : i ≠ K.leader) (hΓ : Lasting K g Γ)
    (h : Stand K g i c (.voted c.activeTerm total) Γ v) (hstate : c.state = .followerPrepared)
    (hreleased : ∀ v, Γ v → Released K g c.activeTerm v)
    (hnext : (next c.cleared ()).Same c.cleared)
    (hQ : ∀ v', Stand K g i c.cleared .peak Γ v' → Q c.cleared () v') :
    (setting K g i).Safe next Q (Impl.abortPrepare false c) v := by
  unfold Impl.abortPrepare
  simp only [Script.bind_apply, Script.get_apply, Prog.ret_bind, if_pos (Or.inr hstate)]
  refine follower_abort hi hΓ h (.inr ⟨_, rfl, fun hg v hv => (hreleased v hv).2 hg⟩) rfl
    fun v hv => ?_
  refine follower_store_idle hi hΓ hv rfl (fun _ => hnext.fresh) fun _ v hv => ?_
  exact (hv.same hnext).ret hΓ hQ

theorem follower_prepareFor {term : ℕ} (hi : i ≠ K.leader)
    (h : Stand K g i c s (Seen term) v) (hs : Ready c s) :
    Continues K g i (Impl.prepareFor term c) v := by
  refine ⟨h.impl, ?_⟩
  refine follower_begin hi lasting_seen h hs.stance ⟨rfl, fun v hv => RunsToRest.ret (hs.rest hv)⟩
    fun hpeak drained => ⟨rfl, fun v hv => ?_⟩
  have hlast : c.lastCommittedTerm = 0 := by
    obtain ⟨-, ⟨-, hlast⟩ | ⟨r, rfl, -⟩⟩ := hs
    · exact hlast
    · exact absurd hpeak nofun
  refine follower_store_prepared hi lasting_seen hv rfl rfl (fun stored => by cases stored <;> rfl)
    fun stored v hv => ?_
  cases stored with
  | true =>
    refine follower_read (.inl rfl) hi lasting_seen hv fun started =>
      ⟨_, same_sendToComponent (.refl _), rfl, fun v hv => ?_⟩
    refine follower_sendReport hi lasting_seen hv (fun _ h => h) (.refl _) fun v hv => ?_
    exact .voted drained rfl hi hlast (by rw [← h.configured.componentId]) hv
  | false =>
    refine follower_abort hi lasting_seen hv (.inl rfl) rfl fun v hv => RunsToRest.ret ?_
    exact .peak hs.1 hlast (hv.weaken id fun _ => trivial)

/-! ### Frames -/

theorem follower_handlePrepare {frame : Frame} (hi : i ≠ K.leader) (h : Rest K g i c v)
    (hfence : c.recoveryFenced = false) (hsent : v.sent frame) :
    Continues K g i (Impl.handlePrepare frame c) v := by
  obtain ⟨p, hp, rfl⟩ := hsent
  have hseen : Seen p.frame.term v := ⟨p, hp, rfl⟩
  unfold Impl.handlePrepare
  simp only [Script.bind_apply, Script.get_apply, Prog.ret_bind]
  split
  · exact Continues.ret h
  -- an idle node that is not fenced takes the term up
  have hready : ∀ {s}, Ready c s → Stand K g i c s (fun _ => True) v →
      Continues K g i (Impl.prepareFor p.frame.term c) v := fun hs hv =>
    follower_prepareFor hi (hv.weaken id fun _ => hseen) hs
  cases h with
  | fenced _ fence => exact absurd (hfence.symm.trans fence) nofun
  | peak state last stand =>
    simp only [state, last, reduceCtorEq, Nat.not_lt_zero, ne_eq, not_true_eq_false, false_and,
      or_self, if_false]
    exact hready ⟨state, .inl ⟨rfl, last⟩⟩ stand
  | installed r state last stand =>
    by_cases hold : p.frame.term < c.lastCommittedTerm
    · simp only [state, reduceCtorEq, false_and, or_self, if_false, if_pos hold, false_or]
      exact Continues.ret (.installed r state last stand)
    · simp only [state, reduceCtorEq, false_and, or_self, if_false, if_neg hold, ne_eq,
        not_true_eq_false, false_or]
      exact hready ⟨state, .inr ⟨r, rfl, last⟩⟩ stand
  | polling _ _ leader => exact absurd leader hi
  | blocked _ _ leader => exact absurd leader hi
  | committing _ _ leader => exact absurd leader hi
  | deciding total r state follower last term stand =>
    simp only [state, true_or, if_true]
    exact Continues.ret (.deciding total r state follower last term stand)
  | voted drained state follower last prepared stand =>
    simp only [state, last, reduceCtorEq, Nat.not_lt_zero, or_self, if_false, true_and, or_false]
    split
    · exact Continues.ret (.voted drained state follower last prepared stand)
    split
    · -- a repeated prepare is answered with the same report
      rw [Script.bind_apply, Impl.preparedAt_apply (show _ = some drained by
        rw [prepared, stand.configured.componentId]; simp), Prog.ret_bind]
      refine ⟨stand.impl.trans (same_sendToComponent (.refl c)).symm, ?_⟩
      refine follower_sendReport hi lasting_seen stand (fun _ h => h) (.refl c) fun v hv => ?_
      exact .voted drained state follower last prepared hv
    · -- a newer prepare: the leader has given the old term up
      have hreleased : Released K g c.activeTerm v := by
        refine ⟨stand.context, fun hg hh => ?_⟩
        have hnewest := stand.cluster.newest hg _ hh p hp
        omega
      rw [if_pos nofun]
      have hlabel : ((Impl.abortPrepare false >>= fun _ => Impl.prepareFor p.frame.term) c).state =
          c := (Prog.stateWith_bind _ _ _).trans (state_abortPrepare (.inr state))
      refine ⟨by rw [hlabel]; exact stand.impl, ?_⟩
      refine Setting.Safe.bind (follower_abortPrepare hi (lasting_released.and lasting_seen)
        (stand.weaken id fun _ => ⟨hreleased, hseen⟩) state (fun _ h => h.1) (.refl _)
        fun v hv => ?_)
      exact (follower_prepareFor hi (hv.weaken id And.right) ⟨rfl, .inl ⟨rfl, last⟩⟩).safe

/-- The record that a commit frame makes a follower store. -/
def Frame.record (frame : Frame) (owner : ℕ) : JournalRecord :=
  ⟨.committed, frame.term, ⟨frame.counter, frame.epoch, frame.value⟩, frame.value, owner⟩

/-- A commit frame carries the leader's record. -/
private theorem commit_record {frame : Frame} (hv : ClusterInvariant K g v) (hsent : v.sent frame)
    (htype : frame.type = .commit) :
    1 ≤ frame.term ∧ (v.nodes K.leader).committed (frame.record K.owner).onDisk := by
  obtain ⟨r, hr, hterm, hcounter, hepoch, hvalue⟩ := hv.commits frame hsent htype
  obtain ⟨hpos, -, howner, hcomponent⟩ := hv.record r hr
  refine ⟨hterm ▸ hpos, ?_⟩
  have heq : (frame.record K.owner).onDisk = r := by
    obtain ⟨phase, term, ⟨counter, epoch, component⟩, total, owner⟩ := r
    obtain rfl : phase = .committed := hr.2
    simp_all [Frame.record, JournalRecord.onDisk]
  exact heq ▸ hr

/-- The end of `handleCommit`: a decision is stored, installed and acknowledged. -/
private theorem follower_install {frame : Frame} {total : ℕ} (hi : i ≠ K.leader)
    (h : Stand K g i c (.deciding frame.term total)
      (Announced K (frame.record K.owner).onDisk) v)
    (hstate : c.state = .followerCommitting) (hlast : c.lastCommittedTerm = 0)
    (hterm : frame.term = c.activeTerm) :
    RunsToRest K g i ((do
      if ← Impl.persist .committed frame.term ⟨frame.counter, frame.epoch, frame.value⟩
          frame.value then
        if ← commitDistributedHandoff frame.value c.isOwner then
          modify fun c => { c with
            lastCommittedTerm := frame.term
            state := .idle
            activeTerm := 0 }
          Impl.sendToComponent .commitAck c.config.leaderComponentId frame.term frame.counter
            frame.epoch frame.value : HandoffM Unit) c) v := by
  have howner := h.configured.owner
  rw [h.configured.isOwner]
  refine follower_store_committed (frame.record c.config.strictOwnerComponentId) hi
    lasting_announced h rfl (fun _ h => howner ▸ h.1) (fun stored => by cases stored <;> rfl)
    fun stored v hv => ?_
  cases stored with
  | false =>
    refine RunsToRest.ret (.deciding total (frame.record K.owner).onDisk hstate hi hlast hterm ?_)
    exact hv.weaken (by rw [← hterm]; exact id) id
  | true =>
    refine follower_commit (frame.record c.config.strictOwnerComponentId).onDisk hi
      lasting_announced hv (same_sendToComponent (.refl _)).fresh fun v hv => ?_
    refine follower_sendOther hi lasting_announced (hv.same (same_sendToComponent (.refl _)))
      (.inr ⟨rfl, ⟨_, rfl, rfl⟩, fun _ h => h.2⟩) (.refl _) fun v hv => ?_
    exact .installed _ rfl rfl (hv.weaken id fun _ => trivial)

theorem follower_handleCommit {frame : Frame} (hi : i ≠ K.leader) (h : Rest K g i c v)
    (hfence : c.recoveryFenced = false) (hsent : v.sent frame) (htype : frame.type = .commit) :
    Starts K g i (Impl.handleCommit frame c) v := by
  have hseen : Seen frame.term v := by
    obtain ⟨p, hp, rfl⟩ := hsent
    exact ⟨p, hp, rfl⟩
  have hrest : Starts K g i (.ret c ()) v := (Continues.ret h).starts h.cluster h.up
  unfold Impl.handleCommit
  simp only [Script.bind_apply, Script.get_apply, Prog.ret_bind]
  split
  · exact hrest
  cases h with
  | fenced _ fence => exact absurd (hfence.symm.trans fence) nofun
  -- without a report there is nothing to commit, and the term of the frame is not 0
  | peak state last stand =>
    obtain ⟨hpos, -⟩ := commit_record stand.cluster hsent htype
    rw [if_neg (by omega), if_pos (.inl ⟨by simp [state], by simp [state]⟩)]
    exact hrest
  -- the decision is installed already: a repeated commit is acknowledged again
  | installed r state last stand =>
    split
    · refine Continues.starts ⟨stand.impl.trans (same_sendToComponent (.refl c)).symm, ?_⟩
        stand.cluster stand.up
      refine follower_sendOther hi lasting_seen (stand.weaken id fun _ => hseen)
        (.inr ⟨rfl, ⟨r, rfl, by omega⟩, fun _ h => h⟩) (.refl c) fun v hv => ?_
      exact .installed r state last (hv.weaken id fun _ => trivial)
    · rw [if_pos (.inl ⟨by simp [state], by simp [state]⟩)]
      exact hrest
  | polling _ _ leader => exact absurd leader hi
  | blocked _ _ leader => exact absurd leader hi
  | committing _ _ leader => exact absurd leader hi
  | deciding total r state follower last term stand =>
    obtain ⟨hpos, hrecord⟩ := commit_record stand.cluster hsent htype
    rw [if_neg (by omega)]
    split
    · exact hrest
    rename_i hguard
    have hterm : frame.term = c.activeTerm := by
      push Not at hguard
      exact hguard.2
    refine (stand.weaken id fun _ => ⟨hrecord, hseen⟩).starts lasting_announced rfl
      (fun h => absurd h hi) fun v hv => ?_
    exact follower_install hi (hv.weaken (by rw [hterm]; exact id) id) rfl last hterm
  -- the decision arrives
  | voted drained state follower last prepared stand =>
    obtain ⟨hpos, hrecord⟩ := commit_record stand.cluster hsent htype
    rw [if_neg (by omega)]
    split
    · exact hrest
    rename_i hguard
    have hterm : frame.term = c.activeTerm := by
      push Not at hguard
      exact hguard.2
    refine (stand.weaken Stands.deciding_of_voted fun _ => ⟨hrecord, hseen⟩).starts
      lasting_announced rfl (fun h => absurd h hi) fun v hv => ?_
    exact follower_install hi (hv.weaken (by rw [hterm]; exact id) id) rfl last hterm

/-- An abort of a controller at rest. -/
private theorem follower_abort_voted {drained : DrainedPeakState} (hi : i ≠ K.leader)
    (state : c.state = .followerPrepared) (last : c.lastCommittedTerm = 0)
    (stand : Stand K g i c (.voted c.activeTerm drained.componentTotal) (Seen c.activeTerm) v)
    (hreleased : g → ¬ (v.nodes K.leader).holds c.activeTerm) :
    Continues K g i (Impl.abortPrepare false c) v := by
  have hlabel : (Impl.abortPrepare false c).state = c := state_abortPrepare (.inr state)
  refine ⟨by rw [hlabel]; exact stand.impl, ?_⟩
  refine follower_abortPrepare hi lasting_released
    (stand.weaken id fun h => ⟨h, hreleased⟩) state (fun _ h => h) (.refl _) fun v hv => ?_
  exact .peak rfl last (hv.weaken id fun _ => trivial)

theorem follower_handleAbort {frame : Frame} (hi : i ≠ K.leader) (h : Rest K g i c v)
    (hsent : v.sent frame) (htype : frame.type = .abort) :
    Continues K g i (Impl.handleAbort frame c) v := by
  unfold Impl.handleAbort
  simp only [Script.bind_apply, Script.get_apply, Prog.ret_bind]
  split
  swap
  · exact Continues.ret h
  rename_i hguard
  obtain ⟨-, hterm, hstate⟩ := hguard
  cases h with
  | voted drained state follower last prepared stand =>
    exact follower_abort_voted hi state last stand fun hg =>
      hterm ▸ stand.cluster.aborted hg frame hsent htype
  | _ => simp_all

theorem follower_handleFrame {frame : Frame} {source : Endpoint} (hi : i ≠ K.leader)
    (h : Rest K g i c v) (hsent : v.sent frame) :
    Starts K g i (Impl.handleFrame frame source c) v := by
  have hrest : Starts K g i (.ret c ()) v := (Continues.ret h).starts h.cluster h.up
  have hleader : c.isLeader = false := by
    simpa [hi] using h.configured.isLeader
  unfold Impl.handleFrame
  simp only [Script.bind_apply, Script.get_apply, Prog.ret_bind]
  split
  · exact hrest
  rename_i hfence
  have hfence' : c.recoveryFenced = false := by simpa using hfence
  split
  · exact hrest
  split
  · exact hrest
  cases htype : frame.type with
  | trigger =>
    simp only [hleader, Bool.false_eq_true, if_false]
    exact hrest
  | prepare => exact (follower_handlePrepare hi h hfence' hsent).starts h.cluster h.up
  | prepared =>
    dsimp only
    unfold Impl.handlePrepared
    simp only [Script.bind_apply, Script.get_apply, Prog.ret_bind, hleader, Bool.not_false,
      Bool.true_or, if_true]
    exact hrest
  | commit => exact follower_handleCommit hi h hfence' hsent htype
  | commitAck =>
    dsimp only
    unfold Impl.handleCommitAck
    simp only [Script.bind_apply, Script.get_apply, Prog.ret_bind, hleader, Bool.not_false,
      Bool.true_or, if_true]
    exact hrest
  | abort => exact (follower_handleAbort hi h hsent htype).starts h.cluster h.up

/-! ### Ticks -/

/-- The first part of a tick of an idle follower: it may ask the leader for a handoff. -/
private theorem follower_triggerHandoff {next : Impl → Unit → Impl}
    {Q : Impl → Unit → View → Prop} {now : ℕ} (hi : i ≠ K.leader) (hs : Ready c s)
    (hfence : c.recoveryFenced = false) (h : Stand K g i c s (fun _ => True) v)
    (hnext : ∀ c', c'.state = .idle → (next c' ()).Same c')
    (hQ : ∀ c' v', Ready c' s → Stand K g i c' s (fun _ => True) v' → Q c' () v') :
    (setting K g i).Safe next Q (Impl.triggerHandoff now c) v := by
  have hret : ((Prog.ret c () : Prog Impl Reply Unit).stateWith next).Same c ∧ c.fresh = c.fresh ∧
      ∀ v, Stand K g i c s (fun _ => True) v → (setting K g i).Safe next Q (.ret c ()) v :=
    ⟨hnext c hs.1, rfl, fun v hv => hv.ret lasting_true fun v' => hQ c v' hs⟩
  have hleader : ¬ c.isLeader = true := h.configured.isLeader.not.mpr hi
  rw [Impl.triggerHandoff_idle hfence hs.1]
  refine follower_read (.inr (.inl rfl)) hi lasting_true h fun mode => ⟨c, ?_⟩
  split
  · exact hret
  split
  swap
  · exact hret
  refine ⟨.refl c, rfl, fun v hv => ?_⟩
  refine follower_read (.inr (.inr rfl)) hi lasting_true hv fun total => ⟨c, ?_⟩
  split
  swap
  · exact hret
  -- a follower asks the leader
  split
  swap
  · exact hret
  have hsame : ({ c with nextTrigger := now + c.config.retryAfter } : Impl).Same c :=
    ⟨rfl, rfl, rfl, rfl⟩
  have hasked : (next { c with nextTrigger := now + c.config.retryAfter } ()).Same c :=
    (hnext { c with nextTrigger := now + c.config.retryAfter } hs.1).trans hsame
  refine ⟨?_, rfl, fun v hv => ?_⟩
  · rw [Prog.stateWith_bind]
    exact same_sendToComponent hasked
  · refine Setting.Safe.bind (follower_sendOther hi lasting_true hv (.inl ⟨rfl, rfl⟩) hasked
      fun v hv => ?_)
    exact (hv.same hsame.symm).ret lasting_true fun v' => hQ _ v' hs

/-- A tick of a follower that has voted: it gives up at the deadline and reports again before. -/
private theorem follower_retryPhase {now : ℕ} {drained : DrainedPeakState} (hi : i ≠ K.leader)
    (state : c.state = .followerPrepared) (last : c.lastCommittedTerm = 0)
    (prepared : c.prepared = [(i, drained)])
    (stand : Stand K g i c (.voted c.activeTerm drained.componentTotal) (Seen c.activeTerm) v)
    (horderly : g → c.prepareDeadline ≤ now → ¬ (v.nodes K.leader).holds c.activeTerm) :
    Continues K g i (Impl.retryPhase now c) v := by
  have hrest : ∀ c' v, c'.state = .followerPrepared → c'.lastCommittedTerm = 0 →
      c'.prepared = [(i, drained)] → Stand K g i c' (.voted c'.activeTerm drained.componentTotal)
        (Seen c'.activeTerm) v → Rest K g i c' v := fun c' v hstate hlast hprepared hv =>
    .voted drained hstate hi hlast hprepared hv
  unfold Impl.retryPhase
  simp only [Script.bind_apply, Script.get_apply, Script.ite_apply, Prog.ret_bind, state,
    reduceCtorEq, if_false, if_true]
  split
  · rename_i hdeadline
    exact follower_abort_voted hi state last stand fun hg => horderly hg hdeadline
  split
  swap
  · exact Continues.ret (hrest c v state last prepared stand)
  rw [Impl.preparedAt_apply (show _ = some drained by
    rw [prepared, stand.configured.componentId]; simp), Prog.ret_bind]
  have hsame : ({ c with nextRetry := now + c.config.retryAfter } : Impl).Same c :=
    ⟨rfl, rfl, rfl, rfl⟩
  constructor
  · refine stand.impl.trans (Impl.Same.symm ?_)
    rw [Prog.state, Prog.stateWith_bind]
    exact same_sendToComponent hsame
  · refine Setting.Safe.bind (follower_sendReport hi lasting_seen stand (fun _ h => h) hsame
      fun v hv => ?_)
    exact RunsToRest.ret (hrest _ v state last prepared (hv.same hsame.symm))

theorem follower_tick {now : ℕ} (hi : i ≠ K.leader) (h : Rest K g i c v)
    (horderly : g → c.state = .followerPrepared → c.prepareDeadline ≤ now →
      ¬ (v.nodes K.leader).holds c.activeTerm) :
    Continues K g i (Impl.tick now c) v := by
  unfold Impl.tick
  rw [Script.bind_apply]
  have hready : ∀ {s}, Ready c s → Stand K g i c s (fun _ => True) v →
      Continues K g i ((Impl.triggerHandoff now c).bind fun s _ => Impl.retryPhase now s) v := by
    intro s hs hv
    have hnext : ∀ c' : Impl, c'.state = .idle →
        ((Impl.retryPhase now c').stateWith fun c _ => c).Same c' := fun c' hidle => by
      rw [Impl.retryPhase_idle hidle]
      exact .refl c'
    by_cases hfence : c.recoveryFenced = true
    · rw [Impl.triggerHandoff_busy (.inl hfence), Prog.ret_bind, Impl.retryPhase_idle hs.1]
      exact Continues.ret h
    have hfence' : c.recoveryFenced = false := by simpa using hfence
    constructor
    · rw [Prog.state, Prog.stateWith_bind, Impl.triggerHandoff_idle hfence' hs.1]
      exact hv.impl
    · refine Setting.Safe.bind (follower_triggerHandoff hi hs hfence' hv hnext
        fun c' v' hs' hv' => ?_)
      rw [Impl.retryPhase_idle hs'.1]
      exact RunsToRest.ret (hs'.rest hv')
  cases h with
  | fenced state fence stand =>
    rw [Impl.triggerHandoff_busy (.inl fence), Prog.ret_bind, Impl.retryPhase_idle state]
    exact Continues.ret (.fenced state fence stand)
  | peak state last stand => exact hready ⟨state, .inl ⟨rfl, last⟩⟩ stand
  | installed r state last stand => exact hready ⟨state, .inr ⟨r, rfl, last⟩⟩ stand
  | polling _ _ leader => exact absurd leader hi
  | blocked _ _ leader => exact absurd leader hi
  | committing _ _ leader => exact absurd leader hi
  | voted drained state follower last prepared stand =>
    rw [Impl.triggerHandoff_busy (.inr (by simp [state])), Prog.ret_bind]
    exact follower_retryPhase hi state last prepared stand fun hg => horderly hg state
  | deciding total r state follower last term stand =>
    rw [Impl.triggerHandoff_busy (.inr (by simp [state])), Prog.ret_bind]
    unfold Impl.retryPhase
    simp only [Script.bind_apply, Script.get_apply, Prog.ret_bind, state, reduceCtorEq, if_false,
      false_and]
    exact Continues.ret (.deciding total r state follower last term stand)

theorem follower_stop (hi : i ≠ K.leader) (h : Rest K g i c v)
    (horderly : g → ¬ (v.nodes K.leader).holds c.activeTerm) :
    Continues K g i (Impl.stop c) v := by
  unfold Impl.stop
  simp only [Script.bind_apply, Script.get_apply, Prog.ret_bind]
  split
  swap
  · exact Continues.ret h
  rename_i hguard
  cases h with
  | polling _ _ leader => exact absurd leader hi
  | voted drained state follower last prepared stand =>
    exact follower_abort_voted hi state last stand horderly
  | _ => simp_all

end HotCounter
