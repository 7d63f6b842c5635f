import HotCounter.Handoff.Rules

/-!
# The handlers of the leader

`leader_op` is the rule for one effect of the leader; it is instantiated at the effects the
leader performs, and the handlers are put together from these rules.
-/

namespace HotCounter

open Foundation NodeView

variable {K : Deployment} {g : Prop} {c : Impl} {s : Stance} {Γ : View → Prop} {v : View}

section Rules

variable {e : Effect} {next : Impl → Unit → Impl} {Q : Impl → Unit → View → Prop}
  {k : Reply e → Prog Impl Reply Unit}

/-- What the leader has to show of one effect. -/
structure LeaderEffect (K : Deployment) (g : Prop) (e : Effect) (v : View) (n' : NodeView)
    (s' : Stance) : Prop where
  move : NodeMove K K.leader e (v.nodes K.leader) n'
  stands : n'.Stands s'
  frames : ∀ p ∈ e.packets, LeaderFrame g n' p.frame
  record : ∀ r, n'.committed r → 1 ≤ r.term ∧ r.total ≤ K.limit ∧ r.strictOwner = K.owner ∧
    r.state.componentTotal = r.total
  holds : g → ∀ term, n'.holds term →
    (v.nodes K.leader).holds term ∨ ∀ p ∈ v.net, p.frame.term < term
  decided : g → ∀ r, n'.committed r → Decided K (v.set K.leader n' e.packets) r
  committing : (v.nodes K.leader).impl.state = .leaderCommitting →
    n'.impl.state = .leaderCommitting

/-- **One effect of the leader.** `B` is a fact that no follower can break. -/
theorem leader_op {B : View → Prop} (hΓ : Lasting K g Γ) (h : Stand K g K.leader c s Γ v)
    (hB : B v) (hstable : ∀ {v v'}, B v → Rely K g K.leader v v' → B v')
    (hfault : e ≠ .terminate)
    (hstep : ∀ v, Stand K g K.leader c s Γ v → B v → ∀ oracle result,
      e.run oracle (v.nodes K.leader).engine (v.nodes K.leader).journal = some result →
      (g → e = .clock → c.state = .idle → ∀ p ∈ v.net, p.frame.term < oracle.now) →
      ∃ s', ((k result.1).stateWith next).fresh = c.fresh ∧
        LeaderEffect K g e v ((v.nodes K.leader).after e result.2.1 result.2.2.1
          ((k result.1).stateWith next)) s' ∧
        ∀ v', v'.net = e.packets ++ v.net →
          Stand K g K.leader ((k result.1).stateWith next) s' Γ v' →
          (setting K g K.leader).Safe next Q (k result.1) v') :
    (setting K g K.leader).Safe next Q (.op c e k) v := by
  refine Setting.Safe.op (A := fun v => Stand K g K.leader c s Γ v ∧ B v) ⟨h, hB⟩ hfault
    (fun h hr => ⟨h.1.rely hΓ hr, hstable h.2 hr⟩) fun v r v' hv hs => ?_
  obtain ⟨oracle, result, hrun, rfl, hclock, hset⟩ := setting_step hs
  obtain ⟨s', hfresh, heff, hk⟩ := hstep v hv.1 hv.2 oracle result hrun
    fun hg he hidle => hclock hg rfl he (hv.1.impl.state.trans hidle)
  rw [hset]
  have hguar := leader_guar hv.1.cluster heff.move heff.frames heff.record heff.holds heff.decided
    heff.committing
  exact ⟨hguar, hk _ rfl (hv.1.after hΓ heff.move.up rfl hfresh heff.stands hguar)⟩

/-- The leader's controller goes on with the term it holds. -/
structure Keeps (c c' : Impl) : Prop where
  fresh : c'.fresh = c.fresh
  prepared : c'.prepared = c.prepared
  active : c'.state ≠ .idle → c.state ≠ .idle ∧ c'.activeTerm = c.activeTerm
  committing : c.state = .leaderCommitting → c'.state = .leaderCommitting

theorem Keeps.of_same {c' : Impl} (h : c'.Same c) : Keeps c c' :=
  ⟨h.fresh, h.prepared, fun hstate => ⟨h.state ▸ hstate, h.activeTerm⟩,
    fun hstate => h.state.trans hstate⟩

theorem Keeps.same {c' c'' : Impl} (h : Keeps c c') (hs : c''.Same c') : Keeps c c'' :=
  ⟨hs.fresh.trans h.fresh, hs.prepared.trans h.prepared, fun hstate =>
    let hactive := h.active (hs.state ▸ hstate)
    ⟨hactive.1, hs.activeTerm.trans hactive.2⟩, fun hstate => hs.state.trans (h.committing hstate)⟩

/-- An effect after which the leader holds and has committed what it did before. -/
private theorem leaderEffect_of_keeps {s' : Stance} {n' : NodeView}
    (h : Stand K g K.leader c s Γ v) (hmove : NodeMove K K.leader e (v.nodes K.leader) n')
    (hstands : n'.Stands s') (hframes : ∀ p ∈ e.packets, LeaderFrame g n' p.frame)
    (hkeeps : Keeps c n'.impl) (hcommitted : ∀ r, n'.committed r → (v.nodes K.leader).committed r)
    (hactive : n'.engine.distributedHandoffActive = true → n'.impl.state ≠ .idle →
      (v.nodes K.leader).engine.distributedHandoffActive = true) :
    LeaderEffect K g e v n' s' where
  move := hmove
  stands := hstands
  frames := hframes
  record := fun r hr => h.cluster.record r (hcommitted r hr)
  holds := by
    rintro - term (⟨hstate, hterm, hon⟩ | ⟨r, hr, hterm⟩)
    · obtain ⟨hstate', hterm'⟩ := hkeeps.active hstate
      refine .inl (.inl ⟨?_, ?_, hactive hon hstate⟩)
      · rw [h.impl.state]; exact hstate'
      · rw [h.impl.activeTerm, ← hterm', hterm]
    · exact .inl (.inr ⟨r, hcommitted r hr, hterm⟩)
  decided := by
    intro hg r hr
    have hd := h.cluster.decided hg r (hcommitted r hr)
    have hprepared : n'.impl.prepared = (v.nodes K.leader).impl.prepared :=
      hkeeps.prepared.trans h.impl.prepared.symm
    constructor
    case up => rw [View.set_nodes_self]; exact hmove.up
    case quiet => rw [View.set_nodes_self]; exact hmove.frozen r hr
    case nodup => rw [View.set_nodes_self, hprepared]; exact hd.nodup
    case all => rw [View.set_nodes_self, hprepared]; exact hd.all
    case total => rw [View.set_nodes_self, hprepared]; exact hd.total
    case own => rw [View.set_nodes_self, hprepared, hmove.used]; exact hd.own
    case reports =>
      rw [View.set_nodes_self, hprepared]
      intro report hreport hne
      obtain ⟨frame, hs, hframe⟩ := hd.reports report hreport hne
      exact ⟨frame, View.sent_set.mpr (.inr hs), hframe⟩
  committing := fun hstate => hkeeps.committing (h.impl.state ▸ hstate)

/-- An effect after which the leader holds nothing. -/
private theorem leaderEffect_of_released {s' : Stance} {n' : NodeView}
    (h : Stand K g K.leader c s Γ v) (hmove : NodeMove K K.leader e (v.nodes K.leader) n')
    (hstands : n'.Stands s') (hframes : ∀ p ∈ e.packets, LeaderFrame g n' p.frame)
    (huncommitted : n'.Uncommitted) (hactive : n'.engine.distributedHandoffActive = false)
    (hstate : c.state ≠ .leaderCommitting) : LeaderEffect K g e v n' s' where
  move := hmove
  stands := hstands
  frames := hframes
  record := fun r hr => absurd hr (huncommitted r)
  holds := by
    rintro - term (⟨-, -, hon⟩ | ⟨r, hr, -⟩)
    · exact absurd (hactive.symm.trans hon) nofun
    · exact absurd hr (huncommitted r)
  decided := fun _ r hr => absurd hr (huncommitted r)
  committing := fun hc => absurd (h.impl.state ▸ hc) hstate

/-- Reading the clock or the engine. -/
theorem leader_read (he : e = .clock ∨ e = .mode ∨ e = .peakTotal) (hΓ : Lasting K g Γ)
    (h : Stand K g K.leader c s Γ v)
    (hk : ∀ r, ∃ c', ((k r).stateWith next).Same c' ∧ Keeps c c' ∧
      ∀ v', Stand K g K.leader c' s Γ v' → (setting K g K.leader).Safe next Q (k r) v') :
    (setting K g K.leader).Safe next Q (.op c e k) v := by
  refine leader_op (B := fun _ => True) hΓ h trivial (fun h _ => h)
    (by rcases he with rfl | rfl | rfl <;> nofun) fun v hv _ oracle result hrun _ => ?_
  obtain ⟨c', hsame, hkeeps, hsafe⟩ := hk result.1
  refine ⟨s, hsame.fresh.trans hkeeps.fresh, ?_, fun v' _ hv' => hsafe v' (hv'.same hsame)⟩
  have hunchanged : result.2.1 = (v.nodes K.leader).engine ∧
      result.2.2.1 = (v.nodes K.leader).journal := by
    rcases he with rfl | rfl | rfl <;> obtain rfl := Option.some.inj hrun <;> exact ⟨rfl, rfl⟩
  rw [hunchanged.1, hunchanged.2]
  refine leaderEffect_of_keeps hv (hv.nodeSafe.quiet e _) (hv.stands.quiet ?_ _) ?_
    (hkeeps.same hsame) (fun _ hr => hr) fun hon _ => hon
  · rcases he with rfl | rfl | rfl <;> nofun
  · rcases he with rfl | rfl | rfl <;> nofun

/-- Drawing a term from the clock: in an orderly run it is above every term seen. -/
theorem leader_draw {k : Reply .clock → Prog Impl Reply Unit} (hΓ : Lasting K g Γ)
    (h : Stand K g K.leader c s Γ v) (hidle : c.state = .idle)
    (hk : ∀ now : ℕ, Keeps c ((k now).stateWith next) ∧
      ∀ v', Stand K g K.leader ((k now).stateWith next) s Γ v' →
        (g → ∀ p ∈ v'.net, p.frame.term < now) →
        (setting K g K.leader).Safe next Q (k now) v') :
    (setting K g K.leader).Safe next Q (.op c .clock k) v := by
  refine leader_op (B := fun _ => True) hΓ h trivial (fun h _ => h) nofun
    fun v hv _ oracle result hrun hclock => ?_
  obtain rfl := Option.some.inj hrun
  refine ⟨s, (hk _).1.fresh, ?_, fun v' hnet hv' => (hk _).2 v' hv' fun hg => ?_⟩
  · exact leaderEffect_of_keeps hv (hv.nodeSafe.quiet _ _)
      (hv.stands.quiet (e := .clock) nofun _) nofun (hk _).1 (fun _ hr => hr) fun hon _ => hon
  · rw [hnet]
    exact hclock hg rfl hidle

/-- Sending a frame. -/
theorem leader_send {destination : Endpoint} {frame : Frame}
    {k : Reply (.send destination frame) → Prog Impl Reply Unit} (hΓ : Lasting K g Γ)
    (h : Stand K g K.leader c s Γ v)
    (hframe : ∀ v, Stand K g K.leader c s Γ v → LeaderFrame g
      ((v.nodes K.leader).after (.send destination frame) (v.nodes K.leader).engine
        (v.nodes K.leader).journal ((k ()).stateWith next)) frame)
    (hstate : Keeps c ((k ()).stateWith next) ∨
      s = .peak ∧ ((k ()).stateWith next).fresh = c.fresh ∧ c.state ≠ .leaderCommitting)
    (hk : ∀ v', Stand K g K.leader ((k ()).stateWith next) s Γ v' →
      (setting K g K.leader).Safe next Q (k ()) v') :
    (setting K g K.leader).Safe next Q (.op c (.send destination frame) k) v := by
  refine leader_op (B := fun _ => True) hΓ h trivial (fun h _ => h) nofun
    fun v hv _ oracle result hrun _ => ?_
  obtain rfl := Option.some.inj hrun
  have hfr := hframe v hv
  have hframes : ∀ p ∈ (Effect.send destination frame).packets, LeaderFrame g
      ((v.nodes K.leader).after (.send destination frame) (v.nodes K.leader).engine
        (v.nodes K.leader).journal ((k ()).stateWith next)) p.frame := by
    intro p hp
    obtain rfl := List.mem_singleton.mp hp
    exact hfr
  have hquiet := hv.stands.quiet (e := .send destination frame) (by
    rintro d f ⟨⟩ htype
    rcases hfr.type with h | h | h <;> exact absurd (htype.symm.trans h) nofun)
    ((k ()).stateWith next)
  rcases hstate with hkeeps | ⟨rfl, hfresh, hstate⟩
  · exact ⟨s, hkeeps.fresh, leaderEffect_of_keeps hv (hv.nodeSafe.quiet _ _) hquiet hframes hkeeps
      (fun _ hr => hr) fun hon _ => hon, fun v' _ => hk v'⟩
  · exact ⟨_, hfresh, leaderEffect_of_released hv (hv.nodeSafe.quiet _ _) hquiet hframes
      hv.stands.2.1 hv.stands.1 hstate, fun v' _ => hk v'⟩

/-- Beginning a handoff. -/
theorem leader_begin {k : Reply .beginHandoff → Prog Impl Reply Unit} (hΓ : Lasting K g Γ)
    (h : Stand K g K.leader c s Γ v) (hs : s = .peak ∨ ∃ r, s = .installed r)
    (hnone : Keeps c ((k none).stateWith next) ∧
      ∀ v', Stand K g K.leader ((k none).stateWith next) s Γ v' →
        (setting K g K.leader).Safe next Q (k none) v')
    (hsome : s = .peak → ∀ drained, Keeps c ((k (some drained)).stateWith next) ∧
      ((k (some drained)).stateWith next).state = .idle ∧
      ∀ v', Stand K g K.leader ((k (some drained)).stateWith next)
        (.held drained.componentTotal) Γ v' →
        (setting K g K.leader).Safe next Q (k (some drained)) v') :
    (setting K g K.leader).Safe next Q (.op c .beginHandoff k) v := by
  refine leader_op (B := fun _ => True) hΓ h trivial (fun h _ => h) nofun
    fun v hv _ oracle result hrun _ => ?_
  rcases hs with rfl | ⟨r, rfl⟩
  · obtain ⟨drained, engine, heq, hmove⟩ := hv.nodeSafe.begin_peak hv.stands
    rw [run_begin, heq] at hrun
    obtain rfl := Option.some.inj hrun
    obtain ⟨hkeeps, hidle, hk⟩ := hsome rfl drained
    exact ⟨_, hkeeps.fresh, leaderEffect_of_keeps hv (hmove _).1 (hmove _).2 nofun hkeeps
      (fun _ hr => hr) fun _ hstate => absurd hidle hstate, fun v' _ => hk v'⟩
  · rw [run_begin, NodeSafe.begin_installed hv.stands] at hrun
    obtain rfl := Option.some.inj hrun
    exact ⟨_, hnone.1.fresh, leaderEffect_of_keeps hv (hv.nodeSafe.quiet _ _)
      (hv.stands.quiet (e := .beginHandoff) nofun _) nofun hnone.1 (fun _ hr => hr)
      fun hon _ => hon, fun v' _ => hnone.2 v'⟩

/-- Aborting before anything is committed. -/
theorem leader_abort {k : Reply .abortHandoff → Prog Impl Reply Unit} {total : ℕ}
    (hΓ : Lasting K g Γ) (h : Stand K g K.leader c s Γ v)
    (hs : s = .held total ∨ ∃ term, s = .voted term total) (hstate : c.state ≠ .leaderCommitting)
    (hfresh : ((k ()).stateWith next).fresh = c.fresh)
    (hk : ∀ v', Stand K g K.leader ((k ()).stateWith next) .peak Γ v' →
      (setting K g K.leader).Safe next Q (k ()) v') :
    (setting K g K.leader).Safe next Q (.op c .abortHandoff k) v := by
  refine leader_op (B := fun _ => True) hΓ h trivial (fun h _ => h) nofun
    fun v hv _ oracle result hrun _ => ?_
  obtain rfl := Option.some.inj hrun
  have hheld : (v.nodes K.leader).Drained total ∧ (v.nodes K.leader).Uncommitted := by
    rcases hs with rfl | ⟨term, rfl⟩
    · exact ⟨hv.stands.1, hv.stands.2.1⟩
    · exact ⟨hv.stands.1, hv.stands.2.1⟩
  obtain ⟨hmove, hstands⟩ := hv.nodeSafe.abort hheld.1 hheld.2 ((k ()).stateWith next)
  exact ⟨_, hfresh, leaderEffect_of_released hv hmove hstands nofun hstands.2.1 hstands.1 hstate,
    fun v' _ => hk v'⟩

/-- Clearing the journal. -/
theorem leader_store_idle {record : JournalRecord}
    {k : Reply (.store record) → Prog Impl Reply Unit} (hΓ : Lasting K g Γ)
    (h : Stand K g K.leader c .peak Γ v) (hphase : record.phase = .idle)
    (hstate : c.state ≠ .leaderCommitting)
    (hfresh : ∀ stored : Bool, ((k stored).stateWith next).fresh = c.fresh)
    (hk : ∀ (stored : Bool) v', Stand K g K.leader ((k stored).stateWith next) .peak Γ v' →
      (setting K g K.leader).Safe next Q (k stored) v') :
    (setting K g K.leader).Safe next Q (.op c (.store record) k) v := by
  refine leader_op (B := fun _ => True) hΓ h trivial (fun h _ => h) nofun
    fun v hv _ oracle result hrun _ => ?_
  obtain rfl := Option.some.inj hrun
  obtain ⟨hmove, hstands⟩ := hv.nodeSafe.store_idle oracle.store hv.stands hphase
    ((k oracle.store.reported).stateWith next)
  exact ⟨_, hfresh _, leaderEffect_of_released hv hmove hstands nofun hstands.2.1 hstands.1 hstate,
    fun v' _ => hk _ v'⟩

/-- Storing the leader's own vote: from here on the leader holds the term. -/
theorem leader_store_prepared {record : JournalRecord}
    {k : Reply (.store record) → Prog Impl Reply Unit} {total : ℕ} (hΓ : Lasting K g Γ)
    (h : Stand K g K.leader c (.held total) Γ v) (hphase : record.phase = .prepared)
    (htotal : record.total = total) (hpos : 0 < record.term)
    (hbelow : g → ∀ p ∈ v.net, p.frame.term < record.term) (hidle : c.state = .idle)
    (hk : ∀ stored : Bool, ((k stored).stateWith next).fresh = c.fresh ∧
      (((k stored).stateWith next).state ≠ .idle →
        ((k stored).stateWith next).activeTerm = record.term) ∧
      ∀ v', Stand K g K.leader ((k stored).stateWith next)
        (if stored then .voted record.term total else .held total) Γ v' →
        (setting K g K.leader).Safe next Q (k stored) v') :
    (setting K g K.leader).Safe next Q (.op c (.store record) k) v := by
  refine leader_op (B := fun v => g → ∀ p ∈ v.net, p.frame.term < record.term) hΓ h hbelow
    (fun hB hr hg => hr.bounded rfl _ hpos (hB hg)) nofun
    fun v hv hbelow oracle result hrun _ => ?_
  obtain rfl := Option.some.inj hrun
  obtain ⟨hfresh, hterm, hsafe⟩ := hk oracle.store.reported
  obtain ⟨hmove, hstands⟩ := hv.nodeSafe.store_prepared oracle.store hv.stands hphase
    htotal ((k oracle.store.reported).stateWith next)
  have huncommitted : ∀ r, ¬ ((v.nodes K.leader).after (.store record) (v.nodes K.leader).engine
      (oracle.store.file (v.nodes K.leader).journal record)
      ((k oracle.store.reported).stateWith next)).committed r := by
    intro r hr
    rcases committed_store hr with hold | ⟨-, hcommitted⟩
    · exact hv.stands.2.1 r hold
    · exact absurd (hphase.symm.trans hcommitted) nofun
  refine ⟨_, hfresh, ⟨hmove, hstands, nofun, fun r hr => absurd hr (huncommitted r), ?_,
    fun _ r hr => absurd hr (huncommitted r), ?_⟩, fun v' _ => hsafe v'⟩
  · rintro hg term (⟨hstate, rfl, -⟩ | ⟨r, hr, -⟩)
    · exact .inr (hterm hstate ▸ hbelow hg)
    · exact absurd hr (huncommitted r)
  · intro hc
    rw [hv.impl.state, hidle] at hc
    exact absurd hc nofun

/-- A poll that has as many reports as there are members has them all. -/
private theorem Polled.all {prepared : List (ℕ × DrainedPeakState)} {term total : ℕ}
    (h : Polled K prepared term total v) (hlength : prepared.length = K.ids.length) (m : ℕ) :
    m ∈ prepared.map Prod.fst ↔ m ∈ K.ids := by
  have hperm : (prepared.map Prod.fst).Perm K.ids :=
    (h.nodup.subperm h.members).perm_of_length_le (by rw [List.length_map, hlength])
  exact hperm.mem_iff

/-- Storing the decision: the sum of the reports of all members. -/
theorem leader_store_committed (record : JournalRecord)
    {k : Reply (.store record) → Prog Impl Reply Unit} {total : ℕ}
    (h : Stand K g K.leader c (.voted record.term total)
      (Polled K c.prepared record.term total) v)
    (hphase : record.phase = .committed) (hpos : 1 ≤ record.term) (hlimit : record.total ≤ K.limit)
    (howner : record.strictOwner = K.owner) (hlength : c.prepared.length = K.ids.length)
    (hsum : record.total = (c.prepared.map (·.2.componentTotal)).sum)
    (hstate : c.state = .leaderPreparing) (hterm : c.activeTerm = record.term)
    (hk : ∀ stored : Bool, Keeps c ((k stored).stateWith next) ∧
      ∀ v', Stand K g K.leader ((k stored).stateWith next)
        (if stored then .decided total record.onDisk else .deciding record.term total)
        (fun _ => True) v' → (setting K g K.leader).Safe next Q (k stored) v') :
    (setting K g K.leader).Safe next Q (.op c (.store record) k) v := by
  refine leader_op (B := fun _ => True) lasting_polled h trivial (fun h _ => h) nofun
    fun v hv _ oracle result hrun _ => ?_
  obtain rfl := Option.some.inj hrun
  obtain ⟨hkeeps, hsafe⟩ := hk oracle.store.reported
  obtain ⟨hmove, hstands⟩ := hv.nodeSafe.store_committed oracle.store
    hv.stands.deciding_of_voted hphase (fun r hr => absurd hr (hv.stands.2.1 r))
    ((k oracle.store.reported).stateWith next)
  set n' := (v.nodes K.leader).after (.store record) (v.nodes K.leader).engine
    (oracle.store.file (v.nodes K.leader).journal record)
    ((k oracle.store.reported).stateWith next) with hn'
  -- the journal was not committed before, so what is committed now is this record
  have honly : ∀ r, n'.committed r → record.onDisk = r := fun r hr =>
    ((committed_store hr).resolve_left (hv.stands.2.1 r)).1
  have hprepared : n'.impl.prepared = c.prepared := hkeeps.prepared
  refine ⟨_, hkeeps.fresh, ⟨hmove, hstands, nofun, ?_, ?_, ?_, ?_⟩,
    fun v' _ hv' => hsafe v' (hv'.weaken id fun _ => trivial)⟩
  · intro r hr
    obtain rfl := honly r hr
    exact ⟨hpos, hlimit, howner, rfl⟩
  · rintro - term hh
    have hheld : term = record.term := by
      rcases hh with ⟨hst, rfl, -⟩ | ⟨r, hr, rfl⟩
      · exact (hkeeps.active hst).2.trans hterm
      · rw [← honly r hr]
        rfl
    rw [hheld]
    refine .inl (.inl ⟨?_, ?_, hv.stands.1.1.active⟩)
    · rw [hv.impl.state, hstate]
      nofun
    · rw [hv.impl.activeTerm, hterm]
  · intro _ r hr
    obtain rfl := honly r hr
    -- what is decided is the sum of the reports of all members
    constructor
    case up => rw [View.set_nodes_self]; exact hmove.up
    case quiet => rw [View.set_nodes_self]; exact hmove.frozen _ hr
    case nodup => rw [View.set_nodes_self, hprepared]; exact hv.context.nodup
    case all => rw [View.set_nodes_self, hprepared]; exact hv.context.all hlength
    case total => rw [View.set_nodes_self, hprepared]; exact hsum
    case own =>
      rw [View.set_nodes_self, hprepared, hmove.used, hv.stands.1.2]
      exact hv.context.own
    case reports =>
      rw [View.set_nodes_self, hprepared]
      intro report hreport hne
      obtain ⟨frame, hs, hframe⟩ := hv.context.reports report hreport hne
      exact ⟨frame, View.sent_set.mpr (.inr hs), hframe⟩
  · intro hc
    rw [hv.impl.state, hstate] at hc
    exact absurd hc nofun

/-- Installing the decision. -/
theorem leader_commit (record : JournalRecord) {total : ℕ}
    {k : Reply (.commitHandoff record.total (K.leader == K.owner)) → Prog Impl Reply Unit}
    (hΓ : Lasting K g Γ) (h : Stand K g K.leader c (.decided total record) Γ v)
    (hkeeps : Keeps c ((k true).stateWith next))
    (hk : ∀ v', Stand K g K.leader ((k true).stateWith next) (.installed record) Γ v' →
      (setting K g K.leader).Safe next Q (k true) v') :
    (setting K g K.leader).Safe next Q
      (.op c (.commitHandoff record.total (K.leader == K.owner)) k) v := by
  refine leader_op (B := fun _ => True) hΓ h trivial (fun h _ => h) nofun
    fun v hv _ oracle result hrun _ => ?_
  obtain ⟨engine, heq, hmove⟩ := hv.nodeSafe.commit hv.configured.running hv.stands
    (hv.cluster.record record hv.stands.2.2).2.1
  rw [run_commit, heq] at hrun
  obtain rfl := Option.some.inj hrun
  exact ⟨_, hkeeps.fresh, leaderEffect_of_keeps hv (hmove _).1 (hmove _).2 nofun hkeeps
    (fun _ hr => hr) fun hon _ => absurd ((hmove _).2.1.symm.trans hon) nofun, fun v' _ => hk v'⟩

end Rules

/-! ### Broadcasts -/

section Sends

variable {next : Impl → Unit → Impl} {Q : Impl → Unit → View → Prop}
  {type : WireType} {term counter epoch value : ℕ}

/-- Sending a frame to a list of peers. The state after the last frame may look different. -/
private theorem leader_sendEach (hΓ : Lasting K g Γ)
    (hframe : ∀ c' destination v, c' = c ∨ c' = next c () → Stand K g K.leader c s Γ v →
      LeaderFrame g ((v.nodes K.leader).after
        (.send destination (c.frame type term counter epoch value)) (v.nodes K.leader).engine
        (v.nodes K.leader).journal c') (c.frame type term counter epoch value))
    (hnext : Keeps c (next c ()) ∨
      s = .peak ∧ (next c ()).fresh = c.fresh ∧ c.state ≠ .leaderCommitting)
    (hQ : ∀ v', Stand K g K.leader (next c ()) s Γ v' →
      (setting K g K.leader).Safe next Q (.ret c ()) v') :
    ∀ (peer : ℕ × Endpoint) (peers : List (ℕ × Endpoint)) {v : View},
      Stand K g K.leader c s Γ v → (setting K g K.leader).Safe next Q
        (Impl.sendEach type term counter epoch value (peer :: peers) c) v
  | peer, [], v, h => by
    refine leader_send hΓ h (fun v hv => hframe _ _ v (.inr rfl) hv) hnext fun v hv => hQ v hv
  | peer, peer' :: peers, v, h => by
    refine leader_send hΓ h (fun v hv => hframe _ _ v (.inl rfl) hv) (.inl (.of_same (.refl c)))
      fun v hv => ?_
    exact leader_sendEach hΓ hframe hnext hQ peer' peers hv

end Sends

section Frames

variable {c' : Impl} {e : Effect} {total counter epoch value : ℕ}

private theorem frame_prepare (h : Stand K g K.leader c (.voted c.activeTerm total) Γ v)
    (hc : c'.Same c) :
    LeaderFrame g ((v.nodes K.leader).after e (v.nodes K.leader).engine
      (v.nodes K.leader).journal c') (c.frame .prepare c.activeTerm counter epoch value) where
  type := .inl rfl
  commit := nofun
  abort := nofun
  newest := by
    rintro - term (⟨-, hterm, -⟩ | ⟨r, hr, -⟩)
    · exact (hc.activeTerm.symm.trans hterm).le
    · exact absurd hr (h.stands.2.1 r)

private theorem frame_abort {term : ℕ} (h : Stand K g K.leader c .peak Γ v) :
    LeaderFrame g ((v.nodes K.leader).after e (v.nodes K.leader).engine
      (v.nodes K.leader).journal c') (c.frame .abort term counter epoch value) := by
  have hnone : ∀ term, ¬ ((v.nodes K.leader).after e (v.nodes K.leader).engine
      (v.nodes K.leader).journal c').holds term := by
    rintro term (⟨-, -, hactive⟩ | ⟨r, hr, -⟩)
    · exact absurd (h.stands.1.symm.trans hactive) nofun
    · exact h.stands.2.1 r hr
  exact ⟨.inr (.inr rfl), nofun, fun _ _ => hnone _, fun _ term hh => absurd hh (hnone term)⟩

private theorem frame_commit {record : JournalRecord}
    (h : Stand K g K.leader c (.installed record) Γ v) (hcounter : counter = record.state.counter)
    (hepoch : epoch = record.state.epoch) (hvalue : value = record.total) :
    LeaderFrame g ((v.nodes K.leader).after e (v.nodes K.leader).engine
      (v.nodes K.leader).journal c') (c.frame .commit record.term counter epoch value) where
  type := .inr (.inl rfl)
  commit := fun _ => ⟨record, h.stands.2.1, rfl, hcounter, hepoch, hvalue⟩
  abort := nofun
  newest := by
    rintro - term (⟨-, -, hactive⟩ | ⟨r, hr, rfl⟩)
    · exact absurd (h.stands.1.symm.trans hactive) nofun
    · rw [committed_unique hr h.stands.2.1]
      exact le_rfl

end Frames

/-! ### Preparing and aborting -/

/-- An announced abort, written out. -/
private theorem abortPrepare_announced (hstate : c.state = .leaderPreparing)
    (hleader : c.isLeader = true) :
    Impl.abortPrepare true c = .op c .abortHandoff fun _ =>
      .op c (.store ⟨.idle, 0, {}, 0, c.config.strictOwnerComponentId⟩) fun _ =>
        (Impl.sendEach .abort c.activeTerm 0 0 0 c.peers c).bind fun c _ => .ret c.cleared () := by
  unfold Impl.abortPrepare
  simp only [Script.bind_apply, Script.get_apply, Prog.ret_bind, if_pos (Or.inl hstate), hleader,
    Bool.and_self, if_true]
  rfl

theorem leader_abortPrepare {announce : Bool} {total : ℕ} (hΓ : Lasting K g Γ)
    (h : Stand K g K.leader c (.voted c.activeTerm total) Γ v) (hstate : c.state = .leaderPreparing)
    (hlast : c.lastCommittedTerm = 0) :
    RunsToRest K g K.leader (Impl.abortPrepare announce c) v := by
  have hnot : c.state ≠ .leaderCommitting := by simp [hstate]
  have hend : ∀ v, Stand K g K.leader c.cleared .peak Γ v →
      RunsToRest K g K.leader (.ret c.cleared ()) v := fun v hv =>
    RunsToRest.ret (.peak rfl hlast (hv.weaken id fun _ => trivial))
  cases announce with
  | false =>
    unfold Impl.abortPrepare
    simp only [Script.bind_apply, Script.get_apply, Prog.ret_bind, if_pos (Or.inl hstate)]
    refine leader_abort hΓ h (.inr ⟨_, rfl⟩) hnot rfl fun v hv => ?_
    exact leader_store_idle hΓ hv rfl hnot (fun _ => rfl) fun _ v hv => hend v hv
  | true =>
    rw [abortPrepare_announced hstate (h.configured.isLeader.mpr rfl)]
    refine leader_abort hΓ h (.inr ⟨_, rfl⟩) hnot rfl fun v hv => ?_
    cases c.peers with
    | nil => exact leader_store_idle hΓ hv rfl hnot (fun _ => rfl) fun _ v hv => hend v hv
    | cons peer peers =>
      refine leader_store_idle hΓ hv rfl hnot (fun _ => rfl) fun _ v hv => ?_
      refine Setting.Safe.bind (leader_sendEach hΓ (fun c' _ v _ hv => frame_abort hv)
        (.inr ⟨rfl, rfl, hnot⟩) (fun v hv => ?_) peer peers hv)
      exact Setting.Safe.ret hv (fun hv hr => hv.rely hΓ hr) hend

private theorem one_le_termAfter (term : ℕ) : 1 ≤ Impl.termAfter term := by
  unfold Impl.termAfter
  split
  · rename_i h
    rw [h]
    decide
  · omega

private theorem same_beginLeaderPrepare {next : Impl → Unit → Impl} (hnext : (next c ()).Same c) :
    ((Impl.beginLeaderPrepare c).stateWith next).Same c := by
  unfold Impl.beginLeaderPrepare
  simp only [Script.bind_apply, Script.get_apply, Script.ite_apply, Prog.ret_bind]
  split
  · exact hnext
  · exact .refl c

/-- The leader draws a term, journals its own vote and starts to collect reports. -/
private theorem leader_beginLeaderPrepare {next : Impl → Unit → Impl}
    {Q : Impl → Unit → View → Prop} (hs : Ready c s)
    (h : Stand K g K.leader c s (fun _ => True) v)
    (hidle : ∀ c', c'.state = .idle → (next c' ()).Same c')
    (hpolling : ∀ c' drained, c'.state = .leaderPreparing →
      c'.prepared = [(c'.config.componentId, drained)] → (next c' ()).Same c')
    (hready : ∀ c' v', Ready c' s → Stand K g K.leader c' s (fun _ => True) v' → Q c' () v')
    (hpoll : ∀ c' drained v', c'.state = .leaderPreparing →
      c'.prepared = [(c'.config.componentId, drained)] → 1 ≤ c'.activeTerm →
      c'.lastCommittedTerm = 0 →
      Stand K g K.leader c' (.voted c'.activeTerm drained.componentTotal) (fun _ => True) v' →
      Q c' () v') :
    (setting K g K.leader).Safe next Q (Impl.beginLeaderPrepare c) v := by
  have hleader : c.isLeader = true := h.configured.isLeader.mpr rfl
  unfold Impl.beginLeaderPrepare
  simp only [Script.bind_apply, Script.get_apply, Script.ite_apply, Prog.ret_bind, hleader, hs.1,
    Bool.not_true, ne_eq, not_true_eq_false, decide_false, Bool.or_self, Bool.false_eq_true,
    if_false]
  have hidle' := hs.1
  refine leader_begin lasting_true h hs.stance ?_ fun hpeak drained => ?_
  · exact ⟨.of_same (hidle c hs.1), fun v hv =>
      (hv.same (hidle c hs.1)).ret lasting_true fun v' => hready c v' hs⟩
  refine ⟨.of_same (.refl c), hs.1, fun v hv => ?_⟩
  obtain ⟨-, ⟨rfl, hlast⟩ | ⟨r, rfl, -⟩⟩ := hs
  swap
  · exact absurd hpeak nofun
  refine leader_draw lasting_true hv hidle' fun now =>
    ⟨⟨rfl, rfl, fun h => absurd hidle' h, fun h => absurd (hidle'.symm.trans h) nofun⟩,
      fun v hv hbelow => ?_⟩
  have hnow : now ≤ c.nextTerm now := le_max_right _ _
  have hpos : 1 ≤ c.nextTerm now :=
    ((one_le_termAfter _).trans (le_max_left _ _)).trans (le_max_left _ _)
  refine leader_store_prepared lasting_true hv rfl rfl hpos
    (fun hg p hp => (hbelow hg p hp).trans_le hnow) hidle' fun stored => ?_
  cases stored with
  | true =>
    refine ⟨rfl, fun _ => rfl, fun v hv => ?_⟩
    refine leader_read (.inl rfl) lasting_true hv fun started =>
      ⟨_, hpolling _ drained rfl rfl, ⟨rfl, rfl, fun _ => ⟨nofun, rfl⟩, nofun⟩, fun v hv => ?_⟩
    exact hv.ret lasting_true fun v' hv' => hpoll _ drained v' rfl rfl hpos hlast hv'
  | false =>
    refine ⟨rfl, fun h => absurd hidle' h, fun v hv => ?_⟩
    have hsame := hidle { c with activeTerm := 0 } hidle'
    refine leader_abort lasting_true hv (.inl rfl) (by simp [hidle']) hsame.fresh fun v hv => ?_
    exact (hv.same hsame).ret lasting_true fun v' =>
      hready _ v' ⟨hidle', .inl ⟨rfl, hlast⟩⟩

/-! ### Deciding -/

private theorem sumPrepared_eq {leader : DrainedPeakState} :
    ∀ {reports : List (ℕ × DrainedPeakState)} {start total : ℕ},
      Impl.sumPrepared leader start reports = some total →
        total = start + (reports.map (·.2.componentTotal)).sum
  | [], start, total, h => by
    obtain rfl := Option.some.inj h
    rfl
  | report :: reports, start, total, h => by
    simp only [Impl.sumPrepared] at h
    split at h
    · exact absurd h nofun
    · rw [sumPrepared_eq h, List.map_cons, List.sum_cons, Nat.add_assoc]

/-- The leader's own report is among those collected. -/
private theorem Polled.lookup {prepared : List (ℕ × DrainedPeakState)} {term total : ℕ}
    (h : Polled K prepared term total v) : ∃ found, prepared.lookup K.leader = some found := by
  obtain ⟨found, -, hfound⟩ := exists_lookup h.self
  exact ⟨found, hfound⟩

private theorem state_tryBeginCommit {found : DrainedPeakState}
    (hstate : c.state = .leaderPreparing)
    (hlookup : c.prepared.lookup c.config.componentId = some found) :
    (Impl.tryBeginCommit c).state = c := by
  have habort : (Impl.abortPrepare true c).state = c := state_abortPrepare (.inl hstate)
  unfold Impl.tryBeginCommit
  simp only [Script.bind_apply, Script.get_apply, Script.ite_apply, Prog.ret_bind,
    Impl.preparedAt_apply hlookup]
  split
  · rfl
  cases Impl.sumPrepared found 0 c.prepared with
  | none => exact habort
  | some sum =>
    simp only [Script.ite_apply]
    split
    · exact habort
    · rfl

theorem leader_tryBeginCommit {total : ℕ} (hstate : c.state = .leaderPreparing)
    (hlast : c.lastCommittedTerm = 0) (hpos : 1 ≤ c.activeTerm)
    (h : Stand K g K.leader c (.voted c.activeTerm total)
      (Polled K c.prepared c.activeTerm total) v) :
    RunsToRest K g K.leader (Impl.tryBeginCommit c) v := by
  obtain ⟨leaderState, hlookup⟩ := h.context.lookup
  rw [← h.configured.componentId] at hlookup
  have habort : RunsToRest K g K.leader (Impl.abortPrepare true c) v :=
    leader_abortPrepare lasting_polled h hstate hlast
  unfold Impl.tryBeginCommit
  simp only [Script.bind_apply, Script.get_apply, Script.ite_apply, Prog.ret_bind,
    Impl.preparedAt_apply hlookup, h.configured.isOwner]
  split
  · exact RunsToRest.ret (.polling total hstate rfl hlast hpos h)
  rename_i hall
  have hlength : c.prepared.length = K.ids.length := by
    rw [← h.configured.members]
    simpa [hstate, Impl.allPrepared] using hall
  cases hsum : Impl.sumPrepared leaderState 0 c.prepared with
  | none => exact habort
  | some sum =>
    simp only [Script.ite_apply]
    split
    · exact habort
    rename_i hlimit
    have hlimit' : sum ≤ K.limit := by
      rw [← h.configured.member.limit, ← h.configured.engine]
      omega
    refine leader_store_committed ⟨.committed, c.activeTerm, leaderState, sum,
      c.config.strictOwnerComponentId⟩ h rfl hpos hlimit' h.configured.owner hlength
      ((sumPrepared_eq hsum).trans (Nat.zero_add _)) hstate rfl fun stored => ?_
    have hbusy : c.state ≠ .idle ∧ c.state ≠ .leaderCommitting := by simp [hstate]
    cases stored with
    | false =>
      refine ⟨⟨rfl, rfl, fun _ => ⟨hbusy.1, rfl⟩, fun h => absurd h hbusy.2⟩, fun v hv => ?_⟩
      exact RunsToRest.ret (.blocked total rfl rfl hv)
    | true =>
      refine ⟨⟨rfl, rfl, fun _ => ⟨hbusy.1, rfl⟩, fun h => absurd h hbusy.2⟩, fun v hv => ?_⟩
      refine leader_commit (JournalRecord.onDisk ⟨.committed, c.activeTerm, leaderState,
        sum, c.config.strictOwnerComponentId⟩) lasting_true hv
        ⟨rfl, rfl, fun _ => ⟨hbusy.1, rfl⟩, fun _ => rfl⟩ fun v hv => RunsToRest.ret ?_
      refine .committing _ rfl rfl rfl rfl rfl rfl ?_ ?_ (hv.weaken id fun _ => ?_)
      · exact List.nodup_singleton _
      · intro m hm
        rw [List.mem_singleton.mp hm, ← h.configured.members, h.configured.componentId]
        exact h.configured.self_mem
      · intro m hm hne
        exact absurd ((List.mem_singleton.mp hm).trans h.configured.componentId) hne

/-! ### Frames -/

/-- A report received for the term is recorded. -/
private theorem Polled.assign {prepared : List (ℕ × DrainedPeakState)} {term total : ℕ}
    {frame : Frame} (h : Polled K prepared term total v) (hsent : v.sent frame)
    (htype : frame.type = .prepared) (hterm : frame.term = term) (hmember : frame.sender ∈ K.ids)
    (hsender : frame.sender ≠ K.leader) :
    Polled K (Impl.assign frame.sender ⟨frame.counter, frame.epoch, frame.value⟩ prepared) term
      total v := by
  have hkeys := Impl.map_fst_assign frame.sender ⟨frame.counter, frame.epoch, frame.value⟩ prepared
  constructor
  case nodup => exact Impl.nodup_assign h.nodup
  case members =>
    rw [hkeys]
    intro m hm
    split at hm
    · exact h.members m hm
    · rcases List.mem_append.mp hm with hm | hm
      · exact h.members m hm
      · exact List.mem_singleton.mp hm ▸ hmember
  case self =>
    rw [hkeys]
    split
    · exact h.self
    · exact List.mem_append_left _ h.self
  case own =>
    intro report hreport hown
    rcases (Impl.mem_assign h.nodup).mp hreport with rfl | ⟨hold, -⟩
    · exact absurd hown hsender
    · exact h.own report hold hown
  case reports =>
    intro report hreport hne
    rcases (Impl.mem_assign h.nodup).mp hreport with rfl | ⟨hold, -⟩
    · exact ⟨frame, hsent, htype, rfl, hterm, rfl⟩
    · exact h.reports report hold hne

theorem leader_handlePrepared {frame : Frame} (h : Rest K g K.leader c v) (hsent : v.sent frame)
    (htype : frame.type = .prepared) (hmember : frame.sender ∈ K.ids)
    (hsender : frame.sender ≠ K.leader) :
    Starts K g K.leader (Impl.handlePrepared frame c) v := by
  have hrest : Starts K g K.leader (.ret c ()) v := (Continues.ret h).starts h.cluster h.up
  unfold Impl.handlePrepared
  simp only [Script.bind_apply, Script.get_apply, Script.ite_apply, Prog.ret_bind]
  split
  · exact hrest
  rename_i hguard
  simp only [h.configured.isLeader.mpr rfl, Bool.not_true, Bool.false_or, Bool.or_eq_true,
    decide_eq_true_eq, not_or, not_not] at hguard
  obtain ⟨hstate, hterm⟩ := hguard
  cases h with
  | polling total state leader last pos stand =>
    have hpolled := stand.context.assign hsent htype hterm hmember hsender
    obtain ⟨found, hfound⟩ := hpolled.lookup
    rw [← stand.configured.componentId] at hfound
    have hlabel := state_tryBeginCommit (c := { c with
      prepared := Impl.assign frame.sender ⟨frame.counter, frame.epoch, frame.value⟩ c.prepared })
      state hfound
    change Starts K g K.leader (Impl.tryBeginCommit { c with
      prepared := Impl.assign frame.sender ⟨frame.counter, frame.epoch, frame.value⟩
        c.prepared }) v
    refine (stand.weaken id fun _ => hpolled).starts lasting_polled (by rw [hlabel]; rfl)
      (fun _ => ⟨fun _ _ => ?_, fun r hr => absurd hr (stand.stands.2.1 r)⟩) fun v hv => ?_
    · rw [hlabel]
      exact ⟨by simp [state], rfl⟩
    · rw [hlabel] at hv
      exact leader_tryBeginCommit state last pos hv
  | _ => simp_all

theorem leader_handleCommitAck {frame : Frame} (h : Rest K g K.leader c v) (hsent : v.sent frame)
    (htype : frame.type = .commitAck) (hmember : frame.sender ∈ K.ids) :
    Starts K g K.leader (Impl.handleCommitAck frame c) v := by
  have hrest : Starts K g K.leader (.ret c ()) v := (Continues.ret h).starts h.cluster h.up
  unfold Impl.handleCommitAck
  simp only [Script.bind_apply, Script.get_apply, Script.ite_apply, Script.modify_apply,
    Prog.ret_bind]
  split
  · exact hrest
  rename_i hguard
  simp only [h.configured.isLeader.mpr rfl, Bool.not_true, Bool.false_or, Bool.or_eq_true,
    decide_eq_true_eq, not_or, not_not] at hguard
  obtain ⟨hstate, hterm⟩ := hguard
  cases h with
  | committing r state leader term counter epoch total nodup members stand =>
    have hactive : (v.nodes K.leader).engine.distributedHandoffActive ≠ true := by
      simp [stand.stands.1]
    have hacked : Acked K (c.commitAcks.insert frame.sender) r.term v := by
      intro m hm hne
      rcases List.mem_insert_iff.mp hm with rfl | hm
      · exact ⟨frame, hsent, htype, rfl, hterm.trans term⟩
      · exact stand.context m hm hne
    split
    · -- the last acknowledgement
      refine stand.starts lasting_acked rfl
        (fun _ => ⟨fun hon => absurd hon hactive, fun _ _ => rfl⟩) fun v hv => RunsToRest.ret ?_
      exact .installed r rfl term (hv.weaken id fun _ => trivial)
    · refine (stand.weaken id fun _ => hacked).starts lasting_acked rfl
        (fun _ => ⟨fun hon => absurd hon hactive, fun _ _ => rfl⟩) fun v hv => RunsToRest.ret ?_
      refine .committing r state rfl term counter epoch total nodup.insert ?_ hv
      intro m hm
      rcases List.mem_insert_iff.mp hm with rfl | hm
      · exact hmember
      · exact members m hm
  | _ => simp_all

/-- A leader that has only its own report. -/
private theorem polled_own {drained : DrainedPeakState} {term : ℕ} (hself : K.leader ∈ K.ids) :
    Polled K [(K.leader, drained)] term drained.componentTotal v where
  nodup := List.nodup_singleton _
  members := fun _ hm => List.mem_singleton.mp hm ▸ hself
  self := List.mem_singleton.mpr rfl
  own := fun _ hreport _ => by rw [List.mem_singleton.mp hreport]
  reports := fun _ hreport hne => absurd (by rw [List.mem_singleton.mp hreport]) hne

private theorem stand_of_own {drained : DrainedPeakState}
    (prepared : c.prepared = [(c.config.componentId, drained)])
    (h : Stand K g K.leader c (.voted c.activeTerm drained.componentTotal) (fun _ => True) v) :
    Stand K g K.leader c (.voted c.activeTerm drained.componentTotal)
      (Polled K c.prepared c.activeTerm drained.componentTotal) v := by
  refine h.weaken id fun _ => ?_
  rw [prepared, h.configured.componentId]
  exact polled_own (h.configured.members ▸ h.configured.self_mem)

/-- A trigger starts a round if the leader is idle. -/
private theorem leader_handleTrigger (h : Rest K g K.leader c v)
    (hfence : c.recoveryFenced = false) :
    Continues K g K.leader (Impl.beginLeaderPrepare c) v := by
  have hready : ∀ {s}, Ready c s → Stand K g K.leader c s (fun _ => True) v →
      Continues K g K.leader (Impl.beginLeaderPrepare c) v := by
    intro s hs hv
    refine ⟨?_, leader_beginLeaderPrepare hs hv (fun c _ => .refl c) (fun c _ _ _ => .refl c)
      (fun c v hs hv => hs.rest hv) fun c drained v state prepared pos last hv =>
        .polling _ state rfl last pos (stand_of_own prepared hv)⟩
    exact hv.impl.trans (same_beginLeaderPrepare (.refl c)).symm
  by_cases hidle : c.state = .idle
  swap
  · rw [show Impl.beginLeaderPrepare c = .ret c () by
      unfold Impl.beginLeaderPrepare
      simp only [Script.bind_apply, Script.get_apply, Script.ite_apply, Prog.ret_bind]
      rw [if_pos (by simp [hidle])]
      rfl]
    exact Continues.ret h
  cases h with
  | fenced _ fence => exact absurd (hfence.symm.trans fence) nofun
  | peak state last stand => exact hready ⟨state, .inl ⟨rfl, last⟩⟩ stand
  | installed r state last stand => exact hready ⟨state, .inr ⟨r, rfl, last⟩⟩ stand
  | _ => simp_all

theorem leader_handleFrame {frame : Frame} {source : Endpoint} (h : Rest K g K.leader c v)
    (hsent : v.sent frame) : Starts K g K.leader (Impl.handleFrame frame source c) v := by
  have hrest : Starts K g K.leader (.ret c ()) v := (Continues.ret h).starts h.cluster h.up
  unfold Impl.handleFrame
  simp only [Script.bind_apply, Script.get_apply, Script.ite_apply, Prog.ret_bind]
  split
  · exact hrest
  rename_i hfence
  split
  · exact hrest
  rename_i hguard
  split
  · exact hrest
  rw [h.configured.componentId] at hguard
  have hsender : frame.sender ≠ K.leader := fun heq => hguard (.inl heq)
  have hmember : frame.sender ∈ K.ids := by
    rw [← h.configured.members]
    simpa [Impl.isMember] using fun hnot => hguard (.inr hnot)
  cases htype : frame.type with
  | trigger =>
    simp only [Script.ite_apply, h.configured.isLeader.mpr rfl, if_true]
    exact (leader_handleTrigger h (by simpa using hfence)).starts h.cluster h.up
  | prepare =>
    dsimp only
    unfold Impl.handlePrepare
    simp only [Script.bind_apply, Script.get_apply, Prog.ret_bind, h.configured.leader]
    rw [if_pos (.inl hsender)]
    exact hrest
  | prepared => exact leader_handlePrepared h hsent htype hmember hsender
  | commit =>
    dsimp only
    unfold Impl.handleCommit
    simp only [Script.bind_apply, Script.get_apply, Prog.ret_bind, h.configured.leader]
    rw [if_pos (.inl hsender)]
    exact hrest
  | commitAck => exact leader_handleCommitAck h hsent htype hmember
  | abort =>
    dsimp only
    unfold Impl.handleAbort
    simp only [Script.bind_apply, Script.get_apply, Prog.ret_bind, h.configured.leader]
    rw [if_neg fun hguard => hsender hguard.1]
    exact hrest

/-! ### Ticks -/

private theorem same_retryPhase {now : ℕ} (found : DrainedPeakState)
    (hstate : c.state = .leaderPreparing)
    (hlookup : c.prepared.lookup c.config.componentId = some found) :
    ((Impl.retryPhase now c).stateWith fun c _ => c).Same c := by
  unfold Impl.retryPhase
  simp only [Script.bind_apply, Script.get_apply, Script.ite_apply, Prog.ret_bind, hstate, if_true,
    Impl.preparedAt_apply hlookup]
  split
  · rw [state_abortPrepare (.inl hstate)]
    exact .refl c
  split
  swap
  · exact .refl c
  rw [Prog.stateWith_bind]
  unfold Impl.broadcast
  simp only [Script.bind_apply, Script.get_apply, Prog.ret_bind]
  cases c.peers with
  | nil => exact ⟨rfl, rfl, rfl, rfl⟩
  | cons peer peers => exact .refl c

/-- A tick of a leader that collects reports: it gives up at the deadline and asks again before. -/
private theorem leader_retryPhase_polling {now total : ℕ} (state : c.state = .leaderPreparing)
    (last : c.lastCommittedTerm = 0) (pos : 1 ≤ c.activeTerm)
    (stand : Stand K g K.leader c (.voted c.activeTerm total)
      (Polled K c.prepared c.activeTerm total) v) :
    RunsToRest K g K.leader (Impl.retryPhase now c) v := by
  obtain ⟨found, hlookup⟩ := stand.context.lookup
  rw [← stand.configured.componentId] at hlookup
  have hsame : ({ c with nextRetry := now + c.config.retryAfter } : Impl).Same c :=
    ⟨rfl, rfl, rfl, rfl⟩
  have hend : ∀ v, Stand K g K.leader c (.voted c.activeTerm total)
      (Polled K c.prepared c.activeTerm total) v →
      RunsToRest K g K.leader (.ret { c with nextRetry := now + c.config.retryAfter } ()) v :=
    fun v hv => RunsToRest.ret (.polling total state rfl last pos (hv.same hsame.symm))
  unfold Impl.retryPhase
  simp only [Script.bind_apply, Script.get_apply, Script.ite_apply, Prog.ret_bind, state, if_true,
    Impl.preparedAt_apply hlookup]
  split
  · exact leader_abortPrepare lasting_polled stand state last
  split
  swap
  · exact RunsToRest.ret (.polling total state rfl last pos stand)
  unfold Impl.broadcast
  simp only [Script.bind_apply, Script.get_apply, Prog.ret_bind]
  cases c.peers with
  | nil => exact hend v stand
  | cons peer peers =>
    refine Setting.Safe.bind (leader_sendEach lasting_polled (fun c' _ v hc' hv => ?_)
      (.inl (.of_same hsame)) (fun v hv => ?_) peer peers stand)
    · refine frame_prepare hv ?_
      rcases hc' with hc' | hc'
      · exact hc' ▸ .refl c
      · exact hc' ▸ hsame
    · exact Setting.Safe.ret (hv.same hsame) (fun hv hr => hv.rely lasting_polled hr) hend

/-- A tick of a leader that disseminates its decision. -/
private theorem leader_retryPhase_committing {now : ℕ} (h : Rest K g K.leader c v)
    (hstate : c.state = .leaderCommitting) :
    Continues K g K.leader (Impl.retryPhase now c) v := by
  cases h with
  | committing r state leader term counter epoch total nodup members stand =>
    unfold Impl.retryPhase
    simp only [Script.bind_apply, Script.get_apply, Script.ite_apply, Prog.ret_bind, state,
      reduceCtorEq, if_false, true_and]
    split
    swap
    · exact Continues.ret
        (.committing r state rfl term counter epoch total nodup members stand)
    have hsame : ({ c with nextRetry := now + c.config.retryAfter } : Impl).Same c :=
      ⟨rfl, rfl, rfl, rfl⟩
    have hend : ∀ v, Stand K g K.leader c (.installed r) (Acked K c.commitAcks r.term) v →
        RunsToRest K g K.leader (.ret { c with nextRetry := now + c.config.retryAfter } ()) v :=
      fun v hv => RunsToRest.ret (.committing r state rfl term counter epoch total nodup members
        (hv.same hsame.symm))
    cases c.peers.filter fun peer => !c.commitAcks.contains peer.1 with
    | nil => exact ⟨stand.impl.trans hsame.symm, hend v stand⟩
    | cons peer peers =>
      refine ⟨stand.impl, Setting.Safe.bind (leader_sendEach lasting_acked (fun c' _ v _ hv => ?_)
        (.inl (.of_same hsame)) (fun v hv => ?_) peer peers stand)⟩
      · rw [term]
        exact frame_commit hv counter epoch total
      · exact Setting.Safe.ret (hv.same hsame) (fun hv hr => hv.rely lasting_acked hr) hend
  | _ => simp_all

/-- The first part of a tick of an idle leader: it may start a round, and then retries at once. -/
private theorem leader_triggerHandoff {now : ℕ} (hs : Ready c s) (hfence : c.recoveryFenced = false)
    (h : Stand K g K.leader c s (fun _ => True) v) :
    Continues K g K.leader
      ((Impl.triggerHandoff now c).bind fun s _ => Impl.retryPhase now s) v := by
  have hidle : ∀ c' : Impl, c'.state = .idle →
      ((Impl.retryPhase now c').stateWith fun c _ => c).Same c' := fun c' hidle => by
    rw [Impl.retryPhase_idle hidle]
    exact .refl c'
  have hready : ∀ c' v, Ready c' s → Stand K g K.leader c' s (fun _ => True) v →
      RunsToRest K g K.leader (Impl.retryPhase now c') v := by
    intro c' v hs' hv
    rw [Impl.retryPhase_idle hs'.1]
    exact RunsToRest.ret (hs'.rest hv)
  constructor
  · rw [Prog.state, Prog.stateWith_bind, Impl.triggerHandoff_idle hfence hs.1]
    exact h.impl
  refine Setting.Safe.bind ?_
  have hret : ((Prog.ret c () : Prog Impl Reply Unit).stateWith fun s _ =>
      (Impl.retryPhase now s).stateWith fun c _ => c).Same c ∧ Keeps c c ∧
      ∀ v, Stand K g K.leader c s (fun _ => True) v → (setting K g K.leader).Safe
        (fun s _ => (Impl.retryPhase now s).stateWith fun c _ => c)
        (fun s _ v => RunsToRest K g K.leader (Impl.retryPhase now s) v) (.ret c ()) v :=
    ⟨hidle c hs.1, .of_same (.refl c), fun v hv => hv.ret lasting_true fun v' => hready c v' hs⟩
  rw [Impl.triggerHandoff_idle hfence hs.1]
  refine leader_read (.inr (.inl rfl)) lasting_true h fun mode => ⟨c, ?_⟩
  split
  · exact hret
  split
  swap
  · exact hret
  refine ⟨.refl c, .of_same (.refl c), fun v hv => ?_⟩
  refine leader_read (.inr (.inr rfl)) lasting_true hv fun total => ⟨c, ?_⟩
  split
  swap
  · exact hret
  rw [if_pos (h.configured.isLeader.mpr rfl)]
  refine ⟨same_beginLeaderPrepare (hidle c hs.1), .of_same (.refl c), fun v hv => ?_⟩
  refine leader_beginLeaderPrepare hs hv hidle (fun c' drained state prepared => ?_) hready
    fun c' drained v state prepared pos last hv => ?_
  · exact same_retryPhase drained state (by rw [prepared]; simp)
  · exact leader_retryPhase_polling state last pos (stand_of_own prepared hv)

theorem leader_tick {now : ℕ} (h : Rest K g K.leader c v) :
    Continues K g K.leader (Impl.tick now c) v := by
  unfold Impl.tick
  rw [Script.bind_apply]
  have hready : ∀ {s}, Ready c s → Stand K g K.leader c s (fun _ => True) v →
      Continues K g K.leader
        ((Impl.triggerHandoff now c).bind fun s _ => Impl.retryPhase now s) v := by
    intro s hs hv
    by_cases hfence : c.recoveryFenced = true
    · rw [Impl.triggerHandoff_busy (.inl hfence), Prog.ret_bind, Impl.retryPhase_idle hs.1]
      exact Continues.ret h
    · exact leader_triggerHandoff hs (by simpa using hfence) hv
  have hbusy : c.state ≠ .idle →
      (Impl.triggerHandoff now c).bind (fun s _ => Impl.retryPhase now s) =
        Impl.retryPhase now c := fun hstate => by
    rw [Impl.triggerHandoff_busy (.inr hstate), Prog.ret_bind]
  cases h with
  | fenced state fence stand =>
    rw [Impl.triggerHandoff_busy (.inl fence), Prog.ret_bind, Impl.retryPhase_idle state]
    exact Continues.ret (.fenced state fence stand)
  | peak state last stand => exact hready ⟨state, .inl ⟨rfl, last⟩⟩ stand
  | installed r state last stand => exact hready ⟨state, .inr ⟨r, rfl, last⟩⟩ stand
  | voted _ _ follower => exact absurd rfl follower
  | deciding _ _ _ follower => exact absurd rfl follower
  | polling total state leader last pos stand =>
    rw [hbusy (by simp [state])]
    obtain ⟨found, hlookup⟩ := stand.context.lookup
    rw [← stand.configured.componentId] at hlookup
    exact ⟨stand.impl.trans (same_retryPhase _ state hlookup).symm,
      leader_retryPhase_polling state last pos stand⟩
  | blocked total state leader stand =>
    rw [hbusy (by simp [state])]
    unfold Impl.retryPhase
    simp only [Script.bind_apply, Script.get_apply, Prog.ret_bind, state, reduceCtorEq, if_false,
      false_and]
    exact Continues.ret (.blocked total state leader stand)
  | committing r state leader term counter epoch total nodup members stand =>
    rw [hbusy (by simp [state])]
    exact leader_retryPhase_committing
      (.committing r state leader term counter epoch total nodup members stand) state

theorem leader_stop (h : Rest K g K.leader c v) : Continues K g K.leader (Impl.stop c) v := by
  unfold Impl.stop
  simp only [Script.bind_apply, Script.get_apply, Prog.ret_bind]
  split
  swap
  · exact Continues.ret h
  cases h with
  | polling total state leader last pos stand =>
    have hlabel : (Impl.abortPrepare false c).state = c := state_abortPrepare (.inl state)
    exact ⟨by rw [hlabel]; exact stand.impl, leader_abortPrepare lasting_polled stand state last⟩
  | voted _ _ follower => exact absurd rfl follower
  | _ => simp_all

end HotCounter
