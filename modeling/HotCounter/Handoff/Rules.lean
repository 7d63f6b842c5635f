import HotCounter.Handoff.Stance

/-!
# The assertion between two effects

A `Stand` is the assertion that stands between two effects: the protocol's invariant, the
controller's volatile state, the stance of the node, and a context that outlasts whatever
happens. The rules for the effects of a follower and of the leader are built on it in
`HotCounter.Handoff.Follower` and `HotCounter.Handoff.Leader`.
-/

namespace HotCounter

open Foundation NodeView

/-- What stays true whatever happens. -/
def Lasting (K : Deployment) (g : Prop) (Γ : View → Prop) : Prop :=
  ∀ {v v' : View}, Extends K g v v' → Γ v → Γ v'

/-- The assertion between two effects of node `i`. -/
structure Stand (K : Deployment) (g : Prop) (i : ℕ) (c : Impl) (s : Stance) (Γ : View → Prop)
    (v : View) : Prop where
  cluster : ClusterInvariant K g v
  up : (v.nodes i).up = true
  impl : (v.nodes i).impl.Same c
  configured : Configured K i c
  stands : (v.nodes i).Stands s
  context : Γ v

variable {K : Deployment} {g : Prop} {i : ℕ} {c : Impl} {s : Stance} {Γ : View → Prop} {v : View}

namespace Stand

/-- A stand survives what the rest of the cluster does. -/
theorem rely {v' : View} (hΓ : Lasting K g Γ) (h : Stand K g i c s Γ v) (hr : Rely K g i v v') :
    Stand K g i c s Γ v' where
  cluster := hr.cluster h.cluster
  up := hr.node.up.trans h.up
  impl := hr.node.impl.trans h.impl
  configured := h.configured
  stands := h.stands.env (h.cluster.ok i h.up) hr.node
  context := hΓ hr.toExtends h.context

/-- A node that stands is safe. -/
theorem nodeSafe (h : Stand K g i c s Γ v) : NodeSafe K i (v.nodes i) := h.cluster.nodeSafe h.up

/-- The text of the assertion may name another controller that looks the same. -/
theorem same {c' : Impl} (h : Stand K g i c s Γ v) (hc : c.Same c') : Stand K g i c' s Γ v :=
  ⟨h.cluster, h.up, h.impl.trans hc, h.configured.congr hc.fresh.symm, h.stands, h.context⟩

/-- A weaker stance, with fewer facts about the network, is still a stand. -/
theorem weaken {s' : Stance} {Γ' : View → Prop} (h : Stand K g i c s Γ v)
    (hs : (v.nodes i).Stands s → (v.nodes i).Stands s') (hΓ : Γ v → Γ' v) :
    Stand K g i c s' Γ' v :=
  ⟨h.cluster, h.up, h.impl, h.configured, hs h.stands, hΓ h.context⟩

end Stand

/-- A key of an association list is found with one of its values. -/
theorem exists_lookup {α : Type*} {entries : List (ℕ × α)} {key : ℕ}
    (h : key ∈ entries.map Prod.fst) :
    ∃ found, (key, found) ∈ entries ∧ entries.lookup key = some found := by
  obtain ⟨entry, hentry, hkey⟩ := List.mem_map.mp h
  cases hlookup : entries.lookup key with
  | none =>
    have hnone := List.lookup_eq_none_iff.mp hlookup entry hentry
    simp [hkey] at hnone
  | some found =>
    obtain ⟨before, after, rfl, -⟩ := List.lookup_eq_some_iff.mp hlookup
    exact ⟨found, by simp, rfl⟩

/-- The keys of a map after an assignment. -/
theorem Impl.map_fst_assign (key : ℕ) (value : DrainedPeakState) :
    ∀ entries : List (ℕ × DrainedPeakState), (Impl.assign key value entries).map Prod.fst =
      if key ∈ entries.map Prod.fst then entries.map Prod.fst
      else entries.map Prod.fst ++ [key]
  | [] => rfl
  | entry :: entries => by
    by_cases hkey : entry.1 = key
    · simp [Impl.assign, hkey]
    · have ih := Impl.map_fst_assign key value entries
      have hmem : key ∈ (entry :: entries).map Prod.fst ↔ key ∈ entries.map Prod.fst := by
        rw [List.map_cons, List.mem_cons]
        exact or_iff_right (Ne.symm hkey)
      rw [Impl.assign, if_neg hkey, List.map_cons, ih]
      simp only [hmem]
      split <;> rfl

theorem Impl.nodup_assign {key : ℕ} {value : DrainedPeakState}
    {entries : List (ℕ × DrainedPeakState)} (h : (entries.map Prod.fst).Nodup) :
    ((Impl.assign key value entries).map Prod.fst).Nodup := by
  rw [Impl.map_fst_assign]
  split
  · exact h
  · rename_i hnew
    exact List.nodup_append.mpr ⟨h, List.nodup_singleton _, fun a ha b hb hab =>
      hnew (List.mem_singleton.mp hb ▸ hab ▸ ha)⟩

/-- The entries of a map after an assignment. -/
theorem Impl.mem_assign {key : ℕ} {value : DrainedPeakState} {report : ℕ × DrainedPeakState} :
    ∀ {entries : List (ℕ × DrainedPeakState)}, (entries.map Prod.fst).Nodup →
      (report ∈ Impl.assign key value entries ↔
        report = (key, value) ∨ report ∈ entries ∧ report.1 ≠ key)
  | [], _ => by simp [Impl.assign]
  | entry :: entries, h => by
    obtain ⟨hnew, hrest⟩ := List.nodup_cons.mp h
    rw [Impl.assign]
    split
    · rename_i hkey
      have hother : report ∈ entries → report.1 ≠ key := fun hmem heq =>
        hnew (hkey ▸ heq ▸ List.mem_map_of_mem hmem)
      rw [List.mem_cons, List.mem_cons]
      constructor
      · exact fun h => h.imp_right fun hmem => ⟨.inr hmem, hother hmem⟩
      · rintro (h | ⟨rfl | h, hne⟩)
        · exact .inl h
        · exact absurd hkey hne
        · exact .inr h
    · rename_i hkey
      rw [List.mem_cons, List.mem_cons, Impl.mem_assign hrest]
      constructor
      · rintro (rfl | h | h)
        · exact .inr ⟨.inl rfl, hkey⟩
        · exact .inl h
        · exact .inr ⟨.inr h.1, h.2⟩
      · rintro (h | ⟨h | h, hne⟩)
        · exact .inr (.inl h)
        · exact .inl h
        · exact .inr (.inr ⟨h, hne⟩)

/-- The controller after an abort. -/
def Impl.cleared (c : Impl) : Impl := { c with prepared := [], state := .idle, activeTerm := 0 }

theorem Impl.preparedAt_apply {component : ℕ} {found : DrainedPeakState}
    (h : c.prepared.lookup component = some found) :
    Impl.preparedAt component c = .ret c found := by
  unfold Impl.preparedAt
  simp only [Script.bind_apply, Script.get_apply, Prog.ret_bind, h, Script.pure_apply]

theorem Impl.retryPhase_idle {now : ℕ} (h : c.state = .idle) :
    Impl.retryPhase now c = .ret c () := by
  unfold Impl.retryPhase
  simp only [Script.bind_apply, Script.get_apply, Prog.ret_bind, h, reduceCtorEq, if_false,
    false_and]
  rfl

/-- The first part of a tick passes over a controller that is busy or fenced. -/
theorem Impl.triggerHandoff_busy {now : ℕ} (h : c.recoveryFenced = true ∨ c.state ≠ .idle) :
    Impl.triggerHandoff now c = .ret c () := by
  unfold Impl.triggerHandoff
  simp only [Script.bind_apply, Script.get_apply, Prog.ret_bind]
  rw [if_pos (by simpa using h)]
  rfl

/-- The first part of a tick of an idle controller, written out. -/
theorem Impl.triggerHandoff_idle {now : ℕ} (hfence : c.recoveryFenced = false)
    (hidle : c.state = .idle) :
    Impl.triggerHandoff now c = .op c .mode fun (mode : RoutingMode) =>
      if mode ≠ .reservedPeak then .ret c ()
      else if c.engine.localPeak < c.engine.limit then
        .op c .peakTotal fun (total : ℕ) =>
          if (c.engine.localPeak + 2 ^ 64 - total) % 2 ^ 64 ≤ c.engine.dangerThreshold then
            if c.isLeader then Impl.beginLeaderPrepare c
            else if now ≥ c.nextTrigger then
              (Impl.sendToComponent .trigger c.config.leaderComponentId 0 0 0 0 c).bind
                fun c _ => .ret { c with nextTrigger := now + c.config.retryAfter } ()
            else .ret c ()
          else .ret c ()
      else .ret c () := by
  unfold Impl.triggerHandoff
  simp only [Script.bind_apply, Script.get_apply, Script.ite_apply, Script.pure_apply,
    Prog.ret_bind, hfence, hidle, Bool.false_or, ne_eq, not_true_eq_false, decide_false,
    Bool.false_eq_true, if_false]
  rfl

/-- An abort shows the state it starts in. -/
theorem state_abortPrepare {next : Impl → Unit → Impl} {announce : Bool}
    (hstate : c.state = .leaderPreparing ∨ c.state = .followerPrepared) :
    ((Impl.abortPrepare announce c).stateWith next) = c := by
  unfold Impl.abortPrepare
  simp only [Script.bind_apply, Script.get_apply, Prog.ret_bind, if_pos hstate]
  rfl

/-! ### Contexts that last -/

theorem lasting_true : Lasting K g fun _ => True := fun _ _ => trivial

/-- Lasting facts last together. -/
theorem Lasting.and {Γ Γ' : View → Prop} (h : Lasting K g Γ) (h' : Lasting K g Γ') :
    Lasting K g fun v => Γ v ∧ Γ' v := fun hext hv => ⟨h hext hv.1, h' hext hv.2⟩

/-- Some frame carried the term. -/
def Seen (term : ℕ) (v : View) : Prop := ∃ p ∈ v.net, p.frame.term = term

/-- A term once seen stays seen. -/
theorem lasting_seen {term : ℕ} : Lasting K g (Seen term) := by
  rintro v v' hext ⟨p, hp, hterm⟩
  exact ⟨p, hext.net p hp, hterm⟩

/-- In an orderly run, the leader has given up a term that was seen. -/
def Released (K : Deployment) (g : Prop) (term : ℕ) (v : View) : Prop :=
  Seen term v ∧ (g → ¬ (v.nodes K.leader).holds term)

/-- A term once released stays released. -/
theorem lasting_released {term : ℕ} : Lasting K g (Released K g term) := by
  rintro v v' hext ⟨hseen, hnot⟩
  exact ⟨lasting_seen hext hseen, fun hg => hext.released hg term hseen (hnot hg)⟩

/-- The leader has decided and said so. -/
def Announced (K : Deployment) (record : JournalRecord) (v : View) : Prop :=
  (v.nodes K.leader).committed record ∧ Seen record.term v

/-- A record once announced stays announced. -/
theorem lasting_announced {record : JournalRecord} : Lasting K g (Announced K record) :=
  fun hext h => ⟨hext.committed record h.1, lasting_seen hext h.2⟩

/-- The reports the leader has collected for a term: its own, and those it received. -/
structure Polled (K : Deployment) (prepared : List (ℕ × DrainedPeakState)) (term total : ℕ)
    (v : View) : Prop where
  nodup : (prepared.map Prod.fst).Nodup
  members : ∀ m ∈ prepared.map Prod.fst, m ∈ K.ids
  self : K.leader ∈ prepared.map Prod.fst
  own : ∀ report ∈ prepared, report.1 = K.leader → report.2.componentTotal = total
  reports : ∀ report ∈ prepared, report.1 ≠ K.leader →
    ∃ frame, v.sent frame ∧ frame.type = .prepared ∧ frame.sender = report.1 ∧
      frame.term = term ∧ frame.value = report.2.componentTotal

/-- Reports once received stay received. -/
theorem lasting_polled {prepared : List (ℕ × DrainedPeakState)} {term total : ℕ} :
    Lasting K g (Polled K prepared term total) := by
  intro v v' hext h
  refine ⟨h.nodup, h.members, h.self, h.own, fun report hreport hne => ?_⟩
  obtain ⟨frame, hs, hframe⟩ := h.reports report hreport hne
  exact ⟨frame, hext.sent hs, hframe⟩

/-- Acknowledgements other than the leader's own were received. -/
def Acked (K : Deployment) (acks : List ℕ) (term : ℕ) (v : View) : Prop :=
  ∀ m ∈ acks, m ≠ K.leader →
    ∃ frame, v.sent frame ∧ frame.type = .commitAck ∧ frame.sender = m ∧ frame.term = term

/-- Acknowledgements once received stay received. -/
theorem lasting_acked {acks : List ℕ} {term : ℕ} : Lasting K g (Acked K acks term) := by
  intro v v' hext h m hm hne
  obtain ⟨frame, hs, hframe⟩ := h m hm hne
  exact ⟨frame, hext.sent hs, hframe⟩

/-! ### A controller at rest -/

/-- What holds of a controller that has no handler in hand. -/
inductive Rest (K : Deployment) (g : Prop) (i : ℕ) (c : Impl) (v : View) : Prop
  | fenced (state : c.state = .idle) (fence : c.recoveryFenced = true)
    (stand : Stand K g i c .fenced (fun _ => True) v)
  | peak (state : c.state = .idle) (last : c.lastCommittedTerm = 0)
    (stand : Stand K g i c .peak (fun _ => True) v)
  | installed (record : JournalRecord) (state : c.state = .idle)
    (last : c.lastCommittedTerm = record.term)
    (stand : Stand K g i c (.installed record) (fun _ => True) v)
  | polling (total : ℕ) (state : c.state = .leaderPreparing) (leader : i = K.leader)
    (last : c.lastCommittedTerm = 0) (pos : 1 ≤ c.activeTerm)
    (stand : Stand K g i c (.voted c.activeTerm total)
      (Polled K c.prepared c.activeTerm total) v)
  | voted (drained : DrainedPeakState) (state : c.state = .followerPrepared)
    (follower : i ≠ K.leader) (last : c.lastCommittedTerm = 0)
    (prepared : c.prepared = [(i, drained)])
    (stand : Stand K g i c (.voted c.activeTerm drained.componentTotal) (Seen c.activeTerm) v)
  | deciding (total : ℕ) (record : JournalRecord) (state : c.state = .followerCommitting)
    (follower : i ≠ K.leader) (last : c.lastCommittedTerm = 0) (term : record.term = c.activeTerm)
    (stand : Stand K g i c (.deciding c.activeTerm total) (Announced K record) v)
  | blocked (total : ℕ) (state : c.state = .leaderCommitBlocked) (leader : i = K.leader)
    (stand : Stand K g i c (.deciding c.activeTerm total) (fun _ => True) v)
  | committing (record : JournalRecord) (state : c.state = .leaderCommitting)
    (leader : i = K.leader) (term : c.activeTerm = record.term)
    (counter : c.committedCounter = record.state.counter)
    (epoch : c.committedEpoch = record.state.epoch) (total : c.committedTotal = record.total)
    (nodup : c.commitAcks.Nodup) (members : ∀ m ∈ c.commitAcks, m ∈ K.ids)
    (stand : Stand K g i c (.installed record) (Acked K c.commitAcks record.term) v)

/-- A controller at rest stays so while others act. -/
theorem Rest.rely {v' : View} (h : Rest K g i c v) (hr : Rely K g i v v') : Rest K g i c v' := by
  cases h with
  | fenced state fence stand => exact .fenced state fence (stand.rely lasting_true hr)
  | peak state last stand => exact .peak state last (stand.rely lasting_true hr)
  | installed record state last stand =>
    exact .installed record state last (stand.rely lasting_true hr)
  | polling total state leader last pos stand =>
    exact .polling total state leader last pos (stand.rely lasting_polled hr)
  | voted drained state follower last prepared stand =>
    exact .voted drained state follower last prepared (stand.rely lasting_seen hr)
  | deciding total record state follower last term stand =>
    exact .deciding total record state follower last term (stand.rely lasting_announced hr)
  | blocked total state leader stand =>
    exact .blocked total state leader (stand.rely lasting_true hr)
  | committing record state leader term counter epoch total nodup members stand =>
    exact .committing record state leader term counter epoch total nodup members
      (stand.rely lasting_acked hr)

/-- An idle node that is not fenced: in peak mode, or with a record installed. -/
def Ready (c : Impl) (s : Stance) : Prop :=
  c.state = .idle ∧ (s = .peak ∧ c.lastCommittedTerm = 0 ∨
    ∃ r, s = .installed r ∧ c.lastCommittedTerm = r.term)

/-- A ready node is at rest. -/
theorem Ready.rest (h : Ready c s) (hv : Stand K g i c s Γ v) : Rest K g i c v := by
  obtain ⟨hidle, ⟨rfl, hlast⟩ | ⟨r, rfl, hlast⟩⟩ := h
  · exact .peak hidle hlast (hv.weaken id fun _ => trivial)
  · exact .installed r hidle hlast (hv.weaken id fun _ => trivial)

/-- A ready node serves its peak reservation or an installed total. -/
theorem Ready.stance (h : Ready c s) : s = .peak ∨ ∃ r, s = .installed r := by
  obtain ⟨-, ⟨rfl, -⟩ | ⟨r, rfl, -⟩⟩ := h
  · exact .inl rfl
  · exact .inr ⟨r, rfl⟩

/-- A program that ends where it stands. -/
theorem Stand.ret {next : Impl → Unit → Impl} {Q : Impl → Unit → View → Prop} {a : Unit}
    (hΓ : Lasting K g Γ) (h : Stand K g i c s Γ v) (hQ : ∀ v', Stand K g i c s Γ v' → Q c a v') :
    (setting K g i).Safe next Q (.ret c a) v :=
  Setting.Safe.ret h (fun h hr => h.rely hΓ hr) hQ

/-- The controller of node `i` runs safely to rest. -/
def RunsToRest (K : Deployment) (g : Prop) (i : ℕ) (p : Prog Impl Reply Unit) (v : View) : Prop :=
  (setting K g i).Safe (fun c _ => c) (fun c _ v => Rest K g i c v) p v

theorem RunsToRest.ret {a : Unit} (h : Rest K g i c v) : RunsToRest K g i (.ret c a) v :=
  Setting.Safe.ret h Rest.rely fun _ h => h

theorem RunsToRest.rest {a : Unit} (h : RunsToRest K g i (.ret c a) v) : Rest K g i c v :=
  Setting.Safe.of_ret (Q := fun c _ v => Rest K g i c v) h

/-! ### Taking up a handler -/

theorem Rest.same (h : Rest K g i c v) : (v.nodes i).impl.Same c := by
  cases h <;> exact (‹Stand _ _ _ _ _ _ _›).impl

theorem Rest.cluster (h : Rest K g i c v) : ClusterInvariant K g v := by
  cases h <;> exact (‹Stand _ _ _ _ _ _ _›).cluster

theorem Rest.up (h : Rest K g i c v) : (v.nodes i).up = true := by
  cases h <;> exact (‹Stand _ _ _ _ _ _ _›).up

theorem Rest.configured (h : Rest K g i c v) : Configured K i c := by
  cases h <;> exact (‹Stand _ _ _ _ _ _ _›).configured

/-- A controller may take up a program: the view that shows the program's first state keeps the
invariant, nothing happens to the other nodes, and the program runs safely to rest. -/
structure Starts (K : Deployment) (g : Prop) (i : ℕ) (p : Prog Impl Reply Unit) (v : View) :
    Prop where
  cluster : ClusterInvariant K g (v.relabel i p.state)
  rely : ∀ j, j ≠ i → Rely K g j v (v.relabel i p.state)
  safe : RunsToRest K g i p (v.relabel i p.state)

/-- A program whose first state looks like the one the node shows. -/
structure Continues (K : Deployment) (g : Prop) (i : ℕ) (p : Prog Impl Reply Unit) (v : View) :
    Prop where
  same : (v.nodes i).impl.Same p.state
  safe : RunsToRest K g i p v

theorem Continues.ret {a : Unit} (h : Rest K g i c v) : Continues K g i (.ret c a) v :=
  ⟨h.same, .ret h⟩

/-- A controller that shows another state holds no new term if it goes on with the old one. -/
private theorem holds_relabel {c' : Impl}
    (hterm : (v.nodes i).engine.distributedHandoffActive = true → c'.state ≠ .idle →
      (v.nodes i).impl.state ≠ .idle ∧ (v.nodes i).impl.activeTerm = c'.activeTerm) {term : ℕ}
    (hh : ({ v.nodes i with impl := c' } : NodeView).holds term) : (v.nodes i).holds term := by
  rcases hh with ⟨hstate, hactive, hon⟩ | hcommitted
  · obtain ⟨hstate', hterm'⟩ := hterm hon hstate
    exact .inl ⟨hstate', hterm'.trans hactive, hon⟩
  · exact .inr hcommitted

/-- A program that continues may be started. -/
theorem Continues.starts {p : Prog Impl Reply Unit} (h : Continues K g i p v)
    (hv : ClusterInvariant K g v) (hup : (v.nodes i).up = true) : Starts K g i p v := by
  have hswap : Swap K g i (v.nodes i) { v.nodes i with impl := p.state } :=
    hv.swap_relabel hup fun _ => ⟨fun _ => holds_relabel fun _ hstate =>
      ⟨h.same.state.symm ▸ hstate, h.same.activeTerm⟩, fun _ _ => h.same.prepared.symm⟩
  refine ⟨hv.swap hswap, fun j hj => .swap_other hv hswap hj, h.safe.rely (.swap hv hswap ?_)⟩
  rw [View.set_nodes_self]
  exact ⟨rfl, rfl, h.same.symm, rfl, fun _ => hswap.ok hup, fun _ => ⟨.refl _, fun _ => rfl⟩⟩

/-- A controller moves to another state as it takes up a program. -/
theorem Stand.starts {p : Prog Impl Reply Unit} (hΓ : Lasting K g Γ) (h : Stand K g i c s Γ v)
    (hfresh : p.state.fresh = c.fresh)
    (hleader : i = K.leader → ((v.nodes i).engine.distributedHandoffActive = true →
        p.state.state ≠ .idle → c.state ≠ .idle ∧ c.activeTerm = p.state.activeTerm) ∧
      ∀ r, (v.nodes i).committed r → p.state.prepared = c.prepared)
    (hsafe : ∀ v', Stand K g i p.state s Γ v' → RunsToRest K g i p v') : Starts K g i p v := by
  have hswap : Swap K g i (v.nodes i) { v.nodes i with impl := p.state } := by
    refine h.cluster.swap_relabel h.up fun hi => ⟨fun term => holds_relabel fun hon hstate => ?_,
      fun r hr => ((hleader hi).2 r hr).trans h.impl.prepared.symm⟩
    rw [h.impl.state, h.impl.activeTerm]
    exact (hleader hi).1 hon hstate
  have hrely : ∀ j, j ≠ i → Rely K g j v (v.relabel i p.state) := fun j hj =>
    .swap_other h.cluster hswap hj
  refine ⟨h.cluster.swap hswap, hrely, hsafe _ ⟨h.cluster.swap hswap, ?_, ?_,
    h.configured.congr hfresh, ?_, hΓ (hrely (i + 1) (Nat.succ_ne_self i)).toExtends h.context⟩⟩
  · rw [View.relabel_nodes_self]
    exact h.up
  · rw [View.relabel_nodes_self]
    exact .refl _
  · rw [View.relabel_nodes_self]
    exact h.stands.relabel _

/-- An effect sends the packets that it names, whatever the outcome. -/
private theorem run_packets {e : Effect} {oracle : Oracle} {engine : CounterEngine}
    {journal : Option JournalRecord}
    {result : Reply e × CounterEngine × Option JournalRecord × List Packet}
    (h : e.run oracle engine journal = some result) : result.2.2.2 = e.packets := by
  cases e with
  | terminate => exact absurd h nofun
  | _ =>
    obtain rfl := Option.some.inj h
    rfl

theorem run_begin {oracle : Oracle} {engine : CounterEngine}
    {journal : Option JournalRecord} :
    Effect.beginHandoff.run oracle engine journal =
      some (engine.beginDistributedHandoff.1, engine.beginDistributedHandoff.2, journal, []) := rfl

theorem run_commit {oracle : Oracle} {engine : CounterEngine}
    {journal : Option JournalRecord} {total : ℕ} {owner : Bool} :
    (Effect.commitHandoff total owner).run oracle engine journal =
      some ((engine.commitDistributedHandoff total owner).1,
        (engine.commitDistributedHandoff total owner).2, journal, []) := rfl

/-- An effect and the state that the program then shows, as one change of the view. -/
theorem setting_step {e : Effect} {r : Reply e} {v' : View}
    (h : (setting K g i).step e v r v') :
    ∃ oracle result, e.run oracle (v.nodes i).engine (v.nodes i).journal = some result ∧
      result.1 = r ∧
      (g → i = K.leader → e = .clock → (v.nodes i).impl.state = .idle →
        ∀ p ∈ v.net, p.frame.term < oracle.now) ∧
      ∀ c, (setting K g i).expose c v' =
        v.set i ((v.nodes i).after e result.2.1 result.2.2.1 c) e.packets := by
  obtain ⟨oracle, engine, journal, packets, hrun, hclock, rfl⟩ := h
  have hpackets : packets = e.packets := run_packets hrun
  refine ⟨oracle, _, hrun, rfl, hclock, fun c => ?_⟩
  subst hpackets
  simp [setting, NodeView.after]

/-- The stand after an effect that keeps the guarantee. -/
theorem Stand.after {s' : Stance} {n' : NodeView} {packets : List Packet} {c' : Impl}
    (hΓ : Lasting K g Γ) (h : Stand K g i c s Γ v) (hup : n'.up = true) (himpl : n'.impl = c')
    (hfresh : c'.fresh = c.fresh) (hstands : n'.Stands s')
    (hguar : Guar K g i v (v.set i n' packets)) : Stand K g i c' s' Γ (v.set i n' packets) where
  cluster := hguar.cluster
  up := by rw [View.set_nodes_self]; exact hup
  impl := by rw [View.set_nodes_self, himpl]; exact .refl c'
  configured := h.configured.congr hfresh
  stands := by rw [View.set_nodes_self]; exact hstands
  context := hΓ hguar.extends h.context

end HotCounter
