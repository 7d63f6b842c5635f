import HotCounter.Handoff.Protocol

/-!
# Where a node stands

Between two effects of its controller a node is in one of a few stances, from open peak mode
through the drained and journaled stages of a handoff to an installed commit. The first part
shows that the node's other threads leave every stance alone (`Stands.env`), the second what
each effect makes of it: a `NodeMove`, which is what both guarantees ask for, and the next
stance.
-/

namespace HotCounter

open Foundation

/-- The stages of a handoff as one node goes through them. -/
inductive Stance
  | peak
  | held (total : ℕ)
  | voted (term total : ℕ)
  | deciding (term total : ℕ)
  | decided (total : ℕ) (record : JournalRecord)
  | installed (record : JournalRecord)
  | fenced

namespace NodeView

/-- Nothing is committed. -/
def Uncommitted (n : NodeView) : Prop := ∀ r, ¬ n.committed r

/-- All reports the node owes are for one term and total. -/
def Owes (n : NodeView) (term total : ℕ) : Prop :=
  ∀ term' total', n.outstanding term' total' → term' = term ∧ total' = total

/-- Drained with a total in the shards. -/
def Drained (n : NodeView) (total : ℕ) : Prop := n.Shut ∧ n.engine.reserved.used = total

/-- What a stance says of its node. -/
def Stands (n : NodeView) : Stance → Prop
  | .peak => n.engine.distributedHandoffActive = false ∧ n.Uncommitted ∧
    ∀ term total, ¬ n.outstanding term total
  | .held total => n.Drained total ∧ n.Uncommitted ∧ ∀ term total, ¬ n.outstanding term total
  | .voted term total => n.Drained total ∧ n.Uncommitted ∧ n.Owes term total ∧
    Reported n term total
  | .deciding term total => n.Drained total ∧ n.Owes term total ∧ Reported n term total
  | .decided total record => n.Drained total ∧ n.Owes record.term total ∧ n.committed record
  | .installed record => n.engine.distributedHandoffActive = false ∧ n.committed record ∧
    n.engine.mode ≠ .reservedPeak
  | .fenced => n.engine.distributedHandoffActive = false ∧ n.engine.gateOpen = false ∧
    n.Uncommitted

variable {n n' : NodeView}

theorem drained_congr {total : ℕ} (h : n.Drained total) (he : n'.engine = n.engine) :
    n'.Drained total := by
  obtain ⟨⟨hmode, hactive, hgate⟩, hused⟩ := h
  rw [← he] at hmode hactive hgate hused
  exact ⟨⟨hmode, hactive, hgate⟩, hused⟩

/-- A stance does not depend on the controller. -/
theorem Stands.relabel {s : Stance} (h : n.Stands s) (c : Impl) :
    ({ n with impl := c } : NodeView).Stands s := by
  cases s with
  | peak => exact h
  | held total => exact ⟨drained_congr h.1 rfl, h.2⟩
  | voted term total => exact ⟨drained_congr h.1 rfl, h.2⟩
  | deciding term total => exact ⟨drained_congr h.1 rfl, h.2⟩
  | decided total r => exact ⟨drained_congr h.1 rfl, h.2⟩
  | installed r => exact h
  | fenced => exact h

theorem Stands.deciding_of_voted {term total : ℕ} (h : n.Stands (.voted term total)) :
    n.Stands (.deciding term total) := ⟨h.1, h.2.2.1, h.2.2.2⟩

end NodeView

open NodeView

/-! ### Requests leave a stance alone -/

section Env

variable {K : Deployment} {i : ℕ} {n n' : NodeView}

private theorem outstanding_env (henv : NodeEnv K i n n') {term total : ℕ} :
    n'.outstanding term total ↔ n.outstanding term total := by
  simp only [outstanding, henv.performed]

private theorem committed_env (henv : NodeEnv K i n n') {r : JournalRecord} :
    n'.committed r ↔ n.committed r := by
  simp only [committed, henv.journal]

private theorem drained_env {total : ℕ} (h : n.Drained total) (hok : NodeOk K i n)
    (henv : NodeEnv K i n n') : n'.Drained total := by
  obtain ⟨hsame, hused⟩ := henv.control hok
  exact ⟨⟨hsame.mode.trans h.1.mode, hsame.active.trans h.1.active, hsame.gateOpen.trans h.1.gate⟩,
    (hused h.1.not_servesPeak).trans h.2⟩

theorem NodeView.Stands.env {s : Stance} (h : n.Stands s) (hok : NodeOk K i n)
    (henv : NodeEnv K i n n') : n'.Stands s := by
  have hsame := (henv.control hok).1
  have hactive : n'.engine.distributedHandoffActive = n.engine.distributedHandoffActive :=
    hsame.active
  cases s with
  | peak =>
    simp only [Stands, Uncommitted, outstanding_env henv, committed_env henv, hactive]
    exact h
  | held total =>
    refine ⟨drained_env h.1 hok henv, ?_⟩
    simp only [Uncommitted, outstanding_env henv, committed_env henv]
    exact h.2
  | voted term total =>
    refine ⟨drained_env h.1 hok henv, ?_⟩
    simp only [Uncommitted, Owes, Reported, outstanding_env henv, committed_env henv, henv.journal]
    exact h.2
  | deciding term total =>
    refine ⟨drained_env h.1 hok henv, ?_⟩
    simp only [Owes, Reported, outstanding_env henv, henv.journal]
    exact h.2
  | decided total r =>
    refine ⟨drained_env h.1 hok henv, ?_⟩
    simp only [Owes, outstanding_env henv, committed_env henv]
    exact h.2
  | installed r =>
    simp only [Stands, committed_env henv, hactive, hsame.mode]
    exact h
  | fenced =>
    simp only [Stands, Uncommitted, committed_env henv, hactive, hsame.gateOpen]
    exact h

end Env

/-! ### What an effect makes of a stance -/

section Effects

variable {K : Deployment} {g : Prop} {i : ℕ} {e : Effect} {v : View}

/-- A node after an effect. -/
def NodeView.after (n : NodeView) (e : Effect) (engine : CounterEngine)
    (journal : Option JournalRecord) (c : Impl) : NodeView :=
  { n with engine := engine, journal := journal, performed := e :: n.performed, impl := c }

variable {n : NodeView} {engine : CounterEngine} {journal : Option JournalRecord} {c : Impl}

/-- Counters and mode as before, and no committed record lost. -/
private theorem NodeOk.after (hok : NodeOk K i n) (hconfig : engine.config = n.engine.config)
    (hstrict : engine.strict = n.engine.strict) (hreserved : engine.reserved = n.engine.reserved)
    (hmode : engine.mode = n.engine.mode)
    (hkeeps : ∀ r, n.committed r → (n.after e engine journal c).committed r) :
    NodeOk K i (n.after e engine journal c) where
  sound :=
    { strict_limit := by
        change engine.strict.limit = engine.config.limit
        rw [hstrict, hconfig]; exact hok.sound.strict_limit
      reserved_limit := by
        change engine.reserved.limit = engine.config.localPeak
        rw [hreserved, hconfig]; exact hok.sound.reserved_limit
      bounded := by
        change engine.reserved.Bounded
        rw [hreserved]; exact hok.sound.bounded
      value_le := by
        change engine.strict.value ≤ engine.config.limit
        rw [hstrict, hconfig]; exact hok.sound.value_le }
  config := hconfig.trans hok.config
  used := by
    change engine.reserved.used = _
    rw [hreserved]; exact hok.used
  strict := hok.strict
  remote := hok.remote
  danger := fun h => hok.danger fun hm => h (hmode.trans hm)
  modes := by
    rcases hok.modes with h | ⟨r, hr, hm, hvalue⟩
    · exact .inl (hmode.trans h)
    · refine .inr ⟨r, hkeeps r hr, hmode.trans hm, ?_⟩
      change engine.strict.value = _
      rw [hstrict]; exact hvalue

/-- What `ClusterInvariant` says of one running node. -/
structure NodeSafe (K : Deployment) (i : ℕ) (n : NodeView) : Prop where
  up : n.up = true
  ok : NodeOk K i n
  frozen : ∀ r, n.committed r → ¬ n.servesPeak
  owed : ∀ term value, n.outstanding term value → Reported n term value ∧ ¬ n.servesPeak

theorem ClusterInvariant.nodeSafe (hv : ClusterInvariant K g v) (hup : (v.nodes i).up = true) :
    NodeSafe K i (v.nodes i) :=
  ⟨hup, hv.ok i hup, fun r hr => hv.frozen i r hr hup, fun term value ho =>
    let hr := hv.reported i term value ho
    ⟨hr.2.2.1, hr.2.2.2 hup⟩⟩

namespace NodeSafe

theorem mode_peak (h : NodeSafe K i n) (hu : n.Uncommitted) : n.engine.mode = .reservedPeak :=
  h.ok.modes.resolve_right fun ⟨r, hr, _⟩ => hu r hr

/-- An effect that changes neither the engine nor the journal. -/
theorem quiet (h : NodeSafe K i n) (e : Effect) (c : Impl) :
    NodeMove K i e n (n.after e n.engine n.journal c) where
  up := h.up
  performed := rfl
  ok := h.ok.after rfl rfl rfl rfl fun _ hr => hr
  keeps := fun _ hr => hr
  mode := id
  used := rfl
  frozen := h.frozen
  owed := fun _ => h.owed

/-- A store by a node that has not committed. -/
theorem store (h : NodeSafe K i n) (hu : n.Uncommitted) {e : Effect} {record : JournalRecord}
    (hfrozen : record.phase = .committed → n.engine.gateOpen = false)
    (howed : ∀ term value, n.outstanding term value →
      record.term = term ∧ (record.phase = .prepared ∧ record.total = value ∨
        record.phase = .committed)) (c : Impl) :
    NodeMove K i e n (n.after e n.engine (some record.onDisk) c) where
  up := h.up
  performed := rfl
  ok := h.ok.after rfl rfl rfl rfl fun r hr => absurd hr (hu r)
  keeps := fun r hr => absurd hr (hu r)
  mode := id
  used := rfl
  frozen := by
    rintro r ⟨hr, hphase⟩ ⟨-, hopen⟩
    obtain rfl := Option.some.inj hr
    exact absurd ((hfrozen hphase).symm.trans hopen) nofun
  owed := fun _ term value ho =>
    ⟨⟨record.onDisk, rfl, howed term value ho⟩, (h.owed term value ho).2⟩

end NodeSafe

/-! ### The next stance -/

/-- An effect that sends no report leaves nothing new to owe. -/
private theorem outstanding_after
    (he : ∀ destination frame, e = .send destination frame → frame.type ≠ .prepared)
    {term total : ℕ} (h : (n.after e engine journal c).outstanding term total) :
    n.outstanding term total := by
  rcases (outstanding_cons (n := n) rfl).mp h with ⟨destination, frame, rfl, htype, -⟩ | ⟨-, h⟩
  · exact absurd htype (he destination frame rfl)
  · exact h

/-- An effect that changes neither the engine nor the journal and sends no report. -/
theorem NodeView.Stands.quiet {s : Stance} (h : n.Stands s)
    (he : ∀ destination frame, e = .send destination frame → frame.type ≠ .prepared) (c : Impl) :
    (n.after e n.engine n.journal c).Stands s := by
  have ho : ∀ {term total}, (n.after e n.engine n.journal c).outstanding term total →
      n.outstanding term total := outstanding_after he
  cases s with
  | peak => exact ⟨h.1, h.2.1, fun term total hn => h.2.2 term total (ho hn)⟩
  | held total =>
    exact ⟨drained_congr h.1 rfl, h.2.1, fun term total hn => h.2.2 term total (ho hn)⟩
  | voted term total => exact ⟨drained_congr h.1 rfl, h.2.1,
      fun term total hn => h.2.2.1 term total (ho hn), h.2.2.2⟩
  | deciding term total => exact ⟨drained_congr h.1 rfl,
      fun term total hn => h.2.1 term total (ho hn), h.2.2⟩
  | decided total r => exact ⟨drained_congr h.1 rfl,
      fun term total hn => h.2.1 term total (ho hn), h.2.2⟩
  | installed r => exact h
  | fenced => exact h

/-- A node that has voted may send its vote. -/
theorem NodeView.Stands.report {term total : ℕ} (h : n.Stands (.voted term total))
    {destination : Endpoint} {frame : Frame} (hterm : frame.term = term)
    (hvalue : frame.value = total) (c : Impl) :
    (n.after (.send destination frame) n.engine n.journal c).Stands (.voted term total) := by
  refine ⟨drained_congr h.1 rfl, h.2.1, ?_, h.2.2.2⟩
  intro term' total' ho
  rcases (outstanding_cons (n := n) rfl).mp ho with ⟨d, f, he, -, rfl, rfl⟩ | ⟨-, ho⟩
  · injection he with _ hf
    exact ⟨hf ▸ hterm, hf ▸ hvalue⟩
  · exact h.2.2.1 term' total' ho

namespace NodeSafe

/-- A handoff begins in open peak mode. -/
theorem begin_peak (h : NodeSafe K i n) (hs : n.Stands .peak) :
    ∃ drained engine, n.engine.beginDistributedHandoff = (some drained, engine) ∧ ∀ c,
      NodeMove K i .beginHandoff n (n.after .beginHandoff engine n.journal c) ∧
      (n.after .beginHandoff engine n.journal c).Stands (.held drained.componentTotal) := by
  have hmode := h.mode_peak hs.2.1
  refine ⟨_, _, CounterEngine.beginDistributedHandoff_some hs.1 hmode, fun c => ⟨?_, ?_⟩⟩
  · exact
      { up := h.up
        performed := rfl
        ok := h.ok.after rfl rfl rfl rfl fun _ hr => hr
        keeps := fun _ hr => hr
        mode := id
        used := rfl
        frozen := fun _ _ hserve => absurd hserve.2 nofun
        owed := fun _ term value ho => absurd ho (hs.2.2 term value) }
  · refine ⟨⟨⟨hmode, rfl, rfl⟩, h.ok.sound.total_eq.symm⟩, hs.2.1, fun term total ho => ?_⟩
    exact hs.2.2 term total (outstanding_after (e := .beginHandoff) nofun ho)

/-- No handoff begins once one is installed. -/
theorem begin_installed {r : JournalRecord} (hs : n.Stands (.installed r)) :
    n.engine.beginDistributedHandoff = (none, n.engine) :=
  CounterEngine.beginDistributedHandoff_none (.inr hs.2.2)

/-- A drained node that has not committed aborts into open peak mode. -/
theorem abort (h : NodeSafe K i n) {total : ℕ} (hd : n.Drained total) (hu : n.Uncommitted)
    (c : Impl) :
    NodeMove K i .abortHandoff n
        (n.after .abortHandoff n.engine.abortDistributedHandoff n.journal c) ∧
      (n.after .abortHandoff n.engine.abortDistributedHandoff n.journal c).Stands .peak := by
  rw [CounterEngine.abortDistributedHandoff_peak hd.1.active hd.1.mode]
  constructor
  · exact
      { up := h.up
        performed := rfl
        ok := h.ok.after rfl rfl rfl rfl fun _ hr => hr
        keeps := fun _ hr => hr
        mode := id
        used := rfl
        frozen := fun r hr => absurd hr (hu r)
        owed := fun hne => absurd rfl hne }
  · refine ⟨rfl, hu, fun term total ho => ?_⟩
    rcases (outstanding_cons (n := n) rfl).mp ho with ⟨_, _, he, -⟩ | ⟨hne, -⟩
    · exact absurd he nofun
    · exact absurd rfl hne

/-- A decided node installs its record. -/
theorem commit (h : NodeSafe K i n) (hi : i ∈ K.running) {total : ℕ} {r : JournalRecord}
    (hs : n.Stands (.decided total r)) (hr : r.total ≤ K.limit) :
    ∃ engine, n.engine.commitDistributedHandoff r.total (i == K.owner) = (true, engine) ∧ ∀ c,
      NodeMove K i (.commitHandoff r.total (i == K.owner)) n
        (n.after (.commitHandoff r.total (i == K.owner)) engine n.journal c) ∧
      (n.after (.commitHandoff r.total (i == K.owner)) engine n.journal c).Stands
        (.installed r) := by
  have hlimit : n.engine.limit = K.limit := by
    rw [h.ok.sound.limit_eq, h.ok.config, (Deployment.member_of_running hi).limit]
  obtain ⟨hreply, hinst, -, -⟩ := h.ok.sound.commit (i == K.owner) hs.1.1.active hs.1.1.mode
    (hlimit ▸ hr)
  have hdanger : spentIn .dangerStrict n.served = 0 := h.ok.danger (by simp [hs.1.1.mode])
  have hmode : (n.engine.commitDistributedHandoff r.total (i == K.owner)).2.mode ≠
      .reservedPeak := by
    rw [hinst.mode]
    exact CounterEngine.handoffMode_ne_reservedPeak _
  refine ⟨_, Prod.ext hreply rfl, fun c => ⟨?_, hinst.active, hs.2.2, hmode⟩⟩
  exact
    { up := h.up
      performed := rfl
      ok :=
        { sound := hinst.sound
          config := hinst.config.trans h.ok.config
          used := (congrArg ReservedCounter.used hinst.reserved).trans h.ok.used
          strict := h.ok.strict
          remote := h.ok.remote
          danger := fun _ => hdanger
          modes := .inr ⟨r, hs.2.2, hinst.mode, hinst.value.trans (by
            change r.total = r.total + spentIn .dangerStrict n.served
            rw [hdanger, Nat.add_zero])⟩ }
      keeps := fun _ hr => hr
      mode := fun _ => hmode
      used := congrArg ReservedCounter.used hinst.reserved
      frozen := fun _ _ hserve => hmode hserve.1
      owed := fun _ term value ho => ⟨(h.owed term value ho).1, fun hserve => hmode hserve.1⟩ }

end NodeSafe

/-! ### Stores -/

/-- The file after a store: as before and reported as a failure, or replaced. -/
private theorem file_cases (outcome : StoreOutcome) (old : Option JournalRecord)
    (record : JournalRecord) :
    (outcome.file old record = old ∧ outcome.reported = false) ∨
      outcome.file old record = some record.onDisk := by
  cases outcome with
  | stored => exact .inr rfl
  | failedBefore => exact .inl ⟨rfl, rfl⟩
  | failedAfter => exact .inr rfl

/-- A record that is committed after a store was committed before or is the one stored. -/
theorem committed_store {outcome : StoreOutcome} {record r : JournalRecord}
    (h : (n.after e engine (outcome.file n.journal record) c).committed r) :
    n.committed r ∨ record.onDisk = r ∧ record.phase = .committed := by
  obtain ⟨hjournal, hphase⟩ := h
  rcases file_cases outcome n.journal record with ⟨hfile, -⟩ | hfile
  · exact .inl ⟨hfile.symm.trans hjournal, hphase⟩
  · obtain rfl := Option.some.inj (hfile.symm.trans hjournal)
    exact .inr ⟨rfl, hphase⟩

namespace NodeSafe

variable (outcome : StoreOutcome) {record : JournalRecord}

/-- Storing the vote. -/
theorem store_prepared (h : NodeSafe K i n) {total : ℕ} (hs : n.Stands (.held total))
    (hphase : record.phase = .prepared) (htotal : record.total = total) (c : Impl) :
    NodeMove K i (.store record) n
        (n.after (.store record) n.engine (outcome.file n.journal record) c) ∧
      (n.after (.store record) n.engine (outcome.file n.journal record) c).Stands
        (if outcome.reported then .voted record.term total else .held total) := by
  have hdrained : ∀ journal, (n.after (.store record) n.engine journal c).Drained total :=
    fun _ => drained_congr hs.1 rfl
  have howed : ∀ journal term total,
      ¬ (n.after (.store record) n.engine journal c).outstanding term total :=
    fun _ term total ho => hs.2.2 term total (outstanding_after (e := .store record) nofun ho)
  rcases file_cases outcome n.journal record with ⟨hfile, hreported⟩ | hfile
  · rw [hfile, hreported]
    exact ⟨h.quiet _ c, hdrained _, hs.2.1, howed _⟩
  · have hnone : (n.after (.store record) n.engine (some record.onDisk) c).Uncommitted := by
      rintro r ⟨hr, hcommitted⟩
      obtain rfl := Option.some.inj hr
      exact absurd (hphase.symm.trans hcommitted) nofun
    rw [hfile]
    refine ⟨h.store hs.2.1 (fun hc => absurd (hphase.symm.trans hc) nofun)
      (fun term value ho => absurd ho (hs.2.2 term value)) c, ?_⟩
    split
    · exact ⟨hdrained _, hnone, fun term total ho => absurd ho (howed _ term total),
        record.onDisk, rfl, rfl, .inl ⟨hphase, htotal⟩⟩
    · exact ⟨hdrained _, hnone, howed _⟩

/-- Clearing the journal after an abort, whether it works or not. -/
theorem store_idle (h : NodeSafe K i n) (hs : n.Stands .peak) (hphase : record.phase = .idle)
    (c : Impl) :
    NodeMove K i (.store record) n
        (n.after (.store record) n.engine (outcome.file n.journal record) c) ∧
      (n.after (.store record) n.engine (outcome.file n.journal record) c).Stands .peak := by
  have howed : ∀ journal term total,
      ¬ (n.after (.store record) n.engine journal c).outstanding term total :=
    fun _ term total ho => hs.2.2 term total (outstanding_after (e := .store record) nofun ho)
  rcases file_cases outcome n.journal record with ⟨hfile, -⟩ | hfile
  · rw [hfile]
    exact ⟨h.quiet _ c, hs.1, hs.2.1, howed _⟩
  · rw [hfile]
    refine ⟨h.store hs.2.1 (fun hc => absurd (hphase.symm.trans hc) nofun)
      (fun term value ho => absurd ho (hs.2.2 term value)) c, hs.1, ?_, howed _⟩
    rintro r ⟨hr, hcommitted⟩
    obtain rfl := Option.some.inj hr
    exact absurd (hphase.symm.trans hcommitted) nofun

/-- Storing the decision, possibly again. -/
theorem store_committed (h : NodeSafe K i n) {total : ℕ}
    (hs : n.Stands (.deciding record.term total)) (hphase : record.phase = .committed)
    (hagree : ∀ r, n.committed r → r = record.onDisk) (c : Impl) :
    NodeMove K i (.store record) n
        (n.after (.store record) n.engine (outcome.file n.journal record) c) ∧
      (n.after (.store record) n.engine (outcome.file n.journal record) c).Stands
        (if outcome.reported then .decided total record.onDisk
          else .deciding record.term total) := by
  have hdrained : ∀ journal, (n.after (.store record) n.engine journal c).Drained total :=
    fun _ => drained_congr hs.1 rfl
  have howed : ∀ journal, (n.after (.store record) n.engine journal c).Owes record.term total :=
    fun _ term total ho => hs.2.1 term total (outstanding_after (e := .store record) nofun ho)
  rcases file_cases outcome n.journal record with ⟨hfile, hreported⟩ | hfile
  · rw [hfile, hreported]
    exact ⟨h.quiet _ c, hdrained _, howed _, hs.2.2⟩
  · rw [hfile]
    constructor
    · by_cases hu : n.Uncommitted
      · refine h.store hu (fun _ => hs.1.1.gate) (fun term value ho => ?_) c
        exact ⟨(hs.2.1 term value ho).1.symm, .inr hphase⟩
      · -- the same record is already on disk
        unfold Uncommitted at hu
        push Not at hu
        obtain ⟨r, hr⟩ := hu
        obtain rfl := hagree r hr
        rw [← hr.1]
        exact h.quiet _ c
    · split
      · exact ⟨hdrained _, howed _, rfl, hphase⟩
      · exact ⟨hdrained _, howed _, record.onDisk, rfl, rfl, .inr hphase⟩

end NodeSafe

end Effects

end HotCounter
