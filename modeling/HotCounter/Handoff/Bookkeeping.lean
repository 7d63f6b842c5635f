import HotCounter.Handoff.Lifetime
import HotCounter.Handoff.Roles

/-!
# The bookkeeping of a controller

The keys of the two maps are members at every point of every handler (`Impl.Keyed`). Whenever the
controller has no handler in hand, its state says what the engine and the journal are about, and no
call of a handler fails that the source does not expect to fail (`controller_bookkept`):
`prepared.at` finds the controller's own report, and a commit within the limit is installed.
-/

namespace HotCounter

open Foundation

namespace Impl

/-- The keys of the two maps are among the members. -/
structure Keyed (members : List ℕ) (c : Impl) : Prop where
  members_eq : c.members = members
  self : c.config.componentId ∈ members
  prepared : ∀ member ∈ c.prepared.map Prod.fst, member ∈ members
  commitAcks : ∀ member ∈ c.commitAcks, member ∈ members

variable {members : List ℕ} {c c' : Impl}

/-! ### Updates of the maps -/

namespace Keyed

/-- A change to other fields. -/
theorem congr (h : Keyed members c) (hmembers : c'.members = c.members)
    (hconfig : c'.config = c.config) (hprepared : c'.prepared = c.prepared)
    (hacks : c'.commitAcks = c.commitAcks) : Keyed members c' where
  members_eq := hmembers.trans h.members_eq
  self := hconfig ▸ h.self
  prepared := hprepared ▸ h.prepared
  commitAcks := hacks ▸ h.commitAcks

/-- Only the controller's own report is left. -/
theorem own (h : Keyed members c) (hmembers : c'.members = c.members)
    (hconfig : c'.config = c.config) {drained : DrainedPeakState}
    (hprepared : c'.prepared = [(c.config.componentId, drained)])
    (hacks : c'.commitAcks = c.commitAcks) : Keyed members c' where
  members_eq := hmembers.trans h.members_eq
  self := hconfig ▸ h.self
  prepared := by
    rw [hprepared]
    exact List.forall_mem_singleton.mpr h.self
  commitAcks := hacks ▸ h.commitAcks

/-- An empty table of reports is keyed. -/
theorem cleared (h : Keyed members c) (hmembers : c'.members = c.members)
    (hconfig : c'.config = c.config) (hprepared : c'.prepared = [])
    (hacks : c'.commitAcks = c.commitAcks) : Keyed members c' where
  members_eq := hmembers.trans h.members_eq
  self := hconfig ▸ h.self
  prepared := by
    rw [hprepared]
    exact List.forall_mem_nil _
  commitAcks := hacks ▸ h.commitAcks

/-- The report of a member is recorded. -/
theorem assigned (h : Keyed members c) {member : ℕ} (hmember : member ∈ members)
    (report : DrainedPeakState) :
    Keyed members { c with prepared := assign member report c.prepared } where
  members_eq := h.members_eq
  self := h.self
  prepared := by
    intro key hkey
    rw [map_fst_assign] at hkey
    split at hkey
    · exact h.prepared key hkey
    · rcases List.mem_append.mp hkey with hkey | hkey
      · exact h.prepared key hkey
      · exact List.mem_singleton.mp hkey ▸ hmember
  commitAcks := h.commitAcks

/-- The acknowledgements of members are recorded. -/
theorem acked (h : Keyed members c) (hmembers : c'.members = c.members)
    (hconfig : c'.config = c.config) (hprepared : c'.prepared = c.prepared)
    (hacks : ∀ member ∈ c'.commitAcks, member ∈ members) : Keyed members c' where
  members_eq := hmembers.trans h.members_eq
  self := hconfig ▸ h.self
  prepared := hprepared ▸ h.prepared
  commitAcks := hacks

/-- Acknowledgements stay within the members. -/
theorem mem_insert (h : Keyed members c) {member : ℕ} (hmember : member ∈ members) :
    ∀ key ∈ c.commitAcks.insert member, key ∈ members := by
  intro key hkey
  rcases List.mem_insert_iff.mp hkey with rfl | hkey
  · exact hmember
  · exact h.commitAcks key hkey

end Keyed

/-! ### Handlers keep the keys among the members -/

/-- A leader that begins to prepare enters its own report alone. -/
theorem keyed_beginLeaderPrepare : Script.Keeps (Keyed members) beginLeaderPrepare := by
  refine .get_bind fun c hc => .ite (fun _ => .pure ()) fun _ => .bind (.perform _) fun reply => ?_
  cases reply with
  | none => exact .pure ()
  | some drained =>
    refine .bind (.perform _) fun now => .bind (.modify fun c hc => hc.congr rfl rfl rfl rfl)
      fun _ => .bind (keeps_persist _ _ _ _) fun stored => .ite (fun _ => ?_) fun _ => ?_
    · exact .bind (.modify fun c hc => hc.own rfl rfl rfl rfl) fun _ =>
        .bind (.perform _) fun started => .modify fun c hc => hc.congr rfl rfl rfl rfl
    · exact .bind (.perform _) fun _ => .modify fun c hc => hc.congr rfl rfl rfl rfl

theorem keyed_abortPrepare (broadcastAbort : Bool) :
    Script.Keeps (Keyed members) (abortPrepare broadcastAbort) := by
  have hclear : Script.Keeps (Keyed members) (modify fun c : Impl =>
      { c with prepared := [], state := .idle, activeTerm := 0 } : HandoffM PUnit) :=
    .modify fun c hc => hc.cleared rfl rfl rfl rfl
  refine .get_bind fun c _ => .ite (fun _ => ?_) fun _ => hclear
  refine .bind (.perform _) fun _ => .bind (keeps_persist _ _ _ _) fun _ =>
    .ite (fun _ => ?_) fun _ => hclear
  exact .bind (keeps_broadcast _ _ _ _ _) fun _ => hclear

theorem keyed_tryBeginCommit : Script.Keeps (Keyed members) tryBeginCommit := by
  refine .get_bind fun c _ => .ite (fun _ => .pure ()) fun _ =>
    .bind (keeps_preparedAt _) fun leaderState => ?_
  cases sumPrepared leaderState 0 c.prepared with
  | none => exact keyed_abortPrepare true
  | some total =>
    have hcommitting : Script.Keeps (Keyed members) (modify fun c : Impl =>
        { c with state := .leaderCommitting, nextRetry := 0 } : HandoffM PUnit) :=
      .modify fun c hc => hc.congr rfl rfl rfl rfl
    refine .ite (fun _ => keyed_abortPrepare true) fun _ =>
      .bind (keeps_persist _ _ _ _) fun stored => .ite (fun _ => ?_) fun _ => ?_
    · refine .bind (.modify fun c hc => hc.acked rfl rfl rfl (List.forall_mem_nil _)) fun _ =>
        .bind (.perform _) fun installed => .ite (fun _ => ?_) fun _ => hcommitting
      exact .bind (.modify fun c hc => hc.acked rfl rfl rfl (hc.mem_insert hc.self)) fun _ =>
        hcommitting
    · exact .modify fun c hc => hc.congr rfl rfl rfl rfl

theorem keyed_prepareFor (term : ℕ) : Script.Keeps (Keyed members) (prepareFor term) := by
  refine .bind (.perform _) fun reply => ?_
  cases reply with
  | none => exact .pure ()
  | some drained =>
    refine .bind (.modify fun c hc => hc.congr rfl rfl rfl rfl) fun _ =>
      .bind (keeps_persist _ _ _ _) fun stored => .ite (fun _ => ?_) fun _ => ?_
    · exact .bind (.modify fun c hc => hc.own rfl rfl rfl rfl) fun _ =>
        .bind (.perform _) fun started => .bind (.modify fun c hc => hc.congr rfl rfl rfl rfl)
          fun _ => .get_bind fun c _ => keeps_sendToComponent _ _ _ _ _ _
    · exact .bind (.perform _) fun _ => .modify fun c hc => hc.congr rfl rfl rfl rfl

theorem keyed_handlePrepare (frame : Frame) :
    Script.Keeps (Keyed members) (handlePrepare frame) := by
  refine .get_bind fun c _ => .ite (fun _ => .pure ()) fun _ => .ite (fun _ => .pure ()) fun _ =>
    .ite (fun _ => .pure ()) fun _ => .ite (fun _ => ?_) fun _ => ?_
  · exact .bind (keeps_preparedAt _) fun drained => keeps_sendToComponent _ _ _ _ _ _
  · refine .ite (fun _ => ?_) fun _ => keyed_prepareFor frame.term
    exact .bind (keyed_abortPrepare false) fun _ => keyed_prepareFor frame.term

/-- A report of a member enters the table once. -/
theorem keyed_handlePrepared {frame : Frame} (hmember : frame.sender ∈ members) :
    Script.Keeps (Keyed members) (handlePrepared frame) :=
  .get_bind fun _ _ => .ite (fun _ => .pure ()) fun _ =>
    .bind (.modify fun _ hc => hc.assigned hmember _) fun _ => keyed_tryBeginCommit

theorem keyed_handleCommit (frame : Frame) :
    Script.Keeps (Keyed members) (handleCommit frame) := by
  refine .get_bind fun c _ => .ite (fun _ => .pure ()) fun _ =>
    .ite (fun _ => keeps_sendToComponent _ _ _ _ _ _) fun _ => .ite (fun _ => .pure ())
    fun _ => .bind (.modify fun c hc => hc.congr rfl rfl rfl rfl) fun _ =>
      .bind (keeps_persist _ _ _ _) fun stored => .ite (fun _ => ?_) fun _ => .pure ()
  refine .bind (.perform _) fun installed => .ite (fun _ => ?_) fun _ => .pure ()
  exact .bind (.modify fun c hc => hc.congr rfl rfl rfl rfl) fun _ =>
    keeps_sendToComponent _ _ _ _ _ _

/-- An acknowledgement of a member enters the table once. -/
theorem keyed_handleCommitAck {frame : Frame} (hmember : frame.sender ∈ members) :
    Script.Keeps (Keyed members) (handleCommitAck frame) := by
  refine .get_bind fun c _ => .ite (fun _ => .pure ()) fun _ =>
    .bind (.modify fun c hc => hc.acked rfl rfl rfl (hc.mem_insert hmember)) fun _ =>
      .get_bind fun c _ => .ite (fun _ => ?_) fun _ => .pure ()
  exact .modify fun c hc => hc.congr rfl rfl rfl rfl

/-- A frame is handled for a member only, so both tables stay keyed. -/
theorem keyed_handleFrame (frame : Frame) (source : Endpoint) :
    Script.Keeps (Keyed members) (handleFrame frame source) := by
  refine .get_bind fun c hc => .ite (fun _ => .pure ()) fun _ => .ite (fun _ => .pure ())
    fun hguard => .ite (fun _ => .pure ()) fun _ => ?_
  have hmember : frame.sender ∈ members := by
    rw [← hc.members_eq]
    simpa [isMember] using (not_or.mp hguard).2
  cases frame.type with
  | trigger => exact .ite (fun _ => keyed_beginLeaderPrepare) fun _ => .pure ()
  | prepare => exact keyed_handlePrepare frame
  | prepared => exact keyed_handlePrepared hmember
  | commit => exact keyed_handleCommit frame
  | commitAck => exact keyed_handleCommitAck hmember
  | abort => exact .get_bind fun _ _ => .ite (fun _ => keyed_abortPrepare false) fun _ => .pure ()

/-- The timer adds no one to either table. -/
theorem keyed_tick (now : ℕ) : Script.Keeps (Keyed members) (tick now) := by
  have hretry : Script.Keeps (Keyed members) (modify fun c : Impl =>
      { c with nextRetry := now + c.config.retryAfter } : HandoffM PUnit) :=
    .modify fun c hc => hc.congr rfl rfl rfl rfl
  refine .bind ?_ fun _ => ?_
  · refine .get_bind fun c _ => .ite (fun _ => .pure ()) fun _ => .bind (.perform _) fun mode =>
      .ite (fun _ => .pure ()) fun _ => .ite (fun _ => ?_) fun _ => .pure ()
    refine .bind (.perform _) fun total => .ite (fun _ => ?_) fun _ => .pure ()
    refine .ite (fun _ => keyed_beginLeaderPrepare) fun _ => .ite (fun _ => ?_) fun _ => .pure ()
    exact .bind (keeps_sendToComponent _ _ _ _ _ _) fun _ =>
      .modify fun c hc => hc.congr rfl rfl rfl rfl
  · refine .get_bind fun c _ => .ite (fun _ => ?_) fun _ => .ite (fun _ => ?_) fun _ =>
      .ite (fun _ => ?_) fun _ => .pure ()
    · refine .ite (fun _ => keyed_abortPrepare true) fun _ => .ite (fun _ => ?_) fun _ => .pure ()
      exact .bind (keeps_preparedAt _) fun _ => .bind (keeps_broadcast _ _ _ _ _) fun _ => hretry
    · refine .ite (fun _ => keyed_abortPrepare false) fun _ => .ite (fun _ => ?_) fun _ => .pure ()
      exact .bind (keeps_preparedAt _) fun _ => .bind (keeps_sendToComponent _ _ _ _ _ _)
        fun _ => hretry
    · exact .bind (keeps_sendEach _ _ _ _ _ _) fun _ => hretry

theorem keyed_stop : Script.Keeps (Keyed members) stop :=
  .get_bind fun _ _ => .ite (fun _ => keyed_abortPrepare false) fun _ => .pure ()

end Impl

/-! ### Over a lifetime -/

namespace Process

variable {S : Site} {w : Process}

/-- The keys are members at every point of the program in hand. -/
def Filed (S : Site) (w : Process) : Prop :=
  w.node.up = true → w.node.control.Always (Impl.Keyed S.handoff.members)

/-- A process that has just started has empty maps. -/
private theorem keyed_of_recovers {e e' : CounterEngine} {c c₀ : Impl}
    {journal : Option JournalRecord}
    (hvalid : S.handoff.validate S.resolve S.config.engine = .ok c₀)
    (h : Recovers e c₀ journal e' c) : Impl.Keyed S.handoff.members c := by
  have hvalidated := DistributedHandoffConfig.validated_of_validate hvalid
  have hkeyed : Impl.Keyed S.handoff.members c₀ := by
    refine ⟨hvalidated.members, ?_, ?_, ?_⟩
    · rw [← hvalidated.members, hvalidated.config_eq]
      exact hvalidated.self_mem
    · rw [← hvalidated.fresh_eq]
      exact List.forall_mem_nil _
    · rw [← hvalidated.fresh_eq]
      exact List.forall_mem_nil _
  cases h with
  | idle => exact hkeyed
  | prepared => exact hkeyed.congr rfl rfl rfl rfl
  | committed => exact hkeyed.congr rfl rfl rfl rfl

/-- One step keeps the journal and the books in agreement. -/
private theorem Filed.step {w' : Process} {action : ProcessAction} (h : Filed S w)
    (hstep : w.step S action = some w') : Filed S w' := by
  -- a handler that is taken up files under members only
  have hhandle : ∀ (handler : HandoffM Unit) {c : Impl},
      Script.Keeps (Impl.Keyed S.handoff.members) handler → w.node.up = true →
      w.node.control = .ret c () → (handler c).Always (Impl.Keyed S.handoff.members) := by
    intro handler c hkeeps hup hcontrol
    have hfiled := h hup
    rw [hcontrol] at hfiled
    exact hkeeps c hfiled
  cases moves_of_step hstep with
  | serves hup => exact fun _ => h hup
  | deliver hup hcontrol =>
    exact fun _ => hhandle (Impl.handleFrame _ _) (Impl.keyed_handleFrame _ _) hup hcontrol
  | tick hup hcontrol => exact fun _ => hhandle (Impl.tick _) (Impl.keyed_tick _) hup hcontrol
  | stop hup hcontrol => exact fun _ => hhandle Impl.stop Impl.keyed_stop hup hcontrol
  | effect hup hcontrol =>
    have hfiled := h hup
    rw [hcontrol] at hfiled
    exact fun _ => hfiled.2 _
  | fault => exact nofun
  | crash => exact nofun
  | failed hdown => exact fun hup => absurd (hdown.symm.trans hup) nofun
  | started _ _ hvalid hrecovers => exact fun _ => keyed_of_recovers hvalid hrecovers

/-- A prepared controller: it holds the report that its engine made last, its journal names its
term, and its engine is claimed behind a closed gate. -/
structure Engaged (w : Process) (c : Impl) : Prop where
  own : ∃ own, w.notes.begun = some own ∧ c.prepared.lookup c.config.componentId = some own
  journaled : Journaled c.activeTerm w.node.journal
  active : w.node.engine.distributedHandoffActive = true
  gate : w.node.engine.gateOpen = false

/-- The books of a process whose controller `c` has no handler in hand. -/
structure Bookkept (w : Process) (c : Impl) : Prop where
  prepared : ∀ member ∈ c.prepared.map Prod.fst, member ∈ c.members
  commitAcks : ∀ member ∈ c.commitAcks, member ∈ c.members
  engaged : c.state = .leaderPreparing ∨ c.state = .followerPrepared → Engaged w c
  idle : c.state = .idle → c.activeTerm = 0 ∧ w.node.engine.distributedHandoffActive = false

private theorem bookkept_of_rest {c : Impl} (h : Rest S False c w.desk)
    (hkeyed : Impl.Keyed S.handoff.members c) : Bookkept w c where
  prepared := by
    rw [hkeyed.members_eq]
    exact hkeyed.prepared
  commitAcks := by
    rw [hkeyed.members_eq]
    exact hkeyed.commitAcks
  engaged := by
    rintro (hstate | hstate)
    · obtain ⟨own, -, stand⟩ := h.of_preparing hstate
      exact ⟨⟨own, stand.facts.begun, stand.facts.gathered.lookup⟩, stand.facts.journal,
        stand.engine.active, stand.engine.gate⟩
    · obtain ⟨own, -, -, map, stand⟩ := h.of_prepared hstate
      refine ⟨⟨own, stand.facts.begun, ?_⟩, stand.facts.journal, stand.engine.active,
        stand.engine.gate⟩
      rw [map]
      simp
  idle := by
    intro hstate
    obtain ⟨term, stand⟩ := h.of_idle hstate
    exact ⟨term, stand.engine.active⟩

/-- **The bookkeeping of a controller.** In every run of a process, from any journal and over any
number of restarts, whatever frames arrive, however the journal fails and whatever the other threads
do between the calls of the engine:

* a controller that has no handler in hand keeps its books;
* no handler is about to let an exception out of a `noexcept` function;
* a commit of a total within the limit that a handler is about to make succeeds. -/
theorem controller_bookkept {journal : Option JournalRecord}
    (h : Reaches S (fun _ _ => True) journal w) (hup : w.node.up = true) :
    (∀ c, w.node.control = .ret c () → Bookkept w c) ∧
    (∀ c k, w.node.control ≠ .op c .terminate k) ∧
    ∀ c total owner k, w.node.control = .op c (.commitHandoff total owner) k →
      total ≤ w.node.engine.limit →
      (w.node.engine.commitDistributedHandoff total owner).1 = true := by
  have horderly : Orderly S False w := orderly_of_reaches False.elim h
  have hfiled : Filed S w :=
    Steps.invariant h (show Filed S (init S journal) from nofun) fun _ _ _ hw _ hstep =>
      hw.step hstep
  have hmeets := horderly.running hup
  refine ⟨fun c hcontrol => ?_, fun c k hcontrol => ?_, fun c total owner k hcontrol hle => ?_⟩
  · have hkeyed := hfiled hup
    rw [hcontrol] at hkeyed
    exact bookkept_of_rest (horderly.rest hup hcontrol) hkeyed
  · rw [hcontrol] at hmeets
    exact hmeets.1 rfl
  · rw [hcontrol] at hmeets
    obtain ⟨hpromise, -⟩ := Contract.Meets.step hmeets
      ⟨{}, _, _, _, rfl, rfl⟩
    exact (hpromise.1 hle).1

/-- The leader of a pair that started without a journal, was asked for a handoff and has begun its
round. -/
theorem controller_bookkept_pair :
    ∃ w c, Reaches (pairSite 0) (fun _ _ => True) none w ∧ w.node.up = true ∧
      w.node.control = .ret c () ∧ c.state = .leaderPreparing ∧ Bookkept w c := by
  have hexec : (exec (step (pairSite 0)) (fun _ _ => True) (init (pairSite 0) none)
      (pairRound 1000)).map (fun w => decide (w.node.up = true ∧
        w.restsIn .leaderPreparing = true)) = some true := by decide +kernel
  obtain ⟨w, hrun, hup, hstate⟩ := Steps.exists_of_exec hexec
  obtain ⟨c, hcontrol, hstate⟩ := exists_of_restsIn hstate
  exact ⟨w, c, hrun, hup, hcontrol, hstate, (controller_bookkept hrun hup).1 c hcontrol⟩

end Process

end HotCounter
