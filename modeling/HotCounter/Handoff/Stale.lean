import HotCounter.Handoff.Lifetime

/-!
# What a participant does with outdated frames

A participant remembers neither the terms it has aborted nor, once it is idle, the one it was in:
the guards of `handle_frame` compare a frame with an active term that an abort sets back to 0 and
with a committed term that aborts do not move. Only the order of the terms protects it. In a run in
which no `Prepare` frame takes an idle participant back to a term it has left
(`Process.relapses`), every outdated frame leaves it alone (`finished_stays_finished`); a delayed
`Prepare` frame that does take it back makes it prepare once more (`delayed_prepare_rolls_back`).
-/

namespace HotCounter

namespace Process

open Foundation
open CounterEngine (Free)

variable {S : Site} {w w' : Process} {c : Impl}

/-- The step takes up an outdated frame or goes on with one. -/
def handlesStale (w : Process) : ProcessAction → Bool
  | .node (.deliver frame _) => w.notes.outdated frame
  | .node (.effect _) => w.stale
  | _ => false

theorem handlesStale_of_isCall {action : NodeAction} (h : action.isCall = true) :
    w.handlesStale (.node action) = false := by
  cases action with
  | deliver => cases h
  | effect => cases h
  | _ => rfl

/-- A step leaves the participant alone: the controller, the engine with its gate and the journal
stay as they are, and no `PREPARED` frame is sent. -/
structure LeavesAlone (w w' : Process) : Prop where
  impl : w'.node.impl = w.node.impl
  engine : w'.node.engine = w.node.engine
  journal : w'.node.journal = w.node.journal
  silent : ∀ c destination frame k, w.node.control = .op c (.send destination frame) k →
    frame.type ≠ .prepared

/-- What is left of the handling of an outdated frame: nothing, an acknowledgement of the commit
that was installed last, or a drain that an engine outside its local modes refuses. -/
inductive Inert (c : Impl) : Prog Impl Reply Unit → CounterEngine → Prop
  | done (e : CounterEngine) : Inert c (.ret c ()) e
  | acknowledges {e : CounterEngine} {destination : Endpoint} {frame : Frame}
    (htype : frame.type = .commitAck) :
    Inert c (.op c (.send destination frame) fun _ => .ret c ()) e
  | refused {e : CounterEngine} {k : Reply .beginHandoff → Prog Impl Reply Unit}
    (hengine : Free False e) (hnone : k none = .ret c ()) : Inert c (.op c .beginHandoff k) e

/-! ### Taking up an outdated frame -/

theorem inert_sendToComponent {component term counter epoch value : ℕ} {e : CounterEngine} :
    Inert c (Impl.sendToComponent .commitAck component term counter epoch value c) e := by
  unfold Impl.sendToComponent
  simp only [Script.bind_apply, Script.get_apply, Prog.ret_bind]
  cases c.peers.lookup component with
  | none => exact .done e
  | some endpoint => exact .acknowledges rfl

/-- The terms that a participant at rest has left are below the one it is in. -/
private theorem Rest.term_ne {d : Desk} (h : Rest S True c d) {frame : Frame}
    (hfollower : S.isLeader = false) (houtdated : d.notes.outdated frame = true)
    (hbusy : c.state ≠ .idle) : frame.term < c.activeTerm ∧ c.lastCommittedTerm = 0 ∧
      (c.state = .followerPrepared ∨ c.state = .followerCommitting) := by
  have hlt : ∀ {n : Notes}, Ahead True c.activeTerm n → n.outdated frame = true →
      frame.term < c.activeTerm := by
    intro n hahead houtdated
    unfold Notes.outdated at houtdated
    simp only [Bool.and_eq_true, List.any_eq_true, decide_eq_true_eq] at houtdated
    obtain ⟨-, old, hold, hle⟩ := houtdated
    exact hle.trans_lt (hahead trivial old hold)
  cases h with
  | idle state => exact absurd state hbusy
  | prepared own state role last map stand =>
    exact ⟨hlt stand.facts.ahead houtdated, last, .inl state⟩
  | installing own state role last stand =>
    exact ⟨hlt stand.facts houtdated, last, .inr state⟩
  | preparing own state role => rw [hfollower] at role; cases role
  | blocked own state role => rw [hfollower] at role; cases role
  | committing state role => rw [hfollower] at role; cases role

/-- An outdated `Prepare` frame: a busy participant is in a newer term, and an idle one is outside
its local modes. -/
private theorem inert_handlePrepare {d : Desk} (h : Rest S True c d) {frame : Frame}
    (hfollower : S.isLeader = false) (houtdated : d.notes.outdated frame = true)
    (hleft : c.state = .idle → frame.sender = c.config.leaderComponentId →
      frame.strictOwner = c.config.strictOwnerComponentId →
      ¬ frame.term < c.lastCommittedTerm → Free False d.engine) :
    Inert c (Impl.handlePrepare frame c) d.engine := by
  unfold Impl.handlePrepare
  simp only [Script.bind_apply, Script.get_apply, Script.ite_apply, Prog.ret_bind]
  split
  · exact .done _
  rename_i hfrom
  push Not at hfrom
  split
  · exact .done _
  rename_i hfrozen
  split
  · exact .done _
  rename_i hnewer
  push Not at hnewer
  by_cases hidle : c.state = .idle
  · rw [if_neg (by simp [hidle]), if_neg (by simp [hidle])]
    exact .refused (hleft hidle hfrom.1 hfrom.2 hnewer.2.not_gt) rfl
  · obtain ⟨hlt, -, hstate | hstate⟩ := h.term_ne hfollower houtdated hidle
    · exact absurd (hnewer.1 hstate) (Nat.not_le.mpr hlt)
    · exact absurd (.inl hstate) hfrozen

/-- An outdated `Commit` frame is acknowledged if it is the one installed last. -/
private theorem inert_handleCommit {d : Desk} (h : Rest S True c d) {frame : Frame}
    (hfollower : S.isLeader = false) (houtdated : d.notes.outdated frame = true) :
    Inert c (Impl.handleCommit frame c) d.engine := by
  unfold Impl.handleCommit
  simp only [Script.bind_apply, Script.get_apply, Script.ite_apply, Prog.ret_bind]
  split
  · exact .done _
  split
  · exact inert_sendToComponent
  split
  · exact .done _
  rename_i hcurrent
  push Not at hcurrent
  by_cases hidle : c.state = .idle
  · exact absurd (hcurrent.1 (by simp [hidle])) (by simp [hidle])
  · obtain ⟨hlt, -⟩ := h.term_ne hfollower houtdated hidle
    exact absurd hcurrent.2 hlt.ne

private theorem inert_handleAbort {d : Desk} (h : Rest S True c d) {frame : Frame}
    (hfollower : S.isLeader = false) (houtdated : d.notes.outdated frame = true) :
    Inert c (Impl.handleAbort frame c) d.engine := by
  unfold Impl.handleAbort
  simp only [Script.bind_apply, Script.get_apply, Script.ite_apply, Prog.ret_bind]
  split
  · rename_i hcurrent
    obtain ⟨hlt, -⟩ := h.term_ne hfollower houtdated (by rw [hcurrent.2.2]; nofun)
    exact absurd hcurrent.2.1 hlt.ne
  · exact .done _

/-- Whatever outdated frame arrives, hardly anything is left to do. -/
private theorem inert_handleFrame {d : Desk} (h : Rest S True c d) {frame : Frame}
    {source : Endpoint} (hfollower : S.isLeader = false)
    (houtdated : d.notes.outdated frame = true)
    (hleft : c.admits frame source = true → frame.type = .prepare → c.state = .idle →
      frame.sender = c.config.leaderComponentId →
      frame.strictOwner = c.config.strictOwnerComponentId →
      ¬ frame.term < c.lastCommittedTerm → Free False d.engine) :
    Inert c (Impl.handleFrame frame source c) d.engine := by
  unfold Impl.handleFrame
  simp only [Script.bind_apply, Script.get_apply, Script.ite_apply, Prog.ret_bind]
  split
  · exact .done _
  rename_i hfence
  split
  · exact .done _
  rename_i hforeign
  split
  · exact .done _
  rename_i hsource
  have hadmits : c.admits frame source = true := by
    push Not at hforeign
    simp_all [Impl.admits]
  cases htype : frame.type with
  | prepare => exact inert_handlePrepare h hfollower houtdated (hleft hadmits htype)
  | commit => exact inert_handleCommit h hfollower houtdated
  | abort => exact inert_handleAbort h hfollower houtdated
  | trigger => simp [Notes.outdated, htype] at houtdated
  | prepared => simp [Notes.outdated, htype] at houtdated
  | commitAck => simp [Notes.outdated, htype] at houtdated

/-! ### Over a run -/

/-- The runs in which no frame takes the participant back. -/
def Ordered (w : Process) (action : ProcessAction) : Prop := w.relapses action = false

instance (w : Process) (action : ProcessAction) : Decidable (Ordered w action) :=
  inferInstanceAs (Decidable (w.relapses action = false))

/-- While an outdated frame is in hand, hardly anything is left to do. -/
structure Undisturbed (S : Site) (w : Process) : Prop where
  orderly : Orderly S True w
  inert : w.node.up = true → w.stale = true → Inert w.node.impl w.node.control w.node.engine

/-- Other threads do not bring a refused drain back. -/
private theorem Inert.serves {p : Prog Impl Reply Unit} {e e' : CounterEngine}
    (h : Inert c p e) (hsound : e.Sound) (hs : e.Serves e') : Inert c p e' := by
  cases h with
  | done => exact .done e'
  | acknowledges htype => exact .acknowledges htype
  | refused hengine hnone => exact .refused (hengine.serves hsound hs) hnone

/-- A participant at rest that is taken back by no frame has left its local modes when an outdated
`Prepare` frame gets through to it. -/
private theorem free_of_ordered {frame : Frame} {source : Endpoint} (h : Rest S True c w.desk)
    (himpl : w.node.impl = c) (hok : Ordered w (.node (.deliver frame source)))
    (houtdated : w.notes.outdated frame = true) (hadmits : c.admits frame source = true)
    (htype : frame.type = .prepare) (hidle : c.state = .idle)
    (hsender : frame.sender = c.config.leaderComponentId)
    (howner : frame.strictOwner = c.config.strictOwnerComponentId)
    (hterm : ¬ frame.term < c.lastCommittedTerm) : Free False w.node.engine := by
  obtain ⟨-, stand⟩ := h.of_idle hidle
  refine ⟨stand.engine.active, fun hhome => ?_⟩
  unfold Notes.outdated at houtdated
  simp only [Bool.and_eq_true, List.any_eq_true, decide_eq_true_eq] at houtdated
  obtain ⟨-, old, hold, hle⟩ := houtdated
  have hrelapses := relapses_of himpl hadmits htype hidle hhome hsender howner hterm hold hle
  rw [hok] at hrelapses
  cases hrelapses

/-- One step that goes on with an outdated frame: the participant is left alone, and what is left
of the handling is still next to nothing. -/
private theorem Inert.step {e : Effect} {k : Reply e → Prog Impl Reply Unit}
    {engine engine' : CounterEngine} {journal journal' : Option JournalRecord} {oracle : Oracle}
    {reply : Reply e} {packets : List Packet} (h : Inert c (.op c e k) engine)
    (hrun : e.run oracle engine journal = some (reply, engine', journal', packets)) :
    k reply = .ret c () ∧ engine' = engine ∧ journal' = journal ∧
      ∀ destination frame, e = .send destination frame → frame.type ≠ .prepared := by
  cases h with
  | acknowledges htype =>
    obtain ⟨rfl, rfl, rfl, -⟩ := Option.some.inj hrun
    refine ⟨rfl, rfl, rfl, ?_⟩
    rintro destination frame ⟨⟩ hprepared
    cases htype.symm.trans hprepared
  | refused hengine hnone =>
    have hmode : engine.mode ≠ .reservedPeak := fun hpeak => hengine.peak hpeak
    have hbegin := CounterEngine.beginDistributedHandoff_none (.inr hmode)
    simp only [Effect.run, hbegin] at hrun
    obtain ⟨rfl, rfl, rfl, -⟩ := Option.some.inj hrun
    refine ⟨hnone, rfl, rfl, ?_⟩
    rintro destination frame ⟨⟩

private theorem Inert.state {p : Prog Impl Reply Unit} {e : CounterEngine} (h : Inert c p e) :
    p.state = c := by
  cases h <;> rfl

/-- An outdated frame arrives at a participant at rest. -/
private theorem Undisturbed.deliver (hfollower : S.isLeader = false) (h : Undisturbed S w)
    (hup : w.node.up = true) {frame : Frame} {source : Endpoint}
    (hok : Ordered w (.node (.deliver frame source))) (houtdated : w.notes.outdated frame = true)
    (hcontrol : w.node.control = .ret c ()) :
    Inert c (Impl.handleFrame frame source c) w.node.engine := by
  have hrest : Rest S True c w.desk := h.orderly.rest hup hcontrol
  have himpl : w.node.impl = c := by rw [Node.impl, hcontrol]; rfl
  exact inert_handleFrame hrest hfollower houtdated (free_of_ordered hrest himpl hok houtdated)

private theorem Undisturbed.step (hfollower : S.isLeader = false) (h : Undisturbed S w)
    {action : ProcessAction} (hok : Ordered w action) (hstep : w.step S action = some w') :
    Undisturbed S w' := by
  refine ⟨h.orderly.step (fun _ => hok) hstep, fun hup' hstale => ?_⟩
  cases moves_of_step hstep with
  | serves hup _ hs => exact (h.inert hup hstale).serves h.orderly.upheld.reachable.sound.1 hs
  | deliver hup hcontrol =>
    have hinert := h.deliver hfollower hup hok hstale hcontrol
    rw [Node.impl, hinert.state]
    exact hinert
  | tick => cases hstale
  | stop => cases hstale
  | effect hup hcontrol hrun =>
    have hinert := h.inert hup hstale
    rw [Node.impl, hcontrol] at hinert
    obtain ⟨hdone, -⟩ := hinert.step hrun
    rw [Node.impl, hdone]
    exact .done _
  | fault => cases hup'
  | crash => cases hup'
  | failed hdown => cases hdown.symm.trans hup'
  | started => exact .done _

/-- **A finished term stays finished.** In every run of a participant in which no `Prepare` frame
takes it back while it is idle, no outdated frame, whenever it arrives and whatever happens while it
is handled, moves the controller, touches the engine or its gate, writes the journal or makes the
participant send `PREPARED`. -/
theorem finished_stays_finished {journal : Option JournalRecord} {action : ProcessAction}
    (hfollower : S.isLeader = false) (h : Reaches S Ordered journal w) (hok : Ordered w action)
    (hstep : w.step S action = some w') (hstale : w.handlesStale action = true) :
    LeavesAlone w w' := by
  have hw : Undisturbed S w :=
    Steps.invariant h ⟨orderly_init journal, nofun⟩ fun _ _ _ hw hok hstep =>
      hw.step hfollower hok hstep
  cases moves_of_step hstep with
  | serves _ hcall =>
    rw [handlesStale_of_isCall hcall] at hstale
    cases hstale
  | deliver hup hcontrol =>
    have hinert := hw.deliver hfollower hup hok hstale hcontrol
    refine ⟨?_, rfl, rfl, fun c' destination frame' k hop => ?_⟩
    · rw [Node.impl, Node.impl, hinert.state, hcontrol]
      rfl
    · cases hcontrol.symm.trans hop
  | effect hup hcontrol hrun =>
    have hinert := hw.inert hup hstale
    rw [Node.impl, hcontrol] at hinert
    obtain ⟨hdone, hengine, hjournal, hsilent⟩ := hinert.step hrun
    refine ⟨?_, hengine, hjournal, fun c' destination frame k' hop => ?_⟩
    · rw [Node.impl, Node.impl, hdone, hcontrol]
      rfl
    · obtain ⟨-, he, -⟩ := Prog.op.inj (hcontrol.symm.trans hop)
      exact hsilent destination frame he
  | fault hup hcontrol =>
    have hinert := hw.inert hup hstale
    rw [Node.impl, hcontrol] at hinert
    cases hinert
  | tick => cases hstale
  | stop => cases hstale
  | crash => cases hstale
  | failed => cases hstale
  | started => cases hstale

/-- The last effect of the process was to send a `PREPARED` frame. -/
def reports (w : Process) : Bool :=
  match w.node.performed with
  | .send _ frame :: _ => frame.type == .prepared
  | _ => false

/-- The leader of the pair aborts a term, and the follower leaves it. -/
def pairAborts (term : ℕ) : List ProcessAction :=
  arrives 1 ⟨.abort, 0, term, 0, 0, 0, 0⟩ :: effects 2 1000

/-- The leader's `Prepare` frame of a term arrives at the follower of the pair. -/
def pairDelayed (term : ℕ) : ProcessAction := arrives 1 ⟨.prepare, 0, term, 17, 1, 0, 0⟩

/-- The follower of the pair has left the term 1000, has prepared for 2000, and gets the `Prepare`
frame of 1000 once more. -/
theorem finished_stays_finished_pair :
    ∃ w w', Reaches (pairSite 1) Ordered none w ∧ w.notes.finished = [1000] ∧
      w.step (pairSite 1) (pairDelayed 1000) = some w' ∧ LeavesAlone w w' := by
  have hexec : (exec (step (pairSite 1)) Ordered (init (pairSite 1) none)
      (pairPrepared 1000 ++ pairAborts 1000 ++ pairDelayed 2000 :: effects 4 1000)).map
        (fun w => decide (w.notes.finished = [1000] ∧ Ordered w (pairDelayed 1000) ∧
          w.handlesStale (pairDelayed 1000) = true ∧
          (w.step (pairSite 1) (pairDelayed 1000)).isSome = true)) = some true := by
    decide +kernel
  obtain ⟨w, hrun, hfinished, hok, hstale, hstep⟩ := Steps.exists_of_exec hexec
  obtain ⟨w', hstep⟩ := Option.isSome_iff_exists.mp hstep
  exact ⟨w, w', hrun, hfinished, hstep, finished_stays_finished rfl hrun hok hstep hstale⟩

/-- The follower of the pair has left the term 1000 by the leader's abort and is idle when the
`Prepare` frame of 1000 arrives once more: it closes its gate again, writes its journal and sends a
second report. -/
theorem delayed_prepare_rolls_back :
    ∃ w w' u, Reaches (pairSite 1) (fun _ _ => True) none w ∧ w.notes.finished = [1000] ∧
      w.node.impl.state = .idle ∧ w.node.engine.gateOpen = true ∧
      w.handlesStale (.node (.effect {})) = true ∧
      w.step (pairSite 1) (.node (.effect {})) = some w' ∧ w'.node.engine.gateOpen = false ∧
      ¬ LeavesAlone w w' ∧ Steps (step (pairSite 1)) (fun _ _ => True) w' u ∧
      u.restsIn .followerPrepared = true ∧ u.node.impl.activeTerm = 1000 ∧
      u.node.journal.map (·.term) = some 1000 ∧ u.reports = true := by
  have hexec : (exec (step (pairSite 1)) (fun _ _ => True) (init (pairSite 1) none)
      (pairPrepared 1000 ++ pairAborts 1000 ++ [pairDelayed 1000])).map
        (fun w => decide (w.notes.finished = [1000] ∧ w.node.impl.state = .idle ∧
          w.node.engine.gateOpen = true ∧ w.handlesStale (.node (.effect {})) = true ∧
          ((w.step (pairSite 1) (.node (.effect {}))).any fun w' => !w'.node.engine.gateOpen &&
            (exec (step (pairSite 1)) (fun _ _ => True) w' (effects 3 1000)).any fun u =>
              u.restsIn .followerPrepared && u.node.impl.activeTerm == 1000 &&
                u.node.journal.map (·.term) == some 1000 && u.reports) = true)) =
        some true := by
    decide +kernel
  obtain ⟨w, hrun, hfinished, hidle, hopen, hstale, hrest⟩ := Steps.exists_of_exec hexec
  obtain ⟨w', hstep, hrest⟩ := (Option.any_eq_true _ _).mp hrest
  obtain ⟨hclosed, hrest⟩ := Bool.and_eq_true_iff.mp hrest
  have hclosed : w'.node.engine.gateOpen = false := by simpa using hclosed
  obtain ⟨u, hexec, hu⟩ := (Option.any_eq_true _ _).mp hrest
  simp only [Bool.and_eq_true, beq_iff_eq] at hu
  refine ⟨w, w', u, hrun, hfinished, hidle, hopen, hstale, hstep, hclosed, fun hleaves => ?_,
    .of_exec hexec, hu.1.1.1, hu.1.1.2, hu.1.2, hu.2⟩
  rw [hleaves.engine, hopen] at hclosed
  cases hclosed

end Process

end HotCounter
