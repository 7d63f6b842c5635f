import HotCounter.Handoff.Handlers
import HotCounter.Handoff.Restart

/-!
# The lifetime of a process

Over any number of starts, crashes and handlers, the controller of a process keeps its contract:
whatever arrives, whatever the journal and the clock do, and whatever the other threads serve
between its effects (`orderly_of_reaches`).

The runs are those of `Process.step`. An assertion about the order of the terms of a participant
needs a guard: no `Prepare` frame arrives that would take an idle participant back to a term it has
left (`Process.relapses`).
-/

namespace HotCounter

/-- Another thread than the controller's calls the engine. -/
def NodeAction.isCall : NodeAction → Bool
  | .apply _ | .controlLoop | .raisePeakRequest => true
  | .deliver _ _ | .tick _ | .effect _ | .stop => false

namespace Process

open Foundation
open CounterEngine (Free Drained)

variable {S : Site} {g : Prop} {w w' : Process}

/-- A `Prepare` frame of the leader arrives at an idle participant that may be in peak mode, and
its term is not above every term that the participant has left. -/
def relapses (w : Process) : ProcessAction → Bool
  | .node (.deliver frame source) =>
    let c := w.node.impl
    c.admits frame source && frame.type == .prepare &&
      frame.sender == c.config.leaderComponentId &&
      frame.strictOwner == c.config.strictOwnerComponentId &&
      c.state == .idle && (w.node.engine.mode == .strict || w.node.engine.mode == .reservedPeak) &&
      !decide (frame.term < c.lastCommittedTerm) &&
      w.notes.finished.any fun term => frame.term ≤ term
  | _ => false

theorem relapses_of {frame : Frame} {source : Endpoint} {c : Impl} (himpl : w.node.impl = c)
    (hadmits : c.admits frame source = true) (htype : frame.type = .prepare)
    (hidle : c.state = .idle)
    (hhome : w.node.engine.mode = .strict ∨ w.node.engine.mode = .reservedPeak)
    (hsender : frame.sender = c.config.leaderComponentId)
    (howner : frame.strictOwner = c.config.strictOwnerComponentId)
    (hterm : ¬ frame.term < c.lastCommittedTerm) {old : ℕ} (hold : old ∈ w.notes.finished)
    (hle : frame.term ≤ old) : w.relapses (.node (.deliver frame source)) = true := by
  have hhome' : (w.node.engine.mode == .strict || w.node.engine.mode == .reservedPeak) = true := by
    simpa using hhome
  unfold relapses
  dsimp only
  rw [himpl]
  simp only [Bool.and_eq_true, beq_iff_eq, List.any_eq_true, decide_eq_true_eq]
  exact ⟨⟨⟨⟨⟨⟨⟨hadmits, htype⟩, hsender⟩, howner⟩, hidle⟩, hhome'⟩, by simpa using hterm⟩,
    old, hold, hle⟩

/-! ### What a step does -/

/-- What one step of a process does: another thread calls the engine, the controller takes up a
handler or performs an effect, an exception ends the process, it crashes, or it starts. -/
inductive Moves (S : Site) (w : Process) : ProcessAction → Process → Prop
  | serves {action : NodeAction} {e : CounterEngine}
      {served : List (RoutingMode × Request × Result)} (hup : w.node.up = true)
      (hcall : action.isCall = true) (hs : w.node.engine.Serves e) :
      Moves S w (.node action) { w with node := { w.node with engine := e, served := served } }
  | deliver {frame : Frame} {source : Endpoint} {c : Impl} (hup : w.node.up = true)
      (hcontrol : w.node.control = .ret c ()) :
      Moves S w (.node (.deliver frame source))
        ⟨{ w.node with control := Impl.handleFrame frame source c }, w.notes.hear c frame source,
          w.notes.outdated frame⟩
  | tick {now : ℕ} {c : Impl} (hup : w.node.up = true) (hcontrol : w.node.control = .ret c ()) :
      Moves S w (.node (.tick now)) ⟨{ w.node with control := Impl.tick now c }, w.notes, false⟩
  | stop {c : Impl} (hup : w.node.up = true) (hcontrol : w.node.control = .ret c ()) :
      Moves S w (.node .stop)
        ⟨{ w.node with control := Impl.stop c, stopped := true }, w.notes, false⟩
  | effect {oracle : Oracle} {c : Impl} {e : Effect} {k : Reply e → Prog Impl Reply Unit}
      {reply : Reply e} {engine : CounterEngine} {journal : Option JournalRecord}
      {packets : List Packet} (hup : w.node.up = true) (hcontrol : w.node.control = .op c e k)
      (hrun : e.run oracle w.node.engine w.node.journal =
        some (reply, engine, journal, packets)) :
      Moves S w (.node (.effect oracle))
        ⟨{ w.node with
          engine := engine
          journal := journal
          control := k reply
          performed := e :: w.node.performed }, w.notes.record c e reply, w.stale⟩
  | fault {oracle : Oracle} {c : Impl} {k : Reply .terminate → Prog Impl Reply Unit}
      (hup : w.node.up = true) (hcontrol : w.node.control = .op c .terminate k) :
      Moves S w (.node (.effect oracle)) { w with node := { w.node with up := false } }
  | crash (hup : w.node.up = true) :
      Moves S w .crash { w with node := { w.node with up := false } }
  | failed {outcome : StoreOutcome} {journal : Option JournalRecord} (hdown : w.node.up = false)
      (hkept : JournalKept w.node.journal journal) :
      Moves S w (.start outcome) { w with node := { w.node with journal := journal } }
  | started {outcome : StoreOutcome} {journal : Option JournalRecord} {e : CounterEngine}
      {c c₀ : Impl} (hdown : w.node.up = false) (hkept : JournalKept w.node.journal journal)
      (hvalid : S.handoff.validate S.resolve S.config.engine = .ok c₀)
      (hrecovers : Recovers S.config.entered c₀ w.node.journal e c) :
      Moves S w (.start outcome)
        { w with
          node :=
            { w.node with
              up := true
              stopped := false
              engine := e
              control := .ret c ()
              journal := journal
              served := [] } }

/-- The notes after an effect. -/
theorem note_effect {oracle : Oracle} {c : Impl} {e : Effect} {k : Reply e → Prog Impl Reply Unit}
    (hcontrol : w.node.control = .op c e k) {reply : Reply e} {engine : CounterEngine}
    {journal : Option JournalRecord} {packets : List Packet}
    (hrun : e.run oracle w.node.engine w.node.journal = some (reply, engine, journal, packets)) :
    w.note (.effect oracle) = w.notes.record c e reply := by
  unfold note
  dsimp only
  rw [hcontrol]
  dsimp only
  rw [hrun]

/-- Only `terminate` has no outcome. -/
private theorem eq_terminate_of_run {oracle : Oracle} {engine : CounterEngine}
    {journal : Option JournalRecord} {e : Effect} (hrun : e.run oracle engine journal = none) :
    e = .terminate := by
  cases e with
  | terminate => rfl
  | _ => cases hrun

/-- A step of the running process. -/
private theorem moves_of_node (hup : w.node.up = true) {action : NodeAction} {n : Node}
    {packets : List Packet} (hn : w.node.step action = some (n, packets)) :
    Moves S w (.node action) ⟨n, w.note action, w.marks action⟩ := by
  cases action with
  | apply request =>
    obtain ⟨rfl, rfl⟩ := Prod.mk.inj (Option.some.inj hn)
    exact .serves hup rfl (.apply request)
  | controlLoop =>
    obtain ⟨rfl, rfl⟩ := Prod.mk.inj (Option.some.inj hn)
    exact .serves hup rfl .controlLoop
  | raisePeakRequest =>
    obtain ⟨rfl, rfl⟩ := Prod.mk.inj (Option.some.inj hn)
    exact .serves hup rfl .raisePeakRequest
  | deliver frame source =>
    obtain ⟨n', hn', heq⟩ := Option.map_eq_some_iff.mp hn
    obtain ⟨rfl, rfl⟩ := Prod.mk.inj heq
    obtain ⟨c, hcontrol, rfl⟩ := Node.handle_eq_some hn'
    have himpl : w.node.impl = c := by rw [Node.impl, hcontrol]; rfl
    have hnote : w.note (.deliver frame source) = w.notes.hear c frame source := by
      rw [← himpl]
      rfl
    rw [hnote]
    exact .deliver hup hcontrol
  | tick now =>
    obtain ⟨n', hn', heq⟩ := Option.map_eq_some_iff.mp hn
    obtain ⟨rfl, rfl⟩ := Prod.mk.inj heq
    obtain ⟨c, hcontrol, rfl⟩ := Node.handle_eq_some hn'
    exact .tick hup hcontrol
  | stop =>
    obtain ⟨n', hn', heq⟩ := Option.map_eq_some_iff.mp hn
    obtain ⟨rfl, rfl⟩ := Prod.mk.inj heq
    obtain ⟨c, hcontrol, rfl⟩ := Node.handle_eq_some hn'
    exact .stop hup hcontrol
  | effect oracle =>
    simp only [Node.step] at hn
    cases hcontrol : w.node.control with
    | ret c a =>
      rw [hcontrol] at hn
      cases hn
    | op c e k =>
      rw [hcontrol] at hn
      simp only at hn
      cases hrun : e.run oracle w.node.engine w.node.journal with
      -- only `terminate` has no outcome: the process is gone
      | none =>
        obtain rfl := eq_terminate_of_run hrun
        obtain ⟨rfl, rfl⟩ := Prod.mk.inj (Option.some.inj hn)
        have hnote : w.note (.effect oracle) = w.notes := by
          unfold note
          dsimp only
          rw [hcontrol]
          rfl
        rw [hnote, ← hcontrol]
        exact .fault hup hcontrol
      | some outcome =>
        obtain ⟨reply, engine, journal, sent⟩ := outcome
        rw [hrun] at hn
        obtain ⟨rfl, rfl⟩ := Prod.mk.inj (Option.some.inj hn)
        rw [note_effect hcontrol hrun]
        exact .effect hup hcontrol hrun

/-- **What a step of a process does.** -/
theorem moves_of_step {action : ProcessAction} (hstep : w.step S action = some w') :
    Moves S w action w' := by
  cases action with
  | node action =>
    simp only [step] at hstep
    split at hstep
    · rename_i hup
      obtain ⟨⟨n, packets⟩, hn, rfl⟩ := Option.map_eq_some_iff.mp hstep
      exact moves_of_node hup hn
    · cases hstep
  | crash =>
    simp only [step] at hstep
    split at hstep
    · rename_i hup
      obtain rfl := Option.some.inj hstep
      exact .crash hup
    · cases hstep
  | start outcome =>
    simp only [step] at hstep
    split at hstep
    · rename_i hdown
      obtain rfl := Option.some.inj hstep
      obtain ⟨journal, hkept, hfailed | ⟨e, c, c₀, hvalid, hrecovers, hstarted⟩⟩ :=
        w.node.start_recovers S.resolve S.config S.handoff outcome
      · rw [hfailed]
        exact .failed hdown hkept
      · rw [hstarted]
        exact .started hdown hkept hvalid hrecovers
    · cases hstep

/-! ### The invariant -/

/-- The invariant of a process. -/
structure Orderly (S : Site) (g : Prop) (w : Process) : Prop where
  upheld : Upheld S w.desk
  running : w.node.up = true → ComesToRest S g w.node.control w.desk

theorem orderly_init (journal : Option JournalRecord) : Orderly S g (init S journal) where
  upheld := ⟨⟨[], rfl⟩, fun _ => rfl, fun _ h => absurd h List.not_mem_nil, fun _ => ⟨0, fun _ h =>
    absurd h List.not_mem_nil⟩, fun _ => .inl rfl⟩
  running := nofun

/-! ### The steps of a running process -/

/-- A controller that has no handler in hand is at rest. -/
theorem Orderly.rest (h : Orderly S g w) (hup : w.node.up = true) {c : Impl}
    (hcontrol : w.node.control = .ret c ()) : Rest S g c w.desk := by
  have hrun := h.running hup
  rw [hcontrol] at hrun
  exact hrun.rest

/-- Another thread calls the engine. -/
private theorem Orderly.serves (h : Orderly S g w) (hup : w.node.up = true)
    {served : List (RoutingMode × Request × Result)} {e : CounterEngine}
    (hs : w.node.engine.Serves e) (stale : Bool) :
    Orderly S g ⟨{ w.node with engine := e, served := served }, w.notes, stale⟩ where
  upheld := ⟨h.upheld.reachable.serves hs, h.upheld.books⟩
  running := fun _ => Contract.Meets.rely (h.running hup) ⟨.single hs, rfl, rfl⟩

/-- Only the reports that count are noted when a frame arrives. -/
private theorem books_hear {journal : Option JournalRecord} {n : Notes} (h : Books S journal n)
    (c : Impl) (frame : Frame) (source : Endpoint) : Books S journal (n.hear c frame source) := by
  unfold Notes.hear
  split
  · exact ⟨h.drawn, h.announced, h.amounts, h.journaled⟩
  · exact h

/-- The controller performs an effect. -/
private theorem Orderly.effect (h : Orderly S g w) (hup : w.node.up = true) {oracle : Oracle}
    {c : Impl} {e : Effect} {k : Reply e → Prog Impl Reply Unit}
    (hcontrol : w.node.control = .op c e k) {reply : Reply e} {engine : CounterEngine}
    {journal : Option JournalRecord} {packets : List Packet} {stale : Bool}
    (hrun : e.run oracle w.node.engine w.node.journal = some (reply, engine, journal, packets)) :
    Orderly S g ⟨{ w.node with
      engine := engine
      journal := journal
      control := k reply
      performed := e :: w.node.performed }, w.notes.record c e reply, stale⟩ := by
  have hmeets := h.running hup
  rw [hcontrol] at hmeets
  have hs : (contract S).step c e w.desk reply ⟨engine, journal, w.notes.record c e reply⟩ :=
    ⟨oracle, engine, journal, packets, hrun, rfl⟩
  obtain ⟨hpromise, hrest⟩ := Contract.Meets.step hmeets hs
  exact ⟨hpromise.2, fun _ => hrest⟩

/-- An effect of the controller as a step of the process. -/
theorem step_effect (oracle : Oracle) (hup : w.node.up = true) {c : Impl} {e : Effect}
    {k : Reply e → Prog Impl Reply Unit} (hcontrol : w.node.control = .op c e k) {reply : Reply e}
    {engine : CounterEngine} {journal : Option JournalRecord} {packets : List Packet}
    (hrun : e.run oracle w.node.engine w.node.journal = some (reply, engine, journal, packets)) :
    w.step S (.node (.effect oracle)) = some
      ⟨{ w.node with
        engine := engine
        journal := journal
        control := k reply
        performed := e :: w.node.performed }, w.notes.record c e reply, w.stale⟩ := by
  have hn : w.node.step (.effect oracle) = some ({ w.node with
      engine := engine
      journal := journal
      control := k reply
      performed := e :: w.node.performed }, packets) := by
    simp only [Node.step]
    rw [hcontrol]
    simp only
    rw [hrun]
  rw [← note_effect hcontrol hrun]
  simp only [step, hup, if_true, hn, Option.map_some]
  rfl

/-- The controller takes up a frame. -/
private theorem Orderly.deliver (h : Orderly S g w) (hup : w.node.up = true) {frame : Frame}
    {source : Endpoint} (hg : g → w.relapses (.node (.deliver frame source)) = false) {c : Impl}
    (hcontrol : w.node.control = .ret c ()) (stale : Bool) :
    Orderly S g ⟨{ w.node with control := Impl.handleFrame frame source c },
      w.notes.hear c frame source, stale⟩ := by
  refine ⟨⟨h.upheld.reachable, books_hear h.upheld.books c frame source⟩, fun _ => ?_⟩
  refine comesToRest_handleFrame (h.rest hup hcontrol) ?_
  intro hgiven hadmits htype hstate hmode hsender howner hterm old hold
  by_contra hle
  have himpl : w.node.impl = c := by rw [Node.impl, hcontrol]; rfl
  have hrelapses := relapses_of himpl hadmits htype hstate hmode hsender howner hterm hold
    (Nat.not_lt.mp hle)
  rw [hg hgiven] at hrelapses
  cases hrelapses

/-! ### Starting -/

/-- The calls that make the engine of a runtime before it reads the journal. -/
private theorem reachable_entered (config : CounterRuntimeConfig) :
    CounterEngine.Reachable config.engine config.entered := by
  have hnew : CounterEngine.Reachable config.engine (CounterEngine.new config.engine) := ⟨[], rfl⟩
  unfold CounterRuntimeConfig.entered
  split
  · exact (hnew.run .enterReservedMode).run (.setReplicationPublisher config.replication.isSome)
  · exact hnew.run (.setReplicationPublisher config.replication.isSome)

private theorem active_entered (config : CounterRuntimeConfig) :
    config.entered.distributedHandoffActive = false := by
  obtain ⟨-, -, -, -, -, hactive, -⟩ := CounterEngine.transitionToReserved_new config.engine
  unfold CounterRuntimeConfig.entered
  split
  · exact hactive
  · rfl

/-- A journal that was initialised held no decision. -/
private theorem books_kept {n : Notes} {journal journal' : Option JournalRecord}
    (h : Books S journal n) (hkept : JournalKept journal journal') : Books S journal' n := by
  rcases hkept with rfl | ⟨rfl, rfl⟩
  · exact h
  · refine ⟨h.drawn, h.announced, h.amounts, fun hl => .inl ?_⟩
    exact (h.journaled hl).resolve_right (by simp)

/-- A process that has just started is at rest. -/
private theorem rest_of_recovers {n : Notes} {journal journal' : Option JournalRecord}
    {e : CounterEngine} {c c₀ : Impl} (hbooks : Books S journal n)
    (hkept : JournalKept journal journal')
    (hvalid : S.handoff.validate S.resolve S.config.engine = .ok c₀)
    (h : Recovers S.config.entered c₀ journal e c) : Rest S g c ⟨e, journal', n⟩ := by
  have hfresh := (DistributedHandoffConfig.validated_of_validate hvalid).fresh_eq
  have hconfigured : S.Configured c₀ := by
    unfold Site.Configured
    rw [hfresh]
    exact hvalid
  have hidle : c₀.state = .idle := by rw [← hfresh]; rfl
  have hterm : c₀.activeTerm = 0 := by rw [← hfresh]; rfl
  have hlast : c₀.lastCommittedTerm = 0 := by rw [← hfresh]; rfl
  have hreach := reachable_entered S.config
  have hactive := active_entered S.config
  have hbooks' := books_kept hbooks hkept
  cases h with
  | idle hphase =>
    refine .idle hidle hterm
      ⟨hconfigured, hreach, hbooks', ⟨hactive, fun _ => ⟨hlast, ?_⟩⟩, trivial⟩
    -- a decision would have left another record on disk
    intro _ hl
    rcases hbooks.journaled hl with hnone | ⟨record, rfl, hdecided⟩
    · exact hnone
    · exact absurd hphase hdecided
  | prepared hphase =>
    refine .idle hidle hterm ⟨hconfigured.congr rfl, hreach.run .fence, hbooks',
      ⟨hactive, fun _ => ⟨hlast, fun hfence => ?_⟩⟩, trivial⟩
    cases hfence
  | committed record hjournal hphase hle =>
    obtain ⟨-, hinst, -, -⟩ := hreach.sound.1.recover record.state c₀.isOwner hle
    refine .idle hidle hterm ⟨hconfigured.congr rfl,
      hreach.run (.recoverHandoff record.state record.total c₀.isOwner), hbooks',
      .of_left hinst.active ?_ ?_, trivial⟩
    · exact hinst.mode ▸ CounterEngine.handoffMode_ne_strict c₀.isOwner
    · exact hinst.mode ▸ CounterEngine.handoffMode_ne_reservedPeak c₀.isOwner

/-! ### Runs -/

/-- One step of a process keeps the invariant. -/
theorem Orderly.step (h : Orderly S g w) {action : ProcessAction}
    (hg : g → w.relapses action = false) (hstep : w.step S action = some w') : Orderly S g w' := by
  cases moves_of_step hstep with
  | serves hup _ hs => exact h.serves hup hs _
  | deliver hup hcontrol => exact h.deliver hup hg hcontrol _
  | tick hup hcontrol =>
    exact ⟨⟨h.upheld.reachable, h.upheld.books⟩, fun _ => comesToRest_tick (h.rest hup hcontrol)⟩
  | stop hup hcontrol =>
    exact ⟨⟨h.upheld.reachable, h.upheld.books⟩, fun _ => comesToRest_stop (h.rest hup hcontrol)⟩
  | effect hup hcontrol hrun => exact h.effect hup hcontrol hrun
  | fault hup hcontrol =>
    -- only an exception that leaves a `noexcept` function has no outcome
    have hmeets := h.running hup
    rw [hcontrol] at hmeets
    exact absurd rfl hmeets.1
  | crash => exact ⟨h.upheld, nofun⟩
  | failed hdown hkept =>
    exact ⟨⟨h.upheld.reachable, books_kept h.upheld.books hkept⟩,
      fun hup => absurd (hdown.symm.trans hup) nofun⟩
  | started _ hkept hvalid hrecovers =>
    have hrest : Rest S g _ ⟨_, _, w.notes⟩ :=
      rest_of_recovers h.upheld.books hkept hvalid hrecovers
    exact ⟨hrest.upheld, fun _ => ComesToRest.ret hrest⟩

/-- **The contract over a lifetime.** In every run of a process from any journal, the invariant
holds, its part about the order of terms if no frame of the run takes the participant back. -/
theorem orderly_of_reaches {ok : Process → ProcessAction → Prop} {journal : Option JournalRecord}
    (hok : g → ∀ w action, ok w action → w.relapses action = false)
    (h : Reaches S ok journal w) : Orderly S g w :=
  Steps.invariant h (orderly_init journal) fun w _ action hw hallowed hstep =>
    hw.step (fun hg => hok hg w action hallowed) hstep

/-- The controller has no handler in hand and is in a state. -/
def restsIn (w : Process) (state : ControllerState) : Bool :=
  match w.node.control with
  | .ret c _ => c.state == state
  | .op _ _ _ => false

theorem exists_of_restsIn {state : ControllerState} (h : w.restsIn state = true) :
    ∃ c, w.node.control = .ret c () ∧ c.state = state := by
  unfold restsIn at h
  split at h
  · exact ⟨_, ‹_›, beq_iff_eq.mp h⟩
  · cases h

/-! ### The processes of a pair -/

/-- A process of the pair of `Deployment.pair`. -/
def pairSite (i : ℕ) : Site where
  config := Deployment.pairConfig i
  handoff := Deployment.pairHandoff i
  resolve := fun _ port => some ⟨2130706433, port⟩
  handoff_eq := rfl

/-- A process performs some effects while the clock stands. -/
def effects (count now : ℕ) : List ProcessAction :=
  List.replicate count (.node (.effect ⟨.stored, now⟩))

/-- A frame arrives at process `i` of the pair from the other one. -/
def arrives (i : ℕ) (frame : Frame) : ProcessAction :=
  .node (.deliver frame ⟨2130706433, 9001 - i⟩)

/-- The leader of the pair starts and is asked for a handoff, which it begins at a clock reading. -/
def pairRound (now : ℕ) : List ProcessAction :=
  [.start .stored, arrives 0 ⟨.trigger, 1, 0, 0, 0, 0, 0⟩] ++ effects 4 now

/-- The follower of the pair starts and prepares for a term. -/
def pairPrepared (term : ℕ) : List ProcessAction :=
  [.start .stored, arrives 1 ⟨.prepare, 0, term, 17, 1, 0, 0⟩] ++ effects 4 1000

end Process

end HotCounter
