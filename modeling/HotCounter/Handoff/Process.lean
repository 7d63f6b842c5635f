import HotCounter.Engine.Recovery
import HotCounter.Foundation.Contract
import HotCounter.Handoff.Rules

/-!
# One process and what its controller did

A `Process` is a `Node` with the notes of an observer: what its controller read, sent, stored and
installed, over any number of crashes and restarts. Frames may arrive with any content and from
any address, the clock may show anything, and the other threads of the process serve requests
between any two effects of the controller.

This module states the contract of the controller's programs: what holds between two effects
(`Stand`) and what holds of a controller with no handler in hand (`Rest`). That the handlers meet
it is shown in `HotCounter.Handoff.Contract` and `HotCounter.Handoff.Handlers`.
-/

namespace HotCounter

open Foundation

/-! ### The observer -/

/-- What an observer notes about a controller, newest first: the terms it was prepared for and has
left by an abort or by installing the commit; the clock readings from which `begin_leader_prepare`
drew a term, and those terms; the terms of the `Prepare` and `Abort` frames it sent; the totals it
stored as committed, installed or sent in a `Commit` frame; what its last call of
`begin_distributed_handoff` returned; and the reports that count for the round it is in. -/
structure Notes where
  finished : List ℕ := []
  readings : List ℕ := []
  drawn : List ℕ := []
  announced : List ℕ := []
  amounts : List ℕ := []
  begun : Option DrainedPeakState := none
  heard : List Frame := []

namespace Impl

/-- `handle_frame` gets past its first checks. -/
def admits (c : Impl) (frame : Frame) (source : Endpoint) : Bool :=
  !c.recoveryFenced && frame.sender != c.config.componentId && c.isMember frame.sender &&
    c.peers.lookup frame.sender == some source

/-- The frame is a report for the round that the leader is in. -/
def counts (c : Impl) (frame : Frame) (source : Endpoint) : Bool :=
  c.admits frame source && frame.type == .prepared && c.isLeader &&
    c.state == .leaderPreparing && frame.term == c.activeTerm

end Impl

namespace Notes

/-- A frame arrives. -/
def hear (n : Notes) (c : Impl) (frame : Frame) (source : Endpoint) : Notes :=
  if c.counts frame source then { n with heard := frame :: n.heard } else n

/-- A frame leaves. -/
def say (n : Notes) (frame : Frame) : Notes :=
  match frame.type with
  | .commit => { n with amounts := frame.value :: n.amounts }
  | .prepare | .abort => { n with announced := frame.term :: n.announced }
  | .trigger | .prepared | .commitAck => n

/-- The controller performs an effect in a state and gets a reply. The clock is read in the idle
state only by `begin_leader_prepare`, before it sets the term. -/
def record (n : Notes) (c : Impl) (e : Effect) : Reply e → Notes :=
  match e with
  | .beginHandoff => fun (reply : Option DrainedPeakState) =>
    { n with begun := reply, heard := [] }
  | .abortHandoff => fun _ =>
    if c.state = .followerPrepared then { n with finished := c.activeTerm :: n.finished } else n
  | .commitHandoff total _ => fun (reply : Bool) =>
    { n with
      amounts := total :: n.amounts
      finished := if c.state = .followerCommitting ∧ reply = true then c.activeTerm :: n.finished
        else n.finished }
  | .store record => fun _ =>
    if record.phase = .committed then { n with amounts := record.total :: n.amounts } else n
  | .send _ frame => fun _ => n.say frame
  | .clock => fun (now : ℕ) =>
    if c.state = .idle then
      { n with readings := now :: n.readings, drawn := c.nextTerm now :: n.drawn }
    else n
  | .mode | .peakTotal | .terminate => fun _ => n

theorem record_committed (n : Notes) (c : Impl) {entry : JournalRecord}
    (h : entry.phase = .committed) (stored : Bool) :
    n.record c (.store entry) stored = { n with amounts := entry.total :: n.amounts } := by
  unfold Notes.record
  exact if_pos h

theorem record_uncommitted (n : Notes) (c : Impl) {entry : JournalRecord}
    (h : entry.phase ≠ .committed) (stored : Bool) : n.record c (.store entry) stored = n := by
  unfold Notes.record
  exact if_neg h

/-- A frame that a leader sends to a participant carries a term that is finished. -/
def outdated (n : Notes) (frame : Frame) : Bool :=
  (frame.type == .prepare || frame.type == .commit || frame.type == .abort) &&
    n.finished.any fun term => frame.term ≤ term

end Notes

/-- The configuration of a process with a handoff section, and how it resolves host names. -/
structure Site where
  config : CounterRuntimeConfig
  handoff : DistributedHandoffConfig
  resolve : String → ℕ → Option Endpoint
  handoff_eq : config.handoff = some handoff

/-- A process with the notes about it. `stale` says that the handler in hand was taken up for a
frame that was outdated when it arrived. -/
structure Process where
  node : Node
  notes : Notes := {}
  stale : Bool := false

/-- What can happen to a process. -/
inductive ProcessAction
  | node (action : NodeAction)
  | crash
  | start (outcome : StoreOutcome)

namespace Process

/-- The notes after a step of the running process. -/
def note (w : Process) : NodeAction → Notes
  | .deliver frame source => w.notes.hear w.node.impl frame source
  | .effect oracle =>
    match w.node.control with
    | .ret _ _ => w.notes
    | .op c e _ =>
      match e.run oracle w.node.engine w.node.journal with
      | none => w.notes
      | some (reply, _) => w.notes.record c e reply
  | _ => w.notes

/-- Whether the handler in hand after a step is for an outdated frame. -/
def marks (w : Process) : NodeAction → Bool
  | .deliver frame _ => w.notes.outdated frame
  | .tick _ | .stop => false
  | _ => w.stale

variable (S : Site)

/-- The process has never run; the journal may hold anything. -/
def init (journal : Option JournalRecord) : Process where
  node :=
    { engine := CounterEngine.new S.config.engine
      control := .ret
        { engine := S.config.engine, config := S.handoff, members := [], peers := [] } ()
      journal := journal }

/-- One step. -/
def step (w : Process) : ProcessAction → Option Process
  | .node action =>
    if w.node.up then
      (w.node.step action).map fun result =>
        { node := result.1, notes := w.note action, stale := w.marks action }
    else none
  | .crash => if w.node.up then some { w with node := w.node.crash } else none
  | .start outcome =>
    if w.node.up = false then
      some { w with node := w.node.start S.resolve S.config S.handoff outcome }
    else none

/-- The runs of a process whose every action is allowed by `ok`. -/
def Reaches (ok : Process → ProcessAction → Prop) (journal : Option JournalRecord) (w : Process) :
    Prop := Steps (step S) ok (init S journal) w

end Process

/-! ### The engine between two effects -/

namespace CounterEngine

/-- A call of another thread. -/
inductive Serves (e : CounterEngine) : CounterEngine → Prop
  | apply (request : Request) : Serves e (e.apply request).2
  | controlLoop : Serves e e.controlLoop
  | raisePeakRequest : Serves e e.raisePeakRequest

/-- What the other threads make of an engine. -/
def Meanwhile (e e' : CounterEngine) : Prop := Relation.ReflTransGen Serves e e'

/-- What `begin_distributed_handoff` would report. -/
def report (e : CounterEngine) : DrainedPeakState :=
  ⟨e.activeCounter, e.replicationEpoch, e.reserved.total⟩

/-- The engine is drained under a claimed handoff and has reported `drained`. -/
structure Drained (drained : DrainedPeakState) (e : CounterEngine) : Prop where
  mode : e.mode = .reservedPeak
  active : e.distributedHandoffActive = true
  gate : e.gateOpen = false
  report : e.report = drained

/-- No handoff is claimed, and `P` holds if the engine is in peak mode or may still enter it. -/
structure Free (P : Prop) (e : CounterEngine) : Prop where
  active : e.distributedHandoffActive = false
  home : e.mode = .strict ∨ e.mode = .reservedPeak → P

variable {e e' : CounterEngine} {config : CounterEngineConfig} {drained : DrainedPeakState}
  {P : Prop}

theorem Reachable.run (h : Reachable config e) (call : Call) : Reachable config (e.run call) := by
  obtain ⟨calls, rfl⟩ := h
  exact ⟨calls ++ [call], by rw [List.foldl_append, List.foldl_cons, List.foldl_nil]⟩

theorem Reachable.serves (h : Reachable config e) (hs : Serves e e') : Reachable config e' := by
  cases hs with
  | apply request => exact h.run (.apply request)
  | controlLoop => exact h.run .controlLoop
  | raisePeakRequest => exact h.run .raisePeakRequest

/-- The limit never moves. -/
theorem Reachable.limit (h : Reachable config e) : e.limit = config.limit := by
  obtain ⟨hsound, rfl⟩ := h.sound
  exact hsound.limit_eq

/-- The fields that other threads leave alone while the gate is closed for a handoff. -/
structure Untouched (e e' : CounterEngine) : Prop where
  mode : e'.mode = e.mode
  active : e'.distributedHandoffActive = e.distributedHandoffActive
  gate : e'.gateOpen = e.gateOpen
  counter : e'.activeCounter = e.activeCounter
  epoch : e'.replicationEpoch = e.replicationEpoch
  reserved : e'.reserved = e.reserved

theorem Untouched.refl (e : CounterEngine) : Untouched e e := ⟨rfl, rfl, rfl, rfl, rfl, rfl⟩

theorem Untouched.trans {e'' : CounterEngine} (h : Untouched e e') (h' : Untouched e' e'') :
    Untouched e e'' :=
  ⟨h'.mode.trans h.mode, h'.active.trans h.active, h'.gate.trans h.gate,
    h'.counter.trans h.counter, h'.epoch.trans h.epoch, h'.reserved.trans h.reserved⟩

theorem Untouched.keeps (h : Untouched e e') (hd : Drained drained e) : Drained drained e' := by
  refine ⟨h.mode.trans hd.mode, h.active.trans hd.active, h.gate.trans hd.gate, ?_⟩
  rw [← hd.report, report, report, h.counter, h.epoch, h.reserved]

private theorem untouched_requestDanger (e : CounterEngine) (value : ℕ) :
    Untouched e (e.requestDanger value) := by
  unfold requestDanger
  split
  · exact ⟨rfl, rfl, rfl, rfl, rfl, rfl⟩
  · exact .refl e

private theorem untouched_replicate (e : CounterEngine) (value : ℕ) :
    Untouched e (e.replicate value) := by
  unfold replicate publishSnapshot
  split
  · split <;> exact ⟨rfl, rfl, rfl, rfl, rfl, rfl⟩
  · exact .refl e

/-- The part of an iteration before its transition. -/
private theorem untouched_seen (e : CounterEngine) :
    Untouched e ((e.requestDanger e.componentValue).replicate e.componentValue) :=
  (untouched_requestDanger e e.componentValue).trans (untouched_replicate _ e.componentValue)

/-- Requests bounce off the closed gate, and the control loop refuses to collapse. -/
theorem Drained.serves (h : Drained drained e) (hs : Serves e e') : Untouched e e' := by
  cases hs with
  | apply request =>
    have hbounced : (e.apply request).2 = e := by
      unfold CounterEngine.apply
      split
      · rfl
      · rw [if_pos (by simp [h.gate])]
    rw [hbounced]
    exact .refl e
  | controlLoop =>
    have hseen := untouched_seen e
    unfold CounterEngine.controlLoop
    dsimp only
    rw [if_neg (by simp [h.mode])]
    split
    · rw [transitionToDanger_refused (.inr (.inr (hseen.active.trans h.active)))]
      exact hseen
    · exact hseen
  | raisePeakRequest => exact ⟨rfl, rfl, rfl, rfl, rfl, rfl⟩

theorem Drained.meanwhile (h : Drained drained e) (hs : Meanwhile e e') : Untouched e e' := by
  induction hs with
  | refl => exact .refl e
  | tail _ hs ih => exact ih.trans ((ih.keeps h).serves hs)

/-- A transition to peak mode leaves the claim alone. -/
private theorem transitionToReserved_cases (e : CounterEngine) :
    e.transitionToReserved.2.distributedHandoffActive = e.distributedHandoffActive ∧
      (e.transitionToReserved.2.mode = e.mode ∨ e.mode = .strict) := by
  unfold transitionToReserved closeAndDrain
  split
  · exact ⟨rfl, .inl rfl⟩
  rename_i hmode
  dsimp only
  split
  · exact ⟨rfl, .inl rfl⟩
  split
  · exact ⟨rfl, .inl rfl⟩
  · exact ⟨rfl, .inr (not_not.mp hmode)⟩

/-- A transition to danger mode leaves the claim alone. -/
private theorem transitionToDanger_cases (e : CounterEngine) :
    e.transitionToDanger.2.distributedHandoffActive = e.distributedHandoffActive ∧
      (e.transitionToDanger.2.mode = e.mode ∨ e.transitionToDanger.2.mode = .dangerStrict) := by
  unfold transitionToDanger closeAndDrain
  split
  · exact ⟨rfl, .inl rfl⟩
  · split
    · exact ⟨rfl, .inl rfl⟩
    · dsimp only
      split
      · exact ⟨rfl, .inl rfl⟩
      · exact ⟨rfl, .inr rfl⟩

/-- No thread claims a handoff, or brings an engine into peak mode once it has left its local
modes. -/
theorem Free.serves (hs : e.Sound) (h : Free P e) (hserve : Serves e e') : Free P e' := by
  cases hserve with
  | apply request =>
    have hsame := (hs.apply request).toSameControl
    refine ⟨hsame.active.trans h.active, fun hlocal => h.home ?_⟩
    rwa [← hsame.mode]
  | controlLoop =>
    have hseen := untouched_seen e
    have hkept : Free P ((e.requestDanger e.componentValue).replicate e.componentValue) := by
      refine ⟨hseen.active.trans h.active, fun hlocal => h.home ?_⟩
      rwa [← hseen.mode]
    unfold CounterEngine.controlLoop
    dsimp only
    split
    · obtain ⟨hactive, hmode | hmode⟩ := transitionToReserved_cases
        ((e.requestDanger e.componentValue).replicate e.componentValue)
      · exact ⟨hactive.trans hkept.active, fun hlocal => hkept.home (hmode ▸ hlocal)⟩
      · exact ⟨hactive.trans hkept.active, fun _ => hkept.home (.inl hmode)⟩
    split
    · obtain ⟨hactive, hmode | hmode⟩ := transitionToDanger_cases
        ((e.requestDanger e.componentValue).replicate e.componentValue)
      · exact ⟨hactive.trans hkept.active, fun hlocal => hkept.home (hmode ▸ hlocal)⟩
      · refine ⟨hactive.trans hkept.active, fun hlocal => ?_⟩
        rw [hmode] at hlocal
        rcases hlocal with hlocal | hlocal <;> cases hlocal
    · exact hkept
  | raisePeakRequest => exact ⟨h.active, h.home⟩

theorem Free.mono {P' : Prop} (h : Free P e) (hP : P → P') : Free P' e :=
  ⟨h.active, fun hlocal => hP (h.home hlocal)⟩

theorem Free.peak (h : Free P e) (hmode : e.mode = .reservedPeak) : P := h.home (.inr hmode)

/-- An engine that has left its local modes for good. -/
theorem Free.of_left (hactive : e.distributedHandoffActive = false) (hstrict : e.mode ≠ .strict)
    (hpeak : e.mode ≠ .reservedPeak) : Free P e :=
  ⟨hactive, fun hlocal => absurd hlocal (by simp [hstrict, hpeak])⟩

end CounterEngine

/-! ### The contract of a controller -/

/-- What the controller of a process meets: its engine, its journal and the notes. -/
structure Desk where
  engine : CounterEngine
  journal : Option JournalRecord
  notes : Notes

def Process.desk (w : Process) : Desk := ⟨w.node.engine, w.node.journal, w.notes⟩

/-- The process is the leader. -/
def Site.isLeader (S : Site) : Bool := S.handoff.componentId == S.handoff.leaderComponentId

/-- What the notes say at any time. -/
structure Process.Books (S : Site) (journal : Option JournalRecord) (n : Notes) : Prop where
  /-- a term is the reading it was drawn from, at least 1 -/
  drawn : S.isLeader = true → n.drawn = n.readings.map (max 1)
  announced : ∀ term ∈ n.announced, term ∈ n.drawn
  /-- the leader decides at most once -/
  amounts : S.isLeader = true → ∃ total, ∀ amount ∈ n.amounts, amount = total
  /-- a decision leaves a trace on disk -/
  journaled : S.isLeader = true →
    n.amounts = [] ∨ ∃ record, journal = some record ∧ record.phase ≠ .idle

/-- What is true of a process at any time. -/
structure Process.Upheld (S : Site) (w : Desk) : Prop where
  reachable : CounterEngine.Reachable S.config.engine w.engine
  books : Process.Books S w.journal w.notes

/-- What a call of the controller promises: a commit within the limit succeeds and installs its
total in the mode that the configuration says. -/
def Effect.Kept (w : Desk) (w' : Desk) : (e : Effect) → Reply e → Prop
  | .commitHandoff total owner => fun (installed : Bool) => total ≤ w.engine.limit →
    installed = true ∧ w'.engine.strict.value = total ∧
      w'.engine.mode = CounterEngine.handoffMode owner
  | _ => fun _ => True

/-- The controller of one process. Other threads serve between its effects. -/
def contract (S : Site) : Contract Impl Reply Desk where
  step c e w r w' := ∃ oracle engine journal packets,
    e.run oracle w.engine w.journal = some (r, engine, journal, packets) ∧
      w' = ⟨engine, journal, w.notes.record c e r⟩
  fault e := e = .terminate
  rely w w' := w.engine.Meanwhile w'.engine ∧ w'.journal = w.journal ∧ w'.notes = w.notes
  promise e w r w' := e.Kept w w' r ∧ Process.Upheld S w'
  rely_refl _ := ⟨.refl, rfl, rfl⟩
  rely_trans h h' := ⟨h.1.trans h'.1, h'.2.1.trans h.2.1, h'.2.2.trans h.2.2⟩

variable {S : Site} {g : Prop} {c : Impl} {w w' : Desk}

/-- The controller belongs to the process. -/
def Site.Configured (S : Site) (c : Impl) : Prop :=
  S.handoff.validate S.resolve S.config.engine = .ok c.fresh

namespace Site.Configured

theorem validated (h : S.Configured c) : S.handoff.Validated S.config.engine c.fresh :=
  DistributedHandoffConfig.validated_of_validate h

theorem config (h : S.Configured c) : c.config = S.handoff := h.validated.config_eq

theorem engine (h : S.Configured c) : c.engine = S.config.engine := h.validated.engine_eq

theorem isLeader (h : S.Configured c) : c.isLeader = S.isLeader := by
  rw [Impl.isLeader, h.config, Site.isLeader]

theorem self_mem (h : S.Configured c) : c.config.componentId ∈ c.members := by
  rw [h.config]
  exact h.validated.self_mem

/-- Only the fields that `start` sets matter. -/
theorem congr {c' : Impl} (h : S.Configured c) (hfresh : c'.fresh = c.fresh) : S.Configured c' := by
  unfold Site.Configured
  rw [hfresh]
  exact h

end Site.Configured

namespace Process

open CounterEngine (Free Drained)

/-- The assertion between two effects of a controller in state `c`: `E` of the engine and `F` of
the journal and the notes. -/
structure Stand (S : Site) (c : Impl) (E : CounterEngine → Prop)
    (F : Option JournalRecord → Notes → Prop) (w : Desk) : Prop where
  configured : S.Configured c
  reachable : CounterEngine.Reachable S.config.engine w.engine
  books : Books S w.journal w.notes
  engine : E w.engine
  facts : F w.journal w.notes

/-- No other thread can falsify an assertion about the engine. -/
def Steady (S : Site) (E : CounterEngine → Prop) : Prop :=
  ∀ {e e'}, CounterEngine.Reachable S.config.engine e → E e → CounterEngine.Serves e e' → E e'

theorem steady_drained {d : DrainedPeakState} : Steady S (CounterEngine.Drained d) :=
  fun _ h hs => (h.serves hs).keeps h

theorem steady_free {P : Prop} : Steady S (CounterEngine.Free P) :=
  fun hr h hs => h.serves hr.sound.1 hs

section Stand

variable {E E' : CounterEngine → Prop} {F F' : Option JournalRecord → Notes → Prop}

theorem Stand.rely (hE : Steady S E) (h : Stand S c E F w) (hw : (contract S).rely w w') :
    Stand S c E F w' := by
  obtain ⟨hserves, hjournal, hnotes⟩ := hw
  have hengine : ∀ e, w.engine.Meanwhile e → CounterEngine.Reachable S.config.engine e ∧ E e := by
    intro e hserves
    induction hserves with
    | refl => exact ⟨h.reachable, h.engine⟩
    | tail _ hs ih => exact ⟨ih.1.serves hs, hE ih.1 ih.2 hs⟩
  have hengine := hengine w'.engine hserves
  refine ⟨h.configured, hengine.1, ?_, hengine.2, ?_⟩
  · rw [hjournal, hnotes]
    exact h.books
  · rw [hjournal, hnotes]
    exact h.facts

theorem Stand.mono {c' : Impl} (h : Stand S c E F w) (hfresh : c'.fresh = c.fresh)
    (hE : ∀ e, E e → E' e) (hF : ∀ j n, F j n → F' j n) : Stand S c' E' F' w :=
  ⟨h.configured.congr hfresh, h.reachable, h.books, hE _ h.engine, hF _ _ h.facts⟩

theorem Stand.upheld (h : Stand S c E F w) : Upheld S w := ⟨h.reachable, h.books⟩

theorem Stand.limit (h : Stand S c E F w) : w.engine.limit = c.engine.limit := by
  rw [h.reachable.limit, h.configured.engine]

end Stand

/-! ### A controller at rest -/

/-- Nothing has been decided yet. -/
def Unspent (S : Site) (c : Impl) (n : Notes) : Prop :=
  c.lastCommittedTerm = 0 ∧ (c.recoveryFenced = false → S.isLeader = true → n.amounts = [])

/-- The journal is prepared for a term. -/
def Journaled (term : ℕ) (journal : Option JournalRecord) : Prop :=
  ∃ record, journal = some record ∧ record.phase = .prepared ∧ record.term = term

/-- The report in a `PREPARED` frame. -/
def reportIn (frame : Frame) : DrainedPeakState := ⟨frame.counter, frame.epoch, frame.value⟩

/-- The report of a member in the round: the leader's own, or the last one heard. -/
def reportOf (c : Impl) (own : DrainedPeakState) (heard : List Frame) (member : ℕ) :
    Option DrainedPeakState :=
  if member = c.config.componentId then some own
  else (heard.find? fun frame => frame.sender == member).map reportIn

/-- The map of a leader in a round holds the reports of that round. -/
structure Gathered (c : Impl) (own : DrainedPeakState) (heard : List Frame) : Prop where
  nodup : (c.prepared.map Prod.fst).Nodup
  mem : ∀ member report, (member, report) ∈ c.prepared ↔
    reportOf c own heard member = some report
  heard : ∀ frame ∈ heard, frame.sender ∈ c.members ∧ frame.sender ≠ c.config.componentId ∧
    frame.type = .prepared ∧ frame.term = c.activeTerm

/-- A leader in a round. -/
structure Polling (c : Impl) (own : DrainedPeakState) (journal : Option JournalRecord) (n : Notes) :
    Prop where
  last : c.lastCommittedTerm = 0
  round : ∃ earlier, n.drawn = c.activeTerm :: earlier
  amounts : n.amounts = []
  journal : Journaled c.activeTerm journal
  begun : n.begun = some own
  gathered : Gathered c own n.heard

/-- Under `g`, the terms a participant has left are below the one it is in. -/
def Ahead (g : Prop) (term : ℕ) (n : Notes) : Prop := g → ∀ old ∈ n.finished, old < term

/-- A participant that waits for the decision on a term. -/
structure Waiting (g : Prop) (term : ℕ) (own : DrainedPeakState) (journal : Option JournalRecord)
    (n : Notes) : Prop where
  journal : Journaled term journal
  begun : n.begun = some own
  ahead : Ahead g term n

/-- What holds of a controller that has no handler in hand. The ordering of a participant's terms
is claimed under `g` only. -/
inductive Rest (S : Site) (g : Prop) (c : Impl) (w : Desk) : Prop
  | idle (state : c.state = .idle) (term : c.activeTerm = 0)
    (stand : Stand S c (Free (Unspent S c w.notes)) (fun _ _ => True) w)
  | preparing (own : DrainedPeakState) (state : c.state = .leaderPreparing)
    (role : S.isLeader = true) (stand : Stand S c (Drained own) (Polling c own) w)
  | prepared (own : DrainedPeakState) (state : c.state = .followerPrepared)
    (role : S.isLeader = false) (last : c.lastCommittedTerm = 0)
    (map : c.prepared = [(c.config.componentId, own)])
    (stand : Stand S c (Drained own) (Waiting g c.activeTerm own) w)
  | installing (own : DrainedPeakState) (state : c.state = .followerCommitting)
    (role : S.isLeader = false) (last : c.lastCommittedTerm = 0)
    (stand : Stand S c (Drained own) (fun _ n => Ahead g c.activeTerm n) w)
  | blocked (own : DrainedPeakState) (state : c.state = .leaderCommitBlocked)
    (role : S.isLeader = true) (stand : Stand S c (Drained own) (fun _ _ => True) w)
  | committing (state : c.state = .leaderCommitting) (role : S.isLeader = true)
    (stand : Stand S c (Free False) (fun _ n => n.amounts ≠ [] ∧
      ∀ amount ∈ n.amounts, amount = c.committedTotal) w)

theorem Rest.rely (h : Rest S g c w) (hw : (contract S).rely w w') : Rest S g c w' := by
  cases h with
  | idle state term stand =>
    refine .idle state term ?_
    rw [hw.2.2]
    exact stand.rely steady_free hw
  | preparing own state role stand =>
    exact .preparing own state role (stand.rely steady_drained hw)
  | prepared own state role last map stand =>
    exact .prepared own state role last map (stand.rely steady_drained hw)
  | installing own state role last stand =>
    exact .installing own state role last (stand.rely steady_drained hw)
  | blocked own state role stand => exact .blocked own state role (stand.rely steady_drained hw)
  | committing state role stand => exact .committing state role (stand.rely steady_free hw)

theorem Rest.of_idle (h : Rest S g c w) (hstate : c.state = .idle) :
    c.activeTerm = 0 ∧ Stand S c (Free (Unspent S c w.notes)) (fun _ _ => True) w := by
  cases h with
  | idle _ term stand => exact ⟨term, stand⟩
  | preparing _ state | prepared _ state | installing _ state | blocked _ state
  | committing state => cases state.symm.trans hstate

theorem Rest.of_preparing (h : Rest S g c w) (hstate : c.state = .leaderPreparing) :
    ∃ own, S.isLeader = true ∧ Stand S c (Drained own) (Polling c own) w := by
  cases h with
  | preparing own _ role stand => exact ⟨own, role, stand⟩
  | idle state | prepared _ state | installing _ state | blocked _ state
  | committing state => cases state.symm.trans hstate

theorem Rest.of_prepared (h : Rest S g c w) (hstate : c.state = .followerPrepared) :
    ∃ own, S.isLeader = false ∧ c.lastCommittedTerm = 0 ∧
      c.prepared = [(c.config.componentId, own)] ∧
      Stand S c (Drained own) (Waiting g c.activeTerm own) w := by
  cases h with
  | prepared own _ role last map stand => exact ⟨own, role, last, map, stand⟩
  | idle state | preparing _ state | installing _ state | blocked _ state
  | committing state => cases state.symm.trans hstate

theorem Rest.of_committing (h : Rest S g c w) (hstate : c.state = .leaderCommitting) :
    S.isLeader = true ∧ Stand S c (Free False)
      (fun _ n => n.amounts ≠ [] ∧ ∀ amount ∈ n.amounts, amount = c.committedTotal) w := by
  cases h with
  | committing _ role stand => exact ⟨role, stand⟩
  | idle state | preparing _ state | prepared _ state | installing _ state
  | blocked _ state => cases state.symm.trans hstate

theorem Rest.configured (h : Rest S g c w) : S.Configured c := by
  cases h <;> exact (‹Stand _ _ _ _ _›).configured

theorem Rest.reachable (h : Rest S g c w) : CounterEngine.Reachable S.config.engine w.engine := by
  cases h <;> exact (‹Stand _ _ _ _ _›).reachable

theorem Rest.books (h : Rest S g c w) : Books S w.journal w.notes := by
  cases h <;> exact (‹Stand _ _ _ _ _›).books

theorem Rest.upheld (h : Rest S g c w) : Upheld S w := ⟨h.reachable, h.books⟩

/-- A controller comes to rest whenever it runs a program. -/
def ComesToRest (S : Site) (g : Prop) (p : Prog Impl Reply Unit) (w : Desk) : Prop :=
  (contract S).Meets (fun c _ w => Rest S g c w) p w

theorem ComesToRest.ret {a : Unit} (h : Rest S g c w) : ComesToRest S g (.ret c a) w :=
  fun _ hw => h.rely hw

theorem ComesToRest.rest {a : Unit} (h : ComesToRest S g (.ret c a) w) : Rest S g c w :=
  Contract.Meets.of_ret (Q := fun c _ w => Rest S g c w) h

end Process

end HotCounter
