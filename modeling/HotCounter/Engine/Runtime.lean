import HotCounter.Engine.Recovery
import HotCounter.Config.Runtime
import HotCounter.Foundation.Transition

/-!
# The life of a runtime

`CounterRuntime` owns an engine, a replicator and a handoff controller and starts and stops them
as a whole. The owner's `start` and `stop` are taken one service at a time, the detector and the
control loop of the engine as one each, and any call that is not the runtime's own may fail. `start`
cleans up what it has started before it throws, with the steps of `stop`. Meanwhile other threads
call the engine (`Serves`): requests and the publisher of limit events come at any time, the rest
from a thread of a service that is there.

A service is absent, created, or bound to a port. How the calls of `start` have ended is recorded
beside the runtime, newest last; a call that finds the runtime started returns at once and is not.
-/

namespace HotCounter

open Foundation

/-- An optional service of the runtime. -/
inductive RuntimeService
  | absent
  | created
  | bound (port : ℕ)
  deriving DecidableEq

/-- The owner's program points in `start` and `stop`; `thrown` marks the handler in `start`. -/
inductive RuntimePoint
  | idle
  | enteringPeak
  | creatingReplicator
  | startingReplicator
  | settingPublisher
  | creatingHandoff
  | startingHandoff
  | startingDetector
  | startingControl
  | markingStarted
  | stoppingControl (thrown : Bool)
  | stoppingDetector (thrown : Bool)
  | resettingHandoff (thrown : Bool)
  | clearingPublisher (thrown : Bool)
  | resettingReplicator (thrown : Bool)
  | markingStopped
  deriving DecidableEq

/-- Whether `start` has entered the peak and goes on. -/
def RuntimePoint.entered : RuntimePoint → ℕ
  | .creatingReplicator | .startingReplicator | .settingPublisher | .creatingHandoff
  | .startingHandoff | .startingDetector | .startingControl | .markingStarted => 1
  | .idle | .enteringPeak | .stoppingControl _ | .stoppingDetector _ | .resettingHandoff _
  | .clearingPublisher _ | .resettingReplicator _ | .markingStopped => 0

/-- The members of `CounterRuntime`, with the two threads of the engine's control plane. -/
structure CounterRuntime where
  config : CounterRuntimeConfig
  engine : CounterEngine
  replication : RuntimeService := .absent
  handoff : RuntimeService := .absent
  detector : Bool := false
  control : Bool := false
  started : Bool := false
  point : RuntimePoint := .idle
  outcomes : List Bool := []

/-- The owner calls or goes on, or another thread calls the engine. -/
inductive RuntimeAction
  | start
  | stop
  | advance (fails : Bool) (port : ℕ)
  | serve (call : CounterEngine.Call)

namespace CounterEngine

/-- Where no publisher is set nothing is handed to one, and no call sets one or leads back to
strict mode. -/
structure Ties (e e' : CounterEngine) : Prop where
  publisher : e'.replicationPublisher = e.replicationPublisher
  snapshots : e.replicationPublisher = false → e'.snapshots = e.snapshots
  mode : e.mode ≠ .strict → e'.mode ≠ .strict

namespace Ties

variable {e e' e'' : CounterEngine}

theorem refl (e : CounterEngine) : Ties e e := ⟨rfl, fun _ => rfl, id⟩

theorem trans (h : Ties e e') (h' : Ties e' e'') : Ties e e'' where
  publisher := h'.publisher.trans h.publisher
  snapshots hnone := (h'.snapshots (h.publisher.trans hnone)).trans (h.snapshots hnone)
  mode hmode := h'.mode (h.mode hmode)

/-- A call that touches none of the fields in question. -/
theorem same (hpublisher : e'.replicationPublisher = e.replicationPublisher)
    (hsnapshots : e'.snapshots = e.snapshots) (hmode : e'.mode = e.mode) : Ties e e' :=
  ⟨hpublisher, fun _ => hsnapshots, fun hne => hmode ▸ hne⟩

theorem reopened (e : CounterEngine) : Ties e { e with gateOpen := true } := .same rfl rfl rfl

theorem rememberCounter (e : CounterEngine) (counter : ℕ) : Ties e (e.rememberCounter counter) := by
  simp only [CounterEngine.rememberCounter]
  split
  · exact .refl e
  · exact .same rfl rfl rfl

theorem publishLimitReached (e : CounterEngine) (counter : ℕ) :
    Ties e (e.publishLimitReached counter) := by
  simp only [CounterEngine.publishLimitReached]
  split
  · exact .refl e
  · exact .same rfl rfl rfl

theorem announceShard (e : CounterEngine) (request : Request) (shard : ℕ) :
    Ties e (e.announceShard request shard) := by
  simp only [CounterEngine.announceShard]
  split
  · exact .refl e
  · split
    · exact .same rfl rfl rfl
    · split
      · refine Ties.trans ?_ (publishLimitReached _ _)
        exact .same rfl rfl rfl
      · exact .same rfl rfl rfl

theorem afterAccept (e : CounterEngine) (mode : RoutingMode) (request : Request) (result : Result) :
    Ties e (e.afterAccept mode request result) := by
  simp only [CounterEngine.afterAccept]
  refine (rememberCounter e request.counter).trans ?_
  split
  · split
    · exact publishLimitReached _ _
    · exact .refl _
  · exact announceShard _ _ _

theorem applyStrict (e : CounterEngine) (mode : RoutingMode) (request : Request) :
    Ties e (e.applyStrict mode request).2 := by
  simp only [CounterEngine.applyStrict]
  split
  · dsimp only
    refine Ties.trans ?_ (afterAccept _ _ _ _)
    exact .same rfl rfl rfl
  · exact .same rfl rfl rfl

theorem applyReserved (e : CounterEngine) (request : Request) :
    Ties e (e.applyReserved request).2 := by
  simp only [CounterEngine.applyReserved]
  split
  · dsimp only
    refine Ties.trans ?_ (afterAccept _ _ _ _)
    exact .same rfl rfl rfl
  · exact .same rfl rfl rfl

theorem apply (e : CounterEngine) (request : Request) : Ties e (e.apply request).2 := by
  simp only [CounterEngine.apply]
  split
  · exact .refl e
  split
  · exact .refl e
  split
  · exact applyStrict e _ request
  · exact applyReserved e request
  · exact applyStrict e _ request
  · exact .refl e

theorem transitionToReserved (e : CounterEngine) : Ties e e.transitionToReserved.2 := by
  rw [CounterEngine.transitionToReserved]
  split
  · exact .refl e
  dsimp only [closeAndDrain]
  split
  · exact .same rfl rfl rfl
  split
  · exact .same rfl rfl rfl
  · exact ⟨rfl, fun _ => rfl, fun _ => by simp⟩

theorem transitionToDanger (e : CounterEngine) : Ties e e.transitionToDanger.2 := by
  rw [CounterEngine.transitionToDanger]
  split
  · exact .refl e
  split
  · exact .refl e
  dsimp only [closeAndDrain]
  split
  · exact .same rfl rfl rfl
  · exact ⟨rfl, fun _ => rfl, fun _ => by simp⟩

theorem controlLoop (e : CounterEngine) : Ties e e.controlLoop := by
  have hdanger : ∀ value, Ties e (e.requestDanger value) := fun value => by
    simp only [CounterEngine.requestDanger]
    split
    · exact .same rfl rfl rfl
    · exact .refl e
  have hreplicate : ∀ (e : CounterEngine) value, Ties e (e.replicate value) := fun e value => by
    simp only [CounterEngine.replicate, CounterEngine.publishSnapshot]
    split
    · split
      · exact .same rfl rfl rfl
      · rename_i hset
        refine ⟨rfl, fun hnone => ?_, id⟩
        simp [hnone] at hset
    · exact .refl e
  have hseen := (hdanger e.componentValue).trans (hreplicate _ e.componentValue)
  simp only [CounterEngine.controlLoop]
  split
  · exact hseen.trans (transitionToReserved _)
  split
  · exact hseen.trans (transitionToDanger _)
  · exact hseen

theorem markHandoffTotal (e : CounterEngine) (counter globalTotal : ℕ) (strictOwner : Bool) :
    Ties e (e.markHandoffTotal counter globalTotal strictOwner) := by
  simp only [CounterEngine.markHandoffTotal]
  split
  · split
    · exact publishLimitReached _ _
    · exact .same rfl rfl rfl
  · exact .refl e

theorem commitDistributedHandoff (e : CounterEngine) (globalTotal : ℕ) (strictOwner : Bool) :
    Ties e (e.commitDistributedHandoff globalTotal strictOwner).2 := by
  simp only [CounterEngine.commitDistributedHandoff]
  split
  · exact .refl e
  split
  · exact .refl e
  · dsimp only
    refine Ties.trans ?_ (Ties.trans (markHandoffTotal _ _ _ _) (reopened _))
    exact ⟨rfl, fun _ => rfl, fun _ => handoffMode_ne_strict strictOwner⟩

theorem recoverCommittedHandoff (e : CounterEngine) (state : DrainedPeakState) (globalTotal : ℕ)
    (strictOwner : Bool) : Ties e (e.recoverCommittedHandoff state globalTotal strictOwner).2 := by
  simp only [CounterEngine.recoverCommittedHandoff, closeAndDrain]
  split
  · exact .refl e
  split
  · exact .same rfl rfl rfl
  · dsimp only
    refine Ties.trans ?_ (Ties.trans (markHandoffTotal _ _ _ _) (reopened _))
    exact ⟨rfl, fun _ => rfl, fun _ => handoffMode_ne_strict strictOwner⟩

end Ties

/-- **A call other than `setReplicationPublisher` keeps the ties of the engine.** -/
theorem ties_run (e : CounterEngine) {call : Call}
    (hcall : ∀ present, call ≠ .setReplicationPublisher present) : Ties e (e.run call) := by
  cases call with
  | apply request => exact .apply e request
  | enterReservedMode => exact .transitionToReserved e
  | enterDangerMode => exact .transitionToDanger e
  | controlLoop => exact .controlLoop e
  | raisePeakRequest => exact .same rfl rfl rfl
  | setReplicationPublisher present => exact absurd rfl (hcall present)
  | setLimitReachedPublisher present => exact .same rfl rfl rfl
  | beginHandoff =>
    simp only [run, beginDistributedHandoff, closeAndDrain]
    split
    · exact .refl e
    split <;> exact .same rfl rfl rfl
  | abortHandoff =>
    simp only [run, abortDistributedHandoff]
    split
    · exact .refl e
    split <;> exact .same rfl rfl rfl
  | commitHandoff total strictOwner => exact .commitDistributedHandoff e total strictOwner
  | recoverHandoff state total strictOwner =>
    exact .recoverCommittedHandoff e state total strictOwner
  | fence => exact .same rfl rfl rfl

end CounterEngine

namespace CounterRuntime

/-- `CounterRuntime::CounterRuntime`. -/
def new (config : CounterRuntimeConfig) : CounterRuntime where
  config := config
  engine := .new config.engine

/-- `CounterRuntime::replication_port`. -/
def replicationPort (s : CounterRuntime) : ℕ :=
  match s.replication with
  | .bound port => port
  | _ => 0

/-- `CounterRuntime::handoff_port`. -/
def handoffPort (s : CounterRuntime) : ℕ :=
  match s.handoff with
  | .bound port => port
  | _ => 0

/-- The owner's next step. Where another class is called, the call may fail; a socket is bound to
some port. -/
def advance (s : CounterRuntime) (fails : Bool) (port : ℕ) : Option CounterRuntime :=
  match s.point with
  | .idle => none
  | .enteringPeak =>
    if s.config.startPeak then
      let entered := s.engine.transitionToReserved
      some { s with
        engine := entered.2
        point := if entered.1 then .creatingReplicator else .stoppingControl true }
    else some { s with point := .creatingReplicator }
  | .creatingReplicator =>
    if s.config.replication = none then some { s with point := .creatingHandoff }
    else if fails then some { s with point := .stoppingControl true }
    else some { s with replication := .created, point := .startingReplicator }
  | .startingReplicator =>
    if fails then some { s with point := .stoppingControl true }
    else some { s with replication := .bound port, point := .settingPublisher }
  | .settingPublisher =>
    some { s with
      engine := { s.engine with replicationPublisher := true }
      point := .creatingHandoff }
  | .creatingHandoff =>
    if s.config.handoff = none then some { s with point := .startingDetector }
    else if fails then some { s with point := .stoppingControl true }
    else some { s with handoff := .created, point := .startingHandoff }
  | .startingHandoff =>
    if fails then some { s with point := .stoppingControl true }
    else some { s with handoff := .bound port, point := .startingDetector }
  | .startingDetector =>
    if s.control then some { s with point := .markingStarted }
    else if fails then some { s with point := .stoppingControl true }
    else some { s with detector := true, point := .startingControl }
  | .startingControl =>
    if fails then some { s with point := .stoppingControl true }
    else some { s with control := true, point := .markingStarted }
  | .markingStarted =>
    some { s with started := true, point := .idle, outcomes := s.outcomes ++ [true] }
  | .stoppingControl thrown =>
    some { s with control := false, point := .stoppingDetector thrown }
  | .stoppingDetector thrown =>
    some { s with detector := false, point := .resettingHandoff thrown }
  | .resettingHandoff thrown =>
    some { s with handoff := .absent, point := .clearingPublisher thrown }
  | .clearingPublisher thrown =>
    some { s with
      engine := { s.engine with replicationPublisher := false }
      point := .resettingReplicator thrown }
  | .resettingReplicator thrown =>
    if thrown then
      some { s with replication := .absent, point := .idle, outcomes := s.outcomes ++ [false] }
    else some { s with replication := .absent, point := .markingStopped }
  | .markingStopped => some { s with started := false, point := .idle }

/-- The calls that other threads make: requests of the data plane, and whoever sets the publisher
of limit events, at any time; the control loop and the detector while their threads are there; what
the handoff controller asks of the engine while there is a controller. No other thread enters a
mode or sets the publisher of snapshots. -/
def Serves (s : CounterRuntime) : CounterEngine.Call → Prop
  | .apply _ | .setLimitReachedPublisher _ => True
  | .controlLoop => s.control = true
  | .raisePeakRequest => s.detector = true
  | .beginHandoff | .abortHandoff | .commitHandoff _ _ | .recoverHandoff _ _ _ | .fence =>
    s.handoff ≠ .absent
  | .enterReservedMode | .enterDangerMode | .setReplicationPublisher _ => False

instance (s : CounterRuntime) (call : CounterEngine.Call) : Decidable (s.Serves call) :=
  match call with
  | .apply _ | .setLimitReachedPublisher _ => .isTrue trivial
  | .controlLoop => inferInstanceAs (Decidable (s.control = true))
  | .raisePeakRequest => inferInstanceAs (Decidable (s.detector = true))
  | .beginHandoff | .abortHandoff | .commitHandoff _ _ | .recoverHandoff _ _ _ | .fence =>
    inferInstanceAs (Decidable (s.handoff ≠ .absent))
  | .enterReservedMode | .enterDangerMode | .setReplicationPublisher _ => .isFalse id

/-- One step of the runtime. -/
def step (s : CounterRuntime) : RuntimeAction → Option CounterRuntime
  | .start =>
    if s.point ≠ .idle then none
    else if s.started then some s
    else some { s with point := .enteringPeak }
  | .stop =>
    if s.point ≠ .idle then none
    else if s.started = false ∧ s.replication = .absent ∧ s.handoff = .absent then some s
    else some { s with point := .stoppingControl false }
  | .advance fails port => s.advance fails port
  | .serve call => if s.Serves call then some { s with engine := s.engine.run call } else none

/-! ### What is alive -/

/-- A service is there, bound to a port, exactly if it is wanted. -/
def Up (wanted : Bool) : RuntimeService → Prop
  | .absent => wanted = false
  | .created => False
  | .bound _ => wanted = true

/-- Everything configured is up, but for the control loop. -/
structure AllUp (s : CounterRuntime) : Prop where
  replication : Up s.config.replication.isSome s.replication
  handoff : Up s.config.handoff.isSome s.handoff
  publisher : s.engine.replicationPublisher = s.config.replication.isSome
  detector : s.detector = true

/-- Nothing is alive. -/
structure AllDown (s : CounterRuntime) : Prop where
  replication : s.replication = .absent
  handoff : s.handoff = .absent
  publisher : s.engine.replicationPublisher = false
  detector : s.detector = false

/-- What the owner's point says of the services. -/
def Expects (s : CounterRuntime) : RuntimePoint → Prop
  | .idle => (s.started = true ∧ s.AllUp ∧ s.control = true) ∨ (s.started = false ∧ s.AllDown)
  | .enteringPeak | .creatingReplicator => s.started = false ∧ s.AllDown
  | .startingReplicator =>
    s.started = false ∧ s.config.replication.isSome = true ∧ s.handoff = .absent ∧
      s.engine.replicationPublisher = false ∧ s.detector = false
  | .settingPublisher =>
    s.started = false ∧ Up s.config.replication.isSome s.replication ∧
      s.config.replication.isSome = true ∧ s.handoff = .absent ∧ s.detector = false
  | .creatingHandoff =>
    s.started = false ∧ Up s.config.replication.isSome s.replication ∧
      s.engine.replicationPublisher = s.config.replication.isSome ∧ s.handoff = .absent ∧
      s.detector = false
  | .startingHandoff =>
    s.started = false ∧ Up s.config.replication.isSome s.replication ∧
      s.engine.replicationPublisher = s.config.replication.isSome ∧
      s.config.handoff.isSome = true ∧ s.detector = false
  | .startingDetector =>
    s.started = false ∧ Up s.config.replication.isSome s.replication ∧
      s.engine.replicationPublisher = s.config.replication.isSome ∧
      Up s.config.handoff.isSome s.handoff ∧ s.detector = false
  | .startingControl => s.started = false ∧ s.AllUp
  | .markingStarted => s.started = false ∧ s.AllUp ∧ s.control = true
  | .stoppingControl thrown => s.started = !thrown
  | .stoppingDetector thrown => s.started = !thrown ∧ s.control = false
  | .resettingHandoff thrown => s.started = !thrown ∧ s.detector = false
  | .clearingPublisher thrown => s.started = !thrown ∧ s.detector = false ∧ s.handoff = .absent
  | .resettingReplicator thrown =>
    s.started = !thrown ∧ s.detector = false ∧ s.handoff = .absent ∧
      s.engine.replicationPublisher = false
  | .markingStopped => s.started = true ∧ s.AllDown

/-- **What holds while the runtime lives.** -/
structure Ok (s : CounterRuntime) : Prop where
  publisher : s.engine.replicationPublisher = true → ∃ port, s.replication = .bound port
  control : s.control = true → s.AllUp ∧ (s.started = true ∨ s.point = .markingStarted)
  expects : s.Expects s.point

variable {s s' : CounterRuntime}

/-- A new runtime has nothing up. -/
theorem Ok.new (config : CounterRuntimeConfig) : (new config).Ok where
  publisher h := absurd h Bool.false_ne_true
  control h := absurd h Bool.false_ne_true
  expects := .inr ⟨rfl, rfl, rfl, rfl, rfl⟩

/-- A control loop is there only after a start that succeeded, or is about to. -/
theorem Ok.control_eq_false (h : s.Ok) (hstarted : s.started = false)
    (hpoint : s.point ≠ .markingStarted) : s.control = false := by
  by_contra hne
  rcases (h.control (Bool.eq_true_of_not_eq_false hne)).2 with hyes | hmarking
  · exact Bool.false_ne_true (hstarted.symm.trans hyes)
  · exact hpoint hmarking

/-- The control loop runs only while the detector does. -/
theorem Ok.control_of_detector (h : s.Ok) (hdetector : s.detector = false) :
    s.control = false := by
  by_contra hne
  have hup := (h.control (Bool.eq_true_of_not_eq_false hne)).1.detector
  rw [hdetector] at hup
  exact Bool.false_ne_true hup

section congr

variable {e : CounterEngine}

theorem AllUp.congr (h : s.AllUp)
    (hpublisher : e.replicationPublisher = s.engine.replicationPublisher) :
    ({ s with engine := e } : CounterRuntime).AllUp :=
  { h with publisher := hpublisher.trans h.publisher }

theorem AllDown.congr (h : s.AllDown)
    (hpublisher : e.replicationPublisher = s.engine.replicationPublisher) :
    ({ s with engine := e } : CounterRuntime).AllDown :=
  { h with publisher := hpublisher.trans h.publisher }

theorem Expects.congr {point : RuntimePoint} (h : s.Expects point)
    (hpublisher : e.replicationPublisher = s.engine.replicationPublisher) :
    ({ s with engine := e } : CounterRuntime).Expects point := by
  cases point with
  | idle =>
    exact h.imp (fun h => ⟨h.1, h.2.1.congr hpublisher, h.2.2⟩) fun h => ⟨h.1, h.2.congr hpublisher⟩
  | enteringPeak | creatingReplicator | markingStopped => exact ⟨h.1, h.2.congr hpublisher⟩
  | startingReplicator =>
    obtain ⟨hstarted, hwanted, hhandoff, hnone, hdetector⟩ := h
    exact ⟨hstarted, hwanted, hhandoff, hpublisher.trans hnone, hdetector⟩
  | creatingHandoff | startingHandoff | startingDetector =>
    obtain ⟨hstarted, hup, hset, hhandoff, hdetector⟩ := h
    exact ⟨hstarted, hup, hpublisher.trans hset, hhandoff, hdetector⟩
  | startingControl => exact ⟨h.1, h.2.congr hpublisher⟩
  | markingStarted => exact ⟨h.1, h.2.1.congr hpublisher, h.2.2⟩
  | resettingReplicator =>
    obtain ⟨hstarted, hdetector, hhandoff, hnone⟩ := h
    exact ⟨hstarted, hdetector, hhandoff, hpublisher.trans hnone⟩
  | settingPublisher | stoppingControl | stoppingDetector | resettingHandoff | clearingPublisher =>
    exact h

/-- Another engine with the same publisher keeps what holds. -/
theorem Ok.congr (h : s.Ok)
    (hpublisher : e.replicationPublisher = s.engine.replicationPublisher) :
    ({ s with engine := e } : CounterRuntime).Ok where
  publisher hset := h.publisher (hpublisher ▸ hset)
  control hcontrol := ⟨(h.control hcontrol).1.congr hpublisher, (h.control hcontrol).2⟩
  expects := h.expects.congr hpublisher

end congr

/-- A step of the owner before the control loop is there. -/
theorem Ok.before (hcontrol : s'.control = false) (hexpects : s'.Expects s'.point)
    (hpublisher : s'.engine.replicationPublisher = true → ∃ port, s'.replication = .bound port) :
    s'.Ok :=
  ⟨hpublisher, fun h => absurd (hcontrol.symm.trans h) Bool.false_ne_true, hexpects⟩

/-- A call of `start` that fails leads to the handler. -/
theorem Ok.thrown (h : s.Ok) (hstarted : s.started = false) (hcontrol : s.control = false) :
    ({ s with point := .stoppingControl true } : CounterRuntime).Ok :=
  .before hcontrol hstarted h.publisher

theorem bound_of_unset {e : CounterEngine} {service : RuntimeService}
    (hunset : e.replicationPublisher = false) (hset : e.replicationPublisher = true) :
    ∃ port, service = .bound port :=
  absurd (hunset.symm.trans hset) Bool.false_ne_true

theorem Up.bound {service : RuntimeService} (h : Up true service) :
    ∃ port, service = .bound port := by
  cases service with
  | absent => exact absurd h (by simp [Up])
  | created => exact absurd h id
  | bound port => exact ⟨port, rfl⟩

section Advance

variable {fails thrown : Bool} {port : ℕ}

/-- The peak is entered, or the start fails. -/
theorem Ok.enterPeak (h : s.Ok) (hpoint : s.point = .enteringPeak)
    (hs : s.advance fails port = some s') : s'.Ok := by
  have hexpects := h.expects
  simp only [CounterRuntime.advance, hpoint] at hs hexpects
  obtain ⟨hstarted, hdown⟩ := hexpects
  have hcontrol := h.control_eq_false hstarted (by simp [hpoint])
  split at hs
  · have hpublisher := (CounterEngine.Ties.transitionToReserved s.engine).publisher
    rw [hdown.publisher] at hpublisher
    obtain rfl := Option.some.inj hs
    refine .before hcontrol ?_ (bound_of_unset hpublisher)
    dsimp only
    split
    · exact ⟨hstarted, hdown.replication, hdown.handoff, hpublisher, hdown.detector⟩
    · exact hstarted
  · obtain rfl := Option.some.inj hs
    exact .before hcontrol ⟨hstarted, { hdown with }⟩ h.publisher

/-- A replicator is created, or none is wanted, or its constructor throws. -/
theorem Ok.createReplicator (h : s.Ok) (hpoint : s.point = .creatingReplicator)
    (hs : s.advance fails port = some s') : s'.Ok := by
  have hexpects := h.expects
  simp only [CounterRuntime.advance, hpoint] at hs hexpects
  obtain ⟨hstarted, hdown⟩ := hexpects
  have hcontrol := h.control_eq_false hstarted (by simp [hpoint])
  split at hs
  · rename_i hnone
    obtain rfl := Option.some.inj hs
    refine .before hcontrol ⟨hstarted, ?_, ?_, hdown.handoff, hdown.detector⟩ h.publisher
    · rw [hnone, hdown.replication]
      rfl
    · rw [hnone, hdown.publisher]
      rfl
  rename_i hsome
  split at hs
  · obtain rfl := Option.some.inj hs
    exact h.thrown hstarted hcontrol
  · obtain rfl := Option.some.inj hs
    exact .before hcontrol ⟨hstarted, Option.isSome_iff_ne_none.mpr hsome, hdown.handoff,
      hdown.publisher, hdown.detector⟩ (bound_of_unset hdown.publisher)

/-- The replicator is bound to a port, or its start throws. -/
theorem Ok.startReplicator (h : s.Ok) (hpoint : s.point = .startingReplicator)
    (hs : s.advance fails port = some s') : s'.Ok := by
  have hexpects := h.expects
  simp only [CounterRuntime.advance, hpoint] at hs hexpects
  obtain ⟨hstarted, hwanted, hhandoff, hpublisher, hdetector⟩ := hexpects
  have hcontrol := h.control_eq_false hstarted (by simp [hpoint])
  split at hs
  · obtain rfl := Option.some.inj hs
    exact h.thrown hstarted hcontrol
  · obtain rfl := Option.some.inj hs
    exact .before hcontrol ⟨hstarted, hwanted, hwanted, hhandoff, hdetector⟩ fun _ => ⟨port, rfl⟩

/-- The publisher is set while the replicator is bound. -/
theorem Ok.setPublisher (h : s.Ok) (hpoint : s.point = .settingPublisher)
    (hs : s.advance fails port = some s') : s'.Ok := by
  have hexpects := h.expects
  simp only [CounterRuntime.advance, hpoint] at hs hexpects
  obtain ⟨hstarted, hup, hwanted, hhandoff, hdetector⟩ := hexpects
  obtain rfl := Option.some.inj hs
  refine .before (h.control_eq_false hstarted (by simp [hpoint]))
    ⟨hstarted, hup, hwanted.symm, hhandoff, hdetector⟩ fun _ => ?_
  rw [hwanted] at hup
  exact hup.bound

/-- A handoff controller is created, or none is wanted, or its constructor throws. -/
theorem Ok.createHandoff (h : s.Ok) (hpoint : s.point = .creatingHandoff)
    (hs : s.advance fails port = some s') : s'.Ok := by
  have hexpects := h.expects
  simp only [CounterRuntime.advance, hpoint] at hs hexpects
  obtain ⟨hstarted, hup, hpublisher, hhandoff, hdetector⟩ := hexpects
  have hcontrol := h.control_eq_false hstarted (by simp [hpoint])
  split at hs
  · rename_i hnone
    obtain rfl := Option.some.inj hs
    refine .before hcontrol ⟨hstarted, hup, hpublisher, ?_, hdetector⟩ h.publisher
    rw [hnone, hhandoff]
    rfl
  rename_i hsome
  split at hs
  · obtain rfl := Option.some.inj hs
    exact h.thrown hstarted hcontrol
  · obtain rfl := Option.some.inj hs
    exact .before hcontrol
      ⟨hstarted, hup, hpublisher, Option.isSome_iff_ne_none.mpr hsome, hdetector⟩ h.publisher

/-- The handoff controller starts, or throws. -/
theorem Ok.startHandoff (h : s.Ok) (hpoint : s.point = .startingHandoff)
    (hs : s.advance fails port = some s') : s'.Ok := by
  have hexpects := h.expects
  simp only [CounterRuntime.advance, hpoint] at hs hexpects
  obtain ⟨hstarted, hup, hpublisher, hwanted, hdetector⟩ := hexpects
  have hcontrol := h.control_eq_false hstarted (by simp [hpoint])
  split at hs
  · obtain rfl := Option.some.inj hs
    exact h.thrown hstarted hcontrol
  · obtain rfl := Option.some.inj hs
    exact .before hcontrol ⟨hstarted, hup, hpublisher, hwanted, hdetector⟩ h.publisher

/-- The detector's thread is created, or that throws. -/
theorem Ok.startDetector (h : s.Ok) (hpoint : s.point = .startingDetector)
    (hs : s.advance fails port = some s') : s'.Ok := by
  have hexpects := h.expects
  simp only [CounterRuntime.advance, hpoint] at hs hexpects
  obtain ⟨hstarted, hup, hpublisher, hhandoff, hdetector⟩ := hexpects
  have hcontrol := h.control_eq_false hstarted (by simp [hpoint])
  rw [if_neg (by simp [hcontrol])] at hs
  split at hs
  · obtain rfl := Option.some.inj hs
    exact h.thrown hstarted hcontrol
  · obtain rfl := Option.some.inj hs
    exact .before hcontrol ⟨hstarted, hup, hhandoff, hpublisher, rfl⟩ h.publisher

/-- The thread of the control loop is created, or that throws. -/
theorem Ok.startControl (h : s.Ok) (hpoint : s.point = .startingControl)
    (hs : s.advance fails port = some s') : s'.Ok := by
  have hexpects := h.expects
  simp only [CounterRuntime.advance, hpoint] at hs hexpects
  obtain ⟨hstarted, hup⟩ := hexpects
  have hcontrol := h.control_eq_false hstarted (by simp [hpoint])
  split at hs
  · obtain rfl := Option.some.inj hs
    exact h.thrown hstarted hcontrol
  · -- the control loop runs before the runtime is marked as started
    obtain rfl := Option.some.inj hs
    exact ⟨h.publisher, fun _ => ⟨{ hup with }, .inr rfl⟩, hstarted, { hup with }, rfl⟩

/-- The runtime is marked as started. -/
theorem Ok.markStarted (h : s.Ok) (hpoint : s.point = .markingStarted)
    (hs : s.advance fails port = some s') : s'.Ok := by
  have hexpects := h.expects
  simp only [CounterRuntime.advance, hpoint] at hs hexpects
  obtain ⟨hstarted, hup, hcontrol⟩ := hexpects
  obtain rfl := Option.some.inj hs
  exact ⟨h.publisher, fun _ => ⟨{ hup with }, .inl rfl⟩, .inl ⟨rfl, { hup with }, hcontrol⟩⟩

/-- The replicator goes last; the handler in `start` then throws, and `stop` has one step left. -/
theorem Ok.resetReplicator (h : s.Ok) (hpoint : s.point = .resettingReplicator thrown)
    (hs : s.advance fails port = some s') : s'.Ok := by
  have hexpects := h.expects
  simp only [CounterRuntime.advance, hpoint] at hs hexpects
  obtain ⟨hstarted, hdetector, hhandoff, hpublisher⟩ := hexpects
  have hcontrol := h.control_of_detector hdetector
  split at hs
  · rename_i hthrown
    obtain rfl := Option.some.inj hs
    rw [hthrown] at hstarted
    exact .before hcontrol (.inr ⟨hstarted, rfl, hhandoff, hpublisher, hdetector⟩)
      (bound_of_unset hpublisher)
  · rename_i hstop
    obtain rfl := Option.some.inj hs
    rw [Bool.eq_false_of_not_eq_true hstop] at hstarted
    exact .before hcontrol ⟨hstarted, rfl, hhandoff, hpublisher, hdetector⟩
      (bound_of_unset hpublisher)

/-- **The owner's steps keep what holds**, whichever calls fail. -/
theorem Ok.advance (h : s.Ok) (hs : s.advance fails port = some s') : s'.Ok := by
  have hexpects := h.expects
  cases hpoint : s.point with
  | idle =>
    simp only [CounterRuntime.advance, hpoint] at hs
    cases hs
  | enteringPeak => exact h.enterPeak hpoint hs
  | creatingReplicator => exact h.createReplicator hpoint hs
  | startingReplicator => exact h.startReplicator hpoint hs
  | settingPublisher => exact h.setPublisher hpoint hs
  | creatingHandoff => exact h.createHandoff hpoint hs
  | startingHandoff => exact h.startHandoff hpoint hs
  | startingDetector => exact h.startDetector hpoint hs
  | startingControl => exact h.startControl hpoint hs
  | markingStarted => exact h.markStarted hpoint hs
  | stoppingControl thrown =>
    simp only [CounterRuntime.advance, hpoint] at hs hexpects
    obtain rfl := Option.some.inj hs
    exact .before rfl ⟨hexpects, rfl⟩ h.publisher
  | stoppingDetector thrown =>
    simp only [CounterRuntime.advance, hpoint] at hs hexpects
    obtain ⟨hstarted, hcontrol⟩ := hexpects
    obtain rfl := Option.some.inj hs
    exact .before hcontrol ⟨hstarted, rfl⟩ h.publisher
  | resettingHandoff thrown =>
    simp only [CounterRuntime.advance, hpoint] at hs hexpects
    obtain rfl := Option.some.inj hs
    exact .before (h.control_of_detector hexpects.2) ⟨hexpects.1, hexpects.2, rfl⟩ h.publisher
  | clearingPublisher thrown =>
    simp only [CounterRuntime.advance, hpoint] at hs hexpects
    obtain ⟨hstarted, hdetector, hhandoff⟩ := hexpects
    obtain rfl := Option.some.inj hs
    exact .before (h.control_of_detector hdetector) ⟨hstarted, hdetector, hhandoff, rfl⟩
      (bound_of_unset rfl)
  | resettingReplicator thrown => exact h.resetReplicator hpoint hs
  | markingStopped =>
    simp only [CounterRuntime.advance, hpoint] at hs hexpects
    obtain ⟨-, hdown⟩ := hexpects
    obtain rfl := Option.some.inj hs
    exact .before (h.control_of_detector hdown.detector) (.inr ⟨rfl, { hdown with }⟩) h.publisher

end Advance

/-- The owner calls `start`: nothing is left to do, or the peak comes first. -/
theorem start_cases (hs : s.step .start = some s') :
    s.point = .idle ∧
      (s' = s ∨ s.started = false ∧ s' = { s with point := .enteringPeak }) := by
  simp only [CounterRuntime.step] at hs
  split at hs
  · cases hs
  rename_i hidle
  refine ⟨not_not.mp hidle, ?_⟩
  split at hs
  · exact .inl (Option.some.inj hs).symm
  · rename_i hstarted
    exact .inr ⟨Bool.eq_false_of_not_eq_true hstarted, (Option.some.inj hs).symm⟩

/-- The owner calls `stop`: nothing is there, or the control plane goes first. -/
theorem stop_cases (hs : s.step .stop = some s') :
    s.point = .idle ∧
      (s' = s ∨ ¬ (s.started = false ∧ s.replication = .absent ∧ s.handoff = .absent) ∧
        s' = { s with point := .stoppingControl false }) := by
  simp only [CounterRuntime.step] at hs
  split at hs
  · cases hs
  rename_i hidle
  refine ⟨not_not.mp hidle, ?_⟩
  split at hs
  · exact .inl (Option.some.inj hs).symm
  · rename_i hsomething
    exact .inr ⟨hsomething, (Option.some.inj hs).symm⟩

/-- What another thread does is a call of the engine. -/
theorem served {call : CounterEngine.Call} (hs : s.step (.serve call) = some s') :
    s.Serves call ∧ s' = { s with engine := s.engine.run call } := by
  simp only [CounterRuntime.step] at hs
  split at hs
  · rename_i hserves
    exact ⟨hserves, (Option.some.inj hs).symm⟩
  · cases hs

/-- The calls of other threads keep the ties of the engine. -/
theorem ties_of_serves {call : CounterEngine.Call} (hserves : s.Serves call) :
    CounterEngine.Ties s.engine (s.engine.run call) := by
  refine CounterEngine.ties_run s.engine fun present heq => ?_
  rw [heq] at hserves
  exact hserves

/-- **Every step keeps what holds.** -/
theorem Ok.step {action : RuntimeAction} (h : s.Ok) (hs : s.step action = some s') : s'.Ok := by
  have hexpects := h.expects
  cases action with
  | start =>
    obtain ⟨hidle, rfl | ⟨hno, rfl⟩⟩ := start_cases hs
    · exact h
    rw [hidle] at hexpects
    rcases hexpects with ⟨hyes, -⟩ | ⟨-, hdown⟩
    · exact absurd (hno.symm.trans hyes) Bool.false_ne_true
    · have hcontrol := h.control_eq_false hno (by simp [hidle])
      exact .before hcontrol ⟨hno, { hdown with }⟩ h.publisher
  | stop =>
    obtain ⟨hidle, rfl | ⟨hsomething, rfl⟩⟩ := stop_cases hs
    · exact h
    rw [hidle] at hexpects
    rcases hexpects with ⟨hyes, hup, hcontrol⟩ | ⟨hno, hdown⟩
    · exact ⟨h.publisher, fun _ => ⟨{ hup with }, .inl hyes⟩, hyes⟩
    · exact absurd ⟨hno, hdown.replication, hdown.handoff⟩ hsomething
  | advance fails port => exact h.advance hs
  | serve call =>
    obtain ⟨hserves, rfl⟩ := served hs
    exact h.congr (ties_of_serves hserves).publisher

/-! ### Whole runs -/

/-- What holds of the runtime holds in every run. -/
theorem Ok.steps {config : CounterRuntimeConfig}
    (hrun : Steps CounterRuntime.step (fun _ _ => True) (CounterRuntime.new config) s) : s.Ok :=
  hrun.invariant (.new config) fun _ _ _ h _ hs => h.step hs

/-- The owner enters the peak, or says whether there is a publisher. -/
theorem engine_of_advance {fails : Bool} {port : ℕ} (hs : s.advance fails port = some s') :
    s'.config = s.config ∧ (s'.engine = s.engine.transitionToReserved.2 ∨
      ∃ present, s'.engine = { s.engine with replicationPublisher := present }) := by
  simp only [CounterRuntime.advance] at hs
  split at hs
  · cases hs
  · split at hs
    · obtain rfl := Option.some.inj hs
      exact ⟨rfl, .inl rfl⟩
    · obtain rfl := Option.some.inj hs
      exact ⟨rfl, .inr ⟨s.engine.replicationPublisher, rfl⟩⟩
  -- all that the other points do to the engine is done to the publisher
  all_goals
    repeat' split at hs
    all_goals
      obtain rfl := Option.some.inj hs
      exact ⟨rfl, .inr ⟨_, rfl⟩⟩

/-- What the engine keeps in a step of the runtime. -/
theorem engine_of_step {action : RuntimeAction} (hs : s.step action = some s') :
    s'.config = s.config ∧
      (s.engine.replicationPublisher = false → s'.engine.snapshots = s.engine.snapshots) ∧
      (s.engine.mode ≠ .strict → s'.engine.mode ≠ .strict) := by
  have hsame : s.engine.replicationPublisher = false → s.engine.snapshots = s.engine.snapshots :=
    fun _ => rfl
  cases action with
  | start => obtain ⟨-, rfl | ⟨-, rfl⟩⟩ := start_cases hs <;> exact ⟨rfl, hsame, id⟩
  | stop => obtain ⟨-, rfl | ⟨-, rfl⟩⟩ := stop_cases hs <;> exact ⟨rfl, hsame, id⟩
  | advance fails port =>
    obtain ⟨hconfig, hentered | ⟨present, hset⟩⟩ := engine_of_advance hs
    · have hties := CounterEngine.Ties.transitionToReserved s.engine
      rw [← hentered] at hties
      exact ⟨hconfig, hties.snapshots, hties.mode⟩
    · rw [hset]
      exact ⟨hconfig, hsame, id⟩
  | serve call =>
    obtain ⟨hserves, rfl⟩ := served hs
    have hties := ties_of_serves hserves
    exact ⟨rfl, hties.snapshots, hties.mode⟩

/-- **What is alive in a run.** A publisher that is set, and one that a snapshot goes to, is a
replicator bound to a port. While the control loop is there everything configured is up, and the
runtime is started or `start` has only this left to say. Between the calls of the owner a runtime is
started with everything configured up, or it is not started and nothing of it is left. -/
theorem lifecycle {config : CounterRuntimeConfig}
    (hrun : Steps CounterRuntime.step (fun _ _ => True) (CounterRuntime.new config) s) :
    (s.engine.replicationPublisher = true → ∃ port, s.replication = .bound port) ∧
    (∀ action s', s.step action = some s' → s'.engine.snapshots ≠ s.engine.snapshots →
      ∃ port, s.replication = .bound port) ∧
    (s.control = true → s.AllUp ∧ (s.started = true ∨ s.point = .markingStarted)) ∧
    (s.point = .idle → s.started = true → s.AllUp ∧ s.control = true) ∧
    (s.point = .idle → s.started = false →
      s.AllDown ∧ s.control = false ∧ s.replicationPort = 0 ∧ s.handoffPort = 0) := by
  have hok := Ok.steps hrun
  refine ⟨hok.publisher, fun action s' hs hne => ?_, hok.control, fun hidle hyes => ?_,
    fun hidle hno => ?_⟩
  · -- nothing is handed over where no publisher is set
    refine hok.publisher (Bool.eq_true_of_not_eq_false fun hnone => ?_)
    exact hne ((engine_of_step hs).2.1 hnone)
  · have hexpects := hok.expects
    rw [hidle] at hexpects
    rcases hexpects with ⟨-, hup⟩ | ⟨hno, -⟩
    · exact hup
    · exact absurd (hyes.symm.trans hno) (by decide)
  · have hexpects := hok.expects
    rw [hidle] at hexpects
    rcases hexpects with ⟨hyes, -⟩ | ⟨-, hdown⟩
    · exact absurd (hyes.symm.trans hno) (by decide)
    · refine ⟨hdown, hok.control_eq_false hno (by simp [hidle]), ?_, ?_⟩
      · rw [replicationPort, hdown.replication]
      · rw [handoffPort, hdown.handoff]

/-- The runtime of a component that replicates. -/
def replicating : CounterRuntimeConfig where
  engine :=
    { limit := 100
      shards := 2
      dangerThreshold := 10
      hotThresholdTps := 10
      limit_lt := CounterEngineConfig.hundred_lt
      reservation_lt := CounterEngineConfig.zero_lt
      shards_pos := Nat.two_pos }
  startPeak := true
  replication := some { componentId := 1 }

/-- What leads from the constructor to a runtime that is started, if no call fails. -/
def startRun : List RuntimeAction :=
  .start :: List.replicate 8 (.advance false 4000)

/-- A run that starts a replicating runtime to the end. -/
theorem lifecycle_startRun :
    ∃ s, Steps CounterRuntime.step (fun _ _ => True) (CounterRuntime.new replicating) s ∧
      s.AllUp ∧ s.control = true := by
  have hexec : (exec CounterRuntime.step (fun _ _ => True) (CounterRuntime.new replicating)
      startRun).map (fun s => decide (s.point = .idle ∧ s.started = true)) = some true := by
    decide +kernel
  obtain ⟨s, hrun, hidle, hstarted⟩ := Steps.exists_of_exec hexec
  exact ⟨s, hrun, (lifecycle hrun).2.2.2.1 hidle hstarted⟩

/-! ### Starting in the peak -/

/-- The calls of `start` that have brought the runtime up or may still. -/
def entries (s : CounterRuntime) : ℕ := s.outcomes.count true + s.point.entered

/-- What holds in the runs of a runtime that starts in the peak. -/
structure Once (s : CounterRuntime) : Prop where
  startPeak : s.config.startPeak = true
  atMost : s.entries ≤ 1
  left : 0 < s.entries → s.engine.mode ≠ .strict

/-- A step that enters peak mode no more often. -/
theorem Once.of_le (h : s.Once) (hconfig : s'.config = s.config)
    (hmode : s.engine.mode ≠ .strict → s'.engine.mode ≠ .strict)
    (hle : s'.entries ≤ s.entries) : s'.Once where
  startPeak := hconfig ▸ h.startPeak
  atMost := hle.trans h.atMost
  left hpos := hmode (h.left (hpos.trans_le hle))

/-- After the peak has been entered there is nothing more to enter. -/
theorem entries_advance {fails : Bool} {port : ℕ} (hpoint : s.point ≠ .enteringPeak)
    (hs : s.advance fails port = some s') : s'.entries ≤ s.entries := by
  cases hat : s.point with
  | enteringPeak => exact absurd hat hpoint
  | _ =>
    simp only [CounterRuntime.advance, hat] at hs
    repeat' split at hs
    all_goals
      cases hs
      try simp [entries, hat, RuntimePoint.entered]

/-- The peak is entered from strict mode. -/
theorem mode_of_transitionToReserved {e : CounterEngine} (h : e.transitionToReserved.1 = true) :
    e.mode = .strict ∧ e.transitionToReserved.2.mode ≠ .strict := by
  rw [CounterEngine.transitionToReserved] at h ⊢
  split at h
  · exact absurd h Bool.false_ne_true
  rename_i hmode
  rw [if_neg hmode]
  dsimp only [CounterEngine.closeAndDrain] at h ⊢
  split at h
  · exact absurd h Bool.false_ne_true
  rename_i hfits
  rw [if_neg hfits]
  split at h
  · exact absurd h Bool.false_ne_true
  rename_i hseeded
  rw [if_neg hseeded]
  exact ⟨not_not.mp hmode, by simp⟩

/-- A lifecycle call that has entered peak mode does not enter it again. -/
theorem Once.advance {fails : Bool} {port : ℕ} (h : s.Once) (hs : s.advance fails port = some s') :
    s'.Once := by
  have hstep : s.step (.advance fails port) = some s' := hs
  have hkeeps := engine_of_step hstep
  by_cases hpoint : s.point = .enteringPeak
  · simp only [CounterRuntime.advance, hpoint] at hs
    rw [if_pos h.startPeak] at hs
    obtain rfl := Option.some.inj hs
    by_cases hentered : s.engine.transitionToReserved.1 = true
    · obtain ⟨hstrict, hleft⟩ := mode_of_transitionToReserved hentered
      have hnone : s.entries = 0 := by
        by_contra hne
        exact h.left (Nat.pos_of_ne_zero hne) hstrict
      refine ⟨h.startPeak, ?_, fun _ => hleft⟩
      have hcount : s.outcomes.count true = 0 := by
        simpa [entries, hpoint, RuntimePoint.entered] using hnone
      simp [entries, hentered, RuntimePoint.entered, hcount]
    · refine h.of_le rfl hkeeps.2.2 ?_
      simp [entries, hentered, hpoint, RuntimePoint.entered]
  · exact h.of_le hkeeps.1 hkeeps.2.2 (entries_advance hpoint hs)

/-- Every step of the runtime keeps this. -/
theorem Once.step {action : RuntimeAction} (h : s.Once) (hs : s.step action = some s') :
    s'.Once := by
  cases action with
  | advance fails port => exact h.advance hs
  | start =>
    obtain ⟨hidle, rfl | ⟨-, rfl⟩⟩ := start_cases hs
    · exact h
    · exact h.of_le rfl id (by simp [entries, hidle, RuntimePoint.entered])
  | stop =>
    obtain ⟨hidle, rfl | ⟨-, rfl⟩⟩ := stop_cases hs
    · exact h
    · exact h.of_le rfl id (by simp [entries, hidle, RuntimePoint.entered])
  | serve call =>
    obtain ⟨hserves, rfl⟩ := served hs
    exact h.of_le rfl (ties_of_serves hserves).mode le_rfl

/-- **A runtime that starts in the peak comes up once.** In no run do two calls of `start` bring it
up, whatever is stopped between them: the peak is entered from strict mode only, and nothing leads
back to it. -/
theorem peak_start_once {config : CounterRuntimeConfig} (hpeak : config.startPeak = true)
    (hrun : Steps CounterRuntime.step (fun _ _ => True) (CounterRuntime.new config) s) :
    s.outcomes.count true ≤ 1 := by
  have honce : s.Once := hrun.invariant (P := Once)
    ⟨hpeak, Nat.zero_le 1, fun hpos => absurd hpos (lt_irrefl 0)⟩ fun _ _ _ h _ hs => h.step hs
  exact (Nat.le_add_right _ _).trans honce.atMost

/-- A second start after a stop throws. -/
theorem peak_start_once_restart :
    ∃ s, Steps CounterRuntime.step (fun _ _ => True) (CounterRuntime.new replicating) s ∧
      s.outcomes = [true, false] ∧ s.outcomes.count true ≤ 1 := by
  have hexec : (exec CounterRuntime.step (fun _ _ => True) (CounterRuntime.new replicating)
      (startRun ++ .stop :: List.replicate 6 (.advance false 4000) ++
        .start :: List.replicate 6 (.advance false 4000))).map
        (fun s => decide (s.outcomes = [true, false])) = some true := by
    decide +kernel
  obtain ⟨s, hrun, houtcomes⟩ := Steps.exists_of_exec hexec
  exact ⟨s, hrun, houtcomes, peak_start_once rfl hrun⟩

end CounterRuntime

end HotCounter
