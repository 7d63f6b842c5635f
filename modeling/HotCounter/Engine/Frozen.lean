import HotCounter.Engine.Gate

/-!
# Admissions during a distributed handoff

A `CounterRuntime` runs the control loop and the handoff controller on two threads. Each tests
a shared flag and then acts: `begin_distributed_handoff` claims the handoff, reads the mode and
closes the gate; `transition_to_danger` reads the mode, tests the claim and closes the gate.
The invariant `Held` says what the handoff thread may rely on at each of its program points.
It survives every step of a run in which `begin_distributed_handoff` does not overtake a
transition of the control loop (`apart`), and `raceRun` shows that it needs this.
-/

namespace HotCounter

open Foundation

/-- The two control threads of a `CounterRuntime`. -/
inductive ControlThread
  | loop
  | handoff
  deriving DecidableEq

namespace ControlPoint

/-- Inside `transition_to_reserved`, past its test of the mode. -/
def inReserved : ControlPoint → Bool
  | .reservedClose | .reservedDrain | .reservedCheck | .reservedLoad | .reservedSeed _ _
  | .reservedAnnounce _ _ _ | .reservedReopen | .reservedPublish | .reservedCount _ _
  | .reservedStoreCount _ | .reservedEpoch | .reservedClearPeak | .reservedClearDanger
  | .reservedOpen => true
  | _ => false

/-- Inside `transition_to_danger`, past its test of an active handoff. -/
def inDanger : ControlPoint → Bool
  | .dangerClose | .dangerDrain | .dangerTotal _ _ | .dangerSeed _ | .dangerReopen
  | .dangerPublish | .dangerClearCount | .dangerEpoch | .dangerClear | .dangerOpen => true
  | _ => false

/-- A program point of the handoff thread. -/
def ofHandoff : ControlPoint → Bool
  | .idle | .beginClaim | .beginMode | .beginRelease | .beginClose | .beginDrain | .beginCounter
  | .beginEpoch _ | .beginTotal _ _ _ _ | .abortRelease | .abortMode | .abortOpen
  | .commitActive _ _ | .commitMode _ _ | .commitSeed _ _ | .commitPublish _ _
  | .commitClearCount _ _ | .commitEpoch _ _ | .commitClear _ _ | .commitRelease _ _
  | .commitCounter | .commitMark _ | .commitPublisher _ | .commitEvent _ | .commitRemember
  | .commitOpen => true
  | _ => false

/-- A program point of the control loop. -/
def ofLoop : ControlPoint → Bool
  | .idle => true
  | p => !p.ofHandoff

/-- A program point of the handoff thread at which a begun handoff is still held. -/
def holding : ControlPoint → Bool
  | .idle | .beginClaim | .abortRelease | .commitActive _ _ | .commitMode _ _ | .commitSeed _ _
  | .commitPublish _ _ => true
  | _ => false

variable {e : CounterEngine} {p : ControlPoint}

private theorem ofLoop_loopNext (mode : RoutingMode) :
    (loopNext mode).ofLoop = true ∧ (loopNext mode).inDanger = false ∧
      (loopNext mode).inReserved = false := by
  cases mode <;> exact ⟨rfl, rfl, rfl⟩

private theorem ofLoop_seedNext (e : CounterEngine) (index remaining : ℕ) :
    (seedNext e index remaining).ofLoop = true ∧ (seedNext e index remaining).inDanger = false := by
  unfold seedNext
  repeat' split
  all_goals exact ⟨rfl, rfl⟩

/-- The control loop neither begins nor ends a handoff. -/
theorem heldAfter_ofLoop (h : p.ofLoop = true) (e : CounterEngine)
    (held : Option DrainedPeakState) : p.heldAfter e held = held := by
  cases p with
  | beginTotal | abortRelease | commitPublish => exact absurd h Bool.false_ne_true
  | _ => rfl

/-- The control loop never touches the claim of a handoff. -/
theorem ofLoop_step (h : p.ofLoop = true) :
    (p.step e).2.ofLoop = true ∧
      (p.step e).1.distributedHandoffActive = e.distributedHandoffActive := by
  cases p with
  | reservedLoad =>
    simp only [ControlPoint.step]
    split
    · exact ⟨rfl, rfl⟩
    · exact ⟨(ofLoop_seedNext _ _ _).1, rfl⟩
  | reservedAnnounce => exact ⟨(ofLoop_seedNext _ _ _).1, rfl⟩
  | loopEpoch | snapshotPublisher =>
    simp only [ControlPoint.step]
    split
    · exact ⟨rfl, rfl⟩
    · exact ⟨(ofLoop_loopNext _).1, rfl⟩
  | snapshotPublish => exact ⟨(ofLoop_loopNext _).1, rfl⟩
  | _ =>
    first
      | simp only [ControlPoint.step]
        repeat' split
        all_goals exact ⟨rfl, by trivial⟩
      | exact absurd h Bool.false_ne_true

/-- While a handoff is claimed in peak mode, a control loop that is not already inside
`transition_to_danger` leaves the mode alone and never gets there. -/
theorem peak_step (h : p.ofLoop = true) (hmode : e.mode = .reservedPeak)
    (hactive : e.distributedHandoffActive = true) (hdanger : p.inDanger = false) :
    (p.step e).1.mode = .reservedPeak ∧ (p.step e).2.inDanger = false := by
  cases p with
  | reservedLoad =>
    simp only [ControlPoint.step]
    split
    · exact ⟨hmode, rfl⟩
    · exact ⟨hmode, (ofLoop_seedNext _ _ _).2⟩
  | reservedAnnounce => exact ⟨hmode, (ofLoop_seedNext _ _ _).2⟩
  | loopEpoch | snapshotPublisher =>
    simp only [ControlPoint.step]
    split
    · exact ⟨hmode, rfl⟩
    · exact ⟨hmode, (ofLoop_loopNext _).2.1⟩
  | snapshotPublish => exact ⟨hmode, (ofLoop_loopNext _).2.1⟩
  | dangerActive => simp [ControlPoint.step, hactive, hmode, inDanger]
  | reservedPublish => exact ⟨rfl, rfl⟩
  | dangerClose | dangerDrain | dangerTotal | dangerSeed | dangerReopen | dangerPublish
  | dangerClearCount | dangerEpoch | dangerClear | dangerOpen =>
    exact absurd hdanger.symm Bool.false_ne_true
  | _ =>
    first
      | simp only [ControlPoint.step]
        repeat' split
        all_goals exact ⟨hmode, rfl⟩
      | exact absurd h Bool.false_ne_true

/-- Outside both transitions the control loop leaves the gate and the shards alone. -/
theorem calm_step (h : p.ofLoop = true) (hmode : e.mode = .reservedPeak)
    (hdanger : p.inDanger = false) (hreserved : p.inReserved = false) :
    (p.step e).1.gateOpen = e.gateOpen ∧ (p.step e).1.reserved = e.reserved ∧
      (p.step e).2.inReserved = false := by
  cases p with
  | loopEpoch | snapshotPublisher =>
    simp only [ControlPoint.step]
    split
    · exact ⟨rfl, rfl, rfl⟩
    · exact ⟨rfl, rfl, (ofLoop_loopNext _).2.2⟩
  | snapshotPublish => exact ⟨rfl, rfl, (ofLoop_loopNext _).2.2⟩
  | reservedMode => simp [ControlPoint.step, hmode, inReserved]
  | dangerClose | dangerDrain | dangerTotal | dangerSeed | dangerReopen | dangerPublish
  | dangerClearCount | dangerEpoch | dangerClear | dangerOpen =>
    exact absurd hdanger.symm Bool.false_ne_true
  | reservedClose | reservedDrain | reservedCheck | reservedLoad | reservedSeed | reservedAnnounce
  | reservedReopen | reservedPublish | reservedCount | reservedStoreCount | reservedEpoch
  | reservedClearPeak | reservedClearDanger | reservedOpen =>
    exact absurd hreserved.symm Bool.false_ne_true
  | _ =>
    first
      | simp only [ControlPoint.step]
        repeat' split
        all_goals exact ⟨by trivial, by trivial, rfl⟩
      | exact absurd h Bool.false_ne_true

end ControlPoint

namespace Machine

variable {R : Type}

/-! ### What the handoff thread relies on -/

/-- The handoff is claimed, the mode was read, and no collapse is under way. -/
structure Claimed (m : Machine R ControlThread) : Prop where
  active : m.engine.distributedHandoffActive = true
  mode : m.engine.mode = .reservedPeak
  noDanger : (m.control .loop).inDanger = false

/-- The gate is closed and no transition is about to reopen it. -/
structure Shut (m : Machine R ControlThread) : Prop extends Claimed m where
  gate : m.engine.gateOpen = false
  noReserved : (m.control .loop).inReserved = false

/-- Nobody is inside either. -/
structure Frozen (m : Machine R ControlThread) : Prop extends Shut m where
  alone : ∀ r, (m.request r).inside = false

/-- What `begin_distributed_handoff` relies on at each of its program points. -/
def Begins (m : Machine R ControlThread) : ControlPoint → Prop
  | .beginMode => m.engine.distributedHandoffActive = true
  | .beginClose => Claimed m
  | .beginDrain => Shut m
  | .beginCounter | .beginEpoch _ => Frozen m
  | .beginTotal _ _ index total => Frozen m ∧ total = m.engine.usedBefore index
  | _ => True

/-- The invariant of a runtime whose two control threads do not collide. -/
structure Held [Fintype R] (m : Machine R ControlThread) : Prop where
  wf : m.Wf
  loop : (m.control .loop).ofLoop = true
  handoff : (m.control .handoff).ofHandoff = true
  begins : Begins m (m.control .handoff)
  held : ∀ state, m.held = some state →
    Frozen m ∧ m.engine.reserved.used = state.componentTotal ∧ (m.control .handoff).holding = true

/-- Another machine whose handoff thread stands at the same point and sees the same. -/
theorem Begins.congr {m m' : Machine R ControlThread} {p : ControlPoint} (h : Begins m p)
    (hactive : m'.engine.distributedHandoffActive = m.engine.distributedHandoffActive)
    (hclaimed : Claimed m → Claimed m') (hshut : Shut m → Shut m')
    (hfrozen : Frozen m → Frozen m')
    (hused : Frozen m → m'.engine.reserved = m.engine.reserved) : Begins m' p := by
  cases p with
  | beginMode => exact hactive.trans h
  | beginClose => exact hclaimed h
  | beginDrain => exact hshut h
  | beginCounter | beginEpoch => exact hfrozen h
  | beginTotal =>
    refine ⟨hfrozen h.1, h.2.trans ?_⟩
    rw [CounterEngine.usedBefore, CounterEngine.usedBefore, hused h.1]
  | _ => trivial

variable [Fintype R] {m m' : Machine R ControlThread}

/-- A step of another thread that keeps each of the three states keeps the invariant. -/
private theorem Held.other (h : Held m) (hwf : m'.Wf)
    (hloop : (m'.control .loop).ofLoop = true) (hpoint : m'.control .handoff = m.control .handoff)
    (hheld : m'.held = m.held)
    (hactive : m'.engine.distributedHandoffActive = m.engine.distributedHandoffActive)
    (hclaimed : Claimed m → Claimed m') (hshut : Shut m → Shut m')
    (hfrozen : Frozen m → Frozen m')
    (hused : Frozen m → m'.engine.reserved = m.engine.reserved) : Held m' where
  wf := hwf
  loop := hloop
  handoff := hpoint ▸ h.handoff
  begins := hpoint ▸ h.begins.congr hactive hclaimed hshut hfrozen hused
  held := by
    intro state hs
    obtain ⟨hf, htotal, hpt⟩ := h.held state (hheld ▸ hs)
    exact ⟨hfrozen hf, by rw [hused hf]; exact htotal, hpoint ▸ hpt⟩

section

variable [DecidableEq R]

private theorem Held.run (h : Held m) (r : R) (spurious : Bool)
    (hstep : m.step (.run r spurious) = some m') : Held m' := by
  have he := h.wf.effect r spurious
  have hwf := h.wf.step hstep
  obtain rfl := Option.some.inj hstep
  have hclaimed : ∀ {m₀ : Machine R ControlThread}, m₀.control = m.control →
      m₀.engine = ((m.request r).step m.engine spurious).1 → Claimed m → Claimed m₀ := by
    rintro m₀ hc hengine hm
    exact ⟨by rw [hengine, he.active]; exact hm.active, by rw [hengine, he.mode]; exact hm.mode,
      by rw [hc]; exact hm.noDanger⟩
  refine h.other hwf h.loop rfl rfl he.active (hclaimed rfl rfl) (fun hm => ?_) (fun hm => ?_)
    fun hm => ?_
  · exact ⟨hclaimed rfl rfl hm.toClaimed, he.gateOpen.trans hm.gate, hm.noReserved⟩
  · refine ⟨⟨hclaimed rfl rfl hm.toClaimed, he.gateOpen.trans hm.gate, hm.noReserved⟩, fun r' => ?_⟩
    by_cases hr : r' = r
    · subst hr
      dsimp only
      rw [Function.update_self]
      by_contra hin
      rcases he.enters (by simpa using hin) with hin | hopen
      · cases (hm.alone r').symm.trans hin
      · cases hm.gate.symm.trans hopen
    · simpa [Function.update_of_ne hr] using hm.alone r'
  · exact (ApplyPoint.step_outside m.engine spurious (hm.alone r)).2

private theorem Held.advanceLoop (h : Held m) (hstep : m.step (.advance .loop) = some m') :
    Held m' := by
  have hwf := h.wf.step hstep
  obtain ⟨hloop, hactive⟩ := ControlPoint.ofLoop_step (e := m.engine) h.loop
  obtain rfl := Option.some.inj hstep
  have hheld := ControlPoint.heldAfter_ofLoop h.loop m.engine m.held
  have hclaimed := fun hm : Claimed m =>
    ControlPoint.peak_step h.loop hm.mode hm.active hm.noDanger
  have hshut := fun hm : Shut m =>
    ControlPoint.calm_step h.loop hm.mode hm.noDanger hm.noReserved
  refine h.other hwf (by simpa using hloop) (by simp) hheld hactive (fun hm => ?_) (fun hm => ?_)
    (fun hm => ?_) fun hm => (hshut hm.toShut).2.1
  · exact ⟨hactive.trans hm.active, (hclaimed hm).1, by simpa using (hclaimed hm).2⟩
  · obtain ⟨hgate, -, hres⟩ := hshut hm
    exact ⟨⟨hactive.trans hm.active, (hclaimed hm.toClaimed).1,
      by simpa using (hclaimed hm.toClaimed).2⟩, hgate.trans hm.gate, by simpa using hres⟩
  · obtain ⟨hgate, -, hres⟩ := hshut hm.toShut
    exact ⟨⟨⟨hactive.trans hm.active, (hclaimed hm.toClaimed).1,
      by simpa using (hclaimed hm.toClaimed).2⟩, hgate.trans hm.gate,
        by simpa using hres⟩, hm.alone⟩

end

/-! ### The handoff thread's own steps -/

/-- A step of the handoff thread before or after a handoff is held. -/
private theorem Held.notHeld {e' : CounterEngine} {p' : ControlPoint}
    (hstep : m' =
      { m with engine := e', control := Function.update m.control .handoff p', held := none })
    (hwf : m'.Wf) (h : Held m) (hpoint : p'.ofHandoff = true) (hbegins : Begins m' p') :
    Held m' := by
  subst hstep
  exact ⟨hwf, by simpa using h.loop, by simpa using hpoint, by simpa using hbegins, nofun⟩

omit [Fintype R] in
/-- A step of the handoff thread that leaves what it relies on alone. -/
private theorem Frozen.handoff {e' : CounterEngine} {p' : ControlPoint}
    {held : Option DrainedPeakState} (h : Frozen m)
    (hactive : e'.distributedHandoffActive = m.engine.distributedHandoffActive)
    (hmode : e'.mode = m.engine.mode) (hgate : e'.gateOpen = m.engine.gateOpen) :
    Frozen
      { m with engine := e', control := Function.update m.control .handoff p', held := held } :=
  ⟨⟨⟨hactive.trans h.active, hmode.trans h.mode, by simpa using h.noDanger⟩, hgate.trans h.gate,
    by simpa using h.noReserved⟩, h.alone⟩

/-- A step of the handoff thread while it holds a handoff. -/
private theorem Held.stillHeld {e' : CounterEngine} {p' : ControlPoint}
    (hstep : m' = { m with engine := e', control := Function.update m.control .handoff p' })
    (hwf : m'.Wf) (h : Held m) (hpoint : p'.ofHandoff = true) (hholding : p'.holding = true)
    (hactive : e'.distributedHandoffActive = m.engine.distributedHandoffActive)
    (hmode : e'.mode = m.engine.mode) (hgate : e'.gateOpen = m.engine.gateOpen)
    (hreserved : e'.reserved = m.engine.reserved) : Held m' := by
  subst hstep
  have hbegins : ∀ m₀ : Machine R ControlThread, Begins m₀ p' := by
    intro m₀
    cases p' <;> trivial
  refine ⟨hwf, by simpa using h.loop, by simpa using hpoint, by simpa using hbegins _, ?_⟩
  intro state hs
  obtain ⟨hf, htotal, -⟩ := h.held state hs
  exact ⟨hf.handoff hactive hmode hgate, by rw [← htotal]; exact congrArg _ hreserved,
    by simpa using hholding⟩

variable [DecidableEq R]

private theorem Held.advanceHandoff (h : Held m)
    (hmode : m.control .handoff = .beginMode → m.engine.mode = .reservedPeak →
      (m.control .loop).inDanger = false)
    (hclose : m.control .handoff = .beginClose → (m.control .loop).inReserved = false)
    (hstep : m.step (.advance .handoff) = some m') : Held m' := by
  have hwf := h.wf.step hstep
  have hm' := (Option.some.inj hstep).symm
  have hbegins := h.begins
  have hofHandoff := h.handoff
  -- away from the points at which a handoff is held there is none
  have hnone : (m.control .handoff).holding = false → m.held = none := by
    intro hpt
    by_contra hsome
    obtain ⟨state, hs⟩ := Option.ne_none_iff_exists'.mp hsome
    cases hpt.symm.trans (h.held state hs).2.2
  rcases hp : m.control .handoff
  all_goals rw [hp] at hm' hbegins hofHandoff hnone
  case beginClaim =>
    simp only [ControlPoint.step, ControlPoint.heldAfter] at hm'
    split at hm'
    · exact Held.stillHeld hm' hwf h rfl rfl rfl rfl rfl rfl
    · rename_i hactive
      have hno : m.held = none := by
        by_contra hsome
        obtain ⟨state, hs⟩ := Option.ne_none_iff_exists'.mp hsome
        exact hactive (h.held state hs).1.active
      rw [hno] at hm'
      exact Held.notHeld hm' hwf h rfl (by rw [hm']; rfl)
  case beginMode =>
    simp only [ControlPoint.step, ControlPoint.heldAfter, hnone rfl] at hm'
    split at hm'
    · exact Held.notHeld hm' hwf h rfl trivial
    · rename_i hpeak
      have hpeak := not_not.mp hpeak
      refine Held.notHeld hm' hwf h rfl ?_
      rw [hm']
      exact ⟨hbegins, hpeak, by simpa using hmode hp hpeak⟩
  case beginClose =>
    simp only [ControlPoint.step, ControlPoint.heldAfter, hnone rfl] at hm'
    refine Held.notHeld hm' hwf h rfl ?_
    rw [hm']
    exact ⟨⟨hbegins.active, hbegins.mode, by simpa using hbegins.noDanger⟩, rfl,
      by simpa using hclose hp⟩
  case beginDrain =>
    simp only [ControlPoint.step, ControlPoint.heldAfter, hnone rfl] at hm'
    split at hm'
    · rename_i hzero
      refine Held.notHeld hm' hwf h rfl ?_
      rw [hm']
      exact Frozen.handoff ⟨hbegins, h.wf.drained hzero⟩ rfl rfl rfl
    · refine Held.notHeld hm' hwf h rfl ?_
      rw [hm']
      exact ⟨⟨hbegins.active, hbegins.mode, by simpa using hbegins.noDanger⟩, hbegins.gate,
        by simpa using hbegins.noReserved⟩
  case beginCounter =>
    simp only [ControlPoint.step, ControlPoint.heldAfter, hnone rfl] at hm'
    exact Held.notHeld hm' hwf h rfl (by rw [hm']; exact Frozen.handoff hbegins rfl rfl rfl)
  case beginEpoch counter =>
    simp only [ControlPoint.step, ControlPoint.heldAfter, hnone rfl] at hm'
    refine Held.notHeld hm' hwf h rfl ?_
    rw [hm']
    exact ⟨Frozen.handoff hbegins rfl rfl rfl, by simp⟩
  case beginTotal counter epoch index total =>
    obtain ⟨hf, htotal⟩ := hbegins
    simp only [ControlPoint.step, ControlPoint.heldAfter, hnone rfl] at hm'
    split at hm'
    · rename_i hlen
      refine Held.notHeld hm' hwf h rfl ?_
      rw [hm']
      exact ⟨hf.handoff rfl rfl rfl, h.wf.sound.add_shard hlen htotal⟩
    · rename_i hlen
      subst hm'
      refine ⟨hwf, by simpa using h.loop, by simp [ControlPoint.ofHandoff], by simp [Begins], ?_⟩
      rintro state hs
      obtain rfl := Option.some.inj hs
      refine ⟨hf.handoff rfl rfl rfl, ?_, by simp [ControlPoint.holding]⟩
      exact (m.engine.usedBefore_of_le (Nat.not_lt.mp hlen)).symm.trans htotal.symm
  case beginRelease | abortMode | abortOpen =>
    simp only [ControlPoint.step, ControlPoint.heldAfter, hnone rfl] at hm'
    repeat' split at hm'
    all_goals exact Held.notHeld hm' hwf h rfl trivial
  case abortRelease =>
    simp only [ControlPoint.step, ControlPoint.heldAfter] at hm'
    split at hm' <;> exact Held.notHeld hm' hwf h rfl trivial
  case commitPublish => exact Held.notHeld hm' hwf h rfl trivial
  case idle | commitActive | commitMode | commitSeed =>
    simp only [ControlPoint.step, ControlPoint.heldAfter] at hm'
    repeat' split at hm'
    all_goals exact Held.stillHeld hm' hwf h rfl rfl rfl rfl rfl rfl
  case commitClearCount | commitEpoch | commitClear | commitCounter | commitMark | commitPublisher
    | commitEvent | commitRemember | commitOpen =>
    simp only [ControlPoint.step, ControlPoint.heldAfter, hnone rfl] at hm'
    repeat' split at hm'
    all_goals exact Held.notHeld hm' hwf h rfl trivial
  case commitRelease total strictOwner =>
    simp only [ControlPoint.step, ControlPoint.heldAfter, ControlPoint.commitExhaustion,
      hnone rfl] at hm'
    repeat' split at hm'
    all_goals exact Held.notHeld hm' hwf h rfl trivial
  all_goals exact absurd hofHandoff Bool.false_ne_true

/-! ### Runs of a runtime -/

/-- Which thread makes which calls. -/
def asRuntime : Action R ControlThread → Bool
  | .invoke .loop .beginHandoff | .invoke .loop .abortHandoff
  | .invoke .loop (.commitHandoff _ _) => false
  | .invoke .handoff .controlLoop | .invoke .handoff .enterReservedMode
  | .invoke .handoff .enterDangerMode => false
  | _ => true

/-- `begin_distributed_handoff` does not overtake a transition of the control loop: when it
reads peak mode the loop is not inside `transition_to_danger`, and when it closes the gate the
loop is not inside `transition_to_reserved`. -/
def apart (m : Machine R ControlThread) : Action R ControlThread → Prop
  | .advance .handoff =>
    (m.control .handoff = .beginMode → m.engine.mode = .reservedPeak →
        (m.control .loop).inDanger = false) ∧
      (m.control .handoff = .beginClose → (m.control .loop).inReserved = false)
  | _ => True

instance (m : Machine R ControlThread) (a : Action R ControlThread) : Decidable (apart m a) :=
  match a with
  | .advance .handoff => inferInstanceAs (Decidable (_ ∧ _))
  | .advance .loop | .call _ _ | .run _ _ | .invoke _ _ | .raisePeakRequest => .isTrue trivial

omit [DecidableEq R] in
theorem held_init (config : CounterEngineConfig) (hthreads : Fintype.card R < 2 ^ 32) :
    Held (init R ControlThread config) :=
  ⟨wf_init config hthreads, rfl, rfl, trivial, nofun⟩

/-- **Every step apart keeps what the handoff thread relies on.** -/
theorem Held.step (h : Held m) {a : Action R ControlThread} (hrun : asRuntime a = true)
    (hapart : apart m a) (hstep : m.step a = some m') : Held m' := by
  have hwf := h.wf.step hstep
  cases a with
  | call r request =>
    simp only [Machine.step] at hstep
    split at hstep
    · obtain rfl := Option.some.inj hstep
      refine h.other hwf h.loop rfl rfl rfl (fun hm => ⟨hm.active, hm.mode, hm.noDanger⟩)
        (fun hm => ⟨⟨hm.active, hm.mode, hm.noDanger⟩, hm.gate, hm.noReserved⟩)
        (fun hm => ⟨⟨⟨hm.active, hm.mode, hm.noDanger⟩, hm.gate, hm.noReserved⟩, fun r' => ?_⟩)
        fun _ => rfl
      by_cases hr : r' = r
      · subst hr
        simp [ApplyPoint.inside]
      · simpa [Function.update_of_ne hr] using hm.alone r'
    · cases hstep
  | run r spurious => exact h.run r spurious hstep
  | invoke c op =>
    simp only [Machine.step] at hstep
    split at hstep
    · rename_i hidle
      obtain rfl := Option.some.inj hstep
      cases c with
      | loop =>
        have hentry : (ControlPoint.entry op).ofLoop = true ∧
            (ControlPoint.entry op).inDanger = false ∧
            (ControlPoint.entry op).inReserved = false := by
          cases op with
          | controlLoop | enterReservedMode | enterDangerMode => exact ⟨rfl, rfl, rfl⟩
          | beginHandoff | abortHandoff | commitHandoff => exact absurd hrun Bool.false_ne_true
        refine h.other hwf (by simpa using hentry.1) (by simp) rfl rfl
          (fun hm => ⟨hm.active, hm.mode, by simpa using hentry.2.1⟩)
          (fun hm => ⟨⟨hm.active, hm.mode, by simpa using hentry.2.1⟩, hm.gate,
            by simpa using hentry.2.2⟩)
          (fun hm => ⟨⟨⟨hm.active, hm.mode, by simpa using hentry.2.1⟩, hm.gate,
            by simpa using hentry.2.2⟩, hm.alone⟩) fun _ => rfl
      | handoff =>
        cases op with
        | beginHandoff | abortHandoff | commitHandoff =>
          exact Held.stillHeld rfl hwf h rfl rfl rfl rfl rfl rfl
        | controlLoop | enterReservedMode | enterDangerMode => exact absurd hrun Bool.false_ne_true
    · cases hstep
  | advance c =>
    cases c with
    | loop => exact h.advanceLoop hstep
    | handoff => exact h.advanceHandoff hapart.1 hapart.2 hstep
  | raisePeakRequest =>
    obtain rfl := Option.some.inj hstep
    exact h.other hwf h.loop rfl rfl rfl (fun hm => ⟨hm.active, hm.mode, hm.noDanger⟩)
      (fun hm => ⟨⟨hm.active, hm.mode, hm.noDanger⟩, hm.gate, hm.noReserved⟩)
      (fun hm => ⟨⟨⟨hm.active, hm.mode, hm.noDanger⟩, hm.gate, hm.noReserved⟩, hm.alone⟩)
      fun _ => rfl

/-- The accepting answers of a log. -/
def acceptedAnswers (log : List (Request × Result)) : List (Request × Result) :=
  log.filter fun entry => entry.2.decision = .accepted

/-- What a held handoff freezes: the gate, the mode, the reported total and every answer. -/
structure FrozenAt (state : DrainedPeakState) (m : Machine R ControlThread) : Prop where
  gate : m.engine.gateOpen = false
  mode : m.engine.mode = .reservedPeak
  total : m.engine.reserved.total = state.componentTotal
  answers : ∀ a m', m.step a = some m' → acceptedAnswers m'.returned = acceptedAnswers m.returned

/-- A machine with nobody inside gives no accepting answer. -/
private theorem Held.answers (h : Held m) (hf : Frozen m) {a : Action R ControlThread}
    (hstep : m.step a = some m') : acceptedAnswers m'.returned = acceptedAnswers m.returned := by
  cases a with
  | run r spurious =>
    have he := h.wf.effect r spurious
    obtain rfl := Option.some.inj hstep
    have hlog : acceptedAnswers ((m.request r).step m.engine spurious).2.2 = [] := by
      rw [acceptedAnswers, List.filter_eq_nil_iff]
      intro entry hmem hacc
      have hin := he.answers entry hmem (by simpa using hacc)
      cases (hf.alone r).symm.trans hin
    simpa [acceptedAnswers] using hlog
  | call r request =>
    simp only [Machine.step] at hstep
    split at hstep
    · obtain rfl := Option.some.inj hstep
      rfl
    · cases hstep
  | invoke c op =>
    simp only [Machine.step] at hstep
    split at hstep
    · obtain rfl := Option.some.inj hstep
      rfl
    · cases hstep
  | advance c | raisePeakRequest =>
    obtain rfl := Option.some.inj hstep
    rfl

/-- **Admissions stay frozen during a handoff**, in every run of fewer than `2 ^ 32` request
threads in which `begin_distributed_handoff` does not overtake a transition of the control loop. -/
theorem frozen_while_held (hthreads : Fintype.card R < 2 ^ 32) {config : CounterEngineConfig}
    (h : Steps Machine.step (fun m a => asRuntime a = true ∧ apart m a)
      (init R ControlThread config) m)
    {state : DrainedPeakState} (hheld : m.held = some state) : FrozenAt state m := by
  have hinv : Held m :=
    h.invariant (held_init config hthreads) fun t u a ht hok hs => ht.step hok.1 hok.2 hs
  obtain ⟨hf, htotal, -⟩ := hinv.held state hheld
  exact ⟨hf.gate, hf.mode, hinv.wf.sound.total_eq.trans htotal, fun a m' hs => hinv.answers hf hs⟩

/-- A process that owns its whole limit and collapses early. -/
def raceConfig : CounterEngineConfig where
  limit := 100
  shards := 1
  dangerThreshold := 100
  hotThresholdTps := 1
  limit_lt := CounterEngineConfig.hundred_lt
  reservation_lt := CounterEngineConfig.zero_lt
  shards_pos := Nat.one_pos

/-- The control loop enters peak mode, then the handoff thread begins a handoff. -/
def calmRun : List (Action Unit ControlThread) :=
  .raisePeakRequest :: .invoke .loop .controlLoop :: List.replicate 21 (.advance .loop) ++
    .invoke .handoff .beginHandoff :: List.replicate 8 (.advance .handoff)

theorem frozen_while_held_calmRun :
    ∃ m : Machine Unit ControlThread, m.held = some ⟨0, 1, 0⟩ ∧ FrozenAt ⟨0, 1, 0⟩ m := by
  have hrun : (exec Machine.step (fun m a => asRuntime a = true ∧ apart m a)
      (init Unit ControlThread raceConfig) calmRun).map
        (fun m => decide (m.held = some ⟨0, 1, 0⟩)) = some true := by decide +kernel
  obtain ⟨m, hsteps, hheld⟩ := Steps.exists_of_exec hrun
  exact ⟨m, hheld, frozen_while_held (by decide) hsteps hheld⟩

/-! ### The two check-then-act sequences collide -/

/-- The control loop enters peak mode and passes the tests of `transition_to_danger`; the
handoff thread then begins a handoff; the control loop goes on, publishes strict mode and
reopens the gate; a client calls `apply` and is about to be told that it was accepted. -/
def raceRun : List (Action Unit ControlThread) :=
  .raisePeakRequest :: .invoke .loop .controlLoop :: List.replicate 21 (.advance .loop) ++
    .invoke .loop .controlLoop :: List.replicate 10 (.advance .loop) ++
    .invoke .handoff .beginHandoff :: List.replicate 8 (.advance .handoff) ++
    List.replicate 10 (.advance .loop) ++
    .call () ⟨17, 1, 0⟩ :: List.replicate 10 (.run () false)

/-- The handoff is held with total 0, yet the gate is open, the mode is strict and the next
access answers a client `Accepted`. -/
theorem raceRun_not_frozen :
    ∃ m : Machine Unit ControlThread,
      Steps Machine.step (fun _ a => asRuntime a = true) (init Unit ControlThread raceConfig) m ∧
        m.held = some ⟨0, 1, 0⟩ ∧ m.engine.gateOpen = true ∧ m.engine.mode = .dangerStrict ∧
        ((m.step (.run () false)).map fun m' => acceptedAnswers m'.returned) =
          some [(⟨17, 1, 0⟩, ⟨.accepted, 1, 0⟩)] ∧
        ¬ FrozenAt ⟨0, 1, 0⟩ m := by
  have hrun : (exec Machine.step (fun _ a => asRuntime a = true)
      (init Unit ControlThread raceConfig) raceRun).map (fun m => decide
        (m.held = some ⟨0, 1, 0⟩ ∧ m.engine.gateOpen = true ∧ m.engine.mode = .dangerStrict ∧
          ((m.step (.run () false)).map fun m' => acceptedAnswers m'.returned) =
            some [(⟨17, 1, 0⟩, ⟨.accepted, 1, 0⟩)])) = some true := by decide +kernel
  obtain ⟨m, hsteps, hheld, hgate, hmode, hanswer⟩ := Steps.exists_of_exec hrun
  exact ⟨m, hsteps, hheld, hgate, hmode, hanswer,
    fun hf => absurd (hf.gate.symm.trans hgate) nofun⟩

end Machine

end HotCounter
