import HotCounter.Engine.Readings
import HotCounter.Engine.Recovery

/-!
# Replicated snapshots

The control loop reads the mode, the value and the epoch in separate accesses, and
`publish_snapshot` reads the epoch once more, while `commit_distributed_handoff` changes the mode
and the epoch on the handoff thread. A run is watched by a record that no access reads: which mode
serves each epoch, what the loop has loaded, and what it published. `snapshots_consistent` says
that every published value was read, under the epoch it is published with, from the counter that
serves this epoch, in every run in which a commit does not fall into a sample of the loop
(`paced`); `staleRun` shows that it needs this.
-/

namespace HotCounter

open Foundation

/-- A request thread publishes no snapshot. -/
theorem ApplyPoint.snapshots_step (e : CounterEngine) (p : ApplyPoint) (spurious : Bool) :
    (p.step e spurious).1.snapshots = e.snapshots := by
  cases p <;> simp only [ApplyPoint.step] <;> repeat' split
  all_goals rfl

/-! ### The record -/

/-- A run of a runtime's engine, watched. -/
structure Watched (R : Type) where
  machine : Machine R ControlThread
  /-- the epochs started so far and the modes that serve them, newest first -/
  serves : List (ℕ × RoutingMode)
  /-- what the control loop has loaded from the counter that it read last -/
  read : Option Reading
  /-- what the control loop published and what it had read before, newest first -/
  published : List (ReplicationUpdate × Option Reading)

namespace Watched

variable {R : Type}

/-- A fresh engine with a replication publisher serves its first epoch in strict mode. -/
def init (R : Type) (config : CounterEngineConfig) : Watched R where
  machine :=
    { Machine.init R ControlThread config with
      engine := { CounterEngine.new config with replicationPublisher := true } }
  serves := [(0, .strict)]
  read := none
  published := []

/-- Only the control loop reads a value to publish. -/
def readAfter (w : Watched R) : Action R ControlThread → Option Reading
  | .advance .loop => (w.machine.control .loop).reading w.machine.engine w.read
  | _ => w.read

/-- Only the control loop publishes. -/
def publishedAfter (w : Watched R) :
    Action R ControlThread → List (ReplicationUpdate × Option Reading)
  | .advance .loop =>
    ((w.machine.control .loop).publishing w.machine.engine).toList.map (·, w.read) ++ w.published
  | _ => w.published

/-- One step of one thread, and its record. -/
def step [DecidableEq R] (w : Watched R) (a : Action R ControlThread) : Option (Watched R) :=
  (w.machine.step a).map fun m' =>
    ⟨m', w.machine.engine.enroll m'.engine w.serves, w.readAfter a, w.publishedAfter a⟩

/-- Which thread makes which calls. -/
def asRuntime (_ : Watched R) (a : Action R ControlThread) : Prop := Machine.asRuntime a = true

instance (w : Watched R) (a : Action R ControlThread) : Decidable (w.asRuntime a) :=
  inferInstanceAs (Decidable (_ = true))

/-- A commit publishes its mode while the control loop is outside its transitions, it starts its
epoch while the loop takes no sample that it may publish, and the loop does not read the mode
between the two accesses. -/
def paced (w : Watched R) : Action R ControlThread → Prop
  | .advance .handoff =>
    ((w.machine.control .handoff).publishesCommit = true →
        (w.machine.control .loop).inTransition = false) ∧
      ((w.machine.control .handoff).starts ≠ none →
        ∀ mode ∈ (w.machine.control .loop).sampled, mode = .remoteStrict)
  | .advance .loop =>
    w.machine.control .loop = .loopMode →
      (w.machine.control .handoff).switching ≠ some .dangerStrict
  | _ => True

instance (w : Watched R) (a : Action R ControlThread) : Decidable (w.paced a) :=
  match a with
  | .advance .handoff => inferInstanceAs (Decidable (_ ∧ _))
  | .advance .loop => inferInstanceAs (Decidable (_ → _))
  | .call _ _ | .run _ _ | .invoke _ _ | .raisePeakRequest => .isTrue trivial

/-- An update carries the value of a reading: the sum of its loads, all of them from the counter
that serves a mode, and the first of them under the epoch of the update. -/
structure Carries (mode : RoutingMode) (r : Reading) (update : ReplicationUpdate) : Prop
    extends r.Gives update.value where
  source : mode.source = some r.source
  epoch : r.epoch = update.epoch

/-- Published snapshots are consistent: every transition and commit starts a new epoch with one
mode, what the control loop publishes under an epoch was read under it from the counter that
serves the epoch's mode, and nothing is published under an epoch that is served elsewhere. -/
structure Consistent (w : Watched R) : Prop where
  epochs : w.serves.map Prod.fst = (List.range (w.machine.engine.replicationEpoch + 1)).reverse
  /-- strict mode serves epoch 0 of every process, peak mode epoch 1, and neither a later one -/
  ranks : ∀ entry ∈ w.serves, entry.2.Rank entry.1
  /-- while no thread is switching the published mode is that of the epoch -/
  settled : (∀ c, (w.machine.control c).switching = none) →
    (w.machine.engine.replicationEpoch, w.machine.engine.mode) ∈ w.serves
  recorded : w.published.map Prod.fst = w.machine.engine.snapshots
  sources : ∀ entry ∈ w.published, ∃ mode r, (entry.1.epoch, mode) ∈ w.serves ∧
    mode ≠ .remoteStrict ∧ entry.2 = some r ∧ Carries mode r entry.1

variable [Fintype R] {w w' : Watched R}

/-- The invariant of a run in which commits keep out of the samples of the control loop. -/
structure Watching (w : Watched R) : Prop where
  wf : w.machine.Wf
  loop : (w.machine.control .loop).ofLoop = true
  handoff : (w.machine.control .handoff).ofHandoff = true
  active : (w.machine.control .handoff).committing = true →
    w.machine.engine.distributedHandoffActive = true
  apart : (w.machine.control .handoff).switching ≠ none →
    (w.machine.control .loop).inTransition = false
  ranked : Ranked w.machine.engine (w.machine.control .loop) (w.machine.control .handoff) w.serves
  /-- the mode that a sample was taken under still serves the epoch -/
  sampled : ∀ mode, (w.machine.control .loop).sampled = some mode → mode ≠ .remoteStrict →
    (w.machine.engine.replicationEpoch, mode) ∈ w.serves
  reads : (w.machine.control .loop).Reads w.machine.engine w.read
  recorded : w.published.map Prod.fst = w.machine.engine.snapshots
  sources : ∀ entry ∈ w.published, ∃ mode r, (entry.1.epoch, mode) ∈ w.serves ∧
    mode ≠ .remoteStrict ∧ entry.2 = some r ∧ Carries mode r entry.1

namespace Watching

theorem consistent (h : Watching w) : Consistent w where
  epochs := h.ranked.epochs
  ranks := h.ranked.ranks
  settled := fun hnone => h.ranked.settled (hnone .loop) (hnone .handoff)
  recorded := h.recorded
  sources := h.sources

theorem init (config : CounterEngineConfig) (hthreads : Fintype.card R < 2 ^ 32) :
    Watching (Watched.init R config) := by
  obtain ⟨-, ⟨hstrict, hreserved, hbounded, hvalue⟩, -, -, hinFlight⟩ :=
    Machine.wf_init (R := R) (C := ControlThread) config hthreads
  constructor
  case wf => exact ⟨hthreads, ⟨hstrict, hreserved, hbounded, hvalue⟩, fun _ => trivial,
    fun _ => trivial, hinFlight⟩
  case ranked =>
    constructor
    case strict => exact fun _ => rfl
    case fresh => exact fun _ => ⟨rfl, rfl⟩
    case alone => exact .inl rfl
    case rank => exact rfl
    case bound => exact Nat.zero_le 3
    case epochs => rfl
    case ranks =>
      intro entry hmem
      obtain rfl := List.mem_singleton.mp hmem
      exact rfl
    case settled => exact fun _ _ => List.mem_singleton_self _
    case turning => rintro mode (hs | hs) <;> cases hs
  case sampled => exact fun mode hs => by cases hs
  case sources => exact fun entry hmem => by cases hmem
  case apart => exact fun hne => absurd rfl hne
  case active => exact fun hs => absurd hs Bool.false_ne_true
  case loop | handoff | recorded => rfl
  case reads => trivial

/-- Another machine whose control threads stand at the same points and see the same. -/
private theorem other (h : Watching w) {m' : Machine R ControlThread} (hwf : m'.Wf)
    (hcontrol : m'.control = w.machine.control)
    (hmode : m'.engine.mode = w.machine.engine.mode)
    (hepoch : m'.engine.replicationEpoch = w.machine.engine.replicationEpoch)
    (hactive : m'.engine.distributedHandoffActive = w.machine.engine.distributedHandoffActive)
    (hgrows : w.machine.engine.Grows m'.engine)
    (hsnapshots : m'.engine.snapshots = w.machine.engine.snapshots) :
    Watching ⟨m', w.machine.engine.enroll m'.engine w.serves, w.read, w.published⟩ := by
  obtain ⟨hstrict, hfresh, halone, hrank, hbound, hepochs, hranks, hsettled, hturning⟩ := h.ranked
  rw [CounterEngine.enroll_same hepoch]
  constructor
  case wf => exact hwf
  case ranked =>
    unfold CounterEngine.publishes at hrank hbound
    dsimp only
    rw [hcontrol]
    constructor
    case strict => rw [hmode]; exact hstrict
    case fresh => rw [hmode]; exact hfresh
    case alone => exact halone
    case rank => rw [hmode, CounterEngine.publishes, hepoch]; exact hrank
    case bound => rw [CounterEngine.publishes, hepoch]; exact hbound
    case epochs => rw [hepoch]; exact hepochs
    case ranks => exact hranks
    case settled => rw [hmode, hepoch]; exact hsettled
    case turning => rw [hmode]; exact hturning
  case loop => dsimp only; rw [hcontrol]; exact h.loop
  case handoff => dsimp only; rw [hcontrol]; exact h.handoff
  case active => dsimp only; rw [hcontrol, hactive]; exact h.active
  case apart => dsimp only; rw [hcontrol]; exact h.apart
  case sampled => dsimp only; rw [hcontrol, hepoch]; exact h.sampled
  case reads => dsimp only; rw [hcontrol]; exact h.reads.congr hgrows fun _ _ _ => hepoch
  case recorded => exact h.recorded.trans hsnapshots.symm
  case sources => exact h.sources

variable [DecidableEq R]

/-- An access of the control loop. -/
private theorem advanceLoop (h : Watching w) (hpaced : w.paced (.advance .loop))
    (hstep : w.step (.advance .loop) = some w') : Watching w' := by
  obtain ⟨m', hm, rfl⟩ := Option.map_eq_some_iff.mp hstep
  have hwf := h.wf.step hm
  obtain rfl := Option.some.inj hm
  set e := w.machine.engine with he
  set l := w.machine.control .loop with hl
  have hturn := ControlPoint.turn e l
  obtain ⟨hofLoop, hclaim⟩ := ControlPoint.ofLoop_step (e := e) h.loop
  have hself : Function.update w.machine.control .loop (l.step e).2 .loop = (l.step e).2 :=
    Function.update_self ..
  have hother : Function.update w.machine.control .loop (l.step e).2 .handoff =
      w.machine.control .handoff := Function.update_of_ne (by decide) ..
  constructor
  case wf => exact hwf
  case loop => dsimp only; rw [hself]; exact hofLoop
  case handoff => dsimp only; rw [hother]; exact h.handoff
  case active =>
    dsimp only
    rw [hother, hclaim]
    exact h.active
  case apart =>
    dsimp only
    rw [hself, hother]
    intro hswitch
    -- while a commit is switching, the loop finds a mode that starts no transition
    obtain ⟨mode, hmode⟩ := Option.ne_none_iff_exists'.mp hswitch
    obtain ⟨hcommitting, hkind⟩ := ControlPoint.switching_ofHandoff h.handoff hmode
    refine ControlPoint.outside_step h.loop (h.apart hswitch) ?_ (h.active hcommitting)
    rw [h.ranked.turning mode (.inr hmode)]
    rcases hkind with rfl | rfl <;> simp
  case ranked =>
    dsimp only
    rw [hself, hother]
    refine h.ranked.turn hturn ?_
    rintro (hin | ⟨total, strictOwner, hcommit⟩)
    · refine ⟨?_, ControlPoint.fromStrict_ofHandoff h.handoff⟩
      by_contra hswitch
      exact Bool.false_ne_true ((h.apart hswitch).symm.trans hin)
    · have hloop := h.loop
      rw [hcommit] at hloop
      exact absurd hloop Bool.false_ne_true
  case sampled =>
    dsimp only
    rw [hself]
    intro mode hs hne
    have hnone : l.starts = none := by
      by_contra hstarts
      cases hs.symm.trans (hturn.sampled_of_starts hstarts)
    rw [hturn.epoch_eq hnone]
    refine CounterEngine.mem_enroll ?_
    -- an old sample, or the mode that the loop has just read with no commit in between
    rcases ControlPoint.sampled_step hs with hold | ⟨hread, rfl⟩
    · exact h.sampled mode hold hne
    · have hloop : l.switching = none := by rw [hread]; rfl
      refine h.ranked.settled hloop ?_
      by_contra hswitch
      obtain ⟨mode, hmode⟩ := Option.ne_none_iff_exists'.mp hswitch
      have hserving := h.ranked.turning mode (.inr hmode)
      rcases (ControlPoint.switching_ofHandoff h.handoff hmode).2 with rfl | rfl
      · exact hpaced hread hmode
      · exact hne hserving
  case reads =>
    dsimp only
    rw [hself]
    exact h.reads.step h.wf.sound
  case recorded =>
    have hmap : ∀ updates : List ReplicationUpdate,
        (updates.map (·, w.read)).map Prod.fst = updates :=
      fun updates => List.map_map.trans (List.map_id updates)
    exact (List.map_append.trans (congrArg₂ _ (hmap _) h.recorded)).trans
      (ControlPoint.snapshots_step e l).symm
  case sources =>
    rintro entry hmem
    rcases List.mem_append.mp hmem with hnew | hold
    · -- what is published now has the value of the reading in the record
      obtain ⟨update, hupdate, rfl⟩ := List.mem_map.mp hnew
      obtain ⟨hepoch, mode, hsampled, hreads⟩ :=
        ControlPoint.sampled_of_publishing (Option.mem_toList.mp hupdate)
      obtain ⟨hne, r, hread, hsource, hgives, hcurrent⟩ := hreads w.read h.reads
      refine ⟨mode, r, CounterEngine.mem_enroll ?_, hne, hread, hgives, hsource,
        (hcurrent rfl).trans hepoch.symm⟩
      rw [hepoch]
      exact h.sampled mode hsampled hne
    · obtain ⟨mode, r, hserves, hrest⟩ := h.sources entry hold
      exact ⟨mode, r, CounterEngine.mem_enroll hserves, hrest⟩

/-- An access of the handoff thread. -/
private theorem advanceHandoff (h : Watching w) (hpaced : w.paced (.advance .handoff))
    (hstep : w.step (.advance .handoff) = some w') : Watching w' := by
  obtain ⟨m', hm, rfl⟩ := Option.map_eq_some_iff.mp hstep
  have hwf := h.wf.step hm
  obtain rfl := Option.some.inj hm
  set e := w.machine.engine with he
  set p := w.machine.control .handoff with hp
  have hturn := ControlPoint.turn e p
  obtain ⟨hofHandoff, hclaim⟩ := ControlPoint.ofHandoff_step (e := e) h.handoff h.active
  have hself : Function.update w.machine.control .handoff (p.step e).2 .handoff = (p.step e).2 :=
    Function.update_self ..
  have hother : Function.update w.machine.control .handoff (p.step e).2 .loop =
      w.machine.control .loop := Function.update_of_ne (by decide) ..
  obtain ⟨hpublish, hstart⟩ := hpaced
  have hcommit : ∀ {total strictOwner}, p = .commitPublish total strictOwner →
      (w.machine.control .loop).inTransition = false := by
    intro total strictOwner hpoint
    refine hpublish ?_
    rw [← hp, hpoint]
    rfl
  have houtside : p.inTransition = false := ControlPoint.inTransition_ofHandoff h.handoff
  -- a commit starts its epoch only while the loop has no sample that it may publish
  have hepoch : ∀ mode, (w.machine.control .loop).sampled = some mode → mode ≠ .remoteStrict →
      (p.step e).1.replicationEpoch = e.replicationEpoch := by
    intro mode hs hne
    refine hturn.epoch_eq ?_
    by_contra hstarts
    exact hne (hstart hstarts mode hs)
  constructor
  case wf => exact hwf
  case loop => dsimp only; rw [hother]; exact h.loop
  case handoff => dsimp only; rw [hself]; exact hofHandoff
  case active => dsimp only; rw [hself]; exact hclaim
  case apart =>
    dsimp only
    rw [hself, hother]
    intro hswitch
    cases hturn with
    | still _ _ hsame => exact h.apart (hsame ▸ hswitch)
    | publishes hplace =>
      rcases hplace with hin | ⟨total, strictOwner, hpoint⟩
      · exact absurd (houtside.symm.trans hin) Bool.false_ne_true
      · exact hcommit hpoint
    | starts _ _ hnone => exact absurd hnone hswitch
  case ranked =>
    dsimp only
    rw [hself, hother]
    refine (h.ranked.symm.turn hturn ?_).symm
    rintro (hin | ⟨total, strictOwner, hpoint⟩)
    · exact absurd (houtside.symm.trans hin) Bool.false_ne_true
    · exact ControlPoint.outside_quiet h.loop (hcommit hpoint)
  case sampled =>
    dsimp only
    rw [hother]
    intro mode hs hne
    rw [hepoch mode hs hne]
    exact CounterEngine.mem_enroll (h.sampled mode hs hne)
  case reads =>
    dsimp only
    rw [hother]
    exact h.reads.congr (.of_eq (ControlPoint.reserved_ofHandoff h.handoff)) hepoch
  case recorded =>
    have hnone : p.publishing e = none := ControlPoint.publishing_ofHandoff h.handoff
    have hsnapshots := ControlPoint.snapshots_step e p
    rw [hnone] at hsnapshots
    exact h.recorded.trans hsnapshots.symm
  case sources =>
    intro entry hmem
    obtain ⟨mode, r, hserves, hrest⟩ := h.sources entry hmem
    exact ⟨mode, r, CounterEngine.mem_enroll hserves, hrest⟩

/-- A call that starts on the control loop or on the handoff thread. -/
private theorem invokes (h : Watching w) {c : ControlThread} {op : ControlCall}
    (hruntime : Machine.asRuntime (R := R) (.invoke c op) = true)
    (hstep : w.step (.invoke c op) = some w') : Watching w' := by
  obtain ⟨m', hm, rfl⟩ := Option.map_eq_some_iff.mp hstep
  have hwf := h.wf.step hm
  simp only [Machine.step] at hm
  split at hm
  case isFalse => cases hm
  rename_i hidle
  obtain rfl := Option.some.inj hm
  obtain ⟨hswitching, hstrict, hpeak, hcommitting, hsampled, hreads⟩ :=
    ControlPoint.entry_quiet op w.machine.engine w.read
  -- a call that starts has neither published a mode nor started an epoch
  have hturn : ControlPoint.Turn w.machine.engine w.machine.engine (w.machine.control c)
      (.entry op) := by
    rw [hidle]
    refine .still rfl rfl hswitching rfl (fun hs => ?_) fun hs => ?_
    · exact absurd (hstrict.symm.trans hs) Bool.false_ne_true
    · exact absurd (hpeak.symm.trans hs) Bool.false_ne_true
  have hplace : ¬ ((w.machine.control c).inTransition = true ∨
      ∃ total strictOwner, w.machine.control c = .commitPublish total strictOwner) := by
    rw [hidle]
    rintro (hin | ⟨_, _, hpoint⟩)
    · exact absurd hin Bool.false_ne_true
    · cases hpoint
  have henroll : w.machine.engine.enroll w.machine.engine w.serves = w.serves :=
    CounterEngine.enroll_same rfl _
  rw [henroll]
  cases c with
  | loop =>
    have hself : Function.update w.machine.control .loop (.entry op) .loop = .entry op :=
      Function.update_self ..
    have hother : Function.update w.machine.control .loop (.entry op) .handoff =
        w.machine.control .handoff := Function.update_of_ne (by decide) ..
    have hentry : (ControlPoint.entry op).ofLoop = true ∧
        (ControlPoint.entry op).inTransition = false := by
      cases op with
      | controlLoop | enterReservedMode | enterDangerMode => exact ⟨rfl, rfl⟩
      | beginHandoff | abortHandoff | commitHandoff => exact absurd hruntime Bool.false_ne_true
    constructor
    case wf => exact hwf
    case loop => dsimp only; rw [hself]; exact hentry.1
    case handoff => dsimp only; rw [hother]; exact h.handoff
    case active => dsimp only; rw [hother]; exact h.active
    case apart => dsimp only; rw [hself]; exact fun _ => hentry.2
    case ranked =>
      dsimp only
      rw [hself, hother]
      have hranked := h.ranked.turn hturn fun hin => absurd hin hplace
      rw [henroll] at hranked
      exact hranked
    case sampled =>
      dsimp only
      rw [hself, hsampled]
      exact fun mode hs => by cases hs
    case reads => dsimp only; rw [hself]; exact hreads
    case recorded => exact h.recorded
    case sources => exact h.sources
  | handoff =>
    have hself : Function.update w.machine.control .handoff (.entry op) .handoff = .entry op :=
      Function.update_self ..
    have hother : Function.update w.machine.control .handoff (.entry op) .loop =
        w.machine.control .loop := Function.update_of_ne (by decide) ..
    have hentry : (ControlPoint.entry op).ofHandoff = true := by
      cases op with
      | controlLoop | enterReservedMode | enterDangerMode =>
        exact absurd hruntime Bool.false_ne_true
      | beginHandoff | abortHandoff | commitHandoff => rfl
    constructor
    case wf => exact hwf
    case loop => dsimp only; rw [hother]; exact h.loop
    case handoff => dsimp only; rw [hself]; exact hentry
    case active =>
      dsimp only
      rw [hself, hcommitting]
      exact fun hs => absurd hs Bool.false_ne_true
    case apart =>
      dsimp only
      rw [hself, hswitching]
      exact fun hne => absurd rfl hne
    case ranked =>
      dsimp only
      rw [hself, hother]
      have hranked := h.ranked.symm.turn hturn fun hin => absurd hin hplace
      rw [henroll] at hranked
      exact hranked.symm
    case sampled => dsimp only; rw [hother]; exact h.sampled
    case reads => dsimp only; rw [hother]; exact h.reads
    case recorded => exact h.recorded
    case sources => exact h.sources

/-- **Every step that keeps commits out of the samples keeps the invariant.** -/
theorem step (h : Watching w) {a : Action R ControlThread} (hruntime : w.asRuntime a)
    (hpaced : w.paced a) (hstep : w.step a = some w') : Watching w' := by
  cases a with
  | call r request =>
    obtain ⟨m', hm, rfl⟩ := Option.map_eq_some_iff.mp hstep
    have hwf := h.wf.step hm
    simp only [Machine.step] at hm
    split at hm
    · obtain rfl := Option.some.inj hm
      exact h.other hwf rfl rfl rfl rfl (.of_eq rfl) rfl
    · cases hm
  | run r spurious =>
    obtain ⟨m', hm, rfl⟩ := Option.map_eq_some_iff.mp hstep
    have hwf := h.wf.step hm
    have he := h.wf.effect r spurious
    have hgrows := ApplyPoint.step_grows h.wf.sound (h.wf.fits r) spurious
    obtain rfl := Option.some.inj hm
    exact h.other hwf rfl he.mode he.epoch he.active hgrows (ApplyPoint.snapshots_step ..)
  | invoke c op => exact h.invokes hruntime hstep
  | advance c =>
    cases c with
    | loop => exact h.advanceLoop hpaced hstep
    | handoff => exact h.advanceHandoff hpaced hstep
  | raisePeakRequest =>
    obtain ⟨m', hm, rfl⟩ := Option.map_eq_some_iff.mp hstep
    have hwf := h.wf.step hm
    obtain rfl := Option.some.inj hm
    exact h.other hwf rfl rfl rfl rfl (.of_eq rfl) rfl

end Watching

omit [Fintype R] in
/-- Past the peak epoch only a strict owner publishes. -/
theorem Consistent.dangerStrict_of_two_le (h : Consistent w) {epoch : ℕ} (hepoch : 2 ≤ epoch)
    {update : ReplicationUpdate} (hmem : update ∈ w.machine.engine.snapshots)
    (hupdate : update.epoch = epoch) : (epoch, .dangerStrict) ∈ w.serves := by
  rw [← h.recorded] at hmem
  obtain ⟨entry, hentry, rfl⟩ := List.mem_map.mp hmem
  obtain ⟨mode, -, hserves, hne, -⟩ := h.sources entry hentry
  have hrank := h.ranks _ hserves
  rw [hupdate] at hserves hrank
  cases mode with
  | strict =>
    have hzero : epoch = 0 := hrank
    omega
  | reservedPeak =>
    have hone : epoch = 1 := hrank
    omega
  | dangerStrict => exact hserves
  | remoteStrict => exact absurd rfl hne

/-- **Published snapshots are consistent** in every process of a cluster in which no commit falls
into a sample of the control loop. Under an epoch that a strict owner serves no other process
publishes, so that what the owner took over is not counted a second time. -/
theorem snapshots_consistent {N : Type} {S : N → Type} [∀ n, Fintype (S n)]
    [∀ n, DecidableEq (S n)] (hthreads : ∀ n, Fintype.card (S n) < 2 ^ 32)
    {config : N → CounterEngineConfig} {v : ∀ n, Watched (S n)}
    (h : ∀ n, Steps Watched.step (fun w a => w.asRuntime a ∧ w.paced a)
      (Watched.init (S n) (config n)) (v n)) :
    (∀ n, Consistent (v n)) ∧
      ∀ owner epoch, (epoch, .dangerStrict) ∈ (v owner).serves →
        ∀ n, (∀ later, (later, .dangerStrict) ∉ (v n).serves) →
          ∀ update ∈ (v n).machine.engine.snapshots, update.epoch ≠ epoch := by
  have hconsistent : ∀ n, Consistent (v n) := fun n =>
    ((h n).invariant (Watching.init (config n) (hthreads n)) fun _ _ _ hw hok hs =>
      hw.step hok.1 hok.2 hs).consistent
  refine ⟨hconsistent, fun owner epoch howner n hother update hmem hepoch => ?_⟩
  have htwo : 2 ≤ epoch := (hconsistent owner).ranks _ howner
  exact hother epoch ((hconsistent n).dangerStrict_of_two_le htwo hmem hepoch)

/-- Five units are spent, the control loop enters peak mode, and the handoff thread begins. -/
def drainedRun : List (Action Unit ControlThread) :=
  .call () ⟨17, 5, 0⟩ :: List.replicate 11 (.run () false) ++
    .invoke .loop .enterReservedMode :: List.replicate 20 (.advance .loop) ++
    .invoke .handoff .beginHandoff :: List.replicate 8 (.advance .handoff)

/-- The control loop publishes the peak total, the handoff commits a global total of twelve, and
the loop takes another sample. -/
def pacedRun (strictOwner : Bool) : List (Action Unit ControlThread) :=
  drainedRun ++ .invoke .loop .controlLoop :: List.replicate 9 (.advance .loop) ++
    .invoke .handoff (.commitHandoff 12 strictOwner) :: List.replicate 9 (.advance .handoff) ++
    .invoke .loop .controlLoop :: List.replicate 9 (.advance .loop)

/-- The two processes of a cluster, of which one becomes the strict owner. -/
theorem snapshots_consistent_pacedRun :
    ∃ v : Bool → Watched Unit,
      (v true).machine.engine.snapshots = [⟨17, 2, 0, 12⟩, ⟨17, 1, 0, 5⟩] ∧
        (v false).machine.engine.snapshots = [⟨17, 1, 0, 5⟩] ∧
        (∀ strictOwner, Consistent (v strictOwner)) ∧
        ∀ update ∈ (v false).machine.engine.snapshots, update.epoch ≠ 2 := by
  have hrun : ∀ strictOwner, (exec Watched.step (fun w a => w.asRuntime a ∧ w.paced a)
      (Watched.init Unit CounterEngine.testConfig) (pacedRun strictOwner)).map
        (fun w => decide (w.serves = [(2, CounterEngine.handoffMode strictOwner),
            (1, .reservedPeak), (0, .strict)] ∧
          w.machine.engine.snapshots =
            if strictOwner then [⟨17, 2, 0, 12⟩, ⟨17, 1, 0, 5⟩] else [⟨17, 1, 0, 5⟩])) =
      some true := by decide +kernel
  choose v hsteps hserves hsnapshots using fun strictOwner =>
    Steps.exists_of_exec (hrun strictOwner)
  obtain ⟨hconsistent, hexclusive⟩ := snapshots_consistent (fun _ => by decide) hsteps
  refine ⟨v, hsnapshots true, hsnapshots false, hconsistent, hexclusive true 2 ?_ false ?_⟩
  · rw [hserves]
    decide
  · intro later
    rw [hserves]
    simp [CounterEngine.handoffMode]

/-- The control loop samples the peak total, the handoff commits, and the loop publishes. -/
def staleRun : List (Action Unit ControlThread) :=
  drainedRun ++ .invoke .loop .controlLoop :: List.replicate 6 (.advance .loop) ++
    .invoke .handoff (.commitHandoff 12 false) :: List.replicate 9 (.advance .handoff) ++
    List.replicate 2 (.advance .loop)

/-- The old peak total appears under the epoch of the handoff, which another process serves. -/
theorem staleRun_inconsistent :
    ∃ w : Watched Unit,
      Steps Watched.step Watched.asRuntime (Watched.init Unit CounterEngine.testConfig) w ∧
        w.serves = [(2, .remoteStrict), (1, .reservedPeak), (0, .strict)] ∧
        w.published = [(⟨17, 2, 0, 5⟩, some ⟨.reserved, [5], 5, 5, 1⟩)] ∧ ¬ Consistent w := by
  have hrun : (exec Watched.step Watched.asRuntime
      (Watched.init Unit CounterEngine.testConfig) staleRun).map (fun w => decide
        (w.serves = [(2, .remoteStrict), (1, .reservedPeak), (0, .strict)] ∧
          w.published = [(⟨17, 2, 0, 5⟩, some ⟨.reserved, [5], 5, 5, 1⟩)])) = some true := by
    decide +kernel
  obtain ⟨w, hsteps, hserves, hpublished⟩ := Steps.exists_of_exec hrun
  refine ⟨w, hsteps, hserves, hpublished, fun h => ?_⟩
  obtain ⟨mode, -, hmem, hne, -⟩ :=
    h.sources (⟨17, 2, 0, 5⟩, some ⟨.reserved, [5], 5, 5, 1⟩) (by simp [hpublished])
  rw [hserves] at hmem
  simp at hmem
  exact hne hmem

end Watched

end HotCounter
