import HotCounter.Engine.Gate
import HotCounter.Engine.Recovery

/-!
# Conservation in one engine

One control thread drives an engine through its local transitions while any number of request
threads spend. The invariant `Conserved` ties the counter that the published mode selects to
the sum of everything accepted so far, whatever program points the threads stand at. A
transition copies that sum into the other counter while nobody is inside, and publishes the
other mode only when the copy is complete.
-/

namespace HotCounter

open Foundation

/-- The counter that the published mode selects. -/
def CounterEngine.balance (e : CounterEngine) : ℕ :=
  if e.mode = .reservedPeak then e.reserved.used else e.strict.value

theorem CounterEngine.Sound.currentValue_eq {e : CounterEngine} (hs : e.Sound) :
    e.currentValue = e.balance := by
  rw [CounterEngine.currentValue, CounterEngine.balance, hs.total_eq]

theorem CounterEngine.Sound.balance_le {e : CounterEngine} (hs : e.Sound)
    (hpeak : e.config.localPeak ≤ e.config.limit) : e.balance ≤ e.config.limit := by
  unfold CounterEngine.balance
  split
  · exact hs.used_le.trans hpeak
  · exact hs.value_le

/-- An access of a thread that decides under the published mode adds what it spends to the counter
that this mode selects. -/
theorem ApplyPoint.Effect.balance {e e' : CounterEngine} {p p' : ApplyPoint}
    {log : List (Request × Result)} (he : Effect e p e' p' log)
    (hserving : ∀ mode, p.serving = some mode → mode = e.mode) :
    ∃ d, p'.pending + acceptedSum log = p.pending + d ∧ e'.balance = e.balance + d := by
  obtain ⟨d, hd, hmove⟩ := he.spent
  refine ⟨d, hd, ?_⟩
  unfold CounterEngine.balance
  rw [he.mode]
  rcases hmove with ⟨rfl, hstrict, hused⟩ | ⟨hmode, hvalue, hused⟩ | ⟨hmode, hstrict, hused⟩
  · rw [hstrict, hused, Nat.add_zero]
  · have hne : e.mode ≠ .reservedPeak := by
      rcases hmode with hm | hm <;> rw [← hserving _ hm] <;> nofun
    rw [if_neg hne, if_neg hne, hvalue]
  · have heq : e.mode = .reservedPeak := (hserving _ hmode).symm
    rw [if_pos heq, if_pos heq, hused]

namespace ControlPoint

/-- The control thread has closed the gate and not reopened it. -/
def closed : ControlPoint → Bool
  | .reservedDrain | .reservedCheck | .reservedLoad | .reservedSeed _ _ | .reservedAnnounce _ _ _
  | .reservedReopen | .reservedPublish | .dangerDrain | .dangerTotal _ _ | .dangerSeed _
  | .dangerReopen | .dangerPublish => true
  | _ => false

/-- The control thread has also seen nobody inside. -/
def exclusive : ControlPoint → Bool
  | .reservedDrain | .dangerDrain => false
  | p => p.closed

/-- What a control thread that never commits a handoff knows of the two counters. -/
def Knows (e : CounterEngine) : ControlPoint → Prop
  | .reservedClose | .reservedDrain | .reservedCheck | .reservedLoad | .reservedReopen =>
    e.mode = .strict
  | .reservedSeed index remaining =>
    e.mode = .strict ∧ index < e.reserved.shards.length ∧
      e.usedBefore index + remaining = e.strict.value
  | .reservedAnnounce index assigned remaining =>
    e.mode = .strict ∧ index < e.reserved.shards.length ∧ assigned ≤ remaining ∧
      e.usedBefore (index + 1) + (remaining - assigned) = e.strict.value
  | .reservedPublish => e.mode = .strict ∧ e.reserved.used = e.strict.value
  | .dangerActive | .dangerClose | .dangerDrain | .dangerReopen => e.mode = .reservedPeak
  | .dangerTotal index total => e.mode = .reservedPeak ∧ total = e.usedBefore index
  | .dangerSeed total => e.mode = .reservedPeak ∧ total = e.reserved.used
  | .dangerPublish => e.mode = .reservedPeak ∧ e.strict.value = e.reserved.used
  | .commitActive _ _ | .commitMode _ _ | .commitSeed _ _ | .commitPublish _ _ => False
  | _ => True

variable {e : CounterEngine}

theorem Knows.congr {e' : CounterEngine} {p : ControlPoint} (h : p.Knows e)
    (hmode : e'.mode = e.mode)
    (hcounters : p.exclusive = true → e'.strict = e.strict ∧ e'.reserved = e.reserved) :
    p.Knows e' := by
  by_cases hx : p.exclusive = true
  · obtain ⟨hstrict, hreserved⟩ := hcounters hx
    have hused : ∀ index, e'.usedBefore index = e.usedBefore index := by
      simp [CounterEngine.usedBefore, hreserved]
    cases p <;> simp_all [Knows]
  · cases p <;> simp_all [Knows, exclusive, closed]

/-- The seeding loop starts its next shard, gives up or is done. -/
private theorem knows_seedNext {index remaining : ℕ} (hmode : e.mode = .strict)
    (h : e.usedBefore index + remaining = e.strict.value) :
    (seedNext e index remaining).Knows e := by
  unfold seedNext
  split
  · rename_i hlen
    exact ⟨hmode, hlen, h⟩
  · rename_i hlen
    split
    · exact hmode
    · rename_i hzero
      refine ⟨hmode, ?_⟩
      rw [← e.usedBefore_of_le (Nat.not_lt.mp hlen)]
      omega

/-- Writing a shard's share into it moves the share from what remains to what is placed. -/
private theorem usedBefore_setShard (e : CounterEngine) (index : ℕ) (s : Shard)
    (h : index < e.reserved.shards.length) :
    (setShard e index s).usedBefore (index + 1) = e.usedBefore index + s.used := by
  have hlen : index < (setShard e index s).reserved.shards.length := by simpa [setShard] using h
  rw [CounterEngine.usedBefore_succ _ hlen]
  congr 1
  · simp [CounterEngine.usedBefore, setShard, List.take_set_of_le]
  · simp [shard, setShard, h, List.getD_eq_getElem?_getD]

/-- A seeding loop that announces a shard keeps what it placed. -/
private theorem usedBefore_announce (e : CounterEngine) (index : ℕ) (announced : Bool) (i : ℕ) :
    (setShard e index { shard e index with exhaustionAnnounced := announced }).usedBefore i =
      e.usedBefore i := by
  have hmap := map_set_of_eq Shard.used { shard e index with exhaustionAnnounced := announced }
    default e.reserved.shards index rfl
  unfold CounterEngine.usedBefore
  rw [List.map_take, List.map_take]
  exact congrArg (fun l => (l.take i).sum) hmap

/-- **One access of the control thread** keeps what it knows and moves no balance. -/
theorem Knows.step (hs : e.Sound) {p : ControlPoint} (h : p.Knows e) :
    (p.step e).2.Knows (p.step e).1 ∧ (p.step e).1.balance = e.balance := by
  cases p with
  | reservedMode =>
    simp only [ControlPoint.step]
    split
    · exact ⟨trivial, rfl⟩
    · rename_i hmode
      exact ⟨not_not.mp hmode, rfl⟩
  | reservedDrain | reservedCheck =>
    simp only [ControlPoint.step]
    split <;> exact ⟨h, rfl⟩
  | reservedLoad =>
    simp only [ControlPoint.step]
    split
    · exact ⟨h, rfl⟩
    · exact ⟨knows_seedNext h (by simp), rfl⟩
  | reservedSeed index remaining =>
    obtain ⟨hmode, hlen, hsum⟩ := h
    simp only [ControlPoint.step]
    set assigned :=
      if remaining < (shard e index).reserve then remaining else (shard e index).reserve
      with hassigned
    have hle : assigned ≤ remaining := by rw [hassigned]; split <;> omega
    refine ⟨⟨hmode, by simpa [setShard] using hlen, hle, ?_⟩, ?_⟩
    · rw [usedBefore_setShard e index _ hlen]
      simp only [setShard]
      omega
    · simp [CounterEngine.balance, setShard, hmode]
  | reservedAnnounce index assigned remaining =>
    obtain ⟨hmode, hlen, hle, hsum⟩ := h
    refine ⟨knows_seedNext hmode ?_,
      by simp [ControlPoint.step, CounterEngine.balance, setShard, hmode]⟩
    exact (congrArg (· + (remaining - assigned)) (usedBefore_announce e index _ _)).trans hsum
  | reservedPublish =>
    obtain ⟨hmode, hused⟩ := h
    exact ⟨trivial, by simp [ControlPoint.step, CounterEngine.balance, hmode, hused]⟩
  | dangerMode =>
    simp only [ControlPoint.step]
    split
    · exact ⟨trivial, rfl⟩
    · rename_i hmode
      exact ⟨not_not.mp hmode, rfl⟩
  | dangerActive =>
    simp only [ControlPoint.step]
    split
    · exact ⟨trivial, rfl⟩
    · exact ⟨h, rfl⟩
  | dangerDrain =>
    simp only [ControlPoint.step]
    split
    · exact ⟨⟨h, by simp⟩, rfl⟩
    · exact ⟨h, rfl⟩
  | dangerTotal index total =>
    obtain ⟨hmode, htotal⟩ := h
    simp only [ControlPoint.step]
    split
    · rename_i hlen
      exact ⟨⟨hmode, hs.add_shard hlen htotal⟩, rfl⟩
    · rename_i hlen
      exact ⟨⟨hmode, htotal.trans (e.usedBefore_of_le (Nat.not_lt.mp hlen))⟩, rfl⟩
  | dangerSeed total =>
    obtain ⟨hmode, htotal⟩ := h
    simp only [ControlPoint.step]
    split
    · exact ⟨hmode, rfl⟩
    · exact ⟨⟨hmode, htotal⟩, by simp [CounterEngine.balance, hmode]⟩
  | dangerPublish =>
    obtain ⟨hmode, hvalue⟩ := h
    exact ⟨trivial, by simp [ControlPoint.step, CounterEngine.balance, hmode, hvalue]⟩
  | commitActive | commitMode | commitSeed | commitPublish => exact h.elim
  | reservedClose | dangerClose => exact ⟨h, rfl⟩
  | loopEpoch mode | snapshotPublisher mode | snapshotPublish mode =>
    simp only [ControlPoint.step]
    repeat' split
    all_goals cases mode <;> exact ⟨trivial, by trivial⟩
  | commitRelease total strictOwner =>
    refine ⟨?_, rfl⟩
    simp only [ControlPoint.step, commitExhaustion]
    repeat' split
    all_goals exact trivial
  -- no other point touches a counter or the mode
  | _ =>
    simp only [ControlPoint.step]
    repeat' split
    all_goals exact ⟨trivial, by trivial⟩

private theorem closed_loopNext (mode : RoutingMode) : (loopNext mode).closed = false := by
  cases mode <;> rfl

private theorem closed_commitExhaustion (e : CounterEngine) (total : ℕ) (strictOwner : Bool) :
    (commitExhaustion e total strictOwner).closed = false := by
  unfold commitExhaustion
  repeat' split
  all_goals rfl

private theorem closed_of_exclusive {p : ControlPoint} (h : p.exclusive = true) :
    p.closed = true := by
  cases p <;> simp_all [exclusive, closed]

/-- Only the two closing accesses lead from outside into the closed part. -/
private theorem closed_of_step {p : ControlPoint} (hclosed : (p.step e).2.closed = true) :
    p.closed = true ∨ p = .reservedClose ∨ p = .dangerClose := by
  cases p with
  | reservedClose => exact .inr (.inl rfl)
  | dangerClose => exact .inr (.inr rfl)
  | reservedDrain | reservedCheck | reservedLoad | reservedSeed | reservedAnnounce | reservedReopen
  | reservedPublish | dangerDrain | dangerTotal | dangerSeed | dangerReopen | dangerPublish =>
    exact .inl rfl
  | loopEpoch | snapshotPublisher =>
    simp only [ControlPoint.step] at hclosed
    split at hclosed
    · exact absurd hclosed Bool.false_ne_true
    · exact absurd ((closed_loopNext _).symm.trans hclosed) Bool.false_ne_true
  | snapshotPublish => exact absurd ((closed_loopNext _).symm.trans hclosed) Bool.false_ne_true
  | commitRelease =>
    exact absurd ((closed_commitExhaustion _ _ _).symm.trans hclosed) Bool.false_ne_true
  | _ =>
    simp only [ControlPoint.step] at hclosed
    repeat' split at hclosed
    all_goals exact absurd hclosed Bool.false_ne_true

/-- The control thread keeps the gate closed while it relies on it. -/
theorem closed_step {p : ControlPoint} (h : p.closed = true → e.gateOpen = false)
    (hclosed : (p.step e).2.closed = true) : (p.step e).1.gateOpen = false := by
  rcases closed_of_step hclosed with hp | rfl | rfl
  · have hgate := h hp
    cases p with
    | reservedDrain | reservedCheck | reservedLoad | reservedSeed | reservedAnnounce | dangerDrain
    | dangerTotal | dangerSeed =>
      simp only [ControlPoint.step]
      repeat' split
      all_goals exact hgate
    | reservedReopen | dangerReopen | reservedPublish | dangerPublish =>
      exact absurd hclosed Bool.false_ne_true
    | _ => exact absurd hp Bool.false_ne_true
  · rfl
  · rfl

/-- The control thread is alone from the moment it has seen an empty gate. -/
theorem exclusive_step {p : ControlPoint} (h : (p.step e).2.exclusive = true) :
    p.exclusive = true ∨ e.inFlight = 0 := by
  rcases closed_of_step (closed_of_exclusive h) with hp | rfl | rfl
  · cases p with
    | reservedDrain | dangerDrain =>
      simp only [ControlPoint.step] at h
      split at h
      · exact .inr ‹_›
      · exact absurd h Bool.false_ne_true
    | _ => exact .inl hp
  · exact absurd h Bool.false_ne_true
  · exact absurd h Bool.false_ne_true

/-- A control thread that never commits a handoff publishes a mode only when it is alone. -/
theorem mode_step {p : ControlPoint} (h : p.Knows e) :
    (p.step e).1.mode = e.mode ∨ p.exclusive = true := by
  cases p with
  | reservedPublish | dangerPublish => exact .inr rfl
  | commitPublish => exact h.elim
  | _ =>
    refine .inl ?_
    simp only [ControlPoint.step]
    repeat' split
    all_goals trivial

end ControlPoint

/-! ### The machine with one control thread -/

namespace Machine

variable {R : Type} [Fintype R]

/-- Everything accepted so far: what was answered and what is still to be answered. -/
def accepted {C : Type} (m : Machine R C) : ℕ :=
  acceptedSum m.returned + ∑ r, (m.request r).pending

/-- The calls of the local control plane. -/
def localOnly {C : Type} : Machine R C → Action R C → Prop
  | _, .invoke _ (.commitHandoff _ _) => False
  | _, _ => True

instance {C : Type} (m : Machine R C) (a : Action R C) : Decidable (localOnly m a) :=
  match a with
  | .invoke _ (.commitHandoff _ _) => .isFalse id
  | .invoke _ .enterReservedMode | .invoke _ .enterDangerMode | .invoke _ .controlLoop
  | .invoke _ .beginHandoff | .invoke _ .abortHandoff => .isTrue trivial
  | .call _ _ | .run _ _ | .advance _ | .raisePeakRequest => .isTrue trivial

/-- The invariant of an engine with one control thread. -/
structure Conserved (config : CounterEngineConfig) (m : Machine R Unit) : Prop where
  wf : m.Wf
  config_eq : m.engine.config = config
  knows : (m.control ()).Knows m.engine
  closed : (m.control ()).closed = true → m.engine.gateOpen = false
  alone : (m.control ()).exclusive = true → ∀ r, (m.request r).inside = false
  /-- a thread decides under the mode that is still published -/
  serving : ∀ r mode, (m.request r).serving = some mode → mode = m.engine.mode
  balance : m.engine.balance = m.accepted

theorem conserved_init (config : CounterEngineConfig) (hthreads : Fintype.card R < 2 ^ 32) :
    Conserved config (init R Unit config) where
  wf := wf_init config hthreads
  config_eq := rfl
  knows := trivial
  closed := nofun
  alone := fun _ _ => rfl
  serving := nofun
  balance := by simp [accepted, init, ApplyPoint.pending, CounterEngine.balance, CounterEngine.new]

variable [DecidableEq R] {config : CounterEngineConfig} {m : Machine R Unit}

/-- A request thread moves the selected counter by what it accepts. -/
private theorem Conserved.run (h : Conserved config m) (r : R) (spurious : Bool)
    {m' : Machine R Unit}
    (hstep : m.step (.run r spurious) = some m') : Conserved config m' := by
  have he := h.wf.effect r spurious
  have hwf := h.wf.step hstep
  obtain rfl := Option.some.inj hstep
  set next := (m.request r).step m.engine spurious with hnext
  -- a thread that was inside stays subject to what the control thread has excluded
  have hinside : m.engine.gateOpen = false → (∀ r, (m.request r).inside = false) →
      next.2.1.inside = false := by
    intro hgate hall
    by_contra hin
    rcases he.enters (by simpa using hin) with hr | hopen
    · rw [hall r] at hr
      exact absurd hr nofun
    · rw [hgate] at hopen
      exact absurd hopen nofun
  refine ⟨hwf, he.config.trans h.config_eq, h.knows.congr he.mode fun hx => ?_,
    fun hc => he.gateOpen.trans (h.closed hc), fun hx r' => ?_, fun r' mode hm => ?_, ?_⟩
  · exact ApplyPoint.step_outside m.engine spurious (h.alone hx r)
  · by_cases hr : r' = r
    · subst hr
      simpa using hinside (h.closed (ControlPoint.closed_of_exclusive hx)) (h.alone hx)
    · simpa [Function.update_of_ne hr] using h.alone hx r'
  · dsimp only at hm ⊢
    rw [he.mode]
    by_cases hr : r' = r
    · subst hr
      rw [Function.update_self] at hm
      rcases he.serving mode hm with hold | hnew
      · exact h.serving _ mode hold
      · exact hnew
    · rw [Function.update_of_ne hr] at hm
      exact h.serving r' mode hm
  · obtain ⟨d, hd, hacc⟩ := he.balance (h.serving r)
    have hsum := sum_update_add ApplyPoint.pending m.request r next.2.1
    have hold := h.balance
    simp only [accepted, acceptedSum_append] at hold ⊢
    omega

/-- The control thread moves nothing and publishes a mode only when it is alone. -/
private theorem Conserved.advance (h : Conserved config m) {m' : Machine R Unit}
    (hstep : m.step (.advance ()) = some m') : Conserved config m' := by
  have hwf := h.wf.step hstep
  obtain ⟨hkeep, -⟩ := ControlPoint.step_keeps h.wf.sound (h.wf.control_fits ())
  obtain ⟨hknows, hbalance⟩ := h.knows.step h.wf.sound
  obtain rfl := Option.some.inj hstep
  refine ⟨hwf, hkeep.config.trans h.config_eq, by simpa using hknows, fun hc => ?_, fun hx => ?_,
    fun r mode hm => ?_, hbalance.trans h.balance⟩
  · exact ControlPoint.closed_step h.closed (by simpa using hc)
  · rcases ControlPoint.exclusive_step (by simpa using hx) with hold | hzero
    · exact h.alone hold
    · exact h.wf.drained hzero
  · rcases ControlPoint.mode_step h.knows with hsame | hx
    · exact (h.serving r mode hm).trans hsame.symm
    · have hin := ApplyPoint.inside_of_serving hm
      exact absurd ((h.alone hx r).symm.trans hin) nofun

/-- **Every step conserves.** -/
theorem Conserved.step (h : Conserved config m) {a : Action R Unit} (hlocal : localOnly m a)
    {m' : Machine R Unit} (hstep : m.step a = some m') : Conserved config m' := by
  cases a with
  | call r request =>
    have hwf := h.wf.step hstep
    simp only [Machine.step] at hstep
    split at hstep
    · rename_i hidle
      obtain rfl := Option.some.inj hstep
      refine ⟨hwf, h.config_eq, h.knows, h.closed, fun hx r' => ?_, fun r' mode hm => ?_, ?_⟩
      · by_cases hr : r' = r
        · subst hr
          simp [ApplyPoint.inside]
        · simpa [Function.update_of_ne hr] using h.alone hx r'
      · by_cases hr : r' = r
        · subst hr
          simp [ApplyPoint.serving] at hm
        · exact h.serving r' mode (by simpa [Function.update_of_ne hr] using hm)
      · have hsum := sum_update_add ApplyPoint.pending m.request r (.checkExhausted request)
        have hold := h.balance
        rw [hidle, show ApplyPoint.idle.pending = 0 from rfl,
          show (ApplyPoint.checkExhausted request).pending = 0 from rfl] at hsum
        simp only [accepted] at hold ⊢
        omega
    · cases hstep
  | run r spurious => exact h.run r spurious hstep
  | invoke c op =>
    have hwf := h.wf.step hstep
    simp only [Machine.step] at hstep
    split at hstep
    · obtain rfl := Option.some.inj hstep
      refine ⟨hwf, h.config_eq, ?_, ?_, ?_, h.serving, h.balance⟩
      · cases op <;> simp_all [localOnly, ControlPoint.entry, ControlPoint.Knows]
      · cases op <;> simp [ControlPoint.entry, ControlPoint.closed]
      · cases op <;> simp [ControlPoint.entry, ControlPoint.exclusive, ControlPoint.closed]
    · cases hstep
  | advance c => exact h.advance hstep
  | raisePeakRequest =>
    have hwf := h.wf.step hstep
    obtain rfl := Option.some.inj hstep
    exact ⟨hwf, h.config_eq, h.knows.congr rfl fun _ => ⟨rfl, rfl⟩, h.closed, h.alone, h.serving,
      h.balance⟩

/-- **Conservation and the hard limit.** Whatever the threads do and however their accesses
interleave, everything accepted so far is within the limit, and it is exactly the current value
whenever no request is in flight. The 32-bit in-flight count holds every request thread. -/
theorem accepted_le_limit (hthreads : Fintype.card R < 2 ^ 32)
    (hpeak : config.localPeak ≤ config.limit)
    (h : Steps Machine.step localOnly (init R Unit config) m) :
    m.accepted ≤ config.limit ∧
      (m.engine.inFlight = 0 → m.engine.currentValue = acceptedSum m.returned) := by
  have hinv : Conserved config m :=
    h.invariant (conserved_init config hthreads) fun t u a ht hok hs => ht.step hok hs
  have hle := hinv.wf.sound.balance_le (hinv.config_eq ▸ hpeak)
  have hbalance := hinv.balance
  refine ⟨by rw [hinv.config_eq] at hle; omega, fun hzero => ?_⟩
  have hpending : ∑ r, (m.request r).pending = 0 :=
    Finset.sum_eq_zero fun r _ => ApplyPoint.pending_of_not_inside (hinv.wf.drained hzero r)
  rw [hinv.wf.sound.currentValue_eq, hbalance, accepted, hpending, Nat.add_zero]

/-- Two request threads of the test's component: one spends in strict mode, the control thread
moves to peak mode, and the other spends there. -/
def transitionRun : List (Action (Fin 2) Unit) :=
  .call 0 ⟨17, 30, 5⟩ :: List.replicate 11 (.run 0 false) ++
    .invoke () .enterReservedMode :: List.replicate 20 (.advance ()) ++
    .call 1 ⟨17, 15, 9⟩ :: List.replicate 14 (.run 1 false)

theorem accepted_le_limit_transitionRun :
    ∃ m : Machine (Fin 2) Unit,
      Steps Machine.step localOnly (init (Fin 2) Unit CounterEngine.testConfig) m ∧
        m.engine.mode = .reservedPeak ∧ acceptedSum m.returned = 45 ∧ m.accepted ≤ 100 ∧
        m.engine.currentValue = acceptedSum m.returned := by
  have hrun : (exec Machine.step localOnly (init (Fin 2) Unit CounterEngine.testConfig)
      transitionRun).map (fun m => decide (m.engine.mode = .reservedPeak ∧
        m.engine.inFlight = 0 ∧ acceptedSum m.returned = 45)) = some true := by decide +kernel
  obtain ⟨m, hsteps, hmode, hzero, hsum⟩ := Steps.exists_of_exec hrun
  have hlimit := accepted_le_limit (by decide) (by decide) hsteps
  exact ⟨m, hsteps, hmode, hsum, hlimit.1, hlimit.2 hzero⟩

end Machine

end HotCounter
