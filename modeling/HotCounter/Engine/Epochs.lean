import HotCounter.Engine.Frozen

/-!
# Modes and epochs

Two threads switch the mode of an engine: the control loop in its transitions and the handoff
thread in a commit. Each publishes a mode and starts the mode's epoch in separate accesses.
`ControlPoint.Turn` says once what one access of a control thread does to the two, and `Ranked`
ties the epochs that have started to the modes that serve them: strict mode serves epoch 0, peak
mode epoch 1, and every later epoch belongs to a handoff or a collapse.
-/

namespace HotCounter

open Foundation

namespace ControlPoint

/-- The mode that the thread has published and whose epoch it has not started. -/
def switching : ControlPoint → Option RoutingMode
  | .reservedCount _ _ | .reservedStoreCount _ | .reservedEpoch => some .reservedPeak
  | .dangerClearCount | .dangerEpoch => some .dangerStrict
  | .commitClearCount _ strictOwner | .commitEpoch _ strictOwner =>
    some (CounterEngine.handoffMode strictOwner)
  | _ => none

/-- The mode whose epoch the next access starts. -/
def starts : ControlPoint → Option RoutingMode
  | .reservedEpoch => some .reservedPeak
  | .dangerEpoch => some .dangerStrict
  | .commitEpoch _ strictOwner => some (CounterEngine.handoffMode strictOwner)
  | _ => none

/-- The mode under which the control loop takes a sample that it may still publish. -/
def sampled : ControlPoint → Option RoutingMode
  | .loopHas mode | .snapshotPublisher mode _ _ _ | .snapshotPublish mode _ _ _ => some mode
  | .loopCounter mode has | .loopValue mode has _ | .loopEpoch mode has _ _ =>
    if has then some mode else none
  | .loopTotal has _ _ _ | .loopRequest has _ _ => if has then some .reservedPeak else none
  | _ => none

/-- Past the test of strict mode, before peak mode is published. -/
def fromStrict : ControlPoint → Bool
  | .reservedClose | .reservedDrain | .reservedCheck | .reservedLoad | .reservedSeed _ _
  | .reservedAnnounce _ _ _ | .reservedReopen | .reservedPublish => true
  | _ => false

/-- Past a test of peak mode, before another mode is published. -/
def fromPeak : ControlPoint → Bool
  | .dangerActive | .dangerClose | .dangerDrain | .dangerTotal _ _ | .dangerSeed _ | .dangerReopen
  | .dangerPublish | .commitSeed _ _ | .commitPublish _ _ => true
  | _ => false

/-- Past the test of an active handoff, before the commit releases it. -/
def committing : ControlPoint → Bool
  | .commitMode _ _ | .commitSeed _ _ | .commitPublish _ _ | .commitClearCount _ _
  | .commitEpoch _ _ | .commitClear _ _ | .commitRelease _ _ => true
  | _ => false

/-- The next access publishes the mode that a commit switches to. -/
def publishesCommit : ControlPoint → Bool
  | .commitPublish _ _ => true
  | _ => false

/-- Inside a transition of the control loop. -/
def inTransition (p : ControlPoint) : Bool := p.inReserved || p.inDanger

/-! ### Modes and epochs -/

/-- What one access of a control thread does to the mode and the epoch. -/
inductive Turn (e e' : CounterEngine) (p p' : ControlPoint) : Prop
  | still : e'.mode = e.mode → e'.replicationEpoch = e.replicationEpoch →
      p'.switching = p.switching → p.starts = none →
      (p'.fromStrict = true → p.fromStrict = true ∨ e.mode = .strict) →
      (p'.fromPeak = true → p.fromPeak = true ∨ e.mode = .reservedPeak) → Turn e e' p p'
  | publishes :
      (p.inTransition = true ∨ ∃ total strictOwner, p = .commitPublish total strictOwner) →
      p.starts = none → p.switching = none → p'.switching = some e'.mode →
      (p.fromStrict = true ∧ e'.mode = .reservedPeak ∨
        p.fromPeak = true ∧ e'.mode ≠ .strict ∧ e'.mode ≠ .reservedPeak) →
      e'.replicationEpoch = e.replicationEpoch → p'.fromStrict = false → p'.fromPeak = false →
      Turn e e' p p'
  | starts {mode : RoutingMode} : p.starts = some mode → p.switching = some mode →
      p'.switching = none → e'.mode = e.mode →
      e'.replicationEpoch = (e.replicationEpoch + 1) % 2 ^ 64 → p'.fromStrict = false →
      p'.fromPeak = false → p'.sampled = none → Turn e e' p p'

variable {e : CounterEngine} {p : ControlPoint}

/-- Where the seeding loop and the two branchings lead nothing is published. -/
theorem quiet_seedNext (e : CounterEngine) (index remaining : ℕ) :
    (seedNext e index remaining).switching = none ∧
      (seedNext e index remaining).fromPeak = false ∧
      (seedNext e index remaining).sampled = none := by
  unfold seedNext
  repeat' split
  all_goals exact ⟨rfl, rfl, rfl⟩

theorem quiet_loopNext (mode : RoutingMode) :
    (loopNext mode).switching = none ∧ (loopNext mode).fromStrict = false ∧
      (loopNext mode).fromPeak = false ∧ (loopNext mode).sampled = none := by
  cases mode <;> exact ⟨rfl, rfl, rfl, rfl⟩

theorem quiet_commitExhaustion (e : CounterEngine) (total : ℕ) (strictOwner : Bool) :
    (commitExhaustion e total strictOwner).switching = none ∧
      (commitExhaustion e total strictOwner).fromStrict = false ∧
      (commitExhaustion e total strictOwner).fromPeak = false ∧
      (commitExhaustion e total strictOwner).sampled = none := by
  unfold commitExhaustion
  repeat' split
  all_goals exact ⟨rfl, rfl, rfl, rfl⟩

/-- **Every access of a control thread is a turn.** -/
theorem turn (e : CounterEngine) (p : ControlPoint) : Turn e (p.step e).1 p (p.step e).2 := by
  have hno : ∀ {P : Prop}, false = true → P := fun h => absurd h Bool.false_ne_true
  cases p with
  | reservedMode | dangerMode =>
    simp only [ControlPoint.step]
    split
    · exact .still rfl rfl rfl rfl hno hno
    · rename_i hmode
      have hmode := not_not.mp hmode
      exact .still rfl rfl rfl rfl (by simp [fromStrict, hmode]) (by simp [fromPeak, hmode])
  | commitMode total strictOwner =>
    simp only [ControlPoint.step]
    split
    · exact .still rfl rfl rfl rfl hno hno
    · rename_i hmode
      have hmode : e.mode = .reservedPeak := by
        by_contra hne
        exact hmode (by simp [hne])
      exact .still rfl rfl rfl rfl hno fun _ => .inr hmode
  -- the three accesses that publish a mode, and the three that start its epoch
  | reservedPublish => exact .publishes (.inl rfl) rfl rfl rfl (.inl ⟨rfl, rfl⟩) rfl rfl rfl
  | dangerPublish =>
    exact .publishes (.inl rfl) rfl rfl rfl (.inr ⟨rfl, by simp [ControlPoint.step]⟩) rfl rfl rfl
  | commitPublish total strictOwner =>
    exact .publishes (.inr ⟨_, _, rfl⟩) rfl rfl rfl (.inr ⟨rfl,
      CounterEngine.handoffMode_ne_strict strictOwner,
      CounterEngine.handoffMode_ne_reservedPeak strictOwner⟩) rfl rfl rfl
  | reservedEpoch | dangerEpoch => exact .starts rfl rfl rfl rfl rfl rfl rfl rfl
  | commitEpoch => exact .starts rfl rfl rfl rfl rfl rfl rfl rfl
  | reservedLoad =>
    simp only [ControlPoint.step]
    split
    · exact .still rfl rfl rfl rfl (fun _ => .inl rfl) hno
    · obtain ⟨hswitching, hpeak, -⟩ := quiet_seedNext e 0 e.strict.value
      exact .still rfl rfl hswitching rfl (fun _ => .inl rfl) (by simp [hpeak])
  | reservedAnnounce index assigned remaining =>
    obtain ⟨hswitching, hpeak, -⟩ := quiet_seedNext (setShard e index { shard e index with
      exhaustionAnnounced := assigned == (shard e index).reserve })
        (index + 1) (remaining - assigned)
    exact .still rfl rfl hswitching rfl (fun _ => .inl rfl) (by simp [ControlPoint.step, hpeak])
  | loopEpoch mode | snapshotPublisher mode =>
    obtain ⟨hswitching, hstrict, hpeak, -⟩ := quiet_loopNext mode
    simp only [ControlPoint.step]
    split
    · exact .still rfl rfl rfl rfl hno hno
    · exact .still rfl rfl hswitching rfl (by simp [hstrict]) (by simp [hpeak])
  | snapshotPublish mode =>
    obtain ⟨hswitching, hstrict, hpeak, -⟩ := quiet_loopNext mode
    exact .still rfl rfl hswitching rfl (by simp [ControlPoint.step, hstrict])
      (by simp [ControlPoint.step, hpeak])
  | commitRelease total strictOwner =>
    obtain ⟨hswitching, hstrict, hpeak, -⟩ := quiet_commitExhaustion e total strictOwner
    exact .still rfl rfl hswitching rfl (by simp [ControlPoint.step, hstrict])
      (by simp [ControlPoint.step, hpeak])
  | loopCounter mode has =>
    cases mode <;> exact .still rfl rfl rfl rfl hno hno
  | reservedClose | reservedDrain | reservedCheck | reservedSeed | reservedReopen =>
    simp only [ControlPoint.step]
    repeat' split
    all_goals exact .still rfl rfl rfl rfl (fun _ => .inl rfl) hno
  | dangerActive | dangerClose | dangerDrain | dangerTotal | dangerSeed | dangerReopen
  | commitSeed =>
    simp only [ControlPoint.step]
    repeat' split
    all_goals exact .still rfl rfl rfl rfl hno fun _ => .inl rfl
  | _ =>
    simp only [ControlPoint.step]
    repeat' split
    all_goals exact .still (by trivial) (by trivial) rfl rfl hno hno

/-- A control loop that starts an epoch holds no sample. -/
theorem Turn.sampled_of_starts {e' : CounterEngine} {p' : ControlPoint} (h : Turn e e' p p')
    (hstarts : p.starts ≠ none) : p'.sampled = none := by
  cases h with
  | still _ _ _ hnone => exact absurd hnone hstarts
  | publishes _ hnone => exact absurd hnone hstarts
  | starts _ _ _ _ _ _ _ hsampled => exact hsampled

/-- What starts no epoch leaves the epoch alone. -/
theorem Turn.epoch_eq {e' : CounterEngine} {p' : ControlPoint} (h : Turn e e' p p')
    (hnone : p.starts = none) : e'.replicationEpoch = e.replicationEpoch := by
  cases h with
  | still _ hepoch => exact hepoch
  | publishes _ _ _ _ _ hepoch => exact hepoch
  | starts hstarts => cases hstarts.symm.trans hnone

end ControlPoint

/-- The epochs started so far and the modes that serve them, after an access: an access that
changes the epoch starts it with the mode published at that moment. -/
def CounterEngine.enroll (e e' : CounterEngine) (serves : List (ℕ × RoutingMode)) :
    List (ℕ × RoutingMode) :=
  if e'.replicationEpoch = e.replicationEpoch then serves
  else (e'.replicationEpoch, e'.mode) :: serves

theorem CounterEngine.enroll_same {e e' : CounterEngine}
    (h : e'.replicationEpoch = e.replicationEpoch) (serves : List (ℕ × RoutingMode)) :
    e.enroll e' serves = serves := if_pos h

/-- What is recorded stays recorded. -/
theorem CounterEngine.mem_enroll {e e' : CounterEngine} {serves : List (ℕ × RoutingMode)}
    {entry : ℕ × RoutingMode} (h : entry ∈ serves) : entry ∈ e.enroll e' serves := by
  unfold enroll
  split
  · exact h
  · exact List.mem_cons_of_mem _ h

/-- How many modes have been published before and including a mode. -/
def RoutingMode.Rank : RoutingMode → ℕ → Prop
  | .strict, published => published = 0
  | .reservedPeak, published => published = 1
  | .dangerStrict, published | .remoteStrict, published => 2 ≤ published

theorem RoutingMode.Rank.two_le {mode : RoutingMode} (hstrict : mode ≠ .strict)
    (hpeak : mode ≠ .reservedPeak) {published : ℕ} (h : 2 ≤ published) : mode.Rank published := by
  cases mode with
  | strict => exact absurd rfl hstrict
  | reservedPeak => exact absurd rfl hpeak
  | dangerStrict | remoteStrict => exact h

theorem RoutingMode.Rank.pos {mode : RoutingMode} {published : ℕ} (h : mode.Rank published)
    (hstrict : mode ≠ .strict) : 0 < published := by
  cases mode with
  | strict => exact absurd rfl hstrict
  | reservedPeak => exact h.symm ▸ Nat.one_pos
  | dangerStrict | remoteStrict => exact Nat.lt_of_lt_of_le Nat.two_pos h

/-- The modes published so far, some of them before their epochs have started. -/
def CounterEngine.publishes (e : CounterEngine) (p q : ControlPoint) : ℕ :=
  e.replicationEpoch + p.switching.toList.length + q.switching.toList.length

/-- The epochs, the modes that serve them and the published mode, with two control threads at `p`
and `q`. -/
structure Ranked (e : CounterEngine) (p q : ControlPoint) (serves : List (ℕ × RoutingMode)) :
    Prop where
  strict : p.fromStrict = true ∨ q.fromStrict = true → e.mode = .strict
  fresh : e.mode = .strict → p.fromPeak = false ∧ q.fromPeak = false
  alone : p.switching = none ∨ q.switching = none
  rank : e.mode.Rank (e.publishes p q)
  bound : e.publishes p q + p.fromPeak.toNat + q.fromPeak.toNat ≤ 3
  epochs : serves.map Prod.fst = (List.range (e.replicationEpoch + 1)).reverse
  ranks : ∀ entry ∈ serves, entry.2.Rank entry.1
  settled : p.switching = none → q.switching = none → (e.replicationEpoch, e.mode) ∈ serves
  turning : ∀ mode, p.switching = some mode ∨ q.switching = some mode → e.mode = mode

namespace Ranked

variable {e e' : CounterEngine} {p p' q : ControlPoint} {serves : List (ℕ × RoutingMode)}

theorem symm (h : Ranked e p q serves) : Ranked e q p serves where
  strict := fun hs => h.strict hs.symm
  fresh := fun hs => (h.fresh hs).symm
  alone := h.alone.symm
  rank := by
    have hrank := h.rank
    rwa [CounterEngine.publishes, Nat.add_right_comm] at hrank
  bound := by
    have hbound := h.bound
    unfold CounterEngine.publishes at hbound ⊢
    omega
  epochs := h.epochs
  ranks := h.ranks
  settled := fun hq hp => h.settled hp hq
  turning := fun mode hs => h.turning mode hs.symm

/-- An access that publishes no mode and starts no epoch. -/
private theorem still (h : Ranked e p q serves) (hmode : e'.mode = e.mode)
    (hepoch : e'.replicationEpoch = e.replicationEpoch) (hswitching : p'.switching = p.switching)
    (hstrict : p'.fromStrict = true → p.fromStrict = true ∨ e.mode = .strict)
    (hpeak : p'.fromPeak = true → p.fromPeak = true ∨ e.mode = .reservedPeak) :
    Ranked e' p' q serves := by
  have hbound := h.bound
  have hrank := h.rank
  have hpublishes : e'.publishes p' q = e.publishes p q := by
    rw [CounterEngine.publishes, hepoch, hswitching, CounterEngine.publishes]
  -- a thread on its way out of peak mode is pledged to one more mode, and to no second one
  have hpledge : p'.fromPeak = true → p.fromPeak = true ∨ e.publishes p q = 1 := by
    intro hp'
    rcases hpeak hp' with hp | hm
    · exact .inl hp
    · rw [hm] at hrank
      exact .inr hrank
  constructor
  case strict =>
    rw [hmode]
    rintro (hp' | hq)
    · rcases hstrict hp' with hp | hm
      · exact h.strict (.inl hp)
      · exact hm
    · exact h.strict (.inr hq)
  case fresh =>
    rw [hmode]
    intro hs
    obtain ⟨hp, hq⟩ := h.fresh hs
    refine ⟨?_, hq⟩
    by_contra hp'
    rcases hpeak (by simpa using hp') with hold | hm
    · exact Bool.false_ne_true (hp.symm.trans hold)
    · cases hs.symm.trans hm
  case alone => rw [hswitching]; exact h.alone
  case rank => rw [hmode, hpublishes]; exact hrank
  case bound =>
    rw [hpublishes]
    have hq := Bool.toNat_le q.fromPeak
    cases hp' : p'.fromPeak with
    | false =>
      rw [Bool.toNat_false]
      omega
    | true =>
      rcases hpledge hp' with hp | hone
      · rw [hp] at hbound
        exact hbound
      · rw [Bool.toNat_true]
        omega
  case epochs => rw [hepoch]; exact h.epochs
  case ranks => exact h.ranks
  case settled => rw [hswitching, hmode, hepoch]; exact h.settled
  case turning => rw [hswitching, hmode]; exact h.turning

/-- An access that publishes a mode, while the other thread is not in the middle of a switch. -/
private theorem publishes (h : Ranked e p q serves) (hq : q.switching = none)
    (hqstrict : q.fromStrict = false) (hswitching : p.switching = none)
    (hswitching' : p'.switching = some e'.mode)
    (hfrom : p.fromStrict = true ∧ e'.mode = .reservedPeak ∨
      p.fromPeak = true ∧ e'.mode ≠ .strict ∧ e'.mode ≠ .reservedPeak)
    (hepoch : e'.replicationEpoch = e.replicationEpoch) (hstrict : p'.fromStrict = false)
    (hpeak : p'.fromPeak = false) : Ranked e' p' q serves := by
  have hbound := h.bound
  have hrank := h.rank
  have hpublishes : e'.publishes p' q = e.publishes p q + 1 := by
    simp [CounterEngine.publishes, hepoch, hswitching, hswitching', hq]
  have hnew : e'.mode ≠ .strict := by
    rcases hfrom with ⟨-, hm⟩ | ⟨-, hm, -⟩
    · simp [hm]
    · exact hm
  constructor
  case strict =>
    rintro (hp' | hq')
    · exact absurd (hstrict.symm.trans hp') Bool.false_ne_true
    · exact absurd (hqstrict.symm.trans hq') Bool.false_ne_true
  case fresh => exact fun hs => absurd hs hnew
  case alone => exact .inr hq
  case rank =>
    rw [hpublishes]
    rcases hfrom with ⟨hp, hm⟩ | ⟨hp, -, hm⟩
    · -- from strict mode to peak mode, the first of them
      rw [h.strict (.inl hp)] at hrank
      rw [hm, show e.publishes p q = 0 from hrank]
      exact rfl
    · have hold : e.mode ≠ .strict := fun hs =>
        Bool.false_ne_true ((h.fresh hs).1.symm.trans hp)
      exact .two_le hnew hm (Nat.succ_le_succ (hrank.pos hold))
  case bound =>
    rw [hpublishes, hpeak, Bool.toNat_false]
    rcases hfrom with ⟨hp, hm⟩ | ⟨hp, -, hm⟩
    · have hold := h.strict (.inl hp)
      rw [hold] at hrank
      rw [(h.fresh hold).2, show e.publishes p q = 0 from hrank]
      decide
    · rw [hp, Bool.toNat_true] at hbound
      omega
  case epochs => rw [hepoch]; exact h.epochs
  case ranks => exact h.ranks
  case settled =>
    intro hs
    cases hs.symm.trans hswitching'
  case turning =>
    rintro mode (hs | hs)
    · exact Option.some.inj (hswitching'.symm.trans hs)
    · cases hs.symm.trans hq

/-- An access that starts the epoch of the mode that its thread has published. -/
private theorem starts (h : Ranked e p q serves) {mode : RoutingMode}
    (hswitching : p.switching = some mode) (hswitching' : p'.switching = none)
    (hmode : e'.mode = e.mode) (hepoch : e'.replicationEpoch = (e.replicationEpoch + 1) % 2 ^ 64)
    (hstrict : p'.fromStrict = false) (hpeak : p'.fromPeak = false) :
    Ranked e' p' q (e.enroll e' serves) := by
  have hbound := h.bound
  have hrank := h.rank
  have hq : q.switching = none := by
    rcases h.alone with hp | hq
    · cases hp.symm.trans hswitching
    · exact hq
  have hone : e.publishes p q = e.replicationEpoch + 1 := by
    simp [CounterEngine.publishes, hswitching, hq]
  -- no more than two modes are published after the first, so the epoch does not wrap
  have hnext : e'.replicationEpoch = e.replicationEpoch + 1 := by
    rw [hepoch]
    exact Nat.mod_eq_of_lt (by omega)
  have hpublishes : e'.publishes p' q = e.publishes p q := by
    simp [CounterEngine.publishes, hnext, hswitching, hswitching', hq]
  rw [CounterEngine.enroll, if_neg (by omega)]
  constructor
  case strict =>
    rintro (hp' | hq')
    · exact absurd (hstrict.symm.trans hp') Bool.false_ne_true
    · exact hmode.trans (h.strict (.inr hq'))
  case fresh => exact fun hs => ⟨hpeak, (h.fresh (hmode.symm.trans hs)).2⟩
  case alone => exact .inr hq
  case rank => rw [hmode, hpublishes]; exact hrank
  case bound =>
    rw [hpublishes, hpeak, Bool.toNat_false]
    omega
  case epochs =>
    rw [List.map_cons, h.epochs, hnext, List.range_succ (n := e.replicationEpoch + 1),
      List.reverse_append]
    rfl
  case ranks =>
    rintro entry hmem
    rcases List.mem_cons.mp hmem with rfl | hold
    · dsimp only
      rw [hmode, hnext, ← hone]
      exact hrank
    · exact h.ranks entry hold
  case settled => exact fun _ _ => List.mem_cons_self
  case turning =>
    rintro mode (hs | hs)
    · cases hs.symm.trans hswitching'
    · cases hs.symm.trans hq

/-- **A turn of one thread keeps epochs and modes in step**, provided that the other thread is not
in the middle of one when a mode is published. -/
theorem turn (h : Ranked e p q serves) (ht : ControlPoint.Turn e e' p p')
    (hother : (p.inTransition = true ∨ ∃ total strictOwner, p = .commitPublish total strictOwner) →
      q.switching = none ∧ q.fromStrict = false) :
    Ranked e' p' q (e.enroll e' serves) := by
  cases ht with
  | still hmode hepoch hswitching hnone hstrict hpeak =>
    rw [CounterEngine.enroll_same hepoch]
    exact h.still hmode hepoch hswitching hstrict hpeak
  | publishes hplace hnone hswitching hswitching' hfrom hepoch hstrict hpeak =>
    obtain ⟨hq, hqstrict⟩ := hother hplace
    rw [CounterEngine.enroll_same hepoch]
    exact h.publishes hq hqstrict hswitching hswitching' hfrom hepoch hstrict hpeak
  | starts _ hswitching hswitching' hmode hepoch hstrict hpeak =>
    exact h.starts hswitching hswitching' hmode hepoch hstrict hpeak

end Ranked

end HotCounter
