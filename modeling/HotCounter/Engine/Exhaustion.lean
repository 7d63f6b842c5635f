import HotCounter.Engine.Announcing

/-!
# Limit detection

An engine that owns the whole limit knows that the limit is reached as soon as it is and no request
is in flight, never before, and it publishes one event (`limit_detected`). The invariant `Tally` is
kept by every access of every thread: a full shard is announced or some thread has it in hand, an
announcement is counted or some thread has it in hand, and so on to the event. A transition moves
the total to the other counter while nobody is inside, and takes stock of the shards it seeded
before it lets anyone in again.
-/

namespace HotCounter

open Foundation

namespace CounterEngine

/-- The first shards are announced exactly if they are full. -/
def SeededBelow (e : CounterEngine) (index : ℕ) : Prop :=
  ∀ i < index, (ControlPoint.shard e i).exhaustionAnnounced =
    ((ControlPoint.shard e i).used == (ControlPoint.shard e i).reserve)

/-- The announced shards among the first. -/
def flagsBefore (e : CounterEngine) (index : ℕ) : ℕ :=
  ((e.reserved.shards.take index).map Shard.flag).sum

variable {e : CounterEngine}

theorem SeededBelow.announced_iff {index i : ℕ} (h : e.SeededBelow index) (hi : i < index) :
    e.Announced i ↔ e.Filled i := by
  unfold Announced Filled
  rw [h i hi, beq_iff_eq]

theorem SeededBelow.honest (h : e.SeededBelow e.reserved.shards.length) : e.reserved.Honest := by
  intro s hmem hannounced
  obtain ⟨i, hi, rfl⟩ := List.getElem_of_mem hmem
  have hiff := h.announced_iff hi
  unfold Announced Filled ControlPoint.shard at hiff
  rw [List.getD_eq_getElem _ _ hi] at hiff
  exact hiff.mp hannounced

/-- The recount of the shards adds one for each announced shard. -/
theorem SeededBelow.flagsBefore_succ (h : e.SeededBelow e.reserved.shards.length) {index : ℕ}
    (hlen : index < e.reserved.shards.length) :
    e.flagsBefore (index + 1) =
      if (ControlPoint.shard e index).used = (ControlPoint.shard e index).reserve then
        e.flagsBefore index + 1
      else e.flagsBefore index := by
  have hiff := h.announced_iff hlen
  unfold Announced Filled at hiff
  rw [flagsBefore, sum_map_take_succ Shard.flag default _ _ hlen, Shard.flag]
  change _ + (if (ControlPoint.shard e index).exhaustionAnnounced = true then 1 else 0) = _
  rw [flagsBefore]
  simp only [hiff]
  split <;> rfl

theorem flagsBefore_of_le {index : ℕ} (h : e.reserved.shards.length ≤ index) :
    e.flagsBefore index = e.reserved.announced := by
  rw [flagsBefore, List.take_of_length_le h, ReservedCounter.announced]

end CounterEngine

namespace ControlPoint

open CounterEngine (SameTally)

/-- The control thread has published peak mode and not yet stored how many shards are full. -/
def recounting : ControlPoint → Bool
  | .reservedCount _ _ | .reservedStoreCount _ => true
  | _ => false

/-- What a control thread that never commits a handoff knows of the announcements. -/
def Audits (e : CounterEngine) : ControlPoint → Prop
  | .reservedSeed index _ => e.SeededBelow index
  | .reservedAnnounce index assigned _ => e.SeededBelow index ∧ (shard e index).used = assigned
  | .reservedPublish => e.SeededBelow e.reserved.shards.length
  | .reservedCount index count =>
    e.mode = .reservedPeak ∧ e.SeededBelow e.reserved.shards.length ∧
      count = e.flagsBefore index ∧ (e.balance = e.limit → e.exhausted = true)
  | .reservedStoreCount count =>
    e.mode = .reservedPeak ∧ e.SeededBelow e.reserved.shards.length ∧
      count = e.reserved.announced ∧ (e.balance = e.limit → e.exhausted = true)
  | .dangerClearCount => e.mode = .dangerStrict
  | .commitActive _ _ | .commitMode _ _ | .commitSeed _ _ | .commitPublish _ _
  | .commitClearCount _ _ | .commitEpoch _ _ | .commitClear _ _ | .commitRelease _ _
  | .commitCounter | .commitMark _ | .commitPublisher _ | .commitEvent _ | .commitRemember
  | .commitOpen => False
  | _ => True

/-- The accesses that write to what limit detection reads. -/
def writes : ControlPoint → Bool
  | .reservedSeed _ _ | .reservedAnnounce _ _ _ | .reservedPublish | .reservedStoreCount _
  | .dangerSeed _ | .dangerPublish | .dangerClearCount => true
  | _ => false

variable {e e' : CounterEngine} {p : ControlPoint}

/-- What the control thread knows stays true while the mode stands and, where it is alone, the
counters. -/
theorem Audits.congr (h : p.Audits e) (hmode : e'.mode = e.mode)
    (hcounters : p.exclusive = true ∨ p.recounting = true →
      e'.strict = e.strict ∧ e'.reserved = e.reserved)
    (hexhausted : e.exhausted = true → e'.exhausted = true) : p.Audits e' := by
  have hseeded : ∀ index, e'.reserved = e.reserved → e.SeededBelow index →
      e'.SeededBelow index := by
    intro index hreserved hindex i hi
    unfold shard
    rw [hreserved]
    exact hindex i hi
  cases p with
  | reservedSeed => exact hseeded _ (hcounters (.inl rfl)).2 h
  | reservedAnnounce =>
    obtain ⟨-, hreserved⟩ := hcounters (.inl rfl)
    refine ⟨hseeded _ hreserved h.1, ?_⟩
    unfold shard
    rw [hreserved]
    exact h.2
  | reservedPublish =>
    obtain ⟨-, hreserved⟩ := hcounters (.inl rfl)
    refine hseeded _ hreserved ?_
    rw [hreserved]
    exact h
  | reservedCount =>
    obtain ⟨hstrict, hreserved⟩ := hcounters (.inr rfl)
    obtain ⟨hpeak, hindex, hcount, hfull⟩ := h
    refine ⟨hmode.trans hpeak, hseeded _ hreserved (hreserved ▸ hindex), ?_, fun hbalance => ?_⟩
    · unfold CounterEngine.flagsBefore
      rw [hreserved]
      exact hcount
    · unfold CounterEngine.balance CounterEngine.limit at hbalance
      rw [hmode, hstrict, hreserved] at hbalance
      exact hexhausted (hfull hbalance)
  | reservedStoreCount =>
    obtain ⟨hstrict, hreserved⟩ := hcounters (.inr rfl)
    obtain ⟨hpeak, hindex, hcount, hfull⟩ := h
    refine ⟨hmode.trans hpeak, hseeded _ hreserved (hreserved ▸ hindex), ?_, fun hbalance => ?_⟩
    · rw [hreserved]
      exact hcount
    · unfold CounterEngine.balance CounterEngine.limit at hbalance
      rw [hmode, hstrict, hreserved] at hbalance
      exact hexhausted (hfull hbalance)
  | dangerClearCount => exact hmode.trans h
  | commitActive | commitMode | commitSeed | commitPublish | commitClearCount | commitEpoch
  | commitClear | commitRelease | commitCounter | commitMark | commitPublisher | commitEvent
  | commitRemember | commitOpen => exact h.elim
  | _ => trivial

/-- The shards after a write of a seeding loop. -/
theorem shard_setShard {index : ℕ} (h : index < e.reserved.shards.length) (s : Shard) (i : ℕ) :
    shard (setShard e index s) i = if i = index then s else shard e i :=
  CounterEngine.getD_set_shards _ h s i

/-- The seeding loop starts its next shard, gives up or is done. -/
private theorem audits_seedNext {index remaining : ℕ} (h : e.SeededBelow index) :
    (seedNext e index remaining).Audits e ∧ (seedNext e index remaining).recounting = false := by
  unfold seedNext
  split
  · exact ⟨h, rfl⟩
  · rename_i hlen
    split
    · exact ⟨trivial, rfl⟩
    · exact ⟨fun i hi => h i (hi.trans_le (Nat.not_lt.mp hlen)), rfl⟩

private theorem audits_loopNext (mode : RoutingMode) : (loopNext mode).Audits e := by
  cases mode <;> trivial

private theorem recounting_loopNext (mode : RoutingMode) :
    (loopNext mode).recounting = false := by
  cases mode <;> rfl

/-- The other accesses of the control thread. -/
theorem quiet_step (h : p.Audits e) (hquiet : p.writes = false) :
    SameTally e (p.step e).1 ∧ (p.step e).2.Audits (p.step e).1 ∧
      (p.step e).2.recounting = p.recounting ∧
      (p.recounting = true → (p.step e).1.gateOpen = e.gateOpen) := by
  have hsame : SameTally e e := .refl e
  cases p with
  | reservedSeed | reservedAnnounce | reservedPublish | reservedStoreCount | dangerSeed
  | dangerPublish | dangerClearCount => cases hquiet
  | commitActive | commitMode | commitSeed | commitPublish | commitClearCount | commitEpoch
  | commitClear | commitRelease | commitCounter | commitMark | commitPublisher | commitEvent
  | commitRemember | commitOpen => exact h.elim
  | reservedLoad =>
    simp only [ControlPoint.step]
    split
    · exact ⟨hsame, trivial, rfl, fun _ => rfl⟩
    · have hnone : e.SeededBelow 0 := fun i hi => absurd hi (Nat.not_lt_zero i)
      exact ⟨hsame, (audits_seedNext hnone).1, (audits_seedNext hnone).2, fun _ => rfl⟩
  | reservedCount index count =>
    obtain ⟨hpeak, hindex, hcount, hfull⟩ := h
    simp only [ControlPoint.step]
    split
    · rename_i hlen
      refine ⟨hsame, ⟨hpeak, hindex, ?_, hfull⟩, rfl, fun _ => rfl⟩
      rw [hindex.flagsBefore_succ hlen, hcount]
    · rename_i hlen
      refine ⟨hsame, ⟨hpeak, hindex, ?_, hfull⟩, rfl, fun _ => rfl⟩
      rw [hcount, CounterEngine.flagsBefore_of_le (Nat.not_lt.mp hlen)]
  | loopEpoch mode | snapshotPublisher mode =>
    simp only [ControlPoint.step]
    split
    · exact ⟨hsame, trivial, rfl, fun _ => rfl⟩
    · exact ⟨⟨rfl, rfl, rfl, rfl, rfl, rfl, rfl⟩, audits_loopNext mode, recounting_loopNext mode,
        fun _ => rfl⟩
  | snapshotPublish mode =>
    exact ⟨⟨rfl, rfl, rfl, rfl, rfl, rfl, rfl⟩, audits_loopNext mode, recounting_loopNext mode,
      fun _ => rfl⟩
  -- the other points have nothing to do with limit detection
  | _ =>
    simp only [ControlPoint.step]
    repeat' split
    all_goals
      exact ⟨⟨by trivial, by trivial, by trivial, by trivial, by trivial, by trivial, by trivial⟩,
        trivial, by trivial, by simp [recounting]⟩

/-- Once strict mode is left, the control thread writes to no shard and never goes back. -/
theorem Knows.reserved_step (h : p.Knows e) (hmode : e.mode ≠ .strict) :
    (p.step e).1.mode ≠ .strict ∧ (p.step e).1.reserved = e.reserved := by
  cases p with
  | reservedSeed | reservedAnnounce | reservedPublish => exact absurd h.1 hmode
  | dangerPublish => exact ⟨by simp [ControlPoint.step], rfl⟩
  | commitActive | commitMode | commitSeed | commitPublish => exact h.elim
  | _ =>
    simp only [ControlPoint.step]
    repeat' split
    all_goals exact ⟨hmode, by trivial⟩

/-- A strict counter that stands at the limit is seeded with the limit or not at all. -/
theorem Knows.strict_step (h : p.Knows e) (hvalue : e.strict.value = e.config.limit)
    (hused : e.mode = .reservedPeak → e.reserved.used = e.config.limit) :
    (p.step e).1.strict.value = e.config.limit := by
  cases p with
  | dangerSeed total =>
    simp only [ControlPoint.step]
    split
    · exact hvalue
    · exact h.2.trans (hused h.1)
  | commitActive | commitMode | commitSeed | commitPublish => exact h.elim
  | _ =>
    simp only [ControlPoint.step]
    repeat' split
    all_goals exact hvalue

theorem publisher_step (e : CounterEngine) (p : ControlPoint) :
    (p.step e).1.limitReachedPublisher = e.limitReachedPublisher := by
  cases p <;> simp only [ControlPoint.step] <;> repeat' split
  all_goals rfl

/-- The control thread never forgets that the limit is reached. -/
theorem exhausted_step (hknown : e.exhausted = true) : (p.step e).1.exhausted = true := by
  cases p with
  | commitMark | commitRemember =>
    simp only [ControlPoint.step]
    repeat' split
    all_goals trivial
  | _ =>
    simp only [ControlPoint.step]
    repeat' split
    all_goals exact hknown

end ControlPoint

/-! ### The invariant -/

/-- The bookkeeping of limit detection in an engine that owns the whole limit, whose control thread
stands at `p` and whose request threads stand at `request`. -/
structure Tally {R : Type} [Fintype R] (e : CounterEngine) (p : ControlPoint)
    (request : R → ApplyPoint) : Prop where
  whole : e.localPeak = e.limit
  short : e.reserved.shards.length < 2 ^ 32
  reports : ∀ r, (request r).Reports e
  audits : p.Audits e
  alone : p.recounting = true → e.gateOpen = false ∧ ∀ r, (request r).inside = false
  honest : e.mode = .reservedPeak → e.reserved.Honest
  /-- every announcement is counted or in the hand of a thread -/
  counted : e.mode = .reservedPeak → p.recounting = false →
    e.exhaustedPeakShards + ∑ r, (request r).counting = e.reserved.announced
  /-- every full shard is announced or in the hand of a thread -/
  filled : e.mode = .reservedPeak → ∀ i < e.reserved.shards.length, e.Filled i →
    e.Announced i ∨ ∃ r, (request r).announcing = some i
  /-- the end is known or in the hand of a thread -/
  atEnd : p.recounting = false → e.AtEnd →
    e.exhausted = true ∨ ∃ r, (request r).telling e.limit
  truthful : e.exhausted = true → e.balance = e.limit
  /-- the event is published or in the hand of a thread exactly if it is due -/
  events : e.limitEvents.length + ∑ r, (request r).publishing e.limitReachedPublisher = e.told

namespace Tally

variable {R : Type} [Fintype R] {e e' : CounterEngine} {p p' : ControlPoint}
  {request : R → ApplyPoint}

/-- Nobody inside has anything in hand. -/
theorem sum_counting_eq_zero (halone : ∀ r, (request r).inside = false) :
    ∑ r, (request r).counting = 0 :=
  Finset.sum_eq_zero fun r _ => (ApplyPoint.unburdened_of_not_inside (halone r)).counting

/-- **With nobody inside, an engine whose total is the limit knows it.** -/
theorem exhausted_of_alone (h : Tally e p request) (hs : e.Sound)
    (halone : ∀ r, (request r).inside = false) (hbalance : e.balance = e.limit) :
    e.exhausted = true := by
  have hfree := fun r => ApplyPoint.unburdened_of_not_inside (halone r)
  have hknown : p.recounting = false → e.AtEnd → e.exhausted = true := by
    intro hnot hend
    rcases h.atEnd hnot hend with hknown | ⟨r, htell⟩
    · exact hknown
    · exact absurd htell ((hfree r).telling _)
  cases hrecounting : p.recounting with
  | true =>
    have haudits := h.audits
    cases p with
    | reservedCount => exact haudits.2.2.2 hbalance
    | reservedStoreCount => exact haudits.2.2.2 hbalance
    | _ => cases hrecounting
  | false =>
    refine hknown hrecounting ?_
    by_cases hpeak : e.mode = .reservedPeak
    · rw [CounterEngine.balance_of_peak hpeak] at hbalance
      refine CounterEngine.atEnd_of_count hpeak ?_
      -- every shard is full, so every shard is announced and counted
      have hall : ∀ i < e.reserved.shards.length, e.Announced i := by
        intro i hi
        rcases h.filled hpeak i hi (hs.filled_of_used (hbalance.trans h.whole.symm) hi) with
          hannounced | ⟨r, hhand⟩
        · exact hannounced
        · rw [(hfree r).announcing] at hhand
          cases hhand
      have hcounted := h.counted hpeak hrecounting
      rw [sum_counting_eq_zero halone, Nat.add_zero] at hcounted
      exact hcounted.trans (CounterEngine.announced_complete hall)
    · rw [CounterEngine.balance_of_ne hpeak] at hbalance
      exact CounterEngine.atEnd_of_value hpeak hbalance

/-- A complete count in peak mode means that the limit is reached. -/
theorem balance_of_count (h : Tally e p request) (hs : e.Sound) (hpeak : e.mode = .reservedPeak)
    (hall : e.reserved.shards.length ≤ e.reserved.announced) : e.balance = e.limit := by
  rw [CounterEngine.balance_of_peak hpeak,
    hs.bounded.used_eq_of_announced (h.honest hpeak) hall, hs.reserved_limit]
  exact h.whole

/-! ### The control thread -/

/-- An access that writes nothing that limit detection reads. -/
private theorem quiet (h : Tally e p request) (hsame : e.SameTally e')
    (hconfig : e'.config = e.config)
    (haudits : p'.Audits e') (hrecounting : p'.recounting = p.recounting)
    (hgate : p.recounting = true → e'.gateOpen = e.gateOpen) : Tally e' p' request := by
  have hlimit : e'.limit = e.limit := congrArg StrictCounter.limit hsame.strict
  constructor
  case whole =>
    rw [hlimit, ← h.whole]
    unfold CounterEngine.localPeak
    rw [hconfig]
  case short => rw [hsame.reserved]; exact h.short
  case reports => exact fun r => (h.reports r).congr hsame
  case audits => exact haudits
  case alone =>
    intro hnow
    rw [hrecounting] at hnow
    exact ⟨(hgate hnow).trans (h.alone hnow).1, (h.alone hnow).2⟩
  case honest => rw [hsame.mode, hsame.reserved]; exact h.honest
  case counted =>
    rw [hsame.mode, hrecounting, hsame.count, hsame.reserved]
    exact h.counted
  case filled =>
    rw [hsame.mode, hsame.reserved]
    intro hpeak i hi hfull
    rw [hsame.announced]
    exact h.filled hpeak i hi ((hsame.filled i).mp hfull)
  case atEnd =>
    rw [hrecounting, hsame.atEnd, hsame.exhausted, hlimit]
    exact h.atEnd
  case truthful =>
    rw [hsame.exhausted, hlimit]
    unfold CounterEngine.balance
    rw [hsame.mode, hsame.reserved, hsame.strict]
    exact h.truthful
  case events =>
    rw [hsame.events, hsame.told, hsame.publisher]
    exact h.events

/-- A write to a shard by a control thread that is alone in strict mode. -/
private theorem setShard (h : Tally e p request) (halone : ∀ r, (request r).inside = false)
    (hmode : e.mode = .strict) (hp : p.recounting = false) (hp' : p'.recounting = false)
    (index : ℕ) (s : Shard) (haudits : p'.Audits (ControlPoint.setShard e index s)) :
    Tally (ControlPoint.setShard e index s) p' request := by
  have hpeak : e.mode ≠ .reservedPeak := by simp [hmode]
  have hpeak' : (ControlPoint.setShard e index s).mode ≠ .reservedPeak := hpeak
  constructor
  case short => simpa [ControlPoint.setShard] using h.short
  case reports => exact fun r => ApplyPoint.reports_of_not_inside (halone r)
  case audits => exact haudits
  case alone => exact fun hnow => absurd (hp'.symm.trans hnow) Bool.false_ne_true
  case honest => exact fun hnow => absurd hnow hpeak
  case counted => exact fun hnow => absurd hnow hpeak
  case filled => exact fun hnow => absurd hnow hpeak
  case atEnd =>
    intro _ hend
    exact h.atEnd hp (CounterEngine.atEnd_of_value hpeak (hend.value hpeak'))
  case truthful =>
    intro hknown
    have hbalance := h.truthful hknown
    rw [CounterEngine.balance_of_ne hpeak] at hbalance
    exact (CounterEngine.balance_of_ne hpeak').trans hbalance
  case whole => exact h.whole
  case events => exact h.events

/-- The control thread publishes peak mode: it seeded every shard and is alone. -/
private theorem reservedPublish (h : Tally e .reservedPublish request) (hs : e.Sound)
    (hknows : ControlPoint.reservedPublish.Knows e) (hclosed : e.gateOpen = false)
    (halone : ∀ r, (request r).inside = false) :
    Tally { e with mode := .reservedPeak } (.reservedCount 0 0) request := by
  obtain ⟨hmode, hused⟩ := hknows
  have hpeak : e.mode ≠ .reservedPeak := by simp [hmode]
  have hbalance : e.balance = e.reserved.used :=
    (CounterEngine.balance_of_ne hpeak).trans hused.symm
  constructor
  case reports => exact fun r => ApplyPoint.reports_of_not_inside (halone r)
  case audits =>
    refine ⟨rfl, h.audits, rfl, fun hfull => ?_⟩
    exact h.exhausted_of_alone hs halone (hbalance.trans hfull)
  case alone => exact fun _ => ⟨hclosed, halone⟩
  case honest => exact fun _ => CounterEngine.SeededBelow.honest h.audits
  case counted => exact fun _ hnot => absurd hnot (by simp [ControlPoint.recounting])
  case filled =>
    intro _ i hi hfull
    exact .inl ((CounterEngine.SeededBelow.announced_iff h.audits hi).mpr hfull)
  case atEnd => exact fun hnot => absurd hnot (by simp [ControlPoint.recounting])
  case truthful => exact fun hknown => hbalance.symm.trans (h.truthful hknown)
  case whole => exact h.whole
  case short => exact h.short
  case events => exact h.events

/-- The control thread stores how many shards it seeded to their reserve. -/
private theorem reservedStoreCount {count : ℕ} (h : Tally e (.reservedStoreCount count) request)
    (hs : e.Sound) : Tally { e with exhaustedPeakShards := count } .reservedEpoch request := by
  obtain ⟨hpeak, -, rfl, hknown⟩ := h.audits
  have halone := (h.alone rfl).2
  constructor
  case reports => exact fun r => ApplyPoint.reports_of_not_inside (halone r)
  case counted =>
    intro _ _
    rw [sum_counting_eq_zero halone]
    rfl
  case atEnd =>
    intro _ hend
    exact .inl (hknown (h.balance_of_count hs hpeak (hend.count hpeak).ge))
  case audits => trivial
  case alone => exact fun hnow => absurd hnow Bool.false_ne_true
  case honest => exact h.honest
  case filled => exact h.filled
  case truthful => exact h.truthful
  case whole => exact h.whole
  case short => exact h.short
  case events => exact h.events

/-- The control thread moves the peak total to the strict counter, which nobody uses yet. -/
private theorem dangerSeed {total : ℕ} (h : Tally e (.dangerSeed total) request)
    (hpeak : e.mode = .reservedPeak) (halone : ∀ r, (request r).inside = false) :
    Tally { e with strict := { e.strict with value := total } } .dangerPublish request := by
  constructor
  case reports => exact fun r => ApplyPoint.reports_of_not_inside (halone r)
  case atEnd =>
    intro _ hend
    exact h.atEnd rfl (CounterEngine.atEnd_of_count hpeak (hend.count hpeak))
  case truthful =>
    intro hknown
    have hbalance := h.truthful hknown
    rw [CounterEngine.balance_of_peak hpeak] at hbalance
    exact (CounterEngine.balance_of_peak (by exact hpeak)).trans hbalance
  case audits => trivial
  case alone => exact fun hnow => absurd hnow Bool.false_ne_true
  case honest => exact h.honest
  case counted => exact h.counted
  case filled => exact h.filled
  case whole => exact h.whole
  case short => exact h.short
  case events => exact h.events

/-- The control thread publishes danger mode: the strict counter has the peak total. -/
private theorem dangerPublish (h : Tally e .dangerPublish request) (hs : e.Sound)
    (hknows : ControlPoint.dangerPublish.Knows e) (halone : ∀ r, (request r).inside = false) :
    Tally { e with mode := .dangerStrict } .dangerClearCount request := by
  obtain ⟨hpeak, hvalue⟩ := hknows
  have hbalance : e.balance = e.strict.value :=
    (CounterEngine.balance_of_peak hpeak).trans hvalue.symm
  constructor
  case reports => exact fun r => ApplyPoint.reports_of_not_inside (halone r)
  case atEnd =>
    intro _ hend
    exact .inl (h.exhausted_of_alone hs halone (hbalance.trans (hend.value (by simp))))
  case truthful => exact fun hknown => hbalance.symm.trans (h.truthful hknown)
  case audits => rfl
  case alone => exact fun hnow => absurd hnow Bool.false_ne_true
  case honest => exact fun hnow => absurd hnow (by simp)
  case counted => exact fun hnow => absurd hnow (by simp)
  case filled => exact fun hnow => absurd hnow (by simp)
  case whole => exact h.whole
  case short => exact h.short
  case events => exact h.events

private theorem dangerClearCount (h : Tally e .dangerClearCount request) :
    Tally { e with exhaustedPeakShards := 0 } .dangerEpoch request := by
  have hmode : e.mode = .dangerStrict := h.audits
  have hpeak : e.mode ≠ .reservedPeak := by simp [hmode]
  constructor
  case reports =>
    refine fun r => (h.reports r).mono rfl rfl (Nat.le_refl _) rfl (fun _ _ => id) id
  case atEnd =>
    exact fun _ hend => h.atEnd rfl (CounterEngine.atEnd_of_value hpeak (hend.value hpeak))
  case audits => trivial
  case alone => exact fun hnow => absurd hnow Bool.false_ne_true
  case honest => exact h.honest
  case counted => exact fun hnow => absurd hnow hpeak
  case filled => exact h.filled
  case truthful => exact h.truthful
  case whole => exact h.whole
  case short => exact h.short
  case events => exact h.events

/-- **One access of the control thread keeps the bookkeeping.** -/
theorem control (h : Tally e p request) (hs : e.Sound) (hf : p.Fits e) (hknows : p.Knows e)
    (hclosed : p.closed = true → e.gateOpen = false)
    (halone : p.exclusive = true → ∀ r, (request r).inside = false) :
    Tally (p.step e).1 (p.step e).2 request := by
  cases p with
  | reservedSeed index remaining =>
    obtain ⟨hmode, hlen, -⟩ := hknows
    refine h.setShard (halone rfl) hmode rfl rfl index _ ⟨fun i hi => ?_, ?_⟩
    · rw [ControlPoint.shard_setShard hlen, if_neg hi.ne]
      exact h.audits i hi
    · rw [ControlPoint.shard_setShard hlen, if_pos rfl]
  | reservedAnnounce index assigned remaining =>
    obtain ⟨hmode, hlen, -⟩ := hknows
    obtain ⟨hseeded, hassigned⟩ := h.audits
    have hnext : (ControlPoint.setShard e index { ControlPoint.shard e index with
        exhaustionAnnounced := assigned == (ControlPoint.shard e index).reserve }).SeededBelow
          (index + 1) := by
      intro i hi
      rw [ControlPoint.shard_setShard hlen]
      split
      · rw [hassigned]
      · exact hseeded i (by omega)
    obtain ⟨haudits, hnot⟩ := ControlPoint.audits_seedNext hnext
    exact h.setShard (halone rfl) hmode rfl hnot index _ haudits
  | reservedPublish => exact h.reservedPublish hs hknows (hclosed rfl) (halone rfl)
  | reservedStoreCount count => exact h.reservedStoreCount hs
  | dangerSeed total =>
    simp only [ControlPoint.step]
    split
    · exact h.quiet (.refl e) rfl trivial rfl fun _ => rfl
    · exact h.dangerSeed hknows.1 (halone rfl)
  | dangerPublish => exact h.dangerPublish hs hknows (halone rfl)
  | dangerClearCount => exact h.dangerClearCount
  | _ =>
    obtain ⟨hsame, haudits, hrecounting, hgate⟩ := ControlPoint.quiet_step h.audits rfl
    obtain ⟨hkeep, -⟩ := ControlPoint.step_keeps hs hf
    exact h.quiet hsame hkeep.config haudits hrecounting hgate

end Tally

/-! ### The request threads -/

namespace Machine

variable {R : Type} [Fintype R] {config : CounterEngineConfig} {m m' : Machine R Unit}

/-- The bookkeeping of a machine. -/
def Tallied (m : Machine R Unit) : Prop := Tally m.engine (m.control ()) m.request

/-- A fresh engine, with a publisher for limit events or without. -/
def initPublishing (R : Type) (config : CounterEngineConfig) (publisher : Bool) : Machine R Unit :=
  { init R Unit config with
    engine := { CounterEngine.new config with limitReachedPublisher := publisher } }

theorem conserved_initPublishing (publisher : Bool) (hthreads : Fintype.card R < 2 ^ 32) :
    Conserved config (initPublishing R config publisher) := by
  obtain ⟨⟨-, ⟨hstrict, hreserved, hbounded, hvalue⟩, hfits, hcontrol, hinFlight⟩, hconfig, hknows,
    hclosed, halone, hserving, hbalance⟩ := conserved_init (R := R) config hthreads
  exact ⟨⟨hthreads, ⟨hstrict, hreserved, hbounded, hvalue⟩, fun _ => trivial, fun _ => trivial,
    hinFlight⟩, hconfig, trivial, hclosed, halone, hserving, hbalance⟩

theorem tallied_initPublishing (publisher : Bool) (hlimit : 0 < config.limit)
    (hwhole : config.localPeak = config.limit) (hshards : config.shards < 2 ^ 32) :
    (initPublishing R config publisher).Tallied := by
  have hpeak : (initPublishing R config publisher).engine.mode ≠ .reservedPeak :=
    fun h => by cases h
  constructor
  case short =>
    have hlen : (initPublishing R config publisher).engine.reserved.shards.length =
        config.shards := by
      simp [initPublishing, CounterEngine.new, ReservedCounter.new]
    exact hlen.trans_lt hshards
  case atEnd =>
    intro _ hend
    exact absurd (hend.value hpeak) hlimit.ne
  case events => exact (Nat.zero_add _).trans (Finset.sum_eq_zero fun _ _ => rfl)
  case whole => exact hwhole
  case reports => exact fun _ => trivial
  case audits => trivial
  case alone => exact fun h => absurd h Bool.false_ne_true
  case honest => exact fun h => absurd h hpeak
  case counted => exact fun h => absurd h hpeak
  case filled => exact fun h => absurd h hpeak
  case truthful => exact fun h => absurd h Bool.false_ne_true

/-- A thread that has announced a shard is inside in peak mode. -/
private theorem peak_of_counting {e : CounterEngine} {p : ApplyPoint} (h : p.counting = 1)
    (hreports : p.Reports e) : e.mode = .reservedPeak ∧ p.inside = true := by
  cases p with
  | countShard => exact ⟨hreports, rfl⟩
  | _ => cases h

/-- The announcement that a thread is about to count is not counted yet. -/
private theorem Tallied.room (h : m.Tallied) {r : R} (hr : (m.request r).counting = 1) :
    m.engine.mode = .reservedPeak ∧
      m.engine.exhaustedPeakShards + 1 ≤ m.engine.reserved.announced := by
  obtain ⟨hpeak, hin⟩ := peak_of_counting hr (h.reports r)
  have hnot : (m.control ()).recounting = false := by
    by_contra hrec
    have hout := (h.alone (by simpa using hrec)).2 r
    exact Bool.false_ne_true (hout.symm.trans hin)
  have hcounted := h.counted hpeak hnot
  have hone := le_sum (fun r => (m.request r).counting) r
  exact ⟨hpeak, by omega⟩

private theorem Tallied.tells (h : m.Tallied) (hc : Conserved config m) (r : R) (spurious : Bool) :
    ApplyPoint.Tells m.engine (m.request r) ((m.request r).step m.engine spurious).1
      ((m.request r).step m.engine spurious).2.1 := by
  have hs := hc.wf.sound
  have hle := m.engine.reserved.announced_le
  refine ApplyPoint.step_tells hs spurious (hc.wf.fits r) (h.reports r) (hc.serving r) h.whole
    h.short (fun hr => ?_) fun hr hlast => ?_
  · have hroom := (h.room hr).2
    omega
  · obtain ⟨hpeak, hroom⟩ := h.room hr
    exact h.balance_of_count hs hpeak (hlast ▸ hroom)

/-- A counter that has reached the limit stays there. -/
private theorem Tallied.balance_run (h : m.Tallied) (hc : Conserved config m) (r : R)
    (spurious : Bool) (hbalance : m.engine.balance = m.engine.limit) :
    ((m.request r).step m.engine spurious).1.balance = m.engine.limit := by
  have he := hc.wf.effect r spurious
  obtain ⟨d, -, hgrow⟩ := he.balance (hc.serving r)
  have hwhole : m.engine.config.localPeak = m.engine.config.limit :=
    h.whole.trans hc.wf.sound.limit_eq
  have hle := he.sound.balance_le (by rw [he.config]; exact hwhole.le)
  have hlimit := hc.wf.sound.limit_eq
  rw [he.config] at hle
  omega

/-- A local control call starts with no audit. -/
private theorem Tallied.invokes (h : m.Tallied) (hidle : m.control () = .idle) {op : ControlCall}
    (hlocal : localOnly m (.invoke () op)) :
    Tallied { m with control := Function.update m.control () (.entry op) } := by
  have hrecounting : (m.control ()).recounting = false := by rw [hidle]; rfl
  have hentry : (ControlPoint.entry op).Audits m.engine ∧
      (ControlPoint.entry op).recounting = false := by
    cases op with
    | commitHandoff => exact hlocal.elim
    | _ => exact ⟨trivial, rfl⟩
  unfold Tallied
  dsimp only
  rw [Function.update_self]
  exact Tally.quiet h (.refl _) rfl hentry.1 (hentry.2.trans hrecounting.symm) fun _ => rfl

/-- The shards have given out everything, and nobody seeds them any more. -/
def PeakSpent (m : Machine R Unit) : Prop :=
  m.engine.mode ≠ .strict ∧ m.engine.reserved.used = m.engine.config.localPeak

/-- The limit is known, and the strict counter stands there. -/
def StrictSpent (m : Machine R Unit) : Prop :=
  m.engine.exhausted = true ∧ m.engine.strict.value = m.engine.config.limit

omit [Fintype R] in
/-- Where everything is spent, the first shards have spent their reserves. -/
private theorem PeakSpent.usedBefore_eq (h : m.PeakSpent) (hs : m.engine.Sound) (index : ℕ) :
    m.engine.usedBefore index = (m.engine.reserves.take index).sum := by
  have hmap : m.engine.reserved.shards.map Shard.used = m.engine.reserves :=
    List.map_congr_left fun s hmem =>
      hs.bounded.full_of_used_eq (h.2.trans hs.reserved_limit.symm) hmem
  rw [CounterEngine.usedBefore, List.map_take, hmap]

/-- In peak mode an engine that knows that the limit is reached has spent its shards. -/
private theorem Tallied.peakSpent (h : m.Tallied) (hknown : m.engine.exhausted = true)
    (hpeak : m.engine.mode = .reservedPeak) : m.PeakSpent := by
  have hbalance := h.truthful hknown
  rw [CounterEngine.balance_of_peak hpeak, ← h.whole] at hbalance
  exact ⟨by simp [hpeak], hbalance⟩

variable [DecidableEq R]

/-- **One access of a request thread keeps the bookkeeping.** -/
private theorem Tallied.run (h : m.Tallied) (hc : Conserved config m) (r : R) (spurious : Bool)
    (hstep : m.step (.run r spurious) = some m') : m'.Tallied := by
  have he := hc.wf.effect r spurious
  have htells := h.tells hc r spurious
  have hbalance := h.balance_run hc r spurious
  obtain rfl := Option.some.inj hstep
  set next := (m.request r).step m.engine spurious with hnext
  have hlength : next.1.reserved.shards.length = m.engine.reserved.shards.length := by
    rw [← CounterEngine.length_reserves, he.reserves, CounterEngine.length_reserves]
  have hlimit : next.1.limit = m.engine.limit := by
    rw [he.sound.limit_eq, he.config, ← hc.wf.sound.limit_eq]
  have hstrict : m.engine.strict.value ≤ next.1.strict.value := by
    obtain ⟨d, -, ⟨-, hsame, -⟩ | ⟨-, hvalue, -⟩ | ⟨-, hsame, -⟩⟩ := he.spent
    · rw [hsame]
    · omega
    · rw [hsame]
  have hsum : ∀ f : ApplyPoint → ℕ,
      ∑ r', f (Function.update m.request r next.2.1 r') + f (m.request r) =
        ∑ r', f (m.request r') + f next.2.1 :=
    fun f => sum_update_add f m.request r next.2.1
  -- what another thread has in hand it still has
  have hother : ∀ {P : ApplyPoint → Prop}, (∃ r', P (m.request r')) → ¬ P (m.request r) →
      ∃ r', P (Function.update m.request r next.2.1 r') := by
    rintro P ⟨r', hr'⟩ hnot
    have hne : r' ≠ r := fun heq => hnot (heq ▸ hr')
    exact ⟨r', by rwa [Function.update_of_ne hne]⟩
  have hself : Function.update m.request r next.2.1 r = next.2.1 := Function.update_self ..
  constructor
  case whole =>
    rw [hlimit, ← h.whole]
    unfold CounterEngine.localPeak
    rw [he.config]
  case short => exact hlength.trans_lt h.short
  case reports =>
    intro r'
    dsimp only
    by_cases hr : r' = r
    · subst hr
      rw [hself]
      exact htells.reports
    · rw [Function.update_of_ne hr]
      exact (h.reports r').mono he.mode hlength hstrict hlimit htells.fills hbalance
  case audits =>
    refine h.audits.congr he.mode (fun hlone => ?_) htells.exhausted
    refine ApplyPoint.step_outside m.engine spurious ?_
    rcases hlone with hexclusive | hrecounting
    · exact hc.alone hexclusive r
    · exact (h.alone hrecounting).2 r
  case alone =>
    intro hrecounting
    obtain ⟨hgate, hout⟩ := h.alone hrecounting
    refine ⟨he.gateOpen.trans hgate, fun r' => ?_⟩
    dsimp only
    by_cases hr : r' = r
    · subst hr
      rw [hself]
      by_contra hin
      rcases he.enters (by simpa using hin) with hold | hopen
      · exact Bool.false_ne_true ((hout r').symm.trans hold)
      · exact Bool.false_ne_true (hgate.symm.trans hopen)
    · rw [Function.update_of_ne hr]
      exact hout r'
  case honest =>
    intro hpeak
    exact htells.honest (h.honest (he.mode.symm.trans hpeak))
  case counted =>
    intro hpeak hnot
    have hcounted := h.counted (he.mode.symm.trans hpeak) hnot
    have hmoved := htells.counted
    have hcounting := hsum ApplyPoint.counting
    dsimp only
    omega
  case filled =>
    intro hpeak i hi hfull
    dsimp only at hfull ⊢
    have hi : i < m.engine.reserved.shards.length := hlength ▸ hi
    rcases htells.filled i hi hfull with hann | hhand | ⟨hwas, hnot, hother'⟩
    · exact .inl hann
    · exact .inr ⟨r, by rw [hself]; exact hhand⟩
    · rcases h.filled (he.mode.symm.trans hpeak) i hi hwas with hann | hhand
      · exact absurd hann hnot
      · exact .inr (hother (P := fun p => p.announcing = some i) hhand hother')
  case atEnd =>
    intro hnot hend
    dsimp only at hend ⊢
    rw [hlimit]
    rcases htells.atEnd hend with hknown | hhand | ⟨hwas, hother'⟩
    · exact .inl hknown
    · exact .inr ⟨r, by rw [hself]; exact hhand⟩
    · rcases h.atEnd hnot hwas with hknown | hhand
      · exact .inl (htells.exhausted hknown)
      · exact .inr (hother hhand hother')
  case truthful =>
    intro hknown
    dsimp only
    rw [hlimit]
    rcases htells.truthful hknown with hwas | hfull
    · exact hbalance (h.truthful hwas)
    · exact hbalance hfull
  case events =>
    have hevents := h.events
    have hmoved := htells.events
    have hpublishing := hsum (ApplyPoint.publishing m.engine.limitReachedPublisher)
    dsimp only
    rw [htells.publisher]
    omega

/-- A call that starts has nothing in hand. -/
private theorem Tallied.calls (h : m.Tallied) {r : R} (hidle : m.request r = .idle)
    (request : Request) :
    Tallied { m with request := Function.update m.request r (.checkExhausted request) } := by
  have hfree : (m.request r).Unburdened := by
    rw [hidle]
    exact ApplyPoint.unburdened_of_not_inside rfl
  -- a thread that enters adds nothing to what the others have in hand
  have hsum : ∀ f : ApplyPoint → ℕ, f (m.request r) = 0 → f (.checkExhausted request) = 0 →
      ∑ r', f (Function.update m.request r (.checkExhausted request) r') =
        ∑ r', f (m.request r') := by
    intro f hold hnew
    have hmoved := sum_update_add f m.request r (.checkExhausted request)
    omega
  have hother : ∀ {P : ApplyPoint → Prop}, (∃ r', P (m.request r')) → ¬ P (m.request r) →
      ∃ r', P (Function.update m.request r (.checkExhausted request) r') := by
    rintro P ⟨r', hr'⟩ hnot
    have hne : r' ≠ r := fun heq => hnot (heq ▸ hr')
    exact ⟨r', by rwa [Function.update_of_ne hne]⟩
  constructor
  case reports =>
    intro r'
    dsimp only
    by_cases hr : r' = r
    · subst hr
      rw [Function.update_self]
      trivial
    · rw [Function.update_of_ne hr]
      exact h.reports r'
  case alone =>
    intro hrecounting
    obtain ⟨hgate, hout⟩ := h.alone hrecounting
    refine ⟨hgate, fun r' => ?_⟩
    dsimp only
    by_cases hr : r' = r
    · subst hr
      rw [Function.update_self]
      rfl
    · rw [Function.update_of_ne hr]
      exact hout r'
  case counted =>
    dsimp only
    rw [hsum ApplyPoint.counting hfree.counting rfl]
    exact h.counted
  case filled =>
    intro hpeak i hi hfull
    rcases h.filled hpeak i hi hfull with hannounced | hhand
    · exact .inl hannounced
    · refine .inr (hother (P := fun p => p.announcing = some i) hhand ?_)
      simp [hfree.announcing]
  case atEnd =>
    intro hnot hend
    rcases h.atEnd hnot hend with hknown | hhand
    · exact .inl hknown
    · exact .inr (hother hhand (hfree.telling _))
  case events =>
    dsimp only
    rw [hsum (ApplyPoint.publishing _) (hfree.publishing _) rfl]
    exact h.events
  case whole => exact h.whole
  case short => exact h.short
  case audits => exact h.audits
  case honest => exact h.honest
  case truthful => exact h.truthful

/-- **Every step keeps the bookkeeping.** -/
theorem Tallied.step (h : m.Tallied) (hc : Conserved config m) {a : Action R Unit}
    (hlocal : localOnly m a) (hstep : m.step a = some m') : m'.Tallied := by
  cases a with
  | call r request =>
    simp only [Machine.step] at hstep
    split at hstep
    · rename_i hidle
      obtain rfl := Option.some.inj hstep
      exact h.calls hidle request
    · cases hstep
  | run r spurious => exact h.run hc r spurious hstep
  | invoke c op =>
    simp only [Machine.step] at hstep
    split at hstep
    · rename_i hidle
      obtain rfl := Option.some.inj hstep
      exact h.invokes hidle hlocal
    · cases hstep
  | advance c =>
    obtain rfl := Option.some.inj hstep
    have hcontrol := Tally.control h hc.wf.sound (hc.wf.control_fits ()) hc.knows hc.closed hc.alone
    unfold Tallied
    dsimp only
    rwa [Function.update_self]
  | raisePeakRequest =>
    obtain rfl := Option.some.inj hstep
    exact Tally.quiet h ⟨rfl, rfl, rfl, rfl, rfl, rfl, rfl⟩ rfl
      (h.audits.congr rfl (fun _ => ⟨rfl, rfl⟩) id) rfl fun _ => rfl

/-! ### Reading the total while the threads move on -/

/-- A caller of `current_value()` in the middle of `ReservedCounter::total`: it has added up the
shards before an index, and the threads move on between its loads. -/
inductive ReadsTotal : Machine R Unit → ℕ → ℕ → ℕ → Prop
  | next {m m' : Machine R Unit} {index total value : ℕ} :
      index < m.engine.reserved.shards.length → Steps Machine.step localOnly m m' →
      ReadsTotal m' (index + 1) ((total + (ControlPoint.shard m'.engine index).used) % 2 ^ 64)
        value → ReadsTotal m index total value
  | done {m : Machine R Unit} {index total : ℕ} :
      ¬ index < m.engine.reserved.shards.length → ReadsTotal m index total total

/-- What a call of `current_value()` may return that starts now. -/
inductive ReadsValue (m : Machine R Unit) : ℕ → Prop
  | peak {m' : Machine R Unit} {value : ℕ} : Steps Machine.step localOnly m m' →
      m'.engine.mode = .reservedPeak → ReadsTotal m' 0 0 value → ReadsValue m value
  | strict {m' m'' : Machine R Unit} : Steps Machine.step localOnly m m' →
      m'.engine.mode ≠ .reservedPeak → Steps Machine.step localOnly m' m'' →
      ReadsValue m m''.engine.strict.value

/-- What is known stays known. -/
private theorem Tallied.known (h : m.Tallied) (hc : Conserved config m) {a : Action R Unit}
    (hstep : m.step a = some m') :
    (m.engine.exhausted = true → m'.engine.exhausted = true) ∧
      m'.engine.limitReachedPublisher = m.engine.limitReachedPublisher := by
  cases a with
  | call | invoke =>
    simp only [Machine.step] at hstep
    split at hstep
    · obtain rfl := Option.some.inj hstep
      exact ⟨id, rfl⟩
    · cases hstep
  | run r spurious =>
    obtain rfl := Option.some.inj hstep
    exact ⟨(h.tells hc r spurious).exhausted, (h.tells hc r spurious).publisher⟩
  | advance c =>
    obtain rfl := Option.some.inj hstep
    exact ⟨ControlPoint.exhausted_step, ControlPoint.publisher_step _ _⟩
  | raisePeakRequest =>
    obtain rfl := Option.some.inj hstep
    exact ⟨id, rfl⟩

omit [Fintype R] in
/-- A reader that nobody disturbs reads the sum of the shards. -/
private theorem readsTotal_used (hs : m.engine.Sound) (index : ℕ) :
    ReadsTotal m index (m.engine.usedBefore index) m.engine.reserved.used := by
  by_cases hlen : index < m.engine.reserved.shards.length
  · refine .next hlen .refl ?_
    rw [hs.add_shard hlen rfl]
    exact readsTotal_used hs (index + 1)
  · rw [← m.engine.usedBefore_of_le (Nat.not_lt.mp hlen)]
    exact .done hlen
termination_by m.engine.reserved.shards.length - index

omit [Fintype R] in
/-- A reader that nobody disturbs reads the current value. -/
theorem readsValue_currentValue (hs : m.engine.Sound) : ReadsValue m m.engine.currentValue := by
  rw [hs.currentValue_eq]
  by_cases hmode : m.engine.mode = .reservedPeak
  · rw [CounterEngine.balance_of_peak hmode]
    exact .peak .refl hmode (m.engine.usedBefore_zero ▸ readsTotal_used hs 0)
  · rw [CounterEngine.balance_of_ne hmode]
    exact .strict .refl hmode .refl

/-- Spent shards stay spent. -/
private theorem PeakSpent.step (h : m.PeakSpent) (hc : Conserved config m) {a : Action R Unit}
    (hstep : m.step a = some m') :
    m'.PeakSpent ∧ m'.engine.reserves = m.engine.reserves := by
  cases a with
  | call | invoke =>
    simp only [Machine.step] at hstep
    split at hstep
    · obtain rfl := Option.some.inj hstep
      exact ⟨h, rfl⟩
    · cases hstep
  | run r spurious =>
    have he := hc.wf.effect r spurious
    obtain rfl := Option.some.inj hstep
    have hle := he.sound.used_le
    unfold CounterEngine.localPeak at hle
    obtain ⟨hmode, hused⟩ := h
    refine ⟨⟨fun hm => hmode (he.mode.symm.trans hm), ?_⟩, he.reserves⟩
    dsimp only
    rw [he.config] at hle ⊢
    obtain ⟨d, -, ⟨-, -, hsame⟩ | ⟨-, -, hsame⟩ | ⟨-, -, hmore⟩⟩ := he.spent
    · exact hsame.trans hused
    · exact hsame.trans hused
    · omega
  | advance c =>
    obtain rfl := Option.some.inj hstep
    obtain ⟨hmode, hreserved⟩ := hc.knows.reserved_step h.1
    obtain ⟨hkeep, -⟩ := ControlPoint.step_keeps hc.wf.sound (hc.wf.control_fits ())
    refine ⟨⟨hmode, ?_⟩, hkeep.reserves⟩
    exact (congrArg ReservedCounter.used hreserved).trans
      (h.2.trans (congrArg CounterEngineConfig.localPeak hkeep.config).symm)
  | raisePeakRequest =>
    obtain rfl := Option.some.inj hstep
    exact ⟨h, rfl⟩

/-- A strict counter at its limit stays there. -/
private theorem StrictSpent.step (h : m.StrictSpent) (ht : m.Tallied) (hc : Conserved config m)
    {a : Action R Unit} (hstep : m.step a = some m') : m'.StrictSpent := by
  have hlimit := hc.wf.sound.limit_eq
  cases a with
  | call | invoke =>
    simp only [Machine.step] at hstep
    split at hstep
    · obtain rfl := Option.some.inj hstep
      exact h
    · cases hstep
  | run r spurious =>
    have he := hc.wf.effect r spurious
    have htells := ht.tells hc r spurious
    obtain rfl := Option.some.inj hstep
    have hle := he.sound.value_le
    obtain ⟨hknown, hvalue⟩ := h
    refine ⟨htells.exhausted hknown, ?_⟩
    dsimp only
    rw [he.config] at hle ⊢
    obtain ⟨d, -, ⟨-, hsame, -⟩ | ⟨-, hmore, -⟩ | ⟨-, hsame, -⟩⟩ := he.spent
    · rw [hsame, hvalue]
    · omega
    · rw [hsame, hvalue]
  | advance c =>
    obtain rfl := Option.some.inj hstep
    obtain ⟨hkeep, -⟩ := ControlPoint.step_keeps hc.wf.sound (hc.wf.control_fits ())
    obtain ⟨hknown, hvalue⟩ := h
    refine ⟨ControlPoint.exhausted_step hknown, ?_⟩
    have hspent : m.engine.mode = .reservedPeak →
        m.engine.reserved.used = m.engine.config.limit := by
      intro hpeak
      exact (ht.peakSpent hknown hpeak).2.trans (ht.whole.trans hlimit)
    exact (hc.knows.strict_step hvalue hspent).trans (congrArg _ hkeep.config).symm
  | raisePeakRequest =>
    obtain rfl := Option.some.inj hstep
    exact h

/-- **The bookkeeping of every run.** -/
private theorem Tallied.steps (h : m.Tallied) (hc : Conserved config m)
    (hsteps : Steps Machine.step localOnly m m') :
    Conserved config m' ∧ m'.Tallied ∧
      (m.engine.exhausted = true → m'.engine.exhausted = true) ∧
      m'.engine.limitReachedPublisher = m.engine.limitReachedPublisher := by
  refine hsteps.invariant (P := fun t => Conserved config t ∧ t.Tallied ∧
    (m.engine.exhausted = true → t.engine.exhausted = true) ∧
    t.engine.limitReachedPublisher = m.engine.limitReachedPublisher) ⟨hc, h, id, rfl⟩
    fun t u a hinv hok hs => ?_
  obtain ⟨hct, ht, hknown, hpublisher⟩ := hinv
  obtain ⟨hstays, hsame⟩ := ht.known hct hs
  exact ⟨hct.step hok hs, ht.step hct hok hs, fun h => hstays (hknown h), hsame.trans hpublisher⟩

private theorem PeakSpent.steps (h : m.PeakSpent) (hc : Conserved config m)
    (hsteps : Steps Machine.step localOnly m m') :
    Conserved config m' ∧ m'.PeakSpent ∧ m'.engine.reserves = m.engine.reserves := by
  refine hsteps.invariant (P := fun t => Conserved config t ∧ t.PeakSpent ∧
    t.engine.reserves = m.engine.reserves) ⟨hc, h, rfl⟩ fun t u a hinv hok hs => ?_
  obtain ⟨hct, hspent, hreserves⟩ := hinv
  obtain ⟨hnext, hkept⟩ := hspent.step hct hs
  exact ⟨hct.step hok hs, hnext, hkept.trans hreserves⟩

private theorem StrictSpent.steps (h : m.StrictSpent) (ht : m.Tallied) (hc : Conserved config m)
    (hsteps : Steps Machine.step localOnly m m') : m'.StrictSpent := by
  have hinv : Conserved config m' ∧ m'.Tallied ∧ m'.StrictSpent :=
    hsteps.invariant (P := fun t => Conserved config t ∧ t.Tallied ∧ t.StrictSpent) ⟨hc, ht, h⟩
      fun _ _ _ hinv hok hs =>
        ⟨hinv.1.step hok hs, hinv.2.1.step hinv.1 hok hs, hinv.2.2.step hinv.2.1 hinv.1 hs⟩
  exact hinv.2.2

/-- A reader of spent shards adds up their reserves, however slowly. -/
private theorem ReadsTotal.eq_sum {index total value : ℕ} (hread : ReadsTotal m index total value)
    (hc : Conserved config m) (h : m.PeakSpent)
    (htotal : total = (m.engine.reserves.take index).sum) : value = m.engine.reserves.sum := by
  induction hread with
  | @done m index total hend =>
    rw [htotal, List.take_of_length_le]
    exact m.engine.length_reserves.le.trans (Nat.not_lt.mp hend)
  | @next m m' index total value hlen hsteps _ ih =>
    obtain ⟨hc', h', hreserves⟩ := h.steps hc hsteps
    have hlen' : index < m'.engine.reserved.shards.length := by
      rwa [← CounterEngine.length_reserves, hreserves, CounterEngine.length_reserves]
    rw [← hreserves] at htotal ⊢
    refine ih hc' h' ?_
    rw [hc'.wf.sound.add_shard hlen' (htotal.trans (h'.usedBefore_eq hc'.wf.sound _).symm)]
    exact h'.usedBefore_eq hc'.wf.sound _

/-- **Once the end is known, every reader sees the limit.** -/
private theorem ReadsValue.eq_limit {value : ℕ} (hread : ReadsValue m value)
    (hc : Conserved config m) (ht : m.Tallied) (hknown : m.engine.exhausted = true) :
    value = config.limit := by
  cases hread with
  | @peak m' value hsteps hpeak htotal =>
    obtain ⟨hc', ht', hstays, -⟩ := ht.steps hc hsteps
    have hs := hc'.wf.sound
    have hsum : m'.engine.reserves.sum = m'.engine.reserved.limit := hs.bounded.sum_reserve
    calc value = m'.engine.reserves.sum :=
          htotal.eq_sum hc' (ht'.peakSpent (hstays hknown) hpeak) rfl
      _ = m'.engine.localPeak := hsum.trans hs.reserved_limit
      _ = config.limit := by rw [ht'.whole, hs.limit_eq, hc'.config_eq]
  | @strict m' m'' hsteps hmode hrest =>
    obtain ⟨hc', ht', hstays, -⟩ := ht.steps hc hsteps
    have hbalance := ht'.truthful (hstays hknown)
    rw [CounterEngine.balance_of_ne hmode, hc'.wf.sound.limit_eq] at hbalance
    obtain ⟨hc'', -, -⟩ := ht'.steps hc' hrest
    have hspent : m'.StrictSpent := ⟨hstays hknown, hbalance⟩
    rw [(hspent.steps ht' hc' hrest).2, hc''.config_eq]

omit [DecidableEq R] in
/-- With no request in flight nothing is in the hand of a thread. -/
private theorem sum_of_idle (hidle : ∀ r, m.request r = .idle) {f : ApplyPoint → ℕ}
    (hf : f .idle = 0) : ∑ r, f (m.request r) = 0 :=
  Finset.sum_eq_zero fun r _ => by rw [hidle r, hf]

omit [DecidableEq R] in
/-- With no request in flight the limit is known exactly if the accepted amounts add up to it. -/
private theorem Tallied.exhausted_iff (h : m.Tallied) (hc : Conserved config m)
    (hidle : ∀ r, m.request r = .idle) :
    m.engine.exhausted = true ↔ acceptedSum m.returned = config.limit := by
  have hlimit : m.engine.limit = config.limit := by rw [hc.wf.sound.limit_eq, hc.config_eq]
  have hbalance := hc.balance
  rw [accepted, sum_of_idle hidle rfl, Nat.add_zero] at hbalance
  rw [← hbalance, ← hlimit]
  refine ⟨h.truthful, Tally.exhausted_of_alone h hc.wf.sound fun r => ?_⟩
  rw [hidle r]
  rfl

/-- **Limit detection is exact and fires once.** In an engine that owns the whole limit, whatever
its threads do and however their accesses interleave: once the limit is known to be reached, it is
known for good and every reader of the current value sees the limit; with no request in flight the
limit is known as soon as the accepted amounts add up to it; and one event is published exactly
then, never two. -/
theorem limit_detected (publisher : Bool) (hthreads : Fintype.card R < 2 ^ 32)
    (hlimit : 0 < config.limit)
    (hwhole : config.localPeak = config.limit) (hshards : config.shards < 2 ^ 32)
    (h : Steps Machine.step localOnly (initPublishing R config publisher) m) :
    (m.engine.exhausted = true → ∀ m', Steps Machine.step localOnly m m' →
      m'.engine.exhausted = true ∧ ∀ value, ReadsValue m' value → value = config.limit) ∧
    ((∀ r, m.request r = .idle) → acceptedSum m.returned = config.limit →
      m.engine.exhausted = true) ∧
    m.engine.limitEvents.length ≤ 1 ∧
    (m.engine.limitEvents ≠ [] → m.accepted = config.limit) ∧
    (publisher = true → (∀ r, m.request r = .idle) →
      (m.engine.limitEvents.length = 1 ↔ acceptedSum m.returned = config.limit)) := by
  obtain ⟨hc, ht, -, hpublisher⟩ := (tallied_initPublishing publisher hlimit hwhole hshards).steps
    (conserved_initPublishing publisher hthreads) h
  change m.engine.limitReachedPublisher = publisher at hpublisher
  have hevents := ht.events
  have htold : m.engine.told ≤ 1 := Bool.toNat_le _
  refine ⟨fun hknown m' hsteps => ?_, fun hidle => (ht.exhausted_iff hc hidle).mpr, by omega,
    fun hsome => ?_, fun hset hidle => ?_⟩
  · obtain ⟨hc', ht', hstays, -⟩ := ht.steps hc hsteps
    exact ⟨hstays hknown, fun value hread => hread.eq_limit hc' ht' (hstays hknown)⟩
  · have hpos := List.length_pos_iff.mpr hsome
    have hknown : m.engine.exhausted = true := by
      by_contra hnot
      have hzero : m.engine.told = 0 := by simp [CounterEngine.told, hnot]
      omega
    rw [← hc.balance, ht.truthful hknown, hc.wf.sound.limit_eq, hc.config_eq]
  · rw [sum_of_idle hidle rfl, CounterEngine.told, hpublisher, hset, Bool.and_true] at hevents
    rw [← ht.exhausted_iff hc hidle, ← Nat.add_zero m.engine.limitEvents.length, hevents]
    exact Bool.toNat_eq_one

/-- An engine with more shards than units, so that one shard has no capacity. -/
def narrowConfig : CounterEngineConfig where
  limit := 2
  shards := 3
  dangerThreshold := 0
  hotThresholdTps := 1000000
  limit_lt := by decide
  reservation_lt := by decide
  shards_pos := by decide

/-- One unit is spent in strict mode and seeded into the first shard, the other is spent from the
second shard. -/
def narrowRun : List (Action Bool Unit) :=
  .call false ⟨9, 1, 0⟩ :: List.replicate 11 (.run false false) ++
    .invoke () .enterReservedMode :: List.replicate 22 (.advance ()) ++
    .call true ⟨9, 1, 10⟩ :: List.replicate 18 (.run true false)

theorem limit_detected_narrowRun :
    ∃ m : Machine Bool Unit,
      Steps Machine.step localOnly (initPublishing Bool narrowConfig true) m ∧
        m.engine.mode = .reservedPeak ∧ m.engine.exhausted = true ∧
        m.engine.limitEvents.length = 1 ∧ m.accepted = 2 ∧
        ∀ value, ReadsValue m value → value = 2 := by
  have hrun : (exec Machine.step localOnly (initPublishing Bool narrowConfig true)
      narrowRun).map (fun m => decide (m.engine.mode = .reservedPeak ∧
        (∀ r, m.request r = .idle) ∧ acceptedSum m.returned = 2)) = some true := by decide +kernel
  obtain ⟨m, hsteps, hmode, hidle, hsum⟩ := Steps.exists_of_exec hrun
  obtain ⟨hvalue, hknown, -, haccepted, hevent⟩ :=
    limit_detected true (by decide) (by decide) (by decide) (by decide) hsteps
  have hone := (hevent rfl hidle).mpr hsum
  have hsome : m.engine.limitEvents ≠ [] := by
    rintro hnone
    rw [hnone] at hone
    cases hone
  exact ⟨m, hsteps, hmode, hknown hidle hsum, hone, haccepted hsome,
    (hvalue (hknown hidle hsum) m .refl).2⟩

end Machine

end HotCounter
