import HotCounter.Counter.Announcement
import HotCounter.Engine.Conservation

/-!
# How request threads find out that the limit is reached

In the strict modes the request that brings the value to the limit sees it in the value it swapped
in. In peak mode nobody sums the shards: a request that finds its shard full announces the shard,
each announcement is counted, and the request that completes the count finds out. Until then the
engine does not know; what it does not know yet, some thread still has in hand. `Tells` says what
one access of a request thread does to this bookkeeping.
-/

namespace HotCounter

open Foundation

namespace CounterEngine

/-- The shard at an index is full. -/
def Filled (e : CounterEngine) (i : ℕ) : Prop :=
  (ControlPoint.shard e i).used = (ControlPoint.shard e i).reserve

/-- The shard at an index is announced. -/
def Announced (e : CounterEngine) (i : ℕ) : Prop :=
  (ControlPoint.shard e i).exhaustionAnnounced = true

/-- What the published mode detects the limit by stands at its end. -/
def AtEnd (e : CounterEngine) : Prop :=
  if e.mode = .reservedPeak then e.exhaustedPeakShards = e.reserved.shards.length
  else e.strict.value = e.limit

section Mode

variable {e : CounterEngine}

theorem AtEnd.count (h : e.AtEnd) (hmode : e.mode = .reservedPeak) :
    e.exhaustedPeakShards = e.reserved.shards.length := by
  rwa [AtEnd, if_pos hmode] at h

theorem AtEnd.value (h : e.AtEnd) (hmode : e.mode ≠ .reservedPeak) : e.strict.value = e.limit := by
  rwa [AtEnd, if_neg hmode] at h

theorem atEnd_of_count (hmode : e.mode = .reservedPeak)
    (h : e.exhaustedPeakShards = e.reserved.shards.length) : e.AtEnd := by
  rwa [AtEnd, if_pos hmode]

theorem atEnd_of_value (hmode : e.mode ≠ .reservedPeak) (h : e.strict.value = e.limit) :
    e.AtEnd := by
  rwa [AtEnd, if_neg hmode]

theorem balance_of_peak (h : e.mode = .reservedPeak) : e.balance = e.reserved.used := if_pos h

theorem balance_of_ne (h : e.mode ≠ .reservedPeak) : e.balance = e.strict.value := if_neg h

end Mode

/-- The events due: one if the engine knows that the limit is reached and has a publisher. -/
def told (e : CounterEngine) : ℕ := (e.exhausted && e.limitReachedPublisher).toNat

/-- Two engines that agree on everything that limit detection reads and writes. -/
structure SameTally (e e' : CounterEngine) : Prop where
  mode : e'.mode = e.mode
  strict : e'.strict = e.strict
  reserved : e'.reserved = e.reserved
  count : e'.exhaustedPeakShards = e.exhaustedPeakShards
  exhausted : e'.exhausted = e.exhausted
  events : e'.limitEvents = e.limitEvents
  publisher : e'.limitReachedPublisher = e.limitReachedPublisher

namespace SameTally

variable {e e' : CounterEngine}

theorem refl (e : CounterEngine) : SameTally e e := ⟨rfl, rfl, rfl, rfl, rfl, rfl, rfl⟩

theorem filled (h : SameTally e e') (i : ℕ) : e'.Filled i ↔ e.Filled i := by
  unfold Filled ControlPoint.shard
  rw [h.reserved]

theorem announced (h : SameTally e e') (i : ℕ) : e'.Announced i ↔ e.Announced i := by
  unfold Announced ControlPoint.shard
  rw [h.reserved]

theorem atEnd (h : SameTally e e') : e'.AtEnd ↔ e.AtEnd := by
  unfold AtEnd limit
  rw [h.mode, h.strict, h.reserved, h.count]

theorem told (h : SameTally e e') : e'.told = e.told := by
  unfold CounterEngine.told
  rw [h.exhausted, h.publisher]

end SameTally

variable {e : CounterEngine}

theorem shard_mem {i : ℕ} (h : i < e.reserved.shards.length) :
    ControlPoint.shard e i ∈ e.reserved.shards := by
  rw [ControlPoint.shard, List.getD_eq_getElem _ _ h]
  exact List.getElem_mem h

/-- Everything spent means every shard full. -/
theorem Sound.filled_of_used (hs : e.Sound) (hused : e.reserved.used = e.localPeak) {i : ℕ}
    (hi : i < e.reserved.shards.length) : e.Filled i :=
  hs.bounded.full_of_used_eq (hused.trans hs.reserved_limit.symm) (shard_mem hi)

/-- Every shard announced means a complete count. -/
theorem announced_complete (h : ∀ i < e.reserved.shards.length, e.Announced i) :
    e.reserved.announced = e.reserved.shards.length := by
  refine ReservedCounter.announced_eq_length fun s hmem => ?_
  obtain ⟨i, hi, rfl⟩ := List.getElem_of_mem hmem
  have hannounced := h i hi
  rwa [Announced, ControlPoint.shard, List.getD_eq_getElem _ _ hi] at hannounced

end CounterEngine

namespace ApplyPoint

open CounterEngine (SameTally)

/-- The full shard that the thread may have to announce. -/
def announcing : ApplyPoint → Option ℕ
  | .rememberHas _ mode result | .rememberCompare _ mode result | .rememberStore _ mode result
  | .rememberFlag _ mode result => if mode = .reservedPeak then some result.shard else none
  | .announceLoad _ result | .announceSwap _ result => some result.shard
  | _ => none

/-- The thread has announced a shard and not counted it. -/
def counting : ApplyPoint → ℕ
  | .countShard _ _ => 1
  | _ => 0

/-- The thread has found out that the limit is reached and not told the engine. -/
def telling (limit : ℕ) : ApplyPoint → Prop
  | .rememberHas _ mode result | .rememberCompare _ mode result | .rememberStore _ mode result
  | .rememberFlag _ mode result => mode ≠ .reservedPeak ∧ result.observed = limit
  | .markExhausted _ _ => True
  | _ => False

/-- The thread was the first to tell the engine and has not published the event. -/
def publishing (publisher : Bool) : ApplyPoint → ℕ
  | .loadPublisher _ _ => publisher.toNat
  | .publishLimit _ _ => 1
  | _ => 0

/-- A thread that has none of this in hand. -/
structure Unburdened (p : ApplyPoint) : Prop where
  announcing : p.announcing = none
  counting : p.counting = 0
  telling : ∀ limit, ¬ p.telling limit
  publishing : ∀ publisher, p.publishing publisher = 0

theorem unburdened_of_not_inside {p : ApplyPoint} (h : p.inside = false) : p.Unburdened := by
  cases p with
  | idle | checkExhausted | checkOpen | enter | recheckOpen | backOut =>
    exact ⟨rfl, rfl, fun _ => id, fun _ => rfl⟩
  | _ => cases h

/-- What a thread that has accepted its request knows. -/
def Reports (e : CounterEngine) : ApplyPoint → Prop
  | .rememberHas _ mode result | .rememberCompare _ mode result | .rememberStore _ mode result
  | .rememberFlag _ mode result =>
    mode = e.mode ∧ (mode = .reservedPeak → result.shard < e.reserved.shards.length) ∧
      (mode ≠ .reservedPeak → result.observed ≤ e.strict.value)
  | .announceLoad _ result => e.mode = .reservedPeak ∧ result.shard < e.reserved.shards.length
  | .announceSwap _ result =>
    e.mode = .reservedPeak ∧ result.shard < e.reserved.shards.length ∧ e.Filled result.shard
  | .countShard _ _ => e.mode = .reservedPeak
  | .markExhausted _ _ => e.balance = e.limit
  | _ => True

theorem reports_of_not_inside {e : CounterEngine} {p : ApplyPoint} (h : p.inside = false) :
    p.Reports e := by
  cases p with
  | idle | checkExhausted | checkOpen | enter | recheckOpen | backOut => trivial
  | _ => cases h

variable {e e' : CounterEngine} {p p' q : ApplyPoint}

/-- What a thread knows stays true while the mode stands and the counters grow. -/
theorem Reports.mono (h : q.Reports e) (hmode : e'.mode = e.mode)
    (hlength : e'.reserved.shards.length = e.reserved.shards.length)
    (hstrict : e.strict.value ≤ e'.strict.value) (hlimit : e'.limit = e.limit)
    (hfilled : ∀ i < e.reserved.shards.length, e.Filled i → e'.Filled i)
    (hbalance : e.balance = e.limit → e'.balance = e.limit) : q.Reports e' := by
  cases q with
  | rememberHas | rememberCompare | rememberStore | rememberFlag =>
    obtain ⟨hserving, hshard, hobserved⟩ := h
    exact ⟨hserving.trans hmode.symm, fun hpeak => hlength.symm ▸ hshard hpeak,
      fun hpeak => (hobserved hpeak).trans hstrict⟩
  | announceLoad => exact ⟨hmode.trans h.1, hlength.symm ▸ h.2⟩
  | announceSwap => exact ⟨hmode.trans h.1, hlength.symm ▸ h.2.1, hfilled _ h.2.1 h.2.2⟩
  | countShard => exact hmode.trans h
  | markExhausted => exact (hbalance h).trans hlimit.symm
  | _ => trivial

theorem Reports.congr (h : q.Reports e) (hsame : SameTally e e') : q.Reports e' := by
  refine h.mono hsame.mode (by rw [hsame.reserved]) (by rw [hsame.strict])
    (congrArg StrictCounter.limit hsame.strict) (fun i _ => (hsame.filled i).mpr) fun hbalance => ?_
  rw [← hbalance]
  unfold CounterEngine.balance
  rw [hsame.mode, hsame.reserved, hsame.strict]

/-- What one access of a request thread does to the bookkeeping of limit detection. -/
structure Tells (e : CounterEngine) (p : ApplyPoint) (e' : CounterEngine) (p' : ApplyPoint) :
    Prop where
  publisher : e'.limitReachedPublisher = e.limitReachedPublisher
  reports : p'.Reports e'
  fills : ∀ i < e.reserved.shards.length, e.Filled i → e'.Filled i
  honest : e.reserved.Honest → e'.reserved.Honest
  /-- an announcement is counted or in the thread's hand -/
  counted : e'.exhaustedPeakShards + p'.counting + e.reserved.announced =
    e.exhaustedPeakShards + p.counting + e'.reserved.announced
  /-- a full shard is announced, or in the thread's hand, or it was neither before -/
  filled : ∀ i < e.reserved.shards.length, e'.Filled i → e'.Announced i ∨
    p'.announcing = some i ∨ e.Filled i ∧ ¬ e.Announced i ∧ p.announcing ≠ some i
  /-- an engine at its end knows it, or the thread does, or neither did before -/
  atEnd : e'.AtEnd → e'.exhausted = true ∨ p'.telling e.limit ∨ e.AtEnd ∧ ¬ p.telling e.limit
  exhausted : e.exhausted = true → e'.exhausted = true
  truthful : e'.exhausted = true → e.exhausted = true ∨ e.balance = e.limit
  /-- an event is published or in the thread's hand exactly if it is due -/
  events : e'.limitEvents.length + p'.publishing e.limitReachedPublisher + e.told =
    e.limitEvents.length + p.publishing e.limitReachedPublisher + e'.told

/-- An access that changes nothing that limit detection reads. -/
theorem Tells.silent (hsame : SameTally e e') (hreports : p'.Reports e)
    (hannouncing : ∀ i, p.announcing = some i →
      p'.announcing = some i ∨ ¬ e.Filled i ∨ e.Announced i)
    (hcounting : p'.counting = p.counting)
    (htelling : p.telling e.limit → p'.telling e.limit ∨ e.exhausted = true)
    (hpublishing :
      p'.publishing e.limitReachedPublisher = p.publishing e.limitReachedPublisher) :
    Tells e p e' p' where
  publisher := hsame.publisher
  reports := hreports.congr hsame
  fills i _ := (hsame.filled i).mpr
  honest h := by
    rw [hsame.reserved]
    exact h
  counted := by rw [hsame.count, hsame.reserved, hcounting]
  filled i _ hfull := by
    rw [hsame.announced]
    have hfull := (hsame.filled i).mp hfull
    by_cases hann : e.Announced i
    · exact .inl hann
    by_cases hhand : p.announcing = some i
    · rcases hannouncing i hhand with hkeep | hnot | hdone
      · exact .inr (.inl hkeep)
      · exact absurd hfull hnot
      · exact absurd hdone hann
    · exact .inr (.inr ⟨hfull, hann, hhand⟩)
  atEnd hend := by
    have hend := hsame.atEnd.mp hend
    rw [hsame.exhausted]
    by_cases htell : p.telling e.limit
    · rcases htelling htell with hkeep | hknown
      · exact .inr (.inl hkeep)
      · exact .inl hknown
    · exact .inr (.inr ⟨hend, htell⟩)
  exhausted h := hsame.exhausted.trans h
  truthful h := .inl (hsame.exhausted.symm.trans h)
  events := by rw [hsame.events, hsame.told, hpublishing]

/-- An access before the request is accepted, or one that ends a call. -/
theorem Tells.outside (hsame : SameTally e e') (hp : p.Unburdened) (hp' : p'.Unburdened)
    (hreports : p'.Reports e) : Tells e p e' p' := by
  refine .silent hsame hreports (fun i hi => ?_) (hp'.counting.trans hp.counting.symm)
    (fun htell => absurd htell (hp.telling _)) ((hp'.publishing _).trans (hp.publishing _).symm)
  rw [hp.announcing] at hi
  cases hi

/-! ### The accesses that write -/

/-- A shard that is not in the thread's hand. -/
private theorem filled_of_idle {i : ℕ} (hp : p.announcing = none) (hfull : e.Filled i) :
    e.Announced i ∨ p'.announcing = some i ∨
      e.Filled i ∧ ¬ e.Announced i ∧ p.announcing ≠ some i := by
  by_cases hann : e.Announced i
  · exact .inl hann
  · refine .inr (.inr ⟨hfull, hann, fun hhand => ?_⟩)
    rw [hp] at hhand
    cases hhand

/-- A compare-and-swap that brings the strict value to the limit leaves the thread knowing it. -/
private theorem tells_strictSwap {request : Request} {mode : RoutingMode}
    (hf : (strictSwap request mode e.strict.value).Fits e) (hserving : mode = e.mode) :
    Tells e (.strictSwap request mode e.strict.value)
      { e with strict := { e.strict with value := (e.strict.value + request.delta) % 2 ^ 64 } }
      (.rememberHas request mode
        ⟨.accepted, (e.strict.value + request.delta) % 2 ^ 64, 0⟩) := by
  obtain ⟨hmode, -⟩ := hf
  have hpeak : mode ≠ .reservedPeak := by
    rcases hmode with rfl | rfl <;> simp
  constructor
  case reports => exact ⟨hserving, fun h => absurd h hpeak, fun _ => Nat.le_refl _⟩
  case filled => exact fun i _ hfull => filled_of_idle rfl hfull
  case atEnd =>
    intro hend
    exact .inr (.inl ⟨hpeak, hend.value (hserving ▸ hpeak)⟩)
  case fills => exact fun _ _ => id
  case honest => exact id
  case exhausted => exact id
  case truthful => exact .inl
  all_goals rfl

/-- A compare-and-swap on a shard leaves the thread responsible for the shard. -/
private theorem tells_shardSwap (hs : e.Sound) {request : Request} {current : ℕ}
    (hf : (shardSwap request current).Fits e)
    (hcurrent :
      (e.reserved.shardAt (CounterEngine.shardFor e.config request.routeHash)).used = current)
    (hmode : e.mode = .reservedPeak) :
    Tells e (.shardSwap request current)
      { e with
        reserved := e.reserved.setShard (CounterEngine.shardFor e.config request.routeHash)
          { e.reserved.shardAt (CounterEngine.shardFor e.config request.routeHash) with
            used := (current + request.delta) % 2 ^ 64 } }
      (.rememberHas request .reservedPeak
        ⟨.accepted, (current + request.delta) % 2 ^ 64, selected e request⟩) := by
  set id := CounterEngine.shardFor e.config request.routeHash with hid
  have hle : current + request.delta ≤ (e.reserved.shardAt id).reserve := by
    simpa only [Fits, e.length_reserves, e.getD_reserves, ReservedCounter.shardAt] using hf
  have hmod : (current + request.delta) % 2 ^ 64 = current + request.delta := by
    have hreserve : (e.reserved.shardAt id).reserve ≤ e.config.localPeak := by
      rw [← hs.reserved_limit, ← hs.bounded.sum_reserve]
      exact List.single_le_sum (fun _ _ => Nat.zero_le _) _
        (List.mem_map_of_mem (hs.bounded.shardAt_mem id))
    exact Nat.mod_eq_of_lt (by have := e.config.localPeak_lt; omega)
  rw [hmod]
  subst hcurrent
  constructor
  case reports =>
    refine ⟨hmode.symm, fun _ => ?_, fun h => absurd rfl h⟩
    exact (hs.bounded.index_lt id).trans_eq List.length_set.symm
  case fills =>
    intro i _ hfull
    unfold CounterEngine.Filled at hfull ⊢
    rw [CounterEngine.shard_write hs]
    split
    · subst_vars
      dsimp only
      change (e.reserved.shardAt id).used = (e.reserved.shardAt id).reserve at hfull
      omega
    · exact hfull
  case honest => exact fun h => (h.spend hs.bounded hle).1
  case counted =>
    dsimp only
    rw [hs.bounded.announced_setUsed]
    rfl
  -- a shard that this delta fills is in the thread's hand; the others are as they were
  case filled =>
    intro i _ hfull
    by_cases hi : i = id % e.reserved.shards.length
    · subst hi
      exact .inr (.inl rfl)
    · unfold CounterEngine.Filled at hfull
      unfold CounterEngine.Announced
      rw [CounterEngine.shard_write hs, if_neg hi] at hfull ⊢
      by_cases hann : e.Announced i
      · exact .inl hann
      · exact .inr (.inr ⟨hfull, hann, by simp [announcing]⟩)
  case atEnd =>
    intro hend
    refine .inr (.inr ⟨CounterEngine.atEnd_of_count hmode ?_, fun h => h⟩)
    exact (hend.count hmode).trans List.length_set
  case exhausted => exact fun h => h
  case truthful => exact .inl
  all_goals rfl

/-- An announcement puts the shard into the thread's hand until it is counted. -/
private theorem tells_announceSwap (hs : e.Sound) {request : Request} {result : Result}
    (hreports : (announceSwap request result).Reports e)
    (hnew : ¬ (e.reserved.shardAt result.shard).exhaustionAnnounced = true) :
    Tells e (.announceSwap request result)
      { e with
        reserved := e.reserved.setShard result.shard
          { e.reserved.shardAt result.shard with exhaustionAnnounced := true } }
      (.countShard request result) := by
  obtain ⟨hmode, hlen, hfull⟩ := hreports
  have hindex : result.shard % e.reserved.shards.length = result.shard := Nat.mod_eq_of_lt hlen
  have hat : e.reserved.shardAt result.shard = ControlPoint.shard e result.shard := by
    unfold ReservedCounter.shardAt ControlPoint.shard
    rw [hindex]
  constructor
  case reports => exact hmode
  case fills =>
    intro i _ hi
    unfold CounterEngine.Filled at hi ⊢
    rw [CounterEngine.shard_write hs]
    split
    · rw [hat]
      exact hfull
    · exact hi
  case honest =>
    refine fun h => h.set _ fun _ => ?_
    rw [hat]
    exact hfull
  case counted =>
    dsimp only
    rw [hs.bounded.announced_announce hnew]
    simp only [counting]
    omega
  case filled =>
    intro i _ hi
    unfold CounterEngine.Filled at hi
    unfold CounterEngine.Announced
    rw [CounterEngine.shard_write hs] at hi ⊢
    rw [hindex] at hi ⊢
    by_cases hsame : i = result.shard
    · rw [if_pos hsame]
      exact .inl rfl
    · rw [if_neg hsame] at hi ⊢
      by_cases hann : e.Announced i
      · exact .inl hann
      · refine .inr (.inr ⟨hi, hann, fun hhand => hsame ?_⟩)
        exact (Option.some.inj hhand).symm
  case atEnd =>
    intro hend
    refine .inr (.inr ⟨CounterEngine.atEnd_of_count hmode ?_, fun h => h⟩)
    exact (hend.count hmode).trans List.length_set
  case exhausted => exact fun h => h
  case truthful => exact .inl
  all_goals rfl

/-- The announcement that completes the count makes the thread find out. -/
private theorem tells_countShard {request : Request} {result : Result}
    (hmode : e.mode = .reservedPeak) (hshort : e.reserved.shards.length < 2 ^ 32)
    (hroom : e.exhaustedPeakShards < e.reserved.shards.length)
    (hlast : e.exhaustedPeakShards + 1 = e.reserved.shards.length → e.balance = e.limit) :
    Tells e (.countShard request result)
      { e with exhaustedPeakShards := (e.exhaustedPeakShards + 1) % 2 ^ 32 }
      (if (e.exhaustedPeakShards + 1) % 2 ^ 32 = e.reserved.shards.length then
        .markExhausted request result else .leave request result) := by
  have hmod : (e.exhaustedPeakShards + 1) % 2 ^ 32 = e.exhaustedPeakShards + 1 :=
    Nat.mod_eq_of_lt (by omega)
  rw [hmod]
  constructor
  case reports =>
    split
    · rename_i hend
      exact hlast hend
    · trivial
  case counted =>
    dsimp only
    split <;> simp only [counting]
  case filled => exact fun i _ hfull => filled_of_idle rfl hfull
  case atEnd =>
    intro hend
    rw [if_pos (hend.count hmode)]
    exact .inr (.inl trivial)
  case events => split <;> rfl
  case fills => exact fun _ _ => id
  case honest => exact id
  case exhausted => exact id
  case truthful => exact .inl
  case publisher => rfl

/-- The first thread that tells the engine goes on to publish the event. -/
private theorem tells_markExhausted {request : Request} {result : Result}
    (hreports : (markExhausted request result).Reports e) (hnew : ¬ e.exhausted = true) :
    Tells e (.markExhausted request result) { e with exhausted := true }
      (.loadPublisher request result) := by
  constructor
  case filled => exact fun i _ hfull => filled_of_idle rfl hfull
  case events =>
    have hold : e.exhausted = false := by simpa using hnew
    simp [CounterEngine.told, publishing, hold]
  case reports => trivial
  case atEnd => exact fun _ => .inl rfl
  case exhausted => exact fun _ => rfl
  case truthful => exact fun _ => .inr hreports
  case fills => exact fun _ _ => id
  case honest => exact id
  all_goals rfl

private theorem tells_publishLimit {request : Request} {result : Result} :
    Tells e (.publishLimit request result)
      { e with limitEvents := ⟨request.counter, e.limit, e.replicationEpoch⟩ :: e.limitEvents }
      (.leave request result) := by
  constructor
  case filled => exact fun i _ hfull => filled_of_idle rfl hfull
  case reports => trivial
  case atEnd => exact fun hend => .inr (.inr ⟨hend, id⟩)
  case fills => exact fun _ _ => id
  case honest => exact id
  case exhausted => exact id
  case truthful => exact .inl
  all_goals rfl

/-- Once the counter is remembered, a thread that decided strictly has found out or not, and one
that decided in peak mode looks at its shard. -/
private theorem tells_afterRemember (hs : e.Sound) (hwhole : e.localPeak = e.limit)
    (hsame : SameTally e e') (request : Request) {mode : RoutingMode} {result : Result}
    (hreports : (rememberHas request mode result).Reports e)
    (hannouncing : p.announcing = (rememberHas request mode result).announcing)
    (hcounting : p.counting = 0)
    (htelling : p.telling e.limit → (rememberHas request mode result).telling e.limit)
    (hpublishing : p.publishing e.limitReachedPublisher = 0) :
    Tells e p e' (afterRemember e request mode result) := by
  obtain ⟨hmode, hshard, hobserved⟩ := hreports
  by_cases hpeak : mode = .reservedPeak
  · -- only a process that owns the whole limit detects it
    have hnext : afterRemember e request mode result = .announceLoad request result := by
      rw [afterRemember, if_neg (not_not.mpr hpeak), if_pos hwhole]
    rw [hnext]
    refine .silent hsame ⟨hmode.symm.trans hpeak, hshard hpeak⟩ (fun i hi => .inl ?_)
      hcounting.symm (fun htell => absurd hpeak (htelling htell).1) hpublishing.symm
    rw [hannouncing] at hi
    simpa [announcing, hpeak] using hi
  · have hnone : ∀ {i}, p.announcing ≠ some i := by
      intro i hi
      rw [hannouncing] at hi
      simp [announcing, hpeak] at hi
    rw [afterRemember, if_pos hpeak]
    split
    · rename_i hend
      have hle : e.strict.value ≤ e.limit := hs.value_le.trans_eq hs.limit_eq.symm
      have hbalance : e.balance = e.limit := by
        rw [CounterEngine.balance_of_ne (hmode ▸ hpeak)]
        exact Nat.le_antisymm hle (hend.symm.le.trans (hobserved hpeak))
      exact .silent hsame hbalance (fun i hi => absurd hi hnone) hcounting.symm
        (fun _ => .inl trivial) hpublishing.symm
    · rename_i hshort
      exact .silent hsame trivial (fun i hi => absurd hi hnone) hcounting.symm
        (fun htell => absurd (htelling htell).2 hshort) hpublishing.symm

/-- The decision on a value just read leaves nothing in the thread's hand. -/
private theorem unburdened_strictDecide (limit : ℕ) (request : Request) (mode : RoutingMode)
    (current : ℕ) : (strictDecide limit request mode current).Unburdened ∧
      (strictDecide limit request mode current).Reports e := by
  unfold strictDecide
  split <;> exact ⟨⟨rfl, rfl, fun _ => id, fun _ => rfl⟩, trivial⟩

private theorem unburdened_shardDecide (reserve selected : ℕ) (request : Request) (current : ℕ) :
    (shardDecide reserve selected request current).Unburdened ∧
      (shardDecide reserve selected request current).Reports e := by
  unfold shardDecide
  split <;> exact ⟨⟨rfl, rfl, fun _ => id, fun _ => rfl⟩, trivial⟩

/-- **What one access of a request thread tells.** -/
theorem step_tells (hs : e.Sound) (spurious : Bool) (hf : p.Fits e) (hreports : p.Reports e)
    (hserving : ∀ mode, p.serving = some mode → mode = e.mode) (hwhole : e.localPeak = e.limit)
    (hshort : e.reserved.shards.length < 2 ^ 32)
    (hroom : p.counting = 1 → e.exhaustedPeakShards < e.reserved.shards.length)
    (hlast : p.counting = 1 → e.exhaustedPeakShards + 1 = e.reserved.shards.length →
      e.balance = e.limit) :
    Tells e p (p.step e spurious).1 (p.step e spurious).2.1 := by
  have hfree : ∀ p : ApplyPoint, p.inside = false → p.Unburdened ∧ p.Reports e :=
    fun p hp => ⟨unburdened_of_not_inside hp, reports_of_not_inside hp⟩
  have hquiet : ∀ {p' e'}, p.Unburdened → SameTally e e' → p'.Unburdened ∧ p'.Reports e →
      Tells e p e' p' := fun hp hsame hp' => .outside hsame hp hp'.1 hp'.2
  have hfresh : SameTally e e := .refl e
  cases p with
  | idle => exact hquiet (hfree _ rfl).1 hfresh (hfree _ rfl)
  | checkExhausted request | checkOpen request | recheckOpen request =>
    simp only [step]
    split
    · exact hquiet (hfree _ rfl).1 hfresh ⟨⟨rfl, rfl, fun _ => id, fun _ => rfl⟩, trivial⟩
    · exact hquiet (hfree _ rfl).1 hfresh (hfree _ rfl)
  | enter request | backOut request =>
    exact hquiet (hfree _ rfl).1 ⟨rfl, rfl, rfl, rfl, rfl, rfl, rfl⟩ (hfree _ rfl)
  | loadMode request =>
    simp only [step]
    split <;>
      exact hquiet ⟨rfl, rfl, fun _ => id, fun _ => rfl⟩ hfresh
        ⟨⟨rfl, rfl, fun _ => id, fun _ => rfl⟩, trivial⟩
  | strictLoad request mode =>
    exact hquiet ⟨rfl, rfl, fun _ => id, fun _ => rfl⟩ hfresh (unburdened_strictDecide _ _ _ _)
  -- the accesses that spend: what they fill is in the thread's hand from here on
  | strictSwap request mode current =>
    simp only [step]
    split
    · rename_i hswap
      simp only [Bool.and_eq_true, beq_iff_eq] at hswap
      obtain rfl := hswap.2
      exact tells_strictSwap hf (hserving mode rfl)
    · exact hquiet ⟨rfl, rfl, fun _ => id, fun _ => rfl⟩ hfresh (unburdened_strictDecide _ _ _ _)
  | shardLoad request =>
    exact hquiet ⟨rfl, rfl, fun _ => id, fun _ => rfl⟩ hfresh (unburdened_shardDecide _ _ _ _)
  | shardSwap request current =>
    simp only [step]
    split
    · rename_i hswap
      simp only [Bool.and_eq_true, beq_iff_eq] at hswap
      exact tells_shardSwap hs hf hswap.2 (hserving _ rfl).symm
    · exact hquiet ⟨rfl, rfl, fun _ => id, fun _ => rfl⟩ hfresh (unburdened_shardDecide _ _ _ _)
  | remoteLoad request =>
    exact hquiet ⟨rfl, rfl, fun _ => id, fun _ => rfl⟩ hfresh
      ⟨⟨rfl, rfl, fun _ => id, fun _ => rfl⟩, trivial⟩
  | rememberHas request mode result =>
    simp only [step]
    split <;> exact .silent hfresh hreports (fun _ => .inl) rfl .inl rfl
  | rememberCompare request mode result =>
    simp only [step]
    split
    · exact tells_afterRemember hs hwhole hfresh request hreports rfl rfl id rfl
    · exact .silent hfresh hreports (fun _ => .inl) rfl .inl rfl
  | rememberStore request mode result =>
    exact .silent ⟨rfl, rfl, rfl, rfl, rfl, rfl, rfl⟩ hreports (fun _ => .inl) rfl .inl rfl
  | rememberFlag request mode result =>
    refine tells_afterRemember hs hwhole ?_ request hreports rfl rfl id rfl
    exact ⟨rfl, rfl, rfl, rfl, rfl, rfl, rfl⟩
  -- the accesses that announce what is in hand
  | announceLoad request result =>
    obtain ⟨hmode, hlen⟩ := hreports
    have hat : e.Filled result.shard ↔
        (e.reserved.shardAt result.shard).used = (e.reserved.shardAt result.shard).reserve := by
      unfold CounterEngine.Filled ReservedCounter.shardAt ControlPoint.shard
      rw [Nat.mod_eq_of_lt hlen]
    simp only [step]
    split
    · rename_i hshort
      refine .silent hfresh trivial (fun i hi => .inr (.inl ?_)) rfl (fun h => h.elim) rfl
      obtain rfl := Option.some.inj hi
      exact fun hfull => hshort (hat.mp hfull)
    · rename_i hfull
      exact .silent hfresh ⟨hmode, hlen, hat.mpr (not_not.mp hfull)⟩ (fun _ => .inl) rfl .inl rfl
  | announceSwap request result =>
    simp only [step]
    split
    · rename_i hold
      refine .silent hfresh trivial (fun i hi => .inr (.inr ?_)) rfl (fun h => h.elim) rfl
      obtain rfl := Option.some.inj hi
      unfold ReservedCounter.shardAt at hold
      rwa [Nat.mod_eq_of_lt hreports.2.1] at hold
    · exact tells_announceSwap hs hreports ‹_›
  | countShard request result =>
    have htells : Tells e (.countShard request result) _ _ :=
      tells_countShard hreports hshort (hroom rfl) (hlast rfl)
    simp only [step]
    split at htells
    · rename_i hend
      rw [if_pos hend]
      exact htells
    · rename_i hend
      rw [if_neg hend]
      exact htells
  | markExhausted request result =>
    simp only [step]
    split
    · rename_i hknown
      exact .silent hfresh trivial (fun _ => .inl) rfl (fun _ => .inr hknown) rfl
    · exact tells_markExhausted hreports ‹_›
  | loadPublisher request result =>
    simp only [step]
    split
    · rename_i hset
      exact .silent hfresh trivial (fun _ => .inl) rfl .inl (by simp [publishing, hset])
    · rename_i hunset
      exact .silent hfresh trivial (fun _ => .inl) rfl .inl (by simp [publishing, hunset])
  | publishLimit request result => exact tells_publishLimit
  | leave request result =>
    exact hquiet ⟨rfl, rfl, fun _ => id, fun _ => rfl⟩ ⟨rfl, rfl, rfl, rfl, rfl, rfl, rfl⟩
      (hfree _ rfl)

end ApplyPoint

end HotCounter
