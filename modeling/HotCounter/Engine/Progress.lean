import HotCounter.Engine.Conservation
import HotCounter.Foundation.Progress

/-!
# Request threads make progress

A call of `apply` waits for nobody. Left alone it returns within eighteen accesses, wherever its
thread stands (`ApplyPoint.left`); a compare-and-swap fails only if another call has spent since
this one read the counter, or spuriously. So over a whole run the calls cost at most a constant
number of accesses each, plus one for every other thread and one for every spurious failure
(`Machine.accesses_le`).

The control thread waits only for threads that are inside. From every state that a run reaches, the
calls can be brought to their ends, the control thread with them, and the gate opens again unless a
handoff holds it (`Machine.can_settle`).
-/

namespace HotCounter

open Foundation

namespace ApplyPoint

/-- The accesses left to a thread that nobody disturbs. -/
def left (e : CounterEngine) : ApplyPoint → ℕ
  | .idle => 0
  | .checkExhausted _ => 18
  | .checkOpen _ => 17
  | .enter _ => 16
  | .recheckOpen _ => 15
  | .backOut _ => 1
  | .loadMode _ => 14
  | .strictLoad _ _ => 13
  | .strictSwap _ _ current => if e.strict.value = current then 12 else 13
  | .shardLoad _ => 13
  | .shardSwap request current =>
    if (e.reserved.shardAt (CounterEngine.shardFor e.config request.routeHash)).used = current
    then 12
    else 13
  | .remoteLoad _ => 2
  | .rememberHas _ _ _ => 11
  | .rememberCompare _ _ _ => 10
  | .rememberStore _ _ _ => 9
  | .rememberFlag _ _ _ => 8
  | .announceLoad _ _ => 7
  | .announceSwap _ _ => 6
  | .countShard _ _ => 5
  | .markExhausted _ _ => 4
  | .loadPublisher _ _ => 3
  | .publishLimit _ _ => 2
  | .leave _ _ => 1

/-- The call has spent nothing yet. -/
def unspent : ApplyPoint → Bool
  | .checkExhausted _ | .checkOpen _ | .enter _ | .recheckOpen _ | .loadMode _ | .strictLoad _ _
  | .strictSwap _ _ _ | .shardLoad _ | .shardSwap _ _ | .remoteLoad _ => true
  | _ => false

/-- The thread stands before a compare-and-swap. -/
def swapping : ApplyPoint → Bool
  | .strictSwap _ _ _ | .shardSwap _ _ => true
  | _ => false

variable {e e' : CounterEngine} {p : ApplyPoint}

theorem left_eq_zero : p.left e = 0 ↔ p = .idle := by
  cases p with
  | strictSwap | shardSwap =>
    simp only [left]
    split <;> simp
  | _ => simp [left]

/-- Whatever others do costs a thread at most one more access. -/
theorem left_le_succ (e e' : CounterEngine) (p : ApplyPoint) : p.left e' ≤ p.left e + 1 := by
  cases p with
  | strictSwap | shardSwap =>
    simp only [left]
    split <;> split <;> omega
  | _ => simp [left]

/-- It costs nothing while the counters stand still. -/
theorem left_congr (h : p.swapping = true → e'.config = e.config ∧
    e'.strict.value = e.strict.value ∧ ∀ id, (e'.reserved.shardAt id).used =
      (e.reserved.shardAt id).used) : p.left e' = p.left e := by
  cases p with
  | strictSwap | shardSwap =>
    obtain ⟨hconfig, hstrict, hshards⟩ := h rfl
    simp only [left, hconfig, hstrict, hshards]
  | _ => rfl

private theorem left_strictDecide (limit : ℕ) (request : Request) (mode : RoutingMode) :
    (strictDecide limit request mode e.strict.value).left e ≤ 12 := by
  unfold strictDecide
  split <;> simp [left]

private theorem left_shardDecide (reserve selected : ℕ) (request : Request) :
    (shardDecide reserve selected request
      (e.reserved.shardAt (CounterEngine.shardFor e.config request.routeHash)).used).left e ≤
        12 := by
  unfold shardDecide
  split <;> simp [left]

private theorem left_afterRemember (e' : CounterEngine) (request : Request) (mode : RoutingMode)
    (result : Result) : (afterRemember e request mode result).left e' ≤ 7 := by
  unfold afterRemember
  split
  · split <;> simp [left]
  · split <;> simp [left]

private theorem left_strictSwap (request : Request) (mode : RoutingMode) (current : ℕ) :
    (strictSwap request mode current).left e = if e.strict.value = current then 12 else 13 := rfl

private theorem left_shardSwap (request : Request) (current : ℕ) :
    (shardSwap request current).left e =
      if (e.reserved.shardAt (CounterEngine.shardFor e.config request.routeHash)).used =
        current then
        12
      else 13 := rfl

/-- **Every access of a call brings it closer to its end**, but for a spurious failure. -/
theorem left_step (spurious : Bool) (hp : p ≠ .idle) :
    (p.step e spurious).2.1.left (p.step e spurious).1 + 1 ≤ p.left e + spurious.toNat := by
  have hdown : ∀ {e' : CounterEngine} {p' : ApplyPoint} {log : List (Request × Result)},
      p.step e spurious = (e', p', log) → p'.left e' + 1 ≤ p.left e →
      (p.step e spurious).2.1.left (p.step e spurious).1 + 1 ≤ p.left e + spurious.toNat := by
    intro e' p' log heq hle
    rw [heq]
    exact hle.trans (Nat.le_add_right _ _)
  cases p with
  | idle => exact absurd rfl hp
  | strictLoad request mode =>
    refine hdown rfl ?_
    have hle := left_strictDecide (e := e) e.strict.limit request mode
    exact Nat.succ_le_succ hle
  | strictSwap request mode current =>
    have hle := left_strictDecide (e := e) e.strict.limit request mode
    by_cases hswap : (!spurious && e.strict.value == current) = true
    · rw [step, if_pos hswap, left_strictSwap]
      change 11 + 1 ≤ _
      split <;> omega
    · rw [step, if_neg hswap, left_strictSwap]
      -- a failure that is not spurious met another value
      cases spurious with
      | true =>
        simp only [Bool.toNat_true]
        split <;> omega
      | false =>
        have hne : ¬ e.strict.value = current := by simpa using hswap
        rw [if_neg hne]
        simp only [Bool.toNat_false]
        omega
  | shardLoad request =>
    refine hdown rfl ?_
    exact Nat.succ_le_succ (left_shardDecide _ _ request)
  | shardSwap request current =>
    have hle := left_shardDecide (e := e)
      (e.reserved.shardAt (CounterEngine.shardFor e.config request.routeHash)).reserve
      (selected e request) request
    by_cases hswap : (!spurious &&
      (e.reserved.shardAt (CounterEngine.shardFor e.config request.routeHash)).used == current) =
        true
    · simp only [step, hswap, if_true]
      rw [left_shardSwap]
      change 11 + 1 ≤ _
      split <;> omega
    · simp only [step, if_neg hswap]
      rw [left_shardSwap]
      cases spurious with
      | true =>
        simp only [Bool.toNat_true]
        split <;> omega
      | false =>
        have hne : ¬ (e.reserved.shardAt
            (CounterEngine.shardFor e.config request.routeHash)).used = current := by
          simpa using hswap
        rw [if_neg hne]
        simp only [Bool.toNat_false]
        omega
  | rememberCompare request mode result =>
    simp only [step]
    split
    · have hle := left_afterRemember (e := e) e request mode result
      simp only [left] at hle ⊢
      omega
    · exact Nat.le_trans (by simp [left]) (Nat.le_add_right _ _)
  | rememberFlag request mode result =>
    refine hdown rfl ?_
    exact Nat.succ_le_succ (left_afterRemember _ request mode result)
  | _ =>
    simp only [step]
    repeat' split
    all_goals exact Nat.le_trans (by simp [left]) (Nat.le_add_right _ _)

/-- A call that has spent, or was refused, stays so until it returns. -/
theorem unspent_step (e : CounterEngine) (spurious : Bool)
    (h : (p.step e spurious).2.1.unspent = true) : p.unspent = true := by
  cases p with
  | idle | backOut | rememberStore | publishLimit | leave => cases h
  | rememberHas | announceLoad | announceSwap | countShard | markExhausted | loadPublisher =>
    simp only [step] at h
    split at h <;> cases h
  | rememberCompare | rememberFlag =>
    simp only [step, afterRemember] at h
    repeat' split at h
    all_goals cases h
  | _ => rfl

/-- Writing the flag of a shard changes no count. -/
private theorem used_announce (c : ReservedCounter) (shard : ℕ) (announced : Bool) (id : ℕ) :
    ((c.setShard shard { c.shardAt shard with exhaustionAnnounced := announced }).shardAt id).used =
      (c.shardAt id).used := by
  have hmap := map_set_of_eq Shard.used { c.shardAt shard with exhaustionAnnounced := announced }
    default c.shards (shard % c.shards.length) rfl
  have hread : ∀ c : ReservedCounter, (c.shardAt id).used =
      (c.shards.map Shard.used).getD (id % c.shards.length) 0 :=
    fun c => (List.getD_map c.shards default Shard.used).symm
  rw [hread, hread]
  dsimp only [ReservedCounter.setShard]
  rw [hmap, List.length_set]

/-- Only an access at which a call spends costs the others anything. -/
theorem left_others (e : CounterEngine) (spurious : Bool) (p : ApplyPoint) :
    (∀ q : ApplyPoint, q.left (p.step e spurious).1 = q.left e) ∨
      p.unspent = true ∧ (p.step e spurious).2.1.unspent = false := by
  have hkeep : ∀ e' : CounterEngine, e'.config = e.config → e'.strict = e.strict →
      e'.reserved = e.reserved → ∀ q : ApplyPoint, q.left e' = q.left e := by
    intro e' hconfig hstrict hreserved q
    exact left_congr fun _ => ⟨hconfig, by rw [hstrict], fun _ => by rw [hreserved]⟩
  cases p with
  | strictSwap =>
    simp only [step]
    split
    · exact .inr ⟨rfl, rfl⟩
    · exact .inl fun _ => rfl
  | shardSwap =>
    simp only [step]
    split
    · exact .inr ⟨rfl, rfl⟩
    · exact .inl fun _ => rfl
  | announceSwap request result =>
    refine .inl ?_
    simp only [step]
    split
    · exact fun _ => rfl
    · exact fun q => left_congr fun _ => ⟨rfl, rfl, used_announce _ _ _⟩
  | _ =>
    refine .inl ?_
    simp only [step]
    repeat' split
    all_goals first | exact hkeep _ rfl rfl rfl | exact fun _ => trivial

/-- One for a call that is not answered yet. -/
def unanswered (p : ApplyPoint) : ℕ := if p = .idle then 0 else 1

private theorem unanswered_strictDecide (limit : ℕ) (request : Request) (mode : RoutingMode)
    (current : ℕ) : (strictDecide limit request mode current).unanswered = 1 := by
  unfold strictDecide
  split <;> rfl

private theorem unanswered_shardDecide (reserve selected : ℕ) (request : Request) (current : ℕ) :
    (shardDecide reserve selected request current).unanswered = 1 := by
  unfold shardDecide
  split <;> rfl

private theorem unanswered_afterRemember (e : CounterEngine) (request : Request)
    (mode : RoutingMode)
    (result : Result) : (afterRemember e request mode result).unanswered = 1 := by
  unfold afterRemember
  split
  · split <;> rfl
  · split <;> rfl

/-- A call returns with one answer. -/
theorem answers_step (e : CounterEngine) (spurious : Bool) (p : ApplyPoint) :
    (p.step e spurious).2.2.length + (p.step e spurious).2.1.unanswered = p.unanswered := by
  cases p with
  | strictLoad => exact (Nat.zero_add _).trans (unanswered_strictDecide _ _ _ _)
  | strictSwap =>
    simp only [step]
    split
    · rfl
    · exact (Nat.zero_add _).trans (unanswered_strictDecide _ _ _ _)
  | shardLoad => exact (Nat.zero_add _).trans (unanswered_shardDecide _ _ _ _)
  | shardSwap =>
    simp only [step]
    split
    · rfl
    · exact (Nat.zero_add _).trans (unanswered_shardDecide _ _ _ _)
  | rememberCompare =>
    simp only [step]
    split
    · exact (Nat.zero_add _).trans (unanswered_afterRemember _ _ _ _)
    · rfl
  | rememberFlag => exact (Nat.zero_add _).trans (unanswered_afterRemember _ _ _ _)
  | _ =>
    simp only [step]
    repeat' split
    all_goals rfl

end ApplyPoint

namespace Machine

variable {R : Type} [Fintype R]

/-! ### What the calls cost -/

/-- The accesses that a call may still cost: those left to its thread, and one for every other
thread while it has not spent. -/
def price (R : Type) [Fintype R] (e : CounterEngine) (p : ApplyPoint) : ℕ :=
  p.left e + if p.unspent then Fintype.card R else 0

/-- What all calls may still cost. -/
def potential (m : Machine R Unit) : ℕ := ∑ r, price R m.engine (m.request r)

variable [DecidableEq R]

/-- An access costs one. A thread with no call makes none. -/
def spends (m : Machine R Unit) : Action R Unit → ℕ
  | .run r _ => if m.request r = .idle then 0 else 1
  | _ => 0

/-- Each call may cost eighteen accesses and one for every thread, each spurious failure one. -/
def grants (_ : Machine R Unit) : Action R Unit → ℕ
  | .call _ _ => 18 + Fintype.card R
  | .run _ spurious => spurious.toNat
  | _ => 0

variable {config : CounterEngineConfig} {m m' : Machine R Unit}

/-- An access of a thread is paid for by what was left to it; a call that spends pays for the
retries of the others. -/
private theorem potential_run (r : R) (spurious : Bool)
    (hstep : m.step (.run r spurious) = some m') :
    m'.potential + m.spends (.run r spurious) ≤ m.potential + spurious.toNat := by
  obtain rfl := Option.some.inj hstep
  set next := (m.request r).step m.engine spurious with hnext
  -- the thread itself
  have hown : next.2.1.left next.1 + m.spends (.run r spurious) ≤
      (m.request r).left m.engine + spurious.toNat := by
    by_cases hidle : m.request r = .idle
    · rw [spends, if_pos hidle, hnext, hidle]
      exact Nat.zero_le _
    · rw [spends, if_neg hidle]
      exact ApplyPoint.left_step spurious hidle
  have hunspent : next.2.1.unspent = true → (m.request r).unspent = true :=
    ApplyPoint.unspent_step m.engine spurious
  -- the other threads
  have hothers : ∀ k, (∀ q : ApplyPoint, q.left next.1 ≤ q.left m.engine + k) →
      ∑ r' ∈ Finset.univ.erase r, price R next.1 (m.request r') ≤
        ∑ r' ∈ Finset.univ.erase r, price R m.engine (m.request r') + Fintype.card R * k := by
    intro k hk
    calc ∑ r' ∈ Finset.univ.erase r, price R next.1 (m.request r')
        ≤ ∑ r' ∈ Finset.univ.erase r, (price R m.engine (m.request r') + k) := by
          refine Finset.sum_le_sum fun r' _ => ?_
          have := hk (m.request r')
          simp only [price]
          omega
      _ ≤ _ := by
          rw [Finset.sum_add_distrib, Finset.sum_const, smul_eq_mul]
          exact Nat.add_le_add_left (Nat.mul_le_mul_right k (Finset.card_le_univ _)) _
  have hnew : ∑ r', price R next.1 (Function.update m.request r next.2.1 r') =
      price R next.1 next.2.1 + ∑ r' ∈ Finset.univ.erase r, price R next.1 (m.request r') := by
    rw [← Finset.add_sum_erase _ _ (Finset.mem_univ r), Function.update_self]
    congr 1
    refine Finset.sum_congr rfl fun r' hr' => ?_
    rw [Function.update_of_ne (Finset.ne_of_mem_erase hr')]
  have hold : m.potential = price R m.engine (m.request r) +
      ∑ r' ∈ Finset.univ.erase r, price R m.engine (m.request r') :=
    (Finset.add_sum_erase _ _ (Finset.mem_univ r)).symm
  unfold potential at hold ⊢
  dsimp only
  rw [hnew, hold]
  rcases ApplyPoint.left_others m.engine spurious (m.request r) with hkeep | ⟨hwas, hnow⟩
  · have hrest := hothers 0 fun q => (hkeep q).le
    have hbonus : (if next.2.1.unspent then Fintype.card R else 0) ≤
        if (m.request r).unspent then Fintype.card R else 0 := by
      split
      · rename_i hnow
        rw [if_pos (hunspent hnow)]
      · exact Nat.zero_le _
    simp only [price] at hrest ⊢
    omega
  · have hrest := hothers 1 fun q => ApplyPoint.left_le_succ _ _ q
    simp only [price, hwas, if_true] at hrest ⊢
    rw [if_neg (by rw [hnow]; exact Bool.false_ne_true)]
    omega

end Machine

/-! ### The control thread comes to its end -/

namespace ControlPoint

/-- The accesses left to a control thread that finds nobody inside, for an engine with `n` shards.
-/
def left (n : ℕ) : ControlPoint → ℕ
  | .idle => 0
  | .reservedMode => 3 * n + 14
  | .reservedClose => 3 * n + 13
  | .reservedDrain => 3 * n + 12
  | .reservedCheck => 3 * n + 11
  | .reservedLoad => 3 * n + 10
  | .reservedSeed index _ => 2 * (n - index) + n + 9
  | .reservedAnnounce index _ _ => 2 * (n - index) + n + 8
  | .reservedReopen => 1
  | .reservedPublish => n + 7
  | .reservedCount index _ => n - index + 6
  | .reservedStoreCount _ => 5
  | .reservedEpoch => 4
  | .reservedClearPeak => 3
  | .reservedClearDanger => 2
  | .reservedOpen => 1
  | .dangerMode => n + 11
  | .dangerActive => n + 10
  | .dangerClose => n + 9
  | .dangerDrain => n + 8
  | .dangerTotal index _ => n - index + 7
  | .dangerSeed _ => 6
  | .dangerReopen => 1
  | .dangerPublish => 5
  | .dangerClearCount => 4
  | .dangerEpoch => 3
  | .dangerClear => 2
  | .dangerOpen => 1
  | .loopMode => 4 * n + 23
  | .loopHas _ => 4 * n + 22
  | .loopCounter _ _ => 4 * n + 21
  | .loopTotal _ _ index _ => n - index + 3 * n + 20
  | .loopRequest _ _ _ => 3 * n + 19
  | .loopValue _ _ _ => 3 * n + 19
  | .loopEpoch _ _ _ _ => 3 * n + 18
  | .snapshotPublisher _ _ _ _ => 3 * n + 17
  | .snapshotPublish _ _ _ _ => 3 * n + 16
  | .loopPeak => 3 * n + 15
  | .loopDanger => n + 12
  | .beginClaim => n + 7
  | .beginMode => n + 6
  | .beginRelease => 1
  | .beginClose => n + 5
  | .beginDrain => n + 4
  | .beginCounter => n + 3
  | .beginEpoch _ => n + 2
  | .beginTotal _ _ index _ => n - index + 1
  | .abortRelease => 3
  | .abortMode => 2
  | .abortOpen => 1
  | .commitActive _ _ => 13
  | .commitMode _ _ => 12
  | .commitSeed _ _ => 11
  | .commitPublish _ _ => 10
  | .commitClearCount _ _ => 9
  | .commitEpoch _ _ => 8
  | .commitClear _ _ => 7
  | .commitRelease _ _ => 6
  | .commitCounter => 5
  | .commitMark _ => 4
  | .commitPublisher _ => 3
  | .commitEvent _ => 2
  | .commitRemember => 2
  | .commitOpen => 1

variable {e : CounterEngine} {p : ControlPoint}

theorem left_eq_zero {n : ℕ} : p.left n = 0 ↔ p = .idle := by
  cases p <;> simp [left]

private theorem left_seedNext {n : ℕ} (hn : e.reserved.shards.length = n) (index remaining : ℕ) :
    (seedNext e index remaining).left n ≤ 2 * (n - index) + n + 9 := by
  unfold seedNext
  split
  · exact le_rfl
  · split <;> simp only [left] <;> omega

private theorem left_loopNext (n : ℕ) (mode : RoutingMode) :
    (loopNext mode).left n ≤ 3 * n + 15 := by
  cases mode <;> simp only [loopNext, left] <;> omega

private theorem left_commitExhaustion (e : CounterEngine) (n total : ℕ) (strictOwner : Bool) :
    (commitExhaustion e total strictOwner).left n ≤ 5 := by
  unfold commitExhaustion
  split
  · split <;> simp [left]
  · simp [left]

/-- **A control thread that finds nobody inside comes closer to its end with every access.** -/
theorem left_step (hempty : e.inFlight = 0) (h : p.Knows e) (hp : p ≠ .idle) :
    (p.step e).2.left e.reserved.shards.length < p.left e.reserved.shards.length := by
  cases p with
  | idle => exact absurd rfl hp
  | reservedLoad =>
    have hle := left_seedNext (e := e) rfl 0 e.strict.value
    simp only [ControlPoint.step]
    split <;> simp only [left] at hle ⊢ <;> omega
  | reservedAnnounce index assigned remaining =>
    obtain ⟨-, hlen, -⟩ := h
    refine (left_seedNext List.length_set (index + 1) (remaining - assigned)).trans_lt ?_
    simp only [left]
    omega
  | loopEpoch mode has counter value =>
    have hle := left_loopNext e.reserved.shards.length mode
    simp only [ControlPoint.step]
    split
    · simp only [left]
      omega
    · exact hle.trans_lt (by simp only [left]; omega)
  | snapshotPublisher mode | snapshotPublish mode =>
    have hle := left_loopNext e.reserved.shards.length mode
    simp only [ControlPoint.step]
    repeat' split
    all_goals first | exact hle.trans_lt (by simp only [left]; omega) | (simp only [left]; omega)
  | commitRelease total strictOwner =>
    have hle := left_commitExhaustion { e with distributedHandoffActive := false }
      e.reserved.shards.length total strictOwner
    exact Nat.lt_succ_of_le hle
  | _ =>
    simp only [ControlPoint.step]
    repeat' split
    all_goals simp_all only [left]
    all_goals omega

/-- A closed gate is held by a handoff in peak mode. -/
def HeldShut (e : CounterEngine) : Prop :=
  e.gateOpen = false → e.distributedHandoffActive = true ∧ e.mode = .reservedPeak

/-- Why the gate is closed, if it is: the control thread is about to open it, or a handoff holds it.
-/
def Settles (e : CounterEngine) : ControlPoint → Prop
  | .reservedDrain | .reservedCheck | .reservedLoad | .reservedSeed _ _ | .reservedAnnounce _ _ _
  | .reservedReopen | .reservedPublish | .reservedCount _ _ | .reservedStoreCount _ | .reservedEpoch
  | .reservedClearPeak | .reservedClearDanger | .reservedOpen | .dangerDrain | .dangerTotal _ _
  | .dangerSeed _ | .dangerReopen | .dangerPublish | .dangerClearCount | .dangerEpoch | .dangerClear
  | .dangerOpen | .abortOpen => True
  | .beginMode => e.gateOpen = true ∧ e.distributedHandoffActive = true
  | .beginRelease => e.gateOpen = true
  | .beginClose | .beginDrain | .beginCounter | .beginEpoch _ | .beginTotal _ _ _ _ =>
    e.distributedHandoffActive = true ∧ e.mode = .reservedPeak
  | .abortMode => e.gateOpen = false → e.mode = .reservedPeak
  | .commitActive _ _ | .commitMode _ _ | .commitSeed _ _ | .commitPublish _ _
  | .commitClearCount _ _ | .commitEpoch _ _ | .commitClear _ _ | .commitRelease _ _
  | .commitCounter | .commitMark _ | .commitPublisher _ | .commitEvent _ | .commitRemember
  | .commitOpen => False
  | _ => HeldShut e

theorem Settles.congr {e' : CounterEngine} (h : p.Settles e)
    (hsame : CounterEngine.SameControl e e') : p.Settles e' := by
  unfold Settles HeldShut at h ⊢
  rw [hsame.gateOpen, hsame.active, hsame.mode]
  exact h

private theorem settles_seedNext (e e' : CounterEngine) (index remaining : ℕ) :
    (seedNext e index remaining).Settles e' := by
  unfold seedNext
  split
  · trivial
  · split <;> trivial

private theorem settles_loopNext {mode : RoutingMode} (h : HeldShut e) :
    (loopNext mode).Settles e := by
  cases mode <;> exact h

/-- **Every access of the control thread leaves a reason for a closed gate.** -/
theorem settles_step (h : p.Settles e) : (p.step e).2.Settles (p.step e).1 := by
  have hopen : ∀ {e : CounterEngine}, e.gateOpen = true → HeldShut e := by
    intro e hgate hclosed
    exact absurd (hclosed.symm.trans hgate) Bool.false_ne_true
  cases p with
  | reservedLoad =>
    simp only [ControlPoint.step]
    split
    · trivial
    · exact settles_seedNext _ _ _ _
  | reservedAnnounce => exact settles_seedNext _ _ _ _
  | loopEpoch | snapshotPublisher =>
    simp only [ControlPoint.step]
    split
    · exact h
    · exact settles_loopNext h
  | snapshotPublish => exact settles_loopNext h
  | loopCounter mode =>
    cases mode <;> exact h
  | reservedOpen | reservedReopen | dangerOpen | dangerReopen | abortOpen => exact hopen rfl
  | beginClaim =>
    simp only [ControlPoint.step]
    split
    · exact h
    · rename_i hfree
      -- nothing holds the gate, so it is open
      refine ⟨?_, rfl⟩
      by_contra hclosed
      exact hfree (h (by simpa using hclosed)).1
  | beginMode =>
    simp only [ControlPoint.step]
    split
    · exact h.1
    · rename_i hmode
      exact ⟨h.2, not_not.mp hmode⟩
  | beginRelease => exact hopen h
  | beginTotal =>
    simp only [ControlPoint.step]
    split
    · exact h
    · exact fun _ => h
  | abortRelease =>
    simp only [ControlPoint.step]
    split
    · exact fun hclosed => (h hclosed).2
    · exact h
  | abortMode =>
    simp only [ControlPoint.step]
    split
    · trivial
    · rename_i hmode
      exact fun hclosed => absurd (h hclosed) hmode
  | commitActive | commitMode | commitSeed | commitPublish | commitClearCount | commitEpoch
  | commitClear | commitRelease | commitCounter | commitMark | commitPublisher | commitEvent
  | commitRemember | commitOpen => exact h.elim
  | _ =>
    simp only [ControlPoint.step]
    repeat' split
    all_goals first | exact h | trivial

end ControlPoint

namespace Machine

variable {R : Type} [Fintype R] [DecidableEq R] {config : CounterEngineConfig}
  {m m' : Machine R Unit}

/-- The calls that are not answered yet. -/
def unanswered (m : Machine R Unit) : ℕ := ∑ r, (m.request r).unanswered

/-- The threads finish what they have begun, and no compare-and-swap fails without a reason. -/
def onward : Machine R Unit → Action R Unit → Prop
  | _, .run _ false | _, .advance _ => True
  | _, _ => False

/-- What is kept while the threads finish: the answers given and those still to come. -/
structure Finishing (config : CounterEngineConfig) (answers : ℕ) (m : Machine R Unit) : Prop where
  conserved : Conserved config m
  settles : (m.control ()).Settles m.engine
  answers : m.returned.length + m.unanswered = answers

variable {answers : ℕ}

private theorem Finishing.run (h : Finishing config answers m) (r : R)
    (hstep : m.step (.run r false) = some m') : Finishing config answers m' := by
  have hc := h.conserved.step (a := .run r false) trivial hstep
  have he := h.conserved.wf.effect r false
  have hone := ApplyPoint.answers_step m.engine false (m.request r)
  obtain rfl := Option.some.inj hstep
  refine ⟨hc, h.settles.congr he.toSameControl, ?_⟩
  have hsum := sum_update_add ApplyPoint.unanswered m.request r
    ((m.request r).step m.engine false).2.1
  have hold := h.answers
  simp only [unanswered, List.length_append] at hold ⊢
  omega

private theorem Finishing.advance (h : Finishing config answers m)
    (hstep : m.step (.advance ()) = some m') : Finishing config answers m' := by
  have hc := h.conserved.step (a := .advance ()) trivial hstep
  obtain rfl := Option.some.inj hstep
  refine ⟨hc, ?_, h.answers⟩
  dsimp only
  rw [Function.update_self]
  exact ControlPoint.settles_step h.settles

omit [DecidableEq R] in
theorem potential_eq_zero : m.potential = 0 ↔ ∀ r, m.request r = .idle := by
  unfold potential
  rw [Finset.sum_eq_zero_iff]
  refine forall_congr' fun r => ⟨fun h => ?_, fun h _ => ?_⟩
  · exact ApplyPoint.left_eq_zero.mp (Nat.eq_zero_of_add_eq_zero_right (h (Finset.mem_univ r)))
  · rw [h]
    rfl

/-- The calls can all be brought to their ends. -/
private theorem Finishing.requests (h : Finishing config answers m) :
    ∃ m', Steps Machine.step onward m m' ∧ Finishing config answers m' ∧
      ∀ r, m'.request r = .idle := by
  have hdown : ∀ m : Machine R Unit, Finishing config answers m → 0 < m.potential →
      ∃ a m', onward m a ∧ m.step a = some m' ∧ Finishing config answers m' ∧
        m'.potential < m.potential := by
    intro m hm hpos
    obtain ⟨r, hr⟩ : ∃ r, m.request r ≠ .idle := by
      by_contra hall
      push Not at hall
      exact hpos.ne' (potential_eq_zero.mpr hall)
    have hcost := potential_run r false (m := m) rfl
    rw [spends, if_neg hr] at hcost
    exact ⟨.run r false, _, trivial, rfl, hm.run r rfl, Nat.lt_of_succ_le hcost⟩
  obtain ⟨m', hsteps, hm', hzero⟩ := Steps.exists_zero _ _ hdown h
  exact ⟨m', hsteps, hm', potential_eq_zero.mp hzero⟩

/-- Then the control thread can. -/
private theorem Finishing.control (h : Finishing config answers m)
    (hidle : ∀ r, m.request r = .idle) :
    ∃ m', Steps Machine.step onward m m' ∧ Finishing config answers m' ∧
      (∀ r, m'.request r = .idle) ∧ m'.control () = .idle := by
  have hdown : ∀ m : Machine R Unit,
      (Finishing config answers m ∧ ∀ r, m.request r = .idle) →
      0 < (m.control ()).left m.engine.reserved.shards.length →
      ∃ a m', onward m a ∧ m.step a = some m' ∧
        (Finishing config answers m' ∧ ∀ r, m'.request r = .idle) ∧
        (m'.control ()).left m'.engine.reserved.shards.length <
          (m.control ()).left m.engine.reserved.shards.length := by
    rintro m ⟨hm, hidle⟩ hpos
    have hempty : m.engine.inFlight = 0 := by
      rw [hm.conserved.wf.inFlight]
      exact Finset.sum_eq_zero fun r _ => by rw [hidle r]; rfl
    have hne : m.control () ≠ .idle := fun hc => hpos.ne' (ControlPoint.left_eq_zero.mpr hc)
    have hlt := ControlPoint.left_step hempty hm.conserved.knows hne
    obtain ⟨hkeep, -⟩ := ControlPoint.step_keeps hm.conserved.wf.sound
      (hm.conserved.wf.control_fits ())
    have hlength : ((m.control ()).step m.engine).1.reserved.shards.length =
        m.engine.reserved.shards.length := by
      rw [← CounterEngine.length_reserves, hkeep.reserves, CounterEngine.length_reserves]
    refine ⟨.advance (), _, trivial, rfl, ⟨hm.advance rfl, hidle⟩, ?_⟩
    dsimp only
    rwa [Function.update_self, hlength]
  obtain ⟨m', hsteps, ⟨hm', hidle'⟩, hzero⟩ := Steps.exists_zero _ _ hdown ⟨h, hidle⟩
  exact ⟨m', hsteps, hm', hidle', ControlPoint.left_eq_zero.mp hzero⟩

omit [Fintype R] [DecidableEq R] in
theorem settles_init (config : CounterEngineConfig) :
    ((init R Unit config).control ()).Settles (init R Unit config).engine := fun h => by cases h

/-- Every step leaves a reason for a closed gate. -/
theorem settles_of_step (hc : Conserved config m) (h : (m.control ()).Settles m.engine)
    {a : Action R Unit} (hlocal : localOnly m a) (hstep : m.step a = some m') :
    (m'.control ()).Settles m'.engine := by
  cases a with
  | call r request =>
    simp only [Machine.step] at hstep
    split at hstep
    · obtain rfl := Option.some.inj hstep
      exact h
    · cases hstep
  | run r spurious =>
    have he := hc.wf.effect r spurious
    obtain rfl := Option.some.inj hstep
    exact h.congr he.toSameControl
  | invoke c op =>
    simp only [Machine.step] at hstep
    split at hstep
    · rename_i hidle
      obtain rfl := Option.some.inj hstep
      rw [show m.control () = .idle from hidle] at h
      dsimp only
      rw [Function.update_self]
      cases op with
      | commitHandoff => exact hlocal.elim
      | _ => exact h
    · cases hstep
  | advance c =>
    obtain rfl := Option.some.inj hstep
    dsimp only
    rw [Function.update_self]
    exact ControlPoint.settles_step h
  | raisePeakRequest =>
    obtain rfl := Option.some.inj hstep
    exact h.congr ⟨rfl, rfl, rfl, rfl, rfl⟩

omit [Fintype R] in
/-- The next access of the control thread, where it stands. -/
private theorem advances (m : Machine R Unit) : ∃ m', Steps Machine.step localOnly m m' ∧
    m'.engine = ((m.control ()).step m.engine).1 ∧
    m'.control () = ((m.control ()).step m.engine).2 :=
  ⟨_, Steps.refl.tail (a := .advance ()) trivial rfl, rfl, by
    dsimp only
    rw [Function.update_self]⟩

omit [Fintype R] in
/-- An abort opens the gate that a handoff holds. -/
private theorem abort_opens (hidle : m.control () = .idle)
    (hactive : m.engine.distributedHandoffActive = true) (hmode : m.engine.mode = .reservedPeak) :
    ∃ m', Steps Machine.step localOnly m m' ∧ m'.control () = .idle ∧
      m'.engine.gateOpen = true ∧ m'.engine.distributedHandoffActive = false ∧
      m'.engine.mode = .reservedPeak ∧ m'.engine.reserved = m.engine.reserved := by
  have hinvoke : m.step (.invoke () .abortHandoff) =
      some { m with control := Function.update m.control () .abortRelease } := if_pos hidle
  have hsteps : Steps Machine.step localOnly m _ :=
    Steps.refl.tail (a := .invoke () .abortHandoff) trivial hinvoke
  obtain ⟨m₁, hsteps₁, hengine₁, hcontrol₁⟩ := advances
    { m with control := Function.update m.control () .abortRelease }
  dsimp only at hengine₁ hcontrol₁
  rw [Function.update_self] at hengine₁ hcontrol₁
  simp only [ControlPoint.step, hactive, if_true] at hengine₁ hcontrol₁
  obtain ⟨m₂, hsteps₂, hengine₂, hcontrol₂⟩ := advances m₁
  rw [hcontrol₁, hengine₁] at hengine₂ hcontrol₂
  simp only [ControlPoint.step, hmode, if_true] at hengine₂ hcontrol₂
  obtain ⟨m₃, hsteps₃, hengine₃, hcontrol₃⟩ := advances m₂
  rw [hcontrol₂, hengine₂] at hengine₃ hcontrol₃
  refine ⟨m₃, ((hsteps.trans hsteps₁).trans hsteps₂).trans hsteps₃, hcontrol₃, ?_⟩
  rw [hengine₃]
  exact ⟨rfl, rfl, rfl, rfl⟩

/-- **No run gets stuck.** From every state that a run with one control thread reaches, the threads
can finish what they have begun, each waiting call with one answer. Then the gate is open, or a
handoff holds it, and an abort opens it. -/
theorem can_settle (hthreads : Fintype.card R < 2 ^ 32)
    (h : Steps Machine.step localOnly (init R Unit config) m) :
    ∃ m', Steps Machine.step onward m m' ∧ (∀ r, m'.request r = .idle) ∧ m'.control () = .idle ∧
      m'.returned.length = m.returned.length + m.unanswered ∧
      (m'.engine.gateOpen = true ∨ m'.engine.distributedHandoffActive = true ∧
        ∃ m'', Steps Machine.step localOnly m' m'' ∧ m''.control () = .idle ∧
          m''.engine.gateOpen = true ∧ m''.engine.distributedHandoffActive = false ∧
          m''.engine.mode = .reservedPeak ∧ m''.engine.reserved = m'.engine.reserved) := by
  obtain ⟨hc, hsettles⟩ : Conserved config m ∧ (m.control ()).Settles m.engine :=
    h.invariant (P := fun m => Conserved config m ∧ (m.control ()).Settles m.engine)
      ⟨conserved_init config hthreads, settles_init config⟩ fun _ _ _ hm hlocal hstep =>
        ⟨hm.1.step hlocal hstep, settles_of_step hm.1 hm.2 hlocal hstep⟩
  obtain ⟨m₁, hsteps₁, hm₁, hidle₁⟩ := Finishing.requests ⟨hc, hsettles, rfl⟩
  obtain ⟨m', hsteps₂, hm', hidle, hcontrol⟩ := hm₁.control hidle₁
  have hnone : m'.unanswered = 0 := Finset.sum_eq_zero fun r _ => by rw [hidle r]; rfl
  have hanswers := hm'.answers
  rw [hnone, Nat.add_zero] at hanswers
  refine ⟨m', hsteps₁.trans hsteps₂, hidle, hcontrol, hanswers, ?_⟩
  by_cases hgate : m'.engine.gateOpen = true
  · exact .inl hgate
  · have hheld := hm'.settles
    rw [hcontrol] at hheld
    obtain ⟨hactive, hmode⟩ := hheld (by simpa using hgate)
    exact .inr ⟨hactive, abort_opens hcontrol hactive hmode⟩

/-- A handoff drains the gate while a request is on its way in. -/
def drainRun : List (Action Bool Unit) :=
  .invoke () .enterReservedMode :: List.replicate 20 (.advance ()) ++
    .call true ⟨17, 15, 9⟩ :: List.replicate 4 (.run true false) ++
    .invoke () .beginHandoff :: List.replicate 4 (.advance ())

theorem can_settle_drainRun :
    ∃ m m' : Machine Bool Unit,
      Steps Machine.step localOnly (init Bool Unit CounterEngine.testConfig) m ∧
        m.control () = .beginDrain ∧ m.engine.inFlight = 1 ∧ Steps Machine.step onward m m' ∧
        m'.returned.length = 1 ∧ m'.control () = .idle := by
  have hrun : (exec Machine.step localOnly (init Bool Unit CounterEngine.testConfig) drainRun).map
      (fun m => decide (m.control () = .beginDrain ∧ m.engine.inFlight = 1 ∧
        m.returned.length + m.unanswered = 1)) = some true := by decide +kernel
  obtain ⟨m, hsteps, hdrain, hflight, hanswers⟩ := Steps.exists_of_exec hrun
  obtain ⟨m', honward, -, hidle, hreturned, -⟩ := can_settle (by decide) hsteps
  exact ⟨m, m', hsteps, hdrain, hflight, honward, hreturned.trans hanswers, hidle⟩

end Machine

end HotCounter
