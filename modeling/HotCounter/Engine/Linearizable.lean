import HotCounter.Engine.Exhaustion
import HotCounter.Foundation.Linearizable

/-!
# The engine is linearizable

To its clients an engine is one counter behind a gate, which serves in one mode at a time
(`Service`): it decides a request by the counter of the mode, it may turn one away while the gate is
closed, and it may answer with the limit once nothing is left. Between two requests it closes and
opens the gate, and behind a closed gate it moves its total to another counter.

However the accesses of the request threads and of the control thread interleave, the clients see no
more than that (`linearizable`): the answers they get can be put in an order in which this
sequential object gives them, and the order is that of the calls wherever these did not overlap.
-/

namespace HotCounter

open Foundation

/-- The counter that serves the clients: the strict value in the strict modes, in peak mode what
each shard has spent. -/
inductive Serving
  | strict (value : ℕ)
  | peak (used : List ℕ)
  | danger (value : ℕ)
  | remote (value : ℕ)
  deriving DecidableEq, Repr

/-- An engine as its clients know it. -/
structure Service where
  gateOpen : Bool
  serving : Serving
  deriving DecidableEq, Repr

namespace Serving

/-- Everything spent. -/
def total : Serving → ℕ
  | .strict value | .danger value | .remote value => value
  | .peak used => used.sum

/-- One counter with a limit: the delta is added if it fits. -/
def spend (limit value delta shard : ℕ) : Result × ℕ :=
  if value + delta ≤ limit then (⟨.accepted, value + delta, shard⟩, value + delta)
  else (⟨.rejected, value, shard⟩, value)

/-- The answer of the serving counter, and the counter after it. -/
def serve (config : CounterEngineConfig) (serving : Serving) (request : Request) :
    Result × Serving :=
  match serving with
  | .strict value => (spend config.limit value request.delta 0).map id .strict
  | .danger value => (spend config.limit value request.delta 0).map id .danger
  | .remote value => (⟨.moved, value, 0⟩, .remote value)
  | .peak used =>
    let shard := CounterEngine.shardFor config request.routeHash % used.length
    (spend ((CounterEngine.new config).reserves.getD shard 0) (used.getD shard 0) request.delta
      shard).map id fun value => .peak (used.set shard value)

end Serving

namespace Service

/-- The answers that a service may give. -/
inductive Serves (config : CounterEngineConfig) : Service → Request → Result → Service → Prop
  /-- the serving counter decides -/
  | served (s : Service) (request : Request) : Serves config s request
      (s.serving.serve config request).1 { s with serving := (s.serving.serve config request).2 }
  /-- a closed gate turns the request away -/
  | closed {s : Service} (request : Request) (h : s.gateOpen = false) :
      Serves config s request ⟨.rejected, 0, 0⟩ s
  /-- nothing is left -/
  | exhausted {s : Service} (request : Request) (h : s.serving.total = config.limit) :
      Serves config s request ⟨.rejected, config.limit, 0⟩ s

/-- What a service does between two requests. -/
inductive Drifts (config : CounterEngineConfig) : Service → Service → Prop
  | gate (open' : Bool) (s : Service) : Drifts config s { s with gateOpen := open' }
  | enterReserved {value : ℕ} {used : List ℕ} (hsum : used.sum = value)
      (hreserves : List.Forall₂ (· ≤ ·) used (CounterEngine.new config).reserves) :
      Drifts config ⟨false, .strict value⟩ ⟨false, .peak used⟩
  | enterDanger {used : List ℕ} :
      Drifts config ⟨false, .peak used⟩ ⟨false, .danger used.sum⟩

/-- The sequential object that an engine stands for. -/
def object (config : CounterEngineConfig) : SequentialObject Service Request Result where
  init := ⟨true, .strict 0⟩
  serves := Serves config
  drifts := Drifts config

end Service

namespace CounterEngine

/-- The counter that the published mode selects. -/
def serving (e : CounterEngine) : Serving :=
  match e.mode with
  | .strict => .strict e.strict.value
  | .reservedPeak => .peak (e.reserved.shards.map Shard.used)
  | .dangerStrict => .danger e.strict.value
  | .remoteStrict => .remote e.strict.value

/-- The service that an engine stands for. -/
def service (e : CounterEngine) : Service := ⟨e.gateOpen, e.serving⟩

theorem total_serving (e : CounterEngine) : e.serving.total = e.balance := by
  unfold serving balance
  cases e.mode <;> rfl

theorem serving_congr {e e' : CounterEngine} (hmode : e'.mode = e.mode)
    (hstrict : e.mode ≠ .reservedPeak → e'.strict.value = e.strict.value)
    (hreserved : e.mode = .reservedPeak →
      e'.reserved.shards.map Shard.used = e.reserved.shards.map Shard.used) :
    e'.serving = e.serving := by
  unfold serving
  rw [hmode]
  cases hm : e.mode with
  | reservedPeak => exact congrArg Serving.peak (hreserved hm)
  | strict => exact congrArg Serving.strict (hstrict (by simp [hm]))
  | dangerStrict => exact congrArg Serving.danger (hstrict (by simp [hm]))
  | remoteStrict => exact congrArg Serving.remote (hstrict (by simp [hm]))

end CounterEngine

namespace ApplyPoint

/-- How far a call has come: it is decided once it was turned away at the gate, has read the value
that refuses it, or has swapped its delta in. -/
def stage : ApplyPoint → Stage Request Result
  | .idle => .idle
  | .checkExhausted request | .checkOpen request | .enter request | .recheckOpen request
  | .loadMode request | .strictLoad request _ | .strictSwap request _ _ | .shardLoad request
  | .shardSwap request _ | .remoteLoad request => .pending request
  | .backOut request => .decided request ⟨.rejected, 0, 0⟩
  | .rememberHas request _ result | .rememberCompare request _ result
  | .rememberStore request _ result | .rememberFlag request _ result
  | .announceLoad request result | .announceSwap request result | .countShard request result
  | .markExhausted request result | .loadPublisher request result | .publishLimit request result
  | .leave request result => .decided request result

/-- One access of a call, as the service sees it: the call may take its step, and then it may
return. -/
def Step (config : CounterEngineConfig) (e : CounterEngine) (p : ApplyPoint) (e' : CounterEngine)
    (p' : ApplyPoint) (log : List (Request × Result)) : Prop :=
  ∃ stage : Stage Request Result,
    ((stage = p.stage ∧ e'.service = e.service) ∨
      ∃ request result, p.stage = .pending request ∧ stage = .decided request result ∧
        Service.Serves config e.service request result e'.service) ∧
    ((log = [] ∧ p'.stage = stage) ∨
      ∃ request result, log = [(request, result)] ∧ stage = .decided request result ∧
        p'.stage = .idle)

variable {config : CounterEngineConfig} {e e' : CounterEngine} {p p' : ApplyPoint}

/-- An access that changes nothing that clients can tell. -/
theorem Step.silent (hservice : e'.service = e.service) (hstage : p'.stage = p.stage) :
    Step config e p e' p' [] :=
  ⟨p.stage, .inl ⟨rfl, hservice⟩, .inl ⟨rfl, hstage⟩⟩

/-- An access at which a call takes its step. -/
theorem Step.takes {request : Request} {result : Result} (hp : p.stage = .pending request)
    (hserves : Service.Serves config e.service request result e'.service)
    (hp' : p'.stage = .decided request result) : Step config e p e' p' [] :=
  ⟨_, .inr ⟨request, result, hp, rfl, hserves⟩, .inl ⟨rfl, hp'⟩⟩

/-- An access at which a call takes its step and returns. -/
theorem Step.returns {request : Request} {result : Result} (hp : p.stage = .pending request)
    (hserves : Service.Serves config e.service request result e'.service) (hp' : p'.stage = .idle) :
    Step config e p e' p' [(request, result)] :=
  ⟨_, .inr ⟨request, result, hp, rfl, hserves⟩, .inr ⟨request, result, rfl, rfl, hp'⟩⟩

/-! ### The decisions -/

/-- The strict value decides a request of a thread that serves strictly. -/
theorem serves_strict (request : Request) {mode : RoutingMode}
    (hmode : mode = .strict ∨ mode = .dangerStrict) (hserving : mode = e.mode) :
    (¬ e.strict.value + request.delta ≤ e.config.limit →
      Service.Serves e.config e.service request ⟨.rejected, e.strict.value, 0⟩ e.service) ∧
    (e.strict.value + request.delta ≤ e.config.limit →
      Service.Serves e.config e.service request ⟨.accepted, e.strict.value + request.delta, 0⟩
        { e with
          strict := { e.strict with value := e.strict.value + request.delta } }.service) := by
  have hserved : Service.Serves e.config e.service request _ _ := .served e.service request
  refine ⟨fun hfull => ?_, fun hfit => ?_⟩
  · rcases hmode with rfl | rfl <;>
      simpa [CounterEngine.service, CounterEngine.serving, ← hserving, Serving.serve, Serving.spend,
        hfull] using hserved
  · rcases hmode with rfl | rfl <;>
      simpa [CounterEngine.service, CounterEngine.serving, ← hserving, Serving.serve, Serving.spend,
        hfit] using hserved

/-- One shard decides a request of a thread that serves in peak mode. -/
theorem serves_peak (request : Request)
    (hreserves : e.reserves = (CounterEngine.new e.config).reserves)
    (hmode : e.mode = .reservedPeak) :
    let route := CounterEngine.shardFor e.config request.routeHash
    let shard := e.reserved.shardAt route
    (¬ shard.used + request.delta ≤ shard.reserve →
      Service.Serves e.config e.service request ⟨.rejected, shard.used, selected e request⟩
        e.service) ∧
    (shard.used + request.delta ≤ shard.reserve →
      Service.Serves e.config e.service request
        ⟨.accepted, shard.used + request.delta, selected e request⟩
        { e with
          reserved := e.reserved.setShard route
            { shard with used := shard.used + request.delta } }.service) := by
  intro route shard
  have hroute : CounterEngine.shardFor e.config request.routeHash = route := rfl
  have hselected : selected e request = route % e.reserved.shards.length := rfl
  have hused : (e.reserved.shards.map Shard.used).getD (route % e.reserved.shards.length) 0 =
      shard.used := List.getD_map e.reserved.shards default Shard.used
  have hreserve : (CounterEngine.new e.config).reserves.getD (route % e.reserved.shards.length) 0 =
      shard.reserve := by
    rw [← hreserves, e.getD_reserves]
    rfl
  -- a refusal writes back the value that was read
  have hback : (e.reserved.shards.map Shard.used).set (route % e.reserved.shards.length)
      shard.used = e.reserved.shards.map Shard.used := by
    rw [← List.map_set]
    exact map_set_of_eq Shard.used shard default e.reserved.shards _ rfl
  have hserved : Service.Serves e.config e.service request _ _ := .served e.service request
  simp only [CounterEngine.service, CounterEngine.serving, hmode, Serving.serve, List.length_map,
    hroute, hused, hreserve, Serving.spend] at hserved ⊢
  refine ⟨fun hfull => ?_, fun hfit => ?_⟩
  · simpa only [if_neg hfull, Prod.map_apply, id_eq, hback, hselected] using hserved
  · simpa only [if_pos hfit, Prod.map_apply, id_eq, ReservedCounter.setShard, List.map_set,
      hselected] using hserved

/-- A thread that reads the strict value is refused there, or will try to swap. -/
private theorem step_strictDecide (hs : e.Sound) {request : Request} {mode : RoutingMode}
    (hmode : mode = .strict ∨ mode = .dangerStrict) (hserving : mode = e.mode)
    (hp : p.stage = .pending request) :
    Step e.config e p e (strictDecide e.strict.limit request mode e.strict.value) [] := by
  unfold strictDecide
  split
  · rename_i hrefuses
    refine .takes hp ((serves_strict request hmode hserving).1 fun hfit => ?_) rfl
    rw [StrictCounter.refuses_eq_false.mpr (hs.strict_limit ▸ hfit)] at hrefuses
    cases hrefuses
  · exact .silent rfl hp.symm

/-- A thread that reads its shard is refused there, or will try to swap. -/
private theorem step_shardDecide {request : Request}
    (hreserves : e.reserves = (CounterEngine.new e.config).reserves)
    (hmode : e.mode = .reservedPeak)
    (hp : p.stage = .pending request) :
    Step e.config e p e (shardDecide
      (e.reserved.shardAt (CounterEngine.shardFor e.config request.routeHash)).reserve
      (selected e request) request
      (e.reserved.shardAt (CounterEngine.shardFor e.config request.routeHash)).used) [] := by
  unfold shardDecide
  split
  · rename_i hrefuses
    refine .takes hp ((serves_peak request hreserves hmode).1 fun hfit => ?_) rfl
    rw [StrictCounter.refuses_eq_false.mpr hfit] at hrefuses
    cases hrefuses
  · exact .silent rfl hp.symm

/-- Where `apply` goes once the counter is remembered, its answer stands. -/
private theorem stage_afterRemember (e : CounterEngine) (request : Request) (mode : RoutingMode)
    (result : Result) : (afterRemember e request mode result).stage = .decided request result := by
  unfold afterRemember
  split
  · split <;> rfl
  · split <;> rfl

/-- **One access of a call is at most one step of the service.** -/
theorem step_serves (hs : e.Sound) (spurious : Bool) (hf : p.Fits e)
    (hserving : ∀ mode, p.serving = some mode → mode = e.mode)
    (hreserves : e.reserves = (CounterEngine.new e.config).reserves)
    (htruth : e.exhausted = true → e.balance = e.config.limit) :
    Step e.config e p (p.step e spurious).1 (p.step e spurious).2.1 (p.step e spurious).2.2 := by
  cases p with
  | idle => exact .silent rfl rfl
  | checkExhausted request =>
    simp only [step]
    split
    · rename_i hknown
      rw [hs.limit_eq]
      exact .returns rfl (.exhausted request (e.total_serving.trans (htruth hknown))) rfl
    · exact .silent rfl rfl
  | checkOpen request =>
    simp only [step]
    split
    · exact .silent rfl rfl
    · rename_i hclosed
      exact .returns rfl (.closed request (Bool.not_eq_true _ ▸ hclosed)) rfl
  | recheckOpen request =>
    simp only [step]
    split
    · exact .silent rfl rfl
    · rename_i hclosed
      exact .takes rfl (.closed request (Bool.not_eq_true _ ▸ hclosed)) rfl
  | enter request | publishLimit request => exact .silent rfl rfl
  | backOut request => exact ⟨_, .inl ⟨rfl, rfl⟩, .inr ⟨request, _, rfl, rfl, rfl⟩⟩
  | loadMode request =>
    simp only [step]
    split <;> exact .silent rfl rfl
  | strictLoad request mode => exact step_strictDecide hs hf (hserving mode rfl) rfl
  | strictSwap request mode current =>
    simp only [step]
    split
    · rename_i hswap
      simp only [Bool.and_eq_true, beq_iff_eq] at hswap
      obtain rfl := hswap.2
      have hlt := e.config.limit_lt
      have hfit := hf.2
      rw [Nat.mod_eq_of_lt (by omega)]
      exact .takes rfl ((serves_strict request hf.1 (hserving mode rfl)).2 hf.2) rfl
    · exact step_strictDecide hs hf.1 (hserving mode rfl) rfl
  | shardLoad request => exact step_shardDecide hreserves (hserving _ rfl).symm rfl
  | shardSwap request current =>
    have hmode : e.mode = .reservedPeak := (hserving _ rfl).symm
    simp only [step]
    split
    · rename_i hswap
      simp only [Bool.and_eq_true, beq_iff_eq] at hswap
      obtain rfl := hswap.2
      have hfit : (e.reserved.shardAt (CounterEngine.shardFor e.config request.routeHash)).used +
          request.delta ≤
          (e.reserved.shardAt (CounterEngine.shardFor e.config request.routeHash)).reserve := by
        simpa only [Fits, e.length_reserves, e.getD_reserves, ReservedCounter.shardAt] using hf
      have hreserve : (e.reserved.shardAt
          (CounterEngine.shardFor e.config request.routeHash)).reserve ≤ e.config.localPeak := by
        rw [← hs.reserved_limit, ← hs.bounded.sum_reserve]
        exact List.single_le_sum (fun _ _ => Nat.zero_le _) _
          (List.mem_map_of_mem (hs.bounded.shardAt_mem _))
      have hlt := e.config.localPeak_lt
      rw [Nat.mod_eq_of_lt (by omega)]
      exact .takes rfl ((serves_peak request hreserves hmode).2 hfit) rfl
    · exact step_shardDecide hreserves hmode rfl
  | remoteLoad request =>
    have hserved : Service.Serves e.config e.service request _ _ := .served e.service request
    simp only [CounterEngine.service, CounterEngine.serving, ← hserving _ rfl, Serving.serve]
      at hserved
    refine .takes rfl ?_ rfl
    simpa only [CounterEngine.service, CounterEngine.serving, ← hserving _ rfl, step] using hserved
  | rememberHas request mode result =>
    simp only [step]
    split <;> exact .silent rfl rfl
  | rememberCompare request mode result =>
    simp only [step]
    split
    · exact .silent rfl (stage_afterRemember e request mode result)
    · exact .silent rfl rfl
  | rememberStore request mode result => exact .silent rfl rfl
  | rememberFlag request mode result =>
    exact .silent rfl (stage_afterRemember e request mode result)
  | announceSwap request result =>
    simp only [step]
    split
    · exact .silent rfl rfl
    · refine .silent ?_ rfl
      have hused := map_set_of_eq Shard.used
        { e.reserved.shardAt result.shard with exhaustionAnnounced := true } default
        e.reserved.shards (result.shard % e.reserved.shards.length) rfl
      exact congrArg (Service.mk _) (CounterEngine.serving_congr rfl (fun _ => rfl) fun _ => hused)
  | leave request result => exact ⟨_, .inl ⟨rfl, rfl⟩, .inr ⟨request, result, rfl, rfl, rfl⟩⟩
  -- the rest of the bookkeeping behind an answer
  | announceLoad | countShard | markExhausted | loadPublisher =>
    simp only [step]
    split <;> exact .silent rfl rfl

end ApplyPoint

namespace ControlPoint

variable {e e' : CounterEngine}

/-- What the control thread does to the gate and to the counters that do not serve. -/
private theorem drifts_of_serving {config : CounterEngineConfig} (h : e'.serving = e.serving) :
    Relation.ReflTransGen (Service.Drifts config) e.service e'.service := by
  have hgate : Service.Drifts config e.service { e.service with gateOpen := e'.gateOpen } :=
    .gate _ _
  have heq : e'.service = { e.service with gateOpen := e'.gateOpen } :=
    congrArg (Service.mk _) h
  exact heq ▸ .single hgate

/-- **The control thread moves the total to another counter behind a closed gate.** -/
theorem step_drifts (hs : e.Sound) {p : ControlPoint} (h : p.Knows e)
    (hclosed : p.closed = true → e.gateOpen = false)
    (hreserves : e.reserves = (CounterEngine.new e.config).reserves) :
    Relation.ReflTransGen (Service.Drifts e.config) e.service (p.step e).1.service := by
  cases p with
  | reservedPublish =>
    obtain ⟨hmode, hused⟩ := h
    have hgate : e.gateOpen = false := hclosed rfl
    have hwithin : List.Forall₂ (· ≤ ·) (e.reserved.shards.map Shard.used)
        (CounterEngine.new e.config).reserves := by
      rw [← hreserves, CounterEngine.reserves, List.forall₂_map_left_iff,
        List.forall₂_map_right_iff, List.forall₂_same]
      exact hs.bounded.le_reserve
    refine .single ?_
    have henter : Service.Drifts e.config ⟨false, .strict e.strict.value⟩
        ⟨false, .peak (e.reserved.shards.map Shard.used)⟩ := .enterReserved hused hwithin
    simpa only [CounterEngine.service, CounterEngine.serving, hmode, hgate, ControlPoint.step]
      using henter
  | dangerPublish =>
    obtain ⟨hmode, hvalue⟩ := h
    have hgate : e.gateOpen = false := hclosed rfl
    refine .single ?_
    have henter : Service.Drifts e.config ⟨false, .peak (e.reserved.shards.map Shard.used)⟩
        ⟨false, .danger (e.reserved.shards.map Shard.used).sum⟩ := .enterDanger
    simpa only [CounterEngine.service, CounterEngine.serving, hmode, hgate, ControlPoint.step,
      hvalue, ReservedCounter.used] using henter
  -- the shards do not serve in strict mode, the strict value does not serve in peak mode
  | reservedSeed | reservedAnnounce =>
    exact drifts_of_serving (CounterEngine.serving_congr rfl (fun _ => rfl)
      fun hpeak => by cases h.1.symm.trans hpeak)
  | dangerSeed total =>
    refine drifts_of_serving ?_
    simp only [ControlPoint.step]
    split
    · rfl
    · exact CounterEngine.serving_congr rfl (fun hne => absurd h.1 hne) fun _ => rfl
  | commitActive | commitMode | commitSeed | commitPublish => exact h.elim
  | _ =>
    refine drifts_of_serving ?_
    simp only [ControlPoint.step]
    repeat' split
    all_goals rfl

end ControlPoint

/-! ### What is known to be spent is spent -/

/-- The strict value serves and stands at the limit. -/
def CounterEngine.AtLimit (e : CounterEngine) : Prop :=
  e.mode ≠ .reservedPeak ∧ e.strict.value = e.config.limit

namespace ApplyPoint

/-- What a thread knows about the end in an engine that owns only a part of the limit. Such an
engine announces no shard. -/
def Sees (e : CounterEngine) : ApplyPoint → Prop
  | .rememberHas _ mode result | .rememberCompare _ mode result | .rememberStore _ mode result
  | .rememberFlag _ mode result =>
    mode ≠ .reservedPeak → e.mode ≠ .reservedPeak ∧ result.observed ≤ e.strict.value
  | .announceLoad _ _ | .announceSwap _ _ | .countShard _ _ => False
  | .markExhausted _ _ => e.AtLimit
  | _ => True

variable {e e' : CounterEngine} {p : ApplyPoint}

theorem sees_of_not_inside (h : p.inside = false) : p.Sees e := by
  cases p with
  | idle | checkExhausted | checkOpen | enter | recheckOpen | backOut => trivial
  | _ => cases h

theorem Sees.mono (h : p.Sees e) (hmode : e'.mode = e.mode)
    (hvalue : e.strict.value ≤ e'.strict.value) (hspent : e.AtLimit → e'.AtLimit) : p.Sees e' := by
  cases p with
  | rememberHas | rememberCompare | rememberStore | rememberFlag =>
    intro hpeak
    obtain ⟨hstrict, hle⟩ := h hpeak
    exact ⟨hmode ▸ hstrict, hle.trans hvalue⟩
  | markExhausted => exact hspent h
  | announceLoad | announceSwap | countShard => exact h.elim
  | _ => trivial

/-- Behind an accepted request in a strict mode the thread sees whether it was the last one. -/
private theorem sees_afterRemember (hs : e.Sound) (hpart : e.localPeak ≠ e.limit)
    {request : Request}
    {mode : RoutingMode} {result : Result}
    (h : mode ≠ .reservedPeak → e.mode ≠ .reservedPeak ∧ result.observed ≤ e.strict.value) :
    (afterRemember e request mode result).Sees e := by
  unfold afterRemember
  split
  · rename_i hmode
    obtain ⟨hstrict, hle⟩ := h hmode
    split
    · rename_i hend
      exact ⟨hstrict, Nat.le_antisymm hs.value_le (hs.limit_eq ▸ hend ▸ hle)⟩
    · trivial
  · trivial

private theorem sees_strictDecide (limit : ℕ) (request : Request) (mode : RoutingMode)
    (current : ℕ) : (strictDecide limit request mode current).Sees e := by
  unfold strictDecide
  split <;> trivial

private theorem sees_shardDecide (reserve selected : ℕ) (request : Request) (current : ℕ) :
    (shardDecide reserve selected request current).Sees e := by
  unfold shardDecide
  split <;> trivial

/-- **One access of a request thread tells the engine nothing that is not so.** -/
theorem step_sees (hs : e.Sound) (hpart : e.localPeak ≠ e.limit) (spurious : Bool) (hf : p.Fits e)
    (h : p.Sees e) (hserving : ∀ mode, p.serving = some mode → mode = e.mode) :
    (p.step e spurious).2.1.Sees (p.step e spurious).1 ∧
      ((p.step e spurious).1.exhausted = true → e.exhausted = true ∨ e.AtLimit) := by
  cases p with
  | strictLoad => exact ⟨sees_strictDecide _ _ _ _, .inl⟩
  | strictSwap request mode current =>
    simp only [step]
    split
    · rename_i hswap
      refine ⟨fun hmode => ⟨?_, Nat.le_refl _⟩, .inl⟩
      exact hserving mode rfl ▸ hmode
    · exact ⟨sees_strictDecide _ _ _ _, .inl⟩
  | shardLoad => exact ⟨sees_shardDecide _ _ _ _, .inl⟩
  | shardSwap request current =>
    simp only [step]
    split
    · exact ⟨fun hmode => absurd rfl hmode, .inl⟩
    · exact ⟨sees_shardDecide _ _ _ _, .inl⟩
  | rememberHas =>
    simp only [step]
    split <;> exact ⟨h, .inl⟩
  | rememberCompare =>
    simp only [step]
    split
    · exact ⟨sees_afterRemember hs hpart h, .inl⟩
    · exact ⟨h, .inl⟩
  | rememberStore => exact ⟨h, .inl⟩
  | rememberFlag =>
    refine ⟨(sees_afterRemember hs hpart h).mono rfl (Nat.le_refl _) id, .inl⟩
  | markExhausted =>
    simp only [step]
    split
    · exact ⟨trivial, .inl⟩
    · exact ⟨trivial, fun _ => .inr h⟩
  | announceLoad | announceSwap | countShard => exact h.elim
  | _ =>
    simp only [step]
    repeat' split
    all_goals exact ⟨trivial, .inl⟩

end ApplyPoint

namespace ControlPoint

/-- The accesses behind a refused collapse and behind a commit, where the control thread of an
engine that owns only a part of the limit never comes without a handoff. -/
def beyond : ControlPoint → Bool
  | .dangerClose | .dangerDrain | .dangerTotal _ _ | .dangerSeed _ | .dangerReopen
  | .dangerPublish | .dangerClearCount | .dangerEpoch | .dangerClear | .dangerOpen
  | .commitActive _ _ | .commitMode _ _ | .commitSeed _ _ | .commitPublish _ _
  | .commitClearCount _ _ | .commitEpoch _ _ | .commitClear _ _ | .commitRelease _ _
  | .commitCounter | .commitMark _ | .commitPublisher _ | .commitEvent _ | .commitRemember
  | .commitOpen => true
  | _ => false

variable {e : CounterEngine} {p : ControlPoint}

private theorem beyond_seedNext (e : CounterEngine) (index remaining : ℕ) :
    (seedNext e index remaining).beyond = false := by
  unfold seedNext
  split
  · rfl
  · split <;> rfl

private theorem beyond_loopNext (mode : RoutingMode) : (loopNext mode).beyond = false := by
  cases mode <;> rfl

/-- The control thread of an engine that owns only a part of the limit never touches the strict
value, and it enters peak mode only with a total that the shards can hold. -/
theorem part_step (hs : e.Sound) (hpart : e.localPeak < e.limit) (h : p.Knows e)
    (hbeyond : p.beyond = false) :
    (p.step e).2.beyond = false ∧ (p.step e).1.strict = e.strict ∧
      (p.step e).1.exhausted = e.exhausted ∧
      ((p.step e).1.mode = e.mode ∨ p.exclusive = true ∧ ¬ e.AtLimit) := by
  cases p with
  | reservedPublish =>
    obtain ⟨-, hused⟩ := h
    refine ⟨rfl, rfl, rfl, .inr ⟨rfl, fun hspent => ?_⟩⟩
    have hle := hs.used_le
    have hlimit := hs.limit_eq
    have hvalue := hspent.2
    omega
  | reservedLoad | reservedAnnounce =>
    simp only [ControlPoint.step]
    repeat' split
    all_goals
      exact ⟨by first | rfl | exact beyond_seedNext _ _ _, by trivial, by trivial,
        .inl (by trivial)⟩
  | dangerActive =>
    have hrefused : (decide (e.localPeak ≠ e.limit) || e.distributedHandoffActive) = true := by
      simp [hpart.ne]
    simp only [ControlPoint.step, hrefused, if_true]
    exact ⟨rfl, trivial, trivial, .inl trivial⟩
  | loopEpoch | snapshotPublisher | snapshotPublish =>
    simp only [ControlPoint.step]
    repeat' split
    all_goals
      exact ⟨by first | rfl | exact beyond_loopNext _, by trivial, by trivial, .inl (by trivial)⟩
  | dangerClose | dangerDrain | dangerTotal | dangerSeed | dangerReopen | dangerPublish
  | dangerClearCount | dangerEpoch | dangerClear | dangerOpen | commitActive | commitMode
  | commitSeed | commitPublish | commitClearCount | commitEpoch | commitClear | commitRelease
  | commitCounter | commitMark | commitPublisher | commitEvent | commitRemember | commitOpen =>
    cases hbeyond
  | _ =>
    simp only [ControlPoint.step]
    repeat' split
    all_goals exact ⟨by trivial, by trivial, by trivial, .inl (by trivial)⟩

end ControlPoint

namespace Machine

variable {R : Type} [Fintype R] {config : CounterEngineConfig} {m m' : Machine R Unit}

/-- The invariant of an engine that owns only a part of the limit. -/
structure Partial (m : Machine R Unit) : Prop where
  part : m.engine.localPeak < m.engine.limit
  control : (m.control ()).beyond = false
  sees : ∀ r, (m.request r).Sees m.engine
  truthful : m.engine.exhausted = true → m.engine.AtLimit

/-- What an engine with one control thread keeps, whichever part of the limit it owns. -/
structure Serviceable (config : CounterEngineConfig) (m : Machine R Unit) : Prop where
  conserved : Conserved config m
  reserves : m.engine.reserves = (CounterEngine.new config).reserves
  truthful : config.limit = 0 ∨ m.Tallied ∨ m.Partial

/-- **An engine that says that nothing is left is right.** -/
theorem Serviceable.exhausted_balance (h : Serviceable config m)
    (hpeak : config.localPeak ≤ config.limit) (hknown : m.engine.exhausted = true) :
    m.engine.balance = m.engine.config.limit := by
  have hconfig := h.conserved.config_eq
  rcases h.truthful with hzero | htallied | hpart
  · have hle := h.conserved.wf.sound.balance_le (hconfig ▸ hpeak)
    rw [hconfig] at hle ⊢
    omega
  · rw [htallied.truthful hknown, h.conserved.wf.sound.limit_eq]
  · obtain ⟨hmode, hvalue⟩ := hpart.truthful hknown
    rw [CounterEngine.balance_of_ne hmode, hvalue]

theorem serviceable_init (publisher : Bool) (hthreads : Fintype.card R < 2 ^ 32)
    (hpeak : config.localPeak ≤ config.limit) (hshards : config.shards < 2 ^ 32) :
    Serviceable config (initPublishing R config publisher) where
  conserved := conserved_initPublishing publisher hthreads
  reserves := rfl
  truthful := by
    rcases Nat.eq_zero_or_pos config.limit with hzero | hpos
    · exact .inl hzero
    · rcases hpeak.lt_or_eq with hpart | hwhole
      · exact .inr (.inr ⟨hpart, rfl, fun _ => trivial, fun h => absurd h Bool.false_ne_true⟩)
      · exact .inr (.inl (tallied_initPublishing publisher hpos hwhole hshards))

variable [DecidableEq R]

/-- Every step keeps it. -/
private theorem Partial.step (h : m.Partial) (hc : Conserved config m) {a : Action R Unit}
    (hlocal : localOnly m a) (hstep : m.step a = some m') : m'.Partial := by
  cases a with
  | call r request =>
    simp only [Machine.step] at hstep
    split at hstep
    · obtain rfl := Option.some.inj hstep
      refine ⟨h.part, h.control, fun r' => ?_, h.truthful⟩
      dsimp only
      by_cases hr : r' = r
      · subst hr
        rw [Function.update_self]
        trivial
      · rw [Function.update_of_ne hr]
        exact h.sees r'
    · cases hstep
  | run r spurious =>
    have he := hc.wf.effect r spurious
    have hsees := ApplyPoint.step_sees hc.wf.sound h.part.ne spurious (hc.wf.fits r) (h.sees r)
      (hc.serving r)
    obtain rfl := Option.some.inj hstep
    set next := (m.request r).step m.engine spurious with hnext
    have hvalue : m.engine.strict.value ≤ next.1.strict.value := by
      obtain ⟨d, -, ⟨-, hsame, -⟩ | ⟨-, hmore, -⟩ | ⟨-, hsame, -⟩⟩ := he.spent
      · rw [hsame]
      · omega
      · rw [hsame]
    -- the strict value only grows, so a limit that is reached stays reached
    have hspent : m.engine.AtLimit → next.1.AtLimit := by
      rintro ⟨hmode, hfull⟩
      refine ⟨he.mode ▸ hmode, Nat.le_antisymm he.sound.value_le ?_⟩
      rw [he.config, ← hfull]
      exact hvalue
    have hlimit : next.1.limit = m.engine.limit := by
      rw [he.sound.limit_eq, he.config, ← hc.wf.sound.limit_eq]
    refine ⟨?_, h.control, fun r' => ?_, fun hknown => ?_⟩
    · dsimp only
      rw [hlimit, CounterEngine.localPeak, he.config]
      exact h.part
    · dsimp only
      by_cases hr : r' = r
      · subst hr
        rw [Function.update_self]
        exact hsees.1
      · rw [Function.update_of_ne hr]
        exact (h.sees r').mono he.mode hvalue hspent
    · rcases hsees.2 hknown with hold | hnew
      · exact hspent (h.truthful hold)
      · exact hspent hnew
  | invoke c op =>
    simp only [Machine.step] at hstep
    split at hstep
    · obtain rfl := Option.some.inj hstep
      refine ⟨h.part, ?_, h.sees, h.truthful⟩
      dsimp only
      rw [Function.update_self]
      cases op with
      | commitHandoff => exact hlocal.elim
      | _ => rfl
    · cases hstep
  | advance c =>
    obtain ⟨hbeyond, hstrict, hexhausted, hmode⟩ :=
      ControlPoint.part_step hc.wf.sound h.part hc.knows h.control
    obtain ⟨hkeep, -⟩ := ControlPoint.step_keeps hc.wf.sound (hc.wf.control_fits ())
    obtain rfl := Option.some.inj hstep
    set next := (m.control ()).step m.engine with hnext
    -- the mode changes only where the limit is not reached yet
    have hspent : m.engine.AtLimit → next.1.AtLimit := by
      rintro ⟨hstrictly, hfull⟩
      rcases hmode with hsame | ⟨-, hnot⟩
      · exact ⟨hsame ▸ hstrictly, by rw [hstrict, hkeep.config, hfull]⟩
      · exact absurd ⟨hstrictly, hfull⟩ hnot
    have hlimit : next.1.limit = m.engine.limit := congrArg StrictCounter.limit hstrict
    refine ⟨?_, ?_, fun r => ?_, fun hknown => hspent (h.truthful (hexhausted ▸ hknown))⟩
    · dsimp only
      rw [hlimit, CounterEngine.localPeak, hkeep.config]
      exact h.part
    · dsimp only
      rw [Function.update_self]
      exact hbeyond
    · dsimp only
      rcases hmode with hsame | ⟨hexclusive, -⟩
      · exact (h.sees r).mono hsame (by rw [hstrict]) hspent
      · exact ApplyPoint.sees_of_not_inside (hc.alone hexclusive r)
  | raisePeakRequest =>
    obtain rfl := Option.some.inj hstep
    exact ⟨h.part, h.control, fun r => (h.sees r).mono rfl (Nat.le_refl _) id, h.truthful⟩

/-- Every step keeps it. -/
theorem Serviceable.step (h : Serviceable config m) {a : Action R Unit} (hlocal : localOnly m a)
    (hstep : m.step a = some m') : Serviceable config m' where
  conserved := h.conserved.step hlocal hstep
  reserves := by
    refine Eq.trans ?_ h.reserves
    cases a with
    | call | invoke =>
      simp only [Machine.step] at hstep
      split at hstep
      · obtain rfl := Option.some.inj hstep
        rfl
      · cases hstep
    | run r spurious =>
      obtain rfl := Option.some.inj hstep
      exact (h.conserved.wf.effect r spurious).reserves
    | advance c =>
      obtain rfl := Option.some.inj hstep
      exact (ControlPoint.step_keeps h.conserved.wf.sound
        (h.conserved.wf.control_fits c)).1.reserves
    | raisePeakRequest =>
      obtain rfl := Option.some.inj hstep
      rfl
  truthful := h.truthful.imp_right fun htruthful =>
    htruthful.imp (fun htallied => htallied.step h.conserved hlocal hstep)
      fun hpart => hpart.step h.conserved hlocal hstep

/-! ### The theorem -/

/-- What the clients see of an action: a call, or the answer that the access returns with. -/
def label (m : Machine R Unit) : Action R Unit → Label R Request Result
  | .call r request => .invoke r request
  | .run r spurious =>
    match ((m.request r).step m.engine spurious).2.2 with
    | [] => .silent
    | entry :: _ => .answer r entry.2
  | _ => .silent

omit [Fintype R] in
private theorem stage_update (request : R → ApplyPoint) (r : R) (p : ApplyPoint) :
    (fun r' => (Function.update request r p r').stage) =
      Function.update (fun r' => (request r').stage) r p.stage := by
  funext r'
  exact Function.apply_update (fun _ => ApplyPoint.stage) _ _ _ _

/-- The engine commits every call to one step of the service. -/
theorem commits (hpeak : config.localPeak ≤ config.limit) :
    Commits (Service.object config) Machine.step localOnly label (Serviceable config)
      (fun m : Machine R Unit => m.engine.service) fun m r => (m.request r).stage where
  keeps _ _ _ h hlocal hstep := h.step hlocal hstep
  commits m m' a h hlocal hstep := by
    have hc := h.conserved
    have hconfig := hc.config_eq
    cases a with
    | call r request =>
      simp only [Machine.step] at hstep
      split at hstep
      · rename_i hidle
        obtain rfl := Option.some.inj hstep
        refine ⟨_, _, .none, ?_, .refl⟩
        dsimp only
        rw [stage_update]
        exact .invoke (by rw [hidle]; rfl)
      · cases hstep
    | run r spurious =>
      obtain ⟨stage, hdecides, hreports⟩ := ApplyPoint.step_serves hc.wf.sound spurious
        (hc.wf.fits r) (hc.serving r) (hconfig ▸ h.reserves) (h.exhausted_balance hpeak)
      obtain rfl := Option.some.inj hstep
      set next := (m.request r).step m.engine spurious with hnext
      -- the access that decides the call is its step of the service; the last one reports it
      refine ⟨next.1.service, Function.update (fun r' => (m.request r').stage) r stage, ?_, ?_,
        .refl⟩
      · rcases hdecides with ⟨rfl, hservice⟩ | ⟨request, result, hpending, rfl, hserves⟩
        · rw [hservice, Function.update_eq_self]
          exact .none
        · exact .call hpending (hconfig ▸ hserves)
      · dsimp only
        rw [stage_update]
        rcases hreports with ⟨hlog, rfl⟩ | ⟨request, result, hlog, rfl, hidle⟩
        · rw [label, ← hnext, hlog]
          exact .silent
        · have hback : Function.update (fun r' => (m.request r').stage) r .idle =
              Function.update (Function.update (fun r' => (m.request r').stage) r
                (.decided request result)) r .idle := (Function.update_idem ..).symm
          rw [label, ← hnext, hlog, hidle, hback]
          exact .answer (Function.update_self ..)
    | invoke c op =>
      simp only [Machine.step] at hstep
      split at hstep
      · obtain rfl := Option.some.inj hstep
        exact ⟨_, _, .none, .silent, .refl⟩
      · cases hstep
    | advance c =>
      obtain rfl := Option.some.inj hstep
      -- what the control thread does is a drift of the service
      refine ⟨_, _, .none, .silent, ?_⟩
      have hdrifts := ControlPoint.step_drifts hc.wf.sound hc.knows hc.closed
        (hconfig ▸ h.reserves)
      exact hconfig ▸ hdrifts
    | raisePeakRequest =>
      obtain rfl := Option.some.inj hstep
      exact ⟨_, _, .none, .silent, .refl⟩

/-- **The engine is linearizable.** Whatever part of the limit the engine owns, and however the
accesses of its request threads and its control thread interleave, there is an order of the calls in
which the service, starting from nothing spent, gives every answer that was given and stands where
the engine stands, and calls that did not overlap keep their order. -/
theorem linearizable (publisher : Bool) (hthreads : Fintype.card R < 2 ^ 32)
    (hpeak : config.localPeak ≤ config.limit) (hshards : config.shards < 2 ^ 32)
    {t : Recorded (Machine R Unit) R Request Result}
    (h : Steps (Recorded.next Machine.step label) (fun t a => localOnly t.state a)
      ⟨initPublishing R config publisher, fun _ => none, 0, []⟩ t) :
    ∃ order, Linearization (Service.object config) t.history order t.state.engine.service :=
  ((commits hpeak).linearized (serviceable_init publisher hthreads hpeak hshards) rfl
    (fun _ => rfl) h).2

/-- A request is served in strict mode, one is turned away while the control thread moves to peak
mode, and one is served there. -/
def turnedAwayRun : List (Action Bool Unit) :=
  .call false ⟨17, 30, 5⟩ :: List.replicate 11 (.run false false) ++
    .invoke () .enterReservedMode :: List.replicate 2 (.advance ()) ++
    .call true ⟨17, 15, 9⟩ :: List.replicate 2 (.run true false) ++
    List.replicate 18 (.advance ()) ++
    .call true ⟨17, 15, 9⟩ :: List.replicate 14 (.run true false)

theorem linearizable_turnedAwayRun :
    ∃ t : Recorded (Machine Bool Unit) Bool Request Result,
      t.history = [.answer true 2 ⟨.accepted, 45, 0⟩, .invoke true 2 ⟨17, 15, 9⟩,
        .answer true 1 ⟨.rejected, 0, 0⟩, .invoke true 1 ⟨17, 15, 9⟩,
        .answer false 0 ⟨.accepted, 30, 0⟩, .invoke false 0 ⟨17, 30, 5⟩] ∧
      ∃ order, Linearization (Service.object CounterEngine.testConfig) t.history order
        t.state.engine.service := by
  have hrun : (exec (Recorded.next Machine.step label) (fun t a => localOnly t.state a)
      ⟨initPublishing Bool CounterEngine.testConfig false, fun _ => none, 0, []⟩
      turnedAwayRun).map (fun t => decide (t.history = [.answer true 2 ⟨.accepted, 45, 0⟩,
        .invoke true 2 ⟨17, 15, 9⟩, .answer true 1 ⟨.rejected, 0, 0⟩, .invoke true 1 ⟨17, 15, 9⟩,
        .answer false 0 ⟨.accepted, 30, 0⟩, .invoke false 0 ⟨17, 30, 5⟩])) = some true := by
    decide +kernel
  obtain ⟨t, hsteps, hhistory⟩ := Steps.exists_of_exec hrun
  exact ⟨t, hhistory, linearizable false (by decide) (by decide) (by decide) hsteps⟩

end Machine

end HotCounter
