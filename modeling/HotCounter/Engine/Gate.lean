import HotCounter.Engine.Spec
import HotCounter.Engine.Threads

/-!
# What the threads of an engine can do to each other

Facts that hold in every interleaving of any number of request and control threads:

* a request thread gets inside only through an open gate, moves a counter only inside, and
  never touches the control plane (`ApplyPoint.step_effect`);
* the engine stays sound, since a compare-and-swap that succeeds does so on the very value that
  passed the admission test, and the in-flight count is the number of request threads between
  the two ends of the gate: with fewer than `2 ^ 32` request threads it never wraps
  (`Machine.Wf`, `Machine.Wf.step`).
-/

namespace HotCounter

open Foundation

/-- The reserves of an engine's shards, which no step ever changes. -/
def CounterEngine.reserves (e : CounterEngine) : List ℕ := e.reserved.shards.map Shard.reserve

@[simp]
theorem CounterEngine.length_reserves (e : CounterEngine) :
    e.reserves.length = e.reserved.shards.length := List.length_map _

theorem CounterEngine.getD_reserves (e : CounterEngine) (i : ℕ) :
    e.reserves.getD i 0 = (e.reserved.shards.getD i default).reserve :=
  List.getD_map e.reserved.shards default Shard.reserve

/-- What the first shards have spent. -/
def CounterEngine.usedBefore (e : CounterEngine) (index : ℕ) : ℕ :=
  ((e.reserved.shards.take index).map Shard.used).sum

namespace CounterEngine

/-- Nothing is spent before the first shard. -/
@[simp]
theorem usedBefore_zero (e : CounterEngine) : e.usedBefore 0 = 0 := by simp [usedBefore]

/-- Passing a shard adds what it has spent. -/
theorem usedBefore_succ (e : CounterEngine) {index : ℕ} (h : index < e.reserved.shards.length) :
    e.usedBefore (index + 1) = e.usedBefore index + (ControlPoint.shard e index).used :=
  sum_map_take_succ Shard.used default _ index h

/-- Past the last shard, everything spent has been added. -/
theorem usedBefore_of_le (e : CounterEngine) {index : ℕ}
    (h : e.reserved.shards.length ≤ index) : e.usedBefore index = e.reserved.used := by
  rw [usedBefore, List.take_of_length_le h, ReservedCounter.used]

/-- A part of the shards has spent no more than all of them. -/
theorem usedBefore_le (e : CounterEngine) (index : ℕ) : e.usedBefore index ≤ e.reserved.used :=
  ((List.take_sublist index _).map Shard.used).sum_le_sum fun _ _ => Nat.zero_le _

/-- The summing loops read an exact prefix sum: nothing wraps. -/
theorem Sound.add_shard {e : CounterEngine} (hs : e.Sound) {index total : ℕ}
    (h : index < e.reserved.shards.length) (htotal : total = e.usedBefore index) :
    (total + (ControlPoint.shard e index).used) % 2 ^ 64 = e.usedBefore (index + 1) := by
  have hsucc := e.usedBefore_succ h
  have hle := e.usedBefore_le (index + 1)
  have hused := hs.used_le
  have hlt := e.config.localPeak_lt
  rw [Nat.mod_eq_of_lt (by unfold CounterEngine.localPeak at hused; omega)]
  omega

/-- One shard is replaced, the others stay. -/
theorem getD_set_shards (shards : List Shard) {i : ℕ} (h : i < shards.length) (s : Shard) (j : ℕ) :
    (shards.set i s).getD j default = if j = i then s else shards.getD j default := by
  simp only [List.getD_eq_getElem?_getD, List.getElem?_set]
  by_cases hj : j = i
  · simp [hj, h]
  · simp [hj, Ne.symm hj]

/-- The shards after a request thread has written to one. -/
theorem shard_write {e : CounterEngine} (hs : e.Sound) (id : ℕ) (s : Shard) (i : ℕ) :
    ControlPoint.shard { e with reserved := e.reserved.setShard id s } i =
      if i = id % e.reserved.shards.length then s else ControlPoint.shard e i :=
  getD_set_shards _ (hs.bounded.index_lt id) s i

end CounterEngine

namespace ApplyPoint

/-- The thread has incremented the in-flight count and not yet decremented it. -/
def counted : ApplyPoint → Bool
  | .idle | .checkExhausted _ | .checkOpen _ | .enter _ => false
  | _ => true

/-- `try_enter` has returned `true` and `leave` has not been called. -/
def inside : ApplyPoint → Bool
  | .idle | .checkExhausted _ | .checkOpen _ | .enter _ | .recheckOpen _ | .backOut _ => false
  | _ => true

/-- The mode under which the thread is about to decide its request. -/
def serving : ApplyPoint → Option RoutingMode
  | .strictLoad _ mode | .strictSwap _ mode _ => some mode
  | .shardLoad _ | .shardSwap _ _ => some .reservedPeak
  | .remoteLoad _ => some .remoteStrict
  | _ => none

/-- What the thread has spent and not yet reported to its client. -/
def pending : ApplyPoint → ℕ
  | .rememberHas request _ result | .rememberCompare request _ result
  | .rememberStore request _ result | .rememberFlag request _ result
  | .announceLoad request result | .announceSwap request result | .countShard request result
  | .markExhausted request result | .loadPublisher request result | .publishLimit request result
  | .leave request result => spentBy request result
  | _ => 0

/-- The value a thread is about to swap in has passed the admission test, and a thread that
decides strictly read a strict mode. -/
def Fits (e : CounterEngine) : ApplyPoint → Prop
  | .strictLoad _ mode => mode = .strict ∨ mode = .dangerStrict
  | .strictSwap request mode current =>
    (mode = .strict ∨ mode = .dangerStrict) ∧ current + request.delta ≤ e.config.limit
  | .shardSwap request current =>
    current + request.delta ≤
      e.reserves.getD (CounterEngine.shardFor e.config request.routeHash % e.reserves.length) 0
  | _ => True

/-- A request inside the gate is counted. -/
theorem counted_of_inside {p : ApplyPoint} (h : p.inside = true) : p.counted = true := by
  cases p <;> simp_all [inside, counted]

theorem pending_of_not_inside {p : ApplyPoint} (h : p.inside = false) : p.pending = 0 := by
  cases p <;> simp_all [inside, pending]

/-- A request that is served is inside the gate. -/
theorem inside_of_serving {p : ApplyPoint} {mode : RoutingMode} (h : p.serving = some mode) :
    p.inside = true := by
  cases p <;> simp_all [inside, serving]

end ApplyPoint

namespace ApplyPoint

/-! ### The outcomes of one access of a request thread -/

/-- Everything one access of a request thread can do, seen from outside the thread. -/
structure Effect (e : CounterEngine) (p : ApplyPoint) (e' : CounterEngine) (p' : ApplyPoint)
    (log : List (Request × Result)) : Prop extends CounterEngine.SameControl e e' where
  sound : e'.Sound
  reserves : e'.reserves = e.reserves
  fits : p'.Fits e'
  /-- the in-flight count follows the thread -/
  inFlight : e'.inFlight + (if p.counted then 1 else 0) = e.inFlight + (if p'.counted then 1 else 0)
  /-- only an open gate lets a thread inside -/
  enters : p'.inside = true → p.inside = true ∨ e.gateOpen = true
  /-- a mode is read once, inside -/
  serving : ∀ mode, p'.serving = some mode → p.serving = some mode ∨ mode = e.mode
  /-- what is spent is moved to one counter, chosen by the mode that was read -/
  spent : ∃ d, p'.pending + acceptedSum log = p.pending + d ∧
    ((d = 0 ∧ e'.strict = e.strict ∧ e'.reserved.used = e.reserved.used) ∨
      ((p.serving = some .strict ∨ p.serving = some .dangerStrict) ∧
        e'.strict.value = e.strict.value + d ∧ e'.reserved.used = e.reserved.used) ∨
      (p.serving = some .reservedPeak ∧ e'.strict = e.strict ∧
        e'.reserved.used = e.reserved.used + d))
  /-- an accepting answer is given by a thread that was inside -/
  answers : ∀ entry ∈ log, entry.2.decision = .accepted → p.inside = true

variable {e : CounterEngine}

theorem Fits.congr {e' : CounterEngine} {p : ApplyPoint} (h : p.Fits e)
    (hconfig : e'.config = e.config) (hreserves : e'.reserves = e.reserves) : p.Fits e' := by
  cases p <;> simp_all [Fits]

/-- An access that leaves the engine's counters, control plane and in-flight count alone. -/
private theorem Effect.silent (hs : e.Sound) {p p' : ApplyPoint} {e' : CounterEngine}
    {log : List (Request × Result)} (hbook : CounterEngine.Bookkeeping e e')
    (hreserves : e'.reserves = e.reserves) (hflight : e'.inFlight = e.inFlight)
    (hcounted : p'.counted = p.counted) (hfits : p'.Fits e')
    (henters : p'.inside = true → p.inside = true ∨ e.gateOpen = true)
    (hserving : ∀ mode, p'.serving = some mode → p.serving = some mode ∨ mode = e.mode)
    (hpending : p'.pending + acceptedSum log = p.pending)
    (hanswers : ∀ entry ∈ log, entry.2.decision = .accepted → p.inside = true) :
    Effect e p e' p' log where
  toSameControl := hbook.toSameControl
  sound := hbook.sound hs
  reserves := hreserves
  fits := hfits
  inFlight := by rw [hflight, hcounted]
  enters := henters
  serving := hserving
  spent := ⟨0, hpending, .inl ⟨rfl, hbook.strict, hbook.used hs.bounded⟩⟩
  answers := hanswers

/-- The strict decision on the value just read. -/
private theorem effect_strictDecide (hs : e.Sound) {p : ApplyPoint} {request : Request}
    {mode : RoutingMode} (hmode : mode = .strict ∨ mode = .dangerStrict)
    (hcounted : p.counted = true) (hinside : p.inside = true) (hserving : p.serving = some mode)
    (hpending : p.pending = 0) (current : ℕ) :
    Effect e p e (strictDecide e.strict.limit request mode current) [] := by
  unfold strictDecide
  split
  · refine .silent hs (.refl e) rfl rfl hcounted.symm trivial
      (fun _ => .inl hinside) ?_ ?_ nofun
    · simp [serving]
    · rw [hpending]
      rfl
  · rename_i hfit
    have hle := StrictCounter.refuses_eq_false.mp (Bool.not_eq_true _ ▸ hfit)
    refine .silent hs (.refl e) rfl rfl hcounted.symm
      ⟨hmode, hs.strict_limit ▸ hle⟩ (fun _ => .inl hinside) ?_ ?_ nofun
    · intro m hm
      exact .inl (hserving.trans hm)
    · rw [hpending]
      rfl

/-- The peak decision on the value just read from the selected shard. -/
private theorem effect_shardDecide (hs : e.Sound) {p : ApplyPoint} {request : Request}
    (hcounted : p.counted = true) (hinside : p.inside = true)
    (hserving : p.serving = some .reservedPeak) (hpending : p.pending = 0) (current : ℕ) :
    Effect e p e (shardDecide
      (e.reserved.shardAt (CounterEngine.shardFor e.config request.routeHash)).reserve
      (selected e request) request current) [] := by
  unfold shardDecide
  split
  · refine .silent hs (.refl e) rfl rfl hcounted.symm trivial
      (fun _ => .inl hinside) ?_ ?_ nofun
    · simp [serving]
    · rw [hpending]
      rfl
  · rename_i hfit
    have hle := StrictCounter.refuses_eq_false.mp (Bool.not_eq_true _ ▸ hfit)
    refine .silent hs (.refl e) rfl rfl hcounted.symm ?_
      (fun _ => .inl hinside) ?_ ?_ nofun
    · simpa only [Fits, e.length_reserves, e.getD_reserves, ReservedCounter.shardAt] using hle
    · intro m hm
      exact .inl (hserving.trans hm)
    · rw [hpending]
      rfl

/-- A compare-and-swap of the strict value that succeeds adds exactly the tested delta. -/
private theorem effect_strictSwap (hs : e.Sound) {request : Request} {mode : RoutingMode}
    (hf : (strictSwap request mode e.strict.value).Fits e) :
    Effect e (.strictSwap request mode e.strict.value)
      { e with strict := { e.strict with value := (e.strict.value + request.delta) % 2 ^ 64 } }
      (.rememberHas request mode ⟨.accepted, (e.strict.value + request.delta) % 2 ^ 64, 0⟩) [] := by
  obtain ⟨hmode, hle⟩ := hf
  have hlt := e.config.limit_lt
  have hmod : (e.strict.value + request.delta) % 2 ^ 64 = e.strict.value + request.delta :=
    Nat.mod_eq_of_lt (by omega)
  rw [hmod]
  refine ⟨⟨rfl, rfl, rfl, rfl, rfl⟩, ⟨hs.strict_limit, hs.reserved_limit, hs.bounded, hle⟩, rfl,
    trivial, by simp [counted], fun _ => .inl rfl, nofun, ?_, nofun⟩
  refine ⟨request.delta, by simp [pending], .inr (.inl ⟨?_, rfl, rfl⟩)⟩
  rcases hmode with rfl | rfl
  · exact .inl rfl
  · exact .inr rfl

/-- The value that a thread is about to swap into a shard fits the shard, so it does not wrap. -/
theorem Fits.shardSwap_exact (hs : e.Sound) {request : Request} {current : ℕ}
    (hf : (shardSwap request current).Fits e) :
    current + request.delta ≤
        (e.reserved.shardAt (CounterEngine.shardFor e.config request.routeHash)).reserve ∧
      (current + request.delta) % 2 ^ 64 = current + request.delta := by
  set id := CounterEngine.shardFor e.config request.routeHash with hid
  have hle : current + request.delta ≤ (e.reserved.shardAt id).reserve := by
    simpa only [Fits, e.length_reserves, e.getD_reserves, ReservedCounter.shardAt] using hf
  have hreserve : (e.reserved.shardAt id).reserve ≤ e.config.localPeak := by
    rw [← hs.reserved_limit, ← hs.bounded.sum_reserve]
    exact List.single_le_sum (fun _ _ => Nat.zero_le _) _
      (List.mem_map_of_mem (hs.bounded.shardAt_mem id))
  have hlt := e.config.localPeak_lt
  exact ⟨hle, Nat.mod_eq_of_lt (by omega)⟩

/-- A compare-and-swap of a shard that succeeds adds exactly the tested delta. -/
private theorem effect_shardSwap (hs : e.Sound) {request : Request} {current : ℕ}
    (hf : (shardSwap request current).Fits e) (hcurrent :
      (e.reserved.shardAt (CounterEngine.shardFor e.config request.routeHash)).used = current) :
    Effect e (.shardSwap request current)
      { e with
        reserved := e.reserved.setShard (CounterEngine.shardFor e.config request.routeHash)
          { e.reserved.shardAt (CounterEngine.shardFor e.config request.routeHash) with
            used := (current + request.delta) % 2 ^ 64 } }
      (.rememberHas request .reservedPeak
        ⟨.accepted, (current + request.delta) % 2 ^ 64, selected e request⟩) [] := by
  obtain ⟨hle, hmod⟩ := hf.shardSwap_exact hs
  set id := CounterEngine.shardFor e.config request.routeHash with hid
  rw [hmod]
  refine ⟨⟨rfl, rfl, rfl, rfl, rfl⟩, ⟨hs.strict_limit, hs.reserved_limit,
    hs.bounded.setShard id rfl hle, hs.value_le⟩, map_set_of_eq Shard.reserve _ default _ _ rfl,
    trivial, by simp [counted], fun _ => .inl rfl, by simp [serving], ?_, by simp⟩
  refine ⟨request.delta, by simp [pending], .inr (.inr ⟨rfl, rfl, ?_⟩)⟩
  have hsum := hs.bounded.used_setShard id
    { e.reserved.shardAt id with used := current + request.delta }
  dsimp only at hsum ⊢
  omega

/-- Where `apply` goes after it remembered the counter, no counter moves. -/
private theorem effect_afterRemember (hs : e.Sound) {p : ApplyPoint} {e' : CounterEngine}
    {request : Request} {mode : RoutingMode} {result : Result}
    (hbook : CounterEngine.Bookkeeping e e') (hreserves : e'.reserves = e.reserves)
    (hflight : e'.inFlight = e.inFlight) (hcounted : p.counted = true)
    (hinside : p.inside = true) (hpending : p.pending = spentBy request result) :
    Effect e p e' (afterRemember e request mode result) [] := by
  have hmove : ∀ p' : ApplyPoint, p'.counted = true → p'.Fits e' → p'.serving = none →
      p'.pending = spentBy request result → Effect e p e' p' [] := by
    intro p' h1 h2 h3 h4
    exact .silent hs hbook hreserves hflight (h1.trans hcounted.symm) h2 (fun _ => .inl hinside)
      (by simp [h3]) (by simp [h4, hpending]) nofun
  unfold afterRemember
  split
  · split <;> exact hmove _ rfl trivial rfl rfl
  · split <;> exact hmove _ rfl trivial rfl rfl

/-- A thread outside the gate touches no counter. -/
theorem step_outside (e : CounterEngine) (spurious : Bool) {p : ApplyPoint}
    (h : p.inside = false) :
    (p.step e spurious).1.strict = e.strict ∧ (p.step e spurious).1.reserved = e.reserved := by
  cases p with
  | checkExhausted | checkOpen | recheckOpen =>
    simp only [step]
    split <;> simp
  | idle | enter | backOut => simp only [step, and_self]
  | _ => exact absurd h nofun

/-! ### The accesses, group by group -/

/-- What the thread's own next access does. -/
abbrev Acts (e : CounterEngine) (spurious : Bool) (p : ApplyPoint) : Prop :=
  Effect e p (p.step e spurious).1 (p.step e spurious).2.1 (p.step e spurious).2.2

/-- The 32-bit in-flight count includes a thread that has incremented it, and has room for one
that has not. -/
structure Counts (e : CounterEngine) (p : ApplyPoint) : Prop where
  pos : p.counted = true → 0 < e.inFlight
  room : e.inFlight + (if p.counted then 0 else 1) < 2 ^ 32

/-- `fetch_sub` on a count that includes the thread does not wrap. -/
theorem Counts.decrement {p : ApplyPoint} (h : p.Counts e) (hcounted : p.counted = true) :
    AdmissionGate.fetchSub e.inFlight + 1 = e.inFlight := by
  have hpos := h.pos hcounted
  have hroom := h.room
  rw [hcounted, if_pos rfl] at hroom
  unfold AdmissionGate.fetchSub
  omega

/-- `fetch_add` on a count with room for the thread does not wrap. -/
theorem Counts.increment {p : ApplyPoint} (h : p.Counts e) (hcounted : p.counted = false) :
    AdmissionGate.fetchAdd e.inFlight = e.inFlight + 1 := by
  have hroom := h.room
  rw [hcounted, if_neg Bool.false_ne_true] at hroom
  exact Nat.mod_eq_of_lt hroom

/-- An access that moves only the in-flight count. -/
private theorem Effect.count (hs : e.Sound) {p p' : ApplyPoint} {n : ℕ}
    {log : List (Request × Result)}
    (hcount : n + (if p.counted then 1 else 0) = e.inFlight + (if p'.counted then 1 else 0))
    (hfits : p'.Fits { e with inFlight := n }) (hinside : p'.inside = false)
    (hpending : p'.pending + acceptedSum log = p.pending)
    (hanswers : ∀ entry ∈ log, entry.2.decision = .accepted → p.inside = true) :
    Effect e p { e with inFlight := n } p' log where
  toSameControl := ⟨rfl, rfl, rfl, rfl, rfl⟩
  sound := ⟨hs.strict_limit, hs.reserved_limit, hs.bounded, hs.value_le⟩
  reserves := rfl
  fits := hfits
  inFlight := hcount
  enters := fun h => absurd (hinside.symm.trans h) Bool.false_ne_true
  serving := fun _ h =>
    absurd (hinside.symm.trans (inside_of_serving h)) Bool.false_ne_true
  spent := ⟨0, hpending, .inl ⟨rfl, rfl, rfl⟩⟩
  answers := hanswers

section

variable (hs : e.Sound) (spurious : Bool) (request : Request)

include hs

/-- `known_exhausted` and the first load of `try_enter`. -/
private theorem acts_checkExhausted : Acts e spurious (.checkExhausted request) := by
  simp only [Acts, step]
  split
  · exact .silent hs (.refl e) rfl rfl rfl trivial nofun nofun rfl (by simp)
  · exact .silent hs (.refl e) rfl rfl rfl trivial nofun nofun rfl nofun

private theorem acts_checkOpen : Acts e spurious (.checkOpen request) := by
  simp only [Acts, step]
  split
  · exact .silent hs (.refl e) rfl rfl rfl trivial nofun nofun rfl nofun
  · exact .silent hs (.refl e) rfl rfl rfl trivial nofun nofun rfl (by simp)

private theorem acts_enter (hc : Counts e (.enter request)) :
    Acts e spurious (.enter request) := by
  refine .count hs ?_ trivial rfl rfl nofun
  rw [hc.increment rfl]
  rfl

/-- The second load of `try_enter` lets the thread inside only through an open gate. -/
private theorem acts_recheckOpen : Acts e spurious (.recheckOpen request) := by
  simp only [Acts, step]
  split
  · rename_i hopen
    exact .silent hs (.refl e) rfl rfl rfl trivial (fun _ => .inr hopen) nofun rfl nofun
  · exact .silent hs (.refl e) rfl rfl rfl trivial nofun nofun rfl nofun

private theorem acts_backOut (hc : Counts e (.backOut request)) :
    Acts e spurious (.backOut request) := by
  exact .count hs (hc.decrement rfl) trivial rfl rfl (by simp [step])

private theorem acts_leave (result : Result) (hc : Counts e (.leave request result)) :
    Acts e spurious (.leave request result) := by
  exact .count hs (hc.decrement rfl) trivial rfl (by simp [step, pending]) fun _ _ _ => rfl

/-- The mode is read once, and the thread goes to the counter that it selects. -/
private theorem acts_loadMode : Acts e spurious (.loadMode request) := by
  simp only [Acts, step]
  cases hmode : e.mode with
  | strict =>
    exact .silent hs (.refl e) rfl rfl rfl (.inl rfl) (fun _ => .inl rfl)
      (fun m hm => .inr (by simpa [serving, hmode] using hm.symm)) rfl nofun
  | reservedPeak =>
    exact .silent hs (.refl e) rfl rfl rfl trivial (fun _ => .inl rfl)
      (fun m hm => .inr (by simpa [serving, hmode] using hm.symm)) rfl nofun
  | dangerStrict =>
    exact .silent hs (.refl e) rfl rfl rfl (.inr rfl) (fun _ => .inl rfl)
      (fun m hm => .inr (by simpa [serving, hmode] using hm.symm)) rfl nofun
  | remoteStrict =>
    exact .silent hs (.refl e) rfl rfl rfl trivial (fun _ => .inl rfl)
      (fun m hm => .inr (by simpa [serving, hmode] using hm.symm)) rfl nofun

/-- The compare-exchange of `StrictCounter::apply` succeeds on the value it tested. -/
private theorem acts_strictSwap {mode : RoutingMode} {current : ℕ}
    (hf : (strictSwap request mode current).Fits e) :
    Acts e spurious (.strictSwap request mode current) := by
  simp only [Acts, step]
  split
  · rename_i hswap
    simp only [Bool.and_eq_true, beq_iff_eq] at hswap
    obtain rfl := hswap.2
    exact effect_strictSwap hs hf
  · exact effect_strictDecide hs hf.1 rfl rfl rfl rfl _

/-- The compare-exchange of `ReservedCounter::apply` succeeds on the value it tested. -/
private theorem acts_shardSwap {current : ℕ} (hf : (shardSwap request current).Fits e) :
    Acts e spurious (.shardSwap request current) := by
  simp only [Acts, step]
  split
  · rename_i hswap
    simp only [Bool.and_eq_true, beq_iff_eq] at hswap
    exact effect_shardSwap hs hf hswap.2
  · exact effect_shardDecide hs rfl rfl rfl rfl _

variable (mode : RoutingMode) (result : Result)

/-- The loads of `remember_counter` change nothing. -/
private theorem acts_rememberHas : Acts e spurious (.rememberHas request mode result) := by
  simp only [Acts, step]
  split <;>
    exact .silent hs (.refl e) rfl rfl rfl trivial (fun _ => .inl rfl) nofun rfl nofun

private theorem acts_rememberCompare :
    Acts e spurious (.rememberCompare request mode result) := by
  simp only [Acts, step]
  split
  · exact effect_afterRemember hs (.refl e) rfl rfl rfl rfl rfl
  · exact .silent hs (.refl e) rfl rfl rfl trivial (fun _ => .inl rfl) nofun rfl nofun

/-- The stores of `remember_counter` touch no counter. -/
private theorem acts_rememberStore : Acts e spurious (.rememberStore request mode result) :=
  .silent hs ⟨⟨rfl, rfl, rfl, rfl, rfl⟩, rfl, id, fun _ => rfl, rfl⟩ rfl rfl rfl trivial
    (fun _ => .inl rfl) nofun rfl nofun

private theorem acts_rememberFlag : Acts e spurious (.rememberFlag request mode result) :=
  effect_afterRemember hs ⟨⟨rfl, rfl, rfl, rfl, rfl⟩, rfl, id, fun _ => rfl, rfl⟩ rfl rfl rfl rfl
    rfl

private theorem acts_announceLoad : Acts e spurious (.announceLoad request result) := by
  simp only [Acts, step]
  split <;>
    exact .silent hs (.refl e) rfl rfl rfl trivial (fun _ => .inl rfl) nofun rfl nofun

/-- Announcing a shard changes its flag only. -/
private theorem acts_announceSwap : Acts e spurious (.announceSwap request result) := by
  simp only [Acts, step]
  split
  · exact .silent hs (.refl e) rfl rfl rfl trivial (fun _ => .inl rfl) nofun rfl nofun
  · refine .silent hs ⟨⟨rfl, rfl, rfl, rfl, rfl⟩, rfl, fun h => ?_, fun h => ?_, rfl⟩
      (map_set_of_eq Shard.reserve _ default _ _ rfl) rfl rfl trivial (fun _ => .inl rfl) nofun
      rfl nofun
    · have hle := h.le_reserve _ (h.shardAt_mem result.shard)
      exact h.setShard _ rfl hle
    · have hsum := h.used_setShard result.shard
        { e.reserved.shardAt result.shard with exhaustionAnnounced := true }
      dsimp only at hsum ⊢
      omega

private theorem acts_countShard : Acts e spurious (.countShard request result) := by
  simp only [Acts, step]
  split <;>
    exact .silent hs ⟨⟨rfl, rfl, rfl, rfl, rfl⟩, rfl, id, fun _ => rfl, rfl⟩ rfl rfl rfl trivial
      (fun _ => .inl rfl) nofun rfl nofun

/-- `publish_limit_reached` touches no counter. -/
private theorem acts_markExhausted : Acts e spurious (.markExhausted request result) := by
  simp only [Acts, step]
  split <;>
    exact .silent hs ⟨⟨rfl, rfl, rfl, rfl, rfl⟩, rfl, id, fun _ => rfl, rfl⟩ rfl rfl rfl trivial
      (fun _ => .inl rfl) nofun rfl nofun

private theorem acts_loadPublisher : Acts e spurious (.loadPublisher request result) := by
  simp only [Acts, step]
  split <;>
    exact .silent hs (.refl e) rfl rfl rfl trivial (fun _ => .inl rfl) nofun rfl nofun

private theorem acts_publishLimit : Acts e spurious (.publishLimit request result) :=
  .silent hs ⟨⟨rfl, rfl, rfl, rfl, rfl⟩, rfl, id, fun _ => rfl, rfl⟩ rfl rfl rfl trivial
    (fun _ => .inl rfl) nofun rfl nofun

end

/-- **What one access of a request thread does.** -/
theorem step_effect (hs : e.Sound) (spurious : Bool) {p : ApplyPoint} (hf : p.Fits e)
    (hc : p.Counts e) : Acts e spurious p := by
  cases p with
  | idle => exact .silent hs (.refl e) rfl rfl rfl trivial nofun nofun rfl nofun
  | checkExhausted request => exact acts_checkExhausted hs spurious request
  | checkOpen request => exact acts_checkOpen hs spurious request
  | enter request => exact acts_enter hs spurious request hc
  | recheckOpen request => exact acts_recheckOpen hs spurious request
  | backOut request => exact acts_backOut hs spurious request hc
  | loadMode request => exact acts_loadMode hs spurious request
  | strictLoad request mode => exact effect_strictDecide hs hf rfl rfl rfl rfl _
  | strictSwap request mode current => exact acts_strictSwap hs spurious request hf
  | shardLoad request => exact effect_shardDecide hs rfl rfl rfl rfl _
  | shardSwap request current => exact acts_shardSwap hs spurious request hf
  | remoteLoad request =>
    exact .silent hs (.refl e) rfl rfl rfl trivial (fun _ => .inl rfl) nofun rfl nofun
  | rememberHas request mode result => exact acts_rememberHas hs spurious request mode result
  | rememberCompare request mode result =>
    exact acts_rememberCompare hs spurious request mode result
  | rememberStore request mode result => exact acts_rememberStore hs spurious request mode result
  | rememberFlag request mode result => exact acts_rememberFlag hs spurious request mode result
  | announceLoad request result => exact acts_announceLoad hs spurious request result
  | announceSwap request result => exact acts_announceSwap hs spurious request result
  | countShard request result => exact acts_countShard hs spurious request result
  | markExhausted request result => exact acts_markExhausted hs spurious request result
  | loadPublisher request result => exact acts_loadPublisher hs spurious request result
  | publishLimit request result => exact acts_publishLimit hs spurious request result
  | leave request result => exact acts_leave hs spurious request result hc

end ApplyPoint

namespace ControlPoint

/-! ### The outcomes of one access of a control thread -/

/-- A total that is about to be seeded by a commit has passed its test. -/
def Fits (e : CounterEngine) : ControlPoint → Prop
  | .commitSeed total _ => total ≤ e.config.limit
  | _ => True

/-- What no access of a control thread disturbs. -/
structure Keeps (e e' : CounterEngine) : Prop where
  sound : e'.Sound
  config : e'.config = e.config
  reserves : e'.reserves = e.reserves
  inFlight : e'.inFlight = e.inFlight

variable {e : CounterEngine}

theorem Fits.congr {e' : CounterEngine} {p : ControlPoint} (h : p.Fits e)
    (hconfig : e'.config = e.config) : p.Fits e' := by
  cases p <;> simp_all [Fits]

private theorem fits_seedNext (e' : CounterEngine) (index remaining : ℕ) :
    (seedNext e' index remaining).Fits e := by
  unfold seedNext
  split
  · trivial
  · split <;> trivial

private theorem fits_loopNext (mode : RoutingMode) : (loopNext mode).Fits e := by
  cases mode <;> trivial

private theorem fits_commitExhaustion (e' : CounterEngine) (total : ℕ) (strictOwner : Bool) :
    (commitExhaustion e' total strictOwner).Fits e := by
  unfold commitExhaustion
  split
  · split <;> trivial
  · trivial

/-- An access to anything but the two counters. -/
private theorem Keeps.of_counters (hs : e.Sound) {e' : CounterEngine}
    (hconfig : e'.config = e.config) (hstrict : e'.strict = e.strict)
    (hreserved : e'.reserved = e.reserved) (hflight : e'.inFlight = e.inFlight) : Keeps e e' where
  sound := ⟨by rw [hstrict, hconfig]; exact hs.strict_limit,
    by rw [hreserved, hconfig]; exact hs.reserved_limit, by rw [hreserved]; exact hs.bounded,
    by rw [hstrict, hconfig]; exact hs.value_le⟩
  config := hconfig
  reserves := congrArg (fun c => c.shards.map Shard.reserve) hreserved
  inFlight := hflight

private theorem Keeps.setShard (hs : e.Sound) (index : ℕ) {s : Shard}
    (hreserve : s.reserve = (shard e index).reserve) (hle : s.used ≤ s.reserve) :
    Keeps e (setShard e index s) where
  sound := ⟨hs.strict_limit, hs.reserved_limit, hs.bounded.set index hreserve hle, hs.value_le⟩
  config := rfl
  reserves := map_set_of_eq Shard.reserve s default _ index hreserve
  inFlight := rfl

private theorem Keeps.seed (hs : e.Sound) {total : ℕ} (h : total ≤ e.config.limit) :
    Keeps e { e with strict := { e.strict with value := total } } where
  sound := ⟨hs.strict_limit, hs.reserved_limit, hs.bounded, h⟩
  config := rfl
  reserves := rfl
  inFlight := rfl

theorem shard_used_le (hs : e.Sound) (index : ℕ) :
    (shard e index).used ≤ (shard e index).reserve := by
  by_cases hi : index < e.reserved.shards.length
  · refine hs.bounded.le_reserve _ ?_
    rw [shard, List.getD_eq_getElem _ _ hi]
    exact List.getElem_mem hi
  · rw [shard, List.getD_eq_default _ _ (Nat.not_lt.mp hi)]
    exact Nat.le_refl _

/-- **What one access of a control thread keeps.** -/
theorem step_keeps (hs : e.Sound) {p : ControlPoint} (hf : p.Fits e) :
    Keeps e (p.step e).1 ∧ (p.step e).2.Fits (p.step e).1 := by
  have hkeep : ∀ e' : CounterEngine, e'.config = e.config → e'.strict = e.strict →
      e'.reserved = e.reserved → e'.inFlight = e.inFlight → Keeps e e' :=
    fun e' h1 h2 h3 h4 => .of_counters hs h1 h2 h3 h4
  cases p with
  | reservedSeed index remaining =>
    refine ⟨.setShard hs index rfl ?_, trivial⟩
    dsimp only
    split <;> omega
  | reservedAnnounce index assigned remaining =>
    exact ⟨.setShard hs index rfl (shard_used_le hs index), fits_seedNext _ _ _⟩
  | dangerSeed total =>
    simp only [step]
    split
    · exact ⟨hkeep _ rfl rfl rfl rfl, trivial⟩
    · rename_i hle
      exact ⟨.seed hs ((Nat.not_lt.mp hle).trans_eq hs.strict_limit), trivial⟩
  | commitMode total strictOwner =>
    simp only [step]
    split
    · exact ⟨hkeep _ rfl rfl rfl rfl, trivial⟩
    · rename_i hle
      simp only [Bool.or_eq_true, decide_eq_true_eq, not_or, Nat.not_lt] at hle
      exact ⟨hkeep _ rfl rfl rfl rfl, hle.2.trans_eq hs.strict_limit⟩
  | commitSeed total strictOwner => exact ⟨.seed hs hf, trivial⟩
  | reservedLoad =>
    simp only [step]
    split
    · exact ⟨hkeep _ rfl rfl rfl rfl, trivial⟩
    · exact ⟨hkeep _ rfl rfl rfl rfl, fits_seedNext _ _ _⟩
  | loopEpoch mode has counter value =>
    simp only [step]
    split
    · exact ⟨hkeep _ rfl rfl rfl rfl, trivial⟩
    · exact ⟨hkeep _ rfl rfl rfl rfl, fits_loopNext _⟩
  | snapshotPublisher mode counter value epoch =>
    simp only [step]
    split
    · exact ⟨hkeep _ rfl rfl rfl rfl, trivial⟩
    · exact ⟨hkeep _ rfl rfl rfl rfl, fits_loopNext _⟩
  | snapshotPublish mode counter value epoch =>
    exact ⟨hkeep _ rfl rfl rfl rfl, fits_loopNext _⟩
  | commitRelease total strictOwner =>
    exact ⟨hkeep _ rfl rfl rfl rfl, fits_commitExhaustion _ _ _⟩
  -- the remaining points neither touch a counter nor lead to a commit's seeding
  | _ =>
    simp only [step]
    repeat' split
    all_goals exact ⟨hkeep _ rfl rfl rfl rfl, trivial⟩

end ControlPoint

/-! ### The machine -/

namespace Machine

variable {R C : Type} [Fintype R]

/-- The machine invariant that no interleaving breaks. -/
structure Wf (m : Machine R C) : Prop where
  /-- the in-flight count can hold every request thread -/
  threads : Fintype.card R < 2 ^ 32
  sound : m.engine.Sound
  fits : ∀ r, (m.request r).Fits m.engine
  control_fits : ∀ c, (m.control c).Fits m.engine
  /-- the in-flight count is the number of threads between the two ends of the gate -/
  inFlight : m.engine.inFlight = ∑ r, if (m.request r).counted then 1 else 0

/-- A new engine, with nothing running, is well formed. -/
theorem wf_init (config : CounterEngineConfig) (hthreads : Fintype.card R < 2 ^ 32) :
    (init R C config).Wf where
  threads := hthreads
  sound := CounterEngine.sound_new config
  fits := fun _ => trivial
  control_fits := fun _ => trivial
  inFlight := by simp [init, ApplyPoint.counted, CounterEngine.new]

variable {m : Machine R C}

/-- While a request is counted, the counter is not zero. -/
theorem Wf.inFlight_pos (h : m.Wf) {r : R} (hr : (m.request r).counted = true) :
    0 < m.engine.inFlight := by
  have hle := le_sum (fun r => if (m.request r).counted then 1 else 0) r
  rw [h.inFlight]
  simp only [hr, if_true] at hle
  exact hle

/-- The in-flight count has room for every thread that is not counted yet. -/
theorem Wf.room (h : m.Wf) (r : R) :
    m.engine.inFlight + (if (m.request r).counted then 0 else 1) < 2 ^ 32 := by
  have hcard : (∑ r, if (m.request r).counted then 0 else 1) +
      (∑ r, if (m.request r).counted then 1 else 0) = Fintype.card R := by
    rw [← Finset.sum_add_distrib, Fintype.card_eq_sum_ones]
    exact Finset.sum_congr rfl fun r _ => by split <;> rfl
  have hle := le_sum (fun r => if (m.request r).counted then 0 else 1) r
  have hthreads := h.threads
  rw [h.inFlight]
  omega

/-- The in-flight count is right for what any thread does to it next. -/
theorem Wf.counts (h : m.Wf) (r : R) : (m.request r).Counts m.engine :=
  ⟨h.inFlight_pos, h.room r⟩

/-- A drained gate has nobody inside. -/
theorem Wf.drained (h : m.Wf) (hzero : m.engine.inFlight = 0) (r : R) :
    (m.request r).inside = false := by
  by_contra hin
  have hpos := h.inFlight_pos (ApplyPoint.counted_of_inside (by simpa using hin))
  omega

/-- What one access of a thread does, in a well-formed machine. -/
theorem Wf.effect (h : m.Wf) (r : R) (spurious : Bool) :
    ApplyPoint.Effect m.engine (m.request r) ((m.request r).step m.engine spurious).1
      ((m.request r).step m.engine spurious).2.1 ((m.request r).step m.engine spurious).2.2 :=
  ApplyPoint.step_effect h.sound spurious (h.fits r) (h.counts r)

variable [DecidableEq R] [DecidableEq C]

/-- **Every step keeps the machine well formed.** -/
theorem Wf.step (h : m.Wf) {a : Action R C} {m' : Machine R C} (hstep : m.step a = some m') :
    m'.Wf := by
  -- the in-flight count is the number of counted threads, and only a request thread moves it
  have hcount := sum_update_add (fun p : ApplyPoint => if p.counted then 1 else 0) m.request
  cases a with
  | call r request =>
    simp only [Machine.step] at hstep
    split at hstep
    · rename_i hidle
      obtain rfl := Option.some.inj hstep
      refine ⟨h.threads, h.sound, fun r' => ?_, h.control_fits, ?_⟩
      · by_cases hr : r' = r
        · subst hr
          simp [ApplyPoint.Fits]
        · simpa [Function.update_of_ne hr] using h.fits r'
      · have hsum := hcount r (.checkExhausted request)
        simp only [hidle, ApplyPoint.counted, Bool.false_eq_true, if_false] at hsum
        rw [h.inFlight]
        exact hsum.symm
    · exact absurd hstep nofun
  | run r spurious =>
    have he := h.effect r spurious
    obtain rfl := Option.some.inj hstep
    refine ⟨h.threads, he.sound, fun r' => ?_, fun c => (h.control_fits c).congr he.config, ?_⟩
    · by_cases hr : r' = r
      · subst hr
        simpa using he.fits
      · simpa [Function.update_of_ne hr] using (h.fits r').congr he.config he.reserves
    · have hsum := hcount r ((m.request r).step m.engine spurious).2.1
      have hflight := he.inFlight
      have hold := h.inFlight
      dsimp only at hsum ⊢
      omega
  | invoke c op =>
    simp only [Machine.step] at hstep
    split at hstep
    · obtain rfl := Option.some.inj hstep
      refine ⟨h.threads, h.sound, h.fits, fun c' => ?_, h.inFlight⟩
      by_cases hc : c' = c
      · subst hc
        cases op <;> simp [ControlPoint.entry, ControlPoint.Fits]
      · simpa [Function.update_of_ne hc] using h.control_fits c'
    · exact absurd hstep nofun
  | advance c =>
    obtain ⟨hk, hfits⟩ := ControlPoint.step_keeps h.sound (h.control_fits c)
    obtain rfl := Option.some.inj hstep
    refine ⟨h.threads, hk.sound, fun r => (h.fits r).congr hk.config hk.reserves, fun c' => ?_, ?_⟩
    · by_cases hc : c' = c
      · subst hc
        simpa using hfits
      · simpa [Function.update_of_ne hc] using (h.control_fits c').congr hk.config
    · exact hk.inFlight.trans h.inFlight
  | raisePeakRequest =>
    obtain rfl := Option.some.inj hstep
    exact ⟨h.threads,
      ⟨h.sound.strict_limit, h.sound.reserved_limit, h.sound.bounded, h.sound.value_le⟩,
      fun r => (h.fits r).congr rfl rfl, fun c => (h.control_fits c).congr rfl, h.inFlight⟩

end Machine

end HotCounter
