import HotCounter.Foundation.StoreBuffer
import HotCounter.Foundation.Sums
import HotCounter.Foundation.Transition

/-!
# The admission gate with store buffers

`AdmissionGate` asks for release stores and acquire loads only, so a plain store of `open_` may
become visible to other threads after later loads of the storing thread. This module runs the
gate on a memory with store buffers: request threads run `try_enter` and `leave`, one control
thread runs `close`, `drained` and `open`. `close` followed by a load of `in_flight_` is one
half of a handshake whose other half, in `try_enter`, is an increment of `in_flight_` followed
by a second load of `open_`; the handshake needs the store of `close` to be visible when
`drained` loads the count.
-/

namespace HotCounter

open Foundation

/-- The two members of `AdmissionGate`. -/
inductive GateCell
  | open_
  | inFlight
  deriving DecidableEq

/-- The control thread and the request threads. -/
inductive GateThread (ι : Type*)
  | control
  | request (i : ι)
  deriving DecidableEq

/-- Program points of a request thread: the accesses of `try_enter`, and `inside` between a
`try_enter` that returned true and `leave`. -/
inductive GatePoint
  | idle
  | checkOpen
  | enter
  | recheckOpen
  | backOut
  | inside
  deriving DecidableEq

/-- What the control thread has done last: `open`, `close`, or a `drained` that returned true
after it. -/
inductive GatePhase
  | serving
  | closing
  | quiescent
  deriving DecidableEq

/-- A gate in use. The flag `open_` is 1 or 0. -/
structure BufferedGate (ι : Type*) where
  cells : BufferedMemory (GateThread ι) GateCell ℕ
  threads : ι → GatePoint
  phase : GatePhase

/-- One access of a thread, or a buffered store reaching memory. -/
inductive GateAction (ι : Type*)
  | request (i : ι)
  | close
  | drained
  | open
  | flush (t : GateThread ι)

theorem GateThread.request_ne_control {ι : Type*} (i : ι) : GateThread.request i ≠ .control :=
  fun h => by cases h

namespace BufferedGate

variable {ι : Type*} [DecidableEq ι]

/-- A new gate: open, with nobody inside. -/
def new (ι : Type*) : BufferedGate ι where
  cells :=
    { memory := fun l => match l with
        | .open_ => 1
        | .inFlight => 0
      buffer := fun _ => [] }
  threads _ := .idle
  phase := .serving

/-- Request thread `i` continues at `p` with the given memory. -/
def goto (s : BufferedGate ι) (i : ι) (p : GatePoint)
    (cells : BufferedMemory (GateThread ι) GateCell ℕ) : BufferedGate ι :=
  { s with cells, threads := Function.update s.threads i p }

/-- The next access of request thread `i`: `try_enter` when it is outside, `leave` when it is
inside. -/
def access (s : BufferedGate ι) (i : ι) : GatePoint → Option (BufferedGate ι)
  | .idle => some (s.goto i .checkOpen s.cells)
  | .checkOpen =>
    some (s.goto i (if s.cells.load (.request i) .open_ ≠ 0 then .enter else .idle) s.cells)
  | .enter =>
    (s.cells.modify (.request i) .inFlight fun n => (n + 1) % 2 ^ 32).map
      (s.goto i .recheckOpen)
  | .recheckOpen =>
    some (s.goto i (if s.cells.load (.request i) .open_ ≠ 0 then .inside else .backOut) s.cells)
  | .backOut =>
    (s.cells.modify (.request i) .inFlight fun n => (n + (2 ^ 32 - 1)) % 2 ^ 32).map
      (s.goto i .idle)
  | .inside =>
    (s.cells.modify (.request i) .inFlight fun n => (n + (2 ^ 32 - 1)) % 2 ^ 32).map
      (s.goto i .idle)

/-- One step. The control thread calls `drained` only after `close`. -/
def step (s : BufferedGate ι) : GateAction ι → Option (BufferedGate ι)
  | .request i => s.access i (s.threads i)
  | .close => some
      { s with
        cells := s.cells.store .control .open_ 0
        phase := if s.phase = .serving then .closing else s.phase }
  | .drained =>
    if s.phase = .serving then none
    else if s.cells.load .control .inFlight = 0 then some { s with phase := .quiescent }
    else some s
  | .open => some { s with cells := s.cells.store .control .open_ 1, phase := .serving }
  | .flush t => (s.cells.flush t).map fun cells => { s with cells }

/-- The steps that keep the handshake: `drained` finds the count zero only when the control
thread has no store under way, and the count does not wrap. -/
def Ordered (s : BufferedGate ι) : GateAction ι → Prop
  | .drained => s.cells.load .control .inFlight = 0 → s.cells.buffer .control = []
  | .request i => s.threads i = .enter → s.cells.memory .inFlight + 1 < 2 ^ 32
  | _ => True

instance (s : BufferedGate ι) : ∀ a : GateAction ι, Decidable (s.Ordered a)
  | .drained => inferInstanceAs (Decidable (_ = 0 → _ = []))
  | .request _ => inferInstanceAs (Decidable (_ = GatePoint.enter → _ + 1 < 2 ^ 32))
  | .close => .isTrue trivial
  | .open => .isTrue trivial
  | .flush _ => .isTrue trivial

/-! ### The invariant -/

/-- Whether a thread is counted in `in_flight_`. -/
def counted : GatePoint → ℕ
  | .recheckOpen => 1
  | .backOut => 1
  | .inside => 1
  | _ => 0

/-- What holds in every run whose steps keep the handshake. -/
structure Inv [Fintype ι] (s : BufferedGate ι) : Prop where
  /-- The count is exact. -/
  count : s.cells.memory .inFlight = ∑ i, counted (s.threads i)
  fits : s.cells.memory .inFlight < 2 ^ 32
  /-- Only the control thread stores, and only the flag. -/
  stores : ∀ i, s.cells.buffer (.request i) = []
  flag : ∀ c ∈ s.cells.buffer .control, c.1 = .open_
  /-- After `close` the control thread itself reads a closed gate. -/
  closed : s.phase ≠ .serving → s.cells.load .control .open_ = 0
  /-- Once drained, the gate is closed for everybody and nobody is inside. -/
  shut : s.phase = .quiescent → s.cells.Only .open_ 0
  empty : s.phase = .quiescent → ∀ i, s.threads i ≠ .inside

section Steps

variable [Fintype ι] {s s' : BufferedGate ι}

omit [DecidableEq ι] in
theorem Inv.new : (BufferedGate.new ι).Inv where
  count := by simp [BufferedGate.new, counted]
  fits := Nat.two_pow_pos 32
  stores _ := rfl
  flag _ hc := absurd hc List.not_mem_nil
  closed h := absurd rfl h
  shut h := by simp [BufferedGate.new] at h
  empty h := by simp [BufferedGate.new] at h

/-- A request thread moves without touching memory. It gets inside only through a gate it has
seen open. -/
theorem Inv.move (h : s.Inv) {i : ι} {p : GatePoint}
    (hcounted : counted p = counted (s.threads i))
    (hinside : p = .inside → s.cells.load (.request i) .open_ ≠ 0) :
    (s.goto i p s.cells).Inv where
  count := by
    have hsum := sum_update_add counted s.threads i p
    have hcount := h.count
    show s.cells.memory .inFlight = ∑ j, counted (Function.update s.threads i p j)
    omega
  fits := h.fits
  stores := h.stores
  flag := h.flag
  closed := h.closed
  shut := h.shut
  empty hphase j hj := by
    replace hj : Function.update s.threads i p j = .inside := hj
    by_cases hji : j = i
    · rw [hji, Function.update_self] at hj
      exact hinside hj ((h.shut hphase).load _)
    · rw [Function.update_of_ne hji] at hj
      exact h.empty hphase j hj

/-- A read-modify-write of the count that counts the thread in or out. -/
theorem Inv.count_step (h : s.Inv) {i : ι} {p : GatePoint} {f : ℕ → ℕ}
    {cells : BufferedMemory (GateThread ι) GateCell ℕ}
    (hcells : s.cells.modify (.request i) .inFlight f = some cells)
    (hf : f (s.cells.memory .inFlight) + counted (s.threads i) =
      s.cells.memory .inFlight + counted p) (hlt : ∀ n, f n < 2 ^ 32) (hp : p ≠ .inside) :
    (s.goto i p cells).Inv := by
  obtain ⟨-, hmemory, hbuffer⟩ := BufferedMemory.modify_cases hcells
  have hload : cells.load .control .open_ = s.cells.load .control .open_ := by
    rw [BufferedMemory.load, BufferedMemory.load, hbuffer, hmemory, Function.update_of_ne]
    exact GateCell.noConfusion
  exact
    { count := by
        have hsum := sum_update_add counted s.threads i p
        have hcount := h.count
        show cells.memory .inFlight = ∑ j, counted (Function.update s.threads i p j)
        rw [hmemory, Function.update_self]
        omega
      fits := by
        show cells.memory .inFlight < 2 ^ 32
        rw [hmemory, Function.update_self]
        exact hlt _
      stores := hbuffer ▸ h.stores
      flag := hbuffer ▸ h.flag
      closed := fun hphase => hload.trans (h.closed hphase)
      shut := fun hphase => (h.shut hphase).modify GateCell.noConfusion hcells
      empty := fun hphase j hj => by
        replace hj : Function.update s.threads i p j = .inside := hj
        by_cases hji : j = i
        · rw [hji, Function.update_self] at hj
          exact hp hj
        · rw [Function.update_of_ne hji] at hj
          exact h.empty hphase j hj }

omit [DecidableEq ι] in
/-- A counted thread leaves a count that is not zero. -/
theorem Inv.count_pos (h : s.Inv) {i : ι} (hi : counted (s.threads i) = 1) :
    0 < s.cells.memory .inFlight := by
  have hle := le_sum (fun j => counted (s.threads j)) i
  have hcount := h.count
  simp only [hi] at hle
  omega

theorem Inv.access (h : s.Inv) {i : ι}
    (hwrap : s.threads i = .enter → s.cells.memory .inFlight + 1 < 2 ^ 32)
    (hs : s.access i (s.threads i) = some s') : s'.Inv := by
  generalize hi : s.threads i = p at hs
  -- `fetch_sub(1)` on a count that is not zero
  have hsub : counted (s.threads i) = 1 →
      (s.cells.memory .inFlight + (2 ^ 32 - 1)) % 2 ^ 32 + 1 = s.cells.memory .inFlight := by
    intro hone
    have hpos := h.count_pos hone
    have hfits := h.fits
    omega
  have hmod : ∀ n, n % 2 ^ 32 < 2 ^ 32 := fun n => Nat.mod_lt n (by decide)
  cases p with
  | idle =>
    obtain rfl := Option.some.inj hs
    exact h.move (by rw [hi]; rfl) fun hp => by cases hp
  | checkOpen =>
    obtain rfl := Option.some.inj hs
    refine h.move ?_ ?_
    · rw [hi]
      split <;> rfl
    · intro hp
      split at hp <;> cases hp
  | enter =>
    obtain ⟨cells, hcells, rfl⟩ := Option.map_eq_some_iff.mp hs
    refine h.count_step hcells ?_ (fun n => hmod _) GatePoint.noConfusion
    rw [hi, Nat.mod_eq_of_lt (hwrap hi)]
    rfl
  | recheckOpen =>
    obtain rfl := Option.some.inj hs
    refine h.move ?_ ?_
    · rw [hi]
      split <;> rfl
    · intro hp
      split at hp
      · rename_i hopen
        exact hopen
      · cases hp
  | backOut =>
    obtain ⟨cells, hcells, rfl⟩ := Option.map_eq_some_iff.mp hs
    refine h.count_step hcells ?_ (fun n => hmod _) GatePoint.noConfusion
    rw [hi] at hsub ⊢
    exact hsub rfl
  | inside =>
    obtain ⟨cells, hcells, rfl⟩ := Option.map_eq_some_iff.mp hs
    refine h.count_step hcells ?_ (fun n => hmod _) GatePoint.noConfusion
    rw [hi] at hsub ⊢
    exact hsub rfl

/-- A buffered store of the control thread reaches memory. -/
theorem Inv.flush (h : s.Inv) {t : GateThread ι}
    {cells : BufferedMemory (GateThread ι) GateCell ℕ} (hcells : s.cells.flush t = some cells) :
    ({ s with cells } : BufferedGate ι).Inv := by
  obtain ⟨c, rest, hbuffer, hmemory, hrest⟩ := BufferedMemory.flush_cases hcells
  cases t with
  | request i => cases (h.stores i).symm.trans hbuffer
  | control =>
    have hflag : c.1 = .open_ := h.flag c (hbuffer ▸ List.mem_cons_self)
    exact
      { count := by
          show cells.memory .inFlight = _
          rw [hmemory, hflag, Function.update_of_ne GateCell.noConfusion]
          exact h.count
        fits := by
          show cells.memory .inFlight < 2 ^ 32
          rw [hmemory, hflag, Function.update_of_ne GateCell.noConfusion]
          exact h.fits
        stores := fun i => by
          show cells.buffer (.request i) = []
          rw [hrest, Function.update_of_ne (GateThread.request_ne_control i)]
          exact h.stores i
        flag := fun c' hc' => by
          replace hc' : c' ∈ cells.buffer .control := hc'
          rw [hrest, Function.update_self] at hc'
          exact h.flag c' (hbuffer ▸ List.mem_cons_of_mem _ hc')
        closed := fun hphase =>
          (BufferedMemory.load_flush_self hcells .open_).trans (h.closed hphase)
        shut := fun hphase => (h.shut hphase).flush hcells
        empty := h.empty }

/-- A store of the flag by the control thread. -/
theorem Inv.store (h : s.Inv) {v : ℕ} {phase : GatePhase}
    (hclosed : phase ≠ .serving → v = 0) (hphase : phase = .quiescent → s.phase = .quiescent) :
    ({ s with cells := s.cells.store .control .open_ v, phase } : BufferedGate ι).Inv where
  count := h.count
  fits := h.fits
  stores i := by
    show (s.cells.store .control .open_ v).buffer (.request i) = []
    rw [BufferedMemory.buffer_store, Function.update_of_ne (GateThread.request_ne_control i)]
    exact h.stores i
  flag c hc := by
    replace hc : c ∈ (s.cells.store .control .open_ v).buffer .control := hc
    rw [BufferedMemory.buffer_store, Function.update_self] at hc
    rcases List.mem_append.mp hc with hc | hc
    · exact h.flag c hc
    · rw [List.mem_singleton.mp hc]
  closed hserving := BufferedMemory.load_store_self.trans (hclosed hserving)
  shut hquiescent := by
    have hv : v = 0 := hclosed fun hserving => by cases hserving.symm.trans hquiescent
    rw [hv]
    exact (h.shut (hphase hquiescent)).store
  empty hquiescent := h.empty (hphase hquiescent)

omit [DecidableEq ι] in
/-- `drained` returns true with no store under way. -/
theorem Inv.drained (h : s.Inv) (hserving : s.phase ≠ .serving)
    (hzero : s.cells.load .control .inFlight = 0) (hbuffer : s.cells.buffer .control = []) :
    ({ s with phase := .quiescent } : BufferedGate ι).Inv where
  count := h.count
  fits := h.fits
  stores := h.stores
  flag := h.flag
  closed _ := h.closed hserving
  shut _ := by
    have hopen := h.closed hserving
    rw [BufferedMemory.load_of_empty hbuffer] at hopen
    refine ⟨hopen, fun t c hc _ => ?_⟩
    replace hc : c ∈ s.cells.buffer t := hc
    cases t with
    | control => exact absurd (hbuffer ▸ hc) List.not_mem_nil
    | request i => exact absurd (h.stores i ▸ hc) List.not_mem_nil
  empty _ i hi := by
    rw [BufferedMemory.load_of_empty hbuffer] at hzero
    have hpos := h.count_pos (i := i) (by rw [hi]; rfl)
    omega

/-- Every step that keeps the handshake keeps the invariant. -/
theorem Inv.step {a : GateAction ι} (h : s.Inv) (hok : s.Ordered a) (hs : s.step a = some s') :
    s'.Inv := by
  cases a with
  | request i => exact h.access hok hs
  | close =>
    obtain rfl := Option.some.inj hs
    refine h.store (fun _ => rfl) fun hphase => ?_
    split at hphase
    · cases hphase
    · exact hphase
  | drained =>
    simp only [BufferedGate.step] at hs
    split at hs
    · cases hs
    · rename_i hserving
      split at hs
      · rename_i hzero
        obtain rfl := Option.some.inj hs
        exact h.drained hserving hzero (hok hzero)
      · obtain rfl := Option.some.inj hs
        exact h
  | «open» =>
    obtain rfl := Option.some.inj hs
    exact h.store (fun hserving => absurd rfl hserving) fun hphase => by cases hphase
  | flush t =>
    obtain ⟨cells, hcells, rfl⟩ := Option.map_eq_some_iff.mp hs
    exact h.flush hcells

/-- **A drained gate stays empty** in every run in which `drained` finds the count zero only
after the store of `close` has reached memory and the count does not wrap: from the `drained`
that returns true until `open`, no thread is inside. -/
theorem drained_gate_empty (h : Foundation.Steps BufferedGate.step Ordered (BufferedGate.new ι) s)
    (hphase : s.phase = .quiescent) (i : ι) : s.threads i ≠ .inside := by
  have hinv : s.Inv := h.invariant Inv.new fun _ _ _ hinv hok hs => hinv.step hok hs
  exact hinv.empty hphase i

end Steps

/-- A thread enters and leaves, the gate is closed and drained after its store has reached
memory, and a thread that then tries to enter is turned away. -/
theorem drained_gate_empty_run :
    ∃ s : BufferedGate (Fin 2), Steps step Ordered (BufferedGate.new (Fin 2)) s ∧
      s.phase = .quiescent ∧ s.threads 1 = .recheckOpen ∧ s.threads 0 ≠ .inside := by
  have hexec : (exec step Ordered (BufferedGate.new (Fin 2))
      [.request 0, .request 0, .request 0, .request 0, .request 1, .request 1, .close,
        .request 0, .flush .control, .drained, .request 1]).map
        (fun s => decide (s.phase = .quiescent ∧ s.threads 1 = .recheckOpen)) = some true := by
    decide +kernel
  obtain ⟨s, hrun, hphase, hthread⟩ := Steps.exists_of_exec hexec
  exact ⟨s, hrun, hphase, hthread, drained_gate_empty hrun hphase 0⟩

/-- Without the condition: `close` is still in the store buffer of the control thread when
`drained` loads the count and finds it zero, and a thread then gets inside. -/
theorem drained_gate_entered :
    ∃ s : BufferedGate (Fin 1), Steps step (fun _ _ => True) (BufferedGate.new (Fin 1)) s ∧
      s.phase = .quiescent ∧ s.threads 0 = .inside := by
  have hexec : (exec step (fun _ _ => True) (BufferedGate.new (Fin 1))
      [.close, .drained, .request 0, .request 0, .request 0, .request 0]).map
        (fun s => decide (s.phase = .quiescent ∧ s.threads 0 = .inside)) = some true := by
    decide +kernel
  exact Steps.exists_of_exec hexec

end BufferedGate

end HotCounter
