import HotCounter.Foundation.Transition

/-!
# Linearizable objects

A sequential object answers one operation after another; between two operations it may drift to
another state by itself. An implementation answers operations of many threads, each in several
steps. Its runs are **linearizable** if there is an order of the calls in which the sequential
object can give every answer that was given, and which keeps the order of calls that did not overlap
(`Linearization`).

`Commits.linearized` is the proof rule: it is enough that every call takes its step of the object
at one of its own steps, after it was invoked and before it is answered. The order of these steps is
the order of the calls.
-/

namespace HotCounter

namespace Foundation

/-- An object whose operations run one after another. -/
structure SequentialObject (σ α β : Type*) where
  init : σ
  /-- an operation is answered with a result and leaves the object in another state -/
  serves : σ → α → β → σ → Prop
  /-- the object moves by itself -/
  drifts : σ → σ → Prop

/-- What the clients of an implementation see. A call has a number of its own. -/
inductive Event (ι α β : Type*)
  | invoke (thread : ι) (call : ℕ) (op : α)
  | answer (thread : ι) (call : ℕ) (result : β)
  deriving DecidableEq

/-- A call in a sequential order. -/
structure Entry (ι α β : Type*) where
  thread : ι
  call : ℕ
  op : α
  result : β
  deriving DecidableEq

variable {ι σ α β : Type*} {O : SequentialObject σ α β}

/-- The object serves some calls, newest first, and ends in a state. -/
inductive SequentialObject.Runs (O : SequentialObject σ α β) : List (Entry ι α β) → σ → Prop
  | start : Runs O [] O.init
  | serve {order : List (Entry ι α β)} {x : Entry ι α β} {v w : σ} :
      Runs O order v → O.serves v x.op x.result w → Runs O (x :: order) w
  | drift {order : List (Entry ι α β)} {v w : σ} : Runs O order v → O.drifts v w → Runs O order w

theorem SequentialObject.Runs.drifts {order : List (Entry ι α β)} {v w : σ} (h : O.Runs order v)
    (hdrifts : Relation.ReflTransGen O.drifts v w) : O.Runs order w := by
  induction hdrifts with
  | refl => exact h
  | tail _ hlast ih => exact ih.drift hlast

/-- In a history, newest event first, a call was answered before another one was invoked. -/
def Precedes (history : List (Event ι α β)) (x y : Entry ι α β) : Prop :=
  ∃ newer older, history = newer ++ older ∧ (∃ r, .answer x.thread x.call r ∈ older) ∧
    ∃ op, .invoke y.thread y.call op ∈ newer

theorem Precedes.cons {history : List (Event ι α β)} {event : Event ι α β} {x y : Entry ι α β}
    (h : Precedes (event :: history) x y) :
    Precedes history x y ∨ (∃ op, event = .invoke y.thread y.call op) ∧
      ∃ r, .answer x.thread x.call r ∈ history := by
  obtain ⟨newer, older, hsplit, ⟨r, hr⟩, op, hop⟩ := h
  cases newer with
  | nil => cases hop
  | cons first newer =>
    rw [List.cons_append] at hsplit
    obtain ⟨rfl, rfl⟩ := List.cons.inj hsplit
    rcases List.mem_cons.mp hop with heq | hold
    · exact .inr ⟨⟨op, heq.symm⟩, r, List.mem_append_right _ hr⟩
    · exact .inl ⟨newer, older, rfl, ⟨r, hr⟩, op, hold⟩

/-- An order of calls, newest first, that explains a history: the sequential object can run through
it, every answer of the history is in it, and it keeps the order of calls that did not overlap.
Calls that are not answered yet may be in it or not. -/
structure Linearization (O : SequentialObject σ α β) (history : List (Event ι α β))
    (order : List (Entry ι α β)) (v : σ) : Prop where
  runs : O.Runs order v
  once : (order.map Entry.call).Nodup
  invoked : ∀ x ∈ order, .invoke x.thread x.call x.op ∈ history
  answered : ∀ i k r, .answer i k r ∈ history → ∃ op, ⟨i, k, op, r⟩ ∈ order
  realTime : order.Pairwise fun later earlier => ¬ Precedes history later earlier

namespace Linearization

variable {history : List (Event ι α β)} {order : List (Entry ι α β)} {v w : σ}

theorem drift (h : Linearization O history order v)
    (hdrifts : Relation.ReflTransGen O.drifts v w) : Linearization O history order w :=
  { h with runs := h.runs.drifts hdrifts }

/-- A new call changes nothing about the calls before it. -/
theorem invoke (h : Linearization O history order v) {i : ι} {k : ℕ} {op : α}
    (hnew : k ∉ order.map Entry.call) :
    Linearization O (.invoke i k op :: history) order v where
  runs := h.runs
  once := h.once
  invoked x hx := List.mem_cons_of_mem _ (h.invoked x hx)
  answered j l r hr := by
    rcases List.mem_cons.mp hr with heq | hold
    · cases heq
    · exact h.answered j l r hold
  realTime := by
    refine h.realTime.imp_of_mem fun {x y} _ hy hnot hprecedes => ?_
    rcases hprecedes.cons with hold | ⟨⟨op', heq⟩, -⟩
    · exact hnot hold
    · obtain ⟨-, hk, -⟩ := Event.invoke.inj heq
      exact hnew (hk ▸ List.mem_map_of_mem hy)

/-- The step of a call that is not answered yet is the last step of the object so far. -/
theorem commit (h : Linearization O history order v) {x : Entry ι α β}
    (hserves : O.serves v x.op x.result w) (hnew : x.call ∉ order.map Entry.call)
    (hinvoked : .invoke x.thread x.call x.op ∈ history)
    (hopen : ∀ r, .answer x.thread x.call r ∉ history) :
    Linearization O history (x :: order) w where
  runs := h.runs.serve hserves
  once := List.nodup_cons.mpr ⟨hnew, h.once⟩
  invoked := List.forall_mem_cons.mpr ⟨hinvoked, h.invoked⟩
  answered i k r hr := by
    obtain ⟨op, hmem⟩ := h.answered i k r hr
    exact ⟨op, List.mem_cons_of_mem _ hmem⟩
  realTime := by
    refine List.pairwise_cons.mpr ⟨fun y _ hprecedes => ?_, h.realTime⟩
    -- a call that is not answered precedes no other call
    obtain ⟨newer, older, rfl, ⟨r, hr⟩, -⟩ := hprecedes
    exact hopen r (List.mem_append_right _ hr)

/-- An answer that the order has given. -/
theorem answer (h : Linearization O history order v) {x : Entry ι α β} (hx : x ∈ order) :
    Linearization O (.answer x.thread x.call x.result :: history) order v where
  runs := h.runs
  once := h.once
  invoked y hy := List.mem_cons_of_mem _ (h.invoked y hy)
  answered i k r hr := by
    rcases List.mem_cons.mp hr with heq | hold
    · obtain ⟨rfl, rfl, rfl⟩ := Event.answer.inj heq
      exact ⟨x.op, hx⟩
    · exact h.answered i k r hold
  realTime := by
    refine h.realTime.imp fun {y z} hnot hprecedes => ?_
    rcases hprecedes.cons with hold | ⟨⟨op, heq⟩, -⟩
    · exact hnot hold
    · cases heq

end Linearization

/-! ### Runs and their histories -/

/-- What the clients see of a step of an implementation. -/
inductive Label (ι α β : Type*)
  | silent
  | invoke (thread : ι) (op : α)
  | answer (thread : ι) (result : β)

/-- A state of an implementation with the history that led to it. `ongoing` is the number of the
call that a thread has not answered yet, `calls` the number of the next call. -/
structure Recorded (S ι α β : Type*) where
  state : S
  ongoing : ι → Option ℕ := fun _ => none
  calls : ℕ := 0
  history : List (Event ι α β) := []

namespace Recorded

variable {S A : Type*} [DecidableEq ι] {step : S → A → Option S} {ok : S → A → Prop}
  {label : S → A → Label ι α β}

/-- Write down what the clients see of a step. -/
def record (t : Recorded S ι α β) (s : S) : Label ι α β → Recorded S ι α β
  | .silent => { t with state := s }
  | .invoke i op =>
    { state := s
      ongoing := Function.update t.ongoing i (some t.calls)
      calls := t.calls + 1
      history := .invoke i t.calls op :: t.history }
  | .answer i r =>
    { t with
      state := s
      ongoing := Function.update t.ongoing i none
      history := .answer i ((t.ongoing i).getD t.calls) r :: t.history }

@[simp]
theorem record_state (t : Recorded S ι α β) (s : S) (l : Label ι α β) :
    (t.record s l).state = s := by
  cases l <;> rfl

/-- A step of the implementation, written down. -/
def next (step : S → A → Option S) (label : S → A → Label ι α β) (t : Recorded S ι α β) (a : A) :
    Option (Recorded S ι α β) :=
  (step t.state a).map fun s => t.record s (label t.state a)

/-- Writing down does not interfere: every run of the implementation has a history. -/
theorem exists_of_steps {s₀ s : S} (h : Steps step ok s₀ s) :
    ∃ t : Recorded S ι α β, t.state = s ∧
      Steps (next step label) (fun t a => ok t.state a) ⟨s₀, fun _ => none, 0, []⟩ t := by
  induction h with
  | refl => exact ⟨_, rfl, .refl⟩
  | @tail s s' a _ hok hs ih =>
    obtain ⟨t, rfl, hsteps⟩ := ih
    exact ⟨t.record s' (label t.state a), record_state _ _ _,
      hsteps.tail hok (by rw [next, hs]; rfl)⟩

end Recorded

/-! ### The proof rule -/

/-- How far the call of a thread has come, as the sequential object sees it. -/
inductive Stage (α β : Type*)
  | idle
  | pending (op : α)
  | decided (op : α) (result : β)

/-- A call whose stage is known, in a history that an order explains. -/
def Stage.Explained (history : List (Event ι α β)) (order : List (Entry ι α β)) (i : ι)
    (ongoing : Option ℕ) : Stage α β → Prop
  | .idle => ongoing = none
  | .pending op => ∃ k, ongoing = some k ∧ .invoke i k op ∈ history ∧ k ∉ order.map Entry.call
  | .decided op r => ∃ k, ongoing = some k ∧ ⟨i, k, op, r⟩ ∈ order

/-- What a run keeps: an order explains the history, and it tells how far each call has come. -/
structure Recorded.Explained {S : Type*} (O : SequentialObject σ α β) (t : Recorded S ι α β)
    (order : List (Entry ι α β)) (v : σ) (stage : ι → Stage α β) : Prop where
  linearization : Linearization O t.history order v
  explained : ∀ i, (stage i).Explained t.history order i (t.ongoing i)
  invoked_lt : ∀ i k op, .invoke i k op ∈ t.history → k < t.calls
  /-- an ongoing call was invoked by its thread alone and is not answered -/
  ongoing_unanswered : ∀ i k, t.ongoing i = some k →
    k < t.calls ∧ (∀ r, .answer i k r ∉ t.history) ∧ ∀ j, t.ongoing j = some k → j = i

namespace Recorded.Explained

variable {S : Type*} {t : Recorded S ι α β} {order : List (Entry ι α β)} {v w : σ}
  {stage : ι → Stage α β}

theorem drift (h : t.Explained O order v stage) (hdrifts : Relation.ReflTransGen O.drifts v w) :
    t.Explained O order w stage :=
  { h with linearization := h.linearization.drift hdrifts }

/-- A number that was not given out is in no explanation. -/
theorem calls_not_mem (h : t.Explained O order v stage) : t.calls ∉ order.map Entry.call := by
  rintro hmem
  obtain ⟨x, hx, hcall⟩ := List.mem_map.mp hmem
  have hlt := h.invoked_lt _ _ _ (h.linearization.invoked x hx)
  omega

theorem answered_lt (h : t.Explained O order v stage) {i : ι} {k : ℕ} {r : β}
    (hr : .answer i k r ∈ t.history) : k < t.calls := by
  obtain ⟨op, hmem⟩ := h.linearization.answered i k r hr
  exact h.invoked_lt _ _ _ (h.linearization.invoked _ hmem)

/-- The explanation of the threads whose call a new event is not about. -/
theorem explained_cons (h : t.Explained O order v stage) (j : ι) {event : Event ι α β} :
    (stage j).Explained (event :: t.history) order j (t.ongoing j) := by
  have hother := h.explained j
  cases hstage : stage j with
  | idle =>
    rw [hstage] at hother
    exact hother
  | pending op =>
    rw [hstage] at hother
    obtain ⟨k, hk, hinvoked, hnew⟩ := hother
    exact ⟨k, hk, List.mem_cons_of_mem _ hinvoked, hnew⟩
  | decided op r =>
    rw [hstage] at hother
    exact hother

end Recorded.Explained

section Rule

variable [DecidableEq ι]

/-- At most one pending call takes its step of the object. -/
inductive Decides (O : SequentialObject σ α β) (v : σ) (stage : ι → Stage α β) :
    σ → (ι → Stage α β) → Prop
  | none : Decides O v stage v stage
  | call {i : ι} {op : α} {r : β} {w : σ} : stage i = .pending op → O.serves v op r w →
      Decides O v stage w (Function.update stage i (.decided op r))

/-- A thread that is idle is asked, or a call that has taken its step is answered. -/
inductive Reports (stage : ι → Stage α β) : Label ι α β → (ι → Stage α β) → Prop
  | silent : Reports stage .silent stage
  | invoke {i : ι} {op : α} : stage i = .idle →
      Reports stage (.invoke i op) (Function.update stage i (.pending op))
  | answer {i : ι} {op : α} {r : β} : stage i = .decided op r →
      Reports stage (.answer i r) (Function.update stage i .idle)

/-- The certificate of linearizability: an invariant, the state of the object that a state of the
implementation stands for, and how far the calls have come. -/
structure Commits {S A : Type*} (O : SequentialObject σ α β) (step : S → A → Option S)
    (ok : S → A → Prop) (label : S → A → Label ι α β) (inv : S → Prop) (view : S → σ)
    (stage : S → ι → Stage α β) : Prop where
  keeps : ∀ s s' a, inv s → ok s a → step s a = some s' → inv s'
  commits : ∀ s s' a, inv s → ok s a → step s a = some s' → ∃ w stage',
    Decides O (view s) (stage s) w stage' ∧ Reports stage' (label s a) (stage s') ∧
      Relation.ReflTransGen O.drifts w (view s')

namespace Recorded.Explained

variable {S : Type*} {t : Recorded S ι α β} {order : List (Entry ι α β)} {v w : σ}
  {stage stage' : ι → Stage α β}

/-- A call that takes its step of the object goes to the end of the order. -/
theorem decides (h : t.Explained O order v stage) (hdecides : Decides O v stage w stage') :
    ∃ order', t.Explained O order' w stage' := by
  cases hdecides with
  | none => exact ⟨order, h⟩
  | @call i op r _ hpending hserves =>
    have hexplained := h.explained i
    rw [hpending] at hexplained
    obtain ⟨k, hk, hinvoked, hnew⟩ := hexplained
    obtain ⟨-, hopen, halone⟩ := h.ongoing_unanswered i k hk
    refine ⟨⟨i, k, op, r⟩ :: order, h.linearization.commit hserves hnew hinvoked hopen, fun j => ?_,
      h.invoked_lt, h.ongoing_unanswered⟩
    by_cases hj : j = i
    · subst hj
      rw [Function.update_self]
      exact ⟨k, hk, List.mem_cons_self⟩
    · rw [Function.update_of_ne hj]
      have hother := h.explained j
      cases hstage : stage j with
      | idle =>
        rw [hstage] at hother
        exact hother
      | pending op' =>
        rw [hstage] at hother
        obtain ⟨l, hl, hinvoked', hnew'⟩ := hother
        refine ⟨l, hl, hinvoked', ?_⟩
        rw [List.map_cons, List.mem_cons, not_or]
        exact ⟨fun heq => hj (halone j (hl.trans (congrArg some heq))), hnew'⟩
      | decided op' r' =>
        rw [hstage] at hother
        obtain ⟨l, hl, hmem⟩ := hother
        exact ⟨l, hl, List.mem_cons_of_mem _ hmem⟩

/-- What the clients see of a step goes into the history. -/
theorem record (h : t.Explained O order v stage) (s : S) {l : Label ι α β}
    (hreports : Reports stage l stage') : (t.record s l).Explained O order v stage' := by
  cases hreports with
  | silent => exact ⟨h.linearization, h.explained, h.invoked_lt, h.ongoing_unanswered⟩
  | @invoke i op hidle =>
    refine ⟨h.linearization.invoke h.calls_not_mem, fun j => ?_, fun j k op' hmem => ?_,
      fun j k hk => ?_⟩ <;> dsimp only [Recorded.record] at *
    · -- the new call has no place in the order yet
      by_cases hj : j = i
      · subst hj
        rw [Function.update_self, Function.update_self]
        exact ⟨t.calls, rfl, List.mem_cons_self, h.calls_not_mem⟩
      · rw [Function.update_of_ne hj, Function.update_of_ne hj]
        exact h.explained_cons j
    · rcases List.mem_cons.mp hmem with heq | hold
      · obtain ⟨-, rfl, -⟩ := Event.invoke.inj heq
        exact Nat.lt_succ_self _
      · exact Nat.lt_succ_of_lt (h.invoked_lt j k op' hold)
    · by_cases hj : j = i
      · subst hj
        rw [Function.update_self] at hk
        obtain rfl := Option.some.inj hk
        refine ⟨Nat.lt_succ_self _, fun r hr => ?_, fun j' hj' => ?_⟩
        · rcases List.mem_cons.mp hr with heq | hold
          · cases heq
          · exact lt_irrefl _ (h.answered_lt hold)
        · by_contra hne
          rw [Function.update_of_ne hne] at hj'
          exact lt_irrefl _ (h.ongoing_unanswered j' _ hj').1
      · rw [Function.update_of_ne hj] at hk
        obtain ⟨hlt, hopen, halone⟩ := h.ongoing_unanswered j k hk
        refine ⟨Nat.lt_succ_of_lt hlt, fun r hr => ?_, fun j' hj' => ?_⟩
        · rcases List.mem_cons.mp hr with heq | hold
          · cases heq
          · exact hopen r hold
        · by_cases hi : j' = i
          · rw [hi, Function.update_self] at hj'
            obtain rfl := Option.some.inj hj'
            exact absurd hlt (lt_irrefl _)
          · rw [Function.update_of_ne hi] at hj'
            exact halone j' hj'
  | @answer i op r hdecided =>
    have hexplained := h.explained i
    rw [hdecided] at hexplained
    -- the call answered has its place in the order, with this very answer
    obtain ⟨k, hk, hmem⟩ := hexplained
    have hcall : (t.ongoing i).getD t.calls = k := by rw [hk, Option.getD_some]
    refine ⟨?_, fun j => ?_, fun j l op' hmem' => ?_, fun j l hl => ?_⟩ <;>
      dsimp only [Recorded.record] at *
    · rw [hcall]
      exact h.linearization.answer hmem
    · by_cases hj : j = i
      · subst hj
        rw [Function.update_self, Function.update_self]
        rfl
      · rw [Function.update_of_ne hj, Function.update_of_ne hj]
        exact h.explained_cons j
    · rcases List.mem_cons.mp hmem' with heq | hold
      · cases heq
      · exact h.invoked_lt j l op' hold
    · have hj : j ≠ i := by
        rintro rfl
        rw [Function.update_self] at hl
        cases hl
      rw [Function.update_of_ne hj] at hl
      obtain ⟨hlt, hopen, halone⟩ := h.ongoing_unanswered j l hl
      refine ⟨hlt, fun r' hr' => ?_, fun j' hj' => ?_⟩
      · rcases List.mem_cons.mp hr' with heq | hold
        · exact hj (Event.answer.inj heq).1
        · exact hopen r' hold
      · by_cases hi : j' = i
        · rw [hi, Function.update_self] at hj'
          cases hj'
        · rw [Function.update_of_ne hi] at hj'
          exact halone j' hj'

end Recorded.Explained

/-- **The proof rule of linearizability.** The order in which the calls take their steps of the
object explains every history. -/
theorem Commits.linearized {S A : Type*} {step : S → A → Option S} {ok : S → A → Prop}
    {label : S → A → Label ι α β} {inv : S → Prop} {view : S → σ} {stage : S → ι → Stage α β}
    (h : Commits O step ok label inv view stage) {s₀ : S} (hinv : inv s₀) (hview : view s₀ = O.init)
    (hidle : ∀ i, stage s₀ i = .idle) {t : Recorded S ι α β}
    (hsteps : Steps (Recorded.next step label) (fun t a => ok t.state a)
      ⟨s₀, fun _ => none, 0, []⟩ t) :
    inv t.state ∧ ∃ order, Linearization O t.history order (view t.state) := by
  have hrun : inv t.state ∧ ∃ order, t.Explained O order (view t.state) (stage t.state) := by
    refine hsteps.invariant
      (P := fun t => inv t.state ∧ ∃ order, t.Explained O order (view t.state) (stage t.state))
      ⟨hinv, [], ?_⟩ fun t u a ⟨ht, order, hexplained⟩ hok hnext => ?_
    · refine ⟨⟨hview ▸ .start, List.nodup_nil, fun _ hx => absurd hx List.not_mem_nil,
        fun _ _ _ hr => absurd hr List.not_mem_nil, .nil⟩, fun i => ?_,
        fun _ _ _ hmem => absurd hmem List.not_mem_nil, fun _ _ hk => ?_⟩
      · rw [hidle i]
        rfl
      · cases hk
    · obtain ⟨s, hs, rfl⟩ := Option.map_eq_some_iff.mp hnext
      obtain ⟨w, stage', hdecides, hreports, hdrifts⟩ := h.commits _ _ _ ht hok hs
      obtain ⟨order', hexplained'⟩ := hexplained.decides hdecides
      rw [Recorded.record_state]
      exact ⟨h.keeps _ _ _ ht hok hs, order', (hexplained'.record s hreports).drift hdrifts⟩
  exact ⟨hrun.1, hrun.2.imp fun _ hexplained => hexplained.linearization⟩

end Rule

end Foundation

end HotCounter
