import HotCounter.Counter.Types
import HotCounter.Foundation.Gossip
import HotCounter.Foundation.Transition

/-!
# The grow-only counter

`GCounter` with its three operations as the code runs them: `increment` and `merge` change the
object in place and may throw, so they are programs over the counter with an error outcome that
carries the state left behind; `total` adds the components up and throws at the first one that
no longer fits. Above them, replicas that increment their own component and merge the current
or any earlier state of one another, in any order.
-/

namespace HotCounter

open Foundation

/-- The exceptions thrown by `GCounter`. -/
inductive GCounterError
  | outOfRange (what : String)
  | overflowError (what : String)
  | invalidArgument (what : String)
  deriving DecidableEq, Repr

/-- One amount per component. -/
@[ext]
structure GCounter where
  components : List ℕ
  deriving DecidableEq, Repr

namespace GCounter

/-- `GCounter::GCounter`. -/
def new (components : ℕ) : GCounter :=
  ⟨List.replicate components 0⟩

/-- `GCounter::increment`. -/
def increment (component delta : ℕ) : EStateM GCounterError GCounter Unit := do
  let c ← get
  if component ≥ c.components.length then
    throw (.outOfRange "invalid G-Counter component")
  if delta > amountMax - c.components.getD component 0 then
    throw (.overflowError "G-Counter component overflow")
  set { c with components :=
    c.components.set component (c.components.getD component 0 + delta) }

/-- `GCounter::merge`. -/
def merge (other : GCounter) : EStateM GCounterError GCounter Unit := do
  let c ← get
  if c.components.length ≠ other.components.length then
    throw (.invalidArgument "G-Counter component counts differ")
  set { c with components := List.zipWith max c.components other.components }

/-- The loop of `GCounter::total`. -/
def totalFrom : ℕ → List ℕ → Except GCounterError ℕ
  | total, [] => .ok total
  | total, value :: rest =>
    if value > amountMax - total then .error (.overflowError "G-Counter total overflow")
    else totalFrom (total + value) rest

/-- `GCounter::total`. -/
def total (c : GCounter) : Except GCounterError ℕ :=
  totalFrom 0 c.components

/-! ### What the operations do -/

/-- The components as a function, zero outside the counter. -/
def value (c : GCounter) (j : ℕ) : ℕ :=
  c.components.getD j 0

theorem increment_run (component delta : ℕ) (c : GCounter) :
    (increment component delta).run c =
      if c.components.length ≤ component then
        .error (.outOfRange "invalid G-Counter component") c
      else if amountMax - c.value component < delta then
        .error (.overflowError "G-Counter component overflow") c
      else .ok () ⟨c.components.set component (c.value component + delta)⟩ := by
  unfold increment value
  by_cases hrange : c.components.length ≤ component
  · simp [hrange, EStateM.run, bind, EStateM.bind, get, getThe, MonadStateOf.get, EStateM.get,
      throw, throwThe, MonadExceptOf.throw, EStateM.throw]
  · by_cases hfit : amountMax - c.components.getD component 0 < delta
    · simp only [EStateM.run, bind, EStateM.bind, get, getThe, MonadStateOf.get, EStateM.get,
        throw, throwThe, MonadExceptOf.throw, EStateM.throw, hrange, hfit, if_true, if_false]
    · simp only [EStateM.run, bind, EStateM.bind, get, getThe, MonadStateOf.get, EStateM.get,
        set, EStateM.set, hrange, hfit, if_false]

theorem merge_run (other c : GCounter) :
    (merge other).run c =
      if c.components.length ≠ other.components.length then
        .error (.invalidArgument "G-Counter component counts differ") c
      else .ok () ⟨List.zipWith max c.components other.components⟩ := by
  unfold merge
  by_cases hlen : c.components.length = other.components.length
  · simp [hlen, EStateM.run, bind, EStateM.bind, get, getThe, MonadStateOf.get, EStateM.get,
      set, EStateM.set]
  · simp [hlen, EStateM.run, bind, EStateM.bind, get, getThe, MonadStateOf.get, EStateM.get,
      throw, throwThe, MonadExceptOf.throw, EStateM.throw]

/-- **A call that throws changes nothing.** -/
theorem increment_error {component delta : ℕ} {c c' : GCounter} {e : GCounterError}
    (h : (increment component delta).run c = .error e c') : c' = c := by
  rw [increment_run] at h
  split at h
  · injection h with _ hc
    exact hc.symm
  · split at h
    · injection h with _ hc
      exact hc.symm
    · cases h

/-- A merge that throws changes nothing. -/
theorem merge_error {other c c' : GCounter} {e : GCounterError}
    (h : (merge other).run c = .error e c') : c' = c := by
  rw [merge_run] at h
  split at h
  · injection h with _ hc
    exact hc.symm
  · cases h

/-- What a successful increment leaves behind: its component has grown by the delta and still
fits, the others are as before. -/
theorem increment_ok {component delta : ℕ} {c c' : GCounter}
    (h : (increment component delta).run c = .ok () c') :
    component < c.components.length ∧ c'.components.length = c.components.length ∧
      c'.value = Function.update c.value component (c.value component + delta) := by
  rw [increment_run] at h
  split at h
  · cases h
  · rename_i hrange
    split at h
    · cases h
    · injection h with _ hc
      subst hc
      have hlt : component < c.components.length := Nat.lt_of_not_le hrange
      refine ⟨hlt, List.length_set, ?_⟩
      funext j
      by_cases hj : j = component
      · subst hj
        simp [value, hlt, List.getD_eq_getElem?_getD]
      · simp [value, Function.update_of_ne hj, List.getD_eq_getElem?_getD,
          List.getElem?_set_ne (Ne.symm hj)]

theorem increment_ok_value {component delta : ℕ} {c c' : GCounter}
    (h : (increment component delta).run c = .ok () c') : c.value ≤ c'.value := by
  obtain ⟨-, -, hvalue⟩ := increment_ok h
  rw [hvalue]
  exact le_update_iff.mpr ⟨Nat.le_add_right _ _, fun _ _ => le_rfl⟩

/-- Merging takes the larger value of every component. -/
theorem merge_ok {other c c' : GCounter} (h : (merge other).run c = .ok () c') :
    c'.components.length = c.components.length ∧ c'.value = c.value ⊔ other.value := by
  rw [merge_run] at h
  split at h
  · cases h
  · rename_i hlen
    have hlen : c.components.length = other.components.length := not_not.mp hlen
    injection h with _ hc
    subst hc
    refine ⟨by simp [hlen], ?_⟩
    funext j
    by_cases hj : j < c.components.length
    · have hj' : j < other.components.length := hlen ▸ hj
      simp [value, List.getD_eq_getElem?_getD, hj, hj']
    · have hj' : ¬j < other.components.length := hlen ▸ hj
      simp [value, List.getD_eq_getElem?_getD, List.getElem?_eq_none_iff.mpr (not_lt.mp hj),
        List.getElem?_eq_none_iff.mpr (not_lt.mp hj'), List.getElem?_zipWith]

/-- Counters of one size are equal when their components are. -/
theorem eq_of_value {c d : GCounter} (hlen : c.components.length = d.components.length)
    (h : c.value = d.value) : c = d := by
  refine GCounter.ext (List.ext_getElem hlen fun j hc hd => ?_)
  have hj := congrFun h j
  simpa [value, List.getD_eq_getElem?_getD, hc, hd] using hj

/-- The loop returns the exact sum, or throws when that does not fit. -/
theorem totalFrom_eq : ∀ (values : List ℕ) (total : ℕ), total ≤ amountMax →
    totalFrom total values =
      if total + values.sum ≤ amountMax then .ok (total + values.sum)
      else .error (.overflowError "G-Counter total overflow")
  | [], total, h => by simp [totalFrom, h]
  | value :: rest, total, h => by
    rw [totalFrom, List.sum_cons]
    by_cases hfit : value > amountMax - total
    · rw [if_pos hfit, if_neg (by omega)]
    · rw [if_neg hfit, totalFrom_eq rest (total + value) (by omega), Nat.add_assoc]

theorem sum_components (c : GCounter) :
    c.components.sum = ∑ j ∈ Finset.range c.components.length, c.value j := by
  rw [← Fin.sum_univ_eq_sum_range, ← Fin.sum_univ_getElem]
  refine Finset.sum_congr rfl fun j _ => ?_
  simp [value, List.getD_eq_getElem?_getD]

end GCounter

/-! ### Replicas that gossip -/

/-- A copy of a replica's counter. An update is named by the replica that made it and the
number of updates that replica had made before. -/
abbrev GCounterCopy (r : ℕ) := Copy (Fin r × ℕ) GCounter

/-- `r` replicas. The code's objects are the states of `replica`; the copies taken of them over
time, the updates merged into each copy and the log of the successful increments of every
replica, each with the counter it left behind, are kept for the statements. -/
structure Gossip (r : ℕ) where
  replica : Fin r → GCounterCopy r
  earlier : Fin r → List (GCounterCopy r)
  log : Fin r → List (ℕ × GCounter)

/-- An increment by a replica on its own component, or a merge of a copy of some replica's
state: its current one for `age = 0`, else an earlier one. -/
inductive GossipAction (r : ℕ)
  | increment (i : Fin r) (delta : ℕ)
  | merge (i j : Fin r) (age : ℕ)
  deriving DecidableEq

namespace Gossip

variable {r : ℕ}

/-- All replicas with `n` components, before any call. -/
def start (r n : ℕ) : Gossip r where
  replica _ := ⟨.new n, ∅⟩
  earlier _ := []
  log _ := []

/-- Every copy there is of the states replica `i` has held, the current one first. -/
def held (g : Gossip r) (i : Fin r) : List (GCounterCopy r) :=
  g.replica i :: g.earlier i

/-- Replica `i` now holds `c`. -/
def hold (g : Gossip r) (i : Fin r) (c : GCounterCopy r) : Gossip r :=
  { g with
    replica := Function.update g.replica i c
    earlier := Function.update g.earlier i (g.held i) }

/-- One call of `increment` or `merge` on a replica. -/
def step (g : Gossip r) : GossipAction r → Option (Gossip r)
  | .increment i delta =>
    match (GCounter.increment i delta).run (g.replica i).state with
    | .ok _ c => some
        { g.hold i ⟨c, insert (i, (g.log i).length) (g.replica i).merged⟩ with
          log := Function.update g.log i (g.log i ++ [(delta, c)]) }
    | .error _ c => some (g.hold i ⟨c, (g.replica i).merged⟩)
  | .merge i j age =>
    match (g.held j)[age]? with
    | none => none
    | some copy =>
      match (GCounter.merge copy.state).run (g.replica i).state with
      | .ok _ c => some (g.hold i ⟨c, (g.replica i).merged ∪ copy.merged⟩)
      | .error _ c => some (g.hold i ⟨c, (g.replica i).merged⟩)

/-- Sum of the deltas of the successful increments of replica `i`. -/
def spent (g : Gossip r) (i : Fin r) : ℕ :=
  ((g.log i).map Prod.fst).sum

/-- What an update left behind, by component. -/
def after (g : Gossip r) (u : Fin r × ℕ) : ℕ → ℕ :=
  match (g.log u.1)[u.2]? with
  | some (_, c) => c.value
  | none => ⊥

/-- What one step can do to the replica it is made on: leave it as it is, join a copy that
exists to it, or add a successful increment of its own component. -/
theorem step_cases {g g' : Gossip r} {a : GossipAction r} (h : g.step a = some g') :
    ∃ i : Fin r,
      g' = g.hold i (g.replica i) ∨
      (∃ j, ∃ copy ∈ g.held j, ∃ c,
        (GCounter.merge copy.state).run (g.replica i).state = .ok () c ∧
        g' = g.hold i ⟨c, (g.replica i).merged ∪ copy.merged⟩) ∨
      (∃ delta c, a = .increment i delta ∧
        (GCounter.increment i delta).run (g.replica i).state = .ok () c ∧
        g' = { g.hold i ⟨c, insert (i, (g.log i).length) (g.replica i).merged⟩ with
          log := Function.update g.log i (g.log i ++ [(delta, c)]) }) := by
  cases a with
  | increment i delta =>
    refine ⟨i, ?_⟩
    simp only [step] at h
    split at h
    · rename_i c hrun
      exact .inr (.inr ⟨delta, c, rfl, hrun, (Option.some.inj h).symm⟩)
    · rename_i e c hrun
      have hc := GCounter.increment_error hrun
      subst hc
      exact .inl (Option.some.inj h).symm
  | merge i j age =>
    refine ⟨i, ?_⟩
    simp only [step] at h
    split at h
    · cases h
    · rename_i copy hcopy
      split at h
      · rename_i c hrun
        exact .inr (.inl ⟨j, copy, List.mem_of_getElem? hcopy, c, hrun, (Option.some.inj h).symm⟩)
      · rename_i e c hrun
        have hc := GCounter.merge_error hrun
        subst hc
        exact .inl (Option.some.inj h).symm

/-- What holds of every copy in a run: it has all components, its updates have been made, it
is the join of what they left behind, and no component exceeds what its owner has spent. -/
structure Good (n : ℕ) (g : Gossip r) (c : GCounterCopy r) : Prop where
  length : c.state.components.length = n
  made : ∀ u ∈ c.merged, u.2 < (g.log u.1).length
  joins : c.Joins GCounter.value g.after
  le_spent : ∀ j : Fin r, c.state.value j ≤ g.spent j
  unowned : ∀ j, r ≤ j → c.state.value j = 0

/-- The invariant of a run with `n` components. -/
structure Inv (n : ℕ) (g : Gossip r) : Prop where
  good : ∀ i, ∀ c ∈ g.held i, g.Good n c
  own : ∀ i : Fin r, (g.replica i).state.value i = g.spent i

theorem Good.merge {n : ℕ} {g : Gossip r} {c d : GCounterCopy r} {s : GCounter}
    (hc : g.Good n c) (hd : g.Good n d) (hs : (GCounter.merge d.state).run c.state = .ok () s) :
    g.Good n ⟨s, c.merged ∪ d.merged⟩ := by
  obtain ⟨hlen, hvalue⟩ := GCounter.merge_ok hs
  refine ⟨hlen.trans hc.length, fun u hu => ?_, hc.joins.merge hd.joins hvalue, fun j => ?_,
    fun j hj => ?_⟩
  · rcases Finset.mem_union.mp hu with hu | hu
    · exact hc.made u hu
    · exact hd.made u hu
  · rw [hvalue]
    exact sup_le (hc.le_spent j) (hd.le_spent j)
  · rw [hvalue, Pi.sup_apply, hc.unowned j hj, hd.unowned j hj]
    rfl

section Increment

variable {n delta : ℕ} {i : Fin r} {s : GCounter} {g g' : Gossip r}

/-- The updates made before an increment left behind what they left behind. -/
private theorem after_of_made (hlog : g'.log = Function.update g.log i (g.log i ++ [(delta, s)]))
    {u : Fin r × ℕ} (hu : u.2 < (g.log u.1).length) : g'.after u = g.after u := by
  obtain ⟨j, k⟩ := u
  unfold after
  rw [hlog]
  by_cases hj : j = i
  · subst hj
    simp only [Function.update_self, List.getElem?_append_left hu]
  · simp only [Function.update_of_ne hj]

private theorem spent_of_log (hlog : g'.log = Function.update g.log i (g.log i ++ [(delta, s)]))
    (j : Fin r) : g'.spent j = g.spent j + if j = i then delta else 0 := by
  unfold spent
  rw [hlog]
  by_cases hj : j = i
  · subst hj
    simp
  · simp [hj]

private theorem Good.extend (hlog : g'.log = Function.update g.log i (g.log i ++ [(delta, s)]))
    {c : GCounterCopy r} (hc : g.Good n c) : g'.Good n c := by
  refine ⟨hc.length, fun u hu => ?_, hc.joins.congr fun u hu => ?_, fun j => ?_, hc.unowned⟩
  · have hmade := hc.made u hu
    rw [hlog]
    by_cases hj : u.1 = i
    · rw [hj] at hmade ⊢
      simp only [Function.update_self, List.length_append, List.length_singleton]
      omega
    · rwa [Function.update_of_ne hj]
  · exact (after_of_made hlog (hc.made u hu)).symm
  · rw [spent_of_log hlog]
    exact le_add_right (hc.le_spent j)

private theorem Good.increment
    (hlog : g'.log = Function.update g.log i (g.log i ++ [(delta, s)])) {c : GCounterCopy r}
    (hc : g.Good n c) (hs : (GCounter.increment i delta).run c.state = .ok () s) :
    g'.Good n ⟨s, insert (i, (g.log i).length) c.merged⟩ := by
  obtain ⟨-, hlen, hvalue⟩ := GCounter.increment_ok hs
  have hc' := hc.extend hlog
  refine ⟨hlen.trans hc.length, fun u hu => ?_, ?_, fun j => ?_, fun j hj => ?_⟩
  · rcases Finset.mem_insert.mp hu with rfl | hu
    · simp [hlog]
    · exact hc'.made u hu
  · refine hc'.joins.update (GCounter.increment_ok_value hs) ?_
    simp [after, hlog]
  · -- only the component of the replica itself has moved, by the delta it has now spent
    have hj := hc.le_spent j
    rw [spent_of_log hlog]
    show s.value j ≤ _
    rw [hvalue]
    by_cases hji : j = i
    · subst hji
      simpa using hj
    · have hne : (j : ℕ) ≠ i := fun h => hji (Fin.ext h)
      simpa [hji, Function.update_of_ne hne] using hj
  · have hne : j ≠ i := by omega
    show s.value j = 0
    rw [hvalue, Function.update_of_ne hne]
    exact hc.unowned j hj

end Increment

/-- The copies that exist after a replica has taken on a new state. -/
theorem mem_held_hold {g : Gossip r} {i k : Fin r} {c d : GCounterCopy r}
    (h : c ∈ (g.hold i d).held k) : (k = i ∧ c = d) ∨ c ∈ g.held k := by
  by_cases hk : k = i
  · subst hk
    simp only [hold, held, Function.update_self, List.mem_cons] at h
    rcases h with h | h | h
    · exact .inl ⟨rfl, h⟩
    · exact .inr (List.mem_cons.mpr (.inl h))
    · exact .inr (List.mem_cons.mpr (.inr h))
  · simp only [hold, held, Function.update_of_ne hk] at h
    exact .inr h

theorem replica_mem_held (g : Gossip r) (i : Fin r) : g.replica i ∈ g.held i :=
  List.mem_cons_self

/-- Taking on a good state with the replica's own component unchanged keeps the invariant. -/
private theorem Inv.hold {n : ℕ} {g : Gossip r} (hinv : g.Inv n) {i : Fin r}
    {d : GCounterCopy r} (hd : g.Good n d) (hown : d.state.value i = g.spent i) :
    (g.hold i d).Inv n := by
  refine ⟨fun k c hc => ?_, fun k => ?_⟩
  · rcases mem_held_hold hc with ⟨-, rfl⟩ | hc
    · exact ⟨hd.length, hd.made, hd.joins, hd.le_spent, hd.unowned⟩
    · have hg := hinv.good k c hc
      exact ⟨hg.length, hg.made, hg.joins, hg.le_spent, hg.unowned⟩
  · show (Function.update g.replica i d k).state.value k = g.spent k
    by_cases hk : k = i
    · subst hk
      rwa [Function.update_self]
    · rw [Function.update_of_ne hk]
      exact hinv.own k

theorem Inv.start (r n : ℕ) : (Gossip.start r n).Inv n := by
  have hzero : (GCounter.new n).value = ⊥ := by
    funext j
    by_cases hj : j < n <;>
      simp [GCounter.value, GCounter.new, List.getD_eq_getElem?_getD, hj]
  refine ⟨fun i c hc => ?_, fun i => ?_⟩
  · obtain rfl : c = ⟨.new n, ∅⟩ := by simpa [held, Gossip.start] using hc
    refine ⟨by simp [GCounter.new], fun u hu => absurd hu (Finset.notMem_empty u),
      Copy.joins_empty hzero, fun j => ?_, fun j _ => ?_⟩
    · simp [hzero]
    · simp [hzero]
  · simp [Gossip.start, spent, hzero]

theorem Inv.step {n : ℕ} {g g' : Gossip r} {a : GossipAction r} (hinv : g.Inv n)
    (h : g.step a = some g') : g'.Inv n := by
  obtain ⟨i, rfl | ⟨j, copy, hcopy, c, hrun, rfl⟩ | ⟨delta, c, -, hrun, rfl⟩⟩ := step_cases h
  · exact hinv.hold (hinv.good i _ (g.replica_mem_held i)) (hinv.own i)
  · have hgood := hinv.good i _ (g.replica_mem_held i)
    have hcopy' := hinv.good j copy hcopy
    refine hinv.hold (hgood.merge hcopy' hrun) ?_
    -- the copy's component is bounded by what the replica itself has spent
    have hvalue := (GCounter.merge_ok hrun).2
    show c.value i = g.spent i
    rw [hvalue, Pi.sup_apply, hinv.own i]
    exact sup_eq_left.mpr (hcopy'.le_spent i)
  · have hgood := hinv.good i _ (g.replica_mem_held i)
    refine ⟨fun k d hd => ?_, fun k => ?_⟩
    · rcases mem_held_hold hd with ⟨-, rfl⟩ | hd
      · exact hgood.increment rfl hrun
      · exact (hinv.good k d hd).extend rfl
    · rw [spent_of_log rfl, ← hinv.own k]
      have hvalue := (GCounter.increment_ok hrun).2.2
      by_cases hk : k = i
      · subst hk
        simp [Gossip.hold, hvalue]
      · simp [Gossip.hold, hk]

/-- The invariant holds in every run. -/
theorem Inv.steps {n : ℕ} {g : Gossip r} {ok : Gossip r → GossipAction r → Prop}
    (h : Steps Gossip.step ok (Gossip.start r n) g) : g.Inv n :=
  h.invariant (Inv.start r n) fun _ _ _ hinv _ hs => hinv.step hs

/-! ### Convergence -/

/-- The merges among the actions of a run. -/
def mergesOnly (_ : Gossip r) : GossipAction r → Prop
  | .increment _ _ => False
  | .merge _ _ _ => True

/-- Merging makes no updates. -/
theorem log_of_mergesOnly {g t : Gossip r} (h : Steps step mergesOnly g t) : t.log = g.log := by
  refine h.invariant (P := fun t => t.log = g.log) rfl fun t u a hlog hok hs => ?_
  obtain ⟨i, rfl | ⟨_, _, _, _, _, rfl⟩ | ⟨_, _, rfl, _, _⟩⟩ := step_cases hs
  · exact hlog
  · exact hlog
  · exact hok.elim

/-- A component that nobody owns or that the counter does not have adds nothing. -/
private theorem sum_value_eq {n : ℕ} {g : Gossip r} {c : GCounterCopy r} (hc : g.Good n c)
    (hspent : ∀ j : Fin r, c.state.value j = g.spent j) :
    c.state.components.sum = ∑ j, g.spent j := by
  have hout : ∀ j, n ≤ j → c.state.value j = 0 := by
    intro j hj
    have hlen : c.state.components.length ≤ j := hc.length.trans_le hj
    rw [GCounter.value, List.getD_eq_getElem?_getD, List.getElem?_eq_none_iff.mpr hlen,
      Option.getD_none]
  calc c.state.components.sum
      = ∑ j ∈ Finset.range n, c.state.value j := by rw [GCounter.sum_components, hc.length]
    _ = ∑ j ∈ Finset.range (max n r), c.state.value j := by
      refine Finset.sum_subset (by simp) fun j _ hj => hout j ?_
      simpa using hj
    _ = ∑ j ∈ Finset.range r, c.state.value j := by
      refine (Finset.sum_subset (by simp) fun j _ hj => hc.unowned j ?_).symm
      simpa using hj
    _ = ∑ j, g.spent j := by
      rw [← Fin.sum_univ_eq_sum_range]
      exact Finset.sum_congr rfl fun j _ => hspent j

/-- A copy with all updates in it holds what every replica has spent. -/
private theorem value_eq_spent {n : ℕ} {g t : Gossip r} (hg : g.Inv n)
    (hlog : t.log = g.log) {c : GCounterCopy r} (hc : t.Good n c)
    (hall : ∀ j, (g.replica j).merged ⊆ c.merged) (j : Fin r) :
    c.state.value j = t.spent j := by
  have hafter : g.after = t.after := by
    funext u
    rw [after, after, hlog]
  have hj := (hg.good j _ (g.replica_mem_held j)).joins
  rw [hafter] at hj
  refine le_antisymm (hc.le_spent j) ?_
  calc t.spent j = g.spent j := by rw [spent, spent, hlog]
    _ = (g.replica j).state.value j := (hg.own j).symm
    _ ≤ c.state.value j := hj.mono hc.joins (hall j) j

/-- **Grow-only counters converge.** In every run of increments and merges of current or
earlier states, no copy holds more of a component than its owner; copies with the same updates
are equal; a replica that has merged the state every replica had after its last increment
totals exactly the sum of all successful increments, or throws when that does not fit; and a
call that throws changes nothing. -/
theorem gcounter_convergence {n : ℕ} {g : Gossip r}
    (h : Steps step (fun _ _ => True) (Gossip.start r n) g) :
    (∀ i j : Fin r, ∀ c ∈ g.held i, c.state.value j ≤ (g.replica j).state.value j) ∧
    (∀ i k, ∀ c ∈ g.held i, ∀ d ∈ g.held k, c.merged = d.merged → c.state = d.state) ∧
    (∀ t i, Steps step mergesOnly g t →
      (∀ j, (g.replica j).merged ⊆ (t.replica i).merged) →
        (t.replica i).state.total =
          if ∑ j, g.spent j ≤ amountMax then .ok (∑ j, g.spent j)
          else .error (.overflowError "G-Counter total overflow")) ∧
    (∀ component delta c e c',
      (GCounter.increment component delta).run c = .error e c' → c' = c) ∧
    (∀ other c e c', (GCounter.merge other).run c = .error e c' → c' = c) := by
  have hinv : g.Inv n := Inv.steps h
  refine ⟨fun i j c hc => ?_, fun i k c hc d hd hsame => ?_, fun t i ht hall => ?_,
    fun _ _ _ _ _ => GCounter.increment_error, fun _ _ _ _ => GCounter.merge_error⟩
  · rw [hinv.own j]
    exact (hinv.good i c hc).le_spent j
  · have hgc := hinv.good i c hc
    have hgd := hinv.good k d hd
    exact GCounter.eq_of_value (hgc.length.trans hgd.length.symm) (hgc.joins.eq hgd.joins hsame)
  · have hlog := log_of_mergesOnly ht
    have hinv' : t.Inv n := Inv.steps (h.trans (ht.mono fun _ _ _ => trivial))
    have hgood := hinv'.good i _ (t.replica_mem_held i)
    have hsum := sum_value_eq hgood (value_eq_spent hinv hlog hgood hall)
    have hspent : ∀ j, t.spent j = g.spent j := fun j => by rw [spent, spent, hlog]
    rw [GCounter.total, GCounter.totalFrom_eq _ _ (Nat.zero_le _), Nat.zero_add, hsum]
    simp only [hspent]

/-- Two replicas that increment once each and then merge one another both total the sum. -/
theorem gcounter_convergence_exchange :
    ∃ g : Gossip 2, Steps step (fun _ _ => True) (Gossip.start 2 2) g ∧
      ∀ i, (g.replica i).state.total = .ok 12 := by
  have hexec : (exec step (fun _ _ => True) (Gossip.start 2 2)
      [.increment 0 5, .increment 1 7, .merge 0 1 0, .merge 1 0 1, .merge 1 0 0]).map
        (fun g => decide ((∀ i j, (g.replica j).merged ⊆ (g.replica i).merged) ∧
          ∑ j, g.spent j = 12)) = some true := by
    decide +kernel
  obtain ⟨g, hrun, hmerged, hspent⟩ := Steps.exists_of_exec hexec
  refine ⟨g, hrun, fun i => ?_⟩
  have htotal := (gcounter_convergence hrun).2.2.1 g i .refl (hmerged i)
  rwa [hspent, if_pos (by decide)] at htotal

end Gossip

end HotCounter
