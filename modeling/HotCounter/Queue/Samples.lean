import HotCounter.Queue.Alerts
import HotCounter.Foundation.Sums

/-!
# Where the samples of the hot-key detector are

Every call of `record` has pushed its sample, has counted it as dropped, or is on its way to one
of the two. At most one sample more than the queue has cells is pushed and not taken, and a
recorder gives up only while at least as many as the queue has cells are.
-/

namespace HotCounter

open Foundation

namespace HotKeyDetector

open QueueSystem MpmcQueue

variable {ι : Type*} {threshold : ℕ} {s s' : HotKeyDetector ι}

/-- Calls of `record` of one thread whose sample is neither pushed nor counted as dropped. -/
def pending (s : HotKeyDetector ι) (i : ι) : ℕ :=
  trying (s.system.threads (some i)) + if s.dropping i then 1 else 0

/-- Two functions that differ in one place have sums that differ by the difference there. -/
theorem sum_add_of_ne [Fintype ι] [DecidableEq ι] {f g : ι → ℕ} {i : ι}
    (h : ∀ j, j ≠ i → f j = g j) : ∑ j, f j + g i = ∑ j, g j + f i := by
  have hupdate : f = Function.update g i (f i) := by
    funext j
    by_cases hj : j = i
    · rw [hj, Function.update_self]
    · rw [Function.update_of_ne hj, h j hj]
  have hsum := sum_update_add id g i (f i)
  rw [hupdate, Function.update_self]
  exact hsum

/-- The worker never pushes. -/
theorem Ok.trying_eq_zero (h : s.Ok threshold) : trying (s.system.threads none) = 0 := by
  have hroles := h.consumer.roles none
  generalize s.system.threads none = point at hroles
  cases point with
  | pushLoad | pushSwap => exact absurd rfl hroles
  | pushSequence => exact absurd rfl hroles.1
  | _ => rfl

section Accounting

variable [Fintype ι]

/-- **The account of the calls of `record`.** -/
structure Accounted (s : HotKeyDetector ι) : Prop where
  records_eq : s.records = s.system.pushes.length + s.dropped + ∑ i, s.pending i
  records_le : s.records ≤ s.system.operations
  idle : ∀ i, s.dropping i = true → s.system.threads (some i) = .idle

theorem Accounted.new : (new ι threshold).Accounted where
  records_eq := by
    have hpending : ∀ i, (HotKeyDetector.new ι threshold).pending i = 0 := fun _ => rfl
    simp only [hpending, Finset.sum_const_zero]
    rfl
  records_le := le_rfl
  idle _ _ := rfl

/-- A step that concerns no recorder. -/
theorem Accounted.keep (h : s.Accounted)
    (hthreads : ∀ i, s'.system.threads (some i) = s.system.threads (some i))
    (hpushes : s'.system.pushes.length = s.system.pushes.length)
    (hoperations : s.system.operations ≤ s'.system.operations)
    (hdropping : s'.dropping = s.dropping)
    (hdropped : s'.dropped = s.dropped) (hrecords : s'.records = s.records) : s'.Accounted where
  records_eq := by
    have hpending : s'.pending = s.pending := by
      funext i
      rw [pending, pending, hthreads, hdropping]
    rw [hrecords, hpushes, hdropped, hpending]
    exact h.records_eq
  records_le := by
    rw [hrecords]
    exact h.records_le.trans hoperations
  idle i hi := by
    rw [hthreads]
    exact h.idle i (by rwa [hdropping] at hi)

/-- A thread that has failed to push is outside `try_push`. -/
theorem Accounted.dropping_eq_false (h : s.Accounted) {i : ι}
    (hi : s.system.threads (some i) ≠ .idle) : s.dropping i = false := by
  by_contra hne
  exact hi (h.idle i (Bool.eq_true_of_not_eq_false hne))

variable [DecidableEq ι]

/-- A step that concerns one recorder at most. -/
theorem Accounted.update (h : s.Accounted) (i : ι)
    (hthreads : ∀ j, j ≠ i → s'.system.threads (some j) = s.system.threads (some j))
    (hdropping : ∀ j, j ≠ i → s'.dropping j = s.dropping j)
    (hrecords : s'.records + s.system.pushes.length + s.dropped + s.pending i =
      s.records + s'.system.pushes.length + s'.dropped + s'.pending i)
    (hle : s'.records ≤ s'.system.operations)
    (hidle : s'.dropping i = true → s'.system.threads (some i) = .idle) : s'.Accounted where
  records_eq := by
    have hsum : ∑ j, s'.pending j + s.pending i = ∑ j, s.pending j + s'.pending i :=
      sum_add_of_ne fun j hj => by rw [pending, pending, hthreads j hj, hdropping j hj]
    have hold := h.records_eq
    omega
  records_le := hle
  idle j hj := by
    by_cases hji : j = i
    · rw [hji] at hj ⊢
      exact hidle hj
    · rw [hthreads j hji]
      exact h.idle j ((hdropping j hji).symm.trans hj)

/-- A call of `record` is one more on its way. -/
theorem Accounted.record {i : ι} {sample : Sample} (h : s.Accounted)
    (hs : s.step (.record i sample) = some s') : s'.Accounted := by
  simp only [HotKeyDetector.step, QueueSystem.step] at hs
  split at hs
  · cases hs
  rename_i hdropping
  split at hs
  · cases hs
  rename_i system hsystem
  split at hsystem
  · rename_i hidle
    obtain rfl := Option.some.inj hsystem
    obtain rfl := Option.some.inj hs
    refine h.update i (fun j hj => ?_) (fun _ _ => rfl) ?_ (Nat.succ_le_succ h.records_le)
      fun hi => absurd hi hdropping
    · exact Function.update_of_ne (fun heq => hj (Option.some.inj heq)) _ _
    · have hbefore : s.pending i = 0 := by
        rw [pending, hidle, if_neg hdropping]
        rfl
      simp only [pending, QueueSystem.call, QueueSystem.goto, Function.update_self, trying,
        if_neg hdropping] at hbefore ⊢
      omega
  · cases hsystem

/-- An access of a recorder pushes its sample, gives it up, or goes on. -/
theorem Accounted.access {i : ι} {spurious : Bool} (h : s.Accounted)
    (hs : s.access i spurious = some s') : s'.Accounted := by
  obtain ⟨system, hsystem, hcases⟩ := access_cases hs
  have hactive : s.system.threads (some i) ≠ .idle := fun hidle => by
    rw [hidle] at hsystem
    cases hsystem
  have hdropping := h.dropping_eq_false hactive
  have hthreads : ∀ j, j ≠ i → system.threads (some j) = s.system.threads (some j) :=
    fun j hj => access_threads_ne hsystem fun heq => hj (Option.some.inj heq)
  have hle : s.records ≤ system.operations := by
    rw [access_operations hsystem]
    exact h.records_le
  have hpushes := access_pushes hsystem
  rcases hcases with ⟨hup, rfl⟩ | ⟨hup, rfl⟩
  · rcases hpushes with ⟨-, hone, hzero, hsame⟩ | ⟨hnot, -⟩
    · refine h.update i hthreads (fun j hj => Function.update_of_ne hj _ _) ?_ hle fun _ => hup.2
      simp only [pending, Function.update_self, hone, hzero, hdropping, hsame]
      rfl
    · exact absurd hup hnot
  · rcases hpushes with ⟨hgives, -⟩ | ⟨-, hbalance⟩
    · exact absurd hgives hup
    · refine h.update i hthreads (fun _ _ => rfl) ?_ hle fun hi => absurd hi (by simp [hdropping])
      simp only [pending]
      omega

/-- A sample given up is counted as dropped. -/
theorem Accounted.drop {i : ι} (h : s.Accounted) (hops : s'.system.operations < 2 ^ 62)
    (hs : s.step (.drop i) = some s') : s'.Accounted := by
  have hmono := step_operations_le hs
  simp only [HotKeyDetector.step] at hs
  split at hs
  · rename_i hdropping
    obtain rfl := Option.some.inj hs
    have hone : s.pending i = 1 := by
      rw [pending, h.idle i hdropping, if_pos hdropping]
      rfl
    have hpos : s.dropped + 1 ≤ s.records := by
      have hterm := le_sum s.pending i
      have heq := h.records_eq
      omega
    have hle := h.records_le
    -- the count does not wrap, for it is within the calls
    have hmod : (s.dropped + 1) % 2 ^ 64 = s.dropped + 1 := Nat.mod_eq_of_lt (by omega)
    refine h.update i (fun _ _ => rfl) (fun j hj => Function.update_of_ne hj _ _) ?_ hle
      fun _ => h.idle i hdropping
    rw [hone]
    simp only [pending, Function.update_self, h.idle i hdropping, trying, hmod]
    simp only [Bool.false_eq_true, if_false]
    omega
  · cases hs

/-- A call of `try_pop` pushes nothing. -/
theorem Accounted.pop (h : s.Accounted) (hs : s.step .pop = some s') : s'.Accounted := by
  have hmono := step_operations_le hs
  simp only [HotKeyDetector.step, QueueSystem.step] at hs
  split at hs
  · split at hs
    · cases hs
    rename_i system hsystem
    split at hsystem
    · obtain rfl := Option.some.inj hsystem
      obtain rfl := Option.some.inj hs
      exact h.keep (fun i => Function.update_of_ne (Option.some_ne_none i) QueuePoint.popLoad _)
        rfl hmono rfl rfl rfl
    · cases hsystem
  · cases hs

/-- An access of the worker, who never tries to push, pushes nothing. -/
theorem Accounted.popAccess {spurious : Bool} (h : s.Accounted) (hok : s.Ok threshold)
    (hok' : s'.Ok threshold) (hs : s.step (.popAccess spurious) = some s') : s'.Accounted := by
  have hmono := step_operations_le hs
  simp only [HotKeyDetector.step] at hs
  split at hs
  · obtain ⟨system, hsystem, hcases⟩ := popAccess_cases hs
    have hthreads : ∀ i, system.threads (some i) = s.system.threads (some i) := fun i =>
      access_threads_ne hsystem (Option.some_ne_none i)
    have hsystem' : s'.system = system := by
      rcases hcases with ⟨_, _, -, rfl⟩ | ⟨_, -, -, rfl⟩ | ⟨-, rfl⟩ <;> rfl
    have hpushes : system.pushes.length = s.system.pushes.length := by
      have hzero := hok.trying_eq_zero
      have hzero' := hok'.trying_eq_zero
      rw [hsystem'] at hzero'
      rcases access_pushes hsystem with ⟨-, -, -, hsame⟩ | ⟨-, hbalance⟩
      · rw [hsame]
      · omega
    rcases hcases with ⟨_, _, -, rfl⟩ | ⟨_, -, -, rfl⟩ | ⟨-, rfl⟩
    · exact h.keep hthreads hpushes hmono rfl rfl rfl
    · exact h.keep hthreads hpushes hmono rfl rfl rfl
    · exact h.keep hthreads hpushes hmono rfl rfl rfl
  · cases hs

/-- **One step keeps the account.** -/
theorem Accounted.step {action : DetectorAction ι} (h : s.Accounted) (hok : s.Ok threshold)
    (hok' : s'.Ok threshold) (hops : s'.system.operations < 2 ^ 62)
    (hs : s.step action = some s') : s'.Accounted := by
  cases action with
  | start | stop | join | check | visit | alert | clear | wake =>
    simp only [HotKeyDetector.step] at hs
    (repeat' split at hs) <;>
      first
      | (obtain rfl := Option.some.inj hs; exact h.keep (fun _ => rfl) rfl le_rfl rfl rfl rfl)
      | cases hs
  | record i sample => exact h.record hs
  | access i spurious => exact h.access hs
  | drop i => exact h.drop hops hs
  | pop => exact h.pop hs
  | popAccess spurious => exact h.popAccess hok hok' hs

/-- Every run of fewer than `2 ^ 62` calls keeps the account. -/
theorem Accounted.steps
    (h : Steps HotKeyDetector.step (fun _ _ => True) (HotKeyDetector.new ι threshold) s)
    (hops : s.system.operations < 2 ^ 62) : s.Accounted := by
  refine (h.invariant (P := fun s => s.system.operations < 2 ^ 62 → s.Ok threshold ∧ s.Accounted)
    (fun _ => ⟨.new, .new⟩) (fun t u a hboth _ hs hlt => ?_) hops).2
  have hlt' := (step_operations_le hs).trans_lt hlt
  obtain ⟨hok, haccounted⟩ := hboth hlt'
  have hok' := hok.step hlt' hlt hs
  exact ⟨hok', haccounted.step hok hok' hlt hs⟩

/-- **No sample is unaccounted for.** In every run of fewer than `2 ^ 62` calls of the queue, with
any number of recorders: every call of `record` has pushed its sample, has counted it as dropped,
or is on its way to one of the two; the samples pushed and not taken yet are at most one more than
the queue has cells; and a recorder gives up only where at least as many samples as the queue has
cells are pushed and not taken. -/
theorem records_accounted
    (h : Steps HotKeyDetector.step (fun _ _ => True) (HotKeyDetector.new ι threshold) s)
    (hops : s.system.operations < 2 ^ 62) :
    s.records = s.system.pushes.length + s.dropped + ∑ i, s.pending i ∧
      s.system.pushes.length ≤ s.system.returned.length + 65536 + 1 ∧
      ∀ i spurious s', s.access i spurious = some s' → s.dropping i = false →
        s'.dropping i = true → s.system.returned.length + 65536 ≤ s.system.pushes.length := by
  have hok := Ok.steps h hops
  have haccounted := Accounted.steps h hops
  have hpushes : s.system.pushes.length = s.system.queue.enqueue := by
    simpa using congrArg List.length hok.queue.pushTickets
  refine ⟨haccounted.records_eq, ?_, fun i spurious s' hs hbefore hafter => ?_⟩
  · have hadd := hok.queue.le_add
    have hdequeue := hok.consumer.dequeue_eq
    have hheld : held (s.system.threads none) ≤ 1 := by
      rw [held]
      split <;> omega
    have hcapacity : sampleCapacity.value = 65536 := rfl
    omega
  · obtain ⟨system, hsystem, ⟨⟨⟨value, pos, hpoint⟩, hidle⟩, -⟩ | ⟨-, rfl⟩⟩ := access_cases hs
    · rw [hpoint] at hsystem
      rw [hpushes]
      exact hok.consumer.full_of_difference hok.queue hops capacity_le hpoint
        (difference_of_givesUp hsystem hidle)
    · rw [hbefore] at hafter
      cases hafter

/-- Two samples are pushed, and taken in one round. -/
theorem records_accounted_hotRun :
    ∃ s : HotKeyDetector (Fin 2),
      Steps HotKeyDetector.step (fun _ _ => True) (HotKeyDetector.new (Fin 2) 20) s ∧
      s.rounds.length = 1 ∧
      s.records = s.system.pushes.length + s.dropped + ∑ i, s.pending i := by
  have hexec : (exec HotKeyDetector.step (fun _ _ => True) (HotKeyDetector.new (Fin 2) 20)
      hotRun).map (fun s => decide (s.system.operations < 2 ^ 62 ∧ s.rounds.length = 1)) =
      some true := by
    decide +kernel
  obtain ⟨s, hrun, hops, hrounds⟩ := Steps.exists_of_exec hexec
  exact ⟨s, hrun, hrounds, (records_accounted hrun hops).1⟩

end Accounting

end HotKeyDetector

end HotCounter
