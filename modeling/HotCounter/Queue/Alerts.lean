import HotCounter.Queue.Detector

/-!
# What the hot-key detector takes and reports

The samples the worker has taken are a prefix of the samples pushed, cut into rounds, and each
finished round has raised one alert for every counter that is frequent enough in it, with ten
times its count, and no other alert. A sample is dropped only while the queue is full, and a
round ends only while the next sample is not there yet.
-/

namespace HotCounter

open Foundation

/-- How often a counter occurs among samples. -/
def occurrences (samples : List Sample) (counter : ℕ) : ℕ :=
  samples.countP fun sample => sample.counter = counter

theorem occurrences_append (samples : List Sample) (sample : Sample) (counter : ℕ) :
    occurrences (samples ++ [sample]) counter =
      occurrences samples counter + if sample.counter = counter then 1 else 0 := by
  simp only [occurrences, List.countP_append, List.countP_singleton, decide_eq_true_eq]

theorem occurrences_le (samples : List Sample) (counter : ℕ) :
    occurrences samples counter ≤ samples.length :=
  List.countP_le_length

/-- The alerts are those that the samples of a round call for, each raised once. -/
def Explained (threshold : ℕ) (samples : List Sample) (alerts : List (ℕ × ℕ)) : Prop :=
  (alerts.map Prod.fst).Nodup ∧
    ∀ counter rate, (counter, rate) ∈ alerts ↔
      0 < occurrences samples counter ∧ threshold / 10 ≤ occurrences samples counter ∧
        rate = occurrences samples counter * 10 % 2 ^ 64

namespace HotKeyDetector

/-! ### The table of counts -/

/-- The table has one entry for every counter that occurs, with how often it occurs. -/
structure Tallies (counts : List (ℕ × ℕ)) (samples : List Sample) : Prop where
  keyed : Assoc.Keyed counts
  find_eq : ∀ counter, Assoc.find counts counter =
    if occurrences samples counter = 0 then none else some (occurrences samples counter)

variable {counts : List (ℕ × ℕ)} {samples : List Sample} {threshold : ℕ}

theorem Tallies.nil : Tallies [] [] := ⟨List.nodup_nil, fun _ => rfl⟩

/-- **Counting a sample keeps the table right.** -/
theorem Tallies.increment (h : Tallies counts samples) (sample : Sample)
    (hlength : samples.length < 2 ^ 63) :
    Tallies (increment counts sample.counter) (samples ++ [sample]) := by
  have hself := h.find_eq sample.counter
  have hle := occurrences_le samples sample.counter
  rw [HotKeyDetector.increment]
  by_cases hzero : occurrences samples sample.counter = 0
  · -- the first sample of its counter
    rw [if_pos hzero] at hself
    have hnew : Assoc.emplace counts sample.counter 1 = counts ++ [(sample.counter, 1)] := by
      rw [Assoc.emplace, hself]
    rw [hself]
    dsimp only
    rw [hnew]
    refine ⟨h.keyed.append_new hself, fun counter => ?_⟩
    rw [Assoc.find_append_new hself, occurrences_append]
    by_cases hcounter : counter = sample.counter
    · rw [if_pos hcounter, if_pos hcounter.symm, hcounter, hzero]
      rfl
    · rw [if_neg hcounter, if_neg (Ne.symm hcounter)]
      exact h.find_eq counter
  · rw [if_neg hzero] at hself
    rw [hself]
    dsimp only
    rw [Nat.mod_eq_of_lt (by omega)]
    refine ⟨h.keyed.assign, fun counter => ?_⟩
    rw [occurrences_append]
    by_cases hcounter : counter = sample.counter
    · rw [hcounter, Assoc.find_assign_self hself, if_pos rfl, if_neg (by omega)]
    · rw [Assoc.find_assign_ne hcounter, if_neg (Ne.symm hcounter)]
      exact h.find_eq counter

theorem Tallies.mem_iff (h : Tallies counts samples) {counter count : ℕ} :
    (counter, count) ∈ counts ↔
      0 < occurrences samples counter ∧ count = occurrences samples counter := by
  have hfind := h.find_eq counter
  constructor
  · intro hmem
    rw [h.keyed.find_of_mem hmem] at hfind
    split at hfind
    · cases hfind
    · rename_i hne
      exact ⟨Nat.pos_of_ne_zero hne, Option.some.inj hfind⟩
  · rintro ⟨hpos, rfl⟩
    rw [if_neg hpos.ne'] at hfind
    exact Assoc.mem_of_find hfind

/-- The alerts for the entries visited so far. -/
def alertsOf (threshold : ℕ) (visited : List (ℕ × ℕ)) : List (ℕ × ℕ) :=
  (visited.filter fun entry => IsHot threshold entry).map alertOf

theorem visitEntry_alertsOf (visited : List (ℕ × ℕ)) (entry : ℕ × ℕ) :
    visitEntry threshold (alertsOf threshold visited) entry =
      alertsOf threshold (visited ++ [entry]) := by
  rw [visitEntry, alertsOf, alertsOf, List.filter_append, List.map_append]
  by_cases hhot : IsHot threshold entry
  · simp [hhot]
  · simp [hhot]

/-- **A visit of the whole table, in any order, raises the alerts that the samples call for.** -/
theorem Tallies.explained (h : Tallies counts samples) {visited : List (ℕ × ℕ)}
    (hperm : visited.Perm counts) : Explained threshold samples (alertsOf threshold visited) := by
  constructor
  · have hkeys : (alertsOf threshold visited).map Prod.fst =
        (visited.filter fun entry => IsHot threshold entry).map Prod.fst := by
      rw [alertsOf, List.map_map]
      rfl
    rw [hkeys]
    exact (h.keyed.perm hperm).sublist List.filter_sublist
  · intro counter rate
    simp only [alertsOf, List.mem_map, List.mem_filter, decide_eq_true_eq]
    constructor
    · rintro ⟨⟨key, count⟩, ⟨hmem, hhot⟩, heq⟩
      obtain ⟨rfl, rfl⟩ := Prod.mk.inj heq
      obtain ⟨hpos, rfl⟩ := h.mem_iff.mp (hperm.mem_iff.mp hmem)
      exact ⟨hpos, hhot, rfl⟩
    · rintro ⟨hpos, hhot, rfl⟩
      exact ⟨(counter, occurrences samples counter),
        ⟨hperm.mem_iff.mpr (h.mem_iff.mpr ⟨hpos, rfl⟩), hhot⟩, rfl⟩

/-! ### The invariant -/

/-- What the worker's point says of the present round. -/
def Current (threshold : ℕ) (counts : List (ℕ × ℕ)) (round : DetectorRound) : DetectorPoint → Prop
  | .draining | .visiting => round.alerts = []
  | .alerting rest => ∃ visited, (visited ++ rest).Perm counts ∧
      round.alerts = alertsOf threshold visited
  | _ => round = ⟨[], []⟩

variable {ι : Type*}

/-- **What holds while the detector runs.** -/
structure Ok (s : HotKeyDetector ι) (threshold : ℕ) : Prop where
  threshold_eq : s.threshold = threshold
  queue : s.system.Inv
  consumer : s.system.SoleConsumer none
  taken : s.rounds.flatMap DetectorRound.samples ++ s.round.samples =
    s.system.returned.map ReturnedPop.value
  tallies : Tallies s.counts s.round.samples
  current : Current threshold s.counts s.round s.worker
  explained : ∀ round ∈ s.rounds, Explained threshold round.samples round.alerts

theorem Ok.new : (new ι threshold).Ok threshold where
  threshold_eq := rfl
  queue := .new
  consumer := .new
  taken := rfl
  tallies := .nil
  current := rfl
  explained _ hround := absurd hround List.not_mem_nil

variable {s s' : HotKeyDetector ι}

/-- A step that takes nothing and visits nothing. -/
theorem Ok.keep (h : s.Ok threshold) (hthreshold : s'.threshold = s.threshold)
    (hqueue : s'.system.Inv) (hconsumer : s'.system.SoleConsumer none)
    (hreturned : s'.system.returned.map ReturnedPop.value =
      s.system.returned.map ReturnedPop.value)
    (hcounts : s'.counts = s.counts) (hround : s'.round = s.round) (hrounds : s'.rounds = s.rounds)
    (hcurrent : Current threshold s.counts s.round s'.worker) : s'.Ok threshold where
  threshold_eq := hthreshold.trans h.threshold_eq
  queue := hqueue
  consumer := hconsumer
  taken := by
    rw [hrounds, hround, hreturned]
    exact h.taken
  tallies := by
    rw [hcounts, hround]
    exact h.tallies
  current := by
    rw [hcounts, hround]
    exact hcurrent
  explained := by
    rw [hrounds]
    exact h.explained

/-- The samples taken are no more than the calls of the queue. -/
theorem Ok.length_le (h : s.Ok threshold) : s.round.samples.length ≤ s.system.operations := by
  have hlength := congrArg List.length h.taken
  rw [List.length_append, List.length_map] at hlength
  have hdequeue := h.consumer.dequeue_eq
  have hle := h.queue.le
  have henq := h.queue.enqueue_le
  omega

/-- A sample is popped. -/
theorem Ok.take (h : s.Ok threshold) (hworker : s.worker = .draining) {sample : Sample}
    (hops : s.system.operations < 2 ^ 62) (hthreshold : s'.threshold = s.threshold)
    (hqueue : s'.system.Inv) (hconsumer : s'.system.SoleConsumer none)
    (hreturned : s'.system.returned.map ReturnedPop.value =
      s.system.returned.map ReturnedPop.value ++ [sample])
    (hcounts : s'.counts = HotKeyDetector.increment s.counts sample.counter)
    (hround : s'.round = { s.round with samples := s.round.samples ++ [sample] })
    (hrounds : s'.rounds = s.rounds) (hworker' : s'.worker = .draining) : s'.Ok threshold where
  threshold_eq := hthreshold.trans h.threshold_eq
  queue := hqueue
  consumer := hconsumer
  taken := by
    rw [hrounds, hround, hreturned, ← h.taken, List.append_assoc]
  tallies := by
    have hlength := h.length_le
    rw [hcounts, hround]
    exact h.tallies.increment sample (by omega)
  current := by
    have hcurrent := h.current
    rw [hworker] at hcurrent
    rw [hworker', hround]
    exact hcurrent
  explained := by
    rw [hrounds]
    exact h.explained

/-! ### What a step does -/

section Step

variable [DecidableEq ι] {i : ι} {spurious : Bool}

open QueueSystem

/-- What an access of a recorder does. -/
theorem access_cases (hs : s.access i spurious = some s') :
    ∃ system, s.system.access (some i) spurious (s.system.threads (some i)) = some system ∧
      ((GivesUp (s.system.threads (some i)) (system.threads (some i)) ∧
          s' = { s with system := system, dropping := Function.update s.dropping i true }) ∨
        (¬ GivesUp (s.system.threads (some i)) (system.threads (some i)) ∧
          s' = { s with system := system })) := by
  simp only [HotKeyDetector.access, QueueSystem.step] at hs
  split at hs
  · cases hs
  rename_i system hsystem
  refine ⟨system, hsystem, ?_⟩
  split at hs
  · rename_i value pos hpoint
    split at hs
    · rename_i hidle
      exact .inl ⟨⟨⟨value, pos, hpoint⟩, hidle⟩, (Option.some.inj hs).symm⟩
    · rename_i hidle
      exact .inr ⟨fun hup => hidle hup.2, (Option.some.inj hs).symm⟩
  · rename_i hpoint
    refine .inr ⟨?_, (Option.some.inj hs).symm⟩
    rintro ⟨⟨value, pos, hpush⟩, -⟩
    exact hpoint value pos hpush

/-- What an access of the worker does. -/
theorem popAccess_cases (hs : s.popAccess spurious = some s') :
    ∃ system, s.system.access none spurious (s.system.threads none) = some system ∧
      ((∃ pos sample, s.system.threads none = .popRelease pos sample ∧
          s' = ({ s with system := system } : HotKeyDetector ι).take sample) ∨
        (∃ pos, s.system.threads none = .popSequence pos ∧ system.threads none = .idle ∧
          s' = { s with system := system, worker := .visiting }) ∨
        (returning (s.system.threads none) = [] ∧ s' = { s with system := system })) := by
  simp only [HotKeyDetector.popAccess, QueueSystem.step] at hs
  split at hs
  · cases hs
  rename_i system hsystem
  refine ⟨system, hsystem, ?_⟩
  split at hs
  · rename_i pos sample hpoint
    exact .inl ⟨pos, sample, hpoint, (Option.some.inj hs).symm⟩
  · rename_i pos hpoint
    split at hs
    · rename_i hidle
      exact .inr (.inl ⟨pos, hpoint, hidle, (Option.some.inj hs).symm⟩)
    · exact .inr (.inr ⟨by rw [hpoint]; rfl, (Option.some.inj hs).symm⟩)
  · rename_i hrelease _
    refine .inr (.inr ⟨?_, (Option.some.inj hs).symm⟩)
    generalize s.system.threads none = point at hrelease
    cases point with
    | popRelease pos sample => exact absurd rfl (hrelease pos sample)
    | _ => rfl

/-- A step takes at most one step of the queue. -/
theorem step_system {action : DetectorAction ι} (hs : s.step action = some s') :
    s'.system = s.system ∨ ∃ a, s.system.step a = some s'.system := by
  cases action with
  | start | stop | join | drop | check | visit | alert | clear | wake =>
    simp only [HotKeyDetector.step] at hs
    (repeat' split at hs) <;>
      first
      | (obtain rfl := Option.some.inj hs; exact .inl rfl)
      | cases hs
  | record i sample =>
    simp only [HotKeyDetector.step] at hs
    split at hs
    · cases hs
    · split at hs
      · cases hs
      · rename_i system hsystem
        obtain rfl := Option.some.inj hs
        exact .inr ⟨_, hsystem⟩
  | access i spurious =>
    obtain ⟨system, hsystem, ⟨-, rfl⟩ | ⟨-, rfl⟩⟩ := access_cases hs
    · exact .inr ⟨.access (some i) spurious, hsystem⟩
    · exact .inr ⟨.access (some i) spurious, hsystem⟩
  | pop =>
    simp only [HotKeyDetector.step] at hs
    split at hs
    · split at hs
      · cases hs
      · rename_i system hsystem
        obtain rfl := Option.some.inj hs
        exact .inr ⟨_, hsystem⟩
    · cases hs
  | popAccess spurious =>
    simp only [HotKeyDetector.step] at hs
    split at hs
    · obtain ⟨system, hsystem, ⟨_, _, -, rfl⟩ | ⟨_, -, -, rfl⟩ | ⟨-, rfl⟩⟩ := popAccess_cases hs
      · exact .inr ⟨.access none spurious, hsystem⟩
      · exact .inr ⟨.access none spurious, hsystem⟩
      · exact .inr ⟨.access none spurious, hsystem⟩
    · cases hs

theorem step_operations_le {action : DetectorAction ι} (hs : s.step action = some s') :
    s.system.operations ≤ s'.system.operations := by
  rcases step_system hs with heq | ⟨a, hsystem⟩
  · rw [heq]
  · exact step_operations hsystem

omit [DecidableEq ι] in
/-- A step of a recorder returns nothing. -/
theorem Ok.returning_eq_nil (h : s.Ok threshold) (i : ι) :
    returning (s.system.threads (some i)) = [] := by
  have hroles := h.consumer.roles (some i)
  generalize s.system.threads (some i) = point at hroles
  cases point with
  | popRelease pos sample => exact absurd hroles.1 (Option.some_ne_none i)
  | _ => rfl

theorem capacity_le : sampleCapacity.value ≤ 2 ^ 62 := by
  rw [sampleCapacity]
  decide

/-- A step of the queue keeps its invariant while few calls are recorded. -/
theorem Ok.queue_step (h : s.Ok threshold) {a : QueueAction Sample (Option ι)}
    {system : QueueSystem sampleCapacity Sample (Option ι)}
    (hs : s.system.step a = some system) (hops : system.operations < 2 ^ 62) : system.Inv :=
  QueueSystem.Inv.step (fun _ => h.queue) hs (by omega)

/-! #### The steps of the calls `start` and `stop` -/

theorem Ok.start (h : s.Ok threshold) (hs : s.step .start = some s') : s'.Ok threshold := by
  have hcurrent := h.current
  simp only [HotKeyDetector.step] at hs
  split at hs
  · cases hs
  · split at hs
    · obtain rfl := Option.some.inj hs
      exact h
    · -- a new worker starts with a round that has taken nothing
      rename_i habsent
      obtain rfl := Option.some.inj hs
      rw [not_not.mp habsent] at hcurrent
      have hround : s.round = ⟨[], []⟩ := hcurrent
      exact ⟨h.threshold_eq, h.queue, h.consumer, h.taken, by rw [hround]; exact .nil, hround,
        h.explained⟩

theorem Ok.stop (h : s.Ok threshold) (hs : s.step .stop = some s') : s'.Ok threshold := by
  simp only [HotKeyDetector.step] at hs
  split at hs
  · cases hs
  · obtain rfl := Option.some.inj hs
    exact h.keep rfl h.queue h.consumer rfl rfl rfl rfl h.current

theorem Ok.join (h : s.Ok threshold) (hs : s.step .join = some s') : s'.Ok threshold := by
  have hcurrent := h.current
  simp only [HotKeyDetector.step] at hs
  split at hs
  · rename_i hfinished
    obtain rfl := Option.some.inj hs
    rw [hfinished.2] at hcurrent
    exact h.keep rfl h.queue h.consumer rfl rfl rfl rfl hcurrent
  · cases hs

/-! #### The steps of the recorders -/

theorem Ok.record {sample : Sample} (h : s.Ok threshold) (hops' : s'.system.operations < 2 ^ 62)
    (hs : s.step (.record i sample) = some s') : s'.Ok threshold := by
  simp only [HotKeyDetector.step] at hs
  split at hs
  · cases hs
  · split at hs
    · cases hs
    · rename_i system hsystem
      obtain rfl := Option.some.inj hs
      refine h.keep rfl (h.queue_step hsystem hops')
        (h.consumer.tryPush (Option.some_ne_none i) hsystem) ?_ rfl rfl rfl h.current
      simp only [QueueSystem.step] at hsystem
      split at hsystem
      · obtain rfl := Option.some.inj hsystem
        rfl
      · cases hsystem

theorem Ok.access (h : s.Ok threshold) (hops : s.system.operations < 2 ^ 62)
    (hops' : s'.system.operations < 2 ^ 62) (hs : s.access i spurious = some s') :
    s'.Ok threshold := by
  obtain ⟨system, hsystem, ⟨-, rfl⟩ | ⟨-, rfl⟩⟩ := access_cases hs <;>
    refine h.keep rfl (h.queue_step (a := .access (some i) spurious) hsystem hops')
      (h.consumer.access h.queue hops capacity_le hsystem) ?_ rfl rfl rfl h.current <;>
    rw [access_returned hsystem, h.returning_eq_nil, List.append_nil]

theorem Ok.drop (h : s.Ok threshold) (hs : s.step (.drop i) = some s') : s'.Ok threshold := by
  simp only [HotKeyDetector.step] at hs
  split at hs
  · obtain rfl := Option.some.inj hs
    exact h.keep rfl h.queue h.consumer rfl rfl rfl rfl h.current
  · cases hs

/-! #### The steps of the worker -/

theorem Ok.check (h : s.Ok threshold) (hs : s.step .check = some s') : s'.Ok threshold := by
  have hcurrent := h.current
  simp only [HotKeyDetector.step] at hs
  split at hs
  · rename_i hchecking
    obtain rfl := Option.some.inj hs
    rw [hchecking] at hcurrent
    have hround : s.round = ⟨[], []⟩ := hcurrent
    refine h.keep rfl h.queue h.consumer rfl rfl rfl rfl ?_
    dsimp only
    split
    · exact hround
    · exact congrArg DetectorRound.alerts hround
  · cases hs

theorem Ok.pop (h : s.Ok threshold) (hops' : s'.system.operations < 2 ^ 62)
    (hs : s.step .pop = some s') : s'.Ok threshold := by
  simp only [HotKeyDetector.step] at hs
  split at hs
  · split at hs
    · cases hs
    · rename_i system hsystem
      obtain rfl := Option.some.inj hs
      refine h.keep rfl (h.queue_step hsystem hops') (h.consumer.tryPop hsystem) ?_ rfl rfl rfl
        h.current
      simp only [QueueSystem.step] at hsystem
      split at hsystem
      · obtain rfl := Option.some.inj hsystem
        rfl
      · cases hsystem
  · cases hs

/-- An access of the worker takes the sample popped, or ends the round at an empty cell, or
returns nothing yet. -/
theorem Ok.popAccess (h : s.Ok threshold) (hops : s.system.operations < 2 ^ 62)
    (hops' : s'.system.operations < 2 ^ 62) (hs : s.step (.popAccess spurious) = some s') :
    s'.Ok threshold := by
  have hcurrent := h.current
  simp only [HotKeyDetector.step] at hs
  split at hs
  · rename_i hdraining
    obtain ⟨system, hsystem, hcases⟩ := popAccess_cases hs
    have hreturned := access_returned hsystem
    have hconsumer := h.consumer.access h.queue hops capacity_le hsystem
    have hqueue : system.operations < 2 ^ 62 → system.Inv :=
      h.queue_step (a := .access none spurious) hsystem
    rcases hcases with ⟨pos, sample, hpoint, rfl⟩ | ⟨pos, hpoint, -, rfl⟩ | ⟨hnothing, rfl⟩
    · rw [hpoint] at hreturned
      exact h.take hdraining hops rfl (hqueue hops') hconsumer hreturned rfl rfl rfl hdraining
    · have hnothing : returning (.popSequence pos : QueuePoint Sample) = [] := rfl
      rw [hpoint, hnothing, List.append_nil] at hreturned
      rw [hdraining] at hcurrent
      exact h.keep rfl (hqueue hops') hconsumer hreturned rfl rfl rfl hcurrent
    · rw [hnothing, List.append_nil] at hreturned
      exact h.keep rfl (hqueue hops') hconsumer hreturned rfl rfl rfl hcurrent
  · cases hs

theorem Ok.visit {order : List (ℕ × ℕ)} (h : s.Ok threshold)
    (hs : s.step (.visit order) = some s') : s'.Ok threshold := by
  have hcurrent := h.current
  simp only [HotKeyDetector.step] at hs
  split at hs
  · rename_i hvisit
    obtain rfl := Option.some.inj hs
    rw [hvisit.1] at hcurrent
    exact h.keep rfl h.queue h.consumer rfl rfl rfl rfl ⟨[], hvisit.2, hcurrent⟩
  · cases hs

/-- An entry moves from those to visit to those visited. -/
theorem Ok.alert (h : s.Ok threshold) (hs : s.step .alert = some s') : s'.Ok threshold := by
  have hcurrent := h.current
  simp only [HotKeyDetector.step] at hs
  split at hs
  · rename_i entry rest halerting
    obtain rfl := Option.some.inj hs
    rw [halerting] at hcurrent
    obtain ⟨visited, hperm, halerts⟩ := hcurrent
    refine ⟨h.threshold_eq, h.queue, h.consumer, h.taken, h.tallies, ⟨visited ++ [entry], ?_, ?_⟩,
      h.explained⟩
    · rwa [List.append_assoc]
    · dsimp only
      rw [h.threshold_eq, halerts, visitEntry_alertsOf]
  · cases hs

/-- The round that ends here joins the finished ones; the whole table was visited. -/
theorem Ok.clear (h : s.Ok threshold) (hs : s.step .clear = some s') : s'.Ok threshold := by
  have hcurrent := h.current
  simp only [HotKeyDetector.step] at hs
  split at hs
  · rename_i hdone
    obtain rfl := Option.some.inj hs
    rw [hdone] at hcurrent
    obtain ⟨visited, hperm, halerts⟩ := hcurrent
    rw [List.append_nil] at hperm
    refine ⟨h.threshold_eq, h.queue, h.consumer, ?_, .nil, rfl, fun round hround => ?_⟩
    · dsimp only
      rw [List.flatMap_append, List.append_nil, ← h.taken]
      simp
    · rcases List.mem_append.mp hround with hround | hround
      · exact h.explained round hround
      · rw [List.mem_singleton.mp hround, halerts]
        exact h.tallies.explained hperm
  · cases hs

theorem Ok.wake (h : s.Ok threshold) (hs : s.step .wake = some s') : s'.Ok threshold := by
  have hcurrent := h.current
  simp only [HotKeyDetector.step] at hs
  split at hs
  · rename_i hsleeping
    obtain rfl := Option.some.inj hs
    rw [hsleeping] at hcurrent
    exact h.keep rfl h.queue h.consumer rfl rfl rfl rfl hcurrent
  · cases hs

/-- **One step keeps what holds while the detector runs.** -/
theorem Ok.step {action : DetectorAction ι} (h : s.Ok threshold)
    (hops : s.system.operations < 2 ^ 62) (hops' : s'.system.operations < 2 ^ 62)
    (hs : s.step action = some s') : s'.Ok threshold := by
  cases action with
  | start => exact h.start hs
  | stop => exact h.stop hs
  | join => exact h.join hs
  | record i sample => exact h.record hops' hs
  | access i spurious => exact h.access hops hops' hs
  | drop i => exact h.drop hs
  | check => exact h.check hs
  | pop => exact h.pop hops' hs
  | popAccess spurious => exact h.popAccess hops hops' hs
  | visit order => exact h.visit hs
  | alert => exact h.alert hs
  | clear => exact h.clear hs
  | wake => exact h.wake hs

/-- What holds while the detector runs holds in every run of fewer than `2 ^ 62` calls. -/
theorem Ok.steps
    (h : Steps HotKeyDetector.step (fun _ _ => True) (HotKeyDetector.new ι threshold) s)
    (hops : s.system.operations < 2 ^ 62) : s.Ok threshold :=
  h.invariant (P := fun s => s.system.operations < 2 ^ 62 → s.Ok threshold) (fun _ => .new)
    (fun _ _ _ hok _ hs hlt =>
      (hok ((step_operations_le hs).trans_lt hlt)).step
        ((step_operations_le hs).trans_lt hlt) hlt hs)
    hops

/-- **The alerts are those that the samples call for.** In every run of fewer than `2 ^ 62` calls
of the queue, with any number of recorders and any number of restarts: the samples taken in all
rounds up to now, in order, are the first samples pushed; in every finished round the alerts name
each counter at most once, and name exactly the counters whose samples in that round are at least
a tenth of the threshold, with ten times their number; and the round that is not finished has
raised no other alert so far. -/
theorem alerts_exact (h : Steps HotKeyDetector.step (fun _ _ => True) (new ι threshold) s)
    (hops : s.system.operations < 2 ^ 62) :
    s.rounds.flatMap DetectorRound.samples ++ s.round.samples =
        (s.system.pushes.map WonPush.value).take s.system.returned.length ∧
      (∀ round ∈ s.rounds, Explained threshold round.samples round.alerts) ∧
      ∀ counter rate, (counter, rate) ∈ s.round.alerts →
        0 < occurrences s.round.samples counter ∧
          threshold / 10 ≤ occurrences s.round.samples counter ∧
          rate = occurrences s.round.samples counter * 10 % 2 ^ 64 := by
  have hok := Ok.steps h hops
  refine ⟨hok.taken.trans (hok.consumer.popped_eq_take hok.queue), hok.explained, ?_⟩
  intro counter rate hmem
  have hcurrent := hok.current
  generalize s.worker = worker at hcurrent
  cases worker with
  | alerting rest =>
    obtain ⟨visited, hperm, halerts⟩ := hcurrent
    -- the alerts so far are among those of the whole table
    have hwhole : Explained threshold s.round.samples (alertsOf threshold (visited ++ rest)) :=
      hok.tallies.explained hperm
    refine (hwhole.2 counter rate).mp ?_
    rw [halerts] at hmem
    rw [alertsOf, List.filter_append, List.map_append]
    exact List.mem_append_left _ hmem
  | draining | visiting =>
    rw [show s.round.alerts = [] from hcurrent] at hmem
    cases hmem
  | absent | checking | sleeping | finished =>
    rw [show s.round = ⟨[], []⟩ from hcurrent] at hmem
    cases hmem

/-- The first recorder of two. -/
def first : Fin 2 := ⟨0, Nat.two_pos⟩

/-- The second recorder of two. -/
def second : Fin 2 := ⟨1, Nat.one_lt_two⟩

/-- A run of two recorders: both record counter `7`, and the worker takes both samples. -/
def drainRun : List (DetectorAction (Fin 2)) :=
  List.flatten
    [[.record first ⟨7, 0⟩, .record second ⟨7, 1⟩, .access first false],
      List.replicate 5 (.access second false), List.replicate 6 (.access first false),
      [.start, .check, .pop], List.replicate 5 (.popAccess false), [.pop],
      List.replicate 5 (.popAccess false), [.pop, .popAccess false]]

/-- The run goes on: the round ends and reports the counter. -/
def hotRun : List (DetectorAction (Fin 2)) :=
  drainRun ++ [.popAccess false, .visit [(7, 2)], .alert, .clear]

/-- Two samples of a counter are a tenth of a threshold of twenty a second. -/
theorem alerts_exact_hotRun :
    ∃ s : HotKeyDetector (Fin 2),
      Steps HotKeyDetector.step (fun _ _ => True) (HotKeyDetector.new (Fin 2) 20) s ∧
      s.rounds = [⟨[⟨7, 1⟩, ⟨7, 0⟩], [(7, 20)]⟩] ∧
      ∀ round ∈ s.rounds, Explained 20 round.samples round.alerts := by
  have hexec : (exec HotKeyDetector.step (fun _ _ => True) (HotKeyDetector.new (Fin 2) 20)
      hotRun).map (fun s => decide (s.system.operations < 2 ^ 62 ∧
        s.rounds = [⟨[⟨7, 1⟩, ⟨7, 0⟩], [(7, 20)]⟩])) = some true := by
    decide +kernel
  obtain ⟨s, hrun, hops, hrounds⟩ := Steps.exists_of_exec hexec
  exact ⟨s, hrun, hrounds, (alerts_exact hrun hops).2.1⟩

/-- The inner loop ends with a pop that gives up. -/
theorem popIdle_of_leaves {action : DetectorAction ι} (hs : s.step action = some s')
    (hbefore : s.worker = .draining) (hafter : s'.worker ≠ .draining) :
    ∃ pos spurious system, s.system.threads none = .popSequence pos ∧
      s.system.access none spurious (.popSequence pos) = some system ∧
      system.threads none = .idle := by
  cases action with
  | popAccess spurious =>
    simp only [HotKeyDetector.step, hbefore, if_pos] at hs
    obtain ⟨system, hsystem, ⟨_, _, -, rfl⟩ | ⟨pos, hpoint, hidle, -⟩ | ⟨-, rfl⟩⟩ :=
      popAccess_cases hs
    · exact absurd hbefore hafter
    · rw [hpoint] at hsystem
      exact ⟨pos, spurious, system, hpoint, hsystem, hidle⟩
    · exact absurd hbefore hafter
  | access i spurious =>
    obtain ⟨system, -, ⟨-, rfl⟩ | ⟨-, rfl⟩⟩ := access_cases hs
    · exact absurd hbefore hafter
    · exact absurd hbefore hafter
  | start | stop | join | record | drop | check | pop | visit | alert | clear | wake =>
    -- every other step keeps the worker where it is, or needs it elsewhere
    simp only [HotKeyDetector.step] at hs
    (repeat' split at hs) <;>
      first
      | (obtain rfl := Option.some.inj hs; exact absurd hbefore hafter)
      | simp_all

/-- **A round takes all there is.** In such a run, when the inner loop of a round ends, the sample
with the next ticket has not been stored in its cell yet; where no recorder is storing one, the
rounds have taken every sample pushed. -/
theorem drain_complete {action : DetectorAction ι}
    (h : Steps HotKeyDetector.step (fun _ _ => True) (new ι threshold) s)
    (hops : s.system.operations < 2 ^ 62) (hs : s.step action = some s')
    (hbefore : s.worker = .draining) (hafter : s'.worker ≠ .draining) :
    s.system.returned.length ∉ s.system.released ∧
      ((∀ i, (s.system.threads (some i)).pushing = none) →
        s.rounds.flatMap DetectorRound.samples ++ s.round.samples =
          s.system.pushes.map WonPush.value) := by
  have hok := Ok.steps h hops
  obtain ⟨pos, spurious, system, hpoint, hsystem, hidle⟩ := popIdle_of_leaves hs hbefore hafter
  have hnext := hok.consumer.next_not_released hok.queue hops capacity_le hpoint
    (difference_of_popIdle hsystem hidle)
  refine ⟨hnext, fun hquiet => ?_⟩
  have hnone : ∀ i, (s.system.threads i).pushing = none := by
    intro i
    cases i with
    | none =>
      rw [hpoint]
      rfl
    | some i => exact hquiet i
  have hpushes : s.system.pushes.length = s.system.queue.enqueue := by
    simpa using congrArg List.length hok.queue.pushTickets
  have hall := hok.consumer.drained hok.queue hnone hnext
  rw [hok.taken, hok.consumer.popped_eq_take hok.queue, hall, ← hpushes, List.take_of_length_le]
  rw [List.length_map]

/-- The pop that ends the round finds both samples taken. -/
theorem drain_complete_drainRun :
    ∃ s : HotKeyDetector (Fin 2),
      Steps HotKeyDetector.step (fun _ _ => True) (HotKeyDetector.new (Fin 2) 20) s ∧
      s.round.samples.length = 2 ∧ s.system.returned.length ∉ s.system.released := by
  have hexec : (exec HotKeyDetector.step (fun _ _ => True) (HotKeyDetector.new (Fin 2) 20)
      drainRun).map (fun s => decide (s.system.operations < 2 ^ 62 ∧
        s.round.samples.length = 2 ∧ s.worker = .draining ∧
        (s.step (.popAccess false)).map HotKeyDetector.worker = some .visiting)) = some true := by
    decide +kernel
  obtain ⟨s, hrun, hops, hlength, hbefore, hstep⟩ := Steps.exists_of_exec hexec
  obtain ⟨s', hs, hafter⟩ := Option.map_eq_some_iff.mp hstep
  have hleft : s'.worker ≠ .draining := by
    rw [hafter]
    decide
  exact ⟨s, hrun, hlength, (drain_complete hrun hops hs hbefore hleft).1⟩

end Step

end HotKeyDetector

end HotCounter
