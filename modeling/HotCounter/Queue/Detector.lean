import HotCounter.Queue.Consumer
import HotCounter.Foundation.Assoc

/-!
# The hot-key detector

The data plane calls `record` for every request, which pushes a sample or counts it as dropped.
One worker thread empties the queue into a table of counts, raises an alert for every counter
whose count reaches a tenth of the threshold, forgets the table and sleeps for a tenth of a
second. The order in which the table is visited is that of a hash map, so any order. As in the
queue, accesses of several threads are taken to be sequentially consistent: the code counts drops
with relaxed additions and reads the stop flag with acquire.

Which samples a round of the worker has taken and which alerts it has raised is recorded
beside the detector, as is the number of calls of `record`.
-/

namespace HotCounter

open Foundation

/-- `Sample`. -/
structure Sample where
  counter : ℕ
  timestamp : ℕ
  deriving DecidableEq, Inhabited

/-- The capacity of `MpmcQueue<Sample, 65536>`. -/
def sampleCapacity : QueueCapacity := ⟨65536, rfl, by decide, by decide⟩

/-- Program points of `HotKeyDetector::run`; `absent` is a thread that is not joinable. -/
inductive DetectorPoint
  | absent
  | checking
  | draining
  | visiting
  | alerting (rest : List (ℕ × ℕ))
  | sleeping
  | finished
  deriving DecidableEq

/-- One turn of the worker's loop: the samples taken and the calls of `on_hot_`. -/
structure DetectorRound where
  samples : List Sample
  alerts : List (ℕ × ℕ)
  deriving DecidableEq

/-- The members of `HotKeyDetector` with its threads: the recorders `some i` and the worker
`none`. A recorder whose push has failed and that has not counted the sample yet is `dropping`;
the owner is `stopping` while it waits for the worker. -/
structure HotKeyDetector (ι : Type*) where
  threshold : ℕ
  system : QueueSystem sampleCapacity Sample (Option ι)
  stop : Bool
  stopping : Bool
  worker : DetectorPoint
  counts : List (ℕ × ℕ)
  dropping : ι → Bool
  dropped : ℕ
  records : ℕ
  round : DetectorRound
  rounds : List DetectorRound

/-- The owner starts or stops the detector, a recorder records, or the worker goes on. -/
inductive DetectorAction (ι : Type*)
  | start
  | stop
  | join
  | record (i : ι) (sample : Sample)
  | access (i : ι) (spurious : Bool)
  | drop (i : ι)
  | check
  | pop
  | popAccess (spurious : Bool)
  | visit (order : List (ℕ × ℕ))
  | alert
  | clear
  | wake

namespace HotKeyDetector

variable {ι : Type*}

/-- `HotKeyDetector::HotKeyDetector`. -/
def new (ι : Type*) (threshold : ℕ) : HotKeyDetector ι where
  threshold := threshold
  system := .new sampleCapacity Sample (Option ι)
  stop := false
  stopping := false
  worker := .absent
  counts := []
  dropping _ := false
  dropped := 0
  records := 0
  round := ⟨[], []⟩
  rounds := []

/-- `++counts[counter]`. -/
def increment (counts : List (ℕ × ℕ)) (counter : ℕ) : List (ℕ × ℕ) :=
  match Assoc.find counts counter with
  | some count => Assoc.assign counts counter ((count + 1) % 2 ^ 64)
  | none => Assoc.emplace counts counter 1

/-- `count >= threshold_tps_ / 10`. -/
def IsHot (threshold : ℕ) (entry : ℕ × ℕ) : Prop := threshold / 10 ≤ entry.2

instance (threshold : ℕ) : DecidablePred (IsHot threshold) := fun _ =>
  inferInstanceAs (Decidable (_ ≤ _))

/-- The arguments of `on_hot_(counter, count * 10)`. -/
def alertOf (entry : ℕ × ℕ) : ℕ × ℕ := (entry.1, entry.2 * 10 % 2 ^ 64)

/-- One turn of the loop over the table. -/
def visitEntry (threshold : ℕ) (alerts : List (ℕ × ℕ)) (entry : ℕ × ℕ) : List (ℕ × ℕ) :=
  if IsHot threshold entry then alerts ++ [alertOf entry] else alerts

/-- A sample has been popped into `sample`. -/
def take (s : HotKeyDetector ι) (sample : Sample) : HotKeyDetector ι :=
  { s with
    counts := increment s.counts sample.counter
    round := { s.round with samples := s.round.samples ++ [sample] } }

section Step

variable [DecidableEq ι]

/-- The next access of recorder `i`. The push that gives up leaves the sample to be counted. -/
def access (s : HotKeyDetector ι) (i : ι) (spurious : Bool) : Option (HotKeyDetector ι) :=
  match s.system.step (.access (some i) spurious) with
  | none => none
  | some system =>
    match s.system.threads (some i) with
    | .pushSequence _ _ =>
      if system.threads (some i) = .idle then
        some { s with system := system, dropping := Function.update s.dropping i true }
      else some { s with system := system }
    | _ => some { s with system := system }

/-- The next access of the worker. The pop that gives up ends the inner loop. -/
def popAccess (s : HotKeyDetector ι) (spurious : Bool) : Option (HotKeyDetector ι) :=
  match s.system.step (.access none spurious) with
  | none => none
  | some system =>
    match s.system.threads none with
    | .popRelease _ sample => some ({ s with system := system }.take sample)
    | .popSequence _ =>
      if system.threads none = .idle then
        some { s with system := system, worker := .visiting }
      else some { s with system := system }
    | _ => some { s with system := system }

/-- One step of the detector. -/
def step (s : HotKeyDetector ι) : DetectorAction ι → Option (HotKeyDetector ι)
  | .start =>
    if s.stopping then none
    -- a thread that is joinable is left alone, also one that has returned
    else if s.worker ≠ .absent then some s
    else some { s with stop := false, worker := .checking, counts := [] }
  | .stop =>
    if s.stopping then none
    else some { s with stop := true, stopping := s.worker ≠ .absent }
  | .join =>
    if s.stopping ∧ s.worker = .finished then
      some { s with stopping := false, worker := .absent }
    else none
  | .record i sample =>
    if s.dropping i then none
    else
      match s.system.step (.tryPush (some i) sample) with
      | none => none
      | some system => some { s with system := system, records := s.records + 1 }
  | .access i spurious => s.access i spurious
  | .drop i =>
    if s.dropping i then
      some { s with
        dropping := Function.update s.dropping i false
        dropped := (s.dropped + 1) % 2 ^ 64 }
    else none
  | .check =>
    if s.worker = .checking then
      some { s with worker := if s.stop then .finished else .draining }
    else none
  | .pop =>
    if s.worker = .draining then
      match s.system.step (.tryPop none) with
      | none => none
      | some system => some { s with system := system }
    else none
  | .popAccess spurious => if s.worker = .draining then s.popAccess spurious else none
  | .visit order =>
    if s.worker = .visiting ∧ order.Perm s.counts then
      some { s with worker := .alerting order }
    else none
  | .alert =>
    match s.worker with
    | .alerting (entry :: rest) =>
      some { s with
        worker := .alerting rest
        round := { s.round with alerts := visitEntry s.threshold s.round.alerts entry } }
    | _ => none
  | .clear =>
    if s.worker = .alerting [] then
      some { s with
        worker := .sleeping
        counts := []
        round := ⟨[], []⟩
        rounds := s.rounds ++ [s.round] }
    else none
  | .wake => if s.worker = .sleeping then some { s with worker := .checking } else none

end Step

end HotKeyDetector

end HotCounter
