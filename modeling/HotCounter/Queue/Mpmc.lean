import HotCounter.Foundation.Transition

/-!
# The bounded queue, one access at a time

`MpmcQueue` is the bounded queue behind the hot-key sampler and the replicator. A thread runs
`try_push` or `try_pop`; a program point stands just before one access to shared memory (a load
or compare-exchange of `enqueue_` or `dequeue_`, a load or store of a cell's sequence, a write
or read of a cell's value) and a step performs it together with the local work up to the next
one. The accesses are taken to be sequentially consistent, where the code asks for relaxed ones of
the counters and for acquire and release of a sequence. A weak compare-exchange may fail
spuriously. Words of the code's `std::size_t` are natural numbers, with a `% 2 ^ 64` wherever the
code adds.

A position that a compare-exchange moved a counter away from is a *ticket*. Which call won
which ticket, which pushes have released their cell and which pops have returned is recorded
beside the queue.
-/

namespace HotCounter

open Foundation

/-- A template parameter `Capacity` that passes the static assertion, from two cells on. -/
structure QueueCapacity where
  value : ℕ
  powerOfTwo : value &&& (value - 1) = 0
  two_le : 2 ≤ value
  fits : value < 2 ^ 64

namespace QueueCapacity

variable (C : QueueCapacity)

/-- `pos & (Capacity - 1)` is the remainder. -/
theorem and_eq_mod (pos : ℕ) : pos &&& (C.value - 1) = pos % C.value := by
  have hne : C.value ≠ 0 := by have := C.two_le; omega
  obtain ⟨k, hk⟩ := (Nat.and_sub_one_eq_zero_iff_isPowerOfTwo hne).mp C.powerOfTwo
  rw [hk]
  exact Nat.and_two_pow_sub_one_eq_mod pos k

theorem and_lt (pos : ℕ) : pos &&& (C.value - 1) < C.value := by
  rw [C.and_eq_mod]
  exact Nat.mod_lt _ (by have := C.two_le; omega)

/-- A power of two that is a word is at most half of the word range. -/
theorem value_le : C.value ≤ 2 ^ 63 := by
  have hne : C.value ≠ 0 := by have := C.two_le; omega
  obtain ⟨k, hk⟩ := (Nat.and_sub_one_eq_zero_iff_isPowerOfTwo hne).mp C.powerOfTwo
  have hfits := C.fits
  rw [hk] at hfits ⊢
  have hlt : k < 64 := (Nat.pow_lt_pow_iff_right (by decide)).mp hfits
  exact Nat.pow_le_pow_right (by decide) (by omega)

theorem two_lt : 2 < 2 ^ 64 := by decide

end QueueCapacity

/-- `MpmcQueue::Cell`. -/
structure QueueCell (T : Type*) where
  sequence : ℕ
  value : T

/-- The members of `MpmcQueue`. -/
structure MpmcQueue (C : QueueCapacity) (T : Type*) where
  cells : Fin C.value → QueueCell T
  enqueue : ℕ
  dequeue : ℕ

/-- Program points of `try_push` and `try_pop`. -/
inductive QueuePoint (T : Type*)
  | idle
  | pushLoad (value : T)
  | pushSequence (value : T) (pos : ℕ)
  | pushSwap (value : T) (pos : ℕ)
  | pushWrite (value : T) (pos : ℕ)
  | pushRelease (value : T) (pos : ℕ)
  | popLoad
  | popSequence (pos : ℕ)
  | popSwap (pos : ℕ)
  | popRead (pos : ℕ)
  | popRelease (pos : ℕ) (value : T)
  deriving DecidableEq

/-- A push that won a ticket. -/
structure WonPush (T : Type*) where
  operation : ℕ
  ticket : ℕ
  value : T
  deriving DecidableEq

/-- A pop that won a ticket. -/
structure WonPop where
  operation : ℕ
  ticket : ℕ
  deriving DecidableEq

/-- A pop that returned a value. -/
structure ReturnedPop (T : Type*) where
  operation : ℕ
  ticket : ℕ
  value : T
  deriving DecidableEq

/-- A queue with its threads. Calls are numbered in the order in which they start;
`operation` is the number of the call a thread is in, or was last in. -/
structure QueueSystem (C : QueueCapacity) (T ι : Type*) where
  queue : MpmcQueue C T
  threads : ι → QueuePoint T
  operation : ι → ℕ
  operations : ℕ
  pushes : List (WonPush T)
  released : List ℕ
  pops : List WonPop
  returned : List (ReturnedPop T)

/-- A thread starts a call, or performs its next access. -/
inductive QueueAction (T ι : Type*)
  | tryPush (i : ι) (value : T)
  | tryPop (i : ι)
  | access (i : ι) (spurious : Bool)

namespace MpmcQueue

variable {C : QueueCapacity} {T : Type*}

/-- `MpmcQueue::MpmcQueue`. -/
def new (C : QueueCapacity) (T : Type*) [Inhabited T] : MpmcQueue C T where
  cells i := ⟨i, default⟩
  enqueue := 0
  dequeue := 0

/-- `pos & (Capacity - 1)`. -/
def slot (C : QueueCapacity) (pos : ℕ) : Fin C.value :=
  ⟨pos &&& (C.value - 1), C.and_lt pos⟩

/-- `static_cast<std::intptr_t>(a) - static_cast<std::intptr_t>(b)` in two's complement. -/
def difference (a b : ℕ) : ℤ :=
  ((a : ℤ) - b).bmod (2 ^ 64)

/-- The sequence of the cell of a position. -/
def sequenceAt (q : MpmcQueue C T) (pos : ℕ) : ℕ :=
  (q.cells (slot C pos)).sequence

/-- The value in the cell of a position. -/
def valueAt (q : MpmcQueue C T) (pos : ℕ) : T :=
  (q.cells (slot C pos)).value

def setValue (q : MpmcQueue C T) (pos : ℕ) (value : T) : MpmcQueue C T :=
  { q with cells := Function.update q.cells (slot C pos) ⟨q.sequenceAt pos, value⟩ }

def setSequence (q : MpmcQueue C T) (pos sequence : ℕ) : MpmcQueue C T :=
  { q with cells := Function.update q.cells (slot C pos) ⟨sequence, q.valueAt pos⟩ }

end MpmcQueue

namespace QueueSystem

open MpmcQueue

variable {C : QueueCapacity} {T ι : Type*} [DecidableEq ι]

/-- A new queue, with no thread in a call. -/
def new (C : QueueCapacity) (T ι : Type*) [Inhabited T] : QueueSystem C T ι where
  queue := .new C T
  threads _ := .idle
  operation _ := 0
  operations := 0
  pushes := []
  released := []
  pops := []
  returned := []

/-- Thread `i` moves to a program point. -/
def goto (m : QueueSystem C T ι) (i : ι) (p : QueuePoint T) : QueueSystem C T ι :=
  { m with threads := Function.update m.threads i p }

/-- Thread `i` starts a call. -/
def call (m : QueueSystem C T ι) (i : ι) (p : QueuePoint T) : QueueSystem C T ι :=
  { m.goto i p with
    operation := Function.update m.operation i m.operations
    operations := m.operations + 1 }

/-- The next access of thread `i`. -/
def access (m : QueueSystem C T ι) (i : ι) (spurious : Bool) :
    QueuePoint T → Option (QueueSystem C T ι)
  | .idle => none
  | .pushLoad value => some (m.goto i (.pushSequence value m.queue.enqueue))
  | .pushSequence value pos =>
    let dif := difference (m.queue.sequenceAt pos) pos
    if dif = 0 then some (m.goto i (.pushSwap value pos))
    else if dif < 0 then some (m.goto i .idle)
    else some (m.goto i (.pushLoad value))
  | .pushSwap value pos =>
    if m.queue.enqueue = pos ∧ spurious = false then
      some { m.goto i (.pushWrite value pos) with
        queue := { m.queue with enqueue := (pos + 1) % 2 ^ 64 }
        pushes := m.pushes ++ [⟨m.operation i, pos, value⟩] }
    else some (m.goto i (.pushSequence value m.queue.enqueue))
  | .pushWrite value pos =>
    some { m.goto i (.pushRelease value pos) with queue := m.queue.setValue pos value }
  | .pushRelease _ pos =>
    some { m.goto i .idle with
      queue := m.queue.setSequence pos ((pos + 1) % 2 ^ 64)
      released := m.released ++ [pos] }
  | .popLoad => some (m.goto i (.popSequence m.queue.dequeue))
  | .popSequence pos =>
    let dif := difference (m.queue.sequenceAt pos) ((pos + 1) % 2 ^ 64)
    if dif = 0 then some (m.goto i (.popSwap pos))
    else if dif < 0 then some (m.goto i .idle)
    else some (m.goto i .popLoad)
  | .popSwap pos =>
    if m.queue.dequeue = pos ∧ spurious = false then
      some { m.goto i (.popRead pos) with
        queue := { m.queue with dequeue := (pos + 1) % 2 ^ 64 }
        pops := m.pops ++ [⟨m.operation i, pos⟩] }
    else some (m.goto i (.popSequence m.queue.dequeue))
  | .popRead pos => some (m.goto i (.popRelease pos (m.queue.valueAt pos)))
  | .popRelease pos value =>
    some { m.goto i .idle with
      queue := m.queue.setSequence pos ((pos + C.value) % 2 ^ 64)
      returned := m.returned ++ [⟨m.operation i, pos, value⟩] }

/-- One step of the system: a thread outside a call starts one, or a thread inside a call
performs its next access. -/
def step (m : QueueSystem C T ι) : QueueAction T ι → Option (QueueSystem C T ι)
  | .tryPush i value =>
    match m.threads i with
    | .idle => some (m.call i (.pushLoad value))
    | _ => none
  | .tryPop i =>
    match m.threads i with
    | .idle => some (m.call i .popLoad)
    | _ => none
  | .access i spurious => m.access i spurious (m.threads i)

end QueueSystem

end HotCounter
