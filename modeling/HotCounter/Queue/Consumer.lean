import HotCounter.Queue.Tickets

/-!
# The bounded queue with one consumer

Where a single thread pops, dequeue tickets are returned in the order in which they are won, so
what has been popped is a prefix of what has been pushed. A push gives up only while as many
values as there are cells are pushed and not popped, and a pop gives up only while the push with
the next ticket has not released its cell.
-/

namespace HotCounter

open Foundation

namespace MpmcQueue

/-- Between small numbers the difference of two words is their difference. -/
theorem lt_of_difference_neg {a b : ℕ} (ha : a < 2 ^ 63) (hb : b < 2 ^ 63)
    (h : difference a b < 0) : a < b := by
  have hexact : difference a b = (a : ℤ) - b := by
    rw [difference, Int.bmod_eq_of_le] <;> push_cast <;> omega
  rw [hexact] at h
  omega

end MpmcQueue

namespace QueueSystem

open MpmcQueue

variable {C : QueueCapacity} {T ι : Type*} [DecidableEq ι]
  {m m' : QueueSystem C T ι} {w i : ι} {pt : QueuePoint T}

/-- What the point of a thread says where only thread `w` pops. -/
def Roles (m : QueueSystem C T ι) (w i : ι) : QueuePoint T → Prop
  | .idle => True
  | .pushSequence _ pos => i ≠ w ∧ pos ≤ m.queue.enqueue
  | .pushLoad _ | .pushSwap _ _ | .pushWrite _ _ | .pushRelease _ _ => i ≠ w
  | .popLoad => i = w
  | .popSequence pos | .popSwap pos | .popRead pos | .popRelease pos _ =>
    i = w ∧ pos = m.returned.length

/-- Tickets that a thread holds between winning and returning. -/
def held (pt : QueuePoint T) : ℕ := if pt.popping.isSome then 1 else 0

/-- **Thread `w` is the only one that pops.** -/
structure SoleConsumer (m : QueueSystem C T ι) (w : ι) : Prop where
  roles : ∀ i, m.Roles w i (m.threads i)
  returnedTickets : m.returned.map ReturnedPop.ticket = List.range m.returned.length
  dequeue_eq : m.queue.dequeue = m.returned.length + held (m.threads w)
  freed : ∀ p < m.returned.length, p + C.value ≤ m.queue.sequenceAt p
  released : ∀ p ∈ m.released, p + 1 ≤ m.queue.sequenceAt p

omit [DecidableEq ι] in
theorem Roles.frame {j : ι} (h : m.Roles w j pt) (henqueue : m.queue.enqueue ≤ m'.queue.enqueue)
    (hreturned : m'.returned.length = m.returned.length ∨ j ≠ w) : m'.Roles w j pt := by
  cases pt with
  | idle => exact trivial
  | pushSequence value pos => exact ⟨h.1, h.2.trans henqueue⟩
  | pushLoad | pushSwap | pushWrite | pushRelease | popLoad => exact h
  | popSequence pos | popSwap pos | popRead pos | popRelease pos value =>
    rcases hreturned with hreturned | hne
    · exact ⟨h.1, h.2.trans hreturned.symm⟩
    · exact absurd h.1 hne

/-- A step of thread `i` keeps what is known when it returns no ticket. -/
theorem SoleConsumer.update (h : m.SoleConsumer w)
    (hthreads : m'.threads = Function.update m.threads i pt) (hpt : m'.Roles w i pt)
    (henqueue : m.queue.enqueue ≤ m'.queue.enqueue) (hreturned : m'.returned = m.returned)
    (hdequeue : m'.queue.dequeue + held (m.threads i) = m.queue.dequeue + held pt)
    (hpushes : i ≠ w → held pt = held (m.threads i))
    (hsequence : ∀ p, m.queue.sequenceAt p ≤ m'.queue.sequenceAt p)
    (hreleased : ∀ p ∈ m'.released, p ∈ m.released ∨ p + 1 ≤ m'.queue.sequenceAt p) :
    m'.SoleConsumer w where
  roles j := by
    rw [hthreads]
    by_cases hj : j = i
    · subst hj
      rw [Function.update_self]
      exact hpt
    · rw [Function.update_of_ne hj]
      exact (h.roles j).frame henqueue (.inl (by rw [hreturned]))
  returnedTickets := by
    rw [hreturned]
    exact h.returnedTickets
  dequeue_eq := by
    have hold := h.dequeue_eq
    rw [hthreads, hreturned]
    by_cases hi : w = i
    · subst hi
      rw [Function.update_self]
      omega
    · rw [Function.update_of_ne hi]
      have := hpushes (Ne.symm hi)
      omega
  freed p hp := by
    rw [hreturned] at hp
    exact (h.freed p hp).trans (hsequence p)
  released p hp := by
    rcases hreleased p hp with hp | hp
    · exact (h.released p hp).trans (hsequence p)
    · exact hp

/-- A thread moves to a program point and leaves the queue alone. -/
theorem SoleConsumer.goto (h : m.SoleConsumer w) (hpt : m.Roles w i pt)
    (hheld : held pt = held (m.threads i)) : (m.goto i pt).SoleConsumer w :=
  h.update rfl (hpt.frame le_rfl (.inl rfl)) le_rfl rfl (by rw [hheld]; rfl) (fun _ => hheld)
    (fun _ => le_rfl) fun _ hp => .inl hp

/-- A thread starts a call. -/
theorem SoleConsumer.call (h : m.SoleConsumer w) (hi : m.threads i = .idle) (hpt : m.Roles w i pt)
    (hheld : held pt = 0) : (m.call i pt).SoleConsumer w := by
  have hsame : held pt = held (m.threads i) := by rw [hheld, hi]; rfl
  exact h.update rfl (hpt.frame le_rfl (.inl rfl)) le_rfl rfl (by rw [hsame]; rfl) (fun _ => hsame)
    (fun _ => le_rfl) fun _ hp => .inl hp

/-- Storing a larger sequence into the cell of a position. -/
theorem sequenceAt_le_setSequence (q : MpmcQueue C T) {pos sequence : ℕ}
    (hle : q.sequenceAt pos ≤ sequence) (p : ℕ) :
    q.sequenceAt p ≤ (q.setSequence pos sequence).sequenceAt p := by
  rw [sequenceAt_setSequence]
  split
  · rename_i hslot
    rwa [sequenceAt_congr hslot]
  · exact le_rfl

/-- A pushed cell is released: its sequence is the next position. -/
theorem SoleConsumer.pushRelease (h : m.SoleConsumer w) (hinv : m.Inv)
    (hops : m.operations < 2 ^ 62) {spurious : Bool} {value : T} {pos : ℕ}
    (hi : m.threads i = .pushRelease value pos)
    (hs : m.access i spurious (.pushRelease value pos) = some m') : m'.SoleConsumer w := by
  have henq := hinv.enqueue_le
  have hknows := hinv.knows i
  rw [hi] at hknows
  obtain ⟨hseq, hlow, hhigh, -, -⟩ := hknows
  have hmod : (pos + 1) % 2 ^ 64 = pos + 1 := Nat.mod_eq_of_lt (by omega)
  obtain rfl := Option.some.inj hs
  rw [hmod]
  refine h.update rfl trivial le_rfl rfl (by rw [hi]; rfl) (fun _ => by rw [hi]; rfl)
    (sequenceAt_le_setSequence m.queue (by omega)) fun p hp => ?_
  rcases List.mem_append.mp hp with hp | hp
  · exact .inl hp
  · rw [List.mem_singleton.mp hp]
    right
    dsimp only
    rw [sequenceAt_setSequence, if_pos rfl]

/-- The consumer wins its ticket, or tries again. -/
theorem SoleConsumer.popSwap (h : m.SoleConsumer w) (hinv : m.Inv) (hops : m.operations < 2 ^ 62)
    {spurious : Bool} {pos : ℕ} (hi : m.threads i = .popSwap pos)
    (hs : m.access i spurious (.popSwap pos) = some m') : m'.SoleConsumer w := by
  have henq := hinv.enqueue_le
  have hle := hinv.le
  have hroles := h.roles i
  have hdequeue := h.dequeue_eq
  rw [hi] at hroles
  obtain ⟨rfl, hpos⟩ := hroles
  rw [hi] at hdequeue
  simp only [QueueSystem.access] at hs
  split at hs
  · rename_i hwin
    have hnext : (pos + 1) % 2 ^ 64 = m.queue.dequeue + 1 := by
      rw [Nat.mod_eq_of_lt (by omega), hwin.1]
    obtain rfl := Option.some.inj hs
    rw [hnext]
    exact h.update rfl ⟨rfl, hpos⟩ le_rfl rfl (by rw [hi]; rfl) (fun hne => absurd rfl hne)
      (fun _ => le_rfl) fun _ hp => .inl hp
  · obtain rfl := Option.some.inj hs
    exact h.goto ⟨rfl, hdequeue⟩ (by rw [hi]; rfl)

/-- The consumer returns its ticket, and frees the cell for the next round of pushes. -/
theorem SoleConsumer.popRelease (h : m.SoleConsumer w) (hinv : m.Inv)
    (hops : m.operations < 2 ^ 62) (hC : C.value ≤ 2 ^ 62) {spurious : Bool} {pos : ℕ} {value : T}
    (hi : m.threads i = .popRelease pos value)
    (hs : m.access i spurious (.popRelease pos value) = some m') : m'.SoleConsumer w := by
  have henq := hinv.enqueue_le
  have hle := hinv.le
  have hroles := h.roles i
  have hknows := hinv.knows i
  have hdequeue := h.dequeue_eq
  rw [hi] at hroles hknows
  obtain ⟨hseq, hlow, -⟩ := hknows
  obtain ⟨rfl, hpos⟩ := hroles
  rw [hi] at hdequeue
  have htwo := C.two_le
  have hmod : (pos + C.value) % 2 ^ 64 = pos + C.value := Nat.mod_eq_of_lt (by omega)
  obtain rfl := Option.some.inj hs
  rw [hmod]
  have hsequence : ∀ p, m.queue.sequenceAt p ≤
      (m.queue.setSequence pos (pos + C.value)).sequenceAt p :=
    sequenceAt_le_setSequence m.queue (by omega)
  exact
    { roles := fun j => by
        dsimp only [QueueSystem.goto]
        by_cases hj : j = i
        · subst hj
          rw [Function.update_self]
          exact trivial
        · rw [Function.update_of_ne hj]
          exact (h.roles j).frame le_rfl (.inr hj)
      returnedTickets := by
        dsimp only
        rw [List.map_append, h.returnedTickets, List.length_append, List.length_singleton,
          List.range_succ, hpos]
        rfl
      dequeue_eq := by
        dsimp only [QueueSystem.goto]
        rw [Function.update_self, List.length_append]
        exact hdequeue
      freed := fun p hp => by
        dsimp only at hp ⊢
        rw [List.length_append, List.length_singleton] at hp
        by_cases hp' : p = pos
        · rw [hp', sequenceAt_setSequence, if_pos rfl]
        · exact (h.freed p (by omega)).trans (hsequence p)
      released := fun p hp => (h.released p hp).trans (hsequence p) }

/-- **The next access of a thread keeps the consumer the only one.** -/
theorem SoleConsumer.access (h : m.SoleConsumer w) (hinv : m.Inv) (hops : m.operations < 2 ^ 62)
    (hC : C.value ≤ 2 ^ 62) {spurious : Bool}
    (hs : m.access i spurious (m.threads i) = some m') : m'.SoleConsumer w := by
  have henq := hinv.enqueue_le
  have hroles := h.roles i
  have hdequeue := h.dequeue_eq
  generalize hi : m.threads i = point at hs hroles
  cases point with
  | idle => cases hs
  | pushLoad value =>
    obtain rfl := Option.some.inj hs
    exact h.goto ⟨hroles, le_rfl⟩ (by rw [hi]; rfl)
  | pushSequence value pos =>
    simp only [QueueSystem.access] at hs
    split at hs
    · obtain rfl := Option.some.inj hs
      exact h.goto hroles.1 (by rw [hi]; rfl)
    · split at hs
      · obtain rfl := Option.some.inj hs
        exact h.goto trivial (by rw [hi]; rfl)
      · obtain rfl := Option.some.inj hs
        exact h.goto hroles.1 (by rw [hi]; rfl)
  | pushSwap value pos =>
    simp only [QueueSystem.access] at hs
    split at hs
    · rename_i hwin
      have hnext : m.queue.enqueue ≤ (pos + 1) % 2 ^ 64 := by
        rw [Nat.mod_eq_of_lt (by omega)]
        omega
      obtain rfl := Option.some.inj hs
      exact h.update rfl hroles hnext rfl (by rw [hi]; rfl) (fun _ => by rw [hi]; rfl)
        (fun _ => le_rfl) fun _ hp => .inl hp
    · obtain rfl := Option.some.inj hs
      exact h.goto ⟨hroles, le_rfl⟩ (by rw [hi]; rfl)
  | pushWrite value pos =>
    obtain rfl := Option.some.inj hs
    exact h.update rfl hroles le_rfl rfl (by rw [hi]; rfl) (fun _ => by rw [hi]; rfl)
      (fun p => (sequenceAt_setValue m.queue pos value p).ge) fun _ hp => .inl hp
  | pushRelease value pos => exact h.pushRelease hinv hops hi hs
  | popLoad =>
    obtain rfl := Option.some.inj hs
    have hiw : i = w := hroles
    subst hiw
    rw [hi] at hdequeue
    exact h.goto ⟨rfl, hdequeue⟩ (by rw [hi]; rfl)
  | popSequence pos =>
    simp only [QueueSystem.access] at hs
    split at hs
    · obtain rfl := Option.some.inj hs
      exact h.goto hroles (by rw [hi]; rfl)
    · split at hs
      · obtain rfl := Option.some.inj hs
        exact h.goto trivial (by rw [hi]; rfl)
      · obtain rfl := Option.some.inj hs
        exact h.goto hroles.1 (by rw [hi]; rfl)
  | popSwap pos => exact h.popSwap hinv hops hi hs
  | popRead pos =>
    obtain rfl := Option.some.inj hs
    exact h.goto hroles (by rw [hi]; rfl)
  | popRelease pos value => exact h.popRelease hinv hops hC hi hs

theorem SoleConsumer.tryPush (h : m.SoleConsumer w) (hi : i ≠ w) {value : T}
    (hs : m.step (.tryPush i value) = some m') : m'.SoleConsumer w := by
  simp only [QueueSystem.step] at hs
  split at hs
  · rename_i hidle
    obtain rfl := Option.some.inj hs
    exact h.call hidle hi rfl
  · cases hs

theorem SoleConsumer.tryPop (h : m.SoleConsumer w) (hs : m.step (.tryPop w) = some m') :
    m'.SoleConsumer w := by
  simp only [QueueSystem.step] at hs
  split at hs
  · rename_i hidle
    obtain rfl := Option.some.inj hs
    exact h.call hidle rfl rfl
  · cases hs

/-! ### What an access changes -/

/-- An access moves one thread. -/
theorem access_threads_ne {spurious : Bool} {j : ι} (hs : m.access i spurious pt = some m')
    (hj : j ≠ i) : m'.threads j = m.threads j := by
  cases pt <;> simp only [QueueSystem.access] at hs
  case idle => cases hs
  all_goals (repeat' split at hs) <;> obtain rfl := Option.some.inj hs <;>
    exact Function.update_of_ne hj _ _

/-- The value that the next access returns. -/
def returning : QueuePoint T → List T
  | .popRelease _ value => [value]
  | _ => []

/-- A step starts at most one call. -/
theorem step_operations {a : QueueAction T ι} (hs : m.step a = some m') :
    m.operations ≤ m'.operations := by
  cases a with
  | tryPush i value | tryPop i =>
    simp only [QueueSystem.step] at hs
    split at hs
    · obtain rfl := Option.some.inj hs
      exact Nat.le_succ _
    · cases hs
  | access i spurious => exact (access_operations hs).ge

/-- A value is returned by the last access of a successful pop. -/
theorem access_returned {spurious : Bool} (hs : m.access i spurious pt = some m') :
    m'.returned.map ReturnedPop.value = m.returned.map ReturnedPop.value ++ returning pt := by
  cases pt <;> simp only [QueueSystem.access] at hs
  case idle => cases hs
  all_goals (repeat' split at hs) <;> obtain rfl := Option.some.inj hs <;>
    simp [QueueSystem.goto, returning]

/-- Calls of `try_push` that have not won a ticket. -/
def trying : QueuePoint T → ℕ
  | .pushLoad _ | .pushSequence _ _ | .pushSwap _ _ => 1
  | _ => 0

/-- The access at which `try_push` gives up. -/
def GivesUp (pt pt' : QueuePoint T) : Prop :=
  (∃ value pos, pt = .pushSequence value pos) ∧ pt' = .idle

/-- An attempt stays one, wins a ticket or gives up. -/
theorem access_pushes {spurious : Bool} (hs : m.access i spurious pt = some m') :
    (GivesUp pt (m'.threads i) ∧ trying pt = 1 ∧ trying (m'.threads i) = 0 ∧
      m'.pushes = m.pushes) ∨
    (¬ GivesUp pt (m'.threads i) ∧
      m'.pushes.length + trying (m'.threads i) = m.pushes.length + trying pt) := by
  cases pt <;> simp only [QueueSystem.access] at hs
  case idle => cases hs
  all_goals
    (repeat' split at hs) <;> obtain rfl := Option.some.inj hs <;>
    simp [QueueSystem.goto, GivesUp, trying]

/-- A push gives up where the sequence it has read is behind its position. -/
theorem difference_of_givesUp {spurious : Bool} {value : T} {pos : ℕ}
    (hs : m.access i spurious (.pushSequence value pos) = some m') (hidle : m'.threads i = .idle) :
    difference (m.queue.sequenceAt pos) pos < 0 := by
  simp only [QueueSystem.access] at hs
  by_contra hdif
  rw [if_neg hdif] at hs
  split at hs <;> obtain rfl := Option.some.inj hs <;> simp [QueueSystem.goto] at hidle

/-- A pop gives up where the sequence it has read is behind the one it needs. -/
theorem difference_of_popIdle {spurious : Bool} {pos : ℕ}
    (hs : m.access i spurious (.popSequence pos) = some m') (hidle : m'.threads i = .idle) :
    difference (m.queue.sequenceAt pos) ((pos + 1) % 2 ^ 64) < 0 := by
  simp only [QueueSystem.access] at hs
  by_contra hdif
  rw [if_neg hdif] at hs
  split at hs <;> obtain rfl := Option.some.inj hs <;> simp [QueueSystem.goto] at hidle

omit [DecidableEq ι] in
theorem SoleConsumer.new [Inhabited T] : (QueueSystem.new C T ι).SoleConsumer w where
  roles _ := trivial
  returnedTickets := rfl
  dequeue_eq := rfl
  freed _ hp := absurd hp (Nat.not_lt_zero _)
  released _ hp := absurd hp List.not_mem_nil

/-! ### What one consumer sees -/

section Seen

omit [DecidableEq ι]

/-- The push with ticket `k` is the one at place `k`. -/
theorem Recorded.ticket_getElem (h : m.Recorded) {k : ℕ} (hk : k < m.pushes.length) :
    m.pushes[k].ticket = k := by
  have hlt : k < m.queue.enqueue := by
    have hlength := congrArg List.length h.pushTickets
    rw [List.length_map, List.length_range] at hlength
    omega
  have hget := congrArg (fun l : List ℕ => l[k]?) h.pushTickets
  simpa [hk, hlt] using hget

/-- **What has been popped is a prefix of what has been pushed.** -/
theorem SoleConsumer.popped_eq_take (h : m.SoleConsumer w) (hinv : m.Inv) :
    m.returned.map ReturnedPop.value =
      (m.pushes.map WonPush.value).take m.returned.length := by
  have hpushes : m.pushes.length = m.queue.enqueue := by
    simpa using congrArg List.length hinv.pushTickets
  have hle := hinv.le
  have hdequeue := h.dequeue_eq
  refine List.ext_getElem (by simp only [List.length_map, List.length_take]; omega)
    fun k hk hk' => ?_
  rw [List.length_map] at hk
  have hticket : m.returned[k].ticket = k := by
    have hget := congrArg (fun l : List ℕ => l[k]?) h.returnedTickets
    simpa [hk] using hget
  obtain ⟨-, -, push, hpush, hpushTicket, hvalue⟩ := hinv.returned _ (List.getElem_mem hk)
  obtain ⟨j, hj, rfl⟩ := List.getElem_of_mem hpush
  obtain rfl : j = k := by rw [← hinv.ticket_getElem hj, hpushTicket, hticket]
  rw [List.getElem_map, List.getElem_take, List.getElem_map, hvalue]

/-- **A push that gives up found the queue full**: as many values as there are cells are pushed
and not popped. -/
theorem SoleConsumer.full_of_difference (h : m.SoleConsumer w) (hinv : m.Inv)
    (hops : m.operations < 2 ^ 62) (hC : C.value ≤ 2 ^ 62) {value : T} {pos : ℕ}
    (hi : m.threads i = .pushSequence value pos)
    (hdif : difference (m.queue.sequenceAt pos) pos < 0) :
    m.returned.length + C.value ≤ m.queue.enqueue := by
  have henq := hinv.enqueue_le
  have hle := hinv.le
  have htwo := C.two_le
  have hpos : pos ≤ m.queue.enqueue := by
    have hroles := h.roles i
    rw [hi] at hroles
    exact hroles.2
  have hdequeue := h.dequeue_eq
  obtain ⟨p, hslot, ⟨hseq, hlow, hhigh⟩ | ⟨hseq, hlow, hhigh, -, -⟩⟩ := hinv.phase pos
  · rw [sequenceAt_congr hslot] at hseq
    have hlt := lt_of_difference_neg (by omega) (by omega) hdif
    have hgap := add_le_of_slot hslot (by omega)
    omega
  · -- the value in the cell has not been popped, or the cell would have been freed
    have hkept : m.returned.length ≤ p := by
      by_contra hp
      have hfreed := h.freed p (by omega)
      omega
    rw [sequenceAt_congr hslot] at hseq
    have hlt := lt_of_difference_neg (by omega) (by omega) hdif
    have hgap := add_le_of_slot hslot (by omega)
    omega

/-- **A pop that gives up found the next value missing**: the push with the next ticket has not
released its cell. -/
theorem SoleConsumer.next_not_released (h : m.SoleConsumer w) (hinv : m.Inv)
    (hops : m.operations < 2 ^ 62) (hC : C.value ≤ 2 ^ 62) {pos : ℕ}
    (hi : m.threads i = .popSequence pos)
    (hdif : difference (m.queue.sequenceAt pos) ((pos + 1) % 2 ^ 64) < 0) :
    m.returned.length ∉ m.released := by
  have henq := hinv.enqueue_le
  have hle := hinv.le
  have hdequeue := h.dequeue_eq
  have hpos : pos = m.returned.length := by
    have hroles := h.roles i
    rw [hi] at hroles
    exact hroles.2
  rw [Nat.mod_eq_of_lt (by omega)] at hdif
  have hlt : m.queue.sequenceAt pos < pos + 1 := by
    refine lt_of_difference_neg ?_ (by omega) hdif
    obtain ⟨p, hslot, ⟨hseq, -, hhigh⟩ | ⟨hseq, hlow, -⟩⟩ := hinv.phase pos <;>
      rw [sequenceAt_congr hslot] at hseq <;> omega
  intro hmem
  have hseq := h.released _ hmem
  rw [← hpos] at hseq
  omega

/-- A pop that gives up while no push is between its ticket and its release has drained the
queue. -/
theorem SoleConsumer.drained (h : m.SoleConsumer w) (hinv : m.Inv)
    (hquiet : ∀ i, (m.threads i).pushing = none) (hnext : m.returned.length ∉ m.released) :
    m.returned.length = m.queue.enqueue := by
  have hpushes : m.pushes.length = m.queue.enqueue := by
    simpa using congrArg List.length hinv.pushTickets
  have hle := hinv.le
  have hdequeue := h.dequeue_eq
  by_contra hne
  have hlt : m.returned.length < m.pushes.length := by omega
  have hticket := hinv.ticket_getElem hlt
  rcases hinv.pushesAccounted _ (List.getElem_mem hlt) with hreleased | ⟨j, -, hpushing⟩
  · exact hnext (hticket ▸ hreleased)
  · rw [hquiet j] at hpushing
    cases hpushing

end Seen

end QueueSystem

end HotCounter
