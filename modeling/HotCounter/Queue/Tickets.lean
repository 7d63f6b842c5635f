import HotCounter.Queue.Mpmc

/-!
# Tickets and cells of the bounded queue

What a cell's sequence says. A cell is in one of two phases for a ticket `p` of its residue
class: *vacant*, with sequence `p`, waiting for the push that wins (or has won) enqueue ticket
`p`; or *filled*, with sequence `p + 1`, waiting for the pop that wins (or has won) dequeue
ticket `p`. The windows `[dequeue, dequeue + Capacity)` and `[enqueue - Capacity, enqueue)` of
the two phases are shorter than the distance of two tickets of one cell, so a sequence that a
thread has read once determines the phase at the moment its compare-exchange succeeds.
-/

namespace HotCounter

open Foundation

namespace MpmcQueue

variable {C : QueueCapacity} {T : Type*} {q : MpmcQueue C T}

/-! ### Positions and cells -/

theorem slot_eq_iff {a b : ℕ} : slot C a = slot C b ↔ a % C.value = b % C.value := by
  simp only [slot, Fin.mk.injEq, C.and_eq_mod]

@[simp]
theorem slot_add_capacity (a : ℕ) : slot C (a + C.value) = slot C a := by
  rw [slot_eq_iff, Nat.add_mod_right]

/-- Two positions of one cell are at least the capacity apart. -/
theorem add_le_of_slot {a b : ℕ} (h : slot C a = slot C b) (hlt : a < b) :
    a + C.value ≤ b := by
  have hdvd : C.value ∣ b - a := (Nat.modEq_iff_dvd' hlt.le).mp (slot_eq_iff.mp h)
  have hle := Nat.le_of_dvd (by omega) hdvd
  omega

/-- Neighbouring positions have different cells. -/
theorem slot_succ_ne (a : ℕ) : slot C (a + 1) ≠ slot C a := by
  intro h
  have hle := add_le_of_slot h.symm (Nat.lt_succ_self a)
  have htwo := C.two_le
  omega

theorem difference_eq_zero {a b : ℕ} (ha : a < 2 ^ 64) (hb : b < 2 ^ 64)
    (h : difference a b = 0) : a = b := by
  have hdvd : ((2 ^ 64 : ℕ) : ℤ) ∣ (a : ℤ) - b := Int.dvd_of_bmod_eq_zero h
  have hzero : (a : ℤ) - b = 0 := by
    refine Int.eq_zero_of_abs_lt_dvd hdvd ?_
    rw [abs_lt]
    constructor <;> push_cast <;> omega
  omega

theorem sequenceAt_congr {a b : ℕ} (h : slot C a = slot C b) :
    q.sequenceAt a = q.sequenceAt b := by
  rw [sequenceAt, sequenceAt, h]

theorem sequenceAt_setSequence (q : MpmcQueue C T) (pos sequence a : ℕ) :
    (q.setSequence pos sequence).sequenceAt a =
      if slot C a = slot C pos then sequence else q.sequenceAt a := by
  unfold sequenceAt setSequence
  by_cases h : slot C a = slot C pos
  · simp [h]
  · simp [h]

@[simp]
theorem valueAt_setSequence (q : MpmcQueue C T) (pos sequence a : ℕ) :
    (q.setSequence pos sequence).valueAt a = q.valueAt a := by
  unfold valueAt setSequence
  by_cases h : slot C a = slot C pos
  · simp [h, valueAt]
  · simp [h]

@[simp]
theorem sequenceAt_setValue (q : MpmcQueue C T) (pos : ℕ) (value : T) (a : ℕ) :
    (q.setValue pos value).sequenceAt a = q.sequenceAt a := by
  unfold sequenceAt setValue
  by_cases h : slot C a = slot C pos
  · simp [h, sequenceAt]
  · simp [h]

theorem valueAt_setValue (q : MpmcQueue C T) (pos : ℕ) (value : T) (a : ℕ) :
    (q.setValue pos value).valueAt a = if slot C a = slot C pos then value else q.valueAt a := by
  unfold valueAt setValue
  by_cases h : slot C a = slot C pos
  · simp [h]
  · simp [h]

end MpmcQueue

namespace QueuePoint

variable {T : Type*}

/-- The enqueue ticket that a thread has won and not released yet, with the value it pushes. -/
def pushing : QueuePoint T → Option (T × ℕ)
  | pushWrite value pos => some (value, pos)
  | pushRelease value pos => some (value, pos)
  | _ => none

/-- The dequeue ticket that a thread has won and not released yet. -/
def popping : QueuePoint T → Option ℕ
  | popRead pos => some pos
  | popRelease pos _ => some pos
  | _ => none

/-- The position whose cell a thread has claimed and not released yet. -/
def claim (p : QueuePoint T) : Option ℕ :=
  (p.pushing.map Prod.snd).or p.popping

theorem claim_cases {p : QueuePoint T} {pos : ℕ} (h : p.claim = some pos) :
    (∃ value, p.pushing = some (value, pos)) ∨ p.popping = some pos := by
  cases p <;> simp_all [claim, pushing, popping]

theorem claim_of_popping {p : QueuePoint T} {pos : ℕ} (h : p.popping = some pos) :
    p.claim = some pos := by
  cases p <;> simp_all [claim, pushing, popping]

theorem ne_idle_of_claim {p : QueuePoint T} {pos : ℕ} (h : p.claim = some pos) : p ≠ .idle := by
  rintro rfl
  simp [claim, pushing, popping] at h

end QueuePoint

namespace QueueSystem

open MpmcQueue

variable {C : QueueCapacity} {T ι : Type*}

/-! ### The invariant -/

/-- The cell of ticket `p` waits for the push with that ticket. -/
def Vacant (m : QueueSystem C T ι) (p : ℕ) : Prop :=
  m.queue.sequenceAt p = p ∧ m.queue.dequeue ≤ p ∧ p < m.queue.dequeue + C.value

/-- The cell of ticket `p` holds the value of the push with that ticket, which is done. -/
def Filled (m : QueueSystem C T ι) (p : ℕ) : Prop :=
  m.queue.sequenceAt p = p + 1 ∧ p < m.queue.enqueue ∧ m.queue.enqueue ≤ p + C.value ∧
    p ∈ m.released ∧ ∃ w ∈ m.pushes, w.ticket = p ∧ w.value = m.queue.valueAt p

/-- The call a thread is in has not won a ticket. -/
def Unsettled (m : QueueSystem C T ι) (i : ι) : Prop :=
  (∀ w ∈ m.pushes, w.operation ≠ m.operation i) ∧ ∀ w ∈ m.pops, w.operation ≠ m.operation i

/-- What a thread at a program point can rely on. -/
def Knows (m : QueueSystem C T ι) (i : ι) : QueuePoint T → Prop
  | .idle => True
  | .pushLoad _ => m.Unsettled i
  | .pushSequence _ pos => m.Unsettled i ∧ pos < 2 ^ 63
  | .pushSwap _ pos => m.Unsettled i ∧ pos ≤ m.queue.sequenceAt pos
  | .pushWrite value pos =>
    m.queue.sequenceAt pos = pos ∧ m.queue.dequeue ≤ pos ∧ pos < m.queue.enqueue ∧
      ⟨m.operation i, pos, value⟩ ∈ m.pushes
  | .pushRelease value pos =>
    m.queue.sequenceAt pos = pos ∧ m.queue.dequeue ≤ pos ∧ pos < m.queue.enqueue ∧
      ⟨m.operation i, pos, value⟩ ∈ m.pushes ∧ m.queue.valueAt pos = value
  | .popLoad => m.Unsettled i
  | .popSequence pos => m.Unsettled i ∧ pos < 2 ^ 63
  | .popSwap pos => m.Unsettled i ∧ pos + 1 ≤ m.queue.sequenceAt pos
  | .popRead pos =>
    m.queue.sequenceAt pos = pos + 1 ∧ pos < m.queue.dequeue ∧
      ⟨m.operation i, pos⟩ ∈ m.pops ∧ ∀ x ∈ m.returned, x.ticket ≠ pos
  | .popRelease pos value =>
    m.queue.sequenceAt pos = pos + 1 ∧ pos < m.queue.dequeue ∧
      ⟨m.operation i, pos⟩ ∈ m.pops ∧ (∀ x ∈ m.returned, x.ticket ≠ pos) ∧
      m.queue.valueAt pos = value

/-- A won push has released its cell or is still in the hands of the call that won it. -/
def PushAccounted (m : QueueSystem C T ι) (w : WonPush T) : Prop :=
  w.ticket ∈ m.released ∨
    ∃ i, m.operation i = w.operation ∧ (m.threads i).pushing = some (w.value, w.ticket)

/-- A won pop has returned or is still in the hands of the call that won it. -/
def PopAccounted (m : QueueSystem C T ι) (w : WonPop) : Prop :=
  (∃ x ∈ m.returned, x.operation = w.operation ∧ x.ticket = w.ticket) ∨
    ∃ i, m.operation i = w.operation ∧ (m.threads i).popping = some w.ticket

/-- What is recorded of the calls: numbers, tickets and returns. -/
structure Recorded (m : QueueSystem C T ι) : Prop where
  pushTickets : m.pushes.map WonPush.ticket = List.range m.queue.enqueue
  popTickets : m.pops.map WonPop.ticket = List.range m.queue.dequeue
  pushCalls : (m.pushes.map WonPush.operation).Nodup
  popCalls : (m.pops.map WonPop.operation).Nodup
  pushCalls_lt : ∀ w ∈ m.pushes, w.operation < m.operations
  popCalls_lt : ∀ w ∈ m.pops, w.operation < m.operations
  calls_lt : ∀ i, m.threads i ≠ .idle → m.operation i < m.operations
  calls_ne : ∀ i j, i ≠ j → m.threads i ≠ .idle → m.threads j ≠ .idle →
    m.operation i ≠ m.operation j
  returned : ∀ x ∈ m.returned, ⟨x.operation, x.ticket⟩ ∈ m.pops ∧ x.ticket ∈ m.released ∧
    ∃ w ∈ m.pushes, w.ticket = x.ticket ∧ w.value = x.value
  returnedTickets : (m.returned.map ReturnedPop.ticket).Nodup
  pushesAccounted : ∀ w ∈ m.pushes, m.PushAccounted w
  popsAccounted : ∀ w ∈ m.pops, m.PopAccounted w

/-- The invariant of the queue while its counters are far from wrapping. -/
structure Inv (m : QueueSystem C T ι) : Prop extends m.Recorded where
  le : m.queue.dequeue ≤ m.queue.enqueue
  le_add : m.queue.enqueue ≤ m.queue.dequeue + C.value
  phase : ∀ pos, ∃ p, slot C p = slot C pos ∧ (m.Vacant p ∨ m.Filled p)
  knows : ∀ i, m.Knows i (m.threads i)

/-! ### Consequences of the invariant -/

/-- Distinct numbers below `n` are at most `n` many. -/
private theorem length_le_of_nodup {l : List ℕ} {n : ℕ} (hnodup : l.Nodup)
    (hlt : ∀ a ∈ l, a < n) : l.length ≤ n := by
  have hsub : l.toFinset ⊆ Finset.range n := fun a ha =>
    Finset.mem_range.mpr (hlt a (List.mem_toFinset.mp ha))
  have hcard := Finset.card_le_card hsub
  rwa [List.toFinset_card_of_nodup hnodup, Finset.card_range] at hcard

section Consequences

variable {m : QueueSystem C T ι}

theorem Recorded.enqueue_le (h : m.Recorded) : m.queue.enqueue ≤ m.operations := by
  have hlen : m.pushes.length = m.queue.enqueue := by
    simpa using congrArg List.length h.pushTickets
  have hle := length_le_of_nodup h.pushCalls fun a ha => by
    obtain ⟨w, hw, rfl⟩ := List.mem_map.mp ha
    exact h.pushCalls_lt w hw
  rwa [List.length_map, hlen] at hle

/-- A push that is about to win its ticket is not counted yet. -/
theorem Recorded.enqueue_lt (h : m.Recorded) {i : ι} (hi : m.threads i ≠ .idle)
    (hnew : m.Unsettled i) : m.queue.enqueue < m.operations := by
  have hlen : m.pushes.length = m.queue.enqueue := by
    simpa using congrArg List.length h.pushTickets
  have hnodup : (m.operation i :: m.pushes.map WonPush.operation).Nodup := by
    refine List.nodup_cons.mpr ⟨fun hmem => ?_, h.pushCalls⟩
    obtain ⟨w, hw, heq⟩ := List.mem_map.mp hmem
    exact hnew.1 w hw heq
  have hle := length_le_of_nodup hnodup fun a ha => by
    rcases List.mem_cons.mp ha with rfl | ha
    · exact h.calls_lt i hi
    · obtain ⟨w, hw, rfl⟩ := List.mem_map.mp ha
      exact h.pushCalls_lt w hw
  rw [List.length_cons, List.length_map, hlen] at hle
  omega

theorem Recorded.popTicket_lt (h : m.Recorded) {w : WonPop} (hw : w ∈ m.pops) :
    w.ticket < m.queue.dequeue := by
  have hmem := List.mem_map_of_mem (f := WonPop.ticket) hw
  rw [h.popTickets] at hmem
  exact List.mem_range.mp hmem

theorem Recorded.push_eq (h : m.Recorded) {w w' : WonPush T} (hw : w ∈ m.pushes)
    (hw' : w' ∈ m.pushes) (heq : w.ticket = w'.ticket) : w = w' :=
  List.inj_on_of_nodup_map (h.pushTickets ▸ List.nodup_range) hw hw' heq

theorem Recorded.pop_eq (h : m.Recorded) {w w' : WonPop} (hw : w ∈ m.pops)
    (hw' : w' ∈ m.pops) (heq : w.ticket = w'.ticket) : w = w' :=
  List.inj_on_of_nodup_map (h.popTickets ▸ List.nodup_range) hw hw' heq

/-- The phase of the cell of a position whose sequence is at least that position. -/
theorem Inv.vacant_of_le (h : m.Inv) {pos : ℕ} (hpos : m.queue.enqueue = pos)
    (hseen : pos ≤ m.queue.sequenceAt pos) : m.Vacant pos := by
  have hle := h.le
  have htwo := C.two_le
  obtain ⟨p, hslot, hvacant | hfilled⟩ := h.phase pos
  · obtain ⟨hseq, hlow, hhigh⟩ := hvacant
    rw [sequenceAt_congr hslot] at hseq
    obtain rfl : p = pos := by
      by_contra hne
      have hgap := add_le_of_slot hslot.symm (by omega)
      omega
    exact ⟨hseq, hlow, hhigh⟩
  · obtain ⟨hseq, hlow, -⟩ := hfilled
    rw [sequenceAt_congr hslot] at hseq
    have hgap := add_le_of_slot hslot (by omega)
    omega

/-- The phase of the cell of a position whose sequence is beyond that position. -/
theorem Inv.filled_of_lt (h : m.Inv) {pos : ℕ} (hpos : m.queue.dequeue = pos)
    (hseen : pos + 1 ≤ m.queue.sequenceAt pos) : m.Filled pos := by
  have hadd := h.le_add
  obtain ⟨p, hslot, hvacant | hfilled⟩ := h.phase pos
  · obtain ⟨hseq, hlow, hhigh⟩ := hvacant
    rw [sequenceAt_congr hslot] at hseq
    have hgap := add_le_of_slot hslot.symm (by omega)
    omega
  · have hseq := hfilled.1
    have hhigh := hfilled.2.1
    rw [sequenceAt_congr hslot] at hseq
    obtain rfl : p = pos := by
      by_contra hne
      have hgap := add_le_of_slot hslot.symm (by omega)
      omega
    exact hfilled

/-- A cell whose sequence is one beyond a position of it is filled for that position. -/
theorem Inv.filled_of_eq (h : m.Inv) {pos : ℕ} (hseq : m.queue.sequenceAt pos = pos + 1) :
    m.Filled pos := by
  obtain ⟨p, hslot, hvacant | hfilled⟩ := h.phase pos
  · obtain ⟨hp, -⟩ := hvacant
    rw [sequenceAt_congr hslot, hseq] at hp
    exact absurd (hp ▸ hslot) (slot_succ_ne pos)
  · have hp := hfilled.1
    rw [sequenceAt_congr hslot, hseq] at hp
    obtain rfl : p = pos := by omega
    exact hfilled

/-- Sequences stay within a word. -/
theorem Inv.sequenceAt_lt (h : m.Inv) (hops : m.operations < 2 ^ 63) (pos : ℕ) :
    m.queue.sequenceAt pos < 2 ^ 64 := by
  have hle := h.le
  have henq := h.enqueue_le
  have hcap := C.value_le
  obtain ⟨p, hslot, hvacant | hfilled⟩ := h.phase pos
  · have hseq := hvacant.1
    have hhigh := hvacant.2.2
    rw [sequenceAt_congr hslot] at hseq
    omega
  · have hseq := hfilled.1
    have hhigh := hfilled.2.1
    rw [sequenceAt_congr hslot] at hseq
    omega

theorem Knows.of_pushing {i : ι} {pt : QueuePoint T} {value : T} {pos : ℕ}
    (h : m.Knows i pt) (hpt : pt.pushing = some (value, pos)) :
    m.queue.sequenceAt pos = pos ∧ m.queue.dequeue ≤ pos ∧ pos < m.queue.enqueue ∧
      ⟨m.operation i, pos, value⟩ ∈ m.pushes := by
  cases pt with
  | pushWrite v p =>
    obtain ⟨rfl, rfl⟩ : v = value ∧ p = pos := by simpa [QueuePoint.pushing] using hpt
    exact h
  | pushRelease v p =>
    obtain ⟨rfl, rfl⟩ : v = value ∧ p = pos := by simpa [QueuePoint.pushing] using hpt
    exact ⟨h.1, h.2.1, h.2.2.1, h.2.2.2.1⟩
  | _ => simp [QueuePoint.pushing] at hpt

theorem Knows.of_popping {i : ι} {pt : QueuePoint T} {pos : ℕ}
    (h : m.Knows i pt) (hpt : pt.popping = some pos) :
    m.queue.sequenceAt pos = pos + 1 ∧ pos < m.queue.dequeue ∧
      ⟨m.operation i, pos⟩ ∈ m.pops ∧ ∀ x ∈ m.returned, x.ticket ≠ pos := by
  cases pt with
  | popRead p =>
    obtain rfl : p = pos := by simpa [QueuePoint.popping] using hpt
    exact h
  | popRelease p v =>
    obtain rfl : p = pos := by simpa [QueuePoint.popping] using hpt
    exact ⟨h.1, h.2.1, h.2.2.1, h.2.2.2.1⟩
  | _ => simp [QueuePoint.popping] at hpt

/-- **A cell is claimed by one thread at a time.** -/
theorem Inv.exclusive (h : m.Inv) {i j : ι} (hne : i ≠ j) {p q : ℕ}
    (hi : (m.threads i).claim = some p) (hj : (m.threads j).claim = some q) :
    slot C p ≠ slot C q := by
  intro hslot
  have hcalls := h.calls_ne i j hne (QueuePoint.ne_idle_of_claim hi)
    (QueuePoint.ne_idle_of_claim hj)
  have hsame := sequenceAt_congr (q := m.queue) hslot
  rcases QueuePoint.claim_cases hi with ⟨v, hi⟩ | hi <;>
    rcases QueuePoint.claim_cases hj with ⟨w, hj⟩ | hj
  · -- two pushes: the sequence is the ticket of both, and a ticket has one winner
    obtain ⟨hseqi, -, -, hmemi⟩ := (h.knows i).of_pushing hi
    obtain ⟨hseqj, -, -, hmemj⟩ := (h.knows j).of_pushing hj
    have hticket : p = q := by omega
    exact hcalls (congrArg WonPush.operation (h.push_eq hmemi hmemj hticket))
  · obtain ⟨hseqi, -⟩ := (h.knows i).of_pushing hi
    obtain ⟨hseqj, -⟩ := (h.knows j).of_popping hj
    have hticket : p = q + 1 := by omega
    exact slot_succ_ne q (hticket ▸ hslot)
  · obtain ⟨hseqi, -⟩ := (h.knows i).of_popping hi
    obtain ⟨hseqj, -⟩ := (h.knows j).of_pushing hj
    have hticket : q = p + 1 := by omega
    exact slot_succ_ne p (hticket ▸ hslot.symm)
  · obtain ⟨hseqi, -, hmemi, -⟩ := (h.knows i).of_popping hi
    obtain ⟨hseqj, -, hmemj, -⟩ := (h.knows j).of_popping hj
    have hticket : p = q := by omega
    exact hcalls (congrArg WonPop.operation (h.pop_eq hmemi hmemj hticket))

end Consequences

/-! ### What a step leaves to the other threads -/

/-- The change of shared state from `m` to `m'` as seen by a thread `j` at a program point. -/
structure Frame (m m' : QueueSystem C T ι) (j : ι) (pt : QueuePoint T) : Prop where
  operation : m'.operation j = m.operation j
  unsettled : pt ≠ .idle → m.Unsettled j → m'.Unsettled j
  sequence_le : ∀ pos, m.queue.sequenceAt pos ≤ m'.queue.sequenceAt pos
  claimed : ∀ pos, pt.claim = some pos →
    m'.queue.sequenceAt pos = m.queue.sequenceAt pos ∧
      m'.queue.valueAt pos = m.queue.valueAt pos
  enqueue_le : m.queue.enqueue ≤ m'.queue.enqueue
  dequeue_le : m.queue.dequeue ≤ m'.queue.dequeue
  pushing : ∀ value pos, pt.pushing = some (value, pos) → m'.queue.dequeue ≤ pos
  pushes : ∀ w ∈ m.pushes, w ∈ m'.pushes
  pops : ∀ w ∈ m.pops, w ∈ m'.pops
  popping : ∀ pos, pt.popping = some pos → ∀ x ∈ m'.returned, x.ticket ≠ pos

theorem Knows.frame {m m' : QueueSystem C T ι} {j : ι} {pt : QueuePoint T}
    (h : m.Knows j pt) (hframe : m.Frame m' j pt) : m'.Knows j pt := by
  cases pt with
  | idle => exact trivial
  | pushLoad v => exact hframe.unsettled (by simp) h
  | pushSequence v pos => exact ⟨hframe.unsettled (by simp) h.1, h.2⟩
  | pushSwap v pos =>
    exact ⟨hframe.unsettled (by simp) h.1, h.2.trans (hframe.sequence_le pos)⟩
  | pushWrite v pos =>
    obtain ⟨hseq, -, hlt, hmem⟩ := h
    refine ⟨(hframe.claimed pos rfl).1.trans hseq, hframe.pushing v pos rfl,
      hlt.trans_le hframe.enqueue_le, ?_⟩
    rw [hframe.operation]
    exact hframe.pushes _ hmem
  | pushRelease v pos =>
    obtain ⟨hseq, -, hlt, hmem, hvalue⟩ := h
    refine ⟨(hframe.claimed pos rfl).1.trans hseq, hframe.pushing v pos rfl,
      hlt.trans_le hframe.enqueue_le, ?_, (hframe.claimed pos rfl).2.trans hvalue⟩
    rw [hframe.operation]
    exact hframe.pushes _ hmem
  | popLoad => exact hframe.unsettled (by simp) h
  | popSequence pos => exact ⟨hframe.unsettled (by simp) h.1, h.2⟩
  | popSwap pos =>
    exact ⟨hframe.unsettled (by simp) h.1, h.2.trans (hframe.sequence_le pos)⟩
  | popRead pos =>
    obtain ⟨hseq, hlt, hmem, -⟩ := h
    refine ⟨(hframe.claimed pos rfl).1.trans hseq, hlt.trans_le hframe.dequeue_le, ?_,
      hframe.popping pos rfl⟩
    rw [hframe.operation]
    exact hframe.pops _ hmem
  | popRelease pos v =>
    obtain ⟨hseq, hlt, hmem, -, hvalue⟩ := h
    refine ⟨(hframe.claimed pos rfl).1.trans hseq, hlt.trans_le hframe.dequeue_le, ?_,
      hframe.popping pos rfl, (hframe.claimed pos rfl).2.trans hvalue⟩
    rw [hframe.operation]
    exact hframe.pops _ hmem

/-! ### Every step keeps the invariant -/

section Steps

variable [DecidableEq ι] {m m' : QueueSystem C T ι} {i : ι} {pt : QueuePoint T}

/-- Thread `i` has moved to a program point, inside the same call. -/
structure Moves (m m' : QueueSystem C T ι) (i : ι) (pt : QueuePoint T) : Prop where
  active : m.threads i ≠ .idle
  threads : m'.threads = Function.update m.threads i pt
  operation : m'.operation = m.operation
  operations : m'.operations = m.operations

theorem Moves.calls_lt (h : m.Moves m' i pt) (hrec : m.Recorded) (j : ι)
    (hj : m'.threads j ≠ .idle) : m'.operation j < m'.operations := by
  rw [h.operation, h.operations]
  by_cases hji : j = i
  · subst hji
    exact hrec.calls_lt j h.active
  · rw [h.threads, Function.update_of_ne hji] at hj
    exact hrec.calls_lt j hj

theorem Moves.calls_ne (h : m.Moves m' i pt) (hrec : m.Recorded) (j k : ι) (hne : j ≠ k)
    (hj : m'.threads j ≠ .idle) (hk : m'.threads k ≠ .idle) :
    m'.operation j ≠ m'.operation k := by
  -- a thread that is in a call after the step was in the same call before it
  have hbefore : ∀ j, m'.threads j ≠ .idle → m.threads j ≠ .idle := by
    intro j hj
    by_cases hji : j = i
    · subst hji
      exact h.active
    · rwa [h.threads, Function.update_of_ne hji] at hj
  rw [h.operation]
  exact hrec.calls_ne j k hne (hbefore j hj) (hbefore k hk)

theorem Moves.pushAccounted (h : m.Moves m' i pt) (hreleased : ∀ p ∈ m.released, p ∈ m'.released)
    (hkeep : ∀ value p, (m.threads i).pushing = some (value, p) →
      pt.pushing = some (value, p) ∨ p ∈ m'.released) {w : WonPush T}
    (hw : m.PushAccounted w) : m'.PushAccounted w := by
  rcases hw with hw | ⟨j, hop, hj⟩
  · exact .inl (hreleased _ hw)
  · by_cases hji : j = i
    · subst hji
      rcases hkeep _ _ hj with hpt | hrel
      · refine .inr ⟨j, by rw [h.operation, hop], ?_⟩
        rw [h.threads, Function.update_self, hpt]
      · exact .inl hrel
    · refine .inr ⟨j, by rw [h.operation, hop], ?_⟩
      rw [h.threads, Function.update_of_ne hji, hj]

theorem Moves.popAccounted (h : m.Moves m' i pt) (hreturned : ∀ x ∈ m.returned, x ∈ m'.returned)
    (hkeep : ∀ p, (m.threads i).popping = some p → pt.popping = some p ∨
      ∃ x ∈ m'.returned, x.operation = m.operation i ∧ x.ticket = p) {w : WonPop}
    (hw : m.PopAccounted w) : m'.PopAccounted w := by
  rcases hw with ⟨x, hx, hop, hticket⟩ | ⟨j, hop, hj⟩
  · exact .inl ⟨x, hreturned x hx, hop, hticket⟩
  · by_cases hji : j = i
    · subst hji
      rcases hkeep _ hj with hpt | ⟨x, hx, hxop, hticket⟩
      · refine .inr ⟨j, by rw [h.operation, hop], ?_⟩
        rw [h.threads, Function.update_self, hpt]
      · exact .inl ⟨x, hx, hxop.trans hop, hticket⟩
    · refine .inr ⟨j, by rw [h.operation, hop], ?_⟩
      rw [h.threads, Function.update_of_ne hji, hj]

theorem Moves.knows (h : m.Moves m' i pt) (hinv : m.Inv) (hi : m'.Knows i pt)
    (hframe : ∀ j, j ≠ i → m.Frame m' j (m.threads j)) (j : ι) : m'.Knows j (m'.threads j) := by
  rw [h.threads]
  by_cases hji : j = i
  · subst hji
    rwa [Function.update_self]
  · rw [Function.update_of_ne hji]
    exact (hinv.knows j).frame (hframe j hji)

/-- A move that touches no shared state. -/
theorem Inv.goto (h : m.Inv) (hi : m.threads i ≠ .idle) (hknows : m.Knows i pt)
    (hpush : pt.pushing = (m.threads i).pushing) (hpop : pt.popping = (m.threads i).popping) :
    (m.goto i pt).Inv := by
  have hmove : m.Moves (m.goto i pt) i pt := ⟨hi, rfl, rfl, rfl⟩
  have hframe : ∀ j pt', m.Knows j pt' → m.Frame (m.goto i pt) j pt' := fun j pt' hj =>
    { operation := rfl
      unsettled := fun _ hj => hj
      sequence_le := fun _ => le_rfl
      claimed := fun _ _ => ⟨rfl, rfl⟩
      enqueue_le := le_rfl
      dequeue_le := le_rfl
      pushing := fun _ _ hp => (hj.of_pushing hp).2.1
      pushes := fun _ hw => hw
      pops := fun _ hw => hw
      popping := fun _ hp => (hj.of_popping hp).2.2.2 }
  exact
    { pushTickets := h.pushTickets
      popTickets := h.popTickets
      pushCalls := h.pushCalls
      popCalls := h.popCalls
      pushCalls_lt := h.pushCalls_lt
      popCalls_lt := h.popCalls_lt
      calls_lt := hmove.calls_lt h.toRecorded
      calls_ne := hmove.calls_ne h.toRecorded
      returned := h.returned
      returnedTickets := h.returnedTickets
      pushesAccounted := fun w hw => hmove.pushAccounted (fun _ hp => hp)
        (fun _ _ hp => .inl (hpush.trans hp)) (h.pushesAccounted w hw)
      popsAccounted := fun w hw => hmove.popAccounted (fun _ hx => hx)
        (fun _ hp => .inl (hpop.trans hp)) (h.popsAccounted w hw)
      le := h.le
      le_add := h.le_add
      phase := h.phase
      knows := hmove.knows h (hknows.frame (hframe i pt hknows)) fun j _ =>
        hframe j _ (h.knows j) }

/-- A thread outside a call starts one. -/
theorem Inv.call (h : m.Inv) (hi : m.threads i = .idle)
    (hpt : ∀ m' : QueueSystem C T ι, m'.Unsettled i → m'.Knows i pt) : (m.call i pt).Inv := by
  have hop : ∀ j, j ≠ i → (m.call i pt).operation j = m.operation j := fun j hj =>
    Function.update_of_ne hj _ _
  have hopi : (m.call i pt).operation i = m.operations := Function.update_self _ _ _
  have hthread : ∀ j, j ≠ i → (m.call i pt).threads j = m.threads j := fun j hj =>
    Function.update_of_ne hj _ _
  have hthreadi : (m.call i pt).threads i = pt := Function.update_self _ _ _
  -- the number of the call is new
  have hnew : (m.call i pt).Unsettled i := by
    refine ⟨fun w hw => ?_, fun w hw => ?_⟩
    · rw [hopi]
      exact (h.pushCalls_lt w hw).ne
    · rw [hopi]
      exact (h.popCalls_lt w hw).ne
  have hframe : ∀ j, j ≠ i → m.Frame (m.call i pt) j (m.threads j) := fun j hj =>
    { operation := hop j hj
      unsettled := fun _ hun => by
        refine ⟨fun w hw => ?_, fun w hw => ?_⟩
        · rw [hop j hj]
          exact hun.1 w hw
        · rw [hop j hj]
          exact hun.2 w hw
      sequence_le := fun _ => le_rfl
      claimed := fun _ _ => ⟨rfl, rfl⟩
      enqueue_le := le_rfl
      dequeue_le := le_rfl
      pushing := fun _ _ hp => ((h.knows j).of_pushing hp).2.1
      pushes := fun _ hw => hw
      pops := fun _ hw => hw
      popping := fun _ hp => ((h.knows j).of_popping hp).2.2.2 }
  exact
    { pushTickets := h.pushTickets
      popTickets := h.popTickets
      pushCalls := h.pushCalls
      popCalls := h.popCalls
      pushCalls_lt := fun w hw => Nat.lt_succ_of_lt (h.pushCalls_lt w hw)
      popCalls_lt := fun w hw => Nat.lt_succ_of_lt (h.popCalls_lt w hw)
      calls_lt := fun j hj => by
        show _ < m.operations + 1
        by_cases hji : j = i
        · rw [hji, hopi]
          exact Nat.lt_succ_self _
        · rw [hthread j hji] at hj
          rw [hop j hji]
          exact Nat.lt_succ_of_lt (h.calls_lt j hj)
      calls_ne := fun j k hne hj hk => by
        by_cases hji : j = i
        · have hki : k ≠ i := fun hk => hne (hji.trans hk.symm)
          rw [hthread k hki] at hk
          rw [hji, hopi, hop k hki]
          exact (h.calls_lt k hk).ne'
        · rw [hthread j hji] at hj
          by_cases hki : k = i
          · rw [hki, hopi, hop j hji]
            exact (h.calls_lt j hj).ne
          · rw [hthread k hki] at hk
            rw [hop j hji, hop k hki]
            exact h.calls_ne j k hne hj hk
      returned := h.returned
      returnedTickets := h.returnedTickets
      pushesAccounted := fun w hw => by
        rcases h.pushesAccounted w hw with hw | ⟨j, hj, hin⟩
        · exact .inl hw
        · have hji : j ≠ i := fun hji => by
            rw [hji, hi] at hin
            cases hin
          exact .inr ⟨j, by rw [hop j hji, hj], by rw [hthread j hji, hin]⟩
      popsAccounted := fun w hw => by
        rcases h.popsAccounted w hw with hw | ⟨j, hj, hin⟩
        · exact .inl hw
        · have hji : j ≠ i := fun hji => by
            rw [hji, hi] at hin
            cases hin
          exact .inr ⟨j, by rw [hop j hji, hj], by rw [hthread j hji, hin]⟩
      le := h.le
      le_add := h.le_add
      phase := h.phase
      knows := fun j => by
        by_cases hji : j = i
        · rw [hji, hthreadi]
          exact hpt _ hnew
        · rw [hthread j hji]
          exact (h.knows j).frame (hframe j hji) }

/-- A push wins its ticket. -/
theorem Inv.winPush (h : m.Inv) (hops : m.operations < 2 ^ 63) {value : T} {pos : ℕ}
    (hi : m.threads i = .pushSwap value pos) (hpos : m.queue.enqueue = pos)
    (hthreads : m'.threads = Function.update m.threads i (.pushWrite value pos))
    (hqueue : m'.queue = { m.queue with enqueue := (pos + 1) % 2 ^ 64 })
    (hpushes : m'.pushes = m.pushes ++ [⟨m.operation i, pos, value⟩])
    (hrest : m'.operation = m.operation ∧ m'.operations = m.operations ∧
      m'.released = m.released ∧ m'.pops = m.pops ∧ m'.returned = m.returned) : m'.Inv := by
  obtain ⟨hoperation, hoperations, hreleased, hpops, hreturned⟩ := hrest
  have hactive : m.threads i ≠ .idle := by simp [hi]
  have hmove : m.Moves m' i (.pushWrite value pos) := ⟨hactive, hthreads, hoperation, hoperations⟩
  have hknows := h.knows i
  rw [hi] at hknows
  obtain ⟨hnew, hseen⟩ := hknows
  obtain ⟨hseq, hlow, hhigh⟩ := h.vacant_of_le hpos hseen
  have hlt := h.enqueue_lt hactive hnew
  -- the counter does not wrap
  have henq : m'.queue.enqueue = pos + 1 := by
    rw [hqueue]
    exact Nat.mod_eq_of_lt (by omega)
  have hdeq : m'.queue.dequeue = m.queue.dequeue := by rw [hqueue]
  have hseq' : ∀ p, m'.queue.sequenceAt p = m.queue.sequenceAt p := fun p => by rw [hqueue]; rfl
  have hval' : ∀ p, m'.queue.valueAt p = m.queue.valueAt p := fun p => by rw [hqueue]; rfl
  have hsub : ∀ w ∈ m.pushes, w ∈ m'.pushes := fun w hw => by
    rw [hpushes]
    exact List.mem_append_left _ hw
  have hwon : (⟨m.operation i, pos, value⟩ : WonPush T) ∈ m'.pushes := by
    rw [hpushes]
    exact List.mem_append_right _ (List.mem_singleton_self _)
  have hframe : ∀ j, j ≠ i → m.Frame m' j (m.threads j) := fun j hj =>
    { operation := by rw [hoperation]
      unsettled := fun hidle hun => by
        refine ⟨fun w hw => ?_, fun w hw => ?_⟩
        · rw [hoperation]
          rw [hpushes] at hw
          rcases List.mem_append.mp hw with hw | hw
          · exact hun.1 w hw
          · rw [List.mem_singleton.mp hw]
            exact h.calls_ne i j (Ne.symm hj) hactive hidle
        · rw [hoperation]
          exact hun.2 w (hpops ▸ hw)
      sequence_le := fun p => (hseq' p).ge
      claimed := fun p _ => ⟨hseq' p, hval' p⟩
      enqueue_le := by omega
      dequeue_le := hdeq.ge
      pushing := fun _ _ hp => hdeq.trans_le ((h.knows j).of_pushing hp).2.1
      pushes := hsub
      pops := fun w hw => hpops ▸ hw
      popping := fun _ hp => hreturned ▸ ((h.knows j).of_popping hp).2.2.2 }
  exact
    { pushTickets := by
        rw [hpushes, List.map_append, h.pushTickets, henq, List.range_succ, hpos]
        rfl
      popTickets := by rw [hpops, hdeq, h.popTickets]
      pushCalls := by
        rw [hpushes, List.map_append]
        refine List.nodup_append.mpr ⟨h.pushCalls, List.nodup_singleton _, fun a ha b hb => ?_⟩
        obtain ⟨w, hw, rfl⟩ := List.mem_map.mp ha
        rw [List.map_singleton, List.mem_singleton] at hb
        rw [hb]
        exact hnew.1 w hw
      popCalls := hpops ▸ h.popCalls
      pushCalls_lt := fun w hw => by
        rw [hoperations]
        rw [hpushes] at hw
        rcases List.mem_append.mp hw with hw | hw
        · exact h.pushCalls_lt w hw
        · rw [List.mem_singleton.mp hw]
          exact h.calls_lt i hactive
      popCalls_lt := fun w hw => by
        rw [hoperations]
        exact h.popCalls_lt w (hpops ▸ hw)
      calls_lt := hmove.calls_lt h.toRecorded
      calls_ne := hmove.calls_ne h.toRecorded
      returned := fun x hx => by
        obtain ⟨hpop, hrel, w, hw, hticket⟩ := h.returned x (hreturned ▸ hx)
        exact ⟨hpops ▸ hpop, hreleased ▸ hrel, w, hsub w hw, hticket⟩
      returnedTickets := hreturned ▸ h.returnedTickets
      pushesAccounted := fun w hw => by
        rw [hpushes] at hw
        rcases List.mem_append.mp hw with hw | hw
        · refine hmove.pushAccounted (fun _ hp => hreleased ▸ hp) (fun _ _ hp => ?_)
            (h.pushesAccounted w hw)
          rw [hi] at hp
          cases hp
        · rw [List.mem_singleton.mp hw]
          refine .inr ⟨i, by rw [hoperation], ?_⟩
          rw [hthreads, Function.update_self]
          rfl
      popsAccounted := fun w hw => by
        refine hmove.popAccounted (fun _ hx => hreturned ▸ hx) (fun _ hp => ?_)
          (h.popsAccounted w (hpops ▸ hw))
        rw [hi] at hp
        cases hp
      le := by have := h.le; omega
      le_add := by omega
      phase := fun a => by
        obtain ⟨p, hslot, ⟨hp, hplow, hphigh⟩ | ⟨hp, hplow, hphigh, hrel, w, hw, hvalue⟩⟩ :=
          h.phase a
        · exact ⟨p, hslot, .inl ⟨(hseq' p).trans hp, hdeq.trans_le hplow, hdeq.symm ▸ hphigh⟩⟩
        · -- a filled cell for `pos - Capacity` would be the cell of `pos`, which is vacant
          have hne : p + C.value ≠ pos := fun heq => by
            have hcell : slot C p = slot C pos := by rw [← heq, slot_add_capacity]
            have htwo := C.two_le
            rw [sequenceAt_congr hcell] at hp
            omega
          refine ⟨p, hslot, .inr ⟨(hseq' p).trans hp, by omega, by omega, hreleased ▸ hrel, w,
            hsub w hw, ?_⟩⟩
          rw [hval' p]
          exact hvalue
      knows := hmove.knows h
        ⟨(hseq' pos).trans hseq, hdeq.trans_le hlow, by omega, hoperation ▸ hwon⟩ hframe }

/-- A pop wins its ticket. -/
theorem Inv.winPop (h : m.Inv) (hops : m.operations < 2 ^ 63) {pos : ℕ}
    (hi : m.threads i = .popSwap pos) (hpos : m.queue.dequeue = pos)
    (hthreads : m'.threads = Function.update m.threads i (.popRead pos))
    (hqueue : m'.queue = { m.queue with dequeue := (pos + 1) % 2 ^ 64 })
    (hpops : m'.pops = m.pops ++ [⟨m.operation i, pos⟩])
    (hrest : m'.operation = m.operation ∧ m'.operations = m.operations ∧
      m'.released = m.released ∧ m'.pushes = m.pushes ∧ m'.returned = m.returned) : m'.Inv := by
  obtain ⟨hoperation, hoperations, hreleased, hpushes, hreturned⟩ := hrest
  have hactive : m.threads i ≠ .idle := by simp [hi]
  have hmove : m.Moves m' i (.popRead pos) := ⟨hactive, hthreads, hoperation, hoperations⟩
  have hknows := h.knows i
  rw [hi] at hknows
  obtain ⟨hnew, hseen⟩ := hknows
  have hseq := (h.filled_of_lt hpos hseen).1
  have hlt := (h.filled_of_lt hpos hseen).2.1
  have henq' := h.enqueue_le
  -- the counter does not wrap
  have hdeq : m'.queue.dequeue = pos + 1 := by
    rw [hqueue]
    exact Nat.mod_eq_of_lt (by omega)
  have henq : m'.queue.enqueue = m.queue.enqueue := by rw [hqueue]
  have hseq' : ∀ p, m'.queue.sequenceAt p = m.queue.sequenceAt p := fun p => by rw [hqueue]; rfl
  have hval' : ∀ p, m'.queue.valueAt p = m.queue.valueAt p := fun p => by rw [hqueue]; rfl
  have hsub : ∀ w ∈ m.pops, w ∈ m'.pops := fun w hw => by
    rw [hpops]
    exact List.mem_append_left _ hw
  have hwon : (⟨m.operation i, pos⟩ : WonPop) ∈ m'.pops := by
    rw [hpops]
    exact List.mem_append_right _ (List.mem_singleton_self _)
  -- the cell of `pos` is filled, so no ticket of its class but `pos` is a position below
  have hvacant : ∀ p, m.queue.sequenceAt p = p → m.queue.dequeue ≤ p → pos + 1 ≤ p := by
    intro p hp hle
    by_contra hlt
    obtain rfl : p = pos := by omega
    omega
  have hframe : ∀ j, j ≠ i → m.Frame m' j (m.threads j) := fun j hj =>
    { operation := by rw [hoperation]
      unsettled := fun hidle hun => by
        refine ⟨fun w hw => ?_, fun w hw => ?_⟩
        · rw [hoperation]
          exact hun.1 w (hpushes ▸ hw)
        · rw [hoperation]
          rw [hpops] at hw
          rcases List.mem_append.mp hw with hw | hw
          · exact hun.2 w hw
          · rw [List.mem_singleton.mp hw]
            exact h.calls_ne i j (Ne.symm hj) hactive hidle
      sequence_le := fun p => (hseq' p).ge
      claimed := fun p _ => ⟨hseq' p, hval' p⟩
      enqueue_le := henq.ge
      dequeue_le := by omega
      pushing := fun v p hp => by
        obtain ⟨hseqp, hlow, -⟩ := (h.knows j).of_pushing hp
        exact hdeq.trans_le (hvacant p hseqp hlow)
      pushes := fun w hw => hpushes ▸ hw
      pops := hsub
      popping := fun _ hp => hreturned ▸ ((h.knows j).of_popping hp).2.2.2 }
  exact
    { pushTickets := by rw [hpushes, henq, h.pushTickets]
      popTickets := by
        rw [hpops, List.map_append, h.popTickets, hdeq, List.range_succ, hpos]
        rfl
      pushCalls := hpushes ▸ h.pushCalls
      popCalls := by
        rw [hpops, List.map_append]
        refine List.nodup_append.mpr ⟨h.popCalls, List.nodup_singleton _, fun a ha b hb => ?_⟩
        obtain ⟨w, hw, rfl⟩ := List.mem_map.mp ha
        rw [List.map_singleton, List.mem_singleton] at hb
        rw [hb]
        exact hnew.2 w hw
      pushCalls_lt := fun w hw => by
        rw [hoperations]
        exact h.pushCalls_lt w (hpushes ▸ hw)
      popCalls_lt := fun w hw => by
        rw [hoperations]
        rw [hpops] at hw
        rcases List.mem_append.mp hw with hw | hw
        · exact h.popCalls_lt w hw
        · rw [List.mem_singleton.mp hw]
          exact h.calls_lt i hactive
      calls_lt := hmove.calls_lt h.toRecorded
      calls_ne := hmove.calls_ne h.toRecorded
      returned := fun x hx => by
        obtain ⟨hpop, hrel, w, hw, hticket⟩ := h.returned x (hreturned ▸ hx)
        exact ⟨hsub _ hpop, hreleased ▸ hrel, w, hpushes ▸ hw, hticket⟩
      returnedTickets := hreturned ▸ h.returnedTickets
      pushesAccounted := fun w hw => by
        refine hmove.pushAccounted (fun _ hp => hreleased ▸ hp) (fun _ _ hp => ?_)
          (h.pushesAccounted w (hpushes ▸ hw))
        rw [hi] at hp
        cases hp
      popsAccounted := fun w hw => by
        rw [hpops] at hw
        rcases List.mem_append.mp hw with hw | hw
        · refine hmove.popAccounted (fun _ hx => hreturned ▸ hx) (fun _ hp => ?_)
            (h.popsAccounted w hw)
          rw [hi] at hp
          cases hp
        · rw [List.mem_singleton.mp hw]
          refine .inr ⟨i, by rw [hoperation], ?_⟩
          rw [hthreads, Function.update_self]
          rfl
      le := by omega
      le_add := by have := h.le_add; omega
      phase := fun a => by
        obtain ⟨p, hslot, ⟨hp, hplow, hphigh⟩ | ⟨hp, hplow, hphigh, hrel, w, hw, hvalue⟩⟩ :=
          h.phase a
        · exact ⟨p, hslot, .inl ⟨(hseq' p).trans hp, hdeq.trans_le (hvacant p hp hplow),
            by omega⟩⟩
        · refine ⟨p, hslot, .inr ⟨(hseq' p).trans hp, henq.symm ▸ hplow, henq.symm ▸ hphigh,
            hreleased ▸ hrel, w, hpushes ▸ hw, ?_⟩⟩
          rw [hval' p]
          exact hvalue
      knows := by
        refine hmove.knows h ⟨(hseq' pos).trans hseq, by omega, hoperation ▸ hwon, ?_⟩ hframe
        intro x hx heq
        have hticket : x.ticket < m.queue.dequeue :=
          h.popTicket_lt (h.returned x (hreturned ▸ hx)).1
        omega }

/-- A push writes its value. -/
theorem Inv.write (h : m.Inv) {value : T} {pos : ℕ} (hi : m.threads i = .pushWrite value pos) :
    ({ m.goto i (.pushRelease value pos) with queue := m.queue.setValue pos value } :
      QueueSystem C T ι).Inv := by
  have hactive : m.threads i ≠ .idle := by simp [hi]
  have hmove : m.Moves { m.goto i (.pushRelease value pos) with
      queue := m.queue.setValue pos value } i (.pushRelease value pos) := ⟨hactive, rfl, rfl, rfl⟩
  have hclaim : (m.threads i).claim = some pos := by rw [hi]; rfl
  have hknows := h.knows i
  rw [hi] at hknows
  obtain ⟨hseq, hlow, hhigh, hmem⟩ := hknows
  have hframe : ∀ j, j ≠ i → m.Frame { m.goto i (.pushRelease value pos) with
      queue := m.queue.setValue pos value } j (m.threads j) := fun j hj =>
    { operation := rfl
      unsettled := fun _ hun => hun
      sequence_le := fun p => (sequenceAt_setValue _ _ _ _).ge
      claimed := fun p hp => by
        refine ⟨sequenceAt_setValue _ _ _ _, ?_⟩
        rw [valueAt_setValue, if_neg (h.exclusive hj hp hclaim)]
      enqueue_le := le_rfl
      dequeue_le := le_rfl
      pushing := fun _ _ hp => ((h.knows j).of_pushing hp).2.1
      pushes := fun _ hw => hw
      pops := fun _ hw => hw
      popping := fun _ hp => ((h.knows j).of_popping hp).2.2.2 }
  exact
    { pushTickets := h.pushTickets
      popTickets := h.popTickets
      pushCalls := h.pushCalls
      popCalls := h.popCalls
      pushCalls_lt := h.pushCalls_lt
      popCalls_lt := h.popCalls_lt
      calls_lt := hmove.calls_lt h.toRecorded
      calls_ne := hmove.calls_ne h.toRecorded
      returned := h.returned
      returnedTickets := h.returnedTickets
      -- the push has yet to release its cell
      pushesAccounted := fun w hw => by
        refine hmove.pushAccounted (fun _ hp => hp) (fun v p hp => .inl ?_)
          (h.pushesAccounted w hw)
        rw [hi] at hp
        exact hp
      popsAccounted := fun w hw => by
        refine hmove.popAccounted (fun _ hx => hx) (fun _ hp => ?_) (h.popsAccounted w hw)
        rw [hi] at hp
        cases hp
      le := h.le
      le_add := h.le_add
      phase := fun a => by
        obtain ⟨p, hslot, ⟨hp, hwindow⟩ | ⟨hp, hplow, hphigh, hrel, w, hw, hticket, hvalue⟩⟩ :=
          h.phase a
        · exact ⟨p, hslot, .inl ⟨(sequenceAt_setValue _ _ _ _).trans hp, hwindow⟩⟩
        · -- the written cell is vacant, so a filled cell is another one
          have hne : slot C p ≠ slot C pos := fun hcell => by
            rw [sequenceAt_congr hcell, hseq] at hp
            exact slot_succ_ne p (hp ▸ hcell.symm)
          refine ⟨p, hslot, .inr ⟨(sequenceAt_setValue _ _ _ _).trans hp, hplow, hphigh, hrel, w,
            hw, hticket, ?_⟩⟩
          show w.value = (m.queue.setValue pos value).valueAt p
          rw [valueAt_setValue, if_neg hne]
          exact hvalue
      knows := by
        refine hmove.knows h
          ⟨(sequenceAt_setValue _ _ _ _).trans hseq, hlow, hhigh, hmem, ?_⟩ hframe
        show (m.queue.setValue pos value).valueAt pos = value
        rw [valueAt_setValue, if_pos rfl] }

omit [DecidableEq ι] in
/-- A release of the claimed cell of `pos`, as the other threads see it. -/
theorem Inv.frame_release (h : m.Inv) {pos sequence : ℕ} (hclaim : (m.threads i).claim = some pos)
    (hle : m.queue.sequenceAt pos ≤ sequence)
    (hqueue : m'.queue = m.queue.setSequence pos sequence)
    (hrest : m'.operation = m.operation ∧ m'.pushes = m.pushes ∧ m'.pops = m.pops)
    {j : ι} (hj : j ≠ i)
    (hreturned : ∀ p, (m.threads j).popping = some p → ∀ x ∈ m'.returned, x.ticket ≠ p) :
    m.Frame m' j (m.threads j) where
  operation := by rw [hrest.1]
  unsettled _ hun := by
    refine ⟨fun w hw => ?_, fun w hw => ?_⟩
    · rw [hrest.1]
      exact hun.1 w (hrest.2.1 ▸ hw)
    · rw [hrest.1]
      exact hun.2 w (hrest.2.2 ▸ hw)
  sequence_le p := by
    rw [hqueue, sequenceAt_setSequence]
    split
    · rename_i hslot
      rwa [sequenceAt_congr hslot]
    · exact le_rfl
  claimed p hp := by
    rw [hqueue, sequenceAt_setSequence, if_neg (h.exclusive hj hp hclaim), valueAt_setSequence]
    exact ⟨rfl, rfl⟩
  enqueue_le := by rw [hqueue]; exact le_rfl
  dequeue_le := by rw [hqueue]; exact le_rfl
  pushing _ _ hp := by
    rw [hqueue]
    exact ((h.knows j).of_pushing hp).2.1
  pushes w hw := hrest.2.1 ▸ hw
  pops w hw := hrest.2.2 ▸ hw
  popping := hreturned

/-- A push releases its cell. -/
theorem Inv.releasePush (h : m.Inv) (hops : m.operations < 2 ^ 63) {value : T} {pos : ℕ}
    (hi : m.threads i = .pushRelease value pos)
    (hthreads : m'.threads = Function.update m.threads i .idle)
    (hqueue : m'.queue = m.queue.setSequence pos ((pos + 1) % 2 ^ 64))
    (hreleased : m'.released = m.released ++ [pos])
    (hrest : m'.operation = m.operation ∧ m'.operations = m.operations ∧
      m'.pushes = m.pushes ∧ m'.pops = m.pops ∧ m'.returned = m.returned) : m'.Inv := by
  obtain ⟨hoperation, hoperations, hpushes, hpops, hreturned⟩ := hrest
  have hmove : m.Moves m' i .idle := ⟨by simp [hi], hthreads, hoperation, hoperations⟩
  have hclaim : (m.threads i).claim = some pos := by rw [hi]; rfl
  have hknows := h.knows i
  rw [hi] at hknows
  obtain ⟨hseq, hlow, hhigh, hmem, hvalue⟩ := hknows
  have henq := h.enqueue_le
  have hadd := h.le_add
  rw [Nat.mod_eq_of_lt (by omega)] at hqueue
  have hsub : ∀ p ∈ m.released, p ∈ m'.released := fun p hp => by
    rw [hreleased]
    exact List.mem_append_left _ hp
  have hdone : pos ∈ m'.released := by
    rw [hreleased]
    exact List.mem_append_right _ (List.mem_singleton_self _)
  exact
    { pushTickets := by rw [hpushes, hqueue]; exact h.pushTickets
      popTickets := by rw [hpops, hqueue]; exact h.popTickets
      pushCalls := hpushes ▸ h.pushCalls
      popCalls := hpops ▸ h.popCalls
      pushCalls_lt := by rw [hpushes, hoperations]; exact h.pushCalls_lt
      popCalls_lt := by rw [hpops, hoperations]; exact h.popCalls_lt
      calls_lt := hmove.calls_lt h.toRecorded
      calls_ne := hmove.calls_ne h.toRecorded
      returned := fun x hx => by
        obtain ⟨hpop, hrel, w, hw, hticket⟩ := h.returned x (hreturned ▸ hx)
        exact ⟨hpops ▸ hpop, hsub _ hrel, w, hpushes ▸ hw, hticket⟩
      returnedTickets := hreturned ▸ h.returnedTickets
      pushesAccounted := fun w hw => by
        refine hmove.pushAccounted hsub (fun v p hp => .inr ?_)
          (h.pushesAccounted w (hpushes ▸ hw))
        rw [hi] at hp
        obtain ⟨-, rfl⟩ : value = v ∧ pos = p := by simpa [QueuePoint.pushing] using hp
        exact hdone
      popsAccounted := fun w hw => by
        refine hmove.popAccounted (fun _ hx => hreturned ▸ hx) (fun _ hp => ?_)
          (h.popsAccounted w (hpops ▸ hw))
        rw [hi] at hp
        cases hp
      le := by rw [hqueue]; exact h.le
      le_add := by rw [hqueue]; exact h.le_add
      phase := fun a => by
        by_cases hcell : slot C a = slot C pos
        · -- the released cell is filled for the ticket of the push
          refine ⟨pos, hcell.symm, .inr ⟨?_, ?_, ?_, hdone, ⟨m.operation i, pos, value⟩,
            hpushes ▸ hmem, rfl, ?_⟩⟩
          · rw [hqueue, sequenceAt_setSequence, if_pos rfl]
          · rw [hqueue]
            exact hhigh
          · rw [hqueue]
            show m.queue.enqueue ≤ pos + C.value
            omega
          · rw [hqueue, valueAt_setSequence, hvalue]
        · obtain ⟨p, hslot, ⟨hp, hwindow⟩ | ⟨hp, hplow, hphigh, hrel, w, hw, hval⟩⟩ := h.phase a
          · refine ⟨p, hslot, .inl ⟨?_, by rw [hqueue]; exact hwindow⟩⟩
            rwa [hqueue, sequenceAt_setSequence, if_neg (hslot ▸ hcell)]
          · refine ⟨p, hslot, .inr ⟨?_, by rw [hqueue]; exact hplow, by rw [hqueue]; exact hphigh,
              hsub _ hrel, w, hpushes ▸ hw, ?_⟩⟩
            · rwa [hqueue, sequenceAt_setSequence, if_neg (hslot ▸ hcell)]
            · rwa [hqueue, valueAt_setSequence]
      knows := hmove.knows h trivial fun j hj =>
        h.frame_release hclaim (by omega) hqueue ⟨hoperation, hpushes, hpops⟩ hj fun _ hp =>
          hreturned ▸ ((h.knows j).of_popping hp).2.2.2 }

/-- A pop releases its cell and returns. -/
theorem Inv.releasePop (h : m.Inv) (hops : m.operations < 2 ^ 63) {value : T} {pos : ℕ}
    (hi : m.threads i = .popRelease pos value)
    (hthreads : m'.threads = Function.update m.threads i .idle)
    (hqueue : m'.queue = m.queue.setSequence pos ((pos + C.value) % 2 ^ 64))
    (hreturned : m'.returned = m.returned ++ [⟨m.operation i, pos, value⟩])
    (hrest : m'.operation = m.operation ∧ m'.operations = m.operations ∧
      m'.pushes = m.pushes ∧ m'.pops = m.pops ∧ m'.released = m.released) : m'.Inv := by
  obtain ⟨hoperation, hoperations, hpushes, hpops, hreleased⟩ := hrest
  have hmove : m.Moves m' i .idle := ⟨by simp [hi], hthreads, hoperation, hoperations⟩
  have hclaim : (m.threads i).claim = some pos := by rw [hi]; rfl
  have hknows := h.knows i
  rw [hi] at hknows
  obtain ⟨hseq, hlow, hmem, hnew, hvalue⟩ := hknows
  -- the cell is filled, so the value read is that of the push with the same ticket
  obtain ⟨-, hhigh, hwindow, hrel, won, hwon, hticket, hwonValue⟩ := h.filled_of_eq hseq
  have henq := h.enqueue_le
  have hle := h.le
  have hcap := C.value_le
  have htwo := C.two_le
  rw [Nat.mod_eq_of_lt (by omega)] at hqueue
  have hsub : ∀ x ∈ m.returned, x ∈ m'.returned := fun x hx => by
    rw [hreturned]
    exact List.mem_append_left _ hx
  exact
    { pushTickets := by rw [hpushes, hqueue]; exact h.pushTickets
      popTickets := by rw [hpops, hqueue]; exact h.popTickets
      pushCalls := hpushes ▸ h.pushCalls
      popCalls := hpops ▸ h.popCalls
      pushCalls_lt := by rw [hpushes, hoperations]; exact h.pushCalls_lt
      popCalls_lt := by rw [hpops, hoperations]; exact h.popCalls_lt
      calls_lt := hmove.calls_lt h.toRecorded
      calls_ne := hmove.calls_ne h.toRecorded
      returned := fun x hx => by
        rw [hpops, hreleased, hpushes]
        rw [hreturned] at hx
        rcases List.mem_append.mp hx with hx | hx
        · exact h.returned x hx
        · rw [List.mem_singleton.mp hx]
          exact ⟨hmem, hrel, won, hwon, hticket, hwonValue.trans hvalue⟩
      returnedTickets := by
        rw [hreturned, List.map_append]
        refine List.nodup_append.mpr
          ⟨h.returnedTickets, List.nodup_singleton _, fun a ha b hb => ?_⟩
        obtain ⟨x, hx, rfl⟩ := List.mem_map.mp ha
        rw [List.map_singleton, List.mem_singleton] at hb
        rw [hb]
        exact hnew x hx
      pushesAccounted := fun w hw => by
        refine hmove.pushAccounted (fun _ hp => hreleased ▸ hp) (fun v p hp => ?_)
          (h.pushesAccounted w (hpushes ▸ hw))
        rw [hi] at hp
        cases hp
      popsAccounted := fun w hw => by
        refine hmove.popAccounted hsub (fun p hp => .inr ?_) (h.popsAccounted w (hpops ▸ hw))
        rw [hi] at hp
        obtain rfl : pos = p := by simpa [QueuePoint.popping] using hp
        refine ⟨⟨m.operation i, pos, value⟩, ?_, rfl, rfl⟩
        rw [hreturned]
        exact List.mem_append_right _ (List.mem_singleton_self _)
      le := by rw [hqueue]; exact h.le
      le_add := by rw [hqueue]; exact h.le_add
      phase := fun a => by
        by_cases hcell : slot C a = slot C pos
        · -- the released cell is vacant for the next ticket of its class
          refine ⟨pos + C.value, by rw [slot_add_capacity, hcell], .inl ⟨?_, ?_, ?_⟩⟩
          · rw [hqueue, sequenceAt_setSequence, slot_add_capacity, if_pos rfl]
          · rw [hqueue]
            show m.queue.dequeue ≤ pos + C.value
            omega
          · rw [hqueue]
            show pos + C.value < m.queue.dequeue + C.value
            omega
        · obtain ⟨p, hslot, ⟨hp, hlimits⟩ | ⟨hp, hplow, hphigh, hprel, w, hw, hval⟩⟩ := h.phase a
          · refine ⟨p, hslot, .inl ⟨?_, by rw [hqueue]; exact hlimits⟩⟩
            rwa [hqueue, sequenceAt_setSequence, if_neg (hslot ▸ hcell)]
          · refine ⟨p, hslot, .inr ⟨?_, by rw [hqueue]; exact hplow, by rw [hqueue]; exact hphigh,
              hreleased ▸ hprel, w, hpushes ▸ hw, ?_⟩⟩
            · rwa [hqueue, sequenceAt_setSequence, if_neg (hslot ▸ hcell)]
            · rwa [hqueue, valueAt_setSequence]
      knows := hmove.knows h trivial fun j hj =>
        h.frame_release hclaim (by omega) hqueue ⟨hoperation, hpushes, hpops⟩ hj fun p hp x hx => by
          rw [hreturned] at hx
          rcases List.mem_append.mp hx with hx | hx
          · exact ((h.knows j).of_popping hp).2.2.2 x hx
          · rw [List.mem_singleton.mp hx]
            intro heq
            exact h.exclusive hj (QueuePoint.claim_of_popping hp) hclaim
              (congrArg (slot C) heq.symm) }

/-- The next access of a thread. -/
theorem Inv.access (h : m.Inv) (hops : m.operations < 2 ^ 63) {spurious : Bool}
    (hs : m.access i spurious (m.threads i) = some m') : m'.Inv := by
  have henq := h.enqueue_le
  have hle := h.le
  have hknows := h.knows i
  generalize hi : m.threads i = pt at hs hknows
  cases pt with
  | idle => cases hs
  | pushLoad value =>
    obtain rfl := Option.some.inj hs
    exact h.goto (by simp [hi]) ⟨hknows, by omega⟩ (by rw [hi]; rfl) (by rw [hi]; rfl)
  | pushSequence value pos =>
    -- sequences stay below 2 ^ 63, so the signed difference of the source is that of the numbers
    obtain ⟨hnew, hlt⟩ := hknows
    simp only [QueueSystem.access] at hs
    split at hs
    · rename_i hdif
      have hseq := difference_eq_zero (h.sequenceAt_lt hops pos) (by omega) hdif
      obtain rfl := Option.some.inj hs
      exact h.goto (by simp [hi]) ⟨hnew, hseq.ge⟩ (by rw [hi]; rfl) (by rw [hi]; rfl)
    · split at hs
      · obtain rfl := Option.some.inj hs
        exact h.goto (by simp [hi]) trivial (by rw [hi]; rfl) (by rw [hi]; rfl)
      · obtain rfl := Option.some.inj hs
        exact h.goto (by simp [hi]) hnew (by rw [hi]; rfl) (by rw [hi]; rfl)
  | pushSwap value pos =>
    simp only [QueueSystem.access] at hs
    split at hs
    · rename_i hwin
      obtain rfl := Option.some.inj hs
      exact h.winPush hops hi hwin.1 rfl rfl rfl ⟨rfl, rfl, rfl, rfl, rfl⟩
    · obtain rfl := Option.some.inj hs
      exact h.goto (by simp [hi]) ⟨hknows.1, by omega⟩ (by rw [hi]; rfl) (by rw [hi]; rfl)
  | pushWrite value pos =>
    obtain rfl := Option.some.inj hs
    exact h.write hi
  | pushRelease value pos =>
    obtain rfl := Option.some.inj hs
    exact h.releasePush hops hi rfl rfl rfl ⟨rfl, rfl, rfl, rfl, rfl⟩
  | popLoad =>
    obtain rfl := Option.some.inj hs
    exact h.goto (by simp [hi]) ⟨hknows, by omega⟩ (by rw [hi]; rfl) (by rw [hi]; rfl)
  | popSequence pos =>
    obtain ⟨hnew, hlt⟩ := hknows
    simp only [QueueSystem.access] at hs
    split at hs
    · rename_i hdif
      have hseq := difference_eq_zero (h.sequenceAt_lt hops pos) (Nat.mod_lt _ (by decide)) hdif
      rw [Nat.mod_eq_of_lt (by omega)] at hseq
      obtain rfl := Option.some.inj hs
      exact h.goto (by simp [hi]) ⟨hnew, hseq.ge⟩ (by rw [hi]; rfl) (by rw [hi]; rfl)
    · split at hs
      · obtain rfl := Option.some.inj hs
        exact h.goto (by simp [hi]) trivial (by rw [hi]; rfl) (by rw [hi]; rfl)
      · obtain rfl := Option.some.inj hs
        exact h.goto (by simp [hi]) hnew (by rw [hi]; rfl) (by rw [hi]; rfl)
  | popSwap pos =>
    simp only [QueueSystem.access] at hs
    split at hs
    · rename_i hwin
      obtain rfl := Option.some.inj hs
      exact h.winPop hops hi hwin.1 rfl rfl rfl ⟨rfl, rfl, rfl, rfl, rfl⟩
    · obtain rfl := Option.some.inj hs
      exact h.goto (by simp [hi]) ⟨hknows.1, by omega⟩ (by rw [hi]; rfl) (by rw [hi]; rfl)
  | popRead pos =>
    obtain rfl := Option.some.inj hs
    obtain ⟨hseq, hlow, hmem, hnew⟩ := hknows
    exact h.goto (by simp [hi]) ⟨hseq, hlow, hmem, hnew, rfl⟩ (by rw [hi]; rfl) (by rw [hi]; rfl)
  | popRelease pos value =>
    obtain rfl := Option.some.inj hs
    exact h.releasePop hops hi rfl rfl rfl ⟨rfl, rfl, rfl, rfl, rfl⟩

/-- An access starts no call. -/
theorem access_operations {spurious : Bool} (hs : m.access i spurious pt = some m') :
    m'.operations = m.operations := by
  cases pt <;> simp only [QueueSystem.access] at hs
  case idle => cases hs
  all_goals (repeat' split at hs) <;> obtain rfl := Option.some.inj hs <;> rfl

/-- Every step keeps the invariant as long as the number of calls is far from wrapping. -/
theorem Inv.step {a : QueueAction T ι} (h : m.operations < 2 ^ 63 → m.Inv)
    (hs : m.step a = some m') (hops : m'.operations < 2 ^ 63) : m'.Inv := by
  cases a with
  | tryPush i value =>
    simp only [QueueSystem.step] at hs
    split at hs
    · rename_i hi
      obtain rfl := Option.some.inj hs
      exact (h (Nat.lt_of_succ_lt hops)).call hi fun _ hnew => hnew
    · cases hs
  | tryPop i =>
    simp only [QueueSystem.step] at hs
    split at hs
    · rename_i hi
      obtain rfl := Option.some.inj hs
      exact (h (Nat.lt_of_succ_lt hops)).call hi fun _ hnew => hnew
    · cases hs
  | access i spurious =>
    have hlt : m.operations < 2 ^ 63 := access_operations hs ▸ hops
    exact (h hlt).access hlt hs

omit [DecidableEq ι] in
theorem Inv.new [Inhabited T] : (QueueSystem.new C T ι).Inv where
  pushTickets := rfl
  popTickets := rfl
  pushCalls := List.nodup_nil
  popCalls := List.nodup_nil
  pushCalls_lt _ hw := absurd hw List.not_mem_nil
  popCalls_lt _ hw := absurd hw List.not_mem_nil
  calls_lt _ hi := absurd rfl hi
  calls_ne _ _ _ hi := absurd rfl hi
  returned _ hx := absurd hx List.not_mem_nil
  returnedTickets := List.nodup_nil
  pushesAccounted _ hw := absurd hw List.not_mem_nil
  popsAccounted _ hw := absurd hw List.not_mem_nil
  le := le_rfl
  le_add := Nat.zero_le _
  phase pos := by
    have hlt : pos % C.value < C.value := Nat.mod_lt _ (by have := C.two_le; omega)
    have hslot : slot C (pos % C.value) = slot C pos := by rw [slot_eq_iff, Nat.mod_mod]
    refine ⟨pos % C.value, hslot, .inl ⟨?_, Nat.zero_le _, ?_⟩⟩
    · show ((slot C (pos % C.value) : Fin C.value) : ℕ) = pos % C.value
      rw [hslot]
      exact C.and_eq_mod pos
    · show pos % C.value < 0 + C.value
      omega
  knows _ := trivial

/-- The invariant holds in every run of fewer than `2 ^ 63` calls. -/
theorem Inv.steps [Inhabited T] {ok : QueueSystem C T ι → QueueAction T ι → Prop}
    (h : Foundation.Steps QueueSystem.step ok (QueueSystem.new C T ι) m)
    (hops : m.operations < 2 ^ 63) : m.Inv :=
  h.invariant (P := fun m => m.operations < 2 ^ 63 → m.Inv) (fun _ => Inv.new)
    (fun _ _ _ hinv _ hs hops => Inv.step hinv hs hops) hops

end Steps

/-! ### The queue neither loses, duplicates nor invents -/

/-- **The queue is first in, first out by ticket.** In every run of fewer than `2 ^ 63` calls,
with any number of threads: the enqueue tickets and the dequeue tickets won so far are
`0, 1, 2, …`, each won by one call; a pop that has returned for ticket `k` returned the value
of the push that won ticket `k`, which had released its cell, and each ticket is returned for
once; a won ticket whose call has not finished is still in the hands of that call; no two
threads have claimed the same cell; and between none and `Capacity` pushed values are
unclaimed. -/
theorem queue_fifo_by_ticket [DecidableEq ι] [Inhabited T] {m : QueueSystem C T ι}
    (h : Steps step (fun _ _ => True) (QueueSystem.new C T ι) m)
    (hops : m.operations < 2 ^ 63) :
    m.pushes.map WonPush.ticket = List.range m.queue.enqueue ∧
    m.pops.map WonPop.ticket = List.range m.queue.dequeue ∧
    (m.pushes.map WonPush.operation).Nodup ∧ (m.pops.map WonPop.operation).Nodup ∧
    (∀ x ∈ m.returned, ⟨x.operation, x.ticket⟩ ∈ m.pops ∧ x.ticket ∈ m.released ∧
      ∃ w ∈ m.pushes, w.ticket = x.ticket ∧ w.value = x.value) ∧
    (m.returned.map ReturnedPop.ticket).Nodup ∧
    (∀ w ∈ m.pushes, m.PushAccounted w) ∧ (∀ w ∈ m.pops, m.PopAccounted w) ∧
    (∀ i j p q, i ≠ j → (m.threads i).claim = some p → (m.threads j).claim = some q →
      slot C p ≠ slot C q) ∧
    m.queue.dequeue ≤ m.queue.enqueue ∧ m.queue.enqueue ≤ m.queue.dequeue + C.value := by
  have hinv : m.Inv := Inv.steps h hops
  exact ⟨hinv.pushTickets, hinv.popTickets, hinv.pushCalls, hinv.popCalls, hinv.returned,
    hinv.returnedTickets, hinv.pushesAccounted, hinv.popsAccounted,
    fun _ _ _ _ hne hi hj => hinv.exclusive hne hi hj, hinv.le, hinv.le_add⟩

/-- A queue of two cells. -/
def twoCells : QueueCapacity := ⟨2, rfl, le_rfl, QueueCapacity.two_lt⟩

/-- Three pushes by two threads and two pops, with one push still writing: the pops return the
first two values. -/
theorem queue_fifo_by_ticket_run :
    ∃ m : QueueSystem twoCells ℕ (Fin 3),
      Steps step (fun _ _ => True) (QueueSystem.new twoCells ℕ (Fin 3)) m ∧
      m.returned.map ReturnedPop.value = [7, 8] ∧
      m.pushes.map WonPush.ticket = List.range 3 := by
  have hexec : (exec step (fun _ _ => True) (QueueSystem.new twoCells ℕ (Fin 3))
      ([.tryPush 0 7, .tryPush 1 8, .access 0 false, .access 1 false, .access 0 false,
        .access 1 false, .access 0 false, .access 1 false, .access 1 false, .access 1 false,
        .access 1 false, .access 1 false, .access 0 false, .access 0 false, .tryPop 2] ++
        List.replicate 5 (.access 2 false) ++ .tryPush 0 9 :: List.replicate 3 (.access 0 false) ++
        .tryPop 2 :: List.replicate 5 (.access 2 false))).map
        (fun m => decide (m.returned.map ReturnedPop.value = [7, 8] ∧
          m.queue.enqueue = 3 ∧ m.operations < 2 ^ 63)) = some true := by
    decide +kernel
  obtain ⟨m, hrun, hreturned, henq, hops⟩ := Steps.exists_of_exec hexec
  have htickets := (queue_fifo_by_ticket hrun hops).1
  rw [henq] at htickets
  exact ⟨m, hrun, hreturned, htickets⟩

end QueueSystem

end HotCounter
