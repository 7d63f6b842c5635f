import HotCounter.Legacy.Server
import HotCounter.Counter.Strict

/-!
# What the C server answers

The decisions of all connection threads, in the order in which `incrnchk` made them, are those of
the strict counter of the C++ server, one call after another. Each connection is answered line by
line, whatever the reads return, and once the threads are at rest the metrics are the numbers of the
decisions.
-/

namespace HotCounter

open Foundation

namespace Legacy

open TcpServer (newline)

/-- The strict counter serves some requests, newest first. -/
inductive Serves {ι : Type*} (limit : ℕ) : List (ι × ℕ × Bool) → StrictCounter → Prop
  | start : Serves limit [] ⟨0, limit⟩
  | serve {log : List (ι × ℕ × Bool)} {counter : StrictCounter} (i : ι) (delta : ℕ) :
      Serves limit log counter →
      Serves limit ((i, delta, decide ((counter.apply delta).1.decision = .accepted)) :: log)
        (counter.apply delta).2

variable {ι : Type*} [DecidableEq ι]

/-- The decisions for one connection, oldest first. -/
def decisionsOf (i : ι) (log : List (ι × ℕ × Bool)) : List (ℕ × Bool) :=
  log.reverse.filterMap fun decision => if decision.1 = i then some decision.2 else none

theorem decisionsOf_cons_self (i : ι) (decision : ℕ × Bool) (log : List (ι × ℕ × Bool)) :
    decisionsOf i ((i, decision) :: log) = decisionsOf i log ++ [decision] := by
  rw [decisionsOf, List.reverse_cons, List.filterMap_append, decisionsOf]
  simp

theorem decisionsOf_cons_of_ne {i j : ι} (h : j ≠ i) (decision : ℕ × Bool)
    (log : List (ι × ℕ × Bool)) : decisionsOf i ((j, decision) :: log) = decisionsOf i log := by
  rw [decisionsOf, List.reverse_cons, List.filterMap_append, decisionsOf]
  simp [h]

/-- Below the limit the subtraction of the test does not wrap. -/
theorem refuses_eq {limit seen delta : ℕ} (hlimit : limit < 2 ^ 64) (hseen : seen ≤ limit) :
    refuses limit seen delta = decide (limit < seen + delta) := by
  have hsub : (limit + 2 ^ 64 - seen) % 2 ^ 64 = limit - seen := by omega
  rw [refuses, hsub]
  exact decide_eq_decide.mpr ⟨fun h => by omega, fun h => by omega⟩

/-- Where a thread is at work on a decision that the metrics do not show yet. -/
def uncounted : Point → ℕ
  | .counting _ _ => 1
  | _ => 0

/-- The same for the second addition, by decision. -/
def unsorted (decision : Bool) : Point → ℕ
  | .counting _ accepted | .sorting _ accepted => if accepted = decision then 1 else 0
  | _ => 0

/-- The metrics show everything that was decided at this point. -/
def Quiet (point : Point) : Prop := uncounted point = 0 ∧ ∀ decision, unsorted decision point = 0

/-- The loop over the buffer goes on, hands a number over, answers, or reads again: it leaves a
thread neither at a compare-exchange nor behind one. -/
theorem Connection.scan_point {c : Connection} (hpoint : c.point = .scanning) :
    (∀ delta observed, c.scan.point ≠ .swapping delta observed) ∧ Quiet c.scan.point := by
  rw [Connection.scan]
  split
  · split
    · simp only [hpoint]
      exact ⟨by simp, rfl, fun _ => rfl⟩
    · dsimp only
      split <;> exact ⟨by simp, rfl, fun _ => rfl⟩
  · dsimp only
    generalize (if c.start ≠ 0 then c.buffer.drop c.start else c.buffer) = buffer
    split <;> exact ⟨by simp, rfl, fun _ => rfl⟩

namespace Server

variable {s s' : Server ι} {i : ι} {seen : ℕ}

/-- The thread of a connection is in `incrnchk`. -/
def Trying (s : Server ι) (i : ι) (delta : ℕ) : Prop :=
  (s.connections i).point = .loading delta ∨
    ∃ observed, (s.connections i).point = .swapping delta observed

/-- What an access to a shared variable does. -/
inductive Accesses (s : Server ι) (i : ι) (seen : ℕ) : Server ι → Prop
  | reject {delta : ℕ} (trying : s.Trying i delta) (hseen : seen ≤ s.value)
      (refused : refuses s.limit seen delta = true) : Accesses s i seen (s.conclude i delta false)
  | retry {delta : ℕ} (trying : s.Trying i delta) (hseen : seen ≤ s.value)
      (fits : refuses s.limit seen delta = false) :
      Accesses s i seen (s.moveTo i (.swapping delta seen))
  | accept {delta : ℕ} (point : (s.connections i).point = .swapping delta s.value) :
      Accesses s i seen { s.conclude i delta true with value := (s.value + delta) % 2 ^ 64 }
  | count {delta : ℕ} {accepted : Bool}
      (point : (s.connections i).point = .counting delta accepted) :
      Accesses s i seen
        { s.moveTo i (.sorting delta accepted) with requests := (s.requests + 1) % 2 ^ 64 }
  | sortAccepted {delta : ℕ} (point : (s.connections i).point = .sorting delta true) :
      Accesses s i seen
        { s.moveTo i (.replying true) with accepted := (s.accepted + 1) % 2 ^ 64 }
  | sortRejected {delta : ℕ} (point : (s.connections i).point = .sorting delta false) :
      Accesses s i seen
        { s.moveTo i (.replying false) with rejected := (s.rejected + 1) % 2 ^ 64 }

theorem accesses_of_test {delta : ℕ} (htrying : s.Trying i delta)
    (h : s.test i delta seen = some s') : s.Accesses i seen s' := by
  rw [test] at h
  split at h
  · cases h
  rename_i hseen
  split at h
  · rename_i hrefused
    obtain rfl := Option.some.inj h
    exact .reject htrying (Nat.not_lt.mp hseen) hrefused
  · rename_i hfits
    obtain rfl := Option.some.inj h
    exact .retry htrying (Nat.not_lt.mp hseen) (by simpa using hfits)

theorem accesses_of_access (h : s.access i seen = some s') : s.Accesses i seen s' := by
  rw [access] at h
  split at h
  · rename_i delta hpoint
    exact accesses_of_test (.inl hpoint) h
  · rename_i delta observed hpoint
    split at h
    · split at h
      · rename_i hvalue
        obtain rfl := Option.some.inj h
        subst hvalue
        exact .accept hpoint
      · cases h
    · exact accesses_of_test (.inr ⟨observed, hpoint⟩) h
  · rename_i delta accepted hpoint
    obtain rfl := Option.some.inj h
    exact .count hpoint
  · rename_i delta hpoint
    obtain rfl := Option.some.inj h
    exact .sortAccepted hpoint
  · rename_i delta hpoint
    obtain rfl := Option.some.inj h
    exact .sortRejected hpoint
  · cases h

/-! ### The invariant -/

/-- What is known of the process. -/
structure Ok (limit : ℕ) (s : Server ι) : Prop where
  limit_eq : s.limit = limit
  value_le : s.value ≤ limit
  serves : Serves limit s.decided ⟨s.value, limit⟩
  observed : ∀ i delta observed, (s.connections i).point = .swapping delta observed →
    observed + delta ≤ limit
  connections : ∀ i, (s.connections i).Ok (decisionsOf i s.decided)
  mode : s.mode ≠ .danger

variable {limit startedAt : ℕ}

theorem ok_init : (init ι limit startedAt).Ok limit where
  limit_eq := rfl
  value_le := Nat.zero_le _
  serves := .start
  observed := nofun
  connections := fun _ => Connection.ok_init
  mode := nofun

/-- The thread of one connection goes on by itself. -/
theorem Ok.update (h : s.Ok limit) {c : Connection} (hlimit : s'.limit = s.limit)
    (hvalue : s'.value = s.value) (hdecided : s'.decided = s.decided) (hmode : s'.mode = s.mode)
    (hconnections : s'.connections = Function.update s.connections i c)
    (hc : c.Ok (decisionsOf i s.decided))
    (hobserved : ∀ delta observed, c.point = .swapping delta observed → observed + delta ≤ limit) :
    s'.Ok limit where
  limit_eq := hlimit.trans h.limit_eq
  value_le := hvalue ▸ h.value_le
  serves := by
    rw [hdecided, hvalue]
    exact h.serves
  observed := by
    intro j delta observed hpoint
    rw [hconnections] at hpoint
    by_cases hj : j = i
    · subst hj
      rw [Function.update_self] at hpoint
      exact hobserved delta observed hpoint
    · rw [Function.update_of_ne hj] at hpoint
      exact h.observed j delta observed hpoint
  connections := by
    intro j
    rw [hconnections, hdecided]
    by_cases hj : j = i
    · subst hj
      rw [Function.update_self]
      exact hc
    · rw [Function.update_of_ne hj]
      exact h.connections j
  mode := hmode ▸ h.mode

omit [DecidableEq ι] in
theorem Trying.handling {delta : ℕ} (htrying : s.Trying i delta) {decisions : List (ℕ × Bool)}
    (hc : (s.connections i).Ok decisions) :
    (s.connections i).Handling ∧ number (s.connections i).line = some delta ∧
      (s.connections i).point ≠ .closed ∧
      decisions = (s.connections i).served.filterMap numbered := by
  have hkept := hc.kept
  have horder := hc.order
  rcases htrying with hpoint | ⟨observed, hpoint⟩ <;>
    simp only [Connection.Kept, Connection.pending, hpoint, List.append_nil] at hkept horder <;>
    exact ⟨hkept.1, hkept.2, by simp [hpoint], horder⟩

/-- `incrnchk` returns what the strict counter answers. -/
theorem Ok.conclude (h : s.Ok limit) (hlimit : limit < 2 ^ 64) {delta value : ℕ} {accepted : Bool}
    (htrying : s.Trying i delta)
    (hdecision : (accepted = false ∧ limit < s.value + delta ∧ value = s.value) ∨
      (accepted = true ∧ s.value + delta ≤ limit ∧ value = s.value + delta)) :
    ({ s.conclude i delta accepted with value := value } : Server ι).Ok limit := by
  obtain ⟨hhandling, hnumber, hopen, horder⟩ := htrying.handling (h.connections i)
  have hserves := h.serves.serve i delta
  refine ⟨h.limit_eq, ?_, ?_, fun j d observed hpoint => ?_, fun j => ?_, h.mode⟩
  · rcases hdecision with ⟨-, -, rfl⟩ | ⟨-, hfits, rfl⟩
    · exact h.value_le
    · exact hfits
  · change Serves limit ((i, delta, accepted) :: s.decided) ⟨value, limit⟩
    rcases StrictCounter.apply_cases ⟨s.value, limit⟩ delta hlimit with
      ⟨hover, heq⟩ | ⟨hfits, heq⟩ <;>
      rw [heq] at hserves <;>
      rcases hdecision with ⟨rfl, hlt, rfl⟩ | ⟨rfl, hle, rfl⟩
    · exact hserves
    · exact absurd hle (Nat.not_le.mpr hover)
    · exact absurd hfits (Nat.not_le.mpr hlt)
    · exact hserves
  · change (Function.update s.connections i _ j).point = _ at hpoint
    by_cases hj : j = i
    · subst hj
      rw [Function.update_self] at hpoint
      cases hpoint
    · rw [Function.update_of_ne hj] at hpoint
      exact h.observed j d observed hpoint
  · change (Function.update s.connections i _ j).Ok
      (decisionsOf j ((i, delta, accepted) :: s.decided))
    by_cases hj : j = i
    · subst hj
      rw [Function.update_self, decisionsOf_cons_self]
      refine (h.connections j).handle hhandling hnumber hopen (.inr (.inl ⟨accepted, rfl⟩)) ?_
      rw [horder]
      rfl
    · rw [Function.update_of_ne hj, decisionsOf_cons_of_ne (Ne.symm hj)]
      exact h.connections j

/-- An access of a connection thread to a shared variable. -/
theorem Ok.access (h : s.Ok limit) (hlimit : limit < 2 ^ 64) (haccess : s.Accesses i seen s') :
    s'.Ok limit := by
  have hvalue := h.value_le
  -- going to another point with the same decisions
  have hmove : ∀ {point : Point},
      { s.connections i with point := point : Connection }.Ok (decisionsOf i s.decided) →
      (∀ delta observed, point = .swapping delta observed → observed + delta ≤ limit) →
      ∀ {s'' : Server ι}, s''.limit = s.limit → s''.value = s.value → s''.decided = s.decided →
        s''.mode = s.mode → s''.connections = (s.moveTo i point).connections → s''.Ok limit :=
    fun hc hobserved _ h₁ h₂ h₃ h₄ h₅ => h.update h₁ h₂ h₃ h₄ h₅ hc hobserved
  cases haccess with
  | reject trying hseen refused =>
    -- a value that is not newer than the present one refuses for the present one too
    rw [h.limit_eq, refuses_eq hlimit (hseen.trans hvalue), decide_eq_true_eq] at refused
    exact h.conclude hlimit trying (.inl ⟨rfl, by omega, rfl⟩)
  | @retry delta trying hseen fits =>
    rw [h.limit_eq, refuses_eq hlimit (hseen.trans hvalue), decide_eq_false_iff_not] at fits
    obtain ⟨hhandling, hnumber, hopen, horder⟩ := trying.handling (h.connections i)
    refine hmove ((h.connections i).handle hhandling hnumber hopen (.inl ⟨seen, rfl⟩) ?_) ?_
      rfl rfl rfl rfl rfl
    · rw [horder]
      exact (List.append_nil _).symm
    · rintro d o ⟨⟩
      exact Nat.not_lt.mp fits
  | @accept delta point =>
    have hfits := h.observed i delta s.value point
    have hmod : (s.value + delta) % 2 ^ 64 = s.value + delta := Nat.mod_eq_of_lt (by omega)
    rw [hmod]
    exact h.conclude hlimit (.inr ⟨_, point⟩) (.inr ⟨rfl, hfits, rfl⟩)
  | @count delta accepted point =>
    have hc := h.connections i
    have hkept := hc.kept
    have horder := hc.order
    simp only [Connection.Kept, Connection.pending, point] at hkept horder
    exact hmove (hc.handle hkept.1 hkept.2 (by simp [point]) (.inr (.inr ⟨accepted, rfl⟩)) horder)
      (by simp) rfl rfl rfl rfl rfl
  | sortAccepted point => exact hmove ((h.connections i).sort point) (by simp) rfl rfl rfl rfl rfl
  | sortRejected point => exact hmove ((h.connections i).sort point) (by simp) rfl rfl rfl rfl rfl

/-- **One step keeps what is known.** -/
theorem Ok.step (h : s.Ok limit) (hlimit : limit < 2 ^ 64) {threshold : ℕ} {action : ServerAction ι}
    (hstep : s.step threshold action = some s') : s'.Ok limit := by
  cases action with
  | receive i chunk =>
    simp only [Server.step] at hstep
    split at hstep
    · rename_i hready
      obtain rfl := Option.some.inj hstep
      exact h.update rfl rfl rfl rfl rfl ((h.connections i).receive hready.1 hready.2.2)
        (by simp [Connection.receive])
    · cases hstep
  | hangup i =>
    simp only [Server.step] at hstep
    split at hstep
    · rename_i hpoint
      obtain rfl := Option.some.inj hstep
      exact h.update rfl rfl rfl rfl rfl ((h.connections i).hangup hpoint) (by simp)
    · cases hstep
  | scan i =>
    simp only [Server.step] at hstep
    split at hstep
    · rename_i hpoint
      obtain rfl := Option.some.inj hstep
      exact h.update rfl rfl rfl rfl rfl ((h.connections i).scan hpoint) fun d o hswap =>
        absurd hswap ((Connection.scan_point hpoint).1 d o)
    · cases hstep
  | access i seen => exact h.access hlimit (accesses_of_access hstep)
  | write i count =>
    simp only [Server.step] at hstep
    split at hstep
    · rename_i accepted hpoint
      split at hstep
      · obtain rfl := Option.some.inj hstep
        refine h.update rfl rfl rfl rfl rfl ((h.connections i).write hpoint count)
          fun d o hswap => ?_
        simp only [Connection.write] at hswap
        split at hswap <;> cases hswap
      · cases hstep
    · cases hstep
  | sample now =>
    simp only [Server.step] at hstep
    split at hstep
    · obtain rfl := Option.some.inj hstep
      refine ⟨h.limit_eq, h.value_le, h.serves, h.observed, h.connections, ?_⟩
      dsimp only
      split
      · simp
      · exact h.mode
    · cases hstep

/-! ### The metrics -/

variable [Fintype ι]

/-- The decisions that the metrics do not show yet. -/
def tally (s : Server ι) (weight : Point → ℕ) : ℕ := ∑ i, weight (s.connections i).point

/-- The metrics, modulo `2 ^ 64`, and the decisions they do not show yet are the decisions. -/
structure Tallied (s : Server ι) : Prop where
  requests : (s.requests + s.tally uncounted) % 2 ^ 64 = s.decided.length % 2 ^ 64
  accepted : (s.accepted + s.tally (unsorted true)) % 2 ^ 64 =
    s.decided.countP (fun decision => decision.2.2) % 2 ^ 64
  rejected : (s.rejected + s.tally (unsorted false)) % 2 ^ 64 =
    s.decided.countP (fun decision => !decision.2.2) % 2 ^ 64

omit [DecidableEq ι] in
theorem tally_init {weight : Point → ℕ} (h : weight .reading = 0) :
    (init ι limit startedAt).tally weight = 0 :=
  Finset.sum_eq_zero fun _ _ => h

omit [DecidableEq ι] in
theorem tallied_init : (init ι limit startedAt).Tallied where
  requests := by rw [tally_init rfl]; rfl
  accepted := by rw [tally_init rfl]; rfl
  rejected := by rw [tally_init rfl]; rfl

/-- A thread that goes to another point takes its decision along. -/
theorem tally_update {c : Connection}
    (hconnections : s'.connections = Function.update s.connections i c) (weight : Point → ℕ) :
    s'.tally weight + weight (s.connections i).point = s.tally weight + weight c.point := by
  rw [tally, tally, hconnections]
  exact sum_update_add (fun c : Connection => weight c.point) s.connections i c

/-- A step of one thread keeps the account if what it adds to a metric and what it takes along
change as the decisions do. -/
theorem Tallied.moved (h : s.Tallied) {c : Connection}
    (hconnections : s'.connections = Function.update s.connections i c)
    (hrequests : (s'.requests + uncounted c.point + s.decided.length) % 2 ^ 64 =
      (s.requests + uncounted (s.connections i).point + s'.decided.length) % 2 ^ 64)
    (haccepted : (s'.accepted + unsorted true c.point +
        s.decided.countP (fun decision => decision.2.2)) % 2 ^ 64 =
      (s.accepted + unsorted true (s.connections i).point +
        s'.decided.countP (fun decision => decision.2.2)) % 2 ^ 64)
    (hrejected : (s'.rejected + unsorted false c.point +
        s.decided.countP (fun decision => !decision.2.2)) % 2 ^ 64 =
      (s.rejected + unsorted false (s.connections i).point +
        s'.decided.countP (fun decision => !decision.2.2)) % 2 ^ 64) : s'.Tallied := by
  have huncounted := tally_update hconnections uncounted
  have htrue := tally_update hconnections (unsorted true)
  have hfalse := tally_update hconnections (unsorted false)
  obtain ⟨hrequests', haccepted', hrejected'⟩ := h
  exact ⟨by omega, by omega, by omega⟩

/-- A thread without an unshown decision goes on without one. -/
theorem Tallied.quiet (h : s.Tallied) {c : Connection}
    (hconnections : s'.connections = Function.update s.connections i c)
    (hrequests : s'.requests = s.requests) (haccepted : s'.accepted = s.accepted)
    (hrejected : s'.rejected = s.rejected) (hdecided : s'.decided = s.decided)
    (hold : Quiet (s.connections i).point) (hnew : Quiet c.point) : s'.Tallied := by
  refine h.moved hconnections ?_ ?_ ?_
  · rw [hrequests, hdecided, hold.1, hnew.1]
  · rw [haccepted, hdecided, hold.2, hnew.2]
  · rw [hrejected, hdecided, hold.2, hnew.2]

omit [DecidableEq ι] [Fintype ι] in
theorem Trying.quiet {delta : ℕ} (htrying : s.Trying i delta) : Quiet (s.connections i).point := by
  rcases htrying with hpoint | ⟨_, hpoint⟩ <;> rw [hpoint] <;> exact ⟨rfl, fun _ => rfl⟩

/-- A decision is one that the metrics do not show yet. -/
theorem Tallied.conclude (h : s.Tallied) {delta value : ℕ} {accepted : Bool}
    (htrying : s.Trying i delta) :
    ({ s.conclude i delta accepted with value := value } : Server ι).Tallied := by
  obtain ⟨hold, hold'⟩ := htrying.quiet
  refine h.moved (i := i) (c := { s.connections i with point := .counting delta accepted }) rfl
    ?_ ?_ ?_
  · rw [hold]
    dsimp only [Server.conclude, uncounted, List.length_cons, moveTo]
    omega
  · rw [hold']
    cases accepted <;> simp [Server.conclude, unsorted, moveTo, Nat.add_assoc, Nat.add_comm 1]
  · rw [hold']
    cases accepted <;> simp [Server.conclude, unsorted, moveTo, Nat.add_assoc, Nat.add_comm 1]

theorem Tallied.access (h : s.Tallied) (haccess : s.Accesses i seen s') : s'.Tallied := by
  cases haccess with
  | reject trying => exact h.conclude trying
  | retry trying => exact h.quiet rfl rfl rfl rfl rfl trying.quiet ⟨rfl, fun _ => rfl⟩
  | accept point => exact h.conclude (.inr ⟨_, point⟩)
  | @count delta accepted point =>
    refine h.moved (i := i) (c := { s.connections i with point := .sorting delta accepted }) rfl
      ?_ ?_ ?_ <;> rw [point] <;> dsimp only [uncounted, unsorted, moveTo]
    omega
  | @sortAccepted delta point =>
    refine h.moved (i := i) (c := { s.connections i with point := .replying true }) rfl
      ?_ ?_ ?_ <;> rw [point] <;> dsimp only [uncounted, unsorted, moveTo]
    · rw [if_pos rfl]
      omega
    · rfl
  | @sortRejected delta point =>
    refine h.moved (i := i) (c := { s.connections i with point := .replying false }) rfl
      ?_ ?_ ?_ <;> rw [point] <;> dsimp only [uncounted, unsorted, moveTo]
    · rfl
    · rw [if_pos rfl]
      omega

/-- **One step keeps the account of the metrics.** -/
theorem Tallied.step (h : s.Tallied) {threshold : ℕ} {action : ServerAction ι}
    (hstep : s.step threshold action = some s') : s'.Tallied := by
  cases action with
  | receive i chunk =>
    simp only [Server.step] at hstep
    split at hstep
    · rename_i hready
      obtain rfl := Option.some.inj hstep
      exact h.quiet rfl rfl rfl rfl rfl (by rw [hready.1]; exact ⟨rfl, fun _ => rfl⟩)
        ⟨rfl, fun _ => rfl⟩
    · cases hstep
  | hangup i =>
    simp only [Server.step] at hstep
    split at hstep
    · rename_i hpoint
      obtain rfl := Option.some.inj hstep
      exact h.quiet rfl rfl rfl rfl rfl (by rw [hpoint]; exact ⟨rfl, fun _ => rfl⟩)
        ⟨rfl, fun _ => rfl⟩
    · cases hstep
  | scan i =>
    simp only [Server.step] at hstep
    split at hstep
    · rename_i hpoint
      obtain rfl := Option.some.inj hstep
      exact h.quiet rfl rfl rfl rfl rfl (by rw [hpoint]; exact ⟨rfl, fun _ => rfl⟩)
        (Connection.scan_point hpoint).2
    · cases hstep
  | access i seen => exact h.access (accesses_of_access hstep)
  | write i count =>
    simp only [Server.step] at hstep
    split at hstep
    · rename_i accepted hpoint
      split at hstep
      · obtain rfl := Option.some.inj hstep
        refine h.quiet rfl rfl rfl rfl rfl (by rw [hpoint]; exact ⟨rfl, fun _ => rfl⟩) ?_
        simp only [Connection.write]
        split <;> exact ⟨rfl, fun _ => rfl⟩
      · cases hstep
    · cases hstep
  | sample now =>
    simp only [Server.step] at hstep
    split at hstep
    · obtain rfl := Option.some.inj hstep
      exact ⟨h.requests, h.accepted, h.rejected⟩
    · cases hstep

end Server

/-! ### Runs -/

/-- **The C server answers exactly.** In every interleaving of the connection threads, with stale
loads, reads of any size and short writes, all decisions of `incrnchk` in their order are those of
the strict counter, whose value is the value of the server and stays within the limit. Every
connection has served the first complete lines of what it received, all of them when it reads
again; it has sent their replies in order, up to a last one cut short when it is over; a line that
is no number is refused without the counter, and the decisions for its other lines are exactly the
decisions made for the connection. Once no thread is inside `metrics_record` the metrics are the
numbers of decisions, modulo `2 ^ 64`. -/
theorem served_exactly [Fintype ι] {limit startedAt threshold : ℕ} (hlimit : limit < 2 ^ 64)
    {s : Server ι} (h : Steps (Server.step threshold) (fun _ _ => True)
      (Server.init ι limit startedAt) s) :
    Serves limit s.decided ⟨s.value, limit⟩ ∧ s.value ≤ limit ∧ s.mode ≠ .danger ∧
    (∀ i, ((s.connections i).lines <+: ((s.connections i).received.splitOn newline).dropLast) ∧
      ((s.connections i).point = .reading →
        (s.connections i).lines = ((s.connections i).received.splitOn newline).dropLast) ∧
      (s.connections i).sent <+: ((s.connections i).served.flatMap fun served => reply served.2) ∧
      ((s.connections i).point ≠ .closed →
        (s.connections i).sent = (s.connections i).served.flatMap fun served => reply served.2) ∧
      (∀ served ∈ (s.connections i).served, number served.1 = none → served.2 = false) ∧
      decisionsOf i s.decided =
        (s.connections i).served.filterMap numbered ++ (s.connections i).pending) ∧
    ((∀ i, Quiet (s.connections i).point) →
      s.requests ≡ s.decided.length [MOD 2 ^ 64] ∧
      s.accepted ≡ s.decided.countP (fun decision => decision.2.2) [MOD 2 ^ 64] ∧
      s.rejected ≡ s.decided.countP (fun decision => !decision.2.2) [MOD 2 ^ 64]) := by
  have hok : s.Ok limit :=
    h.invariant Server.ok_init fun _ _ _ hok _ hstep => hok.step hlimit hstep
  have htallied : s.Tallied :=
    h.invariant Server.tallied_init fun _ _ _ htallied _ hstep => htallied.step hstep
  refine ⟨hok.serves, hok.value_le, hok.mode, fun i => ?_, fun hquiet => ?_⟩
  · have hc := hok.connections i
    exact ⟨hc.kept.lines_prefix, hc.kept.lines_eq, hc.sent, hc.all_sent, hc.refused, hc.order⟩
  · have hzero : s.tally uncounted = 0 := Finset.sum_eq_zero fun i _ => (hquiet i).1
    have hzero' : ∀ decision, s.tally (unsorted decision) = 0 :=
      fun decision => Finset.sum_eq_zero fun i _ => (hquiet i).2 decision
    obtain ⟨hrequests, haccepted, hrejected⟩ := htallied
    rw [hzero] at hrequests
    rw [hzero'] at haccepted hrejected
    exact ⟨hrequests, haccepted, hrejected⟩

/-- Two clients of a server with a limit of 10 send `7` and ` +4` with a NUL byte and more on the
line; the bytes of the first arrive in two reads, and the second thread loses the race for the
counter. -/
def raceForTen : List (ServerAction Bool) :=
  [.receive false [55], .scan false, .scan false, .receive false [10],
    .receive true [32, 43, 52, 0, 57, 10], .scan false, .scan false, .scan true, .scan true,
    .scan true,
    .scan true, .scan true, .scan true, .access false 0, .access true 0, .access false 0,
    .access true 7, .access false 0, .access true 0, .access false 0, .access true 0,
    .write false 2, .write true 2, .scan false, .scan true, .sample 5]

theorem served_exactly_raceForTen : ∃ s : Server Bool,
    (s.value = 7 ∧ (s.connections false).sent = [65, 10] ∧ (s.connections true).sent = [82, 10] ∧
      s.requests = 2 ∧ s.accepted = 1) ∧
    Serves 10 s.decided ⟨s.value, 10⟩ ∧
    decisionsOf true s.decided =
      (s.connections true).served.filterMap numbered ++ (s.connections true).pending := by
  have hrun : (exec (Server.step 3) (fun _ _ => True) (Server.init Bool 10 0) raceForTen).map
      (fun s => decide (s.value = 7 ∧ (s.connections false).sent = [65, 10] ∧
        (s.connections true).sent = [82, 10] ∧ s.requests = 2 ∧ s.accepted = 1)) = some true := by
    decide +kernel
  obtain ⟨s, hsteps, hs⟩ := Steps.exists_of_exec hrun
  obtain ⟨hserves, -, -, hconnections, -⟩ := served_exactly (by decide) hsteps
  exact ⟨s, hs, hserves, (hconnections true).2.2.2.2.2⟩

end Legacy

end HotCounter
