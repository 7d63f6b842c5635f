import HotCounter.Legacy.Accounting
import HotCounter.Foundation.Linearizable

/-!
# The counter of the C server is linearizable

The calls of `incrnchk`, from the end of the line that carries the number to the counting of the
decision, can be put in an order that keeps the order of calls that did not overlap and in which the
strict counter gives every decision, although the loads of a call may be stale: the counter only
grows, so what a stale value refuses the present one refuses too.
-/

namespace HotCounter

open Foundation

namespace Legacy

/-- The strict counter as a sequential object; it does not move by itself. -/
def strictObject (limit : ℕ) : SequentialObject StrictCounter ℕ Bool where
  init := ⟨0, limit⟩
  serves counter delta accepted after :=
    accepted = decide ((counter.apply delta).1.decision = .accepted) ∧
      after = (counter.apply delta).2
  drifts _ _ := False

/-- How far the call of `incrnchk` has come. -/
def Point.stage : Point → Stage ℕ Bool
  | .loading delta | .swapping delta _ => .pending delta
  | .counting delta accepted => .decided delta accepted
  | _ => .idle

namespace Server

variable {ι : Type*} [DecidableEq ι]

/-- What a step shows of the calls. -/
def label (s : Server ι) : ServerAction ι → Label ι ℕ Bool
  | .scan i =>
    match (s.connections i).scan.point with
    | .loading delta => .invoke i delta
    | _ => .silent
  | .access i _ =>
    match (s.connections i).point with
    | .counting _ accepted => .answer i accepted
    | _ => .silent
  | _ => .silent

/-- How far the calls of all threads have come. -/
def stage (s : Server ι) (i : ι) : Stage ℕ Bool := (s.connections i).point.stage

variable {s s' : Server ι} {i : ι} {limit : ℕ}

/-- A step of one thread changes its stage alone. -/
theorem stage_update {c : Connection}
    (hconnections : s'.connections = Function.update s.connections i c) :
    s'.stage = Function.update s.stage i c.point.stage := by
  funext j
  rw [stage, hconnections]
  by_cases hj : j = i
  · subst hj
    rw [Function.update_self, Function.update_self]
  · rw [Function.update_of_ne hj, Function.update_of_ne hj]
    rfl

/-- A step of one thread that keeps its stage changes no stage. -/
theorem stage_keep {c : Connection}
    (hconnections : s'.connections = Function.update s.connections i c)
    (hstage : c.point.stage = (s.connections i).point.stage) : s'.stage = s.stage := by
  rw [stage_update hconnections, hstage]
  exact Function.update_eq_self i s.stage

/-- The state of the counter. -/
def view (s : Server ι) : StrictCounter := ⟨s.value, s.limit⟩

/-- A call decides as the strict counter does. -/
theorem decides_conclude {delta value : ℕ} {accepted : Bool} (hlimit : s.limit < 2 ^ 64)
    (htrying : s.Trying i delta)
    (hdecision : (accepted = false ∧ s.limit < s.value + delta ∧ value = s.value) ∨
      (accepted = true ∧ s.value + delta ≤ s.limit ∧ value = s.value + delta)) :
    Decides (strictObject limit) s.view s.stage
      ({ s.conclude i delta accepted with value := value } : Server ι).view
      ({ s.conclude i delta accepted with value := value } : Server ι).stage := by
  have hpending : s.stage i = .pending delta := by
    rcases htrying with hpoint | ⟨_, hpoint⟩ <;> rw [stage, hpoint] <;> rfl
  have hstage : ({ s.conclude i delta accepted with value := value } : Server ι).stage =
      Function.update s.stage i (.decided delta accepted) :=
    stage_update (c := { s.connections i with point := .counting delta accepted }) rfl
  rw [hstage]
  refine .call hpending ?_
  rcases StrictCounter.apply_cases s.view delta hlimit with ⟨hover, heq⟩ | ⟨hfits, heq⟩ <;>
    rcases hdecision with ⟨rfl, hlt, rfl⟩ | ⟨rfl, hle, rfl⟩
  · exact ⟨by rw [heq]; rfl, by rw [heq]; rfl⟩
  · exact absurd hle (Nat.not_le.mpr hover)
  · exact absurd hfits (Nat.not_le.mpr hlt)
  · exact ⟨by rw [heq]; rfl, by rw [heq]; rfl⟩

/-- The stage after a turn of the loop over the buffer, which may begin a call. -/
theorem reports_scan (hpoint : (s.connections i).point = .scanning)
    (hconnections : s'.connections = Function.update s.connections i (s.connections i).scan) :
    Reports s.stage (s.label (.scan i)) s'.stage := by
  have hidle : s.stage i = .idle := by rw [stage, hpoint]; rfl
  rw [label]
  split
  · rename_i delta hload
    rw [stage_update hconnections, hload]
    exact .invoke hidle
  · rename_i hload
    have hsame : s'.stage = s.stage := by
      refine stage_keep hconnections ?_
      obtain ⟨hswap, hquiet⟩ := Connection.scan_point hpoint
      rw [hpoint]
      cases hscan : (s.connections i).scan.point with
      | loading delta => exact absurd hscan (hload delta)
      | swapping delta observed => exact absurd hscan (hswap delta observed)
      | counting delta accepted =>
        rw [hscan] at hquiet
        exact absurd hquiet.1 Nat.one_ne_zero
      | reading | scanning | sorting | replying | closed => rfl
    rw [hsame]
    exact .silent

/-- **An access to a shared variable decides at most one call.** -/
theorem commits_access (h : s.Ok limit) (hlimit : limit < 2 ^ 64) {seen : ℕ}
    (haccess : s.Accesses i seen s') :
    ∃ stage', Decides (strictObject limit) s.view s.stage s'.view stage' ∧
      Reports stage' (s.label (.access i seen)) s'.stage := by
  have hvalue := h.value_le
  have hslimit : s.limit < 2 ^ 64 := h.limit_eq ▸ hlimit
  have hlabel : ∀ {delta : ℕ}, s.Trying i delta → s.label (.access i seen) = .silent := by
    rintro delta (hpoint | ⟨_, hpoint⟩) <;> simp only [label, hpoint]
  cases haccess with
  | @reject delta trying hseen refused =>
    rw [h.limit_eq, refuses_eq hlimit (hseen.trans hvalue), decide_eq_true_eq] at refused
    have hover : s.limit < s.value + delta := by rw [h.limit_eq]; omega
    rw [hlabel trying]
    exact ⟨_, decides_conclude hslimit trying (.inl ⟨rfl, hover, rfl⟩), .silent⟩
  | @retry delta trying hseen fits =>
    rw [hlabel trying]
    have hsame : (s.moveTo i (.swapping delta seen)).stage = s.stage := by
      refine stage_keep (c := { s.connections i with point := .swapping delta seen }) rfl ?_
      rcases trying with hpoint | ⟨_, hpoint⟩ <;> rw [hpoint] <;> rfl
    exact ⟨s.stage, .none, by rw [hsame]; exact .silent⟩
  | @accept delta point =>
    have hfits := h.observed i delta s.value point
    have hmod : (s.value + delta) % 2 ^ 64 = s.value + delta := Nat.mod_eq_of_lt (by omega)
    rw [hlabel (.inr ⟨_, point⟩), hmod]
    refine ⟨_, decides_conclude hslimit (.inr ⟨_, point⟩) (.inr ⟨rfl, ?_, rfl⟩), .silent⟩
    rw [h.limit_eq]
    exact hfits
  | @count delta accepted point =>
    have hdecided : s.stage i = .decided delta accepted := by rw [stage, point]; rfl
    have hstage : ({ s.moveTo i (.sorting delta accepted) with
        requests := (s.requests + 1) % 2 ^ 64 } : Server ι).stage =
        Function.update s.stage i .idle :=
      stage_update (c := { s.connections i with point := .sorting delta accepted }) rfl
    refine ⟨s.stage, .none, ?_⟩
    simp only [label, point]
    rw [hstage]
    exact .answer hdecided
  | @sortAccepted delta point =>
    have hsame : ({ s.moveTo i (.replying true) with
        accepted := (s.accepted + 1) % 2 ^ 64 } : Server ι).stage = s.stage :=
      stage_keep (c := { s.connections i with point := .replying true }) rfl (by rw [point]; rfl)
    refine ⟨s.stage, .none, ?_⟩
    simp only [label, point]
    rw [hsame]
    exact .silent
  | @sortRejected delta point =>
    have hsame : ({ s.moveTo i (.replying false) with
        rejected := (s.rejected + 1) % 2 ^ 64 } : Server ι).stage = s.stage :=
      stage_keep (c := { s.connections i with point := .replying false }) rfl (by rw [point]; rfl)
    refine ⟨s.stage, .none, ?_⟩
    simp only [label, point]
    rw [hsame]
    exact .silent

/-- The certificate: a call takes its step of the strict counter at the load that refuses it or at
its last compare-exchange. -/
theorem commits {threshold : ℕ} (hlimit : limit < 2 ^ 64) :
    Commits (strictObject limit) (Server.step (ι := ι) threshold) (fun _ _ => True) label (Ok limit)
      view stage where
  keeps _ _ _ h _ hstep := h.step hlimit hstep
  commits s s' action h _ hstep := by
    -- a step that is no access leaves the counter alone
    have hquiet : s'.view = s.view → Reports s.stage (s.label action) s'.stage →
        ∃ w stage', Decides (strictObject limit) s.view s.stage w stage' ∧
          Reports stage' (s.label action) s'.stage ∧
          Relation.ReflTransGen (strictObject limit).drifts w s'.view := by
      intro hview hreports
      exact ⟨s.view, s.stage, .none, hreports, by rw [hview]⟩
    have hsilent : s'.view = s.view → s.label action = .silent → s'.stage = s.stage →
        ∃ w stage', Decides (strictObject limit) s.view s.stage w stage' ∧
          Reports stage' (s.label action) s'.stage ∧
          Relation.ReflTransGen (strictObject limit).drifts w s'.view := by
      intro hview hlabel hstage
      exact hquiet hview (by rw [hlabel, hstage]; exact .silent)
    cases action with
    | receive i chunk =>
      simp only [Server.step] at hstep
      split at hstep
      · rename_i hready
        obtain rfl := Option.some.inj hstep
        exact hsilent rfl rfl
          (stage_keep (c := (s.connections i).receive chunk) rfl (by rw [hready.1]; rfl))
      · cases hstep
    | hangup i =>
      simp only [Server.step] at hstep
      split at hstep
      · rename_i hpoint
        obtain rfl := Option.some.inj hstep
        exact hsilent rfl rfl
          (stage_keep (c := { s.connections i with point := .closed }) rfl (by rw [hpoint]; rfl))
      · cases hstep
    | scan i =>
      simp only [Server.step] at hstep
      split at hstep
      · rename_i hpoint
        obtain rfl := Option.some.inj hstep
        exact hquiet rfl (reports_scan hpoint rfl)
      · cases hstep
    | access i seen =>
      obtain ⟨stage', hdecides, hreports⟩ := commits_access h hlimit (accesses_of_access hstep)
      exact ⟨s'.view, stage', hdecides, hreports, .refl⟩
    | write i count =>
      simp only [Server.step] at hstep
      split at hstep
      · rename_i accepted hpoint
        split at hstep
        · obtain rfl := Option.some.inj hstep
          refine hsilent rfl rfl (stage_keep (c := (s.connections i).write accepted count) rfl ?_)
          rw [hpoint, Connection.write]
          dsimp only
          split <;> rfl
        · cases hstep
      · cases hstep
    | sample now =>
      simp only [Server.step] at hstep
      split at hstep
      · obtain rfl := Option.some.inj hstep
        exact hquiet rfl .silent
      · cases hstep

end Server

/-- **`incrnchk` is linearizable in the C server.** In every run, with any number of connections and
with stale loads, the calls of `incrnchk` can be put in one order in which the strict counter, up to
its present value, gives every decision; the order keeps the order of calls that did not overlap. -/
theorem incrnchk_linearizable {ι : Type*} [DecidableEq ι] {limit startedAt threshold : ℕ}
    (hlimit : limit < 2 ^ 64) {t : Recorded (Server ι) ι ℕ Bool}
    (h : Steps (Recorded.next (Server.step threshold) Server.label) (fun _ _ => True)
      ⟨Server.init ι limit startedAt, fun _ => none, 0, []⟩ t) :
    t.state.value ≤ limit ∧
      ∃ order, Linearization (strictObject limit) t.history order ⟨t.state.value, limit⟩ := by
  obtain ⟨hok, order, horder⟩ :=
    (Server.commits hlimit).linearized Server.ok_init rfl (fun _ => rfl) h
  refine ⟨hok.value_le, order, ?_⟩
  have hview : t.state.view = ⟨t.state.value, limit⟩ := by rw [Server.view, hok.limit_eq]
  rwa [← hview]

/-- The race for the last units of `raceForTen`, with its history. -/
theorem incrnchk_linearizable_raceForTen : ∃ t : Recorded (Server Bool) Bool ℕ Bool,
    t.history = [.answer true 1 false, .answer false 0 true, .invoke true 1 4, .invoke false 0 7] ∧
      t.state.value ≤ 10 ∧
      ∃ order, Linearization (strictObject 10) t.history order ⟨t.state.value, 10⟩ := by
  have hrun : (exec (Recorded.next (Server.step 3) Server.label) (fun _ _ => True)
      ⟨Server.init Bool 10 0, fun _ => none, 0, []⟩ raceForTen).map (fun t => decide
        (t.history = [.answer true 1 false, .answer false 0 true, .invoke true 1 4,
          .invoke false 0 7])) = some true := by
    decide +kernel
  obtain ⟨t, hsteps, ht⟩ := Steps.exists_of_exec hrun
  exact ⟨t, ht, incrnchk_linearizable (by decide) hsteps⟩

end Legacy

end HotCounter
