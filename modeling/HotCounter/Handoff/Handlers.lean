import HotCounter.Handoff.Contract

/-!
# The handlers keep the contract

Every handler of a controller at rest comes to rest again, whatever frame arrives and however the
journal fails (`comesToRest_handleFrame`, `comesToRest_tick`, `comesToRest_stop`).
-/

namespace HotCounter

namespace Process

open Foundation
open CounterEngine (Free Drained)

variable {S : Site} {g : Prop} {c : Impl} {w : Desk} {own : DrainedPeakState}

/-! ### The leader's first phase -/

/-- An idle leader that never committed draws the clock reading, or 1. -/
theorem nextTerm_idle (hterm : c.activeTerm = 0) (hlast : c.lastCommittedTerm = 0) (now : ℕ) :
    c.nextTerm now = max 1 now := by
  rw [Impl.nextTerm, hterm, hlast]
  rfl

/-- `begin_leader_prepare` of an idle leader, written out. -/
private theorem beginLeaderPrepare_idle (hleader : c.isLeader = true) (hidle : c.state = .idle) :
    Impl.beginLeaderPrepare c = .op c .beginHandoff fun (reply : Option DrainedPeakState) =>
      match reply with
      | none => .ret c ()
      | some drained => .op c .clock fun (now : ℕ) =>
        let d : Impl := { c with activeTerm := c.nextTerm now }
        .op d (.store ⟨.prepared, c.nextTerm now, drained, drained.componentTotal,
            c.config.strictOwnerComponentId⟩) fun (stored : Bool) =>
          if stored then
            let d : Impl := { d with
              prepared := [(c.config.componentId, drained)]
              state := .leaderPreparing }
            .op d .clock fun (started : ℕ) =>
              .ret
                { d with prepareDeadline := started + c.config.prepareTimeout, nextRetry := 0 } ()
          else .op d .abortHandoff fun _ => .ret { d with activeTerm := 0 } () := by
  unfold Impl.beginLeaderPrepare
  simp only [Script.bind_apply, Script.get_apply, Script.ite_apply, Prog.ret_bind]
  rw [if_neg (by simp [hleader, hidle])]
  refine Prog.op_congr fun reply => ?_
  cases reply with
  | none => rfl
  | some drained =>
    refine Prog.op_congr fun now => Prog.op_congr fun stored => ?_
    cases stored <;> rfl

/-- The map of a round that has just begun. -/
private theorem gathered_own {d : Impl} (hmap : d.prepared = [(d.config.componentId, own)]) :
    Gathered d own [] where
  nodup := by
    rw [hmap]
    exact List.nodup_singleton _
  mem := by
    intro member report
    rw [hmap, List.mem_singleton, reportOf, Prod.mk.injEq]
    split
    · rename_i hself
      simp [hself, eq_comm]
    · rename_i hother
      simp [hother]
  heard := fun _ hframe => absurd hframe List.not_mem_nil

theorem meets_beginLeaderPrepare (hleader : S.isLeader = true) (hidle : c.state = .idle)
    (hterm : c.activeTerm = 0) (hfence : c.recoveryFenced = false)
    (h : Stand S c (Free (Unspent S c w.notes)) (fun _ _ => True) w) :
    ComesToRest S g (Impl.beginLeaderPrepare c) w := by
  have hstart : Stand S c (Free (Unspent S c w.notes))
      (fun _ n => n.amounts = w.notes.amounts) w :=
    ⟨h.configured, h.reachable, h.books, h.engine, rfl⟩
  rw [beginLeaderPrepare_idle (h.configured.isLeader.trans hleader) hidle]
  -- the engine is drained, a term is drawn, the record is stored, and then the members are asked
  refine meets_begin hstart (fun _ _ _ hn => hn) (fun u hu => ComesToRest.ret ?_) ?_
  · refine .idle hidle hterm (hu.mono rfl (fun _ he => he.mono fun h => ⟨h.1, ?_⟩)
      fun _ _ _ => trivial)
    rw [hu.facts]
    exact h.2
  rintro own u ⟨hlast, hunspent⟩ hu
  have hnone : w.notes.amounts = [] := hunspent hfence hleader
  refine meets_draw (G := fun now _ n => n.amounts = [] ∧ (n.begun = some own ∧ n.heard = []) ∧
    ∃ earlier, n.drawn = c.nextTerm now :: earlier) steady_drained hu hidle
    (fun now j n hbooks hn => ?_) fun now u hu => ?_
  · refine ⟨⟨fun hl => ?_, fun term hmem => ?_, hbooks.amounts, hbooks.journaled⟩,
      hn.1.trans hnone, hn.2, n.drawn, rfl⟩
    · rw [List.map_cons, ← hbooks.drawn hl, nextTerm_idle hterm hlast]
    · exact List.mem_cons_of_mem _ (hbooks.announced term hmem)
  have hdrawn : Stand S { c with activeTerm := c.nextTerm now } (Drained own)
      (fun _ n => n.amounts = [] ∧ (n.begun = some own ∧ n.heard = []) ∧
        ∃ earlier, n.drawn = c.nextTerm now :: earlier) u :=
    hu.mono rfl (fun _ he => he) fun _ _ hn => hn
  refine meets_store (G := fun stored j n => (n.amounts = [] ∧
    (n.begun = some own ∧ n.heard = []) ∧ ∃ earlier, n.drawn = c.nextTerm now :: earlier) ∧
      (stored = true → Journaled (c.nextTerm now) j)) steady_drained hdrawn
    (fun outcome j n hbooks hn => ⟨⟨hbooks.drawn, hbooks.announced, hbooks.amounts,
      fun _ => .inl hn.1⟩, hn, fun hstored => ?_⟩) fun stored u hu => ?_
  · cases outcome with
    | stored => exact ⟨_, rfl, rfl, rfl⟩
    | failedBefore => cases hstored
    | failedAfter => cases hstored
  -- with the record on disk the round is on; without it the engine goes back to its peak
  cases stored with
  | true =>
    have hpolling : Stand S { c with
        activeTerm := c.nextTerm now
        prepared := [(c.config.componentId, own)]
        state := .leaderPreparing } (Drained own) (Polling { c with
          activeTerm := c.nextTerm now
          prepared := [(c.config.componentId, own)]
          state := .leaderPreparing } own) u := by
      refine hu.mono rfl (fun _ he => he) fun j n hn =>
        ⟨hlast, hn.1.2.2, hn.1.1, hn.2 rfl, hn.1.2.1.1, ?_⟩
      rw [hn.1.2.1.2]
      exact gathered_own rfl
    refine meets_quiet (Stand.rely steady_drained) Stand.upheld hpolling (.clock nofun)
      fun started u hu => ComesToRest.ret ?_
    refine .preparing own rfl hleader (hu.mono rfl (fun _ he => he) fun j n hn => ?_)
    exact ⟨hn.last, hn.round, hn.amounts, hn.journal, hn.begun,
      hn.gathered.nodup, hn.gathered.mem, hn.gathered.heard⟩
  | false =>
    refine meets_abort (G := fun _ n => n.amounts = []) hu (fun j n hn => ?_)
      fun u hu => ComesToRest.ret ?_
    · rw [show n.record { c with activeTerm := c.nextTerm now } .abortHandoff () = n from
        if_neg (by simp [hidle])]
      exact hn.1.1
    · refine .idle hidle rfl
        (hu.mono rfl (fun _ he => he.mono fun _ => ⟨hlast, fun _ _ => hu.facts⟩)
        fun _ _ _ => trivial)

/-! ### The leader's second phase -/

/-- `try_begin_commit` of a leader in a round, written out. -/
theorem tryBeginCommit_preparing (hstate : c.state = .leaderPreparing)
    (hown : c.prepared.lookup c.config.componentId = some own) :
    Impl.tryBeginCommit c =
      if c.allPrepared then
        match Impl.sumPrepared own 0 c.prepared with
        | none => Impl.abortPrepare true c
        | some total =>
          if total > c.engine.limit then Impl.abortPrepare true c
          else .op c (.store ⟨.committed, c.activeTerm, own, total,
              c.config.strictOwnerComponentId⟩) fun (stored : Bool) =>
            if stored then
              let d : Impl := { c with
                committedTotal := total
                committedCounter := own.counter
                committedEpoch := own.epoch
                commitAcks := [] }
              .op d (.commitHandoff total c.isOwner) fun (installed : Bool) =>
                .ret { d with
                  commitAcks := if installed then [c.config.componentId] else []
                  state := .leaderCommitting
                  nextRetry := 0 } ()
            else .ret { c with state := .leaderCommitBlocked } ()
      else .ret c () := by
  unfold Impl.tryBeginCommit
  simp only [Script.bind_apply, Script.get_apply, Script.ite_apply, Prog.ret_bind,
    Impl.preparedAt_apply hown]
  cases hall : c.allPrepared with
  | false =>
    rw [if_pos (by simp), if_neg (by simp)]
    rfl
  | true =>
    rw [if_neg (by simp [hstate]), if_pos rfl]
    cases Impl.sumPrepared own 0 c.prepared with
    | none => rfl
    | some total =>
      simp only [Script.ite_apply]
      refine if_congr Iff.rfl rfl (Prog.op_congr fun stored => ?_)
      cases stored with
      | false => rfl
      | true =>
        refine Prog.op_congr fun installed => ?_
        cases installed <;> rfl

/-- The leader finds its own report. -/
theorem Gathered.lookup {heard : List Frame} (h : Gathered c own heard) :
    c.prepared.lookup c.config.componentId = some own := by
  have hreport : reportOf c own heard c.config.componentId = some own := if_pos rfl
  have hmem := (h.mem _ _).mpr hreport
  obtain ⟨found, hfound, hlookup⟩ := exists_lookup (List.mem_map_of_mem hmem)
  have hsame := ((h.mem _ _).mp hfound).symm.trans hreport
  rw [hlookup, Option.some.inj hsame]

/-- A round that ends without a decision. -/
theorem comesToRest_abandon {announce : Bool} (hstate : c.state = .leaderPreparing)
    (hleader : S.isLeader = true) (h : Stand S c (Drained own) (Polling c own) w) :
    ComesToRest S g (Impl.abortPrepare announce c) w := by
  have hleaving : Stand S c (Drained own) (fun _ n => Leaving S g c n) w := by
    refine h.mono rfl (fun _ he => he) fun j n hn => ⟨fun _ => ⟨hn.amounts, ?_⟩, fun hf => ?_⟩
    · obtain ⟨earlier, hdrawn⟩ := hn.round
      rw [hdrawn]
      exact List.mem_cons_self
    · rw [hleader] at hf
      cases hf
  refine (meets_abortPrepare (.inl hstate) hleaving).mono ?_
  rintro s _ u ⟨rfl, hu⟩
  have hlast : c.cleared.lastCommittedTerm = 0 := h.facts.last
  have hnone : u.notes.amounts = [] := hu.facts.leader hleader
  exact .idle rfl rfl (hu.mono rfl (fun _ he => he.mono fun _ => ⟨hlast, fun _ _ => hnone⟩)
    fun _ _ _ => trivial)

theorem comesToRest_tryBeginCommit (hstate : c.state = .leaderPreparing)
    (hleader : S.isLeader = true) (h : Stand S c (Drained own) (Polling c own) w) :
    ComesToRest S g (Impl.tryBeginCommit c) w := by
  rw [tryBeginCommit_preparing hstate h.facts.gathered.lookup]
  split
  · cases Impl.sumPrepared own 0 c.prepared with
    | none => exact comesToRest_abandon hstate hleader h
    | some total =>
      dsimp only
      split
      · exact comesToRest_abandon hstate hleader h
      rename_i hwithin
      refine meets_store (G := fun _ _ n => n.amounts = [total]) steady_drained h
        (fun outcome j n hbooks hn => ?_) fun stored u hu => ?_
      · rw [Notes.record_committed n c rfl, hn.amounts]
        refine ⟨⟨hbooks.drawn, hbooks.announced, fun _ => ⟨total, by simp⟩, fun _ => .inr ?_⟩, rfl⟩
        cases outcome with
        | stored => exact ⟨_, rfl, nofun⟩
        | failedAfter => exact ⟨_, rfl, nofun⟩
        | failedBefore =>
          obtain ⟨record, hrecord, hphase, -⟩ := hn.journal
          exact ⟨record, hrecord, by rw [hphase]; nofun⟩
      cases stored with
      | false =>
        exact ComesToRest.ret (.blocked own rfl hleader
          (hu.mono rfl (fun _ he => he) fun _ _ _ => trivial))
      | true =>
        have hdecided : Stand S { c with
            committedTotal := total
            committedCounter := own.counter
            committedEpoch := own.epoch
            commitAcks := [] } (Drained own) (fun _ n => n.amounts = [total]) u :=
          hu.mono rfl (fun _ he => he) fun _ _ hn => hn
        refine meets_commit (G := fun _ _ n => n.amounts ≠ [] ∧ ∀ amount ∈ n.amounts,
          amount = total) hdecided (fun reply j n hbooks hn => ?_) (fun u hu => ?_)
          fun hover => absurd hover hwithin
        · have hamounts : ∀ amount ∈ total :: n.amounts, amount = total := by simp [hn]
          refine ⟨⟨hbooks.drawn, hbooks.announced, fun _ => ⟨total, hamounts⟩, fun hl => .inr ?_⟩,
            List.cons_ne_nil _ _, hamounts⟩
          exact (hbooks.journaled hl).resolve_left (by simp [hn])
        · exact ComesToRest.ret (.committing rfl hleader
            (hu.mono rfl (fun _ he => he) fun _ _ hn => hn))
  · exact ComesToRest.ret (.preparing own hstate hleader h)

/-! ### A participant -/

/-- A participant drains its engine for a term, journals it and reports. -/
theorem comesToRest_prepareFor {term : ℕ} (hfollower : S.isLeader = false)
    (hidle : c.state = .idle) (hterm : c.activeTerm = 0)
    (h : Stand S c (Free (Unspent S c w.notes ∧ Ahead g term w.notes)) (fun _ _ => True) w) :
    ComesToRest S g (Impl.prepareFor term c) w := by
  have hstart : Stand S c (Free (Unspent S c w.notes ∧ Ahead g term w.notes))
      (fun _ n => n.finished = w.notes.finished) w :=
    ⟨h.configured, h.reachable, h.books, h.engine, rfl⟩
  have hunspent : ∀ {d : Impl} {n : Notes}, d.lastCommittedTerm = 0 → Unspent S d n :=
    fun hlast => ⟨hlast, fun _ hl => by rw [hfollower] at hl; cases hl⟩
  -- the engine is drained, the record is stored, and then the report is sent
  refine meets_begin hstart (fun _ _ _ hn => hn) (fun u hu => ComesToRest.ret ?_) ?_
  · exact .idle hidle hterm (hu.mono rfl (fun _ he => he.mono fun h => hunspent h.1.1)
      fun _ _ _ => trivial)
  rintro own u ⟨⟨hlast, -⟩, hahead⟩ hu
  have hdrained : Stand S { c with activeTerm := term } (Drained own)
      (fun _ n => Ahead g term n ∧ n.begun = some own) u := by
    refine hu.mono rfl (fun _ he => he) fun j n hn => ⟨fun hg old hold => hahead hg old ?_, hn.2.1⟩
    rw [← hn.1]
    exact hold
  refine meets_store (G := fun stored j n => (Ahead g term n ∧ n.begun = some own) ∧
      (stored = true → Journaled term j))
    steady_drained hdrained (fun outcome j n hbooks hn => ?_) fun stored u hu => ?_
  · rw [Notes.record_uncommitted _ _ (by nofun)]
    refine ⟨⟨hbooks.drawn, hbooks.announced, hbooks.amounts, fun hl => ?_⟩, hn, fun hstored => ?_⟩
    · rw [hfollower] at hl
      cases hl
    · cases outcome with
      | stored => exact ⟨_, rfl, rfl, rfl⟩
      | failedBefore => cases hstored
      | failedAfter => cases hstored
  cases stored with
  -- the report is on disk before it is sent
  | true =>
    have hprepared : Stand S { c with
        activeTerm := term
        prepared := [(c.config.componentId, own)]
        state := .followerPrepared } (Drained own) (Waiting g term own) u :=
      hu.mono rfl (fun _ he => he) fun _ _ hn => ⟨hn.2 rfl, hn.1.2, hn.1.1⟩
    refine meets_quiet (Stand.rely steady_drained) Stand.upheld hprepared (.clock nofun)
      fun (started : ℕ) u hu => ?_
    have hdeadline : Stand S { c with
        activeTerm := term
        prepared := [(c.config.componentId, own)]
        state := .followerPrepared
        prepareDeadline := started + c.config.prepareTimeout } (Drained own)
        (Waiting g term own) u :=
      hu.mono rfl (fun _ he => he) fun _ _ hn => hn
    refine (meets_sendToComponent (Stand.rely steady_drained) Stand.upheld (.inr (.inl rfl))
      hdeadline).mono ?_
    rintro s _ u ⟨rfl, hu⟩
    exact .prepared own rfl hfollower hlast rfl hu
  | false =>
    refine meets_abort (G := fun _ _ => True) hu (fun _ _ _ => trivial)
      fun u hu => ComesToRest.ret ?_
    exact .idle hidle rfl (hu.mono rfl (fun _ he => he.mono fun _ => hunspent hlast)
      fun _ _ _ => trivial)

/-- A participant leaves the term it is prepared for. -/
theorem meets_release {announce : Bool} (hstate : c.state = .followerPrepared)
    (hfollower : S.isLeader = false)
    (h : Stand S c (Drained own) (Waiting g c.activeTerm own) w) :
    (contract S).Meets (fun s _ w => s = c.cleared ∧ Stand S c.cleared (Free True)
      (fun _ n => g → ∀ old ∈ n.finished, old ≤ c.activeTerm) w)
      (Impl.abortPrepare announce c) w := by
  have hleaving : Stand S c (Drained own) (fun _ n => Leaving S g c n) w := by
    refine h.mono rfl (fun _ he => he) fun _ _ hn => ⟨fun hl => ?_, fun _ => hn.ahead⟩
    rw [hfollower] at hl
    cases hl
  refine (meets_abortPrepare (.inr hstate) hleaving).mono ?_
  rintro s _ u ⟨rfl, hu⟩
  exact ⟨rfl, hu.mono rfl (fun _ he => he) fun _ _ hn => hn.follower hfollower⟩

theorem comesToRest_release {announce : Bool} (hstate : c.state = .followerPrepared)
    (hfollower : S.isLeader = false) (hlast : c.lastCommittedTerm = 0)
    (h : Stand S c (Drained own) (Waiting g c.activeTerm own) w) :
    ComesToRest S g (Impl.abortPrepare announce c) w := by
  refine (meets_release hstate hfollower h).mono ?_
  rintro s _ u ⟨rfl, hu⟩
  exact .idle rfl rfl (hu.mono rfl (fun _ he => he.mono fun _ => ⟨hlast, fun _ hl => by
    rw [hfollower] at hl
    cases hl⟩) fun _ _ _ => trivial)

/-! ### Frames -/

/-- The leader's frames reach a participant only. -/
theorem follower_of_sender {sender : ℕ} (hc : S.Configured c)
    (hsender : sender = c.config.leaderComponentId) (hother : sender ≠ c.config.componentId) :
    S.isLeader = false := by
  rw [← hc.isLeader]
  exact beq_eq_false_iff_ne.mpr (hsender ▸ hother.symm)

/-- A `Prepare` frame of the leader arrives. The terms are ordered if the frame is fresh whenever
the participant is idle and may be in peak mode. -/
theorem comesToRest_handlePrepare {frame : Frame} (h : Rest S g c w)
    (hother : frame.sender ≠ c.config.componentId)
    (hfresh : g → c.state = .idle → w.engine.mode = .strict ∨ w.engine.mode = .reservedPeak →
      frame.sender = c.config.leaderComponentId →
      frame.strictOwner = c.config.strictOwnerComponentId →
      ¬ frame.term < c.lastCommittedTerm → ∀ old ∈ w.notes.finished, old < frame.term) :
    ComesToRest S g (Impl.handlePrepare frame c) w := by
  unfold Impl.handlePrepare
  simp only [Script.bind_apply, Script.get_apply, Prog.ret_bind]
  split
  · exact ComesToRest.ret h
  rename_i hfrom
  push Not at hfrom
  have hfollower := follower_of_sender h.configured hfrom.1 hother
  cases h with
  | idle state term stand =>
    by_cases hold : frame.term < c.lastCommittedTerm
    · simp only [state, reduceCtorEq, false_and, or_self, if_false, if_pos hold, false_or]
      exact ComesToRest.ret (.idle state term stand)
    · simp only [state, reduceCtorEq, false_and, or_self, if_false, if_neg hold, ne_eq,
        not_true_eq_false, false_or]
      -- an idle participant: the frame is newer than every finished term, if it is fresh
      refine comesToRest_prepareFor hfollower state term
        ⟨stand.configured, stand.reachable, stand.books, ?_, trivial⟩
      exact ⟨stand.engine.active, fun hhome => ⟨stand.engine.home hhome,
        fun hg => hfresh hg state hhome hfrom.1 hfrom.2 hold⟩⟩
  | preparing own state role => rw [hfollower] at role; cases role
  | blocked own state role => rw [hfollower] at role; cases role
  | committing state role => rw [hfollower] at role; cases role
  | installing own state role last stand =>
    simp only [state, true_or, if_true]
    exact ComesToRest.ret (.installing own state role last stand)
  | prepared own state role last map stand =>
    simp only [state, last, reduceCtorEq, Nat.not_lt_zero, or_self, if_false, true_and, or_false]
    split
    · exact ComesToRest.ret (.prepared own state role last map stand)
    rename_i hnewer
    split
    · -- a repeated prepare is answered with the same report
      rw [Script.bind_apply, Impl.preparedAt_apply (show _ = some own by rw [map]; simp),
        Prog.ret_bind]
      refine (meets_sendToComponent (Stand.rely steady_drained) Stand.upheld (.inr (.inl rfl))
        stand).mono ?_
      rintro s _ u ⟨rfl, hu⟩
      exact .prepared own state role last map hu
    · -- a newer prepare ends the term first
      rename_i hdiffers
      rw [if_pos nofun]
      refine Contract.Meets.bind ((meets_release state role stand).mono ?_)
      rintro s _ u ⟨rfl, hu⟩
      refine comesToRest_prepareFor role rfl rfl
        ⟨hu.configured, hu.reachable, hu.books, hu.engine.mono fun _ => ⟨⟨last, fun _ hl => ?_⟩,
          fun hg old hold => ?_⟩, trivial⟩
      · rw [role] at hl
        cases hl
      · have hle := hu.facts hg old hold
        omega

/-- A report that counts enters the map. -/
theorem Gathered.hear {frame : Frame} {heard : List Frame} (h : Gathered c own heard)
    (hmember : frame.sender ∈ c.members) (hother : frame.sender ≠ c.config.componentId)
    (htype : frame.type = .prepared) (hterm : frame.term = c.activeTerm) :
    Gathered { c with prepared := Impl.assign frame.sender (reportIn frame) c.prepared } own
      (frame :: heard) where
  nodup := Impl.nodup_assign h.nodup
  mem := by
    intro member report
    rw [Impl.mem_assign h.nodup, h.mem member report]
    unfold reportOf
    dsimp only
    by_cases hself : member = c.config.componentId
    · subst hself
      simp [hother.symm]
    · simp only [hself, if_false, Prod.mk.injEq]
      by_cases hsender : frame.sender = member
      · simp [hsender, eq_comm]
      · simp [hsender, Ne.symm hsender]
  heard := by
    intro other hmem
    rcases List.mem_cons.mp hmem with rfl | hmem
    · exact ⟨hmember, hother, htype, hterm⟩
    · exact h.heard other hmem

/-- What a report that counts says about the leader and the frame. -/
theorem counts_iff {frame : Frame} {source : Endpoint} :
    c.counts frame source = true ↔ c.admits frame source = true ∧ frame.type = .prepared ∧
      c.isLeader = true ∧ c.state = .leaderPreparing ∧ frame.term = c.activeTerm := by
  simp only [Impl.counts, Bool.and_eq_true, beq_iff_eq, and_assoc]

/-- The leader has taken up a report that counts. -/
theorem stand_hear {frame : Frame} {source : Endpoint}
    (h : Stand S c (Drained own) (Polling c own) w) (hcounts : c.counts frame source = true) :
    Stand S { c with prepared := Impl.assign frame.sender (reportIn frame) c.prepared }
      (Drained own)
      (Polling { c with prepared := Impl.assign frame.sender (reportIn frame) c.prepared } own)
      ⟨w.engine, w.journal, w.notes.hear c frame source⟩ := by
  obtain ⟨hadmits, htype, -, -, hterm⟩ := counts_iff.mp hcounts
  unfold Impl.admits at hadmits
  simp only [Bool.and_eq_true, bne_iff_ne, ne_eq, Impl.isMember, List.contains_iff_mem,
    beq_iff_eq] at hadmits
  obtain ⟨⟨⟨-, hother⟩, hmember⟩, -⟩ := hadmits
  unfold Notes.hear
  rw [if_pos hcounts]
  have hbooks := h.books
  have hfacts := h.facts
  exact ⟨h.configured.congr rfl, h.reachable,
    ⟨hbooks.drawn, hbooks.announced, hbooks.amounts, hbooks.journaled⟩, h.engine,
    hfacts.last, hfacts.round, hfacts.amounts, hfacts.journal, hfacts.begun,
    hfacts.gathered.hear hmember hother htype hterm⟩

/-- The leader takes up a report that counts and tries to commit. -/
theorem handlePrepared_counts {frame : Frame} {source : Endpoint}
    (hcounts : c.counts frame source = true) :
    Impl.handlePrepared frame c = Impl.tryBeginCommit
      { c with prepared := Impl.assign frame.sender (reportIn frame) c.prepared } := by
  obtain ⟨-, -, hleader, hstate, hterm⟩ := counts_iff.mp hcounts
  unfold Impl.handlePrepared
  simp only [Script.bind_apply, Script.get_apply, Script.ite_apply, Prog.ret_bind]
  rw [if_neg (by simp [hleader, hstate, hterm])]
  rfl

theorem comesToRest_handlePrepared {frame : Frame} {source : Endpoint} (h : Rest S g c w)
    (hadmits : c.admits frame source = true) (htype : frame.type = .prepared) :
    ComesToRest S g (Impl.handlePrepared frame c)
      ⟨w.engine, w.journal, w.notes.hear c frame source⟩ := by
  by_cases hcounts : c.counts frame source = true
  · have hstate := (counts_iff.mp hcounts).2.2.2.1
    obtain ⟨own, role, stand⟩ := h.of_preparing hstate
    rw [handlePrepared_counts hcounts]
    exact comesToRest_tryBeginCommit hstate role (stand_hear stand hcounts)
  · have hpasses : (!c.isLeader || c.state ≠ .leaderPreparing || frame.term ≠ c.activeTerm) =
        true := by
      by_contra hfails
      refine hcounts (counts_iff.mpr ⟨hadmits, htype, ?_⟩)
      simpa [and_assoc] using hfails
    unfold Impl.handlePrepared Notes.hear
    simp only [Script.bind_apply, Script.get_apply, Script.ite_apply, Prog.ret_bind]
    rw [if_pos hpasses, if_neg hcounts]
    exact ComesToRest.ret h

/-- An answer that changes nothing. -/
theorem comesToRest_answer {type : WireType} {component term counter epoch value : ℕ}
    (htype : type = .trigger ∨ type = .prepared ∨ type = .commitAck) (h : Rest S g c w) :
    ComesToRest S g (Impl.sendToComponent type component term counter epoch value c) w := by
  refine (meets_sendToComponent Rest.rely Rest.upheld htype h).mono ?_
  rintro s _ u ⟨rfl, hu⟩
  exact hu

/-- A participant takes the decision on the term it is in: it stores, installs and acknowledges. -/
theorem comesToRest_install {frame : Frame} (hstate : c.state = .followerCommitting)
    (hfollower : S.isLeader = false) (hlast : c.lastCommittedTerm = 0)
    (h : Stand S c (Drained own) (fun _ n => Ahead g c.activeTerm n) w) :
    ComesToRest S g ((do
      if ← Impl.persist .committed frame.term ⟨frame.counter, frame.epoch, frame.value⟩
          frame.value then
        if ← commitDistributedHandoff frame.value c.isOwner then
          modify fun c => { c with
            lastCommittedTerm := frame.term
            state := .idle
            activeTerm := 0 }
          Impl.sendToComponent .commitAck c.config.leaderComponentId frame.term frame.counter
            frame.epoch frame.value : HandoffM Unit) c) w := by
  have hnot : ∀ {p : Prop}, S.isLeader = true → p := fun hl => by
    rw [hfollower] at hl
    cases hl
  have hbooked : ∀ {j j' n n'}, Books S j n → n'.drawn = n.drawn →
      n'.announced = n.announced → Books S j' n' := fun hbooks hdrawn hannounced =>
    ⟨hnot, by rw [hdrawn, hannounced]; exact hbooks.announced, hnot, hnot⟩
  refine meets_store (G := fun _ _ n => Ahead g c.activeTerm n) steady_drained h
    (fun outcome j n hbooks hn => ?_) fun stored u hu => ?_
  · rw [Notes.record_committed n c rfl]
    exact ⟨hbooked hbooks rfl rfl, hn⟩
  cases stored with
  | false => exact ComesToRest.ret (.installing own hstate hfollower hlast hu)
  | true =>
    refine meets_commit (G := fun reply _ n => reply = false → Ahead g c.activeTerm n) hu
      (fun reply j n hbooks hn => ⟨hbooked hbooks rfl rfl, ?_⟩) (fun u hu => ?_) fun _ u hu => ?_
    · rintro rfl
      have hsame : (n.record c (.commitHandoff frame.value c.isOwner) false).finished =
          n.finished := if_neg (by simp)
      unfold Ahead
      rw [hsame]
      exact hn
    · refine comesToRest_answer (.inr (.inr rfl)) (.idle rfl rfl ?_)
      exact ⟨hu.configured.congr rfl, hu.reachable, hu.books, hu.engine.mono False.elim, trivial⟩
    · exact ComesToRest.ret (.installing own hstate hfollower hlast
        (hu.mono rfl (fun _ he => he) fun _ _ hn => hn rfl))

/-- A `Commit` frame of the leader arrives. -/
theorem comesToRest_handleCommit {frame : Frame} (h : Rest S g c w)
    (hother : frame.sender ≠ c.config.componentId) :
    ComesToRest S g (Impl.handleCommit frame c) w := by
  unfold Impl.handleCommit
  simp only [Script.bind_apply, Script.get_apply, Prog.ret_bind]
  split
  · exact ComesToRest.ret h
  rename_i hfrom
  push Not at hfrom
  have hfollower := follower_of_sender h.configured hfrom.1 hother
  split
  · exact comesToRest_answer (.inr (.inr rfl)) h
  split
  · exact ComesToRest.ret h
  rename_i hterm
  cases h with
  | prepared own state role last map stand =>
    exact comesToRest_install (c := { c with state := .followerCommitting }) rfl role
      last (stand.mono rfl (fun _ he => he) fun _ _ hn => hn.ahead)
  | installing own state role last stand =>
    exact comesToRest_install (c := { c with state := .followerCommitting }) rfl role
      last (stand.mono rfl (fun _ he => he) fun _ _ hn => hn)
  | idle state => exact absurd (.inl ⟨by simp [state], by simp [state]⟩) hterm
  | preparing _ _ role => rw [hfollower] at role; cases role
  | blocked _ _ role => rw [hfollower] at role; cases role
  | committing _ role => rw [hfollower] at role; cases role

/-- An acknowledgement arrives. -/
theorem comesToRest_handleCommitAck {frame : Frame} (h : Rest S g c w) :
    ComesToRest S g (Impl.handleCommitAck frame c) w := by
  unfold Impl.handleCommitAck
  simp only [Script.bind_apply, Script.get_apply, Script.modify_apply, Script.ite_apply,
    Prog.ret_bind]
  split
  · exact ComesToRest.ret h
  rename_i hcounts
  simp only [Bool.or_eq_true, Bool.not_eq_true', decide_eq_true_eq, not_or, Bool.not_eq_false,
    not_not] at hcounts
  obtain ⟨⟨-, hstate⟩, -⟩ := hcounts
  obtain ⟨role, stand⟩ := h.of_committing hstate
  split
  · refine ComesToRest.ret (.idle rfl rfl ?_)
    exact ⟨stand.configured.congr rfl, stand.reachable, stand.books,
      stand.engine.mono False.elim, trivial⟩
  · exact ComesToRest.ret (.committing hstate role (stand.mono rfl (fun _ he => he)
      fun _ _ hn => hn))

/-- An `Abort` frame arrives. -/
theorem comesToRest_handleAbort {frame : Frame} (h : Rest S g c w) :
    ComesToRest S g (Impl.handleAbort frame c) w := by
  unfold Impl.handleAbort
  simp only [Script.bind_apply, Script.get_apply, Script.ite_apply, Prog.ret_bind]
  split
  · rename_i hcounts
    obtain ⟨own, role, last, -, stand⟩ := h.of_prepared hcounts.2.2
    exact comesToRest_release hcounts.2.2 role last stand
  · exact ComesToRest.ret h

/-- An idle leader may begin a round. -/
theorem comesToRest_beginLeaderPrepare (h : Rest S g c w) (hleader : c.isLeader = true)
    (hfence : c.recoveryFenced = false) : ComesToRest S g (Impl.beginLeaderPrepare c) w := by
  by_cases hidle : c.state = .idle
  · obtain ⟨term, stand⟩ := h.of_idle hidle
    exact meets_beginLeaderPrepare (stand.configured.isLeader.symm.trans hleader) hidle term hfence
      stand
  · unfold Impl.beginLeaderPrepare
    simp only [Script.bind_apply, Script.get_apply, Script.ite_apply, Prog.ret_bind]
    rw [if_pos (by simp [hidle])]
    exact ComesToRest.ret h

/-- Only a report that counts is noted. -/
theorem hear_other {frame : Frame} {source : Endpoint} {n : Notes}
    (h : c.admits frame source = false ∨ frame.type ≠ .prepared) : n.hear c frame source = n := by
  unfold Notes.hear
  rw [if_neg]
  rcases h with h | h <;> simp [Impl.counts, h]

/-- **A frame.** Whatever arrives, the controller comes to rest. -/
theorem comesToRest_handleFrame {frame : Frame} {source : Endpoint} (h : Rest S g c w)
    (hfresh : g → c.admits frame source = true → frame.type = .prepare → c.state = .idle →
      w.engine.mode = .strict ∨ w.engine.mode = .reservedPeak →
      frame.sender = c.config.leaderComponentId →
      frame.strictOwner = c.config.strictOwnerComponentId →
      ¬ frame.term < c.lastCommittedTerm → ∀ old ∈ w.notes.finished, old < frame.term) :
    ComesToRest S g (Impl.handleFrame frame source c)
      ⟨w.engine, w.journal, w.notes.hear c frame source⟩ := by
  unfold Impl.handleFrame
  simp only [Script.bind_apply, Script.get_apply, Script.ite_apply, Prog.ret_bind]
  split
  · rename_i hfence
    rw [hear_other (.inl (by simp [Impl.admits, hfence]))]
    exact ComesToRest.ret h
  rename_i hfence
  rw [Bool.not_eq_true] at hfence
  split
  · rename_i hforeign
    rw [hear_other (.inl (by
      rcases hforeign with hforeign | hforeign <;> simp_all [Impl.admits]))]
    exact ComesToRest.ret h
  rename_i hforeign
  push Not at hforeign
  obtain ⟨hother, hforeign⟩ := hforeign
  have hmember : c.isMember frame.sender = true := by simpa using hforeign
  split
  · rename_i hsource
    rw [hear_other (.inl (by simp [Impl.admits, hsource]))]
    exact ComesToRest.ret h
  rename_i hsource
  have hadmits : c.admits frame source = true := by
    simp [Impl.admits, hfence, hother, hmember, not_not.mp hsource]
  -- past the three tests the frame is admitted; a report is the only one that is heard
  cases htype : frame.type with
  | prepared => exact comesToRest_handlePrepared h hadmits htype
  | trigger =>
    rw [hear_other (.inr (by simp [htype]))]
    simp only [Script.ite_apply]
    split
    · exact comesToRest_beginLeaderPrepare h ‹_› hfence
    · exact ComesToRest.ret h
  | prepare =>
    rw [hear_other (.inr (by simp [htype]))]
    exact comesToRest_handlePrepare h hother fun hg => hfresh hg hadmits htype
  | commit =>
    rw [hear_other (.inr (by simp [htype]))]
    exact comesToRest_handleCommit h hother
  | commitAck =>
    rw [hear_other (.inr (by simp [htype]))]
    exact comesToRest_handleCommitAck h
  | abort =>
    rw [hear_other (.inr (by simp [htype]))]
    exact comesToRest_handleAbort h

/-! ### Ticks -/

theorem comesToRest_triggerHandoff {now : ℕ} (h : Rest S g c w) :
    ComesToRest S g (Impl.triggerHandoff now c) w := by
  -- only an idle controller looks at its danger test
  by_cases hbusy : c.recoveryFenced = true ∨ c.state ≠ .idle
  · rw [Impl.triggerHandoff_busy hbusy]
    exact ComesToRest.ret h
  push Not at hbusy
  have hfence : c.recoveryFenced = false := by simpa using hbusy.1
  rw [Impl.triggerHandoff_idle hfence hbusy.2]
  refine meets_quiet Rest.rely Rest.upheld h .mode fun mode u hu => ?_
  split
  · exact ComesToRest.ret hu
  split
  · refine meets_quiet Rest.rely Rest.upheld hu .peakTotal fun total u hu => ?_
    split
    · split
      · exact comesToRest_beginLeaderPrepare hu ‹_› hfence
      split
      · refine Contract.Meets.bind
          ((meets_sendToComponent Rest.rely Rest.upheld (.inl rfl) hu).mono ?_)
        rintro s _ u ⟨rfl, hu⟩
        obtain ⟨term, stand⟩ := hu.of_idle hbusy.2
        exact ComesToRest.ret (.idle hbusy.2 term (stand.mono rfl (fun _ he => he)
          fun _ _ hn => hn))
      · exact ComesToRest.ret hu
    · exact ComesToRest.ret hu
  · exact ComesToRest.ret hu

/-- The part of a tick that times out and sends again. -/
theorem comesToRest_retryPhase {now : ℕ} (h : Rest S g c w) :
    ComesToRest S g (Impl.retryPhase now c) w := by
  unfold Impl.retryPhase
  simp only [Script.bind_apply, Script.get_apply, Script.ite_apply, Prog.ret_bind]
  split
  · rename_i hstate
    obtain ⟨own, role, stand⟩ := h.of_preparing hstate
    split
    · exact comesToRest_abandon hstate role stand
    split
    · rw [Impl.preparedAt_apply stand.facts.gathered.lookup, Prog.ret_bind]
      refine Contract.Meets.bind ((meets_sendEach steady_drained (fun j n hbooks hn => ?_)
        stand).mono ?_)
      · -- the term that is announced is the one drawn for the round
        obtain ⟨earlier, hdrawn⟩ := hn.round
        refine ⟨⟨hbooks.drawn, fun term hterm => ?_, hbooks.amounts, hbooks.journaled⟩,
          hn.last, hn.round, hn.amounts, hn.journal, hn.begun, hn.gathered⟩
        rcases List.mem_cons.mp hterm with rfl | hterm
        · change c.activeTerm ∈ n.drawn
          rw [hdrawn]
          exact List.mem_cons_self
        · exact hbooks.announced term hterm
      · rintro s _ u ⟨rfl, hu⟩
        refine ComesToRest.ret (.preparing own hstate role (hu.mono rfl (fun _ he => he)
          fun j n hn => ?_))
        exact ⟨hn.last, hn.round, hn.amounts, hn.journal, hn.begun,
          hn.gathered.nodup, hn.gathered.mem, hn.gathered.heard⟩
    · exact ComesToRest.ret h
  split
  · rename_i hstate
    obtain ⟨own, role, last, map, stand⟩ := h.of_prepared hstate
    split
    · exact comesToRest_release hstate role last stand
    split
    · rw [Impl.preparedAt_apply (show _ = some own by rw [map]; simp), Prog.ret_bind]
      refine Contract.Meets.bind ((meets_sendToComponent (Stand.rely steady_drained) Stand.upheld
        (.inr (.inl rfl)) stand).mono ?_)
      rintro s _ u ⟨rfl, hu⟩
      exact ComesToRest.ret (.prepared own hstate role last map (hu.mono rfl (fun _ he => he)
        fun _ _ hn => ⟨hn.journal, hn.begun, hn.ahead⟩))
    · exact ComesToRest.ret h
  split
  · rename_i hdue
    obtain ⟨role, stand⟩ := h.of_committing hdue.1
    refine Contract.Meets.bind ((meets_sendEach steady_free (fun j n hbooks hn => ?_)
      stand).mono ?_)
    · have hamounts : ∀ amount ∈ c.committedTotal :: n.amounts, amount = c.committedTotal :=
        List.forall_mem_cons.mpr ⟨rfl, hn.2⟩
      exact ⟨⟨hbooks.drawn, hbooks.announced, fun _ => ⟨_, hamounts⟩,
        fun hl => .inr ((hbooks.journaled hl).resolve_left hn.1)⟩, List.cons_ne_nil _ _, hamounts⟩
    · rintro s _ u ⟨rfl, hu⟩
      exact ComesToRest.ret (.committing hdue.1 role (hu.mono rfl (fun _ he => he)
        fun _ _ hn => hn))
  · exact ComesToRest.ret h

/-- **A tick.** At any clock reading the controller comes to rest. -/
theorem comesToRest_tick {now : ℕ} (h : Rest S g c w) : ComesToRest S g (Impl.tick now c) w :=
  Contract.Meets.bind
    ((comesToRest_triggerHandoff h).mono fun _ _ _ hu => comesToRest_retryPhase hu)

/-- **A stop.** -/
theorem comesToRest_stop (h : Rest S g c w) : ComesToRest S g (Impl.stop c) w := by
  unfold Impl.stop
  simp only [Script.bind_apply, Script.get_apply, Script.ite_apply, Prog.ret_bind]
  split
  · rename_i hbusy
    rcases hbusy with hstate | hstate
    · obtain ⟨own, role, stand⟩ := h.of_preparing hstate
      exact comesToRest_abandon hstate role stand
    · obtain ⟨own, role, last, -, stand⟩ := h.of_prepared hstate
      exact comesToRest_release hstate role last stand
  · exact ComesToRest.ret h

end Process

end HotCounter
