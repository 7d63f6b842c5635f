import HotCounter.Handoff.Process

/-!
# The effects keep the contract

One rule for each kind of effect of a controller's program, and the rules for sending and for
aborting that follow from them.
-/

namespace HotCounter

namespace Process

open Foundation
open CounterEngine (Free Drained)

variable {S : Site} {g : Prop} {c : Impl} {w : Desk} {E : CounterEngine → Prop}
  {F G : Option JournalRecord → Notes → Prop} {P : Prop} {own : DrainedPeakState}

/-! ### Effects -/

section Effects

variable {Q : Impl → Unit → Desk → Prop}

/-- The effects that an observer does not note. -/
inductive Quiet (c : Impl) : Effect → Prop
  | mode : Quiet c .mode
  | peakTotal : Quiet c .peakTotal
  | clock (h : c.state ≠ .idle) : Quiet c .clock
  | send (destination : Endpoint) (frame : Frame)
    (h : frame.type = .trigger ∨ frame.type = .prepared ∨ frame.type = .commitAck) :
    Quiet c (.send destination frame)

/-- Such an effect changes nothing. -/
theorem Quiet.step {e : Effect} {r : Reply e} {w' : Desk} (he : Quiet c e)
    (hs : (contract S).step c e w r w') : e.Kept w w' r ∧ w' = w := by
  obtain ⟨oracle, engine, journal, packets, hrun, rfl⟩ := hs
  cases he with
  | mode =>
    obtain ⟨rfl, rfl, rfl, -⟩ := Option.some.inj hrun
    exact ⟨trivial, rfl⟩
  | peakTotal =>
    obtain ⟨rfl, rfl, rfl, -⟩ := Option.some.inj hrun
    exact ⟨trivial, rfl⟩
  | clock hstate =>
    obtain ⟨rfl, rfl, rfl, -⟩ := Option.some.inj hrun
    have hsame : w.notes.record c .clock oracle.now = w.notes := if_neg hstate
    rw [hsame]
    exact ⟨trivial, rfl⟩
  | send destination frame htype =>
    obtain ⟨rfl, rfl, rfl, -⟩ := Option.some.inj hrun
    have hsame : w.notes.record c (.send destination frame) () = w.notes := by
      change w.notes.say frame = _
      unfold Notes.say
      rcases htype with h | h | h <;> rw [h]
    rw [hsame]
    exact ⟨trivial, rfl⟩

/-- An assertion that the other threads cannot falsify survives a quiet effect. -/
theorem meets_quiet {A : Desk → Prop} {e : Effect} {k : Reply e → Prog Impl Reply Unit}
    (hA : ∀ {w w'}, A w → (contract S).rely w w' → A w')
    (hup : ∀ {w}, A w → Upheld S w) (h : A w) (he : Quiet c e)
    (hk : ∀ r w, A w → (contract S).Meets Q (k r) w) : (contract S).Meets Q (.op c e k) w := by
  refine Contract.Meets.op h ?_ hA fun w r w' hw hs => ?_
  · rintro rfl
    cases he
  obtain ⟨hkept, rfl⟩ := he.step hs
  exact ⟨⟨hkept, hup hw⟩, hk r w' hw⟩

/-- Sending a frame that is noted. -/
theorem meets_send {destination : Endpoint} {frame : Frame}
    {k : Reply (.send destination frame) → Prog Impl Reply Unit} (hE : Steady S E)
    (h : Stand S c E F w)
    (hsay : ∀ j n, Books S j n → F j n → Books S j (n.say frame) ∧ G j (n.say frame))
    (hk : ∀ w, Stand S c E G w → (contract S).Meets Q (k ()) w) :
    (contract S).Meets Q (.op c (.send destination frame) k) w := by
  refine Contract.Meets.op h nofun (Stand.rely hE) fun w r w' hw hs => ?_
  obtain ⟨oracle, engine, journal, packets, hrun, rfl⟩ := hs
  obtain ⟨rfl, rfl, rfl, -⟩ := Option.some.inj hrun
  obtain ⟨hbooks, hfacts⟩ := hsay _ _ hw.books hw.facts
  exact ⟨⟨trivial, hw.reachable, hbooks⟩,
    hk _ ⟨hw.configured, hw.reachable, hbooks, hw.engine, hfacts⟩⟩

/-- `begin_distributed_handoff`: refused outside peak mode, else the engine is drained. -/
theorem meets_begin {k : Reply .beginHandoff → Prog Impl Reply Unit} (h : Stand S c (Free P) F w)
    (hF : ∀ reply j n, F j n → F j { n with begun := reply, heard := [] })
    (hnone : ∀ w, Stand S c (Free P) F w → (contract S).Meets Q (k none) w)
    (hsome : ∀ own w, P → Stand S c (Drained own)
      (fun j n => F j n ∧ n.begun = some own ∧ n.heard = []) w →
      (contract S).Meets Q (k (some own)) w) :
    (contract S).Meets Q (.op c .beginHandoff k) w := by
  refine Contract.Meets.op h nofun (Stand.rely steady_free) fun w r w' hw hs => ?_
  obtain ⟨oracle, engine, journal, packets, hrun, rfl⟩ := hs
  have hreach := hw.reachable.run .beginHandoff
  have hbooks : ∀ reply, Books S w.journal { w.notes with begun := reply, heard := [] } := by
    obtain ⟨hdrawn, hannounced, hamounts, hjournaled⟩ := hw.books
    exact fun _ => ⟨hdrawn, hannounced, hamounts, hjournaled⟩
  by_cases hmode : w.engine.mode = .reservedPeak
  · have hbegin := CounterEngine.beginDistributedHandoff_some hw.engine.active hmode
    simp only [CounterEngine.run] at hreach
    simp only [Effect.run, hbegin] at hrun hreach
    obtain ⟨rfl, rfl, rfl, -⟩ := Option.some.inj hrun
    exact ⟨⟨trivial, hreach, hbooks _⟩, hsome _ _ (hw.engine.peak hmode)
      ⟨hw.configured, hreach, hbooks _, ⟨hmode, rfl, rfl, rfl⟩, hF _ _ _ hw.facts, rfl, rfl⟩⟩
  · have hbegin := CounterEngine.beginDistributedHandoff_none (.inr hmode)
    simp only [Effect.run, hbegin] at hrun
    obtain ⟨rfl, rfl, rfl, -⟩ := Option.some.inj hrun
    exact ⟨⟨trivial, hw.reachable, hbooks _⟩,
      hnone _ ⟨hw.configured, hw.reachable, hbooks _, hw.engine, hF _ _ _ hw.facts⟩⟩

/-- `abort_distributed_handoff` reopens the peak gate. -/
theorem meets_abort {k : Reply .abortHandoff → Prog Impl Reply Unit}
    (h : Stand S c (Drained own) F w)
    (hF : ∀ j n, F j n → G j (n.record c .abortHandoff ()))
    (hk : ∀ w, Stand S c (Free True) G w → (contract S).Meets Q (k ()) w) :
    (contract S).Meets Q (.op c .abortHandoff k) w := by
  refine Contract.Meets.op h nofun (Stand.rely steady_drained) fun w r w' hw hs => ?_
  obtain ⟨oracle, engine, journal, packets, hrun, rfl⟩ := hs
  obtain ⟨rfl, rfl, rfl, -⟩ := Option.some.inj hrun
  have hbooks : Books S w.journal (w.notes.record c .abortHandoff ()) := by
    obtain ⟨hdrawn, hannounced, hamounts, hjournaled⟩ := hw.books
    unfold Notes.record
    dsimp only
    split
    · exact ⟨hdrawn, hannounced, hamounts, hjournaled⟩
    · exact ⟨hdrawn, hannounced, hamounts, hjournaled⟩
  refine ⟨⟨trivial, hw.reachable.run .abortHandoff, hbooks⟩,
    hk _ ⟨hw.configured, hw.reachable.run .abortHandoff, hbooks, ?_, hF _ _ hw.facts⟩⟩
  change Free True w.engine.abortDistributedHandoff
  rw [CounterEngine.abortDistributedHandoff_peak hw.engine.active hw.engine.mode]
  exact ⟨rfl, fun _ => trivial⟩

/-- A store, with whatever outcome. -/
theorem meets_store {record : JournalRecord} {k : Reply (.store record) → Prog Impl Reply Unit}
    {G : Bool → Option JournalRecord → Notes → Prop} (hE : Steady S E) (h : Stand S c E F w)
    (hstore : ∀ (outcome : StoreOutcome) j n, Books S j n → F j n →
      Books S (outcome.file j record) (n.record c (.store record) outcome.reported) ∧
        G outcome.reported (outcome.file j record) (n.record c (.store record) outcome.reported))
    (hk : ∀ (stored : Bool) w, Stand S c E (G stored) w → (contract S).Meets Q (k stored) w) :
    (contract S).Meets Q (.op c (.store record) k) w := by
  refine Contract.Meets.op h nofun (Stand.rely hE) fun w r w' hw hs => ?_
  obtain ⟨oracle, engine, journal, packets, hrun, rfl⟩ := hs
  obtain ⟨rfl, rfl, rfl, -⟩ := Option.some.inj hrun
  obtain ⟨hbooks, hfacts⟩ := hstore oracle.store _ _ hw.books hw.facts
  exact ⟨⟨trivial, hw.reachable, hbooks⟩,
    hk _ _ ⟨hw.configured, hw.reachable, hbooks, hw.engine, hfacts⟩⟩

/-- The clock reading from which a term is drawn. -/
theorem meets_draw {k : Reply .clock → Prog Impl Reply Unit}
    {G : ℕ → Option JournalRecord → Notes → Prop} (hE : Steady S E) (h : Stand S c E F w)
    (hidle : c.state = .idle)
    (hdraw : ∀ now j n, Books S j n → F j n →
      Books S j { n with readings := now :: n.readings, drawn := c.nextTerm now :: n.drawn } ∧
        G now j { n with readings := now :: n.readings, drawn := c.nextTerm now :: n.drawn })
    (hk : ∀ (now : ℕ) w, Stand S c E (G now) w → (contract S).Meets Q (k now) w) :
    (contract S).Meets Q (.op c .clock k) w := by
  refine Contract.Meets.op h nofun (Stand.rely hE) fun w r w' hw hs => ?_
  obtain ⟨oracle, engine, journal, packets, hrun, rfl⟩ := hs
  obtain ⟨rfl, rfl, rfl, -⟩ := Option.some.inj hrun
  have hdrawn : w.notes.record c .clock oracle.now = { w.notes with
      readings := oracle.now :: w.notes.readings
      drawn := c.nextTerm oracle.now :: w.notes.drawn } := if_pos hidle
  rw [hdrawn]
  obtain ⟨hbooks, hfacts⟩ := hdraw oracle.now _ _ hw.books hw.facts
  exact ⟨⟨trivial, hw.reachable, hbooks⟩,
    hk _ _ ⟨hw.configured, hw.reachable, hbooks, hw.engine, hfacts⟩⟩

private theorem commit_of_run {engine engine' : CounterEngine}
    {journal journal' : Option JournalRecord} {total : ℕ} {owner reply : Bool}
    {packets : List Packet}
    (h : some ((engine.commitDistributedHandoff total owner).1,
      (engine.commitDistributedHandoff total owner).2, journal, ([] : List Packet)) =
        some (reply, engine', journal', packets)) :
    reply = (engine.commitDistributedHandoff total owner).1 ∧
      engine' = (engine.commitDistributedHandoff total owner).2 ∧ journal' = journal := by
  simp only [Option.some.injEq, Prod.mk.injEq] at h
  exact ⟨h.1.symm, h.2.1.symm, h.2.2.1.symm⟩

/-- `commit_distributed_handoff` installs a total within the limit and refuses any other. -/
theorem meets_commit {total : ℕ} {owner : Bool}
    {k : Reply (.commitHandoff total owner) → Prog Impl Reply Unit}
    {G : Bool → Option JournalRecord → Notes → Prop} (h : Stand S c (Drained own) F w)
    (hcommit : ∀ (reply : Bool) j n, Books S j n → F j n →
      Books S j (n.record c (.commitHandoff total owner) reply) ∧
        G reply j (n.record c (.commitHandoff total owner) reply))
    (htrue : ∀ w, Stand S c (Free False) (G true) w → (contract S).Meets Q (k true) w)
    (hfalse : c.engine.limit < total → ∀ w, Stand S c (Drained own) (G false) w →
      (contract S).Meets Q (k false) w) :
    (contract S).Meets Q (.op c (.commitHandoff total owner) k) w := by
  refine Contract.Meets.op h nofun (Stand.rely steady_drained) fun w r w' hw hs => ?_
  obtain ⟨oracle, engine, journal, packets, hrun, rfl⟩ := hs
  have hreach : CounterEngine.Reachable S.config.engine
      (w.engine.commitDistributedHandoff total owner).2 :=
    hw.reachable.run (.commitHandoff total owner)
  obtain ⟨hr, rfl, rfl⟩ := commit_of_run hrun
  by_cases hle : total ≤ w.engine.limit
  · obtain ⟨hreply, hinst, -, -⟩ :=
      hw.reachable.sound.1.commit owner hw.engine.active hw.engine.mode hle
    obtain rfl : r = true := hr.trans hreply
    obtain ⟨hbooks, hfacts⟩ := hcommit true _ _ hw.books hw.facts
    refine ⟨⟨fun _ => ⟨rfl, hinst.value, hinst.mode⟩, hreach, hbooks⟩,
      htrue _ ⟨hw.configured, hreach, hbooks, .of_left hinst.active ?_ ?_, hfacts⟩⟩
    · exact hinst.mode ▸ CounterEngine.handoffMode_ne_strict owner
    · exact hinst.mode ▸ CounterEngine.handoffMode_ne_reservedPeak owner
  · have hrefused : w.engine.commitDistributedHandoff total owner = (false, w.engine) :=
      CounterEngine.commitDistributedHandoff_refused (Nat.not_le.mp hle)
    obtain rfl : r = false := hr.trans (congrArg Prod.fst hrefused)
    rw [hrefused]
    obtain ⟨hbooks, hfacts⟩ := hcommit false _ _ hw.books hw.facts
    refine ⟨⟨fun hwithin => absurd hwithin hle, hw.reachable, hbooks⟩,
      hfalse ?_ _ ⟨hw.configured, hw.reachable, hbooks, hw.engine, hfacts⟩⟩
    rw [← hw.limit]
    exact Nat.not_le.mp hle

end Effects

/-! ### Sending -/

/-- A row of frames, each of which leaves the facts as they are. -/
theorem meets_sendEach {type : WireType} {term counter epoch value : ℕ} (hE : Steady S E)
    (hsay : ∀ j n, Books S j n → F j n →
      Books S j (n.say (c.frame type term counter epoch value)) ∧
        F j (n.say (c.frame type term counter epoch value))) :
    ∀ {peers : List (ℕ × Endpoint)} {w : Desk}, Stand S c E F w →
      (contract S).Meets (fun s _ w => s = c ∧ Stand S c E F w)
        (Impl.sendEach type term counter epoch value peers c) w
  | [], _, h => Contract.Meets.ret h (Stand.rely hE) fun _ hw => ⟨rfl, hw⟩
  | _ :: _, _, h => meets_send hE h hsay fun _ hw => meets_sendEach hE hsay hw

theorem meets_sendToComponent {A : Desk → Prop} {type : WireType}
    {component term counter epoch value : ℕ} (hA : ∀ {w w'}, A w → (contract S).rely w w' → A w')
    (hup : ∀ {w}, A w → Upheld S w)
    (htype : type = .trigger ∨ type = .prepared ∨ type = .commitAck) (h : A w) :
    (contract S).Meets (fun s _ w => s = c ∧ A w)
      (Impl.sendToComponent type component term counter epoch value c) w := by
  have hdone : ∀ w, A w → (contract S).Meets (fun s _ w => s = c ∧ A w) (.ret c ()) w :=
    fun _ hw => Contract.Meets.ret hw hA fun _ hw => ⟨rfl, hw⟩
  unfold Impl.sendToComponent
  simp only [Script.bind_apply, Script.get_apply, Prog.ret_bind]
  cases c.peers.lookup component with
  | none => exact hdone w h
  | some endpoint => exact meets_quiet hA hup h (.send endpoint _ htype) fun _ w hw => hdone w hw

/-! ### Aborting -/

/-- What a controller needs to know when it leaves a term. -/
structure Leaving (S : Site) (g : Prop) (c : Impl) (n : Notes) : Prop where
  leader : S.isLeader = true → n.amounts = [] ∧ c.activeTerm ∈ n.drawn
  follower : S.isLeader = false → Ahead g c.activeTerm n

/-- What holds once it has left a term. -/
structure Left (S : Site) (g : Prop) (term : ℕ) (n : Notes) : Prop where
  leader : S.isLeader = true → n.amounts = []
  follower : S.isLeader = false → g → ∀ old ∈ n.finished, old ≤ term

/-- `abort_prepare` of a prepared controller, written out. -/
theorem abortPrepare_busy {announce : Bool}
    (hstate : c.state = .leaderPreparing ∨ c.state = .followerPrepared) :
    Impl.abortPrepare announce c = .op c .abortHandoff fun _ =>
      .op c (.store ⟨.idle, 0, {}, 0, c.config.strictOwnerComponentId⟩) fun _ =>
        (if announce && c.isLeader then Impl.broadcast .abort c.activeTerm 0 0 0 c
          else .ret c ()).bind fun s _ => .ret s.cleared () := by
  unfold Impl.abortPrepare
  simp only [Script.bind_apply, Script.get_apply, Prog.ret_bind, if_pos hstate]
  cases announce && c.isLeader <;> rfl

theorem meets_abortPrepare {announce : Bool}
    (hstate : c.state = .leaderPreparing ∨ c.state = .followerPrepared)
    (h : Stand S c (Drained own) (fun _ n => Leaving S g c n) w) :
    (contract S).Meets (fun s _ w => s = c.cleared ∧
      Stand S c.cleared (Free True) (fun _ n => Left S g c.activeTerm n) w)
      (Impl.abortPrepare announce c) w := by
  rw [abortPrepare_busy hstate]
  refine meets_abort (G := fun _ n => Left S g c.activeTerm n ∧
    (S.isLeader = true → c.activeTerm ∈ n.drawn)) h (fun j n hn => ?_) fun w hw => ?_
  · -- a participant notes that it has left its term
    unfold Notes.record
    dsimp only
    split
    · refine ⟨⟨fun hl => (hn.leader hl).1, fun hf hg old hold => ?_⟩, fun hl => (hn.leader hl).2⟩
      rcases List.mem_cons.mp hold with rfl | hold
      · exact le_rfl
      · exact (hn.follower hf hg old hold).le
    · exact ⟨⟨fun hl => (hn.leader hl).1, fun hf hg old hold => (hn.follower hf hg old hold).le⟩,
        fun hl => (hn.leader hl).2⟩
  refine meets_store (G := fun _ _ n => Left S g c.activeTerm n ∧
    (S.isLeader = true → c.activeTerm ∈ n.drawn)) steady_free hw
    (fun outcome j n hbooks hn => ⟨⟨hbooks.drawn, hbooks.announced, hbooks.amounts,
      fun hl => .inl (hn.1.leader hl)⟩, hn⟩) fun _ w hw => ?_
  have hclear : ∀ {w}, Stand S c (Free True) (fun _ n => Left S g c.activeTerm n ∧
      (S.isLeader = true → c.activeTerm ∈ n.drawn)) w →
      (contract S).Meets (fun s _ w => s = c.cleared ∧
        Stand S c.cleared (Free True) (fun _ n => Left S g c.activeTerm n) w)
        (.ret c.cleared ()) w := by
    intro w hw
    have hcleared : Stand S c.cleared (Free True) (fun _ n => Left S g c.activeTerm n) w :=
      hw.mono rfl (fun _ he => he) fun _ _ hn => hn.1
    exact Contract.Meets.ret hcleared (Stand.rely steady_free) fun _ hw => ⟨rfl, hw⟩
  split
  · rename_i hannounce
    have hleader : S.isLeader = true := by
      rw [← h.configured.isLeader]
      exact (Bool.and_eq_true_iff.mp hannounce).2
    refine Contract.Meets.bind ((meets_sendEach steady_free (fun j n hbooks hn => ?_) hw).mono ?_)
    · refine ⟨⟨hbooks.drawn, fun term hterm => ?_, hbooks.amounts, hbooks.journaled⟩,
        ⟨hn.1.leader, hn.1.follower⟩, hn.2⟩
      rcases List.mem_cons.mp hterm with rfl | hterm
      · exact hn.2 hleader
      · exact hbooks.announced term hterm
    · rintro s _ w ⟨rfl, hw⟩
      exact hclear hw
  · exact hclear hw

end Process

end HotCounter
