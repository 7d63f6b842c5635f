import HotCounter.Handoff.Rules

/-!
# Starting on a journal

A process that starts on its journal is in one of three conditions, and the journal alone
decides which: open peak mode on an empty or idle journal, the recovery fence on a prepared one,
the committed mode on a committed one. A start that throws changes nothing but an empty journal,
which it may have initialised.
-/

namespace HotCounter

open Foundation NodeView

/-- The journal phase that `start` acts on; an empty file counts as idle. -/
def journalPhase (journal : Option JournalRecord) : JournalPhase :=
  match journal with
  | none => .idle
  | some record => record.phase

/-- The journal file after a start: as before, or initialised. -/
def JournalKept (journal journal' : Option JournalRecord) : Prop :=
  journal' = journal ∨ journal = none ∧ journal' = some (JournalRecord.onDisk {})

private theorem journalKept_file (outcome : StoreOutcome) :
    JournalKept none (outcome.file none {}) := by
  cases outcome with
  | stored => exact .inr ⟨rfl, rfl⟩
  | failedBefore => exact .inl rfl
  | failedAfter => exact .inr ⟨rfl, rfl⟩

/-- What `start` makes of an engine and a validated controller: it leaves them alone on an empty
or idle journal, fences both on a prepared record, and restores a committed one. -/
inductive Recovers (engine : CounterEngine) (c : Impl) (journal : Option JournalRecord) :
    CounterEngine → Impl → Prop
  | idle (h : journalPhase journal = .idle) : Recovers engine c journal engine c
  | prepared (h : journalPhase journal = .prepared) :
    Recovers engine c journal engine.fenceAfterInterruptedHandoff { c with recoveryFenced := true }
  | committed (record : JournalRecord) (hjournal : journal = some record)
    (hphase : record.phase = .committed) (hle : record.total ≤ engine.limit) :
    Recovers engine c journal
      (engine.recoverCommittedHandoff record.state record.total c.isOwner).2
      { c with lastCommittedTerm := record.term }

/-- The journal part of `start`. -/
theorem Impl.recover_cases {c : Impl} {engine : CounterEngine} {journal : Option JournalRecord}
    {outcome : StoreOutcome} {journal' : Option JournalRecord}
    {result : Except ConfigError (CounterEngine × Impl)}
    (h : c.recover engine journal outcome = (journal', result)) :
    JournalKept journal journal' ∧
      ∀ e c', result = .ok (e, c') → Recovers engine c journal e c' := by
  cases journal with
  | none =>
    obtain ⟨rfl, rfl⟩ := Prod.mk.inj h
    refine ⟨journalKept_file outcome, fun e c' hok => ?_⟩
    split at hok
    · obtain ⟨rfl, rfl⟩ := Prod.mk.inj (Except.ok.inj hok)
      exact .idle rfl
    · exact absurd hok nofun
  | some record =>
    obtain ⟨rfl, rfl⟩ := Prod.mk.inj h
    refine ⟨.inl rfl, fun e c' hok => ?_⟩
    split at hok
    · exact absurd hok nofun
    rename_i hvalid
    push Not at hvalid
    split at hok
    · obtain ⟨rfl, rfl⟩ := Prod.mk.inj (Except.ok.inj hok)
      exact .idle ‹_›
    · obtain ⟨rfl, rfl⟩ := Prod.mk.inj (Except.ok.inj hok)
      exact .prepared ‹_›
    · rename_i hphase
      dsimp only at hok
      split at hok
      · obtain ⟨rfl, rfl⟩ := Prod.mk.inj (Except.ok.inj hok)
        exact .committed record rfl hphase hvalid.2
      · exact absurd hok nofun

/-- The engine of a runtime before it reads the journal. -/
def CounterRuntimeConfig.entered (config : CounterRuntimeConfig) : CounterEngine :=
  let engine := if config.startPeak then (CounterEngine.new config.engine).transitionToReserved.2
    else CounterEngine.new config.engine
  { engine with replicationPublisher := config.replication.isSome }

/-- A start keeps the history and the journal, except that it may initialise an empty one. Either
no process comes up, or one that has recovered what the journal says. -/
theorem Node.start_recovers (n : Node) (resolve : String → ℕ → Option Endpoint)
    (config : CounterRuntimeConfig) (handoff : DistributedHandoffConfig) (outcome : StoreOutcome) :
    ∃ journal, JournalKept n.journal journal ∧
      (n.start resolve config handoff outcome = { n with journal := journal } ∨
        ∃ e c c₀, handoff.validate resolve config.engine = .ok c₀ ∧
          Recovers config.entered c₀ n.journal e c ∧
          n.start resolve config handoff outcome =
            { n with
              up := true
              stopped := false
              engine := e
              control := .ret c ()
              journal := journal
              served := [] }) := by
  unfold Node.start CounterRuntimeConfig.start
  dsimp only
  cases hentered : config.startPeak &&
    !(CounterEngine.new config.engine).transitionToReserved.1 with
  | true =>
    rw [if_pos rfl]
    exact ⟨n.journal, .inl rfl, .inl rfl⟩
  | false =>
    rw [if_neg Bool.false_ne_true]
    cases hvalid : handoff.validate resolve config.engine with
    | error error => exact ⟨n.journal, .inl rfl, .inl rfl⟩
    | ok c₀ =>
      dsimp only
      generalize hrecover : c₀.recover _ n.journal outcome = recovered
      obtain ⟨journal, result⟩ := recovered
      obtain ⟨hkept, hrecovers⟩ := Impl.recover_cases hrecover
      refine ⟨journal, hkept, ?_⟩
      cases result with
      | error error => exact .inl rfl
      | ok started =>
        obtain ⟨e, c⟩ := started
        exact .inr ⟨e, c, c₀, rfl, hrecovers e c rfl, rfl⟩

/-- What a started process looks like. -/
structure Started (K : Deployment) (i : ℕ) (journal : Option JournalRecord) (e : CounterEngine)
    (c : Impl) : Prop where
  configured : Configured K i c
  idle : c.state = .idle
  sound : e.Sound
  config : e.config = (K.config i).engine
  used : e.reserved.used = 0
  active : e.distributedHandoffActive = false
  peak : journalPhase journal = .idle → e.mode = .reservedPeak ∧ e.gateOpen = true ∧
    c.recoveryFenced = false ∧ c.lastCommittedTerm = 0
  fenced : journalPhase journal = .prepared → e.mode = .reservedPeak ∧ e.gateOpen = false ∧
    c.recoveryFenced = true
  committed : ∀ r, journal = some r → r.phase = .committed →
    e.mode = CounterEngine.handoffMode (i == K.owner) ∧ e.strict.value = r.total ∧
      c.lastCommittedTerm = r.term

variable {K : Deployment} {i : ℕ}

/-- The engine of a process before it reads the journal. -/
structure Entered (K : Deployment) (i : ℕ) (e : CounterEngine) : Prop where
  sound : e.Sound
  config : e.config = (K.config i).engine
  mode : e.mode = .reservedPeak
  gate : e.gateOpen = true
  active : e.distributedHandoffActive = false
  used : e.reserved.used = 0

private theorem started_of_recovers {c : Impl} (hc : Configured K i c) (hfresh : c.fresh = c)
    {e : CounterEngine} (he : Entered K i e) {journal : Option JournalRecord}
    {e' : CounterEngine} {c' : Impl} (h : Recovers e c journal e' c') :
    Started K i journal e' c' := by
  have hidle : c.state = .idle := by rw [← hfresh]; rfl
  have hlast : c.lastCommittedTerm = 0 := by rw [← hfresh]; rfl
  have hfence : c.recoveryFenced = false := by rw [← hfresh]; rfl
  cases h with
  | idle hphase =>
    refine ⟨hc, hidle, he.sound, he.config, he.used, he.active,
      fun _ => ⟨he.mode, he.gate, hfence, hlast⟩, fun h => absurd (hphase.symm.trans h) nofun, ?_⟩
    rintro r rfl hcommitted
    exact absurd (hphase.symm.trans hcommitted) nofun
  | prepared hphase =>
    refine ⟨hc.congr rfl, hidle, ⟨he.sound.strict_limit, he.sound.reserved_limit,
      he.sound.bounded, he.sound.value_le⟩, he.config, he.used, he.active,
      fun h => absurd (hphase.symm.trans h) nofun, fun _ => ⟨he.mode, rfl, rfl⟩, ?_⟩
    rintro r rfl hcommitted
    exact absurd (hphase.symm.trans hcommitted) nofun
  | committed record hjournal hphase hle =>
    subst hjournal
    obtain ⟨-, hinst, -, -⟩ := he.sound.recover record.state c.isOwner hle
    refine ⟨hc.congr rfl, hidle, hinst.sound, hinst.config.trans he.config, ?_, hinst.active,
      fun h => absurd (hphase.symm.trans h) nofun, fun h => absurd (hphase.symm.trans h) nofun, ?_⟩
    · rw [hinst.reserved]
      exact he.used
    · rintro r ⟨⟩ -
      rw [← hc.isOwner]
      exact ⟨hinst.mode, hinst.value, rfl⟩

private theorem entered_config (hi : i ∈ K.running) : Entered K i (K.config i).entered := by
  obtain ⟨-, hsound, hconfig, hmode, hgate, hactive, hused⟩ :=
    CounterEngine.transitionToReserved_new (K.config i).engine
  unfold CounterRuntimeConfig.entered
  rw [if_pos (Deployment.member_of_running hi).startPeak]
  exact ⟨⟨hsound.strict_limit, hsound.reserved_limit, hsound.bounded, hsound.value_le⟩, hconfig,
    hmode, hgate, hactive, hused⟩

/-- **What a start does.** It keeps the history and the journal, except that it may initialise
an empty one; either no process comes up, or the started process is as the journal says. -/
theorem Node.start_cases (hi : i ∈ K.running) (n : Node) (outcome : StoreOutcome) :
    ∃ journal, JournalKept n.journal journal ∧
      (n.start (K.resolve i) (K.config i) (K.handoff i) outcome = { n with journal := journal } ∨
        ∃ e c, Started K i n.journal e c ∧
          n.start (K.resolve i) (K.config i) (K.handoff i) outcome =
            { n with
              up := true
              stopped := false
              engine := e
              control := .ret c ()
              journal := journal
              served := [] }) := by
  obtain ⟨journal, hkept, hdown | ⟨e, c, c₀, hvalid, hrecovers, hup⟩⟩ :=
    n.start_recovers (K.resolve i) (K.config i) (K.handoff i) outcome
  · exact ⟨journal, hkept, .inl hdown⟩
  · have hfresh := (DistributedHandoffConfig.validated_of_validate hvalid).fresh_eq
    exact ⟨journal, hkept, .inr ⟨e, c, started_of_recovers ⟨hi, by rw [hfresh]; exact hvalid⟩ hfresh
      (entered_config hi) hrecovers, hup⟩⟩

end HotCounter
