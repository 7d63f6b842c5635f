import HotCounter.Handoff.Fence
import HotCounter.Handoff.Lifetime

/-!
# The leader's decision

`try_begin_commit` walks the map of reports in the order of its iterator, leaves early when a report
disagrees or the running sum would wrap, and tells by the size of the map whether a report is
missing. None of this shows in the decision: it is to commit exactly if every member has reported,
all reports agree with the leader's epoch and counter, and the sum of the totals is within the
limit (`decision_exact`). The sum is then the only total that the process ever stores as committed,
installs or announces.
-/

namespace HotCounter

namespace Process

open Foundation
open CounterEngine (Free Drained)

variable {S : Site} {g : Prop} {w w' : Process} {c : Impl} {own : DrainedPeakState}
  {heard : List Frame}

/-- The total that a member has reported in the round. -/
def claimed (c : Impl) (own : DrainedPeakState) (heard : List Frame) (member : ℕ) : ℕ :=
  ((reportOf c own heard member).map DrainedPeakState.componentTotal).getD 0

/-- The sum of the totals that the members have reported. -/
def claimedTotal (c : Impl) (own : DrainedPeakState) (heard : List Frame) : ℕ :=
  (c.members.map (claimed c own heard)).sum

/-- Every member has reported. -/
def Complete (c : Impl) (own : DrainedPeakState) (heard : List Frame) : Prop :=
  ∀ member ∈ c.members, ∃ report, reportOf c own heard member = some report

/-- Every member has reported what the leader can commit. -/
structure Unanimous (c : Impl) (own : DrainedPeakState) (heard : List Frame) (limit : ℕ) :
    Prop where
  complete : Complete c own heard
  agrees : ∀ member ∈ c.members, ∀ report, reportOf c own heard member = some report →
    report.epoch = own.epoch ∧ report.counter = own.counter
  within : claimedTotal c own heard ≤ limit

/-! ### The summing loop -/

/-- The loop gives the sum if all reports agree and the sum does not wrap, and nothing otherwise. -/
theorem sumPrepared_eq_some {leader : DrainedPeakState} {total : ℕ} :
    ∀ {reports : List (ℕ × DrainedPeakState)} {start : ℕ}, start ≤ amountMax →
      (Impl.sumPrepared leader start reports = some total ↔
        (∀ report ∈ reports, report.2.epoch = leader.epoch ∧ report.2.counter = leader.counter) ∧
          start + (reports.map (·.2.componentTotal)).sum = total ∧ total ≤ amountMax)
  | [], start, hstart => by
    simp only [Impl.sumPrepared, Option.some.injEq, List.map_nil, List.sum_nil, Nat.add_zero,
      List.not_mem_nil, false_imp_iff, implies_true, true_and]
    exact ⟨fun h => ⟨h, h ▸ hstart⟩, And.left⟩
  | report :: reports, start, hstart => by
    rw [Impl.sumPrepared, List.forall_mem_cons, List.map_cons, List.sum_cons, ← Nat.add_assoc]
    split
    · rename_i hleaves
      refine ⟨nofun, ?_⟩
      rintro ⟨⟨⟨hepoch, hcounter⟩, -⟩, hsum, hle⟩
      rcases hleaves with hleaves | hleaves | hleaves
      · exact absurd hepoch hleaves
      · exact absurd hcounter hleaves
      · omega
    · rename_i hstays
      push Not at hstays
      obtain ⟨hepoch, hcounter, hfits⟩ := hstays
      rw [sumPrepared_eq_some (show start + report.2.componentTotal ≤ amountMax by omega)]
      exact and_congr_left' ⟨fun h => ⟨⟨hepoch, hcounter⟩, h⟩, And.right⟩

/-! ### The map of a round -/

section Map

variable {order : List (ℕ × DrainedPeakState)}

/-- The iterator may walk the map in any order. -/
theorem Gathered.perm (h : Gathered c own heard) (horder : order.Perm c.prepared) :
    Gathered { c with prepared := order } own heard where
  nodup := ((horder.map Prod.fst).nodup_iff).mpr h.nodup
  mem member report := horder.mem_iff.trans (h.mem member report)
  heard := h.heard

/-- The members are the leader and its peers, each once. -/
theorem members_nodup (h : S.Configured c) : c.members.Nodup := by
  have hvalidated := h.validated
  have hself : c.config.componentId ∈ c.members := h.self_mem
  have hnodup : (c.config.componentId :: c.peers.map Prod.fst).Nodup := by
    refine List.nodup_cons.mpr ⟨fun hmem => ?_, hvalidated.peers_nodup⟩
    obtain ⟨peer, hpeer, heq⟩ := List.mem_map.mp hmem
    exact (hvalidated.peers_mem peer hpeer).1 (heq.trans (congrArg _ h.config))
  have hsub : c.config.componentId :: c.peers.map Prod.fst ⊆ c.members := by
    refine List.cons_subset.mpr ⟨hself, fun member hmem => ?_⟩
    obtain ⟨peer, hpeer, rfl⟩ := List.mem_map.mp hmem
    exact (hvalidated.peers_mem peer hpeer).2
  have hlength : c.members.length ≤ (c.config.componentId :: c.peers.map Prod.fst).length := by
    rw [List.length_cons, List.length_map]
    exact hvalidated.peers_length.ge
  exact ((hnodup.subperm hsub).perm_of_length_le hlength).nodup_iff.mp hnodup

/-- Only members report. -/
theorem Gathered.key_mem (h : Gathered c own heard) (hself : c.config.componentId ∈ c.members)
    {member : ℕ} (hmember : member ∈ c.prepared.map Prod.fst) : member ∈ c.members := by
  obtain ⟨⟨member, report⟩, hmem, rfl⟩ := List.mem_map.mp hmember
  have hreport := (h.mem _ _).mp hmem
  unfold reportOf at hreport
  split at hreport
  · rename_i hown
    exact hown ▸ hself
  · obtain ⟨frame, hframe, -⟩ := Option.map_eq_some_iff.mp hreport
    have hsender := List.find?_some hframe
    exact beq_iff_eq.mp hsender ▸ (h.heard frame (List.mem_of_find?_eq_some hframe)).1

/-- A member is a key of the map exactly if it has reported. -/
theorem Gathered.mem_keys (h : Gathered c own heard) {member : ℕ} :
    member ∈ c.prepared.map Prod.fst ↔ ∃ report, reportOf c own heard member = some report := by
  constructor
  · intro hmember
    obtain ⟨⟨member, report⟩, hmem, rfl⟩ := List.mem_map.mp hmember
    exact ⟨report, (h.mem _ _).mp hmem⟩
  · rintro ⟨report, hreport⟩
    exact List.mem_map.mpr ⟨(member, report), (h.mem _ _).mpr hreport, rfl⟩

/-- The size of the map tells whether a report is missing. -/
theorem Gathered.allPrepared_iff (h : Gathered c own heard) (hc : S.Configured c) :
    c.allPrepared = true ↔ Complete c own heard := by
  have hsub : c.prepared.map Prod.fst ⊆ c.members := fun _ => h.key_mem hc.self_mem
  rw [Impl.allPrepared, beq_iff_eq]
  constructor
  · intro hlength member hmember
    have hperm := (h.nodup.subperm hsub).perm_of_length_le (by
      rw [List.length_map]
      exact hlength.ge)
    exact h.mem_keys.mp (hperm.mem_iff.mpr hmember)
  · intro hcomplete
    have hsub' : c.members ⊆ c.prepared.map Prod.fst := fun member hmember =>
      h.mem_keys.mpr (hcomplete member hmember)
    have hlength := ((members_nodup hc).subperm hsub').length_le
    have hlength' := (h.nodup.subperm hsub).length_le
    rw [List.length_map] at hlength hlength'
    exact Nat.le_antisymm hlength' hlength

/-- In a complete map every member has its one entry. -/
private theorem Gathered.perm_members (h : Gathered c own heard) (hc : S.Configured c)
    (hcomplete : Complete c own heard) : (c.prepared.map Prod.fst).Perm c.members := by
  refine (List.perm_ext_iff_of_nodup h.nodup (members_nodup hc)).mpr fun member => ?_
  exact ⟨h.key_mem hc.self_mem, fun hmember => h.mem_keys.mpr (hcomplete member hmember)⟩

theorem Gathered.sum_eq (h : Gathered c own heard) (hc : S.Configured c)
    (hcomplete : Complete c own heard) :
    (c.prepared.map (·.2.componentTotal)).sum = claimedTotal c own heard := by
  have hclaimed : c.prepared.map (·.2.componentTotal) =
      (c.prepared.map Prod.fst).map (claimed c own heard) := by
    rw [List.map_map]
    refine List.map_congr_left fun entry hentry => ?_
    have hreport := (h.mem entry.1 entry.2).mp hentry
    rw [Function.comp_apply, claimed, hreport]
    rfl
  rw [hclaimed, claimedTotal]
  exact ((h.perm_members hc hcomplete).map _).sum_eq

end Map

/-! ### What the leader goes on to do -/

/-- The record of a decision. -/
def verdict (c : Impl) (own : DrainedPeakState) (heard : List Frame) : JournalRecord :=
  ⟨.committed, c.activeTerm, own, claimedTotal c own heard, c.config.strictOwnerComponentId⟩

theorem tryBeginCommit_incomplete (hstate : c.state = .leaderPreparing) (hc : S.Configured c)
    (hg : Gathered c own heard) (h : ¬ Complete c own heard) :
    Impl.tryBeginCommit c = .ret c () := by
  rw [tryBeginCommit_preparing hstate hg.lookup]
  exact if_neg fun hall => h ((hg.allPrepared_iff hc).mp hall)

/-- Complete reports that the leader cannot commit end the round. -/
theorem tryBeginCommit_divided (hstate : c.state = .leaderPreparing) (hc : S.Configured c)
    (hg : Gathered c own heard) (hcomplete : Complete c own heard)
    (h : ¬ Unanimous c own heard c.engine.limit) :
    Impl.tryBeginCommit c = Impl.abortPrepare true c := by
  rw [tryBeginCommit_preparing hstate hg.lookup, if_pos ((hg.allPrepared_iff hc).mpr hcomplete)]
  cases hsum : Impl.sumPrepared own 0 c.prepared with
  | none => rfl
  | some total =>
    obtain ⟨hagrees, htotal, -⟩ := (sumPrepared_eq_some (Nat.zero_le _)).mp hsum
    rw [Nat.zero_add, hg.sum_eq hc hcomplete] at htotal
    refine if_pos (Nat.not_le.mp fun hle => h ⟨hcomplete, fun member _ report hreport => ?_, ?_⟩)
    · exact hagrees _ ((hg.mem member report).mpr hreport)
    · exact htotal ▸ hle

/-- Complete reports that agree within the limit are stored as committed with their sum. -/
theorem tryBeginCommit_unanimous (hstate : c.state = .leaderPreparing) (hc : S.Configured c)
    (hg : Gathered c own heard) (h : Unanimous c own heard c.engine.limit) :
    ∃ k, Impl.tryBeginCommit c = .op c (.store (verdict c own heard)) k := by
  rw [tryBeginCommit_preparing hstate hg.lookup, if_pos ((hg.allPrepared_iff hc).mpr h.complete)]
  have hle : claimedTotal c own heard ≤ amountMax :=
    h.within.trans (Nat.le_sub_one_of_lt c.engine.limit_lt)
  have hsum : Impl.sumPrepared own 0 c.prepared = some (claimedTotal c own heard) := by
    refine (sumPrepared_eq_some (Nat.zero_le _)).mpr ⟨fun report hreport => ?_, ?_, hle⟩
    · have hreported := (hg.mem report.1 report.2).mp hreport
      exact h.agrees report.1 (hg.key_mem hc.self_mem (List.mem_map_of_mem hreport)) _ hreported
    · rw [Nat.zero_add, hg.sum_eq hc h.complete]
  rw [hsum]
  dsimp only
  rw [if_neg (Nat.not_lt.mpr h.within)]
  exact ⟨_, rfl⟩

/-! ### After the decision -/

theorem amounts_record (n : Notes) (c : Impl) (e : Effect) (r : Reply e) :
    n.amounts ⊆ (n.record c e r).amounts := by
  intro amount hamount
  cases e with
  | beginHandoff => exact hamount
  | abortHandoff =>
    unfold Notes.record
    dsimp only
    split <;> exact hamount
  | commitHandoff total owner => exact List.mem_cons_of_mem _ hamount
  | store record =>
    unfold Notes.record
    dsimp only
    split
    · exact List.mem_cons_of_mem _ hamount
    · exact hamount
  | send destination frame =>
    change amount ∈ (n.say frame).amounts
    unfold Notes.say
    cases frame.type with
    | commit => exact List.mem_cons_of_mem _ hamount
    | _ => exact hamount
  | clock =>
    unfold Notes.record
    dsimp only
    split <;> exact hamount
  | mode => exact hamount
  | peakTotal => exact hamount
  | terminate => exact hamount

/-- The total of a decision is noted when it is stored. -/
theorem total_mem_record (n : Notes) (c : Impl) {record : JournalRecord}
    (hphase : record.phase = .committed) (r : Reply (.store record)) :
    record.total ∈ (n.record c (.store record) r).amounts := by
  change Bool at r
  rw [Notes.record_committed n c hphase]
  exact List.mem_cons_self

theorem hear_amounts (n : Notes) (c : Impl) (frame : Frame) (source : Endpoint) :
    (n.hear c frame source).amounts = n.amounts := by
  unfold Notes.hear
  split <;> rfl

/-- What was noted stays noted. -/
theorem amounts_step {action : ProcessAction} (hstep : w.step S action = some w') :
    w.notes.amounts ⊆ w'.notes.amounts := by
  cases moves_of_step hstep with
  | deliver =>
    rw [hear_amounts]
    exact fun _ => id
  | effect => exact amounts_record _ _ _ _
  | _ => exact fun _ => id

/-- A process that was about to store a decision: it still is, it has stored it, or it crashed
before and is fenced. -/
inductive Settling (record : JournalRecord) (p : Prog Impl Reply Unit) (u : Process) : Prop
  | deciding (up : u.node.up = true) (control : u.node.control = p) (none : u.notes.amounts = [])
    (journal : journalPhase u.node.journal = .prepared)
  | decided (mem : record.total ∈ u.notes.amounts)
  | fenced (none : u.notes.amounts = []) (journal : journalPhase u.node.journal = .prepared)
    (control : u.node.up = true →
      ∃ c, u.node.control = .ret c () ∧ c.recoveryFenced = true ∧ c.state = .idle)

/-- A fenced process does nothing, whatever happens to it. -/
private theorem settling_fenced {record : JournalRecord} {p : Prog Impl Reply Unit}
    {action : ProcessAction} (hnone : w.notes.amounts = [])
    (hjournal : journalPhase w.node.journal = .prepared)
    (hcontrol : w.node.up = true →
      ∃ c, w.node.control = .ret c () ∧ c.recoveryFenced = true ∧ c.state = .idle)
    (hstep : w.step S action = some w') : Settling record p w' := by
  have hsame : ∀ {journal}, JournalKept w.node.journal journal → journal = w.node.journal := by
    rintro journal (rfl | ⟨hempty, -⟩)
    · rfl
    · rw [hempty] at hjournal
      cases hjournal
  -- every handler that is taken up ends at once
  have hpass : ∀ (handler : HandoffM Unit) {c : Impl},
      (∀ {d}, d.recoveryFenced = true → d.state = .idle → handler d = .ret d ()) →
      w.node.up = true → w.node.control = .ret c () →
      ∃ d, handler c = .ret d () ∧ d.recoveryFenced = true ∧ d.state = .idle := by
    intro handler c hdone hup hret
    obtain ⟨d, hret', hfence, hidle⟩ := hcontrol hup
    obtain ⟨rfl, -⟩ := Prog.ret.inj (hret.symm.trans hret')
    exact ⟨c, hdone hfence hidle, hfence, hidle⟩
  have hreturns : ∀ {c e k}, w.node.up = true → w.node.control ≠ .op c e k := by
    intro c e k hup hop
    obtain ⟨d, hret, -⟩ := hcontrol hup
    cases hret.symm.trans hop
  cases moves_of_step hstep with
  | serves => exact .fenced hnone hjournal hcontrol
  | deliver hup hret =>
    refine .fenced ((hear_amounts _ _ _ _).trans hnone) hjournal fun _ =>
      hpass (Impl.handleFrame _ _) ?_ hup hret
    exact fun hfence _ => Impl.handleFrame_fenced hfence _ _
  | tick hup hret =>
    refine .fenced hnone hjournal fun _ => hpass (Impl.tick _) ?_ hup hret
    exact fun hfence hidle => Impl.tick_fenced hfence hidle _
  | stop hup hret =>
    refine .fenced hnone hjournal fun _ => hpass Impl.stop ?_ hup hret
    exact fun _ => Impl.stop_idle
  | effect hup hop => exact absurd hop (hreturns hup)
  | fault hup hop => exact absurd hop (hreturns hup)
  | crash => exact .fenced hnone hjournal nofun
  | failed hdown hkept =>
    obtain rfl := hsame hkept
    exact .fenced hnone hjournal fun hup => absurd (hdown.symm.trans hup) nofun
  | started _ hkept hvalid hrecovers =>
    obtain rfl := hsame hkept
    refine .fenced hnone hjournal fun _ => ⟨_, rfl, ?_⟩
    have hfresh := (DistributedHandoffConfig.validated_of_validate hvalid).fresh_eq
    cases hrecovers with
    | idle hphase => cases hjournal.symm.trans hphase
    | prepared => exact ⟨rfl, by rw [← hfresh]; rfl⟩
    | committed record hrecord hphase =>
      rw [hrecord] at hjournal
      cases hphase.symm.trans hjournal

/-- A process that is about to store a decision does nothing else first. -/
private theorem settling_deciding {record : JournalRecord} {d : Impl}
    {k : Reply (.store record) → Prog Impl Reply Unit} {action : ProcessAction}
    (hphase : record.phase = .committed) (hup : w.node.up = true)
    (hcontrol : w.node.control = .op d (.store record) k) (hnone : w.notes.amounts = [])
    (hjournal : journalPhase w.node.journal = .prepared) (hstep : w.step S action = some w') :
    Settling record (.op d (.store record) k) w' := by
  have hbusy : ∀ {c}, w.node.control ≠ .ret c () := by
    intro c hret
    cases hcontrol.symm.trans hret
  cases moves_of_step hstep with
  | serves => exact .deciding hup hcontrol hnone hjournal
  | deliver _ hret => exact absurd hret hbusy
  | tick _ hret => exact absurd hret hbusy
  | stop _ hret => exact absurd hret hbusy
  | effect _ hop =>
    obtain ⟨rfl, rfl, -⟩ := Prog.op.inj (hcontrol.symm.trans hop)
    refine .decided ?_
    dsimp only
    apply total_mem_record w.notes d hphase
  | fault _ hop => cases hcontrol.symm.trans hop
  | crash => exact .fenced hnone hjournal nofun
  | failed hdown => cases hup.symm.trans hdown
  | started hdown => cases hup.symm.trans hdown

private theorem Settling.step {record : JournalRecord} {d : Impl}
    {k : Reply (.store record) → Prog Impl Reply Unit} {action : ProcessAction}
    (hphase : record.phase = .committed) (h : Settling record (.op d (.store record) k) w)
    (hstep : w.step S action = some w') : Settling record (.op d (.store record) k) w' := by
  cases h with
  | deciding up control none journal =>
    exact settling_deciding hphase up control none journal hstep
  | decided mem => exact .decided (amounts_step hstep mem)
  | fenced none journal control => exact settling_fenced none journal control hstep

/-! ### The decision -/

/-- The leader `c` of a process takes up a report, with the map in some order. -/
def decides (w : Process) (c : Impl) (frame : Frame) (source : Endpoint)
    (order : List (ℕ × DrainedPeakState)) : Process where
  node := { w.node with control := Impl.tryBeginCommit { c with prepared := order } }
  notes := w.notes.hear c frame source

/-- The decision that is right for the reports `heard`: what the leader `d`
does in the process `w'` once it has taken up the last of them with its engine in the state
`engine`. -/
structure DecidesRightly (S : Site) (engine : CounterEngine) (w' : Process) (d : Impl)
    (own : DrainedPeakState)
    (heard : List Frame) : Prop where
  /-- it goes on to store a committed record exactly if the reports are unanimous -/
  commits : (∃ record k, w'.node.control = .op d (.store record) k ∧ record.phase = .committed) ↔
    Unanimous d own heard engine.limit
  /-- the record holds the sum -/
  stored : ∀ record k, w'.node.control = .op d (.store record) k → record = verdict d own heard
  /-- it never stores, installs or announces another total -/
  amounts : Unanimous d own heard engine.limit →
    ∀ u, Steps (step S) (fun _ _ => True) w' u →
      ∀ amount ∈ u.notes.amounts, amount = claimedTotal d own heard
  /-- what it installs takes effect -/
  installs : Unanimous d own heard engine.limit →
    ∀ u, Steps (step S) (fun _ _ => True) w' u → u.node.up = true →
      ∀ c total owner k, u.node.control = .op c (.commitHandoff total owner) k →
        (u.node.engine.commitDistributedHandoff total owner).2.strict.value =
            claimedTotal d own heard ∧
          (u.node.engine.commitDistributedHandoff total owner).2.mode =
            CounterEngine.handoffMode owner
  /-- complete reports that are not unanimous end the round, and the gate reopens on the shards, the
  mode and the epoch that were there before -/
  aborts : Complete d own heard → ¬ Unanimous d own heard engine.limit →
    w'.node.control = Impl.abortPrepare true d ∧
    (∃ k, w'.node.control = .op d .abortHandoff k) ∧
    ∀ e, w'.node.engine.Meanwhile e →
      e.abortDistributedHandoff.gateOpen = true ∧
      e.abortDistributedHandoff.mode = .reservedPeak ∧
      e.abortDistributedHandoff.mode = engine.mode ∧
      e.abortDistributedHandoff.reserved = engine.reserved ∧
      e.abortDistributedHandoff.replicationEpoch = engine.replicationEpoch

/-- The frame is handled by trying to commit with its report in the map. -/
theorem handleFrame_counts {frame : Frame} {source : Endpoint}
    (hcounts : c.counts frame source = true) :
    Impl.handleFrame frame source c = Impl.tryBeginCommit
      { c with prepared := Impl.assign frame.sender (reportIn frame) c.prepared } := by
  obtain ⟨hadmits, htype, -⟩ := counts_iff.mp hcounts
  unfold Impl.admits at hadmits
  simp only [Bool.and_eq_true, bne_iff_ne, ne_eq, Bool.not_eq_true', beq_iff_eq] at hadmits
  obtain ⟨⟨⟨hfence, hother⟩, hmember⟩, hsource⟩ := hadmits
  rw [← handlePrepared_counts hcounts]
  unfold Impl.handleFrame
  simp only [Script.bind_apply, Script.get_apply, Script.ite_apply, Prog.ret_bind]
  rw [if_neg (by simp [hfence]), if_neg (by simp [hother, hmember]), if_neg (by simp [hsource])]
  rw [htype]

/-- The process that is about to decide keeps the invariant, and its leader stands at the end of a
round. -/
private theorem stand_decides {frame : Frame} {source : Endpoint}
    {order : List (ℕ × DrainedPeakState)} (hstand : Stand S c (Drained own) (Polling c own) w.desk)
    (hcounts : c.counts frame source = true)
    (horder : order.Perm (Impl.assign frame.sender (reportIn frame) c.prepared)) :
    Stand S { c with prepared := order } (Drained own) (Polling { c with prepared := order } own)
      (w.decides c frame source order).desk := by
  have hheard := stand_hear hstand hcounts
  refine hheard.mono rfl (fun _ he => he) fun j n hn => ?_
  have hgathered : Gathered { c with prepared := order } own n.heard :=
    hn.gathered.perm horder
  exact ⟨hn.last, hn.round, hn.amounts, hn.journal, hn.begun, hgathered⟩

/-- The runs from a process that is about to store a decision. -/
private theorem settling_of_steps {record : JournalRecord} {d : Impl}
    {k : Reply (.store record) → Prog Impl Reply Unit} {u : Process}
    (hphase : record.phase = .committed)
    (h : Steps (step S) (fun _ _ => True) w u) (hw : Orderly S False w)
    (hsettling : Settling record (.op d (.store record) k) w) :
    Orderly S False u ∧ Settling record (.op d (.store record) k) u :=
  Steps.invariant (P := fun u => Orderly S False u ∧ Settling record (.op d (.store record) k) u) h
    ⟨hw, hsettling⟩ fun _ _ _ hw _ hstep =>
      ⟨hw.1.step False.elim hstep, hw.2.step hphase hstep⟩

/-- A leader that decided noted no other total. -/
private theorem Settling.amounts {record : JournalRecord} {p : Prog Impl Reply Unit} {u : Process}
    (h : Settling record p u) (hleader : S.isLeader = true) (hu : Orderly S False u) :
    ∀ amount ∈ u.notes.amounts, amount = record.total := by
  intro amount hamount
  cases h with
  | deciding _ _ none =>
    rw [none] at hamount
    exact absurd hamount List.not_mem_nil
  | fenced none =>
    rw [none] at hamount
    exact absurd hamount List.not_mem_nil
  | decided mem =>
    obtain ⟨total, hall⟩ := hu.upheld.books.amounts hleader
    exact (hall amount hamount).trans (hall record.total mem).symm

/-- A leader that has taken up the last report of a round decides rightly. -/
private theorem decidesRightly {d : Impl} {engine : CounterEngine} (hw' : Orderly S False w')
    (hup : w'.node.up = true) (hcontrol : w'.node.control = Impl.tryBeginCommit d)
    (hstate : d.state = .leaderPreparing) (hleader : S.isLeader = true)
    (hstand : Stand S d (Drained own) (Polling d own) w'.desk) (hheard : w'.notes.heard = heard)
    (hengine : w'.node.engine = engine) : DecidesRightly S engine w' d own heard := by
  have hconfigured := hstand.configured
  have hgathered : Gathered d own heard := by
    rw [← hheard]
    exact hstand.facts.gathered
  have hlimit : d.engine.limit = engine.limit := by
    rw [← hengine]
    exact hstand.limit.symm
  have hstores : Unanimous d own heard engine.limit →
      ∃ k, w'.node.control = .op d (.store (verdict d own heard)) k := by
    intro hunanimous
    rw [← hlimit] at hunanimous
    obtain ⟨k, hstore⟩ := tryBeginCommit_unanimous hstate hconfigured hgathered hunanimous
    exact ⟨k, hcontrol.trans hstore⟩
  have hunanimous_of_store : ∀ {record k}, w'.node.control = .op d (.store record) k →
      Unanimous d own heard engine.limit := by
    intro record k hstore
    by_contra hdivided
    rw [hcontrol] at hstore
    by_cases hcomplete : Complete d own heard
    · rw [← hlimit] at hdivided
      rw [tryBeginCommit_divided hstate hconfigured hgathered hcomplete hdivided,
        abortPrepare_busy (.inl hstate)] at hstore
      cases hstore
    · rw [tryBeginCommit_incomplete hstate hconfigured hgathered hcomplete] at hstore
      cases hstore
  have hruns : Unanimous d own heard engine.limit →
      ∀ u, Steps (step S) (fun _ _ => True) w' u →
        Orderly S False u ∧ ∀ amount ∈ u.notes.amounts, amount = claimedTotal d own heard := by
    intro hunanimous u hu
    obtain ⟨k, hstore⟩ := hstores hunanimous
    obtain ⟨record, hrecord, hphase, -⟩ := hstand.facts.journal
    have hrecord : w'.node.journal = some record := hrecord
    have hjournal : journalPhase w'.node.journal = .prepared := by
      rw [hrecord]
      exact hphase
    obtain ⟨hu', hsettled⟩ := settling_of_steps rfl hu hw'
      (.deciding hup hstore hstand.facts.amounts hjournal)
    exact ⟨hu', hsettled.amounts hleader hu'⟩
  constructor
  case commits =>
    constructor
    · rintro ⟨record, k, hstore, -⟩
      exact hunanimous_of_store hstore
    · intro hunanimous
      obtain ⟨k, hstore⟩ := hstores hunanimous
      exact ⟨_, k, hstore, rfl⟩
  case stored =>
    intro record k hstore
    obtain ⟨k', hstore'⟩ := hstores (hunanimous_of_store hstore)
    obtain ⟨-, heffect, -⟩ := Prog.op.inj (hstore.symm.trans hstore')
    exact Effect.store.inj heffect
  case amounts => exact fun hunanimous u hu => (hruns hunanimous u hu).2
  case installs =>
    intro hunanimous u hu hup' c total owner k hcommit
    obtain ⟨hu', -⟩ := hruns hunanimous u hu
    -- the total of the call is noted when it is made
    have hstep := step_effect (S := S) {} hup' hcommit rfl
    have htotal : total = claimedTotal d own heard :=
      (hruns hunanimous _ (hu.tail trivial hstep)).2 total List.mem_cons_self
    have hmeets := hu'.running hup'
    rw [hcommit] at hmeets
    obtain ⟨hpromise, -⟩ := Contract.Meets.step hmeets
      ⟨{}, _, _, _, rfl, rfl⟩
    have hle : total ≤ u.node.engine.limit := by
      have hlimits : u.node.engine.limit = engine.limit := by
        rw [← hengine]
        exact hu'.upheld.reachable.limit.trans hstand.reachable.limit.symm
      rw [htotal, hlimits]
      exact hunanimous.within
    obtain ⟨-, hvalue, hmode⟩ := hpromise.1 hle
    exact ⟨hvalue.trans htotal, hmode⟩
  case aborts =>
    intro hcomplete hdivided
    rw [← hlimit] at hdivided
    have habort := hcontrol.trans
      (tryBeginCommit_divided hstate hconfigured hgathered hcomplete hdivided)
    refine ⟨habort, ⟨_, habort.trans (abortPrepare_busy (.inl hstate))⟩, fun e he => ?_⟩
    have hdrained : Drained own w'.node.engine := hstand.engine
    have huntouched := hdrained.meanwhile he
    rw [CounterEngine.abortDistributedHandoff_peak (huntouched.active.trans hdrained.active)
      (huntouched.mode.trans hdrained.mode), ← hengine]
    exact ⟨rfl, huntouched.mode.trans hdrained.mode, huntouched.mode, huntouched.reserved,
      huntouched.epoch⟩

/-- **The leader's decision is exact, whatever the order of its map.** Let the leader of a process
be in a round, in any run and with any history, and let a report arrive that counts. Then the frame
is handled by trying to commit with the report in the map, and for every order in which the iterator
may walk that map, the decision is right. -/
theorem decision_exact {journal : Option JournalRecord} {frame : Frame} {source : Endpoint}
    {order : List (ℕ × DrainedPeakState)} (h : Reaches S (fun _ _ => True) journal w)
    (hup : w.node.up = true) (hcontrol : w.node.control = .ret c ())
    (hcounts : c.counts frame source = true) (hown : w.notes.begun = some own)
    (horder : order.Perm (Impl.assign frame.sender (reportIn frame) c.prepared)) :
    Impl.handleFrame frame source c = Impl.tryBeginCommit
        { c with prepared := Impl.assign frame.sender (reportIn frame) c.prepared } ∧
      DecidesRightly S w.node.engine (w.decides c frame source order) { c with prepared := order }
        own (frame :: w.notes.heard) := by
  have horderly : Orderly S False w := orderly_of_reaches False.elim h
  have hstate := (counts_iff.mp hcounts).2.2.2.1
  obtain ⟨own', hleader, hround⟩ := (horderly.rest hup hcontrol).of_preparing hstate
  obtain rfl : own' = own := Option.some.inj (hround.facts.begun.symm.trans hown)
  have hstand := stand_decides hround hcounts horder
  have hheard : (w.decides c frame source order).notes.heard = frame :: w.notes.heard := by
    change (w.notes.hear c frame source).heard = _
    unfold Notes.hear
    rw [if_pos hcounts]
  exact ⟨handleFrame_counts hcounts, decidesRightly
    ⟨hstand.upheld, fun _ => comesToRest_tryBeginCommit hstate hleader hstand⟩ hup rfl hstate
    hleader hstand hheard rfl⟩

/-- The report of the follower of a pair, in the round that its leader begins at 1000. -/
def pairReport : Frame := ⟨.prepared, 1, 1000, 0, 1, 10, 0⟩

/-- The leader of a pair decides on the follower's report, walking its map backwards. -/
theorem decision_exact_pair :
    ∃ w c, Reaches (pairSite 0) (fun _ _ => True) none w ∧ w.node.control = .ret c () ∧
      c.state = .leaderPreparing ∧ w.notes.begun = some ⟨0, 1, 0⟩ ∧
      DecidesRightly (pairSite 0) w.node.engine
        (w.decides c pairReport ⟨2130706433, 9001⟩
          (Impl.assign 1 (reportIn pairReport) c.prepared).reverse)
        { c with prepared := (Impl.assign 1 (reportIn pairReport) c.prepared).reverse } ⟨0, 1, 0⟩
        (pairReport :: w.notes.heard) := by
  have hexec : (exec (step (pairSite 0)) (fun _ _ => True) (init (pairSite 0) none)
      (pairRound 1000)).map (fun w => decide (w.node.up = true ∧
        w.restsIn .leaderPreparing = true ∧
        w.node.impl.counts pairReport ⟨2130706433, 9001⟩ = true ∧
        w.notes.begun = some ⟨0, 1, 0⟩)) = some true := by decide +kernel
  obtain ⟨w, hrun, hup, hstate, hcounts, hown⟩ := Steps.exists_of_exec hexec
  obtain ⟨c, hcontrol, hstate⟩ := exists_of_restsIn hstate
  have himpl : w.node.impl = c := by rw [Node.impl, hcontrol]; rfl
  rw [himpl] at hcounts
  exact ⟨w, c, hrun, hcontrol, hstate, hown,
    (decision_exact hrun hup hcontrol hcounts hown (List.reverse_perm _)).2⟩

end Process

end HotCounter
