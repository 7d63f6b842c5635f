import HotCounter.Handoff.Invariant

/-!
# The limit of a cluster across a handoff

In an orderly run the committed total counts every member exactly (`commit_counts_follower`), and
therefore the members together never accept more than the limit (`cluster_accepted_le_limit`).

Both fail in runs without crashes that are not orderly. A follower whose prepare deadline fires
reopens its gate although the leader may have committed its report already; from then on two
authorities spend the same capacity.
-/

namespace HotCounter

open Foundation NodeView

variable {K : Deployment} {w : Cluster}

/-- Everything a process accepted since it started. In a run without crashes a process starts
once. -/
def Node.accepted (n : Node) : ℕ := acceptedSum (n.served.map Prod.snd)

/-- Everything the processes of a cluster accepted. -/
def Cluster.accepted (K : Deployment) (w : Cluster) : ℕ := ∑ i ∈ K.running, (w.nodes i).accepted

namespace ClusterAction

/-- The prepare deadline of the follower of the pair fires: it aborts and reopens its gate. -/
def pairTimesOut : List ClusterAction :=
  .node 1 (.tick 1000001000) :: effects 1 2 1000001000

/-- The follower of the pair spends 20 more and receives the prepare of the term again. -/
def pairPreparesAgain : List ClusterAction :=
  [.node 1 (.apply ⟨17, 20, 0⟩), arrives 1 ⟨.prepare, 0, 1000, 17, 1, 40, 0⟩] ++
    effects 1 4 1000001000

end ClusterAction

/-! ### What the leader counted -/

/-- In an orderly run the leader's report of a member is what the member has in its shards. -/
private theorem Decided.counted {v : View} (hv : ClusterInvariant K True v) {r : JournalRecord}
    (hr : (v.nodes K.leader).committed r) :
    ∀ report ∈ (v.nodes K.leader).impl.prepared, (v.nodes report.1).up = true ∧
      report.2.componentTotal = (v.nodes report.1).engine.reserved.used := by
  intro report hreport
  have hd := hv.decided trivial r hr
  by_cases hleader : report.1 = K.leader
  · rw [hleader]
    exact ⟨hd.up, hd.own report hreport hleader⟩
  · obtain ⟨frame, hsent, htype, hsender, hterm, hvalue⟩ := hd.reports report hreport hleader
    have hholds : (v.nodes K.leader).holds frame.term := .inr ⟨r, hr, hterm.symm⟩
    obtain ⟨hup, howed⟩ := hv.barrier trivial frame hsent htype hholds
    have hused := hv.counted trivial frame.sender _ _ hup howed
    rw [hsender] at hup hused
    exact ⟨hup, hvalue.symm.trans hused.symm⟩

/-- The record sums what all running members have in their shards. -/
private theorem used_le_total {v : View} (hv : ClusterInvariant K True v) {r : JournalRecord}
    (hr : (v.nodes K.leader).committed r) :
    (∀ i ∈ K.running, (v.nodes i).up = true) ∧
      ∑ i ∈ K.running, (v.nodes i).engine.reserved.used ≤ r.total := by
  have hd := hv.decided trivial r hr
  have hreport : ∀ i ∈ K.running, ∃ report ∈ (v.nodes K.leader).impl.prepared, report.1 = i := by
    intro i hi
    obtain ⟨component, hmem, hid, -⟩ := (Deployment.member_of_running hi).reservation
    have hids : i ∈ K.ids := hid ▸ List.mem_map_of_mem hmem
    obtain ⟨report, hreport, hkey⟩ := List.mem_map.mp ((hd.all i).mpr hids)
    exact ⟨report, hreport, hkey⟩
  refine ⟨fun i hi => ?_, ?_⟩
  · obtain ⟨report, hmem, rfl⟩ := hreport i hi
    exact (Decided.counted hv hr report hmem).1
  · rw [hd.total]
    refine sum_le_of_keys Prod.fst (·.2.componentTotal) _ _ _ hd.nodup fun i hi => ?_
    obtain ⟨report, hmem, rfl⟩ := hreport i hi
    exact ⟨report, hmem, rfl, (Decided.counted hv hr report hmem).2⟩

/-- A follower takes up a commit frame for the term that it is prepared for or committing. -/
structure Cluster.TakesCommit (K : Deployment) (w : Cluster) (i : ℕ) (frame : Frame)
    (source : Endpoint) : Prop where
  follower : i ≠ K.leader
  state : (w.nodes i).impl.state = .followerPrepared ∨
    (w.nodes i).impl.state = .followerCommitting
  type : frame.type = .commit
  term : frame.term = (w.nodes i).impl.activeTerm
  step : (w.step K (.node i (.deliver frame source))).isSome = true

/-- What the leader summed for a member. -/
def Cluster.summedFor (K : Deployment) (w : Cluster) (i : ℕ) : Option ℕ :=
  ((w.nodes K.leader).impl.prepared.lookup i).map DrainedPeakState.componentTotal

/-- **The committed total counts every member exactly in orderly runs.** When a follower takes up
the commit of its term, what the leader summed for it is the total of its shards at that moment,
which is what it accepted in peak mode, and the total of the commit is the sum over all
members. -/
theorem commit_counts_follower (h : Cluster.Reaches K (Cluster.Orderly K) w) {i : ℕ}
    {frame : Frame} {source : Endpoint} (hcommit : w.TakesCommit K i frame source) :
    w.summedFor K i = some (w.nodes i).engine.reserved.total ∧
      (w.nodes i).engine.reserved.total = spentIn .reservedPeak (w.nodes i).served ∧
      ((w.nodes K.leader).impl.prepared.map Prod.fst).Perm K.ids ∧
      frame.value = ((w.nodes K.leader).impl.prepared.map (·.2.componentTotal)).sum := by
  have hinv := inv_of_orderly h
  have hv := hinv.cluster
  obtain ⟨hup, hauthentic⟩ : (w.nodes i).up = true ∧
      NodeAction.authentic w.net (.deliver frame source) = true := by
    have hstep := hcommit.step
    simp only [Cluster.step] at hstep
    split at hstep
    · exact Bool.and_eq_true_iff.mp ‹_›
    · cases hstep
  have hsent : w.view.sent frame := by
    obtain ⟨p, hp, hframe⟩ := List.any_eq_true.mp hauthentic
    exact ⟨p, hp, by simpa using hframe⟩
  -- the frame carries the record of the leader, which sums the reports
  obtain ⟨r, hr, -, -, -, hvalue⟩ := hv.commits frame hsent hcommit.type
  have hd := hv.decided trivial r hr
  have hmember : i ∈ K.ids := by
    obtain ⟨component, hmem, hid, -⟩ :=
      (Deployment.member_of_running (hinv.running i hup)).reservation
    exact hid ▸ List.mem_map_of_mem hmem
  obtain ⟨found, hmem, hfound⟩ := exists_lookup ((hd.all i).mpr hmember)
  have hused : found.componentTotal = (w.nodes i).engine.reserved.used :=
    (Decided.counted hv hr (i, found) hmem).2
  have hok := hv.ok i hup
  have htotal : (w.nodes i).engine.reserved.total = (w.nodes i).engine.reserved.used :=
    hok.sound.total_eq
  refine ⟨?_, htotal.trans hok.used, ?_, hvalue.trans hd.total⟩
  · rw [htotal, ← hused]
    exact congrArg (Option.map DrainedPeakState.componentTotal) hfound
  · exact (List.perm_ext_iff_of_nodup hd.nodup K.nodup_ids).mpr hd.all

open ClusterAction in
/-- The follower of the pair takes up the commit. -/
theorem commit_counts_follower_pair :
    ∃ w, Cluster.Reaches .pair (Cluster.Orderly .pair) w ∧
      w.TakesCommit .pair 1 ⟨.commit, 0, 1000, 17, 1, 50, 0⟩ ⟨2130706433, 9000⟩ ∧
      w.summedFor .pair 1 = some (w.nodes 1).engine.reserved.total := by
  have hrun : (exec (Cluster.step .pair) (Cluster.Orderly .pair) (Cluster.init .pair)
      (pairPrepares ++ pairCommits)).map (fun w => decide
        ((w.nodes 1).impl.state = .followerPrepared ∧ 1000 = (w.nodes 1).impl.activeTerm ∧
          (w.step .pair (arrives 1 ⟨.commit, 0, 1000, 17, 1, 50, 0⟩)).isSome = true)) =
      some true := by
    decide +kernel
  obtain ⟨w, hw, hstate, hterm, hstep⟩ := Steps.exists_of_exec hrun
  have hcommit : w.TakesCommit .pair 1 ⟨.commit, 0, 1000, 17, 1, 50, 0⟩ ⟨2130706433, 9000⟩ :=
    ⟨by decide, .inl hstate, rfl, hterm, hstep⟩
  exact ⟨w, hw, hcommit, (commit_counts_follower hw hcommit).1⟩

open ClusterAction in
/-- Without the condition: the follower of the pair reports 10, its deadline fires, it spends 20
more and prepares again for the same term. It takes up and installs a commit in which the leader
counted 10 of its 30. -/
theorem commit_misses_follower :
    ∃ w, Cluster.Reaches .pair (fun _ a => a.crashFree = true) w ∧
      w.TakesCommit .pair 1 ⟨.commit, 0, 1000, 17, 1, 50, 0⟩ ⟨2130706433, 9000⟩ ∧
      w.summedFor .pair 1 = some 10 ∧ (w.nodes 1).engine.reserved.total = 30 ∧
      ∃ w', Steps (Cluster.step .pair) (fun _ a => a.crashFree = true) w w' ∧
        (w'.nodes 1).journal = some ⟨.committed, 1000, ⟨17, 1, 50⟩, 50, 0⟩ ∧
        (w'.nodes 1).engine.mode = .remoteStrict := by
  have hrun : (exec (Cluster.step .pair) (fun _ a => a.crashFree = true) (Cluster.init .pair)
      (pairPrepares ++ pairCommits ++ pairTimesOut ++ pairPreparesAgain)).map (fun w => decide
        ((w.nodes 1).impl.state = .followerPrepared ∧ 1000 = (w.nodes 1).impl.activeTerm ∧
          (w.step .pair (arrives 1 ⟨.commit, 0, 1000, 17, 1, 50, 0⟩)).isSome = true ∧
          w.summedFor .pair 1 = some 10 ∧ (w.nodes 1).engine.reserved.total = 30 ∧
          (exec (Cluster.step .pair) (fun _ a => a.crashFree = true) w pairInstalls).map
            (fun w' => decide
              ((w'.nodes 1).journal = some ⟨.committed, 1000, ⟨17, 1, 50⟩, 50, 0⟩ ∧
                (w'.nodes 1).engine.mode = .remoteStrict)) = some true)) = some true := by
    decide +kernel
  obtain ⟨w, hw, hstate, hterm, hstep, hsummed, htotal, hrest⟩ := Steps.exists_of_exec hrun
  obtain ⟨w', hw', hinstalled⟩ := Steps.exists_of_exec hrest
  exact ⟨w, hw, ⟨by decide, .inl hstate, rfl, hterm, hstep⟩, hsummed, htotal, w', hw', hinstalled⟩

/-! ### The limit -/

/-- A request is served in one of four modes. -/
private theorem acceptedSum_eq : ∀ served : List (RoutingMode × Request × Result),
    acceptedSum (served.map Prod.snd) = spentIn .strict served + spentIn .reservedPeak served +
      spentIn .dangerStrict served + spentIn .remoteStrict served
  | [] => rfl
  | entry :: served => by
    have ih := acceptedSum_eq served
    obtain ⟨mode, request, result⟩ := entry
    rw [List.map_cons, acceptedSum_cons]
    cases mode <;> simp only [spentIn_cons, if_true, reduceCtorEq, if_false] <;> omega

/-- What a running process accepted: its shards, and what it served as strict owner. -/
private theorem accepted_eq {i : ℕ} (hok : NodeOk K i (w.view.nodes i)) :
    (w.nodes i).accepted =
      (w.nodes i).engine.reserved.used + spentIn .dangerStrict (w.nodes i).served := by
  have hused : (w.nodes i).engine.reserved.used = spentIn .reservedPeak (w.nodes i).served :=
    hok.used
  have hstrict : spentIn .strict (w.nodes i).served = 0 := hok.strict
  have hremote : spentIn .remoteStrict (w.nodes i).served = 0 := hok.remote
  rw [Node.accepted, acceptedSum_eq]
  omega

/-- Before the strict owner opens, every member is within its own reservation. -/
private theorem accepted_le_of_peak (hv : ClusterInvariant K True w.view)
    (hpeak : ∀ i, (w.nodes i).up = true → (w.nodes i).engine.mode ≠ .dangerStrict) :
    w.accepted K ≤ K.limit := by
  refine (Finset.sum_le_sum fun i hi => ?_).trans K.sum_localPeak_le
  by_cases hup : (w.nodes i).up = true
  · have hok := hv.ok i hup
    have hdanger : spentIn .dangerStrict (w.nodes i).served = 0 := hok.danger (hpeak i hup)
    have hused : (w.nodes i).engine.reserved.used ≤ (w.nodes i).engine.localPeak :=
      hok.sound.used_le
    have hconfig : (w.nodes i).engine.config = (K.config i).engine := hok.config
    rw [CounterEngine.localPeak, hconfig] at hused
    rw [accepted_eq hok, hdanger]
    exact hused
  · have hserved : (w.nodes i).served = [] :=
      (hv.started trivial i (Bool.eq_false_iff.mpr hup)).2.1
    rw [Node.accepted, hserved]
    exact Nat.zero_le _

/-- Afterwards what the members have in their shards is part of the strict owner's value. -/
private theorem accepted_le_of_danger (hv : ClusterInvariant K True w.view) {o : ℕ}
    (hrunning : o ∈ K.running) (hup : (w.nodes o).up = true)
    (hmode : (w.nodes o).engine.mode = .dangerStrict) : w.accepted K ≤ K.limit := by
  obtain ⟨r, hr, hvalue⟩ :=
    hv.seeded (i := o) hup fun hpeak => absurd (hpeak.symm.trans hmode) nofun
  obtain ⟨hall, hsum⟩ := used_le_total hv (hv.agree o r hr)
  have haccepted : ∀ i ∈ K.running, (w.nodes i).accepted = (w.nodes i).engine.reserved.used +
      if i = o then spentIn .dangerStrict (w.nodes o).served else 0 := by
    intro i hi
    rw [accepted_eq (hv.ok i (hall i hi))]
    split
    · rename_i h
      rw [h]
    · rename_i hne
      have hdanger : spentIn .dangerStrict (w.nodes i).served = 0 :=
        (hv.ok i (hall i hi)).danger fun h => hne
          ((hv.owner_of_danger (hall i hi) h).trans (hv.owner_of_danger (i := o) hup hmode).symm)
      rw [hdanger]
  have hle : (w.nodes o).engine.strict.value ≤ K.limit := by
    have hok := hv.ok o hup
    have hbound : (w.nodes o).engine.strict.value ≤ (w.nodes o).engine.config.limit :=
      hok.sound.value_le
    have hconfig : (w.nodes o).engine.config = (K.config o).engine := hok.config
    rwa [hconfig, (Deployment.member_of_running hrunning).limit] at hbound
  have hstrict : (w.nodes o).engine.strict.value =
      r.total + spentIn .dangerStrict (w.nodes o).served := hvalue
  have hused : ∑ i ∈ K.running, (w.nodes i).engine.reserved.used ≤ r.total := hsum
  calc w.accepted K
      = ∑ i ∈ K.running, (w.nodes i).engine.reserved.used +
          spentIn .dangerStrict (w.nodes o).served := by
        rw [Cluster.accepted, Finset.sum_congr rfl haccepted, Finset.sum_add_distrib,
          Finset.sum_ite_eq' K.running o, if_pos hrunning]
    _ ≤ r.total + spentIn .dangerStrict (w.nodes o).served := Nat.add_le_add_right hused _
    _ = (w.nodes o).engine.strict.value := hstrict.symm
    _ ≤ K.limit := hle

/-- **The limit holds across a handoff in orderly runs.** If no process crashes, no follower's
prepare deadline fires for a term that the leader still holds, and the clock reading from which
the leader draws a term is above every term seen, then all deltas accepted by all members sum to
at most the limit. -/
theorem cluster_accepted_le_limit (h : Cluster.Reaches K (Cluster.Orderly K) w) :
    w.accepted K ≤ K.limit := by
  have hinv := inv_of_orderly h
  by_cases hdanger : ∃ o, (w.nodes o).up = true ∧ (w.nodes o).engine.mode = .dangerStrict
  · obtain ⟨o, hup, hmode⟩ := hdanger
    exact accepted_le_of_danger hinv.cluster (hinv.running o hup) hup hmode
  · push Not at hdanger
    exact accepted_le_of_peak hinv.cluster hdanger

open ClusterAction in
/-- The pair hands over and spends the whole limit. -/
theorem cluster_accepted_le_limit_pair :
    ∃ w, Cluster.Reaches .pair (Cluster.Orderly .pair) w ∧ w.accepted .pair = 100 ∧
      w.accepted .pair ≤ Deployment.pair.limit := by
  have hrun : (exec (Cluster.step .pair) (Cluster.Orderly .pair) (Cluster.init .pair)
      (pairPrepares ++ pairCommits ++ [.node 0 (.apply ⟨17, 50, 0⟩)])).map (fun w => decide
        (w.accepted .pair = 100)) = some true := by
    decide +kernel
  obtain ⟨w, hw, haccepted⟩ := Steps.exists_of_exec hrun
  exact ⟨w, hw, haccepted, cluster_accepted_le_limit hw⟩

open ClusterAction in
/-- Without the condition: the leader of the pair commits 50 and the commit frame is lost. The
deadline of the follower fires and reopens its reservation of 55, while the strict owner serves
the remaining 50. Together they accept 145 of 100. -/
theorem cluster_exceeds_limit :
    ∃ w, Cluster.Reaches .pair (fun _ a => a.crashFree = true) w ∧ w.accepted .pair = 145 ∧
      Deployment.pair.limit < w.accepted .pair := by
  have hrun : (exec (Cluster.step .pair) (fun _ a => a.crashFree = true) (Cluster.init .pair)
      (pairPrepares ++ pairCommits ++ pairTimesOut ++
        [.node 0 (.apply ⟨17, 50, 0⟩), .node 1 (.apply ⟨17, 45, 0⟩)])).map (fun w => decide
        (w.accepted .pair = 145)) = some true := by
    decide +kernel
  obtain ⟨w, hw, haccepted⟩ := Steps.exists_of_exec hrun
  refine ⟨w, hw, haccepted, ?_⟩
  rw [haccepted]
  decide

end HotCounter
