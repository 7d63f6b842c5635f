import HotCounter.Handoff.Follower
import HotCounter.Handoff.Leader
import HotCounter.Handoff.Restart

/-!
# The invariant of a cluster

`Inv` joins the protocol's invariant with the safety of every controller's running program. It
holds initially and every step keeps it (`Inv.step`), so it holds in every reachable cluster:
`inv_of_reaches` for all runs, and `inv_of_orderly` with the stronger facts of orderly runs.

A run is orderly when no process crashes or stops, no follower's prepare deadline fires for a
term that the leader still holds, and the clock reading from which the leader draws a term is
above every term seen.
-/

namespace HotCounter

open Foundation NodeView

/-! ### Orderly runs -/

/-- No process ends. -/
def ClusterAction.crashFree : ClusterAction → Bool
  | .crash _ => false
  | .node _ .stop => false
  | _ => true

/-- `NodeView.holds`, to be evaluated. -/
def Node.holds (n : Node) (term : ℕ) : Bool :=
  (decide (n.impl.state ≠ .idle) && decide (n.impl.activeTerm = term) &&
    n.engine.distributedHandoffActive) ||
  match n.journal with
  | none => false
  | some record => decide (record.phase = .committed) && decide (record.term = term)

theorem Node.holds_view {n : Node} {term : ℕ} : n.holds term = true ↔ n.view.holds term := by
  unfold Node.holds NodeView.holds NodeView.committed Node.view
  cases n.journal <;> simp [and_assoc]

namespace Cluster

variable (K : Deployment)

/-- A prepare deadline of a follower does not fire while the leader holds the term. -/
def deadlineInTime (w : Cluster) : ClusterAction → Bool
  | .node i (.tick now) =>
    !(decide (i ≠ K.leader ∧ (w.nodes i).impl.state = .followerPrepared ∧
      (w.nodes i).impl.prepareDeadline ≤ now) &&
        (w.nodes K.leader).holds (w.nodes i).impl.activeTerm)
  | _ => true

/-- The clock reading from which the leader draws a term is above every term seen. -/
def freshTerm (w : Cluster) : ClusterAction → Bool
  | .node i (.effect oracle) =>
    match (w.nodes i).control with
    | .op c .clock _ => !decide (i = K.leader ∧ c.state = .idle) ||
      w.net.all fun packet => decide (packet.frame.term < oracle.now)
    | _ => true
  | _ => true

/-- The steps of an orderly run. -/
def Orderly (w : Cluster) (a : ClusterAction) : Prop :=
  a.crashFree = true ∧ w.deadlineInTime K a = true ∧ w.freshTerm K a = true

instance (w : Cluster) (a : ClusterAction) : Decidable (w.Orderly K a) :=
  inferInstanceAs (Decidable (_ ∧ _))

end Cluster

/-! ### The invariant -/

/-- The protocol's invariant holds and every controller runs safely to rest. -/
structure Inv (K : Deployment) (g : Prop) (w : Cluster) : Prop where
  cluster : ClusterInvariant K g w.view
  running : ∀ i, (w.nodes i).up = true → i ∈ K.running
  safe : ∀ i, (w.nodes i).up = true → RunsToRest K g i (w.nodes i).control w.view

variable {K : Deployment} {g : Prop} {w w' : Cluster} {i : ℕ}

/-- A change of one node, seen as a change of the view. -/
private theorem view_update {n : Node} {packets : List Packet} :
    (Cluster.view ⟨Function.update w.nodes i n, packets ++ w.net⟩) =
      w.view.set i n.view packets := by
  unfold Cluster.view View.set
  congr 1
  funext j
  by_cases hj : j = i
  · subst hj
    simp
  · simp [Function.update_of_ne hj]

theorem inv_init : Inv K g (Cluster.init K) where
  cluster := by
    have hdown : ∀ i, ((Cluster.init K).view.nodes i).up ≠ true := fun i => nofun
    have hcommitted : ∀ i r, ¬ ((Cluster.init K).view.nodes i).committed r := fun i r h =>
      absurd h.1 nofun
    have howed : ∀ i term value, ¬ ((Cluster.init K).view.nodes i).outstanding term value := by
      rintro i term value ⟨after, before, _, _, h, -⟩
      exact absurd h (by simp [Cluster.init, Cluster.view, Node.view])
    have hsent : ∀ frame, ¬ (Cluster.init K).view.sent frame := by
      rintro frame ⟨p, hp, -⟩
      exact absurd hp nofun
    constructor
    case ok => exact fun i h => absurd h (hdown i)
    case agree => exact fun i r h => absurd h (hcommitted i r)
    case record => exact fun r h => absurd h (hcommitted _ r)
    case frozen => exact fun i r h => absurd h (hcommitted i r)
    case commits => exact fun frame h => absurd h (hsent frame)
    case acks => exact fun frame h => absurd h (hsent frame)
    case reported => exact fun i term value h => absurd h (howed i term value)
    case preparedSender => exact fun frame h => absurd h (hsent frame)
    case newest => exact fun _ _ _ p hp => absurd ⟨p, hp, rfl⟩ (hsent p.frame)
    case aborted => exact fun _ frame h => absurd h (hsent frame)
    case barrier => exact fun _ frame h => absurd h (hsent frame)
    case counted => exact fun _ i term value _ h => absurd h (howed i term value)
    case decided => exact fun _ r h => absurd h (hcommitted _ r)
    case started => exact fun _ i _ => ⟨fun r h => absurd h nofun, rfl, rfl, rfl⟩
  running := fun i h => absurd h nofun
  safe := fun i h => absurd h nofun

/-- What a step does: it keeps the invariant, and every committed journal. -/
structure Advance (K : Deployment) (g : Prop) (w w' : Cluster) : Prop where
  inv : Inv K g w'
  committed : ∀ i r, (w.view.nodes i).committed r → (w'.view.nodes i).committed r

/-- One node changed and sent packets, within what the others rely on. -/
private theorem Inv.update (h : Inv K g w) {n : Node} (packets : List Packet)
    (hcluster : ClusterInvariant K g (w.view.set i n.view packets))
    (hrely : ∀ j, j ≠ i → Rely K g j w.view (w.view.set i n.view packets))
    (hkeeps : ∀ r, (w.view.nodes i).committed r → n.view.committed r)
    (hrunning : n.up = true → i ∈ K.running)
    (hsafe : n.up = true → RunsToRest K g i n.control (w.view.set i n.view packets)) :
    Advance K g w ⟨Function.update w.nodes i n, packets ++ w.net⟩ := by
  refine ⟨⟨view_update ▸ hcluster, fun j hj => ?_, fun j hj => ?_⟩, fun j r hr => ?_⟩
  · dsimp only at hj
    by_cases hji : j = i
    · subst hji
      rw [Function.update_self] at hj
      exact hrunning hj
    · rw [Function.update_of_ne hji] at hj
      exact h.running j hj
  · rw [view_update]
    dsimp only at hj ⊢
    by_cases hji : j = i
    · subst hji
      rw [Function.update_self] at hj ⊢
      exact hsafe hj
    · rw [Function.update_of_ne hji] at hj ⊢
      exact (h.safe j hj).rely (hrely j hji)
  · rw [view_update]
    by_cases hji : j = i
    · subst hji
      rw [View.set_nodes_self]
      exact hkeeps r hr
    · rw [View.set_nodes_of_ne hji]
      exact hr

/-! ### Requests -/

/-- Requests and control-loop iterations, as a swap. -/
private theorem NodeEnv.swap {n n' : NodeView} (hok : NodeOk K i n) (hup : n.up = true)
    (henv : NodeEnv K i n n') : Swap K g i n n' := by
  obtain ⟨hsame, hused⟩ := henv.control hok
  have hserve : n'.servesPeak → n.servesPeak := fun h =>
    ⟨hsame.mode.symm.trans h.1, hsame.gateOpen.symm.trans h.2⟩
  constructor
  case ok => exact fun _ => henv.ok hok
  case committed => intro r; simp only [committed, henv.journal]
  case performed => exact henv.performed
  case journal => intro term value; simp only [Reported, henv.journal]; exact id
  case frozen => exact fun _ _ h _ hs => h hup (hserve hs)
  case owed => exact fun _ _ _ h _ hs => h hup (hserve hs)
  case mode => exact fun _ _ h _ hm => h hup (hsame.mode.symm.trans hm)
  case holds =>
    rintro - - term (⟨hstate, hterm, hon⟩ | ⟨r, hr, hterm⟩)
    · exact .inl ⟨henv.impl.state ▸ hstate, henv.impl.activeTerm ▸ hterm, hsame.active ▸ hon⟩
    · exact .inr ⟨r, ⟨henv.journal ▸ hr.1, hr.2⟩, hterm⟩
  case stays => exact fun _ h => henv.up.trans h
  case used => exact fun _ _ h => hused h
  case prepared => exact fun _ _ _ _ => henv.impl.prepared
  case started => exact fun _ h => Bool.noConfusion ((henv.up.trans hup).symm.trans h)

private theorem Inv.env (h : Inv K g w) (hup : (w.nodes i).up = true) {n : Node}
    (hcontrol : n.control = (w.nodes i).control)
    (henv : NodeEnv K i (w.view.nodes i) n.view) :
    Advance K g w ⟨Function.update w.nodes i n, w.net⟩ := by
  have hswap : Swap K g i (w.view.nodes i) n.view := henv.swap (h.cluster.ok i hup) hup
  refine h.update [] (h.cluster.swap hswap) (fun j hj => .swap_other h.cluster hswap hj)
    (fun r hr => (hswap.committed r).mpr hr) (fun _ => h.running i hup) fun _ => ?_
  rw [hcontrol]
  refine (h.safe i hup).rely (.swap h.cluster hswap ?_)
  rw [View.set_nodes_self]
  exact henv

/-! ### The controller -/

/-- The controller takes up a handler. -/
private theorem Inv.handle (h : Inv K g w) (hup : (w.nodes i).up = true) {n : Node}
    {handler : HandoffM Unit} (hn : (w.nodes i).handle handler = some n) (stopped : Bool)
    (hstarts : ∀ c, (w.nodes i).control = .ret c () → Rest K g i c w.view →
      Starts K g i (handler c) w.view) :
    Advance K g w ⟨Function.update w.nodes i { n with stopped := stopped }, w.net⟩ := by
  obtain ⟨c, hcontrol, rfl⟩ := Node.handle_eq_some hn
  have hrest : Rest K g i c w.view := by
    have hsafe := h.safe i hup
    rw [hcontrol] at hsafe
    exact hsafe.rest
  obtain ⟨hcluster, hrely, hsafe⟩ := hstarts c hcontrol hrest
  exact h.update [] hcluster hrely (fun _ hr => hr) (fun _ => h.running i hup)
    fun _ => hsafe

/-- One effect of a controller keeps the guarantee. -/
theorem Inv.effect_guar (h : Inv K g w) (hup : (w.nodes i).up = true) {n : Node}
    {packets : List Packet} {oracle : Oracle}
    (hstep : (w.nodes i).step (.effect oracle) = some (n, packets))
    (hfresh : g → w.freshTerm K (.node i (.effect oracle)) = true) :
    Guar K g i w.view (w.view.set i n.view packets) ∧
      RunsToRest K g i n.control (w.view.set i n.view packets) := by
  have hsafe := h.safe i hup
  simp only [Node.step] at hstep
  split at hstep
  · exact absurd hstep nofun
  rename_i c e k hcontrol
  rw [hcontrol] at hsafe
  cases hrun : e.run oracle (w.nodes i).engine (w.nodes i).journal with
  | none =>
    -- only `terminate` has no outcome, and it is a fault
    have hfault : e = .terminate := by
      cases e <;> first | rfl | exact absurd hrun nofun
    exact absurd hfault hsafe.1
  | some result =>
    obtain ⟨reply, engine, journal, sent⟩ := result
    rw [hrun] at hstep
    obtain ⟨rfl, rfl⟩ := Prod.mk.inj (Option.some.inj hstep)
    have hclock : g → i = K.leader → e = .clock → (w.view.nodes i).impl.state = .idle →
        ∀ p ∈ w.view.net, p.frame.term < oracle.now := by
      rintro hg hi rfl hidle p hp
      have horderly := hfresh hg
      have hidle' : c.state = .idle := by
        have hlabel : (w.view.nodes i).impl = c := by
          change (w.nodes i).control.state = c
          rw [hcontrol]
          rfl
        rw [← hlabel]
        exact hidle
      simp only [Cluster.freshTerm, hcontrol] at horderly
      simp only [hi, hidle', and_self, decide_true, Bool.not_true, Bool.false_or,
        List.all_eq_true, decide_eq_true_eq] at horderly
      exact horderly p hp
    obtain ⟨hguar, hsafe'⟩ := Setting.Safe.step (S := setting K g i) hsafe
      ⟨oracle, engine, journal, sent, hrun, hclock, rfl⟩
    have hview : ∀ c, (setting K g i).expose c (w.view.set i { w.view.nodes i with
        engine := engine
        journal := journal
        performed := e :: (w.view.nodes i).performed } sent) =
        w.view.set i { w.view.nodes i with
          engine := engine
          journal := journal
          impl := c
          performed := e :: (w.view.nodes i).performed } sent := fun c => by
      simp [setting]
    rw [hview] at hguar hsafe'
    exact ⟨hguar, hsafe'⟩

private theorem Inv.effect (h : Inv K g w) (hup : (w.nodes i).up = true) {n : Node}
    {packets : List Packet} {oracle : Oracle}
    (hstep : (w.nodes i).step (.effect oracle) = some (n, packets))
    (hfresh : g → w.freshTerm K (.node i (.effect oracle)) = true) :
    Advance K g w ⟨Function.update w.nodes i n, packets ++ w.net⟩ := by
  obtain ⟨hguar, hsafe⟩ := h.effect_guar hup hstep hfresh
  refine h.update packets hguar.cluster hguar.rely (fun r hr => ?_) (fun _ => h.running i hup)
    fun _ => hsafe
  have hkeeps := hguar.keeps r hr
  rwa [View.set_nodes_self] at hkeeps

/-! ### Crashes and starts -/

private theorem swap_crash (hg : ¬ g) (n : NodeView) : Swap K g i n { n with up := false } where
  ok := nofun
  committed := fun _ => .rfl
  performed := rfl
  journal := fun _ _ h => h
  frozen := nofun
  owed := nofun
  mode := nofun
  holds := fun h => absurd h hg
  stays := fun h => absurd h hg
  used := fun h => absurd h hg
  prepared := fun h => absurd h hg
  started := fun h => absurd h hg

private theorem Inv.crash (h : Inv K g w) (hg : ¬ g) :
    Advance K g w ⟨Function.update w.nodes i (w.nodes i).crash, w.net⟩ :=
  h.update [] (h.cluster.swap (swap_crash hg _))
    (fun _ hj => .swap_other h.cluster (swap_crash hg _) hj) (fun _ hr => hr) nofun nofun

section Start

variable {journal journal' : Option JournalRecord}

private theorem JournalKept.committed_iff (h : JournalKept journal journal') (r : JournalRecord) :
    journal' = some r ∧ r.phase = .committed ↔ journal = some r ∧ r.phase = .committed := by
  rcases h with rfl | ⟨rfl, rfl⟩
  · exact .rfl
  · constructor
    · rintro ⟨hr, hphase⟩
      obtain rfl := Option.some.inj hr
      exact absurd hphase nofun
    · exact fun hr => absurd hr.1 nofun

private theorem JournalKept.some (h : JournalKept journal journal') {r : JournalRecord}
    (hr : journal = some r) : journal' = some r := by
  rcases h with rfl | ⟨rfl, -⟩
  · exact hr
  · exact absurd hr nofun

/-- Only a prepared or committed journal owes a report. -/
private theorem phase_of_reported {n : NodeView} {term value : ℕ} (h : Reported n term value) :
    ∃ r, n.journal = some r ∧ r.term = term ∧ (r.phase = .prepared ∨ r.phase = .committed) := by
  obtain ⟨r, hr, hterm, hphase⟩ := h
  exact ⟨r, hr, hterm, hphase.imp_left And.left⟩

/-- A started process never serves peak requests on a prepared or committed journal. -/
private theorem Started.not_servesPeak {e : CounterEngine} {c : Impl}
    (h : Started K i journal e c) {r : JournalRecord} (hr : journal = some r)
    (hphase : r.phase = .prepared ∨ r.phase = .committed) :
    ¬ (e.mode = .reservedPeak ∧ e.gateOpen = true) := by
  rintro ⟨hmode, hopen⟩
  rcases hphase with hphase | hphase
  · have hclosed := (h.fenced (by rw [hr]; exact hphase)).2.1
    cases hclosed.symm.trans hopen
  · rw [(h.committed r hr hphase).1] at hmode
    exact CounterEngine.handoffMode_ne_reservedPeak _ hmode

private theorem Started.nodeOk {e : CounterEngine} {c : Impl} {n : NodeView}
    (h : Started K i journal e c) (hkept : JournalKept journal n.journal) (he : n.engine = e)
    (hserved : n.served = []) : NodeOk K i n where
  sound := he ▸ h.sound
  config := he ▸ h.config
  used := by rw [he, hserved]; exact h.used
  strict := by rw [hserved]; rfl
  remote := by rw [hserved]; rfl
  danger := fun _ => by rw [hserved]; rfl
  modes := by
    rw [he, hserved]
    cases hphase : journalPhase journal with
    | idle => exact .inl (h.peak hphase).1
    | prepared => exact .inl (h.fenced hphase).1
    | committed =>
      cases journal with
      | none => exact absurd hphase nofun
      | some r =>
        obtain ⟨hmode, hvalue, -⟩ := h.committed r rfl hphase
        exact .inr ⟨r, ⟨hkept.some rfl, hphase⟩, hmode, hvalue⟩

/-- A start, as a swap. -/
private theorem swap_start {v : View} (hv : ClusterInvariant K g v) (hdown : (v.nodes i).up = false)
    {n' : NodeView} (hkept : JournalKept (v.nodes i).journal n'.journal)
    (hperformed : n'.performed = (v.nodes i).performed)
    (hcases : n' = { v.nodes i with journal := n'.journal } ∨
      n'.served = [] ∧ n'.up = true ∧ Started K i (v.nodes i).journal n'.engine n'.impl) :
    Swap K g i (v.nodes i) n' where
  ok := by
    intro hup
    rcases hcases with hn | ⟨hserved, -, hstarted⟩
    · rw [hn] at hup
      cases hdown.symm.trans hup
    · exact hstarted.nodeOk hkept rfl hserved
  committed := hkept.committed_iff
  performed := hperformed
  journal := fun term value ⟨r, hr, hrest⟩ => ⟨r, hkept.some hr, hrest⟩
  frozen := by
    intro r hr _ hup
    rcases hcases with hn | ⟨-, -, hstarted⟩
    · rw [hn] at hup
      cases hdown.symm.trans hup
    · exact hstarted.not_servesPeak hr.1 (.inr hr.2)
  -- a report that was sent is in the journal, so the process starts fenced or committed
  owed := by
    intro term value hreported _ hup
    obtain ⟨r, hr, -, hphase⟩ := phase_of_reported hreported
    rcases hcases with hn | ⟨-, -, hstarted⟩
    · rw [hn] at hup
      cases hdown.symm.trans hup
    · exact hstarted.not_servesPeak hr hphase
  mode := by
    intro r hr _ hup
    rcases hcases with hn | ⟨-, -, hstarted⟩
    · rw [hn] at hup
      cases hdown.symm.trans hup
    · rw [(hstarted.committed r hr.1 hr.2).1]
      exact CounterEngine.handoffMode_ne_reservedPeak _
  holds := by
    rintro - - term (⟨hstate, hterm, hon⟩ | ⟨r, hr, hterm⟩)
    · rcases hcases with hn | ⟨-, -, hstarted⟩
      · rw [hn] at hstate hterm hon
        exact .inl ⟨hstate, hterm, hon⟩
      · exact absurd hstarted.idle hstate
    · exact .inr ⟨r, (hkept.committed_iff r).mp hr, hterm⟩
  stays := fun _ hup => absurd (hdown.symm.trans hup) nofun
  used := fun _ hup => absurd (hdown.symm.trans hup) nofun
  prepared := fun hg _ r hr =>
    absurd (((hv.started hg i hdown).1 r hr.1).symm.trans hr.2) nofun
  started := by
    intro hg hup
    obtain ⟨hjournal, hserved, hnone, hidle⟩ := hv.started hg i hdown
    rcases hcases with hn | ⟨-, hup', -⟩
    · refine ⟨fun r hr => ?_, by rw [hn]; exact hserved, hperformed.trans hnone,
        by rw [hn]; exact hidle⟩
      rcases hkept with hsame | ⟨-, hinit⟩
      · exact hjournal r (hsame ▸ hr)
      · obtain rfl := Option.some.inj (hinit.symm.trans hr)
        rfl
    · cases hup'.symm.trans hup

/-- A process that has just started is at rest. -/
private theorem Started.rest {v : View} {e : CounterEngine} {c : Impl}
    (h : Started K i journal e c) (hkept : JournalKept journal (v.nodes i).journal)
    (hv : ClusterInvariant K g v) (hup : (v.nodes i).up = true) (he : (v.nodes i).engine = e)
    (hc : (v.nodes i).impl = c) : Rest K g i c v := by
  have hstand : ∀ {s}, (v.nodes i).Stands s → Stand K g i c s (fun _ => True) v := fun hs =>
    ⟨hv, hup, hc ▸ .refl _, h.configured, hs, trivial⟩
  have hactive : (v.nodes i).engine.distributedHandoffActive = false := he ▸ h.active
  cases hphase : journalPhase journal with
  | idle =>
    obtain ⟨-, -, -, hlast⟩ := h.peak hphase
    have hidle : ∀ r, journal = some r → r.phase = .idle := by
      rintro r rfl
      exact hphase
    refine .peak h.idle hlast (hstand ⟨hactive, fun r hr => ?_, fun term total ho => ?_⟩)
    · obtain ⟨hr, hcommitted⟩ := (hkept.committed_iff r).mp hr
      cases (hidle r hr).symm.trans hcommitted
    · obtain ⟨r, hr, -, hphase'⟩ := phase_of_reported (hv.reported i term total ho).2.2.1
      have hidle' : r.phase = .idle := by
        rcases hkept with hsame | ⟨-, hinit⟩
        · exact hidle r (hsame ▸ hr)
        · obtain rfl := Option.some.inj (hinit.symm.trans hr)
          rfl
      rcases hphase' with h | h <;> cases hidle'.symm.trans h
  | prepared =>
    obtain ⟨-, hgate, hfence⟩ := h.fenced hphase
    refine .fenced h.idle hfence (hstand ⟨hactive, he ▸ hgate, fun r hr => ?_⟩)
    obtain ⟨rfl, hcommitted⟩ := (hkept.committed_iff r).mp hr
    cases hphase.symm.trans hcommitted
  | committed =>
    cases journal with
    | none => cases hphase
    | some r =>
      obtain ⟨hmode, -, hlast⟩ := h.committed r rfl hphase
      refine .installed r h.idle hlast (hstand ⟨hactive, ⟨hkept.some rfl, hphase⟩, ?_⟩)
      rw [he, hmode]
      exact CounterEngine.handoffMode_ne_reservedPeak _

end Start

private theorem Inv.start (h : Inv K g w) (hi : i ∈ K.running) (hdown : (w.nodes i).up = false)
    (outcome : StoreOutcome) :
    Advance K g w ⟨Function.update w.nodes i
      ((w.nodes i).start (K.resolve i) (K.config i) (K.handoff i) outcome), w.net⟩ := by
  obtain ⟨journal, hkept, heq | ⟨e, c, hstarted, heq⟩⟩ := Node.start_cases hi (w.nodes i) outcome
  · rw [heq]
    have hswap : Swap K g i (w.view.nodes i) ({ w.nodes i with journal := journal } : Node).view :=
      swap_start h.cluster hdown hkept rfl (.inl rfl)
    exact h.update [] (h.cluster.swap hswap) (fun j hj => .swap_other h.cluster hswap hj)
      (fun r hr => (hswap.committed r).mpr hr) (fun _ => hi)
      fun hup => absurd (hdown.symm.trans hup) nofun
  · rw [heq]
    have hswap : Swap K g i (w.view.nodes i) ({ w.nodes i with
        up := true
        stopped := false
        engine := e
        control := .ret c ()
        journal := journal
        served := [] } : Node).view :=
      swap_start h.cluster hdown hkept rfl (.inr ⟨rfl, rfl, hstarted⟩)
    refine h.update [] (h.cluster.swap hswap)
      (fun j hj => .swap_other h.cluster hswap hj) (fun r hr => (hswap.committed r).mpr hr)
      (fun _ => hi) fun _ => RunsToRest.ret ?_
    refine hstarted.rest ?_ (h.cluster.swap hswap) ?_ ?_ ?_
    all_goals rw [View.set_nodes_self]
    · exact hkept
    · rfl
    · rfl
    · rfl

/-! ### Every step -/

/-- One step inside a process. -/
private theorem Inv.node (h : Inv K g w) (hup : (w.nodes i).up = true) {action : NodeAction}
    (hauthentic : action.authentic w.net = true) {n : Node} {packets : List Packet}
    (hstep : (w.nodes i).step action = some (n, packets))
    (horderly : g → w.Orderly K (.node i action)) :
    Advance K g w ⟨Function.update w.nodes i n, packets ++ w.net⟩ := by
  have hlabel : ∀ c, (w.nodes i).control = .ret c () → (w.nodes i).impl = c := fun c hc => by
    rw [Node.impl, hc]
    rfl
  cases action with
  | apply request =>
    obtain ⟨rfl, rfl⟩ := Prod.mk.inj (Option.some.inj hstep)
    exact h.env hup rfl (NodeEnv.apply (w.view.nodes i) request)
  | controlLoop =>
    obtain ⟨rfl, rfl⟩ := Prod.mk.inj (Option.some.inj hstep)
    exact h.env hup rfl (NodeEnv.controlLoop (h.running i hup) (w.view.nodes i))
  | raisePeakRequest =>
    obtain ⟨rfl, rfl⟩ := Prod.mk.inj (Option.some.inj hstep)
    exact h.env hup rfl (NodeEnv.raisePeakRequest (w.view.nodes i))
  | deliver frame source =>
    obtain ⟨n', hn', heq⟩ := Option.map_eq_some_iff.mp hstep
    obtain ⟨rfl, rfl⟩ := Prod.mk.inj heq
    have hsent : w.view.sent frame := by
      obtain ⟨p, hp, hframe⟩ := List.any_eq_true.mp hauthentic
      exact ⟨p, hp, by simpa using hframe⟩
    refine h.handle hup hn' n'.stopped fun c _ hrest => ?_
    by_cases hi : i = K.leader
    · subst hi
      exact leader_handleFrame hrest hsent
    · exact follower_handleFrame hi hrest hsent
  | tick now =>
    obtain ⟨n', hn', heq⟩ := Option.map_eq_some_iff.mp hstep
    obtain ⟨rfl, rfl⟩ := Prod.mk.inj heq
    refine h.handle hup hn' n'.stopped fun c hc hrest => ?_
    refine Continues.starts ?_ hrest.cluster hrest.up
    by_cases hi : i = K.leader
    · subst hi
      exact leader_tick hrest
    · -- an orderly tick does not let a deadline pass while the leader holds the term
      refine follower_tick hi hrest fun hg hstate hdeadline hh => ?_
      have hin := (horderly hg).2.1
      simp only [Cluster.deadlineInTime, hlabel c hc, hstate, hdeadline, ne_eq, hi,
        not_false_eq_true, and_self, decide_true, Bool.true_and, Bool.not_eq_true'] at hin
      exact absurd (Node.holds_view.mpr hh) (by simp [hin])
  | effect oracle => exact h.effect hup hstep fun hg => (horderly hg).2.2
  | stop =>
    obtain ⟨n', hn', heq⟩ := Option.map_eq_some_iff.mp hstep
    obtain ⟨rfl, rfl⟩ := Prod.mk.inj heq
    refine h.handle hup hn' true fun c _ hrest => ?_
    refine Continues.starts ?_ hrest.cluster hrest.up
    by_cases hi : i = K.leader
    · subst hi
      exact leader_stop hrest
    · exact follower_stop hi hrest fun hg => absurd (horderly hg).1 nofun

/-- **Every step of a cluster keeps the invariant**, an orderly step also its stronger part. -/
theorem Inv.step (h : Inv K g w) {a : ClusterAction} (hstep : w.step K a = some w')
    (horderly : g → w.Orderly K a) : Advance K g w w' := by
  cases a with
  | node i action =>
    simp only [Cluster.step] at hstep
    split at hstep
    swap
    · exact absurd hstep nofun
    rename_i hguard
    obtain ⟨hup, hauthentic⟩ := Bool.and_eq_true_iff.mp hguard
    obtain ⟨⟨n, packets⟩, hn, rfl⟩ := Option.map_eq_some_iff.mp hstep
    exact h.node hup hauthentic hn horderly
  | crash i =>
    simp only [Cluster.step] at hstep
    split at hstep
    swap
    · exact absurd hstep nofun
    obtain rfl := Option.some.inj hstep
    exact h.crash fun hg => absurd (horderly hg).1 nofun
  | start i outcome =>
    simp only [Cluster.step] at hstep
    split at hstep
    swap
    · exact absurd hstep nofun
    rename_i hguard
    obtain rfl := Option.some.inj hstep
    exact h.start hguard.1 hguard.2 outcome

/-- The invariant holds in every reachable cluster. -/
theorem inv_of_reaches {ok : Cluster → ClusterAction → Prop} (h : Cluster.Reaches K ok w) :
    Inv K False w :=
  h.invariant inv_init fun _ _ _ hinv _ hstep => (hinv.step hstep False.elim).inv

/-- A committed journal stays as it is. -/
theorem committed_of_steps {ok : Cluster → ClusterAction → Prop} (h : Cluster.Reaches K ok w)
    (h' : Steps (Cluster.step K) ok w w') {i : ℕ} {r : JournalRecord}
    (hr : (w.view.nodes i).committed r) : (w'.view.nodes i).committed r := by
  have hinv : Inv K False w' ∧ (w'.view.nodes i).committed r := by
    refine h'.invariant (P := fun w => Inv K False w ∧ (w.view.nodes i).committed r)
      ⟨inv_of_reaches h, hr⟩ fun _ _ _ hinv _ hstep => ?_
    have hadvance := hinv.1.step hstep False.elim
    exact ⟨hadvance.inv, hadvance.committed i r hinv.2⟩
  exact hinv.2

/-- In an orderly run the invariant holds with its stronger part. -/
theorem inv_of_orderly (h : Cluster.Reaches K (Cluster.Orderly K) w) : Inv K True w :=
  h.invariant inv_init fun _ _ _ hinv hok hstep => (hinv.step hstep fun _ => hok).inv

end HotCounter
