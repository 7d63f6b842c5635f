import HotCounter.Handoff.Node
import HotCounter.Foundation.Transition

/-!
# A cluster of processes

A `Deployment` is a set of processes whose configurations were accepted with the same limit,
plan, leader and strict owner. The network keeps every frame ever sent and may hand any of them
to any member, any number of times and in any order: loss, duplication and reordering. A frame
is authentic, so nothing that was not sent is ever delivered.
-/

namespace HotCounter

open Foundation

/-- The processes of a cluster, two at least, each with the configuration `make_runtime_config`
made of its options. -/
structure Deployment where
  limit : ℕ
  reservations : List ComponentReservation
  leader : ℕ
  owner : ℕ
  running : Finset ℕ
  options : ℕ → RuntimeLaunchOptions
  config : ℕ → CounterRuntimeConfig
  handoff : ℕ → DistributedHandoffConfig
  readFile : ℕ → String → Option (List UInt8)
  resolve : ℕ → String → ℕ → Option Endpoint
  component : ∀ i ∈ running, (options i).componentId = i
  same_limit : ∀ i ∈ running, (options i).limit = limit
  same_plan : ∀ i ∈ running, (options i).clusterReservations = reservations
  same_leader : ∀ i ∈ running, (options i).handoffLeader = leader
  same_owner : ∀ i ∈ running, (options i).strictOwner = owner
  accepted : ∀ i ∈ running, (options i).makeRuntimeConfig (readFile i) = .ok (config i)
  handoff_eq : ∀ i ∈ running, (config i).handoff = some (handoff i)
  two : 2 ≤ running.card

namespace Deployment

variable (K : Deployment)

/-- The member ids of the plan. -/
def ids : List ℕ := K.reservations.map ComponentReservation.componentId

/-- The static facts about one process. -/
structure Member (i : ℕ) : Prop where
  componentId : (K.handoff i).componentId = i
  leader : (K.handoff i).leaderComponentId = K.leader
  owner : (K.handoff i).strictOwnerComponentId = K.owner
  members : (K.handoff i).members = K.ids
  limit : (K.config i).engine.limit = K.limit
  startPeak : (K.config i).startPeak = true
  reservation : ∃ component ∈ K.reservations,
    component.componentId = i ∧ component.capacity = (K.config i).engine.localPeak
  reservation_pos : 0 < (K.config i).engine.localPeak

variable {K}

private theorem accepted_options {i : ℕ} (hi : i ∈ K.running) :
    RuntimeLaunchOptions.Accepted (K.options i) (K.config i) (K.handoff i) :=
  RuntimeLaunchOptions.accepted_of_makeRuntimeConfig (K.accepted i hi) (K.handoff_eq i hi)

theorem member_of_running {i : ℕ} (hi : i ∈ K.running) : K.Member i := by
  have ha := accepted_options hi
  obtain ⟨component, hmem, hid, hcap⟩ := ha.reservation
  have hpeak : (K.config i).engine.localPeak = (K.config i).engine.localPeakReservation :=
    if_neg ha.reservation_pos
  exact
    { componentId := ha.componentId.trans (K.component i hi)
      leader := ha.leader.trans (K.same_leader i hi)
      owner := ha.owner.trans (K.same_owner i hi)
      members := by rw [ha.members, K.same_plan i hi]; rfl
      limit := ha.limit.trans (K.same_limit i hi)
      startPeak := ha.startPeak
      reservation := ⟨component, K.same_plan i hi ▸ hmem, hid.trans (K.component i hi),
        hcap.trans hpeak.symm⟩
      reservation_pos := hpeak ▸ Nat.pos_of_ne_zero ha.reservation_pos }

private theorem exists_running (K : Deployment) : ∃ i, i ∈ K.running :=
  Finset.card_pos.mp (Nat.lt_of_lt_of_le Nat.zero_lt_two K.two)

/-- The shared plan is accepted. -/
private theorem accepts (K : Deployment) :
    ∃ plan, ReservationPlan.Accepts K.limit K.reservations plan := by
  obtain ⟨i, hi⟩ := K.exists_running
  obtain ⟨plan, hplan⟩ := (accepted_options hi).plan
  rw [K.same_limit i hi, K.same_plan i hi] at hplan
  exact ⟨plan, ReservationPlan.accepts_of_new hplan⟩

theorem nodup_ids (K : Deployment) : K.ids.Nodup := by
  obtain ⟨plan, h⟩ := K.accepts
  exact h.nodup

/-- The reservations of all processes fit the limit together. -/
theorem sum_localPeak_le (K : Deployment) :
    ∑ i ∈ K.running, (K.config i).engine.localPeak ≤ K.limit := by
  obtain ⟨plan, h⟩ := K.accepts
  refine (sum_le_of_keys ComponentReservation.componentId ComponentReservation.capacity _
    K.reservations K.running h.nodup fun i hi => ?_).trans h.sum_le
  exact (member_of_running hi).reservation

/-- No process owns the whole limit. -/
theorem localPeak_lt {i : ℕ} (hi : i ∈ K.running) : (K.config i).engine.localPeak < K.limit := by
  obtain ⟨j, hj, hne⟩ : ∃ j ∈ K.running, j ≠ i := by
    by_contra hall
    push Not at hall
    have hsub : K.running ⊆ {i} := fun j hj => Finset.mem_singleton.mpr (hall j hj)
    have hcard := Finset.card_le_card hsub
    have htwo := K.two
    simp at hcard
    omega
  have hpair : (K.config i).engine.localPeak + (K.config j).engine.localPeak ≤
      ∑ k ∈ K.running, (K.config k).engine.localPeak := by
    rw [← Finset.sum_pair (f := fun k => (K.config k).engine.localPeak) hne.symm]
    exact Finset.sum_le_sum_of_subset fun k hk => by
      rcases Finset.mem_insert.mp hk with rfl | hk
      · exact hi
      · exact Finset.mem_singleton.mp hk ▸ hj
  have hsum := K.sum_localPeak_le
  have hpos := (member_of_running hj).reservation_pos
  omega

end Deployment

/-- The processes and the frames in flight. -/
structure Cluster where
  nodes : ℕ → Node
  net : List Packet

/-- What can happen in a cluster. -/
inductive ClusterAction
  | node (i : ℕ) (action : NodeAction)
  | crash (i : ℕ)
  | start (i : ℕ) (outcome : StoreOutcome)

namespace NodeAction

/-- Only a frame that was sent can arrive. -/
def authentic (net : List Packet) : NodeAction → Bool
  | .deliver frame _ => net.any fun packet => packet.frame == frame
  | _ => true

end NodeAction

namespace Cluster

variable (K : Deployment)

/-- No process runs and no journal exists. -/
def init : Cluster where
  nodes := fun i =>
    { engine := CounterEngine.new (K.config i).engine
      control := .ret
        { engine := (K.config i).engine, config := K.handoff i, members := [], peers := [] } () }
  net := []

/-- One step of one process, a crash or a start. -/
def step (w : Cluster) : ClusterAction → Option Cluster
  | .node i action =>
    if (w.nodes i).up && action.authentic w.net then
      ((w.nodes i).step action).map fun result =>
        { nodes := Function.update w.nodes i result.1, net := result.2 ++ w.net }
    else none
  | .crash i =>
    if (w.nodes i).up then
      some { w with nodes := Function.update w.nodes i (w.nodes i).crash }
    else none
  | .start i outcome =>
    if i ∈ K.running ∧ (w.nodes i).up = false then
      some { w with
        nodes := Function.update w.nodes i
          ((w.nodes i).start (K.resolve i) (K.config i) (K.handoff i) outcome) }
    else none

/-- The runs of a cluster whose every action is allowed by `ok`. -/
def Reaches (ok : Cluster → ClusterAction → Prop) (w : Cluster) : Prop :=
  Steps (step K) ok (init K) w

end Cluster

/-! ### A cluster of two -/

namespace Deployment

/-- The launch options of two processes on one host that share a limit of 100; the first is
leader and strict owner. -/
def pairOptions (i : ℕ) : RuntimeLaunchOptions where
  limit := 100
  shards := 1
  dangerThreshold := 10
  startPeak := true
  componentId := i
  clusterReservations := [⟨0, 45⟩, ⟨1, 55⟩]
  handoffBindPort := 9000 + i
  handoffPeers := [⟨1 - i, "127.0.0.1", 9001 - i⟩]
  handoffAuthKeyFile := "key"
  handoffJournalPath := "journal"
  handoffOptionSeen := true
  limit_lt := CounterEngineConfig.hundred_lt

def pairHandoff (i : ℕ) : DistributedHandoffConfig where
  componentId := i
  leaderComponentId := 0
  strictOwnerComponentId := 0
  bindPort := 9000 + i
  members := [0, 1]
  peers := [⟨1 - i, "127.0.0.1", 9001 - i⟩]
  authenticationKey := List.replicate 16 7
  journalPath := "journal"

theorem pairReservation_lt (i : ℕ) : (if i = 0 then 45 else 55) < 2 ^ 64 := by
  split <;> decide

def pairConfig (i : ℕ) : CounterRuntimeConfig where
  engine :=
    { limit := 100
      shards := 1
      dangerThreshold := 10
      hotThresholdTps := 50000
      componentId := i
      localPeakReservation := if i = 0 then 45 else 55
      limit_lt := CounterEngineConfig.hundred_lt
      reservation_lt := pairReservation_lt i
      shards_pos := Nat.one_pos }
  startPeak := true
  handoff := some (pairHandoff i)

/-- Both processes of the pair. -/
def pair : Deployment where
  limit := 100
  reservations := [⟨0, 45⟩, ⟨1, 55⟩]
  leader := 0
  owner := 0
  running := {0, 1}
  options := pairOptions
  config := pairConfig
  handoff := pairHandoff
  readFile := fun _ _ => some (List.replicate 16 7)
  resolve := fun _ _ port => some ⟨2130706433, port⟩
  component := fun _ _ => rfl
  same_limit := fun _ _ => rfl
  same_plan := fun _ _ => rfl
  same_leader := fun _ _ => rfl
  same_owner := fun _ _ => rfl
  accepted := by
    intro i hi
    rcases Finset.mem_insert.mp hi with rfl | hi
    · rfl
    · obtain rfl := Finset.mem_singleton.mp hi
      rfl
  handoff_eq := fun _ _ => rfl
  two := by decide

end Deployment

namespace ClusterAction

/-- Some effects of one controller in a row, every store successful and every clock reading the
same. -/
def effects (i count now : ℕ) : List ClusterAction :=
  List.replicate count (.node i (.effect ⟨.stored, now⟩))

/-- A frame arrives from the process of the pair that sent it. -/
def arrives (i : ℕ) (frame : Frame) : ClusterAction :=
  .node i (.deliver frame ⟨2130706433, 9000 + frame.sender⟩)

/-- Both processes of the pair start, serve requests and agree on the term 1000: the leader has
spent 40, the follower 10, and the follower's report is on its way. -/
def pairPrepares : List ClusterAction :=
  [.start 0 .stored, .start 1 .stored, .node 0 (.apply ⟨17, 40, 0⟩), .node 1 (.apply ⟨17, 10, 0⟩),
    .node 0 (.tick 1000)] ++ effects 0 7 1000 ++
  arrives 1 ⟨.prepare, 0, 1000, 17, 1, 40, 0⟩ :: effects 1 4 1000

/-- The leader receives the report, commits and announces the total of 50. -/
def pairCommits : List ClusterAction :=
  arrives 0 ⟨.prepared, 1, 1000, 17, 1, 10, 0⟩ :: effects 0 2 1000 ++
  .node 0 (.tick 1000) :: effects 0 1 1000

/-- The follower of the pair receives the commit, installs it and acknowledges. -/
def pairInstalls : List ClusterAction :=
  arrives 1 ⟨.commit, 0, 1000, 17, 1, 50, 0⟩ :: effects 1 3 1000

end ClusterAction

end HotCounter
