import HotCounter.Config.Plan
import HotCounter.Engine.Basic

/-!
# From launch options to a runtime configuration

`makeRuntimeConfig` is the transport-neutral validation of the launch options, check by check.
The key file is outside the program: reading it is the parameter `readFile`. Durations are
nanoseconds.
-/

namespace HotCounter

/-- The endpoint of another member of the handoff. -/
structure DistributedPeer where
  componentId : ℕ
  host : String
  port : ℕ
  deriving DecidableEq, Repr

/-- The configuration of one handoff controller. -/
structure DistributedHandoffConfig where
  componentId : ℕ
  leaderComponentId : ℕ
  strictOwnerComponentId : ℕ
  bindPort : ℕ
  bindHost : String := "0.0.0.0"
  members : List ℕ := []
  peers : List DistributedPeer := []
  authenticationKey : List UInt8 := []
  journalPath : String := ""
  retryAfter : ℕ := 10000000
  prepareTimeout : ℕ := 1000000000
  deriving DecidableEq, Repr

/-- The endpoint of a replication peer. -/
structure UdpPeer where
  host : String
  port : ℕ
  deriving DecidableEq, Repr

/-- The configuration of the replicator. -/
structure UdpReplicationConfig where
  componentId : ℕ := 0
  bindPort : ℕ := 0
  peers : List UdpPeer := []
  retryAfter : ℕ := 10000000
  maxRetries : ℕ := 8
  maxPending : ℕ := 65536
  bindHost : String := "0.0.0.0"
  deriving DecidableEq, Repr

/-- The command-line input shared by every adapter. -/
structure RuntimeLaunchOptions where
  limit : ℕ := 1000000000000000
  shards : ℕ := 3
  dangerThreshold : ℕ := 100000
  hotThresholdTps : ℕ := 50000
  startPeak : Bool := false
  componentId : ℕ := 0
  peakReservation : ℕ := 0
  clusterReservations : List ComponentReservation := []
  replicationBindPort : ℕ := 0
  replicationBindHost : String := "0.0.0.0"
  replicationPeers : List UdpPeer := []
  handoffBindPort : ℕ := 0
  handoffBindHost : String := "0.0.0.0"
  handoffLeader : ℕ := 0
  strictOwner : ℕ := 0
  handoffPeers : List DistributedPeer := []
  handoffAuthKeyFile : String := ""
  handoffJournalPath : String := ""
  handoffOptionSeen : Bool := false
  limit_lt : limit < 2 ^ 64 := by decide

/-- What a runtime is built from. -/
structure CounterRuntimeConfig where
  engine : CounterEngineConfig
  startPeak : Bool := false
  replication : Option UdpReplicationConfig := none
  handoff : Option DistributedHandoffConfig := none

theorem ReservationPlan.Accepts.capacityFor_le {globalLimit : ℕ}
    {components : List ComponentReservation} {plan : ReservationPlan}
    (h : Accepts globalLimit components plan) (id : ℕ) : plan.capacityFor id ≤ globalLimit := by
  unfold capacityFor
  split
  · rename_i found hfind
    have hmem := h.perm.mem_iff.mp (List.mem_of_find?_eq_some hfind)
    have hle := List.single_le_sum (fun _ _ => Nat.zero_le _) _
      (List.mem_map_of_mem (f := ComponentReservation.capacity) hmem)
    split
    · exact hle.trans h.sum_le
    · exact Nat.zero_le _
  · exact Nat.zero_le _

namespace RuntimeLaunchOptions

/-- `read_secret_file`: a readable file of at least 16 bytes. -/
def readSecretFile (readFile : String → Option (List UInt8)) (path : String) :
    Except ConfigError (List UInt8) :=
  match readFile path with
  | none => .error (.runtimeError "cannot open handoff authentication key file")
  | some bytes =>
    if bytes.length < 16 then
      .error (.runtimeError "handoff authentication key must contain at least 16 bytes")
    else .ok bytes

/-- The local reservation that `make_runtime_config` settles on. -/
def localReservation (options : RuntimeLaunchOptions) :
    Except ConfigError { reservation : ℕ // reservation ≤ options.limit } :=
  if hle : options.peakReservation > options.limit then
    .error (.invalidArgument "peak reservation exceeds the global limit")
  else if options.clusterReservations = [] then
    .ok ⟨options.peakReservation, Nat.not_lt.mp hle⟩
  else
    match hplan : ReservationPlan.new options.limit options.clusterReservations with
    | .error error => .error error
    | .ok plan =>
      if !plan.hasComponent options.componentId then
        .error (.invalidArgument "cluster plan does not allocate this component id")
      else if plan.capacityFor options.componentId = 0 then
        .error (.invalidArgument "cluster component reservation must be non-zero")
      else if options.peakReservation ≠ 0 ∧
          options.peakReservation ≠ plan.capacityFor options.componentId then
        .error (.invalidArgument "local peak reservation disagrees with cluster plan")
      else if !options.startPeak then
        .error (.invalidArgument "a cluster escrow node must start in peak mode")
      else
        .ok ⟨plan.capacityFor options.componentId,
          (ReservationPlan.accepts_of_new hplan).capacityFor_le _⟩

/-- The replication section, present when any replication option is. -/
def replication (options : RuntimeLaunchOptions) : Option UdpReplicationConfig :=
  if options.replicationBindPort ≠ 0 ∨ options.replicationPeers ≠ [] then
    some { componentId := options.componentId
           bindPort := options.replicationBindPort
           peers := options.replicationPeers
           bindHost := options.replicationBindHost }
  else none

/-- The handoff section. -/
def handoff (readFile : String → Option (List UInt8)) (options : RuntimeLaunchOptions) :
    Except ConfigError (Option DistributedHandoffConfig) :=
  if options.handoffBindPort = 0 then
    if options.handoffOptionSeen then
      .error (.invalidArgument "handoff options require --handoff-bind-port")
    else .ok none
  else if options.handoffAuthKeyFile = "" ∨ options.handoffJournalPath = "" then
    .error (.invalidArgument
      "distributed handoff requires --handoff-auth-key-file and --handoff-journal")
  else if options.clusterReservations = [] then
    .error (.invalidArgument "distributed handoff requires a fixed cluster reservation plan")
  else
    match readSecretFile readFile options.handoffAuthKeyFile with
    | .error error => .error error
    | .ok key =>
      .ok (some
        { componentId := options.componentId
          leaderComponentId := options.handoffLeader
          strictOwnerComponentId := options.strictOwner
          bindPort := options.handoffBindPort
          bindHost := options.handoffBindHost
          peers := options.handoffPeers
          authenticationKey := key
          journalPath := options.handoffJournalPath
          members := options.clusterReservations.map ComponentReservation.componentId })

/-- `make_runtime_config`. -/
def makeRuntimeConfig (readFile : String → Option (List UInt8)) (options : RuntimeLaunchOptions) :
    Except ConfigError CounterRuntimeConfig :=
  if hshards : options.shards = 0 ∨ options.hotThresholdTps = 0 ∨ options.componentId > 65535 then
    .error (.invalidArgument "invalid counter runtime configuration")
  else
    match options.localReservation with
    | .error error => .error error
    | .ok reservation =>
      if reservation.1 ≠ 0 ∧ reservation.1 ≠ options.limit ∧ !options.startPeak then
        .error (.invalidArgument "a component reservation requires initial peak mode")
      else
        match options.handoff readFile with
        | .error error => .error error
        | .ok handoff =>
          .ok
            { engine :=
                { limit := options.limit
                  shards := options.shards
                  dangerThreshold := options.dangerThreshold
                  hotThresholdTps := options.hotThresholdTps
                  componentId := options.componentId
                  localPeakReservation := reservation.1
                  limit_lt := options.limit_lt
                  reservation_lt := reservation.2.trans_lt options.limit_lt
                  shards_pos := Nat.pos_of_ne_zero fun h => hshards (.inl h) }
              startPeak := options.startPeak
              replication := options.replication
              handoff := handoff }

/-- What acceptance with a handoff section guarantees: the process owns a non-zero entry of an
accepted plan, starts in peak mode, and its members are the ids of the plan. -/
structure Accepted (options : RuntimeLaunchOptions) (config : CounterRuntimeConfig)
    (handoff : DistributedHandoffConfig) : Prop where
  plan : ∃ plan, ReservationPlan.new options.limit options.clusterReservations = .ok plan
  reservation : ∃ component ∈ options.clusterReservations,
    component.componentId = options.componentId ∧
      component.capacity = config.engine.localPeakReservation
  reservation_pos : config.engine.localPeakReservation ≠ 0
  limit : config.engine.limit = options.limit
  dangerThreshold : config.engine.dangerThreshold = options.dangerThreshold
  startPeak : config.startPeak = true
  componentId : handoff.componentId = options.componentId
  leader : handoff.leaderComponentId = options.handoffLeader
  owner : handoff.strictOwnerComponentId = options.strictOwner
  members : handoff.members = options.clusterReservations.map ComponentReservation.componentId

theorem localReservation_cluster {options : RuntimeLaunchOptions}
    {reservation : { r : ℕ // r ≤ options.limit }}
    (h : options.localReservation = .ok reservation) (hne : options.clusterReservations ≠ []) :
    (∃ plan, ReservationPlan.new options.limit options.clusterReservations = .ok plan ∧
        plan.hasComponent options.componentId = true ∧
        plan.capacityFor options.componentId = reservation.1) ∧
      reservation.1 ≠ 0 ∧ options.startPeak = true := by
  unfold localReservation at h
  split at h
  · exact absurd h nofun
  split at h
  · exact absurd h nofun
  rename_i plan hplan
  split at h
  · exact absurd h nofun
  rename_i hhas
  split at h
  · exact absurd h nofun
  rename_i hzero
  split at h
  · exact absurd h nofun
  split at h
  · exact absurd h nofun
  rename_i hpeak
  obtain rfl := Except.ok.inj h
  exact ⟨⟨plan, hplan, by simpa using hhas, rfl⟩, hzero, by simpa using hpeak⟩

private theorem handoff_some {readFile : String → Option (List UInt8)}
    {options : RuntimeLaunchOptions} {handoff : DistributedHandoffConfig}
    (h : options.handoff readFile = .ok (some handoff)) :
    options.clusterReservations ≠ [] ∧ handoff.componentId = options.componentId ∧
      handoff.leaderComponentId = options.handoffLeader ∧
      handoff.strictOwnerComponentId = options.strictOwner ∧
      handoff.members = options.clusterReservations.map ComponentReservation.componentId := by
  unfold RuntimeLaunchOptions.handoff at h
  split at h
  · split at h
    · exact absurd h nofun
    · exact absurd (Except.ok.inj h) nofun
  split at h
  · exact absurd h nofun
  split at h
  · exact absurd h nofun
  rename_i hne
  split at h
  · exact absurd h nofun
  obtain rfl := Option.some.inj (Except.ok.inj h)
  exact ⟨hne, rfl, rfl, rfl, rfl⟩

/-- **Acceptance with a handoff section.** -/
theorem accepted_of_makeRuntimeConfig {readFile : String → Option (List UInt8)}
    {options : RuntimeLaunchOptions} {config : CounterRuntimeConfig}
    {handoff : DistributedHandoffConfig} (h : options.makeRuntimeConfig readFile = .ok config)
    (hhandoff : config.handoff = some handoff) : Accepted options config handoff := by
  unfold makeRuntimeConfig at h
  split at h
  · exact absurd h nofun
  split at h
  · exact absurd h nofun
  rename_i reservation hres
  split at h
  · exact absurd h nofun
  split at h
  · exact absurd h nofun
  rename_i handoff' hsection
  obtain rfl := Except.ok.inj h
  obtain rfl : handoff' = some handoff := hhandoff
  obtain ⟨hne, hid, hleader, howner, hmembers⟩ := handoff_some hsection
  obtain ⟨⟨plan, hplan, hhas, hcap⟩, hzero, hpeak⟩ := localReservation_cluster hres hne
  have haccepts := ReservationPlan.accepts_of_new hplan
  obtain ⟨component, hmem, hcid⟩ := haccepts.hasComponent_mem hhas
  exact
    { plan := ⟨plan, hplan⟩
      reservation := ⟨component, hmem, hcid, by
        rw [← haccepts.capacityFor_eq hmem, hcid]
        exact hcap⟩
      reservation_pos := hzero
      limit := rfl
      dangerThreshold := rfl
      startPeak := hpeak
      componentId := hid
      leader := hleader
      owner := howner
      members := hmembers }

end RuntimeLaunchOptions

end HotCounter
