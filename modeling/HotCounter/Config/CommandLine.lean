import HotCounter.Config.Options

/-!
# Reading and writing launch options

Every launch option that arguments can produce is settled by what its fields are: they fit their
types, the endpoints are whole, no text holds a NUL, and the fields of the handoff are untouched
unless a handoff option was seen. From the other side, any options of that kind can be written as
arguments that are read back to exactly them; the fields that have a positional argument in the TCP
daemon are left to the daemons.
-/

namespace HotCounter

namespace RuntimeOption

/-- The argument that gives an option a value. -/
def argument (option : RuntimeOption) (value : List Char) : List Char :=
  option.name.toList ++ value

/-- No name is the beginning of another. -/
theorem eq_of_isPrefix_name {a b : RuntimeOption} (h : a.name.toList <+: b.name.toList) :
    a = b := by
  have hall : ∀ a ∈ all, ∀ b ∈ all, a.name.toList <+: b.name.toList → a = b := by decide +kernel
  exact hall a (mem_all a) b (mem_all b) h

theorem name_not_startPeak (option : RuntimeOption) :
    ¬ option.name.toList <+: "--start-peak".toList := by
  have hall : ∀ option ∈ all, ¬ option.name.toList <+: "--start-peak".toList := by decide +kernel
  exact hall option (mem_all option)

/-- Every name begins with two dashes. -/
theorem dashes_name (option : RuntimeOption) : "--".toList <+: option.name.toList := by
  have hall : ∀ option ∈ all, "--".toList <+: option.name.toList := by decide +kernel
  exact hall option (mem_all option)

theorem nulFree_name (option : RuntimeOption) : NulFree option.name.toList := by
  have hall : ∀ option ∈ all, NulFree option.name.toList := by decide +kernel
  exact hall option (mem_all option)

end RuntimeOption

namespace RuntimeLaunchOptions

open RuntimeOption

theorem valueAfter_subset (argument : List Char) (name : String) :
    valueAfter argument name ⊆ argument := by
  unfold valueAfter
  split
  · exact List.drop_subset _ _
  · exact List.nil_subset _

/-- What stands behind the names in an argument with a value. -/
theorem valueAfter_argument (option other : RuntimeOption) (value : List Char) :
    valueAfter (option.argument value) other.name = if other = option then value else [] := by
  by_cases heq : other = option
  · rw [if_pos heq, heq, valueAfter, RuntimeOption.argument, if_pos (List.prefix_append _ _)]
    exact List.drop_left
  · rw [if_neg heq, valueAfter, if_neg]
    intro hother
    rcases List.prefix_or_prefix_of_prefix hother (List.prefix_append option.name.toList value) with
      hle | hle
    · exact heq (eq_of_isPrefix_name hle)
    · exact heq (eq_of_isPrefix_name hle).symm

/-- **An argument with a value is stored under its name**, whichever names are tried before. -/
theorem parseRuntimeOption_argument (option : RuntimeOption) {value : List Char}
    (hvalue : value ≠ []) (options : RuntimeLaunchOptions) :
    parseRuntimeOption (option.argument value) options = options.store value option := by
  have hstart : option.argument value ≠ "--start-peak".toList := fun heq =>
    option.name_not_startPeak (heq ▸ List.prefix_append option.name.toList value)
  have hfind : RuntimeOption.all.find? (fun other =>
      valueAfter (option.argument value) other.name ≠ []) = some option := by
    have hmatch : (fun other : RuntimeOption =>
        decide (valueAfter (option.argument value) other.name ≠ [])) =
        fun other => decide (other = option) := by
      funext other
      rw [valueAfter_argument]
      by_cases heq : other = option
      · simp [heq, hvalue]
      · simp [heq]
    rw [hmatch]
    cases option <;> rfl
  rw [parseRuntimeOption, if_neg hstart, hfind]
  dsimp only
  rw [valueAfter_argument, if_pos rfl]

/-- What an accepted argument is. -/
theorem parseRuntimeOption_ok {argument : List Char} {options : RuntimeLaunchOptions}
    (h : (parseRuntimeOption argument options).2 = true) :
    parseRuntimeOption argument options = ({ options with startPeak := true }, true) ∨
      ∃ option value, value ≠ [] ∧ value ⊆ argument ∧
        parseRuntimeOption argument options = options.store value option := by
  rw [parseRuntimeOption] at h ⊢
  split at h
  · rename_i hstart
    exact .inl (if_pos hstart)
  · rename_i hstart
    rw [if_neg hstart]
    split at h
    · cases h
    · rename_i option hfind
      have hvalue := List.find?_some hfind
      exact .inr ⟨option, _, of_decide_eq_true hvalue, valueAfter_subset _ _, rfl⟩

/-! ### The options that arguments can produce -/

/-- The fields fit their types, the endpoints are whole, no text holds a NUL, and without a handoff
option the fields of the handoff are the defaults. -/
structure Settable (options : RuntimeLaunchOptions) : Prop where
  shards_lt : options.shards < 2 ^ 32
  dangerThreshold_lt : options.dangerThreshold < 2 ^ 64
  hotThresholdTps_lt : options.hotThresholdTps < 2 ^ 64
  componentId_lt : options.componentId < 2 ^ 32
  peakReservation_lt : options.peakReservation < 2 ^ 64
  clusterReservations : ∀ reservation ∈ options.clusterReservations,
    reservation.componentId < 2 ^ 32 ∧ reservation.capacity < 2 ^ 64
  replicationBindPort_lt : options.replicationBindPort < 2 ^ 16
  replicationBindHost : IsHost options.replicationBindHost
  replicationPeers : ∀ peer ∈ options.replicationPeers, IsHost peer.host ∧ IsPort peer.port
  handoffBindPort_lt : options.handoffBindPort < 2 ^ 16
  handoffBindHost : IsHost options.handoffBindHost
  handoffLeader_lt : options.handoffLeader < 2 ^ 32
  strictOwner_lt : options.strictOwner < 2 ^ 32
  handoffPeers : ∀ peer ∈ options.handoffPeers,
    peer.componentId < 2 ^ 32 ∧ IsHost peer.host ∧ IsPort peer.port
  handoffAuthKeyFile : NulFree options.handoffAuthKeyFile.toList
  handoffJournalPath : NulFree options.handoffJournalPath.toList
  unseen : options.handoffOptionSeen = false →
    options.handoffBindPort = 0 ∧ options.handoffBindHost = "0.0.0.0" ∧
      options.handoffLeader = 0 ∧ options.strictOwner = 0 ∧ options.handoffPeers = [] ∧
      options.handoffAuthKeyFile = "" ∧ options.handoffJournalPath = ""

/-- What the named arguments ask for besides. -/
structure Positive (options : RuntimeLaunchOptions) : Prop where
  limit_ne : options.limit ≠ 0
  shards_ne : options.shards ≠ 0
  hotThresholdTps_ne : options.hotThresholdTps ≠ 0

theorem Settable.default : ({} : RuntimeLaunchOptions).Settable := by
  constructor <;> decide

theorem Positive.default : ({} : RuntimeLaunchOptions).Positive := by
  constructor <;> decide

/-- **What an accepted argument produces is settable again.** -/
theorem Settable.store {options : RuntimeLaunchOptions} (h : options.Settable) {value : List Char}
    (hvalue : value ≠ []) (hnul : NulFree value) (option : RuntimeOption)
    (hok : (options.store value option).2 = true) : (options.store value option).1.Settable := by
  cases option <;> simp only [RuntimeLaunchOptions.store] at hok ⊢
  case limit => exact { h with }
  case shards => exact { h with shards_lt := parseNumber_lt h.shards_lt value }
  case dangerThreshold =>
    exact { h with dangerThreshold_lt := parseNumber_lt h.dangerThreshold_lt value }
  case hotTps => exact { h with hotThresholdTps_lt := parseNumber_lt h.hotThresholdTps_lt value }
  case componentId => exact { h with componentId_lt := parseNumber_lt h.componentId_lt value }
  case peakReservation =>
    exact { h with peakReservation_lt := parseNumber_lt h.peakReservation_lt value }
  case udpBindPort =>
    exact { h with replicationBindPort_lt := parseNumber_lt h.replicationBindPort_lt value }
  case udpBindHost => exact { h with replicationBindHost := isHost_ofList hvalue hnul }
  case handoffBindPort =>
    exact { h with
      handoffBindPort_lt := parseNumber_lt h.handoffBindPort_lt value
      unseen := by simp }
  case handoffBindHost =>
    exact { h with handoffBindHost := isHost_ofList hvalue hnul, unseen := by simp }
  case handoffLeader =>
    exact { h with handoffLeader_lt := parseNumber_lt h.handoffLeader_lt value, unseen := by simp }
  case strictOwner =>
    exact { h with strictOwner_lt := parseNumber_lt h.strictOwner_lt value, unseen := by simp }
  case handoffAuthKeyFile =>
    exact { h with handoffAuthKeyFile := by rwa [String.toList_ofList], unseen := by simp }
  case handoffJournal =>
    exact { h with handoffJournalPath := by rwa [String.toList_ofList], unseen := by simp }
  case clusterReservation =>
    split at hok
    · cases hok
    · rename_i reservation hparse
      exact { h with
        clusterReservations := fun other hother => by
          rcases List.mem_append.mp hother with hother | hother
          · exact h.clusterReservations other hother
          · rw [List.mem_singleton.mp hother]
            exact parseReservation_ok hparse }
  case udpPeer =>
    split at hok
    · cases hok
    · rename_i peer hparse
      exact { h with
        replicationPeers := fun other hother => by
          rcases List.mem_append.mp hother with hother | hother
          · exact h.replicationPeers other hother
          · rw [List.mem_singleton.mp hother]
            exact parseReplicationPeer_ok hnul hparse }
  case handoffPeer =>
    split at hok
    · cases hok
    · rename_i peer hparse
      exact { h with
        handoffPeers := fun other hother => by
          rcases List.mem_append.mp hother with hother | hother
          · exact h.handoffPeers other hother
          · rw [List.mem_singleton.mp hother]
            exact parseHandoffPeer_ok hnul hparse
        unseen := by simp }

/-- An accepted argument never sets what has to be positive to zero. -/
theorem Positive.store {options : RuntimeLaunchOptions} (h : options.Positive) (value : List Char)
    (option : RuntimeOption) (hok : (options.store value option).2 = true) :
    (options.store value option).1.Positive := by
  cases option <;> simp only [RuntimeLaunchOptions.store] at hok ⊢
  case limit => exact { h with limit_ne := (of_decide_eq_true hok).2 }
  case shards => exact { h with shards_ne := (of_decide_eq_true hok).2 }
  case hotTps => exact { h with hotThresholdTps_ne := (of_decide_eq_true hok).2 }
  case clusterReservation | udpPeer | handoffPeer => split <;> exact { h with }
  all_goals exact { h with }

theorem Settable.parse {argument : List Char} {options : RuntimeLaunchOptions}
    (h : options.Settable) (hnul : NulFree argument)
    (hok : (parseRuntimeOption argument options).2 = true) :
    (parseRuntimeOption argument options).1.Settable := by
  rcases parseRuntimeOption_ok hok with heq | ⟨option, value, hvalue, hsub, heq⟩
  · rw [heq]
    exact { h with }
  · rw [heq] at hok ⊢
    exact h.store hvalue (hnul.of_subset hsub) option hok

theorem Positive.parse {argument : List Char} {options : RuntimeLaunchOptions}
    (h : options.Positive) (hok : (parseRuntimeOption argument options).2 = true) :
    (parseRuntimeOption argument options).1.Positive := by
  rcases parseRuntimeOption_ok hok with heq | ⟨option, value, -, -, heq⟩
  · rw [heq]
    exact { h with }
  · rw [heq] at hok ⊢
    exact h.store value option hok

/-! ### Arguments that produce given options -/

/-- A list of runtime arguments leads from some options to others. -/
inductive Reads : List (List Char) → RuntimeLaunchOptions → RuntimeLaunchOptions → Prop
  | nil {s : RuntimeLaunchOptions} : Reads [] s s
  | startPeak {arguments : List (List Char)} {s t : RuntimeLaunchOptions}
      (rest : Reads arguments { s with startPeak := true } t) :
      Reads ("--start-peak".toList :: arguments) s t
  | option {arguments : List (List Char)} {s t u : RuntimeLaunchOptions} (option : RuntimeOption)
      {value : List Char} (hvalue : value ≠ []) (hnul : NulFree value)
      (hstore : s.store value option = (t, true)) (rest : Reads arguments t u) :
      Reads (option.argument value :: arguments) s u

/-- Such arguments can be given. -/
theorem Reads.nulFree {arguments : List (List Char)} {s t : RuntimeLaunchOptions}
    (h : Reads arguments s t) : ∀ argument ∈ arguments, NulFree argument := by
  induction h with
  | nil => exact fun argument hmem => absurd hmem List.not_mem_nil
  | startPeak rest ih =>
    have hstart : NulFree "--start-peak".toList := by decide +kernel
    exact List.forall_mem_cons.mpr ⟨hstart, ih⟩
  | option option hvalue hnul hstore rest ih =>
    exact List.forall_mem_cons.mpr ⟨option.nulFree_name.append hnul, ih⟩

/-- The digits of a number as an argument. -/
def numberArgument (option : RuntimeOption) (n : ℕ) : List Char :=
  option.argument (Nat.toDigits 10 n)

/-- The arguments for the fields of the handoff. -/
def handoffArguments (options : RuntimeLaunchOptions) : List (List Char) :=
  List.flatten
    [[RuntimeOption.argument .handoffBindHost options.handoffBindHost.toList],
      if options.handoffBindPort = 0 then []
      else [numberArgument .handoffBindPort options.handoffBindPort],
      [numberArgument .handoffLeader options.handoffLeader,
        numberArgument .strictOwner options.strictOwner],
      options.handoffPeers.map fun peer => RuntimeOption.argument .handoffPeer peer.text,
      if options.handoffAuthKeyFile = "" then []
      else [RuntimeOption.argument .handoffAuthKeyFile options.handoffAuthKeyFile.toList],
      if options.handoffJournalPath = "" then []
      else [RuntimeOption.argument .handoffJournal options.handoffJournalPath.toList]]

/-- The arguments for the fields that have no positional argument. -/
def namedArguments (options : RuntimeLaunchOptions) : List (List Char) :=
  List.flatten
    [if options.startPeak then ["--start-peak".toList] else [],
      [numberArgument .componentId options.componentId],
      if options.peakReservation = 0 then []
      else [numberArgument .peakReservation options.peakReservation],
      options.clusterReservations.map fun reservation =>
        RuntimeOption.argument .clusterReservation reservation.text,
      [numberArgument .udpBindPort options.replicationBindPort,
        RuntimeOption.argument .udpBindHost options.replicationBindHost.toList],
      options.replicationPeers.map fun peer => RuntimeOption.argument .udpPeer peer.text,
      if options.handoffOptionSeen then options.handoffArguments else []]

/-- Default options but for the fields that have a positional argument. -/
def positional (options : RuntimeLaunchOptions) : RuntimeLaunchOptions where
  limit := options.limit
  shards := options.shards
  dangerThreshold := options.dangerThreshold
  hotThresholdTps := options.hotThresholdTps
  limit_lt := options.limit_lt

section Reading

variable {arguments : List (List Char)} {options s t : RuntimeLaunchOptions}

theorem Reads.number (option : RuntimeOption) {n : ℕ} {u : RuntimeLaunchOptions}
    (hstore : s.store (Nat.toDigits 10 n) option = (t, true)) (rest : Reads arguments t u) :
    Reads (numberArgument option n :: arguments) s u :=
  .option option Nat.toDigits_ne_nil (nulFree_toDigits n) hstore rest

/-- An argument that is there unless the field has its default value. -/
theorem Reads.unless {p : Prop} [Decidable p] (option : RuntimeOption) {value : List Char}
    {u : RuntimeLaunchOptions} (hskip : p → s = t) (hvalue : ¬ p → value ≠ [])
    (hnul : NulFree value) (hstore : ¬ p → s.store value option = (t, true))
    (rest : Reads arguments t u) :
    Reads ((if p then [] else [option.argument value]) ++ arguments) s u := by
  by_cases hp : p
  · rw [if_pos hp, hskip hp]
    exact rest
  · rw [if_neg hp]
    exact .option option (hvalue hp) hnul (hstore hp) rest

theorem toList_ne_nil {text : String} (h : text ≠ "") : text.toList ≠ [] := fun hnil =>
  h (String.toList_eq_nil_iff.mp hnil)

theorem Reads.clusterReservations (reservations : List ComponentReservation)
    (h : ∀ reservation ∈ reservations, reservation.componentId < 2 ^ 32 ∧
      reservation.capacity < 2 ^ 64)
    (rest : Reads arguments
      { s with clusterReservations := s.clusterReservations ++ reservations } t) :
    Reads (reservations.map (fun reservation =>
      RuntimeOption.argument .clusterReservation reservation.text) ++ arguments) s t := by
  induction reservations generalizing s with
  | nil => simpa using rest
  | cons reservation reservations ih =>
    have hhead := h reservation (List.mem_cons_self ..)
    refine .option .clusterReservation
      (t := { s with clusterReservations := s.clusterReservations ++ [reservation] })
      (by simp [ComponentReservation.text])
      ((nulFree_toDigits _).separated (nulFree_toDigits _)) ?_ ?_
    · simp only [store, parseReservation_text hhead.1 hhead.2]
    · refine ih (fun other hother => h other (List.mem_cons_of_mem _ hother)) ?_
      simpa using rest

theorem Reads.replicationPeers (peers : List UdpPeer)
    (h : ∀ peer ∈ peers, IsHost peer.host ∧ IsPort peer.port)
    (rest : Reads arguments { s with replicationPeers := s.replicationPeers ++ peers } t) :
    Reads (peers.map (fun peer => RuntimeOption.argument .udpPeer peer.text) ++ arguments) s t := by
  induction peers generalizing s with
  | nil => simpa using rest
  | cons peer peers ih =>
    have hhead := h peer (List.mem_cons_self ..)
    refine .option .udpPeer (t := { s with replicationPeers := s.replicationPeers ++ [peer] })
      (by simp [UdpPeer.text]) (hhead.1.2.separated (nulFree_toDigits _)) ?_ ?_
    · simp only [store, parseReplicationPeer_text hhead.1.1 hhead.2]
    · refine ih (fun other hother => h other (List.mem_cons_of_mem _ hother)) ?_
      simpa using rest

theorem Reads.handoffPeers (peers : List DistributedPeer)
    (h : ∀ peer ∈ peers, peer.componentId < 2 ^ 32 ∧ IsHost peer.host ∧ IsPort peer.port)
    (hseen : s.handoffOptionSeen = true)
    (rest : Reads arguments { s with handoffPeers := s.handoffPeers ++ peers } t) :
    Reads (peers.map (fun peer => RuntimeOption.argument .handoffPeer peer.text) ++ arguments)
      s t := by
  induction peers generalizing s with
  | nil => simpa using rest
  | cons peer peers ih =>
    have hhead := h peer (List.mem_cons_self ..)
    refine .option .handoffPeer (t := { s with handoffPeers := s.handoffPeers ++ [peer] })
      (by simp [DistributedPeer.text])
      ((nulFree_toDigits _).separated (hhead.2.1.2.separated (nulFree_toDigits _))) ?_ ?_
    · simp only [store, parseHandoffPeer_text hhead.1 hhead.2.1.1 hhead.2.2, ← hseen]
    · refine ih (fun other hother => h other (List.mem_cons_of_mem _ hother)) hseen ?_
      simpa using rest

/-- The fields of the handoff in place of those of other options. -/
def withHandoff (s options : RuntimeLaunchOptions) : RuntimeLaunchOptions :=
  { s with
    handoffBindPort := options.handoffBindPort
    handoffBindHost := options.handoffBindHost
    handoffLeader := options.handoffLeader
    strictOwner := options.strictOwner
    handoffPeers := options.handoffPeers
    handoffAuthKeyFile := options.handoffAuthKeyFile
    handoffJournalPath := options.handoffJournalPath
    handoffOptionSeen := options.handoffOptionSeen }

/-- **The handoff arguments set the fields of the handoff.** -/
theorem Reads.handoff (h : options.Settable) (hseen : options.handoffOptionSeen = true)
    (hport : s.handoffBindPort = 0) (hpeers : s.handoffPeers = [])
    (hkey : s.handoffAuthKeyFile = "") (hjournal : s.handoffJournalPath = "") :
    Reads options.handoffArguments s (s.withHandoff options) := by
  rw [withHandoff, hseen]
  simp only [handoffArguments, List.flatten_cons, List.flatten_nil, List.cons_append,
    List.nil_append]
  refine .option .handoffBindHost (toList_ne_nil h.handoffBindHost.1) h.handoffBindHost.2
    (t := { s with handoffOptionSeen := true, handoffBindHost := options.handoffBindHost })
    (by rw [store, String.ofList_toList]) ?_
  refine .unless .handoffBindPort
    (t := { s with
      handoffOptionSeen := true
      handoffBindHost := options.handoffBindHost
      handoffBindPort := options.handoffBindPort })
    (fun hzero => by rw [hzero, ← hport]) (fun _ => Nat.toDigits_ne_nil) (nulFree_toDigits _)
    (fun hne => by
      simp only [store, parseNumber_toDigits h.handoffBindPort_lt, ne_eq, hne, not_false_eq_true,
        and_self, decide_true]) ?_
  refine .number .handoffLeader
    (t := { s with
      handoffOptionSeen := true
      handoffBindHost := options.handoffBindHost
      handoffBindPort := options.handoffBindPort
      handoffLeader := options.handoffLeader })
    (by simp only [store, parseNumber_toDigits h.handoffLeader_lt]) ?_
  refine .number .strictOwner
    (t := { s with
      handoffOptionSeen := true
      handoffBindHost := options.handoffBindHost
      handoffBindPort := options.handoffBindPort
      handoffLeader := options.handoffLeader
      strictOwner := options.strictOwner })
    (by simp only [store, parseNumber_toDigits h.strictOwner_lt]) ?_
  refine .handoffPeers options.handoffPeers h.handoffPeers rfl ?_
  simp only [hpeers, List.nil_append]
  refine .unless .handoffAuthKeyFile
    (t := { s with
      handoffOptionSeen := true
      handoffBindHost := options.handoffBindHost
      handoffBindPort := options.handoffBindPort
      handoffLeader := options.handoffLeader
      strictOwner := options.strictOwner
      handoffPeers := options.handoffPeers
      handoffAuthKeyFile := options.handoffAuthKeyFile })
    (fun hempty => by rw [hempty, ← hkey]) toList_ne_nil h.handoffAuthKeyFile
    (fun _ => by rw [store, String.ofList_toList]) ?_
  exact .unless .handoffJournal (fun hempty => by rw [hempty, ← hjournal]) toList_ne_nil
    h.handoffJournalPath (fun _ => by rw [store, String.ofList_toList]) .nil

/-- **The named arguments set all fields** that have no positional argument. -/
theorem Reads.named (h : options.Settable) :
    Reads options.namedArguments options.positional options := by
  simp only [namedArguments, List.flatten_cons, List.flatten_nil, List.cons_append,
    List.nil_append, List.append_nil]
  -- the fields of the handoff come last, and stay as they are without a handoff option
  have hhandoff : ∀ s : RuntimeLaunchOptions, s.withHandoff options = options →
      s.withHandoff ({} : RuntimeLaunchOptions) = s →
      Reads (if options.handoffOptionSeen then options.handoffArguments else []) s options := by
    intro s hall hdefault
    by_cases hseen : options.handoffOptionSeen = true
    · rw [if_pos hseen]
      have hreads := Reads.handoff (s := s) h hseen (by rw [← hdefault]; rfl)
        (by rw [← hdefault]; rfl) (by rw [← hdefault]; rfl) (by rw [← hdefault]; rfl)
      rwa [hall] at hreads
    · rw [if_neg hseen]
      obtain ⟨hport, hhost, hleader, howner, hpeers, hkey, hjournal⟩ :=
        h.unseen (Bool.eq_false_of_not_eq_true hseen)
      have hsame : s = options := by
        rw [← hall, ← hdefault, withHandoff, withHandoff, hport, hhost, hleader, howner, hpeers,
          hkey, hjournal, Bool.eq_false_of_not_eq_true hseen]
      rw [hsame]
      exact .nil
  have hstart : ∀ rest : List (List Char),
      Reads rest { options.positional with startPeak := options.startPeak } options →
      Reads ((if options.startPeak then ["--start-peak".toList] else []) ++ rest)
        options.positional options := by
    intro rest hrest
    by_cases hpeak : options.startPeak = true
    · rw [if_pos hpeak]
      rw [hpeak] at hrest
      exact .startPeak hrest
    · rw [if_neg hpeak]
      rw [Bool.eq_false_of_not_eq_true hpeak] at hrest
      exact hrest
  refine hstart _ ?_
  refine .number .componentId
    (t := { options.positional with
      startPeak := options.startPeak
      componentId := options.componentId })
    (by simp only [store, parseNumber_toDigits h.componentId_lt]) ?_
  refine .unless .peakReservation
    (t := { options.positional with
      startPeak := options.startPeak
      componentId := options.componentId
      peakReservation := options.peakReservation })
    (fun hzero => by rw [hzero]; rfl) (fun _ => Nat.toDigits_ne_nil) (nulFree_toDigits _)
    (fun hne => by
      simp only [store, parseNumber_toDigits h.peakReservation_lt, ne_eq, hne, not_false_eq_true,
        and_self, decide_true]) ?_
  refine .clusterReservations options.clusterReservations h.clusterReservations ?_
  refine .number .udpBindPort
    (t := { options.positional with
      startPeak := options.startPeak
      componentId := options.componentId
      peakReservation := options.peakReservation
      clusterReservations := options.clusterReservations
      replicationBindPort := options.replicationBindPort })
    (by simp only [store, parseNumber_toDigits h.replicationBindPort_lt]; rfl) ?_
  refine .option .udpBindHost (toList_ne_nil h.replicationBindHost.1) h.replicationBindHost.2
    (t := { options.positional with
      startPeak := options.startPeak
      componentId := options.componentId
      peakReservation := options.peakReservation
      clusterReservations := options.clusterReservations
      replicationBindPort := options.replicationBindPort
      replicationBindHost := options.replicationBindHost })
    (by rw [store, String.ofList_toList]) ?_
  exact .replicationPeers options.replicationPeers h.replicationPeers (hhandoff _ rfl rfl)

end Reading

end RuntimeLaunchOptions

end HotCounter
