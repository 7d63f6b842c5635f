import HotCounter.Config.CommandLine

/-!
# The command lines of the two daemons

The TCP daemon and the DPDK daemon read their own arguments and hand every other one to
`parse_runtime_option`. An argument is an entry of `argv`, which ends at its first NUL. The options
a command line can produce are determined exactly. The TCP daemon's positional arguments can set a
limit, a number of shards and a hot rate of zero, which the named arguments refuse and the DPDK
daemon can therefore never have.

A daemon that refuses an argument prints its usage and does nothing with the options, so the
result of reading is the options or nothing.
-/

namespace HotCounter

open RuntimeLaunchOptions

/-- An entry of `argv`. -/
structure Argument where
  text : List Char
  nulFree : NulFree text

/-- The options of the TCP daemon. -/
structure ServerOptions where
  port : ℕ := 9090
  runtime : RuntimeLaunchOptions := {}
  strictOwnerEndpoint : String := ""

/-- The options of the DPDK daemon. -/
structure DpdkOptions where
  dpdkPort : ℕ := 0
  udpPort : ℕ := 9091
  queues : ℕ := 1
  runtime : RuntimeLaunchOptions := {}
  strictOwnerEndpoint : String := ""

/-- The name of the argument that both daemons read themselves. -/
def endpointName : String := "--strict-owner-endpoint="

/-- The options after an argument that was accepted. -/
def accepted {α : Type*} (result : α × Bool) : Option α :=
  if result.2 then some result.1 else none

namespace ServerOptions

/-- A positional argument of the TCP daemon. -/
def readPositional (options : ServerOptions) (argument : List Char) : ℕ → Option ServerOptions
  | 0 =>
    let number := parseNumber (2 ^ 16) argument options.port
    accepted ({ options with port := number.1 }, number.2)
  | 1 =>
    let number := parseNumber (2 ^ 64) argument options.runtime.limit
    accepted ({ options with
      runtime := { options.runtime with
        limit := number.1
        limit_lt := parseNumber_lt options.runtime.limit_lt argument } }, number.2)
  | 2 =>
    let number := parseNumber (2 ^ 32) argument options.runtime.shards
    accepted ({ options with runtime := { options.runtime with shards := number.1 } }, number.2)
  | 3 =>
    let number := parseNumber (2 ^ 64) argument options.runtime.dangerThreshold
    accepted
      ({ options with runtime := { options.runtime with dangerThreshold := number.1 } }, number.2)
  | 4 =>
    let number := parseNumber (2 ^ 64) argument options.runtime.hotThresholdTps
    accepted
      ({ options with runtime := { options.runtime with hotThresholdTps := number.1 } }, number.2)
  | _ => none

/-- One turn of the loop of the TCP daemon's `parse_options`, with the number of positional
arguments before it. -/
def readArgument (state : ServerOptions × ℕ) (argument : List Char) : Option (ServerOptions × ℕ) :=
  let options := state.1
  if argument = "peak".toList then
    some ({ options with runtime := { options.runtime with startPeak := true } }, state.2)
  else if endpointName.toList <+: argument then
    let endpoint := argument.drop endpointName.toList.length
    if endpoint = [] then none
    else some ({ options with strictOwnerEndpoint := String.ofList endpoint }, state.2)
  else if "--".toList <+: argument then
    (accepted (parseRuntimeOption argument options.runtime)).map fun runtime =>
      ({ options with runtime := runtime }, state.2)
  else (options.readPositional argument state.2).map fun options => (options, state.2 + 1)

/-- The TCP daemon's `parse_options`. -/
def parse (arguments : List Argument) : Option ServerOptions :=
  match (arguments.map Argument.text).foldlM readArgument ({}, 0) with
  | none => none
  | some (options, _) => if options.port ≠ 0 then some options else none

end ServerOptions

namespace DpdkOptions

/-- One turn of the loop of the DPDK daemon's `parse_options`. -/
def readArgument (options : DpdkOptions) (argument : List Char) : Option DpdkOptions :=
  if valueAfter argument "--dpdk-port=" ≠ [] then
    let number := parseNumber (2 ^ 16) (valueAfter argument "--dpdk-port=") options.dpdkPort
    accepted ({ options with dpdkPort := number.1 }, number.2)
  else if valueAfter argument "--udp-port=" ≠ [] then
    let number := parseNumber (2 ^ 16) (valueAfter argument "--udp-port=") options.udpPort
    accepted ({ options with udpPort := number.1 }, number.2 ∧ number.1 ≠ 0)
  else if valueAfter argument "--queues=" ≠ [] then
    let number := parseNumber (2 ^ 16) (valueAfter argument "--queues=") options.queues
    accepted ({ options with queues := number.1 }, number.2 ∧ number.1 ≠ 0)
  else if valueAfter argument endpointName ≠ [] then
    some { options with strictOwnerEndpoint := String.ofList (valueAfter argument endpointName) }
  else
    (accepted (parseRuntimeOption argument options.runtime)).map fun runtime =>
      { options with runtime := runtime }

/-- The DPDK daemon's `parse_options`. -/
def parse (arguments : List Argument) : Option DpdkOptions :=
  (arguments.map Argument.text).foldlM readArgument {}

end DpdkOptions

theorem eq_of_accepted {α : Type*} {result : α × Bool} {a : α} (h : accepted result = some a) :
    result = (a, true) := by
  rw [accepted] at h
  split at h
  · rename_i hok
    exact Prod.ext (Option.some.inj h) hok
  · cases h

/-- What every accepted argument keeps holds of what a command line produces. -/
theorem foldlM_invariant {σ : Type*} {f : σ → List Char → Option σ} {P : σ → Prop}
    (hstep : ∀ s text t, NulFree text → P s → f s text = some t → P t) :
    ∀ {arguments : List Argument} {s t : σ}, P s →
      (arguments.map Argument.text).foldlM f s = some t → P t
  | [], s, t, hs, h => by
    obtain rfl : s = t := Option.some.inj h
    exact hs
  | a :: arguments, s, t, hs, h => by
    rw [List.map_cons, List.foldlM_cons, Option.bind_eq_bind, Option.bind_eq_some_iff] at h
    obtain ⟨u, hu, h⟩ := h
    exact foldlM_invariant hstep (hstep s a.text u a.nulFree hs hu) h

/-- Texts that can be given as arguments. -/
theorem exists_arguments {texts : List (List Char)} (h : ∀ text ∈ texts, NulFree text) :
    ∃ arguments : List Argument, arguments.map Argument.text = texts :=
  ⟨texts.attach.map fun text => ⟨text.val, h text.val text.property⟩, by
    rw [List.map_map]
    exact List.attach_map_subtype_val texts⟩

theorem foldlM_cons_of_eq {σ α : Type*} {f : σ → α → Option σ} {a : α} {arguments : List α}
    {s t : σ} (h : f s a = some t) : (a :: arguments).foldlM f s = arguments.foldlM f t := by
  rw [List.foldlM_cons, h]
  rfl

/-- Digits begin with no other character. -/
theorem not_isPrefix_toDigits (name : String) {c : Char} (hhead : name.toList.head? = some c)
    (hc : c.isDigit = false) (n : ℕ) : ¬ name.toList <+: Nat.toDigits 10 n := by
  intro hle
  have hmem : c ∈ Nat.toDigits 10 n := hle.subset (List.mem_of_head? hhead)
  rw [Nat.isDigit_of_mem_toDigits (by decide) le_rfl hmem] at hc
  cases hc

theorem valueAfter_of_not {argument : List Char} {name : String}
    (h : ¬ name.toList <+: argument) : valueAfter argument name = [] :=
  if_neg h

theorem valueAfter_append (name : String) (value : List Char) :
    valueAfter (name.toList ++ value) name = value := by
  rw [valueAfter, if_pos (List.prefix_append _ _)]
  exact List.drop_left

/-- Of two names that are no beginnings of each other at most one begins an argument. -/
theorem not_isPrefix_append {name other : String} (hname : ¬ name.toList <+: other.toList)
    (hother : ¬ other.toList <+: name.toList) (value : List Char) :
    ¬ name.toList <+: other.toList ++ value := by
  intro hle
  rcases List.prefix_or_prefix_of_prefix hle (List.prefix_append other.toList value) with hle | hle
  · exact hname hle
  · exact hother hle

/-- The names that the daemons read themselves. -/
def daemonNames : List String := ["--dpdk-port=", "--udp-port=", "--queues=", endpointName]

/-- No runtime argument begins with one of the daemons' own names. -/
theorem not_isPrefix_argument {name : String} (hname : name ∈ daemonNames) (option : RuntimeOption)
    (value : List Char) : ¬ name.toList <+: option.argument value := by
  have hall : ∀ name ∈ daemonNames, ∀ option ∈ RuntimeOption.all,
      ¬ name.toList <+: option.name.toList ∧ ¬ option.name.toList <+: name.toList := by
    decide +kernel
  obtain ⟨hle, hge⟩ := hall name hname option (RuntimeOption.mem_all option)
  exact not_isPrefix_append hle hge value

theorem not_isPrefix_startPeak {name : String} (hname : name ∈ daemonNames) :
    ¬ name.toList <+: "--start-peak".toList := by
  have hall : ∀ name ∈ daemonNames, ¬ name.toList <+: "--start-peak".toList := by decide +kernel
  exact hall name hname

/-- The daemons' own names are no beginnings of each other. -/
theorem not_isPrefix_own {name other : String} (hname : name ∈ daemonNames)
    (hother : other ∈ daemonNames) (hne : name ≠ other) (value : List Char) :
    ¬ name.toList <+: other.toList ++ value := by
  have hall : ∀ name ∈ daemonNames, ∀ other ∈ daemonNames, name ≠ other →
      ¬ name.toList <+: other.toList := by
    decide +kernel
  exact not_isPrefix_append (hall name hname other hother hne)
    (hall other hother name hname hne.symm)
    value

theorem parseRuntimeOption_startPeak (options : RuntimeLaunchOptions) :
    parseRuntimeOption "--start-peak".toList options = ({ options with startPeak := true }, true) :=
  if_pos rfl

/-! ### What a command line can produce -/

namespace ServerOptions

/-- What the loop keeps. -/
structure Ok (options : ServerOptions) : Prop where
  port_lt : options.port < 2 ^ 16
  runtime : options.runtime.Settable
  strictOwnerEndpoint : NulFree options.strictOwnerEndpoint.toList

theorem Ok.default : ({} : ServerOptions).Ok :=
  ⟨by decide, Settable.default, by decide⟩

theorem Ok.readPositional {options options' : ServerOptions} (h : options.Ok)
    {argument : List Char} {n : ℕ} (hread : options.readPositional argument n = some options') :
    options'.Ok := by
  match n, hread with
  | 0, hread =>
    obtain ⟨rfl, -⟩ := Prod.mk.inj (eq_of_accepted hread)
    exact { h with port_lt := parseNumber_lt h.port_lt argument }
  | 1, hread =>
    obtain ⟨rfl, -⟩ := Prod.mk.inj (eq_of_accepted hread)
    exact { h with runtime := { h.runtime with } }
  | 2, hread =>
    obtain ⟨rfl, -⟩ := Prod.mk.inj (eq_of_accepted hread)
    exact { h with
      runtime := { h.runtime with shards_lt := parseNumber_lt h.runtime.shards_lt argument } }
  | 3, hread =>
    obtain ⟨rfl, -⟩ := Prod.mk.inj (eq_of_accepted hread)
    exact { h with
      runtime := { h.runtime with
        dangerThreshold_lt := parseNumber_lt h.runtime.dangerThreshold_lt argument } }
  | 4, hread =>
    obtain ⟨rfl, -⟩ := Prod.mk.inj (eq_of_accepted hread)
    exact { h with
      runtime := { h.runtime with
        hotThresholdTps_lt := parseNumber_lt h.runtime.hotThresholdTps_lt argument } }

theorem Ok.readArgument {state state' : ServerOptions × ℕ} (h : state.1.Ok) {argument : List Char}
    (hnul : NulFree argument) (hread : ServerOptions.readArgument state argument = some state') :
    state'.1.Ok := by
  simp only [ServerOptions.readArgument] at hread
  split at hread
  · obtain rfl := Option.some.inj hread
    exact { h with runtime := { h.runtime with } }
  split at hread
  · split at hread
    · cases hread
    · obtain rfl := Option.some.inj hread
      refine { h with strictOwnerEndpoint := ?_ }
      rw [String.toList_ofList]
      exact hnul.of_subset (List.drop_subset _ _)
  split at hread
  · obtain ⟨runtime, hruntime, rfl⟩ := Option.map_eq_some_iff.mp hread
    have hok := eq_of_accepted hruntime
    have hsettable := h.runtime.parse hnul (congrArg Prod.snd hok)
    rw [congrArg Prod.fst hok] at hsettable
    exact { h with runtime := hsettable }
  · obtain ⟨options, hoptions, rfl⟩ := Option.map_eq_some_iff.mp hread
    exact h.readPositional hoptions

/-- An argument that the TCP daemon hands over. -/
theorem readArgument_runtime (options : ServerOptions) (n : ℕ) {argument : List Char}
    (hdashes : "--".toList <+: argument) (hendpoint : ¬ endpointName.toList <+: argument) :
    readArgument (options, n) argument =
      (accepted (parseRuntimeOption argument options.runtime)).map fun runtime =>
        ({ options with runtime := runtime }, n) := by
  have hpeak : argument ≠ "peak".toList := by
    rintro rfl
    exact absurd hdashes (by decide +kernel)
  simp only [readArgument]
  rw [if_neg hpeak, if_neg hendpoint, if_pos hdashes]

/-- **The TCP daemon reads runtime arguments into its runtime options.** -/
theorem foldlM_of_reads {arguments : List (List Char)} {s t : RuntimeLaunchOptions}
    (h : Reads arguments s t) : ∀ {options : ServerOptions} {n : ℕ}, options.runtime = s →
      arguments.foldlM readArgument (options, n) = some ({ options with runtime := t }, n) := by
  induction h with
  | nil =>
    rintro options n rfl
    rfl
  | startPeak rest ih =>
    rintro options n rfl
    have hdashes : "--".toList <+: "--start-peak".toList := by decide +kernel
    have hread := readArgument_runtime options n hdashes
      (not_isPrefix_startPeak (by simp [daemonNames]))
    rw [parseRuntimeOption_startPeak] at hread
    rw [foldlM_cons_of_eq hread, ih rfl]
  | option option hvalue hnul hstore rest ih =>
    rintro options n rfl
    rename_i value
    have hdashes : "--".toList <+: option.argument value :=
      option.dashes_name.trans (List.prefix_append _ _)
    have hread := readArgument_runtime options n hdashes
      (not_isPrefix_argument (by simp [daemonNames]) option value)
    rw [parseRuntimeOption_argument option hvalue, hstore] at hread
    rw [foldlM_cons_of_eq hread, ih rfl]

/-- An argument that the TCP daemon reads by its position. -/
theorem readArgument_toDigits (options : ServerOptions) (n k : ℕ) :
    readArgument (options, n) (Nat.toDigits 10 k) =
      (options.readPositional (Nat.toDigits 10 k) n).map fun options => (options, n + 1) := by
  have hp : "peak".toList.head? = some 'p' := by decide +kernel
  have hendpoint : endpointName.toList.head? = some '-' := by decide +kernel
  have hdashes : "--".toList.head? = some '-' := by decide +kernel
  have hpeak : Nat.toDigits 10 k ≠ "peak".toList := fun heq =>
    not_isPrefix_toDigits "peak" hp (by decide) k (heq ▸ List.prefix_rfl)
  simp only [readArgument]
  rw [if_neg hpeak, if_neg (not_isPrefix_toDigits _ hendpoint (by decide) k),
    if_neg (not_isPrefix_toDigits _ hdashes (by decide) k)]

/-- The texts of the arguments that give the TCP daemon its options. -/
def texts (options : ServerOptions) : List (List Char) :=
  List.flatten
    [[Nat.toDigits 10 options.port, Nat.toDigits 10 options.runtime.limit,
        Nat.toDigits 10 options.runtime.shards, Nat.toDigits 10 options.runtime.dangerThreshold,
        Nat.toDigits 10 options.runtime.hotThresholdTps],
      if options.strictOwnerEndpoint = "" then []
      else [endpointName.toList ++ options.strictOwnerEndpoint.toList],
      options.runtime.namedArguments]

/-- A number of a runtime field at its position. -/
theorem readArgument_number {options options' : ServerOptions} {n k : ℕ}
    (h : options.readPositional (Nat.toDigits 10 k) n = some options') :
    readArgument (options, n) (Nat.toDigits 10 k) = some (options', n + 1) := by
  rw [readArgument_toDigits, h]
  rfl

theorem readArgument_endpoint (options : ServerOptions) (n : ℕ) {endpoint : String}
    (hne : endpoint ≠ "") :
    readArgument (options, n) (endpointName.toList ++ endpoint.toList) =
      some ({ options with strictOwnerEndpoint := endpoint }, n) := by
  have hpeak : endpointName.toList ++ endpoint.toList ≠ "peak".toList := fun heq => by
    have hle : endpointName.toList <+: "peak".toList := heq ▸ List.prefix_append _ _
    exact absurd hle (by decide +kernel)
  simp only [readArgument]
  rw [if_neg hpeak, if_pos (List.prefix_append _ _), List.drop_left, if_neg (toList_ne_nil hne),
    String.ofList_toList]

/-- The texts can be given as arguments. -/
theorem nulFree_texts {options : ServerOptions} (hruntime : options.runtime.Settable)
    (hendpoint : NulFree options.strictOwnerEndpoint.toList) :
    ∀ text ∈ options.texts, NulFree text := by
  have hname : NulFree endpointName.toList := by decide +kernel
  intro text htext
  simp only [texts, List.flatten_cons, List.flatten_nil, List.append_nil, List.mem_append,
    List.mem_cons, List.not_mem_nil, or_false] at htext
  rcases htext with (rfl | rfl | rfl | rfl | rfl) | htext | htext
  all_goals try exact nulFree_toDigits _
  · split at htext
    · exact absurd htext List.not_mem_nil
    · rw [List.mem_singleton.mp htext]
      exact hname.append hendpoint
  · exact (Reads.named hruntime).nulFree text htext

/-- **The TCP daemon reads its options back.** -/
theorem foldlM_texts {options : ServerOptions} (hport : IsPort options.port)
    (hruntime : options.runtime.Settable) :
    options.texts.foldlM readArgument ({}, 0) = some (options, 5) := by
  -- the numbers, one position after the other
  have hfirst : readArgument (({} : ServerOptions), 0) (Nat.toDigits 10 options.port) =
      some ({ port := options.port }, 1) :=
    readArgument_number (by simp only [readPositional, parseNumber_toDigits hport.2]; rfl)
  have hlimit : readArgument (({ port := options.port } : ServerOptions), 1)
      (Nat.toDigits 10 options.runtime.limit) =
      some ({ port := options.port,
              runtime :=
                { limit := options.runtime.limit, limit_lt := options.runtime.limit_lt } }, 2) :=
    readArgument_number (by
      simp only [readPositional, parseNumber_toDigits options.runtime.limit_lt]
      rfl)
  simp only [texts, List.flatten_cons, List.flatten_nil, List.append_nil, List.cons_append,
    List.nil_append]
  rw [foldlM_cons_of_eq hfirst, foldlM_cons_of_eq hlimit]
  rw [foldlM_cons_of_eq (readArgument_number (by
    simp only [readPositional, parseNumber_toDigits hruntime.shards_lt]; rfl))]
  rw [foldlM_cons_of_eq (readArgument_number (by
    simp only [readPositional, parseNumber_toDigits hruntime.dangerThreshold_lt]; rfl))]
  rw [foldlM_cons_of_eq (readArgument_number (by
    simp only [readPositional, parseNumber_toDigits hruntime.hotThresholdTps_lt]; rfl))]
  have hnamed : ∀ endpoint : String, options.runtime.namedArguments.foldlM readArgument
      ({ port := options.port, runtime := options.runtime.positional,
         strictOwnerEndpoint := endpoint }, 5) =
      some ({ options with strictOwnerEndpoint := endpoint }, 5) := fun endpoint =>
    foldlM_of_reads (Reads.named hruntime) rfl
  by_cases hempty : options.strictOwnerEndpoint = ""
  · rw [if_pos hempty, List.nil_append]
    exact (hnamed "").trans (by rw [← hempty])
  · rw [if_neg hempty, List.singleton_append,
      foldlM_cons_of_eq (readArgument_endpoint _ _ hempty)]
    exact hnamed options.strictOwnerEndpoint

/-- **The options of the TCP daemon.** A command line can produce options exactly if the port is
one, the launch options are settable, and the endpoint of the strict owner holds no NUL. -/
theorem exists_parse_iff (options : ServerOptions) :
    (∃ arguments, parse arguments = some options) ↔
      IsPort options.port ∧ options.runtime.Settable ∧
        NulFree options.strictOwnerEndpoint.toList := by
  constructor
  · rintro ⟨arguments, h⟩
    rw [parse] at h
    split at h
    · cases h
    · rename_i result n hread
      split at h
      · rename_i hport
        obtain rfl := Option.some.inj h
        have hok : (result, n).1.Ok := foldlM_invariant (P := fun state => state.1.Ok)
          (fun state argument state' hnul hstate => hstate.readArgument hnul) Ok.default hread
        exact ⟨⟨hport, hok.port_lt⟩, hok.runtime, hok.strictOwnerEndpoint⟩
      · cases h
  · rintro ⟨hport, hruntime, hendpoint⟩
    obtain ⟨arguments, htexts⟩ := exists_arguments (nulFree_texts hruntime hendpoint)
    refine ⟨arguments, ?_⟩
    rw [parse, htexts, foldlM_texts hport hruntime]
    exact if_pos hport.1

end ServerOptions

namespace DpdkOptions

/-- What the loop keeps. -/
structure Ok (options : DpdkOptions) : Prop where
  dpdkPort_lt : options.dpdkPort < 2 ^ 16
  udpPort : IsPort options.udpPort
  queues : IsPort options.queues
  settable : options.runtime.Settable
  positive : options.runtime.Positive
  strictOwnerEndpoint : NulFree options.strictOwnerEndpoint.toList

theorem Ok.default : ({} : DpdkOptions).Ok :=
  ⟨by decide, by decide, by decide, Settable.default, Positive.default, by decide⟩

theorem Ok.readArgument {options options' : DpdkOptions} (h : options.Ok) {argument : List Char}
    (hnul : NulFree argument) (hread : options.readArgument argument = some options') :
    options'.Ok := by
  simp only [DpdkOptions.readArgument] at hread
  split at hread
  · obtain ⟨rfl, -⟩ := Prod.mk.inj (eq_of_accepted hread)
    exact { h with dpdkPort_lt := parseNumber_lt h.dpdkPort_lt _ }
  split at hread
  · obtain ⟨rfl, hok⟩ := Prod.mk.inj (eq_of_accepted hread)
    exact { h with udpPort := ⟨(of_decide_eq_true hok).2, parseNumber_lt h.udpPort.2 _⟩ }
  split at hread
  · obtain ⟨rfl, hok⟩ := Prod.mk.inj (eq_of_accepted hread)
    exact { h with queues := ⟨(of_decide_eq_true hok).2, parseNumber_lt h.queues.2 _⟩ }
  split at hread
  · obtain rfl := Option.some.inj hread
    refine { h with strictOwnerEndpoint := ?_ }
    rw [String.toList_ofList]
    exact hnul.of_subset (valueAfter_subset _ _)
  · obtain ⟨runtime, hruntime, rfl⟩ := Option.map_eq_some_iff.mp hread
    have hok := eq_of_accepted hruntime
    have hsettable := h.settable.parse hnul (congrArg Prod.snd hok)
    have hpositive := h.positive.parse (congrArg Prod.snd hok)
    rw [congrArg Prod.fst hok] at hsettable hpositive
    exact { h with settable := hsettable, positive := hpositive }

/-- An argument that the DPDK daemon hands over. -/
theorem readArgument_runtime (options : DpdkOptions) {argument : List Char}
    (hown : ∀ name ∈ daemonNames, ¬ name.toList <+: argument) :
    options.readArgument argument =
      (accepted (parseRuntimeOption argument options.runtime)).map fun runtime =>
        { options with runtime := runtime } := by
  have hnone : ∀ name ∈ daemonNames, ¬ valueAfter argument name ≠ [] := fun name hname =>
    not_not.mpr (valueAfter_of_not (hown name hname))
  simp only [DpdkOptions.readArgument]
  rw [if_neg (hnone _ (by simp [daemonNames])), if_neg (hnone _ (by simp [daemonNames])),
    if_neg (hnone _ (by simp [daemonNames])), if_neg (hnone _ (by simp [daemonNames]))]

/-- **The DPDK daemon reads runtime arguments into its runtime options.** -/
theorem foldlM_of_reads {arguments : List (List Char)} {s t : RuntimeLaunchOptions}
    (h : Reads arguments s t) : ∀ {options : DpdkOptions}, options.runtime = s →
      arguments.foldlM DpdkOptions.readArgument options =
        some { options with runtime := t } := by
  induction h with
  | nil =>
    rintro options rfl
    rfl
  | startPeak rest ih =>
    rintro options rfl
    have hread := readArgument_runtime options fun name hname => not_isPrefix_startPeak hname
    rw [parseRuntimeOption_startPeak] at hread
    rw [foldlM_cons_of_eq hread, ih rfl]
  | option option hvalue hnul hstore rest ih =>
    rintro options rfl
    rename_i value
    have hread := readArgument_runtime options fun name hname =>
      not_isPrefix_argument hname option value
    rw [parseRuntimeOption_argument option hvalue, hstore] at hread
    rw [foldlM_cons_of_eq hread, ih rfl]

/-- The texts of the arguments that give the DPDK daemon its options. -/
def texts (options : DpdkOptions) : List (List Char) :=
  List.flatten
    [["--dpdk-port=".toList ++ Nat.toDigits 10 options.dpdkPort,
        "--udp-port=".toList ++ Nat.toDigits 10 options.udpPort,
        "--queues=".toList ++ Nat.toDigits 10 options.queues],
      if options.strictOwnerEndpoint = "" then []
      else [endpointName.toList ++ options.strictOwnerEndpoint.toList],
      [numberArgument .limit options.runtime.limit, numberArgument .shards options.runtime.shards,
        numberArgument .dangerThreshold options.runtime.dangerThreshold,
        numberArgument .hotTps options.runtime.hotThresholdTps],
      options.runtime.namedArguments]

theorem readArgument_endpoint (options : DpdkOptions) {endpoint : String} (hne : endpoint ≠ "") :
    options.readArgument (endpointName.toList ++ endpoint.toList) =
      some { options with strictOwnerEndpoint := endpoint } := by
  have hother : ∀ name ∈ daemonNames, name ≠ endpointName →
      ¬ valueAfter (endpointName.toList ++ endpoint.toList) name ≠ [] := fun name hname hne =>
    not_not.mpr (valueAfter_of_not (not_isPrefix_own hname (by simp [daemonNames]) hne _))
  have hvalue := valueAfter_append endpointName endpoint.toList
  simp only [DpdkOptions.readArgument]
  rw [if_neg (hother _ (by simp [daemonNames]) (by decide +kernel)),
    if_neg (hother _ (by simp [daemonNames]) (by decide +kernel)),
    if_neg (hother _ (by simp [daemonNames]) (by decide +kernel)), hvalue,
    if_pos (toList_ne_nil hne), String.ofList_toList]

/-- The DPDK daemon's own numbers. -/
theorem foldlM_own {options : DpdkOptions} (hdpdk : options.dpdkPort < 2 ^ 16)
    (hudp : IsPort options.udpPort) (hqueues : IsPort options.queues) (rest : List (List Char)) :
    (("--dpdk-port=".toList ++ Nat.toDigits 10 options.dpdkPort) ::
        ("--udp-port=".toList ++ Nat.toDigits 10 options.udpPort) ::
        ("--queues=".toList ++ Nat.toDigits 10 options.queues) :: rest).foldlM
        DpdkOptions.readArgument {} =
      rest.foldlM DpdkOptions.readArgument
        { dpdkPort := options.dpdkPort, udpPort := options.udpPort, queues := options.queues } := by
  have hother : ∀ name ∈ daemonNames, ∀ other ∈ daemonNames, name ≠ other → ∀ value,
      ¬ valueAfter (other.toList ++ value) name ≠ [] := fun name hname other hother hne value =>
    not_not.mpr (valueAfter_of_not (not_isPrefix_own hname hother hne value))
  have hfirst : DpdkOptions.readArgument {}
      ("--dpdk-port=".toList ++ Nat.toDigits 10 options.dpdkPort) =
      some { dpdkPort := options.dpdkPort } := by
    simp only [DpdkOptions.readArgument]
    rw [valueAfter_append, if_pos Nat.toDigits_ne_nil, parseNumber_toDigits hdpdk]
    rfl
  have hsecond : DpdkOptions.readArgument { dpdkPort := options.dpdkPort }
      ("--udp-port=".toList ++ Nat.toDigits 10 options.udpPort) =
      some { dpdkPort := options.dpdkPort, udpPort := options.udpPort } := by
    simp only [DpdkOptions.readArgument]
    rw [if_neg (hother _ (by simp [daemonNames]) _ (by simp [daemonNames]) (by decide +kernel) _),
      valueAfter_append, if_pos Nat.toDigits_ne_nil, parseNumber_toDigits hudp.2]
    exact if_pos (decide_eq_true ⟨rfl, hudp.1⟩)
  have hthird : DpdkOptions.readArgument
      { dpdkPort := options.dpdkPort, udpPort := options.udpPort }
      ("--queues=".toList ++ Nat.toDigits 10 options.queues) =
      some
        { dpdkPort := options.dpdkPort, udpPort := options.udpPort, queues := options.queues } := by
    simp only [DpdkOptions.readArgument]
    rw [if_neg (hother _ (by simp [daemonNames]) _ (by simp [daemonNames]) (by decide +kernel) _),
      if_neg (hother _ (by simp [daemonNames]) _ (by simp [daemonNames]) (by decide +kernel) _),
      valueAfter_append, if_pos Nat.toDigits_ne_nil, parseNumber_toDigits hqueues.2]
    exact if_pos (decide_eq_true ⟨rfl, hqueues.1⟩)
  rw [foldlM_cons_of_eq hfirst, foldlM_cons_of_eq hsecond, foldlM_cons_of_eq hthird]

/-- The runtime arguments of the DPDK daemon set its launch options. -/
theorem reads_runtime {runtime : RuntimeLaunchOptions} (hsettable : runtime.Settable)
    (hpositive : runtime.Positive) :
    Reads (numberArgument .limit runtime.limit :: numberArgument .shards runtime.shards ::
      numberArgument .dangerThreshold runtime.dangerThreshold ::
      numberArgument .hotTps runtime.hotThresholdTps :: runtime.namedArguments)
      ({} : RuntimeLaunchOptions) runtime := by
  refine .number .limit (t := { limit := runtime.limit, limit_lt := runtime.limit_lt }) ?_ ?_
  · simp only [store, parseNumber_toDigits runtime.limit_lt, ne_eq, hpositive.limit_ne,
      not_false_eq_true, and_self, decide_true]
  refine .number .shards
    (t := { limit := runtime.limit, limit_lt := runtime.limit_lt, shards := runtime.shards }) ?_ ?_
  · simp only [store, parseNumber_toDigits hsettable.shards_lt, ne_eq, hpositive.shards_ne,
      not_false_eq_true, and_self, decide_true]
  refine .number .dangerThreshold
    (t := { limit := runtime.limit, limit_lt := runtime.limit_lt, shards := runtime.shards,
            dangerThreshold := runtime.dangerThreshold }) ?_ ?_
  · simp only [store, parseNumber_toDigits hsettable.dangerThreshold_lt]
  refine .number .hotTps (t := runtime.positional) ?_ (Reads.named hsettable)
  simp only [store, parseNumber_toDigits hsettable.hotThresholdTps_lt, ne_eq,
    hpositive.hotThresholdTps_ne, not_false_eq_true, and_self, decide_true]
  rfl

/-- The texts can be given as arguments. -/
theorem nulFree_texts {options : DpdkOptions} (h : options.Ok) :
    ∀ text ∈ options.texts, NulFree text := by
  have hname : ∀ name ∈ daemonNames, NulFree name.toList := by decide +kernel
  have hruntime := (reads_runtime h.settable h.positive).nulFree
  intro text htext
  simp only [texts, List.flatten_cons, List.flatten_nil, List.append_nil, List.mem_append,
    List.mem_cons, List.not_mem_nil, or_false] at htext
  rcases htext with (rfl | rfl | rfl) | htext | htext | htext
  · exact (hname _ (by simp [daemonNames])).append (nulFree_toDigits _)
  · exact (hname _ (by simp [daemonNames])).append (nulFree_toDigits _)
  · exact (hname _ (by simp [daemonNames])).append (nulFree_toDigits _)
  · split at htext
    · exact absurd htext List.not_mem_nil
    · rw [List.mem_singleton.mp htext]
      exact (hname _ (by simp [daemonNames])).append h.strictOwnerEndpoint
  · exact hruntime text (by rcases htext with rfl | rfl | rfl | rfl <;> simp)
  · exact hruntime text (by simp [htext])

/-- **The DPDK daemon reads its options back.** -/
theorem foldlM_texts {options : DpdkOptions} (h : options.Ok) :
    options.texts.foldlM DpdkOptions.readArgument {} = some options := by
  have hruntime : ∀ endpoint : String, List.foldlM DpdkOptions.readArgument
      { dpdkPort := options.dpdkPort, udpPort := options.udpPort, queues := options.queues,
        strictOwnerEndpoint := endpoint } (numberArgument .limit options.runtime.limit ::
      numberArgument .shards options.runtime.shards ::
      numberArgument .dangerThreshold options.runtime.dangerThreshold ::
      numberArgument .hotTps options.runtime.hotThresholdTps :: options.runtime.namedArguments) =
      some { options with strictOwnerEndpoint := endpoint } := fun endpoint =>
    foldlM_of_reads (reads_runtime h.settable h.positive) rfl
  simp only [texts, List.flatten_cons, List.flatten_nil, List.append_nil,
    List.cons_append, List.nil_append]
  rw [foldlM_own h.dpdkPort_lt h.udpPort h.queues]
  by_cases hempty : options.strictOwnerEndpoint = ""
  · rw [if_pos hempty, List.nil_append]
    exact (hruntime "").trans (by rw [← hempty])
  · rw [if_neg hempty, List.singleton_append, foldlM_cons_of_eq (readArgument_endpoint _ hempty)]
    exact hruntime options.strictOwnerEndpoint

/-- **The options of the DPDK daemon.** A command line can produce options exactly if the device
number is a word of 16 bits, the UDP port and the number of queues are such words and not zero,
the launch options are settable, with a limit, a number of shards and a hot rate that are not
zero, and the endpoint of the strict owner holds no NUL. -/
theorem exists_parse_iff_ok (options : DpdkOptions) :
    (∃ arguments, parse arguments = some options) ↔ options.Ok := by
  constructor
  · rintro ⟨arguments, h⟩
    exact foldlM_invariant (P := Ok) (fun options argument options' hnul hok =>
      hok.readArgument hnul) .default h
  · intro h
    obtain ⟨arguments, htexts⟩ := exists_arguments (nulFree_texts h)
    exact ⟨arguments, by rw [parse, htexts, foldlM_texts h]⟩

end DpdkOptions

/-- **What the positional arguments add.** Settable launch options with a limit, a number of shards
or a hot rate of zero come from the TCP daemon, and never from the DPDK daemon. -/
theorem server_only_of_not_positive {runtime : RuntimeLaunchOptions} (hsettable : runtime.Settable)
    (hzero : ¬ runtime.Positive) :
    (∃ arguments options, ServerOptions.parse arguments = some options ∧
      options.runtime = runtime) ∧
    ∀ arguments options, DpdkOptions.parse arguments = some options →
      options.runtime ≠ runtime := by
  constructor
  · have hport : IsPort 9090 := by decide
    have hendpoint : NulFree "".toList := by decide
    have hnul : ∀ text ∈ ({ runtime := runtime } : ServerOptions).texts, NulFree text :=
      ServerOptions.nulFree_texts hsettable hendpoint
    obtain ⟨arguments, htexts⟩ := exists_arguments hnul
    refine ⟨arguments, { runtime := runtime }, ?_, rfl⟩
    rw [ServerOptions.parse, htexts, ServerOptions.foldlM_texts hport hsettable]
    exact if_pos hport.1
  · rintro arguments options hparse rfl
    have hok : options.Ok := foldlM_invariant (P := DpdkOptions.Ok)
      (fun _ _ _ hnul hok => hok.readArgument hnul) DpdkOptions.Ok.default hparse
    exact hzero hok.positive

end HotCounter
