import HotCounter.Config.Runtime

/-!
# Named launch options

`parse_runtime_option` reads one argument `--name=value` into the launch options. A number is a
whole text of decimal digits that fits its type. An argument that is refused may still have
written to the options: the callers give up then.

An argument is a list of characters, none of them the NUL that ends an entry of `argv` (`NulFree`);
the functions that read a text do not look for one. The chain of tests in the source is a search
through the names in the same order; what a name does to the options is `store`.
-/

namespace HotCounter

/-- `parse_number`: what it leaves in `destination`, a type of the values below `bound`, and what
it returns. The digits are stored as soon as their value fits, also when more text follows. -/
def parseNumber (bound : ℕ) (text : List Char) (destination : ℕ) : ℕ × Bool :=
  let digits := text.takeWhile Char.isDigit
  let value := Nat.ofDigitChars 10 digits 0
  if digits = [] ∨ bound ≤ value then (destination, false)
  else (value, digits.length = text.length)

/-- `std::string_view::find` for one character. -/
def findChar (c : Char) (text : List Char) : Option ℕ :=
  text.findIdx? (· == c)

/-- `std::string_view::rfind` for one character. -/
def rfindChar (c : Char) (text : List Char) : Option ℕ :=
  (text.reverse.findIdx? (· == c)).map fun k => text.length - 1 - k

/-- `parse_replication_peer`. -/
def parseReplicationPeer (text : List Char) : Option UdpPeer :=
  match rfindChar ':' text with
  | none => none
  | some separator =>
    if separator = 0 ∨ separator + 1 = text.length then none
    else
      let port := parseNumber (2 ^ 16) (text.drop (separator + 1)) 0
      if !port.2 ∨ port.1 = 0 then none
      else some ⟨String.ofList (text.take separator), port.1⟩

/-- `parse_reservation`. -/
def parseReservation (text : List Char) : Option ComponentReservation :=
  match findChar ':' text with
  | none => none
  | some separator =>
    if separator = 0 ∨ separator + 1 = text.length then none
    else
      let componentId := parseNumber (2 ^ 32) (text.take separator) 0
      let capacity := parseNumber (2 ^ 64) (text.drop (separator + 1)) 0
      if componentId.2 ∧ capacity.2 then some ⟨componentId.1, capacity.1⟩ else none

/-- `parse_handoff_peer`. -/
def parseHandoffPeer (text : List Char) : Option DistributedPeer :=
  match findChar ':' text, rfindChar ':' text with
  | some first, some last =>
    if first = 0 ∨ first = last ∨ last + 1 = text.length then none
    else
      let componentId := parseNumber (2 ^ 32) (text.take first) 0
      let port := parseNumber (2 ^ 16) (text.drop (last + 1)) 0
      if !componentId.2 ∨ !port.2 ∨ port.1 = 0 then none
      else
        let host := (text.drop (first + 1)).take (last - first - 1)
        if host = [] then none else some ⟨componentId.1, String.ofList host, port.1⟩
  | _, _ => none

/-- The options that `parse_runtime_option` reads a value for. -/
inductive RuntimeOption
  | limit
  | shards
  | dangerThreshold
  | hotTps
  | componentId
  | peakReservation
  | clusterReservation
  | udpBindPort
  | udpBindHost
  | udpPeer
  | handoffBindPort
  | handoffBindHost
  | handoffLeader
  | strictOwner
  | handoffPeer
  | handoffAuthKeyFile
  | handoffJournal
  deriving DecidableEq

namespace RuntimeOption

/-- The name in the argument, with the sign that ends it. -/
def name : RuntimeOption → String
  | limit => "--limit="
  | shards => "--shards="
  | dangerThreshold => "--danger-threshold="
  | hotTps => "--hot-tps="
  | componentId => "--component-id="
  | peakReservation => "--peak-reservation="
  | clusterReservation => "--cluster-reservation="
  | udpBindPort => "--udp-bind-port="
  | udpBindHost => "--udp-bind-host="
  | udpPeer => "--udp-peer="
  | handoffBindPort => "--handoff-bind-port="
  | handoffBindHost => "--handoff-bind-host="
  | handoffLeader => "--handoff-leader="
  | strictOwner => "--strict-owner="
  | handoffPeer => "--handoff-peer="
  | handoffAuthKeyFile => "--handoff-auth-key-file="
  | handoffJournal => "--handoff-journal="

/-- The order in which the names are tried. -/
def all : List RuntimeOption :=
  [limit, shards, dangerThreshold, hotTps, componentId, peakReservation, clusterReservation,
    udpBindPort, udpBindHost, udpPeer, handoffBindPort, handoffBindHost, handoffLeader, strictOwner,
    handoffPeer, handoffAuthKeyFile, handoffJournal]

theorem mem_all (option : RuntimeOption) : option ∈ all := by
  cases option <;> decide

end RuntimeOption

theorem parseNumber_lt {bound destination : ℕ} (h : destination < bound) (text : List Char) :
    (parseNumber bound text destination).1 < bound := by
  simp only [parseNumber]
  split
  · exact h
  · rename_i hfits
    push Not at hfits
    exact hfits.2

namespace RuntimeLaunchOptions

/-- What a name with a value does to the options, and what is returned. -/
def store (options : RuntimeLaunchOptions) (value : List Char) :
    RuntimeOption → RuntimeLaunchOptions × Bool
  | .limit =>
    let number := parseNumber (2 ^ 64) value options.limit
    ({ options with limit := number.1, limit_lt := parseNumber_lt options.limit_lt value },
      number.2 ∧ number.1 ≠ 0)
  | .shards =>
    let number := parseNumber (2 ^ 32) value options.shards
    ({ options with shards := number.1 }, number.2 ∧ number.1 ≠ 0)
  | .dangerThreshold =>
    let number := parseNumber (2 ^ 64) value options.dangerThreshold
    ({ options with dangerThreshold := number.1 }, number.2)
  | .hotTps =>
    let number := parseNumber (2 ^ 64) value options.hotThresholdTps
    ({ options with hotThresholdTps := number.1 }, number.2 ∧ number.1 ≠ 0)
  | .componentId =>
    let number := parseNumber (2 ^ 32) value options.componentId
    ({ options with componentId := number.1 }, number.2)
  | .peakReservation =>
    let number := parseNumber (2 ^ 64) value options.peakReservation
    ({ options with peakReservation := number.1 }, number.2 ∧ number.1 ≠ 0)
  | .clusterReservation =>
    match parseReservation value with
    | none => (options, false)
    | some reservation =>
      ({ options with clusterReservations := options.clusterReservations ++ [reservation] }, true)
  | .udpBindPort =>
    let number := parseNumber (2 ^ 16) value options.replicationBindPort
    ({ options with replicationBindPort := number.1 }, number.2)
  | .udpBindHost => ({ options with replicationBindHost := String.ofList value }, true)
  | .udpPeer =>
    match parseReplicationPeer value with
    | none => (options, false)
    | some peer => ({ options with replicationPeers := options.replicationPeers ++ [peer] }, true)
  | .handoffBindPort =>
    let number := parseNumber (2 ^ 16) value options.handoffBindPort
    ({ options with handoffOptionSeen := true, handoffBindPort := number.1 },
      number.2 ∧ number.1 ≠ 0)
  | .handoffBindHost =>
    ({ options with handoffOptionSeen := true, handoffBindHost := String.ofList value }, true)
  | .handoffLeader =>
    let number := parseNumber (2 ^ 32) value options.handoffLeader
    ({ options with handoffOptionSeen := true, handoffLeader := number.1 }, number.2)
  | .strictOwner =>
    let number := parseNumber (2 ^ 32) value options.strictOwner
    ({ options with handoffOptionSeen := true, strictOwner := number.1 }, number.2)
  | .handoffPeer =>
    match parseHandoffPeer value with
    | none => ({ options with handoffOptionSeen := true }, false)
    | some peer =>
      ({ options with
          handoffOptionSeen := true
          handoffPeers := options.handoffPeers ++ [peer] }, true)
  | .handoffAuthKeyFile =>
    ({ options with handoffOptionSeen := true, handoffAuthKeyFile := String.ofList value }, true)
  | .handoffJournal =>
    ({ options with handoffOptionSeen := true, handoffJournalPath := String.ofList value }, true)

/-- `value_after`: the text behind a name, empty where the argument has another name. -/
def valueAfter (argument : List Char) (name : String) : List Char :=
  if name.toList <+: argument then argument.drop name.toList.length else []

/-- `parse_runtime_option`. -/
def parseRuntimeOption (argument : List Char) (options : RuntimeLaunchOptions) :
    RuntimeLaunchOptions × Bool :=
  if argument = "--start-peak".toList then ({ options with startPeak := true }, true)
  else
    match RuntimeOption.all.find? fun option => valueAfter argument option.name ≠ [] with
    | none => (options, false)
    | some option => options.store (valueAfter argument option.name) option

end RuntimeLaunchOptions

/-! ### Numbers and separators -/

/-- **The decimal digits of a number that fits are read as that number.** -/
theorem parseNumber_toDigits {bound n : ℕ} (h : n < bound) (destination : ℕ) :
    parseNumber bound (Nat.toDigits 10 n) destination = (n, true) := by
  have hdigits : (Nat.toDigits 10 n).takeWhile Char.isDigit = Nat.toDigits 10 n :=
    List.takeWhile_eq_self_iff.mpr fun _ hc => Nat.isDigit_of_mem_toDigits (by decide) le_rfl hc
  simp only [parseNumber, hdigits, Nat.ofDigitChars_ten_toDigits]
  rw [if_neg (by simp [Nat.toDigits_ne_nil, h])]
  exact congrArg (Prod.mk n) (decide_true _)

theorem parseNumber_ok {bound destination : ℕ} {text : List Char}
    (h : (parseNumber bound text destination).2 = true) :
    (parseNumber bound text destination).1 < bound := by
  simp only [parseNumber] at h ⊢
  split at h
  · cases h
  · rename_i hfits
    push Not at hfits
    rw [if_neg (by push Not; exact hfits)]
    exact hfits.2

theorem colon_notMem_toDigits (n : ℕ) : ':' ∉ Nat.toDigits 10 n := fun hmem =>
  absurd (Nat.isDigit_of_mem_toDigits (by decide) le_rfl hmem) (by decide)

/-- A text without the character that ends an argument. -/
def NulFree (text : List Char) : Prop := Char.ofNat 0 ∉ text

instance (text : List Char) : Decidable (NulFree text) := inferInstanceAs (Decidable (_ ∉ _))

theorem nulFree_toDigits (n : ℕ) : NulFree (Nat.toDigits 10 n) := fun hmem =>
  absurd (Nat.isDigit_of_mem_toDigits (by decide) le_rfl hmem) (by decide)

theorem NulFree.of_subset {text part : List Char} (h : NulFree text) (hsub : part ⊆ text) :
    NulFree part := fun hmem => h (hsub hmem)

theorem NulFree.append {front back : List Char} (hfront : NulFree front) (hback : NulFree back) :
    NulFree (front ++ back) := fun hmem =>
  (List.mem_append.mp hmem).elim hfront hback

/-- A separator between two texts. -/
theorem NulFree.separated {front back : List Char} (hfront : NulFree front)
    (hback : NulFree back) : NulFree (front ++ ':' :: back) := fun hmem => by
  rcases List.mem_append.mp hmem with hmem | hmem
  · exact hfront hmem
  · rcases List.mem_cons.mp hmem with hcolon | hmem
    · exact absurd hcolon (by decide)
    · exact hback hmem

theorem findChar_append {c : Char} {front back : List Char} (h : c ∉ front) :
    findChar c (front ++ c :: back) = some front.length := by
  have hnone : front.findIdx? (· == c) = none :=
    List.findIdx?_eq_none_iff.mpr fun x hx => beq_eq_false_iff_ne.mpr fun heq => h (heq ▸ hx)
  rw [findChar, List.findIdx?_append, hnone, List.findIdx?_cons, if_pos (beq_self_eq_true c)]
  simp

theorem rfindChar_append {c : Char} {front back : List Char} (h : c ∉ back) :
    rfindChar c (front ++ c :: back) = some front.length := by
  have hreverse : (front ++ c :: back).reverse = back.reverse ++ c :: front.reverse := by simp
  have hfind : findChar c (back.reverse ++ c :: front.reverse) = some back.reverse.length :=
    findChar_append fun hmem => h (List.mem_reverse.mp hmem)
  rw [findChar, List.length_reverse] at hfind
  rw [rfindChar, hreverse, hfind, Option.map_some, List.length_append, List.length_cons]
  congr 1
  omega

theorem drop_separator (front back : List Char) (c : Char) :
    (front ++ c :: back).drop (front.length + 1) = back := by
  simp

/-! ### Endpoints and reservations -/

/-- What a port stands for in an accepted text. -/
def IsPort (port : ℕ) : Prop := port ≠ 0 ∧ port < 2 ^ 16

instance (port : ℕ) : Decidable (IsPort port) := inferInstanceAs (Decidable (_ ∧ _))

/-- What a host stands for in an accepted text. -/
def IsHost (host : String) : Prop := host ≠ "" ∧ NulFree host.toList

instance (host : String) : Decidable (IsHost host) := inferInstanceAs (Decidable (_ ∧ _))

theorem isHost_ofList {value : List Char} (hvalue : value ≠ []) (hnul : NulFree value) :
    IsHost (String.ofList value) := by
  refine ⟨fun hempty => hvalue ?_, ?_⟩
  · have hnil := String.toList_eq_nil_iff.mpr hempty
    rwa [String.toList_ofList] at hnil
  · rwa [String.toList_ofList]

/-- The text of a peer in an argument. -/
def UdpPeer.text (peer : UdpPeer) : List Char :=
  peer.host.toList ++ ':' :: Nat.toDigits 10 peer.port

/-- The text of a reservation in an argument. -/
def ComponentReservation.text (reservation : ComponentReservation) : List Char :=
  Nat.toDigits 10 reservation.componentId ++ ':' :: Nat.toDigits 10 reservation.capacity

/-- The text of a peer of the handoff in an argument. -/
def DistributedPeer.text (peer : DistributedPeer) : List Char :=
  Nat.toDigits 10 peer.componentId ++ ':' :: (peer.host.toList ++ ':' :: Nat.toDigits 10 peer.port)

/-- **A peer is read from its text**, also where the host has colons of its own. -/
theorem parseReplicationPeer_text {peer : UdpPeer} (hhost : peer.host ≠ "")
    (hport : IsPort peer.port) : parseReplicationPeer peer.text = some peer := by
  have hlength : peer.host.toList.length ≠ 0 := fun hzero =>
    hhost (String.toList_eq_nil_iff.mp (List.length_eq_zero_iff.mp hzero))
  have hdigits : (Nat.toDigits 10 peer.port).length ≠ 0 := fun hzero =>
    Nat.toDigits_ne_nil (List.length_eq_zero_iff.mp hzero)
  have hseparator : peer.host.toList.length + 1 ≠ peer.text.length := by
    rw [UdpPeer.text, List.length_append, List.length_cons]
    omega
  have hdrop : peer.text.drop (peer.host.toList.length + 1) = Nat.toDigits 10 peer.port :=
    drop_separator _ _ _
  have htake : peer.text.take peer.host.toList.length = peer.host.toList := by simp [UdpPeer.text]
  simp only [parseReplicationPeer]
  rw [UdpPeer.text, rfindChar_append (colon_notMem_toDigits _), ← UdpPeer.text]
  dsimp only
  rw [if_neg (by simp [hlength, hseparator]), hdrop, htake, parseNumber_toDigits hport.2]
  rw [if_neg (by simp [hport.1]), String.ofList_toList]

theorem parseReplicationPeer_ok {text : List Char} {peer : UdpPeer} (hnul : NulFree text)
    (h : parseReplicationPeer text = some peer) : IsHost peer.host ∧ IsPort peer.port := by
  simp only [parseReplicationPeer] at h
  split at h
  · cases h
  rename_i separator hfind
  split at h
  · cases h
  rename_i hseparator
  push Not at hseparator
  split at h
  · cases h
  rename_i hport
  obtain rfl := Option.some.inj h
  simp only [Bool.not_eq_true', not_or, Bool.not_eq_false] at hport
  refine ⟨isHost_ofList (fun hnil => ?_) (hnul.of_subset (List.take_subset _ _)), hport.2,
    parseNumber_ok hport.1⟩
  -- the text before the separator is not empty, for the separator is in the text
  rw [rfindChar, Option.map_eq_some_iff] at hfind
  obtain ⟨k, hk, rfl⟩ := hfind
  have hlt := (List.findIdx?_eq_some_iff_getElem.mp hk).1
  rw [List.length_reverse] at hlt
  have htext : text ≠ [] := by
    rintro rfl
    exact absurd hlt (Nat.not_lt_zero _)
  simp only [List.take_eq_nil_iff, htext, or_false] at hnil
  exact hseparator.1 hnil

/-- **A reservation is read from its text.** -/
theorem parseReservation_text {reservation : ComponentReservation}
    (hid : reservation.componentId < 2 ^ 32) (hcapacity : reservation.capacity < 2 ^ 64) :
    parseReservation reservation.text = some reservation := by
  have hlength : (Nat.toDigits 10 reservation.componentId).length ≠ 0 := fun hzero =>
    Nat.toDigits_ne_nil (List.length_eq_zero_iff.mp hzero)
  have hdigits : (Nat.toDigits 10 reservation.capacity).length ≠ 0 := fun hzero =>
    Nat.toDigits_ne_nil (List.length_eq_zero_iff.mp hzero)
  have hseparator : (Nat.toDigits 10 reservation.componentId).length + 1 ≠
      reservation.text.length := by
    rw [ComponentReservation.text, List.length_append, List.length_cons]
    omega
  have hdrop : reservation.text.drop ((Nat.toDigits 10 reservation.componentId).length + 1) =
      Nat.toDigits 10 reservation.capacity :=
    drop_separator _ _ _
  have htake : reservation.text.take (Nat.toDigits 10 reservation.componentId).length =
      Nat.toDigits 10 reservation.componentId := by
    simp [ComponentReservation.text]
  simp only [parseReservation]
  rw [ComponentReservation.text, findChar_append (colon_notMem_toDigits _),
    ← ComponentReservation.text]
  dsimp only
  rw [if_neg (by simp [hlength, hseparator]), hdrop, htake, parseNumber_toDigits hid,
    parseNumber_toDigits hcapacity]
  rfl

theorem parseReservation_ok {text : List Char} {reservation : ComponentReservation}
    (h : parseReservation text = some reservation) :
    reservation.componentId < 2 ^ 32 ∧ reservation.capacity < 2 ^ 64 := by
  simp only [parseReservation] at h
  split at h
  · cases h
  split at h
  · cases h
  split at h
  · rename_i hboth
    obtain rfl := Option.some.inj h
    exact ⟨parseNumber_ok hboth.1, parseNumber_ok hboth.2⟩
  · cases h

/-- **A handoff peer is read from its text**, also where the host has colons of its own. -/
theorem parseHandoffPeer_text {peer : DistributedPeer} (hid : peer.componentId < 2 ^ 32)
    (hhost : peer.host ≠ "") (hport : IsPort peer.port) :
    parseHandoffPeer peer.text = some peer := by
  have hne : peer.host.toList ≠ [] := fun hnil => hhost (String.toList_eq_nil_iff.mp hnil)
  have hlength : (Nat.toDigits 10 peer.componentId).length ≠ 0 := fun hzero =>
    Nat.toDigits_ne_nil (List.length_eq_zero_iff.mp hzero)
  have hdigits : (Nat.toDigits 10 peer.port).length ≠ 0 := fun hzero =>
    Nat.toDigits_ne_nil (List.length_eq_zero_iff.mp hzero)
  set front := Nat.toDigits 10 peer.componentId with hfront
  set last := (front ++ ':' :: peer.host.toList).length with hlast
  have hregroup : peer.text =
      (front ++ ':' :: peer.host.toList) ++ ':' :: Nat.toDigits 10 peer.port := by
    simp [DistributedPeer.text, hfront]
  have hlast' : last = front.length + 1 + peer.host.toList.length := by
    rw [hlast, List.length_append, List.length_cons]
    omega
  have htotal : peer.text.length = last + 1 + (Nat.toDigits 10 peer.port).length := by
    rw [hregroup, List.length_append, List.length_cons, ← hlast]
    omega
  have hfirst : findChar ':' peer.text = some front.length := by
    rw [DistributedPeer.text]
    exact findChar_append (colon_notMem_toDigits _)
  have hfindLast : rfindChar ':' peer.text = some last := by
    rw [hregroup]
    exact rfindChar_append (colon_notMem_toDigits _)
  have htake : peer.text.take front.length = front := by simp [DistributedPeer.text, hfront]
  have hdrop : peer.text.drop (last + 1) = Nat.toDigits 10 peer.port := by
    rw [hregroup, hlast]
    exact drop_separator _ _ _
  have hmiddle : (peer.text.drop (front.length + 1)).take (last - front.length - 1) =
      peer.host.toList := by
    have hcount : last - front.length - 1 = peer.host.toList.length := by omega
    rw [hcount, DistributedPeer.text, ← hfront]
    simp
  simp only [parseHandoffPeer, hfirst, hfindLast]
  rw [if_neg (by omega), htake, hdrop, hmiddle, hfront, parseNumber_toDigits hid,
    parseNumber_toDigits hport.2, if_neg (by simp [hport.1]), if_neg hne, String.ofList_toList]

theorem parseHandoffPeer_ok {text : List Char} {peer : DistributedPeer} (hnul : NulFree text)
    (h : parseHandoffPeer text = some peer) :
    peer.componentId < 2 ^ 32 ∧ IsHost peer.host ∧ IsPort peer.port := by
  simp only [parseHandoffPeer] at h
  split at h
  · split at h
    · cases h
    split at h
    · cases h
    rename_i hnumbers
    split at h
    · cases h
    rename_i hhost
    obtain rfl := Option.some.inj h
    simp only [Bool.not_eq_true', not_or, Bool.not_eq_false] at hnumbers
    refine ⟨parseNumber_ok hnumbers.1, isHost_ofList hhost (hnul.of_subset ?_), hnumbers.2.2,
      parseNumber_ok hnumbers.2.1⟩
    exact List.Subset.trans (List.take_subset _ _) (List.drop_subset _ _)
  · cases h

end HotCounter
