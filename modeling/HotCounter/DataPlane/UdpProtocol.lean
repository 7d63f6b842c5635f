import HotCounter.Replication.Wire

/-!
# The UDP data plane codec

Requests and replies of `UdpCounterProtocol` are 40-byte strings under a common magic number,
told apart by their type byte. A reply carries the endpoint of the strict owner only if its
decision is `Moved`. The frames of the replicator have the same length and another magic number.

Each decoder undoes its encoder, each encoder reproduces an accepted string whose unused bytes
are zero, and no string is accepted by two decoders (`codecs_round_trip`).
-/

namespace HotCounter

open Foundation

namespace UdpCounterProtocol

/-- `kMagic` of the data plane, the ASCII letters `HCP1`. -/
def kMagic : ℕ := 0x48435031

def kVersion : UInt8 := 1

def kRequest : UInt8 := 1

def kReply : UInt8 := 2

def kFrameSize : ℕ := 40

/-- `UdpCounterProtocol::Request`. -/
structure Request where
  requestId : ℕ
  delta : ℕ
  counter : ℕ
  deriving DecidableEq, Repr

/-- `UdpCounterProtocol::Reply`. -/
structure Reply where
  requestId : ℕ
  result : Result
  counter : ℕ
  strictOwnerIpv4 : ℕ := 0
  strictOwnerPort : ℕ := 0
  deriving DecidableEq, Repr

/-- The fields have the widths of the source's types. -/
structure Request.InRange (r : Request) : Prop where
  requestId : r.requestId < 2 ^ 64
  delta : r.delta < 2 ^ 64
  counter : r.counter < 2 ^ 64

structure Reply.InRange (r : Reply) : Prop where
  requestId : r.requestId < 2 ^ 64
  observed : r.result.observed < 2 ^ 64
  counter : r.counter < 2 ^ 64
  strictOwnerIpv4 : r.strictOwnerIpv4 < 2 ^ 32
  strictOwnerPort : r.strictOwnerPort < 2 ^ 16

/-- `valid_prefix`. -/
def validPrefix (bytes : List UInt8) (type : UInt8) : Bool :=
  bytes.length == kFrameSize && readField 0 4 bytes == kMagic && bytes.getD 4 0 == kVersion &&
    bytes.getD 5 0 == type

/-- `encode_request`. -/
def encodeRequest (request : Request) : List UInt8 :=
  bigEndian 4 kMagic ++ (kVersion :: (kRequest :: (bigEndian 2 0 ++
    (bigEndian 8 request.requestId ++ (bigEndian 8 request.delta ++
      (bigEndian 8 request.counter ++ bigEndian 8 0))))))

/-- `decode_request`. -/
def decodeRequest (bytes : List UInt8) : Option Request :=
  if validPrefix bytes kRequest then
    some ⟨readField 8 8 bytes, readField 16 8 bytes, readField 24 8 bytes⟩
  else none

/-- The decision byte of a reply. -/
def decisionByte : Decision → UInt8
  | .accepted => 1
  | .moved => 2
  | .rejected => 0

/-- The decision of a byte that `decode_reply` has let through. -/
def decisionOfByte (byte : UInt8) : Decision :=
  if byte = 1 then .accepted else if byte = 2 then .moved else .rejected

/-- Bytes 32 to 37 of a reply. -/
def encodeOwner (reply : Reply) : List UInt8 :=
  if reply.result.decision = .moved then
    bigEndian 4 reply.strictOwnerIpv4 ++ bigEndian 2 reply.strictOwnerPort
  else bigEndian 6 0

/-- `encode_reply`. -/
def encodeReply (reply : Reply) : List UInt8 :=
  bigEndian 4 kMagic ++ (kVersion :: (kReply :: (decisionByte reply.result.decision ::
    (bigEndian 1 0 ++ (bigEndian 8 reply.requestId ++ (bigEndian 8 reply.result.observed ++
      (bigEndian 8 reply.counter ++ (encodeOwner reply ++ bigEndian 2 0))))))))

/-- `decode_reply`. -/
def decodeReply (bytes : List UInt8) : Option Reply :=
  if !validPrefix bytes kReply || bytes.getD 6 0 > 2 then none
  else
    some
      { requestId := readField 8 8 bytes
        result := ⟨decisionOfByte (bytes.getD 6 0), readField 16 8 bytes, 0⟩
        counter := readField 24 8 bytes
        strictOwnerIpv4 := readField 32 4 bytes
        strictOwnerPort := readField 36 2 bytes }

/-- What a reply keeps on the wire: no shard, and no owner unless it is `Moved`. -/
def Reply.onWire (reply : Reply) : Reply :=
  { reply with
    result := { reply.result with shard := 0 }
    strictOwnerIpv4 := if reply.result.decision = .moved then reply.strictOwnerIpv4 else 0
    strictOwnerPort := if reply.result.decision = .moved then reply.strictOwnerPort else 0 }

/-! ### Headers -/

theorem validPrefix_eq_true_iff {bytes : List UInt8} {type : UInt8} :
    validPrefix bytes type = true ↔
      bytes.length = kFrameSize ∧ readField 0 4 bytes = kMagic ∧ bytes.getD 4 0 = kVersion ∧
        bytes.getD 5 0 = type := by
  simp [validPrefix, and_assoc]

/-- A header that was written is valid. -/
theorem validPrefix_header {type : UInt8} {rest : List UInt8} (h : rest.length = 34) :
    validPrefix (bigEndian 4 kMagic ++ (kVersion :: (type :: rest))) type = true := by
  refine validPrefix_eq_true_iff.mpr ⟨?_, ?_, ?_, ?_⟩
  · simp [kFrameSize, h]
  · exact (readField_here 4 kMagic _).trans rfl
  · exact getD_skip le_rfl _ _ _
  · exact getD_skip (Nat.le_succ 4) _ _ _

/-- A valid header can be written again. -/
theorem header_append_drop {bytes : List UInt8} {type : UInt8}
    (h : validPrefix bytes type = true) :
    bigEndian 4 kMagic ++ (kVersion :: (type :: bytes.drop 6)) = bytes := by
  obtain ⟨hsize, hmagic, hversion, htype⟩ := validPrefix_eq_true_iff.mp h
  rw [kFrameSize] at hsize
  rw [← htype, getD_cons_drop (by omega) rfl, ← hversion, getD_cons_drop (by omega) rfl, ← hmagic,
    bigEndian_readField_append (by omega) rfl, List.drop_zero]

/-! ### Requests -/

theorem decodeRequest_encodeRequest {request : Request} (h : request.InRange) :
    decodeRequest (encodeRequest request) = some request := by
  have hvalid : validPrefix (encodeRequest request) kRequest = true :=
    validPrefix_header (by simp)
  rw [decodeRequest, if_pos hvalid]
  cases request
  simpa [encodeRequest, readField_skip, readField_cons, readField_here] using
    And.intro h.requestId (And.intro h.delta h.counter)

theorem encodeRequest_of_decodeRequest {bytes : List UInt8} {request : Request}
    (h : decodeRequest bytes = some request) (hzero : ZeroBetween 6 8 bytes)
    (htail : ZeroBetween 32 40 bytes) : encodeRequest request = bytes := by
  unfold decodeRequest at h
  split at h
  · rename_i hvalid
    have hsize : bytes.length = 40 := (validPrefix_eq_true_iff.mp hvalid).1
    have hlast : bigEndian 8 0 = bytes.drop 32 := by
      rw [← htail.append_drop hsize.ge (show 40 = 32 + 8 from rfl),
        List.drop_of_length_le hsize.le, List.append_nil]
    obtain rfl := Option.some.inj h
    rw [encodeRequest, hlast]
    dsimp only
    rw [bigEndian_readField_append (by omega) rfl, bigEndian_readField_append (by omega) rfl,
      bigEndian_readField_append (by omega) rfl, hzero.append_drop (by omega) rfl]
    exact header_append_drop hvalid
  · cases h

/-! ### Replies -/

theorem decisionOfByte_decisionByte (decision : Decision) :
    decisionOfByte (decisionByte decision) = decision := by
  cases decision <;> rfl

theorem decisionByte_decisionOfByte {byte : UInt8} (h : ¬ byte > 2) :
    decisionByte (decisionOfByte byte) = byte := by
  unfold decisionOfByte
  split
  · rename_i hone
    exact hone.symm
  · rename_i hone
    split
    · rename_i htwo
      exact htwo.symm
    · rename_i htwo
      have hle : byte.toNat ≤ 2 := UInt8.le_iff_toNat_le.mp (UInt8.not_lt.mp h)
      have hne1 : byte.toNat ≠ 1 := fun heq => hone (UInt8.toNat_inj.mp heq)
      have hne2 : byte.toNat ≠ 2 := fun heq => htwo (UInt8.toNat_inj.mp heq)
      exact UInt8.toNat_inj.mp (show (0 : ℕ) = byte.toNat by omega)

theorem length_encodeOwner (reply : Reply) : (encodeOwner reply).length = 6 := by
  unfold encodeOwner
  split <;> simp

/-- The owner is read back where it was written, and as zero where it was not. -/
theorem readField_encodeOwner {reply : Reply} (h : reply.InRange) (rest : List UInt8) :
    readField 0 4 (encodeOwner reply ++ rest) =
        (if reply.result.decision = .moved then reply.strictOwnerIpv4 else 0) ∧
      readField 4 2 (encodeOwner reply ++ rest) =
        (if reply.result.decision = .moved then reply.strictOwnerPort else 0) := by
  unfold encodeOwner
  split
  · simpa [readField_skip, readField_here] using And.intro h.strictOwnerIpv4 h.strictOwnerPort
  · exact ⟨rfl, rfl⟩

theorem decodeReply_encodeReply {reply : Reply} (h : reply.InRange) :
    decodeReply (encodeReply reply) = some reply.onWire := by
  have hvalid : validPrefix (encodeReply reply) kReply = true :=
    validPrefix_header (by simp [length_encodeOwner])
  have hdecision : (encodeReply reply).getD 6 0 = decisionByte reply.result.decision :=
    getD_skip (show 4 ≤ 6 by decide) _ _ _
  have hrange : ¬ decisionByte reply.result.decision > 2 := by
    cases reply.result.decision <;> decide
  obtain ⟨hipv4, hport⟩ := readField_encodeOwner h (bigEndian 2 0)
  rw [decodeReply, hvalid, hdecision, decisionOfByte_decisionByte, if_neg (by simpa using hrange)]
  simpa [encodeReply, Reply.onWire, readField_skip, readField_cons, readField_here, hipv4, hport]
    using And.intro h.requestId (And.intro h.observed h.counter)

theorem encodeReply_of_decodeReply {bytes : List UInt8} {reply : Reply}
    (h : decodeReply bytes = some reply) (hzero : ZeroBetween 7 8 bytes)
    (howner : reply.result.decision ≠ .moved → ZeroBetween 32 38 bytes)
    (htail : ZeroBetween 38 40 bytes) : encodeReply reply = bytes := by
  unfold decodeReply at h
  split at h
  · cases h
  rename_i hguard
  simp only [Bool.or_eq_true, Bool.not_eq_true', decide_eq_true_eq, not_or,
    Bool.not_eq_false] at hguard
  obtain ⟨hvalid, hrange⟩ := hguard
  have hsize : bytes.length = 40 := (validPrefix_eq_true_iff.mp hvalid).1
  have hlast : bigEndian 2 0 = bytes.drop 38 := by
    rw [← htail.append_drop hsize.ge (show 40 = 38 + 2 from rfl),
      List.drop_of_length_le hsize.le, List.append_nil]
  have hownerBytes : encodeOwner reply ++ bytes.drop 38 = bytes.drop 32 := by
    obtain rfl := Option.some.inj h
    unfold encodeOwner
    split
    · rw [List.append_assoc, bigEndian_readField_append (by omega) rfl,
        bigEndian_readField_append (by omega) rfl]
    · rename_i hmoved
      exact (howner hmoved).append_drop (by omega) rfl
  rw [encodeReply, hlast, hownerBytes]
  obtain rfl := Option.some.inj h
  dsimp only
  rw [bigEndian_readField_append (by omega) rfl, bigEndian_readField_append (by omega) rfl,
    bigEndian_readField_append (by omega) rfl, hzero.append_drop (by omega) rfl,
    decisionByte_decisionOfByte hrange, getD_cons_drop (by omega) rfl]
  exact header_append_drop hvalid

/-! ### All the 40-byte codecs -/

theorem validPrefix_of_decodeRequest {bytes : List UInt8} (h : decodeRequest bytes ≠ none) :
    validPrefix bytes kRequest = true := by
  by_contra hvalid
  exact h (if_neg hvalid)

theorem validPrefix_of_decodeReply {bytes : List UInt8} (h : decodeReply bytes ≠ none) :
    validPrefix bytes kReply = true := by
  by_contra hvalid
  rw [Bool.not_eq_true] at hvalid
  refine h (if_pos ?_)
  rw [hvalid, Bool.not_false, Bool.true_or]

/-- The replicator's frames have another magic number. -/
theorem not_validPrefix_of_decodeFrame {bytes : List UInt8} {frame : Replication.Frame}
    (h : Replication.decodeFrame bytes = some frame) (type : UInt8) :
    validPrefix bytes type = false := by
  obtain ⟨-, hmagic, -⟩ := Replication.header_of_decodeFrame h
  by_contra hvalid
  obtain ⟨-, hmagic', -⟩ := validPrefix_eq_true_iff.mp (Bool.not_eq_false _ ▸ hvalid)
  exact absurd (hmagic.symm.trans hmagic') (by decide)

/-- **The 40-byte codecs round-trip and do not mix.** Decoding undoes encoding for all field
values, a reply losing its shard and, unless it is `Moved`, its owner. Encoding reproduces every
accepted string whose unused bytes are zero. Strings of another length are rejected, and no
string is accepted by two of the three decoders. -/
theorem codecs_round_trip :
    (∀ request : Request, request.InRange →
      decodeRequest (encodeRequest request) = some request) ∧
    (∀ reply : Reply, reply.InRange → decodeReply (encodeReply reply) = some reply.onWire) ∧
    (∀ frame : Replication.Frame, frame.InRange →
      Replication.decodeFrame (Replication.encodeFrame frame) = some frame) ∧
    (∀ bytes request, decodeRequest bytes = some request → ZeroBetween 6 8 bytes →
      ZeroBetween 32 40 bytes → encodeRequest request = bytes) ∧
    (∀ bytes reply, decodeReply bytes = some reply → ZeroBetween 7 8 bytes →
      (reply.result.decision ≠ .moved → ZeroBetween 32 38 bytes) → ZeroBetween 38 40 bytes →
        encodeReply reply = bytes) ∧
    (∀ bytes frame, Replication.decodeFrame bytes = some frame →
      Replication.encodeFrame frame = bytes) ∧
    (∀ bytes : List UInt8, bytes.length ≠ 40 → decodeRequest bytes = none ∧
      decodeReply bytes = none ∧ Replication.decodeFrame bytes = none) ∧
    ∀ bytes : List UInt8, (decodeRequest bytes = none ∨ decodeReply bytes = none) ∧
      (decodeRequest bytes = none ∨ Replication.decodeFrame bytes = none) ∧
      (decodeReply bytes = none ∨ Replication.decodeFrame bytes = none) := by
  refine ⟨fun _ h => decodeRequest_encodeRequest h, fun _ h => decodeReply_encodeReply h,
    fun frame h => ?_, fun _ _ h => encodeRequest_of_decodeRequest h,
    fun _ _ h => encodeReply_of_decodeReply h,
    fun _ _ h => Replication.encodeFrame_of_decodeFrame h, fun bytes hlength => ?_,
    fun bytes => ⟨?_, ?_, ?_⟩⟩
  · rw [Replication.decodeFrame_encodeFrame, h.onWire_eq]
  · refine ⟨?_, ?_, ?_⟩
    · by_contra h
      exact hlength (validPrefix_eq_true_iff.mp (validPrefix_of_decodeRequest h)).1
    · by_contra h
      exact hlength (validPrefix_eq_true_iff.mp (validPrefix_of_decodeReply h)).1
    · exact if_pos (.inl hlength)
  · -- the type bytes differ
    by_contra h
    obtain ⟨hrequest, hreply⟩ := not_or.mp h
    have hone := (validPrefix_eq_true_iff.mp (validPrefix_of_decodeRequest hrequest)).2.2.2
    have htwo := (validPrefix_eq_true_iff.mp (validPrefix_of_decodeReply hreply)).2.2.2
    exact absurd (hone.symm.trans htwo) (by decide)
  · by_contra h
    obtain ⟨hrequest, hframe⟩ := not_or.mp h
    obtain ⟨frame, hframe⟩ := Option.ne_none_iff_exists'.mp hframe
    exact absurd (validPrefix_of_decodeRequest hrequest)
      (by rw [not_validPrefix_of_decodeFrame hframe]; exact Bool.false_ne_true)
  · by_contra h
    obtain ⟨hreply, hframe⟩ := not_or.mp h
    obtain ⟨frame, hframe⟩ := Option.ne_none_iff_exists'.mp hframe
    exact absurd (validPrefix_of_decodeReply hreply)
      (by rw [not_validPrefix_of_decodeFrame hframe]; exact Bool.false_ne_true)

/-- A `Moved` reply with the largest observed value keeps its owner and loses its shard. -/
theorem codecs_round_trip_moved :
    decodeReply (encodeReply ⟨7, ⟨.moved, 2 ^ 64 - 1, 3⟩, 17, 2130706433, 9000⟩) =
      some ⟨7, ⟨.moved, 2 ^ 64 - 1, 0⟩, 17, 2130706433, 9000⟩ :=
  codecs_round_trip.2.1 ⟨7, ⟨.moved, 2 ^ 64 - 1, 3⟩, 17, 2130706433, 9000⟩
    ⟨by decide, by decide, by decide, by decide, by decide⟩

end UdpCounterProtocol

end HotCounter
