import HotCounter.Handoff.Node
import HotCounter.Auth.Authenticator
import HotCounter.Foundation.Bytes

/-!
# Datagrams of the handoff protocol

A frame travels as a payload of 48 bytes followed by its tag. `receive_all` reads a datagram
into a buffer of the size of a frame, so a longer datagram is cut; what `decode_frame` accepts
goes to `handle_frame` with the address it came from.

A `Station` is a process that sees raw datagrams, together with everything it has sent.
-/

namespace HotCounter

open Foundation

/-! ### Frames as bytes -/

/-- The type byte of a frame. -/
def WireType.toByte : WireType → UInt8
  | .trigger => 1
  | .prepare => 2
  | .prepared => 3
  | .commit => 4
  | .commitAck => 5
  | .abort => 6

/-- The frame type of a byte, none outside the range of `WireType`. -/
def WireType.ofByte (byte : UInt8) : Option WireType :=
  if byte < 1 ∨ byte > 6 then none
  else if byte = 1 then some .trigger
  else if byte = 2 then some .prepare
  else if byte = 3 then some .prepared
  else if byte = 4 then some .commit
  else if byte = 5 then some .commitAck
  else some .abort

theorem WireType.ofByte_toByte (type : WireType) : ofByte type.toByte = some type := by
  cases type <;> decide

namespace Handoff

/-- `kMagic` of the handoff protocol, the ASCII letters `HCN1`. -/
def kMagic : ℕ := 0x48434e31

def kVersion : UInt8 := 1

def kWirePayloadSize : ℕ := 48

def kFrameSize : ℕ := kWirePayloadSize + ControlAuthenticator.kTagSize

/-- The payload of `encode_frame`; its last six bytes stay zero. -/
def encodePayload (frame : Frame) : List UInt8 :=
  bigEndian 4 kMagic ++ (kVersion :: (frame.type.toByte :: (bigEndian 2 frame.sender ++
    (bigEndian 8 frame.term ++ (bigEndian 8 frame.counter ++ (bigEndian 8 frame.epoch ++
      (bigEndian 8 frame.value ++ (bigEndian 2 frame.strictOwner ++ bigEndian 6 0))))))))

/-- `encode_frame`. -/
def encodeFrame (key : List UInt8) (frame : Frame) : List UInt8 :=
  encodePayload frame ++ (ControlAuthenticator.sign key (encodePayload frame)).toList

/-- The tag behind the payload. -/
def tagOf (bytes : List UInt8) : ControlAuthenticator.Tag :=
  ControlAuthenticator.copyTo ControlAuthenticator.kTagSize (bytes.drop kWirePayloadSize)

/-- The fields of a frame of a given type. -/
def readFields (bytes : List UInt8) (type : WireType) : Frame :=
  ⟨type, readField 6 2 bytes, readField 8 8 bytes, readField 16 8 bytes, readField 24 8 bytes,
    readField 32 8 bytes, readField 40 2 bytes⟩

/-- `decode_frame`. -/
def decodeFrame (key bytes : List UInt8) : Option Frame :=
  if bytes.length ≠ kFrameSize ∨ readField 0 4 bytes ≠ kMagic ∨ bytes.getD 4 0 ≠ kVersion then
    none
  else if !ControlAuthenticator.verify key (bytes.take kWirePayloadSize) (tagOf bytes) then none
  else (WireType.ofByte (bytes.getD 5 0)).map (readFields bytes)

/-- The frame with every field reduced to its width on the wire. -/
def onWire (frame : Frame) : Frame :=
  { frame with
    sender := frame.sender % 2 ^ 16
    term := frame.term % 2 ^ 64
    counter := frame.counter % 2 ^ 64
    epoch := frame.epoch % 2 ^ 64
    value := frame.value % 2 ^ 64
    strictOwner := frame.strictOwner % 2 ^ 16 }

theorem length_encodePayload (frame : Frame) :
    (encodePayload frame).length = kWirePayloadSize := by
  simp [encodePayload, kWirePayloadSize]

theorem length_encodeFrame (key : List UInt8) (frame : Frame) :
    (encodeFrame key frame).length = kFrameSize := by
  rw [encodeFrame, List.length_append, length_encodePayload, Vector.length_toList, kFrameSize]

theorem take_encodeFrame (key : List UInt8) (frame : Frame) :
    (encodeFrame key frame).take kWirePayloadSize = encodePayload frame :=
  List.take_left' (length_encodePayload frame)

theorem tagOf_encodeFrame (key : List UInt8) (frame : Frame) :
    tagOf (encodeFrame key frame) = ControlAuthenticator.sign key (encodePayload frame) := by
  have hdrop : (encodeFrame key frame).drop kWirePayloadSize =
      (ControlAuthenticator.sign key (encodePayload frame)).toList :=
    List.drop_left' (length_encodePayload frame)
  rw [tagOf, hdrop]
  ext i hi
  simp [ControlAuthenticator.copyTo, List.getD_eq_getElem?_getD]

/-- **Decoding under the same key undoes encoding**, up to the widths of the fields. -/
theorem decodeFrame_encodeFrame (key : List UInt8) (frame : Frame) :
    decodeFrame key (encodeFrame key frame) = some (onWire frame) := by
  have hmagic : readField 0 4 (encodeFrame key frame) = kMagic := by
    rw [encodeFrame, encodePayload, List.append_assoc]
    exact (readField_here 4 kMagic _).trans rfl
  have hversion : (encodeFrame key frame).getD 4 0 = kVersion := by
    rw [encodeFrame, encodePayload, List.append_assoc]
    exact getD_skip le_rfl _ _ _
  have htype : (encodeFrame key frame).getD 5 0 = frame.type.toByte := by
    rw [encodeFrame, encodePayload, List.append_assoc]
    exact getD_skip (Nat.le_succ 4) _ _ _
  have hfields : readFields (encodeFrame key frame) frame.type = onWire frame := by
    simp [readFields, encodeFrame, encodePayload, onWire, readField_skip, readField_cons,
      readField_here]
  have hheader : ¬((encodeFrame key frame).length ≠ kFrameSize ∨
      readField 0 4 (encodeFrame key frame) ≠ kMagic ∨
        (encodeFrame key frame).getD 4 0 ≠ kVersion) := by
    rintro (h | h | h)
    · exact h (length_encodeFrame key frame)
    · exact h hmagic
    · exact h hversion
  have htag : ControlAuthenticator.verify key
      ((encodeFrame key frame).take kWirePayloadSize) (tagOf (encodeFrame key frame)) = true := by
    rw [ControlAuthenticator.verify_eq_true_iff, tagOf_encodeFrame, take_encodeFrame]
  rw [decodeFrame, if_neg hheader, htag, Bool.not_true, if_neg Bool.false_ne_true, htype,
    WireType.ofByte_toByte, Option.map_some, hfields]

/-- The fields have the widths of the source's types. -/
structure InRange (frame : Frame) : Prop where
  sender : frame.sender < 2 ^ 16
  term : frame.term < 2 ^ 64
  counter : frame.counter < 2 ^ 64
  epoch : frame.epoch < 2 ^ 64
  value : frame.value < 2 ^ 64
  strictOwner : frame.strictOwner < 2 ^ 16

theorem InRange.onWire_eq {frame : Frame} (h : InRange frame) : onWire frame = frame := by
  unfold onWire
  rw [Nat.mod_eq_of_lt h.sender, Nat.mod_eq_of_lt h.term, Nat.mod_eq_of_lt h.counter,
    Nat.mod_eq_of_lt h.epoch, Nat.mod_eq_of_lt h.value, Nat.mod_eq_of_lt h.strictOwner]

theorem toByte_of_ofByte {byte : UInt8} {type : WireType}
    (h : WireType.ofByte byte = some type) : type.toByte = byte := by
  unfold WireType.ofByte at h
  repeat' split at h
  all_goals cases h
  all_goals try exact Eq.symm ‹_›
  -- what is left is the byte 6
  rename_i hrange h1 h2 h3 h4 h5
  have hle : byte.toNat ≤ 6 := UInt8.le_iff_toNat_le.mp (UInt8.not_lt.mp (not_or.mp hrange).2)
  have hge : 1 ≤ byte.toNat := UInt8.le_iff_toNat_le.mp (UInt8.not_lt.mp (not_or.mp hrange).1)
  rw [← UInt8.toNat_inj] at h1 h2 h3 h4 h5
  simp only [UInt8.reduceToNat] at h1 h2 h3 h4 h5
  exact UInt8.toNat_inj.mp (show (6 : ℕ) = byte.toNat by omega)

/-- The bytes behind the payload are the tag. -/
theorem toList_tagOf {bytes : List UInt8} (h : bytes.length = kFrameSize) :
    (tagOf bytes).toList = bytes.drop kWirePayloadSize := by
  have hlength : (bytes.drop kWirePayloadSize).length = ControlAuthenticator.kTagSize := by
    rw [List.length_drop, h, kFrameSize, Nat.add_sub_cancel_left]
  exact ControlAuthenticator.toList_copyTo hlength

/-- What an accepted byte string looks like. -/
theorem header_of_decodeFrame {key bytes : List UInt8} {frame : Frame}
    (h : decodeFrame key bytes = some frame) :
    bytes.length = kFrameSize ∧ readField 0 4 bytes = kMagic ∧ bytes.getD 4 0 = kVersion ∧
      bytes.getD 5 0 = frame.type.toByte ∧ frame = readFields bytes frame.type ∧
      bytes.drop kWirePayloadSize =
        (ControlAuthenticator.sign key (bytes.take kWirePayloadSize)).toList := by
  unfold decodeFrame at h
  split at h
  · cases h
  rename_i hheader
  simp only [not_or, not_not] at hheader
  obtain ⟨hsize, hmagic, hversion⟩ := hheader
  split at h
  · cases h
  rename_i htag
  rw [Bool.not_eq_true', Bool.not_eq_false, ControlAuthenticator.verify_eq_true_iff] at htag
  obtain ⟨type, htype, rfl⟩ := Option.map_eq_some_iff.mp h
  exact ⟨hsize, hmagic, hversion, (toByte_of_ofByte htype).symm, rfl,
    (toList_tagOf hsize).symm.trans (congrArg Vector.toList htag)⟩

/-- **Encoding reproduces an accepted string** whose reserved bytes are zero. -/
theorem encodeFrame_of_decodeFrame {key bytes : List UInt8} {frame : Frame}
    (h : decodeFrame key bytes = some frame) (hzero : ZeroBetween 42 48 bytes) :
    encodeFrame key frame = bytes := by
  obtain ⟨hsize, hmagic, hversion, htype, hfields, htag⟩ := header_of_decodeFrame h
  have hsize' : bytes.length = 64 := hsize
  have hpayload : encodePayload frame ++ bytes.drop 48 = bytes := by
    rw [hfields, encodePayload, readFields]
    simp only [List.append_assoc, List.cons_append]
    rw [hzero.append_drop (by omega) rfl, bigEndian_readField_append (by omega) rfl,
      bigEndian_readField_append (by omega) rfl, bigEndian_readField_append (by omega) rfl,
      bigEndian_readField_append (by omega) rfl, bigEndian_readField_append (by omega) rfl,
      bigEndian_readField_append (by omega) rfl, ← htype, getD_cons_drop (by omega) rfl,
      ← hversion, getD_cons_drop (by omega) rfl, ← hmagic,
      bigEndian_readField_append (by omega) rfl, List.drop_zero]
  have hprefix : bytes.take kWirePayloadSize = encodePayload frame := by
    rw [← hpayload]
    exact List.take_left' (length_encodePayload frame)
  rw [encodeFrame, ← hprefix, ← htag, List.take_append_drop]

end Handoff

/-! ### Receiving -/

/-- A datagram and the address it came from. -/
structure Datagram where
  bytes : List UInt8
  source : Endpoint

/-- What a controller reads from a datagram. -/
def Impl.decode (c : Impl) (datagram : Datagram) : Option Frame :=
  Handoff.decodeFrame c.config.authenticationKey (datagram.bytes.take Handoff.kFrameSize)

/-- One iteration of `receive_all`. -/
def Impl.receive (datagram : Datagram) : HandoffM Unit := do
  match (← get).decode datagram with
  | some frame => handleFrame frame datagram.source
  | none => pure ()

/-- A frame signed under the controller's key is read as it was sent. -/
theorem Impl.decode_encodeFrame (c : Impl) (frame : Frame) (source : Endpoint) :
    c.decode ⟨Handoff.encodeFrame c.config.authenticationKey frame, source⟩ =
      some (Handoff.onWire frame) := by
  have hwhole := List.take_of_length_le
    (Handoff.length_encodeFrame c.config.authenticationKey frame).le
  unfold decode
  dsimp only
  rw [hwhole]
  exact Handoff.decodeFrame_encodeFrame _ _

theorem Impl.receive_encodeFrame (c : Impl) (frame : Frame) (source : Endpoint) :
    receive ⟨Handoff.encodeFrame c.config.authenticationKey frame, source⟩ c =
      handleFrame (Handoff.onWire frame) source c := by
  unfold receive
  rw [Script.bind_apply, Script.get_apply, Prog.ret_bind, c.decode_encodeFrame frame source]

/-- What happens to a station: a datagram is read, the worker ticks, an effect of the controller
happens with the outcome that the environment chose for it, the engine serves, or the controller
is stopped. -/
inductive Input
  | receive (datagram : Datagram)
  | tick (now : ℕ)
  | effect (oracle : Oracle)
  | apply (request : Request)
  | controlLoop
  | raisePeakRequest
  | stop

/-- A process and everything it has sent, oldest first. -/
structure Station where
  node : Node
  sent : List Packet := []

namespace Station

/-- The step of the process that an input causes, and what it sends. -/
def respond (n : Node) : Input → Option (Node × List Packet)
  | .receive datagram => (n.handle (Impl.receive datagram)).map (·, [])
  | .tick now => n.step (.tick now)
  | .effect oracle => n.step (.effect oracle)
  | .apply request => n.step (.apply request)
  | .controlLoop => n.step .controlLoop
  | .raisePeakRequest => n.step .raisePeakRequest
  | .stop => n.step .stop

/-- One input, while the process runs. -/
def step (w : Station) (input : Input) : Option Station :=
  if w.node.up then
    (respond w.node input).map fun result => { node := result.1, sent := w.sent ++ result.2 }
  else none

/-- A sequence of inputs. -/
def run (w : Station) (inputs : List Input) : Option Station := inputs.foldlM step w

end Station

end HotCounter
