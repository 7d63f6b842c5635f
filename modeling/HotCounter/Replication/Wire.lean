import HotCounter.Counter.Types
import HotCounter.Foundation.Bytes

/-!
# Replication frames

The 40-byte frames of the replicator: a magic number, a version, the frame type, and five
big-endian fields. The component of a snapshot is written into 16 bits. What `decodeFrame`
accepts is exactly a 40-byte string with the right header, and it reads back every frame that
`encodeFrame` wrote, with each field reduced to its width.
-/

namespace HotCounter

namespace Replication

open Foundation

/-- `kMagic`, the ASCII letters `CPC1`. -/
def kMagic : ℕ := 0x43504331

def kVersion : UInt8 := 1

def kFrameSize : ℕ := 40

/-- `WireType` of the replicator. -/
inductive WireType
  | snapshot
  | ack
  deriving DecidableEq, Repr

def WireType.toByte : WireType → UInt8
  | .snapshot => 1
  | .ack => 2

/-- `DecodedFrame`. -/
structure Frame where
  type : WireType
  component : ℕ
  sequence : ℕ
  counter : ℕ
  epoch : ℕ
  value : ℕ
  deriving DecidableEq, Repr

/-- `encode_frame`. -/
def encodeFrame (frame : Frame) : List UInt8 :=
  bigEndian 4 kMagic ++ (kVersion :: (frame.type.toByte :: (bigEndian 2 frame.component ++
    (bigEndian 8 frame.sequence ++ (bigEndian 8 frame.counter ++ (bigEndian 8 frame.epoch ++
      bigEndian 8 frame.value))))))

/-- The fields of a frame of a given type. -/
def readFields (type : WireType) (bytes : List UInt8) : Frame :=
  ⟨type, readField 6 2 bytes, readField 8 8 bytes, readField 16 8 bytes, readField 24 8 bytes,
    readField 32 8 bytes⟩

/-- `decode_frame`. -/
def decodeFrame (bytes : List UInt8) : Option Frame :=
  if bytes.length ≠ kFrameSize ∨ readField 0 4 bytes ≠ kMagic ∨ bytes.getD 4 0 ≠ kVersion then
    none
  else if bytes.getD 5 0 = WireType.snapshot.toByte then some (readFields .snapshot bytes)
  else if bytes.getD 5 0 = WireType.ack.toByte then some (readFields .ack bytes)
  else none

/-- The frame with every field reduced to its width on the wire. -/
def Frame.onWire (frame : Frame) : Frame :=
  { frame with
    component := frame.component % 2 ^ 16
    sequence := frame.sequence % 2 ^ 64
    counter := frame.counter % 2 ^ 64
    epoch := frame.epoch % 2 ^ 64
    value := frame.value % 2 ^ 64 }

/-- The fields have the widths of the source's types. -/
structure Frame.InRange (frame : Frame) : Prop where
  component : frame.component < 2 ^ 16
  sequence : frame.sequence < 2 ^ 64
  counter : frame.counter < 2 ^ 64
  epoch : frame.epoch < 2 ^ 64
  value : frame.value < 2 ^ 64

theorem Frame.InRange.onWire_eq {frame : Frame} (h : frame.InRange) : frame.onWire = frame := by
  unfold onWire
  rw [Nat.mod_eq_of_lt h.component, Nat.mod_eq_of_lt h.sequence, Nat.mod_eq_of_lt h.counter,
    Nat.mod_eq_of_lt h.epoch, Nat.mod_eq_of_lt h.value]

theorem length_encodeFrame (frame : Frame) : (encodeFrame frame).length = kFrameSize := by
  simp [encodeFrame, kFrameSize]

/-- **Decoding undoes encoding**, up to the widths of the fields. -/
theorem decodeFrame_encodeFrame (frame : Frame) :
    decodeFrame (encodeFrame frame) = some frame.onWire := by
  have hsize : (encodeFrame frame).length = kFrameSize := length_encodeFrame frame
  have hmagic : readField 0 4 (encodeFrame frame) = kMagic :=
    (readField_here 4 kMagic _).trans rfl
  have hversion : (encodeFrame frame).getD 4 0 = kVersion := getD_skip le_rfl _ _ _
  have htype : (encodeFrame frame).getD 5 0 = frame.type.toByte :=
    getD_skip (Nat.le_succ 4) _ _ _
  have hfields : readFields frame.type (encodeFrame frame) = frame.onWire := by
    simp [readFields, encodeFrame, Frame.onWire, readField_skip, readField_cons, readField_here,
      readField_last]
  have hheader : ¬((encodeFrame frame).length ≠ kFrameSize ∨
      readField 0 4 (encodeFrame frame) ≠ kMagic ∨ (encodeFrame frame).getD 4 0 ≠ kVersion) := by
    rintro (h | h | h)
    · exact h hsize
    · exact h hmagic
    · exact h hversion
  rw [decodeFrame, if_neg hheader, htype, ← hfields]
  cases frame.type with
  | snapshot => rw [if_pos rfl]
  | ack => rw [if_neg (by decide), if_pos rfl]

/-- A frame of the size of the buffer is received whole. -/
theorem decodeFrame_take_encodeFrame (frame : Frame) :
    decodeFrame ((encodeFrame frame).take kFrameSize) = some frame.onWire := by
  rw [List.take_of_length_le (length_encodeFrame frame).le, decodeFrame_encodeFrame]

/-- Every received frame is read from the fields of its bytes. -/
theorem decodeFrame_eq_some {bytes : List UInt8} {frame : Frame}
    (h : decodeFrame bytes = some frame) : frame = readFields frame.type bytes := by
  unfold decodeFrame at h
  split at h
  · cases h
  · split at h
    · obtain rfl := Option.some.inj h
      rfl
    · split at h
      · obtain rfl := Option.some.inj h
        rfl
      · cases h

/-- A received component fits into 16 bits. -/
theorem component_lt_of_decodeFrame {bytes : List UInt8} {frame : Frame}
    (h : decodeFrame bytes = some frame) : frame.component < 2 ^ 16 := by
  rw [decodeFrame_eq_some h]
  exact readField_lt 6 2 bytes

/-- A received sequence number fits into 64 bits. -/
theorem sequence_lt_of_decodeFrame {bytes : List UInt8} {frame : Frame}
    (h : decodeFrame bytes = some frame) : frame.sequence < 2 ^ 64 := by
  rw [decodeFrame_eq_some h]
  exact readField_lt 8 8 bytes

/-- The header of an accepted frame. -/
theorem header_of_decodeFrame {bytes : List UInt8} {frame : Frame}
    (h : decodeFrame bytes = some frame) :
    bytes.length = kFrameSize ∧ readField 0 4 bytes = kMagic ∧ bytes.getD 4 0 = kVersion ∧
      bytes.getD 5 0 = frame.type.toByte := by
  unfold decodeFrame at h
  split at h
  · cases h
  rename_i hheader
  simp only [not_or, not_not] at hheader
  obtain ⟨hsize, hmagic, hversion⟩ := hheader
  split at h
  · rename_i htype
    obtain rfl := Option.some.inj h
    exact ⟨hsize, hmagic, hversion, htype⟩
  · split at h
    · rename_i htype
      obtain rfl := Option.some.inj h
      exact ⟨hsize, hmagic, hversion, htype⟩
    · cases h

/-- **Encoding undoes decoding**: every byte of a frame is used. -/
theorem encodeFrame_of_decodeFrame {bytes : List UInt8} {frame : Frame}
    (h : decodeFrame bytes = some frame) : encodeFrame frame = bytes := by
  obtain ⟨hsize, hmagic, hversion, htype⟩ := header_of_decodeFrame h
  have hlast : bigEndian 8 (readField 32 8 bytes) = bytes.drop 32 := by
    rw [bigEndian_readField (by rw [hsize]; decide), List.take_of_length_le]
    rw [List.length_drop, hsize]
    decide
  rw [kFrameSize] at hsize
  rw [decodeFrame_eq_some h, encodeFrame, readFields]
  dsimp only
  rw [hlast, bigEndian_readField_append (by omega) rfl, bigEndian_readField_append (by omega) rfl,
    bigEndian_readField_append (by omega) rfl, bigEndian_readField_append (by omega) rfl,
    ← htype, getD_cons_drop (by omega) rfl, ← hversion, getD_cons_drop (by omega) rfl, ← hmagic,
    bigEndian_readField_append (by omega) rfl, List.drop_zero]

end Replication

end HotCounter
