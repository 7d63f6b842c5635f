import HotCounter.Foundation.Descriptor
import HotCounter.Handoff.Datagram

/-!
# The journal file

A journal record is a file of 64 bytes: a payload of the same layout as a frame's, under another
magic number, and its tag. `store` writes it to a temporary file in pieces and renames that over
the journal; `load` reads it back in pieces and checks that nothing follows. A system call may be
interrupted, may move fewer bytes than it was asked for, or may fail; the environment decides.

`store` ends as one of the three outcomes that `StoreOutcome` names (`store_outcome`), and `load`
of a stored file gives the record back (`load_encodeRecord`). Frames and records do not mix
(`authenticated_codecs`).
-/

namespace HotCounter

open Foundation

/-- The phase byte of a record. -/
def JournalPhase.toByte : JournalPhase → UInt8
  | .idle => 0
  | .prepared => 1
  | .committed => 2

/-- The phase of a byte, none beyond `Committed`. -/
def JournalPhase.ofByte (byte : UInt8) : Option JournalPhase :=
  if byte = 0 then some .idle
  else if byte = 1 then some .prepared
  else if byte = 2 then some .committed
  else none

namespace HandoffJournal

/-- `kJournalMagic`, the ASCII letters `HCJ1`. -/
def kJournalMagic : ℕ := 0x48434a31

def kJournalVersion : UInt8 := 1

def kJournalPayloadSize : ℕ := 48

def kJournalRecordSize : ℕ := kJournalPayloadSize + ControlAuthenticator.kTagSize

/-! ### Records as bytes -/

/-- The payload that `store` writes; bytes 6, 7 and the last six stay zero. -/
def encodePayload (record : JournalRecord) : List UInt8 :=
  bigEndian 4 kJournalMagic ++ (kJournalVersion :: (record.phase.toByte :: (bigEndian 2 0 ++
    (bigEndian 8 record.term ++ (bigEndian 8 record.state.counter ++
      (bigEndian 8 record.state.epoch ++ (bigEndian 8 record.total ++
        (bigEndian 2 record.strictOwner ++ bigEndian 6 0))))))))

/-- The bytes that `store` writes. -/
def encodeRecord (key : List UInt8) (record : JournalRecord) : List UInt8 :=
  encodePayload record ++ (ControlAuthenticator.sign key (encodePayload record)).toList

/-- The record in some bytes; `load` puts the total in place of the component total. -/
def readRecord (bytes : List UInt8) (phase : JournalPhase) : JournalRecord where
  phase := phase
  term := readField 8 8 bytes
  state := ⟨readField 16 8 bytes, readField 24 8 bytes, readField 32 8 bytes⟩
  total := readField 32 8 bytes
  strictOwner := readField 40 2 bytes

/-- The checks of `load` on the bytes it has read. -/
def decodeRecord (key bytes : List UInt8) : Option JournalRecord :=
  if readField 0 4 bytes ≠ kJournalMagic ∨ bytes.getD 4 0 ≠ kJournalVersion then none
  else
    match JournalPhase.ofByte (bytes.getD 5 0) with
    | none => none
    | some phase =>
      if ControlAuthenticator.verify key (bytes.take kJournalPayloadSize)
          (ControlAuthenticator.copyTo ControlAuthenticator.kTagSize
            (bytes.drop kJournalPayloadSize)) then
        some (readRecord bytes phase)
      else none

/-! ### Reading and writing in pieces -/

/-- `read_exact` on what is left of a file, with the bytes read so far: none while it waits for
the next `read`, then the bytes or failure. -/
def readExact (size : ℕ) : List IoOutcome → (file bytes : List UInt8) →
    Option (Option (List UInt8))
  | [], _, _ => none
  | outcome :: outcomes, file, bytes =>
    if bytes.length < size then
      match outcome with
      | .upTo count =>
        let chunk := file.take (min (count + 1) (size - bytes.length))
        if chunk = [] then some none
        else readExact size outcomes (file.drop chunk.length) (bytes ++ chunk)
      | .interrupted => readExact size outcomes file bytes
      | .failed => some none
    else
      -- one more byte would make the file too long
      match outcome with
      | .upTo _ => if file = [] then some (some bytes) else some none
      | .interrupted => readExact size outcomes file bytes
      | .failed => some none

/-- `HandoffJournal::write_all`. -/
def writeAll : List IoOutcome → (bytes file : List UInt8) → Option (Bool × List UInt8) := writeLoop

/-- `LoadResult`. -/
inductive LoadResult
  | missing
  | loaded (record : JournalRecord)
  | failed
  deriving DecidableEq, Repr

/-- What the system does during a `load`. -/
structure LoadCalls where
  opens : Bool := true
  reads : List IoOutcome
  closes : Bool := true

/-- `load` on the file at the journal's path, none while it waits for a `read`. -/
def load (key : List UInt8) (calls : LoadCalls) : Option (List UInt8) → Option LoadResult
  | none => some (if calls.opens then .missing else .failed)
  | some file =>
    if !calls.opens then some .failed
    else
      match readExact kJournalRecordSize calls.reads file [] with
      | none => none
      | some none => some .failed
      | some (some bytes) =>
        if !calls.closes then some .failed
        else
          match decodeRecord key bytes with
          | none => some .failed
          | some record => some (.loaded record)

/-- What the system does during a `store`. -/
structure StoreCalls where
  creates : Bool := true
  changesMode : Bool := true
  writes : List IoOutcome
  syncs : Bool := true
  closes : Bool := true
  renames : Bool := true
  opensParent : Bool := true
  syncsParent : Bool := true

/-- `store` on the file at the journal's path: what it reports and the file afterwards, none
while it waits for a `write`. -/
def store (key : List UInt8) (calls : StoreCalls) (record : JournalRecord)
    (file : Option (List UInt8)) : Option (Bool × Option (List UInt8)) :=
  if !calls.creates then some (false, file)
  else if !calls.changesMode then some (false, file)
  else
    match writeAll calls.writes (encodeRecord key record) [] with
    | none => none
    | some (written, temporary) =>
      if !written || !calls.syncs || !calls.closes then some (false, file)
      else if !calls.renames then some (false, file)
      else some (calls.opensParent && calls.syncsParent, some temporary)

/-! ### The codec of records -/

/-- The fields have the widths of the source's types. -/
structure InRange (record : JournalRecord) : Prop where
  term : record.term < 2 ^ 64
  counter : record.state.counter < 2 ^ 64
  epoch : record.state.epoch < 2 ^ 64
  total : record.total < 2 ^ 64
  strictOwner : record.strictOwner < 2 ^ 16

theorem ofByte_toByte (phase : JournalPhase) : JournalPhase.ofByte phase.toByte = some phase := by
  cases phase <;> rfl

theorem phaseByte_of_ofByte {byte : UInt8} {phase : JournalPhase}
    (h : JournalPhase.ofByte byte = some phase) : phase.toByte = byte := by
  unfold JournalPhase.ofByte at h
  repeat' split at h
  all_goals cases h
  all_goals exact Eq.symm ‹_›

theorem length_encodePayload (record : JournalRecord) :
    (encodePayload record).length = kJournalPayloadSize := by
  simp [encodePayload, kJournalPayloadSize]

theorem length_encodeRecord (key : List UInt8) (record : JournalRecord) :
    (encodeRecord key record).length = kJournalRecordSize := by
  rw [encodeRecord, List.length_append, length_encodePayload, Vector.length_toList,
    kJournalRecordSize]

/-- **A record is read back as it is kept on disk.** -/
theorem decodeRecord_encodeRecord (key : List UInt8) {record : JournalRecord}
    (h : InRange record) : decodeRecord key (encodeRecord key record) = some record.onDisk := by
  have hmagic : readField 0 4 (encodeRecord key record) = kJournalMagic := by
    rw [encodeRecord, encodePayload, List.append_assoc]
    exact (readField_here 4 kJournalMagic _).trans rfl
  have hversion : (encodeRecord key record).getD 4 0 = kJournalVersion := by
    rw [encodeRecord, encodePayload, List.append_assoc]
    exact getD_skip le_rfl _ _ _
  have hphase : (encodeRecord key record).getD 5 0 = record.phase.toByte := by
    rw [encodeRecord, encodePayload, List.append_assoc]
    exact getD_skip (Nat.le_succ 4) _ _ _
  have hheader : ¬(readField 0 4 (encodeRecord key record) ≠ kJournalMagic ∨
      (encodeRecord key record).getD 4 0 ≠ kJournalVersion) := by
    rintro (hne | hne)
    · exact hne hmagic
    · exact hne hversion
  have hpayload : (encodeRecord key record).take kJournalPayloadSize = encodePayload record :=
    List.take_left' (length_encodePayload record)
  have hdrop : (encodeRecord key record).drop kJournalPayloadSize =
      (ControlAuthenticator.sign key (encodePayload record)).toList :=
    List.drop_left' (length_encodePayload record)
  have htag : ControlAuthenticator.verify key
      ((encodeRecord key record).take kJournalPayloadSize)
      (ControlAuthenticator.copyTo ControlAuthenticator.kTagSize
        ((encodeRecord key record).drop kJournalPayloadSize)) = true := by
    rw [ControlAuthenticator.verify_eq_true_iff, hpayload, hdrop]
    exact Vector.toList_inj.mp (ControlAuthenticator.toList_copyTo (by simp))
  have hfields : readRecord (encodeRecord key record) record.phase = record.onDisk := by
    simpa [readRecord, encodeRecord, encodePayload, JournalRecord.onDisk, readField_skip,
      readField_cons, readField_here] using
      And.intro h.term (And.intro (And.intro h.counter (And.intro h.epoch h.total))
        (And.intro h.total h.strictOwner))
  rw [decodeRecord, if_neg hheader, hphase, ofByte_toByte]
  dsimp only
  rw [if_pos htag, hfields]

/-- What an accepted byte string looks like. -/
theorem header_of_decodeRecord {key bytes : List UInt8} {record : JournalRecord}
    (hsize : bytes.length = kJournalRecordSize) (h : decodeRecord key bytes = some record) :
    readField 0 4 bytes = kJournalMagic ∧ bytes.getD 4 0 = kJournalVersion ∧
      bytes.getD 5 0 = record.phase.toByte ∧ record = readRecord bytes record.phase ∧
      bytes.drop kJournalPayloadSize =
        (ControlAuthenticator.sign key (bytes.take kJournalPayloadSize)).toList := by
  unfold decodeRecord at h
  split at h
  · cases h
  rename_i hheader
  simp only [not_or, not_not] at hheader
  obtain ⟨hmagic, hversion⟩ := hheader
  split at h
  · cases h
  rename_i phase hphase
  split at h
  · rename_i htag
    obtain rfl := Option.some.inj h
    rw [ControlAuthenticator.verify_eq_true_iff] at htag
    have hlength : (bytes.drop kJournalPayloadSize).length = ControlAuthenticator.kTagSize := by
      rw [List.length_drop, hsize, kJournalRecordSize, Nat.add_sub_cancel_left]
    exact ⟨hmagic, hversion, (phaseByte_of_ofByte hphase).symm, rfl,
      (ControlAuthenticator.toList_copyTo hlength).symm.trans (congrArg Vector.toList htag)⟩
  · cases h

/-- **Encoding reproduces an accepted string** whose reserved bytes are zero. -/
theorem encodeRecord_of_decodeRecord {key bytes : List UInt8} {record : JournalRecord}
    (hsize : bytes.length = kJournalRecordSize) (h : decodeRecord key bytes = some record)
    (hzero : ZeroBetween 6 8 bytes) (htail : ZeroBetween 42 48 bytes) :
    encodeRecord key record = bytes := by
  obtain ⟨hmagic, hversion, hphase, hfields, htag⟩ := header_of_decodeRecord hsize h
  have hsize' : bytes.length = 64 := hsize
  have hpayload : encodePayload record ++ bytes.drop 48 = bytes := by
    rw [hfields, encodePayload, readRecord]
    simp only [List.append_assoc, List.cons_append]
    rw [htail.append_drop (by omega) rfl, bigEndian_readField_append (by omega) rfl,
      bigEndian_readField_append (by omega) rfl, bigEndian_readField_append (by omega) rfl,
      bigEndian_readField_append (by omega) rfl, bigEndian_readField_append (by omega) rfl,
      hzero.append_drop (by omega) rfl, ← hphase, getD_cons_drop (by omega) rfl, ← hversion,
      getD_cons_drop (by omega) rfl, ← hmagic, bigEndian_readField_append (by omega) rfl,
      List.drop_zero]
  have hprefix : bytes.take kJournalPayloadSize = encodePayload record := by
    rw [← hpayload]
    exact List.take_left' (length_encodePayload record)
  rw [encodeRecord, ← hprefix, ← htag, List.take_append_drop]

/-! ### Reading and writing, whatever the pieces -/

/-- What `read_exact` returns is the whole file, and has the size asked for. -/
theorem readExact_sound : ∀ {outcomes : List IoOutcome} {size : ℕ} {file bytes result : List UInt8},
    bytes.length ≤ size → readExact size outcomes file bytes = some (some result) →
      result = bytes ++ file ∧ result.length = size
  | [], _, _, _, _, _, h => absurd h nofun
  | outcome :: outcomes, size, file, bytes, result, hle, h => by
    unfold readExact at h
    split at h
    · rename_i hlt
      cases outcome with
      | upTo count =>
        dsimp only at h
        split at h
        · cases h
        · have hchunk : (file.take (min (count + 1) (size - bytes.length))).length ≤
              size - bytes.length := (List.length_take_le _ _).trans (Nat.min_le_right _ _)
          obtain ⟨hresult, hlength⟩ := readExact_sound (by
            rw [List.length_append]
            omega) h
          refine ⟨?_, hlength⟩
          rw [hresult, List.append_assoc, take_append_drop_length]
      | interrupted => exact readExact_sound hle h
      | failed => cases h
    · cases outcome with
      | upTo count =>
        dsimp only at h
        split at h
        · rename_i hempty
          obtain rfl := Option.some.inj (Option.some.inj h)
          rw [hempty, List.append_nil]
          exact ⟨rfl, by omega⟩
        · cases h
      | interrupted => exact readExact_sound hle h
      | failed => cases h

/-- Without a failing call, one call more than there are bytes is enough for `read_exact`. -/
theorem readExact_complete : ∀ {outcomes : List IoOutcome} {size : ℕ} {file bytes : List UInt8},
    bytes.length + file.length = size → .failed ∉ outcomes →
      file.length < outcomes.countP IoOutcome.moves →
      readExact size outcomes file bytes = some (some (bytes ++ file))
  | [], _, _, _, _, _, hcalls => absurd hcalls (Nat.not_lt_zero _)
  | outcome :: outcomes, size, file, bytes, hsize, hfail, hcalls => by
    have hfail' : .failed ∉ outcomes := fun h => hfail (List.mem_cons_of_mem _ h)
    cases outcome with
    | failed => exact absurd List.mem_cons_self hfail
    | interrupted =>
      rw [List.countP_cons_of_neg (by simp [IoOutcome.moves])] at hcalls
      unfold readExact
      rw [readExact_complete hsize hfail' hcalls, ite_self]
    | upTo count =>
      rw [List.countP_cons_of_pos rfl] at hcalls
      unfold readExact
      by_cases hlt : bytes.length < size
      · rw [if_pos hlt]
        dsimp only
        set chunk := file.take (min (count + 1) (size - bytes.length)) with hchunk
        have hlength : chunk.length = min (min (count + 1) (size - bytes.length)) file.length :=
          List.length_take
        have hne : chunk ≠ [] := by
          rw [← List.length_pos_iff]
          omega
        have hfile : chunk ++ file.drop chunk.length = file := take_append_drop_length _ _
        rw [if_neg hne, readExact_complete (by
          rw [List.length_append, List.length_drop]
          omega) hfail' (by
          rw [List.length_drop]
          omega), List.append_assoc, hfile]
      · rw [if_neg hlt]
        have hempty : file = [] := List.length_eq_zero_iff.mp (by omega)
        rw [hempty, List.append_nil]
        rfl

/-- A file of 64 bytes, written byte by byte with an interruption. -/
private theorem writeAll_bytewise {bytes : List UInt8} (h : bytes.length = kJournalRecordSize) :
    writeAll (.interrupted :: List.replicate 64 (.upTo 0)) bytes [] = some (true, bytes) := by
  have hcalls : bytes.length ≤
      (IoOutcome.interrupted :: List.replicate 64 (.upTo 0)).countP IoOutcome.moves := by
    rw [h]
    decide
  exact writeLoop_complete (by decide) hcalls

/-- When every other call succeeds, `store` keeps what `write_all` has written. -/
private theorem store_of_writeAll {key : List UInt8} {record : JournalRecord}
    {writes : List IoOutcome} {bytes : List UInt8}
    (hwrite : writeAll writes (encodeRecord key record) [] = some (true, bytes))
    (file : Option (List UInt8)) :
    store key { writes := writes } record file = some (true, some bytes) := by
  simp only [store, hwrite, Bool.not_true, Bool.or_self, Bool.false_eq_true, if_false,
    Bool.and_self]

/-- **A `store` ends in one of the outcomes of `StoreOutcome`**: the file is the old one or the
whole new record, and success is reported only for the new record. -/
theorem store_outcome {key : List UInt8} {calls : StoreCalls} {record : JournalRecord}
    {file file' : Option (List UInt8)} {reported : Bool}
    (h : store key calls record file = some (reported, file')) :
    ∃ outcome : StoreOutcome, reported = outcome.reported ∧
      file' = match outcome with
        | .failedBefore => file
        | .stored | .failedAfter => some (encodeRecord key record) := by
  unfold store at h
  split at h
  · obtain ⟨rfl, rfl⟩ := Prod.mk.inj (Option.some.inj h)
    exact ⟨.failedBefore, rfl, rfl⟩
  split at h
  · obtain ⟨rfl, rfl⟩ := Prod.mk.inj (Option.some.inj h)
    exact ⟨.failedBefore, rfl, rfl⟩
  split at h
  · cases h
  rename_i written temporary hwrite
  split at h
  · obtain ⟨rfl, rfl⟩ := Prod.mk.inj (Option.some.inj h)
    exact ⟨.failedBefore, rfl, rfl⟩
  rename_i hdurable
  split at h
  · obtain ⟨rfl, rfl⟩ := Prod.mk.inj (Option.some.inj h)
    exact ⟨.failedBefore, rfl, rfl⟩
  obtain ⟨rfl, rfl⟩ := Prod.mk.inj (Option.some.inj h)
  have hwritten : written = true := by
    by_contra hfalse
    simp [hfalse] at hdurable
  subst hwritten
  have hfile : temporary = encodeRecord key record := by
    rw [writeLoop_sound hwrite, List.nil_append]
  rw [hfile]
  cases hparent : calls.opensParent && calls.syncsParent with
  | true => exact ⟨.stored, rfl, rfl⟩
  | false => exact ⟨.failedAfter, rfl, rfl⟩

/-- The calls of a `load` that runs to its end: the file can be opened and closed, no `read`
fails, and there is a call for every byte and for the end of the file. -/
structure LoadCalls.Complete (calls : LoadCalls) : Prop where
  opens : calls.opens = true
  closes : calls.closes = true
  no_failure : .failed ∉ calls.reads
  enough : kJournalRecordSize < calls.reads.countP IoOutcome.moves

/-- A `load` that runs to its end on a file of the right size reports what is in it. -/
theorem load_of_decodeRecord {key file : List UInt8} {calls : LoadCalls}
    {record : JournalRecord} (hcalls : calls.Complete)
    (hsize : file.length = kJournalRecordSize) (hdecode : decodeRecord key file = some record) :
    load key calls (some file) = some (.loaded record) := by
  have hread : readExact kJournalRecordSize calls.reads file [] = some (some file) := by
    have hlength : ([] : List UInt8).length + file.length = kJournalRecordSize := by
      rw [List.length_nil, Nat.zero_add, hsize]
    have hcount : file.length < calls.reads.countP IoOutcome.moves := by
      rw [hsize]
      exact hcalls.enough
    exact readExact_complete hlength hcalls.no_failure hcount
  simp only [load, hcalls.opens, hcalls.closes, hread, hdecode, Bool.not_true,
    Bool.false_eq_true, if_false]

/-- **A stored record is loaded again**, in whatever pieces the file is read. -/
theorem load_encodeRecord {key : List UInt8} {calls : LoadCalls} (hcalls : calls.Complete)
    {record : JournalRecord} (h : InRange record) :
    load key calls (some (encodeRecord key record)) = some (.loaded record.onDisk) :=
  load_of_decodeRecord hcalls (length_encodeRecord key record) (decodeRecord_encodeRecord key h)

/-- A `load` that succeeds has read and accepted the whole file. -/
theorem decodeRecord_of_load {key : List UInt8} {calls : LoadCalls} {file : List UInt8}
    {record : JournalRecord} (h : load key calls (some file) = some (.loaded record)) :
    file.length = kJournalRecordSize ∧ decodeRecord key file = some record := by
  simp only [load] at h
  split at h
  · cases h
  split at h
  · cases h
  · cases h
  rename_i bytes hread
  split at h
  · cases h
  split at h
  · cases h
  rename_i found hdecode
  obtain rfl := LoadResult.loaded.inj (Option.some.inj h)
  obtain ⟨hbytes, hlength⟩ := readExact_sound (Nat.zero_le _) hread
  rw [List.nil_append] at hbytes
  subst hbytes
  exact ⟨hlength, hdecode⟩

/-- **The authenticated codecs round-trip and do not mix.** Frames and records in range are read
back from what was written, a record in whatever pieces the file is written and read. An accepted
string has the exact size, magic, version and type or phase, carries the tag of its first 48
bytes, and is reproduced by the encoder if its reserved bytes are zero. No string is accepted both
as a frame and as a record. -/
theorem authenticated_codecs (key : List UInt8) :
    (∀ frame, Handoff.InRange frame →
      Handoff.decodeFrame key (Handoff.encodeFrame key frame) = some frame) ∧
    (∀ record storeCalls old file loadCalls, InRange record →
      store key storeCalls record old = some (true, file) → loadCalls.Complete →
      load key loadCalls file = some (.loaded ⟨record.phase, record.term,
        ⟨record.state.counter, record.state.epoch, record.total⟩, record.total,
        record.strictOwner⟩)) ∧
    (∀ bytes frame, Handoff.decodeFrame key bytes = some frame →
      bytes.length = 64 ∧ readField 0 4 bytes = Handoff.kMagic ∧
        bytes.getD 4 0 = Handoff.kVersion ∧ bytes.getD 5 0 = frame.type.toByte ∧
        bytes.drop 48 = (ControlAuthenticator.sign key (bytes.take 48)).toList ∧
        (ZeroBetween 42 48 bytes → Handoff.encodeFrame key frame = bytes)) ∧
    (∀ bytes calls record, load key calls (some bytes) = some (.loaded record) →
      bytes.length = 64 ∧ readField 0 4 bytes = kJournalMagic ∧
        bytes.getD 4 0 = kJournalVersion ∧ bytes.getD 5 0 = record.phase.toByte ∧
        bytes.drop 48 = (ControlAuthenticator.sign key (bytes.take 48)).toList ∧
        (ZeroBetween 6 8 bytes → ZeroBetween 42 48 bytes → encodeRecord key record = bytes)) ∧
    ∀ bytes frame key' calls record, Handoff.decodeFrame key bytes = some frame →
      load key' calls (some bytes) ≠ some (.loaded record) := by
  refine ⟨fun frame h => ?_, fun record storeCalls old file loadCalls h hstore hcalls => ?_,
    fun bytes frame h => ?_, fun bytes calls record h => ?_,
    fun bytes frame key' calls record hframe hload => ?_⟩
  · rw [Handoff.decodeFrame_encodeFrame, h.onWire_eq]
  · obtain ⟨outcome, hreported, rfl⟩ := store_outcome hstore
    cases outcome with
    | stored => exact load_encodeRecord hcalls h
    | failedBefore | failedAfter => exact absurd hreported nofun
  · obtain ⟨hsize, hmagic, hversion, htype, -, htag⟩ := Handoff.header_of_decodeFrame h
    exact ⟨hsize, hmagic, hversion, htype, htag, Handoff.encodeFrame_of_decodeFrame h⟩
  · obtain ⟨hsize, hdecode⟩ := decodeRecord_of_load h
    obtain ⟨hmagic, hversion, hphase, -, htag⟩ := header_of_decodeRecord hsize hdecode
    exact ⟨hsize, hmagic, hversion, hphase, htag, encodeRecord_of_decodeRecord hsize hdecode⟩
  · obtain ⟨-, hmagic, -⟩ := Handoff.header_of_decodeFrame hframe
    obtain ⟨hsize, hdecode⟩ := decodeRecord_of_load hload
    obtain ⟨hmagic', -⟩ := header_of_decodeRecord hsize hdecode
    exact absurd (hmagic.symm.trans hmagic') (by decide)

/-- A committed record at the ends of its ranges. -/
def lastRecord : JournalRecord := ⟨.committed, 2 ^ 64 - 1, ⟨17, 0, 5⟩, 100, 65535⟩

theorem inRange_lastRecord : InRange lastRecord :=
  ⟨by decide, by decide, by decide, by decide, by decide⟩

/-- The record is stored and loaded byte by byte, with interruptions. -/
theorem authenticated_codecs_committed :
    ∃ file, store [1, 2, 3]
        { writes := .interrupted :: List.replicate 64 (.upTo 0) } lastRecord none =
        some (true, file) ∧
      load [1, 2, 3] { reads := .interrupted :: List.replicate 65 (.upTo 0) } file =
        some (.loaded ⟨.committed, 2 ^ 64 - 1, ⟨17, 0, 100⟩, 100, 65535⟩) := by
  have hwrite := writeAll_bytewise (length_encodeRecord [1, 2, 3] lastRecord)
  have hstore := store_of_writeAll hwrite none
  have hload := (authenticated_codecs [1, 2, 3]).2.1 lastRecord
    { writes := .interrupted :: List.replicate 64 (.upTo 0) } none _
    { reads := .interrupted :: List.replicate 65 (.upTo 0) } inRange_lastRecord hstore
    ⟨rfl, rfl, by decide, by decide⟩
  exact ⟨_, hstore, hload⟩

end HandoffJournal

end HotCounter
