import HotCounter.Auth.Authenticator
import HotCounter.Foundation.SecureHash

/-!
# The authenticator computes the standards

`Sha256` against the hash of FIPS 180-4 and `sign` against the HMAC of RFC 2104.

`transform` computes the compression function on the bytes of its block (`value_transform`).
A hash in use is followed by a `Trace` that records each index into the buffer and each block
given to `transform`. The bytes fed so far are the recorded blocks and the used part of the buffer
(`Trace.Follows`), so after `final` the recorded blocks are the padded message.
-/

namespace HotCounter

open Foundation

/-! ### One block -/

namespace Sha256Words

/-- The words as a hash value of the standard. -/
def value (v : Sha256Words) : Sha2.HashValue :=
  ⟨v.a.toBitVec, v.b.toBitVec, v.c.toBitVec, v.d.toBitVec, v.e.toBitVec, v.f.toBitVec,
    v.g.toBitVec, v.h.toBitVec⟩

theorem value_initial : initial.value = Sha2.HashValue.initial := by
  rw [value, Sha2.HashValue.initial, Sha2.HashValue.mk.injEq]
  decide +kernel

theorem value_add (v w : Sha256Words) : (v.add w).value = v.value.add w.value := rfl

end Sha256Words

/-- `rotate_right` rotates, for an amount that does not shift everything out. -/
theorem toBitVec_rotateRight (value amount : UInt32) (hpos : 0 < amount.toNat)
    (hlt : amount.toNat < 32) :
    (rotateRight value amount).toBitVec = value.toBitVec.rotateRight amount.toNat := by
  rw [rotateRight, UInt32.toBitVec_or, BitVec.rotateRight_def, Nat.mod_eq_of_lt hlt]
  congr 1
  · apply BitVec.eq_of_toNat_eq
    simp [Nat.mod_eq_of_lt hlt]
  · apply BitVec.eq_of_toNat_eq
    have hmod : (4294967296 - amount.toNat) % 32 = 32 - amount.toNat := by omega
    simp [hmod]

theorem Sha256Words.value_round (v : Sha256Words) (constant word : UInt32) :
    (v.round constant word).value = v.value.round constant.toBitVec word.toBitVec := by
  have hrotate : ∀ (x amount : UInt32), 0 < amount.toNat → amount.toNat < 32 →
      (rotateRight x amount).toBitVec = x.toBitVec.rotateRight amount.toNat :=
    toBitVec_rotateRight
  simp only [round, value, Sha2.HashValue.round, Sha2.bigSigma0, Sha2.bigSigma1, Sha2.ch, Sha2.maj,
    UInt32.toBitVec_add, UInt32.toBitVec_xor, UInt32.toBitVec_and, UInt32.toBitVec_not]
  rw [hrotate v.e 6 (by decide) (by decide), hrotate v.e 11 (by decide) (by decide),
    hrotate v.e 25 (by decide) (by decide), hrotate v.a 2 (by decide) (by decide),
    hrotate v.a 13 (by decide) (by decide), hrotate v.a 22 (by decide) (by decide)]
  rfl

/-- Four bytes as a word. -/
theorem toNat_wordOfBytes (b0 b1 b2 b3 : UInt8) :
    (wordOfBytes b0 b1 b2 b3).toNat = ofBigEndian [b0, b1, b2, b3] := by
  have h0 := b0.toNat_lt
  have h1 := b1.toNat_lt
  have h2 := b2.toNat_lt
  have h3 := b3.toNat_lt
  have hor : ∀ (b : UInt8) (i low : ℕ), low < 2 ^ i →
      b.toNat <<< i ||| low = b.toNat * 2 ^ i + low :=
    fun b i low h => by rw [← Nat.shiftLeft_add_eq_or_of_lt h, Nat.shiftLeft_eq]
  have hshift : ∀ {b : UInt8} {i : ℕ}, i ≤ 24 → b.toNat <<< i % 4294967296 = b.toNat <<< i := by
    intro b i hi
    refine Nat.mod_eq_of_lt ?_
    calc b.toNat <<< i = b.toNat * 2 ^ i := Nat.shiftLeft_eq _ _
      _ ≤ 255 * 2 ^ 24 := Nat.mul_le_mul (Nat.le_of_lt_succ b.toNat_lt)
        (Nat.pow_le_pow_right (by decide) hi)
      _ < 4294967296 := by decide
  simp only [wordOfBytes, UInt32.toNat_or, UInt32.toNat_shiftLeft, UInt8.toNat_toUInt32,
    UInt32.reduceToNat, Nat.reducePow, Nat.reduceMod, Nat.lor_assoc]
  rw [hshift (le_refl 24), hshift (by decide : 16 ≤ 24), hshift (by decide : 8 ≤ 24),
    hor b2 8 _ h3, hor b1 16 _ (by omega), hor b0 24 _ (by omega)]
  simp only [ofBigEndian, List.foldl_cons, List.foldl_nil]
  omega

/-- The code writes a word with the most significant byte first. -/
theorem bytesOfWord_eq (w : UInt32) : bytesOfWord w = bigEndian 4 w.toBitVec.toNat := by
  have hbyte : ∀ (n : ℕ) (v : UInt32), v.toNat = n → v.toUInt8 = UInt8.ofNat n := by
    rintro _ v rfl
    rfl
  simp only [bytesOfWord, bigEndian, UInt32.toNat_toBitVec]
  rw [hbyte (w.toNat / 256 ^ 3) (w >>> 24) (by simp [Nat.shiftRight_eq_div_pow]),
    hbyte (w.toNat / 256 ^ 2) (w >>> 16) (by simp [Nat.shiftRight_eq_div_pow]),
    hbyte (w.toNat / 256 ^ 1) (w >>> 8) (by simp [Nat.shiftRight_eq_div_pow]),
    hbyte (w.toNat / 256 ^ 0) w (by simp)]

/-- A write to one entry, seen at another. -/
theorem getD_setIfInBounds {α : Type*} {size : ℕ} (xs : Vector α size) {i : ℕ} (h : i < size)
    (x d : α) (j : ℕ) :
    (xs.setIfInBounds i x).getD j d = if i = j then x else xs.getD j d := by
  simp only [Vector.getD, Vector.toArray_setIfInBounds, Array.getD_eq_getD_getElem?,
    Array.getElem?_setIfInBounds, Vector.size_toArray, h, if_true]
  split <;> rfl

/-- A loop that writes one entry after another. -/
theorem getD_foldl_setIfInBounds {α : Type*} {size : ℕ} (f : ℕ → α) (xs : Vector α size) (d : α)
    (j : ℕ) {n : ℕ} (h : n ≤ size) :
    ((List.range n).foldl (fun xs i => xs.setIfInBounds i (f i)) xs).getD j d =
      if j < n then f j else xs.getD j d := by
  induction n with
  | zero => rfl
  | succ n ih =>
    rw [List.range_succ, List.foldl_append, List.foldl_cons, List.foldl_nil,
      getD_setIfInBounds _ (by omega), ih (by omega)]
    split_ifs with h₁ h₂ h₃ h₄
    · rw [h₁]
    · omega
    · rfl
    · omega
    · omega
    · rfl

namespace Sha256

/-- The words read from a block. -/
theorem getD_loadWords (block : Vector UInt8 64) {t : ℕ} (h : t < 16) :
    ((loadWords block).getD t 0).toBitVec = BitVec.ofNat 32 (readField (4 * t) 4 block.toList) := by
  have hbyte : ∀ j, block.getD j 0 = block.toList.getD j 0 := by
    intro j
    simp [Vector.getD, Array.getD_eq_getD_getElem?, List.getD_eq_getElem?_getD]
  have hlength : block.toList.length = 64 := Vector.length_toList
  have hfour : (block.toList.drop (4 * t)).take 4 =
      [block.toList.getD (t * 4) 0, block.toList.getD (t * 4 + 1) 0,
        block.toList.getD (t * 4 + 2) 0, block.toList.getD (t * 4 + 3) 0] := by
    rw [Nat.mul_comm 4 t, ← getD_cons_drop (by omega) rfl, ← getD_cons_drop (by omega) rfl,
      ← getD_cons_drop (by omega) rfl, ← getD_cons_drop (by omega) rfl]
    rfl
  have hlt := readField_lt (4 * t) 4 block.toList
  rw [readField, hfour, show 256 ^ 4 = 2 ^ 32 from rfl] at hlt
  rw [loadWords, getD_foldl_setIfInBounds _ _ _ _ (by decide), if_pos h, readField, hfour]
  apply BitVec.eq_of_toNat_eq
  rw [UInt32.toNat_toBitVec, toNat_wordOfBytes, hbyte, hbyte, hbyte, hbyte, BitVec.toNat_ofNat,
    Nat.mod_eq_of_lt hlt]

/-- The rotations and the shift of the first schedule term. -/
theorem toBitVec_smallSigma0 (w : UInt32) :
    (rotateRight w 7 ^^^ rotateRight w 18 ^^^ (w >>> 3)).toBitVec =
      Sha2.smallSigma0 w.toBitVec := by
  rw [UInt32.toBitVec_xor, UInt32.toBitVec_xor, toBitVec_rotateRight w 7 (by decide) (by decide),
    toBitVec_rotateRight w 18 (by decide) (by decide)]
  rfl

/-- The rotations and the shift of the second schedule term. -/
theorem toBitVec_smallSigma1 (w : UInt32) :
    (rotateRight w 17 ^^^ rotateRight w 19 ^^^ (w >>> 10)).toBitVec =
      Sha2.smallSigma1 w.toBitVec := by
  rw [UInt32.toBitVec_xor, UInt32.toBitVec_xor, toBitVec_rotateRight w 17 (by decide) (by decide),
    toBitVec_rotateRight w 19 (by decide) (by decide)]
  rfl

/-- The schedule of the standard, as far as the loop has come. -/
theorem getD_extendWords (block : Vector UInt8 64) {n : ℕ} (hn : n ≤ 48) :
    ∀ t < 16 + n, (((List.range' 16 n).foldl extendWords (loadWords block)).getD t 0).toBitVec =
      Sha2.schedule block.toList t := by
  induction n with
  | zero =>
    intro t ht
    rw [List.range'_zero, List.foldl_nil, getD_loadWords block ht, Sha2.schedule, if_pos ht]
  | succ n ih =>
    intro t ht
    have hwords := ih (by omega)
    rw [List.range'_concat, List.foldl_append, List.foldl_cons, List.foldl_nil, Nat.one_mul,
      extendWords, getD_setIfInBounds _ (by omega)]
    split
    · -- the new word, from four of the words before it
      rename_i heq
      subst heq
      rw [UInt32.toBitVec_add, UInt32.toBitVec_add, UInt32.toBitVec_add, toBitVec_smallSigma0,
        toBitVec_smallSigma1, hwords _ (by omega), hwords _ (by omega), hwords _ (by omega),
        hwords _ (by omega)]
      conv_rhs => rw [Sha2.schedule, if_neg (by omega)]
      abel
    · exact hwords t (by omega)

/-- Every word of the schedule that the code builds is that of the standard. -/
theorem getD_schedule (block : Vector UInt8 64) {t : ℕ} (h : t < 64) :
    ((schedule block).getD t 0).toBitVec = Sha2.schedule block.toList t :=
  getD_extendWords block (le_refl 48) t h

/-- The table holds the constants of the standard. -/
theorem toBitVec_kRoundConstants (t : ℕ) :
    (kRoundConstants.getD t 0).toBitVec = Sha2.constants.getD t 0 := by
  have htable : Sha2.constants = kRoundConstants.toList.map UInt32.toBitVec := by decide +kernel
  rw [htable, List.getD_eq_getElem?_getD, List.getElem?_map, Vector.getD,
    Array.getD_eq_getD_getElem?, Vector.getElem?_toList, Vector.getElem?_toArray]
  cases kRoundConstants[t]? <;> rfl

/-- **`transform` is the compression of the standard.** -/
theorem value_transform (state : Sha256Words) (block : Vector UInt8 64) :
    (transform state block).value = Sha2.compress state.value block.toList := by
  have hrounds : ∀ (ts : List ℕ) (v : Sha256Words), (∀ t ∈ ts, t < 64) →
      (ts.foldl (fun v t =>
        v.round (kRoundConstants.getD t 0) ((schedule block).getD t 0)) v).value =
        ts.foldl (fun v t => v.round (Sha2.constants.getD t 0) (Sha2.schedule block.toList t))
          v.value := by
    intro ts
    induction ts with
    | nil => intro v _; rfl
    | cons t ts ih =>
      intro v hts
      rw [List.foldl_cons, List.foldl_cons, ih _ fun t' ht' => hts t' (List.mem_cons_of_mem _ ht'),
        Sha256Words.value_round, toBitVec_kRoundConstants,
        getD_schedule block (hts t List.mem_cons_self)]
  rw [transform, Sha256Words.value_add, hrounds _ _ fun t ht => List.mem_range.mp ht,
    Sha2.compress, Sha2.HashValue.add_comm]

end Sha256

/-! ### A hash in use -/

/-- A hash with a record of the indices into its buffer and of the blocks given to `transform`. -/
structure Trace where
  hash : Sha256 := {}
  indices : List ℕ := []
  blocks : List (Vector UInt8 64) := []

namespace Trace

/-- The indices at which `transform` reads its block. -/
def blockReads : List ℕ :=
  (List.range 16).flatMap fun index => [index * 4, index * 4 + 1, index * 4 + 2, index * 4 + 3]

/-- Append one byte, and record the index written. -/
def push (t : Trace) (byte : UInt8) : Trace :=
  ⟨t.hash.push byte, t.indices ++ [t.hash.bufferSize], t.blocks⟩

/-- Compress a full buffer, and record the block. -/
def flush (t : Trace) : Trace :=
  ⟨t.hash.flush, t.indices ++ blockReads, t.blocks ++ [t.hash.buffer]⟩

/-- Append one byte, and compress the buffer when it is full. -/
def feed (t : Trace) (byte : UInt8) : Trace :=
  let t := t.push byte
  if t.hash.bufferSize = 64 then t.flush else t

/-- Absorb input byte by byte. -/
def update (t : Trace) (input : List UInt8) : Trace :=
  input.foldl feed
    ⟨{ t.hash with bitCount := t.hash.bitCount + UInt64.ofNat input.length * 8 }, t.indices,
      t.blocks⟩

/-- Append zero bytes up to a buffer size. -/
def zeroFill (t : Trace) (size : ℕ) : Trace :=
  (List.replicate (size - t.hash.bufferSize) 0).foldl push t

/-- Write the bit count into the last eight bytes, and record the indices. -/
def writeLength (t : Trace) : Trace :=
  ⟨t.hash.writeLength, t.indices ++ (List.range 8).map (63 - ·), t.blocks⟩

/-- `final`, up to its last `transform`. -/
def final (t : Trace) : Trace :=
  let t := t.push 0x80
  let t := if t.hash.bufferSize > 56 then (t.zeroFill 64).flush else t
  (t.zeroFill 56).writeLength.flush

/-! The record changes nothing. -/

theorem hash_foldl_push : ∀ (input : List UInt8) (t : Trace),
    (input.foldl push t).hash = input.foldl Sha256.push t.hash
  | [], _ => rfl
  | byte :: input, t => hash_foldl_push input (t.push byte)

/-- Feeding a byte to a trace feeds it to the hash. -/
theorem hash_feed (t : Trace) (byte : UInt8) : (t.feed byte).hash = t.hash.feed byte := by
  rw [feed, Sha256.feed]
  exact apply_ite Trace.hash _ _ _

theorem hash_foldl_feed : ∀ (input : List UInt8) (t : Trace),
    (input.foldl feed t).hash = input.foldl Sha256.feed t.hash
  | [], _ => rfl
  | byte :: input, t => by
    rw [List.foldl_cons, List.foldl_cons, hash_foldl_feed input, hash_feed]

/-- Absorbing input in a trace absorbs it in the hash. -/
theorem hash_update (t : Trace) (input : List UInt8) :
    (t.update input).hash = t.hash.update input :=
  hash_foldl_feed input _

/-- Padding a trace pads the hash. -/
theorem hash_zeroFill (t : Trace) (size : ℕ) : (t.zeroFill size).hash = t.hash.zeroFill size :=
  hash_foldl_push _ _

/-- The digest is the state after the last `transform`. -/
theorem digest_final (t : Trace) :
    t.hash.final = t.final.hash.state.toList.flatMap bytesOfWord := by
  have hbranch : (if (t.push 0x80).hash.bufferSize > 56 then ((t.push 0x80).zeroFill 64).flush
      else t.push 0x80).hash =
      if (t.hash.push 0x80).bufferSize > 56 then ((t.hash.push 0x80).zeroFill 64).flush
      else t.hash.push 0x80 := by
    rw [apply_ite Trace.hash]
    change (if (t.hash.push 0x80).bufferSize > 56 then ((t.push 0x80).zeroFill 64).hash.flush
      else t.hash.push 0x80) = _
    rw [hash_zeroFill]
    rfl
  change _ = ((((if (t.push 0x80).hash.bufferSize > 56 then ((t.push 0x80).zeroFill 64).flush
      else t.push 0x80).zeroFill 56).hash.writeLength.flush).state.toList.flatMap bytesOfWord)
  rw [hash_zeroFill, hbranch]
  rfl

/-! ### What has been fed -/

/-- The state is that of the standard after the recorded blocks, and no index was out of range. -/
structure Sound (t : Trace) : Prop where
  state : t.hash.state.value =
    (t.blocks.map Vector.toList).foldl Sha2.compress Sha2.HashValue.initial
  indices : ∀ index ∈ t.indices, index < 64

/-- A trace **follows** the bytes fed so far: they are the recorded blocks and the used part of
the buffer. -/
structure Follows (t : Trace) (data : List UInt8) : Prop extends t.Sound where
  bytes : (t.blocks.map Vector.toList).flatten ++ t.hash.buffer.toList.take t.hash.bufferSize = data

/-- An empty trace has absorbed nothing. -/
theorem follows_start : ({} : Trace).Follows [] where
  bytes := rfl
  state := Sha256Words.value_initial
  indices := by
    intro index h
    cases h

theorem blockReads_lt : ∀ index ∈ blockReads, index < 64 := by decide

variable {t : Trace} {data : List UInt8}

/-- A byte pushed is the next byte of the data. -/
theorem Follows.push (h : t.Follows data) (hlt : t.hash.bufferSize < 64) (byte : UInt8) :
    (t.push byte).Follows (data ++ [byte]) where
  bytes := by
    have hlength : t.hash.buffer.toList.length = 64 := Vector.length_toList
    have htake : (t.hash.buffer.toList.set t.hash.bufferSize byte).take (t.hash.bufferSize + 1) =
        t.hash.buffer.toList.take t.hash.bufferSize ++ [byte] := by
      rw [List.set_eq_take_append_cons_drop, if_pos (by omega), List.take_append,
        List.length_take, Nat.min_eq_left (by omega), Nat.add_sub_cancel_left, List.take_take,
        Nat.min_eq_right (by omega), List.take_succ_cons, List.take_zero]
    change (t.blocks.map Vector.toList).flatten ++
      (t.hash.buffer.setIfInBounds t.hash.bufferSize byte).toList.take (t.hash.bufferSize + 1) = _
    rw [Vector.toList_setIfInBounds, htake, ← List.append_assoc, h.bytes]
  state := h.state
  indices := by
    intro index hindex
    rcases List.mem_append.mp hindex with hold | hnew
    · exact h.indices index hold
    · rw [List.mem_singleton.mp hnew]
      exact hlt

/-- A flush compresses one block more, and reads within the buffer. -/
theorem Sound.flush (h : t.Sound) : t.flush.Sound where
  state := by
    rw [Trace.flush, Sha256.flush]
    dsimp only
    rw [Sha256.value_transform, h.state, List.map_append, List.foldl_append, List.map_singleton,
      List.foldl_cons, List.foldl_nil]
  indices := by
    intro index hindex
    rcases List.mem_append.mp hindex with hold | hread
    · exact h.indices index hold
    · exact blockReads_lt index hread

theorem flatten_flush (t : Trace) :
    (t.flush.blocks.map Vector.toList).flatten =
      (t.blocks.map Vector.toList).flatten ++ t.hash.buffer.toList := by
  rw [Trace.flush, List.map_append, List.flatten_append, List.map_singleton,
    List.flatten_singleton]

/-- A full buffer joins the blocks. -/
theorem Follows.flush (h : t.Follows data) (hfull : t.hash.bufferSize = 64) :
    t.flush.Follows data where
  toSound := h.toSound.flush
  bytes := by
    have hbytes := h.bytes
    rw [hfull, List.take_of_length_le (by rw [Vector.length_toList])] at hbytes
    rw [flatten_flush, hbytes, Trace.flush, Sha256.flush, List.take_zero, List.append_nil]

/-- A byte fed is the next byte of the data, and leaves room for another. -/
theorem Follows.feed (h : t.Follows data) (hlt : t.hash.bufferSize < 64) (byte : UInt8) :
    (t.feed byte).Follows (data ++ [byte]) ∧ (t.feed byte).hash.bufferSize < 64 := by
  have hpush := h.push hlt byte
  have hsize : (t.push byte).hash.bufferSize = t.hash.bufferSize + 1 := rfl
  unfold Trace.feed
  dsimp only
  split
  · rename_i hfull
    exact ⟨hpush.flush hfull, Nat.zero_lt_succ 63⟩
  · exact ⟨hpush, by omega⟩

/-- The bytes of an input fed are the next bytes of the data. -/
theorem Follows.foldl_feed (input : List UInt8) : ∀ {t : Trace} {data : List UInt8},
    t.Follows data → t.hash.bufferSize < 64 →
      (input.foldl Trace.feed t).Follows (data ++ input) ∧
        (input.foldl Trace.feed t).hash.bufferSize < 64 := by
  induction input with
  | nil =>
    intro t data h hlt
    rw [List.append_nil]
    exact ⟨h, hlt⟩
  | cons byte input ih =>
    intro t data h hlt
    obtain ⟨hfeed, hfeedlt⟩ := h.feed hlt byte
    have hrest := ih hfeed hfeedlt
    rwa [List.append_assoc] at hrest

/-- Filling with zeros. -/
theorem Follows.zeroFill {size : ℕ} (h : t.Follows data) (hle : t.hash.bufferSize ≤ size)
    (hsize : size ≤ 64) :
    (t.zeroFill size).Follows (data ++ List.replicate (size - t.hash.bufferSize) 0) ∧
      (t.zeroFill size).hash.bufferSize = size := by
  have hpushes : ∀ (n : ℕ) {t : Trace} {data : List UInt8}, t.Follows data →
      t.hash.bufferSize + n ≤ 64 →
      ((List.replicate n 0).foldl Trace.push t).Follows (data ++ List.replicate n 0) ∧
        ((List.replicate n 0).foldl Trace.push t).hash.bufferSize = t.hash.bufferSize + n := by
    intro n
    induction n with
    | zero =>
      intro t data h _
      rw [List.replicate_zero, List.append_nil]
      exact ⟨h, rfl⟩
    | succ n ih =>
      intro t data h hn
      have hnext : (t.push 0).hash.bufferSize = t.hash.bufferSize + 1 := rfl
      obtain ⟨hfollows, hcount⟩ := ih (h.push (by omega) 0) (by omega)
      rw [List.replicate_succ, List.foldl_cons]
      rw [List.append_assoc] at hfollows
      exact ⟨hfollows, by omega⟩
  obtain ⟨hfollows, hcount⟩ := hpushes (size - t.hash.bufferSize) h (by omega)
  refine ⟨hfollows, ?_⟩
  rw [Trace.zeroFill, hcount]
  omega

/-! ### The length in bits -/

theorem bitCount_push (s : Sha256) (byte : UInt8) : (s.push byte).bitCount = s.bitCount := by
  rw [Sha256.push]

theorem bitCount_flush (s : Sha256) : s.flush.bitCount = s.bitCount := by
  rw [Sha256.flush]

theorem bitCount_foldl_feed (input : List UInt8) :
    ∀ s : Sha256, (input.foldl Sha256.feed s).bitCount = s.bitCount := by
  induction input with
  | nil =>
    intro s
    rfl
  | cons byte input ih =>
    intro s
    rw [List.foldl_cons, ih, Sha256.feed, apply_ite Sha256.bitCount, bitCount_flush, bitCount_push,
      ite_self]

/-- The hash counts the bits that were fed, modulo `2 ^ 64`. -/
def Counts (t : Trace) (data : List UInt8) : Prop :=
  t.hash.bitCount.toNat = 8 * data.length % 2 ^ 64

theorem counts_start : ({} : Trace).Counts [] := by
  rw [Counts, List.length_nil, Nat.mul_zero, Nat.zero_mod]
  exact UInt64.toNat_zero

/-- Absorbing input counts its bits. -/
theorem Counts.update (h : t.Counts data) (input : List UInt8) :
    (t.update input).Counts (data ++ input) := by
  unfold Counts at h
  rw [Counts, hash_update, Sha256.update, bitCount_foldl_feed, UInt64.toNat_add, UInt64.toNat_mul,
    UInt64.toNat_ofNat', List.length_append, h, show (8 : UInt64).toNat = 8 from rfl]
  omega

/-- Absorbing input appends it to the data. -/
theorem Follows.update (h : t.Follows data) (hlt : t.hash.bufferSize < 64) (input : List UInt8) :
    (t.update input).Follows (data ++ input) ∧ (t.update input).hash.bufferSize < 64 :=
  Follows.foldl_feed input ⟨⟨h.state, h.indices⟩, h.bytes⟩ hlt

/-- After any calls of `update`. -/
theorem follows_updates (chunks : List (List UInt8)) :
    (chunks.foldl Trace.update {}).Follows chunks.flatten ∧
      (chunks.foldl Trace.update {}).hash.bufferSize < 64 ∧
      (chunks.foldl Trace.update {}).Counts chunks.flatten := by
  induction chunks using List.reverseRecOn with
  | nil => exact ⟨follows_start, Nat.zero_lt_succ 63, counts_start⟩
  | append_singleton chunks chunk ih =>
    obtain ⟨hfollows, hlt, hcounts⟩ := ih
    rw [List.foldl_append, List.flatten_append, List.flatten_singleton]
    obtain ⟨hfollows', hlt'⟩ := hfollows.update hlt chunk
    exact ⟨hfollows', hlt', hcounts.update chunk⟩

/-! ### The last blocks -/

/-- The loop that writes a field from its last byte to its first. -/
theorem foldl_set_descending {α : Type*} (f : ℕ → α) {size : ℕ} (xs : Vector α size) {n : ℕ}
    (h : n ≤ size) :
    ((List.range n).foldl (fun xs i => xs.setIfInBounds (size - 1 - i) (f i)) xs).toList =
      xs.toList.take (size - n) ++ ((List.range n).map f).reverse := by
  induction n with
  | zero => simp
  | succ n ih =>
    have htake : (xs.toList.take (size - n)).length = size - n := by simp
    rw [List.range_succ, List.foldl_append, List.foldl_cons, List.foldl_nil,
      Vector.toList_setIfInBounds, ih (by omega), List.set_append_left _ _ (by omega),
      List.set_eq_take_append_cons_drop, if_pos (by omega), List.take_take, List.map_append,
      List.reverse_append, List.drop_of_length_le (by omega)]
    have hmin : min (size - 1 - n) (size - n) = size - (n + 1) := by omega
    rw [hmin, List.append_assoc]
    rfl

/-- The length field is the count in eight bytes. -/
theorem toList_writeLength (s : Sha256) :
    s.writeLength.buffer.toList = s.buffer.toList.take 56 ++ bigEndian 8 s.bitCount.toNat := by
  have hbyte : ∀ index < 8, (s.bitCount >>> UInt64.ofNat (index * 8)).toUInt8 =
      UInt8.ofNat (s.bitCount.toNat / 256 ^ index) := by
    intro index hindex
    have hshift : (s.bitCount >>> UInt64.ofNat (index * 8)).toNat =
        s.bitCount.toNat / 256 ^ index := by
      rw [UInt64.toNat_shiftRight, UInt64.toNat_ofNat', Nat.mod_eq_of_lt (by omega),
        Nat.mod_eq_of_lt (by omega), Nat.shiftRight_eq_div_pow, Nat.mul_comm, Nat.pow_mul]
    rw [← hshift]
    rfl
  have hfold := foldl_set_descending
    (fun index => (s.bitCount >>> UInt64.ofNat (index * 8)).toUInt8) s.buffer (by decide : 8 ≤ 64)
  have hbytes : ((List.range 8).map fun index =>
      (s.bitCount >>> UInt64.ofNat (index * 8)).toUInt8).reverse =
      bigEndian 8 s.bitCount.toNat := by
    rw [List.map_congr_left fun index h => hbyte index (List.mem_range.mp h)]
    rfl
  rw [hbytes] at hfold
  exact hfold

/-- The length changes no state, and is written within the buffer. -/
theorem Sound.writeLength (h : t.Sound) : t.writeLength.Sound where
  state := by
    rw [Trace.writeLength, Sha256.writeLength]
    exact h.state
  indices := by
    have hwrites : ∀ index ∈ (List.range 8).map (63 - ·), index < 64 := by decide
    intro index hindex
    rcases List.mem_append.mp hindex with hold | hwrite
    · exact h.indices index hold
    · exact hwrites index hwrite

/-- The length field and the last `transform`. -/
theorem Follows.lastBlock (h : t.Follows data) (hsize : t.hash.bufferSize = 56) :
    t.writeLength.flush.Sound ∧ (t.writeLength.flush.blocks.map Vector.toList).flatten =
      data ++ bigEndian 8 t.hash.bitCount.toNat := by
  have hbytes := h.bytes
  rw [hsize] at hbytes
  refine ⟨h.toSound.writeLength.flush, ?_⟩
  rw [flatten_flush, Trace.writeLength, toList_writeLength, ← List.append_assoc, hbytes]

/-- The bytes fed fill whole blocks and the used part of the buffer. -/
theorem Follows.bufferSize_eq (h : t.Follows data) (hlt : t.hash.bufferSize < 64) :
    t.hash.bufferSize = data.length % 64 := by
  have hblocks : ∀ blocks : List (Vector UInt8 64),
      (blocks.map Vector.toList).flatten.length = 64 * blocks.length := by
    intro blocks
    induction blocks with
    | nil => rfl
    | cons block blocks ih =>
      rw [List.map_cons, List.flatten_cons, List.length_append, ih, Vector.length_toList,
        List.length_cons]
      omega
  have hlength := congrArg List.length h.bytes
  rw [List.length_append, hblocks, List.length_take, Vector.length_toList] at hlength
  omega

theorem bitCount_zeroFill (t : Trace) (size : ℕ) :
    (t.zeroFill size).hash.bitCount = t.hash.bitCount := by
  have hpushes : ∀ (input : List UInt8) (s : Sha256),
      (input.foldl Sha256.push s).bitCount = s.bitCount := by
    intro input
    induction input with
    | nil =>
      intro s
      rfl
    | cons byte input ih =>
      intro s
      rw [List.foldl_cons, ih, bitCount_push]
  rw [hash_zeroFill, Sha256.zeroFill, hpushes]

/-- **The recorded blocks are the padded message**, whatever its length modulo 64. -/
theorem Follows.final (h : t.Follows data) (hlt : t.hash.bufferSize < 64)
    (hcounts : t.Counts data) :
    t.final.Sound ∧ (t.final.blocks.map Vector.toList).flatten = Sha2.pad data := by
  have hsize := h.bufferSize_eq hlt
  have hpush := h.push hlt 0x80
  have hpushsize : (t.push 0x80).hash.bufferSize = t.hash.bufferSize + 1 := rfl
  have hpushcount : (t.push 0x80).hash.bitCount = t.hash.bitCount := bitCount_push _ _
  have hlength : bigEndian 8 t.hash.bitCount.toNat = bigEndian 8 (8 * data.length) := by
    rw [hcounts]
    exact bigEndian_mod le_rfl _
  -- it is enough to follow the zeros up to the length field
  suffices hzeros : ∃ u : Trace, t.final = (u.zeroFill 56).writeLength.flush ∧
      u.hash.bufferSize ≤ 56 ∧ u.hash.bitCount = t.hash.bitCount ∧
      ∃ n, u.Follows (data ++ [0x80] ++ List.replicate n 0) ∧
        n + (56 - u.hash.bufferSize) = Sha2.zeros data.length by
    obtain ⟨u, hfinal, hle, hcount, n, hfollows, hn⟩ := hzeros
    obtain ⟨hfilled, hfull⟩ := hfollows.zeroFill hle (by decide)
    obtain ⟨hsound, hbytes⟩ := hfilled.lastBlock hfull
    rw [hfinal]
    refine ⟨hsound, ?_⟩
    rw [hbytes, bitCount_zeroFill, hcount, hlength, List.append_assoc _ (List.replicate n 0),
      ← List.replicate_add, hn, Sha2.pad]
    simp only [List.append_assoc, List.cons_append, List.nil_append]
  by_cases hroom : (t.push 0x80).hash.bufferSize > 56
  · -- the length field goes into a block of its own
    obtain ⟨hfilled, hfull⟩ := hpush.zeroFill (by omega) (le_refl 64)
    refine ⟨((t.push 0x80).zeroFill 64).flush, ?_, Nat.zero_le _, ?_,
      64 - (t.push 0x80).hash.bufferSize, hfilled.flush hfull, ?_⟩
    · rw [Trace.final, if_pos hroom]
    · rw [Trace.flush, bitCount_flush, bitCount_zeroFill, hpushcount]
    · rw [Trace.flush, Sha256.flush, Sha2.zeros]
      dsimp only
      omega
  · refine ⟨t.push 0x80, ?_, by omega, hpushcount, 0, ?_, ?_⟩
    · rw [Trace.final, if_neg hroom]
    · rwa [List.replicate_zero, List.append_nil]
    · rw [Sha2.zeros]
      omega

end Trace

/-! ### The standards -/

/-- The recorded blocks are those of the bytes they make up. -/
theorem Trace.blocks_eq {t : Trace} {bytes : List UInt8}
    (h : (t.blocks.map Vector.toList).flatten = bytes) :
    t.blocks.map Vector.toList = Foundation.blocks 64 bytes := by
  rw [← h]
  refine (blocks_flatten (by decide) ?_).symm
  intro part hpart
  obtain ⟨block, -, rfl⟩ := List.mem_map.mp hpart
  exact Vector.length_toList

/-- The digest, written out, is that of the standard's hash value. -/
theorem toList_flatMap_bytesOfWord (v : Sha256Words) :
    v.toList.flatMap bytesOfWord = v.value.toList.flatMap fun word => bigEndian 4 word.toNat := by
  simp only [Sha256Words.toList, Sha256Words.value, Sha2.HashValue.toList, List.flatMap_cons,
    List.flatMap_nil, bytesOfWord_eq]

/-- A trace fed in chunks computes what the hash fed in chunks computes. -/
theorem hash_updates (chunks : List (List UInt8)) :
    (chunks.foldl Trace.update {}).hash = chunks.foldl Sha256.update {} := by
  induction chunks using List.reverseRecOn with
  | nil => rfl
  | append_singleton chunks chunk ih =>
    rw [List.foldl_append, List.foldl_append, List.foldl_cons, List.foldl_cons, List.foldl_nil,
      List.foldl_nil, Trace.hash_update, ih]

/-- **The digest is that of the standard**, however the message is cut into calls of `update`. -/
theorem final_updates (chunks : List (List UInt8)) :
    (chunks.foldl Sha256.update {}).final = Sha2.digest chunks.flatten := by
  obtain ⟨hfollows, hlt, hcounts⟩ := Trace.follows_updates chunks
  obtain ⟨hsound, hbytes⟩ := hfollows.final hlt hcounts
  rw [← hash_updates, Trace.digest_final, toList_flatMap_bytesOfWord, hsound.state,
    Trace.blocks_eq hbytes, Sha2.digest]

/-- **The code computes the standard's digest.** -/
theorem sha256_eq (input : List UInt8) : sha256 input = Sha2.digest input := by
  have h := final_updates [input]
  rwa [List.flatten_singleton] at h

namespace ControlAuthenticator

/-- A copy keeps the bytes that fit and fills the rest with zeros. -/
theorem toList_copyTo_eq (n : ℕ) (bytes : List UInt8) :
    (copyTo n bytes).toList = bytes.take n ++ List.replicate (n - bytes.length) 0 := by
  apply List.ext_getElem
  · rw [Vector.length_toList, List.length_append, List.length_take, List.length_replicate]
    omega
  · intro i h₁ h₂
    have hi : i < n := by rwa [Vector.length_toList] at h₁
    have hcopy : (copyTo n bytes).toList[i] = bytes.getD i 0 := by simp [copyTo]
    rw [hcopy, List.getElem_append]
    split
    · rename_i hlt
      rw [List.length_take] at hlt
      rw [List.getElem_take, List.getD_eq_getElem _ _ (by omega)]
    · rename_i hge
      rw [List.length_take] at hge
      rw [List.getElem_replicate, List.getD_eq_default _ _ (by omega)]

/-- The key block is the key of the standard, hashed when it is long and filled with zeros. -/
theorem toList_keyBlock (key : List UInt8) :
    (keyBlock key).toList = hmacKey Sha2.digest 64 key := by
  have hfill : ∀ bytes : List UInt8, bytes.length ≤ 64 →
      (copyTo 64 bytes).toList = bytes ++ List.replicate (64 - bytes.length) 0 :=
    fun bytes h => by rw [toList_copyTo_eq, List.take_of_length_le h]
  unfold keyBlock hmacKey
  split
  · rw [sha256_eq, hfill _ (by rw [Sha2.length_digest]; decide)]
  · rw [hfill _ (by omega)]

/-- **The signature is the truncated HMAC.** -/
theorem toList_sign (key message : List UInt8) :
    (sign key message).toList = (hmac Sha2.digest 64 key message).take kTagSize := by
  have htwo : ∀ first second : List UInt8,
      ((({} : Sha256).update first).update second).final = Sha2.digest (first ++ second) := by
    intro first second
    have h := final_updates [first, second]
    rwa [List.flatten_cons, List.flatten_singleton] at h
  have hlong : ∀ message : List UInt8, kTagSize - (Sha2.digest message).length = 0 := by
    intro message
    rw [Sha2.length_digest]
    rfl
  rw [sign, hmac, htwo, htwo, toList_keyBlock, toList_copyTo_eq, hlong, List.replicate_zero,
    List.append_nil]

/-- **Authentication computes the standards.** Whatever the chunks, the digest is that of FIPS
180-4 for their concatenation, it is read off the state after the recorded blocks, these are the
blocks of the padded message, and no index into the buffer is out of range; `sign` gives the first
16 bytes of the HMAC of RFC 2104; and `verify` accepts exactly what `sign` gives. -/
theorem authentication_computes_standards :
    (∀ chunks : List (List UInt8),
      (chunks.foldl Sha256.update {}).final = Sha2.digest chunks.flatten) ∧
    (∀ chunks : List (List UInt8),
      (chunks.foldl Trace.update {}).hash = chunks.foldl Sha256.update {} ∧
      (chunks.foldl Sha256.update {}).final =
        (chunks.foldl Trace.update {}).final.hash.state.toList.flatMap bytesOfWord ∧
      (chunks.foldl Trace.update {}).final.blocks.map Vector.toList =
        blocks 64 (Sha2.pad chunks.flatten) ∧
      ((chunks.foldl Trace.update {}).final.blocks.map Vector.toList).flatten =
        Sha2.pad chunks.flatten ∧
      ∀ index ∈ (chunks.foldl Trace.update {}).final.indices, index < 64) ∧
    (∀ key message, (sign key message).toList = (hmac Sha2.digest 64 key message).take 16) ∧
    ∀ key message tag, verify key message tag = true ↔ tag = sign key message := by
  refine ⟨final_updates, fun chunks => ?_, toList_sign, verify_eq_true_iff⟩
  obtain ⟨hfollows, hlt, hcounts⟩ := Trace.follows_updates chunks
  obtain ⟨hsound, hbytes⟩ := hfollows.final hlt hcounts
  have hhash := hash_updates chunks
  exact ⟨hhash, hhash ▸ Trace.digest_final _, Trace.blocks_eq hbytes, hbytes, hsound.indices⟩

end ControlAuthenticator

end HotCounter
