import Mathlib

/-!
# Big-endian fields of byte strings

Fixed-width unsigned fields, most significant byte first, and reading them back at an offset.
A field that was written is read back modulo its width, so within its range exactly; and a
field that was read is written back as the bytes it was read from.
-/

namespace HotCounter

namespace Foundation

/-- The `width` low bytes of a number, most significant first. -/
def bigEndian : ℕ → ℕ → List UInt8
  | 0, _ => []
  | width + 1, n => UInt8.ofNat (n / 256 ^ width) :: bigEndian width n

/-- The number a byte string denotes, most significant byte first. -/
def ofBigEndian (bytes : List UInt8) : ℕ :=
  bytes.foldl (fun value byte => value * 256 + byte.toNat) 0

/-- The field of `width` bytes at an offset. -/
def readField (offset width : ℕ) (bytes : List UInt8) : ℕ :=
  ofBigEndian ((bytes.drop offset).take width)

@[simp]
theorem length_bigEndian : ∀ (width n : ℕ), (bigEndian width n).length = width
  | 0, _ => rfl
  | width + 1, n => by rw [bigEndian, List.length_cons, length_bigEndian width n]

/-- A field holds a number modulo its width. -/
theorem bigEndian_mod {width size : ℕ} (h : width ≤ size) (n : ℕ) :
    bigEndian width (n % 256 ^ size) = bigEndian width n := by
  induction width with
  | zero => rfl
  | succ width ih =>
    have hbyte : n % 256 ^ size / 256 ^ width % 256 = n / 256 ^ width % 256 := by
      obtain ⟨rest, rfl⟩ := Nat.exists_eq_add_of_lt h
      rw [Nat.add_assoc, pow_add, pow_succ, Nat.mod_mul_right_div_self, Nat.mod_mod_of_dvd]
      exact Nat.dvd_mul_left _ _
    rw [bigEndian, bigEndian, ih (by omega)]
    congr 1
    apply UInt8.toNat_inj.mp
    rw [UInt8.toNat_ofNat', UInt8.toNat_ofNat']
    exact hbyte

/-- Reading continues from what has been read. -/
theorem foldl_bigEndian : ∀ (width n acc : ℕ),
    (bigEndian width n).foldl (fun value byte => value * 256 + byte.toNat) acc =
      acc * 256 ^ width + n % 256 ^ width
  | 0, n, acc => by simp [bigEndian, Nat.mod_one]
  | width + 1, n, acc => by
    have hbyte : (UInt8.ofNat (n / 256 ^ width)).toNat = n / 256 ^ width % 256 :=
      UInt8.toNat_ofNat'
    have hsplit : n % 256 ^ (width + 1) =
        n % 256 ^ width + 256 ^ width * (n / 256 ^ width % 256) := by
      rw [pow_succ, Nat.mod_mul]
    rw [bigEndian, List.foldl_cons, foldl_bigEndian width n, hbyte, hsplit]
    ring

theorem ofBigEndian_bigEndian (width n : ℕ) :
    ofBigEndian (bigEndian width n) = n % 256 ^ width := by
  rw [ofBigEndian, foldl_bigEndian, Nat.zero_mul, Nat.zero_add]

theorem foldl_bytes_lt : ∀ (bytes : List UInt8) (acc : ℕ),
    bytes.foldl (fun value byte => value * 256 + byte.toNat) acc < (acc + 1) * 256 ^ bytes.length
  | [], acc => by simp
  | byte :: rest, acc => by
    have hbyte := byte.toNat_lt
    calc rest.foldl (fun value byte => value * 256 + byte.toNat) (acc * 256 + byte.toNat)
        < (acc * 256 + byte.toNat + 1) * 256 ^ rest.length := foldl_bytes_lt rest _
      _ ≤ ((acc + 1) * 256) * 256 ^ rest.length := Nat.mul_le_mul_right _ (by omega)
      _ = (acc + 1) * 256 ^ (rest.length + 1) := by ring

theorem le_foldl_bytes : ∀ (bytes : List UInt8) (acc : ℕ),
    acc * 256 ^ bytes.length ≤ bytes.foldl (fun value byte => value * 256 + byte.toNat) acc
  | [], acc => by simp
  | byte :: rest, acc => by
    calc acc * 256 ^ (rest.length + 1) = acc * 256 * 256 ^ rest.length := by ring
      _ ≤ (acc * 256 + byte.toNat) * 256 ^ rest.length := Nat.mul_le_mul_right _ (by omega)
      _ ≤ rest.foldl (fun value byte => value * 256 + byte.toNat) (acc * 256 + byte.toNat) :=
        le_foldl_bytes rest _

/-- A field of `width` bytes is below `256 ^ width`. -/
theorem readField_lt (offset width : ℕ) (bytes : List UInt8) :
    readField offset width bytes < 256 ^ width := by
  have hlt := foldl_bytes_lt ((bytes.drop offset).take width) 0
  rw [Nat.zero_add, Nat.one_mul] at hlt
  exact hlt.trans_le (Nat.pow_le_pow_right (by decide) (List.length_take_le _ _))

/-! ### Reading at an offset

The lemmas walk over what was written before the field. -/

/-- **A written field is read back**, up to its width. -/
theorem readField_here (width n : ℕ) (rest : List UInt8) :
    readField 0 width (bigEndian width n ++ rest) = n % 256 ^ width := by
  rw [readField, List.drop_zero, List.take_append_of_le_length (by simp),
    List.take_of_length_le (by simp), ofBigEndian_bigEndian]

theorem readField_last (width n : ℕ) : readField 0 width (bigEndian width n) = n % 256 ^ width := by
  simpa using readField_here width n []

theorem readField_skip {offset k : ℕ} (h : k ≤ offset) (width n : ℕ) (rest : List UInt8) :
    readField offset width (bigEndian k n ++ rest) = readField (offset - k) width rest := by
  have hdrop : (bigEndian k n ++ rest).drop offset = rest.drop (offset - k) := by
    rw [List.drop_append, List.drop_of_length_le (by simpa using h), List.nil_append,
      length_bigEndian]
  rw [readField, readField, hdrop]

theorem readField_cons {offset : ℕ} (h : 0 < offset) (width : ℕ) (byte : UInt8)
    (rest : List UInt8) :
    readField offset width (byte :: rest) = readField (offset - 1) width rest := by
  obtain ⟨offset, rfl⟩ : ∃ k, offset = k + 1 := ⟨offset - 1, by omega⟩
  rw [readField, readField, List.drop_succ_cons, Nat.add_sub_cancel]

theorem getD_skip {offset k : ℕ} (h : k ≤ offset) (n : ℕ) (rest : List UInt8)
    (default : UInt8) :
    (bigEndian k n ++ rest).getD offset default = rest.getD (offset - k) default := by
  rw [List.getD_append_right _ _ _ _ (by simpa using h), length_bigEndian]

/-! ### Writing back what was read -/

/-- Writing the number that some bytes denote gives the bytes back, whatever was read before. -/
theorem bigEndian_foldl : ∀ (bytes : List UInt8) (acc : ℕ),
    bigEndian bytes.length
      (bytes.foldl (fun value byte => value * 256 + byte.toNat) acc) = bytes
  | [], _ => rfl
  | byte :: rest, acc => by
    have hlow := foldl_bytes_lt rest (acc * 256 + byte.toNat)
    have hhigh : (acc * 256 + byte.toNat) * 256 ^ rest.length ≤
        rest.foldl (fun value byte => value * 256 + byte.toNat) (acc * 256 + byte.toNat) :=
      le_foldl_bytes rest _
    have hdiv : rest.foldl (fun value byte => value * 256 + byte.toNat)
        (acc * 256 + byte.toNat) / 256 ^ rest.length = acc * 256 + byte.toNat :=
      Nat.div_eq_of_lt_le hhigh hlow
    have hbyte : UInt8.ofNat (acc * 256 + byte.toNat) = byte := by
      apply UInt8.toNat_inj.mp
      rw [UInt8.toNat_ofNat']
      have hlt := byte.toNat_lt
      omega
    rw [List.foldl_cons, List.length_cons, bigEndian, hdiv, hbyte, bigEndian_foldl rest]

/-- **A field that is read and written again is the bytes it was read from.** -/
theorem bigEndian_readField {offset width : ℕ} {bytes : List UInt8}
    (h : offset + width ≤ bytes.length) :
    bigEndian width (readField offset width bytes) = (bytes.drop offset).take width := by
  have hlength : ((bytes.drop offset).take width).length = width := by
    rw [List.length_take, List.length_drop]
    omega
  have hback := bigEndian_foldl ((bytes.drop offset).take width) 0
  rwa [hlength] at hback

/-- A field and what follows it. -/
theorem bigEndian_readField_append {offset width next : ℕ} {bytes : List UInt8}
    (h : next ≤ bytes.length) (hnext : next = offset + width) :
    bigEndian width (readField offset width bytes) ++ bytes.drop next = bytes.drop offset := by
  rw [bigEndian_readField (by omega), hnext, ← List.drop_drop, List.take_append_drop]

/-- A byte and what follows it. -/
theorem getD_cons_drop {offset next : ℕ} {bytes : List UInt8} (h : next ≤ bytes.length)
    (hnext : next = offset + 1) (default : UInt8) :
    bytes.getD offset default :: bytes.drop next = bytes.drop offset := by
  have hlt : offset < bytes.length := by omega
  rw [hnext, List.getD_eq_getElem _ _ hlt, List.getElem_cons_drop]

/-! ### Unused bytes -/

/-- The bytes of a range are zero. -/
def ZeroBetween (start stop : ℕ) (bytes : List UInt8) : Prop :=
  ∀ i, start ≤ i → i < stop → bytes.getD i 0 = 0

/-- Zero bytes and what follows them. -/
theorem ZeroBetween.append_drop : ∀ {width offset stop : ℕ} {bytes : List UInt8},
    ZeroBetween offset stop bytes → stop ≤ bytes.length → stop = offset + width →
      bigEndian width 0 ++ bytes.drop stop = bytes.drop offset
  | 0, offset, stop, bytes, _, _, hstop => by rw [hstop, Nat.add_zero, bigEndian, List.nil_append]
  | width + 1, offset, stop, bytes, hzero, hlength, hstop => by
    have htail : ZeroBetween (offset + 1) stop bytes := fun i hi => hzero i (by omega)
    have ih := htail.append_drop hlength (show stop = offset + 1 + width by omega)
    have hbyte : bytes.getD offset 0 = 0 := hzero offset (Nat.le_refl _) (by omega)
    have hhead : (UInt8.ofNat (0 / 256 ^ width)) = 0 := by rw [Nat.zero_div]; rfl
    rw [bigEndian, hhead, List.cons_append, ih, ← hbyte]
    exact getD_cons_drop (by omega) rfl 0

end Foundation

end HotCounter
