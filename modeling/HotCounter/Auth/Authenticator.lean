import Mathlib

/-!
# Authentication of control frames

`Sha256` is the streaming hash of `auth.cpp` with its 64-byte buffer, and
`ControlAuthenticator` the truncated HMAC over it. The arrays of the source are vectors of
their sizes; a write goes through `setIfInBounds`, a read through `getD`.

Only one fact about the hash is used elsewhere: `verify` accepts a tag exactly if it is the one
that `sign` computes.
-/

namespace HotCounter

/-- `kRoundConstants`. -/
def kRoundConstants : Vector UInt32 64 :=
  #v[0x428a2f98, 0x71374491, 0xb5c0fbcf, 0xe9b5dba5, 0x3956c25b, 0x59f111f1,
    0x923f82a4, 0xab1c5ed5, 0xd807aa98, 0x12835b01, 0x243185be, 0x550c7dc3,
    0x72be5d74, 0x80deb1fe, 0x9bdc06a7, 0xc19bf174, 0xe49b69c1, 0xefbe4786,
    0x0fc19dc6, 0x240ca1cc, 0x2de92c6f, 0x4a7484aa, 0x5cb0a9dc, 0x76f988da,
    0x983e5152, 0xa831c66d, 0xb00327c8, 0xbf597fc7, 0xc6e00bf3, 0xd5a79147,
    0x06ca6351, 0x14292967, 0x27b70a85, 0x2e1b2138, 0x4d2c6dfc, 0x53380d13,
    0x650a7354, 0x766a0abb, 0x81c2c92e, 0x92722c85, 0xa2bfe8a1, 0xa81a664b,
    0xc24b8b70, 0xc76c51a3, 0xd192e819, 0xd6990624, 0xf40e3585, 0x106aa070,
    0x19a4c116, 0x1e376c08, 0x2748774c, 0x34b0bcb5, 0x391c0cb3, 0x4ed8aa4a,
    0x5b9cca4f, 0x682e6ff3, 0x748f82ee, 0x78a5636f, 0x84c87814, 0x8cc70208,
    0x90befffa, 0xa4506ceb, 0xbef9a3f7, 0xc67178f2]

def rotateRight (value amount : UInt32) : UInt32 :=
  (value >>> amount) ||| (value <<< (32 - amount))

/-! ### The hash -/

/-- The eight chaining words. -/
structure Sha256Words where
  a : UInt32
  b : UInt32
  c : UInt32
  d : UInt32
  e : UInt32
  f : UInt32
  g : UInt32
  h : UInt32
  deriving DecidableEq, Repr

namespace Sha256Words

def initial : Sha256Words :=
  ⟨0x6a09e667, 0xbb67ae85, 0x3c6ef372, 0xa54ff53a, 0x510e527f, 0x9b05688c, 0x1f83d9ab,
    0x5be0cd19⟩

def add (v w : Sha256Words) : Sha256Words :=
  ⟨v.a + w.a, v.b + w.b, v.c + w.c, v.d + w.d, v.e + w.e, v.f + w.f, v.g + w.g, v.h + w.h⟩

def toList (v : Sha256Words) : List UInt32 := [v.a, v.b, v.c, v.d, v.e, v.f, v.g, v.h]

/-- One round of `transform`. -/
def round (v : Sha256Words) (constant word : UInt32) : Sha256Words :=
  let s1 := rotateRight v.e 6 ^^^ rotateRight v.e 11 ^^^ rotateRight v.e 25
  let choose := (v.e &&& v.f) ^^^ (~~~v.e &&& v.g)
  let temp1 := v.h + s1 + choose + constant + word
  let s0 := rotateRight v.a 2 ^^^ rotateRight v.a 13 ^^^ rotateRight v.a 22
  let majority := (v.a &&& v.b) ^^^ (v.a &&& v.c) ^^^ (v.b &&& v.c)
  let temp2 := s0 + majority
  ⟨temp1 + temp2, v.a, v.b, v.c, v.d + temp1, v.e, v.f, v.g⟩

end Sha256Words

/-- A big-endian word of four bytes. -/
def wordOfBytes (b0 b1 b2 b3 : UInt8) : UInt32 :=
  (b0.toUInt32 <<< 24) ||| (b1.toUInt32 <<< 16) ||| (b2.toUInt32 <<< 8) ||| b3.toUInt32

/-- The four bytes of a word, as `final` writes them. -/
def bytesOfWord (w : UInt32) : List UInt8 :=
  [(w >>> 24).toUInt8, (w >>> 16).toUInt8, (w >>> 8).toUInt8, w.toUInt8]

/-- `Sha256`, between two calls. -/
structure Sha256 where
  state : Sha256Words := .initial
  buffer : Vector UInt8 64 := Vector.replicate 64 0
  bufferSize : ℕ := 0
  bitCount : UInt64 := 0

namespace Sha256

/-- The first loop of `transform`. -/
def loadWords (block : Vector UInt8 64) : Vector UInt32 64 :=
  (List.range 16).foldl
    (fun words index =>
      words.setIfInBounds index
        (wordOfBytes (block.getD (index * 4) 0) (block.getD (index * 4 + 1) 0)
          (block.getD (index * 4 + 2) 0) (block.getD (index * 4 + 3) 0)))
    (Vector.replicate 64 0)

/-- One iteration of the second loop of `transform`. -/
def extendWords (words : Vector UInt32 64) (index : ℕ) : Vector UInt32 64 :=
  let s0 := rotateRight (words.getD (index - 15) 0) 7 ^^^
    rotateRight (words.getD (index - 15) 0) 18 ^^^ (words.getD (index - 15) 0 >>> 3)
  let s1 := rotateRight (words.getD (index - 2) 0) 17 ^^^
    rotateRight (words.getD (index - 2) 0) 19 ^^^ (words.getD (index - 2) 0 >>> 10)
  words.setIfInBounds index (words.getD (index - 16) 0 + s0 + words.getD (index - 7) 0 + s1)

/-- The schedule of a block. -/
def schedule (block : Vector UInt8 64) : Vector UInt32 64 :=
  (List.range' 16 48).foldl extendWords (loadWords block)

def transform (state : Sha256Words) (block : Vector UInt8 64) : Sha256Words :=
  let words := schedule block
  state.add ((List.range 64).foldl
    (fun v index => v.round (kRoundConstants.getD index 0) (words.getD index 0)) state)

/-- `buffer[buffer_size_++] = byte`. -/
def push (s : Sha256) (byte : UInt8) : Sha256 :=
  { s with buffer := s.buffer.setIfInBounds s.bufferSize byte, bufferSize := s.bufferSize + 1 }

/-- Hash the full buffer and start over. -/
def flush (s : Sha256) : Sha256 :=
  { s with state := transform s.state s.buffer, bufferSize := 0 }

/-- One iteration of the loop of `update`. -/
def feed (s : Sha256) (byte : UInt8) : Sha256 :=
  let s := s.push byte
  if s.bufferSize = 64 then s.flush else s

def update (s : Sha256) (input : List UInt8) : Sha256 :=
  input.foldl feed { s with bitCount := s.bitCount + UInt64.ofNat input.length * 8 }

/-- `while (buffer_size_ < size) buffer[buffer_size_++] = 0`. -/
def zeroFill (s : Sha256) (size : ℕ) : Sha256 :=
  (List.replicate (size - s.bufferSize) 0).foldl push s

/-- The length field at the end of the last block. -/
def writeLength (s : Sha256) : Sha256 :=
  { s with
    buffer := (List.range 8).foldl
      (fun buffer index => buffer.setIfInBounds (63 - index)
        (s.bitCount >>> UInt64.ofNat (index * 8)).toUInt8)
      s.buffer }

/-- `final`, the digest. -/
def final (s : Sha256) : List UInt8 :=
  let s := s.push 0x80
  let s := if s.bufferSize > 56 then (s.zeroFill 64).flush else s
  let s := (s.zeroFill 56).writeLength
  (transform s.state s.buffer).toList.flatMap bytesOfWord

end Sha256

def sha256 (input : List UInt8) : List UInt8 := (({} : Sha256).update input).final

/-! ### The tag -/

namespace ControlAuthenticator

def kTagSize : ℕ := 16

abbrev Tag := Vector UInt8 kTagSize

/-- Copy the first bytes of a sequence into a zeroed array. -/
def copyTo (n : ℕ) (bytes : List UInt8) : Vector UInt8 n := Vector.ofFn fun i => bytes.getD i 0

theorem toList_copyTo {n : ℕ} {bytes : List UInt8} (h : bytes.length = n) :
    (copyTo n bytes).toList = bytes := by
  apply List.ext_getElem
  · rw [Vector.length_toList, h]
  · intro i h₁ h₂
    simp [copyTo, List.getD_eq_getElem?_getD, List.getElem?_eq_getElem h₂]

/-- The key, hashed if it is longer than a block, in a zeroed block. -/
def keyBlock (key : List UInt8) : Vector UInt8 64 :=
  if key.length > 64 then copyTo 64 (sha256 key) else copyTo 64 key

def sign (key message : List UInt8) : Tag :=
  let innerPad := (keyBlock key).toList.map (· ^^^ 0x36)
  let outerPad := (keyBlock key).toList.map (· ^^^ 0x5c)
  let innerDigest := ((({} : Sha256).update innerPad).update message).final
  copyTo kTagSize ((({} : Sha256).update outerPad).update innerDigest).final

/-- The loop of `verify`. -/
def mismatch (expected tag : List UInt8) : UInt8 :=
  (expected.zip tag).foldl (fun acc bytes => acc ||| (bytes.1 ^^^ bytes.2)) 0

def verify (key message : List UInt8) (tag : Tag) : Bool :=
  mismatch (sign key message).toList tag.toList == 0

private theorem or_xor_eq_zero (acc x y : UInt8) : acc ||| (x ^^^ y) = 0 ↔ acc = 0 ∧ x = y := by
  have hor : acc ||| (x ^^^ y) = 0 ↔ acc = 0 ∧ x ^^^ y = 0 := UInt8.or_eq_zero_iff
  have hxor : x ^^^ y = 0 ↔ x = y := UInt8.xor_eq_zero_iff
  rw [hor, hxor]

/-- The accumulated mismatch is zero exactly if it was zero and no byte differs. -/
private theorem foldl_mismatch_eq_zero :
    ∀ (expected tag : List UInt8) (acc : UInt8), expected.length = tag.length →
      ((expected.zip tag).foldl (fun acc bytes => acc ||| (bytes.1 ^^^ bytes.2)) acc = 0 ↔
        acc = 0 ∧ expected = tag)
  | [], [], acc, _ => by simp
  | x :: expected, y :: tag, acc, hlength => by
    have hrest := foldl_mismatch_eq_zero expected tag (acc ||| (x ^^^ y)) (by simpa using hlength)
    rw [List.zip_cons_cons, List.foldl_cons, hrest, or_xor_eq_zero, List.cons.injEq]
    tauto

/-- **A tag is accepted exactly if it is the signature.** -/
theorem verify_eq_true_iff (key message : List UInt8) (tag : Tag) :
    verify key message tag = true ↔ tag = sign key message := by
  have hlength : (sign key message).toList.length = tag.toList.length := by simp
  rw [verify, beq_iff_eq, mismatch, foldl_mismatch_eq_zero _ _ 0 hlength]
  constructor
  · rintro ⟨-, heq⟩
    exact (Vector.toList_inj.mp heq).symm
  · rintro rfl
    exact ⟨rfl, rfl⟩

end ControlAuthenticator

end HotCounter
