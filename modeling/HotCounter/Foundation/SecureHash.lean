import HotCounter.Foundation.Bytes

/-!
# The secure hash standard

SHA-256 as FIPS 180-4 defines it, for messages of whole bytes, and the HMAC of RFC 2104 over any
hash. The constants are not a table: they are the leading fraction bits of the square and cube
roots of the first primes, as the standard explains them.

A message is padded, cut into blocks and compressed block by block. Whoever hands out blocks of
the right size whose bytes, put together, are the padded message, has handed out the blocks of
the standard (`blocks_flatten`).
-/

namespace HotCounter

namespace Foundation

/-! ### Cutting into blocks -/

section Blocks

variable {α : Type*}

/-- The whole blocks of `n` elements at the front of a sequence. -/
def blocks (n : ℕ) (xs : List α) : List (List α) :=
  (List.range (xs.length / n)).map fun i => (xs.drop (n * i)).take n

theorem blocks_cons {n : ℕ} (hn : 0 < n) {block : List α} (h : block.length = n) (xs : List α) :
    blocks n (block ++ xs) = block :: blocks n xs := by
  have hcount : (block ++ xs).length / n = xs.length / n + 1 := by
    rw [List.length_append, h, Nat.add_div_left _ hn]
  rw [blocks, hcount, List.range_succ_eq_map, List.map_cons, List.map_map, Nat.mul_zero,
    List.drop_zero, List.take_left' h]
  congr 1
  refine List.map_congr_left fun i _ => ?_
  have hskip : (block ++ xs).drop (n * (i + 1)) = xs.drop (n * i) := by
    rw [Nat.mul_add, Nat.mul_one, Nat.add_comm, ← List.drop_drop, List.drop_left' h]
  rw [Function.comp_apply, hskip]

/-- **Blocks are determined by their bytes put together.** -/
theorem blocks_flatten {n : ℕ} (hn : 0 < n) {parts : List (List α)}
    (h : ∀ part ∈ parts, part.length = n) : blocks n parts.flatten = parts := by
  induction parts with
  | nil => simp [blocks]
  | cons part parts ih =>
    rw [List.flatten_cons, blocks_cons hn (h part List.mem_cons_self),
      ih fun other hother => h other (List.mem_cons_of_mem _ hother)]

end Blocks

/-! ### SHA-256 -/

namespace Sha2

abbrev Word := BitVec 32

def ch (x y z : Word) : Word := (x &&& y) ^^^ (~~~x &&& z)

def maj (x y z : Word) : Word := (x &&& y) ^^^ (x &&& z) ^^^ (y &&& z)

def bigSigma0 (x : Word) : Word := x.rotateRight 2 ^^^ x.rotateRight 13 ^^^ x.rotateRight 22

def bigSigma1 (x : Word) : Word := x.rotateRight 6 ^^^ x.rotateRight 11 ^^^ x.rotateRight 25

def smallSigma0 (x : Word) : Word := x.rotateRight 7 ^^^ x.rotateRight 18 ^^^ (x >>> 3)

def smallSigma1 (x : Word) : Word := x.rotateRight 17 ^^^ x.rotateRight 19 ^^^ (x >>> 10)

/-- The first 32 bits of the fraction of the `k`-th root of a number. -/
def rootFraction (k n : ℕ) : Word := BitVec.ofNat 32 (Nat.nthRoot k (n * 2 ^ (32 * k)))

/-- The constants `K`, from the cube roots of the first sixty-four primes. -/
def constants : List Word := ((List.range 312).filter Nat.Prime).map (rootFraction 3)

/-- The eight words of a hash value, or the working variables. -/
structure HashValue where
  a : Word
  b : Word
  c : Word
  d : Word
  e : Word
  f : Word
  g : Word
  h : Word

namespace HashValue

def toList (v : HashValue) : List Word := [v.a, v.b, v.c, v.d, v.e, v.f, v.g, v.h]

def add (v w : HashValue) : HashValue :=
  ⟨v.a + w.a, v.b + w.b, v.c + w.c, v.d + w.d, v.e + w.e, v.f + w.f, v.g + w.g, v.h + w.h⟩

theorem add_comm (v w : HashValue) : v.add w = w.add v := by
  simp only [add, BitVec.add_comm]

/-- One round, with its constant and its word of the schedule. -/
def round (v : HashValue) (k w : Word) : HashValue :=
  let t1 := v.h + bigSigma1 v.e + ch v.e v.f v.g + k + w
  let t2 := bigSigma0 v.a + maj v.a v.b v.c
  ⟨t1 + t2, v.a, v.b, v.c, v.d + t1, v.e, v.f, v.g⟩

/-- The initial hash value, from the square roots of the first eight primes. -/
def initial : HashValue :=
  ⟨rootFraction 2 2, rootFraction 2 3, rootFraction 2 5, rootFraction 2 7, rootFraction 2 11,
    rootFraction 2 13, rootFraction 2 17, rootFraction 2 19⟩

end HashValue

/-- The message schedule of a block. -/
def schedule (block : List UInt8) (t : ℕ) : Word :=
  if t < 16 then BitVec.ofNat 32 (readField (4 * t) 4 block)
  else
    smallSigma1 (schedule block (t - 2)) + schedule block (t - 7) +
      smallSigma0 (schedule block (t - 15)) + schedule block (t - 16)

/-- The hash computation for one block. -/
def compress (v : HashValue) (block : List UInt8) : HashValue :=
  ((List.range 64).foldl (fun v t => v.round (constants.getD t 0) (schedule block t)) v).add v

/-- The zero bytes of the padding of a message of `length` bytes. -/
def zeros (length : ℕ) : ℕ := (119 - length % 64) % 64

/-- **The padding has the fewest zero bits** after its one bit that leave 64 bits of the last
block for the length. -/
theorem zeros_isLeast (length : ℕ) :
    IsLeast {k | (8 * length + 1 + k) % 512 = 448} (7 + 8 * zeros length) := by
  constructor
  · change (8 * length + 1 + (7 + 8 * zeros length)) % 512 = 448
    rw [zeros]
    omega
  · intro k hk
    change (8 * length + 1 + k) % 512 = 448 at hk
    rw [zeros]
    omega

/-- The padded message: a one bit, zero bits, and the length in bits in 64 bits. -/
def pad (message : List UInt8) : List UInt8 :=
  message ++ (0x80 :: (List.replicate (zeros message.length) 0 ++ bigEndian 8 (8 * message.length)))

/-- The digest of a message of less than `2 ^ 61` bytes. -/
def digest (message : List UInt8) : List UInt8 :=
  ((blocks 64 (pad message)).foldl compress HashValue.initial).toList.flatMap
    fun word => bigEndian 4 word.toNat

theorem length_digest (message : List UInt8) : (digest message).length = 32 := by
  have hwords : ∀ v : HashValue,
      (v.toList.flatMap fun word => bigEndian 4 word.toNat).length = 32 := by
    intro v
    simp [HashValue.toList]
  exact hwords _

end Sha2

/-! ### HMAC -/

/-- The key of a keyed hash with blocks of `size` bytes, hashed if it is longer than a block and
filled with zeros. -/
def hmacKey (hash : List UInt8 → List UInt8) (size : ℕ) (key : List UInt8) : List UInt8 :=
  if key.length > size then hash key ++ List.replicate (size - (hash key).length) 0
  else key ++ List.replicate (size - key.length) 0

/-- The keyed hash of a text. -/
def hmac (hash : List UInt8 → List UInt8) (size : ℕ) (key text : List UInt8) : List UInt8 :=
  let inner := (hmacKey hash size key).map (· ^^^ 0x36)
  let outer := (hmacKey hash size key).map (· ^^^ 0x5c)
  hash (outer ++ hash (inner ++ text))

end Foundation

end HotCounter
