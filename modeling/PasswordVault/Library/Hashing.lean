import Mathlib.Algebra.Group.Nat.Defs
import Mathlib.Data.List.Basic

/-!
# Hash functions

SHA-1 and the SHA-2 family as iterated compressions of padded blocks, and HMAC over any of them.

A block, a schedule and a state are each one number, the words side by side, the first word at the
top; the operations are those on natural numbers, which the kernel computes fast.

* `Digest`: an initial state and a compression function; `Digest.hash`, `Digest.hmac`.
* `Sha2`: what the members of the SHA-2 family differ in; `sha256`, `sha512`.
* `sha1`.
-/

namespace Hashing

/-! ## Bytes and words -/

/-- The last `width` bytes of a number, most significant first. -/
def beBytes (width n : Nat) : List UInt8 :=
  (List.range width).map fun i => UInt8.ofNat (Nat.shiftRight n (8 * (width - 1 - i)))

/-- The number whose bytes these are, most significant first. -/
def ofBeBytes (bytes : List UInt8) : Nat := bytes.foldl (fun n b => Nat.add (Nat.mul n 256) b.toNat) 0

@[simp] lemma beBytes_length (width n : Nat) : (beBytes width n).length = width := by
  simp [beBytes]

/-- Word `i` of a number, counted from below; `mask` is the word of all ones. -/
def word (bits mask x i : Nat) : Nat := Nat.land (Nat.shiftRight x (Nat.mul bits i)) mask

/-- A word rotated to the right: two copies side by side, shifted. -/
def rotr (bits mask n x : Nat) : Nat :=
  Nat.land (Nat.shiftRight (Nat.add (Nat.shiftLeft x bits) x) n) mask

/-- Words added in pairs. -/
def addWords (bits mask : Nat) : Nat → Nat → Nat → Nat
  | 0, _, _ => 0
  | k + 1, x, y =>
      Nat.add (Nat.land (Nat.add (Nat.land x mask) (Nat.land y mask)) mask)
        (Nat.shiftLeft (addWords bits mask k (Nat.shiftRight x bits) (Nat.shiftRight y bits)) bits)

/-! ## Digests -/

/-- A hash function over blocks. -/
structure Digest where
  blockBytes : Nat
  /-- The bytes that the padding keeps for the length. -/
  lengthBytes : Nat
  outBytes : Nat
  init : Nat
  compress : Nat → Nat → Nat

namespace Digest

variable (d : Digest)

/-- A one bit, zeros, and the length of the message in bits. -/
def pad (m : List UInt8) : List UInt8 :=
  m ++ 0x80 :: (List.replicate
    ((d.blockBytes - (m.length + 1 + d.lengthBytes) % d.blockBytes) % d.blockBytes) 0 ++
      beBytes d.lengthBytes (8 * m.length))

/-- The first `k` blocks. -/
def blocks : Nat → List UInt8 → List Nat
  | 0, _ => []
  | k + 1, m => ofBeBytes (m.take d.blockBytes) :: blocks k (m.drop d.blockBytes)

def hash (m : List UInt8) : List UInt8 :=
  let padded := d.pad m
  beBytes d.outBytes ((d.blocks (padded.length / d.blockBytes) padded).foldl d.compress d.init)

/-- A key as a block: a long one is hashed first. -/
def blockKey (key : List UInt8) : List UInt8 :=
  let key := if key.length ≤ d.blockBytes then key else d.hash key
  key ++ List.replicate (d.blockBytes - key.length) 0

def hmac (key m : List UInt8) : List UInt8 :=
  let block := d.blockKey key
  d.hash (block.map (· ^^^ 0x5c) ++ d.hash (block.map (· ^^^ 0x36) ++ m))

@[simp] lemma hash_length (m : List UInt8) : (d.hash m).length = d.outBytes := beBytes_length _ _

@[simp] lemma hmac_length (key m : List UInt8) : (d.hmac key m).length = d.outBytes :=
  d.hash_length _

end Digest

/-! ## SHA-2 -/

/-- What the members of the SHA-2 family differ in. -/
structure Sha2 where
  bits : Nat
  mask : Nat
  /-- The rotations of the two big sigmas, the rotations and the shift of the two small ones. -/
  bigA : Nat × Nat × Nat
  bigE : Nat × Nat × Nat
  small0 : Nat × Nat × Nat
  small1 : Nat × Nat × Nat
  constants : List Nat
  init : Nat

namespace Sha2

variable (h : Sha2)

def bigSigma (r : Nat × Nat × Nat) (x : Nat) : Nat :=
  Nat.xor (Nat.xor (rotr h.bits h.mask r.1 x) (rotr h.bits h.mask r.2.1 x))
    (rotr h.bits h.mask r.2.2 x)

def smallSigma (r : Nat × Nat × Nat) (x : Nat) : Nat :=
  Nat.xor (Nat.xor (rotr h.bits h.mask r.1 x) (rotr h.bits h.mask r.2.1 x)) (Nat.shiftRight x r.2.2)

/-- The rounds, one for each constant: `s` holds the words `a` to `h`, `w` the next sixteen words of
the schedule. -/
def rounds : List Nat → Nat → Nat → Nat
  | [], s, _ => s
  | k :: ks, s, w =>
      let a := word h.bits h.mask s 7
      let b := word h.bits h.mask s 6
      let c := word h.bits h.mask s 5
      let e := word h.bits h.mask s 3
      let choice := Nat.xor (Nat.land e (word h.bits h.mask s 2))
        (Nat.land (Nat.xor e h.mask) (word h.bits h.mask s 1))
      let t₁ := Nat.add (Nat.add (Nat.add (Nat.add (word h.bits h.mask s 0) (h.bigSigma h.bigE e))
        choice) k) (word h.bits h.mask w 15)
      let majority := Nat.xor (Nat.xor (Nat.land a b) (Nat.land a c)) (Nat.land b c)
      let t₂ := Nat.add (h.bigSigma h.bigA a) majority
      let next := Nat.add (Nat.add (Nat.add (word h.bits h.mask w 15)
        (h.smallSigma h.small0 (word h.bits h.mask w 14))) (word h.bits h.mask w 6))
        (h.smallSigma h.small1 (word h.bits h.mask w 1))
      -- every word moves down one place; the first and the fifth are new
      let s' := Nat.add (Nat.add
          (Nat.shiftLeft (Nat.land (Nat.add t₁ t₂) h.mask) (Nat.mul h.bits 7))
          (Nat.shiftLeft (Nat.shiftRight s (Nat.mul h.bits 5)) (Nat.mul h.bits 4)))
        (Nat.add
          (Nat.shiftLeft (Nat.land (Nat.add (word h.bits h.mask s 4) t₁) h.mask) (Nat.mul h.bits 3))
          (Nat.mod (Nat.shiftRight s h.bits) (Nat.pow 2 (Nat.mul h.bits 3))))
      rounds ks s' (Nat.mod (Nat.add (Nat.shiftLeft w h.bits) (Nat.land next h.mask))
        (Nat.pow 2 (Nat.mul h.bits 16)))

def compress (s block : Nat) : Nat := addWords h.bits h.mask 8 s (h.rounds h.constants s block)

def digest : Digest where
  blockBytes := 2 * h.bits
  lengthBytes := h.bits / 4
  outBytes := h.bits
  init := h.init
  compress := h.compress

end Sha2

/-- The 64 round constants of SHA-256. -/
def sha256Constants : List Nat :=
  [0x428a2f98, 0x71374491, 0xb5c0fbcf, 0xe9b5dba5, 0x3956c25b, 0x59f111f1, 0x923f82a4, 0xab1c5ed5,
    0xd807aa98, 0x12835b01, 0x243185be, 0x550c7dc3, 0x72be5d74, 0x80deb1fe, 0x9bdc06a7, 0xc19bf174,
    0xe49b69c1, 0xefbe4786, 0x0fc19dc6, 0x240ca1cc, 0x2de92c6f, 0x4a7484aa, 0x5cb0a9dc, 0x76f988da,
    0x983e5152, 0xa831c66d, 0xb00327c8, 0xbf597fc7, 0xc6e00bf3, 0xd5a79147, 0x06ca6351, 0x14292967,
    0x27b70a85, 0x2e1b2138, 0x4d2c6dfc, 0x53380d13, 0x650a7354, 0x766a0abb, 0x81c2c92e, 0x92722c85,
    0xa2bfe8a1, 0xa81a664b, 0xc24b8b70, 0xc76c51a3, 0xd192e819, 0xd6990624, 0xf40e3585, 0x106aa070,
    0x19a4c116, 0x1e376c08, 0x2748774c, 0x34b0bcb5, 0x391c0cb3, 0x4ed8aa4a, 0x5b9cca4f, 0x682e6ff3,
    0x748f82ee, 0x78a5636f, 0x84c87814, 0x8cc70208, 0x90befffa, 0xa4506ceb, 0xbef9a3f7, 0xc67178f2]

def sha256 : Digest := Sha2.digest
  { bits := 32
    mask := 0xffffffff
    bigA := (2, 13, 22)
    bigE := (6, 11, 25)
    small0 := (7, 18, 3)
    small1 := (17, 19, 10)
    constants := sha256Constants
    init := 0x6a09e667bb67ae853c6ef372a54ff53a510e527f9b05688c1f83d9ab5be0cd19 }

/-- The 80 round constants of SHA-512. -/
def sha512Constants : List Nat :=
  [0x428a2f98d728ae22, 0x7137449123ef65cd, 0xb5c0fbcfec4d3b2f, 0xe9b5dba58189dbbc,
    0x3956c25bf348b538, 0x59f111f1b605d019, 0x923f82a4af194f9b, 0xab1c5ed5da6d8118,
    0xd807aa98a3030242, 0x12835b0145706fbe, 0x243185be4ee4b28c, 0x550c7dc3d5ffb4e2,
    0x72be5d74f27b896f, 0x80deb1fe3b1696b1, 0x9bdc06a725c71235, 0xc19bf174cf692694,
    0xe49b69c19ef14ad2, 0xefbe4786384f25e3, 0x0fc19dc68b8cd5b5, 0x240ca1cc77ac9c65,
    0x2de92c6f592b0275, 0x4a7484aa6ea6e483, 0x5cb0a9dcbd41fbd4, 0x76f988da831153b5,
    0x983e5152ee66dfab, 0xa831c66d2db43210, 0xb00327c898fb213f, 0xbf597fc7beef0ee4,
    0xc6e00bf33da88fc2, 0xd5a79147930aa725, 0x06ca6351e003826f, 0x142929670a0e6e70,
    0x27b70a8546d22ffc, 0x2e1b21385c26c926, 0x4d2c6dfc5ac42aed, 0x53380d139d95b3df,
    0x650a73548baf63de, 0x766a0abb3c77b2a8, 0x81c2c92e47edaee6, 0x92722c851482353b,
    0xa2bfe8a14cf10364, 0xa81a664bbc423001, 0xc24b8b70d0f89791, 0xc76c51a30654be30,
    0xd192e819d6ef5218, 0xd69906245565a910, 0xf40e35855771202a, 0x106aa07032bbd1b8,
    0x19a4c116b8d2d0c8, 0x1e376c085141ab53, 0x2748774cdf8eeb99, 0x34b0bcb5e19b48a8,
    0x391c0cb3c5c95a63, 0x4ed8aa4ae3418acb, 0x5b9cca4f7763e373, 0x682e6ff3d6b2b8a3,
    0x748f82ee5defb2fc, 0x78a5636f43172f60, 0x84c87814a1f0ab72, 0x8cc702081a6439ec,
    0x90befffa23631e28, 0xa4506cebde82bde9, 0xbef9a3f7b2c67915, 0xc67178f2e372532b,
    0xca273eceea26619c, 0xd186b8c721c0c207, 0xeada7dd6cde0eb1e, 0xf57d4f7fee6ed178,
    0x06f067aa72176fba, 0x0a637dc5a2c898a6, 0x113f9804bef90dae, 0x1b710b35131c471b,
    0x28db77f523047d84, 0x32caab7b40c72493, 0x3c9ebe0a15c9bebc, 0x431d67c49c100d4c,
    0x4cc5d4becb3e42b6, 0x597f299cfc657e2a, 0x5fcb6fab3ad6faec, 0x6c44198c4a475817]

def sha512 : Digest := Sha2.digest
  { bits := 64
    mask := 0xffffffffffffffff
    bigA := (28, 34, 39)
    bigE := (14, 18, 41)
    small0 := (1, 8, 7)
    small1 := (19, 61, 6)
    constants := sha512Constants
    init := 0x6a09e667f3bcc908bb67ae8584caa73b3c6ef372fe94f82ba54ff53a5f1d36f1510e527fade682d19b05688c2b3e6c1f1f83d9abfb41bd6b5be0cd19137e2179 }

/-! ## SHA-1 -/

namespace Sha1

/-- The rounds with one constant and one function of `b`, `c` and `d`: `s` holds the words `a` to
`e`, `w` the next sixteen words of the schedule. -/
def rounds (f : Nat → Nat → Nat → Nat) (k : Nat) : Nat → Nat × Nat → Nat × Nat
  | 0, sw => sw
  | n + 1, (s, w) =>
      let b := word 32 0xffffffff s 3
      let t := Nat.add (Nat.add (Nat.add (Nat.add (rotr 32 0xffffffff 27 (word 32 0xffffffff s 4))
        (f b (word 32 0xffffffff s 2) (word 32 0xffffffff s 1))) (word 32 0xffffffff s 0)) k)
        (word 32 0xffffffff w 15)
      let next := rotr 32 0xffffffff 31 (Nat.xor
        (Nat.xor (word 32 0xffffffff w 2) (word 32 0xffffffff w 7))
        (Nat.xor (word 32 0xffffffff w 13) (word 32 0xffffffff w 15)))
      let s' := Nat.add (Nat.add (Nat.shiftLeft (Nat.land t 0xffffffff) 128)
          (Nat.shiftLeft (word 32 0xffffffff s 4) 96))
        (Nat.add (Nat.shiftLeft (rotr 32 0xffffffff 2 b) 64)
          (Nat.mod (Nat.shiftRight s 32) (Nat.pow 2 64)))
      rounds f k n (s', Nat.mod (Nat.add (Nat.shiftLeft w 32) next) (Nat.pow 2 512))

def choice (b c d : Nat) : Nat := Nat.xor (Nat.land b c) (Nat.land (Nat.xor b 0xffffffff) d)

def parity (b c d : Nat) : Nat := Nat.xor (Nat.xor b c) d

def majority (b c d : Nat) : Nat := Nat.xor (Nat.xor (Nat.land b c) (Nat.land b d)) (Nat.land c d)

def compress (s block : Nat) : Nat :=
  addWords 32 0xffffffff 5 s
    (rounds parity 0xca62c1d6 20 (rounds majority 0x8f1bbcdc 20 (rounds parity 0x6ed9eba1 20
      (rounds choice 0x5a827999 20 (s, block))))).1

end Sha1

def sha1 : Digest where
  blockBytes := 64
  lengthBytes := 8
  outBytes := 20
  init := 0x67452301efcdab8998badcfe10325476c3d2e1f0
  compress := Sha1.compress

end Hashing
