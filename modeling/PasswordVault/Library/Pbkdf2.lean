import Mathlib.Algebra.Group.Nat.Defs
import Mathlib.Data.List.Basic

/-!
# PBKDF2 over any pseudorandom function

`Pbkdf2.block` is the function `F` of PBKDF2, block `i` of the derived key: the exclusive or of the
first `c` iterates of a pseudorandom function. `Pbkdf2.block_one` and `Pbkdf2.block_succ` are the
rules for a loop that keeps one iterate and one running sum.
-/

namespace Pbkdf2

/-- The exclusive or of two byte strings, up to the end of the shorter one. -/
def xorBytes (a b : List UInt8) : List UInt8 := List.zipWith (· ^^^ ·) a b

@[simp] lemma xorBytes_length (a b : List UInt8) :
    (xorBytes a b).length = min a.length b.length := List.length_zipWith

lemma xorBytes_zeros (a : List UInt8) : xorBytes (List.replicate a.length 0) a = a := by
  induction a with
  | nil => rfl
  | cons x a ih =>
      change (0 ^^^ x) :: xorBytes (List.replicate a.length 0) a = x :: a
      rw [ih, UInt8.zero_xor]

/-- A mask is taken off by applying it again. -/
lemma xorBytes_cancel {a b : List UInt8} (h : a.length = b.length) :
    xorBytes (xorBytes a b) b = a := by
  induction a generalizing b with
  | nil => rfl
  | cons x a ih =>
      cases b with
      | nil => cases h
      | cons y b =>
          change (x ^^^ y ^^^ y) :: xorBytes (xorBytes a b) b = x :: a
          rw [ih (Nat.succ.inj h), UInt8.xor_assoc, UInt8.xor_self, UInt8.xor_zero]

/-- The exclusive or of some byte strings of length `n`. -/
def xorAll (n : Nat) (bs : List (List UInt8)) : List UInt8 := bs.foldl xorBytes (List.replicate n 0)

section block

variable (prf : List UInt8 → List UInt8)

/-- `INT (i)`: four octets, the most significant one first. -/
def int (i : Nat) : List UInt8 :=
  [UInt8.ofNat (i / 2 ^ 24), UInt8.ofNat (i / 2 ^ 16), UInt8.ofNat (i / 2 ^ 8), UInt8.ofNat i]

/-- `U_{j+1}` of block `i`. -/
def iterate (salt : List UInt8) (i : Nat) : Nat → List UInt8
  | 0 => prf (salt ++ int i)
  | j + 1 => prf (iterate salt i j)

/-- Block `i`: the exclusive or of `U_1` to `U_c`, which are `n` octets each. -/
def block (n : Nat) (salt : List UInt8) (c i : Nat) : List UInt8 :=
  xorAll n ((List.range c).map (iterate prf salt i))

variable {prf} {n : Nat} {salt : List UInt8} {i : Nat}

lemma block_succ (c : Nat) :
    block prf n salt (c + 1) i = xorBytes (block prf n salt c i) (iterate prf salt i c) := by
  rw [block, List.range_succ, List.map_append, xorAll, List.foldl_append]
  rfl

lemma block_one (hn : ∀ m, (prf m).length = n) : block prf n salt 1 i = iterate prf salt i 0 := by
  have hlength : (iterate prf salt i 0).length = n := hn _
  change xorBytes (List.replicate n 0) (iterate prf salt i 0) = _
  rw [← hlength]
  exact xorBytes_zeros _

end block

end Pbkdf2
