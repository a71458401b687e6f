import PasswordVault.Library.Hashing

/-!
# Authenticated encryption

* `Aead`: a keystream and a tag. `encrypt` masks the message with the keystream and appends the tag of
  the masked message, `decrypt` checks the tag first. `decrypt_encrypt` is the round trip.
* `xchacha20Poly1305`.
* `Ideal`: a ciphertext is decrypted by what it was encrypted with, and by nothing else.
  `ideal_spelling`: an ideal cipher that agrees with a given one on a given input.
-/

namespace Aead

open Hashing

/-! ## Masking and tagging -/

/-- Two byte strings combined byte by byte, as long as the first. -/
def mask : List UInt8 → List UInt8 → List UInt8
  | [], _ => []
  | m :: ms, [] => m :: mask ms []
  | m :: ms, k :: ks => (m ^^^ k) :: mask ms ks

@[simp] lemma mask_length (m k : List UInt8) : (mask m k).length = m.length := by
  induction m generalizing k with
  | nil => rfl
  | cons m ms ih => cases k <;> simp [mask, ih]

/-- Masking twice is masking not at all. -/
lemma mask_mask (m k : List UInt8) : mask (mask m k) k = m := by
  induction m generalizing k with
  | nil => rfl
  | cons m ms ih =>
      cases k with
      | nil => rw [mask, mask, ih]
      | cons k ks => rw [mask, mask, ih, UInt8.xor_assoc, UInt8.xor_self, UInt8.xor_zero]

/-- A cipher by its keystream and its tags. -/
structure Scheme where
  /-- The first bytes of the keystream of a key and a nonce. -/
  keystream : List UInt8 → List UInt8 → Nat → List UInt8
  /-- The tag of associated data and a masked message. -/
  tag : List UInt8 → List UInt8 → List UInt8 → List UInt8 → List UInt8
  tagBytes : Nat
  tag_length : ∀ key nonce aad c, (tag key nonce aad c).length = tagBytes

namespace Scheme

variable (a : Scheme) (key nonce aad : List UInt8)

def encrypt (m : List UInt8) : List UInt8 :=
  let c := mask m (a.keystream key nonce m.length)
  c ++ a.tag key nonce aad c

def decrypt (ciphertext : List UInt8) : Option (List UInt8) :=
  let n := ciphertext.length - a.tagBytes
  let c := ciphertext.take n
  if a.tagBytes ≤ ciphertext.length ∧ a.tag key nonce aad c = ciphertext.drop n then
    some (mask c (a.keystream key nonce n))
  else none

lemma encrypt_length (m : List UInt8) : (a.encrypt key nonce aad m).length = m.length + a.tagBytes := by
  simp [encrypt, a.tag_length]

/-- **What is encrypted is decrypted to itself** under the same key, nonce and associated data. -/
theorem decrypt_encrypt (m : List UInt8) : a.decrypt key nonce aad (a.encrypt key nonce aad m) = some m := by
  have hn : (a.encrypt key nonce aad m).length - a.tagBytes = m.length := by
    rw [encrypt_length]
    omega
  have hc : (mask m (a.keystream key nonce m.length)).length = m.length := mask_length _ _
  unfold decrypt
  simp only [hn]
  rw [if_pos]
  · simp only [encrypt, List.take_left' hc, mask_mask]
  · refine ⟨by rw [encrypt_length]; omega, ?_⟩
    simp only [encrypt, List.take_left' hc, List.drop_left' hc]

end Scheme

/-! ## ChaCha20 -/

namespace ChaCha

/-- The number whose bytes these are, least significant first. -/
def ofLeBytes (bytes : List UInt8) : Nat := ofBeBytes bytes.reverse

def leBytes (width n : Nat) : List UInt8 := (beBytes width n).reverse

def add (x y : Nat) : Nat := Nat.land (Nat.add x y) 0xffffffff

def quarterRound (a b c d : Nat) : Nat × Nat × Nat × Nat :=
  let a := add a b
  let d := rotr 32 0xffffffff 16 (Nat.xor d a)
  let c := add c d
  let b := rotr 32 0xffffffff 20 (Nat.xor b c)
  let a := add a b
  let d := rotr 32 0xffffffff 24 (Nat.xor d a)
  let c := add c d
  let b := rotr 32 0xffffffff 25 (Nat.xor b c)
  (a, b, c, d)

/-- A round on the columns, then one on the diagonals. -/
def doubleRound : List Nat → List Nat
  | [x₀, x₁, x₂, x₃, x₄, x₅, x₆, x₇, x₈, x₉, x₁₀, x₁₁, x₁₂, x₁₃, x₁₄, x₁₅] =>
      match quarterRound x₀ x₄ x₈ x₁₂, quarterRound x₁ x₅ x₉ x₁₃, quarterRound x₂ x₆ x₁₀ x₁₄,
        quarterRound x₃ x₇ x₁₁ x₁₅ with
      | (x₀, x₄, x₈, x₁₂), (x₁, x₅, x₉, x₁₃), (x₂, x₆, x₁₀, x₁₄), (x₃, x₇, x₁₁, x₁₅) =>
          match quarterRound x₀ x₅ x₁₀ x₁₅, quarterRound x₁ x₆ x₁₁ x₁₂,
            quarterRound x₂ x₇ x₈ x₁₃, quarterRound x₃ x₄ x₉ x₁₄ with
          | (x₀, x₅, x₁₀, x₁₅), (x₁, x₆, x₁₁, x₁₂), (x₂, x₇, x₈, x₁₃), (x₃, x₄, x₉, x₁₄) =>
              [x₀, x₁, x₂, x₃, x₄, x₅, x₆, x₇, x₈, x₉, x₁₀, x₁₁, x₁₂, x₁₃, x₁₄, x₁₅]
  | s => s

def rounds : Nat → List Nat → List Nat
  | 0, s => s
  | n + 1, s => rounds n (doubleRound s)

/-- The little-endian words of a byte string. -/
def leWords : List UInt8 → List Nat
  | a :: b :: c :: d :: rest => ofLeBytes [a, b, c, d] :: leWords rest
  | _ => []

def constants : List Nat := [0x61707865, 0x3320646e, 0x79622d32, 0x6b206574]

/-- The block of a key with the last four words of the state, as bytes. -/
def block (key : List UInt8) (last : List Nat) : List UInt8 :=
  let s := constants ++ leWords key ++ last
  (List.zipWith add s (rounds 10 s)).flatMap (leBytes 4)

/-- HChaCha20: the key for the extended nonce. -/
def subkey (key nonce : List UInt8) : List UInt8 :=
  let s := rounds 10 (constants ++ leWords key ++ leWords nonce)
  (s.take 4 ++ s.drop 12).flatMap (leBytes 4)

/-- The blocks of the keystream from a counter on. -/
def stream (key : List UInt8) (nonce : List Nat) (counter : Nat) : Nat → List UInt8
  | 0 => []
  | n + 1 => block key (counter :: nonce) ++ stream key nonce (counter + 1) n

end ChaCha

/-! ## Poly1305 -/

namespace Poly1305

open ChaCha

def prime : Nat := 2 ^ 130 - 5

/-- The accumulator over the first `k` blocks of sixteen bytes. -/
def accumulate (r : Nat) : Nat → List UInt8 → Nat → Nat
  | 0, _, acc => acc
  | k + 1, m, acc =>
      let b := m.take 16
      accumulate r k (m.drop 16)
        (Nat.mod (Nat.mul (Nat.add acc (ofLeBytes (b ++ [1]))) r) prime)

def mac (key m : List UInt8) : List UInt8 :=
  let r := Nat.land (ofLeBytes (key.take 16)) 0x0ffffffc0ffffffc0ffffffc0fffffff
  leBytes 16 (Nat.add (accumulate r ((m.length + 15) / 16) m 0) (ofLeBytes (key.drop 16)))

/-- Zeros up to a whole number of blocks. -/
def padded (m : List UInt8) : List UInt8 := m ++ List.replicate ((16 - m.length % 16) % 16) 0

end Poly1305

open ChaCha Poly1305 in
/-- XChaCha20-Poly1305. -/
def xchacha20Poly1305 : Scheme where
  keystream key nonce n :=
    stream (subkey key (nonce.take 16)) (0 :: leWords (nonce.drop 16)) 1 ((n + 63) / 64)
  tag key nonce aad c :=
    mac ((stream (subkey key (nonce.take 16)) (0 :: leWords (nonce.drop 16)) 0 1).take 32)
      (padded aad ++ padded c ++ leBytes 8 aad.length ++ leBytes 8 c.length)
  tagBytes := 16
  tag_length _ _ _ _ := by simp [mac, leBytes]

/-! ## Ideal ciphers -/

/-- A ciphertext is decrypted by the key, the nonce and the associated data that it was encrypted
with, and by no others. -/
def Ideal (encrypt decrypt : List UInt8 → List UInt8 → List UInt8 → List UInt8 →
    Option (List UInt8)) : Prop :=
  ∀ {key nonce aad m c}, encrypt key nonce aad m = some c → ∀ {key' nonce' aad' m'},
    decrypt key' nonce' aad' c = some m' ↔ key' = key ∧ nonce' = nonce ∧ aad' = aad ∧ m' = m

/-- A byte string that tells where it ends. -/
def spelled : List UInt8 → List UInt8
  | [] => [0]
  | b :: bs => 1 :: b :: spelled bs

lemma spelled_append_inj {bs bs' rest rest' : List UInt8}
    (h : spelled bs ++ rest = spelled bs' ++ rest') : bs = bs' ∧ rest = rest' := by
  induction bs generalizing bs' with
  | nil =>
      cases bs' with
      | nil => exact ⟨rfl, (List.cons.inj h).2⟩
      | cons b' bs' => exact absurd (List.cons.inj h).1 (by decide)
  | cons b bs ih =>
      cases bs' with
      | nil => exact absurd (List.cons.inj h).1 (by decide)
      | cons b' bs' =>
          simp only [spelled, List.cons_append, List.cons.injEq, true_and] at h
          obtain ⟨rfl, hrest⟩ := h
          obtain ⟨rfl, rfl⟩ := ih hrest
          exact ⟨rfl, rfl⟩

/-- What a message is encrypted with. -/
structure Sealing where
  key : List UInt8
  nonce : List UInt8
  aad : List UInt8
  deriving DecidableEq

/-- It is spelled behind a first byte. -/
def Sealing.spell (first : UInt8) (x : Sealing) : List UInt8 :=
  first :: (spelled x.key ++ (spelled x.nonce ++ spelled x.aad))

lemma Sealing.spell_append_inj {first : UInt8} {x x' : Sealing} {rest rest' : List UInt8}
    (h : x.spell first ++ rest = x'.spell first ++ rest') : x = x' ∧ rest = rest' := by
  simp only [spell, List.cons_append, List.append_assoc, List.cons.injEq, true_and] at h
  obtain ⟨hkey, hnonces⟩ := spelled_append_inj h
  obtain ⟨hnonce, haads⟩ := spelled_append_inj hnonces
  obtain ⟨haad, hrest⟩ := spelled_append_inj haads
  obtain ⟨key, nonce, aad⟩ := x
  obtain ⟨key', nonce', aad'⟩ := x'
  exact ⟨Sealing.mk.injEq .. ▸ ⟨hkey, hnonce, haad⟩, hrest⟩

section spelling

variable (first : UInt8) (at₀ : Sealing) (m₀ c₀ : List UInt8)

/-- Encrypts one message to a given ciphertext; any other ciphertext spells what it is made of. -/
def spellingEncrypt (key nonce aad m : List UInt8) : Option (List UInt8) :=
  if (⟨key, nonce, aad⟩ : Sealing) = at₀ ∧ m = m₀ then some c₀
  else some (Sealing.spell first ⟨key, nonce, aad⟩ ++ m)

def spellingDecrypt (key nonce aad c : List UInt8) : Option (List UInt8) :=
  let start := Sealing.spell first ⟨key, nonce, aad⟩
  if c = c₀ then
    if (⟨key, nonce, aad⟩ : Sealing) = at₀ then some m₀ else none
  else if start <+: c ∧ ¬ ((⟨key, nonce, aad⟩ : Sealing) = at₀ ∧ c.drop start.length = m₀) then
    some (c.drop start.length)
  else none

/-- **The spelling cipher is ideal** if the given ciphertext does not look like a spelled one. -/
theorem ideal_spelling (hfirst : c₀.head? ≠ some first) :
    Ideal (spellingEncrypt first at₀ m₀ c₀) (spellingDecrypt first at₀ m₀ c₀) := by
  intro key nonce aad m c henc key' nonce' aad' m'
  have hsame : (key' = key ∧ nonce' = nonce ∧ aad' = aad) ↔
      (⟨key', nonce', aad'⟩ : Sealing) = ⟨key, nonce, aad⟩ := by
    rw [Sealing.mk.injEq]
  rw [← and_assoc, ← and_assoc, and_assoc (a := key' = key), hsame]
  unfold spellingEncrypt at henc
  unfold spellingDecrypt
  generalize (⟨key, nonce, aad⟩ : Sealing) = x at henc ⊢
  generalize (⟨key', nonce', aad'⟩ : Sealing) = x'
  by_cases hgiven : x = at₀ ∧ m = m₀
  · rw [if_pos hgiven] at henc
    obtain rfl := Option.some.inj henc
    obtain ⟨rfl, rfl⟩ := hgiven
    rw [if_pos rfl]
    by_cases hx : x' = x
    · simp [hx, eq_comm]
    · simp [hx]
  · rw [if_neg hgiven] at henc
    obtain rfl := Option.some.inj henc
    have hne : x.spell first ++ m ≠ c₀ := by
      rintro rfl
      exact hfirst rfl
    simp only [if_neg hne]
    by_cases hx : x' = x
    · subst hx
      rw [List.drop_left, if_pos ⟨List.prefix_append _ _, hgiven⟩]
      simp [eq_comm]
    · have hnot : ¬ x'.spell first <+: x.spell first ++ m := by
        rintro ⟨rest, hrest⟩
        exact hx (Sealing.spell_append_inj hrest).1
      simp [hx, hnot]

end spelling

end Aead
