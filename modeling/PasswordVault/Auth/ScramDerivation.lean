import Mathlib.Data.Set.Function
import PasswordVault.Auth.Scram
import PasswordVault.Library.Pbkdf2

/-!
# Deriving and proving the password

The side of the proof that the client computes: the salted password, the verifier that the server
stores, and the proof for a login message. `scram_exact` says that the salted password is the first
block of PBKDF2, that a derived proof is accepted, and which proofs are accepted at all.
-/

namespace PasswordVault

namespace Scram

def MIN_ITERATIONS : UInt32 := 4096
def MAX_ITERATIONS : UInt32 := 1000000
def MIN_SALT_BYTES : Nat := 16

inductive ScramError where
  | iterationsTooLow (minimum actual : UInt32)
  | iterationsTooHigh (maximum actual : UInt32)
  | saltTooShort (minimum actual : Nat)
  | invalidProofLength
  deriving DecidableEq

structure ScramVerifier where
  storedKey : Bytes
  serverKey : Bytes

def validateIterations (iterations : UInt32) : Except ScramError Unit :=
  if iterations < MIN_ITERATIONS then .error (.iterationsTooLow MIN_ITERATIONS iterations)
  else if MAX_ITERATIONS < iterations then .error (.iterationsTooHigh MAX_ITERATIONS iterations)
  else .ok ()

def validateSalt (salt : Bytes) : Except ScramError Unit :=
  if salt.length < MIN_SALT_BYTES then .error (.saltTooShort MIN_SALT_BYTES salt.length) else .ok ()

/-- The rounds that are left of the loop: hash `u` again and mix it into the output. -/
def mixRounds (P : Platform) (clientAuthSecret : Bytes) : Nat → Bytes → Bytes → Bytes
  | 0, _, output => output
  | n + 1, u, output =>
      let u := P.hmacSha256 clientAuthSecret u
      mixRounds P clientAuthSecret n u (List.zipWith (· ^^^ ·) output u)

def saltedPassword (P : Platform) (clientAuthSecret salt : Bytes) (iterations : UInt32) :
    Except ScramError Bytes := do
  validateIterations iterations
  validateSalt salt
  let u := P.hmacSha256 clientAuthSecret (salt ++ toBeBytes 4 1)
  -- `for _ in 1..iterations`
  .ok (mixRounds P clientAuthSecret (iterations.toNat - 1) u u)

def deriveVerifier (P : Platform) (clientAuthSecret salt : Bytes) (iterations : UInt32) :
    Except ScramError ScramVerifier := do
  let saltedPassword ← saltedPassword P clientAuthSecret salt iterations
  let clientKey := P.hmacSha256 saltedPassword (utf8Bytes "Client Key")
  .ok ⟨P.sha256 clientKey, P.hmacSha256 saltedPassword (utf8Bytes "Server Key")⟩

def clientProof (P : Platform) (clientAuthSecret salt : Bytes) (iterations : UInt32)
    (authMessage : Bytes) : Except ScramError Bytes := do
  let saltedPassword ← saltedPassword P clientAuthSecret salt iterations
  let clientKey := P.hmacSha256 saltedPassword (utf8Bytes "Client Key")
  let storedKey := P.sha256 clientKey
  let clientSignature := P.hmacSha256 storedKey authMessage
  .ok (xorKeys clientKey clientSignature)

/-! ## The salted password -/

variable {P : Platform} {clientAuthSecret salt : Bytes} {iterations : UInt32}

/-- **The loop computes the block**: from round `c` it goes on to round `c + n`. -/
theorem mixRounds_eq (n c : Nat) :
    mixRounds P clientAuthSecret n (Pbkdf2.iterate (P.hmacSha256 clientAuthSecret) salt 1 c)
      (Pbkdf2.block (P.hmacSha256 clientAuthSecret) KEY_LEN salt (c + 1) 1) =
    Pbkdf2.block (P.hmacSha256 clientAuthSecret) KEY_LEN salt (c + 1 + n) 1 := by
  induction n generalizing c with
  | zero => rfl
  | succ n ih =>
      have hnext := ih (c + 1)
      rw [Pbkdf2.block_succ (c + 1)] at hnext
      rw [show c + 1 + (n + 1) = c + 1 + 1 + n by omega]
      exact hnext

lemma validate_ok (hmin : MIN_ITERATIONS ≤ iterations) (hmax : iterations ≤ MAX_ITERATIONS)
    (hsalt : MIN_SALT_BYTES ≤ salt.length) :
    validateIterations iterations = .ok () ∧ validateSalt salt = .ok () := by
  constructor
  · rw [validateIterations, if_neg (UInt32.not_lt.mpr hmin), if_neg (UInt32.not_lt.mpr hmax)]
  · rw [validateSalt, if_neg (Nat.not_lt.mpr hsalt)]

theorem saltedPassword_eq (hmin : MIN_ITERATIONS ≤ iterations)
    (hmax : iterations ≤ MAX_ITERATIONS) (hsalt : MIN_SALT_BYTES ≤ salt.length) :
    saltedPassword P clientAuthSecret salt iterations =
      .ok (Pbkdf2.block (P.hmacSha256 clientAuthSecret) KEY_LEN salt iterations.toNat 1) := by
  obtain ⟨hiterations, hsalt⟩ := validate_ok hmin hmax hsalt
  have hpos : 4096 ≤ iterations.toNat := UInt32.le_iff_toNat_le.mp hmin
  have hfirst : P.hmacSha256 clientAuthSecret (salt ++ toBeBytes 4 1) =
      Pbkdf2.iterate (P.hmacSha256 clientAuthSecret) salt 1 0 := rfl
  have hblock : Pbkdf2.iterate (P.hmacSha256 clientAuthSecret) salt 1 0 =
      Pbkdf2.block (P.hmacSha256 clientAuthSecret) KEY_LEN salt (0 + 1) 1 :=
    (Pbkdf2.block_one fun m => P.hmacSha256_length _ m).symm
  unfold saltedPassword
  rw [hiterations, hsalt]
  change Except.ok (mixRounds P clientAuthSecret (iterations.toNat - 1) _ _) = _
  rw [hfirst]
  nth_rewrite 2 [hblock]
  rw [mixRounds_eq]
  rw [show 0 + 1 + (iterations.toNat - 1) = iterations.toNat by omega]

/-! ## Proofs -/

lemma xorKeys_length {left right : Bytes} (hleft : left.length = KEY_LEN)
    (hright : right.length = KEY_LEN) : (xorKeys left right).length = KEY_LEN := by
  simp [xorKeys, hleft, hright]

lemma xorKeys_cancel {left right : Bytes} (h : left.length = right.length) :
    xorKeys (xorKeys left right) right = left :=
  Pbkdf2.xorBytes_cancel h

/-- The proofs that the server accepts for a stored key and a message. -/
def Accepted (P : Platform) (storedKey authMessage : Bytes) : Set Bytes :=
  fun proof => verifyClientProof P storedKey authMessage proof = some true

/-- The client keys whose hash is the stored key. -/
def Preimages (P : Platform) (storedKey : Bytes) : Set Bytes :=
  fun clientKey => clientKey.length = KEY_LEN ∧ P.sha256 clientKey = storedKey

lemma mem_accepted {storedKey authMessage proof : Bytes} :
    proof ∈ Accepted P storedKey authMessage ↔ proof.length = KEY_LEN ∧
      P.sha256 (xorKeys proof (P.hmacSha256 storedKey authMessage)) = storedKey := by
  change verifyClientProof P storedKey authMessage proof = some true ↔ _
  unfold verifyClientProof
  by_cases hlength : proof.length = KEY_LEN
  · simp [hlength]
  · simp [hlength]

/-- **Taking the signature off is one to one** between the accepted proofs and the preimages of the
stored key. -/
theorem accepted_bijOn (storedKey authMessage : Bytes) :
    Set.BijOn (fun proof => xorKeys proof (P.hmacSha256 storedKey authMessage))
      (Accepted P storedKey authMessage) (Preimages P storedKey) := by
  have hsignature : (P.hmacSha256 storedKey authMessage).length = KEY_LEN := P.hmacSha256_length _ _
  refine ⟨?_, ?_, ?_⟩
  · intro proof hproof
    obtain ⟨hlength, hhash⟩ := mem_accepted.mp hproof
    exact ⟨xorKeys_length hlength hsignature, hhash⟩
  · intro proof hproof proof' hproof' heq
    have hlength := (mem_accepted.mp hproof).1
    have hlength' := (mem_accepted.mp hproof').1
    dsimp only at heq
    rw [← xorKeys_cancel (hlength.trans hsignature.symm), heq,
      xorKeys_cancel (hlength'.trans hsignature.symm)]
  · rintro clientKey ⟨hlength, hhash⟩
    have hcancel := xorKeys_cancel (hlength.trans hsignature.symm)
    refine ⟨xorKeys clientKey (P.hmacSha256 storedKey authMessage), ?_, hcancel⟩
    exact mem_accepted.mpr ⟨xorKeys_length hlength hsignature, by rw [hcancel]; exact hhash⟩

/-- The password proof is complete and exact. -/
structure Exact (P : Platform) : Prop where
  /-- The salted password is the first block of PBKDF2-HMAC-SHA-256. -/
  salted : ∀ clientAuthSecret salt iterations, MIN_SALT_BYTES ≤ salt.length →
    MIN_ITERATIONS ≤ iterations → iterations ≤ MAX_ITERATIONS →
    saltedPassword P clientAuthSecret salt iterations =
      .ok (Pbkdf2.block (P.hmacSha256 clientAuthSecret) KEY_LEN salt iterations.toNat 1)
  /-- The proof of a client is accepted against the verifier of the same secret. -/
  complete : ∀ clientAuthSecret salt iterations authMessage, MIN_SALT_BYTES ≤ salt.length →
    MIN_ITERATIONS ≤ iterations → iterations ≤ MAX_ITERATIONS →
    ∃ verifier proof, deriveVerifier P clientAuthSecret salt iterations = .ok verifier ∧
      clientProof P clientAuthSecret salt iterations authMessage = .ok proof ∧
      verifyClientProof P verifier.storedKey authMessage proof = some true
  /-- A proof of the right length is accepted if and only if it unmasks a preimage. -/
  accepts : ∀ storedKey authMessage proof, proof.length = KEY_LEN →
    (verifyClientProof P storedKey authMessage proof = some true ↔
      P.sha256 (xorKeys proof (P.hmacSha256 storedKey authMessage)) = storedKey)
  /-- So the accepted proofs are as many as the preimages. -/
  bijective : ∀ storedKey authMessage,
    Set.BijOn (fun proof => xorKeys proof (P.hmacSha256 storedKey authMessage))
      (Accepted P storedKey authMessage) (Preimages P storedKey)

/-- **The password proof is complete and exact**, over any HMAC and hash of 32 bytes. -/
theorem scram_exact (P : Platform) : Exact P := by
  refine ⟨fun _ _ _ hsalt hmin hmax => saltedPassword_eq hmin hmax hsalt, ?_, ?_, ?_⟩
  · intro clientAuthSecret salt iterations authMessage hsalt hmin hmax
    have hsalted := @saltedPassword_eq P clientAuthSecret salt iterations hmin hmax hsalt
    generalize Pbkdf2.block _ _ _ _ _ = salted at hsalted
    let clientKey := P.hmacSha256 salted (utf8Bytes "Client Key")
    have hkey : clientKey.length = KEY_LEN := P.hmacSha256_length _ _
    have hsignature : (P.hmacSha256 (P.sha256 clientKey) authMessage).length = KEY_LEN :=
      P.hmacSha256_length _ _
    refine ⟨⟨P.sha256 clientKey, P.hmacSha256 salted (utf8Bytes "Server Key")⟩,
      xorKeys clientKey (P.hmacSha256 (P.sha256 clientKey) authMessage), ?_, ?_, ?_⟩
    · rw [deriveVerifier, hsalted]
      rfl
    · rw [clientProof, hsalted]
      rfl
    · apply mem_accepted.mpr
      refine ⟨xorKeys_length hkey hsignature, ?_⟩
      -- the signature comes off again
      rw [xorKeys_cancel (hkey.trans hsignature.symm)]
  · intro storedKey authMessage proof hlength
    exact mem_accepted.trans (and_iff_right hlength)
  · exact fun storedKey authMessage => accepted_bijOn storedKey authMessage

end Scram

end PasswordVault
