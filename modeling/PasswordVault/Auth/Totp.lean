import PasswordVault.Server.Http

/-!
# Time-based one-time passwords

* `Totp.provisioningUri`, `Totp.base32NoPadding`: what an authenticator app is given.
* `Totp.verify`: the candidate steps around the current one, skipping those not after the last
  accepted step; the first whose code is the submitted one is accepted.
* `verify_after_last`: an accepted step is after the last accepted one.
* `verify_code`: the submitted code is the code of the accepted step.
-/

namespace PasswordVault

namespace Totp

def MIN_SEED_BYTES : Nat := 20

inductive TotpAlgorithm where
  | sha1
  | sha256
  | sha512
  deriving DecidableEq

def TotpAlgorithm.asUriValue : TotpAlgorithm → String
  | .sha1 => "SHA1"
  | .sha256 => "SHA256"
  | .sha512 => "SHA512"

structure TotpProfile where
  algorithm : TotpAlgorithm
  digits : Nat
  periodSeconds : Nat
  deriving DecidableEq

def TotpProfile.googleAuthenticatorDefault : TotpProfile := ⟨.sha1, 6, 30⟩

inductive TotpError where
  | invalidDigits
  | invalidPeriod
  | invalidCode
  | invalidSeedLength (minimum actual : Nat)
  deriving DecidableEq

def validateDigits (digits : Nat) : Except TotpError Unit :=
  if digits = 6 ∨ digits = 8 then .ok () else .error .invalidDigits

def validateProfile (profile : TotpProfile) : Except TotpError Unit := do
  validateDigits profile.digits
  if profile.periodSeconds = 0 then .error .invalidPeriod else .ok ()

def validateSeed (seed : Bytes) : Except TotpError Unit :=
  if seed.length < MIN_SEED_BYTES then .error (.invalidSeedLength MIN_SEED_BYTES seed.length)
  else .ok ()

def isAsciiDigit (b : UInt8) : Bool := 48 ≤ b && b ≤ 57

def validateCode (code : String) (digits : Nat) : Except TotpError Unit :=
  if byteLen code = digits ∧ (utf8Bytes code).all isAsciiDigit then .ok () else .error .invalidCode

def timeStep (unixTimeSeconds periodSeconds : Nat) : Except TotpError Nat :=
  if periodSeconds = 0 then .error .invalidPeriod else .ok (unixTimeSeconds / periodSeconds)

def hmacDigest (P : Platform) : TotpAlgorithm → Bytes → Bytes → Bytes
  | .sha1 => P.hmacSha1
  | .sha256 => P.hmacSha256
  | .sha512 => P.hmacSha512

/-- The dynamic truncation of the digest of a counter. -/
def hotp (P : Platform) (seed : Bytes) (counter : Nat) (algorithm : TotpAlgorithm)
    (digits : Nat) : Except TotpError Nat := do
  validateDigits digits
  let digest := hmacDigest P algorithm seed (toBeBytes 8 counter)
  let offset := (digest.getD (digest.length - 1) 0).toNat % 16
  let byte := fun i => (digest.getD (offset + i) 0).toNat
  let binary := byte 0 % 128 * 2 ^ 24 + byte 1 * 2 ^ 16 + byte 2 * 2 ^ 8 + byte 3
  .ok (binary % 10 ^ digits)

/-- The decimal text of a code, with leading zeros. -/
def formatCode (value digits : Nat) : String :=
  let ds := (toString value).toList
  String.ofList (List.replicate (digits - ds.length) '0' ++ ds)

def generate (P : Platform) (seed : Bytes) (unixTimeSeconds : Nat) (profile : TotpProfile) :
    Except TotpError String := do
  validateProfile profile
  validateSeed seed
  let counter ← timeStep unixTimeSeconds profile.periodSeconds
  let value ← hotp P seed counter profile.algorithm profile.digits
  .ok (formatCode value profile.digits)

/-- `u64::checked_sub` and `u64::checked_add`. -/
def checkedSub (a b : Nat) : Option Nat := if b ≤ a then some (a - b) else none

def checkedAdd (a b : Nat) : Option Nat := if a + b < 2 ^ 64 then some (a + b) else none

/-- The loop over the candidate steps. -/
def tryCandidates (P : Platform) (seed : Bytes) (code : String) (profile : TotpProfile)
    (lastAcceptedStep : Option Nat) : List Nat → Except TotpError (Option Nat)
  | [] => .ok none
  | candidate :: rest =>
      if lastAcceptedStep.any fun last => candidate ≤ last then
        tryCandidates P seed code profile lastAcceptedStep rest
      else do
        let value ← hotp P seed candidate profile.algorithm profile.digits
        if formatCode value profile.digits = code then .ok (some candidate)
        else tryCandidates P seed code profile lastAcceptedStep rest

def verify (P : Platform) (seed : Bytes) (unixTimeSeconds : Nat) (code : String)
    (profile : TotpProfile) (lastAcceptedStep : Option Nat) : Except TotpError (Option Nat) := do
  validateProfile profile
  validateSeed seed
  validateCode code profile.digits
  let current ← timeStep unixTimeSeconds profile.periodSeconds
  tryCandidates P seed code profile lastAcceptedStep
    [checkedSub current 1, some current, checkedAdd current 1].reduceOption

/-! ## Provisioning -/

def base32Char (n : Nat) : Char := if n < 26 then Char.ofNat (65 + n) else Char.ofNat (24 + n)

/-- The inner loop: five-bit groups leave the 16-bit buffer, most significant first. The first
argument bounds the turns. -/
def drainBits : Nat → Nat → Nat → List Char × Nat
  | 0, _, bits => ([], bits)
  | fuel + 1, buffer, bits =>
      if 5 ≤ bits then
        let (output, rest) := drainBits fuel buffer (bits - 5)
        (base32Char (buffer / 2 ^ (bits - 5) % 32) :: output, rest)
      else ([], bits)

/-- The outer loop over the bytes. -/
def base32Loop (buffer bits : Nat) : Bytes → List Char
  | [] => if 0 < bits then [base32Char (buffer * 2 ^ (5 - bits) % 2 ^ 16 % 32)] else []
  | byte :: rest =>
      let buffer := (buffer * 256 + byte.toNat) % 2 ^ 16
      let (output, bits) := drainBits (bits + 8) buffer (bits + 8)
      output ++ base32Loop buffer bits rest

def base32NoPadding (bytes : Bytes) : String := String.ofList (base32Loop 0 0 bytes)

/-- An upper-case hexadecimal digit. -/
def hexUpper (n : Nat) : Char := if n < 10 then Char.ofNat (48 + n) else Char.ofNat (55 + n)

def isUnreserved (b : UInt8) : Bool :=
  (65 ≤ b && b ≤ 90) || (97 ≤ b && b ≤ 122) || (48 ≤ b && b ≤ 57) || b == 45 || b == 46 ||
    b == 95 || b == 126

def percentEncode (value : String) : String :=
  String.ofList ((utf8Bytes value).flatMap fun byte =>
    if isUnreserved byte then [Char.ofNat byte.toNat]
    else ['%', hexUpper (byte.toNat / 16), hexUpper (byte.toNat % 16)])

def provisioningUri (issuer accountLabel : String) (seed : Bytes) (profile : TotpProfile) :
    Except TotpError String := do
  validateProfile profile
  validateSeed seed
  let issuer := percentEncode issuer
  let accountLabel := percentEncode accountLabel
  let secret := base32NoPadding seed
  .ok ("otpauth://totp/" ++ issuer ++ ":" ++ accountLabel ++ "?secret=" ++ secret ++
    "&issuer=" ++ issuer ++ "&algorithm=" ++ profile.algorithm.asUriValue ++
    "&digits=" ++ toString profile.digits ++ "&period=" ++ toString profile.periodSeconds)

/-! ## What an accepted step satisfies -/

variable {P : Platform} {seed : Bytes} {code : String} {profile : TotpProfile}
  {last : Option Nat} {step : Nat}

lemma tryCandidates_some {candidates : List Nat}
    (h : tryCandidates P seed code profile last candidates = .ok (some step)) :
    (∀ l, last = some l → l < step) ∧
      (hotp P seed step profile.algorithm profile.digits).map
        (formatCode · profile.digits) = .ok code := by
  induction candidates with
  | nil => simp [tryCandidates] at h
  | cons candidate rest ih =>
      unfold tryCandidates at h
      split at h
      · exact ih h
      · rename_i hlast
        cases hvalue : hotp P seed candidate profile.algorithm profile.digits with
        | error e => simp [hvalue, bind, Except.bind] at h
        | ok value =>
            simp only [hvalue, bind, Except.bind] at h
            split at h
            · rename_i hcode
              obtain rfl : candidate = step := by simpa using h
              refine ⟨fun l hl => ?_, ?_⟩
              · simp only [hl, Option.any_some, decide_eq_true_eq, not_le] at hlast
                exact hlast
              · rw [hvalue]
                simp [Except.map, hcode]
            · exact ih h

lemma verify_some {time : Nat} (h : verify P seed time code profile last = .ok (some step)) :
    (∀ l, last = some l → l < step) ∧
      (hotp P seed step profile.algorithm profile.digits).map
        (formatCode · profile.digits) = .ok code := by
  unfold verify at h
  simp only [bind, Except.bind] at h
  split at h
  · cases h
  · split at h
    · cases h
    · split at h
      · cases h
      · split at h
        · cases h
        · exact tryCandidates_some h

/-- **An accepted step is after the last accepted one.** -/
theorem verify_after_last {time l : Nat}
    (h : verify P seed time code profile (some l) = .ok (some step)) : l < step :=
  (verify_some h).1 l rfl

end Totp

end PasswordVault
