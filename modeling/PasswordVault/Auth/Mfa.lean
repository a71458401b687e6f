import PasswordVault.Auth.Login
import PasswordVault.Auth.Totp

/-!
# The second factor of a login

A `pre_mfa` challenge is answered with a TOTP code (`totpVerify`) or a recovery code
(`recoveryCodeVerify`). A wrong answer is counted on the challenge, the fifth one consumes it; a
right one consumes it and creates a session.
-/

namespace PasswordVault

open Transactions

def MFA_CHALLENGE_MAX_ATTEMPTS : Int := 5
def TOTP_SEED_AEAD : String := "xchacha20poly1305-v1"
def TOTP_SEED_KEY_ID : String := "app-totp-seed-key-v1"
def XCHACHA20POLY1305_NONCE_BYTES : Nat := 24
def RECOVERY_CODE_SALT_BYTES : Nat := 16
def MAX_RECOVERY_CODE_BYTES : Nat := 128

/-! ## Counting failed attempts -/

/-- The row after one more failed attempt. -/
def AuthChallenge.incremented (c : AuthChallenge) (now : Time) : AuthChallenge :=
  { c with
    attempts := c.attempts + 1
    consumedAt := if MFA_CHALLENGE_MAX_ATTEMPTS ≤ c.attempts + 1 then some now else c.consumedAt }

def incrementChallengeAttempts (challengeId : Uuid) (now : Time) : Api Unit := do
  let _ ← inTx (authChallenges.update (fun c => c.id == challengeId)
    (fun c => c.incremented now) fun _ => rfl)

/-! ## Seeds -/

def totpProfileFromRow (f : TotpFactor) : Except ApiError Totp.TotpProfile := do
  let algorithm ←
    if f.algorithm = "SHA1" then Except.ok Totp.TotpAlgorithm.sha1
    else if f.algorithm = "SHA256" then .ok .sha256
    else if f.algorithm = "SHA512" then .ok .sha512
    else .error .serviceUnavailable
  ensure (decide (0 ≤ f.digits)) .serviceUnavailable
  ensure (decide (0 ≤ f.periodSeconds)) .serviceUnavailable
  .ok ⟨algorithm, f.digits.toNat, f.periodSeconds.toNat⟩

def totpSeedAad (accountId factorId : Uuid) (profile : Totp.TotpProfile) : Bytes :=
  utf8Bytes "password-vault/totp-seed/v1" ++ [0] ++ accountId.asBytes ++ [0] ++
    factorId.asBytes ++ [0] ++ utf8Bytes TOTP_SEED_KEY_ID ++ [0] ++
    utf8Bytes profile.algorithm.asUriValue ++ [0] ++ toBeBytes 4 profile.digits ++ [0] ++
    toBeBytes 8 profile.periodSeconds

def decryptTotpSeed (P : Platform) (key nonce aad ciphertext : Bytes) : Except ApiError Bytes := do
  ensure (nonce.length == XCHACHA20POLY1305_NONCE_BYTES) .serviceUnavailable
  orUnavailable (P.decrypt key nonce aad ciphertext)

/-- `u64::try_from` of a stored step. -/
def stepFromRow : Option Int → Except ApiError (Option Nat)
  | none => .ok none
  | some n => if 0 ≤ n then .ok (some n.toNat) else .error .serviceUnavailable

def unixTimeSeconds (t : Time) : Except ApiError Nat :=
  if 0 ≤ t / 1000000 then .ok (t / 1000000).toNat else .error .serviceUnavailable

/-- `i64::try_from` of an accepted step. -/
def stepToRow (step : Nat) : Except ApiError Int :=
  if step < 2 ^ 63 then .ok step else .error .serviceUnavailable

/-- Decrypt the seed of a factor and verify a code against it; an error of the verification counts
as a wrong code. -/
def checkFactorCode (P : Platform) (seedKey : Bytes) (accountId factorId : Uuid) (f : TotpFactor)
    (now : Time) (code : String) (profile : Totp.TotpProfile) : Except ApiError (Option Nat) := do
  ensure (f.seedKeyId == TOTP_SEED_KEY_ID && f.seedAead == TOTP_SEED_AEAD) .serviceUnavailable
  let lastAcceptedStep ← stepFromRow f.lastAcceptedStep
  let seed ← decryptTotpSeed P seedKey f.seedNonce (totpSeedAad accountId factorId profile)
    f.seedCiphertext
  let time ← unixTimeSeconds now
  match Totp.verify P seed time code profile lastAcceptedStep with
  | .ok step => .ok step
  | .error _ => .ok none

/-! ## TOTP codes -/

structure TotpVerifyRequest where
  mfaChallengeId : Uuid
  code : String

def totpVerify (P : Platform) (state : AppState) (draws : Draws) (headers : HeaderMap)
    (request : TotpVerifyRequest) : Api Response := do
  attempt (ensureUnsafeRequestContext headers)
  attempt (databasePool state)
  let totpSeedKey ← attempt (orUnavailable state.totpSeedKey)
  let now := nowUtcSecond (draws.clock 0)
  let challenge ← inTx (authChallenges.lockRows (isOpenChallenge request.mfaChallengeId .preMfa now))
  match challenge.head? with
  | none => fail .mfaVerificationFailed
  | some challenge => do
      let accountId ← attempt (orUnavailable challenge.accountId)
      attempt (ensure (decide (challenge.attempts < MFA_CHALLENGE_MAX_ATTEMPTS))
        .mfaVerificationFailed)
      let preMfaMetadata ← attempt (decodePreMfaChallengeMetadata
        (challenge.publicMetadata.readBack P))
      let device ← attempt preMfaMetadata.device.intoValidated
      let factor ← inTx (totpFactors.lockRows fun f =>
        f.accountId == accountId && f.verifiedAt.isSome)
      match factor.head? with
      | none => fail .mfaVerificationFailed
      | some factor => do
          let profile ← attempt (totpProfileFromRow factor)
          let acceptedStep ← attempt (checkFactorCode P totpSeedKey accountId factor.id factor now
            request.code profile)
          match acceptedStep with
          | none => do
              incrementChallengeAttempts challenge.id now
              insertAuditEvent accountId none "mfa_totp_login_failed"
                (.obj [("factor_id", .str factor.id.toText)])
              commitAnd ApiError.mfaVerificationFailed.intoResponse
          | some acceptedStep => do
              let created ← createSessionWithDevice P draws accountId device .mfaVerified now
              let step ← attempt (stepToRow acceptedStep)
              let _ ← inTx (totpFactors.update (fun f => f.id == factor.id)
                (fun f => { f with lastAcceptedStep := some step, updatedAt := now }) fun _ => rfl)
              consumeAuthChallenge challenge.id now
              insertAuditEvent accountId (some created.deviceId) "mfa_totp_login_verified"
                (.obj [("factor_id", .str factor.id.toText)])
              commitAnd (orError do
                let session ← sessionResponse P .mfaVerified created.idleExpiresAt
                  created.absoluteExpiresAt
                .ok ⟨200, .totpVerify "session_created" session,
                  some (sessionCookie created.sessionToken)⟩)

/-! ## Recovery codes -/

def recoveryCodeHash (P : Platform) (accountId : Uuid) (salt : Bytes) (code : String) : Bytes :=
  P.sha256 (utf8Bytes "password-vault/recovery-code/v1" ++ [0] ++ accountId.asBytes ++ [0] ++
    salt ++ [0] ++ utf8Bytes (toAsciiLowercase (trim code)))

/-- The start of every recovery code. -/
def recoveryCodeStart : List Char := ['p', 'v', 'r', 'c', '-']

def isRecoveryCodeChar (c : Char) : Bool :=
  (97 ≤ c.toNat && c.toNat ≤ 122) || (48 ≤ c.toNat && c.toNat ≤ 57) || c == '-'

def validateRecoveryCode (code : String) : Except ApiError String := do
  let code := toAsciiLowercase (trim code)
  ensure (!(code.isEmpty || decide (MAX_RECOVERY_CODE_BYTES < byteLen code) ||
    !recoveryCodeStart.isPrefixOf code.toList || code.toList.any isWhiteSpace ||
    code.toList.any fun c => !isRecoveryCodeChar c)) .mfaVerificationFailed
  .ok code

/-- The loop over the unused codes: the last one that matches. -/
def matchRecoveryCode (P : Platform) (accountId : Uuid) (recoveryCode : String)
    (matched : Option Uuid) : List RecoveryCode → Except ApiError (Option Uuid)
  | [] => .ok matched
  | row :: rest =>
      if row.codeSalt.length = RECOVERY_CODE_SALT_BYTES then
        matchRecoveryCode P accountId recoveryCode
          (if row.codeHash == recoveryCodeHash P accountId row.codeSalt recoveryCode then
            some row.id else matched) rest
      else .error .serviceUnavailable

/-- The code that the loop picks has the hash of the text. -/
lemma matchRecoveryCode_some {P : Platform} {accountId : Uuid} {recoveryCode : String} {id : Uuid}
    {rows : List RecoveryCode} {matched : Option Uuid}
    (h : matchRecoveryCode P accountId recoveryCode matched rows = .ok (some id)) :
    matched = some id ∨ ∃ row ∈ rows, row.id = id ∧
      row.codeHash = recoveryCodeHash P accountId row.codeSalt recoveryCode := by
  induction rows generalizing matched with
  | nil =>
      rw [matchRecoveryCode] at h
      exact .inl (Except.ok.inj h)
  | cons row rest ih =>
      rw [matchRecoveryCode] at h
      split at h
      · rcases ih h with hmatched | ⟨r, hr, hid, hhash⟩
        · split at hmatched
          · rename_i heq
            exact .inr ⟨row, List.mem_cons_self, Option.some.inj hmatched, eq_of_beq heq⟩
          · exact .inl hmatched
        · exact .inr ⟨r, List.mem_cons_of_mem _ hr, hid, hhash⟩
      · cases h

def findMatchingRecoveryCode (P : Platform) (accountId : Uuid) (recoveryCode : String) :
    Api (Option Uuid) := do
  let rows ← inTx (recoveryCodes.lockRows fun c => c.accountId == accountId && c.usedAt.isNone)
  attempt (matchRecoveryCode P accountId recoveryCode none rows)

def consumeRecoveryCode (accountId recoveryCodeId : Uuid) (now : Time) : Api Unit := do
  let rowsAffected ← inTx (recoveryCodes.update
    (fun c => c.id == recoveryCodeId && c.accountId == accountId && c.usedAt.isNone)
    (fun c => { c with usedAt := some now }) fun _ => rfl)
  if rowsAffected = 1 then pure () else fail .mfaVerificationFailed

structure RecoveryCodeVerifyRequest where
  mfaChallengeId : Uuid
  recoveryCode : String

def recoveryCodeVerify (P : Platform) (state : AppState) (draws : Draws) (headers : HeaderMap)
    (request : RecoveryCodeVerifyRequest) : Api Response := do
  attempt (ensureUnsafeRequestContext headers)
  attempt (databasePool state)
  let now := nowUtcSecond (draws.clock 0)
  -- `load_pre_mfa_challenge`
  let challenge ← inTx (authChallenges.lockRows (isOpenChallenge request.mfaChallengeId .preMfa now))
  match challenge.head? with
  | none => fail .mfaVerificationFailed
  | some challenge => do
      let accountId ← attempt (orUnavailable challenge.accountId)
      let metadata ← attempt (decodePreMfaChallengeMetadata
        (challenge.publicMetadata.readBack P))
      attempt (ensure (decide (challenge.attempts < MFA_CHALLENGE_MAX_ATTEMPTS))
        .mfaVerificationFailed)
      let device ← attempt metadata.device.intoValidated
      let recoveryCodeId ← match validateRecoveryCode request.recoveryCode with
        | .ok recoveryCode => findMatchingRecoveryCode P accountId recoveryCode
        | .error _ => pure none
      match recoveryCodeId with
      | none => do
          incrementChallengeAttempts challenge.id now
          insertAuditEvent accountId none "mfa_recovery_code_login_failed" (.obj [])
          commitAnd ApiError.mfaVerificationFailed.intoResponse
      | some recoveryCodeId => do
          consumeRecoveryCode accountId recoveryCodeId now
          let created ← createSessionWithDevice P draws accountId device .mfaRecovery now
          consumeAuthChallenge challenge.id now
          insertAuditEvent accountId (some created.deviceId) "mfa_recovery_code_login_verified"
            (.obj [])
          commitAnd (orError do
            let session ← sessionResponse P .mfaRecovery created.idleExpiresAt
              created.absoluteExpiresAt
            .ok ⟨200, .recoveryCodeVerify "session_created" session "reenroll_totp",
              some (sessionCookie created.sessionToken)⟩)

end PasswordVault
