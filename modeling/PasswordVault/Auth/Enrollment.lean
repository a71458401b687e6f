import PasswordVault.Auth.Mfa

/-!
# Enrolling a second factor

* `totpEnrollStart`: drops the factor of the account and inserts a pending one with a new seed.
* `totpEnrollConfirm`: a right code makes the pending factor the verified one, replaces the
  recovery codes and turns the session into a fully verified one with a new token; a wrong code
  drops the pending factor.
-/

namespace PasswordVault

open Transactions

def TOTP_ISSUER : String := "Password Vault"
def TOTP_SEED_BYTES : Nat := 20
def RECOVERY_CODE_COUNT : Nat := 10
def RECOVERY_CODE_RANDOM_BYTES : Nat := 16

def ensureTotpEnrollmentSession (session : CurrentSession) : Except ApiError Unit :=
  match session.sessionState with
  | .mfaEnrollmentRequired | .mfaRecovery => .ok ()
  | .mfaVerified => .error .mfaRequired

def encryptTotpSeed (P : Platform) (key nonce aad seed : Bytes) : Except ApiError Bytes :=
  orUnavailable (P.encrypt key nonce aad seed)

/-- `fetch_one`: a missing row is an error. -/
def accountLoginHandle (accountId : Uuid) : Api String := do
  let handle ← onPool (.query fun s : Db =>
    (s.accounts.find? accountId).map Account.loginHandleNormalized)
  attempt (orUnavailable handle)

/-! ## Starting -/

/-- The row of a pending factor. -/
def pendingFactor (draws : Draws) (accountId : Uuid) (seedCiphertext : Bytes) : TotpFactor :=
  { id := draws.uuid 0
    accountId
    seedCiphertext
    seedNonce := draws.bytes 1 XCHACHA20POLY1305_NONCE_BYTES
    seedKeyId := TOTP_SEED_KEY_ID
    seedAead := TOTP_SEED_AEAD
    algorithm := "SHA1"
    digits := 6
    periodSeconds := 30
    lastAcceptedStep := none
    verifiedAt := none
    updatedAt := draws.dbClock }

def totpEnrollStart (P : Platform) (state : AppState) (draws : Draws) (headers : HeaderMap) :
    Api Response := do
  attempt (databasePool state)
  let totpSeedKey ← attempt (orUnavailable state.totpSeedKey)
  let now := nowUtcSecond (draws.clock 0)
  let session ← loadCurrentSession P headers now
  let session ← attempt (requireSession session)
  attempt (ensureTotpEnrollmentSession session)
  attempt (ensureUnsafeRequestContext headers)
  ensureCsrfToken P headers session.id
  let session ← refreshSessionActivity session now
  let factorId := draws.uuid 0
  let seed := draws.bytes 0 TOTP_SEED_BYTES
  let nonce := draws.bytes 1 XCHACHA20POLY1305_NONCE_BYTES
  let profile := Totp.TotpProfile.googleAuthenticatorDefault
  let aad := totpSeedAad session.accountId factorId profile
  let seedCiphertext ← attempt (encryptTotpSeed P totpSeedKey nonce aad seed)
  let loginHandle ← accountLoginHandle session.accountId
  let otpauthUri ← attempt (orUnavailable
    (Totp.provisioningUri TOTP_ISSUER loginHandle seed profile).toOption)
  let manualSecret := Totp.base32NoPadding seed
  let _ ← inTx (totpFactors.delete fun f => f.accountId == session.accountId)
  inTx (totpFactors.insert (pendingFactor draws session.accountId seedCiphertext))
  insertAuditEvent session.accountId session.deviceId "mfa_totp_enrollment_started"
    (.obj [("factor_id", .str factorId.toText)])
  commitAnd (orError do
    let expires ← formatRfc3339 P session.idleExpiresAt
    .ok ⟨200, .totpEnrollStart factorId "pending"
      ⟨profile.algorithm.asUriValue, profile.digits, profile.periodSeconds⟩ otpauthUri
      manualSecret expires, none⟩)

/-! ## Confirming -/

/-- Groups of four characters, joined by hyphens. -/
def hyphenate : List Char → List Char
  | a :: b :: c :: d :: e :: rest => a :: b :: c :: d :: '-' :: hyphenate (e :: rest)
  | cs => cs

def recoveryCodeFromRandom (random : Bytes) : String :=
  String.ofList (recoveryCodeStart ++
    hyphenate ((Totp.base32NoPadding random).toList.map asciiLower))

/-- The codes of a request's draws. -/
def generateRecoveryCodes (draws : Draws) : List String :=
  (List.finRange RECOVERY_CODE_COUNT).map fun i : Fin RECOVERY_CODE_COUNT =>
    recoveryCodeFromRandom (draws.bytes ⟨i.val, Nat.lt_trans i.isLt (by decide)⟩
      RECOVERY_CODE_RANDOM_BYTES)

/-- The row of the `i`th new recovery code. -/
def newRecoveryCode (P : Platform) (draws : Draws) (accountId : Uuid) (i : Fin 10)
    (code : String) : RecoveryCode :=
  let salt := draws.bytes ⟨10 + i, by omega⟩ RECOVERY_CODE_SALT_BYTES
  { id := draws.uuid ⟨i, by omega⟩
    accountId
    codeSalt := salt
    codeHash := recoveryCodeHash P accountId salt code }

/-- The rows of all new recovery codes. -/
def newRecoveryCodes (P : Platform) (draws : Draws) (accountId : Uuid) : List RecoveryCode :=
  List.zipWith (newRecoveryCode P draws accountId) (List.finRange 10) (generateRecoveryCodes draws)

/-- The loop that inserts the new recovery codes. -/
def insertRecoveryCodes : List RecoveryCode → Api Unit
  | [] => pure ()
  | row :: rest => do
      inTx (recoveryCodes.insert row)
      insertRecoveryCodes rest

structure TotpEnrollConfirmRequest where
  factorId : Uuid
  code : String

def totpEnrollConfirm (P : Platform) (state : AppState) (draws : Draws) (headers : HeaderMap)
    (request : TotpEnrollConfirmRequest) : Api Response := do
  attempt (databasePool state)
  let totpSeedKey ← attempt (orUnavailable state.totpSeedKey)
  let now := nowUtcSecond (draws.clock 0)
  let session ← loadCurrentSession P headers now
  let session ← attempt (requireSession session)
  attempt (ensureTotpEnrollmentSession session)
  attempt (ensureUnsafeRequestContext headers)
  ensureCsrfToken P headers session.id
  let factor ← inTx (totpFactors.lockRows fun f =>
    f.id == request.factorId && f.accountId == session.accountId)
  match factor.head? with
  | none => fail .mfaVerificationFailed
  | some factor => do
      let profile ← attempt (totpProfileFromRow factor)
      attempt (ensure factor.verifiedAt.isNone .mfaVerificationFailed)
      let acceptedStep ← attempt (checkFactorCode P totpSeedKey session.accountId request.factorId
        factor now request.code profile)
      match acceptedStep with
      | none => do
          let _ ← inTx (totpFactors.delete fun f => f.id == request.factorId &&
            f.accountId == session.accountId && f.verifiedAt.isNone)
          insertAuditEvent session.accountId session.deviceId "mfa_totp_enrollment_failed"
            (.obj [("factor_id", .str request.factorId.toText)])
          commitAnd ApiError.mfaVerificationFailed.intoResponse
      | some acceptedStep => do
          let codes := generateRecoveryCodes draws
          let _ ← inTx (recoveryCodes.delete fun c => c.accountId == session.accountId)
          insertRecoveryCodes (newRecoveryCodes P draws session.accountId)
          let sessionToken := draws.bytes 20 TOKEN_LEN
          let sessionTokenHash := sha256Verifier P sessionToken
          let idleExpiresAt := minTime (now + SESSION_IDLE_TTL) session.absoluteExpiresAt
          let step ← attempt (stepToRow acceptedStep)
          let _ ← inTx (totpFactors.update (fun f => f.id == request.factorId)
            (fun f => { f with
              verifiedAt := some now
              lastAcceptedStep := some step
              updatedAt := now }) fun _ => rfl)
          let _ ← inTx (sessions.update (fun r => r.id == session.id)
            (fun r => { r with
              sessionTokenHash := sessionTokenHash
              csrfTokenHash := none
              sessionState := .mfaVerified
              lastSeenAt := some now
              idleExpiresAt := idleExpiresAt
              expiresAt := idleExpiresAt }) fun _ => rfl)
          insertAuditEvent session.accountId session.deviceId "mfa_totp_enrollment_confirmed"
            (.obj [("factor_id", .str request.factorId.toText),
              ("recovery_code_count", .num (.int codes.length))])
          commitAnd (orError do
            let response ← sessionResponse P .mfaVerified idleExpiresAt session.absoluteExpiresAt
            .ok ⟨200, .totpEnrollConfirm request.factorId "active" response codes,
              some (sessionCookie sessionToken)⟩)

end PasswordVault
