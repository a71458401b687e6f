import PasswordVault.Auth.Validation

/-!
# Registration, and the start of a login

* `registerStart`, `loginStart`: issue a challenge, within the rate limit of the handle.
* `registerFinish`: turns a register challenge into an account with its keyset, device, vault, key
  wrap and a session that still has to enroll a second factor.
-/

namespace PasswordVault

open Transactions

def AUTH_CHALLENGE_RATE_LIMIT : Nat := 20
def AUTH_CHALLENGE_RATE_LIMIT_WINDOW : Time := minutes 5
def REGISTER_CHALLENGE_TTL : Time := minutes 10
def LOGIN_CHALLENGE_TTL : Time := minutes 5
def VAULT_CRYPTO_PROFILE_ID : String := "vault-crypto-v1"

/-! ## Challenges -/

def cleanupExpiredChallenges (draws : Draws) : Api Unit := do
  let _ ← onPool (authChallenges.delete fun c => decide (c.expiresAt < draws.dbClock))

def countChallenges (loginHandleNormalized : String) (challengeType : ChallengeType)
    (windowStart : Time) (s : Db) : Nat :=
  (s.authChallenges.list.filter fun c => c.loginHandleNormalized == loginHandleNormalized &&
    c.challengeType == challengeType && decide (windowStart ≤ c.createdAt)).length

def enforceChallengeRateLimit (draws : Draws) (loginHandleNormalized : String)
    (challengeType : ChallengeType) : Api Unit := do
  let windowStart := nowUtcSecond (draws.clock 0) - AUTH_CHALLENGE_RATE_LIMIT_WINDOW
  let count ← onPool (.query (countChallenges loginHandleNormalized challengeType windowStart))
  if AUTH_CHALLENGE_RATE_LIMIT ≤ count then fail .rateLimited else pure ()

/-- The row of a new challenge. -/
def newChallenge (draws : Draws) (id : Uuid) (accountId : Option Uuid)
    (loginHandleNormalized : String) (challengeType : ChallengeType) (serverNonce : Bytes)
    (publicMetadata : ChallengeMetadata) (expiresAt : Time) : AuthChallenge :=
  { id, accountId, loginHandleNormalized, challengeType, serverNonce, publicMetadata, expiresAt
    authProtocol := AUTH_PROTOCOL
    createdAt := draws.dbClock }

/-! ## Starting -/

structure RegisterStartRequest where
  loginHandle : String
  authProtocol : String

def registerStart (P : Platform) (state : AppState) (draws : Draws)
    (request : RegisterStartRequest) : Api Response := do
  attempt (ensureSupportedProtocol request.authProtocol)
  attempt (databasePool state)
  let loginHandleNormalized ← attempt (normalizeLoginHandle request.loginHandle)
  cleanupExpiredChallenges draws
  enforceChallengeRateLimit draws loginHandleNormalized .register
  let registrationId := draws.uuid 0
  let accountSalt := draws.bytes 0 DEFAULT_SALT_BYTES
  let authVerifierSalt := draws.bytes 1 DEFAULT_SALT_BYTES
  let serverNonce := draws.bytes 2 SERVER_NONCE_BYTES
  let expiresAt := nowUtcSecond (draws.clock 1) + REGISTER_CHALLENGE_TTL
  let metadata : RegisterChallengeMetadata :=
    { kdfProfile := defaultKdfProfile
      accountSalt := encodeBase64url accountSalt
      authVerifierProfile := PROFILE_ID
      authVerifierSalt := encodeBase64url authVerifierSalt
      authVerifierIterations := DEFAULT_ITERATIONS }
  onPool (authChallenges.insert (newChallenge draws registrationId none loginHandleNormalized
    .register serverNonce (.register metadata) expiresAt))
  let expires ← attempt (formatRfc3339 P expiresAt)
  pure ⟨200, .registerStart registrationId AUTH_PROTOCOL metadata.kdfProfile metadata.accountSalt
    PROFILE_ID metadata.authVerifierSalt DEFAULT_ITERATIONS expires, none⟩

structure LoginMetadata where
  accountId : Option Uuid
  kdfProfile : Json
  accountSalt : Bytes
  authVerifierSalt : Bytes
  authVerifierIterations : Nat

def loadLoginMetadata (loginHandleNormalized : String) : Api (Option LoginMetadata) := do
  let row ← onPool (.query fun s : Db =>
    s.accounts.list.find? fun a => a.loginHandleNormalized == loginHandleNormalized)
  match row with
  | none => pure none
  | some row =>
      if row.accountSalt.length ≠ DEFAULT_SALT_BYTES ∨
          row.authVerifierSalt.length ≠ DEFAULT_SALT_BYTES ∨
          row.authVerifierIterations ≠ DEFAULT_ITERATIONS ∨
          row.kdfProfile.same defaultKdfProfile = false then
        fail .serviceUnavailable
      else pure (some
        { accountId := some row.id
          kdfProfile := row.kdfProfile
          accountSalt := row.accountSalt
          authVerifierSalt := row.authVerifierSalt
          authVerifierIterations := row.authVerifierIterations.toNat })

def syntheticBytes (P : Platform) (syntheticMetadataKey : Bytes)
    (domain loginHandleNormalized : String) : Bytes :=
  P.hmacSha256 syntheticMetadataKey (utf8Bytes domain ++ [0] ++ utf8Bytes loginHandleNormalized)

def syntheticLoginMetadata (P : Platform) (syntheticMetadataKey : Bytes)
    (loginHandleNormalized : String) : LoginMetadata where
  accountId := none
  kdfProfile := defaultKdfProfile
  accountSalt := syntheticBytes P syntheticMetadataKey "password-vault/synthetic-account-salt/v1"
    loginHandleNormalized
  authVerifierSalt := syntheticBytes P syntheticMetadataKey
    "password-vault/synthetic-auth-verifier-salt/v1" loginHandleNormalized
  authVerifierIterations := DEFAULT_ITERATIONS

structure LoginStartRequest where
  loginHandle : String
  authProtocol : String
  clientNonce : String

def loginStart (P : Platform) (state : AppState) (draws : Draws) (request : LoginStartRequest) :
    Api Response := do
  attempt (ensureSupportedProtocol request.authProtocol)
  attempt (databasePool state)
  let syntheticKey ← attempt (orUnavailable state.syntheticMetadataKey)
  let loginHandleNormalized ← attempt (normalizeLoginHandle request.loginHandle)
  let clientNonce ← attempt (orBadRequest (decodeBase64urlArray CLIENT_NONCE_BYTES
    request.clientNonce))
  cleanupExpiredChallenges draws
  enforceChallengeRateLimit draws loginHandleNormalized .login
  let loaded ← loadLoginMetadata loginHandleNormalized
  let metadata := loaded.getD (syntheticLoginMetadata P syntheticKey loginHandleNormalized)
  let loginChallengeId := draws.uuid 0
  let serverNonce := draws.bytes 0 SERVER_NONCE_BYTES
  let combinedNonce := clientNonce ++ serverNonce
  let expiresAt := nowUtcSecond (draws.clock 1) + LOGIN_CHALLENGE_TTL
  let challengeMetadata : LoginChallengeMetadata :=
    { clientNonce := encodeBase64url clientNonce
      serverNonce := encodeBase64url serverNonce
      combinedNonce := encodeBase64url combinedNonce
      authVerifierProfile := PROFILE_ID
      authVerifierIterations := metadata.authVerifierIterations
      synthetic := metadata.accountId.isNone }
  onPool (authChallenges.insert (newChallenge draws loginChallengeId metadata.accountId
    loginHandleNormalized .login serverNonce (.login challengeMetadata) expiresAt))
  let expires ← attempt (formatRfc3339 P expiresAt)
  pure ⟨200, .loginStart loginChallengeId AUTH_PROTOCOL metadata.kdfProfile
    (encodeBase64url metadata.accountSalt) PROFILE_ID (encodeBase64url metadata.authVerifierSalt)
    metadata.authVerifierIterations challengeMetadata.serverNonce challengeMetadata.combinedNonce
    expires, none⟩

/-! ## Finishing a registration -/

structure InitialVaultRequest where
  vaultId : Uuid
  encryptedVaultKey : EncryptedEnvelopeRequest

structure RegisterFinishRequest where
  registrationId : Uuid
  authProtocol : String
  authStoredKey : String
  authServerKey : String
  encryptedAccountKeyset : EncryptedEnvelopeRequest
  initialVault : InitialVaultRequest
  device : DeviceRequest

/-- A challenge that can be used at `now`: the conditions of the handlers' `SELECT … FOR UPDATE`. -/
def isOpenChallenge (id : Uuid) (challengeType : ChallengeType) (now : Time)
    (c : AuthChallenge) : Bool :=
  c.id == id && c.challengeType == challengeType && c.authProtocol == AUTH_PROTOCOL &&
    c.consumedAt.isNone && decide (now ≤ c.expiresAt)

def registrationOrUnavailable : DbError → Response
  | .uniqueViolation => ApiError.registrationUnavailable.intoResponse
  | .other => ApiError.serviceUnavailable.intoResponse

def consumeAuthChallenge (challengeId : Uuid) (now : Time) : Api Unit := do
  let _ ← inTx (authChallenges.update (fun c => c.id == challengeId)
    (fun c => { c with consumedAt := some now }) fun _ => rfl)

/-- What a valid `register_finish` request brings. -/
structure ValidatedRegisterFinish where
  authStoredKey : Bytes
  authServerKey : Bytes
  encryptedAccountKeyset : ValidatedEncryptedEnvelope
  encryptedVaultKey : ValidatedEncryptedEnvelope
  device : ValidatedDevice

def RegisterFinishRequest.validate (request : RegisterFinishRequest) :
    Except ApiError ValidatedRegisterFinish := do
  let authStoredKey ← orBadRequest (decodeBase64urlArray AUTH_KEY_BYTES request.authStoredKey)
  let authServerKey ← orBadRequest (decodeBase64urlArray AUTH_KEY_BYTES request.authServerKey)
  ensure (authStoredKey != authServerKey) .badRequest
  let encryptedAccountKeyset ← ValidatedEncryptedEnvelope.fromRequest
    request.encryptedAccountKeyset ACCOUNT_KEYSET_CRYPTO_VERSION
  let encryptedVaultKey ← ValidatedEncryptedEnvelope.fromRequest
    request.initialVault.encryptedVaultKey VAULT_KEY_WRAP_CRYPTO_VERSION
  ensure (encryptedAccountKeyset.keyId == encryptedVaultKey.keyId) .badRequest
  let device ← ValidatedDevice.fromRequest request.device
  .ok ⟨authStoredKey, authServerKey, encryptedAccountKeyset, encryptedVaultKey, device⟩

/-- The rows that a registration inserts. -/
structure RegistrationRows where
  account : Account
  keyset : AccountKeyset
  device : Device
  vault : Vault
  keyWrap : VaultKeyWrap
  session : Session

def registrationRows (P : Platform) (draws : Draws) (vaultId : Uuid) (v : ValidatedRegisterFinish)
    (loginHandleNormalized : String) (metadata : RegisterChallengeMetadata)
    (accountSalt authVerifierSalt : Bytes) (now : Time) : RegistrationRows where
  account :=
    { id := draws.uuid 0
      loginHandleNormalized
      authProtocol := AUTH_PROTOCOL
      kdfProfile := metadata.kdfProfile
      accountSalt
      authVerifierProfile := PROFILE_ID
      authVerifierSalt
      authVerifierIterations := metadata.authVerifierIterations
      authStoredKey := v.authStoredKey
      authServerKey := v.authServerKey }
  keyset :=
    { id := draws.uuid 1
      accountId := draws.uuid 0
      cryptoVersion := v.encryptedAccountKeyset.cryptoVersion
      keyId := v.encryptedAccountKeyset.keyId
      nonce := v.encryptedAccountKeyset.nonce
      ciphertext := v.encryptedAccountKeyset.ciphertext }
  device :=
    { id := draws.uuid 3
      accountId := draws.uuid 0
      displayName := v.device.label
      clientType := v.device.clientType
      publicMetadata := v.device.publicMetadata }
  vault :=
    { id := vaultId
      accountId := draws.uuid 0
      cryptoProfileId := VAULT_CRYPTO_PROFILE_ID
      genesisHeadHash := genesisHeadHash P vaultId
      headHash := genesisHeadHash P vaultId
      createdAt := draws.dbClock
      updatedAt := draws.dbClock }
  keyWrap :=
    { id := draws.uuid 2
      vaultId
      accountId := draws.uuid 0
      keyId := v.encryptedVaultKey.keyId
      cryptoVersion := v.encryptedVaultKey.cryptoVersion
      nonce := v.encryptedVaultKey.nonce
      ciphertext := v.encryptedVaultKey.ciphertext }
  session :=
    { id := draws.uuid 4
      accountId := draws.uuid 0
      deviceId := some (draws.uuid 3)
      sessionTokenHash := sha256Verifier P (draws.bytes 0 TOKEN_LEN)
      csrfTokenHash := none
      sessionState := .mfaEnrollmentRequired
      expiresAt := now + SESSION_IDLE_TTL
      idleExpiresAt := now + SESSION_IDLE_TTL
      absoluteExpiresAt := now + SESSION_ABSOLUTE_TTL }

def registerFinish (P : Platform) (state : AppState) (draws : Draws)
    (request : RegisterFinishRequest) : Api Response := do
  attempt (ensureSupportedProtocol request.authProtocol)
  attempt (databasePool state)
  let v ← attempt request.validate
  let now := nowUtcSecond (draws.clock 0)
  let challenge ← inTx (authChallenges.lockRows (isOpenChallenge request.registrationId .register now))
  match challenge.head? with
  | none => fail .registrationUnavailable
  | some challenge => do
      let metadata ← attempt (decodeRegisterChallengeMetadata challenge.publicMetadata)
      let accountSalt ← attempt (orUnavailable
        (decodeBase64urlArray DEFAULT_SALT_BYTES metadata.accountSalt).toOption)
      let authVerifierSalt ← attempt (orUnavailable
        (decodeBase64urlArray DEFAULT_SALT_BYTES metadata.authVerifierSalt).toOption)
      let rows := registrationRows P draws request.initialVault.vaultId v
        challenge.loginHandleNormalized metadata accountSalt authVerifierSalt now
      Handler.inside (accounts.insert rows.account) registrationOrUnavailable
      inTx (accountKeysets.insert rows.keyset)
      inTx (devices.insert rows.device)
      Handler.inside (vaults.insert rows.vault) registrationOrUnavailable
      inTx (vaultKeyWraps.insert rows.keyWrap)
      inTx (sessions.insert rows.session)
      insertAuditEvent rows.account.id (some rows.device.id) "account_registered"
        (.obj [("auth_protocol", .str AUTH_PROTOCOL),
          ("session_state", .str "mfa_enrollment_required")])
      consumeAuthChallenge request.registrationId now
      commitAnd (orError do
        let session ← sessionResponse P .mfaEnrollmentRequired rows.session.idleExpiresAt
          rows.session.absoluteExpiresAt
        .ok ⟨201, .registerFinish rows.account.id session "enroll_totp",
          some (sessionCookie (draws.bytes 0 TOKEN_LEN))⟩)

end PasswordVault
