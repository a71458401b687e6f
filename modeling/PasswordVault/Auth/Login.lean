import PasswordVault.Auth.Register
import PasswordVault.Auth.Scram

/-!
# The end of a password login

`loginFinish` consumes the login challenge, whatever its outcome, and checks the password proof.
With a verified second factor on the account it issues a `pre_mfa` challenge; without one it
creates a session that has to enroll one.
-/

namespace PasswordVault

open Transactions

structure LoginFinishRequest where
  loginChallengeId : Uuid
  authProtocol : String
  clientNonce : String
  serverNonce : String
  clientFinalWithoutProof : String
  clientProof : String
  device : DeviceRequest

/-- What a valid `login_finish` request brings. -/
structure ValidatedLoginFinish where
  clientNonce : Bytes
  serverNonce : Bytes
  clientFinalWithoutProof : Bytes
  clientProof : Bytes
  device : ValidatedDevice

def LoginFinishRequest.validate (request : LoginFinishRequest) :
    Except ApiError ValidatedLoginFinish := do
  ensure (request.authProtocol == AUTH_PROTOCOL) .authFailed
  let clientNonce ← orBadRequest (decodeBase64urlArray CLIENT_NONCE_BYTES request.clientNonce)
  let serverNonce ← orBadRequest (decodeBase64urlArray SERVER_NONCE_BYTES request.serverNonce)
  let clientFinalWithoutProof ← orBadRequest (decodeBase64url request.clientFinalWithoutProof)
  ensure (!(clientFinalWithoutProof.isEmpty ||
    decide (MAX_DEVICE_PUBLIC_METADATA_BYTES < clientFinalWithoutProof.length))) .badRequest
  let clientProof ← orBadRequest (decodeBase64urlArray AUTH_KEY_BYTES request.clientProof)
  let device ← ValidatedDevice.fromRequest request.device
  .ok ⟨clientNonce, serverNonce, clientFinalWithoutProof, clientProof, device⟩

/-- The request names what was issued with the challenge. -/
def metadataMatches (challenge : AuthChallenge) (metadata : LoginChallengeMetadata)
    (v : ValidatedLoginFinish) : Bool :=
  metadata.clientNonce == encodeBase64url v.clientNonce &&
    metadata.serverNonce == encodeBase64url v.serverNonce &&
    challenge.serverNonce == v.serverNonce &&
    metadata.authVerifierProfile == PROFILE_ID &&
    metadata.authVerifierIterations == DEFAULT_ITERATIONS

/-- The message the proof is computed over. -/
def loginFinishAuthMessage (challenge : AuthChallenge) (v : ValidatedLoginFinish) : Bytes :=
  Transcript.loginAuthMessage
    { challengeId := challenge.id
      authProtocol := AUTH_PROTOCOL
      loginHandleNormalized := challenge.loginHandleNormalized
      clientNonce := v.clientNonce
      serverNonce := v.serverNonce
      clientFinalWithoutProof := v.clientFinalWithoutProof }

def selectLoginAccount (accountId : Uuid) (loginHandleNormalized : String) (s : Db) :
    Option Account :=
  (s.accounts.find? accountId).filter fun a =>
    a.loginHandleNormalized == loginHandleNormalized && a.authProtocol == AUTH_PROTOCOL

/-- Check the proof; a failed one against an account is audited. -/
def checkProof (P : Platform) (challenge : AuthChallenge) (metadata : LoginChallengeMetadata)
    (v : ValidatedLoginFinish) : Api Bool :=
  match challenge.accountId.filter fun _ => !metadata.synthetic with
  | none => pure false
  | some accountId => do
      let account ← inTx (.query (selectLoginAccount accountId challenge.loginHandleNormalized))
      let proofOk ← match account with
        | none => pure false
        | some account => do
            let storedKey ← attempt (authKeyFromVec account.authStoredKey)
            attempt (match Scram.verifyClientProof P storedKey (loginFinishAuthMessage challenge v)
                v.clientProof with
              | some ok => .ok ok
              | none => .error .authFailed)
      if !proofOk then
        insertAuditEvent accountId none "auth_login_failed"
          (.obj [("reason", .str "proof_failed")])
      pure proofOk

/-- The verified factor of an account, if there is one. -/
def selectActiveTotpFactor (accountId : Uuid) (s : Db) : Option Uuid :=
  (s.totpFactors.list.find? fun f => f.accountId == accountId && f.verifiedAt.isSome).map
    TotpFactor.id

/-- The row of the challenge for the second factor. -/
def preMfaChallenge (draws : Draws) (accountId : Uuid) (challenge : AuthChallenge)
    (device : ValidatedDevice) (now : Time) : AuthChallenge :=
  newChallenge draws (draws.uuid 2) (some accountId) challenge.loginHandleNormalized .preMfa
    (draws.bytes 1 SERVER_NONCE_BYTES)
    (.preMfa ⟨challenge.id, DeviceChallengeMetadata.fromValidated device⟩)
    (now + LOGIN_CHALLENGE_TTL)

def loginFinish (P : Platform) (state : AppState) (draws : Draws) (headers : HeaderMap)
    (request : LoginFinishRequest) : Api Response := do
  attempt (ensureUnsafeRequestContext headers)
  attempt (databasePool state)
  let v ← attempt request.validate
  let now := nowUtcSecond (draws.clock 0)
  let challenge ← inTx (authChallenges.lockRows (isOpenChallenge request.loginChallengeId .login now))
  match challenge.head? with
  | none => fail .authFailed
  | some challenge => do
      let metadata ← attempt (decodeLoginChallengeMetadata challenge.publicMetadata)
      if metadataMatches challenge metadata v = false then do
        consumeAuthChallenge challenge.id now
        commitAnd ApiError.authFailed.intoResponse
      else do
        let proofOk ← checkProof P challenge metadata v
        if proofOk = false then do
          consumeAuthChallenge challenge.id now
          commitAnd ApiError.authFailed.intoResponse
        else do
          let accountId ← attempt (orUnavailable challenge.accountId)
          consumeAuthChallenge challenge.id now
          let activeTotpFactor ← inTx (.query (selectActiveTotpFactor accountId))
          if activeTotpFactor.isSome then do
            let preMfa := preMfaChallenge draws accountId challenge v.device now
            inTx (authChallenges.insert preMfa)
            insertAuditEvent accountId none "auth_login_password_verified"
              (.obj [("mfa_required", .bool true)])
            commitAnd (orError do
              let expires ← formatRfc3339 P preMfa.expiresAt
              .ok ⟨200, .loginFinishMfaRequired "mfa_required" preMfa.id
                ["totp", "recovery_code"] expires, none⟩)
          else do
            let created ← createSessionWithDevice P draws accountId v.device
              .mfaEnrollmentRequired now
            insertAuditEvent accountId none "auth_login_setup_session_created"
              (.obj [("mfa_required", .bool false)])
            commitAnd (orError do
              let session ← sessionResponse P .mfaEnrollmentRequired created.idleExpiresAt
                created.absoluteExpiresAt
              .ok ⟨200, .loginFinishSessionCreated "session_created" session "enroll_totp",
                some (sessionCookie created.sessionToken)⟩)

end PasswordVault
