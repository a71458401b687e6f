import PasswordVault.Library.Contracts
import PasswordVault.Server.Service

/-!
# What a request may commit

`Effect P state q H b s'` lists every change of the committed database that request `q` can make
when the commits so far are `H`: the guards that the handler checked and still holds when it
commits, and the new database in terms of the rows written. `b` says whether the change is the
commit of the request's transaction.

The list is the guarantee of every request; the handlers are proved to keep to it, and the
invariants of the service are proved from it alone.
-/

namespace PasswordVault

open Transactions

/-! ## Rows and databases in effects -/

/-- The database with one more audit event. -/
def Db.audited (e : AuditEvent) (s : Db) : Db := { s with auditEvents := s.auditEvents ++ [e] }

/-- The row of a consumed challenge. -/
def AuthChallenge.consumed (c : AuthChallenge) (now : Time) : AuthChallenge :=
  { c with consumedAt := some now }

/-- The row of a factor after a step was accepted for a login. -/
def TotpFactor.accepted (f : TotpFactor) (step : Int) (now : Time) : TotpFactor :=
  { f with lastAcceptedStep := some step, updatedAt := now }

/-- The row of a factor after its enrollment was confirmed. -/
def TotpFactor.confirmed (f : TotpFactor) (step : Int) (now : Time) : TotpFactor :=
  { f with verifiedAt := some now, lastAcceptedStep := some step, updatedAt := now }

/-- The row of a session after a confirmed enrollment. -/
def Session.upgraded (r : Session) (tokenHash : Bytes) (now idleExpiresAt : Time) : Session :=
  { r with
    sessionTokenHash := tokenHash
    csrfTokenHash := none
    sessionState := .mfaVerified
    lastSeenAt := some now
    idleExpiresAt := idleExpiresAt
    expiresAt := idleExpiresAt }

/-- The row of a refreshed session. -/
def Session.refreshed (r : Session) (now idleExpiresAt : Time) : Session :=
  { r with lastSeenAt := some now, idleExpiresAt := idleExpiresAt, expiresAt := idleExpiresAt }

/-- The session as the handlers see it. -/
def Session.current (r : Session) : CurrentSession :=
  ⟨r.id, r.accountId, r.deviceId, r.sessionState, r.idleExpiresAt, r.absoluteExpiresAt⟩

/-- `load_current_session` at `now` finds `session` in the database. -/
def LoadsSession (P : Platform) (headers : HeaderMap) (now : Time) (session : CurrentSession)
    (s : Db) : Prop :=
  ∃ token row, sessionTokenFromHeaders headers = some token ∧
    selectSession (sha256Verifier P token) s = some (row, none) ∧
    now < row.idleExpiresAt ∧ now < row.absoluteExpiresAt ∧ session = row.current

/-- `load_current_session` at `now` finds that the session `id` has expired, or that its device was
revoked. -/
def FindsExpired (P : Platform) (headers : HeaderMap) (now : Time) (id : Uuid) (s : Db) : Prop :=
  ∃ token row deviceRevokedAt, sessionTokenFromHeaders headers = some token ∧
    selectSession (sha256Verifier P token) s = some (row, deviceRevokedAt) ∧ row.id = id ∧
    (deviceRevokedAt.isSome = true ∨ row.idleExpiresAt ≤ now ∨ row.absoluteExpiresAt ≤ now)

/-- How long a challenge lives. -/
def challengeTtl : ChallengeType → Time
  | .register => REGISTER_CHALLENGE_TTL
  | .login | .preMfa => LOGIN_CHALLENGE_TTL

/-- The row of an item after a revision. -/
def VaultItem.revised (i : VaultItem) (revisionId : Uuid) (revisionSeq : Int) (deleted : Bool)
    (now : Time) : VaultItem :=
  { i with
    latestRevisionId := some revisionId
    latestRevisionSeq := revisionSeq
    deletedAt := if deleted then some now else i.deletedAt
    updatedAt := now }

/-- The row of a vault after its head moved. -/
def Vault.advanced (v : Vault) (headSeq : Int) (headHash : Bytes) (now : Time) : Vault :=
  { v with headSeq := headSeq, headHash := headHash, updatedAt := now }

/-- The row of a new item. -/
def newItem (draws : Draws) (vaultId itemId : Uuid) : VaultItem :=
  { id := itemId, vaultId, updatedAt := draws.dbClock }

/-- What a `totp_enroll_start` request stores for an account: the seed that it draws, encrypted under
the configured key for the factor that it draws. -/
def EncryptsSeed (P : Platform) (state : AppState) (q : Request) (accountId : Uuid)
    (seedCiphertext : Bytes) : Prop :=
  ∃ seedKey, state.totpSeedKey = some seedKey ∧
    encryptTotpSeed P seedKey (q.draws.bytes 1 XCHACHA20POLY1305_NONCE_BYTES)
      (totpSeedAad accountId (q.draws.uuid 0) .googleAuthenticatorDefault)
      (q.draws.bytes 0 TOTP_SEED_BYTES) = .ok seedCiphertext

/-! ## The effects -/

variable (P : Platform) (state : AppState) (q : Request) (H : Log)

/-- Every change that a request may commit. -/
inductive Effect : Bool → Db → Prop
  /-- A read. -/
  | idle : Effect false H.current
  /-- `cleanup_expired_challenges`. -/
  | cleanup {ids : List Uuid} (hissues : q.action.issues.isSome = true) (hids : ∀ id ∈ ids, ∃ c ∈ H.current.authChallenges,
        c.id = id ∧ c.expiresAt < q.draws.dbClock) :
      Effect false (authChallenges.remove ids H.current)
  /-- `register_start` and `login_start` issue a challenge. -/
  | challengeIssued {c : AuthChallenge} (hid : c.id = q.draws.uuid 0)
      (hissues : q.action.issues = some (.ok c.loginHandleNormalized, c.challengeType))
      (hattempts : c.attempts = 0) (hopen : c.consumedAt = none)
      (hcreated : c.createdAt = q.draws.dbClock)
      (hexpires : c.expiresAt = nowUtcSecond (q.draws.clock 1) + challengeTtl c.challengeType)
      (haccount : c.accountId.all H.current.hasAccount = true)
      (hnew : authChallenges.New [] c H.current) (hcheck : c.check = true) :
      Effect false (authChallenges.putAll [c] H.current)
  /-- An expired session is revoked. -/
  | sessionRevoked {row : Session} {headers : HeaderMap}
      (hrow : H.current.sessions.find? row.id = some row)
      (hheaders : q.action.sessionHeaders = some headers)
      (hfound : H.Saw (FindsExpired P headers q.now row.id)) :
      Effect false (sessions.putAll [{ row with revokedAt := some q.now }] H.current)
  /-- `refresh_session_activity`. -/
  | sessionRefreshed {row : Session} {headers : HeaderMap} {session : CurrentSession}
      (hrow : H.current.sessions.find? row.id = some row) (hid : row.id = session.id)
      (hheaders : q.action.sessionHeaders = some headers)
      (hload : H.Saw (LoadsSession P headers q.now session)) :
      Effect false (sessions.putAll [row.refreshed q.now
        (minTime (q.now + SESSION_IDLE_TTL) session.absoluteExpiresAt)] H.current)
  /-- `csrf_token`. -/
  | csrfIssued {row : Session} {headers : HeaderMap} {session : CurrentSession}
      (hq : q.action = .csrfToken headers)
      (hrow : H.current.sessions.find? row.id = some row) (hid : row.id = session.id)
      (hload : H.Saw (LoadsSession P headers q.now session)) :
      Effect false (sessions.putAll [{ row with
        csrfTokenHash := some (sha256Verifier P (q.draws.bytes 0 TOKEN_LEN)) }] H.current)
  /-- `logout`. -/
  | sessionEnded {ids : List Uuid} {headers : HeaderMap} {session : CurrentSession}
      (hq : q.action = .logout headers) (hids : ∀ id ∈ ids, id = session.id)
      (hload : H.Saw (LoadsSession P headers q.now session)) :
      Effect false (sessions.remove ids H.current)
  /-- `register_finish`. -/
  | registered {request : RegisterFinishRequest} {v : ValidatedRegisterFinish} {c : AuthChallenge}
      {metadata : RegisterChallengeMetadata} {accountSalt authVerifierSalt : Bytes}
      {rows : RegistrationRows} {event : AuditEvent}
      (hq : q.action = .registerFinish request) (hv : request.validate = .ok v)
      (hc : H.current.authChallenges.find? c.id = some c)
      (hopen : isOpenChallenge request.registrationId .register q.now c = true)
      (hrows : rows = registrationRows P q.draws request.initialVault.vaultId v
        c.loginHandleNormalized metadata accountSalt authVerifierSalt q.now)
      (haccount : accounts.New [] rows.account H.current)
      (hkeyset : accountKeysets.New [] rows.keyset H.current)
      (hdevice : devices.New [] rows.device H.current)
      (hvault : vaults.New [] rows.vault H.current)
      (hkeyWrap : vaultKeyWraps.New [] rows.keyWrap H.current)
      (hsession : sessions.New [] rows.session H.current) :
      Effect true (authChallenges.putAll [c.consumed q.now] (Db.audited event
        (sessions.putAll [rows.session] (vaultKeyWraps.putAll [rows.keyWrap]
          (vaults.putAll [rows.vault] (devices.putAll [rows.device]
            (accountKeysets.putAll [rows.keyset]
              (accounts.putAll [rows.account] H.current))))))))
  /-- `login_finish` refuses: the challenge is consumed, a failed proof is audited. -/
  | loginRefused {headers : HeaderMap} {request : LoginFinishRequest} {c : AuthChallenge} {s : Db}
      (hq : q.action = .loginFinish headers request)
      (hc : H.current.authChallenges.find? c.id = some c)
      (hopen : isOpenChallenge request.loginChallengeId .login q.now c = true)
      (hs : s = H.current ∨ ∃ event, s = H.current.audited event) :
      Effect true (authChallenges.putAll [c.consumed q.now] s)
  /-- `login_finish` asks for the second factor. -/
  | mfaIssued {headers : HeaderMap} {request : LoginFinishRequest} {c : AuthChallenge}
      {accountId : Uuid} {device : ValidatedDevice} {event : AuditEvent}
      (hq : q.action = .loginFinish headers request)
      (hc : H.current.authChallenges.find? c.id = some c)
      (hopen : isOpenChallenge request.loginChallengeId .login q.now c = true)
      (haccount : c.accountId = some accountId)
      (hfactor : H.Saw fun s => (selectActiveTotpFactor accountId s).isSome)
      (hnew : authChallenges.New [] (preMfaChallenge q.draws accountId c device q.now)
        H.current)
      (hcheck : (preMfaChallenge q.draws accountId c device q.now).check = true)
      (hv : ∃ v, request.validate = .ok v ∧ v.device = device) :
      Effect true (Db.audited event
        (authChallenges.putAll [preMfaChallenge q.draws accountId c device q.now]
          (authChallenges.putAll [c.consumed q.now] H.current)))
  /-- `login_finish` without a verified factor creates a session for the enrollment. -/
  | setupSession {headers : HeaderMap} {request : LoginFinishRequest} {c : AuthChallenge}
      {accountId : Uuid} {device : ValidatedDevice} {event : AuditEvent}
      (hq : q.action = .loginFinish headers request)
      (hc : H.current.authChallenges.find? c.id = some c)
      (hopen : isOpenChallenge request.loginChallengeId .login q.now c = true)
      (haccount : c.accountId = some accountId)
      (hfactor : H.Saw fun s => selectActiveTotpFactor accountId s = none)
      (hdevice : devices.New [] (newDevice q.draws accountId device q.now) H.current)
      (hnew : sessions.New []
        (newSession P q.draws accountId .mfaEnrollmentRequired q.now) H.current) :
      Effect true (Db.audited event
        (sessions.putAll [newSession P q.draws accountId .mfaEnrollmentRequired q.now]
          (devices.putAll [newDevice q.draws accountId device q.now]
            (authChallenges.putAll [c.consumed q.now] H.current))))
  /-- A wrong TOTP code or a wrong recovery code is counted. -/
  | attemptFailed {c : AuthChallenge} {event : AuditEvent}
      (hq : (∃ headers request, q.action = .totpVerify headers request ∧
          isOpenChallenge request.mfaChallengeId .preMfa q.now c = true) ∨
        ∃ headers request, q.action = .recoveryCodeVerify headers request ∧
          isOpenChallenge request.mfaChallengeId .preMfa q.now c = true)
      (hc : H.current.authChallenges.find? c.id = some c)
      (hattempts : c.attempts < MFA_CHALLENGE_MAX_ATTEMPTS) :
      Effect true (Db.audited event (authChallenges.putAll [c.incremented q.now] H.current))
  /-- `totp_verify` accepts. -/
  | totpVerified {headers : HeaderMap} {request : TotpVerifyRequest} {c : AuthChallenge}
      {accountId : Uuid} {device : ValidatedDevice} {f : TotpFactor} {seedKey : Bytes}
      {profile : Totp.TotpProfile} {acceptedStep : Nat} {step : Int} {event : AuditEvent}
      (hq : q.action = .totpVerify headers request)
      (hc : H.current.authChallenges.find? c.id = some c)
      (hopen : isOpenChallenge request.mfaChallengeId .preMfa q.now c = true)
      (haccount : c.accountId = some accountId)
      (hattempts : c.attempts < MFA_CHALLENGE_MAX_ATTEMPTS)
      (hf : H.current.totpFactors.find? f.id = some f)
      (hfactor : f.accountId = accountId ∧ f.verifiedAt.isSome = true)
      (hkey : state.totpSeedKey = some seedKey)
      (hprofile : totpProfileFromRow f = .ok profile)
      (hcode : checkFactorCode P seedKey accountId f.id f q.now request.code profile =
        .ok (some acceptedStep))
      (hstep : stepToRow acceptedStep = .ok step)
      (hdevice : devices.New [] (newDevice q.draws accountId device q.now) H.current)
      (hnew : sessions.New [] (newSession P q.draws accountId .mfaVerified q.now) H.current) :
      Effect true (Db.audited event (authChallenges.putAll [c.consumed q.now]
        (totpFactors.putAll [f.accepted step q.now]
          (sessions.putAll [newSession P q.draws accountId .mfaVerified q.now]
            (devices.putAll [newDevice q.draws accountId device q.now] H.current)))))
  /-- `recovery_code_verify` accepts. -/
  | recoveryVerified {headers : HeaderMap} {request : RecoveryCodeVerifyRequest}
      {c : AuthChallenge} {accountId : Uuid} {device : ValidatedDevice} {recoveryCode : String}
      {code : RecoveryCode} {event : AuditEvent}
      (hq : q.action = .recoveryCodeVerify headers request)
      (hc : H.current.authChallenges.find? c.id = some c)
      (hopen : isOpenChallenge request.mfaChallengeId .preMfa q.now c = true)
      (haccount : c.accountId = some accountId)
      (hattempts : c.attempts < MFA_CHALLENGE_MAX_ATTEMPTS)
      (hcode : H.current.recoveryCodes.find? code.id = some code)
      (hunused : code.accountId = accountId ∧ code.usedAt = none)
      (hvalid : validateRecoveryCode request.recoveryCode = .ok recoveryCode)
      (hhash : code.codeHash = recoveryCodeHash P accountId code.codeSalt recoveryCode)
      (hdevice : devices.New [] (newDevice q.draws accountId device q.now) H.current)
      (hnew : sessions.New [] (newSession P q.draws accountId .mfaRecovery q.now) H.current) :
      Effect true (Db.audited event (authChallenges.putAll [c.consumed q.now]
        (sessions.putAll [newSession P q.draws accountId .mfaRecovery q.now]
          (devices.putAll [newDevice q.draws accountId device q.now]
            (recoveryCodes.putAll [{ code with usedAt := some q.now }] H.current)))))
  /-- `totp_enroll_start` replaces the factor of the account by a pending one. -/
  | enrollStarted {headers : HeaderMap} {session : CurrentSession} {rows : List TotpFactor}
      {seedCiphertext : Bytes} {event : AuditEvent}
      (hq : q.action = .totpEnrollStart headers)
      (hload : H.Saw (LoadsSession P headers q.now session))
      (hstate : session.sessionState ≠ .mfaVerified)
      (hrows : ∀ r ∈ rows, H.current.totpFactors.find? r.id = some r ∧
        r.accountId = session.accountId)
      (hnew : totpFactors.New (rows.map TotpFactor.id)
        (pendingFactor q.draws session.accountId seedCiphertext) H.current)
      (hcheck : (pendingFactor q.draws session.accountId seedCiphertext).check = true)
      (hseed : EncryptsSeed P state q session.accountId seedCiphertext) :
      Effect true (Db.audited event
        (totpFactors.putAll [pendingFactor q.draws session.accountId seedCiphertext]
          (totpFactors.remove (rows.map TotpFactor.id) H.current)))
  /-- `totp_enroll_confirm` refuses and drops the pending factor. -/
  | enrollFailed {headers : HeaderMap} {request : TotpEnrollConfirmRequest}
      {session : CurrentSession} {f : TotpFactor} {event : AuditEvent}
      (hq : q.action = .totpEnrollConfirm headers request)
      (hload : H.Saw (LoadsSession P headers q.now session))
      (hstate : session.sessionState ≠ .mfaVerified)
      (hf : H.current.totpFactors.find? f.id = some f)
      (hfactor : f.id = request.factorId ∧ f.accountId = session.accountId ∧
        f.verifiedAt = none) :
      Effect true (Db.audited event (totpFactors.remove [f.id] H.current))
  /-- `totp_enroll_confirm` accepts. -/
  | enrollConfirmed {headers : HeaderMap} {request : TotpEnrollConfirmRequest}
      {session : CurrentSession} {f : TotpFactor} {seedKey : Bytes} {profile : Totp.TotpProfile}
      {acceptedStep : Nat} {step : Int} {codes : List RecoveryCode} {rows : List Session}
      {event : AuditEvent}
      (hq : q.action = .totpEnrollConfirm headers request)
      (hload : H.Saw (LoadsSession P headers q.now session))
      (hstate : session.sessionState ≠ .mfaVerified)
      (hf : H.current.totpFactors.find? f.id = some f)
      (hfactor : f.id = request.factorId ∧ f.accountId = session.accountId ∧ f.verifiedAt = none)
      (hkey : state.totpSeedKey = some seedKey)
      (hprofile : totpProfileFromRow f = .ok profile)
      (hcode : checkFactorCode P seedKey session.accountId request.factorId f q.now request.code
        profile = .ok (some acceptedStep))
      (hstep : stepToRow acceptedStep = .ok step)
      (hcodes : ∀ code, code ∈ codes ↔ code ∈ H.current.recoveryCodes ∧
        code.accountId = session.accountId)
      (hnew : ∀ code ∈ newRecoveryCodes P q.draws session.accountId,
        recoveryCodes.New (codes.map RecoveryCode.id) code H.current)
      (hdistinct : ((newRecoveryCodes P q.draws session.accountId).map RecoveryCode.id).Nodup)
      (hrows : ∀ r ∈ rows, H.current.sessions.find? r.id = some r ∧ r.id = session.id) :
      Effect true (Db.audited event
        (sessions.putAll (rows.map fun r => r.upgraded
            (sha256Verifier P (q.draws.bytes 20 TOKEN_LEN)) q.now
            (minTime (q.now + SESSION_IDLE_TTL) session.absoluteExpiresAt))
          (totpFactors.putAll [f.confirmed step q.now]
            (recoveryCodes.putAll (newRecoveryCodes P q.draws session.accountId)
              (recoveryCodes.remove (codes.map RecoveryCode.id) H.current)))))
  /-- `create_item`. -/
  | itemCreated {headers : HeaderMap} {vaultId : Uuid} {request : CreateItemRequest}
      {v : ValidatedCreateItem} {session : CurrentSession} {vault : Vault} {event : AuditEvent}
      (hq : q.action = .createItem headers vaultId request)
      (hv : ValidatedCreateItem.fromRequest request = .ok v)
      (hload : H.Saw (LoadsSession P headers q.now session))
      (hstate : session.sessionState = .mfaVerified)
      (hvault : H.current.vaults.find? vault.id = some vault)
      (hid : vault.id = vaultId ∧ vault.accountId = session.accountId)
      (hhead : vault.headSeq = v.baseHeadSeq ∧ vault.headHash = v.baseHeadHash)
      (hitem : vaultItems.New [] (newItem q.draws vaultId v.itemId) H.current)
      (hrevision : vaultItemRevisions.New []
        (createdRevision vaultId (i64Succ vault.headSeq) v) H.current)
      (hcheck : (createdRevision vaultId (i64Succ vault.headSeq) v).check = true) :
      Effect true (Db.audited event
        (vaults.putAll [vault.advanced (i64Succ vault.headSeq) v.newHeadHash
            (nowUtcSecond (q.draws.clock 1))]
          (vaultItems.putAll [(newItem q.draws vaultId v.itemId).revised v.revisionId 1 false
              (nowUtcSecond (q.draws.clock 1))]
            (vaultItemRevisions.putAll [createdRevision vaultId (i64Succ vault.headSeq) v]
              (vaultItems.putAll [newItem q.draws vaultId v.itemId] H.current)))))
  /-- `create_item_revision`. -/
  | itemRevised {headers : HeaderMap} {vaultId itemId : Uuid} {request : CreateRevisionRequest}
      {v : ValidatedCreateRevision} {session : CurrentSession} {vault : Vault} {item : VaultItem}
      {event : AuditEvent}
      (hq : q.action = .createItemRevision headers vaultId itemId request)
      (hv : ValidatedCreateRevision.fromRequest request = .ok v)
      (hload : H.Saw (LoadsSession P headers q.now session))
      (hstate : session.sessionState = .mfaVerified)
      (hvault : H.current.vaults.find? vault.id = some vault)
      (hid : vault.id = vaultId ∧ vault.accountId = session.accountId)
      (hitem : H.current.vaultItems.find? item.id = some item)
      (hitemId : item.id = itemId ∧ item.vaultId = vaultId)
      (hhead : vault.headSeq = v.baseHeadSeq ∧ vault.headHash = v.baseHeadHash)
      (hlatest : v.baseRevisionSeq = item.latestRevisionSeq ∧ item.deletedAt = none)
      (hrevision : vaultItemRevisions.New [] (nextRevision vaultId itemId
        (i64Succ item.latestRevisionSeq) (i64Succ vault.headSeq) v) H.current)
      (hcheck : (nextRevision vaultId itemId (i64Succ item.latestRevisionSeq)
        (i64Succ vault.headSeq) v).check = true) :
      Effect true (Db.audited event
        (vaults.putAll [vault.advanced (i64Succ vault.headSeq) v.newHeadHash
            (nowUtcSecond (q.draws.clock 1))]
          (vaultItems.putAll [item.revised v.revisionId (i64Succ item.latestRevisionSeq)
              (v.operation == .delete) (nowUtcSecond (q.draws.clock 1))]
            (vaultItemRevisions.putAll [nextRevision vaultId itemId
              (i64Succ item.latestRevisionSeq) (i64Succ vault.headSeq) v] H.current))))

/-- What a request guarantees of its commits. -/
def Guarantee (q : Request) (b : Bool) (H : Log) (s : Db) : Prop := Effect P state q H b s

/-- The runs of the service, by effects alone. -/
abbrev ServiceRun (H : Log) : Prop := Run (Guarantee P state) (Fresh P) {} H

variable {P state q H}

/-- What a commit draws was not drawn before. -/
lemma ServiceRun.push_fresh {b : Bool} {s : Db} (h : ServiceRun P state (H.push q b s))
    (hb : b = true) : ∀ e ∈ H.entries, e.closing = true → Fresh P e.request q := by
  have hsplit : (H.push q b s).entries = H.entries ++ ⟨q, b, H.current, s⟩ :: [] := rfl
  obtain ⟨-, -, -, -, -, -, hfresh⟩ := Run.split h hsplit
  exact hfresh hb

end PasswordVault
