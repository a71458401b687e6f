import PasswordVault.Server.Schema

/-!
# Sessions

* `Api`: the handlers' monad, and how they run statements: `onPool` outside, `inTx` inside a
  transaction.
* `loadCurrentSession`, `refreshSessionActivity`, `ensureCsrfToken`: what every authenticated
  request does first.
* `createSessionWithDevice`, `insertAuditEvent`: shared by the handlers that end a login.
* `sessionStatus`, `csrfToken`, `logout`: the endpoints.
-/

namespace PasswordVault

open Transactions

/-- A piece of a request handler. -/
abbrev Api (α : Type) : Type 1 := Handler Db Lock Response α

/-- What is left of a request. -/
abbrev ApiProgram : Type 1 := Program Db Lock Response

/-- Answer an error. -/
def fail {α : Type} (e : ApiError) : Api α := Handler.finish e.intoResponse

/-- The `?` of the handlers. -/
def attempt {α : Type} (x : Except ApiError α) : Api α := Handler.orElse ApiError.intoResponse x

lemma attempt_ok {α : Type} {x : Except ApiError α} {a : α} (h : x = .ok a) :
    attempt x = (pure a : Api α) := by
  subst h
  rfl

lemma attempt_error {α : Type} {x : Except ApiError α} {e : ApiError} (h : x = .error e) :
    attempt x = (fail e : Api α) := by
  subst h
  rfl

/-- Any database error becomes `service_unavailable`. -/
def unavailable (_ : DbError) : Response := ApiError.serviceUnavailable.intoResponse

def onPool {β : Type} (stmt : Statement Db Lock β) : Api β := Handler.alone stmt unavailable

def inTx {β : Type} (stmt : Statement Db Lock β) : Api β := Handler.inside stmt unavailable

def commitAnd {α : Type} (r : Response) : Api α := Handler.commit (unavailable .other) r

def SESSION_IDLE_TTL : Time := minutes 30
def SESSION_ABSOLUTE_TTL : Time := hours 12

structure CurrentSession where
  id : Uuid
  accountId : Uuid
  deviceId : Option Uuid
  sessionState : SessionState
  idleExpiresAt : Time
  absoluteExpiresAt : Time

def CurrentSession.vaultAccess (s : CurrentSession) : Bool := s.sessionState == .mfaVerified

def minTime (left right : Time) : Time := if left ≤ right then left else right

/-- `tokens::sha256_verifier`. -/
def sha256Verifier (P : Platform) (secret : Bytes) : Bytes := P.sha256 secret

/-! ## Loading and refreshing -/

/-- The row of an unrevoked session by its token, with the `revoked_at` of its device. -/
def selectSession (tokenHash : Bytes) (s : Db) : Option (Session × Option Time) :=
  (s.sessions.list.find? fun r => r.sessionTokenHash == tokenHash && r.revokedAt.isNone).map
    fun r => (r, ((r.deviceId.bind s.devices.find?).filter
      fun d => d.accountId == r.accountId).bind Device.revokedAt)

def revokeSession (sessionId : Uuid) (now : Time) : Api Unit := do
  let _ ← onPool (sessions.update (fun r => r.id == sessionId)
    (fun r => { r with revokedAt := some now }) fun _ => rfl)

def loadCurrentSession (P : Platform) (headers : HeaderMap) (now : Time) :
    Api (Option CurrentSession) :=
  match sessionTokenFromHeaders headers with
  | none => pure none
  | some sessionToken => do
      let row ← onPool (.query (selectSession (sha256Verifier P sessionToken)))
      match row with
      | none => pure none
      | some (row, deviceRevokedAt) =>
          if deviceRevokedAt.isSome || decide (row.idleExpiresAt ≤ now) ||
              decide (row.absoluteExpiresAt ≤ now) then do
            revokeSession row.id now
            pure none
          else pure (some
            { id := row.id
              accountId := row.accountId
              deviceId := row.deviceId
              sessionState := row.sessionState
              idleExpiresAt := row.idleExpiresAt
              absoluteExpiresAt := row.absoluteExpiresAt })

def refreshSessionActivity (session : CurrentSession) (now : Time) : Api CurrentSession := do
  let refreshedIdleExpiresAt := minTime (now + SESSION_IDLE_TTL) session.absoluteExpiresAt
  let _ ← onPool (sessions.update (fun r => r.id == session.id)
    (fun r => { r with
      lastSeenAt := some now
      idleExpiresAt := refreshedIdleExpiresAt
      expiresAt := refreshedIdleExpiresAt }) fun _ => rfl)
  pure { session with idleExpiresAt := refreshedIdleExpiresAt }

/-- The session or `session_required`. -/
def requireSession (session : Option CurrentSession) : Except ApiError CurrentSession :=
  match session with
  | some session => .ok session
  | none => .error .sessionRequired

/-- The stored hash of the CSRF token of an unrevoked session. -/
def selectCsrfTokenHash (sessionId : Uuid) (s : Db) : Option (Option Bytes) :=
  ((s.sessions.find? sessionId).filter fun r => r.revokedAt.isNone).map Session.csrfTokenHash

def ensureCsrfToken (P : Platform) (headers : HeaderMap) (sessionId : Uuid) : Api Unit :=
  match csrfTokenFromHeaders headers with
  | none => fail .csrfRequired
  | some token => do
      let csrfTokenHash := sha256Verifier P token
      let storedHash ← onPool (.query (selectCsrfTokenHash sessionId))
      match storedHash.join with
      | none => fail .csrfRequired
      | some storedHash =>
          if storedHash.length == TOKEN_LEN && storedHash == csrfTokenHash then pure ()
          else fail .csrfRequired

/-! ## Creating -/

def insertAuditEvent (accountId : Uuid) (actorDeviceId : Option Uuid) (eventType : String)
    (eventMetadata : Json) : Api Unit :=
  inTx (appendAudit ⟨some accountId, actorDeviceId, eventType, eventMetadata⟩)

structure ValidatedDevice where
  label : String
  clientType : String
  publicMetadata : Json

/-- What `create_session_with_device` returns. -/
structure CreatedSession where
  deviceId : Uuid
  sessionToken : Bytes
  idleExpiresAt : Time
  absoluteExpiresAt : Time

/-- The rows it writes: identifiers 0 and 1 and token 0 of the request's draws. -/
def newDevice (draws : Draws) (accountId : Uuid) (device : ValidatedDevice) (now : Time) :
    Device :=
  { id := draws.uuid 0
    accountId
    displayName := device.label
    clientType := device.clientType
    publicMetadata := device.publicMetadata
    lastSeenAt := some now }

def newSession (P : Platform) (draws : Draws) (accountId : Uuid) (sessionState : SessionState)
    (now : Time) : Session :=
  { id := draws.uuid 1
    accountId
    deviceId := some (draws.uuid 0)
    sessionTokenHash := sha256Verifier P (draws.bytes 0 TOKEN_LEN)
    csrfTokenHash := none
    sessionState
    lastSeenAt := some now
    expiresAt := now + SESSION_IDLE_TTL
    idleExpiresAt := now + SESSION_IDLE_TTL
    absoluteExpiresAt := now + SESSION_ABSOLUTE_TTL }

def createSessionWithDevice (P : Platform) (draws : Draws) (accountId : Uuid)
    (device : ValidatedDevice) (sessionState : SessionState) (now : Time) :
    Api CreatedSession := do
  inTx (devices.insert (newDevice draws accountId device now))
  inTx (sessions.insert (newSession P draws accountId sessionState now))
  pure ⟨draws.uuid 0, draws.bytes 0 TOKEN_LEN, now + SESSION_IDLE_TTL, now + SESSION_ABSOLUTE_TTL⟩

/-- The `session` member of a response. -/
def sessionResponse (P : Platform) (state : SessionState) (idleExpiresAt absoluteExpiresAt : Time) :
    Except ApiError SessionResponse := do
  let idle ← formatRfc3339 P idleExpiresAt
  let absolute ← formatRfc3339 P absoluteExpiresAt
  .ok ⟨state.toText, state == .mfaVerified, idle, absolute⟩

/-- The response once the transaction is committed: a formatting error is an error response. -/
def orError (x : Except ApiError Response) : Response :=
  match x with
  | .ok r => r
  | .error e => e.intoResponse

/-! ## Endpoints -/

def sessionStatus (P : Platform) (state : AppState) (draws : Draws) (headers : HeaderMap) :
    Api Response := do
  attempt (databasePool state)
  let now := nowUtcSecond (draws.clock 0)
  let session ← loadCurrentSession P headers now
  match session with
  | none =>
      pure ⟨200, .unauthenticatedSession,
        if (sessionTokenFromHeaders headers).isSome then some clearSessionCookie else none⟩
  | some session => do
      let session ← refreshSessionActivity session now
      let idle ← attempt (formatRfc3339 P session.idleExpiresAt)
      let absolute ← attempt (formatRfc3339 P session.absoluteExpiresAt)
      pure ⟨200, .authenticatedSession session.accountId session.deviceId
        session.sessionState.toText session.vaultAccess idle absolute, none⟩

def csrfToken (P : Platform) (state : AppState) (draws : Draws) (headers : HeaderMap) :
    Api Response := do
  attempt (databasePool state)
  let now := nowUtcSecond (draws.clock 0)
  let session ← loadCurrentSession P headers now
  let session ← attempt (requireSession session)
  let session ← refreshSessionActivity session now
  let csrfToken := draws.bytes 0 TOKEN_LEN
  let csrfTokenHash := sha256Verifier P csrfToken
  let _ ← onPool (sessions.update (fun r => r.id == session.id)
    (fun r => { r with csrfTokenHash := some csrfTokenHash }) fun _ => rfl)
  let expiresAt ← attempt (formatRfc3339 P session.idleExpiresAt)
  pure ⟨200, .csrfToken (encodeBase64url csrfToken) expiresAt, none⟩

def logout (P : Platform) (state : AppState) (draws : Draws) (headers : HeaderMap) :
    Api Response := do
  attempt (databasePool state)
  let now := nowUtcSecond (draws.clock 0)
  let session ← loadCurrentSession P headers now
  let done : Response := ⟨204, .empty, some clearSessionCookie⟩
  match session with
  | none => pure done
  | some session => do
      attempt (ensureUnsafeRequestContext headers)
      ensureCsrfToken P headers session.id
      let _ ← onPool (sessions.delete fun r => r.id == session.id)
      pure done

end PasswordVault
