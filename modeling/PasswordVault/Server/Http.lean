import PasswordVault.Server.Json
import Mathlib.Algebra.GroupWithZero.Nat

/-!
# Requests and responses

* `Platform`, `AppState`, `Draws`: the cryptography the server calls, its configuration, and what
  one request reads from the clocks and the random generator.
* `ApiError` and `Response`: the answers, with their status, codes and messages.
* Cookies and headers: `sessionTokenFromHeaders`, `csrfTokenFromHeaders`,
  `ensureUnsafeRequestContext`.
-/

namespace PasswordVault

/-! ## What the server is given -/

/-- The cryptography and formatting that the server calls. -/
structure Platform where
  sha256 : Bytes → Bytes
  hmacSha1 : Bytes → Bytes → Bytes
  hmacSha256 : Bytes → Bytes → Bytes
  hmacSha512 : Bytes → Bytes → Bytes
  /-- XChaCha20-Poly1305: key, nonce, associated data, message. -/
  encrypt : Bytes → Bytes → Bytes → Bytes → Option Bytes
  decrypt : Bytes → Bytes → Bytes → Bytes → Option Bytes
  rfc3339 : Int → Option String
  /-- The text of the `f64` that `serde_json` reads back from a `jsonb` column, for a float that it
  has written as the text. -/
  rereadFloat : String → String
  sha256_length : ∀ b, (sha256 b).length = 32
  hmacSha1_length : ∀ k b, (hmacSha1 k b).length = 20
  hmacSha256_length : ∀ k b, (hmacSha256 k b).length = 32
  hmacSha512_length : ∀ k b, (hmacSha512 k b).length = 64

/-- The configuration. -/
structure AppState where
  database : Bool := true
  syntheticMetadataKey : Option Bytes := none
  totpSeedKey : Option Bytes := none

/-- Microseconds since the epoch. -/
abbrev Time := Int

def seconds (n : Int) : Time := n * 1000000
def minutes (n : Int) : Time := seconds (n * 60)
def hours (n : Int) : Time := minutes (n * 60)

instance neZero_clocks : NeZero 8 := ⟨by decide⟩
instance neZero_uuids : NeZero 16 := ⟨by decide⟩
instance neZero_bytes : NeZero 32 := ⟨by decide⟩

/-- What one request reads from the clocks and draws at random, by the place in its handler. -/
structure Draws where
  /-- The application clock. -/
  clock : Fin 8 → Time
  /-- The database clock, `now()`. -/
  dbClock : Time
  /-- `Uuid::new_v4`. -/
  uuid : Fin 16 → Uuid
  /-- `random_bytes`. -/
  bytes : Fin 32 → (n : Nat) → Bytes
  bytes_length : ∀ i n, (bytes i n).length = n

/-- The clock reading without its fraction of a second. -/
def nowUtcSecond (t : Time) : Time := seconds (t / 1000000)

/-! ## Errors -/

structure ApiError where
  status : Nat
  code : String
  message : String
  deriving DecidableEq

namespace ApiError

def badRequest : ApiError := ⟨400, "bad_request", "Bad request."⟩

def serviceUnavailable : ApiError :=
  ⟨503, "service_unavailable", "Service is temporarily unavailable."⟩

def rateLimited : ApiError := ⟨429, "rate_limited", "Too many requests."⟩

def registrationUnavailable : ApiError :=
  ⟨409, "registration_unavailable", "Registration is unavailable."⟩

def sessionRequired : ApiError := ⟨401, "session_required", "A valid session is required."⟩

def csrfRequired : ApiError := ⟨403, "csrf_required", "A valid CSRF token is required."⟩

def mfaRequired : ApiError := ⟨403, "mfa_required", "MFA enrollment or verification is required."⟩

def notFound : ApiError := ⟨404, "not_found", "Not found."⟩

def mfaVerificationFailed : ApiError :=
  ⟨403, "mfa_verification_failed", "MFA verification failed."⟩

def authFailed : ApiError := ⟨401, "auth_failed", "Authentication failed."⟩

end ApiError

/-! ## Responses -/

structure SessionResponse where
  state : String
  vaultAccess : Bool
  idleExpiresAt : String
  absoluteExpiresAt : String
  deriving DecidableEq

structure TotpProfileResponse where
  algorithm : String
  digits : Nat
  period : Nat
  deriving DecidableEq

structure HeadResponse where
  seq : Int
  hash : String
  deriving DecidableEq

structure EncryptedVaultKeyResponse where
  cryptoVersion : String
  keyId : String
  nonce : String
  ciphertext : String
  deriving DecidableEq

structure VaultResponse where
  vaultId : Uuid
  headSeq : Int
  headHash : String
  genesisHeadHash : String
  encryptedVaultKey : EncryptedVaultKeyResponse
  createdAt : String
  updatedAt : String
  deriving DecidableEq

/-- An item envelope, as the client sends it and as it is stored and returned. -/
structure EncryptedItemEnvelope where
  cryptoVersion : String
  keyId : String
  aead : String
  nonce : String
  ciphertext : String
  deriving DecidableEq

structure SyncChangeResponse where
  itemId : Uuid
  revisionId : Uuid
  operation : String
  revisionSeq : Int
  headSeq : Int
  previousHeadHash : String
  headHash : String
  baseRevisionSeq : Int
  baseHeadSeq : Int
  baseHeadHash : String
  changeMac : String
  envelopeHash : String
  encryptedItemEnvelope : EncryptedItemEnvelope
  deriving DecidableEq

/-- The bodies of the responses. -/
inductive Body where
  | error (code message : String)
  | registerStart (registrationId : Uuid) (authProtocol : String) (kdfProfile : Json)
      (accountSalt authVerifierProfile authVerifierSalt : String) (authVerifierIterations : Nat)
      (expiresAt : String)
  | registerFinish (accountId : Uuid) (session : SessionResponse) (nextStep : String)
  | loginStart (loginChallengeId : Uuid) (authProtocol : String) (kdfProfile : Json)
      (accountSalt authVerifierProfile authVerifierSalt : String) (authVerifierIterations : Nat)
      (serverNonce combinedNonce expiresAt : String)
  | loginFinishMfaRequired (result : String) (mfaChallengeId : Uuid)
      (availableMethods : List String) (expiresAt : String)
  | loginFinishSessionCreated (result : String) (session : SessionResponse) (nextStep : String)
  | totpVerify (result : String) (session : SessionResponse)
  | recoveryCodeVerify (result : String) (session : SessionResponse) (nextStep : String)
  | authenticatedSession (accountId : Uuid) (deviceId : Option Uuid) (sessionState : String)
      (vaultAccess : Bool) (idleExpiresAt absoluteExpiresAt : String)
  | unauthenticatedSession
  | csrfToken (csrfToken expiresAt : String)
  | totpEnrollStart (factorId : Uuid) (status : String) (totpProfile : TotpProfileResponse)
      (otpauthUri manualSecret expiresAt : String)
  | totpEnrollConfirm (factorId : Uuid) (status : String) (session : SessionResponse)
      (recoveryCodes : List String)
  | vaultList (vaults : List VaultResponse)
  | sync (fromHead toHead : HeadResponse) (hasMore : Bool) (changes : List SyncChangeResponse)
  | itemRevisionWrite (itemId revisionId : Uuid) (revisionSeq headSeq : Int) (headHash : String)
  | vaultConflict (code message : String) (currentHead : HeadResponse)
  | empty

/-- A response. Every response also says `cache-control: no-store`. -/
structure Response where
  status : Nat
  body : Body
  setCookie : Option String := none

def ApiError.intoResponse (e : ApiError) : Response := ⟨e.status, .error e.code e.message, none⟩

def formatRfc3339 (P : Platform) (t : Time) : Except ApiError String :=
  match P.rfc3339 t with
  | some text => .ok text
  | none => .error .serviceUnavailable

def databasePool (state : AppState) : Except ApiError Unit :=
  if state.database then .ok () else .error .serviceUnavailable

/-- A decoding error is a bad request. -/
def orBadRequest {ε α : Type} : Except ε α → Except ApiError α
  | .ok a => .ok a
  | .error _ => .error .badRequest

/-- A missing value or a decoding error on the server's side. -/
def orUnavailable {α : Type} : Option α → Except ApiError α
  | some a => .ok a
  | none => .error .serviceUnavailable

/-- The error `e` unless the condition holds. -/
def ensure (cond : Bool) (e : ApiError) : Except ApiError Unit :=
  if cond then .ok () else .error e

@[simp] lemma ensure_ok {cond : Bool} {e : ApiError} {u : Unit} :
    ensure cond e = .ok u ↔ cond = true := by
  cases cond <;> simp [ensure]

@[simp] lemma orUnavailable_ok {α : Type} {x : Option α} {a : α} :
    orUnavailable x = .ok a ↔ x = some a := by
  cases x <;> simp [orUnavailable]

@[simp] lemma orBadRequest_ok {ε α : Type} {x : Except ε α} {a : α} :
    orBadRequest x = .ok a ↔ x = .ok a := by
  cases x <;> simp [orBadRequest]

/-- A computation that went through has gone through both its halves. -/
lemma bind_ok {ε α β : Type} {x : Except ε α} {f : α → Except ε β} {b : β} :
    (x >>= f) = .ok b ↔ ∃ a, x = .ok a ∧ f a = .ok b := by
  cases x with
  | ok a => simp [bind, Except.bind]
  | error e => simp [bind, Except.bind]

/-! ## Headers -/

/-- The header lines of a request, with their names in lower case. -/
abbrev HeaderMap := List (String × Bytes)

/-- The first value of a header. -/
def HeaderMap.get (headers : HeaderMap) (name : String) : Option Bytes := headers.lookup name

def SESSION_COOKIE_NAME : String := "__Host-pv_session"

def TOKEN_LEN : Nat := 32

def sessionCookie (sessionToken : Bytes) : String :=
  SESSION_COOKIE_NAME ++ "=" ++ encodeBase64url sessionToken ++
    "; Path=/; Secure; HttpOnly; SameSite=Strict"

def clearSessionCookie : String :=
  "__Host-pv_session=; Path=/; Secure; HttpOnly; SameSite=Strict; Max-Age=0; " ++
    "Expires=Thu, 01 Jan 1970 00:00:00 GMT"

/-- The scan over the parts of the cookie header; a second session cookie, or one that does not
decode, is no token. -/
def scanSessionCookie (found : Option Bytes) : List (List Char) → Option Bytes
  | [] => found
  | part :: parts =>
      match splitOnce '=' (trimChars part) with
      | some (name, value) =>
          if name = SESSION_COOKIE_NAME.toList then
            match found with
            | some _ => none
            | none =>
                match decodeBase64urlArray TOKEN_LEN (String.ofList value) with
                | .ok token => scanSessionCookie (some token) parts
                | .error _ => none
          else scanSessionCookie found parts
      | none => scanSessionCookie found parts

def sessionTokenFromHeaders (headers : HeaderMap) : Option Bytes :=
  match (headers.get "cookie").bind headerText with
  | some cookies => scanSessionCookie none (splitAll ';' cookies)
  | none => none

def csrfTokenFromHeaders (headers : HeaderMap) : Option Bytes :=
  match (headers.get "x-pv-csrf").bind headerText with
  | some value =>
      match decodeBase64urlArray TOKEN_LEN (String.ofList value) with
      | .ok token => some token
      | .error _ => none
  | none => none

def originHost (origin : List Char) : Option (List Char) :=
  match stripStart "https://".toList origin with
  | some rest =>
      match splitAll '/' rest with
      | host :: _ => if host.isEmpty then none else some host
      | [] => none
  | none => none

def ensureUnsafeRequestContext (headers : HeaderMap) : Except ApiError Unit := do
  ensure (!((headers.get "sec-fetch-site").bind headerText).any
    fun value => value.map asciiLower == "cross-site".toList) .csrfRequired
  match (headers.get "origin").bind headerText with
  | some origin =>
      match (headers.get "host").bind headerText, originHost origin with
      | some host, some originHost => ensure (originHost == host) .csrfRequired
      | _, _ => .error .csrfRequired
  | none => .ok ()

end PasswordVault
