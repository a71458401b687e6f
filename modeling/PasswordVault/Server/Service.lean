import PasswordVault.Auth.Enrollment
import PasswordVault.Vault.Handlers

/-!
# The service

* `Request`: an endpoint with what the client sent, and the request's draws.
* `serve`: the handler that the router runs for a request.
* `Fresh`: two requests draw different identifiers and different tokens.
-/

namespace PasswordVault

open Transactions

/-- A request to one of the endpoints. `unreadable` is a request that the extractors reject: a
body, a path or a query that does not deserialize. -/
inductive Action where
  | unreadable
  | registerStart (request : RegisterStartRequest)
  | registerFinish (request : RegisterFinishRequest)
  | loginStart (request : LoginStartRequest)
  | loginFinish (headers : HeaderMap) (request : LoginFinishRequest)
  | totpVerify (headers : HeaderMap) (request : TotpVerifyRequest)
  | recoveryCodeVerify (headers : HeaderMap) (request : RecoveryCodeVerifyRequest)
  | logout (headers : HeaderMap)
  | totpEnrollStart (headers : HeaderMap)
  | totpEnrollConfirm (headers : HeaderMap) (request : TotpEnrollConfirmRequest)
  | csrfToken (headers : HeaderMap)
  | sessionStatus (headers : HeaderMap)
  | listVaults (headers : HeaderMap)
  | syncVault (headers : HeaderMap) (query : SyncQuery)
  | createItem (headers : HeaderMap) (vaultId : Uuid) (request : CreateItemRequest)
  | createItemRevision (headers : HeaderMap) (vaultId itemId : Uuid)
      (request : CreateRevisionRequest)

/-- The headers that an endpoint loads its session from. -/
def Action.sessionHeaders : Action → Option HeaderMap
  | .logout headers | .totpEnrollStart headers | .totpEnrollConfirm headers _
  | .csrfToken headers | .sessionStatus headers | .listVaults headers | .syncVault headers _
  | .createItem headers _ _ | .createItemRevision headers _ _ _ => some headers
  | _ => none

/-- The handle and the type of the challenge that an endpoint issues. -/
def Action.issues : Action → Option (Except ApiError String × ChallengeType)
  | .registerStart request => some (normalizeLoginHandle request.loginHandle, .register)
  | .loginStart request => some (normalizeLoginHandle request.loginHandle, .login)
  | _ => none

structure Request where
  action : Action
  draws : Draws

/-- The time that a request takes from the application clock first. -/
def Request.now (q : Request) : Time := nowUtcSecond (q.draws.clock 0)

/-- The handler of a request. -/
def handler (P : Platform) (state : AppState) (q : Request) : Api Response :=
  match q.action with
  | .unreadable => fail .badRequest
  | .registerStart request => registerStart P state q.draws request
  | .registerFinish request => registerFinish P state q.draws request
  | .loginStart request => loginStart P state q.draws request
  | .loginFinish headers request => loginFinish P state q.draws headers request
  | .totpVerify headers request => totpVerify P state q.draws headers request
  | .recoveryCodeVerify headers request => recoveryCodeVerify P state q.draws headers request
  | .logout headers => logout P state q.draws headers
  | .totpEnrollStart headers => totpEnrollStart P state q.draws headers
  | .totpEnrollConfirm headers request => totpEnrollConfirm P state q.draws headers request
  | .csrfToken headers => csrfToken P state q.draws headers
  | .sessionStatus headers => sessionStatus P state q.draws headers
  | .listVaults headers => listVaults P state q.draws headers
  | .syncVault headers query => syncVault P state q.draws headers query
  | .createItem headers vaultId request => createItem P state q.draws headers vaultId request
  | .createItemRevision headers vaultId itemId request =>
      createItemRevision P state q.draws headers vaultId itemId request

def serve (P : Platform) (state : AppState) (q : Request) : ApiProgram :=
  (handler P state q).run

/-- Two requests draw no identifier twice, and no two tokens with the same verifier. -/
def Fresh (P : Platform) (q q' : Request) : Prop :=
  (∀ i j, q.draws.uuid i ≠ q'.draws.uuid j) ∧
  ∀ i j, sha256Verifier P (q.draws.bytes i TOKEN_LEN) ≠
    sha256Verifier P (q'.draws.bytes j TOKEN_LEN)

lemma Fresh.symm {P : Platform} {q q' : Request} (h : Fresh P q q') : Fresh P q' q :=
  ⟨fun i j => (h.1 j i).symm, fun i j => (h.2 j i).symm⟩

/-- The commits of the service. -/
abbrev Log : Type := History Db Request

/-- The service with its requests in progress. -/
abbrev Service : Type 1 := System Db Lock Response Request

/-- **The reachable states of the service**: an empty database, then any requests by any clients
in any order, their statements interleaved in any way. -/
def Reachable (P : Platform) (state : AppState) (sys : Service) : Prop :=
  System.Reaches (serve P state) (Fresh P) {} sys

end PasswordVault
