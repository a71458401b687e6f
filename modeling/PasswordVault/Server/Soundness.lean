import PasswordVault.Auth.MfaGuarantees
import PasswordVault.Vault.Guarantees

/-!
# The service keeps to the effects

* `serve_meets`: the program of every request meets its contract.
* `Reachable.ok`: so in every reachable state of the service, whatever the interleaving, the log
  is a run of effects, and
* `Reachable.loginAnswer`, `Reachable.syncAnswer`, `Reachable.writeAnswer`: every answer given tells
  what it should.
-/

namespace PasswordVault

open Transactions

variable {P : Platform} {state : AppState}

/-- What an answer to a request tells: something for `login_finish` and the endpoints of one vault,
nothing for the others. -/
def Answer (P : Platform) (state : AppState) (q : Request) (born H : Log) (r : Response) : Prop :=
  match q.action with
  | .loginFinish _ _ => LoginAnswer P state q born H r
  | .syncVault _ _ => SyncAnswer P state q born H r
  | .createItem _ vaultId _ => WriteAnswer P state q vaultId [] born H r
  | .createItemRevision _ vaultId itemId _ => WriteAnswer P state q vaultId [itemId] born H r
  | _ => True

/-- **Every request meets its contract**, one case per endpoint. -/
theorem serve_meets (q : Request) (born : Log)
    (hrun : Run (Guarantee P state) (Fresh P) {} born) :
    (serve P state q).Meets (Guarantee P state) (Fresh P) {} q (Answer P state q born) {} born := by
  unfold serve handler Answer
  have hF : Kept P state [] fun _ => True := Stable.const _ _
  cases hq : q.action with
  | unreadable => exact holds_fail (F := fun _ => True) (fun _ _ => trivial) born hrun trivial
  | registerStart => exact registerStart_holds (fun _ _ => trivial) hq hF born hrun trivial
  | registerFinish => exact registerFinish_holds (fun _ _ => trivial) hq hF born hrun trivial
  | loginStart => exact loginStart_holds (fun _ _ => trivial) hq hF born hrun trivial
  | loginFinish => exact loginFinish_holds hq born born hrun hrun.later
  | totpVerify => exact totpVerify_holds (fun _ _ => trivial) hq hF born hrun trivial
  | recoveryCodeVerify =>
      exact recoveryCodeVerify_holds (fun _ _ => trivial) hq hF born hrun trivial
  | logout => exact logout_holds (fun _ _ => trivial) hq hF born hrun trivial
  | totpEnrollStart => exact totpEnrollStart_holds (fun _ _ => trivial) hq hF born hrun trivial
  | totpEnrollConfirm =>
      exact totpEnrollConfirm_holds (fun _ _ => trivial) hq hF born hrun trivial
  | csrfToken => exact csrfToken_holds (fun _ _ => trivial) hq hF born hrun trivial
  | sessionStatus headers =>
      have hheaders : q.action.sessionHeaders = some headers := by rw [hq, Action.sessionHeaders]
      exact sessionStatus_holds (fun _ _ => trivial) hheaders hF born hrun trivial
  | listVaults => exact listVaults_holds (fun _ _ => trivial) hq hF born hrun trivial
  | syncVault => exact syncVault_holds hq born born hrun hrun.later
  | createItem => exact createItem_holds hq born born hrun hrun.later
  | createItemRevision => exact createItemRevision_holds hq born born hrun hrun.later

/-- **Soundness of the service.** -/
theorem Reachable.ok {sys : Service} (h : Reachable P state sys) :
    sys.Ok (Guarantee P state) (Fresh P) {} (Answer P state) :=
  System.Reaches.sound Fresh.symm serve_meets h

/-- The log of a reachable state is a run of effects. -/
lemma Reachable.run {sys : Service} (h : Reachable P state sys) : ServiceRun P state sys.history :=
  h.ok.run

lemma Reachable.syncAnswer {sys : Service} (h : Reachable P state sys)
    {t : Thread Db Lock Response Request} (ht : t ∈ sys.threads) {r : Response}
    (hr : t.program = .answer r) {headers : HeaderMap} {query : SyncQuery}
    (hq : t.request.action = .syncVault headers query) :
    SyncAnswer P state t.request t.born sys.history r := by
  have hanswer := h.ok.answered ht hr
  rw [Answer, hq] at hanswer
  exact hanswer

end PasswordVault
