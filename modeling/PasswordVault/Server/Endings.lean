import PasswordVault.Library.Threads
import PasswordVault.Server.Soundness

/-!
# How a request ends

* `AloneClosed`: what holds of a program if it holds after each of its statements on their own, and
  of the errors. It holds of what precedes the transaction of an endpoint: loading the session,
  checking the CSRF token, refreshing the session.
* `Reachable.follow`, `Reachable.everywhere`: the rules of the library for the threads of the
  service.
* `Reachable.ends`, `Reachable.atGate`: what they mean for a request that ends its transaction with
  an answer, and for one that decides something under a lock.
-/

namespace PasswordVault

open Transactions

variable {P : Platform} {state : AppState} {q : Request}

/-! ## Before the transaction -/

/-- The property holds of the errors, and of a statement on its own when it holds of what follows. -/
structure AloneClosed (K : ApiProgram → Prop) : Prop where
  fail : ∀ e : ApiError, K (.answer e.intoResponse)
  pool : ∀ {β : Type} (stmt : Statement Db Lock β) {next : β → ApiProgram},
    (∀ v, K (next v)) → K (onPool stmt next)

namespace AloneClosed

variable {K : ApiProgram → Prop} (hK : AloneClosed K)

include hK

lemma attempt {α : Type} {x : Except ApiError α} {next : α → ApiProgram}
    (h : ∀ a, x = .ok a → K (next a)) : K (PasswordVault.attempt x next) := by
  cases x with
  | ok a => exact h a rfl
  | error e => exact hK.fail e

lemma loadCurrentSession {headers : HeaderMap} {now : Time}
    {next : Option CurrentSession → ApiProgram} (h : ∀ session, K (next session)) :
    K (PasswordVault.loadCurrentSession P headers now next) := by
  unfold PasswordVault.loadCurrentSession
  rcases sessionTokenFromHeaders headers with _ | token
  · exact h none
  · refine hK.pool _ fun row => ?_
    rcases row with _ | ⟨row, deviceRevokedAt⟩
    · exact h none
    · dsimp only
      split
      · exact hK.pool _ fun _ => h none
      · exact h _

lemma requireSession {headers : HeaderMap} {now : Time} {next : CurrentSession → ApiProgram}
    (h : ∀ session, K (next session)) :
    K (PasswordVault.loadCurrentSession P headers now fun session =>
      PasswordVault.attempt (PasswordVault.requireSession session) next) :=
  hK.loadCurrentSession fun _ => hK.attempt fun session _ => h session

lemma ensureCsrfToken {headers : HeaderMap} {sessionId : Uuid} {next : Unit → ApiProgram}
    (h : K (next ())) : K (PasswordVault.ensureCsrfToken P headers sessionId next) := by
  unfold PasswordVault.ensureCsrfToken
  rcases csrfTokenFromHeaders headers with _ | token
  · exact hK.fail _
  · refine hK.pool _ fun stored => ?_
    dsimp only
    rcases stored.join with _ | storedHash
    · exact hK.fail _
    · dsimp only
      by_cases hmatch : (storedHash.length == TOKEN_LEN &&
          storedHash == sha256Verifier P token) = true
      · rw [if_pos hmatch]
        exact h
      · rw [if_neg hmatch]
        exact hK.fail _

lemma refreshSessionActivity {session : CurrentSession} {now : Time}
    {next : CurrentSession → ApiProgram} (h : ∀ session, K (next session)) :
    K (PasswordVault.refreshSessionActivity session now next) :=
  hK.pool _ fun _ => h _

lemma requireVaultSession {draws : Draws} {headers : HeaderMap}
    {next : CurrentSession → ApiProgram} (h : ∀ session, K (next session)) :
    K (PasswordVault.requireVaultSession P draws headers next) :=
  hK.requireSession fun _ => hK.attempt fun _ _ => hK.refreshSessionActivity h

end AloneClosed

/-! ## Inside the transaction -/

section ends

variable {done failed : Response → Prop}

/-- The errors are failures. -/
lemma AloneClosed.ends (h : ∀ e : ApiError, failed e.intoResponse) :
    AloneClosed fun p => p.Ends done failed :=
  ⟨fun e => .answer (h e), fun _ _ hnext => .alone (fun _ => h .serviceUnavailable) hnext⟩

lemma ends_inTx (h : failed ApiError.serviceUnavailable.intoResponse) {β : Type}
    {stmt : Statement Db Lock β} {next : β → ApiProgram} (hnext : ∀ v, (next v).Ends done failed) :
    (inTx stmt next).Ends done failed :=
  .inside (fun _ => h) hnext

lemma ends_insertAuditEvent (h : failed ApiError.serviceUnavailable.intoResponse)
    {accountId : Uuid} {actorDeviceId : Option Uuid} {eventType : String} {eventMetadata : Json}
    {next : Unit → ApiProgram} (hnext : (next ()).Ends done failed) :
    (insertAuditEvent accountId actorDeviceId eventType eventMetadata next).Ends done failed :=
  ends_inTx h fun _ => hnext

lemma ends_commitAnd (h : failed ApiError.serviceUnavailable.intoResponse) {r : Response}
    (hr : done r) {α : Type} {next : α → ApiProgram} : (commitAnd r next).Ends done failed :=
  .commit h hr

end ends

/-- What is refused before a gate. -/
lemma AloneClosed.gated {G : Gate Db Lock Response} (h : ∀ e : ApiError, G.refused e.intoResponse) :
    AloneClosed fun p => p.Gated G :=
  ⟨fun e => .answer (h e), fun _ _ hnext => .alone (fun _ => h .serviceUnavailable) hnext⟩

/-! ## The threads of the service -/

/-- The service may go on to `sys'`. -/
abbrev Leads (P : Platform) (state : AppState) : Service → Service → Prop :=
  System.Leads (Fresh P) (serve P state)

lemma Reachable.leads {sys sys' : Service} (h : Reachable P state sys)
    (hl : Leads P state sys sys') : Reachable P state sys' :=
  System.Reaches.leads h hl

lemma Fresh.not_self (q : Request) : ¬ Fresh P q q := fun h => h.1 0 0 rfl

lemma Reachable.follow {K : Thread Db Lock Response Request → Log → Prop}
    (step : ∀ t H t' H', ServiceRun P state H → K t H →
      t.Sees (Guarantee P state) (Fresh P) {} H t' H' → K t' H')
    {sys sys' : Service} (h : Reachable P state sys) (hl : Leads P state sys sys')
    {t : Thread Db Lock Response Request} (ht : t ∈ sys.threads) (hK : K t sys.history) :
    ∃ t' ∈ sys'.threads, t'.request = t.request ∧ K t' sys'.history :=
  System.Reaches.follow Fresh.symm (fun _ h => Reachable.ok h) step h hl ht hK

lemma Reachable.everywhere {K : Thread Db Lock Response Request → Log → Prop}
    (step : ∀ t H t' H', ServiceRun P state H → K t H →
      t.Sees (Guarantee P state) (Fresh P) {} H t' H' → K t' H')
    (arrive : ∀ (sys : Service) q, ¬ sys.history.Committed q →
      K (sys.arrival (serve P state) q) sys.history)
    {sys : Service} (h : Reachable P state sys) : ∀ t ∈ sys.threads, K t sys.history :=
  System.Reaches.everywhere Fresh.symm (fun _ h => Reachable.ok h) step
    (fun sys q hok hq => arrive sys q (hok.not_committed Fresh.not_self hq)) h

/-- **The answer of a request whose program ends tells whether it has committed.** -/
theorem Reachable.ends (c : Request → Prop) (done failed : Request → Response → Prop)
    (hserve : ∀ q, c q → (serve P state q).Ends (done q) (failed q)) {sys : Service}
    (h : Reachable P state sys) {t : Thread Db Lock Response Request} (ht : t ∈ sys.threads)
    (hc : c t.request) : t.Ends (done t.request) (failed t.request) sys.history := by
  refine h.everywhere (K := fun t H => c t.request →
    t.Ends (done t.request) (failed t.request) H) ?_ ?_ t ht hc
  · intro t H t' H' _ hK hsees hc
    have hreq := hsees.same.1
    rw [hreq] at hc ⊢
    exact (hK hc).sees Fresh.not_self hsees
  · intro sys q hnot hc
    exact .working (hserve q hc) hnot

/-- **A request whose program is gated is before the gate or past it.** -/
theorem Reachable.atGate (c : Request → Prop) (G : Gate Db Lock Response)
    (hserve : ∀ q, c q → (serve P state q).Gated G)
    (hkeeps : ∀ s s', Keeps G.lock s s' → G.found s → G.found s') {sys : Service}
    (h : Reachable P state sys) {t : Thread Db Lock Response Request} (ht : t ∈ sys.threads)
    (hc : c t.request) : t.AtGate G sys.history := by
  refine h.everywhere (K := fun t H => c t.request → t.AtGate G H) ?_ ?_ t ht hc
  · intro t H t' H' _ hK hsees hc
    rw [hsees.same.1] at hc
    exact (hK hc).sees Fresh.not_self hkeeps hsees
  · intro sys q hnot hc
    exact .before (hserve q hc) rfl hnot

/-- **A request that is past a gate stays so.** -/
theorem Reachable.decides {G : Gate Db Lock Response}
    (hkeeps : ∀ s s', Keeps G.lock s s' → G.found s → G.found s') {sys sys' : Service}
    (h : Reachable P state sys) (hl : Leads P state sys sys')
    {t : Thread Db Lock Response Request} (ht : t ∈ sys.threads)
    (hdecides : t.Decides G sys.history) :
    ∃ t' ∈ sys'.threads, t'.request = t.request ∧ t'.Decides G sys'.history :=
  h.follow (fun _ _ _ _ _ hK hsees => hK.sees Fresh.not_self hkeeps hsees) hl ht hdecides

/-- **Two requests do not hold the lock of a gate together.** -/
lemma Reachable.one_holder {sys : Service} (h : Reachable P state sys)
    {t u : Thread Db Lock Response Request} (ht : t ∈ sys.threads) (hu : u ∈ sys.threads) {l : Lock}
    (hl : l ∈ t.connection.locks) (hl' : l ∈ u.connection.locks) : t = u := by
  by_contra hne
  obtain ⟨i, hi, rfl⟩ := List.getElem_of_mem ht
  obtain ⟨j, hj, rfl⟩ := List.getElem_of_mem hu
  have hpair := List.pairwise_iff_getElem.mp h.ok.apart
  rcases Nat.lt_trichotomy i j with hlt | rfl | hlt
  · exact hpair i j hi hj hlt l hl hl'
  · exact hne rfl
  · exact hpair j i hj hi hlt l hl' hl

end PasswordVault
