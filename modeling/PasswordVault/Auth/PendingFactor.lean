import PasswordVault.Auth.RecoveryCodes
import PasswordVault.Server.Endings

/-!
# The seed of a pending factor is guessed at once

* `confirmOutcome`: what `totp_enroll_confirm` does with the result of the code check.
* `pendingGate`: a confirmation checks a code only under the lock on the row of the factor, while
  the factor is pending (`serve_gated`).
* `Settles`: the commit of a confirmation drops the factor or makes it verified
  (`Effect.settles`), and that is done once (`settles_once`).
* `guessed_once`: so a seed is used for one code, unless the database fails the transaction.
-/

namespace PasswordVault

open Transactions

variable {P : Platform} {state : AppState} {q : Request} {H : Log} {b : Bool} {s' : Db} {id : Uuid}

/-! ## The code check -/

/-- What `totp_enroll_confirm` does once the code is checked. -/
def confirmOutcome (P : Platform) (draws : Draws) (request : TotpEnrollConfirmRequest)
    (session : CurrentSession) (now : Time) (acceptedStep : Option Nat) : Api Response := do
  match acceptedStep with
  | none => do
      let _ ← inTx (totpFactors.delete fun f => f.id == request.factorId &&
        f.accountId == session.accountId && f.verifiedAt.isNone)
      insertAuditEvent session.accountId session.deviceId "mfa_totp_enrollment_failed"
        (.obj [("factor_id", .str request.factorId.toText)])
      commitAnd ApiError.mfaVerificationFailed.intoResponse
  | some acceptedStep => do
      let codes := generateRecoveryCodes draws
      let _ ← inTx (recoveryCodes.delete fun c => c.accountId == session.accountId)
      insertRecoveryCodes (newRecoveryCodes P draws session.accountId)
      let sessionToken := draws.bytes 20 TOKEN_LEN
      let sessionTokenHash := sha256Verifier P sessionToken
      let idleExpiresAt := minTime (now + SESSION_IDLE_TTL) session.absoluteExpiresAt
      let step ← attempt (stepToRow acceptedStep)
      let _ ← inTx (totpFactors.update (fun f => f.id == request.factorId)
        (fun f => { f with
          verifiedAt := some now
          lastAcceptedStep := some step
          updatedAt := now }) fun _ => rfl)
      let _ ← inTx (sessions.update (fun r => r.id == session.id)
        (fun r => { r with
          sessionTokenHash := sessionTokenHash
          csrfTokenHash := none
          sessionState := .mfaVerified
          lastSeenAt := some now
          idleExpiresAt := idleExpiresAt
          expiresAt := idleExpiresAt }) fun _ => rfl)
      insertAuditEvent session.accountId session.deviceId "mfa_totp_enrollment_confirmed"
        (.obj [("factor_id", .str request.factorId.toText),
          ("recovery_code_count", .num (.int codes.length))])
      commitAnd (orError do
        let response ← sessionResponse P .mfaVerified idleExpiresAt session.absoluteExpiresAt
        .ok ⟨200, .totpEnrollConfirm request.factorId "active" response codes,
          some (sessionCookie sessionToken)⟩)

/-- What `totp_enroll_confirm` does with the locked row. -/
def confirmLocked (P : Platform) (draws : Draws) (request : TotpEnrollConfirmRequest)
    (session : CurrentSession) (now : Time) (totpSeedKey : Bytes) (factor : TotpFactor) :
    Api Response := do
  let profile ← attempt (totpProfileFromRow factor)
  attempt (ensure factor.verifiedAt.isNone .mfaVerificationFailed)
  let acceptedStep ← attempt (checkFactorCode P totpSeedKey session.accountId request.factorId
    factor now request.code profile)
  confirmOutcome P draws request session now acceptedStep

/-- A confirmation: what comes before the lock, and what it does with the locked row. -/
lemma totpEnrollConfirm_eq {draws : Draws} {headers : HeaderMap}
    {request : TotpEnrollConfirmRequest} :
    totpEnrollConfirm P state draws headers request = (do
      attempt (databasePool state)
      let totpSeedKey ← attempt (orUnavailable state.totpSeedKey)
      let now := nowUtcSecond (draws.clock 0)
      let session ← loadCurrentSession P headers now
      let session ← attempt (requireSession session)
      attempt (ensureTotpEnrollmentSession session)
      attempt (ensureUnsafeRequestContext headers)
      ensureCsrfToken P headers session.id
      let factor ← inTx (totpFactors.lockRows fun f =>
        f.id == request.factorId && f.accountId == session.accountId)
      match factor.head? with
      | none => fail .mfaVerificationFailed
      | some factor => confirmLocked P draws request session now totpSeedKey factor) := rfl

/-! ## The gate -/

/-- A confirmation decides on a pending factor under the lock on its row. -/
def pendingGate (id : Uuid) : Gate Db Lock Response where
  lock := .row .totpFactors id
  found s := ∃ f, s.totpFactors.find? id = some f ∧ f.verifiedAt = none
  done _ := True
  failed r := r = ApiError.serviceUnavailable.intoResponse
  refused r := ∃ e : ApiError, r = e.intoResponse

/-- The lock on the row keeps the factor pending. -/
lemma pendingGate_keeps (id : Uuid) (s s' : Db) (h : Keeps (pendingGate id).lock s s')
    (hfound : (pendingGate id).found s) : (pendingGate id).found s' := by
  obtain ⟨f, hf, hpending⟩ := hfound
  exact ⟨f, ((totpFactors.respects _ s s' h).1 id rfl).trans hf, hpending⟩

section ends

variable {done failed : Response → Prop}

lemma ends_insertRecoveryCodes (h : failed ApiError.serviceUnavailable.intoResponse)
    {rows : List RecoveryCode} {next : Unit → ApiProgram} (hnext : (next ()).Ends done failed) :
    (insertRecoveryCodes rows next).Ends done failed := by
  induction rows with
  | nil => exact hnext
  | cons row rest ih => exact ends_inTx h fun _ => ih

/-- After the code check a confirmation commits, or the database fails. -/
lemma confirmOutcome_ends {draws : Draws} {request : TotpEnrollConfirmRequest}
    {session : CurrentSession} {now : Time} {acceptedStep : Option Nat}
    (h : failed ApiError.serviceUnavailable.intoResponse) (hdone : ∀ r, done r) :
    (confirmOutcome P draws request session now acceptedStep).run.Ends done failed := by
  cases acceptedStep with
  | none => exact ends_inTx h fun _ => ends_insertAuditEvent h (ends_commitAnd h (hdone _))
  | some step =>
      refine ends_inTx h fun _ => ends_insertRecoveryCodes h ?_
      show (attempt (stepToRow step) _).Ends done failed
      unfold stepToRow
      split
      · refine ends_inTx h fun _ => ends_inTx h fun _ => ?_
        exact ends_insertAuditEvent h (ends_commitAnd h (hdone _))
      · exact .answer h

end ends

/-- With the locked row a confirmation refuses, or it checks the code of a pending factor. -/
lemma confirm_locked {draws : Draws} {request : TotpEnrollConfirmRequest}
    {session : CurrentSession} {now : Time} {totpSeedKey : Bytes} {f : TotpFactor} :
    (∃ e : ApiError, (confirmLocked P draws request session now totpSeedKey f).run =
      .answer e.intoResponse) ∨
    f.verifiedAt = none ∧ ∃ acceptedStep,
      (confirmLocked P draws request session now totpSeedKey f).run =
        (confirmOutcome P draws request session now acceptedStep).run := by
  unfold confirmLocked
  rcases totpProfileFromRow f with e | profile
  · exact .inl ⟨e, rfl⟩
  · rcases f.verifiedAt with _ | time
    · rcases hcheck : checkFactorCode P totpSeedKey session.accountId request.factorId f now
        request.code profile with e | acceptedStep
      · refine .inl ⟨e, ?_⟩
        show attempt (checkFactorCode _ _ _ _ _ _ _ profile) _ = _
        rw [hcheck]
        rfl
      · refine .inr ⟨rfl, acceptedStep, ?_⟩
        show attempt (checkFactorCode _ _ _ _ _ _ _ profile) _ = _
        rw [hcheck]
        rfl
    · exact .inl ⟨.mfaVerificationFailed, rfl⟩

/-- **A confirmation is gated**: it checks a code only with the lock on the row of the factor, while
the factor is pending. -/
theorem serve_gated {headers : HeaderMap} {request : TotpEnrollConfirmRequest}
    (hq : q.action = .totpEnrollConfirm headers request) (hid : request.factorId = id) :
    (serve P state q).Gated (pendingGate id) := by
  have hrefused : ∀ e : ApiError, (pendingGate id).refused e.intoResponse := fun e => ⟨e, rfl⟩
  have hclosed := AloneClosed.gated hrefused
  unfold serve handler
  rw [hq]
  dsimp only
  rw [totpEnrollConfirm_eq]
  refine hclosed.attempt fun _ _ => hclosed.attempt fun totpSeedKey _ => ?_
  refine hclosed.requireSession fun session => hclosed.attempt fun _ _ => ?_
  refine hclosed.attempt fun _ _ => hclosed.ensureCsrfToken ?_
  refine .lock (fun _ => hrefused .serviceUnavailable) fun snap cur r hr => ?_
  obtain rfl := Except.ok.inj hr
  dsimp only
  generalize hrows : totpFactors.chosen _ snap cur = rows
  rcases rows with _ | ⟨f, rest⟩
  · exact .inl ⟨_, rfl, hrefused .mfaVerificationFailed⟩
  · have hmem : f ∈ totpFactors.chosen (fun f => f.id == request.factorId &&
        f.accountId == session.accountId) snap cur := by
      rw [hrows]
      exact List.mem_cons_self
    obtain ⟨hrow, hof, -⟩ := totpFactors.mem_chosen.mp hmem
    rw [Bool.and_eq_true, beq_iff_eq, hid] at hof
    have hfind : cur.totpFactors.find? id = some f := by
      have hfound := Rows.find?_of_mem hrow
      rwa [show totpFactors.index.key f = id from hof.1] at hfound
    rcases @confirm_locked P q.draws request session _ totpSeedKey f with ⟨e, hanswer⟩ | hcheck
    · exact .inl ⟨_, hanswer, hrefused e⟩
    · obtain ⟨hpending, acceptedStep, hnext⟩ := hcheck
      refine .inr ⟨rfl, ?_, ⟨f, hfind, hpending⟩, ?_⟩
      · refine List.mem_map.mpr ⟨f, List.mem_cons_self, ?_⟩
        exact congrArg (Lock.row .totpFactors) hof.1
      · show (confirmLocked P q.draws request session _ totpSeedKey f).run.Ends _ _
        rw [hnext]
        exact confirmOutcome_ends rfl fun _ => trivial

/-! ## Evaluations -/

/-- The thread has just checked the code of a confirmation against the seed of the factor `id`, with
some result: what is left of its program is what follows the check. -/
def Evaluates (P : Platform) (state : AppState) (id : Uuid) (t : Thread Db Lock Response Request) :
    Prop :=
  ∃ headers request session seedKey f profile acceptedStep,
    t.request.action = .totpEnrollConfirm headers request ∧ request.factorId = id ∧ f.id = id ∧
    state.totpSeedKey = some seedKey ∧ totpProfileFromRow f = .ok profile ∧
    checkFactorCode P seedKey session.accountId id f t.request.now request.code profile =
      .ok acceptedStep ∧
    t.program = (confirmOutcome P t.request.draws request session t.request.now acceptedStep).run

/-- The first statement after the check: a delete that takes no lock on an empty database, and is
not the last one. -/
lemma confirmOutcome_first {draws : Draws} {request : TotpEnrollConfirmRequest}
    {session : CurrentSession} {now : Time} {acceptedStep : Option Nat} :
    ∃ (stmt : Statement Db Lock Nat) (next : Nat → ApiProgram) (r : Reply Db Lock Nat),
      (confirmOutcome P draws request session now acceptedStep).run =
        .inside stmt unavailable next ∧
      stmt.exec {} {} = .ok r ∧ r.locks = [] ∧ ∀ n a, next n ≠ .answer a := by
  cases acceptedStep with
  | none =>
      refine ⟨_, _, _, rfl, rfl, rfl, fun n a hanswer => ?_⟩
      cases hanswer
  | some step =>
      refine ⟨_, _, _, rfl, rfl, rfl, fun n a hanswer => ?_⟩
      have hlength := newRecoveryCodes_length (P := P) draws session.accountId
      dsimp only [Handler.bind_apply] at hanswer
      generalize newRecoveryCodes P draws session.accountId = rows at hlength hanswer
      cases rows with
      | nil => cases hlength
      | cons row rest => cases hanswer

/-- **A request that evaluates a code holds the lock on the row of the factor**, which is
pending. -/
lemma Evaluates.holds {sys : Service} (h : Reachable P state sys)
    {t : Thread Db Lock Response Request} (ht : t ∈ sys.threads) (heval : Evaluates P state id t) :
    t.Decides (pendingGate id) sys.history ∧
      (pendingGate id).lock ∈ t.connection.locks ∧ (pendingGate id).found sys.history.current := by
  obtain ⟨headers, request, session, seedKey, f, profile, acceptedStep, hq, hid, -, -, -, -,
    hprog⟩ := heval
  obtain ⟨stmt, next, r, hfirst, hexec, hlocks, hnext⟩ := @confirmOutcome_first P t.request.draws
    request session t.request.now acceptedStep
  rw [hfirst] at hprog
  have hgate := h.atGate (fun q => ∃ headers request, q.action = .totpEnrollConfirm headers request ∧
    request.factorId = id) (pendingGate id) (fun q ⟨_, _, hq, hid⟩ => serve_gated hq hid)
    (pendingGate_keeps id) ht ⟨headers, request, hq, hid⟩
  cases hgate with
  | before hgated =>
      rw [hprog] at hgated
      cases hgated with
      | lock hfail hstep =>
          rcases hstep _ _ r hexec with ⟨a, ha, -⟩ | ⟨-, hlock, -⟩
          · exact absurd ha (hnext _ _)
          · rw [hlocks] at hlock
            cases hlock
  | past hpast =>
      refine ⟨hpast, ?_⟩
      cases hpast with
      | holds hlock hfound => exact ⟨hlock, hfound⟩
      | committed _ _ _ _ hr =>
          rw [hprog] at hr
          cases hr
      | failed hr =>
          rw [hprog] at hr
          cases hr

/-! ## Decisions -/

/-- What the commit of a confirmation does to the factor: it is dropped, or verified with the step of
the code. -/
inductive Settles (P : Platform) (state : AppState) (q : Request) (id : Uuid) (s s' : Db) : Prop
  | dropped (h : s'.totpFactors.find? id = none)
  | verified {f : TotpFactor} {code : String} {step : Int}
      (hf : s.totpFactors.find? id = some f) (hpending : f.verifiedAt = none)
      (hcode : q.totpCode = some code) (haccepts : AcceptsCode P state q code f step)
      (h : s'.totpFactors.find? id = some (f.confirmed step q.now))

/-- The request is a confirmation of the factor. -/
def ConfirmsFactor (id : Uuid) (q : Request) : Prop :=
  ∃ headers request, q.action = .totpEnrollConfirm headers request ∧ request.factorId = id

/-- **The commit of a confirmation settles its factor.** -/
theorem Effect.settles (h : Effect P state q H true s') (hq : ConfirmsFactor id q) :
    Settles P state q id H.current s' := by
  obtain ⟨headers, request, haction, rfl⟩ := hq
  cases h with
  | @enrollFailed headers' request' session f event hq hload hstate hf hfactor =>
      rw [haction] at hq
      obtain ⟨-, rfl⟩ := Action.totpEnrollConfirm.inj hq
      refine .dropped ?_
      show (H.current.totpFactors.remove [f.id]).find? _ = none
      rw [Rows.find?_remove, hfactor.1, if_pos List.mem_cons_self]
  | @enrollConfirmed headers' request' session f seedKey profile acceptedStep step codes rows event
      hq hload hstate hf hfactor hkey hprofile hcode hstep =>
      rw [haction] at hq
      obtain ⟨-, rfl⟩ := Action.totpEnrollConfirm.inj hq
      obtain ⟨hid, haccount, hpending⟩ := hfactor
      rw [← hid]
      have haccepts : AcceptsCode P state q request.code f step := by
        rw [← haccount, ← hid] at hcode
        exact ⟨seedKey, profile, acceptedStep, hkey, hprofile, hcode, hstep⟩
      refine .verified hf hpending ?_ haccepts ?_
      · rw [Request.totpCode, haction]
      · generalize newRecoveryCodes _ _ _ = newCodes
        exact Rows.find?_put_self _ _
  | registered hq => exact absurd (haction.symm.trans hq) (by simp)
  | loginRefused hq => exact absurd (haction.symm.trans hq) (by simp)
  | mfaIssued hq => exact absurd (haction.symm.trans hq) (by simp)
  | setupSession hq => exact absurd (haction.symm.trans hq) (by simp)
  | attemptFailed hq =>
      rcases hq with ⟨_, _, hq, -⟩ | ⟨_, _, hq, -⟩
      · exact absurd (haction.symm.trans hq) (by simp)
      · exact absurd (haction.symm.trans hq) (by simp)
  | totpVerified hq => exact absurd (haction.symm.trans hq) (by simp)
  | recoveryVerified hq => exact absurd (haction.symm.trans hq) (by simp)
  | enrollStarted hq => exact absurd (haction.symm.trans hq) (by simp)
  | itemCreated hq => exact absurd (haction.symm.trans hq) (by simp)
  | itemRevised hq => exact absurd (haction.symm.trans hq) (by simp)

lemma Settles.not_pending {s : Db} (h : Settles P state q id s s') :
    ∀ f, s'.totpFactors.find? id = some f → f.verifiedAt.isSome = true := by
  intro f hf
  cases h with
  | dropped h =>
      rw [h] at hf
      cases hf
  | verified _ _ _ _ h =>
      rw [h] at hf
      rw [← Option.some.inj hf]
      rfl

lemma Settled.not_found (h : Settled id H) : ¬ (pendingGate id).found H.current := by
  rintro ⟨f, hf, hpending⟩
  have hverified := h.2 f hf
  rw [hpending] at hverified
  cases hverified

/-- **After the commit of a confirmation the factor is settled for good.** -/
lemma ServiceRun.settled_after (h : ServiceRun P state H) {l₁ l₂ : List (Entry Db Request)}
    {e : Entry Db Request} (hsplit : H.entries = l₁ ++ e :: l₂) (hclosing : e.closing = true)
    (hq : ConfirmsFactor id e.request) (hfound : (pendingGate id).found e.before) :
    (∀ e' ∈ l₂, ¬ (pendingGate id).found e'.before) ∧ Settled id H := by
  have hpushed : ∀ H₁, ServiceRun P state H₁ → H₁.current = e.before →
      Effect P state e.request H₁ e.closing e.after →
      Settled id (H₁.push e.request e.closing e.after) := by
    intro H₁ hrun₁ hbefore heff
    obtain ⟨f, hf, -⟩ := hfound
    rw [← hbefore] at hf
    rw [hclosing] at heff
    exact ⟨(hrun₁.drawnFactor hf).push _ _ _, (heff.settles hq).not_pending⟩
  have hstays : ∀ {H₁ H₂ : Log}, ServiceRun P state H₁ → Since P state H₁ H₂ → Settled id H₁ →
      Settled id H₂ := fun hrun₁ hlater hsettled =>
    Later.induction (K := Settled id) (fun _ _ _ _ _ hpush heff hK => hK.push hpush heff) hrun₁
      hlater hsettled
  constructor
  · intro e' he'
    obtain ⟨H₁, H₂, ⟨hrun₁, -, hbefore, heff, hpush⟩, hlater, hbefore', -⟩ := Run.between h hsplit he'
    rw [← hbefore']
    exact (hstays hpush hlater (hpushed H₁ hrun₁ hbefore heff)).not_found
  · obtain ⟨H₁, hrun₁, -, hbefore, heff, ⟨hpush, hlater⟩, -⟩ := Run.split h hsplit
    exact hstays hpush hlater (hpushed H₁ hrun₁ hbefore heff)

/-- **A pending factor is settled by one confirmation.** -/
lemma ServiceRun.settles_once (h : ServiceRun P state H) {e e' : Entry Db Request}
    (he : e ∈ H.entries) (he' : e' ∈ H.entries) (hclosing : e.closing = true)
    (hclosing' : e'.closing = true) (hq : ConfirmsFactor id e.request)
    (hq' : ConfirmsFactor id e'.request) (hfound : (pendingGate id).found e.before)
    (hfound' : (pendingGate id).found e'.before) : e = e' := by
  obtain ⟨l₁, l₂, hsplit⟩ := List.append_of_mem he
  have hmem := he'
  rw [hsplit] at hmem
  rcases List.mem_append.mp hmem with hbefore | hafter
  · -- the other one came first
    obtain ⟨m₁, m₂, rfl⟩ := List.append_of_mem hbefore
    have hsplit' : H.entries = m₁ ++ e' :: (m₂ ++ e :: l₂) := by
      rw [hsplit, List.append_assoc, List.cons_append]
    have hnot := (h.settled_after hsplit' hclosing' hq' hfound').1 e
      (List.mem_append_right _ List.mem_cons_self)
    exact absurd hfound hnot
  · rcases List.mem_cons.mp hafter with rfl | hafter
    · rfl
    · exact absurd hfound' ((h.settled_after hsplit hclosing hq hfound).1 e' hafter)

/-! ## One guess -/

/-- A confirmation of the factor that is without effect: it evaluates no code, commits nothing and
answers an error, if anything. -/
structure Rejected (P : Platform) (state : AppState) (id : Uuid) (sys : Service)
    (u : Thread Db Lock Response Request) : Prop where
  not_evaluates : ¬ Evaluates P state id u
  not_committed : ¬ sys.history.Committed u.request
  answer : ∀ r, u.program = .answer r → ∃ e : ApiError, r = e.intoResponse

/-- What has become of a request that has evaluated a code for the factor. -/
inductive AfterEvaluation (P : Platform) (state : AppState) (id : Uuid) (sys : Service)
    (t : Thread Db Lock Response Request) : Prop
  /-- Its transaction is open: the factor is pending, and nobody else evaluates a code for it. -/
  | deciding (hpending : ∃ f, sys.history.current.totpFactors.find? id = some f ∧
        f.verifiedAt = none)
      (honly : ∀ u ∈ sys.threads, Evaluates P state id u → u = t)
      (hnot : ¬ sys.history.Committed t.request)
  /-- It has settled the factor, which was never pending again, and every other confirmation is
  without effect. -/
  | settled {e : Entry Db Request} (he : e ∈ sys.history.entries) (hreq : e.request = t.request)
      (hsettles : Settles P state e.request id e.before e.after)
      (hforever : ∀ f, sys.history.current.totpFactors.find? id = some f →
        f.verifiedAt.isSome = true)
      (hothers : ∀ u ∈ sys.threads, u.request ≠ t.request → ConfirmsFactor id u.request →
        Rejected P state id sys u)
  /-- The database has failed its transaction. -/
  | undone (hanswer : t.program = .answer ApiError.serviceUnavailable.intoResponse)
      (hnot : ¬ sys.history.Committed t.request)

lemma Evaluates.confirms {t : Thread Db Lock Response Request} (h : Evaluates P state id t) :
    ConfirmsFactor id t.request := by
  obtain ⟨headers, request, -, -, -, -, -, hq, hid, -⟩ := h
  exact ⟨headers, request, hq, hid⟩

/-- Once the factor is settled by a commit, the other confirmations are without effect. -/
lemma Reachable.rejected {sys : Service} (h : Reachable P state sys) {e : Entry Db Request}
    (he : e ∈ sys.history.entries) (hclosing : e.closing = true)
    (hq : ConfirmsFactor id e.request) (hfound : (pendingGate id).found e.before)
    {u : Thread Db Lock Response Request} (hu : u ∈ sys.threads) (hne : u.request ≠ e.request)
    (hconfirms : ConfirmsFactor id u.request) : Rejected P state id sys u := by
  have hrun : ServiceRun P state sys.history := h.run
  obtain ⟨l₁, l₂, hsplit⟩ := List.append_of_mem he
  have hsettled := (hrun.settled_after hsplit hclosing hq hfound).2
  have hgate := h.atGate (ConfirmsFactor id) (pendingGate id)
    (fun q ⟨_, _, hq, hid⟩ => serve_gated hq hid) (pendingGate_keeps id) hu hconfirms
  have hnever : ¬ Evaluates P state id u := fun heval =>
    absurd (heval.holds h hu).2.2 hsettled.not_found
  cases hgate with
  | before hgated hwrites hnot =>
      refine ⟨hnever, hnot, fun r hr => ?_⟩
      rw [hr] at hgated
      cases hgated with
      | answer hrefused => exact hrefused
  | past hpast =>
      cases hpast with
      | holds hlock hfound' => exact absurd hfound' hsettled.not_found
      | committed he' hreq' hclosing' hfound' =>
          have hsame := hrun.settles_once he he' hclosing hclosing' hq (hreq' ▸ hconfirms) hfound
            hfound'
          exact absurd (hsame ▸ hreq').symm hne
      | failed hr hfailed hnot =>
          refine ⟨hnever, hnot, fun r hr' => ⟨.serviceUnavailable, ?_⟩⟩
          rw [hr] at hr'
          rw [← Program.answer.inj hr']
          exact hfailed

/-- **What becomes of a request that has evaluated a code.** -/
theorem Evaluates.after {sys sys' : Service} (h : Reachable P state sys)
    {t : Thread Db Lock Response Request} (ht : t ∈ sys.threads) (heval : Evaluates P state id t)
    (hl : Leads P state sys sys') :
    ∃ t' ∈ sys'.threads, t'.request = t.request ∧ AfterEvaluation P state id sys' t' := by
  have h' := h.leads hl
  obtain ⟨t', ht', hreq, hdecides⟩ := h.decides (pendingGate_keeps id) hl ht (heval.holds h ht).1
  have hconfirms : ConfirmsFactor id t'.request := hreq ▸ heval.confirms
  refine ⟨t', ht', hreq, ?_⟩
  cases hdecides with
  | holds hlock hfound hprog hnot =>
      exact .deciding hfound (fun u hu heval' =>
        h'.one_holder hu ht' (heval'.holds h' hu).2.1 hlock) hnot
  | @committed e r he hreq' hclosing hfound hr =>
      have hq : ConfirmsFactor id e.request := hreq' ▸ hconfirms
      obtain ⟨l₁, l₂, hsplit⟩ := List.append_of_mem he
      have hsettled := (ServiceRun.settled_after h'.run hsplit hclosing hq hfound).2
      refine .settled he hreq' ?_ hsettled.2 fun u hu hne hconfirms' =>
        h'.rejected he hclosing hq hfound hu (hreq' ▸ hne) hconfirms'
      obtain ⟨H₁, -, -, hbefore, heff, -⟩ := Run.split h'.run hsplit
      rw [hclosing] at heff
      rw [← hbefore]
      exact Effect.settles heff hq
  | failed hr hfailed hnot => exact .undone (hr.trans (congrArg _ hfailed)) hnot

end PasswordVault
