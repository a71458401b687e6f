import PasswordVault.Auth.Factors
import PasswordVault.Auth.LoginGuarantees

/-!
# Handlers keep to the effects: the second factor

`totpVerify`, `recoveryCodeVerify`, `totpEnrollStart` and `totpEnrollConfirm` commit only their
effects.
-/

namespace PasswordVault

open Transactions

variable {P : Platform} {state : AppState} {q : Request} {Post : Log → Response → Prop}

/-! ## Answering a challenge -/

lemma totpVerify_holds (hP : ∀ H r, Post H r) {headers : HeaderMap} {request : TotpVerifyRequest}
    (hq : q.action = .totpVerify headers request) {F : Log → Prop} (hF : Kept P state [] F) :
    Holds P state q Post noTransaction F (totpVerify P state q.draws headers request).run := by
  have herr : ErrorsOk Post := fun _ H => hP H _
  unfold totpVerify Handler.run
  refine holds_attempt herr fun _ _ => holds_attempt herr fun _ _ => ?_
  refine holds_attempt herr fun seedKey hkey => ?_
  rw [orUnavailable_ok] at hkey
  refine Sat.lockRows (T := authChallenges) hF (unavailable_ok herr) (fun _ => rfl) ?_
  intro rows F₁ hF₁ _ hopen hfound
  dsimp only
  rcases hhead : rows.head? with _ | ch
  · exact holds_fail herr
  · have hmem : ch ∈ rows := List.mem_of_head? hhead
    refine holds_attempt herr fun accountId haccount => ?_
    rw [orUnavailable_ok] at haccount
    refine holds_attempt herr fun _ hattempts => ?_
    rw [ensure_ok, decide_eq_true_eq] at hattempts
    refine holds_attempt herr fun metadata _ => holds_attempt herr fun device _ => ?_
    refine Sat.lockRows (T := totpFactors) hF₁ (unavailable_ok herr) (fun _ => rfl) ?_
    intro factors F₂ hF₂ hsub₂ hverified hfactor
    dsimp only
    rcases hhead' : factors.head? with _ | f
    · exact holds_fail herr
    · have hmem' : f ∈ factors := List.mem_of_head? hhead'
      refine holds_attempt herr fun profile hprofile => ?_
      refine holds_attempt herr fun acceptedStep hcode => ?_
      dsimp only
      rcases acceptedStep with _ | acceptedStep
      · refine holds_incrementChallengeAttempts herr hF₂
          (fun H hH => hfound ch hmem H (hsub₂ H hH)) fun locks hF₃ => ?_
        refine holds_insertAuditEvent herr hF₃ fun event => ?_
        refine Sat.commit hF₃ (fun H => hP H _) ?_ fun _ H' _ _ _ => hP H' _
        intro H _ hH
        exact .attemptFailed (.inl ⟨headers, request, hq, hopen ch hmem⟩)
          (hfound ch hmem H (hsub₂ H hH)) hattempts
      · refine holds_createSessionWithDevice herr hF₂ (fun s => rfl) (fun s => rfl) ?_
        intro locks₃ F₃ hF₃ hsub₃ hdevice hnew
        refine holds_attempt herr fun step hstep => ?_
        refine Sat.updateRow (T := totpFactors) f hF₃ (unavailable_ok herr) ?_ (by simp)
          (fun x hx => eq_of_beq hx) fun locks₄ _ hF₄ _ => ?_
        · exact fun H hH => hfactor f hmem' H (hsub₃ H hH)
        · refine holds_consumeAuthChallenge (d := ch) herr hF₄ rfl ?_ fun locks₅ _ hF₅ => ?_
          · exact fun H hH => hfound ch hmem H (hsub₂ H (hsub₃ H hH))
          · refine holds_insertAuditEvent herr hF₅ fun event => ?_
            refine Sat.commit hF₅ (fun H => hP H _) ?_ fun _ H' _ _ _ => hP H' _
            intro H _ hH
            exact .totpVerified hq (hfound ch hmem H (hsub₂ H (hsub₃ H hH))) (hopen ch hmem)
              haccount hattempts (hfactor f hmem' H (hsub₃ H hH))
              (by simpa using hverified f hmem') hkey hprofile hcode hstep (hdevice H hH)
              (hnew H hH)

section recovery

variable {c : Connection Db Lock} {F : Log → Prop}

/-- Looking for the recovery code: the one found is an unused code of the account with the hash of
the text, and is fixed from now on. -/
lemma holds_findMatchingRecoveryCode {accountId : Uuid} {recoveryCode : String}
    {next : Option Uuid → ApiProgram} (herr : ErrorsOk Post) (hF : Kept P state c.locks F)
    (hw : ∀ s, (c.writes s).recoveryCodes = s.recoveryCodes)
    (hnone : ∀ locks F', Kept P state locks F' → (∀ H, F' H → F H) →
      Holds P state q Post ⟨c.writes, locks⟩ F' (next none))
    (hsome : ∀ (code : RecoveryCode) locks F', Kept P state locks F' → (∀ H, F' H → F H) →
      code.codeHash = recoveryCodeHash P accountId code.codeSalt recoveryCode →
      (∀ H, F' H → H.current.recoveryCodes.find? code.id = some code) →
      Holds P state q Post ⟨c.writes, locks⟩ F' (next (some code.id))) :
    Holds P state q Post c F (findMatchingRecoveryCode P accountId recoveryCode next) := by
  unfold findMatchingRecoveryCode
  refine Sat.lockRows (T := recoveryCodes) hF (unavailable_ok herr) hw ?_
  intro rows F' hF' hsub _ hfound
  refine holds_attempt herr fun matched hmatched => ?_
  rcases matched with _ | id
  · exact hnone _ F' hF' hsub
  · rcases matchRecoveryCode_some hmatched with hnot | ⟨code, hcode, rfl, hhash⟩
    · cases hnot
    · exact hsome code _ F' hF' hsub hhash (hfound code hcode)

lemma holds_consumeRecoveryCode {accountId : Uuid} {code : RecoveryCode}
    {next : Unit → ApiProgram} (herr : ErrorsOk Post) (hF : Kept P state c.locks F)
    (hw : ∀ s, (c.writes s).recoveryCodes = s.recoveryCodes)
    (hknown : ∀ H, F H → H.current.recoveryCodes.find? code.id = some code)
    (h : ∀ locks F', Kept P state locks F' → (∀ H, F' H → F H) →
      code.accountId = accountId ∧ code.usedAt = none →
      Holds P state q Post
        ⟨recoveryCodes.putAll [{ code with usedAt := some q.now }] ∘ c.writes, locks⟩ F'
        (next ())) :
    Holds P state q Post c F (consumeRecoveryCode accountId code.id q.now next) := by
  unfold consumeRecoveryCode
  refine Sat.update (T := recoveryCodes) hF (unavailable_ok herr) hw ?_
  intro rows locks F' _ hF' hsub hchosen hfound
  dsimp only
  split
  · rename_i hone
    obtain ⟨row, rfl⟩ := List.length_eq_one_iff.mp hone
    obtain ⟨hp, -⟩ := hchosen row List.mem_cons_self
    simp only [Bool.and_eq_true, beq_iff_eq, Option.isNone_iff_eq_none] at hp
    obtain ⟨⟨hid, haccount⟩, hunused⟩ := hp
    intro H hrun hH
    have hrow := hfound row List.mem_cons_self H hH
    change H.current.recoveryCodes.find? row.id = some row at hrow
    rw [hid, hknown H (hsub H hH)] at hrow
    obtain rfl := Option.some.inj hrow
    exact h locks F' hF' hsub ⟨haccount, hunused⟩ H hrun hH
  · exact holds_fail herr

end recovery

lemma recoveryCodeVerify_holds (hP : ∀ H r, Post H r) {headers : HeaderMap}
    {request : RecoveryCodeVerifyRequest} (hq : q.action = .recoveryCodeVerify headers request)
    {F : Log → Prop} (hF : Kept P state [] F) :
    Holds P state q Post noTransaction F
      (recoveryCodeVerify P state q.draws headers request).run := by
  have herr : ErrorsOk Post := fun _ H => hP H _
  unfold recoveryCodeVerify Handler.run
  refine holds_attempt herr fun _ _ => holds_attempt herr fun _ _ => ?_
  refine Sat.lockRows (T := authChallenges) hF (unavailable_ok herr) (fun _ => rfl) ?_
  intro rows F₁ hF₁ _ hopen hfound
  dsimp only
  rcases hhead : rows.head? with _ | ch
  · exact holds_fail herr
  · have hmem : ch ∈ rows := List.mem_of_head? hhead
    refine holds_attempt herr fun accountId haccount => ?_
    rw [orUnavailable_ok] at haccount
    refine holds_attempt herr fun metadata _ => holds_attempt herr fun _ hattempts => ?_
    rw [ensure_ok, decide_eq_true_eq] at hattempts
    refine holds_attempt herr fun device _ => ?_
    -- the wrong code, whether it is malformed or matches no row
    have hwrong : ∀ locks F', Kept P state locks F' → (∀ H, F' H → F₁ H) →
        Holds P state q Post ⟨id, locks⟩ F' ((do
          incrementChallengeAttempts ch.id q.now
          insertAuditEvent accountId none "mfa_recovery_code_login_failed" (.obj [])
          commitAnd ApiError.mfaVerificationFailed.intoResponse : Api Response) .answer) := by
      intro locks F' hF' hsub
      refine holds_incrementChallengeAttempts (c := ⟨id, locks⟩) herr hF'
        (fun H hH => hfound ch hmem H (hsub H hH)) fun locks hF₃ => ?_
      refine holds_insertAuditEvent herr hF₃ fun event => ?_
      refine Sat.commit hF₃ (fun H => hP H _) ?_ fun _ H' _ _ _ => hP H' _
      intro H _ hH
      exact .attemptFailed (.inr ⟨headers, request, hq, hopen ch hmem⟩)
        (hfound ch hmem H (hsub H hH)) hattempts
    rcases hvalid : validateRecoveryCode request.recoveryCode with e | recoveryCode
    · exact hwrong _ F₁ hF₁ fun H hH => hH
    · refine holds_findMatchingRecoveryCode herr hF₁ (fun _ => rfl) hwrong ?_
      intro code locks F₂ hF₂ hsub₂ hhash hcode
      refine holds_consumeRecoveryCode (c := ⟨id, locks⟩) herr hF₂ (fun _ => rfl) hcode ?_
      intro locks₃ F₃ hF₃ hsub₃ hunused
      refine holds_createSessionWithDevice herr hF₃ (fun s => rfl) (fun s => rfl) ?_
      intro locks₄ F₄ hF₄ hsub₄ hdevice hnew
      have hch : ∀ H, F₄ H → H.current.authChallenges.find? ch.id = some ch :=
        fun H hH => hfound ch hmem H (hsub₂ H (hsub₃ H (hsub₄ H hH)))
      refine holds_consumeAuthChallenge (d := ch) herr hF₄ rfl hch fun locks₅ _ hF₅ => ?_
      refine holds_insertAuditEvent herr hF₅ fun event => ?_
      refine Sat.commit hF₅ (fun H => hP H _) ?_ fun _ H' _ _ _ => hP H' _
      intro H _ hH
      exact .recoveryVerified hq (hch H hH) (hopen ch hmem) haccount hattempts
        (hcode H (hsub₃ H (hsub₄ H hH))) hunused hvalid hhash (hdevice H hH) (hnew H hH)

/-! ## Enrolling -/

section enrolling

variable {c : Connection Db Lock} {F : Log → Prop}

lemma holds_accountLoginHandle {accountId : Uuid} {next : String → ApiProgram}
    (herr : ErrorsOk Post) (hF : Kept P state [] F) (hc : c.locks = [])
    (h : ∀ handle F', Kept P state [] F' → (∀ H, F' H → F H) →
      Holds P state q Post c F' (next handle)) :
    Holds P state q Post c F (accountLoginHandle accountId next) := by
  unfold accountLoginHandle
  refine Sat.queryAlone hF hc (unavailable_ok herr) (fun H => .idle) ?_
  intro found F' hF' hfound
  refine holds_attempt herr fun handle _ => ?_
  exact h handle F' hF' fun H hH => (hfound H hH).1

/-- Loading a session that may enroll. -/
lemma holds_requireEnrollment {headers : HeaderMap} {next : CurrentSession → Unit → ApiProgram}
    (herr : ErrorsOk Post) (hq : q.action.sessionHeaders = some headers) (hF : Kept P state [] F)
    (hc : c.locks = []) (h : ∀ session F', Kept P state [] F' → (∀ H, F' H → F H) →
      (∀ H, F' H → H.Saw (LoadsSession P headers q.now session)) →
      session.sessionState ≠ .mfaVerified → Holds P state q Post c F' (next session ())) :
    Holds P state q Post c F (loadCurrentSession P headers q.now fun session =>
      attempt (requireSession session) fun session =>
        attempt (ensureTotpEnrollmentSession session) fun u => next session u) := by
  refine holds_loadCurrentSession herr hq hF hc ?_ ?_
  · exact holds_attempt herr fun session hsession => by cases hsession
  · intro session F' hF' hsub hload
    refine holds_attempt herr fun session' hsession => ?_
    obtain rfl := Except.ok.inj hsession
    refine holds_attempt herr fun _ hstate => ?_
    refine h session F' hF' hsub hload fun hverified => ?_
    simp [ensureTotpEnrollmentSession, hverified] at hstate

/-- The loop that inserts the new recovery codes, after the old ones with the keys `ks` were dropped
and the codes `done` inserted: all are new, and their keys are different. -/
lemma holds_insertRecoveryCodes {rows : List RecoveryCode} {ks : List Uuid}
    {next : Unit → ApiProgram} (herr : ErrorsOk Post) :
    ∀ (done : List RecoveryCode) {locks : List Lock} {F : Log → Prop},
      Kept P state locks F → (∀ H, F H → ∀ d ∈ done, recoveryCodes.New ks d H.current) →
      (done.map RecoveryCode.id).Nodup →
      (∀ locks' F', (∀ l ∈ locks, l ∈ locks') → Kept P state locks' F' → (∀ H, F' H → F H) →
        (∀ H, F' H → ∀ d ∈ done ++ rows, recoveryCodes.New ks d H.current) →
        ((done ++ rows).map RecoveryCode.id).Nodup →
        Holds P state q Post ⟨recoveryCodes.putAll (done ++ rows) ∘ recoveryCodes.remove ks, locks'⟩
          F' (next ())) →
      Holds P state q Post ⟨recoveryCodes.putAll done ∘ recoveryCodes.remove ks, locks⟩ F
        (insertRecoveryCodes rows next) := by
  induction rows with
  | nil =>
      intro done locks F hF hdone hdistinct h
      rw [List.append_nil] at h
      exact h locks F (fun _ hl => hl) hF (fun _ hH => hH) hdone hdistinct
  | cons row rows ih =>
      intro done locks F hF hdone hdistinct h
      unfold insertRecoveryCodes
      refine Sat.insertMore (T := recoveryCodes) (fun _ _ _ => rfl) hF (unavailable_ok herr) hdone ?_
      intro locks₁ F₁ hl₁ hF₁ hsub₁ hnew hne
      refine ih _ hF₁ ?_ ?_ ?_
      · intro H hH d hd
        rcases List.mem_append.mp hd with hd | hd
        · exact hdone H (hsub₁ H hH) d hd
        · rw [List.mem_singleton.mp hd]
          exact hnew H hH
      · rw [List.map_append, List.map_singleton]
        refine hdistinct.append (List.nodup_singleton _) ?_
        rw [List.disjoint_singleton]
        intro hmem
        obtain ⟨d, hd, hid⟩ := List.mem_map.mp hmem
        exact hne d hd hid
      · rw [List.append_assoc, List.singleton_append]
        exact fun locks₂ F₂ hl₂ hF₂ hsub₂ => h locks₂ F₂ (fun l hl => hl₂ l (hl₁ l hl)) hF₂
          fun H hH => hsub₁ H (hsub₂ H hH)

end enrolling

lemma totpEnrollStart_holds (hP : ∀ H r, Post H r) {headers : HeaderMap}
    (hq : q.action = .totpEnrollStart headers) {F : Log → Prop} (hF : Kept P state [] F) :
    Holds P state q Post noTransaction F (totpEnrollStart P state q.draws headers).run := by
  have herr : ErrorsOk Post := fun _ H => hP H _
  have hheaders : q.action.sessionHeaders = some headers := by rw [hq, Action.sessionHeaders]
  unfold totpEnrollStart Handler.run
  refine holds_attempt herr fun _ _ => holds_attempt herr fun seedKey hkey => ?_
  rw [orUnavailable_ok] at hkey
  refine holds_requireEnrollment herr hheaders hF rfl ?_
  intro session F₁ hF₁ _ hload₁ hstate
  refine holds_attempt herr fun _ _ => ?_
  refine holds_ensureCsrfToken herr hF₁ rfl fun F₂ hF₂ hsub₂ => ?_
  refine holds_refreshSessionActivity herr hheaders hF₂ rfl
    (fun H hH => hload₁ H (hsub₂ H hH)) ?_
  refine holds_attempt herr fun seedCiphertext hseed => ?_
  refine holds_accountLoginHandle herr hF₂ rfl fun handle F₃ hF₃ hsub₃ => ?_
  refine holds_attempt herr fun uri _ => ?_
  refine Sat.delete (T := totpFactors) hF₃ (unavailable_ok herr) (fun _ => rfl) ?_
  intro rows F₄ hF₄ hsub₄ hp hfound
  refine Sat.insertNew (T := totpFactors) (rows.map TotpFactor.id) hF₄ (unavailable_ok herr) ?_ ?_
  · intro s x hx hnot
    exact ⟨x, Rows.mem_remove.mpr ⟨hx, hnot⟩, rfl, rfl⟩
  · intro locks₅ F₅ _ hF₅ hsub₅ hcheck hnew
    refine holds_insertAuditEvent herr hF₅ fun event => ?_
    refine Sat.commit hF₅ (fun H => hP H _) ?_ fun _ H' _ _ _ => hP H' _
    intro H _ hH
    have hload := hload₁ H (hsub₂ H (hsub₃ H (hsub₄ H (hsub₅ H hH))))
    refine @Effect.enrollStarted P state q H headers session rows seedCiphertext event hq hload
      hstate (fun r hr => ⟨?_, ?_⟩) (hnew H hH) hcheck ⟨seedKey, hkey, ?_⟩
    · exact hfound r hr H (hsub₅ H hH)
    · exact eq_of_beq (hp r hr)
    · exact hseed

lemma totpEnrollConfirm_holds (hP : ∀ H r, Post H r) {headers : HeaderMap}
    {request : TotpEnrollConfirmRequest} (hq : q.action = .totpEnrollConfirm headers request)
    {F : Log → Prop} (hF : Kept P state [] F) :
    Holds P state q Post noTransaction F
      (totpEnrollConfirm P state q.draws headers request).run := by
  have herr : ErrorsOk Post := fun _ H => hP H _
  have hheaders : q.action.sessionHeaders = some headers := by rw [hq, Action.sessionHeaders]
  unfold totpEnrollConfirm Handler.run
  refine holds_attempt herr fun _ _ => holds_attempt herr fun seedKey hkey => ?_
  rw [orUnavailable_ok] at hkey
  refine holds_requireEnrollment herr hheaders hF rfl ?_
  intro session F₁ hF₁ _ hload₁ hstate
  refine holds_attempt herr fun _ _ => ?_
  refine holds_ensureCsrfToken herr hF₁ rfl fun F₂ hF₂ hsub₂ => ?_
  refine Sat.lockRows (T := totpFactors) hF₂ (unavailable_ok herr) (fun _ => rfl) ?_
  intro factors F₃ hF₃ hsub₃ hp hfactor
  dsimp only
  rcases hhead : factors.head? with _ | f
  · exact holds_fail herr
  · have hmem : f ∈ factors := List.mem_of_head? hhead
    have hf : f.id = request.factorId ∧ f.accountId = session.accountId := by
      simpa using hp f hmem
    have hload : ∀ H, F₃ H → H.Saw (LoadsSession P headers q.now session) :=
      fun H hH => hload₁ H (hsub₂ H (hsub₃ H hH))
    refine holds_attempt herr fun profile hprofile => holds_attempt herr fun _ hpending => ?_
    rw [ensure_ok, Option.isNone_iff_eq_none] at hpending
    refine holds_attempt herr fun acceptedStep hcode => ?_
    dsimp only
    rcases acceptedStep with _ | acceptedStep
    · refine Sat.deleteRow (T := totpFactors) f hF₃ (unavailable_ok herr) (hfactor f hmem)
        (by simp [hf, hpending]) ?_ fun locks _ hF₄ => ?_
      · intro x hx
        simp only [Bool.and_eq_true, beq_iff_eq] at hx
        exact hx.1.1.trans hf.1.symm
      · refine holds_insertAuditEvent herr hF₄ fun event => ?_
        refine Sat.commit hF₄ (fun H => hP H _) ?_ fun _ H' _ _ _ => hP H' _
        intro H _ hH
        exact .enrollFailed hq (hload H hH) hstate (hfactor f hmem H hH) ⟨hf.1, hf.2, hpending⟩
    · -- all codes of the account are dropped: no other request can bring in one of them
      have hlock : Lock.row .totpFactors f.id ∈
          (factors.map fun r => totpFactors.index.rowLock (totpFactors.index.key r)) ++ [] :=
        List.mem_append_left _ (List.mem_map.mpr ⟨f, hmem, rfl⟩)
      have hall : ∀ ks : List Uuid, Kept P state
          ((factors.map fun r => totpFactors.index.rowLock (totpFactors.index.key r)) ++ [])
          fun H => F₃ H ∧ ∀ r ∈ recoveryCodes.get H.current,
            (r.accountId == session.accountId) = true → r.id ∈ ks := by
        intro ks H H' hrun henv hH
        refine ⟨hF₃ H H' hrun henv hH.1, fun r hr haccount => ?_⟩
        refine (kept_codes hpending hlock ks H H' hrun henv ⟨hfactor f hmem H hH.1, ?_⟩).2 r hr
          ((eq_of_beq haccount).trans hf.2.symm)
        exact fun code hin heq => hH.2 code hin (beq_iff_eq.mpr (heq.trans hf.2))
      refine Sat.deleteAll (T := recoveryCodes) hF₃ (unavailable_ok herr) (fun _ => rfl) hall ?_
      intro codes locks₄ F₄ _ hF₄ hsub₄ hcodes
      refine holds_insertRecoveryCodes herr [] hF₄ (fun _ _ d hd => by cases hd) .nil ?_
      intro locks₅ F₅ _ hF₅ hsub₅ hnew hdistinct
      rw [List.nil_append] at hnew hdistinct ⊢
      generalize hnewCodes : newRecoveryCodes P q.draws session.accountId = newCodes
        at hnew hdistinct ⊢
      refine holds_attempt herr fun step hstep => ?_
      have hH₃ : ∀ H, F₅ H → F₃ H := fun H hH => hsub₄ H (hsub₅ H hH)
      refine Sat.updateRow (T := totpFactors) f hF₅ (unavailable_ok herr) ?_ (by simp [hf]) ?_ ?_
      · exact fun H hH => hfactor f hmem H (hH₃ H hH)
      · exact fun x hx => (eq_of_beq hx).trans hf.1.symm
      · intro locks₆ _ hF₆ _
        refine Sat.update (T := sessions) hF₆ (unavailable_ok herr) (fun _ => rfl) ?_
        intro rows locks₇ F₇ _ hF₇ hsub₇ hrow hrows
        refine holds_insertAuditEvent herr hF₇ fun event => ?_
        refine Sat.commit hF₇ (fun H => hP H _) ?_ fun _ H' _ _ _ => hP H' _
        intro H _ hH
        have hH₅ := hsub₇ H hH
        subst hnewCodes
        refine .enrollConfirmed hq (hload H (hH₃ H hH₅)) hstate (hfactor f hmem H (hH₃ H hH₅))
          ⟨hf.1, hf.2, hpending⟩ hkey hprofile hcode hstep (fun code => ?_) (hnew H hH₅) hdistinct
          (fun r hr => ⟨?_, ?_⟩)
        · have hiff := hcodes H (hsub₅ H hH₅) code
          rwa [beq_iff_eq] at hiff
        · exact hrows r hr H hH
        · exact eq_of_beq (hrow r hr).1

end PasswordVault
