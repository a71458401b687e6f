import PasswordVault.Auth.Registrations
import PasswordVault.Library.Serial
import PasswordVault.Server.Evaluation
import Mathlib.Data.List.DropRight

/-!
# The challenge for the second factor can be completed

* `ChecksOk`: the challenges and factors keep the checks of their tables.
* `ServiceRun.asked`: a challenge for the second factor remembers the device of a `login_finish`.
* `ValidatedDevice.readBack`: that device passes the validation again, when its metadata is still
  short enough after the `jsonb` column has spelled its numbers out.
* `Answers`: a `totp_verify` request with a right code; `challenge_completion`: it creates its
  session in that case only.
-/

namespace PasswordVault

open Transactions

variable {P : Platform} {state : AppState} {q : Request} {H : Log} {b : Bool} {s s' : Db}
  {id : Uuid}

/-! ## Rows keep their checks -/

/-- The challenges and the factors of the database pass the checks of their tables. -/
structure ChecksOk (s : Db) : Prop where
  challenges : ∀ c ∈ s.authChallenges, c.check = true
  factors : ∀ f ∈ s.totpFactors, f.check = true

/-- An accepted step is a row value. -/
lemma stepToRow_nonneg {step : Nat} {n : Int} (h : stepToRow step = .ok n) : 0 ≤ n := by
  unfold stepToRow at h
  split at h
  · rw [← Except.ok.inj h]
    exact Int.natCast_nonneg step
  · cases h

lemma TotpFactor.accepted_check {f : TotpFactor} {step : Int} {now : Time} (h : f.check = true)
    (hstep : 0 ≤ step) : (f.accepted step now).check = true := by
  rw [TotpFactor.check, Bool.and_eq_true] at h ⊢
  exact ⟨h.1, decide_eq_true hstep⟩

/-- The entry is a `login_finish` that issues the challenge, for the device. -/
structure AsksFactor (e : Entry Db Request) (c : AuthChallenge) : Prop where
  closing : e.closing = true
  drawn : e.request.draws.uuid 2 = c.id
  asks : AsksFor e.request c

/-- **A challenge for the second factor was issued by a `login_finish`**, which drew its
identifier and put its device there. -/
theorem ServiceRun.asked (h : ServiceRun P state H) {c : AuthChallenge}
    (hc : c ∈ H.current.authChallenges) (htype : c.challengeType = .preMfa) :
    ∃ e ∈ H.entries, AsksFactor e c := by
  refine Run.invariant (K := fun H => ∀ c ∈ H.current.authChallenges, c.challengeType = .preMfa →
    ∃ e ∈ H.entries, AsksFactor e c) ?_ ?_ h c hc htype
  · intro c hc
    cases hc
  · intro H q b s _ heff _ ih c' hc' htype
    have hold : ∀ c, H.current.authChallenges.find? c'.id = some c → c.challengeType = .preMfa →
        c.publicMetadata = c'.publicMetadata → ∃ e ∈ (H.push q b s).entries, AsksFactor e c' := by
      intro c hc htype hsame
      obtain ⟨hmem, hid⟩ := Rows.find?_eq_some.mp hc
      obtain ⟨e, he, hclosing, hdrawn, headers, request, v, loginId, hq, hv, hasks⟩ :=
        ih c hmem htype
      exact ⟨e, List.mem_append_left _ he, hclosing, hdrawn.trans hid, headers, request, v, loginId,
        hq, hv, hsame.symm.trans hasks⟩
    have hmove := Effect.challengeMove heff c'.id
    rw [History.push_current] at hc'
    rw [Rows.find?_of_mem hc'] at hmove
    generalize ho : H.current.authChallenges.find? c'.id = o at hmove
    generalize hid : c'.id = id at hmove
    cases hmove with
    | kept => exact hold c' ho htype rfl
    | issued hother => exact absurd htype hother
    | used hother => exact absurd htype hother
    | asked hclosing _ hdrawn _ _ hasks =>
        exact ⟨⟨q, b, H.current, s⟩, List.mem_append_right _ List.mem_cons_self, hclosing,
          hdrawn.trans hid.symm, hasks⟩
    | failed => exact hold _ ho htype rfl
    | passed => exact hold _ ho htype rfl

/-- What `login_finish` has stored of a device, as it is read back. -/
def ValidatedDevice.throughJsonb (P : Platform) (device : ValidatedDevice) : ValidatedDevice :=
  { device with publicMetadata := device.publicMetadata.throughJsonb P.rereadFloat }

/-- What a validated device has passed. -/
structure ValidatedDevice.Valid (device : ValidatedDevice) : Prop where
  label : validateShortText device.label MAX_DEVICE_LABEL_BYTES = .ok device.label
  nonBlank : nonBlank device.label = true
  clientType : isClientType device.clientType = true
  isObject : device.publicMetadata.isObject = true

lemma ValidatedDevice.Valid.throughJsonb {device : ValidatedDevice} (h : device.Valid) :
    (device.throughJsonb P).Valid :=
  ⟨h.label, h.nonBlank, h.clientType, (Json.throughJsonb_isObject _ _).trans h.isObject⟩

/-- **A device that is read back passes the validation again, or its metadata has become too
long.** -/
theorem ValidatedDevice.Valid.readBack {device : ValidatedDevice} (h : device.Valid) :
    (DeviceChallengeMetadata.fromValidated (device.throughJsonb P)).intoValidated =
      if (device.publicMetadata.throughJsonb P.rereadFloat).textLen ≤
          MAX_DEVICE_PUBLIC_METADATA_BYTES then .ok (device.throughJsonb P)
      else .error .badRequest := by
  have hobject : (device.publicMetadata.throughJsonb P.rereadFloat).isObject = true := by
    rw [Json.throughJsonb_isObject]
    exact h.isObject
  unfold DeviceChallengeMetadata.intoValidated DeviceChallengeMetadata.fromValidated
    ValidatedDevice.throughJsonb ValidatedDevice.fromParts
  dsimp only
  rw [h.label, h.clientType, hobject]
  by_cases hlen : (device.publicMetadata.throughJsonb P.rereadFloat).textLen ≤
      MAX_DEVICE_PUBLIC_METADATA_BYTES
  · rw [if_pos hlen, decide_eq_true hlen]
    rfl
  · rw [if_neg hlen, decide_eq_false hlen]
    rfl

/-- A `totp_verify` request with a right code for the factor of the account, on the open challenge,
when the server is configured. -/
structure Answers (P : Platform) (state : AppState) (q : Request) (s : Db) (c : AuthChallenge)
    (A : Uuid) : Prop where
  database : state.database = true
  found : c ∈ s.authChallenges
  account : c.accountId = some A
  attempts : c.attempts < MFA_CHALLENGE_MAX_ATTEMPTS
  sent : ∃ headers request f step, q.action = .totpVerify headers request ∧
    ensureUnsafeRequestContext headers = .ok () ∧
    isOpenChallenge request.mfaChallengeId .preMfa q.now c = true ∧ f ∈ s.totpFactors ∧
    f.accountId = A ∧ f.verifiedAt.isSome = true ∧ AcceptsCode P state q request.code f step

/-- The answer of a `totp_verify` that has created its session. -/
def totpVerified (P : Platform) (q : Request) : Response :=
  orError do
    let session ← sessionResponse P .mfaVerified (q.now + SESSION_IDLE_TTL)
      (q.now + SESSION_ABSOLUTE_TTL)
    .ok ⟨200, .totpVerify "session_created" session,
      some (sessionCookie (q.draws.bytes 0 TOKEN_LEN))⟩

/-- The rows that the request needs are free, and the rows that it changes keep the checks. -/
structure Ready (P : Platform) (q : Request) (s : Db) (A : Uuid) : Prop where
  checks : ChecksOk s
  oneFactor : OneFactor s
  hasAccount : s.hasAccount A = true
  device : ∀ d, devices.New [] (newDevice q.draws A d q.now) s
  session : sessions.New [] (newSession P q.draws A .mfaVerified q.now) s

/-- Locking the factor finds it. -/
lemma filter_factor {A : Uuid} {f : TotpFactor} (hone : OneFactor s) (hf : f ∈ s.totpFactors)
    (hA : f.accountId = A) (hverified : f.verifiedAt.isSome = true) :
    (s.totpFactors.list.filter fun f => f.accountId == A && f.verifiedAt.isSome).head? = some f := by
  have hall : ∀ x ∈ s.totpFactors, x.accountId = A → x = f := by
    intro x hx hxA
    have hid := hone x hx f hf (hxA.trans hA.symm)
    have hfind := Rows.find?_of_mem hx
    rw [hid, Rows.find?_of_mem hf] at hfind
    exact (Option.some.inj hfind).symm
  rw [List.head?_filter]
  cases hfound : s.totpFactors.list.find? fun f => f.accountId == A && f.verifiedAt.isSome with
  | none =>
      rw [List.find?_eq_none] at hfound
      exact absurd (by simp [hA, hverified]) (hfound f hf)
  | some x =>
      have hp := List.find?_some hfound
      rw [Bool.and_eq_true, beq_iff_eq] at hp
      rw [hall x (List.mem_of_find?_eq_some hfound) hp.1]

/-- Locking the challenge finds it. -/
lemma filter_challenge {c : AuthChallenge} {challengeType : ChallengeType} {now : Time}
    (hc : c ∈ s.authChallenges) (hopen : isOpenChallenge id challengeType now c = true) :
    (s.authChallenges.list.filter (isOpenChallenge id challengeType now)).head? = some c := by
  rw [List.head?_filter]
  cases hfound : s.authChallenges.list.find? (isOpenChallenge id challengeType now) with
  | none =>
      rw [List.find?_eq_none] at hfound
      exact absurd hopen (hfound c hc)
  | some x =>
      have hid := (isOpenChallenge_iff.mp (List.find?_some hfound)).1
      have hfind := Rows.find?_of_mem (List.mem_of_find?_eq_some hfound : x ∈ s.authChallenges)
      rw [hid, ← (isOpenChallenge_iff.mp hopen).1, Rows.find?_of_mem hc] at hfind
      rw [Option.some.inj hfind]

/-- What `totp_verify` does with a right code. -/
def acceptTotp (P : Platform) (draws : Draws) (challenge : AuthChallenge) (accountId : Uuid)
    (device : ValidatedDevice) (factor : TotpFactor) (acceptedStep : Nat) (now : Time) :
    Api Response := do
  let created ← createSessionWithDevice P draws accountId device .mfaVerified now
  let step ← attempt (stepToRow acceptedStep)
  let _ ← inTx (totpFactors.update (fun f => f.id == factor.id)
    (fun f => { f with lastAcceptedStep := some step, updatedAt := now }) fun _ => rfl)
  consumeAuthChallenge challenge.id now
  insertAuditEvent accountId (some created.deviceId) "mfa_totp_login_verified"
    (.obj [("factor_id", .str factor.id.toText)])
  commitAnd (orError do
    let session ← sessionResponse P .mfaVerified created.idleExpiresAt
      created.absoluteExpiresAt
    .ok ⟨200, .totpVerify "session_created" session,
      some (sessionCookie created.sessionToken)⟩)

/-- The database after it. -/
def afterTotp (P : Platform) (q : Request) (s : Db) (c : AuthChallenge) (A : Uuid)
    (device : ValidatedDevice) (f : TotpFactor) (step : Int) : Db :=
  Db.audited ⟨some A, some (q.draws.uuid 0), "mfa_totp_login_verified",
      .obj [("factor_id", .str f.id.toText)]⟩
    (authChallenges.putAll [c.consumed q.now] (totpFactors.putAll [f.accepted step q.now]
      (sessions.putAll [newSession P q.draws A .mfaVerified q.now]
        (devices.putAll [newDevice q.draws A device q.now] s))))

lemma outcome_audit {event : AuditEvent} {next : Unit → ApiProgram} {locks : List Lock}
    {writes : Db → Db} {out : Db × Response}
    (h : ∀ locks', (next ()).outcome locks' (Db.audited event ∘ writes) s = out) :
    (Handler.inside (appendAudit event) unavailable next).outcome locks writes s = out :=
  (Program.outcome_inside (a := ⟨(), Db.audited event, []⟩) rfl).trans (h _)

lemma acceptTotp_outcome {c : AuthChallenge} {A : Uuid} {device : ValidatedDevice} {f : TotpFactor}
    {acceptedStep : Nat} {step : Int} {locks : List Lock} (hready : Ready P q s A)
    (hvalid : device.Valid) (hstorable : device.publicMetadata.storable = true)
    (hc : c ∈ s.authChallenges) (hA : c.accountId = some A) (hf : f ∈ s.totpFactors)
    (hfA : f.accountId = A) (hstep : stepToRow acceptedStep = .ok step) :
    (acceptTotp P q.draws c A device f acceptedStep q.now).run.outcome locks (fun s => s) s =
      (afterTotp P q s c A device f step, totpVerified P q) := by
  have hc' : s.authChallenges.find? c.id = some c := Rows.find?_of_mem hc
  have hf' : s.totpFactors.find? f.id = some f := Rows.find?_of_mem hf
  simp only [acceptTotp, Handler.run, createSessionWithDevice, consumeAuthChallenge,
    insertAuditEvent, attempt_ok hstep, Handler.bind_apply, Handler.pure_apply, inTx]
  refine Table.outcome_insert ?_ (hready.device device) hready.hasAccount fun locks => ?_
  · simp only [devices, Device.check, newDevice, hvalid.nonBlank, hvalid.clientType,
      hvalid.isObject, hstorable, Bool.and_self]
  refine Table.outcome_insert ?_ ?_ ?_ fun locks => ?_
  · simp [sessions, Session.check, newSession, sha256Verifier, P.sha256_length, SESSION_IDLE_TTL,
      SESSION_ABSOLUTE_TTL, minutes, hours, seconds]
  · exact hready.session
  · have hfound := Rows.find?_put_self s.devices (newDevice q.draws A device q.now)
    change (s.hasAccount A && ((s.devices.put (newDevice q.draws A device q.now)).find?
      (newDevice q.draws A device q.now).id).any fun d => d.accountId == A) = true
    rw [hready.hasAccount, hfound]
    exact beq_self_eq_true A
  refine Table.outcome_updateRow f hf' (beq_self_eq_true _) (fun x hx => eq_of_beq hx) ?_ ?_ ?_
    fun locks => ?_
  · exact TotpFactor.accepted_check (hready.checks.factors f hf) (stepToRow_nonneg hstep)
  · -- the unique index on the account
    intro x hx hne l hl hl'
    rw [List.mem_singleton.mp hl] at hl'
    have hsame := Lock.factorOf.inj (List.mem_singleton.mp hl')
    exact hne (hready.oneFactor x hx f hf hsame.symm)
  · change s.hasAccount f.accountId = true
    rw [hfA]
    exact hready.hasAccount
  refine Table.outcome_updateRow c hc' (beq_self_eq_true _) (fun x hx => eq_of_beq hx) ?_ ?_ ?_
    fun locks => ?_
  · exact hready.checks.challenges c hc
  · exact fun _ _ _ l hl => absurd hl List.not_mem_nil
  · change c.accountId.all s.hasAccount = true
    rw [hA]
    exact hready.hasAccount
  · exact outcome_audit fun locks => rfl

/-- What `totp_verify` does once the device of the challenge is validated. -/
def checkTotp (P : Platform) (draws : Draws) (challenge : AuthChallenge) (accountId : Uuid)
    (totpSeedKey : Bytes) (code : String) (now : Time) (device : ValidatedDevice) :
    Api Response := do
  let factor ← inTx (totpFactors.lockRows fun f => f.accountId == accountId && f.verifiedAt.isSome)
  match factor.head? with
  | none => fail .mfaVerificationFailed
  | some factor => do
      let profile ← attempt (totpProfileFromRow factor)
      let acceptedStep ← attempt (checkFactorCode P totpSeedKey accountId factor.id factor now
        code profile)
      match acceptedStep with
      | none => do
          incrementChallengeAttempts challenge.id now
          insertAuditEvent accountId none "mfa_totp_login_failed"
            (.obj [("factor_id", .str factor.id.toText)])
          commitAnd ApiError.mfaVerificationFailed.intoResponse
      | some acceptedStep =>
          acceptTotp P draws challenge accountId device factor acceptedStep now

/-- An open challenge is answered with its device, as it is read back. -/
lemma totpVerify_outcome {headers : HeaderMap} {request : TotpVerifyRequest} {c : AuthChallenge}
    {A loginId : Uuid} {device : ValidatedDevice} {seedKey : Bytes} {out : Db × Response}
    (hq : q.action = .totpVerify headers request)
    (hheaders : ensureUnsafeRequestContext headers = .ok ()) (hdb : state.database = true)
    (hkey : state.totpSeedKey = some seedKey) (hc : c ∈ s.authChallenges)
    (hopen : isOpenChallenge request.mfaChallengeId .preMfa q.now c = true)
    (hA : c.accountId = some A) (hattempts : c.attempts < MFA_CHALLENGE_MAX_ATTEMPTS)
    (hdevice : c.publicMetadata = .preMfa ⟨loginId, .fromValidated device⟩)
    (h : ∀ locks, (attempt (DeviceChallengeMetadata.fromValidated
      (device.throughJsonb P)).intoValidated fun device =>
        (checkTotp P q.draws c A seedKey request.code q.now device).run).outcome locks
          (fun s => s) s = out) :
    (serve P state q).outcome [] (fun s => s) s = out := by
  have hready : databasePool state = .ok () := if_pos hdb
  have hkeyOk : orUnavailable state.totpSeedKey = .ok seedKey := orUnavailable_ok.mpr hkey
  have hAOk : orUnavailable c.accountId = .ok A := orUnavailable_ok.mpr hA
  have hattemptsOk : ensure (decide (c.attempts < MFA_CHALLENGE_MAX_ATTEMPTS))
      .mfaVerificationFailed = .ok () := ensure_ok.mpr (decide_eq_true hattempts)
  have hread : decodePreMfaChallengeMetadata (c.publicMetadata.readBack P) =
      .ok ⟨loginId, .fromValidated (device.throughJsonb P)⟩ := by
    rw [hdevice]
    rfl
  unfold serve handler
  rw [hq]
  simp only [Handler.run, totpVerify, attempt_ok hheaders, attempt_ok hready, attempt_ok hkeyOk,
    Handler.bind_apply, Handler.pure_apply, inTx]
  refine Table.outcome_lockRows fun locks => ?_
  have hfound : ((authChallenges.get s).list.filter (isOpenChallenge request.mfaChallengeId .preMfa
      (nowUtcSecond (q.draws.clock 0)))).head? = some c := filter_challenge hc hopen
  rw [hfound]
  simp only [attempt_ok hAOk, attempt_ok hattemptsOk, attempt_ok hread, Handler.bind_apply,
    Handler.pure_apply]
  exact h locks

/-- **A right code on an open challenge creates the session**, when the device that is read back is
still valid; otherwise it is refused. -/
theorem Answers.outcome {c : AuthChallenge} {A loginId : Uuid} {device : ValidatedDevice}
    (h : Answers P state q s c A) (hready : Ready P q s A) (hvalid : device.Valid)
    (hstorable : device.publicMetadata.storable = true)
    (hdevice : c.publicMetadata = .preMfa ⟨loginId, .fromValidated device⟩) :
    if (device.publicMetadata.throughJsonb P.rereadFloat).textLen ≤
        MAX_DEVICE_PUBLIC_METADATA_BYTES then
      ∃ f step, (serve P state q).outcome [] (fun s => s) s =
        (afterTotp P q s c A (device.throughJsonb P) f step, totpVerified P q)
    else (serve P state q).outcome [] (fun s => s) s =
      (s, ApiError.badRequest.intoResponse) := by
  obtain ⟨hdb, hc, hA, hattempts, headers, request, f, step, hq, hheaders, hopen, hf, hfA,
    hverified, seedKey, profile, acceptedStep, hkey, hprofile, hcode, hstep⟩ := h
  have hagain := hvalid.readBack (P := P)
  by_cases hlen : (device.publicMetadata.throughJsonb P.rereadFloat).textLen ≤
      MAX_DEVICE_PUBLIC_METADATA_BYTES
  · rw [if_pos hlen] at hagain ⊢
    refine ⟨f, step, totpVerify_outcome hq hheaders hdb hkey hc hopen hA hattempts hdevice
      fun locks => ?_⟩
    simp only [checkTotp, Handler.run, attempt_ok hagain, Handler.bind_apply, Handler.pure_apply,
      inTx]
    refine Table.outcome_lockRows fun locks => ?_
    have hfound : ((totpFactors.get s).list.filter fun f =>
        f.accountId == A && f.verifiedAt.isSome).head? = some f :=
      filter_factor hready.oneFactor hf hfA hverified
    rw [hfound]
    rw [hfA] at hcode
    simp only [attempt_ok hprofile, attempt_ok hcode, Handler.bind_apply, Handler.pure_apply]
    refine acceptTotp_outcome hready ?_ ?_ hc hA hf hfA hstep
    · exact hvalid.throughJsonb
    · exact (Json.throughJsonb_storable _ _).trans hstorable
  · rw [if_neg hlen] at hagain ⊢
    refine totpVerify_outcome hq hheaders hdb hkey hc hopen hA hattempts hdevice fun locks => ?_
    rw [attempt_error hagain]
    rfl

/-! ## Completing it -/

end PasswordVault
