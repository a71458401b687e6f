import PasswordVault.Server.Effects

/-!
# What one commit does to a challenge, a factor, a session

The effects of all endpoints, seen from one row: `ChallengeMove`, `FactorMove` and `SessionMove`
are the lives of a challenge, a factor and a session, and `RecoveryMove` the life of all recovery
codes. `Effect.challengeMove`, `Effect.factorMove`, `Effect.sessionMove` and `Effect.recoveryMove`
say that every commit moves every row in one of these ways.
-/

namespace PasswordVault

open Transactions

variable {P : Platform} {state : AppState} {q : Request} {H : Log} {b : Bool} {s' : Db}

/-! ## Challenges -/

/-- The `login_finish` request has the challenge for the second factor ask for its device. -/
def AsksFor (q : Request) (c : AuthChallenge) : Prop :=
  ∃ headers request v loginChallengeId, q.action = .loginFinish headers request ∧
    request.validate = .ok v ∧
    c.publicMetadata = .preMfa ⟨loginChallengeId, .fromValidated v.device⟩

/-- What the commit of request `q` does to the challenge `id`. -/
inductive ChallengeMove (q : Request) (b : Bool) (id : Uuid) :
    Option AuthChallenge → Option AuthChallenge → Prop
  | kept (o : Option AuthChallenge) : ChallengeMove q b id o o
  | cleaned (o : Option AuthChallenge) : ChallengeMove q b id o none
  /-- A register or login challenge is issued. -/
  | issued {c : AuthChallenge} (htype : c.challengeType ≠ .preMfa) (hclosing : b = false)
      (hissues : q.action.issues.isSome = true) (hid : q.draws.uuid 0 = id)
      (hopen : c.consumedAt = none) : ChallengeMove q b id none (some c)
  /-- A register or login challenge is consumed. -/
  | used {c : AuthChallenge} (htype : c.challengeType ≠ .preMfa) (hclosing : b = true)
      (hopen : c.consumedAt = none) : ChallengeMove q b id (some c) (some (c.consumed q.now))
  /-- A challenge for the second factor is issued. -/
  | asked {c : AuthChallenge} (hclosing : b = true) (hissues : q.action.issues = none)
      (hid : q.draws.uuid 2 = id) (hattempts : c.attempts = 0) (hopen : c.consumedAt = none)
      (hasks : AsksFor q c) : ChallengeMove q b id none (some c)
  /-- A wrong answer is counted. -/
  | failed {c : AuthChallenge} (hopen : isOpenChallenge id .preMfa q.now c = true)
      (hattempts : c.attempts < MFA_CHALLENGE_MAX_ATTEMPTS) :
      ChallengeMove q b id (some c) (some (c.incremented q.now))
  /-- A right answer consumes it. -/
  | passed {c : AuthChallenge} (hopen : isOpenChallenge id .preMfa q.now c = true)
      (hattempts : c.attempts < MFA_CHALLENGE_MAX_ATTEMPTS) :
      ChallengeMove q b id (some c) (some (c.consumed q.now))

lemma isOpenChallenge_iff {id : Uuid} {challengeType : ChallengeType} {now : Time}
    {c : AuthChallenge} : isOpenChallenge id challengeType now c = true ↔
      c.id = id ∧ c.challengeType = challengeType ∧ c.authProtocol = AUTH_PROTOCOL ∧
        c.consumedAt = none ∧ now ≤ c.expiresAt := by
  simp only [isOpenChallenge, Bool.and_eq_true, beq_iff_eq, Option.isNone_iff_eq_none,
    decide_eq_true_eq]
  tauto

lemma ChallengeMove.consuming {id : Uuid} {c : AuthChallenge} {challengeType : ChallengeType}
    {t : Rows Uuid AuthChallenge AuthChallenge.id} (hc : t.find? c.id = some c)
    (hopen : isOpenChallenge id challengeType q.now c = true) (htype : challengeType ≠ .preMfa)
    (k : Uuid) : ChallengeMove q true k (t.find? k) ((t.put (c.consumed q.now)).find? k) := by
  refine Rows.find?_put_cases (.kept _) fun hk => ?_
  obtain ⟨-, hct, -, hunused, -⟩ := isOpenChallenge_iff.mp hopen
  have hk' : c.id = k := hk
  rw [← hk', hc]
  exact .used (by rw [hct]; exact htype) rfl hunused

lemma ChallengeMove.passing {id : Uuid} {c : AuthChallenge}
    {t : Rows Uuid AuthChallenge AuthChallenge.id} (hc : t.find? c.id = some c)
    (hopen : isOpenChallenge id .preMfa q.now c = true)
    (hattempts : c.attempts < MFA_CHALLENGE_MAX_ATTEMPTS) (k : Uuid) :
    ChallengeMove q b k (t.find? k) ((t.put (c.consumed q.now)).find? k) := by
  refine Rows.find?_put_cases (.kept _) fun hk => ?_
  have hk' : c.id = k := hk
  have hid : c.id = id := (isOpenChallenge_iff.mp hopen).1
  rw [← hk', hc]
  exact .passed (hid ▸ hopen) hattempts

lemma ChallengeMove.failing {id : Uuid} {c : AuthChallenge}
    {t : Rows Uuid AuthChallenge AuthChallenge.id} (hc : t.find? c.id = some c)
    (hopen : isOpenChallenge id .preMfa q.now c = true)
    (hattempts : c.attempts < MFA_CHALLENGE_MAX_ATTEMPTS) (k : Uuid) :
    ChallengeMove q b k (t.find? k) ((t.put (c.incremented q.now)).find? k) := by
  refine Rows.find?_put_cases (.kept _) fun hk => ?_
  have hk' : c.id = k := hk
  have hid : c.id = id := (isOpenChallenge_iff.mp hopen).1
  rw [← hk', hc]
  exact .failed (hid ▸ hopen) hattempts

lemma ChallengeMove.issuing {c : AuthChallenge} {t : Rows Uuid AuthChallenge AuthChallenge.id}
    (hnone : t.find? c.id = none) (htype : c.challengeType = .register ∨ c.challengeType = .login)
    (hissues : q.action.issues.isSome = true) (hid : c.id = q.draws.uuid 0)
    (hopen : c.consumedAt = none) (k : Uuid) :
    ChallengeMove q false k (t.find? k) ((t.put c).find? k) := by
  refine Rows.find?_put_cases (.kept _) fun hk => ?_
  rw [← hk, hnone]
  refine .issued ?_ rfl hissues hid.symm hopen
  rcases htype with htype | htype <;> simp [htype]

/-- The challenges issued by the endpoints that start something are no second factors. -/
lemma Action.issues_type {a : Action} {handle : Except ApiError String}
    {challengeType : ChallengeType} (h : a.issues = some (handle, challengeType)) :
    challengeType = .register ∨ challengeType = .login := by
  unfold Action.issues at h
  split at h
  · exact .inl (Prod.mk.inj (Option.some.inj h)).2.symm
  · exact .inr (Prod.mk.inj (Option.some.inj h)).2.symm
  · cases h

/-- **Every commit moves every challenge in one of these ways.** -/
theorem Effect.challengeMove (h : Effect P state q H b s') (k : Uuid) :
    ChallengeMove q b k (H.current.authChallenges.find? k) (s'.authChallenges.find? k) := by
  cases h with
  | cleanup hids =>
      change ChallengeMove q _ k _ ((H.current.authChallenges.remove _).find? k)
      rw [Rows.find?_remove]
      split
      · exact .cleaned _
      · exact .kept _
  | challengeIssued hid hissues hattempts hopen hcreated hexpires haccount hnew =>
      exact .issuing (Table.find?_of_new hnew) (Action.issues_type hissues) (by rw [hissues]; rfl)
        hid hopen k
  | registered hq hv hc hopen => exact .consuming hc hopen (by simp) k
  | loginRefused hq hc hopen hs =>
      rcases hs with rfl | ⟨event, rfl⟩
      · exact .consuming hc hopen (by simp) k
      · exact .consuming hc hopen (by simp) k
  | @mfaIssued headers request c accountId device event hq hc hopen haccount hfactor hnew _ hv =>
      obtain ⟨v, hv, rfl⟩ := hv
      have hnone : H.current.authChallenges.find? (q.draws.uuid 2) = none :=
        Table.find?_of_new hnew
      change ChallengeMove q _ k _ (((H.current.authChallenges.put (c.consumed q.now)).put
        (preMfaChallenge q.draws accountId c v.device q.now)).find? k)
      rw [Rows.find?_put]
      by_cases hk : q.draws.uuid 2 = k
      · rw [if_pos (show (preMfaChallenge q.draws accountId c v.device q.now).id = k from hk), ← hk,
          hnone]
        exact .asked rfl (by simp [hq, Action.issues]) rfl rfl rfl
          ⟨headers, request, v, c.id, hq, hv, rfl⟩
      · rw [if_neg (show (preMfaChallenge q.draws accountId c v.device q.now).id ≠ k from hk)]
        exact .consuming hc hopen (by simp) k
  | setupSession hq hc hopen => exact .consuming hc hopen (by simp) k
  | attemptFailed hq hc hattempts =>
      rcases hq with ⟨_, _, _, hopen⟩ | ⟨_, _, _, hopen⟩
      · exact .failing hc hopen hattempts k
      · exact .failing hc hopen hattempts k
  | totpVerified hq hc hopen haccount hattempts => exact .passing hc hopen hattempts k
  | recoveryVerified hq hc hopen haccount hattempts => exact .passing hc hopen hattempts k
  | idle => exact .kept _
  | _ =>
      simp only [Db.audited, Table.putAll, Table.remove, totpFactors, recoveryCodes, sessions,
        vaults, vaultItems, vaultItemRevisions]
      exact .kept _

/-! ## Factors -/

/-- The code is right for the factor: it is the code of `step`, which is stored. -/
def AcceptsCode (P : Platform) (state : AppState) (q : Request) (code : String) (f : TotpFactor)
    (step : Int) : Prop :=
  ∃ seedKey profile acceptedStep, state.totpSeedKey = some seedKey ∧
    totpProfileFromRow f = .ok profile ∧
    checkFactorCode P seedKey f.accountId f.id f q.now code profile = .ok (some acceptedStep) ∧
    stepToRow acceptedStep = .ok step

/-- What the commit of request `q` does to the factor `id`. -/
inductive FactorMove (P : Platform) (state : AppState) (q : Request) (H : Log) (b : Bool)
    (id : Uuid) : Option TotpFactor → Option TotpFactor → Prop
  | kept (o : Option TotpFactor) : FactorMove P state q H b id o o
  /-- The start of an enrollment drops every factor of the account. -/
  | replaced {f : TotpFactor} {headers : HeaderMap} {session : CurrentSession} (hclosing : b = true)
      (hq : q.action = .totpEnrollStart headers)
      (hload : H.Saw (LoadsSession P headers q.now session))
      (hstate : session.sessionState ≠ .mfaVerified) (haccount : f.accountId = session.accountId) :
      FactorMove P state q H b id (some f) none
  /-- It inserts a pending one. -/
  | started {o : Option TotpFactor} {f : TotpFactor} {headers : HeaderMap}
      {session : CurrentSession} (hclosing : b = true) (hq : q.action = .totpEnrollStart headers)
      (hload : H.Saw (LoadsSession P headers q.now session))
      (hstate : session.sessionState ≠ .mfaVerified) (haccount : f.accountId = session.accountId)
      (hid : q.draws.uuid 0 = id) (hfid : f.id = id) (hpending : f.verifiedAt = none)
      (hstep : f.lastAcceptedStep = none)
      (hrow : f = pendingFactor q.draws f.accountId f.seedCiphertext)
      (hseed : EncryptsSeed P state q f.accountId f.seedCiphertext) :
      FactorMove P state q H b id o (some f)
  /-- A wrong code drops the pending factor. -/
  | dropped {f : TotpFactor} (hpending : f.verifiedAt = none) :
      FactorMove P state q H b id (some f) none
  /-- A right code of a login. -/
  | accepted {f : TotpFactor} {headers : HeaderMap} {request : TotpVerifyRequest} {step : Int}
      (hclosing : b = true) (hq : q.action = .totpVerify headers request)
      (hverified : f.verifiedAt.isSome = true) (hcode : AcceptsCode P state q request.code f step) :
      FactorMove P state q H b id (some f) (some (f.accepted step q.now))
  /-- A right code of an enrollment. -/
  | confirmed {f : TotpFactor} {headers : HeaderMap} {request : TotpEnrollConfirmRequest}
      {session : CurrentSession} {step : Int} (hclosing : b = true)
      (hq : q.action = .totpEnrollConfirm headers request)
      (hload : H.Saw (LoadsSession P headers q.now session))
      (hstate : session.sessionState ≠ .mfaVerified) (haccount : f.accountId = session.accountId)
      (hid : request.factorId = id) (hpending : f.verifiedAt = none)
      (hcode : AcceptsCode P state q request.code f step) :
      FactorMove P state q H b id (some f) (some (f.confirmed step q.now))

/-- **Every commit moves every factor in one of these ways.** -/
theorem Effect.factorMove (h : Effect P state q H b s') (k : Uuid) :
    FactorMove P state q H b k (H.current.totpFactors.find? k) (s'.totpFactors.find? k) := by
  cases h with
  | loginRefused hq hc hopen hs =>
      rcases hs with rfl | ⟨event, rfl⟩
      · exact .kept _
      · exact .kept _
  | @totpVerified headers request c accountId device f seedKey profile acceptedStep step event hq
      hc hopen haccount hattempts hf hfactor hkey hprofile hcode hstep hdevice hnew =>
      change FactorMove P state q H _ k _
        ((H.current.totpFactors.put (f.accepted step q.now)).find? k)
      refine Rows.find?_put_cases (.kept _) fun hk => ?_
      have hk' : f.id = k := hk
      obtain ⟨rfl, hverified⟩ := hfactor
      rw [← hk', hf]
      exact .accepted rfl hq hverified ⟨seedKey, profile, acceptedStep, hkey, hprofile, hcode, hstep⟩
  | @enrollStarted headers session rows seedCiphertext event hq hload hstate hrows hnew hcheck
      hseed =>
      change FactorMove P state q H _ k _ (((H.current.totpFactors.remove (rows.map
        TotpFactor.id)).put (pendingFactor q.draws session.accountId seedCiphertext)).find? k)
      rw [Rows.find?_put]
      by_cases hk : q.draws.uuid 0 = k
      · rw [if_pos (show (pendingFactor q.draws session.accountId seedCiphertext).id = k from hk)]
        exact .started rfl hq hload hstate rfl hk hk rfl rfl rfl hseed
      · rw [if_neg (show (pendingFactor q.draws session.accountId seedCiphertext).id ≠ k from hk),
          Rows.find?_remove]
        split
        · rename_i hin
          obtain ⟨r, hr, hrk⟩ := List.mem_map.mp hin
          obtain ⟨hfound, haccount⟩ := hrows r hr
          rw [← hrk, hfound]
          exact .replaced rfl hq hload hstate haccount
        · exact .kept _
  | @enrollFailed headers request session f event hq hload hstate hf hfactor =>
      change FactorMove P state q H _ k _ ((H.current.totpFactors.remove [f.id]).find? k)
      rw [Rows.find?_remove]
      split
      · rename_i hin
        rw [List.mem_singleton.mp hin, hf]
        exact .dropped hfactor.2.2
      · exact .kept _
  | @enrollConfirmed headers request session f seedKey profile acceptedStep step codes rows event
      hq hload hstate hf hfactor hkey hprofile hcode hstep hcodes hnew hdistinct hrows =>
      generalize newRecoveryCodes P q.draws session.accountId = newCodes
      change FactorMove P state q H _ k _
        ((H.current.totpFactors.put (f.confirmed step q.now)).find? k)
      refine Rows.find?_put_cases (.kept _) fun hk => ?_
      have hk' : f.id = k := hk
      obtain ⟨hid, haccount, hpending⟩ := hfactor
      rw [← hk', hf]
      refine .confirmed rfl hq hload hstate haccount hid.symm hpending
        ⟨seedKey, profile, acceptedStep, hkey, hprofile, ?_, hstep⟩
      rw [hid, haccount]
      exact hcode
  | idle => exact .kept _
  | _ =>
      simp only [Db.audited, Table.putAll, Table.remove, accounts, devices, authChallenges,
        recoveryCodes, sessions, accountKeysets, vaults, vaultKeyWraps, vaultItems,
        vaultItemRevisions]
      exact .kept _

/-! ## Sessions -/

/-- The commit passes the challenge `id` for the second factor of account `accountId`. -/
def PassesChallenge (q : Request) (H : Log) (s' : Db) (accountId id : Uuid) : Prop :=
  ∃ c, H.current.authChallenges.find? id = some c ∧ c.accountId = some accountId ∧
    isOpenChallenge id .preMfa q.now c = true ∧ c.attempts < MFA_CHALLENGE_MAX_ATTEMPTS ∧
    s'.authChallenges.find? id = some (c.consumed q.now)

/-- The identifier that a request draws for a session. -/
def Request.sessionId (q : Request) : Uuid :=
  match q.action with
  | .registerFinish _ => q.draws.uuid 4
  | _ => q.draws.uuid 1

/-- The row of a session that request `q` creates. -/
structure Session.BornBy (P : Platform) (q : Request) (k : Uuid) (r : Session) : Prop where
  id : r.id = k
  drawn : q.sessionId = k
  token : r.sessionTokenHash = sha256Verifier P (q.draws.bytes 0 TOKEN_LEN)
  idle : r.idleExpiresAt = q.now + SESSION_IDLE_TTL
  expires : r.expiresAt = r.idleExpiresAt
  absolute : r.absoluteExpiresAt = q.now + SESSION_ABSOLUTE_TTL
  revoked : r.revokedAt = none

/-- What the commit of request `q`, to `s'`, does to the session `id`. -/
inductive SessionMove (P : Platform) (state : AppState) (q : Request) (H : Log) (b : Bool)
    (s' : Db) (id : Uuid) : Option Session → Option Session → Prop
  | kept (o : Option Session) : SessionMove P state q H b s' id o o
  | ended {o : Option Session} {headers : HeaderMap} {session : CurrentSession}
      (hq : q.action = .logout headers) (hid : session.id = id)
      (hload : H.Saw (LoadsSession P headers q.now session)) : SessionMove P state q H b s' id o none
  | revoked {r : Session} {headers : HeaderMap} (hrid : r.id = id)
      (hheaders : q.action.sessionHeaders = some headers)
      (hfound : H.Saw (FindsExpired P headers q.now id)) :
      SessionMove P state q H b s' id (some r) (some { r with revokedAt := some q.now })
  | refreshed {r : Session} {headers : HeaderMap} {session : CurrentSession} (hrid : r.id = id)
      (hheaders : q.action.sessionHeaders = some headers) (hid : session.id = id)
      (hload : H.Saw (LoadsSession P headers q.now session)) :
      SessionMove P state q H b s' id (some r) (some (r.refreshed q.now
        (minTime (q.now + SESSION_IDLE_TTL) session.absoluteExpiresAt)))
  | csrf {r : Session} {headers : HeaderMap} {session : CurrentSession} {hash : Bytes}
      (hrid : r.id = id) (hheaders : q.action.sessionHeaders = some headers) (hid : session.id = id)
      (hload : H.Saw (LoadsSession P headers q.now session)) :
      SessionMove P state q H b s' id (some r) (some { r with csrfTokenHash := some hash })
  /-- A registration or a login without a second factor. -/
  | setup {r : Session} (hclosing : b = true) (hborn : r.BornBy P q id)
      (hstate : r.sessionState = .mfaEnrollmentRequired)
      (hq : (∃ request, q.action = .registerFinish request) ∨
        ∃ headers request, q.action = .loginFinish headers request) :
      SessionMove P state q H b s' id none (some r)
  /-- A login with a TOTP code. -/
  | verified {r : Session} {headers : HeaderMap} {request : TotpVerifyRequest} {f : TotpFactor}
      {step : Int} (hclosing : b = true) (hborn : r.BornBy P q id)
      (hstate : r.sessionState = .mfaVerified) (hq : q.action = .totpVerify headers request)
      (hpass : PassesChallenge q H s' r.accountId request.mfaChallengeId)
      (hf : H.current.totpFactors.find? f.id = some f) (haccount : f.accountId = r.accountId)
      (hverified : f.verifiedAt.isSome = true)
      (hcode : AcceptsCode P state q request.code f step)
      (hf' : s'.totpFactors.find? f.id = some (f.accepted step q.now)) :
      SessionMove P state q H b s' id none (some r)
  /-- A login with a recovery code. -/
  | recovered {r : Session} {headers : HeaderMap} {request : RecoveryCodeVerifyRequest}
      {text : String} {code : RecoveryCode} (hclosing : b = true) (hborn : r.BornBy P q id)
      (hstate : r.sessionState = .mfaRecovery) (hq : q.action = .recoveryCodeVerify headers request)
      (hpass : PassesChallenge q H s' r.accountId request.mfaChallengeId)
      (hcode : H.current.recoveryCodes.find? code.id = some code)
      (haccount : code.accountId = r.accountId) (hunused : code.usedAt = none)
      (htext : validateRecoveryCode request.recoveryCode = .ok text)
      (hhash : code.codeHash = recoveryCodeHash P code.accountId code.codeSalt text)
      (hused : s'.recoveryCodes.find? code.id = some { code with usedAt := some q.now }) :
      SessionMove P state q H b s' id none (some r)
  /-- A confirmed enrollment. -/
  | upgraded {r : Session} {headers : HeaderMap} {request : TotpEnrollConfirmRequest}
      {session : CurrentSession} {f : TotpFactor} {step : Int} (hclosing : b = true)
      (hrid : r.id = id) (hq : q.action = .totpEnrollConfirm headers request)
      (hload : H.Saw (LoadsSession P headers q.now session)) (hid : session.id = id)
      (hstate : session.sessionState ≠ .mfaVerified)
      (hf : H.current.totpFactors.find? request.factorId = some f)
      (haccount : f.accountId = session.accountId) (hpending : f.verifiedAt = none)
      (hcode : AcceptsCode P state q request.code f step)
      (hf' : s'.totpFactors.find? request.factorId = some (f.confirmed step q.now)) :
      SessionMove P state q H b s' id (some r)
        (some (r.upgraded (sha256Verifier P (q.draws.bytes 20 TOKEN_LEN)) q.now
          (minTime (q.now + SESSION_IDLE_TTL) session.absoluteExpiresAt)))

/-- The pass of a challenge, where the commit ends with consuming it. -/
lemma passesChallenge_of {accountId id : Uuid} {c : AuthChallenge} {event : AuditEvent} {s : Db}
    (hc : H.current.authChallenges.find? c.id = some c) (haccount : c.accountId = some accountId)
    (hopen : isOpenChallenge id .preMfa q.now c = true)
    (hattempts : c.attempts < MFA_CHALLENGE_MAX_ATTEMPTS) :
    PassesChallenge q H (Db.audited event (authChallenges.putAll [c.consumed q.now] s))
      accountId id := by
  have hid : c.id = id := (isOpenChallenge_iff.mp hopen).1
  subst hid
  exact ⟨c, hc, haccount, hopen, hattempts, Rows.find?_put_self _ (c.consumed q.now)⟩

lemma newSession_born {accountId : Uuid} {sessionState : SessionState}
    (hq : ∀ request, q.action ≠ .registerFinish request) :
    (newSession P q.draws accountId sessionState q.now).BornBy P q (q.draws.uuid 1) := by
  refine ⟨rfl, ?_, rfl, rfl, rfl, rfl, rfl⟩
  unfold Request.sessionId
  split
  · rename_i request haction
    exact absurd haction (hq request)
  · rfl

/-- **Every commit moves every session in one of these ways.** -/
theorem Effect.sessionMove (h : Effect P state q H b s') (k : Uuid) :
    SessionMove P state q H b s' k (H.current.sessions.find? k) (s'.sessions.find? k) := by
  cases h with
  | @sessionRevoked row headers hrow hheaders hfound =>
      change SessionMove P state q H _ _ k _
        ((H.current.sessions.put { row with revokedAt := some q.now }).find? k)
      refine Rows.find?_put_cases (.kept _) fun hk => ?_
      have hk' : row.id = k := hk
      rw [← hk', hrow]
      exact .revoked rfl hheaders hfound
  | @sessionRefreshed row headers session hrow hid hheaders hload =>
      change SessionMove P state q H _ _ k _ ((H.current.sessions.put (row.refreshed q.now
        (minTime (q.now + SESSION_IDLE_TTL) session.absoluteExpiresAt))).find? k)
      refine Rows.find?_put_cases (.kept _) fun hk => ?_
      have hk' : row.id = k := hk
      rw [← hk', hrow]
      exact .refreshed rfl hheaders hid.symm hload
  | @csrfIssued row headers session hq hrow hid hload =>
      generalize sha256Verifier P (q.draws.bytes 0 TOKEN_LEN) = hash
      change SessionMove P state q H _ _ k _
        ((H.current.sessions.put { row with csrfTokenHash := some hash }).find? k)
      refine Rows.find?_put_cases (.kept _) fun hk => ?_
      have hk' : row.id = k := hk
      rw [← hk', hrow]
      exact .csrf rfl (by rw [hq, Action.sessionHeaders]) hid.symm hload
  | @sessionEnded ids headers session hq hids hload =>
      change SessionMove P state q H _ _ k _ ((H.current.sessions.remove _).find? k)
      rw [Rows.find?_remove]
      split
      · rename_i hin
        exact .ended hq (hids k hin).symm hload
      · exact .kept _
  | registered hq hv hc hopen hrows haccount hkeyset hdevice hvault hkeyWrap hsession =>
      subst hrows
      refine Rows.find?_put_cases (.kept _) fun hk => ?_
      have hnone : H.current.sessions.find? (q.draws.uuid 4) = none := Table.find?_of_new hsession
      have hk' : q.draws.uuid 4 = k := hk
      subst hk'
      change SessionMove P state q H _ _ _ (H.current.sessions.find? _) _
      rw [hnone]
      have hid : q.sessionId = q.draws.uuid 4 := by rw [Request.sessionId, hq]
      exact .setup rfl ⟨rfl, hid, rfl, rfl, rfl, rfl, rfl⟩ rfl (.inl ⟨_, hq⟩)
  | loginRefused hq hc hopen hs =>
      rcases hs with rfl | ⟨event, rfl⟩
      · exact .kept _
      · exact .kept _
  | @setupSession headers request c accountId device event hq hc hopen haccount hfactor hdevice
      hnew =>
      refine Rows.find?_put_cases (.kept _) fun hk => ?_
      have hnone : H.current.sessions.find? (q.draws.uuid 1) = none := Table.find?_of_new hnew
      have hk' : q.draws.uuid 1 = k := hk
      subst hk'
      change SessionMove P state q H _ _ _ (H.current.sessions.find? _) _
      rw [hnone]
      exact .setup rfl (newSession_born (by simp [hq])) rfl (.inr ⟨_, _, hq⟩)
  | @totpVerified headers request c accountId device f seedKey profile acceptedStep step event hq
      hc hopen haccount hattempts hf hfactor hkey hprofile hcode hstep hdevice hnew =>
      refine Rows.find?_put_cases (.kept _) fun hk => ?_
      have hnone : H.current.sessions.find? (q.draws.uuid 1) = none := Table.find?_of_new hnew
      have hk' : q.draws.uuid 1 = k := hk
      subst hk'
      change SessionMove P state q H _ _ _ (H.current.sessions.find? _) _
      rw [hnone]
      obtain ⟨rfl, hverified⟩ := hfactor
      exact .verified rfl (newSession_born (by simp [hq])) rfl hq (passesChallenge_of hc haccount hopen hattempts)
        hf rfl hverified ⟨seedKey, profile, acceptedStep, hkey, hprofile, hcode, hstep⟩
        (Rows.find?_put_self H.current.totpFactors (f.accepted step q.now))
  | @recoveryVerified headers request c accountId device text code event hq hc hopen haccount
      hattempts hcode hunused htext hhash hdevice hnew =>
      refine Rows.find?_put_cases (.kept _) fun hk => ?_
      have hnone : H.current.sessions.find? (q.draws.uuid 1) = none := Table.find?_of_new hnew
      have hk' : q.draws.uuid 1 = k := hk
      subst hk'
      change SessionMove P state q H _ _ _ (H.current.sessions.find? _) _
      rw [hnone]
      obtain ⟨rfl, hunused⟩ := hunused
      exact .recovered rfl (newSession_born (by simp [hq])) rfl hq
        (passesChallenge_of hc haccount hopen hattempts) hcode rfl hunused htext hhash
        (Rows.find?_put_self H.current.recoveryCodes { code with usedAt := some q.now })
  | @enrollConfirmed headers request session f seedKey profile acceptedStep step codes rows event
      hq hload hstate hf hfactor hkey hprofile hcode hstep hcodes hnew hdistinct hrows =>
      generalize newRecoveryCodes P q.draws session.accountId = newCodes
      obtain ⟨hid, haccount, hpending⟩ := hfactor
      change SessionMove P state q H _ _ k _ ((H.current.sessions.putAll (rows.map fun r =>
        r.upgraded (sha256Verifier P (q.draws.bytes 20 TOKEN_LEN)) q.now
          (minTime (q.now + SESSION_IDLE_TTL) session.absoluteExpiresAt))).find? k)
      rcases Rows.find?_putAll_cases (rows.map fun r =>
        r.upgraded (sha256Verifier P (q.draws.bytes 20 TOKEN_LEN)) q.now
          (minTime (q.now + SESSION_IDLE_TTL) session.absoluteExpiresAt)) H.current.sessions k with
        ⟨r', hr', hk, hfind⟩ | ⟨-, hfind⟩
      · obtain ⟨r, hr, rfl⟩ := List.mem_map.mp hr'
        obtain ⟨hfound, hrid⟩ := hrows r hr
        have hk' : r.id = k := hk
        rw [hfind, ← hk', hfound]
        rw [hid] at hf
        refine .upgraded rfl rfl hq hload hrid.symm hstate hf haccount hpending
          ⟨seedKey, profile, acceptedStep, hkey, hprofile, ?_, hstep⟩ ?_
        · rw [hid, haccount]
          exact hcode
        · rw [← hid]
          exact Rows.find?_put_self _ (f.confirmed step q.now)
      · rw [hfind]
        exact .kept _
  | idle => exact .kept _
  | _ =>
      simp only [Db.audited, Table.putAll, Table.remove, authChallenges, totpFactors, vaults,
        vaultItems, vaultItemRevisions]
      exact .kept _

/-! ## Recovery codes -/

/-- What the commit of request `q`, to `s'`, does to the recovery codes. -/
inductive RecoveryMove (P : Platform) (state : AppState) (q : Request) (H : Log) (b : Bool)
    (s' : Db) : Prop
  | kept (hcodes : s'.recoveryCodes = H.current.recoveryCodes)
  /-- A login uses a code. -/
  | used {code : RecoveryCode} {headers : HeaderMap} {request : RecoveryCodeVerifyRequest}
      {text : String} (hclosing : b = true) (hq : q.action = .recoveryCodeVerify headers request)
      (hcode : H.current.recoveryCodes.find? code.id = some code) (hunused : code.usedAt = none)
      (htext : validateRecoveryCode request.recoveryCode = .ok text)
      (hhash : code.codeHash = recoveryCodeHash P code.accountId code.codeSalt text)
      (hnew : H.current.sessions.find? (q.draws.uuid 1) = none)
      (hsession : s'.sessions = H.current.sessions.put
        (newSession P q.draws code.accountId .mfaRecovery q.now))
      (hcodes : s'.recoveryCodes = H.current.recoveryCodes.put { code with usedAt := some q.now })
  /-- A confirmed enrollment replaces all codes of the account. -/
  | rotated {headers : HeaderMap} {request : TotpEnrollConfirmRequest} {session : CurrentSession}
      {f : TotpFactor} {step : Int} {codes : List RecoveryCode} (hclosing : b = true)
      (hq : q.action = .totpEnrollConfirm headers request)
      (hload : H.Saw (LoadsSession P headers q.now session))
      (hf : H.current.totpFactors.find? f.id = some f) (haccount : f.accountId = session.accountId)
      (hpending : f.verifiedAt = none)
      (hf' : s'.totpFactors.find? f.id = some (f.confirmed step q.now))
      (hall : ∀ code, code ∈ codes ↔ code ∈ H.current.recoveryCodes ∧
        code.accountId = session.accountId)
      (hnew : ∀ code ∈ newRecoveryCodes P q.draws session.accountId,
        recoveryCodes.New (codes.map RecoveryCode.id) code H.current)
      (hdistinct : ((newRecoveryCodes P q.draws session.accountId).map RecoveryCode.id).Nodup)
      (hcodes : s'.recoveryCodes = (H.current.recoveryCodes.remove
        (codes.map RecoveryCode.id)).putAll (newRecoveryCodes P q.draws session.accountId))

/-- **Every commit moves the recovery codes in one of these ways.** -/
theorem Effect.recoveryMove (h : Effect P state q H b s') : RecoveryMove P state q H b s' := by
  cases h with
  | loginRefused hq hc hopen hs =>
      rcases hs with rfl | ⟨event, rfl⟩
      · exact .kept rfl
      · exact .kept rfl
  | @recoveryVerified headers request c accountId device text code event hq hc hopen haccount
      hattempts hcode hunused htext hhash hdevice hnew =>
      obtain ⟨rfl, hunused⟩ := hunused
      exact .used rfl hq hcode hunused htext hhash (Table.find?_of_new hnew) rfl rfl
  | @enrollConfirmed headers request session f seedKey profile acceptedStep step codes rows event
      hq hload hstate hf hfactor hkey hprofile hcode hstep hcodes hnew hdistinct hrows =>
      have hf' := Rows.find?_put_self H.current.totpFactors (f.confirmed step q.now)
      exact .rotated rfl hq hload hf hfactor.2.1 hfactor.2.2 hf' hcodes hnew hdistinct rfl
  | idle => exact .kept rfl
  | _ =>
      simp only [Db.audited, Table.putAll, Table.remove, accounts, devices, authChallenges,
        totpFactors, sessions, accountKeysets, vaults, vaultKeyWraps, vaultItems,
        vaultItemRevisions]
      exact .kept rfl

end PasswordVault
