import PasswordVault.Auth.PendingFactor
import PasswordVault.Auth.SecondFactor
import PasswordVault.Auth.SessionLifetime

/-!
# Whose pending factor it is

The row of a factor names its account, not the session that started the enrollment. So a session of
the account that may enroll can confirm the pending factor of another one.

* `ActsWith`: the session whose token a request carries; it is one (`ActsWith.unique`).
* `BoundTo`: a confirmation by the session that started the enrollment, while that is alive.
* `enrollment_binding`: so are the confirmations while the account has one session to enroll with.
* `borrowedFactor`: the run in which the second session confirms what the first one started.
-/

namespace PasswordVault

open Transactions

variable {P : Platform} {state : AppState} {q : Request} {H : Log} {b : Bool} {s s' : Db}
  {id : Uuid}

/-! ## Sessions of requests -/

/-- The request carries the token of the session `k`. -/
def ActsWith (P : Platform) (H : Log) (q : Request) (k : Uuid) : Prop :=
  ∃ r, CookieOf P H q r ∧ r.id = k

/-- The request carries a token in one way only. -/
lemma CookieOf.hash_unique {r r' : Session} (h : CookieOf P H q r) (h' : CookieOf P H q r') :
    r.sessionTokenHash = r'.sessionTokenHash := by
  obtain ⟨headers, token, hheaders, htoken, -, hhash⟩ := h
  obtain ⟨headers', token', hheaders', htoken', -, hhash'⟩ := h'
  rw [hheaders] at hheaders'
  obtain rfl := Option.some.inj hheaders'
  rw [htoken] at htoken'
  obtain rfl := Option.some.inj htoken'
  exact hhash.trans hhash'.symm

/-- **A request acts with one session.** -/
theorem ActsWith.unique (h : ServiceRun P state H) {k k' : Uuid} (hk : ActsWith P H q k)
    (hk' : ActsWith P H q k') : k = k' := by
  obtain ⟨r, hr, rfl⟩ := hk
  obtain ⟨r', hr', rfl⟩ := hk'
  have hhash := hr.hash_unique hr'
  obtain ⟨-, -, -, -, hseen, -⟩ := hr
  obtain ⟨-, -, -, -, hseen', -⟩ := hr'
  exact h.sessionsOk.tokens r r' hseen hseen' hhash

lemma CookieOf.of_loads {headers : HeaderMap} {session : CurrentSession}
    (hheaders : q.action.sessionHeaders = some headers)
    (hload : H.Saw (LoadsSession P headers q.now session)) :
    ∃ r, CookieOf P H q r ∧ session = r.current := by
  obtain ⟨token, row, htoken, hseen, hhash, hsession⟩ := loadsSession_seen hload
  exact ⟨row, ⟨headers, token, hheaders, htoken, hseen, hhash⟩, hsession⟩

/-- A request that acts with a session of an account does so at every point. -/
lemma CookieOf.later {H' : Log} {r : Session} (h : CookieOf P H q r) (hH : ServiceRun P state H)
    (hlater : Since P state H H') : CookieOf P H' q r := by
  obtain ⟨headers, token, hheaders, htoken, hseen, hhash⟩ := h
  exact ⟨headers, token, hheaders, htoken, Later.saw_of_saw hH hlater hseen, hhash⟩

/-! ## Starts and confirmations -/

/-- The entry creates the factor `id`. -/
structure Starts (id : Uuid) (e : Entry Db Request) : Prop where
  closing : e.closing = true
  starts : ∃ headers, e.request.action = .totpEnrollStart headers
  drawn : e.request.draws.uuid 0 = id

/-- The session belongs to the account, may enroll a factor and is alive at the time. -/
structure Session.Enrolling (A : Uuid) (now : Time) (r : Session) : Prop where
  account : r.accountId = A
  unverified : r.sessionState ≠ .mfaVerified
  unrevoked : r.revokedAt = none
  idle : now < r.idleExpiresAt
  absolute : now < r.absoluteExpiresAt

/-- The cookie of the request is good for an enrollment. -/
def MayEnroll (P : Platform) (q : Request) (session : CurrentSession) (s : Db) : Prop :=
  ∃ headers, q.action.sessionHeaders = some headers ∧ LoadsSession P headers q.now session s ∧
    session.sessionState ≠ .mfaVerified

/-- The account has one session to enroll with when the start `e₀` and the confirmation `e` commit,
and both still have a good cookie then. -/
structure OneEnrolling (P : Platform) (e₀ e : Entry Db Request) : Prop where
  starting : ∃ session, MayEnroll P e₀.request session e₀.before
  confirming : ∃ session, MayEnroll P e.request session e.before
  one : ∀ session, MayEnroll P e.request session e.before →
    ∀ r ∈ e₀.before.sessions, r.Enrolling session.accountId e₀.request.now →
    ∀ r' ∈ e.before.sessions, r'.Enrolling session.accountId e.request.now → r.id = r'.id

/-- The confirmation `e` is by the session `k`, which committed the start `e₀` before and is alive
when `e` commits. -/
structure BoundTo (P : Platform) (state : AppState) (H : Log) (e₀ e : Entry Db Request)
    (k : Uuid) : Prop where
  started : ActsWith P H e₀.request k
  confirmed : ActsWith P H e.request k
  alive : ∃ (H₁ : Log) (token : Bytes), ServiceRun P state H₁ ∧ H₁.current = e.before ∧
    H₁.entries <+: H.entries ∧ e₀ ∈ H₁.entries ∧ Alive P H₁ token e.request.now k

/-- The row of a session that may enroll. -/
lemma MayEnroll.row {session : CurrentSession} (h : MayEnroll P q session H.current) :
    ∃ r ∈ H.current.sessions, r.Enrolling session.accountId q.now ∧ CookieOf P H q r ∧
      session = r.current := by
  obtain ⟨headers, hheaders, hload, hstate⟩ := h
  obtain ⟨token, row, htoken, hmem, hhash, hunrevoked, hidle, habsolute, rfl⟩ := hload.alive_row
  exact ⟨row, hmem, ⟨rfl, hstate, hunrevoked, hidle, habsolute⟩,
    ⟨headers, token, hheaders, htoken, .inl hmem, hhash⟩, rfl⟩

/-- The row without what accepted codes change. -/
def TotpFactor.pending (f : TotpFactor) (now : Time) : TotpFactor :=
  { f with lastAcceptedStep := none, verifiedAt := none, updatedAt := now }

/-- The row is the one that the request inserted, apart from what accepted codes have changed. -/
structure SeedFrom (P : Platform) (state : AppState) (q : Request) (f : TotpFactor) : Prop where
  row : f.pending q.draws.dbClock = pendingFactor q.draws f.accountId f.seedCiphertext
  encrypts : EncryptsSeed P state q f.accountId f.seedCiphertext

/-- **A factor belongs to the account of the session that started its enrollment**, and holds what
that has encrypted. -/
theorem ServiceRun.startedBy (h : ServiceRun P state H) {f : TotpFactor}
    (hf : H.current.totpFactors.find? id = some f) : ∃ e₀ ∈ H.entries, Starts id e₀ ∧
      SeedFrom P state e₀.request f ∧ ∃ r, CookieOf P H e₀.request r ∧ r.accountId = f.accountId := by
  refine Run.invariant (K := fun H => ServiceRun P state H → ∀ f,
    H.current.totpFactors.find? id = some f → ∃ e₀ ∈ H.entries, Starts id e₀ ∧
      SeedFrom P state e₀.request f ∧
      ∃ r, CookieOf P H e₀.request r ∧ r.accountId = f.accountId) ?_ ?_ h h f hf
  · intro _ f hf
    cases hf
  · intro H q b s hrun heff hfresh ih hpush f' hf'
    have hlater : Since P state H (H.push q b s) := Run.later_push hpush
    have hold : ∀ f, H.current.totpFactors.find? id = some f → ∃ e₀ ∈ (H.push q b s).entries,
        Starts id e₀ ∧ SeedFrom P state e₀.request f ∧
          ∃ r, CookieOf P (H.push q b s) e₀.request r ∧ r.accountId = f.accountId := by
      intro f hf
      obtain ⟨e₀, he₀, hstarts, hseed, r, hr, hA⟩ := ih hrun f hf
      exact ⟨e₀, List.mem_append_left _ he₀, hstarts, hseed, r, hr.later hrun hlater, hA⟩
    have hmove := Effect.factorMove heff id
    rw [History.push_current] at hf'
    rw [hf'] at hmove
    generalize ho : H.current.totpFactors.find? id = o at hmove
    cases hmove with
    | kept => exact hold f' ho
    | @started _ _ headers session hclosing hq hload _ haccount hid _ _ _ hrow hseed =>
        obtain ⟨r, hr, rfl⟩ := CookieOf.of_loads (by rw [hq, Action.sessionHeaders]) hload
        exact ⟨⟨q, b, H.current, s⟩, List.mem_append_right _ List.mem_cons_self,
          ⟨hclosing, ⟨headers, hq⟩, hid⟩,
          ⟨congrArg (TotpFactor.pending · q.draws.dbClock) hrow, hseed⟩, r,
          hr.later hrun hlater, haccount.symm⟩
    | accepted =>
        obtain ⟨e₀, he₀, hstarts, ⟨hrow, hseed⟩, r, hr, hA⟩ := hold _ ho
        exact ⟨e₀, he₀, hstarts, ⟨hrow, hseed⟩, r, hr, hA⟩
    | confirmed =>
        obtain ⟨e₀, he₀, hstarts, ⟨hrow, hseed⟩, r, hr, hA⟩ := hold _ ho
        exact ⟨e₀, he₀, hstarts, ⟨hrow, hseed⟩, r, hr, hA⟩

/-- The commit of a confirmation found the factor with the account of the session it had loaded. -/
lemma Effect.confirms_load (h : Effect P state q H true s') (hq : ConfirmsFactor id q) :
    ∃ f r, H.current.totpFactors.find? id = some f ∧ CookieOf P H q r ∧
      r.accountId = f.accountId := by
  obtain ⟨headers, request, haction, rfl⟩ := hq
  have hheaders : q.action.sessionHeaders = some headers := by rw [haction, Action.sessionHeaders]
  cases h with
  | enrollFailed hq hload hstate hf hfactor =>
      rw [haction] at hq
      obtain ⟨rfl, rfl⟩ := Action.totpEnrollConfirm.inj hq
      obtain ⟨r, hr, rfl⟩ := CookieOf.of_loads hheaders hload
      exact ⟨_, r, hfactor.1 ▸ hf, hr, hfactor.2.1.symm⟩
  | enrollConfirmed hq hload hstate hf hfactor =>
      rw [haction] at hq
      obtain ⟨rfl, rfl⟩ := Action.totpEnrollConfirm.inj hq
      obtain ⟨r, hr, rfl⟩ := CookieOf.of_loads hheaders hload
      exact ⟨_, r, hfactor.1 ▸ hf, hr, hfactor.2.1.symm⟩
  | registered hq => exact absurd (haction.symm.trans hq) (by simp)
  | loginRefused hq => exact absurd (haction.symm.trans hq) (by simp)
  | mfaIssued hq => exact absurd (haction.symm.trans hq) (by simp)
  | setupSession hq => exact absurd (haction.symm.trans hq) (by simp)
  | attemptFailed hq =>
      rcases hq with ⟨_, _, hq, -⟩ | ⟨_, _, hq, -⟩
      · exact absurd (haction.symm.trans hq) (by simp)
      · exact absurd (haction.symm.trans hq) (by simp)
  | totpVerified hq => exact absurd (haction.symm.trans hq) (by simp)
  | recoveryVerified hq => exact absurd (haction.symm.trans hq) (by simp)
  | enrollStarted hq => exact absurd (haction.symm.trans hq) (by simp)
  | itemCreated hq => exact absurd (haction.symm.trans hq) (by simp)
  | itemRevised hq => exact absurd (haction.symm.trans hq) (by simp)

/-- The account of the session that a request acts with. -/
lemma CookieOf.account_unique (h : ServiceRun P state H) {r r' : Session} (hr : CookieOf P H q r)
    (hr' : CookieOf P H q r') : r.id = r'.id ∧ r.accountId = r'.accountId := by
  have hid := ActsWith.unique h ⟨r, hr, rfl⟩ ⟨r', hr', rfl⟩
  obtain ⟨-, -, -, -, hseen, -⟩ := hr
  obtain ⟨-, -, -, -, hseen', -⟩ := hr'
  exact ⟨hid, h.sessionsOk.account_unique h hseen hseen' hid⟩

/-- **A confirmation is bound to the session that started the enrollment**, when the account has one
to enroll with. -/
theorem ServiceRun.bound (h : ServiceRun P state H) {e : Entry Db Request} (he : e ∈ H.entries)
    (hclosing : e.closing = true) (hq : ConfirmsFactor id e.request)
    (hone : ∀ e₀ ∈ H.entries, Starts id e₀ → OneEnrolling P e₀ e) :
    ∃ e₀ ∈ H.entries, Starts id e₀ ∧ ∃ k, BoundTo P state H e₀ e k := by
  obtain ⟨l₁, l₂, hsplit⟩ := List.append_of_mem he
  obtain ⟨H₁, hrun₁', hl₁, hbefore, heff, ⟨hpush, hlater⟩, -⟩ := Run.split h hsplit
  have hrun₁ : ServiceRun P state H₁ := hrun₁'
  have hsince : Since P state H₁ H := (Run.later_push hpush).trans hlater
  rw [hclosing] at heff
  -- the factor, and who started it
  obtain ⟨f, r, hf, hr, hrf⟩ := Effect.confirms_load heff hq
  obtain ⟨e₀, he₀, hstarts, -, r₀, hr₀, hr₀f⟩ := hrun₁.startedBy hf
  have he₀' : e₀ ∈ H.entries := hsince.entries_subset e₀ he₀
  obtain ⟨⟨session₀, hmay₀⟩, ⟨session, hmay⟩, hsole⟩ := hone e₀ he₀' hstarts
  -- the rows that both have in the database when they commit
  obtain ⟨m₁, m₂, hm⟩ := List.append_of_mem he₀
  obtain ⟨H₀, hrun₀', -, hbefore₀, -, ⟨hpush₀, hlater₀⟩, -⟩ := Run.split hrun₁ hm
  have hrun₀ : ServiceRun P state H₀ := hrun₀'
  have hsince₀ : Since P state H₀ H₁ := (Run.later_push hpush₀).trans hlater₀
  rw [← hbefore₀] at hmay₀
  obtain ⟨row₀, hrow₀, henrolling₀, hcookie₀, -⟩ := hmay₀.row
  have hmay' := hmay
  rw [← hbefore] at hmay'
  obtain ⟨row, hrow, henrolling, hcookie, rfl⟩ := hmay'.row
  -- are of one account
  have haccount₀ := (CookieOf.account_unique hrun₁ (hcookie₀.later hrun₀ hsince₀) hr₀).2
  have haccount := (CookieOf.account_unique hrun₁ hcookie hr).2
  have hA : session₀.accountId = row.current.accountId := by
    rw [← henrolling₀.account, ← henrolling.account, haccount₀, haccount, hr₀f, hrf]
  -- so they are of one session, which is alive
  have hsame : row₀.id = row.id := hsole _ hmay row₀ (hbefore₀ ▸ hrow₀) (hA ▸ henrolling₀) row
    (hbefore ▸ hrow) henrolling
  obtain ⟨headers, -, hload, -⟩ := hmay'
  obtain ⟨token, -, halive⟩ := hrun₁.alive hload
  refine ⟨e₀, he₀', hstarts, row.id, ⟨?_, ?_, H₁, token, hrun₁, hbefore, ?_, he₀, halive⟩⟩
  · exact ⟨row₀, (hcookie₀.later hrun₀ hsince₀).later hrun₁ hsince, hsame⟩
  · exact ⟨row, hcookie.later hrun₁ hsince, rfl⟩
  · exact ⟨e :: l₂, by rw [hl₁, hsplit]⟩

/-! ## Answers -/

/-- A confirmation that is not answered with an error has committed. -/
lemma Reachable.confirmation_committed {sys : Service} (h : Reachable P state sys)
    {t : Thread Db Lock Response Request} (ht : t ∈ sys.threads)
    (hq : ConfirmsFactor id t.request) {r : Response} (hr : t.program = .answer r) :
    (∃ e : ApiError, r = e.intoResponse) ∨
      ∃ e ∈ sys.history.entries, e.request = t.request ∧ e.closing = true := by
  have hgate := h.atGate (ConfirmsFactor id) (pendingGate id)
    (fun q ⟨_, _, hq, hid⟩ => serve_gated hq hid) (pendingGate_keeps id) ht hq
  cases hgate with
  | before hgated =>
      rw [hr] at hgated
      cases hgated with
      | answer hrefused => exact .inl hrefused
  | past hpast =>
      cases hpast with
      | holds _ _ hprog =>
          rw [hr] at hprog
          cases hprog with
          | answer hfailed => exact .inl ⟨.serviceUnavailable, hfailed⟩
      | committed he hreq hclosing => exact .inr ⟨_, he, hreq, hclosing⟩
      | failed hr' hfailed =>
          rw [hr] at hr'
          obtain rfl := Program.answer.inj hr'
          exact .inl ⟨.serviceUnavailable, hfailed⟩

/-! ## The binding -/

/-- Every confirmation that commits is bound to the session that started the enrollment. -/
def AlwaysBound (P : Platform) (state : AppState) (H : Log) : Prop :=
  ∀ id, ∀ e ∈ H.entries, e.closing = true → ConfirmsFactor id e.request →
    ∃ e₀ ∈ H.entries, Starts id e₀ ∧ ∃ k, BoundTo P state H e₀ e k

/-- The confirmations of enrollments, in a state of the service. -/
structure EnrollmentBinding (P : Platform) (state : AppState) (sys : Service) : Prop where
  /-- A confirmation answers an error, or it has committed. -/
  answered : ∀ id, ∀ t ∈ sys.threads, ConfirmsFactor id t.request → ∀ r, t.program = .answer r →
    (∃ e : ApiError, r = e.intoResponse) ∨
      ∃ e ∈ sys.history.entries, e.request = t.request ∧ e.closing = true
  /-- One that commits, whether it accepts the code or drops the factor, is bound to the session that
  started the enrollment, when the account has one session to enroll with. -/
  bound : ∀ id, ∀ e ∈ sys.history.entries, e.closing = true → ConfirmsFactor id e.request →
    (∀ e₀ ∈ sys.history.entries, Starts id e₀ → OneEnrolling P e₀ e) →
    ∃ e₀ ∈ sys.history.entries, Starts id e₀ ∧ ∃ k, BoundTo P state sys.history e₀ e k
  /-- So all are, when every one that commits meets that. -/
  always : (∀ id, ∀ e ∈ sys.history.entries, e.closing = true → ConfirmsFactor id e.request →
    ∀ e₀ ∈ sys.history.entries, Starts id e₀ → OneEnrolling P e₀ e) →
    AlwaysBound P state sys.history

/-- **Pending enrollments belong to the sessions that started them**, in every reachable state in
which the accounts have one session to enroll with. -/
theorem enrollment_binding {sys : Service} (h : Reachable P state sys) :
    EnrollmentBinding P state sys := by
  have hbound : ∀ id, ∀ e ∈ sys.history.entries, e.closing = true → ConfirmsFactor id e.request →
      (∀ e₀ ∈ sys.history.entries, Starts id e₀ → OneEnrolling P e₀ e) →
      ∃ e₀ ∈ sys.history.entries, Starts id e₀ ∧ ∃ k, BoundTo P state sys.history e₀ e k :=
    fun _ _ he hclosing hq hone => ServiceRun.bound h.run he hclosing hq hone
  exact ⟨fun _ _ ht hq _ hr => h.confirmation_committed ht hq hr, hbound,
    fun hall id e he hclosing hq => hbound id e he hclosing hq (hall id e he hclosing hq)⟩

/-! ### Two runs -/

/-- The action confirms the factor `id`. -/
def Action.confirmsEnrollment (id : Uuid) : Action → Bool
  | .totpEnrollConfirm _ request => request.factorId == id
  | _ => false

lemma confirmsFactor_iff : ConfirmsFactor id q ↔ q.action.confirmsEnrollment id = true := by
  constructor
  · rintro ⟨headers, request, hq, rfl⟩
    rw [hq]
    exact beq_self_eq_true _
  · intro h
    cases hq : q.action with
    | totpEnrollConfirm headers request =>
        rw [hq] at h
        exact ⟨headers, request, hq, eq_of_beq h⟩
    | _ =>
        rw [hq] at h
        cases h

lemma Starts.startsEnrollment {e : Entry Db Request} (h : Starts id e) :
    e.request.action.startsEnrollment = true := by
  obtain ⟨headers, hq⟩ := h.starts
  rw [hq]
  rfl

/-- In the database the token is of the session `k` only. -/
def tokenIsOf (token : Bytes) (k : Uuid) (s : Db) : Bool :=
  s.sessions.list.all fun r => r.sessionTokenHash != sha256Verifier standard token || r.id == k

/-- Who acts with a token of one session acts with that session. -/
lemma ActsWith.eq_of_token {headers : HeaderMap} {token : Bytes} {k k' : Uuid}
    (h : ActsWith standard H q k') (hheaders : q.action.sessionHeaders = some headers)
    (htoken : sessionTokenFromHeaders headers = some token) (hcurrent : tokenIsOf token k H.current)
    (hentries : H.entries.all (fun e => tokenIsOf token k e.before)) : k' = k := by
  obtain ⟨r, ⟨headers', token', hheaders', htoken', hseen, hhash⟩, rfl⟩ := h
  rw [hheaders] at hheaders'
  obtain rfl := Option.some.inj hheaders'
  rw [htoken] at htoken'
  obtain rfl := Option.some.inj htoken'
  have hrow : ∀ s : Db, tokenIsOf token k s = true → r ∈ s.sessions → r.id = k := by
    intro s hs hr
    have hmatch := List.all_eq_true.mp hs r hr
    simpa [hhash] using hmatch
  rcases hseen with hseen | ⟨e, he, hseen⟩
  · exact hrow _ hcurrent hseen
  · exact hrow _ (List.all_eq_true.mp hentries e he) hseen

lemma borrowedFactor_reachable : Reachable standard configured (serveAll borrowedFactor) :=
  serveAll_reachable (by decide) (tokenHashes_nodup (by decide))

/-- Alice's second session. -/
abbrev secondSession : Uuid := (draws 3 (moment 30)).uuid 1

/-- In the run, the second session confirms, and the first one is the only one that starts. -/
lemma borrowedFactor_evaluated :
    sessionTokenFromHeaders (Client.signed (token 1) (token 4)) = some (token 1) ∧
    sessionTokenFromHeaders (Client.signed (token 3) (token 6)) = some (token 3) ∧
    (tokenIsOf (token 1) firstSession (serveAll borrowedFactor).history.current &&
      tokenIsOf (token 3) secondSession (serveAll borrowedFactor).history.current) = true ∧
    (serveAll borrowedFactor).history.entries.all (fun e =>
      tokenIsOf (token 1) firstSession e.before) = true ∧
    (serveAll borrowedFactor).history.entries.all (fun e =>
      tokenIsOf (token 3) secondSession e.before) = true ∧
    (serveAll borrowedFactor).history.entries.all (fun e => !e.request.action.startsEnrollment ||
      decide (e.request.action.sessionHeaders =
        some (Client.signed (token 1) (token 4)))) = true ∧
    (serveAll borrowedFactor).history.entries.any (fun e => e.closing &&
      e.request.action.confirmsEnrollment (drawnId 5) &&
      decide (e.request.action.sessionHeaders =
        some (Client.signed (token 3) (token 6)))) = true := by
  rw [serveAll_issued]
  decide +kernel

/-- **A session confirms the pending factor of another one.** -/
theorem borrowedFactor_unbound : Reachable standard configured (serveAll borrowedFactor) ∧
    ¬ AlwaysBound standard configured (serveAll borrowedFactor).history := by
  refine ⟨borrowedFactor_reachable, fun hbound => ?_⟩
  obtain ⟨htoken₁, htoken₃, hcurrent, hfirst, hsecond, hstarts, hany⟩ := borrowedFactor_evaluated
  rw [Bool.and_eq_true] at hcurrent
  obtain ⟨e, he, hmatch⟩ := List.any_eq_true.mp hany
  simp only [Bool.and_eq_true, decide_eq_true_eq] at hmatch
  obtain ⟨⟨hclosing, hconfirms⟩, hheaders⟩ := hmatch
  obtain ⟨e₀, he₀, hstart, k, hk⟩ :=
    hbound (drawnId 5) e he hclosing (confirmsFactor_iff.mpr hconfirms)
  have hheaders₀ := List.all_eq_true.mp hstarts e₀ he₀
  rw [hstart.startsEnrollment, Bool.not_true, Bool.false_or, decide_eq_true_eq] at hheaders₀
  have hk₁ := hk.started.eq_of_token hheaders₀ htoken₁ hcurrent.1 hfirst
  have hk₃ := hk.confirmed.eq_of_token hheaders htoken₃ hcurrent.2 hsecond
  exact absurd (hk₁.symm.trans hk₃) (by decide)

/-- The cookie of the first session is good for an enrollment when the entry commits. -/
def enrollsFirst (e : Entry Db Request) : Bool :=
  (selectSession (sha256Verifier standard (token 1)) e.before).any fun found =>
    found.2.isNone && decide (e.request.now < found.1.idleExpiresAt) &&
      decide (e.request.now < found.1.absoluteExpiresAt) &&
      found.1.sessionState != .mfaVerified

/-- In the run, Alice's session is the only one, and it starts and confirms. -/
lemma firstItem_enrolls :
    sessionTokenFromHeaders (Client.signed (token 1) (token 2)) = some (token 1) ∧
    (serveAll firstItem).history.entries.any (fun e => e.closing &&
      e.request.action.confirmsEnrollment (drawnId 3)) = true ∧
    (serveAll firstItem).history.entries.all (fun e => !(e.closing &&
        (e.request.action.startsEnrollment || e.request.action.confirmsEnrollment (drawnId 3))) ||
      decide (e.request.action.sessionHeaders =
          some (Client.signed (token 1) (token 2))) && enrollsFirst e &&
        e.before.sessions.list.all (fun r => r.id == firstSession)) = true := by
  rw [serveAll_issued]
  decide +kernel

lemma mayEnroll_of_enrollsFirst {e : Entry Db Request} {headers : HeaderMap}
    (hheaders : e.request.action.sessionHeaders = some headers)
    (htoken : sessionTokenFromHeaders headers = some (token 1)) (h : enrollsFirst e = true) :
    ∃ session, MayEnroll standard e.request session e.before := by
  unfold enrollsFirst at h
  rcases hselect : selectSession (sha256Verifier standard (token 1)) e.before with
    _ | ⟨row, deviceRevokedAt⟩
  · rw [hselect] at h
    cases h
  · rw [hselect] at h
    simp only [Option.any_some, Bool.and_eq_true, decide_eq_true_eq, bne_iff_ne,
      Option.isNone_iff_eq_none] at h
    obtain ⟨⟨⟨rfl, hidle⟩, habsolute⟩, hstate⟩ := h
    exact ⟨row.current, headers, hheaders, ⟨token 1, row, htoken, hselect, hidle, habsolute, rfl⟩,
      hstate⟩

/-- Alice's confirmation is bound to her session. -/
theorem enrollment_binding_firstItem : ∃ e ∈ (serveAll firstItem).history.entries,
    e.closing = true ∧ ConfirmsFactor (drawnId 3) e.request ∧
    ∃ e₀ ∈ (serveAll firstItem).history.entries, Starts (drawnId 3) e₀ ∧
      ∃ k, BoundTo standard configured (serveAll firstItem).history e₀ e k := by
  obtain ⟨htoken, hany, hall⟩ := firstItem_enrolls
  obtain ⟨e, he, hmatch⟩ := List.any_eq_true.mp hany
  rw [Bool.and_eq_true] at hmatch
  obtain ⟨hclosing, hconfirms⟩ := hmatch
  have hone : ∀ e ∈ (serveAll firstItem).history.entries, e.closing = true →
      (e.request.action.startsEnrollment || e.request.action.confirmsEnrollment (drawnId 3)) = true →
      (∃ session, MayEnroll standard e.request session e.before) ∧
        ∀ r ∈ e.before.sessions, r.id = firstSession := by
    intro e he hclosing haction
    have hcheck := List.all_eq_true.mp hall e he
    rw [hclosing, haction, Bool.and_true, Bool.not_true, Bool.false_or, Bool.and_eq_true,
      Bool.and_eq_true, decide_eq_true_eq] at hcheck
    refine ⟨mayEnroll_of_enrollsFirst hcheck.1.1 htoken hcheck.1.2, fun r hr => ?_⟩
    exact eq_of_beq (List.all_eq_true.mp hcheck.2 r hr)
  refine ⟨e, he, hclosing, confirmsFactor_iff.mpr hconfirms, ?_⟩
  refine (enrollment_binding firstItem_reachable).bound (drawnId 3) e he hclosing
    (confirmsFactor_iff.mpr hconfirms) fun e₀ he₀ hstarts => ?_
  obtain ⟨hmay, hrows⟩ := hone e he hclosing (by rw [hconfirms, Bool.or_true])
  obtain ⟨hmay₀, hrows₀⟩ := hone e₀ he₀ hstarts.closing
    (by rw [hstarts.startsEnrollment, Bool.true_or])
  exact ⟨hmay₀, hmay, fun _ _ r hr _ r' hr' _ => (hrows₀ r hr).trans (hrows r' hr').symm⟩

end PasswordVault
