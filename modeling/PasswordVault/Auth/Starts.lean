import PasswordVault.Auth.ProvenLogins
import PasswordVault.Auth.SeedBinding
import PasswordVault.Server.Wire

/-!
# What a start tells, and what its finish stores

* `Reachable.issued_same`: a challenge stays as it was issued.
* `RegisterStarted`, `LoginStarted`: what the answers of `register_start` and `login_start` say, and
  the challenges that stand for them.
* `Stored`: the account that a `register_finish` stores, under the salts of its challenge.
* `serve_starts`: a third contract of the service, about these three endpoints.
-/

namespace PasswordVault

open Transactions

variable {P : Platform} {state : AppState} {q : Request} {H : Log} {b : Bool} {s s' : Db}
  {c : AuthChallenge}

/-! ## Challenges stay -/

/-- What a challenge was issued with: what no use of it changes. -/
def AuthChallenge.asIssued (c : AuthChallenge) : AuthChallenge :=
  { c with
    consumedAt := none
    attempts := 0 }

/-- What it leaves out is all that two such challenges may differ in. -/
lemma AuthChallenge.same_issue {c c' : AuthChallenge} (h : c.asIssued = c'.asIssued) :
    c.accountId = c'.accountId ∧ c.loginHandleNormalized = c'.loginHandleNormalized ∧
      c.serverNonce = c'.serverNonce ∧ c.publicMetadata = c'.publicMetadata := by
  have hfield : ∀ {α : Type} (f : AuthChallenge → α), f c.asIssued = f c'.asIssued :=
    fun f => congrArg f h
  exact ⟨hfield AuthChallenge.accountId, hfield AuthChallenge.loginHandleNormalized,
    hfield AuthChallenge.serverNonce, hfield AuthChallenge.publicMetadata⟩

lemma ChallengeMove.asIssued {id : Uuid} {c c' : AuthChallenge}
    (h : ChallengeMove q b id (some c) (some c')) : c'.asIssued = c.asIssued := by
  cases h <;> rfl

/-- A challenge that is issued once at most is seen in one form only. -/
lemma ServiceRun.issued_same (h : ServiceRun P state H) {id : Uuid}
    (hone : (H.entries.countP fun e => issuesChallenge id e.before e.after) ≤ 1) :
    ((H.entries.countP fun e => issuesChallenge id e.before e.after) = 0 →
      ∀ c, ¬ H.Saw fun s => s.authChallenges.find? id = some c) ∧
    ∀ c c', (H.Saw fun s => s.authChallenges.find? id = some c) →
      (H.Saw fun s => s.authChallenges.find? id = some c') → c.asIssued = c'.asIssued := by
  refine Run.invariant (K := fun H =>
    (H.entries.countP fun e => issuesChallenge id e.before e.after) ≤ 1 →
      ((H.entries.countP fun e => issuesChallenge id e.before e.after) = 0 →
        ∀ c, ¬ H.Saw fun s => s.authChallenges.find? id = some c) ∧
      ∀ c c', (H.Saw fun s => s.authChallenges.find? id = some c) →
        (H.Saw fun s => s.authChallenges.find? id = some c') → c.asIssued = c'.asIssued)
    ?_ ?_ h hone
  · have hnothing : ∀ c, ¬ (⟨[], {}⟩ : Log).Saw fun s => s.authChallenges.find? id = some c := by
      rintro c (hc | ⟨e, he, -⟩)
      · cases hc
      · cases he
    exact fun _ => ⟨fun _ => hnothing, fun c _ hc => absurd hc (hnothing c)⟩
  · intro H q b s _ heff _ ih hone
    have hmove := Effect.challengeMove heff id
    rw [countP_push] at hone ⊢
    obtain ⟨hnone, hsame⟩ := ih (by omega)
    rcases hbefore : H.current.authChallenges.find? id with _ | c₀
    · rcases hafter : s.authChallenges.find? id with _ | c₁
      · have hold : ∀ c, ((H.push q b s).Saw fun s => s.authChallenges.find? id = some c) →
            H.Saw fun s => s.authChallenges.find? id = some c := by
          intro c hc
          rcases History.saw_push.mp hc with hs | hc
          · rw [hafter] at hs
            cases hs
          · exact hc
        exact ⟨fun hzero c hc => hnone (by omega) c (hold c hc),
          fun c c' hc hc' => hsame c c' (hold c hc) (hold c' hc')⟩
      · -- it is issued now, for the first time
        have hissues : issuesChallenge id H.current s = true := by
          rw [issuesChallenge, hbefore, hafter]
          rfl
        rw [if_pos hissues] at hone ⊢
        have honly : ∀ c, ((H.push q b s).Saw fun s => s.authChallenges.find? id = some c) →
            c = c₁ := by
          intro c hc
          rcases History.saw_push.mp hc with hs | hc
          · rw [hafter] at hs
            exact (Option.some.inj hs).symm
          · exact absurd hc (hnone (by omega) c)
        refine ⟨fun hzero => by omega, fun c c' hc hc' => ?_⟩
        rw [honly c hc, honly c' hc']
    · have hseen : H.Saw fun s => s.authChallenges.find? id = some c₀ := .inl hbefore
      have hform : ∀ c, ((H.push q b s).Saw fun s => s.authChallenges.find? id = some c) →
          c.asIssued = c₀.asIssued := by
        intro c hc
        rcases History.saw_push.mp hc with hs | hc
        · rw [hbefore, hs] at hmove
          exact hmove.asIssued
        · exact hsame c c₀ hc hseen
      refine ⟨fun hzero => absurd hseen (hnone (by omega) c₀), fun c c' hc hc' => ?_⟩
      rw [hform c hc, hform c' hc']

/-- **A challenge stays as it was issued**, whenever it is seen. -/
theorem Reachable.issued_same {sys : Service} (h : Reachable P state sys) {id : Uuid}
    {c c' : AuthChallenge} (hc : sys.history.Saw fun s => s.authChallenges.find? id = some c)
    (hc' : sys.history.Saw fun s => s.authChallenges.find? id = some c') :
    c.asIssued = c'.asIssued :=
  (h.run.issued_same (h.issued_once id)).2 c c' hc hc'

/-! ## Answers and commits -/

/-- The answer of a `register_start`, and the challenge that it issued. -/
structure RegisterStarted (request : RegisterStartRequest) (r : Response) (c : AuthChallenge)
    (accountSalt authVerifierSalt : Bytes) : Prop where
  challenge : c.challengeType = .register
  handle : normalizeLoginHandle request.loginHandle = .ok c.loginHandleNormalized
  metadata : c.publicMetadata = .register ⟨defaultKdfProfile, encodeBase64url accountSalt,
    PROFILE_ID, encodeBase64url authVerifierSalt, DEFAULT_ITERATIONS⟩
  accountSalt_length : accountSalt.length = DEFAULT_SALT_BYTES
  authVerifierSalt_length : authVerifierSalt.length = DEFAULT_SALT_BYTES
  body : ∃ expires, r.body = .registerStart c.id AUTH_PROTOCOL defaultKdfProfile
    (encodeBase64url accountSalt) PROFILE_ID (encodeBase64url authVerifierSalt) DEFAULT_ITERATIONS
    expires

/-- Read at some moment since the request arrived. -/
abbrev ReadFrom (born H : Log) (p : Db → Prop) : Prop :=
  ∃ H₀ : Log, born.entries <+: H₀.entries ∧ H₀.entries <+: H.entries ∧
    H₀.current = (H₀.entries.getLast?.map Entry.after).getD {} ∧ p H₀.current

/-- The salts are those of the account with the handle, if there is one. -/
def SaltsOf (handle : String) (accountId : Option Uuid) (accountSalt authVerifierSalt : Bytes)
    (s : Db) : Prop :=
  ∀ a, (s.accounts.list.find? fun a => a.loginHandleNormalized == handle) = some a →
    accountId = some a.id ∧ accountSalt = a.accountSalt ∧ authVerifierSalt = a.authVerifierSalt

/-- The answer of a `login_start`, and the challenge that it issued. -/
structure LoginStarted (request : LoginStartRequest) (r : Response) (c : AuthChallenge)
    (clientNonce accountSalt authVerifierSalt : Bytes) : Prop where
  challenge : c.challengeType = .login
  handle : normalizeLoginHandle request.loginHandle = .ok c.loginHandleNormalized
  nonce : decodeBase64urlArray CLIENT_NONCE_BYTES request.clientNonce = .ok clientNonce
  serverNonce_length : c.serverNonce.length = SERVER_NONCE_BYTES
  metadata : ∃ combined, c.publicMetadata = .login ⟨encodeBase64url clientNonce,
    encodeBase64url c.serverNonce, combined, PROFILE_ID, DEFAULT_ITERATIONS, c.accountId.isNone⟩
  authVerifierSalt_length : authVerifierSalt.length = DEFAULT_SALT_BYTES
  body : ∃ combined expires, r.body = .loginStart c.id AUTH_PROTOCOL defaultKdfProfile
    (encodeBase64url accountSalt) PROFILE_ID (encodeBase64url authVerifierSalt) DEFAULT_ITERATIONS
    (encodeBase64url c.serverNonce) combined expires

/-- What a `register_finish` stores: the rows of what it was sent, under the salts of its
challenge. -/
structure Stored (P : Platform) (q : Request) (request : RegisterFinishRequest) (c : AuthChallenge)
    (v : ValidatedRegisterFinish) (rows : RegistrationRows) (s s' : Db) : Prop where
  valid : request.validate = .ok v
  found : s.authChallenges.find? request.registrationId = some c
  decoded : ∃ metadata accountSalt authVerifierSalt,
    decodeRegisterChallengeMetadata c.publicMetadata = .ok metadata ∧
    decodeBase64urlArray DEFAULT_SALT_BYTES metadata.accountSalt = .ok accountSalt ∧
    decodeBase64urlArray DEFAULT_SALT_BYTES metadata.authVerifierSalt = .ok authVerifierSalt ∧
    rows = registrationRows P q.draws request.initialVault.vaultId v c.loginHandleNormalized
      metadata accountSalt authVerifierSalt q.now
  new : s.accounts.find? rows.account.id = none
  accounts : s'.accounts = s.accounts.put rows.account
  vaults : s'.vaults = s.vaults.put rows.vault
  keyWraps : s'.vaultKeyWraps = s.vaultKeyWraps.put rows.keyWrap

/-! ## The contract -/

/-- What a `register_finish` guarantees of its commits. -/
def StoresRegistration (P : Platform) (q : Request) (b : Bool) (H : Log) (s' : Db) : Prop :=
  ∀ request, q.action = .registerFinish request →
    b = true ∧ ∃ c v rows, Stored P q request c v rows H.current s'

/-- What an answer tells of a start, if it is no error. -/
def StartTold (q : Request) (born H : Log) (r : Response) : Prop :=
  match q.action with
  | .registerStart request => IsError r ∨ ∃ c accountSalt authVerifierSalt,
      (H.Saw fun s => s.authChallenges.find? c.id = some c) ∧
      RegisterStarted request r c accountSalt authVerifierSalt
  | .loginStart request => IsError r ∨ ∃ c clientNonce accountSalt authVerifierSalt,
      (H.Saw fun s => s.authChallenges.find? c.id = some c) ∧
      LoginStarted request r c clientNonce accountSalt authVerifierSalt ∧
      ReadFrom born H (SaltsOf c.loginHandleNormalized c.accountId accountSalt authVerifierSalt)
  | _ => True

section starts

variable {F : Log → Prop} {post : Log → Response → Prop}

/-- The rest of request `q`, under the contract of a start. -/
abbrev Begins (P : Platform) (q : Request) (post : Log → Response → Prop)
    (k : Connection Db Lock) (F : Log → Prop) (p : ApiProgram) : Prop :=
  Sat (StoresRegistration P) (Fresh P) {} q post k F p

lemma starts_attempt {α : Type} {k : Connection Db Lock} {x : Except ApiError α}
    {next : α → ApiProgram} (herr : ∀ (e : ApiError) H, post H e.intoResponse)
    (h : ∀ a, x = .ok a → Begins P q post k F (next a)) : Begins P q post k F (attempt x next) :=
  Sat.orElse herr h

/-- A request that is no `register_finish` guarantees nothing. -/
lemma storesRegistration_other (hq : ∀ request, q.action ≠ .registerFinish request) (b : Bool)
    (H : Log) (s : Db) : StoresRegistration P q b H s :=
  fun request haction => absurd haction (hq request)

lemma starts_cleanup (hq : ∀ request, q.action ≠ .registerFinish request)
    (herr : ∀ (e : ApiError) H, post H e.intoResponse)
    (hF : Stable (StoresRegistration P) (Fresh P) ({} : Db) [] F) {next : Unit → ApiProgram}
    (h : Begins P q post noTransaction F (next ())) :
    Begins P q post noTransaction F (cleanupExpiredChallenges q.draws next) :=
  Sat.writeAlone hF rfl (fun _ H => herr _ H)
    (fun _ _ _ _ _ _ _ _ => storesRegistration_other hq _ _ _) fun _ => h

lemma starts_rateLimit (hq : ∀ request, q.action ≠ .registerFinish request)
    (herr : ∀ (e : ApiError) H, post H e.intoResponse) {handle : String}
    {challengeType : ChallengeType}
    (hF : Stable (StoresRegistration P) (Fresh P) ({} : Db) [] F) {next : Unit → ApiProgram}
    (h : Begins P q post noTransaction F (next ())) :
    Begins P q post noTransaction F
      (enforceChallengeRateLimit q.draws handle challengeType next) := by
  refine Sat.writeAlone hF rfl (fun e H => herr _ H)
    (fun _ _ _ _ _ _ _ _ => storesRegistration_other hq _ _ _) fun count => ?_
  dsimp only
  split
  · exact Sat.finish (herr _)
  · exact h

/-- A challenge that is inserted has been seen. -/
lemma starts_insert (hq : ∀ request, q.action ≠ .registerFinish request)
    (herr : ∀ (e : ApiError) H, post H e.intoResponse)
    (hF : Stable (StoresRegistration P) (Fresh P) ({} : Db) [] F) {c : AuthChallenge}
    {next : Unit → ApiProgram}
    (h : Begins P q post noTransaction
      (fun H => F H ∧ H.Saw fun s => s.authChallenges.find? c.id = some c) (next ())) :
    Begins P q post noTransaction F (onPool (authChallenges.insert c) next) := by
  refine Sat.alone hF rfl (fun e H => herr _ H)
    (fun _ _ _ _ _ _ _ _ => storesRegistration_other hq _ _ _) ?_
  intro H₀ H₁ r _ _ hF₁ _ hrun hr
  obtain ⟨rfl, -⟩ := Table.insert_ok hr
  refine h _ hrun ⟨hF₁, .inl ?_⟩
  exact Rows.find?_put_self H₁.current.authChallenges c

theorem registerStart_starts {request : RegisterStartRequest}
    (hq : q.action = .registerStart request) (born : Log) :
    Begins P q (StartTold q born) noTransaction (fun _ => True)
      (registerStart P state q.draws request).run := by
  have hnot : ∀ request, q.action ≠ .registerFinish request := by simp [hq]
  have herr : ∀ (e : ApiError) H, StartTold q born H e.intoResponse := by
    intro e H
    rw [StartTold, hq]
    exact .inl ⟨e, rfl⟩
  have hF : Stable (StoresRegistration P) (Fresh P) ({} : Db) [] fun _ : Log => True :=
    Stable.const _ _
  unfold registerStart Handler.run
  generalize hnormalized : normalizeLoginHandle request.loginHandle = normalized
  refine starts_attempt herr fun _ _ => starts_attempt herr fun _ _ => ?_
  refine starts_attempt herr fun handle hhandle => ?_
  refine starts_cleanup hnot herr hF (starts_rateLimit hnot herr hF ?_)
  refine starts_insert hnot herr hF (starts_attempt herr fun text _ => ?_)
  refine Sat.answer fun H H' hrun hlater hH => ?_
  have hsaw := hlater.saw_of_saw hrun hH.2
  rw [StartTold, hq]
  refine .inr ⟨_, q.draws.bytes 0 DEFAULT_SALT_BYTES, q.draws.bytes 1 DEFAULT_SALT_BYTES, hsaw, ?_⟩
  exact ⟨rfl, hnormalized.trans hhandle, rfl, q.draws.bytes_length _ _, q.draws.bytes_length _ _,
    text, rfl⟩

/-- What was read of the account with the handle. -/
def LoadedFrom (handle : String) (loaded : Option LoginMetadata) (s : Db) : Prop :=
  ∀ a, (s.accounts.list.find? fun a => a.loginHandleNormalized == handle) = some a →
    loaded = some ⟨some a.id, a.kdfProfile, a.accountSalt, a.authVerifierSalt, DEFAULT_ITERATIONS⟩

/-- Metadata that the page can log in with. -/
structure LoginMetadata.Supported (m : LoginMetadata) : Prop where
  kdfProfile : m.kdfProfile = defaultKdfProfile
  authVerifierSalt : m.authVerifierSalt.length = DEFAULT_SALT_BYTES
  authVerifierIterations : m.authVerifierIterations = DEFAULT_ITERATIONS

/-- The account is read as it is, or is not one that the page can log in to. -/
lemma starts_loadLoginMetadata (hq : ∀ request, q.action ≠ .registerFinish request)
    (herr : ∀ (e : ApiError) H, post H e.intoResponse) {handle : String}
    {next : Option LoginMetadata → ApiProgram} {born : Log}
    (h : ∀ loaded F', Stable (StoresRegistration P) (Fresh P) ({} : Db) [] F' →
      (∀ m ∈ loaded, m.Supported) → (∀ H, F' H → ReadFrom born H (LoadedFrom handle loaded)) →
      Begins P q post noTransaction F' (next loaded)) :
    Begins P q post noTransaction (fun H => born.entries <+: H.entries)
      (loadLoginMetadata handle next) := by
  have hF : Stable (StoresRegistration P) (Fresh P) ({} : Db) [] fun H : Log =>
      born.entries <+: H.entries := fun _ _ _ henv hborn => hborn.trans henv.1.2
  refine Sat.queryAlone hF rfl (fun e H => herr _ H)
    (fun H => storesRegistration_other hq _ _ _) fun row F' hF' hfound => ?_
  have hread : ∀ H, F' H → ReadFrom born H fun s =>
      row = s.accounts.list.find? fun a => a.loginHandleNormalized == handle := by
    intro H hH
    obtain ⟨-, H₀, hborn, hrun, hlater, hrow⟩ := hfound H hH
    exact ⟨H₀, hborn, hlater.2, hrun.current_eq, hrow⟩
  have hloaded : ∀ loaded : Option LoginMetadata,
      (∀ s, (row = s.accounts.list.find? fun a => a.loginHandleNormalized == handle) →
        LoadedFrom handle loaded s) →
      ∀ H, F' H → ReadFrom born H (LoadedFrom handle loaded) := by
    intro loaded himp H hH
    obtain ⟨H₀, hborn, hpre, hcurrent, hrow⟩ := hread H hH
    exact ⟨H₀, hborn, hpre, hcurrent, himp _ hrow⟩
  rcases row with _ | a
  · refine h none F' hF' (fun m hm => ?_) (hloaded none fun s hs a ha => ?_)
    · cases hm
    · rw [ha] at hs
      cases hs
  · dsimp only
    split
    · exact Sat.finish (herr _)
    · rename_i hvalid
      simp only [not_or, not_not, Bool.not_eq_false] at hvalid
      obtain ⟨hsalt, hverifier, hiterations, hprofile⟩ := hvalid
      have hcount : a.authVerifierIterations.toNat = DEFAULT_ITERATIONS := by rw [hiterations]; rfl
      refine h _ F' hF' (fun m hm => ?_) (hloaded _ fun s hs a' ha' => ?_)
      · obtain rfl := Option.some.inj hm
        exact ⟨Json.eq_of_same hprofile, hverifier, hcount⟩
      · rw [ha', Option.some.injEq] at hs
        rw [hs, ← hs, hcount]

theorem loginStart_starts {request : LoginStartRequest} (hq : q.action = .loginStart request)
    (born : Log) :
    Begins P q (StartTold q born) noTransaction (fun H => born.entries <+: H.entries)
      (loginStart P state q.draws request).run := by
  have hnot : ∀ request, q.action ≠ .registerFinish request := by simp [hq]
  have herr : ∀ (e : ApiError) H, StartTold q born H e.intoResponse := by
    intro e H
    rw [StartTold, hq]
    exact .inl ⟨e, rfl⟩
  have hF : Stable (StoresRegistration P) (Fresh P) ({} : Db) [] fun H : Log =>
      born.entries <+: H.entries := fun _ _ _ henv hborn => hborn.trans henv.1.2
  unfold loginStart Handler.run
  generalize hnormalized : normalizeLoginHandle request.loginHandle = normalized
  refine starts_attempt herr fun _ _ => starts_attempt herr fun _ _ => ?_
  refine starts_attempt herr fun key _ => starts_attempt herr fun handle hhandle => ?_
  refine starts_attempt herr fun nonce hnonce => ?_
  refine starts_cleanup hnot herr hF (starts_rateLimit hnot herr hF ?_)
  refine starts_loadLoginMetadata hnot herr fun loaded F' hF' hsupported hread => ?_
  refine starts_insert hnot herr hF' (starts_attempt herr fun text _ => ?_)
  refine Sat.answer fun H H' hrun hlater hH => ?_
  have hsaw := hlater.saw_of_saw hrun hH.2
  obtain ⟨H₀, hborn, hpre, hcurrent, hloaded⟩ := hread H hH.1
  generalize hm : loaded.getD (syntheticLoginMetadata P key handle) = m at hsaw ⊢
  have hvalid : m.Supported := by
    rcases loaded with _ | m'
    · subst hm
      exact ⟨rfl, P.hmacSha256_length _ _, rfl⟩
    · subst hm
      exact hsupported _ rfl
  let combined := encodeBase64url (nonce ++ q.draws.bytes 0 SERVER_NONCE_BYTES)
  rw [StartTold, hq]
  refine .inr ⟨_, nonce, m.accountSalt, m.authVerifierSalt, hsaw, ?_, H₀, hborn,
    hpre.trans hlater.2, hcurrent, ?_⟩
  · refine ⟨rfl, hnormalized.trans hhandle, orBadRequest_ok.mp hnonce, q.draws.bytes_length _ _,
      ⟨combined, ?_⟩, hvalid.authVerifierSalt, combined, text, ?_⟩
    · rw [← hvalid.authVerifierIterations]
      rfl
    · rw [← hvalid.authVerifierIterations, ← hvalid.kdfProfile]
      rfl
  · intro a ha
    have hloaded := hloaded a ha
    rw [hloaded] at hm
    subst hm
    exact ⟨rfl, rfl, rfl⟩

/-- **A `register_finish` stores what it was sent**, under the salts of its challenge. -/
theorem registerFinish_starts {request : RegisterFinishRequest}
    (hq : q.action = .registerFinish request) :
    Begins P q (fun _ _ => True) noTransaction (fun _ => True)
      (registerFinish P state q.draws request).run := by
  have hunavailable : ∀ (_ : DbError) (_ : Log), True := fun _ _ => trivial
  unfold registerFinish Handler.run
  generalize hvalidate : request.validate = validated
  have herr : ∀ (_ : ApiError) (_ : Log), True := fun _ _ => trivial
  refine starts_attempt herr fun _ _ => starts_attempt herr fun _ _ => ?_
  refine starts_attempt herr fun v hv => ?_
  refine Sat.lockRows (T := authChallenges) (Stable.const _ _) hunavailable (fun _ => rfl) ?_
  intro rows F₁ hF₁ _ hopen hfound
  dsimp only
  rcases hhead : rows.head? with _ | c
  · exact Sat.finish fun _ => trivial
  · have hmem : c ∈ rows := List.mem_of_head? hhead
    have hid : c.id = request.registrationId := isOpenChallenge_id (hopen c hmem)
    refine starts_attempt herr fun metadata hmetadata => ?_
    refine starts_attempt herr fun accountSalt haccountSalt => ?_
    refine starts_attempt herr fun authVerifierSalt hverifierSalt => ?_
    rw [orUnavailable_ok] at haccountSalt hverifierSalt
    have hdecoded : ∀ {text : String} {salt : Bytes},
        (decodeBase64urlArray DEFAULT_SALT_BYTES text).toOption = some salt →
        decodeBase64urlArray DEFAULT_SALT_BYTES text = .ok salt := by
      intro text salt h
      rcases hdecode : decodeBase64urlArray DEFAULT_SALT_BYTES text with e | salt'
      · rw [hdecode] at h
        cases h
      · rw [hdecode] at h
        exact congrArg Except.ok (Option.some.inj h)
    dsimp only
    generalize hrows : registrationRows P q.draws request.initialVault.vaultId v
      c.loginHandleNormalized metadata accountSalt authVerifierSalt
      (nowUtcSecond (q.draws.clock 0)) = new
    refine Sat.insertNew (T := accounts) [] hF₁ hunavailable
      (fun s x hx _ => ⟨x, hx, rfl, rfl⟩) fun locks₂ F₂ _ hF₂ hsub₂ _ hnew => ?_
    refine Sat.insert (T := accountKeysets) hF₂ hunavailable fun locks₃ _ hF₃ _ => ?_
    refine Sat.insert (T := devices) hF₃ hunavailable fun locks₄ _ hF₄ _ => ?_
    refine Sat.insert (T := vaults) hF₄ hunavailable fun locks₅ _ hF₅ _ => ?_
    refine Sat.insert (T := vaultKeyWraps) hF₅ hunavailable fun locks₆ _ hF₆ _ => ?_
    refine Sat.insert (T := sessions) hF₆ hunavailable fun locks₇ _ hF₇ _ => ?_
    refine sat_insertAuditEvent hF₇ hunavailable fun event => ?_
    rw [← hid]
    refine sat_consumeAuthChallenge hF₇ hunavailable (fun H hH => hfound c hmem H (hsub₂ H hH))
      fun locks₈ hF₈ => ?_
    refine Sat.commit hF₈ (fun _ => trivial) (fun H _ hH => ?_) fun _ _ _ _ _ => trivial
    intro request' hq'
    rw [hq] at hq'
    obtain rfl := Action.registerFinish.inj hq'
    refine ⟨rfl, c, v, new, hvalidate.trans hv, ?_, ⟨metadata, accountSalt, authVerifierSalt,
      hmetadata, hdecoded haccountSalt, hdecoded hverifierSalt, hrows.symm⟩,
      Table.find?_of_new (hnew H hH), rfl, rfl, rfl⟩
    rw [← hid]
    exact hfound c hmem H (hsub₂ H hH)

end starts

/-- **Every request meets this contract as well.** -/
theorem serve_starts (q : Request) (born : Log)
    (hrun : Run (StoresRegistration P) (Fresh P) {} born) :
    (serve P state q).Meets (StoresRegistration P) (Fresh P) {} q (StartTold q born) {} born := by
  unfold serve handler
  cases hq : q.action with
  | registerStart request => exact registerStart_starts hq born born hrun trivial
  | loginStart request => exact loginStart_starts hq born born hrun List.prefix_rfl
  | registerFinish request =>
      have htold : StartTold q born = fun _ _ => True := by
        funext H r
        rw [StartTold, hq]
      rw [htold]
      exact registerFinish_starts hq born hrun trivial
  | _ =>
      refine Program.meets_trivial (storesRegistration_other (by simp [hq])) (fun H r => ?_) _ _ _
      rw [StartTold, hq]
      trivial

lemma Reachable.starts {sys : Service} (h : Reachable P state sys) :
    sys.Ok (StoresRegistration P) (Fresh P) {} StartTold :=
  System.Reaches.sound Fresh.symm serve_starts h

end PasswordVault
