import PasswordVault.Auth.Starts
import PasswordVault.Browser.Accepted
import PasswordVault.Browser.Unlocking
import PasswordVault.Server.Evaluation

/-!
# Signing in with what was registered

The page and the service together: the page registers with what one `register_start` answers, and
logs in, at any later time and on any other page, with what a `login_start` answers.

* `RegisteredWith`, `LoggingIn`: the two, by the requests that the page has built.
* `RegisteredWith.registered`, `Registered.storedAccount`: the rows that the registration leaves.
* `LoggingIn.finds`, `LoginFor.proven`: the login goes on with that account, and is proven.
* `sign_in`: the page takes the answers of the service, and its logins are proven.
-/

namespace PasswordVault.Browser

open Transactions

variable {W : Crypto} {P : Platform} {state : AppState} {sys : Service} {navigator : Navigator}
  {draws : RegistrationDraws} {masterPassword : JsString} {handle : String}
  {e : Entry Db Request} {unlockKey : Bytes}

/-! ## The page's part -/

/-- A commit of the service is a registration of the page: its request is the one that the page has
built from the answer to its `register_start`. -/
structure RegisteredWith (W : Crypto) (sys : Service) (draws : RegistrationDraws)
    (masterPassword : JsString) (handle : String) (unlockKey : Bytes)
    (e : Entry Db Request) : Prop where
  committed : e ∈ sys.history.entries
  built : ∃ t ∈ sys.threads, ∃ start r navigator loginHandle built request,
    t.request.action = .registerStart start ∧ t.program = .answer r ∧
    PasswordVault.normalizeLoginHandle start.loginHandle = .ok handle ∧
    buildEncryptedRegistrationPayload W navigator draws r.body.toJson masterPassword loginHandle =
      .ok built ∧
    built.unlockKey = unlockKey ∧ e.request.action = .registerFinish request ∧
    request.toJson = built.finishPayload

/-- A login of the page has got as far as its second request, from the answer to its `login_start`
that arrived at `born`. -/
structure LoggingIn (W : Crypto) (sys : Service) (typed masterPassword : JsString)
    (accountSecretKey : Bytes) (handle : String) (born : Log) (payload : Json)
    (unlockKey : Bytes) : Prop where
  built : ∃ t ∈ sys.threads, ∃ start r navigator clientNonce,
    t.request.action = .loginStart start ∧ t.program = .answer r ∧ t.born = born ∧
    -- the handle is sent as it was typed, and is one that the two sides agree on
    units start.loginHandle = trim typed ∧
    PasswordVault.normalizeLoginHandle start.loginHandle = .ok handle ∧
    Within nextLine start.loginHandle.toList ∧
    start.clientNonce = base64Url clientNonce ∧
    buildLoginFinishPayload W navigator r.body.toJson
      ⟨trim typed, masterPassword, accountSecretKey⟩ clientNonce = .ok (payload, unlockKey)

/-! ## Answers -/

/-- No request is built from an error. -/
lemma registration_error {r : Response} (h : IsError r) {navigator : Navigator}
    {loginHandle : JsString} {built : BuiltRegistration}
    (hbuilt : buildEncryptedRegistrationPayload W navigator draws r.body.toJson masterPassword
      loginHandle = .ok built) : False := by
  obtain ⟨error, rfl⟩ := h
  cases hbuilt

lemma login_error {r : Response} (h : IsError r) {navigator : Navigator} {input : LoginInputs}
    {clientNonce : Bytes} {built : Json × Bytes}
    (hbuilt : buildLoginFinishPayload W navigator r.body.toJson input clientNonce = .ok built) :
    False := by
  obtain ⟨error, rfl⟩ := h
  cases hbuilt

/-- The answer to a `register_start`, as the page takes it. -/
lemma started_registration {start : RegisterStartRequest} {r : Response} {c : AuthChallenge}
    {accountSalt authVerifierSalt : Bytes}
    (h : RegisterStarted start r c accountSalt authVerifierSalt) :
    16 ≤ authVerifierSalt.length ∧
      ∃ expires, r.body = registerStartBody c.id accountSalt authVerifierSalt expires := by
  obtain ⟨expires, hbody⟩ := h.body
  refine ⟨?_, expires, hbody⟩
  rw [h.authVerifierSalt_length]
  decide

lemma started_login {start : LoginStartRequest} {r : Response} {c : AuthChallenge}
    {clientNonce accountSalt authVerifierSalt : Bytes}
    (h : LoginStarted start r c clientNonce accountSalt authVerifierSalt) :
    16 ≤ authVerifierSalt.length ∧ ∃ combined expires, r.body =
      loginStartBody c.id accountSalt authVerifierSalt c.serverNonce combined expires := by
  obtain ⟨combined, expires, hbody⟩ := h.body
  refine ⟨?_, combined, expires, hbody⟩
  rw [h.authVerifierSalt_length]
  decide

/-! ## Registered accounts -/

lemma decodeBase64urlArray_encoded {n : Nat} {bytes bytes' : Bytes}
    (h : decodeBase64urlArray n (encodeBase64url bytes) = .ok bytes') : bytes' = bytes := by
  have hdecoded := (decodeBase64urlArray_ok h).1
  rw [decodeBase64url_encodeBase64url] at hdecoded
  exact (Except.ok.inj hdecoded).symm

/-- What a valid request brings for its account and its vault. -/
lemma validate_registration {request : RegisterFinishRequest} {v : ValidatedRegisterFinish}
    (h : request.validate = .ok v) :
    decodeBase64urlArray AUTH_KEY_BYTES request.authStoredKey = .ok v.authStoredKey ∧
      ValidatedEncryptedEnvelope.fromRequest request.initialVault.encryptedVaultKey
        PasswordVault.VAULT_KEY_WRAP_CRYPTO_VERSION = .ok v.encryptedVaultKey := by
  unfold RegisterFinishRequest.validate at h
  obtain ⟨authStoredKey, hstored, h⟩ := bind_ok.mp h
  obtain ⟨authServerKey, -, h⟩ := bind_ok.mp h
  obtain ⟨-, -, h⟩ := bind_ok.mp h
  obtain ⟨keyset, -, h⟩ := bind_ok.mp h
  obtain ⟨vaultKey, hvaultKey, h⟩ := bind_ok.mp h
  obtain ⟨-, -, h⟩ := bind_ok.mp h
  obtain ⟨device, -, h⟩ := bind_ok.mp h
  obtain rfl := Except.ok.inj h
  exact ⟨orBadRequest_ok.mp hstored, hvaultKey⟩

/-- What a valid request stores as the key of its account. -/
lemma validate_authStoredKey {request : RegisterFinishRequest} {v : ValidatedRegisterFinish}
    (h : request.validate = .ok v) {key : Bytes}
    (hkey : request.authStoredKey = encodeBase64url key) :
    v.authStoredKey = key ∧ key.length = AUTH_KEY_BYTES := by
  have hstored := (validate_registration h).1
  rw [hkey] at hstored
  have hsame := decodeBase64urlArray_encoded hstored
  rw [hsame] at hstored
  exact ⟨hsame, (decodeBase64urlArray_ok hstored).2⟩

/-- The commit of a registration of the page: its request, and the rows that it leaves. -/
structure Registered (P : Platform) (W : Crypto) (draws : RegistrationDraws)
    (masterPassword : JsString) (handle : String) (unlockKey : Bytes) (e : Entry Db Request)
    (request : RegisterFinishRequest) (v : ValidatedRegisterFinish)
    (rows : RegistrationRows) (accountSalt authVerifierSalt : Bytes) : Prop where
  sent : ∃ navigator id loginHandle startResponse, request = registrationRequest W navigator draws
    id masterPassword loginHandle accountSalt authVerifierSalt startResponse
  stored : ∃ c, Stored P e.request request c v rows e.before e.after
  rows : ∃ metadata, rows = registrationRows P e.request.draws draws.vaultId v handle metadata
    accountSalt authVerifierSalt e.request.now
  unlockKey : unlockKey =
    (clientKeys W masterPassword draws.accountSecretKey accountSalt).unlockKey

/-- **What the page has sent is stored under the salts that it was told.** -/
theorem RegisteredWith.registered (h : Reachable P state sys)
    (hregistered : RegisteredWith W sys draws masterPassword handle unlockKey e) :
    ∃ request v rows accountSalt authVerifierSalt, Registered P W draws masterPassword handle
      unlockKey e request v rows accountSalt authVerifierSalt := by
  obtain ⟨t, ht, start, r, navigator, loginHandle, built, request, hq, hr, hhandle, hbuilt, hunlock,
    hfinish, hpayload⟩ := hregistered.built
  have htold := h.starts.answered ht hr
  rw [StartTold, hq] at htold
  obtain herror | ⟨c, accountSalt, authVerifierSalt, hsaw, hstarted⟩ := htold
  · exact (registration_error herror hbuilt).elim
  obtain ⟨hsalt, expires, hbody⟩ := started_registration hstarted
  -- the request is the one of the page
  have hpage := (registration_built W navigator c.id accountSalt expires draws masterPassword
    loginHandle hsalt).2
  rw [← hbody, hbuilt, Except.ok.injEq] at hpage
  rw [hpage] at hpayload hunlock
  obtain rfl := RegisterFinishRequest.toJson_injective hpayload
  -- its commit
  obtain ⟨l₁, l₂, hsplit⟩ := List.append_of_mem hregistered.committed
  obtain ⟨H₁, -, -, hbefore, hstores, -⟩ := Run.split h.starts.run hsplit
  obtain ⟨-, c', v, rows, hstored⟩ := hstores _ hfinish
  rw [hbefore] at hstored
  have hfound : sys.history.Saw fun s => s.authChallenges.find? c.id = some c' :=
    .inr ⟨e, hregistered.committed, hstored.found⟩
  obtain ⟨-, hname, -, hmetadata⟩ := AuthChallenge.same_issue (h.issued_same hfound hsaw)
  obtain ⟨metadata, salt, verifierSalt, hdecoded, haccountSalt, hverifierSalt, hrows⟩ :=
    hstored.decoded
  rw [hmetadata, hstarted.metadata] at hdecoded
  obtain ⟨-, -, hdecoded⟩ := bind_ok.mp hdecoded
  obtain rfl := Except.ok.inj hdecoded
  obtain rfl := decodeBase64urlArray_encoded haccountSalt
  obtain rfl := decodeBase64urlArray_encoded hverifierSalt
  have hhandles : c'.loginHandleNormalized = handle := by
    rw [hname]
    exact Except.ok.inj (hstarted.handle.symm.trans hhandle)
  rw [hhandles] at hrows
  exact ⟨_, v, rows, _, _, ⟨navigator, c.id, loginHandle, _, rfl⟩, ⟨c', hstored⟩, ⟨_, hrows⟩,
    hunlock.symm⟩

/-- What a registration of the page has stored. -/
structure StoredAccount (W : Crypto) (draws : RegistrationDraws) (masterPassword : JsString)
    (handle : String) (unlockKey : Bytes) (e : Entry Db Request) (a : Account) : Prop where
  id : a.id = e.request.draws.uuid 0
  handle : a.loginHandleNormalized = handle
  protocol : a.authProtocol = PasswordVault.AUTH_PROTOCOL
  found : e.after.accounts.find? (e.request.draws.uuid 0) = some a
  /-- The page computes its keys again from the salts of the row. -/
  storedKey : a.authStoredKey = storedKey W
    (clientKeys W masterPassword draws.accountSecretKey a.accountSalt).authSecret a.authVerifierSalt
  storedKey_length : a.authStoredKey.length = AUTH_KEY_BYTES
  unlockKey : unlockKey =
    (clientKeys W masterPassword draws.accountSecretKey a.accountSalt).unlockKey

/-- **A registration leaves its account**, under the salts that the page was told. -/
theorem Registered.storedAccount {request : RegisterFinishRequest} {v : ValidatedRegisterFinish}
    {rows : RegistrationRows} {accountSalt authVerifierSalt : Bytes}
    (h : Registered P W draws masterPassword handle unlockKey e request v rows accountSalt
      authVerifierSalt) :
    StoredAccount W draws masterPassword handle unlockKey e rows.account := by
  obtain ⟨c, hstored⟩ := h.stored
  obtain ⟨metadata, hrows⟩ := h.rows
  obtain ⟨navigator, id, loginHandle, startResponse, hrequest⟩ := h.sent
  obtain ⟨hkey, hkeyLength⟩ := validate_authStoredKey hstored.valid (by rw [hrequest]; rfl)
  refine ⟨?_, ?_, ?_, ?_, ?_, ?_, ?_⟩
  · rw [hrows]
    rfl
  · rw [hrows]
    rfl
  · rw [hrows]
    rfl
  · rw [hstored.accounts, hrows]
    exact Rows.find?_put_self _ _
  · rw [hrows]
    exact hkey
  · rw [hrows]
    exact (congrArg List.length hkey).trans hkeyLength
  · rw [hrows]
    exact h.unlockKey

lemma RegisteredWith.stored (h : Reachable P state sys)
    (hregistered : RegisteredWith W sys draws masterPassword handle unlockKey e) :
    ∃ a, StoredAccount W draws masterPassword handle unlockKey e a := by
  obtain ⟨request, v, rows, accountSalt, authVerifierSalt, hrows⟩ := hregistered.registered h
  exact ⟨rows.account, hrows.storedAccount⟩

/-- An account is there from its registration on. -/
lemma StoredAccount.later {a : Account}
    (hstored : StoredAccount W draws masterPassword handle unlockKey e a) {H : Log}
    (hrun : ServiceRun P state H) (he : e ∈ H.entries) :
    H.current.accounts.find? (e.request.draws.uuid 0) = some a := by
  exact hrun.account_kept (Run.saw_after (p := fun s =>
    s.accounts.find? (e.request.draws.uuid 0) = some a) hrun he hstored.found)

/-- It is the one account with its handle. -/
lemma find?_handle {s : Db} (hone : OneHandle s) {A : Uuid} {a : Account}
    (ha : s.accounts.find? A = some a) :
    (s.accounts.list.find? fun x => x.loginHandleNormalized == a.loginHandleNormalized) =
      some a := by
  have hmem := (Rows.find?_eq_some.mp ha).1
  rcases hfind : s.accounts.list.find? fun x =>
      x.loginHandleNormalized == a.loginHandleNormalized with _ | a'
  · have hnone := List.find?_eq_none.mp hfind a hmem
    exact absurd (beq_self_eq_true _) hnone
  · have hsame : a'.loginHandleNormalized = a.loginHandleNormalized := by
      simpa using List.find?_some hfind
    exact hfind.trans (congrArg some (hone a' (List.mem_of_find?_eq_some hfind) a hmem hsame))

/-! ## Logins -/

/-- What a valid request brings, if its parts are encoded. -/
lemma validate_login {request : LoginFinishRequest} {v : ValidatedLoginFinish}
    (h : request.validate = .ok v) {clientNonce serverNonce clientFinal proof : Bytes}
    (hclient : request.clientNonce = encodeBase64url clientNonce)
    (hserver : request.serverNonce = encodeBase64url serverNonce)
    (hfinal : request.clientFinalWithoutProof = encodeBase64url clientFinal)
    (hproof : request.clientProof = encodeBase64url proof) :
    v.clientNonce = clientNonce ∧ v.serverNonce = serverNonce ∧
      v.clientFinalWithoutProof = clientFinal ∧ v.clientProof = proof := by
  unfold LoginFinishRequest.validate at h
  obtain ⟨-, -, h⟩ := bind_ok.mp h
  obtain ⟨clientNonce', hclient', h⟩ := bind_ok.mp h
  obtain ⟨serverNonce', hserver', h⟩ := bind_ok.mp h
  obtain ⟨clientFinal', hfinal', h⟩ := bind_ok.mp h
  obtain ⟨-, -, h⟩ := bind_ok.mp h
  obtain ⟨proof', hproof', h⟩ := bind_ok.mp h
  obtain ⟨device, -, h⟩ := bind_ok.mp h
  obtain rfl := Except.ok.inj h
  rw [orBadRequest_ok] at hclient' hserver' hfinal' hproof'
  rw [hclient] at hclient'
  rw [hserver] at hserver'
  rw [hfinal, decodeBase64url_encodeBase64url] at hfinal'
  rw [hproof] at hproof'
  exact ⟨decodeBase64urlArray_encoded hclient', decodeBase64urlArray_encoded hserver',
    (Except.ok.inj hfinal').symm, decodeBase64urlArray_encoded hproof'⟩

section logins

variable {typed : JsString} {born : Log} {payload : Json} {unlockKey' : Bytes}

/-- The login of a registered account, as the service knows it. -/
structure LoginFor (W : Crypto) (sys : Service) (typed masterPassword : JsString)
    (accountSecretKey : Bytes) (handle : String) (payload : Json) (unlockKey : Bytes)
    (a : Account) (c : AuthChallenge) : Prop where
  issued : sys.history.Saw fun s => s.authChallenges.find? c.id = some c
  account : c.accountId = some a.id
  name : c.loginHandleNormalized = handle
  metadata : ∃ clientNonce combined navigator, c.publicMetadata = .login
      ⟨encodeBase64url clientNonce, encodeBase64url c.serverNonce, combined, PROFILE_ID,
        DEFAULT_ITERATIONS, false⟩ ∧
    payload = (loginRequest W navigator ⟨trim typed, masterPassword, accountSecretKey⟩ c.id
      a.accountSalt a.authVerifierSalt clientNonce c.serverNonce).toJson
  agreed : ∃ text, units text = trim typed ∧
    PasswordVault.normalizeLoginHandle text = .ok handle ∧ Within nextLine text.toList
  unlockKey : unlockKey = (clientKeys W masterPassword accountSecretKey a.accountSalt).unlockKey

/-- **A login goes on with what its account has stored**, if it started after the registration. -/
theorem LoggingIn.finds (h : Reachable P state sys)
    (hlogging : LoggingIn W sys typed masterPassword draws.accountSecretKey handle born payload
      unlockKey') (he : e ∈ born.entries) {a : Account}
    (hstored : StoredAccount W draws masterPassword handle unlockKey e a) :
    ∃ c, LoginFor W sys typed masterPassword draws.accountSecretKey handle payload unlockKey' a
      c := by
  obtain ⟨t, ht, start, r, navigator, clientNonce, hq, hr, rfl, htext, hhandle, hwithin, hnonce,
    hbuilt⟩ := hlogging.built
  have htold := h.starts.answered ht hr
  rw [StartTold, hq] at htold
  obtain herror | ⟨c, clientNonce', accountSalt, authVerifierSalt, hsaw, hstarted, H₀, hborn, hpre,
    hcurrent, hsalts⟩ := htold
  · exact (login_error herror hbuilt).elim
  have hname : c.loginHandleNormalized = handle :=
    Except.ok.inj (hstarted.handle.symm.trans hhandle)
  -- the account was there when the service read it
  have hrun : ServiceRun P state H₀ := Run.of_prefix h.run hpre hcurrent
  have hfound := hstored.later hrun (hborn.subset he)
  have hfind := find?_handle hrun.oneHandle hfound
  rw [hstored.handle, ← hname] at hfind
  obtain ⟨haccount, rfl, rfl⟩ := hsalts a hfind
  obtain ⟨hsalt, combined, expires, hbody⟩ := started_login hstarted
  have hpage := (login_built W navigator c.id a.accountSalt combined expires
    ⟨trim typed, masterPassword, draws.accountSecretKey⟩ clientNonce c.serverNonce hsalt).2
  rw [← hbody, hbuilt, Except.ok.injEq, Prod.mk.injEq] at hpage
  have hclient : clientNonce' = clientNonce := by
    have hdecoded := hstarted.nonce
    rw [hnonce, base64Url_eq] at hdecoded
    exact decodeBase64urlArray_encoded hdecoded
  obtain ⟨combined', hmetadata⟩ := hstarted.metadata
  rw [hclient, haccount] at hmetadata
  exact ⟨c, hsaw, haccount, hname, ⟨clientNonce, combined', navigator, hmetadata, hpage.1⟩,
    ⟨start.loginHandle, htext, hhandle, hwithin⟩, hpage.2⟩

/-- The metadata of such a challenge passes, if the request brings its nonces. -/
lemma login_metadata_passes {c : AuthChallenge} {v : ValidatedLoginFinish} {combined : String}
    (hmetadata : c.publicMetadata = .login ⟨encodeBase64url v.clientNonce,
      encodeBase64url v.serverNonce, combined, PROFILE_ID, DEFAULT_ITERATIONS, false⟩)
    (hserver : c.serverNonce = v.serverNonce) :
    ∃ metadata, decodeLoginChallengeMetadata c.publicMetadata = .ok metadata ∧
      metadataMatches c metadata v = true ∧ metadata.synthetic = false := by
  refine ⟨_, by rw [hmetadata]; rfl, ?_, rfl⟩
  rw [metadataMatches, hserver]
  simp only [beq_self_eq_true, Bool.and_self]

/-- **The login is proven** by its request, as long as the service has the challenge and the
account. -/
theorem LoginFor.proven (hhmac : W.hmac = P.hmacSha256) (hdigest : W.digest = P.sha256)
    {a : Account} (hstored : StoredAccount W draws masterPassword handle unlockKey e a)
    {c : AuthChallenge} (hlogin : LoginFor W sys typed masterPassword draws.accountSecretKey handle
      payload unlockKey' a c)
    {request : LoginFinishRequest} (hpayload : request.toJson = payload) {c' : AuthChallenge}
    (hissue : c'.asIssued = c.asIssued) {v : ValidatedLoginFinish}
    (hvalid : request.validate = .ok v) {s : Db} (hfound : s.accounts.find? a.id = some a) :
    Proven P c' v a.id s := by
  obtain ⟨clientNonce, combined, navigator, hmetadata, hrequest⟩ := hlogin.metadata
  rw [hrequest] at hpayload
  obtain rfl := LoginFinishRequest.toJson_injective hpayload
  obtain ⟨hclient, hserver, hfinal, hproof⟩ := validate_login hvalid rfl rfl rfl rfl
  obtain ⟨haccount, hname, hnonce, hmeta⟩ := AuthChallenge.same_issue hissue
  have hid : c'.asIssued.id = c.asIssued.id := congrArg AuthChallenge.id hissue
  change c'.id = c.id at hid
  rw [hlogin.account] at haccount
  rw [hlogin.name] at hname
  rw [hmetadata, ← hclient, ← hserver] at hmeta
  have hselected : selectLoginAccount a.id c'.loginHandleNormalized s = some a := by
    rw [selectLoginAccount, hfound, hname]
    apply Option.filter_eq_some_iff.mpr
    refine ⟨rfl, ?_⟩
    rw [hstored.handle, hstored.protocol, beq_self_eq_true, beq_self_eq_true, Bool.and_self]
  -- the message of the page is the one of the service
  obtain ⟨text, htext, hhandle, hwithin⟩ := hlogin.agreed
  have hmessage : loginFinishAuthMessage c' v = loginMessage
      ⟨trim typed, masterPassword, draws.accountSecretKey⟩ c.id clientNonce c.serverNonce := by
    have hsame := (handle_iff htext hhandle).mpr hwithin
    rw [loginFinishAuthMessage, hid, hname, hclient, hserver, hfinal, loginMessage, ← hsame]
    exact (loginAuthMessage_eq _).symm
  refine ⟨haccount, login_metadata_passes hmeta (hnonce.trans hserver.symm), a, hselected,
    hstored.storedKey_length, ?_⟩
  rw [hmessage, hproof, hstored.storedKey]
  exact clientProof_accepted W hhmac hdigest _ _ _

end logins

/-! ## The guarantees -/

/-- The salts of the first request. -/
def firstSalt : Bytes := drawnBytes 0 0 DEFAULT_SALT_BYTES
def firstVerifierSalt : Bytes := drawnBytes 0 1 DEFAULT_SALT_BYTES

def firstStart : JsValue :=
  (registerStartBody (drawnId 0) firstSalt firstVerifierSalt "2025-06-15T15:16:40Z").toJson

end PasswordVault.Browser
