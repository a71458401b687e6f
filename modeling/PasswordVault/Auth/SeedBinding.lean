import PasswordVault.Auth.Completion
import PasswordVault.Auth.EnrollmentBinding
import PasswordVault.Server.Encodings

/-!
# Seeds are bound to their rows

The seed of a factor is stored encrypted, with the account, the factor and the profile as associated
data. `totp_enroll_start` takes the profile from memory, the other endpoints read it from the row.

* `totpSeedAad_inj`: the associated data determines the account, the factor and the profile.
* `ReturnsSeed`: the answer of a start, which hands the seed out.
* `verifyLocked`, `confirmLocked`: what `totp_verify` and `totp_enroll_confirm` do with the locked
  row.
* `seeds_bound`: under an ideal cipher they use the seed that was handed out, and a ciphertext does
  not decrypt in any other row.
-/

namespace PasswordVault

open Transactions

variable {P : Platform} {state : AppState} {q : Request} {H : Log} {id : Uuid}

/-! ## Associated data -/

/-- The numbers of a profile are a `u32` and a `u64`. -/
def Totp.TotpProfile.Fits (p : Totp.TotpProfile) : Prop :=
  p.digits < 2 ^ 32 ∧ p.periodSeconds < 2 ^ 64

lemma Totp.TotpAlgorithm.asUriValue_inj {a a' : Totp.TotpAlgorithm}
    (h : a.asUriValue = a'.asUriValue) : a = a' := by
  cases a <;> cases a' <;> first | rfl | exact absurd h (by decide)

/-- **The associated data determines the account, the factor and the profile.** -/
theorem totpSeedAad_inj {accountId accountId' factorId factorId' : Uuid}
    {profile profile' : Totp.TotpProfile} (hfits : profile.Fits) (hfits' : profile'.Fits)
    (h : totpSeedAad accountId factorId profile = totpSeedAad accountId' factorId' profile') :
    accountId = accountId' ∧ factorId = factorId' ∧ profile = profile' := by
  simp only [totpSeedAad, List.append_assoc, List.append_cancel_left_eq] at h
  -- the identifiers are as long as each other,
  obtain ⟨haccount, h₁⟩ := List.append_inj h (by rw [Uuid.asBytes_length, Uuid.asBytes_length])
  obtain ⟨hfactor, h₂⟩ := List.append_inj (List.append_cancel_left h₁)
    (by rw [Uuid.asBytes_length, Uuid.asBytes_length])
  have h₃ := List.append_cancel_left (List.append_cancel_left (List.append_cancel_left h₂))
  -- and so is what follows the algorithm
  obtain ⟨halgorithm, h₄⟩ := List.append_inj' h₃ (by simp [toBeBytes_length])
  obtain ⟨hdigits, h₅⟩ := List.append_inj (List.append_cancel_left h₄)
    (by rw [toBeBytes_length, toBeBytes_length])
  have hperiod := List.append_cancel_left h₅
  obtain ⟨algorithm, digits, periodSeconds⟩ := profile
  obtain ⟨algorithm', digits', periodSeconds'⟩ := profile'
  obtain rfl := Totp.TotpAlgorithm.asUriValue_inj (utf8Bytes_injective halgorithm)
  obtain rfl := toBeBytes_inj hfits.1 hfits'.1 hdigits
  obtain rfl := toBeBytes_inj hfits.2 hfits'.2 hperiod
  exact ⟨Uuid.asBytes_injective haccount, Uuid.asBytes_injective hfactor, rfl⟩

/-! ## Rows -/

/-- The seed that a `totp_enroll_start` request draws. -/
def Request.seed (q : Request) : Bytes := q.draws.bytes 0 TOTP_SEED_BYTES

/-- The profile that the endpoints read from the row is the one in memory. -/
lemma SeedFrom.profile {f : TotpFactor} (h : SeedFrom P state q f) :
    totpProfileFromRow f = .ok .googleAuthenticatorDefault := by
  have hpending : totpProfileFromRow f = totpProfileFromRow (f.pending q.draws.dbClock) := rfl
  rw [hpending, h.row]
  rfl

/-! ## The answer of a start -/

/-- The answer hands the seed of the request out. -/
def ReturnsSeed (q : Request) (r : Response) : Prop :=
  ∃ loginHandle uri expires,
    Totp.provisioningUri TOTP_ISSUER loginHandle q.seed .googleAuthenticatorDefault = .ok uri ∧
    r = ⟨200, .totpEnrollStart (q.draws.uuid 0) "pending" ⟨"SHA1", 6, 30⟩ uri
      (Totp.base32NoPadding q.seed) expires, none⟩

def IsError (r : Response) : Prop := ∃ e : ApiError, r = e.intoResponse

/-- A start that commits hands its seed out, unless the time has no text. -/
lemma totpEnrollStart_ends {headers : HeaderMap} (hq : q.action = .totpEnrollStart headers) :
    (serve P state q).Ends (fun r => IsError r ∨ ReturnsSeed q r) IsError := by
  have hfailed : ∀ e : ApiError, IsError e.intoResponse := fun e => ⟨e, rfl⟩
  have hclosed : AloneClosed fun p => p.Ends (fun r => IsError r ∨ ReturnsSeed q r) IsError :=
    .ends hfailed
  have herr := hfailed .serviceUnavailable
  unfold serve handler
  rw [hq]
  dsimp only
  unfold totpEnrollStart
  refine hclosed.attempt fun _ _ => hclosed.attempt fun totpSeedKey _ => ?_
  refine hclosed.requireSession fun session => hclosed.attempt fun _ _ => ?_
  refine hclosed.attempt fun _ _ => hclosed.ensureCsrfToken ?_
  refine hclosed.refreshSessionActivity fun session => hclosed.attempt fun seedCiphertext _ => ?_
  refine hclosed.pool _ fun handle => hclosed.attempt fun loginHandle _ => ?_
  refine hclosed.attempt fun uri huri => ?_
  refine ends_inTx herr fun _ => ends_inTx herr fun _ => ?_
  refine ends_insertAuditEvent herr (ends_commitAnd herr ?_)
  rcases formatRfc3339 P session.idleExpiresAt with e | expires
  · exact .inl (hfailed e)
  · refine .inr ⟨loginHandle, uri, expires, ?_, rfl⟩
    cases hresult : Totp.provisioningUri TOTP_ISSUER loginHandle q.seed
        .googleAuthenticatorDefault with
    | ok text =>
        have htext := orUnavailable_ok.mp huri
        unfold Request.seed at hresult
        rw [hresult] at htext
        exact congrArg Except.ok (Option.some.inj htext)
    | error e =>
        have htext := orUnavailable_ok.mp huri
        unfold Request.seed at hresult
        rw [hresult] at htext
        cases htext

/-! ## Codes -/

/-- `checkFactorCode` with the seed itself. -/
def checkSeedCode (P : Platform) (seed : Bytes) (f : TotpFactor) (now : Time) (code : String)
    (profile : Totp.TotpProfile) : Except ApiError (Option Nat) := do
  let lastAcceptedStep ← stepFromRow f.lastAcceptedStep
  let time ← unixTimeSeconds now
  match Totp.verify P seed time code profile lastAcceptedStep with
  | .ok step => .ok step
  | .error _ => .ok none

lemma checkFactorCode_eq {seedKey seed : Bytes} {accountId factorId : Uuid} {f : TotpFactor}
    {now : Time} {code : String} {profile : Totp.TotpProfile} (hid : f.seedKeyId = TOTP_SEED_KEY_ID)
    (haead : f.seedAead = TOTP_SEED_AEAD)
    (hdecrypt : decryptTotpSeed P seedKey f.seedNonce (totpSeedAad accountId factorId profile)
      f.seedCiphertext = .ok seed) :
    checkFactorCode P seedKey accountId factorId f now code profile =
      checkSeedCode P seed f now code profile := by
  have hcolumns : (f.seedKeyId == TOTP_SEED_KEY_ID && f.seedAead == TOTP_SEED_AEAD) = true := by
    rw [hid, haead]
    rfl
  unfold checkFactorCode checkSeedCode
  rw [hcolumns, hdecrypt]
  rcases stepFromRow f.lastAcceptedStep with e | step
  · rfl
  · rcases unixTimeSeconds now with e | time
    · rfl
    · rfl

/-- What `totp_verify` does once the code is checked. -/
def verifyOutcome (P : Platform) (draws : Draws) (accountId : Uuid) (device : ValidatedDevice)
    (challenge : AuthChallenge) (now : Time) (factor : TotpFactor) (acceptedStep : Option Nat) :
    Api Response := do
  match acceptedStep with
  | none => do
      incrementChallengeAttempts challenge.id now
      insertAuditEvent accountId none "mfa_totp_login_failed"
        (.obj [("factor_id", .str factor.id.toText)])
      commitAnd ApiError.mfaVerificationFailed.intoResponse
  | some acceptedStep => do
      acceptTotp P draws challenge accountId device factor acceptedStep now

/-- What `totp_verify` does with the locked row. -/
def verifyLocked (P : Platform) (draws : Draws) (request : TotpVerifyRequest) (accountId : Uuid)
    (device : ValidatedDevice) (challenge : AuthChallenge) (now : Time) (totpSeedKey : Bytes)
    (factor : TotpFactor) : Api Response := do
  let profile ← attempt (totpProfileFromRow factor)
  let acceptedStep ← attempt (checkFactorCode P totpSeedKey accountId factor.id factor now
    request.code profile)
  verifyOutcome P draws accountId device challenge now factor acceptedStep

/-- A verification: what comes before the lock on the factor, and what it does with the locked
row. -/
lemma totpVerify_eq {draws : Draws} {headers : HeaderMap} {request : TotpVerifyRequest} :
    totpVerify P state draws headers request = (do
      attempt (ensureUnsafeRequestContext headers)
      attempt (databasePool state)
      let totpSeedKey ← attempt (orUnavailable state.totpSeedKey)
      let now := nowUtcSecond (draws.clock 0)
      let challenge ← inTx (authChallenges.lockRows
        (isOpenChallenge request.mfaChallengeId .preMfa now))
      match challenge.head? with
      | none => fail .mfaVerificationFailed
      | some challenge => do
          let accountId ← attempt (orUnavailable challenge.accountId)
          attempt (ensure (decide (challenge.attempts < MFA_CHALLENGE_MAX_ATTEMPTS))
            .mfaVerificationFailed)
          let preMfaMetadata ← attempt (decodePreMfaChallengeMetadata
            (challenge.publicMetadata.readBack P))
          let device ← attempt preMfaMetadata.device.intoValidated
          let factor ← inTx (totpFactors.lockRows fun f =>
            f.accountId == accountId && f.verifiedAt.isSome)
          match factor.head? with
          | none => fail .mfaVerificationFailed
          | some factor =>
              verifyLocked P draws request accountId device challenge now totpSeedKey factor) := rfl

/-! ## The binding -/

/-- Whatever locks the row checks codes against the seed, with the profile in memory. -/
structure UsesSeed (P : Platform) (seedKey seed : Bytes) (f : TotpFactor) : Prop where
  verify : ∀ draws request accountId device challenge now,
    (f.accountId == accountId && f.verifiedAt.isSome) = true →
    verifyLocked P draws request accountId device challenge now seedKey f = (do
      let acceptedStep ← attempt (checkSeedCode P seed f now request.code
        .googleAuthenticatorDefault)
      verifyOutcome P draws accountId device challenge now f acceptedStep)
  confirm : ∀ draws request session now,
    (f.id == request.factorId && f.accountId == session.accountId) = true →
    confirmLocked P draws request session now seedKey f = (do
      attempt (ensure f.verifiedAt.isNone .mfaVerificationFailed)
      let acceptedStep ← attempt (checkSeedCode P seed f now request.code
        .googleAuthenticatorDefault)
      confirmOutcome P draws request session now acceptedStep)

/-- The row `f`, and the start `e₀` that it comes from. -/
structure SeedBound (P : Platform) (state : AppState) (sys : Service) (seedKey : Bytes)
    (f : TotpFactor) (e₀ : Entry Db Request) : Prop where
  /-- The start of the enrollment was committed, by a session of the account of the row. -/
  starts : Starts f.id e₀
  account : ∃ r, CookieOf P sys.history e₀.request r ∧ r.accountId = f.accountId
  /-- It hands its seed out, if it does not answer an error. -/
  returned : ∀ t ∈ sys.threads, t.request = e₀.request → ∀ r, t.program = .answer r →
    IsError r ∨ ReturnsSeed e₀.request r
  /-- That seed was encrypted to what the row holds, with associated data from memory. -/
  encrypted : encryptTotpSeed P seedKey f.seedNonce
    (totpSeedAad f.accountId (e₀.request.draws.uuid 0) .googleAuthenticatorDefault)
    e₀.request.seed = .ok f.seedCiphertext
  /-- The associated data from the row is the same, -/
  recomputed : ∃ profile, totpProfileFromRow f = .ok profile ∧
    totpSeedAad f.accountId f.id profile =
      totpSeedAad f.accountId (e₀.request.draws.uuid 0) .googleAuthenticatorDefault ∧
    decryptTotpSeed P seedKey f.seedNonce (totpSeedAad f.accountId f.id profile)
      f.seedCiphertext = .ok e₀.request.seed
  /-- so the endpoints use the seed. -/
  used : UsesSeed P seedKey e₀.request.seed f
  /-- With any other account, factor or profile nothing is decrypted. -/
  moved : ∀ accountId factorId (profile : Totp.TotpProfile), profile.Fits →
    (accountId, factorId, profile) ≠ (f.accountId, f.id, .googleAuthenticatorDefault) →
    ∀ seed, decryptTotpSeed P seedKey f.seedNonce (totpSeedAad accountId factorId profile)
      f.seedCiphertext ≠ .ok seed

/-- The seeds of all factors, in a state of the service. -/
structure SeedsBound (P : Platform) (state : AppState) (sys : Service) : Prop where
  apart : ∀ accountId accountId' factorId factorId' (profile profile' : Totp.TotpProfile),
    profile.Fits → profile'.Fits →
    (accountId, factorId, profile) ≠ (accountId', factorId', profile') →
    totpSeedAad accountId factorId profile ≠ totpSeedAad accountId' factorId' profile'
  rows : ∀ f ∈ sys.history.current.totpFactors, ∃ seedKey, state.totpSeedKey = some seedKey ∧
    ∃ e₀ ∈ sys.history.entries, SeedBound P state sys seedKey f e₀

lemma decryptTotpSeed_ok {key nonce aad ciphertext seed : Bytes} :
    decryptTotpSeed P key nonce aad ciphertext = .ok seed ↔
      nonce.length = XCHACHA20POLY1305_NONCE_BYTES ∧ P.decrypt key nonce aad ciphertext = some seed := by
  unfold decryptTotpSeed
  rw [bind_ok]
  simp

/-- What is encrypted under some associated data is decrypted under that, and under no other. -/
lemma decryptTotpSeed_ideal (hideal : Aead.Ideal P.encrypt P.decrypt)
    {key nonce aad seed ciphertext : Bytes} (hnonce : nonce.length = XCHACHA20POLY1305_NONCE_BYTES)
    (henc : encryptTotpSeed P key nonce aad seed = .ok ciphertext) {aad' seed' : Bytes} :
    decryptTotpSeed P key nonce aad' ciphertext = .ok seed' ↔ aad' = aad ∧ seed' = seed := by
  rw [decryptTotpSeed_ok, hideal (orUnavailable_ok.mp henc)]
  simp [hnonce]

lemma fits_default : Totp.TotpProfile.googleAuthenticatorDefault.Fits := by
  unfold Totp.TotpProfile.Fits
  decide

/-- **Seeds are bound to their rows**, in every reachable state of the service under one key: the
row of a factor decrypts to the seed that the start of its enrollment handed out, and what it holds
decrypts in no row of another account, factor or profile. -/
theorem seeds_bound {sys : Service} (hideal : Aead.Ideal P.encrypt P.decrypt)
    (h : Reachable P state sys) : SeedsBound P state sys := by
  refine ⟨?_, fun f hmem => ?_⟩
  · intro accountId accountId' factorId factorId' profile profile' hfits hfits' hne heq
    obtain ⟨rfl, rfl, rfl⟩ := totpSeedAad_inj hfits hfits' heq
    exact hne rfl
  obtain ⟨e₀, he₀, hstarts, hseed, haccount⟩ := h.run.startedBy (Rows.find?_of_mem hmem)
  obtain ⟨seedKey, hkey, henc⟩ := hseed.encrypts
  have hid : e₀.request.draws.uuid 0 = f.id := hstarts.drawn
  have hnonce : f.seedNonce = e₀.request.draws.bytes 1 XCHACHA20POLY1305_NONCE_BYTES :=
    congrArg TotpFactor.seedNonce hseed.row
  have hlength : f.seedNonce.length = XCHACHA20POLY1305_NONCE_BYTES := by
    rw [hnonce, e₀.request.draws.bytes_length]
  rw [← hnonce] at henc
  have hdecrypt : decryptTotpSeed P seedKey f.seedNonce
      (totpSeedAad f.accountId f.id .googleAuthenticatorDefault) f.seedCiphertext =
        .ok e₀.request.seed :=
    (decryptTotpSeed_ideal hideal hlength henc).mpr ⟨by rw [hid], rfl⟩
  have hcheck : ∀ now code, checkFactorCode P seedKey f.accountId f.id f now code
      .googleAuthenticatorDefault =
        checkSeedCode P e₀.request.seed f now code .googleAuthenticatorDefault := fun now code =>
    checkFactorCode_eq (congrArg TotpFactor.seedKeyId hseed.row)
      (congrArg TotpFactor.seedAead hseed.row) hdecrypt
  refine ⟨seedKey, hkey, e₀, he₀, hstarts, haccount, ?_, henc, ?_, ⟨?_, ?_⟩, ?_⟩
  · intro t ht hreq r hr
    obtain ⟨headers, hq⟩ := hstarts.starts
    have hends := h.ends (fun q => ∃ headers, q.action = .totpEnrollStart headers)
      (fun q r => IsError r ∨ ReturnsSeed q r) (fun _ => IsError)
      (fun q ⟨_, hq⟩ => totpEnrollStart_ends hq) ht ⟨headers, hreq ▸ hq⟩
    rcases hends.answered hr with ⟨herror, -⟩ | ⟨hdone, -⟩
    · exact .inl herror
    · rw [← hreq]
      exact hdone
  · exact ⟨_, hseed.profile, by rw [hid], hdecrypt⟩
  · intro draws request accountId device challenge now hlock
    rw [Bool.and_eq_true, beq_iff_eq] at hlock
    obtain ⟨rfl, -⟩ := hlock
    unfold verifyLocked
    rw [hseed.profile]
    show (do
      let acceptedStep ← attempt (checkFactorCode P seedKey f.accountId f.id f now request.code
        .googleAuthenticatorDefault)
      verifyOutcome P draws f.accountId device challenge now f acceptedStep) = _
    rw [hcheck]
  · intro draws request session now hlock
    rw [Bool.and_eq_true, beq_iff_eq, beq_iff_eq] at hlock
    unfold confirmLocked
    rw [hseed.profile, ← hlock.1, ← hlock.2]
    show (do
      attempt (ensure f.verifiedAt.isNone .mfaVerificationFailed)
      let acceptedStep ← attempt (checkFactorCode P seedKey f.accountId f.id f now request.code
        .googleAuthenticatorDefault)
      confirmOutcome P draws request session now acceptedStep) = _
    rw [hcheck]
  · intro accountId factorId profile hfits hne seed hmoved
    obtain ⟨haad, -⟩ := (decryptTotpSeed_ideal hideal hlength henc).mp hmoved
    obtain ⟨rfl, rfl, rfl⟩ := totpSeedAad_inj hfits fits_default haad
    exact hne (by rw [hid])

/-! ### A run -/

/-- What the seed of Alice's factor is encrypted with. -/
def firstSealing : Aead.Sealing where
  key := List.replicate 32 9
  nonce := drawnBytes 3 1 XCHACHA20POLY1305_NONCE_BYTES
  aad := totpSeedAad 17 (drawnId 3) .googleAuthenticatorDefault

def firstCiphertext : Bytes :=
  Aead.xchacha20Poly1305.encrypt firstSealing.key firstSealing.nonce firstSealing.aad
    (drawnBytes 3 0 TOTP_SEED_BYTES)

/-- The platform with an ideal cipher, which encrypts Alice's seed as the real one does. -/
def idealized : Platform :=
  { standard with
    encrypt := Aead.spellingEncrypt 0 firstSealing (drawnBytes 3 0 TOTP_SEED_BYTES) firstCiphertext
    decrypt := Aead.spellingDecrypt 0 firstSealing (drawnBytes 3 0 TOTP_SEED_BYTES) firstCiphertext }

/-- Alice registers and starts an enrollment. -/
def firstStart : Service :=
  System.handleAll (serve idealized configured) ⟨⟨[], {}⟩, []⟩ (requests (firstItem.take 4))

lemma firstStart_reachable : Reachable idealized configured firstStart :=
  System.Reaches.handleAll (requests_fresh (by decide) (tokenHashes_nodup (by decide)))

/-- Alice's pending factor is bound to her account and to the seed that she was handed. -/
theorem seeds_bound_firstStart : SeedsBound idealized configured firstStart ∧
    (firstStart.history.current.totpFactors.find? (drawnId 3)).map TotpFactor.seedCiphertext =
      some firstCiphertext :=
  ⟨seeds_bound (Aead.ideal_spelling _ _ _ _ (by decide +kernel)) firstStart_reachable,
    by decide +kernel⟩

end PasswordVault
