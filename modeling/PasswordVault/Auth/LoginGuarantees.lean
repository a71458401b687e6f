import PasswordVault.Auth.SessionGuarantees

/-!
# Handlers keep to the effects: registration and password login

`registerStart`, `loginStart`, `registerFinish` and `loginFinish` commit only their effects. For
`loginFinish` also what its answer says about the second factor of the account (`LoginAnswer`).
-/

namespace PasswordVault

open Transactions

variable {P : Platform} {state : AppState} {q : Request} {Post : Log → Response → Prop}

section pieces

variable {c : Connection Db Lock} {F : Log → Prop}

lemma holds_cleanupExpiredChallenges {next : Unit → ApiProgram} (herr : ErrorsOk Post)
    (hissues : q.action.issues.isSome = true) (hF : Kept P state [] F) (hc : c.locks = []) (h : Holds P state q Post c F (next ())) :
    Holds P state q Post c F (cleanupExpiredChallenges q.draws next) := by
  unfold cleanupExpiredChallenges
  refine Sat.deleteAlone (T := authChallenges) hF hc (unavailable_ok herr) ?_ fun n => h
  intro H rows _ hrows
  refine .cleanup hissues fun id hid => ?_
  obtain ⟨r, hr, rfl⟩ := List.mem_map.mp hid
  obtain ⟨hmem, hexpired⟩ := hrows r hr
  exact ⟨r, hmem, rfl, by simpa using hexpired⟩

lemma holds_enforceChallengeRateLimit {handle : String} {challengeType : ChallengeType}
    {next : Unit → ApiProgram} (herr : ErrorsOk Post) (hF : Kept P state [] F) (hc : c.locks = [])
    (h : ∀ F', Kept P state [] F' → (∀ H, F' H → F H) → Holds P state q Post c F' (next ())) :
    Holds P state q Post c F (enforceChallengeRateLimit q.draws handle challengeType next) := by
  unfold enforceChallengeRateLimit
  refine Sat.queryAlone hF hc (unavailable_ok herr) (fun H => .idle) ?_
  intro count F' hF' hcount
  dsimp only
  split
  · exact holds_fail herr
  · exact h F' hF' fun H hH => (hcount H hH).1

lemma holds_loadLoginMetadata {handle : String} {next : Option LoginMetadata → ApiProgram}
    (herr : ErrorsOk Post) (hF : Kept P state [] F) (hc : c.locks = [])
    (h : ∀ metadata F', Kept P state [] F' → (∀ H, F' H → F H) →
      Holds P state q Post c F' (next metadata)) :
    Holds P state q Post c F (loadLoginMetadata handle next) := by
  unfold loadLoginMetadata
  refine Sat.queryAlone hF hc (unavailable_ok herr) (fun H => .idle) ?_
  intro row F' hF' hrow
  dsimp only
  rcases row with _ | row
  · exact h none F' hF' fun H hH => (hrow H hH).1
  · dsimp only
    split
    · exact holds_fail herr
    · exact h _ F' hF' fun H hH => (hrow H hH).1

/-- Issuing a register or login challenge. -/
lemma holds_insertChallenge {accountId : Option Uuid} {handle : String}
    {challengeType : ChallengeType} {nonce : Bytes} {metadata : ChallengeMetadata} {expires : Time}
    {next : Unit → ApiProgram} (herr : ErrorsOk Post) (hF : Kept P state [] F) (hc : c.locks = [])
    (hissues : q.action.issues = some (.ok handle, challengeType))
    (hexpires : expires = nowUtcSecond (q.draws.clock 1) + challengeTtl challengeType)
    (h : Holds P state q Post c F (next ())) :
    Holds P state q Post c F (onPool (authChallenges.insert (newChallenge q.draws (q.draws.uuid 0)
      accountId handle challengeType nonce metadata expires)) next) := by
  unfold onPool
  refine Sat.insertAlone (T := authChallenges) hF hc (unavailable_ok herr) ?_ h
  intro H _ hcheck hnew haccount
  exact .challengeIssued rfl hissues rfl rfl rfl hexpires haccount hnew hcheck

end pieces

lemma isOpenChallenge_id {id : Uuid} {challengeType : ChallengeType} {now : Time}
    {c : AuthChallenge} (h : isOpenChallenge id challengeType now c = true) : c.id = id := by
  simp only [isOpenChallenge, Bool.and_eq_true, beq_iff_eq] at h
  exact h.1.1.1.1

/-- Consuming a challenge gets in the way of no new one. -/
lemma consumed_keeps_entries (ch : AuthChallenge) (now : Time) (s : Db) :
    ∀ x ∈ authChallenges.get s, authChallenges.index.key x ∉ [] →
      ∃ y ∈ authChallenges.get (authChallenges.putAll [ch.consumed now] s),
        authChallenges.index.key y = authChallenges.index.key x ∧
        authChallenges.index.entries y = authChallenges.index.entries x := by
  intro x hx _
  by_cases hid : x.id = ch.id
  · exact ⟨ch.consumed now, Rows.mem_put.mpr (.inl rfl), hid.symm, rfl⟩
  · exact ⟨x, Rows.mem_put.mpr (.inr ⟨hx, hid⟩), rfl, rfl⟩

/-! ## Starting -/

lemma registerStart_holds (hP : ∀ H r, Post H r) {request : RegisterStartRequest}
    (hq : q.action = .registerStart request) {F : Log → Prop} (hF : Kept P state [] F) :
    Holds P state q Post noTransaction F (registerStart P state q.draws request).run := by
  have herr : ErrorsOk Post := fun _ H => hP H _
  have hissues : q.action.issues = some (normalizeLoginHandle request.loginHandle, .register) := by
    rw [hq, Action.issues]
  unfold registerStart Handler.run
  generalize normalizeLoginHandle request.loginHandle = normalized at hissues ⊢
  refine holds_attempt herr fun _ _ => holds_attempt herr fun _ _ => ?_
  refine holds_attempt herr fun handle hhandle => ?_
  refine holds_cleanupExpiredChallenges herr (by rw [hissues]; rfl) hF rfl ?_
  refine holds_enforceChallengeRateLimit herr hF rfl fun F' hF' _ => ?_
  refine holds_insertChallenge herr hF' rfl (hhandle ▸ hissues) rfl ?_
  exact holds_attempt herr fun _ _ => Sat.answer fun _ H' _ _ _ => hP H' _

lemma loginStart_holds (hP : ∀ H r, Post H r) {request : LoginStartRequest}
    (hq : q.action = .loginStart request) {F : Log → Prop} (hF : Kept P state [] F) :
    Holds P state q Post noTransaction F (loginStart P state q.draws request).run := by
  have herr : ErrorsOk Post := fun _ H => hP H _
  have hissues : q.action.issues = some (normalizeLoginHandle request.loginHandle, .login) := by
    rw [hq, Action.issues]
  unfold loginStart Handler.run
  generalize normalizeLoginHandle request.loginHandle = normalized at hissues ⊢
  refine holds_attempt herr fun _ _ => holds_attempt herr fun _ _ => ?_
  refine holds_attempt herr fun key _ => holds_attempt herr fun handle hhandle => ?_
  refine holds_attempt herr fun nonce _ => ?_
  refine holds_cleanupExpiredChallenges herr (by rw [hissues]; rfl) hF rfl ?_
  refine holds_enforceChallengeRateLimit herr hF rfl fun F' hF' _ => ?_
  refine holds_loadLoginMetadata herr hF' rfl fun metadata F'' hF'' _ => ?_
  refine holds_insertChallenge herr hF'' rfl (hhandle ▸ hissues) rfl ?_
  exact holds_attempt herr fun _ _ => Sat.answer fun _ H' _ _ _ => hP H' _

/-! ## Finishing a registration -/

lemma registrationOrUnavailable_ok (herr : ErrorsOk Post) :
    ∀ e H, Post H (registrationOrUnavailable e) := by
  intro e H
  cases e with
  | uniqueViolation => exact herr .registrationUnavailable H
  | other => exact herr .serviceUnavailable H

lemma registerFinish_holds (hP : ∀ H r, Post H r) {request : RegisterFinishRequest}
    (hq : q.action = .registerFinish request) {F : Log → Prop} (hF : Kept P state [] F) :
    Holds P state q Post noTransaction F (registerFinish P state q.draws request).run := by
  have herr : ErrorsOk Post := fun _ H => hP H _
  unfold registerFinish Handler.run
  refine holds_attempt herr fun _ _ => holds_attempt herr fun _ _ => ?_
  refine holds_attempt herr fun v hv => ?_
  refine Sat.lockRows (T := authChallenges) hF (unavailable_ok herr) (fun _ => rfl) ?_
  intro rows F₁ hF₁ _ hopen hfound
  dsimp only
  rcases hhead : rows.head? with _ | ch
  · exact holds_fail herr
  · have hmem : ch ∈ rows := List.mem_of_head? hhead
    refine holds_attempt herr fun metadata _ => holds_attempt herr fun accountSalt _ => ?_
    refine holds_attempt herr fun authVerifierSalt _ => ?_
    refine Sat.insertNew (T := accounts) [] hF₁ (registrationOrUnavailable_ok herr)
      (fun s x hx _ => ⟨x, hx, rfl, rfl⟩) fun locks₂ F₂ _ hF₂ hsub₂ _ haccount => ?_
    refine Sat.insertNew (T := accountKeysets) [] hF₂ (unavailable_ok herr)
      (fun s x hx _ => ⟨x, hx, rfl, rfl⟩) fun locks₃ F₃ _ hF₃ hsub₃ _ hkeyset => ?_
    refine Sat.insertNew (T := devices) [] hF₃ (unavailable_ok herr)
      (fun s x hx _ => ⟨x, hx, rfl, rfl⟩) fun locks₄ F₄ _ hF₄ hsub₄ _ hdevice => ?_
    refine Sat.insertNew (T := vaults) [] hF₄ (registrationOrUnavailable_ok herr)
      (fun s x hx _ => ⟨x, hx, rfl, rfl⟩) fun locks₅ F₅ _ hF₅ hsub₅ _ hvault => ?_
    refine Sat.insertNew (T := vaultKeyWraps) [] hF₅ (unavailable_ok herr)
      (fun s x hx _ => ⟨x, hx, rfl, rfl⟩) fun locks₆ F₆ _ hF₆ hsub₆ _ hkeyWrap => ?_
    refine Sat.insertNew (T := sessions) [] hF₆ (unavailable_ok herr)
      (fun s x hx _ => ⟨x, hx, rfl, rfl⟩) fun locks₇ F₇ _ hF₇ hsub₇ _ hsession => ?_
    refine holds_insertAuditEvent herr hF₇ fun event => ?_
    have hH₅ : ∀ H, F₇ H → F₅ H := fun H hH => hsub₆ H (hsub₇ H hH)
    have hH₃ : ∀ H, F₇ H → F₃ H := fun H hH => hsub₄ H (hsub₅ H (hH₅ H hH))
    have hch : ∀ H, F₇ H → H.current.authChallenges.find? ch.id = some ch :=
      fun H hH => hfound ch hmem H (hsub₂ H (hsub₃ H (hH₃ H hH)))
    refine holds_consumeAuthChallenge (d := ch) herr hF₇ (isOpenChallenge_id (hopen ch hmem)) hch ?_
    intro locks₈ _ hF₈
    refine Sat.commit hF₈ (fun H => herr .serviceUnavailable H) ?_ fun _ H' _ _ _ => hP H' _
    intro H _ hH
    exact Effect.registered hq hv (hch H hH) (hopen ch hmem) rfl
      (haccount H (hsub₃ H (hH₃ H hH))) (hkeyset H (hH₃ H hH))
      (hdevice H (hsub₅ H (hH₅ H hH))) (hvault H (hH₅ H hH)) (hkeyWrap H (hsub₇ H hH))
      (hsession H hH)

/-! ## Finishing a login -/

/-- All commits of the one log were already made at the other. -/
abbrev Since (P : Platform) (state : AppState) (H H' : Log) : Prop :=
  Later (Guarantee P state) (Fresh P) ({} : Db) H H'

/-- What an answer of `login_finish` to a request that arrived at `born` tells at `H`: it is an
error, or it asks for the second factor, or the account of the login challenge had no verified
factor at some moment in between. -/
def LoginAnswer (P : Platform) (state : AppState) (q : Request) (born H : Log) (r : Response) :
    Prop :=
  (∃ e : ApiError, r = e.intoResponse) ∨
  (∃ id methods expires, r.body = .loginFinishMfaRequired "mfa_required" id methods expires) ∨
  ∃ (ch : AuthChallenge) (accountId : Uuid) (H₀ : Log), ch.accountId = some accountId ∧
    (∃ e ∈ H.entries, e.request = q ∧ e.closing = true ∧
      e.before.authChallenges.find? ch.id = some ch) ∧
    (∃ headers request, q.action = .loginFinish headers request ∧
      ch.id = request.loginChallengeId) ∧
    Since P state born H₀ ∧ Since P state H₀ H ∧
    selectActiveTotpFactor accountId H₀.current = none

lemma loginAnswer_error (born : Log) : ErrorsOk (LoginAnswer P state q born) :=
  fun e _ => .inl ⟨e, rfl⟩

lemma orError_ok {x : Except ApiError Response} {k : Response → Prop}
    (herr : ∀ e : ApiError, k e.intoResponse) (h : ∀ r, x = .ok r → k r) : k (orError x) := by
  unfold orError
  split
  · exact h _ rfl
  · exact herr _

section login

variable {c : Connection Db Lock} {F : Log → Prop}

lemma holds_checkProof {ch : AuthChallenge} {metadata : LoginChallengeMetadata}
    {v : ValidatedLoginFinish} {next : Bool → ApiProgram} (herr : ErrorsOk Post)
    (hF : Kept P state c.locks F)
    (hbad : ∀ writes F', (writes = c.writes ∨ ∃ event, writes = Db.audited event ∘ c.writes) →
      Kept P state c.locks F' → (∀ H, F' H → F H) →
      Holds P state q Post ⟨writes, c.locks⟩ F' (next false))
    (hgood : ∀ F', Kept P state c.locks F' → (∀ H, F' H → F H) →
      Holds P state q Post c F' (next true)) :
    Holds P state q Post c F (checkProof P ch metadata v next) := by
  unfold checkProof
  rcases ch.accountId.filter fun _ => !metadata.synthetic with _ | accountId
  · exact hbad c.writes F (.inl rfl) hF fun _ hH => hH
  · refine Sat.query hF (unavailable_ok herr) fun account F' hF' hfound => ?_
    have hsub : ∀ H, F' H → F H := fun H hH => (hfound H hH).1
    have hresult : ∀ ok : Bool, Holds P state q Post c F'
        ((do
          if !ok then
            insertAuditEvent accountId none "auth_login_failed"
              (.obj [("reason", .str "proof_failed")])
          pure ok : Api Bool) next) := by
      intro ok
      cases ok with
      | true => exact hgood F' hF' hsub
      | false =>
          refine holds_insertAuditEvent herr hF' fun event => ?_
          exact hbad _ F' (.inr ⟨event, rfl⟩) hF' hsub
    rcases account with _ | account
    · exact hresult false
    · refine holds_attempt herr fun key _ => holds_attempt herr fun ok _ => ?_
      exact hresult ok

end login

lemma loginFinish_holds {headers : HeaderMap} {request : LoginFinishRequest}
    (hq : q.action = .loginFinish headers request) (born : Log) :
    Holds P state q (LoginAnswer P state q born) noTransaction (Since P state born)
      (loginFinish P state q.draws headers request).run := by
  have herr : ErrorsOk (LoginAnswer P state q born) := loginAnswer_error born
  have hdone : ∀ H : Log, LoginAnswer P state q born H (unavailable .other) :=
    fun H => herr .serviceUnavailable H
  unfold loginFinish Handler.run
  refine holds_attempt herr fun _ _ => holds_attempt herr fun _ _ => ?_
  refine holds_attempt herr fun v hv => ?_
  refine Sat.lockRows (T := authChallenges) (Stable.later _ _) (unavailable_ok herr)
    (fun _ => rfl) ?_
  intro rows F₁ hF₁ hsub₁ hopen hfound
  dsimp only
  rcases hhead : rows.head? with _ | ch
  · exact holds_fail herr
  · have hmem : ch ∈ rows := List.mem_of_head? hhead
    refine holds_attempt herr fun metadata _ => ?_
    dsimp only
    split
    · refine holds_consumeAuthChallenge herr hF₁ rfl (hfound ch hmem) fun locks _ hF₂ => ?_
      refine Sat.commit hF₂ hdone (fun H _ hH => ?_) fun _ H' _ _ _ => herr .authFailed H'
      exact .loginRefused hq (hfound ch hmem H hH) (hopen ch hmem) (.inl rfl)
    · refine holds_checkProof herr hF₁ ?_ ?_
      · intro writes F₂ hwrites hF₂ hsub₂
        dsimp only
        rw [if_pos rfl]
        refine holds_consumeAuthChallenge (d := ch) herr hF₂ rfl ?_ fun locks _ hF₃ => ?_
        · intro H hH
          rcases hwrites with rfl | ⟨event, rfl⟩
          · exact hfound ch hmem H (hsub₂ H hH)
          · exact hfound ch hmem H (hsub₂ H hH)
        · refine Sat.commit hF₃ hdone (fun H _ hH => ?_) fun _ H' _ _ _ => herr .authFailed H'
          have hch := hfound ch hmem H (hsub₂ H hH)
          rcases hwrites with rfl | ⟨event, rfl⟩
          · exact .loginRefused hq hch (hopen ch hmem) (.inl rfl)
          · exact .loginRefused hq hch (hopen ch hmem) (.inr ⟨event, rfl⟩)
      · intro F₂ hF₂ hsub₂
        dsimp only
        rw [if_neg (by simp)]
        refine holds_attempt herr fun accountId haccount => ?_
        rw [orUnavailable_ok] at haccount
        refine holds_consumeAuthChallenge (d := ch) herr hF₂ rfl
          (fun H hH => hfound ch hmem H (hsub₂ H hH)) fun locks _ hF₃ => ?_
        refine Sat.query hF₃ (unavailable_ok herr) fun factor F₄ hF₄ hfactor => ?_
        have hsub₄ : ∀ H, F₄ H → F₁ H := fun H hH => hsub₂ H (hfactor H hH).1
        dsimp only
        split
        · rename_i hsome
          refine Sat.insertNew (T := authChallenges) [] hF₄ (unavailable_ok herr)
            (consumed_keeps_entries ch q.now) ?_
          intro locks₅ F₅ _ hF₅ hsub₅ hcheck hnew
          refine holds_insertAuditEvent herr hF₅ fun event => ?_
          refine Sat.commit hF₅ hdone ?_ ?_
          · intro H _ hH
            refine .mfaIssued hq (hfound ch hmem H (hsub₄ H (hsub₅ H hH))) (hopen ch hmem)
              haccount ?_ (hnew H hH) hcheck ⟨v, hv, rfl⟩
            obtain ⟨-, H₀, -, hrun₀, hlater, rfl⟩ := hfactor H (hsub₅ H hH)
            exact hlater.saw hrun₀ hsome
          · intro H H' _ _ _
            refine orError_ok (k := LoginAnswer P state q born H') (fun e => herr e H') ?_
            intro r hr
            obtain ⟨expires, -, hr⟩ := bind_ok.mp hr
            obtain rfl := Except.ok.inj hr
            exact .inr (.inl ⟨_, _, _, rfl⟩)
        · rename_i hnone
          rw [Bool.not_eq_true, Option.isSome_eq_false_iff, Option.isNone_iff_eq_none] at hnone
          refine holds_createSessionWithDevice herr hF₄ (fun s => rfl) (fun s => rfl) ?_
          intro locks₅ F₅ hF₅ hsub₅ hdevice hnew
          refine holds_insertAuditEvent herr hF₅ fun event => ?_
          refine Sat.commit hF₅ hdone ?_ ?_
          · intro H _ hH
            refine .setupSession hq (hfound ch hmem H (hsub₄ H (hsub₅ H hH))) (hopen ch hmem)
              haccount ?_ (hdevice H hH) (hnew H hH)
            obtain ⟨-, H₀, -, hrun₀, hlater, rfl⟩ := hfactor H (hsub₅ H hH)
            exact hlater.saw hrun₀ hnone
          · intro H H' _ hH hlater'
            refine orError_ok (k := LoginAnswer P state q born H') (fun e => herr e H') ?_
            intro r _
            obtain ⟨-, H₀, hK₀, -, hlater, rfl⟩ := hfactor H (hsub₅ H hH)
            have hcommitted := hlater'.entries_subset _ (List.mem_append_right _ List.mem_cons_self)
            refine .inr (.inr ⟨ch, accountId, H₀, haccount, ⟨_, hcommitted, rfl, rfl, ?_⟩,
              ⟨headers, request, hq, isOpenChallenge_id (hopen ch hmem)⟩,
              hsub₁ H₀ (hsub₂ H₀ hK₀), ?_, hnone⟩)
            · exact hfound ch hmem H (hsub₄ H (hsub₅ H hH))
            · exact ⟨hlater'.1, hlater.2.trans ((List.prefix_append _ _).trans hlater'.2)⟩

end PasswordVault
