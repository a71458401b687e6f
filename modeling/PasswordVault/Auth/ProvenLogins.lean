import PasswordVault.Auth.Registrations
import PasswordVault.Auth.SecondFactor

/-!
# A login is decided once, by its proof

* `Proven`: the proof of a `login_finish` is accepted by the stored key of the account that the
  challenge belongs to, over the message of that challenge.
* `LoginDecision`: what the commit of a `login_finish` does. It spends the challenge, and it admits
  the login if and only if the login is proven.
* `serve_decides`: every commit of a `login_finish` decides on what it has read. It is a second
  contract of the service, which asks nothing of the other endpoints.
* `proven_logins`: the guarantees in every reachable state.
-/

namespace PasswordVault

open Transactions

variable {P : Platform} {state : AppState} {q : Request} {H : Log} {b : Bool} {s s' : Db}
  {c : AuthChallenge} {v : ValidatedLoginFinish} {accountId : Uuid}

/-! ## Proven logins -/

/-- The challenge is of the account, and the stored key of the account accepts the proof over the
message of the challenge. -/
structure Proven (P : Platform) (c : AuthChallenge) (v : ValidatedLoginFinish) (accountId : Uuid)
    (s : Db) : Prop where
  account : c.accountId = some accountId
  /-- The request names the nonces that were issued, and the challenge is not synthetic. -/
  issued : ∃ metadata, decodeLoginChallengeMetadata c.publicMetadata = .ok metadata ∧
    metadataMatches c metadata v = true ∧ metadata.synthetic = false
  accepted : ∃ account, selectLoginAccount accountId c.loginHandleNormalized s = some account ∧
    account.authStoredKey.length = AUTH_KEY_BYTES ∧
    Scram.verifyClientProof P account.authStoredKey (loginFinishAuthMessage c v) v.clientProof =
      some true

/-- How the commit of a `login_finish` decides on its challenge: it was `denied`, or `proven` for
an account. -/
inductive LoginDecision (P : Platform) (q : Request) (c : AuthChallenge) (v : ValidatedLoginFinish)
    (denied : Prop) (proven : Uuid → Prop) (s s' : Db) : Prop
  /-- The challenge is consumed, and that is all but for the audit. -/
  | refused {kept : Db} (h : denied) (hkept : kept = s ∨ ∃ event, kept = s.audited event)
      (hs' : s' = authChallenges.putAll [c.consumed q.now] kept)
  /-- The challenge is consumed, and one for the second factor is issued. -/
  | asks {accountId : Uuid} {event : AuditEvent} (h : proven accountId)
      (hnew : s.authChallenges.find? (q.draws.uuid 2) = none)
      (hs' : s' = Db.audited event
        (authChallenges.putAll [preMfaChallenge q.draws accountId c v.device q.now]
          (authChallenges.putAll [c.consumed q.now] s)))
  /-- The challenge is consumed, and a session to enroll a second factor is created. -/
  | enrolls {accountId : Uuid} {event : AuditEvent} (h : proven accountId)
      (hs' : s' = Db.audited event
        (sessions.putAll [newSession P q.draws accountId .mfaEnrollmentRequired q.now]
          (devices.putAll [newDevice q.draws accountId v.device q.now]
            (authChallenges.putAll [c.consumed q.now] s))))

lemma LoginDecision.mono {denied denied' : Prop} {proven proven' : Uuid → Prop}
    (h : LoginDecision P q c v denied proven s s') (hdenied : denied → denied')
    (hproven : ∀ A, proven A → proven' A) : LoginDecision P q c v denied' proven' s s' := by
  cases h with
  | refused h hkept hs' => exact .refused (hdenied h) hkept hs'
  | asks h hnew hs' => exact .asks (hproven _ h) hnew hs'
  | enrolls h hs' => exact .enrolls (hproven _ h) hs'

/-- Whatever it decides, it spends the challenge. -/
lemma LoginDecision.spends {denied : Prop} {proven : Uuid → Prop}
    (h : LoginDecision P q c v denied proven s s') (hc : s.authChallenges.find? c.id = some c) :
    s'.authChallenges.find? c.id = some (c.consumed q.now) := by
  have hput : ∀ t : Db, (authChallenges.putAll [c.consumed q.now] t).authChallenges.find? c.id =
      some (c.consumed q.now) := fun t => Rows.find?_put_self t.authChallenges (c.consumed q.now)
  cases h with
  | refused h hkept hs' =>
      rw [hs']
      exact hput _
  | @asks A event h hnew hs' =>
      have hne : q.draws.uuid 2 ≠ c.id := by
        intro hid
        rw [hid, hc] at hnew
        cases hnew
      have hother := Rows.find?_put (authChallenges.putAll [c.consumed q.now] s).authChallenges
        (preMfaChallenge q.draws A c v.device q.now) c.id
      rw [if_neg (show (preMfaChallenge q.draws A c v.device q.now).id ≠ c.id from hne)] at hother
      rw [hs']
      exact hother.trans (hput s)
  | enrolls h hs' =>
      rw [hs']
      exact hput s

/-! ## The accounts stay -/

lemma AccountMove.find? (h : AccountMove P q H b s') {A : Uuid} {a : Account}
    (hA : H.current.accounts.find? A = some a) : s'.accounts.find? A = some a := by
  cases h with
  | kept haccounts => rwa [haccounts]
  | @created request v c metadata accountSalt authVerifierSalt rows _ _ _ _ _ _ _ hnew haccounts =>
      rw [haccounts, Rows.find?_put]
      split
      · rename_i hid
        have hnone : H.current.accounts.find? rows.account.id = none := Table.find?_of_new hnew
        rw [← hid, hnone] at hA
        cases hA
      · exact hA

/-- An account that was seen is still there, as it was. -/
lemma ServiceRun.account_kept (h : ServiceRun P state H) {A : Uuid} {a : Account}
    (hA : H.Saw fun s => s.accounts.find? A = some a) : H.current.accounts.find? A = some a :=
  Run.of_saw (p := fun s => s.accounts.find? A = some a)
    (fun _ _ _ _ _ heff hA => (Effect.accountMove heff).find? hA) h hA

/-- Whatever was seen was seen in a state whose rows are anchored. -/
lemma ServiceRun.saw_anchored (h : ServiceRun P state H) {p : Db → Prop} (hp : H.Saw p) :
    H.Saw fun s => Anchored s ∧ p s := by
  refine Run.invariant (K := fun H => ServiceRun P state H → H.Saw p →
    H.Saw fun s => Anchored s ∧ p s) ?_ ?_ h h hp
  · rintro hrun (hp | ⟨e, he, -⟩)
    · exact .inl ⟨hrun.anchored, hp⟩
    · cases he
  · intro H q b s hrun _ _ ih hpush hp
    rcases History.saw_push.mp hp with hp | hp
    · exact .inl ⟨hpush.anchored, hp⟩
    · exact (ih hrun hp).push q b s

/-- What a login has read of its account while the challenge was there. -/
abbrev Judged (H : Log) (c : AuthChallenge) (p : Db → Prop) : Prop :=
  H.Saw fun s => s.authChallenges.find? c.id = some c ∧ p s

/-- A login that was proven is. -/
lemma Proven.of_judged (hrun : ServiceRun P state H) (h : Judged H c (Proven P c v accountId)) :
    Proven P c v accountId H.current := by
  have hseen : ∃ s, Proven P c v accountId s ∧ ∀ a, s.accounts.find? accountId = some a →
      H.current.accounts.find? accountId = some a := by
    rcases h with h | ⟨e, he, h⟩
    · exact ⟨_, h.2, fun a ha => ha⟩
    · exact ⟨_, h.2, fun a ha => hrun.account_kept (.inr ⟨e, he, ha⟩)⟩
  obtain ⟨s, hproven, hkept⟩ := hseen
  obtain ⟨account, hselect, hkey⟩ := hproven.accepted
  obtain ⟨hfind, hmatch⟩ := Option.filter_eq_some_iff.mp hselect
  exact ⟨hproven.account, hproven.issued, account,
    Option.filter_eq_some_iff.mpr ⟨hkept account hfind, hmatch⟩, hkey⟩

/-- A login that was not proven is not: its account was there with the challenge. -/
lemma Proven.not_of_judged (hrun : ServiceRun P state H)
    (h : Judged H c fun s => ∀ A, ¬ Proven P c v A s) (A : Uuid) :
    ¬ Proven P c v A H.current := by
  intro hproven
  have hseen : ∃ s, Anchored s ∧ s.authChallenges.find? c.id = some c ∧ ¬ Proven P c v A s ∧
      ∀ a, s.accounts.find? A = some a → H.current.accounts.find? A = some a := by
    rcases hrun.saw_anchored h with h | ⟨e, he, h⟩
    · exact ⟨_, h.1, h.2.1, h.2.2 A, fun a ha => ha⟩
    · exact ⟨_, h.1, h.2.1, h.2.2 A, fun a ha => hrun.account_kept (.inr ⟨e, he, ha⟩)⟩
  obtain ⟨s, hanchored, hc, hunproven, hkept⟩ := hseen
  have hhas := hanchored.challenges c (Rows.find?_eq_some.mp hc).1
  rw [hproven.account, Option.all_some, Db.hasAccount, Option.isSome_iff_exists] at hhas
  obtain ⟨a, ha⟩ := hhas
  obtain ⟨account, hselect, hkey⟩ := hproven.accepted
  obtain ⟨hfind, hmatch⟩ := Option.filter_eq_some_iff.mp hselect
  rw [hkept a ha] at hfind
  obtain rfl := Option.some.inj hfind
  exact hunproven ⟨hproven.account, hproven.issued, a,
    Option.filter_eq_some_iff.mpr ⟨ha, hmatch⟩, hkey⟩

/-! ## The contract of a login -/

/-- What a `login_finish` guarantees of its commits: it decides on what it has read. -/
def DecidesLogin (P : Platform) (q : Request) (b : Bool) (H : Log) (s' : Db) : Prop :=
  ∀ headers request, q.action = .loginFinish headers request → b = true ∧ ∃ c v,
    request.validate = .ok v ∧ H.current.authChallenges.find? c.id = some c ∧
    isOpenChallenge request.loginChallengeId .login q.now c = true ∧
    LoginDecision P q c v (Judged H c fun s => ∀ A, ¬ Proven P c v A s)
      (fun A => Judged H c (Proven P c v A)) H.current s'

/-- What an answer of a `login_finish` tells: it is an error, or a commit of the request has
admitted the login. -/
def TellsLogin (P : Platform) (q : Request) (H : Log) (r : Response) : Prop :=
  (∃ code message, r.body = .error code message) ∨
  ∃ (H₁ : Log) (s' : Db) (headers : HeaderMap) (request : LoginFinishRequest) (c : AuthChallenge)
    (v : ValidatedLoginFinish) (A : Uuid), (H₁.push q true s').entries <+: H.entries ∧
    q.action = .loginFinish headers request ∧ request.validate = .ok v ∧
    H₁.current.authChallenges.find? request.loginChallengeId = some c ∧
    Judged H₁ c (Proven P c v A)

section generic

variable {guar : Request → Bool → Log → Db → Prop} {post : Log → Response → Prop}
  {k : Connection Db Lock} {F : Log → Prop}

lemma sat_insertAuditEvent {actor : Option Uuid} {eventType : String} {eventMetadata : Json}
    {next : Unit → ApiProgram} (hF : Stable guar (Fresh P) ({} : Db) k.locks F)
    (herr : ∀ e H, post H (unavailable e))
    (h : ∀ event, Sat guar (Fresh P) {} q post ⟨Db.audited event ∘ k.writes, k.locks⟩ F (next ())) :
    Sat guar (Fresh P) {} q post k F
      (insertAuditEvent accountId actor eventType eventMetadata next) := by
  refine Sat.inside hF herr fun H₀ H₁ r _ _ hF₁ henv hr => ?_
  obtain rfl := Except.ok.inj hr
  exact h _ H₁ henv.run hF₁

lemma sat_consumeAuthChallenge {next : Unit → ApiProgram}
    (hF : Stable guar (Fresh P) ({} : Db) k.locks F) (herr : ∀ e H, post H (unavailable e))
    (hknown : ∀ H, F H → (k.writes H.current).authChallenges.find? c.id = some c)
    (h : ∀ locks, Stable guar (Fresh P) ({} : Db) locks F →
      Sat guar (Fresh P) {} q post ⟨authChallenges.putAll [c.consumed q.now] ∘ k.writes, locks⟩ F
        (next ())) :
    Sat guar (Fresh P) {} q post k F (consumeAuthChallenge c.id q.now next) :=
  Sat.updateRow (T := authChallenges) c hF herr hknown (by simp) (fun x hx => eq_of_beq hx)
    fun locks _ hF' _ => h locks hF'

end generic

/-- The rest of request `q` decides its login and answers as it should. -/
abbrev Decides (P : Platform) (q : Request) (k : Connection Db Lock) (F : Log → Prop)
    (p : ApiProgram) : Prop :=
  Sat (DecidesLogin P) (Fresh P) {} q (TellsLogin P q) k F p

section decides

variable {k : Connection Db Lock} {F : Log → Prop} {metadata : LoginChallengeMetadata}

lemma tellsLogin_error (e : ApiError) (H : Log) : TellsLogin P q H e.intoResponse :=
  .inl ⟨_, _, rfl⟩

lemma tellsLogin_unavailable (e : DbError) (H : Log) : TellsLogin P q H (unavailable e) :=
  tellsLogin_error _ H

lemma decides_attempt {α : Type} {x : Except ApiError α} {next : α → ApiProgram}
    (h : ∀ a, x = .ok a → Decides P q k F (next a)) : Decides P q k F (attempt x next) :=
  Sat.orElse tellsLogin_error h

/-- The metadata of a challenge is what it is decoded to. -/
lemma Proven.decoded (h : Proven P c v accountId s)
    (hmetadata : decodeLoginChallengeMetadata c.publicMetadata = .ok metadata) :
    metadataMatches c metadata v = true ∧ metadata.synthetic = false := by
  obtain ⟨metadata', hmetadata', hmatches⟩ := h.issued
  rw [hmetadata, Except.ok.injEq] at hmetadata'
  rwa [← hmetadata'] at hmatches

/-- **The check of the proof** finds out whether the login is proven. -/
lemma decides_checkProof {next : Bool → ApiProgram} {locks : List Lock}
    (hF : Stable (DecidesLogin P) (Fresh P) ({} : Db) locks F)
    (hc : ∀ H, F H → H.current.authChallenges.find? c.id = some c)
    (hmetadata : decodeLoginChallengeMetadata c.publicMetadata = .ok metadata)
    (hmatches : metadataMatches c metadata v = true)
    (hbad : ∀ writes F', (writes = id ∨ ∃ event, writes = Db.audited event) →
      Stable (DecidesLogin P) (Fresh P) ({} : Db) locks F' → (∀ H, F' H → F H) →
      (∀ H, F' H → Judged H c fun s => ∀ A, ¬ Proven P c v A s) →
      Decides P q ⟨writes, locks⟩ F' (next false))
    (hgood : ∀ A F', c.accountId = some A →
      Stable (DecidesLogin P) (Fresh P) ({} : Db) locks F' → (∀ H, F' H → F H) →
      (∀ H, F' H → Judged H c (Proven P c v A)) → Decides P q ⟨id, locks⟩ F' (next true)) :
    Decides P q ⟨id, locks⟩ F (checkProof P c metadata v next) := by
  unfold checkProof
  rcases hfilter : c.accountId.filter fun _ => !metadata.synthetic with _ | A
  · -- the challenge is synthetic, or of no account
    refine hbad id F (.inl rfl) hF (fun _ hH => hH) fun H hH => .inl ⟨hc H hH, fun A hproven => ?_⟩
    have hreal := (hproven.decoded hmetadata).2
    rw [hproven.account, Option.filter_some, hreal] at hfilter
    cases hfilter
  · obtain ⟨haccount, hreal⟩ := Option.filter_eq_some_iff.mp hfilter
    have hreal : metadata.synthetic = false := by simpa using hreal
    refine Sat.query hF tellsLogin_unavailable fun account F' hF' hfound => ?_
    have hsub : ∀ H, F' H → F H := fun H hH => (hfound H hH).1
    have hresult : ∀ ok : Bool,
        (∀ s, account = selectLoginAccount A c.loginHandleNormalized s →
          if ok then Proven P c v A s else ∀ B, ¬ Proven P c v B s) →
        Decides P q ⟨id, locks⟩ F' ((do
          if !ok then
            insertAuditEvent A none "auth_login_failed" (.obj [("reason", .str "proof_failed")])
          pure ok : Api Bool) next) := by
      intro ok hok
      have hjudged : ∀ H, F' H → Judged H c fun s =>
          if ok then Proven P c v A s else ∀ B, ¬ Proven P c v B s := by
        intro H hH
        obtain ⟨-, H₀, hF₀, hrun₀, hlater, haccount₀⟩ := hfound H hH
        exact hlater.saw hrun₀ ⟨hc H₀ hF₀, hok _ haccount₀⟩
      cases ok with
      | true => exact hgood A F' haccount hF' hsub hjudged
      | false =>
          refine sat_insertAuditEvent hF' tellsLogin_unavailable fun event => ?_
          exact hbad _ F' (.inr ⟨event, rfl⟩) hF' hsub hjudged
    rcases account with _ | account
    · refine hresult false fun s hs B hproven => ?_
      obtain ⟨account, hselect, -⟩ := hproven.accepted
      have hB := hproven.account
      rw [haccount, Option.some.injEq] at hB
      rw [← hB, ← hs] at hselect
      cases hselect
    · refine decides_attempt fun key hkey => decides_attempt fun ok hok => ?_
      have hlength : account.authStoredKey.length = AUTH_KEY_BYTES ∧
          key = account.authStoredKey := by
        unfold authKeyFromVec at hkey
        split at hkey
        · exact ⟨‹_›, (Except.ok.inj hkey).symm⟩
        · cases hkey
      obtain ⟨hlength, rfl⟩ := hlength
      have hverify : Scram.verifyClientProof P account.authStoredKey (loginFinishAuthMessage c v)
          v.clientProof = some ok := by
        generalize Scram.verifyClientProof P account.authStoredKey (loginFinishAuthMessage c v)
          v.clientProof = result at hok
        cases result with
        | none => cases hok
        | some result => exact congrArg some (Except.ok.inj hok)
      refine hresult ok fun s hs => ?_
      cases ok with
      | true => exact ⟨haccount, ⟨metadata, hmetadata, hmatches, hreal⟩, account, hs.symm, hlength,
          hverify⟩
      | false =>
          intro B hproven
          obtain ⟨account', hselect, -, haccepted⟩ := hproven.accepted
          have hB := hproven.account
          rw [haccount, Option.some.injEq] at hB
          rw [← hB, ← hs, Option.some.injEq] at hselect
          rw [← hselect, hverify] at haccepted
          cases haccepted

/-- The metadata does not match: the login is not proven. -/
lemma Proven.not_of_mismatch
    (hmetadata : decodeLoginChallengeMetadata c.publicMetadata = .ok metadata)
    (hmatches : metadataMatches c metadata v = false) (A : Uuid) : ¬ Proven P c v A s := by
  intro hproven
  rw [(hproven.decoded hmetadata).1] at hmatches
  cases hmatches

/-- **A `login_finish` decides on what it has read**, and tells what it has decided. -/
theorem loginFinish_decides {headers : HeaderMap} {request : LoginFinishRequest}
    (hq : q.action = .loginFinish headers request) :
    Decides P q noTransaction (fun _ => True)
      (loginFinish P state q.draws headers request).run := by
  -- what a decision needs to be a commit of this request
  have hcommit : ∀ {H : Log} {v : ValidatedLoginFinish} {c : AuthChallenge} {s' : Db},
      request.validate = .ok v → H.current.authChallenges.find? c.id = some c →
      isOpenChallenge request.loginChallengeId .login q.now c = true →
      LoginDecision P q c v (Judged H c fun s => ∀ A, ¬ Proven P c v A s)
        (fun A => Judged H c (Proven P c v A)) H.current s' → DecidesLogin P q true H s' := by
    intro H v c s' hv hc hopen hdecision headers' request' hq'
    rw [hq] at hq'
    obtain ⟨rfl, rfl⟩ := Action.loginFinish.inj hq'
    exact ⟨rfl, c, v, hv, hc, hopen, hdecision⟩
  unfold loginFinish Handler.run
  refine decides_attempt fun _ _ => decides_attempt fun _ _ => decides_attempt fun v hv => ?_
  refine Sat.lockRows (T := authChallenges) (Stable.const _ _) tellsLogin_unavailable
    (fun _ => rfl) ?_
  intro rows F₁ hF₁ _ hopen hfound
  dsimp only
  rcases hhead : rows.head? with _ | c
  · exact Sat.finish (tellsLogin_error _)
  · have hmem : c ∈ rows := List.mem_of_head? hhead
    have hc := hfound c hmem
    refine decides_attempt fun metadata hmetadata => ?_
    dsimp only
    split
    · rename_i hmatches
      refine sat_consumeAuthChallenge hF₁ tellsLogin_unavailable hc fun locks hF₂ => ?_
      refine Sat.commit hF₂ (tellsLogin_error _) (fun H _ hH => ?_) fun _ H' _ _ _ =>
        tellsLogin_error _ H'
      refine hcommit hv (hc H hH) (hopen c hmem) (.refused ?_ (.inl rfl) rfl)
      exact .inl ⟨hc H hH, Proven.not_of_mismatch hmetadata hmatches⟩
    · rename_i hmatches
      rw [Bool.not_eq_false] at hmatches
      refine decides_checkProof hF₁ hc hmetadata hmatches ?_ ?_
      · intro writes F₂ hwrites hF₂ hsub hdenied
        dsimp only
        rw [if_pos rfl]
        have hkept : ∀ H : Log, writes H.current = H.current ∨
            ∃ event, writes H.current = H.current.audited event := by
          intro H
          rcases hwrites with rfl | ⟨event, rfl⟩
          · exact .inl rfl
          · exact .inr ⟨event, rfl⟩
        have hsame : ∀ H, F₂ H → (writes H.current).authChallenges.find? c.id = some c := by
          intro H hH
          rcases hwrites with rfl | ⟨event, rfl⟩
          · exact hc H (hsub H hH)
          · exact hc H (hsub H hH)
        refine sat_consumeAuthChallenge hF₂ tellsLogin_unavailable hsame fun locks hF₃ => ?_
        refine Sat.commit hF₃ (tellsLogin_error _) (fun H _ hH => ?_) fun _ H' _ _ _ =>
          tellsLogin_error _ H'
        exact hcommit hv (hc H (hsub H hH)) (hopen c hmem)
          (.refused (hdenied H hH) (hkept H) rfl)
      · intro A F₂ haccount hF₂ hsub hproven
        have htells : ∀ {H H' : Log} {s' : Db} {x : Except ApiError Response}, F₂ H →
            Later (DecidesLogin P) (Fresh P) {} (H.push q true s') H' →
            TellsLogin P q H' (orError x) := by
          intro H H' s' x hH hlater
          rcases x with e | r
          · exact tellsLogin_error e H'
          · have hchallenge : H.current.authChallenges.find? c.id = some c := hc H (hsub H hH)
            rw [show c.id = request.loginChallengeId from isOpenChallenge_id (hopen c hmem)]
              at hchallenge
            exact .inr ⟨H, s', headers, request, c, v, A, hlater.2, hq, hv, hchallenge,
              hproven H hH⟩
        dsimp only
        rw [if_neg (by simp)]
        refine decides_attempt fun A' hA' => ?_
        rw [orUnavailable_ok, haccount, Option.some.injEq] at hA'
        subst hA'
        refine sat_consumeAuthChallenge hF₂ tellsLogin_unavailable (fun H hH => hc H (hsub H hH))
          fun locks hF₃ => ?_
        refine Sat.query hF₃ tellsLogin_unavailable fun factor F₄ hF₄ hfactor => ?_
        have hsub₄ : ∀ H, F₄ H → F₂ H := fun H hH => (hfactor H hH).1
        dsimp only
        split
        · refine Sat.insertNew (T := authChallenges) [] hF₄ tellsLogin_unavailable
            (consumed_keeps_entries c q.now) ?_
          intro locks₅ F₅ _ hF₅ hsub₅ _ hnew
          refine sat_insertAuditEvent hF₅ tellsLogin_unavailable fun event => ?_
          refine Sat.commit hF₅ (tellsLogin_error _) (fun H _ hH => ?_) fun H H' _ hH hlater =>
            htells (hsub₄ H (hsub₅ H hH)) hlater
          have hF₂H := hsub₄ H (hsub₅ H hH)
          exact hcommit hv (hc H (hsub H hF₂H)) (hopen c hmem)
            (.asks (hproven H hF₂H) (Table.find?_of_new (hnew H hH)) rfl)
        · unfold createSessionWithDevice
          refine Sat.insert (T := devices) hF₄ tellsLogin_unavailable fun locks₅ _ hF₅ _ => ?_
          refine Sat.insert (T := sessions) hF₅ tellsLogin_unavailable fun locks₆ _ hF₆ _ => ?_
          refine sat_insertAuditEvent hF₆ tellsLogin_unavailable fun event => ?_
          refine Sat.commit hF₆ (tellsLogin_error _) (fun H _ hH => ?_) fun H H' _ hH hlater =>
            htells (hsub₄ H hH) hlater
          exact hcommit hv (hc H (hsub H (hsub₄ H hH))) (hopen c hmem)
            (.enrolls (hproven H (hsub₄ H hH)) rfl)

end decides

/-- What an answer tells of the login, if it is one to a `login_finish`. -/
def LoginTold (P : Platform) (q : Request) (_born H : Log) (r : Response) : Prop :=
  match q.action with
  | .loginFinish _ _ => TellsLogin P q H r
  | _ => True

/-- **Every request meets this contract too.** -/
theorem serve_decides (q : Request) (born : Log)
    (hrun : Run (DecidesLogin P) (Fresh P) {} born) :
    (serve P state q).Meets (DecidesLogin P) (Fresh P) {} q (LoginTold P q born) {} born := by
  by_cases hlogin : ∃ headers request, q.action = .loginFinish headers request
  · obtain ⟨headers, request, hq⟩ := hlogin
    have htold : LoginTold P q born = TellsLogin P q := by
      funext H r
      rw [LoginTold, hq]
    rw [htold]
    unfold serve handler
    rw [hq]
    exact loginFinish_decides hq born hrun trivial
  · have hother : ∀ headers request, q.action ≠ .loginFinish headers request :=
      fun headers request hq => hlogin ⟨headers, request, hq⟩
    refine Program.meets_trivial
      (fun b H s headers request hq => absurd hq (hother headers request)) (fun H r => ?_) _ _ _
    unfold LoginTold
    split
    · rename_i hq
      exact absurd hq (hother _ _)
    · trivial

lemma Reachable.decidesLogins {sys : Service} (h : Reachable P state sys) :
    sys.Ok (DecidesLogin P) (Fresh P) {} (LoginTold P) :=
  System.Reaches.sound Fresh.symm serve_decides h

/-! ## Logins that commit -/

/-- The answers of a `login_finish` that has committed. -/
def LoginCommitted (r : Response) : Prop :=
  r = ApiError.authFailed.intoResponse ∨ r = ApiError.serviceUnavailable.intoResponse ∨
    ∀ code message, r.body ≠ .error code message

lemma formatRfc3339_error {t : Time} {e : ApiError} (h : formatRfc3339 P t = .error e) :
    e = .serviceUnavailable := by
  unfold formatRfc3339 at h
  split at h
  · cases h
  · exact (Except.error.inj h).symm

lemma sessionResponse_error {sessionState : SessionState} {idle absolute : Time} {e : ApiError}
    (h : sessionResponse P sessionState idle absolute = .error e) : e = .serviceUnavailable := by
  unfold sessionResponse at h
  rcases hidle : formatRfc3339 P idle with e' | text
  · rw [hidle] at h
    obtain rfl := Except.error.inj h
    exact formatRfc3339_error hidle
  · rcases habsolute : formatRfc3339 P absolute with e' | text'
    · rw [hidle, habsolute] at h
      obtain rfl := Except.error.inj h
      exact formatRfc3339_error habsolute
    · rw [hidle, habsolute] at h
      cases h

/-- An answer that needs a text of a time. -/
lemma loginCommitted_orError {α : Type} {x : Except ApiError α} {f : α → Response}
    (hx : ∀ e, x = .error e → e = .serviceUnavailable)
    (hf : ∀ a code message, (f a).body ≠ .error code message) :
    LoginCommitted (orError do
      let a ← x
      .ok (f a)) := by
  rcases x with e | a
  · rw [hx e rfl]
    exact .inr (.inl rfl)
  · exact .inr (.inr (hf a))

lemma atomic_checkProof {good : Response → Prop} {metadata : LoginChallengeMetadata}
    {next : Bool → ApiProgram} (h : ∀ ok, (next ok).Atomic good) :
    (checkProof P c metadata v next).Atomic good := by
  unfold checkProof
  rcases c.accountId.filter fun _ => !metadata.synthetic with _ | A
  · exact h false
  · refine atomic_inside fun account => ?_
    rcases account with _ | account
    · exact atomic_inside fun _ => h false
    · refine atomic_attempt fun key _ => atomic_attempt fun ok _ => ?_
      cases ok with
      | true => exact h true
      | false => exact atomic_inside fun _ => h false

/-- A `login_finish` commits only with one of these answers. -/
lemma loginFinish_atomic {headers : HeaderMap} {request : LoginFinishRequest}
    (hq : q.action = .loginFinish headers request) :
    (serve P state q).Atomic LoginCommitted := by
  have hrefuses : ∀ (id : Uuid) (t : Time), (consumeAuthChallenge id t fun _ =>
      (commitAnd ApiError.authFailed.intoResponse : Api Response).run).Atomic LoginCommitted :=
    fun id t => atomic_inside fun _ => .commit (.inl rfl)
  unfold serve handler
  rw [hq]
  unfold loginFinish Handler.run
  refine atomic_attempt fun _ _ => atomic_attempt fun _ _ => atomic_attempt fun v _ => ?_
  refine atomic_inside fun rows => ?_
  dsimp only
  rcases rows.head? with _ | c
  · exact .answer _
  · refine atomic_attempt fun metadata _ => ?_
    dsimp only
    split
    · exact hrefuses _ _
    · refine atomic_checkProof fun ok => ?_
      dsimp only
      split
      · exact hrefuses _ _
      · refine atomic_attempt fun A _ => atomic_inside fun _ => atomic_inside fun factor => ?_
        dsimp only
        split
        · refine atomic_inside fun _ => atomic_inside fun _ => .commit ?_
          exact loginCommitted_orError (fun e he => formatRfc3339_error he) (by simp)
        · refine atomic_inside fun _ => atomic_inside fun _ => atomic_inside fun _ => .commit ?_
          exact loginCommitted_orError (fun e he => sessionResponse_error he) (by simp)

/-! ## The guarantees -/

/-- The request finishes the login of the challenge `id`. -/
def Request.finishesLogin (id : Uuid) (q : Request) : Bool :=
  match q.action with
  | .loginFinish _ request => request.loginChallengeId == id
  | _ => false

lemma Request.finishesLogin_iff {id : Uuid} : q.finishesLogin id = true ↔
    ∃ headers request, q.action = .loginFinish headers request ∧ request.loginChallengeId = id := by
  unfold Request.finishesLogin
  split
  · rename_i headers request hq
    rw [beq_iff_eq]
    constructor
    · exact fun hid => ⟨headers, request, hq, hid⟩
    · rintro ⟨headers', request', hq', hid⟩
      rw [hq] at hq'
      obtain ⟨-, rfl⟩ := Action.loginFinish.inj hq'
      exact hid
  · rename_i hother
    constructor
    · intro h
      cases h
    · rintro ⟨headers, request, hq, -⟩
      exact absurd hq (hother headers request)

/-- The entry decides a login: it spends an open challenge of the request, and admits the login if
and only if it is proven at that moment. -/
structure DecidedLogin (P : Platform) (e : Entry Db Request) (request : LoginFinishRequest)
    (c : AuthChallenge) (v : ValidatedLoginFinish) : Prop where
  valid : request.validate = .ok v
  found : e.before.authChallenges.find? request.loginChallengeId = some c
  unspent : isOpenChallenge request.loginChallengeId .login e.request.now c = true
  spent : e.after.authChallenges.find? request.loginChallengeId = some (c.consumed e.request.now)
  decision : LoginDecision P e.request c v (∀ A, ¬ Proven P c v A e.before)
    (fun A => Proven P c v A e.before) e.before e.after

/-- Logins are decided once, by their proof. -/
structure ProvenLogins (P : Platform) (sys : Service) : Prop where
  /-- At most one request commits a decision on a challenge. -/
  once : ∀ id, sys.history.entries.countP (fun e => e.request.finishesLogin id) ≤ 1
  /-- Every commit of a `login_finish` is a decision. -/
  decided : ∀ e ∈ sys.history.entries, ∀ headers request,
    e.request.action = .loginFinish headers request → ∃ c v, DecidedLogin P e request c v
  /-- An answer that is not an error was earned: the request has committed a proven login. -/
  answered : ∀ t ∈ sys.threads, ∀ headers request r,
    t.request.action = .loginFinish headers request → t.program = .answer r →
    (∀ code message, r.body ≠ .error code message) →
    ∃ e ∈ sys.history.entries, e.request = t.request ∧
      ∃ c v A, DecidedLogin P e request c v ∧ Proven P c v A e.before
  /-- Any error but `auth_failed` and `service_unavailable` has changed nothing. -/
  refused : ∀ t ∈ sys.threads, ∀ headers request, ∀ error : ApiError,
    t.request.action = .loginFinish headers request → t.program = .answer error.intoResponse →
    error ≠ .authFailed → error ≠ .serviceUnavailable →
    ∀ e ∈ sys.history.entries, e.request ≠ t.request

/-- A commit of a `login_finish`, with the log before it. -/
lemma Reachable.decidedLogin {sys : Service} (h : Reachable P state sys) {e : Entry Db Request}
    {l₁ l₂ : List (Entry Db Request)} (hsplit : sys.history.entries = l₁ ++ e :: l₂)
    {headers : HeaderMap} {request : LoginFinishRequest}
    (hq : e.request.action = .loginFinish headers request) :
    e.closing = true ∧ ∃ c v, DecidedLogin P e request c v := by
  obtain ⟨H₁, hrun₁, hentries, hbefore, -, -⟩ := Run.split h.run hsplit
  obtain ⟨H₁', -, hentries', hbefore', hdecides, -⟩ := Run.split h.decidesLogins.run hsplit
  -- both contracts speak of one log
  obtain rfl : H₁' = H₁ := by
    cases H₁
    cases H₁'
    subst hentries hbefore hentries' hbefore'
    rfl
  obtain ⟨hclosing, c, v, hv, hc, hopen, hdecision⟩ := hdecides headers request hq
  have hid : c.id = request.loginChallengeId := isOpenChallenge_id hopen
  have hspent := hdecision.spends hc
  have hdecided := hdecision.mono (fun hdenied => Proven.not_of_judged hrun₁ hdenied)
    fun A hproven => Proven.of_judged hrun₁ hproven
  rw [hbefore] at hdecided hc
  rw [hid] at hspent hc
  exact ⟨hclosing, c, v, hv, hc, hopen, hspent, hdecided⟩

/-- **A login is decided once, by its proof**, in every reachable state. -/
theorem proven_logins {sys : Service} (h : Reachable P state sys) : ProvenLogins P sys := by
  have hdecided : ∀ e ∈ sys.history.entries, ∀ headers request,
      e.request.action = .loginFinish headers request → ∃ c v, DecidedLogin P e request c v := by
    intro e he headers request hq
    obtain ⟨l₁, l₂, hsplit⟩ := List.append_of_mem he
    exact (h.decidedLogin hsplit hq).2
  refine ⟨fun id => ?_, hdecided, ?_, ?_⟩
  · -- each decision uses the challenge
    refine le_trans (List.countP_mono_left fun e he hfinishes => ?_) (h.used_once id)
    obtain ⟨headers, request, hq, rfl⟩ := Request.finishesLogin_iff.mp hfinishes
    obtain ⟨c, v, hd⟩ := hdecided e he headers request hq
    obtain ⟨-, -, -, hunused, -⟩ := isOpenChallenge_iff.mp hd.unspent
    rw [usesChallenge, hd.found, hd.spent]
    simp [hunused, AuthChallenge.consumed]
  · intro t ht headers request r hq hr hanswer
    have htold := h.decidesLogins.answered ht hr
    rw [LoginTold, hq] at htold
    rcases htold with ⟨code, message, hbody⟩ |
      ⟨H₁, s', headers', request', c, v, A, hprefix, hq', hv, hc, hproven⟩
    · exact absurd hbody (hanswer code message)
    · rw [hq] at hq'
      obtain ⟨-, rfl⟩ := Action.loginFinish.inj hq'
      obtain ⟨l₂, hl₂⟩ := hprefix
      have hsplit : sys.history.entries =
          H₁.entries ++ ⟨t.request, true, H₁.current, s'⟩ :: l₂ := by
        rw [← hl₂, History.push_entries, List.append_assoc]
        rfl
      have he := hsplit ▸ List.mem_append_right H₁.entries List.mem_cons_self
      obtain ⟨c', v', hd⟩ := hdecided _ he headers request hq
      -- it is the decision on the same challenge and the same request
      obtain rfl : c' = c := Option.some.inj (hd.found.symm.trans hc)
      obtain rfl : v' = v := Except.ok.inj (hd.valid.symm.trans hv)
      obtain ⟨H₂, hrun₂, hentries, hcurrent, -⟩ := Run.split h.run hsplit
      obtain rfl : H₂ = H₁ := by
        cases H₁
        cases H₂
        subst hentries hcurrent
        rfl
      exact ⟨_, he, rfl, c', v', A, hd, Proven.of_judged hrun₂ hproven⟩
  · intro t ht headers request error hq hr hfailed hunavailable
    have hatomic := System.Reaches.atomic
      (fun q => ∃ headers request, q.action = .loginFinish headers request)
      (fun _ => LoginCommitted) Fresh.irrefl
      (fun q hq => loginFinish_atomic hq.choose_spec.choose_spec) h ht ⟨headers, request, hq⟩
    rcases hatomic with hnothing | ⟨r, hr', hcommitted⟩
    · exact hnothing
    · rw [hr] at hr'
      obtain rfl := Program.answer.inj hr'
      have hinj : ∀ e : ApiError, error.intoResponse = e.intoResponse → error = e := by
        intro e heq
        cases error
        cases e
        simpa [ApiError.intoResponse] using heq
      rcases hcommitted with heq | heq | hbody
      · exact absurd (hinj _ heq) hfailed
      · exact absurd (hinj _ heq) hunavailable
      · exact absurd rfl (hbody _ _)

theorem proven_logins_secondLogin : ProvenLogins standard (serveAll secondLogin) :=
  proven_logins secondLogin_reachable

end PasswordVault
