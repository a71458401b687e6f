import PasswordVault.Auth.ChallengeBudget
import PasswordVault.Auth.TotpReplay

/-!
# Recovery codes are single-use and rotated as a set

An entry of the log uses a recovery code (`usesCode`) when it marks the unused code used, and
confirms an enrollment of an account (`confirms`) when it turns a pending factor of the account into
a verified one.

* `CodeOk`: a code is used once at most, and never comes back: its identifier was drawn once.
* `SetOk`: the codes of an account are those that its last confirmation issued, used or not.
* `recovery_codes`: the guarantees over the whole log.
-/

namespace PasswordVault

open Transactions

variable {P : Platform} {state : AppState} {q : Request} {H : Log} {b : Bool} {s' : Db}

/-- The entry marks the unused recovery code `k` used. -/
def usesCode (k : Uuid) (e : Entry Db Request) : Bool :=
  ((e.before.recoveryCodes.find? k).any fun c => c.usedAt.isNone) &&
    (e.after.recoveryCodes.find? k).any fun c => c.usedAt.isSome

/-- The entry confirms an enrollment of the account. -/
def confirms (A : Uuid) (e : Entry Db Request) : Bool :=
  e.before.totpFactors.list.any fun f => f.accountId == A && confirmsFactor f.id e

/-- The identifier was drawn by a commit. -/
def Drawn (k : Uuid) (H : Log) : Prop :=
  ∃ e ∈ H.entries, e.closing = true ∧ ∃ i, e.request.draws.uuid i = k

lemma Drawn.push {k : Uuid} (h : Drawn k H) (q : Request) (b : Bool) (s' : Db) :
    Drawn k (H.push q b s') := by
  obtain ⟨e, he, hdrawn⟩ := h
  exact ⟨e, List.mem_append_left _ he, hdrawn⟩

/-- What was drawn is not drawn again. -/
lemma Drawn.fresh {k : Uuid} (h : Drawn k H) (hpush : ServiceRun P state (H.push q b s'))
    (hclosing : b = true) (i : Fin 16) : q.draws.uuid i ≠ k := by
  obtain ⟨e, he, hc, j, rfl⟩ := h
  exact fun hi => (hpush.push_fresh hclosing e he hc).1 j i hi.symm

/-- The identifiers of new codes are drawn. -/
lemma newRecoveryCodes_drawn {draws : Draws} {A : Uuid} {c : RecoveryCode}
    (h : c ∈ newRecoveryCodes P draws A) : ∃ i, draws.uuid i = c.id := by
  unfold newRecoveryCodes at h
  rw [List.mem_iff_getElem] at h
  obtain ⟨i, hi, rfl⟩ := h
  rw [List.getElem_zipWith]
  exact ⟨_, rfl⟩

/-- New codes are unused. -/
lemma newRecoveryCodes_unused {draws : Draws} {A : Uuid} {c : RecoveryCode}
    (h : c ∈ newRecoveryCodes P draws A) : c.usedAt = none := by
  unfold newRecoveryCodes at h
  rw [List.mem_iff_getElem] at h
  obtain ⟨i, hi, rfl⟩ := h
  rw [List.getElem_zipWith]
  rfl

lemma newRecoveryCodes_length (draws : Draws) (A : Uuid) :
    (newRecoveryCodes P draws A).length = 10 := by
  simp [newRecoveryCodes, generateRecoveryCodes, RECOVERY_CODE_COUNT]

/-! ## One commit -/

/-- A commit marks a code used only as the login with it. -/
lemma Effect.usesCode (h : Effect P state q H b s') {k : Uuid}
    (huses : usesCode k ⟨q, b, H.current, s'⟩ = true) :
    ∃ code, H.current.recoveryCodes.find? k = some code ∧ code.usedAt = none ∧ b = true ∧
      H.current.sessions.find? (q.draws.uuid 1) = none ∧
      s'.sessions = H.current.sessions.put
        (newSession P q.draws code.accountId .mfaRecovery q.now) ∧
      s'.recoveryCodes = H.current.recoveryCodes.put { code with usedAt := some q.now } := by
  rw [PasswordVault.usesCode, Bool.and_eq_true, Option.any_eq_true, Option.any_eq_true] at huses
  obtain ⟨⟨c, hc, hunused⟩, c', hc', hused⟩ := huses
  dsimp only at hc hc'
  rw [Option.isNone_iff_eq_none] at hunused
  cases h.recoveryMove with
  | kept hcodes =>
      rw [hcodes, hc] at hc'
      obtain rfl := Option.some.inj hc'
      rw [hunused] at hused
      cases hused
  | @used code headers request text hclosing hq hcode hopen htext hhash hnew hsession hcodes =>
      rw [hcodes, Rows.find?_put] at hc'
      by_cases hk : code.id = k
      · rw [← hk, hcode] at hc
        obtain rfl := Option.some.inj hc
        exact ⟨code, hk ▸ hcode, hopen, hclosing, hnew, hsession, hcodes⟩
      · rw [if_neg hk, hc] at hc'
        obtain rfl := Option.some.inj hc'
        rw [hunused] at hused
        cases hused
  | rotated hclosing hq hload hf haccount hpending hf' hall hnew hdistinct hcodes =>
      -- a code of the new database is a new one, which is unused, or an old one
      obtain ⟨hmem, hid⟩ := Rows.find?_eq_some.mp hc'
      rw [hcodes] at hmem
      rcases Rows.mem_of_mem_putAll _ hmem with hmem | hmem
      · rw [newRecoveryCodes_unused hmem] at hused
        cases hused
      · have hfound := Rows.find?_of_mem (Rows.mem_remove.mp hmem).1
        rw [hid, hc] at hfound
        obtain rfl := Option.some.inj hfound
        rw [hunused] at hused
        cases hused

/-- A session for a recovery is created by the use of one code of its account. -/
lemma Effect.recoverySession (h : Effect P state q H b s') {r : Session} (hr : r ∈ s'.sessions)
    (hstate : r.sessionState = .mfaRecovery) (hnew : H.current.sessions.find? r.id = none) :
    ∃ c, H.current.recoveryCodes.find? c.id = some c ∧ c.accountId = r.accountId ∧
      ∀ k, PasswordVault.usesCode k ⟨q, b, H.current, s'⟩ = true ↔ k = c.id := by
  have hmove := h.sessionMove r.id
  rw [hnew, Rows.find?_of_mem hr] at hmove
  cases hmove with
  | setup _ _ hstate' =>
      rw [hstate] at hstate'
      cases hstate'
  | verified _ _ hstate' =>
      rw [hstate] at hstate'
      cases hstate'
  | @recovered _ headers request text c _ _ _ _ _ hcode haccount hunused _ _ hused =>
      refine ⟨c, hcode, haccount, fun k => ⟨fun huses => ?_, ?_⟩⟩
      · obtain ⟨code, hfound, -, -, -, -, hcodes⟩ := h.usesCode huses
        have hid : code.id = k := (Rows.find?_eq_some.mp hfound).2
        by_contra hne
        have hother : ({ code with usedAt := some q.now } : RecoveryCode).id ≠ c.id :=
          fun heq => hne (hid.symm.trans heq)
        rw [hcodes, Rows.find?_put_of_ne _ hother, hcode] at hused
        have hopen := congrArg RecoveryCode.usedAt (Option.some.inj hused)
        rw [hunused] at hopen
        cases hopen
      · rintro rfl
        rw [PasswordVault.usesCode, hcode, hused]
        simp [hunused]

/-- A code after a commit: an old one, perhaps used now, or one that the commit issued. -/
lemma Effect.codeFrom (h : Effect P state q H b s') {k : Uuid} {c : RecoveryCode}
    (hc : s'.recoveryCodes.find? k = some c) :
    (∃ c₀, H.current.recoveryCodes.find? k = some c₀ ∧
      (c = c₀ ∨ c₀.usedAt = none ∧ c = { c₀ with usedAt := some q.now })) ∨
    b = true ∧ ∃ A, c ∈ newRecoveryCodes P q.draws A := by
  obtain ⟨hmem, hid⟩ := Rows.find?_eq_some.mp hc
  cases h.recoveryMove with
  | kept hcodes => exact .inl ⟨c, hcodes ▸ hc, .inl rfl⟩
  | @used code headers request text hclosing hq hcode hopen htext hhash hnew hsession hcodes =>
      rw [hcodes] at hmem
      rcases Rows.mem_put.mp hmem with rfl | ⟨hmem, -⟩
      · exact .inl ⟨code, hid ▸ hcode, .inr ⟨hopen, rfl⟩⟩
      · exact .inl ⟨c, hid ▸ Rows.find?_of_mem hmem, .inl rfl⟩
  | rotated hclosing hq hload hf haccount hpending hf' hall hnew hdistinct hcodes =>
      rw [hcodes] at hmem
      rcases Rows.mem_of_mem_putAll _ hmem with hmem | hmem
      · exact .inr ⟨hclosing, _, hmem⟩
      · exact .inl ⟨c, hid ▸ Rows.find?_of_mem (Rows.mem_remove.mp hmem).1, .inl rfl⟩

/-- A commit that confirms an enrollment of the account replaces all its codes. -/
lemma Effect.confirms (h : Effect P state q H b s') {A : Uuid}
    (hconfirms : confirms A ⟨q, b, H.current, s'⟩ = true) :
    ∃ codes : List RecoveryCode, b = true ∧
      (∀ code, code ∈ codes ↔ code ∈ H.current.recoveryCodes ∧ code.accountId = A) ∧
      (∀ code ∈ newRecoveryCodes P q.draws A,
        recoveryCodes.New (codes.map RecoveryCode.id) code H.current) ∧
      ((newRecoveryCodes P q.draws A).map RecoveryCode.id).Nodup ∧
      s'.recoveryCodes = (H.current.recoveryCodes.remove (codes.map RecoveryCode.id)).putAll
        (newRecoveryCodes P q.draws A) := by
  obtain ⟨f, hf, hmatch⟩ := List.any_eq_true.mp hconfirms
  rw [Bool.and_eq_true, beq_iff_eq, PasswordVault.confirmsFactor, Bool.and_eq_true,
    Option.any_eq_true, Option.any_eq_true] at hmatch
  obtain ⟨hA, ⟨g, hg, hpending⟩, f', hf', hverified⟩ := hmatch
  dsimp only at hf hg hf'
  rw [Rows.find?_of_mem hf] at hg
  obtain rfl := Option.some.inj hg
  rw [Option.isNone_iff_eq_none] at hpending
  have hmove := h.factorMove f.id
  rw [Rows.find?_of_mem hf, hf'] at hmove
  cases hmove with
  | kept =>
      rw [hpending] at hverified
      cases hverified
  | started _ _ _ _ _ _ _ hpending' =>
      rw [hpending'] at hverified
      cases hverified
  | accepted _ _ hverified' =>
      rw [hpending] at hverified'
      cases hverified'
  | @confirmed _ headers request session step hclosing hq hload hstate haccount hid hpending' hcode =>
      cases h with
      | @enrollConfirmed _ _ session₁ f₁ _ _ _ step₁ codes _ _ _ _ _ hf₁ hfactor _ _ _ _ hcodes hnew
          hdistinct =>
          -- the factor confirmed is the one of the session's account
          have haccount₁ : session₁.accountId = A := by
            have hput : (H.current.totpFactors.put (f₁.confirmed step₁ q.now)).find? f.id =
                some (f.confirmed step q.now) := hf'
            rw [Rows.find?_put] at hput
            by_cases hsame : (f₁.confirmed step₁ q.now).id = f.id
            · have hsame' : f₁.id = f.id := hsame
              rw [hsame', Rows.find?_of_mem hf] at hf₁
              rw [← hfactor.2.1, ← Option.some.inj hf₁, hA]
            · rw [if_neg hsame, Rows.find?_of_mem hf] at hput
              rw [Option.some.inj hput] at hpending
              cases hpending
          subst haccount₁
          exact ⟨codes, rfl, hcodes, hnew, hdistinct, rfl⟩
      | @enrollFailed _ _ _ f₁ event hq₁ =>
          have hdropped : (H.current.totpFactors.remove [f₁.id]).find? f.id =
              some (f.confirmed step q.now) := hf'
          rw [Rows.find?_remove] at hdropped
          split at hdropped
          · cases hdropped
          · rw [Rows.find?_of_mem hf] at hdropped
            rw [Option.some.inj hdropped] at hpending
            cases hpending
      | attemptFailed hq' =>
          rcases hq' with ⟨_, _, hq', -⟩ | ⟨_, _, hq', -⟩
          · rw [hq] at hq'
            cases hq'
          · rw [hq] at hq'
            cases hq'
      | idle => cases hclosing
      | cleanup => cases hclosing
      | challengeIssued => cases hclosing
      | sessionRevoked => cases hclosing
      | sessionRefreshed => cases hclosing
      | csrfIssued => cases hclosing
      | sessionEnded => cases hclosing
      | _ hq' =>
          rw [hq] at hq'
          cases hq'

/-- A commit that counts a failed attempt leaves the codes alone. -/
lemma Effect.failed_codes (h : Effect P state q H b s') {id : Uuid}
    (hfail : PasswordVault.failedAttempt id ⟨q, b, H.current, s'⟩ = true) :
    s'.recoveryCodes = H.current.recoveryCodes := by
  obtain ⟨c, hc, -, -, hc'⟩ := h.failedAttempt hfail
  have hne : c.attempts ≠ (c.incremented q.now).attempts := by
    change c.attempts ≠ c.attempts + 1
    omega
  cases h with
  | @recoveryVerified headers request c₁ accountId device text code event hq hc₁ =>
      -- the challenge of the login is consumed, and no other one is touched
      have hput : (H.current.authChallenges.put (c₁.consumed q.now)).find? id =
          some (c.incremented q.now) := hc'
      rw [Rows.find?_put] at hput
      by_cases hid : (c₁.consumed q.now).id = id
      · have hid' : c₁.id = id := hid
        rw [← hid', hc₁] at hc
        rw [if_pos hid, Option.some.inj hc] at hput
        exact absurd (congrArg AuthChallenge.attempts (Option.some.inj hput)) hne
      · rw [if_neg hid, hc] at hput
        exact absurd (congrArg AuthChallenge.attempts (Option.some.inj hput)) hne
  | enrollConfirmed =>
      generalize newRecoveryCodes _ _ _ = newCodes at hc'
      have hsame : H.current.authChallenges.find? id = some (c.incremented q.now) := hc'
      rw [hc] at hsame
      exact absurd (congrArg AuthChallenge.attempts (Option.some.inj hsame)) hne
  | loginRefused hq hc hopen hs =>
      rcases hs with rfl | ⟨event, rfl⟩
      · rfl
      · rfl
  | idle => rfl
  | _ =>
      simp only [Db.audited, Table.putAll, Table.remove, accounts, devices, authChallenges,
        totpFactors, sessions, accountKeysets, vaults, vaultKeyWraps, vaultItems,
        vaultItemRevisions]

/-! ## A code -/

/-- The invariant of one code. -/
structure CodeOk (k : Uuid) (H : Log) : Prop where
  once : H.entries.countP (PasswordVault.usesCode k) ≤ 1
  used : 0 < H.entries.countP (PasswordVault.usesCode k) → Drawn k H ∧
    ∀ c, H.current.recoveryCodes.find? k = some c → c.usedAt.isSome = true
  drawn : ∀ c, H.current.recoveryCodes.find? k = some c → Drawn k H

/-- **One commit keeps the invariant of a code.** -/
theorem CodeOk.push {k : Uuid} (hok : CodeOk k H) (hpush : ServiceRun P state (H.push q b s'))
    (heff : Effect P state q H b s') : CodeOk k (H.push q b s') := by
  have hdrawn : ∀ c, s'.recoveryCodes.find? k = some c → Drawn k (H.push q b s') := by
    intro c hc
    rcases heff.codeFrom hc with ⟨c₀, hc₀, -⟩ | ⟨hclosing, A, hnew⟩
    · exact (hok.drawn c₀ hc₀).push q b s'
    · obtain ⟨i, hi⟩ := newRecoveryCodes_drawn hnew
      exact ⟨⟨q, b, H.current, s'⟩, List.mem_append_right _ List.mem_cons_self, hclosing, i,
        hi.trans (Rows.find?_eq_some.mp hc).2⟩
  by_cases huses : PasswordVault.usesCode k ⟨q, b, H.current, s'⟩ = true
  · obtain ⟨code, hcode, hopen, -, -, -, hcodes⟩ := heff.usesCode huses
    -- the code was unused, so it had not been used before
    have hzero : H.entries.countP (PasswordVault.usesCode k) = 0 := by
      by_contra hne
      have hused := (hok.used (Nat.pos_of_ne_zero hne)).2 code hcode
      rw [hopen] at hused
      cases hused
    refine ⟨?_, fun _ => ⟨(hok.drawn code hcode).push q b s', fun c hc => ?_⟩, hdrawn⟩
    · rw [countP_push, hzero, if_pos huses]
    · have hid : code.id = k := (Rows.find?_eq_some.mp hcode).2
      have hself := Rows.find?_put_self H.current.recoveryCodes { code with usedAt := some q.now }
      rw [History.push_current, hcodes] at hc
      rw [← hid] at hc
      rw [← Option.some.inj (hself.symm.trans hc)]
      rfl
  · have hcount : (H.push q b s').entries.countP (PasswordVault.usesCode k) =
        H.entries.countP (PasswordVault.usesCode k) := by
      rw [countP_push, if_neg huses, Nat.add_zero]
    refine ⟨hcount ▸ hok.once, fun hpos => ?_, hdrawn⟩
    rw [hcount] at hpos
    obtain ⟨hk, hall⟩ := hok.used hpos
    refine ⟨hk.push q b s', fun c hc => ?_⟩
    rcases heff.codeFrom hc with ⟨c₀, hc₀, rfl | ⟨-, rfl⟩⟩ | ⟨hclosing, A, hnew⟩
    · exact hall c hc₀
    · rfl
    · -- the code was drawn before, so it is not a new one
      obtain ⟨i, hi⟩ := newRecoveryCodes_drawn hnew
      exact absurd (hi.trans (Rows.find?_eq_some.mp hc).2) (hk.fresh hpush hclosing i)

lemma ServiceRun.codeOk (h : ServiceRun P state H) (k : Uuid) : CodeOk k H := by
  refine Later.induction (K := CodeOk k) ?_ .start ⟨h, List.nil_prefix⟩ ?_
  · intro H q b s _ hpush heff hok
    exact hok.push hpush heff
  · refine ⟨Nat.zero_le 1, fun hpos => absurd hpos (Nat.lt_irrefl 0), fun c hc => ?_⟩
    cases hc

/-! ## The codes of an account -/

/-- The codes of the account are those that the request issued, each used or not. -/
structure Issued (P : Platform) (q : Request) (A : Uuid) (s : Db) : Prop where
  distinct : ((newRecoveryCodes P q.draws A).map RecoveryCode.id).Nodup
  same : ∀ c, c ∈ newRecoveryCodes P q.draws A ↔
    ∃ r ∈ s.recoveryCodes, r.accountId = A ∧ c = { r with usedAt := none }

/-- The codes of the account are those of its last confirmation; it has none before the first. -/
def SetOk (P : Platform) (A : Uuid) (H : Log) : Prop :=
  ((∀ e ∈ H.entries, PasswordVault.confirms A e = false) ∧
    ∀ c ∈ H.current.recoveryCodes, c.accountId ≠ A) ∨
  ∃ l₁ e l₂, H.entries = l₁ ++ e :: l₂ ∧ PasswordVault.confirms A e = true ∧
    (∀ e' ∈ l₂, PasswordVault.confirms A e' = false) ∧ Issued P e.request A H.current

/-- The confirmation of an enrollment issues the new set. -/
lemma Effect.issued (h : Effect P state q H b s') {A : Uuid}
    (hconfirms : PasswordVault.confirms A ⟨q, b, H.current, s'⟩ = true) : Issued P q A s' := by
  obtain ⟨codes, -, hall, hnew, hdistinct, hcodes⟩ := h.confirms hconfirms
  refine ⟨hdistinct, fun c => ?_⟩
  rw [hcodes]
  constructor
  · intro hc
    refine ⟨c, Rows.mem_putAll_of_mem _ hdistinct hc, newRecoveryCodes_account hc, ?_⟩
    rw [← newRecoveryCodes_unused hc]
  · rintro ⟨r, hr, hA, rfl⟩
    rcases Rows.mem_of_mem_putAll _ hr with hr | hr
    · rw [← newRecoveryCodes_unused hr]
      exact hr
    · -- the old codes of the account are dropped
      obtain ⟨hr, hkey⟩ := Rows.mem_remove.mp hr
      exact absurd (List.mem_map.mpr ⟨r, (hall r).mpr ⟨hr, hA⟩, rfl⟩) hkey

/-- Any other commit keeps the codes of the account, but for their use. -/
lemma Effect.sameCodes (h : Effect P state q H b s') {A : Uuid}
    (hconfirms : PasswordVault.confirms A ⟨q, b, H.current, s'⟩ = false) :
    (∀ r ∈ s'.recoveryCodes, r.accountId = A → ∃ r₀ ∈ H.current.recoveryCodes,
      r₀.accountId = A ∧ ({ r with usedAt := none } : RecoveryCode) = { r₀ with usedAt := none }) ∧
    ∀ r₀ ∈ H.current.recoveryCodes, r₀.accountId = A → ∃ r ∈ s'.recoveryCodes,
      r.accountId = A ∧ ({ r₀ with usedAt := none } : RecoveryCode) = { r with usedAt := none } := by
  cases h.recoveryMove with
  | kept hcodes =>
      rw [hcodes]
      exact ⟨fun r hr hA => ⟨r, hr, hA, rfl⟩, fun r hr hA => ⟨r, hr, hA, rfl⟩⟩
  | @used code headers request text hclosing hq hcode hopen htext hhash hnew hsession hcodes =>
      rw [hcodes]
      constructor
      · intro r hr hA
        rcases Rows.mem_put.mp hr with rfl | ⟨hr, -⟩
        · exact ⟨code, (Rows.find?_eq_some.mp hcode).1, hA, rfl⟩
        · exact ⟨r, hr, hA, rfl⟩
      · intro r₀ hr₀ hA
        by_cases hid : r₀.id = code.id
        · have hfound := Rows.find?_of_mem hr₀
          rw [hid, hcode] at hfound
          obtain rfl := Option.some.inj hfound
          exact ⟨{ code with usedAt := some q.now }, Rows.mem_put.mpr (.inl rfl), hA, rfl⟩
        · exact ⟨r₀, Rows.mem_put.mpr (.inr ⟨hr₀, hid⟩), hA, rfl⟩
  | @rotated headers request session f step codes hclosing hq hload hf haccount hpending hf' hall
      hnew hdistinct hcodes =>
      -- the codes replaced are those of another account
      have hne : session.accountId ≠ A := by
        intro hA
        have hmem : f ∈ H.current.totpFactors := (Rows.find?_eq_some.mp hf).1
        rw [PasswordVault.confirms, List.any_eq_false] at hconfirms
        refine hconfirms f hmem ?_
        simp [PasswordVault.confirmsFactor, hf, hf', hpending, haccount, hA, TotpFactor.confirmed]
      have hsame : ∀ r : RecoveryCode, r.accountId = A →
          (r ∈ s'.recoveryCodes ↔ r ∈ H.current.recoveryCodes) := by
        intro r hr
        rw [hcodes, Rows.mem_putAll_iff (p := fun r : RecoveryCode => r.accountId = A) _ ?_ ?_ hr,
          Rows.mem_remove_iff (p := fun r : RecoveryCode => r.accountId = A) ?_ hr]
        · intro k hk y hy hA
          obtain ⟨x, hx, rfl⟩ := List.mem_map.mp hk
          obtain ⟨hmem, haccount'⟩ := (hall x).mp hx
          rw [Rows.find?_of_mem hmem] at hy
          exact hne (haccount'.symm.trans (Option.some.inj hy ▸ hA))
        · exact fun c hc hA => hne ((newRecoveryCodes_account hc).symm.trans hA)
        · intro c hc y hy
          obtain ⟨hmem, hid⟩ := Rows.find?_eq_some.mp hy
          obtain ⟨hmem, hkey⟩ := Rows.mem_remove.mp hmem
          exact absurd hid (hnew c hc y hmem hkey).1
      exact ⟨fun r hr hA => ⟨r, (hsame r hA).mp hr, hA, rfl⟩,
        fun r hr hA => ⟨r, (hsame r hA).mpr hr, hA, rfl⟩⟩

/-- **One commit keeps the set of an account.** -/
theorem SetOk.push {A : Uuid} (hok : SetOk P A H) (heff : Effect P state q H b s') :
    SetOk P A (H.push q b s') := by
  cases hconfirms : PasswordVault.confirms A ⟨q, b, H.current, s'⟩ with
  | true =>
      refine .inr ⟨H.entries, ⟨q, b, H.current, s'⟩, [], rfl, hconfirms, ?_, heff.issued hconfirms⟩
      intro e he
      cases he
  | false =>
      obtain ⟨hback, hforth⟩ := heff.sameCodes hconfirms
      rcases hok with ⟨hentries, hnone⟩ | ⟨l₁, e, l₂, hentries, he, hl₂, hissued⟩
      · refine .inl ⟨fun e he => ?_, fun c hc hA => ?_⟩
        · rcases List.mem_append.mp he with he | he
          · exact hentries e he
          · rwa [List.mem_singleton.mp he]
        · obtain ⟨c₀, hc₀, hA₀, -⟩ := hback c hc hA
          exact hnone c₀ hc₀ hA₀
      · refine .inr ⟨l₁, e, l₂ ++ [⟨q, b, H.current, s'⟩], ?_, he, fun e' he' => ?_,
          hissued.distinct, fun c => ?_⟩
        · rw [History.push_entries, hentries, List.append_assoc, List.cons_append]
        · rcases List.mem_append.mp he' with he' | he'
          · exact hl₂ e' he'
          · rwa [List.mem_singleton.mp he']
        · rw [hissued.same]
          constructor
          · rintro ⟨r, hr, hA, rfl⟩
            exact hforth r hr hA
          · rintro ⟨r, hr, hA, rfl⟩
            exact hback r hr hA

lemma ServiceRun.setOk (h : ServiceRun P state H) (A : Uuid) : SetOk P A H := by
  refine Run.invariant (K := SetOk P A) ?_ (fun H q b s _ heff _ hok => hok.push heff) h
  refine .inl ⟨fun e he => ?_, fun c hc => ?_⟩
  · cases he
  · cases hc

/-! ## Codes that are gone -/

/-- The code was issued, and is not there any more. -/
def Gone (k : Uuid) (H : Log) : Prop := Drawn k H ∧ H.current.recoveryCodes.find? k = none

/-- **A code that is gone stays so.** -/
lemma Gone.push {k : Uuid} (h : Gone k H) (hpush : ServiceRun P state (H.push q b s'))
    (heff : Effect P state q H b s') : Gone k (H.push q b s') := by
  obtain ⟨hdrawn, hnone⟩ := h
  refine ⟨hdrawn.push q b s', ?_⟩
  rcases hc : s'.recoveryCodes.find? k with _ | c
  · exact hc
  · rcases heff.codeFrom hc with ⟨c₀, hc₀, -⟩ | ⟨hclosing, A, hnew⟩
    · rw [hnone] at hc₀
      cases hc₀
    · obtain ⟨i, hi⟩ := newRecoveryCodes_drawn hnew
      exact absurd (hi.trans (Rows.find?_eq_some.mp hc).2) (hdrawn.fresh hpush hclosing i)

/-- A code seen once is of its account for good. -/
lemma ServiceRun.code_account (h : ServiceRun P state H) {c : RecoveryCode}
    (hc : H.Saw fun s => c ∈ s.recoveryCodes) :
    Drawn c.id H ∧ ∀ c', H.current.recoveryCodes.find? c.id = some c' →
      c'.accountId = c.accountId := by
  refine Later.induction (K := fun H => (H.Saw fun s => c ∈ s.recoveryCodes) → Drawn c.id H ∧
    ∀ c', H.current.recoveryCodes.find? c.id = some c' → c'.accountId = c.accountId) ?_ .start
    ⟨h, List.nil_prefix⟩ ?_ hc
  · intro H q b s _ hpush heff hK hsaw
    rcases History.saw_push.mp hsaw with hmem | hsaw
    · have hc := Rows.find?_of_mem hmem
      refine ⟨(ServiceRun.codeOk hpush c.id).drawn c hc, fun c' hc' => ?_⟩
      rw [← Option.some.inj (hc.symm.trans hc')]
    · obtain ⟨hdrawn, haccount⟩ := hK hsaw
      refine ⟨hdrawn.push q b s, fun c' hc' => ?_⟩
      rcases Effect.codeFrom heff hc' with ⟨c₀, hc₀, rfl | ⟨-, rfl⟩⟩ | ⟨hclosing, A, hnew⟩
      · exact haccount c' hc₀
      · exact haccount c₀ hc₀
      · obtain ⟨i, hi⟩ := newRecoveryCodes_drawn hnew
        exact absurd (hi.trans (Rows.find?_eq_some.mp hc').2) (hdrawn.fresh hpush hclosing i)
  · rintro (hc | ⟨e, he, -⟩)
    · cases hc
    · cases he

/-- A confirmation drops every code that the account had. -/
lemma Effect.gone (h : Effect P state q H b s') (hrun : ServiceRun P state H)
    (hpush : ServiceRun P state (H.push q b s')) {A : Uuid}
    (hconfirms : PasswordVault.confirms A ⟨q, b, H.current, s'⟩ = true) {c : RecoveryCode}
    (hc : H.Saw fun s => c ∈ s.recoveryCodes) (hA : c.accountId = A) :
    Gone c.id (H.push q b s') := by
  obtain ⟨codes, hclosing, hall, hnew, hdistinct, hcodes⟩ := h.confirms hconfirms
  obtain ⟨hdrawn, haccount⟩ := hrun.code_account hc
  refine ⟨hdrawn.push q b s', ?_⟩
  rw [History.push_current, hcodes, Rows.find?_putAll_of_not_mem, Rows.find?_remove]
  · split
    · rfl
    · rename_i hkey
      rcases hfind : H.current.recoveryCodes.find? c.id with _ | c'
      · rfl
      · obtain ⟨hmem, hid⟩ := Rows.find?_eq_some.mp hfind
        refine absurd (List.mem_map.mpr ⟨c', (hall c').mpr ⟨hmem, ?_⟩, hid⟩) hkey
        exact (haccount c' hfind).trans hA
  · intro d hd hid
    obtain ⟨i, hi⟩ := newRecoveryCodes_drawn hd
    exact hdrawn.fresh hpush hclosing i (hi.trans hid)

/-! ## The whole log -/

/-- The recovery codes of an account. -/
def codesOf (A : Uuid) (s : Db) : List RecoveryCode :=
  s.recoveryCodes.list.filter fun c => c.accountId == A

/-- The row of a code, without its use. -/
def RecoveryCode.fresh (c : RecoveryCode) : RecoveryCode := { c with usedAt := none }

/-- The codes of the account are exactly the ten that the request issued. -/
lemma Issued.perm {A : Uuid} {s : Db} (h : Issued P q A s) :
    ((codesOf A s).map RecoveryCode.fresh).Perm (newRecoveryCodes P q.draws A) := by
  have hids : ((codesOf A s).map RecoveryCode.fresh).map RecoveryCode.id =
      (codesOf A s).map RecoveryCode.id := by
    rw [List.map_map]
    rfl
  have hnodup : ((codesOf A s).map RecoveryCode.id).Nodup :=
    s.recoveryCodes.nodup.sublist (List.filter_sublist.map _)
  apply (List.perm_ext_iff_of_nodup (hids ▸ hnodup).of_map h.distinct.of_map).mpr
  intro c
  rw [h.same, List.mem_map]
  constructor
  · rintro ⟨r, hr, rfl⟩
    obtain ⟨hr, hA⟩ := List.mem_filter.mp hr
    exact ⟨r, hr, eq_of_beq hA, rfl⟩
  · rintro ⟨r, hr, hA, rfl⟩
    exact ⟨r, List.mem_filter.mpr ⟨hr, beq_iff_eq.mpr hA⟩, rfl⟩

/-- Recovery codes are single-use and rotated as a set. -/
structure CodesRotate (P : Platform) (H : Log) : Prop where
  /-- Every code is used once at most. -/
  once : ∀ k, H.entries.countP (usesCode k) ≤ 1
  /-- Every session for a recovery is created by the use of one code of its account. -/
  session : ∀ e ∈ H.entries, ∀ r ∈ e.after.sessions, r.sessionState = .mfaRecovery →
    e.before.sessions.find? r.id = none →
    ∃ c, e.before.recoveryCodes.find? c.id = some c ∧ c.accountId = r.accountId ∧
      ∀ k, usesCode k e = true ↔ k = c.id
  /-- The use of a code is a commit that creates one session for a recovery of its account. -/
  use : ∀ e ∈ H.entries, ∀ k, usesCode k e = true → e.closing = true ∧
    ∃ c r, e.before.recoveryCodes.find? k = some c ∧ r.accountId = c.accountId ∧
      r.sessionState = .mfaRecovery ∧ e.before.sessions.find? r.id = none ∧
      e.after.sessions = e.before.sessions.put r
  /-- An account has no codes before its first confirmation, and after it exactly the ten that the
  last one issued, used or not. -/
  set : ∀ A, ((∀ e ∈ H.entries, confirms A e = false) ∧ codesOf A H.current = []) ∨
    ∃ l₁ e l₂, H.entries = l₁ ++ e :: l₂ ∧ confirms A e = true ∧
      (∀ e' ∈ l₂, confirms A e' = false) ∧ (codesOf A H.current).length = 10 ∧
      ((codesOf A H.current).map RecoveryCode.fresh).Perm (newRecoveryCodes P e.request.draws A)
  /-- No code from before a confirmation is used after it. -/
  rotated : ∀ l₁ e l₂ A, H.entries = l₁ ++ e :: l₂ → confirms A e = true →
    ∀ e₀ ∈ l₁ ++ [e], ∀ c ∈ e₀.before.recoveryCodes, c.accountId = A →
      ∀ e' ∈ l₂, usesCode c.id e' = false
  /-- A failed attempt, and anything but the commit of a transaction, leaves the codes alone. -/
  failed : ∀ e ∈ H.entries, (∃ id, failedAttempt id e = true) ∨ e.closing = false →
    e.after.recoveryCodes = e.before.recoveryCodes

/-- **Recovery codes are single-use and rotated as a set**, in every reachable state. -/
theorem recovery_codes {sys : Service} (h : Reachable P state sys) : CodesRotate P sys.history := by
  have hrun := h.run
  have hentry : ∀ e ∈ sys.history.entries, ∃ H₁ : Log, H₁.current = e.before ∧
      Effect P state e.request H₁ e.closing e.after := by
    intro e he
    obtain ⟨l₁, l₂, hsplit⟩ := List.append_of_mem he
    obtain ⟨H₁, -, -, hbefore, heff, -⟩ := Run.split hrun hsplit
    exact ⟨H₁, hbefore, heff⟩
  refine ⟨fun k => (hrun.codeOk k).once, ?_, ?_, ?_, ?_, ?_⟩
  · intro e he r hr hstate hnew
    obtain ⟨H₁, hbefore, heff⟩ := hentry e he
    rw [← hbefore] at hnew
    have hsession := heff.recoverySession hr hstate hnew
    rw [hbefore] at hsession
    exact hsession
  · intro e he k huses
    obtain ⟨H₁, hbefore, heff⟩ := hentry e he
    rw [show e = ⟨e.request, e.closing, H₁.current, e.after⟩ by rw [hbefore]] at huses
    obtain ⟨code, hcode, hopen, hclosing, hnew, hsession, -⟩ := heff.usesCode huses
    rw [← hbefore]
    exact ⟨hclosing, code, _, hcode, rfl, rfl, hnew, hsession⟩
  · intro A
    rcases hrun.setOk A with ⟨hentries, hnone⟩ | ⟨l₁, e, l₂, hentries, he, hl₂, hissued⟩
    · refine .inl ⟨hentries, ?_⟩
      rw [codesOf, List.filter_eq_nil_iff]
      exact fun c hc hA => hnone c hc (eq_of_beq hA)
    · refine .inr ⟨l₁, e, l₂, hentries, he, hl₂, ?_, hissued.perm⟩
      rw [← List.length_map RecoveryCode.fresh, hissued.perm.length_eq, newRecoveryCodes_length]
  · intro l₁ e l₂ A hsplit hconfirms e₀ he₀ c hc hA e' he'
    obtain ⟨H₁, H₂, ⟨hrun₁, hl₁, hcur₁, heff₁, hpush₁⟩, hlater, hcur₂, heff₂⟩ :=
      Run.between hrun hsplit he'
    have hseen : H₁.Saw fun s => c ∈ s.recoveryCodes := by
      rcases List.mem_append.mp he₀ with he₀ | he₀
      · exact .inr ⟨e₀, hl₁ ▸ he₀, hc⟩
      · rw [List.mem_singleton.mp he₀, ← hcur₁] at hc
        exact .inl hc
    rw [show e = ⟨e.request, e.closing, H₁.current, e.after⟩ by rw [hcur₁]] at hconfirms
    have hgone := Effect.gone heff₁ hrun₁ hpush₁ hconfirms hseen hA
    have hgone₂ : Gone c.id H₂ :=
      Later.induction (K := Gone c.id) (fun _ _ _ _ _ hpush heff hK => hK.push hpush heff) hpush₁
        hlater hgone
    rw [usesCode, ← hcur₂, hgone₂.2]
    rfl
  · intro e he hcase
    obtain ⟨H₁, hbefore, heff⟩ := hentry e he
    rw [← hbefore]
    rcases hcase with ⟨id, hfail⟩ | hopen
    · rw [show e = ⟨e.request, e.closing, H₁.current, e.after⟩ by rw [hbefore]] at hfail
      exact heff.failed_codes hfail
    · cases heff.recoveryMove with
      | kept hcodes => exact hcodes
      | used hclosing => exact absurd (hclosing.symm.trans hopen) (by simp)
      | rotated hclosing => exact absurd (hclosing.symm.trans hopen) (by simp)

theorem recovery_codes_firstItem : CodesRotate standard (serveAll firstItem).history :=
  recovery_codes firstItem_reachable

end PasswordVault
