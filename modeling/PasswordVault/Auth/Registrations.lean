import PasswordVault.Auth.OneShot
import PasswordVault.Server.Isolation

/-!
# Registration is atomic and unique

* `AccountMove`: a commit leaves the accounts alone, or it is a registration.
* `Anchored`: the account that a row names exists; so a new account has only the rows that its
  registration inserts.
* `Complete`: an account with exactly one keyset, device, vault, key wrap and session, as a
  registration leaves it.
* `registrations`: the guarantees in every reachable state.
-/

namespace PasswordVault

open Transactions

variable {P : Platform} {state : AppState} {q : Request} {H : Log} {b : Bool} {s s' : Db}

/-! ## Accounts -/

/-- What a commit does to the accounts. -/
inductive AccountMove (P : Platform) (q : Request) (H : Log) (b : Bool) (s' : Db) : Prop
  | kept (haccounts : s'.accounts = H.current.accounts)
  | created {request : RegisterFinishRequest} {v : ValidatedRegisterFinish} {c : AuthChallenge}
      {metadata : RegisterChallengeMetadata} {accountSalt authVerifierSalt : Bytes}
      {rows : RegistrationRows} (hclosing : b = true) (hq : q.action = .registerFinish request)
      (hv : request.validate = .ok v)
      (hc : H.current.authChallenges.find? request.registrationId = some c)
      (hopen : c.consumedAt = none)
      (hused : s'.authChallenges.find? request.registrationId = some (c.consumed q.now))
      (hrows : rows = registrationRows P q.draws request.initialVault.vaultId v
        c.loginHandleNormalized metadata accountSalt authVerifierSalt q.now)
      (hnew : accounts.New [] rows.account H.current)
      (haccounts : s'.accounts = H.current.accounts.put rows.account)
      (hkeysets : s'.accountKeysets = H.current.accountKeysets.put rows.keyset)
      (hdevices : s'.devices = H.current.devices.put rows.device)
      (hvaults : s'.vaults = H.current.vaults.put rows.vault)
      (hkeyWraps : s'.vaultKeyWraps = H.current.vaultKeyWraps.put rows.keyWrap)
      (hsessions : s'.sessions = H.current.sessions.put rows.session) :
      AccountMove P q H b s'

/-- **Every commit moves the accounts in one of these ways.** -/
theorem Effect.accountMove (h : Effect P state q H b s') : AccountMove P q H b s' := by
  cases h with
  | @registered request v c metadata accountSalt authVerifierSalt rows event hq hv hc hopen hrows
      haccount =>
      obtain ⟨hid, -, -, hunused, -⟩ := isOpenChallenge_iff.mp hopen
      have hused := Rows.find?_put_self H.current.authChallenges (c.consumed q.now)
      rw [hid] at hc
      refine .created (c := c) rfl hq hv hc hunused ?_ hrows haccount rfl rfl rfl rfl rfl rfl
      rw [← hid]
      exact hused
  | loginRefused hq hc hopen hs =>
      rcases hs with rfl | ⟨event, rfl⟩
      · exact .kept rfl
      · exact .kept rfl
  | idle => exact .kept rfl
  | _ =>
      apply AccountMove.kept
      simp only [Db.audited, Table.putAll, Table.remove, devices, authChallenges, totpFactors,
        recoveryCodes, sessions, vaults, vaultItems, vaultItemRevisions]

/-- Accounts stay. -/
lemma AccountMove.hasAccount (h : AccountMove P q H b s') {A : Uuid}
    (hA : H.current.hasAccount A = true) : s'.hasAccount A = true := by
  unfold Db.hasAccount at hA ⊢
  cases h with
  | kept haccounts => rwa [haccounts]
  | created _ _ _ _ _ _ _ _ haccounts =>
      rw [haccounts, Rows.find?_put]
      split
      · rfl
      · exact hA

/-- No two accounts have the same normalized handle. -/
def OneHandle (s : Db) : Prop :=
  ∀ a ∈ s.accounts, ∀ a' ∈ s.accounts, a.loginHandleNormalized = a'.loginHandleNormalized → a = a'

lemma AccountMove.oneHandle (h : AccountMove P q H b s') (hone : OneHandle H.current) :
    OneHandle s' := by
  cases h with
  | kept haccounts =>
      unfold OneHandle
      rw [haccounts]
      exact hone
  | @created request v c metadata accountSalt authVerifierSalt rows _ _ _ _ _ _ _ hnew haccounts =>
      -- the unique index on the handle
      have hother : ∀ a ∈ H.current.accounts,
          a.loginHandleNormalized ≠ rows.account.loginHandleNormalized := by
        intro a ha hsame
        have hclash := (hnew a ha List.not_mem_nil).2
          (.loginHandle rows.account.loginHandleNormalized) List.mem_cons_self
        exact hclash (by rw [← hsame]; exact List.mem_cons_self)
      unfold OneHandle
      rw [haccounts]
      intro a ha a' ha' hsame
      rcases Rows.mem_put.mp ha with rfl | ⟨ha, -⟩ <;>
        rcases Rows.mem_put.mp ha' with rfl | ⟨ha', -⟩
      · rfl
      · exact absurd hsame.symm (hother a' ha')
      · exact absurd hsame (hother a ha)
      · exact hone a ha a' ha' hsame

lemma ServiceRun.oneHandle (h : ServiceRun P state H) : OneHandle H.current := by
  refine Run.invariant (K := fun H => OneHandle H.current) ?_ ?_ h
  · intro a ha
    cases ha
  · intro H q b s _ heff _ hone
    exact (Effect.accountMove heff).oneHandle hone

/-! ## Rows and their accounts -/

/-- The account that a row names exists. -/
structure Anchored (s : Db) : Prop where
  challenges : ∀ c ∈ s.authChallenges, c.accountId.all s.hasAccount = true
  devices : ∀ d ∈ s.devices, s.hasAccount d.accountId = true
  sessions : ∀ r ∈ s.sessions, s.hasAccount r.accountId = true
  accountKeysets : ∀ k ∈ s.accountKeysets, s.hasAccount k.accountId = true
  vaults : ∀ v ∈ s.vaults, s.hasAccount v.accountId = true
  vaultKeyWraps : ∀ w ∈ s.vaultKeyWraps, s.hasAccount w.accountId = true

/-- A commit that leaves the accounts alone, where each row names an account that a row named
before. -/
lemma Anchored.of_accounts (h : Anchored s) (ha : s'.accounts = s.accounts)
    (hchallenges : ∀ c ∈ s'.authChallenges, c.accountId.all s.hasAccount = true)
    (hdevices : ∀ d ∈ s'.devices, s.hasAccount d.accountId = true)
    (hsessions : ∀ r ∈ s'.sessions, s.hasAccount r.accountId = true)
    (hvaults : ∀ v ∈ s'.vaults, s.hasAccount v.accountId = true)
    (hkeysets : s'.accountKeysets = s.accountKeysets)
    (hkeyWraps : s'.vaultKeyWraps = s.vaultKeyWraps) : Anchored s' := by
  have hsame : s'.hasAccount = s.hasAccount := by
    unfold Db.hasAccount
    rw [ha]
  constructor
  · rwa [hsame]
  · rwa [hsame]
  · rwa [hsame]
  · rw [hsame, hkeysets]
    exact h.accountKeysets
  · rwa [hsame]
  · rw [hsame, hkeyWraps]
    exact h.vaultKeyWraps

/-- **Every commit keeps the rows anchored.** -/
theorem Effect.anchored (h : Effect P state q H b s') (ha : Anchored H.current) : Anchored s' := by
  have hfound : ∀ {c : AuthChallenge}, H.current.authChallenges.find? c.id = some c →
      c.accountId.all H.current.hasAccount = true :=
    fun hc => ha.challenges _ (Rows.find?_eq_some.mp hc).1
  have hnamed : ∀ {c : AuthChallenge} {A : Uuid}, H.current.authChallenges.find? c.id = some c →
      c.accountId = some A → H.current.hasAccount A = true := by
    intro c A hc hA
    have hall := hfound hc
    rwa [hA] at hall
  have hmove := h.accountMove
  cases h with
  | idle => exact ha
  | cleanup hissues hids =>
      refine ha.of_accounts rfl ?_ ha.devices ha.sessions ha.vaults rfl rfl
      exact fun c hc => ha.challenges c (Rows.mem_remove.mp hc).1
  | challengeIssued hid hissues hattempts hopen hcreated hexpires haccount =>
      exact ha.of_accounts rfl (Rows.forall_put haccount ha.challenges) ha.devices ha.sessions
        ha.vaults rfl rfl
  | sessionRevoked hrow =>
      have hA := ha.sessions _ (Rows.find?_eq_some.mp hrow).1
      exact ha.of_accounts rfl ha.challenges ha.devices (Rows.forall_put hA ha.sessions) ha.vaults
        rfl rfl
  | sessionRefreshed hrow =>
      have hA := ha.sessions _ (Rows.find?_eq_some.mp hrow).1
      exact ha.of_accounts rfl ha.challenges ha.devices (Rows.forall_put hA ha.sessions) ha.vaults
        rfl rfl
  | csrfIssued hq hrow =>
      generalize sha256Verifier P (q.draws.bytes 0 TOKEN_LEN) = hash
      have hA := ha.sessions _ (Rows.find?_eq_some.mp hrow).1
      exact ha.of_accounts rfl ha.challenges ha.devices (Rows.forall_put hA ha.sessions) ha.vaults
        rfl rfl
  | sessionEnded hq hids =>
      refine ha.of_accounts rfl ha.challenges ha.devices ?_ ha.vaults rfl rfl
      exact fun r hr => ha.sessions r (Rows.mem_remove.mp hr).1
  | @registered request v c metadata accountSalt authVerifierSalt rows event hq hv hc hopen hrows =>
      have hstays := fun A => hmove.hasAccount (A := A)
      have haccount : Db.hasAccount (authChallenges.putAll [c.consumed q.now] (Db.audited event
          (sessions.putAll [rows.session] (vaultKeyWraps.putAll [rows.keyWrap]
            (vaults.putAll [rows.vault] (devices.putAll [rows.device]
              (accountKeysets.putAll [rows.keyset]
                (accounts.putAll [rows.account] H.current)))))))) rows.account.id = true := by
        have hself := Rows.find?_put_self H.current.accounts rows.account
        exact (congrArg Option.isSome hself : _)
      subst hrows
      refine ⟨?_, ?_, ?_, ?_, ?_, ?_⟩
      · refine Rows.forall_put ?_ fun x hx => ?_
        · exact (Option.all_eq_true _ _).mpr fun A hA => hstays A (hnamed hc hA)
        · exact (Option.all_eq_true _ _).mpr fun A hA =>
            hstays A ((Option.all_eq_true _ _).mp (ha.challenges x hx) A hA)
      · exact Rows.forall_put haccount fun x hx => hstays _ (ha.devices x hx)
      · exact Rows.forall_put haccount fun x hx => hstays _ (ha.sessions x hx)
      · exact Rows.forall_put haccount fun x hx => hstays _ (ha.accountKeysets x hx)
      · exact Rows.forall_put haccount fun x hx => hstays _ (ha.vaults x hx)
      · exact Rows.forall_put haccount fun x hx => hstays _ (ha.vaultKeyWraps x hx)
  | loginRefused hq hc hopen hs =>
      have hkept := hfound hc
      rcases hs with rfl | ⟨event, rfl⟩
      · exact ha.of_accounts rfl (Rows.forall_put hkept ha.challenges) ha.devices ha.sessions
          ha.vaults rfl rfl
      · exact ha.of_accounts rfl (Rows.forall_put hkept ha.challenges) ha.devices ha.sessions
          ha.vaults rfl rfl
  | mfaIssued hq hc hopen haccount =>
      have hA := hnamed hc haccount
      have hkept := hfound hc
      refine ha.of_accounts rfl ?_ ha.devices ha.sessions ha.vaults rfl rfl
      exact Rows.forall_put hA (Rows.forall_put hkept ha.challenges)
  | setupSession hq hc hopen haccount =>
      have hA := hnamed hc haccount
      have hkept := hfound hc
      exact ha.of_accounts rfl (Rows.forall_put hkept ha.challenges)
        (Rows.forall_put hA ha.devices) (Rows.forall_put hA ha.sessions) ha.vaults rfl rfl
  | attemptFailed hq hc =>
      have hkept := hfound hc
      exact ha.of_accounts rfl (Rows.forall_put hkept ha.challenges) ha.devices ha.sessions
        ha.vaults rfl rfl
  | totpVerified hq hc hopen haccount =>
      have hA := hnamed hc haccount
      have hkept := hfound hc
      exact ha.of_accounts rfl (Rows.forall_put hkept ha.challenges)
        (Rows.forall_put hA ha.devices) (Rows.forall_put hA ha.sessions) ha.vaults rfl rfl
  | recoveryVerified hq hc hopen haccount =>
      have hA := hnamed hc haccount
      have hkept := hfound hc
      exact ha.of_accounts rfl (Rows.forall_put hkept ha.challenges)
        (Rows.forall_put hA ha.devices) (Rows.forall_put hA ha.sessions) ha.vaults rfl rfl
  | enrollStarted => exact ⟨ha.1, ha.2, ha.3, ha.4, ha.5, ha.6⟩
  | enrollFailed => exact ⟨ha.1, ha.2, ha.3, ha.4, ha.5, ha.6⟩
  | enrollConfirmed hq hload hstate hf hfactor hkey hprofile hcode hstep hcodes hnew hdistinct
      hrows =>
      generalize newRecoveryCodes _ _ _ = newCodes
      refine ha.of_accounts rfl ha.challenges ha.devices ?_ ha.vaults rfl rfl
      refine Rows.forall_putAll (fun r' hr' => ?_) ha.sessions
      obtain ⟨r, hr, rfl⟩ := List.mem_map.mp hr'
      exact ha.sessions r (Rows.find?_eq_some.mp (hrows r hr).1).1
  | itemCreated hq hv hload hstate hvault =>
      have hA := ha.vaults _ (Rows.find?_eq_some.mp hvault).1
      apply ha.of_accounts <;>
        simp only [Db.audited, Table.putAll, vaults, vaultItems, vaultItemRevisions]
      · exact ha.challenges
      · exact ha.devices
      · exact ha.sessions
      · exact Rows.forall_put hA ha.vaults
  | itemRevised hq hv hload hstate hvault =>
      have hA := ha.vaults _ (Rows.find?_eq_some.mp hvault).1
      apply ha.of_accounts <;>
        simp only [Db.audited, Table.putAll, vaults, vaultItems, vaultItemRevisions]
      · exact ha.challenges
      · exact ha.devices
      · exact ha.sessions
      · exact Rows.forall_put hA ha.vaults

lemma ServiceRun.anchored (h : ServiceRun P state H) : Anchored H.current := by
  refine Run.invariant (K := fun H => Anchored H.current) ?_ ?_ h
  · constructor <;> intro x hx <;> cases hx
  · intro H q b s _ heff _ ha
    exact Effect.anchored heff ha

/-! ## Complete accounts -/

/-- The rows are all that the account has in these tables, as a registration leaves them. -/
structure Complete (P : Platform) (rows : RegistrationRows) (s : Db) : Prop where
  keyset : ∀ k, k ∈ s.accountKeysets ∧ k.accountId = rows.account.id ↔ k = rows.keyset
  device : ∀ d, d ∈ s.devices ∧ d.accountId = rows.account.id ↔ d = rows.device
  vault : ∀ v, v ∈ s.vaults ∧ v.accountId = rows.account.id ↔ v = rows.vault
  keyWrap : ∀ w, w ∈ s.vaultKeyWraps ∧ w.accountId = rows.account.id ↔ w = rows.keyWrap
  session : ∀ r, r ∈ s.sessions ∧ r.accountId = rows.account.id ↔ r = rows.session
  /-- The vault is at head 0, with the genesis hash. -/
  head : rows.vault.headSeq = 0 ∧ rows.vault.headHash = genesisHeadHash P rows.vault.id ∧
    rows.vault.genesisHeadHash = genesisHeadHash P rows.vault.id
  /-- The key wrap is of the vault, under the key of the keyset. -/
  wraps : rows.keyWrap.vaultId = rows.vault.id ∧ rows.keyWrap.keyId = rows.keyset.keyId
  /-- The session has to enroll a second factor, on the device. -/
  setup : rows.session.sessionState = .mfaEnrollmentRequired ∧
    rows.session.deviceId = some rows.device.id

/-- What no row is about before is about one row after it was written. -/
lemma only_put {R : Type} {key : R → Uuid} {account : R → Uuid} {t : Rows Uuid R key} {r : R}
    {A : Uuid} (hr : account r = A) (hnone : ∀ x ∈ t, account x ≠ A) (x : R) :
    x ∈ t.put r ∧ account x = A ↔ x = r := by
  constructor
  · rintro ⟨hx, hA⟩
    rcases Rows.mem_put.mp hx with hx | ⟨hx, -⟩
    · exact hx
    · exact absurd hA (hnone x hx)
  · rintro rfl
    exact ⟨Rows.mem_put.mpr (.inl rfl), hr⟩

/-- In a valid request the key wrap names the key of the keyset. -/
lemma RegisterFinishRequest.validate_keyId {request : RegisterFinishRequest}
    {v : ValidatedRegisterFinish} (h : request.validate = .ok v) :
    v.encryptedVaultKey.keyId = v.encryptedAccountKeyset.keyId := by
  unfold RegisterFinishRequest.validate at h
  obtain ⟨storedKey, -, h⟩ := bind_ok.mp h
  obtain ⟨serverKey, -, h⟩ := bind_ok.mp h
  obtain ⟨-, -, h⟩ := bind_ok.mp h
  obtain ⟨keyset, -, h⟩ := bind_ok.mp h
  obtain ⟨vaultKey, -, h⟩ := bind_ok.mp h
  obtain ⟨_, hsame, h⟩ := bind_ok.mp h
  obtain ⟨device, -, h⟩ := bind_ok.mp h
  obtain rfl := Except.ok.inj h
  rw [ensure_ok, beq_iff_eq] at hsame
  exact hsame.symm

/-- **A registration makes a complete account.** -/
theorem AccountMove.complete (h : AccountMove P q H b s') (hanchored : Anchored H.current)
    {a : Account} (ha : a ∈ s'.accounts) (hnone : H.current.accounts.find? a.id = none) :
    ∃ rows : RegistrationRows, rows.account = a ∧ Complete P rows s' := by
  cases h with
  | kept haccounts =>
      rw [haccounts] at ha
      rw [Rows.find?_of_mem ha] at hnone
      cases hnone
  | @created request v c metadata accountSalt authVerifierSalt rows _ _ hv _ _ _ hrows _ haccounts
      hkeysets hdevices hvaults hkeyWraps hsessions =>
      have hself : rows.account = a := by
        rw [haccounts] at ha
        rcases Rows.mem_put.mp ha with rfl | ⟨ha, -⟩
        · rfl
        · rw [Rows.find?_of_mem ha] at hnone
          cases hnone
      subst hself
      -- no row before names the new account
      have hunnamed : H.current.hasAccount rows.account.id ≠ true := by
        unfold Db.hasAccount
        rw [hnone]
        simp
      have hkeyId := RegisterFinishRequest.validate_keyId hv
      have hkeyset : rows.keyset.accountId = rows.account.id := by rw [hrows]; rfl
      have hdevice : rows.device.accountId = rows.account.id := by rw [hrows]; rfl
      have hvault : rows.vault.accountId = rows.account.id := by rw [hrows]; rfl
      have hkeyWrap : rows.keyWrap.accountId = rows.account.id := by rw [hrows]; rfl
      have hsession : rows.session.accountId = rows.account.id := by rw [hrows]; rfl
      refine ⟨rows, rfl, ?_, ?_, ?_, ?_, ?_, ?_, ?_, ?_⟩
      · rw [hkeysets]
        apply only_put hkeyset
        exact fun x hx hA => hunnamed (hA ▸ hanchored.accountKeysets x hx)
      · rw [hdevices]
        apply only_put hdevice
        exact fun x hx hA => hunnamed (hA ▸ hanchored.devices x hx)
      · rw [hvaults]
        apply only_put hvault
        exact fun x hx hA => hunnamed (hA ▸ hanchored.vaults x hx)
      · rw [hkeyWraps]
        apply only_put hkeyWrap
        exact fun x hx hA => hunnamed (hA ▸ hanchored.vaultKeyWraps x hx)
      · rw [hsessions]
        apply only_put hsession
        exact fun x hx hA => hunnamed (hA ▸ hanchored.sessions x hx)
      · rw [hrows]
        exact ⟨rfl, rfl, rfl⟩
      · rw [hrows]
        exact ⟨rfl, hkeyId⟩
      · rw [hrows]
        exact ⟨rfl, rfl⟩

/-- An account stays complete as long as its rows do. -/
lemma Complete.same {rows : RegistrationRows} (h : Complete P rows s)
    (hsame : SameRows rows.account.id s s') : Complete P rows s' := by
  have hkeep : ∀ {R : Type} {key account : R → Uuid} {t t' : Rows Uuid R key} {r : R},
      (∀ x, account x = rows.account.id → (x ∈ t' ↔ x ∈ t)) →
      (∀ x, x ∈ t ∧ account x = rows.account.id ↔ x = r) →
      ∀ x, x ∈ t' ∧ account x = rows.account.id ↔ x = r := by
    intro R key account t t' r hiff honly x
    rw [← honly x]
    exact and_congr_left fun hA => hiff x hA
  exact ⟨hkeep hsame.accountKeysets h.keyset, hkeep hsame.devices h.device,
    hkeep hsame.vaults h.vault, hkeep hsame.vaultKeyWraps h.keyWrap,
    hkeep hsame.sessions h.session, h.head, h.wraps, h.setup⟩

/-! ## Registrations among themselves -/

/-- A request to one of the endpoints of the registration. -/
def Action.registers : Action → Bool
  | .registerStart _ | .registerFinish _ => true
  | _ => false

/-- **A request to register leaves every account alone** that is there already. -/
theorem Effect.registering (h : Effect P state q H b s') (hq : q.action.registers = true)
    {A : Uuid} (hA : H.current.hasAccount A = true) : SameRows A H.current s' := by
  have hnot : ∀ {headers}, q.action.sessionHeaders ≠ some headers := by
    intro headers
    unfold Action.registers at hq
    split at hq
    · rename_i haction
      rw [haction]
      simp [Action.sessionHeaders]
    · rename_i haction
      rw [haction]
      simp [Action.sessionHeaders]
    · cases hq
  have habsurd : ∀ {a : Action}, q.action = a → a.registers = false → SameRows A H.current s' := by
    intro a ha hfalse
    rw [ha, hfalse] at hq
    cases hq
  cases h with
  | idle => exact .refl A _
  | cleanup =>
      exact ⟨fun _ _ => Iff.rfl, fun _ _ => Iff.rfl, fun _ _ => Iff.rfl, fun _ _ => Iff.rfl,
        fun _ _ => Iff.rfl, fun _ _ => Iff.rfl, fun _ _ => Iff.rfl, fun _ _ => Iff.rfl,
        fun _ _ => Iff.rfl, fun _ _ => Iff.rfl⟩
  | challengeIssued =>
      exact ⟨fun _ _ => Iff.rfl, fun _ _ => Iff.rfl, fun _ _ => Iff.rfl, fun _ _ => Iff.rfl,
        fun _ _ => Iff.rfl, fun _ _ => Iff.rfl, fun _ _ => Iff.rfl, fun _ _ => Iff.rfl,
        fun _ _ => Iff.rfl, fun _ _ => Iff.rfl⟩
  | @registered request v c metadata accountSalt authVerifierSalt rows event hq' hv hc hopen hrows
      haccount hkeyset hdevice hvault hkeyWrap hsession =>
      have hne : rows.account.id ≠ A := by
        intro hid
        have hnone : H.current.accounts.find? rows.account.id = none := Table.find?_of_new haccount
        rw [Db.hasAccount, ← hid, hnone] at hA
        cases hA
      have hput : ∀ {R : Type} {key account : R → Uuid} {t : Rows Uuid R key} {r : R},
          account r = rows.account.id → t.find? (key r) = none →
          ∀ x, account x = A → (x ∈ t.put r ↔ x ∈ t) := by
        intro R key account t r hr hnone x hx
        refine Rows.mem_put_iff (p := fun x => account x = A) ?_ ?_ hx
        · exact fun hA => hne (hr.symm.trans hA)
        · exact fun y hy => absurd (hy.symm.trans hnone) (by simp)
      refine ⟨?_, ?_, ?_, fun _ _ => Iff.rfl, fun _ _ => Iff.rfl, ?_, ?_, ?_, fun _ _ => Iff.rfl,
        fun _ _ => Iff.rfl⟩
      · exact hput rfl (Table.find?_of_new haccount)
      · exact hput (by rw [hrows]; rfl) (Table.find?_of_new hdevice)
      · exact hput (by rw [hrows]; rfl) (Table.find?_of_new hsession)
      · exact hput (by rw [hrows]; rfl) (Table.find?_of_new hkeyset)
      · exact hput (by rw [hrows]; rfl) (Table.find?_of_new hvault)
      · exact hput (by rw [hrows]; rfl) (Table.find?_of_new hkeyWrap)
  | sessionRevoked _ hheaders => exact absurd hheaders hnot
  | sessionRefreshed _ _ hheaders => exact absurd hheaders hnot
  | attemptFailed hq' =>
      rcases hq' with ⟨_, _, hq', -⟩ | ⟨_, _, hq', -⟩
      · exact habsurd hq' rfl
      · exact habsurd hq' rfl
  | _ hq' => exact habsurd hq' rfl

lemma ServiceRun.complete (h : ServiceRun P state H)
    (hall : ∀ e ∈ H.entries, e.request.action.registers = true) :
    ∀ a ∈ H.current.accounts, ∃ rows : RegistrationRows,
      rows.account = a ∧ Complete P rows H.current := by
  refine Run.invariant (K := fun H => (∀ e ∈ H.entries, e.request.action.registers = true) →
    ∀ a ∈ H.current.accounts, ∃ rows : RegistrationRows,
      rows.account = a ∧ Complete P rows H.current) ?_ ?_ h hall
  · intro _ a ha
    cases ha
  · intro H q b s hrun heff _ ih hall a ha
    have hq : q.action.registers = true :=
      hall ⟨q, b, H.current, s⟩ (List.mem_append_right _ List.mem_cons_self)
    rcases hold : H.current.accounts.find? a.id with _ | a₀
    · exact (Effect.accountMove heff).complete (ServiceRun.anchored hrun) ha hold
    · have hA : H.current.hasAccount a.id = true := by rw [Db.hasAccount, hold]; rfl
      have hsame := Effect.registering heff hq hA
      obtain ⟨rows, hrows, hcomplete⟩ := ih (fun e he => hall e (List.mem_append_left _ he)) a
        ((hsame.accounts a rfl).mp ha)
      exact ⟨rows, hrows, hcomplete.same (hrows ▸ hsame)⟩

/-! ## The guarantees -/

/-- The request finishes the registration that the challenge `id` started. -/
def Request.finishesRegistration (id : Uuid) (q : Request) : Bool :=
  match q.action with
  | .registerFinish request => request.registrationId == id
  | _ => false

/-- The entry creates an account. -/
def createsAccount (e : Entry Db Request) : Bool :=
  e.after.accounts.list.any fun a => (e.before.accounts.find? a.id).isNone

/-- The clock of the request shows a time that has an RFC 3339 text, as have the times at which a
session of that time expires. -/
def Request.Timely (P : Platform) (q : Request) : Prop :=
  (P.rfc3339 (q.now + SESSION_IDLE_TTL)).isSome = true ∧
    (P.rfc3339 (q.now + SESSION_ABSOLUTE_TTL)).isSome = true

/-- Any clock that shows a time between 1970 and 9599 is timely. -/
lemma timely_standard {t : Int} (ht : q.draws.clock 0 = t) (h0 : 0 ≤ t)
    (h : t + 43200000000 < 240784704000 * 1000000) : q.Timely standard := by
  unfold Request.Timely Request.now nowUtcSecond SESSION_IDLE_TTL SESSION_ABSOLUTE_TTL hours minutes
    seconds
  rw [ht]
  constructor
  · apply rfc3339_isSome <;> omega
  · apply rfc3339_isSome <;> omega

/-- Registration is atomic and unique. -/
structure Registrations (P : Platform) (sys : Service) : Prop where
  /-- A register challenge creates one account at most. -/
  once : ∀ id, sys.history.entries.countP
    (fun e => createsAccount e && e.request.finishesRegistration id) ≤ 1
  /-- An account is created by the commit of a `register_finish`, together with all its rows. -/
  creates : ∀ e ∈ sys.history.entries, createsAccount e = true → e.closing = true ∧
    (∃ id, e.request.finishesRegistration id = true) ∧
    ∃ rows : RegistrationRows, e.after.accounts = e.before.accounts.put rows.account ∧
      e.before.accounts.find? rows.account.id = none ∧ Complete P rows e.after
  /-- There is one account at most with a normalized handle. -/
  handle : OneHandle sys.history.current
  /-- As long as all requests are registrations, every account is complete. -/
  complete : (∀ t ∈ sys.threads, t.request.action.registers = true) →
    ∀ a ∈ sys.history.current.accounts, ∃ rows : RegistrationRows,
      rows.account = a ∧ Complete P rows sys.history.current
  /-- A `register_finish` that does not answer 201 has changed nothing. -/
  refused : ∀ t ∈ sys.threads, ∀ request r, t.request.action = .registerFinish request →
    t.request.Timely P → t.program = .answer r → r.status ≠ 201 →
    ∀ e ∈ sys.history.entries, e.request ≠ t.request

/-! ### Nothing is committed without a 201 -/

section atomic

variable {α β : Type} {good : Response → Prop}

lemma atomic_attempt {x : Except ApiError α} {next : α → ApiProgram}
    (h : ∀ a, x = .ok a → (next a).Atomic good) : (attempt x next).Atomic good := by
  cases x with
  | ok a => exact h a rfl
  | error e => exact .answer _

lemma atomic_inside {stmt : Statement Db Lock β} {failed : DbError → Response}
    {next : β → ApiProgram} (h : ∀ v, (next v).Atomic good) :
    (Handler.inside stmt failed next : ApiProgram).Atomic good :=
  .inside h

end atomic

/-- A `register_finish` commits only with the answer 201. -/
lemma registerFinish_atomic {request : RegisterFinishRequest}
    (hq : q.action = .registerFinish request) (htime : q.Timely P) :
    (serve P state q).Atomic fun r => r.status = 201 := by
  obtain ⟨hidle, habsolute⟩ := htime
  obtain ⟨idle, hidle⟩ := Option.isSome_iff_exists.mp hidle
  obtain ⟨absolute, habsolute⟩ := Option.isSome_iff_exists.mp habsolute
  unfold serve handler
  rw [hq]
  unfold registerFinish Handler.run
  refine atomic_attempt fun _ _ => atomic_attempt fun _ _ => atomic_attempt fun v _ => ?_
  refine atomic_inside fun rows => ?_
  dsimp only
  rcases rows.head? with _ | c
  · exact .answer _
  · refine atomic_attempt fun metadata _ => atomic_attempt fun accountSalt _ => ?_
    refine atomic_attempt fun authVerifierSalt _ => ?_
    refine atomic_inside fun _ => atomic_inside fun _ => atomic_inside fun _ => ?_
    refine atomic_inside fun _ => atomic_inside fun _ => atomic_inside fun _ => ?_
    refine atomic_inside fun _ => atomic_inside fun _ => .commit ?_
    rw [sessionResponse, registrationRows]
    dsimp only
    rw [formatRfc3339, show P.rfc3339 (nowUtcSecond (q.draws.clock 0) + SESSION_IDLE_TTL) = _ from
      hidle, formatRfc3339, show P.rfc3339 (nowUtcSecond (q.draws.clock 0) +
      SESSION_ABSOLUTE_TTL) = _ from habsolute]
    rfl

/-- **Registration is atomic and unique**, in every reachable state. -/
theorem registrations {sys : Service} (h : Reachable P state sys) : Registrations P sys := by
  have hrun := h.run
  -- the commit that creates an account
  have hentry : ∀ e ∈ sys.history.entries, createsAccount e = true →
      ∃ H₁ : Log, ServiceRun P state H₁ ∧ H₁.current = e.before ∧
        Effect P state e.request H₁ e.closing e.after ∧
        ∃ a ∈ e.after.accounts, H₁.current.accounts.find? a.id = none := by
    intro e he hcreates
    obtain ⟨l₁, l₂, hsplit⟩ := List.append_of_mem he
    obtain ⟨H₁, hrun₁, -, hbefore, heff, -⟩ := Run.split hrun hsplit
    obtain ⟨a, ha, hnone⟩ := List.any_eq_true.mp hcreates
    rw [Option.isNone_iff_eq_none, ← hbefore] at hnone
    exact ⟨H₁, hrun₁, hbefore, heff, a, ha, hnone⟩
  refine ⟨fun id => ?_, fun e he hcreates => ?_, hrun.oneHandle, fun hall => ?_, ?_⟩
  · -- such a commit consumes the challenge
    refine le_trans (List.countP_mono_left fun e he hcreates => ?_) (h.used_once id)
    rw [Bool.and_eq_true] at hcreates
    obtain ⟨H₁, hrun₁, hbefore, heff, a, ha, hnone⟩ := hentry e he hcreates.1
    cases heff.accountMove with
    | kept haccounts =>
        rw [haccounts] at ha
        rw [Rows.find?_of_mem ha] at hnone
        cases hnone
    | @created request v c _ _ _ rows hclosing hq hv hc hopen hused =>
        have hid := hcreates.2
        rw [Request.finishesRegistration, hq, beq_iff_eq] at hid
        rw [usesChallenge, ← hbefore, ← hid, hc, hused]
        simp [hopen, AuthChallenge.consumed]
  · obtain ⟨H₁, hrun₁, hbefore, heff, a, ha, hnone⟩ := hentry e he hcreates
    have hmove := heff.accountMove
    obtain ⟨rows, rfl, hcomplete⟩ := hmove.complete hrun₁.anchored ha hnone
    cases hmove with
    | kept haccounts =>
        rw [haccounts] at ha
        rw [Rows.find?_of_mem ha] at hnone
        cases hnone
    | @created request v c _ _ _ rows' hclosing hq hv hc hopen hused hrows hnew haccounts =>
        have hsame : rows.account = rows'.account := by
          rw [haccounts] at ha
          rcases Rows.mem_put.mp ha with hsame | ⟨ha, -⟩
          · exact hsame
          · rw [Rows.find?_of_mem ha] at hnone
            cases hnone
        refine ⟨hclosing, ⟨request.registrationId, ?_⟩, rows, ?_, ?_, hcomplete⟩
        · rw [Request.finishesRegistration, hq]
          exact beq_self_eq_true _
        · rw [haccounts, hbefore, hsame]
        · rw [← hbefore]
          exact hnone
  · refine hrun.complete fun e he => ?_
    obtain ⟨t, ht, hreq⟩ := h.ok.known e he
    rw [← hreq]
    exact hall t ht
  · intro t ht request r hq htime hr hstatus
    have hatomic := System.Reaches.atomic
      (fun q => (∃ request, q.action = .registerFinish request) ∧ q.Timely P)
      (fun _ r => r.status = 201) Fresh.irrefl
      (fun q hq => registerFinish_atomic hq.1.choose_spec hq.2) h ht ⟨⟨request, hq⟩, htime⟩
    rcases hatomic with hnothing | ⟨r', hr', hcreated⟩
    · exact hnothing
    · rw [hr] at hr'
      cases hr'
      exact absurd hcreated hstatus

theorem registrations_firstItem : Registrations standard (serveAll firstItem) :=
  registrations firstItem_reachable

end PasswordVault
