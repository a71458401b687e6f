import PasswordVault.Auth.Moves

/-!
# The factor of an account, and its recovery codes

* `OneFactor`: an account has one factor at a time.
* `Settled`: a factor that was confirmed or dropped is never pending again.
* `kept_codes`: so while a request holds the lock on the pending factor of an account, no other
  request brings in recovery codes of the account.
-/

namespace PasswordVault

open Transactions

variable {P : Platform} {state : AppState} {q : Request} {H : Log} {b : Bool} {s' : Db}

/-! ## One factor per account -/

/-- The unique index on the account of a factor. -/
def OneFactor (s : Db) : Prop :=
  ∀ f ∈ s.totpFactors, ∀ f' ∈ s.totpFactors, f.accountId = f'.accountId → f.id = f'.id

lemma OneFactor.put {s : Db} (h : OneFactor s) {f f' : TotpFactor}
    (hf : s.totpFactors.find? f.id = some f) (hid : f'.id = f.id)
    (haccount : f'.accountId = f.accountId) : OneFactor (totpFactors.putAll [f'] s) := by
  have hmem : f ∈ s.totpFactors := (Rows.find?_eq_some.mp hf).1
  intro x hx y hy hxy
  rcases Rows.mem_put.mp hx with rfl | ⟨hx', -⟩ <;> rcases Rows.mem_put.mp hy with rfl | ⟨hy', -⟩
  · rfl
  · exact hid.trans (h f hmem y hy' (haccount.symm.trans hxy))
  · exact (h x hx' f hmem (hxy.trans haccount)).trans hid.symm
  · exact h x hx' y hy' hxy

lemma OneFactor.remove {s : Db} (h : OneFactor s) (ids : List Uuid) :
    OneFactor (totpFactors.remove ids s) := by
  intro x hx y hy hxy
  exact h x (Rows.mem_remove.mp hx).1 y (Rows.mem_remove.mp hy).1 hxy

lemma OneFactor.insert {s : Db} (h : OneFactor s) {ids : List Uuid} {f : TotpFactor}
    (hnew : totpFactors.New ids f s) :
    OneFactor (totpFactors.putAll [f] (totpFactors.remove ids s)) := by
  -- a row that stays has another account than the new one
  have hother : ∀ x ∈ s.totpFactors.remove ids, x.accountId ≠ f.accountId := by
    intro x hx haccount
    obtain ⟨hx, hkey⟩ := Rows.mem_remove.mp hx
    have hclash := (hnew x hx hkey).2 (.factorOf f.accountId) List.mem_cons_self
    exact hclash (by rw [← haccount]; exact List.mem_cons_self)
  intro x hx y hy hxy
  rcases Rows.mem_put.mp hx with rfl | ⟨hx', -⟩ <;> rcases Rows.mem_put.mp hy with rfl | ⟨hy', -⟩
  · rfl
  · exact absurd hxy.symm (hother y hy')
  · exact absurd hxy (hother x hx')
  · exact h.remove ids x hx' y hy' hxy

lemma OneFactor.of_eq {s s' : Db} (h : OneFactor s) (he : s'.totpFactors = s.totpFactors) :
    OneFactor s' := by
  unfold OneFactor
  rw [he]
  exact h

lemma Effect.oneFactor (h : Effect P state q H b s') (hone : OneFactor H.current) :
    OneFactor s' := by
  cases h with
  | loginRefused hq hc hopen hs =>
      rcases hs with rfl | ⟨event, rfl⟩
      · exact hone
      · exact hone
  | totpVerified hq hc hopen haccount hattempts hf hfactor =>
      exact @OneFactor.put _ hone _ (TotpFactor.accepted _ _ _) hf rfl rfl
  | enrollStarted hq hload hstate hrows hnew => exact hone.insert hnew
  | enrollFailed => exact hone.remove _
  | enrollConfirmed hq hload hstate hf =>
      generalize newRecoveryCodes _ _ _ = newCodes
      exact hone.put hf rfl rfl
  | idle => exact hone
  | _ =>
      refine hone.of_eq ?_
      simp only [Db.audited, Table.putAll, Table.remove, accounts, devices, authChallenges,
        recoveryCodes, sessions, accountKeysets, vaults, vaultKeyWraps, vaultItems,
        vaultItemRevisions]

lemma ServiceRun.oneFactor (h : ServiceRun P state H) : OneFactor H.current := by
  refine Run.invariant (K := fun H => OneFactor H.current) ?_ ?_ h
  · intro f hf
    cases hf
  · intro H q b s _ heff _ hone
    exact Effect.oneFactor heff hone

/-! ## Pending factors -/

lemma newRecoveryCodes_account {draws : Draws} {accountId : Uuid} {code : RecoveryCode}
    (h : code ∈ newRecoveryCodes P draws accountId) : code.accountId = accountId := by
  unfold newRecoveryCodes at h
  rw [List.mem_iff_getElem] at h
  obtain ⟨i, hi, rfl⟩ := h
  rw [List.getElem_zipWith]
  rfl

/-- The identifier of a factor was drawn by a commit. -/
def DrawnFactor (id : Uuid) (H : Log) : Prop :=
  ∃ e ∈ H.entries, e.closing = true ∧ e.request.draws.uuid 0 = id

lemma DrawnFactor.push {id : Uuid} (h : DrawnFactor id H) (q : Request) (b : Bool) (s' : Db) :
    DrawnFactor id (H.push q b s') := by
  obtain ⟨e, he, hdrawn⟩ := h
  exact ⟨e, List.mem_append_left _ he, hdrawn⟩

/-- The identifier of every factor was drawn by the commit that inserted it. -/
lemma ServiceRun.drawnFactor (h : ServiceRun P state H) {id : Uuid} {f : TotpFactor}
    (hf : H.current.totpFactors.find? id = some f) : DrawnFactor id H := by
  refine Run.invariant (K := fun H => ∀ f, H.current.totpFactors.find? id = some f →
    DrawnFactor id H) ?_ ?_ h f hf
  · intro f hf
    cases hf
  · intro H q b s _ heff _ hdrawn f' hf'
    have hmove := Effect.factorMove heff id
    rw [History.push_current] at hf'
    rw [hf'] at hmove
    generalize ho : H.current.totpFactors.find? id = o at hmove
    cases hmove with
    | kept => exact (hdrawn f' ho).push q b s
    | started hclosing _ _ _ _ hid =>
        exact ⟨⟨q, b, H.current, s⟩, List.mem_append_right _ List.mem_cons_self, hclosing, hid⟩
    | accepted => exact (hdrawn _ ho).push q b s
    | confirmed => exact (hdrawn _ ho).push q b s

/-- The factor was inserted, and is not pending. -/
def Settled (id : Uuid) (H : Log) : Prop :=
  DrawnFactor id H ∧ ∀ f, H.current.totpFactors.find? id = some f → f.verifiedAt.isSome = true

/-- **A factor that is settled stays so.** -/
lemma Settled.push {id : Uuid} (h : Settled id H) (hrun : ServiceRun P state (H.push q b s'))
    (heff : Effect P state q H b s') : Settled id (H.push q b s') := by
  obtain ⟨hdrawn, hverified⟩ := h
  refine ⟨hdrawn.push q b s', fun f' hf' => ?_⟩
  have hmove := heff.factorMove id
  rw [History.push_current] at hf'
  rw [hf'] at hmove
  generalize ho : H.current.totpFactors.find? id = o at hmove
  cases hmove with
  | kept => exact hverified f' ho
  | started hclosing _ _ _ _ hid =>
      obtain ⟨e, he, hclosing', hid'⟩ := hdrawn
      exact absurd (hid'.trans hid.symm) ((hrun.push_fresh hclosing e he hclosing').1 0 0)
  | accepted _ _ hverified' => exact hverified'
  | confirmed => rfl

/-- The pending factor, and the keys that bound the recovery codes of its account. -/
def PendingWith (f : TotpFactor) (ks : List Uuid) (s : Db) : Prop :=
  s.totpFactors.find? f.id = some f ∧
    ∀ code ∈ s.recoveryCodes, code.accountId = f.accountId → code.id ∈ ks

/-- While the factor of an account is pending, no commit brings in recovery codes of the account. -/
lemma PendingWith.push {f : TotpFactor} {ks : List Uuid} (h : PendingWith f ks H.current)
    (hpending : f.verifiedAt = none) (hrun : ServiceRun P state H)
    (hpush : ServiceRun P state (H.push q b s')) (heff : Effect P state q H b s') :
    Settled f.id (H.push q b s') ∨ PendingWith f ks s' := by
  obtain ⟨hf, hks⟩ := h
  obtain ⟨e, he, hclosing', hid'⟩ := hrun.drawnFactor hf
  have hdrawn : DrawnFactor f.id (H.push q b s') :=
    ⟨e, List.mem_append_left _ he, hclosing', hid'⟩
  rcases hf' : s'.totpFactors.find? f.id with _ | f'
  · refine .inl ⟨hdrawn, fun g hg => ?_⟩
    rw [History.push_current, hf'] at hg
    cases hg
  by_cases hsome : f'.verifiedAt.isSome = true
  · refine .inl ⟨hdrawn, fun g hg => ?_⟩
    rw [History.push_current, hf'] at hg
    rwa [← Option.some.inj hg]
  · -- the factor is still pending, so it is the same row
    have hsame : s'.totpFactors.find? f.id = some f := by
      have hmove := heff.factorMove f.id
      rw [hf, hf'] at hmove
      cases hmove with
      | kept => exact hf'
      | started hclosing _ _ _ _ hid =>
          exact absurd (hid'.trans hid.symm) ((hpush.push_fresh hclosing e he hclosing').1 0 0)
      | accepted _ _ hverified => exact absurd hverified hsome
      | confirmed => exact absurd rfl hsome
    refine .inr ⟨hsame, fun code hcode haccount => ?_⟩
    cases heff.recoveryMove with
    | kept hcodes =>
        rw [hcodes] at hcode
        exact hks code hcode haccount
    | @used used _ _ _ _ _ hfound _ _ _ _ _ hcodes =>
        rw [hcodes] at hcode
        rcases Rows.mem_put.mp hcode with rfl | ⟨hcode, -⟩
        · exact hks used (Rows.find?_eq_some.mp hfound).1 haccount
        · exact hks code hcode haccount
    | @rotated _ _ session g _ _ _ _ _ hg hgaccount _ hg' _ _ _ hcodes =>
        rw [hcodes] at hcode
        rcases Rows.mem_of_mem_putAll _ hcode with hnew | hold
        · -- the account of the new codes would have a second factor
          have hsession : code.accountId = session.accountId := newRecoveryCodes_account hnew
          have hid : g.id = f.id := hrun.oneFactor g (Rows.find?_eq_some.mp hg).1 f
            (Rows.find?_eq_some.mp hf).1 (hgaccount.trans (hsession.symm.trans haccount))
          rw [hid, hsame] at hg'
          rw [Option.some.inj hg'] at hpending
          cases hpending
        · exact hks code (Rows.mem_remove.mp hold).1 haccount

/-- **While the lock on a pending factor is held**, no other request brings in recovery codes of its
account. -/
theorem kept_codes {f : TotpFactor} {locks : List Lock} (hpending : f.verifiedAt = none)
    (hl : Lock.row .totpFactors f.id ∈ locks) (ks : List Uuid) :
    Stable (Guarantee P state) (Fresh P) ({} : Db) locks
      fun H => PendingWith f ks H.current := by
  intro H H' hrun henv hK
  have hlater : Settled f.id H' ∨ PendingWith f ks H'.current := by
    refine Later.induction (K := fun H => Settled f.id H ∨ PendingWith f ks H.current) ?_ hrun
      henv.1 (.inr hK)
    intro H₁ q b s hrun₁ hpush heff hK₁
    rcases hK₁ with hsettled | hK₁
    · exact .inl (hsettled.push hpush heff)
    · exact hK₁.push hpending hrun₁ hpush heff
  rcases hlater with hsettled | hK'
  · -- the lock has kept the row
    have hkept : H'.current.totpFactors.find? f.id = some f :=
      ((totpFactors.respects _ _ _ (henv.2 _ hl)).1 f.id rfl).trans hK.1
    have hverified := hsettled.2 f hkept
    rw [hpending] at hverified
    cases hverified
  · exact hK'

end PasswordVault
