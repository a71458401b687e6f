import PasswordVault.Auth.Factors
import PasswordVault.Server.Soundness
import PasswordVault.Server.Standard

/-!
# No TOTP code counts twice

An entry of the log accepts a step of a factor (`acceptedStep`) when it is a `totp_verify` that
creates a session of the factor's account, or when it turns the pending factor into a verified one.

* `Effect.acceptedStep`: the submitted code is the code of that step, and the step is written to
  the row.
* `StepsOk`: the row's `last_accepted_step` bounds all steps accepted so far.
* `totp_replay`: so the accepted steps of a factor are strictly increasing along the log.
-/

namespace PasswordVault

open Transactions

variable {P : Platform} {state : AppState} {q : Request} {H : Log} {b : Bool} {s' : Db}

/-- The code that a request submits for a factor. -/
def Request.totpCode (q : Request) : Option String :=
  match q.action with
  | .totpVerify _ request => some request.code
  | .totpEnrollConfirm _ request => some request.code
  | _ => none

/-- The entry is a login of the account with a TOTP code. -/
def totpLogin (accountId : Uuid) (e : Entry Db Request) : Bool :=
  (match e.request.action with
    | .totpVerify _ _ => true
    | _ => false) &&
  e.after.sessions.list.any fun r =>
    r.accountId == accountId && (e.before.sessions.find? r.id).isNone

/-- The entry confirms the enrollment of the factor `id`. -/
def confirmsFactor (id : Uuid) (e : Entry Db Request) : Bool :=
  ((e.before.totpFactors.find? id).any fun f => f.verifiedAt.isNone) &&
    (e.after.totpFactors.find? id).any fun f => f.verifiedAt.isSome

/-- The time step of the factor `id` that the entry accepts. -/
def acceptedStep (id : Uuid) (e : Entry Db Request) : Option Int :=
  if ((e.before.totpFactors.find? id).any fun f => f.verifiedAt.isSome && totpLogin f.accountId e) ||
      confirmsFactor id e then
    (e.after.totpFactors.find? id).bind TotpFactor.lastAcceptedStep
  else none

/-! ## Accepted codes -/

/-- **A right code is for a step after the last accepted one.** -/
theorem AcceptsCode.after_last {code : String} {f : TotpFactor} {step last : Int}
    (h : AcceptsCode P state q code f step) (hlast : f.lastAcceptedStep = some last) :
    last < step := by
  obtain ⟨seedKey, profile, acceptedStep, -, -, hcode, hstep⟩ := h
  unfold checkFactorCode at hcode
  obtain ⟨-, -, hcode⟩ := bind_ok.mp hcode
  obtain ⟨last', hlast', hcode⟩ := bind_ok.mp hcode
  obtain ⟨seed, -, hcode⟩ := bind_ok.mp hcode
  obtain ⟨time, -, hcode⟩ := bind_ok.mp hcode
  have hverify : Totp.verify P seed time code profile last' = .ok (some acceptedStep) := by
    split at hcode
    · rename_i step' hverify
      rw [hverify, Except.ok.inj hcode]
    · cases hcode
  have hstored : 0 ≤ last ∧ last' = some last.toNat := by
    rw [hlast, stepFromRow] at hlast'
    split at hlast'
    · exact ⟨by assumption, (Except.ok.inj hlast').symm⟩
    · cases hlast'
  have hrow : (acceptedStep : Int) = step := by
    unfold stepToRow at hstep
    split at hstep
    · exact Except.ok.inj hstep
    · cases hstep
  rw [hstored.2] at hverify
  have hlt := Totp.verify_after_last hverify
  omega

/-! ## One commit -/

/-- A login with a TOTP code accepts a step of the verified factor of the account. -/
lemma Effect.totpLogin (h : Effect P state q H b s') {accountId : Uuid}
    (hlogin : totpLogin accountId ⟨q, b, H.current, s'⟩ = true) :
    ∃ f code step, H.current.totpFactors.find? f.id = some f ∧ f.accountId = accountId ∧
      f.verifiedAt.isSome = true ∧ q.totpCode = some code ∧ AcceptsCode P state q code f step ∧
      s'.totpFactors.find? f.id = some (f.accepted step q.now) := by
  rw [PasswordVault.totpLogin, Bool.and_eq_true, List.any_eq_true] at hlogin
  obtain ⟨haction, r, hr, hnew⟩ := hlogin
  rw [Bool.and_eq_true, beq_iff_eq, Option.isNone_iff_eq_none] at hnew
  obtain ⟨haccount, hnew⟩ := hnew
  have hmove := h.sessionMove r.id
  have hfound : s'.sessions.find? r.id = some r := Rows.find?_of_mem hr
  rw [show H.current.sessions.find? r.id = none from hnew, hfound] at hmove
  dsimp only at haction
  cases hmove with
  | setup _ _ _ hq =>
      rcases hq with ⟨request, hq⟩ | ⟨headers, request, hq⟩
      · rw [hq] at haction
        cases haction
      · rw [hq] at haction
        cases haction
  | verified _ _ _ hq _ hf hfaccount hverified hcode hf' =>
      refine ⟨_, _, _, hf, hfaccount.trans haccount, hverified, ?_, hcode, hf'⟩
      rw [Request.totpCode, hq]
  | recovered _ _ _ hq =>
      rw [hq] at haction
      cases haction

/-- An entry that turns a pending factor into a verified one accepts a step of it. -/
lemma Effect.confirmsFactor (h : Effect P state q H b s') {id : Uuid}
    (hconfirms : confirmsFactor id ⟨q, b, H.current, s'⟩ = true) :
    ∃ f code step, H.current.totpFactors.find? id = some f ∧ q.totpCode = some code ∧
      AcceptsCode P state q code f step ∧
      s'.totpFactors.find? id = some (f.confirmed step q.now) := by
  rw [PasswordVault.confirmsFactor, Bool.and_eq_true, Option.any_eq_true, Option.any_eq_true]
    at hconfirms
  obtain ⟨⟨f, hf, hpending⟩, f', hf', hverified⟩ := hconfirms
  rw [Option.isNone_iff_eq_none] at hpending
  have hmove := h.factorMove id
  dsimp only at hf hf'
  rw [hf, hf'] at hmove
  rw [hf, hf']
  cases hmove with
  | kept =>
      rw [hpending] at hverified
      cases hverified
  | started _ _ _ _ _ _ _ hpending' =>
      rw [hpending'] at hverified
      cases hverified
  | accepted _ _ hverified' =>
      rw [hpending] at hverified'
      cases hverified'
  | confirmed _ hq _ _ _ _ _ hcode =>
      refine ⟨f, _, _, rfl, ?_, hcode, rfl⟩
      rw [Request.totpCode, hq]

/-- **An accepted step** is one the submitted code is right for, and is written to the row. -/
theorem Effect.acceptedStep (h : Effect P state q H b s') (hone : OneFactor H.current) {id : Uuid}
    {step : Int} (hstep : acceptedStep id ⟨q, b, H.current, s'⟩ = some step) :
    ∃ f f' code, H.current.totpFactors.find? id = some f ∧ q.totpCode = some code ∧
      AcceptsCode P state q code f step ∧ s'.totpFactors.find? id = some f' ∧
      f'.lastAcceptedStep = some step := by
  unfold PasswordVault.acceptedStep at hstep
  split at hstep
  · rename_i hcond
    rw [Bool.or_eq_true, Option.any_eq_true] at hcond
    rcases hcond with ⟨f, hf, hlogin⟩ | hconfirms
    · rw [Bool.and_eq_true] at hlogin
      obtain ⟨f₁, code, step₁, hf₁, haccount, -, hcode, haccepts, hafter⟩ := h.totpLogin hlogin.2
      -- the account has one factor only
      obtain ⟨hmem, hid⟩ := Rows.find?_eq_some.mp hf
      have hsame : f₁.id = f.id := hone f₁ (Rows.find?_eq_some.mp hf₁).1 f hmem haccount
      have hid₁ : f₁.id = id := hsame.trans hid
      rw [hid₁] at hf₁ hafter
      rw [hafter] at hstep
      obtain rfl := Option.some.inj hstep
      exact ⟨f₁, _, code, hf₁, hcode, haccepts, hafter, rfl⟩
    · obtain ⟨f, code, step₁, hf, hcode, haccepts, hafter⟩ := h.confirmsFactor hconfirms
      rw [hafter] at hstep
      obtain rfl := Option.some.inj hstep
      exact ⟨f, _, code, hf, hcode, haccepts, hafter, rfl⟩
  · cases hstep

/-! ## All commits -/

/-- The steps of a factor accepted so far, in the order of the commits. -/
def acceptedSteps (id : Uuid) (entries : List (Entry Db Request)) : List Int :=
  entries.filterMap (acceptedStep id)

/-- The invariant: they increase, and the row of the factor bounds them. -/
structure StepsOk (id : Uuid) (H : Log) : Prop where
  increasing : (acceptedSteps id H.entries).Pairwise (· < ·)
  last : ∀ f, H.current.totpFactors.find? id = some f → ∀ step ∈ acceptedSteps id H.entries,
    ∃ last, f.lastAcceptedStep = some last ∧ step ≤ last
  /-- The factor was inserted by a commit that drew its identifier. -/
  drawn : ((H.current.totpFactors.find? id).isSome = true ∨ acceptedSteps id H.entries ≠ []) →
    ∃ e ∈ H.entries, e.closing = true ∧ e.request.draws.uuid 0 = id

/-- A right code moves the bound up. -/
lemma StepsOk.bound {id : Uuid} (h : StepsOk id H) {f : TotpFactor}
    (hf : H.current.totpFactors.find? id = some f) {code : String} {step : Int}
    (hcode : AcceptsCode P state q code f step) :
    ∀ step' ∈ acceptedSteps id H.entries, step' < step := by
  intro step' hstep'
  obtain ⟨last, hlast, hle⟩ := h.last f hf step' hstep'
  have hlt := hcode.after_last hlast
  omega

/-- **One commit keeps the invariant.** -/
theorem StepsOk.push {id : Uuid} (h : StepsOk id H) (heff : Effect P state q H b s')
    (hone : OneFactor H.current)
    (hfresh : b = true → ∀ e ∈ H.entries, e.closing = true → Fresh P e.request q) :
    StepsOk id (H.push q b s') := by
  have hold : (∃ e ∈ H.entries, e.closing = true ∧ e.request.draws.uuid 0 = id) →
      ∃ e ∈ (H.push q b s').entries, e.closing = true ∧ e.request.draws.uuid 0 = id :=
    fun ⟨e, he, hdrawn⟩ => ⟨e, List.mem_append_left _ he, hdrawn⟩
  rcases hstep : acceptedStep id ⟨q, b, H.current, s'⟩ with _ | step
  · have hsteps : acceptedSteps id (H.push q b s').entries = acceptedSteps id H.entries := by
      rw [acceptedSteps, History.push_entries, List.filterMap_append, List.filterMap_cons_none hstep,
        List.filterMap_nil, List.append_nil, acceptedSteps]
    have hmove := heff.factorMove id
    refine ⟨hsteps ▸ h.increasing, ?_, ?_⟩
    · intro f' hf'
      rw [hsteps]
      rw [History.push_current] at hf'
      rw [hf'] at hmove
      generalize ho : H.current.totpFactors.find? id = o at hmove
      cases hmove with
      | kept => exact h.last f' ho
      | started hclosing _ _ _ _ hid =>
          intro step' hstep'
          obtain ⟨e, he, hclosing', hid'⟩ := h.drawn (.inr (List.ne_nil_of_mem hstep'))
          exact absurd (hid'.trans hid.symm) ((hfresh hclosing e he hclosing').1 0 0)
      | accepted _ _ _ hcode =>
          intro step' hstep'
          exact ⟨_, rfl, Int.le_of_lt (h.bound ho hcode step' hstep')⟩
      | confirmed _ _ _ _ _ _ _ hcode =>
          intro step' hstep'
          exact ⟨_, rfl, Int.le_of_lt (h.bound ho hcode step' hstep')⟩
    · rw [hsteps]
      rintro (hsome | hne)
      · rw [History.push_current] at hsome
        obtain ⟨f', hf'⟩ := Option.isSome_iff_exists.mp hsome
        rw [hf'] at hmove
        generalize ho : H.current.totpFactors.find? id = o at hmove
        cases hmove with
        | kept => exact hold (h.drawn (.inl (by rw [ho]; rfl)))
        | started hclosing _ _ _ _ hid =>
            exact ⟨⟨q, b, H.current, s'⟩, List.mem_append_right _ List.mem_cons_self, hclosing, hid⟩
        | accepted => exact hold (h.drawn (.inl (by rw [ho]; rfl)))
        | confirmed => exact hold (h.drawn (.inl (by rw [ho]; rfl)))
      · exact hold (h.drawn (.inr hne))
  · obtain ⟨f, f', code, hf, -, haccepts, hafter, hlast⟩ := heff.acceptedStep hone hstep
    have hbound := h.bound hf haccepts
    have hsteps : acceptedSteps id (H.push q b s').entries =
        acceptedSteps id H.entries ++ [step] := by
      rw [acceptedSteps, History.push_entries, List.filterMap_append,
        List.filterMap_cons_some hstep, List.filterMap_nil, acceptedSteps]
    refine ⟨?_, ?_, fun _ => hold (h.drawn (.inl (by rw [hf]; rfl)))⟩
    · rw [hsteps, List.pairwise_append]
      refine ⟨h.increasing, List.pairwise_singleton _ _, ?_⟩
      intro step' hstep' x hx
      rw [List.mem_singleton.mp hx]
      exact hbound step' hstep'
    · intro f'' hf'' step' hstep'
      rw [History.push_current, hafter] at hf''
      obtain rfl := Option.some.inj hf''
      refine ⟨step, hlast, ?_⟩
      rw [hsteps] at hstep'
      rcases List.mem_append.mp hstep' with hstep' | hstep'
      · exact Int.le_of_lt (hbound step' hstep')
      · exact Int.le_of_eq (List.mem_singleton.mp hstep')

lemma ServiceRun.stepsOk (h : ServiceRun P state H) (id : Uuid) : StepsOk id H := by
  refine Run.invariant (K := fun H => StepsOk id H ∧ OneFactor H.current) ?_ ?_ h |>.1
  · refine ⟨⟨.nil, fun f hf => (by cases hf), ?_⟩, fun f hf => by cases hf⟩
    rintro (hsome | hne)
    · cases hsome
    · exact absurd rfl hne
  · intro H q b s _ heff hfresh hok
    exact ⟨hok.1.push heff hok.2 hfresh, Effect.oneFactor heff hok.2⟩

/-- Each TOTP code counts once, in a log of the service. -/
structure CodesOnce (P : Platform) (state : AppState) (H : Log) : Prop where
  /-- The time steps of a factor accepted so far, by logins and by the confirmation of its
  enrollment, are strictly increasing in the order of the commits. -/
  increasing : ∀ id, (acceptedSteps id H.entries).Pairwise (· < ·)
  /-- Each of them is accepted once. -/
  once : ∀ id step, H.entries.countP (fun e => acceptedStep id e == some step) ≤ 1
  /-- No step up to an accepted one is accepted later. -/
  burned : ∀ id l₁ e l₂ step, H.entries = l₁ ++ e :: l₂ → acceptedStep id e = some step →
    ∀ e' ∈ l₂, ∀ step', acceptedStep id e' = some step' → step < step'
  /-- A login with a TOTP code accepts a step of a factor of the account, with the code of it. -/
  login : ∀ e ∈ H.entries, ∀ accountId, totpLogin accountId e = true →
    ∃ id f code step, e.before.totpFactors.find? id = some f ∧ f.accountId = accountId ∧
      acceptedStep id e = some step ∧ e.request.totpCode = some code ∧
      AcceptsCode P state e.request code f step
  /-- A confirmed enrollment accepts a step of the factor, with the code of it. -/
  confirmation : ∀ e ∈ H.entries, ∀ id, confirmsFactor id e = true →
    ∃ f code step, e.before.totpFactors.find? id = some f ∧ acceptedStep id e = some step ∧
      e.request.totpCode = some code ∧ AcceptsCode P state e.request code f step

/-- **No TOTP code counts twice**, in every reachable state of the service. -/
theorem totp_replay {sys : Service} (h : Reachable P state sys) :
    CodesOnce P state sys.history := by
  have hincreasing : ∀ id, (acceptedSteps id sys.history.entries).Pairwise (· < ·) :=
    fun id => (ServiceRun.stepsOk h.run id).increasing
  refine ⟨hincreasing, ?_, ?_, ?_, ?_⟩
  · intro id step
    have hnodup : (acceptedSteps id sys.history.entries).Nodup :=
      (hincreasing id).imp fun hlt heq => by omega
    rw [← List.count_filterMap]
    exact List.nodup_iff_count_le_one.mp hnodup step
  · intro id l₁ e l₂ step he hstep e' he' step' hstep'
    have hpair := hincreasing id
    rw [he, acceptedSteps, List.filterMap_append, List.filterMap_cons_some hstep,
      List.pairwise_append] at hpair
    exact (List.pairwise_cons.mp hpair.2.1).1 step' (List.mem_filterMap.mpr ⟨e', he', hstep'⟩)
  · intro e he accountId hlogin
    obtain ⟨l₁, l₂, hsplit⟩ := List.append_of_mem he
    obtain ⟨H₁, -, -, hbefore, heff, -, -⟩ := h.run.split hsplit
    have hlogin' : totpLogin accountId ⟨e.request, e.closing, H₁.current, e.after⟩ = true := by
      rw [hbefore]
      exact hlogin
    obtain ⟨f, code, step, hf, haccount, hverified, hcode, haccepts, hafter⟩ :=
      Effect.totpLogin heff hlogin'
    rw [hbefore] at hf
    refine ⟨f.id, f, code, step, hf, haccount, ?_, hcode, haccepts⟩
    rw [acceptedStep, hf, hafter, Option.any_some, hverified, haccount, hlogin]
    rfl
  · intro e he id hconfirms
    obtain ⟨l₁, l₂, hsplit⟩ := List.append_of_mem he
    obtain ⟨H₁, -, -, hbefore, heff, -, -⟩ := h.run.split hsplit
    have hconfirms' : confirmsFactor id ⟨e.request, e.closing, H₁.current, e.after⟩ = true := by
      rw [hbefore]
      exact hconfirms
    obtain ⟨f, code, step, hf, hcode, haccepts, hafter⟩ := Effect.confirmsFactor heff hconfirms'
    rw [hbefore] at hf
    refine ⟨f, code, step, hf, ?_, hcode, haccepts⟩
    rw [acceptedStep, hconfirms, Bool.or_true, if_pos rfl, hafter]
    rfl

/-- The codes of a run with an enrollment. -/
theorem totp_replay_firstItem : CodesOnce standard configured (serveAll firstItem).history :=
  totp_replay firstItem_reachable

end PasswordVault
