import PasswordVault.Auth.Moves
import PasswordVault.Server.Soundness
import PasswordVault.Server.Standard

/-!
# The budget of a challenge for the second factor

A wrong answer to a `pre_mfa` challenge is an entry of the log that raises its `attempts`
(`failedAttempt`); a session created from it is an entry whose request answers the challenge and
that adds a session (`sessionFrom`). The row counts the wrong answers of the whole log
(`BudgetOk`), so that five of them, or one session, consume the challenge for good:
`preMfa_budget`.
-/

namespace PasswordVault

open Transactions

variable {P : Platform} {state : AppState} {q : Request} {H : Log} {b : Bool} {s' : Db}

/-- The request answers the challenge `id` for the second factor. -/
def Request.answersChallenge (q : Request) (id : Uuid) : Bool :=
  match q.action with
  | .totpVerify _ request => request.mfaChallengeId == id
  | .recoveryCodeVerify _ request => request.mfaChallengeId == id
  | _ => false

/-- The entry records a failed attempt at the challenge `id`. -/
def failedAttempt (id : Uuid) (e : Entry Db Request) : Bool :=
  match e.before.authChallenges.find? id, e.after.authChallenges.find? id with
  | some c, some c' => decide (c.attempts < c'.attempts)
  | _, _ => false

/-- The entry creates a session from the challenge `id`. -/
def sessionFrom (id : Uuid) (e : Entry Db Request) : Bool :=
  e.request.answersChallenge id &&
    e.after.sessions.list.any fun r => (e.before.sessions.find? r.id).isNone

/-! ## One commit -/

/-- A commit that records a failed attempt found the challenge open, with attempts left. -/
lemma Effect.failedAttempt (h : Effect P state q H b s') {id : Uuid}
    (hfail : failedAttempt id ⟨q, b, H.current, s'⟩ = true) :
    ∃ c, H.current.authChallenges.find? id = some c ∧
      isOpenChallenge id .preMfa q.now c = true ∧ c.attempts < MFA_CHALLENGE_MAX_ATTEMPTS ∧
      s'.authChallenges.find? id = some (c.incremented q.now) := by
  have hmove := h.challengeMove id
  unfold PasswordVault.failedAttempt at hfail
  dsimp only at hfail
  generalize H.current.authChallenges.find? id = o at hmove hfail ⊢
  generalize s'.authChallenges.find? id = o' at hmove hfail ⊢
  cases hmove with
  | kept => cases o <;> simp at hfail
  | cleaned => cases o <;> simp at hfail
  | issued => simp at hfail
  | used => simp [AuthChallenge.consumed] at hfail
  | asked => simp at hfail
  | failed hopen hattempts => exact ⟨_, rfl, hopen, hattempts, rfl⟩
  | passed => simp [AuthChallenge.consumed] at hfail

/-- A commit that creates a session from the challenge found it open, with attempts left, and
consumes it. -/
lemma Effect.sessionFrom (h : Effect P state q H b s') {id : Uuid}
    (hsession : sessionFrom id ⟨q, b, H.current, s'⟩ = true) :
    ∃ c, H.current.authChallenges.find? id = some c ∧
      isOpenChallenge id .preMfa q.now c = true ∧ c.attempts < MFA_CHALLENGE_MAX_ATTEMPTS ∧
      s'.authChallenges.find? id = some (c.consumed q.now) := by
  rw [PasswordVault.sessionFrom, Bool.and_eq_true, List.any_eq_true] at hsession
  obtain ⟨hanswers, r, hr, hnew⟩ := hsession
  rw [Option.isNone_iff_eq_none] at hnew
  have hmove := h.sessionMove r.id
  have hfound : s'.sessions.find? r.id = some r := Rows.find?_of_mem hr
  rw [show H.current.sessions.find? r.id = none from hnew, hfound] at hmove
  unfold Request.answersChallenge at hanswers
  cases hmove with
  | setup _ _ _ hq =>
      rcases hq with ⟨request, hq⟩ | ⟨headers, request, hq⟩
      · rw [hq] at hanswers
        cases hanswers
      · rw [hq] at hanswers
        cases hanswers
  | verified _ _ _ hq hpass =>
      rw [hq] at hanswers
      rw [eq_of_beq hanswers] at hpass
      obtain ⟨c, hc, -, hopen, hattempts, hafter⟩ := hpass
      exact ⟨c, hc, hopen, hattempts, hafter⟩
  | recovered _ _ _ hq hpass =>
      rw [hq] at hanswers
      rw [eq_of_beq hanswers] at hpass
      obtain ⟨c, hc, -, hopen, hattempts, hafter⟩ := hpass
      exact ⟨c, hc, hopen, hattempts, hafter⟩

/-! ## All commits -/

/-- The invariant: the row of the challenge counts the failed attempts of the log, and is consumed
after the fifth one and after a session. -/
structure BudgetOk (id : Uuid) (H : Log) : Prop where
  failures : H.entries.countP (failedAttempt id) ≤ 5
  sessions : H.entries.countP (sessionFrom id) ≤ 1
  row : ∀ c, H.current.authChallenges.find? id = some c → c.challengeType = .preMfa →
    c.attempts = H.entries.countP (failedAttempt id) ∧
    (5 ≤ c.attempts → c.consumedAt.isSome = true) ∧
    (0 < H.entries.countP (sessionFrom id) → c.consumedAt.isSome = true)
  /-- The challenge was issued by a commit that drew its identifier. -/
  drawn : (0 < H.entries.countP (failedAttempt id) ∨ 0 < H.entries.countP (sessionFrom id) ∨
      ∃ c, H.current.authChallenges.find? id = some c ∧ c.challengeType = .preMfa) →
    ∃ e ∈ H.entries, e.closing = true ∧ e.request.draws.uuid 2 = id

lemma countP_push {p : Entry Db Request → Bool} (H : Log) (q : Request) (b : Bool) (s' : Db) :
    (H.push q b s').entries.countP p =
      H.entries.countP p + if p ⟨q, b, H.current, s'⟩ = true then 1 else 0 := by
  rw [History.push_entries, List.countP_append, List.countP_singleton]

/-- A challenge that was not issued yet has no attempts and no sessions. -/
lemma BudgetOk.unused {id : Uuid} (h : BudgetOk id H)
    (hfresh : ∀ e ∈ H.entries, e.closing = true → e.request.draws.uuid 2 ≠ id) :
    H.entries.countP (failedAttempt id) = 0 ∧ H.entries.countP (sessionFrom id) = 0 := by
  constructor
  · by_contra hne
    obtain ⟨e, he, hclosing, hid⟩ := h.drawn (.inl (Nat.pos_of_ne_zero hne))
    exact hfresh e he hclosing hid
  · by_contra hne
    obtain ⟨e, he, hclosing, hid⟩ := h.drawn (.inr (.inl (Nat.pos_of_ne_zero hne)))
    exact hfresh e he hclosing hid

/-- The open challenge has led to no session so far. -/
lemma BudgetOk.sessions_eq_zero {id : Uuid} (h : BudgetOk id H) {c : AuthChallenge}
    (hc : H.current.authChallenges.find? id = some c)
    (hopen : isOpenChallenge id .preMfa q.now c = true) :
    H.entries.countP (sessionFrom id) = 0 := by
  obtain ⟨-, htype, -, hunconsumed, -⟩ := isOpenChallenge_iff.mp hopen
  obtain ⟨-, -, hsession⟩ := h.row c hc htype
  by_contra hne
  have hsome := hsession (Nat.pos_of_ne_zero hne)
  rw [hunconsumed] at hsome
  cases hsome

/-- A commit that touches a challenge for the second factor leaves the commit that issued it. -/
lemma BudgetOk.drawn_push {id : Uuid} (h : BudgetOk id H) {c : AuthChallenge}
    (hc : H.current.authChallenges.find? id = some c) (htype : c.challengeType = .preMfa) :
    ∃ e ∈ (H.push q b s').entries, e.closing = true ∧ e.request.draws.uuid 2 = id := by
  obtain ⟨e, he, hdrawn⟩ := h.drawn (.inr (.inr ⟨c, hc, htype⟩))
  exact ⟨e, List.mem_append_left _ he, hdrawn⟩

/-- A failed attempt is counted by the log and by the row. -/
lemma BudgetOk.push_failed {id : Uuid} (h : BudgetOk id H) (heff : Effect P state q H b s')
    (hfail : failedAttempt id ⟨q, b, H.current, s'⟩ = true) : BudgetOk id (H.push q b s') := by
  obtain ⟨c, hc, hopen, hattempts, hafter⟩ := heff.failedAttempt hfail
  obtain ⟨-, htype, -⟩ := isOpenChallenge_iff.mp hopen
  obtain ⟨hcount, -, -⟩ := h.row c hc htype
  have hnone := h.sessions_eq_zero hc hopen
  have hnot : sessionFrom id ⟨q, b, H.current, s'⟩ = false := by
    rw [← Bool.not_eq_true]
    intro hsess
    obtain ⟨c', hc', -, -, hafter'⟩ := heff.sessionFrom hsess
    rw [hc] at hc'
    obtain rfl := Option.some.inj hc'
    rw [hafter] at hafter'
    have hattempts' : c.attempts + 1 = c.attempts :=
      congrArg AuthChallenge.attempts (Option.some.inj hafter')
    omega
  have hfailures : (H.push q b s').entries.countP (failedAttempt id) =
      H.entries.countP (failedAttempt id) + 1 := by
    rw [countP_push, if_pos hfail]
  have hsessions : (H.push q b s').entries.countP (sessionFrom id) = 0 := by
    rw [countP_push, hnot, hnone]
    rfl
  have hlt : (H.entries.countP (failedAttempt id) : Int) < 5 := hcount ▸ hattempts
  refine ⟨by omega, by omega, ?_, fun _ => h.drawn_push hc htype⟩
  intro c' hc' _
  rw [History.push_current, hafter] at hc'
  obtain rfl := Option.some.inj hc'
  refine ⟨?_, fun hfive => ?_, fun hpos => by omega⟩
  · rw [hfailures, AuthChallenge.incremented, hcount]
    push_cast
    rfl
  · have hfive' : MFA_CHALLENGE_MAX_ATTEMPTS ≤ c.attempts + 1 := hfive
    rw [AuthChallenge.incremented, if_pos hfive']
    rfl

/-- A session consumes the challenge. -/
lemma BudgetOk.push_session {id : Uuid} (h : BudgetOk id H) (heff : Effect P state q H b s')
    (hfailures : (H.push q b s').entries.countP (failedAttempt id) =
      H.entries.countP (failedAttempt id))
    (hsess : sessionFrom id ⟨q, b, H.current, s'⟩ = true) : BudgetOk id (H.push q b s') := by
  obtain ⟨c, hc, hopen, hattempts, hafter⟩ := heff.sessionFrom hsess
  obtain ⟨-, htype, -⟩ := isOpenChallenge_iff.mp hopen
  obtain ⟨hcount, -, -⟩ := h.row c hc htype
  have hsessions : (H.push q b s').entries.countP (sessionFrom id) = 1 := by
    rw [countP_push, if_pos hsess, h.sessions_eq_zero hc hopen]
  refine ⟨hfailures ▸ h.failures, Nat.le_of_eq hsessions, ?_, fun _ => h.drawn_push hc htype⟩
  intro c' hc' _
  rw [History.push_current, hafter] at hc'
  obtain rfl := Option.some.inj hc'
  exact ⟨hfailures ▸ hcount, fun _ => rfl, fun _ => rfl⟩

/-- A commit that is neither leaves the counts, and the row keeps to them. -/
lemma BudgetOk.push_other {id : Uuid} (h : BudgetOk id H) (heff : Effect P state q H b s')
    (hfresh : b = true → ∀ e ∈ H.entries, e.closing = true → Fresh P e.request q)
    (hfail : ¬ failedAttempt id ⟨q, b, H.current, s'⟩ = true)
    (hsess : ¬ sessionFrom id ⟨q, b, H.current, s'⟩ = true) : BudgetOk id (H.push q b s') := by
  have hfailures : (H.push q b s').entries.countP (failedAttempt id) =
      H.entries.countP (failedAttempt id) := by
    rw [countP_push, if_neg hfail, Nat.add_zero]
  have hsessions : (H.push q b s').entries.countP (sessionFrom id) =
      H.entries.countP (sessionFrom id) := by
    rw [countP_push, if_neg hsess, Nat.add_zero]
  have hmove := heff.challengeMove id
  refine ⟨hfailures ▸ h.failures, hsessions ▸ h.sessions, ?_, ?_⟩
  · intro c' hc' htype'
    rw [hfailures, hsessions]
    rw [History.push_current] at hc'
    rw [hc'] at hmove
    generalize ho : H.current.authChallenges.find? id = o at hmove
    cases hmove with
    | kept => exact h.row c' ho htype'
    | issued htype => exact absurd htype' htype
    | used htype => exact absurd htype' htype
    | asked hclosing _ hid hattempts hopen =>
        obtain ⟨hzero, hnone⟩ := h.unused fun e he hclosing' hid' =>
          (hfresh hclosing e he hclosing').1 2 2 (hid'.trans hid.symm)
        refine ⟨by rw [hattempts, hzero]; rfl, fun hfive => ?_, fun hpos => by omega⟩
        rw [hattempts] at hfive
        omega
    | @failed c hopen hattempts =>
        refine absurd ?_ hfail
        have hlt : c.attempts < (c.incremented q.now).attempts := Int.lt_succ c.attempts
        rw [PasswordVault.failedAttempt, ho, hc']
        exact decide_eq_true hlt
    | @passed c hopen hattempts =>
        obtain ⟨-, htype, -⟩ := isOpenChallenge_iff.mp hopen
        exact ⟨(h.row c ho htype).1, fun _ => rfl, fun _ => rfl⟩
  · rw [hfailures, hsessions]
    have hkept : ∀ e, (e ∈ H.entries ∧ e.closing = true ∧ e.request.draws.uuid 2 = id) →
        ∃ e ∈ (H.push q b s').entries, e.closing = true ∧ e.request.draws.uuid 2 = id :=
      fun e he => ⟨e, List.mem_append_left _ he.1, he.2⟩
    rintro (hpos | hpos | ⟨c', hc', htype'⟩)
    · obtain ⟨e, he⟩ := h.drawn (.inl hpos)
      exact hkept e he
    · obtain ⟨e, he⟩ := h.drawn (.inr (.inl hpos))
      exact hkept e he
    · rw [History.push_current] at hc'
      rw [hc'] at hmove
      generalize ho : H.current.authChallenges.find? id = o at hmove
      cases hmove with
      | kept => exact h.drawn_push ho htype'
      | issued htype => exact absurd htype' htype
      | used htype => exact absurd htype' htype
      | asked hclosing _ hid =>
          exact ⟨⟨q, b, H.current, s'⟩, List.mem_append_right _ List.mem_cons_self, hclosing, hid⟩
      | failed hopen => exact h.drawn_push ho (isOpenChallenge_iff.mp hopen).2.1
      | passed hopen => exact h.drawn_push ho (isOpenChallenge_iff.mp hopen).2.1

/-- **One commit keeps the invariant.** -/
theorem BudgetOk.push {id : Uuid} (h : BudgetOk id H) (heff : Effect P state q H b s')
    (hfresh : b = true → ∀ e ∈ H.entries, e.closing = true → Fresh P e.request q) :
    BudgetOk id (H.push q b s') := by
  by_cases hfail : failedAttempt id ⟨q, b, H.current, s'⟩ = true
  · exact h.push_failed heff hfail
  · by_cases hsess : sessionFrom id ⟨q, b, H.current, s'⟩ = true
    · refine h.push_session heff ?_ hsess
      rw [countP_push, if_neg hfail, Nat.add_zero]
    · exact h.push_other heff hfresh hfail hsess

end PasswordVault
