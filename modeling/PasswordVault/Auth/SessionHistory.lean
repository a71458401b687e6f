import PasswordVault.Auth.Moves

/-!
# Where sessions come from

* `SeenSession`: a session row that some committed database had. Requests go on with the row they
  loaded, whatever became of it, so the invariants are about all rows ever seen.
* `Origin`: the commit that created the session of a row.
* `SessionsOk`: every row seen has an origin, and a token is of one session only.
* `SessionsOk.account_unique`: so the token of a request tells the account it acts for.
-/

namespace PasswordVault

open Transactions

variable {P : Platform} {state : AppState} {q : Request} {H : Log} {b : Bool} {s' : Db}

/-- Some committed database so far had the session row. -/
def SeenSession (H : Log) (r : Session) : Prop := H.Saw fun s => r ∈ s.sessions

/-- The entry created the session of the row `r`, as the row `r₀`. -/
structure Origin (P : Platform) (H : Log) (r r₀ : Session) (e : Entry Db Request) : Prop where
  mem : e ∈ H.entries
  closing : e.closing = true
  before : e.before.sessions.find? r.id = none
  after : e.after.sessions.find? r.id = some r₀
  born : r₀.BornBy P e.request r.id
  account : r.accountId = r₀.accountId
  absolute : r.absoluteExpiresAt = r₀.absoluteExpiresAt
  state : r.sessionState = r₀.sessionState ∨ r.sessionState = .mfaVerified

/-- The invariant of the sessions seen so far. -/
structure SessionsOk (P : Platform) (H : Log) : Prop where
  origin : ∀ r, SeenSession H r → ∃ r₀ e, Origin P H r r₀ e
  /-- The token of a session was drawn by a commit. -/
  drawn : ∀ r, SeenSession H r → ∃ e ∈ H.entries, e.closing = true ∧
    ∃ i, r.sessionTokenHash = sha256Verifier P (e.request.draws.bytes i TOKEN_LEN)
  /-- A token is of one session only. -/
  tokens : ∀ r r', SeenSession H r → SeenSession H r' →
    r.sessionTokenHash = r'.sessionTokenHash → r.id = r'.id

/-! ## Uniqueness -/

/-- Two commits that drew the same identifier are one. -/
lemma ServiceRun.entry_unique (h : ServiceRun P state H) {e e' : Entry Db Request}
    (he : e ∈ H.entries) (he' : e' ∈ H.entries) (hc : e.closing = true) (hc' : e'.closing = true)
    {i j : Fin 16} (hid : e.request.draws.uuid i = e'.request.draws.uuid j) : e = e' := by
  by_contra hne
  exact (Run.fresh_of_ne h Fresh.symm he he' hne hc hc').1 i j hid

lemma Request.sessionId_drawn (q : Request) : ∃ i, q.draws.uuid i = q.sessionId := by
  unfold Request.sessionId
  split
  · exact ⟨4, rfl⟩
  · exact ⟨1, rfl⟩

/-- A session has one origin. -/
theorem Origin.unique (h : ServiceRun P state H) {r r' r₀ r₀' : Session} {e e' : Entry Db Request}
    (ho : Origin P H r r₀ e) (ho' : Origin P H r' r₀' e') (hid : r.id = r'.id) :
    e = e' ∧ r₀ = r₀' := by
  obtain ⟨i, hi⟩ := e.request.sessionId_drawn
  obtain ⟨j, hj⟩ := e'.request.sessionId_drawn
  have hdrawn : e.request.draws.uuid i = e'.request.draws.uuid j := by
    rw [hi, hj, ho.born.drawn, ho'.born.drawn, hid]
  obtain rfl := h.entry_unique ho.mem ho'.mem ho.closing ho'.closing hdrawn
  have hafter := ho.after
  rw [hid, ho'.after] at hafter
  exact ⟨rfl, (Option.some.inj hafter).symm⟩

/-- A session is of one account. -/
theorem SessionsOk.account_unique (hok : SessionsOk P H) (h : ServiceRun P state H)
    {r r' : Session} (hr : SeenSession H r) (hr' : SeenSession H r') (hid : r.id = r'.id) :
    r.accountId = r'.accountId := by
  obtain ⟨r₀, e, ho⟩ := hok.origin r hr
  obtain ⟨r₀', e', ho'⟩ := hok.origin r' hr'
  rw [ho.account, ho'.account, (ho.unique h ho' hid).2]

/-- The row that a request loaded. -/
lemma loadsSession_seen {headers : HeaderMap} {now : Time} {session : CurrentSession}
    (hload : H.Saw (LoadsSession P headers now session)) :
    ∃ token row, sessionTokenFromHeaders headers = some token ∧ SeenSession H row ∧
      row.sessionTokenHash = sha256Verifier P token ∧ session = row.current := by
  have hrow : ∀ s, LoadsSession P headers now session s → ∃ token row,
      sessionTokenFromHeaders headers = some token ∧ row ∈ s.sessions ∧
      row.sessionTokenHash = sha256Verifier P token ∧ session = row.current := by
    rintro s ⟨token, row, htoken, hselect, -, -, hsession⟩
    obtain ⟨x, hx, hpair⟩ := Option.map_eq_some_iff.mp hselect
    obtain rfl : x = row := (Prod.mk.inj hpair).1
    have hmem : x ∈ s.sessions := List.mem_of_find?_eq_some hx
    have hp := List.find?_some hx
    rw [Bool.and_eq_true, beq_iff_eq] at hp
    exact ⟨token, x, htoken, hmem, hp.1, hsession⟩
  rcases hload with hload | ⟨e, he, hload⟩
  · obtain ⟨token, row, htoken, hmem, hhash, hsession⟩ := hrow _ hload
    exact ⟨token, row, htoken, .inl hmem, hhash, hsession⟩
  · obtain ⟨token, row, htoken, hmem, hhash, hsession⟩ := hrow _ hload
    exact ⟨token, row, htoken, .inr ⟨e, he, hmem⟩, hhash, hsession⟩

/-- Two loads with the same headers are of one session. -/
lemma SessionsOk.loads_unique (hok : SessionsOk P H) {headers : HeaderMap} {now now' : Time}
    {session session' : CurrentSession} (hload : H.Saw (LoadsSession P headers now session))
    (hload' : H.Saw (LoadsSession P headers now' session')) : session.id = session'.id := by
  obtain ⟨token, row, htoken, hseen, hhash, rfl⟩ := loadsSession_seen hload
  obtain ⟨token', row', htoken', hseen', hhash', rfl⟩ := loadsSession_seen hload'
  rw [htoken] at htoken'
  obtain rfl := Option.some.inj htoken'
  exact hok.tokens row row' hseen hseen' (hhash.trans hhash'.symm)

/-! ## One commit -/

lemma Origin.push {r r₀ : Session} {e : Entry Db Request} (h : Origin P H r r₀ e) (q : Request)
    (b : Bool) (s' : Db) : Origin P (H.push q b s') r r₀ e :=
  { h with mem := List.mem_append_left _ h.mem }

/-- A row changed from one with the origin. -/
lemma Origin.changed {r r' r₀ : Session} {e : Entry Db Request} (h : Origin P H r r₀ e)
    (hid : r'.id = r.id) (haccount : r'.accountId = r.accountId)
    (habsolute : r'.absoluteExpiresAt = r.absoluteExpiresAt)
    (hstate : r'.sessionState = r.sessionState ∨ r'.sessionState = .mfaVerified) :
    Origin P H r' r₀ e := by
  refine ⟨h.mem, h.closing, hid ▸ h.before, hid ▸ h.after, hid ▸ h.born, haccount.trans h.account,
    habsolute.trans h.absolute, ?_⟩
  rcases hstate with hstate | hstate
  · rw [hstate]
    exact h.state
  · exact .inr hstate

/-- A row of the new database: it is an old one, it was changed from an old one under the same
token, or it has a token that the request drew. -/
inductive RowBorn (P : Platform) (q : Request) (H : Log) (b : Bool) (s' : Db) (r : Session) : Prop
  | old {r₁ : Session} (hr₁ : r₁ ∈ H.current.sessions) (hid : r.id = r₁.id)
      (haccount : r.accountId = r₁.accountId)
      (habsolute : r.absoluteExpiresAt = r₁.absoluteExpiresAt)
      (hstate : r.sessionState = r₁.sessionState)
      (htoken : r.sessionTokenHash = r₁.sessionTokenHash)
  | born (hclosing : b = true) (hbefore : H.current.sessions.find? r.id = none)
      (hborn : r.BornBy P q r.id) (hq : q.action.sessionHeaders = none)
  | rotated {r₁ : Session} {headers : HeaderMap} {session : CurrentSession} (hclosing : b = true)
      (hr₁ : r₁ ∈ H.current.sessions) (hid : r.id = r₁.id) (haccount : r.accountId = r₁.accountId)
      (habsolute : r.absoluteExpiresAt = r₁.absoluteExpiresAt)
      (hstate : r.sessionState = .mfaVerified)
      (htoken : r.sessionTokenHash = sha256Verifier P (q.draws.bytes 20 TOKEN_LEN))
      (hheaders : q.action.sessionHeaders = some headers) (hsession : session.id = r.id)
      (hload : H.Saw (LoadsSession P headers q.now session))

lemma Effect.rowBorn (h : Effect P state q H b s') {r : Session} (hr : r ∈ s'.sessions) :
    RowBorn P q H b s' r := by
  have hmove := h.sessionMove r.id
  rw [Rows.find?_of_mem hr] at hmove
  generalize ho : H.current.sessions.find? r.id = o at hmove
  have hmem : ∀ r₁, o = some r₁ → r₁ ∈ H.current.sessions := by
    rintro r₁ rfl
    exact (Rows.find?_eq_some.mp ho).1
  generalize hk : r.id = k at hmove ho
  cases hmove with
  | kept => exact .old (hmem r rfl) rfl rfl rfl rfl rfl
  | revoked => exact .old (hmem _ rfl) rfl rfl rfl rfl rfl
  | refreshed => exact .old (hmem _ rfl) rfl rfl rfl rfl rfl
  | csrf => exact .old (hmem _ rfl) rfl rfl rfl rfl rfl
  | setup hclosing hborn hstate hq =>
      refine .born hclosing (hk ▸ ho) (hk ▸ hborn) ?_
      rcases hq with ⟨request, hq⟩ | ⟨headers, request, hq⟩
      · simp [hq, Action.sessionHeaders]
      · simp [hq, Action.sessionHeaders]
  | verified hclosing hborn hstate hq =>
      exact .born hclosing (hk ▸ ho) (hk ▸ hborn) (by simp [hq, Action.sessionHeaders])
  | recovered hclosing hborn hstate hq =>
      exact .born hclosing (hk ▸ ho) (hk ▸ hborn) (by simp [hq, Action.sessionHeaders])
  | upgraded hclosing hrid hq hload hid =>
      exact .rotated hclosing (hmem _ rfl) rfl rfl rfl rfl rfl
        (by rw [hq, Action.sessionHeaders]) (hid.trans hk.symm) hload

/-- The token of a row seen before is not one that the request draws. -/
lemma SessionsOk.token_fresh (hok : SessionsOk P H) (hrun : ServiceRun P state (H.push q b s'))
    (hclosing : b = true) {r : Session} (hr : SeenSession H r) (i : Fin 32) :
    r.sessionTokenHash ≠ sha256Verifier P (q.draws.bytes i TOKEN_LEN) := by
  obtain ⟨e, he, hc, j, htoken⟩ := hok.drawn r hr
  rw [htoken]
  exact (hrun.push_fresh hclosing e he hc).2 j i

/-- **One commit keeps the invariant.** -/
theorem SessionsOk.push (hok : SessionsOk P H) (hrun : ServiceRun P state (H.push q b s'))
    (heff : Effect P state q H b s') : SessionsOk P (H.push q b s') := by
  have hentry : b = true → (⟨q, b, H.current, s'⟩ : Entry Db Request) ∈ (H.push q b s').entries :=
    fun _ => List.mem_append_right _ List.mem_cons_self
  have hseen : ∀ {r}, r ∈ H.current.sessions → SeenSession H r := fun hr => .inl hr
  refine ⟨?_, ?_, ?_⟩
  · intro r hr
    rcases History.saw_push.mp hr with hr | hr
    · cases heff.rowBorn hr with
      | old hr₁ hid haccount habsolute hstate =>
          obtain ⟨r₀, e, ho⟩ := hok.origin _ (hseen hr₁)
          exact ⟨r₀, e, (ho.changed hid haccount habsolute (.inl hstate)).push q b s'⟩
      | born hclosing hbefore hborn hq =>
          exact ⟨r, _, hentry hclosing, hclosing, hbefore, Rows.find?_of_mem hr, hborn, rfl, rfl,
            .inl rfl⟩
      | rotated hclosing hr₁ hid haccount habsolute hstate =>
          obtain ⟨r₀, e, ho⟩ := hok.origin _ (hseen hr₁)
          exact ⟨r₀, e, (ho.changed hid haccount habsolute (.inr hstate)).push q b s'⟩
    · obtain ⟨r₀, e, ho⟩ := hok.origin r hr
      exact ⟨r₀, e, ho.push q b s'⟩
  · intro r hr
    have hold : ∀ r, SeenSession H r → ∃ e ∈ (H.push q b s').entries, e.closing = true ∧
        ∃ i, r.sessionTokenHash = sha256Verifier P (e.request.draws.bytes i TOKEN_LEN) := by
      intro r hr
      obtain ⟨e, he, hdrawn⟩ := hok.drawn r hr
      exact ⟨e, List.mem_append_left _ he, hdrawn⟩
    rcases History.saw_push.mp hr with hr | hr
    · cases heff.rowBorn hr with
      | old hr₁ _ _ _ _ htoken =>
          rw [htoken]
          exact hold _ (hseen hr₁)
      | born hclosing _ hborn => exact ⟨_, hentry hclosing, hclosing, 0, hborn.token⟩
      | rotated hclosing _ _ _ _ _ htoken => exact ⟨_, hentry hclosing, hclosing, 20, htoken⟩
    · exact hold r hr
  · -- a row with an old token, or one with a token of the request
    have hcases : ∀ r, SeenSession (H.push q b s') r →
        (∃ r₁, SeenSession H r₁ ∧ r.id = r₁.id ∧ r.sessionTokenHash = r₁.sessionTokenHash) ∨
        ∃ i, b = true ∧ r.sessionTokenHash = sha256Verifier P (q.draws.bytes i TOKEN_LEN) ∧
          (r.id = q.sessionId ∧ q.action.sessionHeaders = none ∨
            ∃ headers session, q.action.sessionHeaders = some headers ∧ session.id = r.id ∧
              H.Saw (LoadsSession P headers q.now session)) := by
      intro r hr
      rcases History.saw_push.mp hr with hr | hr
      · cases heff.rowBorn hr with
        | old hr₁ hid _ _ _ htoken => exact .inl ⟨_, hseen hr₁, hid, htoken⟩
        | born hclosing _ hborn hq =>
            exact .inr ⟨0, hclosing, hborn.token, .inl ⟨hborn.drawn.symm, hq⟩⟩
        | rotated hclosing _ _ _ _ _ htoken hheaders hsession hload =>
            exact .inr ⟨20, hclosing, htoken, .inr ⟨_, _, hheaders, hsession, hload⟩⟩
      · exact .inl ⟨r, hr, rfl, rfl⟩
    intro r r' hr hr' htoken
    rcases hcases r hr with ⟨r₁, hr₁, hid, hold⟩ | ⟨i, hclosing, hnew, hwhich⟩ <;>
      rcases hcases r' hr' with ⟨r₁', hr₁', hid', hold'⟩ | ⟨i', hclosing', hnew', hwhich'⟩
    · rw [hid, hid']
      exact hok.tokens r₁ r₁' hr₁ hr₁' (hold.symm.trans (htoken.trans hold'))
    · exact absurd (hold.symm.trans (htoken.trans hnew')) (hok.token_fresh hrun hclosing' hr₁ i')
    · exact absurd (hold'.symm.trans (htoken.symm.trans hnew))
        (hok.token_fresh hrun hclosing hr₁' i)
    · rcases hwhich with ⟨hid, hnone⟩ | ⟨headers, session, hheaders, hid, hload⟩ <;>
        rcases hwhich' with ⟨hid', hnone'⟩ | ⟨headers', session', hheaders', hid', hload'⟩
      · exact hid.trans hid'.symm
      · rw [hnone] at hheaders'
        cases hheaders'
      · rw [hnone'] at hheaders
        cases hheaders
      · rw [hheaders] at hheaders'
        obtain rfl := Option.some.inj hheaders'
        rw [← hid, ← hid']
        exact hok.loads_unique hload hload'

lemma ServiceRun.sessionsOk (h : ServiceRun P state H) : SessionsOk P H := by
  have hnone : ∀ r, ¬ SeenSession ⟨[], {}⟩ r := by
    rintro r (hr | ⟨e, he, -⟩)
    · cases hr
    · cases he
  refine Later.induction (K := SessionsOk P) ?_ .start ⟨h, List.nil_prefix⟩ ?_
  · intro H q b s _ hpush heff hok
    exact hok.push hpush heff
  · exact ⟨fun r hr => absurd hr (hnone r), fun r hr => absurd hr (hnone r),
      fun r _ hr => absurd hr (hnone r)⟩

end PasswordVault
