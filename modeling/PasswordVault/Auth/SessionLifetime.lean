import PasswordVault.Auth.SessionHistory
import PasswordVault.Library.Requests
import PasswordVault.Library.Schedules
import PasswordVault.Server.Isolation

/-!
# The lifetime of a session

* `Session.Timely`: what the expiry times of a session row are, `ServiceRun.timely`.
* `Alive`: what a request that is authenticated with a session tells about the session's whole past;
  `ServiceRun.alive`.
* `session_lifetime`: both in every run, and which answers need an authenticated request.
* `revival`: the run in which a session that was found idle is refreshed by an earlier request.
-/

namespace PasswordVault

open Transactions

variable {P : Platform} {state : AppState} {q : Request} {H : Log} {b : Bool} {s s' : Db}

/-! ## Creation and renewal -/

/-- The entry creates the session `k`. -/
def createsSession (k : Uuid) (e : Entry Db Request) : Bool :=
  (e.before.sessions.find? k).isNone && (e.after.sessions.find? k).isSome

/-- The entry creates, refreshes or confirms the session `k`: it sets its idle expiry. -/
def renews (k : Uuid) (e : Entry Db Request) : Bool :=
  match e.before.sessions.find? k, e.after.sessions.find? k with
  | _, none => false
  | none, some _ => true
  | some r, some r' => r'.lastSeenAt != r.lastSeenAt || r'.idleExpiresAt != r.idleExpiresAt

/-- The last renewal of the session `k` is by the request `q`. -/
def RenewedBy (k : Uuid) (q : Request) (H : Log) : Prop :=
  ∃ l₁ e l₂, H.entries = l₁ ++ e :: l₂ ∧ renews k e = true ∧ (∀ e' ∈ l₂, renews k e' = false) ∧
    e.request = q

/-- The expiry times of a session row. -/
structure Session.Timely (H : Log) (r : Session) : Prop where
  expires : r.expiresAt = r.idleExpiresAt
  idle_le : r.idleExpiresAt ≤ r.absoluteExpiresAt
  created : ∃ e ∈ H.entries, createsSession r.id e = true ∧
    r.absoluteExpiresAt = e.request.now + SESSION_ABSOLUTE_TTL
  renewed : ∃ q, RenewedBy r.id q H ∧
    r.idleExpiresAt = minTime (q.now + SESSION_IDLE_TTL) r.absoluteExpiresAt

lemma minTime_le_left (a b : Time) : minTime a b ≤ a := by
  unfold minTime
  by_cases h : a ≤ b
  · rw [if_pos h]
  · rw [if_neg h]
    exact Int.le_of_lt (Int.not_le.mp h)

lemma minTime_le_right (a b : Time) : minTime a b ≤ b := by
  unfold minTime
  by_cases h : a ≤ b
  · rw [if_pos h]
    exact h
  · rw [if_neg h]

lemma RenewedBy.push {k : Uuid} {q' : Request} (h : RenewedBy k q' H)
    (hnot : renews k ⟨q, b, H.current, s'⟩ = false) : RenewedBy k q' (H.push q b s') := by
  obtain ⟨l₁, e, l₂, hsplit, he, hlast, hreq⟩ := h
  refine ⟨l₁, e, l₂ ++ [⟨q, b, H.current, s'⟩], ?_, he, ?_, hreq⟩
  · rw [History.push_entries, hsplit, List.append_assoc, List.cons_append]
  · intro e' he'
    rcases List.mem_append.mp he' with he' | he'
    · exact hlast e' he'
    · rw [List.mem_singleton.mp he']
      exact hnot

lemma RenewedBy.now {k : Uuid} (h : renews k ⟨q, b, H.current, s'⟩ = true) :
    RenewedBy k q (H.push q b s') :=
  ⟨H.entries, _, [], rfl, h, by simp, rfl⟩

/-- The row of a session keeps its absolute expiry. -/
theorem SessionsOk.absolute_unique (hok : SessionsOk P H) (h : ServiceRun P state H)
    {r r' : Session} (hr : SeenSession H r) (hr' : SeenSession H r') (hid : r.id = r'.id) :
    r.absoluteExpiresAt = r'.absoluteExpiresAt := by
  obtain ⟨r₀, e, ho⟩ := hok.origin r hr
  obtain ⟨r₀', e', ho'⟩ := hok.origin r' hr'
  rw [ho.absolute, ho'.absolute, (ho.unique h ho' hid).2]

/-- A loaded session has the absolute expiry of its row. -/
lemma SessionsOk.loaded_absolute (hok : SessionsOk P H) (h : ServiceRun P state H)
    {headers : HeaderMap} {now : Time} {session : CurrentSession} {r : Session}
    (hload : H.Saw (LoadsSession P headers now session)) (hr : r ∈ H.current.sessions)
    (hid : session.id = r.id) : session.absoluteExpiresAt = r.absoluteExpiresAt := by
  obtain ⟨token, row, -, hseen, -, rfl⟩ := loadsSession_seen hload
  exact hok.absolute_unique h hseen (.inl hr) hid

/-! ## Expiry times -/

/-- What a commit does to the expiry times of a row: they stay, or the row is renewed. -/
inductive TimesMove (q : Request) (H : Log) (r : Session) : Prop
  | kept {r₁ : Session} (hr₁ : r₁ ∈ H.current.sessions) (hid : r₁.id = r.id)
      (hseen : r.lastSeenAt = r₁.lastSeenAt) (hexpires : r.expiresAt = r₁.expiresAt)
      (hidle : r.idleExpiresAt = r₁.idleExpiresAt)
      (habsolute : r.absoluteExpiresAt = r₁.absoluteExpiresAt)
  | renewed {r₁ : Session} (hr₁ : r₁ ∈ H.current.sessions) (hid : r₁.id = r.id)
      (hexpires : r.expiresAt = r.idleExpiresAt)
      (hidle : r.idleExpiresAt = minTime (q.now + SESSION_IDLE_TTL) r.absoluteExpiresAt)
      (habsolute : r.absoluteExpiresAt = r₁.absoluteExpiresAt)
  | created (hnone : H.current.sessions.find? r.id = none)
      (hexpires : r.expiresAt = r.idleExpiresAt)
      (hidle : r.idleExpiresAt = q.now + SESSION_IDLE_TTL)
      (habsolute : r.absoluteExpiresAt = q.now + SESSION_ABSOLUTE_TTL)

lemma Session.BornBy.created {r : Session} {k : Uuid} (h : r.BornBy P q k)
    (hnone : H.current.sessions.find? k = none) : TimesMove q H r :=
  .created (h.id ▸ hnone) h.expires h.idle h.absolute

lemma Effect.timesMove (h : Effect P state q H b s') (hrun : ServiceRun P state H) {r : Session}
    (hr : r ∈ s'.sessions) : TimesMove q H r := by
  have hmove := h.sessionMove r.id
  rw [Rows.find?_of_mem hr] at hmove
  generalize ho : H.current.sessions.find? r.id = o at hmove
  have hmem : ∀ {r₁}, o = some r₁ → r₁ ∈ H.current.sessions := by
    rintro r₁ rfl
    exact (Rows.find?_eq_some.mp ho).1
  generalize hk : r.id = k at hmove ho
  cases hmove with
  | kept => exact .kept (hmem rfl) rfl rfl rfl rfl rfl
  | revoked => exact .kept (hmem rfl) rfl rfl rfl rfl rfl
  | csrf => exact .kept (hmem rfl) rfl rfl rfl rfl rfl
  | @refreshed r₁ headers session hrid hheaders hid hload =>
      have habsolute := hrun.sessionsOk.loaded_absolute hrun hload (hmem rfl) (hid.trans hrid.symm)
      exact .renewed (hmem rfl) rfl rfl (by rw [habsolute]; rfl) rfl
  | @upgraded r₁ headers request session f step hclosing hrid hq hload hid =>
      have habsolute := hrun.sessionsOk.loaded_absolute hrun hload (hmem rfl) (hid.trans hrid.symm)
      exact .renewed (hmem rfl) rfl rfl (by rw [habsolute]; rfl) rfl
  | setup hclosing hborn => exact hborn.created ho
  | verified hclosing hborn => exact hborn.created ho
  | recovered hclosing hborn => exact hborn.created ho

lemma Session.Timely.push {r : Session} (h : r.Timely H)
    (hnot : renews r.id ⟨q, b, H.current, s'⟩ = false) : r.Timely (H.push q b s') := by
  obtain ⟨e, he, hcreated⟩ := h.created
  obtain ⟨q', hrenewed, hidle⟩ := h.renewed
  exact ⟨h.expires, h.idle_le, ⟨e, List.mem_append_left _ he, hcreated⟩, q', hrenewed.push hnot,
    hidle⟩

/-- **Every session row has the expiry times it should have.** -/
theorem ServiceRun.timely (h : ServiceRun P state H) :
    ∀ r ∈ H.current.sessions, r.Timely H := by
  refine Run.invariant (K := fun H => ∀ r ∈ H.current.sessions, r.Timely H) ?_ ?_ h
  · intro r hr
    cases hr
  · intro H q b s hrun heff _ ih r hr
    have hafter : s.sessions.find? r.id = some r := Rows.find?_of_mem hr
    cases Effect.timesMove heff hrun hr with
    | @kept r₁ hr₁ hid hseen hexpires hidle habsolute =>
        have hbefore : H.current.sessions.find? r.id = some r₁ := hid ▸ Rows.find?_of_mem hr₁
        have hnot : renews r.id ⟨q, b, H.current, s⟩ = false := by
          simp [renews, hbefore, hafter, hseen, hidle]
        obtain ⟨hexp, hle, ⟨e, he, hcreated, habs⟩, q', hrenewed, hmin⟩ := ih r₁ hr₁
        rw [hid] at hcreated hrenewed
        refine ⟨by rw [hexpires, hidle, hexp], by rw [hidle, habsolute]; exact hle,
          ⟨e, List.mem_append_left _ he, hcreated, habsolute.trans habs⟩, q', hrenewed.push hnot, ?_⟩
        rw [hidle, habsolute]
        exact hmin
    | @renewed r₁ hr₁ hid hexpires hidle habsolute =>
        have hbefore : H.current.sessions.find? r.id = some r₁ := hid ▸ Rows.find?_of_mem hr₁
        obtain ⟨hexp, hle, ⟨e, he, hcreated, habs⟩, q', hrenewed, hmin⟩ := ih r₁ hr₁
        rw [hid] at hcreated hrenewed
        refine ⟨hexpires, by rw [hidle]; exact minTime_le_right _ _,
          ⟨e, List.mem_append_left _ he, hcreated, habsolute.trans habs⟩, ?_⟩
        cases hnow : renews r.id ⟨q, b, H.current, s⟩ with
        | true => exact ⟨q, .now hnow, hidle⟩
        | false =>
            -- the same times were written again
            have hsame : r.lastSeenAt = r₁.lastSeenAt ∧ r.idleExpiresAt = r₁.idleExpiresAt := by
              simpa [renews, hbefore, hafter] using hnow
            refine ⟨q', hrenewed.push hnow, ?_⟩
            rw [hsame.2, habsolute]
            exact hmin
    | created hnone hexpires hidle habsolute =>
        have hnow : renews r.id ⟨q, b, H.current, s⟩ = true := by simp [renews, hnone, hafter]
        have hle : q.now + SESSION_IDLE_TTL ≤ q.now + SESSION_ABSOLUTE_TTL := by
          simp [SESSION_IDLE_TTL, SESSION_ABSOLUTE_TTL, minutes, hours, seconds]
        refine ⟨hexpires, by rw [hidle, habsolute]; exact hle,
          ⟨_, List.mem_append_right _ List.mem_cons_self, ?_, habsolute⟩, q, .now hnow, ?_⟩
        · simp [createsSession, hnone, hafter]
        · rw [hidle, habsolute, minTime, if_pos hle]

/-! ## What stays unusable -/

/-- The session is revoked, or gone. -/
def Dead (k : Uuid) (s : Db) : Prop :=
  ∀ r, s.sessions.find? k = some r → r.revokedAt.isSome = true

/-- The session does not have the token. -/
def Rotated (k : Uuid) (hash : Bytes) (s : Db) : Prop :=
  ∀ r, s.sessions.find? k = some r → r.sessionTokenHash ≠ hash

/-- No commit creates a session that was seen before. -/
lemma SessionsOk.not_born (hok : SessionsOk P H) (hpush : ServiceRun P state (H.push q b s'))
    (hclosing : b = true) {r r' : Session} {k : Uuid} (hseen : SeenSession H r) (hid : r.id = k)
    (hborn : r'.BornBy P q k) : False := by
  obtain ⟨r₀, e, ho⟩ := hok.origin r hseen
  obtain ⟨i, hi⟩ := e.request.sessionId_drawn
  obtain ⟨j, hj⟩ := q.sessionId_drawn
  refine (hpush.push_fresh hclosing e ho.mem ho.closing).1 i j ?_
  rw [hi, hj, ho.born.drawn, hborn.drawn, hid]

/-- **A session that is revoked or gone stays so.** -/
theorem ServiceRun.dead_later {H' : Log} (h : ServiceRun P state H) {k : Uuid} {r : Session}
    (hseen : SeenSession H r) (hid : r.id = k) (hdead : Dead k H.current)
    (hlater : Since P state H H') : Dead k H'.current := by
  refine (Later.induction (K := fun H => SeenSession H r ∧ Dead k H.current) ?_ h hlater
    ⟨hseen, hdead⟩).2
  intro H q b s hrun' hpush heff ⟨hseen, hdead⟩
  have hrun : ServiceRun P state H := hrun'
  refine ⟨hseen.push q b s, fun r' hr' => ?_⟩
  have hmove := Effect.sessionMove heff k
  rw [History.push_current] at hr'
  rw [hr'] at hmove
  generalize ho : H.current.sessions.find? k = o at hmove
  have hold : ∀ {r₁}, o = some r₁ → r₁.revokedAt.isSome = true := by
    rintro r₁ rfl
    exact hdead r₁ ho
  cases hmove with
  | kept => exact hold rfl
  | revoked => rfl
  | @refreshed r₁ => exact @hold r₁ rfl
  | @csrf r₁ => exact @hold r₁ rfl
  | @upgraded r₁ => exact @hold r₁ rfl
  | setup hclosing hborn => exact (hrun.sessionsOk.not_born hpush hclosing hseen hid hborn).elim
  | verified hclosing hborn => exact (hrun.sessionsOk.not_born hpush hclosing hseen hid hborn).elim
  | recovered hclosing hborn => exact (hrun.sessionsOk.not_born hpush hclosing hseen hid hborn).elim

/-- **A token that a session has lost does not come back.** -/
theorem ServiceRun.rotated_later {H' : Log} (h : ServiceRun P state H) {k : Uuid} {r : Session}
    (hseen : SeenSession H r) (hid : r.id = k) (hrotated : Rotated k r.sessionTokenHash H.current)
    (hlater : Since P state H H') : Rotated k r.sessionTokenHash H'.current := by
  refine (Later.induction (K := fun H => SeenSession H r ∧ Rotated k r.sessionTokenHash H.current)
    ?_ h hlater ⟨hseen, hrotated⟩).2
  intro H q b s hrun' hpush heff ⟨hseen, hrotated⟩
  have hrun : ServiceRun P state H := hrun'
  refine ⟨hseen.push q b s, fun r' hr' => ?_⟩
  have hmove := Effect.sessionMove heff k
  rw [History.push_current] at hr'
  rw [hr'] at hmove
  generalize ho : H.current.sessions.find? k = o at hmove
  have hold : ∀ {r₁}, o = some r₁ → r₁.sessionTokenHash ≠ r.sessionTokenHash := by
    rintro r₁ rfl
    exact hrotated r₁ ho
  cases hmove with
  | kept => exact hold rfl
  | @revoked r₁ => exact @hold r₁ rfl
  | @refreshed r₁ => exact @hold r₁ rfl
  | @csrf r₁ => exact @hold r₁ rfl
  | upgraded hclosing => exact (hrun.sessionsOk.token_fresh hpush hclosing hseen 20).symm
  | setup hclosing hborn => exact (hrun.sessionsOk.not_born hpush hclosing hseen hid hborn).elim
  | verified hclosing hborn => exact (hrun.sessionsOk.not_born hpush hclosing hseen hid hborn).elim
  | recovered hclosing hborn => exact (hrun.sessionsOk.not_born hpush hclosing hseen hid hborn).elim

/-! ## Authenticated requests -/

/-- What it tells about the commits so far that a request at `now` with the token is authenticated
with the session `k`. -/
structure Alive (P : Platform) (H : Log) (token : Bytes) (now : Time) (k : Uuid) : Prop where
  /-- It is less than 12 hours after the creation. -/
  absolute : ∃ e ∈ H.entries, createsSession k e = true ∧
    now < e.request.now + SESSION_ABSOLUTE_TTL
  /-- It is less than 30 minutes after the last renewal. -/
  idle : ∃ q, RenewedBy k q H ∧ now < q.now + SESSION_IDLE_TTL
  /-- The session was never revoked, -/
  unrevoked : ∀ e ∈ H.entries, ∀ r, e.after.sessions.find? k = some r → r.revokedAt = none
  /-- nor deleted, -/
  present : ∀ e ∈ H.entries, (e.before.sessions.find? k).isSome = true →
    (e.after.sessions.find? k).isSome = true
  /-- and the token was not replaced by another one. -/
  unrotated : ∀ e ∈ H.entries, ∀ r ∈ e.before.sessions,
    r.sessionTokenHash = sha256Verifier P token →
      ∃ r', e.after.sessions.find? r.id = some r' ∧ r'.sessionTokenHash = r.sessionTokenHash

/-- The row that a request at the point loads. -/
lemma LoadsSession.alive_row {headers : HeaderMap} {now : Time} {session : CurrentSession}
    (h : LoadsSession P headers now session s) : ∃ token row,
      sessionTokenFromHeaders headers = some token ∧ row ∈ s.sessions ∧
      row.sessionTokenHash = sha256Verifier P token ∧ row.revokedAt = none ∧
      now < row.idleExpiresAt ∧ now < row.absoluteExpiresAt ∧ session = row.current := by
  obtain ⟨token, row, htoken, hselect, hidle, habsolute, hsession⟩ := h
  obtain ⟨x, hx, hpair⟩ := Option.map_eq_some_iff.mp hselect
  obtain rfl : x = row := (Prod.mk.inj hpair).1
  have hp := List.find?_some hx
  rw [Bool.and_eq_true, beq_iff_eq, Option.isNone_iff_eq_none] at hp
  exact ⟨token, x, htoken, List.mem_of_find?_eq_some hx, hp.1, hp.2, hidle, habsolute, hsession⟩

/-- The run up to an entry and from it on, for a session row of one of its states. -/
lemma ServiceRun.seen_split (h : ServiceRun P state H) {e : Entry Db Request} (he : e ∈ H.entries)
    {r : Session} (hr : r ∈ e.before.sessions ∨ r ∈ e.after.sessions) :
    ∃ H₁ : Log, ServiceRun P state H₁ ∧ H₁.current = e.after ∧ Since P state H₁ H ∧
      SeenSession H₁ r := by
  obtain ⟨l₁, l₂, hsplit⟩ := List.append_of_mem he
  obtain ⟨H₁, -, -, hbefore, -, ⟨hpush, hlater⟩, -⟩ := Run.split h hsplit
  refine ⟨H₁.push e.request e.closing e.after, hpush, rfl, hlater, ?_⟩
  rcases hr with hr | hr
  · exact .inr ⟨_, List.mem_append_right _ List.mem_cons_self, hbefore ▸ hr⟩
  · exact .inl hr

/-- **An authenticated request has a session that is alive.** -/
theorem ServiceRun.alive (h : ServiceRun P state H) {headers : HeaderMap} {now : Time}
    {session : CurrentSession} (hload : LoadsSession P headers now session H.current) :
    ∃ token, sessionTokenFromHeaders headers = some token ∧ Alive P H token now session.id := by
  obtain ⟨token, row, htoken, hrow, hhash, hunrevoked, hidle, habsolute, rfl⟩ := hload.alive_row
  have hfound : H.current.sessions.find? row.id = some row := Rows.find?_of_mem hrow
  have htimely := h.timely row hrow
  -- after a commit that ends the session it would be dead now
  have hnotDead : ∀ e ∈ H.entries, ∀ r : Session, r.id = row.id →
      (r ∈ e.before.sessions ∨ r ∈ e.after.sessions) → ¬ Dead row.id e.after := by
    intro e he r hid hmem hdead
    obtain ⟨H₁, hrun₁, hafter, hlater, hseen₁⟩ := h.seen_split he hmem
    have hgone := hrun₁.dead_later hseen₁ hid (hafter ▸ hdead) hlater row hfound
    rw [hunrevoked] at hgone
    cases hgone
  refine ⟨token, htoken, ?_, ?_, ?_, ?_, ?_⟩
  · obtain ⟨e, he, hcreated, heq⟩ := htimely.created
    exact ⟨e, he, hcreated, heq ▸ habsolute⟩
  · obtain ⟨q, hrenewed, heq⟩ := htimely.renewed
    rw [heq] at hidle
    exact ⟨q, hrenewed, Int.lt_of_lt_of_le hidle (minTime_le_left _ _)⟩
  · intro e he r hr
    change e.after.sessions.find? row.id = some r at hr
    by_contra hrevoked
    obtain ⟨hmem, hid⟩ := Rows.find?_eq_some.mp hr
    refine hnotDead e he r hid (.inr hmem) fun r' hr' => ?_
    rw [hr] at hr'
    obtain rfl := Option.some.inj hr'
    exact Option.isSome_iff_ne_none.mpr hrevoked
  · intro e he hbefore
    obtain ⟨r, hr⟩ := Option.isSome_iff_exists.mp hbefore
    obtain ⟨hmem, hid⟩ := Rows.find?_eq_some.mp hr
    by_contra hafter
    rw [Option.not_isSome_iff_eq_none] at hafter
    change e.after.sessions.find? row.id = none at hafter
    refine hnotDead e he r hid (.inl hmem) fun r' hr' => ?_
    rw [hafter] at hr'
    cases hr'
  · intro e he r hmem htokenHash
    obtain ⟨H₁, hrun₁, hafter, hlater, hseen₁⟩ := h.seen_split he (.inl hmem)
    have hid : row.id = r.id := h.sessionsOk.tokens row r (.inl hrow) (.inr ⟨e, he, hmem⟩)
      (hhash.trans htokenHash.symm)
    by_contra hnone
    have hrotated : Rotated row.id r.sessionTokenHash e.after := by
      intro r' hr' hsame
      exact hnone ⟨r', hid ▸ hr', hsame⟩
    have hlost := hrun₁.rotated_later hseen₁ hid.symm (hafter ▸ hrotated) hlater row hfound
    exact hlost (hhash.trans htokenHash.symm)

/-! ## Answers -/

/-- The answers to a request that is not authenticated. -/
def Refusal (q : Request) (r : Response) : Prop :=
  (∃ e : ApiError, r = e.intoResponse) ∨
    match q.action with
    | .sessionStatus _ => r.body = .unauthenticatedSession
    | .logout _ => r = ⟨204, .empty, some clearSessionCookie⟩
    | _ => False

/-- The request is authenticated with a session of the database. -/
def Authenticated (P : Platform) (q : Request) (s : Db) : Prop :=
  ∃ headers session, q.action.sessionHeaders = some headers ∧ LoadsSession P headers q.now session s

/-- Up to its authentication the program answers refusals only. -/
abbrev Guarded (P : Platform) (q : Request) (p : ApiProgram) : Prop :=
  p.Guarded (Refusal q) (Authenticated P q)

lemma guarded_fail {α : Type} {e : ApiError} {k : α → ApiProgram} : Guarded P q (fail e k) :=
  .answer (.inl ⟨e, rfl⟩)

lemma guarded_attempt {α : Type} {x : Except ApiError α} {k : α → ApiProgram}
    (h : ∀ a, x = .ok a → Guarded P q (k a)) : Guarded P q (attempt x k) := by
  cases x with
  | ok a => exact h a rfl
  | error e => exact .answer (.inl ⟨e, rfl⟩)

/-- **Loading the session guards what comes after it.** -/
lemma guarded_loadCurrentSession {headers : HeaderMap} {next : Option CurrentSession → ApiProgram}
    (hq : q.action.sessionHeaders = some headers) (hnone : Guarded P q (next none)) :
    Guarded P q (loadCurrentSession P headers q.now next) := by
  have hfailed : ∀ e : DbError, Refusal q (unavailable e) := fun e =>
    .inl ⟨.serviceUnavailable, rfl⟩
  unfold loadCurrentSession
  rcases htoken : sessionTokenFromHeaders headers with _ | token
  · exact hnone
  · refine .read hfailed fun s hnot => ?_
    rcases hselect : selectSession (sha256Verifier P token) s with _ | ⟨row, deviceRevokedAt⟩
    · exact hnone
    · dsimp only
      split
      · exact .alone hfailed fun _ => hnone
      · rename_i halive
        simp only [Bool.or_eq_true, decide_eq_true_eq, not_or, Int.not_le] at halive
        obtain ⟨⟨hrevoked, hidle⟩, habsolute⟩ := halive
        obtain rfl : deviceRevokedAt = none := by simpa using hrevoked
        exact absurd ⟨headers, row.current, hq, token, row, htoken, hselect, hidle, habsolute, rfl⟩
          hnot

lemma guarded_requireSession {headers : HeaderMap} {next : CurrentSession → ApiProgram}
    (hq : q.action.sessionHeaders = some headers) :
    Guarded P q (loadCurrentSession P headers q.now fun session =>
      attempt (requireSession session) next) :=
  guarded_loadCurrentSession hq (.answer (.inl ⟨.sessionRequired, rfl⟩))

lemma guarded_requireVaultSession {headers : HeaderMap} {next : CurrentSession → ApiProgram}
    (hq : q.action.sessionHeaders = some headers) :
    Guarded P q (requireVaultSession P q.draws headers next) :=
  guarded_requireSession hq

/-- **The endpoints of a session are guarded**, one case per endpoint. -/
theorem serve_guarded (h : q.action.sessionHeaders.isSome = true) :
    Guarded P q (serve P state q) := by
  unfold serve handler
  cases hq : q.action with
  | sessionStatus headers =>
      have hheaders : q.action.sessionHeaders = some headers := by rw [hq, Action.sessionHeaders]
      refine guarded_attempt fun _ _ => ?_
      refine guarded_loadCurrentSession hheaders (.answer (.inr ?_))
      rw [hq]
  | logout headers =>
      have hheaders : q.action.sessionHeaders = some headers := by rw [hq, Action.sessionHeaders]
      refine guarded_attempt fun _ _ => ?_
      refine guarded_loadCurrentSession hheaders (.answer (.inr ?_))
      rw [hq]
  | csrfToken headers =>
      refine guarded_attempt fun _ _ => ?_
      exact guarded_requireSession (by rw [hq, Action.sessionHeaders])
  | totpEnrollStart headers =>
      refine guarded_attempt fun _ _ => guarded_attempt fun _ _ => ?_
      exact guarded_requireSession (by rw [hq, Action.sessionHeaders])
  | totpEnrollConfirm headers request =>
      refine guarded_attempt fun _ _ => guarded_attempt fun _ _ => ?_
      exact guarded_requireSession (by rw [hq, Action.sessionHeaders])
  | listVaults headers =>
      refine guarded_attempt fun _ _ => ?_
      exact guarded_requireVaultSession (by rw [hq, Action.sessionHeaders])
  | syncVault headers query =>
      refine guarded_attempt fun _ _ => ?_
      exact guarded_requireVaultSession (by rw [hq, Action.sessionHeaders])
  | createItem headers vaultId request =>
      refine guarded_attempt fun _ _ => guarded_attempt fun _ _ => ?_
      exact guarded_requireVaultSession (by rw [hq, Action.sessionHeaders])
  | createItemRevision headers vaultId itemId request =>
      refine guarded_attempt fun _ _ => guarded_attempt fun _ _ => ?_
      exact guarded_requireVaultSession (by rw [hq, Action.sessionHeaders])
  | _ =>
      rw [hq] at h
      cases h

/-! ## The lifetime -/

/-- A point of the run at which the request is authenticated, between two logs. -/
def AuthenticatedBetween (P : Platform) (state : AppState) (q : Request) (born H : Log) : Prop :=
  ∃ H₁ : Log, ServiceRun P state H₁ ∧ born.entries <+: H₁.entries ∧ H₁.entries <+: H.entries ∧
    Authenticated P q H₁.current

/-- The lifetime of the sessions, in the history of a state of the service. -/
structure SessionLifetime (P : Platform) (state : AppState) (sys : Service) : Prop where
  /-- In every state the rows have the expiry times they should have. -/
  timely : ∀ H, ServiceRun P state H → Since P state H sys.history →
    ∀ r ∈ H.current.sessions, r.Timely H
  /-- In every state, who is authenticated has a session that is alive. -/
  alive : ∀ H, ServiceRun P state H → Since P state H sys.history →
    ∀ headers now session, LoadsSession P headers now session H.current →
      ∃ token, sessionTokenFromHeaders headers = some token ∧ Alive P H token now session.id
  /-- A session is created, or renewed by a request that was authenticated with it before. -/
  renewed : ∀ l₁ e l₂ k, sys.history.entries = l₁ ++ e :: l₂ → renews k e = true →
    createsSession k e = true ∨ ∃ H₁ headers session, ServiceRun P state H₁ ∧
      H₁.entries <+: l₁ ∧ e.request.action.sessionHeaders = some headers ∧ session.id = k ∧
      LoadsSession P headers e.request.now session H₁.current
  /-- An answer that is no refusal went to a request that was authenticated since it arrived. -/
  answers : ∀ t ∈ sys.threads, ∀ r, t.request.action.sessionHeaders.isSome = true →
    t.program = .answer r →
      Refusal t.request r ∨ AuthenticatedBetween P state t.request t.born sys.history

/-- What was seen was a state of the run. -/
lemma ServiceRun.saw_point (h : ServiceRun P state H) {p : Db → Prop} (hsaw : H.Saw p) :
    ∃ H₁ : Log, ServiceRun P state H₁ ∧ H₁.entries <+: H.entries ∧ p H₁.current := by
  rcases hsaw with hp | ⟨e, he, hp⟩
  · exact ⟨H, h, List.prefix_rfl, hp⟩
  · obtain ⟨l₁, l₂, hsplit⟩ := List.append_of_mem he
    obtain ⟨H₁, hrun₁, hl₁, hbefore, -⟩ := Run.split h hsplit
    exact ⟨H₁, hrun₁, ⟨e :: l₂, by rw [hl₁, hsplit]⟩, hbefore ▸ hp⟩

/-- What renews a session. -/
lemma Effect.renews_cases (h : Effect P state q H b s') {k : Uuid}
    (hrenews : renews k ⟨q, b, H.current, s'⟩ = true) :
    createsSession k ⟨q, b, H.current, s'⟩ = true ∨ ∃ headers session,
      q.action.sessionHeaders = some headers ∧ session.id = k ∧
      H.Saw (LoadsSession P headers q.now session) := by
  have hmove := h.sessionMove k
  generalize ho : H.current.sessions.find? k = o at hmove
  generalize ho' : s'.sessions.find? k = o' at hmove
  simp only [renews, createsSession, ho, ho'] at hrenews ⊢
  cases hmove with
  | kept => cases o <;> simp at hrenews ⊢
  | ended => cases o <;> cases hrenews
  | revoked => simp at hrenews
  | csrf => simp at hrenews
  | refreshed hrid hheaders hid hload => exact .inr ⟨_, _, hheaders, hid, hload⟩
  | @upgraded r headers request session f step hclosing hrid hq hload hid =>
      exact .inr ⟨headers, session, by rw [hq, Action.sessionHeaders], hid, hload⟩
  | setup => exact .inl rfl
  | verified => exact .inl rfl
  | recovered => exact .inl rfl

/-- **The lifetime of a session**, in every reachable state, whatever the interleaving. -/
theorem session_lifetime {sys : Service} (h : Reachable P state sys) :
    SessionLifetime P state sys := by
  refine ⟨fun H hrun _ => hrun.timely, fun H hrun _ headers now session => hrun.alive, ?_, ?_⟩
  · intro l₁ e l₂ k hsplit hrenews
    obtain ⟨H₁, hrun₁', hl₁, hbefore, heff, -⟩ := Run.split h.run hsplit
    have hrun₁ : ServiceRun P state H₁ := hrun₁'
    obtain ⟨q, b, before, after⟩ := e
    change H₁.current = before at hbefore
    subst hbefore
    rcases Effect.renews_cases heff hrenews with hcreated | ⟨headers, session, hq, hid, hsaw⟩
    · exact .inl hcreated
    · obtain ⟨H₂, hrun₂, hprefix, hload⟩ := hrun₁.saw_point hsaw
      exact .inr ⟨H₂, headers, session, hrun₂, hl₁ ▸ hprefix, hq, hid, hload⟩
  · intro t ht r hsession hr
    have hguards := System.Reaches.guarded (K := ServiceRun P state)
      (fun _ (hsys : Reachable P state _) => hsys.run)
      (fun q => q.action.sessionHeaders.isSome = true) Refusal (Authenticated P)
      (fun q hq => serve_guarded hq) h t ht hsession
    exact hguards.answered hr

/-- The sessions of a client that stores an item. -/
theorem session_lifetime_firstItem : SessionLifetime standard configured (serveAll firstItem) :=
  session_lifetime firstItem_reachable

/-! ### A session that was found idle

A session that nobody has revoked is refreshed by a request that loaded it in time, also when a later
request has found it expired meanwhile. -/

/-- No session that a request found expired is used by a request of that time or later. -/
def NeverRevived (P : Platform) (H : Log) : Prop :=
  ∀ (l₁ : List (Entry Db Request)) (e : Entry Db Request) (l₂ : List (Entry Db Request))
    (e' : Entry Db Request) (l₃ : List (Entry Db Request)) headers headers' k session,
    H.entries = l₁ ++ e :: l₂ ++ e' :: l₃ → e.request.action.sessionHeaders = some headers →
    FindsExpired P headers e.request.now k e.before →
    e'.request.action.sessionHeaders = some headers' → e.request.now ≤ e'.request.now →
    LoadsSession P headers' e'.request.now session e'.before → session.id ≠ k

lemma revival_reachable : Reachable standard configured revival :=
  takeTurns_reachable (by decide) (tokenHashes_nodup (by decide))

/-- What an entry's request finds with the token of the run: the session, and whether it is idle. -/
def foundIdle (e : Entry Db Request) : Option (Uuid × Bool) :=
  (selectSession (sha256Verifier standard (token 1)) e.before).bind fun found =>
    if found.2.isNone ∧ e.request.now < found.1.absoluteExpiresAt then
      some (found.1.id, decide (found.1.idleExpiresAt ≤ e.request.now))
    else none

/-- Alice's session. -/
abbrev firstSession : Uuid := (draws 1 (moment 10)).uuid 4

/-- In the run, the session is found idle, is refreshed and is loaded. -/
lemma revival_evaluated :
    sessionTokenFromHeaders (Client.cookie (token 1)) = some (token 1) ∧
    (revival.history.entries.reverse.take 3).map (fun e => (foundIdle e, e.request.now)) =
      [(some (firstSession, false), moment 1900), (some (firstSession, false), moment 1800),
        (some (firstSession, true), moment 1900)] ∧
    (revival.history.entries.reverse.take 3).map (fun e => e.request.action.sessionHeaders) =
      List.replicate 3 (some (Client.cookie (token 1))) := by
  decide +kernel

lemma foundIdle_some {e : Entry Db Request} {k : Uuid} {idle : Bool}
    (h : foundIdle e = some (k, idle)) : ∃ row,
      selectSession (sha256Verifier standard (token 1)) e.before = some (row, none) ∧ row.id = k ∧
      e.request.now < row.absoluteExpiresAt ∧
      decide (row.idleExpiresAt ≤ e.request.now) = idle := by
  obtain ⟨⟨row, deviceRevokedAt⟩, hselect, hfound⟩ := Option.bind_eq_some_iff.mp h
  dsimp only at hfound
  split at hfound
  · rename_i hcond
    obtain ⟨hid, hidle⟩ := Prod.mk.inj (Option.some.inj hfound)
    exact ⟨row, Option.isNone_iff_eq_none.mp hcond.1 ▸ hselect, hid, hcond.2, hidle⟩
  · cases hfound

lemma map_eq_three {α β : Type} {f : α → β} {l : List α} {a b c : β}
    (h : l.map f = [a, b, c]) : ∃ x y z, l = [x, y, z] ∧ f x = a ∧ f y = b ∧ f z = c := by
  match l, h with
  | [x, y, z], h =>
      simp only [List.map_cons, List.map_nil, List.cons.injEq, and_true] at h
      exact ⟨x, y, z, rfl, h⟩

/-- **A refresh makes a session usable that was found expired**: the request that found it idle has
not revoked it yet, and the one that refreshes it had loaded it before. -/
theorem revival_revives : Reachable standard configured revival ∧
    ¬ NeverRevived standard revival.history := by
  refine ⟨revival_reachable, fun hnever => ?_⟩
  obtain ⟨htoken, hfound, hheaders⟩ := revival_evaluated
  generalize revival.history = H at hfound hheaders hnever
  obtain ⟨e₃, e₂, e₁, hlast, h₃, -, h₁⟩ := map_eq_three hfound
  rw [hlast] at hheaders
  obtain ⟨x, y, z, hxyz, hq₃, -, hq₁⟩ := map_eq_three hheaders
  obtain ⟨rfl, rfl, rfl⟩ : e₃ = x ∧ e₂ = y ∧ e₁ = z := by simpa using hxyz
  obtain ⟨hfound₃, hnow₃⟩ := Prod.mk.inj h₃
  obtain ⟨hfound₁, hnow₁⟩ := Prod.mk.inj h₁
  obtain ⟨row₃, hselect₃, hid₃, habsolute₃, hidle₃⟩ := foundIdle_some hfound₃
  obtain ⟨row₁, hselect₁, hid₁, -, hidle₁⟩ := foundIdle_some hfound₁
  have hsplit : H.entries = (H.entries.reverse.drop 3).reverse ++ e₁ :: [e₂] ++ e₃ :: [] := by
    have hrev := congrArg List.reverse (List.take_append_drop 3 H.entries.reverse)
    rw [hlast, List.reverse_append, List.reverse_reverse] at hrev
    rw [← hrev]
    simp
  refine hnever _ e₁ [e₂] e₃ [] _ _ firstSession row₃.current hsplit hq₁ ?_ hq₃
    (by rw [hnow₁, hnow₃]) ?_ hid₃
  · exact ⟨_, row₁, none, htoken, hselect₁, hid₁, .inr (.inl (decide_eq_true_eq.mp hidle₁))⟩
  · exact ⟨_, row₃, htoken, hselect₃, Int.not_le.mp (decide_eq_false_iff_not.mp hidle₃),
      habsolute₃, rfl⟩

end PasswordVault
