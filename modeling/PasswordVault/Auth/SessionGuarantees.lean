import PasswordVault.Server.Effects

/-!
# Handlers keep to the effects: sessions

The contract judgement for this service (`Holds`), the rules for the pieces that all authenticated
requests share, and the endpoints of the session itself.
-/

namespace PasswordVault

open Transactions

section rules

variable (P : Platform) (state : AppState) (q : Request) (Post : Log → Response → Prop)

/-- From the fact `F` on, the rest of request `q` commits only its effects and answers as `Post`
says. -/
abbrev Holds (c : Connection Db Lock) (F : Log → Prop) (p : ApiProgram) : Prop :=
  Sat (Guarantee P state) (Fresh P) {} q Post c F p

/-- No other request destroys `F` while we hold `locks`. -/
abbrev Kept (locks : List Lock) (F : Log → Prop) : Prop :=
  Stable (Guarantee P state) (Fresh P) ({} : Db) locks F

/-- Error responses are always allowed. -/
abbrev ErrorsOk : Prop := ∀ (e : ApiError) H, Post H e.intoResponse

variable {P state q Post} {c : Connection Db Lock} {F : Log → Prop}

lemma Kept.saw (locks : List Lock) (p : Db → Prop) :
    Kept P state locks fun H => H.Saw p :=
  fun _ _ hH he hK => Later.induction (K := fun H => H.Saw p)
    (fun _ q b s _ _ _ hs => hs.push q b s) hH he.1 hK

lemma holds_fail {α : Type} {e : ApiError} {k : α → ApiProgram} (herr : ErrorsOk Post) :
    Holds P state q Post c F (fail e k) :=
  Sat.finish (herr e)

lemma holds_attempt {α : Type} {x : Except ApiError α} {k : α → ApiProgram}
    (herr : ErrorsOk Post) (h : ∀ a, x = .ok a → Holds P state q Post c F (k a)) :
    Holds P state q Post c F (attempt x k) :=
  Sat.orElse herr h

lemma unavailable_ok (herr : ErrorsOk Post) : ∀ e H, Post H (unavailable e) :=
  fun _ H => herr .serviceUnavailable H

lemma holds_revokeSession {id : Uuid} {headers : HeaderMap} {next : Unit → ApiProgram}
    (herr : ErrorsOk Post) (hq : q.action.sessionHeaders = some headers) (hF : Kept P state [] F)
    (hc : c.locks = []) (hfound : ∀ H, F H → H.Saw (FindsExpired P headers q.now id))
    (h : Holds P state q Post c F (next ())) :
    Holds P state q Post c F (revokeSession id q.now next) := by
  unfold revokeSession
  refine Sat.updateAlone (T := sessions) (k := id) (fun r hr => eq_of_beq hr) hF hc
    (unavailable_ok herr) (fun H => .idle) ?_ fun n => h
  intro H r hFH hr hp _
  have hid : r.id = id := eq_of_beq hp
  exact .sessionRevoked hr hq (hid ▸ hfound H hFH)

/-- **Loading the session**: whoever goes on with a session found it in the database at some
point. -/
lemma holds_loadCurrentSession {headers : HeaderMap} {next : Option CurrentSession → ApiProgram}
    (herr : ErrorsOk Post) (hq : q.action.sessionHeaders = some headers) (hF : Kept P state [] F)
    (hc : c.locks = []) (hnone : Holds P state q Post c F (next none))
    (hsome : ∀ session F', Kept P state [] F' → (∀ H, F' H → F H) →
      (∀ H, F' H → H.Saw (LoadsSession P headers q.now session)) →
      Holds P state q Post c F' (next (some session))) :
    Holds P state q Post c F (loadCurrentSession P headers q.now next) := by
  unfold loadCurrentSession
  rcases htoken : sessionTokenFromHeaders headers with _ | token
  · exact hnone
  · refine Sat.queryAlone hF hc (unavailable_ok herr) (fun H => .idle) ?_
    intro row F' hF' hrow
    rcases row with _ | ⟨row, deviceRevokedAt⟩
    · exact hnone.weaken fun H _ hH => (hrow H hH).1
    · dsimp only
      split
      · rename_i hexpired
        simp only [Bool.or_eq_true, decide_eq_true_eq] at hexpired
        refine holds_revokeSession herr hq hF' hc (fun H hH => ?_)
          (hnone.weaken fun H _ hH => (hrow H hH).1)
        obtain ⟨-, H₀, -, hrun₀, hlater, hfound⟩ := hrow H hH
        refine hlater.saw hrun₀ ⟨token, row, deviceRevokedAt, htoken, hfound.symm, rfl, ?_⟩
        rwa [or_assoc] at hexpired
      · rename_i hexpired
        simp only [Bool.or_eq_true, decide_eq_true_eq, not_or] at hexpired
        obtain ⟨⟨hrevoked, hidle⟩, habsolute⟩ := hexpired
        rw [Int.not_le] at hidle habsolute
        refine hsome row.current (fun H => F H ∧ H.Saw (LoadsSession P headers q.now row.current))
          (hF.and (Kept.saw [] _)) (fun H hH => hH.1) (fun H hH => hH.2) |>.weaken ?_
        intro H hrun hH
        obtain ⟨hFH, H₀, -, hrun₀, hlater, hfound⟩ := hrow H hH
        refine ⟨hFH, hlater.saw hrun₀ ⟨token, row, htoken, ?_, hidle, habsolute, rfl⟩⟩
        obtain rfl : deviceRevokedAt = none := by simpa using hrevoked
        exact hfound.symm

lemma holds_refreshSessionActivity {headers : HeaderMap} {session : CurrentSession}
    {next : CurrentSession → ApiProgram} (herr : ErrorsOk Post)
    (hq : q.action.sessionHeaders = some headers) (hF : Kept P state [] F)
    (hc : c.locks = []) (hload : ∀ H, F H → H.Saw (LoadsSession P headers q.now session))
    (h : Holds P state q Post c F (next { session with
      idleExpiresAt := minTime (q.now + SESSION_IDLE_TTL) session.absoluteExpiresAt })) :
    Holds P state q Post c F (refreshSessionActivity session q.now next) := by
  unfold refreshSessionActivity
  refine Sat.updateAlone (T := sessions) (k := session.id) (fun r hr => eq_of_beq hr) hF hc
    (unavailable_ok herr) (fun H => .idle) ?_ fun n => h
  intro H r hFH hr hp _
  exact .sessionRefreshed hr (by simpa using hp) hq (hload H hFH)

lemma holds_ensureCsrfToken {headers : HeaderMap} {id : Uuid} {next : Unit → ApiProgram}
    (herr : ErrorsOk Post) (hF : Kept P state [] F) (hc : c.locks = [])
    (h : ∀ F', Kept P state [] F' → (∀ H, F' H → F H) → Holds P state q Post c F' (next ())) :
    Holds P state q Post c F (ensureCsrfToken P headers id next) := by
  unfold ensureCsrfToken
  rcases csrfTokenFromHeaders headers with _ | token
  · exact holds_fail herr
  · refine Sat.queryAlone hF hc (unavailable_ok herr) (fun H => .idle) ?_
    intro stored F' hF' hstored
    dsimp only
    rcases stored.join with _ | stored
    · exact holds_fail herr
    · dsimp only
      split
      · exact h F' hF' fun H hH => (hstored H hH).1
      · exact holds_fail herr

lemma holds_insertAuditEvent {accountId : Uuid} {deviceId : Option Uuid} {eventType : String}
    {metadata : Json} {next : Unit → ApiProgram} (herr : ErrorsOk Post)
    (hF : Kept P state c.locks F)
    (h : ∀ event, Holds P state q Post ⟨Db.audited event ∘ c.writes, c.locks⟩ F (next ())) :
    Holds P state q Post c F (insertAuditEvent accountId deviceId eventType metadata next) := by
  unfold insertAuditEvent
  refine Sat.inside hF (unavailable_ok herr) fun H₀ H₁ r _ _ hF₁ henv hr => ?_
  obtain rfl := Except.ok.inj hr
  exact h _ H₁ henv.run hF₁

/-- Updating a challenge that is already locked. -/
lemma holds_consumeAuthChallenge {d : AuthChallenge} {id : Uuid} {next : Unit → ApiProgram}
    (herr : ErrorsOk Post) (hF : Kept P state c.locks F) (hid : d.id = id)
    (hknown : ∀ H, F H → (c.writes H.current).authChallenges.find? d.id = some d)
    (h : ∀ locks, (∀ l ∈ c.locks, l ∈ locks) → Kept P state locks F →
      Holds P state q Post ⟨authChallenges.putAll [d.consumed q.now] ∘ c.writes, locks⟩ F
        (next ())) :
    Holds P state q Post c F (consumeAuthChallenge id q.now next) := by
  subst hid
  unfold consumeAuthChallenge
  exact Sat.updateRow (T := authChallenges) d hF (unavailable_ok herr) hknown (by simp)
    (fun x hx => eq_of_beq hx) fun locks hlocks hF' _ => h locks hlocks hF'

lemma holds_incrementChallengeAttempts {ch : AuthChallenge} {next : Unit → ApiProgram}
    (herr : ErrorsOk Post) (hF : Kept P state c.locks F)
    (hknown : ∀ H, F H → (c.writes H.current).authChallenges.find? ch.id = some ch)
    (h : ∀ locks, Kept P state locks F →
      Holds P state q Post ⟨authChallenges.putAll [ch.incremented q.now] ∘ c.writes, locks⟩ F
        (next ())) :
    Holds P state q Post c F (incrementChallengeAttempts ch.id q.now next) := by
  unfold incrementChallengeAttempts
  exact Sat.updateRow (T := authChallenges) ch hF (unavailable_ok herr) hknown (by simp)
    (fun x hx => eq_of_beq hx) fun locks _ hF' _ => h locks hF'

/-- **Creating a session**: its row is new, and stays so until the commit. -/
lemma holds_createSessionWithDevice {accountId : Uuid} {device : ValidatedDevice}
    {sessionState : SessionState} {next : CreatedSession → ApiProgram}
    (herr : ErrorsOk Post) (hF : Kept P state c.locks F)
    (hw : ∀ s, (c.writes s).sessions = s.sessions) (hw' : ∀ s, (c.writes s).devices = s.devices)
    (h : ∀ locks F', Kept P state locks F' → (∀ H, F' H → F H) →
      (∀ H, F' H → devices.New [] (newDevice q.draws accountId device q.now) H.current) →
      (∀ H, F' H → sessions.New [] (newSession P q.draws accountId sessionState q.now) H.current) →
      Holds P state q Post
        ⟨sessions.putAll [newSession P q.draws accountId sessionState q.now] ∘
          devices.putAll [newDevice q.draws accountId device q.now] ∘ c.writes, locks⟩ F'
        (next ⟨q.draws.uuid 0, q.draws.bytes 0 TOKEN_LEN, q.now + SESSION_IDLE_TTL,
          q.now + SESSION_ABSOLUTE_TTL⟩)) :
    Holds P state q Post c F
      (createSessionWithDevice P q.draws accountId device sessionState q.now next) := by
  unfold createSessionWithDevice
  refine Sat.insertNew (T := devices) [] hF (unavailable_ok herr) ?_ ?_
  · intro s x hx _
    refine ⟨x, ?_, rfl, rfl⟩
    change x ∈ (c.writes s).devices
    rw [hw']
    exact hx
  · intro locks F₁ _ hF₁ hsub₁ _ hdevice
    refine Sat.insertNew (T := sessions) [] hF₁ (unavailable_ok herr) ?_ ?_
    · intro s x hx _
      refine ⟨x, ?_, rfl, rfl⟩
      change x ∈ (c.writes s).sessions
      rw [hw]
      exact hx
    · intro locks' F' _ hF' hsub _ hnew
      exact h locks' F' hF' (fun H hH => hsub₁ H (hsub H hH)) (fun H hH => hdevice H (hsub H hH))
        hnew

end rules

/-! ## The endpoints -/

variable {P : Platform} {state : AppState} {q : Request} {Post : Log → Response → Prop}

/-- A connection without a transaction. -/
abbrev noTransaction : Connection Db Lock := {}

lemma sessionStatus_holds (hP : ∀ H r, Post H r) {headers : HeaderMap} {F : Log → Prop}
    (hq : q.action.sessionHeaders = some headers) (hF : Kept P state [] F) :
    Holds P state q Post noTransaction F (sessionStatus P state q.draws headers).run := by
  have herr : ErrorsOk Post := fun _ H => hP H _
  unfold sessionStatus Handler.run
  refine holds_attempt herr fun _ _ => ?_
  refine holds_loadCurrentSession herr hq hF rfl ?_ ?_
  · exact Sat.answer fun H H' _ _ _ => hP H' _
  · intro session F' hF' _ hload
    refine holds_refreshSessionActivity herr hq hF' rfl hload ?_
    refine holds_attempt herr fun idle _ => holds_attempt herr fun absolute _ => ?_
    exact Sat.answer fun H H' _ _ _ => hP H' _

lemma csrfToken_holds (hP : ∀ H r, Post H r) {headers : HeaderMap} {F : Log → Prop}
    (hq : q.action = .csrfToken headers) (hF : Kept P state [] F) :
    Holds P state q Post noTransaction F (csrfToken P state q.draws headers).run := by
  have herr : ErrorsOk Post := fun _ H => hP H _
  have hheaders : q.action.sessionHeaders = some headers := by rw [hq, Action.sessionHeaders]
  unfold csrfToken Handler.run
  refine holds_attempt herr fun _ _ => ?_
  refine holds_loadCurrentSession herr hheaders hF rfl ?_ ?_
  · exact holds_attempt herr fun session hsession => by cases hsession
  · intro session F' hF' _ hload
    refine holds_attempt herr fun session' hsession => ?_
    obtain rfl := Except.ok.inj hsession
    refine holds_refreshSessionActivity herr hheaders hF' rfl hload ?_
    refine Sat.updateAlone (T := sessions) (k := session.id) (fun r hr => eq_of_beq hr) hF'
      rfl (unavailable_ok herr) (fun H => .idle) ?_ fun n => ?_
    · intro H r hH hr hp _
      exact @Effect.csrfIssued P state q H r headers session hq hr (eq_of_beq hp) (hload H hH)
    · exact holds_attempt herr fun expires _ => Sat.answer fun H H' _ _ _ => hP H' _

lemma logout_holds (hP : ∀ H r, Post H r) {headers : HeaderMap} {F : Log → Prop}
    (hq : q.action = .logout headers) (hF : Kept P state [] F) :
    Holds P state q Post noTransaction F (logout P state q.draws headers).run := by
  have herr : ErrorsOk Post := fun _ H => hP H _
  have hheaders : q.action.sessionHeaders = some headers := by rw [hq, Action.sessionHeaders]
  unfold logout Handler.run
  refine holds_attempt herr fun _ _ => ?_
  refine holds_loadCurrentSession herr hheaders hF rfl ?_ ?_
  · exact Sat.answer fun H H' _ _ _ => hP H' _
  · intro session F' hF' _ hload
    refine holds_attempt herr fun _ _ => ?_
    refine holds_ensureCsrfToken herr hF' rfl fun F'' hF'' hsub => ?_
    refine Sat.deleteAlone (T := sessions) hF'' rfl (unavailable_ok herr) ?_ fun n => ?_
    · intro H rows hH hrows
      refine .sessionEnded hq (fun id hid => ?_) (hload H (hsub H hH))
      obtain ⟨r, hr, rfl⟩ := List.mem_map.mp hid
      exact eq_of_beq (hrows r hr).2
    · exact Sat.answer fun H H' _ _ _ => hP H' _

end PasswordVault
