import PasswordVault.Browser.Unlocking

/-!
# Locking

What a locked page stays, through any events and answers.

* `Job.mayUnlock`: the operations that may still come to assign `state.vault`. None of them looks at
  whether the vault was locked meanwhile.
* `Page.Sticky`: the invariant of a locked page on which none of them waits.
* `lock_sticky`: a vault that is locked then stays locked.
-/

namespace PasswordVault.Browser

variable (W : Web)

/-- Whether an operation may still come to assign `state.vault`. -/
def Job.mayUnlock : Job → Bool
  | .mfaVerify => true
  | .mfaSession _ => true
  | .confirm => true
  | .confirmSession _ => true
  | .unlockList _ => true
  | .unlockMetadata _ _ => true
  | .unlockIntegrity _ _ => true
  | _ => false

/-- The events that lock the vault. -/
def Event.locks : Event → Bool
  | .lock => true
  | .setMode => true
  | .submitRegistration _ => true
  | .submitLogin _ => true
  | _ => false

/-- The answer that completes an MFA verification or an enrollment confirmation. -/
def Completes (page : Page) (event : Event) : Prop :=
  ∃ place nonce reply body, event = .resume place nonce reply ∧
    (page.jobs[place]? = some .mfaVerify ∨ page.jobs[place]? = some .confirm) ∧
    jsonFetch W reply = .ok body

/-- The vault is locked, and stays so until a verification or a confirmation completes. -/
structure Page.Sticky (page : Page) : Prop where
  vault : page.state.vault = none
  jobs : ∀ job ∈ page.jobs, job.mayUnlock = true → job = .mfaVerify ∨ job = .confirm

/-- An operation that may unlock goes on from one that may. -/
lemma Job.Leads.mayUnlock {page : Page} {job job' : Job} (h : job.Leads W page job')
    (h' : job'.mayUnlock = true) : job.mayUnlock = true := by
  cases h with
  | syncing hjob hjob' =>
      cases job' with
      | syncPage s => cases h'
      | syncChange s verifying rest response => cases h'
      | _ => cases hjob'
  | _ => first | rfl | cases h'

/-- A verification or a confirmation goes on only when it has been accepted. -/
lemma completes_of_wait {page : Page} {disk : Disk} {job next : Job} {nonce : Bytes} {reply : Reply}
    (hjob : job = .mfaVerify ∨ job = .confirm)
    (hwait : (job.resume W page disk nonce reply).progress = .wait next) :
    ∃ body, jsonFetch W reply = .ok body := by
  cases hbody : jsonFetch W reply with
  | ok body => exact ⟨body, rfl⟩
  | error e =>
      rcases hjob with rfl | rfl
      · simp only [Job.resume, hbody, Turn.attempt] at hwait
        cases hwait
      · have hbind : ∀ f : JsValue → Except JsError JsValue,
            (Except.error e : Except JsError JsValue) >>= f = .error e := fun _ => rfl
        simp only [Job.resume, hbody, hbind, Turn.attempt] at hwait
        cases hwait

lemma Page.Sticky.follows {page page' : Page} (hs : page.Sticky) (h : page.Follows page') :
    page'.Sticky :=
  ⟨h.locked hs.vault, fun job hjob => hs.jobs job (h.jobs ▸ hjob)⟩

lemma Page.Sticky.step {page page' : Page} {disk : Disk} {event : Event} (hs : page.Sticky)
    (h : page.Stepped W disk event page') (hcompletes : ¬ Completes W page event) :
    page'.Sticky ∧ page'.objects.length = page.objects.length := by
  cases h with
  | follows h => exact ⟨hs.follows h, h.length⟩
  | starts base job h hjob hpage =>
      subst hpage
      have hbase := hs.follows h
      refine ⟨⟨hbase.vault, fun job' hjob' hmay => ?_⟩, h.length⟩
      rcases List.mem_append.mp hjob' with hjob' | hjob'
      · exact hbase.jobs job' hjob' hmay
      · obtain rfl := List.mem_singleton.mp hjob'
        cases hjob with
        | flow hflow =>
            simp only [List.mem_cons, List.not_mem_nil, or_false] at hflow
            rcases hflow with rfl | rfl | rfl | rfl | rfl | rfl | rfl
            · cases hmay
            · cases hmay
            · cases hmay
            · cases hmay
            · exact .inl rfl
            · cases hmay
            · exact .inr rfl
        | sync => cases hmay
        | write => cases hmay
  | resumes place nonce reply job hevent hjob hpage =>
      subst hpage
      have hmem : job ∈ page.jobs := List.mem_of_getElem? hjob
      have hnext : ∀ next, job.Leads W page next →
          (job.resume W page disk nonce reply).progress = .wait next → next.mayUnlock = false := by
        intro next hleads hwait
        cases hmay : next.mayUnlock with
        | false => rfl
        | true =>
            have hfirst := hs.jobs job hmem (hleads.mayUnlock W hmay)
            obtain ⟨body, hbody⟩ := completes_of_wait W hfirst hwait
            refine absurd ⟨place, nonce, reply, body, hevent, ?_, hbody⟩ hcompletes
            rcases hfirst with rfl | rfl
            · exact .inl hjob
            · exact .inr hjob
      have hturn : ∀ base : Page, base.jobs = page.jobs → base.state = page.state →
          base.objects = page.objects →
          (job.resume W page disk nonce reply).Keeps base (job.Leads W page) →
          (Page.settle (job.resume W page disk nonce reply) place).Sticky ∧
            (Page.settle (job.resume W page disk nonce reply) place).objects.length =
              page.objects.length := by
        intro base hjobs hstate hobjects h
        refine ⟨⟨?_, fun job' hjob' hmay => ?_⟩, ?_⟩
        · rw [Page.settle_state]
          exact h.page.locked (hstate ▸ hs.vault)
        · rcases Page.mem_settle hjob' with hjob' | hwait
          · exact hs.jobs job' (hjobs ▸ h.page.jobs ▸ hjob') hmay
          · rw [hnext job' (h.job hwait) hwait] at hmay
            cases hmay
        · rw [Page.settle_objects, h.page.length, hobjects]
      cases job.resume_resumed W page disk nonce reply with
      | follows h => exact hturn page rfl rfl rfl h
      | publishes opening keys vault hunlock hvault h =>
          -- nothing that may unlock has come so far
          rcases hs.jobs job hmem (by rw [hunlock]; rfl) with hfirst | hfirst
          · rw [hfirst] at hunlock
            cases hunlock
          · rw [hfirst] at hunlock
            cases hunlock
      | posts w body hcsrf h => exact hturn (page.post w.object body) rfl rfl rfl h

/-- The locking events. -/
lemma Page.step_locks (page : Page) (disk : Disk) {event : Event} (h : event.locks = true) :
    ∃ base, page.Follows base ∧ base.state.vault = none ∧
      ((page.step W disk event).1 = base ∨
        ∃ job, job.mayUnlock = false ∧ (page.step W disk event).1 = base.start job) := by
  have hreset : page.Follows page.resetFlow.clearVaultState :=
    page.follows_resetFlow.trans (Page.follows_clearVaultState _)
  cases event with
  | lock => exact ⟨_, page.follows_lockVault, rfl, .inl rfl⟩
  | setMode => exact ⟨_, hreset, rfl, .inl rfl⟩
  | submitRegistration valid =>
      refine ⟨_, hreset, rfl, ?_⟩
      cases valid with
      | true => exact .inr ⟨.registerStart, rfl, rfl⟩
      | false => exact .inl rfl
  | submitLogin valid =>
      refine ⟨_, hreset, rfl, ?_⟩
      cases valid with
      | true => exact .inr ⟨.loginStart, rfl, rfl⟩
      | false => exact .inl rfl
  | _ => cases h

/-- After a locking event: the vault is locked, and the keys of the one that was open are wiped. -/
structure Page.StaysLocked (page after : Page) : Prop where
  vault : after.state.vault = none
  wiped : ∀ {i : Nat} {o : VaultObject}, page.state.vault = some i → after.objects[i]? = some o →
    o.wiped = true

/-- **Locking is sticky** when nothing that may unlock is waiting: the vault stays locked through
any events, until the server accepts an MFA verification or an enrollment confirmation. -/
theorem lock_sticky {page after : Page} {disk : Disk} {event : Event} (hlocks : event.locks = true)
    (hidle : ∀ job ∈ page.jobs, job.mayUnlock = false)
    (hrun : Page.Run W (fun page event => ¬ Completes W page event) (page.step W disk event).1
      after) :
    page.StaysLocked after := by
  obtain ⟨base, hbase, hvault, hstart⟩ := page.step_locks W disk hlocks
  have hfirst : (page.step W disk event).1.Sticky ∧
      (page.step W disk event).1.objects = base.objects := by
    have hjobs : ∀ job ∈ base.jobs, job.mayUnlock = false := hbase.jobs ▸ hidle
    rcases hstart with hstep | ⟨job, hjob, hstep⟩
    · rw [hstep]
      exact ⟨⟨hvault, fun job hmem hmay => by rw [hjobs job hmem] at hmay; cases hmay⟩, rfl⟩
    · rw [hstep]
      refine ⟨⟨hvault, fun job' hmem hmay => ?_⟩, rfl⟩
      rcases List.mem_append.mp hmem with hmem | hmem
      · rw [hjobs job' hmem] at hmay
        cases hmay
      · rw [List.mem_singleton.mp hmem, hjob] at hmay
        cases hmay
  have hafter : after.Sticky ∧ after.objects.length = base.objects.length ∧
      (page.step W disk event).1.Grows after := by
    induction hrun with
    | refl => exact ⟨hfirst.1, congrArg List.length hfirst.2, .refl _⟩
    | step h disk' event' hallowed ih =>
        obtain ⟨hsticky, hlength, hgrows⟩ := ih
        rename_i page'
        have hstep := page'.step_stepped W disk' event'
        obtain ⟨hsticky', hlength'⟩ := hsticky.step W hstep hallowed
        exact ⟨hsticky', hlength'.trans hlength, hgrows.trans hstep.grows⟩
  obtain ⟨hsticky, hlength, hgrows⟩ := hafter
  refine ⟨hsticky.vault, fun {i o} hi ho => ?_⟩
  have hbound := (List.getElem?_eq_some_iff.mp ho).choose
  rw [hlength] at hbound
  have hobject := List.getElem?_eq_getElem hbound
  obtain ⟨o', ho', hbecomes⟩ := hgrows i _ (by rw [hfirst.2, hobject])
  rw [ho, Option.some.injEq] at ho'
  exact ho' ▸ hbecomes.wiped (hbase.locks hi hvault hobject)

/-! ### Runs of a browser with an empty storage -/

def emptyDisk : Disk := ⟨emptyStorage, none⟩

/-- Some events, each of which finds the storage empty. -/
def Page.after (page : Page) (events : List Event) : Page :=
  events.foldl (fun page event => (page.step W emptyDisk event).1) page

lemma Page.run_after {allowed : Page → Event → Prop} (hallowed : ∀ page event, allowed page event)
    {page base : Page} (h : Page.Run W allowed base page) (events : List Event) :
    Page.Run W allowed base (page.after W events) := by
  induction events generalizing page with
  | nil => exact h
  | cons event rest ih => exact ih (h.step emptyDisk event (hallowed page event))

def answered (members : List (String × Json)) : Reply := .response true 200 (some (.obj members))

/-- A login, up to where the browser waits for the integrity key of the vault. -/
def unlocking : List Event :=
  [.submitLogin true, .resume 0 [] (answered []), .resume 0 [] (.derived sampleKey),
    .resume 0 [] (answered [("result", .str "mfa_required"), ("mfa_challenge_id", .str "c")]),
    .submitLoginTotp true, .resume 0 [] (answered [("session", .obj [])]),
    .resume 0 [] (answered []),
    .resume 0 [] (answered [("vaults", .arr [sampleVault 0 (sampleHash 1) (sampleHash 1)])]),
    .resume 0 [] (.derived [])]

def sampleHead : Json := .obj [("seq", .num (.int 0)), ("hash", .str (sampleHash 1))]

/-- Then the vault is unlocked; it has no items. -/
def unlocked : List Event :=
  unlocking ++ [.resume 0 [] (.derived []),
    .resume 0 [] (answered [("from_head", sampleHead), ("changes", .arr []),
      ("has_more", .bool false), ("to_head", sampleHead)])]

def sampleBrowser : Web := sampleWeb sampleMetadata

/-- What remains to be unlocked is unlocked after the lock. -/
def unlockedLate : List Event := unlocking ++ [.lock, .resume 0 [] (.derived [])]

lemma unlocking_evaluated :
    (Page.init.after sampleBrowser unlockedLate).state.vault = some 0 ∧
      (Page.init.after sampleBrowser unlocked).state.vault = some 0 ∧
      (Page.init.after sampleBrowser unlocked).jobs.length = 0 := by
  decide +kernel

/-- The vault is unlocked and then locked, and the user tries to sync it. -/
theorem lock_sticky_unlocked : (Page.init.after sampleBrowser unlocked).StaysLocked
    ((((Page.init.after sampleBrowser unlocked).step sampleBrowser emptyDisk .lock).1.step
      sampleBrowser emptyDisk .sync).1) := by
  have hidle : ∀ job ∈ (Page.init.after sampleBrowser unlocked).jobs, job.mayUnlock = false := by
    rw [List.length_eq_zero_iff.mp unlocking_evaluated.2.2]
    exact fun job hjob => absurd hjob List.not_mem_nil
  refine lock_sticky sampleBrowser rfl hidle (.step .refl emptyDisk .sync ?_)
  rintro ⟨place, nonce, reply, body, hevent, -⟩
  cases hevent

/-- **An unlock that goes on after the lock.** -/
theorem lock_undone : ¬ ∀ (W : Web) (page after : Page) (disk : Disk) (event : Event),
    Page.Run W (fun _ _ => True) Page.init page → event.locks = true →
    Page.Run W (fun page event => ¬ Completes W page event) (page.step W disk event).1 after →
    page.StaysLocked after := by
  intro h
  have hlate := (h sampleBrowser (Page.init.after sampleBrowser unlocking) _ emptyDisk .lock
    (Page.run_after sampleBrowser (fun _ _ => trivial) .refl unlocking) rfl
    (.step .refl emptyDisk (.resume 0 [] (.derived [])) ?_)).vault
  · have hrun : Page.init.after sampleBrowser unlockedLate =
        ((((Page.init.after sampleBrowser unlocking).step sampleBrowser emptyDisk .lock).1.step
          sampleBrowser emptyDisk (.resume 0 [] (.derived []))).1) := by
      rw [unlockedLate, Page.after, List.foldl_append]
      rfl
    rw [← hrun, unlocking_evaluated.1] at hlate
    cases hlate
  · rintro ⟨place, nonce, reply, body, hevent, -, hbody⟩
    obtain ⟨-, -, rfl⟩ := Event.resume.inj hevent
    cases hbody

end PasswordVault.Browser
