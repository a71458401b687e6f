import PasswordVault.Browser.Page

/-!
# The steps of the page

What a step can do to the page, said once for every claim about its runs.

* `Page.Follows`: the effect of all steps but two. An object keeps the keys of its unlocking, and
  only the vault of the page is wiped, when it is locked.
* `Job.Leads`: the place to which a job goes on.
* `Job.Resumed`: the step of a job. `unlockIntegrity` publishes a vault, and `writeCsrf` posts.
* `Page.Starts`: the job that an event of the user starts; `Page.Stepped`: the step of an event.
* `Page.Run`: some events, one after the other.
* `Page.Grows`: what every step keeps of the objects.
-/

namespace PasswordVault.Browser

variable (W : Web)

/-! ## Objects -/

/-- What a step may do to an object. -/
structure VaultObject.Becomes (o o' : VaultObject) : Prop where
  keys : o'.keys = o.keys
  vaultId : o'.vault.vaultId = o.vault.vaultId
  wiped : o.wiped = true → o'.wiped = true

lemma VaultObject.Becomes.refl (o : VaultObject) : o.Becomes o := ⟨rfl, rfl, id⟩

lemma VaultObject.Becomes.trans {o o' o'' : VaultObject} (h : o.Becomes o') (h' : o'.Becomes o'') :
    o.Becomes o'' :=
  ⟨h'.keys.trans h.keys, h'.vaultId.trans h.vaultId, fun hw => h'.wiped (h.wiped hw)⟩

lemma VaultObject.bytes_of_unwiped {o : VaultObject} (h : o.wiped = false) : o.bytes = o.keys := by
  simp [VaultObject.bytes, h]

lemma VaultObject.bytes_of_wiped {o : VaultObject} (h : o.wiped = true) :
    o.bytes = o.keys.wipe := by
  simp [VaultObject.bytes, h]

lemma Page.keysOf_eq {page : Page} {object : Nat} {o : VaultObject}
    (h : page.objects[object]? = some o) : page.keysOf object = o.bytes := by
  simp [Page.keysOf, h]

lemma Page.vaultOf_eq_some {page : Page} {object : Nat} {vault : Vault} :
    page.vaultOf object = some vault ↔
      ∃ o, page.objects[object]? = some o ∧ o.vault = vault := by
  simp [Page.vaultOf]

lemma Page.unlocked_eq_some {page : Page} {object : Nat} {vault : Vault} :
    page.unlocked = some (object, vault) ↔
      page.state.vault = some object ∧ page.vaultOf object = some vault := by
  simp only [Page.unlocked, Option.bind_eq_some_iff, Option.map_eq_some_iff, Prod.mk.injEq]
  constructor
  · rintro ⟨i, hi, v, hv, rfl, rfl⟩
    exact ⟨hi, hv⟩
  · rintro ⟨hi, hv⟩
    exact ⟨object, hi, vault, hv, rfl, rfl⟩

/-! ## Pages -/

/-- What a step does that neither publishes a vault nor posts: its jobs are settled afterwards. -/
structure Page.Follows (page page' : Page) : Prop where
  jobs : page'.jobs = page.jobs
  posts : page'.posts = page.posts
  length : page'.objects.length = page.objects.length
  object : ∀ {i : Nat} {o : VaultObject}, page.objects[i]? = some o →
    ∃ o', page'.objects[i]? = some o' ∧ o.Becomes o'
  vault : page'.state.vault = page.state.vault ∨ page'.state.vault = none
  /-- Only the vault of the page is wiped, -/
  wiped : ∀ {i : Nat} {o o' : VaultObject}, page.objects[i]? = some o → page'.objects[i]? = some o' →
    o'.wiped = true → o.wiped = true ∨ page.state.vault = some i ∧ page'.state.vault = none
  /-- and it is, when the page is locked. -/
  locks : ∀ {i : Nat} {o : VaultObject}, page.state.vault = some i → page'.state.vault = none →
    page'.objects[i]? = some o → o.wiped = true

lemma Page.Follows.refl (page : Page) : page.Follows page where
  jobs := rfl
  posts := rfl
  length := rfl
  object h := ⟨_, h, .refl _⟩
  vault := .inl rfl
  wiped h h' hw := by
    rw [h, Option.some.injEq] at h'
    exact .inl (h' ▸ hw)
  locks h h' := by simp [h] at h'

lemma Page.Follows.trans {page page' page'' : Page} (h : page.Follows page')
    (h' : page'.Follows page'') : page.Follows page'' where
  jobs := h'.jobs.trans h.jobs
  posts := h'.posts.trans h.posts
  length := h'.length.trans h.length
  object ho := by
    obtain ⟨o', ho', hb⟩ := h.object ho
    obtain ⟨o'', ho'', hb'⟩ := h'.object ho'
    exact ⟨o'', ho'', hb.trans hb'⟩
  vault := by
    rcases h'.vault with hv | hv
    · rw [hv]
      exact h.vault
    · exact .inr hv
  wiped ho ho'' hw := by
    obtain ⟨o', ho', -⟩ := h.object ho
    rcases h'.wiped ho' ho'' hw with hw' | ⟨hv, hv'⟩
    · rcases h.wiped ho ho' hw' with hw | ⟨hv, hv'⟩
      · exact .inl hw
      · refine .inr ⟨hv, ?_⟩
        rcases h'.vault with h'' | h''
        · rw [h'', hv']
        · exact h''
    · refine .inr ⟨?_, hv'⟩
      rcases h.vault with h'' | h''
      · rw [← h'', hv]
      · simp [h''] at hv
  locks {i o} hv hv'' ho'' := by
    rcases h.vault with h'' | h''
    · exact h'.locks (h''.trans hv) hv'' ho''
    · -- locked by the first step: what it wiped stays wiped
      have hi : i < page'.objects.length := by
        have := (List.getElem?_eq_some_iff.mp ho'').choose
        rwa [h'.length] at this
      have ho' := List.getElem?_eq_getElem hi
      obtain ⟨o₂, ho₂, hb⟩ := h'.object ho'
      rw [ho''] at ho₂
      rw [Option.some.inj ho₂]
      exact hb.wiped (h.locks hv h'' ho')

lemma Page.Follows.locked {page page' : Page} (h : page.Follows page')
    (hv : page.state.vault = none) : page'.state.vault = none := by
  rcases h.vault with h' | h'
  · rw [h', hv]
  · exact h'

/-- A change of the variables that leaves the vault alone. -/
lemma Page.Follows.of_state {page : Page} {state : State} (h : state.vault = page.state.vault) :
    page.Follows { page with state } where
  jobs := rfl
  posts := rfl
  length := rfl
  object h := ⟨_, h, .refl _⟩
  vault := .inl h
  wiped h h' hw := by
    rw [h, Option.some.injEq] at h'
    exact .inl (h' ▸ hw)
  locks hv hv' := by simp [h, hv] at hv'

lemma Page.follows_select (page : Page) (itemId : String) :
    page.Follows { page with state := { page.state with selectedItemId := itemId } } :=
  .of_state rfl

lemma Page.follows_clearPendingUnlockKey (page : Page) :
    page.Follows page.clearPendingUnlockKey :=
  .of_state rfl

/-- An object after a change at a place. -/
lemma modify_at {objects : List VaultObject} {i : Nat} {o : VaultObject} (place : Nat)
    (f : VaultObject → VaultObject) (h : objects[i]? = some o) :
    (objects.modify place f)[i]? = some (if place = i then f o else o) := by
  rw [List.getElem?_modify, h]
  rfl

lemma Page.follows_commit (page : Page) (object : Nat) (replay : Vault) :
    page.Follows (page.commit object replay) where
  jobs := rfl
  posts := rfl
  length := by simp [Page.commit]
  object {i o} h := by
    refine ⟨_, modify_at object _ h, ?_⟩
    split
    · exact ⟨rfl, rfl, id⟩
    · exact .refl o
  vault := .inl rfl
  wiped {i o o'} h h' hw := by
    rw [Page.commit, modify_at object _ h, Option.some.injEq] at h'
    subst h'
    split at hw
    · exact .inl hw
    · exact .inl hw
  locks h h' := by simp [Page.commit, h] at h'

@[simp] lemma Page.clearVaultState_vault (page : Page) :
    page.clearVaultState.state.vault = none := rfl

@[simp] lemma Page.lockVault_vault (page : Page) : page.lockVault.state.vault = none := rfl

lemma Page.follows_clearVaultState (page : Page) : page.Follows page.clearVaultState := by
  cases hv : page.state.vault with
  | none =>
      have hpage : page.clearVaultState =
          { page with state := { page.state with vault := none, selectedItemId := "" } } := by
        simp [Page.clearVaultState, hv]
      rw [hpage]
      exact .of_state hv.symm
  | some object =>
      have hobjects : page.clearVaultState.objects =
          page.objects.modify object fun o => { o with wiped := true } := by
        simp [Page.clearVaultState, Page.wipeObject, hv]
      refine ⟨?_, ?_, ?_, ?_, .inr rfl, ?_, ?_⟩
      · simp [Page.clearVaultState, Page.wipeObject, hv]
      · simp [Page.clearVaultState, Page.wipeObject, hv]
      · simp [hobjects]
      · intro i o h
        rw [hobjects]
        refine ⟨_, modify_at object _ h, ?_⟩
        split
        · exact ⟨rfl, rfl, fun _ => rfl⟩
        · exact .refl o
      · intro i o o' h h' hw
        rw [hobjects, modify_at object _ h, Option.some.injEq] at h'
        by_cases hi : object = i
        · exact .inr ⟨by rw [← hi, hv], rfl⟩
        · rw [if_neg hi] at h'
          exact .inl (h' ▸ hw)
      · intro i o hi _ h
        rw [hv, Option.some.injEq] at hi
        rw [hobjects, List.getElem?_modify] at h
        obtain ⟨o, -, rfl⟩ := Option.map_eq_some_iff.mp h
        rw [if_pos hi]

lemma Page.follows_lockVault (page : Page) : page.Follows page.lockVault :=
  page.follows_clearPendingUnlockKey.trans (Page.follows_clearVaultState _)

lemma Page.follows_resetFlow (page : Page) : page.Follows page.resetFlow :=
  page.follows_lockVault.trans (.of_state rfl)

lemma Page.follows_failClosedVault (page : Page) (e : JsError) :
    page.Follows (page.failClosedVault e) := by
  unfold Page.failClosedVault
  split
  · exact page.follows_lockVault
  · exact .refl page

/-! ## Where a job goes on -/

/-- The sync that a job is in. -/
def Job.syncing : Job → Option Syncing
  | .syncPage s => some s
  | .syncChange s _ _ _ => some s
  | _ => none

/-- The place to which a job goes on in a step from a page. -/
inductive Job.Leads (page : Page) : Job → Job → Prop where
  | registerDerive : Leads page .registerStart .registerDerive
  | registerCsrf : Leads page .registerFinish (.enrollCsrf false)
  | enrollStart (login : Bool) : Leads page (.enrollCsrf login) (.enrollStart login)
  | loginDerive : Leads page .loginStart .loginDerive
  | loginFinish : Leads page .loginDerive .loginFinish
  | loginCsrf : Leads page .loginFinish (.enrollCsrf true)
  | recoveryCsrf : Leads page .recoveryVerify (.enrollCsrf false)
  | mfaSession (verification : JsValue) : Leads page .mfaVerify (.mfaSession verification)
  | confirmSession (confirmation : JsValue) : Leads page .confirm (.confirmSession confirmation)
  | mfaUnlock (verification : JsValue) {key : Bytes} (h : page.state.pendingUnlockKey = some key) :
      Leads page (.mfaSession verification) (.unlockList key)
  | confirmUnlock (confirmation : JsValue) {key : Bytes}
      (h : page.state.pendingUnlockKey = some key) :
      Leads page (.confirmSession confirmation) (.unlockList key)
  | metadata (key : Bytes) (opening : Opening) (wrapped : JsValue) :
      Leads page (.unlockList key) (.unlockMetadata opening (aesGcmDecrypt W key wrapped none))
  | integrity (opening : Opening) (metadata : Except JsError Json) (vaultKey : Bytes) :
      Leads page (.unlockMetadata opening metadata) (.unlockIntegrity opening
        ⟨vaultKey, deriveVaultIntegrityKey W vaultKey opening.vaultId⟩)
  | sync (opening : Opening) (keys : VaultKeys) (object : Nat) (vault : Vault) :
      Leads page (.unlockIntegrity opening keys) (.syncPage ⟨object, vault, true⟩)
  | syncing {job job' : Job} {s s' : Syncing} (h : job.syncing = some s)
      (h' : job'.syncing = some s') (hobject : s'.object = s.object)
      (hunlocking : s'.unlocking = s.unlocking) : Leads page job job'
  | encrypt (w : Writing) (contentKey : Bytes) (envelope : Json) :
      Leads page (.writeKey w contentKey) (.writeEncrypt w envelope)
  | envelopeHash (w : Writing) (envelope : Json) :
      Leads page (.writeEncrypt w envelope)
        (.writeEnvelopeHash w envelope (envelopeHash W (some envelope)))
  | mac (w : Writing) (envelope : Json) (hash : String) {o : VaultObject}
      (h : page.objects[w.object]? = some o) :
      Leads page (.writeEnvelopeHash w envelope hash) (.writeMac w envelope hash
        (computeChangeMac W o.bytes (w.macFields o.vault.vaultId hash)))
  | head (w : Writing) (envelope : Json) (hash mac : String) {o : VaultObject}
      (h : page.objects[w.object]? = some o) :
      Leads page (.writeMac w envelope hash mac) (.writeHead w envelope hash mac
        (computeHeadHash W o.bytes o.vault.vaultId w.headSeq w.baseHeadHash mac))
  | csrf (w : Writing) (envelope : Json) (hash mac head : String) :
      Leads page (.writeHead w envelope hash mac head) (.writeCsrf w (w.body envelope hash mac head))
  | post (w : Writing) (body : WriteBody) :
      Leads page (.writeCsrf w body) (.writePost w body)
  | verify (w : Writing) (body : WriteBody) (object : Nat) (verifying : Verifying) :
      Leads page (.writePost w body) (.writeVerify w object verifying)
  | verifying (w : Writing) (object : Nat) (verifying verifying' : Verifying) :
      Leads page (.writeVerify w object verifying) (.writeVerify w object verifying')

/-! ## The step of a job -/

/-- A step that follows a page, with a property of where the job then waits. -/
structure Turn.Keeps (page : Page) (next : Job → Prop) (turn : Turn) : Prop where
  page : page.Follows turn.page
  job : ∀ {job}, turn.progress = .wait job → next job

section Rules

variable {page page' : Page} {disk : Disk} {storage : LocalStorage} {next : Job → Prop}

lemma Turn.keeps_fail (h : page.Follows page') (e : JsError) :
    (Turn.fail page' disk e).Keeps page next :=
  ⟨h, nofun⟩

lemma Turn.keeps_wait (h : page.Follows page') {job : Job} (hjob : next job) :
    (Turn.wait page' disk job).Keeps page next :=
  ⟨h, by rintro _ ⟨⟩; exact hjob⟩

lemma Turn.keeps_wait_state {job : Job} {state : State} (hjob : next job)
    (h : state.vault = page.state.vault) :
    (Turn.wait { page with state } disk job).Keeps page next :=
  Turn.keeps_wait (.of_state h) hjob

lemma Turn.keeps_returned (h : page.Follows page') :
    Turn.Keeps page next ⟨page', storage, .returned⟩ :=
  ⟨h, nofun⟩

lemma Turn.keeps_attempt {α : Type} {x : Except JsError α} {k : α → Turn}
    (h : page.Follows page') (hk : ∀ a, x = .ok a → (k a).Keeps page next) :
    (Turn.attempt page' disk x k).Keeps page next := by
  cases x with
  | ok a => exact hk a rfl
  | error e => exact Turn.keeps_fail h e

lemma writeFailed_keeps (h : page.Follows page') (e : JsError) :
    (writeFailed page' storage e).Keeps page next :=
  ⟨h.trans (Page.follows_failClosedVault page' e), nofun⟩

lemma Syncing.failed_keeps (s : Syncing) (h : page.Follows page') (e : JsError) :
    (s.failed page' storage e).Keeps page next := by
  refine ⟨?_, nofun⟩
  have hpage := h.trans (Page.follows_failClosedVault page' e)
  unfold Syncing.failed
  split
  · exact hpage.trans (Page.follows_lockVault _)
  · exact hpage.trans (Page.follows_failClosedVault _ e)

lemma Syncing.finish_keeps (s : Syncing) (h : page.Follows page') :
    (s.finish W page' disk).Keeps page next := by
  unfold Syncing.finish
  simp only
  split
  · exact s.failed_keeps h _
  · have hpage := h.trans (Page.follows_commit page' s.object s.replay)
    split
    · exact s.failed_keeps hpage _
    · exact Turn.keeps_returned hpage

lemma Syncing.endOfPage_keeps (s : Syncing) (h : page.Follows page') (hnext : next (.syncPage s))
    (response : JsValue) : (s.endOfPage W page' disk response).Keeps page next := by
  unfold Syncing.endOfPage
  by_cases hmore : truthy (member response "has_more")
  · rw [if_pos hmore]
    exact Turn.keeps_wait h hnext
  rw [if_neg hmore]
  simp only
  split
  · exact s.failed_keeps h _
  · split
    · exact s.failed_keeps h _
    · exact s.finish_keeps W h

lemma Syncing.nextChange_keeps (s : Syncing) (h : page.Follows page')
    (hpage : next (.syncPage s))
    (hchange : ∀ verifying rest response, next (.syncChange s verifying rest response))
    (response : JsValue) (changes : List Json) :
    (s.nextChange W page' disk response changes).Keeps page next := by
  cases changes with
  | nil => exact s.endOfPage_keeps W h hpage response
  | cons value rest =>
      simp only [Syncing.nextChange]
      split
      · exact s.failed_keeps h _
      · exact Turn.keeps_wait h (hchange _ rest response)

lemma Writing.finish_keeps (w : Writing) (object : Nat) (change : Change) (head : String)
    (plaintext : Json) :
    (w.finish W page disk object change head plaintext).Keeps page next := by
  unfold Writing.finish
  split
  · exact writeFailed_keeps (.refl page) _
  · split
    · exact writeFailed_keeps (.refl page) _
    · rename_i replay _
      simp only
      split
      · exact writeFailed_keeps (.refl page) _
      · have hpage := page.follows_commit object replay
        generalize (if w.operation = "delete" then "" else w.itemId) = selected
        have hselected := hpage.trans ((page.commit object replay).follows_select selected)
        split
        · exact writeFailed_keeps hselected _
        · exact Turn.keeps_returned hselected

lemma unlockVaultFromPendingKey_keeps
    (hnext : ∀ {key}, page.state.pendingUnlockKey = some key → next (.unlockList key)) :
    (unlockVaultFromPendingKey page disk).Keeps page next := by
  unfold unlockVaultFromPendingKey
  split
  · exact Turn.keeps_returned (.refl page)
  · rename_i key hkey
    exact Turn.keeps_wait page.follows_clearPendingUnlockKey (hnext hkey)

end Rules

/-- The page with one more body that is sent. -/
def Page.post (page : Page) (object : Nat) (body : WriteBody) : Page :=
  { page with posts := page.posts ++ [(object, body)] }

/-- What a step of a job does: it follows the page, or the page with the vault that it publishes, or
with the body that it sends. -/
inductive Job.Resumed (page : Page) (job : Job) (turn : Turn) : Prop where
  | follows (h : turn.Keeps page (job.Leads W page))
  | publishes (opening : Opening) (keys : VaultKeys) (vault : Vault)
      (hjob : job = .unlockIntegrity opening keys) (hvault : vault.vaultId = opening.vaultId)
      (h : turn.Keeps (page.publish vault keys) (job.Leads W page))
  | posts (w : Writing) (body : WriteBody) (hjob : job = .writeCsrf w body)
      (h : turn.Keeps (page.post w.object body) (job.Leads W page))

lemma markCheckpointProgress_vaultId {vault vault' : Vault}
    (h : markCheckpointProgress W vault = .ok vault') : vault'.vaultId = vault.vaultId := by
  unfold markCheckpointProgress at h
  repeat' split at h
  all_goals cases h
  all_goals rfl

lemma Job.resume_resumed (page : Page) (disk : Disk) (job : Job) (nonce : Bytes) (reply : Reply) :
    job.Resumed W page (job.resume W page disk nonce reply) := by
  cases job with
  | registerStart =>
      exact .follows (Turn.keeps_attempt (.refl page) fun _ _ =>
        Turn.keeps_wait (.refl page) .registerDerive)
  | registerDerive =>
      refine .follows ?_
      simp only [Job.resume]
      split
      · exact Turn.keeps_returned (.of_state rfl)
      · exact Turn.keeps_fail (.refl page) _
  | registerFinish =>
      refine .follows (Turn.keeps_attempt (.refl page) fun _ _ => ?_)
      exact Turn.keeps_attempt (.of_state rfl) fun _ _ => Turn.keeps_wait_state .registerCsrf rfl
  | enrollCsrf login =>
      refine .follows (Turn.keeps_attempt ?_ fun _ _ =>
        Turn.keeps_wait_state (.enrollStart login) rfl)
      split
      · exact page.follows_clearPendingUnlockKey
      · exact .refl page
  | enrollStart login =>
      refine .follows (Turn.keeps_attempt ?_ fun _ _ => Turn.keeps_returned (.of_state rfl))
      split
      · exact page.follows_clearPendingUnlockKey
      · exact .refl page
  | loginStart =>
      exact .follows (Turn.keeps_attempt page.follows_clearPendingUnlockKey fun _ _ =>
        Turn.keeps_wait (.refl page) .loginDerive)
  | loginDerive =>
      refine .follows ?_
      simp only [Job.resume]
      split
      · exact Turn.keeps_wait_state .loginFinish rfl
      · exact Turn.keeps_fail page.follows_clearPendingUnlockKey _
  | loginFinish =>
      refine .follows (Turn.keeps_attempt page.follows_clearPendingUnlockKey fun a _ => ?_)
      obtain ⟨body, result⟩ := a
      simp only
      split
      · exact Turn.keeps_returned (.of_state rfl)
      · split
        · exact Turn.keeps_wait (.refl page) .loginCsrf
        · exact Turn.keeps_fail page.follows_clearPendingUnlockKey _
  | mfaVerify =>
      exact .follows (Turn.keeps_attempt (.refl page) fun verification _ =>
        Turn.keeps_wait_state (.mfaSession verification) rfl)
  | mfaSession verification =>
      exact .follows (Turn.keeps_attempt (.refl page) fun _ _ =>
        unlockVaultFromPendingKey_keeps fun hkey => .mfaUnlock verification hkey)
  | recoveryVerify =>
      refine .follows (Turn.keeps_attempt (.refl page) fun _ _ => ?_)
      exact Turn.keeps_attempt (.of_state rfl) fun _ _ => Turn.keeps_wait_state .recoveryCsrf rfl
  | confirm =>
      exact .follows (Turn.keeps_attempt (.refl page) fun confirmation _ =>
        Turn.keeps_wait (.refl page) (.confirmSession confirmation))
  | confirmSession confirmation =>
      exact .follows (unlockVaultFromPendingKey_keeps fun hkey => .confirmUnlock confirmation hkey)
  | unlockList unlockKey =>
      refine .follows (Turn.keeps_attempt (.refl page) fun a _ => ?_)
      obtain ⟨opening, wrapped⟩ := a
      exact Turn.keeps_wait (.refl page) (.metadata unlockKey opening wrapped)
  | unlockMetadata opening metadata =>
      exact .follows (Turn.keeps_attempt (.refl page) fun vaultKey _ =>
        Turn.keeps_wait (.refl page) (.integrity opening metadata vaultKey))
  | unlockIntegrity opening keys =>
      simp only [Job.resume]
      split
      · exact .publishes opening keys opening.vault rfl rfl (Turn.keeps_fail (.refl _) _)
      · rename_i vault hmark
        refine .publishes opening keys vault rfl (markCheckpointProgress_vaultId W hmark) ?_
        unfold startSync
        split
        · exact Turn.keeps_fail (Page.follows_clearPendingUnlockKey _) _
        · rename_i object vault' _
          exact Turn.keeps_wait (Page.follows_clearPendingUnlockKey _)
            (.sync opening keys object vault')
  | syncPage s =>
      refine .follows ?_
      simp only [Job.resume]
      split
      · exact s.failed_keeps (.refl page) _
      · exact s.nextChange_keeps W (.refl page) (.syncing rfl rfl rfl rfl)
          (fun _ _ _ => .syncing rfl rfl rfl rfl) _ _
  | syncChange s verifying rest response =>
      refine .follows ?_
      simp only [Job.resume]
      split
      · exact s.failed_keeps (.refl page) _
      · exact Turn.keeps_wait (.refl page) (.syncing rfl rfl rfl rfl)
      · split
        · exact s.failed_keeps (.refl page) _
        · rename_i replay _
          exact Syncing.nextChange_keeps W { s with replay } (.refl page)
            (.syncing rfl rfl rfl rfl) (fun _ _ _ => .syncing rfl rfl rfl rfl) response rest
  | writeKey w contentKey =>
      refine .follows ?_
      simp only [Job.resume]
      split
      · exact writeFailed_keeps (.refl page) _
      · exact Turn.keeps_wait (.refl page) (.encrypt w contentKey _)
  | writeEncrypt w envelope =>
      exact .follows (Turn.keeps_wait (.refl page) (.envelopeHash w envelope))
  | writeEnvelopeHash w envelope hash =>
      refine .follows ?_
      simp only [Job.resume]
      split
      · exact writeFailed_keeps (.refl page) _
      · rename_i vault hvault
        obtain ⟨o, ho, rfl⟩ := Page.vaultOf_eq_some.mp hvault
        rw [Page.keysOf_eq ho]
        exact Turn.keeps_wait (.refl page) (.mac w envelope hash ho)
  | writeMac w envelope hash mac =>
      refine .follows ?_
      simp only [Job.resume]
      split
      · exact writeFailed_keeps (.refl page) _
      · rename_i vault hvault
        obtain ⟨o, ho, rfl⟩ := Page.vaultOf_eq_some.mp hvault
        rw [Page.keysOf_eq ho]
        exact Turn.keeps_wait (.refl page) (.head w envelope hash mac ho)
  | writeHead w envelope hash mac head =>
      exact .follows (Turn.keeps_wait (.refl page) (.csrf w envelope hash mac head))
  | writeCsrf w body =>
      simp only [Job.resume]
      split
      · exact .follows (writeFailed_keeps (.refl page) _)
      · exact .posts w body rfl (Turn.keeps_wait (.refl _) (.post w body))
  | writePost w body =>
      refine .follows ?_
      simp only [Job.resume]
      split
      · exact writeFailed_keeps (.refl page) _
      · split
        · exact writeFailed_keeps (.refl page) _
        · split
          · exact writeFailed_keeps (.refl page) _
          · split
            · exact writeFailed_keeps (.refl page) _
            · exact Turn.keeps_wait (.refl page) (.verify w body _ _)
  | writeVerify w object verifying =>
      refine .follows ?_
      simp only [Job.resume]
      split
      · exact writeFailed_keeps (.refl page) _
      · split
        · exact writeFailed_keeps (.refl page) _
        · exact Turn.keeps_wait (.refl page) (.verifying w object verifying _)
        · exact w.finish_keeps W object _ _ _

/-! ## Events -/

/-- The job that an event of the user starts on a page. -/
inductive Page.Starts (page : Page) : Job → Prop where
  | flow {job : Job} (h : job ∈ [Job.registerStart, .registerFinish, .enrollCsrf false, .loginStart,
      .mfaVerify, .recoveryVerify, .confirm]) : Starts page job
  | sync {object : Nat} {vault : Vault} (h : page.unlocked = some (object, vault)) :
      Starts page (.syncPage ⟨object, vault, false⟩)
  | write {object : Nat} {vault : Vault} (h : page.unlocked = some (object, vault)) (w : Writing)
      (hw : w.object = object) (contentKey : Bytes) : Starts page (.writeKey w contentKey)

/-- What an event does: the user's ones change the page and may start a job, and an answer resumes
one. -/
inductive Page.Stepped (page : Page) (disk : Disk) (event : Event) (page' : Page) : Prop where
  | follows (h : page.Follows page')
  | starts (base : Page) (job : Job) (h : page.Follows base) (hjob : base.Starts job)
      (hpage : page' = base.start job)
  | resumes (place : Nat) (nonce : Bytes) (reply : Reply) (job : Job)
      (hevent : event = .resume place nonce reply) (hjob : page.jobs[place]? = some job)
      (hpage : page' = Page.settle (job.resume W page disk nonce reply) place)

lemma Page.step_flow {page : Page} {disk : Disk} {event : Event} {base : Page} {job : Job}
    (h : page.Follows base) (valid : Bool)
    (hjob : job ∈ [Job.registerStart, .registerFinish, .enrollCsrf false, .loginStart, .mfaVerify,
      .recoveryVerify, .confirm]) :
    page.Stepped W disk event (if valid then base.start job else base) := by
  cases valid with
  | true => exact .starts base job h (.flow hjob) rfl
  | false => exact .follows h

lemma Page.step_write {page : Page} {disk : Disk} {event : Event} {object : Nat} {vault : Vault}
    (h : page.unlocked = some (object, vault)) (operation : String) (plaintext : Json)
    (itemId revisionId : String) (baseRevisionSeq : JsNumber) :
    page.Stepped W disk event
      (page.startWrite W object vault operation plaintext itemId revisionId baseRevisionSeq) :=
  .starts page _ (.refl page) (.write h _ rfl _) rfl

lemma Page.step_stepped (page : Page) (disk : Disk) (event : Event) :
    page.Stepped W disk event (page.step W disk event).1 := by
  have hreset : page.Follows page.resetFlow.clearVaultState :=
    page.follows_resetFlow.trans (Page.follows_clearVaultState _)
  cases event with
  | lock => exact .follows page.follows_lockVault
  | setMode => exact .follows hreset
  | submitRegistration valid => exact Page.step_flow W hreset valid (by simp)
  | submitLogin valid => exact Page.step_flow W hreset valid (by simp)
  | continueEnrollment secretSaved =>
      simp only [Page.step]
      split
      · exact .starts page _ (.refl page) (.flow (by simp)) rfl
      · exact Page.step_flow W (.refl page) _ (by simp)
  | submitLoginTotp valid => exact Page.step_flow W (.refl page) _ (by simp)
  | submitLoginRecoveryCode valid => exact Page.step_flow W (.refl page) _ (by simp)
  | submitTotp valid => exact Page.step_flow W (.refl page) _ (by simp)
  | sync =>
      unfold Page.step startSync
      simp only
      split
      · rename_i h
        split at h
        · cases h
        · rename_i object vault hunlocked
          obtain rfl := Progress.wait.inj h
          exact .starts page _ (.refl page) (.sync hunlocked) rfl
      · refine .follows ?_
        split
        · exact .refl page
        · exact .refl page
  | save plaintext newItemId revisionId =>
      simp only [Page.step]
      split
      · rename_i object vault plaintext hunlocked
        split
        · exact Page.step_write W hunlocked _ _ _ _ _
        · exact Page.step_write W hunlocked _ _ _ _ _
      · exact .follows (.refl page)
  | delete plaintext revisionId =>
      simp only [Page.step]
      split
      · rename_i object vault hunlocked
        split
        · exact Page.step_write W hunlocked _ _ _ _ _
        · exact .follows (.refl page)
      · exact .follows (.refl page)
  | newItem => exact .follows (page.follows_select "")
  | select itemId =>
      simp only [Page.step]
      split
      · split
        · exact .follows (page.follows_select itemId)
        · exact .follows (.refl page)
      · exact .follows (.refl page)
  | resume place nonce reply =>
      simp only [Page.step]
      cases hjob : page.jobs[place]? with
      | none => exact .follows (.refl page)
      | some job => exact .resumes place nonce reply job rfl hjob rfl

/-! ## Runs -/

/-- The page after some events, with the storage as the tabs have left it at each of them. -/
inductive Page.Run (allowed : Page → Event → Prop) (page : Page) : Page → Prop where
  | refl : Run allowed page page
  | step {page' : Page} (h : Run allowed page page') (disk : Disk) (event : Event)
      (hallowed : allowed page' event) : Run allowed page (page'.step W disk event).1

/-! ## What a step keeps -/

/-- The objects of a page are still there. -/
def Page.Grows (page page' : Page) : Prop :=
  ∀ (i : Nat) (o : VaultObject), page.objects[i]? = some o →
    ∃ o', page'.objects[i]? = some o' ∧ o.Becomes o'

lemma Page.Grows.refl (page : Page) : page.Grows page := fun _ o ho => ⟨o, ho, .refl o⟩

lemma Page.Grows.trans {page page' page'' : Page} (h : page.Grows page') (h' : page'.Grows page'') :
    page.Grows page'' := by
  intro i o ho
  obtain ⟨o', ho', hb⟩ := h i o ho
  obtain ⟨o'', ho'', hb'⟩ := h' i o' ho'
  exact ⟨o'', ho'', hb.trans hb'⟩

lemma Page.Follows.grows {page page' : Page} (h : page.Follows page') : page.Grows page' :=
  fun _ _ ho => h.object ho

lemma Page.grows_publish (page : Page) (vault : Vault) (keys : VaultKeys) :
    page.Grows (page.publish vault keys) := by
  intro i o ho
  have hi : i < page.objects.length := (List.getElem?_eq_some_iff.mp ho).choose
  exact ⟨o, by rw [Page.publish, List.getElem?_append_left hi, ho], .refl o⟩

@[simp] lemma Page.settle_state (turn : Turn) (place : Nat) :
    (Page.settle turn place).state = turn.page.state := by
  unfold Page.settle
  split <;> rfl

@[simp] lemma Page.settle_objects (turn : Turn) (place : Nat) :
    (Page.settle turn place).objects = turn.page.objects := by
  unfold Page.settle
  split <;> rfl

@[simp] lemma Page.settle_posts (turn : Turn) (place : Nat) :
    (Page.settle turn place).posts = turn.page.posts := by
  unfold Page.settle
  split <;> rfl

lemma Page.mem_settle {turn : Turn} {place : Nat} {job : Job}
    (h : job ∈ (Page.settle turn place).jobs) : job ∈ turn.page.jobs ∨ turn.progress = .wait job := by
  unfold Page.settle at h
  split at h
  · rename_i next hnext
    rcases List.mem_or_eq_of_mem_set h with h | rfl
    · exact .inl h
    · exact .inr hnext
  · exact .inl (List.mem_of_mem_eraseIdx h)

lemma Job.Resumed.grows {page : Page} {job : Job} {turn : Turn} (h : job.Resumed W page turn) :
    page.Grows turn.page := by
  cases h with
  | follows h => exact h.page.grows
  | publishes opening keys vault hjob hvault h => exact (page.grows_publish vault keys).trans h.page.grows
  | posts w body hjob h => exact fun i o ho => h.page.grows i o ho

/-- **A step keeps the objects**, with the keys of their unlocking. -/
lemma Page.Stepped.grows {page page' : Page} {disk : Disk} {event : Event}
    (h : page.Stepped W disk event page') : page.Grows page' := by
  cases h with
  | follows h => exact h.grows
  | starts base job h hjob hpage => exact hpage ▸ fun i o ho => h.grows i o ho
  | resumes place nonce reply job hevent hjob hpage =>
      intro i o ho
      rw [hpage, Page.settle_objects]
      exact (job.resume_resumed W page disk nonce reply).grows W i o ho

end PasswordVault.Browser
