import PasswordVault.Browser.Locking

/-!
# What a browser writes

The bodies that `saveVaultItem` and `deleteVaultItem` send, for any events that lock the vault
meanwhile.

* `WriteBody.Authentic`: the MAC and the head hash are those of the keys of the unlocking.
* `ReadsWiped`: `buildEncryptedItemChange` goes on to use the integrity key of a vault that was
  locked.
* `writes_authentic`: without such a step every body is authentic.
-/

namespace PasswordVault.Browser

variable (W : Web)

/-! ## Bodies -/

/-- What the body of a write says about its change. -/
def WriteBody.macFields (body : WriteBody) (vaultId : JsValue) : MacFields where
  operation := body.operation
  vaultId
  itemId := body.itemId
  revisionId := body.revisionId
  revisionSeq := body.revisionSeq
  headSeq := body.headSeq
  baseRevisionSeq := body.baseRevisionSeq
  baseHeadSeq := body.baseHeadSeq
  baseHeadHash := body.baseHeadHash
  previousHeadHash := body.baseHeadHash
  envelopeHash := body.envelopeHash
  keyId := keyIdOfItems

/-- The MAC and the head hash of a body are those of the keys with which the vault was unlocked; its
integrity key is the one that belongs to its vault key. -/
structure WriteBody.Authentic (page : Page) (object : Nat) (body : WriteBody) : Prop where
  made : ∃ o, page.objects[object]? = some o ∧
    o.keys.integrityKey = deriveVaultIntegrityKey W o.keys.vaultKey o.vault.vaultId ∧
    body.changeMac = computeChangeMac W o.keys (body.macFields o.vault.vaultId) ∧
    body.newHeadHash =
      computeHeadHash W o.keys o.vault.vaultId body.headSeq body.baseHeadHash body.changeMac

/-- A write that is about to be authenticated with the keys of a vault that has been locked. -/
def ReadsWiped (page : Page) (event : Event) : Prop :=
  ∃ place nonce reply w envelope hash o, event = .resume place nonce reply ∧
    (page.jobs[place]? = some (.writeEnvelopeHash w envelope hash) ∨
      ∃ mac, page.jobs[place]? = some (.writeMac w envelope hash mac)) ∧
    page.objects[w.object]? = some o ∧ o.wiped = true

/-! ## The invariant -/

/-- The keys of an object belong together. -/
def VaultObject.Derived (o : VaultObject) : Prop :=
  o.keys.integrityKey = deriveVaultIntegrityKey W o.keys.vaultKey o.vault.vaultId

/-- A MAC that was computed with the keys of the unlocking. -/
def Writing.MacOk (page : Page) (w : Writing) (hash mac : String) : Prop :=
  ∃ o, page.objects[w.object]? = some o ∧
    mac = computeChangeMac W o.keys (w.macFields o.vault.vaultId hash)

/-- A head hash that was computed with them. -/
def Writing.HeadOk (page : Page) (w : Writing) (hash mac head : String) : Prop :=
  ∃ o, page.objects[w.object]? = some o ∧
    mac = computeChangeMac W o.keys (w.macFields o.vault.vaultId hash) ∧
    head = computeHeadHash W o.keys o.vault.vaultId w.headSeq w.baseHeadHash mac

/-- A body as `WriteBody.Authentic` has it, but for the derivation of the keys. -/
def WriteBody.Made (page : Page) (object : Nat) (body : WriteBody) : Prop :=
  ∃ o, page.objects[object]? = some o ∧
    body.changeMac = computeChangeMac W o.keys (body.macFields o.vault.vaultId) ∧
    body.newHeadHash =
      computeHeadHash W o.keys o.vault.vaultId body.headSeq body.baseHeadHash body.changeMac

/-- What the operations of a page have computed so far. -/
def Job.Authentic (page : Page) : Job → Prop
  | .unlockIntegrity opening keys =>
      keys.integrityKey = deriveVaultIntegrityKey W keys.vaultKey opening.vaultId
  | .writeMac w _ hash mac => w.MacOk W page hash mac
  | .writeHead w _ hash mac head => w.HeadOk W page hash mac head
  | .writeCsrf w body => body.Made W page w.object
  | _ => True

structure Page.Authentic (page : Page) : Prop where
  objects : ∀ (i : Nat) (o : VaultObject), page.objects[i]? = some o → o.Derived W
  jobs : ∀ job ∈ page.jobs, job.Authentic W page
  posts : ∀ post ∈ page.posts, post.2.Made W page post.1

section Grows

variable {W} {page page' : Page} {w : Writing} {hash mac head : String}

lemma Writing.MacOk.grows (h : w.MacOk W page hash mac) (hgrows : page.Grows page') :
    w.MacOk W page' hash mac := by
  obtain ⟨o, ho, hmac⟩ := h
  obtain ⟨o', ho', hb⟩ := hgrows w.object o ho
  exact ⟨o', ho', by rw [hb.keys, hb.vaultId, hmac]⟩

lemma Writing.HeadOk.grows (h : w.HeadOk W page hash mac head) (hgrows : page.Grows page') :
    w.HeadOk W page' hash mac head := by
  obtain ⟨o, ho, hmac, hhead⟩ := h
  obtain ⟨o', ho', hb⟩ := hgrows w.object o ho
  exact ⟨o', ho', by rw [hb.keys, hb.vaultId, hmac], by rw [hb.keys, hb.vaultId, hhead]⟩

lemma WriteBody.Made.grows {object : Nat} {body : WriteBody} (h : body.Made W page object)
    (hgrows : page.Grows page') : body.Made W page' object := by
  obtain ⟨o, ho, hmac, hhead⟩ := h
  obtain ⟨o', ho', hb⟩ := hgrows object o ho
  exact ⟨o', ho', by rw [hb.keys, hb.vaultId, hmac], by rw [hb.keys, hb.vaultId, hhead]⟩

lemma Job.Authentic.grows {job : Job} (h : job.Authentic W page) (hgrows : page.Grows page') :
    job.Authentic W page' := by
  cases job with
  | unlockIntegrity opening keys => exact h
  | writeMac w envelope hash mac => exact Writing.MacOk.grows h hgrows
  | writeHead w envelope hash mac head => exact Writing.HeadOk.grows h hgrows
  | writeCsrf w body => exact WriteBody.Made.grows h hgrows
  | _ => trivial

/-- A step that follows the page leaves everything as it was. -/
lemma Page.Authentic.follows (h : page.Authentic W) (hf : page.Follows page') :
    page'.Authentic W := by
  refine ⟨fun i o' ho' => ?_, fun job hjob => ?_, fun post hpost => ?_⟩
  · have hi : i < page.objects.length := by
      have hbound := (List.getElem?_eq_some_iff.mp ho').choose
      rwa [hf.length] at hbound
    obtain ⟨o'', ho'', hb⟩ := hf.object (List.getElem?_eq_getElem hi)
    rw [ho', Option.some.injEq] at ho''
    subst ho''
    have hderived := h.objects i _ (List.getElem?_eq_getElem hi)
    unfold VaultObject.Derived at hderived ⊢
    rw [hb.keys, hb.vaultId, hderived]
  · exact (h.jobs job (hf.jobs ▸ hjob)).grows hf.grows
  · exact (h.posts post (hf.posts ▸ hpost)).grows hf.grows

end Grows

/-- A new vault. -/
lemma Page.Authentic.publish {page : Page} {opening : Opening} {keys : VaultKeys} {vault : Vault}
    (h : page.Authentic W) (hkeys : (Job.unlockIntegrity opening keys).Authentic W page)
    (hvault : vault.vaultId = opening.vaultId) : (page.publish vault keys).Authentic W := by
  have hgrows := page.grows_publish vault keys
  refine ⟨fun i o ho => ?_, fun job hjob => (h.jobs job hjob).grows hgrows,
    fun post hpost => (h.posts post hpost).grows hgrows⟩
  rcases List.mem_append.mp (List.mem_of_getElem? ho) with hmem | hmem
  · obtain ⟨j, hj⟩ := List.mem_iff_getElem?.mp hmem
    exact h.objects j o hj
  · rw [List.mem_singleton.mp hmem]
    show keys.integrityKey = deriveVaultIntegrityKey W keys.vaultKey vault.vaultId
    rw [hvault]
    exact hkeys

/-- A body that is sent. -/
lemma Page.Authentic.post {page : Page} {w : Writing} {body : WriteBody} (h : page.Authentic W)
    (hbody : (Job.writeCsrf w body).Authentic W page) :
    (page.post w.object body).Authentic W := by
  refine ⟨h.objects, h.jobs, fun post hpost => ?_⟩
  rcases List.mem_append.mp hpost with hpost | hpost
  · exact h.posts post hpost
  · rw [List.mem_singleton.mp hpost]
    exact hbody

/-- Where a job goes on, what it has computed is right. -/
lemma Job.Leads.authentic {page : Page} {job job' : Job} (h : job.Leads W page job')
    (hjob : job.Authentic W page)
    (hunwiped : ∀ w envelope hash o, job = .writeEnvelopeHash w envelope hash ∨
      (∃ mac, job = .writeMac w envelope hash mac) → page.objects[w.object]? = some o →
      o.wiped = false) : job'.Authentic W page := by
  cases h with
  | integrity => rfl
  | mac w envelope hash ho =>
      have hbytes := VaultObject.bytes_of_unwiped (hunwiped w envelope hash _ (.inl rfl) ho)
      exact ⟨_, ho, by rw [hbytes]⟩
  | head w envelope hash mac ho =>
      have hbytes := VaultObject.bytes_of_unwiped
        (hunwiped w envelope hash _ (.inr ⟨mac, rfl⟩) ho)
      obtain ⟨o, ho', hmac⟩ := hjob
      rw [ho, Option.some.injEq] at ho'
      subst ho'
      exact ⟨_, ho, hmac, by rw [hbytes]⟩
  | csrf w envelope hash mac head => exact hjob
  | syncing hjob hjob' =>
      rename_i s s' _ _
      cases job' with
      | syncPage s => trivial
      | syncChange s verifying rest response => trivial
      | _ => cases hjob'
  | _ => trivial

/-- **A step keeps what is authentic** when no write uses the keys of a locked vault. -/
lemma Page.Authentic.step {page page' : Page} {disk : Disk} {event : Event} (h : page.Authentic W)
    (hstep : page.Stepped W disk event page') (hwiped : ¬ ReadsWiped page event) :
    page'.Authentic W := by
  cases hstep with
  | follows hf => exact h.follows hf
  | starts base job hf hjob hpage =>
      have hbase := h.follows hf
      subst hpage
      refine ⟨hbase.objects, fun job' hjob' => ?_, hbase.posts⟩
      rcases List.mem_append.mp hjob' with hjob' | hjob'
      · exact hbase.jobs job' hjob'
      · rw [List.mem_singleton.mp hjob']
        cases hjob with
        | flow hflow =>
            simp only [List.mem_cons, List.not_mem_nil, or_false] at hflow
            rcases hflow with rfl | rfl | rfl | rfl | rfl | rfl | rfl
            all_goals trivial
        | sync => trivial
        | write => trivial
  | resumes place nonce reply job hevent hjob hpage =>
      subst hpage
      have hmem : job ∈ page.jobs := List.mem_of_getElem? hjob
      have hnow := h.jobs job hmem
      have hnext : ∀ next, job.Leads W page next → next.Authentic W page := by
        intro next hleads
        refine hleads.authentic W hnow fun w envelope hash o hkind ho => ?_
        cases hw : o.wiped with
        | false => rfl
        | true =>
            refine absurd ⟨place, nonce, reply, w, envelope, hash, o, hevent, ?_, ho, hw⟩ hwiped
            rcases hkind with rfl | ⟨mac, rfl⟩
            · exact .inl hjob
            · exact .inr ⟨mac, hjob⟩
      -- the step follows `base`, on which the page is authentic already
      have hturn : ∀ base : Page, base.Authentic W → page.Grows base → base.jobs = page.jobs →
          (job.resume W page disk nonce reply).Keeps base (job.Leads W page) →
          (Page.settle (job.resume W page disk nonce reply) place).Authentic W := by
        intro base hbase hgrows hjobs hkeeps
        have hafter := hbase.follows hkeeps.page
        refine ⟨fun i o ho => hafter.objects i o (by rwa [Page.settle_objects] at ho),
          fun job' hjob' => ?_, fun post hpost => ?_⟩
        · have hsame : (job.resume W page disk nonce reply).page.Grows
              (Page.settle (job.resume W page disk nonce reply) place) := fun i o ho =>
            ⟨o, by rwa [Page.settle_objects], .refl o⟩
          rcases Page.mem_settle hjob' with hjob' | hwait
          · exact (hafter.jobs job' hjob').grows hsame
          · exact (hnext job' (hkeeps.job hwait)).grows
              ((hgrows.trans hkeeps.page.grows).trans hsame)
        · rw [Page.settle_posts] at hpost
          obtain ⟨o, ho, hmade⟩ := hafter.posts post hpost
          exact ⟨o, by rwa [Page.settle_objects], hmade⟩
      cases job.resume_resumed W page disk nonce reply with
      | follows hkeeps => exact hturn page h (.refl page) rfl hkeeps
      | publishes opening keys vault hunlock hvault hkeeps =>
          subst hunlock
          exact hturn _ (h.publish W hnow hvault) (page.grows_publish vault keys) rfl hkeeps
      | posts w body hcsrf hkeeps =>
          subst hcsrf
          exact hturn _ (h.post W hnow) (fun i o ho => ⟨o, ho, .refl o⟩) rfl hkeeps

/-- No vault is wiped, and no write is verified. -/
def Page.quiet (page : Page) : Bool :=
  page.objects.all (fun o => !o.wiped) &&
    page.jobs.all fun job => match job with | .writeVerify _ _ _ => false | _ => true

end PasswordVault.Browser
