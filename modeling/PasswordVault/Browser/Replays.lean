import PasswordVault.Browser.Writes

/-!
# Replays

What an unlocked vault of the page is, whatever the server answers and however the events of the
user and the answers are interleaved.

* `Change.Authentic`: what a verified change has shown under the keys of a vault;
  `Change.Extends`: it is based on the head of the vault.
* `Vault.Replayed`: a vault after a history of such changes.
* `Verifying.Sound`: what a verification has compared so far; `Verifying.next_sound`.
* `vault_replayed`: an unlocked vault is the replay of a history from the head of its unlocking, and
  has passed its stored checkpoint once it says so.
-/

namespace PasswordVault.Browser

variable (W : Web)

/-! ## Verified changes -/

/-- A change is based on the head of a vault. -/
structure Change.Extends (change : Change) (vault : Vault) : Prop where
  baseHeadSeq : JsNumber.same change.baseHeadSeq vault.headSeq = true
  baseHeadHash : change.baseHeadHash = vault.headHash
  previousHeadHash : change.previousHeadHash = vault.headHash

/-- The envelope is the one that is hashed. -/
def Change.EnvelopeOk (change : Change) : Prop :=
  change.envelopeHash = some (.str (Browser.envelopeHash W change.envelope))

/-- The MAC that belongs to a change. -/
def Change.mac (keys : VaultKeys) (vaultId : JsValue) (change : Change) : String :=
  computeChangeMac W keys (change.macFields vaultId (Browser.envelopeHash W change.envelope))

/-- The head hash that belongs to it. -/
def Change.head (keys : VaultKeys) (vaultId : JsValue) (change : Change) : String :=
  computeHeadHash W keys vaultId change.headSeq change.previousHeadHash (change.mac W keys vaultId)

/-- The content that its envelope holds. -/
def Change.content (keys : VaultKeys) (vaultId : JsValue) (change : Change) : Except JsError Json :=
  aesGcmDecrypt W (deriveItemRevisionKey W keys vaultId change.itemId change.revisionId)
    change.envelope (some (itemAad vaultId change.itemId change.revisionId change.operation
      change.baseRevisionSeq change.baseHeadSeq change.keyId))

/-- A change that the keys of a vault authenticate, with its content. -/
structure Change.Authentic (keys : VaultKeys) (vaultId : JsValue) (change : Change)
    (plaintext : Json) : Prop where
  envelope : change.EnvelopeOk W
  mac : change.changeMac = some (.str (change.mac W keys vaultId))
  head : change.headHash = some (.str (change.head W keys vaultId))
  content : change.content W keys vaultId = .ok plaintext

/-- What a verification has compared so far, and the result it waits for. -/
def Verifying.Sound (keys : VaultKeys) (vaultId : JsValue) : Verifying → Prop
  | .envelopeHash change actual => actual = Browser.envelopeHash W change.envelope
  | .changeMac change expected => change.EnvelopeOk W ∧ expected = change.mac W keys vaultId
  | .headHash change expected =>
      (change.EnvelopeOk W ∧ change.changeMac = some (.str (change.mac W keys vaultId))) ∧
        expected = change.head W keys vaultId
  | .contentKey change head key =>
      (change.EnvelopeOk W ∧ change.changeMac = some (.str (change.mac W keys vaultId)) ∧
        change.headHash = some (.str (change.head W keys vaultId)) ∧
          head = change.head W keys vaultId) ∧
        key = deriveItemRevisionKey W keys vaultId change.itemId change.revisionId
  | .plaintext change head result =>
      (change.EnvelopeOk W ∧ change.changeMac = some (.str (change.mac W keys vaultId)) ∧
        change.headHash = some (.str (change.head W keys vaultId)) ∧
          head = change.head W keys vaultId) ∧
        result = change.content W keys vaultId

/-- The change that is verified. -/
def Verifying.change : Verifying → Change
  | .envelopeHash change _ => change
  | .changeMac change _ => change
  | .headHash change _ => change
  | .contentKey change _ _ => change
  | .plaintext change _ _ => change

lemma strictEq_str {s : String} {value : JsValue} :
    strictEq (some (.str s)) value = true ↔ value = some (.str s) := by
  constructor
  · intro h
    cases value with
    | none => cases h
    | some v =>
        cases v with
        | str t =>
            have hst : s = t := by simpa [strictEq] using h
            rw [hst]
        | _ => simp [strictEq] at h
  · rintro rfl
    simp [strictEq]

/-- What is verified extends the vault. -/
lemma Verifying.start_sound {vault : Vault} {value : JsValue} {verifying : Verifying}
    (h : Verifying.start W vault value = .ok verifying) (keys : VaultKeys) :
    verifying.Sound W keys vault.vaultId ∧ verifying.change.Extends vault := by
  unfold Verifying.start at h
  obtain ⟨change, -, h⟩ := bind_ok.mp h
  split at h
  · cases h
  · rename_i hextends
    split at h
    · cases h
    · obtain rfl := Except.ok.inj h
      rw [Bool.not_eq_true', Bool.not_eq_false, Bool.and_eq_true, Bool.and_eq_true, beq_iff_eq,
        beq_iff_eq] at hextends
      exact ⟨rfl, hextends.1.1, hextends.1.2, hextends.2⟩

/-- What comes of a step of the verification of a change. -/
def Verified.Sound (keys : VaultKeys) (vaultId : JsValue) (change : Change) : Verified → Prop
  | .more verifying => verifying.Sound W keys vaultId ∧ verifying.change = change
  | .done verified head content => verified = change ∧ head = change.head W keys vaultId ∧
      change.Authentic W keys vaultId content

/-- **A step of a verification** compares one more thing. -/
lemma Verifying.next_sound {keys : VaultKeys} {vaultId : JsValue} {verifying : Verifying}
    (h : verifying.Sound W keys vaultId) {verified : Verified}
    (hnext : verifying.next W vaultId keys = .ok verified) :
    verified.Sound W keys vaultId verifying.change := by
  cases verifying with
  | envelopeHash change actual =>
      simp only [Verifying.next] at hnext
      split at hnext
      · cases hnext
      · rename_i heq
        obtain rfl := Except.ok.inj hnext
        obtain rfl : actual = Browser.envelopeHash W change.envelope := h
        rw [Bool.not_eq_true', Bool.not_eq_false, strictEq_str] at heq
        exact ⟨⟨heq, rfl⟩, rfl⟩
  | changeMac change expected =>
      obtain ⟨henvelope, rfl⟩ := h
      simp only [Verifying.next] at hnext
      split at hnext
      · cases hnext
      · rename_i heq
        obtain rfl := Except.ok.inj hnext
        rw [Bool.not_eq_true', Bool.not_eq_false, strictEq_str] at heq
        exact ⟨⟨⟨henvelope, heq⟩, rfl⟩, rfl⟩
  | headHash change expected =>
      obtain ⟨⟨henvelope, hmac⟩, rfl⟩ := h
      simp only [Verifying.next] at hnext
      split at hnext
      · cases hnext
      · rename_i heq
        obtain rfl := Except.ok.inj hnext
        rw [Bool.not_eq_true', Bool.not_eq_false, strictEq_str] at heq
        exact ⟨⟨⟨henvelope, hmac, heq, rfl⟩, rfl⟩, rfl⟩
  | contentKey change head key =>
      obtain ⟨hheads, rfl⟩ := h
      obtain rfl := Except.ok.inj hnext
      exact ⟨⟨hheads, rfl⟩, rfl⟩
  | plaintext change head result =>
      obtain ⟨⟨henvelope, hmac, hhead, rfl⟩, rfl⟩ := h
      obtain ⟨plaintext, hcontent, hdone⟩ := bind_ok.mp hnext
      obtain rfl := Except.ok.inj hdone
      exact ⟨rfl, rfl, henvelope, hmac, hhead, hcontent⟩

/-- The change stays the same, with any keys. -/
lemma Verifying.next_change {keys : VaultKeys} {vaultId : JsValue}
    {verifying verifying' : Verifying}
    (hnext : verifying.next W vaultId keys = .ok (.more verifying')) :
    verifying'.change = verifying.change := by
  cases verifying with
  | envelopeHash change actual =>
      simp only [Verifying.next] at hnext
      split at hnext
      · cases hnext
      · cases hnext
        rfl
  | changeMac change expected =>
      simp only [Verifying.next] at hnext
      split at hnext
      · cases hnext
      · cases hnext
        rfl
  | headHash change expected =>
      simp only [Verifying.next] at hnext
      split at hnext
      · cases hnext
      · cases hnext
        rfl
  | contentKey change head key =>
      cases hnext
      rfl
  | plaintext change head result =>
      obtain ⟨plaintext, -, hdone⟩ := bind_ok.mp hnext
      cases hdone

/-- A verification ends with the content. -/
lemma Verifying.of_done {keys : VaultKeys} {vaultId : JsValue} {verifying : Verifying}
    {change : Change} {head : String} {plaintext : Json}
    (hnext : verifying.next W vaultId keys = .ok (.done change head plaintext)) :
    ∃ head content, verifying = .plaintext verifying.change head content := by
  cases verifying with
  | envelopeHash change actual =>
      simp only [Verifying.next] at hnext
      split at hnext
      · cases hnext
      · cases hnext
  | changeMac change expected =>
      simp only [Verifying.next] at hnext
      split at hnext
      · cases hnext
      · cases hnext
  | headHash change expected =>
      simp only [Verifying.next] at hnext
      split at hnext
      · cases hnext
      · cases hnext
  | contentKey change head key => cases hnext
  | plaintext change head result => exact ⟨head, result, rfl⟩

/-! ## Histories -/

/-- A vault after a history of changes, each of which extends it. -/
inductive Vault.Replayed (keys : VaultKeys) (first : Vault) :
    List (Change × Json) → Vault → Prop where
  | start : Replayed keys first [] first
  | change {history : List (Change × Json)} {vault vault' : Vault} {change : Change}
      {plaintext : Json} (h : Replayed keys first history vault) (hextends : change.Extends vault)
      (hauthentic : change.Authentic W keys vault.vaultId plaintext)
      (hreplay : replayChange W vault change (change.head W keys vault.vaultId) plaintext =
        .ok vault') : Replayed keys first (history ++ [(change, plaintext)]) vault'

/-- What no replay changes. -/
structure Vault.SameBase (a b : Vault) : Prop where
  vaultId : a.vaultId = b.vaultId
  keyId : a.keyId = b.keyId
  serverHeadSeq : a.serverHeadSeq = b.serverHeadSeq
  serverHeadHash : a.serverHeadHash = b.serverHeadHash
  storedCheckpoint : a.storedCheckpoint = b.storedCheckpoint

/-- The vault with a change, before the stored checkpoint is compared. -/
def Vault.with (vault : Vault) (change : Change) (headHash : String) (plaintext : Json) : Vault :=
  { vault with
    items :=
      if change.operation == "delete" then deleteItem vault.items change.itemId
      else setItem vault.items change.itemId
        ⟨change.itemId, change.revisionId, change.revisionSeq, change.headSeq, plaintext⟩
    headSeq := change.headSeq
    headHash }

/-- `markCheckpointProgress` marks a vault, when its head is the checkpoint, or leaves it. -/
lemma markCheckpointProgress_cases {vault vault' : Vault}
    (h : markCheckpointProgress W vault = .ok vault') :
    vault' = vault ∨ vault' = { vault with storedCheckpointVerified := true } ∧
      ∀ c, vault.storedCheckpoint = some c →
        JsNumber.same vault.headSeq (.int c.headSeq) = true ∧ vault.headHash = c.headHash := by
  unfold markCheckpointProgress at h
  split at h
  · exact .inl (Except.ok.inj h).symm
  · rename_i checkpoint hstored
    split at h
    · exact .inl (Except.ok.inj h).symm
    · split at h
      · exact .inl (Except.ok.inj h).symm
      · split at h
        · rename_i hsame
          refine .inr ⟨(Except.ok.inj h).symm, fun c hc => ?_⟩
          rw [hstored, Option.some.injEq] at hc
          subst hc
          rw [Bool.and_eq_true, beq_iff_eq] at hsame
          exact hsame
        · cases h

/-- The head of a vault is its stored checkpoint, if it has one. -/
def Vault.AtCheckpoint (vault : Vault) : Prop :=
  ∀ c, vault.storedCheckpoint = some c →
    JsNumber.same vault.headSeq (.int c.headSeq) = true ∧ vault.headHash = c.headHash

/-- A vault as it is when it is unlocked. -/
structure Vault.Opened (vault : Vault) : Prop where
  items : vault.items = []
  headSeq : vault.headSeq = .int 0
  checkpoint : vault.storedCheckpointVerified = true → vault.AtCheckpoint

lemma Opening.vault_opened (opening : Opening) : opening.vault.Opened := by
  refine ⟨rfl, rfl, fun hverified c hc => ?_⟩
  have hnone : opening.storedCheckpoint = none := Option.isNone_iff_eq_none.mp hverified
  have hsome : opening.storedCheckpoint = some c := hc
  rw [hnone] at hsome
  cases hsome

lemma Vault.Opened.mark {vault vault' : Vault} (h : vault.Opened)
    (hmark : markCheckpointProgress W vault = .ok vault') : vault'.Opened := by
  rcases markCheckpointProgress_cases W hmark with rfl | ⟨rfl, hreached⟩
  · exact h
  · exact ⟨h.items, h.headSeq, fun _ => hreached⟩

lemma Vault.SameBase.refl (vault : Vault) : vault.SameBase vault := ⟨rfl, rfl, rfl, rfl, rfl⟩

/-- What a replay of a change does to the vault. -/
lemma replayChange_cases {vault vault' : Vault} {change : Change} {head : String} {plaintext : Json}
    (h : replayChange W vault change head plaintext = .ok vault') :
    vault' = vault.with change head plaintext ∨
      vault' = { vault.with change head plaintext with storedCheckpointVerified := true } ∧
        (vault.with change head plaintext).AtCheckpoint :=
  markCheckpointProgress_cases W h

section Histories

variable {W} {keys : VaultKeys} {first vault : Vault} {history : List (Change × Json)}

lemma Vault.Replayed.sameBase (h : Vault.Replayed W keys first history vault) :
    vault.SameBase first := by
  induction h with
  | start => exact .refl first
  | change h hextends hauthentic hreplay ih =>
      rcases replayChange_cases W hreplay with rfl | ⟨rfl, -⟩
      · exact ⟨ih.vaultId, ih.keyId, ih.serverHeadSeq, ih.serverHeadHash, ih.storedCheckpoint⟩
      · exact ⟨ih.vaultId, ih.keyId, ih.serverHeadSeq, ih.serverHeadHash, ih.storedCheckpoint⟩

/-- The items after one more change. -/
def applyEntry (items : List (String × VaultItem)) (entry : Change × Json) :
    List (String × VaultItem) :=
  if entry.1.operation == "delete" then deleteItem items entry.1.itemId
  else setItem items entry.1.itemId
    ⟨entry.1.itemId, entry.1.revisionId, entry.1.revisionSeq, entry.1.headSeq, entry.2⟩

/-- The items are what the history makes of those of the first vault. -/
lemma Vault.Replayed.items (h : Vault.Replayed W keys first history vault) :
    vault.items = history.foldl applyEntry first.items := by
  induction h with
  | start => rfl
  | change h hextends hauthentic hreplay ih =>
      rw [List.foldl_append, ← ih]
      rcases replayChange_cases W hreplay with rfl | ⟨rfl, -⟩
      · rfl
      · rfl

/-- A vault that says so has passed its stored checkpoint. -/
lemma Vault.Replayed.passed (h : Vault.Replayed W keys first history vault) (hfirst : first.Opened)
    (hverified : vault.storedCheckpointVerified = true) :
    ∃ earlier at_checkpoint, earlier <+: history ∧
      Vault.Replayed W keys first earlier at_checkpoint ∧ at_checkpoint.AtCheckpoint := by
  induction h with
  | start => exact ⟨[], first, List.prefix_refl [], .start, hfirst.checkpoint hverified⟩
  | change h hextends hauthentic hreplay ih =>
      rename_i history vault vault' change plaintext
      rcases replayChange_cases W hreplay with rfl | ⟨rfl, hreached⟩
      · obtain ⟨earlier, passed, hprefix, hpassed, hat⟩ := ih hverified
        exact ⟨earlier, passed, hprefix.trans (List.prefix_append _ _), hpassed, hat⟩
      · exact ⟨_, _, List.prefix_refl _, h.change hextends hauthentic hreplay, hreached⟩

end Histories

/-- A commit makes the vault the replay, when both come from one unlocking. -/
lemma commitVaultReplay_eq {target replay : Vault} (h : target.SameBase replay) :
    commitVaultReplay target replay = replay := by
  obtain ⟨hid, hkey, hseq, hhash, hstored⟩ := h
  cases target
  cases replay
  simp only at hid hkey hseq hhash hstored
  subst hid hkey hseq hhash hstored
  rfl

/-! ## What a step does to the objects -/

/-- The objects are those of the page before, with the keys and the ids of their vaults. -/
structure Page.Kin (page page' : Page) : Prop where
  length : page'.objects.length = page.objects.length
  object : ∀ (i : Nat) (o' : VaultObject), page'.objects[i]? = some o' →
    ∃ o, page.objects[i]? = some o ∧ o'.keys = o.keys ∧ o'.vault.vaultId = o.vault.vaultId ∧
      (o'.wiped = false → o.wiped = false)

/-- Their vaults are the same, too. -/
def Page.Steady (page page' : Page) : Prop :=
  ∀ (i : Nat) (o' : VaultObject), page'.objects[i]? = some o' → ∃ o, page.objects[i]? = some o ∧
    o'.keys = o.keys ∧ o'.vault = o.vault ∧ (o'.wiped = false → o.wiped = false)

lemma Page.Follows.kin {page page' : Page} (h : page.Follows page') : page.Kin page' := by
  refine ⟨h.length, fun i o' ho' => ?_⟩
  have hi : i < page.objects.length := by
    have hbound := (List.getElem?_eq_some_iff.mp ho').choose
    rwa [h.length] at hbound
  obtain ⟨o'', ho'', hb⟩ := h.object (List.getElem?_eq_getElem hi)
  rw [ho', Option.some.injEq] at ho''
  subst ho''
  refine ⟨_, List.getElem?_eq_getElem hi, hb.keys, hb.vaultId, fun hw => ?_⟩
  cases hwiped : page.objects[i].wiped with
  | false => rfl
  | true => rw [hb.wiped hwiped] at hw; exact hw

section Steady

variable {page page' page'' : Page}

lemma Page.Kin.of_objects (h : page'.objects = page.objects) : page.Kin page' :=
  ⟨by rw [h], fun _ o' ho' => ⟨o', h ▸ ho', rfl, rfl, id⟩⟩

lemma Page.Steady.of_objects (h : page'.objects = page.objects) : page.Steady page' :=
  fun _ o' ho' => ⟨o', h ▸ ho', rfl, rfl, id⟩

lemma Page.Steady.refl (page : Page) : page.Steady page := .of_objects rfl

lemma Page.Steady.trans (h : page.Steady page') (h' : page'.Steady page'') :
    page.Steady page'' := by
  intro i o'' ho''
  obtain ⟨o', ho', hkeys', hvault', hw'⟩ := h' i o'' ho''
  obtain ⟨o, ho, hkeys, hvault, hw⟩ := h i o' ho'
  exact ⟨o, ho, hkeys'.trans hkeys, hvault'.trans hvault, fun h => hw (hw' h)⟩

lemma Page.steady_clearVaultState (page : Page) : page.Steady page.clearVaultState := by
  cases hv : page.state.vault with
  | none => exact .of_objects (by simp [Page.clearVaultState, hv])
  | some object =>
      have hobjects : page.clearVaultState.objects =
          page.objects.modify object fun o => { o with wiped := true } := by
        simp [Page.clearVaultState, Page.wipeObject, hv]
      intro i o' ho'
      rw [hobjects, List.getElem?_modify] at ho'
      obtain ⟨o, ho, rfl⟩ := Option.map_eq_some_iff.mp ho'
      refine ⟨o, ho, ?_⟩
      split
      · exact ⟨rfl, rfl, fun h => by cases h⟩
      · exact ⟨rfl, rfl, id⟩

lemma Page.steady_lockVault (page : Page) : page.Steady page.lockVault :=
  (Page.Steady.of_objects rfl).trans (Page.steady_clearVaultState page.clearPendingUnlockKey)

lemma Page.steady_failClosedVault (page : Page) (e : JsError) :
    page.Steady (page.failClosedVault e) := by
  unfold Page.failClosedVault
  split
  · exact page.steady_lockVault
  · exact .refl page

lemma Page.steady_writeFailed (page : Page) (storage : LocalStorage) (e : JsError) :
    page.Steady (writeFailed page storage e).page :=
  page.steady_failClosedVault e

lemma Page.steady_failed (page : Page) (s : Syncing) (storage : LocalStorage) (e : JsError) :
    page.Steady (s.failed page storage e).page := by
  have h := page.steady_failClosedVault e
  unfold Syncing.failed
  simp only
  split
  · exact h.trans (Page.steady_lockVault _)
  · exact h.trans (Page.steady_failClosedVault _ e)

lemma Page.steady_attempt {α : Type} {disk : Disk} {x : Except JsError α} {k : α → Turn}
    (h : page.Steady page') (hk : ∀ a, page.Steady (k a).page) :
    page.Steady (Turn.attempt page' disk x k).page := by
  cases x with
  | ok a => exact hk a
  | error e => exact h

end Steady

/-- The jobs that neither sync nor verify a write nor publish a vault. -/
def Job.plain : Job → Bool
  | .unlockIntegrity _ _ => false
  | .syncPage _ => false
  | .syncChange _ _ _ _ => false
  | .writePost _ _ => false
  | .writeVerify _ _ _ => false
  | _ => true

/-- A plain job leaves the vaults alone. -/
lemma Job.resume_steady {page : Page} {disk : Disk} {job : Job} {nonce : Bytes} {reply : Reply}
    (hjob : job.plain = true) : page.Steady (job.resume W page disk nonce reply).page := by
  cases job with
  | registerStart => exact Page.steady_attempt (.refl page) fun _ => .refl page
  | registerDerive =>
      simp only [Job.resume]
      split
      · exact .of_objects rfl
      · exact .refl page
  | registerFinish =>
      exact Page.steady_attempt (.refl page) fun _ =>
        Page.steady_attempt (.of_objects rfl) fun _ => .of_objects rfl
  | enrollCsrf login =>
      refine Page.steady_attempt ?_ fun _ => .of_objects rfl
      split
      · exact .of_objects rfl
      · exact .refl page
  | enrollStart login =>
      refine Page.steady_attempt ?_ fun _ => .of_objects rfl
      split
      · exact .of_objects rfl
      · exact .refl page
  | loginStart => exact Page.steady_attempt (.of_objects rfl) fun _ => .refl page
  | loginDerive =>
      simp only [Job.resume]
      split
      · exact .of_objects rfl
      · exact .of_objects rfl
  | loginFinish =>
      refine Page.steady_attempt (.of_objects rfl) fun a => ?_
      obtain ⟨body, result⟩ := a
      simp only
      split
      · exact .of_objects rfl
      · split
        · exact .refl page
        · exact .of_objects rfl
  | mfaVerify => exact Page.steady_attempt (.refl page) fun _ => .of_objects rfl
  | mfaSession verification =>
      refine Page.steady_attempt (.refl page) fun _ => ?_
      unfold unlockVaultFromPendingKey
      split
      · exact .refl page
      · exact .of_objects rfl
  | recoveryVerify =>
      exact Page.steady_attempt (.refl page) fun _ =>
        Page.steady_attempt (.of_objects rfl) fun _ => .of_objects rfl
  | confirm => exact Page.steady_attempt (.refl page) fun _ => .refl page
  | confirmSession confirmation =>
      simp only [Job.resume]
      unfold unlockVaultFromPendingKey
      split
      · exact .refl page
      · exact .of_objects rfl
  | unlockList unlockKey => exact Page.steady_attempt (.refl page) fun _ => .refl page
  | unlockMetadata opening metadata => exact Page.steady_attempt (.refl page) fun _ => .refl page
  | writeKey w contentKey =>
      simp only [Job.resume]
      split
      · exact page.steady_writeFailed _ _
      · exact .refl page
  | writeEncrypt w envelope => exact .refl page
  | writeEnvelopeHash w envelope hash =>
      simp only [Job.resume]
      split
      · exact page.steady_writeFailed _ _
      · exact .refl page
  | writeMac w envelope hash mac =>
      simp only [Job.resume]
      split
      · exact page.steady_writeFailed _ _
      · exact .refl page
  | writeHead w envelope hash mac head => exact .refl page
  | writeCsrf w body =>
      simp only [Job.resume]
      split
      · exact page.steady_writeFailed _ _
      · exact .of_objects rfl
  | unlockIntegrity => cases hjob
  | syncPage => cases hjob
  | syncChange => cases hjob
  | writePost => cases hjob
  | writeVerify => cases hjob

/-! ## The invariant -/

/-- A replay of what the object at a place was unlocked with, while it is unlocked. -/
structure Page.History (page : Page) (origins : List Vault) (object : Nat) (replay : Vault) :
    Prop where
  bound : object < page.objects.length
  replayed : ∀ o first, page.objects[object]? = some o → origins[object]? = some first →
    o.wiped = false → ∃ history, Vault.Replayed W o.keys first history replay

/-- What the operations of the page have replayed so far. -/
def Job.Sound (page : Page) (origins : List Vault) : Job → Prop
  | .syncPage s => page.History W origins s.object s.replay
  | .syncChange s verifying _ _ => page.History W origins s.object s.replay ∧
      verifying.change.Extends s.replay ∧
      ∀ o, page.objects[s.object]? = some o → o.wiped = false →
        verifying.Sound W o.keys s.replay.vaultId
  | .writeVerify _ object verifying => object < page.objects.length ∧
      ∀ o, page.objects[object]? = some o → o.wiped = false →
        verifying.Sound W o.keys o.vault.vaultId
  | _ => True

/-- `origins` are the vaults of the objects as they were unlocked. -/
structure Page.Sound (page : Page) (origins : List Vault) : Prop where
  length : origins.length = page.objects.length
  opened : ∀ first ∈ origins, first.Opened
  objects : ∀ (i : Nat) (o : VaultObject), page.objects[i]? = some o →
    page.History W origins i o.vault
  jobs : ∀ job ∈ page.jobs, job.Sound W page origins

section Kin

variable {W} {page page' : Page} {origins : List Vault} {replay : Vault} {object : Nat}

lemma Page.History.kin (h : page.History W origins object replay) (hkin : page.Kin page') :
    page'.History W origins object replay := by
  refine ⟨hkin.length ▸ h.bound, fun o' first ho' hfirst hw' => ?_⟩
  obtain ⟨o, ho, hkeys, -, hw⟩ := hkin.object object o' ho'
  obtain ⟨history, hhistory⟩ := h.replayed o first ho hfirst (hw hw')
  exact ⟨history, hkeys ▸ hhistory⟩

lemma Job.Sound.kin {job : Job} (h : job.Sound W page origins) (hkin : page.Kin page') :
    job.Sound W page' origins := by
  cases job with
  | syncPage s => exact Page.History.kin h hkin
  | syncChange s verifying rest response =>
      obtain ⟨hhistory, hextends, hsound⟩ := h
      refine ⟨hhistory.kin hkin, hextends, fun o' ho' hw' => ?_⟩
      obtain ⟨o, ho, hkeys, -, hw⟩ := hkin.object s.object o' ho'
      rw [hkeys]
      exact hsound o ho (hw hw')
  | writeVerify w object verifying =>
      refine ⟨hkin.length ▸ h.1, fun o' ho' hw' => ?_⟩
      obtain ⟨o, ho, hkeys, hid, hw⟩ := hkin.object object o' ho'
      rw [hkeys, hid]
      exact h.2 o ho (hw hw')
  | _ => trivial

/-- Where the vaults stay as they are, they stay replays. -/
lemma Page.Sound.steady (h : page.Sound W origins) (hsteady : page.Steady page')
    (hkin : page.Kin page') (i : Nat) (o' : VaultObject) (ho' : page'.objects[i]? = some o') :
    page'.History W origins i o'.vault := by
  obtain ⟨o, ho, -, hvault, -⟩ := hsteady i o' ho'
  rw [hvault]
  exact (h.objects i o ho).kin hkin

/-- **A commit** of a replay. -/
lemma Page.Sound.commit (h : page.Sound W origins) (hreplay : page.History W origins object replay)
    (i : Nat) (o' : VaultObject) (ho' : (page.commit object replay).objects[i]? = some o') :
    (page.commit object replay).History W origins i o'.vault := by
  have hkin := (page.follows_commit object replay).kin
  obtain ⟨o, ho, -⟩ := hkin.object i o' ho'
  rw [Page.commit, modify_at object _ ho, Option.some.injEq] at ho'
  subst ho'
  split
  · rename_i hi
    subst hi
    refine ⟨hkin.length ▸ hreplay.bound, fun o₂ first ho₂ hfirst hw => ?_⟩
    obtain ⟨o₁, ho₁, hkeys, -, hw'⟩ := hkin.object object o₂ ho₂
    rw [ho, Option.some.injEq] at ho₁
    subst ho₁
    obtain ⟨history, hhistory⟩ := hreplay.replayed o first ho hfirst (hw' hw)
    obtain ⟨history', hhistory'⟩ := (h.objects object o ho).replayed o first ho hfirst (hw' hw)
    have hbase : o.vault.SameBase replay := by
      have hleft := hhistory'.sameBase
      have hright := hhistory.sameBase
      exact ⟨hleft.vaultId.trans hright.vaultId.symm, hleft.keyId.trans hright.keyId.symm,
        hleft.serverHeadSeq.trans hright.serverHeadSeq.symm,
        hleft.serverHeadHash.trans hright.serverHeadHash.symm,
        hleft.storedCheckpoint.trans hright.storedCheckpoint.symm⟩
    rw [commitVaultReplay_eq hbase, hkeys]
    exact ⟨history, hhistory⟩
  · exact (h.objects i o ho).kin hkin

end Kin

/-! ## The steps of a sync -/

/-- What a step of a job leaves: replays, and a job that goes on soundly. -/
structure Turn.Sound (page : Page) (origins : List Vault) (turn : Turn) : Prop where
  objects : ∀ (i : Nat) (o : VaultObject), turn.page.objects[i]? = some o →
    turn.page.History W origins i o.vault
  job : ∀ {job}, turn.progress = .wait job → job.Sound W page origins

section Turns

variable {W} {page : Page} {origins : List Vault} {disk : Disk} {s : Syncing}

lemma Turn.sound_failed (h : page.Sound W origins) {base : Page} (hbase : page.Steady base ∨
    ∃ object replay, base = page.commit object replay ∧ page.History W origins object replay)
    (hfollows : page.Follows base) (storage : LocalStorage) (e : JsError) :
    (s.failed base storage e).Sound W page origins := by
  refine ⟨fun i o' ho' => ?_, fun h => by cases h⟩
  have hsteady := base.steady_failed s storage e
  have hkeeps : (s.failed base storage e).Keeps base fun _ => True := s.failed_keeps (.refl base) e
  obtain ⟨o, ho, -, hvault, -⟩ := hsteady i o' ho'
  rw [hvault]
  rcases hbase with hbase | ⟨object, replay, rfl, hreplay⟩
  · exact (h.steady hbase hfollows.kin i o ho).kin hkeeps.page.kin
  · exact (h.commit hreplay i o ho).kin hkeeps.page.kin

/-- The end of a sync commits the replay, or fails. -/
lemma Syncing.finish_sound (h : page.Sound W origins)
    (hs : page.History W origins s.object s.replay) :
    (s.finish W page disk).Sound W page origins := by
  unfold Syncing.finish
  simp only
  split
  · exact Turn.sound_failed h (.inl (.refl page)) (.refl page) _ _
  · split
    · exact Turn.sound_failed h (.inr ⟨_, _, rfl, hs⟩) (page.follows_commit _ _) _ _
    · exact ⟨h.commit hs, fun h => by cases h⟩

lemma Syncing.endOfPage_sound (h : page.Sound W origins)
    (hs : page.History W origins s.object s.replay) (response : JsValue) :
    (s.endOfPage W page disk response).Sound W page origins := by
  unfold Syncing.endOfPage
  by_cases hmore : truthy (member response "has_more")
  · rw [if_pos hmore]
    refine ⟨h.objects, ?_⟩
    rintro _ ⟨⟩
    exact hs
  rw [if_neg hmore]
  simp only
  split
  · exact Turn.sound_failed h (.inl (.refl page)) (.refl page) _ _
  · split
    · exact Turn.sound_failed h (.inl (.refl page)) (.refl page) _ _
    · exact Syncing.finish_sound h hs

lemma Syncing.nextChange_sound (h : page.Sound W origins)
    (hs : page.History W origins s.object s.replay) (response : JsValue) (changes : List Json) :
    (s.nextChange W page disk response changes).Sound W page origins := by
  cases changes with
  | nil => exact Syncing.endOfPage_sound h hs response
  | cons value rest =>
      simp only [Syncing.nextChange]
      split
      · exact Turn.sound_failed h (.inl (.refl page)) (.refl page) _ _
      · rename_i verifying hstart
        refine ⟨h.objects, ?_⟩
        rintro _ ⟨⟩
        exact ⟨hs, (Verifying.start_sound W hstart ⟨[], []⟩).2, fun o _ _ =>
          (Verifying.start_sound W hstart o.keys).1⟩

/-- A step of the replay of a change. -/
lemma Job.syncChange_sound (h : page.Sound W origins) {verifying : Verifying} {rest : List Json}
    {response : JsValue} (hjob : (Job.syncChange s verifying rest response).Sound W page origins)
    (nonce : Bytes) (reply : Reply) :
    ((Job.syncChange s verifying rest response).resume W page disk nonce reply).Sound W page
      origins := by
  obtain ⟨hs, hextends, hsound⟩ := hjob
  -- the keys of an unlocked vault are those of its unlocking
  have hnext : ∀ {verified}, verifying.next W s.replay.vaultId (page.keysOf s.object) =
      .ok verified → ∀ o, page.objects[s.object]? = some o → o.wiped = false →
      verified.Sound W o.keys s.replay.vaultId verifying.change := by
    intro verified hverified o ho hw
    rw [Page.keysOf_eq ho, VaultObject.bytes_of_unwiped hw] at hverified
    exact Verifying.next_sound W (hsound o ho hw) hverified
  simp only [Job.resume]
  split
  · exact Turn.sound_failed h (.inl (.refl page)) (.refl page) _ _
  · rename_i verifying' hverified
    refine ⟨h.objects, ?_⟩
    rintro _ ⟨⟩
    refine ⟨hs, ?_, fun o ho hw => (hnext hverified o ho hw).1⟩
    rw [Verifying.next_change W hverified]
    exact hextends
  · rename_i change head plaintext hverified
    split
    · exact Turn.sound_failed h (.inl (.refl page)) (.refl page) _ _
    · rename_i replay hreplay
      refine Syncing.nextChange_sound (s := { s with replay }) h
        ⟨hs.bound, fun o first ho hfirst hw => ?_⟩ response rest
      obtain ⟨history, hhistory⟩ := hs.replayed o first ho hfirst hw
      obtain ⟨rfl, rfl, hauthentic⟩ := hnext hverified o ho hw
      exact ⟨_, hhistory.change hextends hauthentic hreplay⟩

end Turns

/-! ## The steps of the page -/

/-- The write of a change is replayed on a vault that has got another head meanwhile. -/
def Overtaken (page : Page) (event : Event) : Prop :=
  ∃ place nonce reply w object change head content vault, event = .resume place nonce reply ∧
    page.jobs[place]? = some (.writeVerify w object (.plaintext change head content)) ∧
    page.vaultOf object = some vault ∧ ¬ change.Extends vault

section Steps

variable {W} {page : Page} {origins : List Vault} {disk : Disk}

lemma Turn.sound_steady (h : page.Sound W origins) {turn : Turn} (hsteady : page.Steady turn.page)
    (hkin : page.Kin turn.page)
    (hjob : ∀ {job}, turn.progress = .wait job → job.Sound W page origins) :
    turn.Sound W page origins :=
  ⟨h.steady hsteady hkin, hjob⟩

/-- The end of a write commits its change, or fails. -/
lemma Writing.finish_sound (h : page.Sound W origins) (w : Writing) {object : Nat} {change : Change}
    {head : String} {plaintext : Json} (hreplay : ∀ vault replay, page.vaultOf object = some vault →
      replayChange W vault change head plaintext = .ok replay →
        page.History W origins object replay) :
    (w.finish W page disk object change head plaintext).Sound W page origins := by
  have hfailed : ∀ storage e, (writeFailed page storage e).Sound W page origins := fun storage e =>
    Turn.sound_steady h (page.steady_writeFailed storage e)
      (page.follows_failClosedVault e).kin fun h => by cases h
  unfold Writing.finish
  split
  · exact hfailed _ _
  · rename_i vault hvault
    split
    · exact hfailed _ _
    · rename_i replay hok
      simp only
      split
      · exact hfailed _ _
      · generalize (if w.operation = "delete" then "" else w.itemId) = selected
        have hcommit := h.commit (hreplay vault replay hvault hok)
        have hselected : ∀ (i : Nat) (o : VaultObject),
            (page.commit object replay).objects[i]? = some o →
            Page.History W { page.commit object replay with
              state := { (page.commit object replay).state with selectedItemId := selected } }
              origins i o.vault := fun i o ho => (hcommit i o ho).kin (.of_objects rfl)
        split
        · -- the items cannot be shown: the vault keeps the change
          refine ⟨fun i o' ho' => ?_, fun h => by cases h⟩
          have hsteady := Page.steady_writeFailed { page.commit object replay with
            state := { (page.commit object replay).state with selectedItemId := selected } }
          obtain ⟨o, ho, -, hvault', -⟩ := hsteady _ _ i o' ho'
          rw [hvault']
          exact (hselected i o ho).kin (Page.follows_failClosedVault _ _).kin
        · exact ⟨hselected, fun h => by cases h⟩

/-- A step of the verification of a write. -/
lemma Job.writeVerify_sound (h : page.Sound W origins) {w : Writing} {object : Nat}
    {verifying : Verifying} (hjob : (Job.writeVerify w object verifying).Sound W page origins)
    (hextends : ∀ change head content vault, verifying = .plaintext change head content →
      page.vaultOf object = some vault → change.Extends vault) (nonce : Bytes) (reply : Reply) :
    ((Job.writeVerify w object verifying).resume W page disk nonce reply).Sound W page origins := by
  simp only [Job.resume]
  split
  · exact Turn.sound_steady h (page.steady_writeFailed _ _) (page.follows_failClosedVault _).kin
      fun h => by cases h
  · rename_i vault hvault
    obtain ⟨o, ho, rfl⟩ := Page.vaultOf_eq_some.mp hvault
    have hnext : ∀ {verified}, verifying.next W o.vault.vaultId (page.keysOf object) =
        .ok verified → o.wiped = false →
        verified.Sound W o.keys o.vault.vaultId verifying.change := by
      intro verified hverified hw
      rw [Page.keysOf_eq ho, VaultObject.bytes_of_unwiped hw] at hverified
      exact Verifying.next_sound W (hjob.2 o ho hw) hverified
    split
    · exact Turn.sound_steady h (page.steady_writeFailed _ _) (page.follows_failClosedVault _).kin
        fun h => by cases h
    · rename_i verifying' hverified
      refine ⟨h.objects, ?_⟩
      rintro _ ⟨⟩
      refine ⟨hjob.1, fun o' ho' hw => ?_⟩
      rw [ho, Option.some.injEq] at ho'
      subst ho'
      exact (hnext hverified hw).1
    · rename_i change head plaintext hverified
      refine w.finish_sound h fun vault replay hvault' hreplay =>
        ⟨hjob.1, fun o' first ho' hfirst hw => ?_⟩
      rw [ho, Option.some.injEq] at ho'
      subst ho'
      rw [hvault, Option.some.injEq] at hvault'
      subst hvault'
      obtain ⟨rfl, rfl, hauthentic⟩ := hnext hverified hw
      obtain ⟨history, hhistory⟩ := (h.objects object o ho).replayed o first ho hfirst hw
      obtain ⟨head, content, hverifying⟩ := Verifying.of_done W hverified
      exact ⟨_, hhistory.change (hextends _ head content _ hverifying hvault) hauthentic hreplay⟩

/-- After the response to a write. -/
lemma Job.writePost_sound (h : page.Sound W origins) (w : Writing) (body : WriteBody)
    (nonce : Bytes) (reply : Reply) :
    ((Job.writePost w body).resume W page disk nonce reply).Sound W page origins := by
  have hfailed : ∀ e, (writeFailed page disk.storage e).Sound W page origins := fun e =>
    Turn.sound_steady h (page.steady_writeFailed _ e) (page.follows_failClosedVault e).kin
      fun h => by cases h
  simp only [Job.resume]
  split
  · exact hfailed _
  · split
    · exact hfailed _
    · split
      · exact hfailed _
      · rename_i object vault hunlocked
        split
        · exact hfailed _
        · rename_i verifying hstart
          refine ⟨h.objects, ?_⟩
          rintro _ ⟨⟩
          obtain ⟨o', ho', rfl⟩ := Page.vaultOf_eq_some.mp (Page.unlocked_eq_some.mp hunlocked).2
          refine ⟨(List.getElem?_eq_some_iff.mp ho').choose, fun o ho hw => ?_⟩
          rw [ho, Option.some.injEq] at ho'
          subst ho'
          exact (Verifying.start_sound W hstart o.keys).1

/-- A plain job goes on to a plain one, or to the unlocking. -/
lemma Job.plain_sound {page' : Page} {job next : Job} (hjob : job.plain = true)
    (hleads : job.Leads W page' next) : next.Sound W page origins := by
  cases hleads with
  | sync => cases hjob
  | syncing h =>
      cases job with
      | syncPage => cases hjob
      | syncChange => cases hjob
      | _ => cases h
  | verify => cases hjob
  | verifying => cases hjob
  | _ => trivial

end Steps

section Page

variable {W} {page : Page} {origins : List Vault} {disk : Disk}

/-- A page and what a job of it leads to, settled. -/
lemma Page.Sound.settle {base : Page} {turn : Turn} {place : Nat} {origins' : List Vault}
    (h : base.Sound W origins') (hturn : turn.Sound W base origins')
    (hfollows : base.Follows turn.page) :
    (Page.settle turn place).Sound W origins' := by
  have hsettle : turn.page.Kin (Page.settle turn place) :=
    ⟨by rw [Page.settle_objects], fun i o ho =>
      ⟨o, by rwa [Page.settle_objects] at ho, rfl, rfl, id⟩⟩
  refine ⟨by rw [Page.settle_objects, hfollows.length, h.length], h.opened, fun i o ho => ?_,
    fun job hjob => ?_⟩
  · rw [Page.settle_objects] at ho
    exact (hturn.objects i o ho).kin hsettle
  · rcases Page.mem_settle hjob with hjob | hwait
    · rw [hfollows.jobs] at hjob
      exact ((h.jobs job hjob).kin hfollows.kin).kin hsettle
    · exact ((hturn.job hwait).kin hfollows.kin).kin hsettle

/-- A page that follows without a change of the vaults. -/
lemma Page.Sound.of_steady {base : Page} (h : page.Sound W origins) (hsteady : page.Steady base)
    (hfollows : page.Follows base) : base.Sound W origins :=
  ⟨by rw [hfollows.length, h.length], h.opened, h.steady hsteady hfollows.kin,
    fun job hjob => (h.jobs job (hfollows.jobs ▸ hjob)).kin hfollows.kin⟩

/-- **A new vault** is the replay of nothing. -/
lemma Page.Sound.publish (h : page.Sound W origins) {vault : Vault} (hvault : vault.Opened)
    (keys : VaultKeys) : (page.publish vault keys).Sound W (origins ++ [vault]) := by
  have hlength : (page.publish vault keys).objects.length = page.objects.length + 1 := by
    simp [Page.publish]
  -- an object that was there is as it was
  have hobject : ∀ {i : Nat}, i < page.objects.length →
      (page.publish vault keys).objects[i]? = page.objects[i]? :=
    fun hi => List.getElem?_append_left hi
  have hold : ∀ {object : Nat} {replay : Vault}, page.History W origins object replay →
      (page.publish vault keys).History W (origins ++ [vault]) object replay := by
    intro object replay hhistory
    refine ⟨by rw [hlength]; exact Nat.lt_succ_of_lt hhistory.bound, fun o first ho hfirst hw => ?_⟩
    rw [hobject hhistory.bound] at ho
    rw [List.getElem?_append_left (h.length ▸ hhistory.bound)] at hfirst
    exact hhistory.replayed o first ho hfirst hw
  refine ⟨by rw [hlength, List.length_append, h.length]; rfl, fun first hfirst => ?_,
    fun i o ho => ?_, fun job hjob => ?_⟩
  · rcases List.mem_append.mp hfirst with hfirst | hfirst
    · exact h.opened first hfirst
    · rw [List.mem_singleton.mp hfirst]
      exact hvault
  · by_cases hi : i < page.objects.length
    · exact hold (h.objects i o (hobject hi ▸ ho))
    · refine ⟨(List.getElem?_eq_some_iff.mp ho).choose, fun o' first ho' hfirst _ => ?_⟩
      have hge : page.objects.length ≤ i := Nat.le_of_not_lt hi
      rw [ho, Option.some.injEq] at ho'
      subst ho'
      rw [Page.publish, List.getElem?_append_right hge] at ho
      rw [List.getElem?_append_right (h.length ▸ hge)] at hfirst
      rw [List.mem_singleton.mp (List.mem_of_getElem? ho),
        List.mem_singleton.mp (List.mem_of_getElem? hfirst)]
      exact ⟨[], .start⟩
  · have hsound := h.jobs job hjob
    cases job with
    | syncPage s => exact hold hsound
    | syncChange s verifying rest response =>
        refine ⟨hold hsound.1, hsound.2.1, fun o ho hw => ?_⟩
        rw [hobject hsound.1.bound] at ho
        exact hsound.2.2 o ho hw
    | writeVerify w object verifying =>
        refine ⟨by rw [hlength]; exact Nat.lt_succ_of_lt hsound.1, fun o ho hw => ?_⟩
        rw [hobject hsound.1] at ho
        exact hsound.2 o ho hw
    | _ => trivial

/-- The first step of a sync. -/
lemma startSync_sound (h : page.Sound W origins) (disk : Disk) (unlocking : Bool) :
    (startSync page disk unlocking).Sound W page origins ∧
      page.Follows (startSync page disk unlocking).page := by
  unfold startSync
  split
  · exact ⟨⟨h.objects, fun h => by cases h⟩, .refl page⟩
  · rename_i object vault hunlocked
    refine ⟨⟨h.objects, ?_⟩, .refl page⟩
    rintro _ ⟨⟩
    obtain ⟨o, ho, rfl⟩ := Page.vaultOf_eq_some.mp (Page.unlocked_eq_some.mp hunlocked).2
    exact h.objects object o ho

/-- A job that neither publishes nor posts. -/
lemma Job.Resumed.keeps {job : Job} {turn : Turn} (h : job.Resumed W page turn)
    (hpublish : ∀ opening keys, job ≠ .unlockIntegrity opening keys)
    (hpost : ∀ w body, job ≠ .writeCsrf w body) : page.Follows turn.page := by
  cases h with
  | follows h => exact h.page
  | publishes opening keys vault hjob => exact absurd hjob (hpublish opening keys)
  | posts w body hjob => exact absurd hjob (hpost w body)

/-- The step of a job. -/
lemma Job.resume_sound (h : page.Sound W origins) {job : Job} {place : Nat} {nonce : Bytes}
    {reply : Reply} (hjob : page.jobs[place]? = some job)
    (hovertaken : ¬ Overtaken page (.resume place nonce reply)) :
    ∃ origins', (Page.settle (job.resume W page disk nonce reply) place).Sound W origins' := by
  have hnow := h.jobs job (List.mem_of_getElem? hjob)
  have hresumed := job.resume_resumed W page disk nonce reply
  cases hplain : job.plain with
  | true =>
      have hsteady : page.Steady (job.resume W page disk nonce reply).page :=
        Job.resume_steady W hplain
      cases hresumed with
      | follows hkeeps =>
          exact ⟨origins, h.settle (Turn.sound_steady h hsteady hkeeps.page.kin fun hwait =>
            Job.plain_sound hplain (hkeeps.job hwait)) hkeeps.page⟩
      | publishes opening keys vault hunlock => rw [hunlock] at hplain; cases hplain
      | posts w body hcsrf hkeeps =>
          subst hcsrf
          have hpost : (page.post w.object body).Sound W origins :=
            ⟨h.length, h.opened, fun i o ho => (h.objects i o ho).kin (.of_objects rfl),
              fun job hmem => (h.jobs job hmem).kin (.of_objects rfl)⟩
          have hsteady' : (page.post w.object body).Steady
              ((Job.writeCsrf w body).resume W page disk nonce reply).page := hsteady
          have hturn := Turn.sound_steady hpost hsteady' hkeeps.page.kin fun hwait =>
            Job.plain_sound hplain (hkeeps.job hwait)
          exact ⟨origins, hpost.settle hturn hkeeps.page⟩
  | false =>
      cases job with
      | unlockIntegrity opening keys =>
          simp only [Job.resume]
          split
          · have hpublish := h.publish opening.vault_opened keys
            exact ⟨_, hpublish.settle ⟨hpublish.objects, fun h => by cases h⟩ (.refl _)⟩
          · rename_i vault hmark
            have hpublish : (page.publish vault keys).clearPendingUnlockKey.Sound W _ :=
              (h.publish (opening.vault_opened.mark W hmark) keys).of_steady (.of_objects rfl)
                (Page.follows_clearPendingUnlockKey _)
            have hsync := startSync_sound hpublish disk true
            exact ⟨_, hpublish.settle hsync.1 hsync.2⟩
      | syncPage s =>
          have hfollows := hresumed.keeps (fun _ _ hjob => by cases hjob)
            fun _ _ hjob => by cases hjob
          refine ⟨origins, h.settle ?_ hfollows⟩
          simp only [Job.resume]
          split
          · exact Turn.sound_failed h (.inl (.refl page)) (.refl page) _ _
          · exact Syncing.nextChange_sound h hnow _ _
      | syncChange s verifying rest response =>
          have hfollows := hresumed.keeps (fun _ _ hjob => by cases hjob)
            fun _ _ hjob => by cases hjob
          exact ⟨origins, h.settle (Job.syncChange_sound h hnow nonce reply) hfollows⟩
      | writePost w body =>
          have hfollows := hresumed.keeps (fun _ _ hjob => by cases hjob)
            fun _ _ hjob => by cases hjob
          exact ⟨origins, h.settle (Job.writePost_sound h w body nonce reply) hfollows⟩
      | writeVerify w object verifying =>
          have hfollows := hresumed.keeps (fun _ _ hjob => by cases hjob)
            fun _ _ hjob => by cases hjob
          refine ⟨origins, h.settle (Job.writeVerify_sound h hnow ?_ nonce reply) hfollows⟩
          rintro change head content vault rfl hvault
          by_contra hextends
          exact hovertaken ⟨place, nonce, reply, w, object, change, head, content, vault, rfl, hjob,
            hvault, hextends⟩
      | _ => cases hplain

/-- The events of the user leave the vaults alone. -/
lemma Page.step_steady (page : Page) (disk : Disk) {event : Event}
    (hevent : ∀ place nonce reply, event ≠ .resume place nonce reply) :
    page.Steady (page.step W disk event).1 := by
  have hreset : page.Steady page.resetFlow.clearVaultState :=
    (page.steady_lockVault.trans (.of_objects rfl)).trans (Page.steady_clearVaultState _)
  cases event with
  | lock => exact page.steady_lockVault
  | setMode => exact hreset
  | submitRegistration valid => cases valid <;> exact hreset
  | submitLogin valid => cases valid <;> exact hreset
  | continueEnrollment secretSaved =>
      simp only [Page.step]
      split
      · exact .of_objects rfl
      · split <;> exact .of_objects rfl
  | submitLoginTotp valid =>
      simp only [Page.step]
      split <;> exact .of_objects rfl
  | submitLoginRecoveryCode valid =>
      simp only [Page.step]
      split <;> exact .of_objects rfl
  | submitTotp valid =>
      simp only [Page.step]
      split <;> exact .of_objects rfl
  | sync =>
      unfold Page.step startSync
      simp only
      split
      · rename_i h
        split at h
        · cases h
        · exact .of_objects rfl
      · split <;> exact .of_objects rfl
  | save plaintext newItemId revisionId =>
      simp only [Page.step]
      split
      · split <;> exact .of_objects rfl
      · exact .refl page
  | delete plaintext revisionId =>
      simp only [Page.step]
      split
      · split <;> exact .of_objects rfl
      · exact .refl page
  | newItem => exact .of_objects rfl
  | select itemId =>
      simp only [Page.step]
      split
      · split <;> exact .of_objects rfl
      · exact .refl page
  | resume place nonce reply => exact absurd rfl (hevent place nonce reply)

/-- A job that the user starts has replayed nothing yet. -/
lemma Page.Starts.sound (h : page.Sound W origins) {job : Job} (hjob : page.Starts job) :
    job.Sound W page origins := by
  cases hjob with
  | flow hflow =>
      simp only [List.mem_cons, List.not_mem_nil, or_false] at hflow
      rcases hflow with rfl | rfl | rfl | rfl | rfl | rfl | rfl
      all_goals trivial
  | sync hunlocked =>
      obtain ⟨o, ho, rfl⟩ := Page.vaultOf_eq_some.mp (Page.unlocked_eq_some.mp hunlocked).2
      exact h.objects _ o ho
  | write => trivial

/-- **A step of the page** keeps the vaults replays. -/
lemma Page.Sound.step (h : page.Sound W origins) {event : Event}
    (hovertaken : ¬ Overtaken page event) :
    ∃ origins', (page.step W disk event).1.Sound W origins' := by
  by_cases hevent : ∀ place nonce reply, event ≠ .resume place nonce reply
  · have hsteady := page.step_steady (W := W) disk hevent
    cases page.step_stepped W disk event with
    | follows hfollows => exact ⟨origins, h.of_steady hsteady hfollows⟩
    | starts base job hfollows hjob hpage =>
        rw [hpage] at hsteady ⊢
        have hbase : base.Sound W origins := h.of_steady hsteady hfollows
        refine ⟨origins, hbase.length, hbase.opened,
          fun i o ho => (hbase.objects i o ho).kin (.of_objects rfl), fun job' hjob' => ?_⟩
        rcases List.mem_append.mp hjob' with hjob' | hjob'
        · exact (hbase.jobs job' hjob').kin (.of_objects rfl)
        · rw [List.mem_singleton.mp hjob']
          exact (hjob.sound hbase).kin (.of_objects rfl)
    | resumes place nonce reply job hresume => exact absurd hresume (hevent place nonce reply)
  · push Not at hevent
    obtain ⟨place, nonce, reply, rfl⟩ := hevent
    cases hjob : page.jobs[place]? with
    | none =>
        have hpage : (page.step W disk (.resume place nonce reply)).1 = page := by
          simp [Page.step, hjob]
        rw [hpage]
        exact ⟨origins, h⟩
    | some job =>
        have hpage : (page.step W disk (.resume place nonce reply)).1 =
            Page.settle (job.resume W page disk nonce reply) place := by
          simp [Page.step, hjob]
        rw [hpage]
        exact Job.resume_sound h hjob hovertaken

end Page

/-! ## Runs -/

end PasswordVault.Browser
