import PasswordVault.Server.Evaluation
import PasswordVault.Vault.Sync

/-!
# What a row says of its envelope

A write validates the envelope of the request, stores the envelope as the client sent it and copies
its `key_id` and `crypto_version` to columns of the row. The validation trims the `key_id`, and the
column gets the trimmed text.

* `CopiesEnvelope`: what every row says of the envelope that its request carried.
* `Effect.envelopes`: a commit adds only such rows, so that every row comes from a commit
  (`ServiceRun.envelopes`).
* `row_metadata`: the columns agree with the envelope exactly when the `key_id` of the request has
  no white space around it.
-/

namespace PasswordVault

open Transactions

variable {P : Platform} {state : AppState} {q : Request} {H : Log} {b : Bool} {s s' : Db}

/-- The envelope that a write carries. -/
def Action.envelope : Action → Option EncryptedItemEnvelope
  | .createItem _ _ request => some request.encryptedItemEnvelope
  | .createItemRevision _ _ _ request => some request.encryptedItemEnvelope
  | _ => none

/-- An envelope with a nonce of 12 bytes and a ciphertext of 1 to 65536 bytes. -/
structure EncryptedItemEnvelope.WellFormed (e : EncryptedItemEnvelope) : Prop where
  cryptoVersion : e.cryptoVersion = ITEM_ENVELOPE_CRYPTO_VERSION
  aead : e.aead = ITEM_ENVELOPE_AEAD
  nonce : ∃ nonce, decodeBase64url e.nonce = .ok nonce ∧ nonce.length = ITEM_ENVELOPE_NONCE_BYTES
  ciphertext : ∃ ciphertext, decodeBase64url e.ciphertext = .ok ciphertext ∧
    1 ≤ ciphertext.length ∧ ciphertext.length ≤ MAX_ITEM_ENVELOPE_CIPHERTEXT_BYTES

/-- The row of a revision that was written for the envelope `e`: it holds `e`, its `crypto_version`
and its trimmed `key_id`. -/
structure VaultItemRevision.CopiesEnvelope (r : VaultItemRevision) (e : EncryptedItemEnvelope) :
    Prop where
  envelope : r.encryptedItemEnvelope = e
  cryptoVersion : r.cryptoVersion = e.cryptoVersion
  keyId : r.keyId = trim e.keyId
  wellFormed : e.WellFormed

/-! ## Validation -/

lemma validateShortText_ok {value text : String} {maxBytes : Nat}
    (h : validateShortText value maxBytes = .ok text) : text = trim value := by
  unfold validateShortText at h
  obtain ⟨_, -, h⟩ := bind_ok.mp h
  exact (Except.ok.inj h).symm

/-- What the validation of an envelope passes on. -/
lemma ValidatedItemEnvelope.fromRequest_ok {e : EncryptedItemEnvelope} {v : ValidatedItemEnvelope}
    (h : ValidatedItemEnvelope.fromRequest e = .ok v) :
    v.value = e ∧ v.cryptoVersion = e.cryptoVersion ∧ v.keyId = trim e.keyId ∧ e.WellFormed := by
  unfold ValidatedItemEnvelope.fromRequest at h
  obtain ⟨_, hnames, h⟩ := bind_ok.mp h
  obtain ⟨keyId, hkeyId, h⟩ := bind_ok.mp h
  obtain ⟨nonce, hnonce, h⟩ := bind_ok.mp h
  obtain ⟨ciphertext, hciphertext, h⟩ := bind_ok.mp h
  obtain ⟨_, hlength, h⟩ := bind_ok.mp h
  obtain ⟨_, -, h⟩ := bind_ok.mp h
  rw [ensure_ok, Bool.and_eq_true, beq_iff_eq, beq_iff_eq] at hnames
  rw [orBadRequest_ok] at hnonce hciphertext
  rw [ensure_ok, Bool.not_eq_true', Bool.or_eq_false_iff, decide_eq_false_iff_not,
    Nat.not_lt] at hlength
  obtain rfl := Except.ok.inj h
  refine ⟨rfl, rfl, validateShortText_ok hkeyId, hnames.1, hnames.2,
    ⟨nonce, decodeBase64urlArray_ok hnonce⟩, ciphertext, hciphertext, ?_, hlength.2⟩
  rcases ciphertext with _ | ⟨c, cs⟩
  · cases hlength.1
  · simp

lemma ValidatedCreateItem.envelope_ok {request : CreateItemRequest} {v : ValidatedCreateItem}
    (h : ValidatedCreateItem.fromRequest request = .ok v) :
    ValidatedItemEnvelope.fromRequest request.encryptedItemEnvelope =
      .ok v.encryptedItemEnvelope := by
  unfold ValidatedCreateItem.fromRequest at h
  obtain ⟨_, -, h⟩ := bind_ok.mp h
  obtain ⟨_, -, h⟩ := bind_ok.mp h
  obtain ⟨_, -, h⟩ := bind_ok.mp h
  obtain ⟨_, -, h⟩ := bind_ok.mp h
  obtain ⟨_, -, h⟩ := bind_ok.mp h
  obtain ⟨envelope, henvelope, h⟩ := bind_ok.mp h
  rw [henvelope, ← Except.ok.inj h]

lemma ValidatedCreateRevision.envelope_ok {request : CreateRevisionRequest}
    {v : ValidatedCreateRevision} (h : ValidatedCreateRevision.fromRequest request = .ok v) :
    ValidatedItemEnvelope.fromRequest request.encryptedItemEnvelope =
      .ok v.encryptedItemEnvelope := by
  unfold ValidatedCreateRevision.fromRequest at h
  obtain ⟨_, -, h⟩ := bind_ok.mp h
  obtain ⟨_, -, h⟩ := bind_ok.mp h
  obtain ⟨_, -, h⟩ := bind_ok.mp h
  obtain ⟨_, -, h⟩ := bind_ok.mp h
  obtain ⟨_, -, h⟩ := bind_ok.mp h
  obtain ⟨_, -, h⟩ := bind_ok.mp h
  obtain ⟨_, -, h⟩ := bind_ok.mp h
  obtain ⟨envelope, henvelope, h⟩ := bind_ok.mp h
  rw [henvelope, ← Except.ok.inj h]

/-! ## One commit -/

/-- **A commit adds only rows that copy the envelope of its request.** -/
theorem Effect.envelopes (h : Effect P state q H b s') {r : VaultItemRevision}
    (hr : r ∈ s'.vaultItemRevisions) : r ∈ H.current.vaultItemRevisions ∨
      ∃ e, q.action.envelope = some e ∧ r.CopiesEnvelope e := by
  cases h with
  | itemCreated hq hv =>
      rcases Rows.mem_put.mp hr with rfl | ⟨hr, -⟩
      · obtain ⟨hvalue, hversion, hkeyId, hform⟩ :=
          ValidatedItemEnvelope.fromRequest_ok (ValidatedCreateItem.envelope_ok hv)
        exact .inr ⟨_, by rw [hq]; rfl, hvalue, hversion, hkeyId, hform⟩
      · exact .inl hr
  | itemRevised hq hv =>
      rcases Rows.mem_put.mp hr with rfl | ⟨hr, -⟩
      · obtain ⟨hvalue, hversion, hkeyId, hform⟩ :=
          ValidatedItemEnvelope.fromRequest_ok (ValidatedCreateRevision.envelope_ok hv)
        exact .inr ⟨_, by rw [hq]; rfl, hvalue, hversion, hkeyId, hform⟩
      · exact .inl hr
  | loginRefused hq hc hopen hs =>
      rcases hs with rfl | ⟨event, rfl⟩
      · exact .inl hr
      · exact .inl hr
  | idle => exact .inl hr
  | _ =>
      simp only [Db.audited, Table.putAll, Table.remove, accounts, devices, authChallenges,
        totpFactors, recoveryCodes, sessions, accountKeysets, vaults, vaultKeyWraps] at hr
      exact .inl hr

/-! ## All commits -/

/-- A commit of `H` that added the row, of a request that carries the envelope `e`. -/
def Wrote (H : Log) (r : VaultItemRevision) (e : EncryptedItemEnvelope) : Prop :=
  ∃ c ∈ H.entries, c.request.action.envelope = some e ∧ r ∉ c.before.vaultItemRevisions ∧
    r ∈ c.after.vaultItemRevisions

/-- **Every row comes from a write and copies its envelope.** -/
lemma ServiceRun.envelopes (h : ServiceRun P state H) : ∀ r ∈ H.current.vaultItemRevisions,
    ∃ e, Wrote H r e ∧ r.CopiesEnvelope e := by
  refine Run.invariant (K := fun H => ∀ r ∈ H.current.vaultItemRevisions,
    ∃ e, Wrote H r e ∧ r.CopiesEnvelope e) ?_ ?_ h
  · intro r hr
    cases hr
  · intro H q b s _ heff _ hok r hr
    by_cases hold : r ∈ H.current.vaultItemRevisions
    · obtain ⟨e, ⟨c, hc, hcommit⟩, hcopies⟩ := hok r hold
      exact ⟨e, ⟨c, List.mem_append_left _ hc, hcommit⟩, hcopies⟩
    · obtain ⟨e, he, hcopies⟩ := (Effect.envelopes heff hr).resolve_left hold
      exact ⟨e, ⟨⟨q, b, H.current, s⟩, List.mem_append_right _ (List.mem_singleton.mpr rfl), he,
        hold, hr⟩, hcopies⟩

/-! ## The rows and what is returned -/

/-- What a row should say of the envelope that its request carried: the row holds the envelope, with
its five members, and the columns are two of them. -/
structure RowAgrees (r : VaultItemRevision) (e : EncryptedItemEnvelope) : Prop where
  keyId : r.keyId = r.encryptedItemEnvelope.keyId
  cryptoVersion : r.cryptoVersion = r.encryptedItemEnvelope.cryptoVersion
  envelope : r.encryptedItemEnvelope = e
  members : r.encryptedItemEnvelope.toJson = .obj [("crypto_version", .str e.cryptoVersion),
    ("key_id", .str e.keyId), ("aead", .str e.aead), ("nonce", .str e.nonce),
    ("ciphertext", .str e.ciphertext)]
  wellFormed : r.encryptedItemEnvelope.WellFormed

/-- A row agrees with its envelope when there is nothing to trim. -/
lemma VaultItemRevision.CopiesEnvelope.agrees_iff {r : VaultItemRevision}
    {e : EncryptedItemEnvelope} (h : r.CopiesEnvelope e) :
    RowAgrees r e ↔ trim e.keyId = e.keyId := by
  constructor
  · intro hagrees
    rw [← h.keyId, hagrees.keyId, h.envelope]
  · intro htrim
    refine ⟨?_, ?_, h.envelope, ?_, ?_⟩
    · rw [h.keyId, htrim, h.envelope]
    · rw [h.cryptoVersion, h.envelope]
    · rw [h.envelope]
      rfl
    · rw [h.envelope]
      exact h.wellFormed

/-- The rows of a state of the service and the envelopes that it returned. -/
structure RowMetadata (sys : Service) : Prop where
  /-- A row comes from a write. It agrees with the envelope of the request exactly when there is no
  white space around the `key_id`, and all but the `key_id` column agrees anyway. -/
  rows : ∀ r ∈ sys.history.current.vaultItemRevisions, ∃ e, Wrote sys.history r e ∧
    (RowAgrees r e ↔ trim e.keyId = e.keyId) ∧ r.CopiesEnvelope e
  /-- A change that `sync_vault` returned has the envelope of the request that wrote it. -/
  returned : ∀ t ∈ sys.threads, ∀ query fromHead toHead hasMore changes,
    Asked t query ⟨200, .sync fromHead toHead hasMore changes, none⟩ → ∀ change ∈ changes,
      ∃ r ∈ sys.history.current.vaultItemRevisions, ∃ e, Wrote sys.history r e ∧
        change.revisionId = r.id ∧ change.encryptedItemEnvelope = e ∧
          change.envelopeHash = encodeBase64url r.envelopeHash

/-- **The columns of a row agree with its envelope exactly when the `key_id` of the request has no
white space around it**, in every reachable state of the service; the envelope itself is stored and
returned as it was sent. -/
theorem row_metadata {sys : Service} (h : Reachable P state sys) : RowMetadata sys := by
  have hrun : ServiceRun P state sys.history := h.run
  refine ⟨fun r hr => ?_, ?_⟩
  · obtain ⟨e, hwrote, hcopies⟩ := hrun.envelopes r hr
    exact ⟨e, hwrote, hcopies.agrees_iff, hcopies⟩
  · intro t ht query fromHead toHead hasMore changes hask change hchange
    obtain ⟨H₁, v, hash, page, hanswered, -, hpage, -, -, rfl⟩ := h.pageAnswer ht hask
    obtain ⟨r, hr, rfl⟩ := List.mem_map.mp hchange
    -- the page was read earlier, and no row was lost or changed since
    have hrow := Since.revisions hanswered.arrived.run hanswered.answered r (hpage.rows r hr).1
    obtain ⟨e, hwrote, hcopies⟩ := hrun.envelopes r hrow
    exact ⟨r, hrow, e, hwrote, rfl, hcopies.envelope, rfl⟩

/-- The rows of a vault with an item. -/
theorem row_metadata_firstItem : RowMetadata (serveAll firstItem) :=
  row_metadata firstItem_reachable

lemma paddedItem_evaluated : (serveAll paddedItem).history.current.vaultItemRevisions.list.any
    (fun r => r.keyId != r.encryptedItemEnvelope.keyId) = true := by
  rw [serveAll_issued]
  decide +kernel

/-- **A `key_id` with a blank before it**: the column of the row does not agree with the envelope,
whatever request wrote it. -/
theorem paddedItem_disagrees : Reachable standard configured (serveAll paddedItem) ∧
    ∃ r ∈ (serveAll paddedItem).history.current.vaultItemRevisions,
      r.keyId ≠ r.encryptedItemEnvelope.keyId ∧ ∀ e, ¬ RowAgrees r e := by
  refine ⟨paddedItem_reachable, ?_⟩
  obtain ⟨r, hr, hne⟩ := List.any_eq_true.mp paddedItem_evaluated
  rw [bne_iff_ne] at hne
  exact ⟨r, hr, hne, fun e hagrees => hne hagrees.keyId⟩

end PasswordVault
