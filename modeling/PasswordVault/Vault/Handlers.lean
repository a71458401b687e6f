import PasswordVault.Auth.Validation
import Mathlib.Data.List.Sort

/-!
# The vault endpoints

* `listVaults`, `syncVault`: reads, each statement on its own.
* `createItem`, `createItemRevision`: the writes. They lock the head of the vault, compare it with
  the head the request is based on, insert the revision and move the head.
-/

namespace PasswordVault

open Transactions

def ITEM_ENVELOPE_CRYPTO_VERSION : String := "item-envelope-v1"
def ITEM_ENVELOPE_AEAD : String := "AES-256-GCM"
def ITEM_ENVELOPE_NONCE_BYTES : Nat := 12
def HASH_BYTES : Nat := 32
def MAX_KEY_ID_BYTES : Nat := 128
def MAX_ITEM_ENVELOPE_CIPHERTEXT_BYTES : Nat := 64 * 1024
def MAX_ITEM_ENVELOPE_JSON_BYTES : Nat := 96 * 1024
def MAX_SYNC_CHANGES_PER_RESPONSE : Nat := 500

/-- The successor of an `i64`, which wraps around. -/
def i64Succ (n : Int) : Int := Int.bmod (n + 1) (2 ^ 64)

/-! ## Validation -/

def validateNonnegativeSeq (value : Int) : Except ApiError Int :=
  if 0 ≤ value then .ok value else .error .badRequest

def validatePositiveSeq (value : Int) : Except ApiError Int :=
  if 0 < value then .ok value else .error .badRequest

def decodeHash (value : String) : Except ApiError Bytes :=
  orBadRequest (decodeBase64urlArray HASH_BYTES value)

/-- The JSON value of an envelope. -/
def EncryptedItemEnvelope.toJson (e : EncryptedItemEnvelope) : Json :=
  .obj [("crypto_version", .str e.cryptoVersion), ("key_id", .str e.keyId), ("aead", .str e.aead),
    ("nonce", .str e.nonce), ("ciphertext", .str e.ciphertext)]

structure ValidatedItemEnvelope where
  value : EncryptedItemEnvelope
  cryptoVersion : String
  keyId : String

def ValidatedItemEnvelope.fromRequest (request : EncryptedItemEnvelope) :
    Except ApiError ValidatedItemEnvelope := do
  ensure (request.cryptoVersion == ITEM_ENVELOPE_CRYPTO_VERSION &&
    request.aead == ITEM_ENVELOPE_AEAD) .badRequest
  let keyId ← validateShortText request.keyId MAX_KEY_ID_BYTES
  let _nonce ← orBadRequest (decodeBase64urlArray ITEM_ENVELOPE_NONCE_BYTES request.nonce)
  let ciphertext ← orBadRequest (decodeBase64url request.ciphertext)
  ensure (!(ciphertext.isEmpty ||
    decide (MAX_ITEM_ENVELOPE_CIPHERTEXT_BYTES < ciphertext.length))) .badRequest
  ensure (decide (request.toJson.textLen ≤ MAX_ITEM_ENVELOPE_JSON_BYTES)) .badRequest
  .ok ⟨request, request.cryptoVersion, keyId⟩

structure CreateItemRequest where
  itemId : Uuid
  revisionId : Uuid
  baseHeadSeq : Int
  baseHeadHash : String
  newHeadHash : String
  changeMac : String
  envelopeHash : String
  encryptedItemEnvelope : EncryptedItemEnvelope

structure ValidatedCreateItem where
  itemId : Uuid
  revisionId : Uuid
  baseHeadSeq : Int
  baseHeadHash : Bytes
  newHeadHash : Bytes
  changeMac : Bytes
  envelopeHash : Bytes
  encryptedItemEnvelope : ValidatedItemEnvelope

def ValidatedCreateItem.fromRequest (request : CreateItemRequest) :
    Except ApiError ValidatedCreateItem := do
  .ok
    { itemId := request.itemId
      revisionId := request.revisionId
      baseHeadSeq := ← validateNonnegativeSeq request.baseHeadSeq
      baseHeadHash := ← decodeHash request.baseHeadHash
      newHeadHash := ← decodeHash request.newHeadHash
      changeMac := ← decodeHash request.changeMac
      envelopeHash := ← decodeHash request.envelopeHash
      encryptedItemEnvelope := ← ValidatedItemEnvelope.fromRequest request.encryptedItemEnvelope }

structure CreateRevisionRequest where
  revisionId : Uuid
  operation : String
  baseRevisionSeq : Int
  baseHeadSeq : Int
  baseHeadHash : String
  newHeadHash : String
  changeMac : String
  envelopeHash : String
  encryptedItemEnvelope : EncryptedItemEnvelope

structure ValidatedCreateRevision where
  revisionId : Uuid
  operation : Operation
  baseRevisionSeq : Int
  baseHeadSeq : Int
  baseHeadHash : Bytes
  newHeadHash : Bytes
  changeMac : Bytes
  envelopeHash : Bytes
  encryptedItemEnvelope : ValidatedItemEnvelope

/-- The operations that a revision request may name. -/
def revisionOperation (operation : String) : Except ApiError Operation :=
  if operation = "update" then .ok .update
  else if operation = "delete" then .ok .delete
  else .error .badRequest

def ValidatedCreateRevision.fromRequest (request : CreateRevisionRequest) :
    Except ApiError ValidatedCreateRevision := do
  let operation ← revisionOperation request.operation
  let baseRevisionSeq ← validatePositiveSeq request.baseRevisionSeq
  .ok
    { revisionId := request.revisionId
      operation
      baseRevisionSeq
      baseHeadSeq := ← validateNonnegativeSeq request.baseHeadSeq
      baseHeadHash := ← decodeHash request.baseHeadHash
      newHeadHash := ← decodeHash request.newHeadHash
      changeMac := ← decodeHash request.changeMac
      envelopeHash := ← decodeHash request.envelopeHash
      encryptedItemEnvelope := ← ValidatedItemEnvelope.fromRequest request.encryptedItemEnvelope }

/-! ## Heads -/

structure VaultHead where
  headSeq : Int
  headHash : Bytes
  genesisHeadHash : Bytes

def vaultHeadFromRow (v : Vault) : VaultHead := ⟨v.headSeq, v.headHash, v.genesisHeadHash⟩

def headMatches (vault : VaultHead) (baseHeadSeq : Int) (baseHeadHash : Bytes) : Bool :=
  vault.headSeq == baseHeadSeq && vault.headHash == baseHeadHash

def vaultConflictResponse (vault : VaultHead) : Response :=
  ⟨409, .vaultConflict "vault_conflict" "Vault state conflict."
    ⟨vault.headSeq, encodeBase64url vault.headHash⟩, none⟩

/-- A unique violation is a conflict with the head that was locked, any other error an error. -/
def conflictOrUnavailable (vault : VaultHead) : DbError → Response
  | .uniqueViolation => vaultConflictResponse vault
  | .other => ApiError.serviceUnavailable.intoResponse

def requireVaultSession (P : Platform) (draws : Draws) (headers : HeaderMap) :
    Api CurrentSession := do
  let now := nowUtcSecond (draws.clock 0)
  let session ← loadCurrentSession P headers now
  let session ← attempt (requireSession session)
  attempt (ensure session.vaultAccess .mfaRequired)
  refreshSessionActivity session now

/-- The vault of an account. -/
def isVaultOf (accountId vaultId : Uuid) (v : Vault) : Bool :=
  v.id == vaultId && v.accountId == accountId

def selectVaultHead (accountId vaultId : Uuid) (s : Db) : Option VaultHead :=
  (s.vaults.list.find? (isVaultOf accountId vaultId)).map vaultHeadFromRow

def lockVaultHead (accountId vaultId : Uuid) : Api (Option VaultHead) := do
  let rows ← inTx (vaults.lockRows (isVaultOf accountId vaultId))
  pure (rows.head?.map vaultHeadFromRow)

/-! ## Listing -/

/-- The vaults of an account joined with their key wraps, in order of creation. -/
def selectVaults (accountId : Uuid) (s : Db) : List (Vault × VaultKeyWrap) :=
  ((s.vaults.list.filter fun v => v.accountId == accountId).flatMap fun v =>
    (s.vaultKeyWraps.list.filter fun w => w.vaultId == v.id && w.accountId == v.accountId).map
      fun w => (v, w)).insertionSort fun a b => a.1.createdAt < b.1.createdAt ∨
        a.1.createdAt = b.1.createdAt ∧ a.1.id.toNat ≤ b.1.id.toNat

def vaultResponse (P : Platform) (row : Vault × VaultKeyWrap) : Except ApiError VaultResponse := do
  let createdAt ← formatRfc3339 P row.1.createdAt
  let updatedAt ← formatRfc3339 P row.1.updatedAt
  .ok
    { vaultId := row.1.id
      headSeq := row.1.headSeq
      headHash := encodeBase64url row.1.headHash
      genesisHeadHash := encodeBase64url row.1.genesisHeadHash
      encryptedVaultKey := ⟨row.2.cryptoVersion, row.2.keyId, encodeBase64url row.2.nonce,
        encodeBase64url row.2.ciphertext⟩
      createdAt
      updatedAt }

def listVaults (P : Platform) (state : AppState) (draws : Draws) (headers : HeaderMap) :
    Api Response := do
  attempt (databasePool state)
  let session ← requireVaultSession P draws headers
  let rows ← onPool (.query (selectVaults session.accountId))
  let vaults ← attempt (rows.mapM (vaultResponse P))
  pure ⟨200, .vaultList vaults, none⟩

/-! ## Syncing -/

def selectRevisionHash (vaultId : Uuid) (headSeq : Int) (s : Db) : Option Bytes :=
  (s.vaultItemRevisions.list.find? fun r => r.vaultId == vaultId && r.headSeq == headSeq).map
    VaultItemRevision.headHash

def syncCursorMatches (vaultId : Uuid) (vault : VaultHead) (fromHeadSeq : Int)
    (fromHeadHash : Bytes) : Api Bool :=
  if vault.headSeq < fromHeadSeq then pure false
  else if fromHeadSeq = vault.headSeq then pure (vault.headHash == fromHeadHash)
  else if fromHeadSeq = 0 then pure (vault.genesisHeadHash == fromHeadHash)
  else do
    let storedHeadHash ← onPool (.query (selectRevisionHash vaultId fromHeadSeq))
    pure (storedHeadHash.any fun hash => hash == fromHeadHash)

/-- `WHERE head_seq > $2 AND head_seq <= $3 ORDER BY head_seq ASC LIMIT $4`. -/
def selectRevisions (vaultId : Uuid) (fromHeadSeq toHeadSeq : Int) (limit : Nat) (s : Db) :
    List VaultItemRevision :=
  ((s.vaultItemRevisions.list.filter fun r => r.vaultId == vaultId &&
    decide (fromHeadSeq < r.headSeq) && decide (r.headSeq ≤ toHeadSeq)).insertionSort
      fun a b => a.headSeq ≤ b.headSeq).take limit

def syncChangeResponse (r : VaultItemRevision) : SyncChangeResponse where
  itemId := r.itemId
  revisionId := r.id
  operation := r.operation.toText
  revisionSeq := r.revisionSeq
  headSeq := r.headSeq
  previousHeadHash := encodeBase64url r.previousHeadHash
  headHash := encodeBase64url r.headHash
  baseRevisionSeq := r.baseRevisionSeq
  baseHeadSeq := r.baseHeadSeq
  baseHeadHash := encodeBase64url r.baseHeadHash
  changeMac := encodeBase64url r.changeMac
  envelopeHash := encodeBase64url r.envelopeHash
  encryptedItemEnvelope := r.encryptedItemEnvelope

/-- The response for the rows that were read: at most a page of them. -/
def syncResponse (vault : VaultHead) (fromHeadSeq : Int) (fromHeadHash : Bytes)
    (rows : List VaultItemRevision) : Response :=
  let hasMore := decide (MAX_SYNC_CHANGES_PER_RESPONSE < rows.length)
  let rows := if hasMore then rows.take MAX_SYNC_CHANGES_PER_RESPONSE else rows
  let toHead := match rows.getLast? with
    | some lastRow => (lastRow.headSeq, lastRow.headHash)
    | none => (vault.headSeq, vault.headHash)
  ⟨200, .sync ⟨fromHeadSeq, encodeBase64url fromHeadHash⟩
    ⟨toHead.1, encodeBase64url toHead.2⟩ hasMore (rows.map syncChangeResponse), none⟩

structure SyncQuery where
  vaultId : Uuid
  fromHeadSeq : Int
  fromHeadHash : String

def syncVault (P : Platform) (state : AppState) (draws : Draws) (headers : HeaderMap)
    (query : SyncQuery) : Api Response := do
  attempt (databasePool state)
  let session ← requireVaultSession P draws headers
  let fromHeadSeq ← attempt (validateNonnegativeSeq query.fromHeadSeq)
  let fromHeadHash ← attempt (decodeHash query.fromHeadHash)
  let vault ← onPool (.query (selectVaultHead session.accountId query.vaultId))
  match vault with
  | none => fail .notFound
  | some vault => do
      let cursorMatches ← syncCursorMatches query.vaultId vault fromHeadSeq fromHeadHash
      if cursorMatches = false then pure (vaultConflictResponse vault)
      else do
        let rows ← onPool (.query (selectRevisions query.vaultId fromHeadSeq vault.headSeq
          (MAX_SYNC_CHANGES_PER_RESPONSE + 1)))
        pure (syncResponse vault fromHeadSeq fromHeadHash rows)

/-! ## Writing -/

def updateItemLatest (vaultId itemId revisionId : Uuid) (revisionSeq : Int) (deleted : Bool)
    (now : Time) : Api Unit := do
  let _ ← inTx (vaultItems.update (fun i => i.vaultId == vaultId && i.id == itemId)
    (fun i => { i with
      latestRevisionId := some revisionId
      latestRevisionSeq := revisionSeq
      deletedAt := if deleted then some now else i.deletedAt
      updatedAt := now }) fun _ => rfl)

def updateVaultHead (accountId vaultId : Uuid) (headSeq : Int) (headHash : Bytes) (now : Time) :
    Api Unit := do
  let _ ← inTx (vaults.update (isVaultOf accountId vaultId)
    (fun v => { v with headSeq := headSeq, headHash := headHash, updatedAt := now }) fun _ => rfl)

/-- The `event_metadata` of a write. -/
def writeMetadata (vaultId itemId revisionId : Uuid) (headSeq revisionSeq : Int) : Json :=
  .obj [("vault_id", .str vaultId.toText), ("item_id", .str itemId.toText),
    ("revision_id", .str revisionId.toText), ("head_seq", .num (.int headSeq)),
    ("revision_seq", .num (.int revisionSeq))]

/-- The revision that a `create_item` request inserts on a head. -/
def createdRevision (vaultId : Uuid) (headSeq : Int) (v : ValidatedCreateItem) :
    VaultItemRevision where
  id := v.revisionId
  vaultId
  itemId := v.itemId
  operation := .create
  revisionSeq := 1
  baseRevisionSeq := 0
  headSeq
  baseHeadSeq := v.baseHeadSeq
  baseHeadHash := v.baseHeadHash
  previousHeadHash := v.baseHeadHash
  headHash := v.newHeadHash
  changeMac := v.changeMac
  keyId := v.encryptedItemEnvelope.keyId
  cryptoVersion := v.encryptedItemEnvelope.cryptoVersion
  envelopeHash := v.envelopeHash
  encryptedItemEnvelope := v.encryptedItemEnvelope.value

/-- The revision that a `create_item_revision` request inserts on a head. -/
def nextRevision (vaultId itemId : Uuid) (revisionSeq headSeq : Int)
    (v : ValidatedCreateRevision) : VaultItemRevision where
  id := v.revisionId
  vaultId
  itemId
  operation := v.operation
  revisionSeq
  baseRevisionSeq := v.baseRevisionSeq
  headSeq
  baseHeadSeq := v.baseHeadSeq
  baseHeadHash := v.baseHeadHash
  previousHeadHash := v.baseHeadHash
  headHash := v.newHeadHash
  changeMac := v.changeMac
  keyId := v.encryptedItemEnvelope.keyId
  cryptoVersion := v.encryptedItemEnvelope.cryptoVersion
  envelopeHash := v.envelopeHash
  encryptedItemEnvelope := v.encryptedItemEnvelope.value

def createItem (P : Platform) (state : AppState) (draws : Draws) (headers : HeaderMap)
    (vaultId : Uuid) (request : CreateItemRequest) : Api Response := do
  attempt (ensureUnsafeRequestContext headers)
  attempt (databasePool state)
  let session ← requireVaultSession P draws headers
  ensureCsrfToken P headers session.id
  let v ← attempt (ValidatedCreateItem.fromRequest request)
  let now := nowUtcSecond (draws.clock 1)
  let vault ← lockVaultHead session.accountId vaultId
  match vault with
  | none => fail .notFound
  | some vault =>
      if headMatches vault v.baseHeadSeq v.baseHeadHash = false then
        Handler.finish (vaultConflictResponse vault)
      else do
        let headSeq := i64Succ vault.headSeq
        Handler.inside (vaultItems.insert { id := v.itemId, vaultId, updatedAt := draws.dbClock })
          (conflictOrUnavailable vault)
        Handler.inside (vaultItemRevisions.insert (createdRevision vaultId headSeq v))
          (conflictOrUnavailable vault)
        updateItemLatest vaultId v.itemId v.revisionId 1 false now
        updateVaultHead session.accountId vaultId headSeq v.newHeadHash now
        insertAuditEvent session.accountId session.deviceId "vault_item_created"
          (writeMetadata vaultId v.itemId v.revisionId headSeq 1)
        commitAnd ⟨201, .itemRevisionWrite v.itemId v.revisionId 1 headSeq
          (encodeBase64url v.newHeadHash), none⟩

structure LockedItem where
  latestRevisionSeq : Int
  deleted : Bool

def lockItem (vaultId itemId : Uuid) : Api (Option LockedItem) := do
  let rows ← inTx (vaultItems.lockRows fun i => i.vaultId == vaultId && i.id == itemId)
  pure (rows.head?.map fun i => ⟨i.latestRevisionSeq, i.deletedAt.isSome⟩)

/-- The audit event of a revision. -/
def revisionEventType : Operation → Except ApiError String
  | .update => .ok "vault_item_updated"
  | .delete => .ok "vault_item_deleted"
  | .create => .error .badRequest

def createItemRevision (P : Platform) (state : AppState) (draws : Draws) (headers : HeaderMap)
    (vaultId itemId : Uuid) (request : CreateRevisionRequest) : Api Response := do
  attempt (ensureUnsafeRequestContext headers)
  attempt (databasePool state)
  let session ← requireVaultSession P draws headers
  ensureCsrfToken P headers session.id
  let v ← attempt (ValidatedCreateRevision.fromRequest request)
  let now := nowUtcSecond (draws.clock 1)
  let vault ← lockVaultHead session.accountId vaultId
  match vault with
  | none => fail .notFound
  | some vault => do
      let item ← lockItem vaultId itemId
      match item with
      | none => fail .notFound
      | some item =>
          if headMatches vault v.baseHeadSeq v.baseHeadHash = false ∨
              v.baseRevisionSeq ≠ item.latestRevisionSeq ∨ item.deleted = true then
            Handler.finish (vaultConflictResponse vault)
          else do
            let revisionSeq := i64Succ item.latestRevisionSeq
            let headSeq := i64Succ vault.headSeq
            Handler.inside
              (vaultItemRevisions.insert (nextRevision vaultId itemId revisionSeq headSeq v))
              (conflictOrUnavailable vault)
            updateItemLatest vaultId itemId v.revisionId revisionSeq
              (v.operation == .delete) now
            updateVaultHead session.accountId vaultId headSeq v.newHeadHash now
            let eventType ← attempt (revisionEventType v.operation)
            insertAuditEvent session.accountId session.deviceId eventType
              (writeMetadata vaultId itemId v.revisionId headSeq revisionSeq)
            commitAnd ⟨201, .itemRevisionWrite itemId v.revisionId revisionSeq headSeq
              (encodeBase64url v.newHeadHash), none⟩

end PasswordVault
