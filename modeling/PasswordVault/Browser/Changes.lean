import PasswordVault.Browser.Checkpoints

/-!
# Changes of a vault

What an unlocked page keeps of a vault, and how it verifies a change that the server hands out.

* `Web`: the parts of the browser that the page calls.
* `stableJson`: the text that is hashed and authenticated.
* `Vault`: the head, the items and the stored checkpoint; `markCheckpointProgress`.
* `Verifying`: `verifyAndApplyChange` between its `await`s, with the keys as they are when each of
  its calls is made.
-/

namespace PasswordVault.Browser

def VAULT_KEY_WRAP_CRYPTO_VERSION : String := "vault-key-wrap-v1"
def VAULT_CRYPTO_PROFILE_ID : String := "vault-crypto-v1"
def ITEM_ENVELOPE_CRYPTO_VERSION : String := "item-envelope-v1"
def ITEM_ENVELOPE_AEAD : String := "AES-256-GCM"

/-! ## The browser -/

/-- What can go wrong in a built-in function. -/
inductive Builtin where
  | property
  | iterable
  | base64
  | decrypt
  | json
  | network
  deriving DecidableEq

/-- The parts of the browser that the page calls. -/
structure Web extends Engine where
  /-- SHA-256, HMAC-SHA-256, and HKDF-SHA-256 with key, salt and info. -/
  digest : Bytes → Bytes
  hmac : Bytes → Bytes → Bytes
  hkdf : Bytes → Bytes → Bytes → Bytes
  /-- AES-GCM: key, nonce, associated data, message. -/
  encrypt : Bytes → Bytes → Option Bytes → Bytes → Bytes
  decrypt : Bytes → Bytes → Option Bytes → Bytes → Option Bytes
  /-- `JSON.parse` of decoded bytes. -/
  parse : Bytes → Option Json
  /-- What a built-in function throws. -/
  failure : Builtin → JsError
  /-- One more than a number that is no safe integer. -/
  succOf : JsNumber → JsNumber

variable (W : Web)

/-- `value.name`. -/
def property (value : JsValue) (name : String) : Except JsError JsValue :=
  match value with
  | none => .error (W.failure .property)
  | some .null => .error (W.failure .property)
  | value => .ok (member value name)

/-- `n + 1`. -/
def Web.succ (n : JsNumber) : JsNumber :=
  match n with
  | .int z => if -MAX_SAFE_INTEGER ≤ z ∧ z ≤ MAX_SAFE_INTEGER then .int (z + 1) else W.succOf n
  | n => W.succOf n

/-- The bytes of a text in base64url. -/
def Web.bytesOf (value : JsValue) : Except JsError Bytes :=
  match value with
  | some (.str text) =>
      match base64UrlToBytes text with
      | some bytes => .ok bytes
      | none => .error (W.failure .base64)
  | _ => .error (W.failure .property)

/-! ## stableJson -/

/-- `JSON.stringify` of a number. -/
def stringifyNumber (n : JsNumber) : List Char :=
  if n = NaN ∨ n = .decimal "Infinity" ∨ n = .decimal "-Infinity" then "null".toList
  else numberText n

/-- The code units of a text, by which `sort` orders. -/
def codeUnits (s : String) : List Nat :=
  s.toList.flatMap fun c =>
    if c.toNat < 0x10000 then [c.toNat]
    else [0xD800 + (c.toNat - 0x10000) / 0x400, 0xDC00 + (c.toNat - 0x10000) % 0x400]

/-- The order of two lists of numbers, by their first difference. -/
def listLe : List Nat → List Nat → Bool
  | [], _ => true
  | _ :: _, [] => false
  | x :: xs, y :: ys => decide (x < y) || (x == y && listLe xs ys)

/-- The text of an object, from its names with the texts of their values. -/
def objectText (members : List (String × List Char)) : List Char :=
  let sorted := members.mergeSort fun a b => listLe (codeUnits a.1) (codeUnits b.1)
  '{' :: List.intercalate [','] (sorted.map fun m => Json.renderString m.1 ++ ':' :: m.2) ++ ['}']

mutual

def stableJson : Json → List Char
  | .null => "null".toList
  | .bool true => "true".toList
  | .bool false => "false".toList
  | .num n => stringifyNumber n
  | .str s => Json.renderString s
  | .arr items => '[' :: List.intercalate [','] (itemTexts items) ++ [']']
  | .obj members => objectText (memberTexts members)

def itemTexts : List Json → List (List Char)
  | [] => []
  | v :: rest => stableJson v :: itemTexts rest

def memberTexts : List (String × Json) → List (String × List Char)
  | [] => []
  | (name, v) :: rest => (name, stableJson v) :: memberTexts rest

end

/-- `stableJson` of a value that may be `undefined`. -/
def stableText : JsValue → List Char
  | none => "undefined".toList
  | some v => stableJson v

/-- `canonicalBytes` of a value, -/
def canonicalBytes (value : JsValue) : Bytes := utf8Bytes (String.ofList (stableText value))

/-- and of an object that the page spells out. -/
def canonicalObject (members : List (String × JsValue)) : Bytes :=
  utf8Bytes (String.ofList (objectText (members.map fun m => (m.1, stableText m.2))))

/-! ## A vault -/

structure VaultItem where
  itemId : String
  revisionId : String
  revisionSeq : JsNumber
  headSeq : JsNumber
  fields : Json

/-- An unlocked vault without its keys: what a replay copies. -/
structure Vault where
  vaultId : JsValue
  keyId : JsValue
  headSeq : JsNumber
  headHash : String
  serverHeadSeq : JsNumber
  serverHeadHash : String
  storedCheckpoint : Option Checkpoint
  storedCheckpointVerified : Bool
  items : List (String × VaultItem)

/-- The bytes of the two keys of a vault. -/
structure VaultKeys where
  vaultKey : Bytes
  integrityKey : Bytes

/-- `fill(0)` on both keys. -/
def VaultKeys.wipe (keys : VaultKeys) : VaultKeys :=
  ⟨List.replicate keys.vaultKey.length 0, List.replicate keys.integrityKey.length 0⟩

/-- `Map.set`: an item that is there keeps its place. -/
def setItem (items : List (String × VaultItem)) (itemId : String) (item : VaultItem) :
    List (String × VaultItem) :=
  if items.any fun e => e.1 == itemId then
    items.map fun e => if e.1 = itemId then (itemId, item) else e
  else items ++ [(itemId, item)]

def deleteItem (items : List (String × VaultItem)) (itemId : String) : List (String × VaultItem) :=
  items.filter fun e => e.1 != itemId

def Vault.item (vault : Vault) (itemId : String) : Option VaultItem :=
  (vault.items.find? fun e => e.1 == itemId).map Prod.snd

def serverChainMismatch : JsError := ⟨"Possible vault rollback or fork detected: " ++
  "server chain did not match this browser's stored checkpoint."⟩

def markCheckpointProgress (vault : Vault) : Except JsError Vault :=
  match vault.storedCheckpoint with
  | none => .ok vault
  | some checkpoint =>
      if vault.storedCheckpointVerified then .ok vault
      else if W.less vault.headSeq (.int checkpoint.headSeq) then .ok vault
      else if JsNumber.same vault.headSeq (.int checkpoint.headSeq) &&
          vault.headHash == checkpoint.headHash then
        .ok { vault with storedCheckpointVerified := true }
      else .error serverChainMismatch

def checkpointNotReached : JsError := ⟨"Possible vault rollback detected: " ++
  "sync did not reach this browser's stored checkpoint."⟩

def assertStoredCheckpointVerified (vault : Vault) : Except JsError Unit :=
  if vault.storedCheckpoint.isSome && !vault.storedCheckpointVerified then
    .error checkpointNotReached
  else .ok ()

/-! ## Changes -/

/-- The fields of a change, as `verifyAndApplyChange` reads them. -/
structure Change where
  operation : String
  itemId : String
  revisionId : String
  revisionSeq : JsNumber
  headSeq : JsNumber
  baseRevisionSeq : JsNumber
  baseHeadSeq : JsNumber
  baseHeadHash : String
  previousHeadHash : String
  envelope : JsValue
  keyId : String
  envelopeHash : JsValue
  changeMac : JsValue
  headHash : JsValue

def readChange (change : JsValue) : Except JsError Change := do
  let operation ← property W change "operation"
  let envelope := member change "encrypted_item_envelope"
  .ok
    { operation := jsString operation
      itemId := jsString (member change "item_id")
      revisionId := jsString (member change "revision_id")
      revisionSeq := W.jsNumber (member change "revision_seq")
      headSeq := W.jsNumber (member change "head_seq")
      baseRevisionSeq := W.jsNumber (member change "base_revision_seq")
      baseHeadSeq := W.jsNumber (member change "base_head_seq")
      baseHeadHash := jsString (member change "base_head_hash")
      previousHeadHash := jsString (member change "previous_head_hash")
      envelope
      keyId := jsString (orElse (member envelope "key_id") (some (.str "")))
      envelopeHash := member change "envelope_hash"
      changeMac := member change "change_mac"
      headHash := member change "head_hash" }

/-- What is authenticated of a change. -/
structure MacFields where
  operation : String
  vaultId : JsValue
  itemId : String
  revisionId : String
  revisionSeq : JsNumber
  headSeq : JsNumber
  baseRevisionSeq : JsNumber
  baseHeadSeq : JsNumber
  baseHeadHash : String
  previousHeadHash : String
  envelopeHash : String
  keyId : String

def changeMacPayload (f : MacFields) : List (String × JsValue) :=
  [("version", some (.str "password-vault/change-mac/v1")),
    ("operation", some (.str f.operation)),
    ("vault_id", f.vaultId),
    ("item_id", some (.str f.itemId)),
    ("revision_id", some (.str f.revisionId)),
    ("revision_seq", some (.num f.revisionSeq)),
    ("head_seq", some (.num f.headSeq)),
    ("base_revision_seq", some (.num f.baseRevisionSeq)),
    ("base_head_seq", some (.num f.baseHeadSeq)),
    ("base_head_hash", some (.str f.baseHeadHash)),
    ("previous_head_hash", some (.str f.previousHeadHash)),
    ("envelope_hash", some (.str f.envelopeHash)),
    ("key_id", some (.str f.keyId)),
    ("crypto_version", some (.str ITEM_ENVELOPE_CRYPTO_VERSION))]

def headHashPayload (vaultId : JsValue) (headSeq : JsNumber) (previousHeadHash changeMac : String) :
    List (String × JsValue) :=
  [("version", some (.str "password-vault/head-hash/v1")),
    ("vault_id", vaultId),
    ("head_seq", some (.num headSeq)),
    ("previous_head_hash", some (.str previousHeadHash)),
    ("change_mac", some (.str changeMac))]

def itemAad (vaultId : JsValue) (itemId revisionId operation : String)
    (baseRevisionSeq baseHeadSeq : JsNumber) (keyId : String) : Bytes :=
  canonicalObject
    [("record_type", some (.str "vault-item-revision")),
      ("crypto_version", some (.str ITEM_ENVELOPE_CRYPTO_VERSION)),
      ("aead", some (.str ITEM_ENVELOPE_AEAD)),
      ("vault_id", vaultId),
      ("item_id", some (.str itemId)),
      ("revision_id", some (.str revisionId)),
      ("operation", some (.str operation)),
      ("base_revision_seq", some (.num baseRevisionSeq)),
      ("base_head_seq", some (.num baseHeadSeq)),
      ("key_id", some (.str keyId))]

def envelopeHash (envelope : JsValue) : String :=
  encodeBase64url (W.digest (canonicalBytes envelope))

def computeChangeMac (keys : VaultKeys) (f : MacFields) : String :=
  encodeBase64url (W.hmac keys.integrityKey (canonicalObject (changeMacPayload f)))

def computeHeadHash (keys : VaultKeys) (vaultId : JsValue) (headSeq : JsNumber)
    (previousHeadHash changeMac : String) : String :=
  encodeBase64url (W.hmac keys.integrityKey
    (canonicalObject (headHashPayload vaultId headSeq previousHeadHash changeMac)))

def deriveItemRevisionKey (keys : VaultKeys) (vaultId : JsValue) (itemId revisionId : String) :
    Bytes :=
  W.hkdf keys.vaultKey
    (utf8Bytes ("password-vault/item-revision-salt/v1:" ++ jsString vaultId ++ ":" ++ itemId ++
      ":" ++ revisionId))
    (utf8Bytes "password-vault/item-revision-key/v1")

/-- `aesGcmDecrypt`. -/
def aesGcmDecrypt (key : Bytes) (envelope : JsValue) (aad : Option Bytes) :
    Except JsError Json := do
  let nonce ← property W envelope "nonce"
  let iv ← W.bytesOf nonce
  let ciphertext ← W.bytesOf (member envelope "ciphertext")
  match W.decrypt key iv aad ciphertext with
  | none => .error (W.failure .decrypt)
  | some plaintext =>
      match W.parse plaintext with
      | none => .error (W.failure .json)
      | some v => .ok v

/-! ## Verifying a change -/

def chainMismatch : JsError := ⟨"Sync chain does not extend the local vault checkpoint."⟩
def unsupportedEnvelope : JsError := ⟨"Unsupported item envelope."⟩
def envelopeHashMismatch : JsError := ⟨"Encrypted item envelope hash mismatch."⟩
def changeMacMismatch : JsError := ⟨"Vault change MAC mismatch."⟩
def headHashMismatch : JsError := ⟨"Vault head hash mismatch."⟩

def Change.macFields (change : Change) (vaultId : JsValue) (envelopeHash : String) : MacFields where
  operation := change.operation
  vaultId
  itemId := change.itemId
  revisionId := change.revisionId
  revisionSeq := change.revisionSeq
  headSeq := change.headSeq
  baseRevisionSeq := change.baseRevisionSeq
  baseHeadSeq := change.baseHeadSeq
  baseHeadHash := change.baseHeadHash
  previousHeadHash := change.previousHeadHash
  envelopeHash
  keyId := change.keyId

/-- Where `verifyAndApplyChange` waits, with what the call that it waits for will give. -/
inductive Verifying where
  | envelopeHash (change : Change) (actual : String)
  | changeMac (change : Change) (expected : String)
  | headHash (change : Change) (expected : String)
  | contentKey (change : Change) (headHash : String) (key : Bytes)
  | plaintext (change : Change) (headHash : String) (result : Except JsError Json)

/-- What becomes of it. -/
inductive Verified where
  | more (verifying : Verifying)
  | done (change : Change) (headHash : String) (plaintext : Json)

/-- `verifyAndApplyChange` up to its first `await`. -/
def Verifying.start (vault : Vault) (value : JsValue) : Except JsError Verifying := do
  let change ← readChange W value
  if !(JsNumber.same change.baseHeadSeq vault.headSeq && change.baseHeadHash == vault.headHash &&
      change.previousHeadHash == vault.headHash) then .error chainMismatch
  else if !(strictEq (member change.envelope "crypto_version")
        (some (.str ITEM_ENVELOPE_CRYPTO_VERSION)) &&
      strictEq (member change.envelope "aead") (some (.str ITEM_ENVELOPE_AEAD))) then
    .error unsupportedEnvelope
  else .ok (.envelopeHash change (Browser.envelopeHash W change.envelope))

/-- `verifyAndApplyChange` after an `await`, with the keys as they are now. -/
def Verifying.next (vaultId : JsValue) (keys : VaultKeys) : Verifying → Except JsError Verified
  | .envelopeHash change actual =>
      if !strictEq (some (.str actual)) change.envelopeHash then .error envelopeHashMismatch
      else .ok (.more (.changeMac change (computeChangeMac W keys (change.macFields vaultId actual))))
  | .changeMac change expected =>
      if !strictEq (some (.str expected)) change.changeMac then .error changeMacMismatch
      else .ok (.more (.headHash change
        (computeHeadHash W keys vaultId change.headSeq change.previousHeadHash expected)))
  | .headHash change expected =>
      if !strictEq (some (.str expected)) change.headHash then .error headHashMismatch
      else .ok (.more (.contentKey change expected
        (deriveItemRevisionKey W keys vaultId change.itemId change.revisionId)))
  | .contentKey change head key =>
      .ok (.more (.plaintext change head (aesGcmDecrypt W key change.envelope
        (some (itemAad vaultId change.itemId change.revisionId change.operation
          change.baseRevisionSeq change.baseHeadSeq change.keyId)))))
  | .plaintext change head result => do
      let plaintext ← result
      .ok (.done change head plaintext)

/-- The replay of a verified change on a copy of the vault. -/
def replayChange (vault : Vault) (change : Change) (headHash : String) (plaintext : Json) :
    Except JsError Vault :=
  markCheckpointProgress W
    { vault with
      items :=
        if change.operation == "delete" then deleteItem vault.items change.itemId
        else setItem vault.items change.itemId
          ⟨change.itemId, change.revisionId, change.revisionSeq, change.headSeq, plaintext⟩
      headSeq := change.headSeq
      headHash }

/-- `commitVaultReplay`. -/
def commitVaultReplay (target replay : Vault) : Vault :=
  { target with
    items := replay.items
    headSeq := replay.headSeq
    headHash := replay.headHash
    storedCheckpointVerified := replay.storedCheckpointVerified }

end PasswordVault.Browser
