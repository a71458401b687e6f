import PasswordVault.Browser.Changes

/-!
# The page

One tab: its state, the operations that wait for something, and the events of its user.

* `State`: the variables of the page. A vault is an object that `state.vault` and any operation may
  hold; locking wipes its keys in place.
* `Job`: where an operation waits, with its local variables. `Job.resume` runs it up to its next
  `await`.
* `Page.step`: an event of the user, or an answer for a job. It runs without interruption, so a step
  is what happens between two `await`s.
-/

namespace PasswordVault.Browser

/-! ## Objects and variables -/

/-- An unlocked vault, as its keys were when it was unlocked. -/
structure VaultObject where
  vault : Vault
  keys : VaultKeys
  wiped : Bool

/-- The keys as they are now. -/
def VaultObject.bytes (o : VaultObject) : VaultKeys := if o.wiped then o.keys.wipe else o.keys

/-- The variables of the page that the modelled functions use; `vault` is the place of an object. -/
structure State where
  csrfToken : JsValue
  factorId : JsValue
  loginMfaChallengeId : JsValue
  pendingFinishPayload : Bool
  registrationFinished : Bool
  pendingUnlockKey : Option Bytes
  vault : Option Nat
  selectedItemId : String

def State.init : State :=
  ⟨some (.str ""), some (.str ""), some (.str ""), false, false, none, none, ""⟩

/-- What a write sends to the server. -/
structure WriteBody where
  operation : String
  itemId : String
  revisionId : String
  revisionSeq : JsNumber
  headSeq : JsNumber
  baseRevisionSeq : JsNumber
  baseHeadSeq : JsNumber
  baseHeadHash : String
  newHeadHash : String
  changeMac : String
  envelopeHash : String
  envelope : Json

/-- A write that is being built: what `buildEncryptedItemChange` has read at its start, from the
object. -/
structure Writing where
  object : Nat
  operation : String
  plaintext : Json
  itemId : String
  revisionId : String
  baseRevisionSeq : JsNumber
  revisionSeq : JsNumber
  headSeq : JsNumber
  baseHeadSeq : JsNumber
  baseHeadHash : String

/-- What `unlockVaultWithKey` has read when it calls `decryptVaultKey`. -/
structure Opening where
  vaultId : JsValue
  serverHeadSeq : JsNumber
  serverHeadHash : String
  genesisHeadHash : String
  storedCheckpoint : Option Checkpoint
  keyId : JsValue

/-- A run of `syncVault`: the object that it updates, and the replay. -/
structure Syncing where
  object : Nat
  replay : Vault
  unlocking : Bool

/-- Where an operation waits. The result of a call that only computes is kept with it. -/
inductive Job where
  /-- `submitRegistration`, for the start response and then for the keys. -/
  | registerStart
  | registerDerive
  /-- `continueEnrollment`, for the finish response. -/
  | registerFinish
  /-- `startTotpEnrollment`, for the CSRF token and then for the factor; from a login or not. -/
  | enrollCsrf (login : Bool)
  | enrollStart (login : Bool)
  /-- `submitLogin`. -/
  | loginStart
  | loginDerive
  | loginFinish
  /-- `submitLoginTotp`, for the verification and then for the session. -/
  | mfaVerify
  | mfaSession (verification : JsValue)
  /-- `submitLoginRecoveryCode`. -/
  | recoveryVerify
  /-- `submitTotp`. -/
  | confirm
  | confirmSession (confirmation : JsValue)
  /-- `unlockVaultWithKey`, for the vaults, the key metadata and the integrity key. -/
  | unlockList (unlockKey : Bytes)
  | unlockMetadata (opening : Opening) (metadata : Except JsError Json)
  | unlockIntegrity (opening : Opening) (keys : VaultKeys)
  /-- `syncVault`, for a page, or in the replay of a change. -/
  | syncPage (s : Syncing)
  | syncChange (s : Syncing) (verifying : Verifying) (rest : List Json) (response : JsValue)
  /-- `saveVaultItem` and `deleteVaultItem`, in `buildEncryptedItemChange`. -/
  | writeKey (w : Writing) (contentKey : Bytes)
  | writeEncrypt (w : Writing) (envelope : Json)
  | writeEnvelopeHash (w : Writing) (envelope : Json) (hash : String)
  | writeMac (w : Writing) (envelope : Json) (hash mac : String)
  | writeHead (w : Writing) (envelope : Json) (hash mac head : String)
  /-- For the CSRF token, for the response, and in the replay of the change. -/
  | writeCsrf (w : Writing) (body : WriteBody)
  | writePost (w : Writing) (body : WriteBody)
  | writeVerify (w : Writing) (object : Nat) (verifying : Verifying)

structure Page where
  state : State
  objects : List VaultObject
  jobs : List Job
  /-- The bodies that were sent to the item endpoints, with the object of the write. -/
  posts : List (Nat × WriteBody)

def Page.init : Page := ⟨State.init, [], [], []⟩

variable (W : Web)

/-! ## Locking -/

def Page.wipeObject (page : Page) (object : Nat) : Page :=
  { page with objects := page.objects.modify object fun o => { o with wiped := true } }

/-- `clearVaultState`. -/
def Page.clearVaultState (page : Page) : Page :=
  let page := match page.state.vault with
    | some object => page.wipeObject object
    | none => page
  { page with state := { page.state with vault := none, selectedItemId := "" } }

def Page.clearPendingUnlockKey (page : Page) : Page :=
  { page with state := { page.state with pendingUnlockKey := none } }

def Page.lockVault (page : Page) : Page := page.clearPendingUnlockKey.clearVaultState

def Page.resetFlow (page : Page) : Page :=
  let page := page.lockVault
  { page with state :=
      { page.state with
        csrfToken := some (.str "")
        factorId := some (.str "")
        loginMfaChallengeId := some (.str "")
        pendingFinishPayload := false
        registrationFinished := false } }

/-- `toLowerCase`, as far as letters from outside ASCII become ASCII letters. -/
def lowerChar (c : Char) : List Char :=
  if c.toNat = 0x212A then ['k']
  else if c.toNat = 0x130 then ['i', Char.ofNat 0x307]
  else [asciiLower c]

def includes (text part : List Char) : Bool := text.tails.any fun rest => part.isPrefixOf rest

/-- The parts of a message that `isVaultFailClosedError` looks for. -/
def failClosedParts : List String :=
  ["checkpoint", "rollback", "fork", "vault head", "sync chain", "verified local head",
    "verified local chain", "change mac", "head hash", "envelope hash"]

def isVaultFailClosedError (e : JsError) : Bool :=
  failClosedParts.any fun part => includes (e.message.toList.flatMap lowerChar) part.toList

def Page.failClosedVault (page : Page) (e : JsError) : Page :=
  if page.state.vault.isSome && isVaultFailClosedError e then page.lockVault else page

/-! ## Answers -/

/-- What a promise gives: a response, or nothing that the model asks for. -/
inductive Reply where
  | failed (e : JsError)
  | response (ok : Bool) (status : Nat) (body : JsValue)
  | derived (key : Bytes)

/-- The error of a response that is not ok. -/
def responseError (status : Nat) (body : JsValue) : JsError :=
  let error := member body "error"
  let message := jsString (orElse (member error "message") (some (.str "Request failed.")))
  let code := jsString (orElse (member error "code") (some (.num (.int status))))
  ⟨message ++ " (" ++ code ++ ")"⟩

def jsonFetch : Reply → Except JsError JsValue
  | .failed e => .error e
  | .response ok status body => if ok then .ok body else .error (responseError status body)
  | .derived _ => .error (W.failure .network)

/-- The items that a loop goes through. -/
def iterate (value : JsValue) : Except JsError (List Json) :=
  match value with
  | some (.arr items) => .ok items
  | some (.str s) => .ok (s.toList.map fun c => .str (String.singleton c))
  | _ => .error (W.failure .iterable)

/-- What a job does next. -/
inductive Progress where
  | wait (job : Job)
  | returned
  | threw (e : JsError)

/-- A step finds the storage as the tabs have left it. -/
structure Disk where
  storage : LocalStorage
  refused : Option Refusal

/-- The page and the storage after a step of a job. -/
structure Turn where
  page : Page
  storage : LocalStorage
  progress : Progress

/-- The step throws, and has changed nothing else. -/
def Turn.fail (page : Page) (disk : Disk) (e : JsError) : Turn := ⟨page, disk.storage, .threw e⟩

def Turn.wait (page : Page) (disk : Disk) (job : Job) : Turn := ⟨page, disk.storage, .wait job⟩

/-- The step goes on with a value, or throws. -/
def Turn.attempt {α : Type} (page : Page) (disk : Disk) (x : Except JsError α) (next : α → Turn) :
    Turn :=
  match x with
  | .ok a => next a
  | .error e => Turn.fail page disk e

/-! ## Unlocking -/

def noVault : JsError := ⟨"No vault is available for this account."⟩
def invalidServerHead : JsError := ⟨"Server returned an invalid vault head."⟩
def noGenesis : JsError :=
  ⟨"Server did not return the genesis vault head required for checkpoint replay."⟩
def rollbackDetected : JsError := ⟨"Possible vault rollback detected: " ++
  "this browser has seen a newer vault head than the server returned."⟩
def forkDetected : JsError := ⟨"Possible vault fork detected: " ++
  "server head differs from this browser's stored checkpoint."⟩
def unsupportedKeyWrap : JsError := ⟨"Unsupported vault key wrap."⟩
def metadataMismatch : JsError := ⟨"Vault key metadata did not match the server vault."⟩
def invalidKeyLength : JsError := ⟨"Vault key has an invalid length."⟩
def vaultIsLocked : JsError := ⟨"Vault is locked."⟩

def assertCheckpointCompatibleWithServerHead (checkpoint : Option Checkpoint)
    (serverHeadSeq : JsNumber) (serverHeadHash : String) : Except JsError Unit :=
  match checkpoint with
  | none => .ok ()
  | some checkpoint =>
      if W.less serverHeadSeq (.int checkpoint.headSeq) then .error rollbackDetected
      else if JsNumber.same (.int checkpoint.headSeq) serverHeadSeq &&
          checkpoint.headHash != serverHeadHash then .error forkDetected
      else .ok ()

/-- `unlockVaultWithKey` from the list of vaults to the call of `aesGcmDecrypt`. -/
def openVault (disk : Disk) (vaultList : JsValue) : Except JsError (Opening × JsValue) := do
  let vaults ← property W vaultList "vaults"
  let vaults ← iterate W (orElse vaults (some (.arr [])))
  let serverVault := vaults.head?
  if !truthy serverVault then .error noVault
  else
    let serverHeadSeq := W.jsNumber (member serverVault "head_seq")
    let serverHeadHash := jsString (orElse (member serverVault "head_hash") (some (.str "")))
    let genesisHeadHash :=
      jsString (orElse (member serverVault "genesis_head_hash") (some (.str "")))
    if !(isValidHeadSeq (some (.num serverHeadSeq)) && isVaultHeadHash (some (.str serverHeadHash)))
    then .error invalidServerHead
    else if W.less (.int 0) serverHeadSeq && !isVaultHeadHash (some (.str genesisHeadHash)) then
      .error noGenesis
    else do
      let vaultId := member serverVault "vault_id"
      let storedCheckpoint ← loadVaultCheckpoint disk.refused disk.storage vaultId
      assertCheckpointCompatibleWithServerHead W storedCheckpoint serverHeadSeq serverHeadHash
      let wrapped := member serverVault "encrypted_vault_key"
      let cryptoVersion ← property W wrapped "crypto_version"
      if !strictEq cryptoVersion (some (.str VAULT_KEY_WRAP_CRYPTO_VERSION)) then
        .error unsupportedKeyWrap
      else .ok (⟨vaultId, serverHeadSeq, serverHeadHash, genesisHeadHash, storedCheckpoint,
        member wrapped "key_id"⟩, wrapped)

/-- `decryptVaultKey` on the decrypted metadata. -/
def vaultKeyOf (opening : Opening) (metadata : Json) : Except JsError Bytes := do
  let version ← property W (some metadata) "version"
  if !(strictEq version (some (.str VAULT_KEY_WRAP_CRYPTO_VERSION)) &&
      strictEq (member (some metadata) "vault_id") opening.vaultId &&
      strictEq (member (some metadata) "crypto_profile_id") (some (.str VAULT_CRYPTO_PROFILE_ID)))
  then .error metadataMismatch
  else do
    let vaultKey ← W.bytesOf (member (some metadata) "vault_key")
    if vaultKey.length = 32 then .ok vaultKey else .error invalidKeyLength

def deriveVaultIntegrityKey (vaultKey : Bytes) (vaultId : JsValue) : Bytes :=
  W.hkdf vaultKey (utf8Bytes ("password-vault/vault-integrity-salt/v1:" ++ jsString vaultId))
    (utf8Bytes "password-vault/vault-integrity-key/v1")

/-- The head that an unlocked vault starts from. -/
def Opening.firstHash (opening : Opening) : String :=
  if opening.genesisHeadHash = "" then opening.serverHeadHash else opening.genesisHeadHash

/-- The vault that `unlockVaultWithKey` assigns to `state.vault`. -/
def Opening.vault (opening : Opening) : Vault where
  vaultId := opening.vaultId
  keyId := opening.keyId
  headSeq := .int 0
  headHash := opening.firstHash
  serverHeadSeq := opening.serverHeadSeq
  serverHeadHash := opening.serverHeadHash
  storedCheckpoint := opening.storedCheckpoint
  storedCheckpointVerified := opening.storedCheckpoint.isNone
  items := []

/-- A new object in `state.vault`. -/
def Page.publish (page : Page) (vault : Vault) (keys : VaultKeys) : Page :=
  { page with
    state := { page.state with vault := some page.objects.length }
    objects := page.objects ++ [⟨vault, keys, false⟩] }

/-- `unlockVaultFromPendingKey` up to the first `await` of `unlockVaultWithKey`. -/
def unlockVaultFromPendingKey (page : Page) (disk : Disk) : Turn :=
  match page.state.pendingUnlockKey with
  | none => ⟨page, disk.storage, .returned⟩
  | some unlockKey => Turn.wait page.clearPendingUnlockKey disk (.unlockList unlockKey)

/-! ## Syncing -/

def startMismatch : JsError :=
  ⟨"Server sync response does not start from the verified local head."⟩
def endMismatch : JsError := ⟨"Server sync head does not match the verified local chain."⟩

/-- The `catch` blocks of `syncVault` and of its caller. -/
def Syncing.failed (s : Syncing) (page : Page) (storage : LocalStorage) (e : JsError) : Turn :=
  let page := page.failClosedVault e
  ⟨if s.unlocking then page.lockVault else page.failClosedVault e, storage, .threw e⟩

/-- The replayed items that `renderVaultItems` cannot show. -/
def renderVaultItems (page : Page) : Except JsError Unit :=
  match page.state.vault.bind fun object => page.objects[object]? with
  | none => .ok ()
  | some o =>
      if o.vault.items.any fun e => match e.2.fields with | .null => true | _ => false then
        .error (W.failure .property)
      else .ok ()

/-- The head, the items and the checkpoint mark of an object. -/
def Page.commit (page : Page) (object : Nat) (replay : Vault) : Page :=
  { page with
    objects := page.objects.modify object fun o =>
      { o with vault := commitVaultReplay o.vault replay } }

/-- The end of `syncVault`, after its last page. -/
def Syncing.finish (s : Syncing) (page : Page) (disk : Disk) : Turn :=
  let saved := persistVaultCheckpoint disk.refused disk.storage s.replay.vaultId s.replay.headSeq
    s.replay.headHash
  match saved.1 with
  | .error e => s.failed page saved.2 e
  | .ok () =>
      let page := page.commit s.object s.replay
      match renderVaultItems W page with
      | .error e => s.failed page saved.2 e
      | .ok () => ⟨page, saved.2, .returned⟩

/-- The end of a page: the next page, or the checks of the last one. -/
def Syncing.endOfPage (s : Syncing) (page : Page) (disk : Disk) (response : JsValue) : Turn :=
  if truthy (member response "has_more") then Turn.wait page disk (.syncPage s)
  else
    let toHead := member response "to_head"
    let serverHeadSeq := W.jsNumber (member toHead "seq")
    let serverHeadHash := jsString (orElse (member toHead "hash") (some (.str "")))
    if !(JsNumber.same serverHeadSeq s.replay.headSeq && serverHeadHash == s.replay.headHash) then
      s.failed page disk.storage endMismatch
    else match assertStoredCheckpointVerified s.replay with
      | .error e => s.failed page disk.storage e
      | .ok () => s.finish W page disk

/-- The next change of a page. -/
def Syncing.nextChange (s : Syncing) (page : Page) (disk : Disk) (response : JsValue) :
    List Json → Turn
  | [] => s.endOfPage W page disk response
  | value :: rest =>
      match Verifying.start W s.replay (some value) with
      | .error e => s.failed page disk.storage e
      | .ok verifying => Turn.wait page disk (.syncChange s verifying rest response)

/-- The changes of a page that starts from the local head. -/
def Syncing.changesOf (s : Syncing) (response : JsValue) : Except JsError (List Json) := do
  let fromHead ← property W response "from_head"
  let fromHeadSeq := W.jsNumber (member fromHead "seq")
  let fromHeadHash := jsString (orElse (member fromHead "hash") (some (.str "")))
  if !(JsNumber.same fromHeadSeq s.replay.headSeq && fromHeadHash == s.replay.headHash) then
    .error startMismatch
  else iterate W (orElse (member response "changes") (some (.arr [])))

/-- The keys of an object as they are now. -/
def Page.keysOf (page : Page) (object : Nat) : VaultKeys :=
  match page.objects[object]? with
  | some o => o.bytes
  | none => ⟨[], []⟩

/-- The vault of an object. -/
def Page.vaultOf (page : Page) (object : Nat) : Option Vault :=
  (page.objects[object]?).map VaultObject.vault

/-- The vault of the page with its object. -/
def Page.unlocked (page : Page) : Option (Nat × Vault) :=
  page.state.vault.bind fun object => (page.vaultOf object).map fun vault => (object, vault)

/-- `syncVault` up to its first `await`. -/
def startSync (page : Page) (disk : Disk) (unlocking : Bool) : Turn :=
  match page.unlocked with
  | none => Turn.fail page disk vaultIsLocked
  | some (object, vault) => Turn.wait page disk (.syncPage ⟨object, vault, unlocking⟩)

/-! ## Writing -/

def keyIdOfItems : String := "vault-item-key-" ++ VAULT_CRYPTO_PROFILE_ID

def Writing.aad (w : Writing) (vaultId : JsValue) : Bytes :=
  itemAad vaultId w.itemId w.revisionId w.operation w.baseRevisionSeq w.baseHeadSeq keyIdOfItems

def Writing.macFields (w : Writing) (vaultId : JsValue) (hash : String) : MacFields where
  operation := w.operation
  vaultId
  itemId := w.itemId
  revisionId := w.revisionId
  revisionSeq := w.revisionSeq
  headSeq := w.headSeq
  baseRevisionSeq := w.baseRevisionSeq
  baseHeadSeq := w.baseHeadSeq
  baseHeadHash := w.baseHeadHash
  previousHeadHash := w.baseHeadHash
  envelopeHash := hash
  keyId := keyIdOfItems

/-- The envelope that `aesGcmEncrypt` gives, with its nonce. -/
def Writing.envelope (w : Writing) (vaultId : JsValue) (contentKey nonce : Bytes) : Json :=
  let ciphertext := W.encrypt contentKey nonce (some (w.aad vaultId))
    (utf8Bytes (String.ofList w.plaintext.render))
  .obj [("crypto_version", .str ITEM_ENVELOPE_CRYPTO_VERSION), ("key_id", .str keyIdOfItems),
    ("aead", .str ITEM_ENVELOPE_AEAD), ("nonce", .str (encodeBase64url nonce)),
    ("ciphertext", .str (encodeBase64url ciphertext))]

def Writing.body (w : Writing) (envelope : Json) (hash mac head : String) : WriteBody where
  operation := w.operation
  itemId := w.itemId
  revisionId := w.revisionId
  revisionSeq := w.revisionSeq
  headSeq := w.headSeq
  baseRevisionSeq := w.baseRevisionSeq
  baseHeadSeq := w.baseHeadSeq
  baseHeadHash := w.baseHeadHash
  newHeadHash := head
  changeMac := mac
  envelopeHash := hash
  envelope

/-- The change that the page verifies after its own write. -/
def WriteBody.change (body : WriteBody) : Json :=
  .obj [("item_id", .str body.itemId), ("revision_id", .str body.revisionId),
    ("operation", .str body.operation), ("revision_seq", .num body.revisionSeq),
    ("head_seq", .num body.headSeq), ("previous_head_hash", .str body.baseHeadHash),
    ("head_hash", .str body.newHeadHash), ("base_revision_seq", .num body.baseRevisionSeq),
    ("base_head_seq", .num body.baseHeadSeq), ("base_head_hash", .str body.baseHeadHash),
    ("change_mac", .str body.changeMac), ("envelope_hash", .str body.envelopeHash),
    ("encrypted_item_envelope", body.envelope)]

def unexpectedHead : JsError := ⟨"Server returned an unexpected vault head."⟩

/-- The `catch` blocks of `saveVaultItem` and `deleteVaultItem`. -/
def writeFailed (page : Page) (storage : LocalStorage) (e : JsError) : Turn :=
  ⟨page.failClosedVault e, storage, .returned⟩

/-- The end of a write, when its change is verified. -/
def Writing.finish (w : Writing) (page : Page) (disk : Disk) (object : Nat) (change : Change)
    (head : String) (plaintext : Json) : Turn :=
  match page.vaultOf object with
  | none => writeFailed page disk.storage vaultIsLocked
  | some vault =>
      match replayChange W vault change head plaintext with
      | .error e => writeFailed page disk.storage e
      | .ok replay =>
          let saved := persistVaultCheckpoint disk.refused disk.storage replay.vaultId
            replay.headSeq replay.headHash
          match saved.1 with
          | .error e => writeFailed page saved.2 e
          | .ok () =>
              let page := page.commit object replay
              let selected := if w.operation = "delete" then "" else w.itemId
              let page := { page with state := { page.state with selectedItemId := selected } }
              match renderVaultItems W page with
              | .error e => writeFailed page saved.2 e
              | .ok () => ⟨page, saved.2, .returned⟩

/-! ## Jobs -/

/-- A job runs up to its next `await`; `nonce` is what it draws there. -/
def Job.resume (page : Page) (disk : Disk) (nonce : Bytes) (reply : Reply) : Job → Turn
  | .registerStart =>
      Turn.attempt page disk (jsonFetch W reply) fun _ => Turn.wait page disk .registerDerive
  | .registerDerive =>
      match reply with
      | .derived unlockKey =>
          ⟨{ page with state :=
              { page.state with
                pendingUnlockKey := some unlockKey
                pendingFinishPayload := true } }, disk.storage, .returned⟩
      | _ => Turn.fail page disk (W.failure .network)
  | .registerFinish =>
      Turn.attempt page disk (jsonFetch W reply) fun body =>
        let page := { page with state :=
          { page.state with registrationFinished := true, pendingFinishPayload := false } }
        Turn.attempt page disk (property W body "session") fun _ =>
          Turn.wait page disk (.enrollCsrf false)
  | .enrollCsrf login =>
      let fail := if login then page.clearPendingUnlockKey else page
      Turn.attempt fail disk (jsonFetch W reply >>= fun body => property W body "csrf_token")
        fun csrfToken =>
          Turn.wait { page with state := { page.state with csrfToken } } disk (.enrollStart login)
  | .enrollStart login =>
      let fail := if login then page.clearPendingUnlockKey else page
      Turn.attempt fail disk (jsonFetch W reply >>= fun body => property W body "factor_id")
        fun factorId =>
          ⟨{ page with state := { page.state with factorId } }, disk.storage, .returned⟩
  | .loginStart =>
      Turn.attempt page.clearPendingUnlockKey disk (jsonFetch W reply) fun _ =>
        Turn.wait page disk .loginDerive
  | .loginDerive =>
      match reply with
      | .derived unlockKey =>
          Turn.wait { page with state := { page.state with pendingUnlockKey := some unlockKey } }
            disk .loginFinish
      | _ => Turn.fail page.clearPendingUnlockKey disk (W.failure .network)
  | .loginFinish =>
      Turn.attempt page.clearPendingUnlockKey disk
        (jsonFetch W reply >>= fun body => (property W body "result").map fun r => (body, r))
        fun (body, result) =>
          if strictEq result (some (.str "mfa_required")) then
            ⟨{ page with state :=
                { page.state with loginMfaChallengeId := member body "mfa_challenge_id" } },
              disk.storage, .returned⟩
          else if strictEq result (some (.str "session_created")) then
            Turn.wait page disk (.enrollCsrf true)
          else Turn.fail page.clearPendingUnlockKey disk ⟨"Unexpected login response."⟩
  | .mfaVerify =>
      Turn.attempt page disk (jsonFetch W reply) fun verification =>
        Turn.wait { page with state := { page.state with loginMfaChallengeId := some (.str "") } }
          disk (.mfaSession verification)
  | .mfaSession verification =>
      Turn.attempt page disk (property W verification "session") fun _ =>
        unlockVaultFromPendingKey page disk
  | .recoveryVerify =>
      Turn.attempt page disk (jsonFetch W reply) fun verification =>
        let page := { page with state :=
          { page.state with loginMfaChallengeId := some (.str "") } }
        Turn.attempt page disk (property W verification "session") fun _ =>
          Turn.wait page disk (.enrollCsrf false)
  | .confirm =>
      Turn.attempt page disk (jsonFetch W reply >>= fun confirmation =>
        property W confirmation "recovery_codes" >>= fun codes =>
          (iterate W (orElse codes (some (.arr [])))).map fun _ => confirmation)
        fun confirmation => Turn.wait page disk (.confirmSession confirmation)
  | .confirmSession _ => unlockVaultFromPendingKey page disk
  | .unlockList unlockKey =>
      Turn.attempt page disk (jsonFetch W reply >>= openVault W disk) fun (opening, wrapped) =>
        Turn.wait page disk (.unlockMetadata opening (aesGcmDecrypt W unlockKey wrapped none))
  | .unlockMetadata opening metadata =>
      Turn.attempt page disk (metadata >>= vaultKeyOf W opening) fun vaultKey =>
        Turn.wait page disk (.unlockIntegrity opening
          ⟨vaultKey, deriveVaultIntegrityKey W vaultKey opening.vaultId⟩)
  | .unlockIntegrity opening keys =>
      -- `state.vault` is assigned before its stored checkpoint is compared
      let published := page.publish opening.vault keys
      match markCheckpointProgress W opening.vault with
      | .error e => Turn.fail published disk e
      | .ok vault => startSync ((page.publish vault keys).clearPendingUnlockKey) disk true
  | .syncPage s =>
      match jsonFetch W reply >>= fun response =>
          (s.changesOf W response).map fun changes => (response, changes) with
      | .error e => s.failed page disk.storage e
      | .ok (response, changes) => s.nextChange W page disk response changes
  | .syncChange s verifying rest response =>
      match verifying.next W s.replay.vaultId (page.keysOf s.object) with
      | .error e => s.failed page disk.storage e
      | .ok (.more verifying) => Turn.wait page disk (.syncChange s verifying rest response)
      | .ok (.done change head plaintext) =>
          match replayChange W s.replay change head plaintext with
          | .error e => s.failed page disk.storage e
          | .ok replay => Syncing.nextChange W { s with replay } page disk response rest
  | .writeKey w contentKey =>
      match page.vaultOf w.object with
      | none => writeFailed page disk.storage vaultIsLocked
      | some vault => Turn.wait page disk (.writeEncrypt w
          (w.envelope W vault.vaultId contentKey nonce))
  | .writeEncrypt w envelope =>
      Turn.wait page disk (.writeEnvelopeHash w envelope (envelopeHash W (some envelope)))
  | .writeEnvelopeHash w envelope hash =>
      match page.vaultOf w.object with
      | none => writeFailed page disk.storage vaultIsLocked
      | some vault => Turn.wait page disk (.writeMac w envelope hash
          (computeChangeMac W (page.keysOf w.object) (w.macFields vault.vaultId hash)))
  | .writeMac w envelope hash mac =>
      match page.vaultOf w.object with
      | none => writeFailed page disk.storage vaultIsLocked
      | some vault => Turn.wait page disk (.writeHead w envelope hash mac
          (computeHeadHash W (page.keysOf w.object) vault.vaultId w.headSeq w.baseHeadHash mac))
  | .writeHead w envelope hash mac head =>
      Turn.wait page disk (.writeCsrf w (w.body envelope hash mac head))
  | .writeCsrf w body =>
      match jsonFetch W reply >>= fun csrf => property W csrf "csrf_token" with
      | .error e => writeFailed page disk.storage e
      | .ok _ =>
          Turn.wait { page with posts := page.posts ++ [(w.object, body)] } disk (.writePost w body)
  | .writePost w body =>
      match jsonFetch W reply >>= fun response => (property W response "head_hash").map fun hash =>
          (response, hash) with
      | .error e => writeFailed page disk.storage e
      | .ok (response, hash) =>
          if !(strictEq hash (some (.str body.newHeadHash)) &&
              JsNumber.same (W.jsNumber (member response "head_seq")) body.headSeq) then
            writeFailed page disk.storage unexpectedHead
          else
            -- the vault of the page now, which may not be the one of the write
            match page.unlocked with
            | none => writeFailed page disk.storage vaultIsLocked
            | some (object, vault) =>
                match Verifying.start W vault (some body.change) with
                | .error e => writeFailed page disk.storage e
                | .ok verifying => Turn.wait page disk (.writeVerify w object verifying)
  | .writeVerify w object verifying =>
      match page.vaultOf object with
      | none => writeFailed page disk.storage vaultIsLocked
      | some vault =>
          match verifying.next W vault.vaultId (page.keysOf object) with
          | .error e => writeFailed page disk.storage e
          | .ok (.more verifying) => Turn.wait page disk (.writeVerify w object verifying)
          | .ok (.done change head plaintext) => w.finish W page disk object change head plaintext

/-! ## Events -/

/-- What the user does, or an answer for a job. -/
inductive Event where
  | lock
  | setMode
  | submitRegistration (valid : Bool)
  | submitLogin (valid : Bool)
  | continueEnrollment (secretSaved : Bool)
  | submitLoginTotp (valid : Bool)
  | submitLoginRecoveryCode (valid : Bool)
  | submitTotp (valid : Bool)
  | sync
  | save (plaintext : Option Json) (newItemId revisionId : String)
  | delete (plaintext : Json) (revisionId : String)
  | newItem
  | select (itemId : String)
  | resume (job : Nat) (nonce : Bytes) (reply : Reply)

def Page.start (page : Page) (job : Job) : Page := { page with jobs := page.jobs ++ [job] }

/-- `saveVaultItem` or `deleteVaultItem` up to the first `await` of `buildEncryptedItemChange`. -/
def Page.startWrite (page : Page) (object : Nat) (vault : Vault) (operation : String)
    (plaintext : Json) (itemId revisionId : String) (baseRevisionSeq : JsNumber) : Page :=
  page.start (.writeKey
    ⟨object, operation, plaintext, itemId, revisionId, baseRevisionSeq, W.succ baseRevisionSeq,
      W.succ vault.headSeq, vault.headSeq, vault.headHash⟩
    (deriveItemRevisionKey W (page.keysOf object) vault.vaultId itemId revisionId))

/-- The selected item of a vault. -/
def Page.selected (page : Page) (vault : Vault) : Option VaultItem :=
  if page.state.selectedItemId = "" then none else vault.item page.state.selectedItemId

/-- `selected.revisionSeq || 0`. -/
def VaultItem.baseRevisionSeq (item : VaultItem) : JsNumber :=
  if truthy (some (.num item.revisionSeq)) then item.revisionSeq else .int 0

/-- What follows from a step of the job at a place. -/
def Page.settle (turn : Turn) (place : Nat) : Page :=
  match turn.progress with
  | .wait job => { turn.page with jobs := turn.page.jobs.set place job }
  | _ => { turn.page with jobs := turn.page.jobs.eraseIdx place }

/-- One event, and the storage after it. -/
def Page.step (page : Page) (disk : Disk) : Event → Page × LocalStorage
  | .lock => (page.lockVault, disk.storage)
  | .setMode => (page.resetFlow.clearVaultState, disk.storage)
  | .submitRegistration valid =>
      let page := page.resetFlow.clearVaultState
      (if valid then page.start .registerStart else page, disk.storage)
  | .submitLogin valid =>
      let page := page.resetFlow.clearVaultState
      (if valid then page.start .loginStart else page, disk.storage)
  | .continueEnrollment secretSaved =>
      (if secretSaved && page.state.registrationFinished then page.start (.enrollCsrf false)
        else if secretSaved && page.state.pendingFinishPayload then page.start .registerFinish
        else page, disk.storage)
  | .submitLoginTotp valid =>
      (if valid && truthy page.state.loginMfaChallengeId then page.start .mfaVerify else page,
        disk.storage)
  | .submitLoginRecoveryCode valid =>
      (if valid && truthy page.state.loginMfaChallengeId then page.start .recoveryVerify else page,
        disk.storage)
  | .submitTotp valid =>
      (if valid && truthy page.state.factorId && truthy page.state.csrfToken then
        page.start .confirm else page, disk.storage)
  | .sync =>
      let turn := startSync page disk false
      match turn.progress with
      | .wait job => (turn.page.start job, turn.storage)
      | _ => (turn.page, turn.storage)
  | .save plaintext newItemId revisionId =>
      (match page.unlocked, plaintext with
        | some (object, vault), some plaintext =>
            match page.selected vault with
            | some item =>
                page.startWrite W object vault "update" plaintext item.itemId revisionId
                  item.baseRevisionSeq
            | none =>
                page.startWrite W object vault "create" plaintext newItemId revisionId (.int 0)
        | _, _ => page, disk.storage)
  | .delete plaintext revisionId =>
      (match page.unlocked with
        | some (object, vault) =>
            match page.selected vault with
            | some item =>
                page.startWrite W object vault "delete" plaintext item.itemId revisionId
                  item.revisionSeq
            | none => page
        | none => page, disk.storage)
  | .newItem => ({ page with state := { page.state with selectedItemId := "" } }, disk.storage)
  | .select itemId =>
      (match page.unlocked with
        | some (_, vault) =>
            if (vault.item itemId).isSome then
              { page with state := { page.state with selectedItemId := itemId } }
            else page
        | none => page, disk.storage)
  | .resume place nonce reply =>
      match page.jobs[place]? with
      | some job =>
          let turn := job.resume W page disk nonce reply
          (Page.settle turn place, turn.storage)
      | none => (page, disk.storage)

end PasswordVault.Browser
