import PasswordVault.Auth.Login
import PasswordVault.Auth.ScramDerivation
import PasswordVault.Browser.Changes
import PasswordVault.Browser.Handles
import PasswordVault.Browser.SecretKey
import PasswordVault.Browser.StableJson
import PasswordVault.Server.Wire

/-!
# Registering and signing in, as the page does it

What `submitRegistration` and `submitLogin` compute between the answer to their first request and
their second one.

* `deriveClientKeys`: from the master password and the account secret key.
* `buildEncryptedRegistrationPayload`, `buildLoginFinishPayload`.
* `registration_built`, `login_built`: on an answer of the server both give a request that the
  server can read.
* `clientProof_accepted`: the proof of a login is accepted by the stored key of a registration with
  the same secret and the same salt.
-/

namespace PasswordVault.Browser

def AUTH_PROTOCOL : String := "derived-auth-v1"
def KDF_PROFILE_ID : String := "pbkdf2-sha256-browser-v1"
def KDF_ITERATIONS : Nat := 600000
def ACCOUNT_KEYSET_CRYPTO_VERSION : String := "account-keyset-v1"
def SCRAM_PROFILE_ID : String := "pv-scram-sha-256-v1"
def SCRAM_ITERATIONS : Nat := 150000

/-- What more of the browser the two call. -/
structure Crypto extends Web where
  /-- PBKDF2 with SHA-256, to 32 bytes: password, salt and iterations. -/
  pbkdf2 : Bytes → Bytes → Nat → Bytes
  /-- `toUpperCase` of a character. -/
  upper : Char → List Char
  /-- Signs, digits and capitals stay. -/
  upper_self : ∀ c, c.toNat < 97 → upper c = [c]

variable (W : Crypto)

/-! ## Checks of the answers -/

def Crypto.upperCase (s : String) : String := String.ofList (s.toList.flatMap W.upper)

/-- `String(value || "")`. -/
def textOrEmpty (value : JsValue) : String := jsString (orElse value (some (.str "")))

def unsupportedKdfProfile : JsError :=
  ⟨"Unsupported KDF profile. Expected " ++ KDF_PROFILE_ID ++ " with PBKDF2-HMAC-SHA-256/" ++
    toString KDF_ITERATIONS ++ "."⟩

/-- `validateKdfProfile`, with the iterations of the profile. -/
def validateKdfProfile (profile : JsValue) : Except JsError Nat :=
  let id := textOrEmpty (member profile "id")
  let algorithm := W.upperCase (String.ofList
    ((textOrEmpty (member profile "algorithm")).toList.map fun c => if c = '_' then '-' else c))
  let hash := W.upperCase (textOrEmpty (member profile "hash"))
  let iterations := W.jsNumber (member profile "iterations")
  let algorithmOk :=
    algorithm == "PBKDF2-HMAC-SHA-256" || (algorithm == "PBKDF2" && hash == "SHA-256")
  if id != KDF_PROFILE_ID || !algorithmOk || hash != "SHA-256" ||
      !JsNumber.same iterations (.int KDF_ITERATIONS) then
    .error unsupportedKdfProfile
  else .ok KDF_ITERATIONS

/-- What the checks of both answers begin with. -/
def validateStart (response : JsValue) : Except JsError JsValue := do
  let authProtocol ← property W.toWeb response "auth_protocol"
  if !strictEq authProtocol (some (.str AUTH_PROTOCOL)) then
    .error ⟨"Unsupported auth protocol from server."⟩
  else do
    let _ ← validateKdfProfile W (member response "kdf_profile")
    if !strictEq (member response "auth_verifier_profile") (some (.str SCRAM_PROFILE_ID)) then
      .error ⟨"Unsupported SCRAM verifier profile from server."⟩
    else .ok (member response "auth_verifier_iterations")

/-- `Number.isInteger`. -/
def isInteger : JsNumber → Bool
  | .int _ => true
  | .decimal _ => false

def validateRegisterStart (response : JsValue) : Except JsError Unit := do
  let iterations ← validateStart W response
  if !isInteger (W.jsNumber iterations) then
    .error ⟨"Invalid SCRAM verifier iterations from server."⟩
  else .ok ()

def validateLoginStart (response : JsValue) : Except JsError Unit := do
  let iterations ← validateStart W response
  if !JsNumber.same (W.jsNumber iterations) (.int SCRAM_ITERATIONS) then
    .error ⟨"Unsupported login verifier iteration count from server."⟩
  else .ok ()

/-! ## Keys -/

def deriveMasterSecret (masterPassword : JsString) (accountSecretKey accountSalt : Bytes)
    (kdfProfile : JsValue) : Except JsError Bytes := do
  let iterations ← validateKdfProfile W kdfProfile
  let input := utf8Bytes "password-vault/master-secret-input/v1" ++ [0] ++
    textBytes masterPassword ++ [0] ++ accountSecretKey
  .ok (W.pbkdf2 input accountSalt iterations)

structure ClientKeys where
  authSecret : Bytes
  unlockKey : Bytes

def deriveClientKeys (masterPassword : JsString) (accountSecretKey accountSalt : Bytes)
    (kdfProfile : JsValue) : Except JsError ClientKeys := do
  let masterSecret ← deriveMasterSecret W masterPassword accountSecretKey accountSalt kdfProfile
  .ok ⟨W.hkdf masterSecret accountSalt (utf8Bytes "password-vault/hkdf/auth-secret/v1"),
    W.hkdf masterSecret accountSalt (utf8Bytes "password-vault/hkdf/unlock-key/v1")⟩

/-- The salted password of the verifier and of the proof, each with its own errors. -/
def saltedPassword (badIterations badSalt : JsError) (authSecret salt : Bytes)
    (iterations : JsValue) : Except JsError Bytes :=
  match W.jsNumber iterations with
  | .int iterationCount =>
      if iterationCount < 4096 ∨ 1000000 < iterationCount then .error badIterations
      else if salt.length < 16 then .error badSalt
      else .ok (W.pbkdf2 authSecret salt iterationCount.toNat)
  | .decimal _ => .error badIterations

structure ScramVerifier where
  authStoredKey : String
  authServerKey : String

def deriveScramVerifier (authSecret salt : Bytes) (iterations : JsValue) :
    Except JsError ScramVerifier := do
  let salted ← saltedPassword W ⟨"Invalid SCRAM verifier iteration count."⟩
    ⟨"Invalid SCRAM verifier salt."⟩ authSecret salt iterations
  let clientKey := W.hmac salted (utf8Bytes "Client Key")
  let storedKey := W.digest clientKey
  let serverKey := W.hmac salted (utf8Bytes "Server Key")
  .ok ⟨base64Url storedKey, base64Url serverKey⟩

def deriveScramClientProof (authSecret salt : Bytes) (iterations : JsValue) (authMessage : Bytes) :
    Except JsError Bytes := do
  let salted ← saltedPassword W ⟨"Invalid SCRAM proof iteration count."⟩
    ⟨"Invalid SCRAM proof salt."⟩ authSecret salt iterations
  let clientKey := W.hmac salted (utf8Bytes "Client Key")
  let storedKey := W.digest clientKey
  let clientSignature := W.hmac storedKey authMessage
  .ok (List.zipWith (· ^^^ ·) clientKey clientSignature)

/-! ## Requests -/

/-- An object that the page spells out: a member that is `undefined` is not sent. -/
def jsObject (members : List (String × JsValue)) : Json :=
  .obj (members.filterMap fun m => m.2.map fun value => (m.1, value))

/-- The text of such an object. -/
def stringifyObject (members : List (String × Option JsString)) : JsString :=
  units "\x7b" ++ (units ",").intercalate (members.filterMap fun m => m.2.map fun text =>
    StableJson.quote (units m.1) ++ units ":" ++ text) ++ units "\x7d"

/-- `JSON.stringify` of a value. -/
def stringify (value : Json) : JsString := units (String.ofList value.render)

/-- `aesGcmEncrypt`, in the form of an envelope. -/
def envelopeOf (cryptoVersion keyId : String) (key nonce plaintext : Bytes) : Json :=
  let ciphertext := W.encrypt key nonce none plaintext
  .obj [("crypto_version", .str cryptoVersion), ("key_id", .str keyId),
    ("nonce", .str (base64Url nonce)), ("ciphertext", .str (base64Url ciphertext))]

/-- What the navigator says about the browser. -/
structure Navigator where
  browserDeviceLabel : String
  browserMetadata : Json

def Navigator.device (navigator : Navigator) : Json :=
  .obj [("label", .str navigator.browserDeviceLabel), ("client_type", .str "browser"),
    ("public_metadata", navigator.browserMetadata)]

/-- What a registration draws. -/
structure RegistrationDraws where
  createdAt : String
  accountSecretKey : Bytes
  accountKey : Bytes
  vaultKey : Bytes
  keyUuid : Uuid
  vaultId : Uuid
  keysetNonce : Bytes
  vaultKeyNonce : Bytes

def RegistrationDraws.keyId (draws : RegistrationDraws) : String :=
  "browser-unlock-key-" ++ draws.keyUuid.toText

/-- The text of the account keyset. -/
def accountKeyset (draws : RegistrationDraws) (loginHandle : JsString)
    (startResponse : JsValue) : JsString :=
  stringifyObject [("version", some (stringify (.str ACCOUNT_KEYSET_CRYPTO_VERSION))),
    ("created_at", some (stringify (.str draws.createdAt))),
    ("login_handle", some (StableJson.quote (normalizeLoginHandle loginHandle))),
    ("account_key", some (stringify (.str (base64Url draws.accountKey)))),
    ("account_secret_key", some (stringify (.obj [("format", .str "PVSK1-base64url-32"),
      ("stored_with_server", .bool false)]))),
    ("kdf_profile", (member startResponse "kdf_profile").map stringify),
    ("auth_verifier_profile", (member startResponse "auth_verifier_profile").map stringify)]

def vaultKeyMetadata (draws : RegistrationDraws) : Json :=
  .obj [("version", .str VAULT_KEY_WRAP_CRYPTO_VERSION), ("created_at", .str draws.createdAt),
    ("vault_id", .str draws.vaultId.toText), ("crypto_profile_id", .str VAULT_CRYPTO_PROFILE_ID),
    ("wrapped_by", .str draws.keyId), ("vault_key", .str (base64Url draws.vaultKey))]

structure BuiltRegistration where
  accountSecretDisplay : JsString
  unlockKey : Bytes
  finishPayload : Json

def buildEncryptedRegistrationPayload (navigator : Navigator) (draws : RegistrationDraws)
    (startResponse : JsValue) (masterPassword loginHandle : JsString) :
    Except JsError BuiltRegistration := do
  let accountSalt ← property W.toWeb startResponse "account_salt" >>= W.bytesOf
  let verifierSalt ← W.bytesOf (member startResponse "auth_verifier_salt")
  let keys ← deriveClientKeys W masterPassword draws.accountSecretKey accountSalt
    (member startResponse "kdf_profile")
  let scramVerifier ← deriveScramVerifier W keys.authSecret verifierSalt
    (member startResponse "auth_verifier_iterations")
  let encryptedAccountKeyset := envelopeOf W ACCOUNT_KEYSET_CRYPTO_VERSION draws.keyId
    keys.unlockKey draws.keysetNonce (textBytes (accountKeyset draws loginHandle startResponse))
  let encryptedVaultKey := envelopeOf W VAULT_KEY_WRAP_CRYPTO_VERSION draws.keyId keys.unlockKey
    draws.vaultKeyNonce (textBytes (stringify (vaultKeyMetadata draws)))
  .ok
    { accountSecretDisplay := displayAccountSecretKey draws.accountSecretKey
      unlockKey := keys.unlockKey
      finishPayload := jsObject [("registration_id", member startResponse "registration_id"),
        ("auth_protocol", some (.str AUTH_PROTOCOL)),
        ("auth_stored_key", some (.str scramVerifier.authStoredKey)),
        ("auth_server_key", some (.str scramVerifier.authServerKey)),
        ("encrypted_account_keyset", some encryptedAccountKeyset),
        ("initial_vault", some (.obj [("vault_id", .str draws.vaultId.toText),
          ("encrypted_vault_key", encryptedVaultKey)])),
        ("device", some navigator.device)] }

/-- What `submitLogin` has read from the form. -/
structure LoginInputs where
  loginHandle : JsString
  masterPassword : JsString
  accountSecretKey : Bytes

/-- `buildLoginFinishPayload`: the payload and the unlock key. -/
def buildLoginFinishPayload (navigator : Navigator) (startResponse : JsValue) (input : LoginInputs)
    (clientNonce : Bytes) : Except JsError (Json × Bytes) := do
  let loginHandleNormalized := normalizeLoginHandle input.loginHandle
  let accountSalt ← property W.toWeb startResponse "account_salt" >>= W.bytesOf
  let authVerifierSalt ← W.bytesOf (member startResponse "auth_verifier_salt")
  let serverNonce ← W.bytesOf (member startResponse "server_nonce")
  let clientFinalWithoutProof := utf8Bytes "c=biws"
  let keys ← deriveClientKeys W input.masterPassword input.accountSecretKey accountSalt
    (member startResponse "kdf_profile")
  let authMessage := loginAuthMessage
    ((member startResponse "login_challenge_id").map fun id => units (jsString (some id)))
    AUTH_PROTOCOL loginHandleNormalized (base64Url clientNonce) (base64Url serverNonce)
    (base64Url clientFinalWithoutProof)
  let clientProof ← deriveScramClientProof W keys.authSecret authVerifierSalt
    (member startResponse "auth_verifier_iterations") authMessage
  .ok (jsObject [("login_challenge_id", member startResponse "login_challenge_id"),
    ("auth_protocol", some (.str AUTH_PROTOCOL)),
    ("client_nonce", some (.str (base64Url clientNonce))),
    ("server_nonce", member startResponse "server_nonce"),
    ("client_final_without_proof", some (.str (base64Url clientFinalWithoutProof))),
    ("client_proof", some (.str (base64Url clientProof))),
    ("device", some navigator.device)], keys.unlockKey)

/-! ## The answers of the server pass -/

/-- A text of capitals and signs is its own upper case. -/
lemma Crypto.upperCase_self {s : String}
    (h : ∀ c ∈ s.toList, c.toNat < 97) : W.upperCase s = s := by
  have hself : ∀ cs : List Char, (∀ c ∈ cs, c.toNat < 97) → cs.flatMap W.upper = cs := by
    intro cs hcs
    induction cs with
    | nil => rfl
    | cons c cs ih =>
        rw [List.flatMap_cons, W.upper_self c (hcs c List.mem_cons_self),
          ih fun d hd => hcs d (List.mem_cons_of_mem c hd)]
        rfl
  rw [Crypto.upperCase, hself _ h, String.ofList_toList]

/-- The server's profile is the one that the page supports. -/
lemma validateKdfProfile_default :
    validateKdfProfile W (some defaultKdfProfile) = .ok KDF_ITERATIONS := by
  have halgorithm : W.upperCase "PBKDF2-HMAC-SHA-256" = "PBKDF2-HMAC-SHA-256" :=
    W.upperCase_self (by simp)
  have hhash : W.upperCase "SHA-256" = "SHA-256" := W.upperCase_self (by simp)
  have hid : textOrEmpty (member (some defaultKdfProfile) "id") = KDF_PROFILE_ID := by decide
  have htext : String.ofList ((textOrEmpty (member (some defaultKdfProfile) "algorithm")).toList.map
      fun c => if c = '_' then '-' else c) = "PBKDF2-HMAC-SHA-256" := by decide
  have htext' : textOrEmpty (member (some defaultKdfProfile) "hash") = "SHA-256" := by decide
  have hiterations : W.jsNumber (member (some defaultKdfProfile) "iterations") =
      .int KDF_ITERATIONS := rfl
  unfold validateKdfProfile
  simp only [hid, htext, htext', halgorithm, hhash, hiterations]
  decide

lemma base64UrlToBytes_encodeBase64url (bytes : Bytes) :
    base64UrlToBytes (encodeBase64url bytes) = some bytes := by
  rw [encodeBase64url, base64UrlToBytes_digits (encodeSextets_lt bytes), atobBytes_encodeSextets]

lemma Web.bytesOf_encodeBase64url (W : Web) (bytes : Bytes) :
    W.bytesOf (some (.str (encodeBase64url bytes))) = .ok bytes := by
  simp only [Web.bytesOf, base64UrlToBytes_encodeBase64url]

/-- The keys of a password and an account secret key, with the profile of the server. -/
def clientKeys (masterPassword : JsString) (accountSecretKey accountSalt : Bytes) : ClientKeys :=
  let masterSecret := W.pbkdf2 (utf8Bytes "password-vault/master-secret-input/v1" ++ [0] ++
    textBytes masterPassword ++ [0] ++ accountSecretKey) accountSalt KDF_ITERATIONS
  ⟨W.hkdf masterSecret accountSalt (utf8Bytes "password-vault/hkdf/auth-secret/v1"),
    W.hkdf masterSecret accountSalt (utf8Bytes "password-vault/hkdf/unlock-key/v1")⟩

lemma deriveClientKeys_default (masterPassword : JsString) (accountSecretKey accountSalt : Bytes) :
    deriveClientKeys W masterPassword accountSecretKey accountSalt (some defaultKdfProfile) =
      .ok (clientKeys W masterPassword accountSecretKey accountSalt) := by
  unfold deriveClientKeys deriveMasterSecret
  rw [validateKdfProfile_default]
  rfl

/-- The client key of the verifier and of the proof. -/
def clientKey (authSecret salt : Bytes) : Bytes :=
  W.hmac (W.pbkdf2 authSecret salt SCRAM_ITERATIONS) (utf8Bytes "Client Key")

lemma saltedPassword_default (badIterations badSalt : JsError) (authSecret : Bytes) {salt : Bytes}
    (hsalt : 16 ≤ salt.length) :
    saltedPassword W badIterations badSalt authSecret salt (some (.ofInt DEFAULT_ITERATIONS)) =
      .ok (W.pbkdf2 authSecret salt SCRAM_ITERATIONS) := by
  have hnumber : W.jsNumber (some (.ofInt DEFAULT_ITERATIONS)) = .int DEFAULT_ITERATIONS := rfl
  unfold saltedPassword
  rw [hnumber]
  dsimp only
  rw [if_neg (by decide), if_neg (Nat.not_lt.mpr hsalt)]
  rfl

/-! ## What the two send -/

/-- The envelope of a sealed text, as the server reads it. -/
def sealedEnvelope (cryptoVersion keyId : String) (key nonce plaintext : Bytes) :
    EncryptedEnvelopeRequest where
  cryptoVersion
  keyId
  nonce := encodeBase64url nonce
  ciphertext := encodeBase64url (W.encrypt key nonce none plaintext)

lemma envelopeOf_eq (cryptoVersion keyId : String) (key nonce plaintext : Bytes) :
    envelopeOf W cryptoVersion keyId key nonce plaintext =
      (sealedEnvelope W cryptoVersion keyId key nonce plaintext).toJson := by
  unfold envelopeOf
  dsimp only
  rw [base64Url_eq, base64Url_eq]
  rfl

def Navigator.request (navigator : Navigator) : DeviceRequest :=
  ⟨navigator.browserDeviceLabel, "browser", navigator.browserMetadata⟩

/-- The answer to a `register_start`. -/
def registerStartBody (registrationId : Uuid) (accountSalt authVerifierSalt : Bytes)
    (expiresAt : String) : Body :=
  .registerStart registrationId PasswordVault.AUTH_PROTOCOL defaultKdfProfile
    (encodeBase64url accountSalt) PROFILE_ID (encodeBase64url authVerifierSalt) DEFAULT_ITERATIONS
    expiresAt

/-- The answer to a `login_start`. -/
def loginStartBody (loginChallengeId : Uuid) (accountSalt authVerifierSalt serverNonce : Bytes)
    (combinedNonce expiresAt : String) : Body :=
  .loginStart loginChallengeId PasswordVault.AUTH_PROTOCOL defaultKdfProfile
    (encodeBase64url accountSalt) PROFILE_ID (encodeBase64url authVerifierSalt) DEFAULT_ITERATIONS
    (encodeBase64url serverNonce) combinedNonce expiresAt

/-- The stored key that the page registers for a secret. -/
def storedKey (authSecret salt : Bytes) : Bytes := W.digest (clientKey W authSecret salt)

/-- The proof of a secret for a message. -/
def clientProof (authSecret salt authMessage : Bytes) : Bytes :=
  List.zipWith (· ^^^ ·) (clientKey W authSecret salt)
    (W.hmac (storedKey W authSecret salt) authMessage)

/-- The `register_finish` request of the page. -/
def registrationRequest (navigator : Navigator) (draws : RegistrationDraws) (registrationId : Uuid)
    (masterPassword loginHandle : JsString) (accountSalt authVerifierSalt : Bytes)
    (startResponse : JsValue) : RegisterFinishRequest :=
  let keys := clientKeys W masterPassword draws.accountSecretKey accountSalt
  { registrationId
    authProtocol := AUTH_PROTOCOL
    authStoredKey := encodeBase64url (storedKey W keys.authSecret authVerifierSalt)
    authServerKey := encodeBase64url (W.hmac
      (W.pbkdf2 keys.authSecret authVerifierSalt SCRAM_ITERATIONS) (utf8Bytes "Server Key"))
    encryptedAccountKeyset := sealedEnvelope W ACCOUNT_KEYSET_CRYPTO_VERSION draws.keyId
      keys.unlockKey draws.keysetNonce (textBytes (accountKeyset draws loginHandle startResponse))
    initialVault := ⟨draws.vaultId, sealedEnvelope W VAULT_KEY_WRAP_CRYPTO_VERSION draws.keyId
      keys.unlockKey draws.vaultKeyNonce (textBytes (stringify (vaultKeyMetadata draws)))⟩
    device := navigator.request }

/-- The message of a login that answers `loginStartBody`. -/
def loginMessage (input : LoginInputs) (loginChallengeId : Uuid)
    (clientNonce serverNonce : Bytes) : Bytes :=
  loginAuthMessage (some (units loginChallengeId.toText)) AUTH_PROTOCOL
    (normalizeLoginHandle input.loginHandle) (encodeBase64url clientNonce)
    (encodeBase64url serverNonce) (encodeBase64url (utf8Bytes "c=biws"))

/-- The `login_finish` request of the page. -/
def loginRequest (navigator : Navigator) (input : LoginInputs) (loginChallengeId : Uuid)
    (accountSalt authVerifierSalt clientNonce serverNonce : Bytes) : LoginFinishRequest where
  loginChallengeId
  authProtocol := AUTH_PROTOCOL
  clientNonce := encodeBase64url clientNonce
  serverNonce := encodeBase64url serverNonce
  clientFinalWithoutProof := encodeBase64url (utf8Bytes "c=biws")
  clientProof := encodeBase64url (clientProof W
    (clientKeys W input.masterPassword input.accountSecretKey accountSalt).authSecret
    authVerifierSalt (loginMessage input loginChallengeId clientNonce serverNonce))
  device := navigator.request

lemma ok_bind {α β : Type} (a : α) (f : α → Except JsError β) : (Except.ok a >>= f) = f a := rfl

section built

variable (navigator : Navigator) (id : Uuid) (accountSalt : Bytes) {authVerifierSalt : Bytes}
  (combinedNonce expiresAt : String)

/-- What both checks of an answer of the server begin with is passed. -/
lemma validateStart_ok {response : JsValue} {members : List (String × Json)}
    (hresponse : response = some (.obj members))
    (hprotocol : member response "auth_protocol" = some (.str AUTH_PROTOCOL))
    (hprofile : member response "kdf_profile" = some defaultKdfProfile)
    (hscram : member response "auth_verifier_profile" = some (.str SCRAM_PROFILE_ID)) :
    validateStart W response = .ok (member response "auth_verifier_iterations") := by
  have hproperty : property W.toWeb response "auth_protocol" = .ok (some (.str AUTH_PROTOCOL)) := by
    rw [← hprotocol, hresponse]
    rfl
  unfold validateStart
  rw [hproperty, hprofile, validateKdfProfile_default, hscram]
  rfl

/-- **A registration goes on from every answer of the server**, to a request that the server can
read. -/
theorem registration_built (draws : RegistrationDraws) (masterPassword loginHandle : JsString)
    (hsalt : 16 ≤ authVerifierSalt.length) :
    validateRegisterStart W (registerStartBody id accountSalt authVerifierSalt expiresAt).toJson =
        .ok () ∧
      buildEncryptedRegistrationPayload W navigator draws
          (registerStartBody id accountSalt authVerifierSalt expiresAt).toJson masterPassword
          loginHandle =
        .ok ⟨displayAccountSecretKey draws.accountSecretKey,
          (clientKeys W masterPassword draws.accountSecretKey accountSalt).unlockKey,
          (registrationRequest W navigator draws id masterPassword loginHandle accountSalt
            authVerifierSalt
            (registerStartBody id accountSalt authVerifierSalt expiresAt).toJson).toJson⟩ := by
  generalize hstart : (registerStartBody id accountSalt authVerifierSalt expiresAt).toJson = start
  have hid : member start "registration_id" = some (.str id.toText) := by rw [← hstart]; rfl
  have hprofile : member start "kdf_profile" = some defaultKdfProfile := by rw [← hstart]; rfl
  have hsalt' : property W.toWeb start "account_salt" =
      .ok (some (.str (encodeBase64url accountSalt))) := by rw [← hstart]; rfl
  have hverifier : member start "auth_verifier_salt" =
      some (.str (encodeBase64url authVerifierSalt)) := by rw [← hstart]; rfl
  have hiterations : member start "auth_verifier_iterations" =
      some (.ofInt DEFAULT_ITERATIONS) := by rw [← hstart]; rfl
  constructor
  · unfold validateRegisterStart
    rw [validateStart_ok W hstart.symm (by rw [← hstart]; rfl) hprofile (by rw [← hstart]; rfl),
      hiterations]
    rfl
  · unfold buildEncryptedRegistrationPayload deriveScramVerifier
    rw [hsalt', hverifier, hprofile, hiterations, hid]
    simp only [ok_bind, Web.bytesOf_encodeBase64url, deriveClientKeys_default,
      saltedPassword_default W _ _ _ hsalt, envelopeOf_eq, base64Url_eq]
    rfl

/-- **A login goes on from every answer of the server**, to a request that the server can read. -/
theorem login_built (input : LoginInputs) (clientNonce serverNonce : Bytes)
    (hsalt : 16 ≤ authVerifierSalt.length) :
    validateLoginStart W (loginStartBody id accountSalt authVerifierSalt serverNonce combinedNonce
        expiresAt).toJson = .ok () ∧
      buildLoginFinishPayload W navigator (loginStartBody id accountSalt authVerifierSalt
          serverNonce combinedNonce expiresAt).toJson input clientNonce =
        .ok ((loginRequest W navigator input id accountSalt authVerifierSalt clientNonce
            serverNonce).toJson,
          (clientKeys W input.masterPassword input.accountSecretKey accountSalt).unlockKey) := by
  generalize hstart : (loginStartBody id accountSalt authVerifierSalt serverNonce combinedNonce
    expiresAt).toJson = start
  have hid : member start "login_challenge_id" = some (.str id.toText) := by rw [← hstart]; rfl
  have hprofile : member start "kdf_profile" = some defaultKdfProfile := by rw [← hstart]; rfl
  have hsalt' : property W.toWeb start "account_salt" =
      .ok (some (.str (encodeBase64url accountSalt))) := by rw [← hstart]; rfl
  have hverifier : member start "auth_verifier_salt" =
      some (.str (encodeBase64url authVerifierSalt)) := by rw [← hstart]; rfl
  have hnonce : member start "server_nonce" = some (.str (encodeBase64url serverNonce)) := by
    rw [← hstart]; rfl
  have hiterations : member start "auth_verifier_iterations" =
      some (.ofInt DEFAULT_ITERATIONS) := by rw [← hstart]; rfl
  constructor
  · unfold validateLoginStart
    rw [validateStart_ok W hstart.symm (by rw [← hstart]; rfl) hprofile (by rw [← hstart]; rfl),
      hiterations]
    rfl
  · unfold buildLoginFinishPayload deriveScramClientProof
    rw [hsalt', hverifier, hprofile, hiterations, hid, hnonce]
    simp only [ok_bind, Web.bytesOf_encodeBase64url, deriveClientKeys_default,
      saltedPassword_default W _ _ _ hsalt, base64Url_eq]
    rfl

end built

/-- **The proof is accepted** by the stored key of the same secret and salt, for any message. -/
theorem clientProof_accepted {P : Platform} (hhmac : W.hmac = P.hmacSha256)
    (hdigest : W.digest = P.sha256) (authSecret salt authMessage : Bytes) :
    Scram.verifyClientProof P (storedKey W authSecret salt) authMessage
      (clientProof W authSecret salt authMessage) = some true := by
  have hkey : (clientKey W authSecret salt).length = Scram.KEY_LEN := by
    rw [clientKey, hhmac]
    exact P.hmacSha256_length _ _
  have hsignature : (W.hmac (storedKey W authSecret salt) authMessage).length = Scram.KEY_LEN := by
    rw [hhmac]
    exact P.hmacSha256_length _ _
  apply Scram.mem_accepted.mpr
  refine ⟨Scram.xorKeys_length hkey hsignature, ?_⟩
  -- the signature comes off again
  have hcancel := Scram.xorKeys_cancel (hkey.trans hsignature.symm)
  rw [hhmac] at hcancel
  rw [clientProof, hhmac]
  change P.sha256 (Scram.xorKeys (Scram.xorKeys _ _) _) = _
  rw [hcancel, storedKey, hdigest]

end PasswordVault.Browser
