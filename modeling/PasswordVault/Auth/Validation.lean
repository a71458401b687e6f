import PasswordVault.Auth.Sessions

/-!
# Validation of requests

What the handlers require of the texts, envelopes and devices of a request, and of the metadata
that they stored with a challenge.
-/

namespace PasswordVault

def CLIENT_NONCE_BYTES : Nat := 32
def SERVER_NONCE_BYTES : Nat := 32
def AUTH_KEY_BYTES : Nat := 32
def AEAD_NONCE_BYTES : Nat := 12
def MAX_ENCRYPTED_ENVELOPE_BYTES : Nat := 64 * 1024
def MAX_LOGIN_HANDLE_BYTES : Nat := 320
def MAX_DEVICE_LABEL_BYTES : Nat := 128
def MAX_DEVICE_PUBLIC_METADATA_BYTES : Nat := 2048
def ACCOUNT_KEYSET_CRYPTO_VERSION : String := "account-keyset-v1"
def VAULT_KEY_WRAP_CRYPTO_VERSION : String := "vault-key-wrap-v1"

def ensureSupportedProtocol (authProtocol : String) : Except ApiError Unit :=
  ensure (authProtocol == AUTH_PROTOCOL) .badRequest

def normalizeLoginHandle (loginHandle : String) : Except ApiError String := do
  let normalized := toAsciiLowercase (trim loginHandle)
  ensure (!(normalized.isEmpty || decide (MAX_LOGIN_HANDLE_BYTES < byteLen normalized) ||
    normalized.toList.any isControl)) .badRequest
  .ok normalized

def validateShortText (value : String) (maxBytes : Nat) : Except ApiError String := do
  let trimmed := trim value
  ensure (!(trimmed.isEmpty || decide (maxBytes < byteLen trimmed) ||
    trimmed.toList.any isControl)) .badRequest
  .ok trimmed

/-! ## Envelopes and devices -/

structure EncryptedEnvelopeRequest where
  cryptoVersion : String
  keyId : String
  nonce : String
  ciphertext : String

structure ValidatedEncryptedEnvelope where
  cryptoVersion : String
  keyId : String
  nonce : Bytes
  ciphertext : Bytes

def ValidatedEncryptedEnvelope.fromRequest (request : EncryptedEnvelopeRequest)
    (expectedCryptoVersion : String) : Except ApiError ValidatedEncryptedEnvelope := do
  ensure (request.cryptoVersion == expectedCryptoVersion) .badRequest
  let keyId ← validateShortText request.keyId 128
  let nonce ← orBadRequest (decodeBase64urlArray AEAD_NONCE_BYTES request.nonce)
  let ciphertext ← orBadRequest (decodeBase64url request.ciphertext)
  ensure (!(ciphertext.isEmpty || decide (MAX_ENCRYPTED_ENVELOPE_BYTES < ciphertext.length)))
    .badRequest
  .ok ⟨request.cryptoVersion, keyId, nonce, ciphertext⟩

structure DeviceRequest where
  label : String
  clientType : String
  publicMetadata : Json

def ValidatedDevice.fromParts (label clientType : String) (publicMetadata : Json) :
    Except ApiError ValidatedDevice := do
  let label ← validateShortText label MAX_DEVICE_LABEL_BYTES
  ensure (isClientType clientType) .badRequest
  ensure publicMetadata.isObject .badRequest
  ensure (decide (publicMetadata.textLen ≤ MAX_DEVICE_PUBLIC_METADATA_BYTES)) .badRequest
  .ok ⟨label, clientType, publicMetadata⟩

def ValidatedDevice.fromRequest (request : DeviceRequest) : Except ApiError ValidatedDevice :=
  ValidatedDevice.fromParts request.label request.clientType request.publicMetadata

def DeviceChallengeMetadata.fromValidated (device : ValidatedDevice) : DeviceChallengeMetadata :=
  ⟨device.label, device.clientType, device.publicMetadata⟩

def DeviceChallengeMetadata.intoValidated (m : DeviceChallengeMetadata) :
    Except ApiError ValidatedDevice :=
  ValidatedDevice.fromParts m.label m.clientType m.publicMetadata

/-! ## Stored metadata -/

def decodeRegisterChallengeMetadata :
    ChallengeMetadata → Except ApiError RegisterChallengeMetadata
  | .register m => do
      ensure (m.kdfProfile.same defaultKdfProfile && m.authVerifierProfile == PROFILE_ID &&
        m.authVerifierIterations == DEFAULT_ITERATIONS) .serviceUnavailable
      .ok m
  | _ => .error .serviceUnavailable

def decodeLoginChallengeMetadata : ChallengeMetadata → Except ApiError LoginChallengeMetadata
  | .login m => do
      ensure (m.authVerifierProfile == PROFILE_ID &&
        m.authVerifierIterations == DEFAULT_ITERATIONS) .serviceUnavailable
      .ok m
  | _ => .error .serviceUnavailable

/-- The `public_metadata` column as it is read. The numbers of the other two shapes are integers. -/
def ChallengeMetadata.readBack (P : Platform) : ChallengeMetadata → ChallengeMetadata
  | .preMfa m => .preMfa { m with
      device := { m.device with
        publicMetadata := m.device.publicMetadata.throughJsonb P.rereadFloat } }
  | metadata => metadata

def decodePreMfaChallengeMetadata : ChallengeMetadata → Except ApiError PreMfaChallengeMetadata
  | .preMfa m => .ok m
  | _ => .error .serviceUnavailable

/-- `auth_key_from_vec`: the stored bytes as an array. -/
def authKeyFromVec (value : Bytes) : Except ApiError Bytes :=
  if value.length = AUTH_KEY_BYTES then .ok value else .error .serviceUnavailable

def genesisHeadHash (P : Platform) (vaultId : Uuid) : Bytes :=
  P.sha256 (utf8Bytes "password-vault/vault-genesis/v1" ++ [0] ++ vaultId.asBytes)

end PasswordVault
