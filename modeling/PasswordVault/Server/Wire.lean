import PasswordVault.Auth.Login
import PasswordVault.Server.Encodings
import PasswordVault.Vault.Handlers

/-!
# Requests and responses on the wire

The values that the texts of bodies stand for, field by field under the names that the structures
are serialized with. The members of an object stand in the order of the structure.

* `Body.toJson`: of a response.
* `RegisterFinishRequest.toJson`, `LoginFinishRequest.toJson`: of a request; it determines the
  request.
-/

namespace PasswordVault

/-! ## Responses -/

/-- An integer field. -/
abbrev Json.ofInt (z : Int) : Json := .num (.int z)

def SessionResponse.toJson (r : SessionResponse) : Json :=
  .obj [("state", .str r.state), ("vault_access", .bool r.vaultAccess),
    ("idle_expires_at", .str r.idleExpiresAt), ("absolute_expires_at", .str r.absoluteExpiresAt)]

def TotpProfileResponse.toJson (r : TotpProfileResponse) : Json :=
  .obj [("algorithm", .str r.algorithm), ("digits", .ofInt r.digits), ("period", .ofInt r.period)]

def HeadResponse.toJson (r : HeadResponse) : Json :=
  .obj [("seq", .ofInt r.seq), ("hash", .str r.hash)]

def EncryptedVaultKeyResponse.toJson (r : EncryptedVaultKeyResponse) : Json :=
  .obj [("crypto_version", .str r.cryptoVersion), ("key_id", .str r.keyId),
    ("nonce", .str r.nonce), ("ciphertext", .str r.ciphertext)]

def VaultResponse.toJson (r : VaultResponse) : Json :=
  .obj [("vault_id", .str r.vaultId.toText), ("head_seq", .ofInt r.headSeq),
    ("head_hash", .str r.headHash), ("genesis_head_hash", .str r.genesisHeadHash),
    ("encrypted_vault_key", r.encryptedVaultKey.toJson), ("created_at", .str r.createdAt),
    ("updated_at", .str r.updatedAt)]

def SyncChangeResponse.toJson (r : SyncChangeResponse) : Json :=
  .obj [("item_id", .str r.itemId.toText), ("revision_id", .str r.revisionId.toText),
    ("operation", .str r.operation), ("revision_seq", .ofInt r.revisionSeq),
    ("head_seq", .ofInt r.headSeq), ("previous_head_hash", .str r.previousHeadHash),
    ("head_hash", .str r.headHash), ("base_revision_seq", .ofInt r.baseRevisionSeq),
    ("base_head_seq", .ofInt r.baseHeadSeq), ("base_head_hash", .str r.baseHeadHash),
    ("change_mac", .str r.changeMac), ("envelope_hash", .str r.envelopeHash),
    ("encrypted_item_envelope", r.encryptedItemEnvelope.toJson)]

def errorJson (code message : String) : Json :=
  .obj [("code", .str code), ("message", .str message)]

/-- The JSON of a body; the empty one has none. -/
def Body.toJson : Body → Option Json
  | .error code message => some (.obj [("error", errorJson code message)])
  | .registerStart registrationId authProtocol kdfProfile accountSalt authVerifierProfile
      authVerifierSalt authVerifierIterations expiresAt =>
      some (.obj [("registration_id", .str registrationId.toText),
        ("auth_protocol", .str authProtocol), ("kdf_profile", kdfProfile),
        ("account_salt", .str accountSalt), ("auth_verifier_profile", .str authVerifierProfile),
        ("auth_verifier_salt", .str authVerifierSalt),
        ("auth_verifier_iterations", .ofInt authVerifierIterations),
        ("expires_at", .str expiresAt)])
  | .registerFinish accountId session nextStep =>
      some (.obj [("account_id", .str accountId.toText), ("session", session.toJson),
        ("next_step", .str nextStep)])
  | .loginStart loginChallengeId authProtocol kdfProfile accountSalt authVerifierProfile
      authVerifierSalt authVerifierIterations serverNonce combinedNonce expiresAt =>
      some (.obj [("login_challenge_id", .str loginChallengeId.toText),
        ("auth_protocol", .str authProtocol), ("kdf_profile", kdfProfile),
        ("account_salt", .str accountSalt), ("auth_verifier_profile", .str authVerifierProfile),
        ("auth_verifier_salt", .str authVerifierSalt),
        ("auth_verifier_iterations", .ofInt authVerifierIterations),
        ("server_nonce", .str serverNonce), ("combined_nonce", .str combinedNonce),
        ("expires_at", .str expiresAt)])
  | .loginFinishMfaRequired result mfaChallengeId availableMethods expiresAt =>
      some (.obj [("result", .str result), ("mfa_challenge_id", .str mfaChallengeId.toText),
        ("available_methods", .arr (availableMethods.map .str)), ("expires_at", .str expiresAt)])
  | .loginFinishSessionCreated result session nextStep
  | .recoveryCodeVerify result session nextStep =>
      some (.obj [("result", .str result), ("session", session.toJson),
        ("next_step", .str nextStep)])
  | .totpVerify result session =>
      some (.obj [("result", .str result), ("session", session.toJson)])
  | .authenticatedSession accountId deviceId sessionState vaultAccess idleExpiresAt
      absoluteExpiresAt =>
      some (.obj [("authenticated", .bool true), ("account_id", .str accountId.toText),
        ("device_id", (deviceId.map fun id => Json.str id.toText).getD .null),
        ("session_state", .str sessionState), ("vault_access", .bool vaultAccess),
        ("idle_expires_at", .str idleExpiresAt), ("absolute_expires_at", .str absoluteExpiresAt)])
  | .unauthenticatedSession => some (.obj [("authenticated", .bool false)])
  | .csrfToken token expiresAt =>
      some (.obj [("csrf_token", .str token), ("expires_at", .str expiresAt)])
  | .totpEnrollStart factorId status totpProfile otpauthUri manualSecret expiresAt =>
      some (.obj [("factor_id", .str factorId.toText), ("status", .str status),
        ("totp_profile", totpProfile.toJson), ("otpauth_uri", .str otpauthUri),
        ("manual_secret", .str manualSecret), ("expires_at", .str expiresAt)])
  | .totpEnrollConfirm factorId status session recoveryCodes =>
      some (.obj [("factor_id", .str factorId.toText), ("status", .str status),
        ("session", session.toJson), ("recovery_codes", .arr (recoveryCodes.map .str))])
  | .vaultList vaults => some (.obj [("vaults", .arr (vaults.map VaultResponse.toJson))])
  | .sync fromHead toHead hasMore changes =>
      some (.obj [("from_head", fromHead.toJson), ("to_head", toHead.toJson),
        ("has_more", .bool hasMore), ("changes", .arr (changes.map SyncChangeResponse.toJson))])
  | .itemRevisionWrite itemId revisionId revisionSeq headSeq headHash =>
      some (.obj [("item_id", .str itemId.toText), ("revision_id", .str revisionId.toText),
        ("revision_seq", .ofInt revisionSeq), ("head_seq", .ofInt headSeq),
        ("head_hash", .str headHash)])
  | .vaultConflict code message currentHead =>
      some (.obj [("error", errorJson code message), ("current_head", currentHead.toJson)])
  | .empty => none

/-! ## Requests -/

def EncryptedEnvelopeRequest.toJson (r : EncryptedEnvelopeRequest) : Json :=
  .obj [("crypto_version", .str r.cryptoVersion), ("key_id", .str r.keyId),
    ("nonce", .str r.nonce), ("ciphertext", .str r.ciphertext)]

def DeviceRequest.toJson (r : DeviceRequest) : Json :=
  .obj [("label", .str r.label), ("client_type", .str r.clientType),
    ("public_metadata", r.publicMetadata)]

def InitialVaultRequest.toJson (r : InitialVaultRequest) : Json :=
  .obj [("vault_id", .str r.vaultId.toText), ("encrypted_vault_key", r.encryptedVaultKey.toJson)]

def RegisterFinishRequest.toJson (r : RegisterFinishRequest) : Json :=
  .obj [("registration_id", .str r.registrationId.toText), ("auth_protocol", .str r.authProtocol),
    ("auth_stored_key", .str r.authStoredKey), ("auth_server_key", .str r.authServerKey),
    ("encrypted_account_keyset", r.encryptedAccountKeyset.toJson),
    ("initial_vault", r.initialVault.toJson), ("device", r.device.toJson)]

def LoginFinishRequest.toJson (r : LoginFinishRequest) : Json :=
  .obj [("login_challenge_id", .str r.loginChallengeId.toText),
    ("auth_protocol", .str r.authProtocol), ("client_nonce", .str r.clientNonce),
    ("server_nonce", .str r.serverNonce),
    ("client_final_without_proof", .str r.clientFinalWithoutProof),
    ("client_proof", .str r.clientProof), ("device", r.device.toJson)]

lemma EncryptedEnvelopeRequest.toJson_injective :
    Function.Injective EncryptedEnvelopeRequest.toJson := by
  rintro ⟨version, keyId, nonce, ciphertext⟩ ⟨version', keyId', nonce', ciphertext'⟩ h
  simpa [toJson] using h

lemma DeviceRequest.toJson_injective : Function.Injective DeviceRequest.toJson := by
  rintro ⟨label, clientType, metadata⟩ ⟨label', clientType', metadata'⟩ h
  simpa [toJson] using h

lemma InitialVaultRequest.toJson_injective : Function.Injective InitialVaultRequest.toJson := by
  rintro ⟨vaultId, key⟩ ⟨vaultId', key'⟩ h
  simp only [toJson, Json.obj.injEq, List.cons.injEq, Prod.mk.injEq, Json.str.injEq, true_and,
    and_true] at h
  rw [Uuid.toText_injective h.1, EncryptedEnvelopeRequest.toJson_injective h.2]

/-- A request is determined by what is sent. -/
lemma RegisterFinishRequest.toJson_injective :
    Function.Injective RegisterFinishRequest.toJson := by
  rintro ⟨id, protocol, stored, server, keyset, vault, device⟩
    ⟨id', protocol', stored', server', keyset', vault', device'⟩ h
  simp only [toJson, Json.obj.injEq, List.cons.injEq, Prod.mk.injEq, Json.str.injEq, true_and,
    and_true] at h
  obtain ⟨hid, rfl, rfl, rfl, hkeyset, hvault, hdevice⟩ := h
  rw [Uuid.toText_injective hid, EncryptedEnvelopeRequest.toJson_injective hkeyset,
    InitialVaultRequest.toJson_injective hvault, DeviceRequest.toJson_injective hdevice]

lemma LoginFinishRequest.toJson_injective : Function.Injective LoginFinishRequest.toJson := by
  rintro ⟨id, protocol, client, server, final, proof, device⟩
    ⟨id', protocol', client', server', final', proof', device'⟩ h
  simp only [toJson, Json.obj.injEq, List.cons.injEq, Prod.mk.injEq, Json.str.injEq, true_and,
    and_true] at h
  obtain ⟨hid, rfl, rfl, rfl, rfl, rfl, hdevice⟩ := h
  rw [Uuid.toText_injective hid, DeviceRequest.toJson_injective hdevice]

/-! ## Equal values -/

mutual

/-- Values that compare equal are. -/
lemma Json.eq_of_same : ∀ {v w : Json}, v.same w = true → v = w
  | .null, .null, _ => rfl
  | .bool _, .bool _, h => congrArg Json.bool (eq_of_beq h)
  | .num _, .num _, h => congrArg Json.num (eq_of_beq h)
  | .str _, .str _, h => congrArg Json.str (eq_of_beq h)
  | .arr _, .arr _, h => congrArg Json.arr (Json.eq_of_sameItems h)
  | .obj _, .obj _, h => congrArg Json.obj (Json.eq_of_sameMembers h)

lemma Json.eq_of_sameItems : ∀ {vs ws : List Json}, Json.sameItems vs ws = true → vs = ws
  | [], [], _ => rfl
  | _ :: _, _ :: _, h => by
      obtain ⟨hv, hvs⟩ := Bool.and_eq_true_iff.mp h
      rw [Json.eq_of_same hv, Json.eq_of_sameItems hvs]

lemma Json.eq_of_sameMembers :
    ∀ {vs ws : List (String × Json)}, Json.sameMembers vs ws = true → vs = ws
  | [], [], _ => rfl
  | (_, _) :: _, (_, _) :: _, h => by
      obtain ⟨hv, hvs⟩ := Bool.and_eq_true_iff.mp h
      obtain ⟨hk, hv⟩ := Bool.and_eq_true_iff.mp hv
      rw [eq_of_beq hk, Json.eq_of_same hv, Json.eq_of_sameMembers hvs]

end

end PasswordVault
