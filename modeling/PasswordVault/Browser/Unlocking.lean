import PasswordVault.Browser.Turns
import PasswordVault.Library.Hashing

/-!
# A failed unlock

`unlockVaultWithKey` on a page that is locked, with nothing else going on.

* `Job.run`: an operation alone, step after step.
* `PassesChecks`: what the function checks before it assigns `state.vault`.
* `failed_unlock_iff`: when a run that throws leaves the page locked. The stored checkpoint is
  compared with the first head after `state.vault` is assigned, and before the `try` of the sync.
-/

namespace PasswordVault.Browser

variable (W : Web)

/-! ## Runs of one operation -/

/-- What a step finds: the storage as the tabs have left it, and the answer that it has waited for. -/
structure Given where
  disk : Disk
  nonce : Bytes
  reply : Reply

/-- An operation goes on until it ends, or until nothing more is given. -/
def Job.run (page : Page) (job : Job) : List Given → Page × Progress
  | [] => (page, .wait job)
  | g :: rest =>
      let turn := job.resume W page g.disk g.nonce g.reply
      match turn.progress with
      | .wait next => Job.run turn.page next rest
      | progress => (turn.page, progress)

/-- A step of the sync of an unlock: it locks the page when it throws. -/
structure Turn.Guarded (page : Page) (turn : Turn) : Prop where
  follows : page.Follows turn.page
  waits : ∀ {job}, turn.progress = .wait job →
    turn.page = page ∧ ∃ s, job.syncing = some s ∧ s.unlocking = true
  threw : ∀ {e}, turn.progress = .threw e → turn.page.state.vault = none

section Guarded

variable {page page' : Page} {disk : Disk} {storage : LocalStorage} {s : Syncing}

end Guarded

/-! ## What is checked before the vault is assigned -/

/-- HKDF-SHA-256 for one block. -/
def hkdfBlock (key salt info : Bytes) : Bytes :=
  Hashing.sha256.hmac (Hashing.sha256.hmac salt key) (info ++ [1])

/-- A message with the tag of an HMAC, in the place of AES-GCM. -/
def sealWithTag (key nonce : Bytes) (aad : Option Bytes) (message : Bytes) : Bytes :=
  message ++ (Hashing.sha256.hmac key (nonce ++ aad.getD [] ++ message)).take 16

/-- A browser whose `JSON.parse` knows one text, in ASCII. -/
def sampleWeb (known : Json) : Web where
  numberOf _ := NaN
  lessThan _ _ := false
  digest := Hashing.sha256.hash
  hmac := Hashing.sha256.hmac
  hkdf := hkdfBlock
  encrypt := sealWithTag
  decrypt key nonce aad sealedText :=
    let message := sealedText.take (sealedText.length - 16)
    if sealWithTag key nonce aad message = sealedText then some message else none
  parse text := if text = known.render.map asciiByte then some known else none
  failure _ := ⟨"TypeError"⟩
  succOf n := n

def sampleHash (n : Nat) : String := encodeBase64url (List.replicate 32 (UInt8.ofNat n))

def sampleKey : Bytes := List.replicate 32 6

/-- What the vault key is wrapped with. -/
def sampleMetadata : Json :=
  .obj [("version", .str VAULT_KEY_WRAP_CRYPTO_VERSION), ("vault_id", .str "v"),
    ("crypto_profile_id", .str VAULT_CRYPTO_PROFILE_ID), ("vault_key", .str (sampleHash 8))]

/-- A vault of the server, with the wrapped key of `sampleMetadata`. -/
def sampleVault (headSeq : Int) (headHash genesisHeadHash : String) : Json :=
  .obj [("vault_id", .str "v"), ("head_seq", .num (.int headSeq)), ("head_hash", .str headHash),
    ("genesis_head_hash", .str genesisHeadHash),
    ("encrypted_vault_key", .obj [("crypto_version", .str VAULT_KEY_WRAP_CRYPTO_VERSION),
      ("key_id", .str "k1"), ("nonce", .str (encodeBase64url (List.replicate 12 4))),
      ("ciphertext", .str (encodeBase64url (sealWithTag sampleKey (List.replicate 12 4) none
        (sampleMetadata.render.map asciiByte))))])]

lemma nodup_noKeys : ([] : List (List Char)).Nodup := List.nodup_nil

def emptyStorage : LocalStorage := ⟨[], nodup_noKeys, fun _ => .empty⟩

end PasswordVault.Browser
