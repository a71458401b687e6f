import PasswordVault.Library.Tables
import PasswordVault.Server.Http

/-!
# The database schema

The tables of the migrations, with the columns that the handlers read or write.

* One row type for each table, with its check constraints (`Account.check` and so on).
* `Db`: the tables; the audit log is a list, it is only ever appended to.
* `Lock`: a row lock, or an entry of a unique index; `Db` is `Lockable`.
* One `Table` for each table: `accounts`, `devices`, `authChallenges` and so on.
-/

namespace PasswordVault

open Transactions

def AUTH_PROTOCOL : String := "derived-auth-v1"
def PROFILE_ID : String := "pv-scram-sha-256-v1"
def DEFAULT_ITERATIONS : Nat := 150000
def DEFAULT_SALT_BYTES : Nat := 32

def PBKDF2_BROWSER_PROFILE_ID : String := "pbkdf2-sha256-browser-v1"
def PBKDF2_BROWSER_ITERATIONS : Nat := 600000

def defaultKdfProfile : Json :=
  .obj [("id", .str PBKDF2_BROWSER_PROFILE_ID), ("algorithm", .str "PBKDF2-HMAC-SHA-256"),
    ("iterations", .num (.int PBKDF2_BROWSER_ITERATIONS)), ("hash", .str "SHA-256")]

/-- `length(btrim(s)) > 0`. -/
def nonBlank (s : String) : Bool := s.toList.any (· ≠ ' ')

/-! ## Rows -/

structure Account where
  id : Uuid
  loginHandleNormalized : String
  authProtocol : String
  kdfProfile : Json
  accountSalt : Bytes
  authVerifierProfile : String
  authVerifierSalt : Bytes
  authVerifierIterations : Int
  authStoredKey : Bytes
  authServerKey : Bytes

def Account.check (a : Account) : Bool :=
  a.accountSalt.length == 32 && a.authVerifierSalt.length == 32 &&
    a.authVerifierIterations == 150000 && a.authStoredKey.length == 32 &&
    a.authServerKey.length == 32 && nonBlank a.loginHandleNormalized &&
    (a.authProtocol == "derived-auth-v1" || a.authProtocol == "opaque-rfc9807-v1") &&
    a.authVerifierProfile == "pv-scram-sha-256-v1" && a.kdfProfile.same defaultKdfProfile

structure Device where
  id : Uuid
  accountId : Uuid
  displayName : String
  clientType : String
  publicMetadata : Json
  lastSeenAt : Option Time := none
  revokedAt : Option Time := none

def isClientType (s : String) : Bool :=
  s == "browser" || s == "browser-extension" || s == "ios" || s == "android" || s == "cli"

def Device.check (d : Device) : Bool :=
  nonBlank d.displayName && isClientType d.clientType && d.publicMetadata.isObject &&
    d.publicMetadata.storable

/-- What a register challenge remembers in its `public_metadata`. -/
structure RegisterChallengeMetadata where
  kdfProfile : Json
  accountSalt : String
  authVerifierProfile : String
  authVerifierSalt : String
  authVerifierIterations : Nat

structure LoginChallengeMetadata where
  clientNonce : String
  serverNonce : String
  combinedNonce : String
  authVerifierProfile : String
  authVerifierIterations : Nat
  synthetic : Bool

structure DeviceChallengeMetadata where
  label : String
  clientType : String
  publicMetadata : Json

structure PreMfaChallengeMetadata where
  loginChallengeId : Uuid
  device : DeviceChallengeMetadata

/-- The `public_metadata` column of a challenge. None of the three shapes reads as another. -/
inductive ChallengeMetadata where
  | register (m : RegisterChallengeMetadata)
  | login (m : LoginChallengeMetadata)
  | preMfa (m : PreMfaChallengeMetadata)

def ChallengeMetadata.storable : ChallengeMetadata → Bool
  | .preMfa m => Json.storableText m.device.label && m.device.publicMetadata.storable
  | _ => true

inductive ChallengeType where
  | register
  | login
  | preMfa
  deriving DecidableEq

structure AuthChallenge where
  id : Uuid
  accountId : Option Uuid
  loginHandleNormalized : String
  challengeType : ChallengeType
  authProtocol : String
  serverNonce : Bytes
  publicMetadata : ChallengeMetadata
  attempts : Int := 0
  expiresAt : Time
  consumedAt : Option Time := none
  createdAt : Time

def AuthChallenge.check (c : AuthChallenge) : Bool :=
  c.serverNonce.length == 32 && decide (0 ≤ c.attempts) && nonBlank c.loginHandleNormalized &&
    (c.authProtocol == "derived-auth-v1" || c.authProtocol == "opaque-rfc9807-v1") &&
    c.publicMetadata.storable

structure TotpFactor where
  id : Uuid
  accountId : Uuid
  seedCiphertext : Bytes
  seedNonce : Bytes
  seedKeyId : String
  seedAead : String
  algorithm : String
  digits : Int
  periodSeconds : Int
  lastAcceptedStep : Option Int
  verifiedAt : Option Time
  updatedAt : Time

def TotpFactor.check (f : TotpFactor) : Bool :=
  decide (0 < f.seedCiphertext.length) && decide (12 ≤ f.seedNonce.length) &&
    nonBlank f.seedKeyId && nonBlank f.seedAead &&
    (f.algorithm == "SHA1" || f.algorithm == "SHA256" || f.algorithm == "SHA512") &&
    (f.digits == 6 || f.digits == 8) && decide (0 < f.periodSeconds) &&
    f.lastAcceptedStep.all fun n => decide (0 ≤ n)

structure RecoveryCode where
  id : Uuid
  accountId : Uuid
  codeSalt : Bytes
  codeHash : Bytes
  usedAt : Option Time := none

def RecoveryCode.check (c : RecoveryCode) : Bool :=
  decide (16 ≤ c.codeSalt.length) && decide (32 ≤ c.codeHash.length)

inductive SessionState where
  | mfaEnrollmentRequired
  | mfaRecovery
  | mfaVerified
  deriving DecidableEq

def SessionState.toText : SessionState → String
  | .mfaEnrollmentRequired => "mfa_enrollment_required"
  | .mfaRecovery => "mfa_recovery"
  | .mfaVerified => "mfa_verified"

structure Session where
  id : Uuid
  accountId : Uuid
  deviceId : Option Uuid
  sessionTokenHash : Bytes
  csrfTokenHash : Option Bytes
  sessionState : SessionState
  lastSeenAt : Option Time := none
  expiresAt : Time
  idleExpiresAt : Time
  absoluteExpiresAt : Time
  revokedAt : Option Time := none

def Session.check (s : Session) : Bool :=
  s.sessionTokenHash.length == 32 && (s.csrfTokenHash.all fun h => h.length == 32) &&
    decide (s.idleExpiresAt ≤ s.absoluteExpiresAt)

structure AccountKeyset where
  id : Uuid
  accountId : Uuid
  cryptoVersion : String
  keyId : String
  nonce : Bytes
  ciphertext : Bytes

def AccountKeyset.check (k : AccountKeyset) : Bool :=
  k.nonce.length == 12 && decide (0 < k.ciphertext.length) &&
    k.cryptoVersion == "account-keyset-v1" && nonBlank k.keyId

structure Vault where
  id : Uuid
  accountId : Uuid
  cryptoProfileId : String
  headSeq : Int := 0
  genesisHeadHash : Bytes
  headHash : Bytes
  createdAt : Time
  updatedAt : Time

def Vault.check (v : Vault) : Bool :=
  v.genesisHeadHash.length == 32 && v.headHash.length == 32 && nonBlank v.cryptoProfileId &&
    decide (0 ≤ v.headSeq)

structure VaultKeyWrap where
  id : Uuid
  vaultId : Uuid
  accountId : Uuid
  keyId : String
  cryptoVersion : String
  nonce : Bytes
  ciphertext : Bytes

def VaultKeyWrap.check (w : VaultKeyWrap) : Bool :=
  w.nonce.length == 12 && decide (0 < w.ciphertext.length) &&
    w.cryptoVersion == "vault-key-wrap-v1" && nonBlank w.keyId

structure VaultItem where
  id : Uuid
  vaultId : Uuid
  latestRevisionId : Option Uuid := none
  latestRevisionSeq : Int := 0
  deletedAt : Option Time := none
  updatedAt : Time

def VaultItem.check (i : VaultItem) : Bool := decide (0 ≤ i.latestRevisionSeq)

inductive Operation where
  | create
  | update
  | delete
  deriving DecidableEq

def Operation.toText : Operation → String
  | .create => "create"
  | .update => "update"
  | .delete => "delete"

structure VaultItemRevision where
  id : Uuid
  vaultId : Uuid
  itemId : Uuid
  operation : Operation
  revisionSeq : Int
  baseRevisionSeq : Int
  headSeq : Int
  baseHeadSeq : Int
  baseHeadHash : Bytes
  previousHeadHash : Bytes
  headHash : Bytes
  changeMac : Bytes
  keyId : String
  cryptoVersion : String
  envelopeHash : Bytes
  encryptedItemEnvelope : EncryptedItemEnvelope

def VaultItemRevision.check (r : VaultItemRevision) : Bool :=
  r.baseHeadHash.length == 32 && r.previousHeadHash.length == 32 && r.headHash.length == 32 &&
    r.changeMac.length == 32 && r.envelopeHash.length == 32 && decide (0 < r.revisionSeq) &&
    decide (0 ≤ r.baseRevisionSeq) && decide (0 < r.headSeq) && decide (0 ≤ r.baseHeadSeq) &&
    r.headSeq == r.baseHeadSeq + 1 && r.baseHeadHash == r.previousHeadHash &&
    nonBlank r.keyId && nonBlank r.cryptoVersion &&
    (r.operation == .create && r.revisionSeq == 1 && r.baseRevisionSeq == 0 ||
      (r.operation == .update || r.operation == .delete) &&
        decide (r.baseRevisionSeq < r.revisionSeq) && decide (0 < r.baseRevisionSeq))

structure AuditEvent where
  accountId : Option Uuid
  actorDeviceId : Option Uuid
  eventType : String
  eventMetadata : Json

/-! ## The database -/

structure Db where
  accounts : Rows Uuid Account Account.id := {}
  devices : Rows Uuid Device Device.id := {}
  authChallenges : Rows Uuid AuthChallenge AuthChallenge.id := {}
  totpFactors : Rows Uuid TotpFactor TotpFactor.id := {}
  recoveryCodes : Rows Uuid RecoveryCode RecoveryCode.id := {}
  sessions : Rows Uuid Session Session.id := {}
  accountKeysets : Rows Uuid AccountKeyset AccountKeyset.id := {}
  vaults : Rows Uuid Vault Vault.id := {}
  vaultKeyWraps : Rows Uuid VaultKeyWrap VaultKeyWrap.id := {}
  vaultItems : Rows Uuid VaultItem VaultItem.id := {}
  vaultItemRevisions : Rows Uuid VaultItemRevision VaultItemRevision.id := {}
  auditEvents : List AuditEvent := []

inductive TableName where
  | accounts | devices | authChallenges | totpFactors | recoveryCodes | sessions | accountKeysets
  | vaults | vaultKeyWraps | vaultItems | vaultItemRevisions
  deriving DecidableEq

/-- A lock: on a row, or on an entry of a unique index. -/
inductive Lock where
  | row (table : TableName) (id : Uuid)
  | loginHandle (handle : String)
  | sessionToken (hash : Bytes)
  | factorOf (accountId : Uuid)
  | codeHash (accountId : Uuid) (hash : Bytes)
  | keysetKey (accountId : Uuid) (keyId : String)
  | wrapKey (vaultId accountId : Uuid) (keyId : String)
  | headSeq (vaultId : Uuid) (seq : Int)
  | revisionSeq (vaultId itemId : Uuid) (seq : Int)
  deriving DecidableEq

def accountIndex : Index Uuid Account Lock where
  key := Account.id
  rowLock := .row .accounts
  entries a := [.loginHandle a.loginHandleNormalized]

def deviceIndex : Index Uuid Device Lock where
  key := Device.id
  rowLock := .row .devices
  entries _ := []

def authChallengeIndex : Index Uuid AuthChallenge Lock where
  key := AuthChallenge.id
  rowLock := .row .authChallenges
  entries _ := []

def totpFactorIndex : Index Uuid TotpFactor Lock where
  key := TotpFactor.id
  rowLock := .row .totpFactors
  entries f := [.factorOf f.accountId]

def recoveryCodeIndex : Index Uuid RecoveryCode Lock where
  key := RecoveryCode.id
  rowLock := .row .recoveryCodes
  entries c := [.codeHash c.accountId c.codeHash]

def sessionIndex : Index Uuid Session Lock where
  key := Session.id
  rowLock := .row .sessions
  entries s := [.sessionToken s.sessionTokenHash]

def accountKeysetIndex : Index Uuid AccountKeyset Lock where
  key := AccountKeyset.id
  rowLock := .row .accountKeysets
  entries k := [.keysetKey k.accountId k.keyId]

def vaultIndex : Index Uuid Vault Lock where
  key := Vault.id
  rowLock := .row .vaults
  entries _ := []

def vaultKeyWrapIndex : Index Uuid VaultKeyWrap Lock where
  key := VaultKeyWrap.id
  rowLock := .row .vaultKeyWraps
  entries w := [.wrapKey w.vaultId w.accountId w.keyId]

def vaultItemIndex : Index Uuid VaultItem Lock where
  key := VaultItem.id
  rowLock := .row .vaultItems
  entries _ := []

def vaultItemRevisionIndex : Index Uuid VaultItemRevision Lock where
  key := VaultItemRevision.id
  rowLock := .row .vaultItemRevisions
  entries r := [.headSeq r.vaultId r.headSeq, .revisionSeq r.vaultId r.itemId r.revisionSeq]

/-- What a lock protects between two states: its part of each table. -/
structure Db.Keeps (l : Lock) (s s' : Db) : Prop where
  accounts : accountIndex.Respects l s.accounts s'.accounts
  devices : deviceIndex.Respects l s.devices s'.devices
  authChallenges : authChallengeIndex.Respects l s.authChallenges s'.authChallenges
  totpFactors : totpFactorIndex.Respects l s.totpFactors s'.totpFactors
  recoveryCodes : recoveryCodeIndex.Respects l s.recoveryCodes s'.recoveryCodes
  sessions : sessionIndex.Respects l s.sessions s'.sessions
  accountKeysets : accountKeysetIndex.Respects l s.accountKeysets s'.accountKeysets
  vaults : vaultIndex.Respects l s.vaults s'.vaults
  vaultKeyWraps : vaultKeyWrapIndex.Respects l s.vaultKeyWraps s'.vaultKeyWraps
  vaultItems : vaultItemIndex.Respects l s.vaultItems s'.vaultItems
  vaultItemRevisions :
    vaultItemRevisionIndex.Respects l s.vaultItemRevisions s'.vaultItemRevisions

lemma Db.Keeps.refl (l : Lock) (s : Db) : Db.Keeps l s s :=
  ⟨.refl l _, .refl l _, .refl l _, .refl l _, .refl l _, .refl l _, .refl l _, .refl l _,
    .refl l _, .refl l _, .refl l _⟩

instance : Lockable Db Lock where
  Keeps := Db.Keeps
  refl := Db.Keeps.refl
  trans h h' :=
    ⟨h.1.trans h'.1, h.2.trans h'.2, h.3.trans h'.3, h.4.trans h'.4, h.5.trans h'.5,
      h.6.trans h'.6, h.7.trans h'.7, h.8.trans h'.8, h.9.trans h'.9, h.10.trans h'.10,
      h.11.trans h'.11⟩

/-! ## The tables -/

/-- The account of a row exists. -/
def Db.hasAccount (s : Db) (id : Uuid) : Bool := (s.accounts.find? id).isSome

def accounts : Table Db Lock Uuid Account where
  index := accountIndex
  get := Db.accounts
  set s t := { s with accounts := t }
  check := Account.check
  get_set _ _ := rfl
  set_get _ := rfl
  keeps l s _ h := { Db.Keeps.refl l s with accounts := h }
  respects _ _ _ h := h.accounts

def devices : Table Db Lock Uuid Device where
  index := deviceIndex
  get := Db.devices
  set s t := { s with devices := t }
  check := Device.check
  refers s d := s.hasAccount d.accountId
  get_set _ _ := rfl
  set_get _ := rfl
  keeps l s _ h := { Db.Keeps.refl l s with devices := h }
  respects _ _ _ h := h.devices

def authChallenges : Table Db Lock Uuid AuthChallenge where
  index := authChallengeIndex
  get := Db.authChallenges
  set s t := { s with authChallenges := t }
  check := AuthChallenge.check
  refers s c := c.accountId.all s.hasAccount
  get_set _ _ := rfl
  set_get _ := rfl
  keeps l s _ h := { Db.Keeps.refl l s with authChallenges := h }
  respects _ _ _ h := h.authChallenges

def totpFactors : Table Db Lock Uuid TotpFactor where
  index := totpFactorIndex
  get := Db.totpFactors
  set s t := { s with totpFactors := t }
  check := TotpFactor.check
  refers s f := s.hasAccount f.accountId
  get_set _ _ := rfl
  set_get _ := rfl
  keeps l s _ h := { Db.Keeps.refl l s with totpFactors := h }
  respects _ _ _ h := h.totpFactors

def recoveryCodes : Table Db Lock Uuid RecoveryCode where
  index := recoveryCodeIndex
  get := Db.recoveryCodes
  set s t := { s with recoveryCodes := t }
  check := RecoveryCode.check
  refers s c := s.hasAccount c.accountId
  get_set _ _ := rfl
  set_get _ := rfl
  keeps l s _ h := { Db.Keeps.refl l s with recoveryCodes := h }
  respects _ _ _ h := h.recoveryCodes

/-- A session may name a device of its own account. -/
def Db.hasDevice (s : Db) (accountId deviceId : Uuid) : Bool :=
  (s.devices.find? deviceId).any fun d => d.accountId == accountId

def sessions : Table Db Lock Uuid Session where
  index := sessionIndex
  get := Db.sessions
  set s t := { s with sessions := t }
  check := Session.check
  refers s r := s.hasAccount r.accountId && r.deviceId.all (s.hasDevice r.accountId)
  get_set _ _ := rfl
  set_get _ := rfl
  keeps l s _ h := { Db.Keeps.refl l s with sessions := h }
  respects _ _ _ h := h.sessions

def accountKeysets : Table Db Lock Uuid AccountKeyset where
  index := accountKeysetIndex
  get := Db.accountKeysets
  set s t := { s with accountKeysets := t }
  check := AccountKeyset.check
  refers s k := s.hasAccount k.accountId
  get_set _ _ := rfl
  set_get _ := rfl
  keeps l s _ h := { Db.Keeps.refl l s with accountKeysets := h }
  respects _ _ _ h := h.accountKeysets

def vaults : Table Db Lock Uuid Vault where
  index := vaultIndex
  get := Db.vaults
  set s t := { s with vaults := t }
  check := Vault.check
  refers s v := s.hasAccount v.accountId
  get_set _ _ := rfl
  set_get _ := rfl
  keeps l s _ h := { Db.Keeps.refl l s with vaults := h }
  respects _ _ _ h := h.vaults

def vaultKeyWraps : Table Db Lock Uuid VaultKeyWrap where
  index := vaultKeyWrapIndex
  get := Db.vaultKeyWraps
  set s t := { s with vaultKeyWraps := t }
  check := VaultKeyWrap.check
  refers s w := ((s.vaults.find? w.vaultId).any fun v => v.accountId == w.accountId) &&
    s.accountKeysets.list.any fun k => k.accountId == w.accountId && k.keyId == w.keyId
  get_set _ _ := rfl
  set_get _ := rfl
  keeps l s _ h := { Db.Keeps.refl l s with vaultKeyWraps := h }
  respects _ _ _ h := h.vaultKeyWraps

def vaultItems : Table Db Lock Uuid VaultItem where
  index := vaultItemIndex
  get := Db.vaultItems
  set s t := { s with vaultItems := t }
  check := VaultItem.check
  refers s i := (s.vaults.find? i.vaultId).isSome &&
    i.latestRevisionId.all fun r =>
      (s.vaultItemRevisions.find? r).any fun x => x.vaultId == i.vaultId && x.itemId == i.id
  get_set _ _ := rfl
  set_get _ := rfl
  keeps l s _ h := { Db.Keeps.refl l s with vaultItems := h }
  respects _ _ _ h := h.vaultItems

def vaultItemRevisions : Table Db Lock Uuid VaultItemRevision where
  index := vaultItemRevisionIndex
  get := Db.vaultItemRevisions
  set s t := { s with vaultItemRevisions := t }
  check := VaultItemRevision.check
  refers s r := (s.vaultItems.find? r.itemId).any fun i => i.vaultId == r.vaultId
  get_set _ _ := rfl
  set_get _ := rfl
  keeps l s _ h := { Db.Keeps.refl l s with vaultItemRevisions := h }
  respects _ _ _ h := h.vaultItemRevisions

/-- `INSERT INTO audit_events`. -/
def appendAudit (e : AuditEvent) : Statement Db Lock Unit where
  exec _ _ := .ok ⟨(), fun s => { s with auditEvents := s.auditEvents ++ [e] }, []⟩
  frame h l _ s := by
    obtain rfl := Except.ok.inj h
    exact { Db.Keeps.refl l s with }

end PasswordVault
