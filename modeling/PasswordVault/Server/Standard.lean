import PasswordVault.Library.Aead
import PasswordVault.Library.Schedules
import PasswordVault.Server.Service

/-!
# The service with its real primitives

* `standard`: the platform with the hash functions, the cipher and the date format that the server
  is built with.
* `draws`: what the requests of a run draw; `Fresh` between two of them is a matter of their tokens.
* `Client`: the requests of a browser of one account, each from what the browser holds when it sends
  it.
* `serveAll`: the service after some requests, one after the other; it is reachable.
* `takeTurns`: the service after some more requests that run their statements in turns.
* `firstItem`: the run of a client that registers, enrolls a factor and stores an item.
-/

namespace PasswordVault

open Transactions

/-! ## Dates -/

/-- Year, month and day of a day counted from 1 January 1970, by eras of 400 years. -/
def civilFromDays (days : Int) : Int × Int × Int :=
  let z := days + 719468
  let era := z / 146097
  let dayOfEra := z % 146097
  let yearOfEra := (dayOfEra - dayOfEra / 1460 + dayOfEra / 36524 - dayOfEra / 146096) / 365
  let dayOfYear := dayOfEra - (365 * yearOfEra + yearOfEra / 4 - yearOfEra / 100)
  let m := (5 * dayOfYear + 2) / 153
  let month := if m < 10 then m + 3 else m - 9
  (yearOfEra + era * 400 + (if month ≤ 2 then 1 else 0), month, dayOfYear - (153 * m + 2) / 5 + 1)

/-- The decimal digits of a number, with leading zeros. -/
def padDigits (width : Nat) (n : Int) : List Char :=
  let ds := (toString n.toNat).toList
  List.replicate (width - ds.length) '0' ++ ds

/-- The RFC 3339 text of a time in UTC; there is none for a year before 0 or after 9999. -/
def rfc3339 (t : Time) : Option String :=
  let second := t / 1000000
  let (year, month, day) := civilFromDays (second / 86400)
  let fraction := (padDigits 6 (t % 1000000)).reverse.dropWhile (· = '0') |>.reverse
  if 0 ≤ year ∧ year ≤ 9999 then
    some (String.ofList (padDigits 4 year ++ '-' :: padDigits 2 month ++ '-' :: padDigits 2 day ++
      'T' :: padDigits 2 (second % 86400 / 3600) ++ ':' :: padDigits 2 (second % 3600 / 60) ++
      ':' :: padDigits 2 (second % 60) ++ (if fraction.isEmpty then [] else '.' :: fraction) ++
      ['Z']))
  else none

/-- From 1970 to 9599 the year has four digits. -/
lemma civilFromDays_year {days : Int} (h0 : 0 ≤ days) (h : days < 2786860) :
    0 ≤ (civilFromDays days).1 ∧ (civilFromDays days).1 ≤ 9999 := by
  unfold civilFromDays
  dsimp only
  have hera : 4 ≤ (days + 719468) / 146097 ∧ (days + 719468) / 146097 ≤ 23 := by omega
  have hday : 0 ≤ (days + 719468) % 146097 ∧ (days + 719468) % 146097 < 146097 := by omega
  generalize (days + 719468) / 146097 = era at hera ⊢
  generalize (days + 719468) % 146097 = dayOfEra at hday ⊢
  have hyear : 0 ≤ (dayOfEra - dayOfEra / 1460 + dayOfEra / 36524 - dayOfEra / 146096) / 365 ∧
      (dayOfEra - dayOfEra / 1460 + dayOfEra / 36524 - dayOfEra / 146096) / 365 ≤ 400 := by omega
  constructor <;> split <;> omega

/-- Every time from 1970 to 9599 has a text. -/
lemma rfc3339_isSome {t : Int} (h0 : 0 ≤ t) (h : t < 240784704000 * 1000000) :
    (rfc3339 t).isSome = true := by
  have hyear := @civilFromDays_year (t / 1000000 / 86400) (by omega) (by omega)
  unfold rfc3339
  dsimp only
  rw [if_pos hyear]
  rfl

/-! ## The platform -/

/-- The primitives that the server is built with. -/
def standard : Platform where
  sha256 := Hashing.sha256.hash
  hmacSha1 := Hashing.sha1.hmac
  hmacSha256 := Hashing.sha256.hmac
  hmacSha512 := Hashing.sha512.hmac
  encrypt key nonce aad m := some (Aead.xchacha20Poly1305.encrypt key nonce aad m)
  decrypt key nonce aad c := Aead.xchacha20Poly1305.decrypt key nonce aad c
  rfc3339 := rfc3339
  rereadFloat text := text
  sha256_length := Hashing.sha256.hash_length
  hmacSha1_length := Hashing.sha1.hmac_length
  hmacSha256_length := Hashing.sha256.hmac_length
  hmacSha512_length := Hashing.sha512.hmac_length

/-- A configuration with both keys. -/
def configured : AppState where
  database := true
  syntheticMetadataKey := some (List.replicate 32 7)
  totpSeedKey := some (List.replicate 32 9)

/-! ## Draws -/

/-- The bytes that request `n` of a run draws at place `i`: its token is the same at every place,
anything else depends on the place. -/
def drawnBytes (n : Nat) (i : Fin 32) (k : Nat) : Bytes :=
  (List.range k).map fun j =>
    if k = TOKEN_LEN then UInt8.ofNat (7 * n + j + 1) else UInt8.ofNat (32 * n + i.val + 3 * j + 5)

/-- What request `n` of a run draws when both clocks show `time`. -/
def draws (n : Nat) (time : Time) : Draws where
  clock _ := time
  dbClock := time
  uuid i := BitVec.ofNat 128 (16 * n + i.val + 1)
  bytes := drawnBytes n
  bytes_length i k := by simp [drawnBytes]

/-- The verifiers of the tokens of the first `n` requests. -/
def tokenHashes (n : Nat) : List Bytes :=
  (List.range n).map fun k => sha256Verifier standard (drawnBytes k 0 TOKEN_LEN)

/-- No two of the first sixteen requests have the same token. -/
lemma tokenHashes_nodup {n : Nat} (h : n ≤ 16) : (tokenHashes n).Nodup := by
  have hall : (tokenHashes 16).Nodup := by decide +kernel
  exact hall.sublist ((List.range_sublist.mpr h).map _)

lemma draws_uuid_ne {n n' : Nat} {time time' : Time} (hne : n ≠ n') (hn : n < 2 ^ 100)
    (hn' : n' < 2 ^ 100) (i j : Fin 16) : (draws n time).uuid i ≠ (draws n' time').uuid j := by
  intro h
  have hnat := congrArg BitVec.toNat h
  simp only [draws, BitVec.toNat_ofNat] at hnat
  have hi := i.isLt
  have hj := j.isLt
  rw [Nat.mod_eq_of_lt (by omega), Nat.mod_eq_of_lt (by omega)] at hnat
  omega

/-- The token of a request does not depend on the place where it is drawn. -/
lemma draws_token (n : Nat) (time : Time) (i : Fin 32) :
    (draws n time).bytes i TOKEN_LEN = drawnBytes n 0 TOKEN_LEN := by
  simp [draws, drawnBytes]

/-! ## Runs -/

/-- Requests at some times, in the order of their draws. -/
def requests (steps : List (Time × Action)) : List Request :=
  steps.zipIdx.map fun step => ⟨step.1.2, draws step.2 step.1.1⟩

/-- The service after some requests, one after the other. -/
def serveAll (steps : List (Time × Action)) : Service :=
  System.handleAll (serve standard configured) ⟨⟨[], {}⟩, []⟩ (requests steps)

lemma requests_fresh {steps : List (Time × Action)} (hsize : steps.length < 2 ^ 100)
    (htokens : (tokenHashes steps.length).Nodup) :
    (requests steps).Pairwise (Fresh standard) := by
  rw [requests, List.pairwise_map, List.pairwise_iff_getElem]
  intro i j hi hj hlt
  rw [List.length_zipIdx] at hi hj
  simp only [List.getElem_zipIdx, Nat.zero_add]
  refine ⟨fun a b => draws_uuid_ne (by omega) (by omega) (by omega) a b, fun a b => ?_⟩
  rw [draws_token, draws_token]
  intro heq
  rw [List.nodup_iff_injective_get] at htokens
  have hlen : (tokenHashes steps.length).length = steps.length := by simp [tokenHashes]
  have hsame := @htokens ⟨i, by omega⟩ ⟨j, by omega⟩ (by simpa [tokenHashes] using heq)
  have hij := Fin.mk.inj hsame
  omega

/-- **A serial run with different tokens is a run of the service.** -/
theorem serveAll_reachable {steps : List (Time × Action)} (hsize : steps.length < 2 ^ 100)
    (htokens : (tokenHashes steps.length).Nodup) :
    Reachable standard configured (serveAll steps) :=
  System.Reaches.handleAll (requests_fresh hsize htokens)

/-- Some requests, one after the other, then some more that run their statements in turns. -/
def takeTurns (steps later : List (Time × Action)) (turns : List Nat) : Service :=
  turns.foldl System.work ((serveAll steps).arriveAll (serve standard configured)
    ((requests (steps ++ later)).drop steps.length))

lemma requests_append (steps later : List (Time × Action)) :
    requests steps ++ (requests (steps ++ later)).drop steps.length =
      requests (steps ++ later) := by
  have htake : requests steps = (requests (steps ++ later)).take steps.length := by
    unfold requests
    rw [← List.map_take, List.zipIdx_append, List.take_left' List.length_zipIdx]
  rw [htake]
  exact List.take_append_drop _ _

/-- **Requests with different tokens that take turns are a run of the service.** -/
theorem takeTurns_reachable {steps later : List (Time × Action)} {turns : List Nat}
    (hsize : (steps ++ later).length < 2 ^ 100)
    (htokens : (tokenHashes (steps ++ later).length).Nodup) :
    Reachable standard configured (takeTurns steps later turns) := by
  have hfresh := requests_fresh hsize htokens
  rw [← requests_append, List.pairwise_append] at hfresh
  obtain ⟨hsteps, hlater, hcross⟩ := hfresh
  refine System.Reaches.workAll (System.Reaches.arriveAll (System.Reaches.handleAll hsteps) hlater
    fun t ht q hq => ?_) turns
  have hmem := List.mem_map_of_mem (f := Thread.request) ht
  rw [System.handleAll_requests, List.map_nil, List.nil_append] at hmem
  exact hcross t.request hmem q hq

/-! ## A client -/

/-- What the browser of an account holds. -/
structure Client where
  handle : String
  clientKey : Bytes
  vaultId : Uuid

namespace Client

/-- Base64url of some bytes of the client's own. -/
def blob (n : Nat) (b : UInt8) : String := encodeBase64url (List.replicate n b)

def device : DeviceRequest := ⟨"laptop", "browser", .obj []⟩

variable (c : Client)

def storedKey : Bytes := standard.sha256 c.clientKey

def registerStart : Action := .registerStart ⟨c.handle, AUTH_PROTOCOL⟩

def registerFinish (registrationId : Uuid) : Action :=
  .registerFinish
    { registrationId
      authProtocol := AUTH_PROTOCOL
      authStoredKey := encodeBase64url c.storedKey
      authServerKey := blob 32 3
      encryptedAccountKeyset := ⟨ACCOUNT_KEYSET_CRYPTO_VERSION, "k1", blob 12 4, blob 48 5⟩
      initialVault := ⟨c.vaultId, ⟨VAULT_KEY_WRAP_CRYPTO_VERSION, "k1", blob 12 6, blob 48 7⟩⟩
      device := device }

/-- The nonce of the client's logins. -/
def nonce : Bytes := List.replicate CLIENT_NONCE_BYTES 8

def loginStart : Action := .loginStart ⟨c.handle, AUTH_PROTOCOL, encodeBase64url nonce⟩

/-- A login with the right proof. -/
def loginFinish (challengeId : Uuid) (serverNonce : Bytes) : Action :=
  let final : Bytes := [1, 2, 3]
  let message := Transcript.loginAuthMessage
    ⟨challengeId, AUTH_PROTOCOL, c.handle, nonce, serverNonce, final⟩
  .loginFinish []
    { loginChallengeId := challengeId
      authProtocol := AUTH_PROTOCOL
      clientNonce := encodeBase64url nonce
      serverNonce := encodeBase64url serverNonce
      clientFinalWithoutProof := encodeBase64url final
      clientProof := encodeBase64url
        (Scram.xorKeys c.clientKey (standard.hmacSha256 c.storedKey message))
      device := device }

/-- The headers of a request with a session token. -/
def cookie (token : Bytes) : HeaderMap :=
  [("cookie", utf8Bytes (SESSION_COOKIE_NAME ++ "=" ++ encodeBase64url token))]

/-- The headers of a request with a session token and a CSRF token. -/
def signed (token csrf : Bytes) : HeaderMap :=
  ("x-pv-csrf", utf8Bytes (encodeBase64url csrf)) :: cookie token

/-- The code that an authenticator shows for a seed. -/
def totpCode (seed : Bytes) (time : Time) : String :=
  match Totp.generate standard seed (time / 1000000).toNat .googleAuthenticatorDefault with
  | .ok code => code
  | .error _ => ""

/-- A new item on the head of a new vault. -/
def createItem (headers : HeaderMap) : Action :=
  .createItem headers c.vaultId
    { itemId := 501
      revisionId := 601
      baseHeadSeq := 0
      baseHeadHash := encodeBase64url (genesisHeadHash standard c.vaultId)
      newHeadHash := blob 32 12
      changeMac := blob 32 13
      envelopeHash := blob 32 14
      encryptedItemEnvelope :=
        ⟨ITEM_ENVELOPE_CRYPTO_VERSION, "k1", ITEM_ENVELOPE_AEAD, blob 12 15, blob 40 16⟩ }

end Client

/-! ## A first session -/

/-- The time `n` seconds into a run. -/
def moment (n : Int) : Time := seconds (1750000000 + n)

/-- The token that request `n` of a run draws. -/
def token (n : Nat) : Bytes := drawnBytes n 0 TOKEN_LEN

/-- The identifier that request `n` of a run draws first. -/
def drawnId (n : Nat) : Uuid := BitVec.ofNat 128 (16 * n + 1)

def alice : Client := ⟨"alice", List.replicate 32 11, 77⟩

/-- A client registers, enrolls a factor and stores its first item. -/
def firstItem : List (Time × Action) :=
  [(moment 0, alice.registerStart),
    (moment 10, alice.registerFinish (drawnId 0)),
    (moment 20, .csrfToken (Client.cookie (token 1))),
    (moment 30, .totpEnrollStart (Client.signed (token 1) (token 2))),
    (moment 40, .totpEnrollConfirm (Client.signed (token 1) (token 2))
      ⟨drawnId 3, Client.totpCode (drawnBytes 3 0 20) (moment 40)⟩),
    (moment 50, .csrfToken (Client.cookie (token 4))),
    (moment 60, alice.createItem (Client.signed (token 4) (token 5)))]

lemma firstItem_reachable : Reachable standard configured (serveAll firstItem) :=
  serveAll_reachable (by decide) (tokenHashes_nodup (by decide))

/-! ## Two accounts -/

def bob : Client := ⟨"bob", List.replicate 32 12, 78⟩

/-- A client registers and enrolls a factor with the requests `n` to `n + 5` of a run, from the time
`t` seconds on. -/
def Client.enrolls (c : Client) (n : Nat) (t : Int) : List (Time × Action) :=
  [(moment t, c.registerStart),
    (moment (t + 10), c.registerFinish (drawnId n)),
    (moment (t + 20), .csrfToken (cookie (token (n + 1)))),
    (moment (t + 30), .totpEnrollStart (signed (token (n + 1)) (token (n + 2)))),
    (moment (t + 40), .totpEnrollConfirm (signed (token (n + 1)) (token (n + 2)))
      ⟨drawnId (n + 3), totpCode (drawnBytes (n + 3) 0 20) (moment (t + 40))⟩),
    (moment (t + 50), .csrfToken (cookie (token (n + 4))))]

/-- Two clients register and enroll. -/
def bothEnrolled : List (Time × Action) := bob.enrolls 0 0 ++ alice.enrolls 6 100

/-- Then one of them stores an item. -/
def aliceStores : List (Time × Action) :=
  bothEnrolled ++ [(moment 200, alice.createItem (Client.signed (token 10) (token 11)))]

/-- A client registers, enrolls a factor and stores an item whose envelope has a blank before the
`key_id`. -/
def paddedItem : List (Time × Action) :=
  alice.enrolls 0 0 ++
    [(moment 60, .createItem (Client.signed (token 4) (token 5)) alice.vaultId
      { itemId := 501
        revisionId := 601
        baseHeadSeq := 0
        baseHeadHash := encodeBase64url (genesisHeadHash standard alice.vaultId)
        newHeadHash := Client.blob 32 12
        changeMac := Client.blob 32 13
        envelopeHash := Client.blob 32 14
        encryptedItemEnvelope := ⟨ITEM_ENVELOPE_CRYPTO_VERSION, " k1", ITEM_ENVELOPE_AEAD,
          Client.blob 12 15, Client.blob 40 16⟩ })]

lemma paddedItem_reachable : Reachable standard configured (serveAll paddedItem) :=
  serveAll_reachable (by decide) (tokenHashes_nodup (by decide))

/-! ## Requests of one session -/

/-- A client registers. Half an hour later three requests ask for the session: the first one loads
it, then the second one does, the first one refreshes it, and the third one loads it. -/
def revival : Service :=
  takeTurns [(moment 0, alice.registerStart), (moment 10, alice.registerFinish (drawnId 0))]
    [(moment 1800, .sessionStatus (Client.cookie (token 1))),
      (moment 1900, .sessionStatus (Client.cookie (token 1))),
      (moment 1900, .sessionStatus (Client.cookie (token 1)))]
    [2, 3, 2, 4]

/-! ## Two sessions of one account -/

/-- A client registers, enrolls a factor and logs in again with it. -/
def secondLogin : List (Time × Action) :=
  alice.enrolls 0 0 ++
    [(moment 100, alice.loginStart),
      (moment 110, alice.loginFinish (drawnId 6) (drawnBytes 6 0 SERVER_NONCE_BYTES)),
      (moment 120, .totpVerify []
        ⟨(draws 7 (moment 110)).uuid 2, Client.totpCode (drawnBytes 3 0 20) (moment 120)⟩)]

/-- A client registers and logs in a second time; the first session starts an enrollment, and the
second one confirms it. -/
def borrowedFactor : List (Time × Action) :=
  [(moment 0, alice.registerStart),
    (moment 10, alice.registerFinish (drawnId 0)),
    (moment 20, alice.loginStart),
    (moment 30, alice.loginFinish (drawnId 2) (drawnBytes 2 0 SERVER_NONCE_BYTES)),
    (moment 40, .csrfToken (Client.cookie (token 1))),
    (moment 50, .totpEnrollStart (Client.signed (token 1) (token 4))),
    (moment 60, .csrfToken (Client.cookie (token 3))),
    (moment 70, .totpEnrollConfirm (Client.signed (token 3) (token 6))
      ⟨drawnId 5, Client.totpCode (drawnBytes 5 0 20) (moment 70)⟩)]

/-! ## A login with long metadata -/

end PasswordVault
