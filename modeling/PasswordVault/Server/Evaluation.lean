import PasswordVault.Auth.RecoveryCodeText
import PasswordVault.Server.RequestHeaders

/-!
# Runs that are evaluated

In a run of fixed requests most of the work is texts: those of the recovery codes, which are decoded
and encoded again before they are hashed, and the base64url of the requests, whose characters are
read from the bytes.

* `issuedCodeHash`: the hash of a code from the digits of its random bytes.
* `decodeBytes`: base64url from the bytes of a text.
* `handlerIssued`: the program of a request with the two above.
* `serveAll_issued`: a run is the run of the service with these programs.
-/

namespace PasswordVault

open Transactions

/-- The characters of a code. -/
def codeChars (random : Bytes) : List Char :=
  recoveryCodeStart ++ hyphenate ((Totp.base32Loop 0 0 random).map asciiLower)

def issuedCodeHash (P : Platform) (accountId : Uuid) (salt random : Bytes) : Bytes :=
  P.sha256 (utf8Bytes "password-vault/recovery-code/v1" ++ [0] ++ accountId.asBytes ++ [0] ++
    salt ++ [0] ++ (codeChars random).map asciiByte)

lemma recoveryCodeHash_issued (P : Platform) (accountId : Uuid) (salt random : Bytes) :
    recoveryCodeHash P accountId salt (recoveryCodeFromRandom random) =
      issuedCodeHash P accountId salt random := by
  have htext := recoveryCodeFromRandom_codeText random
  have hnormal : toAsciiLowercase (trim (recoveryCodeFromRandom random)) =
      recoveryCodeFromRandom random := normalised_codeText htext
  have hchars : recoveryCodeFromRandom random = String.ofList (codeChars random) := by
    rw [recoveryCodeFromRandom, Totp.base32NoPadding, String.toList_ofList]
    rfl
  have hascii : ∀ c ∈ codeChars random, c.toNat < 128 := by
    rw [hchars, String.toList_ofList] at htext
    intro c hc
    have hbounds := isRecoveryCodeChar_bounds (htext c hc)
    omega
  unfold recoveryCodeHash issuedCodeHash
  rw [hnormal, hchars, utf8Bytes_ascii hascii]

lemma code_lt (i : Fin 10) : i.val < 32 := by omega
lemma codeId_lt (i : Fin 10) : i.val < 16 := by omega
lemma codeSalt_lt (i : Fin 10) : 10 + i.val < 32 := by omega

/-- The rows of all new recovery codes. -/
def issuedRecoveryCodes (P : Platform) (draws : Draws) (accountId : Uuid) : List RecoveryCode :=
  (List.finRange 10).map fun i : Fin 10 =>
    let salt := draws.bytes ⟨10 + i, codeSalt_lt i⟩ RECOVERY_CODE_SALT_BYTES
    { id := draws.uuid ⟨i, codeId_lt i⟩
      accountId
      codeSalt := salt
      codeHash := issuedCodeHash P accountId salt
        (draws.bytes ⟨i, code_lt i⟩ RECOVERY_CODE_RANDOM_BYTES) }

lemma newRecoveryCodes_issued (P : Platform) (draws : Draws) (accountId : Uuid) :
    newRecoveryCodes P draws accountId = issuedRecoveryCodes P draws accountId := by
  have hcodes : generateRecoveryCodes draws = (List.finRange 10).map fun i : Fin 10 =>
      recoveryCodeFromRandom (draws.bytes ⟨i, by omega⟩ RECOVERY_CODE_RANDOM_BYTES) := rfl
  unfold newRecoveryCodes issuedRecoveryCodes
  rw [hcodes, List.zipWith_map_right, List.zipWith_self]
  simp only [newRecoveryCode, recoveryCodeHash_issued]

/-! ## Base64url from bytes -/

/-- The six bits of a digit that is one byte of a text. -/
def byteSextet (b : UInt8) : Option Nat := charSextet (Char.ofNat b.toNat)

def decodeBytes (value : String) : Except Base64UrlError Bytes :=
  match ((utf8Bytes value).mapM byteSextet).bind decodeSextets with
  | some bytes => .ok bytes
  | none => .error .invalidEncoding

lemma sextetChar_ascii : ∀ n < 64, (sextetChar n).toNat < 128 := by decide

lemma byteSextet_asciiByte {c : Char} (h : c.toNat < 128) :
    byteSextet (asciiByte c) = charSextet c := by
  have hbyte : (asciiByte c).toNat = c.toNat := by
    rw [asciiByte, UInt8.toNat_ofNat', Nat.mod_eq_of_lt (by omega)]
  rw [byteSextet, hbyte, Char.ofNat_toNat]

lemma charSextet_none {c : Char} (h : 128 ≤ c.toNat) : charSextet c = none := by
  refine Option.eq_none_iff_forall_ne_some.mpr fun n hdigit => ?_
  obtain ⟨hlt, rfl⟩ := charSextet_some hdigit
  exact absurd (sextetChar_ascii n hlt) (Nat.not_lt.mpr h)

lemma mapM_none {α β : Type} {f : α → Option β} {l : List α} {a : α} (ha : a ∈ l)
    (h : f a = none) : l.mapM f = none := by
  induction l with
  | nil => cases ha
  | cons b l ih =>
      rcases List.mem_cons.mp ha with rfl | hmem
      · simp [List.mapM_cons, h]
      · simp [List.mapM_cons, ih hmem]

lemma mapM_byteSextet (cs : List Char) :
    (cs.flatMap String.utf8EncodeChar).mapM byteSextet = cs.mapM charSextet := by
  induction cs with
  | nil => rfl
  | cons c cs ih =>
      rw [List.flatMap_cons]
      by_cases hc : c.toNat < 128
      · rw [utf8EncodeChar_ascii hc, List.singleton_append, List.mapM_cons, List.mapM_cons, ih,
          byteSextet_asciiByte hc]
      · -- no byte from 128 on is a digit, and neither is the character
        have hbyte : ∃ b ∈ String.utf8EncodeChar c, 128 ≤ b.toNat := by
          by_contra hall
          push Not at hall
          exact hc (ascii_of_utf8EncodeChar hall)
        obtain ⟨b, hb, hlarge⟩ := hbyte
        have hnone : byteSextet b = none :=
          charSextet_none (by rw [toNat_charOfNat b.toNat_lt]; exact hlarge)
        rw [mapM_none (List.mem_append_left _ hb) hnone, List.mapM_cons,
          charSextet_none (Nat.not_lt.mp hc)]
        rfl

lemma decodeBase64url_bytes (value : String) : decodeBase64url value = decodeBytes value := by
  have hbytes := utf8Bytes_ofList value.toList
  rw [String.ofList_toList] at hbytes
  have hdigits : (utf8Bytes value).mapM byteSextet = value.toList.mapM charSextet := by
    rw [hbytes, mapM_byteSextet]
  unfold decodeBase64url decodeBytes
  exact hdigits ▸ rfl

lemma decodeBase64url_ofList (cs : List Char) :
    decodeBase64url (String.ofList cs) =
      match (cs.mapM charSextet).bind decodeSextets with
      | some bytes => .ok bytes
      | none => .error .invalidEncoding := by
  have hchars : (String.ofList cs).toList = cs := String.toList_ofList
  unfold decodeBase64url
  exact hchars.symm ▸ rfl

/-! ## The handlers -/

lemma textLen_eq (v : Json) :
    v.textLen = (v.render.flatMap String.utf8EncodeChar).length := by
  rw [Json.textLen, byteLen, utf8Bytes_ofList]

/-- The program of `loadCurrentSession`, in which the token is decoded from its characters. -/
def loadIssued (headers : HeaderMap) (now : Time) :
    { p : Api (Option CurrentSession) // p = loadCurrentSession standard headers now } := by
  refine ⟨?_, Eq.symm ?_⟩
  rotate_left
  · unfold loadCurrentSession
    simp -zeta only [sessionTokenFromHeaders_eq, tokenOf, decodeBase64urlArray,
      decodeBase64url_ofList]
    all_goals rfl

/-- The program of `ensureCsrfToken`, in which the token is decoded from its characters. -/
def csrfIssued (headers : HeaderMap) (sessionId : Uuid) :
    { p : Api Unit // p = ensureCsrfToken standard headers sessionId } := by
  refine ⟨?_, Eq.symm ?_⟩
  rotate_left
  · unfold ensureCsrfToken csrfTokenFromHeaders
    simp -zeta only [decodeBase64urlArray, decodeBase64url_ofList]
    all_goals rfl

lemma loadCurrentSession_issued (headers : HeaderMap) (now : Time) :
    loadCurrentSession standard headers now = (loadIssued headers now).val :=
  (loadIssued headers now).property.symm

lemma ensureCsrfToken_issued (headers : HeaderMap) (sessionId : Uuid) :
    ensureCsrfToken standard headers sessionId = (csrfIssued headers sessionId).val :=
  (csrfIssued headers sessionId).property.symm

/-- The program of the handler of a request, in which all of this is replaced. -/
def handlerIssued (q : Request) :
    { p : Api Response // p = handler standard configured q } := by
  refine ⟨?_, Eq.symm ?_⟩
  rotate_left
  · simp -zeta only [handler, registerFinish, RegisterFinishRequest.validate,
      ValidatedEncryptedEnvelope.fromRequest, loginFinish, LoginFinishRequest.validate, createItem,
      ValidatedCreateItem.fromRequest, ValidatedItemEnvelope.fromRequest, decodeHash,
      requireVaultSession, csrfToken, totpEnrollStart, totpEnrollConfirm, sessionStatus,
      textLen_eq, newRecoveryCodes_issued, decodeBase64urlArray, decodeBase64url_bytes,
      loadCurrentSession_issued, ensureCsrfToken_issued]
    all_goals rfl

def serveIssued (q : Request) : ApiProgram := (handlerIssued q).val.run

lemma serveIssued_eq : serveIssued = serve standard configured := by
  funext q
  rw [serveIssued, (handlerIssued q).property, serve]

/-- **A run does not depend on how the texts in it are read and hashed.** -/
theorem serveAll_issued (steps : List (Time × Action)) :
    serveAll steps = System.handleAll serveIssued ⟨⟨[], {}⟩, []⟩ (requests steps) := by
  rw [serveIssued_eq]
  rfl

end PasswordVault
