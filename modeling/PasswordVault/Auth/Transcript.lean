import PasswordVault.Auth.Scram
import PasswordVault.Library.LengthPrefix
import PasswordVault.Server.Encodings

/-!
# The login transcript

The message of a login proof is a record of length-prefixed fields, so it determines every field,
whatever the values hold.

* `loginFields`: the fields of a message with their labels.
* `transcript_unambiguous`: two inputs with one message are the same, and a proof that is accepted
  for two inputs exhibits a collision.
-/

namespace PasswordVault

namespace Transcript

open LengthPrefix

/-! ## The message as a record -/

def decimalBytes (n : Nat) : Bytes := utf8Bytes (toString n)

lemma decimalBytes_injective : Function.Injective decimalBytes :=
  utf8Bytes_injective.comp toString_nat_injective

/-- A field as `pushField` writes it. -/
def fieldOf (name value : String) : LengthPrefix.Field UInt8 where
  before := utf8Bytes name ++ utf8Bytes "="
  value := utf8Bytes value
  after := utf8Bytes "\n"

def colonByte : UInt8 := 58

lemma pushField_eq (output : Bytes) (name value : String) :
    pushField output name value = output ++ record decimalBytes colonByte [fieldOf name value] := by
  have hcolon : utf8Bytes ":" = [colonByte] := by decide
  simp [pushField, record, framed, fieldOf, decimalBytes, byteLen, hcolon]

def loginFields (input : LoginAuthMessage) : List (LengthPrefix.Field UInt8) :=
  [fieldOf "challenge_id" input.challengeId.toText,
    fieldOf "auth_protocol" input.authProtocol,
    fieldOf "login_handle_normalized" input.loginHandleNormalized,
    fieldOf "client_nonce" (encodeBase64url input.clientNonce),
    fieldOf "server_nonce" (encodeBase64url input.serverNonce),
    fieldOf "client_final_without_proof" (encodeBase64url input.clientFinalWithoutProof)]

lemma loginAuthMessage_eq (input : LoginAuthMessage) :
    loginAuthMessage input =
      utf8Bytes "password-vault/login-auth-message/v1\n" ++
        record decimalBytes colonByte (loginFields input) := by
  simp only [loginAuthMessage, pushField_eq, List.append_assoc]
  simp [record, loginFields]

lemma fieldOf_inj {name value value' : String} (h : fieldOf name value = fieldOf name value') :
    value = value' :=
  utf8Bytes_injective (congrArg Field.value h)

lemma loginAuthMessage_injective : Function.Injective loginAuthMessage := by
  intro a b h
  rw [loginAuthMessage_eq, loginAuthMessage_eq] at h
  have hrecords := List.append_cancel_left h
  -- the labels are constants
  have hfields : loginFields a = loginFields b :=
    record_inj decimalBytes_injective colon_notMem_decimal rfl hrecords
  simp only [loginFields, List.cons.injEq, and_true] at hfields
  obtain ⟨hid, hprotocol, hhandle, hclient, hserver, hfinal⟩ := hfields
  have hchallenge : a.challengeId = b.challengeId := Uuid.toText_injective (fieldOf_inj hid)
  have hclientNonce : a.clientNonce = b.clientNonce :=
    encodeBase64url_injective (fieldOf_inj hclient)
  have hserverNonce : a.serverNonce = b.serverNonce :=
    encodeBase64url_injective (fieldOf_inj hserver)
  have hclientFinal : a.clientFinalWithoutProof = b.clientFinalWithoutProof :=
    encodeBase64url_injective (fieldOf_inj hfinal)
  cases a
  cases b
  simp only [LoginAuthMessage.mk.injEq]
  exact ⟨hchallenge, fieldOf_inj hprotocol, fieldOf_inj hhandle, hclientNonce, hserverNonce,
    hclientFinal⟩

/-! ## Proofs -/

lemma xorKeys_inj {proof left right : Bytes} (hl : left.length = proof.length)
    (hr : right.length = proof.length) (h : Scram.xorKeys proof left = Scram.xorKeys proof right) :
    left = right := by
  unfold Scram.xorKeys at h
  induction proof generalizing left right with
  | nil =>
      rw [List.length_nil, List.length_eq_zero_iff] at hl hr
      rw [hl, hr]
  | cons p proof ih =>
      obtain ⟨x, left, rfl⟩ := List.exists_cons_of_length_eq_add_one hl
      obtain ⟨y, right, rfl⟩ := List.exists_cons_of_length_eq_add_one hr
      simp only [List.zipWith_cons_cons, List.cons.injEq] at h
      simp only [List.length_cons, Nat.add_right_cancel_iff] at hl hr
      rw [ih hl hr h.2, (UInt8.xor_right_inj p).mp h.1]

lemma verifyClientProof_true {P : Platform} {storedKey message proof : Bytes}
    (h : Scram.verifyClientProof P storedKey message proof = some true) :
    proof.length = Scram.KEY_LEN ∧
      P.sha256 (Scram.xorKeys proof (P.hmacSha256 storedKey message)) = storedKey := by
  unfold Scram.verifyClientProof at h
  split at h
  · cases h
  · rename_i hlength
    exact ⟨by simpa using hlength, by simpa using h⟩

/-- What two transcripts with one message, or with one accepted proof, say about their fields. -/
structure Unambiguous (P : Platform) (storedKey proof : Bytes) (a b : LoginAuthMessage) : Prop where
  /-- The message determines every field. -/
  message : loginAuthMessage a = loginAuthMessage b → a = b
  /-- A proof that both accept comes from one transcript, or from a collision: of the HMAC on the
  two messages, or of SHA-256 on the two client keys that the proof unmasks. -/
  proof : Scram.verifyClientProof P storedKey (loginAuthMessage a) proof = some true →
    Scram.verifyClientProof P storedKey (loginAuthMessage b) proof = some true →
    a = b ∨
      loginAuthMessage a ≠ loginAuthMessage b ∧
        (P.hmacSha256 storedKey (loginAuthMessage a) =
            P.hmacSha256 storedKey (loginAuthMessage b) ∨
          Scram.xorKeys proof (P.hmacSha256 storedKey (loginAuthMessage a)) ≠
              Scram.xorKeys proof (P.hmacSha256 storedKey (loginAuthMessage b)) ∧
            P.sha256 (Scram.xorKeys proof (P.hmacSha256 storedKey (loginAuthMessage a))) =
              P.sha256 (Scram.xorKeys proof (P.hmacSha256 storedKey (loginAuthMessage b))))

/-- **The login transcript is unambiguous.** For all inputs: any identifiers, texts and byte
strings. -/
theorem transcript_unambiguous (P : Platform) (storedKey proof : Bytes) (a b : LoginAuthMessage) :
    Unambiguous P storedKey proof a b where
  message h := loginAuthMessage_injective h
  proof ha hb := by
    obtain ⟨hlength, hkeyA⟩ := verifyClientProof_true ha
    obtain ⟨-, hkeyB⟩ := verifyClientProof_true hb
    by_cases hab : a = b
    · exact .inl hab
    refine .inr ⟨fun h => hab (loginAuthMessage_injective h), ?_⟩
    by_cases hkeys : Scram.xorKeys proof (P.hmacSha256 storedKey (loginAuthMessage a)) =
        Scram.xorKeys proof (P.hmacSha256 storedKey (loginAuthMessage b))
    · -- one client key: the two signatures are the same
      refine .inl (xorKeys_inj ?_ ?_ hkeys)
      · rw [P.hmacSha256_length, hlength, Scram.KEY_LEN]
      · rw [P.hmacSha256_length, hlength, Scram.KEY_LEN]
    · exact .inr ⟨hkeys, hkeyA.trans hkeyB.symm⟩

end Transcript

end PasswordVault
