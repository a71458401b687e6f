import PasswordVault.Server.Schema

/-!
# The password proof

* `Transcript.loginAuthMessage`: the message that a login proof is computed over, every field with
  its name and its length.
* `Scram.verifyClientProof`: the proof unmasks a client key whose hash is the stored key.
-/

namespace PasswordVault

namespace Transcript

structure LoginAuthMessage where
  challengeId : Uuid
  authProtocol : String
  loginHandleNormalized : String
  clientNonce : Bytes
  serverNonce : Bytes
  clientFinalWithoutProof : Bytes

def pushField (output : Bytes) (name value : String) : Bytes :=
  output ++ utf8Bytes name ++ utf8Bytes "=" ++ utf8Bytes (toString (byteLen value)) ++
    utf8Bytes ":" ++ utf8Bytes value ++ utf8Bytes "\n"

def loginAuthMessage (input : LoginAuthMessage) : Bytes :=
  let output := utf8Bytes "password-vault/login-auth-message/v1\n"
  let output := pushField output "challenge_id" input.challengeId.toText
  let output := pushField output "auth_protocol" input.authProtocol
  let output := pushField output "login_handle_normalized" input.loginHandleNormalized
  let output := pushField output "client_nonce" (encodeBase64url input.clientNonce)
  let output := pushField output "server_nonce" (encodeBase64url input.serverNonce)
  pushField output "client_final_without_proof" (encodeBase64url input.clientFinalWithoutProof)

end Transcript

namespace Scram

def KEY_LEN : Nat := 32

def xorKeys (left right : Bytes) : Bytes := List.zipWith (· ^^^ ·) left right

/-- `none` is the error of a proof of the wrong length. -/
def verifyClientProof (P : Platform) (storedKey authMessage proof : Bytes) : Option Bool :=
  if proof.length ≠ KEY_LEN then none
  else
    let clientSignature := P.hmacSha256 storedKey authMessage
    let clientKey := xorKeys proof clientSignature
    some (P.sha256 clientKey == storedKey)

end Scram

end PasswordVault
