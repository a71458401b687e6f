import PasswordVault.Auth.Transcript
import PasswordVault.Auth.Validation
import PasswordVault.Browser.CodeUnits

/-!
# The message of a login, written twice

The page and the server normalize the handle that was typed in, and spell out the message that the
proof of a login is computed over, each on its own kind of strings.

* `normalizeLoginHandle`, `loginAuthMessage`: as the page has them.
* `handle_iff`: the handles agree, unless the text begins or ends with U+0085. The server takes that
  character for white space, and the page does not.
* `login_message_iff`: and so do the messages.
-/

namespace PasswordVault.Browser

/-! ## The page's side -/

/-- `replace(/[A-Z]/g, (char) => char.toLowerCase())` on one unit. -/
def lowerUnit (u : UInt16) : UInt16 := if 65 ≤ u.toNat ∧ u.toNat ≤ 90 then u + 32 else u

def normalizeLoginHandle (value : JsString) : JsString := (trim value).map lowerUnit

/-- A field of the message. A value that is `undefined` is encoded as the empty text, and shown as
`undefined`. -/
def pushTranscriptField (name : String) (value : Option JsString) : JsString :=
  units (name ++ "=" ++ toString (textBytes (value.getD [])).length ++ ":") ++
    value.getD (units "undefined") ++ units "\n"

/-- `loginAuthMessage` of the page; the nonces and the last part are encoded. -/
def loginAuthMessage (challengeId : Option JsString) (authProtocol : String)
    (loginHandleNormalized : JsString)
    (clientNonce serverNonce clientFinalWithoutProof : String) : Bytes :=
  let parts := [units "password-vault/login-auth-message/v1\n",
    pushTranscriptField "challenge_id" challengeId,
    pushTranscriptField "auth_protocol" (some (units authProtocol)),
    pushTranscriptField "login_handle_normalized" (some loginHandleNormalized),
    pushTranscriptField "client_nonce" (some (units clientNonce)),
    pushTranscriptField "server_nonce" (some (units serverNonce)),
    pushTranscriptField "client_final_without_proof" (some (units clientFinalWithoutProof))]
  textBytes parts.flatten

/-! ## Texts and their strings -/

lemma units_append (s t : String) : units (s ++ t) = units s ++ units t := by
  rw [units, String.toList_append, List.flatMap_append]
  rfl

lemma scalars_units_append (s : String) (rest : JsString) :
    scalars (units s ++ rest) = s.toList ++ scalars rest := by
  unfold units
  induction s.toList with
  | nil => rfl
  | cons c cs ih =>
      rw [List.flatMap_cons, List.append_assoc, scalars_charUnits, ih]
      rfl

lemma textBytes_units_append (s : String) (rest : JsString) :
    textBytes (units s ++ rest) = utf8Bytes s ++ textBytes rest := by
  have htext : utf8Bytes s = utf8Bytes (String.ofList s.toList) := by rw [String.ofList_toList]
  rw [htext, textBytes, textBytes, scalars_units_append, utf8Bytes_ofList, utf8Bytes_ofList,
    utf8Bytes_ofList, List.flatMap_append]

/-- The bytes of the string of a text are its bytes. -/
lemma textBytes_units (s : String) : textBytes (units s) = utf8Bytes s := by
  have happend := textBytes_units_append s []
  rwa [List.append_nil, show textBytes [] = [] from rfl, List.append_nil] at happend

lemma utf8Bytes_append (s t : String) : utf8Bytes (s ++ t) = utf8Bytes s ++ utf8Bytes t := by
  rw [← textBytes_units, units_append, textBytes_units_append, textBytes_units]

lemma charUnits_ne_nil (c : Char) : charUnits c ≠ [] := by
  unfold charUnits
  split <;> exact List.cons_ne_nil _ _

lemma charUnits_asciiLower (c : Char) : charUnits (asciiLower c) = (charUnits c).map lowerUnit := by
  by_cases hupper : 65 ≤ c.toNat ∧ c.toNat ≤ 90
  · -- a letter, and the letter 32 places further on
    have hlower : (asciiLower c).toNat = c.toNat + 32 := by
      rw [asciiLower, if_pos hupper, toNat_ofNat_of_valid]
      unfold Nat.isValidChar
      omega
    have hunit : (UInt16.ofNat c.toNat).toNat = c.toNat :=
      UInt16.toNat_ofNat_of_lt' (lt_of_le_of_lt hupper.2 (by decide))
    rw [charUnits, charUnits, hlower, if_pos (by omega), if_pos (by omega), List.map_singleton,
      lowerUnit, hunit, if_pos hupper, UInt16.ofNat_add]
    rfl
  · rw [asciiLower, if_neg hupper]
    have hkept : ∀ n, n < 65536 → ¬ (65 ≤ n ∧ n ≤ 90) →
        lowerUnit (UInt16.ofNat n) = UInt16.ofNat n := by
      intro n hn hno
      rw [lowerUnit, UInt16.toNat_ofNat_of_lt' hn, if_neg hno]
    have hvalid : c.toNat < 0xD800 ∨ 0xDFFF < c.toNat ∧ c.toNat < 0x110000 := c.valid
    unfold charUnits
    split
    · rw [List.map_singleton, hkept _ (by omega) hupper]
    · rw [List.map_cons, List.map_singleton, hkept _ (by omega) (by omega),
        hkept _ (by omega) (by omega)]

/-- Lower case is the same on both sides. -/
lemma units_toAsciiLowercase (s : String) :
    units (toAsciiLowercase s) = (units s).map lowerUnit := by
  rw [units, toAsciiLowercase, String.toList_ofList, units]
  induction s.toList with
  | nil => rfl
  | cons c cs ih =>
      rw [List.map_cons, List.flatMap_cons, List.flatMap_cons, List.map_append,
        charUnits_asciiLower, ih]

/-! ## White space -/

/-- The next line character. -/
def nextLine : Char := Char.ofNat 0x85

/-- The text neither begins nor ends with the character. -/
structure Within (c : Char) (cs : List Char) : Prop where
  first : cs.head? ≠ some c
  last : cs.getLast? ≠ some c

lemma trim_eq (s : JsString) :
    trim s = (s.dropWhile isWhiteSpaceUnit).rdropWhile isWhiteSpaceUnit := rfl

/-- What was trimmed neither begins nor ends with white space. -/
lemma trim_ends (s : JsString) : (∀ u ∈ (trim s).head?, isWhiteSpaceUnit u = false) ∧
    ∀ u ∈ (trim s).getLast?, isWhiteSpaceUnit u = false := by
  rw [trim_eq]
  generalize hrest : s.dropWhile isWhiteSpaceUnit = rest
  have hfirst : rest.dropWhile isWhiteSpaceUnit = rest := by
    rw [← hrest, List.dropWhile_idempotent]
  constructor
  · intro u hu
    -- what is left begins like `rest`
    obtain ⟨ending, hending⟩ := rest.rdropWhile_prefix isWhiteSpaceUnit
    have hhead : rest.head? = some u := by rw [← hending, List.head?_append, hu, Option.some_or]
    cases rest with
    | nil => cases hhead
    | cons v vs =>
        obtain rfl := Option.some.inj hhead
        by_contra hwhite
        rw [Bool.not_eq_false] at hwhite
        rw [List.dropWhile_cons, if_pos hwhite] at hfirst
        have hlength := congrArg List.length hfirst
        have hle := (List.dropWhile_sublist (l := vs) isWhiteSpaceUnit).length_le
        rw [List.length_cons] at hlength
        omega
  · intro u hu
    have hne : rest.rdropWhile isWhiteSpaceUnit ≠ [] := by
      intro hnil
      rw [hnil] at hu
      cases hu
    rw [Option.mem_def, List.getLast?_eq_getLast_of_ne_nil hne, Option.some.injEq] at hu
    rw [← hu]
    exact Bool.eq_false_iff.mpr (List.rdropWhile_last_not _ _ hne)

/-- A text whose ends are no white space is left alone. -/
lemma trim_of_ends {s : JsString} (hfirst : ∀ u ∈ s.head?, isWhiteSpaceUnit u = false)
    (hlast : ∀ u ∈ s.getLast?, isWhiteSpaceUnit u = false) : trim s = s := by
  have hstart : trimStart s = s := by
    unfold trimStart
    cases s with
    | nil => rfl
    | cons u s => rw [List.dropWhile_cons, if_neg (by rw [hfirst u rfl]; decide)]
  have hend := trimEnd_append (t := []) hlast
  rw [List.append_nil] at hend
  rw [trim, hstart, hend]
  exact List.append_nil s

lemma trim_trim (s : JsString) : trim (trim s) = trim s :=
  trim_of_ends (trim_ends s).1 (trim_ends s).2

/-- A character that the server trims, but for U+0085, is one that the page trims. -/
lemma charUnits_whiteSpace {c : Char} (hwhite : isWhiteSpace c = true) (hc : c ≠ nextLine) :
    ∃ u, charUnits c = [u] ∧ isWhiteSpaceUnit u = true := by
  have hcode : c.toNat ≠ 0x85 := by
    intro hcode
    apply hc
    rw [← Char.ofNat_toNat c, hcode]
    rfl
  simp only [isWhiteSpace, Bool.or_eq_true, Bool.and_eq_true, decide_eq_true_eq, beq_iff_eq]
    at hwhite
  have hlt : c.toNat < 0x10000 := by omega
  refine ⟨UInt16.ofNat c.toNat, if_pos hlt, ?_⟩
  simp only [isWhiteSpaceUnit, UInt16.toNat_ofNat_of_lt' hlt, Bool.or_eq_true, Bool.and_eq_true,
    decide_eq_true_eq, beq_iff_eq]
  omega

/-- What the page has trimmed the server leaves alone, if it does not begin or end with U+0085. -/
lemma trimChars_iff {cs : List Char}
    (hfirst : ∀ u ∈ (cs.flatMap charUnits).head?, isWhiteSpaceUnit u = false)
    (hlast : ∀ u ∈ (cs.flatMap charUnits).getLast?, isWhiteSpaceUnit u = false) :
    trimChars cs = cs ↔ Within nextLine cs := by
  constructor
  · intro htrim
    have hends : ∀ c, isWhiteSpace c = true → cs.head? ≠ some c ∧ cs.getLast? ≠ some c := by
      intro c hwhite
      constructor
      · intro hhead
        cases cs with
        | nil => cases hhead
        | cons d ds =>
            obtain rfl := Option.some.inj hhead
            have hle : (trimChars (d :: ds)).length ≤ ds.length := by
              rw [trimChars, List.dropWhile_cons, if_pos hwhite, List.length_reverse]
              calc _ ≤ (ds.dropWhile isWhiteSpace).reverse.length :=
                    (List.dropWhile_sublist _).length_le
                _ = (ds.dropWhile isWhiteSpace).length := List.length_reverse
                _ ≤ ds.length := (List.dropWhile_sublist _).length_le
            rw [htrim, List.length_cons] at hle
            omega
      · intro hend
        have hne : trimChars cs ≠ [] := by
          intro hnil
          rw [htrim] at hnil
          rw [hnil] at hend
          cases hend
        have hlastNot := List.rdropWhile_last_not isWhiteSpace (cs.dropWhile isWhiteSpace) hne
        have hgetLast : (trimChars cs).getLast? = some c := by rw [htrim, hend]
        rw [List.getLast?_eq_getLast_of_ne_nil hne, Option.some.injEq] at hgetLast
        apply hlastNot
        show isWhiteSpace ((trimChars cs).getLast hne) = true
        rw [hgetLast, hwhite]
    have hnextLine : isWhiteSpace nextLine = true := by decide
    exact ⟨(hends _ hnextLine).1, (hends _ hnextLine).2⟩
  · intro hwithin
    have hstart : cs.dropWhile isWhiteSpace = cs := by
      cases cs with
      | nil => rfl
      | cons c cs =>
          rw [List.dropWhile_cons, if_neg]
          intro hwhite
          obtain ⟨u, hu, huWhite⟩ := charUnits_whiteSpace hwhite fun hc =>
            hwithin.first (by rw [hc]; rfl)
          have hnot := hfirst u (by rw [List.flatMap_cons, hu]; rfl)
          rw [huWhite] at hnot
          cases hnot
    have hend : cs.reverse.dropWhile isWhiteSpace = cs.reverse := by
      cases hreverse : cs.reverse with
      | nil => rfl
      | cons c rest =>
          rw [List.dropWhile_cons, if_neg]
          intro hwhite
          have hcs : cs = rest.reverse ++ [c] := by
            rw [← List.reverse_reverse cs, hreverse, List.reverse_cons]
          obtain ⟨u, hu, huWhite⟩ := charUnits_whiteSpace hwhite fun hc =>
            hwithin.last (by rw [hcs, hc, List.getLast?_append]; rfl)
          have hnot := hlast u (by
            rw [hcs, List.flatMap_append, List.flatMap_singleton, hu, List.getLast?_append]
            rfl)
          rw [huWhite] at hnot
          cases hnot
    rw [trimChars, hstart, hend, List.reverse_reverse]

/-- Trimming a text changes its string, if it changes the text. -/
lemma trimChars_of_length {cs : List Char}
    (h : ((trimChars cs).flatMap charUnits).length = (cs.flatMap charUnits).length) :
    trimChars cs = cs := by
  -- what is dropped on the left, and on the right
  obtain ⟨left, hleft⟩ := List.dropWhile_suffix (l := cs) isWhiteSpace
  obtain ⟨right, hright⟩ := List.rdropWhile_prefix isWhiteSpace (cs.dropWhile isWhiteSpace)
  have hnil : ∀ ds : List Char, (ds.flatMap charUnits).length = 0 → ds = [] := by
    intro ds hds
    cases ds with
    | nil => rfl
    | cons d ds =>
        rw [List.length_eq_zero_iff, List.flatMap_cons, List.append_eq_nil_iff] at hds
        exact absurd hds.1 (charUnits_ne_nil d)
  have hcs : cs = left ++ (trimChars cs ++ right) :=
    calc cs = left ++ cs.dropWhile isWhiteSpace := hleft.symm
      _ = left ++ (trimChars cs ++ right) := congrArg (left ++ ·) hright.symm
  have hlength : (cs.flatMap charUnits).length = (left.flatMap charUnits).length +
      (((trimChars cs).flatMap charUnits).length + (right.flatMap charUnits).length) := by
    conv_lhs => rw [hcs]
    rw [List.flatMap_append, List.flatMap_append, List.length_append, List.length_append]
  rw [h] at hlength
  have hl := hnil left (by omega)
  have hr := hnil right (by omega)
  rw [hl, hr, List.nil_append, List.append_nil] at hcs
  exact hcs.symm

/-! ## Handles -/

variable {typed : JsString} {text handle : String}

/-- The text that the server has got, and the handle that it makes of it. -/
lemma normalizeLoginHandle_eq (h : PasswordVault.normalizeLoginHandle text = .ok handle) :
    handle = toAsciiLowercase (PasswordVault.trim text) := by
  unfold PasswordVault.normalizeLoginHandle at h
  dsimp only at h
  unfold ensure at h
  split at h
  · exact (Except.ok.inj h).symm
  · cases h

/-- The handle of the page, if the field holds the string of a text. -/
lemma normalizeLoginHandle_units (htext : units text = trim typed) :
    normalizeLoginHandle (trim typed) = units (toAsciiLowercase text) := by
  rw [normalizeLoginHandle, trim_trim, ← htext, units_toAsciiLowercase]

/-- **The handles agree** if and only if the text does not begin or end with U+0085. -/
theorem handle_iff (htext : units text = trim typed)
    (hhandle : PasswordVault.normalizeLoginHandle text = .ok handle) :
    units handle = normalizeLoginHandle (trim typed) ↔ Within nextLine text.toList := by
  obtain ⟨hfirst, hlast⟩ := trim_ends typed
  rw [← htext] at hfirst hlast
  rw [normalizeLoginHandle_units htext, normalizeLoginHandle_eq hhandle,
    ← trimChars_iff hfirst hlast, units_toAsciiLowercase, units_toAsciiLowercase]
  constructor
  · intro h
    have hlength := congrArg List.length h
    rw [List.length_map, List.length_map, units, units, PasswordVault.trim, String.toList_ofList]
      at hlength
    exact trimChars_of_length hlength
  · intro h
    rw [PasswordVault.trim, h, String.ofList_toList]

/-! ## Messages -/

lemma textBytes_pushTranscriptField (name value : String) (rest : JsString) :
    textBytes (pushTranscriptField name (some (units value)) ++ rest) =
      utf8Bytes name ++ utf8Bytes "=" ++ utf8Bytes (toString (byteLen value)) ++ utf8Bytes ":" ++
        utf8Bytes value ++ utf8Bytes "\n" ++ textBytes rest := by
  rw [pushTranscriptField, Option.getD_some, Option.getD_some, List.append_assoc, List.append_assoc,
    textBytes_units_append, textBytes_units_append, textBytes_units_append, textBytes_units,
    utf8Bytes_append, utf8Bytes_append, utf8Bytes_append]
  simp only [byteLen, List.append_assoc]

/-- The two spell out one message for one input. -/
lemma loginAuthMessage_eq (input : Transcript.LoginAuthMessage) :
    loginAuthMessage (some (units input.challengeId.toText)) input.authProtocol
      (units input.loginHandleNormalized) (encodeBase64url input.clientNonce)
      (encodeBase64url input.serverNonce) (encodeBase64url input.clientFinalWithoutProof) =
    Transcript.loginAuthMessage input := by
  unfold loginAuthMessage Transcript.loginAuthMessage Transcript.pushField
  simp only [List.flatten_cons, List.flatten_nil]
  simp only [textBytes_units_append, textBytes_pushTranscriptField]
  simp only [show textBytes [] = [] from rfl, List.append_nil, List.append_assoc]

/-- **The messages agree** if and only if the text of the handle does not begin or end with U+0085,
whatever else the login is about. -/
theorem login_message_iff (htext : units text = trim typed)
    (hhandle : PasswordVault.normalizeLoginHandle text = .ok handle) (challengeId : Uuid)
    (authProtocol : String) (clientNonce serverNonce clientFinalWithoutProof : Bytes) :
    loginAuthMessage (some (units challengeId.toText)) authProtocol
        (normalizeLoginHandle (trim typed)) (encodeBase64url clientNonce)
        (encodeBase64url serverNonce) (encodeBase64url clientFinalWithoutProof) =
      Transcript.loginAuthMessage
        { challengeId, authProtocol, loginHandleNormalized := handle, clientNonce, serverNonce
          clientFinalWithoutProof } ↔
    Within nextLine text.toList := by
  rw [← handle_iff htext hhandle, normalizeLoginHandle_units htext]
  constructor
  · intro h
    have hinput := Transcript.loginAuthMessage_injective ((loginAuthMessage_eq
      { challengeId, authProtocol, loginHandleNormalized := toAsciiLowercase text, clientNonce
        serverNonce, clientFinalWithoutProof }).symm.trans h)
    exact congrArg units (congrArg Transcript.LoginAuthMessage.loginHandleNormalized hinput).symm
  · intro h
    rw [← h]
    exact loginAuthMessage_eq
      { challengeId, authProtocol, loginHandleNormalized := handle, clientNonce, serverNonce
        clientFinalWithoutProof }

theorem login_message_iff_alice :
    loginAuthMessage (some (units (Uuid.toText 7))) "derived-auth-v1"
        (normalizeLoginHandle (trim (units " Alice "))) (encodeBase64url [1]) (encodeBase64url [2])
        (encodeBase64url [3]) =
      Transcript.loginAuthMessage ⟨7, "derived-auth-v1", "alice", [1], [2], [3]⟩ ↔
    Within nextLine "Alice".toList :=
  login_message_iff (by decide) (by decide) 7 "derived-auth-v1" [1] [2] [3]

end PasswordVault.Browser
