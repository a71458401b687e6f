import PasswordVault.Auth.Base32
import PasswordVault.Library.PercentEncoding

/-!
# Provisioning URIs

`provisioningUri` writes issuer and account label percent-encoded into
`otpauth://totp/ISSUER:LABEL?key=value&...`.

* `parseUri`: the parts of such a text, read by its delimiters and percent-decoded as UTF-8.
* `readProvisioning`: the values of its parameters, none of which may occur twice.
* `provisioningUri_exact`: what is written is read back, for all texts, seeds and profiles.
-/

namespace PasswordVault

namespace Totp

/-! ## Reading -/

/-- The text of some UTF-8 bytes. -/
def fromUtf8 (bytes : Bytes) : Option String := String.fromUTF8? ⟨bytes.toArray⟩

def percentDecode (cs : List Char) : Option String := (PercentEncoding.decode cs).bind fromUtf8

/-- The parts of a provisioning URI. -/
structure UriParts where
  issuer : String
  accountLabel : String
  parameters : List (String × String)
  deriving DecidableEq

def parseParameter (cs : List Char) : Option (String × String) := do
  let (key, value) ← splitOnce '=' cs
  let key ← percentDecode key
  let value ← percentDecode value
  some (key, value)

/-- `otpauth://totp/ISSUER:LABEL?key=value&...`, with no further path segment and no fragment. -/
def parseUri (uri : String) : Option UriParts := do
  let rest ← stripStart "otpauth://totp/".toList uri.toList
  let (path, query) ← splitOnce '?' rest
  let (issuer, accountLabel) ← splitOnce ':' path
  if '/' ∈ path ∨ '#' ∈ rest then none
  else do
    let issuer ← percentDecode issuer
    let accountLabel ← percentDecode accountLabel
    let parameters ← (splitAll '&' query).mapM parseParameter
    some ⟨issuer, accountLabel, parameters⟩

/-- What a provisioning URI says. -/
structure Provisioning where
  issuer : String
  accountLabel : String
  secret : String
  issuerParameter : String
  algorithm : TotpAlgorithm
  digits : Nat
  periodSeconds : Nat
  deriving DecidableEq

/-- The value of a parameter that occurs once. -/
def UriParts.parameter (parts : UriParts) (key : String) : Option String :=
  match parts.parameters.filter fun p => p.1 == key with
  | [p] => some p.2
  | _ => none

def algorithmFromUriValue (value : String) : Option TotpAlgorithm :=
  [TotpAlgorithm.sha1, .sha256, .sha512].find? fun algorithm => algorithm.asUriValue == value

/-- The number that some decimal digits write. -/
def parseDecimal (value : String) : Option Nat :=
  if !value.isEmpty && value.toList.all Char.isDigit then some (Nat.ofDigitChars 10 value.toList 0)
  else none

def readProvisioning (uri : String) : Option Provisioning := do
  let parts ← parseUri uri
  let secret ← parts.parameter "secret"
  let issuerParameter ← parts.parameter "issuer"
  let algorithm ← (← parts.parameter "algorithm") |> algorithmFromUriValue
  let digits ← (← parts.parameter "digits") |> parseDecimal
  let periodSeconds ← (← parts.parameter "period") |> parseDecimal
  some ⟨parts.issuer, parts.accountLabel, secret, issuerParameter, algorithm, digits,
    periodSeconds⟩

/-! ## Cutting a text at its separators -/

lemma splitOnce_append {sep : Char} {before : List Char} (h : sep ∉ before) (after : List Char) :
    splitOnce sep (before ++ sep :: after) = some (before, after) := by
  have hkept : ∀ c ∈ before, decide (c ≠ sep) = true := by
    intro c hc
    simpa using fun heq : c = sep => h (heq ▸ hc)
  have htake : (before ++ sep :: after).takeWhile (· ≠ sep) = before := by
    rw [List.takeWhile_append_of_pos hkept]
    simp
  have hdrop : (before ++ sep :: after).dropWhile (· ≠ sep) = sep :: after := by
    rw [List.dropWhile_append_of_pos hkept]
    simp
  unfold splitOnce
  rw [if_pos (by simp), htake, hdrop]
  rfl

lemma splitAll_single {sep : Char} {part : List Char} (h : sep ∉ part) :
    splitAll sep part = [part] := by
  induction part with
  | nil => rfl
  | cons c part ih =>
      have hc : c ≠ sep := fun heq => h (heq ▸ List.mem_cons_self)
      rw [splitAll, if_neg hc, ih fun hm => h (List.mem_cons_of_mem c hm)]

lemma splitAll_append {sep : Char} {part : List Char} (h : sep ∉ part) (rest : List Char) :
    splitAll sep (part ++ sep :: rest) = part :: splitAll sep rest := by
  induction part with
  | nil => rw [List.nil_append, splitAll, if_pos rfl]
  | cons c part ih =>
      have hc : c ≠ sep := fun heq => h (heq ▸ List.mem_cons_self)
      rw [List.cons_append, splitAll, if_neg hc, ih fun hm => h (List.mem_cons_of_mem c hm)]

/-- A text that has been joined is cut into its parts. -/
lemma splitAll_intercalate {sep : Char} {parts : List (List Char)} (hne : parts ≠ [])
    (h : ∀ part ∈ parts, sep ∉ part) : splitAll sep ([sep].intercalate parts) = parts := by
  induction parts with
  | nil => exact absurd rfl hne
  | cons part parts ih =>
      have hpart := h part List.mem_cons_self
      cases parts with
      | nil => simpa using splitAll_single hpart
      | cons next parts =>
          have hrest := ih (List.cons_ne_nil next parts)
            fun p hp => h p (List.mem_cons_of_mem part hp)
          rw [List.intercalate_cons_cons, List.append_assoc, List.singleton_append,
            splitAll_append hpart, hrest]

/-- A character of a joined text is the separator or is in one of the parts. -/
lemma mem_intercalate {sep c : Char} {parts : List (List Char)}
    (h : c ∈ [sep].intercalate parts) : c = sep ∨ ∃ part ∈ parts, c ∈ part := by
  induction parts with
  | nil => simp at h
  | cons part parts ih =>
      cases parts with
      | nil => exact .inr ⟨part, List.mem_cons_self, by simpa using h⟩
      | cons next parts =>
          rw [List.intercalate_cons_cons, List.append_assoc, List.singleton_append,
            List.mem_append, List.mem_cons] at h
          rcases h with h | h | h
          · exact .inr ⟨part, List.mem_cons_self, h⟩
          · exact .inl h
          · rcases ih h with h | ⟨p, hp, hc⟩
            · exact .inl h
            · exact .inr ⟨p, List.mem_cons_of_mem part hp, hc⟩

/-! ## Percent-encoded texts -/

lemma isUnreserved_keepsAscii : PercentEncoding.KeepsAscii isUnreserved where
  ascii b hb := by
    simp only [isUnreserved, Bool.or_eq_true, Bool.and_eq_true, decide_eq_true_eq,
      beq_iff_eq] at hb
    have hnat : ∀ n : UInt8, b ≤ n → b.toNat ≤ n.toNat := fun n h => UInt8.le_iff_toNat_le.mp h
    rcases hb with (((((⟨-, h⟩ | ⟨-, h⟩) | ⟨-, h⟩) | rfl) | rfl) | rfl) | rfl
    · exact Nat.lt_of_le_of_lt (hnat _ h) (by decide)
    · exact Nat.lt_of_le_of_lt (hnat _ h) (by decide)
    · exact Nat.lt_of_le_of_lt (hnat _ h) (by decide)
    all_goals decide
  percent := by decide

lemma percentEncode_toList (value : String) :
    (percentEncode value).toList = PercentEncoding.encode isUnreserved (utf8Bytes value) :=
  String.toList_ofList

lemma fromUtf8_utf8Bytes (value : String) : fromUtf8 (utf8Bytes value) = some value := by
  show String.fromUTF8? value.toByteArray = some value
  exact dif_pos value.isValidUTF8

/-- The delimiters of a URI that a reader goes by. -/
def delimiters : List Char := [':', '/', '?', '#', '&', '=']

/-- A text between two delimiters, and what it stands for. -/
structure Component (cs : List Char) (value : String) : Prop where
  decodes : percentDecode cs = some value
  notMem : ∀ c ∈ delimiters, c ∉ cs

lemma delimiter_escaped : (delimiters.all fun c => c != '%' &&
    PercentEncoding.hexValue c == none && !isUnreserved (UInt8.ofNat c.toNat)) = true := by decide

/-- Every text is a component when it is percent-encoded, whatever delimiters it has. -/
lemma component_percentEncode (value : String) : Component (percentEncode value).toList value where
  decodes := by
    unfold percentDecode
    rw [percentEncode_toList, PercentEncoding.decode_encode isUnreserved_keepsAscii,
      Option.bind_some, fromUtf8_utf8Bytes]
  notMem c hc := by
    have hescaped := List.all_eq_true.mp delimiter_escaped c hc
    simp only [Bool.and_eq_true, bne_iff_ne, ne_eq, beq_iff_eq, Bool.not_eq_true'] at hescaped
    obtain ⟨⟨hpercent, hdigit⟩, hkept⟩ := hescaped
    rw [percentEncode_toList]
    exact PercentEncoding.notMem_encode isUnreserved_keepsAscii hpercent hdigit hkept _

lemma alphanum_bounds {c : Char} (h : c.isAlphanum = true) : c.toNat < 128 := by
  have hval : ∀ d : Char, c.val ≤ d.val → c.toNat ≤ d.toNat := fun d h => h
  have hranges : (decide (c.val ≥ 'A'.val ∧ c.val ≤ 'Z'.val) ||
      (decide (c.val ≥ 'a'.val) && decide (c.val ≤ 'z'.val)) ||
      (decide (c.val ≥ '0'.val) && decide (c.val ≤ '9'.val))) = true := h
  simp only [Bool.or_eq_true, Bool.and_eq_true, decide_eq_true_eq] at hranges
  rcases hranges with (⟨-, h⟩ | ⟨-, h⟩) | ⟨-, h⟩
  · exact Nat.lt_of_le_of_lt (hval 'Z' h) (by decide)
  · exact Nat.lt_of_le_of_lt (hval 'z' h) (by decide)
  · exact Nat.lt_of_le_of_lt (hval '9' h) (by decide)

/-- Letters and digits stand for themselves. -/
lemma component_alphanum {cs : List Char} (h : ∀ c ∈ cs, c.isAlphanum = true) :
    Component cs (String.ofList cs) where
  decodes := by
    have hascii : ∀ c ∈ cs, c.toNat < 128 := fun c hc => alphanum_bounds (h c hc)
    have hpercent : '%' ∉ cs := fun hc => by simpa using h '%' hc
    unfold percentDecode
    rw [PercentEncoding.decode_plain hascii hpercent, Option.bind_some]
    have hbytes := utf8Bytes_ascii hascii
    unfold asciiByte at hbytes
    rw [← hbytes, fromUtf8_utf8Bytes]
  notMem c hc hmem := by
    have hnone : (delimiters.all fun c => !c.isAlphanum) = true := by decide
    have hc' := List.all_eq_true.mp hnone c hc
    rw [h c hmem] at hc'
    cases hc'

lemma component_base32 (seed : Bytes) :
    Component (base32NoPadding seed).toList (base32NoPadding seed) := by
  have hdigits : ∀ n < 32, (base32Char n).isAlphanum = true := by decide
  rw [base32NoPadding_eq, String.toList_ofList]
  refine component_alphanum fun c hc => ?_
  obtain ⟨n, hn, rfl⟩ := List.mem_map.mp hc
  exact hdigits n (Bits.groups_lt 5 _ n hn)

lemma component_key (key : String) (h : key.toList.all Char.isAlphanum = true) :
    Component key.toList key := by
  have hkey := component_alphanum (List.all_eq_true.mp h)
  rwa [String.ofList_toList] at hkey

lemma component_algorithm (algorithm : TotpAlgorithm) :
    Component algorithm.asUriValue.toList algorithm.asUriValue := by
  cases algorithm <;> exact component_key _ (by decide)

lemma component_decimal (n : Nat) : Component (toString n).toList (toString n) := by
  rw [Nat.toString_eq_ofList_toDigits, String.toList_ofList]
  refine component_alphanum fun c hc => ?_
  have hdigit := Nat.isDigit_of_mem_toDigits (by decide) (by decide) hc
  rw [Char.isAlphanum, hdigit, Bool.or_true]

/-! ## What is written is read -/

lemma parseParameter_component {key value : String} {k v : List Char} (hk : Component k key)
    (hv : Component v value) : parseParameter (k ++ '=' :: v) = some (key, value) := by
  unfold parseParameter
  rw [splitOnce_append (hk.notMem '=' (by decide))]
  simp [hk.decodes, hv.decodes]

/-- The parameters, in the order in which they are written. -/
def provisioningParameters (issuer : String) (seed : Bytes) (profile : TotpProfile) :
    List (String × String) :=
  [("secret", base32NoPadding seed), ("issuer", issuer),
    ("algorithm", profile.algorithm.asUriValue), ("digits", toString profile.digits),
    ("period", toString profile.periodSeconds)]

/-- The texts of the parameters. -/
def parameterTexts (issuer : String) (seed : Bytes) (profile : TotpProfile) : List (List Char) :=
  ["secret".toList ++ '=' :: (base32NoPadding seed).toList,
    "issuer".toList ++ '=' :: (percentEncode issuer).toList,
    "algorithm".toList ++ '=' :: profile.algorithm.asUriValue.toList,
    "digits".toList ++ '=' :: (toString profile.digits).toList,
    "period".toList ++ '=' :: (toString profile.periodSeconds).toList]

lemma parameterTexts_parse (issuer : String) (seed : Bytes) (profile : TotpProfile) :
    (parameterTexts issuer seed profile).mapM parseParameter =
      some (provisioningParameters issuer seed profile) := by
  have hsecret := parseParameter_component (component_key "secret" (by decide))
    (component_base32 seed)
  have hissuer := parseParameter_component (component_key "issuer" (by decide))
    (component_percentEncode issuer)
  have halgorithm := parseParameter_component (component_key "algorithm" (by decide))
    (component_algorithm profile.algorithm)
  have hdigits := parseParameter_component (component_key "digits" (by decide))
    (component_decimal profile.digits)
  have hperiod := parseParameter_component (component_key "period" (by decide))
    (component_decimal profile.periodSeconds)
  unfold parameterTexts provisioningParameters
  simp only [List.mapM_cons, List.mapM_nil, hsecret, hissuer, halgorithm, hdigits, hperiod]
  rfl

/-- The only delimiter of a parameter is the sign between its key and its value. -/
lemma parameterTexts_notMem {c : Char} (hc : c ∈ delimiters) (hne : c ≠ '=') {issuer : String}
    {seed : Bytes} {profile : TotpProfile} :
    ∀ text ∈ parameterTexts issuer seed profile, c ∉ text := by
  have hparameter : ∀ {key value : String} {k v : List Char}, Component k key →
      Component v value → c ∉ k ++ '=' :: v := by
    intro key value k v hk hv hmem
    rcases List.mem_append.mp hmem with hmem | hmem
    · exact hk.notMem c hc hmem
    · rcases List.mem_cons.mp hmem with rfl | hmem
      · exact hne rfl
      · exact hv.notMem c hc hmem
  unfold parameterTexts
  simp only [List.mem_cons, List.not_mem_nil, or_false]
  rintro text (rfl | rfl | rfl | rfl | rfl)
  · exact hparameter (component_key _ (by decide)) (component_base32 seed)
  · exact hparameter (component_key _ (by decide)) (component_percentEncode issuer)
  · exact hparameter (component_key _ (by decide)) (component_algorithm profile.algorithm)
  · exact hparameter (component_key _ (by decide)) (component_decimal profile.digits)
  · exact hparameter (component_key _ (by decide)) (component_decimal profile.periodSeconds)

/-- The URI of valid inputs, by its delimiters. -/
lemma provisioningUri_ok (issuer accountLabel : String) {seed : Bytes} {profile : TotpProfile}
    (hseed : MIN_SEED_BYTES ≤ seed.length) (hprofile : validateProfile profile = .ok ()) :
    ∃ uri, provisioningUri issuer accountLabel seed profile = .ok uri ∧
      uri.toList = "otpauth://totp/".toList ++ ((percentEncode issuer).toList ++
        ':' :: (percentEncode accountLabel).toList ++
          '?' :: ['&'].intercalate (parameterTexts issuer seed profile)) := by
  have hvalid : validateSeed seed = .ok () := if_neg (by omega)
  unfold provisioningUri
  rw [hprofile, hvalid]
  refine ⟨_, rfl, ?_⟩
  simp [parameterTexts, List.intercalate]

/-- A reader that goes by the delimiters gets what the components between them stand for. -/
lemma parseUri_components {uri issuer accountLabel : String} {i l : List Char}
    {texts : List (List Char)} {parameters : List (String × String)}
    (huri : uri.toList = "otpauth://totp/".toList ++ (i ++ ':' :: l ++
      '?' :: ['&'].intercalate texts))
    (hi : Component i issuer) (hl : Component l accountLabel) (hne : texts ≠ [])
    (htexts : ∀ c ∈ delimiters, c ≠ '=' → ∀ text ∈ texts, c ∉ text)
    (hparameters : texts.mapM parseParameter = some parameters) :
    parseUri uri = some ⟨issuer, accountLabel, parameters⟩ := by
  -- the path has no delimiter but the colon
  have hpath : ∀ c ∈ delimiters, c ≠ ':' → c ∉ i ++ ':' :: l := by
    intro c hc hcolon hmem
    rcases List.mem_append.mp hmem with hmem | hmem
    · exact hi.notMem c hc hmem
    · rcases List.mem_cons.mp hmem with rfl | hmem
      · exact hcolon rfl
      · exact hl.notMem c hc hmem
  have hfragment : '#' ∉ i ++ ':' :: l ++ '?' :: ['&'].intercalate texts := by
    intro hmem
    rcases List.mem_append.mp hmem with hmem | hmem
    · exact hpath '#' (by decide) (by decide) hmem
    · rcases List.mem_cons.mp hmem with hmem | hmem
      · exact absurd hmem (by decide)
      · rcases mem_intercalate hmem with hmem | ⟨text, htext, hmem⟩
        · exact absurd hmem (by decide)
        · exact htexts '#' (by decide) (by decide) text htext hmem
  have hstart : stripStart "otpauth://totp/".toList uri.toList =
      some (i ++ ':' :: l ++ '?' :: ['&'].intercalate texts) := by
    unfold stripStart
    rw [huri, if_pos (List.isPrefixOf_iff_prefix.mpr (List.prefix_append _ _)), List.drop_left]
  have hquestion := splitOnce_append (hpath '?' (by decide) (by decide))
    (['&'].intercalate texts)
  have hcolon := splitOnce_append (hi.notMem ':' (by decide)) l
  have hsplit := splitAll_intercalate hne (htexts '&' (by decide) (by decide))
  have hclean : ¬('/' ∈ i ++ ':' :: l ∨ '#' ∈ i ++ ':' :: l ++ '?' :: ['&'].intercalate texts) :=
    not_or.mpr ⟨hpath '/' (by decide) (by decide), hfragment⟩
  unfold parseUri
  rw [hstart]
  simp only [Option.bind_eq_bind, Option.bind_some, hquestion, hcolon, if_neg hclean, hi.decodes,
    hl.decodes, hsplit, hparameters]

lemma algorithmFromUriValue_asUriValue (algorithm : TotpAlgorithm) :
    algorithmFromUriValue algorithm.asUriValue = some algorithm := by
  cases algorithm <;> decide

lemma parseDecimal_toString (n : Nat) : parseDecimal (toString n) = some n := by
  have hdigits : ∀ c ∈ Nat.toDigits 10 n, c.isDigit = true := fun c hc =>
    Nat.isDigit_of_mem_toDigits (by decide) (by decide) hc
  have hne : (String.ofList (Nat.toDigits 10 n)).isEmpty = false := by
    rw [String.isEmpty_eq_false_iff, ne_eq, ← String.toList_eq_nil_iff, String.toList_ofList]
    exact Nat.toDigits_ne_nil
  unfold parseDecimal
  rw [Nat.toString_eq_ofList_toDigits, hne, String.toList_ofList, List.all_eq_true.mpr hdigits,
    Nat.ofDigitChars_ten_toDigits]
  rfl

/-- The values of the parameters, each of which is there once. -/
lemma readProvisioning_parts {uri issuer accountLabel : String} {seed : Bytes}
    {profile : TotpProfile}
    (h : parseUri uri = some ⟨issuer, accountLabel, provisioningParameters issuer seed profile⟩) :
    readProvisioning uri = some ⟨issuer, accountLabel, base32NoPadding seed, issuer,
      profile.algorithm, profile.digits, profile.periodSeconds⟩ := by
  generalize hparts : UriParts.mk issuer accountLabel
    (provisioningParameters issuer seed profile) = parts at h
  have hsecret : parts.parameter "secret" = some (base32NoPadding seed) := by subst hparts; rfl
  have hissuer : parts.parameter "issuer" = some issuer := by subst hparts; rfl
  have halgorithm : parts.parameter "algorithm" = some profile.algorithm.asUriValue := by
    subst hparts; rfl
  have hdigits : parts.parameter "digits" = some (toString profile.digits) := by subst hparts; rfl
  have hperiod : parts.parameter "period" = some (toString profile.periodSeconds) := by
    subst hparts; rfl
  unfold readProvisioning
  rw [h]
  simp only [Option.bind_eq_bind, Option.bind_some, hsecret, hissuer, halgorithm, hdigits, hperiod,
    algorithmFromUriValue_asUriValue, parseDecimal_toString]
  subst hparts
  rfl

/-- What an authenticator app gets to know. -/
structure ProvisioningExact (issuer accountLabel : String) (seed : Bytes)
    (profile : TotpProfile) : Prop where
  /-- There is a URI; its parts are the issuer, the label and five parameters, -/
  read : ∃ uri, provisioningUri issuer accountLabel seed profile = .ok uri ∧
    parseUri uri =
      some ⟨issuer, accountLabel, [("secret", base32NoPadding seed), ("issuer", issuer),
        ("algorithm", profile.algorithm.asUriValue), ("digits", toString profile.digits),
        ("period", toString profile.periodSeconds)]⟩ ∧
    readProvisioning uri = some ⟨issuer, accountLabel, base32NoPadding seed, issuer,
      profile.algorithm, profile.digits, profile.periodSeconds⟩
  /-- and no other input has this URI. -/
  distinct : ∀ issuer' accountLabel' seed' profile',
    provisioningUri issuer' accountLabel' seed' profile' =
      provisioningUri issuer accountLabel seed profile →
    issuer' = issuer ∧ accountLabel' = accountLabel ∧ seed' = seed ∧ profile' = profile

lemma provisioningUri_read (issuer accountLabel : String) {seed : Bytes} {profile : TotpProfile}
    (hseed : MIN_SEED_BYTES ≤ seed.length) (hprofile : validateProfile profile = .ok ()) :
    ∃ uri, provisioningUri issuer accountLabel seed profile = .ok uri ∧
      parseUri uri =
        some ⟨issuer, accountLabel, provisioningParameters issuer seed profile⟩ ∧
      readProvisioning uri = some ⟨issuer, accountLabel, base32NoPadding seed, issuer,
        profile.algorithm, profile.digits, profile.periodSeconds⟩ := by
  obtain ⟨uri, hok, hchars⟩ := provisioningUri_ok issuer accountLabel hseed hprofile
  have hparse := parseUri_components hchars (component_percentEncode issuer)
    (component_percentEncode accountLabel) (List.cons_ne_nil _ _)
    (fun c hc hne => parameterTexts_notMem hc hne) (parameterTexts_parse issuer seed profile)
  exact ⟨uri, hok, hparse, readProvisioning_parts hparse⟩

/-- The inputs for which there is a URI. -/
lemma provisioningUri_valid {issuer accountLabel uri : String} {seed : Bytes}
    {profile : TotpProfile} (h : provisioningUri issuer accountLabel seed profile = .ok uri) :
    MIN_SEED_BYTES ≤ seed.length ∧ validateProfile profile = .ok () := by
  unfold provisioningUri at h
  cases hprofile : validateProfile profile with
  | error e => simp [hprofile, bind, Except.bind] at h
  | ok _ =>
      refine ⟨?_, rfl⟩
      by_contra hseed
      have hinvalid : validateSeed seed = .error (.invalidSeedLength MIN_SEED_BYTES seed.length) :=
        if_pos (by omega)
      simp [hprofile, hinvalid, bind, Except.bind] at h

/-- **A provisioning URI is unambiguous, for all issuers and labels.** -/
theorem provisioningUri_exact (issuer accountLabel : String) {seed : Bytes}
    {profile : TotpProfile} (hseed : MIN_SEED_BYTES ≤ seed.length)
    (hprofile : validateProfile profile = .ok ()) :
    ProvisioningExact issuer accountLabel seed profile where
  read := provisioningUri_read issuer accountLabel hseed hprofile
  distinct issuer' accountLabel' seed' profile' heq := by
    obtain ⟨uri, hok, -, hread⟩ := provisioningUri_read issuer accountLabel hseed hprofile
    rw [hok] at heq
    obtain ⟨hseed', hprofile'⟩ := provisioningUri_valid heq
    obtain ⟨uri', hok', -, hread'⟩ := provisioningUri_read issuer' accountLabel' hseed' hprofile'
    obtain rfl : uri' = uri := Except.ok.inj (hok'.symm.trans heq)
    -- one URI is read in one way
    have hsame := Option.some.inj (hread'.symm.trans hread)
    simp only [Provisioning.mk.injEq] at hsame
    obtain ⟨hissuer, hlabel, hsecret, -, halgorithm, hdigits, hperiod⟩ := hsame
    have hseeds := decode_base32NoPadding seed'
    rw [hsecret, decode_base32NoPadding] at hseeds
    refine ⟨hissuer, hlabel, (Option.some.inj hseeds).symm, ?_⟩
    obtain ⟨algorithm', digits', period'⟩ := profile'
    obtain ⟨algorithm, digits, period⟩ := profile
    simp only [TotpProfile.mk.injEq]
    exact ⟨halgorithm, hdigits, hperiod⟩

/-- A label that would add a second secret if it were not encoded. -/
theorem injectingLabel_provisioned :
    MIN_SEED_BYTES ≤ (List.replicate 20 (0 : UInt8)).length ∧
      validateProfile .googleAuthenticatorDefault = .ok () ∧
      ProvisioningExact "Password Vault" "a:b/c?d&secret=AA#é%41" (List.replicate 20 0)
        .googleAuthenticatorDefault :=
  ⟨by decide, by decide,
    provisioningUri_exact "Password Vault" "a:b/c?d&secret=AA#é%41" (by decide) (by decide)⟩

end Totp

end PasswordVault
