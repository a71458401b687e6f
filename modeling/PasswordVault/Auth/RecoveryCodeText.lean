import PasswordVault.Auth.Enrollment
import PasswordVault.Auth.Base32
import PasswordVault.Server.Standard

/-!
# Recovery codes as they are typed

A code is written by `recoveryCodeFromRandom` and normalised twice when it is redeemed, by
`validateRecoveryCode` and by `recoveryCodeHash`.

* `TypedAs`: a typed text that differs from a code in the case of ASCII letters and in surrounding
  white space.
* `CodeText`: what `validateRecoveryCode` accepts is made of; such a text is its own normal form.
* `recoveryCode_redeemable`: an issued code is accepted however it is typed, with the stored hash.
-/

namespace PasswordVault

/-! ## Typed texts -/

/-- The same character up to the case of an ASCII letter. -/
def SameLetter (a b : Char) : Prop :=
  a = b ∨ (65 ≤ a.toNat ∧ a.toNat ≤ 90 ∧ b.toNat = a.toNat + 32) ∨
    (65 ≤ b.toNat ∧ b.toNat ≤ 90 ∧ a.toNat = b.toNat + 32)

instance (a b : Char) : Decidable (SameLetter a b) := by
  unfold SameLetter
  exact inferInstance

/-- A text that is `code` up to letter case, between white space. -/
def TypedAs (code typed : String) : Prop :=
  ∃ before middle after, typed.toList = before ++ middle ++ after ∧
    (∀ c ∈ before, isWhiteSpace c = true) ∧ (∀ c ∈ after, isWhiteSpace c = true) ∧
    List.Forall₂ SameLetter middle code.toList

/-- The characters of a text that is accepted. -/
def CodeText (cs : List Char) : Prop := ∀ c ∈ cs, isRecoveryCodeChar c = true

lemma isRecoveryCodeChar_bounds {c : Char} (h : isRecoveryCodeChar c = true) :
    (97 ≤ c.toNat ∧ c.toNat ≤ 122) ∨ (48 ≤ c.toNat ∧ c.toNat ≤ 57) ∨ c.toNat = 45 := by
  simp only [isRecoveryCodeChar, Bool.or_eq_true, Bool.and_eq_true, decide_eq_true_eq,
    beq_iff_eq] at h
  rcases h with (h | h) | rfl
  · exact .inl h
  · exact .inr (.inl h)
  · exact .inr (.inr rfl)

lemma asciiLower_codeChar {c : Char} (h : isRecoveryCodeChar c = true) : asciiLower c = c := by
  have hbounds := isRecoveryCodeChar_bounds h
  exact if_neg (by omega)

lemma isWhiteSpace_of_range {c : Char} (hlow : 33 ≤ c.toNat) (hhigh : c.toNat < 128) :
    isWhiteSpace c = false := by
  simp only [isWhiteSpace, Bool.or_eq_false_iff, Bool.and_eq_false_imp, decide_eq_true_eq,
    decide_eq_false_iff_not, beq_eq_false_iff_ne, ne_eq]
  omega

lemma asciiLower_sameLetter {a b : Char} (hb : isRecoveryCodeChar b = true)
    (h : SameLetter a b) : asciiLower a = b := by
  have hbounds := isRecoveryCodeChar_bounds hb
  rcases h with rfl | ⟨hlow, hhigh, heq⟩ | ⟨hlow, hhigh, heq⟩
  · exact asciiLower_codeChar hb
  · unfold asciiLower
    rw [if_pos ⟨hlow, hhigh⟩, ← heq, Char.ofNat_toNat]
  · -- `b` would be an upper-case letter
    omega

lemma isWhiteSpace_sameLetter {a b : Char} (hb : isRecoveryCodeChar b = true)
    (h : SameLetter a b) : isWhiteSpace a = false := by
  have hbounds := isRecoveryCodeChar_bounds hb
  have hrange : 33 ≤ a.toNat ∧ a.toNat < 128 := by
    rcases h with rfl | h | h <;> omega
  exact isWhiteSpace_of_range hrange.1 hrange.2

/-! ## Trimming -/

/-- Trimming drops the white space around a text that has none. -/
lemma trimChars_surrounded {before middle after : List Char}
    (hbefore : ∀ c ∈ before, isWhiteSpace c = true) (hafter : ∀ c ∈ after, isWhiteSpace c = true)
    (hmiddle : ∀ c ∈ middle, isWhiteSpace c = false) :
    trimChars (before ++ middle ++ after) = middle := by
  have hreverse : ∀ c ∈ after.reverse, isWhiteSpace c = true :=
    fun c hc => hafter c (List.mem_reverse.mp hc)
  have hkeep : ∀ {cs : List Char} (rest : List Char), (∀ c ∈ cs, isWhiteSpace c = false) →
      cs ≠ [] → (cs ++ rest).dropWhile isWhiteSpace = cs ++ rest := by
    intro cs rest hcs hne
    cases cs with
    | nil => exact absurd rfl hne
    | cons c cs =>
        rw [List.cons_append, List.dropWhile_cons_of_neg]
        simp [hcs c List.mem_cons_self]
  unfold trimChars
  rw [List.append_assoc, List.dropWhile_append_of_pos hbefore]
  by_cases hne : middle = []
  · subst hne
    rw [List.nil_append, List.dropWhile_eq_nil_iff.mpr hafter]
    rfl
  · have hne' : middle.reverse ≠ [] := by simpa using hne
    have hmiddle' : ∀ c ∈ middle.reverse, isWhiteSpace c = false :=
      fun c hc => hmiddle c (List.mem_reverse.mp hc)
    have hkept := hkeep [] hmiddle' hne'
    rw [List.append_nil] at hkept
    rw [hkeep after hmiddle hne, List.reverse_append, List.dropWhile_append_of_pos hreverse, hkept,
      List.reverse_reverse]

/-- What both normalisations make of a text. -/
def normalised (text : String) : String := toAsciiLowercase (trim text)

lemma sameLetters_codeText {typed code : List Char} (hcode : CodeText code)
    (h : List.Forall₂ SameLetter typed code) :
    (∀ c ∈ typed, isWhiteSpace c = false) ∧ typed.map asciiLower = code := by
  induction h with
  | nil => exact ⟨by simp, rfl⟩
  | @cons a b typed code hhead _ ih =>
      have hb := hcode b List.mem_cons_self
      obtain ⟨hwhite, hlower⟩ := ih fun c hc => hcode c (List.mem_cons_of_mem b hc)
      refine ⟨?_, by rw [List.map_cons, asciiLower_sameLetter hb hhead, hlower]⟩
      intro c hc
      rcases List.mem_cons.mp hc with rfl | hc
      · exact isWhiteSpace_sameLetter hb hhead
      · exact hwhite c hc

/-- A typed text is normalised to the code. -/
lemma normalised_typedAs {code typed : String} (hcode : CodeText code.toList)
    (h : TypedAs code typed) : normalised typed = code := by
  obtain ⟨before, middle, after, htyped, hbefore, hafter, hsame⟩ := h
  obtain ⟨hwhite, hlower⟩ := sameLetters_codeText hcode hsame
  unfold normalised trim toAsciiLowercase
  rw [String.toList_ofList, htyped, trimChars_surrounded hbefore hafter hwhite, hlower,
    String.ofList_toList]

/-- A code is one way of typing it. -/
lemma typedAs_self (code : String) : TypedAs code code := by
  refine ⟨[], code.toList, [], by simp, by simp, by simp, ?_⟩
  exact List.forall₂_same.mpr fun c _ => .inl rfl

lemma normalised_codeText {code : String} (hcode : CodeText code.toList) :
    normalised code = code :=
  normalised_typedAs hcode (typedAs_self code)

/-! ## What is accepted -/

/-- The checks of `validateRecoveryCode`: a short text of code characters that begins like a code.
Such a text is not empty and has no white space. -/
lemma checks_iff {code : String} :
    (!(code.isEmpty || decide (MAX_RECOVERY_CODE_BYTES < byteLen code) ||
      !recoveryCodeStart.isPrefixOf code.toList || code.toList.any isWhiteSpace ||
      code.toList.any fun c => !isRecoveryCodeChar c)) = true ↔
    CodeText code.toList ∧ byteLen code ≤ MAX_RECOVERY_CODE_BYTES ∧
      recoveryCodeStart <+: code.toList := by
  simp only [Bool.not_eq_true', Bool.or_eq_false_iff, decide_eq_false_iff_not, not_lt,
    Bool.not_eq_false', List.any_eq_false, Bool.not_eq_true, List.isPrefixOf_iff_prefix]
  constructor
  · rintro ⟨⟨⟨⟨-, hlength⟩, hstart⟩, -⟩, hchars⟩
    exact ⟨fun c hc => by simpa using hchars c hc, hlength, hstart⟩
  · rintro ⟨hchars, hlength, hstart⟩
    have hempty : code.isEmpty = false := by
      rw [String.isEmpty_eq_false_iff, ne_eq, ← String.toList_eq_nil_iff]
      intro hnil
      rw [hnil, List.prefix_nil] at hstart
      cases hstart
    refine ⟨⟨⟨⟨hempty, hlength⟩, hstart⟩, fun c hc => ?_⟩, fun c hc => ?_⟩
    · simp [isWhiteSpace_sameLetter (hchars c hc) (.inl rfl)]
    · simp [hchars c hc]

lemma validateRecoveryCode_iff {text code : String} :
    validateRecoveryCode text = .ok code ↔ normalised text = code ∧ CodeText code.toList ∧
      byteLen code ≤ MAX_RECOVERY_CODE_BYTES ∧ recoveryCodeStart <+: code.toList := by
  rw [← checks_iff]
  unfold validateRecoveryCode ensure
  simp only [bind, Except.bind]
  constructor
  · intro h
    split at h
    · cases h
    · rename_i hchecks
      obtain rfl : normalised text = code := Except.ok.inj h
      split at hchecks
      · rename_i hchecks'
        exact ⟨rfl, hchecks'⟩
      · cases hchecks
  · rintro ⟨rfl, hchecks⟩
    unfold normalised at hchecks
    rw [if_pos hchecks]
    rfl

/-- An accepted text is accepted again as it stands, and it is hashed like its normal form. -/
lemma validateRecoveryCode_idempotent {text code : String}
    (h : validateRecoveryCode text = .ok code) : validateRecoveryCode code = .ok code := by
  obtain ⟨-, hchars, hlength, hstart⟩ := validateRecoveryCode_iff.mp h
  exact validateRecoveryCode_iff.mpr ⟨normalised_codeText hchars, hchars, hlength, hstart⟩

lemma recoveryCodeHash_normalised (P : Platform) (accountId : Uuid) (salt : Bytes)
    {text text' : String} (h : normalised text = normalised text') :
    recoveryCodeHash P accountId salt text = recoveryCodeHash P accountId salt text' := by
  unfold normalised at h
  unfold recoveryCodeHash
  rw [h]

/-! ## What is issued -/

/-- Without the hyphens, the groups are the text. -/
lemma filter_hyphenate {cs : List Char} (h : '-' ∉ cs) :
    (hyphenate cs).filter (· != '-') = cs := by
  induction cs using hyphenate.induct with
  | case1 a b c d e rest ih =>
      simp only [List.mem_cons, not_or] at h
      obtain ⟨ha, hb, hc, hd, he, hrest⟩ := h
      have htail := ih (by simpa using ⟨he, hrest⟩)
      rw [hyphenate]
      simp [Ne.symm ha, Ne.symm hb, Ne.symm hc, Ne.symm hd, htail]
  | case2 cs hshort =>
      have hcs : hyphenate cs = cs := by
        rw [hyphenate.eq_def]
        split
        · exact absurd rfl (hshort _ _ _ _ _ _)
        · rfl
      rw [hcs]
      refine List.filter_eq_self.mpr fun c hc => ?_
      rw [bne_iff_ne]
      rintro rfl
      exact h hc

/-- The groups have the characters of the text, and hyphens. -/
lemma mem_hyphenate {cs : List Char} {c : Char} (h : c ∈ hyphenate cs) : c ∈ cs ∨ c = '-' := by
  induction cs using hyphenate.induct with
  | case1 a b c' d e rest ih =>
      rw [hyphenate] at h
      simp only [List.mem_cons] at h ⊢
      rcases h with h | h | h | h | h | h
      · exact .inl (.inl h)
      · exact .inl (.inr (.inl h))
      · exact .inl (.inr (.inr (.inl h)))
      · exact .inl (.inr (.inr (.inr (.inl h))))
      · exact .inr h
      · rcases ih h with h | h
        · exact .inl (.inr (.inr (.inr (.inr (List.mem_cons.mp h)))))
        · exact .inr h
  | case2 cs hshort =>
      rw [hyphenate.eq_def] at h
      split at h
      · exact absurd rfl (hshort _ _ _ _ _ _)
      · exact .inl h

lemma hyphenate_length (cs : List Char) : (hyphenate cs).length ≤ 2 * cs.length := by
  induction cs using hyphenate.induct with
  | case1 a b c d e rest ih =>
      rw [hyphenate]
      simp only [List.length_cons] at ih ⊢
      omega
  | case2 cs hshort =>
      rw [hyphenate.eq_def]
      split
      · exact absurd rfl (hshort _ _ _ _ _ _)
      · omega

/-- The digits of a code are lower-case letters and digits, and no two of them are alike. -/
lemma lowerDigit_facts : ∀ n < 32, isRecoveryCodeChar (asciiLower (Totp.base32Char n)) = true ∧
    asciiLower (Totp.base32Char n) ≠ '-' ∧
    Totp.base32Value (asciiByte (asciiLower (Totp.base32Char n))) = some n := by
  decide

/-- The digits of a code, in lower case. -/
lemma lowerDigits_eq (random : Bytes) :
    (Totp.base32NoPadding random).toList.map asciiLower =
      (Bits.groups 5 (Totp.byteBits random)).map fun n => asciiLower (Totp.base32Char n) := by
  rw [Totp.base32NoPadding_eq, String.toList_ofList, List.map_map]
  rfl

lemma mem_lowerDigits {random : Bytes} {c : Char}
    (h : c ∈ (Totp.base32NoPadding random).toList.map asciiLower) :
    isRecoveryCodeChar c = true ∧ c ≠ '-' := by
  rw [lowerDigits_eq] at h
  obtain ⟨n, hn, rfl⟩ := List.mem_map.mp h
  obtain ⟨hchar, hhyphen, -⟩ := lowerDigit_facts n (Bits.groups_lt 5 _ n hn)
  exact ⟨hchar, hhyphen⟩

/-- **No two draws have the same code.** -/
lemma recoveryCodeFromRandom_inj : Function.Injective recoveryCodeFromRandom := by
  intro random random' h
  unfold recoveryCodeFromRandom at h
  have hgroups := List.append_cancel_left (String.ofList_injective h)
  have hdigits := congrArg (List.filter (· != '-')) hgroups
  rw [filter_hyphenate fun hmem => (mem_lowerDigits hmem).2 rfl,
    filter_hyphenate fun hmem => (mem_lowerDigits hmem).2 rfl, lowerDigits_eq,
    lowerDigits_eq] at hdigits
  -- a digit has one value
  have hvalues : ∀ bytes : Bytes, ((Bits.groups 5 (Totp.byteBits bytes)).map fun n =>
      asciiLower (Totp.base32Char n)).map (fun c => Totp.base32Value (asciiByte c)) =
        (Bits.groups 5 (Totp.byteBits bytes)).map some := by
    intro bytes
    rw [List.map_map]
    exact List.map_congr_left fun n hn =>
      (lowerDigit_facts n (Bits.groups_lt 5 _ n hn)).2.2
  have hsome := congrArg (List.map fun c => Totp.base32Value (asciiByte c)) hdigits
  rw [hvalues, hvalues] at hsome
  have hsame := List.map_injective_iff.mpr (Option.some_injective Nat) hsome
  have htexts : Totp.base32NoPadding random = Totp.base32NoPadding random' := by
    rw [Totp.base32NoPadding_eq, Totp.base32NoPadding_eq, hsame]
  have hdecoded := Totp.decode_base32NoPadding random
  rw [htexts, Totp.decode_base32NoPadding] at hdecoded
  exact (Option.some.inj hdecoded).symm

lemma recoveryCodeFromRandom_toList (random : Bytes) :
    (recoveryCodeFromRandom random).toList = recoveryCodeStart ++
      hyphenate ((Totp.base32NoPadding random).toList.map asciiLower) :=
  String.toList_ofList

lemma recoveryCodeFromRandom_codeText (random : Bytes) :
    CodeText (recoveryCodeFromRandom random).toList := by
  have hstart : recoveryCodeStart.all isRecoveryCodeChar = true := by decide
  intro c hc
  rw [recoveryCodeFromRandom_toList] at hc
  rcases List.mem_append.mp hc with hc | hc
  · exact List.all_eq_true.mp hstart c hc
  · rcases mem_hyphenate hc with hc | rfl
    · exact (mem_lowerDigits hc).1
    · decide

lemma codeText_byteLen {cs : List Char} (h : CodeText cs) :
    byteLen (String.ofList cs) = cs.length := by
  have hascii : ∀ c ∈ cs, c.toNat < 128 := by
    intro c hc
    have hbounds := isRecoveryCodeChar_bounds (h c hc)
    omega
  unfold byteLen
  rw [utf8Bytes_ascii hascii, List.length_map]

/-- The code of 16 bytes is short enough. -/
lemma recoveryCodeFromRandom_byteLen {random : Bytes}
    (h : random.length = RECOVERY_CODE_RANDOM_BYTES) :
    byteLen (recoveryCodeFromRandom random) ≤ MAX_RECOVERY_CODE_BYTES := by
  have htext := recoveryCodeFromRandom_codeText random
  have hgroups := hyphenate_length ((Totp.base32NoPadding random).toList.map asciiLower)
  have hdigits : ((Totp.base32NoPadding random).toList.map asciiLower).length = 26 := by
    rw [lowerDigits_eq, List.length_map, Bits.groups_length, Totp.byteBits_length, h]
    rfl
  have hlength := codeText_byteLen htext
  rw [String.ofList_toList] at hlength
  have hstart : recoveryCodeStart.length = 5 := rfl
  have hmax : MAX_RECOVERY_CODE_BYTES = 128 := rfl
  rw [hlength, recoveryCodeFromRandom_toList, List.length_append]
  omega

/-- What becomes of an issued code that is typed. -/
structure RecoveryCodeRedeemable (P : Platform) (accountId : Uuid) (salt random : Bytes) : Prop where
  /-- No other draw has the code; -/
  injective : ∀ random', recoveryCodeFromRandom random' = recoveryCodeFromRandom random →
    random' = random
  /-- however it is typed, it is read as the issued code, -/
  validates : ∀ typed, TypedAs (recoveryCodeFromRandom random) typed →
    validateRecoveryCode typed = .ok (recoveryCodeFromRandom random)
  hashes : ∀ typed, TypedAs (recoveryCodeFromRandom random) typed →
    recoveryCodeHash P accountId salt typed =
      recoveryCodeHash P accountId salt (recoveryCodeFromRandom random)
  /-- and its hash is the stored one. -/
  stored : ∀ draws i typed, TypedAs (recoveryCodeFromRandom random) typed →
    recoveryCodeHash P accountId
      (newRecoveryCode P draws accountId i (recoveryCodeFromRandom random)).codeSalt typed =
      (newRecoveryCode P draws accountId i (recoveryCodeFromRandom random)).codeHash
  /-- Whatever is accepted is accepted in its normal form, with the same hash. -/
  idempotent : ∀ text code, validateRecoveryCode text = .ok code →
    validateRecoveryCode code = .ok code ∧
      recoveryCodeHash P accountId salt text = recoveryCodeHash P accountId salt code

/-- **Every issued recovery code can be redeemed as typed.** -/
theorem recoveryCode_redeemable (P : Platform) (accountId : Uuid) (salt : Bytes) {random : Bytes}
    (hrandom : random.length = RECOVERY_CODE_RANDOM_BYTES) :
    RecoveryCodeRedeemable P accountId salt random := by
  have htext := recoveryCodeFromRandom_codeText random
  have hnormal : ∀ typed, TypedAs (recoveryCodeFromRandom random) typed →
      normalised typed = normalised (recoveryCodeFromRandom random) := by
    intro typed htyped
    rw [normalised_typedAs htext htyped, normalised_codeText htext]
  refine ⟨fun random' h => recoveryCodeFromRandom_inj h, ?_, ?_, ?_, ?_⟩
  · intro typed htyped
    refine validateRecoveryCode_iff.mpr ⟨normalised_typedAs htext htyped, htext,
      recoveryCodeFromRandom_byteLen hrandom, ?_⟩
    rw [recoveryCodeFromRandom_toList]
    exact List.prefix_append _ _
  · intro typed htyped
    exact recoveryCodeHash_normalised P accountId salt (hnormal typed htyped)
  · intro draws i typed htyped
    exact recoveryCodeHash_normalised P accountId _ (hnormal typed htyped)
  · intro text code h
    have hagain := validateRecoveryCode_idempotent h
    refine ⟨hagain, recoveryCodeHash_normalised P accountId salt ?_⟩
    rw [(validateRecoveryCode_iff.mp h).1, (validateRecoveryCode_iff.mp hagain).1]

/-- The code of sixteen zeros, typed with blanks around it and in either case. -/
theorem zeroCode_redeemable :
    (List.replicate 16 (0 : UInt8)).length = RECOVERY_CODE_RANDOM_BYTES ∧
      TypedAs (recoveryCodeFromRandom (List.replicate 16 0))
        " pvrc-AAAA-aaaa-AAAA-aaaa-AAAA-aaaa-aA\n" ∧
      RecoveryCodeRedeemable standard 7 (List.replicate 16 1) (List.replicate 16 0) :=
  ⟨rfl, ⟨[' '], "pvrc-AAAA-aaaa-AAAA-aaaa-AAAA-aaaa-aA".toList, ['\n'], by decide,
    List.all_eq_true.mp (by decide), List.all_eq_true.mp (by decide), by decide⟩,
    recoveryCode_redeemable standard 7 (List.replicate 16 1) rfl⟩

end PasswordVault
