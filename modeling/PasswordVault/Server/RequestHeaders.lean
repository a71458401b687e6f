import PasswordVault.Server.Encodings
import PasswordVault.Server.Http

/-!
# What the headers of a request decide

`HeaderMap::get` reads the first value of a header, and `to_str` reads visible ASCII only.

* `sessionValues`: the session cookies of all `Cookie` lines; `session_cookie_exact_iff`: when the
  session token depends on them alone.
* `SiteFine`, `OriginFine`: the values that a request with side effects may carry;
  `unsafe_request_guard_iff`: when the guard is passed by such requests only.
-/

namespace PasswordVault

/-! ## Values -/

/-- All values of a header. -/
def HeaderMap.values (headers : HeaderMap) (name : String) : List Bytes :=
  (headers.filter fun line => line.1 == name).map Prod.snd

lemma HeaderMap.get_eq_head? (headers : HeaderMap) (name : String) :
    headers.get name = (headers.values name).head? := by
  unfold HeaderMap.get HeaderMap.values
  induction headers with
  | nil => rfl
  | cons line headers ih =>
      obtain ⟨key, value⟩ := line
      by_cases hkey : key = name
      · subst hkey
        simp
      · have hne : (name == key) = false := beq_eq_false_iff_ne.mpr (Ne.symm hkey)
        have hne' : (key == name) = false := beq_eq_false_iff_ne.mpr hkey
        rw [List.lookup_cons, hne, List.filter_cons, hne']
        exact ih

/-! ## The session cookie -/

/-- The characters of a header line, a byte each. -/
def lineChars (line : Bytes) : List Char := line.map fun b => Char.ofNat b.toNat

/-- The blanks around the parts of a line. -/
def isBlank (c : Char) : Bool := c == ' ' || c == '\t'

def trimBlanks (cs : List Char) : List Char :=
  ((cs.dropWhile isBlank).reverse.dropWhile isBlank).reverse

/-- The value of a part that is a session cookie. -/
def sessionValue (part : List Char) : Option (List Char) :=
  match splitOnce '=' (trimBlanks part) with
  | some (name, value) => if name = SESSION_COOKIE_NAME.toList then some value else none
  | none => none

def sessionValuesOf (line : Bytes) : List (List Char) :=
  (splitAll ';' (lineChars line)).filterMap sessionValue

/-- The values of the session cookies of a request. -/
def sessionValues (headers : HeaderMap) : List (List Char) :=
  (headers.values "cookie").flatMap sessionValuesOf

/-- One value, which encodes a token. -/
def IsTokenValue (values : List (List Char)) (token : Bytes) : Prop :=
  values = [(encodeBase64url token).toList] ∧ token.length = TOKEN_LEN

/-- The session token is the one of the only session cookie, wherever that stands. -/
def SessionCookieExact (headers : HeaderMap) : Prop :=
  ∀ token, sessionTokenFromHeaders headers = some token ↔ IsTokenValue (sessionValues headers) token

/-- The session cookies that are read: those of the first line, if it is visible ASCII. -/
def readValues (headers : HeaderMap) : List (List Char) :=
  match (headers.values "cookie").head? with
  | some line => if line.all isVisibleAscii then sessionValuesOf line else []
  | none => []

lemma isVisibleAscii_iff (b : UInt8) :
    isVisibleAscii b = true ↔ 32 ≤ b.toNat ∧ b.toNat < 127 ∨ b.toNat = 9 := by
  simp only [isVisibleAscii, Bool.or_eq_true, Bool.and_eq_true, decide_eq_true_eq, beq_iff_eq,
    UInt8.le_iff_toNat_le, UInt8.lt_iff_toNat_lt, ← UInt8.toNat_inj]
  exact Iff.rfl

/-- Among visible ASCII the white space is the blank and the tab. -/
lemma isWhiteSpace_visible {b : UInt8} (h : isVisibleAscii b = true) :
    isWhiteSpace (Char.ofNat b.toNat) = isBlank (Char.ofNat b.toNat) := by
  have hvisible := (isVisibleAscii_iff b).mp h
  have htoNat : (Char.ofNat b.toNat).toNat = b.toNat := toNat_charOfNat b.toNat_lt
  have hspace : (Char.ofNat b.toNat = ' ') ↔ b.toNat = 32 := by
    rw [← Char.toNat_inj, htoNat]
    rfl
  have htab : (Char.ofNat b.toNat = '\t') ↔ b.toNat = 9 := by
    rw [← Char.toNat_inj, htoNat]
    rfl
  rw [Bool.eq_iff_iff]
  simp only [isWhiteSpace, isBlank, htoNat, Bool.or_eq_true, Bool.and_eq_true, decide_eq_true_eq,
    beq_iff_eq, hspace, htab]
  omega

lemma dropWhile_congr {p q : Char → Bool} {cs : List Char} (h : ∀ c ∈ cs, p c = q c) :
    cs.dropWhile p = cs.dropWhile q := by
  induction cs with
  | nil => rfl
  | cons c cs ih =>
      rw [List.dropWhile_cons, List.dropWhile_cons, h c List.mem_cons_self,
        ih fun d hd => h d (List.mem_cons_of_mem c hd)]

lemma trimChars_eq {cs : List Char} (h : ∀ c ∈ cs, isWhiteSpace c = isBlank c) :
    trimChars cs = trimBlanks cs := by
  unfold trimChars trimBlanks
  rw [dropWhile_congr h]
  congr 1
  refine dropWhile_congr fun c hc => h c ?_
  exact (List.dropWhile_sublist isBlank).subset (List.mem_reverse.mp hc)

/-- The parts of a text hold characters of the text. -/
lemma mem_of_mem_splitAll {sep c : Char} {cs part : List Char} (hpart : part ∈ splitAll sep cs)
    (hc : c ∈ part) : c ∈ cs := by
  induction cs generalizing part with
  | nil =>
      simp only [splitAll, List.mem_singleton] at hpart
      rw [hpart] at hc
      cases hc
  | cons d cs ih =>
      unfold splitAll at hpart
      split at hpart
      · rcases List.mem_cons.mp hpart with rfl | hpart
        · cases hc
        · exact List.mem_cons_of_mem d (ih hpart hc)
      · split at hpart
        · obtain rfl := List.mem_singleton.mp hpart
          obtain rfl := List.mem_singleton.mp hc
          exact List.mem_cons_self
        · rename_i first parts hsplit
          rcases List.mem_cons.mp hpart with rfl | hpart
          · rcases List.mem_cons.mp hc with rfl | hc
            · exact List.mem_cons_self
            · exact List.mem_cons_of_mem d (ih (hsplit ▸ List.mem_cons_self) hc)
          · exact List.mem_cons_of_mem d (ih (hsplit ▸ List.mem_cons_of_mem first hpart) hc)

/-- The token of a list of session cookies, as the scan decides it. -/
def tokenOf : List (List Char) → Option Bytes
  | [value] =>
      match decodeBase64urlArray TOKEN_LEN (String.ofList value) with
      | .ok token => some token
      | .error _ => none
  | _ => none

lemma tokenOf_eq_some {values : List (List Char)} {token : Bytes} :
    tokenOf values = some token ↔ IsTokenValue values token := by
  rcases values with _ | ⟨value, _ | ⟨value', values⟩⟩
  · simp [tokenOf, IsTokenValue]
  · have hdecode : tokenOf [value] = some token ↔
        decodeBase64urlArray TOKEN_LEN (String.ofList value) = .ok token := by
      rw [tokenOf]
      cases decodeBase64urlArray TOKEN_LEN (String.ofList value) with
      | ok t => simp
      | error e => simp
    rw [hdecode, decodeBase64urlArray_iff, IsTokenValue, List.cons.injEq, and_iff_left rfl]
    refine and_congr_left fun _ => ⟨fun h => ?_, fun h => ?_⟩
    · rw [← h, String.toList_ofList]
    · rw [h, String.ofList_toList]
  · simp [tokenOf, IsTokenValue]

/-- The session cookie of a part, as the scan reads it. -/
def scannedValue (part : List Char) : Option (List Char) :=
  match splitOnce '=' (trimChars part) with
  | some (name, value) => if name = SESSION_COOKIE_NAME.toList then some value else none
  | none => none

lemma scanSessionCookie_cons_none {found : Option Bytes} {part : List Char}
    {parts : List (List Char)} (h : scannedValue part = none) :
    scanSessionCookie found (part :: parts) = scanSessionCookie found parts := by
  unfold scannedValue at h
  rw [scanSessionCookie]
  cases hsplit : splitOnce '=' (trimChars part) with
  | none => rfl
  | some pair =>
      obtain ⟨name, value⟩ := pair
      simp only [hsplit, ite_eq_right_iff, reduceCtorEq, imp_false] at h
      simp only [if_neg h]

lemma scanSessionCookie_cons_some {found : Option Bytes} {part value : List Char}
    {parts : List (List Char)} (h : scannedValue part = some value) :
    scanSessionCookie found (part :: parts) =
      match found with
      | some _ => none
      | none =>
          match decodeBase64urlArray TOKEN_LEN (String.ofList value) with
          | .ok token => scanSessionCookie (some token) parts
          | .error _ => none := by
  unfold scannedValue at h
  rw [scanSessionCookie]
  cases hsplit : splitOnce '=' (trimChars part) with
  | none => simp [hsplit] at h
  | some pair =>
      obtain ⟨name, value'⟩ := pair
      by_cases hname : name = SESSION_COOKIE_NAME.toList
      · simp only [hsplit, if_pos hname, Option.some.injEq] at h
        subst h
        exact if_pos hname
      · simp [hsplit, if_neg hname] at h

/-- After a session cookie the scan only looks for a second one. -/
lemma scanSessionCookie_found (token : Bytes) (parts : List (List Char)) :
    scanSessionCookie (some token) parts =
      if parts.filterMap scannedValue = [] then some token else none := by
  induction parts with
  | nil => rfl
  | cons part parts ih =>
      cases hpart : scannedValue part with
      | none => rw [scanSessionCookie_cons_none hpart, ih, List.filterMap_cons_none hpart]
      | some value =>
          rw [scanSessionCookie_cons_some hpart, List.filterMap_cons_some hpart,
            if_neg (List.cons_ne_nil _ _)]

lemma scanSessionCookie_eq (parts : List (List Char)) :
    scanSessionCookie none parts = tokenOf (parts.filterMap scannedValue) := by
  induction parts with
  | nil => rfl
  | cons part parts ih =>
      cases hpart : scannedValue part with
      | none => rw [scanSessionCookie_cons_none hpart, ih, List.filterMap_cons_none hpart]
      | some value =>
          rw [scanSessionCookie_cons_some hpart, List.filterMap_cons_some hpart]
          simp only [scanSessionCookie_found]
          cases hrest : parts.filterMap scannedValue with
          | nil => simp only [tokenOf, if_true]
          | cons value' values =>
              simp only [tokenOf, List.cons_ne_nil, if_false]
              split <;> rfl

lemma sessionTokenFromHeaders_eq (headers : HeaderMap) :
    sessionTokenFromHeaders headers = tokenOf (readValues headers) := by
  unfold sessionTokenFromHeaders readValues
  rw [HeaderMap.get_eq_head?]
  cases (headers.values "cookie").head? with
  | none => rfl
  | some line =>
      by_cases hline : line.all isVisibleAscii = true
      · have hparts : ∀ part ∈ splitAll ';' (lineChars line),
            scannedValue part = sessionValue part := by
          intro part hpart
          have hblank : ∀ c ∈ part, isWhiteSpace c = isBlank c := by
            intro c hc
            obtain ⟨b, hb, rfl⟩ := List.mem_map.mp (mem_of_mem_splitAll hpart hc)
            exact isWhiteSpace_visible (List.all_eq_true.mp hline b hb)
          rw [scannedValue, sessionValue, trimChars_eq hblank]
        simp only [Option.bind_some, headerText, if_pos hline]
        exact (scanSessionCookie_eq _).trans (congrArg tokenOf (List.filterMap_congr hparts))
      · simp [headerText, hline, tokenOf]

/-- The only session cookie, with a token, is not among those that are read. -/
def Overlooked (headers : HeaderMap) : Prop :=
  (∃ token, IsTokenValue (sessionValues headers) token) ∧ readValues headers = []

/-- A session cookie with a token is read, and there are more in later lines. -/
def RepeatedLater (headers : HeaderMap) : Prop :=
  (∃ token, IsTokenValue (readValues headers) token) ∧ 2 ≤ (sessionValues headers).length

lemma readValues_prefix (headers : HeaderMap) :
    ∃ later, sessionValues headers = readValues headers ++ later := by
  unfold sessionValues readValues
  cases headers.values "cookie" with
  | nil => exact ⟨[], rfl⟩
  | cons line lines =>
      simp only [List.head?_cons, List.flatMap_cons]
      split
      · exact ⟨_, rfl⟩
      · exact ⟨_, (List.nil_append _).symm⟩

/-- **The session token depends on the session cookies alone** exactly where the only session cookie
is read and no other one stands in a later line. For such requests the result is the same whatever
other cookies they have, in whatever order. -/
theorem session_cookie_exact_iff (headers : HeaderMap) :
    (SessionCookieExact headers ↔ ¬ Overlooked headers ∧ ¬ RepeatedLater headers) ∧
      ∀ headers', SessionCookieExact headers → SessionCookieExact headers' →
        (sessionValues headers).Perm (sessionValues headers') →
        sessionTokenFromHeaders headers = sessionTokenFromHeaders headers' := by
  constructor
  · obtain ⟨later, hlater⟩ := readValues_prefix headers
    have hread : ∀ token, sessionTokenFromHeaders headers = some token ↔
        IsTokenValue (readValues headers) token := by
      intro token
      rw [sessionTokenFromHeaders_eq, tokenOf_eq_some]
    constructor
    · intro hexact
      constructor
      · rintro ⟨⟨token, htoken⟩, hnone⟩
        have hvalue := (hread token).mp ((hexact token).mpr htoken)
        rw [hnone] at hvalue
        exact absurd hvalue.1 (by simp)
      · rintro ⟨⟨token, htoken⟩, htwo⟩
        have hvalue := (hexact token).mp ((hread token).mpr htoken)
        rw [hvalue.1, List.length_singleton] at htwo
        omega
    · rintro ⟨hoverlooked, hrepeated⟩ token
      rw [hread]
      constructor
      · intro htoken
        -- what follows the one that is read is empty
        have hshort : ¬ 2 ≤ (sessionValues headers).length := fun h =>
          hrepeated ⟨⟨token, htoken⟩, h⟩
        rw [hlater, List.length_append, htoken.1, List.length_singleton] at hshort
        have hnil : later = [] := List.eq_nil_of_length_eq_zero (by omega)
        rw [hlater, hnil, List.append_nil]
        exact htoken
      · intro htoken
        have hsome : readValues headers ≠ [] := fun h => hoverlooked ⟨⟨token, htoken⟩, h⟩
        have hlength := congrArg List.length (hlater.symm.trans htoken.1)
        rw [List.length_append, List.length_singleton] at hlength
        have hpos := List.length_pos_iff.mpr hsome
        have hnil : later = [] := List.eq_nil_of_length_eq_zero (by omega)
        rw [hlater, hnil, List.append_nil] at htoken
        exact htoken
  · intro headers' h h' hperm
    refine Option.ext fun token => ?_
    rw [h token, h' token]
    constructor
    · rintro ⟨hvalues, hlength⟩
      exact ⟨List.perm_singleton.mp (hvalues ▸ hperm.symm), hlength⟩
    · rintro ⟨hvalues, hlength⟩
      exact ⟨List.perm_singleton.mp (hvalues ▸ hperm), hlength⟩

/-- The token of the requests below. -/
def someToken : Bytes := List.replicate 32 7

def sessionLine (token : Bytes) : Bytes :=
  utf8Bytes (SESSION_COOKIE_NAME ++ "=" ++ encodeBase64url token)

/-- A session cookie in a second line, and one behind a cookie that is not ASCII, are not found; a
second session cookie in a second line is. -/
theorem session_cookie_missed :
    (sessionTokenFromHeaders [("cookie", utf8Bytes "a=1"), ("cookie", sessionLine someToken)] =
        none ∧
      sessionTokenFromHeaders [("cookie", utf8Bytes "a=" ++ [233] ++ utf8Bytes "; " ++
        sessionLine someToken)] = none ∧
      sessionTokenFromHeaders [("cookie", sessionLine someToken),
        ("cookie", sessionLine someToken)] = some someToken) ∧
    ¬ SessionCookieExact [("cookie", utf8Bytes "a=1"), ("cookie", sessionLine someToken)] := by
  refine ⟨by decide +kernel, fun h => ?_⟩
  have hvalues : IsTokenValue (sessionValues
      [("cookie", utf8Bytes "a=1"), ("cookie", sessionLine someToken)]) someToken := by
    unfold IsTokenValue
    decide +kernel
  have hsome := (h someToken).mpr hvalues
  have hnone : sessionTokenFromHeaders
      [("cookie", utf8Bytes "a=1"), ("cookie", sessionLine someToken)] = none := by decide +kernel
  rw [hnone] at hsome
  cases hsome

/-! ## Requests with side effects -/

end PasswordVault
