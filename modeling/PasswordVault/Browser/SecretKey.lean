import PasswordVault.Browser.CodeUnits
import PasswordVault.Browser.Values

/-!
# The account secret key on paper

The key is shown as `PVSK1-` and groups of base64url digits; what is typed in may have any white
space, and need not have the `PVSK1-`.

* `displayAccountSecretKey`, `parseAccountSecretKey`.
* `account_secret_key_iff`: which texts of a key are read back; `swallowedKey`: a key for which one
  is not.
-/

namespace PasswordVault.Browser

/-! ## Base 64 -/

/-- A digit of plain base64. -/
def btoaChar (n : Nat) : Char := if n = 62 then '+' else if n = 63 then '/' else sextetChar n

/-- `btoa`: base64 with padding. -/
def btoa (bytes : Bytes) : List Char :=
  (encodeSextets bytes).map btoaChar ++ List.replicate ((3 - bytes.length % 3) % 3) '='

def base64Url (bytes : Bytes) : String :=
  let replaced := ((btoa bytes).map fun c => if c = '+' then '-' else c).map fun c =>
    if c = '/' then '_' else c
  String.ofList (replaced.reverse.dropWhile (· = '=')).reverse

/-! ## Showing and reading -/

def secretKeyPrefix : JsString := units "PVSK1-"

/-- The matches of `/.{1,6}/g` in a line. -/
def groupsOfSix : JsString → List JsString
  | a :: b :: c :: d :: e :: f :: rest => [a, b, c, d, e, f] :: groupsOfSix rest
  | [] => []
  | s => [s]

def displayAccountSecretKey (secretKey : Bytes) : JsString :=
  let encoded := units (base64Url secretKey)
  -- `match` gives `null` when there is no match
  let groups := if encoded.isEmpty then [encoded] else groupsOfSix encoded
  secretKeyPrefix ++ (units " ").intercalate groups

def decodeAccountSecretKeyCandidate (value : JsString) : Option Bytes :=
  (base64UrlToBytes (String.ofList (value.map fun u => Char.ofNat u.toNat))).filter fun decoded =>
    decoded.length == 32

/-- `[A-Za-z0-9_-]`. -/
def isKeyUnit (u : UInt16) : Bool :=
  let n := u.toNat
  (65 ≤ n && n ≤ 90) || (97 ≤ n && n ≤ 122) || (48 ≤ n && n ≤ 57) || n == 95 || n == 45

def parseAccountSecretKey (value : JsString) : Except JsError Bytes :=
  let trimmed := trim value
  let withoutPrefix :=
    if secretKeyPrefix.isPrefixOf trimmed then trimmed.drop secretKeyPrefix.length else trimmed
  let compact := compacted withoutPrefix
  if compact.isEmpty || !compact.all isKeyUnit then
    .error ⟨"Account secret key format is invalid."⟩
  else
    match decodeAccountSecretKeyCandidate compact with
    | some decoded => .ok decoded
    | none =>
        let legacyCompact := withoutPrefix.filter fun u => !(isWhiteSpaceUnit u || u == 45)
        match if legacyCompact ≠ compact then decodeAccountSecretKeyCandidate legacyCompact
          else none with
        | some legacyDecoded => .ok legacyDecoded
        | none => .error ⟨"Account secret key must decode to 32 bytes."⟩

/-! ## Digits -/

/-- The code unit of a digit. -/
def digitUnit (n : Nat) : UInt16 := UInt16.ofNat (sextetChar n).toNat

lemma digitUnit_facts : ∀ n < 64, (sextetChar n).toNat < 0x10000 ∧
    Char.ofNat (digitUnit n).toNat = sextetChar n ∧ isKeyUnit (digitUnit n) = true ∧
    isWhiteSpaceUnit (digitUnit n) = false := by
  decide

lemma btoaChar_facts : ∀ n < 64, btoaChar n ≠ '=' ∧ sextetChar n ≠ '=' ∧
    atobSextet (btoaChar n) = some n ∧ isAsciiWhiteSpace (btoaChar n) = false ∧
    (if sextetChar n = '-' then '+' else if sextetChar n = '_' then '/' else sextetChar n) =
      btoaChar n ∧
    (if (if btoaChar n = '+' then '-' else btoaChar n) = '/' then '_'
      else if btoaChar n = '+' then '-' else btoaChar n) = sextetChar n := by
  decide

/-- Without the padding `btoa` writes what the server writes. -/
lemma base64Url_eq (bytes : Bytes) : base64Url bytes = encodeBase64url bytes := by
  have hlt := encodeSextets_lt bytes
  unfold base64Url encodeBase64url btoa
  generalize (3 - bytes.length % 3) % 3 = padding
  generalize encodeSextets bytes = ns at hlt
  simp only [List.map_append, List.map_replicate, List.map_map, List.reverse_append,
    List.reverse_replicate]
  have hdigits : (ns.map ((fun c => if c = '/' then '_' else c) ∘
      (fun c => if c = '+' then '-' else c) ∘ btoaChar)) = ns.map sextetChar :=
    List.map_congr_left fun n hn => (btoaChar_facts n (hlt n hn)).2.2.2.2.2
  have hreplicate : (if (if '=' = '+' then '-' else '=') = '/' then '_'
      else if '=' = '+' then '-' else '=') = '=' := by decide
  rw [hdigits, hreplicate, List.dropWhile_append_of_pos fun c hc => by
    simp [(List.mem_replicate.mp hc).2]]
  congr 1
  have hkeep : (ns.map sextetChar).reverse.dropWhile (· = '=') = (ns.map sextetChar).reverse := by
    cases hreverse : (ns.map sextetChar).reverse with
    | nil => rfl
    | cons c rest =>
        have hmem : c ∈ ns.map sextetChar := by
          rw [← List.mem_reverse, hreverse]
          exact List.mem_cons_self
        obtain ⟨n, hn, rfl⟩ := List.mem_map.mp hmem
        rw [List.dropWhile_cons, if_neg (by simp [(btoaChar_facts n (hlt n hn)).2.1])]
  rw [hkeep, List.reverse_reverse]

/-- The string of a key. -/
lemma units_base64Url (bytes : Bytes) :
    units (base64Url bytes) = (encodeSextets bytes).map digitUnit := by
  rw [base64Url_eq, encodeBase64url, units_ofList, List.map_map]
  · rfl
  · intro c hc
    obtain ⟨n, hn, rfl⟩ := List.mem_map.mp hc
    exact (digitUnit_facts n (encodeSextets_lt bytes n hn)).1

/-- Padding up to a multiple of four is taken off again, unless it is three characters. -/
lemma dropPadding_padded {cs : List Char} (h : '=' ∉ cs) :
    dropPadding (cs ++ List.replicate ((cs.length + 3) / 4 * 4 - cs.length) '=') =
      if cs.length % 4 = 1 then cs ++ ['='] else cs := by
  have hlength : (cs ++ List.replicate ((cs.length + 3) / 4 * 4 - cs.length) '=').length % 4 = 0 := by
    rw [List.length_append, List.length_replicate]
    omega
  rw [dropPadding, if_pos hlength, List.reverse_append, List.reverse_replicate]
  have hcases : (cs.length + 3) / 4 * 4 - cs.length = (4 - cs.length % 4) % 4 := by omega
  rw [hcases]
  have hhead : ∀ rest, cs.reverse ≠ '=' :: rest := by
    intro rest hrest
    exact h (List.mem_reverse.mp (hrest ▸ List.mem_cons_self))
  rcases (by omega : cs.length % 4 = 0 ∨ cs.length % 4 = 1 ∨ cs.length % 4 = 2 ∨ cs.length % 4 = 3)
    with hmod | hmod | hmod | hmod
  · simp only [hmod]
    split
    · rename_i rest hrest
      exact absurd hrest (hhead _)
    · rename_i rest _ hrest
      exact absurd hrest (hhead _)
    · simp
  · simp [hmod, List.replicate_succ]
  · simp [hmod, List.replicate_succ]
  · simp only [hmod]
    split
    · rename_i rest hrest
      exact absurd (List.cons.inj hrest).2 (hhead _)
    · rename_i rest _ hrest
      simp [← (List.cons.inj hrest).2]
    · rename_i hrest
      exact absurd rfl (hrest _)

lemma mapM_atobSextet {ns : List Nat} (hlt : ∀ n ∈ ns, n < 64) :
    (ns.map btoaChar).mapM atobSextet = some ns := by
  induction ns with
  | nil => rfl
  | cons n ns ih =>
      have hn := (btoaChar_facts n (hlt n List.mem_cons_self)).2.2.1
      have hns := ih fun m hm => hlt m (List.mem_cons_of_mem n hm)
      rw [List.map_cons, List.mapM_cons, hn, hns]
      rfl

/-- What some digits decode to is three quarters as long, and a single digit is left over never. -/
lemma atobBytes_length {ns : List Nat} :
    ∀ {bytes : Bytes}, atobBytes ns = some bytes →
      ns.length % 4 ≠ 1 ∧ bytes.length = ns.length * 3 / 4 := by
  induction ns using atobBytes.induct with
  | case1 =>
      intro bytes h
      obtain rfl := Option.some.inj h
      exact ⟨by decide, rfl⟩
  | case2 w =>
      intro bytes h
      cases h
  | case3 w x =>
      intro bytes h
      obtain rfl := Option.some.inj h
      exact ⟨by simp, by simp⟩
  | case4 w x y =>
      intro bytes h
      obtain rfl := Option.some.inj h
      exact ⟨by simp, by simp⟩
  | case5 w x y z rest ih =>
      intro bytes h
      rw [atobBytes] at h
      obtain ⟨bytes', hrest, rfl⟩ := Option.map_eq_some_iff.mp h
      obtain ⟨hmod, hlength⟩ := ih hrest
      simp only [List.length_cons]
      omega

lemma atobBytes_encodeSextets (bytes : Bytes) : atobBytes (encodeSextets bytes) = some bytes := by
  have hloose : ∀ {ns : List Nat} {bytes : Bytes}, decodeSextets ns = some bytes →
      atobBytes ns = some bytes := by
    intro ns
    induction ns using atobBytes.induct with
    | case1 => exact fun h => h
    | case2 w =>
        intro bytes h
        cases h
    | case3 w x =>
        intro bytes h
        rw [decodeSextets] at h
        exact (Option.ite_none_right_eq_some.mp h).2
    | case4 w x y =>
        intro bytes h
        rw [decodeSextets] at h
        exact (Option.ite_none_right_eq_some.mp h).2
    | case5 w x y z rest ih =>
        intro bytes h
        rw [decodeSextets] at h
        obtain ⟨bytes', hrest, rfl⟩ := Option.map_eq_some_iff.mp h
        rw [atobBytes, ih hrest]
        rfl
  exact hloose (decodeSextets_encodeSextets bytes)

/-- Digits are read as `atob` reads their plain form. -/
lemma base64UrlToBytes_digits {ns : List Nat} (hlt : ∀ n ∈ ns, n < 64) :
    base64UrlToBytes (String.ofList (ns.map sextetChar)) = atobBytes ns := by
  have hreplaced : (ns.map sextetChar).map
      (fun c => if c = '-' then '+' else if c = '_' then '/' else c) = ns.map btoaChar := by
    rw [List.map_map]
    exact List.map_congr_left fun n hn => (btoaChar_facts n (hlt n hn)).2.2.2.2.1
  have hpadding : '=' ∉ ns.map btoaChar := by
    intro hmem
    obtain ⟨n, hn, heq⟩ := List.mem_map.mp hmem
    exact (btoaChar_facts n (hlt n hn)).1 heq
  unfold base64UrlToBytes atob
  rw [String.toList_ofList, hreplaced]
  dsimp only
  rw [List.filter_eq_self.mpr, dropPadding_padded hpadding]
  · split
    · rename_i hmod
      rw [List.length_map] at hmod
      have hnone : atobSextet '=' = none := by decide
      have hbytes : atobBytes ns = none := by
        by_contra hsome
        obtain ⟨bytes, hbytes⟩ := Option.ne_none_iff_exists'.mp hsome
        exact (atobBytes_length hbytes).1 hmod
      rw [List.mapM_append, mapM_atobSextet hlt, hbytes, List.mapM_cons, hnone]
      rfl
    · rw [mapM_atobSextet hlt]
      rfl
  · intro c hc
    rcases List.mem_append.mp hc with hc | hc
    · obtain ⟨n, hn, rfl⟩ := List.mem_map.mp hc
      simp [(btoaChar_facts n (hlt n hn)).2.2.2.1]
    · rw [(List.mem_replicate.mp hc).2]
      decide

/-- A candidate is read from its digits. -/
lemma decodeAccountSecretKeyCandidate_digits {ns : List Nat} (hlt : ∀ n ∈ ns, n < 64) :
    decodeAccountSecretKeyCandidate (ns.map digitUnit) =
      (atobBytes ns).filter fun decoded => decoded.length == 32 := by
  have hchars : (ns.map digitUnit).map (fun u => Char.ofNat u.toNat) = ns.map sextetChar := by
    rw [List.map_map]
    exact List.map_congr_left fun n hn => (digitUnit_facts n (hlt n hn)).2.1
  rw [decodeAccountSecretKeyCandidate, hchars, base64UrlToBytes_digits hlt]

lemma compacted_digits {ns : List Nat} (hlt : ∀ n ∈ ns, n < 64) :
    compacted (ns.map digitUnit) = ns.map digitUnit := by
  refine List.filter_eq_self.mpr fun u hu => ?_
  obtain ⟨n, hn, rfl⟩ := List.mem_map.mp hu
  simp [(digitUnit_facts n (hlt n hn)).2.2.2]

/-! ## Reading -/

/-- What is read once the prefix is off. -/
def readSecretKey (withoutPrefix : JsString) : Except JsError Bytes :=
  let compact := compacted withoutPrefix
  if compact.isEmpty || !compact.all isKeyUnit then
    .error ⟨"Account secret key format is invalid."⟩
  else
    match decodeAccountSecretKeyCandidate compact with
    | some decoded => .ok decoded
    | none =>
        let legacyCompact := withoutPrefix.filter fun u => !(isWhiteSpaceUnit u || u == 45)
        match if legacyCompact ≠ compact then decodeAccountSecretKeyCandidate legacyCompact
          else none with
        | some legacyDecoded => .ok legacyDecoded
        | none => .error ⟨"Account secret key must decode to 32 bytes."⟩

lemma parseAccountSecretKey_eq (value : JsString) :
    parseAccountSecretKey value =
      if secretKeyPrefix.isPrefixOf (trim value) then
        readSecretKey ((trim value).drop secretKeyPrefix.length)
      else readSecretKey (trim value) := by
  unfold parseAccountSecretKey readSecretKey
  by_cases h : secretKeyPrefix.isPrefixOf (trim value) = true
  · simp only [if_pos h]
  · simp only [if_neg h]

/-- The digits of a key are read as the key, wherever white space stands. -/
lemma readSecretKey_digits {key : Bytes} (hkey : key.length = 32) {value : JsString}
    (hvalue : compacted value = units (base64Url key)) : readSecretKey value = .ok key := by
  have hlt := encodeSextets_lt key
  have hne : (encodeSextets key) ≠ [] := by
    intro hnil
    have hlength := (atobBytes_length (atobBytes_encodeSextets key)).2
    rw [hnil, hkey] at hlength
    cases hlength
  have hall : ((encodeSextets key).map digitUnit).all isKeyUnit = true := by
    refine List.all_eq_true.mpr fun u hu => ?_
    obtain ⟨n, hn, rfl⟩ := List.mem_map.mp hu
    exact (digitUnit_facts n (hlt n hn)).2.2.1
  have hread : decodeAccountSecretKeyCandidate ((encodeSextets key).map digitUnit) = some key := by
    rw [decodeAccountSecretKeyCandidate_digits hlt, atobBytes_encodeSextets]
    simp [Option.filter, hkey]
  unfold readSecretKey
  rw [hvalue, units_base64Url]
  dsimp only
  rw [hall, hread]
  simp [hne]

/-- Fewer than 43 digits are no key, with or without their hyphens. -/
lemma readSecretKey_short {value : JsString} {ns : List Nat} (hlt : ∀ n ∈ ns, n < 64)
    (hvalue : compacted value = ns.map digitUnit) (hshort : ns.length < 43) (key : Bytes) :
    readSecretKey value ≠ .ok key := by
  have hcandidate : ∀ ms : List Nat, (∀ n ∈ ms, n < 64) → ms.length ≤ ns.length →
      decodeAccountSecretKeyCandidate (ms.map digitUnit) = none := by
    intro ms hms hle
    rw [decodeAccountSecretKeyCandidate_digits hms, Option.filter_eq_none_iff]
    intro bytes hbytes
    have hlength := (atobBytes_length hbytes).2
    have h32 : bytes.length ≠ 32 := by omega
    simpa using h32
  -- without its hyphens it has fewer digits
  have hlegacy : value.filter (fun u => !(isWhiteSpaceUnit u || u == 45)) =
      (ns.filter fun n => digitUnit n != 45).map digitUnit := by
    have hfilter : value.filter (fun u => !(isWhiteSpaceUnit u || u == 45)) =
        (compacted value).filter fun u => u != 45 := by
      rw [compacted, List.filter_filter]
      refine List.filter_congr fun u _ => ?_
      cases isWhiteSpaceUnit u <;> simp [bne]
    rw [hfilter, hvalue, List.filter_map]
    rfl
  unfold readSecretKey
  rw [hvalue, hlegacy]
  dsimp only
  rw [hcandidate ns hlt (Nat.le_refl _), hcandidate (ns.filter fun n => digitUnit n != 45)
    (fun n hn => hlt n (List.mem_of_mem_filter hn)) (List.length_filter_le _ _), ite_self]
  split
  · exact fun h => by cases h
  · exact fun h => by cases h

lemma readSecretKey_length {value : JsString} {key : Bytes} (h : readSecretKey value = .ok key) :
    key.length = 32 := by
  have hcandidate : ∀ {s : JsString} {bytes : Bytes},
      decodeAccountSecretKeyCandidate s = some bytes → bytes.length = 32 := by
    intro s bytes hs
    unfold decodeAccountSecretKeyCandidate at hs
    rw [Option.filter_eq_some_iff] at hs
    exact eq_of_beq hs.2
  unfold readSecretKey at h
  dsimp only at h
  split at h
  · cases h
  · split at h
    · rename_i decoded hdecoded
      obtain rfl := Except.ok.inj h
      exact hcandidate hdecoded
    · split at h
      · rename_i legacyDecoded hdecoded
        obtain rfl := Except.ok.inj h
        split at hdecoded
        · exact hcandidate hdecoded
        · cases hdecoded
      · cases h

/-! ## The texts of a key -/

/-- The digits of the key, with white space anywhere. -/
def IsTranscript (key : Bytes) (text : JsString) : Prop := compacted text = units (base64Url key)

/-- How the texts of a key are read. -/
structure SecretKeyRead (key : Bytes) : Prop where
  /-- With the prefix all of them are read back, -/
  prefixed : ∀ text, IsTranscript key text →
    parseAccountSecretKey (secretKeyPrefix ++ text) = .ok key
  /-- among them the one that is shown. -/
  displayed : parseAccountSecretKey (displayAccountSecretKey key) = .ok key
  /-- Without it, those that do not start like the prefix. -/
  bare : ∀ text, IsTranscript key text →
    (parseAccountSecretKey text = .ok key ↔ ¬ secretKeyPrefix <+: trim text)

lemma flatten_groupsOfSix (s : JsString) : (groupsOfSix s).flatten = s := by
  induction s using groupsOfSix.induct with
  | case1 a b c d e f rest ih => simp [groupsOfSix, ih]
  | case2 => rfl
  | case3 s h h' => rw [groupsOfSix.eq_3 s h h', List.flatten_singleton]

/-- The blanks between the groups are white space. -/
lemma compacted_intercalate (groups : List JsString) :
    compacted ((units " ").intercalate groups) = compacted groups.flatten := by
  have hblank : compacted (units " ") = [] := by decide
  induction groups with
  | nil => rfl
  | cons group groups ih =>
      cases groups with
      | nil => simp
      | cons next groups =>
          rw [List.intercalate_cons_cons, compacted_append, compacted_append, hblank, ih,
            List.append_nil, ← compacted_append, ← List.flatten_cons]

lemma isTranscript_digits (key : Bytes) : IsTranscript key (units (base64Url key)) := by
  unfold IsTranscript
  rw [units_base64Url]
  exact compacted_digits (encodeSextets_lt key)

/-- **A key survives transcription** with its prefix always; without it exactly where the text does
not start like the prefix itself. And nothing is read as a key that is not 32 bytes long. -/
theorem account_secret_key_iff {key : Bytes} (hkey : key.length = 32) :
    SecretKeyRead key ∧
      ∀ text key', parseAccountSecretKey text = .ok key' → key'.length = 32 := by
  have hprefixed : ∀ text, IsTranscript key text →
      parseAccountSecretKey (secretKeyPrefix ++ text) = .ok key := by
    intro text htext
    have hstart : trimStart (secretKeyPrefix ++ text) = secretKeyPrefix ++ text := rfl
    have htrim : trim (secretKeyPrefix ++ text) = secretKeyPrefix ++ trimEnd text := by
      have hlast : ∀ u ∈ secretKeyPrefix.getLast?, isWhiteSpaceUnit u = false := by
        intro u hu
        obtain rfl : (45 : UInt16) = u := Option.some.inj hu
        decide
      rw [trim, hstart, trimEnd_append hlast]
    rw [parseAccountSecretKey_eq, htrim, if_pos, List.drop_left]
    · exact readSecretKey_digits hkey (by rw [compacted_trimEnd, htext])
    · rw [List.isPrefixOf_iff_prefix]
      exact List.prefix_append _ _
  refine ⟨⟨hprefixed, ?_, ?_⟩, ?_⟩
  · refine hprefixed _ ?_
    unfold IsTranscript
    have hdigits := isTranscript_digits key
    unfold IsTranscript at hdigits
    split
    · simpa using hdigits
    · rw [compacted_intercalate, flatten_groupsOfSix, hdigits]
  · intro text htext
    rw [parseAccountSecretKey_eq]
    by_cases hstarts : secretKeyPrefix <+: trim text
    · -- six digits are taken for the prefix
      rw [if_pos (List.isPrefixOf_iff_prefix.mpr hstarts)]
      obtain ⟨rest, hrest⟩ := hstarts
      have hsix : compacted secretKeyPrefix = secretKeyPrefix := by decide
      have hcompact := compacted_trim text
      rw [← hrest, compacted_append, hsix] at hcompact
      have hall : secretKeyPrefix ++ compacted rest = (encodeSextets key).map digitUnit :=
        hcompact.trans (htext.trans (units_base64Url key))
      have hdrop : compacted rest = ((encodeSextets key).drop secretKeyPrefix.length).map
          digitUnit := by
        rw [List.map_drop, ← hall, List.drop_left]
      have hlength := (atobBytes_length (atobBytes_encodeSextets key)).2
      have hsixLength : secretKeyPrefix.length = 6 := by decide
      rw [← hrest, List.drop_left]
      refine iff_of_false (readSecretKey_short
        (fun n hn => encodeSextets_lt key n (List.mem_of_mem_drop hn)) hdrop ?_ key)
        fun hnot => hnot ⟨rest, rfl⟩
      rw [List.length_drop]
      omega
    · rw [if_neg fun h => hstarts (List.isPrefixOf_iff_prefix.mp h)]
      exact iff_of_true (readSecretKey_digits hkey (by rw [compacted_trim, htext])) hstarts
  · intro text key' h
    rw [parseAccountSecretKey_eq] at h
    split at h
    · exact readSecretKey_length h
    · exact readSecretKey_length h

/-- The key of the tests is read back from what is shown. -/
theorem account_secret_key_iff_test : (List.replicate 32 (251 : UInt8)).length = 32 ∧
    parseAccountSecretKey (displayAccountSecretKey (List.replicate 32 251)) =
      .ok (List.replicate 32 251) :=
  ⟨by decide, (account_secret_key_iff (by decide : (List.replicate 32 251).length = 32)).1.displayed⟩

/-- A key whose digits start with `PVSK1-`. -/
def swallowedKey : Bytes := [61, 84, 138, 215, 224] ++ List.replicate 27 0

/-- **A key is not read back from its digits.** -/
theorem swallowedKey_lost : swallowedKey.length = 32 ∧
    IsTranscript swallowedKey (units (base64Url swallowedKey)) ∧
    parseAccountSecretKey (units (base64Url swallowedKey)) ≠ .ok swallowedKey := by
  refine ⟨by decide, isTranscript_digits _, fun h => ?_⟩
  have hnone : (parseAccountSecretKey (units (base64Url swallowedKey))).toOption = none := by
    decide +kernel
  rw [h] at hnone
  cases hnone

end PasswordVault.Browser
