import PasswordVault.Server.Text

/-!
# What encodings keep

* `utf8Bytes` of appended texts, of a list of characters and of ASCII text; it is injective.
* The decimal digits of a number, as the bytes that a length prefix is made of.
* `decodeBase64urlArray_iff`: a text that decodes is the encoding of its bytes.
* Numbers from their digits: `toBeBytes` and the text of an identifier are injective.
-/

namespace PasswordVault

@[simp] lemma utf8Bytes_append (a b : String) : utf8Bytes (a ++ b) = utf8Bytes a ++ utf8Bytes b := by
  simp [utf8Bytes, String.toUTF8, String.toByteArray_append]

lemma utf8Bytes_injective : Function.Injective utf8Bytes := by
  intro a b h
  have hdata : a.toByteArray.data = b.toByteArray.data := Array.toList_inj.mp h
  exact String.toByteArray_inj.mp (ByteArray.ext hdata)

lemma utf8Bytes_ofList (cs : List Char) :
    utf8Bytes (String.ofList cs) = cs.flatMap String.utf8EncodeChar := by
  simp [utf8Bytes, String.toUTF8, List.utf8Encode]

lemma toNat_charOfNat {n : Nat} (h : n < 256) : (Char.ofNat n).toNat = n := by
  have hvalid : n.isValidChar := Or.inl (by omega)
  rw [Char.ofNat, dif_pos hvalid]
  rfl

/-- The one byte of an ASCII character. -/
def asciiByte (c : Char) : UInt8 := UInt8.ofNat c.toNat

lemma utf8EncodeChar_ascii {c : Char} (h : c.toNat < 128) :
    String.utf8EncodeChar c = [asciiByte c] := by
  have hle : c.val ≤ 0x7F := UInt32.le_iff_toNat_le.mpr (Nat.le_of_lt_succ h)
  rw [String.utf8EncodeChar_eq_singleton (by simpa [Char.utf8Size_eq_one_iff] using hle)]
  rfl

lemma utf8Bytes_ascii {cs : List Char} (h : ∀ c ∈ cs, c.toNat < 128) :
    utf8Bytes (String.ofList cs) = cs.map asciiByte := by
  rw [utf8Bytes_ofList]
  induction cs with
  | nil => rfl
  | cons c cs ih =>
      rw [List.flatMap_cons, utf8EncodeChar_ascii (h c List.mem_cons_self),
        ih fun d hd => h d (List.mem_cons_of_mem _ hd)]
      rfl

/-- A character whose bytes are all below 128 is an ASCII character. -/
lemma ascii_of_utf8EncodeChar {c : Char} (h : ∀ b ∈ String.utf8EncodeChar c, b.toNat < 128) :
    c.toNat < 128 := by
  -- the last byte of a longer encoding is a continuation byte
  have hlast : ∀ n : Nat, ¬ (UInt8.ofNat (n % 64 + 128)).toNat < 128 := by
    intro n
    rw [UInt8.toNat_ofNat']
    omega
  unfold String.utf8EncodeChar at h
  simp only at h
  split at h
  · rename_i hle
    exact Nat.lt_succ_of_le hle
  · split at h
    · exact absurd (h _ (by simp)) (hlast c.val.toNat)
    · split at h
      · exact absurd (h _ (by simp)) (hlast c.val.toNat)
      · exact absurd (h _ (by simp)) (hlast c.val.toNat)

lemma ascii_of_utf8Bytes {cs : List Char} (h : ∀ b ∈ utf8Bytes (String.ofList cs), b.toNat < 128) :
    ∀ c ∈ cs, c.toNat < 128 := by
  rw [utf8Bytes_ofList] at h
  exact fun c hc => ascii_of_utf8EncodeChar fun b hb => h b (List.mem_flatMap.mpr ⟨c, hc, hb⟩)

lemma asciiByte_inj {c d : Char} (hc : c.toNat < 128) (hd : d.toNat < 128)
    (h : asciiByte c = asciiByte d) : c = d := by
  have htoNat := congrArg UInt8.toNat h
  simp only [asciiByte, UInt8.toNat_ofNat'] at htoNat
  rw [Nat.mod_eq_of_lt (by omega), Nat.mod_eq_of_lt (by omega)] at htoNat
  exact Char.toNat_inj.mp htoNat

/-! ## Decimal digits -/

lemma digit_bounds {n : Nat} {c : Char} (h : c ∈ Nat.toDigits 10 n) :
    48 ≤ c.toNat ∧ c.toNat ≤ 57 := by
  have hdigit := Nat.isDigit_of_mem_toDigits (by decide) (by decide) h
  simp only [Char.isDigit, Bool.and_eq_true, decide_eq_true_eq] at hdigit
  exact ⟨hdigit.1, hdigit.2⟩

lemma utf8Bytes_toString (n : Nat) :
    utf8Bytes (toString n) = (Nat.toDigits 10 n).map asciiByte := by
  rw [Nat.toString_eq_ofList_toDigits]
  refine utf8Bytes_ascii fun c hc => ?_
  have := digit_bounds hc
  omega

/-- A decimal number has no colon. -/
lemma colon_notMem_decimal (n : Nat) : (58 : UInt8) ∉ utf8Bytes (toString n) := by
  rw [utf8Bytes_toString]
  intro h
  obtain ⟨c, hc, hcolon⟩ := List.mem_map.mp h
  have hbounds := digit_bounds hc
  have htoNat := congrArg UInt8.toNat hcolon
  simp only [asciiByte, UInt8.toNat_ofNat', UInt8.reduceToNat] at htoNat
  omega

lemma toString_nat_injective : Function.Injective fun n : Nat => toString n := by
  intro m n h
  have hdigits : Nat.toDigits 10 m = Nat.toDigits 10 n := by
    have htexts := congrArg String.toList h
    simpa only [Nat.toString_eq_ofList_toDigits, String.toList_ofList] using htexts
  rw [← Nat.ofDigitChars_ten_toDigits (n := m), hdigits, Nat.ofDigitChars_ten_toDigits]

/-! ## Base64url has one text for its bytes -/

lemma charSextet_some {c : Char} {n : Nat} (h : charSextet c = some n) :
    n < 64 ∧ sextetChar n = c := by
  have hc : ∀ m, m = c.toNat → Char.ofNat m = c := fun m hm => hm ▸ Char.ofNat_toNat c
  unfold charSextet at h
  simp only at h
  split at h
  · obtain rfl := Option.some.inj h
    exact ⟨by omega, by rw [sextetChar, if_pos (by omega), hc _ (by omega)]⟩
  · split at h
    · obtain rfl := Option.some.inj h
      exact ⟨by omega, by rw [sextetChar, if_neg (by omega), if_pos (by omega), hc _ (by omega)]⟩
    · split at h
      · obtain rfl := Option.some.inj h
        refine ⟨by omega, ?_⟩
        rw [sextetChar, if_neg (by omega), if_neg (by omega), if_pos (by omega), hc _ (by omega)]
      · split at h
        · rename_i hdash
          obtain rfl := Option.some.inj h
          exact ⟨by decide, hdash.symm⟩
        · split at h
          · rename_i hunderscore
            obtain rfl := Option.some.inj h
            exact ⟨by decide, hunderscore.symm⟩
          · cases h

lemma mapM_charSextet_some {cs : List Char} {ns : List Nat} (h : cs.mapM charSextet = some ns) :
    (∀ n ∈ ns, n < 64) ∧ ns.map sextetChar = cs := by
  induction cs generalizing ns with
  | nil =>
      obtain rfl : ns = [] := by simpa using h.symm
      exact ⟨by simp, rfl⟩
  | cons c cs ih =>
      simp only [List.mapM_cons, Option.pure_def, Option.bind_eq_bind, Option.bind_eq_some_iff,
        Option.some.injEq] at h
      obtain ⟨n, hn, ms, hms, rfl⟩ := h
      obtain ⟨hlt, hchar⟩ := charSextet_some hn
      obtain ⟨hall, hmap⟩ := ih hms
      refine ⟨?_, by rw [List.map_cons, hchar, hmap]⟩
      intro m hm
      rcases List.mem_cons.mp hm with rfl | hm
      · exact hlt
      · exact hall m hm

lemma encodeSextets_of_decodeSextets {ns : List Nat} :
    ∀ {bytes : Bytes}, (∀ n ∈ ns, n < 64) → decodeSextets ns = some bytes →
      encodeSextets bytes = ns := by
  have hbyte : ∀ n, n < 256 → (UInt8.ofNat n).toNat = n := fun n hn => by
    rw [UInt8.toNat_ofNat', Nat.mod_eq_of_lt hn]
  induction ns using decodeSextets.induct with
  | case1 =>
      intro bytes _ h
      obtain rfl := Option.some.inj h
      rfl
  | case2 w =>
      intro bytes _ h
      simp [decodeSextets] at h
  | case3 w x hx =>
      intro bytes hlt h
      have hw := hlt w (by simp)
      have hx' := hlt x (by simp)
      rw [decodeSextets, if_pos hx] at h
      obtain rfl := Option.some.inj h
      rw [encodeSextets, hbyte _ (by omega)]
      simp only [List.cons.injEq, and_true]
      omega
  | case4 w x hx =>
      intro bytes _ h
      rw [decodeSextets, if_neg hx] at h
      cases h
  | case5 w x y hy =>
      intro bytes hlt h
      have hw := hlt w (by simp)
      have hx := hlt x (by simp)
      have hy' := hlt y (by simp)
      rw [decodeSextets, if_pos hy] at h
      obtain rfl := Option.some.inj h
      rw [encodeSextets, hbyte _ (by omega), hbyte _ (by omega)]
      simp only [List.cons.injEq, and_true]
      omega
  | case6 w x y hy =>
      intro bytes _ h
      rw [decodeSextets, if_neg hy] at h
      cases h
  | case7 w x y z rest ih =>
      intro bytes hlt h
      have hw := hlt w (by simp)
      have hx := hlt x (by simp)
      have hy := hlt y (by simp)
      have hz := hlt z (by simp)
      rw [decodeSextets] at h
      obtain ⟨bytes', hrest, rfl⟩ := Option.map_eq_some_iff.mp h
      have htail := ih (fun n hn => hlt n (by simp [hn])) hrest
      rw [encodeSextets, htail, hbyte _ (by omega), hbyte _ (by omega), hbyte _ (by omega)]
      simp only [List.cons.injEq, and_true]
      omega

/-- A text that decodes is the encoding of its bytes. -/
lemma decodeBase64url_ok {value : String} {bytes : Bytes} (h : decodeBase64url value = .ok bytes) :
    value = encodeBase64url bytes := by
  unfold decodeBase64url at h
  split at h
  · rename_i b hb
    obtain rfl := Except.ok.inj h
    obtain ⟨ns, hns, hdecode⟩ := Option.bind_eq_some_iff.mp hb
    obtain ⟨hlt, hmap⟩ := mapM_charSextet_some hns
    rw [encodeBase64url, encodeSextets_of_decodeSextets hlt hdecode, hmap, String.ofList_toList]
  · cases h

lemma decodeBase64urlArray_iff {n : Nat} {value : String} {bytes : Bytes} :
    decodeBase64urlArray n value = .ok bytes ↔ value = encodeBase64url bytes ∧ bytes.length = n := by
  constructor
  · intro h
    obtain ⟨hdecode, hlength⟩ := decodeBase64urlArray_ok h
    exact ⟨decodeBase64url_ok hdecode, hlength⟩
  · rintro ⟨rfl, hlength⟩
    exact decodeBase64urlArray_encodeBase64url hlength

/-! ## Positional digits -/

/-- The last digits of a number determine it up to a power of the base. -/
lemma mod_pow_eq_of_digits {b m n : Nat} :
    ∀ {k : Nat}, (∀ i < k, m / b ^ i % b = n / b ^ i % b) → m % b ^ k = n % b ^ k := by
  intro k
  induction k with
  | zero => simp [Nat.mod_one]
  | succ k ih =>
      intro h
      have hlow := ih fun i hi => h i (by omega)
      have htop := h k (Nat.lt_succ_self k)
      rw [Nat.mod_pow_succ, Nat.mod_pow_succ, hlow, htop]

lemma toBeBytes_length (width n : Nat) : (toBeBytes width n).length = width := by
  simp [toBeBytes]

lemma toBeBytes_inj {width m n : Nat} (hm : m < 256 ^ width) (hn : n < 256 ^ width)
    (h : toBeBytes width m = toBeBytes width n) : m = n := by
  rw [← Nat.mod_eq_of_lt hm, ← Nat.mod_eq_of_lt hn]
  refine mod_pow_eq_of_digits fun i hi => ?_
  -- digit `i` is the byte at the mirrored place
  have hbytes := congrArg (fun bytes : Bytes => bytes[width - 1 - i]?) h
  have hplace : width - 1 - (width - 1 - i) = i := by omega
  have hlt : width - 1 - i < width := by omega
  simp only [toBeBytes, List.getElem?_map, List.getElem?_range hlt, Option.map_some,
    Option.some.injEq, hplace] at hbytes
  have htoNat := congrArg UInt8.toNat hbytes
  simpa only [UInt8.toNat_ofNat', Nat.mod_mod, Nat.reducePow] using htoNat

namespace Uuid

lemma asBytes_length (u : Uuid) : u.asBytes.length = 16 := toBeBytes_length 16 _

lemma asBytes_injective : Function.Injective asBytes := by
  intro u v h
  have hu : u.toNat < 256 ^ 16 := u.isLt
  have hv : v.toNat < 256 ^ 16 := v.isLt
  exact BitVec.eq_of_toNat_eq (toBeBytes_inj hu hv h)

lemma hexDigit_inj : ∀ a < 16, ∀ b < 16, hexDigit a = hexDigit b → a = b := by decide

lemma hexDigits_length (u : Uuid) : u.hexDigits.length = 32 := by simp [hexDigits]

lemma hexDigits_injective : Function.Injective hexDigits := by
  intro u v h
  have hu : u.toNat < 16 ^ 32 := u.isLt
  have hv : v.toNat < 16 ^ 32 := v.isLt
  apply BitVec.eq_of_toNat_eq
  rw [← Nat.mod_eq_of_lt hu, ← Nat.mod_eq_of_lt hv]
  refine mod_pow_eq_of_digits fun i hi => ?_
  have hdigits := congrArg (fun ds : List Char => ds[31 - i]?) h
  have hplace : 31 - (31 - i) = i := by omega
  have hlt : 31 - i < 32 := by omega
  simp only [hexDigits, List.getElem?_map, List.getElem?_range hlt, Option.map_some,
    Option.some.injEq, hplace] at hdigits
  exact hexDigit_inj _ (Nat.mod_lt _ (by decide)) _ (Nat.mod_lt _ (by decide)) hdigits

/-- Different identifiers are written differently. -/
lemma toText_injective : Function.Injective toText := by
  intro u v h
  apply hexDigits_injective
  have hu := hexDigits_length u
  have hv := hexDigits_length v
  have hchars := congrArg String.toList h
  simp only [toText, String.toList_ofList, List.append_assoc, List.cons_append] at hchars
  -- the groups have the same lengths on both sides
  obtain ⟨h₁, hchars⟩ := List.append_inj hchars (by simp [hu, hv])
  obtain ⟨h₂, hchars⟩ := List.append_inj (List.cons.inj hchars).2 (by simp [hu, hv])
  obtain ⟨h₃, hchars⟩ := List.append_inj (List.cons.inj hchars).2 (by simp [hu, hv])
  obtain ⟨h₄, hchars⟩ := List.append_inj (List.cons.inj hchars).2 (by simp [hu, hv])
  have h₅ := (List.cons.inj hchars).2
  have hjoin : ∀ ds : List Char, ds = ds.take 8 ++ ((ds.drop 8).take 4 ++ ((ds.drop 12).take 4 ++
      ((ds.drop 16).take 4 ++ ds.drop 20))) := by
    intro ds
    rw [← List.drop_drop (i := 4) (j := 16), List.take_append_drop]
    rw [← List.drop_drop (i := 4) (j := 12), List.take_append_drop]
    rw [← List.drop_drop (i := 4) (j := 8), List.take_append_drop, List.take_append_drop]
  rw [hjoin u.hexDigits, hjoin v.hexDigits, h₁, h₂, h₃, h₄, h₅]

end Uuid

end PasswordVault
