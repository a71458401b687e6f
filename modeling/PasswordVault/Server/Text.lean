import Mathlib.Algebra.Group.Int.Defs
import Mathlib.Algebra.Group.Nat.Defs
import Mathlib.Data.List.DropRight
import Mathlib.Data.Nat.Basic

/-!
# Bytes, text and identifiers

What the handlers do to strings and bytes, as the standard library they are written against does it.

* text: `trim`, `toAsciiLowercase`, `isControl`, `stripPrefix`, `splitOnce`, `splitAll`;
* bytes: `utf8Bytes` and big-endian integers;
* unpadded base64url: `encodeBase64url`, `decodeBase64url`, `decodeBase64urlArray`, with the round
  trip `decodeBase64url_encodeBase64url`;
* identifiers: `Uuid` with its bytes and its hyphenated text.
-/

namespace PasswordVault

/-- A byte string. -/
abbrev Bytes := List UInt8

/-- The UTF-8 bytes of a text. -/
def utf8Bytes (s : String) : Bytes := s.toUTF8.data.toList

/-- The bytes of an integer, most significant first. -/
def toBeBytes (width n : Nat) : Bytes :=
  (List.range width).map fun i => UInt8.ofNat (n / 256 ^ (width - 1 - i) % 256)

/-! ## Text -/

/-- The characters that `trim` drops: the Unicode property White_Space. -/
def isWhiteSpace (c : Char) : Bool :=
  let n := c.toNat
  (9 ≤ n && n ≤ 13) || n == 32 || n == 0x85 || n == 0xA0 || n == 0x1680 ||
    (0x2000 ≤ n && n ≤ 0x200A) || n == 0x2028 || n == 0x2029 || n == 0x202F || n == 0x205F ||
    n == 0x3000

/-- Control characters: the general category Cc. -/
def isControl (c : Char) : Bool := c.toNat < 32 || (127 ≤ c.toNat && c.toNat < 160)

/-- Drop white space from both ends. -/
def trimChars (cs : List Char) : List Char :=
  ((cs.dropWhile isWhiteSpace).reverse.dropWhile isWhiteSpace).reverse

def trim (s : String) : String := String.ofList (trimChars s.toList)

/-- Lower case for the letters A to Z only. -/
def asciiLower (c : Char) : Char :=
  if 65 ≤ c.toNat ∧ c.toNat ≤ 90 then Char.ofNat (c.toNat + 32) else c

def toAsciiLowercase (s : String) : String := String.ofList (s.toList.map asciiLower)

/-- The number of bytes of a text. -/
def byteLen (s : String) : Nat := (utf8Bytes s).length

/-- What follows `start` in a text that begins with it. -/
def stripStart (start : List Char) (cs : List Char) : Option (List Char) :=
  if start.isPrefixOf cs then some (cs.drop start.length) else none

/-- The parts of a text between the occurrences of a separator. -/
def splitAll (sep : Char) : List Char → List (List Char)
  | [] => [[]]
  | c :: cs =>
      if c = sep then [] :: splitAll sep cs
      else match splitAll sep cs with
        | [] => [[c]]
        | part :: parts => (c :: part) :: parts

/-- The two sides of the first occurrence of a separator. -/
def splitOnce (sep : Char) (cs : List Char) : Option (List Char × List Char) :=
  if sep ∈ cs then some (cs.takeWhile (· ≠ sep), (cs.dropWhile (· ≠ sep)).drop 1) else none

/-- A byte of printable ASCII, as a header value may hold it. -/
def isVisibleAscii (b : UInt8) : Bool := (32 ≤ b && b < 127) || b == 9

/-- A header value as text: only visible ASCII is readable. -/
def headerText (value : Bytes) : Option (List Char) :=
  if value.all isVisibleAscii then some (value.map fun b => Char.ofNat b.toNat) else none

/-! ## Base64url without padding -/

inductive Base64UrlError where
  | invalidEncoding
  | invalidLength (expected actual : Nat)
  deriving DecidableEq

/-- The digit for six bits. -/
def sextetChar (n : Nat) : Char :=
  if n < 26 then Char.ofNat (65 + n)
  else if n < 52 then Char.ofNat (97 + (n - 26))
  else if n < 62 then Char.ofNat (48 + (n - 52))
  else if n = 62 then '-' else '_'

/-- The six bits of a digit. -/
def charSextet (c : Char) : Option Nat :=
  let n := c.toNat
  if 65 ≤ n ∧ n ≤ 90 then some (n - 65)
  else if 97 ≤ n ∧ n ≤ 122 then some (n - 97 + 26)
  else if 48 ≤ n ∧ n ≤ 57 then some (n - 48 + 52)
  else if c = '-' then some 62
  else if c = '_' then some 63
  else none

/-- Three bytes as four digits; one or two bytes at the end as two or three. -/
def encodeSextets : Bytes → List Nat
  | [] => []
  | [a] => [a.toNat / 4, a.toNat % 4 * 16]
  | [a, b] => [a.toNat / 4, a.toNat % 4 * 16 + b.toNat / 16, b.toNat % 16 * 4]
  | a :: b :: c :: rest =>
      a.toNat / 4 :: (a.toNat % 4 * 16 + b.toNat / 16) ::
        (b.toNat % 16 * 4 + c.toNat / 64) :: c.toNat % 64 :: encodeSextets rest

/-- The bytes of some digits. A single digit at the end, or bits that no byte takes, are an error. -/
def decodeSextets : List Nat → Option Bytes
  | [] => some []
  | [_] => none
  | [w, x] => if x % 16 = 0 then some [UInt8.ofNat (w * 4 + x / 16)] else none
  | [w, x, y] =>
      if y % 4 = 0 then some [UInt8.ofNat (w * 4 + x / 16), UInt8.ofNat (x % 16 * 16 + y / 4)]
      else none
  | w :: x :: y :: z :: rest =>
      (decodeSextets rest).map fun bytes =>
        UInt8.ofNat (w * 4 + x / 16) :: UInt8.ofNat (x % 16 * 16 + y / 4) ::
          UInt8.ofNat (y % 4 * 64 + z) :: bytes

def encodeBase64url (bytes : Bytes) : String :=
  String.ofList ((encodeSextets bytes).map sextetChar)

def decodeBase64url (value : String) : Except Base64UrlError Bytes :=
  match (value.toList.mapM charSextet).bind decodeSextets with
  | some bytes => .ok bytes
  | none => .error .invalidEncoding

def decodeBase64urlArray (n : Nat) (value : String) : Except Base64UrlError Bytes :=
  match decodeBase64url value with
  | .error e => .error e
  | .ok bytes => if bytes.length ≠ n then .error (.invalidLength n bytes.length) else .ok bytes

lemma charSextet_sextetChar : ∀ n < 64, charSextet (sextetChar n) = some n := by decide

lemma encodeSextets_lt (bytes : Bytes) : ∀ n ∈ encodeSextets bytes, n < 64 := by
  induction bytes using encodeSextets.induct with
  | case1 => simp [encodeSextets]
  | case2 a =>
      have ha := a.toNat_lt
      simp only [encodeSextets, List.mem_cons, List.not_mem_nil, or_false]
      rintro n (rfl | rfl) <;> omega
  | case3 a b =>
      have ha := a.toNat_lt
      have hb := b.toNat_lt
      simp only [encodeSextets, List.mem_cons, List.not_mem_nil, or_false]
      rintro n (rfl | rfl | rfl) <;> omega
  | case4 a b c rest ih =>
      have ha := a.toNat_lt
      have hb := b.toNat_lt
      have hc := c.toNat_lt
      simp only [encodeSextets, List.mem_cons]
      rintro n (rfl | rfl | rfl | rfl | hn)
      · omega
      · omega
      · omega
      · omega
      · exact ih n hn

lemma ofNat_toNat_eq {a : UInt8} {n : Nat} (h : n = a.toNat) : UInt8.ofNat n = a := by
  subst h
  simp

lemma decodeSextets_encodeSextets (bytes : Bytes) :
    decodeSextets (encodeSextets bytes) = some bytes := by
  induction bytes using encodeSextets.induct with
  | case1 => rfl
  | case2 a =>
      have ha := a.toNat_lt
      have h : a.toNat % 4 * 16 % 16 = 0 := by omega
      simp only [encodeSextets, decodeSextets, h, if_true]
      rw [ofNat_toNat_eq (a := a) (by omega)]
  | case3 a b =>
      have ha := a.toNat_lt
      have hb := b.toNat_lt
      have h : b.toNat % 16 * 4 % 4 = 0 := by omega
      simp only [encodeSextets, decodeSextets, h, if_true]
      rw [ofNat_toNat_eq (a := a) (by omega), ofNat_toNat_eq (a := b) (by omega)]
  | case4 a b c rest ih =>
      have ha := a.toNat_lt
      have hb := b.toNat_lt
      have hc := c.toNat_lt
      simp only [encodeSextets, decodeSextets, ih, Option.map_some]
      rw [ofNat_toNat_eq (a := a) (by omega), ofNat_toNat_eq (a := b) (by omega),
        ofNat_toNat_eq (a := c) (by omega)]

lemma mapM_charSextet {ns : List Nat} (h : ∀ n ∈ ns, n < 64) :
    (ns.map sextetChar).mapM charSextet = some ns := by
  induction ns with
  | nil => rfl
  | cons n ns ih =>
      have hn := charSextet_sextetChar n (h n List.mem_cons_self)
      have hns := ih fun m hm => h m (List.mem_cons_of_mem _ hm)
      simp [List.mapM_cons, hn, hns]

/-- **What is encoded decodes to itself.** -/
theorem decodeBase64url_encodeBase64url (bytes : Bytes) :
    decodeBase64url (encodeBase64url bytes) = .ok bytes := by
  unfold decodeBase64url encodeBase64url
  rw [String.toList_ofList, mapM_charSextet (encodeSextets_lt bytes), Option.bind_some,
    decodeSextets_encodeSextets]

/-- Different byte strings are encoded differently. -/
lemma encodeBase64url_injective : Function.Injective encodeBase64url := by
  intro a b h
  have ha := decodeBase64url_encodeBase64url a
  rw [h, decodeBase64url_encodeBase64url b] at ha
  exact (Except.ok.inj ha).symm

lemma decodeBase64urlArray_ok {n : Nat} {value : String} {bytes : Bytes}
    (h : decodeBase64urlArray n value = .ok bytes) :
    decodeBase64url value = .ok bytes ∧ bytes.length = n := by
  unfold decodeBase64urlArray at h
  split at h
  · cases h
  · rename_i b hb
    split at h
    · cases h
    · obtain rfl := Except.ok.inj h
      exact ⟨hb, by tauto⟩

lemma decodeBase64urlArray_encodeBase64url {n : Nat} {bytes : Bytes} (h : bytes.length = n) :
    decodeBase64urlArray n (encodeBase64url bytes) = .ok bytes := by
  unfold decodeBase64urlArray
  rw [decodeBase64url_encodeBase64url]
  simp [h]

/-! ## Identifiers -/

/-- A UUID. -/
abbrev Uuid := BitVec 128

namespace Uuid

/-- The sixteen bytes of an identifier. -/
def asBytes (u : Uuid) : Bytes := toBeBytes 16 u.toNat

/-- A lower-case hexadecimal digit. -/
def hexDigit (n : Nat) : Char := if n < 10 then Char.ofNat (48 + n) else Char.ofNat (87 + n)

/-- The 32 hexadecimal digits of an identifier. -/
def hexDigits (u : Uuid) : List Char :=
  (List.range 32).map fun i => hexDigit (u.toNat / 16 ^ (31 - i) % 16)

/-- The hyphenated text of an identifier, in groups of 8, 4, 4, 4 and 12 digits. -/
def toText (u : Uuid) : String :=
  let ds := u.hexDigits
  String.ofList (ds.take 8 ++ '-' :: (ds.drop 8).take 4 ++ '-' :: (ds.drop 12).take 4 ++
    '-' :: (ds.drop 16).take 4 ++ '-' :: ds.drop 20)

end Uuid

end PasswordVault
