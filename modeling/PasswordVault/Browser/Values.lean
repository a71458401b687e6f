import PasswordVault.Library.PercentEncoding
import PasswordVault.Server.Encodings
import PasswordVault.Server.Http

/-!
# Values of the page

What the page computes with: values that `JSON.parse` has made, as JavaScript treats them.

* `JsValue`: such a value, or `undefined`; `strictEq`, `String`, `Number`, `Boolean`.
* `Engine`: what is left open of the conversions between numbers and texts.
* `encodeURIComponent`, which is injective and never writes a colon.
* `base64UrlToBytes`: over `atob`, which takes more than one text for some bytes.
-/

namespace PasswordVault.Browser

/-- A JavaScript error, by its message. -/
structure JsError where
  message : String
  deriving DecidableEq

/-- A number. Those that are no integers stand as their text, with `NaN` and the infinities. -/
abbrev JsNumber := JsonNumber

def NaN : JsNumber := .decimal "NaN"

/-- A parsed value, or `undefined`. -/
abbrev JsValue := Option Json

/-- The largest integer that `Number.isSafeInteger` accepts. -/
def MAX_SAFE_INTEGER : Int := 2 ^ 53 - 1

/-- How the engine converts what is no integer. -/
structure Engine where
  /-- `Number` of a text. -/
  numberOf : String → JsNumber
  /-- `<` when one side is no integer. -/
  lessThan : JsNumber → JsNumber → Bool

/-! ## Comparing and converting -/

def JsNumber.same (a b : JsNumber) : Bool := a == b && !(a == NaN)

def Engine.less (engine : Engine) (a b : JsNumber) : Bool :=
  match a, b with
  | .int x, .int y => decide (x < y)
  | _, _ => engine.lessThan a b

/-- `===`, where both sides come from different texts: no two arrays or objects are the same. -/
def strictEq : JsValue → JsValue → Bool
  | none, none => true
  | some .null, some .null => true
  | some (.bool a), some (.bool b) => a == b
  | some (.num a), some (.num b) => JsNumber.same a b
  | some (.str a), some (.str b) => a == b
  | _, _ => false

/-- `value?.name`. -/
def member (value : JsValue) (name : String) : JsValue :=
  match value with
  | some (.obj members) => (members.find? fun m => m.1 == name).map Prod.snd
  | _ => none

def numberText (n : JsNumber) : List Char := Json.renderNumber n

mutual

/-- `String` of a value that is there. -/
def textOf : Json → List Char
  | .null => "null".toList
  | .bool true => "true".toList
  | .bool false => "false".toList
  | .num n => numberText n
  | .str s => s.toList
  | .arr items => joinItems items
  | .obj _ => "[object Object]".toList

/-- The items of an array, where `null` stands for nothing. -/
def joinItems : List Json → List Char
  | [] => []
  | [v] => itemText v
  | v :: w :: rest => itemText v ++ ',' :: joinItems (w :: rest)

def itemText : Json → List Char
  | .null => []
  | .bool true => "true".toList
  | .bool false => "false".toList
  | .num n => numberText n
  | .str s => s.toList
  | .arr items => joinItems items
  | .obj _ => "[object Object]".toList

end

/-- `String(value)`. -/
def jsString : JsValue → String
  | none => "undefined"
  | some (.str s) => s
  | some v => String.ofList (textOf v)

@[simp] lemma jsString_str (s : String) : jsString (some (.str s)) = s := rfl

/-- `Number(value)`. -/
def Engine.jsNumber (engine : Engine) : JsValue → JsNumber
  | none => NaN
  | some .null => .int 0
  | some (.bool b) => .int (if b then 1 else 0)
  | some (.num n) => n
  | some (.str s) => engine.numberOf s
  | some (.arr items) => engine.numberOf (String.ofList (joinItems items))
  | some (.obj _) => NaN

/-- `Boolean(value)`. -/
def truthy : JsValue → Bool
  | none => false
  | some .null => false
  | some (.bool b) => b
  | some (.num n) => !(n == .int 0 || n == NaN)
  | some (.str s) => s != ""
  | some (.arr _) => true
  | some (.obj _) => true

/-- `value || fallback`. -/
def orElse (value fallback : JsValue) : JsValue := if truthy value then value else fallback

/-! ## encodeURIComponent -/

/-- The characters that `encodeURIComponent` leaves. -/
def isUnreserved (b : UInt8) : Bool :=
  let n := b.toNat
  (65 ≤ n && n ≤ 90) || (97 ≤ n && n ≤ 122) || (48 ≤ n && n ≤ 57) || n == 45 || n == 95 ||
    n == 46 || n == 33 || n == 126 || n == 42 || n == 39 || n == 40 || n == 41

/-- A digit of `%XX`. -/
def upperHexDigit (n : Nat) : Char := if n < 10 then Char.ofNat (48 + n) else Char.ofNat (55 + n)

def encodeByte (b : UInt8) : List Char :=
  if isUnreserved b then [Char.ofNat b.toNat]
  else ['%', upperHexDigit (b.toNat / 16), upperHexDigit (b.toNat % 16)]

def encodeURIComponent (text : String) : List Char := (utf8Bytes text).flatMap encodeByte

lemma isUnreserved_keepsAscii : PercentEncoding.KeepsAscii isUnreserved where
  ascii b hb := by
    simp only [isUnreserved, Bool.or_eq_true, Bool.and_eq_true, decide_eq_true_eq,
      beq_iff_eq] at hb
    omega
  percent := by decide

lemma encodeURIComponent_eq (text : String) :
    encodeURIComponent text = PercentEncoding.encode isUnreserved (utf8Bytes text) := rfl

/-- **Two texts are not encoded alike.** -/
theorem encodeURIComponent_injective : Function.Injective encodeURIComponent := by
  intro a b h
  rw [encodeURIComponent_eq, encodeURIComponent_eq] at h
  exact utf8Bytes_injective (PercentEncoding.encode_injective isUnreserved_keepsAscii h)

lemma colon_not_mem (text : String) : ':' ∉ encodeURIComponent text := by
  rw [encodeURIComponent_eq]
  exact PercentEncoding.notMem_encode isUnreserved_keepsAscii (by decide) (by decide) (by decide) _

/-! ## base64url -/

/-- The white space that `atob` skips. -/
def isAsciiWhiteSpace (c : Char) : Bool :=
  c.toNat == 9 || c.toNat == 10 || c.toNat == 12 || c.toNat == 13 || c.toNat == 32

/-- A digit of plain base64. -/
def atobSextet (c : Char) : Option Nat :=
  if c = '+' then some 62
  else if c = '/' then some 63
  else if c = '-' ∨ c = '_' then none
  else charSextet c

/-- The bytes of some digits. Bits that no byte takes are dropped. -/
def atobBytes : List Nat → Option Bytes
  | [] => some []
  | [_] => none
  | [w, x] => some [UInt8.ofNat (w * 4 + x / 16)]
  | [w, x, y] => some [UInt8.ofNat (w * 4 + x / 16), UInt8.ofNat (x % 16 * 16 + y / 4)]
  | w :: x :: y :: z :: rest =>
      (atobBytes rest).map fun bytes =>
        UInt8.ofNat (w * 4 + x / 16) :: UInt8.ofNat (x % 16 * 16 + y / 4) ::
          UInt8.ofNat (y % 4 * 64 + z) :: bytes

/-- One or two `=` at the end of a text whose length is a multiple of four. -/
def dropPadding (cs : List Char) : List Char :=
  if cs.length % 4 = 0 then
    match cs.reverse with
    | '=' :: '=' :: rest => rest.reverse
    | '=' :: rest => rest.reverse
    | _ => cs
  else cs

/-- `atob`, which throws on a text that is no base64. -/
def atob (data : List Char) : Option Bytes :=
  ((dropPadding (data.filter fun c => !isAsciiWhiteSpace c)).mapM atobSextet).bind atobBytes

def base64UrlToBytes (value : String) : Option Bytes :=
  let replaced := value.toList.map fun c => if c = '-' then '+' else if c = '_' then '/' else c
  let width := (replaced.length + 3) / 4 * 4
  atob (replaced ++ List.replicate (width - replaced.length) '=')

end PasswordVault.Browser
