import PasswordVault.Server.Text

/-!
# JSON values

The values that the server keeps in `jsonb` columns and the browser gets in responses.

* `Json.render`: the compact text of a value; the handlers limit its length.
* `Json.storable`: what a `jsonb` column takes. PostgreSQL refuses the character U+0000 in a string.
* `Json.throughJsonb`: what is read back from a `jsonb` column. It writes a number without exponent.
-/

namespace PasswordVault

/-- A JSON number: an integer, or anything else by its shortest decimal text. -/
inductive JsonNumber where
  | int (z : Int)
  | decimal (text : String)
  deriving DecidableEq

/-- A JSON value; an object is its members in order. -/
inductive Json where
  | null
  | bool (b : Bool)
  | num (n : JsonNumber)
  | str (s : String)
  | arr (items : List Json)
  | obj (members : List (String × Json))

namespace Json

def isObject : Json → Bool
  | .obj _ => true
  | _ => false

/-- A character inside a JSON string. -/
def escapeChar (c : Char) : List Char :=
  if c = '"' then ['\\', '"']
  else if c = '\\' then ['\\', '\\']
  else if c.toNat = 8 then ['\\', 'b']
  else if c.toNat = 9 then ['\\', 't']
  else if c.toNat = 10 then ['\\', 'n']
  else if c.toNat = 12 then ['\\', 'f']
  else if c.toNat = 13 then ['\\', 'r']
  else if c.toNat < 32 then
    ['\\', 'u', '0', '0', Uuid.hexDigit (c.toNat / 16), Uuid.hexDigit (c.toNat % 16)]
  else [c]

def renderString (s : String) : List Char := '"' :: s.toList.flatMap escapeChar ++ ['"']

def renderNumber : JsonNumber → List Char
  | .int z => (toString z).toList
  | .decimal text => text.toList

mutual

/-- The compact text of a value. -/
def render : Json → List Char
  | .null => ['n', 'u', 'l', 'l']
  | .bool true => ['t', 'r', 'u', 'e']
  | .bool false => ['f', 'a', 'l', 's', 'e']
  | .num n => renderNumber n
  | .str s => renderString s
  | .arr items => '[' :: renderItems items ++ [']']
  | .obj members => '{' :: renderMembers members ++ ['}']

def renderItems : List Json → List Char
  | [] => []
  | [v] => render v
  | v :: w :: rest => render v ++ ',' :: renderItems (w :: rest)

def renderMembers : List (String × Json) → List Char
  | [] => []
  | [(k, v)] => renderString k ++ ':' :: render v
  | (k, v) :: m :: rest => renderString k ++ ':' :: render v ++ ',' :: renderMembers (m :: rest)

end

/-- The number of bytes of the compact text. -/
def textLen (v : Json) : Nat := byteLen (String.ofList (render v))

/-- A string that `jsonb` takes. -/
def storableText (s : String) : Bool := s.toList.all fun c => c.toNat ≠ 0

mutual

/-- A value that `jsonb` takes. -/
def storable : Json → Bool
  | .str s => storableText s
  | .arr items => storableItems items
  | .obj members => storableMembers members
  | _ => true

def storableItems : List Json → Bool
  | [] => true
  | v :: rest => storable v && storableItems rest

def storableMembers : List (String × Json) → Bool
  | [] => true
  | (k, v) :: rest => storableText k && storable v && storableMembers rest

end

mutual

/-- Equality of values. -/
def same : Json → Json → Bool
  | .null, .null => true
  | .bool a, .bool b => a == b
  | .num a, .num b => a == b
  | .str a, .str b => a == b
  | .arr a, .arr b => sameItems a b
  | .obj a, .obj b => sameMembers a b
  | _, _ => false

def sameItems : List Json → List Json → Bool
  | [], [] => true
  | v :: vs, w :: ws => same v w && sameItems vs ws
  | _, _ => false

def sameMembers : List (String × Json) → List (String × Json) → Bool
  | [], [] => true
  | (k, v) :: vs, (l, w) :: ws => k == l && same v w && sameMembers vs ws
  | _, _ => false

end

end Json

/-! ## Through a jsonb column -/

/-- The value of some decimal digits. -/
def digitsValue (cs : List Char) : Option Nat :=
  if !cs.isEmpty && cs.all Char.isDigit then
    some (cs.foldl (fun n c => 10 * n + (c.toNat - 48)) 0)
  else none

/-- The integer that a decimal text with an exponent stands for, when it leaves no fraction. -/
def exponentInt (text : String) : Option Int := do
  let negative := text.toList.head? == some '-'
  let cs := if negative then text.toList.drop 1 else text.toList
  let mantissa := cs.takeWhile (· ≠ 'e')
  let exponent ← digitsValue ((cs.dropWhile (· ≠ 'e')).drop 1)
  let fraction := (mantissa.dropWhile (· ≠ '.')).drop 1
  let digits ← digitsValue (mantissa.takeWhile (· ≠ '.') ++ fraction)
  if fraction.length ≤ exponent then
    let n : Int := digits * 10 ^ (exponent - fraction.length)
    some (if negative then -n else n)
  else none

/-- The integer literals that `serde_json` does not take as floats: those of an `i64` or `u64`. -/
def isMachineInt (z : Int) : Bool := decide (-2 ^ 63 ≤ z ∧ z < 2 ^ 64)

/-- A number that went through a `jsonb` column. A float that is written there as the literal of an
integer comes back as one. -/
def JsonNumber.throughJsonb (reread : String → String) : JsonNumber → JsonNumber
  | .int z => .int z
  | .decimal text =>
      match (exponentInt text).filter isMachineInt with
      | some z => .int z
      | none => .decimal (reread text)

namespace Json

mutual

/-- A value that went through a `jsonb` column. -/
def throughJsonb (reread : String → String) : Json → Json
  | .num n => .num (n.throughJsonb reread)
  | .arr items => .arr (itemsThroughJsonb reread items)
  | .obj members => .obj (membersThroughJsonb reread members)
  | v => v

def itemsThroughJsonb (reread : String → String) : List Json → List Json
  | [] => []
  | v :: rest => throughJsonb reread v :: itemsThroughJsonb reread rest

def membersThroughJsonb (reread : String → String) : List (String × Json) → List (String × Json)
  | [] => []
  | (k, v) :: rest => (k, throughJsonb reread v) :: membersThroughJsonb reread rest

end

lemma throughJsonb_isObject (reread : String → String) (v : Json) :
    (v.throughJsonb reread).isObject = v.isObject := by
  cases v <;> simp [throughJsonb, isObject]

mutual

/-- The strings stay as they are. -/
lemma throughJsonb_storable (reread : String → String) :
    ∀ v : Json, (v.throughJsonb reread).storable = v.storable
  | .null => by simp [throughJsonb]
  | .bool _ => by simp [throughJsonb]
  | .num _ => by simp [throughJsonb, storable]
  | .str _ => by simp [throughJsonb]
  | .arr items => by
      rw [throughJsonb, storable, storable]
      exact itemsThroughJsonb_storable reread items
  | .obj members => by
      rw [throughJsonb, storable, storable]
      exact membersThroughJsonb_storable reread members

lemma itemsThroughJsonb_storable (reread : String → String) :
    ∀ items : List Json, storableItems (itemsThroughJsonb reread items) = storableItems items
  | [] => by rw [itemsThroughJsonb]
  | v :: rest => by
      rw [itemsThroughJsonb, storableItems, storableItems, throughJsonb_storable reread v,
        itemsThroughJsonb_storable reread rest]

lemma membersThroughJsonb_storable (reread : String → String) :
    ∀ members : List (String × Json),
      storableMembers (membersThroughJsonb reread members) = storableMembers members
  | [] => by rw [membersThroughJsonb]
  | (k, v) :: rest => by
      rw [membersThroughJsonb, storableMembers, storableMembers, throughJsonb_storable reread v,
        membersThroughJsonb_storable reread rest]

end

end Json

end PasswordVault
