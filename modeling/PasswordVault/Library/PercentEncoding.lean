import Mathlib.Data.List.Basic

/-!
# Percent-encoding

A byte string as a text of ASCII characters: some bytes stand for themselves, the others are written
as `%` and two upper-case hexadecimal digits.

* `encode`, over any set of bytes that stand for themselves; `decode`, which takes both cases.
* `KeepsAscii`: what that set has to satisfy.
* `decode_encode`, `encode_injective`, and `mem_encode`: which characters an encoded text has.
-/

namespace PercentEncoding

/-- An upper-case hexadecimal digit. -/
def hexDigit (n : Nat) : Char := if n < 10 then Char.ofNat (48 + n) else Char.ofNat (55 + n)

/-- The value of a hexadecimal digit. -/
def hexValue (c : Char) : Option Nat :=
  if 48 ≤ c.toNat ∧ c.toNat ≤ 57 then some (c.toNat - 48)
  else if 65 ≤ c.toNat ∧ c.toNat ≤ 70 then some (c.toNat - 55)
  else if 97 ≤ c.toNat ∧ c.toNat ≤ 102 then some (c.toNat - 87)
  else none

/-- The byte of an ASCII character. -/
def charByte (c : Char) : Option UInt8 :=
  if c.toNat < 128 then some (UInt8.ofNat c.toNat) else none

def encodeByte (keeps : UInt8 → Bool) (b : UInt8) : List Char :=
  if keeps b then [Char.ofNat b.toNat] else ['%', hexDigit (b.toNat / 16), hexDigit (b.toNat % 16)]

def encode (keeps : UInt8 → Bool) (bytes : List UInt8) : List Char :=
  bytes.flatMap (encodeByte keeps)

/-- The byte of an escape. -/
def escapeByte (high low : Char) : Option UInt8 := do
  let h ← hexValue high
  let l ← hexValue low
  some (UInt8.ofNat (h * 16 + l))

/-- The bytes of a text; an incomplete escape is an error, and so is a character that is not
ASCII. -/
def decode : List Char → Option (List UInt8)
  | [] => some []
  | '%' :: high :: low :: rest => do
      let b ← escapeByte high low
      let bytes ← decode rest
      some (b :: bytes)
  | c :: rest =>
      if c = '%' then none
      else do
        let b ← charByte c
        let bytes ← decode rest
        some (b :: bytes)

/-- The bytes that stand for themselves are ASCII, and `%` is not among them. -/
structure KeepsAscii (keeps : UInt8 → Bool) : Prop where
  ascii : ∀ b, keeps b = true → b.toNat < 128
  percent : keeps 37 = false

variable {keeps : UInt8 → Bool}

lemma hexValue_hexDigit : ∀ n < 16, hexValue (hexDigit n) = some n := by decide

lemma escapeByte_hexDigits (b : UInt8) :
    escapeByte (hexDigit (b.toNat / 16)) (hexDigit (b.toNat % 16)) = some b := by
  have hb := b.toNat_lt
  have hvalue : b.toNat / 16 * 16 + b.toNat % 16 = b.toNat := by omega
  unfold escapeByte
  rw [hexValue_hexDigit _ (by omega), hexValue_hexDigit _ (by omega)]
  simp only [Option.bind_eq_bind, Option.bind_some, hvalue, UInt8.ofNat_toNat]

lemma toNat_ofNat {n : Nat} (h : n < 128) : (Char.ofNat n).toNat = n := by
  have hvalid : n.isValidChar := Or.inl (by omega)
  rw [Char.ofNat, dif_pos hvalid]
  rfl

/-- A character that is no `%` stands for its byte. -/
lemma decode_cons {c : Char} {b : UInt8} (hc : c ≠ '%') (hb : charByte c = some b)
    (rest : List Char) : decode (c :: rest) = (decode rest).map (b :: ·) := by
  rw [decode.eq_def]
  split
  · rename_i heq
    cases heq
  · rename_i heq
    exact absurd (List.cons.inj heq).1 hc
  · rename_i heq
    obtain ⟨rfl, rfl⟩ := List.cons.inj heq
    rw [if_neg hc, hb]
    cases decode rest <;> rfl

/-- What is read from a text in which every character stands for itself. -/
lemma decode_plain {cs : List Char} (hascii : ∀ c ∈ cs, c.toNat < 128) (hpercent : '%' ∉ cs) :
    decode cs = some (cs.map fun c => UInt8.ofNat c.toNat) := by
  induction cs with
  | nil => rfl
  | cons c cs ih =>
      have hc : c ≠ '%' := fun h => hpercent (h ▸ List.mem_cons_self)
      have hbyte : charByte c = some (UInt8.ofNat c.toNat) :=
        if_pos (hascii c List.mem_cons_self)
      have hrest := ih (fun d hd => hascii d (List.mem_cons_of_mem c hd))
        fun h => hpercent (List.mem_cons_of_mem c h)
      rw [decode_cons hc hbyte, hrest]
      rfl

lemma decode_encodeByte (h : KeepsAscii keeps) (b : UInt8) (rest : List Char) :
    decode (encodeByte keeps b ++ rest) = (decode rest).map (b :: ·) := by
  unfold encodeByte
  split
  · rename_i hkept
    have hchar := toNat_ofNat (h.ascii b hkept)
    have hne : Char.ofNat b.toNat ≠ '%' := by
      -- the byte would be that of `%`, which is escaped
      intro heq
      have hnat : b.toNat = 37 := by rw [← hchar, heq]; rfl
      have hb : b = 37 := UInt8.toNat_inj.mp hnat
      rw [hb, h.percent] at hkept
      cases hkept
    have hbyte : charByte (Char.ofNat b.toNat) = some b := by
      unfold charByte
      rw [hchar, if_pos (h.ascii b hkept), UInt8.ofNat_toNat]
    exact decode_cons hne hbyte rest
  · show decode ('%' :: hexDigit (b.toNat / 16) :: hexDigit (b.toNat % 16) :: rest) = _
    rw [decode, escapeByte_hexDigits]
    cases decode rest <;> rfl

/-- **What is encoded is read back.** -/
theorem decode_encode (h : KeepsAscii keeps) (bytes : List UInt8) :
    decode (encode keeps bytes) = some bytes := by
  induction bytes with
  | nil => rfl
  | cons b bytes ih =>
      have hstep := decode_encodeByte h b (encode keeps bytes)
      rw [ih] at hstep
      exact hstep

/-- Different byte strings are encoded differently. -/
lemma encode_injective (h : KeepsAscii keeps) : Function.Injective (encode keeps) := by
  intro a b heq
  have ha := decode_encode h a
  rw [heq, decode_encode h b] at ha
  exact (Option.some.inj ha).symm

lemma hexDigit_range : ∀ n < 16, (48 ≤ (hexDigit n).toNat ∧ (hexDigit n).toNat ≤ 57) ∨
    (65 ≤ (hexDigit n).toNat ∧ (hexDigit n).toNat ≤ 70) := by decide

/-- A character of an encoded text: a `%`, a digit of an escape, or a byte that stands for itself. -/
lemma mem_encode {bytes : List UInt8} {c : Char} (hc : c ∈ encode keeps bytes) :
    c = '%' ∨ ((48 ≤ c.toNat ∧ c.toNat ≤ 57) ∨ (65 ≤ c.toNat ∧ c.toNat ≤ 70)) ∨
      ∃ b, keeps b = true ∧ c = Char.ofNat b.toNat := by
  obtain ⟨b, -, hb⟩ := List.mem_flatMap.mp hc
  have hlt := b.toNat_lt
  unfold encodeByte at hb
  split at hb
  · rename_i hkept
    exact .inr (.inr ⟨b, hkept, List.mem_singleton.mp hb⟩)
  · simp only [List.mem_cons, List.not_mem_nil, or_false] at hb
    rcases hb with rfl | rfl | rfl
    · exact .inl rfl
    · exact .inr (.inl (hexDigit_range _ (by omega)))
    · exact .inr (.inl (hexDigit_range _ (by omega)))

/-- A character whose byte is escaped is in no encoded text, unless escapes are written with it. -/
lemma notMem_encode (h : KeepsAscii keeps) {c : Char} (hc : c ≠ '%')
    (hdigit : hexValue c = none) (hescaped : keeps (UInt8.ofNat c.toNat) = false)
    (bytes : List UInt8) : c ∉ encode keeps bytes := by
  intro hmem
  rcases mem_encode hmem with rfl | hrange | ⟨b, hkept, rfl⟩
  · exact hc rfl
  · unfold hexValue at hdigit
    rcases hrange with hrange | hrange
    · rw [if_pos hrange] at hdigit
      cases hdigit
    · rw [if_neg (by omega), if_pos hrange] at hdigit
      cases hdigit
  · rw [toNat_ofNat (h.ascii b hkept), UInt8.ofNat_toNat, hkept] at hescaped
    cases hescaped

end PercentEncoding
