import PasswordVault.Server.Encodings

/-!
# Strings of the page

A JavaScript string is a list of 16-bit code units, which need not be the text of any characters.

* `units`: the string of a text.
* `trim`: without the white space around it, as JavaScript has it.
* `textBytes`: the UTF-8 form, in which lone surrogates are replaced; `textBytes_inj` for strings
  without them.
-/

namespace PasswordVault.Browser

/-- A string by its code units. -/
abbrev JsString := List UInt16

/-- A character takes one code unit, or two beyond the first 65536 characters. -/
def charUnits (c : Char) : JsString :=
  if c.toNat < 0x10000 then [UInt16.ofNat c.toNat]
  else [UInt16.ofNat (0xD800 + (c.toNat - 0x10000) / 0x400),
    UInt16.ofNat (0xDC00 + (c.toNat - 0x10000) % 0x400)]

def units (text : String) : JsString := text.toList.flatMap charUnits

lemma units_ofList {cs : List Char} (h : ∀ c ∈ cs, c.toNat < 0x10000) :
    units (String.ofList cs) = cs.map fun c => UInt16.ofNat c.toNat := by
  rw [units, String.toList_ofList]
  induction cs with
  | nil => rfl
  | cons c cs ih =>
      have hc : charUnits c = [UInt16.ofNat c.toNat] := if_pos (h c List.mem_cons_self)
      rw [List.flatMap_cons, hc, ih fun d hd => h d (List.mem_cons_of_mem c hd)]
      rfl

/-! ## White space -/

/-- White space and line terminators: what `trim` removes and `\s` matches. -/
def isWhiteSpaceUnit (u : UInt16) : Bool :=
  let n := u.toNat
  (9 ≤ n && n ≤ 13) || n == 0x20 || n == 0xA0 || n == 0x1680 || (0x2000 ≤ n && n ≤ 0x200A) ||
    n == 0x2028 || n == 0x2029 || n == 0x202F || n == 0x205F || n == 0x3000 || n == 0xFEFF

def trimStart (s : JsString) : JsString := s.dropWhile isWhiteSpaceUnit

def trimEnd (s : JsString) : JsString := (s.reverse.dropWhile isWhiteSpaceUnit).reverse

/-- `value.trim()`. -/
def trim (value : JsString) : JsString := trimEnd (trimStart value)

/-- `value.replace(/\s/g, "")`. -/
def compacted (value : JsString) : JsString := value.filter fun u => !isWhiteSpaceUnit u

lemma compacted_append (s t : JsString) : compacted (s ++ t) = compacted s ++ compacted t :=
  List.filter_append ..

lemma compacted_dropWhile (s : JsString) :
    compacted (s.dropWhile isWhiteSpaceUnit) = compacted s := by
  unfold compacted
  induction s with
  | nil => rfl
  | cons u s ih =>
      rw [List.dropWhile_cons]
      by_cases hu : isWhiteSpaceUnit u = true
      · rw [if_pos hu, ih, List.filter_cons_of_neg (by simp [hu])]
      · rw [if_neg hu]

lemma compacted_trimEnd (s : JsString) : compacted (trimEnd s) = compacted s := by
  have hreverse := compacted_dropWhile s.reverse
  unfold compacted at hreverse
  unfold trimEnd compacted
  rw [List.filter_reverse, hreverse, List.filter_reverse, List.reverse_reverse]

/-- Trimming removes white space only. -/
lemma compacted_trim (s : JsString) : compacted (trim s) = compacted s := by
  rw [trim, compacted_trimEnd, trimStart, compacted_dropWhile]

/-- What follows a unit that is no white space does not reach the start. -/
lemma trimEnd_append {s t : JsString} (hs : ∀ u ∈ s.getLast?, isWhiteSpaceUnit u = false) :
    trimEnd (s ++ t) = s ++ trimEnd t := by
  unfold trimEnd
  rw [List.reverse_append, List.dropWhile_append]
  split
  · rename_i hempty
    rw [List.isEmpty_iff.mp hempty, List.reverse_nil, List.append_nil]
    have hkeep : s.reverse.dropWhile isWhiteSpaceUnit = s.reverse := by
      cases hreverse : s.reverse with
      | nil => rfl
      | cons u rest =>
          have hlast : u ∈ s.getLast? := by
            rw [← List.head?_reverse, hreverse]
            exact rfl
          rw [List.dropWhile_cons, if_neg (by simp [hs u hlast])]
    rw [hkeep, List.reverse_reverse]
  · rw [List.reverse_append, List.reverse_reverse]

/-! ## UTF-8 -/

def isHighSurrogate (u : UInt16) : Bool := 0xD800 ≤ u.toNat && u.toNat < 0xDC00

def isLowSurrogate (u : UInt16) : Bool := 0xDC00 ≤ u.toNat && u.toNat < 0xE000

/-- The character of a pair of surrogates. -/
def pairChar (u v : UInt16) : Char :=
  Char.ofNat (0x10000 + (u.toNat - 0xD800) * 0x400 + (v.toNat - 0xDC00))

/-- The character of a unit that is in no pair: a surrogate is replaced. -/
def loneChar (u : UInt16) : Char :=
  if isHighSurrogate u || isLowSurrogate u then Char.ofNat 0xFFFD else Char.ofNat u.toNat

/-- The characters of a string. -/
def scalars : JsString → List Char
  | [] => []
  | [u] => [loneChar u]
  | u :: v :: rest =>
      if isHighSurrogate u && isLowSurrogate v then pairChar u v :: scalars rest
      else loneChar u :: scalars (v :: rest)

/-- `textBytes`. -/
def textBytes (s : JsString) : Bytes := utf8Bytes (String.ofList (scalars s))

/-- A string without lone surrogates. -/
inductive WellFormed : JsString → Prop
  | nil : WellFormed []
  | plain {u : UInt16} {rest : JsString} (hhigh : isHighSurrogate u = false)
      (hlow : isLowSurrogate u = false) (h : WellFormed rest) : WellFormed (u :: rest)
  | pair {u v : UInt16} {rest : JsString} (hhigh : isHighSurrogate u = true)
      (hlow : isLowSurrogate v = true) (h : WellFormed rest) : WellFormed (u :: v :: rest)

lemma WellFormed.append {s t : JsString} (hs : WellFormed s) (ht : WellFormed t) :
    WellFormed (s ++ t) := by
  induction hs with
  | nil => exact ht
  | plain hhigh hlow _ ih => exact .plain hhigh hlow ih
  | pair hhigh hlow _ ih => exact .pair hhigh hlow ih

/-- A string of units that are no surrogates. -/
lemma wellFormed_of_plain {s : JsString}
    (h : ∀ u ∈ s, isHighSurrogate u = false ∧ isLowSurrogate u = false) : WellFormed s := by
  induction s with
  | nil => exact .nil
  | cons u s ih =>
      obtain ⟨hhigh, hlow⟩ := h u List.mem_cons_self
      exact .plain hhigh hlow (ih fun v hv => h v (List.mem_cons_of_mem u hv))

lemma scalars_plain {u : UInt16} {rest : JsString} (hhigh : isHighSurrogate u = false)
    (hlow : isLowSurrogate u = false) :
    scalars (u :: rest) = Char.ofNat u.toNat :: scalars rest := by
  have hlone : loneChar u = Char.ofNat u.toNat := by
    rw [loneChar, hhigh, hlow]
    rfl
  cases rest with
  | nil =>
      show [loneChar u] = [Char.ofNat u.toNat]
      rw [hlone]
  | cons v rest => rw [scalars, hhigh, Bool.false_and, if_neg (by decide), hlone]

lemma toNat_ofNat_of_valid {n : Nat} (h : n.isValidChar) : (Char.ofNat n).toNat = n := by
  rw [Char.ofNat, dif_pos h]
  rfl

lemma charUnits_plain {u : UInt16} (hhigh : isHighSurrogate u = false)
    (hlow : isLowSurrogate u = false) : charUnits (Char.ofNat u.toNat) = [u] := by
  have hu := u.toNat_lt
  have hvalid : u.toNat.isValidChar := by
    simp only [isHighSurrogate, isLowSurrogate, Bool.and_eq_false_iff, decide_eq_false_iff_not]
      at hhigh hlow
    unfold Nat.isValidChar
    omega
  rw [charUnits, toNat_ofNat_of_valid hvalid, if_pos hu, UInt16.ofNat_toNat]

lemma charUnits_pair {u v : UInt16} (hhigh : isHighSurrogate u = true)
    (hlow : isLowSurrogate v = true) : charUnits (pairChar u v) = [u, v] := by
  simp only [isHighSurrogate, isLowSurrogate, Bool.and_eq_true, decide_eq_true_eq] at hhigh hlow
  have hvalid : (0x10000 + (u.toNat - 0xD800) * 0x400 + (v.toNat - 0xDC00)).isValidChar := by
    unfold Nat.isValidChar
    omega
  rw [charUnits, pairChar, toNat_ofNat_of_valid hvalid, if_neg (by omega)]
  have hu : 0xD800 + (0x10000 + (u.toNat - 0xD800) * 0x400 + (v.toNat - 0xDC00) - 0x10000) / 0x400 =
      u.toNat := by omega
  have hv : 0xDC00 + (0x10000 + (u.toNat - 0xD800) * 0x400 + (v.toNat - 0xDC00) - 0x10000) % 0x400 =
      v.toNat := by omega
  rw [hu, hv, UInt16.ofNat_toNat, UInt16.ofNat_toNat]

/-- A string without lone surrogates is the string of its characters. -/
lemma units_scalars {s : JsString} (h : WellFormed s) : (scalars s).flatMap charUnits = s := by
  induction h with
  | nil => rfl
  | plain hhigh hlow _ ih =>
      rw [scalars_plain hhigh hlow, List.flatMap_cons, charUnits_plain hhigh hlow, ih]
      rfl
  | pair hhigh hlow _ ih =>
      rw [scalars, hhigh, hlow, Bool.true_and, if_pos rfl, List.flatMap_cons,
        charUnits_pair hhigh hlow, ih]
      rfl

lemma scalars_charUnits (c : Char) (rest : JsString) :
    scalars (charUnits c ++ rest) = c :: scalars rest := by
  have hvalid : c.toNat < 0xD800 ∨ 0xDFFF < c.toNat ∧ c.toNat < 0x110000 := c.valid
  have hchar : Char.ofNat c.toNat = c := Char.ofNat_toNat c
  unfold charUnits
  by_cases hc : c.toNat < 0x10000
  · have hu : (UInt16.ofNat c.toNat).toNat = c.toNat := UInt16.toNat_ofNat_of_lt' hc
    rw [if_pos hc, List.singleton_append, scalars_plain, hu, hchar]
    · simp only [isHighSurrogate, hu, Bool.and_eq_false_iff, decide_eq_false_iff_not]
      omega
    · simp only [isLowSurrogate, hu, Bool.and_eq_false_iff, decide_eq_false_iff_not]
      omega
  · have hu : (UInt16.ofNat (0xD800 + (c.toNat - 0x10000) / 0x400)).toNat =
        0xD800 + (c.toNat - 0x10000) / 0x400 := UInt16.toNat_ofNat_of_lt' (by
          show _ < 65536
          omega)
    have hv : (UInt16.ofNat (0xDC00 + (c.toNat - 0x10000) % 0x400)).toNat =
        0xDC00 + (c.toNat - 0x10000) % 0x400 := UInt16.toNat_ofNat_of_lt' (by
          show _ < 65536
          omega)
    rw [if_neg hc, List.cons_append, List.cons_append, List.nil_append, scalars, if_pos, pairChar,
      hu, hv]
    · have hcode : 0x10000 + (0xD800 + (c.toNat - 0x10000) / 0x400 - 0xD800) * 0x400 +
          (0xDC00 + (c.toNat - 0x10000) % 0x400 - 0xDC00) = c.toNat := by omega
      rw [hcode, hchar]
    · simp only [isHighSurrogate, isLowSurrogate, hu, hv, Bool.and_eq_true, decide_eq_true_eq]
      omega

/-- The string of a text stands for it. -/
lemma scalars_units (text : String) : scalars (units text) = text.toList := by
  unfold units
  induction text.toList with
  | nil => rfl
  | cons c cs ih => rw [List.flatMap_cons, scalars_charUnits, ih]

/-- Different texts are different strings. -/
lemma units_injective : Function.Injective units := by
  intro s t h
  have htext := congrArg scalars h
  rw [scalars_units, scalars_units] at htext
  exact String.toList_inj.mp htext

/-- **Strings without lone surrogates have different bytes.** -/
theorem textBytes_inj {s t : JsString} (hs : WellFormed s) (ht : WellFormed t)
    (h : textBytes s = textBytes t) : s = t := by
  have hscalars : scalars s = scalars t :=
    String.ofList_injective (PasswordVault.utf8Bytes_injective h)
  rw [← units_scalars hs, hscalars, units_scalars ht]

end PasswordVault.Browser
