import Mathlib.Data.Nat.Init
import Mathlib.Data.Int.Init
import Mathlib.Tactic.Ring

/-!
# Floating point numbers and their texts

The numbers of ECMAScript: binary floating point with 64 bits. A number without its sign is its
magnitude, the bits read as an integer; the order of the magnitudes is the order of the numbers.

* `nearest`: the magnitude that a quotient is rounded to; `nearest_exact`.
* `shortest`: the digits that are written for a magnitude; `shortest_reads`.
* `formatDigits`, `readNumeral`: decimal numerals; `readNumeral_formatDigits`.
* `Number`: with its text, and the number of a numeral; `ofNumeral_text`.
-/

namespace Numbers

/-! ## Magnitudes -/

/-- The magnitude of infinity: those of the finite numbers are below it. -/
def infinity : Nat := 2047 * 2 ^ 52

/-- The value of a finite magnitude, in units of the smallest one, `2 ^ -1074`. -/
def value (m : Nat) : Nat :=
  if m < 2 ^ 53 then m else (2 ^ 52 + m % 2 ^ 52) * 2 ^ (m / 2 ^ 52 - 1)

/-- A quotient rounded to the nearest integer, to the even one in the middle. -/
def roundHalfEven (n d : Nat) : Nat :=
  if 2 * (n % d) < d ∨ 2 * (n % d) = d ∧ n / d % 2 = 0 then n / d else n / d + 1

/-- The magnitude nearest to the quotient of two integers; it is infinite from half a step after the
largest finite one. -/
def nearest (n d : Nat) : Nat :=
  let scaled := n * 2 ^ 1074
  let exponent := (scaled / d).log2 - 52
  min infinity (exponent * 2 ^ 52 + roundHalfEven scaled (d * 2 ^ exponent))

lemma roundHalfEven_mul (n : Nat) {d : Nat} (hd : 0 < d) : roundHalfEven (n * d) d = n := by
  rw [roundHalfEven, Nat.mul_mod_left, Nat.mul_div_cancel n hd, if_pos (by omega)]

/-- **The value of a finite magnitude is rounded to itself.** -/
theorem nearest_exact {m n d : Nat} (hm : m < infinity) (hd : 0 < d)
    (h : n * 2 ^ 1074 = value m * d) : nearest n d = m := by
  unfold nearest
  simp only [h, Nat.mul_div_cancel _ hd]
  by_cases hsmall : m < 2 ^ 53
  · -- the step is the smallest one
    have hlog : m.log2 - 52 = 0 := by
      by_cases hzero : m = 0
      · rw [hzero, Nat.log2_zero]
      · have hlt := (Nat.log2_lt hzero).mpr hsmall
        omega
    rw [value, if_pos hsmall, hlog, pow_zero, Nat.mul_one, roundHalfEven_mul m hd]
    omega
  · -- the fraction has 53 bits
    have hexponent : 2 ≤ m / 2 ^ 52 := by omega
    obtain ⟨k, hk⟩ : ∃ k, m / 2 ^ 52 = k + 1 := ⟨m / 2 ^ 52 - 1, by omega⟩
    have hfraction : m % 2 ^ 52 < 2 ^ 52 := Nat.mod_lt _ (by decide)
    have hpos : 0 < 2 ^ k := Nat.two_pow_pos k
    have hlog : ((2 ^ 52 + m % 2 ^ 52) * 2 ^ k).log2 = 52 + k := by
      rw [Nat.log2_eq_iff (Nat.mul_pos (by omega) hpos).ne']
      constructor
      · rw [pow_add]
        exact Nat.mul_le_mul_right _ (by omega)
      · rw [show 52 + k + 1 = 53 + k by omega, pow_add]
        exact Nat.mul_lt_mul_of_pos_right (by omega) hpos
    rw [value, if_neg hsmall, hk, Nat.add_sub_cancel, hlog, Nat.add_sub_cancel_left]
    have hround : roundHalfEven ((2 ^ 52 + m % 2 ^ 52) * 2 ^ k * d) (d * 2 ^ k) =
        2 ^ 52 + m % 2 ^ 52 := by
      rw [Nat.mul_assoc, Nat.mul_comm (2 ^ k) d]
      exact roundHalfEven_mul _ (Nat.mul_pos hd hpos)
    rw [hround]
    have hdiv := Nat.div_add_mod m (2 ^ 52)
    rw [hk] at hdiv
    rw [Nat.min_def]
    split <;> omega

lemma nearest_zero {d : Nat} : nearest 0 d = 0 := by
  have hround : ∀ d, roundHalfEven 0 d = 0 := by
    intro d
    rcases Nat.eq_zero_or_pos d with rfl | hd
    · rfl
    · simpa using roundHalfEven_mul 0 hd
  unfold nearest
  simp only [Nat.zero_mul, Nat.zero_div, Nat.log2_zero, hround]
  rfl

/-! ## Digits -/

/-- The magnitude nearest to `digits * 10 ^ exponent`. -/
def ofDecimal (digits : Nat) (exponent : Int) : Nat :=
  if 0 ≤ exponent then nearest (digits * 10 ^ exponent.toNat) 1
  else nearest digits (10 ^ (-exponent).toNat)

/-- All digits of a magnitude: its value is `exactDigits m * 10 ^ -1074`. -/
def exactDigits (m : Nat) : Nat := value m * 5 ^ 1074

/-- Zeros at the end go into the exponent. -/
def stripZeros : Nat → Nat → Int → Nat × Int
  | 0, digits, exponent => (digits, exponent)
  | fuel + 1, digits, exponent =>
      if digits % 10 = 0 then stripZeros fuel (digits / 10) (exponent + 1)
      else (digits, exponent)

/-- The first `k` digits of a magnitude, up or down, if that is read as the magnitude; the nearer one
is tried first. -/
def shortened (m k : Nat) : Option (Nat × Int) :=
  let exact := exactDigits m
  let dropped := (Nat.toDigits 10 exact).length - k
  let exponent : Int := dropped - 1074
  let down := exact / 10 ^ dropped
  let nearer := roundHalfEven exact (10 ^ dropped)
  let farther := if nearer = down then down + 1 else down
  [stripZeros k nearer exponent, stripZeros k farther exponent].find? fun decimal =>
    ofDecimal decimal.1 decimal.2 = m

/-- The digits that are written for a magnitude, and their exponent: as few as are read as the
magnitude. Seventeen are always enough. -/
def shortest (m : Nat) : Nat × Int :=
  ((List.range 17).findSome? fun k => shortened m (k + 1)).getD (exactDigits m, -1074)

lemma ofDecimal_exact {m : Nat} (hm : m < infinity) : ofDecimal (exactDigits m) (-1074) = m := by
  rw [ofDecimal, if_neg (by decide)]
  refine nearest_exact hm (Nat.pow_pos (by decide)) ?_
  rw [exactDigits, show (-(-1074 : Int)).toNat = 1074 from rfl, Nat.mul_assoc, ← Nat.mul_pow]

/-- **What is written for a magnitude is read as the magnitude.** -/
theorem shortest_reads {m : Nat} (hm : m < infinity) :
    ofDecimal (shortest m).1 (shortest m).2 = m := by
  unfold shortest
  cases hfound : (List.range 17).findSome? fun k => shortened m (k + 1) with
  | none => exact ofDecimal_exact hm
  | some decimal =>
      obtain ⟨k, -, hk⟩ := List.exists_of_findSome?_eq_some hfound
      have hreads := List.find?_some hk
      exact of_decide_eq_true hreads

lemma ofDecimal_zero (exponent : Int) : ofDecimal 0 exponent = 0 := by
  unfold ofDecimal
  split
  · rw [Nat.zero_mul, nearest_zero]
  · exact nearest_zero

lemma shortest_pos {m : Nat} (hpos : 0 < m) (hm : m < infinity) : 0 < (shortest m).1 := by
  by_contra hzero
  have hreads := shortest_reads hm
  rw [Nat.eq_zero_of_not_pos hzero, ofDecimal_zero] at hreads
  omega

/-! ## Numerals -/

/-- An exponent with its sign. -/
def exponentChars (exponent : Int) : List Char :=
  (if exponent < 0 then '-' else '+') :: Nat.toDigits 10 exponent.natAbs

/-- The text of some digits with the decimal point after the first `point` of them. -/
def formatDigits (digits : List Char) (point : Int) : List Char :=
  if digits.length ≤ point ∧ point ≤ 21 then
    digits ++ List.replicate (point - digits.length).toNat '0'
  else if 0 < point ∧ point ≤ 21 then
    digits.take point.toNat ++ '.' :: digits.drop point.toNat
  else if -6 < point ∧ point ≤ 0 then
    '0' :: '.' :: (List.replicate (-point).toNat '0' ++ digits)
  else
    match digits with
    | [d] => d :: 'e' :: exponentChars (point - 1)
    | d :: rest => d :: '.' :: (rest ++ 'e' :: exponentChars (point - 1))
    | [] => []

/-- The text of a positive finite magnitude. -/
def magnitudeText (m : Nat) : List Char :=
  let digits := Nat.toDigits 10 (shortest m).1
  formatDigits digits (digits.length + (shortest m).2)

/-- The exponent of a numeral, behind its `e`. -/
def readExponent (cs : List Char) : Option Int :=
  let (negative, digits) :=
    match cs with
    | '-' :: rest => (true, rest)
    | '+' :: rest => (false, rest)
    | rest => (false, rest)
  if !digits.isEmpty && digits.all Char.isDigit then
    let n : Int := Nat.ofDigitChars 10 digits 0
    some (if negative then -n else n)
  else none

/-- The digits and the exponent of a numeral, when some digits have been read. -/
def readScaled (digits : Nat) (exponent : Int) (cs : List Char) : Option (Nat × Int) :=
  match cs with
  | [] => some (digits, exponent)
  | c :: rest =>
      if c = 'e' ∨ c = 'E' then (readExponent rest).map fun e => (digits, exponent + e) else none

/-- A numeral without its sign: an integer without leading zeros, digits after the point, and an
exponent. -/
def readUnsigned (cs : List Char) : Option (Nat × Int) :=
  let whole := cs.takeWhile Char.isDigit
  if whole = [] ∨ (whole.head? = some '0' ∧ whole.length ≠ 1) then none
  else
    match cs.dropWhile Char.isDigit with
    | '.' :: rest =>
        let fraction := rest.takeWhile Char.isDigit
        if fraction = [] then none
        else readScaled (Nat.ofDigitChars 10 (whole ++ fraction) 0) (-fraction.length)
          (rest.dropWhile Char.isDigit)
    | rest => readScaled (Nat.ofDigitChars 10 whole 0) 0 rest

/-- The sign, the digits and the exponent of a numeral. -/
def readNumeral : List Char → Option (Bool × Nat × Int)
  | '-' :: cs => (readUnsigned cs).map fun decimal => (true, decimal)
  | cs => (readUnsigned cs).map fun decimal => (false, decimal)

/-! ## Numerals are read as they are written -/

lemma toDigits_isDigit {n : Nat} {c : Char} (h : c ∈ Nat.toDigits 10 n) : c.isDigit = true :=
  Nat.isDigit_of_mem_toDigits (by decide) (by decide) h

lemma toDigits_head_ne_zero {n : Nat} (hn : 0 < n) : (Nat.toDigits 10 n).head? ≠ some '0' := by
  induction n using Nat.strongRecOn with
  | ind n ih =>
      rw [Nat.toDigits_eq_if (by decide)]
      split
      · rename_i hlt
        have hdigits : ∀ d < 10, 0 < d → ([Nat.digitChar d].head? ≠ some '0') := by decide
        exact hdigits n hlt hn
      · rename_i hge
        have hhead := ih (n / 10) (by omega) (by omega)
        have hne : Nat.toDigits 10 (n / 10) ≠ [] := Nat.toDigits_ne_nil
        obtain ⟨c, cs, hcs⟩ := List.exists_cons_of_ne_nil hne
        rw [hcs] at hhead ⊢
        exact hhead

lemma readExponent_exponentChars (e : Int) : readExponent (exponentChars e) = some e := by
  have hall : (Nat.toDigits 10 e.natAbs).all Char.isDigit = true :=
    List.all_eq_true.mpr fun c hc => toDigits_isDigit hc
  have hne : (Nat.toDigits 10 e.natAbs).isEmpty = false := by
    simp [Nat.toDigits_ne_nil]
  unfold exponentChars readExponent
  by_cases hneg : e < 0
  · simp only [if_pos hneg, hne, hall, Nat.ofDigitChars_ten_toDigits]
    simp only [Bool.not_false, Bool.and_true, if_true, Option.some.injEq]
    omega
  · simp only [if_neg hneg, hne, hall, Nat.ofDigitChars_ten_toDigits]
    simp only [Bool.not_false, Bool.and_true, if_true, Bool.false_eq_true, if_false,
      Option.some.injEq]
    omega

/-- A run of digits up to something else. -/
lemma span_digits {digits : List Char} (rest : List Char)
    (hdigits : ∀ c ∈ digits, c.isDigit = true) (hrest : ∀ c ∈ rest.head?, c.isDigit = false) :
    (digits ++ rest).takeWhile Char.isDigit = digits ∧
      (digits ++ rest).dropWhile Char.isDigit = rest := by
  rw [List.takeWhile_append_of_pos hdigits, List.dropWhile_append_of_pos hdigits]
  cases rest with
  | nil => simp
  | cons c rest =>
      have hc : c.isDigit = false := hrest c rfl
      rw [List.takeWhile_cons, List.dropWhile_cons, hc]
      simp

/-- A numeral with an integer part and nothing but an exponent. -/
lemma readUnsigned_whole {whole : List Char} (rest : List Char) (hne : whole ≠ [])
    (hdigits : ∀ c ∈ whole, c.isDigit = true) (hhead : whole.head? ≠ some '0')
    (hrest : ∀ c ∈ rest.head?, c.isDigit = false ∧ c ≠ '.') :
    readUnsigned (whole ++ rest) = readScaled (Nat.ofDigitChars 10 whole 0) 0 rest := by
  obtain ⟨htake, hdrop⟩ := span_digits rest hdigits fun c hc => (hrest c hc).1
  unfold readUnsigned
  rw [htake, hdrop]
  simp only [hne, hhead, false_or, false_and, if_false]
  split
  · rename_i rest'
    exact absurd rfl (hrest '.' rfl).2
  · rfl

/-- A numeral with a fraction. -/
lemma readUnsigned_fraction (whole : List Char) {fraction : List Char} (rest : List Char)
    (hne : whole ≠ [])
    (hdigits : ∀ c ∈ whole, c.isDigit = true)
    (hhead : whole.head? ≠ some '0' ∨ whole.length = 1) (hfraction : fraction ≠ [])
    (hdigits' : ∀ c ∈ fraction, c.isDigit = true)
    (hrest : ∀ c ∈ rest.head?, c.isDigit = false) :
    readUnsigned (whole ++ '.' :: (fraction ++ rest)) =
      readScaled (Nat.ofDigitChars 10 (whole ++ fraction) 0) (-fraction.length) rest := by
  obtain ⟨htake, hdrop⟩ := span_digits ('.' :: (fraction ++ rest)) hdigits
    fun c hc => by
      obtain rfl : '.' = c := by simpa using hc
      rfl
  obtain ⟨htake', hdrop'⟩ := span_digits rest hdigits' hrest
  have hleading : ¬ (whole = [] ∨ (whole.head? = some '0' ∧ whole.length ≠ 1)) := by
    rintro (h | ⟨hzero, hlong⟩)
    · exact hne h
    · rcases hhead with h | h
      · exact h hzero
      · exact hlong h
  unfold readUnsigned
  rw [htake, hdrop, if_neg hleading]
  simp only [htake', hdrop', if_neg hfraction]

/-- **A formatted decimal is read back**, as digits and an exponent for the same number. -/
theorem readUnsigned_formatDigits {n : Nat} (hn : 0 < n) (exponent : Int) :
    ∃ digits exponent', readUnsigned
      (formatDigits (Nat.toDigits 10 n) ((Nat.toDigits 10 n).length + exponent)) =
        some (digits, exponent') ∧ ofDecimal digits exponent' = ofDecimal n exponent := by
  have hdigits : ∀ c ∈ Nat.toDigits 10 n, c.isDigit = true := fun c hc => toDigits_isDigit hc
  have hhead := toDigits_head_ne_zero hn
  have hvalue : Nat.ofDigitChars 10 (Nat.toDigits 10 n) 0 = n := Nat.ofDigitChars_ten_toDigits
  have hne : Nat.toDigits 10 n ≠ [] := Nat.toDigits_ne_nil
  generalize Nat.toDigits 10 n = ds at hdigits hhead hvalue hne
  have hlength : 0 < ds.length := List.length_pos_iff.mpr hne
  unfold formatDigits
  split
  · -- an integer, with zeros
    rename_i hpoint
    have hzeros : (ds.length + exponent - ds.length).toNat = exponent.toNat := by omega
    have hcs : ∀ c ∈ ds ++ List.replicate exponent.toNat '0', c.isDigit = true := by
      intro c hc
      rcases List.mem_append.mp hc with hc | hc
      · exact hdigits c hc
      · rw [(List.mem_replicate.mp hc).2]
        rfl
    have hhead' : (ds ++ List.replicate exponent.toNat '0').head? ≠ some '0' := by
      obtain ⟨c, cs, rfl⟩ := List.exists_cons_of_ne_nil hne
      exact hhead
    refine ⟨10 ^ exponent.toNat * n, 0, ?_, ?_⟩
    · have hread := readUnsigned_whole [] (by simp [hne]) hcs hhead' (by simp)
      rw [List.append_nil] at hread
      rw [hzeros, hread, Nat.ofDigitChars_append, Nat.ofDigitChars_replicate_zero, hvalue]
      rfl
    · rw [ofDecimal, ofDecimal, if_pos (Int.le_refl 0), if_pos (by omega), Int.toNat_zero, pow_zero,
        Nat.mul_one, Nat.mul_comm]
  · rename_i hlarge
    split
    · -- the point stands inside the digits
      rename_i hpoint
      have hlt : (ds.length + exponent).toNat < ds.length := by omega
      have htake : ds.take (ds.length + exponent).toNat ≠ [] := by
        simp only [ne_eq, List.take_eq_nil_iff, not_or]
        exact ⟨by omega, hne⟩
      have hdrop : ds.drop (ds.length + exponent).toNat ≠ [] := by
        simp only [ne_eq, List.drop_eq_nil_iff, Nat.not_le]
        exact hlt
      have hhead' : (ds.take (ds.length + exponent).toNat).head? ≠ some '0' := by
        rw [List.head?_take, if_neg (by omega)]
        exact hhead
      have hread := readUnsigned_fraction _ [] htake
        (fun c hc => hdigits c (List.mem_of_mem_take hc)) (.inl hhead') hdrop
        (fun c hc => hdigits c (List.mem_of_mem_drop hc)) (by simp)
      rw [List.append_nil, List.take_append_drop, hvalue] at hread
      refine ⟨n, _, hread, ?_⟩
      congr 1
      rw [List.length_drop]
      omega
    · rename_i hinside
      split
      · -- zeros between the point and the digits
        rename_i hpoint
        have hcs : ∀ c ∈ List.replicate (-(ds.length + exponent)).toNat '0' ++ ds,
            c.isDigit = true := by
          intro c hc
          rcases List.mem_append.mp hc with hc | hc
          · rw [(List.mem_replicate.mp hc).2]
            rfl
          · exact hdigits c hc
        have hzero : ∀ c ∈ ['0'], c.isDigit = true := by
          intro c hc
          rw [List.mem_singleton.mp hc]
          rfl
        have hread := readUnsigned_fraction ['0'] [] (by decide) hzero
          (.inr rfl) (by simp [hne]) hcs (by simp)
        have hvalue' : Nat.ofDigitChars 10
            (['0'] ++ (List.replicate (-(ds.length + exponent)).toNat '0' ++ ds)) 0 = n := by
          rw [Nat.ofDigitChars_append, Nat.ofDigitChars_append, Nat.ofDigitChars_replicate_zero]
          exact hvalue
        have hexponent : (-(List.replicate (-(ds.length + exponent)).toNat '0' ++ ds).length : Int) =
            exponent := by
          rw [List.length_append, List.length_replicate]
          omega
        rw [List.append_nil, hvalue', hexponent] at hread
        exact ⟨n, exponent, hread, rfl⟩
      · -- one digit before the point, and an exponent
        have hscaled : ∀ (scale : Int), scale + (ds.length + exponent - 1) = exponent →
            readScaled n scale ('e' :: exponentChars (ds.length + exponent - 1)) =
              some (n, exponent) := by
          intro scale hscale
          rw [readScaled, if_pos (.inl rfl), readExponent_exponentChars, Option.map_some, hscale]
        refine ⟨n, exponent, ?_, rfl⟩
        match ds, hne, hdigits, hhead, hvalue, hscaled with
        | [d], hne, hdigits, hhead, hvalue, hscaled =>
            have hread := readUnsigned_whole
              ('e' :: exponentChars (([d] : List Char).length + exponent - 1)) hne hdigits
              hhead fun c hc => by
                obtain rfl : 'e' = c := by simpa using hc
                decide
            rw [hvalue, hscaled 0 (by simp only [List.length_singleton]; omega)] at hread
            exact hread
        | d :: d' :: rest, hne, hdigits, hhead, hvalue, hscaled =>
            have hread := readUnsigned_fraction [d]
              ('e' :: exponentChars ((d :: d' :: rest).length + exponent - 1))
              (List.cons_ne_nil d [])
              (fun c hc => hdigits c (List.mem_singleton.mp hc ▸ List.mem_cons_self)) (.inl hhead)
              (List.cons_ne_nil d' rest) (fun c hc => hdigits c (List.mem_cons_of_mem d hc))
              fun c hc => by
                obtain rfl : 'e' = c := by simpa using hc
                decide
            have hjoined : Nat.ofDigitChars 10 ([d] ++ d' :: rest) 0 = n := hvalue
            rw [hjoined, hscaled _ (by
              simp only [List.length_cons]
              omega)] at hread
            exact hread

/-- A numeral that is read without a sign is not negative. -/
lemma readNumeral_unsigned {cs : List Char} {decimal : Nat × Int}
    (h : readUnsigned cs = some decimal) : readNumeral cs = some (false, decimal) := by
  unfold readNumeral
  split
  · rename_i cs'
    have hnone : readUnsigned ('-' :: cs') = none := by
      have htake : ('-' :: cs').takeWhile Char.isDigit = [] := rfl
      unfold readUnsigned
      rw [htake, if_pos (.inl rfl)]
    rw [hnone] at h
    cases h
  · rw [h]
    rfl

/-! ## Numbers -/

/-- A number. -/
inductive Number where
  | nan
  | infinite (negative : Bool)
  | finite (negative : Bool) (magnitude : Fin infinity)
  deriving DecidableEq

namespace Number

/-- Zero, which has two signs. -/
def zero (negative : Bool) : Number := finite negative ⟨0, by decide⟩

def isFinite : Number → Bool
  | finite _ _ => true
  | _ => false

/-- `===`: the zeros are equal, and nothing is `NaN`. -/
def strictEq : Number → Number → Bool
  | finite negative m, finite negative' m' => m == m' && (negative == negative' || m.val == 0)
  | infinite negative, infinite negative' => negative == negative'
  | _, _ => false

/-- The number without the sign of a zero. -/
def unsignedZero : Number → Number
  | finite negative m => if m.val = 0 then zero false else finite negative m
  | n => n

/-- The text of a number. -/
def text : Number → List Char
  | nan => "NaN".toList
  | infinite negative => if negative then "-Infinity".toList else "Infinity".toList
  | finite negative m =>
      if m.val = 0 then ['0']
      else if negative then '-' :: magnitudeText m.val else magnitudeText m.val

/-- The number of a numeral; too large a one is infinite. -/
def ofNumeral (numeral : Bool × Nat × Int) : Number :=
  let magnitude := ofDecimal numeral.2.1 numeral.2.2
  if h : magnitude < infinity then finite numeral.1 ⟨magnitude, h⟩ else infinite numeral.1

def read (cs : List Char) : Option Number := (readNumeral cs).map ofNumeral

lemma strictEq_iff {a b : Number} (ha : a.isFinite = true) (hb : b.isFinite = true) :
    a.strictEq b = true ↔ a.unsignedZero = b.unsignedZero := by
  cases a with
  | nan => cases ha
  | infinite => cases ha
  | finite negative m =>
      cases b with
      | nan => cases hb
      | infinite => cases hb
      | finite negative' m' =>
          simp only [strictEq, unsignedZero, zero, Bool.and_eq_true, Bool.or_eq_true, beq_iff_eq]
          by_cases hm : m.val = 0
          · by_cases hm' : m'.val = 0
            · simp [hm, hm', Fin.ext_iff]
            · simp [hm, hm', Fin.ext_iff, Ne.symm hm']
          · by_cases hm' : m'.val = 0
            · simp [hm, hm', Fin.ext_iff]
            · simp [hm, hm', and_comm]

lemma isFinite_unsignedZero (n : Number) : n.unsignedZero.isFinite = n.isFinite := by
  unfold unsignedZero
  split
  · split <;> rfl
  · rfl

lemma unsignedZero_unsignedZero (n : Number) : n.unsignedZero.unsignedZero = n.unsignedZero := by
  cases n with
  | nan => rfl
  | infinite negative => rfl
  | finite negative m =>
      by_cases hm : m.val = 0
      · simp [unsignedZero, zero, hm]
      · simp [unsignedZero, hm]

/-- The sign of a zero is not written. -/
lemma text_unsignedZero (n : Number) : n.unsignedZero.text = n.text := by
  cases n with
  | nan => rfl
  | infinite negative => rfl
  | finite negative m =>
      by_cases hm : m.val = 0
      · simp [unsignedZero, zero, text, hm]
      · simp [unsignedZero, hm]

/-- Equal numbers are the same up to the sign of a zero. -/
lemma unsignedZero_eq_of_strictEq {a b : Number} (h : a.strictEq b = true) :
    a.isFinite = b.isFinite ∧ a.unsignedZero = b.unsignedZero := by
  cases a with
  | nan => cases h
  | infinite negative =>
      cases b with
      | nan => cases h
      | infinite negative' => exact ⟨rfl, congrArg infinite (eq_of_beq h)⟩
      | finite => cases h
  | finite negative m =>
      cases b with
      | nan => cases h
      | infinite => cases h
      | finite negative' m' => exact ⟨rfl, (strictEq_iff rfl rfl).mp h⟩

/-- A magnitude is read from its text. -/
lemma readUnsigned_magnitudeText {m : Nat} (hpos : 0 < m) (hm : m < infinity) :
    ∃ decimal : Nat × Int, readUnsigned (magnitudeText m) = some decimal ∧
      ofDecimal decimal.1 decimal.2 = m := by
  obtain ⟨digits, exponent, hread, heq⟩ :=
    readUnsigned_formatDigits (shortest_pos hpos hm) (shortest m).2
  exact ⟨(digits, exponent), hread, heq.trans (shortest_reads hm)⟩

lemma ofNumeral_eq {negative : Bool} {decimal : Nat × Int} {m : Fin infinity}
    (h : ofDecimal decimal.1 decimal.2 = m.val) : ofNumeral (negative, decimal) = finite negative m := by
  unfold ofNumeral
  have hlt : ofDecimal decimal.1 decimal.2 < infinity := h ▸ m.isLt
  dsimp only
  rw [dif_pos hlt]
  congr 1
  exact Fin.ext h

/-- **A finite number is read from its text**, but for the sign of a zero. -/
theorem read_text {n : Number} (hn : n.isFinite = true) : read n.text = some n.unsignedZero := by
  cases n with
  | nan => cases hn
  | infinite => cases hn
  | finite negative m =>
      rw [read, text, unsignedZero]
      by_cases hm : m.val = 0
      · rw [if_pos hm, if_pos hm]
        have hzero : ofDecimal 0 0 = 0 := ofDecimal_zero 0
        exact congrArg some (@ofNumeral_eq false (0, 0) ⟨0, by decide⟩ hzero)
      · rw [if_neg hm, if_neg hm]
        obtain ⟨decimal, hread, hreads⟩ :=
          readUnsigned_magnitudeText (Nat.pos_of_ne_zero hm) m.isLt
        cases negative with
        | false =>
            rw [if_neg (by decide), readNumeral_unsigned hread]
            exact congrArg some (ofNumeral_eq hreads)
        | true =>
            rw [if_pos rfl, readNumeral, hread]
            exact congrArg some (ofNumeral_eq hreads)

/-! ### The characters of a text -/

/-- A character of a numeral. -/
def isNumeralChar (c : Char) : Bool :=
  c.isDigit || c == '-' || c == '+' || c == '.' || c == 'e' || c == 'E'

lemma exponentChars_numeral {e : Int} {c : Char} (h : c ∈ exponentChars e) :
    isNumeralChar c = true := by
  unfold exponentChars at h
  rcases List.mem_cons.mp h with rfl | h
  · split <;> rfl
  · simp [isNumeralChar, toDigits_isDigit h]

lemma formatDigits_numeral {digits : List Char} (hdigits : ∀ c ∈ digits, c.isDigit = true)
    {point : Int} {c : Char} (h : c ∈ formatDigits digits point) : isNumeralChar c = true := by
  have hdigit : ∀ {c : Char}, c.isDigit = true → isNumeralChar c = true := by
    intro c hc
    simp [isNumeralChar, hc]
  have hzeros : ∀ {k : Nat} {c : Char}, c ∈ List.replicate k '0' → isNumeralChar c = true := by
    intro k c hc
    rw [(List.mem_replicate.mp hc).2]
    rfl
  unfold formatDigits at h
  split at h
  · rcases List.mem_append.mp h with h | h
    · exact hdigit (hdigits c h)
    · exact hzeros h
  · split at h
    · rcases List.mem_append.mp h with h | h
      · exact hdigit (hdigits c (List.mem_of_mem_take h))
      · rcases List.mem_cons.mp h with rfl | h
        · rfl
        · exact hdigit (hdigits c (List.mem_of_mem_drop h))
    · split at h
      · rcases List.mem_cons.mp h with rfl | h
        · rfl
        · rcases List.mem_cons.mp h with rfl | h
          · rfl
          · rcases List.mem_append.mp h with h | h
            · exact hzeros h
            · exact hdigit (hdigits c h)
      · split at h
        · rcases List.mem_cons.mp h with rfl | h
          · exact hdigit (hdigits c List.mem_cons_self)
          · rcases List.mem_cons.mp h with rfl | h
            · rfl
            · exact exponentChars_numeral h
        · rcases List.mem_cons.mp h with rfl | h
          · exact hdigit (hdigits c List.mem_cons_self)
          · rcases List.mem_cons.mp h with rfl | h
            · rfl
            · rcases List.mem_append.mp h with h | h
              · exact hdigit (hdigits c (List.mem_cons_of_mem _ h))
              · rcases List.mem_cons.mp h with rfl | h
                · rfl
                · exact exponentChars_numeral h
        · cases h

/-- The text of a finite number is a numeral. -/
lemma text_numeral {n : Number} (hn : n.isFinite = true) {c : Char} (h : c ∈ n.text) :
    isNumeralChar c = true := by
  have hmagnitude : ∀ {m : Nat} {c : Char}, c ∈ magnitudeText m → isNumeralChar c = true :=
    fun h => formatDigits_numeral (fun _ hc => toDigits_isDigit hc) h
  cases n with
  | nan => cases hn
  | infinite => cases hn
  | finite negative m =>
      rw [text] at h
      split at h
      · rw [List.mem_singleton.mp h]
        rfl
      · split at h
        · rcases List.mem_cons.mp h with rfl | h
          · rfl
          · exact hmagnitude h
        · exact hmagnitude h

lemma text_ne_nil {n : Number} (hn : n.isFinite = true) : n.text ≠ [] := by
  intro hnil
  have hread := read_text hn
  rw [hnil] at hread
  cases hread

end Number

end Numbers
