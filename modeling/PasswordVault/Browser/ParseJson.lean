import PasswordVault.Browser.StableJson

/-!
# Reading a value

`JSON.parse`, from a string of code units, and what it reads from the text that `stableJson` writes.

* `readString`, `readBracketed`, `parseValue`, `parse`.
* `parse_distinct`: the objects that are read have different keys.
* `parse_stableJson`: a text is read as the canonical value.
-/

namespace PasswordVault.StableJson

open Browser Numbers

/-! ## Strings -/

/-- The space between tokens. -/
def isSpace (u : UInt16) : Bool := u.toNat == 32 || u.toNat == 9 || u.toNat == 10 || u.toNat == 13

def skip (text : JsString) : JsString := text.dropWhile isSpace

def hexDigit (u : UInt16) : Option Nat :=
  let n := u.toNat
  if 48 ≤ n ∧ n ≤ 57 then some (n - 48)
  else if 97 ≤ n ∧ n ≤ 102 then some (n - 87)
  else if 65 ≤ n ∧ n ≤ 70 then some (n - 55)
  else none

/-- The unit of four digits. -/
def hexUnits (a b c d : UInt16) : Option UInt16 := do
  let a ← hexDigit a
  let b ← hexDigit b
  let c ← hexDigit c
  let d ← hexDigit d
  some (UInt16.ofNat (a * 4096 + b * 256 + c * 16 + d))

/-- What stands after a backslash, but for `u`. -/
def escaped (u : UInt16) : Option UInt16 :=
  if u = unitOf '"' ∨ u = unitOf '\\' ∨ u = unitOf '/' then some u
  else if u = unitOf 'b' then some 8
  else if u = unitOf 'f' then some 12
  else if u = unitOf 'n' then some 10
  else if u = unitOf 'r' then some 13
  else if u = unitOf 't' then some 9
  else none

/-- The rest of a string after its first quotation mark, and what follows it. -/
def readString : JsString → Option (JsString × JsString)
  | [] => none
  | u :: rest =>
      if u = unitOf '"' then some ([], rest)
      else if u = unitOf '\\' then
        match rest with
        | [] => none
        | e :: rest =>
            if e = unitOf 'u' then
              match rest with
              | a :: b :: c :: d :: rest =>
                  (hexUnits a b c d).bind fun v => (readString rest).map fun p => (v :: p.1, p.2)
              | _ => none
            else (escaped e).bind fun v => (readString rest).map fun p => (v :: p.1, p.2)
      -- control characters stand for nothing
      else if u.toNat < 32 then none
      else (readString rest).map fun p => (u :: p.1, p.2)

/-! ## Values -/

/-- The items before a closing bracket, with commas between them. -/
def readItems {α : Type} (close : UInt16) (item : JsString → Option (α × JsString)) :
    Nat → JsString → Option (List α × JsString)
  | 0, _ => none
  | fuel + 1, text =>
      (item text).bind fun p =>
        match skip p.2 with
        | [] => none
        | u :: rest =>
            if u = unitOf ',' then
              (readItems close item fuel rest).map fun q => (p.1 :: q.1, q.2)
            else if u = close then some ([p.1], rest)
            else none

/-- What stands in brackets, after the opening one. -/
def readBracketed {α : Type} (close : UInt16) (item : JsString → Option (α × JsString)) (fuel : Nat)
    (text : JsString) : Option (List α × JsString) :=
  match skip text with
  | [] => none
  | u :: rest => if u = close then some ([], rest) else readItems close item fuel (u :: rest)

/-- A key, a colon and a value. -/
def readMember {α : Type} (value : JsString → Option (α × JsString)) (text : JsString) :
    Option ((JsString × α) × JsString) :=
  match skip text with
  | [] => none
  | u :: rest =>
      if u = unitOf '"' then
        (readString rest).bind fun p =>
          match skip p.2 with
          | [] => none
          | u :: rest =>
              if u = unitOf ':' then (value rest).map fun q => ((p.1, q.1), q.2) else none
      else none

/-- A member takes the place of an earlier one with its key. -/
def setProperty {α : Type} (members : List (JsString × α)) (m : JsString × α) :
    List (JsString × α) :=
  members.filter (fun m' => m'.1 != m.1) ++ [m]

/-- The properties of an object from the members of its text. -/
def ownProperties {α : Type} (members : List (JsString × α)) : List (JsString × α) :=
  members.foldl setProperty []

def isNumeralUnit (u : UInt16) : Bool := Number.isNumeralChar (Char.ofNat u.toNat)

/-- A number: its numeral ends before the first unit that stands in none. -/
def readNumber (text : JsString) : Option (Value × JsString) :=
  (Number.read ((text.takeWhile isNumeralUnit).map fun u => Char.ofNat u.toNat)).map fun n =>
    (.num n, text.dropWhile isNumeralUnit)

/-- A value and what follows it; `fuel` bounds the depth and the number of items. -/
def parseValue : Nat → JsString → Option (Value × JsString)
  | 0, _ => none
  | fuel + 1, text =>
      match skip text with
      | [] => none
      | u :: rest =>
          if u = unitOf '"' then (readString rest).map fun p => (.str p.1, p.2)
          else if u = unitOf '[' then
            (readBracketed (unitOf ']') (parseValue fuel) fuel rest).map fun p => (.arr p.1, p.2)
          else if u = unitOf '\x7b' then
            (readBracketed (unitOf '\x7d') (readMember (parseValue fuel)) fuel rest).map fun p =>
              (.obj (ownProperties p.1), p.2)
          else if (units "null").isPrefixOf (u :: rest) then some (.null, (u :: rest).drop 4)
          else if (units "true").isPrefixOf (u :: rest) then some (.bool true, (u :: rest).drop 4)
          else if (units "false").isPrefixOf (u :: rest) then some (.bool false, (u :: rest).drop 5)
          else readNumber (u :: rest)

/-- `JSON.parse`. -/
def parse (text : JsString) : Option Value :=
  (parseValue (text.length + 1) text).bind fun p =>
    if skip p.2 = [] then some p.1 else none

/-! ## What is read -/

section Read

variable {α : Type} {P : α → Prop} {close : UInt16} {item : JsString → Option (α × JsString)}

lemma readItems_forall (hitem : ∀ {text : JsString} {p : α × JsString}, item text = some p → P p.1) :
    ∀ {fuel : Nat} {text : JsString} {q : List α × JsString},
      readItems close item fuel text = some q → ∀ x ∈ q.1, P x := by
  intro fuel
  induction fuel with
  | zero =>
      intro text q h
      cases h
  | succ fuel ih =>
      intro text q h
      rw [readItems] at h
      obtain ⟨p, hp, h⟩ := Option.bind_eq_some_iff.mp h
      split at h
      · cases h
      · split at h
        · obtain ⟨q', hq', rfl⟩ := Option.map_eq_some_iff.mp h
          exact List.forall_mem_cons.mpr ⟨hitem hp, ih hq'⟩
        · split at h
          · obtain rfl := Option.some.inj h
            exact List.forall_mem_singleton.mpr (hitem hp)
          · cases h

lemma readBracketed_forall
    (hitem : ∀ {text : JsString} {p : α × JsString}, item text = some p → P p.1) {fuel : Nat}
    {text : JsString} {q : List α × JsString} (h : readBracketed close item fuel text = some q) :
    ∀ x ∈ q.1, P x := by
  unfold readBracketed at h
  split at h
  · cases h
  · split at h
    · obtain rfl := Option.some.inj h
      intro x hx
      cases hx
    · exact readItems_forall hitem h

lemma readMember_value {value : JsString → Option (α × JsString)}
    (hvalue : ∀ {text : JsString} {p : α × JsString}, value text = some p → P p.1)
    {text : JsString} {q : (JsString × α) × JsString} (h : readMember value text = some q) :
    P q.1.2 := by
  unfold readMember at h
  split at h
  · cases h
  · split at h
    · obtain ⟨p, -, h⟩ := Option.bind_eq_some_iff.mp h
      split at h
      · cases h
      · split at h
        · obtain ⟨q', hq', rfl⟩ := Option.map_eq_some_iff.mp h
          exact hvalue hq'
        · cases h
    · cases h

lemma mem_setProperty {members : List (JsString × α)} {m m' : JsString × α}
    (h : m' ∈ setProperty members m) : m' ∈ members ∨ m' = m := by
  rcases List.mem_append.mp h with h | h
  · exact .inl (List.mem_filter.mp h).1
  · exact .inr (List.mem_singleton.mp h)

lemma nodup_setProperty {members : List (JsString × α)} {m : JsString × α}
    (h : (members.map Prod.fst).Nodup) : ((setProperty members m).map Prod.fst).Nodup := by
  rw [setProperty, List.map_append]
  refine List.nodup_append.mpr ⟨h.sublist (List.filter_sublist.map _), by simp, ?_⟩
  intro k hk k' hk'
  obtain ⟨m', hm', rfl⟩ := List.mem_map.mp hk
  obtain rfl : k' = m.1 := by simpa using hk'
  simpa using (List.mem_filter.mp hm').2

/-- The properties of an object have different keys, and values that have been read. -/
lemma ownProperties_spec (members : List (JsString × α)) :
    ((ownProperties members).map Prod.fst).Nodup ∧ ∀ m ∈ ownProperties members, m ∈ members := by
  have hfold : ∀ (rest before : List (JsString × α)), (before.map Prod.fst).Nodup →
      ((rest.foldl setProperty before).map Prod.fst).Nodup ∧
        ∀ m ∈ rest.foldl setProperty before, m ∈ before ∨ m ∈ rest := by
    intro rest
    induction rest with
    | nil => exact fun before h => ⟨h, fun m hm => .inl hm⟩
    | cons m rest ih =>
        intro before h
        obtain ⟨hnodup, hmem⟩ := ih (setProperty before m) (nodup_setProperty h)
        refine ⟨hnodup, fun m' hm' => ?_⟩
        rcases hmem m' hm' with hbefore | hrest
        · rcases mem_setProperty hbefore with hbefore | rfl
          · exact .inl hbefore
          · exact .inr List.mem_cons_self
        · exact .inr (List.mem_cons_of_mem m hrest)
  obtain ⟨hnodup, hmem⟩ := hfold members [] List.nodup_nil
  refine ⟨hnodup, fun m hm => ?_⟩
  rcases hmem m hm with h | h
  · cases h
  · exact h

end Read

lemma parseValue_distinct : ∀ {fuel : Nat} {text : JsString} {p : Value × JsString},
    parseValue fuel text = some p → Distinct p.1 := by
  intro fuel
  induction fuel with
  | zero =>
      intro text p h
      cases h
  | succ fuel ih =>
      intro text p h
      rw [parseValue] at h
      split at h
      · cases h
      split at h
      · obtain ⟨q, -, rfl⟩ := Option.map_eq_some_iff.mp h
        trivial
      split at h
      · obtain ⟨q, hq, rfl⟩ := Option.map_eq_some_iff.mp h
        exact distinctItems_iff.mpr (readBracketed_forall ih hq)
      split at h
      · obtain ⟨q, hq, rfl⟩ := Option.map_eq_some_iff.mp h
        obtain ⟨hnodup, hmem⟩ := ownProperties_spec q.1
        have hvalues : ∀ m ∈ q.1, Distinct m.2 :=
          readBracketed_forall (fun hm => readMember_value ih hm) hq
        exact ⟨hnodup, distinctMembers_iff.mpr fun m hm => hvalues m (hmem m hm)⟩
      split at h
      · obtain rfl := Option.some.inj h
        trivial
      split at h
      · obtain rfl := Option.some.inj h
        trivial
      split at h
      · obtain rfl := Option.some.inj h
        trivial
      · obtain ⟨n, -, rfl⟩ := Option.map_eq_some_iff.mp h
        trivial

/-- **Every object that is read has different keys.** -/
theorem parse_distinct {text : JsString} {v : Value} (h : parse text = some v) : Distinct v := by
  obtain ⟨p, hp, h⟩ := Option.bind_eq_some_iff.mp h
  split at h
  · obtain rfl := Option.some.inj h
    exact parseValue_distinct hp
  · cases h

/-! ## Strings are read as they are written -/

lemma toNat_ne_of_ne {u v : UInt16} (h : u.toNat ≠ v.toNat) : u ≠ v := fun heq => h (heq ▸ rfl)

lemma readString_end (rest : JsString) : readString (unitOf '"' :: rest) = some ([], rest) := by
  rw [readString.eq_def]
  dsimp only
  rw [if_pos rfl]

lemma readString_escape {e v : UInt16} (he : e ≠ unitOf 'u') (hv : escaped e = some v)
    (rest : JsString) :
    readString (unitOf '\\' :: e :: rest) = (readString rest).map fun p => (v :: p.1, p.2) := by
  rw [readString.eq_def]
  dsimp only
  rw [if_neg (by decide), if_pos rfl, if_neg he, hv, Option.bind_some]

lemma readString_plain {u : UInt16} (hquote : u.toNat ≠ 34) (hbackslash : u.toNat ≠ 92)
    (hcontrol : ¬ u.toNat < 32) (rest : JsString) :
    readString (u :: rest) = (readString rest).map fun p => (u :: p.1, p.2) := by
  have hu : u ≠ unitOf '"' := toNat_ne_of_ne hquote
  have hu' : u ≠ unitOf '\\' := toNat_ne_of_ne hbackslash
  rw [readString.eq_def]
  dsimp only
  rw [if_neg hu, if_neg hu', if_neg hcontrol]

lemma hexDigit_hexUnit {n : Nat} (hn : n < 16) : hexDigit (hexUnit n) = some n := by
  have hdigits : ∀ n < 16, hexDigit (hexUnit n) = some n := by decide
  exact hdigits n hn

lemma readString_unicodeEscape (u : UInt16) (rest : JsString) :
    readString (unicodeEscape u ++ rest) = (readString rest).map fun p => (u :: p.1, p.2) := by
  have hu := u.toNat_lt
  have hunits : hexUnits (hexUnit (u.toNat / 4096)) (hexUnit (u.toNat / 256 % 16))
      (hexUnit (u.toNat / 16 % 16)) (hexUnit (u.toNat % 16)) = some u := by
    rw [hexUnits, hexDigit_hexUnit (by omega), hexDigit_hexUnit (by omega),
      hexDigit_hexUnit (by omega), hexDigit_hexUnit (by omega)]
    have hdigits : u.toNat / 4096 * 4096 + u.toNat / 256 % 16 * 256 + u.toNat / 16 % 16 * 16 +
        u.toNat % 16 = u.toNat := by omega
    show some (UInt16.ofNat _) = some u
    rw [hdigits, UInt16.ofNat_toNat]
  show readString (unitOf '\\' :: unitOf 'u' :: hexUnit (u.toNat / 4096) ::
    hexUnit (u.toNat / 256 % 16) :: hexUnit (u.toNat / 16 % 16) :: hexUnit (u.toNat % 16) :: rest) = _
  rw [readString.eq_def]
  dsimp only
  rw [if_neg (by decide), if_pos rfl, if_pos rfl, hunits, Option.bind_some]

lemma readString_quoteUnit (u : UInt16) (rest : JsString) :
    readString (quoteUnit u ++ rest) = (readString rest).map fun p => (u :: p.1, p.2) := by
  have hescape : ∀ {n : Nat} {e : UInt16}, u.toNat = n → e ≠ unitOf 'u' →
      escaped e = some (UInt16.ofNat n) → readString ([unitOf '\\', e] ++ rest) =
        (readString rest).map fun p => (u :: p.1, p.2) := by
    intro n e hn he hv
    rw [← hn, UInt16.ofNat_toNat] at hv
    exact readString_escape he hv rest
  unfold quoteUnit
  dsimp only
  split
  · exact hescape ‹_› (by decide) (by decide)
  split
  · exact hescape ‹_› (by decide) (by decide)
  split
  · exact hescape ‹_› (by decide) (by decide)
  split
  · exact hescape ‹_› (by decide) (by decide)
  split
  · exact hescape ‹_› (by decide) (by decide)
  split
  · exact hescape ‹_› (by decide) (by decide)
  split
  · exact hescape ‹_› (by decide) (by decide)
  split
  · exact readString_unicodeEscape u rest
  · rename_i hquote hbackslash hplain
    simp only [Bool.or_eq_true, decide_eq_true_eq, not_or] at hplain
    exact readString_plain hquote hbackslash hplain.1.1 rest

/-- **A string is read from its text.** -/
theorem readString_quoteUnits (s rest : JsString) :
    readString (quoteUnits s ++ unitOf '"' :: rest) = some (s, rest) := by
  fun_induction quoteUnits s with
  | case1 => exact readString_end rest
  | case2 u =>
      rw [readString_quoteUnit, readString_end]
      rfl
  | case3 u v tail hpair ih =>
      -- a pair of surrogates stands for itself
      simp only [isHighSurrogate, isLowSurrogate, Bool.and_eq_true, decide_eq_true_eq] at hpair
      rw [List.cons_append, List.cons_append, readString_plain (by omega) (by omega) (by omega),
        readString_plain (by omega) (by omega) (by omega), ih]
      rfl
  | case4 u v tail hpair ih =>
      rw [List.append_assoc, readString_quoteUnit, ih]
      rfl

/-! ## Brackets are read as they are written -/

/-- What may follow a value. -/
def Ends (rest : JsString) : Prop :=
  ∀ u ∈ rest.head?, u = unitOf ',' ∨ u = unitOf ']' ∨ u = unitOf '\x7d'

lemma ends_nil : Ends [] := by
  intro u hu
  cases hu

lemma ends_cons {u : UInt16} {rest : JsString}
    (h : u = unitOf ',' ∨ u = unitOf ']' ∨ u = unitOf '\x7d') : Ends (u :: rest) := by
  intro v hv
  obtain rfl : u = v := by simpa using hv
  exact h

/-- A unit that is no space and closes nothing. -/
def Starts (text : JsString) : Prop :=
  ∃ u rest, text = u :: rest ∧ isSpace u = false ∧ u ≠ unitOf ']' ∧ u ≠ unitOf '\x7d'

lemma skip_cons {u : UInt16} (h : isSpace u = false) (rest : JsString) :
    skip (u :: rest) = u :: rest := by
  rw [skip, List.dropWhile_cons, h]
  rfl

lemma joined_cons_cons (t t' : JsString) (texts : List JsString) :
    joined (t :: t' :: texts) = t ++ unitOf ',' :: joined (t' :: texts) := by
  rw [joined, List.intercalate_cons_cons]
  simp [joined]

lemma joined_singleton (t : JsString) : joined [t] = t := by
  simp [joined]

section Brackets

variable {α β : Type} {close : UInt16} {item : JsString → Option (β × JsString)}
  {write : α → JsString} {read : α → β}

/-- Items are read if each of them is read up to what may follow it. -/
lemma readItems_joined (hclose : close = unitOf ']' ∨ close = unitOf '\x7d') {x : α} {xs : List α}
    (hitem : ∀ y ∈ x :: xs, ∀ rest, Ends rest → item (write y ++ rest) = some (read y, rest))
    {fuel : Nat} (hfuel : xs.length < fuel) (rest : JsString) :
    readItems close item fuel (joined ((x :: xs).map write) ++ close :: rest) =
      some ((x :: xs).map read, rest) := by
  have hspace : isSpace close = false := by rcases hclose with rfl | rfl <;> decide
  have hcomma : close ≠ unitOf ',' := by rcases hclose with rfl | rfl <;> decide
  induction xs generalizing x fuel with
  | nil =>
      obtain ⟨fuel, rfl⟩ := Nat.exists_eq_add_of_lt hfuel
      have hends : Ends (close :: rest) := ends_cons (.inr hclose)
      rw [List.map_singleton, joined_singleton, readItems, hitem x List.mem_cons_self _ hends]
      simp only [Option.bind_some, skip_cons hspace, if_neg hcomma, if_true, List.map_singleton]
  | cons y ys ih =>
      obtain ⟨fuel, rfl⟩ : ∃ k, fuel = k + 1 := ⟨fuel - 1, by omega⟩
      have hfuel' : ys.length < fuel := by simpa using hfuel
      have hrest := ih (x := y) (fun z hz => hitem z (List.mem_cons_of_mem x hz)) hfuel'
      have hspace' : isSpace (unitOf ',') = false := by decide
      rw [List.map_cons, List.map_cons, joined_cons_cons, List.append_assoc, List.cons_append,
        readItems, hitem x List.mem_cons_self _ (ends_cons (.inl rfl))]
      simp only [Option.bind_some, skip_cons hspace', if_true]
      rw [← List.map_cons, hrest]
      rfl

lemma readBracketed_joined (hclose : close = unitOf ']' ∨ close = unitOf '\x7d') {xs : List α}
    (hstarts : ∀ y ∈ xs, Starts (write y))
    (hitem : ∀ y ∈ xs, ∀ rest, Ends rest → item (write y ++ rest) = some (read y, rest))
    {fuel : Nat} (hfuel : xs.length ≤ fuel) (rest : JsString) :
    readBracketed close item fuel (joined (xs.map write) ++ close :: rest) =
      some (xs.map read, rest) := by
  cases xs with
  | nil =>
      have hspace : isSpace close = false := by rcases hclose with rfl | rfl <;> decide
      show readBracketed close item fuel (close :: rest) = some ([], rest)
      rw [readBracketed, skip_cons hspace]
      simp
  | cons x xs =>
      obtain ⟨u, t, hu, hspace, hsquare, hcurly⟩ := hstarts x List.mem_cons_self
      have hne : u ≠ close := by rcases hclose with rfl | rfl <;> assumption
      obtain ⟨t', ht'⟩ : ∃ t', joined ((x :: xs).map write) ++ close :: rest = u :: t' := by
        cases xs with
        | nil => exact ⟨t ++ close :: rest, by simp [joined_singleton, hu]⟩
        | cons y ys => exact ⟨_, by rw [List.map_cons, List.map_cons, joined_cons_cons, hu]; rfl⟩
      have hread := readItems_joined hclose hitem hfuel rest
      rw [ht'] at hread ⊢
      rw [readBracketed, skip_cons hspace]
      simp only [if_neg hne, hread]

end Brackets

lemma length_le_joined {texts : List JsString} {t : JsString} (ht : t ∈ texts) :
    t.length ≤ (joined texts).length := by
  induction texts with
  | nil => cases ht
  | cons t' rest ih =>
      cases rest with
      | nil =>
          obtain rfl := List.mem_singleton.mp ht
          rw [joined_singleton]
      | cons t'' rest =>
          rw [joined_cons_cons, List.length_append, List.length_cons]
          rcases List.mem_cons.mp ht with rfl | ht
          · omega
          · have hle := ih ht
            omega

lemma count_le_joined {texts : List JsString} (h : ∀ t ∈ texts, Starts t) :
    texts.length ≤ (joined texts).length := by
  induction texts with
  | nil => simp
  | cons t rest ih =>
      obtain ⟨u, t', rfl, -⟩ := h t List.mem_cons_self
      cases rest with
      | nil => simp [joined_singleton]
      | cons t'' rest =>
          have hle := ih fun s hs => h s (List.mem_cons_of_mem _ hs)
          rw [joined_cons_cons]
          simp only [List.length_append, List.length_cons] at hle ⊢
          omega

/-! ## Values are read as they are written -/

lemma units_null : units "null" = [110, 117, 108, 108] := by decide

lemma units_true : units "true" = [116, 114, 117, 101] := by decide

lemma units_false : units "false" = [102, 97, 108, 115, 101] := by decide

/-- The unit of a character of a numeral. -/
lemma numeral_unit {c : Char} (h : Number.isNumeralChar c = true) :
    Char.ofNat (unitOf c).toNat = c ∧ isNumeralUnit (unitOf c) = true ∧
      isSpace (unitOf c) = false ∧ (unitOf c).toNat < 128 ∧
        unitOf c ∉ units "\"[\x7b]\x7dntf" := by
  have hall : ("0123456789-+.eE".toList.all fun d => decide (Char.ofNat (unitOf d).toNat = d ∧
      isNumeralUnit (unitOf d) = true ∧ isSpace (unitOf d) = false ∧ (unitOf d).toNat < 128 ∧
        unitOf d ∉ units "\"[\x7b]\x7dntf")) = true := by decide
  refine of_decide_eq_true (List.all_eq_true.mp hall c ?_)
  have hdigits : ∀ n < 58, 48 ≤ n → Char.ofNat n ∈ "0123456789-+.eE".toList := by decide
  simp only [Number.isNumeralChar, Bool.or_eq_true, beq_iff_eq] at h
  rcases h with ((((h | rfl) | rfl) | rfl) | rfl) | rfl
  · simp only [Char.isDigit, Bool.and_eq_true, decide_eq_true_eq] at h
    have hn := hdigits c.toNat (Nat.lt_succ_of_le h.2) h.1
    rwa [Char.ofNat_toNat] at hn
  all_goals decide

lemma starts_cons {u : UInt16} (hspace : isSpace u = false) (hsquare : u ≠ unitOf ']')
    (hcurly : u ≠ unitOf '\x7d') (rest : JsString) : Starts (u :: rest) :=
  ⟨u, rest, rfl, hspace, hsquare, hcurly⟩

lemma starts_memberText (m : JsString × JsString) : Starts (memberText m) :=
  starts_cons (by decide) (by decide) (by decide) _

lemma starts_stringifyNumber (n : Number) : Starts (stringifyNumber n) := by
  unfold stringifyNumber
  split
  · rename_i hn
    obtain ⟨c, cs, hcs⟩ := List.exists_cons_of_ne_nil (Number.text_ne_nil hn)
    have hc : Number.isNumeralChar c = true :=
      Number.text_numeral hn (by rw [hcs]; exact List.mem_cons_self)
    obtain ⟨-, -, hspace, -, hnot⟩ := numeral_unit hc
    have hbrackets : unitOf ']' ∈ units "\"[\x7b]\x7dntf" ∧
        unitOf '\x7d' ∈ units "\"[\x7b]\x7dntf" := by decide
    rw [hcs, List.map_cons]
    exact starts_cons hspace (fun heq => hnot (heq ▸ hbrackets.1))
      (fun heq => hnot (heq ▸ hbrackets.2)) _
  · rw [units_null]
    exact starts_cons (by decide) (by decide) (by decide) _

lemma starts_stableJson (v : Value) : Starts (stableJson v) := by
  cases v with
  | null =>
      rw [stableJson, units_null]
      exact starts_cons (by decide) (by decide) (by decide) _
  | bool b =>
      cases b with
      | true =>
          rw [stableJson, units_true]
          exact starts_cons (by decide) (by decide) (by decide) _
      | false =>
          rw [stableJson, units_false]
          exact starts_cons (by decide) (by decide) (by decide) _
  | num n => exact starts_stringifyNumber n
  | str s => exact starts_cons (by decide) (by decide) (by decide) _
  | arr items => exact starts_cons (by decide) (by decide) (by decide) _
  | obj members => exact starts_cons (by decide) (by decide) (by decide) _

/-- A text has a unit at least. -/
lemma exists_fuel {v : Value} {fuel : Nat} (h : (stableJson v).length ≤ fuel) :
    ∃ k, fuel = k + 1 := by
  obtain ⟨u, rest, htext, -⟩ := starts_stableJson v
  rw [htext, List.length_cons] at h
  exact ⟨fuel - 1, by omega⟩

/-- A number is read up to what may follow it. -/
lemma readNumber_text {n : Number} (hn : n.isFinite = true) {rest : JsString} (hrest : Ends rest) :
    readNumber (n.text.map unitOf ++ rest) = some (.num n.unsignedZero, rest) := by
  have hunits : ∀ u ∈ n.text.map unitOf, isNumeralUnit u = true := by
    intro u hu
    obtain ⟨c, hc, rfl⟩ := List.mem_map.mp hu
    exact (numeral_unit (Number.text_numeral hn hc)).2.1
  have hstop : rest.takeWhile isNumeralUnit = [] ∧ rest.dropWhile isNumeralUnit = rest := by
    cases rest with
    | nil => exact ⟨rfl, rfl⟩
    | cons u rest =>
        have hu : isNumeralUnit u = false := by
          rcases hrest u rfl with rfl | rfl | rfl <;> decide
        exact ⟨by simp [hu], by simp [hu]⟩
  have htext : (n.text.map unitOf).map (fun u => Char.ofNat u.toNat) = n.text := by
    rw [List.map_map]
    refine (List.map_congr_left fun c hc => ?_).trans (List.map_id n.text)
    exact (numeral_unit (Number.text_numeral hn hc)).1
  rw [readNumber, List.takeWhile_append_of_pos hunits, List.dropWhile_append_of_pos hunits,
    hstop.1, hstop.2, List.append_nil, htext, Number.read_text hn]
  rfl

lemma parseValue_string (fuel : Nat) (s rest : JsString) :
    parseValue (fuel + 1) (quote s ++ rest) = some (.str s, rest) := by
  have hquote : quote s ++ rest = unitOf '"' :: (quoteUnits s ++ unitOf '"' :: rest) := by
    simp [quote]
  have hspace : isSpace (unitOf '"') = false := by decide
  rw [hquote, parseValue, skip_cons hspace]
  simp only [if_true, readString_quoteUnits, Option.map_some]

lemma parseValue_null (fuel : Nat) (rest : JsString) :
    parseValue (fuel + 1) (units "null" ++ rest) = some (.null, rest) := by
  have hspace : isSpace 110 = false := by decide
  rw [parseValue, units_null, List.cons_append, skip_cons hspace]
  dsimp only
  rw [if_neg (by decide), if_neg (by decide), if_neg (by decide), if_pos (by simp)]
  rfl

lemma parseValue_true (fuel : Nat) (rest : JsString) :
    parseValue (fuel + 1) (units "true" ++ rest) = some (.bool true, rest) := by
  have hspace : isSpace 116 = false := by decide
  rw [parseValue, units_true, List.cons_append, skip_cons hspace]
  dsimp only
  rw [if_neg (by decide), if_neg (by decide), if_neg (by decide), if_neg (by simp [units_null]),
    if_pos (by simp)]
  rfl

lemma parseValue_false (fuel : Nat) (rest : JsString) :
    parseValue (fuel + 1) (units "false" ++ rest) = some (.bool false, rest) := by
  have hspace : isSpace 102 = false := by decide
  rw [parseValue, units_false, List.cons_append, skip_cons hspace]
  dsimp only
  rw [if_neg (by decide), if_neg (by decide), if_neg (by decide), if_neg (by simp [units_null]),
    if_neg (by simp [units_true]), if_pos (by simp)]
  rfl

lemma parseValue_number (fuel : Nat) {n : Number} (hn : n.isFinite = true) {rest : JsString}
    (hrest : Ends rest) :
    parseValue (fuel + 1) (n.text.map unitOf ++ rest) = some (.num n.unsignedZero, rest) := by
  obtain ⟨c, cs, hcs⟩ := List.exists_cons_of_ne_nil (Number.text_ne_nil hn)
  have hc : Number.isNumeralChar c = true :=
    Number.text_numeral hn (by rw [hcs]; exact List.mem_cons_self)
  obtain ⟨-, -, hspace, -, hnot⟩ := numeral_unit hc
  have hread := readNumber_text hn hrest
  have hstarts : units "\"[\x7b]\x7dntf" = [unitOf '"', unitOf '[', unitOf '\x7b', unitOf ']',
    unitOf '\x7d', 110, 116, 102] := by decide
  simp only [hstarts, List.mem_cons, not_or] at hnot
  obtain ⟨hquote, hsquare, hcurly, -, -, hnull, htrue, hfalse, -⟩ := hnot
  rw [hcs, List.map_cons, List.cons_append] at hread ⊢
  rw [parseValue, skip_cons hspace]
  dsimp only
  rw [if_neg hquote, if_neg hsquare, if_neg hcurly, if_neg (by simp [units_null, Ne.symm hnull]),
    if_neg (by simp [units_true, Ne.symm htrue]), if_neg (by simp [units_false, Ne.symm hfalse]),
    hread]

lemma readMember_memberText {value : JsString → Option (Value × JsString)} {k text rest : JsString}
    {v : Value} (h : value (text ++ rest) = some (v, rest)) :
    readMember value (memberText (k, text) ++ rest) = some ((k, v), rest) := by
  have htext : memberText (k, text) ++ rest =
      unitOf '"' :: (quoteUnits k ++ unitOf '"' :: (unitOf ':' :: (text ++ rest))) := by
    simp [memberText, quote]
  have hquote : isSpace (unitOf '"') = false := by decide
  have hcolon : isSpace (unitOf ':') = false := by decide
  rw [htext, readMember, skip_cons hquote]
  simp only [if_true, readString_quoteUnits, Option.bind_some, skip_cons hcolon, h, Option.map_some]

/-- Different keys stay as they are. -/
lemma ownProperties_of_nodup {α : Type} {members : List (JsString × α)}
    (h : (members.map Prod.fst).Nodup) : ownProperties members = members := by
  have hfold : ∀ (rest before : List (JsString × α)), ((before ++ rest).map Prod.fst).Nodup →
      rest.foldl setProperty before = before ++ rest := by
    intro rest
    induction rest with
    | nil => simp
    | cons m rest ih =>
        intro before hnodup
        have hset : setProperty before m = before ++ [m] := by
          have hkeep : before.filter (fun m' => m'.1 != m.1) = before := by
            refine List.filter_eq_self.mpr fun m' hm' => ?_
            rw [List.map_append, List.nodup_append] at hnodup
            have hne := hnodup.2.2 m'.1 (List.mem_map_of_mem hm') m.1 (by simp)
            simpa using hne
          rw [setProperty, hkeep]
        rw [List.foldl_cons, hset, ih _ (by simpa using hnodup), List.append_assoc]
        rfl
  exact hfold members [] h

/-- **A value is read from its text up to what may follow it**, as its canonical value. -/
theorem parseValue_stableJson {v : Value} (hv : Distinct v) :
    ∀ {fuel : Nat} {rest : JsString}, (stableJson v).length ≤ fuel → Ends rest →
      parseValue fuel (stableJson v ++ rest) = some (canonical v, rest) := by
  induction v using Value.induct with
  | null =>
      intro fuel rest hfuel hrest
      obtain ⟨fuel, rfl⟩ : ∃ k, fuel = k + 1 := exists_fuel hfuel
      exact parseValue_null fuel rest
  | bool b =>
      intro fuel rest hfuel hrest
      obtain ⟨fuel, rfl⟩ : ∃ k, fuel = k + 1 := exists_fuel hfuel
      cases b with
      | true => exact parseValue_true fuel rest
      | false => exact parseValue_false fuel rest
  | num n =>
      intro fuel rest hfuel hrest
      obtain ⟨fuel, rfl⟩ : ∃ k, fuel = k + 1 := exists_fuel hfuel
      rw [stableJson, stringifyNumber, canonical]
      by_cases hn : n.isFinite = true
      · rw [if_pos hn, if_pos hn]
        exact parseValue_number fuel hn hrest
      · rw [if_neg hn, if_neg hn]
        exact parseValue_null fuel rest
  | str s =>
      intro fuel rest hfuel hrest
      obtain ⟨fuel, rfl⟩ : ∃ k, fuel = k + 1 := exists_fuel hfuel
      exact parseValue_string fuel s rest
  | arr items ih =>
      intro fuel rest hfuel hrest
      obtain ⟨fuel, rfl⟩ : ∃ k, fuel = k + 1 := exists_fuel hfuel
      have hspace : isSpace (unitOf '[') = false := by decide
      have htext : stableJson (.arr items) ++ rest =
          unitOf '[' :: (joined (items.map stableJson) ++ unitOf ']' :: rest) := by
        simp [stableJson, itemTexts_eq]
      have hlength : (joined (items.map stableJson)).length ≤ fuel := by
        simp [stableJson, itemTexts_eq] at hfuel
        omega
      have hcount : (items.map stableJson).length ≤ (joined (items.map stableJson)).length := by
        refine count_le_joined fun t ht => ?_
        obtain ⟨v, -, rfl⟩ := List.mem_map.mp ht
        exact starts_stableJson v
      rw [List.length_map] at hcount
      have hread : readBracketed (unitOf ']') (parseValue fuel) fuel
          (joined (items.map stableJson) ++ unitOf ']' :: rest) =
            some (items.map canonical, rest) := by
        refine readBracketed_joined (.inl rfl) (fun v _ => starts_stableJson v) ?_ (by omega) rest
        intro v hv' rest' hrest'
        have hle := length_le_joined (List.mem_map_of_mem (f := stableJson) hv')
        exact ih v hv' (distinctItems_iff.mp hv v hv') (by omega) hrest'
      rw [htext, parseValue, skip_cons hspace]
      dsimp only
      rw [if_neg (by decide), if_pos rfl, hread, canonical, canonicalItems_eq]
      rfl
  | obj members ih =>
      intro fuel rest hfuel hrest
      obtain ⟨fuel, rfl⟩ : ∃ k, fuel = k + 1 := exists_fuel hfuel
      obtain ⟨hkeys, hmembers⟩ := hv
      have hspace : isSpace (unitOf '\x7b') = false := by decide
      -- the members as they are written
      let write (m : JsString × Value) : JsString := memberText (m.1, stableJson m.2)
      let texts := (sortKeys members).map write
      have htext : stableJson (.obj members) =
          unitOf '\x7b' :: (joined texts ++ [unitOf '\x7d']) := stableJson_obj members
      have hlength : (joined texts).length ≤ fuel := by
        rw [htext, List.length_cons, List.length_append] at hfuel
        exact (Nat.le_add_right _ _).trans (Nat.le_of_succ_le_succ hfuel)
      have hcount : texts.length ≤ (joined texts).length := by
        refine count_le_joined fun t ht => ?_
        obtain ⟨m, -, rfl⟩ := List.mem_map.mp ht
        exact starts_memberText _
      have hread : readBracketed (unitOf '\x7d') (readMember (parseValue fuel)) fuel
          (joined texts ++ unitOf '\x7d' :: rest) =
            some ((sortKeys members).map fun m => (m.1, canonical m.2), rest) := by
        refine readBracketed_joined (.inr rfl) (fun m _ => starts_memberText _) ?_ ?_ rest
        · intro m hm rest' hrest'
          have hm' : m ∈ members := mem_sortKeys.mp hm
          have hle : (write m).length ≤ (joined texts).length :=
            length_le_joined (List.mem_map_of_mem hm)
          have hvalue : (stableJson m.2).length ≤ (write m).length := by
            simp only [write, memberText, List.length_append, List.length_cons]
            omega
          exact readMember_memberText
            (ih m hm' (distinctMembers_iff.mp hmembers m hm') (by omega) hrest')
        · rw [List.length_map] at hcount
          omega
      have hkeys' : (((sortKeys members).map fun m => (m.1, canonical m.2)).map Prod.fst).Nodup := by
        rw [List.map_map]
        exact ((perm_sortKeys members).map Prod.fst).nodup_iff.mpr hkeys
      rw [htext, List.cons_append, List.append_assoc, List.singleton_append, parseValue,
        skip_cons hspace]
      dsimp only
      rw [if_neg (by decide), if_neg (by decide), if_pos rfl, hread, canonical_obj]
      simp only [Option.map_some, ownProperties_of_nodup hkeys']

/-- **`JSON.parse` of the text of a value is the canonical value.** -/
theorem parse_stableJson {v : Value} (hv : Distinct v) : parse (stableJson v) = some (canonical v) := by
  have hread := parseValue_stableJson hv (Nat.le_succ (stableJson v).length) ends_nil
  rw [List.append_nil] at hread
  rw [parse, hread]
  rfl

end PasswordVault.StableJson
