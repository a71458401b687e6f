import PasswordVault.Browser.Changes
import PasswordVault.Browser.ParseJson

/-!
# Authenticated payloads

The page hashes and authenticates the bytes of `stableJson`: of a change, of a head, of an envelope
and of the data beside a ciphertext. Equal bytes stand for equal values, unless a number is not
finite.

* `JsonValue`: a value as it is parsed.
* `changeMacPayload`, `headHashPayload`, `itemAad`.
* `CanonicalPair`, `payloads_canonical_iff`.
-/

namespace PasswordVault.StableJson

open Browser Numbers

/-! ## Bytes -/

lemma wellFormed_ascii {s : JsString} (h : ∀ u ∈ s, u.toNat < 128) : WellFormed s := by
  refine wellFormed_of_plain fun u hu => ?_
  have hlt := h u hu
  simp only [isHighSurrogate, isLowSurrogate, Bool.and_eq_false_iff, decide_eq_false_iff_not]
  omega

/-- A constant. -/
lemma wellFormed_constant {s : JsString} (h : (s.all fun u => decide (u.toNat < 128)) = true) :
    WellFormed s :=
  wellFormed_ascii fun u hu => of_decide_eq_true (List.all_eq_true.mp h u hu)

lemma hexUnit_lt (n : Nat) (hn : n < 16) : (hexUnit n).toNat < 128 := by
  have hdigits : ∀ n < 16, (hexUnit n).toNat < 128 := by decide
  exact hdigits n hn

lemma wellFormed_unicodeEscape (u : UInt16) : WellFormed (unicodeEscape u) := by
  have hu := u.toNat_lt
  refine wellFormed_ascii fun v hv => ?_
  simp only [unicodeEscape, List.mem_cons, List.not_mem_nil, or_false] at hv
  rcases hv with rfl | rfl | rfl | rfl | rfl | rfl
  · decide
  · decide
  · exact hexUnit_lt _ (by omega)
  · exact hexUnit_lt _ (by omega)
  · exact hexUnit_lt _ (by omega)
  · exact hexUnit_lt _ (by omega)

/-- A lone surrogate is escaped. -/
lemma wellFormed_quoteUnit (u : UInt16) : WellFormed (quoteUnit u) := by
  unfold quoteUnit
  dsimp only
  split
  · exact wellFormed_constant (by decide)
  split
  · exact wellFormed_constant (by decide)
  split
  · exact wellFormed_constant (by decide)
  split
  · exact wellFormed_constant (by decide)
  split
  · exact wellFormed_constant (by decide)
  split
  · exact wellFormed_constant (by decide)
  split
  · exact wellFormed_constant (by decide)
  split
  · exact wellFormed_unicodeEscape u
  · rename_i hplain
    simp only [Bool.or_eq_true, not_or, Bool.not_eq_true] at hplain
    exact .plain hplain.1.2 hplain.2 .nil

lemma wellFormed_quoteUnits (s : JsString) : WellFormed (quoteUnits s) := by
  fun_induction quoteUnits s with
  | case1 => exact .nil
  | case2 u => exact wellFormed_quoteUnit u
  | case3 u v tail hpair ih =>
      rw [Bool.and_eq_true] at hpair
      exact .pair hpair.1 hpair.2 ih
  | case4 u v tail hpair ih => exact (wellFormed_quoteUnit u).append ih

lemma wellFormed_cons {u : UInt16} (hu : u.toNat < 128) {s : JsString} (hs : WellFormed s) :
    WellFormed (u :: s) := by
  have hone : WellFormed [u] := wellFormed_ascii (by simpa using hu)
  exact hone.append hs

lemma wellFormed_quote (s : JsString) : WellFormed (quote s) :=
  wellFormed_cons (by decide) ((wellFormed_quoteUnits s).append (wellFormed_constant (by decide)))

lemma wellFormed_joined {texts : List JsString} (h : ∀ t ∈ texts, WellFormed t) :
    WellFormed (joined texts) := by
  induction texts with
  | nil => exact .nil
  | cons t rest ih =>
      have ht := h t List.mem_cons_self
      have hrest := ih fun s hs => h s (List.mem_cons_of_mem t hs)
      cases rest with
      | nil => rwa [joined_singleton]
      | cons t' rest =>
          rw [joined_cons_cons]
          exact ht.append (wellFormed_cons (by decide) hrest)

lemma wellFormed_bracketed {opening closing : UInt16} (hopening : opening.toNat < 128)
    (hclosing : closing.toNat < 128) {texts : List JsString} (h : ∀ t ∈ texts, WellFormed t) :
    WellFormed (opening :: (joined texts ++ [closing])) :=
  wellFormed_cons hopening ((wellFormed_joined h).append (wellFormed_cons hclosing .nil))

/-- The text of a value has no lone surrogates. -/
lemma wellFormed_stableJson (v : Value) : WellFormed (stableJson v) := by
  induction v using Value.induct with
  | null => exact wellFormed_constant (by decide)
  | bool b =>
      cases b with
      | true => exact wellFormed_constant (by decide)
      | false => exact wellFormed_constant (by decide)
  | num n =>
      rw [stableJson, stringifyNumber]
      split
      · rename_i hn
        refine wellFormed_ascii fun u hu => ?_
        obtain ⟨c, hc, rfl⟩ := List.mem_map.mp hu
        exact (numeral_unit (Number.text_numeral hn hc)).2.2.2.1
      · exact wellFormed_constant (by decide)
  | str s => exact wellFormed_quote s
  | arr items ih =>
      rw [stableJson, itemTexts_eq]
      refine wellFormed_bracketed (by decide) (by decide) fun t ht => ?_
      obtain ⟨v, hv, rfl⟩ := List.mem_map.mp ht
      exact ih v hv
  | obj members ih =>
      rw [stableJson_obj]
      refine wellFormed_bracketed (by decide) (by decide) fun t ht => ?_
      obtain ⟨m, hm, rfl⟩ := List.mem_map.mp ht
      exact (wellFormed_quote m.1).append (wellFormed_cons (by decide) (ih m (mem_sortKeys.mp hm)))

/-- Values with the same bytes have the same text. -/
lemma canonicalBytes_eq_iff {a b : Value} :
    canonicalBytes a = canonicalBytes b ↔ stableJson a = stableJson b :=
  ⟨textBytes_inj (wellFormed_stableJson a) (wellFormed_stableJson b), fun h => by
    rw [canonicalBytes, canonicalBytes, h]⟩

/-- **Values have one text exactly if they have one canonical value.** -/
theorem stableJson_eq_iff {a b : Value} (ha : Distinct a) (hb : Distinct b) :
    stableJson a = stableJson b ↔ canonical a = canonical b := by
  constructor
  · intro h
    have hread := parse_stableJson ha
    rw [h, parse_stableJson hb] at hread
    exact (Option.some.inj hread).symm
  · intro h
    rw [← stableJson_canonical a, h, stableJson_canonical b]

/-! ## Parsed values -/

/-- A value as `JSON.parse` makes it. -/
structure JsonValue where
  value : Value
  distinct : Distinct value

namespace JsonValue

def ofText (text : JsString) : Option JsonValue :=
  match h : StableJson.parse text with
  | none => none
  | some v => some ⟨v, parse_distinct h⟩

lemma ofText_of_parse {text : JsString} {v : Value} (h : StableJson.parse text = some v) :
    ∃ a, ofText text = some a ∧ a.value = v := by
  unfold ofText
  split
  · rename_i hnone
    rw [hnone] at h
    cases h
  · rename_i w hw
    exact ⟨_, rfl, Option.some.inj (hw.symm.trans h)⟩

/-- A constant of the page. -/
def constant (text : String) : JsonValue := ⟨.str (units text), trivial⟩

def Finite (a : JsonValue) : Prop := StableJson.Finite a.value

def Same (a b : JsonValue) : Prop := StableJson.Same a.value b.value

/-- The text of the value is read as an equal value. -/
def ReadsBack (a : JsonValue) : Prop :=
  ∃ v, StableJson.parse (stableJson a.value) = some v ∧ StableJson.Same v a.value

lemma readsBack_iff (a : JsonValue) : a.ReadsBack ↔ a.Finite := by
  rw [ReadsBack, parse_stableJson a.distinct]
  constructor
  · rintro ⟨v, hv, hsame⟩
    obtain rfl := Option.some.inj hv
    exact (same_canonical_iff a.distinct).mp hsame
  · intro hfinite
    exact ⟨canonical a.value, rfl, (same_canonical_iff a.distinct).mpr hfinite⟩

/-- An object that the page makes. -/
def object (members : List (String × JsonValue)) (h : (members.map Prod.fst).Nodup) :
    JsonValue where
  value := .obj (members.map fun m => (units m.1, m.2.value))
  distinct := by
    refine ⟨?_, distinctMembers_iff.mpr fun m hm => ?_⟩
    · have hkeys := h.map units_injective
      rw [List.map_map] at hkeys ⊢
      exact hkeys
    · obtain ⟨m', -, rfl⟩ := List.mem_map.mp hm
      exact m'.2.distinct

end JsonValue

/-- Members with one list of different keys are equal one by one. -/
lemma sameMembers_iff_sameItems {members members' : List (JsString × Value)}
    (hkeys : (members.map Prod.fst).Nodup) (h : members.map Prod.fst = members'.map Prod.fst) :
    SameMembers members members' ↔
      SameItems (members.map Prod.snd) (members'.map Prod.snd) := by
  induction members generalizing members' with
  | nil =>
      obtain rfl : members' = [] := by simpa using h.symm
      exact Iff.rfl
  | cons m rest ih =>
      obtain ⟨k, v⟩ := m
      obtain ⟨⟨k', w⟩, rest', rfl⟩ : ∃ m' rest', members' = m' :: rest' :=
        List.exists_cons_of_ne_nil (by rintro rfl; simp at h)
      simp only [List.map_cons, List.cons.injEq] at h
      obtain ⟨rfl, hrest⟩ := h
      rw [List.map_cons, List.nodup_cons] at hkeys
      obtain ⟨hk, hnodup⟩ := hkeys
      -- the first key is only at the start
      have hfirst : (∃ x, (k, x) ∈ (k, w) :: rest' ∧ Same v x) ↔ Same v w := by
        constructor
        · rintro ⟨x, hx, hsame⟩
          rcases List.mem_cons.mp hx with hx | hx
          · rwa [(Prod.mk.inj hx).2] at hsame
          · exact absurd (hrest ▸ List.mem_map.mpr ⟨(k, x), hx, rfl⟩) hk
        · exact fun hsame => ⟨w, List.mem_cons_self, hsame⟩
      have hothers : SameMembers rest ((k, w) :: rest') ↔ SameMembers rest rest' := by
        rw [sameMembers_iff, sameMembers_iff]
        refine forall₂_congr fun m hm => exists_congr fun x => and_congr_left fun _ => ?_
        have hne : m.1 ≠ k := fun heq => hk (List.mem_map.mpr ⟨m, hm, heq⟩)
        simp [hne]
      rw [SameMembers, hfirst, hothers, ih hnodup hrest]
      rfl

/-- **Two finite values have one text exactly if they are equal.** -/
theorem stableJson_eq_iff_same {a b : JsonValue} (ha : a.Finite) (hb : b.Finite) :
    stableJson a.value = stableJson b.value ↔ a.Same b := by
  rw [stableJson_eq_iff a.distinct b.distinct, JsonValue.Same,
    same_iff_canonical a.distinct b.distinct ha hb]

/-! ## Payloads -/

/-- What `changeMacPayload` takes. -/
structure ChangeMacFields where
  operation : JsonValue
  vaultId : JsonValue
  itemId : JsonValue
  revisionId : JsonValue
  revisionSeq : JsonValue
  headSeq : JsonValue
  baseRevisionSeq : JsonValue
  baseHeadSeq : JsonValue
  baseHeadHash : JsonValue
  previousHeadHash : JsonValue
  envelopeHash : JsonValue
  keyId : JsonValue

def ChangeMacFields.fields (f : ChangeMacFields) : List JsonValue :=
  [f.operation, f.vaultId, f.itemId, f.revisionId, f.revisionSeq, f.headSeq, f.baseRevisionSeq,
    f.baseHeadSeq, f.baseHeadHash, f.previousHeadHash, f.envelopeHash, f.keyId]

def changeMacPayload (f : ChangeMacFields) : JsonValue :=
  .object
    [("version", .constant "password-vault/change-mac/v1"),
      ("operation", f.operation),
      ("vault_id", f.vaultId),
      ("item_id", f.itemId),
      ("revision_id", f.revisionId),
      ("revision_seq", f.revisionSeq),
      ("head_seq", f.headSeq),
      ("base_revision_seq", f.baseRevisionSeq),
      ("base_head_seq", f.baseHeadSeq),
      ("base_head_hash", f.baseHeadHash),
      ("previous_head_hash", f.previousHeadHash),
      ("envelope_hash", f.envelopeHash),
      ("key_id", f.keyId),
      ("crypto_version", .constant ITEM_ENVELOPE_CRYPTO_VERSION)]
    (by simp)

/-- What `headHashPayload` takes. -/
structure HeadHashFields where
  vaultId : JsonValue
  headSeq : JsonValue
  previousHeadHash : JsonValue
  changeMac : JsonValue

def HeadHashFields.fields (f : HeadHashFields) : List JsonValue :=
  [f.vaultId, f.headSeq, f.previousHeadHash, f.changeMac]

def headHashPayload (f : HeadHashFields) : JsonValue :=
  .object
    [("version", .constant "password-vault/head-hash/v1"),
      ("vault_id", f.vaultId),
      ("head_seq", f.headSeq),
      ("previous_head_hash", f.previousHeadHash),
      ("change_mac", f.changeMac)]
    (by simp)

/-- What `itemAad` takes. -/
structure ItemAadFields where
  vaultId : JsonValue
  itemId : JsonValue
  revisionId : JsonValue
  operation : JsonValue
  baseRevisionSeq : JsonValue
  baseHeadSeq : JsonValue
  keyId : JsonValue

def ItemAadFields.fields (f : ItemAadFields) : List JsonValue :=
  [f.vaultId, f.itemId, f.revisionId, f.operation, f.baseRevisionSeq, f.baseHeadSeq, f.keyId]

/-- The value whose bytes `itemAad` gives. -/
def itemAadValue (f : ItemAadFields) : JsonValue :=
  .object
    [("record_type", .constant "vault-item-revision"),
      ("crypto_version", .constant ITEM_ENVELOPE_CRYPTO_VERSION),
      ("aead", .constant ITEM_ENVELOPE_AEAD),
      ("vault_id", f.vaultId),
      ("item_id", f.itemId),
      ("revision_id", f.revisionId),
      ("operation", f.operation),
      ("base_revision_seq", f.baseRevisionSeq),
      ("base_head_seq", f.baseHeadSeq),
      ("key_id", f.keyId)]
    (by simp)

def itemAad (f : ItemAadFields) : Bytes := canonicalBytes (itemAadValue f).value

/-! ## Equal payloads -/

def AllFinite (fields : List JsonValue) : Prop := ∀ a ∈ fields, a.Finite

/-- The fields are equal one by one. -/
def Coincide (fields fields' : List JsonValue) : Prop :=
  List.Forall₂ JsonValue.Same fields fields'

@[simp] lemma JsonValue.constant_same (text : String) : (constant text).Same (constant text) :=
  rfl

/-- Objects of the page with one list of keys are equal if their values are. -/
lemma object_same {members members' : List (String × JsonValue)}
    (h : (members.map Prod.fst).Nodup) (h' : (members'.map Prod.fst).Nodup)
    (hkeys : members.map Prod.fst = members'.map Prod.fst) :
    (JsonValue.object members h).Same (.object members' h') ↔
      Coincide (members.map Prod.snd) (members'.map Prod.snd) := by
  have hlength : members.length = members'.length := by
    simpa using congrArg List.length hkeys
  have hnodup := (JsonValue.object members h).distinct.1
  have hunits := congrArg (List.map units) hkeys
  rw [JsonValue.Same, JsonValue.object, JsonValue.object, Same, List.length_map, List.length_map]
  rw [sameMembers_iff_sameItems hnodup (by simpa [Function.comp_def] using hunits),
    sameItems_iff, List.map_map, List.map_map]
  simp only [hlength, true_and, Coincide, List.forall₂_map_left_iff, List.forall₂_map_right_iff]
  rfl

/-- An object of the page is finite if its values are. -/
lemma object_finite {members : List (String × JsonValue)} (h : (members.map Prod.fst).Nodup) :
    (JsonValue.object members h).Finite ↔ AllFinite (members.map Prod.snd) := by
  rw [JsonValue.Finite, JsonValue.object, Finite, finiteMembers_iff, AllFinite, List.forall_mem_map,
    List.forall_mem_map]
  rfl

/-- The bytes of two payloads tell their fields apart, and each payload is read back. -/
structure Binding (a b : JsonValue) (fields fields' : List JsonValue) : Prop where
  coincide : canonicalBytes a.value = canonicalBytes b.value ↔ Coincide fields fields'
  left : a.ReadsBack
  right : b.ReadsBack

/-- Two objects of the page bind exactly the finite fields. -/
lemma object_binding_iff {members members' : List (String × JsonValue)}
    (h : (members.map Prod.fst).Nodup) (h' : (members'.map Prod.fst).Nodup)
    (hkeys : members.map Prod.fst = members'.map Prod.fst) {fields fields' : List JsonValue}
    (hfields : AllFinite (members.map Prod.snd) ↔ AllFinite fields)
    (hfields' : AllFinite (members'.map Prod.snd) ↔ AllFinite fields')
    (hsame : Coincide (members.map Prod.snd) (members'.map Prod.snd) ↔ Coincide fields fields') :
    Binding (.object members h) (.object members' h') fields fields' ↔
      AllFinite fields ∧ AllFinite fields' := by
  have hfinite := (object_finite h).trans hfields
  have hfinite' := (object_finite h').trans hfields'
  constructor
  · rintro ⟨-, hleft, hright⟩
    exact ⟨hfinite.mp ((JsonValue.readsBack_iff _).mp hleft),
      hfinite'.mp ((JsonValue.readsBack_iff _).mp hright)⟩
  · rintro ⟨hleft, hright⟩
    have hleft' := hfinite.mpr hleft
    have hright' := hfinite'.mpr hright
    refine ⟨?_, (JsonValue.readsBack_iff _).mpr hleft', (JsonValue.readsBack_iff _).mpr hright'⟩
    rw [canonicalBytes_eq_iff, stableJson_eq_iff_same hleft' hright', object_same h h' hkeys, hsame]

@[simp] lemma JsonValue.constant_finite (text : String) : (constant text).Finite := trivial

lemma changeMacPayload_binding (f g : ChangeMacFields) :
    Binding (changeMacPayload f) (changeMacPayload g) f.fields g.fields ↔
      AllFinite f.fields ∧ AllFinite g.fields := by
  refine object_binding_iff _ _ ?_ ?_ ?_ ?_
  · rfl
  · simp [AllFinite, ChangeMacFields.fields]
  · simp [AllFinite, ChangeMacFields.fields]
  · simp [Coincide, ChangeMacFields.fields]

lemma headHashPayload_binding (f g : HeadHashFields) :
    Binding (headHashPayload f) (headHashPayload g) f.fields g.fields ↔
      AllFinite f.fields ∧ AllFinite g.fields := by
  refine object_binding_iff _ _ ?_ ?_ ?_ ?_
  · rfl
  · simp [AllFinite, HeadHashFields.fields]
  · simp [AllFinite, HeadHashFields.fields]
  · simp [Coincide, HeadHashFields.fields]

lemma itemAadValue_binding (f g : ItemAadFields) :
    Binding (itemAadValue f) (itemAadValue g) f.fields g.fields ↔
      AllFinite f.fields ∧ AllFinite g.fields := by
  refine object_binding_iff _ _ ?_ ?_ ?_ ?_
  · rfl
  · simp [AllFinite, ItemAadFields.fields]
  · simp [AllFinite, ItemAadFields.fields]
  · simp [Coincide, ItemAadFields.fields]

/-- Objects with one text have one number of members. -/
lemma length_eq_of_canonicalBytes {members members' : List (String × JsonValue)}
    {h : (members.map Prod.fst).Nodup} {h' : (members'.map Prod.fst).Nodup}
    (heq : canonicalBytes (JsonValue.object members h).value =
      canonicalBytes (JsonValue.object members' h').value) : members.length = members'.length := by
  have hcanonical := (stableJson_eq_iff (JsonValue.distinct _) (JsonValue.distinct _)).mp
    (canonicalBytes_eq_iff.mp heq)
  rw [JsonValue.object, JsonValue.object, canonical_obj, canonical_obj, Value.obj.injEq]
    at hcanonical
  simpa [(perm_sortKeys _).length_eq] using congrArg List.length hcanonical

/-! ## The canonical text -/

/-- The texts of two values tell them apart, and each value is read back. -/
structure CanonicalPair (a b : JsonValue) : Prop where
  same : stableJson a.value = stableJson b.value ↔ a.Same b
  left : a.ReadsBack
  right : b.ReadsBack

lemma canonicalPair_iff (a b : JsonValue) : CanonicalPair a b ↔ a.Finite ∧ b.Finite := by
  constructor
  · rintro ⟨-, hleft, hright⟩
    exact ⟨a.readsBack_iff.mp hleft, b.readsBack_iff.mp hright⟩
  · rintro ⟨ha, hb⟩
    exact ⟨stableJson_eq_iff_same ha hb, a.readsBack_iff.mpr ha, b.readsBack_iff.mpr hb⟩

/-- When the canonical text of two values, and of two payloads of each kind, does what it is for. -/
structure CanonicalTextOk (a b : JsonValue) (f g : ChangeMacFields) (h k : HeadHashFields)
    (u v : ItemAadFields) : Prop where
  /-- any two values -/
  values : CanonicalPair a b ↔ a.Finite ∧ b.Finite
  /-- the envelopes that `envelopeHash` digests -/
  envelopes : Binding a b [a] [b] ↔ a.Finite ∧ b.Finite
  changes : Binding (changeMacPayload f) (changeMacPayload g) f.fields g.fields ↔
    AllFinite f.fields ∧ AllFinite g.fields
  heads : Binding (headHashPayload h) (headHashPayload k) h.fields k.fields ↔
    AllFinite h.fields ∧ AllFinite k.fields
  aads : Binding (itemAadValue u) (itemAadValue v) u.fields v.fields ↔
    AllFinite u.fields ∧ AllFinite v.fields
  /-- the two kinds of payload under one key -/
  apart : canonicalBytes (changeMacPayload f).value ≠ canonicalBytes (headHashPayload h).value

/-- **The canonical text stands for exactly the values without numbers that are not finite.** Of
those, two have one text, and one payload, if they are equal. No payload of a change is a payload of
a head. -/
theorem canonical_text_iff (a b : JsonValue) (f g : ChangeMacFields) (h k : HeadHashFields)
    (u v : ItemAadFields) : CanonicalTextOk a b f g h k u v where
  values := canonicalPair_iff a b
  envelopes := by
    have hpair := canonicalPair_iff a b
    constructor
    · rintro ⟨-, hleft, hright⟩
      exact ⟨a.readsBack_iff.mp hleft, b.readsBack_iff.mp hright⟩
    · intro hfinite
      obtain ⟨hsame, hleft, hright⟩ := hpair.mpr hfinite
      refine ⟨?_, hleft, hright⟩
      rw [canonicalBytes_eq_iff, hsame]
      simp [Coincide]
  changes := changeMacPayload_binding f g
  heads := headHashPayload_binding h k
  aads := itemAadValue_binding u v
  apart heq := by
    have hlength := length_eq_of_canonicalBytes heq
    exact absurd hlength (by simp)

/-- A head number that is too large is read as infinity, and then has the text of `null`. -/
theorem infinite_number_lost :
    ∃ a b : JsonValue, JsonValue.ofText (units "1e400") = some a ∧
      JsonValue.ofText (units "null") = some b ∧ stableJson a.value = stableJson b.value ∧
        ¬ a.Same b ∧ ¬ a.ReadsBack ∧
          ∀ vaultId previousHeadHash changeMac : JsonValue,
            canonicalBytes (headHashPayload ⟨vaultId, a, previousHeadHash, changeMac⟩).value =
              canonicalBytes (headHashPayload ⟨vaultId, b, previousHeadHash, changeMac⟩).value := by
  have hread : Number.read "1e400".toList = some (.infinite false) := by decide +kernel
  have hunits : units "1e400" = [49, 101, 52, 48, 48] := by decide
  have hparse : StableJson.parse (units "1e400") = some (.num (.infinite false)) := by
    have hnumber : readNumber [49, 101, 52, 48, 48] = some (.num (.infinite false), []) :=
      congrArg (Option.map fun n => (Value.num n, ([] : JsString))) hread
    rw [hunits, parse, List.length, parseValue, skip_cons (by decide)]
    dsimp only
    rw [if_neg (by decide), if_neg (by decide), if_neg (by decide), if_neg (by decide),
      if_neg (by decide), if_neg (by decide), hnumber]
    rfl
  have hnull : StableJson.parse (units "null") = some .null := parse_stableJson (v := .null) trivial
  obtain ⟨a, ha, hvalue⟩ := JsonValue.ofText_of_parse hparse
  obtain ⟨b, hb, hvalue'⟩ := JsonValue.ofText_of_parse hnull
  have htext : stableJson a.value = stableJson b.value := by
    rw [hvalue, hvalue']
    rfl
  refine ⟨a, b, ha, hb, htext, ?_, ?_, ?_⟩
  · rw [JsonValue.Same, hvalue, hvalue']
    exact id
  · rw [JsonValue.readsBack_iff, JsonValue.Finite, hvalue]
    exact Bool.false_ne_true
  · intro vaultId previousHeadHash changeMac
    rw [canonicalBytes_eq_iff, headHashPayload, headHashPayload, JsonValue.object, JsonValue.object,
      stableJson, stableJson, memberTexts_eq, memberTexts_eq]
    simp only [List.map_cons, List.map_nil, htext]

end PasswordVault.StableJson
