import Mathlib.Data.List.Sort
import PasswordVault.Browser.CodeUnits
import PasswordVault.Library.Numbers

/-!
# The canonical text of a value

`stableJson` is hashed and authenticated. Here its values are those of `JSON.parse` to the last bit:
strings of code units and floating point numbers.

* `Value`: a value; `Same`: equality but for the order of members.
* `stableJson`, `canonicalBytes`.
* `canonical`: the values that are told apart; `same_iff_canonical`.
-/

namespace PasswordVault.StableJson

open Browser Numbers

/-! ## Values -/

/-- A value; an object is its own properties in some order. -/
inductive Value where
  | null
  | bool (b : Bool)
  | num (n : Number)
  | str (s : JsString)
  | arr (items : List Value)
  | obj (members : List (JsString × Value))

mutual

/-- The keys of every object are different. -/
def Distinct : Value → Prop
  | .arr items => DistinctItems items
  | .obj members => (members.map Prod.fst).Nodup ∧ DistinctMembers members
  | _ => True

def DistinctItems : List Value → Prop
  | [] => True
  | v :: rest => Distinct v ∧ DistinctItems rest

def DistinctMembers : List (JsString × Value) → Prop
  | [] => True
  | (_, v) :: rest => Distinct v ∧ DistinctMembers rest

end

mutual

/-- Every number is finite. -/
def Finite : Value → Prop
  | .num n => n.isFinite = true
  | .arr items => FiniteItems items
  | .obj members => FiniteMembers members
  | _ => True

def FiniteItems : List Value → Prop
  | [] => True
  | v :: rest => Finite v ∧ FiniteItems rest

def FiniteMembers : List (JsString × Value) → Prop
  | [] => True
  | (_, v) :: rest => Finite v ∧ FiniteMembers rest

end

mutual

/-- Equality but for the order of members; numbers as `===` has it. -/
def Same : Value → Value → Prop
  | .null, .null => True
  | .bool a, .bool b => a = b
  | .num m, .num n => m.strictEq n = true
  | .str s, .str t => s = t
  | .arr items, .arr items' => SameItems items items'
  | .obj members, .obj members' =>
      members.length = members'.length ∧ SameMembers members members'
  | _, _ => False

def SameItems : List Value → List Value → Prop
  | [], [] => True
  | v :: rest, w :: rest' => Same v w ∧ SameItems rest rest'
  | _, _ => False

/-- Every member is among the others. -/
def SameMembers : List (JsString × Value) → List (JsString × Value) → Prop
  | [], _ => True
  | (k, v) :: rest, members' => (∃ w, (k, w) ∈ members' ∧ Same v w) ∧ SameMembers rest members'

end

lemma distinctItems_iff {items : List Value} : DistinctItems items ↔ ∀ v ∈ items, Distinct v := by
  induction items with
  | nil => simp [DistinctItems]
  | cons v rest ih => simp [DistinctItems, ih]

lemma distinctMembers_iff {members : List (JsString × Value)} :
    DistinctMembers members ↔ ∀ m ∈ members, Distinct m.2 := by
  induction members with
  | nil => simp [DistinctMembers]
  | cons m rest ih =>
      obtain ⟨k, v⟩ := m
      simp [DistinctMembers, ih]

lemma finiteItems_iff {items : List Value} : FiniteItems items ↔ ∀ v ∈ items, Finite v := by
  induction items with
  | nil => simp [FiniteItems]
  | cons v rest ih => simp [FiniteItems, ih]

lemma finiteMembers_iff {members : List (JsString × Value)} :
    FiniteMembers members ↔ ∀ m ∈ members, Finite m.2 := by
  induction members with
  | nil => simp [FiniteMembers]
  | cons m rest ih =>
      obtain ⟨k, v⟩ := m
      simp [FiniteMembers, ih]

lemma sameItems_iff {items items' : List Value} :
    SameItems items items' ↔ List.Forall₂ Same items items' := by
  induction items generalizing items' with
  | nil => cases items' <;> simp [SameItems]
  | cons v rest ih => cases items' <;> simp [SameItems, ih]

lemma sameMembers_iff {members members' : List (JsString × Value)} :
    SameMembers members members' ↔
      ∀ m ∈ members, ∃ w, (m.1, w) ∈ members' ∧ Same m.2 w := by
  induction members with
  | nil => simp [SameMembers]
  | cons m rest ih =>
      obtain ⟨k, v⟩ := m
      simp [SameMembers, ih]

/-- An induction over values, with the items and the values of the members. -/
theorem Value.induct {K : Value → Prop} (null : K .null) (bool : ∀ b, K (.bool b))
    (num : ∀ n, K (.num n)) (str : ∀ s, K (.str s))
    (arr : ∀ items, (∀ v ∈ items, K v) → K (.arr items))
    (obj : ∀ members : List (JsString × Value), (∀ m ∈ members, K m.2) → K (.obj members)) :
    ∀ v, K v := by
  refine @Value.rec K (fun items => ∀ v ∈ items, K v) (fun members => ∀ m ∈ members, K m.2)
    (fun m => K m.2) null bool num str arr obj ?_ ?_ ?_ ?_ ?_
  · simp
  · exact fun v rest hv hrest => List.forall_mem_cons.mpr ⟨hv, hrest⟩
  · simp
  · exact fun m rest hm hrest => List.forall_mem_cons.mpr ⟨hm, hrest⟩
  · exact fun k v hv => hv

/-! ## Writing -/

/-- The unit of a character that takes one. -/
def unitOf (c : Char) : UInt16 := UInt16.ofNat c.toNat

/-- A digit of `\u`, in lower case. -/
def hexUnit (n : Nat) : UInt16 := UInt16.ofNat (if n < 10 then 48 + n else 87 + n)

def unicodeEscape (u : UInt16) : JsString :=
  let n := u.toNat
  [unitOf '\\', unitOf 'u', hexUnit (n / 4096), hexUnit (n / 256 % 16), hexUnit (n / 16 % 16),
    hexUnit (n % 16)]

/-- A unit of a string that is in no pair of surrogates. -/
def quoteUnit (u : UInt16) : JsString :=
  let n := u.toNat
  if n = 8 then [unitOf '\\', unitOf 'b']
  else if n = 9 then [unitOf '\\', unitOf 't']
  else if n = 10 then [unitOf '\\', unitOf 'n']
  else if n = 12 then [unitOf '\\', unitOf 'f']
  else if n = 13 then [unitOf '\\', unitOf 'r']
  else if n = 34 then [unitOf '\\', unitOf '"']
  else if n = 92 then [unitOf '\\', unitOf '\\']
  else if n < 32 || isHighSurrogate u || isLowSurrogate u then unicodeEscape u
  else [u]

def quoteUnits : JsString → JsString
  | [] => []
  | [u] => quoteUnit u
  | u :: v :: rest =>
      if isHighSurrogate u && isLowSurrogate v then u :: v :: quoteUnits rest
      else quoteUnit u ++ quoteUnits (v :: rest)

/-- `JSON.stringify` of a string. -/
def quote (s : JsString) : JsString := unitOf '"' :: (quoteUnits s ++ [unitOf '"'])

/-- `JSON.stringify` of a number. -/
def stringifyNumber (n : Number) : JsString :=
  if n.isFinite then n.text.map unitOf else units "null"

/-- The order of strings: by code units. -/
def unitsLe : JsString → JsString → Bool
  | [], _ => true
  | _ :: _, [] => false
  | u :: s, v :: t => decide (u.toNat < v.toNat) || (u == v && unitsLe s t)

/-- The order of `sort`. -/
def keyLe {α : Type} (a b : JsString × α) : Prop := unitsLe a.1 b.1 = true

instance {α : Type} : DecidableRel (keyLe (α := α)) :=
  fun a b => inferInstanceAs (Decidable (unitsLe a.1 b.1 = true))

def sortKeys {α : Type} (members : List (JsString × α)) : List (JsString × α) :=
  members.insertionSort keyLe

/-- `join(",")`. -/
def joined (texts : List JsString) : JsString := [unitOf ','].intercalate texts

/-- A member with the text of its value. -/
def memberText (m : JsString × JsString) : JsString := quote m.1 ++ unitOf ':' :: m.2

mutual

def stableJson : Value → JsString
  | .null => units "null"
  | .bool true => units "true"
  | .bool false => units "false"
  | .num n => stringifyNumber n
  | .str s => quote s
  | .arr items => unitOf '[' :: (joined (itemTexts items) ++ [unitOf ']'])
  -- the members are sorted with their texts
  | .obj members =>
      unitOf '\x7b' :: (joined ((sortKeys (memberTexts members)).map memberText) ++ [unitOf '\x7d'])

def itemTexts : List Value → List JsString
  | [] => []
  | v :: rest => stableJson v :: itemTexts rest

def memberTexts : List (JsString × Value) → List (JsString × JsString)
  | [] => []
  | (k, v) :: rest => (k, stableJson v) :: memberTexts rest

end

def canonicalBytes (value : Value) : Bytes := textBytes (stableJson value)

lemma itemTexts_eq (items : List Value) : itemTexts items = items.map stableJson := by
  induction items with
  | nil => rfl
  | cons v rest ih => rw [itemTexts, ih, List.map_cons]

lemma memberTexts_eq (members : List (JsString × Value)) :
    memberTexts members = members.map fun m => (m.1, stableJson m.2) := by
  induction members with
  | nil => rfl
  | cons m rest ih =>
      obtain ⟨k, v⟩ := m
      rw [memberTexts, ih, List.map_cons]

/-! ## Sorted members -/

lemma unitsLe_cons {u v : UInt16} {s t : JsString} :
    unitsLe (u :: s) (v :: t) = true ↔ u.toNat < v.toNat ∨ u = v ∧ unitsLe s t = true := by
  rw [unitsLe, Bool.or_eq_true, Bool.and_eq_true, decide_eq_true_eq, beq_iff_eq]

lemma unitsLe_total (s t : JsString) : unitsLe s t = true ∨ unitsLe t s = true := by
  induction s generalizing t with
  | nil => exact .inl rfl
  | cons u s ih =>
      cases t with
      | nil => exact .inr rfl
      | cons v t =>
          rw [unitsLe_cons, unitsLe_cons]
          rcases Nat.lt_trichotomy u.toNat v.toNat with hlt | heq | hlt
          · exact .inl (.inl hlt)
          · obtain rfl := UInt16.toNat_inj.mp heq
            rcases ih t with h | h
            · exact .inl (.inr ⟨rfl, h⟩)
            · exact .inr (.inr ⟨rfl, h⟩)
          · exact .inr (.inl hlt)

lemma unitsLe_trans {r s t : JsString} (hrs : unitsLe r s = true) (hst : unitsLe s t = true) :
    unitsLe r t = true := by
  induction r generalizing s t with
  | nil => rfl
  | cons u r ih =>
      cases s with
      | nil => cases hrs
      | cons v s =>
          cases t with
          | nil => cases hst
          | cons w t =>
              rw [unitsLe_cons] at hrs hst ⊢
              rcases hrs with hrs | ⟨rfl, hrs⟩
              · rcases hst with hst | ⟨rfl, -⟩
                · exact .inl (hrs.trans hst)
                · exact .inl hrs
              · rcases hst with hst | ⟨rfl, hst⟩
                · exact .inl hst
                · exact .inr ⟨rfl, ih hrs hst⟩

lemma unitsLe_antisymm {s t : JsString} (hst : unitsLe s t = true) (hts : unitsLe t s = true) :
    s = t := by
  induction s generalizing t with
  | nil =>
      cases t with
      | nil => rfl
      | cons v t => cases hts
  | cons u s ih =>
      cases t with
      | nil => cases hst
      | cons v t =>
          rw [unitsLe_cons] at hst hts
          rcases hst with hst | ⟨rfl, hst⟩
          · rcases hts with hts | ⟨rfl, -⟩
            · omega
            · omega
          · rcases hts with hts | ⟨-, hts⟩
            · omega
            · rw [ih hst hts]

section Sorting

variable {α β : Type}

instance : Std.Total (keyLe (α := α)) := ⟨fun a b => unitsLe_total a.1 b.1⟩

instance : IsTrans (JsString × α) keyLe := ⟨fun _ _ _ hab hbc => unitsLe_trans hab hbc⟩

lemma key_eq_of_le {a b : JsString × α} (hab : keyLe a b) (hba : keyLe b a) : a.1 = b.1 :=
  unitsLe_antisymm hab hba

lemma perm_sortKeys (members : List (JsString × α)) : (sortKeys members).Perm members :=
  List.perm_insertionSort keyLe members

@[simp] lemma mem_sortKeys {members : List (JsString × α)} {m : JsString × α} :
    m ∈ sortKeys members ↔ m ∈ members :=
  (perm_sortKeys members).mem_iff

lemma pairwise_sortKeys (members : List (JsString × α)) : (sortKeys members).Pairwise keyLe :=
  List.pairwise_insertionSort keyLe members

lemma sortKeys_sortKeys (members : List (JsString × α)) :
    sortKeys (sortKeys members) = sortKeys members :=
  (pairwise_sortKeys members).insertionSort_eq

/-- The values play no role for the order. -/
lemma sortKeys_map (f : α → β) (members : List (JsString × α)) :
    sortKeys (members.map fun m => (m.1, f m.2)) = (sortKeys members).map fun m => (m.1, f m.2) :=
  (List.map_insertionSort _ keyLe (fun m : JsString × α => (m.1, f m.2)) members
    fun _ _ _ _ => Iff.rfl).symm

/-- Members with different keys are sorted in one way. -/
lemma sortKeys_eq_of_perm {members members' : List (JsString × α)}
    (hkeys : (members.map Prod.fst).Nodup) (h : members.Perm members') :
    sortKeys members = sortKeys members' := by
  have hperm : (sortKeys members).Perm (sortKeys members') :=
    (perm_sortKeys members).trans (h.trans (perm_sortKeys members').symm)
  refine hperm.eq_of_pairwise ?_ (pairwise_sortKeys members) (pairwise_sortKeys members')
  intro a b ha hb hab hba
  have ha' : a ∈ members := mem_sortKeys.mp ha
  have hb' : b ∈ members := h.mem_iff.mpr (mem_sortKeys.mp hb)
  exact List.inj_on_of_nodup_map hkeys ha' hb' (key_eq_of_le hab hba)

end Sorting

/-- The text of an object, in the order of its keys. -/
lemma stableJson_obj (members : List (JsString × Value)) :
    stableJson (.obj members) = unitOf '\x7b' ::
      (joined ((sortKeys members).map fun m => memberText (m.1, stableJson m.2)) ++
        [unitOf '\x7d']) := by
  rw [stableJson, memberTexts_eq, sortKeys_map, List.map_map]
  rfl

/-! ## Canonical values -/

mutual

/-- What is left of a value in its text: `null` stands for the numbers that are not finite. -/
def canonical : Value → Value
  | .num n => if n.isFinite then .num n.unsignedZero else .null
  | .arr items => .arr (canonicalItems items)
  | .obj members => .obj (sortKeys (canonicalMembers members))
  | v => v

def canonicalItems : List Value → List Value
  | [] => []
  | v :: rest => canonical v :: canonicalItems rest

def canonicalMembers : List (JsString × Value) → List (JsString × Value)
  | [] => []
  | (k, v) :: rest => (k, canonical v) :: canonicalMembers rest

end

lemma canonicalItems_eq (items : List Value) : canonicalItems items = items.map canonical := by
  induction items with
  | nil => rfl
  | cons v rest ih => rw [canonicalItems, ih, List.map_cons]

lemma canonicalMembers_eq (members : List (JsString × Value)) :
    canonicalMembers members = members.map fun m => (m.1, canonical m.2) := by
  induction members with
  | nil => rfl
  | cons m rest ih =>
      obtain ⟨k, v⟩ := m
      rw [canonicalMembers, ih, List.map_cons]

lemma canonical_obj (members : List (JsString × Value)) :
    canonical (.obj members) = .obj ((sortKeys members).map fun m => (m.1, canonical m.2)) := by
  rw [canonical, canonicalMembers_eq, sortKeys_map]

/-- A canonical value has no number that is not finite. -/
lemma finite_canonical (v : Value) : Finite (canonical v) := by
  induction v using Value.induct with
  | null => trivial
  | bool b => trivial
  | str s => trivial
  | num n =>
      rw [canonical]
      by_cases hn : n.isFinite = true
      · rw [if_pos hn, Finite, Number.isFinite_unsignedZero, hn]
      · rw [if_neg hn]
        trivial
  | arr items ih =>
      rw [canonical, canonicalItems_eq, Finite, finiteItems_iff]
      intro w hw
      obtain ⟨v, hv, rfl⟩ := List.mem_map.mp hw
      exact ih v hv
  | obj members ih =>
      rw [canonical_obj, Finite, finiteMembers_iff]
      intro m hm
      obtain ⟨m', hm', rfl⟩ := List.mem_map.mp hm
      exact ih m' (mem_sortKeys.mp hm')

lemma canonical_canonical (v : Value) : canonical (canonical v) = canonical v := by
  induction v using Value.induct with
  | null => rfl
  | bool b => rfl
  | str s => rfl
  | num n =>
      by_cases hn : n.isFinite = true
      · simp [canonical, hn, Number.isFinite_unsignedZero, Number.unsignedZero_unsignedZero]
      · simp [canonical, hn]
  | arr items ih =>
      rw [canonical, canonical, canonicalItems_eq, canonicalItems_eq, List.map_map]
      congr 1
      exact List.map_congr_left ih
  | obj members ih =>
      have hmap : ((sortKeys members).map fun m => (m.1, canonical (canonical m.2))) =
          (sortKeys members).map fun m => (m.1, canonical m.2) :=
        List.map_congr_left fun m hm => by rw [ih m (mem_sortKeys.mp hm)]
      rw [canonical_obj, canonical_obj, sortKeys_map canonical (sortKeys members), sortKeys_sortKeys,
        List.map_map]
      exact congrArg Value.obj hmap

/-- **A value has the text of its canonical value.** -/
theorem stableJson_canonical (v : Value) : stableJson (canonical v) = stableJson v := by
  induction v using Value.induct with
  | null => rfl
  | bool b => rfl
  | str s => rfl
  | num n =>
      by_cases hn : n.isFinite = true
      · simp [canonical, stableJson, stringifyNumber, hn, Number.isFinite_unsignedZero,
          Number.text_unsignedZero]
      · simp [canonical, stableJson, stringifyNumber, hn]
  | arr items ih =>
      rw [canonical, canonicalItems_eq, stableJson, stableJson, itemTexts_eq, itemTexts_eq,
        List.map_map]
      congr 3
      exact List.map_congr_left ih
  | obj members ih =>
      have htexts : ((sortKeys members).map fun m => (m.1, stableJson (canonical m.2))) =
          (sortKeys members).map fun m => (m.1, stableJson m.2) :=
        List.map_congr_left fun m hm => by rw [ih m (mem_sortKeys.mp hm)]
      rw [canonical_obj, stableJson, stableJson, memberTexts_eq, memberTexts_eq, List.map_map,
        sortKeys_map]
      congr 4
      calc sortKeys ((sortKeys members).map fun m => (m.1, stableJson (canonical m.2)))
          = sortKeys ((sortKeys members).map fun m => (m.1, stableJson m.2)) := by rw [htexts]
        _ = (sortKeys members).map fun m => (m.1, stableJson m.2) := by
            rw [sortKeys_map, sortKeys_sortKeys]

/-! ## Equality -/

lemma forall₂_of_mem {α : Type} {R S : α → α → Prop} {xs ys : List α} (h : List.Forall₂ R xs ys)
    (hRS : ∀ x ∈ xs, ∀ y ∈ ys, R x y → S x y) : List.Forall₂ S xs ys := by
  induction h with
  | nil => exact .nil
  | cons hxy _ ih =>
      refine .cons (hRS _ List.mem_cons_self _ List.mem_cons_self hxy) (ih ?_)
      exact fun x hx y hy => hRS x (List.mem_cons_of_mem _ hx) y (List.mem_cons_of_mem _ hy)

lemma canonical_items_eq_iff {items items' : List Value} :
    canonical (.arr items) = canonical (.arr items') ↔
      List.Forall₂ (fun v w => canonical v = canonical w) items items' := by
  rw [canonical, canonical, canonicalItems_eq, canonicalItems_eq, Value.arr.injEq,
    ← List.forall₂_eq_eq_eq, List.forall₂_map_left_iff, List.forall₂_map_right_iff]

/-- Equal values are the same once they are canonical. -/
lemma canonical_eq_of_same {a : Value} (ha : Distinct a) :
    ∀ {b : Value}, Distinct b → Same a b → canonical a = canonical b := by
  induction a using Value.induct with
  | null =>
      intro b hb h
      cases b <;> first | rfl | cases h
  | bool x =>
      intro b hb h
      cases b <;> first | cases h
      rfl
  | str s =>
      intro b hb h
      cases b <;> first | cases h
      rfl
  | num n =>
      intro b hb h
      cases b with
      | num n' =>
          obtain ⟨hfinite, hzero⟩ := Number.unsignedZero_eq_of_strictEq h
          rw [canonical, canonical, hfinite, hzero]
      | _ => cases h
  | arr items ih =>
      intro b hb h
      cases b with
      | arr items' =>
          have hitems := distinctItems_iff.mp ha
          have hitems' := distinctItems_iff.mp hb
          exact canonical_items_eq_iff.mpr (forall₂_of_mem (sameItems_iff.mp h)
            fun v hv w hw hsame => ih v hv (hitems v hv) (hitems' w hw) hsame)
      | _ => cases h
  | obj members ih =>
      intro b hb h
      cases b with
      | obj members' =>
          obtain ⟨hkeys, hmembers⟩ := ha
          obtain ⟨hlength, hsame⟩ := h
          have hmembers' := distinctMembers_iff.mp hb.2
          -- each canonical member of the one is a canonical member of the other
          have hsubset : members.map (fun m => (m.1, canonical m.2)) ⊆
              members'.map fun m => (m.1, canonical m.2) := by
            intro m hm
            obtain ⟨⟨k, v⟩, hv, rfl⟩ := List.mem_map.mp hm
            obtain ⟨w, hw, hvw⟩ := sameMembers_iff.mp hsame _ hv
            refine List.mem_map.mpr ⟨(k, w), hw, ?_⟩
            have heq := ih _ hv (distinctMembers_iff.mp hmembers _ hv) (hmembers' _ hw) hvw
            exact congrArg (Prod.mk k) heq.symm
          have hkeys' : ((members.map fun m => (m.1, canonical m.2)).map Prod.fst).Nodup := by
            rw [List.map_map]
            exact hkeys
          have hperm := (List.subperm_of_subset (hkeys'.of_map _) hsubset).perm_of_length_le
            (by simp [hlength])
          rw [canonical, canonical, canonicalMembers_eq, canonicalMembers_eq,
            sortKeys_eq_of_perm hkeys' hperm]
      | _ => cases h

/-- Finite values with one canonical value are equal. -/
lemma same_of_canonical_eq {a : Value} (ha : Finite a) :
    ∀ {b : Value}, Finite b → canonical a = canonical b → Same a b := by
  induction a using Value.induct with
  | null =>
      intro b hb h
      cases b with
      | null => trivial
      | num n => simp [canonical, show n.isFinite = true from hb] at h
      | _ => simp [canonical] at h
  | bool x =>
      intro b hb h
      cases b with
      | bool y => simpa [canonical, Same] using h
      | num n => simp [canonical, show n.isFinite = true from hb] at h
      | _ => simp [canonical] at h
  | str s =>
      intro b hb h
      cases b with
      | str t => simpa [canonical, Same] using h
      | num n => simp [canonical, show n.isFinite = true from hb] at h
      | _ => simp [canonical] at h
  | num n =>
      intro b hb h
      have hn : n.isFinite = true := ha
      cases b with
      | num n' =>
          have hn' : n'.isFinite = true := hb
          simp only [canonical, hn, hn', if_true, Value.num.injEq] at h
          exact (Number.strictEq_iff hn hn').mpr h
      | _ => simp [canonical, hn] at h
  | arr items ih =>
      intro b hb h
      cases b with
      | arr items' =>
          have hfinite := finiteItems_iff.mp ha
          have hfinite' := finiteItems_iff.mp hb
          exact sameItems_iff.mpr (forall₂_of_mem (canonical_items_eq_iff.mp h)
            fun v hv w hw heq => ih v hv (hfinite v hv) (hfinite' w hw) heq)
      | num n => simp [canonical, show n.isFinite = true from hb] at h
      | _ => simp [canonical] at h
  | obj members ih =>
      intro b hb h
      cases b with
      | obj members' =>
          have hfinite := finiteMembers_iff.mp ha
          have hfinite' := finiteMembers_iff.mp hb
          rw [canonical_obj, canonical_obj, Value.obj.injEq] at h
          refine ⟨?_, sameMembers_iff.mpr ?_⟩
          · simpa [(perm_sortKeys _).length_eq] using congrArg List.length h
          · intro m hm
            have hmem : (m.1, canonical m.2) ∈
                (sortKeys members').map fun m => (m.1, canonical m.2) := by
              rw [← h]
              exact List.mem_map.mpr ⟨m, mem_sortKeys.mpr hm, rfl⟩
            obtain ⟨⟨k, w⟩, hw, heq⟩ := List.mem_map.mp hmem
            obtain ⟨hk, hv⟩ := Prod.mk.inj heq
            refine ⟨w, ?_, ih m hm (hfinite m hm) (hfinite' _ (mem_sortKeys.mp hw)) hv.symm⟩
            rw [← hk]
            exact mem_sortKeys.mp hw
      | num n => simp [canonical, show n.isFinite = true from hb] at h
      | _ => simp [canonical] at h

/-- **Finite values are equal exactly if they have one canonical value.** -/
theorem same_iff_canonical {a b : Value} (ha : Distinct a) (hb : Distinct b) (hfa : Finite a)
    (hfb : Finite b) : Same a b ↔ canonical a = canonical b :=
  ⟨canonical_eq_of_same ha hb, same_of_canonical_eq hfa hfb⟩

/-- **Exactly the finite values equal their canonical values.** -/
theorem same_canonical_iff {a : Value} (ha : Distinct a) : Same (canonical a) a ↔ Finite a := by
  constructor
  · intro h
    induction a using Value.induct with
    | null => trivial
    | bool b => trivial
    | str s => trivial
    | num n =>
        by_contra hn
        have hn' : ¬ n.isFinite = true := hn
        rw [canonical, if_neg hn'] at h
        exact h
    | arr items ih =>
        have hitems := distinctItems_iff.mp ha
        rw [canonical, canonicalItems_eq, Same, sameItems_iff, List.forall₂_map_left_iff,
          List.forall₂_same] at h
        exact finiteItems_iff.mpr fun v hv => ih v hv (hitems v hv) (h v hv)
    | obj members ih =>
        rw [canonical_obj] at h
        have hsame := sameMembers_iff.mp h.2
        refine finiteMembers_iff.mpr fun m hm => ih m hm (distinctMembers_iff.mp ha.2 m hm) ?_
        obtain ⟨w, hw, hvw⟩ := hsame (m.1, canonical m.2)
          (List.mem_map.mpr ⟨m, mem_sortKeys.mpr hm, rfl⟩)
        -- the keys are different, so it is the same member
        have heq : (m.1, w) = m := List.inj_on_of_nodup_map ha.1 hw hm rfl
        rw [← heq] at hvw ⊢
        exact hvw
  · intro h
    exact same_of_canonical_eq (finite_canonical a) h (canonical_canonical a)

end PasswordVault.StableJson
