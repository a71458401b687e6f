import Mathlib.Data.List.Basic

/-!
# Length-prefixed fields

A value behind its length and a separator can be cut off the front of any text, also where the value
holds separators itself.

* `framed`: the length, the separator and the value; `framed_append_inj`.
* `record`: fields between fixed labels; `record_inj`.
-/

namespace LengthPrefix

variable {α : Type*} {len : Nat → List α} {sep : α}

/-- A value behind its length. -/
def framed (len : Nat → List α) (sep : α) (value : List α) : List α :=
  len value.length ++ sep :: value

/-- A text is cut at its first separator in one way. -/
lemma append_sep_inj {sep : α} {before before' after after' : List α} (h : sep ∉ before)
    (h' : sep ∉ before') (heq : before ++ sep :: after = before' ++ sep :: after') :
    before = before' ∧ after = after' := by
  induction before generalizing before' with
  | nil =>
      cases before' with
      | nil => exact ⟨rfl, (List.cons.inj heq).2⟩
      | cons c before' =>
          have hc : sep = c := (List.cons.inj heq).1
          exact absurd (hc ▸ List.mem_cons_self) h'
  | cons b before ih =>
      cases before' with
      | nil =>
          have hb : b = sep := (List.cons.inj heq).1
          exact absurd (hb ▸ List.mem_cons_self) h
      | cons c before' =>
          obtain ⟨rfl, htail⟩ := List.cons.inj heq
          obtain ⟨rfl, rfl⟩ := ih (fun hm => h (List.mem_cons_of_mem _ hm))
            (fun hm => h' (List.mem_cons_of_mem _ hm)) htail
          exact ⟨rfl, rfl⟩

/-- The first value of a text and what follows it are determined. -/
lemma framed_append_inj (hlen : Function.Injective len) (hsep : ∀ n, sep ∉ len n)
    {value value' rest rest' : List α}
    (h : framed len sep value ++ rest = framed len sep value' ++ rest') :
    value = value' ∧ rest = rest' := by
  simp only [framed, List.append_assoc, List.cons_append] at h
  -- the length ends at the first separator
  obtain ⟨hdigits, htail⟩ := append_sep_inj (hsep value.length) (hsep value'.length) h
  have hlength : value.length = value'.length := hlen hdigits
  exact List.append_inj htail hlength

/-- A field: the label before its value, the value, and what ends it. -/
structure Field (α : Type*) where
  before : List α
  value : List α
  after : List α

def Field.labels (f : Field α) : List α × List α := (f.before, f.after)

def record (len : Nat → List α) (sep : α) (fields : List (Field α)) : List α :=
  fields.flatMap fun f => f.before ++ framed len sep f.value ++ f.after

/-- **Records with the same labels agree only if all their values do.** -/
theorem record_inj (hlen : Function.Injective len) (hsep : ∀ n, sep ∉ len n) :
    ∀ {fields fields' : List (Field α)}, fields.map Field.labels = fields'.map Field.labels →
      record len sep fields = record len sep fields' → fields = fields' := by
  intro fields
  induction fields with
  | nil =>
      intro fields' hlabels _
      have hnil : fields'.map Field.labels = [] := hlabels.symm
      exact (List.map_eq_nil_iff.mp hnil).symm
  | cons f fields ih =>
      rintro (_ | ⟨f', fields'⟩) hlabels h
      · simp at hlabels
      obtain ⟨before, value, after⟩ := f
      obtain ⟨before', value', after'⟩ := f'
      simp only [List.map_cons, Field.labels, List.cons.injEq, Prod.mk.injEq] at hlabels
      obtain ⟨⟨rfl, rfl⟩, hrest⟩ := hlabels
      simp only [record, List.flatMap_cons, List.append_assoc] at h
      have hvalue := List.append_cancel_left h
      obtain ⟨rfl, htail⟩ := framed_append_inj hlen hsep hvalue
      have hrecord : record len sep fields = record len sep fields' := by
        simpa only [record, List.append_assoc] using List.append_cancel_left htail
      rw [ih hrest hrecord]

end LengthPrefix
