import PasswordVault.Library.Contracts
import Mathlib.Data.List.Nodup

/-!
# Tables: rows under a primary key, and the statements on them

* `Rows`: the rows of a table, with pairwise distinct primary keys; `find?`, `put`, `putAll` and
  `remove` with what they do to a key.
* `Index`: the primary key, the row locks and the unique index entries of a row, and what it means
  that a change of the rows respects a lock (`Index.Respects`).
* `Table`: the rows as a part of a database, with its check constraints and foreign keys.
* `Table.lockRows`, `Table.update`, `Table.delete`, `Table.insert`: the statements. A row that was
  not in the snapshot is not seen; a row that changed since is read again and the condition is
  checked again.
* For each statement a rule of the contract judgement.
-/

namespace Transactions

/-! ## Rows -/

lemma nodup_map_nil {K R : Type} (key : R → K) : (([] : List R).map key).Nodup := List.nodup_nil

/-- The rows of a table: no two have the same primary key. -/
structure Rows (K R : Type) (key : R → K) where
  list : List R := []
  nodup : (list.map key).Nodup := by exact nodup_map_nil _

namespace Rows

variable {K R : Type} {key : R → K}

instance : Membership R (Rows K R key) := ⟨fun t r => r ∈ t.list⟩

lemma mem_def {t : Rows K R key} {r : R} : r ∈ t ↔ r ∈ t.list := Iff.rfl

variable [DecidableEq K]

/-- The row with a key. -/
def find? (t : Rows K R key) (k : K) : Option R := t.list.find? fun r => key r = k

/-- Write a row: over the one with its key, or as a new one. -/
def put (t : Rows K R key) (r : R) : Rows K R key where
  list := if key r ∈ t.list.map key then t.list.map fun x => if key x = key r then r else x
    else t.list ++ [r]
  nodup := by
    split
    · have hkeys : (t.list.map fun x => if key x = key r then r else x).map key
          = t.list.map key := by
        rw [List.map_map]
        refine List.map_congr_left fun x _ => ?_
        by_cases hx : key x = key r <;> simp [hx]
      rw [hkeys]
      exact t.nodup
    · rename_i hr
      rw [List.map_append, List.map_singleton]
      exact t.nodup.append (List.nodup_singleton _) (by simpa using hr)

/-- Write some rows. -/
def putAll (t : Rows K R key) (rs : List R) : Rows K R key := rs.foldl put t

/-- Drop the rows with some keys. -/
def remove (t : Rows K R key) (ks : List K) : Rows K R key where
  list := t.list.filter fun r => key r ∉ ks
  nodup := t.nodup.sublist (List.filter_sublist.map _)

@[simp] lemma putAll_nil (t : Rows K R key) : t.putAll [] = t := rfl

@[simp] lemma putAll_cons (t : Rows K R key) (r : R) (rs : List R) :
    t.putAll (r :: rs) = (t.put r).putAll rs := rfl

lemma find?_eq_some {t : Rows K R key} {k : K} {r : R} :
    t.find? k = some r ↔ r ∈ t ∧ key r = k := by
  constructor
  · intro h
    exact ⟨List.mem_of_find?_eq_some h, by simpa using List.find?_some h⟩
  · rintro ⟨hr, rfl⟩
    have hsome : (t.find? (key r)).isSome := by
      rw [find?, List.find?_isSome]
      exact ⟨r, hr, by simp⟩
    obtain ⟨r', hr'⟩ := Option.isSome_iff_exists.mp hsome
    have hmem : r' ∈ t.list := List.mem_of_find?_eq_some hr'
    have hkey : key r' = key r := by simpa using List.find?_some hr'
    rw [hr', List.inj_on_of_nodup_map t.nodup hmem hr hkey]

lemma find?_of_mem {t : Rows K R key} {r : R} (h : r ∈ t) : t.find? (key r) = some r :=
  find?_eq_some.mpr ⟨h, rfl⟩

lemma find?_eq_none {t : Rows K R key} {k : K} : t.find? k = none ↔ ∀ r ∈ t, key r ≠ k := by
  simp [find?, List.find?_eq_none, mem_def]

lemma mem_iff_find? {t : Rows K R key} {r : R} : r ∈ t ↔ t.find? (key r) = some r :=
  ⟨find?_of_mem, fun h => (find?_eq_some.mp h).1⟩

lemma mem_put {t : Rows K R key} {r x : R} :
    x ∈ t.put r ↔ x = r ∨ x ∈ t ∧ key x ≠ key r := by
  simp only [mem_def, put]
  split
  · rename_i hr
    obtain ⟨y, hy, hyr⟩ := List.mem_map.mp hr
    constructor
    · intro hx
      obtain ⟨z, hz, rfl⟩ := List.mem_map.mp hx
      by_cases hzr : key z = key r
      · exact .inl (if_pos hzr)
      · rw [if_neg hzr]
        exact .inr ⟨hz, hzr⟩
    · rintro (rfl | ⟨hx, hxr⟩)
      · exact List.mem_map.mpr ⟨y, hy, if_pos hyr⟩
      · exact List.mem_map.mpr ⟨x, hx, if_neg hxr⟩
  · rename_i hr
    simp only [List.mem_append, List.mem_singleton]
    constructor
    · rintro (hx | rfl)
      · exact .inr ⟨hx, fun he => hr (he ▸ List.mem_map_of_mem hx)⟩
      · exact .inl rfl
    · rintro (rfl | ⟨hx, -⟩)
      · exact .inr rfl
      · exact .inl hx

/-- **Writing a row changes what its key finds, and nothing else.** -/
lemma find?_put (t : Rows K R key) (r : R) (k : K) :
    (t.put r).find? k = if key r = k then some r else t.find? k := by
  by_cases hk : key r = k
  · rw [if_pos hk]
    exact find?_eq_some.mpr ⟨mem_put.mpr (.inl rfl), hk⟩
  · rw [if_neg hk]
    ext x
    rw [find?_eq_some, find?_eq_some, mem_put]
    constructor
    · rintro ⟨rfl | hx, hxk⟩
      · exact absurd hxk hk
      · exact ⟨hx.1, hxk⟩
    · rintro ⟨hx, rfl⟩
      exact ⟨.inr ⟨hx, fun he => hk he.symm⟩, rfl⟩

@[simp] lemma find?_put_self (t : Rows K R key) (r : R) : (t.put r).find? (key r) = some r := by
  rw [find?_put, if_pos rfl]

lemma find?_put_of_ne (t : Rows K R key) {r : R} {k : K} (h : key r ≠ k) :
    (t.put r).find? k = t.find? k := by
  rw [find?_put, if_neg h]

/-- Writing one row, as a move of what a key finds. -/
lemma find?_put_cases {t : Rows K R key} {r : R} {k : K} {move : Option R → Option R → Prop}
    (hother : move (t.find? k) (t.find? k)) (hself : key r = k → move (t.find? k) (some r)) :
    move (t.find? k) ((t.put r).find? k) := by
  rw [find?_put]
  by_cases hk : key r = k
  · rw [if_pos hk]
    exact hself hk
  · rw [if_neg hk]
    exact hother

lemma mem_remove {t : Rows K R key} {ks : List K} {x : R} :
    x ∈ t.remove ks ↔ x ∈ t ∧ key x ∉ ks := by
  simp [mem_def, remove]

lemma find?_remove (t : Rows K R key) (ks : List K) (k : K) :
    (t.remove ks).find? k = if k ∈ ks then none else t.find? k := by
  by_cases hk : k ∈ ks
  · rw [if_pos hk, find?_eq_none]
    rintro r hr rfl
    exact (mem_remove.mp hr).2 hk
  · rw [if_neg hk]
    ext x
    rw [find?_eq_some, find?_eq_some, mem_remove]
    constructor
    · rintro ⟨hx, rfl⟩
      exact ⟨hx.1, rfl⟩
    · rintro ⟨hx, rfl⟩
      exact ⟨⟨hx, hk⟩, rfl⟩

@[simp] lemma remove_nil (t : Rows K R key) : t.remove [] = t := by
  cases t
  simp [remove]

lemma find?_putAll_of_not_mem (rs : List R) (t : Rows K R key) {k : K}
    (h : ∀ r ∈ rs, key r ≠ k) : (t.putAll rs).find? k = t.find? k := by
  induction rs generalizing t with
  | nil => rfl
  | cons r rs ih =>
      rw [putAll_cons, ih _ fun x hx => h x (List.mem_cons_of_mem _ hx),
        find?_put_of_ne _ (h r List.mem_cons_self)]

/-- A key finds one of the rows just written, or what it found before. -/
lemma find?_putAll_cases (rs : List R) (t : Rows K R key) (k : K) :
    (∃ r ∈ rs, key r = k ∧ (t.putAll rs).find? k = some r) ∨
      (∀ r ∈ rs, key r ≠ k) ∧ (t.putAll rs).find? k = t.find? k := by
  induction rs generalizing t with
  | nil => exact .inr ⟨by simp, rfl⟩
  | cons r rs ih =>
      rcases ih (t.put r) with ⟨x, hx, hkey, hfind⟩ | ⟨hnone, hfind⟩
      · exact .inl ⟨x, List.mem_cons_of_mem _ hx, hkey, hfind⟩
      · rw [find?_put] at hfind
        by_cases hr : key r = k
        · rw [if_pos hr] at hfind
          exact .inl ⟨r, List.mem_cons_self, hr, hfind⟩
        · rw [if_neg hr] at hfind
          refine .inr ⟨fun x hx => ?_, hfind⟩
          rcases List.mem_cons.mp hx with rfl | hx
          · exact hr
          · exact hnone x hx

/-- Every row after writing some rows is one of them or was there before. -/
lemma mem_of_mem_putAll (rs : List R) {t : Rows K R key} {x : R} (h : x ∈ t.putAll rs) :
    x ∈ rs ∨ x ∈ t := by
  induction rs generalizing t with
  | nil => exact .inr h
  | cons r rs ih =>
      rcases ih h with hx | hx
      · exact .inl (List.mem_cons_of_mem _ hx)
      · rcases mem_put.mp hx with rfl | ⟨hx, -⟩
        · exact .inl List.mem_cons_self
        · exact .inr hx

/-- Rows with distinct keys are all there after they were written. -/
lemma mem_putAll_of_mem (rs : List R) {t : Rows K R key} (hrs : (rs.map key).Nodup) {x : R}
    (hx : x ∈ rs) : x ∈ t.putAll rs := by
  induction rs generalizing t with
  | nil => cases hx
  | cons r rs ih =>
      rw [List.map_cons, List.nodup_cons] at hrs
      rcases List.mem_cons.mp hx with rfl | hx
      · rw [mem_iff_find?, putAll_cons, find?_putAll_of_not_mem, find?_put_self]
        exact fun y hy hkey => hrs.1 (List.mem_map.mpr ⟨y, hy, hkey⟩)
      · exact ih hrs.2 hx

/-- What holds of a written row and of the old rows holds of the new rows. -/
lemma forall_put {t : Rows K R key} {p : R → Prop} {r : R} (hr : p r) (h : ∀ x ∈ t, p x) :
    ∀ x ∈ t.put r, p x := by
  intro x hx
  rcases mem_put.mp hx with rfl | ⟨hx, -⟩
  · exact hr
  · exact h x hx

lemma forall_putAll {t : Rows K R key} {p : R → Prop} {rs : List R} (hrs : ∀ r ∈ rs, p r)
    (h : ∀ x ∈ t, p x) : ∀ x ∈ t.putAll rs, p x := by
  intro x hx
  rcases mem_of_mem_putAll rs hx with hx | hx
  · exact hrs x hx
  · exact h x hx

/-! ### Rows that a change does not touch -/

/-- Writing a row without `p` over none with `p` leaves the rows with `p`. -/
lemma mem_put_iff {t : Rows K R key} {p : R → Prop} {r : R} (hr : ¬ p r)
    (hold : ∀ y, t.find? (key r) = some y → ¬ p y) {x : R} (hx : p x) : x ∈ t.put r ↔ x ∈ t := by
  rw [mem_put]
  constructor
  · rintro (rfl | ⟨hmem, -⟩)
    · exact absurd hx hr
    · exact hmem
  · intro hmem
    refine .inr ⟨hmem, fun hkey => ?_⟩
    exact hold x (hkey ▸ find?_of_mem hmem) hx

lemma mem_putAll_iff {p : R → Prop} (rs : List R) {t : Rows K R key} (hrs : ∀ r ∈ rs, ¬ p r)
    (hold : ∀ r ∈ rs, ∀ y, t.find? (key r) = some y → ¬ p y) {x : R} (hx : p x) :
    x ∈ t.putAll rs ↔ x ∈ t := by
  induction rs generalizing t with
  | nil => exact Iff.rfl
  | cons r rs ih =>
      have hr : ¬ p r := hrs r List.mem_cons_self
      rw [putAll_cons, ih (fun y hy => hrs y (List.mem_cons_of_mem _ hy)) ?_,
        mem_put_iff hr (hold r List.mem_cons_self) hx]
      intro y hy z hz
      rw [find?_put] at hz
      split at hz
      · rwa [← Option.some.inj hz]
      · exact hold y (List.mem_cons_of_mem _ hy) z hz

lemma mem_remove_iff {t : Rows K R key} {p : R → Prop} {ks : List K}
    (hold : ∀ k ∈ ks, ∀ y, t.find? k = some y → ¬ p y) {x : R} (hx : p x) :
    x ∈ t.remove ks ↔ x ∈ t := by
  rw [mem_remove]
  constructor
  · exact fun h => h.1
  · intro hmem
    exact ⟨hmem, fun hk => hold _ hk x (find?_of_mem hmem) hx⟩

end Rows

/-! ## Indexes -/

/-- The primary key of a row, the lock on a row, and the unique index entries of a row. -/
structure Index (K R L : Type) where
  key : R → K
  rowLock : K → L
  entries : R → List L

namespace Index

variable {K R L : Type} [DecidableEq K] (ix : Index K R L)

/-- A change of the rows respects a lock: the row it is on is untouched, and no row gets the index
entry it is on. -/
def Respects (l : L) (t t' : Rows K R ix.key) : Prop :=
  (∀ k, ix.rowLock k = l → t'.find? k = t.find? k) ∧
  ∀ r' ∈ t', l ∈ ix.entries r' → ∃ r ∈ t, ix.key r = ix.key r' ∧ l ∈ ix.entries r

/-- Another row has an index entry of `r`. -/
def clashes [DecidableEq L] (t : Rows K R ix.key) (r : R) : Bool :=
  t.list.any fun x => ix.key x ≠ ix.key r && (ix.entries r).any fun l => l ∈ ix.entries x

variable {ix} {l : L} {t t' t'' : Rows K R ix.key}

lemma Respects.refl (l : L) (t : Rows K R ix.key) : ix.Respects l t t :=
  ⟨fun _ _ => rfl, fun r hr hl => ⟨r, hr, rfl, hl⟩⟩

lemma Respects.trans (h : ix.Respects l t t') (h' : ix.Respects l t' t'') :
    ix.Respects l t t'' := by
  refine ⟨fun k hk => (h'.1 k hk).trans (h.1 k hk), fun r hr hl => ?_⟩
  obtain ⟨r', hr', hkey', hl'⟩ := h'.2 r hr hl
  obtain ⟨r'', hr'', hkey'', hl''⟩ := h.2 r' hr' hl'
  exact ⟨r'', hr'', hkey''.trans hkey', hl''⟩

lemma Respects.put {r : R} (hrow : l ≠ ix.rowLock (ix.key r)) (hl : l ∉ ix.entries r) :
    ix.Respects l t (t.put r) := by
  refine ⟨fun k hk => Rows.find?_put_of_ne _ ?_, fun x hx hlx => ?_⟩
  · rintro rfl
    exact hrow hk.symm
  · rcases Rows.mem_put.mp hx with rfl | ⟨hx, -⟩
    · exact absurd hlx hl
    · exact ⟨x, hx, rfl, hlx⟩

lemma Respects.putAll {rs : List R}
    (h : ∀ r ∈ rs, l ≠ ix.rowLock (ix.key r) ∧ l ∉ ix.entries r) :
    ix.Respects l t (t.putAll rs) := by
  induction rs generalizing t with
  | nil => exact .refl l t
  | cons r rs ih =>
      have hr := h r List.mem_cons_self
      exact (Respects.put hr.1 hr.2).trans (ih fun x hx => h x (List.mem_cons_of_mem _ hx))

lemma Respects.remove {ks : List K} (h : ∀ k ∈ ks, l ≠ ix.rowLock k) :
    ix.Respects l t (t.remove ks) := by
  refine ⟨fun k hk => ?_, fun x hx hlx => ⟨x, (Rows.mem_remove.mp hx).1, rfl, hlx⟩⟩
  rw [Rows.find?_remove, if_neg]
  intro hk'
  exact h k hk' hk.symm

lemma clashes_eq_false [DecidableEq L] {r : R} : ix.clashes t r = false ↔
    ∀ x ∈ t, ix.key x ≠ ix.key r → ∀ l ∈ ix.entries r, l ∉ ix.entries x := by
  simp [clashes, Rows.mem_def]

end Index

/-! ## Tables -/

/-- A table of a database. -/
structure Table (S L K R : Type) [Lockable S L] [DecidableEq K] where
  index : Index K R L
  get : S → Rows K R index.key
  set : S → Rows K R index.key → S
  /-- The check constraints of a row. -/
  check : R → Bool := fun _ => true
  /-- The foreign keys of a row. -/
  refers : S → R → Bool := fun _ _ => true
  get_set : ∀ s t, get (set s t) = t
  set_get : ∀ s, set s (get s) = s
  /-- The table has no part in the locks that its change respects. -/
  keeps : ∀ l s t, index.Respects l (get s) t → Keeps l s (set s t)
  /-- A held lock protects its part of the table. -/
  respects : ∀ l s s', Keeps l s s' → index.Respects l (get s) (get s')

namespace Table

variable {S L K R : Type} [Lockable S L] [DecidableEq K] (T : Table S L K R)

/-- Write rows. -/
def putAll (rs : List R) (s : S) : S := T.set s ((T.get s).putAll rs)

lemma putAll_nil (s : S) : T.putAll [] s = s := T.set_get s

lemma putAll_snoc (rs : List R) (r : R) (s : S) (hset : ∀ s t t', T.set (T.set s t) t' = T.set s t') :
    T.putAll [r] (T.putAll rs s) = T.putAll (rs ++ [r]) s := by
  simp only [putAll, T.get_set, hset, Rows.putAll, List.foldl_append]

/-- Drop rows. -/
def remove (ks : List K) (s : S) : S := T.set s ((T.get s).remove ks)

/-- The rows with `p` that a statement acts on: in its snapshot, and still with `p` now. -/
def chosen (p : R → Bool) (snap cur : S) : List R :=
  (T.get cur).list.filter fun r => p r && ((T.get snap).find? (T.index.key r)).any p

lemma mem_chosen {p : R → Bool} {snap cur : S} {r : R} : r ∈ T.chosen p snap cur ↔
    r ∈ T.get cur ∧ p r = true ∧ ((T.get snap).find? (T.index.key r)).any p = true := by
  simp [chosen, Rows.mem_def]

/-- Against one state, a statement acts on all rows with its condition. -/
lemma chosen_self (p : R → Bool) (s : S) : T.chosen p s s = (T.get s).list.filter p := by
  refine List.filter_congr fun r hr => ?_
  rw [Rows.find?_of_mem hr, Option.any_some, Bool.and_self]

/-- `SELECT … WHERE p FOR UPDATE`. -/
def lockRows (p : R → Bool) : Statement S L (List R) where
  exec snap cur := .ok ⟨T.chosen p snap cur, id,
    (T.chosen p snap cur).map fun r => T.index.rowLock (T.index.key r)⟩
  frame h l _ s := by
    obtain rfl := Except.ok.inj h
    exact Lockable.refl l s

/-- No row, but those with the keys `ks`, is in the way of a new row. -/
def New (ks : List K) (r : R) (s : S) : Prop :=
  ∀ x ∈ T.get s, T.index.key x ∉ ks →
    T.index.key x ≠ T.index.key r ∧ ∀ l ∈ T.index.entries r, l ∉ T.index.entries x

/-- The key of a new row finds nothing. -/
lemma find?_of_new {T : Table S L K R} {r : R} {s : S} (h : T.New [] r s) :
    (T.get s).find? (T.index.key r) = none :=
  Rows.find?_eq_none.mpr fun x hx => (h x hx List.not_mem_nil).1

variable [DecidableEq L]

/-- `UPDATE … SET f WHERE p`, where `f` keeps the primary key; answers the number of rows. -/
def update (p : R → Bool) (f : R → R) (_hf : ∀ r, T.index.key (f r) = T.index.key r) :
    Statement S L Nat where
  exec snap cur :=
    let rs := (T.chosen p snap cur).map f
    if rs.all T.check = false then .error .other
    else if rs.any (T.index.clashes ((T.get cur).putAll rs)) then .error .uniqueViolation
    else if rs.all (T.refers (T.putAll rs cur)) = false then .error .other
    else .ok ⟨rs.length, T.putAll rs,
      rs.flatMap fun r => T.index.rowLock (T.index.key r) :: T.index.entries r⟩
  frame h l hl s := by
    simp only at h
    split at h
    · cases h
    · split at h
      · cases h
      · split at h
        · cases h
        · obtain rfl := Except.ok.inj h
          refine T.keeps l s _ (Index.Respects.putAll fun r hr => ?_)
          simp only [List.mem_flatMap, List.mem_cons, not_exists, not_and, not_or] at hl
          exact hl r hr

/-- `DELETE … WHERE p`; answers the number of rows. -/
def delete (p : R → Bool) : Statement S L Nat where
  exec snap cur :=
    let ks := (T.chosen p snap cur).map T.index.key
    .ok ⟨ks.length, T.remove ks, ks.map T.index.rowLock⟩
  frame h l hl s := by
    obtain rfl := Except.ok.inj h
    refine T.keeps l s _ (Index.Respects.remove fun k hk he => hl ?_)
    exact List.mem_map.mpr ⟨k, hk, he.symm⟩

/-- `INSERT … VALUES r`. -/
def insert (r : R) : Statement S L Unit where
  exec _ cur :=
    if T.check r = false then .error .other
    else if ((T.get cur).find? (T.index.key r)).isSome || T.index.clashes (T.get cur) r then
      .error .uniqueViolation
    else if T.refers cur r = false then .error .other
    else .ok ⟨(), T.putAll [r], T.index.rowLock (T.index.key r) :: T.index.entries r⟩
  frame h l hl s := by
    split at h
    · cases h
    · split at h
      · cases h
      · split at h
        · cases h
        · obtain rfl := Except.ok.inj h
          rw [List.mem_cons, not_or] at hl
          exact T.keeps l s _ (Index.Respects.put hl.1 hl.2)

/-! ### What a statement that went through has found -/

variable {T} {snap cur : S}

lemma update_ok {p : R → Bool} {f : R → R} {hf : ∀ r, T.index.key (f r) = T.index.key r}
    {r : Reply S L Nat} (h : (T.update p f hf).exec snap cur = .ok r) :
    r = ⟨(T.chosen p snap cur).length, T.putAll ((T.chosen p snap cur).map f),
        ((T.chosen p snap cur).map f).flatMap fun r =>
          T.index.rowLock (T.index.key r) :: T.index.entries r⟩ ∧
      (∀ x ∈ T.chosen p snap cur, T.check (f x) = true) ∧
      ∀ x ∈ T.chosen p snap cur,
        T.index.clashes ((T.get cur).putAll ((T.chosen p snap cur).map f)) (f x) = false := by
  simp only [update] at h
  split at h
  · cases h
  · rename_i hcheck
    split at h
    · cases h
    · rename_i hclash
      split at h
      · cases h
      · obtain rfl := Except.ok.inj h
        simp_all

lemma insert_ok {r : R} {a : Reply S L Unit} (h : (T.insert r).exec snap cur = .ok a) :
    a = ⟨(), T.putAll [r], T.index.rowLock (T.index.key r) :: T.index.entries r⟩ ∧
      T.check r = true ∧ (T.get cur).find? (T.index.key r) = none ∧
      T.index.clashes (T.get cur) r = false ∧ T.refers cur r = true := by
  simp only [insert] at h
  split at h
  · cases h
  · split at h
    · cases h
    · split at h
      · cases h
      · obtain rfl := Except.ok.inj h
        simp_all

omit [DecidableEq L] in
/-- A condition on the primary key chooses one row at most. -/
lemma chosen_le_one {p : R → Bool} {k : K} (hkey : ∀ x, p x = true → T.index.key x = k) :
    T.chosen p snap cur = [] ∨
      ∃ r, (T.get cur).find? (T.index.key r) = some r ∧ p r = true ∧ T.chosen p snap cur = [r] := by
  have hall : ∀ x ∈ T.chosen p snap cur, (T.get cur).find? k = some x ∧ p x = true := by
    intro x hx
    obtain ⟨hx, hpx, -⟩ := T.mem_chosen.mp hx
    exact ⟨Rows.find?_eq_some.mpr ⟨hx, hkey x hpx⟩, hpx⟩
  have hnodup : (T.chosen p snap cur).Nodup := (T.get cur).nodup.of_map.filter _
  match hl : T.chosen p snap cur with
  | [] => exact .inl rfl
  | [x] =>
      obtain ⟨hx, hpx⟩ := hall x (by simp [hl])
      exact .inr ⟨x, by rw [hkey x hpx, hx], hpx, rfl⟩
  | x :: y :: l =>
      rw [hl] at hall hnodup
      have hx := (hall x (by simp)).1
      have hy := (hall y (by simp)).1
      have hxy : x = y := Option.some.inj (hx.symm.trans hy)
      simp [hxy] at hnodup

omit [DecidableEq L] in
/-- A known row that a statement's condition singles out is the one it acts on. -/
lemma chosen_eq_singleton {p : R → Bool} {r : R}
    (hsnap : (T.get snap).find? (T.index.key r) = some r)
    (hcur : (T.get cur).find? (T.index.key r) = some r) (hp : p r = true)
    (hkey : ∀ x, p x = true → T.index.key x = T.index.key r) : T.chosen p snap cur = [r] := by
  have hall : ∀ x ∈ T.chosen p snap cur, x = r := by
    intro x hx
    obtain ⟨hx, hpx, -⟩ := T.mem_chosen.mp hx
    have hfind := Rows.find?_of_mem hx
    rw [hkey x hpx, hcur] at hfind
    exact (Option.some.inj hfind).symm
  have hmem : r ∈ T.chosen p snap cur :=
    T.mem_chosen.mpr ⟨(Rows.find?_eq_some.mp hcur).1, hp, by simp [hsnap, hp]⟩
  have hnodup : (T.chosen p snap cur).Nodup := (T.get cur).nodup.of_map.filter _
  match hl : T.chosen p snap cur with
  | [] => simp [hl] at hmem
  | [x] => rw [hall x (by simp [hl])]
  | x :: y :: l =>
      rw [hl] at hall hnodup
      have hxy : x = y := (hall x (by simp)).trans (hall y (by simp)).symm
      simp [hxy] at hnodup

end Table

/-! ## The statements in the contract judgement -/

section judgements

variable {S L K R ρ Q : Type} [Lockable S L] [DecidableEq K] {T : Table S L K R}
variable {guar : Q → Bool → History S Q → S → Prop} {fresh : Q → Q → Prop} {start : S}
variable {q : Q} {P : History S Q → ρ → Prop} {c : Connection S L} {F : History S Q → Prop}

/-- A row is fixed while its lock is held. -/
lemma Table.stable_find? {locks : List L} {r : R}
    (hl : T.index.rowLock (T.index.key r) ∈ locks) :
    Stable guar fresh start locks fun H : History S Q =>
      (T.get H.current).find? (T.index.key r) = some r := by
  refine Stable.of_keeps (k := fun s => (T.get s).find? (T.index.key r) = some r) hl ?_
  intro s s' hkeeps hr
  rw [(T.respects _ s s' hkeeps).1 _ rfl]
  exact hr

/-- While a new row's locks are held, no other row can come in its way. `ks` are the keys of the
rows that the transaction itself has dropped. -/
lemma Table.stable_new {locks : List L} {r : R} {ks : List K}
    (hrow : T.index.rowLock (T.index.key r) ∈ locks) (hent : ∀ l ∈ T.index.entries r, l ∈ locks) :
    Stable guar fresh start locks fun H : History S Q => T.New ks r H.current := by
  intro H H' _ he hnew x hx hk
  refine ⟨fun hkey => ?_, fun l hl hlx => ?_⟩
  · have hfind := Rows.find?_of_mem hx
    rw [(T.respects _ _ _ (he.2 _ hrow)).1 _ (by rw [hkey])] at hfind
    exact (hnew x (Rows.find?_eq_some.mp hfind).1 hk).1 hkey
  · obtain ⟨y, hy, hkey, hly⟩ := (T.respects _ _ _ (he.2 l (hent l hl))).2 x hx hlx
    exact (hnew y hy (hkey ▸ hk)).2 l hl hly

/-- `SELECT … FOR UPDATE`: the rows found are fixed from now on. -/
lemma Sat.lockRows {p : R → Bool} {failed : DbError → ρ} {next : List R → Program S L ρ}
    (hF : Stable guar fresh start c.locks F) (herr : ∀ e H, P H (failed e))
    (hw : ∀ s, T.get (c.writes s) = T.get s)
    (h : ∀ (rows : List R) (F' : History S Q → Prop),
      Stable guar fresh start
        ((rows.map fun r => T.index.rowLock (T.index.key r)) ++ c.locks) F' →
      (∀ H, F' H → F H) → (∀ r ∈ rows, p r = true) →
      (∀ r ∈ rows, ∀ H, F' H → (T.get H.current).find? (T.index.key r) = some r) →
      Sat guar fresh start q P
        ⟨c.writes, (rows.map fun r => T.index.rowLock (T.index.key r)) ++ c.locks⟩ F'
        (next rows)) :
    Sat guar fresh start q P c F (Handler.inside (T.lockRows p) failed next) := by
  refine Sat.inside hF herr fun H₀ H₁ r hrun hF₀ hF₁ henv hr => ?_
  obtain rfl := Except.ok.inj hr
  have hmem : ∀ r ∈ T.chosen p (c.writes H₀.current) (c.writes H₁.current),
      (T.get H₁.current).find? (T.index.key r) = some r ∧ p r = true := by
    intro r hr
    obtain ⟨hr, hp, -⟩ := T.mem_chosen.mp hr
    rw [hw] at hr
    exact ⟨Rows.find?_of_mem hr, hp⟩
  generalize T.chosen p (c.writes H₀.current) (c.writes H₁.current) = rows at hmem ⊢
  refine h rows (fun H => F H ∧ ∀ r : {r // r ∈ rows},
      (T.get H.current).find? (T.index.key r.1) = some r.1) ?_ (fun H hH => hH.1)
    (fun r hr => (hmem r hr).2) (fun r hr H hH => hH.2 ⟨r, hr⟩) H₁ henv.run
    ⟨hF₁, fun r => (hmem r.1 r.2).1⟩
  refine (hF.of_locks fun l hl => List.mem_append_right _ hl).and (.forall fun r => ?_)
  exact Table.stable_find? (List.mem_append_left _ (List.mem_map.mpr ⟨r.1, r.2, rfl⟩))

/-- `DELETE`: the rows dropped are fixed from now on. -/
lemma Sat.delete {p : R → Bool} {failed : DbError → ρ} {next : Nat → Program S L ρ}
    (hF : Stable guar fresh start c.locks F) (herr : ∀ e H, P H (failed e))
    (hw : ∀ s, T.get (c.writes s) = T.get s)
    (h : ∀ (rows : List R) (F' : History S Q → Prop),
      Stable guar fresh start
        (((rows.map T.index.key).map T.index.rowLock) ++ c.locks) F' →
      (∀ H, F' H → F H) → (∀ r ∈ rows, p r = true) →
      (∀ r ∈ rows, ∀ H, F' H → (T.get H.current).find? (T.index.key r) = some r) →
      Sat guar fresh start q P
        ⟨T.remove (rows.map T.index.key) ∘ c.writes,
          ((rows.map T.index.key).map T.index.rowLock) ++ c.locks⟩ F'
        (next (rows.map T.index.key).length)) :
    Sat guar fresh start q P c F (Handler.inside (T.delete p) failed next) := by
  refine Sat.inside hF herr fun H₀ H₁ r hrun hF₀ hF₁ henv hr => ?_
  obtain rfl := Except.ok.inj hr
  have hmem : ∀ r ∈ T.chosen p (c.writes H₀.current) (c.writes H₁.current),
      (T.get H₁.current).find? (T.index.key r) = some r ∧ p r = true := by
    intro r hr
    obtain ⟨hr, hp, -⟩ := T.mem_chosen.mp hr
    rw [hw] at hr
    exact ⟨Rows.find?_of_mem hr, hp⟩
  generalize T.chosen p (c.writes H₀.current) (c.writes H₁.current) = rows at hmem ⊢
  refine h rows (fun H => F H ∧ ∀ r : {r // r ∈ rows},
      (T.get H.current).find? (T.index.key r.1) = some r.1) ?_ (fun H hH => hH.1)
    (fun r hr => (hmem r hr).2) (fun r hr H hH => hH.2 ⟨r, hr⟩) H₁ henv.run
    ⟨hF₁, fun r => (hmem r.1 r.2).1⟩
  refine (hF.of_locks fun l hl => List.mem_append_right _ hl).and (.forall fun r => ?_)
  refine Table.stable_find? (List.mem_append_left _ ?_)
  exact List.mem_map.mpr ⟨_, List.mem_map.mpr ⟨r.1, r.2, rfl⟩, rfl⟩

/-- `DELETE`, when no other request can bring in a row with `p`: all rows with `p` are dropped, and
there is no further one from now on. -/
lemma Sat.deleteAll {p : R → Bool} {failed : DbError → ρ} {next : Nat → Program S L ρ}
    (hF : Stable guar fresh start c.locks F) (herr : ∀ e H, P H (failed e))
    (hw : ∀ s, T.get (c.writes s) = T.get s)
    (hall : ∀ ks : List K, Stable guar fresh start c.locks fun H : History S Q =>
      F H ∧ ∀ r ∈ T.get H.current, p r = true → T.index.key r ∈ ks)
    (h : ∀ (rows : List R) (locks : List L) (F' : History S Q → Prop),
      (∀ l ∈ c.locks, l ∈ locks) → Stable guar fresh start locks F' → (∀ H, F' H → F H) →
      (∀ H, F' H → ∀ r, r ∈ rows ↔ r ∈ T.get H.current ∧ p r = true) →
      Sat guar fresh start q P ⟨T.remove (rows.map T.index.key) ∘ c.writes, locks⟩ F'
        (next (rows.map T.index.key).length)) :
    Sat guar fresh start q P c F (Handler.inside (T.delete p) failed next) := by
  refine Sat.inside hF herr fun H₀ H₁ a hrun hF₀ hF₁ henv ha => ?_
  obtain rfl := Except.ok.inj ha
  -- every row with `p` now is one of the snapshot
  have hkeys := hall (((T.get H₀.current).list.filter p).map T.index.key) H₀ H₁ hrun henv ⟨hF₀, by
    intro r hr hp
    exact List.mem_map.mpr ⟨r, List.mem_filter.mpr ⟨hr, hp⟩, rfl⟩⟩
  have hrows : ∀ r, r ∈ T.chosen p (c.writes H₀.current) (c.writes H₁.current) ↔
      r ∈ T.get H₁.current ∧ p r = true := by
    intro r
    rw [T.mem_chosen, hw, hw]
    refine ⟨fun hr => ⟨hr.1, hr.2.1⟩, fun hr => ⟨hr.1, hr.2, ?_⟩⟩
    obtain ⟨x, hx, hkey⟩ := List.mem_map.mp (hkeys.2 r hr.1 hr.2)
    obtain ⟨hx, hp⟩ := List.mem_filter.mp hx
    rw [← hkey, Rows.find?_of_mem hx]
    exact hp
  generalize T.chosen p (c.writes H₀.current) (c.writes H₁.current) = rows at hrows ⊢
  refine h rows _ (fun H => (F H ∧ ∀ r ∈ T.get H.current, p r = true →
      T.index.key r ∈ rows.map T.index.key) ∧
      ∀ r : {r // r ∈ rows}, (T.get H.current).find? (T.index.key r.1) = some r.1)
    (fun l hl => List.mem_append_right _ hl) ?_ (fun H hH => hH.1.1) ?_ H₁ henv.run ?_
  · refine ((hall _).of_locks fun l hl => List.mem_append_right _ hl).and (.forall fun r => ?_)
    refine Table.stable_find? (List.mem_append_left _ ?_)
    exact List.mem_map.mpr ⟨_, List.mem_map.mpr ⟨r.1, r.2, rfl⟩, rfl⟩
  · intro H hH r
    constructor
    · intro hr
      exact ⟨(Rows.find?_eq_some.mp (hH.2 ⟨r, hr⟩)).1, ((hrows r).mp hr).2⟩
    · rintro ⟨hr, hp⟩
      obtain ⟨x, hx, hkey⟩ := List.mem_map.mp (hH.1.2 r hr hp)
      have hfind := hH.2 ⟨x, hx⟩
      rw [hkey, Rows.find?_of_mem hr] at hfind
      rw [Option.some.inj hfind]
      exact hx
  · refine ⟨⟨hF₁, fun r hr hp => ?_⟩, fun r => Rows.find?_of_mem ((hrows r.1).mp r.2).1⟩
    exact List.mem_map.mpr ⟨r, (hrows r).mpr ⟨hr, hp⟩, rfl⟩

/-- `DELETE` on its own. -/
lemma Sat.deleteAlone {p : R → Bool} {failed : DbError → ρ} {next : Nat → Program S L ρ}
    (hF : Stable guar fresh start [] F) (hc : c.locks = []) (herr : ∀ e H, P H (failed e))
    (hg : ∀ (H : History S Q) (rows : List R), F H → (∀ r ∈ rows, r ∈ T.get H.current ∧ p r = true) →
      guar q false H (T.remove (rows.map T.index.key) H.current))
    (h : ∀ n, Sat guar fresh start q P c F (next n)) :
    Sat guar fresh start q P c F (Handler.alone (T.delete p) failed next) := by
  refine Sat.writeAlone hF hc herr ?_ h
  intro H₀ H₁ r _ _ hF₁ _ hr
  obtain rfl := Except.ok.inj hr
  refine hg H₁ _ hF₁ fun r hr => ?_
  obtain ⟨hr, hp, -⟩ := T.mem_chosen.mp hr
  exact ⟨hr, hp⟩

/-- `DELETE` of a row that is already known and fixed. -/
lemma Sat.deleteRow {p : R → Bool} {failed : DbError → ρ} {next : Nat → Program S L ρ} (r : R)
    (hF : Stable guar fresh start c.locks F) (herr : ∀ e H, P H (failed e))
    (hknown : ∀ H, F H → (T.get (c.writes H.current)).find? (T.index.key r) = some r)
    (hp : p r = true) (hkey : ∀ x, p x = true → T.index.key x = T.index.key r)
    (h : ∀ locks : List L, (∀ l ∈ c.locks, l ∈ locks) → Stable guar fresh start locks F →
      Sat guar fresh start q P ⟨T.remove [T.index.key r] ∘ c.writes, locks⟩ F (next 1)) :
    Sat guar fresh start q P c F (Handler.inside (T.delete p) failed next) := by
  refine Sat.inside hF herr fun H₀ H₁ a hrun hF₀ hF₁ henv ha => ?_
  obtain rfl := Except.ok.inj ha
  rw [Table.chosen_eq_singleton (hknown H₀ hF₀) (hknown H₁ hF₁) hp hkey]
  exact h _ (fun l hl => List.mem_append_right _ hl)
    (hF.of_locks fun l hl => List.mem_append_right _ hl) H₁ henv.run hF₁

variable [DecidableEq L]

/-- `UPDATE`: the rows found are fixed from now on. -/
lemma Sat.update {p : R → Bool} {f : R → R} {hf : ∀ r, T.index.key (f r) = T.index.key r}
    {failed : DbError → ρ} {next : Nat → Program S L ρ}
    (hF : Stable guar fresh start c.locks F) (herr : ∀ e H, P H (failed e))
    (hw : ∀ s, T.get (c.writes s) = T.get s)
    (h : ∀ (rows : List R) (locks : List L) (F' : History S Q → Prop),
      (∀ l ∈ c.locks, l ∈ locks) → Stable guar fresh start locks F' → (∀ H, F' H → F H) →
      (∀ r ∈ rows, p r = true ∧ T.check (f r) = true) →
      (∀ r ∈ rows, ∀ H, F' H → (T.get H.current).find? (T.index.key r) = some r) →
      Sat guar fresh start q P ⟨T.putAll (rows.map f) ∘ c.writes, locks⟩ F' (next rows.length)) :
    Sat guar fresh start q P c F (Handler.inside (T.update p f hf) failed next) := by
  refine Sat.inside hF herr fun H₀ H₁ r hrun hF₀ hF₁ henv hr => ?_
  obtain ⟨rfl, hcheck, -⟩ := Table.update_ok hr
  have hmem : ∀ r ∈ T.chosen p (c.writes H₀.current) (c.writes H₁.current),
      (T.get H₁.current).find? (T.index.key r) = some r ∧ p r = true := by
    intro r hr
    obtain ⟨hr, hp, -⟩ := T.mem_chosen.mp hr
    rw [hw] at hr
    exact ⟨Rows.find?_of_mem hr, hp⟩
  generalize T.chosen p (c.writes H₀.current) (c.writes H₁.current) = rows at hmem hcheck ⊢
  refine h rows _ (fun H => F H ∧ ∀ r : {r // r ∈ rows},
      (T.get H.current).find? (T.index.key r.1) = some r.1)
    (fun l hl => List.mem_append_right _ hl) ?_ (fun H hH => hH.1)
    (fun r hr => ⟨(hmem r hr).2, hcheck r hr⟩) (fun r hr H hH => hH.2 ⟨r, hr⟩) H₁ henv.run
    ⟨hF₁, fun r => (hmem r.1 r.2).1⟩
  refine (hF.of_locks fun l hl => List.mem_append_right _ hl).and (.forall fun r => ?_)
  refine Table.stable_find? (List.mem_append_left _ ?_)
  refine List.mem_flatMap.mpr ⟨f r.1, List.mem_map.mpr ⟨r.1, r.2, rfl⟩, ?_⟩
  rw [hf]
  exact List.mem_cons_self

/-- `UPDATE` of one row on its own. -/
lemma Sat.updateAlone {p : R → Bool} {f : R → R} {hf : ∀ r, T.index.key (f r) = T.index.key r}
    {failed : DbError → ρ} {next : Nat → Program S L ρ} {k : K}
    (hkey : ∀ r, p r = true → T.index.key r = k)
    (hF : Stable guar fresh start [] F) (hc : c.locks = []) (herr : ∀ e H, P H (failed e))
    (hidle : ∀ H, guar q false H H.current)
    (hg : ∀ H r, F H → (T.get H.current).find? (T.index.key r) = some r → p r = true →
      T.check (f r) = true → guar q false H (T.putAll [f r] H.current))
    (h : ∀ n, Sat guar fresh start q P c F (next n)) :
    Sat guar fresh start q P c F (Handler.alone (T.update p f hf) failed next) := by
  refine Sat.writeAlone hF hc herr ?_ h
  intro H₀ H₁ r _ _ hF₁ _ hr
  obtain ⟨rfl, hcheck, -⟩ := Table.update_ok hr
  have hchosen := @Table.chosen_le_one _ _ _ _ _ _ T H₀.current H₁.current _ _ hkey
  rcases hchosen with hnil | ⟨r, hr, hp, hone⟩
  · simp only [hnil, List.map_nil, T.putAll_nil]
    exact hidle H₁
  · simp only [hone, List.map_cons, List.map_nil]
    exact hg H₁ r hF₁ hr hp (hcheck r (by simp [hone]))

/-- `INSERT` on its own. -/
lemma Sat.insertAlone {r : R} {failed : DbError → ρ} {next : Unit → Program S L ρ}
    (hF : Stable guar fresh start [] F) (hc : c.locks = []) (herr : ∀ e H, P H (failed e))
    (hg : ∀ H, F H → T.check r = true → T.New [] r H.current → T.refers H.current r = true →
      guar q false H (T.putAll [r] H.current))
    (h : Sat guar fresh start q P c F (next ())) :
    Sat guar fresh start q P c F (Handler.alone (T.insert r) failed next) := by
  refine Sat.writeAlone hF hc herr ?_ fun _ => h
  intro H₀ H₁ a _ _ hF₁ _ ha
  obtain ⟨rfl, hcheck, hnone, hclash, hrefers⟩ := Table.insert_ok ha
  refine hg H₁ hF₁ hcheck (fun x hx _ => ?_) hrefers
  have hne := Rows.find?_eq_none.mp hnone x hx
  exact ⟨hne, fun l hl => Index.clashes_eq_false.mp hclash x hx hne l hl⟩

/-- `UPDATE` of a row that is already known and fixed. -/
lemma Sat.updateRow {p : R → Bool} {f : R → R} {hf : ∀ r, T.index.key (f r) = T.index.key r}
    {failed : DbError → ρ} {next : Nat → Program S L ρ} (r : R)
    (hF : Stable guar fresh start c.locks F) (herr : ∀ e H, P H (failed e))
    (hknown : ∀ H, F H → (T.get (c.writes H.current)).find? (T.index.key r) = some r)
    (hp : p r = true) (hkey : ∀ x, p x = true → T.index.key x = T.index.key r)
    (h : ∀ locks : List L, (∀ l ∈ c.locks, l ∈ locks) → Stable guar fresh start locks F →
      T.check (f r) = true →
      Sat guar fresh start q P ⟨T.putAll [f r] ∘ c.writes, locks⟩ F (next 1)) :
    Sat guar fresh start q P c F (Handler.inside (T.update p f hf) failed next) := by
  refine Sat.inside hF herr fun H₀ H₁ a hrun hF₀ hF₁ henv ha => ?_
  obtain ⟨rfl, hcheck, -⟩ := Table.update_ok ha
  rw [Table.chosen_eq_singleton (hknown H₀ hF₀) (hknown H₁ hF₁) hp hkey] at hcheck ⊢
  exact h _ (fun l hl => List.mem_append_right _ hl)
    (hF.of_locks fun l hl => List.mem_append_right _ hl) (hcheck r (by simp)) H₁ henv.run hF₁

/-- `INSERT`, when nothing is to be known about the rows that were there. -/
lemma Sat.insert {r : R} {failed : DbError → ρ} {next : Unit → Program S L ρ}
    (hF : Stable guar fresh start c.locks F) (herr : ∀ e H, P H (failed e))
    (h : ∀ locks : List L, (∀ l ∈ c.locks, l ∈ locks) → Stable guar fresh start locks F →
      T.check r = true →
      Sat guar fresh start q P ⟨T.putAll [r] ∘ c.writes, locks⟩ F (next ())) :
    Sat guar fresh start q P c F (Handler.inside (T.insert r) failed next) := by
  refine Sat.inside hF herr fun H₀ H₁ a hrun hF₀ hF₁ henv ha => ?_
  obtain ⟨rfl, hcheck, -⟩ := Table.insert_ok ha
  exact h _ (fun l hl => List.mem_append_right _ hl)
    (hF.of_locks fun l hl => List.mem_append_right _ hl) hcheck H₁ henv.run hF₁

/-- `INSERT`: no row, but those with the keys `ks` that the transaction itself has dropped, is in
the way of the new one from now on. The transaction's own updates have kept the index entries. -/
lemma Sat.insertNewKnown {r : R} {failed : DbError → ρ} {next : Unit → Program S L ρ} (ks : List K)
    (hF : Stable guar fresh start c.locks F)
    (herr : ∀ e H H', Run guar fresh start H → F H → Later guar fresh start H H' → P H' (failed e))
    (hw : ∀ s, ∀ x ∈ T.get s, T.index.key x ∉ ks → ∃ y ∈ T.get (c.writes s),
      T.index.key y = T.index.key x ∧ T.index.entries y = T.index.entries x)
    (h : ∀ (locks : List L) (F' : History S Q → Prop), (∀ l ∈ c.locks, l ∈ locks) →
      Stable guar fresh start locks F' → (∀ H, F' H → F H) → T.check r = true →
      (∀ H, F' H → T.New ks r H.current) →
      Sat guar fresh start q P ⟨T.putAll [r] ∘ c.writes, locks⟩ F' (next ())) :
    Sat guar fresh start q P c F (Handler.inside (T.insert r) failed next) := by
  refine Sat.insideKnown hF herr fun H₀ H₁ a hrun hF₀ hF₁ henv ha => ?_
  obtain ⟨rfl, hcheck, hnone, hclash, -⟩ := Table.insert_ok ha
  refine h _ (fun H => F H ∧ T.New ks r H.current)
    (fun l hl => List.mem_append_right _ hl) ?_ (fun H hH => hH.1) hcheck (fun H hH => hH.2)
    H₁ henv.run ⟨hF₁, fun x hx hk => ?_⟩
  · exact (hF.of_locks fun l hl => List.mem_append_right _ hl).and
      (Table.stable_new (List.mem_append_left _ List.mem_cons_self)
        fun l hl => List.mem_append_left _ (List.mem_cons_of_mem _ hl))
  · obtain ⟨y, hy, hkey, hent⟩ := hw H₁.current x hx hk
    have hne := Rows.find?_eq_none.mp hnone y hy
    rw [← hkey, ← hent]
    exact ⟨hne, fun l hl => Index.clashes_eq_false.mp hclash y hy hne l hl⟩

lemma Sat.insertNew {r : R} {failed : DbError → ρ} {next : Unit → Program S L ρ} (ks : List K)
    (hF : Stable guar fresh start c.locks F) (herr : ∀ e H, P H (failed e))
    (hw : ∀ s, ∀ x ∈ T.get s, T.index.key x ∉ ks → ∃ y ∈ T.get (c.writes s),
      T.index.key y = T.index.key x ∧ T.index.entries y = T.index.entries x)
    (h : ∀ (locks : List L) (F' : History S Q → Prop), (∀ l ∈ c.locks, l ∈ locks) →
      Stable guar fresh start locks F' → (∀ H, F' H → F H) → T.check r = true →
      (∀ H, F' H → T.New ks r H.current) →
      Sat guar fresh start q P ⟨T.putAll [r] ∘ c.writes, locks⟩ F' (next ())) :
    Sat guar fresh start q P c F (Handler.inside (T.insert r) failed next) :=
  Sat.insertNewKnown ks hF (fun e _ H' _ _ _ => herr e H') hw h

/-- `INSERT` after the transaction has dropped the rows with the keys `ks` and inserted the rows
`done`: the new row has another key than these, and no other row is in its way. -/
lemma Sat.insertMore {r : R} {failed : DbError → ρ} {next : Unit → Program S L ρ} {locks : List L}
    {ks : List K} {done : List R} (hset : ∀ s t t', T.set (T.set s t) t' = T.set s t')
    (hF : Stable guar fresh start locks F) (herr : ∀ e H, P H (failed e))
    (hdone : ∀ H, F H → ∀ d ∈ done, T.New ks d H.current)
    (h : ∀ (locks' : List L) (F' : History S Q → Prop), (∀ l ∈ locks, l ∈ locks') →
      Stable guar fresh start locks' F' → (∀ H, F' H → F H) →
      (∀ H, F' H → T.New ks r H.current) → (∀ d ∈ done, T.index.key d ≠ T.index.key r) →
      Sat guar fresh start q P ⟨T.putAll (done ++ [r]) ∘ T.remove ks, locks'⟩ F' (next ())) :
    Sat guar fresh start q P ⟨T.putAll done ∘ T.remove ks, locks⟩ F
      (Handler.inside (T.insert r) failed next) := by
  refine Sat.inside hF herr fun H₀ H₁ a hrun hF₀ hF₁ henv ha => ?_
  obtain ⟨rfl, -, hnone, hclash, -⟩ := Table.insert_ok ha
  simp only [Function.comp_apply, Table.putAll, Table.remove, T.get_set] at hnone hclash
  have hne : ∀ d ∈ done, T.index.key d ≠ T.index.key r := by
    intro d hd hkey
    rcases Rows.find?_putAll_cases done ((T.get H₁.current).remove ks) (T.index.key r) with
      ⟨x, -, -, hfind⟩ | ⟨hnot, -⟩
    · rw [hnone] at hfind
      cases hfind
    · exact hnot d hd hkey
  have hnew : T.New ks r H₁.current := by
    intro x hx hk
    have hkept : x ∈ ((T.get H₁.current).remove ks).putAll done := by
      rw [Rows.mem_iff_find?, Rows.find?_putAll_of_not_mem, Rows.find?_remove, if_neg hk,
        Rows.find?_of_mem hx]
      exact fun d hd hkey => (hdone H₁ hF₁ d hd x hx hk).1 hkey.symm
    have hkey := Rows.find?_eq_none.mp hnone x hkept
    exact ⟨hkey, fun l hl => Index.clashes_eq_false.mp hclash x hkept hkey l hl⟩
  have hwrites : T.putAll [r] ∘ T.putAll done ∘ T.remove ks = T.putAll (done ++ [r]) ∘ T.remove ks :=
    funext fun s => T.putAll_snoc done r _ hset
  rw [hwrites]
  refine h _ (fun H => F H ∧ T.New ks r H.current) (fun l hl => List.mem_append_right _ hl) ?_
    (fun H hH => hH.1) (fun H hH => hH.2) hne H₁ henv.run ⟨hF₁, hnew⟩
  exact (hF.of_locks fun l hl => List.mem_append_right _ hl).and
    (Table.stable_new (List.mem_append_left _ List.mem_cons_self)
      fun l hl => List.mem_append_left _ (List.mem_cons_of_mem _ hl))

end judgements

end Transactions
