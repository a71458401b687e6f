import Mathlib.Data.List.Perm.Lattice
import Mathlib.Data.List.Nodup
import Mathlib.Logic.Function.Basic

/-!
# Storage that is read by position

A key-value storage that several parties share. It tells its keys by position, and the positions
are the environment's choice: when a key comes or goes, all the others may move.

* `Storage.set`, `Storage.remove`: with the order that the environment wants afterwards.
* `Storage.Ahead`: a reader that goes through the positions has not passed a key yet. It finds the
  key when no step takes the key behind it (`Ahead.next`).
* An environment that wants no other order keeps the old one, and puts a new key at the end:
  `Ahead.set`, `Ahead.remove`.
-/

namespace KeyedStorage

/-- The keys in the order of their positions, with their values. -/
structure Storage (κ ν : Type) where
  keys : List κ
  nodup : keys.Nodup
  value : κ → ν

variable {κ ν : Type} [DecidableEq κ] {s : Storage κ ν} {k k' : κ} {v : ν} {i : Nat}

/-! ## Orders of keys -/

/-- Some keys in the order that is wanted, when it is an order of these keys. -/
def reorder (wanted keys : List κ) : List κ := if wanted.Perm keys then wanted else keys

lemma reorder_perm (wanted keys : List κ) : (reorder wanted keys).Perm keys := by
  unfold reorder
  split
  · assumption
  · exact List.Perm.refl keys

lemma reorder_nil (keys : List κ) : reorder [] keys = keys := by
  unfold reorder
  split
  · rename_i h
    exact h.nil_eq
  · rfl

/-- A key that is there keeps its position. -/
def insertKey (k : κ) (wanted keys : List κ) : List κ :=
  if k ∈ keys then keys else reorder wanted (keys ++ [k])

def eraseKey (k : κ) (wanted keys : List κ) : List κ :=
  if k ∈ keys then reorder wanted (keys.erase k) else keys

lemma mem_insertKey {wanted keys : List κ} : k' ∈ insertKey k wanted keys ↔ k' = k ∨ k' ∈ keys := by
  unfold insertKey
  by_cases hk : k ∈ keys
  · rw [if_pos hk]
    constructor
    · exact Or.inr
    · rintro (rfl | h)
      · exact hk
      · exact h
  · rw [if_neg hk, (reorder_perm wanted _).mem_iff, List.mem_append, List.mem_singleton, or_comm]

lemma nodup_insertKey {wanted keys : List κ} (h : keys.Nodup) : (insertKey k wanted keys).Nodup := by
  unfold insertKey
  by_cases hk : k ∈ keys
  · rw [if_pos hk]
    exact h
  · rw [if_neg hk, (reorder_perm wanted _).nodup_iff]
    exact h.append (List.nodup_singleton k) (by simpa using hk)

lemma mem_eraseKey {wanted keys : List κ} (h : keys.Nodup) :
    k' ∈ eraseKey k wanted keys ↔ k' ≠ k ∧ k' ∈ keys := by
  unfold eraseKey
  by_cases hk : k ∈ keys
  · rw [if_pos hk, (reorder_perm wanted _).mem_iff, h.mem_erase_iff]
  · rw [if_neg hk]
    constructor
    · exact fun h => ⟨fun heq => hk (heq ▸ h), h⟩
    · exact And.right

lemma nodup_eraseKey {wanted keys : List κ} (h : keys.Nodup) : (eraseKey k wanted keys).Nodup := by
  unfold eraseKey
  by_cases hk : k ∈ keys
  · rw [if_pos hk, (reorder_perm wanted _).nodup_iff]
    exact h.erase k
  · rw [if_neg hk]
    exact h

/-! ## Reading and writing -/

namespace Storage

def get (s : Storage κ ν) (k : κ) : Option ν := if k ∈ s.keys then some (s.value k) else none

def size (s : Storage κ ν) : Nat := s.keys.length

def keyAt (s : Storage κ ν) (i : Nat) : Option κ := s.keys[i]?

def set (s : Storage κ ν) (k : κ) (v : ν) (wanted : List κ) : Storage κ ν :=
  ⟨insertKey k wanted s.keys, nodup_insertKey s.nodup, Function.update s.value k v⟩

def remove (s : Storage κ ν) (k : κ) (wanted : List κ) : Storage κ ν :=
  ⟨eraseKey k wanted s.keys, nodup_eraseKey s.nodup, s.value⟩

lemma mem_set {wanted : List κ} : k' ∈ (s.set k v wanted).keys ↔ k' = k ∨ k' ∈ s.keys :=
  mem_insertKey

lemma mem_remove {wanted : List κ} : k' ∈ (s.remove k wanted).keys ↔ k' ≠ k ∧ k' ∈ s.keys :=
  mem_eraseKey s.nodup

@[simp] lemma get_set_self (wanted : List κ) : (s.set k v wanted).get k = some v := by
  rw [get, if_pos (mem_set.mpr (.inl rfl))]
  exact congrArg some (Function.update_self ..)

lemma get_set_of_ne (wanted : List κ) (h : k' ≠ k) : (s.set k v wanted).get k' = s.get k' := by
  have hvalue : (s.set k v wanted).value k' = s.value k' := Function.update_of_ne h ..
  unfold get
  simp only [hvalue, mem_set, h, false_or]

lemma get_remove_of_ne (wanted : List κ) (h : k' ≠ k) : (s.remove k wanted).get k' = s.get k' := by
  unfold get
  simp only [mem_remove, h, ne_eq, not_false_eq_true, true_and]
  rfl

lemma mem_of_get (h : s.get k = some v) : k ∈ s.keys := by
  unfold get at h
  split at h
  · assumption
  · cases h

/-! ## Going through the positions -/

/-- A reader that reads position `i` next has not passed the key. -/
def Ahead (s : Storage κ ν) (k : κ) (i : Nat) : Prop := k ∈ s.keys ∧ i ≤ s.keys.idxOf k

lemma Ahead.zero (h : k ∈ s.keys) : s.Ahead k 0 := ⟨h, Nat.zero_le _⟩

lemma Ahead.lt (h : s.Ahead k i) : i < s.size :=
  Nat.lt_of_le_of_lt h.2 (List.idxOf_lt_length_iff.mpr h.1)

/-- The reader gets the key now, or has not passed it afterwards. -/
lemma Ahead.next (h : s.Ahead k i) : s.keyAt i = some k ∨ s.Ahead k (i + 1) := by
  by_cases heq : i = s.keys.idxOf k
  · left
    rw [keyAt, heq]
    exact List.getElem?_idxOf h.1
  · exact .inr ⟨h.1, Nat.lt_of_le_of_ne h.2 heq⟩

/-! ## An order that is kept -/

/-- The key is there, and no `k'` is before it. -/
def Before (s : Storage κ ν) (k k' : κ) : Prop :=
  k ∈ s.keys ∧ (k' ∈ s.keys → s.keys.idxOf k < s.keys.idxOf k')

/-- A new key that goes to the end moves no other key, -/
lemma idxOf_set (h : k ∈ s.keys) (k' : κ) (v : ν) :
    (s.set k' v []).keys.idxOf k = s.keys.idxOf k := by
  change (insertKey k' [] s.keys).idxOf k = s.keys.idxOf k
  unfold insertKey
  by_cases hk : k' ∈ s.keys
  · rw [if_pos hk]
  · rw [if_neg hk, reorder_nil, List.idxOf_append_of_mem h]

/-- and a key that goes moves the keys after it only. -/
lemma Before.idxOf_remove (h : s.Before k k') :
    (s.remove k' []).keys.idxOf k = s.keys.idxOf k := by
  change (eraseKey k' [] s.keys).idxOf k = s.keys.idxOf k
  unfold eraseKey
  by_cases hk : k' ∈ s.keys
  · rw [if_pos hk, reorder_nil]
    have hlt := h.2 hk
    obtain ⟨before, after, hnot, hkeys, herase⟩ := List.exists_erase_eq hk
    rw [herase]
    rw [hkeys] at hlt ⊢
    have hfirst : (before ++ k' :: after).idxOf k' = before.length := by
      rw [List.idxOf_append_of_notMem hnot, List.idxOf_cons_self, Nat.add_zero]
    have hbefore : k ∈ before := by
      by_contra hmem
      rw [hfirst, List.idxOf_append_of_notMem hmem] at hlt
      omega
    rw [List.idxOf_append_of_mem hbefore, List.idxOf_append_of_mem hbefore]
  · rw [if_neg hk]

lemma Ahead.set (h : s.Ahead k i) (k' : κ) (v : ν) : (s.set k' v []).Ahead k i :=
  ⟨mem_set.mpr (.inr h.1), (idxOf_set h.1 k' v).symm ▸ h.2⟩

lemma Ahead.remove (h : s.Ahead k i) (hbefore : s.Before k k') (hne : k ≠ k') :
    (s.remove k' []).Ahead k i :=
  ⟨mem_remove.mpr ⟨hne, h.1⟩, hbefore.idxOf_remove.symm ▸ h.2⟩

lemma Before.set (h : s.Before k k') (k'' : κ) (v : ν) :
    (s.set k'' v []).Before k k' := by
  refine ⟨mem_set.mpr (.inr h.1), fun hk' => ?_⟩
  rw [idxOf_set h.1]
  by_cases hmem : k' ∈ s.keys
  · rw [idxOf_set hmem]
    exact h.2 hmem
  · -- the new key is `k'`, at the end
    change s.keys.idxOf k < (insertKey k'' [] s.keys).idxOf k'
    rcases mem_set.mp hk' with rfl | hold
    · unfold insertKey
      rw [if_neg hmem, reorder_nil, List.idxOf_append_of_notMem hmem]
      have hlt := List.idxOf_lt_length_iff.mpr h.1
      omega
    · exact absurd hold hmem

lemma Before.removed (h : k ∈ s.keys) (hne : k ≠ k') (wanted : List κ) :
    (s.remove k' wanted).Before k k' :=
  ⟨mem_remove.mpr ⟨hne, h⟩, fun hk' => absurd rfl (mem_remove.mp hk').1⟩

end Storage

end KeyedStorage
