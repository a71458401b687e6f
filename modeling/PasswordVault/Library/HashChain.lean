import Mathlib.Data.List.Basic
import Mathlib.Data.List.Nodup

/-!
# Hash chains

Lists of links in which every link names the hash of the one before it and carries the next
sequence number. `Links α η` says where a link keeps them; `Chain s g l` says that `l` goes on from
a head with number `s` and hash `g`, and `tip g l` is the hash of the head it leads to.

* `chain_append`, `tip_append`: chains are put together at the head.
* `Chain.eq_of_seq`, `Chain.exists_of_seq`: the numbers of a chain are exactly the next ones, each
  once.
* `Chain.at_split`: every link is based on the head before it.
* `Chain.filter_after`: the links after a number are a suffix.
-/

namespace HashChain

/-- Where a link keeps its sequence number, the hash it goes on from and its own hash. -/
structure Links (α η : Type) where
  seq : α → Int
  prev : α → η
  hash : α → η

namespace Links

variable {α η : Type} (K : Links α η)

/-- The links of `l` go on from the head `(s, g)`, one after the other. -/
def Chain : Int → η → List α → Prop
  | _, _, [] => True
  | s, g, a :: l => K.seq a = s + 1 ∧ K.prev a = g ∧ Chain (s + 1) (K.hash a) l

/-- The hash of the head after the links of `l`. -/
def tip : η → List α → η
  | g, [] => g
  | _, a :: l => tip (K.hash a) l

variable {K} {s : Int} {g : η} {l l' : List α} {a b : α}

@[simp] lemma chain_nil : K.Chain s g [] := trivial

lemma chain_cons : K.Chain s g (a :: l) ↔
    K.seq a = s + 1 ∧ K.prev a = g ∧ K.Chain (s + 1) (K.hash a) l := Iff.rfl

@[simp] lemma tip_nil : K.tip g [] = g := rfl

@[simp] lemma tip_cons : K.tip g (a :: l) = K.tip (K.hash a) l := rfl

lemma tip_append : K.tip g (l ++ l') = K.tip (K.tip g l) l' := by
  induction l generalizing g with
  | nil => rfl
  | cons a l ih => exact ih

lemma tip_snoc : K.tip g (l ++ [a]) = K.hash a := by
  rw [tip_append]
  rfl

/-- Two chains are one when the second goes on from the head of the first. -/
theorem chain_append :
    K.Chain s g (l ++ l') ↔ K.Chain s g l ∧ K.Chain (s + l.length) (K.tip g l) l' := by
  induction l generalizing s g with
  | nil => simp
  | cons a l ih =>
      have hlen : s + 1 + (l.length : Int) = s + ((a :: l).length : Int) := by
        rw [List.length_cons]
        push_cast
        omega
      rw [List.cons_append, chain_cons, chain_cons, ih, hlen, tip_cons]
      tauto

lemma chain_snoc : K.Chain s g (l ++ [a]) ↔
    K.Chain s g l ∧ K.seq a = s + l.length + 1 ∧ K.prev a = K.tip g l := by
  rw [chain_append, chain_cons]
  simp

namespace Chain

lemma take (h : K.Chain s g l) (n : Nat) : K.Chain s g (l.take n) := by
  rw [← List.take_append_drop n l, chain_append] at h
  exact h.1

lemma drop (h : K.Chain s g l) {n : Nat} (hn : n ≤ l.length) :
    K.Chain (s + n) (K.tip g (l.take n)) (l.drop n) := by
  rw [← List.take_append_drop n l, chain_append, List.length_take, Nat.min_eq_left hn] at h
  exact h.2

/-- Every link is based on the head before it. -/
lemma at_split {l₁ l₂ : List α} (h : K.Chain s g (l₁ ++ a :: l₂)) :
    K.seq a = s + l₁.length + 1 ∧ K.prev a = K.tip g l₁ :=
  let ⟨_, hseq, hprev, _⟩ := chain_append.mp h
  ⟨hseq, hprev⟩

lemma seq_bounds (h : K.Chain s g l) (ha : a ∈ l) : s < K.seq a ∧ K.seq a ≤ s + l.length := by
  obtain ⟨l₁, l₂, rfl⟩ := List.append_of_mem ha
  have hseq := h.at_split.1
  rw [List.length_append, List.length_cons]
  push_cast
  omega

/-- The numbers increase along the chain. -/
lemma pairwise (h : K.Chain s g l) : l.Pairwise fun a b => K.seq a < K.seq b := by
  induction l generalizing s g with
  | nil => exact .nil
  | cons a l ih =>
      obtain ⟨hseq, -, hl⟩ := chain_cons.mp h
      refine List.pairwise_cons.mpr ⟨fun b hb => ?_, ih hl⟩
      have hb := (hl.seq_bounds hb).1
      omega

lemma nodup (h : K.Chain s g l) : l.Nodup :=
  h.pairwise.imp fun hlt heq => by
    rw [heq] at hlt
    omega

/-- No two links have the same number. -/
theorem eq_of_seq (h : K.Chain s g l) (ha : a ∈ l) (hb : b ∈ l) (hseq : K.seq a = K.seq b) :
    a = b := by
  induction l generalizing s g with
  | nil => cases ha
  | cons c l ih =>
      obtain ⟨hc, -, hl⟩ := chain_cons.mp h
      rcases List.mem_cons.mp ha with rfl | ha' <;> rcases List.mem_cons.mp hb with rfl | hb'
      · rfl
      · have hlt := (hl.seq_bounds hb').1
        omega
      · have hlt := (hl.seq_bounds ha').1
        omega
      · exact ih hl ha' hb'

/-- Links of a chain are known by their numbers. -/
lemma eq_of_map_seq (h : K.Chain s g l) {xs ys : List α} (hxs : ∀ x ∈ xs, x ∈ l)
    (hys : ∀ y ∈ ys, y ∈ l) (hseq : xs.map K.seq = ys.map K.seq) : xs = ys := by
  induction xs generalizing ys with
  | nil => exact (List.map_eq_nil_iff.mp hseq.symm).symm
  | cons x xs ih =>
      cases ys with
      | nil => cases hseq
      | cons y ys =>
          obtain ⟨hhead, htail⟩ := List.cons.inj hseq
          rw [h.eq_of_seq (hxs x List.mem_cons_self) (hys y List.mem_cons_self) hhead,
            ih (fun a ha => hxs a (List.mem_cons_of_mem x ha))
              (fun b hb => hys b (List.mem_cons_of_mem y hb)) htail]

/-- Every number up to the head has its link. -/
theorem exists_of_seq (h : K.Chain s g l) {k : Int} (hk : s < k) (hk' : k ≤ s + l.length) :
    ∃ l₁ a l₂, l = l₁ ++ a :: l₂ ∧ K.seq a = k ∧ s + l₁.length + 1 = k := by
  induction l generalizing s g with
  | nil =>
      simp at hk'
      omega
  | cons c l ih =>
      obtain ⟨hc, -, hl⟩ := chain_cons.mp h
      by_cases hcase : k = s + 1
      · exact ⟨[], c, l, rfl, hc.trans hcase.symm, by simp [hcase]⟩
      · obtain ⟨l₁, a, l₂, rfl, ha, hlen⟩ := ih hl (by omega) (by
          rw [List.length_cons] at hk'
          push_cast at hk'
          omega)
        refine ⟨c :: l₁, a, l₂, rfl, ha, ?_⟩
        rw [List.length_cons]
        push_cast
        omega

/-- The numbers of a chain are the next ones, in order. -/
lemma map_seq (h : K.Chain s g l) :
    l.map K.seq = (List.range l.length).map fun i : Nat => s + i + 1 := by
  induction l generalizing s g with
  | nil => rfl
  | cons a l ih =>
      obtain ⟨hseq, -, hl⟩ := chain_cons.mp h
      rw [List.map_cons, ih hl, hseq, List.length_cons, List.range_succ_eq_map, List.map_cons,
        List.map_map]
      congr 1
      · simp
      · refine List.map_congr_left fun i _ => ?_
        simp only [Function.comp_apply]
        push_cast
        omega

/-- The links after a number are a suffix of the chain. -/
lemma filter_after (h : K.Chain s g l) (n : Nat) :
    l.filter (fun a => decide (s + n < K.seq a)) = l.drop n := by
  induction n generalizing s g l with
  | zero =>
      rw [List.drop_zero, List.filter_eq_self]
      intro a ha
      have hlt := (h.seq_bounds ha).1
      simpa using hlt
  | succ n ih =>
      cases l with
      | nil => rfl
      | cons a l =>
          obtain ⟨hseq, -, hl⟩ := chain_cons.mp h
          have hnot : ¬ s + ((n + 1 : Nat) : Int) < K.seq a := by
            push_cast
            omega
          rw [List.filter_cons_of_neg (by simpa using hnot), List.drop_succ_cons, ← ih hl]
          congr 1
          funext b
          congr 1
          push_cast
          exact propext ⟨fun hlt => by omega, fun hlt => by omega⟩

/-- The links up to a number are a prefix of the chain. -/
lemma filter_upto (h : K.Chain s g l) (n : Nat) :
    l.filter (fun a => decide (K.seq a ≤ s + n)) = l.take n := by
  by_cases hn : n ≤ l.length
  · conv_lhs => rw [← List.take_append_drop n l]
    rw [List.filter_append, List.filter_eq_self.mpr, List.filter_eq_nil_iff.mpr, List.append_nil]
    · intro a ha
      have hlt := ((h.drop hn).seq_bounds ha).1
      simpa using hlt
    · intro a ha
      have hle := ((h.take n).seq_bounds ha).2
      rw [List.length_take, Nat.min_eq_left hn] at hle
      simpa using hle
  · rw [List.take_of_length_le (by omega), List.filter_eq_self]
    intro a ha
    have hle := (h.seq_bounds ha).2
    have hlen : (l.length : Int) ≤ n := by omega
    simp only [decide_eq_true_eq]
    omega

end Chain

end Links

end HashChain
