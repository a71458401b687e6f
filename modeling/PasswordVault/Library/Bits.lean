import Mathlib.Data.Nat.Bitwise
import Mathlib.Tactic.Ring

/-!
# Regrouping bits

A sequence of numbers of one width, written as bits and read back in groups of another width.

* `bitsOf`, `ofBits`: a number and its bits, most significant first.
* `groups`: the groups of a sequence of bits, the last one filled with zeros.
* `wholes`: the groups that are complete.
* `wholes_groups`: regrouping and regrouping back gives the numbers that one started from.
-/

namespace Bits

/-- The last `width` bits of a number, most significant first. -/
def bitsOf : Nat → Nat → List Bool
  | 0, _ => []
  | width + 1, n => decide (n / 2 ^ width % 2 = 1) :: bitsOf width n

/-- The number with these bits. -/
def ofBits : List Bool → Nat
  | [] => 0
  | b :: bits => b.toNat * 2 ^ bits.length + ofBits bits

@[simp] lemma bitsOf_length (width n : Nat) : (bitsOf width n).length = width := by
  induction width with
  | zero => rfl
  | succ width ih => rw [bitsOf, List.length_cons, ih]

lemma ofBits_append (a b : List Bool) : ofBits (a ++ b) = ofBits a * 2 ^ b.length + ofBits b := by
  induction a with
  | nil => simp [ofBits]
  | cons x a ih =>
      simp only [List.cons_append, ofBits, ih, List.length_append, pow_add]
      ring

lemma ofBits_bitsOf (width n : Nat) : ofBits (bitsOf width n) = n % 2 ^ width := by
  induction width with
  | zero => simp [bitsOf, ofBits, Nat.mod_one]
  | succ width ih =>
      rw [bitsOf, ofBits, bitsOf_length, ih, Nat.mod_pow_succ]
      rcases Nat.mod_two_eq_zero_or_one (n / 2 ^ width) with h | h
      · simp [h]
      · simp [h]
        ring

lemma ofBits_lt (bits : List Bool) : ofBits bits < 2 ^ bits.length := by
  induction bits with
  | nil => simp [ofBits]
  | cons b bits ih =>
      rw [ofBits, List.length_cons, pow_succ]
      cases b <;> simp <;> omega

lemma ofBits_replicate_false (n : Nat) : ofBits (List.replicate n false) = 0 := by
  induction n with
  | zero => rfl
  | succ n ih => simp [List.replicate_succ, ofBits, ih]

lemma ofBits_inj {a b : List Bool} (hlength : a.length = b.length) (h : ofBits a = ofBits b) :
    a = b := by
  induction a generalizing b with
  | nil => exact (List.eq_nil_of_length_eq_zero hlength.symm).symm
  | cons x a ih =>
      obtain ⟨y, b, rfl⟩ := List.exists_cons_of_length_eq_add_one hlength.symm
      rw [List.length_cons, List.length_cons, Nat.add_right_cancel_iff] at hlength
      have ha := ofBits_lt a
      have hb := ofBits_lt b
      simp only [ofBits, hlength] at h
      rw [hlength] at ha
      -- the leading bits agree, since what follows is smaller than their weight
      have hxy : x = y := by
        cases x <;> cases y <;> simp at h <;> first | rfl | omega
      subst hxy
      rw [ih hlength (by omega)]

lemma bitsOf_ofBits (bits : List Bool) : bitsOf bits.length (ofBits bits) = bits := by
  apply ofBits_inj (bitsOf_length _ _)
  rw [ofBits_bitsOf, Nat.mod_eq_of_lt (ofBits_lt bits)]

/-- The bits above and below a place. -/
lemma bitsOf_add (high low n : Nat) :
    bitsOf (high + low) n = bitsOf high (n / 2 ^ low) ++ bitsOf low n := by
  apply ofBits_inj
  · simp
  rw [ofBits_append, ofBits_bitsOf, ofBits_bitsOf, ofBits_bitsOf, bitsOf_length]
  rw [Nat.add_comm high low, pow_add, Nat.mod_mul, Nat.add_comm, Nat.mul_comm]

/-- A number shifted in from below. -/
lemma bitsOf_shift (high low m n : Nat) (h : n < 2 ^ low) :
    bitsOf high m ++ bitsOf low n = bitsOf (high + low) (m * 2 ^ low + n) := by
  rw [bitsOf_add]
  have hpos : 0 < 2 ^ low := Nat.two_pow_pos low
  have hdiv : (m * 2 ^ low + n) / 2 ^ low = m := by
    rw [Nat.mul_comm, Nat.mul_add_div hpos, Nat.div_eq_of_lt h, Nat.add_zero]
  have hlow : bitsOf low n = bitsOf low (m * 2 ^ low + n) := by
    apply ofBits_inj (by simp)
    rw [ofBits_bitsOf, ofBits_bitsOf, Nat.mul_comm, Nat.mul_add_mod]
  rw [hdiv, hlow]

/-- Bits above the width do not matter. -/
lemma bitsOf_mod {width big : Nat} (h : width ≤ big) (n : Nat) :
    bitsOf width (n % 2 ^ big) = bitsOf width n := by
  apply ofBits_inj (by simp)
  rw [ofBits_bitsOf, ofBits_bitsOf, Nat.mod_mod_of_dvd _ (Nat.pow_dvd_pow 2 h)]

/-! ## Groups -/

def zeroFill (size : Nat) (bits : List Bool) : List Bool :=
  bits ++ List.replicate (size - bits.length) false

lemma drop_lt (size : Nat) [NeZero size] (b : Bool) (bits : List Bool) :
    ((b :: bits).drop size).length < (b :: bits).length := by
  have hsize := NeZero.pos size
  rw [List.length_drop, List.length_cons]
  omega

/-- The groups of a sequence of bits, the last one filled with zeros. -/
def groups (size : Nat) [NeZero size] : List Bool → List Nat
  | [] => []
  | b :: bits =>
      ofBits (zeroFill size ((b :: bits).take size)) :: groups size ((b :: bits).drop size)
termination_by bits => bits.length
decreasing_by exact drop_lt size b bits

/-- The groups that are complete. -/
def wholes (size : Nat) [NeZero size] : List Bool → List Nat
  | [] => []
  | b :: bits =>
      if size ≤ (b :: bits).length then
        ofBits ((b :: bits).take size) :: wholes size ((b :: bits).drop size)
      else []
termination_by bits => bits.length
decreasing_by exact drop_lt size b bits

section Groups

variable (size : Nat) [NeZero size]

lemma groups_of_ne_nil {bits : List Bool} (h : bits ≠ []) :
    groups size bits = ofBits (zeroFill size (bits.take size)) :: groups size (bits.drop size) := by
  cases bits with
  | nil => exact absurd rfl h
  | cons b bits => rw [groups]

lemma append_ne_nil {first : List Bool} (h : first.length = size) (rest : List Bool) :
    first ++ rest ≠ [] := by
  intro hnil
  have hpos := NeZero.pos size
  have hfirst := (List.append_eq_nil_iff.mp hnil).1
  rw [← h, hfirst] at hpos
  exact absurd hpos (by simp)

lemma groups_append {first : List Bool} (h : first.length = size) (rest : List Bool) :
    groups size (first ++ rest) = ofBits first :: groups size rest := by
  rw [groups_of_ne_nil size (append_ne_nil size h rest), List.take_left' h, List.drop_left' h]
  simp [zeroFill, h]

lemma groups_flatMap {ns : List Nat} (hns : ∀ n ∈ ns, n < 2 ^ size) (rest : List Bool) :
    groups size (ns.flatMap (bitsOf size) ++ rest) = ns ++ groups size rest := by
  induction ns with
  | nil => rfl
  | cons n ns ih =>
      rw [List.flatMap_cons, List.append_assoc, groups_append size (bitsOf_length size n),
        ofBits_bitsOf, Nat.mod_eq_of_lt (hns n List.mem_cons_self),
        ih fun m hm => hns m (List.mem_cons_of_mem n hm), List.cons_append]

/-- The last group, which is not complete. -/
lemma groups_short {bits : List Bool} (hpos : bits ≠ []) (h : bits.length ≤ size) :
    groups size bits = [ofBits (zeroFill size bits)] := by
  rw [groups_of_ne_nil size hpos, List.take_of_length_le h, List.drop_eq_nil_of_le h, groups]

lemma groups_lt (bits : List Bool) : ∀ n ∈ groups size bits, n < 2 ^ size := by
  fun_induction groups size bits with
  | case1 => simp
  | case2 b bits ih =>
      intro n hn
      rcases List.mem_cons.mp hn with rfl | hn
      · refine (ofBits_lt _).trans_eq (congrArg (2 ^ ·) ?_)
        simp only [zeroFill, List.length_append, List.length_replicate, List.length_take]
        omega
      · exact ih n hn

lemma groups_length (bits : List Bool) :
    (groups size bits).length = (bits.length + (size - 1)) / size := by
  have hsize := NeZero.pos size
  fun_induction groups size bits with
  | case1 => simp [Nat.div_eq_of_lt, hsize]
  | case2 b bits ih =>
      rw [List.length_cons, ih, List.length_drop]
      rcases Nat.lt_or_ge (b :: bits).length size with hlt | hge
      · have hzero : (b :: bits).length - size = 0 := by omega
        have hone : (b :: bits).length + (size - 1) = size * 1 + ((b :: bits).length - 1) := by
          simp only [List.length_cons] at hlt ⊢
          omega
        rw [hzero, hone, Nat.mul_add_div hsize, Nat.div_eq_of_lt (by omega),
          Nat.div_eq_of_lt (by omega)]
      · have hmore : (b :: bits).length + (size - 1) =
            size * 1 + ((b :: bits).length - size + (size - 1)) := by
          omega
        rw [hmore, Nat.mul_add_div hsize, Nat.add_comm 1]

/-- The bits of the groups: those that they were made of, and less than a group of zeros. -/
lemma flatMap_groups (bits : List Bool) :
    ∃ fill < size, (groups size bits).flatMap (bitsOf size) = bits ++ List.replicate fill false := by
  have hsize := NeZero.pos size
  fun_induction groups size bits with
  | case1 => exact ⟨0, hsize, rfl⟩
  | case2 b bits ih =>
      obtain ⟨fill, hfill, heq⟩ := ih
      have hbits : ∀ l : List Bool, l.length ≤ size →
          bitsOf size (ofBits (zeroFill size l)) = zeroFill size l := by
        intro l hl
        have hlength : (zeroFill size l).length = size := by
          simp only [zeroFill, List.length_append, List.length_replicate]
          omega
        have := bitsOf_ofBits (zeroFill size l)
        rwa [hlength] at this
      rw [List.flatMap_cons, heq, hbits _ (List.length_take_le _ _)]
      rcases Nat.lt_or_ge (b :: bits).length size with hlt | hge
      · -- the last group: what follows is empty
        have hdrop : (b :: bits).drop size = [] := List.drop_eq_nil_of_le hlt.le
        rw [hdrop, groups] at heq
        have hzero : fill = 0 := by
          have := congrArg List.length heq
          simpa using this.symm
        refine ⟨size - (b :: bits).length, by simp only [List.length_cons]; omega, ?_⟩
        rw [hdrop, hzero, List.take_of_length_le hlt.le]
        simp [zeroFill]
      · refine ⟨fill, hfill, ?_⟩
        have hfull : zeroFill size ((b :: bits).take size) = (b :: bits).take size := by
          rw [zeroFill, List.length_take, Nat.min_eq_left hge, Nat.sub_self, List.replicate_zero,
            List.append_nil]
        rw [hfull, ← List.append_assoc, List.take_append_drop]

lemma wholes_append {first : List Bool} (h : first.length = size) (rest : List Bool) :
    wholes size (first ++ rest) = ofBits first :: wholes size rest := by
  have hne := append_ne_nil size h rest
  obtain ⟨b, bits, heq⟩ := List.exists_cons_of_ne_nil hne
  have hle : size ≤ (b :: bits).length := by
    rw [← heq, List.length_append, h]
    omega
  rw [heq, wholes, if_pos hle, ← heq, List.take_left' h, List.drop_left' h]

lemma wholes_short {bits : List Bool} (h : bits.length < size) : wholes size bits = [] := by
  cases bits with
  | nil => rw [wholes]
  | cons b bits => rw [wholes, if_neg (by omega)]

/-- Numbers of the width that the groups have, with an incomplete group behind them. -/
lemma wholes_flatMap {ns : List Nat} (hns : ∀ n ∈ ns, n < 2 ^ size) {rest : List Bool}
    (hrest : rest.length < size) : wholes size (ns.flatMap (bitsOf size) ++ rest) = ns := by
  induction ns with
  | nil => exact wholes_short size hrest
  | cons n ns ih =>
      rw [List.flatMap_cons, List.append_assoc, wholes_append size (bitsOf_length size n),
        ofBits_bitsOf, Nat.mod_eq_of_lt (hns n List.mem_cons_self),
        ih fun m hm => hns m (List.mem_cons_of_mem n hm)]

/-- **Regrouping in smaller groups and back gives the numbers again.** -/
theorem wholes_groups {width : Nat} [NeZero width] (h : size ≤ width) {ns : List Nat}
    (hns : ∀ n ∈ ns, n < 2 ^ width) :
    wholes width ((groups size (ns.flatMap (bitsOf width))).flatMap (bitsOf size)) = ns := by
  obtain ⟨fill, hfill, heq⟩ := flatMap_groups size (ns.flatMap (bitsOf width))
  rw [heq]
  exact wholes_flatMap width hns (by rw [List.length_replicate]; omega)

end Groups

end Bits
