import PasswordVault.Auth.Totp
import PasswordVault.Library.Bits
import PasswordVault.Server.Encodings

/-!
# Base 32

`base32NoPadding` shifts bytes into a 16-bit register that is never masked, and takes five bits at a
time out of it.

* `rfcBase32`: the encoding over the bits of the whole input, without a register.
* `Register`: the loop between two bytes; `Register.denoted`, the bits that have gone out followed
  by those that are still to go.
* `base32_exact`: the output is the encoding, its length and its alphabet; it decodes to the input;
  and the register keeps every bit until it has gone out.
-/

namespace PasswordVault

namespace Totp

open Bits

/-! ## The encoding -/

/-- The bits of a byte string, most significant first. -/
def byteBits (bytes : Bytes) : List Bool := (bytes.map UInt8.toNat).flatMap (bitsOf 8)

lemma byteBits_length (bytes : Bytes) : (byteBits bytes).length = 8 * bytes.length := by
  induction bytes with
  | nil => rfl
  | cons b bytes ih =>
      rw [byteBits] at ih
      rw [byteBits, List.map_cons, List.flatMap_cons, List.length_append, bitsOf_length, ih,
        List.length_cons]
      omega

def ALPHABET : List Char := "ABCDEFGHIJKLMNOPQRSTUVWXYZ234567".toList

/-- Five bits a digit, the last digit filled with zeros. -/
def rfcBase32 (bytes : Bytes) : List Char :=
  (groups 5 (byteBits bytes)).map fun n => ALPHABET.getD n ' '

/-! ## Decoding -/

def base32Value (byte : UInt8) : Option Nat :=
  if 65 ≤ byte ∧ byte ≤ 90 then some (byte.toNat - 65)
  else if 97 ≤ byte ∧ byte ≤ 122 then some (byte.toNat - 97)
  else if 50 ≤ byte ∧ byte ≤ 55 then some (byte.toNat - 50 + 26)
  else none

/-- The loop of `decode_base32_no_padding`, with its 32-bit buffer. -/
def decodeBase32Loop (buffer bits : Nat) : Bytes → Option Bytes
  | [] => some []
  | byte :: rest =>
      match base32Value byte with
      | none => none
      | some value =>
          let buffer := (buffer * 32 + value) % 2 ^ 32
          let bits := bits + 5
          if 8 ≤ bits then
            (decodeBase32Loop buffer (bits - 8) rest).map
              (UInt8.ofNat (buffer / 2 ^ (bits - 8) % 256) :: ·)
          else decodeBase32Loop buffer bits rest

def decodeBase32NoPadding (value : String) : Option Bytes := decodeBase32Loop 0 0 (utf8Bytes value)

/-! ## The register -/

/-- The loop of `base32_no_padding` between two bytes. -/
structure Register where
  buffer : Nat
  bits : Nat
  output : List Char

def Register.shiftIn (r : Register) (byte : UInt8) : Register :=
  let buffer := (r.buffer * 256 + byte.toNat) % 2 ^ 16
  let drained := drainBits (r.bits + 8) buffer (r.bits + 8)
  ⟨buffer, drained.2, r.output ++ drained.1⟩

/-- The register when these bytes are shifted in. -/
def Register.after (bytes : Bytes) : Register := bytes.foldl Register.shiftIn ⟨0, 0, []⟩

/-- The bits of the digits that have gone out, and those that are still to go. -/
def Register.denoted (r : Register) : List Bool :=
  (r.output.flatMap fun c => bitsOf 5 ((base32Value (asciiByte c)).getD 0)) ++
    bitsOf r.bits r.buffer

lemma base32Char_alphabet : ∀ n < 32, base32Char n = ALPHABET.getD n ' ' := by decide

lemma base32Char_ascii : ∀ n < 32, (base32Char n).toNat < 128 := by decide

lemma base32Char_range : ∀ n < 32, ('A' ≤ base32Char n ∧ base32Char n ≤ 'Z') ∨
    ('2' ≤ base32Char n ∧ base32Char n ≤ '7') := by decide

lemma base32Value_base32Char : ∀ n < 32, base32Value (asciiByte (base32Char n)) = some n := by
  decide

lemma flatMap_base32Value {values : List Nat} (h : ∀ n ∈ values, n < 32) :
    ((values.map base32Char).flatMap fun c => bitsOf 5 ((base32Value (asciiByte c)).getD 0)) =
      values.flatMap (bitsOf 5) := by
  rw [List.flatMap_map]
  refine List.flatMap_congr fun n hn => ?_
  rw [base32Value_base32Char n (h n hn), Option.getD_some]

/-- The inner loop emits the upper bits of the register and leaves less than five. -/
lemma drainBits_spec {fuel bits : Nat} (buffer : Nat) (h : bits ≤ fuel) :
    ∃ values : List Nat, drainBits fuel buffer bits = (values.map base32Char, bits % 5) ∧
      (∀ n ∈ values, n < 32) ∧
      values.flatMap (bitsOf 5) ++ bitsOf (bits % 5) buffer = bitsOf bits buffer := by
  induction fuel generalizing bits with
  | zero =>
      obtain rfl : bits = 0 := by omega
      exact ⟨[], rfl, by simp, rfl⟩
  | succ fuel ih =>
      by_cases hbits : 5 ≤ bits
      · have hless : bits - 5 ≤ fuel := by omega
        obtain ⟨values, hdrain, hvalues, hjoin⟩ := ih hless
        have hmod : (bits - 5) % 5 = bits % 5 := by omega
        rw [hmod] at hdrain hjoin
        refine ⟨buffer / 2 ^ (bits - 5) % 32 :: values, ?_, ?_, ?_⟩
        · simp [drainBits, if_pos hbits, hdrain]
        · intro n hn
          rcases List.mem_cons.mp hn with rfl | hn
          · exact Nat.mod_lt _ (by decide)
          · exact hvalues n hn
        · have hsplit : bits = 5 + (bits - 5) := by omega
          rw [List.flatMap_cons, List.append_assoc, hjoin]
          conv_rhs => rw [hsplit, bitsOf_add]
          rw [show (32 : Nat) = 2 ^ 5 from rfl, bitsOf_mod (Nat.le_refl 5)]
      · have hmod : bits % 5 = bits := Nat.mod_eq_of_lt (by omega)
        exact ⟨[], by simp [drainBits, if_neg hbits, hmod], by simp, by simp [hmod]⟩

/-- A byte shifted in from below: with less than five bits before it, nothing that is still to go
leaves a register of 16 bits. -/
lemma shiftIn_pending {bits : Nat} (hbits : bits < 5) (buffer : Nat) (byte : UInt8) :
    bitsOf (bits + 8) ((buffer * 256 + byte.toNat) % 2 ^ 16) =
      bitsOf bits buffer ++ bitsOf 8 byte.toNat := by
  rw [bitsOf_mod (by omega), bitsOf_shift bits 8 buffer byte.toNat byte.toNat_lt]
  rfl

lemma Register.shiftIn_denoted {r : Register} (hbits : r.bits < 5) (byte : UInt8) :
    (r.shiftIn byte).bits < 5 ∧
      (r.shiftIn byte).denoted = r.denoted ++ bitsOf 8 byte.toNat := by
  obtain ⟨values, hdrain, hvalues, hjoin⟩ :=
    drainBits_spec ((r.buffer * 256 + byte.toNat) % 2 ^ 16) (Nat.le_refl (r.bits + 8))
  simp only [Register.shiftIn, Register.denoted, hdrain]
  refine ⟨Nat.mod_lt _ (by decide), ?_⟩
  rw [List.flatMap_append, flatMap_base32Value hvalues, List.append_assoc, hjoin,
    shiftIn_pending hbits, List.append_assoc]

lemma Register.after_append (bytes : Bytes) (byte : UInt8) :
    Register.after (bytes ++ [byte]) = (Register.after bytes).shiftIn byte := by
  simp [Register.after]

/-- Every bit that was shifted in has gone out or is in the register. -/
lemma Register.after_denoted (bytes : Bytes) :
    (Register.after bytes).bits < 5 ∧ (Register.after bytes).denoted = byteBits bytes := by
  induction bytes using List.reverseRecOn with
  | nil => exact ⟨by decide, rfl⟩
  | append_singleton bytes byte ih =>
      obtain ⟨hbits, hdenoted⟩ := Register.shiftIn_denoted ih.1 byte
      rw [Register.after_append]
      refine ⟨hbits, ?_⟩
      rw [hdenoted, ih.2]
      simp [byteBits]

/-- The loop goes on from the register. -/
lemma base32Loop_after (rest : Bytes) : ∀ consumed : Bytes,
    base32Loop 0 0 (consumed ++ rest) =
      (Register.after consumed).output ++
        base32Loop (Register.after consumed).buffer (Register.after consumed).bits rest := by
  intro consumed
  induction consumed using List.reverseRecOn generalizing rest with
  | nil => rfl
  | append_singleton consumed byte ih =>
      rw [List.append_assoc, List.singleton_append, ih, Register.after_append]
      simp only [base32Loop, Register.shiftIn, List.append_assoc]

/-! ## The output -/

lemma base32Loop_eq (bytes : Bytes) : ∀ {buffer bits : Nat}, bits < 5 →
    base32Loop buffer bits bytes =
      (groups 5 (bitsOf bits buffer ++ byteBits bytes)).map base32Char := by
  induction bytes with
  | nil =>
      intro buffer bits hbits
      simp only [base32Loop, byteBits, List.map_nil, List.flatMap_nil, List.append_nil]
      by_cases hpos : 0 < bits
      · -- the last digit: the bits that are left, filled with zeros
        have hne : bitsOf bits buffer ≠ [] := by
          intro hnil
          have hlength := congrArg List.length hnil
          simp only [bitsOf_length, List.length_nil] at hlength
          omega
        have hvalue : buffer * 2 ^ (5 - bits) % 2 ^ 16 % 32 =
            ofBits (zeroFill 5 (bitsOf bits buffer)) := by
          have hpow : (32 : Nat) = 2 ^ bits * 2 ^ (5 - bits) := by
            rw [← pow_add, Nat.add_sub_cancel' hbits.le]
            rfl
          rw [zeroFill, ofBits_append, ofBits_replicate_false, ofBits_bitsOf, bitsOf_length,
            List.length_replicate, Nat.add_zero, Nat.mod_mod_of_dvd _ (by decide), hpow,
            Nat.mul_mod_mul_right]
        rw [if_pos hpos, groups_short 5 hne (by rw [bitsOf_length]; exact hbits.le), hvalue]
        rfl
      · obtain rfl : bits = 0 := by omega
        rw [if_neg hpos, bitsOf, groups]
        rfl
  | cons byte bytes ih =>
      intro buffer bits hbits
      obtain ⟨values, hdrain, hvalues, hjoin⟩ :=
        drainBits_spec ((buffer * 256 + byte.toNat) % 2 ^ 16) (Nat.le_refl (bits + 8))
      have hbytes : bitsOf bits buffer ++ byteBits (byte :: bytes) =
          values.flatMap (bitsOf 5) ++
            (bitsOf ((bits + 8) % 5) ((buffer * 256 + byte.toNat) % 2 ^ 16) ++ byteBits bytes) := by
        rw [← List.append_assoc, hjoin, shiftIn_pending hbits]
        simp [byteBits]
      simp only [base32Loop, hdrain]
      rw [hbytes, groups_flatMap 5 hvalues, List.map_append, ih (Nat.mod_lt _ (by decide))]

lemma base32NoPadding_eq (bytes : Bytes) :
    base32NoPadding bytes = String.ofList ((groups 5 (byteBits bytes)).map base32Char) := by
  rw [base32NoPadding, base32Loop_eq bytes (by decide : 0 < 5)]
  rfl

lemma decodeBase32Loop_eq {values : List Nat} (hvalues : ∀ n ∈ values, n < 32) :
    ∀ {buffer bits : Nat}, bits < 8 →
      decodeBase32Loop buffer bits (values.map fun n => asciiByte (base32Char n)) =
        some ((wholes 8 (bitsOf bits buffer ++ values.flatMap (bitsOf 5))).map UInt8.ofNat) := by
  induction values with
  | nil =>
      intro buffer bits hbits
      rw [List.flatMap_nil, List.append_nil, wholes_short 8 (by rw [bitsOf_length]; exact hbits)]
      rfl
  | cons value values ih =>
      intro buffer bits hbits
      have hvalue := hvalues value List.mem_cons_self
      have hrest : ∀ n ∈ values, n < 32 := fun n hn => hvalues n (List.mem_cons_of_mem _ hn)
      generalize hnext : (buffer * 32 + value) % 2 ^ 32 = next
      have hshift : bitsOf bits buffer ++ bitsOf 5 value = bitsOf (bits + 5) next := by
        rw [← hnext, bitsOf_mod (by omega), bitsOf_shift bits 5 buffer value hvalue]
        rfl
      simp only [List.map_cons, decodeBase32Loop, base32Value_base32Char value hvalue, hnext,
        List.flatMap_cons]
      rw [← List.append_assoc, hshift]
      by_cases hfull : 8 ≤ bits + 5
      · have hsplit : bits + 5 = 8 + (bits + 5 - 8) := by omega
        rw [if_pos hfull, ih hrest (by omega)]
        conv_rhs => rw [hsplit, bitsOf_add, List.append_assoc, wholes_append 8 (bitsOf_length 8 _),
          ofBits_bitsOf]
        rfl
      · rw [if_neg hfull, ih hrest (by omega)]

lemma decode_base32NoPadding (bytes : Bytes) :
    decodeBase32NoPadding (base32NoPadding bytes) = some bytes := by
  have hlt := groups_lt 5 (byteBits bytes)
  have hbytes : ∀ n ∈ bytes.map UInt8.toNat, n < 2 ^ 8 := by
    intro n hn
    obtain ⟨b, -, rfl⟩ := List.mem_map.mp hn
    exact b.toNat_lt
  have hascii : ∀ c ∈ (groups 5 (byteBits bytes)).map base32Char, c.toNat < 128 := by
    intro c hc
    obtain ⟨n, hn, rfl⟩ := List.mem_map.mp hc
    exact base32Char_ascii n (hlt n hn)
  rw [decodeBase32NoPadding, base32NoPadding_eq, utf8Bytes_ascii hascii, List.map_map]
  refine (decodeBase32Loop_eq hlt (by decide : 0 < 8)).trans ?_
  rw [bitsOf, List.nil_append, byteBits, wholes_groups 5 (by decide) hbytes, List.map_map]
  have hround : UInt8.ofNat ∘ UInt8.toNat = id := funext fun b => UInt8.ofNat_toNat
  rw [hround, List.map_id]

/-- What `base32_no_padding` gives for a byte string. -/
structure Base32Exact (bytes : Bytes) : Prop where
  /-- The digits: as many as the bits take in fives, -/
  length : (base32NoPadding bytes).toList.length = (8 * bytes.length + 4) / 5
  alphabet : ∀ c ∈ (base32NoPadding bytes).toList, ('A' ≤ c ∧ c ≤ 'Z') ∨ ('2' ≤ c ∧ c ≤ '7')
  rfc : (base32NoPadding bytes).toList = rfcBase32 bytes
  decodes : decodeBase32NoPadding (base32NoPadding bytes) = some bytes
  /-- and, wherever the loop is in the input: what it has consumed has gone out or is among the
  lower bits of the register, from which it goes on. -/
  register : ∀ consumed rest, bytes = consumed ++ rest →
    (Register.after consumed).bits < 5 ∧
      (Register.after consumed).denoted = byteBits consumed ∧
      (base32NoPadding bytes).toList = (Register.after consumed).output ++
        base32Loop (Register.after consumed).buffer (Register.after consumed).bits rest

/-- **Base 32 is exact for every byte string.** -/
theorem base32_exact (bytes : Bytes) : Base32Exact bytes where
  length := by
    rw [base32NoPadding_eq, String.toList_ofList, List.length_map, groups_length, byteBits_length]
  alphabet c hc := by
    rw [base32NoPadding_eq, String.toList_ofList] at hc
    obtain ⟨n, hn, rfl⟩ := List.mem_map.mp hc
    exact base32Char_range n (groups_lt 5 _ n hn)
  rfc := by
    rw [base32NoPadding_eq, String.toList_ofList, rfcBase32]
    exact List.map_congr_left fun n hn => base32Char_alphabet n (groups_lt 5 _ n hn)
  decodes := decode_base32NoPadding bytes
  register consumed rest hbytes := by
    obtain ⟨hbits, hdenoted⟩ := Register.after_denoted consumed
    refine ⟨hbits, hdenoted, ?_⟩
    rw [base32NoPadding, String.toList_ofList, hbytes, base32Loop_after rest consumed]

end Totp

end PasswordVault
