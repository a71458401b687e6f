import Mathlib.Data.List.ReduceOption
import Mathlib.Order.Bounds.Basic
import PasswordVault.Auth.Totp
import PasswordVault.Server.Encodings
import PasswordVault.Server.Standard

/-!
# What TOTP accepts

* `hotpValue`, `stepCode`: the value and the code of a step, once the digits are valid.
* `CodeShape`: as many ASCII digits as the profile asks for.
* `window`: the steps next to a time, within 64 bits.
* `verify_exact`: an accepted step is the least one of the window that is not burned and has the
  submitted code.
-/

namespace PasswordVault

namespace Totp

variable {P : Platform} {seed : Bytes} {profile : TotpProfile} {last : Option Nat}

/-! ## Codes -/

/-- The digest of a step. -/
def stepDigest (P : Platform) (seed : Bytes) (algorithm : TotpAlgorithm) (step : Nat) : Bytes :=
  hmacDigest P algorithm seed (toBeBytes 8 step)

/-- The place in a digest from which four bytes are read. -/
def truncationOffset (digest : Bytes) : Nat := (digest.getD (digest.length - 1) 0).toNat % 16

def hotpValue (P : Platform) (seed : Bytes) (profile : TotpProfile) (step : Nat) : Nat :=
  let digest := stepDigest P seed profile.algorithm step
  let byte := fun i => (digest.getD (truncationOffset digest + i) 0).toNat
  (byte 0 % 128 * 2 ^ 24 + byte 1 * 2 ^ 16 + byte 2 * 2 ^ 8 + byte 3) % 10 ^ profile.digits

def stepCode (P : Platform) (seed : Bytes) (profile : TotpProfile) (step : Nat) : String :=
  formatCode (hotpValue P seed profile step) profile.digits

/-- A profile and a seed that are accepted. -/
structure Valid (seed : Bytes) (profile : TotpProfile) : Prop where
  digits : profile.digits = 6 ∨ profile.digits = 8
  period : 0 < profile.periodSeconds
  seed : MIN_SEED_BYTES ≤ seed.length

lemma hmacDigest_length (P : Platform) (seed : Bytes) (algorithm : TotpAlgorithm) (data : Bytes) :
    20 ≤ (hmacDigest P algorithm seed data).length := by
  cases algorithm with
  | sha1 => rw [hmacDigest, P.hmacSha1_length]
  | sha256 => rw [hmacDigest, P.hmacSha256_length]; decide
  | sha512 => rw [hmacDigest, P.hmacSha512_length]; decide

lemma Valid.hotp_eq (h : Valid seed profile) (step : Nat) :
    hotp P seed step profile.algorithm profile.digits = .ok (hotpValue P seed profile step) := by
  rw [hotp, validateDigits, if_pos h.digits]
  rfl

lemma Valid.validateProfile_eq (h : Valid seed profile) : validateProfile profile = .ok () := by
  rw [validateProfile, validateDigits, if_pos h.digits]
  exact if_neg (Nat.ne_of_gt h.period)

lemma Valid.validateSeed_eq (h : Valid seed profile) : validateSeed seed = .ok () :=
  if_neg (Nat.not_lt.mpr h.seed)

lemma Valid.timeStep_eq (h : Valid seed profile) (time : Nat) :
    timeStep time profile.periodSeconds = .ok (time / profile.periodSeconds) :=
  if_neg (Nat.ne_of_gt h.period)

lemma Valid.generate_eq (h : Valid seed profile) (time : Nat) :
    generate P seed time profile = .ok (stepCode P seed profile (time / profile.periodSeconds)) := by
  rw [generate, h.validateProfile_eq, h.validateSeed_eq, h.timeStep_eq]
  simp only [bind, Except.bind, h.hotp_eq]
  rfl

/-- As many ASCII digits as the profile asks for. -/
def CodeShape (profile : TotpProfile) (code : String) : Prop :=
  code.toList.length = profile.digits ∧ ∀ c ∈ code.toList, c.isDigit = true

lemma isDigit_iff (c : Char) : c.isDigit = true ↔ 48 ≤ c.toNat ∧ c.toNat ≤ 57 := by
  simp only [Char.isDigit, Bool.and_eq_true, decide_eq_true_eq, ge_iff_le,
    UInt32.le_iff_toNat_le]
  exact Iff.rfl

lemma isAsciiDigit_iff (b : UInt8) : isAsciiDigit b = true ↔ 48 ≤ b.toNat ∧ b.toNat ≤ 57 := by
  simp only [isAsciiDigit, Bool.and_eq_true, decide_eq_true_eq, UInt8.le_iff_toNat_le]
  exact Iff.rfl

/-- The check of a code, which counts bytes, is the check of its characters. -/
lemma codeShape_iff (code : String) :
    byteLen code = profile.digits ∧ (utf8Bytes code).all isAsciiDigit = true ↔
      CodeShape profile code := by
  obtain ⟨cs, rfl⟩ : ∃ cs, code = String.ofList cs := ⟨code.toList, by simp⟩
  simp only [CodeShape, byteLen, String.toList_ofList, List.all_eq_true, isAsciiDigit_iff,
    isDigit_iff]
  constructor
  · rintro ⟨hlength, hdigits⟩
    have hascii := ascii_of_utf8Bytes fun b hb => (hdigits b hb).2.trans_lt (by decide : 57 < 128)
    rw [utf8Bytes_ascii hascii] at hlength hdigits
    rw [List.length_map] at hlength
    refine ⟨hlength, fun c hc => ?_⟩
    have hbyte := hdigits _ (List.mem_map_of_mem hc)
    have hc' := hascii c hc
    rwa [asciiByte, UInt8.toNat_ofNat', Nat.mod_eq_of_lt (by omega)] at hbyte
  · rintro ⟨hlength, hdigits⟩
    rw [utf8Bytes_ascii fun c hc => (hdigits c hc).2.trans_lt (by decide : 57 < 128)]
    refine ⟨by rw [List.length_map, hlength], fun b hb => ?_⟩
    obtain ⟨c, hc, rfl⟩ := List.mem_map.mp hb
    have hc' := hdigits c hc
    rwa [asciiByte, UInt8.toNat_ofNat', Nat.mod_eq_of_lt (by omega)]

lemma validateCode_eq (code : String) [Decidable (CodeShape profile code)] :
    validateCode code profile.digits =
      if CodeShape profile code then .ok () else .error .invalidCode := by
  unfold validateCode
  exact if_congr (codeShape_iff code) rfl rfl

lemma hotpValue_lt (P : Platform) (seed : Bytes) (profile : TotpProfile) (step : Nat) :
    hotpValue P seed profile step < 10 ^ profile.digits :=
  Nat.mod_lt _ (Nat.pow_pos (by decide))

/-- A code has the shape that is asked for: the zeros fill it up and it is never too long. -/
lemma Valid.stepCode_shape (h : Valid seed profile) (step : Nat) :
    CodeShape profile (stepCode P seed profile step) := by
  have hpos : 0 < profile.digits := by
    rcases h.digits with hd | hd <;> rw [hd] <;> decide
  have hle := (Nat.length_toDigits_le_iff (by decide) hpos).mpr
    (hotpValue_lt P seed profile step)
  rw [CodeShape, stepCode, formatCode, String.toList_ofList, Nat.toString_eq_ofList_toDigits,
    String.toList_ofList]
  refine ⟨by rw [List.length_append, List.length_replicate]; omega, fun c hc => ?_⟩
  rcases List.mem_append.mp hc with hzero | hdigit
  · rw [(List.mem_replicate.mp hzero).2]
    rfl
  · exact Nat.isDigit_of_mem_toDigits (by decide) (by decide) hdigit

/-! ## The window -/

/-- The steps next to the one of a time, within 64 bits. -/
def window (profile : TotpProfile) (time : Nat) : Set Nat :=
  {step | (step + 1 = time / profile.periodSeconds ∨ step = time / profile.periodSeconds ∨
    step = time / profile.periodSeconds + 1) ∧ step < 2 ^ 64}

/-- The steps that may be accepted. -/
def acceptable (P : Platform) (seed : Bytes) (profile : TotpProfile) (last : Option Nat)
    (time : Nat) (code : String) : Set Nat :=
  {step | step ∈ window profile time ∧ (∀ l, last = some l → l < step) ∧
    stepCode P seed profile step = code}

def candidates (profile : TotpProfile) (time : Nat) : List Nat :=
  [checkedSub (time / profile.periodSeconds) 1, some (time / profile.periodSeconds),
    checkedAdd (time / profile.periodSeconds) 1].reduceOption

lemma mem_candidates {time step : Nat} (htime : time < 2 ^ 64) :
    step ∈ candidates profile time ↔ step ∈ window profile time := by
  have hstep : time / profile.periodSeconds < 2 ^ 64 := (Nat.div_le_self _ _).trans_lt htime
  simp only [candidates, List.reduceOption_mem_iff, List.mem_cons, List.not_mem_nil, or_false,
    checkedSub, checkedAdd, Option.ite_none_right_eq_some, Option.some.injEq, window,
    Set.mem_ofPred_eq, eq_comm (a := some step)]
  omega

lemma candidates_sorted (time : Nat) : (candidates profile time).Pairwise (· < ·) := by
  unfold candidates checkedSub checkedAdd
  generalize time / profile.periodSeconds = step
  split
  · split
    · simp [List.reduceOption]
      omega
    · simp [List.reduceOption]
      omega
  · split
    · simp [List.reduceOption]
    · simp [List.reduceOption]

/-- The first element of a sorted list that passes is the least one. -/
lemma find?_isLeast {xs : List Nat} {p : Nat → Bool} {x : Nat} (hxs : xs.Pairwise (· < ·)) :
    xs.find? p = some x ↔ IsLeast {y | y ∈ xs ∧ p y = true} x := by
  induction xs with
  | nil => simp [IsLeast]
  | cons y ys ih =>
      have hle : ∀ {z}, z ∈ ys → y < z := fun hz => List.rel_of_pairwise_cons hxs hz
      by_cases hy : p y = true
      · rw [List.find?_cons_of_pos hy, Option.some.injEq]
        constructor
        · rintro rfl
          refine ⟨⟨List.mem_cons_self, hy⟩, fun z hz => ?_⟩
          rcases List.mem_cons.mp hz.1 with rfl | hz
          · exact le_rfl
          · exact (hle hz).le
        · rintro ⟨⟨hx, -⟩, hleast⟩
          have hxy := hleast ⟨List.mem_cons_self, hy⟩
          rcases List.mem_cons.mp hx with rfl | hx
          · rfl
          · exact absurd (hle hx) (Nat.not_lt.mpr hxy)
      · rw [List.find?_cons_of_neg hy, ih hxs.of_cons]
        have hset : {z | z ∈ y :: ys ∧ p z = true} = {z | z ∈ ys ∧ p z = true} := by
          ext z
          simp only [Set.mem_ofPred_eq, List.mem_cons]
          constructor
          · rintro ⟨rfl | hz, hpz⟩
            · exact absurd hpz hy
            · exact ⟨hz, hpz⟩
          · rintro ⟨hz, hpz⟩
            exact ⟨.inr hz, hpz⟩
        rw [hset]

/-! ## The loop over the candidates -/

/-- The loop accepts a step. -/
def passes (P : Platform) (seed : Bytes) (code : String) (profile : TotpProfile)
    (last : Option Nat) (step : Nat) : Bool :=
  !(last.any fun l => step ≤ l) && decide (stepCode P seed profile step = code)

lemma passes_iff {code : String} {step : Nat} :
    passes P seed code profile last step = true ↔
      (∀ l, last = some l → l < step) ∧ stepCode P seed profile step = code := by
  cases last with
  | none => simp [passes]
  | some l => simp [passes]

/-- A step that is not burned. -/
lemma tryCandidates_step {code : String} {step value : Nat} (steps : List Nat)
    (hvalue : hotp P seed step profile.algorithm profile.digits = .ok value)
    (hlast : ¬ (last.any fun l => decide (step ≤ l)) = true) :
    tryCandidates P seed code profile last (step :: steps) =
      if formatCode value profile.digits = code then .ok (some step)
      else tryCandidates P seed code profile last steps := by
  rw [tryCandidates, if_neg hlast, hvalue]
  simp only [bind, Except.bind]

lemma stepCode_eq (step : Nat) : stepCode P seed profile step =
    formatCode (hotpValue P seed profile step) profile.digits := rfl

lemma Valid.tryCandidates_eq (h : Valid seed profile) (code : String) (steps : List Nat) :
    tryCandidates P seed code profile last steps =
      .ok (steps.find? (passes P seed code profile last)) := by
  induction steps with
  | nil => rfl
  | cons step steps ih =>
      by_cases hlast : (last.any fun l => decide (step ≤ l)) = true
      · have hfail : ¬ passes P seed code profile last step = true := by simp [passes, hlast]
        rw [tryCandidates, if_pos hlast, ih, List.find?_cons_of_neg hfail]
      · rw [tryCandidates_step steps (h.hotp_eq step) hlast, ← stepCode_eq]
        by_cases hcode : stepCode P seed profile step = code
        · have hpass : passes P seed code profile last step = true := by
            simp only [passes, hcode, decide_true, Bool.and_true, Bool.not_eq_true']
            exact Bool.eq_false_iff.mpr hlast
          rw [if_pos hcode, List.find?_cons_of_pos hpass]
        · have hfail : ¬ passes P seed code profile last step = true := by simp [passes, hcode]
          rw [if_neg hcode, ih, List.find?_cons_of_neg hfail]

/-- `verify` on valid input: the check of the code, and then the search. -/
lemma Valid.verify_eq (h : Valid seed profile) (time : Nat) (code : String)
    [Decidable (CodeShape profile code)] :
    verify P seed time code profile last =
      if CodeShape profile code then
        .ok ((candidates profile time).find? (passes P seed code profile last))
      else .error .invalidCode := by
  rw [verify, h.validateProfile_eq, h.validateSeed_eq, validateCode_eq, h.timeStep_eq]
  by_cases hshape : CodeShape profile code
  · rw [if_pos hshape, if_pos hshape]
    exact h.tryCandidates_eq code _
  · rw [if_neg hshape, if_neg hshape]
    rfl

/-- What TOTP does with a valid profile and seed at a time. -/
structure VerifyExact (P : Platform) (seed : Bytes) (profile : TotpProfile) (time : Nat)
    (last : Option Nat) (code : String) : Prop where
  /-- The accepted step is the least one that may be accepted, -/
  accepts : ∀ step, verify P seed time code profile last = .ok (some step) ↔
    IsLeast (acceptable P seed profile last time code) step
  /-- a code of another shape is an error, -/
  invalid : verify P seed time code profile last = .error .invalidCode ↔
    ¬ CodeShape profile code
  /-- and everything else is not accepted. -/
  rejects : verify P seed time code profile last = .ok none ↔
    CodeShape profile code ∧ acceptable P seed profile last time code = ∅
  /-- `generate` gives the code of the step, which has the shape that is asked for. -/
  generates : ∀ time', generate P seed time' profile =
    .ok (stepCode P seed profile (time' / profile.periodSeconds))
  shape : ∀ step, CodeShape profile (stepCode P seed profile step)
  /-- The four bytes of a code are in the digest, and so is the byte that says where they are. -/
  inRange : ∀ step, 0 < (stepDigest P seed profile.algorithm step).length ∧
    truncationOffset (stepDigest P seed profile.algorithm step) + 3 <
      (stepDigest P seed profile.algorithm step).length
  /-- A code that was generated in an adjacent step is accepted unless its step is burned. -/
  adjacent : ∀ time' < 2 ^ 64, generate P seed time' profile = .ok code →
    time' / profile.periodSeconds ≤ time / profile.periodSeconds + 1 →
    time / profile.periodSeconds ≤ time' / profile.periodSeconds + 1 →
    (∀ l, last = some l → l < time' / profile.periodSeconds) →
    ∃ step, verify P seed time code profile last = .ok (some step)

lemma acceptable_eq {time : Nat} (htime : time < 2 ^ 64) (code : String) :
    acceptable P seed profile last time code =
      {step | step ∈ candidates profile time ∧ passes P seed code profile last step = true} := by
  ext step
  simp only [acceptable, Set.mem_ofPred_eq, mem_candidates htime, passes_iff]

/-- **TOTP verification is exact.** For every valid profile and seed, 64-bit time, last accepted
step and code. -/
theorem verify_exact (h : Valid seed profile) (time : UInt64) (code : String) :
    VerifyExact P seed profile time.toNat last code := by
  classical
  have htime : time.toNat < 2 ^ 64 := time.toNat_lt
  have hshape : ∀ step, stepCode P seed profile step = code → CodeShape profile code :=
    fun step hstep => hstep ▸ h.stepCode_shape step
  have haccepts : ∀ step, verify P seed time.toNat code profile last = .ok (some step) ↔
      IsLeast (acceptable P seed profile last time.toNat code) step := by
    intro step
    rw [h.verify_eq, acceptable_eq htime, ← find?_isLeast (candidates_sorted time.toNat)]
    by_cases hcode : CodeShape profile code
    · rw [if_pos hcode, Except.ok.injEq]
    · rw [if_neg hcode]
      constructor
      · simp
      · intro hfind
        have hpass := passes_iff.mp (List.find?_some hfind)
        exact absurd (hshape step hpass.2) hcode
  refine ⟨haccepts, ?_, ?_, h.generate_eq, h.stepCode_shape, ?_, ?_⟩
  · rw [h.verify_eq]
    by_cases hcode : CodeShape profile code <;> simp [hcode]
  · rw [h.verify_eq, acceptable_eq htime]
    by_cases hcode : CodeShape profile code
    · simp [hcode, Set.eq_empty_iff_forall_notMem]
    · simp [hcode]
  · intro step
    have hlength := hmacDigest_length P seed profile.algorithm (toBeBytes 8 step)
    have hoffset : truncationOffset (stepDigest P seed profile.algorithm step) < 16 :=
      Nat.mod_lt _ (by decide)
    rw [stepDigest] at *
    omega
  · intro time' htime' hgenerate hle hge hlast
    rw [h.generate_eq, Except.ok.injEq] at hgenerate
    have hstep : time' / profile.periodSeconds < 2 ^ 64 := (Nat.div_le_self _ _).trans_lt htime'
    -- the step of the code may be accepted, so there is a least one that may
    have hmem : time' / profile.periodSeconds ∈
        acceptable P seed profile last time.toNat code := by
      refine ⟨⟨?_, hstep⟩, hlast, hgenerate⟩
      omega
    have hsome : ∃ step, step ∈ acceptable P seed profile last time.toNat code := ⟨_, hmem⟩
    exact ⟨_, (haccepts _).mpr ⟨Nat.find_spec hsome, fun step hs => Nat.find_min' hsome hs⟩⟩

/-- A vector of RFC 6238: eight digits at second 59. -/
theorem verify_exact_rfc : VerifyExact standard (utf8Bytes "12345678901234567890")
    ⟨.sha1, 8, 30⟩ (59 : UInt64).toNat none "94287082" :=
  verify_exact ⟨.inr rfl, by decide, by decide⟩ 59 "94287082"

end Totp

end PasswordVault
