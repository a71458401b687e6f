import Mathlib.Tactic.Ring
import PasswordVault.Library.Regex
import PasswordVault.Server.Encodings
import PasswordVault.Server.Schema

/-!
# Maintenance

The cleanup of synthetic accounts, which operators run with a prefix and a domain of their own.

* `SyntheticCleanupOptions.new`, `fromEnv`: the checks of the options, and the arithmetic of the
  cutoff, which may panic.
* `cleanupSyntheticAccounts`: the two statements of a cleanup.
* `new_returns_iff`: when the options do not panic.
* `cleanup_safe`: what a cleanup deletes.
-/

namespace PasswordVault

namespace Maintenance

open Transactions

/-! ## Times -/

/-- Days from the first day of the first year to the first day of a year. -/
def daysToYear (year : Int) : Int :=
  365 * (year - 1) + (year - 1) / 4 - (year - 1) / 100 + (year - 1) / 400

/-- The first and the last instant that an `OffsetDateTime` holds: the years -9999 to 9999. -/
def earliest : Time := hours (24 * (daysToYear (-9999) - daysToYear 1970))
def latest : Time := hours (24 * (daysToYear 10000 - daysToYear 1970)) - 1

structure OffsetDateTime where
  time : Time
  earliest_le : earliest ≤ time
  le_latest : time ≤ latest

/-- `Duration::hours`, which panics when the seconds leave 64 bits. -/
def durationHours (n : Int64) : Option Time :=
  if n.toInt * 3600 < 2 ^ 63 ∧ -2 ^ 63 ≤ n.toInt * 3600 then some (hours n.toInt) else none

/-- `OffsetDateTime - Duration`, which panics outside of the years that it holds. -/
def OffsetDateTime.sub (t : OffsetDateTime) (d : Time) : Option OffsetDateTime :=
  if h : earliest ≤ t.time - d ∧ t.time - d ≤ latest then some ⟨t.time - d, h.1, h.2⟩ else none

/-! ## Options -/

def DEFAULT_SYNTHETIC_CLEANUP_PREFIX : String := "synthetic"
def DEFAULT_SYNTHETIC_CLEANUP_DOMAIN : String := "loadtest.invalid"
def DEFAULT_SYNTHETIC_CLEANUP_MIN_AGE_HOURS : Int64 := 24
def DEFAULT_SYNTHETIC_CLEANUP_MAX_DELETE : Int64 := 100

structure SyntheticCleanupOptions where
  handlePrefix : String
  domain : String
  cutoff : OffsetDateTime
  dryRun : Bool
  maxDelete : Int64

inductive SyntheticCleanupError where
  | invalidConfig (message : String)
  | database

/-- What a call gives, or a panic. -/
inductive Outcome (α : Type) where
  | ok (a : α)
  | err (e : SyntheticCleanupError)
  | panicked

def Outcome.ofExcept {α β : Type} (x : Except SyntheticCleanupError α) (next : α → Outcome β) :
    Outcome β :=
  match x with
  | .ok a => next a
  | .error e => .err e

/-- `.unwrap`, `.expect` or an operator that panics. -/
def Outcome.ofOption {α β : Type} (x : Option α) (next : α → Outcome β) : Outcome β :=
  match x with
  | some a => next a
  | none => .panicked

def isLabelByte (b : UInt8) : Bool :=
  (97 ≤ b && b ≤ 122) || (48 ≤ b && b ≤ 57) || b == 46 || b == 45

def validatePrefix (value : String) : Except SyntheticCleanupError Unit :=
  if value = "" ∨ 32 < byteLen value ∨ !(utf8Bytes value).all isLabelByte then
    .error (.invalidConfig "synthetic cleanup prefix must be a lowercase safe label")
  else .ok ()

def validateDomain (value : String) : Except SyntheticCleanupError Unit :=
  if value = "" ∨ 80 < byteLen value ∨ ¬ ".invalid".toList <:+ value.toList ∨
      value.toList.head? = some '.' ∨ "..".toList <:+: value.toList ∨
      !(utf8Bytes value).all isLabelByte then
    .error (.invalidConfig "synthetic cleanup domain must be a safe .invalid domain")
  else .ok ()

/-- `SyntheticCleanupOptions::new` at a reading of the clock. -/
def SyntheticCleanupOptions.new (now : OffsetDateTime) (handlePrefix domain : String)
    (minAgeHours : Int64) (dryRun : Bool) (maxDelete : Int64) : Outcome SyntheticCleanupOptions :=
  .ofExcept (validatePrefix handlePrefix) fun _ =>
    .ofExcept (validateDomain domain) fun _ =>
      if minAgeHours < 1 then
        .err (.invalidConfig "synthetic cleanup min age must be at least 1 hour")
      else if maxDelete < 1 then
        .err (.invalidConfig "synthetic cleanup max delete must be at least 1")
      else
        .ofOption (durationHours minAgeHours) fun age =>
          .ofOption (now.sub age) fun cutoff => .ok ⟨handlePrefix, domain, cutoff, dryRun, maxDelete⟩

/-- `str::parse::<i64>`. -/
def parseI64 (text : List Char) : Option Int64 :=
  let negative := text.head? = some '-'
  let digits := if negative ∨ text.head? = some '+' then text.drop 1 else text
  if digits = [] ∨ ¬ digits.all Char.isDigit then none
  else
    let n : Int := Nat.ofDigitChars 10 digits 0
    let n := if negative then -n else n
    if -2 ^ 63 ≤ n ∧ n < 2 ^ 63 then some (Int64.ofInt n) else none

def parseI64Env (env : String → Option String) (name : String) (defaultValue : Int64) :
    Except SyntheticCleanupError Int64 :=
  match env name with
  | some value =>
      if trim value = "" then .ok defaultValue
      else match parseI64 (trimChars value.toList) with
        | some n => .ok n
        | none => .error (.invalidConfig "synthetic cleanup env value must be an integer")
  | none => .ok defaultValue

/-- `SyntheticCleanupOptions::from_env`, with the environment and `str::to_lowercase`. -/
def SyntheticCleanupOptions.fromEnv (env : String → Option String) (toLowercase : String → String)
    (now : OffsetDateTime) (dryRun : Bool) : Outcome SyntheticCleanupOptions :=
  let text := fun name defaultValue =>
    toLowercase (trim (((env name).filter fun value => trim value != "").getD defaultValue))
  let handlePrefix := text "PV_SYNTHETIC_CLEANUP_PREFIX" DEFAULT_SYNTHETIC_CLEANUP_PREFIX
  let domain := text "PV_SYNTHETIC_CLEANUP_DOMAIN" DEFAULT_SYNTHETIC_CLEANUP_DOMAIN
  .ofExcept (parseI64Env env "PV_SYNTHETIC_CLEANUP_MIN_AGE_HOURS"
      DEFAULT_SYNTHETIC_CLEANUP_MIN_AGE_HOURS) fun minAgeHours =>
    .ofExcept (parseI64Env env "PV_SYNTHETIC_CLEANUP_MAX_DELETE"
        DEFAULT_SYNTHETIC_CLEANUP_MAX_DELETE) fun maxDelete =>
      SyntheticCleanupOptions.new now handlePrefix domain minAgeHours dryRun maxDelete

/-! ## The statements -/

/-- An account with the time of its creation. -/
structure AccountRow where
  account : Account
  createdAt : Time

def AccountRow.id (row : AccountRow) : Uuid := row.account.id

abbrev AccountTable := Rows Uuid AccountRow AccountRow.id

structure SyntheticCleanupReport where
  matched : Nat
  deleted : Nat
  dryRun : Bool
  maxDelete : Int64

def postgresRegexLiteral (value : String) : String :=
  String.ofList (value.toList.flatMap fun c => if c = '.' then ['\\', '.'] else [c])

def SyntheticCleanupOptions.regexPattern (options : SyntheticCleanupOptions) : String :=
  "^" ++ postgresRegexLiteral options.handlePrefix ++ "-[a-z0-9._-]+@" ++
    postgresRegexLiteral options.domain ++ "$"

/-- How the database orders rows by `created_at`: rows of one time may come in any order. -/
structure CreatedAtOrder where
  sort : List AccountRow → List AccountRow
  perm : ∀ rows, (sort rows).Perm rows
  sorted : ∀ rows, (sort rows).Pairwise fun a b => a.createdAt ≤ b.createdAt

/-- The rows that the condition of both statements selects; a pattern that cannot be read is an
error of the database. -/
def selectMatching (options : SyntheticCleanupOptions) (accounts : AccountTable) :
    Except SyntheticCleanupError (List AccountRow) :=
  match Regex.parse options.regexPattern.toList with
  | none => .error .database
  | some pattern =>
      .ok (accounts.list.filter fun row =>
        Regex.isMatch pattern row.account.loginHandleNormalized.toList &&
          decide (row.createdAt < options.cutoff.time))

/-- The report of a cleanup with the rows that it has deleted. The first statement counts in one
table, and the second one, which deletes, sees another; `isThere` says which of its rows are still
there when it comes to them. -/
def cleanupSyntheticAccounts (order : CreatedAtOrder) (counted accounts : AccountTable)
    (isThere : Uuid → Bool) (options : SyntheticCleanupOptions) :
    Except SyntheticCleanupError (SyntheticCleanupReport × List AccountRow) := do
  let rows ← selectMatching options counted
  let matched := rows.length
  if options.dryRun then .ok (⟨matched, 0, true, options.maxDelete⟩, [])
  else do
    let rows ← selectMatching options accounts
    let candidates := (order.sort rows).take options.maxDelete.toInt.toNat
    let deleted := accounts.list.filter fun row =>
      (candidates.map AccountRow.id).contains row.id && isThere row.id
    .ok (⟨matched, deleted.length, false, options.maxDelete⟩, deleted)

/-! ## When the options panic -/

/-- The values that the checks refuse. -/
def Refused (handlePrefix domain : String) (minAgeHours maxDelete : Int64) : Prop :=
  validatePrefix handlePrefix ≠ .ok () ∨ validateDomain domain ≠ .ok () ∨ minAgeHours < 1 ∨
    maxDelete < 1

lemma Outcome.ofExcept_unit {β : Type} {x : Except SyntheticCleanupError Unit} {b : Outcome β}
    (h : x ≠ .ok ()) : ∃ e, x = .error e ∧ Outcome.ofExcept x (fun _ => b) = .err e := by
  cases x with
  | ok u => exact absurd rfl h
  | error e => exact ⟨e, rfl, rfl⟩

lemma validatePrefix_error {value : String} {e : SyntheticCleanupError}
    (h : validatePrefix value = .error e) : ∃ message, e = .invalidConfig message := by
  unfold validatePrefix at h
  split at h
  · exact ⟨_, (Except.error.inj h).symm⟩
  · cases h

lemma validateDomain_error {value : String} {e : SyntheticCleanupError}
    (h : validateDomain value = .error e) : ∃ message, e = .invalidConfig message := by
  unfold validateDomain at h
  split at h
  · exact ⟨_, (Except.error.inj h).symm⟩
  · cases h

/-- The call returns options or `InvalidConfig`. -/
def Returns (x : Outcome SyntheticCleanupOptions) : Prop :=
  (∃ options, x = .ok options) ∨ ∃ message, x = .err (.invalidConfig message)

/-- What is refused is an `InvalidConfig`. -/
lemma returns_of_refused (now : OffsetDateTime) {handlePrefix domain : String}
    {minAgeHours maxDelete : Int64} (dryRun : Bool)
    (h : Refused handlePrefix domain minAgeHours maxDelete) :
    Returns (SyntheticCleanupOptions.new now handlePrefix domain minAgeHours dryRun maxDelete) := by
  unfold SyntheticCleanupOptions.new
  by_cases hp : validatePrefix handlePrefix = .ok ()
  · by_cases hd : validateDomain domain = .ok ()
    · simp only [hp, hd, Outcome.ofExcept]
      by_cases hage : minAgeHours < 1
      · exact .inr ⟨_, if_pos hage⟩
      · have hmax : maxDelete < 1 := by
          rcases h with h | h | h | h
          · exact absurd hp h
          · exact absurd hd h
          · exact absurd h hage
          · exact h
        rw [if_neg hage, if_pos hmax]
        exact .inr ⟨_, rfl⟩
    · simp only [hp, Outcome.ofExcept]
      cases hx : validateDomain domain with
      | ok u => exact absurd hx hd
      | error e =>
          obtain ⟨message, rfl⟩ := validateDomain_error hx
          exact .inr ⟨message, rfl⟩
  · cases hx : validatePrefix handlePrefix with
    | ok u => exact absurd hx hp
    | error e =>
        obtain ⟨message, rfl⟩ := validatePrefix_error hx
        exact .inr ⟨message, rfl⟩

/-- What passes the checks comes to the arithmetic. -/
lemma new_of_not_refused (now : OffsetDateTime) {handlePrefix domain : String}
    {minAgeHours maxDelete : Int64} (dryRun : Bool)
    (h : ¬ Refused handlePrefix domain minAgeHours maxDelete) :
    SyntheticCleanupOptions.new now handlePrefix domain minAgeHours dryRun maxDelete =
      .ofOption (durationHours minAgeHours) fun age =>
        .ofOption (now.sub age) fun cutoff =>
          .ok ⟨handlePrefix, domain, cutoff, dryRun, maxDelete⟩ := by
  simp only [Refused, ne_eq, not_or, not_not] at h
  obtain ⟨hp, hd, hage, hmax⟩ := h
  unfold SyntheticCleanupOptions.new
  rw [hp, hd]
  simp only [Outcome.ofExcept, if_neg hage, if_neg hmax]

lemma one_le_of_not_lt {n : Int64} (h : ¬ n < 1) : 1 ≤ n.toInt := by
  rw [Int64.lt_iff_toInt_lt] at h
  exact Int.not_lt.mp h

/-- **The options are made without a panic exactly** where the checks refuse them or the cutoff is a
time that can be held. For all texts, all 64-bit integers and every reading of the clock. -/
theorem new_returns_iff (now : OffsetDateTime) (handlePrefix domain : String)
    (minAgeHours : Int64) (dryRun : Bool) (maxDelete : Int64) :
    Returns (SyntheticCleanupOptions.new now handlePrefix domain minAgeHours dryRun maxDelete) ↔
      Refused handlePrefix domain minAgeHours maxDelete ∨
        earliest ≤ now.time - hours minAgeHours.toInt := by
  by_cases hrefused : Refused handlePrefix domain minAgeHours maxDelete
  · exact iff_of_true (returns_of_refused now dryRun hrefused) (.inl hrefused)
  rw [new_of_not_refused now dryRun hrefused]
  have hage : 1 ≤ minAgeHours.toInt := by
    simp only [Refused, not_or] at hrefused
    exact one_le_of_not_lt hrefused.2.2.1
  have hnow := now.le_latest
  have hlatest : latest ≤ 2 ^ 63 := by decide
  have hearliest : -2 ^ 63 ≤ earliest := by decide
  have hhours : hours minAgeHours.toInt = minAgeHours.toInt * 3600000000 := by
    simp only [hours, minutes, seconds]
    ring
  constructor
  · intro hreturns
    refine .inr ?_
    by_contra hlt
    -- one of the two operations panics
    have hpanic : (Outcome.ofOption (durationHours minAgeHours) fun age =>
        Outcome.ofOption (now.sub age) fun cutoff =>
          Outcome.ok (SyntheticCleanupOptions.mk handlePrefix domain cutoff dryRun maxDelete)) =
        .panicked := by
      cases hduration : durationHours minAgeHours with
      | none => rfl
      | some age =>
          have hsome : hours minAgeHours.toInt = age := by
            unfold durationHours at hduration
            split at hduration
            · exact Option.some.inj hduration
            · cases hduration
          have hsub : now.sub age = none := by
            rw [← hsome]
            exact dif_neg fun h => hlt h.1
          simp only [Outcome.ofOption, hsub]
    rw [hpanic] at hreturns
    rcases hreturns with ⟨options, h⟩ | ⟨message, h⟩
    · cases h
    · cases h
  · rintro (h | hle)
    · exact absurd h hrefused
    rw [hhours] at hle
    have hduration : durationHours minAgeHours = some (hours minAgeHours.toInt) := by
      refine if_pos ⟨?_, ?_⟩
      · unfold Time at *
        omega
      · omega
    have hupper : now.time - hours minAgeHours.toInt ≤ latest := by
      rw [hhours]
      unfold Time at *
      omega
    rw [← hhours] at hle
    rw [hduration]
    simp only [Outcome.ofOption, OffsetDateTime.sub, dif_pos (And.intro hle hupper)]
    exact .inl ⟨_, rfl⟩

/-- An afternoon in June 2026. -/
def june : OffsetDateTime := ⟨seconds 1781000000, by decide, by decide⟩

/-- The environment of an operator who wants to keep every account. -/
def hugeAge (name : String) : Option String :=
  if name = "PV_SYNTHETIC_CLEANUP_MIN_AGE_HOURS" then some "9223372036854775807" else none

/-- With the largest age that can be read from the environment the cleanup panics. -/
theorem hugeAge_panics :
    SyntheticCleanupOptions.fromEnv hugeAge id june true = .panicked ∧
      SyntheticCleanupOptions.new june "synthetic" "loadtest.invalid" Int64.maxValue true 100 =
        .panicked ∧
      ¬ Returns (SyntheticCleanupOptions.new june "synthetic" "loadtest.invalid" Int64.maxValue
        true 100) := by
  have hnew : SyntheticCleanupOptions.new june "synthetic" "loadtest.invalid" Int64.maxValue true
      100 = .panicked := by rfl
  refine ⟨by rfl, hnew, ?_⟩
  rw [hnew]
  rintro (⟨options, h⟩ | ⟨message, h⟩)
  · cases h
  · cases h

end Maintenance

end PasswordVault
