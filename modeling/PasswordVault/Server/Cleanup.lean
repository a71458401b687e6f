import Mathlib.Data.List.Perm.Subperm
import PasswordVault.Server.Maintenance

/-!
# What a cleanup deletes

The pattern of a cleanup is put together from two texts of the operator. For options that passed
their checks it is read as those texts and nothing else, so that a cleanup deletes what it says.

* `SyntheticCleanupOptions.pieces`: what the pattern of some options is read as; `parse_regexPattern`.
* `IsSynthetic`: the handles that a cleanup is meant for; `isMatch_pieces`.
* `cleanup_safe`: the accounts that a cleanup deletes.
-/

namespace PasswordVault

namespace Maintenance

open Transactions Regex

/-! ## The pattern -/

/-- The characters of a checked prefix or domain. -/
def isLabelChar (c : Char) : Bool := c.isLower || c.isDigit || c == '.' || c == '-'

lemma isLabelChar_of_byte {c : Char} (hc : c.toNat < 128) (h : isLabelByte (asciiByte c) = true) :
    isLabelChar c = true := by
  have hnat : (asciiByte c).toNat = c.toNat := by
    rw [asciiByte, UInt8.toNat_ofNat', Nat.mod_eq_of_lt (by omega)]
  have hdot : asciiByte c = 46 → c = '.' := fun h => asciiByte_inj hc (d := '.') (by decide) h
  have hdash : asciiByte c = 45 → c = '-' := fun h => asciiByte_inj hc (d := '-') (by decide) h
  simp only [isLabelByte, Bool.or_eq_true, Bool.and_eq_true, decide_eq_true_eq, beq_iff_eq,
    UInt8.le_iff_toNat_le, hnat] at h
  have hlower : c.isLower = (decide (c.val ≥ 'a'.val) && decide (c.val ≤ 'z'.val)) := rfl
  simp only [isLabelChar, Bool.or_eq_true, beq_iff_eq, hlower, Char.isDigit, Bool.and_eq_true,
    decide_eq_true_eq]
  rcases h with ((h | h) | h) | h
  · exact .inl (.inl (.inl h))
  · exact .inl (.inl (.inr h))
  · exact .inl (.inr (hdot h))
  · exact .inr (hdash h)

lemma isLabelChar_of_bytes {value : String} (h : (utf8Bytes value).all isLabelByte = true) :
    ∀ c ∈ value.toList, isLabelChar c = true := by
  obtain ⟨cs, rfl⟩ : ∃ cs, value = String.ofList cs := ⟨value.toList, by simp⟩
  rw [List.all_eq_true] at h
  have hbelow : ∀ b, isLabelByte b = true → b.toNat < 128 := by
    intro b hb
    simp only [isLabelByte, Bool.or_eq_true, Bool.and_eq_true, decide_eq_true_eq, beq_iff_eq,
      UInt8.le_iff_toNat_le] at hb
    rcases hb with ((⟨-, hb⟩ | ⟨-, hb⟩) | rfl) | rfl
    · exact hb.trans_lt (by decide)
    · exact hb.trans_lt (by decide)
    · decide
    · decide
  have hascii := ascii_of_utf8Bytes fun b hb => hbelow b (h b hb)
  rw [utf8Bytes_ascii hascii] at h
  intro c hc
  rw [String.toList_ofList] at hc
  exact isLabelChar_of_byte (hascii c hc) (h _ (List.mem_map_of_mem hc))

lemma validatePrefix_ok {value : String} (h : validatePrefix value = .ok ()) :
    value ≠ "" ∧ ∀ c ∈ value.toList, isLabelChar c = true := by
  unfold validatePrefix at h
  split at h
  · cases h
  · rename_i hchecks
    simp only [not_or, Bool.not_eq_true', Bool.not_eq_false] at hchecks
    exact ⟨hchecks.1, isLabelChar_of_bytes hchecks.2.2⟩

lemma validateDomain_ok {value : String} (h : validateDomain value = .ok ()) :
    value ≠ "" ∧ (∀ c ∈ value.toList, isLabelChar c = true) ∧
      ".invalid".toList <:+ value.toList := by
  unfold validateDomain at h
  split at h
  · cases h
  · rename_i hchecks
    simp only [not_or, not_not, Bool.not_eq_true', Bool.not_eq_false] at hchecks
    exact ⟨hchecks.1, isLabelChar_of_bytes hchecks.2.2.2.2.2, hchecks.2.2.1⟩

lemma isSpecial_of_isLabelChar {c : Char} (h : isLabelChar c = true) (hdot : c ≠ '.') :
    isSpecial c = false := by
  by_contra hspecial
  rw [Bool.not_eq_false] at hspecial
  have hmem : c ∈ specialChars := by simpa [isSpecial] using hspecial
  have hnone : (specialChars.all fun d => d == '.' || !isLabelChar d) = true := by decide
  have hc := List.all_eq_true.mp hnone c hmem
  rw [Bool.or_eq_true, beq_iff_eq, h] at hc
  rcases hc with hc | hc
  · exact hdot hc
  · cases hc

/-- A checked text is read as itself. -/
lemma lex_postgresRegexLiteral {text : List Char} (h : ∀ c ∈ text, isLabelChar c = true)
    (rest : List Char) :
    lex none ((text.flatMap fun c => if c = '.' then ['\\', '.'] else [c]) ++ rest) =
      (lex none rest).map (literalTokens text ++ ·) := by
  induction text with
  | nil => simp [literalTokens]
  | cons c text ih =>
      have ih := ih fun d hd => h d (List.mem_cons_of_mem c hd)
      have hjoin : (fun tokens => Token.atom (.char c) :: tokens) ∘ (literalTokens text ++ ·) =
          (literalTokens (c :: text) ++ ·) := rfl
      rw [List.flatMap_cons, List.append_assoc]
      by_cases hdot : c = '.'
      · subst hdot
        rw [if_pos rfl, List.cons_append, List.cons_append, List.nil_append,
          lex_escaped (by decide), ih, Option.map_map, hjoin]
      · rw [if_neg hdot, List.cons_append, List.nil_append,
          lex_plain (isSpecial_of_isLabelChar (h c List.mem_cons_self) hdot), ih, Option.map_map,
          hjoin]

/-- `[a-z0-9._-]`. -/
def labelBracket : Atom := .bracket [('a', 'z'), ('0', '9'), ('.', '.'), ('_', '_'), ('-', '-')]

lemma lex_middle (rest : List Char) :
    lex none ("-[a-z0-9._-]+@".toList ++ rest) = (lex none rest).map fun tokens =>
      .atom (.char '-') :: .atom labelBracket :: .plus :: .atom (.char '@') :: tokens := by
  simp [lex, labelBracket, isSpecial, specialChars]
  rfl

/-- What the pattern of checked options is read as. -/
def SyntheticCleanupOptions.pieces (options : SyntheticCleanupOptions) : Pattern :=
  .start :: (literal options.handlePrefix.toList ++
    (literal ['-'] ++ (.many labelBracket :: (literal ['@'] ++
      (literal options.domain.toList ++ [.finish])))))

/-- The checks that options have passed. -/
structure Checked (options : SyntheticCleanupOptions) : Prop where
  handlePrefix : validatePrefix options.handlePrefix = .ok ()
  domain : validateDomain options.domain = .ok ()
  maxDelete : 1 ≤ options.maxDelete.toInt

lemma checked_of_new {now : OffsetDateTime} {handlePrefix domain : String}
    {minAgeHours maxDelete : Int64} {dryRun : Bool} {options : SyntheticCleanupOptions}
    (h : SyntheticCleanupOptions.new now handlePrefix domain minAgeHours dryRun maxDelete =
      .ok options) : Checked options := by
  unfold SyntheticCleanupOptions.new at h
  cases hp : validatePrefix handlePrefix with
  | error e => simp [hp, Outcome.ofExcept] at h
  | ok u =>
      cases hd : validateDomain domain with
      | error e => simp [hp, hd, Outcome.ofExcept] at h
      | ok v =>
          simp only [hp, hd, Outcome.ofExcept] at h
          split at h
          · cases h
          · split at h
            · cases h
            · rename_i hmax
              cases hduration : durationHours minAgeHours with
              | none => simp [hduration, Outcome.ofOption] at h
              | some age =>
                  cases hsub : now.sub age with
                  | none => simp [hduration, hsub, Outcome.ofOption] at h
                  | some cutoff =>
                      simp only [hduration, hsub, Outcome.ofOption, Outcome.ok.injEq] at h
                      subst h
                      exact ⟨hp, hd, one_le_of_not_lt hmax⟩

/-- Nothing of the two texts is more than itself. -/
lemma Checked.parse_regexPattern {options : SyntheticCleanupOptions} (h : Checked options) :
    parse options.regexPattern.toList = some options.pieces := by
  obtain ⟨-, hlead⟩ := validatePrefix_ok h.handlePrefix
  obtain ⟨-, hdomain, -⟩ := validateDomain_ok h.domain
  have hend : lex none "$".toList = some [.finish] := rfl
  have hstart : ∀ rest, lex none ("^".toList ++ rest) = (lex none rest).map (.start :: ·) :=
    fun rest => by simp [lex]
  have hlex : lex none options.regexPattern.toList =
      some (.start :: (literalTokens options.handlePrefix.toList ++
        (.atom (.char '-') :: .atom labelBracket :: .plus :: .atom (.char '@') ::
          (literalTokens options.domain.toList ++ [.finish])))) := by
    simp only [SyntheticCleanupOptions.regexPattern, postgresRegexLiteral, String.toList_append,
      String.toList_ofList, List.append_assoc]
    rw [hstart, lex_postgresRegexLiteral hlead, lex_middle, lex_postgresRegexLiteral hdomain,
      hend]
    rfl
  have hdomainPieces : pieces (literalTokens options.domain.toList ++ [.finish]) =
      some (literal options.domain.toList ++ [.finish]) := by
    rw [pieces_literal _ (by simp)]
    rfl
  have hat : pieces (.atom (.char '@') :: (literalTokens options.domain.toList ++ [.finish])) =
      some (literal ['@'] ++ (literal options.domain.toList ++ [.finish])) := by
    have hhead : (literalTokens options.domain.toList ++ [Token.finish]).head? ≠ some .plus := by
      cases options.domain.toList with
      | nil => simp [literalTokens]
      | cons c cs => simp [literalTokens]
    have hone := pieces_literal ['@'] hhead
    rw [hdomainPieces] at hone
    exact hone
  have hmiddle : pieces (.atom (.char '-') :: .atom labelBracket :: .plus :: .atom (.char '@') ::
      (literalTokens options.domain.toList ++ [.finish])) =
      some (literal ['-'] ++ (.many labelBracket :: (literal ['@'] ++
        (literal options.domain.toList ++ [.finish])))) := by
    rw [pieces, pieces, hat]
    · rfl
    · simp
  rw [parse, hlex, Option.bind_some, pieces, pieces_literal _ (by simp), hmiddle]
  rfl

/-! ## The handles -/

def isHandleChar (c : Char) : Bool := c.isLower || c.isDigit || c == '.' || c == '_' || c == '-'

/-- The handle is the prefix, a dash, a label, an at sign and the domain. -/
def IsSynthetic (options : SyntheticCleanupOptions) (handle : String) : Prop :=
  ∃ label : List Char, label ≠ [] ∧ (∀ c ∈ label, isHandleChar c = true) ∧
    handle.toList =
      options.handlePrefix.toList ++ '-' :: (label ++ '@' :: options.domain.toList)

lemma labelBracket_accepts (c : Char) : labelBracket.accepts c = isHandleChar c := by
  have hsingle : ∀ d : Char, (decide (d ≤ c) && decide (c ≤ d)) = (c == d) := by
    intro d
    by_cases hcd : c = d
    · subst hcd
      simp
    · have hne : ¬ (d ≤ c ∧ c ≤ d) := fun h => hcd (Char.le_antisymm h.2 h.1)
      rw [← Bool.decide_and, decide_eq_false hne]
      exact (beq_eq_false_iff_ne.mpr hcd).symm
  simp only [labelBracket, Atom.accepts, List.any_cons, List.any_nil, Bool.or_false, hsingle,
    isHandleChar, Bool.or_assoc]
  rfl

/-- The pattern is matched by the handles that it is meant for. -/
lemma Checked.isMatch_iff {options : SyntheticCleanupOptions} (h : Checked options)
    (handle : String) :
    isMatch options.pieces handle.toList = true ↔ IsSynthetic options handle := by
  have hlead : options.handlePrefix.toList ≠ [] := by
    simpa [String.toList_eq_nil_iff] using (validatePrefix_ok h.handlePrefix).1
  have hdomain : options.domain.toList ≠ [] := by
    simpa [String.toList_eq_nil_iff] using (validateDomain_ok h.domain).1
  simp only [SyntheticCleanupOptions.pieces, isMatch_start, matchesAt_literal hlead,
    matchesAt_literal (List.cons_ne_nil _ _), matchesAt_literal hdomain, matchesAt_many,
    matchesAt_finish, labelBracket_accepts, IsSynthetic]
  constructor
  · rintro ⟨_, hhandle, _, rfl, label, _, hne, hall, rfl, _, rfl, _, rfl, rfl⟩
    exact ⟨label, hne, hall, by simpa using hhandle⟩
  · rintro ⟨label, hne, hall, hhandle⟩
    exact ⟨_, hhandle, _, rfl, label, _, hne, hall, rfl, _, rfl, [], (List.append_nil _).symm, rfl⟩

/-- The accounts that a cleanup with some options is meant for. -/
def Eligible (options : SyntheticCleanupOptions) (row : AccountRow) : Prop :=
  IsSynthetic options row.account.loginHandleNormalized ∧ row.createdAt < options.cutoff.time

open Classical in
lemma Checked.selectMatching_eq {options : SyntheticCleanupOptions} (h : Checked options)
    (accounts : AccountTable) :
    selectMatching options accounts =
      .ok (accounts.list.filter fun row => decide (Eligible options row)) := by
  rw [selectMatching, h.parse_regexPattern]
  refine congrArg Except.ok (List.filter_congr fun row _ => ?_)
  rw [Bool.eq_iff_iff, Bool.and_eq_true, decide_eq_true_eq, decide_eq_true_eq, h.isMatch_iff]
  exact Iff.rfl

/-! ## The deleted accounts -/

open Classical in
/-- What a cleanup has done. -/
structure CleanupSafe (options : SyntheticCleanupOptions) (counted accounts : AccountTable)
    (isThere : Uuid → Bool) (report : SyntheticCleanupReport) (deleted : List AccountRow) :
    Prop where
  /-- It deletes accounts from before the cutoff whose handle it is meant for, -/
  eligible : ∀ row ∈ deleted, row ∈ accounts ∧ Eligible options row
  /-- all in the reserved domain; -/
  reserved : ∀ row ∈ deleted, ".invalid".toList <:+ row.account.loginHandleNormalized.toList
  /-- no older one is left, -/
  oldest : ∀ row ∈ deleted, ∀ other ∈ accounts, Eligible options other →
    isThere other.id = true → other ∉ deleted → row.createdAt ≤ other.createdAt
  bounded : (deleted.length : Int) ≤ options.maxDelete.toInt
  dryRun : options.dryRun = true → deleted = []
  /-- and the report says how many there were and how many are gone. -/
  matched : report.matched =
    (counted.list.filter fun row => decide (Eligible options row)).length
  deleted : report.deleted = deleted.length
  /-- Where nothing else happens, these are as many as allowed. -/
  quiescent : counted = accounts → (∀ id, isThere id = true) → options.dryRun = false →
    (report.deleted : Int) = min (report.matched : Int) options.maxDelete.toInt

/-- The rows with the keys of some rows of a table are these rows. -/
lemma mem_of_id_mem {accounts : AccountTable} {rows : List AccountRow}
    (hrows : ∀ row ∈ rows, row ∈ accounts) {row : AccountRow} (hrow : row ∈ accounts)
    (h : row.id ∈ rows.map AccountRow.id) : row ∈ rows := by
  obtain ⟨other, hother, hid⟩ := List.mem_map.mp h
  have heq : other = row := List.inj_on_of_nodup_map accounts.nodup (hrows other hother) hrow hid
  rwa [← heq]

open Classical in
/-- **A cleanup deletes only what it may.** For all options that were accepted, all tables that its
two statements see, and every order of the rows of one time. -/
theorem cleanup_safe {now : OffsetDateTime} {handlePrefix domain : String}
    {minAgeHours maxDelete : Int64} {dryRun : Bool} {options : SyntheticCleanupOptions}
    (h : SyntheticCleanupOptions.new now handlePrefix domain minAgeHours dryRun maxDelete =
      .ok options)
    (order : CreatedAtOrder) (counted accounts : AccountTable) (isThere : Uuid → Bool) :
    ∃ report deleted, cleanupSyntheticAccounts order counted accounts isThere options =
        .ok (report, deleted) ∧
      CleanupSafe options counted accounts isThere report deleted := by
  have hchecked := checked_of_new h
  by_cases hdry : options.dryRun = true
  · refine ⟨⟨(counted.list.filter fun row => decide (Eligible options row)).length, 0, true,
      options.maxDelete⟩, [], ?_, ?_⟩
    · rw [cleanupSyntheticAccounts, hchecked.selectMatching_eq]
      exact if_pos hdry
    · refine ⟨by simp, by simp, by simp, ?_, fun _ => rfl, rfl, rfl, ?_⟩
      · exact (Int.zero_le_ofNat 1).trans hchecked.maxDelete
      · intro _ _ hnot
        rw [hdry] at hnot
        cases hnot
  generalize hrows : (accounts.list.filter fun row => decide (Eligible options row)) = rows
  generalize hlimit : options.maxDelete.toInt.toNat = limit
  have hlimitInt : (limit : Int) = options.maxDelete.toInt := by
    rw [← hlimit, Int.toNat_of_nonneg ((Int.zero_le_ofNat 1).trans hchecked.maxDelete)]
  generalize hcandidates : (order.sort rows).take limit = candidates
  generalize hdeleted : (accounts.list.filter fun row =>
    (candidates.map AccountRow.id).contains row.id && isThere row.id) = deleted
  have hmemRows : ∀ row, row ∈ rows ↔ row ∈ accounts ∧ Eligible options row := by
    intro row
    rw [← hrows, List.mem_filter, decide_eq_true_eq]
    exact Iff.rfl
  have hcandidateRows : ∀ row ∈ candidates, row ∈ rows := by
    intro row hrow
    rw [← hcandidates] at hrow
    exact (order.perm rows).mem_iff.mp (List.mem_of_mem_take hrow)
  have hmem : ∀ row, row ∈ deleted ↔ row ∈ candidates ∧ isThere row.id = true := by
    intro row
    rw [← hdeleted, List.mem_filter, Bool.and_eq_true, List.contains_iff_mem]
    constructor
    · rintro ⟨hrow, hid, hthere⟩
      exact ⟨mem_of_id_mem (fun r hr => ((hmemRows r).mp (hcandidateRows r hr)).1) hrow hid, hthere⟩
    · rintro ⟨hrow, hthere⟩
      exact ⟨((hmemRows row).mp (hcandidateRows row hrow)).1, List.mem_map_of_mem hrow, hthere⟩
  have hnodup : accounts.list.Nodup := List.Nodup.of_map _ accounts.nodup
  have hdeletedNodup : deleted.Nodup := hdeleted ▸ hnodup.filter _
  have hrowsNodup : rows.Nodup := hrows ▸ hnodup.filter _
  have hcandidatesNodup : candidates.Nodup := by
    rw [← hcandidates]
    exact ((order.perm rows).nodup_iff.mpr hrowsNodup).sublist (List.take_sublist _ _)
  have hcandidatesLength : candidates.length = min limit rows.length := by
    rw [← hcandidates, List.length_take, (order.perm rows).length_eq]
  have hle : deleted.length ≤ candidates.length :=
    (List.subperm_of_subset hdeletedNodup fun row hrow => ((hmem row).mp hrow).1).length_le
  have heligible : ∀ row ∈ deleted, row ∈ accounts ∧ Eligible options row := fun row hrow =>
    (hmemRows row).mp (hcandidateRows row ((hmem row).mp hrow).1)
  refine ⟨⟨(counted.list.filter fun row => decide (Eligible options row)).length, deleted.length,
    false, options.maxDelete⟩, deleted, ?_, ?_⟩
  · simp only [cleanupSyntheticAccounts, hchecked.selectMatching_eq, bind, Except.bind, hdry,
      hrows, hlimit, hcandidates, hdeleted]
    rfl
  · refine ⟨heligible, ?_, ?_, ?_, fun h => absurd h hdry, rfl, rfl, ?_⟩
    · intro row hrow
      obtain ⟨-, ⟨label, -, -, hhandle⟩, -⟩ := heligible row hrow
      obtain ⟨start, hdomain⟩ := (validateDomain_ok hchecked.domain).2.2
      rw [hhandle, ← hdomain]
      exact ⟨options.handlePrefix.toList ++ '-' :: (label ++ '@' :: start), by simp⟩
    · intro row hrow other hother hotherEligible hthere hnot
      -- the other one comes later in the order: the limit has cut it off
      have hcut : other ∈ (order.sort rows).drop limit := by
        have hsorted : other ∈ order.sort rows :=
          (order.perm rows).mem_iff.mpr ((hmemRows other).mpr ⟨hother, hotherEligible⟩)
        rw [← List.take_append_drop limit (order.sort rows), List.mem_append, hcandidates] at hsorted
        rcases hsorted with hfirst | hlater
        · exact absurd ((hmem other).mpr ⟨hfirst, hthere⟩) hnot
        · exact hlater
      have hsorted := order.sorted rows
      rw [← List.take_append_drop limit (order.sort rows), List.pairwise_append] at hsorted
      refine hsorted.2.2 row ?_ other hcut
      rw [hcandidates]
      exact ((hmem row).mp hrow).1
    · rw [← hlimitInt]
      exact_mod_cast hle.trans (hcandidatesLength ▸ Nat.min_le_left _ _)
    · intro hsame hall _
      have hperm : deleted.Perm candidates :=
        (List.perm_ext_iff_of_nodup hdeletedNodup hcandidatesNodup).mpr fun row => by
          rw [hmem, hall]
          simp
      rw [hsame, hrows, ← hlimitInt, hperm.length_eq, hcandidatesLength, Nat.min_comm]
      change ((min rows.length limit : Nat) : Int) = min (rows.length : Int) (limit : Int)
      omega

/-! ## One cleanup -/

def byCreatedAt : CreatedAtOrder where
  sort rows := rows.mergeSort fun a b => decide (a.createdAt ≤ b.createdAt)
  perm rows := List.mergeSort_perm rows _
  sorted rows := by
    have hsorted : (rows.mergeSort fun a b => decide (a.createdAt ≤ b.createdAt)).Pairwise
        fun a b => decide (a.createdAt ≤ b.createdAt) = true := by
      apply List.pairwise_mergeSort
      · intro a b c hab hbc
        simp only [decide_eq_true_eq] at hab hbc ⊢
        exact Int.le_trans hab hbc
      · intro a b
        simp only [Bool.or_eq_true, decide_eq_true_eq]
        exact Int.le_total _ _
    simpa using hsorted

/-- An account of a load test, two days old in June. -/
def loadTestAccount : AccountRow :=
  ⟨⟨1, "synthetic-1@loadtest.invalid", "derived-auth-v1", .null, [], "", [], 150000, [], []⟩,
    seconds 1780827200⟩

theorem cleanup_safe_defaults : ∃ options,
    SyntheticCleanupOptions.fromEnv (fun _ => none) id june false = .ok options ∧
      ∃ report deleted,
        cleanupSyntheticAccounts byCreatedAt ⟨[loadTestAccount], by simp⟩
            ⟨[loadTestAccount], by simp⟩ (fun _ => true) options = .ok (report, deleted) ∧
          CleanupSafe options ⟨[loadTestAccount], by simp⟩ ⟨[loadTestAccount], by simp⟩
            (fun _ => true) report deleted :=
  have hnew : ∃ options, SyntheticCleanupOptions.new june "synthetic" "loadtest.invalid" 24 false
      100 = .ok options := ⟨_, rfl⟩
  ⟨_, hnew.choose_spec, cleanup_safe hnew.choose_spec byCreatedAt _ _ _⟩

end Maintenance

end PasswordVault
