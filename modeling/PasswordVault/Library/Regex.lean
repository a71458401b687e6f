import Mathlib.Data.List.Infix

/-!
# Regular expressions

Advanced regular expressions as far as anchors, bracket expressions, `+` and escapes, with text that
is matched anywhere unless the pattern anchors it.

* `Atom`, `Piece`: what a pattern is made of; `parse` reads one from its text, by way of `lex`.
* `matchesAt`, `isMatch`: the texts that a pattern matches.
* `matchesAt_literal`, `matchesAt_many`: what a literal part and a repeated part match.
* `lex_plain`, `lex_escaped`, `pieces_literal`: literal text is read as itself.
-/

namespace Regex

/-- What stands for one character. -/
inductive Atom where
  | char (c : Char)
  | any
  | bracket (ranges : List (Char × Char))
  deriving DecidableEq

inductive Piece where
  | start
  | finish
  | one (atom : Atom)
  /-- One or more times. -/
  | many (atom : Atom)
  deriving DecidableEq

abbrev Pattern := List Piece

/-! ## Parsing -/

inductive Token where
  | start
  | finish
  | plus
  | atom (atom : Atom)

/-- The characters that mean more than themselves. -/
def specialChars : List Char := ['^', '$', '.', '[', '*', '+', '?', '(', ')', '|', '\x7b', '\\']

def isSpecial (c : Char) : Bool := specialChars.contains c

/-- The tokens of a pattern. The first argument holds the ranges of the bracket expression that one is
in. Left out are escapes of letters and digits, alternatives, groups, bounds and other quantifiers,
and bracket expressions that start with `^` or `]` or hold a class or an escape. -/
def lex : Option (List (Char × Char)) → List Char → Option (List Token)
  | none, [] => some []
  | some _, [] => none
  | none, '\\' :: c :: rest =>
      if c.isAlphanum then none else (lex none rest).map (.atom (.char c) :: ·)
  | none, c :: rest =>
      if c = '^' then (lex none rest).map (.start :: ·)
      else if c = '$' then (lex none rest).map (.finish :: ·)
      else if c = '+' then (lex none rest).map (.plus :: ·)
      else if c = '.' then (lex none rest).map (.atom .any :: ·)
      else if c = '[' then
        if rest.head? = some '^' ∨ rest.head? = some ']' then none else lex (some []) rest
      else if isSpecial c then none
      else (lex none rest).map (.atom (.char c) :: ·)
  | some ranges, c :: '-' :: d :: rest =>
      if c = ']' then (lex none ('-' :: d :: rest)).map (.atom (.bracket ranges) :: ·)
      else if d = ']' then
        (lex none rest).map (.atom (.bracket (ranges ++ [(c, c), ('-', '-')])) :: ·)
      else if c = '[' ∨ c = '\\' ∨ d = '[' ∨ d = '\\' ∨ d < c then none
      else lex (some (ranges ++ [(c, d)])) rest
  | some ranges, c :: rest =>
      if c = ']' then (lex none rest).map (.atom (.bracket ranges) :: ·)
      else if c = '[' ∨ c = '\\' then none
      else lex (some (ranges ++ [(c, c)])) rest

/-- A quantifier belongs to the atom before it. -/
def pieces : List Token → Option Pattern
  | [] => some []
  | .start :: tokens => (pieces tokens).map (.start :: ·)
  | .finish :: tokens => (pieces tokens).map (.finish :: ·)
  | .atom atom :: .plus :: tokens => (pieces tokens).map (.many atom :: ·)
  | .atom atom :: tokens => (pieces tokens).map (.one atom :: ·)
  | .plus :: _ => none

def parse (text : List Char) : Option Pattern := (lex none text).bind pieces

/-! ## Matching -/

def Atom.accepts : Atom → Char → Bool
  | .char c, d => c == d
  | .any, _ => true
  | .bracket ranges, d => ranges.any fun range => decide (range.1 ≤ d) && decide (d ≤ range.2)

/-- One or more characters, and then the rest of the pattern. -/
def manyOf (accepts : Char → Bool) (next : List Char → Bool) : List Char → Bool
  | [] => false
  | c :: cs => accepts c && (next cs || manyOf accepts next cs)

/-- The pattern matches from here; the flag says that this is the start of the text. -/
def matchesAt : Pattern → Bool → List Char → Bool
  | [], _, _ => true
  | .start :: pattern, atStart, cs => atStart && matchesAt pattern atStart cs
  | .finish :: pattern, atStart, cs => cs.isEmpty && matchesAt pattern atStart cs
  | .one _ :: _, _, [] => false
  | .one atom :: pattern, _, c :: cs => atom.accepts c && matchesAt pattern false cs
  | .many atom :: pattern, _, cs => manyOf atom.accepts (matchesAt pattern false) cs

/-- The pattern matches somewhere in the text. -/
def isMatch (pattern : Pattern) (text : List Char) : Bool :=
  matchesAt pattern true text || (text.tails.drop 1).any (matchesAt pattern false)

lemma isMatch_start (pattern : Pattern) (text : List Char) :
    isMatch (.start :: pattern) text = matchesAt pattern true text := by
  simp [isMatch, matchesAt]

lemma manyOf_iff {accepts : Char → Bool} {next : List Char → Bool} {cs : List Char} :
    manyOf accepts next cs = true ↔
      ∃ run rest, run ≠ [] ∧ (∀ c ∈ run, accepts c = true) ∧ cs = run ++ rest ∧
        next rest = true := by
  induction cs with
  | nil =>
      simp only [manyOf, Bool.false_eq_true, false_iff]
      rintro ⟨run, rest, hrun, -, hcs, -⟩
      exact hrun (List.append_eq_nil_iff.mp hcs.symm).1
  | cons c cs ih =>
      simp only [manyOf, Bool.and_eq_true, Bool.or_eq_true, ih]
      constructor
      · rintro ⟨hc, hnext | ⟨run, rest, hrun, hall, rfl, hnext⟩⟩
        · exact ⟨[c], cs, by simp, by simpa using hc, rfl, hnext⟩
        · refine ⟨c :: run, rest, by simp, ?_, rfl, hnext⟩
          intro d hd
          rcases List.mem_cons.mp hd with rfl | hd
          · exact hc
          · exact hall d hd
      · rintro ⟨run, rest, hrun, hall, hcs, hnext⟩
        obtain ⟨d, run, rfl⟩ := List.exists_cons_of_ne_nil hrun
        obtain ⟨rfl, rfl⟩ := List.cons.inj hcs
        refine ⟨hall _ List.mem_cons_self, ?_⟩
        by_cases hempty : run = []
        · subst hempty
          exact .inl hnext
        · exact .inr ⟨run, rest, hempty, fun d hd => hall d (List.mem_cons_of_mem _ hd), rfl,
            hnext⟩

lemma matchesAt_many {atom : Atom} {pattern : Pattern} {atStart : Bool} {cs : List Char} :
    matchesAt (.many atom :: pattern) atStart cs = true ↔
      ∃ run rest, run ≠ [] ∧ (∀ c ∈ run, atom.accepts c = true) ∧ cs = run ++ rest ∧
        matchesAt pattern false rest = true := by
  rw [matchesAt, manyOf_iff]

/-- The pieces that a literal text is read as. -/
def literal (text : List Char) : Pattern := text.map fun c => .one (.char c)

lemma matchesAt_literal {text : List Char} (hne : text ≠ []) {pattern : Pattern} {atStart : Bool}
    {cs : List Char} :
    matchesAt (literal text ++ pattern) atStart cs = true ↔
      ∃ rest, cs = text ++ rest ∧ matchesAt pattern false rest = true := by
  induction text generalizing atStart cs with
  | nil => exact absurd rfl hne
  | cons c text ih =>
      cases cs with
      | nil => simp [literal, matchesAt]
      | cons d cs =>
          simp only [literal, List.map_cons, List.cons_append, matchesAt, Atom.accepts,
            Bool.and_eq_true, beq_iff_eq, List.cons.injEq]
          by_cases hempty : text = []
          · subst hempty
            constructor
            · rintro ⟨rfl, h⟩
              exact ⟨cs, ⟨rfl, rfl⟩, h⟩
            · rintro ⟨rest, ⟨rfl, rfl⟩, h⟩
              exact ⟨rfl, h⟩
          · rw [← literal, ih hempty]
            constructor
            · rintro ⟨rfl, rest, hcs, h⟩
              exact ⟨rest, ⟨rfl, hcs⟩, h⟩
            · rintro ⟨rest, ⟨rfl, hcs⟩, h⟩
              exact ⟨rfl, rest, hcs, h⟩

lemma matchesAt_finish {cs : List Char} :
    matchesAt [.finish] false cs = true ↔ cs = [] := by
  simp [matchesAt, List.isEmpty_iff]

/-! ## Reading literal text -/

def literalTokens (text : List Char) : List Token := text.map fun c => .atom (.char c)

lemma lex_plain {c : Char} (h : isSpecial c = false) (rest : List Char) :
    lex none (c :: rest) = (lex none rest).map (.atom (.char c) :: ·) := by
  have hne : ∀ d, isSpecial d = true → c ≠ d := by
    rintro d hd rfl
    rw [h] at hd
    cases hd
  rw [lex, if_neg (hne '^' rfl), if_neg (hne '$' rfl), if_neg (hne '+' rfl), if_neg (hne '.' rfl),
    if_neg (hne '[' rfl), h]
  · rfl
  · rintro d rest' rfl
    exact absurd rfl (hne '\\' rfl)

lemma lex_escaped {c : Char} (h : c.isAlphanum = false) (rest : List Char) :
    lex none ('\\' :: c :: rest) = (lex none rest).map (.atom (.char c) :: ·) := by
  rw [lex, h]
  rfl

/-- Literal text that no quantifier follows. -/
lemma pieces_literal (text : List Char) {tokens : List Token} (h : tokens.head? ≠ some .plus) :
    pieces (literalTokens text ++ tokens) = (pieces tokens).map (literal text ++ ·) := by
  induction text with
  | nil => simp [literalTokens, literal]
  | cons c text ih =>
      have hhead : (literalTokens text ++ tokens).head? ≠ some .plus := by
        cases text with
        | nil => exact h
        | cons d text => simp [literalTokens]
      have hstep : ∀ tokens : List Token, tokens.head? ≠ some .plus →
          pieces (.atom (.char c) :: tokens) = (pieces tokens).map (.one (.char c) :: ·) := by
        rintro (_ | ⟨token, tokens⟩) hplus
        · rfl
        · cases token with
          | plus => exact absurd rfl hplus
          | start => rfl
          | finish => rfl
          | atom a => rfl
      change pieces (.atom (.char c) :: (literalTokens text ++ tokens)) = _
      rw [hstep _ hhead, ih, Option.map_map]
      rfl

end Regex
