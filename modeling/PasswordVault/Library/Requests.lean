import PasswordVault.Library.Contracts

/-!
# The commits and the reads of one request

What a request's program says about its own commits and reads, whatever the other requests do.

* `History.own`: the entries of one request.
* `System.Reaches.own`: what the program that is left and the commits so far have in common, when
  every step of the request keeps it.
* `Program.Atomic`: a program that commits only with its good answer;
  `System.Reaches.atomic`: with any other answer it has committed nothing.
* `Program.AtMost`: a program with a bounded number of statements on their own that change the
  database in some way; `System.Reaches.own_le`: so often it has done it at most.
* `Program.Guarded`: a program that answers nothing but a refusal until it has read a state with
  some property; `System.Reaches.guarded`: any other answer tells that there was such a state since
  the request arrived.
-/

namespace Transactions

open scoped Classical

variable {S L ρ Q : Type} [Lockable S L]

/-- The entries of one request. -/
noncomputable def History.own (H : History S Q) (q : Q) : List (Entry S Q) :=
  H.entries.filter fun e => e.request = q

lemma History.mem_own {H : History S Q} {q : Q} {e : Entry S Q} :
    e ∈ H.own q ↔ e ∈ H.entries ∧ e.request = q := by
  simp [History.own]

lemma History.own_push_self (H : History S Q) (q : Q) (b : Bool) (s : S) :
    (H.push q b s).own q = H.own q ++ [⟨q, b, H.current, s⟩] := by
  simp [History.own]

lemma History.own_push_of_ne {H : History S Q} {q q' : Q} (h : q ≠ q') (b : Bool) (s : S) :
    (H.push q b s).own q' = H.own q' := by
  simp [History.own, h]

/-- The entry that a step of request `q` on the database `db` appends. -/
def published (q : Q) (db : S) : Option (Bool × S) → List (Entry S Q)
  | none => []
  | some (b, s) => [⟨q, b, db, s⟩]

lemma Thread.Step.request_eq {held : List L} {db : S} {t t' : Thread S L ρ Q}
    {out : Option (Bool × S)} (h : Thread.Step held db t out t') : t'.request = t.request := by
  cases h <;> rfl

section own

variable {serve : Q → Program S L ρ} {fresh : Q → Q → Prop} {start : S}

/-- The invariant of the reachable systems. -/
structure System.Own (K : Q → Program S L ρ → List (Entry S Q) → Prop)
    (sys : System S L ρ Q) : Prop where
  own : ∀ t ∈ sys.threads, K t.request t.program (sys.history.own t.request)
  known : ∀ e ∈ sys.history.entries, ∃ t ∈ sys.threads, t.request = e.request
  distinct : sys.threads.Pairwise fun t u => t.request ≠ u.request

variable {K : Q → Program S L ρ → List (Entry S Q) → Prop}

/-- A thread is replaced by one of the same request. -/
lemma pairwise_replace {before after : List (Thread S L ρ Q)} {t t' : Thread S L ρ Q}
    (hreq : t'.request = t.request)
    (h : (before ++ t :: after).Pairwise fun t u => t.request ≠ u.request) :
    (before ++ t' :: after).Pairwise fun t u => t.request ≠ u.request := by
  rw [List.pairwise_append, List.pairwise_cons] at h ⊢
  obtain ⟨hbefore, ⟨ht, hafter⟩, hcross⟩ := h
  refine ⟨hbefore, ⟨fun u hu => hreq ▸ ht u hu, hafter⟩, fun u hu v hv => ?_⟩
  rcases List.mem_cons.mp hv with rfl | hv
  · rw [hreq]
    exact hcross u hu t List.mem_cons_self
  · exact hcross u hu v (List.mem_cons_of_mem _ hv)

/-- The other threads have other requests. -/
lemma request_ne_of_pairwise {before after : List (Thread S L ρ Q)} {t u : Thread S L ρ Q}
    (h : (before ++ t :: after).Pairwise fun t u => t.request ≠ u.request)
    (hu : u ∈ before ∨ u ∈ after) : t.request ≠ u.request := by
  rw [List.pairwise_append, List.pairwise_cons] at h
  obtain ⟨-, ⟨ht, -⟩, hcross⟩ := h
  rcases hu with hu | hu
  · exact (hcross u hu t List.mem_cons_self).symm
  · exact ht u hu

/-- **What every step of a request keeps holds of its program and its commits**, whatever the other
requests do. -/
theorem System.Reaches.own (hirrefl : ∀ q, ¬ fresh q q) (init : ∀ q, K q (serve q) [])
    (step : ∀ (held : List L) (db : S) (t t' : Thread S L ρ Q) out es,
      Thread.Step held db t out t' → K t.request t.program es →
      K t.request t'.program (es ++ published t.request db out))
    {sys : System S L ρ Q} (h : System.Reaches serve fresh start sys) : sys.Own K := by
  induction h with
  | init => exact ⟨by simp, by simp, .nil⟩
  | @step sys sys' h hs ih =>
      cases hs with
      | arrive q hq =>
          have hne : ∀ t ∈ sys.threads, t.request ≠ q := fun t ht he => hirrefl q (he ▸ hq t ht)
          refine ⟨fun t ht => ?_, fun e he => ?_, ?_⟩
          · rcases List.mem_append.mp ht with ht | ht
            · exact ih.own t ht
            · have hnone : sys.history.own q = [] := by
                rw [List.eq_nil_iff_forall_not_mem]
                intro e he
                obtain ⟨he, hreq⟩ := History.mem_own.mp he
                obtain ⟨u, hu, hknown⟩ := ih.known e he
                exact hne u hu (hknown.trans hreq)
              rw [List.mem_singleton.mp ht]
              simpa [System.arrival, hnone] using init q
          · obtain ⟨t, ht, hreq⟩ := ih.known e he
            exact ⟨t, List.mem_append_left _ ht, hreq⟩
          · rw [List.pairwise_append]
            refine ⟨ih.distinct, List.pairwise_singleton _ _, fun t ht u hu => ?_⟩
            rw [List.mem_singleton.mp hu]
            exact hne t ht
      | @quiet H before after t t' ht =>
          have hreq := ht.request_eq
          have hmem : ∀ u, u ∈ before ++ t :: after ↔ u = t ∨ u ∈ before ∨ u ∈ after := by
            intro u
            simp only [List.mem_append, List.mem_cons]
            tauto
          have hmem' : ∀ u, u ∈ before ++ t' :: after ↔ u = t' ∨ u ∈ before ∨ u ∈ after := by
            intro u
            simp only [List.mem_append, List.mem_cons]
            tauto
          refine ⟨fun u hu => ?_, fun e he => ?_, pairwise_replace hreq ih.distinct⟩
          · rcases (hmem' u).mp hu with rfl | hu
            · have hnext := step _ _ t u none _ ht (ih.own t ((hmem t).mpr (.inl rfl)))
              rw [published, List.append_nil] at hnext
              rw [hreq]
              exact hnext
            · exact ih.own u ((hmem u).mpr (.inr hu))
          · obtain ⟨u, hu, hknown⟩ := ih.known e he
            rcases (hmem u).mp hu with rfl | hu
            · exact ⟨t', (hmem' t').mpr (.inl rfl), hreq.trans hknown⟩
            · exact ⟨u, (hmem' u).mpr (.inr hu), hknown⟩
      | @publish H before after t t' b s ht =>
          have hreq := ht.request_eq
          have hmem : ∀ u, u ∈ before ++ t :: after ↔ u = t ∨ u ∈ before ∨ u ∈ after := by
            intro u
            simp only [List.mem_append, List.mem_cons]
            tauto
          have hmem' : ∀ u, u ∈ before ++ t' :: after ↔ u = t' ∨ u ∈ before ∨ u ∈ after := by
            intro u
            simp only [List.mem_append, List.mem_cons]
            tauto
          refine ⟨fun u hu => ?_, fun e he => ?_, pairwise_replace hreq ih.distinct⟩
          · rcases (hmem' u).mp hu with rfl | hu
            · have hnext := step _ _ t u (some (b, s)) _ ht (ih.own t ((hmem t).mpr (.inl rfl)))
              rw [hreq, History.own_push_self]
              exact hnext
            · rw [History.own_push_of_ne (request_ne_of_pairwise ih.distinct hu)]
              exact ih.own u ((hmem u).mpr (.inr hu))
          · rcases List.mem_append.mp he with he | he
            · obtain ⟨u, hu, hknown⟩ := ih.known e he
              rcases (hmem u).mp hu with rfl | hu
              · exact ⟨t', (hmem' t').mpr (.inl rfl), hreq.trans hknown⟩
              · exact ⟨u, (hmem' u).mpr (.inr hu), hknown⟩
            · rw [List.mem_singleton.mp he]
              exact ⟨t', (hmem' t').mpr (.inl rfl), hreq⟩

/-! ## Programs that commit with their answer -/

/-- Nothing is committed but with a good answer. -/
inductive Program.Atomic (good : ρ → Prop) : Program S L ρ → Prop
  | answer (r : ρ) : Atomic good (.answer r)
  | inside {β : Type} {stmt : Statement S L β} {failed : DbError → ρ} {next : β → Program S L ρ}
      (h : ∀ v, (next v).Atomic good) : Atomic good (.inside stmt failed next)
  | commit {failed done : ρ} (h : good done) : Atomic good (.commit failed done)

/-- **A request that is atomic has committed nothing**, or has given its good answer. -/
theorem System.Reaches.atomic (p : Q → Prop) (good : Q → ρ → Prop) (hirrefl : ∀ q, ¬ fresh q q)
    (hserve : ∀ q, p q → (serve q).Atomic (good q)) {sys : System S L ρ Q}
    (h : System.Reaches serve fresh start sys) {t : Thread S L ρ Q} (ht : t ∈ sys.threads)
    (hp : p t.request) : (∀ e ∈ sys.history.entries, e.request ≠ t.request) ∨
      ∃ r, t.program = .answer r ∧ good t.request r := by
  have hown := h.own (K := fun q prog es => p q → (es = [] ∧ prog.Atomic (good q)) ∨
    ∃ r, prog = .answer r ∧ good q r) hirrefl (fun q hq => .inl ⟨rfl, hserve q hq⟩) ?_
  · rcases hown.own t ht hp with ⟨hnil, -⟩ | hgood
    · refine .inl fun e he hreq => ?_
      have hmem : e ∈ sys.history.own t.request := History.mem_own.mpr ⟨he, hreq⟩
      rw [hnil] at hmem
      cases hmem
    · exact .inr hgood
  · intro held db t t' out es hstep hK hq
    rcases hK hq with ⟨rfl, hatomic⟩ | ⟨r, hr, hgood⟩
    · cases hstep with
      | begin hprog => exact .inl ⟨rfl, hatomic⟩
      | @done β stmt failed next snap r hprog =>
          rw [hprog] at hatomic
          cases hatomic with
          | inside hnext => exact .inl ⟨rfl, hnext r.value⟩
      | refused => exact .inl ⟨rfl, .answer _⟩
      | broken => exact .inl ⟨rfl, .answer _⟩
      | beginAlone hprog =>
          rw [hprog] at hatomic
          cases hatomic
      | doneAlone hprog =>
          rw [hprog] at hatomic
          cases hatomic
      | refusedAlone => exact .inl ⟨rfl, .answer _⟩
      | brokenAlone => exact .inl ⟨rfl, .answer _⟩
      | commit hprog =>
          rw [hprog] at hatomic
          cases hatomic with
          | commit hgood => exact .inr ⟨_, rfl, hgood⟩
      | commitFailed => exact .inl ⟨rfl, .answer _⟩
    · -- an answered request makes no step
      cases hstep <;> simp_all

/-! ## Programs that do something a bounded number of times -/

/-- The program has at most `n` statements on their own that may change the database as `p` says. -/
inductive Program.AtMost (p : S → S → Bool) : Program S L ρ → Nat → Prop
  | answer (r : ρ) (n : Nat) : AtMost p (.answer r) n
  | inside {β : Type} {stmt : Statement S L β} {failed : DbError → ρ} {next : β → Program S L ρ}
      {n : Nat} (h : ∀ v, (next v).AtMost p n) : AtMost p (.inside stmt failed next) n
  | alone {β : Type} {stmt : Statement S L β} {failed : DbError → ρ} {next : β → Program S L ρ}
      {n : Nat} (hnot : ∀ snap cur r, stmt.exec snap cur = .ok r → p cur (r.effect cur) = false)
      (h : ∀ v, (next v).AtMost p n) : AtMost p (.alone stmt failed next) n
  | once {β : Type} {stmt : Statement S L β} {failed : DbError → ρ} {next : β → Program S L ρ}
      {n : Nat} (h : ∀ v, (next v).AtMost p n) : AtMost p (.alone stmt failed next) (n + 1)
  | commit (failed done : ρ) (n : Nat) : AtMost p (.commit failed done) n

/-- The entry is a statement on its own that changes the database as `p` says. -/
def Entry.alone (p : S → S → Bool) (e : Entry S Q) : Bool := !e.closing && p e.before e.after

/-- **A request does no more than its program can.** -/
theorem System.Reaches.own_le (hirrefl : ∀ q, ¬ fresh q q) {p : S → S → Bool} {c : Q → Prop}
    {n : Nat} (hserve : ∀ q, c q → (serve q).AtMost p n) {sys : System S L ρ Q}
    (h : System.Reaches serve fresh start sys) {t : Thread S L ρ Q} (ht : t ∈ sys.threads)
    (hc : c t.request) : (sys.history.own t.request).countP (Entry.alone p) ≤ n := by
  have hown := h.own (K := fun q prog es => c q → ∃ m, es.countP (Entry.alone p) + m ≤ n ∧
    prog.AtMost p m) hirrefl (fun q hq => ⟨n, by simp, hserve q hq⟩) ?_
  · obtain ⟨m, hm, -⟩ := hown.own t ht hc
    omega
  · intro held db t t' out es hstep hK hq
    obtain ⟨m, hm, hleft⟩ := hK hq
    have hquiet : ∀ {prog : Program S L ρ}, prog.AtMost p m →
        ∃ m', (es ++ published t.request db none).countP (Entry.alone p) + m' ≤ n ∧
          prog.AtMost p m' := fun h => ⟨m, by simpa [published] using hm, h⟩
    cases hstep with
    | begin hprog => exact hquiet hleft
    | @done β stmt failed next snap r hprog =>
        rw [hprog] at hleft
        cases hleft with
        | inside hnext => exact hquiet (hnext r.value)
    | refused => exact hquiet (.answer _ m)
    | broken => exact hquiet (.answer _ m)
    | beginAlone hprog => exact hquiet hleft
    | @doneAlone β stmt failed next snap r hprog hs hr =>
        rw [hprog] at hleft
        cases hleft with
        | «alone» hnot hnext =>
            refine ⟨m, ?_, hnext r.value⟩
            rw [published, List.countP_append, List.countP_singleton, Entry.alone]
            simpa [hnot snap db r hr] using hm
        | @once _ _ _ _ m' hnext =>
            refine ⟨m', ?_, hnext r.value⟩
            rw [published, List.countP_append, List.countP_singleton]
            split <;> omega
    | refusedAlone => exact hquiet (.answer _ m)
    | brokenAlone => exact hquiet (.answer _ m)
    | commit =>
        refine ⟨m, ?_, .answer _ m⟩
        simpa [published, Entry.alone] using hm
    | commitFailed => exact hquiet (.answer _ m)

/-- Two entries of one request, one after the other, are two of its own. -/
lemma History.two_le_own {H : History S Q} {p : Entry S Q → Bool} {l₁ l₂ : List (Entry S Q)}
    {e e' : Entry S Q} (hsplit : H.entries = l₁ ++ e :: l₂) (he' : e' ∈ l₂)
    (hreq : e'.request = e.request) (he : p e = true) (hp' : p e' = true) :
    2 ≤ (H.own e.request).countP p := by
  have hsub : [e, e'].Sublist (H.own e.request) := by
    rw [History.own, hsplit]
    have hone : [e, e'].Sublist (l₁ ++ e :: l₂) :=
      ((List.singleton_sublist.mpr he').cons_cons e).trans (List.sublist_append_right _ _)
    simpa [hreq] using hone.filter fun x => decide (x.request = e.request)
  calc 2 = [e, e'].countP p := by simp [he, hp']
    _ ≤ (H.own e.request).countP p := hsub.countP_le

/-- Of entries that are counted twice, one comes before the other. -/
lemma exists_two_of_countP {p : Entry S Q → Bool} {l : List (Entry S Q)} (h : 1 < l.countP p) :
    ∃ l₁ e l₂, l = l₁ ++ e :: l₂ ∧ p e = true ∧ ∃ e' ∈ l₂, p e' = true := by
  induction l with
  | nil => simp at h
  | cons x l ih =>
      by_cases hx : p x = true
      · rw [List.countP_cons_of_pos hx] at h
        obtain ⟨e', he', hp⟩ := List.countP_pos_iff.mp (Nat.lt_of_succ_lt_succ h)
        exact ⟨[], x, l, rfl, hx, e', he', hp⟩
      · rw [List.countP_cons_of_neg hx] at h
        obtain ⟨l₁, e, l₂, rfl, he, hlater⟩ := ih h
        exact ⟨x :: l₁, e, l₂, rfl, he, hlater⟩

end own

/-! ## Answers that need a read -/

/-- Nothing but a refusal is answered before a state with `p` was read. -/
inductive Program.Guarded (refusal : ρ → Prop) (p : S → Prop) : Program S L ρ → Prop
  | answer {r : ρ} (h : refusal r) : Guarded refusal p (.answer r)
  | read {β : Type} {f : S → β} {failed : DbError → ρ} {next : β → Program S L ρ}
      (hfailed : ∀ e, refusal (failed e)) (h : ∀ s, ¬ p s → (next (f s)).Guarded refusal p) :
      Guarded refusal p (.alone (Statement.query f) failed next)
  | alone {β : Type} {stmt : Statement S L β} {failed : DbError → ρ} {next : β → Program S L ρ}
      (hfailed : ∀ e, refusal (failed e)) (h : ∀ v, (next v).Guarded refusal p) :
      Guarded refusal p (.alone stmt failed next)

section guarded

variable {serve : Q → Program S L ρ} {fresh : Q → Q → Prop} {start : S}

/-- A state of the run since the request arrived. -/
def ReadSince (K : History S Q → Prop) (t : Thread S L ρ Q) (H : History S Q) (p : S → Prop) : Prop :=
  ∃ H₁, K H₁ ∧ t.born.entries <+: H₁.entries ∧ H₁.entries <+: H.entries ∧ p H₁.current

lemma ReadSince.later {K : History S Q → Prop} {t : Thread S L ρ Q} {H H' : History S Q}
    {p : S → Prop} (h : ReadSince K t H p) (hlater : H.entries <+: H'.entries) : ReadSince K t H' p := by
  obtain ⟨H₁, hK, hborn, hpre, hp⟩ := h
  exact ⟨H₁, hK, hborn, hpre.trans hlater, hp⟩

/-- A thread is still guarded, or has read what it needs. -/
structure Thread.Guards (K : History S Q → Prop) (refusal : ρ → Prop) (p : S → Prop)
    (H : History S Q) (t : Thread S L ρ Q) : Prop where
  born : t.born.entries <+: H.entries
  guards : ReadSince K t H p ∨ (t.program.Guarded refusal p ∧
    ∀ snap, t.snapshot = some snap → ReadSince K t H fun s => s = snap)

variable {K : History S Q → Prop} {refusal : ρ → Prop} {p : S → Prop}

lemma Thread.Guards.later {H H' : History S Q} {t : Thread S L ρ Q}
    (h : t.Guards K refusal p H) (hlater : H.entries <+: H'.entries) :
    t.Guards K refusal p H' := by
  refine ⟨h.born.trans hlater, ?_⟩
  rcases h.guards with hread | ⟨hprog, hsnap⟩
  · exact .inl (hread.later hlater)
  · exact .inr ⟨hprog, fun snap hs => (hsnap snap hs).later hlater⟩

/-- One step of a thread keeps it guarded, up to the read. -/
lemma Thread.Guards.step {held : List L} {H : History S Q} {t t' : Thread S L ρ Q}
    {out : Option (Bool × S)} (h : t.Guards K refusal p H) (hK : K H)
    (hstep : Thread.Step held H.current t out t') : t'.Guards K refusal p H := by
  have hborn : t'.born = t.born := by cases hstep <;> rfl
  refine ⟨hborn ▸ h.born, ?_⟩
  rcases h.guards with ⟨H₁, hread⟩ | ⟨hprog, hsnap⟩
  · exact .inl ⟨H₁, hborn ▸ hread⟩
  · have hnow : ReadSince K t H fun s => s = H.current := ⟨H, hK, h.born, List.prefix_rfl, rfl⟩
    cases hstep with
    | begin hp => rw [hp] at hprog; cases hprog
    | done hp => rw [hp] at hprog; cases hprog
    | refused hp => rw [hp] at hprog; cases hprog
    | broken hp => rw [hp] at hprog; cases hprog
    | beginAlone hp hs =>
        refine .inr ⟨hprog, fun snap hsnap => ?_⟩
        obtain rfl := Option.some.inj hsnap
        exact hnow
    | @doneAlone β stmt failed next snap r hp hs hr =>
        rw [hp] at hprog
        cases hprog with
        | @read _ f _ _ hfailed hnext =>
            obtain rfl := Except.ok.inj hr
            obtain ⟨H₁, hK₁, hb, hpre, rfl⟩ := hsnap snap hs
            by_cases hread : p H₁.current
            · exact .inl ⟨H₁, hK₁, hb, hpre, hread⟩
            · exact .inr ⟨hnext _ hread, by simp [Thread.resume]⟩
        | «alone» hfailed hnext => exact .inr ⟨hnext r.value, by simp [Thread.resume]⟩
    | @refusedAlone β stmt failed next snap e hp hs he =>
        rw [hp] at hprog
        refine .inr ⟨.answer ?_, by simp [Thread.resume]⟩
        cases hprog with
        | read hfailed => exact hfailed e
        | «alone» hfailed => exact hfailed e
    | brokenAlone hp =>
        rw [hp] at hprog
        refine .inr ⟨.answer ?_, by simp [Thread.resume]⟩
        cases hprog with
        | read hfailed => exact hfailed .other
        | «alone» hfailed => exact hfailed .other
    | commit hp => rw [hp] at hprog; cases hprog
    | commitFailed hp => rw [hp] at hprog; cases hprog

/-- **An answer that is no refusal needs the read**: a request whose program is guarded has read a
state with `p` that was committed at some point since it arrived. -/
theorem System.Reaches.guarded (hK : ∀ sys : System S L ρ Q,
      System.Reaches serve fresh start sys → K sys.history) (c : Q → Prop)
    (refusal : Q → ρ → Prop) (p : Q → S → Prop)
    (hserve : ∀ q, c q → (serve q).Guarded (refusal q) (p q)) {sys : System S L ρ Q}
    (h : System.Reaches serve fresh start sys) :
    ∀ t ∈ sys.threads, c t.request → t.Guards K (refusal t.request) (p t.request) sys.history := by
  induction h with
  | init => simp
  | @step sys sys' h hs ih =>
      cases hs with
      | arrive q hq =>
          intro t ht hc
          rcases List.mem_append.mp ht with ht | ht
          · exact ih t ht hc
          · obtain rfl := List.mem_singleton.mp ht
            exact ⟨List.prefix_rfl, .inr ⟨hserve q hc, by simp [System.arrival]⟩⟩
      | @quiet H before after t t' hstep =>
          intro u hu hc
          rcases List.mem_append.mp hu with hu | hu
          · exact ih u (List.mem_append_left _ hu) hc
          · rcases List.mem_cons.mp hu with rfl | hu
            · have hreq := hstep.request_eq
              rw [hreq] at hc ⊢
              exact (ih t (by simp) hc).step (hK _ h) hstep
            · exact ih u (List.mem_append_right _ (List.mem_cons_of_mem _ hu)) hc
      | @publish H before after t t' b s hstep =>
          have hlater : H.entries <+: (H.push t.request b s).entries := List.prefix_append _ _
          intro u hu hc
          rcases List.mem_append.mp hu with hu | hu
          · exact (ih u (List.mem_append_left _ hu) hc).later hlater
          · rcases List.mem_cons.mp hu with rfl | hu
            · have hreq := hstep.request_eq
              rw [hreq] at hc ⊢
              exact ((ih t (by simp) hc).step (hK _ h) hstep).later hlater
            · exact (ih u (List.mem_append_right _ (List.mem_cons_of_mem _ hu)) hc).later hlater

/-- What the answer of a guarded request tells. -/
lemma Thread.Guards.answered {H : History S Q} {t : Thread S L ρ Q}
    (h : t.Guards K refusal p H) {r : ρ} (hr : t.program = .answer r) :
    refusal r ∨ ReadSince K t H p := by
  rcases h.guards with hread | ⟨hprog, -⟩
  · exact .inr hread
  · rw [hr] at hprog
    cases hprog with
    | answer hrefusal => exact .inl hrefusal

end guarded

end Transactions
