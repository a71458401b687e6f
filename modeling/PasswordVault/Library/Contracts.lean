import PasswordVault.Library.Transactions

/-!
# Contracts: rely/guarantee for requests

A request's program is judged on its own, against everything the other requests may do.

* `Env`: what can have happened while we hold some locks: the run went on, by commits that their
  requests guarantee, and our locks were respected.
* `Program.Meets`: each of our commits is one we guarantee, and our answer satisfies its
  postcondition, whatever the others do in between.
* `System.Reaches.sound`: when every request's program meets its contract, the history of every
  reachable system is a `Run`, and every answer given satisfies its postcondition.
* `Sat`: the judgement from a fact `K` about the history, with a rule for each kind of step.
-/

namespace Transactions

variable {S L ρ Q : Type} [Lockable S L]

/-! ## Runs -/

section runs

variable {guar : Q → Bool → History S Q → S → Prop} {fresh : Q → Q → Prop} {start : S}

/-- The committed database is what the last commit left. -/
lemma Run.current_eq {H : History S Q} (h : Run guar fresh start H) :
    H.current = (H.entries.getLast?.map Entry.after).getD start := by
  cases h with
  | start => rfl
  | push => simp

lemma Run.ext {H H' : History S Q} (h : Run guar fresh start H) (h' : Run guar fresh start H')
    (he : H.entries = H'.entries) : H = H' := by
  have hc : H.current = H'.current := by rw [h.current_eq, h'.current_eq, he]
  cases H
  cases H'
  simp_all

/-- Every earlier moment of a run is the end of a run. -/
lemma Run.of_prefix {H H₀ : History S Q} (h : Run guar fresh start H)
    (hearlier : H₀.entries <+: H.entries)
    (hcurrent : H₀.current = (H₀.entries.getLast?.map Entry.after).getD start) :
    Run guar fresh start H₀ := by
  induction h with
  | start =>
      have hnil : H₀.entries = [] := List.prefix_nil.mp hearlier
      obtain rfl : H₀ = ⟨[], start⟩ := by
        cases H₀
        simp_all
      exact .start
  | @push H q b s hrun hg hf ih =>
      rcases List.prefix_concat_iff.mp hearlier with he | hearlier
      · obtain rfl : H₀ = H.push q b s := by
          rw [he] at hcurrent
          cases H₀
          simp_all [History.push]
        exact hrun.push hg hf
      · exact ih hearlier

lemma Later.run {H H' : History S Q} (h : Later guar fresh start H H') :
    Run guar fresh start H' := h.1

lemma Run.later {H : History S Q} (h : Run guar fresh start H) : Later guar fresh start H H :=
  ⟨h, List.prefix_rfl⟩

lemma Later.trans {H H' H'' : History S Q} (h : Later guar fresh start H H')
    (h' : Later guar fresh start H' H'') : Later guar fresh start H H'' :=
  ⟨h'.1, h.2.trans h'.2⟩

lemma Run.later_push {H : History S Q} {q : Q} {b : Bool} {s : S}
    (h : Run guar fresh start (H.push q b s)) : Later guar fresh start H (H.push q b s) :=
  ⟨h, List.prefix_append _ _⟩

/-- Every entry of a history stays in the later ones. -/
lemma Later.entries_subset {H H' : History S Q} (h : Later guar fresh start H H') :
    ∀ e ∈ H.entries, e ∈ H'.entries := fun _ he => h.2.subset he

/-- **What one commit preserves, the rest of the run preserves.** -/
theorem Later.induction {K : History S Q → Prop}
    (step : ∀ H q b s, Run guar fresh start H → Run guar fresh start (H.push q b s) →
      guar q b H s → K H → K (H.push q b s))
    {H H' : History S Q} (hH : Run guar fresh start H) (h : Later guar fresh start H H')
    (hK : K H) : K H' := by
  obtain ⟨hrun, hpre⟩ := h
  induction hrun with
  | start =>
      have he : H.entries = [] := List.prefix_nil.mp hpre
      rwa [← hH.ext .start he]
  | @push H₁ q b s hrun hg hf ih =>
      rcases List.prefix_concat_iff.mp hpre with he | hpre₁
      · rwa [← hH.ext (hrun.push hg hf) he]
      · exact step H₁ q b s hrun (hrun.push hg hf) hg (ih hpre₁)

/-- **What holds at the start and is preserved by every commit holds along the run.** -/
theorem Run.invariant {K : History S Q → Prop} (init : K ⟨[], start⟩)
    (step : ∀ H q b s, Run guar fresh start H → guar q b H s →
      (b = true → ∀ e ∈ H.entries, e.closing = true → fresh e.request q) → K H →
      K (H.push q b s))
    {H : History S Q} (h : Run guar fresh start H) : K H := by
  induction h with
  | start => exact init
  | push hrun hg hf ih => exact step _ _ _ _ hrun hg hf ih

/-- **Every commit of a run was guaranteed when it was made**: cut at an entry, the run is a run up
to it, and a later one from it on. -/
theorem Run.split {H : History S Q} (h : Run guar fresh start H) {l₁ l₂ : List (Entry S Q)}
    {e : Entry S Q} (he : H.entries = l₁ ++ e :: l₂) :
    ∃ H₁, Run guar fresh start H₁ ∧ H₁.entries = l₁ ∧ H₁.current = e.before ∧
      guar e.request e.closing H₁ e.after ∧
      (Run guar fresh start (H₁.push e.request e.closing e.after) ∧
        Later guar fresh start (H₁.push e.request e.closing e.after) H) ∧
      (e.closing = true → ∀ e' ∈ l₁, e'.closing = true → fresh e'.request e.request) := by
  induction h generalizing l₂ with
  | start => simp at he
  | @push H q b s hrun hg hf ih =>
      rcases List.eq_nil_or_concat l₂ with rfl | ⟨l₃, x, rfl⟩
      · obtain ⟨rfl, hx⟩ := List.append_inj' he rfl
        obtain rfl := List.singleton_inj.mp hx
        exact ⟨H, hrun, rfl, rfl, hg, ⟨hrun.push hg hf, (hrun.push hg hf).later⟩, hf⟩
      · rw [History.push_entries, List.concat_eq_append, ← List.cons_append, ← List.append_assoc] at he
        obtain ⟨hentries, -⟩ := List.append_inj' he rfl
        obtain ⟨H₁, hrun₁, hl₁, hcur, hguar, ⟨hpush, hlater⟩, hfresh⟩ := ih hentries
        exact ⟨H₁, hrun₁, hl₁, hcur, hguar,
          ⟨hpush, hlater.trans (hrun.push hg hf).later_push⟩, hfresh⟩

/-- Two entries of a run, the second one later: the first one's commit is a point of the run before
the second one's. -/
theorem Run.between {H : History S Q} (h : Run guar fresh start H) {l₁ l₂ : List (Entry S Q)}
    {e e' : Entry S Q} (he : H.entries = l₁ ++ e :: l₂) (he' : e' ∈ l₂) :
    ∃ H₁ H₂, (Run guar fresh start H₁ ∧ H₁.entries = l₁ ∧ H₁.current = e.before ∧
        guar e.request e.closing H₁ e.after ∧
        Run guar fresh start (H₁.push e.request e.closing e.after)) ∧
      Later guar fresh start (H₁.push e.request e.closing e.after) H₂ ∧
      H₂.current = e'.before ∧ guar e'.request e'.closing H₂ e'.after := by
  obtain ⟨m₁, m₂, rfl⟩ := List.append_of_mem he'
  obtain ⟨H₁, hrun₁, hl₁, hcur₁, hg₁, ⟨hpush₁, -⟩, -⟩ := h.split he
  have hsplit : H.entries = (l₁ ++ e :: m₁) ++ e' :: m₂ := by
    rw [he, List.append_assoc, List.cons_append]
  obtain ⟨H₂, hrun₂, hl₂, hcur₂, hg₂, -, -⟩ := h.split hsplit
  refine ⟨H₁, H₂, ⟨hrun₁, hl₁, hcur₁, hg₁, hpush₁⟩, ⟨hrun₂, ?_⟩, hcur₂, hg₂⟩
  have hentry : (⟨e.request, e.closing, H₁.current, e.after⟩ : Entry S Q) = e := by rw [hcur₁]
  rw [History.push_entries, hl₁, hl₂, hentry]
  exact ⟨m₁, by rw [List.append_assoc, List.singleton_append]⟩

/-- No two transactions of a run share what they drew. -/
lemma Run.pairwise_fresh {H : History S Q} (h : Run guar fresh start H) :
    H.entries.Pairwise fun e e' =>
      e.closing = true → e'.closing = true → fresh e.request e'.request := by
  induction h with
  | start => exact .nil
  | push hrun hg hf ih =>
      rw [History.push_entries, List.pairwise_append]
      refine ⟨ih, List.pairwise_singleton _ _, fun e he e' he' hc hc' => ?_⟩
      rw [List.mem_singleton.mp he'] at hc' ⊢
      exact hf hc' e he hc

lemma Run.fresh_of_ne {H : History S Q} (h : Run guar fresh start H)
    (hsymm : ∀ {q q'}, fresh q q' → fresh q' q) {e e' : Entry S Q} (he : e ∈ H.entries)
    (he' : e' ∈ H.entries) (hne : e ≠ e') (hc : e.closing = true) (hc' : e'.closing = true) :
    fresh e.request e'.request := by
  have hpair := List.pairwise_iff_getElem.mp h.pairwise_fresh
  obtain ⟨i, hi, rfl⟩ := List.mem_iff_getElem.mp he
  obtain ⟨j, hj, rfl⟩ := List.mem_iff_getElem.mp he'
  rcases Nat.lt_trichotomy i j with hlt | rfl | hlt
  · exact hpair i j hi hj hlt hc hc'
  · exact absurd rfl hne
  · exact hsymm (hpair j i hj hi hlt hc' hc)

/-- What is seen after a commit is what it left, or was seen before. -/
lemma History.saw_push {H : History S Q} {q : Q} {b : Bool} {s : S} {p : S → Prop} :
    (H.push q b s).Saw p ↔ p s ∨ H.Saw p := by
  simp only [History.Saw, History.push_current, History.push_entries, List.mem_append,
    List.mem_singleton]
  constructor
  · rintro (h | ⟨e, he | rfl, h⟩)
    · exact .inl h
    · exact .inr (.inr ⟨e, he, h⟩)
    · exact .inr (.inl h)
  · rintro (h | h | ⟨e, he, h⟩)
    · exact .inl h
    · exact .inr ⟨_, .inr rfl, h⟩
    · exact .inr ⟨e, .inl he, h⟩

/-- What was seen stays seen. -/
lemma History.Saw.push {H : History S Q} {p : S → Prop} (h : H.Saw p) (q : Q) (b : Bool) (s : S) :
    (H.push q b s).Saw p :=
  saw_push.mpr (.inr h)

lemma History.Saw.mono {H : History S Q} {p p' : S → Prop} (h : H.Saw p) (hp : ∀ s, p s → p' s) :
    H.Saw p' :=
  h.imp (hp _) fun ⟨e, he, h⟩ => ⟨e, he, hp _ h⟩

/-- A later history has seen what held earlier. -/
lemma Later.saw {H H' : History S Q} {p : S → Prop} (hH : Run guar fresh start H)
    (h : Later guar fresh start H H') (hp : p H.current) : H'.Saw p :=
  Later.induction (K := fun H => H.Saw p) (fun _ q b s _ _ _ hK => hK.push q b s) hH h (.inl hp)

/-- What was seen earlier is seen later. -/
lemma Later.saw_of_saw {H H' : History S Q} {p : S → Prop} (hH : Run guar fresh start H)
    (h : Later guar fresh start H H') (hp : H.Saw p) : H'.Saw p :=
  Later.induction (K := fun H => H.Saw p) (fun _ q b s _ _ _ hK => hK.push q b s) hH h hp

/-- What a commit has left was seen. -/
lemma Run.saw_after {H : History S Q} {p : S → Prop} (h : Run guar fresh start H) {e : Entry S Q}
    (he : e ∈ H.entries) (hp : p e.after) : H.Saw p := by
  obtain ⟨l₁, l₂, hsplit⟩ := List.append_of_mem he
  obtain ⟨H₁, -, -, -, -, ⟨hpush, hlater⟩, -⟩ := Run.split h hsplit
  exact hlater.saw hpush hp

/-- What no commit destroys holds from the moment it was seen. -/
lemma Run.of_saw {p : S → Prop}
    (step : ∀ H q b s, Run guar fresh start H → guar q b H s → p H.current → p s)
    {H : History S Q} (h : Run guar fresh start H) (hp : H.Saw p) : p H.current := by
  refine Run.invariant (K := fun H => H.Saw p → p H.current) ?_ ?_ h hp
  · rintro (hp | ⟨e, he, -⟩)
    · exact hp
    · cases he
  · intro H q b s hrun hg _ ih hp
    rcases History.saw_push.mp hp with hp | hp
    · exact hp
    · exact step H q b s hrun hg (ih hp)

end runs

/-! ## Contracts -/

section contracts

variable (guar : Q → Bool → History S Q → S → Prop) (fresh : Q → Q → Prop) (start : S)

/-- What may have happened while we hold `locks`. -/
def Env (locks : List L) (H H' : History S Q) : Prop :=
  Later guar fresh start H H' ∧ ∀ l ∈ locks, Keeps l H.current H'.current

/-- A fact that the others cannot destroy while we hold `locks`. -/
def Stable (locks : List L) (K : History S Q → Prop) : Prop :=
  ∀ H H', Run guar fresh start H → Env guar fresh start locks H H' → K H → K H'

variable (q : Q) (P : History S Q → ρ → Prop)

/-- The program keeps its contract when it goes on from history `H` on connection `c`: each of
our commits is one that `q` guarantees, and our answer satisfies `P` from then on. -/
def Program.Meets : Program S L ρ → Connection S L → History S Q → Prop
  | .answer r, _, H => ∀ H', Later guar fresh start H H' → P H' r
  | .inside stmt failed next, c, H => ∀ H₀ H₁, Env guar fresh start c.locks H H₀ →
      Env guar fresh start c.locks H₀ H₁ →
      (∀ e, e = .other ∨ stmt.exec (c.writes H₀.current) (c.writes H₁.current) = .error e →
        ∀ H', Later guar fresh start H₁ H' → P H' (failed e)) ∧
      ∀ r, stmt.exec (c.writes H₀.current) (c.writes H₁.current) = .ok r →
        (next r.value).Meets ⟨r.effect ∘ c.writes, r.locks ++ c.locks⟩ H₁
  | .alone stmt failed next, c, H => ∀ H₀ H₁, Env guar fresh start c.locks H H₀ →
      Env guar fresh start c.locks H₀ H₁ →
      (∀ e, e = .other ∨ stmt.exec H₀.current H₁.current = .error e →
        ∀ H', Later guar fresh start H₁ H' → P H' (failed e)) ∧
      ∀ r, stmt.exec H₀.current H₁.current = .ok r → (∀ l ∈ r.locks, l ∉ c.locks) →
        guar q false H₁ (r.effect H₁.current) ∧
        (next r.value).Meets c (H₁.push q false (r.effect H₁.current))
  | .commit failed done, c, H => ∀ H₁, Env guar fresh start c.locks H H₁ →
      (∀ H', Later guar fresh start H₁ H' → P H' failed) ∧
      guar q true H₁ (c.writes H₁.current) ∧
      ∀ H', Later guar fresh start (H₁.push q true (c.writes H₁.current)) H' → P H' done

end contracts

/-- A contract that asks nothing of a request is met by any program. -/
lemma Program.meets_trivial {guar : Q → Bool → History S Q → S → Prop} {fresh : Q → Q → Prop}
    {start : S} {q : Q} {P : History S Q → ρ → Prop} (hguar : ∀ b H s, guar q b H s)
    (hP : ∀ H r, P H r) (p : Program S L ρ) (c : Connection S L) (H : History S Q) :
    p.Meets guar fresh start q P c H := by
  induction p generalizing c H with
  | answer r => exact fun H' _ => hP H' r
  | inside stmt failed next ih =>
      exact fun H₀ H₁ _ _ => ⟨fun e _ H' _ => hP H' _, fun r _ => ih r.value _ H₁⟩
  | «alone» stmt failed next ih =>
      exact fun H₀ H₁ _ _ => ⟨fun e _ H' _ => hP H' _, fun r _ _ =>
        ⟨hguar _ _ _, ih r.value _ _⟩⟩
  | commit failed done =>
      exact fun H₁ _ => ⟨fun H' _ => hP H' _, hguar _ _ _, fun H' _ => hP H' _⟩

/-- A contract may ask less of the answers. -/
lemma Program.Meets.imp {guar : Q → Bool → History S Q → S → Prop} {fresh : Q → Q → Prop}
    {start : S} {q : Q} {P P' : History S Q → ρ → Prop} (hP : ∀ H r, P H r → P' H r) {p : Program S L ρ}
    {c : Connection S L} {H : History S Q} (h : p.Meets guar fresh start q P c H) :
    p.Meets guar fresh start q P' c H := by
  induction p generalizing c H with
  | answer r => exact fun H' hl => hP H' r (h H' hl)
  | inside stmt failed next ih =>
      intro H₀ H₁ h₀ h₁
      obtain ⟨herr, hok⟩ := h H₀ H₁ h₀ h₁
      exact ⟨fun e he H' hl => hP H' _ (herr e he H' hl), fun r hr => ih r.value (hok r hr)⟩
  | «alone» stmt failed next ih =>
      intro H₀ H₁ h₀ h₁
      obtain ⟨herr, hok⟩ := h H₀ H₁ h₀ h₁
      exact ⟨fun e he H' hl => hP H' _ (herr e he H' hl), fun r hr hlocks =>
        ⟨(hok r hr hlocks).1, ih r.value (hok r hr hlocks).2⟩⟩
  | commit failed done =>
      intro H₁ h₁
      obtain ⟨herr, hguar, hdone⟩ := h H₁ h₁
      exact ⟨fun H' hl => hP H' _ (herr H' hl), hguar, fun H' hl => hP H' _ (hdone H' hl)⟩

section soundness

variable {guar : Q → Bool → History S Q → S → Prop} {fresh : Q → Q → Prop} {start : S}

lemma Env.run {locks : List L} {H H' : History S Q} (h : Env guar fresh start locks H H') :
    Run guar fresh start H' := h.1.run

lemma Run.env {H : History S Q} (h : Run guar fresh start H) (locks : List L) :
    Env guar fresh start locks H H := ⟨h.later, fun l _ => Lockable.refl l _⟩

lemma Env.trans {locks : List L} {H H' H'' : History S Q} (h : Env guar fresh start locks H H')
    (h' : Env guar fresh start locks H' H'') : Env guar fresh start locks H H'' :=
  ⟨h.1.trans h'.1, fun l hl => Lockable.trans (h.2 l hl) (h'.2 l hl)⟩

lemma Env.mono {locks locks' : List L} {H H' : History S Q}
    (h : Env guar fresh start locks H H') (hs : ∀ l ∈ locks', l ∈ locks) :
    Env guar fresh start locks' H H' := ⟨h.1, fun l hl => h.2 l (hs l hl)⟩

/-- What the statement being run sees at its start. -/
def Program.view : Program S L ρ → Connection S L → S → S
  | .inside _ _ _, c, s => c.writes s
  | _, _, s => s

variable (guar fresh start) in
/-- A thread is on its way to keeping its contract. -/
structure Thread.Ok (post : Q → History S Q → History S Q → ρ → Prop) (H : History S Q)
    (t : Thread S L ρ Q) : Prop where
  /-- It arrived at an earlier point of the run. -/
  born : Run guar fresh start t.born ∧ Later guar fresh start t.born H
  /-- Its private writes respect every lock it does not hold. -/
  frame : ∀ l, l ∉ t.connection.locks → ∀ s, Keeps l s (t.connection.writes s)
  /-- Its program meets its contract from some earlier point on; a statement being run has its
  snapshot from a point in between. -/
  meets : ∃ H₀ H₁, t.program.Meets guar fresh start t.request (post t.request t.born)
      t.connection H₀ ∧ Env guar fresh start t.connection.locks H₀ H₁ ∧
      Env guar fresh start t.connection.locks H₁ H ∧
      ∀ snap, t.snapshot = some snap → snap = t.program.view t.connection H₁.current

variable (guar fresh start) in
/-- The invariant of the reachable systems. -/
structure System.Ok (post : Q → History S Q → History S Q → ρ → Prop)
    (sys : System S L ρ Q) : Prop where
  run : Run guar fresh start sys.history
  threads : ∀ t ∈ sys.threads, t.Ok guar fresh start post sys.history
  /-- No two threads hold the same lock. -/
  apart : sys.threads.Pairwise fun t u => ∀ l, l ∈ t.connection.locks → l ∉ u.connection.locks
  /-- Every commit was made by one of the requests. -/
  known : ∀ e ∈ sys.history.entries, ∃ t ∈ sys.threads, t.request = e.request
  /-- A request that is not answered has committed no transaction yet. -/
  drawn : ∀ e ∈ sys.history.entries, e.closing = true → ∀ t ∈ sys.threads,
    ¬ t.program.Answered → fresh e.request t.request
  distinct : sys.threads.Pairwise fun t u => fresh t.request u.request

variable {post : Q → History S Q → History S Q → ρ → Prop}

/-- A thread stays on its way when others commit within its locks. -/
lemma Thread.Ok.later {t : Thread S L ρ Q} {H H' : History S Q}
    (h : t.Ok guar fresh start post H) (he : Env guar fresh start t.connection.locks H H') :
    t.Ok guar fresh start post H' := by
  obtain ⟨H₀, H₁, hm, h₀, h₁, hs⟩ := h.meets
  exact ⟨⟨h.born.1, h.born.2.trans he.1⟩, h.frame, H₀, H₁, hm, h₀, h₁.trans he, hs⟩

/-- A thread that goes on with a program that meets the contract. -/
lemma Thread.Ok.resume {t : Thread S L ρ Q} {H : History S Q} {p : Program S L ρ}
    {c : Connection S L} (hrun : Run guar fresh start H)
    (hb : Run guar fresh start t.born ∧ Later guar fresh start t.born H)
    (hf : ∀ l, l ∉ c.locks → ∀ s, Keeps l s (c.writes s))
    (hm : p.Meets guar fresh start t.request (post t.request t.born) c H) :
    (t.resume p c).Ok guar fresh start post H := by
  cases p with
  | answer r =>
      exact ⟨hb, fun l _ s => Lockable.refl l s, H, H, hm, hrun.env _, hrun.env _, by
        simp [Thread.resume]⟩
  | inside | alone | commit =>
      exact ⟨hb, hf, H, H, hm, hrun.env _, hrun.env _, by simp [Thread.resume]⟩

lemma mem_settle_locks {c : Connection S L} {p : Program S L ρ} {l : L}
    (h : l ∈ (c.settle p).locks) : l ∈ c.locks := by
  cases p <;> simp_all [Connection.settle]

/-- An answer that is right from now on. -/
lemma Thread.Ok.answer {t : Thread S L ρ Q} {H : History S Q} {r : ρ}
    (hrun : Run guar fresh start H)
    (hb : Run guar fresh start t.born ∧ Later guar fresh start t.born H)
    (hr : ∀ H', Later guar fresh start H H' → post t.request t.born H' r) :
    (t.resume (.answer r) {}).Ok guar fresh start post H :=
  .resume hrun hb (fun l _ s => Lockable.refl l s) hr

variable (guar fresh start) in
/-- What a step of one thread does to it, to the locks and to the history. -/
structure Thread.StepOk (post : Q → History S Q → History S Q → ρ → Prop) (held : List L)
    (H H' : History S Q) (t t' : Thread S L ρ Q) : Prop where
  ok : t'.Ok guar fresh start post H'
  request : t'.request = t.request
  locks : ∀ l ∈ t'.connection.locks, l ∈ t.connection.locks ∨ l ∉ held

/-- **A private step keeps the thread on its way.** -/
lemma Thread.Step.quiet_ok {held : List L} {H : History S Q} {t t' : Thread S L ρ Q}
    (hrun : Run guar fresh start H) (h : t.Ok guar fresh start post H)
    (hs : Thread.Step held H.current t none t') :
    Thread.StepOk guar fresh start post held H H t t' := by
  obtain ⟨H₀, H₁, hm, h₀, h₁, hsnap⟩ := h.meets
  cases hs with
  | begin hp hn =>
      refine ⟨⟨h.born, h.frame, H₀, H, hm, h₀.trans h₁, hrun.env _, ?_⟩, rfl, fun l hl => .inl hl⟩
      simp [hp, Program.view]
  | done hp hn hr hl =>
      rw [hp] at hm
      have hsn := hsnap _ hn
      rw [hp] at hsn
      subst hsn
      refine ⟨.resume hrun h.born ?_ ((hm H₁ H h₀ h₁).2 _ hr), rfl, ?_⟩
      · intro l hlk s
        rw [List.mem_append, not_or] at hlk
        exact Lockable.trans (h.frame l hlk.2 s) (Statement.frame _ hr l hlk.1 _)
      · intro l hlk
        rcases List.mem_append.mp (mem_settle_locks hlk) with hlk | hlk
        · exact .inr (hl l hlk)
        · exact .inl hlk
  | refused hp hn hr =>
      rw [hp] at hm
      have hsn := hsnap _ hn
      rw [hp] at hsn
      subst hsn
      exact ⟨.answer hrun h.born ((hm H₁ H h₀ h₁).1 _ (.inr hr)), rfl,
        by simp [Thread.resume, Connection.settle]⟩
  | broken hp =>
      rw [hp] at hm
      exact ⟨.answer hrun h.born ((hm H₁ H h₀ h₁).1 _ (.inl rfl)), rfl,
        by simp [Thread.resume, Connection.settle]⟩
  | beginAlone hp hn =>
      refine ⟨⟨h.born, h.frame, H₀, H, hm, h₀.trans h₁, hrun.env _, ?_⟩, rfl, fun l hl => .inl hl⟩
      simp [hp, Program.view]
  | refusedAlone hp hn hr =>
      rw [hp] at hm
      have hsn := hsnap _ hn
      rw [hp] at hsn
      subst hsn
      exact ⟨.answer hrun h.born ((hm H₁ H h₀ h₁).1 _ (.inr hr)), rfl,
        by simp [Thread.resume, Connection.settle]⟩
  | brokenAlone hp =>
      rw [hp] at hm
      exact ⟨.answer hrun h.born ((hm H₁ H h₀ h₁).1 _ (.inl rfl)), rfl,
        by simp [Thread.resume, Connection.settle]⟩
  | commitFailed hp =>
      rw [hp] at hm
      exact ⟨.answer hrun h.born (hm H (h₀.trans h₁)).1, rfl,
        by simp [Thread.resume, Connection.settle]⟩

/-- **A published step is a commit that the request guarantees, and keeps the thread on its way.**
Every lock the step does not hold is respected by the change. -/
lemma Thread.Step.publish_ok {held : List L} {H : History S Q} {t t' : Thread S L ρ Q} {b : Bool}
    {s : S} (hrun : Run guar fresh start H) (h : t.Ok guar fresh start post H)
    (hheld : ∀ l ∈ held, l ∉ t.connection.locks)
    (hdrawn : b = true → ∀ e ∈ H.entries, e.closing = true → fresh e.request t.request)
    (hs : Thread.Step held H.current t (some (b, s)) t') :
    Run guar fresh start (H.push t.request b s) ∧
      Thread.StepOk guar fresh start post held H (H.push t.request b s) t t' ∧
      (∀ l ∈ held, Keeps l H.current s) ∧ (b = true → t'.program.Answered) := by
  obtain ⟨H₀, H₁, hm, h₀, h₁, hsnap⟩ := h.meets
  cases hs with
  | doneAlone hp hn hr hl =>
      rw [hp] at hm
      have hsn := hsnap _ hn
      rw [hp] at hsn
      subst hsn
      obtain ⟨hg, hnext⟩ := (hm H₁ H h₀ h₁).2 _ hr fun l hlk => (hl l hlk).2
      have hpush := hrun.push hg fun hb => absurd hb (by simp)
      refine ⟨hpush, ⟨.resume hpush ⟨h.born.1, h.born.2.trans hpush.later_push⟩ h.frame hnext, rfl,
        fun l hlk => .inl (mem_settle_locks hlk)⟩, ?_, by simp⟩
      exact fun l hlk => Statement.frame _ hr l (fun hlr => (hl l hlr).1 hlk) _
  | commit hp =>
      rw [hp] at hm
      obtain ⟨-, hg, hok⟩ := hm H (h₀.trans h₁)
      have hpush := hrun.push hg hdrawn
      refine ⟨hpush, ⟨.answer hpush ⟨h.born.1, h.born.2.trans hpush.later_push⟩ hok, rfl,
        by simp [Thread.resume, Connection.settle]⟩, ?_, fun _ => trivial⟩
      exact fun l hlk => h.frame l (hheld l hlk) _

/-- Only a thread that has no answer yet can step. -/
lemma Thread.Step.not_answered {held : List L} {db : S} {t t' : Thread S L ρ Q}
    {out : Option (Bool × S)} (hs : Thread.Step held db t out t') : ¬ t.program.Answered := by
  cases hs <;> simp_all [Program.Answered]

/-- The locks of the other threads are not the thread's own. -/
lemma System.Ok.not_mem_locks {H : History S Q} {before after : List (Thread S L ρ Q)}
    {t : Thread S L ρ Q} (h : System.Ok guar fresh start post ⟨H, before ++ t :: after⟩) :
    ∀ l ∈ heldBy (before ++ after), l ∉ t.connection.locks := by
  intro l hl hlt
  obtain ⟨u, hu, hlu⟩ := mem_heldBy.mp hl
  obtain ⟨-, hta, hcross⟩ := List.pairwise_append.mp h.apart
  rcases List.mem_append.mp hu with hu | hu
  · exact hcross u hu t List.mem_cons_self l hlu hlt
  · exact (List.pairwise_cons.mp hta).1 u hu l hlt hlu

/-- The rest of the invariant, once the thread that stepped is known to be on its way. -/
lemma System.Ok.update {H H' : History S Q} {before after : List (Thread S L ρ Q)}
    {t t' : Thread S L ρ Q} (h : System.Ok guar fresh start post ⟨H, before ++ t :: after⟩)
    (hrun : Run guar fresh start H')
    (hstep : Thread.StepOk guar fresh start post (heldBy (before ++ after)) H H' t t')
    (henv : Env guar fresh start (heldBy (before ++ after)) H H')
    (hknown : ∀ e ∈ H'.entries, e ∈ H.entries ∨ e.request = t.request)
    (hdrawn : ∀ e ∈ H'.entries, e.closing = true → e ∈ H.entries ∨
      e.request = t.request ∧ t'.program.Answered)
    (hans : ¬ t.program.Answered) (hsymm : ∀ {q q'}, fresh q q' → fresh q' q) :
    System.Ok guar fresh start post ⟨H', before ++ t' :: after⟩ := by
  have hmem : ∀ {u}, u ∈ before ++ t' :: after ↔ u = t' ∨ u ∈ before ++ after := by
    intro u
    simp only [List.mem_append, List.mem_cons]
    tauto
  have hold : ∀ {u}, u ∈ before ++ after → u ∈ before ++ t :: after := by
    intro u
    simp only [List.mem_append, List.mem_cons]
    tauto
  have hfresh := (List.pairwise_middle fun hxy => hsymm hxy).mp h.distinct
  have hlocks := (List.pairwise_middle fun hxy l hx hy => hxy l hy hx).mp h.apart
  rw [List.pairwise_cons] at hfresh hlocks
  refine ⟨hrun, ?_, ?_, ?_, ?_, ?_⟩
  · intro u hu
    rcases hmem.mp hu with rfl | hu
    · exact hstep.ok
    · exact (h.threads u (hold hu)).later
        (henv.mono fun l hl => mem_heldBy.mpr ⟨u, hu, hl⟩)
  · rw [List.pairwise_middle fun hxy l hx hy => hxy l hy hx, List.pairwise_cons]
    refine ⟨fun u hu l hl hlu => ?_, hlocks.2⟩
    rcases hstep.locks l hl with hl | hl
    · exact hlocks.1 u hu l hl hlu
    · exact hl (mem_heldBy.mpr ⟨u, hu, hlu⟩)
  · intro e he
    rcases hknown e he with he | he
    · obtain ⟨u, hu, hreq⟩ := h.known e he
      rcases List.mem_append.mp hu with hu | hu
      · exact ⟨u, hmem.mpr (.inr (List.mem_append_left _ hu)), hreq⟩
      · rcases List.mem_cons.mp hu with rfl | hu
        · exact ⟨t', hmem.mpr (.inl rfl), hstep.request.trans hreq⟩
        · exact ⟨u, hmem.mpr (.inr (List.mem_append_right _ hu)), hreq⟩
    · exact ⟨t', hmem.mpr (.inl rfl), hstep.request.trans he.symm⟩
  · intro e he hclosing u hu hu'
    rcases hdrawn e he hclosing with hin | ⟨hreq, hans'⟩
    · rcases hmem.mp hu with rfl | hu
      · rw [hstep.request]
        exact h.drawn e hin hclosing t (by simp) hans
      · exact h.drawn e hin hclosing u (hold hu) hu'
    · rcases hmem.mp hu with rfl | hu
      · exact absurd hans' hu'
      · rw [hreq]
        exact hfresh.1 u hu
  · rw [List.pairwise_middle fun hxy => hsymm hxy, List.pairwise_cons, hstep.request]
    exact hfresh

/-- **One step of the system keeps the invariant.** -/
theorem System.Step.ok {serve : Q → Program S L ρ} (hsymm : ∀ {q q'}, fresh q q' → fresh q' q)
    (hserve : ∀ q H, Run guar fresh start H →
      (serve q).Meets guar fresh start q (post q H) {} H)
    {sys sys' : System S L ρ Q} (h : sys.Ok guar fresh start post)
    (hs : System.Step serve fresh sys sys') : sys'.Ok guar fresh start post := by
  cases hs with
  | arrive q hq =>
      have hthread : (sys.arrival serve q).Ok guar fresh start post sys.history :=
        ⟨⟨h.run, h.run.later⟩, fun l _ s => Lockable.refl l s, sys.history, sys.history,
          hserve q sys.history h.run, h.run.env _, h.run.env _, by simp [System.arrival]⟩
      refine ⟨h.run, ?_, ?_, ?_, ?_, ?_⟩
      · intro t ht
        rcases List.mem_append.mp ht with ht | ht
        · exact h.threads t ht
        · obtain rfl := List.mem_singleton.mp ht
          exact hthread
      · refine List.pairwise_append.mpr ⟨h.apart, List.pairwise_singleton _ _, ?_⟩
        intro t _ u hu l _
        obtain rfl := List.mem_singleton.mp hu
        simp [System.arrival]
      · intro e he
        obtain ⟨t, ht, hreq⟩ := h.known e he
        exact ⟨t, List.mem_append_left _ ht, hreq⟩
      · intro e he hclosing t ht hans
        rcases List.mem_append.mp ht with ht | ht
        · exact h.drawn e he hclosing t ht hans
        · obtain rfl := List.mem_singleton.mp ht
          obtain ⟨u, hu, hreq⟩ := h.known e he
          exact hreq ▸ hq u hu
      · refine List.pairwise_append.mpr ⟨h.distinct, List.pairwise_singleton _ _, ?_⟩
        intro t ht u hu
        obtain rfl := List.mem_singleton.mp hu
        exact hq t ht
  | @quiet H before after t t' ht =>
      have hstep := ht.quiet_ok h.run (h.threads t (by simp))
      exact h.update h.run hstep (h.run.env _) (fun e he => .inl he) (fun e he _ => .inl he)
        ht.not_answered hsymm
  | @publish H before after t t' b s ht =>
      have hans := ht.not_answered
      obtain ⟨hpush, hstep, hkeeps, hdone⟩ := ht.publish_ok h.run (h.threads t (by simp))
        h.not_mem_locks fun _ e he hclosing => h.drawn e he hclosing t (by simp) hans
      refine h.update hpush hstep ⟨hpush.later_push, hkeeps⟩ ?_ ?_ hans hsymm
      · intro e he
        rcases List.mem_append.mp he with he | he
        · exact .inl he
        · exact .inr (by rw [List.mem_singleton.mp he])
      · intro e he hclosing
        rcases List.mem_append.mp he with he | he
        · exact .inl he
        · obtain rfl := List.mem_singleton.mp he
          exact .inr ⟨rfl, hdone hclosing⟩

/-- **Soundness.** When the program of every request meets its contract, the invariant holds in
every reachable system: its history is a run of guaranteed commits. -/
theorem System.Reaches.sound {serve : Q → Program S L ρ} (hsymm : ∀ {q q'}, fresh q q' → fresh q' q)
    (hserve : ∀ q H, Run guar fresh start H →
      (serve q).Meets guar fresh start q (post q H) {} H)
    {sys : System S L ρ Q} (h : System.Reaches serve fresh start sys) :
    sys.Ok guar fresh start post := by
  induction h with
  | init => exact ⟨.start, by simp, .nil, by simp, by simp, .nil⟩
  | step _ hs ih => exact hs.ok hsymm hserve ih

/-- **Every answer given satisfies its postcondition.** -/
theorem System.Ok.answered {sys : System S L ρ Q} (h : sys.Ok guar fresh start post)
    {t : Thread S L ρ Q} (ht : t ∈ sys.threads) {r : ρ} (hr : t.program = .answer r) :
    post t.request t.born sys.history r := by
  obtain ⟨H₀, H₁, hm, h₀, h₁, -⟩ := (h.threads t ht).meets
  rw [hr] at hm
  exact hm _ (h₀.trans h₁).1

end soundness

/-! ## Judgements from a fact -/

section judgements

variable (guar : Q → Bool → History S Q → S → Prop) (fresh : Q → Q → Prop) (start : S)
variable (q : Q) (P : History S Q → ρ → Prop)

/-- The program meets its contract from every point of a run at which `K` holds. -/
def Sat (c : Connection S L) (K : History S Q → Prop) (p : Program S L ρ) : Prop :=
  ∀ H, Run guar fresh start H → K H → p.Meets guar fresh start q P c H

variable {guar fresh start q P} {c : Connection S L} {K : History S Q → Prop}

lemma Stable.of_locks {locks locks' : List L} (h : Stable guar fresh start locks K)
    (hs : ∀ l ∈ locks, l ∈ locks') : Stable guar fresh start locks' K :=
  fun H H' hH he hK => h H H' hH (he.mono hs) hK

lemma Stable.and {locks : List L} {K' : History S Q → Prop} (h : Stable guar fresh start locks K)
    (h' : Stable guar fresh start locks K') :
    Stable guar fresh start locks fun H => K H ∧ K' H :=
  fun H H' hH he hK => ⟨h H H' hH he hK.1, h' H H' hH he hK.2⟩

lemma Stable.forall {α : Sort*} {locks : List L} {K : α → History S Q → Prop}
    (h : ∀ a, Stable guar fresh start locks (K a)) :
    Stable guar fresh start locks fun H => ∀ a, K a H :=
  fun H H' hH he hK a => h a H H' hH he (hK a)

/-- A fact that some held lock protects. -/
lemma Stable.of_keeps {locks : List L} {k : S → Prop} {l : L} (hl : l ∈ locks)
    (h : ∀ s s', Keeps l s s' → k s → k s') :
    Stable guar fresh start locks fun H => k H.current :=
  fun _ _ _ he hK => h _ _ (he.2 l hl) hK

/-- That something was already committed stays true. -/
lemma Stable.later (locks : List L) (H₀ : History S Q) :
    Stable guar fresh start locks fun H => Later guar fresh start H₀ H :=
  fun _ _ _ he hK => hK.trans he.1

lemma Stable.const (locks : List L) (k : Prop) :
    Stable guar fresh start locks fun _ : History S Q => k :=
  fun _ _ _ _ hK => hK

lemma Sat.weaken {K' : History S Q → Prop} {p : Program S L ρ}
    (h : Sat guar fresh start q P c K' p) (hK : ∀ H, Run guar fresh start H → K H → K' H) :
    Sat guar fresh start q P c K p :=
  fun H hrun hH => h H hrun (hK H hrun hH)

lemma Sat.answer {r : ρ} (h : ∀ H H', Run guar fresh start H → Later guar fresh start H H' →
    K H → P H' r) : Sat guar fresh start q P c K (.answer r) :=
  fun H hrun hH H' hl => h H H' hrun hl hH

lemma Sat.finish {α : Type} {r : ρ} {k : α → Program S L ρ} (h : ∀ H, P H r) :
    Sat guar fresh start q P c K (Handler.finish r k) :=
  fun _ _ _ H' _ => h H'

lemma Sat.orElse {ε α : Type} {failed : ε → ρ} {x : Except ε α} {k : α → Program S L ρ}
    (herr : ∀ e H, P H (failed e)) (h : ∀ a, x = .ok a → Sat guar fresh start q P c K (k a)) :
    Sat guar fresh start q P c K (Handler.orElse failed x k) := by
  cases x with
  | ok a => exact h a rfl
  | error e => exact fun _ _ _ H' _ => herr e H'

/-- A statement of the transaction: what it found gives the facts of the rest. An answer to its
failure may use what is known. -/
lemma Sat.insideKnown {β : Type} {stmt : Statement S L β} {failed : DbError → ρ}
    {next : β → Program S L ρ} (hK : Stable guar fresh start c.locks K)
    (herr : ∀ e H H', Run guar fresh start H → K H → Later guar fresh start H H' → P H' (failed e))
    (h : ∀ H₀ H₁ r, Run guar fresh start H₀ → K H₀ → K H₁ → Env guar fresh start c.locks H₀ H₁ →
      stmt.exec (c.writes H₀.current) (c.writes H₁.current) = .ok r →
      (next r.value).Meets guar fresh start q P ⟨r.effect ∘ c.writes, r.locks ++ c.locks⟩ H₁) :
    Sat guar fresh start q P c K (Handler.inside stmt failed next) := by
  intro H hrun hH H₀ H₁ h₀ h₁
  have hK₀ := hK H H₀ hrun h₀ hH
  have hK₁ := hK H₀ H₁ h₀.run h₁ hK₀
  exact ⟨fun e _ H' hl => herr e H₁ H' h₁.run hK₁ hl,
    fun r hr => h H₀ H₁ r h₀.run hK₀ hK₁ h₁ hr⟩

lemma Sat.inside {β : Type} {stmt : Statement S L β} {failed : DbError → ρ}
    {next : β → Program S L ρ} (hK : Stable guar fresh start c.locks K)
    (herr : ∀ e H, P H (failed e))
    (h : ∀ H₀ H₁ r, Run guar fresh start H₀ → K H₀ → K H₁ → Env guar fresh start c.locks H₀ H₁ →
      stmt.exec (c.writes H₀.current) (c.writes H₁.current) = .ok r →
      (next r.value).Meets guar fresh start q P ⟨r.effect ∘ c.writes, r.locks ++ c.locks⟩ H₁) :
    Sat guar fresh start q P c K (Handler.inside stmt failed next) :=
  Sat.insideKnown hK (fun e _ H' _ _ _ => herr e H') h

/-- A statement on its own: its change must be guaranteed. -/
lemma Sat.alone {β : Type} {stmt : Statement S L β} {failed : DbError → ρ}
    {next : β → Program S L ρ} (hK : Stable guar fresh start [] K) (hc : c.locks = [])
    (herr : ∀ e H, P H (failed e))
    (hg : ∀ H₀ H₁ r, Run guar fresh start H₀ → K H₀ → K H₁ → Later guar fresh start H₀ H₁ →
      stmt.exec H₀.current H₁.current = .ok r → guar q false H₁ (r.effect H₁.current))
    (h : ∀ H₀ H₁ r, Run guar fresh start H₀ → K H₀ → K (H₁.push q false (r.effect H₁.current)) →
      Later guar fresh start H₀ H₁ → Run guar fresh start (H₁.push q false (r.effect H₁.current)) →
      stmt.exec H₀.current H₁.current = .ok r →
      (next r.value).Meets guar fresh start q P c (H₁.push q false (r.effect H₁.current))) :
    Sat guar fresh start q P c K (Handler.alone stmt failed next) := by
  intro H hrun hH H₀ H₁ h₀ h₁
  rw [hc] at h₀ h₁
  have hK₀ := hK H H₀ hrun h₀ hH
  have hK₁ := hK H₀ H₁ h₀.run h₁ hK₀
  refine ⟨fun e _ H' _ => herr e H', fun r hr _ => ?_⟩
  have hguar := hg H₀ H₁ r h₀.run hK₀ hK₁ h₁.1 hr
  have hpush := h₁.run.push hguar fun hb => absurd hb (by simp)
  exact ⟨hguar, h H₀ H₁ r h₀.run hK₀ (hK H₁ _ h₁.run ⟨hpush.later_push, by simp⟩ hK₁) h₁.1 hpush hr⟩

lemma Sat.commit {α : Type} {failed done : ρ} {k : α → Program S L ρ}
    (hK : Stable guar fresh start c.locks K) (herr : ∀ H, P H failed)
    (hg : ∀ H, Run guar fresh start H → K H → guar q true H (c.writes H.current))
    (hdone : ∀ H H', Run guar fresh start H → K H →
      Later guar fresh start (H.push q true (c.writes H.current)) H' → P H' done) :
    Sat guar fresh start q P c K (Handler.commit failed done k) := by
  intro H hrun hH H₁ h₁
  have hK₁ := hK H H₁ hrun h₁ hH
  exact ⟨fun H' _ => herr H', hg H₁ h₁.run hK₁, fun H' hl => hdone H₁ H' h₁.run hK₁ hl⟩

/-- A read in the transaction: the rest knows that the value was found at some point `H₀`. -/
lemma Sat.query {β : Type} {f : S → β} {failed : DbError → ρ} {next : β → Program S L ρ}
    (hK : Stable guar fresh start c.locks K) (herr : ∀ e H, P H (failed e))
    (h : ∀ v K', Stable guar fresh start c.locks K' →
      (∀ H, K' H → K H ∧ ∃ H₀, K H₀ ∧ Run guar fresh start H₀ ∧ Later guar fresh start H₀ H ∧
        v = f (c.writes H₀.current)) →
      Sat guar fresh start q P c K' (next v)) :
    Sat guar fresh start q P c K (Handler.inside (Statement.query f) failed next) := by
  refine Sat.inside hK herr fun H₀ H₁ r hrun hK₀ hK₁ henv hr => ?_
  obtain rfl := Except.ok.inj hr
  refine h (f (c.writes H₀.current)) (fun H => K H ∧ Later guar fresh start H₀ H)
    (hK.and (.later _ H₀)) (fun H hH => ⟨hH.1, H₀, hK₀, hrun, hH.2, rfl⟩) H₁ henv.run
    ⟨hK₁, henv.1⟩

/-- A read on its own. -/
lemma Sat.queryAlone {β : Type} {f : S → β} {failed : DbError → ρ} {next : β → Program S L ρ}
    (hK : Stable guar fresh start [] K) (hc : c.locks = []) (herr : ∀ e H, P H (failed e))
    (hidle : ∀ H, guar q false H H.current)
    (h : ∀ v K', Stable guar fresh start [] K' →
      (∀ H, K' H → K H ∧ ∃ H₀, K H₀ ∧ Run guar fresh start H₀ ∧ Later guar fresh start H₀ H ∧
        v = f H₀.current) →
      Sat guar fresh start q P c K' (next v)) :
    Sat guar fresh start q P c K (Handler.alone (Statement.query f) failed next) := by
  refine Sat.alone hK hc herr ?_ ?_
  · intro H₀ H₁ r _ _ _ _ hr
    obtain rfl := Except.ok.inj hr
    exact hidle H₁
  · intro H₀ H₁ r hrun hK₀ hK₁ hl hpush hr
    obtain rfl := Except.ok.inj hr
    exact h (f H₀.current) (fun H => K H ∧ Later guar fresh start H₀ H) (hK.and (.later _ H₀))
      (fun H hH => ⟨hH.1, H₀, hK₀, hrun, hH.2, rfl⟩) _ hpush ⟨hK₁, hl.trans hpush.later_push⟩

/-- A change on its own whose result the rest does not look at. -/
lemma Sat.writeAlone {β : Type} {stmt : Statement S L β} {failed : DbError → ρ}
    {next : β → Program S L ρ} (hK : Stable guar fresh start [] K) (hc : c.locks = [])
    (herr : ∀ e H, P H (failed e))
    (hg : ∀ H₀ H₁ r, Run guar fresh start H₀ → K H₀ → K H₁ → Later guar fresh start H₀ H₁ →
      stmt.exec H₀.current H₁.current = .ok r → guar q false H₁ (r.effect H₁.current))
    (h : ∀ v, Sat guar fresh start q P c K (next v)) :
    Sat guar fresh start q P c K (Handler.alone stmt failed next) :=
  Sat.alone hK hc herr hg fun _ _ r _ _ hK₁ _ hpush _ => h r.value _ hpush hK₁

end judgements

end Transactions
