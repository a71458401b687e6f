import PasswordVault.Library.Requests

/-!
# One thread in a run

* `Thread.Sees`: what one step of the system is to one of its threads: nothing, a commit of another
  request within the thread's locks, or a step of its own.
* `System.Reaches.follow`: what every such step keeps holds of a thread from then on;
  `System.Reaches.everywhere`: and of every thread, if it holds of a request that arrives.
* `Program.Ends`: a program that commits with a good answer, or answers a failure;
  `Thread.Ends`: so the answer tells whether the request has committed.
* `Program.Gated`: a program that commits only under a lock, on a database with some property;
  `Thread.Decides`: while a thread is past the gate nobody else is, and it is left with a commit or
  with a failure.
-/

namespace Transactions

variable {S L ρ Q : Type} [Lockable S L]

/-! ## Steps -/

section steps

variable (guar : Q → Bool → History S Q → S → Prop) (fresh : Q → Q → Prop) (start : S)

/-- One step of the system, as one of its threads sees it. -/
inductive Thread.Sees (t : Thread S L ρ Q) (H : History S Q) : Thread S L ρ Q → History S Q → Prop
  /-- Another thread works in private, or a request arrives. -/
  | stays : Sees t H t H
  /-- Another request commits, within the locks of the thread. -/
  | others {q : Q} {b : Bool} {s : S} (hq : fresh q t.request)
      (henv : Env guar fresh start t.connection.locks H (H.push q b s)) : Sees t H t (H.push q b s)
  /-- The thread works in private. -/
  | works {held : List L} {t' : Thread S L ρ Q} (h : Thread.Step held H.current t none t') :
      Sees t H t' H
  /-- The thread publishes a change. -/
  | publishes {held : List L} {t' : Thread S L ρ Q} {b : Bool} {s : S}
      (hrun : Run guar fresh start (H.push t.request b s))
      (h : Thread.Step held H.current t (some (b, s)) t') : Sees t H t' (H.push t.request b s)

variable (serve : Q → Program S L ρ)

/-- The system may go on to `sys'`. -/
def System.Leads : System S L ρ Q → System S L ρ Q → Prop :=
  Relation.ReflTransGen (System.Step serve fresh)

variable {guar fresh start serve} {post : Q → History S Q → History S Q → ρ → Prop}

lemma Thread.Step.born_eq {held : List L} {db : S} {t t' : Thread S L ρ Q}
    {out : Option (Bool × S)} (h : Thread.Step held db t out t') : t'.born = t.born := by
  cases h <;> rfl

lemma Thread.Sees.same {t t' : Thread S L ρ Q} {H H' : History S Q}
    (h : t.Sees guar fresh start H t' H') : t'.request = t.request ∧ t'.born = t.born := by
  cases h with
  | stays => exact ⟨rfl, rfl⟩
  | others => exact ⟨rfl, rfl⟩
  | works h => exact ⟨h.request_eq, h.born_eq⟩
  | publishes _ h => exact ⟨h.request_eq, h.born_eq⟩

/-- The step of another thread. -/
lemma System.Ok.sees_other {H : History S Q} {before after : List (Thread S L ρ Q)}
    {t t' u : Thread S L ρ Q} {b : Bool} {s : S}
    (hsymm : ∀ {q q'}, fresh q q' → fresh q' q)
    (h : System.Ok guar fresh start post ⟨H, before ++ t :: after⟩)
    (ht : Thread.Step (heldBy (before ++ after)) H.current t (some (b, s)) t')
    (hu : u ∈ before ++ after) : u.Sees guar fresh start H u (H.push t.request b s) := by
  have hans := ht.not_answered
  obtain ⟨hpush, -, hkeeps, -⟩ := ht.publish_ok h.run (h.threads t (by simp))
    h.not_mem_locks fun _ e he hclosing => h.drawn e he hclosing t (by simp) hans
  have hfresh := (List.pairwise_middle fun hxy => hsymm hxy).mp h.distinct
  rw [List.pairwise_cons] at hfresh
  refine .others (hfresh.1 u hu) ⟨hpush.later_push, fun l hl => ?_⟩
  exact hkeeps l (mem_heldBy.mpr ⟨u, hu, hl⟩)

/-- A thread that publishes. -/
lemma System.Ok.sees_own {H : History S Q} {before after : List (Thread S L ρ Q)}
    {t t' : Thread S L ρ Q} {b : Bool} {s : S}
    (h : System.Ok guar fresh start post ⟨H, before ++ t :: after⟩)
    (ht : Thread.Step (heldBy (before ++ after)) H.current t (some (b, s)) t') :
    t.Sees guar fresh start H t' (H.push t.request b s) := by
  have hans := ht.not_answered
  obtain ⟨hpush, -⟩ := ht.publish_ok h.run (h.threads t (by simp))
    h.not_mem_locks fun _ e he hclosing => h.drawn e he hclosing t (by simp) hans
  exact .publishes hpush ht

/-- **Every thread goes on**, as it sees the step. -/
theorem System.Step.sees {sys sys' : System S L ρ Q} (hsymm : ∀ {q q'}, fresh q q' → fresh q' q)
    (h : sys.Ok guar fresh start post) (hs : System.Step serve fresh sys sys')
    {t : Thread S L ρ Q} (ht : t ∈ sys.threads) :
    ∃ t' ∈ sys'.threads, t.Sees guar fresh start sys.history t' sys'.history := by
  cases hs with
  | arrive q hq => exact ⟨t, List.mem_append_left _ ht, .stays⟩
  | @quiet H before after u u' hstep =>
      rcases List.mem_append.mp ht with ht | ht
      · exact ⟨t, List.mem_append_left _ ht, .stays⟩
      · rcases List.mem_cons.mp ht with rfl | ht
        · exact ⟨u', by simp, .works hstep⟩
        · exact ⟨t, List.mem_append_right _ (List.mem_cons_of_mem _ ht), .stays⟩
  | @publish H before after u u' b s hstep =>
      rcases List.mem_append.mp ht with ht | ht
      · exact ⟨t, List.mem_append_left _ ht,
          h.sees_other hsymm hstep (List.mem_append_left _ ht)⟩
      · rcases List.mem_cons.mp ht with rfl | ht
        · exact ⟨u', by simp, h.sees_own hstep⟩
        · exact ⟨t, List.mem_append_right _ (List.mem_cons_of_mem _ ht),
            h.sees_other hsymm hstep (List.mem_append_right _ ht)⟩

/-- **Every thread was there before, or arrives now.** -/
theorem System.Step.seen {sys sys' : System S L ρ Q} (hsymm : ∀ {q q'}, fresh q q' → fresh q' q)
    (h : sys.Ok guar fresh start post) (hs : System.Step serve fresh sys sys')
    {t' : Thread S L ρ Q} (ht' : t' ∈ sys'.threads) :
    (∃ t ∈ sys.threads, t.Sees guar fresh start sys.history t' sys'.history) ∨
      ∃ q, t' = sys.arrival serve q ∧ sys'.history = sys.history ∧
        ∀ t ∈ sys.threads, fresh t.request q := by
  cases hs with
  | arrive q hq =>
      rcases List.mem_append.mp ht' with ht' | ht'
      · exact .inl ⟨t', ht', .stays⟩
      · exact .inr ⟨q, List.mem_singleton.mp ht', rfl, hq⟩
  | @quiet H before after u u' hstep =>
      rcases List.mem_append.mp ht' with ht' | ht'
      · exact .inl ⟨t', List.mem_append_left _ ht', .stays⟩
      · rcases List.mem_cons.mp ht' with rfl | ht'
        · exact .inl ⟨u, by simp, .works hstep⟩
        · exact .inl ⟨t', List.mem_append_right _ (List.mem_cons_of_mem _ ht'), .stays⟩
  | @publish H before after u u' b s hstep =>
      rcases List.mem_append.mp ht' with ht' | ht'
      · exact .inl ⟨t', List.mem_append_left _ ht',
          h.sees_other hsymm hstep (List.mem_append_left _ ht')⟩
      · rcases List.mem_cons.mp ht' with rfl | ht'
        · exact .inl ⟨u, by simp, h.sees_own hstep⟩
        · exact .inl ⟨t', List.mem_append_right _ (List.mem_cons_of_mem _ ht'),
            h.sees_other hsymm hstep (List.mem_append_right _ ht')⟩

lemma System.Reaches.leads {sys sys' : System S L ρ Q} (h : System.Reaches serve fresh start sys)
    (hl : System.Leads fresh serve sys sys') : System.Reaches serve fresh start sys' := by
  induction hl with
  | refl => exact h
  | tail _ hs ih => exact ih.step hs

variable (hsymm : ∀ {q q'}, fresh q q' → fresh q' q)
  (hsound : ∀ sys : System S L ρ Q, System.Reaches serve fresh start sys →
    sys.Ok guar fresh start post)
  {K : Thread S L ρ Q → History S Q → Prop}
  (step : ∀ t H t' H', Run guar fresh start H → K t H → t.Sees guar fresh start H t' H' → K t' H')

include hsymm hsound step

/-- **What a thread's steps keep holds from then on**, whatever the other requests do. -/
theorem System.Reaches.follow {sys sys' : System S L ρ Q}
    (h : System.Reaches serve fresh start sys) (hl : System.Leads fresh serve sys sys')
    {t : Thread S L ρ Q} (ht : t ∈ sys.threads) (hK : K t sys.history) :
    ∃ t' ∈ sys'.threads, t'.request = t.request ∧ K t' sys'.history := by
  induction hl with
  | refl => exact ⟨t, ht, rfl, hK⟩
  | tail hl hs ih =>
      obtain ⟨u, hu, hreq, hKu⟩ := ih
      have hok := hsound _ (h.leads hl)
      obtain ⟨u', hu', hsees⟩ := hs.sees hsymm hok hu
      exact ⟨u', hu', hsees.same.1.trans hreq, step _ _ _ _ hok.run hKu hsees⟩

/-- **What holds of a request that arrives, and is kept by a thread's steps, holds of every
thread.** -/
theorem System.Reaches.everywhere
    (arrive : ∀ (sys : System S L ρ Q) q, sys.Ok guar fresh start post →
      (∀ t ∈ sys.threads, fresh t.request q) → K (sys.arrival serve q) sys.history)
    {sys : System S L ρ Q} (h : System.Reaches serve fresh start sys) :
    ∀ t ∈ sys.threads, K t sys.history := by
  induction h with
  | init => simp
  | step h hs ih =>
      intro t' ht'
      have hok := hsound _ h
      rcases hs.seen hsymm hok ht' with ⟨t, ht, hsees⟩ | ⟨q, rfl, hhistory, hq⟩
      · exact step _ _ _ _ hok.run (ih t ht) hsees
      · rw [hhistory]
        exact arrive _ q hok hq

end steps

/-! ## Commits and answers -/

/-- The request has committed its transaction. -/
def History.Committed (H : History S Q) (q : Q) : Prop :=
  ∃ e ∈ H.entries, e.request = q ∧ e.closing = true

lemma History.committed_push_of_ne {H : History S Q} {q q' : Q} (hne : q' ≠ q) {b : Bool} {s : S} :
    (H.push q' b s).Committed q ↔ H.Committed q := by
  constructor
  · rintro ⟨e, he, hreq, hclosing⟩
    rcases List.mem_append.mp he with he | he
    · exact ⟨e, he, hreq, hclosing⟩
    · rw [List.mem_singleton.mp he] at hreq
      exact absurd hreq hne
  · rintro ⟨e, he, h⟩
    exact ⟨e, List.mem_append_left _ he, h⟩

lemma History.committed_push_false {H : History S Q} {q q' : Q} {s : S} :
    (H.push q' false s).Committed q ↔ H.Committed q := by
  constructor
  · rintro ⟨e, he, hreq, hclosing⟩
    rcases List.mem_append.mp he with he | he
    · exact ⟨e, he, hreq, hclosing⟩
    · rw [List.mem_singleton.mp he] at hclosing
      cases hclosing
  · rintro ⟨e, he, h⟩
    exact ⟨e, List.mem_append_left _ he, h⟩

/-- A request that arrives has not committed. -/
lemma System.Ok.not_committed {guar : Q → Bool → History S Q → S → Prop} {fresh : Q → Q → Prop}
    {start : S} {post : Q → History S Q → History S Q → ρ → Prop} {sys : System S L ρ Q}
    (h : sys.Ok guar fresh start post) (hirrefl : ∀ q, ¬ fresh q q) {q : Q}
    (hq : ∀ t ∈ sys.threads, fresh t.request q) : ¬ sys.history.Committed q := by
  rintro ⟨e, he, hreq, -⟩
  obtain ⟨t, ht, hknown⟩ := h.known e he
  have hfresh := hq t ht
  rw [hknown, hreq] at hfresh
  exact hirrefl q hfresh

/-- A program that commits with an answer `done`, or answers one that is `failed`. -/
inductive Program.Ends (done failed : ρ → Prop) : Program S L ρ → Prop
  | answer {r : ρ} (h : failed r) : Ends done failed (.answer r)
  | inside {β : Type} {stmt : Statement S L β} {fail : DbError → ρ} {next : β → Program S L ρ}
      (hfail : ∀ e, failed (fail e)) (h : ∀ v, (next v).Ends done failed) :
      Ends done failed (.inside stmt fail next)
  | alone {β : Type} {stmt : Statement S L β} {fail : DbError → ρ} {next : β → Program S L ρ}
      (hfail : ∀ e, failed (fail e)) (h : ∀ v, (next v).Ends done failed) :
      Ends done failed (.alone stmt fail next)
  | commit {fail ok : ρ} (hfail : failed fail) (hok : done ok) : Ends done failed (.commit fail ok)

lemma Program.Ends.mono {done failed failed' : ρ → Prop} {p : Program S L ρ}
    (h : p.Ends done failed) (hf : ∀ r, failed r → failed' r) : p.Ends done failed' := by
  induction h with
  | answer h => exact .answer (hf _ h)
  | inside hfail _ ih => exact .inside (fun e => hf _ (hfail e)) ih
  | «alone» hfail _ ih => exact .alone (fun e => hf _ (hfail e)) ih
  | commit hfail hok => exact .commit (hf _ hfail) hok

section ends

variable {guar : Q → Bool → History S Q → S → Prop} {fresh : Q → Q → Prop} {start : S}
  {done failed : ρ → Prop}

/-- A thread that has not committed, or has, with its answer. -/
inductive Thread.Ends (done failed : ρ → Prop) (t : Thread S L ρ Q) (H : History S Q) : Prop
  | working (hprog : t.program.Ends done failed) (hnot : ¬ H.Committed t.request)
  | done {r : ρ} (hr : t.program = .answer r) (hdone : done r) (hcommitted : H.Committed t.request)

/-- **A step keeps a thread on its way to its end.** -/
theorem Thread.Ends.sees (hirrefl : ∀ q, ¬ fresh q q) {t t' : Thread S L ρ Q} {H H' : History S Q}
    (h : t.Ends done failed H) (hs : t.Sees guar fresh start H t' H') : t'.Ends done failed H' := by
  cases h with
  | working hprog hnot =>
      cases hs with
      | stays => exact .working hprog hnot
      | @others q b s hq henv =>
          refine .working hprog fun hcommitted => hnot ?_
          exact (History.committed_push_of_ne fun he => hirrefl _ (he ▸ hq)).mp hcommitted
      | works hstep =>
          cases hstep with
          | begin hp => exact .working hprog hnot
          | @done β stmt fail next snap r hp =>
              rw [hp] at hprog
              cases hprog with
              | inside hfail hnext => exact .working (hnext r.value) hnot
          | @refused β stmt fail next snap e hp =>
              rw [hp] at hprog
              cases hprog with
              | inside hfail hnext => exact .working (.answer (hfail e)) hnot
          | broken hp =>
              rw [hp] at hprog
              cases hprog with
              | inside hfail hnext => exact .working (.answer (hfail _)) hnot
          | beginAlone hp => exact .working hprog hnot
          | @refusedAlone β stmt fail next snap e hp =>
              rw [hp] at hprog
              cases hprog with
              | «alone» hfail hnext => exact .working (.answer (hfail e)) hnot
          | brokenAlone hp =>
              rw [hp] at hprog
              cases hprog with
              | «alone» hfail hnext => exact .working (.answer (hfail _)) hnot
          | commitFailed hp =>
              rw [hp] at hprog
              cases hprog with
              | commit hfail hok => exact .working (.answer hfail) hnot
      | publishes hrun hstep =>
          cases hstep with
          | @doneAlone β stmt fail next snap r hp =>
              rw [hp] at hprog
              cases hprog with
              | «alone» hfail hnext =>
                  refine .working (hnext r.value) fun hcommitted => hnot ?_
                  exact History.committed_push_false.mp hcommitted
          | commit hp =>
              rw [hp] at hprog
              cases hprog with
              | commit hfail hok =>
                  exact .done rfl hok ⟨_, List.mem_append_right _ List.mem_cons_self, rfl, rfl⟩
  | @done r hr hdone hcommitted =>
      cases hs with
      | stays => exact .done hr hdone hcommitted
      | others =>
          obtain ⟨e, he, hcommit⟩ := hcommitted
          exact .done hr hdone ⟨e, List.mem_append_left _ he, hcommit⟩
      | works hstep => exact absurd (by rw [hr]; trivial) hstep.not_answered
      | publishes _ hstep => exact absurd (by rw [hr]; trivial) hstep.not_answered

/-- The answer tells whether the request has committed. -/
lemma Thread.Ends.answered {t : Thread S L ρ Q} {H : History S Q} (h : t.Ends done failed H) {r : ρ}
    (hr : t.program = .answer r) :
    (failed r ∧ ¬ H.Committed t.request) ∨ done r ∧ H.Committed t.request := by
  cases h with
  | working hprog hnot =>
      rw [hr] at hprog
      cases hprog with
      | answer hfailed => exact .inl ⟨hfailed, hnot⟩
  | @done r' hr' hdone hcommitted =>
      rw [hr] at hr'
      obtain rfl := Program.answer.inj hr'
      exact .inr ⟨hdone, hcommitted⟩

end ends

/-! ## Decisions under a lock -/

/-- A decision that requests make under a lock: the lock, what they find then, and the answers: of a
decision that is committed, of one that fails, and without a decision. -/
structure Gate (S L ρ : Type) where
  lock : L
  found : S → Prop
  done : ρ → Prop
  failed : ρ → Prop
  refused : ρ → Prop

/-- A program that commits only after it has got the lock of the gate, on a database with the
property. -/
inductive Program.Gated (G : Gate S L ρ) : Program S L ρ → Prop
  | answer {r : ρ} (h : G.refused r) : Gated G (.answer r)
  | alone {β : Type} {stmt : Statement S L β} {fail : DbError → ρ} {next : β → Program S L ρ}
      (hfail : ∀ e, G.refused (fail e)) (h : ∀ v, (next v).Gated G) :
      Gated G (.alone stmt fail next)
  | lock {β : Type} {stmt : Statement S L β} {fail : DbError → ρ} {next : β → Program S L ρ}
      (hfail : ∀ e, G.refused (fail e))
      (h : ∀ snap cur r, stmt.exec snap cur = .ok r →
        (∃ a, next r.value = .answer a ∧ G.refused a) ∨
          r.effect = id ∧ G.lock ∈ r.locks ∧ G.found cur ∧
            (next r.value).Ends G.done G.failed) :
      Gated G (.inside stmt fail next)

/-- A thread that is past the gate: it holds the lock, or its decision is committed or has
failed. -/
inductive Thread.Decides (G : Gate S L ρ) (t : Thread S L ρ Q) (H : History S Q) : Prop
  | holds (hlock : G.lock ∈ t.connection.locks) (hfound : G.found H.current)
      (hprog : t.program.Ends G.done G.failed) (hnot : ¬ H.Committed t.request)
  | committed {e : Entry S Q} {r : ρ} (he : e ∈ H.entries) (hreq : e.request = t.request)
      (hclosing : e.closing = true) (hfound : G.found e.before) (hr : t.program = .answer r)
      (hdone : G.done r)
  | failed {r : ρ} (hr : t.program = .answer r) (hfailed : G.failed r)
      (hnot : ¬ H.Committed t.request)

/-- A thread that is before the gate or past it. -/
inductive Thread.AtGate (G : Gate S L ρ) (t : Thread S L ρ Q) (H : History S Q) : Prop
  | before (hprog : t.program.Gated G) (hwrites : t.connection = {})
      (hnot : ¬ H.Committed t.request)
  | past (h : t.Decides G H)

section gates

variable {guar : Q → Bool → History S Q → S → Prop} {fresh : Q → Q → Prop} {start : S}
  {G : Gate S L ρ}

/-- A thread that goes on with the lock, or answers a failure. -/
lemma Thread.Decides.resume {t : Thread S L ρ Q} {p : Program S L ρ} {c : Connection S L}
    {H : History S Q} (hlock : G.lock ∈ c.locks) (hfound : G.found H.current)
    (hprog : p.Ends G.done G.failed) (hnot : ¬ H.Committed t.request) :
    (t.resume p c).Decides G H := by
  cases hprog with
  | answer hfailed => exact .failed rfl hfailed hnot
  | inside hfail h => exact .holds hlock hfound (.inside hfail h) hnot
  | «alone» hfail h => exact .holds hlock hfound (.alone hfail h) hnot
  | commit hfail hok => exact .holds hlock hfound (.commit hfail hok) hnot

/-- **A thread that is past the gate stays so.** -/
theorem Thread.Decides.sees (hirrefl : ∀ q, ¬ fresh q q)
    (hkeeps : ∀ s s', Keeps G.lock s s' → G.found s → G.found s') {t t' : Thread S L ρ Q}
    {H H' : History S Q} (h : t.Decides G H) (hs : t.Sees guar fresh start H t' H') :
    t'.Decides G H' := by
  cases h with
  | holds hlock hfound hprog hnot =>
      cases hs with
      | stays => exact .holds hlock hfound hprog hnot
      | @others q b s hq henv =>
          refine .holds hlock (hkeeps _ _ (henv.2 _ hlock) hfound) hprog fun hcommitted => hnot ?_
          exact (History.committed_push_of_ne fun he => hirrefl _ (he ▸ hq)).mp hcommitted
      | works hstep =>
          cases hstep with
          | begin hp => exact .holds hlock hfound hprog hnot
          | @done β stmt fail next snap r hp =>
              rw [hp] at hprog
              cases hprog with
              | inside hfail hnext =>
                  exact .resume (List.mem_append_right _ hlock) hfound (hnext r.value) hnot
          | @refused β stmt fail next snap e hp =>
              rw [hp] at hprog
              cases hprog with
              | inside hfail hnext => exact .failed rfl (hfail e) hnot
          | broken hp =>
              rw [hp] at hprog
              cases hprog with
              | inside hfail hnext => exact .failed rfl (hfail _) hnot
          | beginAlone hp => exact .holds hlock hfound hprog hnot
          | @refusedAlone β stmt fail next snap e hp =>
              rw [hp] at hprog
              cases hprog with
              | «alone» hfail hnext => exact .failed rfl (hfail e) hnot
          | brokenAlone hp =>
              rw [hp] at hprog
              cases hprog with
              | «alone» hfail hnext => exact .failed rfl (hfail _) hnot
          | commitFailed hp =>
              rw [hp] at hprog
              cases hprog with
              | commit hfail hok => exact .failed rfl hfail hnot
      | publishes hrun hstep =>
          cases hstep with
          | @doneAlone β stmt fail next snap r hp hn hr hl =>
              rw [hp] at hprog
              cases hprog with
              | «alone» hfail hnext =>
                  have hkept := Statement.frame _ hr G.lock
                    (fun hmem => (hl _ hmem).2 hlock) H.current
                  refine .resume hlock (hkeeps _ _ hkept hfound) (hnext r.value) ?_
                  exact fun hcommitted => hnot (History.committed_push_false.mp hcommitted)
          | commit hp =>
              rw [hp] at hprog
              cases hprog with
              | commit hfail hok =>
                  exact .committed (List.mem_append_right _ List.mem_cons_self) rfl rfl hfound rfl
                    hok
  | @committed e r he hreq hclosing hfound hr hdone =>
      cases hs with
      | stays => exact .committed he hreq hclosing hfound hr hdone
      | others => exact .committed (List.mem_append_left _ he) hreq hclosing hfound hr hdone
      | works hstep => exact absurd (by rw [hr]; trivial) hstep.not_answered
      | publishes _ hstep => exact absurd (by rw [hr]; trivial) hstep.not_answered
  | @failed r hr hfailed hnot =>
      cases hs with
      | stays => exact .failed hr hfailed hnot
      | @others q b s hq henv =>
          refine .failed hr hfailed fun hcommitted => hnot ?_
          exact (History.committed_push_of_ne fun he => hirrefl _ (he ▸ hq)).mp hcommitted
      | works hstep => exact absurd (by rw [hr]; trivial) hstep.not_answered
      | publishes _ hstep => exact absurd (by rw [hr]; trivial) hstep.not_answered

/-- **A thread passes the gate with the lock, on a database with the property.** -/
theorem Thread.AtGate.sees (hirrefl : ∀ q, ¬ fresh q q)
    (hkeeps : ∀ s s', Keeps G.lock s s' → G.found s → G.found s') {t t' : Thread S L ρ Q}
    {H H' : History S Q} (h : t.AtGate G H) (hs : t.Sees guar fresh start H t' H') :
    t'.AtGate G H' := by
  cases h with
  | past h => exact .past (h.sees hirrefl hkeeps hs)
  | before hprog hwrites hnot =>
      cases hs with
      | stays => exact .before hprog hwrites hnot
      | @others q b s hq henv =>
          refine .before hprog hwrites fun hcommitted => hnot ?_
          exact (History.committed_push_of_ne fun he => hirrefl _ (he ▸ hq)).mp hcommitted
      | works hstep =>
          cases hstep with
          | begin hp => exact .before hprog hwrites hnot
          | @done β stmt fail next snap r hp hn hr =>
              rw [hp] at hprog
              rw [hwrites] at hr
              cases hprog with
              | lock hfail hnext =>
                  rcases hnext _ _ r hr with ⟨a, ha, hrefused⟩ | ⟨-, hlock, hfound, hend⟩
                  · refine .before ?_ ?_ hnot
                    · rw [Thread.resume, ha]
                      exact .answer hrefused
                    · rw [Thread.resume, ha]
                      rfl
                  · exact .past (.resume (List.mem_append_left _ hlock) hfound hend hnot)
          | @refused β stmt fail next snap e hp =>
              rw [hp] at hprog
              cases hprog with
              | lock hfail hnext => exact .before (.answer (hfail e)) rfl hnot
          | broken hp =>
              rw [hp] at hprog
              cases hprog with
              | lock hfail hnext => exact .before (.answer (hfail _)) rfl hnot
          | beginAlone hp => exact .before hprog hwrites hnot
          | @refusedAlone β stmt fail next snap e hp =>
              rw [hp] at hprog
              cases hprog with
              | «alone» hfail hnext => exact .before (.answer (hfail e)) rfl hnot
          | brokenAlone hp =>
              rw [hp] at hprog
              cases hprog with
              | «alone» hfail hnext => exact .before (.answer (hfail _)) rfl hnot
          | commitFailed hp =>
              rw [hp] at hprog
              cases hprog
      | publishes hrun hstep =>
          cases hstep with
          | @doneAlone β stmt fail next snap r hp =>
              rw [hp] at hprog
              cases hprog with
              | «alone» hfail hnext =>
                  refine .before (hnext r.value) ?_ fun hcommitted => hnot ?_
                  · rw [Thread.resume, hwrites]
                    cases next r.value <;> rfl
                  · exact History.committed_push_false.mp hcommitted
          | commit hp =>
              rw [hp] at hprog
              cases hprog

end gates

end Transactions
