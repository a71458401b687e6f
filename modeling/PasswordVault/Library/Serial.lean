import PasswordVault.Library.Tables

/-!
# Serial runs

The runs in which every request is served from its arrival to its answer before the next one
arrives, as a function: `System.handleAll` computes the system that is reached, and
`System.Reaches.handleAll` says that it is reachable.
-/

namespace Transactions

variable {S L ρ Q : Type} [Lockable S L]

/-- The history goes on with the changes of one request. -/
def History.pushAll (H : History S Q) (q : Q) (changes : List (Bool × S)) : History S Q :=
  changes.foldl (fun H change => H.push q change.1 change.2) H

/-- The thread of a request that was answered. -/
def Thread.answered (q : Q) (born : History S Q) (r : ρ) : Thread S L ρ Q :=
  { request := q, born := born, program := .answer r }

section serial

variable [DecidableEq L]

/-- What a request publishes and answers when no other request is in progress. `locks` and
`writes` are those of its open transaction. -/
def Program.serial (locks : List L) (writes : S → S) (db : S) :
    Program S L ρ → List (Bool × S) × ρ
  | .answer r => ([], r)
  | .inside stmt failed next =>
      match stmt.exec (writes db) (writes db) with
      | .ok a => (next a.value).serial (a.locks ++ locks) (a.effect ∘ writes) db
      | .error e => ([], failed e)
  | .alone stmt failed next =>
      match stmt.exec db db with
      | .ok a =>
          if ∀ l ∈ a.locks, l ∉ locks then
            let rest := (next a.value).serial locks writes (a.effect db)
            ((false, a.effect db) :: rest.1, rest.2)
          else ([], failed .other)
      | .error e => ([], failed e)
  | .commit _ done => ([(true, writes db)], done)

/-! ### Outcomes -/

/-- The database that a request leaves and its answer, when no other request is in progress. -/
def Program.outcome (p : Program S L ρ) (locks : List L) (writes : S → S) (db : S) : S × ρ :=
  ((p.serial locks writes db).1.foldl (fun _ change => change.2) db, (p.serial locks writes db).2)

section outcomes

variable {β : Type} {stmt : Statement S L β} {failed : DbError → ρ} {next : β → Program S L ρ}
variable {locks : List L} {writes : S → S} {db : S}

@[simp] lemma Program.outcome_answer (r : ρ) :
    (Program.answer r : Program S L ρ).outcome locks writes db = (db, r) := rfl

@[simp] lemma Program.outcome_finish {α : Type} {k : α → Program S L ρ} (r : ρ) :
    (Handler.finish r k : Program S L ρ).outcome locks writes db = (db, r) := rfl

@[simp] lemma Program.outcome_commit {α : Type} {k : α → Program S L ρ} (r r' : ρ) :
    (Handler.commit r r' k : Program S L ρ).outcome locks writes db = (writes db, r') := rfl

lemma Program.outcome_inside {a : Reply S L β} (ha : stmt.exec (writes db) (writes db) = .ok a) :
    (Handler.inside stmt failed next : Program S L ρ).outcome locks writes db =
      (next a.value).outcome (a.locks ++ locks) (a.effect ∘ writes) db := by
  simp only [Program.outcome, Handler.inside, Program.serial, ha]

lemma Program.outcome_refused {e : DbError} (he : stmt.exec (writes db) (writes db) = .error e) :
    (Handler.inside stmt failed next : Program S L ρ).outcome locks writes db = (db, failed e) := by
  simp only [Program.outcome, Handler.inside, Program.serial, he, List.foldl_nil]

end outcomes

section tables

variable {K R : Type} [DecidableEq K] {T : Table S L K R} {failed : DbError → ρ}
variable {locks : List L} {writes : S → S} {db : S} {out : S × ρ}

/-- Locking rows yields the rows that there are. -/
lemma Table.outcome_lockRows {p : R → Bool} {next : List R → Program S L ρ}
    (h : ∀ locks', (next ((T.get (writes db)).list.filter p)).outcome locks' writes db = out) :
    (Handler.inside (T.lockRows p) failed next : Program S L ρ).outcome locks writes db = out := by
  rw [← Table.chosen_self T] at h
  exact (Program.outcome_inside (a := ⟨T.chosen p (writes db) (writes db), id, _⟩) rfl).trans (h _)

/-- A new row is inserted. -/
lemma Table.outcome_insert {r : R} {next : Unit → Program S L ρ} (hcheck : T.check r = true)
    (hnew : T.New [] r (writes db)) (hrefers : T.refers (writes db) r = true)
    (h : ∀ locks', (next ()).outcome locks' (T.putAll [r] ∘ writes) db = out) :
    (Handler.inside (T.insert r) failed next : Program S L ρ).outcome locks writes db = out := by
  have hclash : T.index.clashes (T.get (writes db)) r = false :=
    Index.clashes_eq_false.mpr fun x hx _ l hl => (hnew x hx List.not_mem_nil).2 l hl
  refine (Program.outcome_inside
    (a := ⟨(), T.putAll [r], T.index.rowLock (T.index.key r) :: T.index.entries r⟩) ?_).trans (h _)
  simp [Table.insert, hcheck, Table.find?_of_new hnew, hclash, hrefers]

/-- A row that keeps its place in the indexes is updated. -/
lemma Table.outcome_updateRow {p : R → Bool} {f : R → R}
    {hf : ∀ r, T.index.key (f r) = T.index.key r} {next : Nat → Program S L ρ} (r : R)
    (hknown : (T.get (writes db)).find? (T.index.key r) = some r) (hp : p r = true)
    (hkey : ∀ x, p x = true → T.index.key x = T.index.key r) (hcheck : T.check (f r) = true)
    (hentries : ∀ x ∈ T.get (writes db), T.index.key x ≠ T.index.key r →
      ∀ l ∈ T.index.entries (f r), l ∉ T.index.entries x)
    (hrefers : T.refers (T.putAll [f r] (writes db)) (f r) = true)
    (h : ∀ locks', (next 1).outcome locks' (T.putAll [f r] ∘ writes) db = out) :
    (Handler.inside (T.update p f hf) failed next : Program S L ρ).outcome locks writes db = out := by
  have hclash : T.index.clashes ((T.get (writes db)).put (f r)) (f r) = false := by
    refine Index.clashes_eq_false.mpr fun x hx hne l hl => ?_
    rcases Rows.mem_put.mp hx with rfl | ⟨hx, -⟩
    · exact absurd rfl hne
    · exact hentries x hx (hf r ▸ hne) l hl
  refine (Program.outcome_inside (a := ⟨1, T.putAll [f r],
    T.index.rowLock (T.index.key (f r)) :: T.index.entries (f r)⟩) ?_).trans (h _)
  simp [Table.update, Table.chosen_eq_singleton hknown hknown hp hkey, hcheck, hclash, hrefers]

end tables

/-- Serve one more request. -/
def System.handle (serve : Q → Program S L ρ) (sys : System S L ρ Q) (q : Q) : System S L ρ Q :=
  let out := (serve q).serial [] id sys.history.current
  ⟨sys.history.pushAll q out.1, sys.threads ++ [Thread.answered q sys.history out.2]⟩

/-- Serve some requests, one after the other. -/
def System.handleAll (serve : Q → Program S L ρ) (sys : System S L ρ Q) (qs : List Q) :
    System S L ρ Q :=
  qs.foldl (System.handle serve) sys

lemma History.pushAll_current (H : History S Q) (q : Q) (changes : List (Bool × S)) :
    (H.pushAll q changes).current = changes.foldl (fun _ change => change.2) H.current := by
  induction changes generalizing H with
  | nil => rfl
  | cons change changes ih => exact ih (H.push q change.1 change.2)

lemma History.Saw.pushAll {H : History S Q} {p : S → Prop} (h : H.Saw p) (q : Q)
    (changes : List (Bool × S)) : (H.pushAll q changes).Saw p := by
  induction changes generalizing H with
  | nil => exact h
  | cons change changes ih => exact ih (h.push q change.1 change.2)

variable {serve : Q → Program S L ρ} {fresh : Q → Q → Prop} {start : S}

omit [DecidableEq L] in
lemma heldBy_idle {ts : List (Thread S L ρ Q)} (h : ∀ t ∈ ts, t.connection.locks = []) :
    heldBy (ts ++ []) = [] := by
  rw [List.append_nil, heldBy, List.flatMap_eq_nil_iff]
  exact h

/-- A request that is alone gets to its answer. -/
lemma System.Reaches.serial {ts : List (Thread S L ρ Q)}
    (hidle : ∀ t ∈ ts, t.connection.locks = []) {q : Q} {born : History S Q}
    (p : Program S L ρ) :
    ∀ {H : History S Q} {c : Connection S L},
      System.Reaches serve fresh start ⟨H, ts ++ [⟨q, born, p, c.settle p, none⟩]⟩ →
      System.Reaches serve fresh start
        ⟨H.pushAll q (p.serial c.locks c.writes H.current).1,
          ts ++ [Thread.answered q born (p.serial c.locks c.writes H.current).2]⟩ := by
  have hheld := heldBy_idle hidle
  have hfree : ∀ l, l ∉ heldBy (ts ++ []) := by
    intro l hl
    rw [hheld] at hl
    exact List.not_mem_nil hl
  have hquiet : ∀ {H : History S Q} {t t' : Thread S L ρ Q},
      Thread.Step (heldBy (ts ++ [])) H.current t none t' →
      System.Reaches serve fresh start ⟨H, ts ++ [t]⟩ →
      System.Reaches serve fresh start ⟨H, ts ++ [t']⟩ :=
    fun hstep hreach => hreach.step (.quiet hstep)
  have hpublish : ∀ {H : History S Q} {t t' : Thread S L ρ Q} {b : Bool} {s : S},
      Thread.Step (heldBy (ts ++ [])) H.current t (some (b, s)) t' →
      System.Reaches serve fresh start ⟨H, ts ++ [t]⟩ →
      System.Reaches serve fresh start ⟨H.push t.request b s, ts ++ [t']⟩ :=
    fun hstep hreach => hreach.step (.publish hstep)
  induction p with
  | answer r => exact fun hreach => hreach
  | inside stmt failed next ih =>
      intro H c hreach
      have hbegun := hquiet (.begin rfl rfl) hreach
      unfold Program.serial
      split
      · rename_i a ha
        refine ih a.value (c := ⟨a.effect ∘ c.writes, a.locks ++ c.locks⟩) ?_
        exact hquiet (.done rfl rfl ha fun l _ => hfree l) hbegun
      · rename_i e he
        exact hquiet (.refused rfl rfl he) hbegun
  | «alone» stmt failed next ih =>
      intro H c hreach
      have hbegun := hquiet (.beginAlone rfl rfl) hreach
      unfold Program.serial
      split
      · rename_i a ha
        split
        · rename_i hlocks
          refine ih a.value (H := H.push q false (a.effect H.current)) ?_
          exact hpublish (.doneAlone rfl rfl ha fun l hl => ⟨hfree l, hlocks l hl⟩) hbegun
        · exact hquiet (.brokenAlone rfl) hbegun
      · rename_i e he
        exact hquiet (.refusedAlone rfl rfl he) hbegun
  | commit failed done =>
      intro H c hreach
      exact hpublish (.commit rfl) hreach

/-- Serving a request gets from a reachable system without open requests to another one. -/
lemma System.Reaches.handle {sys : System S L ρ Q} (h : System.Reaches serve fresh start sys)
    (hidle : ∀ t ∈ sys.threads, t.connection.locks = []) {q : Q}
    (hq : ∀ t ∈ sys.threads, fresh t.request q) :
    System.Reaches serve fresh start (sys.handle serve q) := by
  have harrived := h.step (.arrive q hq)
  refine System.Reaches.serial hidle (serve q) (c := {}) ?_
  cases hp : serve q <;> simpa [System.arrival, hp, Connection.settle] using harrived

/-- **Serial runs are runs.** -/
theorem System.Reaches.handleAll {qs : List Q} (hqs : qs.Pairwise fresh) :
    System.Reaches serve fresh start (System.handleAll serve ⟨⟨[], start⟩, []⟩ qs) := by
  suffices hall : ∀ sys : System S L ρ Q, System.Reaches serve fresh start sys →
      (∀ t ∈ sys.threads, t.connection.locks = []) →
      (∀ t ∈ sys.threads, ∀ q ∈ qs, fresh t.request q) →
      System.Reaches serve fresh start (System.handleAll serve sys qs) from
    hall _ .init (by simp) (by simp)
  induction qs with
  | nil => exact fun sys h _ _ => h
  | cons q qs ih =>
      intro sys h hidle hfresh
      obtain ⟨hhead, htail⟩ := List.pairwise_cons.mp hqs
      refine ih htail _ (h.handle hidle fun t ht => hfresh t ht q List.mem_cons_self) ?_ ?_
      · intro t ht
        rcases List.mem_append.mp ht with ht | ht
        · exact hidle t ht
        · rw [List.mem_singleton.mp ht]
          rfl
      · intro t ht q' hq'
        rcases List.mem_append.mp ht with ht | ht
        · exact hfresh t ht q' (List.mem_cons_of_mem _ hq')
        · rw [List.mem_singleton.mp ht]
          exact hhead q' hq'

end serial

end Transactions
