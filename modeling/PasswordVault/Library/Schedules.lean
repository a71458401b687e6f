import PasswordVault.Library.Serial

/-!
# Schedules

The runs in which one request at a time runs one statement, as functions: `System.arriveAll` lets
some requests arrive, `System.work` gives a turn to one of them. `System.Reaches.workAll` says that
what is computed is reachable.
-/

namespace Transactions

variable {S L ρ Q : Type} [Lockable S L]

/-! ## Schedules -/

section schedules

variable [DecidableEq L]

/-- The thread runs one statement, from its start to its end, unless it has to wait for a lock. -/
def Thread.work (held : List L) (db : S) (t : Thread S L ρ Q) :
    Option (Bool × S) × Thread S L ρ Q :=
  match t.program, t.snapshot with
  | .inside stmt failed next, none =>
      match stmt.exec (t.connection.writes db) (t.connection.writes db) with
      | .ok a =>
          if ∀ l ∈ a.locks, l ∉ held then
            (none, t.resume (next a.value)
              ⟨a.effect ∘ t.connection.writes, a.locks ++ t.connection.locks⟩)
          else (none, t)
      | .error e => (none, t.resume (.answer (failed e)) {})
  | .alone stmt failed next, none =>
      match stmt.exec db db with
      | .ok a =>
          if ∀ l ∈ a.locks, l ∉ held ∧ l ∉ t.connection.locks then
            (some (false, a.effect db), t.resume (next a.value) t.connection)
          else (none, t)
      | .error e => (none, t.resume (.answer (failed e)) {})
  | .commit _ done, _ => (some (true, t.connection.writes db), t.resume (.answer done) {})
  | _, _ => (none, t)

/-- What is published goes into the history. -/
def History.publish (H : History S Q) (q : Q) : Option (Bool × S) → History S Q
  | none => H
  | some (b, s) => H.push q b s

/-- The thread `i` runs one statement. -/
def System.work (sys : System S L ρ Q) (i : Nat) : System S L ρ Q :=
  match sys.threads.drop i with
  | [] => sys
  | t :: after =>
      let out := t.work (heldBy (sys.threads.take i ++ after)) sys.history.current
      ⟨sys.history.publish t.request out.1, sys.threads.take i ++ out.2 :: after⟩

/-- Some requests arrive. -/
def System.arriveAll (serve : Q → Program S L ρ) (sys : System S L ρ Q) (qs : List Q) :
    System S L ρ Q :=
  ⟨sys.history, sys.threads ++ qs.map (sys.arrival serve)⟩

variable {serve : Q → Program S L ρ} {fresh : Q → Q → Prop} {start : S}

/-- What a thread does with a statement is a step, or two, or nothing. -/
lemma System.Reaches.threadWork {H : History S Q} {before after : List (Thread S L ρ Q)}
    {t : Thread S L ρ Q} (h : System.Reaches serve fresh start ⟨H, before ++ t :: after⟩) :
    System.Reaches serve fresh start
      ⟨H.publish t.request (t.work (heldBy (before ++ after)) H.current).1,
        before ++ (t.work (heldBy (before ++ after)) H.current).2 :: after⟩ := by
  unfold Thread.work
  split
  · rename_i stmt failed next hp hs
    have hbegun := h.step (.quiet (.begin hp hs))
    split
    · rename_i a ha
      split
      · rename_i hl
        exact hbegun.step (.quiet (.done hp rfl ha hl))
      · exact h
    · rename_i e he
      exact hbegun.step (.quiet (.refused hp rfl he))
  · rename_i stmt failed next hp hs
    have hbegun := h.step (.quiet (.beginAlone hp hs))
    split
    · rename_i a ha
      split
      · rename_i hl
        exact hbegun.step (.publish (.doneAlone hp rfl ha hl))
      · exact h
    · rename_i e he
      exact hbegun.step (.quiet (.refusedAlone hp rfl he))
  · rename_i hp
    exact h.step (.publish (.commit hp))
  · exact h

/-- **The runs of schedules are runs.** -/
theorem System.Reaches.work {sys : System S L ρ Q} (h : System.Reaches serve fresh start sys)
    (i : Nat) : System.Reaches serve fresh start (sys.work i) := by
  unfold System.work
  split
  · exact h
  · rename_i t after hdrop
    apply System.Reaches.threadWork
    rw [← hdrop, List.take_append_drop]
    exact h

lemma System.Reaches.workAll {sys : System S L ρ Q} (h : System.Reaches serve fresh start sys)
    (turns : List Nat) : System.Reaches serve fresh start (turns.foldl System.work sys) := by
  induction turns generalizing sys with
  | nil => exact h
  | cons i turns ih => exact ih (h.work i)

omit [DecidableEq L] in
lemma System.Reaches.arriveAll {sys : System S L ρ Q} (h : System.Reaches serve fresh start sys)
    {qs : List Q} (hqs : qs.Pairwise fresh) (hnew : ∀ t ∈ sys.threads, ∀ q ∈ qs, fresh t.request q) :
    System.Reaches serve fresh start (sys.arriveAll serve qs) := by
  induction qs generalizing sys with
  | nil => simpa [System.arriveAll] using h
  | cons q qs ih =>
      obtain ⟨hq, hqs⟩ := List.pairwise_cons.mp hqs
      have harrived := h.step (.arrive q fun t ht => hnew t ht q List.mem_cons_self)
      have hrest := ih harrived hqs fun t ht q' hq' => ?_
      · have heq : System.arriveAll serve sys (q :: qs) = System.arriveAll serve
            { sys with threads := sys.threads ++ [sys.arrival serve q] } qs := by
          unfold System.arriveAll
          rw [List.map_cons, List.append_assoc]
          rfl
        rw [heq]
        exact hrest
      · rcases List.mem_append.mp ht with ht | ht
        · exact hnew t ht q' (List.mem_cons_of_mem _ hq')
        · rw [List.mem_singleton.mp ht]
          exact hq q' hq'

/-- The requests of a serial run are its threads. -/
lemma System.handleAll_requests (sys : System S L ρ Q) (qs : List Q) :
    (System.handleAll serve sys qs).threads.map Thread.request =
      sys.threads.map Thread.request ++ qs := by
  induction qs generalizing sys with
  | nil => simp [System.handleAll]
  | cons q qs ih =>
      rw [System.handleAll, List.foldl_cons, ← System.handleAll, ih]
      simp [System.handle, Thread.answered]

end schedules

end Transactions
