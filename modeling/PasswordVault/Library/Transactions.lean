import Mathlib.Logic.Relation
import Mathlib.Data.List.Basic

/-!
# Transactions: requests over one database under READ COMMITTED

A library for verifying servers whose requests run SQL statements against one shared database.
Nothing here names a schema: the database `S`, the lock names `L`, the requests `Q` and the
answers `ρ` are parameters.

* **Locks** (`Lockable`): what a held lock promises about the database between two moments,
  `Keeps l s s'`.
* **Statements** (`Statement`): a statement is run against the snapshot it started with and the
  state current when it can proceed (a statement that waits for a row lock re-reads the row), and
  answers a value, the write it makes and the locks it takes; its `frame` field says that the
  write respects every lock not taken.
* **Programs** (`Program`): what is left of a request: statements inside its transaction,
  statements that commit on their own, the commit that ends it, the answer. A failed statement
  ends the request with an answer, and the open transaction is rolled back.
* **The system** (`System`, `System.Step`): the commits so far and any number of requests, each
  step one statement of one request. Writes of an open transaction are private until the commit.
-/

namespace Transactions

/-! ## Locks and statements -/

/-- The lockable things of a database: `Keeps l s s'` says what holding `l` guarantees when the
database went from `s` to `s'`. -/
class Lockable (S : Type) (L : outParam Type) where
  /-- What the lock protects is untouched between the two states. -/
  Keeps : L → S → S → Prop
  /-- Nothing happening respects every lock. -/
  refl : ∀ l s, Keeps l s s
  /-- Two respectful changes compose. -/
  trans : ∀ {l a b c}, Keeps l a b → Keeps l b c → Keeps l a c

export Lockable (Keeps)

/-- Why a statement failed: a unique constraint, or anything else (a check constraint, a deadlock
victim, a lost connection). -/
inductive DbError where
  | uniqueViolation
  | other
  deriving DecidableEq

/-- The result of a statement that went through. -/
structure Reply (S L β : Type) where
  /-- What the statement returns. -/
  value : β
  /-- What it writes. -/
  effect : S → S
  /-- The locks it takes. -/
  locks : List L

/-- A statement. `exec snap cur` runs it with snapshot `snap` when the current state is `cur`. -/
structure Statement (S L β : Type) [Lockable S L] where
  /-- Run the statement. -/
  exec : S → S → Except DbError (Reply S L β)
  /-- The write respects every lock the statement does not take. -/
  frame : ∀ {snap cur r}, exec snap cur = .ok r → ∀ l, l ∉ r.locks → ∀ s, Keeps l s (r.effect s)

/-- A statement that only reads: a function of its snapshot. -/
def Statement.query {S L β : Type} [Lockable S L] (f : S → β) : Statement S L β where
  exec snap _ := .ok ⟨f snap, id, []⟩
  frame h l _ s := by
    obtain rfl := Except.ok.inj h
    exact Lockable.refl l s

@[simp] lemma Statement.query_exec {S L β : Type} [Lockable S L] (f : S → β) (snap cur : S) :
    (Statement.query f).exec snap cur = .ok ⟨f snap, id, []⟩ := rfl

variable {S L ρ Q : Type} [Lockable S L]

/-! ## Programs -/

/-- What is left of a request that answers a `ρ`. -/
inductive Program (S L ρ : Type) [Lockable S L] : Type 1 where
  /-- The request is answered. -/
  | answer (r : ρ)
  /-- A statement in the request's open transaction. -/
  | inside {β : Type} (stmt : Statement S L β) (failed : DbError → ρ) (next : β → Program S L ρ)
  /-- A statement that is a transaction of its own. -/
  | alone {β : Type} (stmt : Statement S L β) (failed : DbError → ρ) (next : β → Program S L ρ)
  /-- Commit the open transaction and answer. -/
  | commit (failed : ρ) (done : ρ)

/-- The request has its answer. -/
def Program.Answered : Program S L ρ → Prop
  | .answer _ => True
  | _ => False

/-- A piece of a request that yields an `α` to the rest of it. -/
def Handler (S L ρ : Type) [Lockable S L] (α : Type) : Type 1 :=
  (α → Program S L ρ) → Program S L ρ

namespace Handler

instance : Monad (Handler S L ρ) where
  pure a k := k a
  bind m f k := m fun a => f a k

@[simp] lemma pure_apply {α : Type} (a : α) (k : α → Program S L ρ) :
    (pure a : Handler S L ρ α) k = k a := rfl

@[simp] lemma bind_apply {α β : Type} (m : Handler S L ρ α) (f : α → Handler S L ρ β)
    (k : β → Program S L ρ) : (m >>= f) k = m fun a => f a k := rfl

/-- Answer now, whatever is left to do; an open transaction is rolled back. -/
def finish {α : Type} (r : ρ) : Handler S L ρ α := fun _ => .answer r

/-- Go on with the value of a computation, or answer what its error says. -/
def orElse {ε α : Type} (failed : ε → ρ) : Except ε α → Handler S L ρ α
  | .ok a => fun k => k a
  | .error e => fun _ => .answer (failed e)

/-- A statement of the open transaction. -/
def inside {β : Type} (stmt : Statement S L β) (failed : DbError → ρ) : Handler S L ρ β :=
  fun k => .inside stmt failed k

/-- A statement on its own. -/
def alone {β : Type} (stmt : Statement S L β) (failed : DbError → ρ) : Handler S L ρ β :=
  fun k => .alone stmt failed k

/-- Commit the open transaction and answer. -/
def commit {α : Type} (failed done : ρ) : Handler S L ρ α := fun _ => .commit failed done

/-- The whole program of a handler that yields its answer. -/
def run (m : Handler S L ρ ρ) : Program S L ρ := m .answer

end Handler

/-! ## Histories -/

/-- One change of the committed database: the request that made it, whether it was the commit
that ends the request's transaction (and not a statement on its own), the states around it. -/
structure Entry (S Q : Type) where
  request : Q
  closing : Bool
  before : S
  after : S

/-- All commits so far, and the committed database. -/
structure History (S Q : Type) where
  entries : List (Entry S Q) := []
  current : S

/-- The history goes on with a commit. -/
def History.push (H : History S Q) (q : Q) (closing : Bool) (s : S) : History S Q :=
  ⟨H.entries ++ [⟨q, closing, H.current, s⟩], s⟩

@[simp] lemma History.push_current (H : History S Q) (q : Q) (b : Bool) (s : S) :
    (H.push q b s).current = s := rfl

@[simp] lemma History.push_entries (H : History S Q) (q : Q) (b : Bool) (s : S) :
    (H.push q b s).entries = H.entries ++ [⟨q, b, H.current, s⟩] := rfl

/-- Some committed state so far had `p`. -/
def History.Saw (H : History S Q) (p : S → Prop) : Prop :=
  p H.current ∨ ∃ e ∈ H.entries, p e.before

section runs

variable (guar : Q → Bool → History S Q → S → Prop) (fresh : Q → Q → Prop) (start : S)

/-- The histories in which every commit is one its request guarantees (`guar`), given what was
committed before, and no two transactions share what they drew (`fresh`). -/
inductive Run : History S Q → Prop
  | start : Run ⟨[], start⟩
  | push {H : History S Q} {q : Q} {b : Bool} {s : S} (hrun : Run H) (hg : guar q b H s)
      (hf : b = true → ∀ e ∈ H.entries, e.closing = true → fresh e.request q) :
      Run (H.push q b s)

/-- `H'` is a point of a run at which all commits of `H` were already made. -/
def Later (H H' : History S Q) : Prop :=
  Run guar fresh start H' ∧ H.entries <+: H'.entries

end runs

/-! ## The system -/

/-- An open transaction: its private writes and the locks it holds. -/
structure Connection (S L : Type) where
  /-- The writes made so far, as one function on the committed state. -/
  writes : S → S := id
  /-- The locks held. -/
  locks : List L := []

/-- A request that has its answer has dropped its transaction. -/
def Connection.settle (c : Connection S L) : Program S L ρ → Connection S L
  | .answer _ => {}
  | _ => c

/-- A request in progress (or answered). `born` is the history at its arrival. -/
structure Thread (S L ρ Q : Type) [Lockable S L] where
  request : Q
  born : History S Q
  program : Program S L ρ
  connection : Connection S L := {}
  /-- The snapshot of the statement that is being run, if one has started. -/
  snapshot : Option S := none

/-- The thread goes on with program `p` on connection `c`. -/
def Thread.resume (t : Thread S L ρ Q) (p : Program S L ρ) (c : Connection S L) :
    Thread S L ρ Q :=
  { t with program := p, connection := c.settle p, snapshot := none }

/-- One step of one thread, when the committed database is `db` and the other threads hold the
locks `held`. The last but one argument is what the step publishes, if anything: whether it is
the commit of the transaction, and the new database. -/
inductive Thread.Step (held : List L) (db : S) :
    Thread S L ρ Q → Option (Bool × S) → Thread S L ρ Q → Prop
  /-- A statement of the transaction starts: it sees the committed state and its own writes. -/
  | begin {t β} {stmt : Statement S L β} {failed next}
      (hp : t.program = .inside stmt failed next) (hs : t.snapshot = none) :
      Step held db t none { t with snapshot := some (t.connection.writes db) }
  /-- It goes through once nobody else holds the locks it takes. -/
  | done {t β} {stmt : Statement S L β} {failed next} {snap r}
      (hp : t.program = .inside stmt failed next) (hs : t.snapshot = some snap)
      (hr : stmt.exec snap (t.connection.writes db) = .ok r) (hl : ∀ l ∈ r.locks, l ∉ held) :
      Step held db t none
        (t.resume (next r.value) ⟨r.effect ∘ t.connection.writes, r.locks ++ t.connection.locks⟩)
  /-- It is refused by a constraint. -/
  | refused {t β} {stmt : Statement S L β} {failed next} {snap e}
      (hp : t.program = .inside stmt failed next) (hs : t.snapshot = some snap)
      (hr : stmt.exec snap (t.connection.writes db) = .error e) :
      Step held db t none (t.resume (.answer (failed e)) {})
  /-- It fails for a reason outside the model. -/
  | broken {t β} {stmt : Statement S L β} {failed next}
      (hp : t.program = .inside stmt failed next) :
      Step held db t none (t.resume (.answer (failed .other)) {})
  /-- A statement on its own starts. -/
  | beginAlone {t β} {stmt : Statement S L β} {failed next}
      (hp : t.program = .alone stmt failed next) (hs : t.snapshot = none) :
      Step held db t none { t with snapshot := some db }
  /-- A statement on its own goes through and is committed at once. -/
  | doneAlone {t β} {stmt : Statement S L β} {failed next} {snap r}
      (hp : t.program = .alone stmt failed next) (hs : t.snapshot = some snap)
      (hr : stmt.exec snap db = .ok r)
      (hl : ∀ l ∈ r.locks, l ∉ held ∧ l ∉ t.connection.locks) :
      Step held db t (some (false, r.effect db)) (t.resume (next r.value) t.connection)
  | refusedAlone {t β} {stmt : Statement S L β} {failed next} {snap e}
      (hp : t.program = .alone stmt failed next) (hs : t.snapshot = some snap)
      (hr : stmt.exec snap db = .error e) :
      Step held db t none (t.resume (.answer (failed e)) {})
  | brokenAlone {t β} {stmt : Statement S L β} {failed next}
      (hp : t.program = .alone stmt failed next) :
      Step held db t none (t.resume (.answer (failed .other)) {})
  /-- The commit makes the private writes visible, all at once. -/
  | commit {t failed ok} (hp : t.program = .commit failed ok) :
      Step held db t (some (true, t.connection.writes db)) (t.resume (.answer ok) {})
  /-- A commit that fails is not applied. -/
  | commitFailed {t failed ok} (hp : t.program = .commit failed ok) :
      Step held db t none (t.resume (.answer failed) {})

/-- The commits so far and the requests, in order of arrival. -/
structure System (S L ρ Q : Type) [Lockable S L] where
  history : History S Q
  threads : List (Thread S L ρ Q) := []

/-- The locks held by some threads together. -/
def heldBy (ts : List (Thread S L ρ Q)) : List L := ts.flatMap fun t => t.connection.locks

lemma mem_heldBy {ts : List (Thread S L ρ Q)} {l : L} :
    l ∈ heldBy ts ↔ ∃ t ∈ ts, l ∈ t.connection.locks := List.mem_flatMap

section system

variable (serve : Q → Program S L ρ) (fresh : Q → Q → Prop) (start : S)

/-- A request that arrives now. -/
def System.arrival (sys : System S L ρ Q) (q : Q) : Thread S L ρ Q :=
  { request := q, born := sys.history, program := serve q }

/-- One step of the system: a request arrives (what it draws at random is `fresh` with respect to
all earlier requests), a thread works in private, or a thread publishes a change. -/
inductive System.Step : System S L ρ Q → System S L ρ Q → Prop
  | arrive {sys : System S L ρ Q} (q : Q) (hq : ∀ t ∈ sys.threads, fresh t.request q) :
      Step sys { sys with threads := sys.threads ++ [sys.arrival serve q] }
  | quiet {H : History S Q} {before after : List (Thread S L ρ Q)} {t t' : Thread S L ρ Q}
      (ht : Thread.Step (heldBy (before ++ after)) H.current t none t') :
      Step ⟨H, before ++ t :: after⟩ ⟨H, before ++ t' :: after⟩
  | publish {H : History S Q} {before after : List (Thread S L ρ Q)} {t t' : Thread S L ρ Q}
      {b : Bool} {s : S} (ht : Thread.Step (heldBy (before ++ after)) H.current t (some (b, s)) t') :
      Step ⟨H, before ++ t :: after⟩ ⟨H.push t.request b s, before ++ t' :: after⟩

/-- The systems reachable from a database with no requests. -/
inductive System.Reaches : System S L ρ Q → Prop
  | init : Reaches ⟨⟨[], start⟩, []⟩
  | step {sys sys' : System S L ρ Q} (h : Reaches sys) (hs : System.Step serve fresh sys sys') :
      Reaches sys'

end system

end Transactions
