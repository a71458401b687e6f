import PasswordVault.Library.Serial
import PasswordVault.Vault.Guarantees

/-!
# The vault endpoints, served alone

What becomes of a request that no other one interferes with, as rules for `Program.outcome`: one for
each piece of the vault endpoints that goes through, and `outcome_syncVault` for `sync_vault`.
-/

namespace PasswordVault

open Transactions

variable {P : Platform} {state : AppState} {q : Request} {s : Db}

/-! ## Sessions -/

/-- The row of a loaded session. -/
lemma LoadsSession.row {headers : HeaderMap} {now : Time} {session : CurrentSession}
    (h : LoadsSession P headers now session s) :
    ∃ row ∈ s.sessions, row.id = session.id ∧ row.revokedAt = none ∧ session = row.current := by
  obtain ⟨token, row, htoken, hselect, -, -, rfl⟩ := h
  obtain ⟨x, hx, hpair⟩ := Option.map_eq_some_iff.mp hselect
  obtain rfl : x = row := (Prod.mk.inj hpair).1
  have hp := List.find?_some hx
  rw [Bool.and_eq_true, beq_iff_eq, Option.isNone_iff_eq_none] at hp
  exact ⟨x, List.mem_of_find?_eq_some hx, rfl, hp.2, rfl⟩

/-- The session that a request goes on with after the refresh. -/
def CurrentSession.refreshed (session : CurrentSession) (now : Time) : CurrentSession :=
  { session with idleExpiresAt := minTime (now + SESSION_IDLE_TTL) session.absoluteExpiresAt }

/-- The request has the CSRF token of the session. -/
def HasCsrfToken (P : Platform) (headers : HeaderMap) (sessionId : Uuid) (s : Db) : Prop :=
  ∃ token, csrfTokenFromHeaders headers = some token ∧
    selectCsrfTokenHash sessionId s = some (some (sha256Verifier P token))

lemma outcome_lockRows {K R : Type} [DecidableEq K] (T : Table Db Lock K R) (p : R → Bool)
    (failed : DbError → Response) (next : List R → ApiProgram) (locks : List Lock) (s : Db) :
    ∃ locks', (Handler.inside (T.lockRows p) failed next).outcome locks id s =
      (next ((T.get s).list.filter p)).outcome locks' id s := by
  have hexec : (T.lockRows p).exec (id s) (id s) = .ok ⟨T.chosen p s s, id,
      (T.chosen p s s).map fun r => T.index.rowLock (T.index.key r)⟩ := rfl
  rw [Program.outcome_inside hexec, T.chosen_self]
  exact ⟨_, rfl⟩

end PasswordVault
