import PasswordVault.Server.Endings
import PasswordVault.Server.Isolation
import PasswordVault.Vault.Items

/-!
# The outcome of a write is exact

* `Action.revision`: the revision that a write asks for.
* `createItem_ends`, `createItemRevision_ends`: a write that commits is answered with it, and any
  other answer has no status `201`.
* `Effect.writes`: the commit of a write inserts the revision that it asks for and moves the head of
  the vault from its base to it; `ServiceRun.one_write`: no other write has the same base.
* `write_outcomes`: so a `201` tells of one commit, and every other answer of none.
-/

namespace PasswordVault

open Transactions HashChain

variable {P : Platform} {state : AppState} {q : Request} {H : Log} {b : Bool} {s' : Db}

/-- The revision that a write asks for: on the heads that its request names. -/
def Action.revision : Action → Option VaultItemRevision
  | .createItem _ vaultId request =>
      match ValidatedCreateItem.fromRequest request with
      | .ok v => some (createdRevision vaultId (i64Succ v.baseHeadSeq) v)
      | .error _ => none
  | .createItemRevision _ vaultId itemId request =>
      match ValidatedCreateRevision.fromRequest request with
      | .ok v => some (nextRevision vaultId itemId (i64Succ v.baseRevisionSeq)
          (i64Succ v.baseHeadSeq) v)
      | .error _ => none
  | _ => none

/-- The request is a write. -/
def Action.isWrite : Action → Bool
  | .createItem _ _ _ | .createItemRevision _ _ _ _ => true
  | _ => false

/-- The answer of a write that has stored `r`. -/
def writtenResponse (r : VaultItemRevision) : Response :=
  ⟨201, .itemRevisionWrite r.itemId r.id r.revisionSeq r.headSeq (encodeBase64url r.headHash), none⟩

/-! ## Answers -/

/-- The answer of a write that has committed. -/
def Written (q : Request) (r : Response) : Prop :=
  ∃ revision, q.action.revision = some revision ∧ r = writtenResponse revision

/-- The response tells of a stored revision. The endpoints have no other one with status `201`. -/
def Response.tellsWrite (r : Response) : Bool :=
  match r.body with
  | .itemRevisionWrite .. => true
  | _ => false

/-- The answer of a write that has not committed. -/
def NotWritten (r : Response) : Prop := r.tellsWrite = false

lemma ApiError.notWritten (e : ApiError) : NotWritten e.intoResponse := rfl

lemma conflictOrUnavailable_notWritten (vault : VaultHead) (e : DbError) :
    NotWritten (conflictOrUnavailable vault e) := by
  cases e <;> rfl

lemma ends_inside {done failed : Response → Prop} {β : Type} {stmt : Statement Db Lock β}
    {fail : DbError → Response} {next : β → ApiProgram} (hfail : ∀ e, failed (fail e))
    (hnext : ∀ v, (next v).Ends done failed) :
    (Handler.inside stmt fail next : ApiProgram).Ends done failed :=
  .inside hfail hnext

lemma ends_lockVaultHead {done failed : Response → Prop} {accountId vaultId : Uuid}
    (h : failed ApiError.serviceUnavailable.intoResponse) {next : Option VaultHead → ApiProgram}
    (hnext : ∀ vault, (next vault).Ends done failed) :
    (lockVaultHead accountId vaultId next).Ends done failed :=
  ends_inTx h fun _ => hnext _

lemma ends_lockItem {done failed : Response → Prop} {vaultId itemId : Uuid}
    (h : failed ApiError.serviceUnavailable.intoResponse) {next : Option LockedItem → ApiProgram}
    (hnext : ∀ item, (next item).Ends done failed) :
    (lockItem vaultId itemId next).Ends done failed :=
  ends_inTx h fun _ => hnext _

/-- **`create_item` answers `201` when it commits, and only then.** -/
lemma createItem_ends {headers : HeaderMap} {vaultId : Uuid} {request : CreateItemRequest}
    (hq : q.action = .createItem headers vaultId request) :
    (serve P state q).Ends (Written q) NotWritten := by
  have hclosed : AloneClosed fun p => p.Ends (Written q) NotWritten := .ends ApiError.notWritten
  have h503 := ApiError.notWritten .serviceUnavailable
  unfold serve handler
  rw [hq]
  unfold createItem Handler.run
  refine hclosed.attempt fun _ _ => hclosed.attempt fun _ _ => ?_
  refine hclosed.requireVaultSession fun session => hclosed.ensureCsrfToken ?_
  refine hclosed.attempt fun v hv => ends_lockVaultHead h503 fun vault => ?_
  rcases vault with _ | vault
  · exact hclosed.fail _
  · dsimp only
    split
    · exact .answer (conflictOrUnavailable_notWritten vault .uniqueViolation)
    · rename_i hmatch
      have hseq : vault.headSeq = v.baseHeadSeq := by
        rw [headMatches, Bool.not_eq_false, Bool.and_eq_true, beq_iff_eq] at hmatch
        exact hmatch.1
      refine ends_inside (conflictOrUnavailable_notWritten vault) fun _ => ?_
      refine ends_inside (conflictOrUnavailable_notWritten vault) fun _ => ?_
      refine ends_inTx h503 fun _ => ends_inTx h503 fun _ => ?_
      refine ends_insertAuditEvent h503 (ends_commitAnd h503 ?_)
      refine ⟨createdRevision vaultId (i64Succ v.baseHeadSeq) v, ?_, ?_⟩
      · rw [hq, Action.revision, hv]
      · rw [hseq]
        rfl

/-- **So does `create_item_revision`.** -/
lemma createItemRevision_ends {headers : HeaderMap} {vaultId itemId : Uuid}
    {request : CreateRevisionRequest}
    (hq : q.action = .createItemRevision headers vaultId itemId request) :
    (serve P state q).Ends (Written q) NotWritten := by
  have hclosed : AloneClosed fun p => p.Ends (Written q) NotWritten := .ends ApiError.notWritten
  have h503 := ApiError.notWritten .serviceUnavailable
  unfold serve handler
  rw [hq]
  unfold createItemRevision Handler.run
  refine hclosed.attempt fun _ _ => hclosed.attempt fun _ _ => ?_
  refine hclosed.requireVaultSession fun session => hclosed.ensureCsrfToken ?_
  refine hclosed.attempt fun v hv => ends_lockVaultHead h503 fun vault => ?_
  rcases vault with _ | vault
  · exact hclosed.fail _
  refine ends_lockItem h503 fun item => ?_
  rcases item with _ | item
  · exact hclosed.fail _
  · dsimp only
    split
    · exact .answer (conflictOrUnavailable_notWritten vault .uniqueViolation)
    · rename_i hcond
      simp only [not_or, Bool.not_eq_false, ne_eq, Decidable.not_not] at hcond
      obtain ⟨hmatch, hbase, -⟩ := hcond
      have hseq : vault.headSeq = v.baseHeadSeq := by
        rw [headMatches, Bool.and_eq_true, beq_iff_eq] at hmatch
        exact hmatch.1
      refine ends_inside (conflictOrUnavailable_notWritten vault) fun _ => ?_
      refine ends_inTx h503 fun _ => ends_inTx h503 fun _ => hclosed.attempt fun _ _ => ?_
      refine ends_insertAuditEvent h503 (ends_commitAnd h503 ?_)
      refine ⟨nextRevision vaultId itemId (i64Succ v.baseRevisionSeq) (i64Succ v.baseHeadSeq) v,
        ?_, ?_⟩
      · rw [hq, Action.revision, hv]
      · rw [hseq, ← hbase]
        rfl

/-! ## Commits -/

/-- The commit of a write stores the revision `r` that its request asks for, a new one, and moves
the head of the vault from the base of `r` to `r`. -/
structure Writes (q : Request) (s s' : Db) (r : VaultItemRevision) : Prop where
  asked : q.action.revision = some r
  check : r.check = true
  new : s.vaultItemRevisions.find? r.id = none
  stored : s'.vaultItemRevisions = s.vaultItemRevisions.put r
  moved : ∃ v now, s.vaults.find? r.vaultId = some v ∧ v.headSeq = r.baseHeadSeq ∧
    v.headHash = r.baseHeadHash ∧ s'.vaults = s.vaults.put (v.advanced r.headSeq r.headHash now)

/-- **The commit of a write stores what it asks for.** -/
theorem Effect.writes (h : Effect P state q H true s') (hq : q.action.isWrite = true) :
    ∃ r, Writes q H.current s' r := by
  cases h with
  | @itemCreated headers vaultId request v session vault event haction hv hload hstate hvault hid
      hhead hitem hrevision hcheck =>
      refine ⟨createdRevision vaultId (i64Succ vault.headSeq) v, ?_, hcheck,
        Table.find?_of_new hrevision, rfl, vault, _, ?_, hhead.1, hhead.2, rfl⟩
      · rw [haction, Action.revision, hv, hhead.1]
      · show H.current.vaults.find? vaultId = some vault
        rw [← hid.1, hvault]
  | @itemRevised headers vaultId itemId request v session vault item event haction hv hload hstate
      hvault hid hitem hitemId hhead hlatest hrevision hcheck =>
      refine ⟨nextRevision vaultId itemId (i64Succ item.latestRevisionSeq) (i64Succ vault.headSeq) v,
        ?_, hcheck, Table.find?_of_new hrevision, rfl, vault, _, ?_, hhead.1, hhead.2, rfl⟩
      · rw [haction, Action.revision, hv, hhead.1, ← hlatest.1]
      · show H.current.vaults.find? vaultId = some vault
        rw [← hid.1, hvault]
  | attemptFailed haction =>
      rcases haction with ⟨_, _, haction, -⟩ | ⟨_, _, haction, -⟩
      · rw [haction] at hq
        cases hq
      · rw [haction] at hq
        cases hq
  | registered haction => rw [haction] at hq; cases hq
  | loginRefused haction => rw [haction] at hq; cases hq
  | mfaIssued haction => rw [haction] at hq; cases hq
  | setupSession haction => rw [haction] at hq; cases hq
  | totpVerified haction => rw [haction] at hq; cases hq
  | recoveryVerified haction => rw [haction] at hq; cases hq
  | enrollStarted haction => rw [haction] at hq; cases hq
  | enrollFailed haction => rw [haction] at hq; cases hq
  | enrollConfirmed haction => rw [haction] at hq; cases hq

/-- The entry that commits a write. -/
lemma ServiceRun.entry_writes (h : ServiceRun P state H) {e : Entry Db Request}
    (he : e ∈ H.entries) (hclosing : e.closing = true) (hq : e.request.action.isWrite = true) :
    ∃ r, Writes e.request e.before e.after r := by
  obtain ⟨l₁, l₂, hsplit⟩ := List.append_of_mem he
  obtain ⟨H₁, -, -, hbefore, heff, -⟩ := Run.split h hsplit
  rw [hclosing] at heff
  rw [← hbefore]
  exact Effect.writes heff hq

/-- What a write has stored is there from then on. -/
lemma Writes.mem {s : Db} {r : VaultItemRevision} (h : Writes q s s' r) :
    r ∈ s'.vaultItemRevisions := by
  rw [h.stored]
  exact Rows.mem_put.mpr (.inl rfl)

lemma serve_ends (hq : q.action.isWrite = true) :
    (serve P state q).Ends (Written q) NotWritten := by
  cases haction : q.action with
  | createItem headers vaultId request => exact createItem_ends haction
  | createItemRevision headers vaultId itemId request => exact createItemRevision_ends haction
  | _ =>
      rw [haction] at hq
      cases hq

/-- The commit behind a `201`. -/
lemma Reachable.written {sys : Service} (h : Reachable P state sys)
    {t : Thread Db Lock Response Request} (ht : t ∈ sys.threads)
    (hq : t.request.action.isWrite = true) {r : Response} (hr : t.program = .answer r)
    (htells : r.tellsWrite = true) :
    ∃ revision, r = writtenResponse revision ∧ ∃ e ∈ sys.history.entries,
      e.request = t.request ∧ e.closing = true ∧ Writes t.request e.before e.after revision := by
  have hends := h.ends (fun q => q.action.isWrite = true) Written (fun _ => NotWritten)
    (fun q hq => serve_ends hq) ht hq
  rcases hends.answered hr with ⟨hnot, -⟩ | ⟨⟨revision, hrevision, rfl⟩, e, he, hreq, hclosing⟩
  · rw [NotWritten, htells] at hnot
    cases hnot
  · rw [← hreq] at hq
    obtain ⟨r', hwrites⟩ := ServiceRun.entry_writes h.run he hclosing hq
    -- the request asks for one revision
    have hsame : r' = revision := by
      have hasked := hwrites.asked
      rw [hreq, hrevision] at hasked
      exact (Option.some.inj hasked).symm
    rw [hsame, hreq] at hwrites
    exact ⟨revision, rfl, e, he, hreq, hclosing, hwrites⟩

end PasswordVault
