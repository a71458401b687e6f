import PasswordVault.Auth.LoginGuarantees

/-!
# Handlers keep to the effects: the vault

* `createItem_holds`, `createItemRevision_holds`: the writes commit only their effects, and answer
  more than an error only for a vault of the session's account (`WriteAnswer`).
* `syncVault_holds`: what an answer of `sync_vault` tells (`SyncAnswer`): the head, the cursor
  check and the page were read at three moments, in this order, after the request arrived.
-/

namespace PasswordVault

open Transactions

variable {P : Platform} {state : AppState} {q : Request} {Post : Log → Response → Prop}

/-! ## Rules for the pieces -/

section pieces

variable {c : Connection Db Lock} {F : Log → Prop}

lemma holds_requireVaultSession {headers : HeaderMap} {next : CurrentSession → ApiProgram}
    (herr : ErrorsOk Post) (hq : q.action.sessionHeaders = some headers) (hF : Kept P state [] F)
    (hc : c.locks = []) (h : ∀ session F', Kept P state [] F' → (∀ H, F' H → F H) →
      (∀ H, F' H → H.Saw (LoadsSession P headers q.now session)) →
      session.sessionState = .mfaVerified →
      Holds P state q Post c F' (next { session with
        idleExpiresAt := minTime (q.now + SESSION_IDLE_TTL) session.absoluteExpiresAt })) :
    Holds P state q Post c F (requireVaultSession P q.draws headers next) := by
  unfold requireVaultSession
  refine holds_loadCurrentSession herr hq hF hc ?_ ?_
  · exact holds_attempt herr fun session hsession => by cases hsession
  · intro session F' hF' hsub hload
    refine holds_attempt herr fun session' hsession => ?_
    obtain rfl := Except.ok.inj hsession
    refine holds_attempt herr fun _ haccess => ?_
    rw [ensure_ok] at haccess
    refine holds_refreshSessionActivity herr hq hF' hc hload ?_
    exact h session F' hF' hsub hload (eq_of_beq haccess)

/-- Locking the head of a vault: the row found is fixed from now on. -/
lemma holds_lockVaultHead {accountId vaultId : Uuid} {next : Option VaultHead → ApiProgram}
    (herr : ErrorsOk Post) (hF : Kept P state c.locks F)
    (hw : ∀ s, (c.writes s).vaults = s.vaults)
    (hnone : ∀ c' F', Kept P state c'.locks F' → Holds P state q Post c' F' (next none))
    (hsome : ∀ (vault : Vault) locks F', Kept P state locks F' → (∀ H, F' H → F H) →
      vault.id = vaultId ∧ vault.accountId = accountId →
      (∀ H, F' H → H.current.vaults.find? vault.id = some vault) →
      Holds P state q Post ⟨c.writes, locks⟩ F' (next (some (vaultHeadFromRow vault)))) :
    Holds P state q Post c F (lockVaultHead accountId vaultId next) := by
  unfold lockVaultHead
  refine Sat.lockRows (T := vaults) hF (unavailable_ok herr) hw ?_
  intro rows F' hF' hsub hp hfound
  rcases hhead : rows.head? with _ | vault
  · have hnil : rows = [] := List.head?_eq_none_iff.mp hhead
    subst hnil
    exact hnone _ F' hF'
  · have hmem : vault ∈ rows := List.mem_of_head? hhead
    have hof : vault.id = vaultId ∧ vault.accountId = accountId := by
      simpa [isVaultOf] using hp vault hmem
    have hgoal := hsome vault _ F' hF' hsub hof (hfound vault hmem)
    simpa [hhead] using hgoal

lemma holds_lockItem {vaultId itemId : Uuid} {next : Option LockedItem → ApiProgram}
    (herr : ErrorsOk Post) (hF : Kept P state c.locks F)
    (hw : ∀ s, (c.writes s).vaultItems = s.vaultItems)
    (hnone : ∀ c' F', Kept P state c'.locks F' → Holds P state q Post c' F' (next none))
    (hsome : ∀ (item : VaultItem) locks F', Kept P state locks F' → (∀ H, F' H → F H) →
      item.id = itemId ∧ item.vaultId = vaultId →
      (∀ H, F' H → H.current.vaultItems.find? item.id = some item) →
      Holds P state q Post ⟨c.writes, locks⟩ F'
        (next (some ⟨item.latestRevisionSeq, item.deletedAt.isSome⟩))) :
    Holds P state q Post c F (lockItem vaultId itemId next) := by
  unfold lockItem
  refine Sat.lockRows (T := vaultItems) hF (unavailable_ok herr) hw ?_
  intro rows F' hF' hsub hp hfound
  rcases hhead : rows.head? with _ | item
  · have hnil : rows = [] := List.head?_eq_none_iff.mp hhead
    subst hnil
    exact hnone _ F' hF'
  · have hmem : item ∈ rows := List.mem_of_head? hhead
    have hof : item.vaultId = vaultId ∧ item.id = itemId := by simpa using hp item hmem
    have hgoal := hsome item _ F' hF' hsub hof.symm (hfound item hmem)
    simpa [hhead] using hgoal

/-- Moving the latest revision of an item that is already known. -/
lemma holds_updateItemLatest {i : VaultItem} {vaultId itemId revisionId : Uuid}
    {revisionSeq : Int} {deleted : Bool} {now : Time} {next : Unit → ApiProgram}
    (herr : ErrorsOk Post) (hF : Kept P state c.locks F)
    (hid : i.id = itemId ∧ i.vaultId = vaultId)
    (hknown : ∀ H, F H → (c.writes H.current).vaultItems.find? i.id = some i)
    (h : ∀ locks, Kept P state locks F →
      Holds P state q Post
        ⟨vaultItems.putAll [i.revised revisionId revisionSeq deleted now] ∘ c.writes, locks⟩ F
        (next ())) :
    Holds P state q Post c F
      (updateItemLatest vaultId itemId revisionId revisionSeq deleted now next) := by
  unfold updateItemLatest
  refine Sat.updateRow (T := vaultItems) i hF (unavailable_ok herr) hknown (by simp [hid]) ?_
    fun locks _ hF' _ => h locks hF'
  intro x hx
  rw [Bool.and_eq_true, beq_iff_eq, beq_iff_eq] at hx
  exact hx.2.trans hid.1.symm

/-- Moving the head of a vault that is already known. -/
lemma holds_updateVaultHead {vault : Vault} {accountId vaultId : Uuid} {headSeq : Int}
    {headHash : Bytes} {now : Time} {next : Unit → ApiProgram}
    (herr : ErrorsOk Post) (hF : Kept P state c.locks F)
    (hid : vault.id = vaultId ∧ vault.accountId = accountId)
    (hknown : ∀ H, F H → (c.writes H.current).vaults.find? vault.id = some vault)
    (h : ∀ locks, Kept P state locks F →
      Holds P state q Post
        ⟨vaults.putAll [vault.advanced headSeq headHash now] ∘ c.writes, locks⟩ F (next ())) :
    Holds P state q Post c F (updateVaultHead accountId vaultId headSeq headHash now next) := by
  unfold updateVaultHead
  refine Sat.updateRow (T := vaults) vault hF (unavailable_ok herr) hknown
    (by simp [isVaultOf, hid]) ?_ fun locks _ hF' _ => h locks hF'
  intro x hx
  rw [isVaultOf, Bool.and_eq_true, beq_iff_eq, beq_iff_eq] at hx
  exact hx.1.trans hid.1.symm

end pieces

lemma headMatches_iff {vault : Vault} {headSeq : Int} {headHash : Bytes} :
    headMatches (vaultHeadFromRow vault) headSeq headHash = true ↔
      vault.headSeq = headSeq ∧ vault.headHash = headHash := by
  simp [headMatches, vaultHeadFromRow]

/-! ## The writes -/

/-- What an answer of a write to a vault, arrived at `born`, tells at `H`: it is an error, or the
vault was one of the account of the request's session at some moment, the items named were in it,
and a conflict names the head that the vault had when the request answered, with the lock on its
row. -/
def WriteAnswer (P : Platform) (state : AppState) (q : Request) (vaultId : Uuid) (items : List Uuid)
    (born H : Log) (r : Response) : Prop :=
  (∃ e : ApiError, r = e.intoResponse) ∨
  ∃ headers session, q.action.sessionHeaders = some headers ∧
    H.Saw (LoadsSession P headers q.now session) ∧
    H.Saw (fun s => ∃ v ∈ s.vaults, v.id = vaultId ∧ v.accountId = session.accountId) ∧
    (∀ id ∈ items, H.Saw fun s => ∃ i ∈ s.vaultItems, i.id = id ∧ i.vaultId = vaultId) ∧
    ∀ head, r = vaultConflictResponse head → ∃ (H₁ : Log) (v : Vault), Since P state born H₁ ∧
      Since P state H₁ H ∧ H₁.current.vaults.find? vaultId = some v ∧
      r = vaultConflictResponse (vaultHeadFromRow v)

lemma writeAnswer_error (vaultId : Uuid) (items : List Uuid) (born : Log) :
    ErrorsOk (WriteAnswer P state q vaultId items born) :=
  fun e _ => .inl ⟨e, rfl⟩

lemma WriteAnswer.later {born H H' : Log} {vaultId : Uuid} {items : List Uuid} {r : Response}
    (h : WriteAnswer P state q vaultId items born H r) (hrun : ServiceRun P state H)
    (hl : Since P state H H') : WriteAnswer P state q vaultId items born H' r := by
  have hsaw : ∀ {p : Db → Prop}, H.Saw p → H'.Saw p := fun hp => Later.saw_of_saw hrun hl hp
  rcases h with herr | ⟨headers, session, hq, hload, hvault, hitems, hconflict⟩
  · exact .inl herr
  · refine .inr ⟨headers, session, hq, hsaw hload, hsaw hvault, fun id hid => hsaw (hitems id hid),
      fun head hhead => ?_⟩
    obtain ⟨H₁, v, hborn, hl₁, hfind, hr⟩ := hconflict head hhead
    exact ⟨H₁, v, hborn, hl₁.trans hl, hfind, hr⟩

/-- An answer that is a conflict only with the head `vault`. -/
def ConflictsWith (vault : VaultHead) (r : Response) : Prop :=
  ∀ head, r = vaultConflictResponse head → r = vaultConflictResponse vault

lemma ConflictsWith.conflictOrUnavailable (vault : VaultHead) (e : DbError) :
    ConflictsWith vault (conflictOrUnavailable vault e) := by
  intro head hr
  cases e with
  | uniqueViolation => rfl
  | other =>
      have hbody := congrArg Response.body hr
      cases hbody

/-- A success is no conflict. -/
lemma ConflictsWith.written (vault : VaultHead) {itemId revisionId : Uuid} {revisionSeq headSeq : Int}
    {headHash : String} : ConflictsWith vault
      ⟨201, .itemRevisionWrite itemId revisionId revisionSeq headSeq headHash, none⟩ := by
  intro head hr
  have hbody := congrArg Response.body hr
  cases hbody

lemma createItem_holds {headers : HeaderMap} {vaultId : Uuid}
    {request : CreateItemRequest} (hq : q.action = .createItem headers vaultId request)
    (born : Log) :
    Holds P state q (WriteAnswer P state q vaultId [] born) noTransaction (Since P state born)
      (createItem P state q.draws headers vaultId request).run := by
  have herr : ErrorsOk (WriteAnswer P state q vaultId [] born) := writeAnswer_error vaultId [] born
  have hheaders : q.action.sessionHeaders = some headers := by rw [hq, Action.sessionHeaders]
  unfold createItem Handler.run
  refine holds_attempt herr fun _ _ => holds_attempt herr fun _ _ => ?_
  refine holds_requireVaultSession herr hheaders (Stable.later _ _) rfl ?_
  intro session F₁ hF₁ hsub₁ hload hstate
  refine holds_ensureCsrfToken herr hF₁ rfl fun F₂ hF₂ hsub₂ => ?_
  refine holds_attempt herr fun v hv => ?_
  refine holds_lockVaultHead herr hF₂ (fun _ => rfl) (fun _ _ _ => holds_fail herr) ?_
  intro vault locks₃ F₃ hF₃ hsub₃ hof hvault
  -- from here on every answer tells that the vault is the account's, and its head
  have hanswer : ∀ H H' r, ConflictsWith (vaultHeadFromRow vault) r → ServiceRun P state H → F₃ H →
      Since P state H H' → WriteAnswer P state q vaultId [] born H' r := by
    intro H H' r hr hrun hH hl
    have hF₁ := hsub₂ H (hsub₃ H hH)
    refine WriteAnswer.later (.inr ⟨headers, session, hheaders, hload H hF₁,
      .inl ⟨vault, (Rows.find?_eq_some.mp (hvault H hH)).1, hof⟩, ?_, ?_⟩) hrun hl
    · intro id hid
      cases hid
    · intro head hhead
      exact ⟨H, vault, hsub₁ H hF₁, hrun.later, hof.1 ▸ hvault H hH, hr head hhead⟩
  dsimp only
  split
  · exact Sat.answer fun H H' hrun hl hH => hanswer H H' _ (fun _ _ => rfl) hrun hH hl
  · rename_i hmatch
    have hhead := headMatches_iff.mp (Bool.not_eq_false _ ▸ hmatch)
    refine Sat.insertNewKnown (T := vaultItems) (r := newItem q.draws vaultId v.itemId) [] hF₃
      (fun e H H' hrun hH hl => hanswer H H' _ (.conflictOrUnavailable _ e) hrun hH hl)
      (fun s x hx _ => ⟨x, hx, rfl, rfl⟩) fun locks₄ F₄ _ hF₄ hsub₄ _ hitem => ?_
    refine Sat.insertNewKnown (T := vaultItemRevisions) [] hF₄
      (fun e H H' hrun hH hl => hanswer H H' _ (.conflictOrUnavailable _ e) hrun (hsub₄ H hH) hl)
      (fun s x hx _ => ⟨x, hx, rfl, rfl⟩) fun locks₅ F₅ _ hF₅ hsub₅ hcheck hrevision => ?_
    refine holds_updateItemLatest (i := newItem q.draws vaultId v.itemId) herr hF₅ ⟨rfl, rfl⟩
      (fun H _ => Rows.find?_put_self _ _) fun locks₆ hF₆ => ?_
    refine holds_updateVaultHead herr hF₆ hof
      (fun H hH => hvault H (hsub₄ H (hsub₅ H hH))) fun locks₇ hF₇ => ?_
    refine holds_insertAuditEvent herr hF₇ fun event => ?_
    refine Sat.commit hF₇ (fun H => herr .serviceUnavailable H) ?_ ?_
    · intro H _ hH
      have hH₃ := hsub₄ H (hsub₅ H hH)
      exact @Effect.itemCreated P state q H headers vaultId request v session vault event hq hv
        (hload H (hsub₂ H (hsub₃ H hH₃))) hstate (hvault H hH₃) hof hhead
        (hitem H (hsub₅ H hH)) (hrevision H hH) hcheck
    · intro H H' hrun hH hl
      exact hanswer H H' _ (ConflictsWith.written _) hrun (hsub₄ H (hsub₅ H hH))
        ⟨hl.1, (List.prefix_append _ _).trans hl.2⟩

lemma createItemRevision_holds {headers : HeaderMap}
    {vaultId itemId : Uuid} {request : CreateRevisionRequest}
    (hq : q.action = .createItemRevision headers vaultId itemId request) (born : Log) :
    Holds P state q (WriteAnswer P state q vaultId [itemId] born) noTransaction (Since P state born)
      (createItemRevision P state q.draws headers vaultId itemId request).run := by
  have herr : ErrorsOk (WriteAnswer P state q vaultId [itemId] born) :=
    writeAnswer_error vaultId [itemId] born
  have hheaders : q.action.sessionHeaders = some headers := by rw [hq, Action.sessionHeaders]
  unfold createItemRevision Handler.run
  refine holds_attempt herr fun _ _ => holds_attempt herr fun _ _ => ?_
  refine holds_requireVaultSession herr hheaders (Stable.later _ _) rfl ?_
  intro session F₁ hF₁ hsub₁ hload hstate
  refine holds_ensureCsrfToken herr hF₁ rfl fun F₂ hF₂ hsub₂ => ?_
  refine holds_attempt herr fun v hv => ?_
  refine holds_lockVaultHead herr hF₂ (fun _ => rfl) (fun _ _ _ => holds_fail herr) ?_
  intro vault locks₃ F₃ hF₃ hsub₃ hof hvault
  dsimp only
  refine holds_lockItem (c := ⟨id, locks₃⟩) herr hF₃ (fun _ => rfl)
    (fun _ _ _ => holds_fail herr) ?_
  intro item locks₄ F₄ hF₄ hsub₄ hitemId hitem
  -- from here on every answer tells that the vault is the account's and has the item, and its head
  have hanswer : ∀ H H' r, ConflictsWith (vaultHeadFromRow vault) r → ServiceRun P state H → F₄ H →
      Since P state H H' → WriteAnswer P state q vaultId [itemId] born H' r := by
    intro H H' r hr hrun hH hl
    have hH₃ := hsub₄ H hH
    have hF₁ := hsub₂ H (hsub₃ H hH₃)
    refine WriteAnswer.later (.inr ⟨headers, session, hheaders, hload H hF₁,
      .inl ⟨vault, (Rows.find?_eq_some.mp (hvault H hH₃)).1, hof⟩, ?_, ?_⟩) hrun hl
    · intro id hid
      rw [List.mem_singleton.mp hid]
      exact .inl ⟨item, (Rows.find?_eq_some.mp (hitem H hH)).1, hitemId⟩
    · intro head hhead
      exact ⟨H, vault, hsub₁ H hF₁, hrun.later, hof.1 ▸ hvault H hH₃, hr head hhead⟩
  dsimp only
  split
  · exact Sat.answer fun H H' hrun hl hH => hanswer H H' _ (fun _ _ => rfl) hrun hH hl
  · rename_i hcond
    simp only [not_or, Bool.not_eq_false, Bool.not_eq_true, ne_eq, Decidable.not_not,
      Option.isSome_eq_false_iff, Option.isNone_iff_eq_none] at hcond
    obtain ⟨hmatch, hlatest, hlive⟩ := hcond
    have hhead := headMatches_iff.mp hmatch
    refine Sat.insertNewKnown (T := vaultItemRevisions) [] hF₄
      (fun e H H' hrun hH hl => hanswer H H' _ (.conflictOrUnavailable _ e) hrun hH hl)
      (fun s x hx _ => ⟨x, hx, rfl, rfl⟩) fun locks₅ F₅ _ hF₅ hsub₅ hcheck hrevision => ?_
    refine holds_updateItemLatest (i := item) herr hF₅ hitemId
      (fun H hH => hitem H (hsub₅ H hH)) fun locks₆ hF₆ => ?_
    refine holds_updateVaultHead herr hF₆ hof
      (fun H hH => hvault H (hsub₄ H (hsub₅ H hH))) fun locks₇ hF₇ => ?_
    refine holds_attempt herr fun eventType _ => ?_
    refine holds_insertAuditEvent herr hF₇ fun event => ?_
    refine Sat.commit hF₇ (fun H => herr .serviceUnavailable H) ?_ ?_
    · intro H _ hH
      have hH₄ := hsub₅ H hH
      have hH₃ := hsub₄ H hH₄
      exact @Effect.itemRevised P state q H headers vaultId itemId request v session vault item
        event hq hv (hload H (hsub₂ H (hsub₃ H hH₃))) hstate (hvault H hH₃) hof (hitem H hH₄)
        hitemId hhead ⟨hlatest, hlive⟩ (hrevision H hH) hcheck
    · intro H H' hrun hH hl
      exact hanswer H H' _ (ConflictsWith.written _) hrun (hsub₅ H hH)
        ⟨hl.1, (List.prefix_append _ _).trans hl.2⟩

/-! ## The reads -/

lemma listVaults_holds (hP : ∀ H r, Post H r) {headers : HeaderMap}
    (hq : q.action = .listVaults headers) {F : Log → Prop} (hF : Kept P state [] F) :
    Holds P state q Post noTransaction F (listVaults P state q.draws headers).run := by
  have herr : ErrorsOk Post := fun _ H => hP H _
  unfold listVaults Handler.run
  refine holds_attempt herr fun _ _ => ?_
  refine holds_requireVaultSession herr (by rw [hq, Action.sessionHeaders]) hF rfl ?_
  intro session F₁ hF₁ _ _ _
  refine Sat.queryAlone hF₁ rfl (unavailable_ok herr) (fun H => .idle) ?_
  intro rows F₂ _ _
  refine holds_attempt herr fun vaults _ => ?_
  exact Sat.answer fun _ H' _ _ _ => hP H' _

/-- The decision of `sync_cursor_matches`, on the head of the vault and the revisions that it
reads. -/
def cursorMatches (vaultId : Uuid) (vault : VaultHead) (fromHeadSeq : Int) (fromHeadHash : Bytes)
    (s : Db) : Bool :=
  if vault.headSeq < fromHeadSeq then false
  else if fromHeadSeq = vault.headSeq then vault.headHash == fromHeadHash
  else if fromHeadSeq = 0 then vault.genesisHeadHash == fromHeadHash
  else (selectRevisionHash vaultId fromHeadSeq s).any fun hash => hash == fromHeadHash

/-- What an answer of `sync_vault` to a request that arrived at `born` tells at `H`: it is an
error, or the head of the vault was read at `H₁`, the cursor was checked at `H₂` and, if it
matched, the page was read at `H₃`. -/
def SyncAnswer (P : Platform) (state : AppState) (q : Request) (born H : Log) (r : Response) :
    Prop :=
  (∃ e : ApiError, r = e.intoResponse) ∨
  ∃ (headers : HeaderMap) (query : SyncQuery) (session : CurrentSession) (fromHeadHash : Bytes)
    (vault : VaultHead) (H₁ H₂ : Log),
    (q.action = .syncVault headers query ∧ decodeHash query.fromHeadHash = .ok fromHeadHash ∧
      0 ≤ query.fromHeadSeq ∧ H.Saw (LoadsSession P headers q.now session)) ∧
    (Since P state born H₁ ∧ Since P state H₁ H₂ ∧ Since P state H₂ H) ∧
    selectVaultHead session.accountId query.vaultId H₁.current = some vault ∧
    ((cursorMatches query.vaultId vault query.fromHeadSeq fromHeadHash H₂.current = false ∧
        r = vaultConflictResponse vault) ∨
      cursorMatches query.vaultId vault query.fromHeadSeq fromHeadHash H₂.current = true ∧
      ∃ H₃ : Log, Since P state H₂ H₃ ∧ Since P state H₃ H ∧
        r = syncResponse vault query.fromHeadSeq fromHeadHash (selectRevisions query.vaultId
          query.fromHeadSeq vault.headSeq (MAX_SYNC_CHANGES_PER_RESPONSE + 1) H₃.current))

lemma syncAnswer_error (born : Log) : ErrorsOk (SyncAnswer P state q born) :=
  fun e _ => .inl ⟨e, rfl⟩

/-- The cursor check: what it decides is `cursorMatches` at some moment. -/
lemma holds_syncCursorMatches {vaultId : Uuid} {vault : VaultHead} {fromHeadSeq : Int}
    {fromHeadHash : Bytes} {next : Bool → ApiProgram} {F : Log → Prop} (herr : ErrorsOk Post)
    (hF : Kept P state [] F)
    (h : ∀ ok F', Kept P state [] F' →
      (∀ H, Run (Guarantee P state) (Fresh P) {} H → F' H → F H ∧ ∃ H₂, F H₂ ∧
        Since P state H₂ H ∧ ok = cursorMatches vaultId vault fromHeadSeq fromHeadHash H₂.current) →
      Holds P state q Post noTransaction F' (next ok)) :
    Holds P state q Post noTransaction F
      (syncCursorMatches vaultId vault fromHeadSeq fromHeadHash next) := by
  unfold syncCursorMatches
  -- a decision without a query is made at the current moment
  have hnow : ∀ ok, (∀ s, ok = cursorMatches vaultId vault fromHeadSeq fromHeadHash s) →
      Holds P state q Post noTransaction F (next ok) := by
    intro ok hok
    exact h ok F hF fun H hrun hH => ⟨hH, H, hH, hrun.later, hok _⟩
  by_cases hbeyond : vault.headSeq < fromHeadSeq
  · rw [if_pos hbeyond]
    exact hnow _ fun s => by rw [cursorMatches, if_pos hbeyond]
  · rw [if_neg hbeyond]
    by_cases hhead : fromHeadSeq = vault.headSeq
    · rw [if_pos hhead]
      exact hnow _ fun s => by rw [cursorMatches, if_neg hbeyond, if_pos hhead]
    · rw [if_neg hhead]
      by_cases hzero : fromHeadSeq = 0
      · rw [if_pos hzero]
        exact hnow _ fun s => by
          rw [cursorMatches, if_neg hbeyond, if_neg hhead, if_pos hzero]
      · rw [if_neg hzero]
        refine Sat.queryAlone hF rfl (unavailable_ok herr) (fun H => .idle) ?_
        intro stored F' hF' hstored
        refine h _ F' hF' fun H _ hH => ?_
        obtain ⟨hFH, H₂, hF₂, -, hlater, rfl⟩ := hstored H hH
        refine ⟨hFH, H₂, hF₂, hlater, ?_⟩
        rw [cursorMatches, if_neg hbeyond, if_neg hhead, if_neg hzero]

lemma syncVault_holds {headers : HeaderMap} {query : SyncQuery}
    (hq : q.action = .syncVault headers query) (born : Log) :
    Holds P state q (SyncAnswer P state q born) noTransaction (Since P state born)
      (syncVault P state q.draws headers query).run := by
  have herr : ErrorsOk (SyncAnswer P state q born) := syncAnswer_error born
  unfold syncVault Handler.run
  refine holds_attempt herr fun _ _ => ?_
  refine holds_requireVaultSession herr (by rw [hq, Action.sessionHeaders]) (Stable.later _ _) rfl ?_
  intro session F₁ hF₁ hsub₁ hload _
  refine holds_attempt herr fun fromHeadSeq hseq => ?_
  obtain ⟨hnonneg, rfl⟩ : 0 ≤ query.fromHeadSeq ∧ query.fromHeadSeq = fromHeadSeq := by
    unfold validateNonnegativeSeq at hseq
    split at hseq
    · exact ⟨by assumption, Except.ok.inj hseq⟩
    · cases hseq
  refine holds_attempt herr fun fromHeadHash hhash => ?_
  refine Sat.queryAlone hF₁ rfl (unavailable_ok herr) (fun H => .idle) ?_
  intro found F₂ hF₂ hfound
  dsimp only
  rcases found with _ | vault
  · exact holds_fail herr
  · refine holds_syncCursorMatches herr hF₂ fun ok F₃ hF₃ hok => ?_
    dsimp only
    cases ok with
    | false =>
        rw [if_pos rfl]
        refine Sat.answer fun H H' hrun hlater hH => ?_
        obtain ⟨hH₂', H₂, hH₂, hlater₂, hcursor⟩ := hok H hrun hH
        obtain ⟨-, H₁, hH₁, -, hlater₁, hvault⟩ := hfound H₂ hH₂
        have hsaw := Kept.saw [] _ H H' hrun ⟨hlater, by simp⟩ (hload H (hfound H hH₂').1)
        exact .inr ⟨headers, query, session, fromHeadHash, vault, H₁, H₂, ⟨hq, hhash, hnonneg, hsaw⟩,
          ⟨hsub₁ H₁ hH₁, hlater₁, hlater₂.trans hlater⟩, hvault.symm, .inl ⟨hcursor.symm, rfl⟩⟩
    | true =>
        rw [if_neg (by simp)]
        refine Sat.queryAlone hF₃ rfl (unavailable_ok herr) (fun H => .idle) ?_
        intro rows F₄ _ hrows
        refine Sat.answer fun H H' hrun hlater hH => ?_
        obtain ⟨hH', H₃, hH₃, hrun₃, hlater₃, rfl⟩ := hrows H hH
        obtain ⟨-, H₂, hH₂, hlater₂, hcursor⟩ := hok H₃ hrun₃ hH₃
        obtain ⟨-, H₁, hH₁, -, hlater₁, hvault⟩ := hfound H₂ hH₂
        have hloaded := hload H (hfound H (hok H hrun hH').1).1
        have hsaw := Kept.saw [] _ H H' hrun ⟨hlater, by simp⟩ hloaded
        exact .inr ⟨headers, query, session, fromHeadHash, vault, H₁, H₂, ⟨hq, hhash, hnonneg, hsaw⟩,
          ⟨hsub₁ H₁ hH₁, hlater₁, hlater₂.trans (hlater₃.trans hlater)⟩, hvault.symm,
          .inr ⟨hcursor.symm, H₃, hlater₂, hlater₃.trans hlater, rfl⟩⟩

end PasswordVault
