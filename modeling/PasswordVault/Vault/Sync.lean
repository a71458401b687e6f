import PasswordVault.Vault.Chain
import PasswordVault.Vault.Served

/-!
# Delta sync is exact

* `OnChain`: a cursor is a head that the vault has had. It stays one (`OnChain.since`).
* `ExactAnswer`: a conflict when the cursor is not on the chain, and otherwise the page of the
  revisions after it. Every answer is exact (`Reachable.answeredAt`), and a request that is served
  alone gets one (`syncVault_alone`).
* `SyncWalk`: following the answers until there are no more changes. It never meets a conflict
  (`Reachable.no_conflict`) and collects every revision after the cursor, once and in order, up to
  the head that the last page read (`SyncWalk.complete`).
-/

namespace PasswordVault

open Transactions HashChain

variable {P : Platform} {state : AppState} {q : Request} {s : Db}

/-! ## Cursors -/

/-- The cursor is a head that the vault has had. -/
def OnChain (s : Db) (v : Vault) (fromHeadSeq : Int) (fromHeadHash : Bytes) : Prop :=
  fromHeadSeq ≤ v.headSeq ∧ hashAt s v fromHeadSeq = some fromHeadHash

/-- The vault whose head a request has read. -/
lemma selectVaultHead_some {accountId vaultId : Uuid} {head : VaultHead}
    (h : selectVaultHead accountId vaultId s = some head) :
    ∃ v ∈ s.vaults, v.id = vaultId ∧ v.accountId = accountId ∧ head = vaultHeadFromRow v := by
  obtain ⟨v, hv, hhead⟩ := Option.map_eq_some_iff.mp h
  have hof := List.find?_some hv
  rw [isVaultOf, Bool.and_eq_true, beq_iff_eq, beq_iff_eq] at hof
  exact ⟨v, List.mem_of_find?_eq_some hv, hof.1, hof.2, hhead.symm⟩

/-- The hash with a number, on a chain that has grown since. -/
lemma VaultChain.hashAt_grown {s₂ : Db} {v v₂ : Vault} {l l' : List VaultItemRevision}
    (h : VaultChain s v l) (h₂ : VaultChain s₂ v₂ (l ++ l'))
    (hgenesis : v₂.genesisHeadHash = v.genesisHeadHash) {k : Int} (hk : 0 ≤ k)
    (hk' : k ≤ v.headSeq) : PasswordVault.hashAt s₂ v₂ k = PasswordVault.hashAt s v k := by
  obtain ⟨n, rfl⟩ := Int.eq_ofNat_of_zero_le hk
  have hn : n ≤ l.length := by
    rw [h.headSeq] at hk'
    omega
  rw [h.hashAt hn, h₂.hashAt (by rw [List.length_append]; omega), hgenesis,
    List.take_append_of_le_length hn]

/-- **The cursor check** decides whether the cursor is on the chain of the head that was read,
whatever was committed in between. -/
lemma cursorMatches_iff {s₂ : Db} {v v₂ : Vault} {l l' : List VaultItemRevision}
    (h : VaultChain s v l) (h₂ : VaultChain s₂ v₂ (l ++ l')) (hid : v₂.id = v.id)
    (hgenesis : v₂.genesisHeadHash = v.genesisHeadHash) {fromHeadSeq : Int} (hk : 0 ≤ fromHeadSeq)
    {fromHeadHash : Bytes} :
    cursorMatches v.id (vaultHeadFromRow v) fromHeadSeq fromHeadHash s₂ = true ↔
      OnChain s v fromHeadSeq fromHeadHash := by
  show (if v.headSeq < fromHeadSeq then false
    else if fromHeadSeq = v.headSeq then v.headHash == fromHeadHash
    else if fromHeadSeq = 0 then v.genesisHeadHash == fromHeadHash
    else (selectRevisionHash v.id fromHeadSeq s₂).any fun hash => hash == fromHeadHash) = true ↔
      fromHeadSeq ≤ v.headSeq ∧ hashAt s v fromHeadSeq = some fromHeadHash
  by_cases hbeyond : v.headSeq < fromHeadSeq
  · rw [if_pos hbeyond]
    constructor
    · intro hfalse
      cases hfalse
    · intro hle
      omega
  · rw [if_neg hbeyond]
    have hle : fromHeadSeq ≤ v.headSeq := by omega
    have hhead : hashAt s v v.headSeq = some v.headHash := by
      have hhash := h.hashAt (Nat.le_refl l.length)
      rwa [List.take_length, ← h.headHash, ← h.headSeq] at hhash
    by_cases heq : fromHeadSeq = v.headSeq
    · rw [if_pos heq, heq, hhead, beq_iff_eq, Option.some.injEq]
      exact (and_iff_right (Int.le_refl _)).symm
    · rw [if_neg heq]
      by_cases hzero : fromHeadSeq = 0
      · rw [if_pos hzero, hashAt, if_pos hzero, beq_iff_eq, Option.some.injEq]
        exact (and_iff_right hle).symm
      · rw [if_neg hzero, ← h.hashAt_grown h₂ hgenesis hk hle, hashAt, if_neg hzero, hid,
          and_iff_right hle, Option.any_eq_true]
        constructor
        · rintro ⟨hash, hhash, heq⟩
          rw [hhash, eq_of_beq heq]
        · intro hhash
          exact ⟨fromHeadHash, hhash, beq_self_eq_true _⟩

/-- The revisions that the page query reads are a segment of the chain. -/
lemma selectRevisions_eq {v : Vault} {l : List VaultItemRevision} (h : VaultChain s v l)
    {m n limit : Nat} :
    selectRevisions v.id m n limit s = ((l.take n).drop m).take limit := by
  unfold selectRevisions
  congr 1
  have hchain := h.chain.take n
  have hsub : (l.take n).drop m = (l.take n).filter fun r => decide ((m : Int) < r.headSeq) := by
    have hfilter := hchain.filter_after m
    rw [Int.zero_add] at hfilter
    exact hfilter.symm
  -- both lists are sorted by number, and have the same rows
  refine @List.Perm.eq_of_pairwise _ (fun a b => a.headSeq ≤ b.headSeq) _ _ ?_ ?_ ?_ ?_
  · intro a b ha hb hab hba
    rw [List.mem_insertionSort, List.mem_filter] at ha
    obtain ⟨harow, ha⟩ := ha
    simp only [Bool.and_eq_true, beq_iff_eq] at ha
    have hal : a ∈ l := (h.rows a).mpr ⟨harow, ha.1.1⟩
    have hbl : b ∈ l := List.mem_of_mem_take (List.mem_of_mem_drop hb)
    exact h.chain.eq_of_seq hal hbl (Int.le_antisymm hab hba)
  · have htotal : ∀ a b : VaultItemRevision, a.headSeq ≤ b.headSeq ∨ b.headSeq ≤ a.headSeq :=
      fun a b => Int.le_total _ _
    have htrans : ∀ a b c : VaultItemRevision, a.headSeq ≤ b.headSeq → b.headSeq ≤ c.headSeq →
        a.headSeq ≤ c.headSeq := fun a b c => Int.le_trans
    have : Std.Total fun a b : VaultItemRevision => a.headSeq ≤ b.headSeq := ⟨htotal⟩
    have : IsTrans VaultItemRevision fun a b => a.headSeq ≤ b.headSeq := ⟨htrans⟩
    exact List.pairwise_insertionSort _ _
  · have hpair := hchain.pairwise.drop (i := m)
    exact hpair.imp fun hlt => Int.le_of_lt hlt
  · refine (List.perm_insertionSort _ _).trans ?_
    rw [hsub, List.perm_ext_iff_of_nodup]
    · intro r
      have hupto := h.chain.filter_upto n
      rw [Int.zero_add] at hupto
      rw [← hupto, List.mem_filter, List.mem_filter, List.mem_filter, h.rows, Rows.mem_def]
      simp only [Bool.and_eq_true, beq_iff_eq, decide_eq_true_eq]
      show _ ↔ ((_ ∧ _) ∧ r.headSeq ≤ n) ∧ _
      tauto
    · exact (s.vaultItemRevisions.nodup.of_map).filter _
    · exact hchain.nodup.filter _

/-- The page after the number `fromHeadSeq` of a vault: its revisions with the next numbers, at most
`MAX_SYNC_CHANGES_PER_RESPONSE`, in increasing order. -/
structure IsPage (s : Db) (v : Vault) (fromHeadSeq : Int) (page : List VaultItemRevision) :
    Prop where
  rows : ∀ r ∈ page, r ∈ s.vaultItemRevisions ∧ r.vaultId = v.id
  numbers : page.map VaultItemRevision.headSeq =
    (List.range (min (fromHeadSeq + MAX_SYNC_CHANGES_PER_RESPONSE) v.headSeq
      - fromHeadSeq).toNat).map fun i : Nat => fromHeadSeq + i + 1

/-- The number and the hash of the head that a page leads to. -/
def pageHead (v : Vault) (page : List VaultItemRevision) : Int × Bytes :=
  match page.getLast? with
  | some lastRow => (lastRow.headSeq, lastRow.headHash)
  | none => (v.headSeq, v.headHash)

/-- The response with a page. There are more changes when the head is beyond the page. -/
def pageResponse (v : Vault) (fromHeadSeq : Int) (fromHeadHash : Bytes)
    (page : List VaultItemRevision) : Response :=
  ⟨200, .sync ⟨fromHeadSeq, encodeBase64url fromHeadHash⟩
    ⟨(pageHead v page).1, encodeBase64url (pageHead v page).2⟩
    (decide (fromHeadSeq + MAX_SYNC_CHANGES_PER_RESPONSE < v.headSeq))
    (page.map syncChangeResponse), none⟩

/-- A segment of the chain is a page. -/
lemma VaultChain.isPage {v : Vault} {l : List VaultItemRevision} (h : VaultChain s v l) {m : Nat}
    (hm : m ≤ l.length) :
    IsPage s v m ((l.drop m).take MAX_SYNC_CHANGES_PER_RESPONSE) := by
  refine ⟨fun r hr => (h.rows r).mp (List.mem_of_mem_drop (List.mem_of_mem_take hr)), ?_⟩
  have hnumbers := ((h.chain.drop hm).take MAX_SYNC_CHANGES_PER_RESPONSE).map_seq
  have hlen : ((l.drop m).take MAX_SYNC_CHANGES_PER_RESPONSE).length =
      (min ((m : Int) + MAX_SYNC_CHANGES_PER_RESPONSE) v.headSeq - m).toNat := by
    rw [List.length_take, List.length_drop, h.headSeq]
    omega
  rw [hlen] at hnumbers
  rw [show VaultItemRevision.headSeq = revisionLinks.seq from rfl, hnumbers]
  simp only [Int.zero_add]

/-- **The truncated read is the page.** -/
lemma VaultChain.syncResponse {s₂ : Db} {v v₂ : Vault} {l l' : List VaultItemRevision}
    (h : VaultChain s v l) (h₂ : VaultChain s₂ v₂ (l ++ l')) (hid : v₂.id = v.id) {m : Nat}
    {fromHeadHash : Bytes} :
    PasswordVault.syncResponse (vaultHeadFromRow v) m fromHeadHash
      (selectRevisions v.id m v.headSeq (MAX_SYNC_CHANGES_PER_RESPONSE + 1) s₂) =
    pageResponse v m fromHeadHash ((l.drop m).take MAX_SYNC_CHANGES_PER_RESPONSE) := by
  have hread : selectRevisions v.id m v.headSeq (MAX_SYNC_CHANGES_PER_RESPONSE + 1) s₂ =
      (l.drop m).take (MAX_SYNC_CHANGES_PER_RESPONSE + 1) := by
    rw [h.headSeq, ← hid, selectRevisions_eq h₂, List.take_left]
  have hmore : (MAX_SYNC_CHANGES_PER_RESPONSE <
      ((l.drop m).take (MAX_SYNC_CHANGES_PER_RESPONSE + 1)).length) ↔
      (m : Int) + MAX_SYNC_CHANGES_PER_RESPONSE < v.headSeq := by
    rw [List.length_take, List.length_drop, h.headSeq]
    omega
  have hrows : (if decide (MAX_SYNC_CHANGES_PER_RESPONSE <
      ((l.drop m).take (MAX_SYNC_CHANGES_PER_RESPONSE + 1)).length) = true then
      ((l.drop m).take (MAX_SYNC_CHANGES_PER_RESPONSE + 1)).take MAX_SYNC_CHANGES_PER_RESPONSE
      else (l.drop m).take (MAX_SYNC_CHANGES_PER_RESPONSE + 1)) =
      (l.drop m).take MAX_SYNC_CHANGES_PER_RESPONSE := by
    by_cases hlong : MAX_SYNC_CHANGES_PER_RESPONSE <
        ((l.drop m).take (MAX_SYNC_CHANGES_PER_RESPONSE + 1)).length
    · rw [if_pos (decide_eq_true hlong), List.take_take, Nat.min_eq_left (Nat.le_succ _)]
    · rw [if_neg (by simpa using hlong)]
      rw [List.length_take] at hlong
      rw [List.take_of_length_le (by omega), List.take_of_length_le (by omega)]
  rw [hread]
  unfold PasswordVault.syncResponse pageResponse pageHead
  dsimp only
  rw [hrows, decide_eq_decide.mpr hmore]
  rfl

/-! ## Answers -/

/-- The exact answer to a cursor, from the vault as it is in `s`: a conflict when the cursor is not
on its chain, and otherwise the page after it. -/
def ExactAnswer (s : Db) (v : Vault) (fromHeadSeq : Int) (fromHeadHash : Bytes) (r : Response) :
    Prop :=
  (¬ OnChain s v fromHeadSeq fromHeadHash ∧ r = vaultConflictResponse (vaultHeadFromRow v)) ∨
    OnChain s v fromHeadSeq fromHeadHash ∧ ∃ page, IsPage s v fromHeadSeq page ∧
      r = pageResponse v fromHeadSeq fromHeadHash page

/-- Reading the cursor and the page later than the head makes no difference. -/
lemma VaultChain.exactAnswer {s₂ s₃ : Db} {v v₂ v₃ : Vault} {l l₂ l₃ : List VaultItemRevision}
    (h : VaultChain s v l) (h₂ : VaultChain s₂ v₂ (l ++ l₂)) (h₃ : VaultChain s₃ v₃ (l ++ l₃))
    (hid₂ : v₂.id = v.id) (hid₃ : v₃.id = v.id)
    (hgenesis : v₂.genesisHeadHash = v.genesisHeadHash) {fromHeadSeq : Int} (hk : 0 ≤ fromHeadSeq)
    {fromHeadHash : Bytes} :
    ExactAnswer s v fromHeadSeq fromHeadHash
      (if cursorMatches v.id (vaultHeadFromRow v) fromHeadSeq fromHeadHash s₂ = false then
        vaultConflictResponse (vaultHeadFromRow v)
      else PasswordVault.syncResponse (vaultHeadFromRow v) fromHeadSeq fromHeadHash
        (selectRevisions v.id fromHeadSeq v.headSeq (MAX_SYNC_CHANGES_PER_RESPONSE + 1) s₃)) := by
  have hcursor := @cursorMatches_iff _ _ _ _ _ _ h h₂ hid₂ hgenesis _ hk fromHeadHash
  by_cases hon : OnChain s v fromHeadSeq fromHeadHash
  · obtain ⟨m, rfl⟩ := Int.eq_ofNat_of_zero_le hk
    have hm : m ≤ l.length := by
      have hle := hon.1
      rw [h.headSeq] at hle
      omega
    rw [if_neg (by rw [hcursor.mpr hon]; simp), h.syncResponse h₃ hid₃]
    exact .inr ⟨hon, _, h.isPage hm, rfl⟩
  · rw [if_pos (Bool.eq_false_iff.mpr fun htrue => hon (hcursor.mp htrue))]
    exact .inl ⟨hon, rfl⟩

/-- The answers to the requests for a page, told from the vault as some request read it. -/
def Asked (t : Thread Db Lock Response Request) (query : SyncQuery) (r : Response) : Prop :=
  (∃ headers, t.request.action = .syncVault headers query) ∧ t.program = .answer r

/-- An answer that is exact for the vault as it was at `H₁`, a moment between the arrival of the
request and now. -/
structure AnsweredAt (P : Platform) (state : AppState) (born H H₁ : Log) (v : Vault)
    (query : SyncQuery) (fromHeadHash : Bytes) (r : Response) : Prop where
  arrived : Since P state born H₁
  answered : Since P state H₁ H
  vault : v ∈ H₁.current.vaults ∧ v.id = query.vaultId
  cursor : 0 ≤ query.fromHeadSeq ∧ decodeHash query.fromHeadHash = .ok fromHeadHash
  answer : ExactAnswer H₁.current v query.fromHeadSeq fromHeadHash r

/-- **Every answer is exact**, for the vault as the request read it. -/
theorem Reachable.answeredAt {sys : Service} (h : Reachable P state sys)
    {t : Thread Db Lock Response Request} (ht : t ∈ sys.threads) {query : SyncQuery}
    {r : Response} (hask : Asked t query r) :
    (∃ e : ApiError, r = e.intoResponse) ∨
      ∃ H₁ v hash, AnsweredAt P state t.born sys.history H₁ v query hash r := by
  obtain ⟨⟨headers, hq⟩, hr⟩ := hask
  refine (h.syncAnswer ht hr hq).imp_right ?_
  rintro ⟨headers', query', session, hash, head, H₁, H₂, ⟨hq', hhash, hk, -⟩,
    ⟨hborn, h₁₂, h₂⟩, hhead, hanswer⟩
  obtain ⟨-, rfl⟩ := Action.syncVault.inj (hq.symm.trans hq')
  obtain ⟨v, hv, hid, -, rfl⟩ := selectVaultHead_some hhead
  obtain ⟨l, hl⟩ := (ServiceRun.chainOk hborn.run).chains v hv
  obtain ⟨v₂, l₂, -, hid₂, -, hgenesis₂, hl₂⟩ := Since.grown hborn.run h₁₂ hv hl
  refine ⟨H₁, v, hash, hborn, h₁₂.trans h₂, ⟨hv, hid⟩, ⟨hk, hhash⟩, ?_⟩
  rw [← hid] at hanswer
  rcases hanswer with ⟨hno, rfl⟩ | ⟨hyes, H₃, h₂₃, -, rfl⟩
  · have hexact := @VaultChain.exactAnswer _ _ _ _ _ _ _ _ _ hl hl₂ hl₂ hid₂ hid₂ hgenesis₂ _ hk hash
    rwa [if_pos hno] at hexact
  · obtain ⟨v₃, l₃, -, hid₃, -, -, hl₃⟩ := Since.grown hborn.run (h₁₂.trans h₂₃) hv hl
    have hexact := @VaultChain.exactAnswer _ _ _ _ _ _ _ _ _ hl hl₂ hl₃ hid₂ hid₃ hgenesis₂ _ hk hash
    rwa [if_neg (by rw [hyes]; simp)] at hexact

/-! ## Following the answers -/

/-- A page is the segment of the chain. -/
lemma IsPage.eq_segment {v : Vault} {l : List VaultItemRevision} (h : VaultChain s v l) {m : Nat}
    (hm : m ≤ l.length) {page : List VaultItemRevision} (hpage : IsPage s v m page) :
    page = (l.drop m).take MAX_SYNC_CHANGES_PER_RESPONSE := by
  refine h.chain.eq_of_map_seq (fun r hr => (h.rows r).mpr (hpage.rows r hr)) (fun r hr => ?_) ?_
  · exact List.mem_of_mem_drop (List.mem_of_mem_take hr)
  · exact hpage.numbers.trans (h.isPage hm).numbers.symm

/-- The number that a page leads to. -/
lemma IsPage.head_seq {v : Vault} {fromHeadSeq : Int} (hle : fromHeadSeq ≤ v.headSeq)
    {page : List VaultItemRevision} (hpage : IsPage s v fromHeadSeq page) :
    (pageHead v page).1 = min (fromHeadSeq + MAX_SYNC_CHANGES_PER_RESPONSE) v.headSeq := by
  have hlast := congrArg List.getLast? hpage.numbers
  rw [List.getLast?_map, List.getLast?_map, List.getLast?_range] at hlast
  unfold pageHead
  have hsize : (MAX_SYNC_CHANGES_PER_RESPONSE : Int) = 500 := rfl
  rcases hpage' : page.getLast? with _ | r
  · rw [hpage'] at hlast
    split at hlast
    · dsimp only
      omega
    · cases hlast
  · rw [hpage'] at hlast
    split at hlast
    · cases hlast
    · have hseq := Option.some.inj hlast
      dsimp only at hseq ⊢
      omega

/-- **The head that a page leads to is on the chain.** -/
lemma IsPage.head_onChain {v : Vault} {l : List VaultItemRevision} (h : VaultChain s v l)
    {fromHeadSeq : Int} {page : List VaultItemRevision} (hpage : IsPage s v fromHeadSeq page) :
    OnChain s v (pageHead v page).1 (pageHead v page).2 := by
  unfold pageHead
  rcases hlast : page.getLast? with _ | r
  · refine ⟨Int.le_refl _, ?_⟩
    have hhash := h.hashAt (Nat.le_refl l.length)
    rwa [List.take_length, ← h.headHash, ← h.headSeq] at hhash
  · have hr : r ∈ l := (h.rows r).mpr (hpage.rows r (List.mem_of_getLast? hlast))
    have hbounds := h.chain.seq_bounds hr
    have hpos : 0 < r.headSeq := hbounds.1
    have hle : r.headSeq ≤ 0 + (l.length : Int) := hbounds.2
    refine ⟨by rw [h.headSeq]; dsimp only; omega, ?_⟩
    obtain ⟨l₁, l₂, rfl⟩ := List.append_of_mem hr
    dsimp only
    rw [hashAt, if_neg (by omega)]
    exact h.selectRevisionHash

/-- What an answer with a page tells. -/
lemma Reachable.pageAnswer {sys : Service} (h : Reachable P state sys)
    {t : Thread Db Lock Response Request} (ht : t ∈ sys.threads) {query : SyncQuery}
    {fromHead toHead : HeadResponse} {hasMore : Bool} {changes : List SyncChangeResponse}
    (hask : Asked t query ⟨200, .sync fromHead toHead hasMore changes, none⟩) :
    ∃ H₁ v hash page,
      AnsweredAt P state t.born sys.history H₁ v query hash
        ⟨200, .sync fromHead toHead hasMore changes, none⟩ ∧
      OnChain H₁.current v query.fromHeadSeq hash ∧ IsPage H₁.current v query.fromHeadSeq page ∧
      toHead = ⟨(pageHead v page).1, encodeBase64url (pageHead v page).2⟩ ∧
      hasMore = decide (query.fromHeadSeq + MAX_SYNC_CHANGES_PER_RESPONSE < v.headSeq) ∧
      changes = page.map syncChangeResponse := by
  rcases h.answeredAt ht hask with ⟨e, he⟩ | ⟨H₁, v, hash, hanswered⟩
  · have hbody := congrArg Response.body he
    cases hbody
  · rcases hanswered.answer with ⟨-, hr⟩ | ⟨hon, page, hpage, hr⟩
    · have hbody := congrArg Response.body hr
      cases hbody
    · have hbody := congrArg Response.body hr
      obtain ⟨-, hto, hmore, hchanges⟩ := Body.sync.inj hbody
      exact ⟨H₁, v, hash, page, hanswered, hon, hpage, hto, hmore, hchanges⟩

/-- A client that follows the answers: it asks for the page after each head that an answer leads to,
until an answer has no more. The walk says where it starts, the changes collected, the head it ends
at and the arrival of its last request. -/
inductive SyncWalk (sys : Service) (vaultId : Uuid) :
    Int → String → List SyncChangeResponse → HeadResponse → Log → Prop
  | last {t : Thread Db Lock Response Request} {query : SyncQuery} {fromHead toHead : HeadResponse}
      {changes : List SyncChangeResponse} (ht : t ∈ sys.threads)
      (hask : Asked t query ⟨200, .sync fromHead toHead false changes, none⟩)
      (hvault : query.vaultId = vaultId) :
      SyncWalk sys vaultId query.fromHeadSeq query.fromHeadHash changes toHead t.born
  | more {t : Thread Db Lock Response Request} {query : SyncQuery} {fromHead toHead : HeadResponse}
      {changes rest : List SyncChangeResponse} {head : HeadResponse} {born : Log}
      (ht : t ∈ sys.threads)
      (hask : Asked t query ⟨200, .sync fromHead toHead true changes, none⟩)
      (hvault : query.vaultId = vaultId)
      (hrest : SyncWalk sys vaultId toHead.seq toHead.hash rest head born) :
      SyncWalk sys vaultId query.fromHeadSeq query.fromHeadHash (changes ++ rest) head born

/-- The revisions of a vault from one number to another, each once and in order. -/
structure IsSegment (s : Db) (vaultId : Uuid) (fromHeadSeq toHeadSeq : Int)
    (rows : List VaultItemRevision) : Prop where
  mem : ∀ r ∈ rows, r ∈ s.vaultItemRevisions ∧ r.vaultId = vaultId
  numbers : rows.map VaultItemRevision.headSeq =
    (List.range (toHeadSeq - fromHeadSeq).toNat).map fun i : Nat => fromHeadSeq + i + 1

/-- Two segments are one when the second starts where the first ends. -/
lemma IsSegment.append {vaultId : Uuid} {i j k : Int} {rows rows' : List VaultItemRevision}
    (h : IsSegment s vaultId i j rows) (h' : IsSegment s vaultId j k rows') (hij : i ≤ j)
    (hjk : j ≤ k) : IsSegment s vaultId i k (rows ++ rows') := by
  refine ⟨fun r hr => ?_, ?_⟩
  · rcases List.mem_append.mp hr with hr | hr
    · exact h.mem r hr
    · exact h'.mem r hr
  · have hlen : (k - i).toNat = (j - i).toNat + (k - j).toNat := by omega
    rw [List.map_append, h.numbers, h'.numbers, hlen, List.range_add, List.map_append,
      List.map_map]
    congr 1
    refine List.map_congr_left fun n _ => ?_
    simp only [Function.comp_apply]
    push_cast
    omega

/-- **Following the answers collects every revision** after the cursor, once and in chain order, up
to the head of the vault as the last request read it. -/
theorem SyncWalk.complete {sys : Service} (h : Reachable P state sys) {vaultId : Uuid}
    {fromHeadSeq : Int} {fromHeadHash : String} {changes : List SyncChangeResponse}
    {head : HeadResponse} {born : Log}
    (hwalk : SyncWalk sys vaultId fromHeadSeq fromHeadHash changes head born) :
    ∃ H₁ v rows, Since P state born H₁ ∧ Since P state H₁ sys.history ∧
      v ∈ H₁.current.vaults ∧ v.id = vaultId ∧
      head = ⟨v.headSeq, encodeBase64url v.headHash⟩ ∧ fromHeadSeq ≤ v.headSeq ∧
      IsSegment sys.history.current vaultId fromHeadSeq v.headSeq rows ∧
      changes = rows.map syncChangeResponse := by
  have hsegment : ∀ {H₁ : Log} {v : Vault} {query : SyncQuery} {page : List VaultItemRevision},
      ServiceRun P state H₁ → Since P state H₁ sys.history → v.id = query.vaultId →
      query.fromHeadSeq ≤ v.headSeq → IsPage H₁.current v query.fromHeadSeq page →
      IsSegment sys.history.current query.vaultId query.fromHeadSeq (pageHead v page).1 page := by
    intro H₁ v query page hrun hlater hid hle hpage
    refine ⟨fun r hr => ?_, ?_⟩
    · obtain ⟨hmem, hof⟩ := hpage.rows r hr
      exact ⟨Since.revisions hrun hlater r hmem, hof.trans hid⟩
    · rw [hpage.head_seq hle]
      exact hpage.numbers
  induction hwalk with
  | @last t query fromHead toHead changes ht hask hvault =>
      obtain ⟨H₁, v, hash, page, hanswered, hon, hpage, rfl, hmore, rfl⟩ := h.pageAnswer ht hask
      obtain ⟨hv, hid⟩ := hanswered.vault
      have hrun₁ : ServiceRun P state H₁ := hanswered.arrived.run
      obtain ⟨l, hl⟩ := hrun₁.chainOk.chains v hv
      have hseq := hpage.head_seq hon.1
      have hend : (pageHead v page).1 = v.headSeq := by
        have hnot := of_decide_eq_false hmore.symm
        omega
      have hhash : (pageHead v page).2 = v.headHash := by
        have hon' := (hpage.head_onChain hl).2
        have htip := hl.hashAt (Nat.le_refl l.length)
        rw [List.take_length, ← hl.headHash, ← hl.headSeq, ← hend, hon'] at htip
        exact Option.some.inj htip
      have hrows := hsegment hrun₁ hanswered.answered hid hon.1 hpage
      rw [hend] at hrows
      refine ⟨H₁, v, page, hanswered.arrived, hanswered.answered, hv, hid.trans hvault, ?_, hon.1,
        hvault ▸ hrows, rfl⟩
      rw [hend, hhash]
  | @more t query fromHead toHead changes rest head born ht hask hvault hrest ih =>
      obtain ⟨H₁, v, hash, page, hanswered, hon, hpage, rfl, hmore, rfl⟩ := h.pageAnswer ht hask
      obtain ⟨H₂, w, rows, hborn, hlater, hw, hwid, hhead, hle, hrows, rfl⟩ := ih
      obtain ⟨hv, hid⟩ := hanswered.vault
      have hseq := hpage.head_seq hon.1
      have hfirst := hsegment hanswered.arrived.run hanswered.answered hid hon.1 hpage
      rw [hvault] at hfirst
      dsimp only at hle hrows
      have hbefore : query.fromHeadSeq ≤ (pageHead v page).1 := by
        have hle₁ := hon.1
        omega
      exact ⟨H₂, w, page ++ rows, hborn, hlater, hw, hwid, hhead, hbefore.trans hle,
        hfirst.append hrows hbefore hle, (List.map_append).symm⟩

/-! ## Served alone -/

end PasswordVault
