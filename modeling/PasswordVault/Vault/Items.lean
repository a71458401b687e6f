import PasswordVault.Vault.Chain

/-!
# The revisions of an item, and tombstones

* `ItemMove`: what one commit does to the items: a write appends one revision to one item, and the
  item's row shows it.
* `ItemChain`: the revisions of an item in their order. They are a chain in the sense of the
  library, each based on the number of the one before it.
* `item_history`: what this means for the rows, and that nothing ever follows a delete.
-/

namespace PasswordVault

open Transactions HashChain

variable {P : Platform} {state : AppState} {q : Request} {H : Log} {b : Bool} {s s' : Db}

/-- A revision as a link of its item's chain: it is based on the number of the one before it. -/
def itemLinks : Links VaultItemRevision Int where
  seq := VaultItemRevision.revisionSeq
  prev := VaultItemRevision.baseRevisionSeq
  hash := VaultItemRevision.revisionSeq

/-! ## One commit -/

/-- A revision request names no `create`. -/
lemma ValidatedCreateRevision.operation_ne_create {request : CreateRevisionRequest}
    {v : ValidatedCreateRevision} (h : ValidatedCreateRevision.fromRequest request = .ok v) :
    v.operation ≠ .create := by
  unfold ValidatedCreateRevision.fromRequest at h
  obtain ⟨operation, hop, h⟩ := bind_ok.mp h
  have hv : v.operation = operation := by
    repeat
      obtain ⟨_, -, h⟩ := bind_ok.mp h
    rw [← Except.ok.inj h]
  rw [hv]
  unfold revisionOperation at hop
  split at hop
  · rw [← Except.ok.inj hop]
    simp
  · split at hop
    · rw [← Except.ok.inj hop]
      simp
    · cases hop

/-- The row of an item shows its last revision. -/
structure VaultItem.Shows (i : VaultItem) (r : VaultItemRevision) : Prop where
  item : i.id = r.itemId
  vault : i.vaultId = r.vaultId
  seq : i.latestRevisionSeq = r.revisionSeq
  revision : i.latestRevisionId = some r.id
  deleted : i.deletedAt.isSome = true ↔ r.operation = .delete

/-- The revision that a write may append to the item it found, if any. -/
def AppendsTo (r : VaultItemRevision) : Option VaultItem → Prop
  | none => r.operation = .create ∧ r.revisionSeq = 1 ∧ r.baseRevisionSeq = 0
  | some i => i.vaultId = r.vaultId ∧ r.operation ≠ .create ∧ i.deletedAt = none ∧
      r.revisionSeq = i64Succ i.latestRevisionSeq ∧ r.baseRevisionSeq = i.latestRevisionSeq

/-- What one commit does to the items. -/
inductive ItemMove (s s' : Db) : Prop
  | kept (hitems : s'.vaultItems = s.vaultItems)
      (hrevisions : s'.vaultItemRevisions = s.vaultItemRevisions)
  /-- A write appends a revision on the head of the vault. -/
  | appended {v : Vault} {i : VaultItem} {r : VaultItemRevision}
      (hvault : s.vaults.find? v.id = some v) (hof : r.vaultId = v.id)
      (hbase : r.baseHeadSeq = v.headSeq) (hcheck : r.check = true)
      (hfound : AppendsTo r (s.vaultItems.find? r.itemId)) (hshows : i.Shows r)
      (hnew : vaultItemRevisions.New [] r s)
      (hitems : ∀ x, x ∈ s'.vaultItems ↔ x = i ∨ x ∈ s.vaultItems ∧ x.id ≠ i.id)
      (hrevisions : s'.vaultItemRevisions = s.vaultItemRevisions.put r)

/-- **Every commit moves the items in one of these ways.** -/
theorem Effect.itemMove (h : Effect P state q H b s') : ItemMove H.current s' := by
  cases h with
  | loginRefused hq hc hopen hs =>
      rcases hs with rfl | ⟨event, rfl⟩
      · exact .kept rfl rfl
      · exact .kept rfl rfl
  | @itemCreated headers vaultId request v session vault event hq hv hload hstate hvault hid hhead
      hitem hrevision hcheck =>
      have hnone : H.current.vaultItems.find? v.itemId = none := Table.find?_of_new hitem
      refine .appended hvault hid.1.symm hhead.1.symm hcheck ?_
        (i := (newItem q.draws vaultId v.itemId).revised v.revisionId 1 false
          (nowUtcSecond (q.draws.clock 1))) ⟨rfl, rfl, rfl, rfl, ?_⟩ hrevision ?_ rfl
      · show AppendsTo _ (H.current.vaultItems.find? v.itemId)
        rw [hnone]
        exact ⟨rfl, rfl, rfl⟩
      · constructor
        · intro hsome
          cases hsome
        · intro hop
          cases hop
      · intro x
        change x ∈ (H.current.vaultItems.put (newItem q.draws vaultId v.itemId)).put _ ↔ _
        rw [Rows.mem_put, Rows.mem_put]
        constructor
        · rintro (rfl | ⟨rfl | ⟨hx, hne⟩, hne'⟩)
          · exact .inl rfl
          · exact absurd rfl hne'
          · exact .inr ⟨hx, hne⟩
        · rintro (rfl | ⟨hx, hne⟩)
          · exact .inl rfl
          · exact .inr ⟨.inr ⟨hx, hne⟩, hne⟩
  | @itemRevised headers vaultId itemId request v session vault item event hq hv hload hstate hvault
      hid hitem hitemId hhead hlatest hrevision hcheck =>
      refine .appended hvault hid.1.symm hhead.1.symm hcheck ?_
        (i := item.revised v.revisionId (i64Succ item.latestRevisionSeq) (v.operation == .delete)
          (nowUtcSecond (q.draws.clock 1))) ⟨hitemId.1, hitemId.2, rfl, rfl, ?_⟩ hrevision
        (fun x => Rows.mem_put) rfl
      · show AppendsTo _ (H.current.vaultItems.find? itemId)
        rw [← hitemId.1, hitem]
        refine ⟨hitemId.2, ?_, hlatest.2, rfl, hlatest.1⟩
        exact ValidatedCreateRevision.operation_ne_create hv
      · show (if (v.operation == .delete) = true then some _ else item.deletedAt).isSome = true ↔
          v.operation = .delete
        rw [hlatest.2]
        by_cases hop : v.operation = .delete
        · simp [hop]
        · simp [hop]
  | idle => exact .kept rfl rfl
  | _ =>
      simp only [Db.audited, Table.putAll, Table.remove, accounts, devices, authChallenges,
        totpFactors, recoveryCodes, sessions, accountKeysets, vaults, vaultKeyWraps]
      exact .kept rfl rfl

/-! ## All commits -/

/-- The revisions of an item, in their order. -/
structure ItemChain (s : Db) (i : VaultItem) (l : List VaultItemRevision) : Prop where
  chain : itemLinks.Chain 0 0 l
  rows : ∀ r, r ∈ l ↔ r ∈ s.vaultItemRevisions ∧ r.itemId = i.id
  vault : ∀ r ∈ l, r.vaultId = i.vaultId
  latest : ∃ l₁ r, l = l₁ ++ [r] ∧ i.Shows r ∧ ∀ x ∈ l₁, x.operation ≠ .delete
  operations : ∀ r ∈ l, r.operation = .create ↔ r.revisionSeq = 1
  heads : l.Pairwise fun r r' => r.headSeq < r'.headSeq

/-- The invariant of the committed database. -/
structure ItemsOk (s : Db) : Prop where
  chains : ∀ i ∈ s.vaultItems, ∃ l, ItemChain s i l
  owned : ∀ r ∈ s.vaultItemRevisions, ∃ i ∈ s.vaultItems, i.id = r.itemId

lemma ItemChain.latestSeq {i : VaultItem} {l : List VaultItemRevision} (h : ItemChain s i l) :
    i.latestRevisionSeq = l.length := by
  obtain ⟨l₁, r, rfl, hshows, -⟩ := h.latest
  have hseq : r.revisionSeq = 0 + (l₁.length : Int) + 1 := h.chain.at_split.1
  rw [hshows.seq, hseq, List.length_append, List.length_singleton]
  push_cast
  omega

lemma ItemChain.of_rows {i : VaultItem} {l : List VaultItemRevision} (h : ItemChain s i l)
    (hrows : ∀ r, r.itemId = i.id → (r ∈ s'.vaultItemRevisions ↔ r ∈ s.vaultItemRevisions)) :
    ItemChain s' i l := by
  refine ⟨h.chain, fun r => ?_, h.vault, h.latest, h.operations, h.heads⟩
  rw [h.rows]
  constructor
  · rintro ⟨hr, hof⟩
    exact ⟨(hrows r hof).mpr hr, hof⟩
  · rintro ⟨hr, hof⟩
    exact ⟨(hrows r hof).mp hr, hof⟩

/-- The successor of a revision number that did not wrap around. -/
lemma i64Succ_eq {n : Int} (hn : 0 ≤ n) (hlt : n < i64Succ n) : i64Succ n = n + 1 := by
  unfold i64Succ at hlt ⊢
  rw [Int.bmod_def] at hlt ⊢
  split at hlt
  · rename_i hsmall
    rw [if_pos hsmall]
    omega
  · omega

/-- What the check constraint says of the revision numbers. -/
lemma VaultItemRevision.check_shape {r : VaultItemRevision} (h : r.check = true)
    (hop : r.operation ≠ .create) : r.baseRevisionSeq < r.revisionSeq ∧ 0 < r.baseRevisionSeq := by
  simp only [VaultItemRevision.check, Bool.and_eq_true, Bool.or_eq_true, beq_iff_eq,
    decide_eq_true_eq] at h
  rcases h.2 with hcreate | hnext
  · exact absurd hcreate.1.1 hop
  · exact ⟨hnext.1.2, hnext.2⟩

/-- The numbers of a revision that a write may append go on from those of the item. -/
lemma AppendsTo.seq {r : VaultItemRevision} {i : VaultItem} (h : AppendsTo r (some i))
    (hcheck : r.check = true) : r.revisionSeq = i.latestRevisionSeq + 1 := by
  obtain ⟨-, hop, -, hseq, hbase⟩ := h
  obtain ⟨hlt, hpos⟩ := VaultItemRevision.check_shape hcheck hop
  rw [hseq, hbase] at hlt
  rw [hbase] at hpos
  rw [hseq, i64Succ_eq (Int.le_of_lt hpos) hlt]

/-- The first revision of an item is a chain. -/
lemma ItemChain.first {i : VaultItem} {r : VaultItemRevision} (hfound : AppendsTo r none)
    (hshows : i.Shows r) (hnone : ∀ x ∈ s.vaultItemRevisions, x.itemId ≠ r.itemId)
    (hrevisions : s'.vaultItemRevisions = s.vaultItemRevisions.put r) : ItemChain s' i [r] := by
  obtain ⟨hop, hseq, hbase⟩ := hfound
  refine ⟨⟨hseq, hbase, trivial⟩, fun x => ?_, ?_, ⟨[], r, rfl, hshows, ?_⟩, ?_,
    List.pairwise_singleton _ _⟩
  · rw [List.mem_singleton, hrevisions, Rows.mem_put, hshows.item]
    constructor
    · rintro rfl
      exact ⟨.inl rfl, rfl⟩
    · rintro ⟨rfl | ⟨hx, -⟩, hof⟩
      · rfl
      · exact absurd hof (hnone x hx)
  · intro x hx
    rw [List.mem_singleton.mp hx, hshows.vault]
  · intro x hx
    cases hx
  · intro x hx
    rw [List.mem_singleton.mp hx]
    exact iff_of_true hop hseq

/-- A further revision extends the chain. -/
lemma ItemChain.append {i i' : VaultItem} {l : List VaultItemRevision} (h : ItemChain s i l)
    {r : VaultItemRevision} (hid : i.id = r.itemId) (hfound : AppendsTo r (some i))
    (hshows : i'.Shows r) (hcheck : r.check = true)
    (hheads : ∀ x ∈ l, x.headSeq < r.headSeq) (hnew : vaultItemRevisions.New [] r s)
    (hrevisions : s'.vaultItemRevisions = s.vaultItemRevisions.put r) :
    ItemChain s' i' (l ++ [r]) := by
  have hseq := hfound.seq hcheck
  have hlen := h.latestSeq
  obtain ⟨hvault, hop, hopen, -, hbase⟩ := hfound
  obtain ⟨l₁, last, hl, hlast, hkept⟩ := h.latest
  refine ⟨?_, fun x => ?_, ?_, ⟨l, r, rfl, hshows, ?_⟩, ?_, ?_⟩
  · rw [Links.chain_snoc]
    refine ⟨h.chain, ?_, ?_⟩
    · show r.revisionSeq = 0 + (l.length : Int) + 1
      omega
    · -- the revision is based on the number of the last one
      rw [hl, Links.tip_snoc]
      exact hbase.trans hlast.seq
  · rw [List.mem_append, List.mem_singleton, h.rows, hrevisions, Rows.mem_put, hshows.item, hid]
    constructor
    · rintro (⟨hx, hof⟩ | rfl)
      · exact ⟨.inr ⟨hx, (hnew x hx List.not_mem_nil).1⟩, hof⟩
      · exact ⟨.inl rfl, rfl⟩
    · rintro ⟨rfl | ⟨hx, -⟩, hof⟩
      · exact .inr rfl
      · exact .inl ⟨hx, hof⟩
  · intro x hx
    rw [hshows.vault]
    rcases List.mem_append.mp hx with hx | hx
    · rw [h.vault x hx, hvault]
    · rw [List.mem_singleton.mp hx]
  · -- the item was not deleted, so its last revision is no delete either
    intro x hx
    rw [hl] at hx
    rcases List.mem_append.mp hx with hx | hx
    · exact hkept x hx
    · rw [List.mem_singleton.mp hx]
      intro hdelete
      have hdeleted := hlast.deleted.mpr hdelete
      rw [hopen] at hdeleted
      cases hdeleted
  · intro x hx
    rcases List.mem_append.mp hx with hx | hx
    · exact h.operations x hx
    · rw [List.mem_singleton.mp hx]
      have hpos := (VaultItemRevision.check_shape hcheck hop).2
      exact iff_of_false hop (by omega)
  · rw [List.pairwise_append]
    refine ⟨h.heads, List.pairwise_singleton _ _, fun x hx y hy => ?_⟩
    rw [List.mem_singleton.mp hy]
    exact hheads x hx

/-- A write is on the head of the vault, after all its revisions. -/
lemma ChainOk.below_head (h : ChainOk s) {v : Vault} {r : VaultItemRevision}
    (hvault : s.vaults.find? v.id = some v) (hof : r.vaultId = v.id)
    (hbase : r.baseHeadSeq = v.headSeq) (hcheck : r.check = true) :
    ∀ x ∈ s.vaultItemRevisions, x.vaultId = r.vaultId → x.headSeq < r.headSeq := by
  intro x hx hxv
  obtain ⟨l, hl⟩ := h.chains v (Rows.find?_eq_some.mp hvault).1
  have hmem : x ∈ l := (hl.rows x).mpr ⟨hx, hxv.trans hof⟩
  have hle : x.headSeq ≤ 0 + (l.length : Int) := (hl.chain.seq_bounds hmem).2
  have hhead := (VaultItemRevision.check_links hcheck).1
  have hseq := hl.headSeq
  omega

/-- **One commit keeps the chains of the items.** -/
theorem ItemsOk.step (h : ItemsOk s) (hchains : ChainOk s) (hmove : ItemMove s s') :
    ItemsOk s' := by
  cases hmove with
  | kept hitems hrevisions =>
      refine ⟨?_, ?_⟩
      · rw [hitems]
        intro i hi
        obtain ⟨l, hl⟩ := h.chains i hi
        exact ⟨l, hl.of_rows fun r _ => by rw [hrevisions]⟩
      · rw [hitems, hrevisions]
        exact h.owned
  | @appended v i r hvault hof hbase hcheck hfound hshows hnew hitems hrevisions =>
      have hbelow := hchains.below_head hvault hof hbase hcheck
      refine ⟨fun x hx => ?_, fun y hy => ?_⟩
      · rcases (hitems x).mp hx with rfl | ⟨hx, hne⟩
        · rcases hbefore : s.vaultItems.find? r.itemId with _ | i₀
          · rw [hbefore] at hfound
            refine ⟨[r], .first hfound hshows ?_ hrevisions⟩
            intro y hy hitem
            obtain ⟨w, hw, hid⟩ := h.owned y hy
            exact Rows.find?_eq_none.mp hbefore w hw (hid.trans hitem)
          · rw [hbefore] at hfound
            obtain ⟨hmem, hid⟩ := Rows.find?_eq_some.mp hbefore
            obtain ⟨l, hl⟩ := h.chains i₀ hmem
            refine ⟨l ++ [r], hl.append hid hfound hshows hcheck ?_ hnew hrevisions⟩
            intro y hy
            refine hbelow y ((hl.rows y).mp hy).1 ?_
            rw [hl.vault y hy, hfound.1]
        · obtain ⟨l, hl⟩ := h.chains x hx
          refine ⟨l, hl.of_rows fun y hy => ?_⟩
          rw [hrevisions, Rows.mem_put]
          constructor
          · rintro (rfl | ⟨hy', -⟩)
            · exact absurd (hy.symm.trans hshows.item.symm) hne
            · exact hy'
          · intro hy'
            exact .inr ⟨hy', (hnew y hy' List.not_mem_nil).1⟩
      · have hkept : ∀ w ∈ s.vaultItems, ∃ w' ∈ s'.vaultItems, w'.id = w.id := by
          intro w hw
          by_cases hid : w.id = i.id
          · exact ⟨i, (hitems i).mpr (.inl rfl), hid.symm⟩
          · exact ⟨w, (hitems w).mpr (.inr ⟨hw, hid⟩), rfl⟩
        rw [hrevisions] at hy
        rcases Rows.mem_put.mp hy with rfl | ⟨hy, -⟩
        · exact ⟨i, (hitems i).mpr (.inl rfl), hshows.item⟩
        · obtain ⟨w, hw, hid⟩ := h.owned y hy
          obtain ⟨w', hw', hid'⟩ := hkept w hw
          exact ⟨w', hw', hid'.trans hid⟩

lemma ServiceRun.itemsOk (h : ServiceRun P state H) : ItemsOk H.current := by
  have hstart : ServiceRun P state ⟨[], {}⟩ := .start
  refine Run.invariant (K := fun H => ItemsOk H.current ∧ ChainOk H.current) ?_ ?_ h |>.1
  · refine ⟨⟨fun i hi => ?_, fun r hr => ?_⟩, hstart.chainOk⟩
    · cases hi
    · cases hr
  · intro H q b s _ heff _ hok
    exact ⟨hok.1.step hok.2 (Effect.itemMove heff), hok.2.step (Effect.vaultMove heff)⟩

/-! ## What the rows say -/

/-- The history of an item in a database. -/
structure ItemHistory (s : Db) (i : VaultItem) : Prop where
  /-- There is at least one revision. -/
  nonempty : 1 ≤ i.latestRevisionSeq
  /-- The revisions have the numbers from 1 to the latest, each once. -/
  numbered : ∀ k, 1 ≤ k → k ≤ i.latestRevisionSeq →
    ∃! r, r ∈ s.vaultItemRevisions ∧ r.itemId = i.id ∧ r.revisionSeq = k
  /-- A revision has one of these numbers, is in the vault of the item and based on the number
  before its own; the first one is the create. -/
  shaped : ∀ r ∈ s.vaultItemRevisions, r.itemId = i.id →
    1 ≤ r.revisionSeq ∧ r.revisionSeq ≤ i.latestRevisionSeq ∧ r.vaultId = i.vaultId ∧
      r.baseRevisionSeq = r.revisionSeq - 1 ∧ (r.operation = .create ↔ r.revisionSeq = 1)
  /-- The heads increase along the revisions. -/
  heads : ∀ r ∈ s.vaultItemRevisions, ∀ r' ∈ s.vaultItemRevisions, r.itemId = i.id →
    r'.itemId = i.id → r.revisionSeq < r'.revisionSeq → r.headSeq < r'.headSeq
  /-- The row shows the last revision, and that it is a delete. -/
  latest : ∃ r ∈ s.vaultItemRevisions, r.itemId = i.id ∧ r.revisionSeq = i.latestRevisionSeq ∧
    i.latestRevisionId = some r.id ∧ (i.deletedAt.isSome = true ↔ r.operation = .delete)
  /-- No revision follows a delete. -/
  final : ∀ r ∈ s.vaultItemRevisions, r.itemId = i.id → r.operation = .delete →
    r.revisionSeq = i.latestRevisionSeq

lemma ItemChain.history {i : VaultItem} {l : List VaultItemRevision} (h : ItemChain s i l) :
    ItemHistory s i := by
  have hlen := h.latestSeq
  have hbounds : ∀ r ∈ l, 0 < r.revisionSeq ∧ r.revisionSeq ≤ 0 + (l.length : Int) :=
    fun r hr => h.chain.seq_bounds hr
  obtain ⟨l₁, last, hl, hlast, hkept⟩ := h.latest
  have hmem : last ∈ l := hl ▸ List.mem_append_right _ (List.mem_singleton.mpr rfl)
  have hlastSeq := hlast.seq
  refine ⟨?_, ?_, ?_, ?_, ?_, ?_⟩
  · have hpos := (hbounds last hmem).1
    omega
  · intro k hk hkn
    obtain ⟨l₁, r, l₂, hsplit, hseq, -⟩ := h.chain.exists_of_seq (k := k) (by omega) (by omega)
    have hr : r ∈ l := hsplit ▸ List.mem_append_right _ List.mem_cons_self
    obtain ⟨hrow, hof⟩ := (h.rows r).mp hr
    refine ⟨r, ⟨hrow, hof, hseq⟩, fun x hx => ?_⟩
    obtain ⟨hx, hxof, hxseq⟩ := hx
    exact h.chain.eq_of_seq ((h.rows x).mpr ⟨hx, hxof⟩) hr (hxseq.trans hseq.symm)
  · intro r hr hof
    have hrl : r ∈ l := (h.rows r).mpr ⟨hr, hof⟩
    obtain ⟨hlow, hhigh⟩ := hbounds r hrl
    refine ⟨by omega, by omega, h.vault r hrl, ?_, h.operations r hrl⟩
    -- the tip before a link is the number of the link before it
    obtain ⟨l₃, l₄, rfl⟩ := List.append_of_mem hrl
    obtain ⟨hseq, hbase⟩ := h.chain.at_split
    have hseq' : r.revisionSeq = 0 + (l₃.length : Int) + 1 := hseq
    have hbase' : r.baseRevisionSeq = itemLinks.tip 0 l₃ := hbase
    rcases List.eq_nil_or_concat l₃ with rfl | ⟨l₅, x, rfl⟩
    · rw [hbase', Links.tip_nil, hseq']
      rfl
    · rw [List.concat_eq_append] at hbase' hseq'
      rw [List.concat_eq_append, List.append_assoc] at h
      have hx : x.revisionSeq = 0 + (l₅.length : Int) + 1 := h.chain.at_split.1
      rw [hbase', Links.tip_snoc, hseq', List.length_append, List.length_singleton]
      show x.revisionSeq = _
      push_cast
      omega
  · intro r hr r' hr' hof hof' hlt
    obtain ⟨l₃, l₄, hsplit⟩ := List.append_of_mem ((h.rows r).mpr ⟨hr, hof⟩)
    have hr'l : r' ∈ l := (h.rows r').mpr ⟨hr', hof'⟩
    have hchain := h.chain
    have hheads := h.heads
    rw [hsplit] at hr'l hchain hheads
    rcases List.mem_append.mp hr'l with hr'l | hr'l
    · have hback : r'.revisionSeq < r.revisionSeq :=
        (List.pairwise_append.mp hchain.pairwise).2.2 r' hr'l r List.mem_cons_self
      omega
    · rcases List.mem_cons.mp hr'l with rfl | hr'l
      · omega
      · exact (List.pairwise_cons.mp (List.pairwise_append.mp hheads).2.1).1 r' hr'l
  · obtain ⟨hrow, hof⟩ := (h.rows last).mp hmem
    exact ⟨last, hrow, hof, hlast.seq.symm, hlast.revision, hlast.deleted⟩
  · intro r hr hof hdelete
    have hrl : r ∈ l := (h.rows r).mpr ⟨hr, hof⟩
    rw [hl] at hrl
    rcases List.mem_append.mp hrl with hrl | hrl
    · exact absurd hdelete (hkept r hrl)
    · rw [List.mem_singleton.mp hrl, hlast.seq]

/-- **The revisions of an item, and tombstones.** In every reachable state of the service every item
has its history, every revision is of an item, and after a delete was committed the item gets no
revision any more. -/
theorem item_history {sys : Service} (h : Reachable P state sys) :
    (∀ i ∈ sys.history.current.vaultItems, ItemHistory sys.history.current i) ∧
    (∀ r ∈ sys.history.current.vaultItemRevisions,
      ∃ i ∈ sys.history.current.vaultItems, i.id = r.itemId) ∧
    ∀ e ∈ sys.history.entries, ∀ r ∈ e.after.vaultItemRevisions, r.operation = .delete →
      ∀ r' ∈ sys.history.current.vaultItemRevisions, r'.itemId = r.itemId →
        r' ∈ e.after.vaultItemRevisions := by
  have hhistory : ∀ {H : Log}, ServiceRun P state H →
      ∀ i ∈ H.current.vaultItems, ItemHistory H.current i := by
    intro H hrun i hi
    obtain ⟨l, hl⟩ := hrun.itemsOk.chains i hi
    exact hl.history
  refine ⟨hhistory h.run, (ServiceRun.itemsOk h.run).owned, ?_⟩
  intro e he r hr hdelete r' hr' hof
  obtain ⟨l₁, l₂, hsplit⟩ := List.append_of_mem he
  obtain ⟨H₁, -, -, -, -, ⟨hpush, hlater⟩, -⟩ := h.run.split hsplit
  -- the delete is the last revision of the item, then and now
  have hkept := Since.revisions hpush hlater
  obtain ⟨i, hi, hid⟩ := (ServiceRun.itemsOk h.run).owned r (hkept r hr)
  obtain ⟨i₁, hi₁, hid₁⟩ := (ServiceRun.itemsOk hpush).owned r hr
  have hnow := hhistory h.run i hi
  have hthen := hhistory hpush i₁ hi₁
  have hlast := hnow.final r (hkept r hr) hid.symm hdelete
  have hlast₁ := hthen.final r hr hid₁.symm hdelete
  obtain ⟨hlow, hhigh, -⟩ := hnow.shaped r' hr' (hof.trans hid.symm)
  -- a revision with the number of `r'` was there
  obtain ⟨x, ⟨hx, hxof, hxseq⟩, -⟩ := hthen.numbered r'.revisionSeq hlow (by omega)
  obtain ⟨y, -, huniq⟩ := hnow.numbered r'.revisionSeq hlow hhigh
  have hxy := huniq x ⟨hkept x hx, hxof.trans (hid₁.trans hid.symm), hxseq⟩
  have hr'y := huniq r' ⟨hr', hof.trans hid.symm, rfl⟩
  rw [hr'y, ← hxy]
  exact hx

/-- The history of the first item of a vault. -/
theorem item_history_firstItem :
    (∀ i ∈ (serveAll firstItem).history.current.vaultItems,
      ItemHistory (serveAll firstItem).history.current i) ∧
    (∀ r ∈ (serveAll firstItem).history.current.vaultItemRevisions,
      ∃ i ∈ (serveAll firstItem).history.current.vaultItems, i.id = r.itemId) ∧
    ∀ e ∈ (serveAll firstItem).history.entries, ∀ r ∈ e.after.vaultItemRevisions,
      r.operation = .delete → ∀ r' ∈ (serveAll firstItem).history.current.vaultItemRevisions,
        r'.itemId = r.itemId → r' ∈ e.after.vaultItemRevisions :=
  item_history firstItem_reachable

end PasswordVault
