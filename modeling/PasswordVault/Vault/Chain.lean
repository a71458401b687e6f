import PasswordVault.Library.HashChain
import PasswordVault.Server.Soundness
import PasswordVault.Server.Standard

/-!
# The revisions of a vault are a hash chain

* `VaultMove`: what one commit does to the vaults and their revisions, in the view of the chain: a
  registration creates a vault, a write appends a revision to the head that it found.
* `ChainOk`: in every committed database, the revisions of each vault are a chain from its genesis
  hash to its head.
* `vault_chain`: what this means for the rows.
* `Since.revisions`, `Since.grown`: along a run no revision is lost or changed, and the chains only
  grow.
-/

namespace PasswordVault

open Transactions HashChain

variable {P : Platform} {state : AppState} {q : Request} {H : Log} {b : Bool} {s s' : Db}

/-- A revision as a link of its vault's chain. -/
def revisionLinks : Links VaultItemRevision Bytes where
  seq := VaultItemRevision.headSeq
  prev := VaultItemRevision.previousHeadHash
  hash := VaultItemRevision.headHash

/-! ## One commit -/

/-- What one commit does to the vaults and their revisions. -/
inductive VaultMove (s s' : Db) : Prop
  | kept (hvaults : s'.vaults = s.vaults)
      (hrevisions : s'.vaultItemRevisions = s.vaultItemRevisions)
  /-- A registration creates a vault. -/
  | created {v : Vault} (hnew : s.vaults.find? v.id = none) (hseq : v.headSeq = 0)
      (hhash : v.headHash = v.genesisHeadHash) (hvaults : s'.vaults = s.vaults.put v)
      (hrevisions : s'.vaultItemRevisions = s.vaultItemRevisions)
  /-- A write appends a revision to the head that it found. -/
  | appended {v : Vault} {r : VaultItemRevision} {now : Time}
      (hvault : s.vaults.find? v.id = some v) (hof : r.vaultId = v.id)
      (hbase : r.baseHeadSeq = v.headSeq) (hprev : r.previousHeadHash = v.headHash)
      (hcheck : r.check = true) (hnew : vaultItemRevisions.New [] r s)
      (hvaults : s'.vaults = s.vaults.put (v.advanced r.headSeq r.headHash now))
      (hrevisions : s'.vaultItemRevisions = s.vaultItemRevisions.put r)

/-- **Every commit moves the vaults in one of these ways.** -/
theorem Effect.vaultMove (h : Effect P state q H b s') : VaultMove H.current s' := by
  cases h with
  | registered hq hv hc hopen hrows haccount hkeyset hdevice hvault =>
      subst hrows
      exact .created (Table.find?_of_new hvault) rfl rfl rfl rfl
  | loginRefused hq hc hopen hs =>
      rcases hs with rfl | ⟨event, rfl⟩
      · exact .kept rfl rfl
      · exact .kept rfl rfl
  | itemCreated hq hv hload hstate hvault hid hhead hitem hrevision hcheck =>
      exact .appended hvault hid.1.symm hhead.1.symm hhead.2.symm hcheck hrevision rfl rfl
  | itemRevised hq hv hload hstate hvault hid hitem hitemId hhead hlatest hrevision hcheck =>
      exact .appended hvault hid.1.symm hhead.1.symm hhead.2.symm hcheck hrevision rfl rfl
  | idle => exact .kept rfl rfl
  | _ =>
      simp only [Db.audited, Table.putAll, Table.remove, devices, authChallenges,
        totpFactors, recoveryCodes, sessions]
      exact .kept rfl rfl

/-! ## All commits -/

/-- The chain of a vault: its revisions, from the genesis hash to the head. -/
structure VaultChain (s : Db) (v : Vault) (l : List VaultItemRevision) : Prop where
  chain : revisionLinks.Chain 0 v.genesisHeadHash l
  headSeq : v.headSeq = l.length
  headHash : v.headHash = revisionLinks.tip v.genesisHeadHash l
  rows : ∀ r, r ∈ l ↔ r ∈ s.vaultItemRevisions ∧ r.vaultId = v.id

/-- The invariant of the committed database. -/
structure ChainOk (s : Db) : Prop where
  chains : ∀ v ∈ s.vaults, ∃ l, VaultChain s v l
  owned : ∀ r ∈ s.vaultItemRevisions, ∃ v ∈ s.vaults, v.id = r.vaultId
  checked : ∀ r ∈ s.vaultItemRevisions, r.check = true

lemma VaultItemRevision.check_links {r : VaultItemRevision} (h : r.check = true) :
    r.headSeq = r.baseHeadSeq + 1 ∧ r.baseHeadHash = r.previousHeadHash := by
  simp only [VaultItemRevision.check, Bool.and_eq_true, beq_iff_eq] at h
  exact ⟨h.1.1.1.1.2, h.1.1.1.2⟩

lemma VaultChain.of_rows {v : Vault} {l : List VaultItemRevision} (h : VaultChain s v l)
    (hrows : ∀ r, r.vaultId = v.id → (r ∈ s'.vaultItemRevisions ↔ r ∈ s.vaultItemRevisions)) :
    VaultChain s' v l := by
  refine ⟨h.chain, h.headSeq, h.headHash, fun r => ?_⟩
  rw [h.rows]
  constructor
  · rintro ⟨hr, hof⟩
    exact ⟨(hrows r hof).mpr hr, hof⟩
  · rintro ⟨hr, hof⟩
    exact ⟨(hrows r hof).mp hr, hof⟩

/-- Appending a revision to the head extends the chain. -/
lemma VaultChain.append {v : Vault} {l : List VaultItemRevision} (h : VaultChain s v l)
    {r : VaultItemRevision} {now : Time} (hof : r.vaultId = v.id)
    (hbase : r.baseHeadSeq = v.headSeq) (hprev : r.previousHeadHash = v.headHash)
    (hcheck : r.check = true) (hnew : vaultItemRevisions.New [] r s)
    (hrevisions : s'.vaultItemRevisions = s.vaultItemRevisions.put r) :
    VaultChain s' (v.advanced r.headSeq r.headHash now) (l ++ [r]) := by
  have hseq : r.headSeq = (l.length : Int) + 1 := by
    rw [(VaultItemRevision.check_links hcheck).1, hbase, h.headSeq]
  refine ⟨?_, ?_, ?_, fun x => ?_⟩
  · show revisionLinks.Chain 0 v.genesisHeadHash (l ++ [r])
    rw [Links.chain_snoc]
    refine ⟨h.chain, ?_, ?_⟩
    · rw [Int.zero_add]
      exact hseq
    · exact hprev.trans h.headHash
  · show r.headSeq = ((l ++ [r]).length : Int)
    rw [List.length_append, List.length_singleton, hseq]
    push_cast
    rfl
  · show r.headHash = revisionLinks.tip v.genesisHeadHash (l ++ [r])
    rw [Links.tip_snoc]
    rfl
  · show x ∈ l ++ [r] ↔ x ∈ s'.vaultItemRevisions ∧ x.vaultId = v.id
    rw [List.mem_append, List.mem_singleton, h.rows, hrevisions, Rows.mem_put]
    constructor
    · rintro (⟨hx, hxv⟩ | rfl)
      · exact ⟨.inr ⟨hx, (hnew x hx List.not_mem_nil).1⟩, hxv⟩
      · exact ⟨.inl rfl, hof⟩
    · rintro ⟨rfl | ⟨hx, -⟩, hxv⟩
      · exact .inr rfl
      · exact .inl ⟨hx, hxv⟩

/-- **One commit keeps the chains.** -/
theorem ChainOk.step (h : ChainOk s) (hmove : VaultMove s s') : ChainOk s' := by
  cases hmove with
  | kept hvaults hrevisions =>
      refine ⟨?_, ?_, ?_⟩
      · rw [hvaults]
        intro v hv
        obtain ⟨l, hl⟩ := h.chains v hv
        exact ⟨l, hl.of_rows fun r _ => by rw [hrevisions]⟩
      · rw [hvaults, hrevisions]
        exact h.owned
      · rw [hrevisions]
        exact h.checked
  | @created v hnew hseq hhash hvaults hrevisions =>
      refine ⟨?_, ?_, ?_⟩
      · rw [hvaults]
        intro x hx
        rcases Rows.mem_put.mp hx with rfl | ⟨hx, -⟩
        · refine ⟨[], trivial, hseq, hhash, fun r => ?_⟩
          rw [hrevisions]
          constructor
          · intro hr
            cases hr
          · rintro ⟨hr, hof⟩
            obtain ⟨w, hw, hid⟩ := h.owned r hr
            exact absurd (hid.trans hof) (Rows.find?_eq_none.mp hnew w hw)
        · obtain ⟨l, hl⟩ := h.chains x hx
          exact ⟨l, hl.of_rows fun r _ => by rw [hrevisions]⟩
      · rw [hvaults, hrevisions]
        intro r hr
        obtain ⟨w, hw, hid⟩ := h.owned r hr
        exact ⟨w, Rows.mem_put.mpr (.inr ⟨hw, Rows.find?_eq_none.mp hnew w hw⟩), hid⟩
      · rw [hrevisions]
        exact h.checked
  | @appended v r now hvault hof hbase hprev hcheck hnew hvaults hrevisions =>
      have hmem : v ∈ s.vaults := (Rows.find?_eq_some.mp hvault).1
      refine ⟨?_, ?_, ?_⟩
      · rw [hvaults]
        intro x hx
        rcases Rows.mem_put.mp hx with rfl | ⟨hx, hne⟩
        · obtain ⟨l, hl⟩ := h.chains v hmem
          exact ⟨l ++ [r], hl.append hof hbase hprev hcheck hnew hrevisions⟩
        · obtain ⟨l, hl⟩ := h.chains x hx
          refine ⟨l, hl.of_rows fun y hy => ?_⟩
          rw [hrevisions, Rows.mem_put]
          constructor
          · rintro (rfl | ⟨hy', -⟩)
            · exact absurd (hy.symm.trans hof) hne
            · exact hy'
          · intro hy'
            exact .inr ⟨hy', (hnew y hy' List.not_mem_nil).1⟩
      · rw [hvaults, hrevisions]
        have howned : ∀ w ∈ s.vaults, ∃ w' ∈ s.vaults.put (v.advanced r.headSeq r.headHash now),
            w'.id = w.id := by
          intro w hw
          by_cases hid : w.id = v.id
          · exact ⟨_, Rows.mem_put.mpr (.inl rfl), hid.symm⟩
          · exact ⟨w, Rows.mem_put.mpr (.inr ⟨hw, hid⟩), rfl⟩
        intro y hy
        rcases Rows.mem_put.mp hy with rfl | ⟨hy, -⟩
        · obtain ⟨w', hw', hid⟩ := howned v hmem
          exact ⟨w', hw', hid.trans hof.symm⟩
        · obtain ⟨w, hw, hid⟩ := h.owned y hy
          obtain ⟨w', hw', hid'⟩ := howned w hw
          exact ⟨w', hw', hid'.trans hid⟩
      · rw [hrevisions]
        intro y hy
        rcases Rows.mem_put.mp hy with rfl | ⟨hy, -⟩
        · exact hcheck
        · exact h.checked y hy

lemma ServiceRun.chainOk (h : ServiceRun P state H) : ChainOk H.current := by
  refine Run.invariant (K := fun H => ChainOk H.current) ?_ ?_ h
  · refine ⟨fun v hv => ?_, fun r hr => ?_, fun r hr => ?_⟩
    · cases hv
    · cases hr
    · cases hr
  · intro H q b s _ heff _ hok
    exact hok.step (Effect.vaultMove heff)

/-! ## Along a run -/

/-- A commit loses no revision. -/
lemma VaultMove.revisions (hmove : VaultMove s s') :
    ∀ r ∈ s.vaultItemRevisions, r ∈ s'.vaultItemRevisions := by
  intro r hr
  cases hmove with
  | kept hvaults hrevisions => rwa [hrevisions]
  | created hnew hseq hhash hvaults hrevisions => rwa [hrevisions]
  | appended hvault hof hbase hprev hcheck hnew hvaults hrevisions =>
      rw [hrevisions]
      exact Rows.mem_put.mpr (.inr ⟨hr, (hnew r hr List.not_mem_nil).1⟩)

/-- **Revisions once committed stay as they are.** -/
lemma Since.revisions {H H' : Log} (hrun : ServiceRun P state H) (h : Since P state H H') :
    ∀ r ∈ H.current.vaultItemRevisions, r ∈ H'.current.vaultItemRevisions := by
  intro r hr
  refine Later.induction (K := fun H => r ∈ H.current.vaultItemRevisions) ?_ hrun h hr
  intro H₁ q b s _ _ heff hr₁
  exact (Effect.vaultMove heff).revisions r hr₁

/-- The chain of a vault of an earlier database, now: the same vault, whose chain has grown. -/
def Grown (s : Db) (v : Vault) (l : List VaultItemRevision) : Prop :=
  ∃ v' l', v' ∈ s.vaults ∧ v'.id = v.id ∧ v'.accountId = v.accountId ∧
    v'.genesisHeadHash = v.genesisHeadHash ∧ VaultChain s v' (l ++ l')

lemma Grown.step {v : Vault} {l : List VaultItemRevision} (h : Grown s v l)
    (hmove : VaultMove s s') : Grown s' v l := by
  obtain ⟨v', l', hv', hid, haccount, hgenesis, hchain⟩ := h
  cases hmove with
  | kept hvaults hrevisions =>
      refine ⟨v', l', by rwa [hvaults], hid, haccount, hgenesis, hchain.of_rows fun r _ => ?_⟩
      rw [hrevisions]
  | created hnew hseq hhash hvaults hrevisions =>
      refine ⟨v', l', ?_, hid, haccount, hgenesis, hchain.of_rows fun r _ => by rw [hrevisions]⟩
      rw [hvaults]
      exact Rows.mem_put.mpr (.inr ⟨hv', Rows.find?_eq_none.mp hnew v' hv'⟩)
  | @appended w r now hvault hof hbase hprev hcheck hnew hvaults hrevisions =>
      by_cases hw : v'.id = w.id
      · have hsame : v' = w := by
          have hfind := Rows.find?_of_mem hv'
          rw [hw, hvault] at hfind
          exact (Option.some.inj hfind).symm
        subst hsame
        have happend := @VaultChain.append _ _ _ _ hchain _ now hof hbase hprev hcheck hnew hrevisions
        rw [List.append_assoc] at happend
        refine ⟨v'.advanced r.headSeq r.headHash now, l' ++ [r], ?_, hid, haccount, hgenesis, happend⟩
        rw [hvaults]
        exact Rows.mem_put.mpr (.inl rfl)
      · refine ⟨v', l', ?_, hid, haccount, hgenesis, hchain.of_rows fun x hx => ?_⟩
        · rw [hvaults]
          exact Rows.mem_put.mpr (.inr ⟨hv', hw⟩)
        · rw [hrevisions, Rows.mem_put]
          constructor
          · rintro (rfl | ⟨hx', -⟩)
            · exact absurd (hx.symm.trans hof) hw
            · exact hx'
          · intro hx'
            exact .inr ⟨hx', (hnew x hx' List.not_mem_nil).1⟩

/-- **The chain of a vault only grows.** -/
lemma Since.grown {H H' : Log} (hrun : ServiceRun P state H) (h : Since P state H H') {v : Vault}
    {l : List VaultItemRevision} (hv : v ∈ H.current.vaults)
    (hchain : VaultChain H.current v l) : Grown H'.current v l := by
  refine Later.induction (K := fun H => Grown H.current v l) ?_ hrun h ?_
  · intro H₁ q b s _ _ heff hgrown
    exact hgrown.step (Effect.vaultMove heff)
  · exact ⟨v, [], hv, rfl, rfl, rfl, by rwa [List.append_nil]⟩

/-! ## What the rows say -/

/-- The hash of the head with number `k` of a vault: the genesis hash, or the hash of a revision. -/
def hashAt (s : Db) (v : Vault) (k : Int) : Option Bytes :=
  if k = 0 then some v.genesisHeadHash else selectRevisionHash v.id k s

/-- The hash read for a number is the one of the chain's link. -/
lemma VaultChain.selectRevisionHash {v : Vault} {l₁ l₂ : List VaultItemRevision}
    {r : VaultItemRevision} (h : VaultChain s v (l₁ ++ r :: l₂)) :
    selectRevisionHash v.id r.headSeq s = some r.headHash := by
  have hr : r ∈ l₁ ++ r :: l₂ := List.mem_append_right _ List.mem_cons_self
  obtain ⟨hmem, hof⟩ := (h.rows r).mp hr
  unfold PasswordVault.selectRevisionHash
  rw [Option.map_eq_some_iff]
  rcases hfind : s.vaultItemRevisions.list.find?
      (fun x => x.vaultId == v.id && x.headSeq == r.headSeq) with _ | x
  · rw [List.find?_eq_none] at hfind
    exact absurd (by simp [hof]) (hfind r hmem)
  · have hx : x ∈ s.vaultItemRevisions.list := List.mem_of_find?_eq_some hfind
    have hp := List.find?_some hfind
    rw [Bool.and_eq_true, beq_iff_eq, beq_iff_eq] at hp
    have hxl : x ∈ l₁ ++ r :: l₂ := (h.rows x).mpr ⟨hx, hp.1⟩
    obtain rfl := h.chain.eq_of_seq hxl hr hp.2
    exact ⟨x, hfind, rfl⟩

/-- **The hash with number `k` is the tip of the first `k` links.** -/
lemma VaultChain.hashAt {v : Vault} {l : List VaultItemRevision} (h : VaultChain s v l) {k : Nat}
    (hk : k ≤ l.length) :
    hashAt s v k = some (revisionLinks.tip v.genesisHeadHash (l.take k)) := by
  unfold PasswordVault.hashAt
  by_cases hzero : k = 0
  · subst hzero
    rw [if_pos (by rfl), List.take_zero, Links.tip_nil]
  · rw [if_neg (by omega)]
    obtain ⟨l₁, r, l₂, rfl, hseq, hlen⟩ := h.chain.exists_of_seq (k := k) (by omega) (by omega)
    have hk' : k = l₁.length + 1 := by omega
    rw [← hseq]
    show PasswordVault.selectRevisionHash v.id r.headSeq s = _
    have htake : (l₁ ++ r :: l₂).take k = l₁ ++ [r] := by
      rw [hk', List.take_append, List.take_of_length_le (by omega)]
      simp
    rw [h.selectRevisionHash, htake, Links.tip_snoc]
    rfl

/-- The head chain of a vault in a database. -/
structure HeadChain (s : Db) (v : Vault) : Prop where
  /-- The revisions have the numbers from 1 to the head's, each once. -/
  numbered : ∀ k, 1 ≤ k → k ≤ v.headSeq →
    ∃! r, r ∈ s.vaultItemRevisions ∧ r.vaultId = v.id ∧ r.headSeq = k
  /-- A revision has one of these numbers, and is based on the head with the number before it, whose
  hash is the genesis hash or the hash of the revision before it. -/
  based : ∀ r ∈ s.vaultItemRevisions, r.vaultId = v.id →
    1 ≤ r.headSeq ∧ r.headSeq ≤ v.headSeq ∧ r.baseHeadSeq = r.headSeq - 1 ∧
      hashAt s v (r.headSeq - 1) = some r.baseHeadHash ∧ r.previousHeadHash = r.baseHeadHash
  /-- The head of the vault has the hash of the last revision. -/
  head : 0 ≤ v.headSeq ∧ hashAt s v v.headSeq = some v.headHash

/-- **The head chain of a vault.** In every reachable state of the service every vault has its head
chain, and the revisions once committed are still there as they were. -/
theorem vault_chain {sys : Service} (h : Reachable P state sys) :
    (∀ v ∈ sys.history.current.vaults, HeadChain sys.history.current v) ∧
    ∀ e ∈ sys.history.entries, ∀ r ∈ e.after.vaultItemRevisions,
      r ∈ sys.history.current.vaultItemRevisions := by
  have hok := ServiceRun.chainOk h.run
  refine ⟨fun v hv => ?_, fun e he r hr => ?_⟩
  · obtain ⟨l, hl⟩ := hok.chains v hv
    refine ⟨fun k hk hkn => ?_, fun r hr hof => ?_, ?_, ?_⟩
    · rw [hl.headSeq] at hkn
      obtain ⟨l₁, r, l₂, hsplit, hseq, -⟩ := hl.chain.exists_of_seq (k := k) (by omega) (by omega)
      have hr : r ∈ l := hsplit ▸ List.mem_append_right _ List.mem_cons_self
      obtain ⟨hmem, hof⟩ := (hl.rows r).mp hr
      refine ⟨r, ⟨hmem, hof, hseq⟩, fun x hx => ?_⟩
      obtain ⟨hx, hxof, hxseq⟩ := hx
      exact hl.chain.eq_of_seq ((hl.rows x).mpr ⟨hx, hxof⟩) hr (hxseq.trans hseq.symm)
    · have hmem : r ∈ l := (hl.rows r).mpr ⟨hr, hof⟩
      obtain ⟨hlow, hhigh⟩ := hl.chain.seq_bounds hmem
      obtain ⟨hbase, hprev⟩ := VaultItemRevision.check_links (hok.checked r hr)
      obtain ⟨l₁, l₂, rfl⟩ := List.append_of_mem hmem
      obtain ⟨hseq, htip⟩ := hl.chain.at_split
      have hpos : 0 < r.headSeq := hlow
      have hle : r.headSeq ≤ 0 + ((l₁ ++ r :: l₂).length : Int) := hhigh
      have hseq' : r.headSeq = 0 + l₁.length + 1 := hseq
      have hnumber : r.headSeq - 1 = (l₁.length : Int) := by omega
      have htake : (l₁ ++ r :: l₂).take l₁.length = l₁ := by simp
      have hhash := hl.hashAt (k := l₁.length) (by simp)
      rw [htake, ← htip] at hhash
      rw [hl.headSeq]
      refine ⟨by omega, by omega, by omega, ?_, hprev.symm⟩
      rw [hnumber, hhash, hprev]
      rfl
    · rw [hl.headSeq]
      omega
    · have hhash := hl.hashAt (Nat.le_refl l.length)
      rw [List.take_length, ← hl.headHash] at hhash
      rw [hl.headSeq]
      exact hhash
  · obtain ⟨l₁, l₂, hsplit⟩ := List.append_of_mem he
    obtain ⟨H₁, -, -, -, -, ⟨hpush, hlater⟩, -⟩ := h.run.split hsplit
    exact Since.revisions hpush hlater r hr

/-- The head chain of a vault with an item. -/
theorem vault_chain_firstItem :
    (∀ v ∈ (serveAll firstItem).history.current.vaults,
      HeadChain (serveAll firstItem).history.current v) ∧
    ∀ e ∈ (serveAll firstItem).history.entries, ∀ r ∈ e.after.vaultItemRevisions,
      r ∈ (serveAll firstItem).history.current.vaultItemRevisions :=
  vault_chain firstItem_reachable

end PasswordVault
