import PasswordVault.Browser.Values
import PasswordVault.Library.KeyedStorage

/-!
# Vault checkpoints

What a browser remembers of the vaults that it has verified, in its `localStorage`.

* the keys: one pointer for a vault, and one record for each head that was ever accepted;
* `parseVaultCheckpoint`, `latestVaultCheckpoint`: from the stored texts to the latest head;
* `Scan`: `loadVaultCheckpointFromStorage`, one storage operation at a time;
* the checks on a checkpoint: before a write, against a server head, and along a replay.
-/

namespace PasswordVault.Browser

open KeyedStorage

def VAULT_CHECKPOINT_VERSION : String := "vault-checkpoint-v1"
def VAULT_CHECKPOINT_STORAGE_PREFIX : String := "password-vault:vault-checkpoint:v1:"
def VAULT_CHECKPOINT_RECORD_STORAGE_PREFIX : String := "password-vault:vault-checkpoint-record:v1:"
def VAULT_CHECKPOINT_PROBE_KEY : String := "password-vault:vault-checkpoint:probe"

/-- A stored text, by what the page can tell of it: whether it is empty, and what `JSON.parse` makes
of it. -/
inductive StoredText where
  | empty
  | malformed
  | json (v : Json)

abbrev LocalStorage := Storage (List Char) StoredText

/-! ## Keys -/

def vaultCheckpointStorageKey (vaultId : String) : List Char :=
  VAULT_CHECKPOINT_STORAGE_PREFIX.toList ++ encodeURIComponent vaultId

def vaultCheckpointRecordStoragePrefix (vaultId : String) : List Char :=
  VAULT_CHECKPOINT_RECORD_STORAGE_PREFIX.toList ++ encodeURIComponent vaultId ++ [':']

def vaultCheckpointRecordStorageKey (vaultId : String) (headSeq : Nat) (headHash : String) :
    List Char :=
  vaultCheckpointRecordStoragePrefix vaultId ++ (toString headSeq).toList ++ ':' ::
    encodeURIComponent headHash

/-- A text is told apart at its first colon. -/
lemma split_colon {a b x y : List Char} (ha : ':' ∉ a) (hb : ':' ∉ b)
    (h : a ++ ':' :: x = b ++ ':' :: y) : a = b ∧ x = y := by
  have hstart : ∀ {a x : List Char}, ':' ∉ a → (a ++ ':' :: x).takeWhile (· ≠ ':') = a := by
    intro a x ha
    rw [List.takeWhile_append_of_pos, List.takeWhile_cons_of_neg (by simp), List.append_nil]
    intro c hc
    exact decide_eq_true fun heq => ha (heq ▸ hc)
  have hsame := congrArg (List.takeWhile (· ≠ ':')) h
  rw [hstart ha, hstart hb] at hsame
  subst hsame
  exact ⟨rfl, (List.cons.inj (List.append_cancel_left h)).2⟩

lemma digits_injective : Function.Injective fun n : Nat => (toString n).toList := by
  intro m n h
  have hdigits : Nat.toDigits 10 m = Nat.toDigits 10 n := by simpa using h
  have hvalue := congrArg (fun cs => Nat.ofDigitChars 10 cs 0) hdigits
  simpa using hvalue

lemma colon_not_mem_digits (n : Nat) : ':' ∉ (toString n).toList := by
  intro h
  have hdigits : ':' ∈ Nat.toDigits 10 n := by simpa using h
  have hdigit := Nat.isDigit_of_mem_toDigits (by decide) (by decide) hdigits
  revert hdigit
  decide

/-- A key that begins like the records of a vault is no record of another vault. -/
lemma recordPrefix_vaultId {vaultId vaultId' : String} {headSeq : Nat} {headHash : String}
    (h : vaultCheckpointRecordStoragePrefix vaultId <+:
      vaultCheckpointRecordStorageKey vaultId' headSeq headHash) : vaultId = vaultId' := by
  obtain ⟨rest, h⟩ := h
  unfold vaultCheckpointRecordStorageKey vaultCheckpointRecordStoragePrefix at h
  simp only [List.append_assoc, List.singleton_append] at h
  have hsplit := split_colon (colon_not_mem vaultId) (colon_not_mem vaultId')
    (List.append_cancel_left h)
  exact encodeURIComponent_injective hsplit.1

lemma recordPrefix_self (vaultId : String) (headSeq : Nat) (headHash : String) :
    vaultCheckpointRecordStoragePrefix vaultId <+:
      vaultCheckpointRecordStorageKey vaultId headSeq headHash := by
  unfold vaultCheckpointRecordStorageKey
  rw [List.append_assoc]
  exact List.prefix_append ..

/-- A record key tells its vault and its head. -/
lemma recordKey_inj {vaultId vaultId' : String} {headSeq headSeq' : Nat} {headHash headHash' : String}
    (h : vaultCheckpointRecordStorageKey vaultId headSeq headHash =
      vaultCheckpointRecordStorageKey vaultId' headSeq' headHash') :
    vaultId = vaultId' ∧ headSeq = headSeq' ∧ headHash = headHash' := by
  have hvault := recordPrefix_vaultId (h ▸ recordPrefix_self vaultId headSeq headHash)
  subst hvault
  unfold vaultCheckpointRecordStorageKey at h
  rw [List.append_assoc, List.append_assoc] at h
  have hsplit := split_colon (colon_not_mem_digits headSeq) (colon_not_mem_digits headSeq')
    (List.append_cancel_left h)
  exact ⟨rfl, digits_injective hsplit.1, encodeURIComponent_injective hsplit.2⟩

/-- The key of a pointer does not begin like a record, -/
lemma recordPrefix_ne_pointer {vaultId vaultId' : String} :
    ¬ vaultCheckpointRecordStoragePrefix vaultId <+: vaultCheckpointStorageKey vaultId' := by
  rintro ⟨rest, h⟩
  have hstart := congrArg (List.take 32) h
  unfold vaultCheckpointRecordStoragePrefix vaultCheckpointStorageKey at hstart
  rw [List.append_assoc, List.append_assoc, List.take_append_of_le_length (by decide),
    List.take_append_of_le_length (by decide)] at hstart
  revert hstart
  decide

/-- nor does the key of the probe. -/
lemma recordPrefix_ne_probe {vaultId : String} :
    ¬ vaultCheckpointRecordStoragePrefix vaultId <+: VAULT_CHECKPOINT_PROBE_KEY.toList := by
  rintro ⟨rest, h⟩
  have hstart := congrArg (List.take 32) h
  unfold vaultCheckpointRecordStoragePrefix at hstart
  rw [List.append_assoc, List.append_assoc, List.take_append_of_le_length (by decide)] at hstart
  revert hstart
  decide

lemma pointerKey_ne_probe {vaultId : String} :
    vaultCheckpointStorageKey vaultId ≠ VAULT_CHECKPOINT_PROBE_KEY.toList := by
  intro h
  have hstart := congrArg (List.take 35) h
  unfold vaultCheckpointStorageKey at hstart
  rw [List.take_append_of_le_length (by decide)] at hstart
  revert hstart
  decide

lemma pointerKey_inj {vaultId vaultId' : String}
    (h : vaultCheckpointStorageKey vaultId = vaultCheckpointStorageKey vaultId') :
    vaultId = vaultId' :=
  encodeURIComponent_injective (List.append_cancel_left h)

/-! ## Heads -/

def isVaultHeadHash : JsValue → Bool
  | some (.str value) => (base64UrlToBytes value).map List.length == some 32
  | _ => false

def isValidHeadSeq : JsValue → Bool
  | some (.num (.int z)) => decide (0 ≤ z ∧ z ≤ MAX_SAFE_INTEGER)
  | _ => false

/-- A head that the page has accepted, for a vault. -/
structure Checkpoint where
  vaultId : String
  headSeq : Nat
  headHash : String
  seq_valid : isValidHeadSeq (some (.num (.int headSeq))) = true
  hash_valid : isVaultHeadHash (some (.str headHash)) = true
  deriving DecidableEq

lemma Checkpoint.hash_ne_empty (c : Checkpoint) : c.headHash ≠ "" := by
  intro h
  have hvalid := c.hash_valid
  rw [h] at hvalid
  revert hvalid
  decide

/-- The text of a checkpoint. `JSON.stringify` leaves out a member that is `undefined`. -/
def serializedCheckpoint (vaultId : JsValue) (headSeq : Nat) (headHash : String) : StoredText :=
  .json (.obj (("version", .str VAULT_CHECKPOINT_VERSION) ::
    (vaultId.toList.map fun v => ("vault_id", v)) ++
      [("head_seq", .num (.int headSeq)), ("head_hash", .str headHash)]))

/-- The text of a checkpoint of a vault with a textual identifier. -/
def checkpointText (c : Checkpoint) : StoredText :=
  serializedCheckpoint (some (.str c.vaultId)) c.headSeq c.headHash

def notValidJson : JsError := ⟨"Stored vault checkpoint is not valid JSON."⟩
def invalidCheckpoint : JsError := ⟨"Stored vault checkpoint is invalid."⟩
def conflictingHeads : JsError :=
  ⟨"Stored vault checkpoints contain conflicting heads at the same sequence."⟩

/-- The head of a parsed checkpoint, when it is valid. -/
def checkpointOf (vaultId : JsValue) : JsValue → JsValue → Except JsError Checkpoint
  | some (.num (.int z)), some (.str hash) =>
      if h : isValidHeadSeq (some (.num (.int z.toNat))) = true ∧
          isVaultHeadHash (some (.str hash)) = true ∧ 0 ≤ z then
        .ok ⟨jsString vaultId, z.toNat, hash, h.1, h.2.1⟩
      else .error invalidCheckpoint
  | _, _ => .error invalidCheckpoint

def parseVaultCheckpoint (raw : StoredText) (vaultId : JsValue) : Except JsError Checkpoint :=
  match raw with
  | .json v =>
      if strictEq (member (some v) "version") (some (.str VAULT_CHECKPOINT_VERSION)) &&
          strictEq (member (some v) "vault_id") vaultId then
        checkpointOf vaultId (member (some v) "head_seq") (member (some v) "head_hash")
      else .error invalidCheckpoint
  | _ => .error notValidJson

/-- What was stored is read back. -/
lemma parseVaultCheckpoint_checkpointText (c : Checkpoint) :
    parseVaultCheckpoint (checkpointText c) (some (.str c.vaultId)) = .ok c := by
  obtain ⟨vaultId, headSeq, headHash, hseq, hhash⟩ := c
  have hversion : strictEq (some (.str VAULT_CHECKPOINT_VERSION))
      (some (.str VAULT_CHECKPOINT_VERSION)) = true := beq_self_eq_true VAULT_CHECKPOINT_VERSION
  have hvault : strictEq (some (.str vaultId)) (some (.str vaultId)) = true :=
    beq_self_eq_true vaultId
  unfold parseVaultCheckpoint checkpointText serializedCheckpoint
  change (if strictEq (some (.str VAULT_CHECKPOINT_VERSION)) _ && strictEq (some (.str vaultId)) _
    then checkpointOf (some (.str vaultId)) (some (.num (.int headSeq))) (some (.str headHash))
    else _) = _
  rw [hversion, hvault, Bool.and_self, if_pos rfl]
  exact dif_pos ⟨hseq, hhash, Int.natCast_nonneg headSeq⟩

lemma parseVaultCheckpoint_vaultId {raw : StoredText} {vaultId : JsValue} {c : Checkpoint}
    (h : parseVaultCheckpoint raw vaultId = .ok c) : c.vaultId = jsString vaultId := by
  unfold parseVaultCheckpoint checkpointOf at h
  split at h
  · split at h
    · split at h
      · split at h
        · exact (Except.ok.inj h) ▸ rfl
        · cases h
      · cases h
    · cases h
  · cases h

/-! ## The latest checkpoint -/

/-- One round of `latestVaultCheckpoint`: the latest so far and the hash of each sequence number. -/
def noteCheckpoint (seen : Option Checkpoint × List (Nat × String)) (checkpoint : Checkpoint) :
    Except JsError (Option Checkpoint × List (Nat × String)) :=
  let existingHash := (seen.2.find? fun e => e.1 == checkpoint.headSeq).map Prod.snd
  if existingHash.any fun hash => hash != "" && hash != checkpoint.headHash then
    .error conflictingHeads
  else
    let latest := match seen.1 with
      | none => some checkpoint
      | some latest => if checkpoint.headSeq > latest.headSeq then some checkpoint else some latest
    .ok (latest, (checkpoint.headSeq, checkpoint.headHash) :: seen.2)

def latestVaultCheckpoint (checkpoints : List Checkpoint) : Except JsError (Option Checkpoint) :=
  (checkpoints.foldlM noteCheckpoint (none, [])).map Prod.fst

/-- What `latestVaultCheckpoint` knows after some checkpoints. -/
structure Noted (cs : List Checkpoint) (seen : Option Checkpoint × List (Nat × String)) : Prop where
  latest : ∀ c ∈ cs, ∃ d, seen.1 = some d ∧ c.headSeq ≤ d.headSeq
  mem : ∀ d, seen.1 = some d → d ∈ cs
  hashes : ∀ c ∈ cs, (seen.2.find? fun e => e.1 == c.headSeq) = some (c.headSeq, c.headHash)

lemma Noted.push {cs : List Checkpoint} {seen seen' : Option Checkpoint × List (Nat × String)}
    {checkpoint : Checkpoint} (h : Noted cs seen)
    (hnote : noteCheckpoint seen checkpoint = .ok seen') : Noted (cs ++ [checkpoint]) seen' := by
  unfold noteCheckpoint at hnote
  dsimp only at hnote
  split at hnote
  · cases hnote
  · rename_i hconflict
    obtain rfl := Except.ok.inj hnote
    refine ⟨fun c hc => ?_, fun d hd => ?_, fun c hc => ?_⟩
    · rcases List.mem_append.mp hc with hc | hc
      · obtain ⟨d, hd, hle⟩ := h.latest c hc
        rw [hd]
        dsimp only
        split
        · rename_i hlt
          exact ⟨checkpoint, rfl, hle.trans (Nat.le_of_lt hlt)⟩
        · exact ⟨d, rfl, hle⟩
      · rw [List.mem_singleton.mp hc]
        cases seen.1 with
        | none => exact ⟨checkpoint, rfl, le_rfl⟩
        | some d =>
            dsimp only
            split
            · exact ⟨checkpoint, rfl, le_rfl⟩
            · rename_i hle
              exact ⟨d, rfl, Nat.le_of_not_lt hle⟩
    · rw [List.mem_append]
      cases hseen : seen.1 with
      | none =>
          rw [hseen] at hd
          exact .inr (List.mem_singleton.mpr (Option.some.inj hd).symm)
      | some e =>
          rw [hseen] at hd
          dsimp only at hd
          split at hd
          · exact .inr (List.mem_singleton.mpr (Option.some.inj hd).symm)
          · exact .inl (h.mem d (hseen.trans hd))
    · rcases List.mem_append.mp hc with hc | hc
      · have hhash := h.hashes c hc
        rw [List.find?_cons]
        dsimp only
        by_cases hseq : checkpoint.headSeq = c.headSeq
        · -- the same sequence number comes with the same hash
          rw [hseq, hhash] at hconflict
          have hsame : c.headHash = checkpoint.headHash := by
            simpa [c.hash_ne_empty] using hconflict
          simp [hseq, hsame]
        · rw [beq_false_of_ne hseq]
          exact hhash
      · rw [List.mem_singleton.mp hc]
        simp

lemma Noted.foldlM {rest : List Checkpoint} : ∀ {cs seen seen'}, Noted cs seen →
    rest.foldlM noteCheckpoint seen = .ok seen' → Noted (cs ++ rest) seen' := by
  induction rest with
  | nil =>
      intro cs seen seen' h hfold
      rw [List.append_nil]
      exact Except.ok.inj hfold ▸ h
  | cons checkpoint rest ih =>
      intro cs seen seen' h hfold
      rw [List.foldlM_cons] at hfold
      obtain ⟨next, hnote, hrest⟩ := bind_ok.mp hfold
      rw [List.append_cons]
      exact ih (h.push hnote) hrest

/-- **The latest of some checkpoints** is one of them, and none of them is later or has another
hash at its sequence number. -/
theorem latestVaultCheckpoint_ok {cs : List Checkpoint} {latest : Option Checkpoint}
    (h : latestVaultCheckpoint cs = .ok latest) {c : Checkpoint} (hc : c ∈ cs) :
    ∃ d ∈ cs, latest = some d ∧ c.headSeq ≤ d.headSeq ∧
      (d.headSeq = c.headSeq → d.headHash = c.headHash) := by
  unfold latestVaultCheckpoint at h
  cases hfold : cs.foldlM noteCheckpoint (none, []) with
  | error e =>
      rw [hfold] at h
      cases h
  | ok seen =>
      rw [hfold] at h
      obtain rfl := Except.ok.inj h
      have hstart : Noted [] (none, []) := by
        constructor <;> simp
      have hnoted : Noted cs seen := hstart.foldlM hfold
      obtain ⟨d, hd, hle⟩ := hnoted.latest c hc
      refine ⟨d, hnoted.mem d hd, hd, hle, fun hseq => ?_⟩
      have hhash := hnoted.hashes d (hnoted.mem d hd)
      rw [hseq, hnoted.hashes c hc] at hhash
      exact (Prod.mk.inj (Option.some.inj hhash)).2.symm

/-! ## Loading -/

/-- Where `loadVaultCheckpointFromStorage` is, with the checkpoints that it has read. -/
inductive Scan where
  | pointer
  | length (index : Nat) (checkpoints : List Checkpoint)
  | keyAt (index : Nat) (checkpoints : List Checkpoint)
  | record (key : List Char) (index : Nat) (checkpoints : List Checkpoint)

/-- What becomes of it. -/
inductive Scanned where
  | more (scan : Scan)
  | done (latest : Option Checkpoint)

/-- A text that was read. -/
def pushCheckpoint (vaultId : JsValue) (raw : Option StoredText) (checkpoints : List Checkpoint) :
    Except JsError (List Checkpoint) :=
  match raw with
  | none => .ok checkpoints
  | some .empty => .ok checkpoints
  | some raw => do
      let checkpoint ← parseVaultCheckpoint raw vaultId
      .ok (checkpoints ++ [checkpoint])

/-- The next storage operation of `loadVaultCheckpointFromStorage`. -/
def Scan.next (vaultId : JsValue) (storage : LocalStorage) : Scan → Except JsError Scanned
  | .pointer => do
      let checkpoints ← pushCheckpoint vaultId
        (storage.get (vaultCheckpointStorageKey (jsString vaultId))) []
      .ok (.more (.length 0 checkpoints))
  | .length index checkpoints =>
      if index < storage.size then .ok (.more (.keyAt index checkpoints))
      else do
        let latest ← latestVaultCheckpoint checkpoints
        .ok (.done latest)
  | .keyAt index checkpoints =>
      match storage.keyAt index with
      | some key =>
          if (vaultCheckpointRecordStoragePrefix (jsString vaultId)).isPrefixOf key then
            .ok (.more (.record key index checkpoints))
          else .ok (.more (.length (index + 1) checkpoints))
      | none => .ok (.more (.length (index + 1) checkpoints))
  | .record key index checkpoints => do
      let checkpoints ← pushCheckpoint vaultId (storage.get key) checkpoints
      .ok (.more (.length (index + 1) checkpoints))

/-! ## Checks -/

def newerCheckpoint : JsError := ⟨"Refusing to overwrite a newer stored vault checkpoint."⟩
def forkedCheckpoint : JsError :=
  ⟨"Refusing to overwrite a stored vault checkpoint with a forked head."⟩

def assertCheckpointWriteIsMonotonic (existingCheckpoint : Option Checkpoint) (nextHeadSeq : Nat)
    (nextHeadHash : String) : Except JsError Unit :=
  match existingCheckpoint with
  | none => .ok ()
  | some existing =>
      if existing.headSeq > nextHeadSeq then .error newerCheckpoint
      else if existing.headSeq = nextHeadSeq ∧ existing.headHash ≠ nextHeadHash then
        .error forkedCheckpoint
      else .ok ()

def storageUnavailable : JsError := ⟨"Persistent vault checkpoint storage is unavailable. " ++
  "Enable browser storage before using this vault."⟩
def invalidHead : JsError := ⟨"Vault checkpoint head is invalid."⟩
def notSaved : JsError := ⟨"Persistent vault checkpoint could not be saved."⟩

/-- What the `catch` of `persistVaultCheckpoint` throws. -/
def rethrown (e : JsError) : JsError :=
  if "Refusing to overwrite".toList.isPrefixOf e.message.toList ||
      "Stored vault".toList.isPrefixOf e.message.toList then e
  else notSaved

/-! ## In one go

The calls as they run when no other tab touches the storage meanwhile. -/

/-- The first write that the browser refuses. -/
inductive Refusal where
  | probe
  | record
  | pointer
  deriving DecidableEq

def readRecord (storage : LocalStorage) (vaultId : JsValue) (checkpoints : List Checkpoint)
    (key : List Char) : Except JsError (List Checkpoint) :=
  if (vaultCheckpointRecordStoragePrefix (jsString vaultId)).isPrefixOf key then
    pushCheckpoint vaultId (storage.get key) checkpoints
  else .ok checkpoints

def loadVaultCheckpointFromStorage (storage : LocalStorage) (vaultId : JsValue) :
    Except JsError (Option Checkpoint) := do
  let pointer ← pushCheckpoint vaultId
    (storage.get (vaultCheckpointStorageKey (jsString vaultId))) []
  let checkpoints ← storage.keys.foldlM (readRecord storage vaultId) pointer
  latestVaultCheckpoint checkpoints

def loadVaultCheckpoint (refused : Option Refusal) (storage : LocalStorage) (vaultId : JsValue) :
    Except JsError (Option Checkpoint) :=
  if refused = some .probe then .error storageUnavailable
  else loadVaultCheckpointFromStorage storage vaultId

/-- `persistVaultCheckpoint` of a head, and the storage after it. -/
def persistVaultCheckpoint (refused : Option Refusal) (storage : LocalStorage) (vaultId : JsValue)
    (headSeq : JsNumber) (headHash : String) : Except JsError Unit × LocalStorage :=
  match checkpointOf vaultId (some (.num headSeq)) (some (.str headHash)) with
  | .error _ => (.error invalidHead, storage)
  | .ok c =>
      let monotonic := fun storage => do
        let latest ← loadVaultCheckpointFromStorage storage vaultId
        assertCheckpointWriteIsMonotonic latest c.headSeq c.headHash
      let serialized := serializedCheckpoint vaultId c.headSeq c.headHash
      let record := vaultCheckpointRecordStorageKey (jsString vaultId) c.headSeq c.headHash
      if refused = some .probe then (.error storageUnavailable, storage)
      else match monotonic storage with
        | .error e => (.error e, storage)
        | .ok () =>
            if refused = some .record then (.error notSaved, storage)
            else
              let storage := storage.set record serialized []
              match monotonic storage with
              | .error e => (.error (rethrown e), storage)
              | .ok () =>
                  if refused = some .pointer then (.error notSaved, storage)
                  else (.ok (),
                    storage.set (vaultCheckpointStorageKey (jsString vaultId)) serialized [])

end PasswordVault.Browser
