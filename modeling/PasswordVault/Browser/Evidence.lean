import PasswordVault.Browser.Checkpoints
import Mathlib.Logic.Relation

/-!
# Checkpoint evidence is kept

Any number of tabs share one `localStorage`. Their calls of `persistVaultCheckpoint` and
`loadVaultCheckpoint` run one storage operation at a time, in any order.

* `Call.next`: the next operation of a call; the browser chooses whether a write fails, and the
  order of the keys after a key came or went.
* `checkpoint_evidence`: a load that starts after a head was persisted finds it or a later one, when
  no step takes the record behind the load while it goes through the keys. In a storage that keeps
  the order of its keys no step does so.
* `movedRecord_lost`: a run that loses a head.
-/

namespace PasswordVault.Browser

open KeyedStorage

variable {ι : Type} [DecidableEq ι]

/-! ## Calls -/

/-- A call of `loadVaultCheckpoint` or of `persistVaultCheckpoint`, with a valid head. -/
inductive Task where
  | load (vaultId : String)
  | persist (checkpoint : Checkpoint)

def Task.vaultId : Task → String
  | .load vaultId => vaultId
  | .persist checkpoint => checkpoint.vaultId

/-- `persistVaultCheckpoint` loads before its first write, and again before its second. -/
inductive Pass where
  | before
  | again

/-- Where a tab is in its call. -/
inductive Call where
  | idle
  | probeSet (task : Task)
  | probeRemove (task : Task)
  | scanning (task : Task) (pass : Pass) (scan : Scan)
  | writeRecord (checkpoint : Checkpoint)
  | writePointer (checkpoint : Checkpoint)
  | loaded (vaultId : String) (latest : Option Checkpoint)
  | saved (checkpoint : Checkpoint)
  | threw (error : JsError)

/-- What a tab asks for, by its arguments. -/
inductive Wanted where
  | load (vaultId : String)
  | persist (vaultId : String) (headSeq : JsNumber) (headHash : String)

/-- The calls begin with the probe of `checkpointStorage`; a head is checked before that. -/
def Wanted.start : Wanted → Call
  | .load vaultId => .probeSet (.load vaultId)
  | .persist vaultId headSeq headHash =>
      match checkpointOf (some (.str vaultId)) (some (.num headSeq)) (some (.str headHash)) with
      | .ok checkpoint => .probeSet (.persist checkpoint)
      | .error _ => .threw invalidHead

/-- What a step is given: the call to begin, whether a write fails, and the order of the keys that
the browser wants after it. -/
structure Move where
  wanted : Wanted
  fails : Bool
  order : List (List Char)

/-- What a call does with the checkpoints that it has loaded. -/
def Call.afterScan : Task → Pass → Option Checkpoint → Call
  | .load vaultId, _, latest => .loaded vaultId latest
  | .persist c, .before, latest =>
      match assertCheckpointWriteIsMonotonic latest c.headSeq c.headHash with
      | .ok () => .writeRecord c
      | .error e => .threw e
  | .persist c, .again, latest =>
      match assertCheckpointWriteIsMonotonic latest c.headSeq c.headHash with
      | .ok () => .writePointer c
      | .error e => .threw (rethrown e)

def Call.failedScan : Pass → JsError → Call
  | .before, e => .threw e
  | .again, e => .threw (rethrown e)

/-- The next operation of a call, on the storage. -/
def Call.next (storage : LocalStorage) (move : Move) : Call → Call × LocalStorage
  | .idle => (move.wanted.start, storage)
  | .probeSet task =>
      if move.fails then (.threw storageUnavailable, storage)
      else (.probeRemove task,
        storage.set VAULT_CHECKPOINT_PROBE_KEY.toList (.json (.num (.int 1))) move.order)
  | .probeRemove task =>
      (.scanning task .before .pointer, storage.remove VAULT_CHECKPOINT_PROBE_KEY.toList move.order)
  | .scanning task pass scan =>
      match scan.next (some (.str task.vaultId)) storage with
      | .error e => (Call.failedScan pass e, storage)
      | .ok (.more scan) => (.scanning task pass scan, storage)
      | .ok (.done latest) => (Call.afterScan task pass latest, storage)
  | .writeRecord c =>
      if move.fails then (.threw notSaved, storage)
      else (.scanning (.persist c) .again .pointer,
        storage.set (vaultCheckpointRecordStorageKey c.vaultId c.headSeq c.headHash)
          (checkpointText c) move.order)
  | .writePointer c =>
      if move.fails then (.threw notSaved, storage)
      else (.saved c,
        storage.set (vaultCheckpointStorageKey c.vaultId) (checkpointText c) move.order)
  | .loaded _ _ => (.idle, storage)
  | .saved _ => (.idle, storage)
  | .threw _ => (.idle, storage)

/-- The tabs of one origin. -/
structure Origin (ι : Type) where
  storage : LocalStorage
  calls : ι → Call

/-- The tab runs one operation. -/
def Origin.step (o : Origin ι) (tab : ι) (move : Move) : Origin ι :=
  let next := (o.calls tab).next o.storage move
  ⟨next.2, Function.update o.calls tab next.1⟩

/-- Any tab runs one operation. -/
def Origin.Steps (o o' : Origin ι) : Prop := ∃ tab move, o' = o.step tab move

def Origin.Reaches : Origin ι → Origin ι → Prop := Relation.ReflTransGen Origin.Steps

/-- No call has begun. -/
def Origin.Quiet (o : Origin ι) : Prop := ∀ tab, o.calls tab = .idle

/-! ## Records stay -/

def Checkpoint.key (c : Checkpoint) : List Char :=
  vaultCheckpointRecordStorageKey c.vaultId c.headSeq c.headHash

/-- The storage has the record of the checkpoint. -/
def Recorded (c : Checkpoint) (storage : LocalStorage) : Prop :=
  storage.get c.key = some (checkpointText c)

lemma Checkpoint.eq_of_key {c d : Checkpoint} (h : c.key = d.key) : c = d := by
  obtain ⟨vaultId, headSeq, headHash, _, _⟩ := c
  obtain ⟨vaultId', headSeq', headHash', _, _⟩ := d
  obtain ⟨rfl, rfl, rfl⟩ := recordKey_inj h
  rfl

lemma Checkpoint.key_ne_pointer (c : Checkpoint) (vaultId : String) :
    c.key ≠ vaultCheckpointStorageKey vaultId := by
  intro h
  have hprefix : vaultCheckpointRecordStoragePrefix c.vaultId <+: c.key :=
    recordPrefix_self c.vaultId c.headSeq c.headHash
  rw [h] at hprefix
  exact recordPrefix_ne_pointer hprefix

lemma Checkpoint.key_ne_probe (c : Checkpoint) : c.key ≠ VAULT_CHECKPOINT_PROBE_KEY.toList := by
  intro h
  have hprefix : vaultCheckpointRecordStoragePrefix c.vaultId <+: c.key :=
    recordPrefix_self c.vaultId c.headSeq c.headHash
  rw [h] at hprefix
  exact recordPrefix_ne_probe hprefix

/-- No operation takes a record away. -/
lemma Call.next_recorded {c : Checkpoint} {storage : LocalStorage} (h : Recorded c storage)
    (call : Call) (move : Move) : Recorded c (call.next storage move).2 := by
  unfold Call.next
  cases call with
  | probeSet task =>
      dsimp only
      split
      · exact h
      · exact (Storage.get_set_of_ne _ c.key_ne_probe).trans h
  | probeRemove task => exact (Storage.get_remove_of_ne _ c.key_ne_probe).trans h
  | scanning task pass scan =>
      dsimp only
      split <;> exact h
  | writeRecord d =>
      dsimp only
      split
      · exact h
      · by_cases hkey : c.key = d.key
        · obtain rfl := Checkpoint.eq_of_key hkey
          exact Storage.get_set_self _
        · exact (Storage.get_set_of_ne _ hkey).trans h
  | writePointer d =>
      dsimp only
      split
      · exact h
      · exact (Storage.get_set_of_ne _ (c.key_ne_pointer d.vaultId)).trans h
  | _ => exact h

/-- The head that a call has written. -/
def Call.written : Call → Option Checkpoint
  | .scanning (.persist c) .again _ => some c
  | .writePointer c => some c
  | .saved c => some c
  | _ => none

/-- A call that has written its record leaves it there. -/
lemma Call.next_written {c : Checkpoint} {storage : LocalStorage} {call : Call} {move : Move}
    (hold : call.written = some c → Recorded c storage)
    (h : (call.next storage move).1.written = some c) :
    Recorded c (call.next storage move).2 := by
  unfold Call.next at h ⊢
  cases call with
  | idle =>
      dsimp only at h
      unfold Wanted.start at h
      split at h
      · cases h
      · split at h <;> cases h
  | probeSet task =>
      dsimp only at h ⊢
      split at h <;> cases h
  | probeRemove task =>
      cases task <;> cases h
  | scanning task pass scan =>
      dsimp only at h ⊢
      split at h
      · unfold Call.failedScan at h
        split at h <;> cases h
      · exact hold (by cases task <;> cases pass <;> exact h)
      · unfold Call.afterScan at h
        split at h
        · cases h
        · split at h <;> cases h
        · split at h
          · exact hold h
          · cases h
  | writeRecord d =>
      dsimp only at h ⊢
      split at h
      · cases h
      · rename_i hfails
        rw [if_neg hfails]
        obtain rfl := Option.some.inj h
        exact Storage.get_set_self _
  | writePointer d =>
      dsimp only at h ⊢
      split at h
      · cases h
      · rename_i hfails
        rw [if_neg hfails]
        exact (Storage.get_set_of_ne _ (c.key_ne_pointer d.vaultId)).trans (hold h)
  | loaded => cases h
  | saved => cases h
  | threw => cases h

/-! ## A load finds the record -/

/-- The checkpoints that a scan has read. -/
def Scan.checkpoints : Scan → List Checkpoint
  | .pointer => []
  | .length _ checkpoints => checkpoints
  | .keyAt _ checkpoints => checkpoints
  | .record _ _ checkpoints => checkpoints

/-- The position that it asks for next. -/
def Scan.position : Scan → Nat
  | .pointer => 0
  | .length index _ => index
  | .keyAt index _ => index
  | .record _ index _ => index + 1

/-- The key of the record that it is about to read. -/
def Scan.reading : Scan → Option (List Char)
  | .record key _ _ => some key
  | _ => none

/-- The scan has read the record, or it will when the record stays where it is. -/
def Scan.Finds (c : Checkpoint) (storage : LocalStorage) (scan : Scan) : Prop :=
  c ∈ scan.checkpoints ∨ scan.reading = some c.key ∨ storage.Ahead c.key scan.position

/-- The checkpoint that was loaded is not older, and no fork. -/
def Covers (c : Checkpoint) (latest : Option Checkpoint) : Prop :=
  ∃ d, latest = some d ∧ c.headSeq ≤ d.headSeq ∧ (d.headSeq = c.headSeq → d.headHash = c.headHash)

lemma mem_pushCheckpoint {vaultId : JsValue} {raw : Option StoredText} {cs cs' : List Checkpoint}
    (h : pushCheckpoint vaultId raw cs = .ok cs') {c : Checkpoint} (hc : c ∈ cs) : c ∈ cs' := by
  unfold pushCheckpoint at h
  split at h
  · exact Except.ok.inj h ▸ hc
  · exact Except.ok.inj h ▸ hc
  · obtain ⟨checkpoint, -, hpush⟩ := bind_ok.mp h
    exact Except.ok.inj hpush ▸ List.mem_append_left _ hc

/-- Reading the record gives its checkpoint. -/
lemma pushCheckpoint_recorded {c : Checkpoint} {cs cs' : List Checkpoint}
    (h : pushCheckpoint (some (.str c.vaultId)) (some (checkpointText c)) cs = .ok cs') : c ∈ cs' := by
  obtain ⟨checkpoint, hparse, hpush⟩ := bind_ok.mp
    (show (parseVaultCheckpoint (checkpointText c) (some (.str c.vaultId)) >>= fun d =>
      .ok (cs ++ [d])) = .ok cs' from h)
  rw [parseVaultCheckpoint_checkpointText] at hparse
  obtain rfl := Except.ok.inj hparse
  exact Except.ok.inj hpush ▸ List.mem_append_right _ (List.mem_singleton.mpr rfl)

/-- **One operation of a scan** keeps the record in sight. -/
theorem Scan.next_finds {c : Checkpoint} {storage : LocalStorage} {scan : Scan} {out : Scanned}
    (hrecorded : Recorded c storage) (h : scan.Finds c storage)
    (hnext : scan.next (some (.str c.vaultId)) storage = .ok out) :
    match out with
    | .more scan' => scan'.Finds c storage
    | .done latest => Covers c latest := by
  unfold Scan.next at hnext
  cases scan with
  | pointer =>
      obtain ⟨cs, -, hout⟩ := bind_ok.mp hnext
      obtain rfl := Except.ok.inj hout
      rcases h with h | h | h
      · cases h
      · cases h
      · exact .inr (.inr h)
  | length index cs =>
      dsimp only at hnext
      by_cases hlt : index < storage.size
      · rw [if_pos hlt] at hnext
        obtain rfl := Except.ok.inj hnext
        exact h
      · rw [if_neg hlt] at hnext
        obtain ⟨latest, hlatest, hout⟩ := bind_ok.mp hnext
        obtain rfl := Except.ok.inj hout
        rcases h with h | h | h
        · obtain ⟨d, -, hd⟩ := latestVaultCheckpoint_ok hlatest h
          exact ⟨d, hd⟩
        · cases h
        · exact absurd h.lt hlt
  | keyAt index cs =>
      dsimp only at hnext
      rcases h with h | h | h
      · split at hnext
        · split at hnext
          · exact Except.ok.inj hnext ▸ .inl h
          · exact Except.ok.inj hnext ▸ .inl h
        · exact Except.ok.inj hnext ▸ .inl h
      · cases h
      · rcases h.next with hkey | hahead
        · -- the record is at this position
          rw [Scan.position] at hkey
          have hstarts : (vaultCheckpointRecordStoragePrefix c.vaultId).isPrefixOf c.key = true :=
            List.isPrefixOf_iff_prefix.mpr (recordPrefix_self c.vaultId c.headSeq c.headHash)
          rw [hkey] at hnext
          dsimp only at hnext
          rw [jsString_str, if_pos hstarts] at hnext
          exact Except.ok.inj hnext ▸ .inr (.inl rfl)
        · split at hnext
          · split at hnext
            · exact Except.ok.inj hnext ▸ .inr (.inr hahead)
            · exact Except.ok.inj hnext ▸ .inr (.inr hahead)
          · exact Except.ok.inj hnext ▸ .inr (.inr hahead)
  | record key index cs =>
      obtain ⟨cs', hpush, hout⟩ := bind_ok.mp hnext
      obtain rfl := Except.ok.inj hout
      rcases h with h | h | h
      · exact .inl (mem_pushCheckpoint hpush h)
      · obtain rfl := Option.some.inj h
        rw [hrecorded] at hpush
        exact .inl (pushCheckpoint_recorded hpush)
      · exact .inr (.inr h)

/-- A load of the vault of the checkpoint has the record in sight. -/
def Call.Finds (c : Checkpoint) (storage : LocalStorage) : Call → Prop
  | .scanning (.load vaultId) _ scan => vaultId = c.vaultId → scan.Finds c storage
  | .loaded vaultId latest => vaultId = c.vaultId → Covers c latest
  | _ => True

/-- An operation of the tab itself keeps it there. -/
lemma Call.next_finds {c : Checkpoint} {storage : LocalStorage} {call : Call}
    (hrecorded : Recorded c storage) (h : call.Finds c storage) (move : Move) :
    (call.next storage move).1.Finds c (call.next storage move).2 := by
  unfold Call.next
  cases call with
  | idle =>
      dsimp only
      unfold Wanted.start
      split
      · trivial
      · split <;> trivial
  | probeSet task =>
      dsimp only
      split <;> trivial
  | probeRemove task =>
      cases task with
      | load vaultId =>
          intro _
          refine .inr (.inr (Storage.Ahead.zero ?_))
          exact Storage.mem_remove.mpr ⟨c.key_ne_probe, Storage.mem_of_get hrecorded⟩
      | persist d => trivial
  | scanning task pass scan =>
      cases task with
      | load vaultId =>
          dsimp only
          split
          · unfold Call.failedScan
            split <;> trivial
          · rename_i heq
            intro hvault
            rw [Task.vaultId, hvault] at heq
            exact Scan.next_finds hrecorded (h hvault) heq
          · rename_i heq
            intro hvault
            rw [Task.vaultId, hvault] at heq
            exact Scan.next_finds hrecorded (h hvault) heq
      | persist d =>
          dsimp only
          split
          · unfold Call.failedScan
            split <;> trivial
          · trivial
          · unfold Call.afterScan
            cases pass with
            | before =>
                dsimp only
                split <;> trivial
            | again =>
                dsimp only
                split <;> trivial
  | writeRecord d =>
      dsimp only
      split <;> trivial
  | writePointer d =>
      dsimp only
      split <;> trivial
  | loaded => trivial
  | saved => trivial
  | threw => trivial

/-! ## Runs -/

/-- The step does not take the key behind the tab, when the tab goes through the keys and has not
passed it. -/
def KeepsAhead (tab : ι) (key : List Char) (o o' : Origin ι) : Prop :=
  ∀ task pass scan, o.calls tab = .scanning task pass scan →
    o.storage.Ahead key scan.position → o'.storage.Ahead key scan.position

/-- Some steps that do not take the key behind the tab. -/
def Origin.ReachesKeeping (tab : ι) (key : List Char) : Origin ι → Origin ι → Prop :=
  Relation.ReflTransGen fun o o' => o.Steps o' ∧ KeepsAhead tab key o o'

lemma Origin.Reaches.recorded {o o' : Origin ι} {c : Checkpoint} (h : o.Reaches o')
    (hrecorded : Recorded c o.storage) : Recorded c o'.storage := by
  induction h with
  | refl => exact hrecorded
  | tail _ hstep ih =>
      obtain ⟨tab, move, rfl⟩ := hstep
      exact Call.next_recorded ih _ move

/-- A head that a call has persisted is recorded. -/
lemma Origin.Reaches.saved {o o' : Origin ι} {c : Checkpoint} {tab : ι} (h : o.Reaches o')
    (hquiet : o.Quiet) (hsaved : (o'.calls tab).written = some c) : Recorded c o'.storage := by
  induction h generalizing tab with
  | refl =>
      rw [hquiet tab] at hsaved
      cases hsaved
  | tail _ hstep ih =>
      obtain ⟨actor, move, rfl⟩ := hstep
      unfold Origin.step at hsaved ⊢
      by_cases htab : tab = actor
      · subst htab
        dsimp only at hsaved
        rw [Function.update_self] at hsaved
        exact Call.next_written (fun h => ih h) hsaved
      · dsimp only at hsaved
        rw [Function.update_of_ne htab] at hsaved
        exact Call.next_recorded (ih hsaved) _ move

/-- **A step keeps the record in sight** of a load. -/
theorem Origin.Steps.finds {o o' : Origin ι} {c : Checkpoint} {tab : ι} (h : o.Steps o')
    (hkeeps : KeepsAhead tab c.key o o') (hrecorded : Recorded c o.storage)
    (hfinds : (o.calls tab).Finds c o.storage) : (o'.calls tab).Finds c o'.storage := by
  obtain ⟨actor, move, rfl⟩ := h
  by_cases htab : tab = actor
  · subst htab
    unfold Origin.step
    dsimp only
    rw [Function.update_self]
    exact Call.next_finds hrecorded hfinds move
  · have hcall : (o.step actor move).calls tab = o.calls tab := Function.update_of_ne htab ..
    rw [hcall]
    generalize hcall : o.calls tab = call at hfinds
    unfold Call.Finds at hfinds ⊢
    split
    · rename_i vaultId pass scan
      intro hvault
      rcases hfinds hvault with hmem | hreading | hahead
      · exact .inl hmem
      · exact .inr (.inl hreading)
      · exact .inr (.inr (hkeeps _ pass scan hcall hahead))
    · exact hfinds
    · trivial

lemma Origin.ReachesKeeping.reaches {o o' : Origin ι} {tab : ι} {key : List Char}
    (h : o.ReachesKeeping tab key o') : o.Reaches o' :=
  Relation.ReflTransGen.mono (fun _ _ h => h.1) o o' h

lemma Origin.ReachesKeeping.finds {o o' : Origin ι} {c : Checkpoint} {tab : ι}
    (h : o.ReachesKeeping tab c.key o') (hrecorded : Recorded c o.storage)
    (hfinds : (o.calls tab).Finds c o.storage) : (o'.calls tab).Finds c o'.storage := by
  induction h with
  | refl => exact hfinds
  | tail hrun hstep ih =>
      exact Origin.Steps.finds hstep.1 hstep.2
        ((Origin.ReachesKeeping.reaches hrun).recorded hrecorded) ih

/-! ## A storage that keeps its order -/

/-- A step after which the keys keep their order, a new key being the last one. -/
def Origin.StepsInOrder (o o' : Origin ι) : Prop :=
  ∃ tab move, move.order = [] ∧ o' = o.step tab move

def probeKey : List Char := VAULT_CHECKPOINT_PROBE_KEY.toList

/-- What an operation does to the storage: nothing, a write, or the probe goes. -/
lemma Call.next_storage (storage : LocalStorage) (call : Call) (move : Move) :
    (call.next storage move).2 = storage ∨
      (∃ k v, (call.next storage move).2 = storage.set k v move.order) ∨
      (call.next storage move).2 = storage.remove probeKey move.order := by
  unfold Call.next
  cases call with
  | probeSet task =>
      dsimp only
      split
      · exact .inl rfl
      · exact .inr (.inl ⟨_, _, rfl⟩)
  | probeRemove task => exact .inr (.inr rfl)
  | scanning task pass scan =>
      dsimp only
      split <;> exact .inl rfl
  | writeRecord d =>
      dsimp only
      split
      · exact .inl rfl
      · exact .inr (.inl ⟨_, _, rfl⟩)
  | writePointer d =>
      dsimp only
      split
      · exact .inl rfl
      · exact .inr (.inl ⟨_, _, rfl⟩)
  | _ => exact .inl rfl

/-- A call that has taken its probe away and goes on. -/
def Call.pastProbe : Call → Bool
  | .scanning _ _ _ => true
  | .writeRecord _ => true
  | .writePointer _ => true
  | _ => false

/-- Only by taking the probe away does a call get there. -/
lemma Call.next_pastProbe {storage : LocalStorage} {call : Call} {move : Move}
    (h : (call.next storage move).1.pastProbe = true) :
    call.pastProbe = true ∨ ∃ task, call = .probeRemove task := by
  unfold Call.next at h
  cases call with
  | idle =>
      dsimp only at h
      unfold Wanted.start at h
      split at h
      · cases h
      · split at h <;> cases h
  | probeSet task =>
      dsimp only at h
      split at h <;> cases h
  | probeRemove task => exact .inr ⟨task, rfl⟩
  | scanning => exact .inl rfl
  | writeRecord => exact .inl rfl
  | writePointer => exact .inl rfl
  | loaded => cases h
  | saved => cases h
  | threw => cases h

/-- While the tab goes through the keys, the probe is not before the record. -/
def ProbeAfter (tab : ι) (c : Checkpoint) (o : Origin ι) : Prop :=
  (o.calls tab).pastProbe = true → o.storage.Before c.key probeKey

lemma Origin.StepsInOrder.keeps {o o' : Origin ι} {tab : ι} {c : Checkpoint}
    (h : o.StepsInOrder o') (hafter : ProbeAfter tab c o) : KeepsAhead tab c.key o o' := by
  obtain ⟨actor, move, horder, rfl⟩ := h
  intro task pass scan hcall hahead
  have hbefore := hafter (by rw [hcall]; rfl)
  have hstorage := Call.next_storage o.storage (o.calls actor) move
  rw [horder] at hstorage
  change ((o.calls actor).next o.storage move).2.Ahead c.key scan.position
  rcases hstorage with hsame | ⟨k, v, hset⟩ | hremove
  · rw [hsame]
    exact hahead
  · rw [hset]
    exact hahead.set k v
  · rw [hremove]
    exact hahead.remove hbefore c.key_ne_probe

lemma Origin.StepsInOrder.probeAfter {o o' : Origin ι} {tab : ι} {c : Checkpoint}
    (h : o.StepsInOrder o') (hrecorded : Recorded c o.storage) (hafter : ProbeAfter tab c o) :
    ProbeAfter tab c o' := by
  obtain ⟨actor, move, horder, rfl⟩ := h
  have hmem : c.key ∈ o.storage.keys := Storage.mem_of_get hrecorded
  intro hpast
  have hstorage := Call.next_storage o.storage (o.calls actor) move
  rw [horder] at hstorage
  change ((o.calls actor).next o.storage move).2.Before c.key probeKey
  -- the tab was past its probe already, or it takes the probe away now
  have hnow : (o.calls tab).pastProbe = true ∨
      ((o.calls actor).next o.storage move).2 = o.storage.remove probeKey move.order := by
    unfold Origin.step at hpast
    by_cases htab : tab = actor
    · subst htab
      dsimp only at hpast
      rw [Function.update_self] at hpast
      refine (Call.next_pastProbe hpast).imp_right ?_
      rintro ⟨task, htask⟩
      rw [htask]
      rfl
    · dsimp only at hpast
      rw [Function.update_of_ne htab] at hpast
      exact .inl hpast
  rcases hnow with hpast | hremoved
  · have hbefore := hafter hpast
    rcases hstorage with hsame | ⟨k, v, hset⟩ | hremove
    · rw [hsame]
      exact hbefore
    · rw [hset]
      exact hbefore.set k v
    · rw [hremove]
      exact Storage.Before.removed hmem c.key_ne_probe []
  · rw [hremoved]
    exact Storage.Before.removed hmem c.key_ne_probe _

/-- **In a storage that keeps its order** no step takes a record behind a load. -/
theorem Origin.reachesKeeping_inOrder {o o' : Origin ι} {tab : ι} {c : Checkpoint}
    (h : Relation.ReflTransGen Origin.StepsInOrder o o') (hrecorded : Recorded c o.storage)
    (hidle : o.calls tab = .idle) : o.ReachesKeeping tab c.key o' := by
  have hall : o.ReachesKeeping tab c.key o' ∧ ProbeAfter tab c o' := by
    induction h with
    | refl =>
        refine ⟨.refl, fun hpast => ?_⟩
        rw [hidle] at hpast
        cases hpast
    | tail _ hstep ih =>
        obtain ⟨actor, move, horder, hstep'⟩ := hstep
        have hrun := Origin.ReachesKeeping.reaches ih.1
        refine ⟨.tail ih.1 ⟨⟨actor, move, hstep'⟩, ?_⟩, ?_⟩
        · exact Origin.StepsInOrder.keeps ⟨actor, move, horder, hstep'⟩ ih.2
        · exact Origin.StepsInOrder.probeAfter ⟨actor, move, horder, hstep'⟩
            (hrun.recorded hrecorded) ih.2
  exact hall.1

/-! ## Vaults are kept apart -/

/-- The keys of a vault: its pointer and its records. -/
def KeyOf (vaultId : String) (key : List Char) : Prop :=
  key = vaultCheckpointStorageKey vaultId ∨ vaultCheckpointRecordStoragePrefix vaultId <+: key

/-- The vault that a call writes to. -/
def Call.writes : Call → Option String
  | .writeRecord c => some c.vaultId
  | .writePointer c => some c.vaultId
  | _ => none

/-- A call leaves the texts of another vault as they are. -/
lemma Call.next_other {storage : LocalStorage} {call : Call} {vaultId : String} {key : List Char}
    (hkey : KeyOf vaultId key) (hother : call.writes ≠ some vaultId) (move : Move) :
    (call.next storage move).2.get key = storage.get key := by
  have hprobe : key ≠ probeKey := by
    rintro rfl
    rcases hkey with hkey | hkey
    · exact pointerKey_ne_probe hkey.symm
    · exact recordPrefix_ne_probe hkey
  unfold Call.next
  cases call with
  | probeSet task =>
      dsimp only
      split
      · rfl
      · exact Storage.get_set_of_ne _ hprobe
  | probeRemove task => exact Storage.get_remove_of_ne _ hprobe
  | scanning task pass scan =>
      dsimp only
      split <;> rfl
  | writeRecord d =>
      dsimp only
      split
      · rfl
      · refine Storage.get_set_of_ne _ fun heq => ?_
        rcases hkey with hkey | hkey
        · exact d.key_ne_pointer vaultId (heq.symm.trans hkey)
        · rw [heq] at hkey
          exact hother (congrArg some (recordPrefix_vaultId hkey).symm)
  | writePointer d =>
      dsimp only
      split
      · rfl
      · refine Storage.get_set_of_ne _ fun heq => ?_
        rcases hkey with hkey | hkey
        · exact hother (congrArg some (pointerKey_inj (heq.symm.trans hkey)))
        · rw [heq] at hkey
          exact recordPrefix_ne_pointer hkey
  | _ => rfl

/-- The key that a scan is about to read belongs to its vault. -/
def Call.ReadsOwn : Call → Prop
  | .scanning task _ scan => ∀ key, scan.reading = some key → KeyOf task.vaultId key
  | _ => True

lemma Call.next_readsOwn {storage : LocalStorage} (call : Call) (move : Move) :
    (call.next storage move).1.ReadsOwn := by
  unfold Call.next
  cases call with
  | idle =>
      dsimp only
      unfold Wanted.start
      split
      · trivial
      · split <;> trivial
  | probeSet task =>
      dsimp only
      split <;> trivial
  | probeRemove task =>
      intro key hkey
      cases hkey
  | scanning task pass scan =>
      dsimp only
      split
      · unfold Call.failedScan
        split <;> trivial
      · rename_i scan' hnext
        intro key hkey
        unfold Scan.next at hnext
        cases scan with
        | pointer =>
            obtain ⟨cs, -, hout⟩ := bind_ok.mp hnext
            cases hout
            cases hkey
        | length index cs =>
            dsimp only at hnext
            split at hnext
            · cases hnext
              cases hkey
            · obtain ⟨latest, -, hout⟩ := bind_ok.mp hnext
              cases hout
        | keyAt index cs =>
            dsimp only at hnext
            split at hnext
            · split at hnext
              · rename_i hstarts
                cases hnext
                obtain rfl := Option.some.inj hkey
                exact .inr (List.isPrefixOf_iff_prefix.mp hstarts)
              · cases hnext
                cases hkey
            · cases hnext
              cases hkey
        | record key' index cs =>
            obtain ⟨cs', -, hout⟩ := bind_ok.mp hnext
            cases hout
            cases hkey
      · unfold Call.afterScan
        split
        · trivial
        · split <;> trivial
        · split <;> trivial
  | writeRecord d =>
      dsimp only
      split
      · trivial
      · intro key hkey
        cases hkey
  | writePointer d =>
      dsimp only
      split <;> trivial
  | loaded => trivial
  | saved => trivial
  | threw => trivial

/-- A scan does not depend on the texts of other vaults. -/
lemma Scan.next_congr {vaultId : String} {storage storage' : LocalStorage} {scan : Scan}
    (hreads : ∀ key, scan.reading = some key → KeyOf vaultId key)
    (hkeys : storage'.keys = storage.keys)
    (hsame : ∀ key, KeyOf vaultId key → storage'.get key = storage.get key) :
    scan.next (some (.str vaultId)) storage' = scan.next (some (.str vaultId)) storage := by
  unfold Scan.next
  cases scan with
  | pointer =>
      dsimp only
      rw [jsString_str, hsame _ (.inl rfl)]
  | length index cs =>
      unfold Storage.size
      rw [hkeys]
  | keyAt index cs =>
      unfold Storage.keyAt
      rw [hkeys]
  | record key index cs =>
      dsimp only
      rw [hsame key (hreads key rfl)]

/-! ## The evidence -/

/-- The state can be reached from one in which no call has begun. -/
def Origin.Reachable (o : Origin ι) : Prop := ∃ o₀ : Origin ι, o₀.Quiet ∧ o₀.Reaches o

/-- What holds of the checkpoints of an origin. -/
structure CheckpointEvidence (o : Origin ι) : Prop where
  /-- A load that begins after a head was persisted finds it or a later one, when no step takes the
  record of the head behind the load. -/
  kept : ∀ t c, o.calls t = .saved c → ∀ o₁, o.Reaches o₁ → ∀ t', o₁.calls t' = .idle → ∀ o₂,
    o₁.ReachesKeeping t' c.key o₂ → ∀ latest, o₂.calls t' = .loaded c.vaultId latest →
      Covers c latest
  /-- So it is in every run of a storage that keeps its order. -/
  inOrder : ∀ t c, o.calls t = .saved c → ∀ o₁, o.Reaches o₁ → ∀ t', o₁.calls t' = .idle → ∀ o₂,
    Relation.ReflTransGen Origin.StepsInOrder o₁ o₂ → ∀ latest,
      o₂.calls t' = .loaded c.vaultId latest → Covers c latest
  /-- A call that does not write for a vault leaves the texts of the vault as they are. -/
  separate : ∀ t vaultId, (o.calls t).writes ≠ some vaultId → ∀ move key, KeyOf vaultId key →
    (o.step t move).storage.get key = o.storage.get key
  /-- A load does not depend on the texts of other vaults. -/
  own : ∀ t task pass scan, o.calls t = .scanning task pass scan → ∀ storage : LocalStorage,
    storage.keys = o.storage.keys →
    (∀ key, KeyOf task.vaultId key → storage.get key = o.storage.get key) →
      scan.next (some (.str task.vaultId)) storage = scan.next (some (.str task.vaultId)) o.storage

lemma Origin.Reaches.readsOwn {o o' : Origin ι} (h : o.Reaches o') (hquiet : o.Quiet) (tab : ι) :
    (o'.calls tab).ReadsOwn := by
  induction h with
  | refl =>
      rw [hquiet tab]
      trivial
  | tail _ hstep ih =>
      obtain ⟨actor, move, rfl⟩ := hstep
      unfold Origin.step
      by_cases htab : tab = actor
      · subst htab
        dsimp only
        rw [Function.update_self]
        exact Call.next_readsOwn _ move
      · dsimp only
        rw [Function.update_of_ne htab]
        exact ih

/-- **Checkpoint evidence is kept**, in every reachable state of the tabs. -/
theorem checkpoint_evidence {o : Origin ι} (h : o.Reachable) : CheckpointEvidence o := by
  obtain ⟨o₀, hquiet, hrun⟩ := h
  have hkept : ∀ t c, o.calls t = .saved c → ∀ o₁, o.Reaches o₁ → ∀ t', o₁.calls t' = .idle →
      ∀ o₂, o₁.ReachesKeeping t' c.key o₂ → ∀ latest, o₂.calls t' = .loaded c.vaultId latest →
        Covers c latest := by
    intro t c hsaved o₁ hlater t' hidle o₂ hkeeping latest hloaded
    have hrecorded : Recorded c o.storage := hrun.saved hquiet (by rw [hsaved]; rfl)
    have hfinds := hkeeping.finds (hlater.recorded hrecorded) (by rw [hidle]; trivial)
    rw [hloaded] at hfinds
    exact hfinds rfl
  refine ⟨hkept, ?_, ?_, ?_⟩
  · intro t c hsaved o₁ hlater t' hidle o₂ hinOrder latest hloaded
    have hrecorded : Recorded c o.storage := hrun.saved hquiet (by rw [hsaved]; rfl)
    have hkeeping := Origin.reachesKeeping_inOrder hinOrder (hlater.recorded hrecorded) hidle
    exact hkept t c hsaved o₁ hlater t' hidle o₂ hkeeping latest hloaded
  · intro t vaultId hother move key hkey
    exact Call.next_other hkey hother move
  · intro t task pass scan hcall storage hkeys hsame
    have hown := hrun.readsOwn hquiet t
    rw [hcall] at hown
    exact Scan.next_congr hown hkeys hsame

/-- A load that begins after a head was persisted finds it or a later one, however the browser
orders the keys. -/
def NeverLost (o : Origin ι) : Prop :=
  ∀ t c, o.calls t = .saved c → ∀ o₁, o.Reaches o₁ → ∀ t', o₁.calls t' = .idle → ∀ o₂,
    o₁.Reaches o₂ → ∀ latest, o₂.calls t' = .loaded c.vaultId latest → Covers c latest

/-! ### A record that is moved -/

/-- Some tabs run some operations, one after the other. -/
def Origin.run (o : Origin ι) (turns : List (ι × Move)) : Origin ι :=
  turns.foldl (fun o turn => o.step turn.1 turn.2) o

lemma Origin.reaches_run (o : Origin ι) (turns : List (ι × Move)) : o.Reaches (o.run turns) := by
  induction turns using List.reverseRecOn with
  | nil => exact .refl
  | append_singleton turns turn ih =>
      unfold Origin.run at ih ⊢
      rw [List.foldl_append]
      exact ih.tail ⟨turn.1, turn.2, rfl⟩

/-- The hashes of two heads of a vault. -/
def firstHash : String := encodeBase64url (List.replicate 32 1)
def secondHash : String := encodeBase64url (List.replicate 32 2)

/-- An empty storage, and no call has begun. -/
def freshOrigin : Origin (Fin 4) := ⟨⟨[], List.nodup_nil, fun _ => .empty⟩, fun _ => .idle⟩

/-- A tab goes on with its call, and the keys keep their order. -/
def turns (tab : Fin 4) (wanted : Wanted) (n : Nat) : List (Fin 4 × Move) :=
  List.replicate n (tab, ⟨wanted, false, []⟩)

/-- A tab persists the first head, but its pointer waits. Another tab persists the second head, and
then the pointer of the first one is written. -/
def stalePointer : List (Fin 4 × Move) :=
  turns 0 (.persist "v" (.int 1) firstHash) 11 ++ turns 1 (.persist "v" (.int 2) secondHash) 18 ++
    turns 0 (.load "v") 1

/-- A third tab loads the vault. When it has seen the first key, the probe of a fourth tab comes and
the browser puts the second record before that key. -/
def movedRecord : List (Fin 4 × Move) :=
  turns 2 (.load "v") 7 ++ turns 3 (.load "w") 1 ++
    [(3, ⟨.load "w", false, [vaultCheckpointRecordStorageKey "v" 2 secondHash,
      vaultCheckpointRecordStorageKey "v" 1 firstHash, vaultCheckpointStorageKey "v",
      VAULT_CHECKPOINT_PROBE_KEY.toList]⟩)] ++ turns 2 (.load "v") 8

def Call.isIdle : Call → Bool
  | .idle => true
  | _ => false

/-- The call has persisted the head. -/
def Call.hasSaved (vaultId : String) (headSeq : Nat) : Call → Bool
  | .saved c => c.vaultId == vaultId && c.headSeq == headSeq
  | _ => false

/-- The call has loaded the head. -/
def Call.hasLoaded (vaultId : String) (headSeq : Nat) : Call → Bool
  | .loaded vaultId' (some d) => vaultId' == vaultId && d.headSeq == headSeq
  | _ => false

lemma movedRecord_evaluated :
    ((freshOrigin.run stalePointer).calls 1).hasSaved "v" 2 = true ∧
    ((freshOrigin.run stalePointer).calls 2).isIdle = true ∧
    (((freshOrigin.run stalePointer).run movedRecord).calls 2).hasLoaded "v" 1 = true := by
  decide +kernel

lemma stalePointer_reachable : (freshOrigin.run stalePointer).Reachable :=
  ⟨freshOrigin, fun _ => rfl, freshOrigin.reaches_run stalePointer⟩

/-- **A head that is lost.** The second head was persisted, and then a load finds the first one. -/
theorem movedRecord_lost : (freshOrigin.run stalePointer).Reachable ∧
    ¬ NeverLost (freshOrigin.run stalePointer) := by
  refine ⟨stalePointer_reachable, fun hnever => ?_⟩
  obtain ⟨hsaved, hidle, hloaded⟩ := movedRecord_evaluated
  have hafter := Origin.reaches_run (freshOrigin.run stalePointer) movedRecord
  generalize freshOrigin.run stalePointer = o at *
  generalize o.run movedRecord = o' at *
  cases hcall : o.calls 1 with
  | saved c =>
      rw [hcall, Call.hasSaved, Bool.and_eq_true, beq_iff_eq, beq_iff_eq] at hsaved
      have hidle' : o.calls 2 = .idle := by
        cases hcall₂ : o.calls 2 with
        | idle => rfl
        | _ =>
            rw [hcall₂] at hidle
            cases hidle
      cases hcall₂ : o'.calls 2 with
      | loaded vaultId latest =>
          rw [hcall₂] at hloaded
          cases latest with
          | none => cases hloaded
          | some d =>
              rw [Call.hasLoaded, Bool.and_eq_true, beq_iff_eq, beq_iff_eq] at hloaded
              rw [hloaded.1, ← hsaved.1] at hcall₂
              obtain ⟨d', hd, hle, -⟩ := hnever 1 c hcall o .refl 2 hidle' o' hafter (some d) hcall₂
              obtain rfl := Option.some.inj hd
              omega
      | _ =>
          rw [hcall₂] at hloaded
          cases hloaded
  | _ =>
      rw [hcall] at hsaved
      cases hsaved

/-- The evidence that the two tabs have left. -/
theorem checkpoint_evidence_stalePointer : CheckpointEvidence (freshOrigin.run stalePointer) :=
  checkpoint_evidence stalePointer_reachable

end PasswordVault.Browser
