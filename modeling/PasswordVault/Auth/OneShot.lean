import PasswordVault.Auth.ChallengeBudget
import PasswordVault.Library.Requests

/-!
# A challenge is issued once and used once

* `Reachable.issued_once`: the identifier of a challenge is issued once at most, since a request
  inserts one challenge at most and draws what no other one draws.
* `ServiceRun.uses_le`: a challenge is consumed as often as it is issued, at most.
* `Reachable.used_once`: so it is consumed once at most, also when the cleanup has dropped it.
-/

namespace PasswordVault

open Transactions

variable {P : Platform} {state : AppState} {q : Request} {H : Log} {b : Bool} {s' : Db}

/-- The change brings in the challenge `id`. -/
def issuesChallenge (id : Uuid) (s s' : Db) : Bool :=
  (s.authChallenges.find? id).isNone && (s'.authChallenges.find? id).isSome

/-- The entry consumes the challenge `id`. -/
def usesChallenge (id : Uuid) (e : Entry Db Request) : Bool :=
  ((e.before.authChallenges.find? id).any fun c => c.consumedAt.isNone) &&
    (e.after.authChallenges.find? id).any fun c => c.consumedAt.isSome

/-- The challenge `id` is there, not consumed. -/
def hasOpenChallenge (id : Uuid) (s : Db) : Bool :=
  (s.authChallenges.find? id).any fun c => c.consumedAt.isNone

/-! ## Uses -/

/-- A commit consumes a challenge, or leaves it open, only if it was open or is issued now. -/
lemma ChallengeMove.balance {id : Uuid} {s : Db}
    (h : ChallengeMove q b id (s.authChallenges.find? id) (s'.authChallenges.find? id)) :
    (usesChallenge id ⟨q, b, s, s'⟩).toNat + (hasOpenChallenge id s').toNat ≤
      (hasOpenChallenge id s).toNat + (issuesChallenge id s s').toNat := by
  unfold usesChallenge hasOpenChallenge issuesChallenge
  generalize s.authChallenges.find? id = o at h ⊢
  generalize s'.authChallenges.find? id = o' at h ⊢
  cases h with
  | kept => cases o with
    | none => simp
    | some c => cases hc : c.consumedAt <;> simp [hc]
  | cleaned => simp
  | issued htype hclosing hissues hid hopen => simp [hopen]
  | used htype hclosing hopen => simp [hopen, AuthChallenge.consumed]
  | asked hclosing hissues hid hattempts hopen => simp [hopen]
  | @failed c hopen hattempts =>
      obtain ⟨-, -, -, hunused, -⟩ := isOpenChallenge_iff.mp hopen
      cases hused : (c.incremented q.now).consumedAt <;> simp [hunused, hused]
  | passed hopen hattempts =>
      obtain ⟨-, -, -, hunused, -⟩ := isOpenChallenge_iff.mp hopen
      simp [hunused, AuthChallenge.consumed]

/-- **A challenge is consumed as often as it is issued**, at most. -/
lemma ServiceRun.uses_le (h : ServiceRun P state H) (id : Uuid) :
    H.entries.countP (usesChallenge id) + (hasOpenChallenge id H.current).toNat ≤
      H.entries.countP fun e => issuesChallenge id e.before e.after := by
  refine Run.invariant (K := fun H => H.entries.countP (usesChallenge id) +
    (hasOpenChallenge id H.current).toNat ≤
      H.entries.countP fun e => issuesChallenge id e.before e.after) ?_ ?_ h
  · exact Nat.zero_le _
  · intro H q b s _ heff _ hle
    have hbalance := (Effect.challengeMove heff id).balance
    rw [countP_push, countP_push, History.push_current]
    cases husesNow : usesChallenge id ⟨q, b, H.current, s⟩ <;>
      cases hissuesNow : issuesChallenge id H.current s <;>
      simp only [husesNow, hissuesNow, Bool.toNat_true, Bool.toNat_false] at hbalance <;>
      simp only [if_true, if_false, Bool.false_eq_true] <;> omega

/-! ## Issues -/

section atMost

variable {α β : Type} {p : Db → Db → Bool} {n : Nat}

lemma atMost_attempt {x : Except ApiError α} {next : α → ApiProgram}
    (h : ∀ a, x = .ok a → (next a).AtMost p n) : (attempt x next).AtMost p n := by
  cases x with
  | ok a => exact h a rfl
  | error e => exact .answer _ n

lemma atMost_query {f : Db → β} {failed : DbError → Response} {next : β → ApiProgram}
    (hkept : ∀ s, p s s = false) (h : ∀ v, (next v).AtMost p n) :
    (Handler.alone (Statement.query f) failed next : ApiProgram).AtMost p n := by
  refine .alone (fun snap cur r hr => ?_) h
  obtain rfl := Except.ok.inj hr
  exact hkept cur

end atMost

lemma issuesChallenge_self (id : Uuid) (s : Db) : issuesChallenge id s s = false := by
  unfold issuesChallenge
  cases s.authChallenges.find? id <;> simp

/-- The cleanup brings in no challenge. -/
lemma atMost_cleanup {id : Uuid} {n : Nat} {d : Draws} {next : Unit → ApiProgram}
    (h : (next ()).AtMost (issuesChallenge id) n) :
    (cleanupExpiredChallenges d next).AtMost (issuesChallenge id) n := by
  refine .alone (fun snap cur r hr => ?_) fun _ => h
  obtain rfl := Except.ok.inj hr
  have hremoved := Rows.find?_remove cur.authChallenges
    ((authChallenges.chosen (fun c => decide (c.expiresAt < d.dbClock)) snap cur).map
      AuthChallenge.id) id
  unfold issuesChallenge
  cases hfound : cur.authChallenges.find? id with
  | some c => rfl
  | none =>
      rw [hfound, ite_self] at hremoved
      exact (congrArg Option.isSome hremoved : _)

lemma atMost_rateLimit {id : Uuid} {n : Nat} {d : Draws} {handle : String}
    {challengeType : ChallengeType} {next : Unit → ApiProgram}
    (h : (next ()).AtMost (issuesChallenge id) n) :
    (enforceChallengeRateLimit d handle challengeType next).AtMost (issuesChallenge id) n := by
  refine atMost_query (issuesChallenge_self id) fun count => ?_
  dsimp only
  split
  · exact .answer _ n
  · exact h

lemma atMost_loadLoginMetadata {id : Uuid} {n : Nat} {handle : String}
    {next : Option LoginMetadata → ApiProgram}
    (h : ∀ metadata, (next metadata).AtMost (issuesChallenge id) n) :
    (loadLoginMetadata handle next).AtMost (issuesChallenge id) n := by
  refine atMost_query (issuesChallenge_self id) fun row => ?_
  rcases row with _ | row
  · exact h none
  · dsimp only
    split
    · exact .answer _ n
    · exact h (some _)

/-- A request to start something inserts one challenge at most. -/
lemma serve_atMost (id : Uuid) (hissues : q.action.issues.isSome = true) :
    (serve P state q).AtMost (issuesChallenge id) 1 := by
  have hinsert : ∀ (c : AuthChallenge) (next : Unit → ApiProgram),
      (∀ u, (next u).AtMost (issuesChallenge id) 0) →
      (onPool (authChallenges.insert c) next).AtMost (issuesChallenge id) 1 :=
    fun c next h => .once h
  unfold Action.issues at hissues
  split at hissues
  · rename_i request haction
    unfold serve handler
    rw [haction]
    unfold registerStart Handler.run
    refine atMost_attempt fun _ _ => atMost_attempt fun _ _ => atMost_attempt fun handle _ => ?_
    refine atMost_cleanup (atMost_rateLimit (hinsert _ _ fun u => ?_))
    exact atMost_attempt fun _ _ => .answer _ 0
  · rename_i request haction
    unfold serve handler
    rw [haction]
    unfold loginStart Handler.run
    refine atMost_attempt fun _ _ => atMost_attempt fun _ _ => atMost_attempt fun key _ => ?_
    refine atMost_attempt fun handle _ => atMost_attempt fun nonce _ => ?_
    refine atMost_cleanup (atMost_rateLimit (atMost_loadLoginMetadata fun metadata => ?_))
    exact hinsert _ _ fun u => atMost_attempt fun _ _ => .answer _ 0
  · cases hissues

/-! ## All requests together -/

lemma Fresh.irrefl {P : Platform} (q : Request) : ¬ Fresh P q q := fun h => h.1 0 0 rfl

/-- Two entries of a reachable log: they are of one request, or of two that draw nothing in
common. -/
lemma Reachable.same_or_fresh {sys : Service} (h : Reachable P state sys) {e e' : Entry Db Request}
    (he : e ∈ sys.history.entries) (he' : e' ∈ sys.history.entries) :
    e'.request = e.request ∨ Fresh P e.request e'.request := by
  obtain ⟨t, ht, hreq⟩ := h.ok.known e he
  obtain ⟨t', ht', hreq'⟩ := h.ok.known e' he'
  rw [← hreq, ← hreq']
  obtain ⟨i, hi, rfl⟩ := List.mem_iff_getElem.mp ht
  obtain ⟨j, hj, rfl⟩ := List.mem_iff_getElem.mp ht'
  have hpair := List.pairwise_iff_getElem.mp h.ok.distinct
  rcases Nat.lt_trichotomy i j with hlt | rfl | hlt
  · exact .inr (hpair i j hi hj hlt)
  · exact .inl rfl
  · exact .inr (hpair j i hj hi hlt).symm

/-- The entry that issues a challenge draws its identifier: at the start of something on its own,
or for a second factor in a transaction. -/
lemma ServiceRun.issuing_entry (h : ServiceRun P state H) {id : Uuid} {e : Entry Db Request}
    (he : e ∈ H.entries) (hissues : issuesChallenge id e.before e.after = true) :
    (∃ i, e.request.draws.uuid i = id) ∧
      (e.closing = false ∧ e.request.action.issues.isSome = true ∨
        e.closing = true ∧ e.request.action.issues = none) := by
  obtain ⟨l₁, l₂, hsplit⟩ := List.append_of_mem he
  obtain ⟨H₁, -, -, hbefore, heff, -⟩ := Run.split h hsplit
  have hmove := Effect.challengeMove heff id
  rw [hbefore] at hmove
  unfold issuesChallenge at hissues
  generalize e.before.authChallenges.find? id = o at hmove hissues
  generalize e.after.authChallenges.find? id = o' at hmove hissues
  cases hmove with
  | kept => cases o <;> simp at hissues
  | cleaned => simp at hissues
  | issued htype hclosing hsome hid => exact ⟨⟨0, hid⟩, .inl ⟨hclosing, hsome⟩⟩
  | used => simp at hissues
  | asked hclosing hnone hid => exact ⟨⟨2, hid⟩, .inr ⟨hclosing, hnone⟩⟩
  | failed => simp at hissues
  | passed => simp at hissues

/-- **A challenge is issued once**, at most. -/
theorem Reachable.issued_once {sys : Service} (h : Reachable P state sys) (id : Uuid) :
    (sys.history.entries.countP fun e => issuesChallenge id e.before e.after) ≤ 1 := by
  by_contra hmore
  obtain ⟨l₁, e, l₂, hsplit, hissues, e', he', hissues'⟩ := exists_two_of_countP (not_le.mp hmore)
  have hmem : e ∈ sys.history.entries := by
    rw [hsplit]
    exact List.mem_append_right _ List.mem_cons_self
  have hmem' : e' ∈ sys.history.entries := by
    rw [hsplit]
    exact List.mem_append_right _ (List.mem_cons_of_mem _ he')
  obtain ⟨⟨i, hi⟩, hkind⟩ := h.run.issuing_entry hmem hissues
  obtain ⟨⟨j, hj⟩, hkind'⟩ := h.run.issuing_entry hmem' hissues'
  rcases h.same_or_fresh hmem hmem' with hsame | hfresh
  · rcases hkind with ⟨hopen, hsome⟩ | ⟨hclosing, hnone⟩ <;>
      rcases hkind' with ⟨hopen', hsome'⟩ | ⟨hclosing', hnone'⟩
    · -- one request that starts something inserts one challenge
      obtain ⟨t, ht, hreq⟩ := h.ok.known e hmem
      have hle := System.Reaches.own_le (c := fun q => q.action.issues.isSome = true) Fresh.irrefl
        (fun q hq => serve_atMost id hq) h ht (by rw [hreq]; exact hsome)
      have htwo := History.two_le_own (p := Entry.alone (issuesChallenge id)) hsplit he' hsame
        (by simp [Entry.alone, hopen, hissues]) (by simp [Entry.alone, hopen', hissues'])
      rw [hreq] at hle
      omega
    · rw [hsame, Option.eq_none_iff_forall_ne_some] at hnone'
      obtain ⟨x, hx⟩ := Option.isSome_iff_exists.mp hsome
      exact hnone' x hx
    · rw [hsame, hnone] at hsome'
      cases hsome'
    · -- one request commits one transaction
      obtain ⟨m₁, m₂, rfl⟩ := List.append_of_mem he'
      have hpair := h.run.pairwise_fresh
      rw [hsplit, List.pairwise_append] at hpair
      have hfresh := List.rel_of_pairwise_cons hpair.2.1
        (List.mem_append_right m₁ List.mem_cons_self) hclosing hclosing'
      rw [hsame] at hfresh
      exact Fresh.irrefl _ hfresh
  · exact hfresh.1 i j (hi.trans hj.symm)

/-- **A challenge is consumed once**, at most. -/
theorem Reachable.used_once {sys : Service} (h : Reachable P state sys) (id : Uuid) :
    sys.history.entries.countP (usesChallenge id) ≤ 1 :=
  calc sys.history.entries.countP (usesChallenge id)
    _ ≤ sys.history.entries.countP fun e => issuesChallenge id e.before e.after :=
      le_trans (Nat.le_add_right _ _) (h.run.uses_le id)
    _ ≤ 1 := h.issued_once id

end PasswordVault
